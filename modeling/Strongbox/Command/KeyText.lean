import Strongbox.Command.Trouble
import Strongbox.Text.Blank
import Strongbox.Text.Encoded

/-! Keys, nonces and signatures as text: hexadecimal digits for an exact number of
bytes, with white space around them ignored. -/

namespace Strongbox.KeyText

/-- Reads exactly `n` bytes from a text; `what` names the text in errors. -/
def decode (n : Nat) (text what : String) : Except Trouble (ByteVec n) :=
  match Hex.decode (Text.encode (Text.trim text)) with
  | .error e => .error (.badHex what e)
  | .ok bytes =>
    match ByteVec.ofList? n bytes with
    | some v => .ok v
    | none => .error (.wrongLength what bytes.length n)

def encode (b : Bytes) : Bytes := Text.encode (Hex.encode b)

end Strongbox.KeyText
