import Strongbox.Failure
import Strongbox.Hex
import Strongbox.Host

/-! Why a command failed. Each trouble is a cause; its messages are a top line
and, where something else failed first, that failure's own message. -/

namespace Strongbox

inductive Trouble where
  | makeDirs (path : Path) (fault : Fault)
  | keyFilesExist
  | seedForBoxKeys
  | boxKeys (error : CryptoError)
  | signingKeys (error : CryptoError)
  | read (path : Path) (fault : Fault)
  | readInput (fault : Fault)
  | readStandard (fault : Fault)
  | openFile (path : Path) (fault : Fault)
  | write (path : Path) (fault : Fault)
  | writeStandard (fault : Fault)
  | setMode (path : Path) (fault : Fault)
  | badHex (what : String) (error : Hex.DecodeError)
  | wrongLength (what : String) (actual expected : Nat)
  | agreement (error : CryptoError)
  | sealing (error : CryptoError)
  | boxTooShort (actual : Nat)
  | unsealing (error : CryptoError)
  | signing (error : CryptoError)
  | verification
  | emptyChunks
  | hashing (error : CryptoError)
deriving DecidableEq, Repr

namespace Trouble

def message : Trouble → String
  | .makeDirs path _ => "failed to create " ++ path.text
  | .keyFilesExist => "key files already exist (use --force to overwrite)"
  | .seedForBoxKeys => "--seed only applies to signing keys"
  | .boxKeys _ => "box key generation failed"
  | .signingKeys _ => "signing key generation failed"
  | .read path _ => "failed to read " ++ path.text
  | .readInput _ => "failed to read input"
  | .readStandard _ => "failed to read stdin"
  | .openFile path _ => "failed to open " ++ path.text
  | .write path _ => "failed to write " ++ path.text
  | .writeStandard _ => "failed to write stdout"
  | .setMode path _ => "failed to set permissions on " ++ path.text
  | .badHex what _ => "invalid hex for " ++ what
  | .wrongLength what actual expected =>
    s!"wrong length for {what}: got {actual} bytes, expected {expected}"
  | .agreement _ => "key agreement failed (peer key rejected)"
  | .sealing _ => "encryption failed"
  | .boxTooShort actual =>
    s!"sealed input is {actual} bytes, shorter than the {Size.tag}-byte tag"
  | .unsealing _ => "decryption failed (wrong key, wrong nonce or tampered input)"
  | .signing _ => "signing failed"
  | .verification => "signature verification failed"
  | .emptyChunks => "--chunk-size must be at least 1"
  | .hashing error => error.message

/-- The message of what failed underneath, if anything did. -/
def cause? : Trouble → Option String
  | .makeDirs _ fault | .read _ fault | .readInput fault | .readStandard fault
  | .openFile _ fault | .write _ fault | .writeStandard fault | .setMode _ fault =>
    some fault.message
  | .badHex _ error => some error.message
  | .boxKeys error | .signingKeys error | .agreement error | .sealing error
  | .unsealing error | .signing error => some error.message
  | .keyFilesExist | .seedForBoxKeys | .wrongLength .. | .boxTooShort _ | .verification
  | .emptyChunks | .hashing _ => none

def chain (t : Trouble) : List String := t.message :: t.cause?.toList

/-- The report a failed command ends with. -/
def report (t : Trouble) : List String :=
  ("Error: " ++ t.message) ::
    match t.cause? with
    | none => []
    | some cause => ["", "Caused by:", "    " ++ cause]

end Trouble

end Strongbox
