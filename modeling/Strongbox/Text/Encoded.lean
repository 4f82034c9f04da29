import Strongbox.Bytes

/-! Text as UTF-8 bytes. Reading accepts exactly the encodings of texts. -/

namespace Strongbox.Text

def encode (s : String) : Bytes := s.toList.flatMap String.utf8EncodeChar

/-- The text that a byte string encodes, if it encodes one. -/
def decode? (b : Bytes) : Option String := String.fromUTF8? b.toByteArray

theorem toByteArray_encode (s : String) : (encode s).toByteArray = s.toByteArray := by
  have h : (String.ofList s.toList).toByteArray = s.toList.utf8Encode := String.toByteArray_ofList
  rw [String.ofList_toList] at h
  rw [h]
  rfl

@[simp] theorem decode?_encode (s : String) : decode? (encode s) = some s := by
  simp only [decode?, toByteArray_encode, String.fromUTF8?]
  rw [dif_pos s.isValidUTF8]
  rfl

/-- The part of a text between two places, which are counted in bytes. Places within a
character delimit no text. -/
def slice? (s : String) (start stop : Nat) : Option String :=
  decode? ((encode s).extract start stop)

def width : List Char → Nat
  | [] => 0
  | c :: cs => c.utf8Size + width cs

/-- A width is the length of an encoding. -/
theorem length_encode (s : String) : (encode s).length = width s.toList := by
  rw [encode]
  induction s.toList with
  | nil => rfl
  | cons c cs ih =>
    rw [List.flatMap_cons, List.length_append, ih, String.length_utf8EncodeChar, width]

end Strongbox.Text
