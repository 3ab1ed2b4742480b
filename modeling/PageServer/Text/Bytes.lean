/-! # Texts as bytes

A text is sent as its UTF-8 bytes, and bytes are read as a text when they are well-formed UTF-8.
-/

namespace PageServer

abbrev Bytes := List UInt8

namespace Text

def encode (text : String) : Bytes :=
  text.toList.flatMap String.utf8EncodeChar

/-- The text that the bytes spell, if they are well-formed UTF-8. -/
def decode? (bytes : Bytes) : Option String :=
  String.fromUTF8? ⟨bytes.toArray⟩

@[simp] theorem encode_empty : encode "" = [] := rfl

@[simp] theorem encode_append (a b : String) : encode (a ++ b) = encode a ++ encode b := by
  simp [encode]

end Text

end PageServer
