/-!
# Texts as bytes

`encode` is the UTF-8 form of a text, and `decode?` reads it back; bytes that are no UTF-8 are
refused.
-/

namespace MoveDesk

/-- A sequence of bytes. -/
abbrev Bytes := List UInt8

namespace Text

/-- The bytes of a text. -/
def encode (text : String) : Bytes := text.toUTF8.data.toList

/-- The text with the given bytes. -/
def decode? (bytes : Bytes) : Option String := String.fromUTF8? ⟨bytes.toArray⟩

theorem decode?_encode (text : String) : decode? (encode text) = some text := by
  simp [decode?, encode, String.fromUTF8?, String.toUTF8, text.isValidUTF8, String.fromUTF8]

end Text

end MoveDesk
