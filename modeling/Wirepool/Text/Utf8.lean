/-!
# Text as bytes

Text is sent in UTF-8. Every text has its bytes, and no other bytes spell it;
bytes that are not well-formed spell no text.
-/

namespace Wirepool

/-- The bytes of a text. -/
def utf8Bytes (s : String) : List UInt8 := s.toByteArray.data.toList

/-- **The text that bytes spell**, if they are well-formed. -/
def text? (row : List UInt8) : Option String :=
  String.fromUTF8? ⟨row.toArray⟩

/-- The bytes of a text spell it. -/
@[simp] theorem text?_utf8Bytes (s : String) : text? (utf8Bytes s) = some s := by
  simp [text?, utf8Bytes, String.fromUTF8?, String.fromUTF8, s.isValidUTF8]

/-- Only the bytes of a text spell it. -/
theorem eq_utf8Bytes_of_text? {row : List UInt8} {s : String} (h : text? row = some s) :
    row = utf8Bytes s := by
  unfold text? String.fromUTF8? at h
  split at h
  · cases h
    simp [utf8Bytes, String.fromUTF8]
  · cases h

end Wirepool
