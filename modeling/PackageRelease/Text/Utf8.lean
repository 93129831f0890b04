/-! # Bytes and UTF-8

  Contents of files, archives and digests are lists of octets. A text becomes octets by UTF-8, and
  octets become a text exactly when they are valid UTF-8.
-/

namespace PackageRelease

/-- A sequence of octets. -/
abbrev Bytes := List UInt8

namespace Text

/-- The UTF-8 form of a text. -/
def encode (s : String) : Bytes := s.toUTF8.data.toList

/-- The text whose UTF-8 form is given, if there is one. -/
def decode? (b : Bytes) : Option String := String.fromUTF8? ⟨b.toArray⟩

theorem decode?_encode (s : String) : decode? (encode s) = some s := by
  have h : (⟨(encode s).toArray⟩ : ByteArray) = s.toByteArray := by
    simp [encode]
  unfold decode? String.fromUTF8?
  rw [h, dif_pos s.isValidUTF8]
  rfl

/-- The number of octets that UTF-8 needs for the characters. -/
def utf8Length : List Char → Nat
  | [] => 0
  | c :: cs => c.utf8Size + utf8Length cs

/-- The longest run of leading characters whose UTF-8 form has at most `limit` octets. -/
def takeUtf8 : Nat → List Char → List Char
  | _, [] => []
  | limit, c :: cs => if c.utf8Size ≤ limit then c :: takeUtf8 (limit - c.utf8Size) cs else []

end Text

end PackageRelease
