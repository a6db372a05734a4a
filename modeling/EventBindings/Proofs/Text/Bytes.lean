import EventBindings.Proofs.Token.Spelling
import EventBindings.Proofs.Text.Trimming

namespace EventBindings.Text

/-!
The bytes of a text in UTF-8. No character has the bytes of another one at its
start, so a text that begins with the bytes of another text begins with that
text. And the first byte of a text tells whether the text could continue an
identifier.
-/

/-- The bytes of a text, one character after the other. -/
def bytes (text : List Char) : List UInt8 :=
  text.flatMap String.utf8EncodeChar

theorem bytes_cons (c : Char) (text : List Char) :
    bytes (c :: text) = String.utf8EncodeChar c ++ bytes text := rfl

theorem bytes_space (text : List Char) : bytes (' ' :: text) = 0x20 :: bytes text := rfl

theorem bytes_append (left right : List Char) :
    bytes (left ++ right) = bytes left ++ bytes right := by
  simp [bytes]

theorem length_bytes (text : List Char) : (bytes text).length = byteLength text := by
  induction text with
  | nil => rfl
  | cons c text ih =>
      rw [bytes_cons, List.length_append, String.length_utf8EncodeChar, ih, byteLength_cons]

theorem toByteArray_bytes (text : List Char) : (bytes text).toByteArray = text.utf8Encode := rfl

theorem toList_toByteArray (text : String) :
    text.toByteArray.data.toList = bytes text.toList := by
  conv => lhs; rw [← String.ofList_toList (s := text)]
  rw [String.toByteArray_ofList, ← toByteArray_bytes, List.data_toByteArray]

theorem utf8ByteSize_eq_byteLength (text : String) :
    text.utf8ByteSize = byteLength text.toList := by
  rw [← length_bytes, ← toList_toByteArray]
  rfl

theorem bytes_injective {left right : List Char} (same : bytes left = bytes right) :
    left = right := by
  have encoded : left.utf8Encode = right.utf8Encode := by
    rw [← toByteArray_bytes, ← toByteArray_bytes, same]
  have texts : String.ofList left = String.ofList right := by
    rw [← String.toByteArray_inj, String.toByteArray_ofList, String.toByteArray_ofList, encoded]
  rw [← String.toList_ofList (l := left), texts, String.toList_ofList]

/-- Behind the bytes of a text there are the bytes of a text, if all together are
those of one. -/
theorem isValidUTF8_of_append {start : List Char} {rest : List UInt8}
    (valid : (bytes start ++ rest).toByteArray.IsValidUTF8) : rest.toByteArray.IsValidUTF8 := by
  induction start with
  | nil => exact valid
  | cons c start ih =>
      have single : (String.utf8EncodeChar c).toByteArray = [c].utf8Encode :=
        List.utf8Encode_singleton.symm
      rw [bytes_cons, List.append_assoc, List.toByteArray_append, single,
        ByteArray.isValidUTF8_utf8Encode_singleton_append_iff] at valid
      exact ih valid

theorem exists_of_bytes_eq_append {start text : List Char} {rest : List UInt8}
    (same : bytes text = bytes start ++ rest) :
    ∃ behind, text = start ++ behind ∧ rest = bytes behind := by
  have valid : (bytes start ++ rest).toByteArray.IsValidUTF8 := ⟨text, by rw [← same]; rfl⟩
  obtain ⟨behind, encoded⟩ := isValidUTF8_of_append valid
  rw [← toByteArray_bytes] at encoded
  have reached : rest = bytes behind := by
    simpa using congrArg (fun array => array.data.toList) encoded
  refine ⟨behind, bytes_injective ?_, reached⟩
  rw [same, bytes_append, reached]

theorem toNat_ofUInt8 (byte : UInt8) : (Char.ofUInt8 byte).toNat = byte.toNat :=
  UInt8.toNat_toUInt32 byte

theorem not_isIdentifierPart_of_lt {c : Char} (above : 0x7F < c.toNat) :
    isIdentifierPart c = false := by
  cases part : isIdentifierPart c with
  | false => rfl
  | true =>
      have bounds := toNat_of_isIdentifierPart part
      omega

/-- The bytes of a character beyond ASCII are all beyond ASCII. -/
theorem lt_toNat_of_mem {c : Char} (above : 0x7F < c.toNat) :
    ∀ byte ∈ String.utf8EncodeChar c, 0x7F < byte.toNat := by
  have notAscii : ¬ c.val.toNat ≤ 0x7F := Nat.not_le.mpr above
  simp only [String.utf8EncodeChar, if_neg notAscii]
  split
  · simp
    omega
  · split <;> simp <;> omega

/-- A character of an identifier is its only byte, and no other character begins
with such a byte. -/
theorem isIdentifierPart_first {c : Char} {byte : UInt8} {more : List UInt8}
    (encoded : String.utf8EncodeChar c = byte :: more) :
    isIdentifierPart (Char.ofUInt8 byte) = isIdentifierPart c := by
  by_cases above : 0x7F < c.toNat
  · have first : 0x7F < byte.toNat := lt_toNat_of_mem above byte (by simp [encoded])
    rw [not_isIdentifierPart_of_lt above,
      not_isIdentifierPart_of_lt (by rwa [toNat_ofUInt8])]
  · have ascii : c.val.toNat ≤ 0x7F := Nat.not_lt.mp above
    have single : String.utf8EncodeChar c = [UInt8.ofNat c.val.toNat] := by
      simp only [String.utf8EncodeChar, if_pos ascii]
    rw [single] at encoded
    cases encoded
    have same : Char.ofUInt8 (UInt8.ofNat c.val.toNat) = c := by
      apply Char.toNat_inj.mp
      rw [toNat_ofUInt8, UInt8.toNat_ofNat_of_lt' (Nat.lt_of_le_of_lt ascii (by decide))]
      rfl
    rw [same]

theorem endsName_iff_bytes {text : List Char} : EndsName text ↔
    ∀ byte, (bytes text).head? = some byte → isIdentifierPart (Char.ofUInt8 byte) = false := by
  cases text with
  | nil => simp [EndsName, bytes]
  | cons c text =>
      obtain ⟨byte, more, encoded⟩ :=
        List.exists_cons_of_ne_nil (String.utf8EncodeChar_ne_nil (c := c))
      simp [EndsName, bytes_cons, encoded, isIdentifierPart_first encoded]

end EventBindings.Text
