import MigrationTransport.Lib.Utf8Cut

/-!
Bytes below 128. Each is a character of its own, so a stream of them may be cut anywhere and
every piece can be decoded.
-/
namespace Utf8

def Ascii (bytes : List UInt8) : Prop := ∀ byte ∈ bytes, byte < 128

instance (bytes : List UInt8) : Decidable (Ascii bytes) :=
  inferInstanceAs (Decidable (∀ byte ∈ bytes, byte < 128))

variable {bytes first second : List UInt8} {text : String}

theorem ascii_append : Ascii (first ++ second) ↔ Ascii first ∧ Ascii second :=
  List.forall_mem_append

theorem ascii_flatten {pieces : List (List UInt8)} (every : ∀ piece ∈ pieces, Ascii piece) :
    Ascii pieces.flatten := by
  intro byte member
  obtain ⟨piece, inPieces, inPiece⟩ := List.mem_flatten.mp member
  exact every piece inPieces byte inPiece

theorem ascii_char {byte : UInt8} (small : byte < 128) :
    String.utf8EncodeChar (Char.ofUInt8 byte) = [byte] := by
  have below : byte.toNat < 128 := UInt8.lt_iff_toNat_lt.mp small
  have size : (Char.ofUInt8 byte).utf8Size = 1 := by
    rw [Char.utf8Size_eq_one_iff, UInt32.le_iff_toNat_le]
    change byte.toUInt32.toNat ≤ 127
    rw [UInt8.toNat_toUInt32]
    omega
  rw [String.utf8EncodeChar_eq_singleton size]
  change [byte.toUInt32.toUInt8] = [byte]
  rw [UInt8.toUInt8_toUInt32]

theorem ascii_valid (ascii : Ascii bytes) : Valid bytes := by
  induction bytes with
  | nil => exact ByteArray.isValidUTF8_empty
  | cons byte rest ih =>
    obtain ⟨here, later⟩ := List.forall_mem_cons.mp ascii
    have one : Valid [byte] := by
      rw [Valid, ← ascii_char here]
      exact Char.isValidUTF8_toByteArray_utf8EncodeChar
    have both := ByteArray.IsValidUTF8.append one (ih later)
    rw [← List.toByteArray_append] at both
    exact both

theorem ascii_decode (ascii : Ascii bytes) : ∃ text, decode bytes = some text :=
  Option.isSome_iff_exists.mp (decode_isSome.mpr (ascii_valid ascii))

theorem ascii_text (chars : ∀ c ∈ text.toList, c.toNat < 128) :
    Ascii text.toByteArray.data.toList := by
  have encoded : text.toByteArray.data.toList = text.toList.flatMap String.utf8EncodeChar := by
    rw [← String.utf8Encode_toList, List.utf8Encode]
    simp
  rw [encoded]
  intro byte member
  obtain ⟨c, inText, inChar⟩ := List.mem_flatMap.mp member
  have small := chars c inText
  have size : c.utf8Size = 1 := by
    rw [Char.utf8Size_eq_one_iff, UInt32.le_iff_toNat_le]
    change c.toNat ≤ 127
    omega
  rw [String.utf8EncodeChar_eq_singleton size, List.mem_singleton] at inChar
  subst inChar
  rw [UInt8.lt_iff_toNat_lt]
  change c.val.toUInt8.toNat < 128
  rw [UInt32.toNat_toUInt8]
  change c.toNat % 2 ^ 8 < 128
  omega

theorem ascii_digits (n : Nat) : Ascii (toString n).toByteArray.data.toList := by
  apply ascii_text
  intro c member
  change c ∈ n.repr.toList at member
  rw [Nat.toList_repr] at member
  have digit := Nat.isDigit_of_mem_toDigits (by decide) (by decide) member
  have below : c.toNat ≤ '9'.toNat := (Char.isDigit_iff_toNat.mp digit).2
  exact Nat.lt_of_le_of_lt below (by decide)

end Utf8
