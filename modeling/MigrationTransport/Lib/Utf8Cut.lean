import Mathlib

/-!
A UTF-8 byte stream that is cut into pieces, each decoded on its own. The pieces of a valid
stream are valid if and only if each starts with the first byte of a character, and then their
texts together are the text of the stream.
-/
namespace Utf8

def Valid (bytes : List UInt8) : Prop := bytes.toByteArray.IsValidUTF8

def decode (bytes : List UInt8) : Option String := String.fromUTF8? bytes.toByteArray

/-- No continuation byte comes first. -/
def StartsCharacter : List UInt8 → Prop
  | [] => True
  | byte :: _ => byte.IsUTF8FirstByte

instance : DecidablePred StartsCharacter
  | [] => isTrue trivial
  | byte :: _ => inferInstanceAs (Decidable byte.IsUTF8FirstByte)

variable {bytes first second : List UInt8} {text : String} {pieces : List (List UInt8)}

theorem decode_some : decode bytes = some text ↔ bytes.toByteArray = text.toByteArray := by
  unfold decode String.fromUTF8?
  constructor
  · intro decoded
    split at decoded
    · rw [← Option.some.inj decoded]
      rfl
    · exact absurd decoded (by simp)
  · intro same
    have valid : bytes.toByteArray.IsValidUTF8 := by
      rw [same]
      exact text.isValidUTF8
    rw [dif_pos valid, Option.some.injEq, ← String.toByteArray_inj]
    exact same

theorem decode_isSome : (decode bytes).isSome ↔ Valid bytes := by
  unfold decode String.fromUTF8? Valid
  split
  · simpa
  · simpa

theorem decode_append {firstText secondText : String} (decoded : decode first = some firstText)
    (andThen : decode second = some secondText) :
    decode (first ++ second) = some (firstText ++ secondText) := by
  rw [decode_some, List.toByteArray_append, decode_some.mp decoded, decode_some.mp andThen]
  rfl

theorem valid_starts (valid : Valid bytes) : StartsCharacter bytes := by
  cases bytes with
  | nil => trivial
  | cons byte rest =>
    have positive : 0 < (byte :: rest).toByteArray.size := by simp
    have start := valid.isUTF8FirstByte_getElem_zero positive
    rw [List.getElem_toByteArray] at start
    exact start

section Cut
variable (same : (first ++ second).toByteArray = text.toByteArray)
include same

theorem size_cut : text.rawEndPos.byteIdx = first.length + second.length := by
  rw [String.byteIdx_rawEndPos, ← String.size_toByteArray, ← same, List.size_toByteArray,
    List.length_append]

theorem boundary_starts : (⟨first.length⟩ : String.Pos.Raw).IsValid text ↔
    StartsCharacter second := by
  have size := size_cut same
  rw [String.Pos.Raw.isValid_iff_isUTF8FirstByte]
  cases second with
  | nil =>
    refine iff_of_true (.inl ?_) trivial
    rw [String.Pos.Raw.ext_iff, size]
    rfl
  | cons byte rest =>
    rw [List.length_cons] at size
    have before : (⟨first.length⟩ : String.Pos.Raw) < text.rawEndPos := by
      rw [String.Pos.Raw.lt_iff, size]
      exact Nat.lt_add_of_pos_right (Nat.succ_pos _)
    have here : text.getUTF8Byte ⟨first.length⟩ before = byte := by
      simp [String.getUTF8Byte, ← same, -List.toByteArray_append]
    constructor
    · rintro (ended | ⟨_, start⟩)
      · exact absurd ended (by rw [String.Pos.Raw.ext_iff, size]; simp)
      · rw [here] at start
        exact start
    · intro start
      exact .inr ⟨before, by rw [here]; exact start⟩

theorem valid_before : Valid first ↔ StartsCharacter second := by
  have size := size_cut same
  have taken : text.toByteArray.extract 0 first.length = first.toByteArray := by
    rw [← same, List.toByteArray_append]
    exact ByteArray.extract_append_eq_left (List.size_toByteArray).symm
  rw [← boundary_starts same, String.Pos.Raw.isValid_iff_isValidUTF8_extract_zero, taken]
  refine (and_iff_right ?_).symm
  rw [String.Pos.Raw.le_iff, size]
  exact Nat.le_add_right _ _

theorem valid_after (starts : StartsCharacter second) : Valid second := by
  have size := size_cut same
  have left : text.toByteArray.extract first.length text.utf8ByteSize = second.toByteArray := by
    rw [← same, List.toByteArray_append, ← String.byteIdx_rawEndPos, size]
    apply ByteArray.extract_append_eq_right
    · rw [List.size_toByteArray]
    · rw [List.size_toByteArray, List.size_toByteArray]
  have cut := ((boundary_starts same).mpr starts).isValidUTF8_extract_utf8ByteSize
  rw [left] at cut
  exact cut

end Cut

theorem starts_append (starts : StartsCharacter first) (andThen : StartsCharacter second) :
    StartsCharacter (first ++ second) := by
  cases first with
  | nil => exact andThen
  | cons byte rest => exact starts

theorem starts_flatten (every : ∀ piece ∈ pieces, StartsCharacter piece) :
    StartsCharacter pieces.flatten := by
  induction pieces with
  | nil => trivial
  | cons piece pieces ih =>
    obtain ⟨here, later⟩ := List.forall_mem_cons.mp every
    rw [List.flatten_cons]
    exact starts_append here (ih later)

theorem valid_pieces (whole : Valid pieces.flatten) :
    (∀ piece ∈ pieces, Valid piece) ↔ ∀ piece ∈ pieces, StartsCharacter piece := by
  constructor
  · intro every piece member
    exact valid_starts (every piece member)
  · intro every
    induction pieces with
    | nil => simp
    | cons piece pieces ih =>
      obtain ⟨-, later⟩ := List.forall_mem_cons.mp every
      have rest : StartsCharacter pieces.flatten := starts_flatten later
      obtain ⟨text, decoded⟩ := Option.isSome_iff_exists.mp (decode_isSome.mpr whole)
      rw [List.flatten_cons] at decoded
      have same := decode_some.mp decoded
      rw [List.forall_mem_cons]
      exact ⟨(valid_before same).mpr rest, ih (valid_after same rest) later⟩

theorem decode_pieces (every : ∀ piece ∈ pieces, Valid piece) :
    decode pieces.flatten = some (String.join (pieces.filterMap decode)) := by
  induction pieces with
  | nil => exact decode_some.mpr rfl
  | cons piece pieces ih =>
    obtain ⟨here, later⟩ := List.forall_mem_cons.mp every
    obtain ⟨text, decoded⟩ := Option.isSome_iff_exists.mp (decode_isSome.mpr here)
    rw [List.flatten_cons, List.filterMap_cons, decoded, String.join_cons]
    exact decode_append decoded (ih later)

end Utf8
