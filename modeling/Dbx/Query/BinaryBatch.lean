import Dbx.Query.VectorCommands

/-!
# Binary batches

What `VADDBIN` makes of its blob, for every dimension.
-/

set_option autoImplicit false

namespace Dbx.Query

open Dbx.Engine

/-- A blob of whole entries, with their ids and vectors. -/
inductive Entries (dim : Nat) : Bytes → List (Bytes × Vec) → Prop
  | nil : Entries dim [] []
  | entry {id data rest : Bytes} {items : List (Bytes × Vec)} (idLen : UInt8) :
      id.length = idLen.toNat → data.length = dim * 4 → Entries dim rest items →
      Entries dim (idLen :: (id ++ (data ++ rest))) ((id, machineWords data) :: items)

/-- Behind whole entries there is an id after which the end of the vector, as an `int`, is past
2^63 and comes out inside the blob. -/
inductive Wraps (dim length : Nat) : Bytes → Prop
  | here {id rest : Bytes} (idLen : UInt8) : id.length = idLen.toNat →
      2 ^ 63 ≤ length - rest.length + dim * 4 →
      ¬ Int64.ofNat length < Int64.ofNat (length - rest.length) + Int64.ofNat dim * 4 →
      Wraps dim length (idLen :: (id ++ rest))
  | later {id data rest : Bytes} (idLen : UInt8) : id.length = idLen.toNat →
      data.length = dim * 4 → Wraps dim length rest →
      Wraps dim length (idLen :: (id ++ (data ++ rest)))

variable {dim length fuel : Nat} {blob : Bytes} {items : List (Bytes × Vec)}

-- The end of a vector that does not reach 2^63 is compared as it is.
theorem end_lt_iff {offset : Nat} (small : length < 2 ^ 63) (short : offset + dim * 4 < 2 ^ 63) :
    Int64.ofNat length < Int64.ofNat offset + Int64.ofNat dim * 4 ↔ length < offset + dim * 4 := by
  have total : Int64.ofNat offset + Int64.ofNat dim * 4 = Int64.ofNat (offset + dim * 4) := by
    rw [Int64.ofNat_add, Int64.ofNat_mul]
    rfl
  rw [total, Int64.lt_iff_toInt_lt, Int64.toInt_ofNat_of_lt small, Int64.toInt_ofNat_of_lt short]
  omega

theorem parseBinaryItems_entries (small : length < 2 ^ 63) (inside : blob.length ≤ length)
    (enough : blob.length ≤ fuel) (entries : Entries dim blob items) :
    parseBinaryItems dim length fuel blob = .ok items := by
  induction entries generalizing fuel with
  | nil => cases fuel <;> rfl
  | @entry id data rest items idLen idSize dataSize _ ih =>
    obtain _ | fuel := fuel
    · simp at enough
    simp only [List.length_cons, List.length_append] at inside enough
    simp only [parseBinaryItems, ← idSize, List.drop_left, List.take_left, List.length_append]
    rw [if_neg (by omega), if_neg (by rw [end_lt_iff small] <;> omega), if_neg (by omega),
      ← dataSize, List.drop_left, List.take_left, ih (by omega) (by omega)]

theorem parseBinaryItems_wraps (small : length < 2 ^ 63) (inside : blob.length ≤ length)
    (enough : blob.length ≤ fuel) (wraps : Wraps dim length blob) :
    parseBinaryItems dim length fuel blob = .error errPanic := by
  induction wraps generalizing fuel with
  | here idLen idSize far back =>
    obtain _ | fuel := fuel
    · simp at enough
    simp only [parseBinaryItems, ← idSize, List.drop_left, List.length_append]
    rw [if_neg (by omega), if_neg back, if_pos far]
  | @later id data rest idLen idSize dataSize _ ih =>
    obtain _ | fuel := fuel
    · simp at enough
    simp only [List.length_cons, List.length_append] at inside enough
    simp only [parseBinaryItems, ← idSize, List.drop_left, List.length_append]
    rw [if_neg (by omega), if_neg (by rw [end_lt_iff small] <;> omega), if_neg (by omega),
      ← dataSize, List.drop_left, ih (by omega) (by omega)]

theorem parseBinaryItems_cases (small : length < 2 ^ 63) (inside : blob.length ≤ length)
    (enough : blob.length ≤ fuel) :
    (∃ items, parseBinaryItems dim length fuel blob = .ok items ∧ Entries dim blob items) ∨
      Wraps dim length blob ∨
      ∃ message, parseBinaryItems dim length fuel blob = .error message ∧ message ≠ errPanic := by
  induction fuel generalizing blob with
  | zero =>
    obtain rfl := List.length_eq_zero_iff.mp (Nat.le_zero.mp enough)
    exact .inl ⟨[], rfl, .nil⟩
  | succ fuel ih =>
    obtain _ | ⟨idLen, rest⟩ := blob
    · exact .inl ⟨[], rfl, .nil⟩
    rw [parseBinaryItems]
    split
    · exact .inr (.inr ⟨_, rfl, by decide⟩)
    rename_i fits
    obtain ⟨id, data, rfl, idSize⟩ : ∃ id data, rest = id ++ data ∧ id.length = idLen.toNat :=
      ⟨rest.take idLen.toNat, rest.drop idLen.toNat, (List.take_append_drop ..).symm,
        List.length_take_of_le (Nat.not_lt.mp fits)⟩
    simp only [← idSize, List.drop_left, List.take_left]
    split
    · exact .inr (.inr ⟨_, rfl, by decide⟩)
    rename_i back
    split
    · exact .inr (.inl (.here idLen idSize ‹_› back))
    rename_i short
    simp only [List.length_cons, List.length_append] at inside enough
    rw [end_lt_iff small (by omega)] at back
    obtain ⟨words, rest, rfl, size⟩ : ∃ words rest, data = words ++ rest ∧
        words.length = dim * 4 :=
      ⟨data.take (dim * 4), data.drop (dim * 4), (List.take_append_drop ..).symm,
        List.length_take_of_le (by omega)⟩
    rw [List.length_append] at inside enough
    simp only [← size, List.drop_left, List.take_left]
    obtain ⟨items, parsed, entries⟩ | wraps | ⟨message, failed, other⟩ :=
      @ih rest (by omega) (by omega)
    · exact .inl ⟨_, by rw [parsed], .entry idLen idSize size entries⟩
    · exact .inr (.inl (.later idLen idSize size wraps))
    · exact .inr (.inr ⟨message, by rw [failed], other⟩)

/-- The decoder takes exactly the blobs of whole entries and never panics, unless the end of a
vector wraps. -/
theorem binary_batch_exact_iff (dim : Nat) {blob : Bytes} (small : blob.length < 2 ^ 63) :
    (parseBinaryItems dim blob.length blob.length blob ≠ .error errPanic ∧
        ∀ items, parseBinaryItems dim blob.length blob.length blob = .ok items ↔
          Entries dim blob items) ↔ ¬ Wraps dim blob.length blob := by
  constructor
  · rintro ⟨calm, -⟩ wraps
    exact calm (parseBinaryItems_wraps small (Nat.le_refl _) (Nat.le_refl _) wraps)
  · intro straight
    have taken (items) (entries : Entries dim blob items) :=
      parseBinaryItems_entries small (Nat.le_refl _) (Nat.le_refl _) entries
    obtain ⟨items, parsed, entries⟩ | wraps | ⟨message, failed, other⟩ :=
      @parseBinaryItems_cases dim _ _ blob small (Nat.le_refl _) (Nat.le_refl _)
    · rw [parsed]
      refine ⟨by rintro ⟨⟩, fun others => ⟨?_, fun found => parsed ▸ taken others found⟩⟩
      rintro ⟨⟩
      exact entries
    · exact absurd wraps straight
    · rw [failed]
      refine ⟨fun same => other (Except.error.inj same),
        fun items => ⟨by rintro ⟨⟩, fun found => ?_⟩⟩
      exact failed ▸ taken items found

example : parseBinaryItems (2 ^ 61) 1 1 [0] = .error errPanic := by decide

theorem one_entry_decoded :
    ([1, 0x61, 0, 0, 0x80, 0x3f] : Bytes).length < 2 ^ 63 ∧
      parseBinaryItems 1 6 6 [1, 0x61, 0, 0, 0x80, 0x3f] ≠ .error errPanic := by
  have small : ([1, 0x61, 0, 0, 0x80, 0x3f] : Bytes).length < 2 ^ 63 := by decide
  refine ⟨small, ((binary_batch_exact_iff 1 small).mpr fun wraps => ?_).1⟩
  cases parseBinaryItems_wraps small (Nat.le_refl _) (Nat.le_refl _) wraps

end Dbx.Query
