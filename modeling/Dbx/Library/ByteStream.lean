import Mathlib.Data.List.Basic
import Mathlib.Data.List.Induction
import Mathlib.Tactic.Ring

/-!
# Byte streams

Fixed-width big-endian integers and exact reads from a finite stream. An exact
read distinguishes the end of the stream before the first byte from an end
inside the requested block, because readers of framed logs act differently on
the two.
-/

set_option autoImplicit false

namespace BigEndian

/-- The `width` low-order bytes of a number, most significant byte first. -/
def encode : Nat → Nat → List UInt8
  | 0, _ => []
  | width + 1, number => encode width (number / 256) ++ [UInt8.ofNat number]

/-- The number denoted by a block of bytes, most significant byte first. -/
def value (bytes : List UInt8) : Nat :=
  bytes.foldl (fun total byte => total * 256 + byte.toNat) 0

@[simp] theorem length_encode (width number : Nat) :
    (encode width number).length = width := by
  induction width generalizing number with
  | zero => rfl
  | succ width ih => simp [encode, ih]

@[simp] theorem value_nil : value [] = 0 := rfl

theorem value_append_singleton (bytes : List UInt8) (byte : UInt8) :
    value (bytes ++ [byte]) = value bytes * 256 + byte.toNat := by
  simp [value, List.foldl_append]

theorem value_encode (width number : Nat) :
    value (encode width number) = number % 256 ^ width := by
  induction width generalizing number with
  | zero => simp [encode, Nat.mod_one]
  | succ width ih =>
    rw [encode, value_append_singleton, ih, Nat.pow_succ, Nat.mul_comm (256 ^ width) 256,
      Nat.mod_mul, UInt8.toNat_ofNat']
    omega

theorem value_encode_of_lt {width number : Nat} (fits : number < 256 ^ width) :
    value (encode width number) = number := by
  rw [value_encode, Nat.mod_eq_of_lt fits]

theorem value_lt (bytes : List UInt8) : value bytes < 256 ^ bytes.length := by
  induction bytes using List.reverseRecOn with
  | nil => exact Nat.one_pos
  | append_singleton bytes byte ih =>
    have digit := byte.toNat_lt
    rw [value_append_singleton, List.length_append, List.length_singleton, Nat.pow_succ]
    omega

theorem encode_value (bytes : List UInt8) : encode bytes.length (value bytes) = bytes := by
  induction bytes using List.reverseRecOn with
  | nil => rfl
  | append_singleton bytes byte ih =>
    have digit := byte.toNat_lt
    have high : (value bytes * 256 + byte.toNat) / 256 = value bytes := by omega
    have low : UInt8.ofNat (value bytes * 256 + byte.toNat) = byte := by
      rw [← UInt8.toNat_inj, UInt8.toNat_ofNat']
      omega
    rw [value_append_singleton, List.length_append, List.length_singleton, encode, high, low, ih]

end BigEndian

/-- What an attempt to read a block of a fixed length from a stream yields. -/
inductive ExactRead (α : Type) where
  | complete (block rest : List α)
  | endOfStream
  | unexpectedEnd
deriving DecidableEq, Repr

namespace ExactRead

variable {α : Type}

/-- Read `count` items. An empty stream is reported apart from a short one. -/
def read (count : Nat) (stream : List α) : ExactRead α :=
  if count ≤ stream.length then
    .complete (stream.take count) (stream.drop count)
  else
    match stream with
    | [] => .endOfStream
    | _ :: _ => .unexpectedEnd

variable {count : Nat}

theorem read_append {block : List α} (rest : List α) (size : block.length = count) :
    read count (block ++ rest) = .complete block rest := by
  subst size
  simp [read]

theorem read_nil (positive : 0 < count) :
    read count ([] : List α) = .endOfStream := by
  simp [read, Nat.not_le.mpr positive]

variable {stream : List α}

theorem read_short (some : 0 < stream.length) (short : stream.length < count) :
    read count stream = .unexpectedEnd := by
  cases stream with
  | nil => simp at some
  | cons head tail => simp only [read, Nat.not_le.mpr short, ↓reduceIte]

theorem read_eq_complete {block rest : List α}
    (completed : read count stream = .complete block rest) :
    stream = block ++ rest ∧ block.length = count := by
  unfold read at completed
  split at completed
  · next enough =>
      cases completed
      exact ⟨(List.take_append_drop count stream).symm, by simpa using enough⟩
  · cases stream <;> cases completed

theorem read_eq_endOfStream (ended : read count stream = .endOfStream) : stream = [] := by
  unfold read at ended
  split at ended
  · cases ended
  cases stream with
  | nil => rfl
  | cons head tail => cases ended

theorem read_eq_unexpectedEnd (ended : read count stream = .unexpectedEnd) :
    0 < stream.length ∧ stream.length < count := by
  unfold read at ended
  split at ended
  · cases ended
  next short =>
    cases stream with
    | nil => cases ended
    | cons head tail => exact ⟨by simp, Nat.not_le.mp short⟩

theorem read_behind {block rest : List α} (short : block.length ≤ count) :
    read count (block ++ rest) =
      match read (count - block.length) rest with
      | .complete more rest => .complete (block ++ more) rest
      | .endOfStream => if block.isEmpty then .endOfStream else .unexpectedEnd
      | .unexpectedEnd => .unexpectedEnd := by
  by_cases enough : count - block.length ≤ rest.length
  · have whole : count ≤ (block ++ rest).length := by
      rw [List.length_append]
      omega
    simp only [read, enough, whole, if_true, List.take_append, List.drop_append,
      List.take_of_length_le short, List.drop_of_length_le short, List.nil_append]
  · have short' : ¬ count ≤ (block ++ rest).length := by
      rw [List.length_append]
      omega
    simp only [read, enough, short', if_false]
    cases block with
    | nil => cases rest <;> rfl
    | cons item items => cases rest <;> rfl

end ExactRead
