import Dbx.Library.ByteStream

/-!
# Buffered reading

A stream that arrives in chunks, read through a buffer of a fixed size: single
items, blocks of a given length and slices up to a delimiter. What an operation
returns depends on the contents of the stream only and not on the chunks, except
that a slice is given up when it fills the buffer.
-/

set_option autoImplicit false

/-- A stream with the items that have been read ahead, and the chunks that reads of
the source are going to return. -/
structure BufferedReader (α : Type) (size : Nat) where
  buffered : List α
  pending : List { chunk : List α // chunk ≠ [] }
  bounded : buffered.length ≤ size

namespace BufferedReader

variable {α : Type} {size : Nat}

def unread (pending : List { chunk : List α // chunk ≠ [] }) : List α :=
  (pending.map Subtype.val).flatten

def contents (r : BufferedReader α size) : List α :=
  r.buffered ++ unread r.pending

def ofChunks (chunks : List { chunk : List α // chunk ≠ [] }) : BufferedReader α size :=
  ⟨[], chunks, Nat.zero_le size⟩

def pushBack (rest : List α) (later : List { chunk : List α // chunk ≠ [] }) :
    List { chunk : List α // chunk ≠ [] } :=
  if left : rest = [] then later else ⟨rest, left⟩ :: later

@[simp] theorem contents_ofChunks (chunks : List { chunk : List α // chunk ≠ [] }) :
    (ofChunks chunks : BufferedReader α size).contents = unread chunks := rfl

@[simp] theorem unread_nil : unread ([] : List { chunk : List α // chunk ≠ [] }) = [] := rfl

@[simp] theorem unread_cons (chunk : { chunk : List α // chunk ≠ [] })
    (later : List { chunk : List α // chunk ≠ [] }) :
    unread (chunk :: later) = chunk.1 ++ unread later := rfl

@[simp] theorem unread_pushBack (rest : List α) (later : List { chunk : List α // chunk ≠ [] }) :
    unread (pushBack rest later) = rest ++ unread later := by
  by_cases left : rest = []
  · simp [pushBack, left]
  · simp [pushBack, left]

/-- One read of the source into what is free of the buffer, none at the end. -/
def fill (r : BufferedReader α size) : Option (BufferedReader α size) :=
  match r.pending with
  | [] => none
  | chunk :: later =>
    let free := size - r.buffered.length
    some {
      buffered := r.buffered ++ chunk.1.take free
      pending := pushBack (chunk.1.drop free) later
      bounded := by
        have := r.bounded
        rw [List.length_append, List.length_take]
        omega }

variable {r : BufferedReader α size}

theorem fill_none (ended : r.fill = none) :
    r.contents = r.buffered := by
  unfold fill at ended
  cases chunks : r.pending with
  | nil => simp [contents, chunks]
  | cons chunk later => simp [chunks] at ended

variable {next : BufferedReader α size}

theorem fill_contents (filled : r.fill = some next) :
    next.contents = r.contents := by
  unfold fill at filled
  cases chunks : r.pending with
  | nil => simp [chunks] at filled
  | cons chunk later =>
    simp only [chunks, Option.some.injEq] at filled
    subst filled
    simp only [contents, chunks, unread_pushBack, unread_cons, List.append_assoc]
    rw [← List.append_assoc (chunk.1.take _), List.take_append_drop]

theorem fill_shrinks (room : r.buffered.length < size) (filled : r.fill = some next) :
    (unread next.pending).length < (unread r.pending).length := by
  unfold fill at filled
  cases chunks : r.pending with
  | nil => simp [chunks] at filled
  | cons chunk later =>
    have some := List.length_pos_iff.mpr chunk.2
    simp only [chunks, Option.some.injEq] at filled
    subst filled
    simp only [unread_pushBack, unread_cons, List.length_append, List.length_drop]
    omega

theorem fill_grows (room : r.buffered.length < size) (filled : r.fill = some next) :
    next.buffered ≠ [] := by
  unfold fill at filled
  cases chunks : r.pending with
  | nil => simp [chunks] at filled
  | cons chunk later =>
    have some := List.length_pos_iff.mpr chunk.2
    simp only [chunks, Option.some.injEq] at filled
    subst filled
    apply List.ne_nil_of_length_pos
    simp only [List.length_append, List.length_take]
    omega

/-- The outcomes of a search for a delimiter: a slice that ends in it, a slice that
fills the buffer without it, or all that is left. -/
inductive Slice (α : Type) (size : Nat) where
  | found (slice : List α) (rest : BufferedReader α size)
  | full (slice : List α) (rest : BufferedReader α size)
  | ended (slice : List α)

variable [DecidableEq α]

def readSlice (delim : α) (r : BufferedReader α size) : Slice α size :=
  if delim ∈ r.buffered then
    let content := r.buffered.takeWhile (· ≠ delim)
    .found (content ++ [delim]) {
      buffered := r.buffered.drop (content.length + 1)
      pending := r.pending
      bounded := by
        have := r.bounded
        rw [List.length_drop]
        omega }
  else if full : size ≤ r.buffered.length then
    .full r.buffered ⟨[], r.pending, Nat.zero_le size⟩
  else
    match filled : r.fill with
    | none => .ended r.buffered
    | some next => readSlice delim next
termination_by (unread r.pending).length
decreasing_by exact fill_shrinks (Nat.not_le.mp full) filled

theorem split_at_first {delim : α} {items : List α} (found : delim ∈ items) :
    items = items.takeWhile (· ≠ delim) ++
      delim :: items.drop ((items.takeWhile (· ≠ delim)).length + 1) := by
  induction items with
  | nil => cases found
  | cons item items ih =>
    by_cases same : item = delim
    · simp [same]
    have later : delim ∈ items := (List.mem_cons.mp found).resolve_left (Ne.symm same)
    rw [List.takeWhile_cons_of_pos (by simpa using same), List.cons_append, List.length_cons,
      List.drop_succ_cons]
    exact congrArg (item :: ·) (ih later)

/-- A slice is cut off the contents. It ends at the first delimiter, unless it fills
the buffer before or the stream ends. -/
def Slice.CutFrom (delim : α) (whole : List α) : Slice α size → Prop
  | .found slice rest => ∃ content, slice = content ++ [delim] ∧ delim ∉ content ∧
      content.length < size ∧ whole = content ++ delim :: rest.contents
  | .full slice rest => delim ∉ slice ∧ slice.length = size ∧ rest.buffered = [] ∧
      whole = slice ++ rest.contents
  | .ended slice => delim ∉ slice ∧ slice.length < size ∧ whole = slice

theorem readSlice_cut (delim : α) (r : BufferedReader α size) :
    (r.readSlice delim).CutFrom delim r.contents := by
  fun_induction readSlice delim r with
  | case1 r found content =>
    have split := split_at_first found
    have absent : delim ∉ content := by
      intro member
      simpa using List.all_eq_true.mp List.all_takeWhile delim member
    have inside : content.length < size := by
      have lengths := congrArg List.length split
      have := r.bounded
      simp only [List.length_append, List.length_cons] at lengths
      change r.buffered.length = content.length + _ at lengths
      omega
    refine ⟨content, rfl, absent, inside, ?_⟩
    change r.buffered ++ unread r.pending = content ++ delim :: (_ ++ unread r.pending)
    conv_lhs => rw [split]
    simp only [List.append_assoc, List.cons_append, content]
  | case2 r missing full =>
    exact ⟨missing, Nat.le_antisymm r.bounded full, rfl, rfl⟩
  | case3 r missing room filled =>
    exact ⟨missing, Nat.not_le.mp room, fill_none filled⟩
  | case4 r missing room next filled ih =>
    rw [fill_contents filled] at ih
    exact ih

omit [DecidableEq α]

def readByte (r : BufferedReader α size) : Option (α × BufferedReader α size) :=
  match r.buffered, r.bounded with
  | item :: items, bounded => some (item, ⟨items, r.pending, Nat.le_of_succ_le bounded⟩)
  | [], _ =>
    match r.fill with
    | none => none
    | some next =>
      match next.buffered, next.bounded with
      | item :: items, bounded => some (item, ⟨items, next.pending, Nat.le_of_succ_le bounded⟩)
      | [], _ => none

/-- Put the last item back. There is room for it right behind `readByte`. -/
def unreadByte (item : α) (r : BufferedReader α size) : BufferedReader α size :=
  if room : r.buffered.length < size then ⟨item :: r.buffered, r.pending, room⟩ else r

theorem contents_unreadByte (room : r.buffered.length < size) (item : α) :
    (r.unreadByte item).contents = item :: r.contents := by
  rw [unreadByte, dif_pos room]
  rfl

theorem readByte_none (positive : 0 < size) (ended : r.readByte = none) : r.contents = [] := by
  obtain ⟨buffered, pending, bounded⟩ := r
  cases buffered with
  | cons item items => simp [readByte] at ended
  | nil =>
    cases filled : (⟨[], pending, bounded⟩ : BufferedReader α size).fill with
    | none => exact fill_none filled
    | some next =>
      have grown := fill_grows positive filled
      obtain ⟨buffered, later, inside⟩ := next
      cases buffered with
      | nil => exact absurd rfl grown
      | cons item items => simp [readByte, filled] at ended

theorem readByte_some {item : α} (read : r.readByte = some (item, next)) :
    r.contents = item :: next.contents ∧ next.buffered.length < size := by
  obtain ⟨buffered, pending, bounded⟩ := r
  cases buffered with
  | cons first items =>
    simp only [readByte, Option.some.injEq, Prod.mk.injEq] at read
    obtain ⟨rfl, rfl⟩ := read
    exact ⟨rfl, bounded⟩
  | nil =>
    cases filled : (⟨[], pending, bounded⟩ : BufferedReader α size).fill with
    | none => simp [readByte, filled] at read
    | some ahead =>
      have same := fill_contents filled
      obtain ⟨buffered, later, inside⟩ := ahead
      cases buffered with
      | nil => simp [readByte, filled] at read
      | cons first items =>
        simp only [readByte, filled, Option.some.injEq, Prod.mk.injEq] at read
        obtain ⟨rfl, rfl⟩ := read
        exact ⟨same.symm, inside⟩

/-- What one read of at most `count` items returns. A read that is at least as large
as the buffer goes around it. -/
def readSome (count : Nat) (r : BufferedReader α size) : Option (List α × BufferedReader α size) :=
  match r.buffered, r.bounded with
  | item :: items, bounded =>
    some ((item :: items).take count, ⟨(item :: items).drop count, r.pending, by
      rw [List.length_drop]
      omega⟩)
  | [], _ =>
    match r.pending with
    | [] => none
    | chunk :: later =>
      if size ≤ count then
        some (chunk.1.take count, ⟨[], pushBack (chunk.1.drop count) later, Nat.zero_le size⟩)
      else
        some ((chunk.1.take size).take count,
          ⟨(chunk.1.take size).drop count, pushBack (chunk.1.drop size) later, by
            rw [List.length_drop, List.length_take]
            omega⟩)

theorem readSome_none {count : Nat} (ended : r.readSome count = none) :
    r.contents = [] := by
  obtain ⟨buffered, pending, bounded⟩ := r
  cases buffered with
  | cons item items => simp [readSome] at ended
  | nil =>
    cases pending with
    | nil => rfl
    | cons chunk later =>
      simp only [readSome] at ended
      split at ended <;> cases ended

theorem readSome_some {count : Nat} {block : List α} (some : 0 < count)
    (read : r.readSome count = .some (block, next)) :
    block ≠ [] ∧ block.length ≤ count ∧ r.contents = block ++ next.contents := by
  obtain ⟨buffered, pending, bounded⟩ := r
  cases buffered with
  | cons item items =>
    simp only [readSome, Option.some.injEq, Prod.mk.injEq] at read
    obtain ⟨rfl, rfl⟩ := read
    refine ⟨?_, ?_, ?_⟩
    · apply List.ne_nil_of_length_pos
      rw [List.length_take, List.length_cons]
      omega
    · rw [List.length_take]
      exact Nat.min_le_left _ _
    · simp only [contents]
      rw [← List.append_assoc, List.take_append_drop]
  | nil =>
    cases pending with
    | nil => simp [readSome] at read
    | cons chunk later =>
      have long := List.length_pos_iff.mpr chunk.2
      simp only [readSome] at read
      split at read
      · simp only [Option.some.injEq, Prod.mk.injEq] at read
        obtain ⟨rfl, rfl⟩ := read
        refine ⟨?_, ?_, ?_⟩
        · apply List.ne_nil_of_length_pos
          rw [List.length_take]
          omega
        · rw [List.length_take]
          exact Nat.min_le_left _ _
        · simp only [contents, unread_pushBack, unread_cons, List.nil_append]
          rw [← List.append_assoc, List.take_append_drop]
      · simp only [Option.some.injEq, Prod.mk.injEq] at read
        obtain ⟨rfl, rfl⟩ := read
        refine ⟨?_, ?_, ?_⟩
        · apply List.ne_nil_of_length_pos
          rw [List.length_take, List.length_take]
          omega
        · rw [List.length_take]
          exact Nat.min_le_left _ _
        · simp only [contents, unread_pushBack, unread_cons, List.nil_append]
          rw [← List.append_assoc, List.take_append_drop, ← List.append_assoc,
            List.take_append_drop]

inductive FullRead (α : Type) (size : Nat) where
  | complete (block : List α) (rest : BufferedReader α size)
  | endOfStream
  | unexpectedEnd

def FullRead.flat : FullRead α size → ExactRead α
  | .complete block rest => .complete block rest.contents
  | .endOfStream => .endOfStream
  | .unexpectedEnd => .unexpectedEnd

/-- Read `count` items behind those of `block`, by as many reads as it takes. -/
def readBehind (count : Nat) (block : List α) (r : BufferedReader α size) : FullRead α size :=
  if count = 0 then .complete block r
  else
    match r.readSome count with
    | none => if block.isEmpty then .endOfStream else .unexpectedEnd
    | some ([], _) => .unexpectedEnd
    | some (item :: items, next) =>
      readBehind (count - (item :: items).length) (block ++ item :: items) next
termination_by count
decreasing_by
  rw [List.length_cons]
  omega

def readFull (count : Nat) (r : BufferedReader α size) : FullRead α size :=
  readBehind count [] r

theorem readBehind_flat (count : Nat) (block : List α)
    (r : BufferedReader α size) :
    (r.readBehind count block).flat =
      match ExactRead.read count r.contents with
      | .complete more rest => .complete (block ++ more) rest
      | .endOfStream => if block.isEmpty then .endOfStream else .unexpectedEnd
      | .unexpectedEnd => .unexpectedEnd := by
  fun_induction readBehind count block r with
  | case1 block r =>
    simp [FullRead.flat, ExactRead.read]
  | case2 count block r left ended started =>
    rw [readSome_none ended, ExactRead.read_nil (Nat.pos_of_ne_zero left)]
    simp [started, FullRead.flat]
  | case3 count block r left ended started =>
    rw [readSome_none ended, ExactRead.read_nil (Nat.pos_of_ne_zero left)]
    simp [started, FullRead.flat]
  | case4 count block r left next read =>
    exact absurd rfl (readSome_some (Nat.pos_of_ne_zero left) read).1
  | case5 count block r left item items next read ih =>
    obtain ⟨-, short, split⟩ := readSome_some (Nat.pos_of_ne_zero left) read
    rw [ih, split, ExactRead.read_behind short]
    cases ExactRead.read (count - (item :: items).length) next.contents <;> simp

theorem readFull_flat (count : Nat) (r : BufferedReader α size) :
    (r.readFull count).flat = ExactRead.read count r.contents := by
  rw [readFull, readBehind_flat]
  cases ExactRead.read count r.contents <;> rfl

end BufferedReader
