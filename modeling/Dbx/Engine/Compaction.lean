import Dbx.Engine.ClearedRows

/-!
# Compacting an index

Compaction moves the live rows of an index to the front of its file. No client can tell: the
same ids are live, and each has the bytes that it had.
-/

set_option autoImplicit false

namespace Dbx.Engine

section Rows

variable {rowSize row other : Nat} {data file : Bytes}

theorem readRow_length (fits : (row + 1) * rowSize ≤ file.length) :
    (readRow rowSize row file).length = rowSize := by
  rw [Nat.succ_mul] at fits
  rw [readRow, List.length_take, List.length_drop]
  omega

theorem readRow_writeRow_same (whole : data.length = rowSize)
    (fits : (row + 1) * rowSize ≤ file.length) :
    readRow rowSize row (writeRow rowSize row data file) = data := by
  rw [Nat.succ_mul] at fits
  have start : (file.take (row * rowSize)).length = row * rowSize := by
    rw [List.length_take]
    omega
  rw [readRow, writeRow, List.append_assoc, List.drop_left' start, List.take_left' whole]

/-- Writing a row leaves the rows before it. -/
theorem readRow_writeRow_before (fits : (row + 1) * rowSize ≤ file.length) (before : other < row) :
    readRow rowSize other (writeRow rowSize row data file) = readRow rowSize other file := by
  have apart : (other + 1) * rowSize ≤ row * rowSize := Nat.mul_le_mul_right rowSize before
  rw [Nat.succ_mul] at fits apart
  have start : (file.take (row * rowSize)).length = row * rowSize := by
    rw [List.length_take]
    omega
  rw [readRow, readRow, writeRow, List.append_assoc, List.drop_append_of_le_length (by omega),
    List.take_append_of_le_length (by rw [List.length_drop]; omega), List.drop_take,
    List.take_take]
  congr 1
  omega

end Rows

/-- The rows that stores at the positions in turn leave in a file. -/
def writeRows (rowSize : Nat) (rows : List Bytes) (file : Bytes) : Bytes :=
  rows.zipIdx.foldl (fun file (data, row) => writeRow rowSize row data file) file

theorem writeRows_snoc (rowSize : Nat) (rows : List Bytes) (data file : Bytes) :
    writeRows rowSize (rows ++ [data]) file =
      writeRow rowSize rows.length data (writeRows rowSize rows file) := by
  rw [writeRows, List.zipIdx_append, List.foldl_append]
  simp [writeRows]

theorem readRow_writeRows {rowSize : Nat} {rows : List Bytes} {file : Bytes}
    (whole : ∀ data ∈ rows, data.length = rowSize) (fits : rows.length * rowSize ≤ file.length) :
    (writeRows rowSize rows file).length = file.length ∧
      ∀ row data, rows[row]? = some data →
        readRow rowSize row (writeRows rowSize rows file) = data := by
  induction rows using List.reverseRecOn with
  | nil => exact ⟨rfl, fun row data found => nomatch found⟩
  | append_singleton rows last ih =>
    have last_whole := whole last (List.mem_append_right _ List.mem_cons_self)
    rw [List.length_append, List.length_singleton] at fits
    have fewer := Nat.mul_le_mul_right rowSize (Nat.le_succ rows.length)
    obtain ⟨length, earlier⟩ :=
      ih (fun data member => whole data (List.mem_append_left _ member)) (fewer.trans fits)
    have room : (rows.length + 1) * rowSize ≤ (writeRows rowSize rows file).length := by
      rw [length]
      exact fits
    rw [writeRows_snoc]
    refine ⟨(writeRow_length last_whole room).trans length, fun row data found => ?_⟩
    rcases Nat.lt_trichotomy row rows.length with before | here | behind
    · rw [List.getElem?_append_left before] at found
      rw [readRow_writeRow_before room before]
      exact earlier row data found
    · subst here
      rw [List.getElem?_concat_length] at found
      cases found
      exact readRow_writeRow_same last_whole room
    · rw [List.getElem?_eq_none (by simp; omega)] at found
      cases found

namespace MMapIndex

variable {idx : MMapIndex} {disk : Disk} {id : Bytes} {row : Nat} {held : Row}

/-- The bytes of the row that a live id has. -/
def vectors (idx : MMapIndex) (disk : Disk) (id : Bytes) : Option Bytes :=
  match idx.rowOf? id with
  | none => none
  | some row =>
    if (idx.rows[row]?).any Row.tombstone ∨ (idx.mmap disk).length < (row + 1) * idx.rowBytes then
      none
    else some (readRow idx.rowBytes row (idx.mmap disk))

/-- Each id has one row, and the rows lie in the file. -/
structure Stored (idx : MMapIndex) (disk : Disk) : Prop where
  distinct : idx.Distinct
  fits : idx.count * idx.rowBytes ≤ (idx.mmap disk).length

theorem Stored.row_fits (stored : idx.Stored disk) (present : idx.rows[row]? = some held) :
    (row + 1) * idx.rowBytes ≤ (idx.mmap disk).length := by
  obtain ⟨bound, -⟩ := List.getElem?_eq_some_iff.mp present
  exact (Nat.mul_le_mul_right _ bound).trans stored.fits

theorem Distinct.rowOf? (distinct : idx.Distinct) (present : idx.rows[row]? = some held) :
    idx.rowOf? held.id = some row := by
  rw [rowOf?_eq, VectorLayout.rowMap_inverse distinct, List.getElem?_map, present]
  rfl

theorem Stored.vectors_at (stored : idx.Stored disk) (present : idx.rows[row]? = some held) :
    idx.vectors disk held.id =
      if held.tombstone then none else some (readRow idx.rowBytes row (idx.mmap disk)) := by
  have fits := Nat.not_lt.mpr (stored.row_fits present)
  simp only [vectors, stored.distinct.rowOf? present, present, Option.any_some, fits, or_false]

theorem Stored.hasLive_at (stored : idx.Stored disk) (id : Bytes) :
    idx.hasLive id = (idx.vectors disk id).isSome := by
  cases found : idx.rowOf? id with
  | none => simp only [hasLive, vectors, found, Option.isSome_none]
  | some row =>
    obtain ⟨held, present, rfl⟩ := row_of_rowOf? found
    rw [stored.vectors_at present]
    simp only [hasLive, found, present, Option.any_some]
    cases held.tombstone <;> rfl

theorem vectors_unknown (unknown : id ∉ idx.rows.map Row.id) (disk : Disk) :
    idx.vectors disk id = none := by
  rw [vectors, Option.isNone_iff_eq_none.mp ((idx.rowOf?_isNone id).mpr unknown)]

theorem mmap_compactStores (idx : MMapIndex) (disk : Disk) :
    idx.mmap (runEffects (idx.compactStores disk) disk) =
      writeRows idx.rowBytes
        (idx.activeRows.map fun active => readRow idx.rowBytes active.2 (idx.mmap disk))
        (idx.mmap disk) := by
  have general (stores : List ((Row × Nat) × Nat)) (file : Bytes) (current : Disk) :
      idx.mmap (runEffects (stores.map fun store => fun current =>
        idx.setMmap (writeRow idx.rowBytes store.2 (readRow idx.rowBytes store.1.2 file)
          (idx.mmap current)) current) current) =
      (stores.map fun store => (readRow idx.rowBytes store.1.2 file, store.2)).foldl
        (fun file store => writeRow idx.rowBytes store.2 store.1 file) (idx.mmap current) := by
    induction stores generalizing current with
    | nil => rfl
    | cons store stores ih =>
      rw [List.map_cons, List.map_cons, List.foldl_cons, runEffects, List.foldl_cons]
      refine (ih _).trans ?_
      rw [mmap_setMmap]
  refine (general idx.activeRows.zipIdx (idx.mmap disk) disk).trans ?_
  rw [writeRows, List.zipIdx_map]
  rfl

theorem mmap_compactEffects (now : Int64) (idx : MMapIndex) (disk : Disk) :
    idx.mmap (runEffects (idx.compactEffects now disk) disk) =
      idx.mmap (runEffects (idx.compactStores disk) disk) := by
  rw [compactEffects, runEffects, List.foldl_append, List.foldl_cons, List.foldl_cons,
    List.foldl_nil, mmap]
  dsimp only
  rw [Disk.set_same]
  exact mmap_writeMetadata now true idx.compacted _

theorem Stored.compacted (stored : idx.Stored disk) (now : Int64) :
    idx.compacted.Stored (runEffects (idx.compactEffects now disk) disk) ∧
      idx.compacted.vectors (runEffects (idx.compactEffects now disk) disk) = idx.vectors disk := by
  let data := idx.activeRows.map fun active => readRow idx.rowBytes active.2 (idx.mmap disk)
  have whole (bytes : Bytes) (member : bytes ∈ data) : bytes.length = idx.rowBytes := by
    obtain ⟨active, kept, rfl⟩ := List.mem_map.mp member
    have present := List.mem_zipIdx_iff_getElem?.mp (List.mem_filter.mp kept).1
    exact readRow_length (stored.row_fits present)
  have few : data.length ≤ idx.count := by
    have filtered := List.length_filter_le (fun row : Row × Nat => !row.1.tombstone) idx.rows.zipIdx
    rw [List.length_zipIdx] at filtered
    simpa [data, activeRows, count] using filtered
  have file : idx.compacted.mmap (runEffects (idx.compactEffects now disk) disk) =
      writeRows idx.rowBytes data (idx.mmap disk) :=
    (mmap_compactEffects now idx disk).trans (mmap_compactStores idx disk)
  obtain ⟨length, moved⟩ :=
    readRow_writeRows whole ((Nat.mul_le_mul_right _ few).trans stored.fits)
  have kept : idx.compacted.Stored (runEffects (idx.compactEffects now disk) disk) := by
    refine ⟨stored.distinct.compacted, ?_⟩
    rw [file, length]
    refine (Nat.mul_le_mul_right _ ?_).trans stored.fits
    simpa [data, count, MMapIndex.compacted] using few
  refine ⟨kept, funext fun id => ?_⟩
  by_cases live : ∃ (row : Nat) (held : Row),
      idx.rows[row]? = some held ∧ held.id = id ∧ held.tombstone = false
  · obtain ⟨row, held, present, rfl, alive⟩ := live
    have active : (held, row) ∈ idx.activeRows :=
      List.mem_filter.mpr ⟨List.mem_zipIdx_iff_getElem?.mpr present, by simp [alive]⟩
    obtain ⟨place, listed⟩ := List.mem_iff_getElem?.mp active
    have there : idx.compacted.rows[place]? = some held := by
      simp [MMapIndex.compacted, listed]
    rw [stored.vectors_at present, kept.vectors_at there, file]
    congr 2
    exact moved place _ (by simp [data, listed])
  · have gone : id ∉ idx.compacted.rows.map Row.id := by
      intro member
      obtain ⟨held, compacted, rfl⟩ := List.mem_map.mp member
      obtain ⟨⟨_, row⟩, active, rfl⟩ := List.mem_map.mp compacted
      obtain ⟨placed, alive⟩ := List.mem_filter.mp active
      exact live ⟨row, _, List.mem_zipIdx_iff_getElem?.mp placed, rfl, by simpa using alive⟩
    rw [vectors_unknown gone]
    by_cases known : id ∈ idx.rows.map Row.id
    · obtain ⟨held, member, rfl⟩ := List.mem_map.mp known
      obtain ⟨row, present⟩ := List.mem_iff_getElem?.mp member
      rw [stored.vectors_at present, if_pos]
      exact Bool.of_not_eq_false fun alive => live ⟨row, held, present, rfl, alive⟩
    · rw [vectors_unknown known]

end MMapIndex

namespace Store

variable {config : VectorConfig} {now : Int64} {key : Bytes} {idx : MMapVectorIndex}
  {store : Store}

/-- The row bytes from which `GetVector` decodes the vector of an id. -/
def getVector (config : VectorConfig) (now : Int64) (key id : Bytes) (store : Store) :
    Except String Bytes × Store :=
  match store.getReadOnly config now key with
  | (.error message, store) => (.error message, store)
  | (.ok none, store) => (.error "vector id not found", store)
  | (.ok (some idx), store) =>
    match idx.vectors store.disk id with
    | none => (.error "vector id not found", store)
    | some data => (.ok data, store)

theorem seen_opened {opened : Store}
    (looked : store.getReadOnly config now key = (.ok (some idx), opened)) (id : Bytes) :
    (store.hasLiveVector config now key id).1 = .ok (idx.hasLive id) ∧
      (store.getVector config now key id).1 =
        (idx.vectors opened.disk id).elim (.error "vector id not found") .ok := by
  simp only [hasLiveVector, getVector, looked, true_and]
  cases idx.vectors opened.disk id <;> rfl

theorem vCompact_invisible {opened : Store}
    (looked : store.getReadOnly config now key = (.ok (some idx), opened))
    (stored : idx.Stored opened.disk) :
    ∃ compacted after,
      store.vCompact config now key = (.ok (idx.rows.filter Row.tombstone).length, after) ∧
      after.getReadOnly config now key = (.ok (some compacted), after) ∧
      (∀ row ∈ compacted.rows, row.tombstone = false) ∧
      (∀ id, (after.hasLiveVector config now key id).1 =
        (store.hasLiveVector config now key id).1) ∧
      (∀ id, (after.getVector config now key id).1 = (store.getVector config now key id).1) ∧
      after.vCompact config now key = (.ok 0, after) := by
  have holds := getReadOnly_some config looked
  by_cases clean : (idx.rows.filter Row.tombstone).length = 0
  · have again := getReadOnly_holds config holds
    refine ⟨idx, opened, ?_, again, ?_, fun id => ?_, fun id => ?_, ?_⟩
    · simp only [vCompact, looked, clean, if_true]
    · simpa using clean
    · rw [(seen_opened looked id).1, (seen_opened again id).1]
    · rw [(seen_opened looked id).2, (seen_opened again id).2]
    · simp only [vCompact, again, clean, if_true]
  · let disk := runEffects (idx.compactEffects now opened.disk) opened.disk
    let compacted : MMapVectorIndex :=
      { idx with toMMapIndex := (idx.compacted.writeMetadata now true opened.disk).1 }
    let after := { opened with disk := disk }.putIndex key compacted
    have again : after.getReadOnly config now key = (.ok (some compacted), after) :=
      getReadOnly_holds config (holds.putIndex compacted disk)
    have placed : after.disk = disk := putIndex_disk ..
    obtain ⟨kept, same⟩ := stored.compacted now
    have unmarked (row : Row) (member : row ∈ compacted.rows) : row.tombstone = false := by
      obtain ⟨_, active, rfl⟩ := List.mem_map.mp member
      simpa using (List.mem_filter.mp active).2
    have vectors : compacted.vectors after.disk = idx.vectors opened.disk := by
      rw [placed]
      exact same
    have live (id : Bytes) : compacted.hasLive id = idx.hasLive id := by
      have there : compacted.Stored after.disk := by
        rw [placed]
        exact ⟨kept.distinct, kept.fits⟩
      rw [there.hasLive_at, vectors, stored.hasLive_at]
    refine ⟨compacted, after, ?_, again, unmarked, fun id => ?_, fun id => ?_, ?_⟩
    · simp only [vCompact, looked, clean, if_false]
      rfl
    · rw [(seen_opened looked id).1, (seen_opened again id).1, live]
    · rw [(seen_opened looked id).2, (seen_opened again id).2, vectors]
    · have none : compacted.rows.filter Row.tombstone = [] :=
        List.filter_eq_nil_iff.mpr fun row member => by simp [unmarked row member]
      simp only [vCompact, again, none, List.length_nil, if_true]

/-- An index of two rows, the first of them deleted. -/
def halfIndex : MMapVectorIndex :=
  ⟨⟨.live [0x6b], 1, .sq8, [⟨[0x61], true, 2⟩, ⟨[0x62], false, 1⟩], 0, none⟩, none⟩

def halfDeleted : Store :=
  { kv := KVStore.new.put [0x6b] ⟨.index halfIndex, .vector, 0, 1⟩
    disk := halfIndex.setMmap (List.replicate 18 0x07) fun _ => .absent }

theorem half_deleted_compacts : ∃ compacted after,
    halfDeleted.vCompact ⟨[], [], 0, 0, .sq8⟩ 0 [0x6b] = (.ok 1, after) ∧
      after.getReadOnly ⟨[], [], 0, 0, .sq8⟩ 0 [0x6b] = (.ok (some compacted), after) ∧
      (∀ row ∈ compacted.rows, row.tombstone = false) ∧
      (∀ id, (after.hasLiveVector ⟨[], [], 0, 0, .sq8⟩ 0 [0x6b] id).1 =
        (halfDeleted.hasLiveVector ⟨[], [], 0, 0, .sq8⟩ 0 [0x6b] id).1) ∧
      (∀ id, (after.getVector ⟨[], [], 0, 0, .sq8⟩ 0 [0x6b] id).1 =
        (halfDeleted.getVector ⟨[], [], 0, 0, .sq8⟩ 0 [0x6b] id).1) ∧
      after.vCompact ⟨[], [], 0, 0, .sq8⟩ 0 [0x6b] = (.ok 0, after) :=
  have distinct : (halfIndex.rows.map Row.id).Nodup := by decide
  @vCompact_invisible _ _ _ halfIndex halfDeleted halfDeleted rfl ⟨distinct, by decide⟩

end Store

end Dbx.Engine
