import Dbx.Engine.LayoutAgreement
import Dbx.Engine.VectorAdmission

/-!
# Rows that stay deleted

An id whose rows are deleted stays so until it is added again: what adding, deleting and
compacting do to the rows of other ids, for keys that are never removed.
-/

set_option autoImplicit false

namespace Dbx.Engine

namespace MMapIndex

variable {idx : MMapIndex} {id other : Bytes}

def Distinct (idx : MMapIndex) : Prop := (idx.rows.map Row.id).Nodup

def Cleared (id : Bytes) (idx : MMapIndex) : Prop :=
  ∀ row ∈ idx.rows, row.id = id → row.tombstone = true

theorem Distinct.unique (distinct : idx.Distinct) {position : Nat} {held row : Row}
    (present : idx.rows[position]? = some held) (member : row ∈ idx.rows)
    (same : row.id = held.id) : row = held :=
  List.inj_on_of_nodup_map distinct member (List.mem_of_getElem? present) same

theorem Distinct.upsert (distinct : idx.Distinct) (id : Bytes) : (idx.upsert id).2.Distinct := by
  unfold Distinct
  rw [upsert_ids]
  split
  · exact distinct
  · rename_i unknown
    exact distinct.append (List.nodup_singleton id) (List.disjoint_singleton.mpr unknown)

theorem Distinct.set (distinct : idx.Distinct) {position : Nat} {held row : Row}
    (present : idx.rows[position]? = some held) (same : row.id = held.id) :
    Distinct { idx with rows := idx.rows.set position row } := by
  unfold Distinct
  have unchanged : (idx.rows.set position row).map Row.id = idx.rows.map Row.id := by
    obtain ⟨bound, equal⟩ := List.getElem?_eq_some_iff.mp present
    refine List.ext_getElem? fun other => ?_
    rw [List.map_set, List.getElem?_set]
    split
    · rename_i here
      subst here
      simp [bound, equal, same]
    · rfl
  exact unchanged ▸ distinct

theorem Cleared.set (cleared : idx.Cleared other) (position : Nat) {row : Row}
    (kept : row.id = other → row.tombstone = true) :
    Cleared other { idx with rows := idx.rows.set position row } := by
  intro held member same
  rcases List.mem_or_eq_of_mem_set member with before | rfl
  · exact cleared held before same
  · exact kept same

theorem Cleared.upsert (cleared : idx.Cleared other) (different : other ≠ id) :
    (idx.upsert id).2.Cleared other := by
  unfold MMapIndex.upsert
  split
  · intro row member same
    rcases List.mem_append.mp member with before | added
    · exact cleared row before same
    · rw [List.mem_singleton.mp added] at same
      exact absurd same.symm different
  · split
    · exact cleared.set _ fun same => absurd same.symm different
    · exact cleared

theorem Distinct.writeMetadata (distinct : idx.Distinct) (now : Int64) (durable : Bool)
    (disk : Disk) : (idx.writeMetadata now durable disk).1.Distinct := by
  unfold Distinct
  rwa [writeMetadata_rows]

theorem Cleared.writeMetadata (cleared : idx.Cleared id) (now : Int64) (durable : Bool)
    (disk : Disk) : (idx.writeMetadata now durable disk).1.Cleared id := by
  unfold Cleared
  rwa [writeMetadata_rows]

theorem Distinct.compacted (distinct : idx.Distinct) : idx.compacted.Distinct := by
  unfold Distinct
  rw [Represents.compacted_rows]
  exact distinct.sublist (List.filter_sublist.map _)

theorem Cleared.compacted (cleared : idx.Cleared id) : idx.compacted.Cleared id := by
  intro row member
  rw [Represents.compacted_rows] at member
  exact cleared row (List.mem_filter.mp member).1

theorem Distinct.cleared (distinct : idx.Distinct) (dead : idx.hasLive id = false) :
    idx.Cleared id := by
  intro row member same
  unfold hasLive at dead
  cases found : idx.rowOf? id with
  | none =>
    have unknown := (idx.rowOf?_isNone id).mp (by rw [found]; rfl)
    exact absurd (List.mem_map.mpr ⟨row, member, same⟩) unknown
  | some position =>
    obtain ⟨held, present, named⟩ := row_of_rowOf? found
    rw [found] at dead
    simp only [present, Option.any_some, Bool.not_eq_false'] at dead
    rw [distinct.unique present member (same.trans named.symm)]
    exact dead

theorem Cleared.not_live (cleared : idx.Cleared id) : idx.hasLive id = false := by
  unfold hasLive
  cases found : idx.rowOf? id with
  | none => rfl
  | some position =>
    obtain ⟨held, present, named⟩ := row_of_rowOf? found
    simp [present, cleared held (List.mem_of_getElem? present) named]

end MMapIndex

/-- What such a key holds and has on disk: nothing, a string, or an open index in which some
ids are deleted. -/
inductive Slot (dead : Set Bytes) : Option (Entry MMapVectorIndex) → IndexFiles → Prop
  | fresh {files : IndexFiles} (unwritten : files.metadata = none) : Slot dead none files
  | text {entry : Entry MMapVectorIndex} {files : IndexFiles} (string : entry.type = .string)
      (lasting : entry.expiresAt = 0) : Slot dead (some entry) files
  | index {idx : MMapVectorIndex} {files : IndexFiles} (distinct : idx.Distinct)
      (cleared : ∀ id ∈ dead, idx.Cleared id) : Slot dead (some ⟨.index idx, .vector, 0, 0⟩) files

theorem Slot.mono {dead fewer : Set Bytes} {entry : Option (Entry MMapVectorIndex)}
    {files : IndexFiles} (slot : Slot dead entry files) (inside : fewer ⊆ dead) :
    Slot fewer entry files := by
  cases slot with
  | fresh unwritten => exact .fresh unwritten
  | text string lasting => exact .text string lasting
  | index distinct cleared => exact .index distinct fun id member => cleared id (inside member)

namespace Store

variable {dead : Set Bytes} {key id : Bytes} {store : Store} {config : VectorConfig} {now : Int64}

def Steady (dead : Set Bytes) (key : Bytes) (store : Store) : Prop :=
  Slot dead (store.kv.seen key) (store.disk (.live key))

theorem Steady.mono {fewer : Set Bytes} (steady : store.Steady dead key) (inside : fewer ⊆ dead) :
    store.Steady fewer key :=
  Slot.mono steady inside

theorem get_lasting {entry : Entry MMapVectorIndex}
    (held : store.kv.data.lookup key = some entry) (lasting : entry.expiresAt = 0) (now : Int64) :
    store.kv.get now key = some entry := by
  simp [KVStore.get, held, Entry.isExpired, lasting]

/-- An index in the entry of a key, with the ids that are deleted in it. -/
structure Carries (dead : Set Bytes) (key : Bytes) (idx : MMapVectorIndex) (store : Store) :
    Prop where
  held : ∃ version, store.kv.data.lookup key = some ⟨.index idx, .vector, 0, version⟩
  distinct : idx.Distinct
  cleared : ∀ id ∈ dead, idx.Cleared id

theorem Carries.holdsIndex {idx : MMapVectorIndex} (carries : store.Carries dead key idx)
    (now : Int64) : store.HoldsIndex now key idx := by
  obtain ⟨version, held⟩ := carries.held
  exact ⟨_, get_lasting held rfl now, rfl, rfl⟩

theorem Carries.steady {idx : MMapVectorIndex} (carries : store.Carries dead key idx) :
    store.Steady dead key := by
  obtain ⟨version, held⟩ := carries.held
  unfold Steady KVStore.seen
  rw [held]
  exact .index carries.distinct carries.cleared

section

variable (steady : store.Steady dead key)
include steady

theorem Steady.cases :
    (store.kv.data.lookup key = none ∧ (store.disk (.live key)).metadata = none) ∨
      (∃ entry, store.kv.data.lookup key = some entry ∧ entry.expiresAt = 0 ∧
        entry.type = .string) ∨
      ∃ idx, store.Carries dead key idx := by
  unfold Steady KVStore.seen at steady
  cases held : store.kv.data.lookup key with
  | none =>
    rw [held] at steady
    cases steady with
    | fresh unwritten => exact .inl ⟨rfl, unwritten⟩
  | some entry =>
    obtain ⟨value, type, expiresAt, version⟩ := entry
    rw [held] at steady
    generalize shown : Option.map Entry.unversioned (some ⟨value, type, expiresAt, version⟩) =
      seen at steady
    cases steady with
    | fresh => cases shown
    | text string lasting =>
      cases shown
      exact .inr (.inl ⟨_, rfl, lasting, string⟩)
    | index distinct cleared =>
      cases shown
      exact .inr (.inr ⟨_, ⟨version, held⟩, distinct, cleared⟩)

theorem Steady.getReadOnly (config : VectorConfig) (now : Int64) :
    (∃ result, store.getReadOnly config now key = (result, store) ∧
        (∀ idx, result ≠ .ok (some idx)) ∧ ∀ more, store.Steady more key) ∨
      ∃ idx, store.getReadOnly config now key = (.ok (some idx), store) ∧
        store.Carries dead key idx := by
  rcases steady.cases with ⟨absent, unwritten⟩ | ⟨entry, held, lasting, string⟩ | ⟨idx, carries⟩
  · have unopened : store.Unopened now key := .inl (by simp [KVStore.get, absent])
    refine .inl ⟨.ok none, ?_, by simp, fun more => ?_⟩
    · rw [getReadOnly_unopened config unopened, openPersistedIndex, unwritten]
    · unfold Steady KVStore.seen
      rw [absent]
      exact .fresh unwritten
  · refine .inl ⟨.error errWrongType, ?_, by simp, fun more => ?_⟩
    · simp [Store.getReadOnly, get_lasting held lasting, string]
    · unfold Steady KVStore.seen
      rw [held]
      exact .text string lasting
  · exact .inr ⟨idx, getReadOnly_holds config (carries.holdsIndex now), carries⟩

theorem Steady.getReadOnly_store (config : VectorConfig) (now : Int64) :
    (store.getReadOnly config now key).2 = store := by
  rcases steady.getReadOnly config now with ⟨result, looked, -⟩ | ⟨idx, looked, -⟩
  · rw [looked]
  · rw [looked]

theorem Steady.getOrCreate (config : VectorConfig) (now : Int64) (dim : Nat) :
    (∃ message, store.getOrCreate config now key dim = (.error message, store)) ∨
      ∃ idx after, store.getOrCreate config now key dim = (.ok idx, after) ∧
        after.Carries dead key idx := by
  rcases steady.cases with ⟨absent, unwritten⟩ | ⟨entry, held, lasting, string⟩ | ⟨idx, carries⟩
  · have created : store.getOrCreate config now key dim =
        store.openIndex config now key dim ⟨.nil, .vector, 0, 0⟩ := by
      simp [Store.getOrCreate, KVStore.getForWrite, absent]
    rw [created, openIndex, newMMapVectorIndex_fresh now dim _ _ unwritten]
    refine .inr ⟨_, _, rfl, ⟨0, ?_⟩, List.nodup_nil, fun _ _ _ none => absurd none List.not_mem_nil⟩
    simp [KVStore.put]
  · refine .inl ⟨errWrongType, ?_⟩
    simp [Store.getOrCreate, KVStore.getForWrite_some (get_lasting held lasting now), string]
  · exact .inr ⟨idx, store, getOrCreate_holds config dim (carries.holdsIndex now), carries⟩

end

theorem Carries.putIndex {idx changed : MMapVectorIndex} (carries : store.Carries dead key idx)
    {more : Set Bytes} (distinct : changed.Distinct) (cleared : ∀ id ∈ more, changed.Cleared id)
    (disk : Disk) :
    ({ store with disk := disk }.putIndex key changed).Carries more key changed := by
  obtain ⟨version, held⟩ := carries.held
  refine ⟨⟨version, ?_⟩, distinct, cleared⟩
  simp [Store.putIndex, held, KVStore.put]

theorem Steady.vAdd (steady : store.Steady dead key) (alive : id ∉ dead) (config : VectorConfig)
    (now : Int64) (vec : Vec) : (store.vAdd config now key id vec).2.Steady dead key := by
  unfold Store.vAdd
  cases validateVector id vec with
  | error message => exact steady
  | ok =>
    rcases steady.getOrCreate config now vec.length with ⟨message, refused⟩ |
      ⟨idx, after, opened, carries⟩
    · simp only [refused]
      exact steady
    simp only [opened]
    split
    · exact carries.steady
    split
    · exact carries.steady
    refine (carries.putIndex ((carries.distinct.upsert id).writeMetadata ..)
      (fun other member => ?_) _).steady
    have different : other ≠ id := fun same => alive (same ▸ member)
    exact ((carries.cleared other member).upsert different).writeMetadata _ _ _

theorem Carries.clear {idx : MMapVectorIndex} (carries : store.Carries dead key idx)
    (clear : idx.Cleared id) : store.Carries (insert id dead) key idx where
  held := carries.held
  distinct := carries.distinct
  cleared := by
    rintro other (rfl | member)
    · exact clear
    · exact carries.cleared other member

section

variable (steady : store.Steady dead key)
include steady

theorem Steady.hasLiveVector (unheld : (store.hasLiveVector config now key id).1 ≠ .ok true) :
    store.Steady (insert id dead) key := by
  rcases steady.getReadOnly config now with ⟨result, -, -, all⟩ | ⟨idx, looked, carries⟩
  · exact all _
  · simp only [Store.hasLiveVector, looked, ne_eq, Except.ok.injEq, Bool.not_eq_true] at unheld
    exact (carries.clear (carries.distinct.cleared unheld)).steady

theorem Steady.not_live (member : id ∈ dead) :
    (store.hasLiveVector config now key id).1 ≠ .ok true := by
  rcases steady.getReadOnly config now with ⟨result, looked, nothing, -⟩ | ⟨idx, looked, carries⟩
  · simp only [Store.hasLiveVector, looked]
    rcases result with message | _ | idx
    · simp
    · simp
    · exact absurd rfl (nothing idx)
  · simp [Store.hasLiveVector, looked, (carries.cleared id member).not_live]

theorem Steady.vDel (config : VectorConfig) (now : Int64) (id : Bytes) :
    (store.vDel config now key id).2.Steady (insert id dead) key := by
  unfold Store.vDel
  rcases steady.getReadOnly config now with ⟨result, looked, nothing, all⟩ |
    ⟨idx, looked, carries⟩
  · rw [looked]
    rcases result with message | _ | idx
    · exact all _
    · exact all _
    · exact absurd rfl (nothing idx)
  · simp only [looked]
    cases found : idx.rowOf? id with
    | none =>
      exact (carries.clear (carries.distinct.cleared (by simp [MMapIndex.hasLive, found]))).steady
    | some position =>
      obtain ⟨⟨name, tombstone, generation⟩, present, named⟩ := MMapIndex.row_of_rowOf? found
      cases named
      dsimp only
      rw [present]
      cases tombstone with
      | true =>
        have gone : idx.hasLive name = false := by simp [MMapIndex.hasLive, found, present]
        exact (carries.clear (carries.distinct.cleared gone)).steady
      | false =>
        dsimp only
        have marked := carries.distinct.set present
          (rfl : (Row.mk name true (generation + 1)).id = name)
        have there : (idx.rows.set position ⟨name, true, generation + 1⟩)[position]? =
            some ⟨name, true, generation + 1⟩ := by
          obtain ⟨bound, -⟩ := List.getElem?_eq_some_iff.mp present
          simp [bound]
        refine (carries.putIndex (marked.writeMetadata ..) ?_ _).steady
        rintro other (rfl | member)
        · refine MMapIndex.Cleared.writeMetadata (fun row member same => ?_) _ _ _
          rw [marked.unique there member same]
        · exact ((carries.cleared other member).set position fun _ => rfl).writeMetadata _ _ _

theorem Steady.vCompact (config : VectorConfig) (now : Int64) :
    (store.vCompact config now key).2.Steady dead key := by
  unfold Store.vCompact
  rcases steady.getReadOnly config now with ⟨result, looked, nothing, all⟩ |
    ⟨idx, looked, carries⟩
  · rw [looked]
    rcases result with message | _ | idx
    · exact all _
    · exact all _
    · exact absurd rfl (nothing idx)
  · simp only [looked]
    split
    · exact steady
    · exact (carries.putIndex (carries.distinct.compacted.writeMetadata ..) (fun id member =>
        (carries.cleared id member).compacted.writeMetadata _ _ _) _).steady

end

end Store

end Dbx.Engine
