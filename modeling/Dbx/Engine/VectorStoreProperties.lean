import Dbx.Engine.KVProperties
import Dbx.Engine.VectorIndexProperties
import Dbx.Engine.VectorOps

/-!
# Looking an index up

An operation on an index begins by looking it up, and a lookup may open the index
from its files. What follows is said of a store that holds the index.
-/

set_option autoImplicit false

namespace Dbx.Engine

namespace Store

def HoldsIndex (now : Int64) (key : Bytes) (idx : MMapVectorIndex) (store : Store) : Prop :=
  ∃ entry, store.kv.get now key = some entry ∧ entry.type = .vector ∧ entry.value = .index idx

def Unopened (now : Int64) (key : Bytes) (store : Store) : Prop :=
  store.kv.get now key = none ∨
    ∃ entry, store.kv.get now key = some entry ∧ entry.type = .vector ∧ entry.value = .nil

def Opens (now : Int64) (key : Bytes) (store : Store) : Prop :=
  store.Unopened now key ∧
    ∃ stored, (store.disk (.live key)).metadata = some stored ∧ stored.dim ≠ 0

variable {config : VectorConfig} {now : Int64} {key : Bytes} {idx : MMapVectorIndex}
  {store store' : Store}

section

variable (config)

theorem getReadOnly_holds (holds : store.HoldsIndex now key idx) :
    store.getReadOnly config now key = (.ok (some idx), store) := by
  obtain ⟨entry, found, type, value⟩ := holds
  simp [getReadOnly, found, type, value]

theorem getOrCreate_holds (dim : Nat) (holds : store.HoldsIndex now key idx) :
    store.getOrCreate config now key dim = (.ok idx, store) := by
  obtain ⟨entry, found, type, value⟩ := holds
  simp [getOrCreate, KVStore.getForWrite_some found, type, value]

theorem getReadOnly_unopened (unopened : store.Unopened now key) :
    store.getReadOnly config now key = store.openPersistedIndex config now key := by
  rcases unopened with absent | ⟨entry, found, type, value⟩
  · simp [getReadOnly, absent]
  · simp [getReadOnly, found, type, value]

theorem getOrCreate_unopened (dim : Nat) (unopened : store.Unopened now key) :
    ∃ kv entry, store.getOrCreate config now key dim =
        openIndex config now key dim entry ⟨kv, store.disk⟩ ∧
      entry.type = .vector ∧ entry.isExpired now = false ∧
      KVStore.Alters now key (store.kv.keyspace now key) store.kv kv := by
  rcases unopened with absent | ⟨entry, found, type, value⟩
  · obtain ⟨kv, written, alters⟩ := KVStore.getForWrite_none absent
    have unseen : store.kv.keyspace now key = none := by rw [KVStore.keyspace, absent]; rfl
    exact ⟨kv, ⟨.nil, .vector, 0, 0⟩, by simp [getOrCreate, written], rfl, rfl, unseen ▸ alters⟩
  · obtain ⟨-, live⟩ := Option.filter_eq_some_iff.mp found
    exact ⟨store.kv, entry, by simp [getOrCreate, KVStore.getForWrite_some found, type, value],
      type, by simpa using live, KVStore.Alters.refl now key store.kv⟩

theorem getOrCreate_stored {stored : VectorMetadata} (unopened : store.Unopened now key)
    (metadata : (store.disk (.live key)).metadata = some stored) :
    (∃ message store', store.getOrCreate config now key stored.dim = (.error message, store') ∧
        store'.disk ≠ store.disk ∧
        ∀ other, store'.kv.keyspace now other = store.kv.keyspace now other) ∨
      ∃ idx store', store.getOrCreate config now key stored.dim = (.ok idx, store') ∧
        store'.HoldsIndex now key idx ∧ idx.shadow = none ∧
        ∀ other, other ≠ key → store'.kv.keyspace now other = store.kv.keyspace now other := by
  obtain ⟨kv, entry, outcome, type, live, alters⟩ :=
    getOrCreate_unopened config stored.dim unopened
  rw [outcome, openIndex]
  dsimp only
  rw [newMMapVectorIndex_stored now config.maxVectors config.encoding metadata]
  by_cases short : (openedFile (.live key) stored.dim config.maxVectors config.encoding
      store.disk).length / vectorRowSize stored.dim stored.encoding < stored.rows.length
  · rw [if_pos short]
    refine Or.inl ⟨_, _, rfl, fun kept => ?_, fun other => ?_⟩
    swap
    · by_cases same : other = key
      · exact same ▸ alters.same
      · exact alters.other other same
    have wiped := congrArg (fun disk : Disk => (disk (.live key)).metadata) kept
    have none : stored.rows = [] := by
      let idx : MMapIndex := ⟨.live key, stored.dim, stored.encoding, [], 0, none⟩
      have closed : (idx.close now (openedDisk (.live key) stored.dim config.maxVectors
          config.encoding store.disk) (.live key)).metadata = some idx.metadata :=
        congrArg IndexFiles.metadata (MMapIndex.close_same now idx _)
      exact congrArg VectorMetadata.rows
        (Option.some.inj (closed.symm.trans (wiped.trans metadata))).symm
    rw [none] at short
    exact absurd short (Nat.not_lt_zero _)
  · rw [if_neg short]
    let idx : MMapVectorIndex :=
      ⟨⟨.live key, stored.dim, stored.encoding, stored.rows, 0, none⟩, none⟩
    have installed := KVStore.alters_put now key { entry with value := .index idx } kv
    refine Or.inr ⟨idx, _, rfl, ⟨{ entry with value := .index idx }, ?_, type, rfl⟩, rfl, ?_⟩
    · have reopened : ({ entry with value := .index idx } : Entry MMapVectorIndex).isExpired now =
          false := live
      exact KVStore.get_put_same key reopened kv
    · intro other different
      exact (installed.other other different).trans (alters.other other different)

inductive Lookup (now : Int64) (key : Bytes) (store : Store) :
    Except String (Option MMapVectorIndex) × Store → Prop where
  | refused {message : String} (idle : ¬ store.Opens now key)
      (present : ¬ (store.Unopened now key ∧ (store.disk (.live key)).metadata = none)) :
      Lookup now key store (.error message, store)
  | missing (unopened : store.Unopened now key)
      (absent : (store.disk (.live key)).metadata = none) : Lookup now key store (.ok none, store)
  | found {idx : MMapVectorIndex} (holds : store.HoldsIndex now key idx) :
      Lookup now key store (.ok (some idx), store)
  | wiped {message : String} {store' : Store} (opens : store.Opens now key)
      (changed : store'.disk ≠ store.disk)
      (kept : ∀ other, store'.kv.keyspace now other = store.kv.keyspace now other) :
      Lookup now key store (.error message, store')
  | opened {idx : MMapVectorIndex} {store' : Store} (opens : store.Opens now key)
      (holds : store'.HoldsIndex now key idx) (unmigrated : idx.shadow = none)
      (others : ∀ other, other ≠ key →
        store'.kv.keyspace now other = store.kv.keyspace now other) :
      Lookup now key store (.ok (some idx), store')

theorem getReadOnly_lookup (now : Int64) (key : Bytes) (store : Store) :
    Lookup now key store (store.getReadOnly config now key) := by
  by_cases unopened : store.Unopened now key
  · rw [getReadOnly_unopened config unopened, openPersistedIndex]
    cases metadata : (store.disk (.live key)).metadata with
    | none => exact .missing unopened metadata
    | some stored =>
      by_cases dim : stored.dim = 0
      · simp only [dim, if_true]
        refine .refused ?_ ?_
        · rintro ⟨-, other, same, positive⟩
          rw [metadata] at same
          cases same
          exact positive dim
        · rintro ⟨-, absent⟩
          rw [metadata] at absent
          cases absent
      · have opens : store.Opens now key := ⟨unopened, stored, metadata, dim⟩
        simp only [dim, if_false]
        rcases getOrCreate_stored config unopened metadata with
          ⟨message, store', outcome, changed, kept⟩ | ⟨idx, store', outcome, holds, shadow, others⟩
        · rw [outcome]
          exact .wiped opens changed kept
        · rw [outcome]
          exact .opened opens holds shadow others
  · have idle : ¬ store.Opens now key := fun opens => unopened opens.1
    have present : ¬ (store.Unopened now key ∧ (store.disk (.live key)).metadata = none) :=
      fun absent => unopened absent.1
    unfold getReadOnly
    cases found : store.kv.get now key with
    | none => exact absurd (Or.inl found) unopened
    | some entry =>
      by_cases type : entry.type = .vector
      · simp only [type, ne_eq, not_true, if_false]
        cases value : entry.value with
        | nil => exact absurd (Or.inr ⟨entry, found, type, value⟩) unopened
        | index idx => exact .found ⟨entry, found, type, value⟩
        | bytes | other => exact .refused idle present
      · simp only [ne_eq, type, not_false_eq_true, if_true]
        exact .refused idle present

theorem HoldsIndex.unique {other : MMapVectorIndex} (holds : store.HoldsIndex now key idx)
    (holds' : store.HoldsIndex now key other) : idx = other := by
  obtain ⟨entry, found, -, value⟩ := holds
  obtain ⟨entry', found', -, value'⟩ := holds'
  cases found.symm.trans found'
  cases value.symm.trans value'
  rfl

def Migrating (now : Int64) (key : Bytes) (store : Store) : Prop :=
  ∃ idx, store.HoldsIndex now key idx ∧ idx.shadow ≠ none

/-- The index of the key is open and has a shadow with vectors in it. -/
def Promotable (now : Int64) (key : Bytes) (store : Store) : Prop :=
  ∃ idx shadow, store.HoldsIndex now key idx ∧ idx.shadow = some shadow ∧ shadow.count ≠ 0

theorem HoldsIndex.not_unopened (holds : store.HoldsIndex now key idx) :
    ¬ store.Unopened now key := by
  obtain ⟨entry, found, type, value⟩ := holds
  rintro (absent | ⟨other, found', -, nil⟩)
  · rw [found] at absent
    cases absent
  · rw [found] at found'
    cases found'
    rw [value] at nil
    cases nil

theorem HoldsIndex.not_opens (holds : store.HoldsIndex now key idx) : ¬ store.Opens now key :=
  fun opens => holds.not_unopened opens.1

/-- The files and every key, as seen at an instant, are the same. -/
structure Same (now : Int64) (store store' : Store) : Prop where
  disk : store'.disk = store.disk
  keys : ∀ key, store'.kv.keyspace now key = store.kv.keyspace now key

theorem Same.refl (now : Int64) (store : Store) : Same now store store :=
  ⟨rfl, fun _ => rfl⟩

theorem holdsIndex_iff :
    store.HoldsIndex now key idx ↔ ∃ state, store.kv.keyspace now key = some state ∧
      state.type = .vector ∧ state.value = .index idx := by
  constructor
  · rintro ⟨entry, found, type, value⟩
    refine ⟨entry.state, by rw [KVStore.keyspace, found]; rfl, type, ?_⟩
    rw [Entry.state, value]
    rfl
  · rintro ⟨state, seen, type, value⟩
    obtain ⟨entry, found, rfl⟩ := Option.map_eq_some_iff.mp seen
    refine ⟨entry, found, type, ?_⟩
    obtain ⟨content, _, _, _⟩ := entry
    cases content with
    | bytes | other | nil => cases value
    | index other => exact value

theorem HoldsIndex.of_keyspace (holds : store.HoldsIndex now key idx)
    (same : store'.kv.keyspace now key = store.kv.keyspace now key) :
    store'.HoldsIndex now key idx := by
  rw [holdsIndex_iff] at holds ⊢
  rwa [same]

theorem HoldsIndex.not_same (holds : store'.HoldsIndex now key idx)
    (unopened : store.Unopened now key) : ¬ Same now store store' :=
  fun same => (holds.of_keyspace (same.keys key).symm).not_unopened unopened

theorem getReadOnly_quiet (quiet : ¬ store.Opens now key) :
    (store.getReadOnly config now key).2 = store := by
  have looked := getReadOnly_lookup config now key store
  generalize store.getReadOnly config now key = result at looked
  cases looked with
  | refused | missing | found => rfl
  | wiped opens | opened opens => exact absurd opens quiet

theorem getReadOnly_some {result : Store}
    (looked : store.getReadOnly config now key = (.ok (some idx), result)) :
    result.HoldsIndex now key idx := by
  have cases' := getReadOnly_lookup config now key store
  rw [looked] at cases'
  cases cases' with
  | found holds => exact holds
  | opened _ holds => exact holds

theorem HoldsIndex.getReadOnly (holds : store.HoldsIndex now key idx) (config : VectorConfig)
    (other : Bytes) : (store.getReadOnly config now other).2.HoldsIndex now key idx := by
  have looked := getReadOnly_lookup config now other store
  by_cases same : key = other
  · subst same
    rw [getReadOnly_holds config holds]
    exact holds
  · generalize store.getReadOnly config now other = result at looked
    cases looked with
    | refused | missing | found => exact holds
    | wiped _ _ kept => exact holds.of_keyspace (kept key)
    | opened _ _ _ others => exact holds.of_keyspace (others key same)

theorem getReadOnly_opens (opens : store.Opens now key) :
    (∃ idx, (store.getReadOnly config now key).2.HoldsIndex now key idx) ∨
      (∃ message, (store.getReadOnly config now key).1 = .error message) ∧
        (store.getReadOnly config now key).2.disk ≠ store.disk := by
  have looked := getReadOnly_lookup config now key store
  generalize store.getReadOnly config now key = result at looked
  cases looked with
  | refused idle => exact absurd opens idle
  | missing _ absent =>
    obtain ⟨-, stored, present, -⟩ := opens
    rw [absent] at present
    cases present
  | found holds => exact .inl ⟨_, holds⟩
  | wiped _ changed => exact .inr ⟨⟨_, rfl⟩, changed⟩
  | opened _ holds => exact .inl ⟨_, holds⟩

theorem getReadOnly_same_iff :
    Same now store (store.getReadOnly config now key).2 ↔ ¬ store.Opens now key := by
  constructor
  · intro same opens
    rcases getReadOnly_opens config opens with ⟨idx, holds⟩ | ⟨-, changed⟩
    · exact holds.not_same opens.1 same
    · exact changed same.disk
  · intro quiet
    rw [getReadOnly_quiet config quiet]
    exact .refl now store

theorem migrationActive_store (now : Int64) (key : Bytes) (store : Store) :
    (store.migrationActive config now key).2 = (store.getReadOnly config now key).2 := by
  unfold migrationActive
  rcases store.getReadOnly config now key with ⟨message | (_ | idx), after⟩ <;> rfl

end

theorem migrationActive_iff (config : VectorConfig) :
    (store.migrationActive config now key).1 = true ↔ store.Migrating now key := by
  by_cases held : ∃ idx, store.HoldsIndex now key idx
  · obtain ⟨idx, holds⟩ := held
    simp only [migrationActive, getReadOnly_holds config holds, Option.isSome_iff_ne_none]
    constructor
    · exact fun shadow => ⟨idx, holds, shadow⟩
    · rintro ⟨other, holds', shadow⟩
      exact holds.unique holds' ▸ shadow
  · have idle : ¬ store.Migrating now key := fun ⟨idx, holds, _⟩ => held ⟨idx, holds⟩
    refine iff_of_false ?_ idle
    have looked := getReadOnly_lookup config now key store
    unfold migrationActive
    generalize store.getReadOnly config now key = result at looked
    cases looked with
    | refused | missing | wiped => exact Bool.false_ne_true
    | found holds => exact absurd ⟨_, holds⟩ held
    | opened _ _ unmigrated => simp [unmigrated]

theorem withIndex_holds {α : Type} (config : VectorConfig) (holds : store.HoldsIndex now key idx)
    (run : MMapVectorIndex → Store → Except String α × Store) :
    store.withIndex config now key run = run idx store := by
  rw [withIndex, getReadOnly_holds config holds]

section

variable (config now key store)

/-- The check before a promotion only looks the index up, and passes for a shadow
with vectors in it. -/
theorem validateSwapMigration_spec :
    (store.validateSwapMigration config now key).2 = (store.getReadOnly config now key).2 ∧
      ((store.validateSwapMigration config now key).1 = .ok () ↔ store.Promotable now key) := by
  by_cases held : ∃ idx, store.HoldsIndex now key idx
  · obtain ⟨idx, holds⟩ := held
    have promotable : store.Promotable now key ↔
        ∃ shadow, idx.shadow = some shadow ∧ shadow.count ≠ 0 := by
      constructor
      · rintro ⟨other, shadow, holds', some, filled⟩
        exact ⟨shadow, holds.unique holds' ▸ some, filled⟩
      · rintro ⟨shadow, some, filled⟩
        exact ⟨idx, shadow, holds, some, filled⟩
    rw [validateSwapMigration, withIndex_holds config holds, getReadOnly_holds config holds,
      promotable]
    cases idx.shadow with
    | none => simp
    | some shadow =>
      by_cases empty : shadow.count = 0
      · simp [empty]
      · simp [empty]
  · have stuck : ¬ store.Promotable now key := fun ⟨idx, _, holds, _⟩ => held ⟨idx, holds⟩
    have looked := getReadOnly_lookup config now key store
    unfold validateSwapMigration withIndex
    generalize store.getReadOnly config now key = result at looked
    cases looked with
    | refused | missing | wiped => exact ⟨rfl, by simp [stuck]⟩
    | found holds => exact absurd ⟨_, holds⟩ held
    | opened _ _ unmigrated => simp [unmigrated, stuck]

@[simp] theorem delete1_kv : (store.delete1 now key).kv = store.kv.erase key := by
  unfold delete1
  split <;> rfl

theorem delete_lookup (keys : List Bytes) (store : Store) (key : Bytes) :
    (store.delete now keys).2.kv.data.lookup key =
      if key ∈ keys then none else store.kv.data.lookup key := by
  unfold delete
  generalize 0 = deleted
  induction keys generalizing deleted store with
  | nil => simp
  | cons head keys ih =>
    rw [List.foldl_cons]
    cases present : store.kv.contains head with
    | true =>
      simp only [present, if_true, ih, delete1_kv, KVStore.erase]
      by_cases first : key = head
      · subst first
        simp
      · simp [first, AList.lookup_erase_ne first]
    | false =>
      simp only [present, Bool.false_eq_true, if_false, ih]
      by_cases first : key = head
      · subst first
        have absent : store.kv.data.lookup key = none := by
          simpa [KVStore.contains] using present
        simp [absent]
      · simp [first]

end

theorem delete_count (now : Int64) (keys : List Bytes) (store : Store) :
    (store.delete now keys).1 = (keys.toFinset.filter fun key => store.kv.contains key).card := by
  suffices counts : ∀ deleted,
      (keys.foldl (fun state key =>
        if state.2.kv.contains key then (state.1 + 1, state.2.delete1 now key) else state)
        (deleted, store)).1 = deleted +
          (keys.toFinset.filter fun key => store.kv.contains key).card from
    (counts 0).trans (Nat.zero_add _)
  induction keys generalizing store with
  | nil => simp
  | cons head keys ih =>
    intro deleted
    rw [List.foldl_cons, List.toFinset_cons, Finset.filter_insert]
    cases present : store.kv.contains head with
    | true =>
      have later : (keys.toFinset.filter fun key => (store.delete1 now head).kv.contains key) =
          (keys.toFinset.filter fun key => store.kv.contains key).erase head := by
        ext key
        rw [Finset.mem_filter, Finset.mem_erase, Finset.mem_filter]
        by_cases first : key = head
        · subst first
          simp [KVStore.contains, KVStore.erase]
        · simp [first, KVStore.contains, KVStore.erase, AList.lookup_erase_ne first]
      simp only [if_true, ih, later]
      rw [Finset.card_insert_eq_ite]
      split
      · rename_i member
        have positive := Finset.card_pos.mpr ⟨head, member⟩
        rw [Finset.card_erase_of_mem member]
        omega
      · rename_i outside
        rw [Finset.erase_eq_of_notMem outside]
        omega
    | false => simp [ih]

end Store

end Dbx.Engine
