import Dbx.Engine.Locality

/-!
# The vector operations are confined

Each operation on an index stays within the entry and the files of its key; those of
a migration reach the shadow files too.
-/

set_option autoImplicit false

namespace Dbx.Engine

open Confinement Simulation

variable {α γ : Type}

/-!
## Paths
-/

namespace MMapIndex

@[simp] theorem addItems_path (items : List (Bytes × Vec)) (idx : MMapIndex) (disk : Disk) :
    (idx.addItems items disk).1.path = idx.path := by
  induction items generalizing idx disk with
  | nil => rfl
  | cons item items ih => exact (ih _ _).trans (idx.upsert_path item.1)

@[simp] theorem writeMetadata_path (now : Int64) (durable : Bool) (idx : MMapIndex)
    (disk : Disk) : (idx.writeMetadata now durable disk).1.path = idx.path := by
  dsimp only [writeMetadata]
  split_ifs <;> rfl

end MMapIndex

theorem MMapVectorIndex.Sited.withBase {config : VectorConfig} {key : Bytes}
    {idx : MMapVectorIndex} (sited : idx.Sited config key) {base : MMapIndex}
    (same : base.path = idx.path) :
    MMapVectorIndex.Sited config key { idx with toMMapIndex := base } :=
  ⟨same.trans sited.live, sited.shadow⟩

namespace Store

variable {config : VectorConfig} {scope : Set Location} {key : Bytes} {now : Int64}
  {good : Prop}

theorem local_update {paths : Set IndexPath} {op : Disk → γ × Disk}
    (confined : good → Confined Disk.seen (fun _ => True) paths op)
    (inside : good → ∀ path ∈ paths, .files path ∈ scope) (covered : .entry key ∈ scope)
    (result : α) (changed : γ → MMapVectorIndex)
    (sited : good → ∀ disk, (changed (op disk).1).Sited config key) :
    Local config now scope good fun store =>
      (result, { store with disk := (op store.disk).2 }.putIndex key
        (changed (op store.disk).1)) :=
  (local_disk confined inside).bindOn (fun value => (changed value).Sited config key)
    (fun holds store _ => sited holds store.disk) fun value =>
      (local_putIndex covered (changed value)).map fun _ => result

section

variable (config now) (covers : Covers scope key)
include covers

theorem local_applyItems (items : List (Bytes × Vec)) (newRows : Nat) (idx : MMapVectorIndex) :
    Local config now scope (idx.Sited config key) fun store =>
      ((), store.applyItems now key items newRows idx) := by
  let op : Disk → MMapIndex × Disk := fun disk =>
    let disk := idx.ensureCapacity ((idx.count + newRows) * idx.rowBytes) disk
    let added := idx.toMMapIndex.addItems items disk
    added.1.writeMetadata now false added.2
  have writing : ∀ base : MMapIndex, base.path = idx.path →
      Confined Disk.seen (fun _ => True) {idx.path} fun disk =>
        base.writeMetadata now false disk := by
    intro base same
    rw [← same]
    exact base.confined_writeMetadata now false
  have adding := (idx.toMMapIndex.confined_addItems items).bindOn _
    (fun disk _ => idx.toMMapIndex.addItems_path items disk) writing
  have confined : Confined Disk.seen (fun _ => True) {idx.path} op :=
    (idx.toMMapIndex.confined_ensureCapacity _).bind fun _ => adding
  refine local_update (fun _ => confined) (fun sited => ?_) covers.entry ()
    (fun base => { idx with toMMapIndex := base }) fun sited disk => sited.withBase ?_
  · rintro path rfl
    exact sited.live ▸ covers.files
  · dsimp only [op]
    rw [MMapIndex.writeMetadata_path, MMapIndex.addItems_path]

/-!
## Adding
-/

theorem local_vAdd (id : Bytes) (vec : Vec) :
    Local config now scope good fun store => store.vAdd config now key id vec := by
  cases checked : validateVector id vec with
  | error message =>
    simp only [vAdd, checked]
    exact .pure _
  | ok =>
    have adding (idx : MMapVectorIndex) :
        Local config now scope (idx.Sited config key) fun store : Store =>
          (let isNew := (idx.rowOf? id).isNone
          if idx.dim ≠ vec.length then (.error (dimensionMismatch idx.dim vec.length), store)
          else if 0 < config.maxVectors ∧ config.maxVectors ≤ idx.count ∧ isNew then
            (.error (quotaExceeded config), store)
          else (.ok (), store.applyItems now key [(id, vec)] (if isNew then 1 else 0) idx) :
            Except String Unit × Store) :=
      .ite (.pure _) (.ite (.pure _)
        ((local_applyItems config now covers [(id, vec)] _ idx).map fun _ => Except.ok ()))
    refine (local_getOrCreate config now covers vec.length).andThen _
      (fun _ store idx placed found => getOrCreate_sited now placed found) adding ?_ ?_
    · intro store message after failed
      simp only [vAdd, checked, failed]
    · intro store idx after opened
      simp only [vAdd, checked, opened]

theorem local_vAddBatch (dim : Nat) (items : List (Bytes × Vec)) :
    Local config now scope good fun store => store.vAddBatch config now key dim items := by
  refine .ite (.pure _) (.ite (.pure _) (.ite (.pure _) ?_))
  cases checked : validateItems dim items with
  | error message => exact .pure _
  | ok =>
    have adding (idx : MMapVectorIndex) :
        Local config now scope (idx.Sited config key) fun store : Store =>
          (let newAdditions := (newIDs (some idx) (items.map Prod.fst)).length
          if idx.dim ≠ dim then (.error (dimensionMismatch idx.dim dim), store)
          else if 0 < config.maxVectors ∧ config.maxVectors < idx.count + newAdditions then
            (.error (quotaExceeded config), store)
          else (.ok (), store.applyItems now key items newAdditions idx) :
            Except String Unit × Store) :=
      .ite (.pure _) (.ite (.pure _)
        ((local_applyItems config now covers items _ idx).map fun _ => Except.ok ()))
    refine (local_getOrCreate config now covers dim).andThen _
      (fun _ store idx placed found => getOrCreate_sited now placed found) adding ?_ ?_
    · intro store message after failed
      simp only [failed]
    · intro store idx after opened
      simp only [opened]

end

/-- The verdict on an addition to an index whose file has a size, for a tenant that
uses so much memory. -/
def admission (config : VectorConfig) (key : Bytes) (dim : Nat) (ids : List Bytes) (usage : Int)
    (idx : Option MMapVectorIndex) (capacityBytes : Nat) : Except String Unit :=
  let rowBytes := vectorRowSize dim config.encoding
  let (currentDim, currentCount) := match idx with
    | none => (dim, 0)
    | some idx => (idx.dim, idx.count)
  let newIDs := newIDs idx ids
  if currentDim ≠ dim then .error (dimensionMismatch currentDim dim)
  else if 0 < config.maxVectors ∧ config.maxVectors < currentCount + newIDs.length then
    .error (quotaExceeded config)
  else
    let neededBytes := (currentCount + newIDs.length) * rowBytes
    let growth : Nat :=
      if idx.isNone then 1000 * rowBytes + key.length + 96
      else if neededBytes ≤ capacityBytes then 0
      else max (capacityBytes * 2) neededBytes - capacityBytes
    let additional := (growth : Int) + (newIDs.map fun id => ((id.length + 160 : Nat) : Int)).sum
    if 0 < config.maxMemory ∧ config.maxMemory < usage + additional then
      .error "OOM tenant quota exceeded"
    else .ok ()

def capacityBytes (idx : Option MMapVectorIndex) (disk : Disk) : Nat :=
  match idx with
  | none => 0
  | some idx => (idx.mmap disk).length

def admitBatch (config : VectorConfig) (now : Int64) (key : Bytes) (dim : Nat) (ids : List Bytes)
    (usage : Int) (store : Store) : Except String Unit × Store :=
  match store.getReadOnly config now key with
  | (.error message, store) => (.error message, store)
  | (.ok idx, store) =>
    (admission config key dim ids usage idx (capacityBytes idx store.disk), store)

def memoryUsage (now : Int64) (store : Store) : Int :=
  store.kv.memoryUsage now + store.vectorMemoryUsage

theorem validateBatchCapacity_eq (config : VectorConfig) (now : Int64) (key : Bytes) (dim : Nat)
    (ids : List Bytes) (store : Store) :
    store.validateBatchCapacity config now key dim ids =
      store.admitBatch config now key dim ids (store.memoryUsage now) := by
  rw [validateBatchCapacity, admitBatch, memoryUsage]
  rcases store.getReadOnly config now key with ⟨_ | idx, after⟩
  · rfl
  have paired := @apply_ite _ _ fun verdict : Except String Unit => (verdict, after)
  cases idx with
  | none =>
    simp only [admission, capacityBytes]
    rw [paired, paired, paired]
    rfl
  | some idx =>
    simp only [admission, capacityBytes]
    rw [paired, paired]
    exact if_congr Iff.rfl rfl (if_congr Iff.rfl rfl (paired _ _ _).symm)

/-!
## Looking at an index
-/

variable {whole : Store → Except String α × Store}

section

variable (config now) (covers : Covers scope key)
include covers

theorem local_onIndex (absent : Except String α)
    (work : MMapVectorIndex → Store → Except String α × Store)
    (each : ∀ idx, Local config now scope (idx.Sited config key) (work idx))
    (fails : ∀ store message after, store.getReadOnly config now key = (.error message, after) →
      whole store = (.error message, after))
    (misses : ∀ store after, store.getReadOnly config now key = (.ok none, after) →
      whole store = (absent, after))
    (works : ∀ store idx after, store.getReadOnly config now key = (.ok (some idx), after) →
      whole store = work idx after) : Local config now scope good whole := by
  let next : Option MMapVectorIndex → Store → Except String α × Store := fun found store =>
    match found with
    | none => (absent, store)
    | some idx => work idx store
  have going (found : Option MMapVectorIndex) :
      Local config now scope (∀ idx, found = some idx → idx.Sited config key) (next found) := by
    cases found with
    | none => exact .pure absent
    | some idx => exact ⟨(each idx).respects, fun sited => (each idx).confined (sited idx rfl)⟩
  refine (local_getReadOnly config now covers).andThen _
    (fun _ store found placed looked idx same => getReadOnly_sited now placed (same ▸ looked))
    going fails ?_
  intro store found after looked
  cases found with
  | none => exact misses store after looked
  | some idx => exact works store idx after looked

theorem local_peek (absent : Except String α) (report : MMapVectorIndex → Bytes → Except String α)
    (fails : ∀ store message after, store.getReadOnly config now key = (.error message, after) →
      whole store = (.error message, after))
    (misses : ∀ store after, store.getReadOnly config now key = (.ok none, after) →
      whole store = (absent, after))
    (works : ∀ store idx after, store.getReadOnly config now key = (.ok (some idx), after) →
      whole store = (report idx (idx.mmap after.disk), after)) :
    Local config now scope good whole := by
  refine local_onIndex config now covers absent
    (fun idx store => (report idx (idx.mmap store.disk), store)) (fun idx => ?_) fails misses works
  refine .read _ fun left right alike => ?_
  rw [MMapIndex.mmap, MMapIndex.mmap,
    alike_files (fun sited => sited.live ▸ covers.files) alike]

theorem local_inspect (report : Option MMapVectorIndex → Except String α)
    (fails : ∀ store message after, store.getReadOnly config now key = (.error message, after) →
      whole store = (.error message, after))
    (goes : ∀ store found after, store.getReadOnly config now key = (.ok found, after) →
      whole store = (report found, after)) : Local config now scope good whole :=
  (local_getReadOnly config now covers).andThen (fun _ => True) (fun _ _ _ _ _ => trivial)
    (fun found => .pure (report found)) fails goes

theorem local_ask {whole : Store → Bool × Store} (report : MMapVectorIndex → Bool)
    (fails : ∀ store message after, store.getReadOnly config now key = (.error message, after) →
      whole store = (false, after))
    (goes : ∀ store found after, store.getReadOnly config now key = (.ok found, after) →
      whole store = (found.any report, after)) : Local config now scope good whole :=
  (local_getReadOnly config now covers).attempt (fun _ => True) (fun _ _ _ _ _ => trivial)
    (fun _ => .pure false) (fun found => .pure (found.any report)) fails goes

end

theorem local_admitBatch (config : VectorConfig) (now : Int64) (covers : Covers scope key)
    (dim : Nat) (ids : List Bytes) (usage : Int) :
    Local config now scope good fun store => store.admitBatch config now key dim ids usage := by
  refine local_peek config now covers (admission config key dim ids usage none 0)
    (fun idx mapping => admission config key dim ids usage (some idx) mapping.length) ?_ ?_ ?_
  · intro store message after failed
    simp only [admitBatch, failed]
  · intro store after missing
    simp only [admitBatch, missing, capacityBytes]
  · intro store idx after found
    simp only [admitBatch, found, capacityBytes]

theorem admitBatch_unlimited (unlimited : config.maxMemory ≤ 0) (now : Int64) (key : Bytes)
    (dim : Nat) (ids : List Bytes) (usage usage' : Int) (store : Store) :
    store.admitBatch config now key dim ids usage =
      store.admitBatch config now key dim ids usage' := by
  have open_end : ¬ 0 < config.maxMemory := by omega
  simp only [admitBatch, admission, open_end, false_and, if_false]

section

variable (config now)

theorem local_hasLiveVector (covers : Covers scope key) (id : Bytes) :
    Local config now scope good fun store => store.hasLiveVector config now key id := by
  refine local_inspect config now covers
    (fun found => .ok (found.any fun idx => idx.hasLive id)) ?_ ?_
  · intro store message after failed
    simp only [hasLiveVector, failed]
  · intro store found after looked
    cases found <;> simp [hasLiveVector, looked]

theorem local_validateSwapMigration (covers : Covers scope key) :
    Local config now scope good fun store =>
      store.validateSwapMigration config now key := by
  refine local_inspect config now covers (fun found =>
    found.elim (.error "vector space not found") fun idx =>
      idx.shadow.elim (.error "no migration in progress") fun shadow =>
        if shadow.count = 0 then .error "cannot swap empty migration" else .ok ()) ?_ ?_
  · intro store message after failed
    simp only [validateSwapMigration, withIndex, failed]
  · intro store found after looked
    cases found with
    | none => simp only [validateSwapMigration, withIndex, looked, Option.elim_none]
    | some idx =>
      simp only [validateSwapMigration, withIndex, looked, Option.elim_some]
      cases idx.shadow with
      | none => rfl
      | some shadow =>
        dsimp only [Option.elim_some]
        split_ifs <;> rfl

theorem local_tombstoneRatioExceeds (covers : Covers scope key) :
    Local config now scope good fun store => store.tombstoneRatioExceeds config now key := by
  refine local_ask config now covers
    (fun idx => decide (idx.count < 5 * (idx.rows.filter Row.tombstone).length)) ?_ ?_
  · intro store message after failed
    simp only [tombstoneRatioExceeds, failed]
  · intro store found after looked
    cases found <;> simp [tombstoneRatioExceeds, looked]

theorem local_migrationActive (covers : Covers scope key) :
    Local config now scope good fun store => store.migrationActive config now key := by
  refine local_ask config now covers (fun idx => idx.shadow.isSome) ?_ ?_
  · intro store message after failed
    simp only [migrationActive, failed]
  · intro store found after looked
    cases found <;> simp [migrationActive, looked]

/-!
## Deleting
-/

def vDelFound (now : Int64) (key id : Bytes) (idx : MMapVectorIndex) (store : Store) :
    Except String Bool × Store :=
  match idx.rowOf? id with
  | none => (.ok false, store)
  | some row =>
    match idx.rows[row]? with
    | some ⟨_, false, generation⟩ =>
      let base := { idx.toMMapIndex with rows := idx.rows.set row ⟨id, true, generation + 1⟩ }
      let (base, disk) := base.writeMetadata now true store.disk
      (.ok true, { store with disk := disk }.putIndex key { idx with toMMapIndex := base })
    | _ => (.ok false, store)

theorem local_vDel (covers : Covers scope key) (id : Bytes) :
    Local config now scope good fun store => store.vDel config now key id := by
  refine local_onIndex config now covers (.ok false) (vDelFound now key id) ?_ ?_ ?_ ?_
  · intro idx
    unfold vDelFound
    cases idx.rowOf? id with
    | none => exact .pure _
    | some row =>
      dsimp only
      rcases idx.rows[row]? with _ | ⟨name, _ | _, generation⟩
      · exact .pure _
      · let base := { idx.toMMapIndex with rows := idx.rows.set row ⟨id, true, generation + 1⟩ }
        refine local_update (fun _ => base.confined_writeMetadata now true) (fun sited => ?_)
          covers.entry (Except.ok true) (fun base => { idx with toMMapIndex := base })
          fun sited disk => sited.withBase ?_
        · rintro path rfl
          exact sited.live ▸ covers.files
        · rw [MMapIndex.writeMetadata_path]
      · exact .pure _
  · intro store message after failed
    simp only [vDel, failed]
  · intro store after missing
    simp only [vDel, missing]
  · intro store idx after found
    cases row : idx.rowOf? id with
    | none => simp only [vDel, vDelFound, found, row]
    | some row' =>
      rcases held : idx.rows[row']? with _ | ⟨_, _ | _, _⟩ <;>
        simp only [vDel, vDelFound, found, row, held]

theorem writeMetadata_durable (base : MMapIndex) (disk : Disk) :
    (base.writeMetadata now true disk).1 = { base with metaDirty := 0, lastMeta := some now } := by
  simp [MMapIndex.writeMetadata]

theorem local_vCompact (covers : Covers scope key) :
    Local config now scope good fun store => store.vCompact config now key := by
  refine local_onIndex config now covers (.ok 0) (fun idx store =>
      let removed := (idx.rows.filter Row.tombstone).length
      if removed = 0 then (.ok 0, store)
      else
        let disk := runEffects (idx.compactEffects now store.disk) store.disk
        (.ok removed, { store with disk := disk }.putIndex key { idx with
          toMMapIndex := { idx.compacted with metaDirty := 0, lastMeta := some now } }))
    ?_ ?_ ?_ ?_
  · intro idx
    refine .ite (.pure _) ?_
    refine local_update (fun _ => idx.toMMapIndex.confined_compact now) (fun sited => ?_)
      covers.entry _ (fun _ => { idx with
        toMMapIndex := { idx.compacted with metaDirty := 0, lastMeta := some now } })
      fun sited disk => sited.withBase rfl
    rintro path rfl
    exact sited.live ▸ covers.files
  · intro store message after failed
    simp only [vCompact, failed]
  · intro store after missing
    simp only [vCompact, missing]
  · intro store idx after found
    simp only [vCompact, found, writeMetadata_durable]

end

theorem local_erase (config : VectorConfig) (now : Int64) (covered : .entry key ∈ scope) :
    Local config now scope good fun store => ((), { store with kv := store.kv.erase key }) := by
  refine local_kv (KVStore.local_erase now key) (fun other same => same ▸ covered) fun _ => ?_
  intro kv other entry idx held vector value
  by_cases same : other = key
  · rw [same, KVStore.erase, AList.lookup_erase] at held
    cases held
  · rw [KVStore.erase, AList.lookup_erase_ne same] at held
    exact .inl ⟨entry, held, vector, value⟩

def closedFiles (now : Int64) (value : Value MMapVectorIndex) (type : DataType) (disk : Disk) :
    Disk :=
  match value, type with
  | .index idx, .vector => idx.close now disk
  | _, _ => disk

theorem delete1_stored {store : Store} {entry : Entry MMapVectorIndex} (now : Int64)
    (stored : store.kv.data.lookup key = some entry) :
    store.delete1 now key =
      ⟨store.kv.erase key, closedFiles now entry.value entry.type store.disk⟩ := by
  obtain ⟨value, type, expiresAt, version⟩ := entry
  rw [delete1, stored]
  cases value <;> cases type <;> rfl

def SitedEntry (config : VectorConfig) (key : Bytes) (held : Option (Entry MMapVectorIndex)) :
    Prop :=
  ∀ idx expiresAt version, held = some ⟨.index idx, .vector, expiresAt, version⟩ →
    idx.Sited config key

theorem Placed.sitedEntry {store : Store} (placed : store.Placed config) :
    SitedEntry config key (store.kv.seen key) := by
  intro idx expiresAt version seen
  obtain ⟨entry, stored, unversioned⟩ := Option.map_eq_some_iff.mp seen
  obtain ⟨value, type, _, _⟩ := entry
  cases unversioned
  exact placed key _ idx stored rfl rfl

section

variable (config now)

theorem local_takeOut (covers : Covers scope key) (entry : Entry MMapVectorIndex) :
    Local config now scope (SitedEntry config key (some entry)) fun store =>
      ((), ⟨store.kv.erase key, closedFiles now entry.value entry.type store.disk⟩) := by
  obtain ⟨value, type, expiresAt, version⟩ := entry
  have erasing (good : Prop) := @local_erase scope key good config now covers.entry
  cases value with
  | index idx =>
    cases type with
    | vector =>
      have closing : Local config now scope
          (SitedEntry config key (some ⟨.index idx, .vector, expiresAt, version⟩))
          fun store => ((), { store with disk := idx.close now store.disk }) := by
        refine local_disk (fun _ => idx.toMMapIndex.confined_close now) fun sited => ?_
        rintro path rfl
        exact (sited idx expiresAt version rfl).live ▸ covers.files
      exact closing.bind fun _ => erasing _
    | _ => exact erasing _
  | _ => cases type <;> exact erasing _

theorem confined_delete1 (covers : Covers scope key) :
    Confined view (Placed config) scope fun store => ((), store.delete1 now key) := by
  let next : Option (Entry MMapVectorIndex) → Store → Unit × Store := fun held store =>
    held.elim ((), { store with kv := store.kv.erase key }) fun entry =>
      ((), ⟨store.kv.erase key, closedFiles now entry.value entry.type store.disk⟩)
  have each (held : Option (Entry MMapVectorIndex)) (sited : SitedEntry config key held) :
      Confined view (Placed config) scope (next held) := by
    cases held with
    | none => exact (local_erase config now covers.entry).confined trivial
    | some entry => exact (local_takeOut config now covers entry).confined sited
  have looking : Confined view (Placed config) scope fun store : Store =>
      (store.kv.seen key, store) :=
    .read _ fun left right _ _ agree => agree (.entry key) covers.entry
  have same : (fun store : Store => ((), store.delete1 now key)) = fun store =>
      next (store.kv.seen key) store := by
    funext store
    rw [KVStore.seen]
    cases stored : store.kv.data.lookup key with
    | none => rw [delete1, stored]; rfl
    | some entry => rw [delete1_stored now stored]; rfl
  rw [same]
  exact looking.bindOn _ (fun store placed => placed.sitedEntry) each

theorem confined_delete {keys : List Bytes} (covers : ∀ key ∈ keys, Covers scope key) :
    Confined view (Placed config) scope fun store => store.delete now keys := by
  refine .foldl (fun key member deleted => ?_) 0
  let branch : Bool → Store → Nat × Store := fun present store =>
    if present then (deleted + 1, store.delete1 now key) else (deleted, store)
  have each (present : Bool) : Confined view (Placed config) scope (branch present) :=
    .ite ((confined_delete1 config now (covers key member)).map fun _ => deleted + 1) (.pure _)
  refine .choose (fun store : Store => store.kv.contains key) branch ?_ each
  intro left right _ _ agree
  have same : left.kv.seen key = right.kv.seen key := agree (.entry key) (covers key member).entry
  simpa [KVStore.contains, KVStore.seen] using congrArg Option.isSome same

def install (now : Int64) (newKey : Bytes) (entry : Entry MMapVectorIndex) (store : Store) :
    Store :=
  { store with
    kv := store.kv.set now newKey (KVStore.closedValue entry) entry.type
      (remainingTTL now entry.expiresAt) }

theorem rename_eq (key newKey : Bytes) (store : Store) :
    store.rename now key newKey =
      match store.kv.get now key with
      | none => (.error errNotFound, store)
      | some entry =>
        let store := store.delete1 now key
        if deadlinePassed now entry.expiresAt then (.error errNotFound, store)
        else (.ok (), store.install now newKey entry) := by
  have erased := store.delete1_kv now key
  rw [rename, KVStore.rename]
  cases store.kv.get now key with
  | none => rfl
  | some entry =>
    simp only [install, erased]
    split_ifs
    · rw [← erased]
    · rfl

end

theorem local_install (config : VectorConfig) (now : Int64) {newKey : Bytes}
    (covered : .entry newKey ∈ scope) (entry : Entry MMapVectorIndex) :
    Local config now scope good fun store => ((), store.install now newKey entry) := by
  refine local_kv (KVStore.local_set now newKey _ entry.type _) (fun other same => same ▸ covered)
    fun _ => ?_
  intro kv other held idx stored vector value
  by_cases same : other = newKey
  · rw [same, KVStore.set, AList.lookup_insert] at stored
    cases stored
    obtain ⟨content, type, _, _⟩ := entry
    dsimp only at vector
    subst vector
    cases content <;> cases value
  · rw [KVStore.set, AList.lookup_insert_ne same] at stored
    exact .inl ⟨held, stored, vector, value⟩

theorem local_rename (config : VectorConfig) (now : Int64) {newKey : Bytes}
    (covers : Covers scope key) (covered : .entry newKey ∈ scope) :
    Local config now scope good fun store => store.rename now key newKey := by
  let branch : Option (Entry MMapVectorIndex) → Store → Except String Unit × Store :=
    fun shows store =>
      match shows with
      | none => (.error errNotFound, store)
      | some entry =>
        let store : Store :=
          ⟨store.kv.erase key, closedFiles now entry.value entry.type store.disk⟩
        if deadlinePassed now entry.expiresAt then (.error errNotFound, store)
        else (.ok (), store.install now newKey entry)
  have each (shows : Option (Entry MMapVectorIndex)) :
      Local config now scope (SitedEntry config key shows) (branch shows) := by
    cases shows with
    | none => exact .pure _
    | some entry =>
      have moving := (@local_install scope (SitedEntry config key (some entry)) config now newKey
        covered entry).map fun _ => (Except.ok () : Except String Unit)
      have rest := @Simulation.Local.ite _ _ _ _ _ _ _ _ _
        (deadlinePassed now entry.expiresAt = true) _ _ _ (.pure (.error errNotFound)) moving
      exact (local_takeOut config now covers entry).bind fun _ => rest
  have same : (fun store : Store => store.rename now key newKey) = fun store =>
      branch (store.kv.shown now key) store := by
    funext store
    rw [rename_eq, KVStore.shown]
    cases found : store.kv.get now key with
    | none => rfl
    | some entry =>
      rw [delete1_stored now (KVStore.lookup_of_get found)]
      rfl
  rw [same]
  refine (Simulation.Local.read (fun store : Store => store.kv.shown now key)
    fun left right => alike_shown covers.entry).bindOn _ (fun _ store placed => ?_) each
  intro idx expiresAt version shows
  rw [KVStore.shown_eq] at shows
  exact placed.sitedEntry idx expiresAt version (Option.filter_eq_some_iff.mp shows).1

end Store

/-!
## Migrations
-/

namespace MMapVectorIndex

variable {config : VectorConfig} {key : Bytes} {idx : MMapVectorIndex}

theorem confined_discard (now : Int64) (shadow : MMapIndex) :
    Confined Disk.seen (fun _ => True) {shadow.path} fun disk =>
      ((), (shadow.close now disk).set shadow.path .absent) :=
  (shadow.confined_close now).bind fun _ => Disk.confined_set shadow.path .absent

def beginShadow (config : VectorConfig) (now : Int64) (key : Bytes) (dim : Nat)
    (encoding : VectorEncoding) (idx : MMapVectorIndex) (disk : Disk) :
    Except String MMapVectorIndex × Disk :=
  match newMMapVectorIndex now (shadowPath config key) dim 1000 encoding disk with
  | (.error message, disk) => (.error message, disk)
  | (.ok shadow, disk) => (.ok { idx with shadow := some shadow }, disk)

theorem confined_startMigration (now : Int64) (dim : Nat) (encoding : VectorEncoding)
    (sited : idx.Sited config key) :
    Confined Disk.seen (fun _ => True) {shadowPath config key} fun disk =>
      idx.startMigration config now key dim encoding disk := by
  refine .ite (.pure _) ?_
  have wiping : Confined Disk.seen (fun _ => True) {shadowPath config key} fun disk =>
      ((), idx.shadow.elim disk fun shadow =>
        (shadow.close now disk).set shadow.path .absent) := by
    cases held : idx.shadow with
    | none => exact .pure ()
    | some shadow =>
      rw [← sited.shadow shadow held]
      exact confined_discard now shadow
  have beginning : Confined Disk.seen (fun _ => True) {shadowPath config key}
      (beginShadow config now key dim encoding idx) := by
    refine (confined_newMMapVectorIndex now (shadowPath config key) dim 1000 encoding).andThen
      (fun _ => True) (fun _ _ _ _ => trivial)
      (fun shadow _ => .pure (Except.ok { idx with shadow := some shadow })) ?_ ?_
    · intro disk message after failed
      simp only [beginShadow, failed]
    · intro disk shadow after opened
      simp only [beginShadow, opened]
  cases shadowFault config key with
  | some message =>
    have whole := wiping.bind fun _ => .pure (.error message : Except String MMapVectorIndex)
    cases held : idx.shadow <;> rw [held] at whole <;> exact whole
  | none =>
    have whole := wiping.bind fun _ =>
      (Disk.confined_set (shadowPath config key) .absent).bind fun _ => beginning
    cases held : idx.shadow <;> rw [held] at whole <;> exact whole

theorem startMigration_sited {now : Int64} {dim : Nat} {encoding : VectorEncoding} {disk : Disk}
    {started : MMapVectorIndex} (sited : idx.Sited config key)
    (ok : (idx.startMigration config now key dim encoding disk).1 = .ok started) :
    started.Sited config key := by
  dsimp only [startMigration] at ok
  split at ok
  · cases ok
    exact sited
  split at ok
  · cases ok
  split at ok
  · cases ok
  rename_i shadow disk' opened
  cases ok
  refine ⟨sited.live, ?_⟩
  rintro other ⟨⟩
  exact Store.newMMapVectorIndex_path (congrArg Prod.fst opened)

theorem confined_insertShadow (now : Int64) (vec : Vec) (shadow grown : MMapIndex) (row : Nat)
    (isNew : Bool) (same : grown.path = shadow.path) :
    Confined Disk.seen (fun _ => True) {shadow.path} fun disk =>
      (let disk := if isNew then shadow.ensureCapacity ((shadow.count + 1) * shadow.rowBytes) disk
        else disk
      grown.writeMetadata now false (grown.storeRow row vec disk)) := by
  have growing : Confined Disk.seen (fun _ => True) {shadow.path} fun disk =>
      ((), if isNew then shadow.ensureCapacity ((shadow.count + 1) * shadow.rowBytes) disk
        else disk) := by
    cases isNew with
    | false => exact .pure ()
    | true => exact shadow.confined_ensureCapacity _
  rw [← same] at growing ⊢
  exact growing.bind fun _ => (grown.confined_storeRow row vec).bind fun _ =>
    grown.confined_writeMetadata now false

theorem confined_swapEffects (livePath shadowPath : IndexPath) :
    Confined Disk.seen (fun _ => True) {livePath, shadowPath} fun disk =>
      ((), runEffects (swapEffects livePath shadowPath) disk) := by
  have live {change : IndexFiles → IndexFiles} :
      Confined Disk.seen (fun _ => True) {livePath, shadowPath} fun disk : Disk =>
        ((), disk.set livePath (change (disk livePath))) :=
    (Disk.confined_path livePath fun files => ((), change files)).mono (by simp)
  have shadow {change : IndexFiles → IndexFiles} :
      Confined Disk.seen (fun _ => True) {livePath, shadowPath} fun disk : Disk =>
        ((), disk.set shadowPath (change (disk shadowPath))) :=
    (Disk.confined_path shadowPath fun files => ((), change files)).mono (by simp)
  have reading : Confined Disk.seen (fun _ => True) {livePath, shadowPath} fun disk : Disk =>
      (disk shadowPath, disk) :=
    .read _ fun left right _ _ agree => agree shadowPath (by simp)
  refine .iterate fun effect member => ?_
  simp only [swapEffects, List.mem_cons, List.not_mem_nil, or_false] at member
  rcases member with rfl | rfl | rfl | rfl | rfl | rfl
  · exact @live fun files => { files with rows := none }
  · exact reading.bind fun moved =>
      (@live fun files => { files with rows := moved.rows }).bind fun _ =>
        @shadow fun files => { files with rows := none }
  · exact @live fun files => { files with metadata := none }
  · exact reading.bind fun moved =>
      (@live fun files => { files with metadata := moved.metadata }).bind fun _ =>
        @shadow fun files => { files with metadata := none }
  · exact @live fun files => { files with graph := none }
  · exact reading.bind fun moved =>
      (@live fun files => { files with graph := moved.graph }).bind fun _ =>
        @shadow fun files => { files with graph := none }

def reopenShadow (now : Int64) (idx shadow : MMapIndex) (disk : Disk) :
    Except String MMapVectorIndex × Disk :=
  match newMMapVectorIndex now idx.path shadow.dim 1000 shadow.encoding disk with
  | (.error message, disk) => (.error message, disk)
  | (.ok replacement, disk) => (.ok ⟨replacement, none⟩, disk)

theorem confined_swapMigration (now : Int64) (sited : idx.Sited config key) :
    Confined Disk.seen (fun _ => True) {.live key, shadowPath config key} fun disk =>
      idx.swapMigration now disk := by
  cases held : idx.shadow with
  | none =>
    simp only [swapMigration, held]
    exact .pure _
  | some shadow =>
    simp only [swapMigration, held]
    refine .ite (.pure _) ?_
    have paths : shadow.path = shadowPath config key := sited.shadow shadow held
    have liveInside : ({idx.path} : Set IndexPath) ⊆ {.live key, shadowPath config key} := by
      simp [sited.live]
    have shadowInside : ({shadow.path} : Set IndexPath) ⊆ {.live key, shadowPath config key} := by
      simp [paths]
    have closing : Confined Disk.seen (fun _ => True) {.live key, shadowPath config key}
        fun disk => ((), shadow.close now (idx.close now disk)) := by
      have shadows := (shadow.confined_close now).mono shadowInside
      exact ((idx.toMMapIndex.confined_close now).mono liveInside).bind fun _ => shadows
    have moving : Confined Disk.seen (fun _ => True) {.live key, shadowPath config key}
        fun disk => ((), runEffects (swapEffects idx.path shadow.path) disk) := by
      rw [sited.live, paths]
      exact confined_swapEffects _ _
    have reopening : Confined Disk.seen (fun _ => True) {.live key, shadowPath config key}
        (reopenShadow now idx.toMMapIndex shadow) := by
      have opening := (confined_newMMapVectorIndex now idx.path shadow.dim 1000
        shadow.encoding).mono liveInside
      refine opening.andThen (fun _ => True) (fun _ _ _ _ => trivial)
        (fun replacement _ => .pure (Except.ok (⟨replacement, none⟩ : MMapVectorIndex))) ?_ ?_
      · intro disk message after failed
        simp only [reopenShadow, failed]
      · intro disk replacement after opened
        simp only [reopenShadow, opened]
    exact closing.bind fun _ => moving.bind fun _ => reopening

theorem swapMigration_sited {now : Int64} {disk : Disk} {swapped : MMapVectorIndex}
    (sited : idx.Sited config key) (ok : (idx.swapMigration now disk).1 = .ok swapped) :
    swapped.Sited config key := by
  dsimp only [swapMigration] at ok
  split at ok
  · cases ok
    exact sited
  split at ok
  · cases ok
  split at ok
  · cases ok
  rename_i replacement disk' opened
  cases ok
  refine ⟨?_, by rintro shadow ⟨⟩⟩
  exact (Store.newMMapVectorIndex_path (congrArg Prod.fst opened)).trans sited.live

end MMapVectorIndex

namespace Store

variable {config : VectorConfig} {scope : Set Location} {key : Bytes} {now : Int64}
  {good : Prop}

structure CoversMigration (config : VectorConfig) (scope : Set Location) (key : Bytes) : Prop
    extends Covers scope key where
  shadow : .files (shadowPath config key) ∈ scope

theorem local_diskThen {paths : Set IndexPath} {op : Disk → Except String γ × Disk}
    {next : γ → Store → Except String α × Store} {whole : Store → Except String α × Store}
    (fine : γ → Prop) (confined : good → Confined Disk.seen (fun _ => True) paths op)
    (inside : good → ∀ path ∈ paths, .files path ∈ scope)
    (ensures : good → ∀ disk value, (op disk).1 = .ok value → fine value)
    (going : ∀ value, Local config now scope (fine value) (next value))
    (fails : ∀ store message disk, op store.disk = (.error message, disk) →
      whole store = (.error message, { store with disk := disk }))
    (goes : ∀ store value disk, op store.disk = (.ok value, disk) →
      whole store = next value { store with disk := disk }) :
    Local config now scope good whole := by
  refine (local_disk confined inside).andThen fine
    (fun holds store value _ ok => ensures holds store.disk value ok) going ?_ ?_
  · intro store message after failed
    obtain ⟨result, same⟩ := Prod.mk.inj failed
    rw [← same]
    exact fails store message _ (Prod.ext result rfl)
  · intro store value after done
    obtain ⟨result, same⟩ := Prod.mk.inj done
    rw [← same]
    exact goes store value _ (Prod.ext result rfl)

/-- What a shadow that could not be begun leaves of the index. -/
def unshadow (key : Bytes) (idx : MMapVectorIndex) (store : Store) : Store :=
  if idx.shadow.isNone then store else store.putIndex key { idx with shadow := none }

def startFound (config : VectorConfig) (now : Int64) (key : Bytes) (dim : Nat)
    (encoding : Bytes) (idx : MMapVectorIndex) (store : Store) : Except String Unit × Store :=
  match normalizeVectorEncoding encoding with
  | .error message => (.error message, store)
  | .ok encoding =>
    match idx.startMigration config now key dim encoding store.disk with
    | (.error message, disk) => (.error message, unshadow key idx { store with disk := disk })
    | (.ok idx, disk) => (.ok (), { store with disk := disk }.putIndex key idx)

section

variable (config now)

theorem local_startMigration (covers : CoversMigration config scope key) (dim : Nat)
    (encoding : Bytes) :
    Local config now scope good fun store =>
      store.startMigration config now key dim encoding := by
  have beginning (idx : MMapVectorIndex) :
      Local config now scope (idx.Sited config key)
        (startFound config now key dim encoding idx) := by
    unfold startFound
    cases normalizeVectorEncoding encoding with
    | error message => exact .pure _
    | ok encoding =>
      have dropping : Local config now scope (idx.Sited config key) fun store =>
          ((), unshadow key idx store) := by
        unfold unshadow
        cases idx.shadow.isNone with
        | true => exact .pure ()
        | false =>
          exact (local_putIndex covers.entry { idx with shadow := none }).given
            fun sited => ⟨sited.live, fun _ none => by cases none⟩
      refine (local_disk
          (fun sited => MMapVectorIndex.confined_startMigration now dim encoding sited)
          fun _ path same => same ▸ covers.shadow).attempt _
        (fun sited store started _ ok => MMapVectorIndex.startMigration_sited sited ok)
        (fun message => dropping.map fun _ => Except.error message)
        (fun started => (local_putIndex covers.entry started).map fun _ => Except.ok ()) ?_ ?_
      · intro store message after failed
        dsimp only
        generalize idx.startMigration config now key dim encoding store.disk = begun at failed ⊢
        obtain ⟨result, disk⟩ := begun
        obtain ⟨rfl, rfl⟩ := Prod.mk.inj failed
        rfl
      · intro store started after done
        dsimp only
        generalize idx.startMigration config now key dim encoding store.disk = begun at done ⊢
        obtain ⟨result, disk⟩ := begun
        obtain ⟨rfl, rfl⟩ := Prod.mk.inj done
        rfl
  refine (local_getOrCreate config now covers.toCovers 0).andThen _
    (fun _ store idx placed found => getOrCreate_sited now placed found) beginning ?_ ?_
  · intro store message after failed
    simp only [startMigration, failed]
  · intro store idx after opened
    cases normalized : normalizeVectorEncoding encoding with
    | error => simp only [startMigration, opened, startFound, normalized]
    | ok encoding =>
      rcases began : idx.startMigration config now key dim encoding after.disk with ⟨_ | _, _⟩ <;>
        simp only [startMigration, opened, startFound, normalized, began, unshadow]

def swapFound (now : Int64) (key : Bytes) (idx : MMapVectorIndex) (store : Store) :
    Except String Unit × Store :=
  match idx.swapMigration now store.disk with
  | (.error message, disk) => (.error message, { store with disk := disk })
  | (.ok idx, disk) => (.ok (), { store with disk := disk }.putIndex key idx)

theorem local_swapMigration (covers : CoversMigration config scope key) :
    Local config now scope good fun store => store.swapMigration config now key := by
  refine local_onIndex config now covers.toCovers (.error "vector space not found")
    (swapFound now key) ?_ ?_ ?_ ?_
  · intro idx
    unfold swapFound
    refine local_diskThen _ (fun sited => MMapVectorIndex.confined_swapMigration now sited) ?_
      (fun sited disk swapped ok => MMapVectorIndex.swapMigration_sited sited ok)
      (fun swapped => (local_putIndex covers.entry swapped).map fun _ => Except.ok ()) ?_ ?_
    · rintro - path (rfl | rfl)
      · exact covers.files
      · exact covers.shadow
    · intro store message disk failed
      simp only [failed]
    · intro store swapped disk done
      simp only [done]
  · intro store message after failed
    simp only [swapMigration, withIndex, failed]
  · intro store after missing
    simp only [swapMigration, withIndex, missing]
  · intro store idx after found
    rcases swapped : idx.swapMigration now after.disk with ⟨_ | _, _⟩ <;>
      simp only [swapMigration, swapFound, withIndex, found, swapped]

theorem local_cancelMigration (covers : CoversMigration config scope key) :
    Local config now scope good fun store => store.cancelMigration config now key := by
  refine local_onIndex config now covers.toCovers (.error "vector space not found")
    (fun idx store =>
      let cancelled := idx.cancelMigration now store.disk
      (.ok (), { store with disk := cancelled.2 }.putIndex key cancelled.1)) ?_ ?_ ?_ ?_
  · intro idx
    cases held : idx.shadow with
    | none =>
      simp only [MMapVectorIndex.cancelMigration, held]
      exact (local_putIndex covers.entry idx).map fun _ => Except.ok ()
    | some shadow =>
      simp only [MMapVectorIndex.cancelMigration, held]
      refine local_update (fun _ => MMapVectorIndex.confined_discard now shadow) (fun sited => ?_)
        covers.entry (Except.ok ()) (fun _ => { idx with shadow := none })
        fun sited disk => ⟨sited.live, by rintro other ⟨⟩⟩
      rintro path rfl
      exact sited.shadow shadow held ▸ covers.shadow
  · intro store message after failed
    simp only [cancelMigration, withIndex, failed]
  · intro store after missing
    simp only [cancelMigration, withIndex, missing]
  · intro store idx after found
    simp only [cancelMigration, withIndex, found]

def insertFound (now : Int64) (key id : Bytes) (vec : Vec) (idx : MMapVectorIndex)
    (store : Store) : Except String Unit × Store :=
  match idx.insertShadowVector now id vec store.disk with
  | .error message => (.error message, store)
  | .ok (idx, disk) => (.ok (), { store with disk := disk }.putIndex key idx)

theorem local_insertShadowVector (covers : CoversMigration config scope key) (id : Bytes)
    (vec : Vec) :
    Local config now scope good fun store =>
      store.insertShadowVector config now key id vec := by
  refine local_onIndex config now covers.toCovers (.error "vector space not found")
    (insertFound now key id vec) ?_ ?_ ?_ ?_
  · intro idx
    unfold insertFound
    simp only [MMapVectorIndex.insertShadowVector]
    cases held : idx.shadow with
    | none => exact .pure _
    | some shadow =>
      cases validateVector id vec with
      | error message => exact .pure _
      | ok =>
        by_cases fits : vec.length = shadow.dim
        · simp only [fits, ne_eq, not_true_eq_false, if_false]
          have inside (sited : idx.Sited config key) :
              ∀ path ∈ ({shadow.path} : Set IndexPath), .files path ∈ scope := by
            rintro path rfl
            exact sited.shadow shadow held ▸ covers.shadow
          cases found : shadow.rowOf? id with
          | none =>
            let grown : MMapIndex := { shadow with
              rows := shadow.rows ++ [⟨id, false, 1⟩], metaDirty := shadow.metaDirty + 1 }
            refine local_update (fun _ => MMapVectorIndex.confined_insertShadow now vec shadow
              grown shadow.count true rfl) inside covers.entry (Except.ok ())
              (fun shadow => { idx with shadow := some shadow })
              fun sited disk => ⟨sited.live, ?_⟩
            rintro other ⟨⟩
            exact (MMapIndex.writeMetadata_path now false grown _).trans
              (sited.shadow shadow held)
          | some row =>
            let grown : MMapIndex := { shadow with
              rows := shadow.rows.modify row fun old =>
                { old with generation := old.generation + 1 },
              metaDirty := shadow.metaDirty + 1 }
            refine local_update (fun _ => MMapVectorIndex.confined_insertShadow now vec shadow
              grown row false rfl) inside covers.entry (Except.ok ())
              (fun shadow => { idx with shadow := some shadow })
              fun sited disk => ⟨sited.live, ?_⟩
            rintro other ⟨⟩
            exact (MMapIndex.writeMetadata_path now false grown _).trans
              (sited.shadow shadow held)
        · simp only [ne_eq, fits, not_false_eq_true, if_true]
          exact .pure _
  · intro store message after failed
    simp only [insertShadowVector, withIndex, failed]
  · intro store after missing
    simp only [insertShadowVector, withIndex, missing]
  · intro store idx after found
    rcases inserted : idx.insertShadowVector now id vec after.disk with _ | ⟨_, _⟩ <;>
      simp only [insertShadowVector, insertFound, withIndex, found, inserted]

end

end Store

end Dbx.Engine
