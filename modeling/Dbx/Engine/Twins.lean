import Dbx.Engine.VectorAdmission

/-!
# Stores that differ in expired entries

Two stores with the same live entries and the same files admit the same additions, as far
as the memory in use is the same.
-/

set_option autoImplicit false

namespace Dbx.Engine

namespace Store

variable {config : VectorConfig} {now : Int64} {key : Bytes}

/-- Removing keys takes them out of the live entries, whether they were live or not. The
files may differ behind it: an index in an expired entry is closed too. -/
theorem sameLive_delete (keys : List Bytes) {left right : Store}
    (same : left.kv.SameLive now right.kv) :
    (left.delete now keys).2.kv.SameLive now (right.delete now keys).2.kv := by
  intro key
  have removed (store : Store) : (store.delete now keys).2.kv.shown now key =
      if key ∈ keys then none else store.kv.shown now key := by
    rw [KVStore.shown, KVStore.shown, KVStore.get, KVStore.get, delete_lookup]
    split <;> rfl
  rw [removed, removed, same key]

/-!
## Additions

All that an addition asks of the store is the same in both, but the memory in use is
not: an index that is open counts, whether its key has expired or not.
-/

/-- The memory that an addition needs beyond what is in use, unless it is refused for
another reason. -/
def need (config : VectorConfig) (key : Bytes) (dim : Nat) (ids : List Bytes)
    (idx : Option MMapVectorIndex) (capacityBytes : Nat) : Except String Int :=
  let rowBytes := vectorRowSize dim config.encoding
  let (currentDim, currentCount) := match idx with
    | none => (dim, 0)
    | some idx => (idx.dim, idx.count)
  let newIDs := newIDs idx ids
  if currentDim ≠ dim then .error (dimensionMismatch currentDim dim)
  else if 0 < config.maxVectors ∧ config.maxVectors < currentCount + newIDs.length then
    .error (quotaExceeded config)
  else
    let neededBytes := (currentCount + newIDs.length) * rowBytes
    let growth : Nat :=
      if idx.isNone then 1000 * rowBytes + key.length + 96
      else if neededBytes ≤ capacityBytes then 0
      else max (capacityBytes * 2) neededBytes - capacityBytes
    .ok ((growth : Int) + (newIDs.map fun id => ((id.length + 160 : Nat) : Int)).sum)

theorem admission_eq (config : VectorConfig) (key : Bytes) (dim : Nat) (ids : List Bytes)
    (usage : Int) (idx : Option MMapVectorIndex) (capacityBytes : Nat) :
    admission config key dim ids usage idx capacityBytes =
      match need config key dim ids idx capacityBytes with
      | .error message => .error message
      | .ok needed =>
        if 0 < config.maxMemory ∧ config.maxMemory < usage + needed then
          .error "OOM tenant quota exceeded"
        else .ok () := by
  have judged (current : Nat × Nat) (needed : Int) :
      (if current.1 ≠ dim then .error (dimensionMismatch current.1 dim)
        else if 0 < config.maxVectors ∧
            config.maxVectors < current.2 + (newIDs idx ids).length then
          .error (quotaExceeded config)
        else if 0 < config.maxMemory ∧ config.maxMemory < usage + needed then
          .error "OOM tenant quota exceeded"
        else .ok () : Except String Unit) =
      match (if current.1 ≠ dim then .error (dimensionMismatch current.1 dim)
        else if 0 < config.maxVectors ∧
            config.maxVectors < current.2 + (newIDs idx ids).length then
          .error (quotaExceeded config)
        else .ok needed : Except String Int) with
      | .error message => .error message
      | .ok needed =>
        if 0 < config.maxMemory ∧ config.maxMemory < usage + needed then
          .error "OOM tenant quota exceeded"
        else .ok () := by
    split
    · rfl
    · split <;> rfl
  cases idx with
  | none => exact judged (dim, 0) _
  | some idx => exact judged (idx.dim, idx.count) _

def HasRoom (config : VectorConfig) (now : Int64) (needed : Int) (store : Store) : Prop :=
  config.maxMemory ≤ 0 ∨ store.memoryUsage now + needed ≤ config.maxMemory

end Store

namespace VectorWrite

variable {config : VectorConfig} {now : Int64} {key : Bytes} {left right store : Store}

def check : VectorWrite → Except String Unit
  | .vAdd id vec => validateVector id vec
  | .vAddBatch dim items =>
    if items.length = 0 ∨ maxVectorBatch < items.length then .error "invalid vector batch size"
    else if dim = 0 ∨ maxVectorDimensions < dim then
      .error "vector dimension must be between 1 and 4096"
    else Store.validateItems dim items

section

variable (config now key store) (write : VectorWrite)

theorem validate_checked :
    write.validate config now key store =
      match write.check with
      | .error message => (.error message, store)
      | .ok () => store.admitBatch config now key write.dim write.ids (store.memoryUsage now) := by
  cases write with
  | vAdd id vec =>
    simp only [validate, check, Store.validateAdd, Store.validateBatchCapacity_eq]
    rfl
  | vAddBatch dim items =>
    simp only [validate, check, Store.validateAddBatch, Store.validateBatchCapacity_eq]
    split_ifs
    · rfl
    · rfl
    · rfl

def demand (config : VectorConfig) (now : Int64) (key : Bytes) (store : Store)
    (write : VectorWrite) : Except String Int :=
  match write.check with
  | .error message => .error message
  | .ok () =>
    match store.getReadOnly config now key with
    | (.error message, _) => .error message
    | (.ok idx, store) =>
      Store.need config key write.dim write.ids idx (Store.capacityBytes idx store.disk)

theorem validate_verdict :
    (write.validate config now key store).1 =
      match write.demand config now key store with
      | .error message => .error message
      | .ok needed =>
        if 0 < config.maxMemory ∧ config.maxMemory < store.memoryUsage now + needed then
          .error "OOM tenant quota exceeded"
        else .ok () := by
  rw [validate_checked, demand]
  cases write.check with
  | error message => rfl
  | ok =>
    dsimp only [Store.admitBatch]
    rcases store.getReadOnly config now key with ⟨_ | idx, after⟩
    · rfl
    · exact Store.admission_eq ..

end

theorem accepted_iff (write : VectorWrite) : (write.validate config now key store).1 = .ok () ↔
    ∃ needed, write.demand config now key store = .ok needed ∧
      store.HasRoom config now needed := by
  rw [validate_verdict]
  cases write.demand config now key store with
  | error message => simp
  | ok needed =>
    have room : store.HasRoom config now needed ↔
        ¬ (0 < config.maxMemory ∧ config.maxMemory < store.memoryUsage now + needed) := by
      unfold Store.HasRoom
      omega
    simp [room]

/-- What an addition needs depends on nothing but its index. -/
theorem demand_same {scope : Set Location} (covers : Store.Covers scope key)
    (alike : Simulation.Alike (Store.Twins now) Store.view (Store.Placed config) scope True left
      right) (write : VectorWrite) :
    write.demand config now key left = write.demand config now key right := by
  let asking (store : Store) : Except String Int × Store :=
    match store.getReadOnly config now key with
    | (.error message, store) => (.error message, store)
    | (.ok idx, store) =>
      (Store.need config key write.dim write.ids idx (Store.capacityBytes idx store.disk), store)
  have narrow : Store.Local config now scope True asking := by
    refine Store.local_peek config now covers (Store.need config key write.dim write.ids none 0)
      (fun idx mapping => Store.need config key write.dim write.ids (some idx) mapping.length)
      ?_ ?_ ?_
    · intro store message after failed
      simp only [asking, failed]
    · intro store after missing
      simp only [asking, missing, Store.capacityBytes]
    · intro store idx after found
      simp only [asking, found, Store.capacityBytes]
  have asked (store : Store) : write.demand config now key store =
      match write.check with
      | .error message => .error message
      | .ok () => (asking store).1 := by
    unfold demand
    dsimp only [asking]
    rcases store.getReadOnly config now key with ⟨_ | _, _⟩ <;> rfl
  rw [asked, asked, narrow.same alike]

theorem verdict_same {write : VectorWrite}
    (asked : write.demand config now key left = write.demand config now key right)
    (room : ∀ needed, write.demand config now key left = .ok needed →
      (left.HasRoom config now needed ↔ right.HasRoom config now needed)) :
    (write.validate config now key left).1 = (write.validate config now key right).1 := by
  rw [validate_verdict, validate_verdict, ← asked]
  cases demanded : write.demand config now key left with
  | error message => rfl
  | ok needed =>
    have same := room needed demanded
    unfold Store.HasRoom at same
    dsimp only
    congr 1
    exact propext (by omega)

theorem validate_twins (twins : Store.Twins now left right) (write : VectorWrite) :
    Store.Twins now (write.validate config now key left).2
      (write.validate config now key right).2 := by
  have looked (usage usage' : Int) : (left.admitBatch config now key write.dim write.ids usage).2 =
      (left.admitBatch config now key write.dim write.ids usage').2 := by
    unfold Store.admitBatch
    rcases left.getReadOnly config now key with ⟨_ | _, _⟩ <;> rfl
  rw [validate_checked, validate_checked]
  cases write.check with
  | error message => exact twins
  | ok =>
    dsimp only
    rw [looked _ (right.memoryUsage now)]
    exact ((@Store.local_admitBatch _ key True config now (.univ key) write.dim write.ids
      (right.memoryUsage now)).respects left right twins).2

end VectorWrite

end Dbx.Engine
