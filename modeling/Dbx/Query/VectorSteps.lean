import Dbx.Engine.VectorLocality
import Dbx.Query.Quiet

/-!
# Relations that vector commands respect

A command on vectors is made of lookups and of eight operations on one index. A
preorder on stores that each of these respects relates the stores before and after
the command.
-/

set_option autoImplicit false

namespace Dbx.Query

open Dbx.Engine Dbx.Persistence Dbx.Protocol

/-- The steps that vector commands are made of stay within a preorder. -/
structure VectorSteps (vectors : VectorConfig) (now : Int64) (related : Store → Store → Prop) :
    Prop where
  refl : ∀ store, related store store
  trans : ∀ {first second third}, related first second → related second third →
    related first third
  look : ∀ key store, related store (store.getReadOnly vectors now key).2
  add : ∀ key id vec store, related store (store.vAdd vectors now key id vec).2
  addBatch : ∀ key dim items store, related store (store.vAddBatch vectors now key dim items).2
  delete : ∀ key id store, related store (store.vDel vectors now key id).2
  compact : ∀ key store, related store (store.vCompact vectors now key).2
  start : ∀ key dim encoding store,
    related store (store.startMigration vectors now key dim encoding).2
  insert : ∀ key id vec store, related store (store.insertShadowVector vectors now key id vec).2
  swap : ∀ key store, related store (store.swapMigration vectors now key).2
  cancel : ∀ key store, related store (store.cancelMigration vectors now key).2

section Lookups

variable (config : VectorConfig) (now : Int64) (key : Bytes) (store : Store)

theorem validateBatchCapacity_store (dim : Nat) (ids : List Bytes) :
    (store.validateBatchCapacity config now key dim ids).2 =
      (store.getReadOnly config now key).2 := by
  rw [Store.validateBatchCapacity_eq, Store.admitBatch]
  rcases store.getReadOnly config now key with ⟨_ | idx, after⟩
  · rfl
  · rfl

theorem hasLiveVector_store (id : Bytes) :
    (store.hasLiveVector config now key id).2 = (store.getReadOnly config now key).2 := by
  rw [Store.hasLiveVector]
  rcases store.getReadOnly config now key with ⟨_ | _ | idx, after⟩
  · rfl
  · rfl
  · rfl

theorem tombstoneRatioExceeds_store :
    (store.tombstoneRatioExceeds config now key).2 = (store.getReadOnly config now key).2 := by
  rw [Store.tombstoneRatioExceeds]
  rcases store.getReadOnly config now key with ⟨_ | _ | idx, after⟩
  · rfl
  · rfl
  · rfl

theorem migrationActive_store :
    (store.migrationActive config now key).2 = (store.getReadOnly config now key).2 := by
  rw [Store.migrationActive]
  rcases store.getReadOnly config now key with ⟨_ | _ | idx, after⟩
  · rfl
  · rfl
  · rfl

theorem validateSwapMigration_store :
    (store.validateSwapMigration config now key).2 = (store.getReadOnly config now key).2 := by
  rw [Store.validateSwapMigration, Store.withIndex]
  rcases store.getReadOnly config now key with ⟨_ | _ | idx, after⟩
  · rfl
  · rfl
  · dsimp only
    rcases idx.shadow with _ | shadow
    · rfl
    · dsimp only
      split <;> rfl

end Lookups

section Related

variable {env : Surroundings} {related : Store → Store → Prop} {moment : Moment} {cmd : Command}

namespace VectorSteps

variable (steps : VectorSteps env.vectors moment.now related)

include steps

theorem step {α : Type} {session : Session} {result : Except String α × Store}
    {failed : String → String} {next : α → Session → Reply × Session}
    (first : related session.store result.2)
    (rest : ∀ value session, related session.store (next value session).2.store) :
    related session.store (session.step result failed next).2.store := by
  unfold Session.step
  rcases result with ⟨_ | value, after⟩
  · exact first
  · exact steps.trans first (rest value { session with store := after })

theorem moved {session : Session} {store : Store} {ran : Reply × Session}
    (first : related session.store store)
    (rest : related ({ session with store := store } : Session).store ran.2.store) :
    related session.store ran.2.store :=
  steps.trans first rest

omit steps in
theorem logged {session : Session} {after : Store} (type : UInt8) (key value : Bytes)
    (ttlNano : Int64)
    (rest : related (session.writeWAL moment type key value ttlNano).store after) :
    related session.store after := by
  rw [Session.writeWAL_store] at rest
  exact rest

theorem validateAdd (key id : Bytes) (vec : Vec) (store : Store) :
    related store (store.validateAdd env.vectors moment.now key id vec).2 := by
  rw [Store.validateAdd]
  split
  · exact steps.refl store
  · rw [validateBatchCapacity_store]
    exact steps.look key store

theorem validateAddBatch (key : Bytes) (dim : Nat) (items : List (Bytes × Vec)) (store : Store) :
    related store (store.validateAddBatch env.vectors moment.now key dim items).2 := by
  rw [Store.validateAddBatch]
  split
  · exact steps.refl store
  split
  · exact steps.refl store
  split
  · exact steps.refl store
  · rw [validateBatchCapacity_store]
    exact steps.look key store

theorem dispatchVadd (session : Session) :
    related session.store (dispatchVadd env moment cmd session).2.store := by
  unfold Query.dispatchVadd
  split
  · exact steps.refl _
  split
  · exact steps.refl _
  split
  · exact steps.refl _
  split
  · exact steps.refl _
  refine steps.step (steps.validateAdd ..) fun _ session => ?_
  exact logged recordVAdd _ _ _
    (steps.step (steps.add ..) fun _ _ => steps.refl _)

theorem addBatched (key : Bytes) (dim : Nat) (items : List (Bytes × Vec)) (session : Session) :
    related session.store (Query.addBatch env moment key dim items session).2.store := by
  unfold Query.addBatch
  refine steps.step (steps.validateAddBatch ..) fun _ session => ?_
  exact logged recordVAddBatch _ _ _
    (steps.step (steps.addBatch ..) fun _ _ => steps.refl _)

theorem dispatchVaddBatch (session : Session) :
    related session.store (dispatchVaddBatch env moment cmd session).2.store := by
  unfold Query.dispatchVaddBatch
  split
  · exact steps.refl _
  split
  · exact steps.refl _
  split
  · exact steps.refl _
  dsimp only
  split
  · exact steps.refl _
  split
  · exact steps.refl _
  split
  · exact steps.refl _
  · exact steps.addBatched ..

theorem dispatchVaddbin (session : Session) :
    related session.store (dispatchVaddbin env moment cmd session).2.store := by
  unfold Query.dispatchVaddbin
  split
  · exact steps.refl _
  split
  · exact steps.refl _
  dsimp only
  split
  · exact steps.refl _
  · exact steps.addBatched ..

theorem dispatchVdel (session : Session) :
    related session.store (dispatchVdel env moment cmd session).2.store := by
  unfold Query.dispatchVdel
  split
  · exact steps.refl _
  split
  · exact steps.refl _
  split
  · exact steps.refl _
  refine steps.step ?_ fun live session => ?_
  · rw [hasLiveVector_store]
    exact steps.look ..
  · split
    · exact steps.refl _
    refine logged recordVTombstone _ _ _
      (steps.step (steps.delete ..) fun deleted session => ?_)
    have looked := fun key => steps.look key session.store
    simp only [← tombstoneRatioExceeds_store] at looked
    dsimp only
    split
    · exact looked _
    · exact steps.moved (looked _)
        (steps.step (steps.compact ..) fun _ _ => steps.refl _)

section

variable (session : Session)

theorem dispatchVcompact :
    related session.store (dispatchVcompact env moment cmd session).2.store := by
  unfold Query.dispatchVcompact
  split
  · exact steps.refl _
  split
  · exact steps.refl _
  split
  · exact steps.refl _
  · exact steps.step (steps.compact ..) fun _ _ => steps.refl _

theorem migrateStart : related session.store (migrateStart env moment cmd session).2.store := by
  unfold Query.migrateStart
  split
  · exact steps.refl _
  split
  · exact steps.refl _
  dsimp only
  split
  · exact steps.refl _
  · exact logged recordVMigrateStart _ _ _
      (steps.step (steps.start ..) fun _ _ => steps.refl _)

theorem migrateAdd : related session.store (migrateAdd env moment cmd session).2.store := by
  unfold Query.migrateAdd
  split
  · exact steps.refl _
  split
  · exact steps.refl _
  have looked := steps.look (cmd.arg 1) session.store
  rw [← migrationActive_store] at looked
  dsimp only
  split
  · exact looked
  · exact steps.moved looked (logged recordVMigrateAdd (cmd.arg 1) _ 0
      (steps.step (steps.insert ..) fun _ _ => steps.refl _))

theorem migrateSwap : related session.store (migrateSwap env moment cmd session).2.store := by
  unfold Query.migrateSwap
  refine steps.step ?_ fun _ session => ?_
  · rw [validateSwapMigration_store]
    exact steps.look ..
  · exact logged recordVMigrateSwap _ _ _
      (steps.step (steps.swap ..) fun _ _ => steps.refl _)

theorem migrateCancel : related session.store (migrateCancel env moment cmd session).2.store := by
  unfold Query.migrateCancel
  exact logged recordVMigrateCancel _ _ _
    (steps.step (steps.cancel ..) fun _ _ => steps.refl _)

theorem dispatchVmigrate :
    related session.store (dispatchVmigrate env moment cmd session).2.store := by
  unfold Query.dispatchVmigrate
  split
  · exact steps.refl _
  dsimp only
  split
  · exact steps.migrateStart session
  split
  · exact steps.migrateAdd session
  split
  · exact steps.migrateSwap session
  split
  · exact steps.migrateCancel session
  · exact steps.refl _

end

theorem search (key : Bytes) (dim : Nat) (store : Store) :
    related store (vSearchOpts env moment.now key dim store).2 := by
  rw [vSearchOpts_store]
  exact steps.look key store

theorem dispatchVsearch (session : Session) :
    related session.store (dispatchVsearch env moment cmd session).2.store := by
  unfold Query.dispatchVsearch
  split
  · exact steps.refl _
  split
  · exact steps.refl _
  split
  · exact steps.refl _
  split
  · exact steps.refl _
  split
  · exact steps.refl _
  split
  · exact steps.refl _
  split
  · exact steps.refl _
  · exact steps.step (steps.search ..) fun _ _ => steps.refl _

theorem dispatchVsim (session : Session) :
    related session.store (dispatchVsim env moment cmd session).2.store := by
  unfold Query.dispatchVsim
  split
  · exact steps.refl _
  split
  · exact steps.refl _
  split
  · exact steps.refl _
  split
  · exact steps.refl _
  refine steps.step ?_ fun dim session => ?_
  · rw [getVector_store]
    exact steps.look ..
  · exact steps.step (steps.search ..) fun _ _ => steps.refl _

theorem fuseSearch (index : Bytes) (queries : List (Bytes × Vec)) (store : Store) :
    related store (fuseSearch env moment.now index queries store).2 := by
  induction queries generalizing store with
  | nil => exact steps.refl store
  | cons query queries ih =>
    have first := steps.search (vectorSpaceKey index query.1) query.2.length store
    unfold Query.fuseSearch
    generalize vSearchOpts env moment.now (vectorSpaceKey index query.1) query.2.length store =
      result at first ⊢
    obtain ⟨_ | _, after⟩ := result
    · exact first
    · exact steps.trans first (ih after)

theorem dispatchVfuse (session : Session) :
    related session.store (dispatchVfuse env moment cmd session).2.store := by
  unfold Query.dispatchVfuse
  split
  · exact steps.refl _
  split
  · exact steps.refl _
  split
  · exact steps.refl _
  split
  · exact steps.refl _
  split
  · exact steps.refl _
  · exact steps.step (steps.fuseSearch ..) fun _ _ => steps.refl _

end VectorSteps

end Related

theorem VectorSteps.dispatch {config : ExecutorConfig} {related : Store → Store → Prop}
    {moment : Moment} {name : CommandName} {cmd : Command}
    (steps : VectorSteps config.vectors moment.now related) {session : Session}
    (unprepared : prepareDurableEffects moment.now name cmd session.store.kv = none) :
    related session.store (dispatch config moment name cmd session).2.store := by
  unfold Query.dispatch
  split
  · exact steps.refl _
  cases name with
  | del | expire | persist | rename | set | setex | mset | setnx | getset | incr | decr | incrby
  | decrby | append => cases unprepared
  | vadd => exact steps.dispatchVadd session
  | vaddBatch => exact steps.dispatchVaddBatch session
  | vaddbin => exact steps.dispatchVaddbin session
  | vmigrate => exact steps.dispatchVmigrate session
  | vdel => exact steps.dispatchVdel session
  | vcompact => exact steps.dispatchVcompact session
  | vsearch => exact steps.dispatchVsearch session
  | vsim => exact steps.dispatchVsim session
  | vfuse => exact steps.dispatchVfuse session
  | _ => exact steps.refl _

/-- Every key keeps what it holds, or is dropped, or holds an index from then on. -/
def Indexed (before after : Store) : Prop :=
  ∀ key, after.kv.stored key = before.kv.stored key ∨ after.kv.stored key = none ∨
    ∃ state idx, after.kv.stored key = some state ∧ state.value = .index idx

namespace Indexed

theorem refl (store : Store) : Indexed store store := fun _ => Or.inl rfl

theorem of_kv {before after : Store} (same : after.kv = before.kv) : Indexed before after :=
  fun key => Or.inl (by rw [same])

theorem trans {first second third : Store} (early : Indexed first second)
    (late : Indexed second third) : Indexed first third := by
  intro key
  rcases late key with same | gone | index
  · rw [same]
    exact early key
  · exact Or.inr (Or.inl gone)
  · exact Or.inr (Or.inr index)

theorem put (key : Bytes) {entry : Entry MMapVectorIndex} {idx : MMapVectorIndex}
    (holds : entry.value = .index idx) (store : Store) (disk : Disk) :
    Indexed store ⟨store.kv.put key entry, disk⟩ := by
  intro other
  by_cases same : other = key
  · refine Or.inr (Or.inr ⟨entry.state, idx, ?_, ?_⟩)
    · rw [same]
      exact KVStore.stored_put_same ..
    · rw [Entry.state, holds]
      rfl
  · exact Or.inl (KVStore.stored_put_other entry store.kv same)

theorem putIndex (key : Bytes) (idx : MMapVectorIndex) (store : Store) :
    Indexed store (store.putIndex key idx) := by
  unfold Store.putIndex
  split
  · exact refl store
  · exact put key rfl store store.disk

theorem onDisk {before : Store} {disk : Disk} (key : Bytes) (idx : MMapVectorIndex) :
    Indexed before ({ before with disk := disk }.putIndex key idx) :=
  (of_kv rfl : Indexed before { before with disk := disk }).trans (putIndex key idx _)

variable (config : VectorConfig) (now : Int64) (key : Bytes) (store : Store)

theorem openIndex (dim : Nat) (entry : Entry MMapVectorIndex) :
    Indexed store (store.openIndex config now key dim entry).2 := by
  unfold Store.openIndex
  split
  · exact of_kv rfl
  · exact put key rfl store _

theorem getForWrite :
    Indexed store { store with kv := (store.kv.getForWrite now key).2 } := by
  unfold KVStore.getForWrite
  split
  · exact refl store
  split
  · intro other
    by_cases same : other = key
    · exact Or.inr (Or.inl (same ▸ KVStore.stored_erase_same key store.kv))
    · exact Or.inl (KVStore.stored_erase_other store.kv same)
  · exact refl store

theorem getOrCreate (dim : Nat) : Indexed store (store.getOrCreate config now key dim).2 := by
  refine (getForWrite now key store).trans ?_
  unfold Store.getOrCreate
  dsimp only
  split
  · exact openIndex config now key _ dim _
  split
  · exact refl _
  split
  · exact refl _
  · exact openIndex config now key _ dim _
  · exact refl _

theorem openPersistedIndex :
    Indexed store (store.openPersistedIndex config now key).2 := by
  unfold Store.openPersistedIndex
  split
  · exact refl store
  rename_i stored _
  split
  · exact refl store
  have created := getOrCreate config now key store stored.dim
  generalize store.getOrCreate config now key stored.dim = result at created ⊢
  obtain ⟨_ | idx, after⟩ := result
  · exact created
  · exact created

theorem getReadOnly : Indexed store (store.getReadOnly config now key).2 := by
  unfold Store.getReadOnly
  split
  · exact openPersistedIndex config now key store
  split
  · exact refl store
  split
  · exact refl store
  · exact openPersistedIndex config now key store
  · exact refl store

theorem withIndex {α : Type} {run : MMapVectorIndex → Store → Except String α × Store}
    (runs : ∀ idx store, Indexed store (run idx store).2) :
    Indexed store (store.withIndex config now key run).2 := by
  have looked := getReadOnly config now key store
  unfold Store.withIndex
  generalize store.getReadOnly config now key = result at looked ⊢
  obtain ⟨_ | _ | idx, after⟩ := result
  · exact looked
  · exact looked
  · exact looked.trans (runs idx after)

theorem vAdd (id : Bytes) (vec : Vec) : Indexed store (store.vAdd config now key id vec).2 := by
  have created := getOrCreate config now key store vec.length
  unfold Store.vAdd
  split
  · exact refl store
  generalize store.getOrCreate config now key vec.length = result at created ⊢
  obtain ⟨_ | idx, after⟩ := result
  · exact created
  dsimp only
  split
  · exact created
  split
  · exact created
  · exact created.trans (onDisk key _)

theorem vAddBatch (dim : Nat) (items : List (Bytes × Vec)) :
    Indexed store (store.vAddBatch config now key dim items).2 := by
  have created := getOrCreate config now key store dim
  unfold Store.vAddBatch
  split
  · exact refl store
  split
  · exact refl store
  split
  · exact refl store
  split
  · exact refl store
  generalize store.getOrCreate config now key dim = result at created ⊢
  obtain ⟨_ | idx, after⟩ := result
  · exact created
  dsimp only
  split
  · exact created
  split
  · exact created
  · exact created.trans (onDisk key _)

theorem vDel (id : Bytes) : Indexed store (store.vDel config now key id).2 := by
  have looked := getReadOnly config now key store
  unfold Store.vDel
  generalize store.getReadOnly config now key = result at looked ⊢
  obtain ⟨_ | _ | idx, after⟩ := result
  · exact looked
  · exact looked
  · dsimp only
    split
    · exact looked
    split
    · exact looked.trans (onDisk key _)
    · exact looked

theorem vCompact : Indexed store (store.vCompact config now key).2 := by
  have looked := getReadOnly config now key store
  unfold Store.vCompact
  generalize store.getReadOnly config now key = result at looked ⊢
  obtain ⟨_ | _ | idx, after⟩ := result
  · exact looked
  · exact looked
  · dsimp only
    split
    · exact looked
    · exact looked.trans (onDisk key _)

theorem startMigration (dim : Nat) (encoding : Bytes) :
    Indexed store (store.startMigration config now key dim encoding).2 := by
  have created := getOrCreate config now key store 0
  unfold Store.startMigration
  generalize store.getOrCreate config now key 0 = result at created ⊢
  obtain ⟨_ | idx, after⟩ := result
  · exact created
  dsimp only
  split
  · exact created
  split
  · dsimp only
    split
    · exact created.trans (of_kv rfl)
    · exact created.trans (onDisk key _)
  · exact created.trans (onDisk key _)

theorem insertShadowVector (id : Bytes) (vec : Vec) :
    Indexed store (store.insertShadowVector config now key id vec).2 := by
  refine withIndex config now key store fun idx store => ?_
  split
  · exact refl store
  · exact onDisk key _

theorem swapMigration : Indexed store (store.swapMigration config now key).2 := by
  refine withIndex config now key store fun idx store => ?_
  split
  · exact of_kv rfl
  · exact onDisk key _

theorem cancelMigration : Indexed store (store.cancelMigration config now key).2 :=
  withIndex config now key store fun _ _ => onDisk key _

theorem steps : VectorSteps config now Indexed where
  refl := refl
  trans := trans
  look key store := getReadOnly config now key store
  add key id vec store := vAdd config now key store id vec
  addBatch key dim items store := vAddBatch config now key store dim items
  delete key id store := vDel config now key store id
  compact key store := vCompact config now key store
  start key dim encoding store := startMigration config now key store dim encoding
  insert key id vec store := insertShadowVector config now key store id vec
  swap key store := swapMigration config now key store
  cancel key store := cancelMigration config now key store

end Indexed

end Dbx.Query
