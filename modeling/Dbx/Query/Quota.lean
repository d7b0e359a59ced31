import Dbx.Engine.Reaper
import Dbx.Query.Accounting
import Dbx.Query.VectorSteps

/-!
# The memory quota of a tenant with strings

Runs of commands and of the reaper on a tenant that holds strings, with the sum of
what its live strings take against the memory that is accounted for.
-/

set_option autoImplicit false

namespace Dbx.Query

open Dbx.Engine Dbx.Persistence Dbx.Protocol Runs

/-!
## Sums
-/

theorem effectsFitQuota_eq (now : Int64) (maxMemory accounted : Int) (effects : List WALEffect)
    (kv : KVStore MMapVectorIndex) :
    effectsFitQuota now maxMemory accounted effects kv =
      (decide (maxMemory ≤ 0) || decide (accounted +
          KeyedStore.total (effectGrowth now kv) (finalEffects effects) ≤ maxMemory),
        accounted + KeyedStore.total (effectGrowth now kv) (finalEffects effects)) := by
  have folded : ∀ (entries : List (Sigma fun _ : Bytes => WALEffect)) (accounted : Int),
      entries.foldl (fun projected entry => projected + effectGrowth now kv entry.1 entry.2)
          accounted =
        accounted + (entries.map fun entry => effectGrowth now kv entry.1 entry.2).sum := by
    intro entries
    induction entries with
    | nil => simp
    | cons entry entries ih =>
      intro accounted
      rw [List.foldl_cons, ih, List.map_cons, List.sum_cons, Int.add_assoc]
  rw [effectsFitQuota, KeyedStore.total, folded]

section Sums

variable {start now : Int64} {cut : Prop} {effects : List WALEffect}
  {kv kv' : KVStore MMapVectorIndex}

theorem liveCharge_stored (now : Int64) (key : Bytes) (kv : KVStore MMapVectorIndex) :
    liveCharge now key (kv.stored key) = KeyedStore.charged stringCharge (kv.snapshot now) key := by
  rw [charged_snapshot, KVStore.keyspace_eq_filter]
  rfl

theorem stringMemory_le_of_charges
    (each : ∀ key, liveCharge now key (kv'.stored key) ≤ liveCharge now key (kv.stored key)) :
    stringMemory now kv' ≤ stringMemory now kv := by
  rw [stringMemory_eq_total, stringMemory_eq_total]
  exact KeyedStore.total_le fun key => by
    rw [← liveCharge_stored, ← liveCharge_stored]
    exact each key

theorem Settles.memory_bounds (settles : Settles start now cut effects kv kv')
    (passes : start ≤ now) (strings : HoldsStrings kv) :
    stringMemory now kv' ≤ stringMemory start kv +
      KeyedStore.total (effectGrowth start kv) (finalEffects effects) := by
  rw [stringMemory_eq_total, stringMemory_eq_total]
  exact KeyedStore.total_le_add fun key => by
    rw [← liveCharge_stored, ← liveCharge_stored]
    exact (settles.each key).growth_bounds passes strings

theorem Settles.memory_reaches (settles : Settles start now cut effects kv kv')
    (strings : HoldsStrings kv) (uncut : ¬ cut)
    (live : ∀ key state, kv.stored key = some state → state.isExpired start = false) :
    storedMemory kv + KeyedStore.total (effectGrowth start kv) (finalEffects effects) ≤
      storedMemory kv' :=
  KeyedStore.add_le_total fun key => by
    rw [charged_stored, charged_stored]
    exact (settles.each key).growth_reaches strings uncut (live key)

theorem Settles.strings (settles : Settles start now cut effects kv kv')
    (strings : HoldsStrings kv) : HoldsStrings kv' :=
  fun key => (settles.each key).strings strings

theorem stringMemory_later {earlier later : Int64} (passes : earlier ≤ later)
    (kv : KVStore MMapVectorIndex) : stringMemory later kv ≤ stringMemory earlier kv := by
  rw [stringMemory_eq_total, stringMemory_eq_total]
  refine KeyedStore.total_le fun key => ?_
  rw [← liveCharge_stored, ← liveCharge_stored]
  exact liveCharge_later passes key _

theorem stringMemory_le_stored (now : Int64) (kv : KVStore MMapVectorIndex) :
    stringMemory now kv ≤ storedMemory kv := by
  rw [stringMemory_eq_total]
  refine KeyedStore.total_le fun key => ?_
  rw [← liveCharge_stored, charged_stored]
  exact liveCharge_le now key _

theorem storedMemory_le_live
    (live : ∀ key state, kv.stored key = some state → state.isExpired now = false) :
    storedMemory kv ≤ stringMemory now kv := by
  rw [stringMemory_eq_total]
  refine KeyedStore.total_le fun key => ?_
  rw [← liveCharge_stored, charged_stored]
  cases stored : kv.stored key with
  | none => exact Int.le_refl _
  | some state => rw [liveCharge_live (live key state stored)]

end Sums

/-!
## Replies
-/

def ordinary : Reply → Bool
  | .quit => false
  | .error message => message ≠ errPanic && message ≠ "OOM tenant quota exceeded"
  | _ => true

theorem ordinary_completed {reply : Reply} (usual : ordinary reply = true) :
    completed reply = true := by
  cases reply with
  | error message =>
    simp only [ordinary, Bool.and_eq_true] at usual
    exact usual.1
  | quit => cases usual
  | _ => rfl

section Replies

variable {moment : Moment} {cmd : Command} {session : Session}

theorem parseSetOptions_error {options : List (Option Bytes)} {start : SetArgs} {message : String}
    (failure : parseSetOptions options start = .error message) :
    ordinary (.error message) = true := by
  fun_induction parseSetOptions options start with
  | case1 => cases failure
  | case2 start arg rest option named ih => exact ih failure
  | case3 start arg rest option _ named ih => exact ih failure
  | case4 =>
    cases failure
    rfl
  | case5 start arg option _ _ timed text rest message' refused =>
    cases failure
    unfold parsePositive at refused
    split at refused
    · cases refused
      rfl
    split at refused
    · cases refused
      rfl
    · cases refused
  | case6 start arg option _ _ timed text rest number parsed ih => exact ih failure
  | case7 =>
    cases failure
    rfl

theorem parseSetArgs_error {args : List (Option Bytes)} {message : String}
    (failure : parseSetArgs args = .error message) : ordinary (.error message) = true := by
  cases args with
  | nil =>
    cases failure
    rfl
  | cons value options => exact parseSetOptions_error failure

theorem dispatchSet_ordinary : ordinary (dispatchSet moment cmd session).1 = true := by
  rw [dispatchSet_eq]
  split
  · rfl
  split
  · exact parseSetArgs_error ‹_›
  · rw [stringSet_eq]
    split <;> rfl

theorem dispatchIncr_ordinary (strings : HoldsStrings session.store.kv) (amount : Int64) :
    ordinary (dispatchIncr moment amount cmd session).1 = true := by
  unfold dispatchIncr StringStore.incr
  cases found : session.store.kv.get moment.now (cmd.arg 0) with
  | none =>
    obtain ⟨kv, dropped, _⟩ := KVStore.getForWrite_none found
    simp only [dropped]
    rfl
  | some entry =>
    obtain ⟨type, data, value⟩ := strings.of_get found
    simp only [KVStore.getForWrite_some found, type, value, ne_eq, not_true, if_false]
    cases parseInt (data.getD []) with
    | none => rfl
    | some number => rfl

theorem dispatchIncrBy_ordinary (strings : HoldsStrings session.store.kv) {name : String}
    (signed : Int64 → Int64) (short : ordinary (.error (wrongNumArgsError name)) = true) :
    ordinary (dispatchIncrBy moment name signed cmd session).1 = true := by
  unfold dispatchIncrBy
  split
  · exact short
  split
  · rfl
  · exact dispatchIncr_ordinary strings _

theorem dispatchAppend_ordinary (strings : HoldsStrings session.store.kv) :
    ordinary (dispatchAppend moment cmd session).1 = true := by
  unfold dispatchAppend StringStore.append
  split
  · rfl
  cases found : session.store.kv.get moment.now (cmd.arg 0) with
  | none =>
    obtain ⟨kv, dropped, _⟩ := KVStore.getForWrite_none found
    simp only [dropped]
    rfl
  | some entry =>
    obtain ⟨type, data, value⟩ := strings.of_get found
    simp only [KVStore.getForWrite_some found, type, value, ne_eq, not_true, if_false]
    rfl

theorem dispatchGetset_ordinary (strings : HoldsStrings session.store.kv) :
    ordinary (dispatchGetset moment cmd session).1 = true := by
  unfold dispatchGetset StringStore.getSet StringStore.get
  cases found : session.store.kv.get moment.now (cmd.arg 0) with
  | none => rfl
  | some entry =>
    obtain ⟨type, data, value⟩ := strings.of_get found
    simp only [type, value, ne_eq, not_true, if_false]
    rfl

theorem dispatchRename_ordinary : ordinary (dispatchRename moment cmd session).1 = true := by
  unfold dispatchRename Store.rename KVStore.rename
  split
  · rfl
  cases session.store.kv.get moment.now (cmd.arg 0) with
  | none => rfl
  | some entry =>
    simp only
    split <;> rfl

theorem dispatchExpire_ordinary : ordinary (dispatchExpire moment cmd session).1 = true := by
  unfold dispatchExpire
  split
  · rfl
  split
  · rfl
  rcases session.store.kv.expire moment.now (cmd.arg 0) _ with ⟨_ | _, kv⟩
  · rfl
  · rfl

theorem dispatchSetex_ordinary : ordinary (dispatchSetex moment cmd session).1 = true := by
  unfold dispatchSetex
  split
  · rfl
  split
  · rfl
  · split <;> rfl

end Replies

variable {name : CommandName}

theorem dispatched_ordinary (config : ExecutorConfig) (start now : Int64) (cmd : Command)
    {store : Store} (strings : HoldsStrings store.kv)
    (durable : (prepareDurableEffects start name cmd store.kv).isSome = true) :
    ordinary (dispatchedSpan config start now name cmd store).1 = true := by
  let session := prepared (effectsBefore start name cmd store.kv) store
  let moment : Moment := ⟨now, effectsBefore start name cmd store.kv ≠ []⟩
  cases name with
  | set => exact @dispatchSet_ordinary moment cmd session
  | setex => exact @dispatchSetex_ordinary moment cmd session
  | getset => exact @dispatchGetset_ordinary moment cmd session strings
  | expire => exact @dispatchExpire_ordinary moment cmd session
  | rename => exact @dispatchRename_ordinary moment cmd session
  | incr => exact @dispatchIncr_ordinary moment cmd session strings 1
  | decr => exact @dispatchIncr_ordinary moment cmd session strings (-1)
  | incrby => exact @dispatchIncrBy_ordinary moment cmd session strings "INCRBY" _ rfl
  | decrby => exact @dispatchIncrBy_ordinary moment cmd session strings "DECRBY" _ rfl
  | append => exact @dispatchAppend_ordinary moment cmd session strings
  | setnx =>
    change ordinary (dispatchSetnx moment cmd session).1 = true
    unfold dispatchSetnx
    split <;> rfl
  | mset =>
    change ordinary (dispatchMset moment cmd session).1 = true
    unfold dispatchMset
    split <;> rfl
  | del =>
    change ordinary (dispatchDel moment cmd session).1 = true
    unfold dispatchDel
    split <;> rfl
  | persist => rfl
  | _ => cases durable

theorem holdsStrings_of_all {kv : KVStore MMapVectorIndex}
    (all : (kv.data.entries.all fun entry => entry.2.type = .string &&
      match entry.2.value with
      | .bytes _ => true
      | _ => false) = true) : HoldsStrings kv := by
  intro key state stored
  obtain ⟨entry, found, rfl⟩ := Option.map_eq_some_iff.mp stored
  have checked := List.all_eq_true.mp all ⟨key, entry⟩ (AList.mem_lookup_iff.mp found)
  simp only [Bool.and_eq_true, decide_eq_true_eq] at checked
  refine ⟨checked.1, ?_⟩
  cases value : entry.value with
  | bytes data => exact ⟨data.getD [], by rw [Entry.state, value]; rfl⟩
  | index | other | nil => simp [value] at checked

/-!
## What is accounted for
-/

/-- The memory that is accounted for after a command that has been dispatched. -/
def accountedAfter (config : ExecutorConfig) (start now : Int64) (name : CommandName)
    (cmd : Command) (executor : Executor) : Int :=
  let ran := dispatchedSpan config start now name cmd executor.store
  if completed ran.1 && name.durableV1 && !name.readOnly then
    match prepareDurableEffects start name cmd executor.store.kv with
    | some effects => executor.accountedMemory +
        KeyedStore.total (effectGrowth start executor.store.kv) (finalEffects effects)
    | none => measureMemoryUsage now ran.2.store
  else executor.accountedMemory

variable {start now : Int64} {cmd : Command}

theorem prepared_writes {kv : KVStore MMapVectorIndex}
    (durable : (prepareDurableEffects start name cmd kv).isSome = true) :
    name.durableV1 = true ∧ name.readOnly = false := by
  cases name with
  | set | setex | setnx | getset | mset | del | expire | persist | rename | incr | decr | incrby
  | decrby | append => exact ⟨rfl, rfl⟩
  | _ => cases durable

variable {config : ExecutorConfig} {executor : Executor}

theorem accountedAfter_prepared (strings : HoldsStrings executor.store.kv)
    {effects : List WALEffect}
    (effective : prepareDurableEffects start name cmd executor.store.kv = some effects) :
    accountedAfter config start now name cmd executor = executor.accountedMemory +
      KeyedStore.total (effectGrowth start executor.store.kv) (finalEffects effects) := by
  have durable : (prepareDurableEffects start name cmd executor.store.kv).isSome = true := by
    rw [effective]
    rfl
  obtain ⟨writes, changes⟩ := prepared_writes durable
  have usual := ordinary_completed (dispatched_ordinary config start now cmd strings durable)
  simp only [accountedAfter, usual, writes, changes, effective, Bool.not_false, Bool.and_self,
    if_true]

theorem run_local (committed : config.raft = .local) (now : Int64) (name : CommandName)
    (cmd : Command) (effects : Option (List WALEffect)) (projected : Int) (executor : Executor) :
    let ran := dispatch config ⟨now, effects.getD [] ≠ []⟩ name cmd
      (prepared (effects.getD []) executor.store)
    run config now name cmd effects projected executor =
      ⟨ran.1, ran.2.appended, ⟨ran.2.store,
        if completed ran.1 && name.durableV1 && !name.readOnly then
          if effects.isSome then projected else measureMemoryUsage now ran.2.store
        else executor.accountedMemory⟩⟩ := by
  unfold run
  rw [committed]
  rfl

theorem execute_local (committed : config.raft = .local)
    (known : lookup cmd.normalized = some name) :
    (executeSpan config start now cmd executor).executor =
      if admitted config start name cmd executor then
        ⟨(dispatchedSpan config start now name cmd executor.store).2.store,
          accountedAfter config start now name cmd executor⟩
      else executor := by
  unfold executeSpan admitted accountedAfter dispatchedSpan effectsBefore
  simp only [known]
  cases supportedInDurableV1 name with
  | false => rfl
  | true =>
    cases config.readOnly && !name.readOnly with
    | true => rfl
    | false =>
      simp only [Bool.not_true, Bool.false_eq_true, if_false, Bool.not_false, Bool.true_and,
        effectsFitQuota_eq]
      match prepareDurableEffects start name cmd executor.store.kv with
      | none =>
        simp only [run_local committed]
        rfl
      | some [] =>
        simp only [run_local committed, finalEffects_nil]
        simp [KeyedStore.total]
      | some (effect :: effects) =>
        simp only [Option.getD_some, reduceCtorEq, decide_false, Bool.false_or]
        cases decide (config.maxMemory ≤ 0) || decide (executor.accountedMemory +
          KeyedStore.total (effectGrowth start executor.store.kv)
            (finalEffects (effect :: effects)) ≤ config.maxMemory) with
        | false => rfl
        | true =>
          simp only [Bool.not_true, Bool.false_eq_true, if_false, if_true,
            run_local committed]
          rfl

/-!
## Runs
-/

structure QuotaState where
  clock : Int64
  executor : Executor

inductive MeterEvent where
  /-- A command with the instants before and behind its append to the log. -/
  | command (start now : Int64) (cmd : Command)
  /-- A tick of the reaper with the items it takes off the heaps. -/
  | tick (now : Int64) (popped : List ExpiryItem)

/-- `SetMemoryLimit` measures what the store holds. -/
def setMemoryLimit (now : Int64) (store : Store) : QuotaState :=
  ⟨now, store, measureMemoryUsage now store⟩

def QuotaState.step (config : ExecutorConfig) (state : QuotaState) :
    MeterEvent → Except String QuotaState
  | .command start now cmd =>
    .ok ⟨now, (executeSpan config start now cmd state.executor).executor⟩
  | .tick now popped =>
    let store := state.executor.store
    if popped.all fun item => item ∈ store.kv.expiries && item.deadline ≤ now then
      .ok ⟨now, { store with kv := store.kv.deleteExpiredLimit popped },
        state.executor.accountedMemory⟩
    else .error "item is not due"

theorem deleteExpiredLimit_stored (popped : List ExpiryItem) (kv : KVStore MMapVectorIndex)
    (key : Bytes) :
    (kv.deleteExpiredLimit popped).stored key = kv.stored key ∨
      (kv.deleteExpiredLimit popped).stored key = none := by
  unfold KVStore.stored
  cases left : (kv.deleteExpiredLimit popped).data.lookup key with
  | none => exact Or.inr rfl
  | some entry =>
    obtain ⟨found, -⟩ := (KVStore.deleteExpiredLimit_lookup popped kv key entry).mp left
    rw [found]
    exact Or.inl rfl

/-!
## Nothing is left out
-/

/-- The strings that are live are accounted for, and within the limit. -/
structure Covered (config : ExecutorConfig) (state : QuotaState) : Prop where
  strings : HoldsStrings state.executor.store.kv
  accounted : stringMemory state.clock state.executor.store.kv ≤ state.executor.accountedMemory
  within : stringMemory state.clock state.executor.store.kv ≤ config.maxMemory

/-- The clock does not run back, commands leave strings only and their effects say
what they do. -/
def Counted (config : ExecutorConfig) (state : QuotaState) : MeterEvent → Prop
  | .command start now cmd =>
    state.clock ≤ start ∧ start ≤ now ∧
      HoldsStrings (executeSpan config start now cmd state.executor).executor.store.kv ∧
      ∀ name, lookup cmd.normalized = some name →
        Foreseen start now name cmd state.executor.store.kv
  | .tick now _ => state.clock ≤ now

theorem measure_covers (now : Int64) (store : Store) :
    stringMemory now store.kv ≤ measureMemoryUsage now store := by
  have strings : stringMemory now store.kv ≤ store.kv.memoryUsage now := by
    have each : stringMemory now store.kv ≤ KeyedStore.total (fun key entry =>
        ((key.length + 96 : Nat) : Int) +
          if entry.type = .string then (entry.value.length : Int) else 0)
        (store.kv.snapshot now) := by
      rw [stringMemory_eq_total]
      refine KeyedStore.total_le fun key => ?_
      unfold KeyedStore.charged
      cases (store.kv.snapshot now).lookup key with
      | none => exact Int.le_refl _
      | some entry =>
        simp only [Option.elim_some, stringCharge]
        split
        · push_cast
          omega
        · omega
    have pending : (0 : Int) ≤ (store.kv.expiries.length : Int) * 48 := by omega
    exact each.trans (Int.le_add_of_nonneg_right pending)
  have vectors : 0 ≤ store.vectorMemoryUsage := by
    unfold Store.vectorMemoryUsage
    refine List.sum_nonneg fun charge member => ?_
    obtain ⟨entry, _, rfl⟩ := List.mem_map.mp member
    split
    · rename_i idx _ _
      have rows : 0 ≤ (idx.rows.map fun row => ((row.id.length + 32 : Nat) : Int)).sum := by
        refine List.sum_nonneg fun charge member => ?_
        obtain ⟨row, _, rfl⟩ := List.mem_map.mp member
        exact Int.natCast_nonneg _
      exact Int.add_nonneg (Int.add_nonneg (Int.natCast_nonneg _) rows) (Int.natCast_nonneg _)
    · exact Int.le_refl 0
  exact strings.trans (Int.le_add_of_nonneg_right vectors)

theorem Indexed.memory_le {before after : Store} (indexed : Indexed before after)
    (strings : HoldsStrings after.kv) (now : Int64) :
    stringMemory now after.kv ≤ stringMemory now before.kv := by
  refine stringMemory_le_of_charges fun key => ?_
  rcases indexed key with same | gone | ⟨state, idx, stored, holds⟩
  · rw [same]
  · rw [gone, liveCharge_none]
    exact stateCharge_nonneg key _
  · obtain ⟨_, data, value⟩ := strings key state stored
    rw [holds] at value
    cases value

theorem Covered.later {state : QuotaState} (covered : Covered config state)
    (passes : state.clock ≤ now) : Covered config { state with clock := now } :=
  have later := stringMemory_later passes state.executor.store.kv
  ⟨covered.strings, later.trans covered.accounted, later.trans covered.within⟩

theorem covered_prepared (passes : start ≤ now) (limited : 0 < config.maxMemory)
    (covered : Covered config ⟨start, executor⟩)
    (allowed : admitted config start name cmd executor = true)
    (foreseen : Foreseen start now name cmd executor.store.kv) {effects : List WALEffect}
    (effective : prepareDurableEffects start name cmd executor.store.kv = some effects) :
    Covered config ⟨now, (dispatchedSpan config start now name cmd executor.store).2.store,
      accountedAfter config start now name cmd executor⟩ := by
  have durable : (prepareDurableEffects start name cmd executor.store.kv).isSome = true := by
    rw [effective]
    rfl
  have logged : effectsBefore start name cmd executor.store.kv = effects := by
    rw [effectsBefore, effective]
    rfl
  have strings : HoldsStrings executor.store.kv := covered.strings
  have paid : stringMemory start executor.store.kv ≤ executor.accountedMemory := covered.accounted
  have settles := dispatched_settles config passes strings durable foreseen
  have bound := settles.memory_bounds passes strings
  rw [logged] at bound
  refine ⟨settles.strings strings, ?_, ?_⟩
  · rw [accountedAfter_prepared strings effective]
    dsimp only
    omega
  · by_cases silent : effects = []
    · rw [silent, finalEffects_nil] at bound
      have stays := bound.trans_eq (Int.add_zero _)
      exact stays.trans covered.within
    · simp only [admitted, logged, effectsFitQuota_eq, Bool.and_eq_true, Bool.or_eq_true,
        decide_eq_true_eq, silent, false_or] at allowed
      have fits := allowed.2.resolve_left (by omega)
      dsimp only
      omega

theorem covered_unprepared (covered : Covered config ⟨now, executor⟩)
    (unprepared : prepareDurableEffects start name cmd executor.store.kv = none)
    (strings : HoldsStrings (dispatchedSpan config start now name cmd executor.store).2.store.kv) :
    Covered config ⟨now, (dispatchedSpan config start now name cmd executor.store).2.store,
      accountedAfter config start now name cmd executor⟩ := by
  have silent : prepareDurableEffects now name cmd executor.store.kv = none := by
    cases name <;> first | rfl | cases unprepared
  have indexed : Indexed executor.store
      (dispatchedSpan config start now name cmd executor.store).2.store :=
    (Indexed.steps config.vectors now).dispatch silent
  have shrunk := indexed.memory_le strings now
  refine ⟨strings, ?_, shrunk.trans covered.within⟩
  unfold accountedAfter
  rw [unprepared]
  dsimp only
  split
  · exact measure_covers now _
  · exact shrunk.trans covered.accounted

theorem execute_unrecognised (config : ExecutorConfig) (start now : Int64) (executor : Executor)
    (unknown : lookup cmd.normalized = none) :
    (executeSpan config start now cmd executor).executor = executor := by
  unfold executeSpan
  rw [unknown]
  rfl

theorem Covered.command {config : ExecutorConfig} (limited : 0 < config.maxMemory)
    (committed : config.raft = .local) {state : QuotaState} {start now : Int64} {cmd : Command}
    (covered : Covered config state) (counted : Counted config state (.command start now cmd)) :
    Covered config ⟨now, (executeSpan config start now cmd state.executor).executor⟩ := by
  obtain ⟨begins, passes, strings, foreseen⟩ := counted
  have present := covered.later begins
  have idle : Covered config ⟨now, state.executor⟩ := present.later passes
  cases known : lookup cmd.normalized with
  | none =>
    rw [execute_unrecognised config start now state.executor known]
    exact idle
  | some name =>
    rw [execute_local committed known] at strings ⊢
    cases allowed : admitted config start name cmd state.executor with
    | false => exact idle
    | true =>
      rw [allowed, if_pos rfl] at strings
      cases effective : prepareDurableEffects start name cmd state.executor.store.kv with
      | none => exact covered_unprepared idle effective strings
      | some effects =>
        exact covered_prepared passes limited present allowed (foreseen name known) effective

theorem Covered.tick {state successor : QuotaState} {popped : List ExpiryItem}
    (covered : Covered config state) (passes : state.clock ≤ now)
    (stepped : state.step config (.tick now popped) = .ok successor) :
    Covered config successor := by
  simp only [QuotaState.step] at stepped
  split at stepped
  · cases stepped
    have present := covered.later passes
    have shrunk : stringMemory now (state.executor.store.kv.deleteExpiredLimit popped) ≤
        stringMemory now state.executor.store.kv := by
      refine stringMemory_le_of_charges fun key => ?_
      rcases deleteExpiredLimit_stored popped state.executor.store.kv key with same | gone
      · rw [same]
      · rw [gone, liveCharge_none]
        exact stateCharge_nonneg key _
    refine ⟨fun key held stored => ?_, shrunk.trans present.accounted,
      shrunk.trans present.within⟩
    rcases deleteExpiredLimit_stored popped state.executor.store.kv key with same | gone
    · exact covered.strings key held (same.symm.trans stored)
    · rw [gone] at stored
      cases stored
  · cases stepped

/-- From an empty store on, the strings that are live never take more than what is
accounted for, nor more than the limit. -/
theorem strings_within_quota {config : ExecutorConfig} (limited : 0 < config.maxMemory)
    (committed : config.raft = .local) {clock : Int64} {disk : Disk} {state : QuotaState}
    (reached : Reaches (QuotaState.step config) (Counted config)
      (setMemoryLimit clock ⟨.new, disk⟩) state) :
    stringMemory state.clock state.executor.store.kv ≤ state.executor.accountedMemory ∧
      stringMemory state.clock state.executor.store.kv ≤ config.maxMemory := by
  have start : Covered config (setMemoryLimit clock ⟨.new, disk⟩) := by
    refine ⟨fun key held stored => ?_, measure_covers clock _, Int.le_of_lt limited⟩
    change (KVStore.new : KVStore MMapVectorIndex).stored key = some held at stored
    rw [KVStore.stored_new] at stored
    cases stored
  have covered : Covered config state := by
    refine reached.invariant start fun state event successor covered counted stepped => ?_
    cases event with
    | command start now cmd =>
      cases stepped
      exact covered.command limited committed counted
    | tick now popped => exact covered.tick counted stepped
  exact ⟨covered.accounted, covered.within⟩

def setKey (key value : Bytes) : Command := ⟨ascii "SET", [some key, some value]⟩

def narrow : ExecutorConfig := { keysOnly with maxMemory := 100 }

def oneKey : Executor :=
  (execute narrow 0 (setKey [0x6b] [0x76]) (setMemoryLimit 0 .empty).executor).executor

/-- Renaming a string to its own name deletes it from the account only, which leaves
room for a second one. -/
theorem renamed_string_uncounted :
    let renamed := execute narrow 0 (renameKey [0x6b]) oneKey
    let added := execute narrow 0 (setKey [0x6c] [0x76]) renamed.executor
    renamed.reply = .simple "OK" ∧
      renamed.executor.accountedMemory < stringMemory 0 renamed.executor.store.kv ∧
      added.reply = .simple "OK" ∧
      narrow.maxMemory < stringMemory 0 added.executor.store.kv :=
  ⟨rfl, by decide, rfl, by decide⟩

theorem setKey_counted : Counted narrow (setMemoryLimit 0 .empty)
    (.command 0 0 (setKey [0x6b] [0x76])) := by
  have setting : lookup (setKey [0x6b] [0x76]).normalized = some .set := by decide
  refine ⟨by decide, by decide, holdsStrings_of_all (by decide), fun name known => ?_⟩
  cases setting.symm.trans known
  intro old value found
  cases found

theorem renameKey_counted : Counted narrow ⟨0, oneKey⟩ (.command 0 0 (renameKey [0x6c])) := by
  have moving : lookup (renameKey [0x6c]).normalized = some .rename := by decide
  refine ⟨by decide, by decide, holdsStrings_of_all (by decide), fun name known => ?_⟩
  cases moving.symm.trans known
  intro old found arity
  rw [if_neg (by decide)]
  exact Or.inl (by decide)

theorem renamed_string_within_quota :
    let renamed := (execute narrow 0 (renameKey [0x6c]) oneKey).executor
    stringMemory 0 renamed.store.kv ≤ renamed.accountedMemory ∧
      stringMemory 0 renamed.store.kv ≤ narrow.maxMemory := by
  have once : Reaches (QuotaState.step narrow) (Counted narrow) (setMemoryLimit 0 .empty)
      ⟨0, oneKey⟩ := .next _ .start setKey_counted rfl
  have bound := strings_within_quota (by decide) rfl (.next _ once renameKey_counted rfl)
  exact bound

/-!
## Nothing too much

A deadline that passes gives nothing back. As long as none does, what is accounted
for is no more than what the strings take.
-/

structure Exact (state : QuotaState) : Prop where
  strings : HoldsStrings state.executor.store.kv
  accounted : state.executor.accountedMemory ≤ storedMemory state.executor.store.kv

def vectorCommands : List CommandName :=
  [.vadd, .vaddBatch, .vaddbin, .vmigrate, .vdel, .vcompact, .vsearch, .vsim, .vfuse]

/-- Commands that do nothing and after which the memory is measured, with the items on the
deadline heaps. -/
def measuredCommands : List CommandName := [.auth, .select, .setrange]

/-- No command is one on vectors, its effects say what it does, and it does not end a life at once.
No deadline has passed where a command or a tick looks, and none is pending where the memory is
measured. -/
def Lasting (state : QuotaState) : MeterEvent → Prop
  | .command start now cmd =>
    let kv := state.executor.store.kv
    start ≤ now ∧ (∀ key held, kv.stored key = some held → held.isExpired now = false) ∧
      ∀ name, lookup cmd.normalized = some name →
        name ∉ vectorCommands ∧ (name ∈ measuredCommands → kv.expiries = []) ∧
        Foreseen start now name cmd kv ∧ ¬ Cuts start now name cmd kv
  | .tick now _ =>
    let kv := state.executor.store.kv
    ∀ item ∈ kv.expiries, item.deadline ≤ now →
      ∀ entry, kv.data.lookup item.key = some entry →
        entry.version ≠ item.version ∨ entry.expiresAt ≠ item.deadline

theorem dispatched_idle {store : Store}
    (unprepared : prepareDurableEffects start name cmd store.kv = none)
    (other : name ∉ vectorCommands) :
    (dispatchedSpan config start now name cmd store).2.store = store := by
  cases name <;> first | rfl | exact absurd (by decide) other | cases unprepared

theorem measured_of_completed {store : Store}
    (unprepared : prepareDurableEffects start name cmd store.kv = none)
    (other : name ∉ vectorCommands)
    (measured : (completed (dispatchedSpan config start now name cmd store).1 && name.durableV1 &&
      !name.readOnly) = true) : name ∈ measuredCommands := by
  rw [Bool.and_assoc, Bool.and_eq_true] at measured
  cases name with
  | auth | select | setrange => decide
  | quit => cases measured.1
  | set | setex | setnx | getset | mset | del | expire | persist | rename | incr | decr | incrby
  | decrby | append => cases unprepared
  | vadd | vaddBatch | vaddbin | vmigrate | vdel | vcompact => exact absurd (by decide) other
  | _ => cases measured.2

theorem popExpiry_data {item : ExpiryItem} {kv : KVStore MMapVectorIndex}
    (stale : ∀ entry, kv.data.lookup item.key = some entry →
      entry.version ≠ item.version ∨ entry.expiresAt ≠ item.deadline) :
    (kv.popExpiry item).data = kv.data := by
  unfold KVStore.popExpiry
  dsimp only
  split
  · rfl
  · rename_i entry found
    rw [if_pos (stale entry found)]

theorem deleteExpiredLimit_data {popped : List ExpiryItem} {kv : KVStore MMapVectorIndex}
    (stale : ∀ item ∈ popped, ∀ entry, kv.data.lookup item.key = some entry →
      entry.version ≠ item.version ∨ entry.expiresAt ≠ item.deadline) :
    (kv.deleteExpiredLimit popped).data = kv.data := by
  unfold KVStore.deleteExpiredLimit
  induction popped generalizing kv with
  | nil => rfl
  | cons item popped ih =>
    have first := popExpiry_data (stale item (List.mem_cons_self ..))
    rw [List.foldl_cons, ih, first]
    rw [first]
    exact fun later member => stale later (List.mem_cons_of_mem item member)

theorem Exact.tick {config : ExecutorConfig} {state successor : QuotaState} {now : Int64}
    {popped : List ExpiryItem} (held : Exact state) (lasting : Lasting state (.tick now popped))
    (stepped : state.step config (.tick now popped) = .ok successor) : Exact successor := by
  simp only [QuotaState.step] at stepped
  split at stepped
  · rename_i due
    cases stepped
    have kept : (state.executor.store.kv.deleteExpiredLimit popped).data =
        state.executor.store.kv.data := by
      refine deleteExpiredLimit_data fun item member => ?_
      have taken := List.all_eq_true.mp due item member
      simp only [Bool.and_eq_true, decide_eq_true_eq] at taken
      exact lasting item taken.1 taken.2
    refine ⟨fun key found stored => ?_, ?_⟩
    · rw [KVStore.stored, kept] at stored
      exact held.strings key found stored
    · rw [storedMemory, kept]
      exact held.accounted
  · cases stepped

theorem measure_exact {store : Store} (strings : HoldsStrings store.kv)
    (idle : store.kv.expiries = []) (now : Int64) :
    measureMemoryUsage now store ≤ storedMemory store.kv := by
  have held : ∀ entry ∈ store.kv.data.entries,
      entry.2.type = .string ∧ ∃ data, entry.2.value = .bytes data := by
    intro entry member
    have found : store.kv.data.lookup entry.1 = some entry.2 := AList.mem_lookup_iff.mpr member
    obtain ⟨type, data, value⟩ := strings entry.1 entry.2.state (by
      rw [KVStore.stored, found]
      rfl)
    refine ⟨type, ?_⟩
    cases holds : entry.2.value with
    | bytes data => exact ⟨data, rfl⟩
    | index | other | nil => simp [Entry.state, holds, Value.content] at value
  have vectors : store.vectorMemoryUsage = 0 := by
    unfold Store.vectorMemoryUsage
    refine List.sum_eq_zero fun charge member => ?_
    obtain ⟨entry, listed, rfl⟩ := List.mem_map.mp member
    rw [(held entry listed).1]
  have keys : store.kv.memoryUsage now = stringMemory now store.kv := by
    unfold KVStore.memoryUsage stringMemory
    rw [idle]
    refine (Int.add_zero _).trans (congrArg List.sum (List.map_congr_left fun entry member => ?_))
    have string := (held entry (List.mem_filter.mp member).1).1
    simp only [stringCharge, string, if_true]
    push_cast
    omega
  rw [measureMemoryUsage, vectors, keys, Int.add_zero]
  exact stringMemory_le_stored now store.kv

theorem Exact.command {config : ExecutorConfig} (committed : config.raft = .local)
    {state : QuotaState} {start now : Int64} {cmd : Command} (held : Exact state)
    (lasting : Lasting state (.command start now cmd)) :
    Exact ⟨now, (executeSpan config start now cmd state.executor).executor⟩ := by
  obtain ⟨passes, live, fit⟩ := lasting
  have present : Exact ⟨now, state.executor⟩ := ⟨held.strings, held.accounted⟩
  cases known : lookup cmd.normalized with
  | none =>
    rw [execute_unrecognised config start now state.executor known]
    exact present
  | some name =>
    obtain ⟨plain, quiet, foreseen, uncut⟩ := fit name known
    rw [execute_local committed known]
    cases allowed : admitted config start name cmd state.executor with
    | false => exact present
    | true =>
      rw [if_pos rfl]
      cases effective : prepareDurableEffects start name cmd state.executor.store.kv with
      | some effects =>
        have durable : (prepareDurableEffects start name cmd state.executor.store.kv).isSome =
            true := by
          rw [effective]
          rfl
        have settles := dispatched_settles config passes held.strings durable foreseen
        have reaches := settles.memory_reaches held.strings uncut fun key entry stored => by
          refine Bool.eq_false_iff.mpr fun expired => ?_
          have alive := live key entry stored
          rw [isExpired_later passes expired] at alive
          cases alive
        have logged : effectsBefore start name cmd state.executor.store.kv = effects := by
          rw [effectsBefore, effective]
          rfl
        have paid := held.accounted
        refine ⟨settles.strings held.strings, ?_⟩
        rw [accountedAfter_prepared held.strings effective]
        rw [logged] at reaches
        dsimp only
        omega
      | none =>
        rw [dispatched_idle effective plain]
        refine ⟨held.strings, ?_⟩
        unfold accountedAfter
        rw [effective]
        dsimp only
        split
        · rename_i measured
          rw [dispatched_idle effective plain]
          exact measure_exact held.strings
            (quiet (measured_of_completed effective plain measured)) now
        · exact held.accounted

theorem execute_in_quota {config : ExecutorConfig} (committed : config.raft = .local)
    {start now : Int64} {cmd : Command} {executor : Executor} {name : CommandName}
    (strings : HoldsStrings executor.store.kv) (known : lookup cmd.normalized = some name)
    (durable : (prepareDurableEffects start name cmd executor.store.kv).isSome = true)
    (fits : (effectsFitQuota start config.maxMemory executor.accountedMemory
      (effectsBefore start name cmd executor.store.kv) executor.store.kv).1 = true) :
    (executeSpan config start now cmd executor).reply ≠ .error "OOM tenant quota exceeded" := by
  have usual : (dispatchedSpan config start now name cmd executor.store).1 ≠
      .error "OOM tenant quota exceeded" := by
    intro refused
    have plain := dispatched_ordinary config start now cmd strings durable
    rw [refused] at plain
    exact absurd plain (by decide)
  have supported : supportedInDurableV1 name = true := by
    rw [supportedInDurableV1, (prepared_writes durable).1, Bool.or_true]
  have settled := executeSpan_cases config start now executor known
  cases locked : config.readOnly && !name.readOnly with
  | true =>
    unfold executeSpan
    simp only [known, supported, locked, Bool.not_true, Bool.false_eq_true, if_false, if_true]
    intro same
    exact absurd (Reply.error.inj same) (by decide)
  | false =>
    have allowed : admitted config start name cmd executor = true := by
      simp only [admitted, supported, locked, fits, Bool.not_false, Bool.or_true, Bool.and_self]
    rw [allowed, if_pos rfl, raftSettles, committed] at settled
    have follows : (executeSpan config start now cmd executor).Follows
        (dispatchedSpan config start now name cmd executor.store) := by
      split at settled
      · exact settled
      · exact settled
    rw [follows.reply]
    exact usual

/-- A write that fits beside the strings that are live is not refused for want of
memory, where no deadline passes in between. -/
theorem fitting_write_admitted {config : ExecutorConfig} (committed : config.raft = .local)
    {clock : Int64} {store : Store} (strings : HoldsStrings store.kv)
    (idle : store.kv.expiries = []) {state : QuotaState}
    (reached : Reaches (QuotaState.step config) Lasting (setMemoryLimit clock store) state)
    {start now : Int64} {cmd : Command} {name : CommandName}
    (lasting : Lasting state (.command start now cmd)) (known : lookup cmd.normalized = some name)
    (durable : (prepareDurableEffects start name cmd state.executor.store.kv).isSome = true)
    (fits : (effectsFitQuota start config.maxMemory (stringMemory start state.executor.store.kv)
      (effectsBefore start name cmd state.executor.store.kv) state.executor.store.kv).1 = true) :
    (executeSpan config start now cmd state.executor).reply ≠
      .error "OOM tenant quota exceeded" := by
  have held : Exact state := by
    refine reached.invariant ⟨strings, measure_exact strings idle clock⟩
      fun state event successor held lasting stepped => ?_
    cases event with
    | command start now cmd =>
      cases stepped
      exact held.command committed lasting
    | tick now popped => exact held.tick lasting stepped
  -- no deadline has passed, so all that is stored is live
  have all := (storedMemory_le_live lasting.2.1).trans (stringMemory_later lasting.1 _)
  have paid := held.accounted
  refine execute_in_quota committed held.strings known durable ?_
  simp only [effectsFitQuota_eq, Bool.or_eq_true, decide_eq_true_eq] at fits ⊢
  omega

def expiring : Executor :=
  (execute narrow 0 ⟨ascii "SETEX", [some [0x6b], some [0x31], some [0x76]]⟩
    (setMemoryLimit 0 .empty).executor).executor

/-- Two seconds later the reaper has taken the key away and nothing is left, and
still there is no room for another one. -/
theorem expired_string_charged :
    let later : Int64 := 2000000000
    let add := setKey [0x6c] [0x76]
    ∃ reaped, QuotaState.step narrow ⟨0, expiring⟩ (.tick later [⟨[0x6b], 1000000000, 1⟩]) =
        .ok reaped ∧
      reaped.executor.store.kv.data = ∅ ∧
      (effectsFitQuota later narrow.maxMemory (stringMemory later reaped.executor.store.kv)
        (effectsBefore later .set add reaped.executor.store.kv)
        reaped.executor.store.kv).1 = true ∧
      (execute narrow later add reaped.executor).reply = .error "OOM tenant quota exceeded" :=
  ⟨_, rfl, rfl, by decide, rfl⟩

theorem setKey_lasting {state : QuotaState} {now : Int64} (key value : Bytes)
    (live : ∀ key held, state.executor.store.kv.stored key = some held →
      held.isExpired now = false) : Lasting state (.command now now (setKey key value)) := by
  have setting : lookup (setKey key value).normalized = some .set := rfl
  refine ⟨Int64.le_refl now, live, fun name known => ?_⟩
  cases setting.symm.trans known
  have standing (found : (state.executor.store.kv.get now key).isSome = true)
      (gone : state.executor.store.kv.get now key = none) : False := by
    rw [gone] at found
    cases found
  refine ⟨by decide, fun measured => absurd measured (by decide), fun old value found gone => ?_,
    fun cuts => standing cuts.1 cuts.2⟩
  exact (standing (Option.isSome_of_eq_some found) gone).elim

theorem overwriting_string_admitted :
    (execute narrow 0 (setKey [0x6b] [0x77]) oneKey).reply ≠
      .error "OOM tenant quota exceeded" := by
  have nothing : HoldsStrings Store.empty.kv := holdsStrings_of_all rfl
  have first : Lasting (setMemoryLimit 0 .empty) (.command 0 0 (setKey [0x6b] [0x76])) := by
    refine setKey_lasting _ _ fun key held stored => ?_
    cases (KVStore.stored_new key).symm.trans stored
  have reached : Reaches (QuotaState.step narrow) Lasting (setMemoryLimit 0 .empty) ⟨0, oneKey⟩ :=
    .next _ .start first rfl
  have second : Lasting ⟨0, oneKey⟩ (.command 0 0 (setKey [0x6b] [0x77])) := by
    refine setKey_lasting _ _ fun key held stored => ?_
    obtain ⟨entry, found, rfl⟩ := Option.map_eq_some_iff.mp stored
    have member := AList.mem_lookup_iff.mp found
    have single : oneKey.store.kv.data.entries =
        [⟨[0x6b], ⟨.bytes (some [0x76]), .string, 0, 1⟩⟩] := rfl
    rw [single, List.mem_singleton] at member
    cases member
    rfl
  exact fitting_write_admitted rfl nothing rfl reached second rfl rfl (by decide)

end Dbx.Query
