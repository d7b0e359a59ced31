import Dbx.Engine.VectorStoreProperties
import Dbx.Query.ExecutorProperties

/-!
# Commands that leave no trace

A command on an index may open the index from its files, which can be told from
then on. Otherwise a search changes nothing, and neither does a migration command
that is refused before it is logged.
-/

set_option autoImplicit false

namespace Dbx.Query

open Dbx.Engine Dbx.Persistence Dbx.Protocol

/-- No record has been appended, and nothing can be told about the data. -/
structure Session.Same (now : Int64) (before after : Session) : Prop where
  appended : after.appended = before.appended
  store : before.store.Same now after.store

theorem Session.Same.refl (now : Int64) (session : Session) : Session.Same now session session :=
  ⟨rfl, .refl now session.store⟩

/-- A session stays as it is under a condition, and differs otherwise. -/
structure Session.Stays (now : Int64) (quiet : Prop) (before after : Session) : Prop where
  same : quiet → after = before
  differs : ¬ quiet → ¬ Session.Same now before after

variable {now : Int64} {quiet : Prop}

theorem Session.Stays.iff {before after : Session} (stays : Session.Stays now quiet before after) :
    Session.Same now before after ↔ quiet := by
  constructor
  · intro same
    by_contra loud
    exact stays.differs loud same
  · intro quiet
    rw [stays.same quiet]
    exact .refl now before

theorem Session.Stays.refl (session : Session) (holds : quiet) :
    Session.Stays now quiet session session :=
  ⟨fun _ => rfl, fun loud => absurd holds loud⟩

theorem Session.Stays.logged {before after : Session} (loud : ¬ quiet)
    (appended : before.appended.length < after.appended.length) :
    Session.Stays now quiet before after :=
  ⟨fun holds => absurd holds loud, fun _ same => by
    rw [same.appended] at appended
    exact absurd appended (Nat.lt_irrefl _)⟩

def Session.lookUp (env : Surroundings) (now : Int64) (key : Bytes) (session : Session) : Session :=
  { session with store := (session.store.getReadOnly env.vectors now key).2 }

theorem Session.stays_lookUp (env : Surroundings) (now : Int64) (key : Bytes) (session : Session) :
    Session.Stays now (¬ session.store.Opens now key) session (session.lookUp env now key) := by
  constructor
  · intro quiet
    rw [lookUp, Store.getReadOnly_quiet env.vectors quiet]
  · intro loud same
    exact loud ((Store.getReadOnly_same_iff env.vectors).mp same.store)

theorem vSearchOpts_store (env : Surroundings) (now : Int64) (key : Bytes) (dim : Nat)
    (store : Store) :
    (vSearchOpts env now key dim store).2 = (store.getReadOnly env.vectors now key).2 := by
  unfold vSearchOpts
  rcases store.getReadOnly env.vectors now key with ⟨message | (_ | idx), after⟩
  · rfl
  · rfl
  · dsimp only
    split
    · rfl
    · split <;> rfl

theorem getVector_store (env : Surroundings) (now : Int64) (key docID : Bytes) (store : Store) :
    (getVector env now key docID store).2 = (store.getReadOnly env.vectors now key).2 := by
  unfold getVector
  rcases store.getReadOnly env.vectors now key with ⟨message | (_ | idx), after⟩
  · rfl
  · rfl
  · dsimp only
    split <;> split <;> rfl

variable {env : Surroundings} {key : Bytes} {store : Store}

theorem getVector_holds {docID : Bytes} {dim : Nat}
    (found : (getVector env now key docID store).1 = .ok dim) :
    ∃ idx, (getVector env now key docID store).2.HoldsIndex now key idx := by
  rw [getVector_store]
  unfold getVector at found
  cases looked : store.getReadOnly env.vectors now key with
  | mk result after =>
    rcases result with message | (_ | idx)
    · simp only [looked, reduceCtorEq] at found
    · simp only [looked, reduceCtorEq] at found
    · exact ⟨idx, Store.getReadOnly_some env.vectors looked⟩

/-- The index that `VSEARCH` looks up, unless it is refused before or asks for the past. -/
def vsearchKey (env : Surroundings) (cmd : Command) : Option Bytes :=
  if cmd.numArgs < 3 then none
  else
    match stripVectorFlags env.parseFloat true false cmd cmd.numArgs ⟨[], [], 0⟩ with
    | .error _ => none
    | .ok (stop, flags) =>
      if stop < 3 then none
      else if (parseInt (cmd.arg (stop - 1))).isNone then none
      else
        match parseFloatArgs env.parseFloat (argSlice cmd 1 (stop - 1)) with
        | .error _ => none
        | .ok query =>
          if query = [] then none
          else if 0 < flags.asOf then none
          else some (vectorSpaceKey (cmd.arg 0) flags.space)

section

variable (env) (moment : Moment) (cmd : Command) (session : Session)

theorem dispatchVsearch_session :
    (dispatchVsearch env moment cmd session).2 =
      match vsearchKey env cmd with
      | none => session
      | some key => session.lookUp env moment.now key := by
  unfold dispatchVsearch vsearchKey
  by_cases few : cmd.numArgs < 3
  · simp only [few, if_true]
  simp only [few, if_false]
  cases stripVectorFlags env.parseFloat true false cmd cmd.numArgs ⟨[], [], 0⟩ with
  | error message => rfl
  | ok stripped =>
    obtain ⟨stop, flags⟩ := stripped
    by_cases short : stop < 3
    · simp only [short, if_true]
    by_cases count : (parseInt (cmd.arg (stop - 1))).isNone
    · simp only [short, count, if_true, if_false]
    simp only [short, count, if_false, Bool.false_eq_true]
    cases parseFloatArgs env.parseFloat (argSlice cmd 1 (stop - 1)) with
    | error message => rfl
    | ok query =>
      by_cases empty : query = []
      · simp only [empty, if_true]
      by_cases past : 0 < flags.asOf
      · simp only [empty, past, if_true, if_false]
      simp only [empty, past, if_false, Session.step_store, vSearchOpts_store]
      rfl

def vsimKey (env : Surroundings) (cmd : Command) : Option Bytes :=
  if cmd.numArgs < 3 then none
  else
    match stripVectorFlags env.parseFloat true false cmd cmd.numArgs ⟨[], [], 0⟩ with
    | .error _ => none
    | .ok (stop, flags) =>
      if stop ≠ 3 then none
      else if (parseInt (cmd.arg 2)).isNone then none
      else some (vectorSpaceKey (cmd.arg 0) flags.space)

theorem dispatchVsim_session :
    (dispatchVsim env moment cmd session).2 =
      match vsimKey env cmd with
      | none => session
      | some key => session.lookUp env moment.now key := by
  unfold dispatchVsim vsimKey
  by_cases few : cmd.numArgs < 3
  · simp only [few, if_true]
  simp only [few, if_false]
  cases stripVectorFlags env.parseFloat true false cmd cmd.numArgs ⟨[], [], 0⟩ with
  | error message => rfl
  | ok stripped =>
    obtain ⟨stop, flags⟩ := stripped
    by_cases short : stop ≠ 3
    · simp only [short, if_true, not_false_eq_true, ne_eq]
    by_cases count : (parseInt (cmd.arg 2)).isNone
    · simp only [short, count, if_true, if_false]
    simp only [short, count, if_false, Bool.false_eq_true]
    generalize vectorSpaceKey (cmd.arg 0) flags.space = key
    have store := getVector_store env moment.now key (cmd.arg 1) session.store
    unfold Session.step
    cases found : (getVector env moment.now key (cmd.arg 1) session.store).1 with
    | error message =>
      dsimp only
      rw [store]
      rfl
    | ok dim =>
      -- The second lookup finds the index that the first has left open.
      obtain ⟨idx, holds⟩ := getVector_holds found
      dsimp only
      have again : (vSearchOpts env moment.now key dim
          (getVector env moment.now key (cmd.arg 1) session.store).2).2 =
          (session.store.getReadOnly env.vectors moment.now key).2 := by
        rw [vSearchOpts_store, Store.getReadOnly_holds env.vectors holds, store]
      cases (vSearchOpts env moment.now key dim
          (getVector env moment.now key (cmd.arg 1) session.store).2).1 with
      | error message => simp only [again, Session.lookUp]
      | ok found => simp only [again, Session.lookUp]

/-- The spaces that `VFUSE` searches, unless it is refused before or wants no hits. -/
def vfuseQueries (env : Surroundings) (cmd : Command) : Option (List (Bytes × Vec)) :=
  if cmd.numArgs < 8 then none
  else
    match stripVectorFlags env.parseFloat false true cmd cmd.numArgs ⟨[], [], 0⟩ with
    | .error _ => none
    | .ok (stop, flags) =>
      match parseFuseQueries env.parseFloat cmd stop with
      | .error _ => none
      | .ok (k, queries) =>
        match validateFuse queries flags.weights with
        | .error _ => none
        | .ok () => if k ≤ 0 then none else some queries

theorem dispatchVfuse_session :
    (dispatchVfuse env moment cmd session).2 =
      match vfuseQueries env cmd with
      | none => session
      | some queries =>
        { session with
          store := (fuseSearch env moment.now (cmd.arg 0) queries session.store).2 } := by
  unfold dispatchVfuse vfuseQueries
  by_cases few : cmd.numArgs < 8
  · simp only [few, if_true]
  simp only [few, if_false]
  cases stripVectorFlags env.parseFloat false true cmd cmd.numArgs ⟨[], [], 0⟩ with
  | error message => rfl
  | ok stripped =>
    obtain ⟨stop, flags⟩ := stripped
    dsimp only
    cases parseFuseQueries env.parseFloat cmd stop with
    | error message => rfl
    | ok parsed =>
      obtain ⟨k, queries⟩ := parsed
      dsimp only
      cases validateFuse queries flags.weights with
      | error message => rfl
      | ok _ =>
        by_cases none : k ≤ 0
        · simp only [none, if_true]
        · simp only [none, if_false, Session.step_store]

/-- A search that opens nothing fails: the key holds another value, an index whose
vectors have other dimensions, or files without dimensions. -/
def SearchFails (now : Int64) (key : Bytes) (dim : Nat) (store : Store) : Prop :=
  ¬ (store.Unopened now key ∧ (store.disk (.live key)).metadata = none) ∧
    ∀ idx, store.HoldsIndex now key idx → idx.count ≠ 0 ∧ dim ≠ idx.dim

theorem vSearchOpts_fails_iff (closed : ¬ store.Opens now key) (dim : Nat) :
    (∃ message, (vSearchOpts env now key dim store).1 = .error message) ↔
      SearchFails now key dim store := by
  by_cases held : ∃ idx, store.HoldsIndex now key idx
  · obtain ⟨idx, holds⟩ := held
    have opened : ¬ (store.Unopened now key ∧ (store.disk (.live key)).metadata = none) :=
      fun unopened => holds.not_unopened unopened.1
    rw [vSearchOpts, Store.getReadOnly_holds env.vectors holds]
    by_cases empty : idx.count = 0
    · simp only [empty, if_true, reduceCtorEq, exists_false, false_iff]
      exact fun fails => (fails.2 idx holds).1 empty
    by_cases same : dim = idx.dim
    · simp only [empty, same, ne_eq, not_true, if_false, reduceCtorEq, exists_false, false_iff]
      exact fun fails => (fails.2 idx holds).2 rfl
    simp only [empty, same, ne_eq, not_false_eq_true, if_true, if_false]
    refine iff_of_true ⟨_, rfl⟩ ⟨opened, fun other holds' => ?_⟩
    exact holds.unique holds' ▸ ⟨empty, same⟩
  · have looked := Store.getReadOnly_lookup env.vectors now key store
    unfold vSearchOpts
    generalize store.getReadOnly env.vectors now key = result at looked
    cases looked with
    | refused _ present =>
      exact iff_of_true ⟨_, rfl⟩ ⟨present, fun idx holds => absurd ⟨idx, holds⟩ held⟩
    | missing unopened absent =>
      simp only [reduceCtorEq, exists_false, false_iff]
      exact fun fails => fails.1 ⟨unopened, absent⟩
    | found holds => exact absurd ⟨_, holds⟩ held
    | wiped opens | opened opens => exact absurd opens closed

end

def FuseQuiet (now : Int64) (index : Bytes) : List (Bytes × Vec) → Store → Prop
  | [], _ => True
  | (space, query) :: queries, store =>
    ¬ store.Opens now (vectorSpaceKey index space) ∧
      (SearchFails now (vectorSpaceKey index space) query.length store ∨
        FuseQuiet now index queries store)

theorem fuseSearch_holds {idx : MMapVectorIndex} (holds : store.HoldsIndex now key idx)
    (index : Bytes) (queries : List (Bytes × Vec)) :
    (fuseSearch env now index queries store).2.HoldsIndex now key idx := by
  induction queries generalizing store with
  | nil => exact holds
  | cons query queries ih =>
    obtain ⟨space, vec⟩ := query
    have opened : (vSearchOpts env now (vectorSpaceKey index space) vec.length store).2.HoldsIndex
        now key idx := by
      rw [vSearchOpts_store]
      exact holds.getReadOnly env.vectors _
    unfold fuseSearch
    rcases searched : vSearchOpts env now (vectorSpaceKey index space) vec.length store with
      ⟨message | _, after⟩
    · rw [searched] at opened
      exact opened
    · rw [searched] at opened
      exact ih opened

theorem vSearchOpts_error {message : String}
    (failed : (store.getReadOnly env.vectors now key).1 = .error message) (dim : Nat) :
    (vSearchOpts env now key dim store).1 = .error message := by
  unfold vSearchOpts
  rcases looked : store.getReadOnly env.vectors now key with ⟨result, after⟩
  rw [looked] at failed
  cases failed
  rfl

theorem fuseSearch_stays (env : Surroundings) (now : Int64) (index : Bytes)
    (queries : List (Bytes × Vec)) (store : Store) :
    (FuseQuiet now index queries store →
        (fuseSearch env now index queries store).2 = store) ∧
      (¬ FuseQuiet now index queries store →
        ¬ Store.Same now store (fuseSearch env now index queries store).2) := by
  induction queries generalizing store with
  | nil => exact ⟨fun _ => rfl, fun loud => absurd trivial loud⟩
  | cons query queries ih =>
    obtain ⟨space, vec⟩ := query
    have store' := vSearchOpts_store env now (vectorSpaceKey index space) vec.length store
    rw [FuseQuiet, fuseSearch]
    generalize vectorSpaceKey index space = key at *
    by_cases opens : store.Opens now key
    · refine ⟨fun quiet => absurd opens quiet.1, fun _ same => ?_⟩
      rcases Store.getReadOnly_opens env.vectors opens with
        ⟨idx, holds⟩ | ⟨⟨message, failed⟩, changed⟩
      · rcases searched : vSearchOpts env now key vec.length store with ⟨message | _, after⟩
        · rw [← store', searched] at holds
          rw [searched] at same
          exact holds.not_same opens.1 same
        · rw [← store', searched] at holds
          rw [searched] at same
          exact (fuseSearch_holds holds index queries).not_same opens.1 same
      · have ended := vSearchOpts_error failed vec.length
        rcases searched : vSearchOpts env now key vec.length store with ⟨message | _, after⟩
        · rw [← store', searched] at changed
          rw [searched] at same
          exact changed same.disk
        · rw [searched] at ended
          cases ended
    · have fails := vSearchOpts_fails_iff env opens vec.length
      rw [Store.getReadOnly_quiet env.vectors opens] at store'
      rcases searched : vSearchOpts env now key vec.length store with ⟨message | _, after⟩
      · rw [searched] at store' fails
        exact ⟨fun _ => store', fun loud => absurd ⟨opens, .inl (fails.mp ⟨message, rfl⟩)⟩ loud⟩
      rw [searched] at store' fails
      simp only at store' fails
      subst store'
      refine ⟨fun quiet => (ih after).1 ?_, fun loud => (ih after).2 fun quiet => ?_⟩
      · refine quiet.2.resolve_left fun failed => ?_
        obtain ⟨message, same⟩ := fails.mpr failed
        cases same
      · exact loud ⟨opens, .inr quiet⟩

def SearchQuiet (env : Surroundings) (now : Int64) (name : CommandName) (cmd : Command)
    (store : Store) : Prop :=
  match name with
  | .vsearch => ∀ key, vsearchKey env cmd = some key → ¬ store.Opens now key
  | .vsim => ∀ key, vsimKey env cmd = some key → ¬ store.Opens now key
  | .vfuse => ∀ queries, vfuseQueries env cmd = some queries →
      FuseQuiet now (cmd.arg 0) queries store
  | _ => True

theorem Session.stays_optional (env : Surroundings) (now : Int64) (key? : Option Bytes)
    (session : Session) :
    Session.Stays now (∀ key, key? = some key → ¬ session.store.Opens now key) session
      (match key? with
      | none => session
      | some key => session.lookUp env now key) := by
  cases key? with
  | none => exact .refl session (by rintro key ⟨⟩)
  | some key =>
    have stays := session.stays_lookUp env now key
    constructor
    · exact fun quiet => stays.same (quiet key rfl)
    · intro loud
      refine stays.differs fun quiet => loud ?_
      rintro _ ⟨⟩
      exact quiet

section

variable (env) (moment : Moment) (cmd : Command) (session : Session)

theorem dispatchVsearch_stays :
    Session.Stays moment.now (SearchQuiet env moment.now .vsearch cmd session.store) session
      (dispatchVsearch env moment cmd session).2 := by
  rw [dispatchVsearch_session]
  exact session.stays_optional env moment.now (vsearchKey env cmd)

theorem dispatchVsim_stays :
    Session.Stays moment.now (SearchQuiet env moment.now .vsim cmd session.store) session
      (dispatchVsim env moment cmd session).2 := by
  rw [dispatchVsim_session]
  exact session.stays_optional env moment.now (vsimKey env cmd)

theorem dispatchVfuse_stays :
    Session.Stays moment.now (SearchQuiet env moment.now .vfuse cmd session.store) session
      (dispatchVfuse env moment cmd session).2 := by
  rw [dispatchVfuse_session, SearchQuiet]
  cases vfuseQueries env cmd with
  | none => exact .refl session (by rintro queries ⟨⟩)
  | some queries =>
    have stays := fuseSearch_stays env moment.now (cmd.arg 0) queries session.store
    constructor
    · intro quiet
      simp only [stays.1 (quiet queries rfl)]
    · intro loud same
      refine stays.2 (fun quiet => loud ?_) same.store
      rintro _ ⟨⟩
      exact quiet

end

/-- The encoding that `VMIGRATE START` asks for. -/
def migrateEncoding (cmd : Command) : Bytes :=
  if 4 ≤ cmd.numArgs then cmd.arg 3 else ascii "sq8"

/-- A migration command is refused before it opens an index or appends a record. -/
def MigrateQuiet (env : Surroundings) (now : Int64) (cmd : Command) (store : Store) : Prop :=
  if cmd.numArgs < 2 then True
  else
    let subcmd := toUpper (cmd.arg 0)
    if subcmd = ascii "START" then
      cmd.numArgs < 3 ∨ parseDim (cmd.arg 2) = none ∨
        ∃ message, normalizeVectorEncoding (migrateEncoding cmd) = .error message
    else if subcmd = ascii "ADD" then
      cmd.numArgs < 4 ∨
        (∃ message, parseFloatArgs env.parseFloat (argSlice cmd 3 cmd.numArgs) = .error message) ∨
        ¬ store.Opens now (cmd.arg 1) ∧ ¬ store.Migrating now (cmd.arg 1)
    else if subcmd = ascii "SWAP" then
      ¬ store.Opens now (cmd.arg 1) ∧ ¬ store.Promotable now (cmd.arg 1)
    else subcmd ≠ ascii "CANCEL"

variable {moment : Moment}

theorem Session.writeWAL_logged (logs : moment.suppressWAL = false) (type : UInt8)
    (key value : Bytes) (ttlNano : Int64) (session : Session) :
    session.appended.length < (session.writeWAL moment type key value ttlNano).appended.length := by
  simp [writeWAL, logs]

theorem Session.Stays.step_logged {before session : Session} {α : Type} (loud : ¬ quiet)
    (appended : before.appended.length < session.appended.length) (result : Except String α × Store)
    (failed : String → String) (reply : α → Session → Reply) :
    Session.Stays now quiet before
      (session.step result failed fun value session => (reply value session, session)).2 := by
  rw [Session.step_store]
  exact .logged loud appended

section

variable (env) (logs : moment.suppressWAL = false)
include logs

theorem migrateStart_stays (cmd : Command) (session : Session) :
    Session.Stays moment.now (cmd.numArgs < 3 ∨ parseDim (cmd.arg 2) = none ∨
        ∃ message, normalizeVectorEncoding (migrateEncoding cmd) = .error message)
      session (migrateStart env moment cmd session).2 := by
  unfold migrateStart
  by_cases few : cmd.numArgs < 3
  · rw [if_pos few]
    exact .refl session (.inl few)
  rw [if_neg few]
  cases parseDim (cmd.arg 2) with
  | none => exact .refl session (.inr (.inl rfl))
  | some number =>
    dsimp only
    rw [show (if 4 ≤ cmd.numArgs then cmd.arg 3 else ascii "sq8") = migrateEncoding cmd from rfl]
    cases normalizeVectorEncoding (migrateEncoding cmd) with
    | error message => exact .refl session (.inr (.inr ⟨message, rfl⟩))
    | ok encoding =>
      refine .step_logged ?_ (Session.writeWAL_logged logs ..) _ _ _
      rintro (short | missing | ⟨message, failed⟩)
      · exact few short
      · cases missing
      · cases failed

theorem migrateAdd_stays (cmd : Command) (session : Session) :
    Session.Stays moment.now (cmd.numArgs < 4 ∨
        (∃ message, parseFloatArgs env.parseFloat (argSlice cmd 3 cmd.numArgs) = .error message) ∨
        ¬ session.store.Opens moment.now (cmd.arg 1) ∧
          ¬ session.store.Migrating moment.now (cmd.arg 1))
      session (migrateAdd env moment cmd session).2 := by
  unfold migrateAdd
  by_cases few : cmd.numArgs < 4
  · rw [if_pos few]
    exact .refl session (.inl few)
  rw [if_neg few]
  cases parseFloatArgs env.parseFloat (argSlice cmd 3 cmd.numArgs) with
  | error message => exact .refl session (.inr (.inl ⟨message, rfl⟩))
  | ok vec =>
    dsimp only
    have store := Store.migrationActive_store env.vectors moment.now (cmd.arg 1) session.store
    have active := @Store.migrationActive_iff moment.now (cmd.arg 1) session.store env.vectors
    generalize Store.migrationActive env.vectors moment.now (cmd.arg 1) session.store = result at *
    obtain ⟨flag, after⟩ := result
    simp only at store active
    cases flag with
    | false =>
      have idle : ¬ session.store.Migrating moment.now (cmd.arg 1) :=
        fun migrating => Bool.false_ne_true (active.mpr migrating)
      have stays := session.stays_lookUp env moment.now (cmd.arg 1)
      rw [Session.lookUp, ← store] at stays
      constructor
      · rintro (short | ⟨message, failed⟩ | ⟨closed, -⟩)
        · exact absurd short few
        · cases failed
        · exact stays.same closed
      · exact fun loud => stays.differs fun closed => loud (.inr (.inr ⟨closed, idle⟩))
    | true =>
      refine .step_logged ?_ ?_ _ _ _
      · rintro (short | ⟨message, failed⟩ | ⟨-, idle⟩)
        · exact few short
        · cases failed
        · exact idle (active.mp rfl)
      · exact Session.writeWAL_logged logs recordVMigrateAdd _ _ _ { session with store := after }

theorem migrateSwap_stays (cmd : Command) (session : Session) :
    Session.Stays moment.now (¬ session.store.Opens moment.now (cmd.arg 1) ∧
        ¬ session.store.Promotable moment.now (cmd.arg 1))
      session (migrateSwap env moment cmd session).2 := by
  unfold migrateSwap
  obtain ⟨store, passes⟩ :=
    Store.validateSwapMigration_spec env.vectors moment.now (cmd.arg 1) session.store
  generalize Store.validateSwapMigration env.vectors moment.now (cmd.arg 1) session.store =
    result at *
  obtain ⟨message | _, after⟩ := result
  · have stuck : ¬ session.store.Promotable moment.now (cmd.arg 1) := fun promotable => by
      cases passes.mpr promotable
    have stays := session.stays_lookUp env moment.now (cmd.arg 1)
    simp only at store
    rw [Session.lookUp, ← store] at stays
    exact ⟨fun quiet => stays.same quiet.1, fun loud =>
      stays.differs fun closed => loud ⟨closed, stuck⟩⟩
  · rw [Session.step_ok]
    refine .step_logged ?_ ?_ _ _ _
    · exact fun quiet => quiet.2 (passes.mp rfl)
    · exact Session.writeWAL_logged logs recordVMigrateSwap _ _ _ { session with store := after }

end

theorem dispatchVmigrate_stays (env : Surroundings) {moment : Moment}
    (logs : moment.suppressWAL = false) (cmd : Command) (session : Session) :
    Session.Stays moment.now (MigrateQuiet env moment.now cmd session.store) session
      (dispatchVmigrate env moment cmd session).2 := by
  unfold dispatchVmigrate MigrateQuiet
  by_cases few : cmd.numArgs < 2
  · simp only [few, if_true]
    exact .refl session trivial
  simp only [few, if_false]
  by_cases start : toUpper (cmd.arg 0) = ascii "START"
  · simp only [start, if_true]
    exact migrateStart_stays env logs cmd session
  by_cases add : toUpper (cmd.arg 0) = ascii "ADD"
  · rw [if_neg start, if_pos add, if_neg start, if_pos add]
    exact migrateAdd_stays env logs cmd session
  by_cases swap : toUpper (cmd.arg 0) = ascii "SWAP"
  · rw [if_neg start, if_neg add, if_pos swap, if_neg start, if_neg add, if_pos swap]
    exact migrateSwap_stays env logs cmd session
  by_cases cancel : toUpper (cmd.arg 0) = ascii "CANCEL"
  · rw [if_neg start, if_neg add, if_neg swap, if_neg start, if_neg add, if_neg swap,
      if_pos cancel]
    exact .step_logged (fun other => other cancel) (Session.writeWAL_logged logs ..) _ _ _
  · rw [if_neg start, if_neg add, if_neg swap, if_neg start, if_neg add, if_neg swap,
      if_neg cancel]
    exact .refl session cancel

end Dbx.Query
