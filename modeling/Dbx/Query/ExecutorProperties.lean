import Dbx.Query.Executor

/-!
# What `Execute` can do
-/

set_option autoImplicit false

namespace Dbx.Query

open Dbx.Engine Dbx.Persistence Dbx.Protocol

def prepared (effects : List WALEffect) (store : Store) : Session :=
  ⟨store, if effects = [] then [] else [effects]⟩

@[simp] theorem prepared_store (effects : List WALEffect) (store : Store) :
    (prepared effects store).store = store := rfl

@[simp] theorem prepared_flatten (effects : List WALEffect) (store : Store) :
    (prepared effects store).appended.flatten = effects := by
  unfold prepared
  split <;> simp_all

@[simp] theorem Session.step_ok {α : Type} (session : Session) (value : α) (store : Store)
    (failed : String → String) (next : α → Session → Reply × Session) :
    session.step (.ok value, store) failed next = next value { session with store := store } := rfl

@[simp] theorem Session.step_store {α : Type} (session : Session)
    (result : Except String α × Store) (failed : String → String) (reply : α → Session → Reply) :
    (session.step result failed fun value session => (reply value session, session)).2 =
      { session with store := result.2 } := by
  unfold Session.step
  cases result.1 <;> rfl

section

variable (kv : KVStore MMapVectorIndex) (session : Session)

@[simp] theorem Session.withKV_kv :
    (session.withKV kv).store.kv = kv := rfl

@[simp] theorem Session.withKV_appended :
    (session.withKV kv).appended = session.appended := rfl

@[simp] theorem Session.writeWAL_store (moment : Moment) (type : UInt8) (key value : Bytes)
    (ttlNano : Int64) (session : Session) :
    (session.writeWAL moment type key value ttlNano).store = session.store := by
  unfold Session.writeWAL
  split <;> rfl

theorem Session.writeWAL_suppressed {moment : Moment} (suppressed : moment.suppressWAL = true)
    (type : UInt8) (key value : Bytes) (ttlNano : Int64) (session : Session) :
    session.writeWAL moment type key value ttlNano = session := by
  unfold Session.writeWAL
  rw [suppressed]
  rfl

theorem parseSetArgs_two {cmd : Command} (two : cmd.numArgs = 2) :
    parseSetArgs cmd.args.tail = .ok ⟨cmd.argBytes 1, 0, false, false⟩ := by
  obtain ⟨key, value, args⟩ := List.length_eq_two.mp two
  simp [args, parseSetArgs, parseSetOptions, Command.argBytes]

/-- A plain `SET` is parsed like one with options. -/
theorem dispatchSet_eq (moment : Moment) (cmd : Command) (session : Session) :
    dispatchSet moment cmd session =
      if cmd.numArgs < 2 then (.error (wrongNumArgsError "SET"), session)
      else
        match parseSetArgs cmd.args.tail with
        | .error message => (.error message, session)
        | .ok parsed =>
          match StringStore.set moment.now (cmd.arg 0) parsed.value parsed.ttlSec parsed.nx
            parsed.xx session.store.kv with
          | (false, kv) => (.null, session.withKV kv)
          | (true, kv) =>
            (.simple "OK", (session.withKV kv).writeWAL moment recordSet
              (cmd.arg 0) (parsed.value.getD []) (parsed.ttlSec * millisecond)) := by
  have same : (if cmd.numArgs = 2 then .ok ⟨cmd.argBytes 1, 0, false, false⟩
      else parseSetArgs cmd.args.tail) = parseSetArgs cmd.args.tail := by
    split
    · rw [parseSetArgs_two ‹_›]
    · rfl
  unfold dispatchSet
  rewrite [same]
  rfl

theorem parseInt_missing {cmd : Command} (arity : cmd.numArgs < 2) :
    parseInt (cmd.arg 1) = none := by
  have short : cmd.arg 1 = [] := by
    unfold Command.arg
    rw [List.getElem?_eq_none (by unfold Command.numArgs at arity; omega)]
    rfl
  rw [short]
  decide

theorem prepareIncr_none {now : Int64} {cmd : Command} : prepareIncr now none cmd kv = [] := by
  unfold prepareIncr
  cases stringState now (cmd.arg 0) kv with
  | invalid | absent => rfl
  | valid value expiresAt => cases parse : parseInt value <;> simp only [parse]

end

theorem prepareMset_ne_nil {cmd : Command}
    (arity : ¬ (cmd.numArgs < 2 ∨ cmd.numArgs % 2 ≠ 0)) : prepareMset cmd ≠ [] := by
  unfold prepareMset
  rw [if_neg arity]
  unfold Command.numArgs at arity
  match args : cmd.args with
  | [] => simp [args] at arity
  | [arg] => simp [args] at arity
  | key :: value :: rest => simp [argPairs]

def effectsBefore (now : Int64) (name : CommandName) (cmd : Command)
    (kv : KVStore MMapVectorIndex) : List WALEffect :=
  (prepareDurableEffects now name cmd kv).getD []

/-- What `Dispatch` does to a command once its effects are appended. -/
def dispatched (config : ExecutorConfig) (now : Int64) (name : CommandName) (cmd : Command)
    (store : Store) : Reply × Session :=
  let effects := effectsBefore now name cmd store.kv
  dispatch config ⟨now, effects ≠ []⟩ name cmd (prepared effects store)

def dispatchedSpan (config : ExecutorConfig) (start now : Int64) (name : CommandName)
    (cmd : Command) (store : Store) : Reply × Session :=
  let effects := effectsBefore start name cmd store.kv
  dispatch config ⟨now, effects ≠ []⟩ name cmd (prepared effects store)

structure Outcome.Follows (outcome : Outcome) (ran : Reply × Session) : Prop where
  reply : outcome.reply = ran.1
  appended : outcome.appended = ran.2.appended
  store : outcome.executor.store = ran.2.store

/-- The reply is an error, with what the command leaves behind. -/
structure Outcome.Fails (outcome : Outcome) (appended : List (List WALEffect))
    (store : Store) : Prop where
  error : outcome.reply.isError = true
  appended : outcome.appended = appended
  store : outcome.executor.store = store

theorem refuse_fails (message : String) (executor : Executor) :
    (refuse message executor).Fails [] executor.store :=
  ⟨rfl, rfl, rfl⟩

/-- How Raft settles a command: it may stop one whose effects have been appended,
or report a failure of one that has been dispatched. -/
def raftSettles (config : ExecutorConfig) (name : CommandName) (outcome : Outcome)
    (effects : List WALEffect) (store : Store) (ran : Reply × Session) : Prop :=
  if name.readOnly then outcome.Follows ran
  else
    match config.raft with
    | .local | .leader => outcome.Follows ran
    | .follower | .failing _ false => outcome.Fails (prepared effects store).appended store
    | .failing _ true => outcome.Fails ran.2.appended ran.2.store

theorem run_settled (config : ExecutorConfig) (now : Int64) (name : CommandName) (cmd : Command)
    (effects : Option (List WALEffect)) (projected : Int) (executor : Executor) :
    raftSettles config name (run config now name cmd effects projected executor)
      (effects.getD []) executor.store
      (dispatch config ⟨now, effects.getD [] ≠ []⟩ name cmd
        (prepared (effects.getD []) executor.store)) := by
  unfold raftSettles run
  cases name.readOnly with
  | true =>
    cases config.raft with
    | «local» | follower | leader => exact ⟨rfl, rfl, rfl⟩
    | failing message applied => cases applied <;> exact ⟨rfl, rfl, rfl⟩
  | false =>
    cases config.raft with
    | «local» | follower | leader => exact ⟨rfl, rfl, rfl⟩
    | failing message applied => cases applied <;> exact ⟨rfl, rfl, rfl⟩

/-- Whether `Execute` admits a command at all. -/
def admitted (config : ExecutorConfig) (now : Int64) (name : CommandName) (cmd : Command)
    (executor : Executor) : Bool :=
  supportedInDurableV1 name && !(config.readOnly && !name.readOnly) &&
    (let effects := effectsBefore now name cmd executor.store.kv
    effects = [] || (effectsFitQuota now config.maxMemory executor.accountedMemory effects
      executor.store.kv).1)

theorem execute_unknown {config : ExecutorConfig} {now : Int64} {cmd : Command}
    {executor : Executor} (unknown : lookup cmd.normalized = none) :
    (execute config now cmd executor).Fails [] executor.store := by
  unfold execute executeSpan
  rw [unknown]
  exact refuse_fails ..

theorem executeSpan_cases (config : ExecutorConfig) (start now : Int64) {cmd : Command}
    (executor : Executor) {name : CommandName} (known : lookup cmd.normalized = some name) :
    if admitted config start name cmd executor then
      raftSettles config name (executeSpan config start now cmd executor)
        (effectsBefore start name cmd executor.store.kv) executor.store
        (dispatchedSpan config start now name cmd executor.store)
    else (executeSpan config start now cmd executor).Fails [] executor.store := by
  unfold executeSpan admitted dispatchedSpan effectsBefore
  simp only [known]
  cases supportedInDurableV1 name with
  | false => exact refuse_fails ..
  | true =>
    cases config.readOnly && !name.readOnly with
    | true => exact refuse_fails ..
    | false =>
      simp only [Bool.not_true, Bool.false_eq_true, if_false, Bool.not_false, Bool.true_and]
      match prepareDurableEffects start name cmd executor.store.kv with
      | none => exact run_settled config now name cmd none _ executor
      | some [] => exact run_settled config now name cmd (some []) _ executor
      | some (effect :: effects) =>
        simp only [Option.getD_some, reduceCtorEq, decide_false, Bool.false_or]
        cases fits : (effectsFitQuota start config.maxMemory executor.accountedMemory
          (effect :: effects) executor.store.kv).1 with
        | false =>
          simp only [Bool.false_eq_true, if_false, Bool.not_false, if_true]
          exact refuse_fails ..
        | true =>
          simp only [if_true, Bool.not_true, Bool.false_eq_true, if_false]
          exact run_settled config now name cmd (some (effect :: effects)) _ executor

theorem execute_cases {config : ExecutorConfig} {now : Int64} {cmd : Command}
    {executor : Executor} {name : CommandName} (known : lookup cmd.normalized = some name) :
    if admitted config now name cmd executor then
      raftSettles config name (execute config now cmd executor)
        (effectsBefore now name cmd executor.store.kv) executor.store
        (dispatched config now name cmd executor.store)
    else (execute config now cmd executor).Fails [] executor.store :=
  executeSpan_cases config now now executor known

theorem execute_follows {config : ExecutorConfig} {now : Int64} {cmd : Command}
    {executor : Executor} {name : CommandName} (known : lookup cmd.normalized = some name)
    (success : (execute config now cmd executor).reply.isError = false) :
    (execute config now cmd executor).Follows (dispatched config now name cmd executor.store) := by
  have settled : _ := @execute_cases config now cmd executor name known
  split at settled
  · unfold raftSettles at settled
    split at settled
    · exact settled
    split at settled
    · exact settled
    · exact settled
    all_goals
      have failed := settled.error
      rw [success] at failed
      cases failed
  · have failed := settled.error
    rw [success] at failed
    cases failed

def turnedAway (config : ExecutorConfig) (name : CommandName) (cmd : Command) : String :=
  if !supportedInDurableV1 name then
    "ERR command '" ++ rawText cmd.name ++ "' is not supported by the durable DBX v1 profile"
  else if config.readOnly && !name.readOnly then "READONLY replica does not accept writes"
  else "OOM tenant quota exceeded"

def RaftNode.failure : RaftNode → Option String
  | .follower => some "ERR node is not the Raft leader"
  | .failing message _ => some ("ERR Raft apply failed: " ++ message)
  | .local | .leader => none

def RaftNode.applies : RaftNode → Bool
  | .local | .leader | .failing _ true => true
  | .follower | .failing _ false => false

section Execute

variable {config : ExecutorConfig} {now : Int64} {name : CommandName} {cmd : Command}
  {executor : Executor}

theorem run_reply (config : ExecutorConfig) (name : CommandName) (cmd : Command)
    (effects : Option (List WALEffect)) (projected : Int) (executor : Executor) :
    (run config now name cmd effects projected executor).reply =
      if name.readOnly then (dispatch config ⟨now, effects.getD [] ≠ []⟩ name cmd
        (prepared (effects.getD []) executor.store)).1
      else config.raft.failure.elim (dispatch config ⟨now, effects.getD [] ≠ []⟩ name cmd
        (prepared (effects.getD []) executor.store)).1 .error := by
  unfold run
  cases name.readOnly with
  | true =>
    cases config.raft with
    | «local» | follower | leader => rfl
    | failing message applied => cases applied <;> rfl
  | false =>
    cases config.raft with
    | «local» | follower | leader => rfl
    | failing message applied => cases applied <;> rfl

theorem execute_reply (known : lookup cmd.normalized = some name) :
    (execute config now cmd executor).reply =
      if admitted config now name cmd executor then
        if name.readOnly then (dispatched config now name cmd executor.store).1
        else config.raft.failure.elim (dispatched config now name cmd executor.store).1 .error
      else .error (turnedAway config name cmd) := by
  unfold execute executeSpan admitted dispatched effectsBefore turnedAway
  simp only [known]
  cases supportedInDurableV1 name with
  | false => rfl
  | true =>
    cases config.readOnly && !name.readOnly with
    | true => rfl
    | false =>
      simp only [Bool.not_true, Bool.false_eq_true, if_false, Bool.not_false, Bool.true_and]
      match prepareDurableEffects now name cmd executor.store.kv with
      | none => exact run_reply config name cmd none _ executor
      | some [] => exact run_reply config name cmd (some []) _ executor
      | some (effect :: effects) =>
        simp only [Option.getD_some, reduceCtorEq, decide_false, Bool.false_or]
        cases fits : (effectsFitQuota now config.maxMemory executor.accountedMemory
          (effect :: effects) executor.store.kv).1 with
        | false =>
          simp only [Bool.false_eq_true, if_false, Bool.not_false, if_true]
          rfl
        | true =>
          simp only [if_true, Bool.not_true, Bool.false_eq_true, if_false]
          exact run_reply config name cmd (some (effect :: effects)) _ executor

theorem execute_store (known : lookup cmd.normalized = some name) :
    (execute config now cmd executor).executor.store =
      if admitted config now name cmd executor && (name.readOnly || config.raft.applies) then
        (dispatched config now name cmd executor.store).2.store
      else executor.store := by
  have settled := @execute_cases config now cmd executor name known
  by_cases admits : admitted config now name cmd executor = true
  · rw [if_pos admits, raftSettles] at settled
    rw [admits, Bool.true_and]
    cases reads : name.readOnly with
    | true =>
      rw [if_pos reads] at settled
      exact settled.store
    | false =>
      rw [if_neg (by rw [reads]; exact Bool.false_ne_true)] at settled
      cases raft : config.raft with
      | failing message applied =>
        cases applied <;> rw [raft] at settled <;> exact settled.store
      | _ =>
        rw [raft] at settled
        exact settled.store
  · rw [if_neg admits] at settled
    rw [Bool.eq_false_iff.mpr admits]
    exact settled.store

end Execute

/-- No Raft and no limits; numbers, searches and other types are left out. -/
def keysOnly : ExecutorConfig where
  vectors := ⟨[], [], 0, 0, .float32⟩
  parseFloat _ := none
  hits _ _ _ := []
  timeTravel _ _ := .ok []
  maxMemory := 0
  readOnly := false
  raft := .local
  read _ _ _ := .null

end Dbx.Query
