import Dbx.Query.VectorCommands

/-!
# The executor

`Execute` of a tenant with a log, for one command. File operations succeed, and so
does writing the reply. Transactions of several commands are not part of the durable
profile, so none is ever open.
-/

set_option autoImplicit false

namespace Dbx.Query

open Dbx.Engine Dbx.Persistence Dbx.Protocol

inductive RaftNode where
  | local
  | follower
  | leader
  /-- The apply fails with a message, before or after this node has run the
  command. -/
  | failing (message : String) (applied : Bool)
deriving DecidableEq, Repr

structure ExecutorConfig extends Surroundings where
  maxMemory : Int
  readOnly : Bool
  raft : RaftNode
  /-- The replies of commands that only read data of other types. -/
  read : CommandName → Command → KVStore MMapVectorIndex → Reply

structure Executor where
  store : Store
  accountedMemory : Int

structure Outcome where
  reply : Reply
  appended : List (List WALEffect)
  executor : Executor

def dispatch (config : ExecutorConfig) (moment : Moment) (name : CommandName) (cmd : Command)
    (session : Session) : Reply × Session :=
  match readReply moment.now name cmd session.store.kv with
  | some reply => (reply, session)
  | none =>
    match name with
    | .del => dispatchDel moment cmd session
    | .expire => dispatchExpire moment cmd session
    | .persist => dispatchPersist moment cmd session
    | .rename => dispatchRename moment cmd session
    | .set => dispatchSet moment cmd session
    | .setex => dispatchSetex moment cmd session
    | .mset => dispatchMset moment cmd session
    | .setnx => dispatchSetnx moment cmd session
    | .getset => dispatchGetset moment cmd session
    | .incr => dispatchIncr moment 1 cmd session
    | .decr => dispatchIncr moment (-1) cmd session
    | .incrby => dispatchIncrBy moment "INCRBY" (fun amount => amount) cmd session
    | .decrby => dispatchIncrBy moment "DECRBY" (fun amount => -amount) cmd session
    | .append => dispatchAppend moment cmd session
    | .vadd => dispatchVadd config.toSurroundings moment cmd session
    | .vaddBatch => dispatchVaddBatch config.toSurroundings moment cmd session
    | .vaddbin => dispatchVaddbin config.toSurroundings moment cmd session
    | .vmigrate => dispatchVmigrate config.toSurroundings moment cmd session
    | .vdel => dispatchVdel config.toSurroundings moment cmd session
    | .vcompact => dispatchVcompact config.toSurroundings moment cmd session
    | .vsearch => dispatchVsearch config.toSurroundings moment cmd session
    | .vsim => dispatchVsim config.toSurroundings moment cmd session
    | .vfuse => dispatchVfuse config.toSurroundings moment cmd session
    | name => (config.read name cmd session.store.kv, session)

def measureMemoryUsage (now : Int64) (store : Store) : Int :=
  store.kv.memoryUsage now + store.vectorMemoryUsage

/-- Whether `Dispatch` has returned without an error of its own. -/
def completed : Reply → Bool
  | .quit => false
  | .error message => message ≠ errPanic
  | _ => true

def refuse (message : String) (executor : Executor) : Outcome :=
  ⟨.error message, [], executor⟩

/-- Run a command whose effects have been appended, as far as it has any. -/
def run (config : ExecutorConfig) (now : Int64) (name : CommandName) (cmd : Command)
    (prepared : Option (List WALEffect)) (projectedMemory : Int) (executor : Executor) : Outcome :=
  let effects := prepared.getD []
  let appended := if effects = [] then [] else [effects]
  let (reply, session) := dispatch config ⟨now, effects ≠ []⟩ name cmd ⟨executor.store, appended⟩
  match config.raft, name.readOnly with
  | .follower, false => ⟨.error "ERR node is not the Raft leader", appended, executor⟩
  | .failing message false, false =>
    ⟨.error ("ERR Raft apply failed: " ++ message), appended, executor⟩
  | .failing message true, false =>
    ⟨.error ("ERR Raft apply failed: " ++ message), session.appended,
      { executor with store := session.store }⟩
  | .leader, false => ⟨reply, session.appended, { executor with store := session.store }⟩
  | _, _ =>
    let accountedMemory :=
      if completed reply && name.durableV1 && !name.readOnly then
        if prepared.isSome then projectedMemory else measureMemoryUsage now session.store
      else executor.accountedMemory
    ⟨reply, session.appended, ⟨session.store, accountedMemory⟩⟩

/-- The effects and the quota are worked out at `start`. The append to the log comes next, and
`Dispatch` reads the clock again behind it, at `now`. -/
def executeSpan (config : ExecutorConfig) (start now : Int64) (cmd : Command)
    (executor : Executor) : Outcome :=
  match lookup cmd.normalized with
  | none => refuse ("ERR unknown command '" ++ rawText cmd.name ++ "'") executor
  | some name =>
    if !supportedInDurableV1 name then
      refuse ("ERR command '" ++ rawText cmd.name ++
        "' is not supported by the durable DBX v1 profile") executor
    else if config.readOnly && !name.readOnly then
      refuse "READONLY replica does not accept writes" executor
    else
      match prepareDurableEffects start name cmd executor.store.kv with
      | none => run config now name cmd none executor.accountedMemory executor
      | some [] => run config now name cmd (some []) executor.accountedMemory executor
      | some effects =>
        let (fits, projected) := effectsFitQuota start config.maxMemory executor.accountedMemory
          effects executor.store.kv
        if !fits then refuse "OOM tenant quota exceeded" executor
        else run config now name cmd (some effects) projected executor

/-- `Execute` where no deadline falls between the two readings: at one instant. -/
def execute (config : ExecutorConfig) (now : Int64) (cmd : Command) (executor : Executor) :
    Outcome :=
  executeSpan config now now cmd executor

end Dbx.Query
