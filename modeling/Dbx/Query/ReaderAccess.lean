import Dbx.Auth.ACL
import Dbx.Query.Quiet

/-!
# Readers

A user who may only read is refused every command of the tables of write and
administrative commands. `VMIGRATE` is in neither table, and a search may open an
index, so such a user can still change the tenant.
-/

set_option autoImplicit false

namespace Dbx.Query

open Dbx.Auth Dbx.Engine Dbx.Protocol

/-- The log has no new record, and the data and its files are as they were. -/
structure Outcome.Untouched (now : Int64) (executor : Executor) (outcome : Outcome) : Prop where
  appended : outcome.appended = []
  store : executor.store.Same now outcome.executor.store

variable {now : Int64} {executor : Executor}

theorem Outcome.Fails.untouched {outcome : Outcome} (fails : outcome.Fails [] executor.store) :
    outcome.Untouched now executor :=
  ⟨fails.appended, by rw [fails.store]; exact .refl now executor.store⟩

theorem Outcome.untouched_iff {outcome : Outcome} {session : Session}
    (appended : outcome.appended = session.appended)
    (store : outcome.executor.store = session.store) :
    outcome.Untouched now executor ↔ Session.Same now ⟨executor.store, []⟩ session := by
  constructor
  · rintro ⟨unlogged, same⟩
    exact ⟨appended ▸ unlogged, store ▸ same⟩
  · rintro ⟨unlogged, same⟩
    exact ⟨appended.trans unlogged, by rw [store]; exact same⟩

variable {name : CommandName}

theorem lookup_text {text : Bytes} (known : lookup text = some name) :
    ascii name.text = text := by
  simpa using List.find?_some known

theorem toUpper_text (name : CommandName) : toUpper (ascii name.text) = ascii name.text := by
  cases name <;> decide

theorem reader_commands (supported : supportedInDurableV1 name = true)
    (unprivileged : isAdminCommand (ascii name.text) = false)
    (unwritten : isWriteCommand (ascii name.text) = false) :
    name.readOnly = true ∨ name = .vmigrate ∨ name = .quit ∨ name = .auth ∨ name = .select := by
  revert supported unprivileged unwritten
  cases name <;> decide

theorem enforce_reader {user : User} {cmd : Command} (reader : user.permissions = permRead)
    (allowed : enforce (some user) cmd = .ok ()) (known : lookup cmd.normalized = some name) :
    isAdminCommand (ascii name.text) = false ∧ isWriteCommand (ascii name.text) = false := by
  have executable : canExecute user cmd.normalized = true := by
    cases executable : canExecute user cmd.normalized with
    | true => rfl
    | false =>
      rw [enforce, executable] at allowed
      cases allowed
  rw [← lookup_text known, canExecute, toUpper_text, reader] at executable
  generalize isAdminCommand (ascii name.text) = admin at *
  generalize isWriteCommand (ascii name.text) = write at *
  revert executable
  cases user.enabled <;> cases admin <;> cases write <;> decide

theorem effectsBefore_readOnly (now : Int64) (cmd : Command) (kv : KVStore MMapVectorIndex)
    (reads : name.readOnly = true) :
    effectsBefore now name cmd kv = [] := by
  cases name <;> first | rfl | cases reads

theorem dispatched_unprepared {config : ExecutorConfig} {cmd : Command} {store : Store}
    (unprepared : effectsBefore now name cmd store.kv = []) :
    dispatched config now name cmd store =
      dispatch config ⟨now, false⟩ name cmd ⟨store, []⟩ := by
  rw [dispatched, unprepared]
  rfl

/-- Of the commands that only read, only a search does anything to the session. -/
theorem dispatch_readOnly (config : ExecutorConfig) (moment : Moment) (cmd : Command)
    (session : Session) (reads : name.readOnly = true) :
    Session.Stays moment.now (SearchQuiet config.toSurroundings moment.now name cmd session.store)
      session (dispatch config moment name cmd session).2 := by
  by_cases search : name = .vsearch ∨ name = .vsim ∨ name = .vfuse
  · rcases search with rfl | rfl | rfl
    · exact dispatchVsearch_stays config.toSurroundings moment cmd session
    · exact dispatchVsim_stays config.toSurroundings moment cmd session
    · exact dispatchVfuse_stays config.toSurroundings moment cmd session
  · have kept : (dispatch config moment name cmd session).2 = session := by
      cases name <;> first | rfl | exact absurd (by decide) search | cases reads
    have quiet : SearchQuiet config.toSurroundings moment.now name cmd session.store := by
      cases name <;> trivial
    rw [kept]
    exact .refl session quiet

def RaftNode.stops : RaftNode → Bool
  | .follower | .failing _ false => true
  | _ => false

def ExecutorConfig.turnsAway (config : ExecutorConfig) (name : CommandName) : Bool :=
  !name.readOnly && (config.readOnly || config.raft.stops)

theorem execute_untouched_iff {config : ExecutorConfig} {cmd : Command} {quiet : Prop}
    (known : lookup cmd.normalized = some name) (supported : supportedInDurableV1 name = true)
    (unprepared : effectsBefore now name cmd executor.store.kv = [])
    (stays : Session.Stays now quiet ⟨executor.store, []⟩
      (dispatch config ⟨now, false⟩ name cmd ⟨executor.store, []⟩).2) :
    (execute config now cmd executor).Untouched now executor ↔
      config.turnsAway name = true ∨ quiet := by
  have settled := @execute_cases config now cmd executor name known
  rw [unprepared, dispatched_unprepared unprepared] at settled
  generalize dispatch config ⟨now, false⟩ name cmd ⟨executor.store, []⟩ = ran at stays settled
  have ran_iff (appended : (execute config now cmd executor).appended = ran.2.appended)
      (store : (execute config now cmd executor).executor.store = ran.2.store) :
      (execute config now cmd executor).Untouched now executor ↔ quiet :=
    (Outcome.untouched_iff appended store).trans stays.iff
  cases reads : name.readOnly with
  | true =>
    have enters : admitted config now name cmd executor = true := by
      simp [admitted, supported, reads, unprepared]
    rw [if_pos enters, raftSettles, if_pos reads] at settled
    simp only [ExecutorConfig.turnsAway, reads, Bool.not_true, Bool.false_and,
      Bool.false_eq_true, false_or]
    exact ran_iff settled.appended settled.store
  | false =>
    have enters : admitted config now name cmd executor = !config.readOnly := by
      simp [admitted, supported, reads, unprepared]
    rw [enters, raftSettles, reads] at settled
    simp only [ExecutorConfig.turnsAway, reads, Bool.not_false, Bool.true_and]
    cases replica : config.readOnly with
    | true =>
      rw [replica] at settled
      exact iff_of_true settled.untouched (.inl rfl)
    | false =>
      simp only [replica, Bool.not_false, if_true, Bool.false_eq_true, if_false] at settled
      cases raft : config.raft with
      | «local» | leader =>
        rw [raft] at settled
        simp only [RaftNode.stops, Bool.or_self, Bool.false_eq_true, false_or]
        exact ran_iff settled.appended settled.store
      | follower =>
        rw [raft] at settled
        exact iff_of_true settled.untouched (.inl rfl)
      | failing message applied =>
        rw [raft] at settled
        cases applied with
        | false => exact iff_of_true settled.untouched (.inl rfl)
        | true =>
          simp only [RaftNode.stops, Bool.or_self, Bool.false_eq_true, false_or]
          exact ran_iff settled.appended settled.store

/-- No migration command gets past its checks, and no search opens an index. -/
def ReaderQuiet (config : ExecutorConfig) (now : Int64) (cmd : Command) (store : Store) : Prop :=
  match lookup cmd.normalized with
  | none => True
  | some .vmigrate =>
    config.turnsAway .vmigrate = true ∨ MigrateQuiet config.toSurroundings now cmd store
  | some name => SearchQuiet config.toSurroundings now name cmd store

theorem reader_untouched_iff (config : ExecutorConfig) (now : Int64) (cmd : Command)
    (executor : Executor) (user : User) (reader : user.permissions = permRead)
    (allowed : enforce (some user) cmd = .ok ()) :
    (execute config now cmd executor).Untouched now executor ↔
      ReaderQuiet config now cmd executor.store := by
  unfold ReaderQuiet
  cases known : lookup cmd.normalized with
  | none => exact iff_of_true (execute_unknown known).untouched trivial
  | some name =>
    obtain ⟨unprivileged, unwritten⟩ := enforce_reader reader allowed known
    cases supported : supportedInDurableV1 name with
    | false =>
      have settled := @execute_cases config now cmd executor name known
      rw [admitted, supported] at settled
      refine iff_of_true settled.untouched ?_
      cases name <;> trivial
    | true =>
      rcases reader_commands supported unprivileged unwritten with
        reads | rfl | rfl | rfl | rfl
      · have quiet := execute_untouched_iff known supported
          (effectsBefore_readOnly now cmd executor.store.kv reads)
          (dispatch_readOnly config ⟨now, false⟩ cmd ⟨executor.store, []⟩ reads)
        have taken : config.turnsAway name = false := by simp [ExecutorConfig.turnsAway, reads]
        rw [quiet, taken]
        cases name <;>
          first | exact ⟨fun h => h.resolve_left Bool.false_ne_true, .inr⟩ | cases reads
      · exact execute_untouched_iff known rfl rfl
          (@dispatchVmigrate_stays config.toSurroundings ⟨now, false⟩ rfl cmd ⟨executor.store, []⟩)
      all_goals
        exact (execute_untouched_iff known rfl rfl (.refl _ trivial)).trans
          (iff_of_true (.inr trivial) trivial)

def reader : User := ⟨ascii "r", [], true, permRead, [ascii "*"], false⟩

def startMigration : Command :=
  ⟨ascii "VMIGRATE", [some (ascii "START"), some (ascii "k"), some (ascii "2")]⟩

/-- `VMIGRATE START k 2` by a reader appends a record to the log of an empty tenant. -/
theorem reader_starts_migration :
    reader.permissions = permRead ∧ enforce (some reader) startMigration = .ok () ∧
      ¬ (execute keysOnly 0 startMigration ⟨.empty, 0⟩).Untouched 0 ⟨.empty, 0⟩ := by
  refine ⟨rfl, by decide, fun untouched => ?_⟩
  have unlogged := congrArg List.length untouched.appended
  revert unlogged
  decide

theorem reader_gets :
    (execute keysOnly 0 ⟨ascii "GET", [some (ascii "k")]⟩ ⟨.empty, 0⟩).Untouched 0 ⟨.empty, 0⟩ :=
  (reader_untouched_iff keysOnly 0 ⟨ascii "GET", [some (ascii "k")]⟩ ⟨.empty, 0⟩ reader rfl
    (by decide)).mpr trivial

end Dbx.Query
