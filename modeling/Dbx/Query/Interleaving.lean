import Dbx.Query.KeyScopes

/-!
# Clients side by side

Clients whose commands touch different keys do not notice each other, in whatever order the
server takes their commands.
-/

set_option autoImplicit false

namespace Dbx.Query

open Confinement Runs Dbx.Engine Dbx.Persistence Dbx.Protocol

variable {config : ExecutorConfig} {name : CommandName} {cmd : Command} {now : Int64}

theorem Metered.confined {vectors : VectorConfig} {scope : Set Place} {free : Prop}
    {whole : Session → Reply × Session} (metered : Metered vectors now scope free whole)
    (holds : free) : Confined Session.view (Session.Placed vectors) scope whole := by
  obtain ⟨branch, meters, confined, constant⟩ := metered
  have same : whole = branch 0 := funext fun session => by rw [meters, constant holds]
  exact same ▸ confined 0

/-- Raft lets a command be dispatched or stops it, whatever the tenant holds. -/
theorem raftSettles_session (config : ExecutorConfig) (name : CommandName) :
    (∀ outcome effects store ran, raftSettles config name outcome effects store ran →
      outcome.session = ran.2) ∨
    ∀ outcome effects store ran, raftSettles config name outcome effects store ran →
      outcome.session = prepared effects store := by
  unfold raftSettles
  cases name.readOnly with
  | true => exact .inl fun _ _ _ _ settled => congrArg₂ Session.mk settled.store settled.appended
  | false =>
    rcases config.raft with _ | _ | _ | ⟨_, _ | _⟩
    case «local» | leader | failing.true =>
      exact .inl fun _ _ _ _ settled => congrArg₂ Session.mk settled.store settled.appended
    all_goals exact .inr fun _ _ _ _ settled => congrArg₂ Session.mk settled.store settled.appended

/-- Neither the keys nor the vectors of the tenant have a quota. -/
structure Unlimited (config : ExecutorConfig) : Prop where
  keys : config.maxMemory ≤ 0
  vectors : config.vectors.maxMemory ≤ 0

def SameTouched (config : ExecutorConfig) (name : CommandName) (cmd : Command)
    (left right : Session) : Prop :=
  Confinement.Agree Session.view (touched config.vectors config.parseFloat name cmd) left right

theorem Unlimited.admitted (unlimited : Unlimited config) (name : CommandName) (cmd : Command)
    (now : Int64) (executor : Executor) :
    admitted config now name cmd executor =
      (supportedInDurableV1 name && !(config.readOnly && !name.readOnly)) := by
  simp [Query.admitted, effectsFitQuota, unlimited.keys]

theorem execute_agree (unlimited : Unlimited config) (ranking : Ranking) (now : Int64)
    (known : lookup cmd.normalized = some name) (sized : name ≠ .dbsize)
    (left right : LoggedTenant config.vectors)
    (agree : SameTouched config name cmd left.executor.session right.executor.session)
    (histories : ∀ key, Touches config.parseFloat name cmd key →
      left.history key = right.history key) :
    SameTouched config name cmd (left.execute config ranking now cmd).session
      (right.execute config ranking now cmd).session := by
  have effects : effectsBefore now name cmd left.executor.store.kv =
      effectsBefore now name cmd right.executor.store.kv :=
    effectsBefore_same config now fun key touches =>
      Store.shown_determined now (touches.covers config.vectors).entry fun place member =>
        agree (.store place) member
  have start (effects : List WALEffect) : SameTouched config name cmd
      (prepared effects left.executor.store) (prepared effects right.executor.store) := by
    intro place member
    cases place with
    | store place => exact agree (.store place) member
    | records key => rfl
  have admits (history : Bytes → List (Int64 × WALEffect)) (executor : Executor) :
      admitted (config.reading ranking now history) now name cmd executor =
        (supportedInDurableV1 name && !(config.readOnly && !name.readOnly)) :=
    unlimited.admitted name cmd now executor
  have ran (tenant : LoggedTenant config.vectors) :=
    @execute_cases (config.reading ranking now tenant.history) now cmd tenant.executor name known
  have ranLeft := ran left
  have ranRight := ran right
  rw [admits] at ranLeft ranRight
  unfold LoggedTenant.execute
  split at ranLeft
  · rw [if_pos ‹_›, ← effects] at ranRight
    rcases raftSettles_session config name with runs | stops
    · have confined := (metered_dispatch config ranking
        ⟨now, effectsBefore now name cmd left.executor.store.kv ≠ []⟩ left.history name cmd
        sized).confined (.inr unlimited.vectors)
      rw [runs _ _ _ _ ranLeft, runs _ _ _ _ ranRight]
      simp only [dispatched, ← effects]
      rw [← @dispatch_history name cmd config ranking ⟨now, _⟩ _ _ histories]
      exact confined.agree _ _ left.placed right.placed (start _)
    · rw [stops _ _ _ _ ranLeft, stops _ _ _ _ ranRight]
      exact start _
  · rw [if_neg ‹_›] at ranRight
    have same {outcome : Outcome} {executor : Executor} (fails : outcome.Fails [] executor.store) :
        outcome.session = executor.session := congrArg₂ Session.mk fails.store fails.appended
    rw [same ranLeft, same ranRight]
    exact agree

namespace LoggedTenant

def Content : Place → Type
  | .store place => place.Content
  | .records _ => List (Int64 × WALEffect)

def view {vectors : VectorConfig} : (place : Place) → LoggedTenant vectors → Content place
  | .store place, tenant => tenant.executor.store.view place
  | .records key, tenant => tenant.history key

end LoggedTenant

/-- A command of one of the clients, with the time at which the server takes it. -/
structure ClientCall where
  client : Nat
  now : Int64
  cmd : Command

namespace ClientCall

def scope (config : ExecutorConfig) (call : ClientCall) : Set Place :=
  {place | ∃ name, lookup call.cmd.normalized = some name ∧
    place ∈ touched config.vectors config.parseFloat name call.cmd}

def run (config : ExecutorConfig) (ranking : Ranking) (call : ClientCall)
    (tenant : LoggedTenant config.vectors) : Reply × LoggedTenant config.vectors :=
  ((tenant.execute config ranking call.now call.cmd).reply,
    tenant.after config ranking call.now call.cmd)

theorem confined (unlimited : Unlimited config) (ranking : Ranking) {call : ClientCall}
    (keyed : affectedKeys call.cmd ≠ []) :
    Confined LoggedTenant.view (fun _ => True) (call.scope config) (call.run config ranking) := by
  obtain ⟨name, known, sized⟩ := keyed_name keyed
  have sees {left right : LoggedTenant config.vectors}
      (agree : Confinement.Agree LoggedTenant.view (call.scope config) left right) :
      SameTouched config name call.cmd left.executor.session right.executor.session ∧
        ∀ key, Touches config.parseFloat name call.cmd key →
          left.history key = right.history key := by
    refine ⟨fun place member => ?_, fun key touches => agree (.records key) ⟨name, known, touches⟩⟩
    cases place with
    | store place => exact agree (.store place) ⟨name, known, member⟩
    | records key => rfl
  constructor
  · intro left right _ _ agree
    refine execute_same config ranking call.now known ?_ fun _ _ => dispatched_same config ranking
      call.now sized left.placed right.placed (sees agree).1 (sees agree).2 (.inr unlimited.vectors)
    rw [unlimited.admitted, unlimited.admitted]
  · rintro left right - - agree place ⟨other, named, member⟩
    cases known.symm.trans named
    have after := execute_agree unlimited ranking call.now known sized left right (sees agree).1
      (sees agree).2
    cases place with
    | store place => exact after (.store place) member
    | records key =>
      exact congrArg₂ (· ++ List.map (fun effect => (call.now, effect)) ·)
        ((sees agree).2 key member) (after (.records key) member)
  · intro tenant _ place outside
    have frame := execute_frame config ranking call.now tenant.history known sized tenant.placed
      place fun member => outside ⟨name, known, handled_subset config.vectors member⟩
    cases place with
    | store place => exact frame
    | records key =>
      have none : (tenant.execute config ranking call.now call.cmd).session.records key = [] :=
        frame
      dsimp only [LoggedTenant.view, run, LoggedTenant.after]
      rw [none, List.map_nil, List.append_nil]
  · exact fun _ _ => trivial

end ClientCall

def setCall (client : Nat) (key : Bytes) : ClientCall :=
  ⟨client, 0, ⟨ascii "SET", [some key, some (ascii "v")]⟩⟩

theorem setCall_apart {key other : Bytes} (differ : key ≠ other) (client client' : Nat) :
    Disjoint ((setCall client key).scope oneNumber) ((setCall client' other).scope oneNumber) := by
  refine Set.disjoint_left.mpr ?_
  rintro ((_ | (_ | _)) | _) ⟨_, ⟨⟩, left⟩ ⟨_, ⟨⟩, right⟩
  case store.files.shadow => cases left.1
  all_goals
    obtain rfl := List.mem_singleton.mp (left.key.resolve_right fun searches => by cases searches.1)
    exact differ (List.mem_singleton.mp
      (right.key.resolve_right fun searches => by cases searches.1))

end Dbx.Query
