import Dbx.Auth.ACL
import Dbx.Query.Touched

/-!
# Key patterns as scopes

A user is confined to the keys that match its patterns as far as every key that a
command touches is checked against them.
-/

set_option autoImplicit false

namespace Dbx.Query

open Confinement Dbx.Auth Dbx.Engine Dbx.Persistence Dbx.Protocol

/-- A tenant with its log. Every open index is on the files of its own key. -/
structure LoggedTenant (vectors : VectorConfig) where
  executor : Executor
  /-- The effects that the log holds for each key, with their times. -/
  history : Bytes → List (Int64 × WALEffect)
  placed : executor.store.Placed vectors

namespace LoggedTenant

variable {config : ExecutorConfig}

def execute (config : ExecutorConfig) (ranking : Ranking) (now : Int64) (cmd : Command)
    (tenant : LoggedTenant config.vectors) : Outcome :=
  Query.execute (config.reading ranking now tenant.history) now cmd tenant.executor

def after (config : ExecutorConfig) (ranking : Ranking) (now : Int64) (cmd : Command)
    (tenant : LoggedTenant config.vectors) : LoggedTenant config.vectors where
  executor := (tenant.execute config ranking now cmd).executor
  history key := tenant.history key ++
    ((tenant.execute config ranking now cmd).session.records key).map fun effect => (now, effect)
  placed := execute_placed config ranking now tenant.history cmd tenant.placed

structure SameKey (key : Bytes) (left right : LoggedTenant config.vectors) : Prop where
  entry : left.executor.store.kv.seen key = right.executor.store.kv.seen key
  files : left.executor.store.disk (.live key) = right.executor.store.disk (.live key)
  shadow : left.executor.store.disk (shadowPath config.vectors key) =
    right.executor.store.disk (shadowPath config.vectors key)
  history : left.history key = right.history key

/-- The tenants hold the same under every key that matches the patterns of the user. -/
def Alike (user : User) (left right : LoggedTenant config.vectors) : Prop :=
  ∀ key, canAccessKey user key = true → SameKey key left right

end LoggedTenant

def vectorWrite : CommandName → Bool
  | .vadd | .vaddBatch | .vaddbin | .vmigrate | .vdel | .vcompact => true
  | _ => false

/-- A command gets as far as its keys: the profile has it, a replica lets it pass, and a vector
command, which is not logged ahead, is applied on this node. -/
def reaches (config : ExecutorConfig) (name : CommandName) : Bool :=
  supportedInDurableV1 name && !(config.readOnly && !name.readOnly) &&
    (!vectorWrite name || config.raft.applies)

/-- The command is a search, and its indexes could be looked up. -/
def LoggedTenant.Searches {config : ExecutorConfig} (ranking : Ranking) (now : Int64)
    (cmd : Command) (tenant : LoggedTenant config.vectors) (request : SearchRequest)
    (opened : Store) : Prop :=
  ∃ name, lookup cmd.normalized = some name ∧ searchOf config.parseFloat name cmd = .ok request ∧
    request.lookUp (config.reading ranking now tenant.history).toSurroundings now
      tenant.executor.store = (.ok (), opened)

/-- What `Enforce` leaves unchecked: the keys that the command handles without naming them to it,
the empty key, the shadow files of a migration and the documents that a search reads. -/
structure WithinPatterns (config : ExecutorConfig) (ranking : Ranking) (now : Int64) (user : User)
    (cmd : Command) (tenant : LoggedTenant config.vectors) : Prop where
  unlisted : ∀ name, lookup cmd.normalized = some name → reaches config name = true →
    wellFormed config.parseFloat name cmd = true → ∀ key ∈ handledKeys config.parseFloat name cmd,
      key ∉ affectedKeys cmd ∨ key = [] → canAccessKey user key = true
  shadow : lookup cmd.normalized = some .vmigrate → reaches config .vmigrate = true →
    wellFormed config.parseFloat .vmigrate cmd = true → ∀ key, canAccessKey user key = false →
      shadowPath config.vectors key ≠ shadowPath config.vectors (cmd.arg 1)
  /-- Documents of the ids that `FILTER_CONTAINS` is asked about. -/
  filtered : ∀ request opened, tenant.Searches ranking now cmd request opened →
    (Command.hitFlags config.parseFloat cmd).filterContains ≠ [] →
    ∀ id ∈ request.candidates config.vectors now tenant.history opened,
      canAccessKey user (filterKey (cmd.arg 0) id) = true
  /-- Documents of the hits, where `WITHDOCS` asks for them. -/
  documents : ∀ request opened, tenant.Searches ranking now cmd request opened →
    (Command.hitFlags config.parseFloat cmd).withDocs ≠ [] → ∀ hits,
    request.hits config ranking now tenant.history cmd opened = .ok hits → ∀ hit ∈ hits,
      canAccessKey user (docKey (Command.hitFlags config.parseFloat cmd).withDocs hit.1) = true

/-- The quotas leave room for the command in both tenants, or in neither. -/
structure SameRoom (config : ExecutorConfig) (now : Int64) (cmd : Command) (left right : Executor) :
    Prop where
  effects : ∀ name, lookup cmd.normalized = some name →
    admitted config now name cmd left = admitted config now name cmd right
  vectors : ∀ name key write needed, lookup cmd.normalized = some name →
    additionOf config.parseFloat name cmd = .ok (key, write) → config.readOnly = false →
    config.raft.failure = none → write.demand config.vectors now key left.store = .ok needed →
    (left.store.HasRoom config.vectors now needed ↔ right.store.HasRoom config.vectors now needed)

section Scopes

variable {config : ExecutorConfig} {ranking : Ranking} {now : Int64} {user : User} {cmd : Command}
  {name : CommandName}

theorem enforce_keys (admitted : enforce (some user) cmd = .ok ()) {key : Bytes}
    (listed : key ∈ affectedKeys cmd) (named : key ≠ []) : canAccessKey user key = true := by
  unfold enforce at admitted
  dsimp only at admitted
  split at admitted
  · cases admitted
  split at admitted
  · cases admitted
  rename_i unfound
  have passes := List.find?_eq_none.mp unfound key listed
  simpa [named] using passes

theorem keyed_name (keyed : affectedKeys cmd ≠ []) : ∃ name, lookup cmd.normalized = some name ∧
    name ≠ .dbsize := by
  unfold affectedKeys at keyed
  cases known : lookup cmd.normalized with
  | none => simp [known] at keyed
  | some name =>
    refine ⟨name, rfl, ?_⟩
    rintro rfl
    simp [known, CommandName.keyIndex] at keyed

/-!
## Commands that do not get to their keys
-/

theorem applies_of_failure {raft : RaftNode} (settled : raft.failure = none) :
    raft.applies = true := by
  cases raft with
  | «local» | leader => rfl
  | follower | failing => cases settled

theorem unreached_reply (short : reaches config name = false) {executor : Executor}
    (admits : admitted config now name cmd executor = true) :
    name.readOnly = false ∧ config.raft.applies = false ∧
      effectsBefore now name cmd executor.store.kv = [] := by
  simp only [admitted, Bool.and_eq_true] at admits
  simp only [reaches, admits.1.1, admits.1.2, Bool.true_and, Bool.or_eq_false_iff,
    Bool.not_eq_false'] at short
  refine ⟨?_, short.2, ?_⟩
  · cases name <;> first | rfl | cases short.1
  · cases name <;> first | rfl | cases short.1

theorem unreached_session (known : lookup cmd.normalized = some name)
    (short : reaches config name = false) (executor : Executor) :
    (Query.execute config now cmd executor).session = executor.session := by
  have settled := @execute_cases config now cmd executor name known
  split at settled
  · rename_i admits
    obtain ⟨writes, unapplied, nothing⟩ := unreached_reply short admits
    rw [raftSettles, if_neg (by rw [writes]; exact Bool.false_ne_true), nothing] at settled
    have stopped : (Query.execute config now cmd executor).Fails [] executor.store := by
      rcases raft : config.raft with _ | _ | _ | ⟨message, applied⟩
      case «local» | leader => rw [raft] at unapplied; cases unapplied
      · rw [raft] at settled
        exact settled
      · cases applied with
        | true => rw [raft] at unapplied; cases unapplied
        | false =>
          rw [raft] at settled
          exact settled
    exact congrArg₂ Session.mk stopped.store stopped.appended
  · exact congrArg₂ Session.mk settled.store settled.appended

/-!
## Commands that do
-/

/-- All that belongs to the keys that a user may name. -/
def permitted (vectors : VectorConfig) (user : User) : Set Place :=
  {place | match place with
    | .records key => canAccessKey user key = true
    | .store (.entry key) => canAccessKey user key = true
    | .store (.files (.live key)) => canAccessKey user key = true
    | .store (.files path) => ∃ key, canAccessKey user key = true ∧ path = shadowPath vectors key}

variable {left right tenant : LoggedTenant config.vectors}

theorem LoggedTenant.Alike.agree (alike : left.Alike user right) :
    Confinement.Agree Session.view (permitted config.vectors user) left.executor.session
      right.executor.session := by
  intro place member
  rcases place with (key | (key | path)) | key
  · exact (alike key member).entry
  · exact (alike key member).files
  · obtain ⟨key, accessible, same⟩ := member
    have shadow := (alike key accessible).shadow
    rw [← same] at shadow
    exact shadow
  · rfl

section

variable (within : WithinPatterns config ranking now user cmd tenant)
  (admitted : enforce (some user) cmd = .ok ()) (known : lookup cmd.normalized = some name)
  (reach : reaches config name = true)
include within admitted known reach

theorem WithinPatterns.accessible (fits : wellFormed config.parseFloat name cmd = true)
    {key : Bytes} (member : key ∈ handledKeys config.parseFloat name cmd) :
    canAccessKey user key = true := by
  by_cases listed : key ∈ affectedKeys cmd
  · by_cases named : key = []
    · exact within.unlisted name known reach fits key member (.inr named)
    · exact enforce_keys admitted listed named
  · exact within.unlisted name known reach fits key member (.inl listed)

theorem WithinPatterns.handled_permitted :
    handled config.vectors config.parseFloat name cmd ⊆ permitted config.vectors user := by
  intro place member
  rcases place with (key | (key | path)) | key
  · exact within.accessible admitted known reach member.1 member.2
  · exact within.accessible admitted known reach member.1 member.2
  · exact ⟨_, within.accessible admitted known reach member.2.1.1 member.2.1.2, member.2.2⟩
  · exact within.accessible admitted known reach member.1 member.2

end

section Replies

variable (asks : ranking.Asks) (within : WithinPatterns config ranking now user cmd left)
  (admitted : enforce (some user) cmd = .ok ()) (known : lookup cmd.normalized = some name)
  (reach : reaches config name = true) (alike : left.Alike user right)
include within admitted known reach alike

include asks in
theorem WithinPatterns.search_same (searches : searching name = true) :
    (dispatched (config.reading ranking now left.history) now name cmd left.executor.store).1 =
      (dispatched (config.reading ranking now right.history) now name cmd
        right.executor.store).1 := by
  have names := searching_cases searches
  have nothing (store : Store) : effectsBefore now name cmd store.kv = [] := by
    rcases names with rfl | rfl | rfl <;> rfl
  simp only [dispatched, nothing]
  rw [dispatch_searches config ranking ⟨now, _⟩ left.history names,
    dispatch_searches config ranking ⟨now, _⟩ right.history names]
  cases asked : searchOf config.parseFloat name cmd with
  | error message => rfl
  | ok request =>
    obtain ⟨fits, keys⟩ := searchOf_touches searches asked
    let env := (config.reading ranking now left.history).toSurroundings
    have accessible (key : Bytes) (member : key ∈ request.indexes ++ request.logs) :
        canAccessKey user key = true :=
      within.accessible admitted known reach fits (keys ▸ member)
    have covers (key : Bytes) (member : key ∈ request.indexes) :
        Store.Covers (stored (permitted config.vectors user)) key :=
      have inside := accessible key (List.mem_append_left _ member)
      ⟨inside, inside⟩
    have opening := (request.local_lookUp env now covers).confined trivial
    have agree : Confinement.Agree Store.view (stored (permitted config.vectors user))
        left.executor.store right.executor.store := fun place member =>
      alike.agree (.store place) member
    have verdicts := opening.same _ _ left.placed right.placed agree
    have after := opening.agree _ _ left.placed right.placed agree
    have placedLeft := opening.keeps _ left.placed
    have placedRight := opening.keeps _ right.placed
    dsimp only [prepared_store] at verdicts after placedLeft placedRight ⊢
    rw [@lookUp_env (config.reading ranking now right.history).toSurroundings env rfl]
    rcases looked : request.lookUp env now left.executor.store with ⟨result, opened⟩
    rcases looked' : request.lookUp env now right.executor.store with ⟨result', opened'⟩
    rw [looked, looked'] at verdicts after
    rw [looked] at placedLeft
    rw [looked'] at placedRight
    obtain rfl := verdicts
    cases result with
    | error message => rfl
    | ok =>
      have searched : left.Searches ranking now cmd request opened := ⟨name, known, asked, looked⟩
      refine congrArg (replyOf · Reply.array) (SearchRequest.answer_same asks
        (.inr ⟨trivial, placedLeft, placedRight, after⟩) covers (fun key member => ?_)
        (within.filtered request opened searched) (within.documents request opened searched))
      exact (alike key (accessible key (List.mem_append_right _ member))).history

theorem WithinPatterns.addition_same (adds : adding name = true)
    (room : SameRoom config now cmd left.executor right.executor)
    (primary : config.readOnly = false) (settled : config.raft.failure = none) :
    (dispatched (config.reading ranking now left.history) now name cmd left.executor.store).1 =
      (dispatched (config.reading ranking now right.history) now name cmd
        right.executor.store).1 := by
  have names := adding_cases adds
  rw [dispatched_addition names, dispatched_addition names]
  -- Both executors read the arguments alike.
  have parser (history : Bytes → List (Int64 × WALEffect)) :
      (config.reading ranking now history).parseFloat = config.parseFloat := rfl
  simp only [parser]
  cases asked : additionOf config.parseFloat name cmd with
  | error message => rfl
  | ok found =>
    obtain ⟨key, write⟩ := found
    have demands : write.demand config.vectors now key left.executor.store =
        write.demand config.vectors now key right.executor.store := by
      cases checked : write.check with
      | error message => simp only [VectorWrite.demand, checked]
      | ok =>
        obtain ⟨fits, handled⟩ : wellFormed config.parseFloat name cmd = true ∧
            handledKeys config.parseFloat name cmd = [key] := by
          rcases names with rfl | rfl | rfl <;>
            simp [wellFormed, handledKeys, asked, checked, Except.isOk, Except.toBool]
        have accessible : canAccessKey user key = true :=
          within.accessible admitted known reach fits (handled ▸ List.mem_singleton_self key)
        have covers : Store.Covers (stored (permitted config.vectors user)) key :=
          ⟨accessible, accessible⟩
        exact write.demand_same covers (.inr ⟨trivial, left.placed, right.placed,
          fun place member => alike.agree (.store place) member⟩)
    have verdicts := VectorWrite.verdict_same demands fun needed =>
      room.vectors name key write needed known asked primary settled
    dsimp only
    cases verdict : (write.validate config.vectors now key left.executor.store).1 with
    | error message =>
      rw [addVectors_refused verdict, addVectors_refused (verdicts ▸ verdict)]
    | ok =>
      rw [addVectors_accepted verdict, addVectors_accepted (verdicts ▸ verdict)]

end Replies

theorem WithinPatterns.unchanged (within : WithinPatterns config ranking now user cmd tenant)
    (admitted : enforce (some user) cmd = .ok ()) (known : lookup cmd.normalized = some name)
    (sized : name ≠ .dbsize) {key : Bytes} (foreign : canAccessKey user key = false) :
    (tenant.after config ranking now cmd).SameKey key tenant := by
  have same (place : Place)
      (outside : reaches config name = true →
        place ∉ handled config.vectors config.parseFloat name cmd) :
      (tenant.execute config ranking now cmd).session.view place =
        tenant.executor.session.view place := by
    cases reach : reaches config name with
    | false =>
      exact congrArg (Session.view place) (@unreached_session
        (config.reading ranking now tenant.history) now cmd name known reach tenant.executor)
    | true =>
      exact execute_frame config ranking now tenant.history known sized tenant.placed place
        (outside reach)
  have apart (reach : reaches config name = true) :
      ¬ (wellFormed config.parseFloat name cmd = true ∧
        key ∈ handledKeys config.parseFloat name cmd) := fun ⟨fits, member⟩ =>
    Bool.false_ne_true (foreign ▸ within.accessible admitted known reach fits member)
  constructor
  · exact same (.store (.entry key)) apart
  · exact same (.store (.files (.live key))) apart
  · refine same (.store (.files (shadowPath config.vectors key))) ?_
    rintro reach ⟨rfl, ⟨fits, -⟩, path⟩
    exact within.shadow known reach fits key foreign path
  · have unlogged : (tenant.execute config ranking now cmd).session.records key = [] :=
      same (.records key) apart
    dsimp only [LoggedTenant.after]
    rw [unlogged, List.map_nil, List.append_nil]

end Scopes

def oneNumber : ExecutorConfig :=
  { keysOnly with parseFloat := fun text => if text = ascii "1" then some 0x3f800000 else none }

def everyRow : Ranking where
  rank idx _ _ _ _ := idx.rows.map fun row => (row.id, 0)
  fuse _ _ _ := []
  decodeRow _ _ := []
  past _ _ _ _ _ := .ok []
  formatScore _ := []
  look _ _ _ := .null

def docsIndex : MMapVectorIndex :=
  ⟨⟨.live (ascii "docs"), 1, .float32, [⟨ascii "d", false, 1⟩], 0, none⟩, none⟩

/-- A tenant with an index `docs` of one id, and a string at `pay:d`. -/
def docsStore (text : Bytes) : Store where
  kv :=
    { data := ((∅ : AList fun _ : Bytes => Entry MMapVectorIndex).insert (ascii "docs")
        ⟨.index docsIndex, .vector, 0, 0⟩).insert (ascii "pay:d")
        ⟨.bytes (some text), .string, 0, 0⟩
      expiries := []
      version := 0 }
  disk _ := .absent

theorem docsStore_placed (text : Bytes) : (docsStore text).Placed oneNumber.vectors := by
  intro key entry idx held vector value
  dsimp only [docsStore] at held
  by_cases pay : key = ascii "pay:d"
  · rw [pay, AList.lookup_insert] at held
    cases held
    cases value
  · rw [AList.lookup_insert_ne pay] at held
    by_cases docs : key = ascii "docs"
    · rw [docs, AList.lookup_insert] at held
      cases held
      cases value
      exact ⟨docs ▸ rfl, fun shadow held => by cases held⟩
    · rw [AList.lookup_insert_ne docs, AList.lookup_empty] at held
      cases held

def docsTenant (text : Bytes) : LoggedTenant oneNumber.vectors :=
  ⟨⟨docsStore text, 0⟩, fun _ => [], docsStore_placed text⟩

def docsReader : User := ⟨ascii "u", [], true, permRead, [ascii "docs*"], false⟩

def searchWithDocs : Command :=
  ⟨ascii "VSEARCH", [some (ascii "docs"), some (ascii "1"), some (ascii "1"),
    some (ascii "WITHDOCS"), some (ascii "pay")]⟩

theorem docsTenant_alike (text text' : Bytes) :
    (docsTenant text).Alike docsReader (docsTenant text') := by
  intro key accessible
  have apart : key ≠ ascii "pay:d" := by
    rintro rfl
    revert accessible
    decide
  refine ⟨?_, rfl, rfl, rfl⟩
  dsimp only [docsTenant, docsStore, KVStore.seen]
  rw [AList.lookup_insert_ne apart, AList.lookup_insert_ne apart]

def hitDocument : Reply → Option Bytes
  | .array [.array [_, _, .bulk document]] => document
  | _ => none

def searchAlone : Command :=
  ⟨ascii "VSEARCH", [some (ascii "docs"), some (ascii "1"), some (ascii "1")]⟩

theorem searchAlone_within (ranking : Ranking) (text : Bytes) :
    WithinPatterns oneNumber ranking 0 docsReader searchAlone (docsTenant text) := by
  have known : lookup searchAlone.normalized = some .vsearch := by decide
  have shape : Command.hitFlags oneNumber.parseFloat searchAlone = .none := by decide
  constructor
  · intro name named _ _ key member _
    rw [known] at named
    cases named
    have keys : handledKeys oneNumber.parseFloat .vsearch searchAlone = [ascii "docs"] := by decide
    rw [keys, List.mem_singleton] at member
    subst member
    decide
  · intro migrates
    rw [known] at migrates
    cases migrates
  · intro request opened _ filtered
    rw [shape] at filtered
    exact absurd rfl filtered
  · intro request opened _ named
    rw [shape] at named
    exact absurd rfl named

end Dbx.Query
