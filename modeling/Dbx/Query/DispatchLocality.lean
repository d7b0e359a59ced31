import Dbx.Engine.Twins
import Dbx.Query.Requests

/-!
# The commands are confined

What `Dispatch` does for a command stays within the keys that the command names, the
storage keys that it builds from them and the documents that a search reads.
-/

set_option autoImplicit false

namespace Dbx.Query

open Confinement Simulation Dbx.Engine Dbx.Persistence Dbx.Protocol

variable {α : Type} {vectors : VectorConfig}

/-- Where the state of a session is seen: in its store, and by the records that have
been appended for a key. -/
inductive Place where
  | store (place : Location)
  | records (key : Bytes)

def Place.Content : Place → Type
  | .store place => place.Content
  | .records _ => List WALEffect

variable {scope : Set Place}

def stored (scope : Set Place) : Set Location := Set.preimage Place.store scope

namespace Session

def records (key : Bytes) (session : Session) : List WALEffect :=
  session.appended.flatten.filter fun effect => effect.key = key

def view : (place : Place) → Session → place.Content
  | .store place, session => session.store.view place
  | .records key, session => session.records key

def Placed (vectors : VectorConfig) (session : Session) : Prop := session.store.Placed vectors

/-- All that belongs to a key, apart from the files of a migration. -/
structure Covers (scope : Set Place) (key : Bytes) : Prop where
  entry : .store (.entry key) ∈ scope
  files : .store (.files (.live key)) ∈ scope
  records : .records key ∈ scope

theorem Covers.stored {key : Bytes} (covers : Covers scope key) :
    Store.Covers (stored scope) key := ⟨covers.entry, covers.files⟩

structure CoversMigration (vectors : VectorConfig) (scope : Set Place) (key : Bytes) : Prop
    extends Covers scope key where
  shadow : .store (.files (shadowPath vectors key)) ∈ scope

theorem CoversMigration.stored {key : Bytes} (covers : CoversMigration vectors scope key) :
    Store.CoversMigration vectors (stored scope) key :=
  ⟨covers.toCovers.stored, covers.shadow⟩

/-- Sessions on stores that differ in expired entries. What they have appended is not
compared. -/
def Twins (now : Int64) (left right : Session) : Prop := left.store.Twins now right.store

abbrev Local (vectors : VectorConfig) (now : Int64) (scope : Set Place)
    (run : Session → α × Session) : Prop :=
  Simulation.Local (Twins now) view (Placed vectors) scope True run

variable {now : Int64}

theorem alike_store {left right : Session}
    (alike : Alike (Twins now) view (Placed vectors) scope True left right) :
    Alike (Store.Twins now) Store.view (Store.Placed vectors) (stored scope) True left.store
      right.store := by
  rcases alike with twins | ⟨holds, placedLeft, placedRight, agree⟩
  · exact .inl twins
  · exact .inr ⟨holds, placedLeft, placedRight, fun place member => agree (.store place) member⟩

theorem confined_store {run : Store → α × Store}
    (confined : Confined Store.view (Store.Placed vectors) (stored scope) run) :
    Confined view (Placed vectors) scope fun session =>
      ((run session.store).1, { session with store := (run session.store).2 }) := by
  have inner {left right : Session} (agree : Confinement.Agree view scope left right) :
      Confinement.Agree Store.view (stored scope) left.store right.store :=
    fun place member => agree (.store place) member
  constructor
  · intro left right validLeft validRight agree
    exact confined.same left.store right.store validLeft validRight (inner agree)
  · intro left right validLeft validRight agree place member
    cases place with
    | store place =>
      exact confined.agree left.store right.store validLeft validRight (inner agree) place member
    | records key => exact agree (.records key) member
  · intro session valid place outside
    cases place with
    | store place => exact confined.frame session.store valid place outside
    | records key => rfl
  · exact fun session valid => confined.keeps session.store valid

theorem local_store {run : Store → α × Store}
    (narrow : Store.Local vectors now (stored scope) True run) :
    Local vectors now scope fun session =>
      ((run session.store).1, { session with store := (run session.store).2 }) :=
  ⟨fun left right twins => narrow.respects left.store right.store twins,
    fun holds => confined_store (narrow.confined holds)⟩

section

variable (moment : Moment) (type : UInt8) (key value : Bytes) (ttlNano : Int64)

theorem records_writeWAL (other : Bytes) (session : Session) :
    (session.writeWAL moment type key value ttlNano).records other = session.records other ++
      if moment.suppressWAL ∨ key ≠ other then []
      else [⟨type, key, value, legacyExpiry moment.now type ttlNano⟩] := by
  by_cases suppressed : moment.suppressWAL
  · simp [writeWAL, suppressed]
  · by_cases same : key = other <;> simp [writeWAL, records, suppressed, same]

theorem local_writeWAL {key : Bytes} (covered : .records key ∈ scope) :
    Local vectors now scope fun session =>
      ((), session.writeWAL moment type key value ttlNano) := by
  have store (session : Session) :
      (session.writeWAL moment type key value ttlNano).store = session.store := by
    rw [writeWAL]
    split <;> rfl
  have records := records_writeWAL moment type key value ttlNano
  refine ⟨fun left right twins => ⟨rfl, ?_⟩, fun _ => ?_⟩
  · change Store.Twins now _ _
    rw [store, store]
    exact twins
  constructor
  · exact fun _ _ _ _ _ => rfl
  · intro left right _ _ agree place member
    have same := agree place member
    cases place with
    | store place =>
      exact (congrArg (Store.view place) (store left)).trans
        (same.trans (congrArg (Store.view place) (store right)).symm)
    | records other =>
      have same : left.records other = right.records other := same
      exact (records other left).trans
        ((congrArg (· ++ _) same).trans (records other right).symm)
  · intro session _ place outside
    cases place with
    | store place => exact congrArg (Store.view place) (store session)
    | records other =>
      have different : key ≠ other := fun same => outside (same ▸ covered)
      have untouched := records other session
      rw [if_pos (.inr different), List.append_nil] at untouched
      exact untouched
  · intro session placed
    rw [Placed, store]
    exact placed

theorem local_logged {key : Bytes} {next : Session → Reply × Session}
    (covered : .records key ∈ scope) (going : Local vectors now scope next) :
    Local vectors now scope fun session =>
      next (session.writeWAL moment type key value ttlNano) :=
  (local_writeWAL moment type value ttlNano covered).bind fun _ => going

end

theorem local_step {run : Store → Except String α × Store}
    {next : α → Session → Reply × Session} (failed : String → String)
    (narrow : Store.Local vectors now (stored scope) True run)
    (going : ∀ value, Local vectors now scope (next value)) :
    Local vectors now scope fun session => session.step (run session.store) failed next := by
  refine (local_store narrow).attempt (fun _ => True) (fun _ _ _ _ _ => trivial)
    (fun message => .pure (Reply.error (failed message))) going ?_ ?_
  · intro session message after first
    obtain ⟨result, same⟩ := Prod.mk.inj first
    rw [step, result, ← same]
  · intro session value after first
    obtain ⟨result, same⟩ := Prod.mk.inj first
    rw [step, result, ← same]

theorem local_onKV {key : Bytes}
    {run : KVStore MMapVectorIndex → α × KVStore MMapVectorIndex}
    {whole : Session → Reply × Session} (edits : KVStore.Edits now key run)
    (covers : Covers scope key) (next : α → Session → Reply × Session)
    (going : ∀ value, Local vectors now scope (next value))
    (steps : ∀ session, whole session =
      next (run session.store.kv).1 (session.withKV (run session.store.kv).2)) :
    Local vectors now scope whole := by
  have both := (local_store (Store.local_edits edits covers.entry)).bind going
  exact (funext steps : whole = _) ▸ both

end Session

/-!
## Keys and strings
-/

open Session (Local local_onKV local_writeWAL local_logged local_store local_step)

variable (moment : Moment) (cmd : Command)

/-- `DEL` closes the index of an expired entry too, so it is not local. -/
theorem confined_dispatchDel (covers : ∀ key ∈ cmd.keys, Session.Covers scope key) :
    Confined Session.view (Session.Placed vectors) scope (dispatchDel moment cmd) := by
  refine .ite (.pure _) ?_
  have deleting := Session.confined_store (Store.confined_delete vectors moment.now
    fun key member => (covers key member).stored)
  have logging (deleted : Nat) : Local vectors moment.now scope
      fun session => ((Reply.integer deleted : Reply), if 0 < deleted then
        cmd.keys.foldl (fun session key => session.writeWAL moment recordDelete key [] 0) session
      else session) := by
    split
    · exact (Simulation.Local.iterate fun key member => local_writeWAL moment recordDelete [] 0
        (covers key member).records).map fun _ => Reply.integer deleted
    · exact .pure _
  exact deleting.bind fun deleted => (logging deleted).confined trivial

section

variable (covers : Session.Covers scope (cmd.arg 0))
include covers

theorem local_dispatchExpire : Local vectors moment.now scope (dispatchExpire moment cmd) := by
  refine .ite (.pure _) ?_
  cases parseInt (cmd.arg 1) with
  | none => exact .pure _
  | some sec =>
    refine local_onKV (KVStore.edits_expire moment.now (cmd.arg 0) sec) covers
      (fun set session => if set then (.integer 1, session.writeWAL moment recordExpire
        (cmd.arg 0) [] (sec * second)) else (.integer 0, session)) ?_ ?_
    · exact fun set => .ite ((local_writeWAL moment recordExpire []
        (sec * second) covers.records).map fun _ => Reply.integer 1) (.pure _)
    · intro session
      dsimp only
      rcases session.store.kv.expire moment.now (cmd.arg 0) sec with ⟨_ | _, kv⟩ <;> rfl

theorem local_dispatchPersist : Local vectors moment.now scope (dispatchPersist moment cmd) :=
  local_onKV (KVStore.edits_persist moment.now (cmd.arg 0)) covers
    (fun removed session => (.integer (if removed then 1 else 0), session))
    (fun _ => .pure _) fun _ => rfl

theorem local_dispatchRename (covered : Session.Covers scope (cmd.arg 1)) :
    Local vectors moment.now scope (dispatchRename moment cmd) :=
  .ite (.pure _) ((local_store (Store.local_rename vectors moment.now
    covers.stored covered.entry)).map fun result =>
       replyOf result fun _ => .simple "OK")

end

theorem local_dispatchSet (covers : Session.Covers scope (cmd.arg 0)) :
    Local vectors moment.now scope (dispatchSet moment cmd) := by
  refine .ite (.pure _) ?_
  dsimp only
  split
  · exact .pure _
  rename_i parsed _
  refine local_onKV (StringStore.edits_set moment.now (cmd.arg 0) parsed.value parsed.ttlSec
    parsed.nx parsed.xx) covers
    (fun stored session => if stored then (.simple "OK", session.writeWAL moment recordSet
      (cmd.arg 0) (parsed.value.getD []) (parsed.ttlSec * millisecond)) else (.null, session))
    ?_ ?_
  · exact fun stored => .ite ((local_writeWAL moment recordSet (parsed.value.getD [])
      (parsed.ttlSec * millisecond) covers.records).map fun _ => Reply.simple "OK") (.pure _)
  · intro session
    rcases StringStore.set moment.now (cmd.arg 0) parsed.value parsed.ttlSec parsed.nx parsed.xx
      session.store.kv with ⟨_ | _, kv⟩ <;> rfl

theorem local_dispatchSetex (covers : Session.Covers scope (cmd.arg 0)) :
    Local vectors moment.now scope (dispatchSetex moment cmd) := by
  refine .ite (.pure _) ?_
  cases parseInt (cmd.arg 1) with
  | none => exact .pure _
  | some seconds =>
    refine .ite (.pure _) ?_
    exact local_onKV (StringStore.edits_set moment.now (cmd.arg 0) (cmd.argBytes 2) seconds false
      false) covers
      (fun _ session => (.simple "OK", session.writeWAL moment recordSet (cmd.arg 0) (cmd.arg 2)
        (seconds * millisecond)))
      (fun _ => (local_writeWAL moment recordSet (cmd.arg 2) (seconds * millisecond)
        covers.records).map fun _ => Reply.simple "OK") fun _ => rfl

theorem mem_msetPairs {pairs : List (Bytes × Option Bytes)} {key : Bytes}
    {start : AList fun _ : Bytes => Option Bytes}
    (member : key ∈ pairs.foldl (fun pairs pair => pairs.insert pair.1 pair.2) start) :
    key ∈ start ∨ key ∈ pairs.map Prod.fst := by
  induction pairs generalizing start with
  | nil => exact .inl member
  | cons pair pairs ih =>
    rcases ih member with inside | later
    · rcases (AList.mem_insert _).mp inside with same | before
      · exact .inr (same ▸ List.mem_cons_self)
      · exact .inl before
    · exact .inr (List.mem_cons_of_mem _ later)

theorem local_dispatchMset
    (covers : ∀ key ∈ (argPairs cmd.args).map Prod.fst, Session.Covers scope key) :
    Local vectors moment.now scope (dispatchMset moment cmd) := by
  refine .ite (.pure _) ?_
  have inside (key : Bytes) (member : key ∈ msetPairs cmd) : Session.Covers scope key := by
    rcases mem_msetPairs member with empty | named
    · exact absurd empty (AList.notMem_empty key)
    · exact covers key named
  have storing := local_store (Store.local_mSet vectors moment.now fun key member =>
    (inside key member).entry)
  have logging : Local vectors moment.now scope fun session =>
      ((), (msetPairs cmd).entries.foldl (fun session pair =>
        session.writeWAL moment recordSet pair.1 (pair.2.getD []) 0) session) :=
    .iterate fun pair member => local_writeWAL moment recordSet (pair.2.getD []) 0
      (inside pair.1 (List.mem_map_of_mem member)).records
  exact storing.bind fun _ => logging.map fun _ => Reply.simple "OK"

theorem local_dispatchSetnx (covers : Session.Covers scope (cmd.arg 0)) :
    Local vectors moment.now scope (dispatchSetnx moment cmd) :=
  .ite (.pure _) (local_onKV
    (StringStore.edits_set moment.now (cmd.arg 0) (cmd.argBytes 1) 0 true false) covers
    (fun stored session => (.integer (if stored then 1 else 0), session))
    (fun _ => .pure _) fun _ => rfl)

theorem local_dispatchGetset (covers : Session.Covers scope (cmd.arg 0)) :
    Local vectors moment.now scope (dispatchGetset moment cmd) :=
  local_onKV (StringStore.edits_getSet moment.now (cmd.arg 0) (cmd.argBytes 1)) covers
    (fun result session => (replyOf result .bulk, session)) (fun _ => .pure _) fun _ => rfl

theorem local_dispatchIncr (amount : Int64) (covers : Session.Covers scope (cmd.arg 0)) :
    Local vectors moment.now scope (dispatchIncr moment amount cmd) :=
  local_onKV (StringStore.edits_incr moment.now (cmd.arg 0) amount) covers
    (fun result session => (replyOf result fun sum => .integer sum.toInt, session))
    (fun _ => .pure _) fun _ => rfl

theorem local_dispatchIncrBy (name : String) (signed : Int64 → Int64)
    (covers : Session.Covers scope (cmd.arg 0)) :
    Local vectors moment.now scope
      (dispatchIncrBy moment name signed cmd) := by
  refine .ite (.pure _) ?_
  cases parseInt (cmd.arg 1) with
  | none => exact .pure _
  | some amount => exact local_dispatchIncr moment cmd (signed amount) covers

theorem local_dispatchAppend (covers : Session.Covers scope (cmd.arg 0)) :
    Local vectors moment.now scope (dispatchAppend moment cmd) :=
  .ite (.pure _) (local_onKV
    (StringStore.edits_append moment.now (cmd.arg 0) (cmd.argBytes 1)) covers
    (fun result session => (replyOf result fun length => .integer length, session))
    (fun _ => .pure _) fun _ => rfl)

/-!
## Additions

Whether an addition is admitted depends on the memory that the whole tenant uses.
-/

/-- Confined, once the memory in use is known. It may have no part at all. -/
def Metered (vectors : VectorConfig) (now : Int64) (scope : Set Place) (free : Prop)
    (whole : Session → Reply × Session) : Prop :=
  ∃ branch : Int → Session → Reply × Session,
    (∀ session, whole session = branch (session.store.memoryUsage now) session) ∧
    (∀ usage, Confined Session.view (Session.Placed vectors) scope (branch usage)) ∧
    (free → ∀ usage usage', branch usage = branch usage')

namespace Metered

variable {now : Int64} {free : Prop} {whole : Session → Reply × Session}

theorem of_confined (confined : Confined Session.view (Session.Placed vectors) scope whole) :
    Metered vectors now scope free whole :=
  ⟨fun _ => whole, fun _ => rfl, fun _ => confined, fun _ _ _ => rfl⟩

theorem pure (now : Int64) (reply : Reply) :
    Metered vectors now scope free fun session => (reply, session) :=
  of_confined (.pure reply)

section

variable {session : Session} (metered : Metered vectors now scope free whole)
include metered

theorem mono {freer : Prop} (implies : freer → free) : Metered vectors now scope freer whole := by
  obtain ⟨branch, meters, confined, constant⟩ := metered
  exact ⟨branch, meters, confined, fun holds => constant (implies holds)⟩

theorem same {left right : Session} (placedLeft : left.Placed vectors)
    (placedRight : right.Placed vectors)
    (usage : free ∨ left.store.memoryUsage now = right.store.memoryUsage now)
    (agree : Confinement.Agree Session.view scope left right) :
    (whole left).1 = (whole right).1 := by
  obtain ⟨branch, meters, confined, constant⟩ := metered
  have one : whole left = branch (right.store.memoryUsage now) left := by
    rw [meters]
    rcases usage with holds | equal
    · rw [constant holds]
    · rw [equal]
  rw [one, meters right]
  exact (confined _).same left right placedLeft placedRight agree

theorem frame (placed : session.Placed vectors) :
    Frame Session.view scope session (whole session).2 := by
  obtain ⟨branch, meters, confined, -⟩ := metered
  rw [meters]
  exact (confined _).frame session placed

theorem keeps (placed : session.Placed vectors) : (whole session).2.Placed vectors := by
  obtain ⟨branch, meters, confined, -⟩ := metered
  rw [meters]
  exact (confined _).keeps session placed

end

theorem capacity {key : Bytes} {next : Unit → Session → Reply × Session}
    (dim : Nat) (ids : List Bytes) (failed : String → String) (covers : Session.Covers scope key)
    (going : Local vectors now scope (next ())) :
    Metered vectors now scope (vectors.maxMemory ≤ 0) fun session =>
      session.step (session.store.admitBatch vectors now key dim ids
        (session.store.memoryUsage now)) failed next := by
  refine ⟨fun usage session => session.step
    (session.store.admitBatch vectors now key dim ids usage) failed next, fun _ => rfl, ?_, ?_⟩
  · exact fun usage => (local_step failed
      (Store.local_admitBatch vectors now covers.stored dim ids usage)
      fun _ => going).confined trivial
  · intro unlimited usage usage'
    funext session
    dsimp only
    rw [Store.admitBatch_unlimited unlimited now key dim ids usage usage']

end Metered

variable (env : Surroundings)

/-- The keys of indexes that the argument at a position, as far as it names a space, is about. -/
def spaceKeys (cmd : Command) (index : Nat) : List Bytes :=
  match parseOptionalSpace cmd index with
  | .error _ => []
  | .ok (space, _) => [vectorSpaceKey (cmd.arg 0) space]

theorem mem_spaceKeys {index : Nat} {space : Bytes} {start : Nat}
    (parsed : parseOptionalSpace cmd index = .ok (space, start)) :
    vectorSpaceKey (cmd.arg 0) space ∈ spaceKeys cmd index := by
  rw [spaceKeys, parsed]
  exact List.mem_singleton_self _

theorem metered_addVectors {key : Bytes} (covers : Session.Covers scope key)
    (write : VectorWrite) :
    Metered env.vectors moment.now scope (env.vectors.maxMemory ≤ 0)
      (addVectors env moment key write) := by
  have applying := local_step ("ERR vector apply failed after WAL append: " ++ ·)
    (VectorWrite.local_apply env.vectors moment.now covers.stored write)
    fun _ => .pure (Reply.integer write.items.length)
  unfold addVectors
  simp only [VectorWrite.validate_checked]
  cases write.check with
  | error message => exact .pure _ _
  | ok =>
    exact .capacity write.dim write.ids id covers
      (local_logged moment _ _ 0 covers.records applying)

/-!
## Other work on an index
-/

theorem local_dispatchVdel (covers : ∀ key ∈ spaceKeys cmd 2, Session.Covers scope key) :
    Local env.vectors moment.now scope (dispatchVdel env moment cmd) := by
  refine .ite (.pure _) ?_
  cases parsed : parseOptionalSpace cmd 2 with
  | error message => exact .pure _
  | ok found =>
    obtain ⟨space, next⟩ := found
    have covers := covers _ (mem_spaceKeys cmd parsed)
    refine .ite (.pure _) (local_step id
      (Store.local_hasLiveVector env.vectors moment.now covers.stored (cmd.arg 1)) fun live => ?_)
    refine .ite (.pure _) ?_
    have compacting (reply : Reply) (exceeds : Bool) :
        Local env.vectors moment.now scope fun session =>
          if !exceeds then (reply, session)
          else session.step (session.store.vCompact env.vectors moment.now
            (vectorSpaceKey (cmd.arg 0) space)) ("ERR vector compaction failed: " ++ ·)
            fun _ session => (reply, session) :=
      .ite (.pure reply) (local_step _
        (Store.local_vCompact env.vectors moment.now covers.stored) fun _ => .pure reply)
    have measuring := local_store
      (Store.local_tombstoneRatioExceeds env.vectors moment.now covers.stored)
    have deleting := local_step ("ERR vector tombstone apply failed after WAL append: " ++ ·)
      (Store.local_vDel env.vectors moment.now covers.stored (cmd.arg 1)) fun deleted =>
        measuring.bind (compacting (.integer (if deleted then 1 else 0)))
    exact local_logged moment recordVTombstone _ 0 covers.records deleting

theorem local_dispatchVcompact (covers : ∀ key ∈ spaceKeys cmd 1, Session.Covers scope key) :
    Local env.vectors moment.now scope
      (dispatchVcompact env moment cmd) := by
  refine .ite (.pure _) ?_
  cases parsed : parseOptionalSpace cmd 1 with
  | error message => exact .pure _
  | ok found =>
    obtain ⟨space, next⟩ := found
    exact .ite (.pure _) (local_step id (Store.local_vCompact env.vectors moment.now
      (covers _ (mem_spaceKeys cmd parsed)).stored) fun removed => .pure (Reply.integer removed))

/-!
## Migrations
-/

section Migrations

variable (covers : Session.CoversMigration env.vectors scope (cmd.arg 1))

include covers

theorem local_migrateStart :
    Local env.vectors moment.now scope (migrateStart env moment cmd) := by
  refine .ite (.pure _) ?_
  cases parseDim (cmd.arg 2) with
  | none => exact .pure _
  | some dim =>
    dsimp only
    cases normalizeVectorEncoding (if 4 ≤ cmd.numArgs then cmd.arg 3 else ascii "sq8") with
    | error message => exact .pure _
    | ok encoding =>
      exact local_logged moment _ _ 0 covers.records (local_step _
        (Store.local_startMigration env.vectors moment.now covers.stored dim encoding.name)
        fun _ => .pure (Reply.simple "OK"))

theorem local_migrateAdd :
    Local env.vectors moment.now scope (migrateAdd env moment cmd) := by
  refine .ite (.pure _) ?_
  cases parseFloatArgs env.parseFloat (argSlice cmd 3 cmd.numArgs) with
  | error message => exact .pure _
  | ok vec =>
    have inserting := local_logged moment recordVMigrateAdd
      (encodeVAddPayload (cmd.arg 2) vec) 0 covers.records
      (local_step ("ERR migrate add failed after WAL append: " ++ ·)
        (Store.local_insertShadowVector env.vectors moment.now covers.stored (cmd.arg 2) vec)
        fun _ => .pure (Reply.integer 1))
    have asking := local_store
      (Store.local_migrationActive env.vectors moment.now covers.toCovers.stored)
    have refusing (active : Bool) :=
      @Simulation.Local.ite _ _ _ _ _ _ _ _ _ ((!active) = true) _ _ _
      (.pure (Reply.error "ERR no migration in progress")) inserting
    exact asking.bind refusing

theorem local_migrateSwap :
    Local env.vectors moment.now scope (migrateSwap env moment cmd) :=
  local_step id (Store.local_validateSwapMigration env.vectors moment.now covers.toCovers.stored)
    fun _ => local_logged moment _ _ 0 covers.records (local_step _
      (Store.local_swapMigration env.vectors moment.now covers.stored)
      fun _ => .pure (Reply.simple "OK"))

theorem local_migrateCancel :
    Local env.vectors moment.now scope (migrateCancel env moment cmd) :=
  local_logged moment _ _ 0 covers.records (local_step _
    (Store.local_cancelMigration env.vectors moment.now covers.stored)
    fun _ => .pure (Reply.simple "OK"))

theorem local_dispatchVmigrate :
    Local env.vectors moment.now scope (dispatchVmigrate env moment cmd) :=
  .ite (.pure _) (.ite (local_migrateStart moment cmd env covers)
    (.ite (local_migrateAdd moment cmd env covers)
      (.ite (local_migrateSwap moment cmd env covers)
        (.ite (local_migrateCancel moment cmd env covers) (.pure _)))))

end Migrations

end Dbx.Query
