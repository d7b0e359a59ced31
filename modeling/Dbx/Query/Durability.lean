import Dbx.Library.Runs
import Dbx.Persistence.RecoveryProperties
import Dbx.Query.Tenant

/-!
# Acknowledged transactions across checkpoints and restarts

Transactions of plain string mutations, checkpoints and restarts of one tenant
directory. The image of a checkpoint and the frames of the log carry sequences
that recovery compares, while the counter that assigns them restarts from the
frames alone.
-/

set_option autoImplicit false

namespace Dbx.Query

open Dbx.Engine Dbx.Persistence

inductive Mutation where
  | set (key value : Bytes)
  | delete (key : Bytes)
deriving DecidableEq, Repr

/-- A transaction installs final states, so a keyspace is all it needs. -/
abbrev Keyspace := Bytes → Option Bytes

def Mutation.apply (keyspace : Keyspace) : Mutation → Keyspace
  | .set key value => Function.update keyspace key (some value)
  | .delete key => Function.update keyspace key none

def applyTransaction (keyspace : Keyspace) (transaction : List Mutation) : Keyspace :=
  transaction.foldl Mutation.apply keyspace

/-- The keyspace that a list of transactions leaves behind, in their order. -/
def applyAll (keyspace : Keyspace) (transactions : List (List Mutation)) : Keyspace :=
  transactions.foldl applyTransaction keyspace

def Mutation.effect : Mutation → WALEffect
  | .set key value => ⟨recordSet, key, value, 0⟩
  | .delete key => ⟨recordDelete, key, [], 0⟩

structure History where
  tenant : Tenant
  acknowledged : List (List Mutation)

def History.create (config : TenantConfig) : History := ⟨.create config, []⟩

inductive Event where
  | write (nonce : Nonce) (now : Int64) (transaction : List Mutation)
  | checkpoint (now : Int64)
  | restart (now : Int64)

def applyMutation (now : Int64) (store : Store) : Mutation → Store
  | .set key value =>
    { store with kv := store.kv.set now key (.bytes (some value)) .string 0 }
  | .delete key => store.delete1 now key

def History.step (config : TenantConfig) (history : History) :
    Event → Except String History
  | .write nonce now transaction =>
    .ok {
      tenant := { history.tenant with
        wal := history.tenant.wal.writeTransaction config.enc nonce now
          (transaction.map Mutation.effect)
        store := transaction.foldl (applyMutation now) history.tenant.store }
      acknowledged := history.acknowledged ++ [transaction] }
  | .checkpoint now =>
    .ok { history with tenant := history.tenant.checkpoint config now }
  | .restart now =>
    match history.tenant.restart config now with
    | .error message => .error message
    | .ok tenant => .ok { history with tenant := tenant }

/-- The sequence in the header of the installed image, zero without one. -/
def installedSequence (snapshots : SnapshotDir) : UInt64 :=
  match snapshots.latest with
  | none => 0
  | some file => file.image.sequence

/-- A transaction may be written where the next sequence is beyond the installed
image and its frame stays within the reader's limits. -/
def Event.Fresh (config : TenantConfig) (history : History) : Event → Prop
  | .write nonce now transaction =>
    ∀ nonempty : transaction.map Mutation.effect ≠ [],
      installedSequence history.tenant.snapshots < history.tenant.wal.seq + 1 ∧
        RecordFits config.enc
          (Append.record ⟨nonce, now, transaction.map Mutation.effect, nonempty⟩ 0)
  | _ => True

def plainState (value : Bytes) : KeyState MMapVectorIndex :=
  ⟨.bytes (some value), .string, 0⟩

/-- The store holds exactly the strings of a keyspace, none of them with a
deadline. -/
def Plain (kv : KVStore MMapVectorIndex) (keyspace : Keyspace) : Prop :=
  ∀ key, kv.stored key = (keyspace key).map plainState

theorem Plain.new : Plain .new (fun _ => none) := fun key => by simp

section Plain

variable {kv : KVStore MMapVectorIndex} {keyspace : Keyspace}

theorem Plain.set (plain : Plain kv keyspace) (now : Int64) (key value : Bytes)
    {slice : Value MMapVectorIndex} (content : slice.content = .bytes (some value)) :
    Plain (kv.set now key slice .string 0) (Mutation.apply keyspace (.set key value)) := by
  intro other
  by_cases same : other = key
  · subst same
    simp [Mutation.apply, plainState, content]
  · rw [KVStore.stored_set_other _ _ _ _ _ same, plain other]
    simp [Mutation.apply, Function.update_of_ne same]

theorem Plain.erase (plain : Plain kv keyspace) (key : Bytes) :
    Plain (kv.erase key) (Mutation.apply keyspace (.delete key)) := by
  intro other
  by_cases same : other = key
  · subst same
    simp [Mutation.apply]
  · rw [KVStore.stored_erase_other _ same, plain other]
    simp [Mutation.apply, Function.update_of_ne same]

theorem Plain.keyspace_eq (plain : Plain kv keyspace) (now : Int64) (key : Bytes) :
    kv.keyspace now key = (keyspace key).map plainState := by
  rw [KVStore.keyspace_eq_filter, plain key]
  cases keyspace key with
  | none => rfl
  | some value => simp [plainState, KeyState.isExpired, Option.filter]

theorem Plain.type_eq (plain : Plain kv keyspace)
    {entry : Sigma fun _ : Bytes => Entry MMapVectorIndex} (member : entry ∈ kv.data.entries) :
    entry.2.type = .string := by
  have found : kv.data.lookup entry.1 = some entry.2 := AList.mem_lookup_iff.mpr member
  have state := plain entry.1
  simp only [KVStore.stored, found, Option.map_some] at state
  cases value : keyspace entry.1 with
  | none => simp [value] at state
  | some bytes =>
    simp only [value, Option.map_some, Option.some.injEq, plainState] at state
    exact congrArg KeyState.type state

variable {store : Store}

section

variable (plain : Plain store.kv keyspace)
include plain

theorem Plain.openIndexes_eq : store.openIndexes = [] := by
  unfold Store.openIndexes
  rw [List.filterMap_eq_nil_iff]
  intro entry member
  rw [plain.type_eq member]

theorem Plain.flushDurable_eq (now : Int64) : store.flushDurable now = store := by
  simp [Store.flushDurable, plain.openIndexes_eq]

theorem Plain.reopenPersisted_eq (config : VectorConfig) (now : Int64) :
    store.reopenPersisted config now = (.ok (), store) := by
  have none : (store.kv.data.entries.filter fun entry =>
      entry.2.type = .vector && entry.2.value = .nil) = [] := by
    rw [List.filter_eq_nil_iff]
    intro entry member
    simp [plain.type_eq member]
  simp [Store.reopenPersisted, none]

theorem Plain.mutation (now : Int64) (mutation : Mutation) :
    Plain (applyMutation now store mutation).kv (mutation.apply keyspace) := by
  cases mutation with
  | set key value => exact plain.set now key value rfl
  | delete key =>
    rw [applyMutation, Store.delete1_kv]
    exact plain.erase key

theorem Plain.transaction (now : Int64) (transaction : List Mutation) :
    Plain (transaction.foldl (applyMutation now) store).kv
      (applyTransaction keyspace transaction) := by
  induction transaction generalizing store keyspace with
  | nil => exact plain
  | cons mutation transaction ih => exact ih (plain.mutation now mutation)

theorem Plain.recoveredEffect (config : VectorConfig) (now : Int64) (sequence : UInt64)
    (mutation : Mutation) :
    ∃ recovered, applyRecoveredEffect config now sequence mutation.effect store =
        (.ok (), recovered) ∧ Plain recovered.kv (mutation.apply keyspace) := by
  cases mutation with
  | set key value =>
    refine ⟨recoverySet now (Mutation.set key value).effect store, rfl, ?_⟩
    exact plain.set now key value (sliceOf_content value)
  | delete key =>
    refine ⟨store.delete1 now key, rfl, ?_⟩
    rw [Store.delete1_kv]
    exact plain.erase key

theorem Plain.recoveredTransaction (config : VectorConfig) (now : Int64) (sequence : UInt64)
    (transaction : List Mutation) :
    ∃ recovered,
      replayEffects config now sequence (transaction.map Mutation.effect) store =
        (.ok (), recovered) ∧ Plain recovered.kv (applyTransaction keyspace transaction) := by
  induction transaction generalizing store keyspace with
  | nil => exact ⟨store, rfl, plain⟩
  | cons mutation transaction ih =>
    obtain ⟨middle, applied, middlePlain⟩ := plain.recoveredEffect config now sequence mutation
    obtain ⟨recovered, replayed, recoveredPlain⟩ := ih middlePlain
    refine ⟨recovered, ?_, recoveredPlain⟩
    simp only [List.map_cons, replayEffects, applied, replayed]

end

variable {transactions : List (List Mutation)}

theorem Plain.recoveredRecords (plain : Plain store.kv keyspace) (config : VectorConfig)
    (now : Int64) {records : List WALRecord}
    (carried : records.map WALRecord.effects = transactions.map (List.map Mutation.effect)) :
    ∃ recovered, replayRecords config now records store = (.ok (), recovered) ∧
      Plain recovered.kv (applyAll keyspace transactions) := by
  induction records generalizing store keyspace transactions with
  | nil =>
    obtain rfl : transactions = [] := by simpa using carried
    exact ⟨store, rfl, plain⟩
  | cons rec records ih =>
    cases transactions with
    | nil => simp at carried
    | cons transaction transactions =>
      simp only [List.map_cons, List.cons.injEq] at carried
      obtain ⟨middle, applied, middlePlain⟩ :=
        plain.recoveredTransaction config now rec.sequence transaction
      obtain ⟨recovered, replayed, recoveredPlain⟩ := ih middlePlain carried.2
      refine ⟨recovered, ?_, recoveredPlain⟩
      simp only [replayRecords, carried.1, applied, replayed]

theorem loadedState_plain (now : Int64) {entry : Entry MMapVectorIndex} {value : Bytes}
    (state : entry.state = plainState value) :
    loadedState now (toWireEntry entry) = some (plainState value) := by
  simp only [Entry.state, plainState, KeyState.mk.injEq] at state
  obtain ⟨content, type, deadline⟩ := state
  simp [loadedState, toWireEntry, type, deadline, deadlinePassed, restoredDeadline, plainState,
    gobValue_content, content]

/-- The installed image holds a keyspace of plain strings and no seals. -/
def ImageHolds (snapshots : SnapshotDir) (keyspace : Keyspace) : Prop :=
  match snapshots.latest with
  | none => keyspace = fun _ => none
  | some file => ∃ saved kv sequence,
      file.image = imageOf saved kv sequence [] ∧ Plain kv keyspace

theorem ImageHolds.loaded {snapshots : SnapshotDir} (holds : ImageHolds snapshots keyspace)
    (now : Int64) :
    ∃ kv, loadLatest now snapshots = .ok ⟨kv, installedSequence snapshots, []⟩ ∧
      Plain kv keyspace := by
  unfold ImageHolds at holds
  unfold loadLatest installedSequence
  cases latest : snapshots.latest with
  | none =>
    simp only [latest] at holds
    exact ⟨.new, rfl, holds ▸ Plain.new⟩
  | some file =>
    simp only [latest] at holds
    obtain ⟨saved, kv, sequence, image, plain⟩ := holds
    obtain ⟨loaded, success, states⟩ := stored_loadWithHeader saved now kv sequence []
    refine ⟨loaded, by simp only [image, success]; rfl, ?_⟩
    intro key
    rw [states key]
    have live := plain.keyspace_eq saved key
    unfold KVStore.keyspace at live
    cases got : kv.get saved key with
    | none =>
      rw [got, Option.map_none] at live
      rw [Option.bind_none, live]
    | some entry =>
      rw [got, Option.map_some] at live
      rw [Option.bind_some, ← live]
      cases value : keyspace key with
      | none => simp [value] at live
      | some bytes =>
        rw [value, Option.map_some, Option.some.injEq] at live
        rw [loadedState_plain now live, live]

end Plain

def History.keyspace (history : History) : Keyspace :=
  applyAll (fun _ => none) history.acknowledged

/-- `wal.log` holds, in sequence order and beyond the installed image, the
transactions that lead from the image to the acknowledged keyspace. -/
structure Durable (config : TenantConfig) (history : History) (entries : List LogEntry)
    (transactions : List (List Mutation)) (base : Keyspace) : Prop where
  dir : history.tenant.wal.dir = LogImage.dir config.enc ⟨[], entries⟩
  ordered : InOrder entries
  fits : ∀ entry ∈ entries, RecordFits config.enc entry.record
  bounded : ∀ entry ∈ entries, entry.record.sequence ≤ history.tenant.wal.seq
  beyond : ∀ entry ∈ entries,
    installedSequence history.tenant.snapshots < entry.record.sequence
  carried : entries.map (fun entry => entry.record.effects) =
    transactions.map (List.map Mutation.effect)
  image : ImageHolds history.tenant.snapshots base
  memory : Plain history.tenant.store.kv history.keyspace
  folded : applyAll base transactions = history.keyspace

def History.Recoverable (config : TenantConfig) (history : History) : Prop :=
  ∃ entries transactions base, Durable config history entries transactions base

variable {config : TenantConfig} {history : History} {entries : List LogEntry}
  {transactions : List (List Mutation)} {base : Keyspace}

theorem Durable.holds (durable : Durable config history entries transactions base) :
    history.tenant.wal.Holds config.enc (installedSequence history.tenant.snapshots) entries :=
  ⟨durable.dir, durable.ordered, durable.fits, durable.bounded, durable.beyond⟩

theorem Durable.create (config : TenantConfig) :
    Durable config (.create config) [] [] (fun _ => none) where
  dir := by simp [History.create, Tenant.create, LogImage.dir, segmentOf]
  ordered := List.Pairwise.nil
  fits := by simp
  bounded := by simp
  beyond := by simp
  carried := rfl
  image := rfl
  memory := Plain.new
  folded := rfl

theorem restart_reads {config : TenantConfig} {tenant : Tenant} {wal : WAL}
    {records : List WALRecord} {transactions : List (List Mutation)} {base : Keyspace}
    (opened : openWALEncrypted config.enc tenant.wal.dir = .ok wal)
    (read : readAll config.enc wal.dir = .ok records) (image : ImageHolds tenant.snapshots base)
    (carried : (replaySuffix (installedSequence tenant.snapshots) records).map WALRecord.effects =
      transactions.map (List.map Mutation.effect)) (now : Int64) :
    ∃ store, tenant.restart config now = .ok { tenant with wal := wal, store := store } ∧
      Plain store.kv (applyAll base transactions) := by
  obtain ⟨kv, loaded, plain⟩ := image.loaded now
  have start : Plain (Store.mk kv tenant.store.disk).kv base := plain
  have reopened := start.reopenPersisted_eq config.vectors now
  obtain ⟨store, replayed, recovered⟩ := start.recoveredRecords config.vectors now carried
  have recoverOk : recover config.vectors config.enc now wal.dir tenant.snapshots
      tenant.store.disk = (.ok (), store) := by
    unfold recover
    rw [loaded]
    simp only [read, List.filter_nil, reopened, Store.verifySeals, List.find?_nil, replayed]
  refine ⟨store, ?_, recovered⟩
  unfold Tenant.restart
  rw [opened]
  simp only [recoverOk]

theorem restart_replays {config : TenantConfig} {tenant : Tenant} {entries : List LogEntry}
    {transactions : List (List Mutation)} {base : Keyspace}
    (dir : tenant.wal.dir = LogImage.dir config.enc ⟨[], entries⟩) (ordered : InOrder entries)
    (fits : ∀ entry ∈ entries, RecordFits config.enc entry.record)
    (image : ImageHolds tenant.snapshots base)
    (carried : (replaySuffix (installedSequence tenant.snapshots)
      (entries.map LogEntry.record)).map WALRecord.effects =
        transactions.map (List.map Mutation.effect)) (now : Int64) :
    ∃ store, tenant.restart config now = .ok { tenant with
        wal := ⟨tenant.wal.dir, lastSequence (entries.map LogEntry.record)⟩
        store := store } ∧
      Plain store.kv (applyAll base transactions) := by
  have opened : openWALEncrypted config.enc tenant.wal.dir =
      .ok ⟨tenant.wal.dir, lastSequence (entries.map LogEntry.record)⟩ := by
    rw [dir]
    exact openWALEncrypted_dir fits ordered
  have read : readAll config.enc tenant.wal.dir = .ok (entries.map LogEntry.record) := by
    rw [dir]
    exact readAll_dir fits ordered
  exact restart_reads opened read image carried now

theorem Durable.restart_from (durable : Durable config history entries transactions base)
    {tenant : Tenant} (dir : tenant.wal.dir = history.tenant.wal.dir)
    (latest : tenant.snapshots.latest = history.tenant.snapshots.latest) (now : Int64) :
    ∃ store, tenant.restart config now = .ok { tenant with
        wal := ⟨tenant.wal.dir, lastSequence (entries.map LogEntry.record)⟩
        store := store } ∧
      Plain store.kv history.keyspace := by
  have installed : installedSequence tenant.snapshots =
      installedSequence history.tenant.snapshots := by
    unfold installedSequence
    rw [latest]
  have image : ImageHolds tenant.snapshots base := by
    unfold ImageHolds
    rw [latest]
    exact durable.image
  have carried : (replaySuffix (installedSequence tenant.snapshots)
      (entries.map LogEntry.record)).map WALRecord.effects =
        transactions.map (List.map Mutation.effect) := by
    rw [installed, replaySuffix_holds durable.holds, List.map_map]
    exact durable.carried
  rw [← durable.folded]
  exact restart_replays (dir.trans durable.dir) durable.ordered durable.fits image carried now

theorem Durable.restart (durable : Durable config history entries transactions base) (now : Int64) :
    ∃ store, history.tenant.restart config now = .ok { history.tenant with
        wal := ⟨history.tenant.wal.dir, lastSequence (entries.map LogEntry.record)⟩
        store := store } ∧
      Plain store.kv history.keyspace :=
  durable.restart_from rfl rfl now

theorem applyAll_concat (keyspace : Keyspace) (transactions : List (List Mutation))
    (transaction : List Mutation) :
    applyAll keyspace (transactions ++ [transaction]) =
      applyTransaction (applyAll keyspace transactions) transaction := by
  simp [applyAll, List.foldl_append]

theorem Durable.write (durable : Durable config history entries transactions base) (nonce : Nonce)
    (now : Int64) (transaction : List Mutation) (nonempty : transaction.map Mutation.effect ≠ [])
    (next : installedSequence history.tenant.snapshots < history.tenant.wal.seq + 1)
    (fits : RecordFits config.enc
      (Append.record ⟨nonce, now, transaction.map Mutation.effect, nonempty⟩ 0)) :
    Durable config
      { tenant := { history.tenant with
          wal := history.tenant.wal.write config.enc
            ⟨nonce, now, transaction.map Mutation.effect, nonempty⟩
          store := transaction.foldl (applyMutation now) history.tenant.store }
        acknowledged := history.acknowledged ++ [transaction] }
      (entries ++ [⟨nonce, ⟨history.tenant.wal.seq + 1, now, transaction.map Mutation.effect⟩⟩])
      (transactions ++ [transaction]) base := by
  have written := durable.holds.write ⟨nonce, now, transaction.map Mutation.effect, nonempty⟩ next
    fits
  have memory : applyAll (fun _ => none) (history.acknowledged ++ [transaction]) =
      applyTransaction history.keyspace transaction := applyAll_concat _ _ _
  constructor
  case dir => exact written.dir
  case ordered => exact written.ordered
  case fits => exact written.fits
  case bounded => exact written.bounded
  case beyond => exact written.beyond
  case carried => simp [durable.carried]
  case image => exact durable.image
  case memory =>
    unfold History.keyspace
    rw [memory]
    exact durable.memory.transaction now transaction
  case folded =>
    unfold History.keyspace
    rw [memory, applyAll_concat, durable.folded]

theorem latest_saveCheckpoint (now : Int64) (kv : KVStore MMapVectorIndex) (sequence : UInt64)
    (seals : List IndexSeal) (dir : SnapshotDir) :
    (saveCheckpoint now kv sequence seals dir).latest =
      some ⟨now, now, imageOf now kv sequence seals⟩ := by
  simp [saveCheckpoint, SnapshotDir.latest]

theorem Durable.checkpoint (durable : Durable config history entries transactions base)
    (now : Int64) :
    Durable config { history with tenant := history.tenant.checkpoint config now } [] []
      history.keyspace := by
  have flushed := durable.memory.flushDurable_eq now
  have seals : history.tenant.store.indexSeals = [] := by
    simp [Store.indexSeals, durable.memory.openIndexes_eq]
  have rotated := durable.holds.rotated 0
  have latest := latest_saveCheckpoint now history.tenant.store.kv history.tenant.wal.seq []
    history.tenant.snapshots
  constructor
  case dir => exact rotated.dir
  case ordered => exact List.Pairwise.nil
  case fits => simp
  case bounded => simp
  case beyond => simp
  case carried => rfl
  case image =>
    simp only [Tenant.checkpoint, Tenant.saveCheckpoint, flushed, seals, ImageHolds, latest]
    exact ⟨now, history.tenant.store.kv, history.tenant.wal.seq, rfl, durable.memory⟩
  case memory =>
    simp only [Tenant.checkpoint, Tenant.saveCheckpoint, flushed]
    exact durable.memory
  case folded => rfl

theorem Durable.step {successor : History} {event : Event}
    (durable : Durable config history entries transactions base)
    (fresh : event.Fresh config history) (stepped : history.step config event = .ok successor) :
    successor.Recoverable config := by
  cases event with
  | write nonce now transaction =>
    cases stepped
    by_cases nonempty : transaction.map Mutation.effect ≠ []
    · obtain ⟨next, fits⟩ := fresh nonempty
      rw [WAL.writeTransaction, dif_pos nonempty]
      exact ⟨_, _, base, durable.write nonce now transaction nonempty next fits⟩
    · obtain rfl : transaction = [] := by simpa using nonempty
      -- nothing is appended and the acknowledged keyspace stays
      refine ⟨entries, transactions, base, { durable with memory := ?_, folded := ?_ }⟩
      · unfold History.keyspace
        rw [applyAll_concat]
        exact durable.memory
      · unfold History.keyspace
        rw [applyAll_concat]
        exact durable.folded
  | checkpoint now =>
    cases stepped
    exact ⟨[], [], _, durable.checkpoint now⟩
  | restart now =>
    obtain ⟨store, restarted, plain⟩ := durable.restart now
    simp only [History.step, restarted] at stepped
    cases stepped
    refine ⟨entries, transactions, base, { durable with bounded := ?_, memory := plain }⟩
    intro entry member
    exact le_lastSequence (List.mem_map_of_mem member)

/-- In a run of fresh steps no acknowledged transaction is lost: whenever the
tenant stops, the next start recovers all of them. -/
theorem restart_recovers_acknowledged (config : TenantConfig) {history : History}
    (reached : Runs.Reaches (History.step config) (Event.Fresh config) (.create config) history)
    (now : Int64) :
    ∃ tenant, history.tenant.restart config now = .ok tenant ∧
      ∀ later key, tenant.store.kv.keyspace later key =
        (applyAll (fun _ => none) history.acknowledged key).map plainState := by
  have recoverable : history.Recoverable config := by
    refine Runs.Reaches.invariant ⟨[], [], _, .create config⟩ ?_ reached
    rintro state event successor ⟨entries, transactions, base, durable⟩ fresh stepped
    exact durable.step fresh stepped
  obtain ⟨entries, transactions, base, durable⟩ := recoverable
  obtain ⟨store, restarted, plain⟩ := durable.restart now
  exact ⟨_, restarted, fun later key => plain.keyspace_eq later key⟩

theorem Durable.skipped (durable : Durable config history entries transactions base)
    (used : 0 < history.tenant.wal.seq) (nonce : Nonce) (now : Int64) (transaction : List Mutation)
    (nonempty : transaction.map Mutation.effect ≠ [])
    (fits : RecordFits config.enc
      (Append.record ⟨nonce, now, transaction.map Mutation.effect, nonempty⟩ 0)) :
    ∃ saved restarted written tenant, history.step config (.checkpoint now) = .ok saved ∧
      saved.step config (.restart now) = .ok restarted ∧
      restarted.step config (.write nonce now transaction) = .ok written ∧
      written.acknowledged = history.acknowledged ++ [transaction] ∧
      written.tenant.restart config now = .ok tenant ∧
      Plain tenant.store.kv history.keyspace := by
  have saved := durable.checkpoint now
  obtain ⟨store, restarted, -⟩ := saved.restart now
  have installed : installedSequence (history.tenant.checkpoint config now).snapshots =
      history.tenant.wal.seq := by
    simp only [Tenant.checkpoint, Tenant.saveCheckpoint, installedSequence, latest_saveCheckpoint]
    rfl
  let reopened : Tenant := { history.tenant.checkpoint config now with
    wal := ⟨(history.tenant.checkpoint config now).wal.dir, 0⟩
    store := store }
  let wal := reopened.wal.writeTransaction config.enc nonce now (transaction.map Mutation.effect)
  let written : Tenant := { reopened with
    wal := wal
    store := transaction.foldl (applyMutation now) store }
  let entry : LogEntry := ⟨nonce, ⟨1, now, transaction.map Mutation.effect⟩⟩
  have dir : wal.dir = LogImage.dir config.enc ⟨[], [entry]⟩ := by
    simp only [wal, reopened]
    rw [WAL.writeTransaction, dif_pos nonempty, saved.dir, write_dir]
    rfl
  have entryFits : ∀ logged ∈ [entry], RecordFits config.enc logged.record := by
    intro logged member
    rw [List.mem_singleton.mp member]
    exact ⟨fits.nonempty, fits.count, fits.size⟩
  have covered : replaySuffix (installedSequence written.snapshots)
      ([entry].map LogEntry.record) = [] := by
    have reused : ¬ history.tenant.wal.seq < 1 := by grind
    simp [replaySuffix, written, reopened, installed, entry, reused]
  have image : ImageHolds written.snapshots history.keyspace := saved.image
  have carried : (replaySuffix (installedSequence written.snapshots)
      ([entry].map LogEntry.record)).map WALRecord.effects =
        ([] : List (List Mutation)).map (List.map Mutation.effect) := by
    rw [covered]
    rfl
  obtain ⟨recovered, skipped, plain⟩ := @restart_replays config written [entry] []
    history.keyspace dir (List.pairwise_singleton _ _) entryFits image carried now
  refine ⟨{ history with tenant := history.tenant.checkpoint config now },
    { history with tenant := reopened },
    ⟨written, history.acknowledged ++ [transaction]⟩, _, rfl, ?_, rfl, rfl, skipped, plain⟩
  simp only [History.step]
  rw [restarted]
  rfl

def plainConfig : TenantConfig := ⟨⟨[], [], 0, 0, .float32⟩, none⟩

def zeroNonce : Nonce := .zero

def writeKey (value : Bytes) : Event := .write zeroNonce 0 [.set [0x6b] value]

/-- Of two writes to a key, the second one behind a checkpoint and a restart,
only the first is recovered. -/
theorem write_after_checkpointed_restart_lost :
    ∃ history tenant, Runs.Reaches (History.step plainConfig) (fun _ _ => True)
        (.create plainConfig) history ∧
      history.acknowledged = [[.set [0x6b] [0x76]], [.set [0x6b] [0x77]]] ∧
      history.tenant.restart plainConfig 0 = .ok tenant ∧
      tenant.store.kv.keyspace 0 [0x6b] = some (plainState [0x76]) ∧
      applyAll (fun _ => none) history.acknowledged [0x6b] = some [0x77] := by
  have first := (Durable.create plainConfig).write zeroNonce 0 [.set [0x6b] [0x76]]
    (by simp) (by decide) (by decide)
  obtain ⟨saved, restarted, written, tenant, checkpoint, restart, write, acknowledged, recovered,
    plain⟩ := first.skipped (by decide) zeroNonce 0 [.set [0x6b] [0x77]] (by simp) (by decide)
  have begun : (History.create plainConfig).step plainConfig (writeKey [0x76]) = .ok _ := rfl
  refine ⟨written, tenant, ?_, acknowledged, recovered, ?_, ?_⟩
  · exact .next _ (.next _ (.next _ (.next _ .start trivial begun) trivial checkpoint) trivial
      restart) trivial write
  · rw [plain.keyspace_eq]
    decide
  · rw [acknowledged]
    decide

/-- Without the restart in between, the second write is recovered. -/
theorem write_after_checkpoint_recovered :
    ∃ (history : History) (tenant : Tenant),
      history.acknowledged = [[.set [0x6b] [0x76]], [.set [0x6b] [0x77]]] ∧
      history.tenant.restart plainConfig 0 = .ok tenant ∧
      tenant.store.kv.keyspace 0 [0x6b] = some (plainState [0x77]) := by
  let reaches := Runs.Reaches (History.step plainConfig) (Event.Fresh plainConfig)
    (.create plainConfig)
  have first : reaches _ := .next (writeKey [0x76]) .start (fun _ => by decide +revert) rfl
  have saved : reaches _ := .next (.checkpoint 0) first trivial rfl
  have second : reaches _ := .next (writeKey [0x77]) saved (fun _ => by decide +revert) rfl
  obtain ⟨tenant, recovered, states⟩ := restart_recovers_acknowledged plainConfig second 0
  exact ⟨_, tenant, rfl, recovered, (states 0 [0x6b]).trans (by decide)⟩

end Dbx.Query
