import Dbx.Query.Durability
import Dbx.Query.FrameLimits

/-!
# Crashes inside a checkpoint

The file operations of a checkpoint in their order, and what a start makes of a
directory that holds only the first of them.
-/

set_option autoImplicit false

namespace Dbx.Query

open Dbx.Engine Dbx.Persistence

/-!
## File operations
-/

/-- The log, the images and the pointer to the current one, with the temporary
files that are renamed into place. No start reads a temporary file. -/
structure CheckpointFiles where
  log : LogDir
  snapshots : SnapshotDir
  snapshotTmp : Option SnapshotFile
  currentTmp : Option Int64

inductive FileCall where
  | writeSnapshotTmp (file : SnapshotFile)
  | removeSnapshot (name : Int64)
  | renameSnapshot
  | writeCurrentTmp (name : Int64)
  | renameCurrent
  /-- Rename `wal.log` to the archived name of a sequence. -/
  | archiveLog (sequence : UInt64)
  | createLog
  | writeHeader
  | removeSegment (sequence : UInt64)

def FileCall.apply (enc : Option Encryptor) (files : CheckpointFiles) :
    FileCall → CheckpointFiles
  | .writeSnapshotTmp file => { files with snapshotTmp := some file }
  | .removeSnapshot name =>
    { files with snapshots := { files.snapshots with
        files := files.snapshots.files.filter fun file => file.name ≠ name } }
  | .renameSnapshot =>
    match files.snapshotTmp with
    | none => files
    | some file =>
      { files with
        snapshotTmp := none
        snapshots := { files.snapshots with
          files := file :: files.snapshots.files.filter fun old => old.name ≠ file.name } }
  | .writeCurrentTmp name => { files with currentTmp := some name }
  | .renameCurrent =>
    match files.currentTmp with
    | none => files
    | some name =>
      { files with
        currentTmp := none
        snapshots := { files.snapshots with current := some name } }
  | .archiveLog sequence =>
    match files.log.current with
    | none => files
    | some content =>
      { files with log := {
          archived := insertSegment sequence content files.log.archived
          current := none } }
  | .createLog => { files with log.current := some (files.log.current.getD []) }
  | .writeHeader =>
    { files with log.current := some (files.log.current.getD [] ++ walHeader enc) }
  | .removeSegment sequence =>
    { files with log.archived := files.log.archived.filter fun segment => segment.1 ≠ sequence }

def Tenant.files (tenant : Tenant) : CheckpointFiles :=
  ⟨tenant.wal.dir, tenant.snapshots, none, none⟩

def coveredSegments (sequence : UInt64) (archived : List (UInt64 × Bytes)) : List UInt64 :=
  (archived.map Prod.fst).filter fun name => name ≤ sequence

/-- The file operations of `Checkpoint` on images and log. -/
def Tenant.checkpointCalls (now : Int64) (tenant : Tenant) : List FileCall :=
  let store := tenant.store.flushDurable now
  let sequence := tenant.wal.seq
  let archived := insertSegment sequence (tenant.wal.dir.current.getD []) tenant.wal.dir.archived
  [.writeSnapshotTmp ⟨now, now, imageOf now store.kv sequence store.indexSeals⟩,
    .removeSnapshot now, .renameSnapshot, .writeCurrentTmp now, .renameCurrent,
    .archiveLog sequence, .createLog, .writeHeader] ++
    (coveredSegments sequence archived).map .removeSegment

def CheckpointFiles.run (enc : Option Encryptor) (files : CheckpointFiles)
    (calls : List FileCall) : CheckpointFiles :=
  calls.foldl (FileCall.apply enc) files

/-- What a crash leaves of a tenant whose checkpoint has made some of its calls. -/
def Tenant.crashedCheckpoint (config : TenantConfig) (now : Int64) (calls : Nat)
    (tenant : Tenant) : Tenant :=
  let files := tenant.files.run config.enc ((tenant.checkpointCalls now).take calls)
  { tenant with wal.dir := files.log, snapshots := files.snapshots }

/-!
## All calls make a checkpoint
-/

theorem run_removeSegments (enc : Option Encryptor) (names : List UInt64)
    (files : CheckpointFiles) :
    files.run enc (names.map .removeSegment) = { files with
      log.archived := files.log.archived.filter fun segment => segment.1 ∉ names } := by
  induction names generalizing files with
  | nil => simp [CheckpointFiles.run]
  | cons name names ih =>
    have rest := ih (FileCall.apply enc files (.removeSegment name))
    rw [CheckpointFiles.run, List.map_cons, List.foldl_cons, ← CheckpointFiles.run, rest]
    simp [FileCall.apply, List.filter_filter, Bool.and_comm]

/-- A checkpoint that is not interrupted is the one of a running tenant. -/
theorem crashedCheckpoint_complete (config : TenantConfig) (now : Int64) {tenant : Tenant}
    {content : Bytes} (present : tenant.wal.dir.current = some content) :
    tenant.crashedCheckpoint config now (tenant.checkpointCalls now).length =
      { tenant.checkpoint config now with store := tenant.store } := by
  have covered (archived : List (UInt64 × Bytes)) : archived.filter (fun segment =>
      segment.1 ∉ coveredSegments tenant.wal.seq archived) =
        archived.filter fun segment => tenant.wal.seq < segment.1 := by
    refine List.filter_congr fun segment member => ?_
    have listed : segment.1 ∈ archived.map Prod.fst := List.mem_map_of_mem member
    simp [coveredSegments, listed]
  simp only [Tenant.crashedCheckpoint, List.take_length, Tenant.checkpointCalls,
    CheckpointFiles.run, List.foldl_append, List.foldl_cons, List.foldl_nil]
  rw [← CheckpointFiles.run, run_removeSegments]
  simp only [Tenant.files, FileCall.apply, present, Option.getD_some, Option.getD_none,
    List.nil_append, covered, List.filter_filter, Bool.and_self]
  simp only [Tenant.checkpoint, Tenant.saveCheckpoint, saveCheckpoint, WAL.rotate, compactThrough,
    present, Option.getD_some]

/-!
## The image that a start finds
-/

/-- `CURRENT` names an image, or none has been written. -/
def Pointed (dir : SnapshotDir) : Prop :=
  (dir.current = none ∧ dir.files = []) ∨ ∃ file ∈ dir.files, dir.current = some file.name

/-- An image that is not pointed to is only found where it is the first. -/
theorem latest_written {dir : SnapshotDir} (pointed : Pointed dir) {file : SnapshotFile}
    (new : file.name ∉ dir.files.map SnapshotFile.name) :
    SnapshotDir.latest ⟨file :: dir.files, dir.current⟩ = dir.latest ∨
      SnapshotDir.latest ⟨file :: dir.files, dir.current⟩ = some file := by
  rcases pointed with ⟨unset, empty⟩ | ⟨held, member, named⟩
  · by_cases dated : 0 < file.modTime
    · exact .inr (by simp [SnapshotDir.latest, unset, empty, dated])
    · exact .inl (by simp [SnapshotDir.latest, unset, empty, dated])
  · have other : ¬ file.name = held.name := fun same =>
      new (same ▸ List.mem_map_of_mem member)
    have found : (dir.files.find? fun file => file.name = held.name).isSome := by
      rw [List.find?_isSome]
      exact ⟨held, member, by simp⟩
    obtain ⟨current, found⟩ := Option.isSome_iff_exists.mp found
    left
    simp [SnapshotDir.latest, named, other, found]

theorem latest_pointed {dir : SnapshotDir} {file : SnapshotFile}
    (pointed : dir.current = some file.name) (files : List SnapshotFile)
    (listed : dir.files = file :: files) : dir.latest = some file := by
  simp [SnapshotDir.latest, pointed, listed]

/-!
## The log that a start finds
-/

/-- Reading the log back yields the records, once it has been opened. -/
def Reads (enc : Option Encryptor) (dir : LogDir) (records : List WALRecord) : Prop :=
  ∃ wal, openWALEncrypted enc dir = .ok wal ∧ readAll enc wal.dir = .ok records

theorem reads_log {enc : Option Encryptor} {image : LogImage}
    (fits : ∀ entry ∈ image.entries, RecordFits enc entry.record)
    (ordered : InOrder image.entries) :
    Reads enc (image.dir enc) (image.entries.map LogEntry.record) :=
  ⟨_, openWALEncrypted_dir fits ordered, readAll_dir fits ordered⟩

/-- A missing, empty or fresh `wal.log` behind archived segments. -/
theorem reads_archived {enc : Option Encryptor} {archived : List (UInt64 × List LogEntry)}
    (fits : ∀ entry ∈ (LogImage.mk archived []).entries, RecordFits enc entry.record)
    (ordered : InOrder (LogImage.mk archived []).entries) {current : Option Bytes}
    (begun : current = none ∨ current = some [] ∨ current = some (walHeader enc)) :
    Reads enc ⟨((LogImage.mk archived []).dir enc).archived, current⟩
      ((LogImage.mk archived []).entries.map LogEntry.record) := by
  have header : openCurrent enc (current.getD []) = .ok (segmentOf enc []) := by
    have whole : segmentOf enc [] = walHeader enc := by simp [segmentOf]
    rcases begun with rfl | rfl | rfl
    · simp [openCurrent, whole]
    · simp [openCurrent, whole]
    · have opened := @openCurrent_segmentOf enc [] (by simp)
      rw [whole] at opened ⊢
      exact opened
  exact ⟨_, openWALEncrypted_ok header (readAll_dir fits ordered), readAll_dir fits ordered⟩

/-!
## What a crash leaves
-/

def Tenant.checkpointFile (now : Int64) (tenant : Tenant) : SnapshotFile :=
  let store := tenant.store.flushDurable now
  ⟨now, now, imageOf now store.kv tenant.wal.seq store.indexSeals⟩

inductive Archiving (enc : Option Encryptor) (sequence : UInt64) (entries : List LogEntry) :
    LogDir → Prop
  | whole : Archiving enc sequence entries (LogImage.dir enc ⟨[], entries⟩)
  | archived {current : Option Bytes}
      (begun : current = none ∨ current = some [] ∨ current = some (walHeader enc)) :
      Archiving enc sequence entries ⟨[(sequence, segmentOf enc entries)], current⟩
  | removed : Archiving enc sequence entries ⟨[], some (walHeader enc)⟩

/-- Up to the rename of `CURRENT` the log is whole. From then on the new image is found. -/
theorem crashedCheckpoint_cases {config : TenantConfig} {tenant : Tenant}
    {entries : List LogEntry} (now : Int64)
    (dir : tenant.wal.dir = LogImage.dir config.enc ⟨[], entries⟩)
    (pointed : Pointed tenant.snapshots)
    (new : now ∉ tenant.snapshots.files.map SnapshotFile.name) (calls : Nat) :
    let crashed := tenant.crashedCheckpoint config now calls
    (crashed.wal.dir = tenant.wal.dir ∧ crashed.snapshots.latest = tenant.snapshots.latest) ∨
      (Archiving config.enc tenant.wal.seq entries crashed.wal.dir ∧
        crashed.snapshots.latest = some (tenant.checkpointFile now)) := by
  have content : tenant.wal.dir.current = some (segmentOf config.enc entries) := by rw [dir]; rfl
  have archived : tenant.wal.dir.archived = [] := by rw [dir]; rfl
  have kept : (tenant.snapshots.files.filter fun file => file.name ≠ now) =
      tenant.snapshots.files := by
    rw [List.filter_eq_self]
    intro file member
    have other : file.name ≠ now := fun same => new (same ▸ List.mem_map_of_mem member)
    simpa using other
  have made : tenant.checkpointCalls now =
      [.writeSnapshotTmp (tenant.checkpointFile now), .removeSnapshot now, .renameSnapshot,
        .writeCurrentTmp now, .renameCurrent, .archiveLog tenant.wal.seq, .createLog,
        .writeHeader, .removeSegment tenant.wal.seq] := by
    simp [Tenant.checkpointCalls, archived, insertSegment, coveredSegments,
      Tenant.checkpointFile]
  have written := @latest_written tenant.snapshots pointed (tenant.checkpointFile now) new
  have found : SnapshotDir.latest ⟨tenant.checkpointFile now :: tenant.snapshots.files, some now⟩ =
      some (tenant.checkpointFile now) := latest_pointed rfl _ rfl
  have named : (tenant.checkpointFile now).name = now := rfl
  simp only [Tenant.crashedCheckpoint, made, CheckpointFiles.run, Tenant.files]
  rcases calls with _ | _ | _ | _ | _ | _ | _ | _ | _ | more
  · exact .inl ⟨rfl, rfl⟩
  · exact .inl ⟨rfl, rfl⟩
  · exact .inl ⟨rfl, by simp only [List.take, List.foldl, FileCall.apply, kept]⟩
  iterate 2
    -- An image that is not pointed to may be found already, with the log whole.
    · simp only [List.take, List.foldl, FileCall.apply, named, kept]
      exact written.imp (fun old => ⟨trivial, old⟩) fun file => ⟨dir ▸ .whole, file⟩
  · simp only [List.take, List.foldl, FileCall.apply, named, kept, found]
    exact .inr ⟨dir ▸ .whole, trivial⟩
  iterate 3
    · simp only [List.take, List.foldl, FileCall.apply, named, kept, found, content, archived,
        insertSegment, Option.getD_some, Option.getD_none, List.nil_append]
      exact .inr ⟨.archived (by simp), trivial⟩
  · simp only [List.take, List.take_nil, List.foldl, FileCall.apply, named, kept, found, content,
      archived, insertSegment, Option.getD_some, Option.getD_none, List.nil_append]
    exact .inr ⟨by simpa using Archiving.removed, trivial⟩

/-!
## Runs
-/

/-- One process writes and takes checkpoints, each under a name of its own. -/
def Event.Undisturbed (config : TenantConfig) (history : History) : Event → Prop
  | .write nonce now transaction => Event.Fresh config history (.write nonce now transaction)
  | .checkpoint now => now ∉ history.tenant.snapshots.files.map SnapshotFile.name
  | .restart _ => False

/-- A directory in which every crash of the next checkpoint is harmless. -/
structure History.Sheltered (config : TenantConfig) (history : History) : Prop where
  recoverable : history.Recoverable config
  pointed : Pointed history.tenant.snapshots

theorem Sheltered.step {config : TenantConfig} {history successor : History} {event : Event}
    (sheltered : history.Sheltered config) (undisturbed : event.Undisturbed config history)
    (stepped : history.step config event = .ok successor) : successor.Sheltered config := by
  obtain ⟨entries, transactions, base, durable⟩ := sheltered.recoverable
  cases event with
  | write nonce now transaction =>
    have fresh : Event.Fresh config history (.write nonce now transaction) := undisturbed
    refine ⟨durable.step fresh stepped, ?_⟩
    cases stepped
    exact sheltered.pointed
  | checkpoint now =>
    have fresh : Event.Fresh config history (.checkpoint now) := trivial
    refine ⟨durable.step fresh stepped, ?_⟩
    cases stepped
    exact .inr ⟨_, List.mem_cons_self, rfl⟩
  | restart now => exact absurd undisturbed id

theorem Durable.restart_covered {config : TenantConfig} {history : History}
    {entries : List LogEntry} {transactions : List (List Mutation)} {base : Keyspace}
    (durable : Durable config history entries transactions base) {now : Int64} {crashed : Tenant}
    (archiving : Archiving config.enc history.tenant.wal.seq entries crashed.wal.dir)
    (found : crashed.snapshots.latest = some (history.tenant.checkpointFile now))
    (later : Int64) :
    ∃ tenant, crashed.restart config later = .ok tenant ∧
      Plain tenant.store.kv history.keyspace := by
  obtain ⟨records, reads, bounded⟩ : ∃ records, Reads config.enc crashed.wal.dir records ∧
      ∀ rec ∈ records, rec.sequence ≤ history.tenant.wal.seq := by
    have bounded : ∀ rec ∈ entries.map LogEntry.record,
        rec.sequence ≤ history.tenant.wal.seq := by
      intro rec member
      obtain ⟨entry, listed, rfl⟩ := List.mem_map.mp member
      exact durable.bounded entry listed
    generalize crashed.wal.dir = dir at archiving
    cases archiving with
    | whole =>
      exact ⟨_, @reads_log config.enc ⟨[], entries⟩ durable.fits durable.ordered, bounded⟩
    | archived begun =>
      have all : (LogImage.mk [(history.tenant.wal.seq, entries)] []).entries = entries := by
        simp [LogImage.entries]
      have reads := @reads_archived config.enc [(history.tenant.wal.seq, entries)]
        (all.symm ▸ durable.fits) (all.symm ▸ durable.ordered) _ begun
      exact ⟨_, reads, all.symm ▸ bounded⟩
    | removed =>
      exact ⟨_, @reads_archived config.enc [] (by simp [LogImage.entries]) (by
        simp [LogImage.entries, InOrder]) _ (.inr (.inr rfl)), by simp [LogImage.entries]⟩
  obtain ⟨wal, opened, read⟩ := reads
  have flushed := durable.memory.flushDurable_eq now
  have seals : history.tenant.store.indexSeals = [] := by
    simp [Store.indexSeals, durable.memory.openIndexes_eq]
  have image : ImageHolds crashed.snapshots history.keyspace := by
    simp only [ImageHolds, found, Tenant.checkpointFile, flushed, seals]
    exact ⟨now, history.tenant.store.kv, history.tenant.wal.seq, rfl, durable.memory⟩
  have covered : replaySuffix (installedSequence crashed.snapshots) records = [] := by
    rw [replaySuffix, List.filter_eq_nil_iff]
    intro rec member
    simpa [installedSequence, found, Tenant.checkpointFile, imageOf] using bounded rec member
  obtain ⟨store, restarted, plain⟩ := @restart_reads config crashed wal records [] _ opened read
    image (by rw [covered]; rfl) later
  exact ⟨_, restarted, plain⟩

/-- Whatever part of a checkpoint has happened when the process stops, the next start
recovers every acknowledged transaction. -/
theorem crashed_checkpoint_recovers (config : TenantConfig) {history : History}
    (reached : Runs.Reaches (History.step config) (Event.Undisturbed config) (.create config)
      history) {now : Int64} (undisturbed : (Event.checkpoint now).Undisturbed config history)
    (calls : Nat) (later : Int64) :
    ∃ tenant, (history.tenant.crashedCheckpoint config now calls).restart config later =
        .ok tenant ∧
      ∀ instant key, tenant.store.kv.keyspace instant key =
        (applyAll (fun _ => none) history.acknowledged key).map plainState := by
  have sheltered : history.Sheltered config := by
    refine Runs.Reaches.invariant ⟨⟨[], [], _, .create config⟩, .inl ⟨rfl, rfl⟩⟩ ?_ reached
    intro state event successor sheltered undisturbed stepped
    exact Sheltered.step sheltered undisturbed stepped
  obtain ⟨entries, transactions, base, durable⟩ := sheltered.recoverable
  obtain ⟨tenant, restarted, plain⟩ : ∃ tenant,
      (history.tenant.crashedCheckpoint config now calls).restart config later = .ok tenant ∧
        Plain tenant.store.kv history.keyspace := by
    rcases crashedCheckpoint_cases now durable.dir sheltered.pointed undisturbed calls with
      ⟨dir, latest⟩ | ⟨archiving, found⟩
    · obtain ⟨store, restarted, plain⟩ := durable.restart_from dir latest later
      exact ⟨_, restarted, plain⟩
    · exact durable.restart_covered archiving found later
  exact ⟨tenant, restarted, fun instant key => plain.keyspace_eq instant key⟩

theorem openWALEncrypted_long {enc : Option Encryptor} {entry : LogEntry}
    (long : maxWALFrameSize < blockLength enc entry.record)
    (short : blockLength enc entry.record < 256 ^ 4) (archived : List (UInt64 × Bytes)) :
    ∃ message, openWALEncrypted enc ⟨archived, some (segmentOf enc [entry])⟩ = .error message := by
  have refused : repairOffset enc 8 (framesOf enc [entry]) =
      .error ("invalid WAL frame length " ++ toString (blockLength enc entry.record)) := by
    rw [framesOf_cons, LogEntry.frame_eq, List.append_assoc,
      repairOffset_word _ _ _ (BigEndian.length_encode 4 _), BigEndian.value_encode_of_lt short,
      if_pos (.inr long)]
  have unopened : openCurrent enc (segmentOf enc [entry]) =
      .error ("invalid WAL frame length " ++ toString (blockLength enc entry.record)) := by
    rw [segmentOf, openCurrent_header, repairWALTail_header, refused]
  exact ⟨_, by rw [openWALEncrypted, Option.getD_some, unopened]⟩

theorem blockLength_set (sequence : UInt64) (now : Int64) (key value : Bytes) :
    blockLength none ⟨sequence, now, [(Mutation.set key value).effect]⟩ =
      42 + key.length + value.length := by
  simp only [blockLength, List.map_cons, List.map_nil, List.sum_cons, List.sum_nil,
    WALEffect.encodedSize, Mutation.effect, sealOverhead]
  omega

theorem long_value_fails {value : Bytes} (long : maxWALFrameSize ≤ value.length)
    (short : 43 + value.length < 256 ^ 4) :
    ∃ history, Runs.Reaches (History.step plainConfig) (fun _ _ => True) (.create plainConfig)
        history ∧
      history.acknowledged = [[.set [0x6b] value]] ∧
      ∃ message, (history.tenant.crashedCheckpoint plainConfig 1 1).restart plainConfig 1 =
        .error message := by
  let transaction : List Mutation := [.set [0x6b] value]
  let entry : LogEntry := ⟨zeroNonce, ⟨1, 0, transaction.map Mutation.effect⟩⟩
  have block : blockLength none entry.record = 42 + 1 + value.length :=
    blockLength_set 1 0 [0x6b] value
  obtain ⟨history, written, acknowledged, dir⟩ : ∃ history : History,
      (History.create plainConfig).step plainConfig (.write zeroNonce 0 transaction) =
        .ok history ∧ history.acknowledged = [transaction] ∧
      history.tenant.wal.dir = ⟨[], some (segmentOf none [entry])⟩ := by
    refine ⟨_, rfl, rfl, ?_⟩
    have nonempty : transaction.map Mutation.effect ≠ [] := by simp [transaction]
    have created : (History.create plainConfig).tenant.wal =
        ⟨LogImage.dir none ⟨[], []⟩, 0⟩ := rfl
    dsimp only
    rw [WAL.writeTransaction, dif_pos nonempty, created, show plainConfig.enc = none from rfl,
      write_dir]
    rfl
  refine ⟨history, .next _ .start trivial written, acknowledged, ?_⟩
  have kept : (history.tenant.crashedCheckpoint plainConfig 1 1).wal.dir =
      history.tenant.wal.dir := rfl
  obtain ⟨message, unopened⟩ := @openWALEncrypted_long none entry
    (by rw [block]; omega) (by rw [block]; omega) []
  exact ⟨_, by rw [Tenant.restart, kept, dir, show plainConfig.enc = none from rfl, unopened]⟩

theorem long_value_unrecoverable :
    ∃ history, Runs.Reaches (History.step plainConfig) (fun _ _ => True) (.create plainConfig)
        history ∧
      history.acknowledged = [[.set [0x6b] (List.replicate maxWALFrameSize 0)]] ∧
      ∃ message, (history.tenant.crashedCheckpoint plainConfig 1 1).restart plainConfig 1 =
        .error message := by
  have size : (List.replicate maxWALFrameSize (0 : UInt8)).length = maxWALFrameSize :=
    List.length_replicate
  exact long_value_fails (Nat.le_of_eq size.symm) (by rw [size]; decide)

/-- A write behind a checkpoint, and a crash of the second checkpoint between the rename of
`wal.log` and the creation of the next one. -/
theorem crashed_second_checkpoint_recovers :
    ∃ (history : History) (tenant : Tenant),
      history.acknowledged = [[.set [0x6b] [0x76]], [.set [0x6b] [0x77]]] ∧
      (history.tenant.crashedCheckpoint plainConfig 2 6).wal.dir.current = none ∧
      (history.tenant.crashedCheckpoint plainConfig 2 6).restart plainConfig 3 = .ok tenant ∧
      tenant.store.kv.keyspace 3 [0x6b] = some (plainState [0x77]) := by
  let reaches := Runs.Reaches (History.step plainConfig) (Event.Undisturbed plainConfig)
    (.create plainConfig)
  have first : reaches _ := .next (writeKey [0x76]) .start (fun _ => by decide +revert) rfl
  have saved : reaches _ := .next (.checkpoint 1) first List.not_mem_nil rfl
  have second : reaches _ := .next (writeKey [0x77]) saved (fun _ => by decide +revert) rfl
  obtain ⟨tenant, recovered, states⟩ := @crashed_checkpoint_recovers plainConfig _ second 2
    (show (2 : Int64) ∉ [(1 : Int64)] by decide) 6 3
  exact ⟨_, tenant, rfl, rfl, recovered, (states 3 [0x6b]).trans (by decide)⟩

end Dbx.Query
