import Dbx.Persistence.Log
import Dbx.Persistence.Payload
import Dbx.Persistence.Snapshot

/-!
# Recovery

Loading the latest checkpoint image and replaying the log on top of it.
-/

set_option autoImplicit false

namespace Dbx.Persistence

open Dbx.Engine

/-- The slice that decoding a value yields: nil when it is empty. -/
def sliceOf (data : Bytes) : Value MMapVectorIndex :=
  .bytes (if data = [] then none else some data)

/-- The seconds that replaying an expiry grants: whole ones, and at least one. -/
def replaySeconds (remaining : Int64) : Int64 :=
  if remaining / second < 1 then 1 else remaining / second

def recoveryResult {α : Type} (what : String) (sequence : UInt64)
    (result : Except String α × Store) : Except String Unit × Store :=
  match result with
  | (.ok _, store) => (.ok (), store)
  | (.error message, store) =>
    (.error ("recovery: " ++ what ++ " sequence " ++ toString sequence.toNat ++ ": " ++ message),
      store)

def recoverySet (now : Int64) (effect : WALEffect) (store : Store) : Store :=
  if deadlinePassed now effect.expiresAt then store.delete1 now effect.key
  else
    let ttl := remainingTTL now effect.expiresAt
    { store with kv := store.kv.set now effect.key (sliceOf effect.value) .string ttl }

def recoveryExpire (now : Int64) (effect : WALEffect) (store : Store) : Store :=
  if effect.expiresAt ≤ 0 then { store with kv := (store.kv.persist now effect.key).2 }
  else if deadlinePassed now effect.expiresAt then store.delete1 now effect.key
  else
    let seconds := replaySeconds (remainingTTL now effect.expiresAt)
    { store with kv := (store.kv.expire now effect.key seconds).2 }

def applyRecoveredEffect (config : VectorConfig) (now : Int64) (sequence : UInt64)
    (effect : WALEffect) (store : Store) : Except String Unit × Store :=
  let invalid (what : String) : Except String Unit × Store :=
    (.error ("recovery: invalid " ++ what ++ " sequence " ++ toString sequence.toNat), store)
  if effect.type = recordSet then (.ok (), recoverySet now effect store)
  else if effect.type = recordDelete then (.ok (), store.delete1 now effect.key)
  else if effect.type = recordExpire then (.ok (), recoveryExpire now effect store)
  else if effect.type = recordVAdd then
    let (docID, vector) := decodeVAddPayload effect.value
    if docID = [] ∨ vector = [] then invalid "vector record"
    else recoveryResult "vector add" sequence (store.vAdd config now effect.key docID vector)
  else if effect.type = recordVAddBatch then
    match decodeVAddBatchPayload effect.value with
    | none => (.error "runtime error: slice bounds out of range", store)
    | some (dim, items) =>
      if dim = 0 ∨ items = [] then invalid "vector batch"
      else recoveryResult "vector batch" sequence (store.vAddBatch config now effect.key dim items)
  else if effect.type = recordVTombstone then
    recoveryResult "vector tombstone" sequence (store.vDel config now effect.key effect.value)
  else if effect.type = recordVMigrateStart then
    match decodeVMigrateStartPayload effect.value with
    | .error message =>
      recoveryResult "invalid migrate start" sequence (α := Unit) (.error message, store)
    | .ok (dim, encoding) =>
      recoveryResult "migrate start" sequence
        (store.startMigration config now effect.key dim encoding)
  else if effect.type = recordVMigrateAdd then
    let (docID, vector) := decodeVAddPayload effect.value
    if docID = [] ∨ vector = [] then invalid "migrate add"
    else
      recoveryResult "migrate add" sequence
        (store.insertShadowVector config now effect.key docID vector)
  else if effect.type = recordVMigrateSwap then
    recoveryResult "migrate swap" sequence (store.swapMigration config now effect.key)
  else if effect.type = recordVMigrateCancel then
    recoveryResult "migrate cancel" sequence (store.cancelMigration config now effect.key)
  else if effect.type = recordDeleteIndex then (.ok (), store.delete1 now effect.key)
  else
    (.error ("recovery: unsupported effect type " ++ toString effect.type.toNat ++
      " at sequence " ++ toString sequence.toNat), store)

def replayEffects (config : VectorConfig) (now : Int64) (sequence : UInt64) :
    List WALEffect → Store → Except String Unit × Store
  | [], store => (.ok (), store)
  | effect :: effects, store =>
    match applyRecoveredEffect config now sequence effect store with
    | (.error message, store) => (.error message, store)
    | (.ok (), store) => replayEffects config now sequence effects store

def replayRecords (config : VectorConfig) (now : Int64) :
    List WALRecord → Store → Except String Unit × Store
  | [], store => (.ok (), store)
  | rec :: records, store =>
    match replayEffects config now rec.sequence rec.effects store with
    | (.error message, store) => (.error message, store)
    | (.ok (), store) => replayRecords config now records store

structure Loaded where
  kv : KVStore MMapVectorIndex
  sequence : UInt64
  seals : List IndexSeal

def loadLatest (now : Int64) (snapshots : SnapshotDir) : Except String Loaded :=
  match snapshots.latest with
  | none => .ok ⟨.new, 0, []⟩
  | some file =>
    match loadWithHeader now file.image .new with
    | .error message =>
      .error ("recovery: load checkpoint snapshot-" ++ toString file.name.toInt ++ ".rdb: " ++
        message)
    | .ok kv => .ok ⟨kv, file.image.sequence, file.image.vectorSeals⟩

def replaySuffix (checkpointSequence : UInt64) (records : List WALRecord) : List WALRecord :=
  records.filter fun rec => checkpointSequence < rec.sequence

def swappedKeys (records : List WALRecord) : List Bytes :=
  (records.flatMap WALRecord.effects).filterMap fun effect =>
    if effect.type = recordVMigrateSwap then some effect.key else none

/-- Load the latest image, check the seals of the indexes that no later record
promotes, and replay what comes after the image. -/
def recover (config : VectorConfig) (enc : Option Encryptor) (now : Int64) (log : LogDir)
    (snapshots : SnapshotDir) (disk : Disk) : Except String Unit × Store :=
  match loadLatest now snapshots with
  | .error message => (.error message, ⟨.new, disk⟩)
  | .ok loaded =>
    match readAll enc log with
    | .error message => (.error ("recovery: read wal: " ++ message), ⟨loaded.kv, disk⟩)
    | .ok records =>
      let records := replaySuffix loaded.sequence records
      let seals := loaded.seals.filter fun want => want.key ∉ swappedKeys records
      match Store.reopenPersisted config now ⟨loaded.kv, disk⟩ with
      | (.error message, store) =>
        (.error ("recovery: reopen vector indexes: " ++ message), store)
      | (.ok (), store) =>
        match store.verifySeals seals with
        | .error message => (.error ("recovery: vector seal mismatch: " ++ message), store)
        | .ok () => replayRecords config now records store

end Dbx.Persistence
