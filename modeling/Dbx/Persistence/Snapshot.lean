import Dbx.Engine.VectorOps

/-!
# Checkpoint images

The image of the keyspace that a checkpoint writes, and the directory that holds
images and the `CURRENT` pointer. Images are kept decoded.
-/

set_option autoImplicit false

namespace Dbx.Persistence

open Dbx.Engine

structure WireEntry where
  value : Value MMapVectorIndex
  type : DataType
  expiresAt : Int64
deriving DecidableEq

def toWireEntry (entry : Entry MMapVectorIndex) : WireEntry :=
  { value := if entry.type = .vector then .nil else entry.value
    type := entry.type
    expiresAt := entry.expiresAt }

/-- What the encoding makes of a value: an empty byte slice comes back as nil. -/
def gobValue : Value MMapVectorIndex → Value MMapVectorIndex
  | .bytes (some []) => .bytes none
  | value => value

structure SnapshotImage where
  version : Nat
  sequence : UInt64
  vectorSeals : List IndexSeal
  entries : AList fun _ : Bytes => WireEntry

structure SnapshotFile where
  name : Int64
  modTime : Int64
  image : SnapshotImage

structure SnapshotDir where
  files : List SnapshotFile
  current : Option Int64

def SnapshotDir.empty : SnapshotDir := ⟨[], none⟩

def imageOf (now : Int64) (kv : KVStore MMapVectorIndex) (sequence : UInt64)
    (seals : List IndexSeal) : SnapshotImage :=
  { version := 2
    sequence := sequence
    vectorSeals := seals
    entries := KeyedStore.mapValues toWireEntry (kv.snapshot now) }

/-- Write an image and point `CURRENT` to it. -/
def saveCheckpoint (now : Int64) (kv : KVStore MMapVectorIndex) (sequence : UInt64)
    (seals : List IndexSeal) (dir : SnapshotDir) : SnapshotDir :=
  { files := ⟨now, now, imageOf now kv sequence seals⟩ ::
      dir.files.filter fun file => file.name ≠ now
    current := some now }

/-- The image that `CURRENT` names, or the newest one. -/
def SnapshotDir.latest (dir : SnapshotDir) : Option SnapshotFile :=
  match dir.current.bind fun name => dir.files.find? fun file => file.name = name with
  | some file => some file
  | none =>
    (dir.files.foldl (fun (latest : Option SnapshotFile × Int64) file =>
      if latest.2 < file.modTime then (some file, file.modTime) else latest) (none, 0)).1

/-- Store one entry of an image unless its deadline has passed. -/
def loadEntry (now : Int64) (kv : KVStore MMapVectorIndex) (key : Bytes) (entry : WireEntry) :
    KVStore MMapVectorIndex :=
  if deadlinePassed now entry.expiresAt then kv
  else kv.set now key (gobValue entry.value) entry.type (remainingTTL now entry.expiresAt)

def loadWithHeader (now : Int64) (image : SnapshotImage) (kv : KVStore MMapVectorIndex) :
    Except String (KVStore MMapVectorIndex) :=
  if image.version ≠ 2 then
    .error ("snapshot: unsupported version " ++ toString image.version ++
      "; use the offline v1 migration/reset tool")
  else .ok (image.entries.entries.foldl (fun kv entry => loadEntry now kv entry.1 entry.2) kv)

end Dbx.Persistence
