import Dbx.Persistence.Scan

/-!
# The log directory

Segments, the open log and its sequence counter: opening, appending, rotation
and compaction. File operations succeed, and an append is durable before it is
acknowledged, which is what the sync mode `always` waits for.
-/

set_option autoImplicit false

namespace Dbx.Persistence

/-- The segment files of one log. An archived segment is named by the sequence
it was rotated at; the twenty-digit names make name order sequence order, and
every archived name sorts before `wal.log`. -/
structure LogDir where
  archived : List (UInt64 × Bytes)
  current : Option Bytes
deriving DecidableEq, Repr

/-- `fmt.Sprintf("wal-%020d.log", seq)`. -/
def archivedName (seq : UInt64) : String :=
  "wal-" ++ String.ofList ((toString seq.toNat).toList.leftpad 20 '0') ++ ".log"

def insertSegment (seq : UInt64) (content : Bytes) :
    List (UInt64 × Bytes) → List (UInt64 × Bytes)
  | [] => [(seq, content)]
  | (name, old) :: rest =>
    if seq < name then (seq, content) :: (name, old) :: rest
    else if seq = name then (seq, content) :: rest
    else (name, old) :: insertSegment seq content rest

def Scan.append (first second : Scan) : Scan :=
  match first.error with
  | some _ => first
  | none => ⟨first.records ++ second.records, second.error⟩

def scanSegment (enc : Option Encryptor) (name : String) (isCurrent : Bool) (content : Bytes) :
    Scan :=
  let scan := scanRecordsMode content isCurrent enc
  ⟨scan.records, scan.error.map fun message => name ++ ": " ++ message⟩

def scanSegments (enc : Option Encryptor) (dir : LogDir) : Scan :=
  let current :=
    match dir.current with
    | none => Scan.done
    | some content => scanSegment enc "wal.log" true content
  dir.archived.foldr
    (fun (segment : UInt64 × Bytes) later =>
      (scanSegment enc (archivedName segment.1) false segment.2).append later) current

def readAll (enc : Option Encryptor) (dir : LogDir) : Except String (List WALRecord) :=
  match (scanSegments enc dir).result with
  | .error message => .error message
  | .ok records => .ok (records.mergeSort fun left right => left.sequence ≤ right.sequence)

structure WAL where
  dir : LogDir
  seq : UInt64
deriving DecidableEq, Repr

def lastSequence (records : List WALRecord) : UInt64 :=
  records.foldl (fun seq rec => if seq < rec.sequence then rec.sequence else seq) 0

/-- What `wal.log` holds once it has been created or repaired. -/
def openCurrent (enc : Option Encryptor) (file : Bytes) : Except String Bytes :=
  if file.length = 0 then .ok (walHeader enc) else repairWALTail file enc

/-- Open or create the log. The counter continues from the records that are
still in the segments and from nothing else. -/
def openWALEncrypted (enc : Option Encryptor) (dir : LogDir) : Except String WAL :=
  match openCurrent enc (dir.current.getD []) with
  | .error message =>
    .error ("wal: open v2 log: " ++ message ++ " (legacy WALs require offline reset/migration)")
  | .ok file =>
    let dir := { dir with current := some file }
    match readAll enc dir with
    | .error message => .error ("wal: validate segments: " ++ message)
    | .ok records => .ok ⟨dir, lastSequence records⟩

/-- What one frame is made from: the effects of a transaction, the clock and the
nonce that a sealed frame draws. -/
structure Append where
  nonce : Nonce
  timestamp : Int64
  effects : List WALEffect
  nonempty : effects ≠ []

def Append.record (append : Append) (sequence : UInt64) : WALRecord :=
  ⟨sequence, append.timestamp, append.effects⟩

/-- Assign the next sequence and append the frame to `wal.log`. -/
def WAL.write (enc : Option Encryptor) (wal : WAL) (append : Append) : WAL :=
  let sequence := wal.seq + 1
  let frame := encodeRecord enc append.nonce (append.record sequence)
  { dir := { wal.dir with current := some (wal.dir.current.getD [] ++ frame) }
    seq := sequence }

def WAL.writeTransaction (enc : Option Encryptor) (nonce : Nonce) (timestamp : Int64)
    (effects : List WALEffect) (wal : WAL) : WAL :=
  if nonempty : effects ≠ [] then wal.write enc ⟨nonce, timestamp, effects, nonempty⟩ else wal

/-- Archive `wal.log` under the current sequence and start it afresh. -/
def WAL.rotate (enc : Option Encryptor) (wal : WAL) : WAL :=
  { wal with dir := {
      archived := insertSegment wal.seq (wal.dir.current.getD []) wal.dir.archived
      current := some (walHeader enc) } }

/-- Remove the archived segments whose name is covered by a checkpoint. -/
def compactThrough (checkpointSequence : UInt64) (dir : LogDir) : LogDir :=
  { dir with archived := dir.archived.filter fun segment => checkpointSequence < segment.1 }

end Dbx.Persistence
