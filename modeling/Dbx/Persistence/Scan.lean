import Dbx.Persistence.Frame

/-!
# Reading the log

The frame loop shared by every reader and the separate loop that repairs the
tail of `wal.log` when a log is opened. The two classify the end of the file on
their own.
-/

set_option autoImplicit false

namespace Dbx.Persistence

/-- Records handed to the callback of a scan, in order, and the error that
ended it. Callbacks run before the next frame is read, so a callback that never
stops the scan sees exactly these records. -/
structure Scan where
  records : List WALRecord
  error : Option String
deriving DecidableEq, Repr

def Scan.done : Scan := ⟨[], none⟩

def Scan.failed (message : String) : Scan := ⟨[], some message⟩

def Scan.cons (rec : WALRecord) (scan : Scan) : Scan :=
  ⟨rec :: scan.records, scan.error⟩

def Scan.result (scan : Scan) : Except String (List WALRecord) :=
  match scan.error with
  | none => .ok scan.records
  | some message => .error message

def minBlockLength : Option Encryptor → Nat
  | none => 1 + 8 + 8 + 4 + 4
  | some _ => 12 + 16

/-- Decode one frame after another until the stream ends. A frame cut short by
the end of the stream is tolerated only as a partial tail. -/
def scanFrames (allowPartialTail : Bool) (enc : Option Encryptor) (r : Bytes) : Scan :=
  match _ : ExactRead.read 4 r with
  | .endOfStream => .done
  | .unexpectedEnd =>
    if allowPartialTail then .done else .failed "WAL frame length: unexpected EOF"
  | .complete lengthBuf rest =>
    let frameLen := BigEndian.value lengthBuf
    if frameLen < minBlockLength enc ∨ maxWALFrameSize < frameLen then
      .failed ("invalid WAL frame length " ++ toString frameLen)
    else
      match _ : ExactRead.read frameLen rest with
      | .endOfStream => .failed "WAL frame payload: EOF"
      | .unexpectedEnd =>
        if allowPartialTail then .done else .failed "WAL frame payload: unexpected EOF"
      | .complete frame rest =>
        match decodeBlock enc frame with
        | .error message => .failed message
        | .ok rec => .cons rec (scanFrames allowPartialTail enc rest)
termination_by r.length
decreasing_by
  obtain ⟨rfl, lengthSize⟩ := ExactRead.read_eq_complete ‹ExactRead.read 4 _ = _›
  obtain ⟨rfl, -⟩ := ExactRead.read_eq_complete ‹ExactRead.read frameLen _ = _›
  simp only [List.length_append]
  omega

def decodeFrames (r : Bytes) (allowPartialTail : Bool) (enc : Option Encryptor) :
    Except String (List WALRecord) :=
  (scanFrames allowPartialTail enc r).result

def decodeRecord (data : Bytes) : Except String WALRecord :=
  match decodeFrames data false none with
  | .error message => .error message
  | .ok [rec] => .ok rec
  | .ok records => .error ("expected one WAL record, got " ++ toString records.length)

def walHeader : Option Encryptor → Bytes
  | none => walV2Magic
  | some _ => walEncMagic

/-- Check the header of a segment and scan the frames behind it. -/
def scanRecordsMode (r : Bytes) (allowPartialTail : Bool) (enc : Option Encryptor) : Scan :=
  match ExactRead.read walV2Magic.length r with
  | .endOfStream => .failed "missing WAL v2 header: EOF"
  | .unexpectedEnd => .failed "missing WAL v2 header: unexpected EOF"
  | .complete header rest =>
    if header ≠ walHeader enc then .failed "unsupported WAL format"
    else scanFrames allowPartialTail enc rest

/-- The loop of `repairWALTail` over the frames still unread. The result is the
offset to truncate the file to, or none when the file ends on a frame. -/
def repairOffset (enc : Option Encryptor) (validOffset : Nat) (r : Bytes) :
    Except String (Option Nat) :=
  match _ : ExactRead.read 4 r with
  | .endOfStream => .ok none
  | .unexpectedEnd => .ok (some validOffset)
  | .complete length rest =>
    let frameLen := BigEndian.value length
    if frameLen < minBlockLength enc ∨ maxWALFrameSize < frameLen then
      .error ("invalid WAL frame length " ++ toString frameLen)
    else
      match _ : ExactRead.read frameLen rest with
      | .endOfStream => .error "EOF"
      | .unexpectedEnd => .ok (some validOffset)
      | .complete frame rest =>
        match decodeFrames (length ++ frame) false enc with
        | .error message => .error message
        | .ok _ => repairOffset enc (validOffset + (4 + frameLen)) rest
termination_by r.length
decreasing_by
  obtain ⟨rfl, lengthSize⟩ := ExactRead.read_eq_complete ‹ExactRead.read 4 _ = _›
  obtain ⟨rfl, -⟩ := ExactRead.read_eq_complete ‹ExactRead.read frameLen _ = _›
  simp only [List.length_append]
  omega

/-- Drop an incomplete last frame from the file. The result is what the file
holds afterwards. -/
def repairWALTail (file : Bytes) (enc : Option Encryptor) : Except String Bytes :=
  match ExactRead.read walV2Magic.length file with
  | .endOfStream | .unexpectedEnd => .error "unsupported WAL format"
  | .complete header rest =>
    if header ≠ walHeader enc then
      .error "unsupported WAL format"
    else
      match repairOffset enc header.length rest with
      | .error message => .error message
      | .ok none => .ok file
      | .ok (some offset) => .ok (file.take offset)

end Dbx.Persistence
