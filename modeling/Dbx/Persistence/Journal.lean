import Dbx.Library.Runs
import Dbx.Persistence.CrashImage
import Mathlib.Data.List.Flatten
import Mathlib.Data.List.TakeWhile

/-!
# The log under concurrent writers

A writer takes its sequence under one lock and queues its record, a single flusher
writes the queue to a buffer, the buffer reaches `wal.log` in pieces, and a rotation
may come between any two of these steps. What is read of the segments is in sequence
order throughout, and the history of one key is a slice of it.
-/

set_option autoImplicit false

namespace Dbx.Persistence

def WALRecord.on (key : Bytes) (rec : WALRecord) : Option WALRecord :=
  let effects := rec.effects.filter (·.key = key)
  if effects = [] then none else some { rec with effects }

/-- `sort.Search` over a sorted list finds the first record at or behind the cutoff. -/
def readKeyHistory (enc : Option Encryptor) (dir : LogDir) (key : Bytes) (instant : Int64) :
    Except String (List WALRecord) :=
  let scan := scanSegments enc dir
  let before := scan.records.takeWhile (·.timestamp ≤ instant)
  let matched := (before.filterMap (WALRecord.on key)).mergeSort fun left right =>
    left.sequence ≤ right.sequence
  match scan.records.drop before.length, scan.error with
  | stopped :: _, _ => .ok (matched.takeWhile (·.sequence < stopped.sequence))
  | [], some message => .error message
  | [], none => .ok (matched.takeWhile (·.sequence < 0xffffffffffffffff))

/-- What `readKeyHistory` is to return of a log. -/
def keySlice (key : Bytes) (instant : Int64) (records : List WALRecord) : List WALRecord :=
  (records.takeWhile (·.timestamp ≤ instant)).filterMap (WALRecord.on key)

theorem WALRecord.on_sequence {key : Bytes} {rec reduced : WALRecord}
    (some : rec.on key = some reduced) : reduced.sequence = rec.sequence := by
  simp only [WALRecord.on] at some
  split at some
  · cases some
  · cases some
    rfl

def LogImage.records (image : LogImage) : List WALRecord := image.entries.map LogEntry.record

def Ascending (records : List WALRecord) : Prop :=
  records.Pairwise fun earlier later => earlier.sequence < later.sequence

variable {records : List WALRecord}

theorem keySlice_ascending (ordered : Ascending records) (key : Bytes) (instant : Int64) :
    Ascending (keySlice key instant records) := by
  have front : Ascending (records.takeWhile (·.timestamp ≤ instant)) :=
    ordered.sublist (List.takeWhile_sublist _)
  refine front.filterMap _ fun earlier later before first some second some' => ?_
  rw [WALRecord.on_sequence some, WALRecord.on_sequence some']
  exact before

theorem mergeSort_ascending (ordered : Ascending records) :
    (records.mergeSort fun left right => left.sequence ≤ right.sequence) = records :=
  List.mergeSort_of_pairwise (ordered.imp fun before => by simpa using UInt64.le_of_lt before)

theorem takeWhile_below {key : Bytes} {instant : Int64} {cutoff : UInt64}
    (below : ∀ rec ∈ records.takeWhile (·.timestamp ≤ instant), rec.sequence < cutoff) :
    (keySlice key instant records).takeWhile (·.sequence < cutoff) =
      keySlice key instant records := by
  refine List.takeWhile_eq_self_iff.2 fun reduced member => ?_
  obtain ⟨rec, listed, some⟩ := List.mem_filterMap.1 member
  rw [decide_eq_true_eq, WALRecord.on_sequence some]
  exact below rec listed

variable {enc : Option Encryptor}

/-- Of a log in sequence order, the early end of the scan and the sort cut off nothing
else. What the scan would have failed at behind its end does not matter. -/
theorem readKeyHistory_eq {dir : LogDir} {error : Option String}
    (scanned : scanSegments enc dir = ⟨records, error⟩) (ordered : Ascending records)
    (bounded : ∀ rec ∈ records, rec.sequence < 0xffffffffffffffff) (key : Bytes) (instant : Int64)
    (ends : error = none ∨ records.dropWhile (·.timestamp ≤ instant) ≠ []) :
    readKeyHistory enc dir key instant = .ok (keySlice key instant records) := by
  have split := List.takeWhile_append_dropWhile (p := fun rec : WALRecord =>
    decide (rec.timestamp ≤ instant)) (l := records)
  have rest : records.drop (records.takeWhile (·.timestamp ≤ instant)).length =
      records.dropWhile (·.timestamp ≤ instant) := by
    conv => lhs; arg 2; rw [← split]
    exact List.drop_left
  have sorted := mergeSort_ascending (keySlice_ascending ordered key instant)
  rw [keySlice] at sorted
  simp only [readKeyHistory, scanned, rest, sorted]
  cases later : records.dropWhile (·.timestamp ≤ instant) with
  | nil =>
    cases ends.resolve_right fun behind => behind later
    refine congrArg Except.ok (takeWhile_below fun rec listed => ?_)
    exact bounded rec (List.takeWhile_subset _ listed)
  | cons stopped behind =>
    refine congrArg Except.ok (takeWhile_below fun rec listed => ?_)
    rw [← split, later, Ascending, List.pairwise_append] at ordered
    exact ordered.2.2 rec listed stopped (List.mem_cons_self ..)

structure Journal where
  archived : List (UInt64 × Bytes)
  /-- What `wal.log` holds. -/
  file : Bytes
  buffer : Bytes
  seq : UInt64
  /-- The record of the writer that has the lock, until it is queued. -/
  held : Option WALRecord
  queue : List WALRecord
deriving DecidableEq, Repr

inductive JournalEvent where
  | assign (timestamp : Int64) (effects : List WALEffect)
  | send
  | write (nonce : Nonce)
  | drop
  | flush (count : Nat)
  | rotate

namespace Journal

def dir (j : Journal) : LogDir := ⟨j.archived, some j.file⟩

def step (enc : Option Encryptor) (j : Journal) : JournalEvent → Except String Journal
  | .assign timestamp effects =>
    if effects = [] then .ok j
    else
      match j.held with
      | some _ => .error "locked"
      | none =>
        let sequence := j.seq + 1
        .ok { j with seq := sequence, held := some ⟨sequence, timestamp, effects⟩ }
  | .send =>
    match j.held with
    | none => .error "not locked"
    | some rec => .ok { j with held := none, queue := j.queue ++ [rec] }
  | .write nonce =>
    match j.queue with
    | [] => .error "empty queue"
    | rec :: queue =>
      .ok { j with buffer := j.buffer ++ encodeRecord enc nonce rec, queue }
  | .drop => .ok { j with queue := j.queue.tail }
  | .flush count =>
    .ok { j with file := j.file ++ j.buffer.take count, buffer := j.buffer.drop count }
  | .rotate =>
    .ok { j with
      archived := insertSegment j.seq (j.file ++ j.buffer) j.archived
      file := walHeader enc
      buffer := [] }

def opened (enc : Option Encryptor) (image : LogImage) (seq : UInt64) : Journal where
  archived := (image.dir enc).archived
  file := segmentOf enc image.current
  buffer := []
  seq
  held := none
  queue := []

def Quiet (j : Journal) : Prop := j.buffer = [] ∧ j.held = none ∧ j.queue = []

/-- The log is in order whenever it is read, and every key history is a slice of it where
all is written and synced. -/
structure Exact (enc : Option Encryptor) (j : Journal) : Prop where
  ordered : Ascending (scanSegments enc j.dir).records
  slices : j.Quiet → ∃ records, readAll enc j.dir = .ok records ∧
    ∀ key instant, readKeyHistory enc j.dir key instant = .ok (keySlice key instant records)

/-- A reader accepts the record, and its sequence is not the last one. -/
def Readable (enc : Option Encryptor) (j : Journal) : JournalEvent → Prop
  | .assign timestamp effects => effects ≠ [] →
      RecordFits enc ⟨j.seq + 1, timestamp, effects⟩ ∧ j.seq.toNat + 2 < 2 ^ 64
  | _ => True

/-- The segments hold the entries of the image, and with the records on their way to them
they are in order. No name is above the counter. -/
structure Tracks (enc : Option Encryptor) (image : LogImage) (j : Journal) : Prop where
  archived : j.archived = (image.dir enc).archived
  current : j.file ++ j.buffer = segmentOf enc image.current
  header : 8 ≤ j.file.length
  names : (image.archived.map Prod.fst).Pairwise (· < ·)
  named : ∀ name ∈ image.archived.map Prod.fst, name ≤ j.seq
  ordered : Ascending (image.records ++ (j.queue ++ j.held.toList))
  bounded : ∀ rec ∈ image.records ++ (j.queue ++ j.held.toList), rec.sequence ≤ j.seq
  fits : ∀ rec ∈ image.records ++ (j.queue ++ j.held.toList), RecordFits enc rec
  room : j.seq.toNat + 1 < 2 ^ 64

theorem insertSegment_last {seq : UInt64} (content : Bytes) {archived : List (UInt64 × Bytes)}
    (names : (archived.map Prod.fst).Pairwise (· < ·))
    (named : ∀ name ∈ archived.map Prod.fst, name ≤ seq) :
    insertSegment seq content archived =
      archived.filter (fun segment => segment.1 < seq) ++ [(seq, content)] := by
  induction archived with
  | nil => rfl
  | cons segment archived ih =>
    obtain ⟨name, old⟩ := segment
    rw [List.map_cons, List.pairwise_cons] at names
    rw [List.map_cons, List.forall_mem_cons] at named
    rw [insertSegment, if_neg (UInt64.not_lt.2 named.1)]
    by_cases same : seq = name
    · have none : archived = [] := by
        refine List.eq_nil_iff_forall_not_mem.2 fun other member => ?_
        have above := names.1 other.1 (List.mem_map_of_mem member)
        have below := named.2 other.1 (List.mem_map_of_mem member)
        rw [← same] at above
        exact absurd above (UInt64.not_lt.2 below)
      rw [if_pos same, none, same, List.filter_cons_of_neg (by simp), List.filter_nil,
        List.nil_append]
    · have below : name < seq :=
        UInt64.lt_of_le_of_ne named.1 fun equal => same equal.symm
      rw [if_neg same, ih names.2 named.2, List.filter_cons_of_pos (by simpa using below),
        List.cons_append]

namespace Tracks

variable {enc : Option Encryptor} {image : LogImage} {j : Journal}

theorem opened {image : LogImage} {seq : UInt64}
    (names : (image.archived.map Prod.fst).Pairwise (· < ·))
    (named : ∀ name ∈ image.archived.map Prod.fst, name ≤ seq) (ordered : Ascending image.records)
    (bounded : ∀ rec ∈ image.records, rec.sequence ≤ seq)
    (fits : ∀ rec ∈ image.records, RecordFits enc rec) (room : seq.toNat + 1 < 2 ^ 64) :
    Tracks enc image (Journal.opened enc image seq) where
  archived := rfl
  current := List.append_nil _
  header := by simp [Journal.opened, segmentOf]
  names := names
  named := named
  ordered := by simpa [Journal.opened] using ordered
  bounded := by simpa [Journal.opened] using bounded
  fits := by simpa [Journal.opened] using fits
  room := room

section

variable {j' : Journal} {rec : WALRecord} (tracks : Tracks enc image j)
include tracks

theorem assign {timestamp : Int64} {effects : List WALEffect} (free : j.held = none)
    (fits : RecordFits enc ⟨j.seq + 1, timestamp, effects⟩) (room : j.seq.toNat + 2 < 2 ^ 64) :
    Tracks enc image
      { j with seq := j.seq + 1, held := some ⟨j.seq + 1, timestamp, effects⟩ } := by
  have next : (j.seq + 1).toNat = j.seq.toNat + 1 := toNat_succ j.seq tracks.room
  have advances : j.seq < j.seq + 1 := by
    rw [UInt64.lt_iff_toNat_lt, next]
    exact Nat.lt_succ_self _
  have records : image.records ++ (j.queue ++ [⟨j.seq + 1, timestamp, effects⟩]) =
      (image.records ++ (j.queue ++ j.held.toList)) ++ [⟨j.seq + 1, timestamp, effects⟩] := by
    rw [free, Option.toList_none, List.append_nil, List.append_assoc]
  refine ⟨tracks.archived, tracks.current, tracks.header, tracks.names, fun name listed => ?_, ?_,
    fun rec listed => ?_, fun rec listed => ?_, ?_⟩
  · exact UInt64.le_trans (tracks.named name listed) (UInt64.le_of_lt advances)
  · rw [Option.toList_some, records]
    refine List.pairwise_append.2 ⟨tracks.ordered, List.pairwise_singleton .., ?_⟩
    intro earlier listed new appended
    rw [List.mem_singleton.1 appended]
    exact UInt64.lt_of_le_of_lt (tracks.bounded earlier listed) advances
  · rw [Option.toList_some, records, List.mem_append, List.mem_singleton] at listed
    rcases listed with old | rfl
    · exact UInt64.le_trans (tracks.bounded rec old) (UInt64.le_of_lt advances)
    · exact UInt64.le_refl _
  · rw [Option.toList_some, records, List.mem_append, List.mem_singleton] at listed
    rcases listed with old | rfl
    · exact tracks.fits rec old
    · exact fits
  · rw [next]
    exact room

theorem moved {image' : LogImage} (archived : j'.archived = (image'.dir enc).archived)
    (current : j'.file ++ j'.buffer = segmentOf enc image'.current) (header : 8 ≤ j'.file.length)
    (names : (image'.archived.map Prod.fst).Pairwise (· < ·))
    (named : ∀ name ∈ image'.archived.map Prod.fst, name ≤ j.seq) (seq : j'.seq = j.seq)
    (part : (image'.records ++ (j'.queue ++ j'.held.toList)).Sublist
      (image.records ++ (j.queue ++ j.held.toList))) : Tracks enc image' j' where
  archived := archived
  current := current
  header := header
  names := names
  named := seq ▸ named
  ordered := tracks.ordered.sublist part
  bounded rec listed := seq ▸ tracks.bounded rec (part.subset listed)
  fits rec listed := tracks.fits rec (part.subset listed)
  room := seq ▸ tracks.room

theorem send (held : j.held = some rec) :
    Tracks enc image { j with held := none, queue := j.queue ++ [rec] } := by
  refine tracks.moved tracks.archived tracks.current tracks.header tracks.names tracks.named rfl ?_
  rw [held, Option.toList_none, Option.toList_some, List.append_nil]

theorem write (nonce : Nonce) {queue : List WALRecord} (next : j.queue = rec :: queue) :
    Tracks enc { image with current := image.current ++ [⟨nonce, rec⟩] }
      { j with buffer := j.buffer ++ encodeRecord enc nonce rec, queue } := by
  refine tracks.moved tracks.archived ?_ tracks.header tracks.names tracks.named rfl ?_
  · rw [← List.append_assoc, tracks.current]
    simp [segmentOf, LogEntry.frame]
  · rw [next]
    simp [LogImage.records, LogImage.entries]

theorem drop : Tracks enc image { j with queue := j.queue.tail } := by
  refine tracks.moved tracks.archived tracks.current tracks.header tracks.names tracks.named rfl ?_
  exact ((List.tail_sublist _).append_right _).append_left _

theorem flush (count : Nat) :
    Tracks enc image
      { j with file := j.file ++ j.buffer.take count, buffer := j.buffer.drop count } := by
  refine tracks.moved tracks.archived ?_ ?_ tracks.names tracks.named rfl (List.Sublist.refl _)
  · rw [List.append_assoc, List.take_append_drop]
    exact tracks.current
  · rw [List.length_append]
    exact Nat.le_add_right_of_le tracks.header

theorem rotate :
    Tracks enc
      ⟨image.archived.filter (fun segment => segment.1 < j.seq) ++ [(j.seq, image.current)], []⟩
      { j with
        archived := insertSegment j.seq (j.file ++ j.buffer) j.archived
        file := walHeader enc
        buffer := [] } := by
  have kept := image.archived.filter_sublist (p := fun segment => segment.1 < j.seq)
  have below : ∀ name ∈ (image.archived.filter fun segment => segment.1 < j.seq).map Prod.fst,
      name < j.seq := by
    intro name listed
    obtain ⟨segment, member, rfl⟩ := List.mem_map.1 listed
    simpa using (List.mem_filter.1 member).2
  have dirNames : ((image.dir enc).archived.map Prod.fst) = image.archived.map Prod.fst := by
    simp [LogImage.dir]
  refine tracks.moved ?_ ?_ ?_ ?_ ?_ rfl ?_
  · rw [tracks.current, tracks.archived, insertSegment_last _ (dirNames ▸ tracks.names)
      (dirNames ▸ tracks.named)]
    simp [LogImage.dir, List.filter_map, Function.comp_def]
  · simp [segmentOf]
  · simp
  · rw [List.map_append, List.pairwise_append]
    refine ⟨tracks.names.sublist (kept.map _), List.pairwise_singleton .., ?_⟩
    intro name listed last member
    rw [List.mem_singleton.1 member]
    exact below name listed
  · intro name listed
    rw [List.map_append, List.mem_append] at listed
    rcases listed with old | new
    · exact UInt64.le_of_lt (below name old)
    · rw [List.mem_singleton.1 new]
      exact UInt64.le_refl _
  · refine List.Sublist.append_right ?_ _
    simp only [LogImage.records, LogImage.entries, List.flatMap_append, List.flatMap_singleton,
      List.append_nil]
    exact ((kept.flatMap _).append_right _).map _

theorem scanned : (scanSegments enc j.dir).records.Sublist image.records := by
  have fits : ∀ entry ∈ image.entries, RecordFits enc entry.record := by
    intro entry listed
    exact tracks.fits _ (List.mem_append_left _ (List.mem_map_of_mem listed))
  have cut : j.file = (segmentOf enc image.current).take j.file.length := by
    rw [← tracks.current, List.take_left]
  rw [take_segmentOf tracks.header] at cut
  rw [LogImage.entries, List.forall_mem_append] at fits
  rw [dir, tracks.archived, cut, LogImage.dir, scanSegments_archived fits.1,
    scanSegment_cut fits.2, LogImage.records, LogImage.entries, List.map_append]
  exact ((completeEntries_subset ..).map _).append_left _

theorem exact : j.Exact enc := by
  have records : Ascending image.records :=
    tracks.ordered.sublist (List.sublist_append_left ..)
  refine ⟨records.sublist tracks.scanned, fun ⟨synced, unlocked, idle⟩ => ?_⟩
  have whole : j.dir = image.dir enc := by
    have file := tracks.current
    rw [synced, List.append_nil] at file
    rw [dir, tracks.archived, file]
    rfl
  have scan : scanSegments enc j.dir = ⟨image.records, none⟩ := by
    rw [whole]
    exact scanSegments_dir fun entry listed =>
      tracks.fits _ (List.mem_append_left _ (List.mem_map_of_mem listed))
  have below : ∀ rec ∈ image.records, rec.sequence < 0xffffffffffffffff := by
    intro rec listed
    have bound := tracks.bounded rec (List.mem_append_left _ listed)
    have room := tracks.room
    rw [UInt64.le_iff_toNat_le] at bound
    rw [UInt64.lt_iff_toNat_lt]
    have last : (0xffffffffffffffff : UInt64).toNat = 2 ^ 64 - 1 := rfl
    omega
  refine ⟨image.records, ?_, fun key instant => ?_⟩
  · simp only [readAll, scan, Scan.result, mergeSort_ascending records]
  · exact readKeyHistory_eq scan records below key instant (.inl rfl)

theorem step {event : JournalEvent} (readable : j.Readable enc event)
    (stepped : j.step enc event = .ok j') : ∃ image', Tracks enc image' j' := by
  cases event with
  | assign timestamp effects =>
    simp only [Journal.step] at stepped
    split at stepped
    · cases stepped
      exact ⟨image, tracks⟩
    rename_i nonempty
    obtain ⟨fits, room⟩ := readable nonempty
    split at stepped
    · cases stepped
    rename_i free
    cases stepped
    exact ⟨image, tracks.assign free fits room⟩
  | send =>
    simp only [Journal.step] at stepped
    split at stepped
    · cases stepped
    rename_i rec held
    cases stepped
    exact ⟨image, tracks.send held⟩
  | write nonce =>
    simp only [Journal.step] at stepped
    split at stepped
    · cases stepped
    rename_i rec queue next
    cases stepped
    exact ⟨_, tracks.write nonce next⟩
  | drop =>
    cases stepped
    exact ⟨image, tracks.drop⟩
  | flush count =>
    cases stepped
    exact ⟨image, tracks.flush count⟩
  | rotate =>
    cases stepped
    exact ⟨_, tracks.rotate⟩

end

end Tracks

/-- Along every run whose records can be read back and whose counter does not get to its
end, the log is in order and every key history a slice of it. -/
theorem reaches_exact (enc : Option Encryptor) (image : LogImage) (seq : UInt64)
    (names : (image.archived.map Prod.fst).Pairwise (· < ·))
    (named : ∀ name ∈ image.archived.map Prod.fst, name ≤ seq) (ordered : Ascending image.records)
    (bounded : ∀ rec ∈ image.records, rec.sequence ≤ seq)
    (fits : ∀ rec ∈ image.records, RecordFits enc rec) (room : seq.toNat + 1 < 2 ^ 64)
    (j : Journal) (reached : Runs.Reaches (step enc) (Readable enc) (opened enc image seq) j) :
    j.Exact enc := by
  let standing : Journal → Prop := fun j => ∃ image, Tracks enc image j
  have tracked : standing j :=
    reached.invariant ⟨image, .opened names named ordered bounded fits room⟩
      fun _ _ _ ⟨_, tracks⟩ readable stepped => tracks.step readable stepped
  obtain ⟨image, tracks⟩ := tracked
  exact tracks.exact

theorem reaches_append {allowed : Journal → JournalEvent → Prop} {start j : Journal}
    (reached : Runs.Reaches (step enc) allowed start j) (append : Append) (free : j.held = none)
    (idle : j.queue = []) (first : allowed j (.assign append.timestamp append.effects))
    (others : ∀ j, allowed j .send ∧ allowed j (.write append.nonce)) :
    Runs.Reaches (step enc) allowed start
      { j with
        seq := j.seq + 1
        buffer := j.buffer ++ encodeRecord enc append.nonce (append.record (j.seq + 1)) } := by
  obtain ⟨archived, file, buffer, seq, held, queue⟩ := j
  cases free
  cases idle
  have assigned := Runs.Reaches.next _ reached first
    (show step enc _ (.assign append.timestamp append.effects) = .ok
      ⟨archived, file, buffer, seq + 1, some (append.record (seq + 1)), []⟩ by
      rw [step, if_neg append.nonempty]
      rfl)
  have sent := Runs.Reaches.next _ assigned (others _).1 rfl
  exact Runs.Reaches.next _ sent (others _).2 rfl

def setAt (timestamp : Int64) (value : Bytes) : Append :=
  ⟨.zero, timestamp, [⟨recordSet, [0x6b], value, 0⟩], by simp⟩

theorem scanFrames_long {entry : LogEntry} (allowPartialTail : Bool)
    (long : maxWALFrameSize < blockLength enc entry.record)
    (short : blockLength enc entry.record < 256 ^ 4) (rest : Bytes) :
    scanFrames allowPartialTail enc (entry.frame enc ++ rest) =
      .failed ("invalid WAL frame length " ++ toString (blockLength enc entry.record)) := by
  rw [LogEntry.frame_eq, List.append_assoc, scanFrames_word _ _ _ (BigEndian.length_encode 4 _),
    BigEndian.value_encode_of_lt short, if_pos (Or.inr long)]

theorem long_value_behind {value : Bytes} (long : maxWALFrameSize ≤ value.length)
    (short : 43 + value.length < 256 ^ 4) :
    ∃ j, Runs.Reaches (step none) (fun _ _ => True) (opened none ⟨[], []⟩ 0) j ∧ j.Quiet ∧
      (∃ message, readAll none j.dir = .error message) ∧
      readKeyHistory none j.dir [0x6b] 3 = .ok [⟨1, 1, [⟨recordSet, [0x6b], [0x61], 0⟩]⟩] := by
  let readable : List LogEntry :=
    [⟨(setAt 1 [0x61]).nonce, (setAt 1 [0x61]).record 1⟩,
      ⟨(setAt 5 [0x62]).nonce, (setAt 5 [0x62]).record 2⟩]
  let entry : LogEntry := ⟨(setAt 6 value).nonce, (setAt 6 value).record 3⟩
  let frames := framesOf none readable ++ entry.frame none
  have block : blockLength none entry.record = 43 + value.length := by
    simp [blockLength, entry, setAt, Append.record, WALEffect.encodedSize, sealOverhead]
    omega
  have written : Runs.Reaches (step none) (fun _ _ => True) (opened none ⟨[], []⟩ 0)
      ⟨[], walHeader none, frames, 3, none, []⟩ := by
    have fresh : Runs.Reaches (step none) (fun _ _ => True) (opened none ⟨[], []⟩ 0)
        (opened none ⟨[], []⟩ 0) := .start
    have first := reaches_append fresh (setAt 1 [0x61]) rfl rfl trivial fun _ => ⟨trivial, trivial⟩
    have second := reaches_append first (setAt 5 [0x62]) rfl rfl trivial fun _ => ⟨trivial, trivial⟩
    have third := reaches_append second (setAt 6 value) rfl rfl trivial fun _ => ⟨trivial, trivial⟩
    simpa [opened, LogImage.dir, segmentOf, frames, readable, entry, LogEntry.frame] using third
  have synced : Runs.Reaches (step none) (fun _ _ => True) (opened none ⟨[], []⟩ 0)
      ⟨[], walHeader none ++ frames, [], 3, none, []⟩ := by
    refine .next (.flush frames.length) written trivial ?_
    rw [step, List.take_length, List.drop_length]
  have scan : scanSegments none ⟨[], some (walHeader none ++ frames)⟩ =
      ⟨readable.map LogEntry.record,
        some ("wal.log: " ++ ("invalid WAL frame length " ++
          toString (blockLength none entry.record)))⟩ := by
    have fits : ∀ entry ∈ readable, RecordFits none entry.record := by decide
    have torn := scanFrames_long true (by rw [block]; omega) (by rw [block]; omega) []
    have whole := scanFrames_framesOf fits true (entry.frame none)
    rw [List.append_nil] at torn
    rw [torn] at whole
    simp only [scanSegments, List.foldr_nil, scanSegment, scanRecordsMode_header, frames, whole,
      Scan.failed, List.append_nil, Option.map_some]
    rfl
  have unread : readAll none ⟨[], some (walHeader none ++ frames)⟩ =
      .error ("wal.log: " ++ ("invalid WAL frame length " ++
        toString (blockLength none entry.record))) := by
    simp only [readAll, scan, Scan.result]
  have ordered : Ascending (readable.map LogEntry.record) := by
    simp [Ascending, readable, Append.record]
  exact ⟨_, synced, ⟨rfl, rfl, rfl⟩, ⟨_, unread⟩,
    readKeyHistory_eq scan ordered (by decide) [0x6b] 3 (.inr (by rintro ⟨⟩))⟩

/-- A record with a value of 64 MiB is acknowledged. From then on the log can not be read as
a whole, but the history of a key before it can. -/
theorem long_value_hides_log :
    ∃ j, Runs.Reaches (step none) (fun _ _ => True) (opened none ⟨[], []⟩ 0) j ∧ j.Quiet ∧
      (∃ message, readAll none j.dir = .error message) ∧
      readKeyHistory none j.dir [0x6b] 3 = .ok [⟨1, 1, [⟨recordSet, [0x6b], [0x61], 0⟩]⟩] ∧
      ¬ j.Exact none := by
  have size : (List.replicate maxWALFrameSize (0 : UInt8)).length = maxWALFrameSize :=
    List.length_replicate
  obtain ⟨j, reached, quiet, ⟨message, unread⟩, history⟩ :=
    long_value_behind (Nat.le_of_eq size.symm) (by rw [size]; decide)
  refine ⟨j, reached, quiet, ⟨message, unread⟩, history, fun exact => ?_⟩
  obtain ⟨records, read, -⟩ := exact.slices quiet
  cases unread.symm.trans read

/-- A record is written, the log rotates, and another is written and not flushed yet. -/
theorem rotated_log_in_order :
    ∃ j, Runs.Reaches (step none) (Readable none) (opened none ⟨[], []⟩ 0) j ∧
      j.archived.map Prod.fst = [1] ∧ j.buffer ≠ [] ∧ j.Exact none := by
  have fresh : Runs.Reaches (step none) (Readable none) (opened none ⟨[], []⟩ 0)
      (opened none ⟨[], []⟩ 0) := .start
  have first := reaches_append fresh (setAt 1 [0x61]) rfl rfl
    (fun _ => ⟨by decide, by decide⟩) fun _ => ⟨trivial, trivial⟩
  have rotated := Runs.Reaches.next JournalEvent.rotate first trivial rfl
  have second := reaches_append rotated (setAt 5 [0x62]) rfl rfl
    (fun _ => ⟨by decide, by decide⟩) fun _ => ⟨trivial, trivial⟩
  refine ⟨_, second, rfl, by simp [encodeRecord, frameOf, BigEndian.encode], ?_⟩
  exact reaches_exact none ⟨[], []⟩ 0 List.Pairwise.nil (by rintro _ ⟨⟩) List.Pairwise.nil
    (by rintro _ ⟨⟩) (by rintro _ ⟨⟩) (by decide) _ second

end Journal

end Dbx.Persistence
