import Dbx.Persistence.Log
import Dbx.Persistence.ScanProperties
import Mathlib.Data.List.Sort

/-!
# Opening a log

A directory that holds complete frames within the limits opens to the same
directory and is read back in full. For a `wal.log` cut at any byte, the exact
condition under which opening it repairs the cut is established; one offset in
every frame fails it.
-/

set_option autoImplicit false

namespace Dbx.Persistence

structure LogImage where
  archived : List (UInt64 × List LogEntry)
  current : List LogEntry

def segmentOf (enc : Option Encryptor) (entries : List LogEntry) : Bytes :=
  walHeader enc ++ framesOf enc entries

def LogImage.dir (enc : Option Encryptor) (image : LogImage) : LogDir :=
  { archived := image.archived.map fun segment => (segment.1, segmentOf enc segment.2)
    current := some (segmentOf enc image.current) }

def LogImage.entries (image : LogImage) : List LogEntry :=
  image.archived.flatMap Prod.snd ++ image.current

@[simp] theorem length_walHeader (enc : Option Encryptor) : (walHeader enc).length = 8 := by
  cases enc <;> rfl

theorem scanRecordsMode_header (enc : Option Encryptor) (allowPartialTail : Bool)
    (rest : Bytes) :
    scanRecordsMode (walHeader enc ++ rest) allowPartialTail enc =
      scanFrames allowPartialTail enc rest := by
  have size : (walHeader enc).length = walV2Magic.length := length_walHeader enc
  simp only [scanRecordsMode, ExactRead.read_append rest size, ne_eq, not_true_eq_false,
    ↓reduceIte]

variable {enc : Option Encryptor}

theorem scanSegment_segmentOf {entries : List LogEntry}
    (fits : ∀ entry ∈ entries, RecordFits enc entry.record) (name : String) (isCurrent : Bool) :
    scanSegment enc name isCurrent (segmentOf enc entries) =
      ⟨entries.map LogEntry.record, none⟩ := by
  have scanned := scanFrames_framesOf fits isCurrent []
  rw [List.append_nil, scanFrames_nil] at scanned
  simp [scanSegment, segmentOf, scanRecordsMode_header, scanned, Scan.done]

theorem scanSegments_archived {archived : List (UInt64 × List LogEntry)}
    (fits : ∀ entry ∈ archived.flatMap Prod.snd, RecordFits enc entry.record) (content : Bytes) :
    scanSegments enc
        ⟨archived.map fun segment => (segment.1, segmentOf enc segment.2), some content⟩ =
      ⟨(archived.flatMap Prod.snd).map LogEntry.record ++
          (scanSegment enc "wal.log" true content).records,
        (scanSegment enc "wal.log" true content).error⟩ := by
  induction archived with
  | nil => rfl
  | cons segment archived ih =>
    rw [List.flatMap_cons, List.forall_mem_append] at fits
    have behind := ih fits.2
    simp only [scanSegments, List.map_cons, List.foldr_cons] at behind ⊢
    rw [behind, scanSegment_segmentOf fits.1]
    simp [Scan.append]

theorem scanSegments_dir {image : LogImage}
    (fits : ∀ entry ∈ image.entries, RecordFits enc entry.record) :
    scanSegments enc (image.dir enc) = ⟨image.entries.map LogEntry.record, none⟩ := by
  rw [LogImage.entries, List.forall_mem_append] at fits
  rw [LogImage.dir, scanSegments_archived fits.1, scanSegment_segmentOf fits.2, LogImage.entries,
    List.map_append]

def InOrder (entries : List LogEntry) : Prop :=
  entries.Pairwise fun earlier later => earlier.record.sequence < later.record.sequence

theorem mergeSort_records {entries : List LogEntry} (ordered : InOrder entries) :
    ((entries.map LogEntry.record).mergeSort fun left right => left.sequence ≤ right.sequence) =
      entries.map LogEntry.record := by
  apply List.mergeSort_of_pairwise
  rw [List.pairwise_map]
  exact ordered.imp fun before => by simpa using UInt64.le_of_lt before

theorem readAll_dir {image : LogImage} (fits : ∀ entry ∈ image.entries, RecordFits enc entry.record)
    (ordered : InOrder image.entries) :
    readAll enc (image.dir enc) = .ok (image.entries.map LogEntry.record) := by
  simp only [readAll, scanSegments_dir fits, Scan.result, mergeSort_records ordered]

variable {records : List WALRecord}

theorem readAll_fits {dir : LogDir} (read : readAll enc dir = .ok records) :
    ∀ rec ∈ records, RecordFits enc rec := by
  have segmentFits : ∀ name isCurrent content,
      ∀ rec ∈ (scanSegment enc name isCurrent content).records, RecordFits enc rec := by
    intro name isCurrent content rec member
    simp only [scanSegment, scanRecordsMode] at member
    split at member
    · simp [Scan.failed] at member
    · simp [Scan.failed] at member
    · split at member
      · simp [Scan.failed] at member
      · exact scanFrames_fits _ _ _ rec member
  have scanFits : ∀ rec ∈ (scanSegments enc dir).records, RecordFits enc rec := by
    obtain ⟨archived, current⟩ := dir
    clear read
    induction archived with
    | nil =>
      cases current with
      | none => simp [scanSegments, Scan.done]
      | some content => exact segmentFits "wal.log" true content
    | cons segment archived ih =>
      intro rec member
      simp only [scanSegments, List.foldr_cons, Scan.append] at member ih
      split at member
      · exact segmentFits _ _ _ rec member
      rcases List.mem_append.mp member with member | member
      · exact segmentFits _ _ _ rec member
      · exact ih rec member
  simp only [readAll] at read
  split at read
  · cases read
  next scanned result =>
    cases read
    intro rec member
    apply scanFits rec
    simp only [Scan.result] at result
    split at result
    · cases result
      exact List.mem_mergeSort.mp member
    · cases result

theorem repairWALTail_header (enc : Option Encryptor) (rest : Bytes) :
    repairWALTail (walHeader enc ++ rest) enc =
      match repairOffset enc 8 rest with
      | .error message => .error message
      | .ok none => .ok (walHeader enc ++ rest)
      | .ok (some offset) => .ok ((walHeader enc ++ rest).take offset) := by
  have size : (walHeader enc).length = walV2Magic.length := length_walHeader enc
  rewrite [repairWALTail, ExactRead.read_append rest size]
  refine (if_neg (not_not_intro rfl)).trans ?_
  rewrite [length_walHeader]
  rfl

theorem openCurrent_header (enc : Option Encryptor) (rest : Bytes) :
    openCurrent enc (walHeader enc ++ rest) = repairWALTail (walHeader enc ++ rest) enc := by
  simp [openCurrent]

theorem openCurrent_segmentOf {enc : Option Encryptor} {entries : List LogEntry}
    (fits : ∀ entry ∈ entries, RecordFits enc entry.record) :
    openCurrent enc (segmentOf enc entries) = .ok (segmentOf enc entries) := by
  have repaired := repairOffset_framesOf fits 8 []
  rw [List.append_nil, repairOffset_nil] at repaired
  rw [segmentOf, openCurrent_header, repairWALTail_header, repaired]

theorem openWALEncrypted_ok {dir : LogDir} {file : Bytes}
    (opened : openCurrent enc (dir.current.getD []) = .ok file)
    (read : readAll enc { dir with current := some file } = .ok records) :
    openWALEncrypted enc dir =
      .ok ⟨{ dir with current := some file }, lastSequence records⟩ := by
  simp only [openWALEncrypted, opened, read]

theorem openWALEncrypted_dir {image : LogImage}
    (fits : ∀ entry ∈ image.entries, RecordFits enc entry.record)
    (ordered : InOrder image.entries) :
    openWALEncrypted enc (image.dir enc) =
      .ok ⟨image.dir enc, lastSequence (image.entries.map LogEntry.record)⟩ := by
  have currentFits : ∀ entry ∈ image.current, RecordFits enc entry.record := by
    intro entry member
    exact fits entry (List.mem_append_right _ member)
  exact openWALEncrypted_ok (openCurrent_segmentOf currentFits) (readAll_dir fits ordered)

theorem openWALEncrypted_inv {dir : LogDir} {wal : WAL}
    (opened : openWALEncrypted enc dir = .ok wal) :
    ∃ file records, openCurrent enc (dir.current.getD []) = .ok file ∧
      readAll enc { dir with current := some file } = .ok records ∧
      wal = ⟨{ dir with current := some file }, lastSequence records⟩ := by
  simp only [openWALEncrypted] at opened
  split at opened
  · cases opened
  next file repaired =>
    split at opened
    · cases opened
    next records read =>
      cases opened
      exact ⟨file, records, repaired, read, rfl⟩

/-- The entries that a list of appends adds to a log whose counter stands at
`seq`. -/
def entriesFrom : UInt64 → List Append → List LogEntry
  | _, [] => []
  | seq, append :: appends =>
    ⟨append.nonce, append.record (seq + 1)⟩ :: entriesFrom (seq + 1) appends

section

variable (enc) (image : LogImage) (seq : UInt64)

theorem write_dir (append : Append) :
    WAL.write enc ⟨image.dir enc, seq⟩ append =
      ⟨LogImage.dir enc { image with
        current := image.current ++ [⟨append.nonce, append.record (seq + 1)⟩] }, seq + 1⟩ := by
  simp [WAL.write, LogImage.dir, segmentOf, LogEntry.frame]

theorem foldl_write_dir (appends : List Append) :
    (appends.foldl (WAL.write enc) ⟨image.dir enc, seq⟩).dir =
      LogImage.dir enc { image with current := image.current ++ entriesFrom seq appends } := by
  induction appends generalizing image seq with
  | nil => simp [entriesFrom]
  | cons append appends ih =>
    rw [List.foldl_cons, write_dir, ih]
    simp [entriesFrom]

theorem toNat_succ (room : seq.toNat + 1 < 2 ^ 64) : (seq + 1).toNat = seq.toNat + 1 := by
  rw [UInt64.toNat_add]
  exact Nat.mod_eq_of_lt room

end

theorem entriesFrom_bounds {seq : UInt64} {appends : List Append}
    (room : seq.toNat + appends.length < 2 ^ 64) :
    ∀ entry ∈ entriesFrom seq appends, seq.toNat < entry.record.sequence.toNat ∧
      entry.record.sequence.toNat ≤ seq.toNat + appends.length := by
  induction appends generalizing seq with
  | nil => simp [entriesFrom]
  | cons append appends ih =>
    rw [List.length_cons] at room
    have next := toNat_succ seq (by omega)
    intro entry member
    rcases List.mem_cons.mp member with rfl | member
    · simp only [Append.record, List.length_cons]
      omega
    have bounds := @ih (seq + 1) (by omega) entry member
    simp only [List.length_cons]
    omega

theorem entriesFrom_inOrder {seq : UInt64} {appends : List Append}
    (room : seq.toNat + appends.length < 2 ^ 64) : InOrder (entriesFrom seq appends) := by
  induction appends generalizing seq with
  | nil => exact List.Pairwise.nil
  | cons append appends ih =>
    rw [List.length_cons] at room
    have next := toNat_succ seq (by omega)
    refine List.Pairwise.cons ?_ (ih (by omega))
    intro entry member
    exact UInt64.lt_iff_toNat_lt.mpr (entriesFrom_bounds (by omega) entry member).1

theorem le_lastSequence_foldl (records : List WALRecord) (start : UInt64) :
    start ≤ records.foldl
      (fun seq rec => if seq < rec.sequence then rec.sequence else seq) start := by
  induction records generalizing start with
  | nil => exact UInt64.le_refl start
  | cons rec records ih =>
    rw [List.foldl_cons]
    refine UInt64.le_trans ?_ (ih _)
    split
    · exact UInt64.le_of_lt ‹_›
    · exact UInt64.le_refl start

theorem le_lastSequence {rec : WALRecord} (member : rec ∈ records) :
    rec.sequence ≤ lastSequence records := by
  unfold lastSequence
  generalize (0 : UInt64) = start
  induction records generalizing start with
  | nil => simp at member
  | cons head records ih =>
    rw [List.foldl_cons]
    rcases List.mem_cons.mp member with rfl | member
    · refine UInt64.le_trans ?_ (le_lastSequence_foldl records _)
      split
      · exact UInt64.le_refl _
      · exact UInt64.not_lt.mp ‹_›
    · exact ih member _

theorem toNat_lastSequence_le {bound : Nat}
    (bounded : ∀ rec ∈ records, rec.sequence.toNat ≤ bound) :
    (lastSequence records).toNat ≤ bound := by
  unfold lastSequence
  have zero : (0 : UInt64).toNat ≤ bound := Nat.zero_le bound
  generalize (0 : UInt64) = start at zero ⊢
  induction records generalizing start with
  | nil => exact zero
  | cons head records ih =>
    rw [List.foldl_cons]
    apply ih fun rec member => bounded rec (List.mem_cons_of_mem _ member)
    split
    · exact bounded head List.mem_cons_self
    · exact zero

/-- `wal.log` holds the entries in sequence order, all of them beyond the installed sequence,
and no segment is archived. -/
structure WAL.Holds (enc : Option Encryptor) (installed : UInt64) (entries : List LogEntry)
    (wal : WAL) : Prop where
  dir : wal.dir = LogImage.dir enc ⟨[], entries⟩
  ordered : InOrder entries
  fits : ∀ entry ∈ entries, RecordFits enc entry.record
  bounded : ∀ entry ∈ entries, entry.record.sequence ≤ wal.seq
  beyond : ∀ entry ∈ entries, installed < entry.record.sequence

namespace WAL.Holds

variable {enc : Option Encryptor} {installed : UInt64} {entries : List LogEntry} {wal : WAL}

theorem empty {dir : LogDir} (fresh : dir = LogImage.dir enc ⟨[], []⟩) (installed seq : UInt64) :
    WAL.Holds enc installed [] ⟨dir, seq⟩ where
  dir := fresh
  ordered := List.Pairwise.nil
  fits := by simp
  bounded := by simp
  beyond := by simp

theorem write (holds : wal.Holds enc installed entries) (append : Append)
    (next : installed < wal.seq + 1) (fits : RecordFits enc (append.record 0)) :
    (wal.write enc append).Holds enc installed
      (entries ++ [⟨append.nonce, append.record (wal.seq + 1)⟩]) := by
  have advances : wal.seq < wal.seq + 1 := by
    -- the counter has not wrapped, since zero is not beyond any image
    grind
  have written : wal.write enc append = ⟨LogImage.dir enc ⟨[], entries ++
      [⟨append.nonce, append.record (wal.seq + 1)⟩]⟩, wal.seq + 1⟩ := by
    have same : wal = ⟨LogImage.dir enc ⟨[], entries⟩, wal.seq⟩ := by rw [← holds.dir]
    rw [same, write_dir]
  constructor
  case dir => exact congrArg WAL.dir written
  case ordered =>
    refine List.pairwise_append.mpr ⟨holds.ordered, List.pairwise_singleton _ _, ?_⟩
    intro earlier member appended appendedMember
    rw [List.mem_singleton.mp appendedMember]
    exact UInt64.lt_of_le_of_lt (holds.bounded earlier member) advances
  case fits =>
    intro entry member
    rcases List.mem_append.mp member with member | member
    · exact holds.fits entry member
    · rw [List.mem_singleton.mp member]
      exact ⟨fits.nonempty, fits.count, fits.size⟩
  case bounded =>
    intro entry member
    rw [written]
    rcases List.mem_append.mp member with member | member
    · exact UInt64.le_trans (holds.bounded entry member) (UInt64.le_of_lt advances)
    · rw [List.mem_singleton.mp member]
      exact UInt64.le_refl _
  case beyond =>
    intro entry member
    rcases List.mem_append.mp member with member | member
    · exact holds.beyond entry member
    · rw [List.mem_singleton.mp member]
      exact next

theorem rotated (holds : wal.Holds enc installed entries) (sequence : UInt64) :
    WAL.Holds enc sequence []
      { wal.rotate enc with dir := compactThrough wal.seq (wal.rotate enc).dir } := by
  have archived : wal.dir.archived = [] := by
    rw [holds.dir]
    rfl
  refine .empty ?_ sequence _
  simp [WAL.rotate, compactThrough, archived, insertSegment, LogImage.dir, segmentOf]

end WAL.Holds

end Dbx.Persistence
