import Dbx.Persistence.LogProperties

/-!
# Crash images of `wal.log`

A crash can leave any prefix of the segment that was being written. Opening
such a prefix has to drop the frame that was cut and keep the ones before it.
-/

set_option autoImplicit false

namespace Dbx.Persistence

/-- The entries whose frames lie inside the first `size` bytes of the frames. -/
def completeEntries (enc : Option Encryptor) : Nat → List LogEntry → List LogEntry
  | _, [] => []
  | size, entry :: entries =>
    if (entry.frame enc).length ≤ size then
      entry :: completeEntries enc (size - (entry.frame enc).length) entries
    else []

/-- The entry whose frame the cut falls into, with the bytes left of it. -/
def cutEntry (enc : Option Encryptor) : Nat → List LogEntry → Option (Nat × LogEntry)
  | _, [] => none
  | size, entry :: entries =>
    if (entry.frame enc).length ≤ size then
      cutEntry enc (size - (entry.frame enc).length) entries
    else if size = 0 then none else some (size, entry)

/-- `wal.log` after a list of appends to a fresh segment, with the counter at
`start` when the segment was begun. -/
def writtenSegment (enc : Option Encryptor) (start : UInt64) (writes : List Append) : Bytes :=
  (writes.foldl (WAL.write enc) ⟨⟨[], some (walHeader enc)⟩, start⟩).dir.current.getD []

/-- Opening the image succeeds, reads exactly the complete entries, truncates
the file to them, and what is appended afterwards is read back behind them. -/
def Reopens (enc : Option Encryptor) (image : Bytes) (complete : List LogEntry)
    (later : List Append) : Prop :=
  ∃ wal, openWALEncrypted enc ⟨[], some image⟩ = .ok wal ∧
    readAll enc wal.dir = .ok (complete.map LogEntry.record) ∧
    wal.dir.current = some (segmentOf enc complete) ∧
    readAll enc (later.foldl (WAL.write enc) wal).dir =
      .ok (complete.map LogEntry.record ++ (entriesFrom wal.seq later).map LogEntry.record)

/-- A cut that the repair recognises: inside the length word, or behind at
least one byte of a block whose announced length is admissible and not reached. -/
def CutRepaired (enc : Option Encryptor) (size : Nat) (rec : WALRecord) : Prop :=
  size < 4 ∨
    (4 < size ∧ minBlockLength enc ≤ lengthWord enc rec ∧
      lengthWord enc rec ≤ maxWALFrameSize ∧ size < 4 + lengthWord enc rec)

def cutTail (enc : Option Encryptor) : Option (Nat × LogEntry) → Bytes
  | none => []
  | some (size, entry) => (entry.frame enc).take size

theorem writtenSegment_eq (enc : Option Encryptor) (start : UInt64) (writes : List Append) :
    writtenSegment enc start writes = segmentOf enc (entriesFrom start writes) := by
  have written := foldl_write_dir enc ⟨[], []⟩ start writes
  simp only [LogImage.dir, segmentOf, framesOf_nil, List.append_nil, List.map_nil,
    List.nil_append] at written
  simp [writtenSegment, written, segmentOf]

theorem take_framesOf (enc : Option Encryptor) (size : Nat) (entries : List LogEntry) :
    (framesOf enc entries).take size =
      framesOf enc (completeEntries enc size entries) ++
        cutTail enc (cutEntry enc size entries) := by
  induction entries generalizing size with
  | nil => simp [completeEntries, cutEntry, cutTail]
  | cons entry entries ih =>
    by_cases inside : (entry.frame enc).length ≤ size
    · simp only [completeEntries, cutEntry, inside, ↓reduceIte, framesOf_cons,
        List.append_assoc, ← ih, List.take_append, List.take_of_length_le inside]
    simp only [completeEntries, cutEntry, inside, ↓reduceIte, framesOf_cons, framesOf_nil,
      List.nil_append, List.take_append, Nat.sub_eq_zero_of_le (Nat.le_of_not_le inside),
      List.take_zero, List.append_nil]
    split
    · next none => simp [none, cutTail]
    · rfl

variable {enc : Option Encryptor}

theorem take_segmentOf {size : Nat} (header : 8 ≤ size) (entries : List LogEntry) :
    (segmentOf enc entries).take size =
      segmentOf enc (completeEntries enc (size - 8) entries) ++
        cutTail enc (cutEntry enc (size - 8) entries) := by
  have short : (walHeader enc).length ≤ size := by simpa using header
  simp only [segmentOf, List.take_append, List.take_of_length_le short, length_walHeader,
    take_framesOf, List.append_assoc]

variable {left : Nat} {entries : List LogEntry} {entry : LogEntry}

theorem cutEntry_bounds {size : Nat} (cut : cutEntry enc size entries = some (left, entry)) :
    0 < left ∧ left < (entry.frame enc).length := by
  induction entries generalizing size with
  | nil => cases cut
  | cons head entries ih =>
    simp only [cutEntry] at cut
    split at cut
    · exact ih cut
    next beyond =>
      split at cut
      · cases cut
      next positive =>
        cases cut
        exact ⟨Nat.pos_of_ne_zero positive, Nat.lt_of_not_le beyond⟩

theorem cutEntry_mem {size : Nat} (cut : cutEntry enc size entries = some (left, entry)) :
    entry ∈ entries := by
  induction entries generalizing size with
  | nil => cases cut
  | cons head entries ih =>
    simp only [cutEntry] at cut
    split at cut
    · exact List.mem_cons_of_mem _ (ih cut)
    split at cut
    · cases cut
    · cases cut
      exact List.mem_cons_self ..

theorem completeEntries_subset (enc : Option Encryptor) (size : Nat) (entries : List LogEntry) :
    (completeEntries enc size entries).Sublist entries := by
  induction entries generalizing size with
  | nil => exact List.Sublist.slnil
  | cons entry entries ih =>
    simp only [completeEntries]
    split
    · exact (ih _).cons_cons entry
    · exact List.nil_sublist _

theorem take_frame (word : 4 ≤ left) :
    (entry.frame enc).take left =
      BigEndian.encode 4 (blockLength enc entry.record) ++
        (encodeBlock enc entry.nonce entry.record).take (left - 4) := by
  rw [LogEntry.frame_eq, List.take_append, BigEndian.length_encode,
    List.take_of_length_le (by simpa using word)]

theorem value_lengthWord (enc : Option Encryptor) (rec : WALRecord) :
    BigEndian.value (BigEndian.encode 4 (blockLength enc rec)) = lengthWord enc rec :=
  BigEndian.value_encode 4 _

theorem scanFrames_cut (fits : RecordFits enc entry.record) (positive : 0 < left)
    (inside : left < (entry.frame enc).length) :
    (scanFrames true enc ((entry.frame enc).take left)).records = [] := by
  have size : ((entry.frame enc).take left).length = left :=
    List.length_take_of_le (Nat.le_of_lt inside)
  by_cases word : left < 4
  · rw [scanFrames_short (by omega) (by omega)]
    rfl
  have block := length_encodeBlock enc entry.nonce entry.record
  rw [LogEntry.length_frame] at inside
  rw [take_frame (by omega), scanFrames_word _ _ _ (BigEndian.length_encode 4 _),
    BigEndian.value_encode_of_lt fits.blockLength_lt, if_neg fits.lengthInRange]
  rcases Nat.eq_or_lt_of_le (Nat.le_of_not_lt word) with rfl | behind
  · rw [Nat.sub_self, List.take_zero, ExactRead.read_nil (by omega)]
    rfl
  · rw [ExactRead.read_short (by rw [List.length_take]; omega) (by rw [List.length_take]; omega)]
    rfl

theorem scanSegment_cut (fits : ∀ entry ∈ entries, RecordFits enc entry.record) (name : String)
    (size : Nat) :
    (scanSegment enc name true (segmentOf enc (completeEntries enc size entries) ++
        cutTail enc (cutEntry enc size entries))).records =
      (completeEntries enc size entries).map LogEntry.record := by
  have complete := completeEntries_subset enc size entries
  have tail : (scanFrames true enc (cutTail enc (cutEntry enc size entries))).records = [] := by
    cases torn : cutEntry enc size entries with
    | none => rw [cutTail, scanFrames_nil, Scan.done]
    | some rest =>
      obtain ⟨positive, inside⟩ := cutEntry_bounds torn
      exact scanFrames_cut (fits _ (cutEntry_mem torn)) positive inside
  have scan := scanFrames_framesOf (fun entry listed => fits entry (complete.subset listed)) true
    (cutTail enc (cutEntry enc size entries))
  rw [tail, List.append_nil] at scan
  rw [scanSegment, segmentOf, List.append_assoc, scanRecordsMode_header, scan]

theorem repairOffset_cut (validOffset : Nat) (positive : 0 < left)
    (inside : left < (entry.frame enc).length) (repaired : CutRepaired enc left entry.record) :
    repairOffset enc validOffset ((entry.frame enc).take left) = .ok (some validOffset) := by
  have size : ((entry.frame enc).take left).length = left := by
    rw [List.length_take]
    omega
  rcases repaired with short | ⟨behind, lower, upper, before⟩
  · exact repairOffset_short validOffset (by omega) (by omega)
  have blockSize :
      ((encodeBlock enc entry.nonce entry.record).take (left - 4)).length = left - 4 := by
    rw [take_frame (Nat.le_of_lt behind), List.length_append, BigEndian.length_encode] at size
    omega
  rw [take_frame (Nat.le_of_lt behind), repairOffset_word _ _ _ (BigEndian.length_encode 4 _),
    value_lengthWord, if_neg (by omega),
    ExactRead.read_short (by omega) (by omega)]

theorem repairOffset_not_cut {validOffset : Nat} {result : Option Nat}
    (notRepaired : ¬ CutRepaired enc left entry.record) (inside : left < (entry.frame enc).length)
    (repaired : repairOffset enc validOffset ((entry.frame enc).take left) = .ok result) :
    result = none ∨ ∃ offset, result = some offset ∧ validOffset < offset := by
  have behind : 4 ≤ left := by
    by_contra short
    exact notRepaired (Or.inl (Nat.lt_of_not_le short))
  rw [take_frame behind, repairOffset_word _ _ _ (BigEndian.length_encode 4 _),
    value_lengthWord] at repaired
  split at repaired
  · cases repaired
  next inRange =>
    split at repaired
    · cases repaired
    · next unexpected =>
        -- The block is cut short and not empty, which is the recognised case.
        obtain ⟨some, short⟩ := ExactRead.read_eq_unexpectedEnd unexpected
        rw [List.length_take] at some short
        rw [LogEntry.length_frame, ← length_encodeBlock enc entry.nonce] at inside
        exact absurd (Or.inr ⟨by omega, by omega, by omega, by omega⟩) notRepaired
    · split at repaired
      · cases repaired
      cases result with
      | none => exact Or.inl rfl
      | some offset =>
        have further := repairOffset_ge repaired
        exact Or.inr ⟨offset, rfl, by omega⟩

def Append.Fits (enc : Option Encryptor) (append : Append) : Prop :=
  RecordFits enc (append.record 0)

instance (enc : Option Encryptor) (append : Append) : Decidable (append.Fits enc) :=
  inferInstanceAs (Decidable (RecordFits enc (append.record 0)))

theorem entriesFrom_fits (enc : Option Encryptor) (seq : UInt64) (appends : List Append) :
    (∀ entry ∈ entriesFrom seq appends, RecordFits enc entry.record) ↔
      ∀ append ∈ appends, append.Fits enc := by
  induction appends generalizing seq with
  | nil => simp [entriesFrom]
  | cons append appends ih =>
    have same : RecordFits enc (append.record (seq + 1)) ↔ append.Fits enc :=
      ⟨fun fits => ⟨fits.nonempty, fits.count, fits.size⟩,
        fun fits => ⟨fits.nonempty, fits.count, fits.size⟩⟩
    simp only [entriesFrom, List.forall_mem_cons, ih, same]

section

variable {complete : List LogEntry} (fits : ∀ entry ∈ complete, RecordFits enc entry.record)
include fits

theorem openCurrent_cut {cut : Option (Nat × LogEntry)}
    (inside : ∀ left entry, cut = some (left, entry) →
      0 < left ∧ left < (entry.frame enc).length)
    (repaired : ∀ left entry, cut = some (left, entry) → CutRepaired enc left entry.record) :
    openCurrent enc (segmentOf enc complete ++ cutTail enc cut) =
      .ok (segmentOf enc complete) := by
  rw [segmentOf, List.append_assoc, openCurrent_header, repairWALTail_header,
    repairOffset_framesOf fits]
  cases cut with
  | none => simp [cutTail]
  | some cut =>
    obtain ⟨left, entry⟩ := cut
    obtain ⟨positive, short⟩ := inside left entry rfl
    simp only [cutTail, repairOffset_cut _ positive short (repaired left entry rfl)]
    rw [← List.append_assoc, List.take_left' (by simp)]

theorem cutRepaired_of_openCurrent (positive : 0 < left) (inside : left < (entry.frame enc).length)
    (opened : openCurrent enc (segmentOf enc complete ++ (entry.frame enc).take left) =
      .ok (segmentOf enc complete)) : CutRepaired enc left entry.record := by
  by_contra notRepaired
  have tailSize : ((entry.frame enc).take left).length = left := by
    rw [List.length_take]
    omega
  rw [segmentOf, List.append_assoc, openCurrent_header, repairWALTail_header,
    repairOffset_framesOf fits] at opened
  split at opened
  · cases opened
  · have size := congrArg List.length (Except.ok.inj opened)
    simp only [List.length_append, tailSize] at size
    omega
  · next offset result =>
      have further := repairOffset_not_cut notRepaired inside result
      simp only [Option.some.injEq, reduceCtorEq, false_or, exists_eq_left'] at further
      have size := congrArg List.length (Except.ok.inj opened)
      simp only [List.length_take, List.length_append, length_walHeader, tailSize] at size
      omega

end

/-- A crash image of a written segment is reopened as it should be exactly when
the records involved stay within the reader's limits and the cut is one the
repair recognises. -/
theorem reopens_crash_image_iff (enc : Option Encryptor) (start : UInt64)
    (writes later : List Append)
    (room : start.toNat + writes.length + later.length < 2 ^ 64) (size : Nat)
    (header : 8 ≤ size) :
    Reopens enc ((writtenSegment enc start writes).take size)
        (completeEntries enc (size - 8) (entriesFrom start writes)) later ↔
      (∀ entry ∈ completeEntries enc (size - 8) (entriesFrom start writes),
        RecordFits enc entry.record) ∧
      (∀ append ∈ later, append.Fits enc) ∧
      ∀ left entry, cutEntry enc (size - 8) (entriesFrom start writes) = some (left, entry) →
        CutRepaired enc left entry.record := by
  have subset := completeEntries_subset enc (size - 8) (entriesFrom start writes)
  have ordered : InOrder (completeEntries enc (size - 8) (entriesFrom start writes)) :=
    (entriesFrom_inOrder (by omega)).sublist subset
  have bounded : ∀ entry ∈ completeEntries enc (size - 8) (entriesFrom start writes),
      entry.record.sequence.toNat ≤ start.toNat + writes.length := fun entry member =>
    (entriesFrom_bounds (by omega) entry (subset.subset member)).2
  have inside : ∀ left entry,
      cutEntry enc (size - 8) (entriesFrom start writes) = some (left, entry) →
        0 < left ∧ left < (entry.frame enc).length := fun _ _ => cutEntry_bounds
  rw [writtenSegment_eq, take_segmentOf header]
  generalize completeEntries enc (size - 8) (entriesFrom start writes) = complete
    at ordered bounded ⊢
  generalize cutEntry enc (size - 8) (entriesFrom start writes) = cut at inside ⊢
  constructor
  · rintro ⟨wal, opened, read, kept, readLater⟩
    have fits : ∀ entry ∈ complete, RecordFits enc entry.record := fun entry member =>
      readAll_fits read _ (List.mem_map_of_mem member)
    refine ⟨fits, ?_, ?_⟩
    · rw [← entriesFrom_fits enc wal.seq]
      intro entry member
      exact readAll_fits readLater _ (List.mem_append_right _ (List.mem_map_of_mem member))
    · rintro left entry rfl
      obtain ⟨file, records, repaired, -, rfl⟩ := openWALEncrypted_inv opened
      cases kept
      obtain ⟨positive, short⟩ := inside left entry rfl
      exact cutRepaired_of_openCurrent fits positive short repaired
  · rintro ⟨fits, laterFits, repaired⟩
    have read : readAll enc (LogImage.dir enc ⟨[], complete⟩) =
        .ok (complete.map LogEntry.record) := readAll_dir fits ordered
    have opened : openWALEncrypted enc ⟨[], some (segmentOf enc complete ++ cutTail enc cut)⟩ =
        .ok ⟨LogImage.dir enc ⟨[], complete⟩, lastSequence (complete.map LogEntry.record)⟩ :=
      openWALEncrypted_ok (openCurrent_cut fits inside repaired) read
    refine ⟨_, opened, read, rfl, ?_⟩
    have below : ∀ entry ∈ complete,
        entry.record.sequence ≤ lastSequence (complete.map LogEntry.record) := fun entry member =>
      le_lastSequence (List.mem_map_of_mem member)
    have last : (lastSequence (complete.map LogEntry.record)).toNat ≤
        start.toNat + writes.length := by
      apply toNat_lastSequence_le
      intro rec member
      obtain ⟨entry, found, rfl⟩ := List.mem_map.mp member
      exact bounded entry found
    generalize lastSequence (complete.map LogEntry.record) = seq at below last ⊢
    have allFits : ∀ entry ∈ complete ++ entriesFrom seq later, RecordFits enc entry.record := by
      intro entry member
      rcases List.mem_append.mp member with member | member
      · exact fits entry member
      · exact (entriesFrom_fits enc seq later).mpr laterFits entry member
    have allOrdered : InOrder (complete ++ entriesFrom seq later) := by
      refine List.pairwise_append.mpr ⟨ordered, entriesFrom_inOrder (by omega), ?_⟩
      intro earlier earlierMember appended appendedMember
      have above := (entriesFrom_bounds (by omega) appended appendedMember).1
      exact UInt64.lt_of_le_of_lt (below earlier earlierMember)
        (UInt64.lt_iff_toNat_lt.mpr above)
    rw [foldl_write_dir, ← List.map_append]
    exact readAll_dir allFits allOrdered

def oneSet : Append :=
  ⟨.zero, 0, [⟨recordSet, [0x6b], [0x76], 0⟩], by simp⟩

/-- Cut right behind its length word, a frame leaves a log that cannot be
opened: the read of the block ends before its first byte, which the repair does
not take for an incomplete frame. -/
theorem crash_behind_length_word :
    openWALEncrypted none ⟨[], some ((writtenSegment none 0 [oneSet]).take 12)⟩ =
        .error "wal: open v2 log: EOF (legacy WALs require offline reset/migration)" ∧
      ¬ Reopens none ((writtenSegment none 0 [oneSet]).take 12)
        (completeEntries none (12 - 8) (entriesFrom 0 [oneSet])) [] := by
  have image : (writtenSegment none 0 [oneSet]).take 12 =
      walHeader none ++ (BigEndian.encode 4 44 ++ []) := by
    decide
  have failed : openWALEncrypted none ⟨[], some ((writtenSegment none 0 [oneSet]).take 12)⟩ =
      .error "wal: open v2 log: EOF (legacy WALs require offline reset/migration)" := by
    have repaired : repairOffset none 8 (BigEndian.encode 4 44 ++ []) = .error "EOF" := by
      rw [repairOffset_word _ _ _ (BigEndian.length_encode 4 _),
        BigEndian.value_encode_of_lt (by decide), if_neg (by decide),
        ExactRead.read_nil (by decide)]
    simp only [openWALEncrypted, Option.getD_some, image, openCurrent_header,
      repairWALTail_header, repaired]
    rfl
  refine ⟨failed, ?_⟩
  rintro ⟨wal, opened, -⟩
  rw [failed] at opened
  cases opened

/-- Three bytes of the second frame are dropped and the log goes on. -/
theorem crash_inside_length_word :
    Reopens none ((writtenSegment none 0 [oneSet, oneSet]).take (8 + 48 + 3))
      (completeEntries none (8 + 48 + 3 - 8) (entriesFrom 0 [oneSet, oneSet])) [oneSet] := by
  refine (reopens_crash_image_iff none 0 [oneSet, oneSet] [oneSet] (by decide) (8 + 48 + 3)
    (by decide)).mpr ⟨?_, ?_, ?_⟩
  · decide
  · decide
  · intro left entry cut
    have size : (cutEntry none (8 + 48 + 3 - 8) (entriesFrom 0 [oneSet, oneSet])).map Prod.fst =
        some 3 := by decide
    rw [cut, Option.map_some, Option.some.injEq] at size
    exact Or.inl (by dsimp only at size; omega)

end Dbx.Persistence
