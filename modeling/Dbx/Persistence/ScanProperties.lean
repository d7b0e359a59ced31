import Dbx.Persistence.FrameProperties

/-!
# What the two frame loops read

Both loops consume a complete frame of a record within the limits and go on
behind it. They differ from each other only in how they answer the end of the
file, so the lemmas come in pairs.
-/

set_option autoImplicit false

namespace Dbx.Persistence

structure LogEntry where
  nonce : Nonce
  record : WALRecord

def LogEntry.frame (enc : Option Encryptor) (entry : LogEntry) : Bytes :=
  encodeRecord enc entry.nonce entry.record

def framesOf (enc : Option Encryptor) (entries : List LogEntry) : Bytes :=
  entries.flatMap (LogEntry.frame enc)

@[simp] theorem framesOf_nil (enc : Option Encryptor) : framesOf enc [] = [] := rfl

section

variable (enc : Option Encryptor) (entry : LogEntry)

@[simp] theorem framesOf_cons (entries : List LogEntry) :
    framesOf enc (entry :: entries) = entry.frame enc ++ framesOf enc entries := rfl

@[simp] theorem framesOf_append (first second : List LogEntry) :
    framesOf enc (first ++ second) = framesOf enc first ++ framesOf enc second := by
  simp [framesOf]

/-- The length word of a frame, which has lost the high bits of an oversized
block's length. -/
def lengthWord (enc : Option Encryptor) (rec : WALRecord) : Nat :=
  blockLength enc rec % 256 ^ 4

theorem LogEntry.frame_eq :
    entry.frame enc = BigEndian.encode 4 (blockLength enc entry.record) ++
      encodeBlock enc entry.nonce entry.record := by
  simp only [LogEntry.frame, encodeRecord, frameOf, length_encodeBlock]

theorem LogEntry.length_frame : (entry.frame enc).length = 4 + blockLength enc entry.record :=
  length_encodeRecord enc entry.nonce entry.record

end

variable {enc : Option Encryptor}

theorem RecordFits.lengthInRange {rec : WALRecord} (fits : RecordFits enc rec) :
    ¬ (blockLength enc rec < minBlockLength enc ∨ maxWALFrameSize < blockLength enc rec) := by
  have lower := minBlockLength_le_blockLength enc rec
  have upper := fits.size
  omega

@[simp] theorem scanFrames_nil (allowPartialTail : Bool) (enc : Option Encryptor) :
    scanFrames allowPartialTail enc [] = .done := by
  rw [scanFrames]
  rfl

theorem scanFrames_short {allowPartialTail : Bool} {tail : Bytes} (some : 0 < tail.length)
    (short : tail.length < 4) :
    scanFrames allowPartialTail enc tail =
      if allowPartialTail then .done else .failed "WAL frame length: unexpected EOF" := by
  have read := ExactRead.read_short some short
  rw [scanFrames]
  split <;> simp_all

theorem scanFrames_word (allowPartialTail : Bool) (enc : Option Encryptor) {word : Bytes}
    (rest : Bytes) (size : word.length = 4) :
    scanFrames allowPartialTail enc (word ++ rest) =
      if BigEndian.value word < minBlockLength enc ∨ maxWALFrameSize < BigEndian.value word then
        .failed ("invalid WAL frame length " ++ toString (BigEndian.value word))
      else
        match ExactRead.read (BigEndian.value word) rest with
        | .endOfStream => .failed "WAL frame payload: EOF"
        | .unexpectedEnd =>
          if allowPartialTail then .done else .failed "WAL frame payload: unexpected EOF"
        | .complete frame rest =>
          match decodeBlock enc frame with
          | .error message => .failed message
          | .ok rec => .cons rec (scanFrames allowPartialTail enc rest) := by
  have read := ExactRead.read_append rest size
  rw [scanFrames]
  split
  · simp_all
  · simp_all
  · next lengthBuf behind completed =>
      rw [read] at completed
      cases completed
      dsimp only
      split
      · rfl
      · split
        all_goals
          next blockRead =>
            rewrite [blockRead]
            rfl

theorem scanFrames_frame {entry : LogEntry} (fits : RecordFits enc entry.record)
    (allowPartialTail : Bool) (rest : Bytes) :
    scanFrames allowPartialTail enc (entry.frame enc ++ rest) =
      .cons entry.record (scanFrames allowPartialTail enc rest) := by
  rw [LogEntry.frame_eq, List.append_assoc,
    scanFrames_word _ _ _ (BigEndian.length_encode 4 _),
    BigEndian.value_encode_of_lt fits.blockLength_lt, if_neg fits.lengthInRange,
    ExactRead.read_append rest (length_encodeBlock enc entry.nonce entry.record)]
  simp only [decodeBlock_encodeBlock fits]

/-- Complete frames are read one after another, whatever follows them. -/
theorem scanFrames_framesOf {entries : List LogEntry}
    (fits : ∀ entry ∈ entries, RecordFits enc entry.record) (allowPartialTail : Bool)
    (rest : Bytes) :
    scanFrames allowPartialTail enc (framesOf enc entries ++ rest) =
      ⟨entries.map LogEntry.record ++ (scanFrames allowPartialTail enc rest).records,
        (scanFrames allowPartialTail enc rest).error⟩ := by
  induction entries with
  | nil => rfl
  | cons entry entries ih =>
    rw [framesOf_cons, List.append_assoc, scanFrames_frame (fits entry List.mem_cons_self),
      ih fun other member => fits other (List.mem_cons_of_mem _ member)]
    rfl

theorem scanFrames_fits (allowPartialTail : Bool) (enc : Option Encryptor) (r : Bytes) :
    ∀ rec ∈ (scanFrames allowPartialTail enc r).records, RecordFits enc rec := by
  fun_induction scanFrames allowPartialTail enc r with
  | case1 | case2 | case3 | case4 | case5 | case6 | case7 | case8 =>
    simp [Scan.done, Scan.failed]
  | case9 r lengthBuf rest _ frameLen inRange frame behind blockRead rec decoded ih =>
    intro member found
    rcases List.mem_cons.mp found with rfl | found
    · obtain ⟨-, size⟩ := ExactRead.read_eq_complete blockRead
      obtain ⟨nonempty, count, sized⟩ := decodeBlock_fits (by omega) decoded
      exact ⟨nonempty, count, by omega⟩
    · exact ih member found

theorem decodeFrames_frame {enc : Option Encryptor} {entry : LogEntry}
    (fits : RecordFits enc entry.record) (allowPartialTail : Bool) :
    decodeFrames (entry.frame enc) allowPartialTail enc = .ok [entry.record] := by
  have scanned := scanFrames_frame fits allowPartialTail []
  rw [List.append_nil, scanFrames_nil] at scanned
  simp only [decodeFrames, scanned]
  rfl

@[simp] theorem repairOffset_nil (enc : Option Encryptor) (validOffset : Nat) :
    repairOffset enc validOffset [] = .ok none := by
  rw [repairOffset]
  rfl

theorem repairOffset_short {tail : Bytes} (validOffset : Nat) (some : 0 < tail.length)
    (short : tail.length < 4) :
    repairOffset enc validOffset tail = .ok (.some validOffset) := by
  have read := ExactRead.read_short some short
  rw [repairOffset]
  split <;> simp_all

theorem repairOffset_word (enc : Option Encryptor) (validOffset : Nat) {word : Bytes}
    (rest : Bytes) (size : word.length = 4) :
    repairOffset enc validOffset (word ++ rest) =
      if BigEndian.value word < minBlockLength enc ∨ maxWALFrameSize < BigEndian.value word then
        .error ("invalid WAL frame length " ++ toString (BigEndian.value word))
      else
        match ExactRead.read (BigEndian.value word) rest with
        | .endOfStream => .error "EOF"
        | .unexpectedEnd => .ok (some validOffset)
        | .complete frame rest =>
          match decodeFrames (word ++ frame) false enc with
          | .error message => .error message
          | .ok _ => repairOffset enc (validOffset + (4 + BigEndian.value word)) rest := by
  have read := ExactRead.read_append rest size
  rw [repairOffset]
  split
  · simp_all
  · simp_all
  · next lengthBuf behind completed =>
      rw [read] at completed
      cases completed
      dsimp only
      split
      · rfl
      · split
        all_goals
          next blockRead =>
            rewrite [blockRead]
            rfl

theorem repairOffset_frame {entry : LogEntry} (fits : RecordFits enc entry.record)
    (validOffset : Nat) (rest : Bytes) :
    repairOffset enc validOffset (entry.frame enc ++ rest) =
      repairOffset enc (validOffset + (entry.frame enc).length) rest := by
  have decoded := decodeFrames_frame fits false
  rw [LogEntry.length_frame]
  rw [LogEntry.frame_eq] at decoded ⊢
  rw [List.append_assoc, repairOffset_word _ _ _ (BigEndian.length_encode 4 _),
    BigEndian.value_encode_of_lt fits.blockLength_lt, if_neg fits.lengthInRange,
    ExactRead.read_append rest (length_encodeBlock enc entry.nonce entry.record)]
  simp only [decoded]

theorem repairOffset_framesOf {entries : List LogEntry}
    (fits : ∀ entry ∈ entries, RecordFits enc entry.record) (validOffset : Nat) (rest : Bytes) :
    repairOffset enc validOffset (framesOf enc entries ++ rest) =
      repairOffset enc (validOffset + (framesOf enc entries).length) rest := by
  induction entries generalizing validOffset with
  | nil => rfl
  | cons entry entries ih =>
    rw [framesOf_cons, List.append_assoc, repairOffset_frame (fits entry List.mem_cons_self),
      ih fun other member => fits other (List.mem_cons_of_mem _ member), List.length_append,
      Nat.add_assoc]

/-- The repair never truncates below the offset it starts from. -/
theorem repairOffset_ge {validOffset offset : Nat} {r : Bytes}
    (repaired : repairOffset enc validOffset r = .ok (some offset)) : validOffset ≤ offset := by
  fun_induction repairOffset enc validOffset r with
  | case1 | case3 | case4 | case6 => cases repaired
  | case2 | case5 =>
    cases repaired
    exact Nat.le_refl _
  | case7 validOffset r length rest _ frameLen inRange frame behind blockRead records decoded ih =>
    exact Nat.le_trans (Nat.le_add_right _ _) (ih repaired)

end Dbx.Persistence
