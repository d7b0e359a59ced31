import Dbx.Persistence.ScanProperties

/-!
# The frame format is exact

Every byte of an accepted frame is determined by the record that is read from it.
The decoder is given a second time with the offsets of the source, where a read
that leaves the buffer has no result.
-/

set_option autoImplicit false

namespace Dbx.Persistence

/-!
## Encoding what was decoded
-/

theorem toUInt64_toInt64_ofNat {number : Nat} (fits : number < 256 ^ 8) :
    (UInt64.ofNat number).toInt64.toUInt64.toNat = number := by
  rw [UInt64.toUInt64_toInt64, UInt64.toNat_ofNat']
  exact Nat.mod_eq_of_lt fits

theorem encode_value_take {width : Nat} {bytes : Bytes} (long : width ≤ bytes.length) :
    BigEndian.encode width (BigEndian.value (bytes.take width)) = bytes.take width := by
  have size : (bytes.take width).length = width := List.length_take_of_le long
  have back := BigEndian.encode_value (bytes.take width)
  rwa [size] at back

theorem value_take_lt (width : Nat) (bytes : Bytes) :
    BigEndian.value (bytes.take width) < 256 ^ width := by
  refine (BigEndian.value_lt _).trans_le (Nat.pow_le_pow_right (by decide) ?_)
  exact List.length_take_le width bytes

theorem take_drop_append (bytes : Bytes) (start width : Nat) :
    (bytes.drop start).take width ++ bytes.drop (start + width) = bytes.drop start := by
  rw [← List.drop_drop]
  exact List.take_append_drop width (bytes.drop start)

theorem effect_pieces {body : Bytes} (long : ¬ body.length < 17) :
    body = body.headD 0 :: ((body.drop 1).take 4 ++ ((body.drop 5).take 4 ++
      ((body.drop 9).take 8 ++ body.drop 17))) := by
  rw [take_drop_append body 9 8, take_drop_append body 5 4, take_drop_append body 1 4]
  cases body with
  | nil => simp at long
  | cons head body => rfl

theorem decodeEffects_exact {count : Nat} {body tail : Bytes} {effects : List WALEffect}
    (decoded : decodeEffects count body = .ok (effects, tail)) :
    body = effects.flatMap encodeEffect ++ tail := by
  induction count generalizing body effects with
  | zero =>
    simp only [decodeEffects, Except.ok.injEq, Prod.mk.injEq] at decoded
    obtain ⟨rfl, rfl⟩ := decoded
    rfl
  | succ count ih =>
    rw [decodeEffects] at decoded
    by_cases short : body.length < 17
    · simp [short] at decoded
    simp only [short, if_false] at decoded
    generalize keyLen : BigEndian.value ((body.drop 1).take 4) = keySize at decoded
    generalize valueLen : BigEndian.value ((body.drop 5).take 4) = valueSize at decoded
    by_cases beyond : (body.drop 17).length < keySize + valueSize
    · simp only [beyond, if_true, reduceCtorEq] at decoded
    simp only [beyond, if_false] at decoded
    cases recursive : decodeEffects count ((body.drop 17).drop (keySize + valueSize)) with
    | error message => simp only [recursive, reduceCtorEq] at decoded
    | ok result =>
      obtain ⟨rest, restTail⟩ := result
      simp only [recursive, Except.ok.injEq, Prod.mk.injEq] at decoded
      obtain ⟨rfl, rfl⟩ := decoded
      have behind := ih recursive
      have pieces := effect_pieces short
      simp only [List.length_drop, Nat.not_lt] at beyond short
      have key : ((body.drop 17).take keySize).length = keySize :=
        List.length_take_of_le (by rw [List.length_drop]; omega)
      have value : (((body.drop 17).drop keySize).take valueSize).length = valueSize :=
        List.length_take_of_le (by rw [List.length_drop, List.length_drop]; omega)
      have deadline := toUInt64_toInt64_ofNat (value_take_lt 8 (body.drop 9))
      have content : body.drop 17 = (body.drop 17).take keySize ++
          (((body.drop 17).drop keySize).take valueSize ++
            (body.drop 17).drop (keySize + valueSize)) := by
        rw [take_drop_append (body.drop 17) keySize valueSize, List.take_append_drop]
      simp only [List.flatMap_cons, encodeEffect, key, value, deadline, List.append_assoc,
        List.cons_append]
      rw [← behind, ← content, ← keyLen, ← valueLen,
        encode_value_take (by rw [List.length_drop]; omega),
        encode_value_take (by rw [List.length_drop]; omega),
        encode_value_take (by rw [List.length_drop]; omega)]
      exact pieces

theorem decodeBody_exact {body : Bytes} {rec : WALRecord} (decoded : decodeBody body = .ok rec) :
    body = encodeBody rec := by
  unfold decodeBody at decoded
  by_cases version : body.headD 0 = 2
  · by_cases short : body.length < 21
    · simp only [version, ne_eq, not_true, if_false, short, if_true, reduceCtorEq] at decoded
    simp only [version, ne_eq, not_true, if_false, short] at decoded
    generalize counted : BigEndian.value ((body.drop 17).take 4) = count at decoded
    by_cases range : count = 0 ∨ 1000000 < count
    · simp [range] at decoded
    simp only [range, if_false] at decoded
    cases recursive : decodeEffects count (body.drop 21) with
    | error message => simp only [recursive, reduceCtorEq] at decoded
    | ok result =>
      obtain ⟨effects, tail⟩ := result
      simp only [recursive] at decoded
      by_cases trailing : tail.length = 0
      · simp only [trailing, not_true, if_false, Except.ok.injEq] at decoded
        subst decoded
        have behind := decodeEffects_exact recursive
        have number := (decodeEffects_size recursive).1
        rw [List.length_eq_zero_iff.mp trailing, List.append_nil] at behind
        have sequence : (UInt64.ofNat (BigEndian.value ((body.drop 1).take 8))).toNat =
            BigEndian.value ((body.drop 1).take 8) := by
          rw [UInt64.toNat_ofNat']
          exact Nat.mod_eq_of_lt (value_take_lt 8 (body.drop 1))
        have timestamp := toUInt64_toInt64_ofNat (value_take_lt 8 (body.drop 9))
        simp only [encodeBody, sequence, timestamp, number, List.append_assoc]
        rw [← behind, ← counted, encode_value_take (by rw [List.length_drop]; omega),
          encode_value_take (by rw [List.length_drop]; omega),
          encode_value_take (by rw [List.length_drop]; omega), take_drop_append body 17 4,
          take_drop_append body 9 8, take_drop_append body 1 8]
        cases body with
        | nil => simp at short
        | cons head body =>
          rw [List.headD_cons] at version
          rw [version]
          rfl
      · simp [trailing] at decoded
  · simp only [ne_eq, version, not_false_eq_true, if_true, reduceCtorEq] at decoded

theorem decodePayload_exact {payload : Bytes} {rec : WALRecord} (long : 25 ≤ payload.length)
    (decoded : decodePayload payload = .ok rec) : payload = encodePayload rec := by
  unfold decodePayload at decoded
  dsimp only at decoded
  split at decoded
  · cases decoded
  rename_i checked
  have body := decodeBody_exact decoded
  have size : (payload.drop (payload.length - 4)).length = 4 := by
    rw [List.length_drop]
    omega
  have checksum := BigEndian.encode_value (payload.drop (payload.length - 4))
  rw [size, ← not_not.mp checked] at checksum
  unfold encodePayload
  rw [← body, checksum, List.take_append_drop]

theorem scanFrames_exact (r : Bytes) (clean : (scanFrames false none r).error = none) :
    (scanFrames false none r).records.flatMap encodeRecordPlain = r := by
  fun_induction scanFrames false none r with
  | case1 r ended => exact (ExactRead.read_eq_endOfStream ended).symm
  | case2 | case3 | case4 | case5 | case6 | case7 | case8 => simp_all [Scan.failed]
  | case9 r lengthBuf rest lengthRead frameLen inRange frame behind blockRead rec decoded ih =>
    obtain ⟨rfl, wordSize⟩ := ExactRead.read_eq_complete lengthRead
    obtain ⟨rfl, size⟩ := ExactRead.read_eq_complete blockRead
    have long : 25 ≤ frame.length := by
      simp only [minBlockLength] at inRange
      omega
    have block := decodePayload_exact long decoded
    have word := BigEndian.encode_value lengthBuf
    have frameLength : BigEndian.value lengthBuf = frame.length := size.symm
    rw [wordSize, frameLength] at word
    simp only [Scan.cons, List.flatMap_cons, ih clean, encodeRecordPlain, frameOf]
    rw [← block, word, List.append_assoc]

theorem decodeFrames_exact {data : Bytes} {records : List WALRecord}
    (decoded : decodeFrames data false none = .ok records) :
    records.flatMap encodeRecordPlain = data := by
  unfold decodeFrames Scan.result at decoded
  cases clean : (scanFrames false none data).error with
  | some message => simp [clean] at decoded
  | none =>
    simp only [clean, Except.ok.injEq] at decoded
    rw [← decoded]
    exact scanFrames_exact data clean

theorem decodeRecord_encodeRecordPlain {rec : WALRecord} (fits : RecordFits none rec) :
    decodeRecord (encodeRecordPlain rec) = .ok rec := by
  let entry : LogEntry := ⟨⟨List.replicate 12 0, rfl⟩, rec⟩
  have read : decodeFrames (encodeRecordPlain rec) false none = .ok [rec] :=
    @decodeFrames_frame none entry fits false
  rw [decodeRecord, read]

theorem encodeRecordPlain_count {rec found : WALRecord}
    (same : encodeRecordPlain found = encodeRecordPlain rec) :
    found.effects.length % 256 ^ 4 = rec.effects.length % 256 ^ 4 := by
  have word (entry : WALRecord) : ∃ tail, encodeRecordPlain entry =
      (BigEndian.encode 4 (encodePayload entry).length ++ 2 ::
        (BigEndian.encode 8 entry.sequence.toNat ++
          BigEndian.encode 8 entry.timestamp.toUInt64.toNat)) ++
        (BigEndian.encode 4 entry.effects.length ++ tail) := by
    exact ⟨entry.effects.flatMap encodeEffect ++
      BigEndian.encode 4 (checksumIEEE (encodeBody entry)).toNat, by
        simp only [encodeRecordPlain, frameOf, encodePayload, encodeBody, List.append_assoc,
          List.cons_append]⟩
  obtain ⟨foundTail, foundBytes⟩ := word found
  obtain ⟨recTail, recBytes⟩ := word rec
  rw [foundBytes, recBytes] at same
  have behind := (List.append_inj same (by simp)).2
  have digits := (List.append_inj behind (by simp)).1
  rw [← BigEndian.value_encode, digits, BigEndian.value_encode]

theorem decodeRecord_encodeRecordPlain_eq {rec found : WALRecord}
    (decoded : decodeRecord (encodeRecordPlain rec) = .ok found) : found = rec := by
  have frames : decodeFrames (encodeRecordPlain rec) false none = .ok [found] := by
    unfold decodeRecord at decoded
    split at decoded <;> simp_all
  have same : encodeRecordPlain found = encodeRecordPlain rec := by
    simpa using decodeFrames_exact frames
  have fits : RecordFits none found := by
    unfold decodeFrames Scan.result at frames
    split at frames
    · next clean =>
        apply scanFrames_fits false none (encodeRecordPlain rec)
        rw [Except.ok.inj frames]
        exact List.mem_singleton_self found
    · cases frames
  have sized (entry : WALRecord) :
      (encodeRecordPlain entry).length = 4 + blockLength none entry := by
    simp [encodeRecordPlain, frameOf, length_encodePayload, blockLength, sealOverhead]
  have length : blockLength none found = blockLength none rec := by
    have := congrArg List.length same
    rw [sized, sized] at this
    omega
  have bound : rec.effects.length ≤ blockLength none rec := by
    have each : ∀ size ∈ rec.effects.map WALEffect.encodedSize, 1 ≤ size := by
      intro size member
      obtain ⟨effect, -, rfl⟩ := List.mem_map.mp member
      unfold WALEffect.encodedSize
      omega
    have total := List.length_le_sum_of_one_le _ each
    rw [List.length_map] at total
    unfold blockLength
    omega
  have count := encodeRecordPlain_count same
  have small := fits.size
  have total := fits.count
  have one := fits.nonempty
  simp only [maxWALFrameSize] at small
  have equal : found.effects.length = rec.effects.length := by
    rw [Nat.mod_eq_of_lt (by omega), Nat.mod_eq_of_lt (by omega)] at count
    exact count
  have recFits : RecordFits none rec := ⟨equal ▸ one, equal ▸ total, length ▸ fits.size⟩
  rw [decodeRecord_encodeRecordPlain recFits] at decoded
  exact (Except.ok.inj decoded).symm

/-!
## Reads stay inside the buffer

None stands for a read outside of the buffer, at which the program stops.
-/

/-- `buffer[start:stop]`. -/
def slice? (buffer : Bytes) (start stop : Nat) : Option Bytes :=
  if start ≤ stop ∧ stop ≤ buffer.length then some ((buffer.drop start).take (stop - start))
  else none

/-- `binary.BigEndian.Uint32(buffer[off:])` and its like for other widths. -/
def word? (width : Nat) (buffer : Bytes) (off : Nat) : Option Nat :=
  (slice? buffer off (off + width)).map BigEndian.value

def effectsAt (body : Bytes) : Nat → Nat → Option (Except String (List WALEffect × Nat))
  | 0, off => some (.ok ([], off))
  | count + 1, off =>
    if body.length < off + 17 then some (.error "truncated WAL effect header")
    else do
      let effectType ← body[off]?
      let keyLen ← word? 4 body (off + 1)
      let valueLen ← word? 4 body (off + 5)
      let expiresAt ← word? 8 body (off + 9)
      let off := off + 17
      if body.length < off + keyLen + valueLen then some (.error "invalid WAL effect lengths")
      else do
        let key ← slice? body off (off + keyLen)
        let value ← slice? body (off + keyLen) (off + keyLen + valueLen)
        match ← effectsAt body count (off + keyLen + valueLen) with
        | .error message => some (.error message)
        | .ok (effects, off) =>
          some (.ok (⟨effectType, key, value, (UInt64.ofNat expiresAt).toInt64⟩ :: effects, off))

def bodyAt (body : Bytes) : Option (Except String WALRecord) := do
  let version ← body[0]?
  if version ≠ 2 then some (.error ("unsupported WAL record version " ++ toString version.toNat))
  else if body.length < 21 then some (.error "truncated WAL transaction header")
  else do
    let sequence ← word? 8 body 1
    let timestamp ← word? 8 body 9
    let effectCount ← word? 4 body 17
    if effectCount = 0 ∨ 1000000 < effectCount then
      some (.error ("invalid WAL effect count " ++ toString effectCount))
    else
      match ← effectsAt body effectCount 21 with
      | .error message => some (.error message)
      | .ok (effects, off) =>
        if off ≠ body.length then
          some (.error ("WAL frame has " ++ toString (body.length - off) ++ " trailing bytes"))
        else some (.ok ⟨UInt64.ofNat sequence, (UInt64.ofNat timestamp).toInt64, effects⟩)

def frameAt (frame : Bytes) : Option (Except String WALRecord) :=
  if frame.length < 4 then none
  else do
    let body ← slice? frame 0 (frame.length - 4)
    let expectedCRC ← word? 4 frame (frame.length - 4)
    let actual := (checksumIEEE body).toNat
    if actual ≠ expectedCRC then
      some (.error
        ("WAL CRC mismatch (expected " ++ hex expectedCRC ++ ", got " ++ hex actual ++ ")"))
    else bodyAt body

theorem slice?_inside {buffer : Bytes} {start stop : Nat} (ordered : start ≤ stop)
    (inside : stop ≤ buffer.length) :
    slice? buffer start stop = some ((buffer.drop start).take (stop - start)) :=
  if_pos ⟨ordered, inside⟩

theorem word?_inside {width : Nat} {buffer : Bytes} {off : Nat}
    (inside : off + width ≤ buffer.length) :
    word? width buffer off = some (BigEndian.value ((buffer.drop off).take width)) := by
  rw [word?, slice?_inside (Nat.le_add_right _ _) inside, Nat.add_sub_cancel_left]
  rfl

theorem effectsAt_eq (body : Bytes) (count : Nat) {off : Nat} (inside : off ≤ body.length) :
    effectsAt body count off =
      some ((decodeEffects count (body.drop off)).map fun decoded =>
        (decoded.1, body.length - decoded.2.length)) := by
  induction count generalizing off with
  | zero =>
    have back : body.length - (body.length - off) = off := by omega
    simp [effectsAt, decodeEffects, Except.map, back]
  | succ count ih =>
    rw [effectsAt, decodeEffects, List.length_drop]
    by_cases short : body.length < off + 17
    · rw [if_pos short, if_pos (by omega)]
      rfl
    rw [if_neg short, if_neg (by omega)]
    have first : body[off]? = some ((body.drop off).headD 0) := by
      rw [← List.head?_drop]
      cases rest : body.drop off with
      | nil =>
        have := congrArg List.length rest
        simp only [List.length_drop, List.length_nil] at this
        omega
      | cons head rest => rfl
    rw [first, word?_inside (by omega), word?_inside (by omega), word?_inside (by omega)]
    simp only [Option.bind_eq_bind, Option.bind_some, List.drop_drop]
    generalize BigEndian.value ((body.drop (off + 1)).take 4) = keyLen
    generalize BigEndian.value ((body.drop (off + 5)).take 4) = valueLen
    rw [List.length_drop]
    by_cases beyond : body.length < off + 17 + keyLen + valueLen
    · rw [if_pos beyond, if_pos (by omega)]
      rfl
    rw [if_neg beyond, if_neg (by omega), slice?_inside (by omega) (by omega),
      slice?_inside (by omega) (by omega)]
    have keySize : off + 17 + keyLen - (off + 17) = keyLen := by omega
    have valueSize : off + 17 + keyLen + valueLen - (off + 17 + keyLen) = valueLen := by omega
    have next : off + 17 + (keyLen + valueLen) = off + 17 + keyLen + valueLen := by omega
    simp only [Option.bind_some, ih (Nat.not_lt.mp beyond), keySize, valueSize, next]
    cases decodeEffects count (body.drop (off + 17 + keyLen + valueLen)) <;> rfl

theorem bodyAt_eq {body : Bytes} (some : body ≠ []) : bodyAt body = .some (decodeBody body) := by
  have first : body[0]? = .some (body.headD 0) := by
    cases body with
    | nil => exact absurd rfl some
    | cons head body => rfl
  rw [bodyAt, decodeBody, first]
  simp only [Option.bind_eq_bind, Option.bind_some]
  by_cases version : body.headD 0 = 2
  · simp only [version, ne_eq, not_true, if_false]
    by_cases short : body.length < 21
    · rw [if_pos short, if_pos short]
    rw [if_neg short, if_neg short, word?_inside (by omega), word?_inside (by omega),
      word?_inside (by omega)]
    simp only [Option.bind_some]
    split
    · rfl
    rw [effectsAt_eq body _ (Nat.not_lt.mp short)]
    simp only [Option.bind_some]
    cases decoded : decodeEffects (BigEndian.value ((body.drop 17).take 4)) (body.drop 21) with
    | error message => rfl
    | ok result =>
      obtain ⟨effects, tail⟩ := result
      have size := (decodeEffects_size decoded).2
      rw [List.length_drop] at size
      simp only [Except.map]
      by_cases trailing : tail.length = 0
      · rw [if_neg (by omega), if_neg (by omega)]
      rw [if_pos (by omega), if_pos trailing]
      have rest : body.length - (body.length - tail.length) = tail.length := by omega
      rw [rest]
  · simp only [ne_eq, version, not_false_eq_true, if_true]

theorem frameAt_eq {frame : Bytes} (long : 25 ≤ frame.length) :
    frameAt frame = some (decodePayload frame) := by
  have body : frame.take (frame.length - 4) ≠ [] := by
    intro empty
    have := congrArg List.length empty
    simp only [List.length_take, List.length_nil] at this
    omega
  have checksum : (frame.drop (frame.length - 4)).take 4 = frame.drop (frame.length - 4) :=
    List.take_of_length_le (by rw [List.length_drop]; omega)
  rw [frameAt, decodePayload, if_neg (by omega), slice?_inside (Nat.zero_le _) (by omega),
    word?_inside (by omega), checksum]
  simp only [Option.bind_eq_bind, Option.bind_some, List.drop_zero, Nat.sub_zero]
  split
  · rfl
  · exact bodyAt_eq body

/-- The loop over the frames of a plain log in which no partial tail is allowed. -/
def framesAt (r : Bytes) : Option Scan :=
  match _ : ExactRead.read 4 r with
  | .endOfStream => some .done
  | .unexpectedEnd => some (.failed "WAL frame length: unexpected EOF")
  | .complete lengthBuf rest =>
    if BigEndian.value lengthBuf < minBlockLength none ∨
        maxWALFrameSize < BigEndian.value lengthBuf then
      some (.failed ("invalid WAL frame length " ++ toString (BigEndian.value lengthBuf)))
    else
      match _ : ExactRead.read (BigEndian.value lengthBuf) rest with
      | .endOfStream => some (.failed "WAL frame payload: EOF")
      | .unexpectedEnd => some (.failed "WAL frame payload: unexpected EOF")
      | .complete frame rest =>
        match frameAt frame with
        | none => none
        | some (.error message) => some (.failed message)
        | some (.ok rec) => (framesAt rest).map (.cons rec)
termination_by r.length
decreasing_by
  obtain ⟨rfl, lengthSize⟩ := ExactRead.read_eq_complete ‹ExactRead.read 4 _ = _›
  obtain ⟨rfl, -⟩ := ExactRead.read_eq_complete ‹ExactRead.read (BigEndian.value _) _ = _›
  simp only [List.length_append]
  omega

theorem framesAt_eq (r : Bytes) : framesAt r = some (scanFrames false none r) := by
  fun_induction framesAt r with
  | case1 r ended =>
    rw [ExactRead.read_eq_endOfStream ended, scanFrames_nil]
  | case2 r ended =>
    obtain ⟨some, short⟩ := ExactRead.read_eq_unexpectedEnd ended
    rw [scanFrames_short some short]
    rfl
  | case3 r lengthBuf rest read outside =>
    obtain ⟨rfl, size⟩ := ExactRead.read_eq_complete read
    rw [scanFrames_word false none rest size, if_pos outside]
  | case4 r lengthBuf rest read inside ended =>
    obtain ⟨rfl, size⟩ := ExactRead.read_eq_complete read
    rw [scanFrames_word false none rest size, if_neg inside]
    simp only [ended]
  | case5 r lengthBuf rest read inside ended =>
    obtain ⟨rfl, size⟩ := ExactRead.read_eq_complete read
    rw [scanFrames_word false none rest size, if_neg inside]
    simp only [ended]
    rfl
  | case6 r lengthBuf rest read inside frame behind blockRead stopped =>
    obtain ⟨-, size⟩ := ExactRead.read_eq_complete blockRead
    rw [frameAt_eq (by simp only [minBlockLength] at inside; omega)] at stopped
    cases stopped
  | case7 r lengthBuf rest read inside frame behind blockRead message decoded =>
    obtain ⟨rfl, size⟩ := ExactRead.read_eq_complete read
    obtain ⟨-, length⟩ := ExactRead.read_eq_complete blockRead
    rw [frameAt_eq (by simp only [minBlockLength] at inside; omega)] at decoded
    rw [scanFrames_word false none rest size, if_neg inside]
    simp only [blockRead, decodeBlock, Option.some.inj decoded]
  | case8 r lengthBuf rest read inside frame behind blockRead rec decoded ih =>
    obtain ⟨rfl, size⟩ := ExactRead.read_eq_complete read
    obtain ⟨-, length⟩ := ExactRead.read_eq_complete blockRead
    rw [frameAt_eq (by simp only [minBlockLength] at inside; omega)] at decoded
    rw [scanFrames_word false none rest size, if_neg inside, ih]
    simp only [blockRead, decodeBlock, Option.some.inj decoded, Option.map_some]

/-- Records within the limits are read back from their frames. Whatever the bytes,
the decoder reads inside them only, and what it returns without an error encodes
to the very same bytes. -/
theorem frame_format_exact :
    (∀ rec, RecordFits none rec → decodeRecord (encodeRecordPlain rec) = .ok rec) ∧
      ∀ data, framesAt data = some (scanFrames false none data) ∧
        ∀ records, decodeFrames data false none = .ok records →
          records.flatMap encodeRecordPlain = data :=
  ⟨fun _ fits => decodeRecord_encodeRecordPlain fits, fun data =>
    ⟨framesAt_eq data, fun _ decoded => decodeFrames_exact decoded⟩⟩

def twoEffects : WALRecord := ⟨7, -1, [⟨recordSet, [0x6b], [0x76], 0⟩, ⟨recordDelete, [], [], -5⟩]⟩

theorem two_effects_exact :
    decodeRecord (encodeRecordPlain twoEffects) = .ok twoEffects ∧
      ∀ records, decodeFrames (encodeRecordPlain twoEffects) false none = .ok records →
        records.flatMap encodeRecordPlain = encodeRecordPlain twoEffects :=
  ⟨frame_format_exact.1 twoEffects (by decide),
    (frame_format_exact.2 (encodeRecordPlain twoEffects)).2⟩

end Dbx.Persistence
