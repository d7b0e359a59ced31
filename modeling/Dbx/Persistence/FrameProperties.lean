import Dbx.Persistence.Scan
import Mathlib.Algebra.Order.BigOperators.Group.List

/-!
# Frame round trips

The decoder reads back every record whose block stays inside the limits the
reader enforces, and conversely it only ever returns records inside them. The
second half is what rules out that an oversized frame, whose length word has
lost its high bits, is mistaken for the record it was written for.
-/

set_option autoImplicit false

namespace Dbx.Persistence

def WALEffect.encodedSize (effect : WALEffect) : Nat :=
  17 + effect.key.length + effect.value.length

def sealOverhead : Option Encryptor → Nat
  | none => 0
  | some _ => 28

def blockLength (enc : Option Encryptor) (rec : WALRecord) : Nat :=
  25 + (rec.effects.map WALEffect.encodedSize).sum + sealOverhead enc

/-- The limits that a reader puts on a record: between one and a million
effects in a block of at most `maxWALFrameSize` bytes. -/
structure RecordFits (enc : Option Encryptor) (rec : WALRecord) : Prop where
  nonempty : 1 ≤ rec.effects.length
  count : rec.effects.length ≤ 1000000
  size : blockLength enc rec ≤ maxWALFrameSize

instance (enc : Option Encryptor) (rec : WALRecord) : Decidable (RecordFits enc rec) :=
  decidable_of_iff
    (1 ≤ rec.effects.length ∧ rec.effects.length ≤ 1000000 ∧
      blockLength enc rec ≤ maxWALFrameSize)
    ⟨fun ⟨nonempty, count, size⟩ => ⟨nonempty, count, size⟩,
      fun fits => ⟨fits.nonempty, fits.count, fits.size⟩⟩

@[simp] theorem length_encodeEffect (effect : WALEffect) :
    (encodeEffect effect).length = effect.encodedSize := by
  simp only [encodeEffect, WALEffect.encodedSize, List.length_cons, List.length_append,
    BigEndian.length_encode]
  omega

theorem length_flatMap_encodeEffect (effects : List WALEffect) :
    (effects.flatMap encodeEffect).length = (effects.map WALEffect.encodedSize).sum := by
  simp [List.length_flatMap]

theorem length_encodeBody (rec : WALRecord) :
    (encodeBody rec).length = 21 + (rec.effects.map WALEffect.encodedSize).sum := by
  simp only [encodeBody, List.length_cons, List.length_append, BigEndian.length_encode,
    length_flatMap_encodeEffect]
  omega

theorem length_encodePayload (rec : WALRecord) :
    (encodePayload rec).length = blockLength none rec := by
  simp only [encodePayload, List.length_append, length_encodeBody, BigEndian.length_encode,
    blockLength, sealOverhead]
  omega

section

variable (enc : Option Encryptor) (nonce : Nonce) (rec : WALRecord)

theorem length_encodeBlock : (encodeBlock enc nonce rec).length = blockLength enc rec := by
  cases enc with
  | none => exact length_encodePayload rec
  | some enc =>
    simp only [encodeBlock, enc.length_encrypt, length_encodePayload, blockLength, sealOverhead,
      Nat.add_zero]

theorem length_encodeRecord : (encodeRecord enc nonce rec).length = 4 + blockLength enc rec := by
  simp [encodeRecord, frameOf, length_encodeBlock]

theorem minBlockLength_le_blockLength : minBlockLength enc ≤ blockLength enc rec := by
  cases enc <;> simp only [minBlockLength, blockLength, sealOverhead] <;> omega

end

variable {enc : Option Encryptor} {rec : WALRecord}

theorem RecordFits.blockLength_lt (fits : RecordFits enc rec) : blockLength enc rec < 256 ^ 4 := by
  have size := fits.size
  unfold maxWALFrameSize at size
  omega

theorem encodedSize_le_sum {effects : List WALEffect} {effect : WALEffect}
    (member : effect ∈ effects) :
    effect.encodedSize ≤ (effects.map WALEffect.encodedSize).sum :=
  List.single_le_sum (fun _ _ => Nat.zero_le _) _ (List.mem_map_of_mem member)

private theorem decodeEffects_header (count : Nat) (type : UInt8)
    {keyWord valueWord deadlineWord : Bytes} (rest : Bytes)
    (keySize : keyWord.length = 4) (valueSize : valueWord.length = 4)
    (deadlineSize : deadlineWord.length = 8) :
    decodeEffects (count + 1) (type :: (keyWord ++ (valueWord ++ (deadlineWord ++ rest)))) =
      if rest.length < BigEndian.value keyWord + BigEndian.value valueWord then
        .error "invalid WAL effect lengths"
      else
        match decodeEffects count
            (rest.drop (BigEndian.value keyWord + BigEndian.value valueWord)) with
        | .error message => .error message
        | .ok (effects, tail) =>
          .ok ({
            type := type
            key := rest.take (BigEndian.value keyWord)
            value := (rest.drop (BigEndian.value keyWord)).take (BigEndian.value valueWord)
            expiresAt := (UInt64.ofNat (BigEndian.value deadlineWord)).toInt64
          } :: effects, tail) := by
  have long : ¬ (type :: (keyWord ++ (valueWord ++ (deadlineWord ++ rest)))).length < 17 := by
    simp only [List.length_cons, List.length_append, keySize, valueSize, deadlineSize]
    omega
  have afterKey : (keyWord ++ (valueWord ++ (deadlineWord ++ rest))).drop 4 =
      valueWord ++ (deadlineWord ++ rest) := List.drop_left' keySize
  have afterValue : (keyWord ++ (valueWord ++ (deadlineWord ++ rest))).drop 8 =
      deadlineWord ++ rest := by
    rw [← List.append_assoc]
    exact List.drop_left' (by simp [keySize, valueSize])
  have afterHeader : (keyWord ++ (valueWord ++ (deadlineWord ++ rest))).drop 16 = rest := by
    rw [← List.append_assoc, ← List.append_assoc]
    exact List.drop_left' (by simp [keySize, valueSize, deadlineSize])
  have equation := decodeEffects.eq_2
    (type :: (keyWord ++ (valueWord ++ (deadlineWord ++ rest)))) count
  rw [if_neg long] at equation
  simp only [List.drop_succ_cons, List.drop_zero, List.headD_cons, afterKey, afterValue,
    afterHeader, List.take_left' keySize, List.take_left' valueSize,
    List.take_left' deadlineSize] at equation
  exact equation

theorem decodeEffects_encodeEffect (effects : List WALEffect) (tail : Bytes)
    (small : ∀ effect ∈ effects, effect.encodedSize < 256 ^ 4) :
    decodeEffects effects.length (effects.flatMap encodeEffect ++ tail) =
      .ok (effects, tail) := by
  induction effects with
  | nil => rfl
  | cons effect effects ih =>
    have headSmall := small effect List.mem_cons_self
    have tailDecoded := ih fun other member => small other (List.mem_cons_of_mem _ member)
    unfold WALEffect.encodedSize at headSmall
    have keyLen : BigEndian.value (BigEndian.encode 4 effect.key.length) =
        effect.key.length :=
      BigEndian.value_encode_of_lt (by omega)
    have valueLen : BigEndian.value (BigEndian.encode 4 effect.value.length) =
        effect.value.length :=
      BigEndian.value_encode_of_lt (by omega)
    have deadline : BigEndian.value (BigEndian.encode 8 effect.expiresAt.toUInt64.toNat) =
        effect.expiresAt.toUInt64.toNat :=
      BigEndian.value_encode_of_lt effect.expiresAt.toUInt64.toNat_lt
    have beyond : (effect.key ++ (effect.value ++ (effects.flatMap encodeEffect ++ tail))).drop
        (effect.key.length + effect.value.length) = effects.flatMap encodeEffect ++ tail := by
      rw [← List.append_assoc]
      exact List.drop_left' (by simp)
    simp only [List.flatMap_cons, encodeEffect, List.length_cons, List.cons_append,
      List.append_assoc]
    rw [decodeEffects_header effects.length effect.type _ (BigEndian.length_encode _ _)
      (BigEndian.length_encode _ _) (BigEndian.length_encode _ _), keyLen, valueLen, deadline,
      if_neg (by simp only [List.length_append]; omega), beyond, tailDecoded]
    simp

private theorem decodeBody_header {sequenceWord timestampWord countWord : Bytes} (rest : Bytes)
    (sequenceSize : sequenceWord.length = 8) (timestampSize : timestampWord.length = 8)
    (countSize : countWord.length = 4) :
    decodeBody (2 :: (sequenceWord ++ (timestampWord ++ (countWord ++ rest)))) =
      if BigEndian.value countWord = 0 ∨ 1000000 < BigEndian.value countWord then
        .error ("invalid WAL effect count " ++ toString (BigEndian.value countWord))
      else
        match decodeEffects (BigEndian.value countWord) rest with
        | .error message => .error message
        | .ok (effects, tail) =>
          if tail.length ≠ 0 then
            .error ("WAL frame has " ++ toString tail.length ++ " trailing bytes")
          else
            .ok {
              sequence := UInt64.ofNat (BigEndian.value sequenceWord)
              timestamp := (UInt64.ofNat (BigEndian.value timestampWord)).toInt64
              effects := effects
            } := by
  have long : ¬ (2 :: (sequenceWord ++ (timestampWord ++ (countWord ++ rest)))).length < 21 := by
    simp only [List.length_cons, List.length_append, sequenceSize, timestampSize, countSize]
    omega
  have afterSequence : (sequenceWord ++ (timestampWord ++ (countWord ++ rest))).drop 8 =
      timestampWord ++ (countWord ++ rest) := List.drop_left' sequenceSize
  have afterTimestamp : (sequenceWord ++ (timestampWord ++ (countWord ++ rest))).drop 16 =
      countWord ++ rest := by
    rw [← List.append_assoc]
    exact List.drop_left' (by simp [sequenceSize, timestampSize])
  have afterHeader : (sequenceWord ++ (timestampWord ++ (countWord ++ rest))).drop 20 = rest := by
    rw [← List.append_assoc, ← List.append_assoc]
    exact List.drop_left' (by simp [sequenceSize, timestampSize, countSize])
  have equation := decodeBody.eq_1 (2 :: (sequenceWord ++ (timestampWord ++ (countWord ++ rest))))
  simp only [List.headD_cons, ne_eq, not_true_eq_false, ↓reduceIte, if_neg long,
    List.drop_succ_cons, List.drop_zero, afterSequence, afterTimestamp, afterHeader,
    List.take_left' sequenceSize, List.take_left' timestampSize, List.take_left' countSize]
    at equation
  exact equation

section

variable (nonempty : 1 ≤ rec.effects.length) (count : rec.effects.length ≤ 1000000)
  (small : ∀ effect ∈ rec.effects, effect.encodedSize < 256 ^ 4)
include nonempty count small

theorem decodeBody_encodeBody : decodeBody (encodeBody rec) = .ok rec := by
  have sequence : BigEndian.value (BigEndian.encode 8 rec.sequence.toNat) =
      rec.sequence.toNat :=
    BigEndian.value_encode_of_lt rec.sequence.toNat_lt
  have timestamp : BigEndian.value (BigEndian.encode 8 rec.timestamp.toUInt64.toNat) =
      rec.timestamp.toUInt64.toNat :=
    BigEndian.value_encode_of_lt rec.timestamp.toUInt64.toNat_lt
  have effectCount : BigEndian.value (BigEndian.encode 4 rec.effects.length) =
      rec.effects.length :=
    BigEndian.value_encode_of_lt (by omega)
  have decoded := decodeEffects_encodeEffect rec.effects [] small
  rw [List.append_nil] at decoded
  simp only [encodeBody, List.append_assoc]
  rw [decodeBody_header _ (BigEndian.length_encode _ _) (BigEndian.length_encode _ _)
    (BigEndian.length_encode _ _), effectCount, if_neg (by omega), decoded, sequence, timestamp]
  simp

theorem decodePayload_encodePayload : decodePayload (encodePayload rec) = .ok rec := by
  have checksum :
      BigEndian.value (BigEndian.encode 4 (checksumIEEE (encodeBody rec)).toNat) =
        (checksumIEEE (encodeBody rec)).toNat :=
    BigEndian.value_encode_of_lt (checksumIEEE (encodeBody rec)).toNat_lt
  have boundary : (encodePayload rec).length - 4 = (encodeBody rec).length := by
    simp [encodePayload]
  unfold decodePayload
  rw [boundary]
  simp only [encodePayload, List.take_left, List.drop_left, checksum, ne_eq, not_true_eq_false,
    ↓reduceIte]
  exact decodeBody_encodeBody nonempty count small

end

theorem decodeBlock_encodeBlock (fits : RecordFits enc rec) (nonce : Nonce) :
    decodeBlock enc (encodeBlock enc nonce rec) = .ok rec := by
  have small : ∀ effect ∈ rec.effects, effect.encodedSize < 256 ^ 4 := by
    intro effect member
    have single := encodedSize_le_sum member
    have total := fits.blockLength_lt
    unfold blockLength at total
    omega
  have decoded := decodePayload_encodePayload fits.nonempty fits.count small
  cases enc with
  | none => exact decoded
  | some enc =>
    have long : ¬ (encodePayload rec).length < 25 := by
      rw [length_encodePayload]
      exact Nat.not_lt.mpr (minBlockLength_le_blockLength none rec)
    simp only [encodeBlock, decodeBlock, enc.decrypt_encrypt, if_neg long, decoded]

theorem decodeEffects_size {count : Nat} {body tail : Bytes} {effects : List WALEffect}
    (decoded : decodeEffects count body = .ok (effects, tail)) :
    effects.length = count ∧
      body.length = (effects.map WALEffect.encodedSize).sum + tail.length := by
  induction count generalizing body effects with
  | zero =>
    simp only [decodeEffects, Except.ok.injEq, Prod.mk.injEq] at decoded
    obtain ⟨rfl, rfl⟩ := decoded
    simp
  | succ count ih =>
    unfold decodeEffects at decoded
    split at decoded
    · cases decoded
    next long =>
      dsimp only at decoded
      split at decoded
      · cases decoded
      next room =>
        split at decoded
        · cases decoded
        next rest restTail recursive =>
          simp only [Except.ok.injEq, Prod.mk.injEq] at decoded
          obtain ⟨rfl, rfl⟩ := decoded
          obtain ⟨counted, sized⟩ := ih recursive
          simp only [List.length_drop, Nat.not_lt] at sized room long
          simp only [List.length_cons, counted, List.map_cons, List.sum_cons,
            WALEffect.encodedSize, List.length_take, List.length_drop, true_and]
          omega

theorem decodeBody_fits {body : Bytes} (decoded : decodeBody body = .ok rec) :
    1 ≤ rec.effects.length ∧ rec.effects.length ≤ 1000000 ∧
      body.length = 21 + (rec.effects.map WALEffect.encodedSize).sum := by
  unfold decodeBody at decoded
  dsimp only at decoded
  split at decoded
  · cases decoded
  split at decoded
  · cases decoded
  next long =>
    split at decoded
    · cases decoded
    next bounded =>
      split at decoded
      · cases decoded
      next effects tail recursive =>
        split at decoded
        · cases decoded
        next empty =>
          cases decoded
          obtain ⟨counted, sized⟩ := decodeEffects_size recursive
          rw [List.length_drop] at sized
          dsimp only
          omega

theorem decodePayload_fits {payload : Bytes} (long : 25 ≤ payload.length)
    (decoded : decodePayload payload = .ok rec) :
    1 ≤ rec.effects.length ∧ rec.effects.length ≤ 1000000 ∧
      payload.length = blockLength none rec := by
  unfold decodePayload at decoded
  dsimp only at decoded
  split at decoded
  · cases decoded
  obtain ⟨nonempty, count, sized⟩ := decodeBody_fits decoded
  rw [List.length_take] at sized
  refine ⟨nonempty, count, ?_⟩
  simp only [blockLength, sealOverhead]
  omega

theorem decodeBlock_fits {block : Bytes} (long : minBlockLength enc ≤ block.length)
    (decoded : decodeBlock enc block = .ok rec) :
    1 ≤ rec.effects.length ∧ rec.effects.length ≤ 1000000 ∧
      block.length = blockLength enc rec := by
  cases enc with
  | none => exact decodePayload_fits long decoded
  | some enc =>
    unfold decodeBlock at decoded
    dsimp only at decoded
    split at decoded
    · cases decoded
    next plain opened =>
      split at decoded
      · cases decoded
      next plainLong =>
        obtain ⟨nonempty, count, sized⟩ :=
          decodePayload_fits (Nat.not_lt.mp plainLong) decoded
        refine ⟨nonempty, count, ?_⟩
        rw [enc.length_decrypt block plain opened, sized]
        simp only [blockLength, sealOverhead, Nat.add_zero]

end Dbx.Persistence
