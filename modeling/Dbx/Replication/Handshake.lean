import Dbx.Persistence.Scan

/-!
# Replication handshake and sealed frames

A primary and a replica prove to each other that they hold the group token,
derive a key from it and both nonces, and from then on every log record travels
in a frame sealed under that key, with a counter for the nonce.

Each half of a handshake stops at its reads. A definition here runs from one read
to the next, and the bytes that the read finds on the connection are an argument.
-/

set_option autoImplicit false

namespace Dbx.Replication

open Dbx.Persistence

def handshakeMagic : Bytes := ascii "DBXREPL1"
def handshakeNonce : Nat := 32
def sha256Size : Nat := 32

def labelPrimary : Bytes := ascii "dbx-repl-primary"
def labelReplica : Bytes := ascii "dbx-repl-replica"
def labelSession : Bytes := ascii "dbx-repl-session"

def minTokenLength : Nat := 32

def sealOverhead : Nat := 16
def maxReplicationFrameSize : Nat := 64 * 2 ^ 20
def maxSealedFrameSize : Nat := maxReplicationFrameSize + sealOverhead

def errHandshake : String := "replication: handshake failed"

/-- HMAC-SHA256 and AES-256-GCM. A tag is a key that the cipher takes. -/
structure Primitives where
  hmac : (key message : Bytes) → Bytes
  aeadSeal : (key nonce plain : Bytes) → Bytes
  aeadOpen : (key nonce sealed : Bytes) → Option Bytes

/-- Read a frame that has to be exactly `want` bytes long. -/
def readExactFrame (want : Nat) (stream : Bytes) : Except String Bytes :=
  match ExactRead.read 4 stream with
  | .endOfStream => .error "EOF"
  | .unexpectedEnd => .error "unexpected EOF"
  | .complete header rest =>
    if BigEndian.value header ≠ want then .error errHandshake
    else
      match ExactRead.read want rest with
      | .endOfStream => .error "EOF"
      | .unexpectedEnd => .error "unexpected EOF"
      | .complete frame _ => .ok frame

/-- Read a sealed frame, as the loop of `consumeStream` does. -/
def readSealedFrame (stream : Bytes) : Option Bytes :=
  match ExactRead.read 4 stream with
  | .complete header rest =>
    let length := BigEndian.value header
    if length ≤ sealOverhead ∨ maxSealedFrameSize < length then none
    else
      match ExactRead.read length rest with
      | .complete sealed _ => some sealed
      | _ => none
  | _ => none

def writeFrame (data : Bytes) : Except String Bytes :=
  if data.length = 0 ∨ maxSealedFrameSize < data.length then .error "short buffer"
  else .ok (BigEndian.encode 4 data.length ++ data)

theorem length_readExactFrame {want : Nat} {stream frame : Bytes}
    (read : readExactFrame want stream = .ok frame) : frame.length = want := by
  unfold readExactFrame at read
  cases first : ExactRead.read 4 stream with
  | endOfStream => simp only [first, reduceCtorEq] at read
  | unexpectedEnd => simp only [first, reduceCtorEq] at read
  | complete header rest =>
    simp only [first] at read
    split at read
    · cases read
    cases second : ExactRead.read want rest with
    | endOfStream => simp only [second, reduceCtorEq] at read
    | unexpectedEnd => simp only [second, reduceCtorEq] at read
    | complete block tail =>
      simp only [second, Except.ok.injEq] at read
      rw [← read]
      exact (ExactRead.read_eq_complete second).2

theorem readExactFrame_write {frame : Bytes} (fits : frame.length < 256 ^ 4) :
    readExactFrame frame.length (BigEndian.encode 4 frame.length ++ frame) = .ok frame := by
  have word := BigEndian.value_encode_of_lt fits
  have whole : ExactRead.read frame.length frame = .complete frame [] := by
    have read := ExactRead.read_append ([] : Bytes) (rfl : frame.length = frame.length)
    rwa [List.append_nil] at read
  unfold readExactFrame
  rw [ExactRead.read_append frame (BigEndian.length_encode 4 frame.length)]
  simp only [word, ne_eq, not_true_eq_false, if_false, whole]

theorem readSealedFrame_write {sealed : Bytes} (long : sealOverhead < sealed.length)
    (fits : sealed.length ≤ maxSealedFrameSize) :
    readSealedFrame (BigEndian.encode 4 sealed.length ++ sealed) = some sealed := by
  have bounds : ¬ (sealed.length ≤ sealOverhead ∨ maxSealedFrameSize < sealed.length) := by omega
  have word : BigEndian.value (BigEndian.encode 4 sealed.length) = sealed.length := by
    refine BigEndian.value_encode_of_lt (Nat.lt_of_le_of_lt fits ?_)
    decide
  have whole : ExactRead.read sealed.length sealed = .complete sealed [] := by
    have read := ExactRead.read_append ([] : Bytes) (rfl : sealed.length = sealed.length)
    rwa [List.append_nil] at read
  unfold readSealedFrame
  rw [ExactRead.read_append sealed (BigEndian.length_encode 4 sealed.length)]
  simp only [word, if_neg bounds, whole]

/-- The cipher of one connection: its key and the number of the next frame. -/
structure FrameCipher where
  key : Bytes
  counter : UInt64
deriving DecidableEq, Repr

def counterNonce (counter : UInt64) : Bytes :=
  List.replicate 4 0 ++ BigEndian.encode 8 counter.toNat

/-- The counter moves on with every nonce, also with one that opens nothing. -/
def FrameCipher.nextNonce (cipher : FrameCipher) : Bytes × FrameCipher :=
  (counterNonce cipher.counter, { cipher with counter := cipher.counter + 1 })

def FrameCipher.seal (prims : Primitives) (cipher : FrameCipher) (plain : Bytes) :
    Bytes × FrameCipher :=
  let (nonce, next) := cipher.nextNonce
  (prims.aeadSeal cipher.key nonce plain, next)

/-- The method `open`. -/
def FrameCipher.openSealed (prims : Primitives) (cipher : FrameCipher) (sealed : Bytes) :
    Option Bytes × FrameCipher :=
  let (nonce, next) := cipher.nextNonce
  (prims.aeadOpen cipher.key nonce sealed, next)

theorem counterNonce_injective {left right : UInt64}
    (same : counterNonce left = counterNonce right) : left = right := by
  have digits : BigEndian.encode 8 left.toNat = BigEndian.encode 8 right.toNat :=
    List.append_cancel_left same
  have fits (counter : UInt64) : counter.toNat < 256 ^ 8 := counter.toNat_lt
  rw [← UInt64.toNat_inj, ← BigEndian.value_encode_of_lt (fits left), digits,
    BigEndian.value_encode_of_lt (fits right)]

section Handshake

variable (prims : Primitives) (token : Bytes)

def handshakeMAC (label first second : Bytes) : Bytes :=
  prims.hmac token (label ++ first ++ second)

def sessionCipher (replicaNonce primaryNonce : Bytes) : FrameCipher :=
  ⟨handshakeMAC prims token labelSession replicaNonce primaryNonce, 0⟩

/-- `serverHandshake` up to its second read: the replica's nonce, taken from its
hello, and the frame that challenges it. -/
def serverChallenge (primaryNonce stream : Bytes) : Except String (Bytes × Bytes) :=
  if token.length < minTokenLength then .error errHandshake
  else
    match readExactFrame (handshakeMagic.length + handshakeNonce) stream with
    | .error message => .error message
    | .ok hello =>
      if hello.take handshakeMagic.length ≠ handshakeMagic then .error errHandshake
      else
        let replicaNonce := hello.drop handshakeMagic.length
        let challenge := primaryNonce ++
          handshakeMAC prims token labelPrimary replicaNonce primaryNonce
        match writeFrame challenge with
        | .error message => .error message
        | .ok frame => .ok (replicaNonce, frame)

/-- The rest of `serverHandshake`, from the proof of the replica on. -/
def serverAccept (replicaNonce primaryNonce stream : Bytes) : Except String FrameCipher :=
  match readExactFrame sha256Size stream with
  | .error message => .error message
  | .ok proof =>
    if proof ≠ handshakeMAC prims token labelReplica primaryNonce replicaNonce then
      .error errHandshake
    else .ok (sessionCipher prims token replicaNonce primaryNonce)

/-- `clientHandshake` up to its read: the hello. -/
def clientHello (replicaNonce : Bytes) : Except String Bytes :=
  if token.length < minTokenLength then .error errHandshake
  else writeFrame (handshakeMagic ++ replicaNonce)

/-- The rest of `clientHandshake`, from the challenge on: the primary's nonce, the
frame with the proof and the cipher. -/
def clientProof (replicaNonce stream : Bytes) : Except String (Bytes × Bytes × FrameCipher) :=
  match readExactFrame (handshakeNonce + sha256Size) stream with
  | .error message => .error message
  | .ok challenge =>
    let primaryNonce := challenge.take handshakeNonce
    if challenge.drop handshakeNonce ≠
        handshakeMAC prims token labelPrimary replicaNonce primaryNonce then
      .error errHandshake
    else
      match writeFrame (handshakeMAC prims token labelReplica primaryNonce replicaNonce) with
      | .error message => .error message
      | .ok frame => .ok (primaryNonce, frame, sessionCipher prims token replicaNonce primaryNonce)

theorem serverChallenge_nonce {primaryNonce stream replicaNonce frame : Bytes}
    (answered : serverChallenge prims token primaryNonce stream = .ok (replicaNonce, frame)) :
    replicaNonce.length = handshakeNonce := by
  unfold serverChallenge at answered
  split at answered
  · cases answered
  cases read : readExactFrame (handshakeMagic.length + handshakeNonce) stream with
  | error message => simp only [read, reduceCtorEq] at answered
  | ok hello =>
    have size := length_readExactFrame read
    simp only [read] at answered
    split at answered
    · cases answered
    split at answered
    · cases answered
    · simp only [Except.ok.injEq, Prod.mk.injEq] at answered
      rw [← answered.1, List.length_drop, size, Nat.add_sub_cancel_left]

theorem serverAccept_checked {replicaNonce primaryNonce stream : Bytes} {cipher : FrameCipher}
    (accepted : serverAccept prims token replicaNonce primaryNonce stream = .ok cipher) :
    readExactFrame sha256Size stream =
        .ok (handshakeMAC prims token labelReplica primaryNonce replicaNonce) ∧
      cipher = sessionCipher prims token replicaNonce primaryNonce := by
  unfold serverAccept at accepted
  cases read : readExactFrame sha256Size stream with
  | error message => simp only [read, reduceCtorEq] at accepted
  | ok proof =>
    simp only [read] at accepted
    split at accepted
    · cases accepted
    next equal =>
      rw [Decidable.not_not] at equal
      cases accepted
      exact ⟨congrArg Except.ok equal, rfl⟩

theorem clientProof_checked {replicaNonce stream primaryNonce frame : Bytes}
    {cipher : FrameCipher}
    (proved : clientProof prims token replicaNonce stream = .ok (primaryNonce, frame, cipher)) :
    ∃ challenge, readExactFrame (handshakeNonce + sha256Size) stream = .ok challenge ∧
      challenge.take handshakeNonce = primaryNonce ∧
      challenge.drop handshakeNonce =
        handshakeMAC prims token labelPrimary replicaNonce primaryNonce ∧
      primaryNonce.length = handshakeNonce ∧
      cipher = sessionCipher prims token replicaNonce primaryNonce := by
  unfold clientProof at proved
  cases read : readExactFrame (handshakeNonce + sha256Size) stream with
  | error message => simp only [read, reduceCtorEq] at proved
  | ok challenge =>
    have size := length_readExactFrame read
    simp only [read] at proved
    split at proved
    · cases proved
    next equal =>
      rw [Decidable.not_not] at equal
      split at proved
      · cases proved
      simp only [Except.ok.injEq, Prod.mk.injEq] at proved
      obtain ⟨rfl, -, rfl⟩ := proved
      refine ⟨challenge, rfl, rfl, equal, ?_, rfl⟩
      rw [List.length_take, size]
      exact Nat.min_eq_left (Nat.le_add_right _ _)

/-- One turn of the loop of `consumeStream`, up to the record it decodes. -/
def consumeFrame (cipher : FrameCipher) (stream : Bytes) : Option WALRecord × FrameCipher :=
  match readSealedFrame stream with
  | none => (none, cipher)
  | some sealed =>
    match cipher.openSealed prims sealed with
    | (none, next) => (none, next)
    | (some data, next) =>
      match decodeRecord data with
      | .error _ => (none, next)
      | .ok rec => (some rec, next)

theorem consumeFrame_some {cipher next : FrameCipher} {stream : Bytes} {rec : WALRecord}
    (consumed : consumeFrame prims cipher stream = (some rec, next)) :
    next = { cipher with counter := cipher.counter + 1 } ∧
      ∃ sealed data, readSealedFrame stream = some sealed ∧
        prims.aeadOpen cipher.key (counterNonce cipher.counter) sealed = some data ∧
        decodeRecord data = .ok rec := by
  unfold consumeFrame at consumed
  cases read : readSealedFrame stream with
  | none => simp [read] at consumed
  | some sealed =>
    simp only [read, FrameCipher.openSealed, FrameCipher.nextNonce] at consumed
    cases opened : prims.aeadOpen cipher.key (counterNonce cipher.counter) sealed with
    | none => simp [opened] at consumed
    | some data =>
      simp only [opened] at consumed
      cases decoded : decodeRecord data with
      | error message => simp [decoded] at consumed
      | ok found =>
        simp only [decoded, Prod.mk.injEq, Option.some.injEq] at consumed
        obtain ⟨rfl, rfl⟩ := consumed
        exact ⟨rfl, sealed, data, rfl, opened, decoded⟩

theorem consumeFrame_key (cipher : FrameCipher) (stream : Bytes) :
    (consumeFrame prims cipher stream).2.key = cipher.key := by
  unfold consumeFrame
  cases readSealedFrame stream with
  | none => rfl
  | some sealed =>
    simp only [FrameCipher.openSealed, FrameCipher.nextNonce]
    cases prims.aeadOpen cipher.key (counterNonce cipher.counter) sealed with
    | none => rfl
    | some data =>
      cases decoded : decodeRecord data with
      | error message => simp only [decoded]
      | ok rec => simp only [decoded]

end Handshake

end Dbx.Replication
