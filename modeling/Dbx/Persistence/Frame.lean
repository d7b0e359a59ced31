import Dbx.Basic
import Dbx.Library.ByteStream

/-!
# WAL frames

Records, effects and the version 2 frame layout. A frame is a four-byte length
followed by that many bytes: the record body and a checksum over it, sealed as
one block when the log is encrypted.
-/

set_option autoImplicit false

namespace Dbx.Persistence

def recordSet : UInt8 := 1
def recordDelete : UInt8 := 2
def recordExpire : UInt8 := 3
def recordVAdd : UInt8 := 4
def recordVAddBatch : UInt8 := 5
def recordVTombstone : UInt8 := 6
def recordDeleteIndex : UInt8 := 7
def recordVMigrateStart : UInt8 := 8
def recordVMigrateAdd : UInt8 := 9
def recordVMigrateSwap : UInt8 := 10
def recordVMigrateCancel : UInt8 := 11

/-- `"DBXWAL2\n"`. -/
def walV2Magic : Bytes := [0x44, 0x42, 0x58, 0x57, 0x41, 0x4c, 0x32, 0x0a]

/-- `"DBXWALe2"`. -/
def walEncMagic : Bytes := [0x44, 0x42, 0x58, 0x57, 0x41, 0x4c, 0x65, 0x32]

def maxWALFrameSize : Nat := 64 * 2 ^ 20

/-- The state one transaction installs for a key. `expiresAt` is an absolute
Unix-nanosecond deadline, zero for none. -/
structure WALEffect where
  type : UInt8
  key : Bytes
  value : Bytes
  expiresAt : Int64
deriving DecidableEq, Repr

structure WALRecord where
  sequence : UInt64
  timestamp : Int64
  effects : List WALEffect
deriving DecidableEq, Repr

/-- A fresh nonce of `gcm.NonceSize()` bytes. -/
structure Nonce where
  bytes : Bytes
  size : bytes.length = 12

def Nonce.zero : Nonce := ⟨List.replicate 12 0, rfl⟩

/-- AES-256-GCM under one fixed key, as the log uses it. The nonce leads the
ciphertext and a 16-byte tag ends it; opening yields what was sealed, and only
blocks longer than their plaintext by nonce and tag open at all. -/
structure Encryptor where
  encrypt : Nonce → Bytes → Bytes
  decrypt : Bytes → Option Bytes
  decrypt_encrypt : ∀ nonce plaintext, decrypt (encrypt nonce plaintext) = some plaintext
  length_encrypt : ∀ nonce plaintext, (encrypt nonce plaintext).length = plaintext.length + 28
  length_decrypt : ∀ ciphertext plaintext, decrypt ciphertext = some plaintext →
    ciphertext.length = plaintext.length + 28

/-- A cipher that hides nothing, with nonce and tag in their places. -/
instance : Inhabited Encryptor where
  default :=
    { encrypt := fun nonce plaintext => nonce.bytes ++ plaintext ++ List.replicate 16 0
      decrypt := fun ciphertext =>
        if ciphertext.length < 28 then none
        else some ((ciphertext.drop 12).take (ciphertext.length - 28))
      decrypt_encrypt := fun nonce plaintext => by
        have size : (nonce.bytes ++ plaintext ++ List.replicate 16 (0 : UInt8)).length =
            plaintext.length + 28 := by
          simp only [List.length_append, List.length_replicate, nonce.size]
          omega
        rw [size, if_neg (by omega), Nat.add_sub_cancel, List.append_assoc,
          List.drop_left' nonce.size, List.take_left]
      length_encrypt := fun nonce plaintext => by
        simp only [List.length_append, List.length_replicate, nonce.size]
        omega
      length_decrypt := fun ciphertext plaintext opened => by
        split at opened
        · cases opened
        · cases opened
          rw [List.length_take, List.length_drop]
          omega }

/-- One bit of the reflected CRC-32 division by the IEEE polynomial. -/
def crcBit (crc : UInt32) : UInt32 :=
  if crc &&& 1 = 1 then (crc >>> 1) ^^^ 0xEDB88320 else crc >>> 1

def crcByte (crc : UInt32) (byte : UInt8) : UInt32 :=
  Nat.iterate crcBit 8 (crc ^^^ byte.toUInt32)

/-- `crc32.ChecksumIEEE`. -/
def checksumIEEE (data : Bytes) : UInt32 :=
  ~~~ (data.foldl crcByte 0xFFFFFFFF)

-- The standard check value of CRC-32, over the digits 1 to 9.
example : checksumIEEE [0x31, 0x32, 0x33, 0x34, 0x35, 0x36, 0x37, 0x38, 0x39] = 0xCBF43926 := by
  decide +kernel

def encodeEffect (effect : WALEffect) : Bytes :=
  effect.type ::
    (BigEndian.encode 4 effect.key.length ++ BigEndian.encode 4 effect.value.length ++
      BigEndian.encode 8 effect.expiresAt.toUInt64.toNat ++ effect.key ++ effect.value)

def encodeBody (rec : WALRecord) : Bytes :=
  2 :: (BigEndian.encode 8 rec.sequence.toNat ++
    BigEndian.encode 8 rec.timestamp.toUInt64.toNat ++
    BigEndian.encode 4 rec.effects.length ++ rec.effects.flatMap encodeEffect)

def encodePayload (rec : WALRecord) : Bytes :=
  encodeBody rec ++ BigEndian.encode 4 (checksumIEEE (encodeBody rec)).toNat

/-- The length word keeps the low 32 bits of the block's length, as `uint32` does. -/
def frameOf (block : Bytes) : Bytes :=
  BigEndian.encode 4 block.length ++ block

def encodeRecordPlain (rec : WALRecord) : Bytes :=
  frameOf (encodePayload rec)

def encodeBlock (enc : Option Encryptor) (nonce : Nonce) (rec : WALRecord) : Bytes :=
  match enc with
  | none => encodePayload rec
  | some enc => enc.encrypt nonce (encodePayload rec)

def encodeRecord (enc : Option Encryptor) (nonce : Nonce) (rec : WALRecord) : Bytes :=
  frameOf (encodeBlock enc nonce rec)

/-- Lower-case hexadecimal digits, the verb `%x`. -/
def hex (number : Nat) : String :=
  String.ofList (Nat.toDigits 16 number)

/-- Decode `count` effects and return the bytes that follow them. -/
def decodeEffects : Nat → Bytes → Except String (List WALEffect × Bytes)
  | 0, body => .ok ([], body)
  | count + 1, body =>
    if body.length < 17 then
      .error "truncated WAL effect header"
    else
      let keyLen := BigEndian.value ((body.drop 1).take 4)
      let valueLen := BigEndian.value ((body.drop 5).take 4)
      let expiresAt := (UInt64.ofNat (BigEndian.value ((body.drop 9).take 8))).toInt64
      let rest := body.drop 17
      if rest.length < keyLen + valueLen then
        .error "invalid WAL effect lengths"
      else
        let effect : WALEffect := {
          type := body.headD 0
          key := rest.take keyLen
          value := (rest.drop keyLen).take valueLen
          expiresAt := expiresAt
        }
        match decodeEffects count (rest.drop (keyLen + valueLen)) with
        | .error message => .error message
        | .ok (effects, tail) => .ok (effect :: effects, tail)

def decodeBody (body : Bytes) : Except String WALRecord :=
  let version := body.headD 0
  if version ≠ 2 then
    .error ("unsupported WAL record version " ++ toString version.toNat)
  else if body.length < 21 then
    .error "truncated WAL transaction header"
  else
    let effectCount := BigEndian.value ((body.drop 17).take 4)
    if effectCount = 0 ∨ 1000000 < effectCount then
      .error ("invalid WAL effect count " ++ toString effectCount)
    else
      match decodeEffects effectCount (body.drop 21) with
      | .error message => .error message
      | .ok (effects, tail) =>
        if tail.length ≠ 0 then
          .error ("WAL frame has " ++ toString tail.length ++ " trailing bytes")
        else
          .ok {
            sequence := UInt64.ofNat (BigEndian.value ((body.drop 1).take 8))
            timestamp := (UInt64.ofNat (BigEndian.value ((body.drop 9).take 8))).toInt64
            effects := effects
          }

/-- Check the checksum that ends an unsealed block and decode what precedes it. -/
def decodePayload (payload : Bytes) : Except String WALRecord :=
  let body := payload.take (payload.length - 4)
  let expectedCRC := BigEndian.value (payload.drop (payload.length - 4))
  let actual := (checksumIEEE body).toNat
  if actual ≠ expectedCRC then
    .error ("WAL CRC mismatch (expected " ++ hex expectedCRC ++ ", got " ++ hex actual ++ ")")
  else
    decodeBody body

/-- Decode the block of one frame, unsealing it first in an encrypted log. -/
def decodeBlock (enc : Option Encryptor) (block : Bytes) : Except String WALRecord :=
  match enc with
  | none => decodePayload block
  | some enc =>
    match enc.decrypt block with
    | none => .error "WAL decrypt: cipher: message authentication failed"
    | some plain =>
      if plain.length < 25 then
        .error ("invalid WAL frame length " ++ toString plain.length)
      else
        decodePayload plain

end Dbx.Persistence
