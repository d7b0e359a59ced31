import Dbx.Engine.VectorOps
import Dbx.Persistence.Frame

/-!
# Vector payloads

How the effects of vector commands are written into the value of an effect.
Single vectors use big-endian words and batches little-endian ones.
-/

set_option autoImplicit false

namespace Dbx.Persistence

open Dbx.Engine (Vec)

def encodeVMigrateStartPayload (dim : Nat) (encoding : Bytes) : Bytes :=
  BigEndian.encode 4 dim ++ BigEndian.encode 4 encoding.length ++ encoding

def decodeVMigrateStartPayload (data : Bytes) : Except String (Nat × Bytes) :=
  if data.length < 8 then .error "short migrate start payload"
  else
    let dim := BigEndian.value (data.take 4)
    let encLen := BigEndian.value ((data.drop 4).take 4)
    if dim = 0 ∨ data.length < 8 + encLen then .error "invalid migrate start payload"
    else .ok (dim, (data.drop 8).take encLen)

def encodeVAddPayload (docID : Bytes) (vec : Vec) : Bytes :=
  BigEndian.encode 4 docID.length ++ docID ++
    vec.flatMap fun bits => BigEndian.encode 4 bits.toNat

/-- Whole words, most significant byte first; a rest of less than four bytes is
left out. -/
def decodeWords : Bytes → Vec
  | b0 :: b1 :: b2 :: b3 :: rest =>
    UInt32.ofNat (BigEndian.value [b0, b1, b2, b3]) :: decodeWords rest
  | _ => []

/-- An empty id and no vector stand for a payload that is too short. -/
def decodeVAddPayload (data : Bytes) : Bytes × Vec :=
  if data.length < 4 then ([], [])
  else
    let docLen := BigEndian.value (data.take 4)
    if data.length < 4 + docLen then ([], [])
    else ((data.drop 4).take docLen, decodeWords (data.drop (4 + docLen)))

def littleEndianNat (number : Nat) : Bytes :=
  Engine.littleEndian (UInt32.ofNat number)

def encodeVAddBatchPayload (dim : Nat) (items : List (Bytes × Vec)) : Bytes :=
  littleEndianNat dim ++ littleEndianNat items.length ++
    items.flatMap fun (id, vec) =>
      littleEndianNat id.length ++ id ++ (vec.take dim).flatMap Engine.littleEndian

/-- `binary.LittleEndian.Uint32` of the first four bytes. -/
def takeLittleEndian : Bytes → Option (UInt32 × Bytes)
  | b0 :: b1 :: b2 :: b3 :: rest =>
    some (b0.toUInt32 ||| b1.toUInt32 <<< 8 ||| b2.toUInt32 <<< 16 ||| b3.toUInt32 <<< 24, rest)
  | _ => none

def takeVector : Nat → Bytes → Option (Vec × Bytes)
  | 0, data => some ([], data)
  | dim + 1, data => do
    let (bits, rest) ← takeLittleEndian data
    let (vec, rest) ← takeVector dim rest
    return (bits :: vec, rest)

def takeItems (dim : Nat) : Nat → Bytes → Option (List (Bytes × Vec))
  | 0, _ => some []
  | count + 1, data => do
    let (idLen, rest) ← takeLittleEndian data
    if rest.length < idLen.toNat then none
    else
      let (vec, tail) ← takeVector dim (rest.drop idLen.toNat)
      let items ← takeItems dim count tail
      return (rest.take idLen.toNat, vec) :: items

/-- None stands for an access behind the end of the payload, which panics. -/
def decodeVAddBatchPayload (data : Bytes) : Option (Nat × List (Bytes × Vec)) :=
  if data.length < 8 then some (0, [])
  else do
    let (dim, rest) ← takeLittleEndian data
    let (numVectors, rest) ← takeLittleEndian rest
    let items ← takeItems dim.toNat numVectors.toNat rest
    return (dim.toNat, items)

end Dbx.Persistence
