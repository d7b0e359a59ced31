import Dbx.Engine.KV

/-!
# Vector indexes and their files

One index keeps its rows in a memory-mapped file, its ids, tombstones and
generations in a metadata file beside it, and a cache of the search graph in a
third. Stores through the mapping reach the row file at once. File operations
succeed; an opening that is refused still closes what it had opened, and closing
writes files.
-/

set_option autoImplicit false

namespace Dbx.Engine

inductive VectorEncoding where
  | sq8
  | float32
deriving DecidableEq, Repr

/-- The UTF-8 sequences that `strings.TrimSpace` removes from both ends. -/
def spaceSequences : List Bytes :=
  [[0x09], [0x0a], [0x0b], [0x0c], [0x0d], [0x20], [0xC2, 0x85], [0xC2, 0xA0],
    [0xE1, 0x9A, 0x80], [0xE2, 0x80, 0xA8], [0xE2, 0x80, 0xA9], [0xE2, 0x80, 0xAF],
    [0xE2, 0x81, 0x9F], [0xE3, 0x80, 0x80]] ++
    (List.range 11).map fun offset => [0xE2, 0x80, 0x80 + UInt8.ofNat offset]

/-- Remove leading sequences, at most `fuel` of them. -/
def trimLeft (sequences : List Bytes) : Nat → Bytes → Bytes
  | 0, text => text
  | fuel + 1, text =>
    match sequences.find? fun space => space.isPrefixOf text with
    | none => text
    | some space => trimLeft sequences fuel (text.drop space.length)

def trimSpace (text : Bytes) : Bytes :=
  let text := trimLeft spaceSequences text.length text
  (trimLeft (spaceSequences.map List.reverse) text.length text.reverse).reverse

/-- `strings.ToLower` as far as a comparison with ASCII names can see it: besides
ASCII letters, the dotted capital I and the kelvin sign have ASCII small letters. -/
def toLower : Bytes → Bytes
  | [] => []
  | 0xC4 :: 0xB0 :: rest => 0x69 :: toLower rest
  | 0xE2 :: 0x84 :: 0xAA :: rest => 0x6b :: toLower rest
  | byte :: rest => (if 0x41 ≤ byte ∧ byte ≤ 0x5a then byte + 0x20 else byte) :: toLower rest

def VectorEncoding.name : VectorEncoding → Bytes
  | .sq8 => ascii "sq8"
  | .float32 => ascii "float32"

def normalizeVectorEncoding (value : Bytes) : Except String VectorEncoding :=
  let name := toLower (trimSpace value)
  if name = [] ∨ name = ascii "sq8" ∨ name = ascii "int8" then .ok .sq8
  else if name = ascii "float32" ∨ name = ascii "fp32" then .ok .float32
  else .error ("vector encoding " ++ quote value ++ " is not supported; use sq8 or float32")

def vectorRowSize (dim : Nat) : VectorEncoding → Nat
  | .sq8 => dim + 8
  | .float32 => dim * 4 + 4

/-- Vectors are sequences of `float32` bit patterns. -/
abbrev Vec := List UInt32

/-- `binary.LittleEndian.PutUint32`. -/
def littleEndian (bits : UInt32) : Bytes :=
  [bits.toUInt8, (bits >>> 8).toUInt8, (bits >>> 16).toUInt8, (bits >>> 24).toUInt8]

def writeFloat32Row (vec : Vec) : Bytes :=
  let sum := vec.foldl (fun sum bits => sum + Float32.ofBits bits * Float32.ofBits bits) 0
  vec.flatMap littleEndian ++ littleEndian (sum.toFloat.sqrt.toFloat32).toBits

def writeQuantized (vec : Vec) : Bytes :=
  let maxAbs := vec.foldl (fun maxAbs bits =>
    let absV := (Float32.ofBits bits).abs
    if absV > maxAbs then absV else maxAbs) (0 : Float32)
  let scale := if maxAbs / 127 == 0 then 1 else maxAbs / 127
  let quantized := vec.map fun bits =>
    let q := (Float32.ofBits bits / scale).toFloat.round
    (if q > 127 then 127 else if q < -127 then -127 else q).toInt8
  let reconNorm := quantized.foldl (fun norm (q : Int8) =>
    let recon := Float32.ofInt q.toInt * scale
    norm + recon * recon) (0 : Float32)
  quantized.map Int8.toUInt8 ++ littleEndian scale.toBits ++ littleEndian reconNorm.toBits

def encodeRow : VectorEncoding → Vec → Bytes
  | .sq8, vec => writeQuantized vec
  | .float32, vec => writeFloat32Row vec

/-- The bytes of row `row` in a file of rows of one size. -/
def readRow (rowSize row : Nat) (file : Bytes) : Bytes :=
  (file.drop (row * rowSize)).take rowSize

def writeRow (rowSize row : Nat) (data file : Bytes) : Bytes :=
  file.take (row * rowSize) ++ data ++ file.drop (row * rowSize + data.length)

/-- Where the three files of an index lie. Live indexes are named by a SHA-256
digest of the key, taken as collision free, and shadows by a cleaned path. -/
inductive IndexPath where
  | live (key : Bytes)
  | shadow (path : List Bytes)
deriving DecidableEq, Repr

structure Row where
  id : Bytes
  tombstone : Bool
  generation : UInt64
deriving DecidableEq, Repr

structure VectorMetadata where
  dim : Nat
  encoding : VectorEncoding
  rows : List Row
deriving DecidableEq, Repr

/-- The row file, the metadata file and the graph cache, which is kept here as
the number of nodes in it. -/
structure IndexFiles where
  rows : Option Bytes
  metadata : Option VectorMetadata
  graph : Option Nat
deriving DecidableEq, Repr

def IndexFiles.absent : IndexFiles := ⟨none, none, none⟩

abbrev Disk := IndexPath → IndexFiles

def Disk.set (disk : Disk) (path : IndexPath) (files : IndexFiles) : Disk :=
  Function.update disk path files

/-- Bounds of the second byte behind a leading byte of a sequence of three or
four bytes. -/
def secondByteRange (lead : UInt8) : UInt8 × UInt8 :=
  if lead = 0xE0 then (0xA0, 0xBF)
  else if lead = 0xED then (0x80, 0x9F)
  else if lead = 0xF0 then (0x90, 0xBF)
  else if lead = 0xF4 then (0x80, 0x8F)
  else (0x80, 0xBF)

def isContinuation (byte : UInt8) : Bool := 0x80 ≤ byte && byte ≤ 0xBF

def isSecondByte (lead byte : UInt8) : Bool :=
  (secondByteRange lead).1 ≤ byte && byte ≤ (secondByteRange lead).2

/-- Length of the well-formed UTF-8 sequence that a string starts with, zero if
it starts with none. -/
def runeLength : Bytes → Nat
  | [] => 0
  | b0 :: rest =>
    if b0 < 0x80 then 1
    else
      match rest with
      | [] => 0
      | [b1] => if 0xC2 ≤ b0 && b0 ≤ 0xDF && isContinuation b1 then 2 else 0
      | b1 :: b2 :: rest =>
        if 0xC2 ≤ b0 && b0 ≤ 0xDF && isContinuation b1 then 2
        else if 0xE0 ≤ b0 && b0 ≤ 0xEF && isSecondByte b0 b1 && isContinuation b2 then 3
        else
          match rest with
          | [] => 0
          | b3 :: _ =>
            if 0xF0 ≤ b0 && b0 ≤ 0xF4 && isSecondByte b0 b1 && isContinuation b2 &&
                isContinuation b3 then 4
            else 0

/-- What a string becomes on its way through a JSON file: a byte that starts no
well-formed sequence turns into the replacement character. -/
def jsonText (text : Bytes) : Bytes :=
  match text with
  | [] => []
  | b0 :: rest =>
    let size := runeLength (b0 :: rest)
    if size = 0 then [0xEF, 0xBF, 0xBD] ++ jsonText rest
    else (b0 :: rest).take size ++ jsonText ((b0 :: rest).drop size)
termination_by text.length
decreasing_by
  · simp
  · simp only [List.length_drop, List.length_cons]
    omega

/-- A mapped index. The map from ids to rows is determined by the rows: the last
row of an id is the one that counts. -/
structure MMapIndex where
  path : IndexPath
  dim : Nat
  encoding : VectorEncoding
  rows : List Row
  metaDirty : Nat
  /-- When the metadata was last written, none if not since the index was opened. -/
  lastMeta : Option Int64
deriving DecidableEq, Repr

structure MMapVectorIndex extends MMapIndex where
  shadow : Option MMapIndex
deriving DecidableEq, Repr

namespace MMapIndex

def count (idx : MMapIndex) : Nat := idx.rows.length

def rowBytes (idx : MMapIndex) : Nat := vectorRowSize idx.dim idx.encoding

/-- `idMap[id]`. -/
def rowOf? (id : Bytes) (idx : MMapIndex) : Option Nat :=
  (idx.rows.zipIdx.filter fun row => row.1.id = id).getLast?.map Prod.snd

def mmap (idx : MMapIndex) (disk : Disk) : Bytes :=
  (disk idx.path).rows.getD []

def setMmap (idx : MMapIndex) (file : Bytes) (disk : Disk) : Disk :=
  disk.set idx.path { disk idx.path with rows := some file }

def metadata (idx : MMapIndex) : VectorMetadata :=
  { dim := idx.dim, encoding := idx.encoding
    rows := idx.rows.map fun row => { row with id := jsonText row.id } }

def metaFlushRows : Nat := 4096

/-- A write that need not be durable is put off while few rows are dirty and the
last one is less than a second old. -/
def writeMetadata (now : Int64) (durable : Bool) (idx : MMapIndex) (disk : Disk) :
    MMapIndex × Disk :=
  let fresh := match idx.lastMeta with
    | none => false
    | some last => now - last < second
  if !durable && idx.metaDirty < metaFlushRows && fresh then (idx, disk)
  else
    ({ idx with metaDirty := 0, lastMeta := some now },
      disk.set idx.path { disk idx.path with metadata := some idx.metadata })

def close (now : Int64) (idx : MMapIndex) (disk : Disk) : Disk :=
  let disk := (idx.writeMetadata now true disk).2
  disk.set idx.path { disk idx.path with graph := some idx.count }

/-- Grow the row file to at least the needed size, doubling it if that suffices. -/
def ensureCapacity (neededBytes : Nat) (idx : MMapIndex) (disk : Disk) : Disk :=
  let file := idx.mmap disk
  if neededBytes ≤ file.length then disk
  else
    let newSize := if file.length * 2 < neededBytes then neededBytes else file.length * 2
    idx.setMmap (file ++ List.replicate (newSize - file.length) 0) disk

def storeRow (row : Nat) (vec : Vec) (idx : MMapIndex) (disk : Disk) : Disk :=
  idx.setMmap (writeRow idx.rowBytes row (encodeRow idx.encoding vec) (idx.mmap disk)) disk

end MMapIndex

/-- Map the rows at a path, creating the file if it is missing or empty, and take
over the metadata that lies beside it. -/
def newMMapVectorIndex (now : Int64) (path : IndexPath) (dim capacity : Nat)
    (encoding : VectorEncoding) (disk : Disk) : Except String MMapIndex × Disk :=
  let file := (disk path).rows.getD []
  let capacity := max capacity 1000
  let file := if file.length = 0 then List.replicate (capacity * vectorRowSize dim encoding) 0
    else file
  let disk := disk.set path { disk path with rows := some file }
  let idx : MMapIndex := ⟨path, dim, encoding, [], 0, none⟩
  match (disk path).metadata with
  | none => (.ok idx, disk)
  | some stored =>
    -- Closing the refused index replaces the metadata by that of an empty one.
    if stored.dim ≠ dim then
      (.error "invalid vector metadata: %!w(<nil>)", idx.close now disk)
    else
      let idx := { idx with encoding := stored.encoding }
      if file.length / idx.rowBytes < stored.rows.length then
        (.error "vector metadata exceeds index capacity", idx.close now disk)
      else
        (.ok { idx with rows := stored.rows }, disk)

end Dbx.Engine
