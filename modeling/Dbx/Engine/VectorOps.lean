import Dbx.Engine.VectorStore

/-!
# Vector mutations, compaction, seals and migrations
-/

set_option autoImplicit false

namespace Dbx.Engine

namespace MMapIndex

/-- Give an id a row: a new one at the end, or its own, brought back if it was
deleted. -/
def upsert (id : Bytes) (idx : MMapIndex) : Nat × MMapIndex :=
  match idx.rowOf? id with
  | none =>
    (idx.count, { idx with
      rows := idx.rows ++ [⟨id, false, 1⟩]
      metaDirty := idx.metaDirty + 1 })
  | some row =>
    match idx.rows[row]? with
    | some ⟨_, true, generation⟩ =>
      (row, { idx with
        rows := idx.rows.set row ⟨id, false, generation + 1⟩
        metaDirty := idx.metaDirty + 1 })
    | _ => (row, idx)

def addItem (item : Bytes × Vec) (idx : MMapIndex) (disk : Disk) : MMapIndex × Disk :=
  let (row, idx) := idx.upsert item.1
  (idx, idx.storeRow row item.2 disk)

def addItems (items : List (Bytes × Vec)) (idx : MMapIndex) (disk : Disk) : MMapIndex × Disk :=
  items.foldl (fun (idx, disk) item => idx.addItem item disk) (idx, disk)

def hasLive (id : Bytes) (idx : MMapIndex) : Bool :=
  match idx.rowOf? id with
  | none => false
  | some row => (idx.rows[row]?).any fun row => !row.tombstone

end MMapIndex

namespace Store

/-- Write items into an index that has been admitted, and put its metadata off
or not. -/
def applyItems (now : Int64) (key : Bytes) (items : List (Bytes × Vec)) (newRows : Nat)
    (idx : MMapVectorIndex) (store : Store) : Store :=
  let disk := idx.ensureCapacity ((idx.count + newRows) * idx.rowBytes) store.disk
  let (base, disk) := idx.toMMapIndex.addItems items disk
  let (base, disk) := base.writeMetadata now false disk
  { store with disk := disk }.putIndex key { idx with toMMapIndex := base }

def vAdd (config : VectorConfig) (now : Int64) (key id : Bytes) (vec : Vec) (store : Store) :
    Except String Unit × Store :=
  match validateVector id vec with
  | .error message => (.error message, store)
  | .ok () =>
    match store.getOrCreate config now key vec.length with
    | (.error message, store) => (.error message, store)
    | (.ok idx, store) =>
      let isNew := (idx.rowOf? id).isNone
      if idx.dim ≠ vec.length then (.error (dimensionMismatch idx.dim vec.length), store)
      else if 0 < config.maxVectors ∧ config.maxVectors ≤ idx.count ∧ isNew then
        (.error (quotaExceeded config), store)
      else
        (.ok (), store.applyItems now key [(id, vec)] (if isNew then 1 else 0) idx)

def vAddBatch (config : VectorConfig) (now : Int64) (key : Bytes) (dim : Nat)
    (items : List (Bytes × Vec)) (store : Store) : Except String Unit × Store :=
  if items.length = 0 then (.ok (), store)
  else if maxVectorBatch < items.length then
    (.error "batch size exceeds maximum of 1000", store)
  else if dim = 0 ∨ maxVectorDimensions < dim then
    (.error "vector dimension must be between 1 and 4096", store)
  else
    match validateItems dim items with
    | .error message => (.error message, store)
    | .ok () =>
      match store.getOrCreate config now key dim with
      | (.error message, store) => (.error message, store)
      | (.ok idx, store) =>
        let newAdditions := (newIDs (some idx) (items.map Prod.fst)).length
        if idx.dim ≠ dim then (.error (dimensionMismatch idx.dim dim), store)
        else if 0 < config.maxVectors ∧ config.maxVectors < idx.count + newAdditions then
          (.error (quotaExceeded config), store)
        else
          (.ok (), store.applyItems now key items newAdditions idx)

def vDel (config : VectorConfig) (now : Int64) (key id : Bytes) (store : Store) :
    Except String Bool × Store :=
  match store.getReadOnly config now key with
  | (.error message, store) => (.error message, store)
  | (.ok none, store) => (.ok false, store)
  | (.ok (some idx), store) =>
    match idx.rowOf? id with
    | none => (.ok false, store)
    | some row =>
      match idx.rows[row]? with
      | some ⟨_, false, generation⟩ =>
        let base := { idx.toMMapIndex with
          rows := idx.rows.set row ⟨id, true, generation + 1⟩ }
        let (base, disk) := base.writeMetadata now true store.disk
        (.ok true, { store with disk := disk }.putIndex key { idx with toMMapIndex := base })
      | _ => (.ok false, store)

def hasLiveVector (config : VectorConfig) (now : Int64) (key id : Bytes) (store : Store) :
    Except String Bool × Store :=
  match store.getReadOnly config now key with
  | (.error message, store) => (.error message, store)
  | (.ok none, store) => (.ok false, store)
  | (.ok (some idx), store) => (.ok (idx.hasLive id), store)

/-- Whether more than a fifth of the rows are deleted. The source compares the
quotient as a `float64`, which is exact for every count that fits in memory. -/
def tombstoneRatioExceeds (config : VectorConfig) (now : Int64) (key : Bytes) (store : Store) :
    Bool × Store :=
  match store.getReadOnly config now key with
  | (.error _, store) => (false, store)
  | (.ok none, store) => (false, store)
  | (.ok (some idx), store) =>
    (idx.count < 5 * (idx.rows.filter Row.tombstone).length, store)

end Store

namespace MMapIndex

def activeRows (idx : MMapIndex) : List (Row × Nat) :=
  idx.rows.zipIdx.filter fun row => !row.1.tombstone

def compacted (idx : MMapIndex) : MMapIndex :=
  { idx with rows := idx.activeRows.map Prod.fst }

/-- The stores of compaction into the mapped file, one for each kept row: the
bytes are collected before the first of them. -/
def compactStores (idx : MMapIndex) (disk : Disk) : List (Disk → Disk) :=
  let file := idx.mmap disk
  idx.activeRows.zipIdx.map fun (active, row) => fun current =>
    idx.setMmap (writeRow idx.rowBytes row (readRow idx.rowBytes active.2 file)
      (idx.mmap current)) current

def compactEffects (now : Int64) (idx : MMapIndex) (disk : Disk) : List (Disk → Disk) :=
  idx.compactStores disk ++
    [fun current => (idx.compacted.writeMetadata now true current).2,
      fun current =>
        current.set idx.path { current idx.path with graph := some idx.compacted.count }]

end MMapIndex

def runEffects (effects : List (Disk → Disk)) (disk : Disk) : Disk :=
  effects.foldl (fun current effect => effect current) disk

namespace Store

def vCompact (config : VectorConfig) (now : Int64) (key : Bytes) (store : Store) :
    Except String Nat × Store :=
  match store.getReadOnly config now key with
  | (.error message, store) => (.error message, store)
  | (.ok none, store) => (.ok 0, store)
  | (.ok (some idx), store) =>
    let removed := (idx.rows.filter Row.tombstone).length
    if removed = 0 then (.ok 0, store)
    else
      let disk := runEffects (idx.compactEffects now store.disk) store.disk
      let base := (idx.compacted.writeMetadata now true store.disk).1
      (.ok removed,
        { store with disk := disk }.putIndex key { idx with toMMapIndex := base })

end Store

/-- What a checkpoint records about an index. The digest of the metadata file is
the metadata itself. -/
structure IndexSeal where
  key : Bytes
  dim : Nat
  count : Nat
  metaHash : Option VectorMetadata
deriving DecidableEq, Repr

namespace Store

def openIndexes (store : Store) : List (Bytes × MMapVectorIndex) :=
  store.kv.data.entries.filterMap fun entry =>
    match entry.2.type, entry.2.value with
    | .vector, .index idx => some (entry.1, idx)
    | _, _ => none

/-- Write the metadata of every open index. Shadows are left out. -/
def flushDurable (now : Int64) (store : Store) : Store :=
  store.openIndexes.foldl
    (fun store (key, idx) =>
      let (base, disk) := idx.writeMetadata now true store.disk
      { store with disk := disk }.putIndex key { idx with toMMapIndex := base })
    store

def indexSeals (store : Store) : List IndexSeal :=
  store.openIndexes.map fun (key, idx) =>
    ⟨key, idx.dim, idx.count, (store.disk idx.path).metadata⟩

def verifySeals (seals : List IndexSeal) (store : Store) : Except String Unit :=
  match seals.find? fun want => want ∉ store.indexSeals with
  | none => .ok ()
  | some want =>
    if store.indexSeals.any fun got => got.key = want.key then
      .error ("vector index " ++ quote want.key ++ " seal mismatch (dim/count/meta)")
    else .error ("missing vector index " ++ quote want.key ++ " at checkpoint")

end Store

/-- `filepath.Join`: empty components and dots go, and a double dot takes the
component before it away. -/
def joinPath (dir : List Bytes) (name : Bytes) : List Bytes :=
  (name.splitOn 0x2f).foldl
    (fun path part =>
      if part = [] ∨ part = ascii "." then path
      else if part = ascii ".." then path.dropLast
      else path ++ [part])
    dir

def shadowPath (config : VectorConfig) (key : Bytes) : IndexPath :=
  .shadow (joinPath config.dataDir (key ++ ascii ".shadow"))

/-- What stops the files of a shadow from being made. They are named after the key as it is:
`os.Remove` takes no zero byte and no name over 255 bytes, the longest of which ends in `.meta`,
and the directory must exist for `os.OpenFile`. -/
def shadowFault (config : VectorConfig) (key : Bytes) : Option String :=
  let path := joinPath config.dataDir (key ++ ascii ".shadow")
  let text := "/" ++ rawText ([0x2f].intercalate path)
  let length := (path.getLastD []).length
  if path.any fun name => name.contains 0 then some ("remove " ++ text ++ ": invalid argument")
  else if path.dropLast ≠ config.dataDir ∧ path.dropLast ∉ config.directories then
    some ("open " ++ text ++ ": no such file or directory")
  else if 255 < length then some ("remove " ++ text ++ ": file name too long")
  else if 250 < length then some ("remove " ++ text ++ ".meta: file name too long")
  else none

namespace MMapVectorIndex

/-- Begin a shadow of the given shape, dropping one of another shape. A shadow of
the same shape stays. -/
def startMigration (config : VectorConfig) (now : Int64) (key : Bytes) (dim : Nat)
    (encoding : VectorEncoding) (idx : MMapVectorIndex) (disk : Disk) :
    Except String MMapVectorIndex × Disk :=
  let same := idx.shadow.any fun shadow => shadow.dim = dim && shadow.encoding = encoding
  if same then (.ok idx, disk)
  else
    let disk := match idx.shadow with
      | none => disk
      | some shadow => (shadow.close now disk).set shadow.path .absent
    let path := shadowPath config key
    match shadowFault config key with
    | some message => (.error message, disk)
    | none =>
      match newMMapVectorIndex now path dim 1000 encoding (disk.set path .absent) with
      | (.error message, disk) => (.error message, disk)
      | (.ok shadow, disk) => (.ok { idx with shadow := some shadow }, disk)

/-- Add a vector to the shadow. A row that exists is overwritten and its
generation counted up. -/
def insertShadowVector (now : Int64) (id : Bytes) (vec : Vec) (idx : MMapVectorIndex)
    (disk : Disk) : Except String (MMapVectorIndex × Disk) :=
  match idx.shadow with
  | none => .error "no migration in progress"
  | some shadow =>
    match validateVector id vec with
    | .error message => .error message
    | .ok () =>
      if vec.length ≠ shadow.dim then .error "vector dimension mismatch"
      else
        let found := shadow.rowOf? id
        let row := found.getD shadow.count
        let disk := match found with
          | none => shadow.ensureCapacity ((shadow.count + 1) * shadow.rowBytes) disk
          | some _ => disk
        let rows := match found with
          | none => shadow.rows ++ [⟨id, false, 1⟩]
          | some row => shadow.rows.modify row fun old =>
            { old with generation := old.generation + 1 }
        let shadow := { shadow with rows := rows, metaDirty := shadow.metaDirty + 1 }
        let disk := shadow.storeRow row vec disk
        let (shadow, disk) := shadow.writeMetadata now false disk
        .ok ({ idx with shadow := some shadow }, disk)

/-- The renames of a promotion in their order, each behind the removal of the
file it replaces. -/
def swapEffects (livePath shadowPath : IndexPath) : List (Disk → Disk) :=
  [fun disk => disk.set livePath { disk livePath with rows := none },
    fun disk =>
      let disk := disk.set livePath { disk livePath with rows := (disk shadowPath).rows }
      disk.set shadowPath { disk shadowPath with rows := none },
    fun disk => disk.set livePath { disk livePath with metadata := none },
    fun disk =>
      let disk := disk.set livePath { disk livePath with metadata := (disk shadowPath).metadata }
      disk.set shadowPath { disk shadowPath with metadata := none },
    fun disk => disk.set livePath { disk livePath with graph := none },
    fun disk =>
      let disk := disk.set livePath { disk livePath with graph := (disk shadowPath).graph }
      disk.set shadowPath { disk shadowPath with graph := none }]

/-- Promote the shadow. Without one there is nothing left to do. -/
def swapMigration (now : Int64) (idx : MMapVectorIndex) (disk : Disk) :
    Except String MMapVectorIndex × Disk :=
  match idx.shadow with
  | none => (.ok idx, disk)
  | some shadow =>
    if shadow.count = 0 then (.error "cannot swap empty migration", disk)
    else
      let disk := shadow.close now (idx.close now disk)
      let disk := runEffects (swapEffects idx.path shadow.path) disk
      match newMMapVectorIndex now idx.path shadow.dim 1000 shadow.encoding disk with
      | (.error message, disk) => (.error message, disk)
      | (.ok replacement, disk) => (.ok ⟨replacement, none⟩, disk)

def cancelMigration (now : Int64) (idx : MMapVectorIndex) (disk : Disk) :
    MMapVectorIndex × Disk :=
  match idx.shadow with
  | none => (idx, disk)
  | some shadow =>
    ({ idx with shadow := none }, (shadow.close now disk).set shadow.path .absent)

end MMapVectorIndex

namespace Store

/-- Open or create the index first, an index without dimensions if there is none, and then begin
the shadow. Where that fails, a shadow of another shape is gone. -/
def startMigration (config : VectorConfig) (now : Int64) (key : Bytes) (dim : Nat)
    (encoding : Bytes) (store : Store) : Except String Unit × Store :=
  match store.getOrCreate config now key 0 with
  | (.error message, store) => (.error message, store)
  | (.ok idx, store) =>
    match normalizeVectorEncoding encoding with
    | .error message => (.error message, store)
    | .ok encoding =>
      match idx.startMigration config now key dim encoding store.disk with
      | (.error message, disk) =>
        let store := { store with disk := disk }
        (.error message, if idx.shadow.isNone then store
          else store.putIndex key { idx with shadow := none })
      | (.ok idx, disk) => (.ok (), { store with disk := disk }.putIndex key idx)

def withIndex {α : Type} (config : VectorConfig) (now : Int64) (key : Bytes)
    (run : MMapVectorIndex → Store → Except String α × Store) (store : Store) :
    Except String α × Store :=
  match store.getReadOnly config now key with
  | (.error message, store) => (.error message, store)
  | (.ok none, store) => (.error "vector space not found", store)
  | (.ok (some idx), store) => run idx store

def insertShadowVector (config : VectorConfig) (now : Int64) (key id : Bytes) (vec : Vec)
    (store : Store) : Except String Unit × Store :=
  store.withIndex config now key fun idx store =>
    match idx.insertShadowVector now id vec store.disk with
    | .error message => (.error message, store)
    | .ok (idx, disk) => (.ok (), { store with disk := disk }.putIndex key idx)

def swapMigration (config : VectorConfig) (now : Int64) (key : Bytes) (store : Store) :
    Except String Unit × Store :=
  store.withIndex config now key fun idx store =>
    match idx.swapMigration now store.disk with
    | (.error message, disk) => (.error message, { store with disk := disk })
    | (.ok idx, disk) => (.ok (), { store with disk := disk }.putIndex key idx)

def cancelMigration (config : VectorConfig) (now : Int64) (key : Bytes) (store : Store) :
    Except String Unit × Store :=
  store.withIndex config now key fun idx store =>
    let (idx, disk) := idx.cancelMigration now store.disk
    (.ok (), { store with disk := disk }.putIndex key idx)

def migrationActive (config : VectorConfig) (now : Int64) (key : Bytes) (store : Store) :
    Bool × Store :=
  match store.getReadOnly config now key with
  | (.ok (some idx), store) => (idx.shadow.isSome, store)
  | (_, store) => (false, store)

def validateSwapMigration (config : VectorConfig) (now : Int64) (key : Bytes) (store : Store) :
    Except String Unit × Store :=
  store.withIndex config now key fun idx store =>
    match idx.shadow with
    | none => (.error "no migration in progress", store)
    | some shadow =>
      if shadow.count = 0 then (.error "cannot swap empty migration", store) else (.ok (), store)

end Store

end Dbx.Engine
