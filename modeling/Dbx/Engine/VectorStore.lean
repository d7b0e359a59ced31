import Dbx.Engine.VectorIndex

/-!
# The vector store

Operations on the indexes of a tenant. An index lives inside its key's entry;
an operation that fails may still have changed the store or the files, so every
result carries both.
-/

set_option autoImplicit false

namespace Dbx.Engine

/-- The data directory is given by the names on the way from the root of the file system. Files can
also lie in other directories, where those exist. -/
structure VectorConfig where
  dataDir : List Bytes
  directories : List (List Bytes)
  maxVectors : Nat
  maxMemory : Int
  encoding : VectorEncoding
deriving DecidableEq, Repr

structure Store where
  kv : KVStore MMapVectorIndex
  disk : Disk

def Store.empty : Store := ⟨.new, fun _ => .absent⟩

def maxVectorDimensions : Nat := 4096
def maxVectorIDBytes : Nat := 512
def maxVectorBatch : Nat := 1000

/-- Neither infinite nor not a number: not all exponent bits are set. -/
def isFinite (bits : UInt32) : Bool :=
  bits &&& 0x7F800000 != 0x7F800000

def validateVector (id : Bytes) (vec : Vec) : Except String Unit :=
  if id.length = 0 ∨ maxVectorIDBytes < id.length then
    .error "vector id must contain 1..512 bytes"
  else if vec.length = 0 ∨ maxVectorDimensions < vec.length then
    .error "vector dimension must be between 1 and 4096"
  else if vec.all isFinite then .ok ()
  else .error "vector contains a non-finite value"

def dimensionMismatch (expected got : Nat) : String :=
  "dimension mismatch: expected " ++ toString expected ++ ", got " ++ toString got

def quotaExceeded (config : VectorConfig) : String :=
  "tenant vector quota exceeded: maximum of " ++ toString config.maxVectors ++ " vectors allowed"

namespace Store

def putIndex (key : Bytes) (idx : MMapVectorIndex) (store : Store) : Store :=
  match store.kv.data.lookup key with
  | none => store
  | some entry => { store with kv := store.kv.put key { entry with value := .index idx } }

def delete1 (now : Int64) (key : Bytes) (store : Store) : Store :=
  let kv := store.kv.erase key
  match store.kv.data.lookup key with
  | some ⟨.index idx, .vector, _, _⟩ => ⟨kv, idx.close now store.disk⟩
  | _ => ⟨kv, store.disk⟩

def delete (now : Int64) (keys : List Bytes) (store : Store) : Nat × Store :=
  keys.foldl
    (fun (deleted, store) key =>
      if store.kv.contains key then (deleted + 1, store.delete1 now key) else (deleted, store))
    (0, store)

/-- The entry moves as in the key-value store; an index in it is closed. -/
def rename (now : Int64) (key newKey : Bytes) (store : Store) : Except String Unit × Store :=
  let disk :=
    match store.kv.get now key with
    | some _ => (store.delete1 now key).disk
    | none => store.disk
  let (result, kv) := store.kv.rename now key newKey
  (result, ⟨kv, disk⟩)

/-- Open the index files of a key for an entry without an index. -/
def openIndex (config : VectorConfig) (now : Int64) (key : Bytes) (dim : Nat)
    (entry : Entry MMapVectorIndex) (store : Store) : Except String MMapVectorIndex × Store :=
  match newMMapVectorIndex now (.live key) dim config.maxVectors config.encoding store.disk with
  | (.error message, disk) => (.error message, { store with disk := disk })
  | (.ok idx, disk) =>
    let idx : MMapVectorIndex := ⟨idx, none⟩
    (.ok idx, ⟨store.kv.put key { entry with value := .index idx }, disk⟩)

def getOrCreate (config : VectorConfig) (now : Int64) (key : Bytes) (dim : Nat) (store : Store) :
    Except String MMapVectorIndex × Store :=
  let (entry, kv) := store.kv.getForWrite now key
  let store := { store with kv := kv }
  match entry with
  | none => store.openIndex config now key dim ⟨.nil, .vector, 0, 0⟩
  | some entry =>
    if entry.type ≠ .vector then (.error errWrongType, store)
    else
      match entry.value with
      | .index idx => (.ok idx, store)
      | .nil => store.openIndex config now key dim entry
      | _ => (.error "interface conversion: not *engine.MMapVectorIndex", store)

def openPersistedIndex (config : VectorConfig) (now : Int64) (key : Bytes) (store : Store) :
    Except String (Option MMapVectorIndex) × Store :=
  match (store.disk (.live key)).metadata with
  | none => (.ok none, store)
  | some stored =>
    if stored.dim = 0 then (.error "invalid vector metadata", store)
    else
      match store.getOrCreate config now key stored.dim with
      | (.error message, store) => (.error message, store)
      | (.ok idx, store) => (.ok (some idx), store)

/-- The index of a key for reading, which opens it from disk where it is not
open: also for a key that has no entry. -/
def getReadOnly (config : VectorConfig) (now : Int64) (key : Bytes) (store : Store) :
    Except String (Option MMapVectorIndex) × Store :=
  match store.kv.get now key with
  | none => store.openPersistedIndex config now key
  | some entry =>
    if entry.type ≠ .vector then (.error errWrongType, store)
    else
      match entry.value with
      | .index idx => (.ok (some idx), store)
      | .nil => store.openPersistedIndex config now key
      | _ => (.error "interface conversion: not *engine.MMapVectorIndex", store)

/-- Open every vector entry that a snapshot left without an index. -/
def reopenPersisted (config : VectorConfig) (now : Int64) (store : Store) :
    Except String Unit × Store :=
  let keys := (store.kv.data.entries.filter fun entry =>
    entry.2.type = .vector && entry.2.value = .nil).map Sigma.fst
  keys.foldl
    (fun (result, store) key =>
      match result with
      | .error message => (.error message, store)
      | .ok () =>
        match store.openPersistedIndex config now key with
        | (.error message, store) => (.error message, store)
        | (.ok _, store) => (.ok (), store))
    (.ok (), store)

/-- Bytes charged for mapped rows and ids, with an estimate for the graph. -/
def vectorMemoryUsage (store : Store) : Int :=
  (store.kv.data.entries.map fun entry =>
    match entry.2.type, entry.2.value with
    | .vector, .index idx =>
      ((idx.mmap store.disk).length : Int) +
        (idx.rows.map fun row => ((row.id.length + 32 : Nat) : Int)).sum +
        ((idx.count * 16 * 8 : Nat) : Int)
    | _, _ => 0).sum

def newIDs (idx : Option MMapVectorIndex) (ids : List Bytes) : List Bytes :=
  (ids.filter fun id => match idx with
    | none => true
    | some idx => (idx.rowOf? id).isNone).dedup

def validateBatchCapacity (config : VectorConfig) (now : Int64) (key : Bytes) (dim : Nat)
    (ids : List Bytes) (store : Store) : Except String Unit × Store :=
  let currentUsage := store.kv.memoryUsage now + store.vectorMemoryUsage
  match store.getReadOnly config now key with
  | (.error message, store) => (.error message, store)
  | (.ok idx, store) =>
    let rowBytes := vectorRowSize dim config.encoding
    let (currentDim, currentCount, currentCapacityBytes) := match idx with
      | none => (dim, 0, 0)
      | some idx => (idx.dim, idx.count, (idx.mmap store.disk).length)
    let newIDs := newIDs idx ids
    if currentDim ≠ dim then (.error (dimensionMismatch currentDim dim), store)
    else if 0 < config.maxVectors ∧ config.maxVectors < currentCount + newIDs.length then
      (.error (quotaExceeded config), store)
    else
      let neededBytes := (currentCount + newIDs.length) * rowBytes
      let growth : Nat :=
        if idx.isNone then 1000 * rowBytes + key.length + 96
        else if neededBytes ≤ currentCapacityBytes then 0
        else max (currentCapacityBytes * 2) neededBytes - currentCapacityBytes
      let additional := (growth : Int) + (newIDs.map fun id => ((id.length + 160 : Nat) : Int)).sum
      if 0 < config.maxMemory ∧ config.maxMemory < currentUsage + additional then
        (.error "OOM tenant quota exceeded", store)
      else (.ok (), store)

def validateAdd (config : VectorConfig) (now : Int64) (key id : Bytes) (vec : Vec)
    (store : Store) : Except String Unit × Store :=
  match validateVector id vec with
  | .error message => (.error message, store)
  | .ok () => store.validateBatchCapacity config now key vec.length [id]

def validateItems (dim : Nat) : List (Bytes × Vec) → Except String Unit
  | [] => .ok ()
  | (id, vec) :: items =>
    if vec.length ≠ dim then .error "dimension mismatch in batch"
    else
      match validateVector id vec with
      | .error message => .error message
      | .ok () => validateItems dim items

def validateAddBatch (config : VectorConfig) (now : Int64) (key : Bytes) (dim : Nat)
    (items : List (Bytes × Vec)) (store : Store) : Except String Unit × Store :=
  if items.length = 0 ∨ maxVectorBatch < items.length then
    (.error "invalid vector batch size", store)
  else if dim = 0 ∨ maxVectorDimensions < dim then
    (.error "vector dimension must be between 1 and 4096", store)
  else
    match validateItems dim items with
    | .error message => (.error message, store)
    | .ok () => store.validateBatchCapacity config now key dim (items.map Prod.fst)

end Store

end Dbx.Engine
