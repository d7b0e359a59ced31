import Dbx.Engine.VectorIndexProperties
import Dbx.Engine.VectorOps
import Dbx.Library.Runs

/-!
# The layout of a vector index

The parallel structures of one index, as its operations update them side by side:
the counter, the lists of ids, tombstones and generations, the map from ids to
rows, the size of the mapped file and the shards of the search graph. Files grow
when they are asked to.
-/

set_option autoImplicit false

namespace Dbx.Engine

def hnswShards : Nat := 8

/-- One shard of the search graph, with the rows that have a node in it. -/
structure HNSWGraph where
  nodes : Finset Nat
  size : Nat
deriving DecidableEq

namespace HNSWGraph

def new : HNSWGraph := ⟨∅, 0⟩

def insert (row : Nat) (graph : HNSWGraph) : HNSWGraph :=
  ⟨Insert.insert row graph.nodes, graph.size + 1⟩

end HNSWGraph

def newHNSWShards : List HNSWGraph := List.replicate hnswShards .new

def shardExpectedSize (count shard : Nat) : Nat :=
  if count ≤ shard then 0 else (count - shard + hnswShards - 1) / hnswShards

/-- Whether saved shards are taken over. Edges are not modelled, so whether they
pass is given. -/
def validateShards (graphs : List HNSWGraph) (count : Nat) (edgesValid : Bool) : Bool :=
  graphs.length = hnswShards &&
    (graphs.zipIdx.all fun (graph, shard) =>
      graph.size = shardExpectedSize count shard &&
        graph.nodes.card = shardExpectedSize count shard) &&
    (graphs.map HNSWGraph.size).sum = count && edgesValid

structure VectorLayout where
  dim : Nat
  encoding : VectorEncoding
  count : Nat
  idList : List Bytes
  tombstones : List Bool
  generations : List UInt64
  idMap : AList fun _ : Bytes => Nat
  mapped : Nat
  graphs : List HNSWGraph

def vectorQuotaExceeded (maxVectors : Nat) : String :=
  "tenant vector quota exceeded: maximum of " ++ toString maxVectors ++ " vectors allowed"

namespace VectorLayout

def rowBytes (idx : VectorLayout) : Nat := vectorRowSize idx.dim idx.encoding

def create (dim capacity : Nat) (encoding : VectorEncoding) : VectorLayout :=
  ⟨dim, encoding, 0, [], [], [], ∅, max capacity 1000 * vectorRowSize dim encoding, newHNSWShards⟩

def ensureCapacity (neededBytes : Nat) (idx : VectorLayout) : VectorLayout :=
  if neededBytes ≤ idx.mapped then idx
  else { idx with mapped := if idx.mapped * 2 < neededBytes then neededBytes else idx.mapped * 2 }

/-- The map that is filled from a list of ids, in which the last row of an id counts. -/
def rowMap (ids : List Bytes) : AList fun _ : Bytes => Nat :=
  ids.zipIdx.foldl (fun rows (id, row) => rows.insert id row) ∅

/-- The rows of a shard in an empty graph, up to one that is not mapped. -/
def rebuildShard (idx : VectorLayout) (shard : Nat) : HNSWGraph :=
  let rows := (List.range idx.count).filter fun row => row % hnswShards = shard
  let mapped := rows.takeWhile fun row => row * idx.rowBytes + idx.rowBytes ≤ idx.mapped
  mapped.foldl (fun graph row => graph.insert row) .new

def rebuildGraph (idx : VectorLayout) : VectorLayout :=
  { idx with graphs := (List.range hnswShards).map idx.rebuildShard }

def upsert (id : Bytes) (idx : VectorLayout) : Option Nat × VectorLayout :=
  match idx.idMap.lookup id with
  | some row =>
    if idx.tombstones[row]? = some true then
      (none, { idx with
        tombstones := idx.tombstones.set row false
        generations := idx.generations.modify row (· + 1) })
    else (none, idx)
  | none =>
    (some idx.count, { idx with
      idMap := idx.idMap.insert id idx.count
      idList := idx.idList ++ [id]
      tombstones := idx.tombstones ++ [false]
      generations := idx.generations ++ [1]
      count := idx.count + 1 })

def insertInto (rows : List Nat) (graph : HNSWGraph) (shard : Nat) : HNSWGraph :=
  rows.foldl (fun graph row => if row % hnswShards = shard then graph.insert row else graph) graph

def insertRows (rows : List Nat) (idx : VectorLayout) : VectorLayout :=
  { idx with graphs := idx.graphs.zipIdx.map fun (graph, shard) => insertInto rows graph shard }

def upsertAll (ids : List Bytes) (idx : VectorLayout) : List Nat × VectorLayout :=
  ids.foldl (fun (rows, idx) id =>
    match idx.upsert id with
    | (none, idx) => (rows, idx)
    | (some row, idx) => (rows ++ [row], idx)) ([], idx)

def vAdd (maxVectors : Nat) (id : Bytes) (vec : Vec) (idx : VectorLayout) :
    Except String VectorLayout :=
  match validateVector id vec with
  | .error message => .error message
  | .ok () =>
    if idx.dim ≠ vec.length then .error (dimensionMismatch idx.dim vec.length)
    else if 0 < maxVectors ∧ maxVectors ≤ idx.count ∧ (idx.idMap.lookup id).isNone then
      .error (vectorQuotaExceeded maxVectors)
    else
      let neededCount := if (idx.idMap.lookup id).isSome then idx.count else idx.count + 1
      match (idx.ensureCapacity (neededCount * idx.rowBytes)).upsert id with
      | (none, idx) => .ok idx
      | (some row, idx) => .ok (idx.insertRows [row])

def vAddBatch (maxVectors dim : Nat) (items : List (Bytes × Vec)) (idx : VectorLayout) :
    Except String VectorLayout :=
  if items.length = 0 then .ok idx
  else if maxVectorBatch < items.length then .error "batch size exceeds maximum of 1000"
  else if dim = 0 ∨ maxVectorDimensions < dim then
    .error "vector dimension must be between 1 and 4096"
  else
    match Store.validateItems dim items with
    | .error message => .error message
    | .ok () =>
      let ids := items.map Prod.fst
      let newAdditions := (ids.filter fun id => (idx.idMap.lookup id).isNone).dedup.length
      if idx.dim ≠ dim then .error (dimensionMismatch idx.dim dim)
      else if 0 < maxVectors ∧ maxVectors < idx.count + newAdditions then
        .error (vectorQuotaExceeded maxVectors)
      else
        let (newRows, idx) :=
          (idx.ensureCapacity ((idx.count + newAdditions) * idx.rowBytes)).upsertAll ids
        .ok (idx.insertRows newRows)

def vDel (id : Bytes) (idx : VectorLayout) : VectorLayout :=
  match idx.idMap.lookup id with
  | none => idx
  | some row =>
    if idx.tombstones[row]? = some false then
      { idx with
        tombstones := idx.tombstones.set row true
        generations := idx.generations.modify row (· + 1) }
    else idx

def active (idx : VectorLayout) : List (Bytes × UInt64) :=
  ((idx.idList.zip (idx.tombstones.zip idx.generations)).filter fun row => !row.2.1).map
    fun row => (row.1, row.2.2)

def vCompact (idx : VectorLayout) : VectorLayout :=
  if idx.tombstones.all (! ·) then idx
  else
    let ids := idx.active.map Prod.fst
    rebuildGraph { idx with
      idList := ids
      generations := idx.active.map Prod.snd
      tombstones := List.replicate ids.length false
      idMap := rowMap ids
      count := ids.length }

/-- What a reopening takes from the metadata file and the graph cache. -/
def load (dim : Nat) (encoding : VectorEncoding) (mapped : Nat) (ids : List Bytes)
    (tombstones : List Bool) (generations : List UInt64) (graphs : List HNSWGraph)
    (edgesValid : Bool) : Except String VectorLayout :=
  let rowSize := vectorRowSize dim encoding
  let mapped := if mapped = 0 then 1000 * rowSize else mapped
  if mapped / rowSize < ids.length then .error "vector metadata exceeds index capacity"
  else
    let idx : VectorLayout :=
      { dim := dim, encoding := encoding, count := ids.length, idList := ids
        tombstones := tombstones ++ List.replicate (ids.length - tombstones.length) false
        generations := generations ++ List.replicate (ids.length - generations.length) 1
        idMap := rowMap ids, mapped := mapped, graphs := graphs }
    if validateShards graphs ids.length edgesValid then .ok idx else .ok idx.rebuildGraph

/-- Add an id to a shadow. A row that exists is only counted up. -/
def insertShadow (id : Bytes) (vec : Vec) (shadow : VectorLayout) : Except String VectorLayout :=
  match validateVector id vec with
  | .error message => .error message
  | .ok () =>
    if vec.length ≠ shadow.dim then .error "vector dimension mismatch"
    else
      match shadow.idMap.lookup id with
      | some row => .ok { shadow with generations := shadow.generations.modify row (· + 1) }
      | none =>
        match (shadow.ensureCapacity ((shadow.count + 1) * shadow.rowBytes)).upsert id with
        | (none, shadow) => .ok shadow
        | (some row, shadow) => .ok (shadow.insertRows [row])

end VectorLayout

structure IndexState where
  live : VectorLayout
  shadow : Option VectorLayout

inductive IndexEvent where
  | vAdd (id : Bytes) (vec : Vec)
  | vAddBatch (dim : Nat) (items : List (Bytes × Vec))
  | vDel (id : Bytes)
  | vCompact
  | startMigration (dim : Nat) (encoding : VectorEncoding)
  | insertShadowVector (id : Bytes) (vec : Vec)
  | swapMigration (edgesValid : Bool)
  | cancelMigration

/-- An operation that is refused changes nothing, except for a promotion that does
not complete. -/
def IndexState.step (maxVectors : Nat) (state : IndexState) : IndexEvent → Except String IndexState
  | .vAdd id vec => (state.live.vAdd maxVectors id vec).map fun live => { state with live := live }
  | .vAddBatch dim items =>
    (state.live.vAddBatch maxVectors dim items).map fun live => { state with live := live }
  | .vDel id => .ok { state with live := state.live.vDel id }
  | .vCompact => .ok { state with live := state.live.vCompact }
  | .startMigration dim encoding =>
    if state.shadow.any fun shadow => shadow.dim = dim && shadow.encoding = encoding then .ok state
    else .ok { state with shadow := some (.create dim 1000 encoding) }
  | .insertShadowVector id vec =>
    match state.shadow with
    | none => .error "no migration in progress"
    | some shadow =>
      (shadow.insertShadow id vec).map fun shadow => { state with shadow := some shadow }
  | .swapMigration edgesValid =>
    match state.shadow with
    | none => .ok state
    | some shadow =>
      if shadow.count = 0 then .error "cannot swap empty migration"
      else
        (VectorLayout.load shadow.dim shadow.encoding shadow.mapped
          (shadow.idList.map jsonText) shadow.tombstones shadow.generations shadow.graphs
          edgesValid).map fun live => ⟨live, none⟩
  | .cancelMigration => .ok { state with shadow := none }

end Dbx.Engine
