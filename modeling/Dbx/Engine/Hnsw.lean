import Dbx.Engine.IndexLayout
import Dbx.Library.SliceHeap

/-!
# The search graph of a shard

Layered graphs over rows, and the walk of a search through their layers. Scores are of any type
with comparisons.
-/

set_option autoImplicit false

namespace Dbx.Engine.Hnsw

structure Node where
  id : Int
  layer : Int
  edges : AList fun _ : Int => List Int

/-- `byID` repeats the nodes, so it is left out. -/
structure Graph where
  nodes : AList fun _ : Int => Node
  entryPoint : Int
  maxLayer : Int
  size : Int
  efSearch : Int

structure IntNode (Score : Type) where
  id : Int
  score : Score

/-- The comparisons of scores, and `sort.Slice`, which may put equal items in any order. -/
structure Scoring (Score : Type) where
  lt : Score → Score → Bool
  le : Score → Score → Bool
  sort : {α : Type} → (α → α → Bool) → List α → List α
  perm : ∀ {α : Type} (less : α → α → Bool) (items : List α), (sort less items).Perm items

/-- By falling scores. -/
def Scoring.rank {Score : Type} (scoring : Scoring Score) :
    List (IntNode Score) → List (IntNode Score) :=
  scoring.sort fun left right => scoring.lt right.score left.score

/-- The layers from one on down, as many as given. -/
def downFrom (high : Int) : Nat → List Int
  | 0 => []
  | count + 1 => high :: downFrom (high - 1) count

namespace Graph

def node (id : Int) (graph : Graph) : Option Node := graph.nodes.lookup id

def edges (id layer : Int) (graph : Graph) : List Int :=
  ((graph.node id).bind fun node => node.edges.lookup layer).getD []

end Graph

section Search

variable {Score : Type} (scoring : Scoring Score)

def maxHeap : SliceHeap.Order (IntNode Score) where
  keeps above below := scoring.le below.score above.score
  prefers right left := scoring.lt left.score right.score

def minHeap : SliceHeap.Order (IntNode Score) where
  keeps above below := scoring.le above.score below.score
  prefers right left := scoring.lt right.score left.score

/-- The marked ids, the candidates with the best on top and the nearest with the worst. -/
structure Scratch (Score : Type) where
  visited : List Int
  candidates : Array (IntNode Score)
  nearest : Array (IntNode Score)

/-- What `mark` answers for an id that is not to be looked at. -/
def Scratch.marked (id : Int) (scratch : Scratch Score) : Bool :=
  id < 0 || id ∈ scratch.visited

def dropWorst (ef : Nat) (nearest : Array (IntNode Score)) : Array (IntNode Score) :=
  if ef < nearest.size then
    match SliceHeap.pop (minHeap scoring) nearest with
    | none => nearest
    | some (_, rest) => rest
  else nearest

def Scratch.add (id : Int) (score : Int → Score) (scratch : Scratch Score) : Scratch Score :=
  { visited := id :: scratch.visited
    candidates := SliceHeap.push (maxHeap scoring) scratch.candidates ⟨id, score id⟩
    nearest := SliceHeap.push (minHeap scoring) scratch.nearest ⟨id, score id⟩ }

/-- Look at a neighbour of a candidate. -/
def Scratch.offer (score : Int → Score) (ef : Nat) (scratch : Scratch Score) (id : Int) :
    Scratch Score :=
  if scratch.marked id then scratch
  else if scratch.nearest.size < ef ∨
      scratch.nearest[0]?.any fun worst => scoring.lt worst.score (score id) then
    let scratch := scratch.add scoring id score
    { scratch with nearest := dropWorst scoring ef scratch.nearest }
  else { scratch with visited := id :: scratch.visited }

def drain : Nat → Array (IntNode Score) → List (IntNode Score)
  | 0, _ => []
  | fuel + 1, nearest =>
    match SliceHeap.pop (minHeap scoring) nearest with
    | none => []
    | some (worst, rest) => worst :: drain fuel rest

namespace Graph

variable (graph : Graph)

def seed (score : Int → Score) (scratch : Scratch Score) (entryPoint : Int) : Scratch Score :=
  if (graph.node entryPoint).isNone || scratch.marked entryPoint then scratch
  else scratch.add scoring entryPoint score

/-- Take candidates until none is left, or the best of them is worse than all of enough. -/
def explore (score : Int → Score) (ef : Nat) (layer : Int) :
    Nat → Scratch Score → Scratch Score
  | 0, scratch => scratch
  | fuel + 1, scratch =>
    match SliceHeap.pop (maxHeap scoring) scratch.candidates with
    | none => scratch
    | some (best, rest) =>
      let scratch := { scratch with candidates := rest }
      if ef ≤ scratch.nearest.size ∧
          scratch.nearest[0]?.any fun worst => scoring.lt best.score worst.score then scratch
      else
        explore score ef layer fuel
          ((graph.edges best.id layer).foldl (Scratch.offer scoring score ef) scratch)

def targets (layer : Int) : List Int :=
  graph.nodes.entries.flatMap fun entry => (entry.2.edges.lookup layer).getD []

def start (score : Int → Score) (entryPoints : List Int) (ef : Nat) : Scratch Score :=
  let scratch := entryPoints.foldl (graph.seed scoring score) ⟨[], #[], #[]⟩
  { scratch with nearest := scratch.nearest.size.repeat (dropWorst scoring ef) scratch.nearest }

def searchLayer (score : Int → Score) (entryPoints : List Int) (ef : Int) (layer : Int)
    (filter : Int → Bool) : List (IntNode Score) :=
  let ef := if ef < 1 then 1 else ef.toNat
  let scratch := graph.start scoring score entryPoints ef
  let fuel := scratch.candidates.size + (graph.targets layer).length
  let scratch := graph.explore scoring score ef layer fuel scratch
  scoring.rank ((drain scoring scratch.nearest.size scratch.nearest).filter fun found =>
    filter found.id)

/-- Walk down to a layer, from each layer to the nearest row found there. -/
def descend (score : Int → Score) (layers : List Int) (entryPoint : Int) : Int :=
  layers.foldl (fun entryPoint layer =>
    match graph.searchLayer scoring score [entryPoint] 1 layer fun _ => true with
    | [] => entryPoint
    | found :: _ => found.id) entryPoint

def search (score : Int → Score) (k : Int) (filter : Int → Bool) (efSearch : Int) :
    List (IntNode Score) :=
  if graph.size = 0 ∨ k ≤ 0 then []
  else
    let entryPoint := graph.descend scoring score (downFrom graph.maxLayer graph.maxLayer.toNat)
      graph.entryPoint
    let ef := if efSearch ≤ 0 then graph.efSearch else efSearch
    let ef := if ef ≤ 0 then 80 else ef
    let ef := if ef < k then k else ef
    (graph.searchLayer scoring score [entryPoint] ef 0 filter).take k.toNat

variable {scoring graph}

theorem searchLayer_passes {score : Int → Score} {entryPoints : List Int} {ef layer : Int}
    {filter : Int → Bool} {found : IntNode Score}
    (member : found ∈ graph.searchLayer scoring score entryPoints ef layer filter) :
    filter found.id = true :=
  (List.mem_filter.mp ((scoring.perm _ _).mem_iff.mp member)).2

end Graph

end Search

end Dbx.Engine.Hnsw
