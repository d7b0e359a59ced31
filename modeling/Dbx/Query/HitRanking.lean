import Dbx.Query.GraphSearch

/-!
# Ranking

`VSearchOpts` and `VFuse` as the commands call them: the graphs are those of an engine, and
scores are 32-bit floats that travel as their bits.
-/

set_option autoImplicit false

namespace Dbx.Query

open Dbx.Engine Dbx.Protocol

/-- The metric of an engine, and the graphs of an index with its mapped bytes. -/
structure Graphs where
  metric : Metric Float32
  shards : MMapIndex → Bytes → List Hnsw.Graph

namespace Graphs

def vSearchOpts (graphs : Graphs) (idx : MMapIndex) (mapping : Bytes) (query : Vec)
    (opts : SearchOpts) (filter : Bytes → Bool) : List Hit :=
  let sharded : ShardedIndex := ⟨idx, mapping, graphs.shards idx mapping⟩
  match sharded.vSearchOpts graphs.metric query opts filter with
  | some (.ok hits) => hits.map fun hit => (hit.1, hit.2.toBits)
  | _ => []

/-- Scores count by their weights, whose sum is one. -/
def weighted (graphs : Graphs) (weights : List UInt32) (queries : Nat) : Metric Float32 :=
  let weights := (if weights = [] then List.replicate queries 0x3F800000 else weights).map
    Float32.ofBits
  let weightSum := weights.foldl (· + ·) 0
  { graphs.metric with
    plus := fun position sum score => sum + weights.getD position 0 / weightSum * score }

/-- The end of `VFuse`, behind the searches in the spaces. -/
def vFuse (graphs : Graphs) (weights : List UInt32) (opts : SearchOpts) (hits : List (List Hit)) :
    List Hit :=
  let metric := graphs.weighted weights hits.length
  let scored := hits.map fun space => space.map fun hit => (hit.1, Float32.ofBits hit.2)
  (metric.fused opts (metric.mergeHits 0 scored ∅)).map fun hit => (hit.1, hit.2.toBits)

def ranking (graphs : Graphs) (others : Ranking) : Ranking :=
  { others with rank := graphs.vSearchOpts, fuse := graphs.vFuse }

end Graphs

theorem not_ranked {graphs : Graphs} {idx : MMapIndex} {id : Bytes} (cleared : idx.Cleared id)
    {mapping : Bytes} {query : Vec} {opts : SearchOpts}
    {filter : Bytes → Bool} {hit : Hit}
    (member : hit ∈ graphs.vSearchOpts idx mapping query opts filter) : hit.1 ≠ id := by
  rintro rfl
  unfold Graphs.vSearchOpts at member
  dsimp only at member
  split at member
  · rename_i hits returned
    obtain ⟨scored, listed, rfl⟩ := List.mem_map.mp member
    obtain ⟨row, found, at', named, passes⟩ := vSearchOpts_passes returned listed
    have deleted := cleared found (List.mem_of_getElem? at') named
    simp [hnswFilter, at', deleted] at passes
  · cases member

theorem mem_vFuse {graphs : Graphs} {weights : List UInt32} {opts : SearchOpts}
    {hits : List (List Hit)} {hit : Hit} (member : hit ∈ graphs.vFuse weights opts hits) :
    ∃ space ∈ hits, ∃ found ∈ space, found.1 = hit.1 := by
  obtain ⟨scored, ranked, rfl⟩ := List.mem_map.mp member
  rcases mem_mergeHits (mem_fused ranked) with nothing | ⟨_, merged, found, listed, named⟩
  · exact absurd nothing (AList.notMem_empty _)
  obtain ⟨space, fused, rfl⟩ := List.mem_map.mp merged
  obtain ⟨hit, member, rfl⟩ := List.mem_map.mp listed
  exact ⟨space, fused, hit, member, named⟩

section Searches

variable {graphs : Graphs} {others : Ranking} {vectors : VectorConfig} {now : Int64}
  {dead : Set Bytes} {store : Store}

theorem indexHits_alive {key : Bytes} (steady : store.Steady dead key) {query : Vec}
    {opts : SearchOpts} {filter : Bytes → Bool} {hit : Hit}
    (member : hit ∈ indexHits (graphs.ranking others) vectors now key query opts filter store) :
    hit.1 ∉ dead := by
  unfold indexHits at member
  rcases steady.getReadOnly vectors now with ⟨result, looked, nothing, -⟩ |
    ⟨idx, looked, carries⟩
  · rw [looked] at member
    rcases result with message | _ | idx
    · cases member
    · cases member
    · exact absurd rfl (nothing idx)
  · simp only [looked] at member
    split at member
    · cases member
    · exact fun deleted => not_ranked (carries.cleared hit.1 deleted) member rfl

def Alive (dead : Set Bytes) (replies : List Reply) : Prop :=
  ∀ reply ∈ replies, ∃ id rest, reply = .array (.bulk (some id) :: rest) ∧ id ∉ dead

theorem alive_nil : Alive dead [] := fun _ none => absurd none List.not_mem_nil

theorem writeVectorHits_alive {ranking : Ranking} {withDocs : Bytes} {hits : List Hit}
    {kv : KVStore MMapVectorIndex} (alive : ∀ hit ∈ hits, hit.1 ∉ dead) :
    Alive dead (writeVectorHits ranking now withDocs hits kv) := by
  intro reply member
  obtain ⟨⟨id, score⟩, listed, rfl⟩ := List.mem_map.mp member
  dsimp only
  split
  · exact ⟨id, _, rfl, alive _ listed⟩
  · exact ⟨id, _, rfl, alive _ listed⟩

theorem searchHits_alive {parseFloat : Bytes → Option UInt32} {name : CommandName} {cmd : Command}
    (steady : ∀ space, store.Steady dead (vectorSpaceKey (cmd.arg 0) space)) :
    Alive dead (searchHits (graphs.ranking others) parseFloat vectors now name cmd store) := by
  unfold searchHits
  dsimp only
  split
  · split
    · exact writeVectorHits_alive fun hit => indexHits_alive (steady _)
    · exact alive_nil
  · split
    · exact writeVectorHits_alive fun hit => indexHits_alive (steady _)
    · exact alive_nil
  · split
    · refine writeVectorHits_alive fun hit member => ?_
      obtain ⟨space, fused, found, listed, named⟩ := mem_vFuse member
      obtain ⟨query, -, rfl⟩ := List.mem_map.mp fused
      exact named ▸ indexHits_alive (steady query.1) listed
    · exact alive_nil
  · exact alive_nil

end Searches

/-- A graph with the first row alone, whose score is that of every query. -/
def oneNode : Graphs where
  metric :=
    { lt := fun _ _ => false
      le := fun _ _ => true
      sort := fun _ items => items
      perm := fun _ items => .refl items
      coded := fun _ _ _ _ => 1
      cosine := fun _ _ _ _ => 1
      ofBits := Float32.ofBits
      zero := 0
      plus := fun _ sum score => sum + score }
  shards _ _ := [⟨AList.singleton 0 ⟨0, 0, ∅⟩, 0, 0, 1, 80⟩]

end Dbx.Query
