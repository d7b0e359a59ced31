import Mathlib.Data.List.Sort
import Dbx.Engine.Compaction
import Dbx.Engine.Hnsw
import Dbx.Query.SearchHits

/-!
# Searching the graphs of an index

`VSearchOpts` and `VFuse` with the graphs of the shards in place, over scores of any type.
-/

set_option autoImplicit false

namespace Dbx.Query

open Dbx.Engine Dbx.Engine.Hnsw

/-- How close the rows of an index are to a query: by the codes that its graphs compare, and by
the numbers that results are ranked by. `plus` adds the weighted score of a hit of a query. -/
structure Metric (Score : Type) extends Scoring Score where
  coded : MMapIndex → Bytes → Vec → Int → Score
  cosine : MMapIndex → Bytes → Vec → Int → Score
  ofBits : UInt32 → Score
  zero : Score
  plus : Nat → Score → Score → Score

def retrieve (opts : SearchOpts) : Int64 :=
  let retrieve := if opts.k < 10 then 10 else opts.k
  if opts.minScore.isNone ∧ opts.excludeID = [] then retrieve
  else
    let retrieve := if retrieve < opts.k * 8 then opts.k * 8 else retrieve
    let retrieve := if retrieve < 32 then 32 else retrieve
    if 256 < retrieve then 256 else retrieve

def hnswFilter (idx : MMapIndex) (opts : SearchOpts) (filter : Bytes → Bool) (row : Nat) : Bool :=
  match idx.rows[row]? with
  | none => false
  | some row =>
    !row.tombstone && (opts.excludeID = [] || row.id ≠ opts.excludeID) && filter row.id

structure ShardedIndex extends MMapIndex where
  mapping : Bytes
  graphs : List Graph

/-- The row at a position that a graph gives. -/
def ShardedIndex.rowAt (idx : ShardedIndex) (position : Int) : Option Row :=
  if position < 0 then none else idx.rows[position.toNat]?

section Search

variable {Score : Type} (metric : Metric Score)

namespace ShardedIndex

/-- The rows that the graphs find. -/
def found (idx : ShardedIndex) (query : Vec) (opts : SearchOpts) (filter : Bytes → Bool) :
    List Int :=
  idx.graphs.flatMap fun graph =>
    (graph.search metric.toScoring (metric.coded idx.toMMapIndex idx.mapping query)
      (retrieve opts).toInt (fun row => 0 ≤ row && hnswFilter idx.toMMapIndex opts filter row.toNat)
      opts.efSearch).map IntNode.id

def hit (idx : ShardedIndex) (score : Int → Score) (opts : SearchOpts) (row : Int) :
    Option (Bytes × Score) :=
  (idx.rowAt row).bind fun found =>
    if opts.minScore.any fun least => metric.lt (score row) (metric.ofBits least) then none
    else some (found.id, score row)

/-- The hits in an index. Nothing stands for a panic: slices for more than `2 ^ 48` bytes are
not allocated, and where the first of the two sizes wraps, the second is too large. -/
def vSearchOpts (idx : ShardedIndex) (query : Vec) (opts : SearchOpts) (filter : Bytes → Bool) :
    Option (Except String (List (Bytes × Score))) :=
  if idx.count = 0 then some (.ok [])
  else if query.length ≠ idx.dim then some (.error (dimensionMismatch idx.dim query.length))
  else if opts.k ≤ 0 then some (.ok [])
  else if 2 ^ 48 < (retrieve opts).toInt * hnswShards * 16 ∨ 2 ^ 48 < opts.k.toInt * 24 then none
  else
    let score := metric.cosine idx.toMMapIndex idx.mapping query
    let ranked := metric.sort (fun left right => metric.lt (score right) (score left))
      (idx.found metric query opts filter)
    some (.ok ((ranked.eraseDups.filterMap (idx.hit metric score opts)).take opts.k.toInt.toNat))

end ShardedIndex

/-- The first fault among the queries of a fusion. -/
def fuseQueryError : List (Bytes × Vec) → List Bytes → Option String
  | [], _ => none
  | (space, query) :: queries, seen =>
    match if space = [] then .ok () else validateSpaceName space with
    | .error message => some message
    | .ok () =>
      if space ∈ seen then some ("duplicate SPACE " ++ quote space)
      else if query = [] then some ("empty query vector for SPACE " ++ quote space)
      else fuseQueryError queries (space :: seen)

def searchSpace (lookup : Bytes → Except String (Option ShardedIndex)) (key : Bytes) (query : Vec)
    (opts : SearchOpts) (filter : Bytes → Bool) :
    Option (Except String (List (Bytes × Score))) :=
  match lookup key with
  | .error message => some (.error message)
  | .ok none => some (.ok [])
  | .ok (some idx) => idx.vSearchOpts metric query opts filter

namespace Metric

def addHits (position : Nat) (hits : List (Bytes × Score)) (merged : AList fun _ : Bytes => Score) :
    AList fun _ : Bytes => Score :=
  hits.foldl (fun merged hit =>
    merged.insert hit.1 (metric.plus position ((merged.lookup hit.1).getD metric.zero) hit.2))
      merged

/-- The hits of the queries from a position on, added up. -/
def mergeHits (position : Nat) (spaces : List (List (Bytes × Score)))
    (merged : AList fun _ : Bytes => Score) : AList fun _ : Bytes => Score :=
  (spaces.zipIdx position).foldl (fun merged space => metric.addHits space.2 space.1 merged) merged

/-- By falling scores, and by rising ids where they are the same. -/
def fuseLess (left right : Bytes × Score) : Bool :=
  if !metric.lt left.2 right.2 && !metric.lt right.2 left.2 then left.1 < right.1
  else metric.lt right.2 left.2

def fused (opts : SearchOpts) (merged : AList fun _ : Bytes => Score) : List (Bytes × Score) :=
  let results := (merged.entries.map fun entry => (entry.1, entry.2)).filter fun hit =>
    !(opts.minScore.any fun least => metric.lt hit.2 (metric.ofBits least)) &&
      (opts.excludeID = [] || hit.1 ≠ opts.excludeID)
  (metric.sort metric.fuseLess results).take opts.k.toInt.toNat

end Metric

/-- Search one space after another and add up the scores of every id. -/
def fuseHits (lookup : Bytes → Except String (Option ShardedIndex)) (index : Bytes)
    (opts : SearchOpts) (filter : Bytes → Bool) : List (Bytes × Vec) → Nat →
      (AList fun _ : Bytes => Score) → Option (Except String (AList fun _ : Bytes => Score))
  | [], _, merged => some (.ok merged)
  | (space, query) :: queries, position, merged =>
    match searchSpace metric lookup (vectorSpaceKey index space) query
      ⟨fetchK opts.k, none, opts.efSearch, []⟩ filter with
    | none => none
    | some (.error message) => some (.error message)
    | some (.ok hits) =>
      fuseHits lookup index opts filter queries (position + 1) (metric.addHits position hits merged)

def Metric.vFuse (lookup : Bytes → Except String (Option ShardedIndex)) (index : Bytes)
    (queries : List (Bytes × Vec)) (weights : List UInt32) (opts : SearchOpts)
    (filter : Bytes → Bool) : Option (Except String (List (Bytes × Score))) :=
  if queries.length < 2 then some (.error "fuse requires at least two SPACE queries")
  else
    match fuseQueryError queries [] with
    | some message => some (.error message)
    | none =>
      match validateFuse queries weights with
      | .error message => some (.error message)
      | .ok () =>
        if opts.k ≤ 0 then some (.ok [])
        else
          match fuseHits metric lookup index opts filter queries 0 ∅ with
          | none => none
          | some (.error message) => some (.error message)
          | some (.ok merged) => some (.ok (metric.fused opts merged))

end Search

structure Metric.Total {Score : Type} [LinearOrder Score] (metric : Metric Score) : Prop where
  lt_iff : ∀ left right, metric.lt left right = true ↔ left < right
  /-- `sort.Slice` by a strict weak order. -/
  sorted : ∀ {α : Type} (less : α → α → Bool),
    (∀ left right, less left right = true → less right left = false) →
    (∀ first second third, less second first = false → less third second = false →
      less third first = false) →
    ∀ items, (metric.sort less items).Pairwise fun left right => less right left = false

/-- What a caller may rely on. -/
structure SoundHits {Score : Type} [LinearOrder Score] (metric : Metric Score) (opts : SearchOpts)
    (filter : Bytes → Bool) (live : Bytes → Prop) (hits : List (Bytes × Score)) : Prop where
  few : hits.length ≤ opts.k.toInt.toNat
  distinct : (hits.map Prod.fst).Nodup
  live : ∀ hit ∈ hits, live hit.1
  passes : ∀ hit ∈ hits, filter hit.1 = true
  others : ∀ hit ∈ hits, opts.excludeID ≠ [] → hit.1 ≠ opts.excludeID
  enough : ∀ hit ∈ hits, ∀ least ∈ opts.minScore, metric.ofBits least ≤ hit.2
  falling : hits.Pairwise fun left right => right.2 ≤ left.2

section Sound

variable {Score : Type} [LinearOrder Score] {metric : Metric Score} {opts : SearchOpts}
  {filter : Bytes → Bool} {idx : ShardedIndex}

theorem SoundHits.nil {live : Bytes → Prop} : SoundHits metric opts filter live [] :=
  ⟨Nat.zero_le _, List.nodup_nil, by simp, by simp, by simp, by simp, .nil⟩

theorem Metric.Total.sorted_falling {α : Type} (total : metric.Total) (score : α → Score)
    (items : List α) :
    (metric.sort (fun left right => metric.lt (score right) (score left)) items).Pairwise
      fun left right => score right ≤ score left := by
  simp only [← not_lt, ← total.lt_iff, Bool.not_eq_true]
  refine total.sorted _ (fun left right => ?_) (fun first second third => ?_) items
  · simp only [← Bool.not_eq_true, total.lt_iff]
    exact fun less => less.asymm
  · simp only [← Bool.not_eq_true, total.lt_iff, not_lt]
    exact fun higher lower => lower.trans higher

theorem eraseDups_sublist (rows : List Int) :
    rows.eraseDups.Sublist rows ∧ rows.eraseDups.Nodup := by
  cases rows with
  | nil => exact ⟨.slnil, List.nodup_nil⟩
  | cons row rows =>
    obtain ⟨sublist, distinct⟩ := eraseDups_sublist (rows.filter fun other => !other == row)
    rw [List.eraseDups_cons]
    refine ⟨(sublist.trans List.filter_sublist).cons_cons row, List.nodup_cons.mpr ⟨?_, distinct⟩⟩
    intro member
    simpa using (List.mem_filter.mp (sublist.subset member)).2
termination_by rows.length
decreasing_by exact Nat.lt_succ_of_le (List.length_filter_le _ _)

omit [LinearOrder Score] in
/-- The graphs give rows that pass. -/
theorem found_passes {query : Vec} {row : Int} (member : row ∈ idx.found metric query opts filter) :
    hnswFilter idx.toMMapIndex opts filter row.toNat = true := by
  obtain ⟨graph, -, listed⟩ := List.mem_flatMap.mp member
  obtain ⟨one, result, rfl⟩ := List.mem_map.mp listed
  unfold Graph.search at result
  split at result
  · cases result
  · have passed := Graph.searchLayer_passes (List.mem_of_mem_take result)
    exact (Bool.and_eq_true_iff.mp passed).2

theorem hit_eq_some (total : metric.Total) {score : Int → Score} {row : Int} {hit : Bytes × Score}
    (held : idx.hit metric score opts row = some hit) :
    ∃ found, 0 ≤ row ∧ idx.rows[row.toNat]? = some found ∧ hit = (found.id, score row) ∧
      ∀ least ∈ opts.minScore, metric.ofBits least ≤ score row := by
  obtain ⟨found, present, kept⟩ := Option.bind_eq_some_iff.mp held
  unfold ShardedIndex.rowAt at present
  split at present
  · cases present
  split at kept
  · cases kept
  rename_i high
  refine ⟨found, by omega, present, (Option.some.inj kept).symm, fun least set => ?_⟩
  rw [Option.mem_def.mp set] at high
  exact not_lt.mp fun low => high ((total.lt_iff ..).mpr low)

theorem ranked_sound (total : metric.Total) (distinct : idx.Distinct) {score : Int → Score}
    {rows : List Int}
    (passes : ∀ row ∈ rows, hnswFilter idx.toMMapIndex opts filter row.toNat = true)
    (falling : rows.Pairwise fun left right => score right ≤ score left) (once : rows.Nodup) :
    SoundHits metric opts filter (fun id => idx.hasLive id = true)
      ((rows.filterMap (idx.hit metric score opts)).take opts.k.toInt.toNat) := by
  have row (hit : Bytes × Score) (member : hit ∈ (rows.filterMap (idx.hit metric score opts)).take
      opts.k.toInt.toNat) : idx.hasLive hit.1 = true ∧ filter hit.1 = true ∧
        (opts.excludeID ≠ [] → hit.1 ≠ opts.excludeID) ∧
        ∀ least ∈ opts.minScore, metric.ofBits least ≤ hit.2 := by
    obtain ⟨row, inside, held⟩ := List.mem_filterMap.mp (List.mem_of_mem_take member)
    obtain ⟨found, -, present, rfl, enough⟩ := hit_eq_some total held
    have passed := passes row inside
    unfold hnswFilter at passed
    rw [present] at passed
    simp only [Bool.and_eq_true, Bool.or_eq_true, Bool.not_eq_true', decide_eq_true_eq] at passed
    refine ⟨?_, passed.2, fun set => passed.1.2.resolve_left set, enough⟩
    simp [MMapIndex.hasLive, distinct.rowOf? present, present, passed.1.1]
  refine ⟨List.length_take_le _ _, ?_, fun hit member => (row hit member).1,
    fun hit member => (row hit member).2.1, fun hit member => (row hit member).2.2.1,
    fun hit member => (row hit member).2.2.2, ?_⟩
  · refine List.Nodup.sublist ((List.take_sublist _ _).map _) ?_
    refine List.pairwise_map.mpr (List.pairwise_filterMap.mpr ?_)
    refine once.imp fun {left right} apart => ?_
    intro first leftHeld second rightHeld same
    obtain ⟨leftRow, leftLow, leftAt, rfl, -⟩ := hit_eq_some total leftHeld
    obtain ⟨rightRow, rightLow, rightAt, rfl, -⟩ := hit_eq_some total rightHeld
    have places := (distinct.rowOf? leftAt).symm.trans
      ((congrArg idx.rowOf? same).trans (distinct.rowOf? rightAt))
    exact apart (by have := Option.some.inj places; omega)
  · refine List.Pairwise.sublist (List.take_sublist _ _) (List.pairwise_filterMap.mpr ?_)
    refine falling.imp fun ordered first leftHeld second rightHeld => ?_
    obtain ⟨-, -, -, rfl, -⟩ := hit_eq_some total leftHeld
    obtain ⟨-, -, -, rfl, -⟩ := hit_eq_some total rightHeld
    exact ordered

omit [LinearOrder Score] in
theorem vSearchOpts_ok {query : Vec} {hits : List (Bytes × Score)}
    (returned : idx.vSearchOpts metric query opts filter = some (.ok hits)) :
    hits = [] ∨ ∃ score, hits =
      ((metric.sort (fun left right => metric.lt (score right) (score left))
      (idx.found metric query opts filter)).eraseDups.filterMap (idx.hit metric score opts)).take
        opts.k.toInt.toNat := by
  unfold ShardedIndex.vSearchOpts at returned
  split at returned
  · cases returned
    exact .inl rfl
  split at returned
  · cases returned
  split at returned
  · cases returned
    exact .inl rfl
  split at returned
  · cases returned
  cases returned
  exact .inr ⟨_, rfl⟩

omit [LinearOrder Score] in
/-- A hit is a row that passes. -/
theorem vSearchOpts_passes {query : Vec} {hits : List (Bytes × Score)} {hit : Bytes × Score}
    (returned : idx.vSearchOpts metric query opts filter = some (.ok hits)) (member : hit ∈ hits) :
    ∃ (row : Nat) (found : Row), idx.rows[row]? = some found ∧ found.id = hit.1 ∧
      hnswFilter idx.toMMapIndex opts filter row = true := by
  rcases vSearchOpts_ok returned with rfl | ⟨score, rfl⟩
  · cases member
  obtain ⟨row, ranked, held⟩ := List.mem_filterMap.mp (List.mem_of_mem_take member)
  have sorted := (eraseDups_sublist _).1.subset ranked
  have passes := found_passes ((metric.perm _ _).mem_iff.mp sorted)
  obtain ⟨found, present, kept⟩ := Option.bind_eq_some_iff.mp held
  unfold ShardedIndex.rowAt at present
  split at present
  · cases present
  split at kept
  · cases kept
  cases kept
  exact ⟨row.toNat, found, present, rfl, passes⟩

theorem vSearchOpts_sound (total : metric.Total) (distinct : idx.Distinct) {query : Vec}
    {hits : List (Bytes × Score)}
    (returned : idx.vSearchOpts metric query opts filter = some (.ok hits)) :
    SoundHits metric opts filter (fun id => idx.hasLive id = true) hits := by
  rcases vSearchOpts_ok returned with rfl | ⟨score, rfl⟩
  · exact .nil
  obtain ⟨sublist, once⟩ :=
    eraseDups_sublist (metric.sort _ (idx.found metric query opts filter))
  refine ranked_sound total distinct (fun row member => ?_) ?_ once
  · exact found_passes ((metric.perm _ _).mem_iff.mp (sublist.subset member))
  · exact (total.sorted_falling _ _).sublist sublist

variable {lookup : Bytes → Except String (Option ShardedIndex)}

def Stored (lookup : Bytes → Except String (Option ShardedIndex)) (key id : Bytes) : Prop :=
  ∃ idx, lookup key = .ok (some idx) ∧ idx.hasLive id = true

theorem searchSpace_sound (total : metric.Total)
    (distinct : ∀ key idx, lookup key = .ok (some idx) → idx.Distinct) {key : Bytes} {query : Vec}
    {hits : List (Bytes × Score)}
    (done : searchSpace metric lookup key query opts filter = some (.ok hits)) :
    ∀ hit ∈ hits, filter hit.1 = true ∧ Stored lookup key hit.1 := by
  unfold searchSpace at done
  split at done
  · cases done
  · cases done
    simp
  · rename_i idx found
    have sound := vSearchOpts_sound total (distinct key idx found) done
    exact fun hit member => ⟨sound.passes hit member, idx, found, sound.live hit member⟩

omit [LinearOrder Score] in
theorem mem_addHits {position : Nat} {hits : List (Bytes × Score)}
    {merged : AList fun _ : Bytes => Score} {id : Bytes}
    (member : id ∈ metric.addHits position hits merged) :
    id ∈ merged ∨ ∃ hit ∈ hits, hit.1 = id := by
  unfold Metric.addHits at member
  induction hits generalizing merged with
  | nil => exact .inl member
  | cons first hits ih =>
    rcases ih member with before | ⟨hit, later, named⟩
    · rcases (AList.mem_insert _).mp before with rfl | before
      · exact .inr ⟨first, List.mem_cons_self, rfl⟩
      · exact .inl before
    · exact .inr ⟨hit, List.mem_cons_of_mem _ later, named⟩

omit [LinearOrder Score] in
theorem mem_fused {merged : AList fun _ : Bytes => Score} {hit : Bytes × Score}
    (member : hit ∈ metric.fused opts merged) : hit.1 ∈ merged := by
  have listed := (metric.perm _ _).mem_iff.mp (List.mem_of_mem_take member)
  obtain ⟨entry, held, rfl⟩ := List.mem_map.mp (List.mem_filter.mp listed).1
  exact List.mem_map_of_mem (f := Sigma.fst) held

omit [LinearOrder Score] in
theorem mem_mergeHits {spaces : List (List (Bytes × Score))} {position : Nat}
    {merged : AList fun _ : Bytes => Score} {id : Bytes}
    (member : id ∈ metric.mergeHits position spaces merged) :
    id ∈ merged ∨ ∃ hits ∈ spaces, ∃ hit ∈ hits, hit.1 = id := by
  induction spaces generalizing position merged with
  | nil => exact .inl member
  | cons hits spaces ih =>
    rcases ih member with before | ⟨later, listed, found⟩
    · rcases mem_addHits before with old | found
      · exact .inl old
      · exact .inr ⟨hits, List.mem_cons_self, found⟩
    · exact .inr ⟨later, List.mem_cons_of_mem _ listed, found⟩

omit [LinearOrder Score] in
/-- A fusion adds up what the searches through its spaces return. -/
theorem fuseHits_merged {index : Bytes} {queries : List (Bytes × Vec)} {position : Nat}
    {before merged : AList fun _ : Bytes => Score}
    (done : fuseHits metric lookup index opts filter queries position before = some (.ok merged)) :
    ∃ spaces, queries.map (fun query => searchSpace metric lookup (vectorSpaceKey index query.1)
          query.2 ⟨fetchK opts.k, none, opts.efSearch, []⟩ filter) =
        spaces.map (fun hits => some (.ok hits)) ∧
      merged = metric.mergeHits position spaces before := by
  induction queries generalizing position before with
  | nil =>
    cases done
    exact ⟨[], rfl, rfl⟩
  | cons query queries ih =>
    unfold fuseHits at done
    split at done
    · cases done
    · cases done
    · rename_i hits searched
      obtain ⟨spaces, fetched, same⟩ := ih done
      exact ⟨hits :: spaces, by rw [List.map_cons, List.map_cons, searched, fetched], same⟩

theorem fuseHits_keys (total : metric.Total)
    (distinct : ∀ key idx, lookup key = .ok (some idx) → idx.Distinct) {index id : Bytes}
    {queries : List (Bytes × Vec)} {merged : AList fun _ : Bytes => Score}
    (done : fuseHits metric lookup index opts filter queries 0 ∅ = some (.ok merged))
    (member : id ∈ merged) :
    filter id = true ∧ ∃ query ∈ queries, Stored lookup (vectorSpaceKey index query.1) id := by
  obtain ⟨spaces, fetched, rfl⟩ := fuseHits_merged done
  rcases mem_mergeHits member with nothing | ⟨hits, listed, hit, found, rfl⟩
  · exact absurd nothing (AList.notMem_empty _)
  obtain ⟨query, queried, searched⟩ := List.mem_map.mp
    (fetched ▸ List.mem_map.mpr ⟨hits, listed, rfl⟩)
  obtain ⟨passes, stored⟩ := searchSpace_sound total distinct searched hit found
  exact ⟨passes, query, queried, stored⟩

theorem fuseLess_false (total : metric.Total) {left right : Bytes × Score} :
    metric.fuseLess right left = false ↔
      right.2 < left.2 ∨ right.2 = left.2 ∧ left.1 ≤ right.1 := by
  unfold Metric.fuseLess
  rcases lt_trichotomy left.2 right.2 with less | same | more
  · simp [(total.lt_iff ..).mpr less, less.asymm, less.ne']
  · have never : metric.lt right.2 right.2 = false := by
      rw [← Bool.not_eq_true, total.lt_iff]
      exact lt_irrefl _
    simp [same, never]
  · have reverse : metric.lt left.2 right.2 = false := by
      rw [← Bool.not_eq_true, total.lt_iff]
      exact more.asymm
    simp [(total.lt_iff ..).mpr more, reverse, more]

theorem fuse_falling (total : metric.Total) (hits : List (Bytes × Score)) :
    (metric.sort metric.fuseLess hits).Pairwise fun left right => right.2 ≤ left.2 := by
  refine (total.sorted _ (fun left right less => ?_) (fun first second third => ?_) hits).imp
    fun ordered => ?_
  · have later := mt (fuseLess_false total).mpr (Bool.not_eq_false _ ▸ less)
    rw [not_or, not_and, not_lt] at later
    refine (fuseLess_false total).mpr (later.1.lt_or_eq.imp_right fun same => ⟨same, ?_⟩)
    exact (List.le_total ..).resolve_right (later.2 same.symm)
  · simp only [fuseLess_false total]
    rintro (lower | ⟨same, before⟩) (next | ⟨equal, after⟩)
    · exact .inl (next.trans lower)
    · exact .inl (equal ▸ lower)
    · exact .inl (same ▸ next)
    · exact .inr ⟨equal.trans same, List.le_trans before after⟩
  · rcases (fuseLess_false total).mp ordered with lower | ⟨same, -⟩
    · exact lower.le
    · exact same.le

theorem fused_sound (total : metric.Total) {merged : AList fun _ : Bytes => Score}
    {live : Bytes → Prop} (keys : ∀ id ∈ merged, filter id = true ∧ live id) :
    SoundHits metric opts filter live (metric.fused opts merged) := by
  unfold Metric.fused
  generalize kept : (merged.entries.map fun entry => (entry.1, entry.2)).filter _ = results
  have sorted := metric.perm metric.fuseLess results
  have once : (results.map Prod.fst).Nodup := by
    rw [← kept]
    refine List.Nodup.sublist (List.filter_sublist.map _) ?_
    rw [List.map_map]
    exact merged.nodupKeys
  have passed (hit : Bytes × Score)
      (member : hit ∈ (metric.sort metric.fuseLess results).take opts.k.toInt.toNat) :
      hit.1 ∈ merged ∧
        (∀ least ∈ opts.minScore, metric.lt hit.2 (metric.ofBits least) = false) ∧
          (opts.excludeID ≠ [] → hit.1 ≠ opts.excludeID) := by
    have inside := sorted.mem_iff.mp (List.mem_of_mem_take member)
    rw [← kept] at inside
    obtain ⟨listed, passes⟩ := List.mem_filter.mp inside
    obtain ⟨entry, held, rfl⟩ := List.mem_map.mp listed
    simp only [Bool.and_eq_true, Bool.or_eq_true, Bool.not_eq_true', decide_eq_true_eq] at passes
    refine ⟨List.mem_map_of_mem (f := Sigma.fst) held, fun least set => ?_,
      fun set => passes.2.resolve_left set⟩
    have low := passes.1
    rwa [Option.mem_def.mp set] at low
  refine ⟨List.length_take_le _ _, ?_, fun hit member => (keys _ (passed hit member).1).2,
    fun hit member => (keys _ (passed hit member).1).1, fun hit member => (passed hit member).2.2,
    fun hit member least set => ?_, (fuse_falling total results).sublist (List.take_sublist _ _)⟩
  · exact List.Nodup.sublist ((List.take_sublist _ _).map _) ((sorted.map _).nodup_iff.mpr once)
  · have high := (passed hit member).2.1 least set
    rwa [← Bool.not_eq_true, total.lt_iff, not_lt] at high

/-- Whatever the graphs and the options are: what a search returns and what a fusion returns is
live, passes and is ranked. -/
theorem searches_sound (total : metric.Total) :
    (∀ idx : ShardedIndex, idx.Distinct → ∀ query hits,
      idx.vSearchOpts metric query opts filter = some (.ok hits) →
        SoundHits metric opts filter (fun id => idx.hasLive id = true) hits) ∧
    ∀ lookup : Bytes → Except String (Option ShardedIndex),
      (∀ key idx, lookup key = .ok (some idx) → idx.Distinct) →
      ∀ index queries weights hits,
        metric.vFuse lookup index queries weights opts filter = some (.ok hits) →
          SoundHits metric opts filter (fun id => ∃ query ∈ queries, ∃ idx, idx.hasLive id = true ∧
            lookup (vectorSpaceKey index query.1) = .ok (some idx)) hits := by
  refine ⟨fun idx distinct query hits => vSearchOpts_sound total distinct, ?_⟩
  intro lookup distinct index queries weights hits returned
  unfold Metric.vFuse at returned
  split at returned
  · cases returned
  split at returned
  · cases returned
  split at returned
  · cases returned
  split at returned
  · cases returned
    exact .nil
  split at returned
  · cases returned
  · cases returned
  · rename_i merged done
    cases returned
    refine fused_sound total fun id member => ?_
    obtain ⟨passes, query, queried, idx, looked, live⟩ :=
      fuseHits_keys total distinct done member
    exact ⟨passes, query, queried, idx, live, looked⟩

end Sound

/-- Rows score by their number. -/
def numbered : Metric Int where
  lt left right := left < right
  le left right := left ≤ right
  sort less items := items.insertionSort fun left right => less right left = false
  perm _ items := List.perm_insertionSort _ items
  coded _ _ _ row := row
  cosine _ _ _ row := row
  ofBits bits := bits.toNat
  zero := 0
  plus _ sum score := sum + score

theorem numbered_total : numbered.Total where
  lt_iff _ _ := decide_eq_true_iff
  sorted less asymmetric transitive items := by
    have total : Std.Total fun left right => less right left = false :=
      ⟨fun left right => by
        by_cases first : less right left = false
        · exact .inl first
        · exact .inr (asymmetric right left (Bool.not_eq_false _ ▸ first))⟩
    have trans : IsTrans _ fun left right => less right left = false :=
      ⟨fun first second third => transitive first second third⟩
    exact List.pairwise_insertionSort _ items

def twoRows : ShardedIndex where
  path := .live [0x6b]
  dim := 1
  encoding := .float32
  rows := [⟨[0x61], true, 2⟩, ⟨[0x62], false, 1⟩]
  metaDirty := 0
  lastMeta := none
  mapping := []
  graphs := [⟨AList.insert 0 ⟨0, 0, AList.singleton 0 [1]⟩ (AList.singleton 1 ⟨1, 0, ∅⟩), 0, 0,
    2, 80⟩]

/-- The row that is left is found by way of the one that was deleted. -/
theorem live_row_found : twoRows.vSearchOpts numbered [0] ⟨5, none, 0, []⟩ (fun _ => true) =
      some (.ok [([0x62], 1)]) ∧
    SoundHits numbered ⟨5, none, 0, []⟩ (fun _ => true) (fun id => twoRows.hasLive id = true)
      [([0x62], (1 : Int))] :=
  have distinct : twoRows.Distinct := by
    unfold MMapIndex.Distinct
    decide
  ⟨by decide +kernel,
    (searches_sound numbered_total).1 twoRows distinct [0] _ (by decide +kernel)⟩

end Dbx.Query
