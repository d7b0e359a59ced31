import Mathlib.Data.List.TakeWhile
import Dbx.Engine.IndexLayout

/-!
# The parallel structures stay in step

The invariant of the layout of an index, that every operation keeps it, and what
follows for every run.
-/

set_option autoImplicit false

namespace Dbx.Engine

open Runs

namespace VectorLayout

structure Aligned (idx : VectorLayout) : Prop where
  ids : idx.idList.length = idx.count
  tombstones : idx.tombstones.length = idx.count
  generations : idx.generations.length = idx.count
  inverse : ∀ id row, idx.idMap.lookup id = some row ↔ idx.idList[row]? = some id

/-- The shards hold the rows below a bound, each those of its residue. -/
structure Sharded (bound : Nat) (graphs : List HNSWGraph) : Prop where
  length : graphs.length = hnswShards
  nodes : ∀ shard graph, graphs[shard]? = some graph →
    ∀ row, row ∈ graph.nodes ↔ row < bound ∧ row % hnswShards = shard

structure Sound (idx : VectorLayout) : Prop extends Aligned idx where
  fits : idx.count * idx.rowBytes ≤ idx.mapped
  sharded : Sharded idx.count idx.graphs

theorem inverse_snoc {rows : AList fun _ : Bytes => Nat} {ids : List Bytes} {last : Bytes}
    (inverse : ∀ id row, rows.lookup id = some row ↔ ids[row]? = some id) (fresh : last ∉ ids)
    (id : Bytes) (row : Nat) :
    (rows.insert last ids.length).lookup id = some row ↔ (ids ++ [last])[row]? = some id := by
  by_cases same : id = last
  · subst same
    rw [AList.lookup_insert, Option.some.injEq]
    constructor
    · rintro rfl
      simp
    · intro found
      rcases Nat.lt_trichotomy row ids.length with less | equal | more
      · rw [List.getElem?_append_left less] at found
        exact absurd (List.mem_of_getElem? found) fresh
      · exact equal.symm
      · rw [List.getElem?_eq_none (by simp; omega)] at found
        cases found
  · rw [AList.lookup_insert_ne same, inverse]
    constructor
    · intro found
      obtain ⟨bound, _⟩ := List.getElem?_eq_some_iff.mp found
      rw [List.getElem?_append_left bound]
      exact found
    · intro found
      rcases Nat.lt_trichotomy row ids.length with less | equal | more
      · rw [List.getElem?_append_left less] at found
        exact found
      · subst equal
        simp only [List.getElem?_concat_length, Option.some.injEq] at found
        exact absurd found.symm same
      · rw [List.getElem?_eq_none (by simp; omega)] at found
        cases found

theorem rowMap_snoc (ids : List Bytes) (id : Bytes) :
    rowMap (ids ++ [id]) = (rowMap ids).insert id ids.length := by
  unfold rowMap
  rw [List.zipIdx_append, List.foldl_append]
  simp

theorem rowMap_inverse {ids : List Bytes} (distinct : ids.Nodup) (id : Bytes) (row : Nat) :
    (rowMap ids).lookup id = some row ↔ ids[row]? = some id := by
  induction ids using List.reverseRecOn generalizing id row with
  | nil => simp [rowMap]
  | append_singleton ids last ih =>
    obtain ⟨before, -, apart⟩ := List.nodup_append.mp distinct
    have fresh : last ∉ ids := fun member =>
      absurd rfl (apart last member last (List.mem_singleton_self last))
    rw [rowMap_snoc]
    exact inverse_snoc (ih before) fresh id row

variable {idx : VectorLayout}

theorem Aligned.nodup (aligned : Aligned idx) : idx.idList.Nodup := by
  rw [List.nodup_iff_getElem?_ne_getElem?]
  intro first second order bound same
  obtain ⟨id, found⟩ : ∃ id, idx.idList[second]? = some id :=
    ⟨_, List.getElem?_eq_getElem bound⟩
  have left := (aligned.inverse id first).mpr (same.trans found)
  have right := (aligned.inverse id second).mpr found
  rw [left] at right
  cases right
  exact Nat.lt_irrefl first order

theorem Aligned.mem_iff (aligned : Aligned idx) (id : Bytes) :
    id ∈ idx.idList ↔ (idx.idMap.lookup id).isSome = true := by
  rw [List.mem_iff_getElem?, Option.isSome_iff_exists]
  exact exists_congr fun row => (aligned.inverse id row).symm

theorem sharded_new : Sharded 0 newHNSWShards := by
  constructor
  · simp [newHNSWShards]
  · intro shard graph found row
    have member := List.mem_of_getElem? found
    rw [newHNSWShards, List.mem_replicate] at member
    rw [member.2]
    simp [HNSWGraph.new]

theorem mem_insertInto (rows : List Nat) (graph : HNSWGraph) (shard row : Nat) :
    row ∈ (insertInto rows graph shard).nodes ↔
      row ∈ graph.nodes ∨ row ∈ rows ∧ row % hnswShards = shard := by
  unfold insertInto
  induction rows generalizing graph with
  | nil => simp
  | cons head rows ih =>
    rw [List.foldl_cons, ih, List.mem_cons]
    by_cases belongs : head % hnswShards = shard
    · rw [if_pos belongs, HNSWGraph.insert, Finset.mem_insert]
      constructor
      · rintro ((rfl | held) | later)
        · exact Or.inr ⟨Or.inl rfl, belongs⟩
        · exact Or.inl held
        · exact Or.inr ⟨Or.inr later.1, later.2⟩
      · rintro (held | ⟨rfl | later, residue⟩)
        · exact Or.inl (Or.inr held)
        · exact Or.inl (Or.inl rfl)
        · exact Or.inr ⟨later, residue⟩
    · rw [if_neg belongs]
      constructor
      · rintro (held | later)
        · exact Or.inl held
        · exact Or.inr ⟨Or.inr later.1, later.2⟩
      · rintro (held | ⟨rfl | later, residue⟩)
        · exact Or.inl held
        · exact absurd residue belongs
        · exact Or.inr ⟨later, residue⟩

theorem Sharded.extend {bound bound' : Nat} {graphs : List HNSWGraph} {rows : List Nat}
    (sharded : Sharded bound graphs) (grows : bound ≤ bound')
    (fresh : ∀ row, row ∈ rows ↔ bound ≤ row ∧ row < bound') :
    Sharded bound' (graphs.zipIdx.map fun (graph, shard) => insertInto rows graph shard) := by
  constructor
  · simpa using sharded.length
  · intro shard graph found row
    rw [List.getElem?_map, List.getElem?_zipIdx, Option.map_map, Option.map_eq_some_iff] at found
    obtain ⟨old, present, rfl⟩ := found
    simp only [Function.comp_apply, Nat.zero_add, mem_insertInto, fresh,
      sharded.nodes shard old present]
    constructor
    · rintro (⟨below, residue⟩ | ⟨⟨_, below⟩, residue⟩)
      · exact ⟨Nat.lt_of_lt_of_le below grows, residue⟩
      · exact ⟨below, residue⟩
    · rintro ⟨below, residue⟩
      by_cases early : row < bound
      · exact Or.inl ⟨early, residue⟩
      · exact Or.inr ⟨⟨Nat.not_lt.mp early, below⟩, residue⟩

theorem mem_foldl_insert (rows : List Nat) (graph : HNSWGraph) (row : Nat) :
    row ∈ (rows.foldl (fun graph row => graph.insert row) graph).nodes ↔
      row ∈ graph.nodes ∨ row ∈ rows := by
  induction rows generalizing graph with
  | nil => simp
  | cons head rows ih =>
    rw [List.foldl_cons, ih, HNSWGraph.insert, Finset.mem_insert, List.mem_cons]
    tauto

theorem sharded_rebuildGraph (fits : idx.count * idx.rowBytes ≤ idx.mapped) :
    Sharded idx.count idx.rebuildGraph.graphs := by
  constructor
  · simp [rebuildGraph]
  · intro shard graph found row
    rw [rebuildGraph, List.getElem?_map, Option.map_eq_some_iff] at found
    obtain ⟨index, present, rfl⟩ := found
    obtain ⟨bound, rfl⟩ := List.getElem?_eq_some_iff.mp present
    rw [List.getElem_range, rebuildShard, List.takeWhile_eq_self_iff.mpr, mem_foldl_insert]
    · simp [HNSWGraph.new]
    · intro row member
      have below := List.mem_range.mp (List.mem_filter.mp member).1
      have within : (row + 1) * idx.rowBytes ≤ idx.count * idx.rowBytes :=
        Nat.mul_le_mul_right _ below
      rw [Nat.succ_mul] at within
      exact decide_eq_true (within.trans fits)

theorem create_sound (dim capacity : Nat) (encoding : VectorEncoding) :
    (create dim capacity encoding).Sound where
  ids := rfl
  tombstones := rfl
  generations := rfl
  inverse := by simp [create]
  fits := by simp [create]
  sharded := sharded_new

theorem ensureCapacity_mapped (neededBytes : Nat) (idx : VectorLayout) :
    neededBytes ≤ (idx.ensureCapacity neededBytes).mapped ∧
      idx.mapped ≤ (idx.ensureCapacity neededBytes).mapped := by
  unfold ensureCapacity
  split
  · exact ⟨‹_›, Nat.le_refl _⟩
  · dsimp only
    split <;> omega

theorem ensureCapacity_eq (neededBytes : Nat) (idx : VectorLayout) :
    idx.ensureCapacity neededBytes =
      { idx with mapped := (idx.ensureCapacity neededBytes).mapped } := by
  unfold ensureCapacity
  split <;> rfl

section

variable {id : Bytes} (aligned : Aligned idx)
include aligned

theorem Aligned.ensureCapacity (neededBytes : Nat) : Aligned (idx.ensureCapacity neededBytes) := by
  rw [ensureCapacity_eq]
  exact ⟨aligned.ids, aligned.tombstones, aligned.generations, aligned.inverse⟩

theorem Aligned.fresh (unknown : idx.idMap.lookup id = none) : id ∉ idx.idList := by
  rw [aligned.mem_iff, unknown]
  exact Bool.false_ne_true

/-- An id that has a row keeps it, and only its flags may change. -/
theorem upsert_known (known : (idx.idMap.lookup id).isSome = true) :
    (idx.upsert id).1 = none ∧ Aligned (idx.upsert id).2 ∧
      ∃ tombstones generations, (idx.upsert id).2 =
        { idx with tombstones := tombstones, generations := generations } := by
  obtain ⟨row, found⟩ := Option.isSome_iff_exists.mp known
  unfold upsert
  rw [found]
  dsimp only
  split
  · refine ⟨rfl, ⟨aligned.ids, ?_, ?_, aligned.inverse⟩, _, _, rfl⟩
    · rw [List.length_set]
      exact aligned.tombstones
    · rw [List.length_modify]
      exact aligned.generations
  · exact ⟨rfl, aligned, _, _, rfl⟩

theorem upsert_unknown (unknown : idx.idMap.lookup id = none) :
    (idx.upsert id).1 = some idx.count ∧ Aligned (idx.upsert id).2 ∧
      (idx.upsert id).2 = { idx with
        idMap := idx.idMap.insert id idx.count, idList := idx.idList ++ [id]
        tombstones := idx.tombstones ++ [false], generations := idx.generations ++ [1]
        count := idx.count + 1 } := by
  unfold upsert
  rw [unknown]
  refine ⟨rfl, ⟨?_, ?_, ?_, ?_⟩, rfl⟩
  · simp [aligned.ids]
  · simp [aligned.tombstones]
  · simp [aligned.generations]
  · intro other row
    have inverse := inverse_snoc aligned.inverse (aligned.fresh unknown) other row
    rw [aligned.ids] at inverse
    exact inverse

end

structure Batched (start : VectorLayout) (asked : List Bytes) (rows : List Nat)
    (idx : VectorLayout) : Prop extends Aligned idx where
  dim : idx.dim = start.dim
  encoding : idx.encoding = start.encoding
  mapped : idx.mapped = start.mapped
  graphs : idx.graphs = start.graphs
  newRows : ∀ row, row ∈ rows ↔ start.count ≤ row ∧ row < idx.count
  added : ∃ fresh, idx.idList = start.idList ++ fresh ∧ ∀ id ∈ fresh, id ∈ asked

theorem upsertAll_snoc (ids : List Bytes) (id : Bytes) (idx : VectorLayout) :
    idx.upsertAll (ids ++ [id]) =
      match (idx.upsertAll ids).2.upsert id with
      | (none, after) => ((idx.upsertAll ids).1, after)
      | (some row, after) => ((idx.upsertAll ids).1 ++ [row], after) := by
  rcases placed : (idx.upsertAll ids).2.upsert id with ⟨_ | row, last⟩
  all_goals
    unfold upsertAll at placed ⊢
    rw [List.foldl_append, List.foldl_cons, List.foldl_nil]
    simp only [placed]

variable {start : VectorLayout}

theorem upsertAll_batched (starting : Aligned start) (ids : List Bytes) :
    Batched start ids (start.upsertAll ids).1 (start.upsertAll ids).2 := by
  induction ids using List.reverseRecOn with
  | nil =>
    refine ⟨starting, rfl, rfl, rfl, rfl, fun row => ?_, [], by simp [upsertAll], by simp⟩
    simp only [upsertAll, List.foldl_nil, List.not_mem_nil, false_iff]
    omega
  | append_singleton ids id ih =>
    rw [upsertAll_snoc]
    generalize start.upsertAll ids = before at ih ⊢
    obtain ⟨rows, idx⟩ := before
    dsimp only at ih ⊢
    obtain ⟨fresh, listed, asked⟩ := ih.added
    have later : ∀ other ∈ fresh, other ∈ ids ++ [id] :=
      fun other member => List.mem_append_left _ (asked other member)
    cases found : idx.idMap.lookup id with
    | some row =>
      obtain ⟨none, aligned, tombstones, generations, same⟩ :=
        upsert_known ih.toAligned (by rw [found]; rfl)
      generalize idx.upsert id = result at none aligned same ⊢
      obtain ⟨new, after⟩ := result
      cases none
      cases same
      exact ⟨aligned, ih.dim, ih.encoding, ih.mapped, ih.graphs, ih.newRows, fresh, listed,
        later⟩
    | none =>
      obtain ⟨some, aligned, same⟩ := upsert_unknown ih.toAligned found
      generalize idx.upsert id = result at some aligned same ⊢
      obtain ⟨new, after⟩ := result
      cases some
      cases same
      have grown : start.count ≤ idx.count := by
        rw [← ih.ids, ← starting.ids, listed, List.length_append]
        exact Nat.le_add_right ..
      refine ⟨aligned, ih.dim, ih.encoding, ih.mapped, ih.graphs, fun row => ?_,
        fresh ++ [id], by rw [listed, List.append_assoc], ?_⟩
      · rw [List.mem_append, ih.newRows, List.mem_singleton]
        dsimp only
        omega
      · intro other member
        rcases List.mem_append.mp member with earlier | last
        · exact later other earlier
        · exact List.mem_append_right _ last

section

variable {asked : List Bytes} {rows : List Nat} (batched : Batched start asked rows idx)
  (starting : Aligned start)
include batched starting

theorem Batched.count_le :
    idx.count ≤ start.count +
      (asked.filter fun id => (start.idMap.lookup id).isNone).dedup.length := by
  obtain ⟨fresh, listed, member⟩ := batched.added
  have distinct := batched.nodup
  rw [listed, List.nodup_append] at distinct
  have subset : fresh ⊆ (asked.filter fun id => (start.idMap.lookup id).isNone).dedup := by
    intro id new
    rw [List.mem_dedup, List.mem_filter]
    refine ⟨member id new, ?_⟩
    rw [Option.isNone_iff_eq_none, ← Option.not_isSome_iff_eq_none, ← starting.mem_iff]
    exact fun old => distinct.2.2 id old id new rfl
  have bound := (List.subperm_of_subset distinct.2.1 subset).length_le
  rw [← batched.ids, ← starting.ids, listed, List.length_append]
  exact Nat.add_le_add_left bound _

theorem Batched.sound (sharded : Sharded start.count start.graphs)
    (fits : idx.count * start.rowBytes ≤ start.mapped) : (idx.insertRows rows).Sound := by
  have grown : start.count ≤ idx.count := by
    obtain ⟨fresh, listed, _⟩ := batched.added
    rw [← batched.ids, ← starting.ids, listed, List.length_append]
    exact Nat.le_add_right ..
  have inserted := sharded.extend grown batched.newRows
  rw [← batched.graphs] at inserted
  refine ⟨⟨batched.ids, batched.tombstones, batched.generations, batched.inverse⟩, ?_, inserted⟩
  change idx.count * vectorRowSize idx.dim idx.encoding ≤ idx.mapped
  rw [batched.dim, batched.encoding, batched.mapped]
  exact fits

end

theorem Sound.vAddBatch {idx after : VectorLayout} (sound : idx.Sound) {maxVectors dim : Nat}
    {items : List (Bytes × Vec)} (success : idx.vAddBatch maxVectors dim items = .ok after) :
    after.Sound := by
  unfold VectorLayout.vAddBatch at success
  split at success
  · cases success
    exact sound
  split at success
  · cases success
  split at success
  · cases success
  split at success
  · cases success
  dsimp only at success
  split at success
  · cases success
  split at success
  · cases success
  cases success
  generalize needed : (idx.count + _) * idx.rowBytes = bytes
  have aligned := sound.ensureCapacity bytes
  have batched := upsertAll_batched aligned (items.map Prod.fst)
  have bound := batched.count_le aligned
  rw [ensureCapacity_eq] at aligned batched bound ⊢
  refine batched.sound aligned sound.sharded ?_
  refine Nat.le_trans (Nat.mul_le_mul_right _ bound) ?_
  change (idx.count + _) * idx.rowBytes ≤ _
  rw [needed]
  exact (ensureCapacity_mapped bytes idx).1

theorem insertRows_nil (idx : VectorLayout) : idx.insertRows [] = idx := by
  have same : (idx.graphs.zipIdx.map fun (graph, shard) => insertInto [] graph shard) =
      idx.graphs := by
    refine List.ext_getElem? fun shard => ?_
    rw [List.getElem?_map, List.getElem?_zipIdx, Option.map_map]
    exact Option.map_id' ..
  unfold insertRows
  rw [same]

theorem upsert_batched (starting : Aligned start) (sharded : Sharded start.count start.graphs)
    {id : Bytes} {bytes : Nat}
    (needed : (start.count + if (start.idMap.lookup id).isNone then 1 else 0) * start.rowBytes ≤
      bytes) (mapped : bytes ≤ start.mapped) :
    match start.upsert id with
    | (none, after) => after.Sound
    | (some row, after) => (after.insertRows [row]).Sound := by
  have batched := upsertAll_batched starting [id]
  have bound := batched.count_le starting
  have single : ([id].filter fun id => (start.idMap.lookup id).isNone).dedup.length =
      if (start.idMap.lookup id).isNone then 1 else 0 := by
    cases found : start.idMap.lookup id <;> simp [found]
  rw [single] at bound
  have sound := batched.sound starting sharded
    ((Nat.mul_le_mul_right _ bound).trans (needed.trans mapped))
  have once := upsertAll_snoc [] id start
  rw [List.nil_append] at once
  rw [once] at sound
  have none_yet : (upsertAll [] start) = ([], start) := rfl
  rw [none_yet] at sound
  dsimp only at sound
  generalize start.upsert id = result at sound
  obtain ⟨_ | row, after⟩ := result
  · dsimp only at sound
    rw [insertRows_nil] at sound
    exact sound
  · exact sound

theorem Sound.vAdd {idx after : VectorLayout} (sound : idx.Sound) {maxVectors : Nat} {id : Bytes}
    {vec : Vec} (success : idx.vAdd maxVectors id vec = .ok after) : after.Sound := by
  unfold VectorLayout.vAdd at success
  split at success
  · cases success
  split at success
  · cases success
  split at success
  · cases success
  dsimp only at success
  generalize counted : (if (idx.idMap.lookup id).isSome then idx.count else idx.count + 1) =
    neededCount at success
  have needed : (idx.count + if (idx.idMap.lookup id).isNone then 1 else 0) * idx.rowBytes ≤
      neededCount * idx.rowBytes := by
    rw [← counted]
    cases idx.idMap.lookup id <;> simp
  have grown := (ensureCapacity_mapped (neededCount * idx.rowBytes) idx).1
  have aligned := sound.ensureCapacity (neededCount * idx.rowBytes)
  rw [ensureCapacity_eq] at aligned success
  have added := upsert_batched aligned sound.sharded needed grown
  generalize upsert id _ = result at added success
  obtain ⟨_ | row, final⟩ := result
  · cases success
    exact added
  · cases success
    exact added

theorem Sound.insertShadow {shadow after : VectorLayout} (sound : shadow.Sound) {id : Bytes}
    {vec : Vec} (success : shadow.insertShadow id vec = .ok after) : after.Sound := by
  unfold VectorLayout.insertShadow at success
  split at success
  · cases success
  split at success
  · cases success
  cases found : shadow.idMap.lookup id with
  | some row =>
    simp only [found] at success
    cases success
    refine ⟨⟨sound.ids, sound.tombstones, ?_, sound.inverse⟩, sound.fits, sound.sharded⟩
    rw [List.length_modify]
    exact sound.generations
  | none =>
    simp only [found] at success
    have needed : (shadow.count + if (shadow.idMap.lookup id).isNone then 1 else 0) *
        shadow.rowBytes ≤ (shadow.count + 1) * shadow.rowBytes := by
      rw [found]
      exact Nat.le_refl _
    have grown := (ensureCapacity_mapped ((shadow.count + 1) * shadow.rowBytes) shadow).1
    have aligned := sound.ensureCapacity ((shadow.count + 1) * shadow.rowBytes)
    rw [ensureCapacity_eq] at aligned success
    have added := upsert_batched aligned sound.sharded needed grown
    generalize upsert id _ = result at added success
    obtain ⟨_ | row, final⟩ := result
    · cases success
      exact added
    · cases success
      exact added

theorem Sound.vDel (sound : idx.Sound) (id : Bytes) : (idx.vDel id).Sound := by
  unfold VectorLayout.vDel
  split
  · exact sound
  split
  · refine ⟨⟨sound.ids, ?_, ?_, sound.inverse⟩, sound.fits, sound.sharded⟩
    · rw [List.length_set]
      exact sound.tombstones
    · rw [List.length_modify]
      exact sound.generations
  · exact sound

theorem rebuildGraph_sound (aligned : Aligned idx) (fits : idx.count * idx.rowBytes ≤ idx.mapped) :
    idx.rebuildGraph.Sound :=
  ⟨⟨aligned.ids, aligned.tombstones, aligned.generations, aligned.inverse⟩, fits,
    sharded_rebuildGraph fits⟩

theorem active_sublist (idx : VectorLayout) (aligned : Aligned idx) :
    (idx.active.map Prod.fst).Sublist idx.idList := by
  have firsts : (idx.idList.zip (idx.tombstones.zip idx.generations)).map Prod.fst =
      idx.idList := by
    refine List.map_fst_zip ?_
    rw [List.length_zip, aligned.ids, aligned.tombstones, aligned.generations, Nat.min_self]
  have kept := (List.filter_sublist (p := fun row => !row.2.1)
    (l := idx.idList.zip (idx.tombstones.zip idx.generations))).map Prod.fst
  rw [firsts] at kept
  unfold active
  rw [List.map_map]
  exact kept

theorem Sound.vCompact (sound : idx.Sound) : idx.vCompact.Sound := by
  unfold VectorLayout.vCompact
  split
  · exact sound
  have kept := active_sublist idx sound.toAligned
  have fewer := kept.length_le
  rw [sound.ids] at fewer
  refine rebuildGraph_sound ⟨rfl, ?_, ?_, ?_⟩ ?_
  · rw [List.length_replicate]
  · rw [List.length_map, List.length_map]
  · exact rowMap_inverse (sound.nodup.sublist kept)
  · exact (Nat.mul_le_mul_right _ fewer).trans sound.fits

theorem Sound.load {after : VectorLayout} (sound : idx.Sound) {ids : List Bytes}
    (distinct : ids.Nodup) (same : ids.length = idx.count) {edgesValid : Bool}
    (success : load idx.dim idx.encoding idx.mapped ids idx.tombstones idx.generations idx.graphs
      edgesValid = .ok after) : after.Sound := by
  unfold VectorLayout.load at success
  dsimp only at success
  -- An empty file is extended before its rows are counted.
  generalize extended : (if idx.mapped = 0 then 1000 * vectorRowSize idx.dim idx.encoding
    else idx.mapped) = mapped at success
  have grown : idx.mapped ≤ mapped := by
    rw [← extended]
    split <;> omega
  have fits : ids.length * vectorRowSize idx.dim idx.encoding ≤ mapped := by
    rw [same]
    exact sound.fits.trans grown
  have aligned : Aligned ⟨idx.dim, idx.encoding, ids.length, ids,
      idx.tombstones ++ List.replicate (ids.length - idx.tombstones.length) false,
      idx.generations ++ List.replicate (ids.length - idx.generations.length) 1, rowMap ids,
      mapped, idx.graphs⟩ := by
    refine ⟨rfl, ?_, ?_, rowMap_inverse distinct⟩
    · simp [sound.tombstones, same]
    · simp [sound.generations, same]
  split at success
  · cases success
  split at success
  · cases success
    refine ⟨aligned, fits, ?_⟩
    change Sharded ids.length idx.graphs
    rw [same]
    exact sound.sharded
  · cases success
    exact rebuildGraph_sound aligned fits

end VectorLayout

structure IndexState.Sound (state : IndexState) : Prop where
  live : state.live.Sound
  shadow : ∀ shadow, state.shadow = some shadow → shadow.Sound

/-- A migration is only completed with ids that stay distinct in the metadata file. -/
def IndexState.Legible (state : IndexState) : IndexEvent → Prop
  | .swapMigration _ => ∀ shadow, state.shadow = some shadow →
      (shadow.idList.map jsonText).Nodup
  | _ => True

theorem map_ok {α β : Type} {result : Except String α} {change : α → β} {after : β}
    (success : result.map change = .ok after) :
    ∃ before, result = .ok before ∧ change before = after := by
  cases result with
  | error message => cases success
  | ok before =>
    cases success
    exact ⟨before, rfl, rfl⟩

theorem IndexState.Sound.step {maxVectors : Nat} {state successor : IndexState}
    (sound : state.Sound) {event : IndexEvent} (legible : state.Legible event)
    (stepped : state.step maxVectors event = .ok successor) : successor.Sound := by
  cases event with
  | vAdd id vec =>
    obtain ⟨live, added, rfl⟩ := map_ok stepped
    exact ⟨sound.live.vAdd added, sound.shadow⟩
  | vAddBatch dim items =>
    obtain ⟨live, added, rfl⟩ := map_ok stepped
    exact ⟨sound.live.vAddBatch added, sound.shadow⟩
  | vDel id =>
    cases stepped
    exact ⟨sound.live.vDel id, sound.shadow⟩
  | vCompact =>
    cases stepped
    exact ⟨sound.live.vCompact, sound.shadow⟩
  | startMigration dim encoding =>
    simp only [IndexState.step] at stepped
    split at stepped
    · cases stepped
      exact sound
    cases stepped
    refine ⟨sound.live, fun shadow started => ?_⟩
    cases started
    exact VectorLayout.create_sound ..
  | insertShadowVector id vec =>
    simp only [IndexState.step] at stepped
    split at stepped
    · cases stepped
    rename_i shadow active
    obtain ⟨grown, added, rfl⟩ := map_ok stepped
    refine ⟨sound.live, fun after same => ?_⟩
    cases same
    exact (sound.shadow shadow active).insertShadow added
  | swapMigration edgesValid =>
    simp only [IndexState.step] at stepped
    split at stepped
    · cases stepped
      exact sound
    rename_i shadow active
    split at stepped
    · cases stepped
    obtain ⟨live, loaded, rfl⟩ := map_ok stepped
    have built := sound.shadow shadow active
    refine ⟨built.load (legible shadow active) ?_ loaded, fun after none => by cases none⟩
    rw [List.length_map]
    exact built.ids
  | cancelMigration =>
    cases stepped
    exact ⟨sound.live, fun shadow none => by cases none⟩

/-- In every state of an index, the lists have as many entries as there are rows,
ids and rows belong to each other, the rows lie within the file and every row has a
node in its shard and no other node is there. -/
theorem index_representation {maxVectors dim capacity : Nat} {encoding : VectorEncoding}
    {state : IndexState} (reached : Reaches (IndexState.step maxVectors) IndexState.Legible
      ⟨.create dim capacity encoding, none⟩ state) :
    state.live.Sound := by
  have sound : state.Sound := by
    refine reached.invariant ⟨VectorLayout.create_sound .., fun shadow none => by cases none⟩
      fun state event successor sound legible stepped => sound.step legible stepped
  exact sound.live

/-- Two ids that are no text are one in the metadata file, and the promoted index has
two rows for it. -/
theorem promoted_ids_collide :
    ∃ state, Reaches (IndexState.step 0) (fun _ _ => True) ⟨.create 1 1000 .float32, none⟩ state ∧
      ¬ state.live.Sound := by
  refine ⟨_, .next (.swapMigration true) (.next (.insertShadowVector [0xFE] [0])
    (.next (.insertShadowVector [0xFF] [0]) (.next (.startMigration 1 .float32) .start trivial rfl)
      trivial rfl) trivial rfl) trivial rfl, fun sound => ?_⟩
  have distinct := sound.toAligned.nodup
  change [jsonText [0xFF], jsonText [0xFE]].Nodup at distinct
  simp [jsonText, runeLength] at distinct

/-- A row that is written, deleted and compacted away, and a migration that is
completed. -/
theorem promoted_row_represented :
    ∃ state : IndexState, state.live.count = 1 ∧ state.live.Sound := by
  have added : Reaches (IndexState.step 0) IndexState.Legible
      ⟨.create 1 1000 .float32, none⟩ _ := .next (.vAdd [0x62] [0]) .start trivial rfl
  have deleted := added.next (IndexEvent.vDel [0x62]) trivial rfl
  have compacted := deleted.next IndexEvent.vCompact trivial rfl
  have started := compacted.next (IndexEvent.startMigration 1 .sq8) trivial rfl
  have inserted := started.next (IndexEvent.insertShadowVector [0x61] [0]) trivial rfl
  have promoted := inserted.next (IndexEvent.swapMigration true) (fun shadow active => by
    cases active
    exact List.nodup_singleton _) rfl
  exact ⟨_, rfl, index_representation promoted⟩

end Dbx.Engine
