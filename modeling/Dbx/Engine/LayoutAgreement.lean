import Dbx.Engine.LayoutProperties

/-!
# The rows of an open index are those of its layout

The model of the store keeps one list of rows for each open index. Here the
operations on that list and those on the parallel structures are compared.
-/

set_option autoImplicit false

namespace Dbx.Engine

structure Represents (layout : VectorLayout) (idx : MMapIndex) : Prop where
  dim : layout.dim = idx.dim
  encoding : layout.encoding = idx.encoding
  ids : layout.idList = idx.rows.map Row.id
  tombstones : layout.tombstones = idx.rows.map Row.tombstone
  generations : layout.generations = idx.rows.map Row.generation

theorem rowOf?_eq (idx : MMapIndex) (id : Bytes) :
    idx.rowOf? id = (VectorLayout.rowMap (idx.rows.map Row.id)).lookup id := by
  obtain ⟨path, dim, encoding, rows, metaDirty, lastMeta⟩ := idx
  unfold MMapIndex.rowOf?
  dsimp only
  induction rows using List.reverseRecOn with
  | nil => rfl
  | append_singleton rows last ih =>
    rw [List.map_append, List.map_singleton, VectorLayout.rowMap_snoc, List.zipIdx_append,
      List.filter_append, List.getLast?_append]
    by_cases same : last.id = id
    · subst same
      simp
    · rw [AList.lookup_insert_ne (Ne.symm same), ← ih]
      simp [same]

namespace Represents

variable {layout : VectorLayout} {idx : MMapIndex}

section

variable {id : Bytes} (represents : Represents layout idx)
include represents

theorem count (aligned : layout.Aligned) : layout.count = idx.count := by
  rw [← aligned.ids, represents.ids, List.length_map]
  rfl

theorem rowOf? (aligned : layout.Aligned) (id : Bytes) :
    layout.idMap.lookup id = idx.rowOf? id := by
  rw [rowOf?_eq, ← represents.ids]
  refine Option.ext fun row => ?_
  rw [aligned.inverse, VectorLayout.rowMap_inverse aligned.nodup]

theorem row (aligned : layout.Aligned) {row : Nat} (found : layout.idMap.lookup id = some row) :
    ∃ tombstone generation, idx.rows[row]? = some ⟨id, tombstone, generation⟩ := by
  have named := (aligned.inverse id row).mp found
  rw [represents.ids, List.getElem?_map, Option.map_eq_some_iff] at named
  obtain ⟨⟨_, tombstone, generation⟩, held, rfl⟩ := named
  exact ⟨tombstone, generation, held⟩

theorem set {row : Nat} {tombstone : Bool} {generation : UInt64}
    (held : idx.rows[row]? = some ⟨id, tombstone, generation⟩) (mark : Bool) :
    layout.idList = (idx.rows.set row ⟨id, mark, generation + 1⟩).map Row.id ∧
    layout.tombstones.set row mark =
      (idx.rows.set row ⟨id, mark, generation + 1⟩).map Row.tombstone ∧
    layout.generations.modify row (· + 1) =
      (idx.rows.set row ⟨id, mark, generation + 1⟩).map Row.generation := by
  obtain ⟨bound, held⟩ := List.getElem?_eq_some_iff.mp held
  refine ⟨?_, ?_, ?_⟩
  · rw [represents.ids, List.map_set]
    refine List.ext_getElem? fun position => ?_
    rw [List.getElem?_set]
    split
    · rename_i same
      subst same
      simp [bound, held]
    · rfl
  · rw [represents.tombstones, List.map_set]
  · rw [represents.generations, List.map_set]
    refine List.ext_getElem? fun position => ?_
    rw [List.getElem?_set, List.getElem?_modify]
    split
    · rename_i same
      subst same
      simp [bound, held]
    · simp

theorem snoc (id : Bytes) :
    layout.idList ++ [id] = (idx.rows ++ [(⟨id, false, 1⟩ : Row)]).map Row.id ∧
    layout.tombstones ++ [false] = (idx.rows ++ [(⟨id, false, 1⟩ : Row)]).map Row.tombstone ∧
    layout.generations ++ [1] = (idx.rows ++ [(⟨id, false, 1⟩ : Row)]).map Row.generation := by
  simp only [List.map_append, List.map_singleton, represents.ids, represents.tombstones,
    represents.generations, and_self]

theorem upsert (aligned : layout.Aligned) (id : Bytes) :
    Represents (layout.upsert id).2 (idx.upsert id).2 := by
  unfold VectorLayout.upsert MMapIndex.upsert
  rw [← represents.rowOf? aligned]
  cases found : layout.idMap.lookup id with
  | none =>
    obtain ⟨ids, tombstones, generations⟩ := represents.snoc id
    exact ⟨represents.dim, represents.encoding, ids, tombstones, generations⟩
  | some row =>
    obtain ⟨tombstone, generation, held⟩ := represents.row aligned found
    have marked : layout.tombstones[row]? = some tombstone := by
      rw [represents.tombstones, List.getElem?_map, held]
      rfl
    cases tombstone with
    | true =>
      obtain ⟨ids, tombstones, generations⟩ := represents.set held false
      simp only [held, marked, if_true]
      exact ⟨represents.dim, represents.encoding, ids, tombstones, generations⟩
    | false =>
      simp only [held, marked, Option.some.injEq, Bool.false_eq_true, if_false]
      exact represents

theorem upsertAll (aligned : layout.Aligned) (items : List (Bytes × Vec)) (disk : Disk) :
    Represents (layout.upsertAll (items.map Prod.fst)).2 (idx.addItems items disk).1 := by
  induction items using List.reverseRecOn with
  | nil => exact represents
  | append_singleton items item ih =>
    have before := (VectorLayout.upsertAll_batched aligned (items.map Prod.fst)).toAligned
    have next := ih.upsert before item.1
    rw [List.map_append, List.map_singleton, VectorLayout.upsertAll_snoc]
    unfold MMapIndex.addItems at next ⊢
    rw [List.foldl_append, List.foldl_cons, List.foldl_nil]
    unfold MMapIndex.addItem
    generalize VectorLayout.upsert item.1 _ = result at next ⊢
    obtain ⟨_ | row, after⟩ := result
    · exact next
    · exact next

theorem vDel (aligned : layout.Aligned) (id : Bytes) :
    match idx.rowOf? id with
    | none => Represents (layout.vDel id) idx
    | some row =>
      match idx.rows[row]? with
      | some ⟨_, false, generation⟩ =>
        Represents (layout.vDel id)
          { idx with rows := idx.rows.set row ⟨id, true, generation + 1⟩ }
      | _ => Represents (layout.vDel id) idx := by
  unfold VectorLayout.vDel
  rw [← represents.rowOf? aligned]
  cases found : layout.idMap.lookup id with
  | none => exact represents
  | some row =>
    obtain ⟨tombstone, generation, held⟩ := represents.row aligned found
    have marked : layout.tombstones[row]? = some tombstone := by
      rw [represents.tombstones, List.getElem?_map, held]
      rfl
    cases tombstone with
    | false =>
      obtain ⟨ids, tombstones, generations⟩ := represents.set held true
      simp only [held, marked, if_true]
      exact ⟨represents.dim, represents.encoding, ids, tombstones, generations⟩
    | true =>
      simp only [held, marked, Option.some.injEq, Bool.true_eq_false, if_false]
      exact represents

end

theorem compacted_rows (idx : MMapIndex) :
    idx.compacted.rows = idx.rows.filter fun row => !row.tombstone := by
  change (idx.rows.zipIdx.filter _).map Prod.fst = _
  have firsts := List.filter_map (f := Prod.fst) (p := fun row : Row => !row.tombstone)
    (l := idx.rows.zipIdx)
  rw [List.zipIdx_map_fst] at firsts
  exact firsts.symm

theorem active (represents : Represents layout idx) :
    layout.active = idx.compacted.rows.map fun row => (row.id, row.generation) := by
  unfold VectorLayout.active
  rw [represents.ids, represents.tombstones, represents.generations, List.zip_map', List.zip_map',
    List.filter_map, List.map_map, compacted_rows]
  rfl

theorem vCompact (represents : Represents layout idx) :
    Represents layout.vCompact idx.compacted := by
  have kept := represents.active
  unfold VectorLayout.vCompact
  split
  · rename_i unmarked
    have same : idx.compacted = idx := by
      have rows : idx.compacted.rows = idx.rows := by
        rw [compacted_rows, List.filter_eq_self]
        rw [represents.tombstones, List.all_map, List.all_eq_true] at unmarked
        exact unmarked
      calc idx.compacted = { idx with rows := idx.compacted.rows } := rfl
        _ = idx := by rw [rows]
    rw [same]
    exact represents
  · refine ⟨represents.dim, represents.encoding, ?_, ?_, ?_⟩
    · change layout.active.map Prod.fst = _
      rw [kept, List.map_map]
      rfl
    · change List.replicate (layout.active.map Prod.fst).length false = _
      rw [kept, compacted_rows]
      refine (List.eq_replicate_iff.mpr ⟨by simp, ?_⟩).symm
      intro mark member
      obtain ⟨row, kept, rfl⟩ := List.mem_map.mp member
      simpa using (List.mem_filter.mp kept).2
    · change layout.active.map Prod.snd = _
      rw [kept, List.map_map]
      rfl

theorem writeMetadata (represents : Represents layout idx) (now : Int64) (durable : Bool)
    (disk : Disk) : Represents layout (idx.writeMetadata now durable disk).1 := by
  have same : (idx.writeMetadata now durable disk).1 = idx ∨
      (idx.writeMetadata now durable disk).1 =
        { idx with metaDirty := 0, lastMeta := some now } := by
    unfold MMapIndex.writeMetadata
    dsimp only
    split_ifs
    · exact Or.inl rfl
    · exact Or.inr rfl
  rcases same with same | same
  · rw [same]
    exact represents
  rw [same]
  exact ⟨represents.dim, represents.encoding, represents.ids, represents.tombstones,
    represents.generations⟩

end Represents

end Dbx.Engine
