import Dbx.Engine.LayoutAgreement
import Dbx.Engine.VectorAdmission

/-!
# An open index and its layout

The operations of the vector store on the rows of an index that is open, and the same operations
on the parallel structures of its layout.
-/

set_option autoImplicit false

namespace Dbx.Engine

open Runs

inductive RowEvent where
  | vAdd (id : Bytes) (vec : Vec)
  | vAddBatch (dim : Nat) (items : List (Bytes × Vec))
  | vDel (id : Bytes)
  | vCompact

namespace RowEvent

def onStore (config : VectorConfig) (key : Bytes) (now : Int64) :
    RowEvent → Store → Except String Unit × Store
  | vAdd id vec, store => store.vAdd config now key id vec
  | vAddBatch dim items, store => store.vAddBatch config now key dim items
  | vDel id, store => (store.vDel config now key id).map (Except.map fun _ => ()) fun after => after
  | vCompact, store =>
    (store.vCompact config now key).map (Except.map fun _ => ()) fun after => after

def onLayout (maxVectors : Nat) : RowEvent → VectorLayout → Except String VectorLayout
  | vAdd id vec, layout => layout.vAdd maxVectors id vec
  | vAddBatch dim items, layout => layout.vAddBatch maxVectors dim items
  | vDel id, layout => .ok (layout.vDel id)
  | vCompact, layout => .ok layout.vCompact

/-- An operation that is refused changes nothing. -/
def attempt (maxVectors : Nat) (event : RowEvent) (layout : VectorLayout) :
    Except String Unit × VectorLayout :=
  match event.onLayout maxVectors layout with
  | .error message => (.error message, layout)
  | .ok after => (.ok (), after)

end RowEvent

/-- The key holds an index with the rows of the layout, at the given times. -/
def Shows (times : Set Int64) (key : Bytes) (layout : VectorLayout) (store : Store) : Prop :=
  ∃ idx, (∀ now ∈ times, store.HoldsIndex now key idx) ∧ Represents layout idx.toMMapIndex

def Follows (times : Set Int64) (key : Bytes) (store : Store)
    (result : Except String Unit × Store) : Except String VectorLayout → Prop
  | .error message => result = (.error message, store)
  | .ok after => result.1 = .ok () ∧ Shows times key after result.2

/-- Neither the size of the file nor the graphs show in the rows. -/
theorem Represents.resized {layout : VectorLayout} {base : MMapIndex}
    (represents : Represents layout base) (mapped : Nat) (graphs : List HNSWGraph) :
    Represents { layout with mapped := mapped, graphs := graphs } base := { represents with }

theorem Represents.ensureCapacity {layout : VectorLayout} {base : MMapIndex}
    (represents : Represents layout base) (bytes : Nat) :
    Represents (layout.ensureCapacity bytes) base := by
  rw [VectorLayout.ensureCapacity_eq]
  exact represents.resized ..

section Steps

variable {config : VectorConfig} {times : Set Int64} {key : Bytes} {layout : VectorLayout}
  {store : Store} {idx : MMapVectorIndex} (holds : ∀ now ∈ times, store.HoldsIndex now key idx)

include holds

theorem shows_putIndex {base : MMapIndex} (represents : Represents layout base) (disk : Disk) :
    Shows times key layout
      ({ store with disk := disk }.putIndex key { idx with toMMapIndex := base }) :=
  ⟨_, fun now current => (holds now current).putIndex _ disk, represents⟩

variable (represents : Represents layout idx.toMMapIndex) {now : Int64} (current : now ∈ times)
include represents current

theorem follows_vAdd (aligned : layout.Aligned) (id : Bytes) (vec : Vec) :
    Follows times key store (store.vAdd config now key id vec)
      (layout.vAdd config.maxVectors id vec) := by
  simp only [Store.vAdd, VectorLayout.vAdd, Store.getOrCreate_holds config _ (holds now current),
    represents.dim, represents.count aligned, represents.rowOf? aligned]
  generalize (if (idx.rowOf? id).isSome = true then idx.count else idx.count + 1) * _ = bytes
  generalize (if (idx.rowOf? id).isNone = true then 1 else 0) = additions
  cases validateVector id vec with
  | error message => rfl
  | ok =>
    split_ifs
    · rfl
    · rfl
    have grown := (represents.ensureCapacity bytes).upsert (aligned.ensureCapacity bytes) id
    rcases added : (layout.ensureCapacity bytes).upsert id with ⟨_ | row, after⟩
    all_goals
      rw [added] at grown
      exact ⟨rfl, shows_putIndex holds ((grown.resized ..).writeMetadata ..) _⟩

theorem follows_vAddBatch (aligned : layout.Aligned) (dim : Nat) (items : List (Bytes × Vec)) :
    Follows times key store (store.vAddBatch config now key dim items)
      (layout.vAddBatch config.maxVectors dim items) := by
  have fresh : ((items.map Prod.fst).filter fun id => (layout.idMap.lookup id).isNone).dedup =
      Store.newIDs (some idx) (items.map Prod.fst) := by
    simp only [represents.rowOf? aligned]
    rfl
  simp only [Store.vAddBatch, VectorLayout.vAddBatch, fresh, represents.dim,
    represents.count aligned, Store.getOrCreate_holds config _ (holds now current)]
  generalize (Store.newIDs (some idx) (items.map Prod.fst)).length = additions
  generalize (idx.count + additions) * layout.rowBytes = bytes
  have grown := (represents.ensureCapacity bytes).upsertAll (aligned.ensureCapacity bytes) items
    (idx.ensureCapacity ((idx.count + additions) * idx.rowBytes) store.disk)
  split_ifs
  · exact ⟨rfl, idx, holds, represents⟩
  · rfl
  · rfl
  all_goals cases Store.validateItems dim items
  iterate 5 · rfl
  exact ⟨rfl, shows_putIndex holds ((grown.resized ..).writeMetadata ..) _⟩

theorem follows_vDel (aligned : layout.Aligned) (id : Bytes) :
    Follows times key store (RowEvent.onStore config key now (.vDel id) store)
      (.ok (layout.vDel id)) := by
  have deleted := represents.vDel aligned id
  simp only [RowEvent.onStore, Store.vDel, Store.getReadOnly_holds config (holds now current)]
  cases found : idx.rowOf? id with
  | none =>
    simp only [found] at deleted ⊢
    exact ⟨rfl, idx, holds, deleted⟩
  | some row =>
    rcases held : idx.rows[row]? with _ | ⟨name, _ | _, generation⟩
    all_goals simp only [found, held] at deleted ⊢
    · exact ⟨rfl, idx, holds, deleted⟩
    · exact ⟨rfl, shows_putIndex holds (deleted.writeMetadata ..) _⟩
    · exact ⟨rfl, idx, holds, deleted⟩

theorem follows_vCompact :
    Follows times key store (RowEvent.onStore config key now .vCompact store)
      (.ok layout.vCompact) := by
  have compacted := represents.vCompact
  simp only [RowEvent.onStore, Store.vCompact, Store.getReadOnly_holds config (holds now current)]
  split_ifs with clean
  · have same : idx.compacted.rows = idx.rows := by
      rw [Represents.compacted_rows, List.filter_eq_self]
      simpa [List.filter_eq_nil_iff] using clean
    exact ⟨rfl, idx, holds, { compacted with
      ids := same ▸ compacted.ids
      tombstones := same ▸ compacted.tombstones
      generations := same ▸ compacted.generations }⟩
  · exact ⟨rfl, shows_putIndex holds (compacted.writeMetadata ..) _⟩

end Steps

theorem RowEvent.onLayout_sound {maxVectors : Nat} {event : RowEvent} {layout after : VectorLayout}
    (sound : layout.Sound) (stepped : event.onLayout maxVectors layout = .ok after) :
    after.Sound := by
  cases event with
  | vAdd id vec => exact sound.vAdd stepped
  | vAddBatch dim items => exact sound.vAddBatch stepped
  | vDel id =>
    cases stepped
    exact sound.vDel id
  | vCompact =>
    cases stepped
    exact sound.vCompact

def oneIndex : Store where
  kv := KVStore.new.put [] ⟨.index ⟨⟨.live [], 1, .float32, [], 0, none⟩, none⟩, .vector, 0, 0⟩
  disk _ := .absent

def rowRun : List (Int64 × RowEvent) := [(0, .vAdd [0x61] [0]), (1, .vDel [0x61]), (2, .vCompact)]

end Dbx.Engine
