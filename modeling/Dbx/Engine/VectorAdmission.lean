import Dbx.Engine.VectorLocality
import Mathlib.Tactic.Linarith

/-!
# Admission of vectors

What an admitted addition makes of the memory and of the number of vectors of a
tenant, computed from the state it starts in.
-/

set_option autoImplicit false

namespace Dbx.Engine

open Confinement KeyedStore

/-!
## Rows and files
-/

namespace MMapIndex

variable {idx : MMapIndex}

theorem rowOf?_isNone (idx : MMapIndex) (id : Bytes) :
    (idx.rowOf? id).isNone = true ↔ id ∉ idx.rows.map Row.id := by
  unfold rowOf?
  rw [Option.isNone_map, Option.isNone_iff_eq_none, List.getLast?_eq_none_iff,
    List.filter_eq_nil_iff]
  constructor
  · intro none member
    obtain ⟨row, held, rfl⟩ := List.mem_map.mp member
    obtain ⟨position, found⟩ := List.mem_iff_getElem?.mp held
    exact none (row, position) (List.mem_zipIdx_iff_getElem?.mpr found) (by simp)
  · intro unknown entry member
    simp only [decide_eq_true_eq]
    intro same
    exact unknown (List.mem_map.mpr ⟨entry.1, List.fst_mem_of_mem_zipIdx member, same⟩)

theorem row_of_rowOf? {id : Bytes} {row : Nat} (found : idx.rowOf? id = some row) :
    ∃ held, idx.rows[row]? = some held ∧ held.id = id := by
  unfold rowOf? at found
  obtain ⟨⟨held, position⟩, last, rfl⟩ := Option.map_eq_some_iff.mp found
  obtain ⟨member, same⟩ := List.mem_filter.mp (List.mem_of_getLast? last)
  exact ⟨held, List.mem_zipIdx_iff_getElem?.mp member, of_decide_eq_true same⟩

theorem upsert_ids (idx : MMapIndex) (id : Bytes) :
    (idx.upsert id).2.rows.map Row.id =
      if id ∈ idx.rows.map Row.id then idx.rows.map Row.id else idx.rows.map Row.id ++ [id] := by
  unfold upsert
  cases found : idx.rowOf? id with
  | none =>
    have unknown := (idx.rowOf?_isNone id).mp (by rw [found]; rfl)
    rw [if_neg unknown, List.map_append, List.map_singleton]
  | some row =>
    obtain ⟨held, present, same⟩ := row_of_rowOf? found
    have known : id ∈ idx.rows.map Row.id :=
      List.mem_map.mpr ⟨held, List.mem_of_getElem? present, same⟩
    obtain ⟨name, tombstone, generation⟩ := held
    subst same
    rw [if_pos known]
    simp only [present]
    cases tombstone with
    | false => rfl
    | true =>
      simp only
      rw [List.map_set]
      refine List.ext_getElem? fun position => ?_
      rw [List.getElem?_set]
      split
      · rename_i here
        subst here
        obtain ⟨bound, equal⟩ := List.getElem?_eq_some_iff.mp present
        simp [bound, equal]
      · rfl

theorem upsert_shape (idx : MMapIndex) (id : Bytes) :
    (idx.upsert id).2.dim = idx.dim ∧ (idx.upsert id).2.encoding = idx.encoding := by
  unfold upsert
  split
  · exact ⟨rfl, rfl⟩
  · split <;> exact ⟨rfl, rfl⟩

theorem upsert_row (idx : MMapIndex) (id : Bytes) :
    (idx.upsert id).1 < (idx.upsert id).2.count := by
  unfold upsert
  cases found : idx.rowOf? id with
  | none => simp [count]
  | some row =>
    obtain ⟨held, present, -⟩ := row_of_rowOf? found
    obtain ⟨bound, -⟩ := List.getElem?_eq_some_iff.mp present
    dsimp only
    split
    · simpa [count] using bound
    · exact bound

def unknownIDs (known ids : List Bytes) : List Bytes :=
  (ids.filter fun id => id ∉ known).dedup

theorem unknownIDs_cons_known {known ids : List Bytes} {id : Bytes} (member : id ∈ known) :
    unknownIDs known (id :: ids) = unknownIDs known ids := by
  simp [unknownIDs, member]

theorem unknownIDs_cons_unknown {known ids fresh : List Bytes} {id : Bytes} (unknown : id ∉ known)
    (rest : fresh.Perm (unknownIDs (known ++ [id]) ids)) :
    (id :: fresh).Perm (unknownIDs known (id :: ids)) := by
  have distinct : (id :: fresh).Nodup := by
    rw [List.nodup_cons, rest.mem_iff, rest.nodup_iff]
    exact ⟨by simp [unknownIDs], List.nodup_dedup _⟩
  refine (List.perm_ext_iff_of_nodup distinct (List.nodup_dedup _)).mpr fun other => ?_
  rw [List.mem_cons, rest.mem_iff]
  by_cases same : other = id
  · simp [same, unknownIDs, unknown]
  · simp [same, unknownIDs]

theorem addItems_ids (items : List (Bytes × Vec)) (idx : MMapIndex) (disk : Disk) :
    ∃ fresh, (idx.addItems items disk).1.rows.map Row.id = idx.rows.map Row.id ++ fresh ∧
      fresh.Perm (unknownIDs (idx.rows.map Row.id) (items.map Prod.fst)) := by
  induction items generalizing idx disk with
  | nil => exact ⟨[], (List.append_nil _).symm, List.Perm.refl _⟩
  | cons item items ih =>
    obtain ⟨fresh, names, listed⟩ := ih (idx.upsert item.1).2 (idx.addItem item disk).2
    rw [upsert_ids] at names listed
    by_cases known : item.1 ∈ idx.rows.map Row.id
    · rw [if_pos known] at names listed
      refine ⟨fresh, names, ?_⟩
      rw [List.map_cons, unknownIDs_cons_known known]
      exact listed
    · rw [if_neg known] at names listed
      refine ⟨item.1 :: fresh, ?_, ?_⟩
      · rw [List.append_cons]
        exact names
      · rw [List.map_cons]
        exact unknownIDs_cons_unknown known listed

theorem count_le_addItems (items : List (Bytes × Vec)) (idx : MMapIndex) (disk : Disk) :
    idx.count ≤ (idx.addItems items disk).1.count := by
  obtain ⟨fresh, names, -⟩ := idx.addItems_ids items disk
  have lengths := congrArg List.length names
  simp only [List.length_append, List.length_map] at lengths
  unfold count
  omega

end MMapIndex

theorem encodeRow_length (encoding : VectorEncoding) (vec : Vec) :
    (encodeRow encoding vec).length = vectorRowSize vec.length encoding := by
  cases encoding with
  | sq8 =>
    simp only [encodeRow, writeQuantized, List.length_append, List.length_map, littleEndian,
      List.length_cons, List.length_nil, vectorRowSize]
  | float32 =>
    simp only [encodeRow, writeFloat32Row, List.length_append, List.length_flatMap, littleEndian,
      List.length_cons, List.length_nil, vectorRowSize, List.map_const', List.sum_replicate]
    rfl

theorem writeRow_length {rowSize row : Nat} {data file : Bytes} (whole : data.length = rowSize)
    (fits : (row + 1) * rowSize ≤ file.length) :
    (writeRow rowSize row data file).length = file.length := by
  rw [Nat.succ_mul] at fits
  simp only [writeRow, List.length_append, List.length_take, List.length_drop, whole]
  omega

namespace MMapIndex

theorem mmap_setMmap (idx : MMapIndex) (file : Bytes) (disk : Disk) :
    idx.mmap (idx.setMmap file disk) = file := by
  rw [mmap, setMmap, Disk.set_same]
  rfl

theorem writeMetadata_rows (now : Int64) (durable : Bool) (idx : MMapIndex) (disk : Disk) :
    (idx.writeMetadata now durable disk).1.rows = idx.rows := by
  dsimp only [writeMetadata]
  split_ifs <;> rfl

theorem mmap_writeMetadata (now : Int64) (durable : Bool) (idx : MMapIndex) (disk : Disk) :
    (idx.writeMetadata now durable disk).1.mmap (idx.writeMetadata now durable disk).2 =
      idx.mmap disk := by
  unfold mmap
  rw [writeMetadata_path]
  dsimp only [writeMetadata]
  split_ifs
  · rfl
  · dsimp only
    rw [Disk.set_same]

theorem storeRow_length {idx : MMapIndex} {row : Nat} {vec : Vec} {disk : Disk}
    (same : vec.length = idx.dim) (fits : (row + 1) * idx.rowBytes ≤ (idx.mmap disk).length) :
    (idx.mmap (idx.storeRow row vec disk)).length = (idx.mmap disk).length := by
  have whole : (encodeRow idx.encoding vec).length = idx.rowBytes := by
    rw [encodeRow_length, same]
    rfl
  rw [storeRow, mmap_setMmap]
  exact writeRow_length whole fits

theorem addItems_length (items : List (Bytes × Vec)) (idx : MMapIndex) (disk : Disk)
    (dims : ∀ item ∈ items, item.2.length = idx.dim)
    (fits : (idx.addItems items disk).1.count * idx.rowBytes ≤ (idx.mmap disk).length) :
    (idx.mmap (idx.addItems items disk).2).length = (idx.mmap disk).length := by
  induction items generalizing idx disk with
  | nil => rfl
  | cons item items ih =>
    let next := (idx.upsert item.1).2
    have path : next.path = idx.path := idx.upsert_path item.1
    obtain ⟨dim, encoding⟩ := idx.upsert_shape item.1
    have size : next.rowBytes = idx.rowBytes := by
      unfold rowBytes
      rw [dim, encoding]
    have file (disk : Disk) : next.mmap disk = idx.mmap disk := by
      unfold mmap
      rw [path]
    have stored : (idx.mmap (idx.addItem item disk).2).length = (idx.mmap disk).length := by
      have row := idx.upsert_row item.1
      have later := next.count_le_addItems items (idx.addItem item disk).2
      have within : ((idx.upsert item.1).1 + 1) * next.rowBytes ≤ (next.mmap disk).length := by
        rw [file, size]
        exact (Nat.mul_le_mul_right _ (row.trans_le later)).trans fits
      have same : item.2.length = next.dim := (dims item List.mem_cons_self).trans dim.symm
      have kept := storeRow_length same within
      rw [file, file] at kept
      exact kept
    have rest := ih next (idx.addItem item disk).2
      (fun other member => (dims other (List.mem_cons_of_mem _ member)).trans dim.symm)
      (by rw [size, file, stored]; exact fits)
    rw [file, file, stored] at rest
    exact rest

end MMapIndex

def grownSize (size neededBytes : Nat) : Nat :=
  if neededBytes ≤ size then size else if size * 2 < neededBytes then neededBytes else size * 2

theorem le_grownSize (size neededBytes : Nat) : neededBytes ≤ grownSize size neededBytes := by
  unfold grownSize
  split_ifs <;> omega

theorem MMapIndex.ensureCapacity_length (idx : MMapIndex) (neededBytes : Nat) (disk : Disk) :
    (idx.mmap (idx.ensureCapacity neededBytes disk)).length =
      grownSize (idx.mmap disk).length neededBytes := by
  unfold MMapIndex.ensureCapacity grownSize
  dsimp only
  by_cases fits : neededBytes ≤ (idx.mmap disk).length
  · rw [if_pos fits, if_pos fits]
  rw [if_neg fits, if_neg fits]
  rw [MMapIndex.mmap_setMmap, List.length_append, List.length_replicate]
  split <;> omega

/-!
## Charges
-/

namespace Store

def tenantVectors (store : Store) : Nat :=
  (store.openIndexes.map fun (_, idx) => idx.count).sum

def without (key : Bytes) (store : Store) : Store :=
  { store with kv := store.kv.erase key }

/-- The bytes of a file, its ids and the estimate for its graph. -/
def indexMemory (size : Nat) (ids : List Bytes) : Nat :=
  size + (ids.map fun id => id.length + 160).sum

def indexCharge (disk : Disk) (entry : Entry MMapVectorIndex) : Int :=
  match entry.type, entry.value with
  | .vector, .index idx =>
    (indexMemory (idx.mmap disk).length (idx.rows.map Row.id) : Nat)
  | _, _ => 0

def keyCharge (now : Int64) (key : Bytes) (entry : Entry MMapVectorIndex) : Int :=
  if entry.isExpired now then 0
  else ((key.length + 96 : Nat) : Int) +
    if entry.type = .string then (entry.value.length : Int) else 0

def rowCharge (entry : Entry MMapVectorIndex) : Int :=
  match entry.type, entry.value with
  | .vector, .index idx => idx.count
  | _, _ => 0

theorem indexMemory_eq (idx : MMapIndex) (size : Nat) :
    (size : Int) + (idx.rows.map fun row => ((row.id.length + 32 : Nat) : Int)).sum +
        ((idx.count * 16 * 8 : Nat) : Int) =
      (indexMemory size (idx.rows.map Row.id) : Nat) := by
  unfold indexMemory MMapIndex.count
  induction idx.rows with
  | nil => simp
  | cons row rows ih =>
    simp only [List.map_cons, List.sum_cons, List.length_cons] at ih ⊢
    push_cast at ih ⊢
    linarith

theorem vectorMemoryUsage_eq (store : Store) :
    store.vectorMemoryUsage = total (fun _ => indexCharge store.disk) store.kv.data := by
  unfold vectorMemoryUsage total
  congr 1
  refine List.map_congr_left fun entry _ => ?_
  obtain ⟨key, value, type, expireAt, version⟩ := entry
  cases type <;> cases value <;> first | rfl | exact indexMemory_eq _ _

theorem kvMemoryUsage_eq (now : Int64) (kv : KVStore MMapVectorIndex) :
    kv.memoryUsage now = total (keyCharge now) kv.data + (kv.expiries.length : Int) * 48 := by
  have filtered := total_filter (fun key entry => ((List.length key + 96 : Nat) : Int) +
    if entry.type = .string then (entry.value.length : Int) else 0)
    (fun _ entry => !entry.isExpired now) kv.data
  have charges : (fun (key : Bytes) (entry : Entry MMapVectorIndex) =>
      if (!entry.isExpired now) = true then ((List.length key + 96 : Nat) : Int) +
        if entry.type = .string then (entry.value.length : Int) else 0 else 0) = keyCharge now := by
    funext key entry
    unfold keyCharge
    cases entry.isExpired now <;> rfl
  rw [charges] at filtered
  rw [← filtered]
  rfl

theorem tenantVectors_eq (store : Store) :
    (store.tenantVectors : Int) = total (fun _ => rowCharge) store.kv.data := by
  unfold tenantVectors openIndexes total
  induction store.kv.data.entries with
  | nil => rfl
  | cons entry entries ih =>
    obtain ⟨key, value, type, expireAt, version⟩ := entry
    rw [List.filterMap_cons, List.map_cons, List.sum_cons, ← ih]
    cases type <;> cases value <;> simp [rowCharge]

variable {config : VectorConfig} {now : Int64} {key : Bytes} {idx : MMapVectorIndex}
  {before after store : Store}

theorem memoryUsage_without (now : Int64) (key : Bytes) (store : Store) :
    store.memoryUsage now = (store.without key).memoryUsage now +
      (charged (keyCharge now) store.kv.data key +
        charged (fun _ => indexCharge store.disk) store.kv.data key) := by
  unfold memoryUsage
  rw [vectorMemoryUsage_eq, vectorMemoryUsage_eq, kvMemoryUsage_eq, kvMemoryUsage_eq,
    total_erase (keyCharge now) _ key, total_erase (fun _ => indexCharge store.disk) _ key]
  change _ = total (keyCharge now) (store.kv.data.erase key) + store.kv.expiries.length * 48 +
    total (fun _ => indexCharge store.disk) (store.kv.data.erase key) + _
  omega

theorem tenantVectors_without (key : Bytes) (store : Store) :
    (store.tenantVectors : Int) = (store.without key).tenantVectors +
      charged (fun _ => rowCharge) store.kv.data key := by
  rw [tenantVectors_eq, tenantVectors_eq]
  exact total_erase ..

structure Elsewhere (config : VectorConfig) (key : Bytes) (before after : Store) : Prop where
  placedBefore : before.Placed config
  frame : Frame view (keyPlaces key) before after
  expiries : after.kv.expiries = before.kv.expiries

theorem Elsewhere.entry (elsewhere : Elsewhere config key before after) {other : Bytes}
    (different : other ≠ key) : after.kv.seen other = before.kv.seen other := by
  refine elsewhere.frame (.entry other) ?_
  rintro (same | same)
  · exact different (Location.entry.inj same)
  · cases same

theorem Elsewhere.files (elsewhere : Elsewhere config key before after) {other : Bytes}
    (different : other ≠ key) : after.disk (.live other) = before.disk (.live other) := by
  refine elsewhere.frame (.files (.live other)) ?_
  rintro (same | same)
  · cases same
  · exact different (IndexPath.live.inj (Location.files.inj same))

theorem charged_seen {charge : Bytes → Entry MMapVectorIndex → Int}
    (unversioned : ∀ key entry, charge key entry.unversioned = charge key entry) (key : Bytes)
    (kv : KVStore MMapVectorIndex) :
    charged charge kv.data key = (kv.seen key).elim 0 (charge key) := by
  unfold charged KVStore.seen
  cases kv.data.lookup key with
  | none => rfl
  | some entry => exact (unversioned key entry).symm

theorem Elsewhere.indexCharge (elsewhere : Elsewhere config key before after) {other : Bytes}
    (different : other ≠ key) :
    charged (fun _ => Store.indexCharge after.disk) after.kv.data other =
      charged (fun _ => Store.indexCharge before.disk) before.kv.data other := by
  rw [charged_seen fun _ _ => rfl, charged_seen fun _ _ => rfl, elsewhere.entry different]
  unfold KVStore.seen
  cases found : before.kv.data.lookup other with
  | none => rfl
  | some entry =>
    have sited := elsewhere.placedBefore other entry
    obtain ⟨value, type, expireAt, version⟩ := entry
    cases type <;> cases value <;> try rfl
    rename_i idx
    have path : idx.path = .live other := (sited idx found rfl rfl).live
    simp only [Option.map_some, Option.elim_some, Entry.unversioned, Store.indexCharge,
      MMapIndex.mmap]
    rw [path, elsewhere.files different]

theorem Elsewhere.memoryUsage (elsewhere : Elsewhere config key before after) (now : Int64) :
    (after.without key).memoryUsage now = (before.without key).memoryUsage now := by
  have keys : total (keyCharge now) (after.without key).kv.data =
      total (keyCharge now) (before.without key).kv.data := by
    refine total_congr fun other => ?_
    rw [without, without, KVStore.erase, KVStore.erase, charged_erase, charged_erase]
    split
    · rfl
    · rename_i different
      rw [charged_seen fun _ _ => rfl, charged_seen fun _ _ => rfl, elsewhere.entry different]
  have indexes : total (fun _ => Store.indexCharge (after.without key).disk)
      (after.without key).kv.data =
      total (fun _ => Store.indexCharge (before.without key).disk)
        (before.without key).kv.data := by
    refine total_congr fun other => ?_
    rw [without, without, KVStore.erase, KVStore.erase, charged_erase, charged_erase]
    split
    · rfl
    · exact elsewhere.indexCharge ‹_›
  have deadlines : (after.without key).kv.expiries = (before.without key).kv.expiries :=
    elsewhere.expiries
  unfold Store.memoryUsage
  rw [vectorMemoryUsage_eq, vectorMemoryUsage_eq, kvMemoryUsage_eq, kvMemoryUsage_eq, keys,
    indexes, deadlines]

theorem Elsewhere.tenantVectors (elsewhere : Elsewhere config key before after) :
    (after.without key).tenantVectors = (before.without key).tenantVectors := by
  have rows : total (fun _ => rowCharge) (after.without key).kv.data =
      total (fun _ => rowCharge) (before.without key).kv.data := by
    refine total_congr fun other => ?_
    rw [without, without, KVStore.erase, KVStore.erase, charged_erase, charged_erase]
    split
    · rfl
    · rename_i different
      rw [charged_seen fun _ _ => rfl, charged_seen fun _ _ => rfl, elsewhere.entry different]
  rw [← tenantVectors_eq, ← tenantVectors_eq] at rows
  exact_mod_cast rows

theorem HoldsIndex.charged (holds : store.HoldsIndex now key idx) :
    KeyedStore.charged (keyCharge now) store.kv.data key = (key.length + 96 : Nat) ∧
      KeyedStore.charged (fun _ => Store.indexCharge store.disk) store.kv.data key =
        (indexMemory (idx.mmap store.disk).length (idx.rows.map Row.id) : Nat) ∧
      KeyedStore.charged (fun _ => rowCharge) store.kv.data key = idx.count := by
  obtain ⟨entry, found, vector, value⟩ := holds
  have stored := KVStore.lookup_of_get found
  obtain ⟨-, live⟩ := Option.filter_eq_some_iff.mp found
  simp only [Bool.not_eq_true'] at live
  simp only [KeyedStore.charged, stored, Option.elim_some, keyCharge, Store.indexCharge, rowCharge,
    live, vector, value]
  simp

/-!
## Deadlines stay
-/

theorem getForWrite_expiries (now : Int64) (key : Bytes) (kv : KVStore MMapVectorIndex) :
    (kv.getForWrite now key).2.expiries = kv.expiries := by
  unfold KVStore.getForWrite
  split
  · rfl
  · split <;> rfl

section

variable (config now key)

theorem openIndex_expiries (dim : Nat) (entry : Entry MMapVectorIndex) (store : Store) :
    (store.openIndex config now key dim entry).2.kv.expiries = store.kv.expiries := by
  unfold openIndex
  rcases newMMapVectorIndex now (.live key) dim config.maxVectors config.encoding store.disk
    with ⟨_ | _, _⟩ <;> rfl

theorem getOrCreate_expiries (dim : Nat) (store : Store) :
    (store.getOrCreate config now key dim).2.kv.expiries = store.kv.expiries := by
  have written := getForWrite_expiries now key store.kv
  unfold getOrCreate
  generalize store.kv.getForWrite now key = result at written ⊢
  obtain ⟨_ | entry, kv⟩ := result
  · exact (openIndex_expiries ..).trans written
  dsimp only
  split
  · exact written
  split
  · exact written
  · exact (openIndex_expiries ..).trans written
  · exact written

theorem putIndex_expiries (idx : MMapVectorIndex) (store : Store) :
    (store.putIndex key idx).kv.expiries = store.kv.expiries := by
  unfold putIndex
  split <;> rfl

theorem putIndex_disk (idx : MMapVectorIndex) (store : Store) :
    (store.putIndex key idx).disk = store.disk := by
  unfold putIndex
  split <;> rfl

end

/-!
## An admitted addition
-/

def indexAt (now : Int64) (key : Bytes) (store : Store) : Option MMapVectorIndex :=
  match store.kv.get now key with
  | none => none
  | some entry =>
    match entry.type, entry.value with
    | .vector, .index idx => some idx
    | _, _ => none

def knownIDs (found : Option MMapVectorIndex) : List Bytes :=
  found.elim [] fun idx => idx.rows.map Row.id

/-- The size of a row, in the encoding of the tenant for a new index. -/
def rowSize (config : VectorConfig) (dim : Nat) (found : Option MMapVectorIndex) : Nat :=
  found.elim (vectorRowSize dim config.encoding) fun idx => idx.rowBytes

/-- The size of the row file before it grows: that of the open index, of a file that
has been left behind, or of a new file. -/
def fileSize (config : VectorConfig) (key : Bytes) (dim : Nat) (disk : Disk) :
    Option MMapVectorIndex → Nat
  | some idx => (idx.mmap disk).length
  | none =>
    let leftover := ((disk (.live key)).rows.getD []).length
    if leftover = 0 then max config.maxVectors 1000 * vectorRowSize dim config.encoding
    else leftover

theorem HoldsIndex.indexAt (holds : store.HoldsIndex now key idx) :
    store.indexAt now key = some idx := by
  obtain ⟨entry, found, vector, value⟩ := holds
  simp only [Store.indexAt, found, vector, value]

theorem Unopened.indexAt (unopened : store.Unopened now key) : store.indexAt now key = none := by
  rcases unopened with absent | ⟨entry, found, vector, value⟩
  · simp only [Store.indexAt, absent]
  · simp only [Store.indexAt, found, vector, value]

theorem newIDs_eq (found : Option MMapVectorIndex) (ids : List Bytes) :
    newIDs found ids = MMapIndex.unknownIDs (knownIDs found) ids := by
  unfold newIDs MMapIndex.unknownIDs
  congr 1
  refine List.filter_congr fun id _ => ?_
  cases found with
  | none => simp [knownIDs]
  | some idx =>
    have known := idx.rowOf?_isNone id
    by_cases member : id ∈ idx.rows.map Row.id
    · simp only [knownIDs, Option.elim_some, member, not_true_eq_false, iff_false,
        Bool.not_eq_true] at known ⊢
      simpa using known
    · simp only [knownIDs, Option.elim_some, member, not_false_eq_true, iff_true] at known ⊢
      simpa using known

structure Created (config : VectorConfig) (now : Int64) (key : Bytes) (dim : Nat)
    (ready made : Store) (idx : MMapVectorIndex) : Prop where
  holds : made.HoldsIndex now key idx
  shape : idx.dim = dim
  ids : idx.rows.map Row.id = knownIDs (ready.indexAt now key)
  rowBytes : idx.rowBytes = rowSize config dim (ready.indexAt now key)
  file : (idx.mmap made.disk).length = fileSize config key dim ready.disk (ready.indexAt now key)
  expiries : made.kv.expiries = ready.kv.expiries

theorem getOrCreate_created {found : Option MMapVectorIndex} {ready : Store} {dim : Nat}
    (looked : store.getReadOnly config now key = (.ok found, ready))
    (dims : ∀ idx, found = some idx → idx.dim = dim) :
    ready.indexAt now key = found ∧ ∃ idx made,
      ready.getOrCreate config now key dim = (.ok idx, made) ∧
        Created config now key dim ready made idx := by
  cases found with
  | some idx =>
    have holds := getReadOnly_some config looked
    have same := holds.indexAt
    refine ⟨same, idx, ready, getOrCreate_holds config dim holds, ?_⟩
    constructor
    · exact holds
    · exact dims idx rfl
    · rw [same]
      rfl
    · rw [same]
      rfl
    · rw [same]
      rfl
    · rfl
  | none =>
    have lookup := getReadOnly_lookup config now key store
    rw [looked] at lookup
    cases lookup with
    | missing unopened absent =>
      have none := unopened.indexAt
      obtain ⟨kv, entry, created, vector, live, -⟩ := getOrCreate_unopened config dim unopened
      have expiries := getOrCreate_expiries config now key dim store
      have fresh := newMMapVectorIndex_fresh now dim config.maxVectors config.encoding absent
      rw [created] at expiries
      simp only [openIndex, fresh] at created expiries
      refine ⟨none, _, _, created, ?_⟩
      constructor
      · refine ⟨_, KVStore.get_put_same key ?_ kv, vector, rfl⟩
        exact live
      · rfl
      · rw [none]
        rfl
      · rw [none]
        rfl
      · rw [none]
        simp only [MMapIndex.mmap, openedDisk_same, Option.getD_some, openedFile, fileSize]
        split
        · rw [List.length_replicate]
        · rfl
      · exact expiries

theorem applyItems_holds {made : Store} (holds : made.HoldsIndex now key idx) {newRows : Nat}
    {items : List (Bytes × Vec)} (dims : ∀ item ∈ items, item.2.length = idx.dim)
    (enough : (MMapIndex.unknownIDs (idx.rows.map Row.id) (items.map Prod.fst)).length ≤ newRows) :
    ∃ written, (made.applyItems now key items newRows idx).HoldsIndex now key written ∧
      (written.rows.map Row.id).Perm (idx.rows.map Row.id ++
        MMapIndex.unknownIDs (idx.rows.map Row.id) (items.map Prod.fst)) ∧
      (written.mmap (made.applyItems now key items newRows idx).disk).length =
        grownSize (idx.mmap made.disk).length ((idx.count + newRows) * idx.rowBytes) := by
  let neededBytes := (idx.count + newRows) * idx.rowBytes
  let disk := idx.ensureCapacity neededBytes made.disk
  let added := idx.toMMapIndex.addItems items disk
  let final := added.1.writeMetadata now false added.2
  have result : made.applyItems now key items newRows idx =
      { made with disk := final.2 }.putIndex key { idx with toMMapIndex := final.1 } := rfl
  have path : added.1.path = idx.path := idx.toMMapIndex.addItems_path items disk
  obtain ⟨fresh, names, listed⟩ := idx.toMMapIndex.addItems_ids items disk
  refine ⟨{ idx with toMMapIndex := final.1 }, holds.putIndex .., ?_, ?_⟩
  · change (final.1.rows.map Row.id).Perm _
    rw [MMapIndex.writeMetadata_rows, names]
    exact listed.append_left _
  · have grown := idx.toMMapIndex.ensureCapacity_length neededBytes made.disk
    have count : added.1.count * idx.rowBytes ≤ (idx.mmap disk).length := by
      have lengths := congrArg List.length names
      rw [List.length_append, listed.length_eq, List.length_map, List.length_map] at lengths
      have fewer : added.1.count ≤ idx.count + newRows := by
        change added.1.rows.length ≤ idx.rows.length + newRows
        exact lengths.le.trans (Nat.add_le_add_left enough _)
      calc added.1.count * idx.rowBytes
        _ ≤ neededBytes := Nat.mul_le_mul_right _ fewer
        _ ≤ (idx.mmap disk).length := by
          rw [grown]
          exact le_grownSize ..
    have kept := idx.toMMapIndex.addItems_length items disk dims count
    rw [result, putIndex_disk]
    change (final.1.mmap final.2).length = _
    rw [MMapIndex.mmap_writeMetadata, MMapIndex.mmap, path]
    exact kept.trans grown

end Store

inductive VectorWrite where
  | vAdd (id : Bytes) (vec : Vec)
  | vAddBatch (dim : Nat) (items : List (Bytes × Vec))

namespace VectorWrite

def dim : VectorWrite → Nat
  | .vAdd _ vec => vec.length
  | .vAddBatch dim _ => dim

def items : VectorWrite → List (Bytes × Vec)
  | .vAdd id vec => [(id, vec)]
  | .vAddBatch _ items => items

def ids (write : VectorWrite) : List Bytes := write.items.map Prod.fst

def validate (config : VectorConfig) (now : Int64) (key : Bytes) (store : Store) :
    VectorWrite → Except String Unit × Store
  | .vAdd id vec => store.validateAdd config now key id vec
  | .vAddBatch dim items => store.validateAddBatch config now key dim items

def apply (config : VectorConfig) (now : Int64) (key : Bytes) (store : Store) :
    VectorWrite → Except String Unit × Store
  | .vAdd id vec => store.vAdd config now key id vec
  | .vAddBatch dim items => store.vAddBatch config now key dim items

variable {config : VectorConfig} {now : Int64} {key : Bytes} {store ready : Store}
  {write : VectorWrite}

theorem validateItems_dims {dim : Nat} {items : List (Bytes × Vec)}
    (valid : Store.validateItems dim items = .ok ()) : ∀ item ∈ items, item.2.length = dim := by
  induction items with
  | nil => intro item member; cases member
  | cons head items ih =>
    obtain ⟨id, vec⟩ := head
    unfold Store.validateItems at valid
    split at valid
    · cases valid
    rename_i same
    split at valid
    · cases valid
    intro item member
    rcases List.mem_cons.mp member with rfl | later
    · exact not_not.mp same
    · exact ih valid item later

inductive Valid : VectorWrite → Prop where
  | vAdd {id : Bytes} {vec : Vec} (valid : validateVector id vec = .ok ()) : Valid (.vAdd id vec)
  | vAddBatch {dim : Nat} {items : List (Bytes × Vec)} (filled : items.length ≠ 0)
      (few : ¬ maxVectorBatch < items.length) (bounded : ¬ (dim = 0 ∨ maxVectorDimensions < dim))
      (valid : Store.validateItems dim items = .ok ()) : Valid (.vAddBatch dim items)

theorem Valid.dims (valid : write.Valid) : ∀ item ∈ write.items, item.2.length = write.dim := by
  cases valid with
  | vAdd valid =>
    intro item member
    rw [items, List.mem_singleton] at member
    rw [member]
    rfl
  | vAddBatch _ _ _ valid => exact validateItems_dims valid

theorem accepted (validated : write.validate config now key store = (.ok (), ready)) :
    write.Valid ∧ store.admitBatch config now key write.dim write.ids (store.memoryUsage now) =
      (.ok (), ready) := by
  cases write with
  | vAdd id vec =>
    simp only [validate, Store.validateAdd] at validated
    split at validated
    · cases validated
    rename_i valid
    rw [Store.validateBatchCapacity_eq] at validated
    exact ⟨.vAdd valid, validated⟩
  | vAddBatch dim items =>
    simp only [validate, Store.validateAddBatch] at validated
    split at validated
    · cases validated
    rename_i size
    split at validated
    · cases validated
    rename_i bounded
    split at validated
    · cases validated
    rename_i valid
    rw [Store.validateBatchCapacity_eq] at validated
    exact ⟨.vAddBatch (fun none => size (.inl none)) (fun many => size (.inr many)) bounded
      valid, validated⟩

theorem admission_ok {dim : Nat} {ids : List Bytes} {usage : Int} {found : Option MMapVectorIndex}
    {capacityBytes : Nat}
    (admitted : Store.admission config key dim ids usage found capacityBytes = .ok ()) :
    (∀ idx, found = some idx → idx.dim = dim) ∧ ¬ (0 < config.maxVectors ∧
      config.maxVectors < (Store.knownIDs found).length + (Store.newIDs found ids).length) := by
  cases found with
  | none =>
    simp only [Store.admission] at admitted
    split at admitted
    · cases admitted
    split at admitted
    · cases admitted
    · rename_i within
      exact ⟨fun idx absent => (by cases absent), within⟩
  | some idx =>
    simp only [Store.admission] at admitted
    split at admitted
    · cases admitted
    rename_i same
    split at admitted
    · cases admitted
    rename_i within
    refine ⟨fun other found => ?_, ?_⟩
    · cases found
      exact not_not.mp same
    · simpa [Store.knownIDs, MMapIndex.count] using within

theorem apply_accepted (validated : write.validate config now key store = (.ok (), ready)) :
    ∃ idx made, Store.Created config now key write.dim ready made idx ∧
      write.apply config now key ready = (.ok (), made.applyItems now key write.items
        (Store.newIDs (ready.indexAt now key) write.ids).length idx) := by
  obtain ⟨valid, admitted⟩ := accepted validated
  unfold Store.admitBatch at admitted
  generalize looked : store.getReadOnly config now key = result at admitted
  obtain ⟨message | found, after⟩ := result
  · cases admitted
  obtain ⟨verdict, rfl⟩ := Prod.mk.inj admitted
  obtain ⟨dims, within⟩ := admission_ok verdict
  obtain ⟨same, idx, made, opened, created⟩ := Store.getOrCreate_created looked dims
  have count : idx.count = (Store.knownIDs found).length := by
    rw [← same, ← created.ids, List.length_map]
    rfl
  have fresh (ids : List Bytes) : Store.newIDs (some idx) ids = Store.newIDs found ids := by
    rw [Store.newIDs_eq, Store.newIDs_eq, ← same, ← created.ids]
    rfl
  refine ⟨idx, made, created, ?_⟩
  rw [same]
  cases valid with
  | @vAdd id vec valid =>
    have single : (Store.newIDs found [id]).length =
        if (idx.rowOf? id).isNone then 1 else 0 := by
      rw [← fresh]
      unfold Store.newIDs
      cases missing : (idx.rowOf? id).isNone <;> simp [missing]
    have shape : ¬ idx.dim ≠ vec.length := not_not.mpr created.shape
    have room : ¬ (0 < config.maxVectors ∧ config.maxVectors ≤ idx.count ∧
        (idx.rowOf? id).isNone = true) := by
      rintro ⟨limited, full, new⟩
      change ¬ (_ ∧ _ < _ + (Store.newIDs found [id]).length) at within
      rw [single, if_pos new, ← count] at within
      omega
    simp only [apply, Store.vAdd, valid, dim] at opened ⊢
    rw [opened]
    dsimp only
    rw [if_neg shape, if_neg room]
    change _ = (_, Store.applyItems now key [(id, vec)] (Store.newIDs found [id]).length idx made)
    rw [single]
  | @vAddBatch dim items filled few bounded valid =>
    have shape : ¬ idx.dim ≠ dim := not_not.mpr created.shape
    have room : ¬ (0 < config.maxVectors ∧ config.maxVectors <
        idx.count + (Store.newIDs (some idx) (items.map Prod.fst)).length) := by
      rw [count, fresh]
      exact within
    change Store.vAddBatch config now key dim items after = _
    unfold Store.vAddBatch
    rw [if_neg filled, if_neg few, if_neg bounded, valid]
    dsimp only
    rw [show after.getOrCreate config now key dim = _ from opened]
    dsimp only
    rw [if_neg shape, if_neg room, fresh]
    rfl

def ownMemory (config : VectorConfig) (key : Bytes) (disk : Disk) (found : Option MMapVectorIndex)
    (write : VectorWrite) : Nat :=
  let ids := Store.knownIDs found ++ Store.newIDs found write.ids
  key.length + 96 + Store.indexMemory
    (grownSize (Store.fileSize config key write.dim disk found)
      (ids.length * Store.rowSize config write.dim found)) ids

/-- The other keys leave room for the index of the addition, with the rows that it
gets, in the encoding that it has and in a file of the size that it needs. -/
structure Fits (config : VectorConfig) (now : Int64) (key : Bytes) (store : Store)
    (write : VectorWrite) : Prop where
  memory : (store.without key).memoryUsage now +
    (write.ownMemory config key store.disk (store.indexAt now key) : Nat) ≤ config.maxMemory
  vectors : (store.without key).tenantVectors + (Store.knownIDs (store.indexAt now key) ++
    Store.newIDs (store.indexAt now key) write.ids).length ≤ config.maxVectors

theorem local_apply (config : VectorConfig) (now : Int64) {scope : Set Location}
    (covers : Store.Covers scope key) (write : VectorWrite) :
    Store.Local config now scope True fun store => write.apply config now key store := by
  cases write with
  | vAdd id vec => exact Store.local_vAdd config now covers id vec
  | vAddBatch dim items => exact Store.local_vAddBatch config now covers dim items

theorem apply_usage (placed : store.Placed config)
    (validated : write.validate config now key store = (.ok (), ready)) :
    (write.apply config now key ready).1 = .ok () ∧
      (write.apply config now key ready).2.memoryUsage now = (ready.without key).memoryUsage now +
        (write.ownMemory config key ready.disk (ready.indexAt now key) : Nat) ∧
      (write.apply config now key ready).2.tenantVectors = (ready.without key).tenantVectors +
        (Store.knownIDs (ready.indexAt now key) ++
          Store.newIDs (ready.indexAt now key) write.ids).length := by
  obtain ⟨valid, admitted⟩ := accepted validated
  obtain ⟨idx, made, created, applied⟩ := apply_accepted validated
  have placedReady : ready.Placed config := by
    have kept := ((Store.local_admitBatch config now (Store.covers_keyPlaces key) write.dim
      write.ids (store.memoryUsage now)).confined trivial).keeps store placed
    rw [admitted] at kept
    exact kept
  have elsewhere : Store.Elsewhere config key ready (write.apply config now key ready).2 := by
    have confined := (local_apply config now (Store.covers_keyPlaces key) write).confined trivial
    refine ⟨placedReady, confined.frame ready placedReady, ?_⟩
    rw [applied]
    exact (Store.putIndex_expiries ..).trans created.expiries
  have fresh : MMapIndex.unknownIDs (idx.rows.map Row.id) (write.items.map Prod.fst) =
      Store.newIDs (ready.indexAt now key) write.ids := by
    rw [Store.newIDs_eq, created.ids]
    rfl
  obtain ⟨written, holds, listed, file⟩ := Store.applyItems_holds created.holds
    (fun item member => (valid.dims item member).trans created.shape.symm)
    (congrArg List.length fresh).le
  rw [fresh, created.ids] at listed
  have rows : idx.count + (Store.newIDs (ready.indexAt now key) write.ids).length =
      (Store.knownIDs (ready.indexAt now key) ++
        Store.newIDs (ready.indexAt now key) write.ids).length := by
    rw [List.length_append, ← created.ids, List.length_map]
    rfl
  rw [rows, created.rowBytes, created.file] at file
  have same : (write.apply config now key ready).2 = made.applyItems now key write.items
      (Store.newIDs (ready.indexAt now key) write.ids).length idx := by
    rw [applied]
  rw [← same] at holds file
  obtain ⟨keyed, indexed, counted⟩ := holds.charged
  refine ⟨by rw [applied], ?_, ?_⟩
  · rw [Store.memoryUsage_without now key, elsewhere.memoryUsage, keyed, indexed, file]
    unfold ownMemory Store.indexMemory
    rw [(listed.map fun id : Bytes => id.length + 160).sum_eq]
    push_cast
    omega
  · have vectors := Store.tenantVectors_without key (write.apply config now key ready).2
    rw [elsewhere.tenantVectors, counted] at vectors
    have count : written.count = (Store.knownIDs (ready.indexAt now key) ++
        Store.newIDs (ready.indexAt now key) write.ids).length := by
      rw [← listed.length_eq, List.length_map]
      rfl
    rw [count] at vectors
    exact_mod_cast vectors

/-- An accepted addition succeeds, and keeps the limits of the tenant if and only if
the index fits beside the other keys. -/
theorem admitted_within_limits_iff (placed : store.Placed config)
    (validated : write.validate config now key store = (.ok (), ready)) :
    ((write.apply config now key ready).1 = .ok () ∧
      (write.apply config now key ready).2.memoryUsage now ≤ config.maxMemory ∧
      (write.apply config now key ready).2.tenantVectors ≤ config.maxVectors) ↔
    write.Fits config now key ready := by
  obtain ⟨succeeds, memory, vectors⟩ := apply_usage placed validated
  rw [memory, vectors]
  exact ⟨fun ⟨_, memory, vectors⟩ => ⟨memory, vectors⟩,
    fun ⟨memory, vectors⟩ => ⟨succeeds, memory, vectors⟩⟩

def single : VectorConfig := ⟨[], [], 1, 1000000, .sq8⟩

def firstAdded : Store := (apply single 0 [0x61] .empty (.vAdd [0x78] [0])).2

theorem empty_placed (config : VectorConfig) : Store.empty.Placed config := by
  intro key entry idx found
  cases found

theorem second_index_admitted :
    firstAdded.Placed single ∧
      validate single 0 [0x62] firstAdded (.vAdd [0x78] [0]) = (.ok (), firstAdded) ∧
      single.maxVectors <
        (apply single 0 [0x62] firstAdded (.vAdd [0x78] [0])).2.tenantVectors := by
  have first : validate single 0 [0x61] .empty (.vAdd [0x78] [0]) = (.ok (), .empty) := rfl
  obtain ⟨-, memory, -⟩ := apply_usage (empty_placed single) first
  have confined :=
    (local_apply single 0 (Store.covers_keyPlaces [0x61]) (.vAdd [0x78] [0])).confined trivial
  have placed : firstAdded.Placed single := confined.keeps _ (empty_placed single)
  have used : firstAdded.memoryUsage 0 = 9258 := by
    rw [firstAdded, memory]
    rfl
  have second : validate single 0 [0x62] firstAdded (.vAdd [0x78] [0]) = (.ok (), firstAdded) := by
    have absent : firstAdded.kv.get 0 [0x62] = none := rfl
    have files : (firstAdded.disk (.live [0x62])).metadata = none := by
      have kept : firstAdded.disk (.live [0x62]) = .absent := by
        refine confined.frame _ (empty_placed single) (.files (.live [0x62])) ?_
        rintro (same | same) <;> cases same
      rw [kept]
      rfl
    have looked : firstAdded.getReadOnly single 0 [0x62] = (.ok none, firstAdded) := by
      simp only [Store.getReadOnly, absent, Store.openPersistedIndex, files]
    have admitted : firstAdded.admitBatch single 0 [0x62] 1 [[0x78]] 9258 =
        (.ok (), firstAdded) := by
      rw [Store.admitBatch, looked]
      rfl
    simp only [validate, Store.validateAdd]
    rw [show validateVector [0x78] [0] = .ok () from rfl]
    dsimp only
    rw [Store.validateBatchCapacity_eq, used]
    exact admitted
  obtain ⟨-, -, vectors⟩ := apply_usage placed second
  refine ⟨placed, second, ?_⟩
  rw [vectors]
  decide

theorem first_vector_within_limits :
    (apply single 0 [0x61] .empty (.vAdd [0x78] [0])).1 = .ok () ∧
      (apply single 0 [0x61] .empty (.vAdd [0x78] [0])).2.memoryUsage 0 ≤ single.maxMemory ∧
      (apply single 0 [0x61] .empty (.vAdd [0x78] [0])).2.tenantVectors ≤ single.maxVectors := by
  refine (admitted_within_limits_iff (empty_placed single) rfl).mpr ⟨?_, ?_⟩
  · change (_ : Int) ≤ 1000000
    decide
  · decide

end VectorWrite

end Dbx.Engine
