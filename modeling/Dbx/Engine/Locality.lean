import Dbx.Engine.KeyLocality
import Dbx.Engine.VectorStoreProperties

/-!
# What an operation looks at

The state of a tenant is seen through its keys and its index files. Every operation
of the engine is confined to the keys that it is given and to the files of their
indexes, and entries whose deadline has passed make no difference to most of them.
-/

set_option autoImplicit false

namespace Dbx.Engine

open Confinement Simulation

variable {α : Type}

namespace Disk

def seen (path : IndexPath) (disk : Disk) : IndexFiles := disk path

/-- An operation that turns the files of one path into something that only depends
on them. -/
theorem confined_path (path : IndexPath) (change : IndexFiles → α × IndexFiles) :
    Confined seen (fun _ => True) {path} fun disk : Disk =>
      ((change (disk path)).1, disk.set path (change (disk path)).2) where
  same left right _ _ agree := by
    rw [show left path = right path from agree path rfl]
  agree left right _ _ agree := by
    rintro place rfl
    rw [show left place = right place from agree place rfl]
    simp [seen, Disk.set]
  frame disk _ other outside := by
    have different : other ≠ path := outside
    simp [seen, Disk.set, different]
  keeps _ _ := trivial

theorem confined_set (path : IndexPath) (files : IndexFiles) :
    Confined seen (fun _ => True) {path} fun disk : Disk => ((), disk.set path files) :=
  confined_path path fun _ => ((), files)

end Disk

namespace MMapIndex

variable (idx : MMapIndex)

theorem confined_mmap :
    Confined Disk.seen (fun _ => True) {idx.path} fun disk => (idx.mmap disk, disk) := by
  refine Confined.read _ fun left right _ _ agree => ?_
  rw [mmap, show left idx.path = right idx.path from agree idx.path rfl, mmap]

theorem confined_setMmap (file : Bytes) :
    Confined Disk.seen (fun _ => True) {idx.path} fun disk => ((), idx.setMmap file disk) :=
  Disk.confined_path idx.path fun files => ((), { files with rows := some file })

theorem confined_writeMetadata (now : Int64) (durable : Bool) :
    Confined Disk.seen (fun _ => True) {idx.path} fun disk =>
      idx.writeMetadata now durable disk := by
  refine Confined.ite (Confined.pure idx) ?_
  exact Disk.confined_path idx.path fun files =>
    ({ idx with metaDirty := 0, lastMeta := some now },
      { files with metadata := some idx.metadata })

theorem confined_close (now : Int64) :
    Confined Disk.seen (fun _ => True) {idx.path} fun disk => ((), idx.close now disk) := by
  have graph := Disk.confined_path idx.path fun files =>
    ((), { files with graph := some idx.count })
  exact (idx.confined_writeMetadata now true).bind fun _ => graph

theorem confined_ensureCapacity (neededBytes : Nat) :
    Confined Disk.seen (fun _ => True) {idx.path} fun disk =>
      ((), idx.ensureCapacity neededBytes disk) := by
  have grow (file : Bytes) : Confined Disk.seen (fun _ => True) {idx.path} fun disk =>
      ((), if neededBytes ≤ file.length then disk
        else
          let newSize := if file.length * 2 < neededBytes then neededBytes else file.length * 2
          idx.setMmap (file ++ List.replicate (newSize - file.length) 0) disk) := by
    by_cases fits : neededBytes ≤ file.length
    · simp only [fits, ↓reduceIte]
      exact .pure ()
    · simp only [fits, ↓reduceIte]
      exact idx.confined_setMmap _
  exact idx.confined_mmap.bind grow

theorem confined_storeRow (row : Nat) (vec : Vec) :
    Confined Disk.seen (fun _ => True) {idx.path} fun disk => ((), idx.storeRow row vec disk) :=
  idx.confined_mmap.bind fun file =>
    idx.confined_setMmap (writeRow idx.rowBytes row (encodeRow idx.encoding vec) file)

@[simp] theorem upsert_path (id : Bytes) : (idx.upsert id).2.path = idx.path := by
  rw [upsert]
  split
  · rfl
  · split <;> rfl

theorem confined_addItem (item : Bytes × Vec) :
    Confined Disk.seen (fun _ => True) {idx.path} fun disk => idx.addItem item disk := by
  have store := (idx.upsert item.1).2.confined_storeRow (idx.upsert item.1).1 item.2
  rw [upsert_path] at store
  exact store.map fun _ => (idx.upsert item.1).2

theorem confined_addItems (items : List (Bytes × Vec)) :
    Confined Disk.seen (fun _ => True) {idx.path} fun disk => idx.addItems items disk := by
  induction items generalizing idx with
  | nil => exact .pure idx
  | cons item items ih =>
    have rest : ∀ grown : MMapIndex, grown.path = idx.path →
        Confined Disk.seen (fun _ => True) {idx.path} fun disk => grown.addItems items disk := by
      intro grown same
      rw [← same]
      exact ih grown
    exact (idx.confined_addItem item).bindOn _ (fun disk _ => idx.upsert_path item.1) rest

end MMapIndex

theorem confined_newMMapVectorIndex (now : Int64) (path : IndexPath) (dim capacity : Nat)
    (encoding : VectorEncoding) :
    Confined Disk.seen (fun _ => True) {path} fun disk =>
      newMMapVectorIndex now path dim capacity encoding disk := by
  let opened : IndexFiles → Bytes := fun files =>
    let file := files.rows.getD []
    if file.length = 0 then List.replicate (max capacity 1000 * vectorRowSize dim encoding) 0
    else file
  let idx : MMapIndex := ⟨path, dim, encoding, [], 0, none⟩
  -- How opening goes on behind the row file and the metadata that it has found.
  let goOn : Bytes × Option VectorMetadata → Disk → Except String MMapIndex × Disk :=
    fun found disk => found.2.elim (.ok idx, disk) fun stored =>
      if stored.dim ≠ dim then
        (.error "invalid vector metadata: %!w(<nil>)", idx.close now disk)
      else if found.1.length / vectorRowSize dim stored.encoding < stored.rows.length then
        (.error "vector metadata exceeds index capacity",
          { idx with encoding := stored.encoding }.close now disk)
      else (.ok { idx with encoding := stored.encoding, rows := stored.rows }, disk)
  have first := Disk.confined_path path fun files =>
    ((opened files, files.metadata), { files with rows := some (opened files) })
  have second : ∀ found, Confined Disk.seen (fun _ => True) {path} (goOn found) := by
    rintro ⟨file, _ | stored⟩
    · exact .pure _
    · refine .ite ?_ (.ite ?_ (.pure _))
      · exact (idx.confined_close now).map fun _ => _
      · exact (MMapIndex.confined_close { idx with encoding := stored.encoding } now).map fun _ => _
  have same : (fun disk => newMMapVectorIndex now path dim capacity encoding disk) = fun disk =>
      goOn (opened (disk path), (disk path).metadata)
        (disk.set path { disk path with rows := some (opened (disk path)) }) := by
    funext disk
    simp only [newMMapVectorIndex, Disk.set_same, goOn]
    cases (disk path).metadata <;> rfl
  rw [same]
  exact first.bind second

namespace MMapIndex

variable (idx : MMapIndex)

theorem confined_compact (now : Int64) :
    Confined Disk.seen (fun _ => True) {idx.path} fun disk =>
      ((), runEffects (idx.compactEffects now disk) disk) := by
  -- The kept rows are read before the first of them is written back.
  let effects : Bytes → List (Disk → Disk) := fun file =>
    (idx.activeRows.zipIdx.map fun store => fun current =>
      idx.setMmap (writeRow idx.rowBytes store.2 (readRow idx.rowBytes store.1.2 file)
        (idx.mmap current)) current) ++
    [fun current => (idx.compacted.writeMetadata now true current).2,
      fun current =>
        current.set idx.path { current idx.path with graph := some idx.compacted.count }]
  have each : ∀ file, ∀ effect ∈ effects file,
      Confined Disk.seen (fun _ => True) {idx.path} fun disk => ((), effect disk) := by
    intro file effect member
    rcases List.mem_append.mp member with stores | others
    · obtain ⟨⟨active, row⟩, -, rfl⟩ := List.mem_map.mp stores
      exact idx.confined_mmap.bind fun held =>
        idx.confined_setMmap (writeRow idx.rowBytes row (readRow idx.rowBytes active.2 file) held)
    · rcases List.mem_cons.mp others with rfl | graph
      · exact (idx.compacted.confined_writeMetadata now true).map fun _ => ()
      rw [List.mem_singleton.mp graph]
      exact Disk.confined_path idx.path fun files =>
        ((), { files with graph := some idx.compacted.count })
  exact idx.confined_mmap.bind fun file => Confined.iterate (each file)

end MMapIndex

inductive Location where
  | entry (key : Bytes)
  | files (path : IndexPath)

def Location.Content : Location → Type
  | .entry _ => Option (Entry MMapVectorIndex)
  | .files _ => IndexFiles

structure MMapVectorIndex.Sited (config : VectorConfig) (key : Bytes) (idx : MMapVectorIndex) :
    Prop where
  live : idx.path = .live key
  shadow : ∀ shadow, idx.shadow = some shadow → shadow.path = shadowPath config key

namespace Store

variable {config : VectorConfig} {scope : Set Location} {key : Bytes}

def view : (place : Location) → Store → place.Content
  | .entry key, store => store.kv.seen key
  | .files path, store => store.disk path

def Placed (config : VectorConfig) (store : Store) : Prop :=
  ∀ key entry idx, store.kv.data.lookup key = some entry → entry.type = .vector →
    entry.value = .index idx → idx.Sited config key

structure Twins (now : Int64) (left right : Store) : Prop where
  live : left.kv.SameLive now right.kv
  disk : left.disk = right.disk

abbrev Local (config : VectorConfig) (now : Int64) (scope : Set Location) (good : Prop)
    (run : Store → α × Store) : Prop :=
  Simulation.Local (Twins now) view (Placed config) scope good run

variable {now : Int64} {good : Prop}

theorem local_kv {keys : Set Bytes}
    {run : KVStore MMapVectorIndex → α × KVStore MMapVectorIndex}
    (narrow : KVStore.Local now keys run) (inside : ∀ key ∈ keys, .entry key ∈ scope)
    (keeps : good → ∀ kv key entry idx, (run kv).2.data.lookup key = some entry →
      entry.type = .vector → entry.value = .index idx →
      (∃ before, kv.data.lookup key = some before ∧ before.type = .vector ∧
        before.value = .index idx) ∨ idx.Sited config key) :
    Local config now scope good fun store =>
      ((run store.kv).1, { store with kv := (run store.kv).2 }) := by
  refine ⟨fun left right twins => ?_, fun holds => ?_⟩
  · obtain ⟨result, live⟩ := narrow.respects left.kv right.kv twins.live
    exact ⟨result, live, twins.disk⟩
  have confined := narrow.confined trivial
  have wide : Confined view (Placed config) {place | ∃ key ∈ keys, place = .entry key}
      fun store => ((run store.kv).1, { store with kv := (run store.kv).2 }) := by
    have agrees {left right : Store}
        (agree : Agree view {place | ∃ key ∈ keys, place = .entry key} left right) :
        Agree KVStore.seen keys left.kv right.kv :=
      fun key member => agree (.entry key) ⟨key, member, rfl⟩
    constructor
    · exact fun left right _ _ agree => confined.same _ _ trivial trivial (agrees agree)
    · rintro left right _ _ agree place ⟨key, member, rfl⟩
      exact confined.agree _ _ trivial trivial (agrees agree) key member
    · rintro store _ (key | path) outside
      · exact confined.frame store.kv trivial key fun member => outside ⟨key, member, rfl⟩
      · rfl
    · intro store placed key entry idx found vector value
      rcases keeps holds store.kv key entry idx found vector value with
        ⟨before, held, type, same⟩ | sited
      · exact placed key before idx held type same
      · exact sited
  refine wide.mono ?_
  rintro place ⟨key, member, rfl⟩
  exact inside key member

theorem local_disk {paths : Set IndexPath} {run : Disk → α × Disk}
    (confined : good → Confined Disk.seen (fun _ => True) paths run)
    (inside : good → ∀ path ∈ paths, .files path ∈ scope) :
    Local config now scope good fun store =>
      ((run store.disk).1, { store with disk := (run store.disk).2 }) := by
  refine ⟨fun left right twins => ?_, fun holds => ?_⟩
  · exact ⟨congrArg (fun disk => (run disk).1) twins.disk, twins.live,
      congrArg (fun disk => (run disk).2) twins.disk⟩
  have confined := confined holds
  have wide : Confined view (Placed config) {place | ∃ path ∈ paths, place = .files path}
      fun store => ((run store.disk).1, { store with disk := (run store.disk).2 }) := by
    have agrees {left right : Store}
        (agree : Agree view {place | ∃ path ∈ paths, place = .files path} left right) :
        Agree Disk.seen paths left.disk right.disk :=
      fun path member => agree (.files path) ⟨path, member, rfl⟩
    constructor
    · exact fun left right _ _ agree => confined.same _ _ trivial trivial (agrees agree)
    · rintro left right _ _ agree place ⟨path, member, rfl⟩
      exact confined.agree _ _ trivial trivial (agrees agree) path member
    · rintro store _ (key | path) outside
      · rfl
      · exact confined.frame store.disk trivial path fun member => outside ⟨path, member, rfl⟩
    · exact fun store placed => placed
  refine wide.mono ?_
  rintro place ⟨path, member, rfl⟩
  exact inside holds path member

structure Covers (scope : Set Location) (key : Bytes) : Prop where
  entry : .entry key ∈ scope
  files : .files (.live key) ∈ scope

theorem Covers.univ (key : Bytes) : Covers Set.univ key := ⟨trivial, trivial⟩

def keyPlaces (key : Bytes) : Set Location := {.entry key, .files (.live key)}

theorem covers_keyPlaces (key : Bytes) : Covers (keyPlaces key) key := ⟨.inl rfl, .inr rfl⟩

theorem local_edits {run : KVStore MMapVectorIndex → α × KVStore MMapVectorIndex}
    (edits : KVStore.Edits now key run) (covered : .entry key ∈ scope) :
    Local config now scope good fun store =>
      ((run store.kv).1, { store with kv := (run store.kv).2 }) := by
  refine local_kv edits.isLocal (fun other same => same ▸ covered) fun _ => ?_
  intro kv other entry idx held vector value
  by_cases same : other = key
  · subst same
    rcases edits.kept kv entry held with ⟨data, bytes⟩ | ⟨before, stored, type, content⟩
    · rw [bytes] at value
      cases value
    · exact .inl ⟨before, stored, type.trans vector, content.trans value⟩
  · have untouched := (edits.isLocal.confined trivial).frame kv trivial other same
    rw [KVStore.seen, KVStore.seen, held] at untouched
    obtain ⟨before, stored, unversioned⟩ := Option.map_eq_some_iff.mp untouched.symm
    have type := congrArg Entry.type unversioned
    have content := congrArg Entry.value unversioned
    exact .inl ⟨before, stored, type.trans vector, content.trans value⟩

theorem shown_determined (now : Int64) (covered : .entry key ∈ scope) {left right : Store}
    (agree : Agree view scope left right) : left.kv.shown now key = right.kv.shown now key :=
  KVStore.shown_congr (agree (.entry key) covered) now

theorem alike_shown (covered : .entry key ∈ scope) {left right : Store}
    (alike : Alike (Twins now) view (Placed config) scope good left right) :
    left.kv.shown now key = right.kv.shown now key := by
  rcases alike with twins | ⟨-, -, -, agree⟩
  · exact twins.live key
  · exact shown_determined now covered agree

theorem alike_files {path : IndexPath} (covered : good → .files path ∈ scope) {left right : Store}
    (alike : Alike (Twins now) view (Placed config) scope good left right) :
    left.disk path = right.disk path := by
  rcases alike with twins | ⟨holds, -, -, agree⟩
  · rw [twins.disk]
  · exact agree (.files path) (covered holds)

theorem putIndex_eq (key : Bytes) (idx : MMapVectorIndex) (store : Store) :
    store.putIndex key idx = { store with
      kv := match store.kv.data.lookup key with
        | none => store.kv
        | some entry => store.kv.put key { entry with value := .index idx } } := by
  rw [putIndex]
  cases store.kv.data.lookup key <;> rfl

theorem local_putIndex (covered : .entry key ∈ scope) (idx : MMapVectorIndex) :
    Local config now scope (idx.Sited config key) fun store => ((), store.putIndex key idx) := by
  let run : KVStore MMapVectorIndex → Unit × KVStore MMapVectorIndex := fun kv =>
    ((), match kv.data.lookup key with
      | none => kv
      | some entry => kv.put key { entry with value := .index idx })
  let change : Entry MMapVectorIndex → Entry MMapVectorIndex := fun entry =>
    { entry with value := .index idx }
  have others : ∀ kv other, other ≠ key → (run kv).2.data.lookup other = kv.data.lookup other := by
    intro kv other different
    dsimp only [run]
    split
    · rfl
    · exact AList.lookup_insert_ne different
  have steady : KVStore.Steady now fun held => ((), held.map change) := by
    have live (held : Option (Entry MMapVectorIndex)) : KVStore.unexpired now (held.map change) =
        (KVStore.unexpired now held).map change := by
      cases held with
      | none => rfl
      | some entry =>
        have same : (change entry).isExpired now = entry.isExpired now := rfl
        cases expired : entry.isExpired now <;>
          simp [KVStore.unexpired, Option.filter, same, expired]
    intro left right same
    refine ⟨rfl, ?_⟩
    dsimp only
    rw [live, live, same]
  have narrow : KVStore.Local now {key} run := by
    refine KVStore.local_key (fun held => ((), held.map change)) steady (fun kv => ?_) others
    cases stored : kv.data.lookup key with
    | none => simp [run, stored, KVStore.seen]
    | some entry => simp [run, stored, KVStore.seen, KVStore.put, Entry.unversioned, change]
  simp only [putIndex_eq]
  refine local_kv narrow (fun other same => same ▸ covered) fun sited => ?_
  intro kv other entry found held vector value
  by_cases same : other = key
  · subst same
    cases stored : kv.data.lookup other with
    | none =>
      simp only [run, stored, reduceCtorEq] at held
    | some before =>
      simp only [run, stored, KVStore.put, AList.lookup_insert, Option.some.injEq] at held
      subst held
      cases value
      exact .inr sited
  · rw [others kv other same] at held
    exact .inl ⟨entry, held, vector, value⟩

theorem newMMapVectorIndex_path {path : IndexPath} {dim capacity : Nat} {encoding : VectorEncoding}
    {disk : Disk} {idx : MMapIndex}
    (opened : (newMMapVectorIndex now path dim capacity encoding disk).1 = .ok idx) :
    idx.path = path := by
  cases found : (disk path).metadata with
  | none =>
    rw [newMMapVectorIndex_fresh now dim capacity encoding found] at opened
    cases opened
    rfl
  | some stored =>
    by_cases same : stored.dim = dim
    · subst same
      rw [newMMapVectorIndex_stored now capacity encoding found] at opened
      split at opened
      · cases opened
      · cases opened
        rfl
    · rw [newMMapVectorIndex_mismatch now capacity encoding found same] at opened
      cases opened

def opening (config : VectorConfig) (now : Int64) (key : Bytes) (dim : Nat) (store : Store) :
    Except String MMapIndex × Store :=
  let result := newMMapVectorIndex now (.live key) dim config.maxVectors config.encoding store.disk
  (result.1, { store with disk := result.2 })

section

variable (config now)

theorem local_opening (covers : Covers scope key) (dim : Nat) :
    Local config now scope good fun store => store.opening config now key dim :=
  local_disk (fun _ => confined_newMMapVectorIndex now (.live key) dim config.maxVectors
    config.encoding) fun _ _ same => same ▸ covers.files

theorem openIndex_eq (key : Bytes) (dim : Nat) (entry : Entry MMapVectorIndex) (store : Store) :
    store.openIndex config now key dim entry =
      match store.opening config now key dim with
      | (.error message, store) => (.error message, store)
      | (.ok idx, store) => (.ok ⟨idx, none⟩,
          { store with kv := store.kv.put key { entry with value := .index ⟨idx, none⟩ } }) := by
  rw [openIndex, opening]
  rcases newMMapVectorIndex now (.live key) dim config.maxVectors config.encoding store.disk
    with ⟨_ | _, _⟩ <;> rfl

theorem local_openIndex (covers : Covers scope key) (dim : Nat) (entry : Entry MMapVectorIndex) :
    Local config now scope good fun store => store.openIndex config now key dim entry := by
  have placing (idx : MMapIndex) : Local config now scope (idx.path = .live key) fun store =>
      ((.ok ⟨idx, none⟩ : Except String MMapVectorIndex),
        { store with kv := store.kv.put key { entry with value := .index ⟨idx, none⟩ } }) := by
    refine (local_kv (KVStore.local_put now key { entry with value := .index ⟨idx, none⟩ })
      (fun other same => same ▸ covers.entry) fun path => ?_).map fun _ => _
    intro kv other held found stored vector value
    by_cases same : other = key
    · subst same
      rw [KVStore.put, AList.lookup_insert] at stored
      cases stored
      cases value
      exact .inr ⟨path, by rintro shadow ⟨⟩⟩
    · rw [KVStore.put, AList.lookup_insert_ne same] at stored
      exact .inl ⟨held, stored, vector, value⟩
  refine (local_opening config now covers dim).andThen _
    (fun _ store idx _ opened => newMMapVectorIndex_path opened) placing ?_ ?_
  · intro store message after failed
    rw [openIndex_eq, failed]
  · intro store idx after opened
    rw [openIndex_eq, opened]

end

def reopenIndex (config : VectorConfig) (now : Int64) (key : Bytes) (dim : Nat) (store : Store) :
    Except String MMapVectorIndex × Store :=
  match store.opening config now key dim with
  | (.error message, store) => (.error message, store)
  | (.ok idx, store) => (.ok ⟨idx, none⟩, store.putIndex key ⟨idx, none⟩)

variable {store : Store}

section

variable (config now)

theorem openIndex_stored (dim : Nat) {entry : Entry MMapVectorIndex}
    (stored : store.kv.data.lookup key = some entry) :
    store.openIndex config now key dim entry = store.reopenIndex config now key dim := by
  rw [openIndex, reopenIndex, opening]
  rcases newMMapVectorIndex now (.live key) dim config.maxVectors config.encoding store.disk
    with ⟨_ | _, _⟩
  · rfl
  · simp [putIndex, stored]

theorem local_reopenIndex (covers : Covers scope key) (dim : Nat) :
    Local config now scope good fun store => store.reopenIndex config now key dim := by
  have placing (idx : MMapIndex) :=
    (@local_putIndex config scope key now covers.entry ⟨idx, none⟩).map fun _ =>
      (.ok ⟨idx, none⟩ : Except String MMapVectorIndex)
  refine (local_opening config now covers dim).andThen _ (fun _ store idx _ opened =>
    ⟨newMMapVectorIndex_path opened, by rintro shadow ⟨⟩⟩) placing ?_ ?_
  · intro store message after failed
    rw [reopenIndex, failed]
  · intro store idx after opened
    rw [reopenIndex, opened]

/-- What opening the index of a key for writing does, by what the key shows. -/
def createShown (config : VectorConfig) (now : Int64) (key : Bytes) (dim : Nat)
    (shows : Option (Entry MMapVectorIndex)) (store : Store) :
    Except String MMapVectorIndex × Store :=
  match shows with
  | none => { store with kv := (store.kv.getForWrite now key).2 }.openIndex config now key dim
      ⟨.nil, .vector, 0, 0⟩
  | some entry =>
    if entry.type ≠ .vector then (.error errWrongType, store)
    else
      match entry.value with
      | .index idx => (.ok idx, store)
      | .nil => store.reopenIndex config now key dim
      | _ => (.error "interface conversion: not *engine.MMapVectorIndex", store)

theorem getOrCreate_shown (key : Bytes) (dim : Nat) :
    (fun store : Store => store.getOrCreate config now key dim) = fun store =>
      createShown config now key dim (store.kv.shown now key) store := by
  funext store
  cases shows : store.kv.get now key with
  | none =>
    obtain ⟨kv', taken, -⟩ := KVStore.getForWrite_none shows
    simp [getOrCreate, taken, createShown, KVStore.shown, shows]
  | some entry =>
    have stored := KVStore.lookup_of_get shows
    rw [KVStore.shown, shows]
    simp only [getOrCreate, KVStore.getForWrite_some shows, createShown, Option.map_some]
    obtain ⟨value, type, expiresAt, version⟩ := entry
    by_cases vector : type = .vector
    · cases value with
      | nil => simpa [Entry.unversioned, vector] using openIndex_stored config now dim stored
      | _ => simp [Entry.unversioned, vector]
    · simp [Entry.unversioned, vector]

theorem local_getOrCreate (covers : Covers scope key) (dim : Nat) :
    Local config now scope good fun store => store.getOrCreate config now key dim := by
  have each : ∀ shows, Local config now scope good (createShown config now key dim shows) := by
    rintro (_ | ⟨value, type, expiresAt, version⟩)
    · exact (local_edits (KVStore.edits_dropExpired now key) covers.entry).bind fun _ =>
        local_openIndex config now covers dim _
    · refine .ite (.pure _) ?_
      cases value with
      | nil => exact local_reopenIndex config now covers dim
      | _ => exact .pure _
  rw [getOrCreate_shown]
  exact .choose _ (fun left right => alike_shown covers.entry) each

def openStored (config : VectorConfig) (now : Int64) (key : Bytes)
    (metadata : Option VectorMetadata) (store : Store) :
    Except String (Option MMapVectorIndex) × Store :=
  match metadata with
  | none => (.ok none, store)
  | some stored =>
    if stored.dim = 0 then (.error "invalid vector metadata", store)
    else
      match store.getOrCreate config now key stored.dim with
      | (.error message, store) => (.error message, store)
      | (.ok idx, store) => (.ok (some idx), store)

theorem local_openPersistedIndex (covers : Covers scope key) :
    Local config now scope good fun store => store.openPersistedIndex config now key := by
  have each : ∀ metadata, Local config now scope good (openStored config now key metadata) := by
    rintro (_ | stored)
    · exact .pure _
    · refine .ite (.pure _) ?_
      refine (local_getOrCreate config now covers stored.dim).andThen (fun _ => True)
        (fun _ _ _ _ _ => trivial) (fun idx => .pure (Except.ok (some idx))) ?_ ?_
      · intro store message after failed
        simp only [failed]
      · intro store idx after opened
        simp only [opened]
  refine .choose (fun store => (store.disk (.live key)).metadata) ?_ each
  exact fun left right alike =>
    congrArg IndexFiles.metadata (alike_files (fun _ => covers.files) alike)

def lookShown (config : VectorConfig) (now : Int64) (key : Bytes)
    (shows : Option (Entry MMapVectorIndex)) (store : Store) :
    Except String (Option MMapVectorIndex) × Store :=
  match shows with
  | none => store.openPersistedIndex config now key
  | some entry =>
    if entry.type ≠ .vector then (.error errWrongType, store)
    else
      match entry.value with
      | .index idx => (.ok (some idx), store)
      | .nil => store.openPersistedIndex config now key
      | _ => (.error "interface conversion: not *engine.MMapVectorIndex", store)

theorem getReadOnly_shown (key : Bytes) :
    (fun store : Store => store.getReadOnly config now key) = fun store =>
      lookShown config now key (store.kv.shown now key) store := by
  funext store
  rw [getReadOnly, KVStore.shown]
  cases store.kv.get now key <;> rfl

end

theorem local_getReadOnly (config : VectorConfig) (now : Int64) (covers : Covers scope key) :
    Local config now scope good fun store => store.getReadOnly config now key := by
  have each : ∀ shows, Local config now scope good (lookShown config now key shows) := by
    rintro (_ | ⟨value, type, expiresAt, version⟩)
    · exact local_openPersistedIndex config now covers
    · refine .ite (.pure _) ?_
      cases value with
      | nil => exact local_openPersistedIndex config now covers
      | _ => exact .pure _
  rw [getReadOnly_shown]
  exact .choose _ (fun left right => alike_shown covers.entry) each

variable {idx : MMapVectorIndex}

theorem HoldsIndex.putIndex (holds : store.HoldsIndex now key idx) (changed : MMapVectorIndex)
    (disk : Disk) :
    HoldsIndex now key changed ({ store with disk := disk }.putIndex key changed) := by
  obtain ⟨entry, found, vector, value⟩ := holds
  have stored := KVStore.lookup_of_get found
  obtain ⟨-, live⟩ := Option.filter_eq_some_iff.mp found
  simp only [Bool.not_eq_true'] at live
  have expires : ({ entry with value := .index changed } : Entry MMapVectorIndex).isExpired now =
      false := live
  refine ⟨{ entry with value := .index changed }, ?_, vector, rfl⟩
  simp only [Store.putIndex, stored]
  exact KVStore.get_put_same key expires store.kv

theorem HoldsIndex.sited (holds : store.HoldsIndex now key idx) (placed : store.Placed config) :
    idx.Sited config key := by
  obtain ⟨entry, found, vector, value⟩ := holds
  exact placed key entry idx (KVStore.lookup_of_get found) vector value

theorem getReadOnly_sited (now : Int64) (placed : store.Placed config)
    (found : (store.getReadOnly config now key).1 = .ok (some idx)) :
    idx.Sited config key := by
  have covers := Covers.univ key
  have placed' := ((local_getReadOnly config now covers).confined trivial).keeps store placed
  have looked := getReadOnly_lookup config now key store
  generalize store.getReadOnly config now key = result at found placed' looked
  cases looked with
  | refused | missing | wiped => cases found
  | found holds =>
    cases found
    exact holds.sited placed
  | opened _ holds =>
    cases found
    exact holds.sited placed'

theorem openIndex_sited {dim : Nat} {entry : Entry MMapVectorIndex}
    (opened : (store.openIndex config now key dim entry).1 = .ok idx) :
    idx.Sited config key := by
  have path {base : MMapIndex} (mapped : (store.opening config now key dim).1 = .ok base) :=
    newMMapVectorIndex_path mapped
  rw [openIndex_eq] at opened
  generalize store.opening config now key dim = result at opened path
  obtain ⟨_ | base, after⟩ := result
  · cases opened
  · cases opened
    exact ⟨path rfl, by rintro shadow ⟨⟩⟩

theorem getOrCreate_sited (now : Int64) {dim : Nat} (placed : store.Placed config)
    (found : (store.getOrCreate config now key dim).1 = .ok idx) :
    idx.Sited config key := by
  cases shows : store.kv.get now key with
  | none =>
    obtain ⟨kv', taken, -⟩ := KVStore.getForWrite_none shows
    rw [getOrCreate, taken] at found
    exact openIndex_sited found
  | some entry =>
    rw [getOrCreate, KVStore.getForWrite_some shows] at found
    dsimp only at found
    split at found
    · cases found
    rename_i vector
    split at found
    · rename_i value
      cases found
      exact placed key entry idx (KVStore.lookup_of_get shows) (not_not.mp vector) value
    · exact openIndex_sited found
    · cases found

theorem local_mSet (config : VectorConfig) (now : Int64)
    {pairs : AList fun _ : Bytes => Option Bytes} (covered : ∀ key ∈ pairs, .entry key ∈ scope) :
    Local config now scope good fun store =>
      ((), { store with kv := StringStore.mSet now pairs store.kv }) := by
  refine local_kv (StringStore.local_mSet now pairs) covered fun _ => ?_
  intro kv key entry idx held vector value
  have general : ∀ (list : List (Sigma fun _ : Bytes => Option Bytes))
      (kv : KVStore MMapVectorIndex),
      (list.foldl (fun kv pair => kv.set now pair.1 (.bytes pair.2) .string 0) kv).data.lookup key =
        some entry → kv.data.lookup key = some entry := by
    intro list
    induction list with
    | nil => exact fun kv held => held
    | cons pair list ih =>
      intro kv held
      have before := ih _ held
      dsimp only [KVStore.set] at before
      by_cases same : key = pair.1
      · rw [same, AList.lookup_insert] at before
        cases before
        cases vector
      · rwa [AList.lookup_insert_ne same] at before
  exact .inl ⟨entry, general _ kv held, vector, value⟩

end Store

end Dbx.Engine
