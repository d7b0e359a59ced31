import Dbx.Engine.Locality

/-!
# Failures that leave the store alone

An operation on an index opens or creates it first. Where a check behind that
refuses the operation, the index stays behind, and an opening that is refused
rewrites the metadata. For every operation, the states in which neither happens.
-/

set_option autoImplicit false

namespace Dbx.Engine

namespace Store

variable {config : VectorConfig} {now : Int64} {key : Bytes} {idx : MMapVectorIndex}
  {store store' : Store}

def FailsClean {α : Type} (store : Store) (result : Except String α × Store) : Prop :=
  (∃ value, result.1 = .ok value) ∨ result.2 = store

theorem failsClean_ok {α : Type} (value : α) (after : Store) :
    FailsClean store (.ok value, after) :=
  .inl ⟨value, rfl⟩

theorem failsClean_error {α : Type} {message : String} :
    FailsClean store ((.error message, store') : Except String α × Store) ↔ store' = store := by
  constructor
  · rintro (⟨value, ok⟩ | same)
    · cases ok
    · exact same
  · exact .inr

def Openable (config : VectorConfig) (key : Bytes) (dim : Nat) (disk : Disk) : Prop :=
  ∀ stored, (disk (.live key)).metadata = some stored → stored.dim = dim ∧
    stored.rows.length ≤
      (openedFile (.live key) dim config.maxVectors config.encoding disk).length /
        vectorRowSize dim stored.encoding

/-- The files of a key can be opened by a lookup, or it does not try to. -/
def Legible (config : VectorConfig) (key : Bytes) (disk : Disk) : Prop :=
  ∀ stored, (disk (.live key)).metadata = some stored → stored.dim ≠ 0 →
    Openable config key stored.dim disk

def filedIndex (config : VectorConfig) (key : Bytes) (dim : Nat) (disk : Disk) : MMapVectorIndex :=
  match (disk (.live key)).metadata with
  | none => ⟨⟨.live key, dim, config.encoding, [], 0, none⟩, none⟩
  | some stored => ⟨⟨.live key, dim, stored.encoding, stored.rows, 0, none⟩, none⟩

section

variable (config key) (dim : Nat) (disk : Disk)

theorem dim_filedIndex : (filedIndex config key dim disk).dim = dim := by
  unfold filedIndex
  split <;> rfl

theorem shadow_filedIndex : (filedIndex config key dim disk).shadow = none := by
  unfold filedIndex
  split <;> rfl

end

inductive Opening (config : VectorConfig) (now : Int64) (key : Bytes) (dim : Nat) (store : Store) :
    Except String MMapVectorIndex × Store → Prop where
  | refused {message : String} (taken : ¬ store.Unopened now key)
      (held : ∀ idx, ¬ store.HoldsIndex now key idx) :
      Opening config now key dim store (.error message, store)
  | found {idx : MMapVectorIndex} (holds : store.HoldsIndex now key idx) :
      Opening config now key dim store (.ok idx, store)
  | wiped {message : String} {store' : Store} (unopened : store.Unopened now key)
      (unfit : ¬ Openable config key dim store.disk) (changed : store' ≠ store) :
      Opening config now key dim store (.error message, store')
  | opened {store' : Store} (unopened : store.Unopened now key)
      (fit : Openable config key dim store.disk) (changed : store' ≠ store) :
      Opening config now key dim store (.ok (filedIndex config key dim store.disk), store')

theorem closed_metadata_ne {path : IndexPath} {dim : Nat} {encoding : VectorEncoding}
    {disk : Disk} {stored : VectorMetadata} (metadata : (disk path).metadata = some stored)
    (differ : stored.dim ≠ dim ∨ stored.rows ≠ []) (files : Disk) :
    MMapIndex.close now ⟨path, dim, encoding, [], 0, none⟩ files ≠ disk := by
  intro kept
  have closed : (MMapIndex.close now ⟨path, dim, encoding, [], 0, none⟩ files path).metadata =
      some ⟨dim, encoding, []⟩ :=
    congrArg IndexFiles.metadata (MMapIndex.close_same now _ files)
  rw [kept, metadata] at closed
  cases closed
  rcases differ with dim | rows
  · exact dim rfl
  · exact rows rfl

theorem put_index_ne {kv : KVStore MMapVectorIndex} {entry : Entry MMapVectorIndex} {disk : Disk}
    (unopened : store.Unopened now key) (type : entry.type = .vector)
    (live : entry.isExpired now = false) (idx : MMapVectorIndex) :
    (⟨kv.put key { entry with value := .index idx }, disk⟩ : Store) ≠ store := by
  intro same
  have reopened : ({ entry with value := .index idx } : Entry MMapVectorIndex).isExpired now =
      false := live
  have holds : store.HoldsIndex now key idx :=
    same ▸ ⟨_, KVStore.get_put_same key reopened kv, type, rfl⟩
  exact holds.not_unopened unopened

section

variable (config now key) (dim : Nat)

theorem getOrCreate_opening (store : Store) :
    Opening config now key dim store (store.getOrCreate config now key dim) := by
  by_cases unopened : store.Unopened now key
  · obtain ⟨kv, entry, outcome, type, live, -⟩ := getOrCreate_unopened config dim unopened
    rw [outcome, openIndex]
    dsimp only
    cases metadata : (store.disk (.live key)).metadata with
    | none =>
      have fit : Openable config key dim store.disk := by
        intro stored present
        rw [metadata] at present
        cases present
      have filed : filedIndex config key dim store.disk =
          ⟨⟨.live key, dim, config.encoding, [], 0, none⟩, none⟩ := by
        rw [filedIndex, metadata]
      rw [newMMapVectorIndex_fresh now dim config.maxVectors config.encoding metadata]
      dsimp only
      rw [← filed]
      exact .opened unopened fit (put_index_ne unopened type live _)
    | some stored =>
      by_cases shape : stored.dim = dim
      · subst shape
        rw [newMMapVectorIndex_stored now config.maxVectors config.encoding metadata]
        by_cases short : (openedFile (.live key) stored.dim config.maxVectors config.encoding
            store.disk).length / vectorRowSize stored.dim stored.encoding < stored.rows.length
        · rw [if_pos short]
          have unfit : ¬ Openable config key stored.dim store.disk := fun fit =>
            Nat.not_le.mpr short (fit stored metadata).2
          refine .wiped unopened unfit fun same => ?_
          refine closed_metadata_ne metadata (.inr fun none => ?_) _ (congrArg Store.disk same)
          rw [none] at short
          exact Nat.not_lt_zero _ short
        · rw [if_neg short]
          have fit : Openable config key stored.dim store.disk := by
            intro other present
            rw [metadata] at present
            cases present
            exact ⟨rfl, Nat.not_lt.mp short⟩
          have filed : filedIndex config key stored.dim store.disk =
              ⟨⟨.live key, stored.dim, stored.encoding, stored.rows, 0, none⟩, none⟩ := by
            rw [filedIndex, metadata]
          dsimp only
          rw [← filed]
          exact .opened unopened fit (put_index_ne unopened type live _)
      · rw [newMMapVectorIndex_mismatch now config.maxVectors config.encoding metadata shape]
        have unfit : ¬ Openable config key dim store.disk := fun fit =>
          shape (fit stored metadata).1
        refine .wiped unopened unfit fun same => ?_
        exact closed_metadata_ne metadata (.inl shape) _ (congrArg Store.disk same)
  · unfold getOrCreate
    cases found : store.kv.get now key with
    | none => exact absurd (.inl found) unopened
    | some entry =>
      rw [KVStore.getForWrite_some found]
      dsimp only
      have idle (free : entry.type ≠ .vector ∨ ∀ idx, entry.value ≠ .index idx) (idx) :
          ¬ store.HoldsIndex now key idx := by
        rintro ⟨other, present, type, value⟩
        rw [found] at present
        cases present
        rcases free with different | free
        · exact different type
        · exact free idx value
      split
      · rename_i different
        exact .refused unopened (idle (.inl different))
      rename_i vector
      have type : entry.type = .vector := not_not.mp vector
      cases value : entry.value with
      | nil => exact absurd (.inr ⟨entry, found, type, value⟩) unopened
      | index idx => exact .found ⟨entry, found, type, value⟩
      | bytes | other => exact .refused unopened (idle (.inr (by simp [value])))

inductive Sighting (config : VectorConfig) (now : Int64) (key : Bytes) (store : Store) :
    Except String (Option MMapVectorIndex) × Store → Prop where
  | refused {message : String} (idle : ¬ store.Opens now key)
      (held : ∀ idx, ¬ store.HoldsIndex now key idx) :
      Sighting config now key store (.error message, store)
  | missing (idle : ¬ store.Opens now key) (held : ∀ idx, ¬ store.HoldsIndex now key idx) :
      Sighting config now key store (.ok none, store)
  | found {idx : MMapVectorIndex} (holds : store.HoldsIndex now key idx) :
      Sighting config now key store (.ok (some idx), store)
  | wiped {message : String} {store' : Store} (opens : store.Opens now key)
      (unfit : ¬ Legible config key store.disk) (changed : store' ≠ store) :
      Sighting config now key store (.error message, store')
  | opened {idx : MMapVectorIndex} {store' : Store} (opens : store.Opens now key)
      (fit : Legible config key store.disk) (unmigrated : idx.shadow = none)
      (changed : store' ≠ store) : Sighting config now key store (.ok (some idx), store')

theorem getReadOnly_sighting (store : Store) :
    Sighting config now key store (store.getReadOnly config now key) := by
  by_cases opens : store.Opens now key
  · obtain ⟨unopened, stored, metadata, dim⟩ := opens
    have legible : Legible config key store.disk ↔
        Openable config key stored.dim store.disk := by
      constructor
      · exact fun legible => legible stored metadata dim
      · intro fit other present _
        rw [metadata] at present
        cases present
        exact fit
    have opening := getOrCreate_opening config now key stored.dim store
    rw [getReadOnly_unopened config unopened, openPersistedIndex, metadata]
    dsimp only
    rw [if_neg dim]
    generalize store.getOrCreate config now key stored.dim = result at opening
    cases opening with
    | refused taken => exact absurd unopened taken
    | found holds => exact absurd unopened holds.not_unopened
    | wiped _ unfit changed =>
      exact .wiped ⟨unopened, stored, metadata, dim⟩ (fun fit => unfit (legible.mp fit)) changed
    | opened _ fit changed =>
      exact .opened ⟨unopened, stored, metadata, dim⟩ (legible.mpr fit)
        (shadow_filedIndex config key stored.dim store.disk) changed
  · have looked := getReadOnly_lookup config now key store
    generalize result : store.getReadOnly config now key = looking at looked
    cases looked with
    | found holds => exact .found holds
    | wiped opened | opened opened => exact absurd opened opens
    | missing unopened =>
      exact .missing opens fun idx holds => holds.not_unopened unopened
    | refused =>
      refine .refused opens fun idx holds => ?_
      rw [getReadOnly_holds config holds] at result
      cases result

theorem failsClean_vAdd (id : Bytes) (vec : Vec) (store : Store) :
    FailsClean store (store.vAdd config now key id vec) ↔
      (validateVector id vec = .ok () → store.Unopened now key →
        Openable config key vec.length store.disk ∧
          (0 < config.maxVectors →
            ((filedIndex config key vec.length store.disk).rowOf? id).isNone →
            (filedIndex config key vec.length store.disk).count < config.maxVectors)) := by
  unfold vAdd
  cases checked : validateVector id vec with
  | error message =>
    refine iff_of_true (failsClean_error.mpr rfl) fun valid => ?_
    cases valid
  | ok =>
    have opening := getOrCreate_opening config now key vec.length store
    dsimp only
    generalize store.getOrCreate config now key vec.length = result at opening
    cases opening with
    | refused taken =>
      exact iff_of_true (failsClean_error.mpr rfl) fun _ unopened => absurd unopened taken
    | found holds =>
      refine iff_of_true ?_ fun _ unopened => absurd unopened holds.not_unopened
      dsimp only
      split
      · exact failsClean_error.mpr rfl
      split
      · exact failsClean_error.mpr rfl
      · exact failsClean_ok ..
    | wiped unopened unfit changed =>
      refine iff_of_false (fun clean => changed (failsClean_error.mp clean)) fun fits => ?_
      exact unfit (fits rfl unopened).1
    | opened unopened fit changed =>
      dsimp only
      rw [dim_filedIndex, if_neg (not_not.mpr rfl)]
      split
      · rename_i refused
        refine iff_of_false (fun clean => changed (failsClean_error.mp clean)) fun fits => ?_
        obtain ⟨limited, full, isNew⟩ := refused
        exact Nat.not_lt.mpr full ((fits rfl unopened).2 limited isNew)
      · rename_i admitted
        refine iff_of_true (failsClean_ok ..) fun _ _ => ⟨fit, fun limited isNew => ?_⟩
        exact Nat.not_le.mp fun full => admitted ⟨limited, full, isNew⟩

theorem failsClean_vAddBatch (items : List (Bytes × Vec)) (store : Store) :
    FailsClean store (store.vAddBatch config now key dim items) ↔
      (items.length ≠ 0 → items.length ≤ maxVectorBatch → dim ≠ 0 → dim ≤ maxVectorDimensions →
        validateItems dim items = .ok () → store.Unopened now key →
        Openable config key dim store.disk ∧
          (0 < config.maxVectors → (filedIndex config key dim store.disk).count +
            (newIDs (some (filedIndex config key dim store.disk)) (items.map Prod.fst)).length ≤
              config.maxVectors)) := by
  unfold vAddBatch
  split
  · rename_i none
    exact iff_of_true (failsClean_ok ..) fun some => absurd none some
  split
  · rename_i large
    refine iff_of_true (failsClean_error.mpr rfl) fun _ small => ?_
    exact absurd large (Nat.not_lt.mpr small)
  · split
    · rename_i shape
      refine iff_of_true (failsClean_error.mpr rfl) fun _ _ some small => ?_
      exact absurd shape (not_or.mpr ⟨some, Nat.not_lt.mpr small⟩)
    · rename_i some small shape
      rw [not_or, Nat.not_lt] at shape
      cases checked : validateItems dim items with
      | error message =>
        refine iff_of_true (failsClean_error.mpr rfl) fun _ _ _ _ valid => ?_
        cases valid
      | ok =>
        have opening := getOrCreate_opening config now key dim store
        dsimp only
        generalize store.getOrCreate config now key dim = result at opening
        cases opening with
        | refused taken =>
          refine iff_of_true (failsClean_error.mpr rfl) fun _ _ _ _ _ unopened => ?_
          exact absurd unopened taken
        | found holds =>
          refine iff_of_true ?_ fun _ _ _ _ _ unopened => ?_
          · dsimp only
            split
            · exact failsClean_error.mpr rfl
            split
            · exact failsClean_error.mpr rfl
            · exact failsClean_ok ..
          · exact absurd unopened holds.not_unopened
        | wiped unopened unfit changed =>
          refine iff_of_false (fun clean => changed (failsClean_error.mp clean)) fun fits => ?_
          exact unfit (fits some (Nat.not_lt.mp small) shape.1 shape.2 rfl unopened).1
        | opened unopened fit changed =>
          dsimp only
          rw [dim_filedIndex, if_neg (not_not.mpr rfl)]
          split
          · rename_i refused
            refine iff_of_false (fun clean => changed (failsClean_error.mp clean))
              fun fits => ?_
            obtain ⟨limited, full⟩ := refused
            exact Nat.not_le.mpr full
              ((fits some (Nat.not_lt.mp small) shape.1 shape.2 rfl unopened).2 limited)
          · rename_i admitted
            refine iff_of_true (failsClean_ok ..) fun _ _ _ _ _ _ => ⟨fit, fun limited => ?_⟩
            exact Nat.not_lt.mp fun full => admitted ⟨limited, full⟩

end

theorem legible_of_idle (unopened : store.Unopened now key) (idle : ¬ store.Opens now key) :
    Legible config key store.disk := by
  intro stored metadata dim
  exact absurd ⟨unopened, stored, metadata, dim⟩ idle

section

variable {shadow : MMapIndex} (config now key) (id : Bytes)

theorem failsClean_vDel (store : Store) :
    FailsClean store (store.vDel config now key id) ↔
      (store.Unopened now key → Legible config key store.disk) := by
  have sighting := getReadOnly_sighting config now key store
  unfold vDel
  generalize store.getReadOnly config now key = result at sighting
  cases sighting with
  | refused idle =>
    exact iff_of_true (failsClean_error.mpr rfl) fun unopened => legible_of_idle unopened idle
  | missing idle =>
    exact iff_of_true (failsClean_ok ..) fun unopened => legible_of_idle unopened idle
  | found holds =>
    refine iff_of_true ?_ fun unopened => absurd unopened holds.not_unopened
    dsimp only
    split
    · exact failsClean_ok ..
    · split <;> exact failsClean_ok ..
  | wiped opens unfit changed =>
    exact iff_of_false (fun clean => changed (failsClean_error.mp clean)) fun fits =>
      unfit (fits opens.1)
  | opened opens fit =>
    refine iff_of_true ?_ fun _ => fit
    dsimp only
    split
    · exact failsClean_ok ..
    · split <;> exact failsClean_ok ..

/-- A shadow of this shape is there already or its files can be made. -/
def Shadowable (config : VectorConfig) (key : Bytes) (dim : Nat) (encoding : VectorEncoding)
    (idx : MMapVectorIndex) : Prop :=
  (∃ shadow, idx.shadow = some shadow ∧ shadow.dim = dim ∧ shadow.encoding = encoding) ∨
    shadowFault config key = none

theorem startMigration_begun (dim : Nat) (encoding : VectorEncoding) (idx : MMapVectorIndex)
    (disk : Disk) :
    (∃ started files, idx.startMigration config now key dim encoding disk = (.ok started, files) ∧
        Shadowable config key dim encoding idx) ∨
      ∃ message files, idx.startMigration config now key dim encoding disk =
          (.error message, files) ∧
        ¬ Shadowable config key dim encoding idx ∧ (idx.shadow = none → files = disk) := by
  unfold MMapVectorIndex.startMigration
  dsimp only
  split
  · rename_i same
    obtain ⟨shadow, present, shape⟩ := Option.any_eq_true _ _ |>.mp same
    rw [Bool.and_eq_true, decide_eq_true_eq, decide_eq_true_eq] at shape
    exact .inl ⟨_, _, rfl, .inl ⟨shadow, present, shape⟩⟩
  · rename_i differ
    cases fault : shadowFault config key with
    | none =>
      dsimp only
      rw [newMMapVectorIndex_fresh now dim 1000 encoding (by simp [IndexFiles.absent])]
      exact .inl ⟨_, _, rfl, .inr fault⟩
    | some message =>
      refine .inr ⟨_, _, rfl, ?_, ?_⟩
      · rintro (⟨shadow, present, shape⟩ | none)
        · exact differ (by simp [present, shape])
        · rw [fault] at none
          cases none
      · intro none
        rw [none]

theorem failsClean_startMigration (dim : Nat) (encoding : Bytes) (store : Store) :
    FailsClean store (store.startMigration config now key dim encoding) ↔
      (store.Unopened now key → Openable config key 0 store.disk ∧
        shadowFault config key = none ∧ ∃ known, normalizeVectorEncoding encoding = .ok known) ∧
      ∀ idx known, store.HoldsIndex now key idx → idx.shadow ≠ none →
        normalizeVectorEncoding encoding = .ok known → Shadowable config key dim known idx := by
  have opening := getOrCreate_opening config now key 0 store
  unfold startMigration
  generalize store.getOrCreate config now key 0 = result at opening
  cases opening with
  | refused taken held =>
    exact iff_of_true (failsClean_error.mpr rfl)
      ⟨fun unopened => absurd unopened taken, fun idx _ holds => absurd holds (held idx)⟩
  | @found idx holds =>
    dsimp only
    cases normalizeVectorEncoding encoding with
    | error message =>
      exact iff_of_true (failsClean_error.mpr rfl)
        ⟨fun unopened => absurd unopened holds.not_unopened, fun _ _ _ _ invalid => nomatch invalid⟩
    | ok known =>
      dsimp only
      obtain ⟨started, files, outcome, able⟩ | ⟨message, files, outcome, unable, kept⟩ :=
        startMigration_begun config now key dim known idx store.disk
      · rw [outcome]
        refine iff_of_true (failsClean_ok ..)
          ⟨fun unopened => absurd unopened holds.not_unopened, fun other _ held _ valid => ?_⟩
        cases holds.unique held
        cases valid
        exact able
      · rw [outcome]
        dsimp only
        cases shadow : idx.shadow with
        | none =>
          rw [kept shadow]
          refine iff_of_true (failsClean_error.mpr rfl)
            ⟨fun unopened => absurd unopened holds.not_unopened, fun other _ held present => ?_⟩
          cases holds.unique held
          exact absurd shadow present
        | some dropped =>
          refine iff_of_false (fun clean => ?_) fun fits => ?_
          · have same := failsClean_error.mp clean
            have bare := holds.putIndex { idx with shadow := none } files
            rw [Option.isNone_some, if_neg Bool.false_ne_true] at same
            rw [same] at bare
            rw [holds.unique bare] at shadow
            cases shadow
          · refine unable (fits.2 idx known holds ?_ rfl)
            rw [shadow]
            exact Option.some_ne_none dropped
  | wiped unopened unfit changed =>
    exact iff_of_false (fun clean => changed (failsClean_error.mp clean)) fun fits =>
      unfit (fits.1 unopened).1
  | @opened after unopened fit changed =>
    dsimp only
    cases normalizeVectorEncoding encoding with
    | error message =>
      refine iff_of_false (fun clean => changed (failsClean_error.mp clean)) fun fits => ?_
      obtain ⟨-, -, known, valid⟩ := fits.1 unopened
      cases valid
    | ok known =>
      have bare := shadow_filedIndex config key 0 store.disk
      dsimp only
      obtain ⟨started, files, outcome, able⟩ | ⟨message, files, outcome, unable, kept⟩ :=
        startMigration_begun config now key dim known (filedIndex config key 0 store.disk)
          after.disk
      · rw [outcome]
        refine iff_of_true (failsClean_ok ..)
          ⟨fun _ => ⟨fit, ?_, known, rfl⟩, fun idx _ holds => absurd unopened holds.not_unopened⟩
        obtain ⟨shadow, present, -⟩ | none := able
        · rw [bare] at present
          cases present
        · exact none
      · rw [outcome, kept bare, bare]
        exact iff_of_false (fun clean => changed (failsClean_error.mp clean)) fun fits =>
          unable (.inr (fits.1 unopened).2.1)

theorem failsClean_cancelMigration (store : Store) :
    FailsClean store (store.cancelMigration config now key) ↔
      (store.Unopened now key → Legible config key store.disk) := by
  have sighting := getReadOnly_sighting config now key store
  unfold cancelMigration withIndex
  generalize store.getReadOnly config now key = result at sighting
  cases sighting with
  | refused idle | missing idle =>
    exact iff_of_true (failsClean_error.mpr rfl) fun unopened => legible_of_idle unopened idle
  | found holds =>
    exact iff_of_true (failsClean_ok ..) fun unopened => absurd unopened holds.not_unopened
  | wiped opens unfit changed =>
    exact iff_of_false (fun clean => changed (failsClean_error.mp clean)) fun fits =>
      unfit (fits opens.1)
  | opened opens fit => exact iff_of_true (failsClean_ok ..) fun _ => fit

theorem failsClean_insertShadowVector (vec : Vec) (store : Store) :
    FailsClean store (store.insertShadowVector config now key id vec) ↔ ¬ store.Opens now key := by
  have sighting := getReadOnly_sighting config now key store
  unfold insertShadowVector withIndex
  generalize store.getReadOnly config now key = result at sighting
  cases sighting with
  | refused idle | missing idle => exact iff_of_true (failsClean_error.mpr rfl) idle
  | @found idx holds =>
    refine iff_of_true ?_ holds.not_opens
    dsimp only
    cases idx.insertShadowVector now id vec store.disk with
    | error message => exact failsClean_error.mpr rfl
    | ok inserted => exact failsClean_ok ..
  | wiped opens unfit changed =>
    exact iff_of_false (fun clean => changed (failsClean_error.mp clean)) fun idle => idle opens
  | opened opens fit unmigrated changed =>
    dsimp only
    rw [MMapVectorIndex.insertShadowVector, unmigrated]
    exact iff_of_false (fun clean => changed (failsClean_error.mp clean)) fun idle => idle opens

theorem insertShadowVector_invalid {id : Bytes} {vec : Vec} {message : String}
    (invalid : validateVector id vec = .error message) (store : Store) :
    ∃ message, (store.insertShadowVector config now key id vec).1 =
      .error message := by
  unfold insertShadowVector withIndex
  rcases store.getReadOnly config now key with ⟨_ | (_ | idx), after⟩
  · exact ⟨_, rfl⟩
  · exact ⟨_, rfl⟩
  · dsimp only
    unfold MMapVectorIndex.insertShadowVector
    rw [invalid]
    cases idx.shadow <;> exact ⟨_, rfl⟩

/-- The rows of a shadow fit into its file, which becomes the file of the index. -/
def ShadowFits (shadow : MMapIndex) (disk : Disk) : Prop :=
  shadow.count ≤ (openedFile shadow.path shadow.dim 1000 shadow.encoding disk).length /
    shadow.rowBytes

/-- An open index lies at the path of its key, and its shadow beside it with a row file. -/
structure Mounted (config : VectorConfig) (now : Int64) (key : Bytes) (store : Store) : Prop where
  sited : ∀ idx, store.HoldsIndex now key idx → idx.Sited config key
  mapped : ∀ idx shadow, store.HoldsIndex now key idx → idx.shadow = some shadow →
    (store.disk shadow.path).rows ≠ none

theorem swapEffects_files {live beside : IndexPath} (apart : beside ≠ live) (disk : Disk) :
    runEffects (MMapVectorIndex.swapEffects live beside) disk live = disk beside ∧
      runEffects (MMapVectorIndex.swapEffects live beside) disk beside = .absent := by
  constructor
  · simp [runEffects, MMapVectorIndex.swapEffects, Disk.set_other _ _ apart,
      Disk.set_other _ _ apart.symm]
  · simp [runEffects, MMapVectorIndex.swapEffects, Disk.set_other _ _ apart,
      Disk.set_other _ _ apart.symm, IndexFiles.absent]

def promotedDisk (now : Int64) (idx : MMapVectorIndex) (shadow : MMapIndex) (disk : Disk) : Disk :=
  runEffects (MMapVectorIndex.swapEffects idx.path shadow.path)
    (shadow.close now (idx.close now disk))

theorem promotedDisk_files (apart : shadow.path ≠ idx.path) (disk : Disk) :
    promotedDisk now idx shadow disk idx.path =
        ⟨(disk shadow.path).rows, some shadow.metadata, some shadow.count⟩ ∧
      promotedDisk now idx shadow disk shadow.path = .absent := by
  obtain ⟨live, beside⟩ := swapEffects_files apart (shadow.close now (idx.close now disk))
  refine ⟨?_, beside⟩
  rw [promotedDisk, live, MMapIndex.close_same,
    MMapIndex.close_other now idx.toMMapIndex disk apart]

theorem swapMigration_promotes (apart : shadow.path ≠ idx.path)
    (migrating : idx.shadow = some shadow) (filled : shadow.count ≠ 0) (disk : Disk) :
    idx.swapMigration now disk =
      if (openedFile shadow.path shadow.dim 1000 shadow.encoding disk).length / shadow.rowBytes <
          shadow.count then
        (.error "vector metadata exceeds index capacity",
          MMapIndex.close now ⟨idx.path, shadow.dim, shadow.encoding, [], 0, none⟩
            (openedDisk idx.path shadow.dim 1000 shadow.encoding
              (promotedDisk now idx shadow disk)))
      else
        (.ok ⟨⟨idx.path, shadow.dim, shadow.encoding, shadow.metadata.rows, 0, none⟩, none⟩,
          openedDisk idx.path shadow.dim 1000 shadow.encoding
            (promotedDisk now idx shadow disk)) := by
  obtain ⟨live, -⟩ := promotedDisk_files now apart disk
  have metadata : (promotedDisk now idx shadow disk idx.path).metadata = some shadow.metadata := by
    rw [live]
  have file : openedFile idx.path shadow.dim 1000 shadow.encoding
        (promotedDisk now idx shadow disk) =
      openedFile shadow.path shadow.dim 1000 shadow.encoding disk := by
    rw [openedFile, openedFile, live]
  have count : shadow.metadata.rows.length = shadow.count := List.length_map ..
  have opened := newMMapVectorIndex_stored now 1000 shadow.encoding metadata
  unfold MMapVectorIndex.swapMigration
  rw [migrating]
  dsimp only
  rw [if_neg filled, ← promotedDisk]
  by_cases short : (openedFile shadow.path shadow.dim 1000 shadow.encoding disk).length /
      shadow.rowBytes < shadow.count
  · rw [if_pos short]
    rw [← file, ← count] at short
    have refused := opened.trans (if_pos short)
    dsimp only [MMapIndex.metadata] at refused
    rw [refused]
  · rw [if_neg short]
    rw [← file, ← count] at short
    have accepted := opened.trans (if_neg short)
    dsimp only [MMapIndex.metadata] at accepted
    rw [accepted]
    rfl

theorem failsClean_swapMigration {store : Store} (mounted : store.Mounted config now key) :
    FailsClean store (store.swapMigration config now key) ↔
      (store.Unopened now key → Legible config key store.disk) ∧
        ∀ idx shadow, store.HoldsIndex now key idx → idx.shadow = some shadow → shadow.count ≠ 0 →
          ShadowFits shadow store.disk := by
  have sighting := getReadOnly_sighting config now key store
  unfold swapMigration withIndex
  generalize store.getReadOnly config now key = result at sighting
  cases sighting with
  | refused idle held | missing idle held =>
    exact iff_of_true (failsClean_error.mpr rfl) ⟨fun unopened => legible_of_idle unopened idle,
      fun idx _ holds => absurd holds (held idx)⟩
  | wiped opens unfit changed =>
    exact iff_of_false (fun clean => changed (failsClean_error.mp clean)) fun fits =>
      unfit (fits.1 opens.1)
  | opened opens fit unmigrated =>
    dsimp only
    rw [MMapVectorIndex.swapMigration, unmigrated]
    exact iff_of_true (failsClean_ok ..) ⟨fun _ => fit,
      fun idx _ holds => absurd opens holds.not_opens⟩
  | @found idx holds =>
    have sited := mounted.sited idx holds
    have only (other : MMapVectorIndex) (also : store.HoldsIndex now key other) : other = idx :=
      also.unique holds
    have idle (unopened : store.Unopened now key) : Legible config key store.disk :=
      absurd unopened holds.not_unopened
    dsimp only
    cases migrating : idx.shadow with
    | none =>
      rw [MMapVectorIndex.swapMigration, migrating]
      refine iff_of_true (failsClean_ok ..) ⟨idle, fun other shadow also present => ?_⟩
      rw [only other also, migrating] at present
      cases present
    | some shadow =>
      by_cases empty : shadow.count = 0
      · rw [MMapVectorIndex.swapMigration, migrating]
        dsimp only
        rw [if_pos empty]
        refine iff_of_true (failsClean_error.mpr rfl) ⟨idle, fun other others also present => ?_⟩
        rw [only other also, migrating] at present
        cases present
        exact fun filled => absurd empty filled
      · have apart : shadow.path ≠ idx.path := by
          rw [sited.live, sited.shadow shadow migrating, shadowPath]
          exact IndexPath.noConfusion
        rw [swapMigration_promotes now apart migrating empty]
        by_cases short : (openedFile shadow.path shadow.dim 1000 shadow.encoding
            store.disk).length / shadow.rowBytes < shadow.count
        · rw [if_pos short]
          refine iff_of_false (fun clean => ?_) fun fits => ?_
          · have kept := congrArg (fun after => (after.disk shadow.path).rows)
              (failsClean_error.mp clean)
            have gone : (promotedDisk now idx shadow store.disk shadow.path).rows = none := by
              rw [(promotedDisk_files now apart store.disk).2]
              rfl
            refine mounted.mapped idx shadow holds migrating (kept.symm.trans ?_)
            have beside := MMapIndex.close_other now
              ⟨idx.path, shadow.dim, shadow.encoding, [], 0, none⟩ (openedDisk idx.path shadow.dim
                1000 shadow.encoding (promotedDisk now idx shadow store.disk)) apart
            rw [openedDisk_other apart] at beside
            exact (congrArg IndexFiles.rows beside).trans gone
          · exact Nat.not_le.mpr short (fits.2 idx shadow holds migrating empty)
        · rw [if_neg short]
          refine iff_of_true (failsClean_ok ..) ⟨idle, fun other others also present _ => ?_⟩
          rw [only other also, migrating] at present
          cases present
          exact Nat.not_lt.mp short

end

end Store

end Dbx.Engine
