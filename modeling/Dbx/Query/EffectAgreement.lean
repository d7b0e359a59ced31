import Dbx.Engine.CleanFailures
import Dbx.Query.Replica

/-!
# Recovery and replication side by side

Two interpreters of the same effects. They agree on an effect when both install
it with one outcome, or both refuse it and change nothing. Expiry of a key that
is gone, empty batches and operations that are refused behind the opening of an
index are what sets them apart.
-/

set_option autoImplicit false

namespace Dbx.Query

open Dbx.Engine Dbx.Persistence

/-- Both have succeeded with one outcome, or both have failed and changed nothing. -/
def Agree (store : Store) (left right : Except String Unit × Store) : Prop :=
  (left.1 = .ok () ∧ right.1 = .ok () ∧ left.2 = right.2) ∨
    ((∃ message, left.1 = .error message) ∧ (∃ message, right.1 = .error message) ∧
      left.2 = store ∧ right.2 = store)

variable {config : VectorConfig} {now : Int64} {sequence : UInt64} {effect : WALEffect}
  {store : Store}

theorem agree_ok (store after : Store) : Agree store (.ok (), after) (.ok (), after) :=
  .inl ⟨rfl, rfl, rfl⟩

theorem agree_refused (store : Store) (left right : String) :
    Agree store (.error left, store) (.error right, store) :=
  .inr ⟨⟨left, rfl⟩, ⟨right, rfl⟩, rfl, rfl⟩

theorem agree_error_iff {left : String} {right : Except String Unit × Store} :
    Agree store (.error left, store) right ↔
      (∃ message, right.1 = .error message) ∧ right.2 = store := by
  constructor
  · rintro (⟨ok, -⟩ | ⟨-, failed, -, same⟩)
    · cases ok
    · exact ⟨failed, same⟩
  · exact fun ⟨failed, same⟩ => .inr ⟨⟨left, rfl⟩, failed, rfl, same⟩

theorem agree_operation {α : Type} (store : Store) (what : String) (sequence : UInt64)
    (result : Except String α × Store) :
    Agree store (recoveryResult what sequence result) (errorOf result) ↔
      store.FailsClean result := by
  obtain ⟨message | value, after⟩ := result
  · constructor
    · rintro (⟨ok, -⟩ | ⟨-, -, same, -⟩)
      · cases ok
      · exact .inr same
    · rintro (⟨value, ok⟩ | same)
      · cases ok
      · exact .inr ⟨⟨_, rfl⟩, ⟨_, rfl⟩, same, same⟩
  · exact iff_of_true (agree_ok store after) (.inl ⟨value, rfl⟩)

theorem agree_command (store : Store) (what : String) (sequence : UInt64)
    (result : Except String Unit × Store) :
    Agree store (recoveryResult what sequence result) result ↔ store.FailsClean result := by
  have whole : errorOf result = result := by
    obtain ⟨message | _, after⟩ := result <;> rfl
  have operation := agree_operation store what sequence result
  rwa [whole] at operation

def AddReady (config : VectorConfig) (now : Int64) (key id : Bytes) (vec : Vec) (store : Store) :
    Prop :=
  validateVector id vec = .ok () → store.Unopened now key →
    Store.Openable config key vec.length store.disk ∧
      (0 < config.maxVectors →
        ((Store.filedIndex config key vec.length store.disk).rowOf? id).isNone →
        (Store.filedIndex config key vec.length store.disk).count < config.maxVectors)

/-- A batch that is not empty can be added behind the opening of an index. -/
def BatchReady (config : VectorConfig) (now : Int64) (key : Bytes) (dim : Nat)
    (items : List (Bytes × Vec)) (store : Store) : Prop :=
  items.length ≠ 0 → items.length ≤ maxVectorBatch → dim ≠ 0 → dim ≤ maxVectorDimensions →
    Store.validateItems dim items = .ok () → store.Unopened now key →
    Store.Openable config key dim store.disk ∧
      (0 < config.maxVectors → (Store.filedIndex config key dim store.disk).count +
        (Store.newIDs (some (Store.filedIndex config key dim store.disk))
          (items.map Prod.fst)).length ≤ config.maxVectors)

def Replayable (config : VectorConfig) (now : Int64) (effect : WALEffect) (store : Store) : Prop :=
  if effect.type = recordExpire then
    effect.expiresAt ≤ 0 ∨ deadlinePassed now effect.expiresAt ∨
      (store.kv.get now effect.key).isSome
  else if effect.type = recordVAdd then
    AddReady config now effect.key (decodeVAddPayload effect.value).1
      (decodeVAddPayload effect.value).2 store
  else if effect.type = recordVAddBatch then
    ∀ dim items, decodeVAddBatchPayload effect.value = some (dim, items) →
      items ≠ [] ∧ BatchReady config now effect.key dim items store
  else if effect.type = recordVTombstone ∨ effect.type = recordVMigrateCancel then
    store.Unopened now effect.key → Store.Legible config effect.key store.disk
  else if effect.type = recordVMigrateStart then
    ∀ dim encoding, decodeVMigrateStartPayload effect.value = .ok (dim, encoding) →
      (store.Unopened now effect.key → Store.Openable config effect.key 0 store.disk ∧
        shadowFault config effect.key = none ∧
          ∃ known, normalizeVectorEncoding encoding = .ok known) ∧
      ∀ idx known, store.HoldsIndex now effect.key idx → idx.shadow ≠ none →
        normalizeVectorEncoding encoding = .ok known →
          Store.Shadowable config effect.key dim known idx
  else if effect.type = recordVMigrateAdd then ¬ store.Opens now effect.key
  else if effect.type = recordVMigrateSwap then
    (store.Unopened now effect.key → Store.Legible config effect.key store.disk) ∧
      ∀ idx shadow, store.HoldsIndex now effect.key idx → idx.shadow = some shadow →
        shadow.count ≠ 0 → Store.ShadowFits shadow store.disk
  else True

theorem agree_expire (now : Int64) (effect : WALEffect) (store : Store) :
    Agree store (.ok (), recoveryExpire now effect store) (replicatedExpire now effect store) ↔
      effect.expiresAt ≤ 0 ∨ deadlinePassed now effect.expiresAt ∨
        (store.kv.get now effect.key).isSome := by
  unfold recoveryExpire replicatedExpire
  by_cases without : effect.expiresAt ≤ 0
  · rw [if_pos without, if_pos without]
    exact iff_of_true (agree_ok ..) (.inl without)
  rw [if_neg without, if_neg without]
  by_cases passed : deadlinePassed now effect.expiresAt
  · rw [if_pos passed, if_pos passed]
    exact iff_of_true (agree_ok ..) (.inr (.inl passed))
  rw [if_neg passed, if_neg passed]
  cases found : store.kv.get now effect.key with
  | none =>
    simp only [KVStore.expire, found]
    refine iff_of_false ?_ ?_
    · rintro (⟨-, failed, -⟩ | ⟨⟨message, ok⟩, -⟩)
      · cases failed
      · cases ok
    · rintro (none | none | none)
      · exact without none
      · exact passed none
      · cases none
  | some entry =>
    refine iff_of_true ?_ (.inr (.inr rfl))
    have granted : (store.kv.expire now effect.key
        (replaySeconds (remainingTTL now effect.expiresAt))).1 = true := by
      simp only [KVStore.expire, found]
      split <;> rfl
    dsimp only
    generalize store.kv.expire now effect.key
      (replaySeconds (remainingTTL now effect.expiresAt)) = result at granted
    obtain ⟨done, kv⟩ := result
    cases granted
    exact agree_ok ..

theorem validateVector_empty {id : Bytes} {vec : Vec} (empty : id = [] ∨ vec = []) :
    ∃ message, validateVector id vec = .error message := by
  unfold validateVector
  split
  · exact ⟨_, rfl⟩
  rename_i named
  rcases empty with rfl | rfl
  · exact absurd (.inl rfl) named
  · exact ⟨_, rfl⟩

section

variable (config now sequence) (key id : Bytes) (vec : Vec) (message : String)

theorem agree_vAdd (store : Store) :
    Agree store
      (if id = [] ∨ vec = [] then (.error message, store)
        else recoveryResult "vector add" sequence (store.vAdd config now key id vec))
      (store.vAdd config now key id vec) ↔ AddReady config now key id vec store := by
  by_cases empty : id = [] ∨ vec = []
  · obtain ⟨reason, invalid⟩ := validateVector_empty empty
    rw [if_pos empty, Store.vAdd, invalid]
    refine iff_of_true (agree_refused ..) fun valid => ?_
    rw [invalid] at valid
    cases valid
  · rw [if_neg empty]
    exact (agree_command ..).trans (Store.failsClean_vAdd config now key id vec store)

theorem agree_vAddBatch (dim : Nat) (items : List (Bytes × Vec)) (message : String)
    (store : Store) :
    Agree store
      (if dim = 0 ∨ items = [] then (.error message, store)
        else recoveryResult "vector batch" sequence (store.vAddBatch config now key dim items))
      (store.vAddBatch config now key dim items) ↔
        items ≠ [] ∧ BatchReady config now key dim items store := by
  by_cases none : items = []
  · rw [if_pos (.inr none), Store.vAddBatch, if_pos (List.length_eq_zero_iff.mpr none)]
    refine iff_of_false (fun agree => ?_) fun ready => ready.1 none
    obtain ⟨⟨_, failed⟩, -⟩ := agree_error_iff.mp agree
    cases failed
  · by_cases shape : dim = 0
    · rw [if_pos (.inl shape), Store.vAddBatch, if_neg (mt List.length_eq_zero_iff.mp none)]
      refine iff_of_true ?_ ⟨none, fun _ _ some => absurd shape some⟩
      split
      · exact agree_refused ..
      · rw [if_pos (.inl shape)]
        exact agree_refused ..
    · rw [if_neg (not_or.mpr ⟨shape, none⟩)]
      have batch := Store.failsClean_vAddBatch config now key dim items store
      exact (agree_command ..).trans
        (batch.trans ⟨fun ready => ⟨none, ready⟩, fun ready => ready.2⟩)

theorem agree_insertShadowVector (store : Store) :
    Agree store
      (if id = [] ∨ vec = [] then (.error message, store)
        else recoveryResult "migrate add" sequence (store.insertShadowVector config now key id vec))
      (store.insertShadowVector config now key id vec) ↔ ¬ store.Opens now key := by
  have clean := Store.failsClean_insertShadowVector config now key id vec store
  by_cases empty : id = [] ∨ vec = []
  · obtain ⟨reason, invalid⟩ := validateVector_empty empty
    obtain ⟨refusal, failed⟩ := Store.insertShadowVector_invalid config now key invalid store
    rw [if_pos empty, agree_error_iff, ← clean]
    constructor
    · exact fun agree => .inr agree.2
    · rintro (⟨value, ok⟩ | same)
      · rw [failed] at ok
        cases ok
      · exact ⟨⟨refusal, failed⟩, same⟩
  · rw [if_neg empty]
    exact (agree_command ..).trans clean

end

end Dbx.Query
