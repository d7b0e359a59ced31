import Dbx.Engine.VectorStoreProperties
import Dbx.Persistence.LogProperties
import Dbx.Persistence.Recovery

/-!
# Loading images and replaying effects, key by key
-/

set_option autoImplicit false

namespace Dbx.Persistence

open Dbx.Engine

/-- What loading an image at `now` makes of an entry that was saved in it. -/
def loadedState (now : Int64) (entry : WireEntry) : Option (KeyState MMapVectorIndex) :=
  if deadlinePassed now entry.expiresAt then none
  else some ⟨(gobValue entry.value).content, entry.type, restoredDeadline entry.expiresAt⟩

theorem gobValue_content (value : Value MMapVectorIndex) :
    (gobValue value).content = value.content := by
  unfold gobValue
  split <;> rfl

theorem stored_loadEntry_same (now : Int64) (kv : KVStore MMapVectorIndex) (key : Bytes)
    (entry : WireEntry) :
    (loadEntry now kv key entry).stored key = (loadedState now entry).or (kv.stored key) := by
  unfold loadEntry loadedState
  cases passed : deadlinePassed now entry.expiresAt with
  | true => rfl
  | false => exact KVStore.stored_set_remainingTTL key _ _ kv passed

theorem stored_loadEntry_other (now : Int64) (kv : KVStore MMapVectorIndex) {key key' : Bytes}
    (entry : WireEntry) (other : key' ≠ key) :
    (loadEntry now kv key entry).stored key' = kv.stored key' := by
  unfold loadEntry
  split
  · rfl
  · exact KVStore.stored_set_other now _ _ _ _ other

theorem stored_loaded (now : Int64) {image : SnapshotImage} (version : image.version = 2) :
    ∃ loaded, loadWithHeader now image .new = .ok loaded ∧
      ∀ key, loaded.stored key = (image.entries.lookup key).bind (loadedState now) := by
  refine ⟨_, by rw [loadWithHeader, if_neg (not_not.mpr version)], fun key => ?_⟩
  rw [KeyedStore.foldl_observed KVStore.stored (loadEntry now)
    (fun _ entry old => (loadedState now entry).or old)
    (fun kv key entry => stored_loadEntry_same now kv key entry)
    (fun kv key entry key' other => stored_loadEntry_other now kv entry other)
    image.entries.nodupKeys]
  have found : List.dlookup key image.entries.entries = image.entries.lookup key := rfl
  rw [found]
  cases image.entries.lookup key with
  | none => simp
  | some entry => simp

theorem lookup_imageOf (saved : Int64) (kv : KVStore MMapVectorIndex) (sequence : UInt64)
    (seals : List IndexSeal) (key : Bytes) :
    (imageOf saved kv sequence seals).entries.lookup key = (kv.get saved key).map toWireEntry := by
  rw [← KVStore.lookup_snapshot]
  exact KeyedStore.lookup_mapValues toWireEntry key (kv.snapshot saved)

theorem stored_loadWithHeader (saved now : Int64) (kv : KVStore MMapVectorIndex)
    (sequence : UInt64) (seals : List IndexSeal) :
    ∃ loaded, loadWithHeader now (imageOf saved kv sequence seals) .new = .ok loaded ∧
      ∀ key, loaded.stored key =
        (kv.get saved key).bind fun entry => loadedState now (toWireEntry entry) := by
  obtain ⟨loaded, success, states⟩ :=
    @stored_loaded now (imageOf saved kv sequence seals) rfl
  refine ⟨loaded, success, fun key => ?_⟩
  rw [states key, lookup_imageOf, Option.bind_map]
  rfl

theorem replaySuffix_holds {enc : Option Encryptor} {installed : UInt64} {entries : List LogEntry}
    {wal : WAL} (holds : wal.Holds enc installed entries) :
    replaySuffix installed (entries.map LogEntry.record) = entries.map LogEntry.record := by
  unfold replaySuffix
  rw [List.filter_eq_self]
  intro rec member
  obtain ⟨entry, found, rfl⟩ := List.mem_map.mp member
  simpa using holds.beyond entry found

theorem sliceOf_content (value : Bytes) : (sliceOf value).content = .bytes (some value) := by
  unfold sliceOf
  split <;> simp_all [Value.content]

theorem restoredDeadline_ahead {now expiresAt : Int64} :
    0 ≤ now → deadlinePassed now expiresAt = false →
      restoredDeadline expiresAt = 0 ∨ now < restoredDeadline expiresAt := by
  intro clock left
  simp only [deadlinePassed, restoredDeadline, Bool.and_eq_false_iff,
    decide_eq_false_iff_not] at left ⊢
  grind

theorem alive_restoredDeadline {now expiresAt : Int64} (clock : 0 ≤ now)
    (left : deadlinePassed now expiresAt = false) (value : Value MMapVectorIndex)
    (type : DataType) :
    KeyState.alive now ⟨value, type, restoredDeadline expiresAt⟩ =
      some ⟨value, type, restoredDeadline expiresAt⟩ := by
  apply KeyState.alive_of_ahead
  rcases restoredDeadline_ahead clock left with none | later
  · exact Or.inl none
  · exact Or.inr (Int64.le_of_lt later)

theorem applyRecoveredEffect_set {effect : WALEffect} (type : effect.type = recordSet)
    (config : VectorConfig) (now : Int64) (sequence : UInt64) (store : Store) :
    applyRecoveredEffect config now sequence effect store =
      (.ok (), recoverySet now effect store) := by
  unfold applyRecoveredEffect
  rw [if_pos type]

theorem applyRecoveredEffect_delete {effect : WALEffect} (type : effect.type = recordDelete)
    (config : VectorConfig) (now : Int64) (sequence : UInt64) (store : Store) :
    applyRecoveredEffect config now sequence effect store =
      (.ok (), store.delete1 now effect.key) := by
  unfold applyRecoveredEffect
  rw [type, if_neg (by decide), if_pos rfl]

theorem applyRecoveredEffect_expire {effect : WALEffect} (type : effect.type = recordExpire)
    (config : VectorConfig) (now : Int64) (sequence : UInt64) (store : Store) :
    applyRecoveredEffect config now sequence effect store =
      (.ok (), recoveryExpire now effect store) := by
  unfold applyRecoveredEffect
  rw [type, if_neg (by decide), if_neg (by decide), if_pos rfl]

def replayedState (now expiresAt : Int64) (value : Bytes) : Option (KeyState MMapVectorIndex) :=
  if deadlinePassed now expiresAt then none
  else some ⟨.bytes (some value), .string, restoredDeadline expiresAt⟩

theorem alters_recoverySet {now : Int64} (clock : 0 ≤ now) (effect : WALEffect) (store : Store) :
    KVStore.Alters now effect.key (replayedState now effect.expiresAt effect.value) store.kv
      (recoverySet now effect store).kv := by
  unfold recoverySet replayedState
  cases passed : deadlinePassed now effect.expiresAt with
  | true =>
    simp only [if_true, Store.delete1_kv]
    exact KVStore.alters_erase now effect.key store.kv
  | false =>
    have alters := KVStore.alters_set now effect.key (sliceOf effect.value) .string
      (remainingTTL now effect.expiresAt) store.kv
    rw [deadline_remainingTTL passed, sliceOf_content,
      alive_restoredDeadline clock passed] at alters
    exact alters

theorem alters_delete1 (now : Int64) (key : Bytes) (store : Store) :
    KVStore.Alters now key none store.kv (store.delete1 now key).kv := by
  rw [Store.delete1_kv]
  exact KVStore.alters_erase now key store.kv

def replayedExpiry (now expiresAt : Int64) (state : KeyState MMapVectorIndex) :
    Option (KeyState MMapVectorIndex) :=
  if expiresAt ≤ 0 then some { state with expiresAt := 0 }
  else if deadlinePassed now expiresAt then none
  else KeyState.alive now { state with
    expiresAt := now + replaySeconds (remainingTTL now expiresAt) * second }

theorem replaySeconds_pos (remaining : Int64) : ¬ replaySeconds remaining ≤ 0 := by
  unfold replaySeconds
  split <;> grind

theorem alters_recoveryExpire {now : Int64} (effect : WALEffect) (store : Store) :
    KVStore.Alters now effect.key
      ((store.kv.keyspace now effect.key).bind (replayedExpiry now effect.expiresAt)) store.kv
      (recoveryExpire now effect store).kv := by
  unfold recoveryExpire
  cases found : store.kv.get now effect.key with
  | none =>
    have unseen : store.kv.keyspace now effect.key = none := by
      rw [KVStore.keyspace, found]
      rfl
    rw [unseen, Option.bind_none]
    have refl := unseen ▸ KVStore.Alters.refl now effect.key store.kv
    by_cases cleared : effect.expiresAt ≤ 0
    · simp only [cleared, if_true, KVStore.persist_none found]
      exact refl
    cases passed : deadlinePassed now effect.expiresAt with
    | true =>
      simp only [cleared, if_false, if_true]
      exact alters_delete1 now effect.key store
    | false =>
      simp only [cleared, if_false, KVStore.expire_none found, Bool.false_eq_true]
      exact refl
  | some entry =>
    have seen : store.kv.keyspace now effect.key = some entry.state := by
      rw [KVStore.keyspace, found]
      rfl
    rw [seen, Option.bind_some]
    unfold replayedExpiry
    by_cases cleared : effect.expiresAt ≤ 0
    · simp only [cleared, if_true]
      exact KVStore.alters_persist found
    cases passed : deadlinePassed now effect.expiresAt with
    | true =>
      simp only [cleared, if_false, if_true]
      exact alters_delete1 now effect.key store
    | false =>
      have alters := (KVStore.alters_expire found
        (replaySeconds (remainingTTL now effect.expiresAt))).2
      rw [if_neg (replaySeconds_pos _)] at alters
      simp only [cleared, if_false, Bool.false_eq_true]
      exact alters

end Dbx.Persistence
