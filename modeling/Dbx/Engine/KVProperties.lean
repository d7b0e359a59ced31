import Dbx.Engine.KV

/-!
# What the store's operations do to each key
-/

set_option autoImplicit false

namespace Dbx.Engine

variable {Index : Type}

/-- What can be told about a key: its type, its value as a byte string, and its
deadline. -/
structure KeyState (Index : Type) where
  value : Value Index
  type : DataType
  expiresAt : Int64
deriving DecidableEq, Repr

def Value.content : Value Index → Value Index
  | .bytes data => .bytes (some (data.getD []))
  | value => value

def Entry.state (entry : Entry Index) : KeyState Index :=
  ⟨entry.value.content, entry.type, entry.expiresAt⟩

def KeyState.isExpired (now : Int64) (state : KeyState Index) : Bool :=
  state.expiresAt ≠ 0 && state.expiresAt < now

/-- The deadline an entry has once it has been stored with what is left of it. -/
def restoredDeadline (expiresAt : Int64) : Int64 :=
  if 0 < expiresAt then expiresAt else 0

theorem deadline_remainingTTL {now expiresAt : Int64}
    (left : deadlinePassed now expiresAt = false) :
    (if 0 < remainingTTL now expiresAt then now + remainingTTL now expiresAt else 0) =
      restoredDeadline expiresAt := by
  simp only [deadlinePassed, remainingTTL, restoredDeadline, Bool.and_eq_false_iff,
    decide_eq_false_iff_not] at left ⊢
  grind

namespace KVStore

def stored (kv : KVStore Index) (key : Bytes) : Option (KeyState Index) :=
  (kv.data.lookup key).map Entry.state

def keyspace (now : Int64) (kv : KVStore Index) (key : Bytes) : Option (KeyState Index) :=
  (kv.get now key).map Entry.state

theorem keyspace_eq_filter (now : Int64) (kv : KVStore Index) (key : Bytes) :
    kv.keyspace now key = (kv.stored key).filter fun state => !state.isExpired now := by
  unfold keyspace get stored
  cases kv.data.lookup key with
  | none => rfl
  | some entry =>
    have expired : entry.state.isExpired now = entry.isExpired now := rfl
    simp only [Option.filter, Option.map_some, expired]
    split <;> simp_all

@[simp] theorem stored_new (key : Bytes) : (new : KVStore Index).stored key = none := by
  simp [stored, new]

section

variable {key' : Bytes} (now : Int64) (key : Bytes) (value : Value Index) (type : DataType)
  (ttlNano : Int64) (kv : KVStore Index)

@[simp] theorem stored_set_same :
    (kv.set now key value type ttlNano).stored key =
      some ⟨value.content, type, if 0 < ttlNano then now + ttlNano else 0⟩ := by
  simp [stored, set, AList.lookup_insert, Entry.state]

theorem stored_set_remainingTTL {now expiresAt : Int64}
    (left : deadlinePassed now expiresAt = false) :
    (kv.set now key value type (remainingTTL now expiresAt)).stored key =
      some ⟨value.content, type, restoredDeadline expiresAt⟩ := by
  rw [stored_set_same, deadline_remainingTTL left]

@[simp] theorem stored_set_other {key : Bytes} (other : key' ≠ key) :
    (kv.set now key value type ttlNano).stored key' = kv.stored key' := by
  simp [stored, set, AList.lookup_insert_ne other]

@[simp] theorem stored_erase_same : (kv.erase key).stored key = none := by
  simp [stored, erase]

@[simp] theorem stored_erase_other {key : Bytes} (other : key' ≠ key) :
    (kv.erase key).stored key' = kv.stored key' := by
  simp [stored, erase, AList.lookup_erase_ne other]

@[simp] theorem stored_put_same (entry : Entry Index) (kv : KVStore Index) :
    (kv.put key entry).stored key = some entry.state := by
  simp [stored, put, AList.lookup_insert]

@[simp] theorem stored_put_other {key key' : Bytes} (entry : Entry Index) (kv : KVStore Index)
    (other : key' ≠ key) : (kv.put key entry).stored key' = kv.stored key' := by
  simp [stored, put, AList.lookup_insert_ne other]

theorem lookup_snapshot (key : Bytes) : (kv.snapshot now).lookup key = kv.get now key :=
  KeyedStore.lookup_filter _ key kv.data

end

end KVStore

def KeyState.alive (now : Int64) (state : KeyState Index) : Option (KeyState Index) :=
  if state.isExpired now then none else some state

theorem KeyState.alive_of_ahead {now : Int64} {state : KeyState Index}
    (ahead : state.expiresAt = 0 ∨ now ≤ state.expiresAt) : state.alive now = some state := by
  have live : state.isExpired now = false := by
    simp only [KeyState.isExpired, Bool.and_eq_false_iff, decide_eq_false_iff_not, ne_eq,
      decide_not, Bool.not_eq_false', decide_eq_true_eq, Int64.not_lt]
    exact ahead
  unfold KeyState.alive
  rw [live]
  rfl

namespace KVStore

variable {now : Int64} {kv : KVStore Index} {key : Bytes}

theorem keyspace_of_stored {state : KeyState Index} (found : kv.stored key = some state) :
    kv.keyspace now key = state.alive now := by
  rw [keyspace_eq_filter, found]
  cases expired : state.isExpired now <;> simp [KeyState.alive, Option.filter, expired]

theorem keyspace_of_stored_none (absent : kv.stored key = none) : kv.keyspace now key = none := by
  rw [keyspace_eq_filter, absent]
  rfl

variable {kv' : KVStore Index}

theorem keyspace_congr (same : kv'.stored key = kv.stored key) :
    kv'.keyspace now key = kv.keyspace now key := by
  rw [keyspace_eq_filter, keyspace_eq_filter, same]

theorem exists_eq_isSome_keyspace (now : Int64) (key : Bytes) (kv : KVStore Index) :
    kv.exists now key = (kv.keyspace now key).isSome := by
  simp [KVStore.exists, keyspace]

/-- As seen at an instant, one key has a new state and the others keep theirs. -/
structure Alters (now : Int64) (key : Bytes) (state : Option (KeyState Index))
    (kv kv' : KVStore Index) : Prop where
  same : kv'.keyspace now key = state
  other : ∀ key', key' ≠ key → kv'.keyspace now key' = kv.keyspace now key'

theorem Alters.refl (now : Int64) (key : Bytes) (kv : KVStore Index) :
    Alters now key (kv.keyspace now key) kv kv :=
  ⟨rfl, fun _ _ => rfl⟩

theorem Alters.of_stored {state : KeyState Index} (same : kv'.stored key = some state)
    (other : ∀ key', key' ≠ key → kv'.stored key' = kv.stored key') :
    Alters now key (state.alive now) kv kv' :=
  ⟨keyspace_of_stored same, fun key' different => keyspace_congr (other key' different)⟩

variable {kv'' : KVStore Index}

theorem Alters.agree_iff {left right : Option (KeyState Index)} (first : Alters now key left kv kv')
    (second : Alters now key right kv kv'') :
    (∀ key', kv'.keyspace now key' = kv''.keyspace now key') ↔ left = right := by
  constructor
  · intro agree
    rw [← first.same, ← second.same]
    exact agree key
  · rintro rfl key'
    by_cases same : key' = key
    · rw [same, first.same, second.same]
    · rw [first.other key' same, second.other key' same]

theorem Alters.trans {left right : Option (KeyState Index)} (first : Alters now key left kv kv')
    (second : Alters now key right kv' kv'') : Alters now key right kv kv'' :=
  ⟨second.same, fun key' different =>
    (second.other key' different).trans (first.other key' different)⟩

theorem alters_set (now : Int64) (key : Bytes) (value : Value Index) (type : DataType)
    (ttlNano : Int64) (kv : KVStore Index) :
    Alters now key (KeyState.alive now
      ⟨value.content, type, if 0 < ttlNano then now + ttlNano else 0⟩) kv
      (kv.set now key value type ttlNano) :=
  .of_stored (stored_set_same ..) fun _ different => stored_set_other now _ _ _ _ different

theorem alters_put (now : Int64) (key : Bytes) (entry : Entry Index) (kv : KVStore Index) :
    Alters now key (entry.state.alive now) kv (kv.put key entry) :=
  .of_stored (stored_put_same ..) fun _ different => stored_put_other _ _ different

variable {entry : Entry Index}

theorem get_put_same (key : Bytes) (live : entry.isExpired now = false) (kv : KVStore Index) :
    (kv.put key entry).get now key = some entry := by
  simp [get, put, live]

/-- As time goes by an entry stays what it is until it is gone. -/
theorem get_later {start : Int64} (passes : start ≤ now) (key : Bytes) (kv : KVStore Index) :
    kv.get now key = kv.get start key ∨ kv.get now key = none := by
  unfold get
  cases kv.data.lookup key with
  | none => exact Or.inr (Option.filter_none _)
  | some entry =>
    rw [Option.filter_some, Option.filter_some]
    cases expired : entry.isExpired now with
    | true => exact Or.inr (if_neg (by decide))
    | false =>
      have before : entry.isExpired start = false := by
        unfold Entry.isExpired at expired ⊢
        grind
      rw [before]
      exact Or.inl rfl

theorem get_earlier {start : Int64} (passes : start ≤ now) (found : kv.get now key = some entry) :
    kv.get start key = some entry := by
  rcases get_later passes key kv with same | gone
  · rw [← same, found]
  · cases gone.symm.trans found

theorem alters_erase (now : Int64) (key : Bytes) (kv : KVStore Index) :
    Alters now key none kv (kv.erase key) :=
  ⟨keyspace_of_stored_none (stored_erase_same key kv), fun _ different =>
    keyspace_congr (stored_erase_other kv different)⟩

theorem Alters.of_data {state : Option (KeyState Index)} (alters : Alters now key state kv kv')
    (data : kv''.data = kv'.data) : Alters now key state kv kv'' := by
  have same : ∀ key', kv''.keyspace now key' = kv'.keyspace now key' := by
    intro key'
    simp only [keyspace, get, data]
  exact ⟨(same key).trans alters.same, fun key' different =>
    (same key').trans (alters.other key' different)⟩

theorem getForWrite_some (found : kv.get now key = some entry) :
    kv.getForWrite now key = (some entry, kv) := by
  obtain ⟨present, live⟩ := Option.filter_eq_some_iff.mp found
  unfold getForWrite
  rw [present]
  simp only [Bool.not_eq_true'] at live
  simp [live]

theorem getForWrite_none (absent : kv.get now key = none) :
    ∃ kv', kv.getForWrite now key = (none, kv') ∧ Alters now key none kv kv' := by
  unfold getForWrite
  cases present : kv.data.lookup key with
  | none =>
    refine ⟨kv, rfl, ?_⟩
    have unseen : kv.keyspace now key = none := by rw [keyspace, absent]; rfl
    exact unseen ▸ Alters.refl now key kv
  | some entry =>
    have expired : entry.isExpired now = true := by
      rw [get, present, Option.filter_eq_none_iff] at absent
      simpa using absent entry rfl
    exact ⟨kv.erase key, by simp [expired, erase], alters_erase now key kv⟩

theorem alters_expire (found : kv.get now key = some entry) (seconds : Int64) :
    (kv.expire now key seconds).1 = true ∧
      Alters now key (if seconds ≤ 0 then none
        else KeyState.alive now { entry.state with expiresAt := now + seconds * second }) kv
        (kv.expire now key seconds).2 := by
  unfold expire
  rw [found]
  by_cases ended : seconds ≤ 0
  · simp only [ended, if_true]
    exact ⟨trivial, alters_erase now key kv⟩
  simp only [ended, if_false]
  exact ⟨trivial, (alters_put now key { entry with
    expiresAt := now + seconds * second, version := kv.version + 1 } kv).of_data rfl⟩

theorem expire_none (absent : kv.get now key = none) (seconds : Int64) :
    kv.expire now key seconds = (false, kv) := by
  unfold expire
  rw [absent]

theorem alters_persist (found : kv.get now key = some entry) :
    Alters now key (some { entry.state with expiresAt := 0 }) kv (kv.persist now key).2 := by
  unfold persist
  rw [found]
  by_cases forever : entry.expiresAt = 0
  · simp only [forever, if_true]
    have seen : kv.keyspace now key = some { entry.state with expiresAt := 0 } := by
      rw [keyspace, found, ← forever]
      rfl
    exact seen ▸ Alters.refl now key kv
  · simp only [forever, if_false]
    exact alters_put now key { entry with expiresAt := 0 } kv

theorem persist_none (absent : kv.get now key = none) : kv.persist now key = (false, kv) := by
  unfold persist
  rw [absent]

end KVStore

end Dbx.Engine
