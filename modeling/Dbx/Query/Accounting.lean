import Dbx.Query.ReplayAgreement

/-!
# What the accounted memory says about strings

A durable string command accounts for the effects it has predicted. Here is what
it makes of every key, set against the last effect on that key, and what follows
for the sums over all keys.
-/

set_option autoImplicit false

namespace Dbx.Query

open Dbx.Engine Dbx.Persistence Dbx.Protocol

def stringCharge (key : Bytes) (entry : Entry MMapVectorIndex) : Int :=
  if entry.type = .string then (key.length + 96 + entry.value.length : Nat) else 0

def stringMemory (now : Int64) (kv : KVStore MMapVectorIndex) : Int :=
  ((kv.data.entries.filter fun entry => !entry.2.isExpired now).map fun entry =>
    stringCharge entry.1 entry.2).sum

def storedMemory (kv : KVStore MMapVectorIndex) : Int :=
  KeyedStore.total stringCharge kv.data

theorem stringMemory_eq_total (now : Int64) (kv : KVStore MMapVectorIndex) :
    stringMemory now kv = KeyedStore.total stringCharge (kv.snapshot now) := rfl

def stateCharge (key : Bytes) : Option (KeyState MMapVectorIndex) → Int
  | none => 0
  | some state => if state.type = .string then (key.length + 96 + state.value.length : Nat) else 0

theorem content_length (value : Value MMapVectorIndex) : value.content.length = value.length := by
  cases value <;> rfl

theorem stateCharge_state (key : Bytes) (entry : Entry MMapVectorIndex) :
    stateCharge key (some entry.state) = stringCharge key entry := by
  simp only [stateCharge, stringCharge, Entry.state, content_length]

theorem stateCharge_nonneg (key : Bytes) (state : Option (KeyState MMapVectorIndex)) :
    0 ≤ stateCharge key state := by
  cases state with
  | none => exact Int.le_refl 0
  | some state =>
    simp only [stateCharge]
    split
    · exact Int.natCast_nonneg _
    · exact Int.le_refl 0

theorem charged_lookup (key : Bytes) (data : AList fun _ : Bytes => Entry MMapVectorIndex) :
    KeyedStore.charged stringCharge data key =
      stateCharge key ((data.lookup key).map Entry.state) := by
  unfold KeyedStore.charged
  cases data.lookup key with
  | none => rfl
  | some entry => exact (stateCharge_state key entry).symm

theorem charged_stored (key : Bytes) (kv : KVStore MMapVectorIndex) :
    KeyedStore.charged stringCharge kv.data key = stateCharge key (kv.stored key) :=
  charged_lookup key kv.data

theorem charged_snapshot (now : Int64) (key : Bytes) (kv : KVStore MMapVectorIndex) :
    KeyedStore.charged stringCharge (kv.snapshot now) key =
      stateCharge key (kv.keyspace now key) := by
  rw [charged_lookup, KVStore.lookup_snapshot]
  rfl

def HoldsStrings (kv : KVStore MMapVectorIndex) : Prop :=
  ∀ key state, kv.stored key = some state →
    state.type = .string ∧ ∃ data, state.value = .bytes (some data)

variable {kv : KVStore MMapVectorIndex} {now : Int64} {key : Bytes}

theorem HoldsStrings.of_get (strings : HoldsStrings kv) {entry : Entry MMapVectorIndex}
    (found : kv.get now key = some entry) :
    entry.type = .string ∧ ∃ data, entry.value = .bytes data := by
  obtain ⟨present, _⟩ := Option.filter_eq_some_iff.mp found
  obtain ⟨type, data, value⟩ := strings key entry.state (by rw [KVStore.stored, present]; rfl)
  refine ⟨type, ?_⟩
  cases held : entry.value with
  | bytes data => exact ⟨data, rfl⟩
  | index | other | nil => simp [Entry.state, held, Value.content] at value

theorem HoldsStrings.state_of_get (strings : HoldsStrings kv) {entry : Entry MMapVectorIndex}
    (found : kv.get now key = some entry) :
    ∃ data, stringState now key kv = .valid data entry.expiresAt ∧
      entry.value.length = data.length := by
  obtain ⟨type, data, value⟩ := strings.of_get found
  exact ⟨data.getD [], by simp [stringState, found, StringState.ofEntry, type, value],
    by rw [value]; rfl⟩

theorem HoldsStrings.valid (strings : HoldsStrings kv) (now : Int64) (key : Bytes) :
    stringState now key kv ≠ .invalid := by
  unfold stringState
  cases found : kv.get now key with
  | none => exact fun invalid => by cases invalid
  | some entry =>
    obtain ⟨type, data, value⟩ := strings.of_get found
    simp [StringState.ofEntry, type, value]

def liveCharge (now : Int64) (key : Bytes) (state : Option (KeyState MMapVectorIndex)) : Int :=
  stateCharge key (state.filter fun state => !state.isExpired now)

theorem liveCharge_none (now : Int64) (key : Bytes) : liveCharge now key none = 0 := rfl

theorem liveCharge_le (now : Int64) (key : Bytes) (state : Option (KeyState MMapVectorIndex)) :
    liveCharge now key state ≤ stateCharge key state := by
  cases state with
  | none => exact Int.le_refl _
  | some state =>
    unfold liveCharge
    by_cases expired : state.isExpired now = true
    · simp only [Option.filter, expired, Bool.not_true, Bool.false_eq_true, if_false]
      exact stateCharge_nonneg key (some state)
    · simp [Option.filter, expired]

theorem liveCharge_live {state : KeyState MMapVectorIndex} (live : state.isExpired now = false)
    (key : Bytes) :
    liveCharge now key (some state) = stateCharge key (some state) := by
  simp [liveCharge, Option.filter, live]

def addedCharge (key : Bytes) (effect : WALEffect) : Int :=
  if effect.type = recordSet then (key.length + effect.value.length + 96 : Nat) else 0

theorem effectGrowth_eq (strings : HoldsStrings kv) (key : Bytes) (effect : WALEffect) :
    effectGrowth now kv key effect =
      addedCharge key effect - liveCharge now key (kv.stored key) := by
  have freed : liveCharge now key (kv.stored key) = stateCharge key (kv.keyspace now key) := by
    rw [liveCharge, KVStore.keyspace_eq_filter]
  rw [freed, KVStore.keyspace]
  unfold effectGrowth addedCharge
  cases found : kv.get now key with
  | none => rfl
  | some entry =>
    obtain ⟨type, _⟩ := strings.of_get found
    simp only [Option.map_some, stateCharge_state, stringCharge, type, if_true]
    push_cast
    ring

variable {effect : WALEffect}

theorem stateCharge_installed (key : Bytes) (set : effect.type = recordSet) (deadline : Int64) :
    stateCharge key (some ⟨.bytes (some effect.value), .string, deadline⟩) =
      addedCharge key effect := by
  simp only [stateCharge, addedCharge, set, if_true, Value.length, Option.getD_some]
  push_cast
  omega

theorem addedCharge_put (key value : Bytes) (expiresAt : Int64) :
    addedCharge key (put key value expiresAt) = (key.length + value.length + 96 : Nat) := rfl

theorem addedCharge_deleted (key : Bytes) (delete : effect.type = recordDelete) :
    addedCharge key effect = 0 := by
  have unset : ¬ recordDelete = recordSet := by decide
  rw [addedCharge, delete, if_neg unset]

def HeldString (state : Option (KeyState MMapVectorIndex)) : Prop :=
  ∀ held, state = some held → held.type = .string ∧ ∃ data, held.value = .bytes (some data)

/-- What becomes of a key whose last effect is known. Without one it keeps its value, unless it was
expired. A command that is cut off, as when its key lapses behind the preparation of the effects,
leaves no more than is booked. -/
inductive Settled (start now : Int64) (key : Bytes) (cut : Prop) : Option WALEffect →
    Option (KeyState MMapVectorIndex) → Option (KeyState MMapVectorIndex) → Prop where
  | installed {effect : WALEffect} {before : Option (KeyState MMapVectorIndex)}
      (set : effect.type = recordSet) (deadline : Int64) :
      Settled start now key cut (some effect) before
        (some ⟨.bytes (some effect.value), .string, deadline⟩)
  | deleted {effect : WALEffect} {before : Option (KeyState MMapVectorIndex)}
      (delete : effect.type = recordDelete) : Settled start now key cut (some effect) before none
  | kept {before : Option (KeyState MMapVectorIndex)} : Settled start now key cut none before before
  | redated {before : KeyState MMapVectorIndex} (live : before.isExpired start = false)
      (deadline : Int64) :
      Settled start now key cut none (some before) (some { before with expiresAt := deadline })
  | dropped {before : Option (KeyState MMapVectorIndex)}
      (dead : ∀ state, before = some state → state.isExpired start = true) :
      Settled start now key cut none before none
  | cutOff {effect : Option WALEffect} {before after : Option (KeyState MMapVectorIndex)}
      (off : cut) (string : HeldString after)
      (room : liveCharge now key after ≤
        effect.elim (liveCharge start key before) (addedCharge key)) :
      Settled start now key cut effect before after

theorem isExpired_later {earlier later : Int64} (passes : earlier ≤ later)
    {state : KeyState MMapVectorIndex} (expired : state.isExpired earlier = true) :
    state.isExpired later = true := by
  unfold KeyState.isExpired at expired ⊢
  grind

theorem liveCharge_expired {state : KeyState MMapVectorIndex}
    (expired : state.isExpired now = true) (key : Bytes) : liveCharge now key (some state) = 0 := by
  rw [liveCharge, Option.filter_some, expired]
  rfl

theorem liveCharge_later {earlier later : Int64} (passes : earlier ≤ later) (key : Bytes)
    (state : Option (KeyState MMapVectorIndex)) :
    liveCharge later key state ≤ liveCharge earlier key state := by
  cases state with
  | none => rw [liveCharge_none, liveCharge_none]
  | some state =>
    cases expired : state.isExpired earlier with
    | false =>
      rw [liveCharge_live expired]
      exact liveCharge_le later key _
    | true =>
      rw [liveCharge_expired expired, liveCharge_expired (isExpired_later passes expired)]

section Growth

variable {start now : Int64} {cut : Prop} {kv : KVStore MMapVectorIndex} {key : Bytes}
  {effect : Option WALEffect} {after : Option (KeyState MMapVectorIndex)}

theorem Settled.strings (settled : Settled start now key cut effect (kv.stored key) after)
    (strings : HoldsStrings kv) : HeldString after := by
  generalize stored : kv.stored key = before at settled
  cases settled with
  | installed set deadline =>
    intro state same
    cases same
    exact ⟨rfl, _, rfl⟩
  | deleted | dropped =>
    intro state same
    cases same
  | kept => exact fun state same => strings key state (stored.trans same)
  | redated live deadline =>
    intro state same
    cases same
    obtain ⟨type, data, value⟩ := strings key _ stored
    exact ⟨type, data, value⟩
  | cutOff _ string => exact string

theorem Settled.growth_bounds (settled : Settled start now key cut effect (kv.stored key) after)
    (passes : start ≤ now) (strings : HoldsStrings kv) :
    liveCharge now key after ≤
      liveCharge start key (kv.stored key) + effect.elim 0 (effectGrowth start kv key) := by
  generalize stored : kv.stored key = before at settled ⊢
  cases settled with
  | @installed effect _ set deadline =>
    have bound := liveCharge_le now key
      (some (⟨.bytes (some effect.value), .string, deadline⟩ : KeyState MMapVectorIndex))
    rw [stateCharge_installed key set] at bound
    rw [Option.elim_some, effectGrowth_eq strings, stored]
    omega
  | deleted delete =>
    rw [Option.elim_some, effectGrowth_eq strings, stored, addedCharge_deleted key delete]
    simp [liveCharge, stateCharge]
  | kept => simpa using liveCharge_later passes key _
  | redated live deadline =>
    rw [liveCharge_live live, Option.elim_none, Int.add_zero]
    exact liveCharge_le now key _
  | dropped dead =>
    rw [Option.elim_none, Int.add_zero]
    exact stateCharge_nonneg key _
  | cutOff off string room =>
    cases effect with
    | none => simpa using room
    | some effect =>
      rw [Option.elim_some] at room ⊢
      rw [effectGrowth_eq strings, stored]
      omega

theorem Settled.growth_reaches (settled : Settled start now key cut effect (kv.stored key) after)
    (strings : HoldsStrings kv) (uncut : ¬ cut)
    (live : ∀ state, kv.stored key = some state → state.isExpired start = false) :
    stateCharge key (kv.stored key) + effect.elim 0 (effectGrowth start kv key) ≤
      stateCharge key after := by
  have same : liveCharge start key (kv.stored key) = stateCharge key (kv.stored key) := by
    cases stored : kv.stored key with
    | none => rfl
    | some state => exact liveCharge_live (live state stored) key
  generalize stored : kv.stored key = before at settled same live ⊢
  cases settled with
  | installed set deadline =>
    rw [Option.elim_some, effectGrowth_eq strings, stored, same, stateCharge_installed key set]
    omega
  | deleted delete =>
    rw [Option.elim_some, effectGrowth_eq strings, stored, same, addedCharge_deleted key delete]
    simp [stateCharge]
  | kept => simp
  | redated _ deadline => simp [stateCharge]
  | dropped dead =>
    cases before with
    | none => simp [stateCharge]
    | some state =>
      have alive := live state rfl
      rw [dead state rfl] at alive
      cases alive
  | cutOff off => exact absurd off uncut

end Growth

theorem finalEffects_nil : finalEffects [] = ∅ := rfl

theorem finalEffects_snoc (counts : effect.type = recordSet ∨ effect.type = recordDelete)
    (effects : List WALEffect) :
    finalEffects (effects ++ [effect]) = (finalEffects effects).insert effect.key effect := by
  rw [finalEffects, List.foldl_append, List.foldl_cons, List.foldl_nil, if_pos counts]
  rfl

theorem lookup_finalEffects_snoc (counts : effect.type = recordSet ∨ effect.type = recordDelete)
    (effects : List WALEffect) (key : Bytes) :
    (finalEffects (effects ++ [effect])).lookup key =
      if key = effect.key then some effect else (finalEffects effects).lookup key := by
  rw [finalEffects_snoc counts]
  split
  · rename_i same
    rw [same, AList.lookup_insert]
  · rename_i other
    rw [AList.lookup_insert_ne other]

theorem lookup_finalEffects_put (key : Bytes) (value : Bytes) (expiresAt : Int64) (key' : Bytes) :
    (finalEffects [put key value expiresAt]).lookup key' =
      if key' = key then some (put key value expiresAt) else none :=
  lookup_finalEffects_snoc (Or.inl rfl) [] key'

theorem lookup_finalEffects_move (key newKey value : Bytes) (expiresAt : Int64) (other : Bytes) :
    (finalEffects [put newKey value expiresAt, deletion key]).lookup other =
      if other = key then some (deletion key)
      else if other = newKey then some (put newKey value expiresAt) else none := by
  have final := lookup_finalEffects_snoc (Or.inr rfl : (deletion key).type = recordSet ∨ _)
    [put newKey value expiresAt] other
  rw [lookup_finalEffects_put] at final
  exact final

theorem lookup_finalEffects_deletions (keys : List Bytes) (key : Bytes) :
    (finalEffects (keys.map deletion)).lookup key =
      if key ∈ keys then some (deletion key) else none := by
  induction keys using List.reverseRecOn with
  | nil => simp [finalEffects_nil]
  | append_singleton keys last ih =>
    rw [List.map_append, List.map_singleton, lookup_finalEffects_snoc (Or.inr rfl), ih]
    by_cases same : key = last
    · simp [same, deletion]
    · simp [same, deletion]

/-- The map of `MSET` and its last effects hold the same values. -/
theorem lookup_finalEffects_pairs (pairs : List (Bytes × Option Bytes)) (key : Bytes) :
    (finalEffects (pairs.map fun pair => put pair.1 (pair.2.getD []) 0)).lookup key =
      ((pairs.foldl (fun pairs pair => pairs.insert pair.1 pair.2)
        (∅ : AList fun _ : Bytes => Option Bytes)).lookup key).map
          fun value => put key (value.getD []) 0 := by
  induction pairs using List.reverseRecOn with
  | nil => simp [finalEffects_nil]
  | append_singleton pairs last ih =>
    rw [List.map_append, List.map_singleton, lookup_finalEffects_snoc (Or.inl rfl), ih,
      List.foldl_append, List.foldl_cons, List.foldl_nil]
    by_cases same : key = last.1
    · rw [same, AList.lookup_insert]
      simp [put]
    · rw [AList.lookup_insert_ne same]
      simp [same, put]

structure Settles (start now : Int64) (cut : Prop) (effects : List WALEffect)
    (kv kv' : KVStore MMapVectorIndex) : Prop where
  each : ∀ key, Settled start now key cut ((finalEffects effects).lookup key) (kv.stored key)
    (kv'.stored key)

section Commands

variable {start now : Int64} {cut : Prop} {kv kv' : KVStore MMapVectorIndex} {key : Bytes}

theorem Settles.idle {effects : List WALEffect} (unset : finalEffects effects = ∅) :
    Settles start now cut effects kv kv := by
  constructor
  intro key
  rw [unset, AList.lookup_empty]
  exact .kept

theorem Settles.refl (start now : Int64) (cut : Prop) (kv : KVStore MMapVectorIndex) :
    Settles start now cut [] kv kv :=
  .idle finalEffects_nil

theorem Settles.unset {effects : List WALEffect} (unset : finalEffects effects = ∅)
    (same : Settled start now key cut none (kv.stored key) (kv'.stored key))
    (other : ∀ key', key' ≠ key → kv'.stored key' = kv.stored key') :
    Settles start now cut effects kv kv' := by
  constructor
  intro key'
  rw [unset, AList.lookup_empty]
  by_cases equal : key' = key
  · rw [equal]
    exact same
  · rw [other key' equal]
    exact .kept

theorem Settles.set {value : Bytes} {expiresAt : Int64}
    (same : Settled start now key cut (some (put key value expiresAt)) (kv.stored key)
      (kv'.stored key))
    (other : ∀ key', key' ≠ key → kv'.stored key' = kv.stored key') :
    Settles start now cut [put key value expiresAt] kv kv' := by
  constructor
  intro key'
  rw [lookup_finalEffects_put]
  by_cases equal : key' = key
  · rw [if_pos equal, equal]
    exact same
  · rw [if_neg equal, other key' equal]
    exact .kept

theorem settles_set (start now : Int64) (cut : Prop) (key : Bytes) (value : Option Bytes)
    (expiresAt ttlNano : Int64) (kv : KVStore MMapVectorIndex) :
    Settles start now cut [Query.put key (value.getD []) expiresAt] kv
      (kv.set now key (.bytes value) .string ttlNano) := by
  refine .set ?_ fun _ different => KVStore.stored_set_other now _ _ _ _ different
  rw [KVStore.stored_set_same]
  exact .installed rfl _

/-- What the account holds for the value under a key once the effects are booked. -/
def bookedLength (effects : List WALEffect) (old : Entry MMapVectorIndex) : Nat :=
  match effects with
  | [effect] => effect.value.length
  | _ => old.value.length

theorem stored_of_get {entry : Entry MMapVectorIndex} (found : kv.get now key = some entry) :
    kv.stored key = some entry.state ∧ entry.state.isExpired now = false := by
  obtain ⟨present, live⟩ := Option.filter_eq_some_iff.mp found
  have unexpired : entry.isExpired now = false := by simpa using live
  exact ⟨by rw [KVStore.stored, present]; rfl, unexpired⟩

theorem liveCharge_gone (gone : kv.get now key = none) :
    liveCharge now key (kv.stored key) = 0 := by
  have unseen : kv.keyspace now key = none := by rw [KVStore.keyspace, gone]; rfl
  rw [liveCharge, ← KVStore.keyspace_eq_filter, unseen]
  rfl

theorem HoldsStrings.held (strings : HoldsStrings kv) (key : Bytes) : HeldString (kv.stored key) :=
  strings key

/-- The key has lapsed and the command leaves it alone. -/
theorem settles_unwritten {value : Bytes} {expiresAt : Int64} (strings : HoldsStrings kv)
    (off : cut) (gone : kv.get now key = none) :
    Settles start now cut [put key value expiresAt] kv kv := by
  refine .set (.cutOff off (strings.held key) ?_) fun _ _ => rfl
  rw [liveCharge_gone gone, Option.elim_some, addedCharge_put]
  exact Int.natCast_nonneg _

/-- A command that finds its key lapsed puts a value there that takes no more than is booked. -/
theorem settles_fresh {effects : List WALEffect} {old : Entry MMapVectorIndex} {value : Bytes}
    {deadline : Int64} (strings : HoldsStrings kv) (off : cut) (found : kv.get start key = some old)
    (one : effects = [] ∨ ∃ planned expiresAt, effects = [put key planned expiresAt])
    (short : value.length ≤ bookedLength effects old)
    (same : kv'.stored key = some ⟨.bytes (some value), .string, deadline⟩)
    (other : ∀ key', key' ≠ key → kv'.stored key' = kv.stored key') :
    Settles start now cut effects kv kv' := by
  obtain ⟨stored, live⟩ := stored_of_get found
  obtain ⟨type, data, held⟩ := strings.of_get found
  have string : HeldString (kv'.stored key) := by
    rw [same]
    intro state equal
    cases equal
    exact ⟨rfl, value, rfl⟩
  have charge : liveCharge now key (kv'.stored key) ≤ (key.length + 96 + value.length : Nat) := by
    rw [same]
    exact liveCharge_le now key _
  rcases one with rfl | ⟨planned, expiresAt, rfl⟩
  · refine .unset finalEffects_nil (.cutOff off string ?_) other
    rw [Option.elim_none, stored, liveCharge_live live, stateCharge_state, stringCharge, type,
      if_pos rfl]
    have short : value.length ≤ old.value.length := short
    omega
  · refine .set (.cutOff off string ?_) other
    have short : value.length ≤ planned.length := short
    rw [Option.elim_some, addedCharge_put]
    omega

end Commands

/-- The key has been live at the first reading of the clock and is gone at the second. -/
def Lapsed (start now : Int64) (key : Bytes) (kv : KVStore MMapVectorIndex) : Prop :=
  (kv.get start key).isSome = true ∧ kv.get now key = none

/-- The value that a command puts under a key that it finds gone. -/
def freshValue (name : CommandName) (cmd : Command) : Option Bytes :=
  match name with
  | .set =>
    if cmd.numArgs < 2 then none
    else
      match parseSetArgs cmd.args.tail with
      | .error _ => none
      | .ok parsed => some (parsed.value.getD [])
  | .setnx => if cmd.numArgs < 2 then none else some (cmd.arg 1)
  | .incr => some (formatInt 1)
  | .decr => some (formatInt (-1))
  | .incrby => (parseInt (cmd.arg 1)).map formatInt
  | .decrby => (parseInt (cmd.arg 1)).map fun number => formatInt (-number)
  | _ => none

variable {cmd : Command} {session : Session} {cut : Prop} {start : Int64}

/-- Where the key has lapsed, what is put there in its place is booked. -/
def FreshFits (start now : Int64) (name : CommandName) (cmd : Command)
    (kv : KVStore MMapVectorIndex) : Prop :=
  ∀ old value, kv.get start (cmd.arg 0) = some old → kv.get now (cmd.arg 0) = none →
    freshValue name cmd = some value →
      value.length ≤ bookedLength (effectsBefore start name cmd kv) old

theorem exists_later {now : Int64} (passes : start ≤ now) {key : Bytes}
    (kv : KVStore MMapVectorIndex) :
    kv.get now key = kv.get start key ∨ Lapsed start now key kv := by
  rcases KVStore.get_later passes key kv with same | gone
  · exact .inl same
  · cases found : kv.get start key with
    | none => exact .inl gone
    | some old => exact .inr ⟨by rw [found]; rfl, gone⟩

theorem dispatchSet_settles (moment : Moment) (passes : start ≤ moment.now)
    (strings : HoldsStrings session.store.kv)
    (cuts : Lapsed start moment.now (cmd.arg 0) session.store.kv → cut)
    (fresh : FreshFits start moment.now .set cmd session.store.kv) :
    Settles start moment.now cut (prepareSet start cmd session.store.kv) session.store.kv
      (dispatchSet moment cmd session).2.store.kv := by
  have booked (old : Entry MMapVectorIndex) (value : Bytes) :=
    @fresh old value
  rw [show effectsBefore start .set cmd session.store.kv =
    prepareSet start cmd session.store.kv from rfl] at booked
  rw [dispatchSet_eq]
  unfold freshValue at booked
  unfold prepareSet at booked ⊢
  by_cases arity : cmd.numArgs < 2
  · simp only [arity, if_true]
    exact .refl ..
  cases parse : parseSetArgs cmd.args.tail with
  | error message =>
    simp only [arity, if_false]
    exact .refl ..
  | ok parsed =>
    have valid := strings.valid start (cmd.arg 0)
    simp only [arity, parse, if_false, stringState_exists, valid, false_or, Bool.not_eq_true,
      Option.some.injEq] at booked ⊢
    rw [stringSet_eq]
    rcases exists_later passes session.store.kv with same | lapsed
    · have present : session.store.kv.exists moment.now (cmd.arg 0) =
          session.store.kv.exists start (cmd.arg 0) := by
        rw [KVStore.exists, KVStore.exists, same]
      rw [present]
      split
      · exact .refl ..
      · simp only [Session.writeWAL_store, Session.withKV_kv]
        exact settles_set ..
    · obtain ⟨old, found⟩ := Option.isSome_iff_exists.mp lapsed.1
      have before : session.store.kv.exists start (cmd.arg 0) = true := lapsed.1
      have after : session.store.kv.exists moment.now (cmd.arg 0) = false := by
        rw [KVStore.exists, lapsed.2]
        rfl
      specialize booked old _ found lapsed.2 rfl
      rw [before] at booked ⊢
      rw [after]
      cases nx : parsed.nx <;> cases xx : parsed.xx
      · simp
        exact settles_set ..
      · simp
        exact settles_unwritten strings (cuts lapsed) lapsed.2
      · simp [nx, xx] at booked ⊢
        exact settles_fresh strings (cuts lapsed) found (.inl rfl) booked
          (KVStore.stored_set_same ..) fun _ different =>
            KVStore.stored_set_other _ _ _ _ _ different
      · simp
        exact .refl ..

theorem dispatchSetex_settles (moment : Moment) :
    Settles start moment.now cut (prepareSetex start cmd) session.store.kv
      (dispatchSetex moment cmd session).2.store.kv := by
  unfold dispatchSetex prepareSetex
  by_cases arity : cmd.numArgs < 3
  · simp only [arity, if_true]
    exact .refl ..
  cases parse : parseInt (cmd.arg 1) with
  | none =>
    simp only [arity, if_false]
    exact .refl ..
  | some seconds =>
    by_cases ended : seconds ≤ 0
    · simp only [arity, ended, if_true, if_false]
      exact .refl ..
    · simp only [arity, ended, if_false, Session.writeWAL_store, Session.withKV_kv]
      exact settles_set ..

theorem dispatchSetnx_settles (moment : Moment) (passes : start ≤ moment.now)
    (strings : HoldsStrings session.store.kv)
    (cuts : Lapsed start moment.now (cmd.arg 0) session.store.kv → cut)
    (fresh : FreshFits start moment.now .setnx cmd session.store.kv) :
    Settles start moment.now cut (prepareSetnx start cmd session.store.kv) session.store.kv
      (dispatchSetnx moment cmd session).2.store.kv := by
  have booked (old : Entry MMapVectorIndex) (value : Bytes) := @fresh old value
  rw [show effectsBefore start .setnx cmd session.store.kv =
    prepareSetnx start cmd session.store.kv from rfl] at booked
  unfold freshValue at booked
  unfold dispatchSetnx
  unfold prepareSetnx at booked ⊢
  by_cases arity : cmd.numArgs < 2
  · simp only [arity, if_true]
    exact .refl ..
  have present := stringState_exists moment.now (cmd.arg 0) session.store.kv
  simp only [arity, if_false, StringStore.set, Bool.true_and, Bool.false_and, ← present,
    Option.some.injEq] at booked ⊢
  rcases exists_later passes session.store.kv with same | lapsed
  · have states : stringState start (cmd.arg 0) session.store.kv =
        stringState moment.now (cmd.arg 0) session.store.kv := by
      rw [stringState, stringState, same]
    rw [states]
    cases state : stringState moment.now (cmd.arg 0) session.store.kv with
    | absent => exact settles_set ..
    | invalid => exact absurd state (strings.valid moment.now (cmd.arg 0))
    | valid value expiresAt => exact .refl ..
  · obtain ⟨old, found⟩ := Option.isSome_iff_exists.mp lapsed.1
    have gone : stringState moment.now (cmd.arg 0) session.store.kv = .absent := by
      rw [stringState, lapsed.2]
      rfl
    specialize booked old _ found lapsed.2 rfl
    obtain ⟨data, held, -⟩ := strings.state_of_get found
    rw [held] at booked ⊢
    rw [gone]
    exact settles_fresh strings (cuts lapsed) found (.inl rfl) booked
      (KVStore.stored_set_same ..) fun _ different => KVStore.stored_set_other _ _ _ _ _ different

theorem dispatchGetset_settles (moment : Moment) (strings : HoldsStrings session.store.kv)
    (given : 2 ≤ cmd.numArgs ∨ (session.store.kv.get start (cmd.arg 0)).isSome = true)
    (cuts : (session.store.kv.get start (cmd.arg 0)).isSome = true → cmd.numArgs < 2 → cut) :
    Settles start moment.now cut (prepareGetset start cmd session.store.kv) session.store.kv
      (dispatchGetset moment cmd session).2.store.kv := by
  have sets : (dispatchGetset moment cmd session).2.store.kv = session.store.kv.set moment.now
      (cmd.arg 0) (.bytes (cmd.argBytes 1)) .string 0 := by
    unfold dispatchGetset StringStore.getSet StringStore.get
    cases found : session.store.kv.get moment.now (cmd.arg 0) with
    | none => rfl
    | some entry =>
      obtain ⟨type, data, value⟩ := strings.of_get found
      simp only [type, value, ne_eq, not_true, if_false]
      rfl
  rw [sets, prepareGetset]
  by_cases arity : cmd.numArgs < 2
  · rw [if_pos arity]
    have live := given.resolve_left (by omega)
    obtain ⟨entry, found⟩ := Option.isSome_iff_exists.mp live
    have empty : cmd.argBytes 1 = none := by
      unfold Command.argBytes
      rw [List.getElem?_eq_none (by unfold Command.numArgs at arity; omega)]
      rfl
    rw [empty]
    exact settles_fresh strings (cuts live arity) found (.inl rfl) (Nat.zero_le _)
      (KVStore.stored_set_same ..) fun _ different => KVStore.stored_set_other _ _ _ _ _ different
  · rw [if_neg arity]
    cases state : stringState start (cmd.arg 0) session.store.kv with
    | absent | valid => exact settles_set ..
    | invalid => exact absurd state (strings.valid start (cmd.arg 0))

theorem getForWrite_stored_other (now : Int64) {key' : Bytes} (other : key' ≠ key)
    (kv : KVStore MMapVectorIndex) :
    (kv.getForWrite now key).2.stored key' = kv.stored key' := by
  unfold KVStore.getForWrite
  split
  · rfl
  split
  · exact KVStore.stored_erase_other kv other
  · rfl

theorem written_stored {value : Bytes} {kv' : KVStore MMapVectorIndex} (slice : Option Bytes)
    (deadline : Int64) (version : UInt64)
    (written : kv'.data =
      ((kv.getForWrite now key).2.put key ⟨.bytes slice, .string, deadline, version⟩).data)
    (holds : slice.getD [] = value) :
    kv'.stored key = some ⟨.bytes (some value), .string, deadline⟩ ∧
      ∀ other, other ≠ key → kv'.stored other = kv.stored other := by
  have states : ∀ other, kv'.stored other =
      ((kv.getForWrite now key).2.put key ⟨.bytes slice, .string, deadline, version⟩).stored
        other := by
    intro other
    rw [KVStore.stored, KVStore.stored, written]
  refine ⟨?_, fun other different => (states other).trans ?_⟩
  · rw [states, KVStore.stored_put_same, ← holds]
    rfl
  · rw [KVStore.stored_put_other _ _ different, getForWrite_stored_other now different]

theorem settles_written {expiresAt : Int64} {value : Bytes} {kv' : KVStore MMapVectorIndex}
    (slice : Option Bytes) (deadline : Int64) (version : UInt64)
    (written : kv'.data =
      ((kv.getForWrite now key).2.put key ⟨.bytes slice, .string, deadline, version⟩).data)
    (holds : slice.getD [] = value) :
    Settles start now cut [put key value expiresAt] kv kv' := by
  obtain ⟨same, other⟩ := written_stored slice deadline version written holds
  exact .set (same ▸ .installed rfl deadline) other

theorem prepareIncr_one (amount : Option Int64) (kv : KVStore MMapVectorIndex) :
    prepareIncr now amount cmd kv = [] ∨
      ∃ value expiresAt, prepareIncr now amount cmd kv = [put (cmd.arg 0) value expiresAt] := by
  cases amount with
  | none => exact .inl (prepareIncr_none kv)
  | some amount =>
    unfold prepareIncr
    cases stringState now (cmd.arg 0) kv with
    | invalid => exact .inl rfl
    | absent => exact .inr ⟨_, _, rfl⟩
    | valid value expiresAt =>
      dsimp only
      cases parseInt value with
      | none => exact .inl rfl
      | some current => exact .inr ⟨_, _, rfl⟩

theorem dispatchIncr_settles (moment : Moment) (amount : Int64) (passes : start ≤ moment.now)
    (strings : HoldsStrings session.store.kv)
    (cuts : Lapsed start moment.now (cmd.arg 0) session.store.kv → cut)
    (fresh : ∀ old, session.store.kv.get start (cmd.arg 0) = some old →
      session.store.kv.get moment.now (cmd.arg 0) = none → (formatInt amount).length ≤
        bookedLength (prepareIncr start (some amount) cmd session.store.kv) old) :
    Settles start moment.now cut (prepareIncr start (some amount) cmd session.store.kv)
      session.store.kv (dispatchIncr moment amount cmd session).2.store.kv := by
  have one := @prepareIncr_one start cmd (some amount) session.store.kv
  unfold dispatchIncr StringStore.incr
  rcases exists_later passes session.store.kv with same | lapsed
  · unfold prepareIncr stringState
    rw [← same]
    cases found : session.store.kv.get moment.now (cmd.arg 0) with
    | none =>
      obtain ⟨kv, dropped, _⟩ := KVStore.getForWrite_none found
      simp only [dropped, StringState.ofEntry, Int64.zero_add]
      exact settles_written (some (formatInt amount)) 0 _ (by rw [dropped]; rfl) rfl
    | some entry =>
      obtain ⟨type, data, value⟩ := strings.of_get found
      have taken := KVStore.getForWrite_some found
      simp only [taken, StringState.ofEntry, type, value, ne_eq, not_true, if_false]
      cases parse : parseInt (data.getD []) with
      | none => exact .refl ..
      | some current =>
        exact settles_written (some (formatInt (current + amount))) entry.expiresAt _
          (by rw [taken]; rfl) rfl
  · obtain ⟨old, found⟩ := Option.isSome_iff_exists.mp lapsed.1
    obtain ⟨kv, dropped, _⟩ := KVStore.getForWrite_none lapsed.2
    simp only [dropped]
    obtain ⟨stores, other⟩ := @written_stored session.store.kv moment.now (cmd.arg 0) _ _
      (some (formatInt amount)) 0 _ (by rw [dropped]) rfl
    exact settles_fresh strings (cuts lapsed) found one (fresh old found lapsed.2) stores other

theorem dispatchIncrBy_settles (moment : Moment) {name : String} {signed : Int64 → Int64}
    (passes : start ≤ moment.now) (strings : HoldsStrings session.store.kv)
    (cuts : Lapsed start moment.now (cmd.arg 0) session.store.kv → cut)
    (fresh : ∀ old value, session.store.kv.get start (cmd.arg 0) = some old →
      session.store.kv.get moment.now (cmd.arg 0) = none →
      (parseInt (cmd.arg 1)).map (fun number => formatInt (signed number)) = some value →
        value.length ≤ bookedLength (prepareIncr start ((parseInt (cmd.arg 1)).map signed) cmd
          session.store.kv) old) :
    Settles start moment.now cut
      (prepareIncr start ((parseInt (cmd.arg 1)).map signed) cmd session.store.kv)
      session.store.kv (dispatchIncrBy moment name signed cmd session).2.store.kv := by
  unfold dispatchIncrBy
  by_cases arity : cmd.numArgs < 2
  · simp only [arity, if_true, parseInt_missing arity, Option.map_none, prepareIncr_none]
    exact .refl ..
  cases parse : parseInt (cmd.arg 1) with
  | none =>
    simp only [arity, if_false, Option.map_none, prepareIncr_none]
    exact .refl ..
  | some amount =>
    simp only [arity, if_false, Option.map_some]
    refine dispatchIncr_settles moment (signed amount) passes strings cuts fun old found gone => ?_
    rw [parse] at fresh
    exact fresh old _ found gone rfl

theorem dispatchAppend_settles (moment : Moment) (passes : start ≤ moment.now)
    (strings : HoldsStrings session.store.kv)
    (cuts : Lapsed start moment.now (cmd.arg 0) session.store.kv → cut) :
    Settles start moment.now cut (prepareAppend start cmd session.store.kv) session.store.kv
      (dispatchAppend moment cmd session).2.store.kv := by
  unfold dispatchAppend StringStore.append prepareAppend
  by_cases arity : cmd.numArgs < 2
  · simp only [arity, if_true]
    exact .refl ..
  simp only [arity, if_false]
  rcases exists_later passes session.store.kv with same | lapsed
  · unfold stringState
    rw [← same]
    cases found : session.store.kv.get moment.now (cmd.arg 0) with
    | none =>
      obtain ⟨kv, dropped, _⟩ := KVStore.getForWrite_none found
      simp only [dropped, StringState.ofEntry]
      exact settles_written (cmd.argBytes 1) 0 0 (by rw [dropped]; rfl) rfl
    | some entry =>
      obtain ⟨type, data, value⟩ := strings.of_get found
      have taken := KVStore.getForWrite_some found
      simp only [taken, StringState.ofEntry, type, value, ne_eq, not_true, if_false]
      refine settles_written (StringStore.appendSlice data (cmd.argBytes 1)) entry.expiresAt
        entry.version (by rw [taken]; rfl) ?_
      rw [appendSlice_content]
      rfl
  · obtain ⟨old, found⟩ := Option.isSome_iff_exists.mp lapsed.1
    obtain ⟨data, state, -⟩ := strings.state_of_get found
    obtain ⟨kv, dropped, _⟩ := KVStore.getForWrite_none lapsed.2
    simp only [dropped, state]
    obtain ⟨stores, other⟩ := @written_stored session.store.kv moment.now (cmd.arg 0) _ _
      (cmd.argBytes 1) 0 0 (by rw [dropped]) rfl
    refine settles_fresh strings (cuts lapsed) found (.inr ⟨_, _, rfl⟩) ?_ stores other
    change (cmd.arg 1).length ≤ (data ++ cmd.arg 1).length
    simp

theorem finalEffects_prepareExpire (kv : KVStore MMapVectorIndex) :
    finalEffects (prepareExpire now cmd kv) = ∅ := by
  unfold prepareExpire
  repeat' split
  all_goals rfl

theorem dispatchExpire_settles (moment : Moment) (passes : start ≤ moment.now)
    (cuts : (session.store.kv.get start (cmd.arg 0)).isSome = true →
      (∃ seconds, parseInt (cmd.arg 1) = some seconds ∧ seconds ≤ 0) → cut) :
    Settles start moment.now cut (prepareExpire start cmd session.store.kv) session.store.kv
      (dispatchExpire moment cmd session).2.store.kv := by
  have unset := @finalEffects_prepareExpire start cmd session.store.kv
  have idle := @Settles.idle start moment.now cut session.store.kv _ unset
  unfold dispatchExpire
  by_cases arity : cmd.numArgs < 2
  · simp only [arity, if_true]
    exact idle
  cases parse : parseInt (cmd.arg 1) with
  | none =>
    simp only [arity, if_false]
    exact idle
  | some seconds =>
    simp only [arity, if_false]
    cases found : session.store.kv.get moment.now (cmd.arg 0) with
    | none =>
      simp only [KVStore.expire_none found]
      exact idle
    | some entry =>
      have before := KVStore.get_earlier passes found
      obtain ⟨stored, live⟩ := stored_of_get before
      simp only [KVStore.expire, found]
      by_cases ended : seconds ≤ 0
      · simp only [ended, if_true, Session.writeWAL_store, Session.withKV_kv]
        refine .unset unset ?_ fun key different => KVStore.stored_erase_other _ different
        rw [KVStore.stored_erase_same]
        refine .cutOff (cuts (by rw [before]; rfl) ⟨seconds, parse, ended⟩)
          (fun state none => by cases none) (stateCharge_nonneg ..)
      · simp only [ended, if_false, Session.writeWAL_store, Session.withKV_kv]
        let changed : Entry MMapVectorIndex := { entry with
          expiresAt := moment.now + seconds * second
          version := session.store.kv.version + 1 }
        refine .unset unset ?_
          fun key different => KVStore.stored_put_other changed session.store.kv different
        have after := KVStore.stored_put_same (cmd.arg 0) changed session.store.kv
        rw [stored]
        exact after.symm ▸ .redated live _

theorem dispatchPersist_settles (moment : Moment) (passes : start ≤ moment.now) :
    Settles start moment.now cut (preparePersist start cmd session.store.kv) session.store.kv
      (dispatchPersist moment cmd session).2.store.kv := by
  have unset : finalEffects (preparePersist start cmd session.store.kv) = ∅ := by
    unfold preparePersist
    repeat' split
    all_goals rfl
  have idle := @Settles.idle start moment.now cut session.store.kv _ unset
  unfold dispatchPersist KVStore.persist
  cases found : session.store.kv.get moment.now (cmd.arg 0) with
  | none => exact idle
  | some entry =>
    by_cases forever : entry.expiresAt = 0
    · simp only [forever, if_true]
      exact idle
    have before := KVStore.get_earlier passes found
    obtain ⟨stored, live⟩ := stored_of_get before
    simp only [forever, if_false, Session.withKV_kv]
    refine .unset unset ?_ fun key different => KVStore.stored_put_other _ _ different
    rw [stored, KVStore.stored_put_same]
    exact .redated live 0

/-- `RENAME` moves an entry that is live and whose deadline is not this very instant. -/
def moves (now : Int64) (key : Bytes) (kv : KVStore MMapVectorIndex) : Bool :=
  (kv.get now key).any fun entry => !deadlinePassed now entry.expiresAt

theorem of_moves (moved : moves now key kv = true) :
    ∃ entry, kv.get now key = some entry ∧ deadlinePassed now entry.expiresAt = false := by
  unfold moves at moved
  cases found : kv.get now key with
  | none =>
    rw [found] at moved
    cases moved
  | some entry => exact ⟨entry, rfl, by simpa [found] using moved⟩

/-- Where nothing is moved, nothing stays live under the old name. -/
theorem rename_unmoved (unmoved : moves now key kv = false) (newKey : Bytes) :
    let after := (kv.rename now key newKey).2
    (after.stored key = kv.stored key ∧ kv.get now key = none ∨ after.stored key = none) ∧
      ∀ other, other ≠ key → after.stored other = kv.stored other := by
  unfold KVStore.rename
  cases found : kv.get now key with
  | none => exact ⟨.inl ⟨rfl, rfl⟩, fun _ _ => rfl⟩
  | some entry =>
    have due : deadlinePassed now entry.expiresAt = true := by
      simpa [moves, found] using unmoved
    simp only [due, if_true]
    exact ⟨.inr (KVStore.stored_erase_same ..), fun other different =>
      KVStore.stored_erase_other _ different⟩

theorem liveCharge_held (strings : HoldsStrings kv) {size : Nat}
    (short : ∀ held, kv.get now key = some held → held.value.length ≤ size) :
    liveCharge now key (kv.stored key) ≤ (key.length + size + 96 : Nat) := by
  cases found : kv.get now key with
  | none =>
    rw [liveCharge_gone found]
    exact Int.natCast_nonneg _
  | some held =>
    obtain ⟨stored, live⟩ := stored_of_get found
    have string := (strings.of_get found).1
    have bound := short held found
    rw [stored, liveCharge_live live, stateCharge_state, stringCharge, string, if_pos rfl]
    omega

theorem dispatchRename_settles (moment : Moment) (passes : start ≤ moment.now)
    (strings : HoldsStrings session.store.kv)
    (foreseen : ∀ old, session.store.kv.get start (cmd.arg 0) = some old → 2 ≤ cmd.numArgs →
      if cmd.arg 0 = cmd.arg 1 then moves moment.now (cmd.arg 0) session.store.kv = false
      else moves moment.now (cmd.arg 0) session.store.kv = true ∨
        ∀ held, session.store.kv.get moment.now (cmd.arg 1) = some held →
          held.value.length ≤ old.value.length)
    (cuts : (session.store.kv.get start (cmd.arg 0)).isSome = true →
      moves moment.now (cmd.arg 0) session.store.kv = false → cut) :
    Settles start moment.now cut (prepareRename start cmd session.store.kv) session.store.kv
      (dispatchRename moment cmd session).2.store.kv := by
  unfold dispatchRename prepareRename
  by_cases arity : cmd.numArgs < 2
  · simp only [arity, if_true]
    exact .refl ..
  simp only [arity, if_false]
  change Settles _ _ _ _ _ (session.store.kv.rename moment.now (cmd.arg 0) (cmd.arg 1)).2
  cases before : session.store.kv.get start (cmd.arg 0) with
  | none =>
    have gone : session.store.kv.get moment.now (cmd.arg 0) = none :=
      ((KVStore.get_later passes (cmd.arg 0) session.store.kv).elim (·.trans before) id)
    simp only [stringState, before, StringState.ofEntry, KVStore.rename, gone]
    exact .refl ..
  | some old =>
    obtain ⟨data, state, size⟩ := strings.state_of_get before
    specialize foreseen old before (by omega)
    rw [state]
    cases moved : moves moment.now (cmd.arg 0) session.store.kv with
    | true =>
      have apart : cmd.arg 0 ≠ cmd.arg 1 := by
        intro same
        rw [if_pos same, moved] at foreseen
        cases foreseen
      obtain ⟨entry, found, left⟩ := of_moves moved
      have same : entry = old :=
        Option.some.inj ((KVStore.get_earlier passes found).symm.trans before)
      subst same
      obtain ⟨type, slice, value⟩ := strings.of_get found
      have text : data = slice.getD [] := by
        simpa [stringState, before, StringState.ofEntry, type, value] using state.symm
      simp only [KVStore.rename, found, left, type, Bool.false_eq_true, if_false]
      constructor
      intro key
      rw [← deletion, lookup_finalEffects_move]
      by_cases source : key = cmd.arg 0
      · rw [if_pos source, KVStore.stored_set_other _ _ _ _ _ (source ▸ apart), source,
          KVStore.stored_erase_same]
        exact .deleted rfl
      · rw [if_neg source]
        by_cases target : key = cmd.arg 1
        · rw [if_pos target, target, KVStore.stored_set_same, closedValue_string type, value, text]
          exact .installed rfl _
        rw [if_neg target, KVStore.stored_set_other _ _ _ _ _ target,
          KVStore.stored_erase_other _ source]
        exact .kept
    | false =>
      have off := cuts (by rw [before]; rfl) moved
      obtain ⟨source, other⟩ := rename_unmoved moved (cmd.arg 1)
      constructor
      intro key
      rw [← deletion, lookup_finalEffects_move]
      by_cases same : key = cmd.arg 0
      · rw [if_pos same, same]
        rcases source with ⟨kept, gone⟩ | erased
        · rw [kept]
          refine .cutOff off (strings.held _) ?_
          rw [liveCharge_gone gone]
          exact Int.le_refl 0
        · rw [erased]
          exact .deleted rfl
      · rw [if_neg same, other key same]
        by_cases target : key = cmd.arg 1
        · rw [if_pos target, target]
          refine .cutOff off (strings.held _) (liveCharge_held strings ?_)
          have apart : cmd.arg 0 ≠ cmd.arg 1 := fun equal => same (target.trans equal.symm)
          rw [if_neg apart, moved, size] at foreseen
          exact foreseen.resolve_left (by decide)
        · rw [if_neg target]
          exact .kept

theorem delete_stored (now : Int64) (keys : List Bytes) (store : Store) (key : Bytes) :
    (store.delete now keys).2.kv.stored key = if key ∈ keys then none else store.kv.stored key := by
  rw [KVStore.stored, KVStore.stored, Store.delete_lookup]
  split <;> rfl

theorem dispatchDel_settles (moment : Moment) :
    Settles start moment.now cut (prepareDel start cmd session.store.kv) session.store.kv
      (dispatchDel moment cmd session).2.store.kv := by
  have removed : ∀ key, (dispatchDel moment cmd session).2.store.kv.stored key =
      if key ∈ cmd.keys then none else session.store.kv.stored key := by
    intro key
    unfold dispatchDel
    by_cases arity : cmd.numArgs < 1
    · have none : cmd.keys = [] := by
        simp only [Command.numArgs] at arity
        simpa [Command.keys] using arity
      simp [arity, none]
    · have stores := (writeWAL_deletions moment cmd.keys
        { session with store := (session.store.delete moment.now cmd.keys).2 }).1
      simp only [arity, if_false]
      split
      · rw [stores]
        exact delete_stored ..
      · exact delete_stored ..
  constructor
  intro key
  have final := lookup_finalEffects_deletions
    (cmd.keys.filter fun key => session.store.kv.exists start key) key
  rw [removed, prepareDel]
  unfold deletion at final
  rw [final]
  by_cases asked : key ∈ cmd.keys
  · rw [if_pos asked]
    by_cases live : session.store.kv.exists start key = true
    · rw [if_pos (List.mem_filter.mpr ⟨asked, live⟩)]
      exact .deleted rfl
    have unlogged : key ∉ cmd.keys.filter fun key => session.store.kv.exists start key :=
      fun member => live (List.mem_filter.mp member).2
    rw [if_neg unlogged]
    refine .dropped fun state stored => ?_
    rw [KVStore.exists_eq_isSome_keyspace, KVStore.keyspace_of_stored stored] at live
    unfold KeyState.alive at live
    by_contra alive
    simp [alive] at live
  · have unlogged : key ∉ cmd.keys.filter fun key => session.store.kv.exists start key :=
      fun member => asked (List.mem_filter.mp member).1
    rw [if_neg asked, if_neg unlogged]
    exact .kept

theorem mSet_stored (now : Int64) (pairs : AList fun _ : Bytes => Option Bytes)
    (kv : KVStore MMapVectorIndex) (key : Bytes) :
    (StringStore.mSet now pairs kv).stored key = overlaid pairs kv.stored key := by
  unfold StringStore.mSet overlaid AList.lookup
  have observed := KeyedStore.foldl_observed (fun kv key => kv.stored key)
    (fun kv key value => kv.set now key (.bytes value) .string 0)
    (fun _ value _ => some (plain value))
    (fun kv key value => KVStore.stored_set_same now key (.bytes value) .string 0 kv)
    (fun kv key value key' other => KVStore.stored_set_other now (.bytes value) .string 0 kv other)
    pairs.nodupKeys kv key
  rw [observed]
  cases List.dlookup key pairs.entries <;> rfl

theorem dispatchMset_settles (moment : Moment) :
    Settles start moment.now cut (prepareMset cmd) session.store.kv
      (dispatchMset moment cmd session).2.store.kv := by
  unfold dispatchMset
  by_cases arity : cmd.numArgs < 2 ∨ cmd.numArgs % 2 ≠ 0
  · simp only [prepareMset, if_pos arity]
    exact .refl ..
  have effects : prepareMset cmd =
      (argPairs cmd.args).map fun pair => put pair.1 (pair.2.getD []) 0 := if_neg arity
  have stores : ∀ (pairs : List (Sigma fun _ : Bytes => Option Bytes)) (session : Session),
      (pairs.foldl (fun session pair =>
        session.writeWAL moment recordSet pair.1 (pair.2.getD []) 0) session).store =
        session.store := by
    intro pairs
    induction pairs with
    | nil => exact fun _ => rfl
    | cons pair pairs ih =>
      intro session
      rw [List.foldl_cons, ih, Session.writeWAL_store]
  constructor
  intro key
  have final := lookup_finalEffects_pairs (argPairs cmd.args) key
  rw [← effects] at final
  simp only [arity, if_false, stores, Session.withKV_kv, mSet_stored, overlaid]
  rw [final, ← msetPairs]
  cases (msetPairs cmd).lookup key with
  | none => exact .kept
  | some value => exact .installed rfl 0

/-- What a command has to be like for the account to cover what it does to strings. `GETSET` without
a value stores one that was not prepared. `RENAME` to the same name books a removal, and where it
does not find the source any more the target stays as large as it was. -/
def Foreseen (start now : Int64) (name : CommandName) (cmd : Command)
    (kv : KVStore MMapVectorIndex) : Prop :=
  match name with
  | .getset => 2 ≤ cmd.numArgs ∨ (kv.get start (cmd.arg 0)).isSome = true
  | .rename => ∀ old, kv.get start (cmd.arg 0) = some old → 2 ≤ cmd.numArgs →
      if cmd.arg 0 = cmd.arg 1 then moves now (cmd.arg 0) kv = false
      else moves now (cmd.arg 0) kv = true ∨
        ∀ held, kv.get now (cmd.arg 1) = some held → held.value.length ≤ old.value.length
  | name => FreshFits start now name cmd kv

/-- The command gives back memory of its key that stays booked: `EXPIRE` with no time left,
`GETSET` without a value, a `RENAME` that finds nothing to move, or a key that lapses. -/
def Cuts (start now : Int64) (name : CommandName) (cmd : Command)
    (kv : KVStore MMapVectorIndex) : Prop :=
  (kv.get start (cmd.arg 0)).isSome = true ∧
    match name with
    | .expire => ∃ seconds, parseInt (cmd.arg 1) = some seconds ∧ seconds ≤ 0
    | .getset => cmd.numArgs < 2
    | .rename => moves now (cmd.arg 0) kv = false
    | _ => kv.get now (cmd.arg 0) = none

theorem dispatched_settles (config : ExecutorConfig) (passes : start ≤ now) {name : CommandName}
    {store : Store} (strings : HoldsStrings store.kv)
    (durable : (prepareDurableEffects start name cmd store.kv).isSome = true)
    (foreseen : Foreseen start now name cmd store.kv) :
    Settles start now (Cuts start now name cmd store.kv) (effectsBefore start name cmd store.kv)
      store.kv (dispatchedSpan config start now name cmd store).2.store.kv := by
  let session := prepared (effectsBefore start name cmd store.kv) store
  let moment : Moment := ⟨now, effectsBefore start name cmd store.kv ≠ []⟩
  cases name with
  | set => exact @dispatchSet_settles cmd session _ _ moment passes strings id foreseen
  | setex => exact @dispatchSetex_settles cmd session _ _ moment
  | setnx => exact @dispatchSetnx_settles cmd session _ _ moment passes strings id foreseen
  | getset =>
    exact @dispatchGetset_settles cmd session _ _ moment strings foreseen fun live short =>
      ⟨live, short⟩
  | mset => exact @dispatchMset_settles cmd session _ _ moment
  | del => exact @dispatchDel_settles cmd session _ _ moment
  | expire =>
    exact @dispatchExpire_settles cmd session _ _ moment passes fun live ended => ⟨live, ended⟩
  | persist => exact @dispatchPersist_settles cmd session _ _ moment passes
  | rename =>
    exact @dispatchRename_settles cmd session _ _ moment passes strings foreseen
      fun live unmoved => ⟨live, unmoved⟩
  | incr =>
    exact @dispatchIncr_settles cmd session _ _ moment 1 passes strings id
      fun old found gone => foreseen old _ found gone rfl
  | decr =>
    exact @dispatchIncr_settles cmd session _ _ moment (-1) passes strings id
      fun old found gone => foreseen old _ found gone rfl
  | incrby =>
    have settles := @dispatchIncrBy_settles cmd session (Cuts start now .incrby cmd store.kv) start
      moment "INCRBY" (fun amount => amount) passes strings id
    rw [Option.map_id'] at settles
    exact settles foreseen
  | decrby =>
    exact @dispatchIncrBy_settles cmd session _ _ moment "DECRBY" (fun amount => -amount) passes
      strings id foreseen
  | append => exact @dispatchAppend_settles cmd session _ _ moment passes strings id
  | _ => cases durable
end Dbx.Query
