import Dbx.Engine.KVProperties
import Dbx.Engine.Strings
import Dbx.Library.Simulation

/-!
# What an operation on a key looks at

Every operation of the key-value store is confined to the keys that it is given, and an
entry whose deadline has passed makes no difference to it. Versions are not seen: they
come from a counter of the whole keyspace.
-/

set_option autoImplicit false

namespace Dbx.Engine

open Simulation

variable {Index α : Type}

def Entry.unversioned (entry : Entry Index) : Entry Index := { entry with version := 0 }

namespace KVStore

def seen (key : Bytes) (kv : KVStore Index) : Option (Entry Index) :=
  (kv.data.lookup key).map Entry.unversioned

theorem lookup_of_get {now : Int64} {key : Bytes} {kv : KVStore Index} {entry : Entry Index}
    (found : kv.get now key = some entry) : kv.data.lookup key = some entry :=
  (Option.filter_eq_some_iff.mp found).1

def shown (now : Int64) (key : Bytes) (kv : KVStore Index) : Option (Entry Index) :=
  (kv.get now key).map Entry.unversioned

theorem shown_eq (now : Int64) (key : Bytes) (kv : KVStore Index) :
    kv.shown now key = (kv.seen key).filter fun entry => !entry.isExpired now := by
  rw [shown, get, seen]
  cases kv.data.lookup key with
  | none => rfl
  | some entry =>
    have same : entry.unversioned.isExpired now = entry.isExpired now := rfl
    cases expired : entry.isExpired now <;> simp [Option.filter, same, expired]

variable {left right : KVStore Index}

theorem shown_congr {key : Bytes} (same : left.seen key = right.seen key) (now : Int64) :
    left.shown now key = right.shown now key := by
  rw [shown_eq, shown_eq, same]

section

variable {now : Int64} {key : Bytes} (same : left.shown now key = right.shown now key)
include same

theorem shown_cases :
    (left.get now key = none ∧ right.get now key = none) ∨
      ∃ value type expiresAt version version',
        left.get now key = some ⟨value, type, expiresAt, version⟩ ∧
        right.get now key = some ⟨value, type, expiresAt, version'⟩ := by
  rw [shown, shown] at same
  cases here : left.get now key with
  | none =>
    rw [here] at same
    exact .inl ⟨rfl, Option.map_eq_none_iff.mp same.symm⟩
  | some entry =>
    rw [here] at same
    obtain ⟨other, there, unversioned⟩ := Option.map_eq_some_iff.mp same.symm
    obtain ⟨value, type, expiresAt, version⟩ := entry
    obtain ⟨value', type', expiresAt', version'⟩ := other
    cases unversioned
    exact .inr ⟨value, type, expiresAt, version, version', rfl, there⟩

theorem exists_congr : left.exists now key = right.exists now key := by
  have found := congrArg Option.isSome same
  rwa [shown, shown, Option.isSome_map, Option.isSome_map] at found

theorem type_congr : left.type now key = right.type now key := by
  rcases shown_cases same with ⟨here, there⟩ | ⟨_, _, _, _, _, here, there⟩
  · simp [type, here, there]
  · simp [type, here, there]

theorem ttl_congr : left.ttl now key = right.ttl now key := by
  rcases shown_cases same with ⟨here, there⟩ | ⟨_, _, _, _, _, here, there⟩
  · simp [ttl, here, there]
  · simp [ttl, here, there]

end

def SameLive (now : Int64) (left right : KVStore Index) : Prop :=
  ∀ key, left.shown now key = right.shown now key

theorem SameLive.dbSize {now : Int64} (same : left.SameLive now right) :
    left.dbSize now = right.dbSize now := by
  have counted (kv : KVStore Index) : (kv.dbSize now : Int) =
      KeyedStore.total (fun _ entry => if entry.isExpired now then 0 else 1) kv.data := by
    rw [KVStore.dbSize, KeyedStore.total]
    induction kv.data.entries with
    | nil => rfl
    | cons entry entries ih =>
      cases expired : entry.2.isExpired now
      · simp [expired, ih, add_comm]
      · simp [expired, ih]
  have each (key : Bytes) (kv : KVStore Index) :
      KeyedStore.charged (fun _ entry => if entry.isExpired now then 0 else 1) kv.data key =
        if (kv.shown now key).isSome then 1 else 0 := by
    rw [KeyedStore.charged, shown, get]
    cases kv.data.lookup key with
    | none => rfl
    | some entry => cases expired : entry.isExpired now <;> simp [Option.filter, expired]
  have totals := KeyedStore.total_congr fun key => (each key left).trans
    ((congrArg (fun shows => if Option.isSome shows then (1 : Int) else 0) (same key)).trans
      (each key right).symm)
  exact Int.ofNat.inj ((counted left).trans (totals.trans (counted right).symm))

/-- The entry is the one before as far as its type and value go, or holds bytes. -/
def Kept (before after : Option (Entry Index)) : Prop :=
  ∀ entry, after = some entry → (∃ data, entry.value = .bytes data) ∨
    ∃ old, before = some old ∧ old.type = entry.type ∧ old.value = entry.value

abbrev Local (now : Int64) (keys : Set Bytes) (run : KVStore Index → α × KVStore Index) : Prop :=
  Simulation.Local (SameLive now) seen (fun _ => True) keys True run

structure Edits (now : Int64) (key : Bytes) (run : KVStore Index → α × KVStore Index) : Prop where
  isLocal : Local now {key} run
  kept : ∀ kv, Kept (kv.data.lookup key) ((run kv).2.data.lookup key)

section Changes

variable {now : Int64} {key : Bytes} {run : KVStore Index → α × KVStore Index}

def unexpired (now : Int64) (held : Option (Entry Index)) : Option (Entry Index) :=
  held.filter fun entry => !entry.isExpired now

/-- Entries that show the same are changed to entries that show the same. -/
def Steady (now : Int64) (change : Option (Entry Index) → α × Option (Entry Index)) : Prop :=
  ∀ left right, unexpired now left = unexpired now right →
    (change left).1 = (change right).1 ∧
      unexpired now (change left).2 = unexpired now (change right).2

/-- An operation that turns one key into something that only depends on it. -/
theorem local_key (change : Option (Entry Index) → α × Option (Entry Index))
    (steady : Steady now change)
    (result : ∀ kv, ((run kv).1, (run kv).2.seen key) = change (kv.seen key))
    (others : ∀ kv other, other ≠ key → (run kv).2.data.lookup other = kv.data.lookup other) :
    Local now {key} run := by
  have value (kv : KVStore Index) := congrArg Prod.fst (result kv)
  have left (kv : KVStore Index) := congrArg Prod.snd (result kv)
  have outside (kv : KVStore Index) (other : Bytes) (different : other ≠ key) :
      (run kv).2.seen other = kv.seen other := by
    rw [seen, others kv other different, seen]
  refine ⟨fun first second same => ⟨?_, fun other => ?_⟩, fun _ => ⟨?_, ?_, ?_, ?_⟩⟩
  · have shows := same key
    rw [shown_eq, shown_eq] at shows
    exact (value first).trans ((steady _ _ shows).1.trans (value second).symm)
  · by_cases equal : other = key
    · subst equal
      have shows := same other
      rw [shown_eq, shown_eq] at shows ⊢
      dsimp only at left
      rw [left, left]
      exact (steady _ _ shows).2
    · rw [shown_congr (outside first other equal), shown_congr (outside second other equal)]
      exact same other
  · intro first second _ _ agree
    exact (value first).trans ((congrArg (fun held => (change held).1) (agree key rfl)).trans
      (value second).symm)
  · intro first second _ _ agree place member
    obtain rfl : place = key := member
    exact (left first).trans ((congrArg (fun held => (change held).2) (agree place rfl)).trans
      (left second).symm)
  · exact fun kv _ other different => outside kv other different
  · exact fun _ _ => trivial

theorem edits_shown (absent : Option (Entry Index) → α × Option (Entry Index))
    (present : Entry Index → α × Option (Entry Index)) (steady : Steady now absent)
    (missing : ∀ kv, kv.get now key = none →
      ((run kv).1, (run kv).2.seen key) = absent (kv.seen key))
    (found : ∀ kv entry, kv.get now key = some entry → kv.data.lookup key = some entry →
      ((run kv).1, (run kv).2.seen key) = present entry.unversioned)
    (others : ∀ kv other, other ≠ key → (run kv).2.data.lookup other = kv.data.lookup other)
    (keptAbsent : ∀ held, Kept held (absent held).2)
    (keptPresent : ∀ entry, Kept (some entry) (present entry).2) : Edits now key run := by
  let change : Option (Entry Index) → α × Option (Entry Index) := fun held =>
    (unexpired now held).elim (absent held) present
  have result (kv : KVStore Index) : ((run kv).1, (run kv).2.seen key) = change (kv.seen key) := by
    have shows : unexpired now (kv.seen key) = (kv.get now key).map Entry.unversioned :=
      (shown_eq now key kv).symm
    dsimp only [change]
    rw [shows]
    cases live : kv.get now key with
    | none => exact missing kv live
    | some entry => exact found kv entry live (lookup_of_get live)
  have keeps (held : Option (Entry Index)) : Kept held (change held).2 := by
    dsimp only [change]
    cases live : unexpired now held with
    | none => exact keptAbsent held
    | some entry =>
      rw [(Option.filter_eq_some_iff.mp live).1]
      exact keptPresent entry
  refine ⟨local_key change (fun left right same => ?_) result others, fun kv entry after => ?_⟩
  · dsimp only [change]
    rw [same]
    cases live : unexpired now right with
    | none => exact steady left right same
    | some entry => exact ⟨rfl, rfl⟩
  · have seen' : (run kv).2.seen key = some entry.unversioned := by rw [seen, after]; rfl
    have changed : (change (kv.seen key)).2 = some entry.unversioned :=
      (congrArg Prod.snd (result kv)).symm.trans seen'
    rcases keeps _ _ changed with bytes | ⟨old, held, type, value⟩
    · exact .inl bytes
    · obtain ⟨before, stored, rfl⟩ := Option.map_eq_some_iff.mp held
      exact .inr ⟨before, stored, type, value⟩

end Changes

theorem kept_refl (held : Option (Entry Index)) : Kept held held :=
  fun entry same => .inr ⟨entry, same, rfl, rfl⟩

theorem kept_none (held : Option (Entry Index)) : Kept held none := fun _ never => nomatch never

theorem kept_bytes (held : Option (Entry Index)) {entry : Entry Index} {data : Option Bytes}
    (bytes : entry.value = .bytes data) : Kept held (some entry) := by
  rintro _ ⟨⟩
  exact .inl ⟨data, bytes⟩

theorem steady_same {now : Int64} (value : α) :
    Steady now fun held : Option (Entry Index) => (value, held) :=
  fun _ _ same => ⟨rfl, same⟩

theorem steady_const {now : Int64} (result : α × Option (Entry Index)) :
    Steady now fun _ => result :=
  fun _ _ _ => ⟨rfl, rfl⟩

variable (now : Int64) (key : Bytes)

theorem local_set (value : Value Index) (type : DataType) (ttlNano : Int64) :
    Local now {key} fun kv : KVStore Index => ((), kv.set now key value type ttlNano) := by
  refine local_key (fun _ => ((), some ⟨value, type, if 0 < ttlNano then now + ttlNano else 0, 0⟩))
    (steady_const _) (fun kv => ?_) fun kv other different => ?_
  · simp [seen, set, Entry.unversioned]
  · simp [set, AList.lookup_insert_ne different]

theorem local_erase : Local now {key} fun kv : KVStore Index => ((), kv.erase key) := by
  refine local_key (fun _ => ((), none)) (steady_const _) (fun kv => ?_)
    fun kv other different => ?_
  · simp [seen, erase]
  · simp [erase, AList.lookup_erase_ne different]

theorem local_put (entry : Entry Index) :
    Local now {key} fun kv : KVStore Index => ((), kv.put key entry) := by
  refine local_key (fun _ => ((), some entry.unversioned)) (steady_const _) (fun kv => ?_)
    fun kv other different => ?_
  · simp [seen, put]
  · simp [put, AList.lookup_insert_ne different]

theorem getForWrite_others {other : Bytes} (kv : KVStore Index) (different : other ≠ key) :
    (kv.getForWrite now key).2.data.lookup other = kv.data.lookup other := by
  rw [getForWrite]
  split
  · rfl
  split
  · exact AList.lookup_erase_ne different
  · rfl

theorem edits_dropExpired :
    Edits now key fun kv : KVStore Index => ((), (kv.getForWrite now key).2) := by
  refine edits_shown (fun _ => ((), none)) (fun entry => ((), some entry)) (steady_const _)
    (fun kv shows => ?_) (fun kv entry shows stored => ?_)
    (fun kv other different => getForWrite_others now key kv different) kept_none
    fun entry => kept_refl _
  · rw [get, Option.filter_eq_none_iff] at shows
    cases stored : kv.data.lookup key with
    | none => simp [getForWrite, seen, stored]
    | some entry =>
      have expired : entry.isExpired now = true := by simpa using shows entry stored
      simp [getForWrite, seen, stored, expired]
  · rw [getForWrite_some shows, seen, stored]
    rfl

theorem edits_expire (seconds : Int64) :
    Edits now key fun kv : KVStore Index => kv.expire now key seconds := by
  refine edits_shown (fun held => (false, held))
    (fun entry => (true, if seconds ≤ 0 then none
      else some { entry with expiresAt := now + seconds * second })) (steady_same false)
    (fun kv shows => ?_) (fun kv entry shows stored => ?_) (fun kv other different => ?_) kept_refl
    fun entry => ?_
  · simp [expire, shows]
  · simp only [expire, shows]
    split
    · simp [seen, erase]
    · simp [seen, Entry.unversioned]
  · rw [expire]
    split
    · rfl
    split
    · exact AList.lookup_erase_ne different
    · exact AList.lookup_insert_ne different
  · split
    · exact kept_none _
    · rintro _ ⟨⟩
      exact .inr ⟨entry, rfl, rfl, rfl⟩

theorem edits_persist : Edits now key fun kv : KVStore Index => kv.persist now key := by
  refine edits_shown (fun held => (false, held))
    (fun entry => if entry.expiresAt = 0 then (false, some entry)
      else (true, some { entry with expiresAt := 0 })) (steady_same false)
    (fun kv shows => ?_) (fun kv entry shows stored => ?_) (fun kv other different => ?_) kept_refl
    fun entry => ?_
  · simp [persist, shows]
  · by_cases forever : entry.expiresAt = 0
    · simp [persist, shows, seen, stored, Entry.unversioned, forever]
    · simp [persist, shows, seen, put, Entry.unversioned, forever]
  · rw [persist]
    split
    · rfl
    split
    · rfl
    · exact AList.lookup_insert_ne different
  · split
    · exact kept_refl _
    · rintro _ ⟨⟩
      exact .inr ⟨entry, rfl, rfl, rfl⟩

end KVStore

namespace StringStore

open KVStore

theorem get_congr {now : Int64} {key : Bytes} {left right : KVStore Index}
    (same : left.shown now key = right.shown now key) : get now key left = get now key right := by
  rcases shown_cases same with ⟨here, there⟩ | ⟨_, _, _, _, _, here, there⟩
  · simp [get, here, there]
  · simp [get, here, there]

variable (now : Int64) (key : Bytes)

theorem edits_set (value : Option Bytes) (ttlSeconds : Int64) (nx xx : Bool) :
    Edits now key fun kv : KVStore Index => set now key value ttlSeconds nx xx kv := by
  let written : Option (Entry Index) :=
    some ⟨.bytes value, .string,
      if 0 < ttlSeconds * second then now + ttlSeconds * second else 0, 0⟩
  refine edits_shown (fun held => if xx then (false, held) else (true, written))
    (fun entry => if nx then (false, some entry) else (true, written)) ?_
    (fun kv shows => ?_) (fun kv entry shows stored => ?_) (fun kv other different => ?_) ?_ ?_
  · cases xx
    · exact steady_const _
    · exact steady_same false
  · cases xx <;> simp [set, KVStore.exists, shows, KVStore.set, seen, Entry.unversioned, written]
  · cases nx <;>
      simp [set, KVStore.exists, shows, stored, KVStore.set, seen, Entry.unversioned, written]
  · rw [set]
    split
    · rfl
    split
    · rfl
    · exact AList.lookup_insert_ne different
  · intro held
    cases xx
    · exact kept_bytes held rfl
    · exact kept_refl held
  · intro entry
    cases nx
    · exact kept_bytes _ rfl
    · exact kept_refl _

def onBytes (found : Option Bytes → α) (other : α) : Value Index → α
  | .bytes data => found data
  | _ => other

theorem edits_getSet (value : Option Bytes) :
    Edits now key fun kv : KVStore Index => getSet now key value kv := by
  let written : Option (Entry Index) := some ⟨.bytes value, .string, 0, 0⟩
  refine edits_shown (fun _ => (.ok none, written))
    (fun entry => if entry.type ≠ .string then (.error errWrongType, some entry)
      else onBytes (fun data => (.ok data, written)) (.error errPanic, some entry) entry.value)
    (steady_const _)
    (fun kv shows => ?_) (fun kv entry shows stored => ?_) (fun kv other different => ?_)
    (fun held => kept_bytes held rfl) fun entry => ?_
  · simp [getSet, get, shows, KVStore.set, seen, Entry.unversioned, written]
  · obtain ⟨held, type, expiresAt, version⟩ := entry
    by_cases string : type = .string
    · cases held <;>
        simp [getSet, get, shows, stored, KVStore.set, seen, Entry.unversioned, string, written,
          onBytes]
    · simp [getSet, get, shows, stored, seen, Entry.unversioned, string]
  · rw [getSet]
    split
    · rfl
    · exact AList.lookup_insert_ne different
  · split
    · exact kept_refl _
    unfold onBytes
    split
    · exact kept_bytes _ rfl
    · exact kept_refl _

theorem edits_incr (amount : Int64) :
    Edits now key fun kv : KVStore Index => incr now key amount kv := by
  refine edits_shown
    (fun _ => (.ok amount, some ⟨.bytes (some (formatInt amount)), .string, 0, 0⟩))
    (fun entry => if entry.type ≠ .string then (.error errWrongType, some entry)
      else onBytes
        (fun data => (parseInt (data.getD [])).elim (.error errOutOfRange, some entry)
          fun number => (.ok (number + amount),
            some { entry with value := .bytes (some (formatInt (number + amount))) }))
        (.error errPanic, some entry) entry.value) (steady_const _)
    (fun kv shows => ?_) (fun kv entry shows stored => ?_) (fun kv other different => ?_)
    (fun held => kept_bytes held rfl) fun entry => ?_
  · obtain ⟨kv', taken, -⟩ := getForWrite_none shows
    simp [incr, taken, seen, put, Entry.unversioned]
  · obtain ⟨value, type, expiresAt, version⟩ := entry
    simp only [incr, getForWrite_some shows]
    by_cases string : type = .string
    · cases value with
      | bytes data =>
        cases parsed : parseInt (data.getD []) with
        | none => simp [Entry.unversioned, string, parsed, seen, stored, onBytes]
        | some number => simp [Entry.unversioned, string, parsed, seen, put, onBytes]
      | _ => simp [Entry.unversioned, string, seen, stored, onBytes]
    · simp [Entry.unversioned, string, seen, stored]
  · have untouched := getForWrite_others now key kv different
    rcases taken : kv.getForWrite now key with ⟨_ | entry, kv'⟩
    · rw [taken] at untouched
      simp only [incr, taken]
      exact (AList.lookup_insert_ne different).trans untouched
    · rw [taken] at untouched
      simp only [incr, taken]
      split
      · exact untouched
      split
      · split
        · exact untouched
        · exact (AList.lookup_insert_ne different).trans untouched
      · exact untouched
  · split
    · exact kept_refl _
    unfold onBytes
    split
    · rename_i data _
      dsimp only
      cases parseInt (data.getD []) with
      | none => exact kept_refl _
      | some number => exact kept_bytes _ rfl
    · exact kept_refl _

theorem edits_append (value : Option Bytes) :
    Edits now key fun kv : KVStore Index => append now key value kv := by
  refine edits_shown
    (fun _ => (.ok (value.getD []).length, some ⟨.bytes value, .string, 0, 0⟩))
    (fun entry => if entry.type ≠ .string then (.error errWrongType, some entry)
      else onBytes (fun data => (.ok ((appendSlice data value).getD []).length,
          some { entry with value := .bytes (appendSlice data value) }))
        (.error errPanic, some entry) entry.value) (steady_const _)
    (fun kv shows => ?_) (fun kv entry shows stored => ?_) (fun kv other different => ?_)
    (fun held => kept_bytes held rfl) fun entry => ?_
  · obtain ⟨kv', taken, -⟩ := getForWrite_none shows
    simp [append, taken, seen, put, Entry.unversioned]
  · obtain ⟨held, type, expiresAt, version⟩ := entry
    simp only [append, getForWrite_some shows]
    by_cases string : type = .string
    · cases held with
      | bytes data => simp [Entry.unversioned, string, seen, put, onBytes]
      | _ => simp [Entry.unversioned, string, seen, stored, onBytes]
    · simp [Entry.unversioned, string, seen, stored]
  · have untouched := getForWrite_others now key kv different
    rcases taken : kv.getForWrite now key with ⟨_ | entry, kv'⟩
    · rw [taken] at untouched
      simp only [append, taken]
      exact (AList.lookup_insert_ne different).trans untouched
    · rw [taken] at untouched
      simp only [append, taken]
      split
      · exact untouched
      split
      · exact (AList.lookup_insert_ne different).trans untouched
      · exact untouched
  · split
    · exact kept_refl _
    unfold onBytes
    split
    · exact kept_bytes _ rfl
    · exact kept_refl _

theorem local_mSet (pairs : AList fun _ : Bytes => Option Bytes) :
    Local now {key | key ∈ pairs} fun kv : KVStore Index => ((), mSet now pairs kv) := by
  refine .iterate fun pair member => ?_
  refine (KVStore.local_set now pair.1 (.bytes pair.2) .string 0).mono ?_
  rintro key rfl
  exact AList.mem_keys.mpr (List.mem_map_of_mem member)

end StringStore

end Dbx.Engine
