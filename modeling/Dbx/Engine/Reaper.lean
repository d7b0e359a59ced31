import Dbx.Engine.Strings
import Dbx.Library.Runs

/-!
# The reaper of expired keys

The reaper trusts the items of the deadline heaps. What follows for a store is that every
deadline of an entry has its item, as far as the operations push one.
-/

set_option autoImplicit false

namespace Dbx.Engine

open Runs

variable {Index : Type}

namespace KVStore

def flushAll (kv : KVStore Index) : KVStore Index := { kv with data := ∅ }

/-- What `DeleteExpired` takes off the heaps: it drains them of all that is due. -/
def dueItems (now : Int64) (kv : KVStore Index) : List ExpiryItem :=
  kv.expiries.filter fun item => item.deadline ≤ now

/-- Draining the heaps, in whatever order they yield the due items, leaves the entries that
are not expired and no others. -/
def ReapsExactly (now : Int64) (kv : KVStore Index) : Prop :=
  ∀ popped : List ExpiryItem, popped.Perm (kv.dueItems now) → ∀ key entry,
    (kv.deleteExpiredLimit popped).data.lookup key = some entry ↔
      kv.data.lookup key = some entry ∧ entry.isExpired now = false

def item (key : Bytes) (entry : Entry Index) : ExpiryItem :=
  ⟨key, entry.expiresAt, entry.version⟩

theorem popExpiry_lookup (popped : ExpiryItem) (kv : KVStore Index) (key : Bytes)
    (entry : Entry Index) :
    (kv.popExpiry popped).data.lookup key = some entry ↔
      kv.data.lookup key = some entry ∧ item key entry ≠ popped := by
  obtain ⟨gone, deadline, version⟩ := popped
  unfold popExpiry
  dsimp only
  by_cases same : key = gone
  · subst same
    cases found : kv.data.lookup key with
    | none => simp [found]
    | some stored =>
      dsimp only
      by_cases stale : stored.version ≠ version ∨ stored.expiresAt ≠ deadline
      · rw [if_pos stale, found, Option.some.injEq]
        refine ⟨fun same => ⟨same, ?_⟩, And.left⟩
        rintro hit
        cases same
        cases hit
        simp at stale
      · rw [if_neg stale, erase, AList.lookup_erase]
        rw [not_or, not_not, not_not] at stale
        refine ⟨fun never => (nomatch never), ?_⟩
        rintro ⟨same, missed⟩
        cases same
        exact absurd (by rw [item, stale.1, stale.2]) missed
  · have missed : item key entry ≠ ⟨gone, deadline, version⟩ := fun hit =>
      same (congrArg ExpiryItem.key hit)
    rw [and_iff_left missed]
    split
    · rfl
    split_ifs
    · rfl
    · rw [erase, AList.lookup_erase_ne same]

theorem deleteExpiredLimit_lookup (popped : List ExpiryItem) (kv : KVStore Index) (key : Bytes)
    (entry : Entry Index) :
    (kv.deleteExpiredLimit popped).data.lookup key = some entry ↔
      kv.data.lookup key = some entry ∧ item key entry ∉ popped := by
  induction popped generalizing kv with
  | nil => simp [deleteExpiredLimit]
  | cons first popped ih =>
    rw [deleteExpiredLimit, List.foldl_cons]
    refine (ih (kv.popExpiry first)).trans ?_
    rw [popExpiry_lookup, and_assoc, List.mem_cons, not_or]

theorem reapsExactly_iff (now : Int64) (kv : KVStore Index) :
    kv.ReapsExactly now ↔ ∀ key entry, kv.data.lookup key = some entry →
      ((item key entry ∈ kv.expiries ∧ entry.expiresAt ≤ now) ↔ entry.isExpired now = true) := by
  have due (key : Bytes) (entry : Entry Index) : item key entry ∈ kv.dueItems now ↔
      item key entry ∈ kv.expiries ∧ entry.expiresAt ≤ now := by
    simp [dueItems, item]
  constructor
  · intro exact key entry found
    have left := exact _ (List.Perm.refl _) key entry
    rw [deleteExpiredLimit_lookup, due, and_congr_right_iff] at left
    rw [← not_iff_not, left found, Bool.not_eq_true]
  · intro exact popped drained key entry
    rw [deleteExpiredLimit_lookup, drained.mem_iff, due, and_congr_right_iff]
    intro found
    rw [exact key entry found, Bool.not_eq_true]

/-- Every deadline of an entry has its item, and no item stands for no deadline. -/
structure Tracked (kv : KVStore Index) : Prop where
  pushed : ∀ key entry, kv.data.lookup key = some entry → entry.expiresAt ≠ 0 →
    item key entry ∈ kv.expiries
  timed : ∀ pending ∈ kv.expiries, pending.deadline ≠ 0

/-- Where all deadlines are tracked, only an entry whose deadline is this very instant is
reaped too early. -/
theorem Tracked.reapsExactly_iff {kv : KVStore Index} (tracked : kv.Tracked) (now : Int64) :
    kv.ReapsExactly now ↔ ∀ key entry, kv.data.lookup key = some entry →
      entry.expiresAt = 0 ∨ entry.expiresAt ≠ now := by
  rw [KVStore.reapsExactly_iff]
  refine forall_congr' fun key => forall_congr' fun entry => imp_congr_right fun found => ?_
  by_cases timeless : entry.expiresAt = 0
  · have unlisted : item key entry ∉ kv.expiries := fun member =>
      tracked.timed _ member timeless
    simp [unlisted, timeless, Entry.isExpired]
  · have listed := tracked.pushed key entry found timeless
    simp only [listed, true_and, timeless, false_or, Entry.isExpired, ne_eq, decide_not,
      decide_false, Bool.not_false]
    grind

namespace Tracked

variable {kv : KVStore Index} {now : Int64} {key : Bytes} {entry : Entry Index}

theorem new : (KVStore.new : KVStore Index).Tracked :=
  ⟨fun _ _ found => (nomatch found), fun _ member => (nomatch member)⟩

theorem insert (tracked : kv.Tracked) {expiries : List ExpiryItem} (version : UInt64)
    (kept : kv.expiries ⊆ expiries) (timed : ∀ pending ∈ expiries, pending.deadline ≠ 0)
    (pushed : entry.expiresAt ≠ 0 → item key entry ∈ expiries) :
    Tracked ⟨kv.data.insert key entry, expiries, version⟩ := by
  refine ⟨fun other stored found deadline => ?_, timed⟩
  by_cases same : other = key
  · subst same
    rw [AList.lookup_insert] at found
    cases found
    exact pushed deadline
  · rw [AList.lookup_insert_ne same] at found
    exact kept (tracked.pushed other stored found deadline)

section

variable (tracked : kv.Tracked)
include tracked

/-- Storing an entry without a deadline, or with one that had been tracked before. -/
theorem put (version : UInt64) (pushed : entry.expiresAt ≠ 0 → item key entry ∈ kv.expiries) :
    Tracked ⟨kv.data.insert key entry, kv.expiries, version⟩ :=
  tracked.insert version (fun _ member => member) tracked.timed pushed

theorem erase (key : Bytes) : (kv.erase key).Tracked := by
  refine ⟨fun other stored found deadline => ?_, tracked.timed⟩
  by_cases same : other = key
  · subst same
    rw [KVStore.erase, AList.lookup_erase] at found
    cases found
  · rw [KVStore.erase, AList.lookup_erase_ne same] at found
    exact tracked.pushed other stored found deadline

/-- A new entry for which the item of its deadline is pushed. -/
theorem push (timed : entry.expiresAt ≠ 0) (version : UInt64) :
    Tracked ⟨kv.data.insert key entry, item key entry :: kv.expiries, version⟩ := by
  refine tracked.insert version (List.subset_cons_self _ _) ?_ fun _ => List.mem_cons_self
  exact List.forall_mem_cons.mpr ⟨timed, tracked.timed⟩

theorem set (value : Value Index) (type : DataType) {ttlNano : Int64}
    (unwrapped : 0 < ttlNano → 0 ≤ now + ttlNano) :
    (kv.set now key value type ttlNano).Tracked := by
  unfold KVStore.set
  dsimp only
  by_cases positive : 0 < if 0 < ttlNano then now + ttlNano else 0
  · rw [if_pos positive]
    exact tracked.push (Int64.ne_of_lt positive).symm _
  rw [if_neg positive]
  refine tracked.put _ fun nonzero => absurd ?_ nonzero
  split_ifs at positive ⊢ with lasting
  · exact Int64.le_antisymm (Int64.not_lt.mp positive) (unwrapped lasting)
  · rfl

theorem delete (keys : List Bytes) : (kv.delete keys).2.Tracked := by
  unfold KVStore.delete
  generalize 0 = deleted
  induction keys generalizing deleted kv with
  | nil => exact tracked
  | cons key keys ih =>
    rw [List.foldl_cons]
    dsimp only
    split_ifs
    · exact ih (tracked.erase key) _
    · exact ih tracked _

theorem expire {seconds : Int64} (timed : now + seconds * second ≠ 0) :
    (kv.expire now key seconds).2.Tracked := by
  unfold KVStore.expire
  split
  · exact tracked
  dsimp only
  split_ifs
  · exact tracked.erase key
  · exact tracked.push timed _

theorem persist : (kv.persist now key).2.Tracked := by
  unfold KVStore.persist
  split
  · exact tracked
  split_ifs
  · exact tracked
  · exact tracked.put _ fun nonzero => absurd rfl nonzero

theorem rename (newKey : Bytes) : (kv.rename now key newKey).2.Tracked := by
  unfold KVStore.rename
  split
  · exact tracked
  dsimp only
  split_ifs
  · exact tracked.erase key
  refine (tracked.erase key).set _ _ fun lasting => ?_
  unfold remainingTTL at lasting ⊢
  split_ifs at lasting ⊢
  · grind
  · cases lasting

/-- Taking a key for writing yields its live entry, or has dropped an expired one. -/
theorem getForWrite (now : Int64) (key : Bytes) :
    (kv.getForWrite now key).2.Tracked ∧
      ∀ entry, (kv.getForWrite now key).1 = some entry →
        kv.get now key = some entry ∧ (kv.getForWrite now key).2 = kv := by
  unfold KVStore.getForWrite KVStore.get
  cases found : kv.data.lookup key with
  | none => exact ⟨tracked, fun _ none => (nomatch none)⟩
  | some stored =>
    dsimp only
    cases expired : stored.isExpired now with
    | true => exact ⟨tracked.erase key, fun _ none => (nomatch none)⟩
    | false =>
      refine ⟨tracked, fun entry same => ⟨?_, rfl⟩⟩
      cases same
      simp [expired]

theorem incr (amount : Int64)
    (timeless : ∀ entry, kv.get now key = some entry → entry.expiresAt = 0) :
    (StringStore.incr now key amount kv).2.Tracked := by
  obtain ⟨kept, found⟩ := tracked.getForWrite now key
  unfold StringStore.incr
  generalize kv.getForWrite now key = taken at kept found
  obtain ⟨_ | entry, after⟩ := taken
  · exact kept.put _ fun nonzero => absurd rfl nonzero
  have never := timeless entry (found entry rfl).1
  dsimp only
  split
  · exact kept
  split
  · split
    · exact kept
    · exact kept.put _ fun nonzero => absurd never nonzero
  · exact kept

theorem append (value : Option Bytes) : (StringStore.append now key value kv).2.Tracked := by
  obtain ⟨kept, found⟩ := tracked.getForWrite now key
  unfold StringStore.append
  generalize kv.getForWrite now key = taken at kept found
  obtain ⟨_ | entry, after⟩ := taken
  · exact kept.put _ fun nonzero => absurd rfl nonzero
  obtain ⟨live, same⟩ := found entry rfl
  dsimp only at same ⊢
  subst same
  split
  · exact kept
  split
  · -- The entry keeps its deadline and its version, so its item still stands for it.
    exact kept.put _ (kept.pushed key entry (Option.filter_eq_some_iff.mp live).1)
  · exact kept

theorem flushAll : kv.flushAll.Tracked :=
  ⟨fun _ _ found => (nomatch found), tracked.timed⟩

end

end Tracked

end KVStore

inductive KeyEvent (Index : Type) where
  | set (key : Bytes) (value : Value Index) (type : DataType) (ttlNano : Int64)
  | delete (keys : List Bytes)
  | expire (key : Bytes) (seconds : Int64)
  | persist (key : Bytes)
  | rename (key newKey : Bytes)
  | incr (key : Bytes) (amount : Int64)
  | append (key : Bytes) (value : Option Bytes)
  | flushAll

/-- A store and the instant of the last operation on it. -/
structure ClockedStore (Index : Type) where
  clock : Int64
  kv : KVStore Index

namespace ClockedStore

def apply (now : Int64) (kv : KVStore Index) : KeyEvent Index → KVStore Index
  | .set key value type ttlNano => kv.set now key value type ttlNano
  | .delete keys => (kv.delete keys).2
  | .expire key seconds => (kv.expire now key seconds).2
  | .persist key => (kv.persist now key).2
  | .rename key newKey => (kv.rename now key newKey).2
  | .incr key amount => (StringStore.incr now key amount kv).2
  | .append key value => (StringStore.append now key value kv).2
  | .flushAll => kv.flushAll

def step (state : ClockedStore Index) (event : Int64 × KeyEvent Index) :
    Except String (ClockedStore Index) :=
  if event.1 < state.clock then .error "the clock went back"
  else .ok ⟨event.1, apply event.1 state.kv event.2⟩

/-- The operations that leave the item of a deadline behind: counting a key that has one gives
the entry another version, and deadlines that wrap around are not pushed, or are pushed for
none. -/
def Reapable (state : ClockedStore Index) (event : Int64 × KeyEvent Index) : Prop :=
  match event.2 with
  | .set _ _ _ ttlNano => 0 < ttlNano → 0 ≤ event.1 + ttlNano
  | .expire _ seconds => event.1 + seconds * second ≠ 0
  | .incr key _ => ∀ entry, state.kv.get event.1 key = some entry → entry.expiresAt = 0
  | _ => True

theorem tracked_step {state successor : ClockedStore Index} {event : Int64 × KeyEvent Index}
    (tracked : state.kv.Tracked) (reapable : state.Reapable event)
    (stepped : state.step event = .ok successor) : successor.kv.Tracked := by
  obtain ⟨now, event⟩ := event
  unfold step at stepped
  split_ifs at stepped
  cases stepped
  cases event with
  | set key value type ttlNano => exact tracked.set value type reapable
  | delete keys => exact tracked.delete keys
  | expire key seconds => exact tracked.expire reapable
  | persist key => exact tracked.persist
  | rename key newKey => exact tracked.rename newKey
  | incr key amount => exact tracked.incr amount reapable
  | append key value => exact tracked.append value
  | flushAll => exact tracked.flushAll

theorem reaper_exact_iff {clock : Int64} {state : ClockedStore Index}
    (reached : Reaches step Reapable ⟨clock, .new⟩ state) (now : Int64) :
    state.kv.ReapsExactly now ↔ ∀ key entry, state.kv.data.lookup key = some entry →
      entry.expiresAt = 0 ∨ entry.expiresAt ≠ now := by
  refine KVStore.Tracked.reapsExactly_iff ?_ now
  exact @Reaches.invariant _ _ _ _ _ _ (fun state => state.kv.Tracked) .new
    (fun _ _ _ tracked reapable stepped => tracked_step tracked reapable stepped) _ reached

/-- Counting up a key with a deadline leaves an entry that is never reaped. -/
theorem counted_key_stays : ∃ state : ClockedStore Unit,
    Reaches step (fun _ _ => True) ⟨0, .new⟩ state ∧ ∃ entry,
      state.kv.data.lookup [0x6b] = some entry ∧ entry.isExpired 10 = true ∧
      (state.kv.deleteExpiredLimit (state.kv.dueItems 10)).data.lookup [0x6b] = some entry := by
  refine ⟨_, .next (1, .incr [0x6b] 1) (.next (0, .set [0x6b] (.bytes (some (ascii "1"))) .string 5)
    .start trivial rfl) trivial rfl, _, rfl, ?_, rfl⟩
  rfl

/-- A key that has only been given a deadline is reaped once the deadline has passed. -/
theorem timed_key_reaped :
    ((KVStore.new : KVStore Unit).set 0 [0x6b] .other .hash 5).ReapsExactly 6 := by
  have reached : Reaches step Reapable (⟨0, .new⟩ : ClockedStore Unit)
      ⟨0, KVStore.new.set 0 [0x6b] .other .hash 5⟩ :=
    .next (0, .set [0x6b] .other .hash 5) .start (fun _ => by decide) rfl
  refine (reaper_exact_iff reached 6).mpr fun key entry found => .inr ?_
  have same : key = [0x6b] := by
    by_contra other
    rw [KVStore.set, AList.lookup_insert_ne other] at found
    cases found
  subst same
  cases found
  decide

end ClockedStore

end Dbx.Engine
