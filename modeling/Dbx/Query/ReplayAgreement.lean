import Dbx.Persistence.RecoveryProperties
import Dbx.Query.ExecutorProperties

/-!
# Live execution and replay of string commands

Every durable string command exists twice: as a mutation of the keyspace, and as
effects that replay turns into one. Both are compared at a fixed instant.
-/

set_option autoImplicit false

namespace Dbx.Query

open Dbx.Engine Dbx.Persistence Dbx.Protocol

/-!
## Deadlines
-/

/-- A time to live in seconds and the same number of milliseconds only agree where
both wrap around to nothing. -/
theorem second_ne_millisecond {seconds : Int64} (positive : 0 < seconds * second) :
    seconds * second ≠ seconds * millisecond := by
  intro equal
  have difference : seconds * 999000000 = 0 := by
    have split : second = 999000000 + millisecond := by decide
    rw [split, Int64.mul_add] at equal
    grind
  -- the odd part of the factor is invertible modulo the word size
  have reduced : seconds * 64 = 0 := by
    have inverse : (999000000 : Int64) * 4255730258697375199 = 64 := by decide
    rw [← inverse, ← Int64.mul_assoc, difference, Int64.zero_mul]
  have vanished : seconds * second = 0 := by
    have factor : second = 64 * 15625000 := by decide
    rw [factor, ← Int64.mul_assoc, reduced, Int64.zero_mul]
  rw [vanished] at positive
  exact absurd positive (by decide)

variable {now expiresAt : Int64}

theorem alive_eq_replayedState_iff {deadline : Int64} (clock : 0 ≤ now) (value : Bytes) :
    KeyState.alive now ⟨.bytes (some value), .string, deadline⟩ =
        replayedState now expiresAt value ↔
      if 0 < expiresAt ∧ expiresAt ≤ now then deadline ≠ 0 ∧ deadline < now
      else (deadline = 0 ∨ now ≤ deadline) ∧
        deadline = if 0 < expiresAt then expiresAt else 0 := by
  have left : deadlinePassed now expiresAt = decide (0 < expiresAt ∧ expiresAt ≤ now) := by
    unfold deadlinePassed
    grind
  unfold replayedState KeyState.alive KeyState.isExpired restoredDeadline
  rw [left]
  grind

theorem set_deadline_agrees {duration : Int64} (clock : 0 ≤ now) (value : Bytes) :
    KeyState.alive now ⟨.bytes (some value), .string, if 0 < duration then now + duration else 0⟩ =
        replayedState now (now + duration) value ↔
      (0 < duration ↔ 0 < now + duration) := by
  rw [alive_eq_replayedState_iff clock]
  grind

theorem legacy_deadline_agrees {seconds : Int64} (clock : 0 ≤ now) (value : Bytes) :
    KeyState.alive now
        ⟨.bytes (some value), .string, if 0 < seconds * second then now + seconds * second else 0⟩ =
      replayedState now (legacyExpiry now recordSet (seconds * millisecond)) value ↔
    ¬ 0 < seconds * second ∧ legacyExpiry now recordSet (seconds * millisecond) ≤ 0 := by
  have different := @second_ne_millisecond seconds
  have ordinary : recordSet ≠ recordExpire := by decide
  have expiry : legacyExpiry now recordSet (seconds * millisecond) =
      if 0 < seconds * millisecond then now + seconds * millisecond
      else seconds * millisecond := by
    simp [legacyExpiry, ordinary]
  rw [expiry, alive_eq_replayedState_iff clock]
  generalize seconds * second = duration at *
  generalize seconds * millisecond = logged at *
  clear expiry ordinary
  by_cases short : 0 < logged
  · simp only [short, if_true]
    by_cases long : 0 < duration
    · simp only [long, if_true]
      have := different long
      grind
    · simp only [long, if_false]
      grind
  · simp only [short, if_false]
    by_cases long : 0 < duration
    · simp only [long, if_true]
      grind
    · simp only [long, if_false]
      grind

theorem toInt_second : second.toInt = 1000000000 := by decide

theorem toInt_whole_seconds {duration : Int64} (positive : 0 < duration) :
    (duration / second).toInt = duration.toInt / 1000000000 ∧
      (duration / second * second).toInt = duration.toInt / 1000000000 * 1000000000 ∧
      (duration % second).toInt = duration.toInt % 1000000000 := by
  have above : 0 < duration.toInt := Int64.lt_iff_toInt_lt.mp positive
  have below := duration.toInt_lt
  have notMin : duration ≠ Int64.minValue := by
    rintro rfl
    exact absurd positive (by decide)
  have quotient : (duration / second).toInt = duration.toInt / 1000000000 := by
    rw [Int64.toInt_div_of_ne_left _ _ notMin, toInt_second,
      Int.tdiv_eq_ediv_of_nonneg (by omega)]
  refine ⟨quotient, ?_, ?_⟩
  · rw [Int64.toInt_mul, quotient, toInt_second, Int.bmod_eq_of_le] <;> omega
  · rw [Int64.toInt_mod, toInt_second, Int.tmod_eq_emod_of_nonneg (by omega)]

theorem replaySeconds_spec {duration : Int64} (positive : 0 < duration) :
    0 < replaySeconds duration * second ∧
      (replaySeconds duration * second ≤ duration ∨ replaySeconds duration * second = second) ∧
      (replaySeconds duration * second = duration ↔ duration % second = 0) := by
  obtain ⟨quotient, product, remainder⟩ := toInt_whole_seconds positive
  have above : 0 < duration.toInt := Int64.lt_iff_toInt_lt.mp positive
  have one : (1 : Int64).toInt = 1 := by decide
  have zero : (0 : Int64).toInt = 0 := by decide
  unfold replaySeconds
  by_cases short : duration / second < 1
  · have small : duration.toInt < 1000000000 := by
      rw [Int64.lt_iff_toInt_lt, quotient, one] at short
      omega
    rw [if_pos short]
    have unit : (1 : Int64) * second = second := by decide
    rw [unit]
    refine ⟨by decide, Or.inr rfl, ?_⟩
    rw [← Int64.toInt_inj, ← Int64.toInt_inj, remainder, toInt_second, zero]
    omega
  · rw [if_neg short, Int64.lt_iff_toInt_lt, Int64.le_iff_toInt_le, ← Int64.toInt_inj,
      ← Int64.toInt_inj, ← Int64.toInt_inj, product, remainder, toInt_second, zero]
    rw [Int64.lt_iff_toInt_lt, quotient, one] at short
    omega

/-- A time to live in seconds reaches the log as an instant from which replay can
read it back. In the range of the clock, this asks for one that is positive, or
that lies in the past without leaving the positive instants. -/
def ExpirySafe (now seconds : Int64) : Prop :=
  let duration := seconds * second
  if seconds ≤ 0 then 0 < now + duration ∧ duration ≤ 0
  else now + duration = 0 ∨
    (0 < now + duration ∧ (duration < 0 ∨ (0 < duration ∧ duration % second = 0)))

theorem expire_agrees {seconds : Int64} (clock : 0 ≤ now) (early : 0 < now + second)
    (state : KeyState MMapVectorIndex) :
    (if seconds ≤ 0 then none
      else KeyState.alive now { state with expiresAt := now + seconds * second }) =
      replayedExpiry now (now + seconds * second) state ↔
    ExpirySafe now seconds := by
  unfold ExpirySafe
  generalize seconds * second = duration
  unfold replayedExpiry
  by_cases cleared : now + duration ≤ 0
  · simp only [cleared, if_true]
    unfold KeyState.alive KeyState.isExpired
    grind
  · by_cases beyond : duration ≤ 0
    · have passed : deadlinePassed now (now + duration) = true := by
        unfold deadlinePassed
        grind
      simp only [cleared, if_false, passed, if_true]
      unfold KeyState.alive KeyState.isExpired
      grind
    · have ahead : deadlinePassed now (now + duration) = false := by
        unfold deadlinePassed
        grind
      have remaining : remainingTTL now (now + duration) = duration := by
        unfold remainingTTL
        grind
      have positive : 0 < duration := by grind
      obtain ⟨grantedPositive, bounded, whole⟩ := replaySeconds_spec positive
      simp only [cleared, if_false, ahead, remaining, Bool.false_eq_true]
      generalize replaySeconds duration * second = granted at *
      have grantedAhead : now ≤ now + granted := by grind
      have durationAhead : now ≤ now + duration := by grind
      have grantedAlive : KeyState.alive now { state with expiresAt := now + granted } = some _ :=
        KeyState.alive_of_ahead (Or.inr grantedAhead)
      have durationAlive : KeyState.alive now { state with expiresAt := now + duration } = some _ :=
        KeyState.alive_of_ahead (Or.inr durationAhead)
      rw [grantedAlive, durationAlive]
      by_cases ended : seconds ≤ 0
      · simp only [ended, if_true]
        grind
      · simp only [ended, if_false, Option.some.injEq, KeyState.mk.injEq, true_and]
        grind

/-!
## Agreement
-/

/-- What a session has made of the keyspace is what replaying the transactions it
appended makes of the keyspace before it. -/
def Agrees (vectors : VectorConfig) (now : Int64) (sequence : UInt64) (before : Store)
    (session : Session) : Prop :=
  ∃ replayed, replayEffects vectors now sequence session.appended.flatten before =
      (.ok (), replayed) ∧
    ∀ key, session.store.kv.keyspace now key = replayed.kv.keyspace now key

section Agreement

variable {vectors : VectorConfig} {now : Int64} {sequence : UInt64} {before : Store}
  {session : Session} {key : Bytes} {live replay : Option (KeyState MMapVectorIndex)}

theorem agrees_replayed_iff {replayed : Store}
    (ran : replayEffects vectors now sequence session.appended.flatten before =
      (.ok (), replayed)) :
    Agrees vectors now sequence before session ↔
      ∀ key, session.store.kv.keyspace now key = replayed.kv.keyspace now key := by
  constructor
  · rintro ⟨store, again, agree⟩
    rw [ran] at again
    cases again
    exact agree
  · intro agree
    exact ⟨replayed, ran, agree⟩

theorem agrees_single_iff {effect : WALEffect} {replayed : Store}
    (logged : session.appended.flatten = [effect])
    (applied : applyRecoveredEffect vectors now sequence effect before = (.ok (), replayed))
    (liveAlters : KVStore.Alters now key live before.kv session.store.kv)
    (replayAlters : KVStore.Alters now key replay before.kv replayed.kv) :
    Agrees vectors now sequence before session ↔ live = replay := by
  have ran : replayEffects vectors now sequence session.appended.flatten before =
      (.ok (), replayed) := by
    rw [logged]
    simp only [replayEffects, applied]
  rw [← liveAlters.agree_iff replayAlters]
  exact agrees_replayed_iff ran

theorem agrees_put_iff {value : Bytes} {expiresAt : Int64} (clock : 0 ≤ now)
    (logged : session.appended.flatten = [put key value expiresAt])
    (liveAlters : KVStore.Alters now key live before.kv session.store.kv) :
    Agrees vectors now sequence before session ↔ live = replayedState now expiresAt value :=
  agrees_single_iff logged (applyRecoveredEffect_set rfl vectors now sequence before) liveAlters
    (alters_recoverySet clock (put key value expiresAt) before)

theorem agrees_nothing_iff (logged : session.appended.flatten = [])
    (liveAlters : KVStore.Alters now key live before.kv session.store.kv) :
    Agrees vectors now sequence before session ↔ live = before.kv.keyspace now key := by
  rw [← liveAlters.agree_iff (KVStore.Alters.refl now key before.kv)]
  exact agrees_replayed_iff (by rw [logged]; rfl)

theorem agrees_unchanged (logged : session.appended.flatten = [])
    (same : session.store.kv = before.kv) : Agrees vectors now sequence before session :=
  ⟨before, by rw [logged]; rfl, fun key => by rw [same]⟩

end Agreement

/-!
## Setting
-/

theorem stringState_exists (now : Int64) (key : Bytes) (kv : KVStore MMapVectorIndex) :
    (stringState now key kv).exists = kv.exists now key := by
  unfold stringState KVStore.exists
  cases kv.get now key with
  | none => rfl
  | some entry =>
    simp only [StringState.ofEntry]
    split
    · rfl
    · split <;> rfl

theorem parsePositive_pos {text : Option Bytes} {number : Int64}
    (success : parsePositive text = .ok number) : 0 < number := by
  unfold parsePositive at success
  split at success
  · cases success
  split at success
  · cases success
  · cases success
    exact Int64.not_le.mp ‹_›

theorem thousandth_nonneg {number : Int64} (positive : 0 < number) : 0 ≤ number / 1000 := by
  have notMin : number ≠ Int64.minValue := by
    rintro rfl
    exact absurd positive (by decide)
  have above : 0 < number.toInt := Int64.lt_iff_toInt_lt.mp positive
  rw [Int64.le_iff_toInt_le, Int64.toInt_div_of_ne_left _ _ notMin]
  exact Int.tdiv_nonneg (by omega) (by decide)

theorem parseSetOptions_ttl {options : List (Option Bytes)} {start parsed : SetArgs}
    (nonneg : 0 ≤ start.ttlSec) (success : parseSetOptions options start = .ok parsed) :
    0 ≤ parsed.ttlSec := by
  fun_induction parseSetOptions options start with
  | case1 start =>
    cases success
    exact nonneg
  | case2 start arg rest option named ih => exact ih nonneg success
  | case3 start arg rest option _ named ih => exact ih nonneg success
  | case4 => cases success
  | case5 => cases success
  | case6 start arg option _ _ timed text rest number parsed' ih =>
    refine ih ?_ success
    have positive := parsePositive_pos parsed'
    dsimp only
    split
    · exact Int64.le_of_lt positive
    · exact thousandth_nonneg positive
  | case7 => cases success

theorem parseSetArgs_ttl {args : List (Option Bytes)} {parsed : SetArgs}
    (success : parseSetArgs args = .ok parsed) : 0 ≤ parsed.ttlSec := by
  cases args with
  | nil => cases success
  | cons value options => exact parseSetOptions_ttl (Int64.le_refl 0) success

/-- Where `SET` finds a string or nothing, its deadline has to be read back from
the instant in the log. Where it finds another type, milliseconds are logged for
its seconds, and only durations that wrap around in both units agree. -/
def SetSafe (now : Int64) (key : Bytes) (parsed : SetArgs) (kv : KVStore MMapVectorIndex) : Prop :=
  let duration := parsed.ttlSec * second
  (parsed.nx = true ∧ kv.exists now key = true) ∨ (parsed.xx = true ∧ kv.exists now key = false) ∨
    parsed.ttlSec = 0 ∨
    if stringState now key kv = .invalid then
      ¬ 0 < duration ∧ legacyExpiry now recordSet (parsed.ttlSec * millisecond) ≤ 0
    else (0 < duration ↔ 0 < now + duration)

theorem forever_agrees (now : Int64) (value : Bytes) :
    KeyState.alive now ⟨.bytes (some value), .string, 0⟩ = replayedState now 0 value := by
  rw [KeyState.alive_of_ahead (Or.inl rfl)]
  rfl

theorem stringSet_eq (now : Int64) (key : Bytes) (parsed : SetArgs)
    (kv : KVStore MMapVectorIndex) :
    StringStore.set now key parsed.value parsed.ttlSec parsed.nx parsed.xx kv =
      if (parsed.nx = true ∧ kv.exists now key = true) ∨
          (parsed.xx = true ∧ kv.exists now key = false) then (false, kv)
      else (true, kv.set now key (.bytes parsed.value) .string (parsed.ttlSec * second)) := by
  unfold StringStore.set
  cases parsed.nx <;> cases parsed.xx <;> cases kv.exists now key <;> rfl

variable {kv : KVStore MMapVectorIndex}

theorem prepareSet_eq {cmd : Command} {parsed : SetArgs} (arity : ¬ cmd.numArgs < 2)
    (parse : parseSetArgs cmd.args.tail = .ok parsed) :
    prepareSet now cmd kv =
      if stringState now (cmd.arg 0) kv = .invalid ∨
        ((parsed.nx = true ∧ kv.exists now (cmd.arg 0) = true) ∨
          (parsed.xx = true ∧ kv.exists now (cmd.arg 0) = false)) then []
      else [put (cmd.arg 0) (parsed.value.getD [])
        (if 0 < parsed.ttlSec then now + parsed.ttlSec * second else 0)] := by
  simp only [prepareSet, arity, parse, stringState_exists, if_false, Bool.not_eq_true]

/-- The deadline in the log of a `SET`. -/
def setDeadline (now : Int64) (key : Bytes) (parsed : SetArgs)
    (kv : KVStore MMapVectorIndex) : Int64 :=
  if stringState now key kv = .invalid then
    legacyExpiry now recordSet (parsed.ttlSec * millisecond)
  else if 0 < parsed.ttlSec then now + parsed.ttlSec * second else 0

theorem dispatchSet_stored {cmd : Command} {store : Store}
    (stored : (dispatchSet ⟨now, prepareSet now cmd store.kv ≠ []⟩ cmd
      (prepared (prepareSet now cmd store.kv) store)).1 = .simple "OK") :
    ∃ parsed, parseSetArgs cmd.args.tail = .ok parsed ∧
      (dispatchSet ⟨now, prepareSet now cmd store.kv ≠ []⟩ cmd
        (prepared (prepareSet now cmd store.kv) store)).2 =
      ⟨⟨store.kv.set now (cmd.arg 0) (.bytes parsed.value) .string (parsed.ttlSec * second),
          store.disk⟩,
        [[put (cmd.arg 0) (parsed.value.getD [])
          (setDeadline now (cmd.arg 0) parsed store.kv)]]⟩ := by
  rw [dispatchSet_eq] at stored ⊢
  by_cases arity : cmd.numArgs < 2
  · simp [arity] at stored
  cases parse : parseSetArgs cmd.args.tail with
  | error message => simp [arity, parse] at stored
  | ok parsed =>
    simp only [arity, if_false, parse, prepared_store, stringSet_eq] at stored ⊢
    refine ⟨parsed, rfl, ?_⟩
    rw [prepareSet_eq arity parse] at stored ⊢
    split at stored
    · cases stored
    rename_i kv set
    split at set
    · cases set
    rename_i admitted
    cases set
    simp only [admitted, or_false]
    unfold setDeadline
    by_cases invalid : stringState now (cmd.arg 0) store.kv = .invalid
    · simp only [invalid, if_true]
      rfl
    · simp only [invalid, if_false]
      rfl

theorem dispatchSet_agrees (clock : 0 ≤ now) (vectors : VectorConfig) (sequence : UInt64)
    (cmd : Command) (store : Store)
    (success : (dispatchSet ⟨now, prepareSet now cmd store.kv ≠ []⟩ cmd
      (prepared (prepareSet now cmd store.kv) store)).1.isError = false) :
    Agrees vectors now sequence store
        (dispatchSet ⟨now, prepareSet now cmd store.kv ≠ []⟩ cmd
          (prepared (prepareSet now cmd store.kv) store)).2 ↔
      ∀ parsed, parseSetArgs cmd.args.tail = .ok parsed →
        SetSafe now (cmd.arg 0) parsed store.kv := by
  rw [dispatchSet_eq] at success ⊢
  by_cases arity : cmd.numArgs < 2
  · simp [arity, Reply.isError] at success
  cases parse : parseSetArgs cmd.args.tail with
  | error message => simp [arity, parse, Reply.isError] at success
  | ok parsed =>
    have nonneg := parseSetArgs_ttl parse
    simp only [arity, if_false, Except.ok.injEq, forall_eq', prepared_store, stringSet_eq]
    unfold SetSafe
    rw [prepareSet_eq arity parse]
    by_cases refused : (parsed.nx = true ∧ store.kv.exists now (cmd.arg 0) = true) ∨
      (parsed.xx = true ∧ store.kv.exists now (cmd.arg 0) = false)
    · rw [if_pos (Or.inr refused), if_pos refused]
      constructor
      · intro _
        exact refused.imp id Or.inl
      · intro _
        exact agrees_unchanged (prepared_flatten [] store) rfl
    · simp only [refused, if_false, or_false]
      have safe : ∀ condition, ((parsed.nx = true ∧ store.kv.exists now (cmd.arg 0) = true) ∨
          (parsed.xx = true ∧ store.kv.exists now (cmd.arg 0) = false) ∨ condition) ↔
            condition := by
        intro condition
        grind
      rw [safe]
      have alters := KVStore.alters_set now (cmd.arg 0) (.bytes parsed.value) .string
        (parsed.ttlSec * second) store.kv
      by_cases invalid : stringState now (cmd.arg 0) store.kv = .invalid
      · simp only [invalid, if_true]
        rw [agrees_put_iff clock rfl alters]
        rcases Int64.lt_or_eq_of_le nonneg with positive | zero
        · have nonzero : parsed.ttlSec ≠ 0 := fun zero => by simp [zero] at positive
          simp only [nonzero, false_or]
          exact legacy_deadline_agrees clock _
        · rw [← zero]
          exact iff_of_true (forever_agrees now _) (Or.inl rfl)
      · simp only [invalid, if_false]
        rw [agrees_put_iff clock rfl alters]
        rcases Int64.lt_or_eq_of_le nonneg with positive | zero
        · have nonzero : parsed.ttlSec ≠ 0 := fun zero => by simp [zero] at positive
          simp only [nonzero, false_or, positive, if_true]
          exact set_deadline_agrees clock _
        · rw [← zero]
          exact iff_of_true (forever_agrees now _) (Or.inl rfl)

theorem dispatchSetex_agrees (clock : 0 ≤ now) (vectors : VectorConfig) (sequence : UInt64)
    (cmd : Command) (store : Store)
    (success : (dispatchSetex ⟨now, prepareSetex now cmd ≠ []⟩ cmd
      (prepared (prepareSetex now cmd) store)).1.isError = false) :
    Agrees vectors now sequence store
        (dispatchSetex ⟨now, prepareSetex now cmd ≠ []⟩ cmd
          (prepared (prepareSetex now cmd) store)).2 ↔
      ∀ seconds, parseInt (cmd.arg 1) = some seconds →
        (0 < seconds * second ↔ 0 < now + seconds * second) := by
  unfold dispatchSetex prepareSetex at *
  by_cases arity : cmd.numArgs < 3
  · simp [arity, Reply.isError] at success
  cases parse : parseInt (cmd.arg 1) with
  | none => simp [arity, parse, Reply.isError] at success
  | some seconds =>
    by_cases ended : seconds ≤ 0
    · simp [arity, parse, ended, Reply.isError] at success
    simp only [arity, ended, if_false, Option.some.injEq, forall_eq', prepared_store]
    have alters := KVStore.alters_set now (cmd.arg 0) (.bytes (cmd.argBytes 2)) .string
      (seconds * second) store.kv
    rw [agrees_put_iff clock rfl alters]
    exact set_deadline_agrees clock _

theorem dispatchSetnx_agrees (clock : 0 ≤ now) (vectors : VectorConfig) (sequence : UInt64)
    (cmd : Command) (store : Store) :
    Agrees vectors now sequence store
      (dispatchSetnx ⟨now, prepareSetnx now cmd store.kv ≠ []⟩ cmd
        (prepared (prepareSetnx now cmd store.kv) store)).2 := by
  unfold dispatchSetnx prepareSetnx
  by_cases arity : cmd.numArgs < 2
  · simp only [arity, if_true]
    exact agrees_unchanged rfl rfl
  simp only [arity, if_false, prepared_store, StringStore.set, Bool.true_and, Bool.false_and]
  have present := stringState_exists now (cmd.arg 0) store.kv
  cases state : stringState now (cmd.arg 0) store.kv with
  | absent =>
    rw [state] at present
    simp only [← present, StringState.exists]
    have alters := KVStore.alters_set now (cmd.arg 0) (.bytes (cmd.argBytes 1)) .string
      (0 * second) store.kv
    exact (agrees_put_iff clock rfl alters).mpr
      (forever_agrees now _)
  | invalid =>
    rw [state] at present
    simp only [← present, StringState.exists]
    exact agrees_unchanged rfl rfl
  | valid value expiresAt =>
    rw [state] at present
    simp only [← present, StringState.exists]
    exact agrees_unchanged rfl rfl

def emptyString : KeyState MMapVectorIndex := ⟨.bytes (some []), .string, 0⟩

variable {key : Bytes}

theorem stringGet_valid {old : Option Bytes} (success : StringStore.get now key kv = .ok old) :
    stringState now key kv ≠ .invalid := by
  unfold StringStore.get at success
  unfold stringState
  cases found : kv.get now key with
  | none => exact fun invalid => by cases invalid
  | some entry =>
    rw [found] at success
    simp only [StringState.ofEntry]
    by_cases string : entry.type = .string
    · simp only [string, ne_eq, not_true, if_false] at success ⊢
      cases value : entry.value with
      | bytes data => simp
      | index | other | nil => simp [value] at success
    · simp [string] at success

/-- Where `GETSET` misses its value, it still stores an empty one, which is not
logged. -/
theorem dispatchGetset_agrees (clock : 0 ≤ now) (vectors : VectorConfig) (sequence : UInt64)
    (cmd : Command) (store : Store)
    (success : (dispatchGetset ⟨now, prepareGetset now cmd store.kv ≠ []⟩ cmd
      (prepared (prepareGetset now cmd store.kv) store)).1.isError = false) :
    Agrees vectors now sequence store
        (dispatchGetset ⟨now, prepareGetset now cmd store.kv ≠ []⟩ cmd
          (prepared (prepareGetset now cmd store.kv) store)).2 ↔
      2 ≤ cmd.numArgs ∨ store.kv.keyspace now (cmd.arg 0) = some emptyString := by
  have alters := KVStore.alters_set now (cmd.arg 0) (.bytes (cmd.argBytes 1)) .string 0 store.kv
  unfold dispatchGetset prepareGetset StringStore.getSet at *
  simp only [prepared_store] at success ⊢
  cases got : StringStore.get now (cmd.arg 0) store.kv with
  | error message => simp [got, replyOf, Reply.isError] at success
  | ok old =>
    have valid := stringGet_valid got
    by_cases arity : cmd.numArgs < 2
    · have missing : cmd.argBytes 1 = none := by
        unfold Command.argBytes
        rw [List.getElem?_eq_none (by unfold Command.numArgs at arity; omega)]
        rfl
      simp only [arity, if_true]
      rw [agrees_nothing_iff rfl alters, missing]
      have stored : KeyState.alive now ⟨(Value.bytes none : Value MMapVectorIndex).content,
          .string, if (0 : Int64) < 0 then now + 0 else 0⟩ = some emptyString :=
        KeyState.alive_of_ahead (Or.inl rfl)
      rw [stored, eq_comm]
      exact ⟨Or.inr, fun holds => holds.resolve_left (by omega)⟩
    · simp only [arity, if_false]
      refine iff_of_true ?_ (Or.inl (by omega))
      exact (agrees_put_iff clock rfl alters).mpr
        (forever_agrees now _)

/-!
## Counting and appending
-/

/-- The deadline of a key is not this very instant, at which the key is still live
but its replay is not. -/
def NotDue (now : Int64) (key : Bytes) (kv : KVStore MMapVectorIndex) : Prop :=
  ∀ entry, kv.get now key = some entry → entry.expiresAt = 0 ∨ entry.expiresAt ≠ now

variable {entry : Entry MMapVectorIndex}

theorem live_deadline (found : kv.get now key = some entry) :
    entry.expiresAt = 0 ∨ now ≤ entry.expiresAt := by
  obtain ⟨-, live⟩ := Option.filter_eq_some_iff.mp found
  simp only [Entry.isExpired, Bool.not_and, Bool.not_not, Bool.or_eq_true, ne_eq, decide_not,
    decide_eq_true_eq, Bool.not_eq_eq_eq_not, Bool.not_true, decide_eq_false_iff_not,
    Int64.not_lt] at live
  exact live

/-- Changing the bytes of a live string in place and replaying a set with its
deadline agree unless it is due. -/
theorem update_agrees (clock : 0 ≤ now) (live : expiresAt = 0 ∨ now ≤ expiresAt) (value : Bytes) :
    KeyState.alive now ⟨.bytes (some value), .string, expiresAt⟩ =
      replayedState now expiresAt value ↔ expiresAt = 0 ∨ expiresAt ≠ now := by
  rw [alive_eq_replayedState_iff clock]
  grind

theorem appendSlice_content (data value : Option Bytes) :
    (StringStore.appendSlice data value).getD [] = data.getD [] ++ value.getD [] := by
  unfold StringStore.appendSlice
  split <;> simp_all

theorem incr_agrees (clock : 0 ≤ now) (vectors : VectorConfig) (sequence : UInt64) (amount : Int64)
    (cmd : Command) (store : Store)
    (success : (dispatchIncr ⟨now, prepareIncr now (some amount) cmd store.kv ≠ []⟩ amount cmd
      (prepared (prepareIncr now (some amount) cmd store.kv) store)).1.isError = false) :
    Agrees vectors now sequence store
        (dispatchIncr ⟨now, prepareIncr now (some amount) cmd store.kv ≠ []⟩ amount cmd
          (prepared (prepareIncr now (some amount) cmd store.kv) store)).2 ↔
      NotDue now (cmd.arg 0) store.kv := by
  unfold dispatchIncr StringStore.incr prepareIncr NotDue stringState at *
  simp only [prepared_store] at success ⊢
  cases found : store.kv.get now (cmd.arg 0) with
  | none =>
    obtain ⟨kv, written, dropped⟩ := KVStore.getForWrite_none found
    simp only [written, StringState.ofEntry, reduceCtorEq, false_implies, implies_true, iff_true]
    rw [Int64.zero_add]
    rw [agrees_put_iff clock rfl
      (dropped.trans ((KVStore.alters_put now (cmd.arg 0) _ kv).of_data rfl))]
    exact forever_agrees now _
  | some entry =>
    have live := live_deadline found
    simp only [KVStore.getForWrite_some found, StringState.ofEntry] at success ⊢
    by_cases string : entry.type = .string
    · simp only [string, ne_eq, not_true, if_false] at success ⊢
      cases value : entry.value with
      | index | other | nil => simp [value, replyOf, Reply.isError] at success
      | bytes data =>
        simp only [value] at success ⊢
        cases parse : parseInt (data.getD []) with
        | none => simp [parse, replyOf, Reply.isError] at success
        | some current =>
          simp only [Option.some.injEq, forall_eq']
          rw [agrees_put_iff clock rfl
            ((KVStore.alters_put now (cmd.arg 0) _ store.kv).of_data rfl)]
          simp only [Entry.state]
          exact update_agrees clock live _
    · simp [string, replyOf, Reply.isError] at success

theorem append_agrees (clock : 0 ≤ now) (vectors : VectorConfig) (sequence : UInt64) (cmd : Command)
    (store : Store)
    (success : (dispatchAppend ⟨now, prepareAppend now cmd store.kv ≠ []⟩ cmd
      (prepared (prepareAppend now cmd store.kv) store)).1.isError = false) :
    Agrees vectors now sequence store
        (dispatchAppend ⟨now, prepareAppend now cmd store.kv ≠ []⟩ cmd
          (prepared (prepareAppend now cmd store.kv) store)).2 ↔
      NotDue now (cmd.arg 0) store.kv := by
  unfold dispatchAppend StringStore.append prepareAppend NotDue stringState at *
  by_cases arity : cmd.numArgs < 2
  · simp [arity, Reply.isError] at success
  simp only [arity, if_false, prepared_store] at success ⊢
  cases found : store.kv.get now (cmd.arg 0) with
  | none =>
    obtain ⟨kv, written, dropped⟩ := KVStore.getForWrite_none found
    simp only [written, StringState.ofEntry, reduceCtorEq, false_implies, implies_true, iff_true]
    rw [agrees_put_iff clock rfl (dropped.trans (KVStore.alters_put now (cmd.arg 0) _ kv))]
    exact forever_agrees now _
  | some entry =>
    have live := live_deadline found
    simp only [KVStore.getForWrite_some found, StringState.ofEntry] at success ⊢
    by_cases string : entry.type = .string
    · simp only [string, ne_eq, not_true, if_false] at success ⊢
      cases value : entry.value with
      | index | other | nil => simp [value, replyOf, Reply.isError] at success
      | bytes data =>
        simp only [Option.some.injEq, forall_eq']
        rw [agrees_put_iff clock rfl (KVStore.alters_put now (cmd.arg 0) _ store.kv)]
        simp only [Entry.state, Value.content, appendSlice_content]
        exact update_agrees clock live _
    · simp [string, replyOf, Reply.isError] at success

/-!
## Deadlines of keys
-/

theorem exists_of_get (found : kv.get now key = some entry) :
    kv.exists now key = true := by
  simp [KVStore.exists, found]

theorem not_exists_of_get (absent : kv.get now key = none) : kv.exists now key = false := by
  simp [KVStore.exists, absent]

theorem dispatchExpire_agrees (clock : 0 ≤ now) (early : 0 < now + second) (vectors : VectorConfig)
    (sequence : UInt64) (cmd : Command) (store : Store)
    (success : (dispatchExpire ⟨now, prepareExpire now cmd store.kv ≠ []⟩ cmd
      (prepared (prepareExpire now cmd store.kv) store)).1.isError = false) :
    Agrees vectors now sequence store
        (dispatchExpire ⟨now, prepareExpire now cmd store.kv ≠ []⟩ cmd
          (prepared (prepareExpire now cmd store.kv) store)).2 ↔
      ∀ seconds, parseInt (cmd.arg 1) = some seconds → store.kv.exists now (cmd.arg 0) = true →
        ExpirySafe now seconds := by
  unfold dispatchExpire prepareExpire at *
  by_cases arity : cmd.numArgs < 2
  · simp [arity, Reply.isError] at success
  cases parse : parseInt (cmd.arg 1) with
  | none => simp [arity, parse, Reply.isError] at success
  | some seconds =>
    simp only [arity, if_false, Option.some.injEq, forall_eq', prepared_store]
    cases found : store.kv.get now (cmd.arg 0) with
    | none =>
      simp only [not_exists_of_get found, KVStore.expire_none found, Bool.false_eq_true,
        if_false, false_implies, iff_true]
      exact agrees_unchanged rfl rfl
    | some entry =>
      obtain ⟨changed, alters⟩ := KVStore.alters_expire found seconds
      obtain ⟨expired, outcome⟩ : ∃ kv, store.kv.expire now (cmd.arg 0) seconds = (true, kv) :=
        ⟨_, Prod.ext changed rfl⟩
      let effect : WALEffect := ⟨recordExpire, cmd.arg 0, [], now + seconds * second⟩
      have seen : store.kv.keyspace now effect.key = some entry.state := by
        rw [KVStore.keyspace, found]
        rfl
      have replay : KVStore.Alters now effect.key _ store.kv _ :=
        alters_recoveryExpire effect store
      rw [seen, Option.bind_some] at replay
      simp only [outcome] at alters
      simp only [exists_of_get found, outcome, if_true, true_implies]
      rw [Session.writeWAL_suppressed (by simp)]
      have logged : ((prepared [effect] store).withKV expired).appended.flatten = [effect] :=
        prepared_flatten [effect] store
      exact (agrees_single_iff logged (applyRecoveredEffect_expire rfl ..) alters replay).trans
        (expire_agrees clock early entry.state)

theorem dispatchPersist_agrees (now : Int64) (vectors : VectorConfig) (sequence : UInt64)
    (cmd : Command) (store : Store) :
    Agrees vectors now sequence store
      (dispatchPersist ⟨now, preparePersist now cmd store.kv ≠ []⟩ cmd
        (prepared (preparePersist now cmd store.kv) store)).2 := by
  unfold dispatchPersist preparePersist
  simp only [prepared_store]
  cases found : store.kv.get now (cmd.arg 0) with
  | none =>
    simp only [KVStore.persist_none found]
    exact agrees_unchanged rfl rfl
  | some entry =>
    have alters := KVStore.alters_persist found
    by_cases forever : entry.expiresAt = 0
    · simp only [forever, if_true]
      rw [agrees_nothing_iff rfl alters, KVStore.keyspace, found, ← forever]
      rfl
    · have seen : store.kv.keyspace now (cmd.arg 0) = some entry.state := by
        rw [KVStore.keyspace, found]
        rfl
      have replay : KVStore.Alters now (cmd.arg 0) _ store.kv _ :=
        alters_recoveryExpire ⟨recordExpire, cmd.arg 0, [], 0⟩ store
      simp only [seen, Option.bind_some] at replay
      simp only [forever, if_false]
      rw [agrees_single_iff rfl (applyRecoveredEffect_expire rfl ..) alters replay]
      rfl

/-!
## Renaming
-/

/-- A string is renamed to another key. Any other value is not logged, and is only
left alone when it keeps its key and is no open index. -/
def RenameSafe (now : Int64) (key newKey : Bytes) (kv : KVStore MMapVectorIndex) : Prop :=
  match stringState now key kv with
  | .valid _ _ => key ≠ newKey
  | _ => key = newKey ∧
      ∀ entry, kv.get now key = some entry → KVStore.closedValue entry = entry.value

theorem rename_ok {store : Store} (found : store.kv.get now key = some entry)
    (left : deadlinePassed now entry.expiresAt = false) (newKey : Bytes) :
    store.rename now key newKey = (.ok (),
      ⟨(store.kv.erase key).set now newKey (KVStore.closedValue entry) entry.type
        (remainingTTL now entry.expiresAt), (store.delete1 now key).disk⟩) := by
  simp [Store.rename, KVStore.rename, found, left]

theorem restoredDeadline_live (clock : 0 ≤ now) (live : expiresAt = 0 ∨ now ≤ expiresAt) :
    restoredDeadline expiresAt = expiresAt := by
  unfold restoredDeadline
  grind

theorem rename_keyspace (clock : 0 ≤ now) (found : kv.get now key = some entry)
    (left : deadlinePassed now entry.expiresAt = false) (newKey other : Bytes) :
    ((kv.erase key).set now newKey (KVStore.closedValue entry) entry.type
        (remainingTTL now entry.expiresAt)).keyspace now other =
      if other = newKey then
        some ⟨(KVStore.closedValue entry).content, entry.type, entry.expiresAt⟩
      else if other = key then none
      else kv.keyspace now other := by
  have restored := restoredDeadline_live clock (live_deadline found)
  have alters := KVStore.alters_set now newKey (KVStore.closedValue entry) entry.type
    (remainingTTL now entry.expiresAt) (kv.erase key)
  rw [deadline_remainingTTL left, alive_restoredDeadline clock left, restored] at alters
  by_cases renamed : other = newKey
  · rw [if_pos renamed, renamed, alters.same]
  rw [if_neg renamed, alters.other other renamed]
  by_cases old : other = key
  · rw [if_pos old, old, (KVStore.alters_erase now key kv).same]
  · rw [if_neg old, (KVStore.alters_erase now key kv).other other old]

theorem closedValue_string (string : entry.type = .string) :
    KVStore.closedValue entry = entry.value := by
  unfold KVStore.closedValue
  rw [string]

theorem closedValue_content_iff (entry : Entry MMapVectorIndex) :
    (KVStore.closedValue entry).content = entry.value.content ↔
      KVStore.closedValue entry = entry.value := by
  unfold KVStore.closedValue
  cases type : entry.type <;> cases value : entry.value <;> simp [Value.content]

theorem moved_unlogged_iff {newKey : Bytes} (seen : kv.keyspace now key = some entry.state) :
    (∀ other, (if other = newKey then
        some ⟨(KVStore.closedValue entry).content, entry.type, entry.expiresAt⟩
      else if other = key then none else kv.keyspace now other) = kv.keyspace now other) ↔
      key = newKey ∧ KVStore.closedValue entry = entry.value := by
  rw [← closedValue_content_iff]
  constructor
  · intro same
    have old := same key
    rw [seen] at old
    by_cases renamed : key = newKey
    · rw [if_pos renamed, Option.some.injEq, Entry.state, KeyState.mk.injEq] at old
      exact ⟨renamed, old.1⟩
    · rw [if_neg renamed, if_pos rfl] at old
      cases old
  · rintro ⟨rfl, closed⟩ other
    by_cases old : other = key
    · rw [if_pos old, old, seen, closed]
      rfl
    · rw [if_neg old, if_neg old]

theorem moved_logged_iff {newKey : Bytes} {installed removed : KVStore MMapVectorIndex}
    {state : KeyState MMapVectorIndex} (first : KVStore.Alters now newKey (some state) kv installed)
    (second : KVStore.Alters now key none installed removed) :
    (∀ other, (if other = newKey then some state
      else if other = key then none else kv.keyspace now other) = removed.keyspace now other) ↔
      key ≠ newKey := by
  constructor
  · rintro same rfl
    have lost := same key
    rw [if_pos rfl, second.same] at lost
    cases lost
  · intro differ other
    by_cases old : other = key
    · rw [old, if_neg differ, if_pos rfl, second.same]
    rw [if_neg old, second.other other old]
    by_cases renamed : other = newKey
    · rw [if_pos renamed, renamed, first.same]
    · rw [if_neg renamed, first.other other renamed]

theorem ofEntry_valid {value : Bytes}
    (valid : StringState.ofEntry (some entry) = .valid value expiresAt) :
    entry.type = .string ∧ entry.value.content = .bytes (some value) ∧
      entry.expiresAt = expiresAt := by
  simp only [StringState.ofEntry] at valid
  by_cases string : entry.type = .string
  · simp only [string, ne_eq, not_true, if_false] at valid
    cases slice : entry.value with
    | bytes data =>
      simp only [slice, StringState.valid.injEq] at valid
      exact ⟨string, by rw [Value.content, valid.1], valid.2⟩
    | index | other | nil => simp [slice] at valid
  · simp [string] at valid

theorem rename_agrees (clock : 0 ≤ now) (vectors : VectorConfig) (sequence : UInt64) (cmd : Command)
    (store : Store)
    (success : (dispatchRename ⟨now, prepareRename now cmd store.kv ≠ []⟩ cmd
      (prepared (prepareRename now cmd store.kv) store)).1.isError = false) :
    Agrees vectors now sequence store
        (dispatchRename ⟨now, prepareRename now cmd store.kv ≠ []⟩ cmd
          (prepared (prepareRename now cmd store.kv) store)).2 ↔
      RenameSafe now (cmd.arg 0) (cmd.arg 1) store.kv := by
  unfold dispatchRename prepareRename RenameSafe at *
  by_cases arity : cmd.numArgs < 2
  · simp [arity, Reply.isError] at success
  simp only [arity, if_false, prepared_store] at success ⊢
  cases found : store.kv.get now (cmd.arg 0) with
  | none => simp [Store.rename, KVStore.rename, found, replyOf, Reply.isError] at success
  | some entry =>
    cases left : deadlinePassed now entry.expiresAt with
    | true => simp [Store.rename, KVStore.rename, found, left, replyOf, Reply.isError] at success
    | false =>
      simp only [rename_ok found left]
      have moved := rename_keyspace clock found left (cmd.arg 1)
      have seen : store.kv.keyspace now (cmd.arg 0) = some entry.state := by
        rw [KVStore.keyspace, found]
        rfl
      have state : stringState now (cmd.arg 0) store.kv = .ofEntry (some entry) := by
        rw [stringState, found]
      cases valid : stringState now (cmd.arg 0) store.kv with
      | absent =>
        have present := stringState_exists now (cmd.arg 0) store.kv
        rw [valid, exists_of_get found] at present
        cases present
      | invalid =>
        simp only [Option.some.injEq, forall_eq']
        rw [agrees_replayed_iff rfl]
        simp only [moved]
        exact moved_unlogged_iff seen
      | valid value expiresAt =>
        obtain ⟨string, content, deadline⟩ := ofEntry_valid (state.symm.trans valid)
        have passed : deadlinePassed now expiresAt = false := deadline ▸ left
        have forwarded : replayedState now expiresAt value =
            some ⟨(KVStore.closedValue entry).content, entry.type, entry.expiresAt⟩ := by
          rw [closedValue_string string, content, string, deadline, replayedState, passed,
            if_neg (by simp), restoredDeadline_live clock (deadline ▸ live_deadline found)]
        let effect := put (cmd.arg 1) value expiresAt
        have installed : KVStore.Alters now (cmd.arg 1) _ store.kv _ :=
          forwarded ▸ alters_recoverySet clock effect store
        have removed := alters_delete1 now (cmd.arg 0) (recoverySet now effect store)
        have ran : replayEffects vectors now sequence
            [effect, ⟨recordDelete, cmd.arg 0, [], 0⟩] store =
            (.ok (), (recoverySet now effect store).delete1 now (cmd.arg 0)) := by
          have first : applyRecoveredEffect vectors now sequence effect store = _ :=
            applyRecoveredEffect_set rfl ..
          simp only [replayEffects, first]
          rfl
        rw [agrees_replayed_iff (by rw [prepared_flatten]; exact ran)]
        simp only [moved]
        exact moved_logged_iff installed removed

/-!
## Several keys
-/

def deletion (key : Bytes) : WALEffect := ⟨recordDelete, key, [], 0⟩

theorem replay_deletions (vectors : VectorConfig) (now : Int64) (sequence : UInt64)
    (keys : List Bytes) (store : Store) :
    ∃ replayed, replayEffects vectors now sequence (keys.map deletion) store = (.ok (), replayed) ∧
      ∀ key, replayed.kv.keyspace now key =
        if key ∈ keys then none else store.kv.keyspace now key := by
  induction keys generalizing store with
  | nil => exact ⟨store, rfl, fun key => by simp⟩
  | cons head keys ih =>
    obtain ⟨replayed, ran, removed⟩ := ih (store.delete1 now head)
    have applied : applyRecoveredEffect vectors now sequence (deletion head) store = _ :=
      applyRecoveredEffect_delete rfl ..
    refine ⟨replayed, ?_, fun key => ?_⟩
    · simp only [List.map_cons, replayEffects, applied]
      exact ran
    · have alters := alters_delete1 now head store
      rw [removed]
      by_cases first : key = head
      · rw [first, alters.same]
        simp
      · rw [alters.other key first]
        simp [first]

theorem delete_keyspace (now : Int64) (keys : List Bytes) (store : Store) (key : Bytes) :
    (store.delete now keys).2.kv.keyspace now key =
      if key ∈ keys then none else store.kv.keyspace now key := by
  rw [KVStore.keyspace, KVStore.keyspace, KVStore.get, KVStore.get, Store.delete_lookup]
  split <;> rfl

theorem writeWAL_deletions (moment : Moment) (keys : List Bytes) (session : Session) :
    (keys.foldl (fun session key => session.writeWAL moment recordDelete key [] 0) session).store =
        session.store ∧
      (keys.foldl (fun session key => session.writeWAL moment recordDelete key [] 0)
        session).appended.flatten =
        session.appended.flatten ++ if moment.suppressWAL then [] else keys.map deletion := by
  induction keys generalizing session with
  | nil => simp
  | cons key keys ih =>
    obtain ⟨stores, logs⟩ := ih (session.writeWAL moment recordDelete key [] 0)
    rw [List.foldl_cons]
    refine ⟨by rw [stores, Session.writeWAL_store], ?_⟩
    rw [logs]
    unfold Session.writeWAL
    cases moment.suppressWAL with
    | true => rfl
    | false => simp [deletion, legacyExpiry]

theorem agrees_deletions {vectors : VectorConfig} {sequence : UInt64} {before : Store}
    {session : Session} {keys logged : List Bytes}
    (log : session.appended.flatten = logged.map deletion)
    (removed : ∀ key, session.store.kv.keyspace now key =
      if key ∈ keys then none else before.kv.keyspace now key) (given : ∀ key ∈ logged, key ∈ keys)
    (left : ∀ key ∈ keys, key ∉ logged → before.kv.keyspace now key = none) :
    Agrees vectors now sequence before session := by
  obtain ⟨replayed, ran, again⟩ := replay_deletions vectors now sequence logged before
  rw [agrees_replayed_iff (by rw [log]; exact ran)]
  intro key
  rw [removed, again]
  by_cases gone : key ∈ logged
  · rw [if_pos gone, if_pos (given key gone)]
  rw [if_neg gone]
  by_cases asked : key ∈ keys
  · rw [if_pos asked, left key asked gone]
  · rw [if_neg asked]

theorem dispatchDel_agrees (now : Int64) (vectors : VectorConfig) (sequence : UInt64)
    (cmd : Command) (store : Store) :
    Agrees vectors now sequence store
      (dispatchDel ⟨now, prepareDel now cmd store.kv ≠ []⟩ cmd
        (prepared (prepareDel now cmd store.kv) store)).2 := by
  have effects : prepareDel now cmd store.kv =
      (cmd.keys.filter fun key => store.kv.exists now key).map deletion := rfl
  have unlogged : ∀ key ∈ cmd.keys, key ∉ cmd.keys.filter (fun key => store.kv.exists now key) →
      store.kv.keyspace now key = none := by
    intro key asked unlogged
    simpa [asked, KVStore.exists_eq_isSome_keyspace] using unlogged
  have logged : ∀ key ∈ cmd.keys.filter (fun key => store.kv.exists now key), key ∈ cmd.keys :=
    fun key kept => (List.mem_filter.mp kept).1
  unfold dispatchDel
  by_cases arity : cmd.numArgs < 1
  · have none : cmd.keys = [] := by
      simp only [Command.numArgs] at arity
      simpa [Command.keys] using arity
    rw [none] at effects
    simp only [arity, if_true, effects]
    exact agrees_unchanged rfl rfl
  simp only [arity, if_false, prepared_store]
  have removed := delete_keyspace now cmd.keys store
  obtain ⟨stores, logs⟩ := writeWAL_deletions ⟨now, prepareDel now cmd store.kv ≠ []⟩ cmd.keys
    ⟨(store.delete now cmd.keys).2, (prepared (prepareDel now cmd store.kv) store).appended⟩
  rw [prepared_flatten] at logs
  by_cases quiet : prepareDel now cmd store.kv = []
  · -- no key was live, so whatever is logged afterwards had nothing left to delete
    have empty : cmd.keys.filter (fun key => store.kv.exists now key) = [] := by
      rw [effects] at quiet
      exact List.map_eq_nil_iff.mp quiet
    have absent : ∀ key ∈ cmd.keys, store.kv.keyspace now key = none :=
      fun key asked => unlogged key asked (by rw [empty]; exact List.not_mem_nil)
    by_cases counted : 0 < (store.delete now cmd.keys).1
    · simp only [counted, if_true]
      refine agrees_deletions (logs.trans ?_) (by rw [stores]; exact removed)
        (fun key asked => asked) (fun key asked _ => absent key asked)
      simp [quiet]
    · simp only [counted, if_false]
      have nothing : (prepared (prepareDel now cmd store.kv) store).appended.flatten =
          ([] : List Bytes).map deletion := by
        rw [prepared_flatten]
        exact quiet
      exact agrees_deletions nothing removed (by simp) (fun key asked _ => absent key asked)
  · by_cases counted : 0 < (store.delete now cmd.keys).1
    · simp only [counted, if_true]
      refine agrees_deletions (logs.trans ?_) (by rw [stores]; exact removed) logged unlogged
      rw [if_pos (by simpa using quiet), List.append_nil]
      exact effects
    · simp only [counted, if_false]
      exact agrees_deletions ((prepared_flatten _ store).trans effects) removed logged unlogged

def plain (value : Option Bytes) : KeyState MMapVectorIndex :=
  ⟨.bytes (some (value.getD [])), .string, 0⟩

theorem alters_plain (now : Int64) (key : Bytes) (value : Option Bytes)
    (kv : KVStore MMapVectorIndex) :
    KVStore.Alters now key (some (plain value)) kv
      (kv.set now key (.bytes value) .string 0) := by
  have alters := KVStore.alters_set now key (.bytes value) .string 0 kv
  rw [KeyState.alive_of_ahead (Or.inl rfl)] at alters
  exact alters

def overlaid (pairs : AList fun _ : Bytes => Option Bytes)
    (base : Bytes → Option (KeyState MMapVectorIndex)) (key : Bytes) :
    Option (KeyState MMapVectorIndex) :=
  match pairs.lookup key with
  | none => base key
  | some value => some (plain value)

theorem mSet_keyspace (now : Int64) (pairs : AList fun _ : Bytes => Option Bytes)
    (kv : KVStore MMapVectorIndex) (key : Bytes) :
    (StringStore.mSet now pairs kv).keyspace now key =
      overlaid pairs (kv.keyspace now) key := by
  unfold StringStore.mSet overlaid AList.lookup
  have observed := KeyedStore.foldl_observed (fun kv key => kv.keyspace now key)
    (fun kv key value => kv.set now key (.bytes value) .string 0)
    (fun _ value _ => some (plain value))
    (fun kv key value => (alters_plain now key value kv).same)
    (fun kv key value => (alters_plain now key value kv).other) pairs.nodupKeys kv key
  rw [observed]
  cases List.dlookup key pairs.entries <;> rfl

theorem replay_pairs (clock : 0 ≤ now) (vectors : VectorConfig) (sequence : UInt64)
    (base : Bytes → Option (KeyState MMapVectorIndex)) (pairs : List (Bytes × Option Bytes))
    (before : AList fun _ : Bytes => Option Bytes) (store : Store)
    (installed : ∀ key, store.kv.keyspace now key = overlaid before base key) :
    ∃ replayed, replayEffects vectors now sequence
        (pairs.map fun pair => put pair.1 (pair.2.getD []) 0) store = (.ok (), replayed) ∧
      ∀ key, replayed.kv.keyspace now key = overlaid
        (pairs.foldl (fun pairs pair => pairs.insert pair.1 pair.2) before) base key := by
  induction pairs generalizing before store with
  | nil => exact ⟨store, rfl, installed⟩
  | cons pair pairs ih =>
    let effect := put pair.1 (pair.2.getD []) 0
    have alters : KVStore.Alters now pair.1 (some (plain pair.2)) store.kv
        (recoverySet now effect store).kv := alters_recoverySet clock effect store
    obtain ⟨replayed, ran, overlay⟩ := ih (before.insert pair.1 pair.2)
      (recoverySet now effect store) fun key => by
        by_cases first : key = pair.1
        · rw [first, alters.same, overlaid, AList.lookup_insert]
        · rw [alters.other key first, installed, overlaid, overlaid,
            AList.lookup_insert_ne first]
    have applied : applyRecoveredEffect vectors now sequence effect store = _ :=
      applyRecoveredEffect_set rfl ..
    refine ⟨replayed, ?_, overlay⟩
    rw [List.map_cons]
    change replayEffects vectors now sequence (effect :: _) store = _
    simp only [replayEffects, applied]
    exact ran

theorem dispatchMset_agrees (clock : 0 ≤ now) (vectors : VectorConfig) (sequence : UInt64)
    (cmd : Command) (store : Store) :
    Agrees vectors now sequence store
      (dispatchMset ⟨now, prepareMset cmd ≠ []⟩ cmd (prepared (prepareMset cmd) store)).2 := by
  unfold dispatchMset
  by_cases arity : cmd.numArgs < 2 ∨ cmd.numArgs % 2 ≠ 0
  · simp only [prepareMset, if_pos arity]
    exact agrees_unchanged rfl rfl
  have effects : prepareMset cmd =
      (argPairs cmd.args).map fun pair => put pair.1 (pair.2.getD []) 0 := if_neg arity
  have suppressed := prepareMset_ne_nil arity
  simp only [arity, if_false, prepared_store]
  rw [List.foldl_fixed' fun pair => Session.writeWAL_suppressed (by simpa using suppressed) ..]
  obtain ⟨replayed, ran, overlay⟩ := replay_pairs clock vectors sequence
    (store.kv.keyspace now) (argPairs cmd.args) ∅ store fun key => rfl
  rw [← effects, ← prepared_flatten (prepareMset cmd) store] at ran
  refine ⟨replayed, ran, ?_⟩
  intro key
  rw [overlay, Session.withKV_kv, mSet_keyspace]
  rfl

/-- `INCRBY` and `DECRBY` once their amount has been read. -/
theorem dispatchIncrBy_agrees (clock : 0 ≤ now) (vectors : VectorConfig) (sequence : UInt64)
    {name : String} {signed : Int64 → Int64} {amount : Option Int64} {cmd : Command} {store : Store}
    (read : amount = (parseInt (cmd.arg 1)).map signed)
    (success : (dispatchIncrBy ⟨now, prepareIncr now amount cmd store.kv ≠ []⟩ name signed cmd
      (prepared (prepareIncr now amount cmd store.kv) store)).1.isError = false) :
    Agrees vectors now sequence store
        (dispatchIncrBy ⟨now, prepareIncr now amount cmd store.kv ≠ []⟩ name signed cmd
          (prepared (prepareIncr now amount cmd store.kv) store)).2 ↔
      NotDue now (cmd.arg 0) store.kv := by
  unfold dispatchIncrBy at *
  by_cases arity : cmd.numArgs < 2
  · simp [arity, Reply.isError] at success
  cases parsed : parseInt (cmd.arg 1) with
  | none => simp [arity, parsed, Reply.isError] at success
  | some number =>
    rw [parsed, Option.map_some] at read
    subst read
    simp only [arity, if_false, parsed] at success ⊢
    exact incr_agrees clock vectors sequence (signed number) cmd store success

/-!
## Every durable string command
-/

/-- What a command needs of its arguments and of the keyspace before it, for the
log to say what it does. -/
def ReplaySafe (now : Int64) (name : CommandName) (cmd : Command)
    (kv : KVStore MMapVectorIndex) : Prop :=
  match name with
  | .set => ∀ parsed, parseSetArgs cmd.args.tail = .ok parsed → SetSafe now (cmd.arg 0) parsed kv
  | .setex => ∀ seconds, parseInt (cmd.arg 1) = some seconds →
      (0 < seconds * second ↔ 0 < now + seconds * second)
  | .getset => 2 ≤ cmd.numArgs ∨ kv.keyspace now (cmd.arg 0) = some emptyString
  | .expire => ∀ seconds, parseInt (cmd.arg 1) = some seconds →
      kv.exists now (cmd.arg 0) = true → ExpirySafe now seconds
  | .rename => RenameSafe now (cmd.arg 0) (cmd.arg 1) kv
  | .incr | .decr | .incrby | .decrby | .append => NotDue now (cmd.arg 0) kv
  | _ => True

theorem dispatched_agrees_iff (config : ExecutorConfig) (clock : 0 ≤ now) (early : 0 < now + second)
    (sequence : UInt64) {name : CommandName} (cmd : Command) (store : Store)
    (durable : (prepareDurableEffects now name cmd store.kv).isSome = true)
    (success : (dispatched config now name cmd store).1.isError = false) :
    Agrees config.vectors now sequence store (dispatched config now name cmd store).2 ↔
      ReplaySafe now name cmd store.kv := by
  cases name with
  | set => exact dispatchSet_agrees clock config.vectors sequence cmd store success
  | setex => exact dispatchSetex_agrees clock config.vectors sequence cmd store success
  | getset => exact dispatchGetset_agrees clock config.vectors sequence cmd store success
  | expire => exact dispatchExpire_agrees clock early config.vectors sequence cmd store success
  | rename => exact rename_agrees clock config.vectors sequence cmd store success
  | incr => exact incr_agrees clock config.vectors sequence 1 cmd store success
  | decr => exact incr_agrees clock config.vectors sequence (-1) cmd store success
  | incrby =>
    exact dispatchIncrBy_agrees clock config.vectors sequence Option.map_id'.symm success
  | decrby => exact dispatchIncrBy_agrees clock config.vectors sequence rfl success
  | append => exact append_agrees clock config.vectors sequence cmd store success
  | setnx =>
    exact iff_of_true (dispatchSetnx_agrees clock config.vectors sequence cmd store) trivial
  | mset => exact iff_of_true (dispatchMset_agrees clock config.vectors sequence cmd store) trivial
  | del => exact iff_of_true (dispatchDel_agrees now config.vectors sequence cmd store) trivial
  | persist =>
    exact iff_of_true (dispatchPersist_agrees now config.vectors sequence cmd store) trivial
  | _ => cases durable

/-- Where a durable string command succeeds, replaying what it appended to the
log leads from the keyspace before it to the one after it exactly under the
condition for its kind. -/
theorem execute_replays_iff (config : ExecutorConfig) {now : Int64} (clock : 0 ≤ now)
    (early : 0 < now + second) (sequence : UInt64) {name : CommandName} (cmd : Command)
    (executor : Executor) (known : lookup cmd.normalized = some name)
    (durable : (prepareDurableEffects now name cmd executor.store.kv).isSome = true)
    (success : (execute config now cmd executor).reply.isError = false) :
    (∃ replayed,
      replayEffects config.vectors now sequence
          (execute config now cmd executor).appended.flatten executor.store = (.ok (), replayed) ∧
        ∀ key, (execute config now cmd executor).executor.store.kv.keyspace now key =
          replayed.kv.keyspace now key) ↔
      ReplaySafe now name cmd executor.store.kv := by
  obtain ⟨reply, appended, store⟩ := execute_follows known success
  rw [reply] at success
  rw [appended, store]
  exact dispatched_agrees_iff config clock early sequence cmd executor.store durable success

def oneString : Executor :=
  ⟨⟨KVStore.new.set 0 [0x6b] (.bytes (some [0x76])) .string 0, fun _ => .absent⟩, 0⟩

def renameKey (newKey : Bytes) : Command := ⟨ascii "RENAME", [some [0x6b], some newKey]⟩

/-- Renaming a string to its own name succeeds and keeps it, and replaying the
transaction it has logged deletes it. -/
theorem rename_to_itself_deleted :
    (execute keysOnly 0 (renameKey [0x6b]) oneString).reply.isError = false ∧
      (execute keysOnly 0 (renameKey [0x6b]) oneString).executor.store.kv.keyspace 0 [0x6b] =
        some ⟨.bytes (some [0x76]), .string, 0⟩ ∧
      ∃ replayed, replayEffects keysOnly.vectors 0 1
          (execute keysOnly 0 (renameKey [0x6b]) oneString).appended.flatten oneString.store =
            (.ok (), replayed) ∧
        replayed.kv.keyspace 0 [0x6b] = none :=
  ⟨rfl, rfl, _, rfl, rfl⟩

theorem rename_to_another_replayed :
    ∃ replayed, replayEffects keysOnly.vectors 0 1
        (execute keysOnly 0 (renameKey [0x6c]) oneString).appended.flatten oneString.store =
          (.ok (), replayed) ∧
      ∀ key, (execute keysOnly 0 (renameKey [0x6c]) oneString).executor.store.kv.keyspace 0 key =
        replayed.kv.keyspace 0 key :=
  (execute_replays_iff keysOnly (by decide) (by decide) 1 (renameKey [0x6c]) oneString
    (by decide : lookup (renameKey [0x6c]).normalized = some .rename) rfl rfl).mpr
    (show RenameSafe 0 [0x6b] [0x6c] oneString.store.kv from
      (by decide : ([0x6b] : Bytes) ≠ [0x6c]))

end Dbx.Query
