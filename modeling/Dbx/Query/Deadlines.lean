import Dbx.Query.ReplayAgreement

/-!
# Times to live as instants

A time to live is scaled to nanoseconds in `int64`, once for the store and once for the log. `PX` is
first cut to whole seconds.
-/

set_option autoImplicit false

namespace Dbx.Query

open Dbx.Engine Dbx.Persistence Dbx.Protocol

variable {now : Int64} {cmd : Command} {nanos : Int} {store : Store}

/-- The last time to live among the options of `SET`, in nanoseconds. -/
def timeToLive : List (Option Bytes) → Option Int
  | [] => none
  | arg :: rest =>
    let option := toUpper (arg.getD [])
    if option = ascii "EX" ∨ option = ascii "PX" then
      match rest with
      | [] => none
      | number :: rest =>
        (timeToLive rest).or ((parseInt (number.getD [])).map fun number =>
          if option = ascii "EX" then number.toInt * 1000000000 else number.toInt * 1000000)
    else timeToLive rest

def requestedNanos (name : CommandName) (cmd : Command) : Option Int :=
  match name with
  | .set => timeToLive (cmd.args.drop 2)
  | .setex | .expire => (parseInt (cmd.arg 1)).map fun number => number.toInt * 1000000000
  | _ => none

theorem toInt_thousandth {number : Int64} (positive : 0 < number) :
    (number / 1000).toInt = number.toInt / 1000 := by
  have notMin : number ≠ Int64.minValue := by
    rintro rfl
    exact absurd positive (by decide)
  have above : 0 < number.toInt := Int64.lt_iff_toInt_lt.mp positive
  have thousand : (1000 : Int64).toInt = 1000 := by decide
  rw [Int64.toInt_div_of_ne_left _ _ notMin, thousand, Int.tdiv_eq_ediv_of_nonneg (by omega)]

theorem parsePositive_eq {text : Option Bytes} {number : Int64}
    (success : parsePositive text = .ok number) : parseInt (text.getD []) = some number := by
  unfold parsePositive at success
  split at success
  · cases success
  split at success
  · cases success
  · cases success
    assumption

theorem timeToLive_flag {arg : Option Bytes} (rest : List (Option Bytes))
    (flag : ¬ (toUpper (arg.getD []) = ascii "EX" ∨ toUpper (arg.getD []) = ascii "PX")) :
    timeToLive (arg :: rest) = timeToLive rest := by
  rw [timeToLive.eq_def]
  simp only [flag, if_false]

-- The seconds that parsing keeps are the whole ones of the last option.
theorem parseSetOptions_seconds {options : List (Option Bytes)} {start parsed : SetArgs}
    (success : parseSetOptions options start = .ok parsed) :
    match timeToLive options with
    | none => parsed.ttlSec = start.ttlSec
    | some nanos => 0 < nanos ∧ parsed.ttlSec.toInt = nanos / 1000000000 := by
  fun_induction parseSetOptions options start with
  | case1 start =>
    cases success
    rfl
  | case2 arg rest start option named ih =>
    rw [timeToLive_flag rest (by rw [show toUpper _ = ascii "NX" from named]; decide)]
    exact ih success
  | case3 arg rest start option _ named ih =>
    rw [timeToLive_flag rest (by rw [show toUpper _ = ascii "XX" from named]; decide)]
    exact ih success
  | case4 => cases success
  | case5 => cases success
  | case6 arg start option _ _ timed text rest number parsed' ih =>
    have later := ih success
    have positive := parsePositive_pos parsed'
    have above : 0 < number.toInt := Int64.lt_iff_toInt_lt.mp positive
    rw [timeToLive, if_pos timed]
    simp only [parsePositive_eq parsed', Option.map_some]
    cases found : timeToLive rest with
    | some nanos =>
      rw [found] at later
      exact later
    | none =>
      rw [found] at later
      have kept : parsed.ttlSec = if option = ascii "EX" then number else number / 1000 := later
      rw [kept, Option.none_or]
      dsimp only
      by_cases seconds : toUpper (arg.getD []) = ascii "EX"
      · have named : option = ascii "EX" := seconds
        simp only [named, seconds, if_true]
        omega
      · have named : ¬ option = ascii "EX" := seconds
        simp only [named, seconds, if_false, toInt_thousandth positive]
        omega
  | case7 => cases success

theorem toInt_millisecond : millisecond.toInt = 1000000 := by decide

/-- An instant in unbounded arithmetic is the one of a deadline; zero is no deadline. -/
def IsDeadline (expiresAt : Int64) (instant : Int) : Prop :=
  expiresAt ≠ 0 ∧ expiresAt.toInt = instant

/-- The instant lies in the range of the clock, and so does the time to live itself. -/
def InRange (now : Int64) (nanos : Int) : Prop :=
  nanos < 2 ^ 63 ∧ now.toInt + nanos < 2 ^ 63 ∧ now.toInt + nanos ≠ 0

theorem toInt_add_wraps (left right : Int64) :
    ∃ wraps : Int, (left + right).toInt + 2 ^ 64 * wraps = left.toInt + right.toInt :=
  ⟨_, by rw [Int64.toInt_add]; exact Int.bmod_add_bdiv _ _⟩

theorem toInt_seconds_wraps (seconds : Int64) :
    ∃ wraps : Int, (seconds * second).toInt + 2 ^ 64 * wraps = seconds.toInt * 1000000000 :=
  ⟨_, by rw [Int64.toInt_mul, toInt_second]; exact Int.bmod_add_bdiv _ _⟩

theorem isDeadline_iff {expiresAt : Int64} {instant : Int} :
    IsDeadline expiresAt instant ↔ instant ≠ 0 ∧ expiresAt.toInt = instant := by
  have zero : expiresAt = 0 ↔ expiresAt.toInt = 0 := by rw [← Int64.toInt_inj]; rfl
  unfold IsDeadline
  rw [ne_eq, zero]
  constructor
  · intro ⟨nonzero, exact⟩
    exact ⟨exact ▸ nonzero, exact⟩
  · intro ⟨nonzero, exact⟩
    exact ⟨exact ▸ nonzero, exact⟩

theorem deadline_iff {seconds : Int64} (positive : 0 < nanos)
    (whole : seconds.toInt = nanos / 1000000000) :
    IsDeadline (if 0 < seconds * second then now + seconds * second else 0) (now.toInt + nanos) ↔
      1000000000 ∣ nanos ∧ InRange now nanos := by
  have lower := now.le_toInt
  have upper := now.toInt_lt
  obtain ⟨scaled, product⟩ := toInt_seconds_wraps seconds
  have productLower := (seconds * second).le_toInt
  have productUpper := (seconds * second).toInt_lt
  obtain ⟨carried, sum⟩ := toInt_add_wraps now (seconds * second)
  have sumLower := (now + seconds * second).le_toInt
  have sumUpper := (now + seconds * second).toInt_lt
  have counted : 0 < seconds * second ↔ 0 < (seconds * second).toInt := by
    rw [Int64.lt_iff_toInt_lt]
    rfl
  rw [isDeadline_iff]
  unfold InRange
  generalize (seconds * second).toInt = nanoseconds at *
  by_cases counts : 0 < seconds * second
  · rw [if_pos counts]
    rw [counted] at counts
    generalize (now + seconds * second).toInt = deadline at *
    constructor
    · intro ⟨nonzero, exact⟩
      have unwrapped : carried = 0 := by omega
      omega
    · intro ⟨divides, small, fits, nonzero⟩
      have unscaled : scaled = 0 := by omega
      omega
  · rw [if_neg counts]
    rw [counted] at counts
    refine iff_of_false (fun ⟨nonzero, exact⟩ => nonzero exact.symm) ?_
    intro ⟨divides, small, fits, nonzero⟩
    have unscaled : scaled = 0 := by omega
    omega

-- `EXPIRE` scales without looking at the sign of the product.
theorem expire_deadline_iff {seconds : Int64} (positive : 0 < seconds.toInt) :
    IsDeadline (now + seconds * second) (now.toInt + seconds.toInt * 1000000000) ↔
      now.toInt + seconds.toInt * 1000000000 < 2 ^ 63 ∧
        now.toInt + seconds.toInt * 1000000000 ≠ 0 := by
  have lower := now.le_toInt
  obtain ⟨scaled, product⟩ := toInt_seconds_wraps seconds
  obtain ⟨carried, sum⟩ := toInt_add_wraps now (seconds * second)
  have sumLower := (now + seconds * second).le_toInt
  have sumUpper := (now + seconds * second).toInt_lt
  rw [isDeadline_iff]
  constructor
  · intro ⟨nonzero, exact⟩
    omega
  · intro ⟨fits, nonzero⟩
    omega

-- Over another type, the log gets as many milliseconds as the store gets seconds.
theorem milliseconds_differ {seconds : Int64} (positive : 0 < nanos)
    (whole : seconds.toInt = nanos / 1000000000) (divides : 1000000000 ∣ nanos)
    (range : InRange now nanos) :
    ¬ IsDeadline (legacyExpiry now recordSet (seconds * millisecond)) (now.toInt + nanos) := by
  obtain ⟨small, fits, nonzero⟩ := range
  have lower := now.le_toInt
  have product : (seconds * millisecond).toInt = seconds.toInt * 1000000 := by
    rw [Int64.toInt_mul, toInt_millisecond, Int.bmod_eq_of_le] <;> omega
  have sum : (now + seconds * millisecond).toInt = now.toInt + seconds.toInt * 1000000 := by
    rw [Int64.toInt_add, product, Int.bmod_eq_of_le] <;> omega
  have counts : 0 < seconds * millisecond := by
    rw [Int64.lt_iff_toInt_lt, product]
    change 0 < _
    omega
  rw [isDeadline_iff, legacyExpiry, if_pos ⟨counts, Or.inl (by decide)⟩, sum]
  omega

structure DeadlineKept (now : Int64) (nanos : Int) (key : Bytes) (session : Session) : Prop where
  live : ∃ entry, session.store.kv.data.lookup key = some entry ∧
    IsDeadline entry.expiresAt (now.toInt + nanos)
  logged : ∃ effect, session.appended = [[effect]] ∧ effect.key = key ∧
    IsDeadline effect.expiresAt (now.toInt + nanos)

/-- The key is gone, and replaying the log at the same instant or later removes it. -/
structure KeyRemoved (now : Int64) (key : Bytes) (session : Session) : Prop where
  live : session.store.kv.data.lookup key = none
  replayed : ∀ vectors sequence later before, now ≤ later →
    (replayEffects vectors later sequence session.appended.flatten before).2.kv.data.lookup key =
      none

def KeepsTime (now : Int64) (nanos : Int) (key : Bytes) (session : Session) : Prop :=
  if nanos ≤ 0 then KeyRemoved now key session else DeadlineKept now nanos key session

theorem deadlineKept_iff {key : Bytes} {session : Session} {entry : Entry MMapVectorIndex}
    {effect : WALEffect} (positive : 0 < nanos)
    (live : session.store.kv.data.lookup key = some entry)
    (logged : session.appended = [[effect]]) (named : effect.key = key) :
    KeepsTime now nanos key session ↔ IsDeadline entry.expiresAt (now.toInt + nanos) ∧
      IsDeadline effect.expiresAt (now.toInt + nanos) := by
  rw [KeepsTime, if_neg (by omega)]
  constructor
  · intro ⟨⟨_, live', kept⟩, ⟨_, logged', _, kept'⟩⟩
    cases live.symm.trans live'
    cases logged.symm.trans logged'
    exact ⟨kept, kept'⟩
  · intro ⟨kept, kept'⟩
    exact ⟨⟨entry, live, kept⟩, effect, logged, named, kept'⟩

theorem replay_expire_removes_iff {key : Bytes} {expiresAt : Int64} :
    (∀ vectors sequence later before, now ≤ later →
        (replayEffects vectors later sequence [⟨recordExpire, key, [], expiresAt⟩]
          before).2.kv.data.lookup key = none) ↔
      0 < expiresAt ∧ expiresAt ≤ now := by
  have replayed (vectors : VectorConfig) (sequence : UInt64) (later : Int64) (before : Store) :
      (replayEffects vectors later sequence [⟨recordExpire, key, [], expiresAt⟩] before).2 =
        recoveryExpire later ⟨recordExpire, key, [], expiresAt⟩ before := by
    have applied : applyRecoveredEffect vectors later sequence ⟨recordExpire, key, [], expiresAt⟩
      before = _ := applyRecoveredEffect_expire rfl ..
    simp only [replayEffects, applied]
  simp only [replayed, recoveryExpire]
  constructor
  · intro removes
    -- a string without a deadline survives unless replay finds the deadline passed
    have passes (later : Int64) (reached : now ≤ later) :
        0 < expiresAt ∧ deadlinePassed later expiresAt = true := by
      let entry : Entry MMapVectorIndex := ⟨.bytes none, .string, 0, 0⟩
      obtain ⟨kv, found, present⟩ : ∃ kv : KVStore MMapVectorIndex,
          kv.get later key = some entry ∧ kv.data.lookup key = some entry :=
        ⟨KVStore.new.put key entry, KVStore.get_put_same key rfl _, AList.lookup_insert _⟩
      have removed := removes ⟨[], [], 0, 0, .float32⟩ 0 later ⟨kv, Store.empty.disk⟩ reached
      by_cases ahead : expiresAt ≤ 0
      · simp [ahead, KVStore.persist, found, present, entry] at removed
      by_cases passed : deadlinePassed later expiresAt = true
      · exact ⟨Int64.not_le.mp ahead, passed⟩
      have positive : ¬ replaySeconds (remainingTTL later expiresAt) ≤ 0 := by
        unfold replaySeconds
        split
        · decide
        · rename_i whole
          exact fun low => whole (Int64.lt_of_le_of_lt low (by decide : (0 : Int64) < 1))
      simp [ahead, passed, KVStore.expire, found, positive] at removed
    rcases Int64.le_total 0 now with clock | early
    · have passed := passes now (Int64.le_refl now)
      unfold deadlinePassed at passed
      grind
    · have passed := passes 0 early
      unfold deadlinePassed at passed
      grind
  · rintro ⟨positive, past⟩ vectors sequence later before reached
    have passed : deadlinePassed later expiresAt = true := by
      unfold deadlinePassed
      grind
    rw [if_neg (Int64.not_le.mpr positive), if_pos passed, Store.delete1_kv]
    exact AList.lookup_erase ..

def timedCommands : List CommandName := [.set, .setex, .expire]

/-- The reply that tells a client that its time to live is in force. -/
def AcceptsTime (name : CommandName) (reply : Reply) : Prop :=
  match name with
  | .expire => reply = .integer 1
  | _ => reply = .simple "OK"

def TimeSafe (now : Int64) (name : CommandName) (nanos : Int) (key : Bytes)
    (kv : KVStore MMapVectorIndex) : Prop :=
  if nanos ≤ 0 then 0 < now + Int64.ofInt nanos ∧ now + Int64.ofInt nanos ≤ now
  else
    match name with
    | .expire => now.toInt + nanos < 2 ^ 63 ∧ now.toInt + nanos ≠ 0
    | .set => 1000000000 ∣ nanos ∧ InRange now nanos ∧ stringState now key kv ≠ .invalid
    | _ => InRange now nanos

theorem dispatchSet_keeps_iff (requested : requestedNanos .set cmd = some nanos)
    (accepted : (dispatchSet ⟨now, prepareSet now cmd store.kv ≠ []⟩ cmd
      (prepared (prepareSet now cmd store.kv) store)).1 = .simple "OK") :
    KeepsTime now nanos (cmd.arg 0) (dispatchSet ⟨now, prepareSet now cmd store.kv ≠ []⟩ cmd
        (prepared (prepareSet now cmd store.kv) store)).2 ↔
      TimeSafe now .set nanos (cmd.arg 0) store.kv := by
  obtain ⟨parsed, parse, ran⟩ := dispatchSet_stored accepted
  have seconds : 0 < nanos ∧ parsed.ttlSec.toInt = nanos / 1000000000 := by
    cases args : cmd.args.tail with
    | nil =>
      rw [args] at parse
      cases parse
    | cons value options =>
      rw [args] at parse
      have kept := parseSetOptions_seconds parse
      have same : cmd.args.drop 2 = options := by
        rw [← List.tail_drop, List.drop_one, args]
        rfl
      rw [requestedNanos, same] at requested
      rw [requested] at kept
      exact kept
  obtain ⟨positive, whole⟩ := seconds
  have counts : 0 < parsed.ttlSec ↔ 0 < nanos / 1000000000 := by
    rw [Int64.lt_iff_toInt_lt, whole]
    rfl
  rw [ran]
  refine Iff.trans (deadlineKept_iff positive (AList.lookup_insert _) rfl rfl) ?_
  rw [deadline_iff positive whole, TimeSafe, if_neg (by omega), and_assoc]
  refine and_congr_right fun divides => and_congr_right fun range => ?_
  unfold setDeadline
  by_cases invalid : stringState now (cmd.arg 0) store.kv = .invalid
  · simp only [invalid, if_true, ne_eq, not_true, iff_false]
    exact milliseconds_differ positive whole divides range
  simp only [invalid, if_false, ne_eq, not_false_eq_true, iff_true]
  rw [if_pos (counts.mpr (by omega))]
  have live := (deadline_iff positive whole).mpr ⟨divides, range⟩
  split at live
  · exact live
  · exact absurd rfl live.1

theorem dispatchSetex_keeps_iff (requested : requestedNanos .setex cmd = some nanos)
    (accepted : (dispatchSetex ⟨now, prepareSetex now cmd ≠ []⟩ cmd
      (prepared (prepareSetex now cmd) store)).1 = .simple "OK") :
    KeepsTime now nanos (cmd.arg 0) (dispatchSetex ⟨now, prepareSetex now cmd ≠ []⟩ cmd
        (prepared (prepareSetex now cmd) store)).2 ↔
      TimeSafe now .setex nanos (cmd.arg 0) store.kv := by
  obtain ⟨seconds, parse, rfl⟩ := Option.map_eq_some_iff.mp requested
  unfold dispatchSetex prepareSetex at *
  by_cases arity : cmd.numArgs < 3
  · simp [arity] at accepted
  by_cases ended : seconds ≤ 0
  · simp [arity, parse, ended] at accepted
  have above : 0 < seconds.toInt := Int64.lt_iff_toInt_lt.mp (Int64.not_le.mp ended)
  have positive : 0 < seconds.toInt * 1000000000 := by omega
  have whole : seconds.toInt = seconds.toInt * 1000000000 / 1000000000 := by omega
  simp only [arity, parse, ended, if_false, prepared_store, StringStore.set, Bool.false_and,
    Bool.false_eq_true]
  rw [Session.writeWAL_suppressed (by simp)]
  refine Iff.trans (deadlineKept_iff positive (AList.lookup_insert _) rfl rfl) ?_
  unfold TimeSafe
  rw [deadline_iff positive whole, if_neg (by omega)]
  constructor
  · exact fun kept => kept.1.2
  · intro range
    have divides : (1000000000 : Int) ∣ seconds.toInt * 1000000000 := Int.dvd_mul_left _ _
    refine ⟨⟨divides, range⟩, (expire_deadline_iff above).mpr ?_⟩
    exact ⟨range.2.1, range.2.2⟩

theorem dispatchExpire_keeps_iff (requested : requestedNanos .expire cmd = some nanos)
    (accepted : (dispatchExpire ⟨now, prepareExpire now cmd store.kv ≠ []⟩ cmd
      (prepared (prepareExpire now cmd store.kv) store)).1 = .integer 1) :
    KeepsTime now nanos (cmd.arg 0) (dispatchExpire ⟨now, prepareExpire now cmd store.kv ≠ []⟩ cmd
        (prepared (prepareExpire now cmd store.kv) store)).2 ↔
      TimeSafe now .expire nanos (cmd.arg 0) store.kv := by
  obtain ⟨seconds, parse, rfl⟩ := Option.map_eq_some_iff.mp requested
  have scaled : Int64.ofInt (seconds.toInt * 1000000000) = seconds * second := by
    rw [Int64.ofInt_mul, Int64.ofInt_toInt]
    rfl
  unfold dispatchExpire prepareExpire at *
  by_cases arity : cmd.numArgs < 2
  · simp [arity] at accepted
  cases found : store.kv.get now (cmd.arg 0) with
  | none => simp [arity, parse, KVStore.expire_none found] at accepted
  | some entry =>
    simp only [arity, parse, if_false, exists_of_get found, if_true, KVStore.expire, found,
      prepared_store]
    by_cases ended : seconds ≤ 0
    · have below : seconds.toInt ≤ 0 := Int64.le_iff_toInt_le.mp ended
      simp only [ended, if_true]
      rw [Session.writeWAL_suppressed (by simp), KeepsTime, TimeSafe, if_pos (by omega),
        if_pos (by omega), scaled, ← @replay_expire_removes_iff _ (cmd.arg 0)]
      exact ⟨fun removed => removed.replayed, fun replayed => ⟨AList.lookup_erase .., replayed⟩⟩
    · have above : 0 < seconds.toInt := Int64.lt_iff_toInt_lt.mp (Int64.not_le.mp ended)
      simp only [ended, if_false]
      rw [Session.writeWAL_suppressed (by simp), TimeSafe, if_neg (by omega)]
      refine Iff.trans (deadlineKept_iff (by omega) (AList.lookup_insert _) rfl rfl) ?_
      rw [and_self, expire_deadline_iff above]

theorem execute_keeps_time_iff (config : ExecutorConfig) {name : CommandName} {executor : Executor}
    (known : lookup cmd.normalized = some name) (timed : name ∈ timedCommands)
    (requested : requestedNanos name cmd = some nanos)
    (accepted : AcceptsTime name (execute config now cmd executor).reply) :
    KeepsTime now nanos (cmd.arg 0) ⟨(execute config now cmd executor).executor.store,
        (execute config now cmd executor).appended⟩ ↔
      TimeSafe now name nanos (cmd.arg 0) executor.store.kv := by
  have success : (execute config now cmd executor).reply.isError = false := by
    unfold AcceptsTime at accepted
    split at accepted <;> rw [accepted] <;> rfl
  obtain ⟨reply, appended, store⟩ := execute_follows known success
  rw [reply] at accepted
  rw [appended, store]
  simp only [timedCommands, List.mem_cons, List.not_mem_nil, or_false] at timed
  rcases timed with rfl | rfl | rfl
  · exact dispatchSet_keeps_iff requested accepted
  · exact dispatchSetex_keeps_iff requested accepted
  · exact dispatchExpire_keeps_iff requested accepted

def timedCmd (name : String) (args : List String) : Command :=
  ⟨ascii name, args.map fun arg => some (ascii arg)⟩

-- Half a second is no whole second, so the key never expires.
theorem half_second_lasts :
    requestedNanos .set (timedCmd "SET" ["k", "v", "PX", "500"]) = some 500000000 ∧
      (execute keysOnly 0 (timedCmd "SET" ["k", "v", "PX", "500"]) ⟨.empty, 0⟩).reply =
        .simple "OK" ∧
      (execute keysOnly 0 (timedCmd "SET" ["k", "v", "PX", "500"]) ⟨.empty, 0⟩).appended =
        [[put (ascii "k") (ascii "v") 0]] ∧
      ((execute keysOnly 0 (timedCmd "SET" ["k", "v", "PX", "500"])
        ⟨.empty, 0⟩).executor.store.kv.get 500000001 (ascii "k")).isSome = true :=
  ⟨by decide +kernel, rfl, by decide +kernel, by decide +kernel⟩

theorem one_second_kept :
    KeepsTime 0 1000000000 (ascii "k")
      ⟨(execute keysOnly 0 (timedCmd "SETEX" ["k", "1", "v"]) ⟨.empty, 0⟩).executor.store,
        (execute keysOnly 0 (timedCmd "SETEX" ["k", "1", "v"]) ⟨.empty, 0⟩).appended⟩ := by
  have known : lookup (timedCmd "SETEX" ["k", "1", "v"]).normalized = some .setex := by decide
  have requested : requestedNanos .setex (timedCmd "SETEX" ["k", "1", "v"]) = some 1000000000 := by
    decide +kernel
  have accepted : AcceptsTime .setex
      (execute keysOnly 0 (timedCmd "SETEX" ["k", "1", "v"]) ⟨.empty, 0⟩).reply :=
    show _ = Reply.simple "OK" from rfl
  exact (execute_keeps_time_iff keysOnly known (by decide) requested accepted).mpr
    (show InRange 0 1000000000 from ⟨by decide, by decide, by decide⟩)

end Dbx.Query
