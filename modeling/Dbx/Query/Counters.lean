import Dbx.Engine.KVProperties
import Dbx.Query.ExecutorProperties
import Mathlib

/-!
# Counters

The sum of a counter command is computed in `int64`, once for the log and once for the store, each
from the number under the key at its own instant. Both are the exact sum where that fits and the
key does not lapse in between.
-/

set_option autoImplicit false

namespace Dbx.Query

open Dbx.Engine Dbx.Persistence Dbx.Protocol

variable {name : CommandName} {cmd : Command} {start now : Int64} {moment : Moment}

/-- The number under a key; a key that is absent counts as zero. -/
def counterAt (now : Int64) (key : Bytes) (kv : KVStore MMapVectorIndex) : Option Int64 :=
  match stringState now key kv with
  | .invalid => none
  | .absent => some 0
  | .valid value _ => parseInt value

def operand (name : CommandName) (cmd : Command) : Option Int :=
  match name with
  | .incr => some 1
  | .decr => some (-1)
  | .incrby => (parseInt (cmd.arg 1)).map Int64.toInt
  | .decrby => (parseInt (cmd.arg 1)).map fun number => -number.toInt
  | _ => none

def exactTotal (now : Int64) (name : CommandName) (cmd : Command)
    (kv : KVStore MMapVectorIndex) : Option Int :=
  match counterAt now (cmd.arg 0) kv, operand name cmd with
  | some current, some amount => some (current.toInt + amount)
  | _, _ => none

def counterCommands : List CommandName := [.incr, .decr, .incrby, .decrby]

theorem repr_ascii (number : Int) : ∀ char ∈ number.repr.toList, char.toNat < 128 := by
  intro char member
  have digits (n : Nat) (char : Char) (member : char ∈ n.repr.toList) : char.toNat < 128 := by
    rw [Nat.repr_eq_ofList_toDigits, String.toList_ofList] at member
    have digit := Nat.isDigit_of_mem_toDigits (by decide) (by decide) member
    simp only [Char.isDigit, ge_iff_le, Bool.and_eq_true, decide_eq_true_eq] at digit
    have below : char.toNat ≤ 57 := digit.2
    omega
  rw [Int.repr_eq_if] at member
  split at member
  · exact digits _ char member
  · rw [String.toList_append, List.mem_append] at member
    rcases member with sign | digit
    · have minus : char = '-' := by simpa using sign
      rw [minus]
      decide
    · exact digits _ char digit

theorem formatInt_inj {number other : Int64} (same : formatInt number = formatInt other) :
    number = other := by
  have read (number : Int64) : (formatInt number).map (fun byte => Char.ofNat byte.toNat) =
      number.toInt.repr.toList := by
    unfold formatInt ascii
    rw [List.map_map]
    refine (List.map_congr_left fun char member => ?_).trans (List.map_id _)
    have small := repr_ascii number.toInt char member
    rw [Function.comp_apply, UInt8.toNat_ofNat', Nat.mod_eq_of_lt (by omega), Char.ofNat_toNat]
    rfl
  have texts := (read number).symm.trans ((congrArg _ same).trans (read other))
  exact Int64.toInt_inj.mp (Int.repr_injective (String.toList_inj.mp texts))

theorem counterAt_later (passes : start ≤ now) (key : Bytes) (kv : KVStore MMapVectorIndex) :
    counterAt now key kv = counterAt start key kv ∨
      counterAt now key kv = some 0 ∧ kv.get now key = none := by
  unfold counterAt stringState
  rcases KVStore.get_later passes key kv with same | gone
  · exact .inl (by rw [same])
  · exact .inr ⟨by rw [gone]; rfl, gone⟩

theorem exactTotal_later (passes : start ≤ now) {kv : KVStore MMapVectorIndex}
    (uncounted : exactTotal now name cmd kv = none) : exactTotal start name cmd kv = none := by
  unfold exactTotal at uncounted ⊢
  rcases counterAt_later passes (cmd.arg 0) kv with same | ⟨zero, -⟩
  · rwa [← same]
  · rw [zero] at uncounted
    cases moves : operand name cmd with
    | none => split <;> simp_all
    | some amount => simp [moves] at uncounted

theorem exactTotal_cancel {kv : KVStore MMapVectorIndex} {planned total : Int}
    (before : exactTotal start name cmd kv = some planned)
    (after : exactTotal now name cmd kv = some total)
    (same : Int64.ofInt planned = Int64.ofInt total) : planned = total := by
  unfold exactTotal at before after
  split at before
  · rename_i current amount held moves
    rw [moves] at after
    split at after
    · rename_i current' amount' held' moves'
      cases moves'
      cases before
      cases after
      rw [Int64.ofInt_add, Int64.ofInt_add, Int64.ofInt_toInt, Int64.ofInt_toInt] at same
      rw [(Int64.add_left_inj _).mp same]
    · cases after
  · cases before

theorem prepared_counter (counter : name ∈ counterCommands) (kv : KVStore MMapVectorIndex) :
    effectsBefore now name cmd kv =
      prepareIncr now ((operand name cmd).map Int64.ofInt) cmd kv := by
  have plain : (fun number : Int64 => number) = id := rfl
  simp only [counterCommands, List.mem_cons, List.not_mem_nil, or_false] at counter
  rcases counter with rfl | rfl | rfl | rfl <;>
    simp [effectsBefore, prepareDurableEffects, operand, Function.comp_def, plain]

theorem prepareIncr_eq {amount : Int64} (kv : KVStore MMapVectorIndex) :
    match counterAt now (cmd.arg 0) kv with
    | none => prepareIncr now (some amount) cmd kv = []
    | some current => ∃ deadline, prepareIncr now (some amount) cmd kv =
        [put (cmd.arg 0) (formatInt (current + amount)) deadline] := by
  unfold prepareIncr counterAt
  cases stringState now (cmd.arg 0) kv with
  | invalid => rfl
  | absent => exact ⟨0, rfl⟩
  | valid value expiresAt =>
    dsimp only
    cases parseInt value with
    | none => rfl
    | some current => exact ⟨expiresAt, rfl⟩

theorem get_of_put {key : Bytes} {data : Option Bytes} {deadline : Int64} {version : UInt64}
    {kv kv' : KVStore MMapVectorIndex}
    (live : (⟨.bytes data, .string, deadline, version⟩ : Entry MMapVectorIndex).isExpired now =
      false)
    (written : kv'.data = (kv.put key ⟨.bytes data, .string, deadline, version⟩).data) :
    StringStore.get now key kv' = .ok data := by
  have holds : kv'.get now key = some ⟨.bytes data, .string, deadline, version⟩ := by
    rw [KVStore.get, written]
    exact KVStore.get_put_same key live kv
  rw [StringStore.get, holds]
  rfl

theorem incr_eq (key : Bytes) (amount : Int64) (kv : KVStore MMapVectorIndex) :
    match counterAt now key kv with
    | none => ∃ message, StringStore.incr now key amount kv = (.error message, kv)
    | some current => ∃ kv', StringStore.incr now key amount kv = (.ok (current + amount), kv') ∧
        StringStore.get now key kv' = .ok (some (formatInt (current + amount))) := by
  unfold StringStore.incr counterAt stringState
  cases found : kv.get now key with
  | none =>
    obtain ⟨kv', dropped, -⟩ := KVStore.getForWrite_none found
    simp only [dropped, StringState.ofEntry, Int64.zero_add]
    exact ⟨_, rfl, get_of_put rfl rfl⟩
  | some entry =>
    have live := (Option.filter_eq_some_iff.mp found).2
    simp only [Bool.not_eq_true', KVStore.getForWrite_some found, StringState.ofEntry] at live ⊢
    by_cases string : entry.type = .string
    · simp only [string, ne_eq, not_true, if_false]
      cases value : entry.value with
      | index | other | nil => exact ⟨_, rfl⟩
      | bytes data =>
        dsimp only
        cases parse : parseInt (data.getD []) with
        | none => exact ⟨_, rfl⟩
        | some current =>
          exact ⟨_, rfl, get_of_put live rfl⟩
    · simp only [string, ne_eq, not_false_eq_true, if_true]
      exact ⟨_, rfl⟩

theorem dispatch_counter (counter : name ∈ counterCommands) (config : ExecutorConfig)
    (session : Session) :
    match operand name cmd with
    | none => ∃ message, dispatch config moment name cmd session = (.error message, session)
    | some amount => dispatch config moment name cmd session =
        dispatchIncr moment (Int64.ofInt amount) cmd session := by
  have by_text (text : String) (signed : Int64 → Int64) (exact : Int64 → Int)
      (same : ∀ number, Int64.ofInt (exact number) = signed number) :
      match (parseInt (cmd.arg 1)).map exact with
      | none => ∃ message, dispatchIncrBy moment text signed cmd session = (.error message, session)
      | some amount => dispatchIncrBy moment text signed cmd session =
          dispatchIncr moment (Int64.ofInt amount) cmd session := by
    unfold dispatchIncrBy
    by_cases arity : cmd.numArgs < 2
    · rw [parseInt_missing arity, if_pos arity]
      exact ⟨_, rfl⟩
    rw [if_neg arity]
    cases parseInt (cmd.arg 1) with
    | none => exact ⟨_, rfl⟩
    | some number => simp only [Option.map_some, same]
  simp only [counterCommands, List.mem_cons, List.not_mem_nil, or_false] at counter
  rcases counter with rfl | rfl | rfl | rfl
  · rfl
  · rfl
  · exact by_text _ _ _ fun number => Int64.ofInt_toInt number
  · exact by_text _ _ _ fun number => by rw [Int64.ofInt_neg, Int64.ofInt_toInt]

/-- The reply, the stored text and the logged text are those of the exact total, or the reply is an
error and nothing has changed. -/
def CountsExactly (now : Int64) (key : Bytes) (total : Option Int)
    (before : KVStore MMapVectorIndex) (outcome : Outcome) : Prop :=
  (∃ number : Int64, total = some number.toInt ∧ outcome.reply = .integer number.toInt ∧
      StringStore.get now key outcome.executor.store.kv = .ok (some (formatInt number)) ∧
      ∃ deadline, outcome.appended = [[put key (formatInt number) deadline]]) ∨
    outcome.reply.isError = true ∧ outcome.appended = [] ∧
      outcome.executor.store.kv.get now key = before.get now key

theorem counts_of_fails {outcome : Outcome} {store : Store} {key : Bytes} {total : Option Int}
    (fails : outcome.Fails [] store) : CountsExactly now key total store.kv outcome :=
  .inr ⟨fails.error, fails.appended, by rw [fails.store]⟩

theorem not_counts_of_fails {outcome : Outcome} {key : Bytes} {total : Option Int}
    {before : KVStore MMapVectorIndex} (error : outcome.reply.isError = true)
    (appended : outcome.appended ≠ []) : ¬ CountsExactly now key total before outcome := by
  rintro (⟨number, -, reply, -⟩ | ⟨-, nothing, -⟩)
  · rw [reply] at error
    cases error
  · exact appended nothing

theorem toInt_ofInt_eq_iff (total : Int) :
    (Int64.ofInt total).toInt = total ↔ -2 ^ 63 ≤ total ∧ total < 2 ^ 63 := by
  constructor
  · intro same
    have lower := Int64.le_toInt (Int64.ofInt total)
    have upper := Int64.toInt_lt (Int64.ofInt total)
    omega
  · intro ⟨lower, upper⟩
    exact Int64.toInt_ofInt_of_le (by omega) (by omega)

theorem effectsBefore_counter (counter : name ∈ counterCommands) (kv : KVStore MMapVectorIndex) :
    match exactTotal now name cmd kv with
    | none => effectsBefore now name cmd kv = []
    | some total => ∃ deadline, effectsBefore now name cmd kv =
        [put (cmd.arg 0) (formatInt (Int64.ofInt total)) deadline] := by
  rw [prepared_counter counter]
  unfold exactTotal
  cases moves : operand name cmd with
  | none =>
    rw [Option.map_none, prepareIncr_none]
    cases counterAt now (cmd.arg 0) kv <;> rfl
  | some amount =>
    have logged := @prepareIncr_eq cmd now (Int64.ofInt amount) kv
    cases held : counterAt now (cmd.arg 0) kv with
    | none =>
      rw [held] at logged
      exact logged
    | some current =>
      rw [held] at logged
      simp only [Option.map_some, Int64.ofInt_add, Int64.ofInt_toInt]
      exact logged

/-- Dispatching refuses without a total, and else works on the key alone. -/
theorem dispatch_counted (counter : name ∈ counterCommands) (config : ExecutorConfig)
    (session : Session) :
    match exactTotal moment.now name cmd session.store.kv with
    | none => ∃ message, dispatch config moment name cmd session = (.error message, session)
    | some total => ∃ kv, dispatch config moment name cmd session =
        (.integer (Int64.ofInt total).toInt, session.withKV kv) ∧
        StringStore.get moment.now (cmd.arg 0) kv =
          .ok (some (formatInt (Int64.ofInt total))) := by
  have ran := @dispatch_counter _ cmd moment counter config session
  unfold exactTotal
  cases moves : operand name cmd with
  | none =>
    rw [moves] at ran
    cases counterAt moment.now (cmd.arg 0) session.store.kv <;> exact ran
  | some amount =>
    rw [moves] at ran
    have summed := @incr_eq moment.now (cmd.arg 0) (Int64.ofInt amount) session.store.kv
    cases held : counterAt moment.now (cmd.arg 0) session.store.kv with
    | none =>
      rw [held] at summed
      obtain ⟨message, failed⟩ := summed
      refine ⟨message, ran.trans ?_⟩
      simp only [dispatchIncr, failed]
      rfl
    | some current =>
      rw [held] at summed
      obtain ⟨kv, summed, holds⟩ := summed
      simp only [Int64.ofInt_add, Int64.ofInt_toInt]
      refine ⟨kv, ran.trans ?_, holds⟩
      simp only [dispatchIncr, summed]
      rfl

theorem refused_fails {config : ExecutorConfig} {outcome : Outcome} {store : Store}
    {message : String}
    (settled : raftSettles config name outcome [] store (.error message, prepared [] store)) :
    outcome.Fails [] store := by
  have refused (follows : outcome.Follows (.error message, prepared [] store)) :
      outcome.Fails [] store :=
    ⟨by rw [follows.reply]; rfl, follows.appended, follows.store⟩
  unfold raftSettles at settled
  split at settled
  · exact refused settled
  split at settled
  · exact refused settled
  · exact refused settled
  all_goals exact settled

section Settled

variable {config : ExecutorConfig} {outcome : Outcome} {store : Store}
  {kv : KVStore MMapVectorIndex} {effects : List WALEffect} {total : Int}

/-- A text that was no number when the effects were worked out, and whose key has lapsed since: the
command counts from zero and logs nothing. -/
theorem unplanned_counts_iff (writes : name.readOnly = false) {key : Bytes}
    (lapsed : store.kv.get now key = none)
    (holds : StringStore.get now key kv = .ok (some (formatInt (Int64.ofInt total))))
    (settled : raftSettles config name outcome [] store
      (.integer (Int64.ofInt total).toInt, (prepared [] store).withKV kv)) :
    CountsExactly now key (some total) store.kv outcome ↔
      config.raft = .follower ∨ ∃ message, config.raft = .failing message false := by
  have unlogged (follows : outcome.Follows
      (.integer (Int64.ofInt total).toInt, (prepared [] store).withKV kv)) :
      ¬ CountsExactly now key (some total) store.kv outcome := by
    rintro (⟨number, -, -, -, deadline, logged⟩ | ⟨error, -⟩)
    · rw [follows.appended] at logged
      cases logged
    · rw [follows.reply] at error
      cases error
  simp only [raftSettles, writes, Bool.false_eq_true, if_false] at settled
  cases raft : config.raft with
  | «local» | leader =>
    simp only [raft] at settled
    exact iff_of_false (unlogged settled) (by simp)
  | follower =>
    simp only [raft] at settled
    exact iff_of_true (counts_of_fails settled) (.inl rfl)
  | failing message applied =>
    simp only [raft] at settled
    cases applied with
    | false => exact iff_of_true (counts_of_fails settled) (.inr ⟨message, rfl⟩)
    | true =>
      refine iff_of_false ?_ (by simp)
      rintro (⟨number, -, reply, -⟩ | ⟨-, -, same⟩)
      · have error := settled.error
        rw [reply] at error
        cases error
      · rw [settled.store, lapsed] at same
        change kv.get now key = none at same
        rw [StringStore.get, same] at holds
        cases holds

theorem planned_counts_iff (writes : name.readOnly = false) {key : Bytes} {planned : Int}
    {deadline : Int64} (cancel : Int64.ofInt planned = Int64.ofInt total → planned = total)
    (logs : effects = [put key (formatInt (Int64.ofInt planned)) deadline])
    (holds : StringStore.get now key kv = .ok (some (formatInt (Int64.ofInt total))))
    (settled : raftSettles config name outcome effects store
      (.integer (Int64.ofInt total).toInt, (prepared effects store).withKV kv)) :
    CountsExactly now key (some total) store.kv outcome ↔
      planned = total ∧ (config.raft = .local ∨ config.raft = .leader) ∧
        -2 ^ 63 ≤ total ∧ total < 2 ^ 63 := by
  have logged : (prepared effects store).appended =
      [[put key (formatInt (Int64.ofInt planned)) deadline]] := by
    rw [logs]
    rfl
  have counts (follows : outcome.Follows
      (.integer (Int64.ofInt total).toInt, (prepared effects store).withKV kv)) :
      CountsExactly now key (some total) store.kv outcome ↔
        planned = total ∧ -2 ^ 63 ≤ total ∧ total < 2 ^ 63 := by
    rw [← toInt_ofInt_eq_iff]
    constructor
    · rintro (⟨number, exact, reply, -, _, appended⟩ | ⟨error, -⟩)
      · rw [follows.reply] at reply
        cases exact
        rw [follows.appended, Session.withKV_appended, logged] at appended
        have texts : formatInt (Int64.ofInt planned) = formatInt number := by
          simp only [put, List.cons.injEq, WALEffect.mk.injEq, true_and, and_true] at appended
          exact appended.1
        refine ⟨cancel ?_, Reply.integer.inj reply⟩
        rw [formatInt_inj texts, Int64.ofInt_toInt]
      · rw [follows.reply] at error
        cases error
    · rintro ⟨rfl, fits⟩
      refine .inl ⟨Int64.ofInt planned, by rw [fits], follows.reply, ?_, deadline, ?_⟩
      · rw [follows.store]
        exact holds
      · rw [follows.appended, Session.withKV_appended, logged]
  have stopped (error : outcome.reply.isError = true)
      (appended : outcome.appended = (prepared effects store).appended) :
      ¬ CountsExactly now key (some total) store.kv outcome := by
    refine not_counts_of_fails error ?_
    rw [appended, logged]
    exact List.cons_ne_nil _ _
  simp only [raftSettles, writes, Bool.false_eq_true, if_false] at settled
  cases raft : config.raft with
  | «local» | leader =>
    simp only [raft] at settled
    simp [counts settled]
  | follower =>
    simp only [raft] at settled
    exact iff_of_false (stopped settled.error settled.appended) (by simp)
  | failing message applied =>
    simp only [raft] at settled
    cases applied with
    | false | true => exact iff_of_false (stopped settled.error settled.appended) (by simp)

end Settled

/-- The clock may move on between the preparation of the effects and the dispatch. -/
theorem execute_counts_iff (config : ExecutorConfig) (passes : start ≤ now) (executor : Executor)
    (known : lookup cmd.normalized = some name) (counter : name ∈ counterCommands) :
    CountsExactly now (cmd.arg 0) (exactTotal now name cmd executor.store.kv) executor.store.kv
        (executeSpan config start now cmd executor) ↔
      ∀ total, exactTotal now name cmd executor.store.kv = some total →
        admitted config start name cmd executor = true →
          exactTotal start name cmd executor.store.kv = some total ∧
              (config.raft = .local ∨ config.raft = .leader) ∧
              -2 ^ 63 ≤ total ∧ total < 2 ^ 63 ∨
            exactTotal start name cmd executor.store.kv = none ∧
              (config.raft = .follower ∨ ∃ message, config.raft = .failing message false) := by
  have settled := executeSpan_cases config start now executor known
  have writes : name.readOnly = false := by
    simp only [counterCommands, List.mem_cons, List.not_mem_nil, or_false] at counter
    rcases counter with rfl | rfl | rfl | rfl <;> rfl
  by_cases admits : admitted config start name cmd executor = true
  · rw [if_pos admits, dispatchedSpan] at settled
    have effects := @effectsBefore_counter _ cmd start counter executor.store.kv
    have ran (effects : List WALEffect) :=
      @dispatch_counted _ cmd ⟨now, effects ≠ []⟩ counter config
      (prepared effects executor.store)
    simp only [prepared_store] at ran
    cases counted : exactTotal now name cmd executor.store.kv with
    | none =>
      simp only [exactTotal_later passes counted] at effects
      simp only [counted] at ran
      obtain ⟨message, ran⟩ := ran []
      rw [effects, ran] at settled
      exact iff_of_true (counts_of_fails (refused_fails settled)) (fun _ none => by cases none)
    | some total =>
      simp only [counted] at ran
      simp only [Option.some.injEq, forall_eq', admits, true_implies]
      cases before : exactTotal start name cmd executor.store.kv with
      | none =>
        simp only [before] at effects
        obtain ⟨kv, ran, holds⟩ := ran []
        rw [effects, ran] at settled
        have lapsed : executor.store.kv.get now (cmd.arg 0) = none := by
          rcases counterAt_later passes (cmd.arg 0) executor.store.kv with same | ⟨-, gone⟩
          · unfold exactTotal at before counted
            rw [same] at counted
            cases before.symm.trans counted
          · exact gone
        simp [unplanned_counts_iff writes lapsed holds settled]
      | some planned =>
        simp only [before] at effects
        obtain ⟨deadline, effects⟩ := effects
        obtain ⟨kv, ran, holds⟩ := ran (effectsBefore start name cmd executor.store.kv)
        rw [ran] at settled
        simp [planned_counts_iff writes (exactTotal_cancel before counted) effects holds settled]
  · rw [if_neg admits] at settled
    exact iff_of_true (counts_of_fails settled) fun _ _ admitted => absurd admitted admits

def counterCmd (name : String) (args : List String) : Command :=
  ⟨ascii name, args.map fun arg => some (ascii arg)⟩

def fullCounter : Executor :=
  (execute keysOnly 0 (counterCmd "INCRBY" ["k", "9223372036854775807"]) ⟨.empty, 0⟩).executor

theorem incr_wraps :
    exactTotal 0 .incr (counterCmd "INCR" ["k"]) fullCounter.store.kv = some (2 ^ 63) ∧
      (execute keysOnly 0 (counterCmd "INCR" ["k"]) fullCounter).reply = .integer (-2 ^ 63) ∧
      (execute keysOnly 0 (counterCmd "INCR" ["k"]) fullCounter).appended =
        [[put (ascii "k") (ascii "-9223372036854775808") 0]] :=
  ⟨by decide +kernel, rfl, by decide +kernel⟩

theorem first_incr_counts :
    CountsExactly 0 (ascii "k") (some 1) Store.empty.kv
      (execute keysOnly 0 (counterCmd "INCR" ["k"]) ⟨.empty, 0⟩) :=
  (execute_counts_iff keysOnly (Int64.le_refl 0) ⟨.empty, 0⟩
    (by decide : _ = some CommandName.incr) (by decide)).mpr fun total counted _ => by
      cases counted
      exact .inl ⟨rfl, .inl rfl, by decide, by decide⟩

end Dbx.Query
