import Mathlib.Data.Nat.Digits.Defs
import Dbx.Persistence.ScanProperties
import Dbx.Protocol.Parser
import Dbx.Query.ExecutorProperties

/-!
# Commands within the limits of the log

The parser bounds the arguments of a command, and the reader of the log bounds
its frames. Between the two lie the commands that put several keys, or a value
that has grown, into one transaction.
-/

set_option autoImplicit false

namespace Dbx.Query

open Dbx.Engine Dbx.Persistence Dbx.Protocol

def Accepted (enc : Option Encryptor) (effects : List WALEffect) : Prop :=
  ∀ entry : LogEntry, entry.record.effects = effects →
    decodeFrames (entry.frame enc) false enc = .ok [entry.record]

structure EffectsFit (enc : Option Encryptor) (effects : List WALEffect) : Prop where
  nonempty : 1 ≤ effects.length
  count : effects.length ≤ 1000000
  size : 25 + (effects.map WALEffect.encodedSize).sum + sealOverhead enc ≤ maxWALFrameSize

theorem accepted_iff_fits (enc : Option Encryptor) (effects : List WALEffect) :
    Accepted enc effects ↔ EffectsFit enc effects := by
  constructor
  · intro accepted
    let entry : LogEntry := ⟨⟨List.replicate 12 0, rfl⟩, ⟨0, 0, effects⟩⟩
    have read := accepted entry rfl
    have records : (scanFrames false enc (entry.frame enc)).records = [entry.record] := by
      unfold decodeFrames Scan.result at read
      split at read
      · exact Except.ok.inj read
      · cases read
    have fits := scanFrames_fits false enc (entry.frame enc) entry.record
      (records ▸ List.mem_singleton_self _)
    exact ⟨fits.nonempty, fits.count, fits.size⟩
  · rintro ⟨nonempty, count, size⟩ entry rfl
    exact decodeFrames_frame ⟨nonempty, count, size⟩ false

def Small (effect : WALEffect) : Prop :=
  effect.key.length + effect.value.length ≤ 48 * 2 ^ 20

theorem Small.fits {effect : WALEffect} (small : Small effect) (enc : Option Encryptor) :
    EffectsFit enc [effect] := by
  refine ⟨Nat.le_refl 1, by simp, ?_⟩
  have overhead : sealOverhead enc ≤ 28 := by cases enc <;> simp [sealOverhead]
  unfold Small at small
  simp only [List.map_cons, List.map_nil, List.sum_cons, List.sum_nil, WALEffect.encodedSize,
    maxWALFrameSize]
  omega

/-!
## What a command adds to the log
-/

/-- Besides what had been appended, only records of one small effect have been. -/
def Adds (before : Session) (ran : Reply × Session) : Prop :=
  ∃ added, ran.2.appended = before.appended ++ added ∧
    ∀ effects ∈ added, ∃ effect, effects = [effect] ∧ Small effect

theorem Adds.keep {before : Session} {ran : Reply × Session}
    (same : ran.2.appended = before.appended) : Adds before ran :=
  ⟨[], by simp [same], by simp⟩

variable {before : Session} {ran : Reply × Session}

theorem Adds.of_eq {between : Session} (same : between.appended = before.appended)
    (adds : Adds between ran) : Adds before ran := by
  unfold Adds at adds
  rwa [same] at adds

variable {store : Store}

theorem Adds.withStore (adds : Adds ⟨store, before.appended⟩ ran) : Adds before ran :=
  .of_eq rfl adds

variable {key : Bytes}

theorem Adds.writeWAL {moment : Moment} {type : UInt8} {value : Bytes} {ttlNano : Int64}
    (small : key.length + value.length ≤ 48 * 2 ^ 20)
    (adds : Adds (before.writeWAL moment type key value ttlNano) ran) : Adds before ran := by
  unfold Session.writeWAL at adds
  split at adds
  · exact adds
  obtain ⟨added, appended, each⟩ := adds
  refine ⟨[⟨type, key, value, legacyExpiry moment.now type ttlNano⟩] :: added, ?_, ?_⟩
  · rw [appended]
    simp
  · intro effects member
    rcases List.mem_cons.mp member with rfl | member
    · exact ⟨_, rfl, small⟩
    · exact each effects member

theorem Adds.step {α : Type} {result : Except String α × Store} {failed : String → String}
    {next : α → Session → Reply × Session}
    (adds : ∀ value session, result.1 = .ok value → session.appended = before.appended →
      Adds session (next value session)) :
    Adds before (before.step result failed next) := by
  unfold Session.step
  cases outcome : result.1 with
  | error message => exact .keep rfl
  | ok value => exact adds value { before with store := result.2 } outcome rfl

theorem adds_foldl {ι : Type} (moment : Moment) (type : UInt8) (key value : ι → Bytes)
    (items : List ι)
    (small : ∀ item ∈ items, (key item).length + (value item).length ≤ 48 * 2 ^ 20)
    (reply : Reply) (session : Session) :
    Adds session (reply, items.foldl
      (fun session item => session.writeWAL moment type (key item) (value item) 0) session) := by
  induction items generalizing session with
  | nil => exact .keep rfl
  | cons item items ih =>
    have later : Adds (session.writeWAL moment type (key item) (value item) 0) _ :=
      ih (fun other member => small other (List.mem_cons_of_mem item member)) _
    exact .writeWAL (small item List.mem_cons_self) later

/-!
## Commands on keys
-/

theorem parseSetOptions_value {options : List (Option Bytes)} {start parsed : SetArgs}
    (success : parseSetOptions options start = .ok parsed) : parsed.value = start.value := by
  fun_induction parseSetOptions options start with
  | case1 start =>
    cases success
    rfl
  | case2 start arg rest option named ih => exact ih success
  | case3 start arg rest option _ named ih => exact ih success
  | case4 => cases success
  | case5 => cases success
  | case6 start arg option _ _ timed text rest number parsed' ih => exact ih success
  | case7 => cases success

section Delivered

variable {cmd : Command} (delivered : cmd.Deliverable)

include delivered

theorem length_arg (index : Nat) : (cmd.arg index).length ≤ 8 * 2 ^ 20 := by
  unfold Command.arg
  cases present : cmd.args[index]? with
  | none => exact Nat.zero_le _
  | some arg => exact delivered.bulk arg (List.mem_of_getElem? present)

theorem length_key {key : Bytes} (member : key ∈ cmd.keys) : key.length ≤ 8 * 2 ^ 20 := by
  obtain ⟨arg, given, rfl⟩ := List.mem_map.mp member
  exact delivered.bulk arg given

section

variable (moment : Moment) (session : Session)

theorem dispatchDel_adds : Adds session (dispatchDel moment cmd session) := by
  unfold dispatchDel
  split
  · exact .keep rfl
  dsimp only
  split
  · refine .withStore (adds_foldl moment recordDelete id (fun _ => []) cmd.keys ?_ _ _)
    intro key member
    have := length_key delivered member
    simp only [id_eq, List.length_nil]
    omega
  · exact .keep rfl

theorem dispatchExpire_adds : Adds session (dispatchExpire moment cmd session) := by
  have key := length_arg delivered 0
  unfold dispatchExpire
  split
  · exact .keep rfl
  split
  · exact .keep rfl
  split
  · exact .keep rfl
  refine .of_eq (Session.withKV_appended _ _) (.writeWAL ?_ (.keep rfl))
  simp only [List.length_nil]
  omega

theorem length_parsed {parsed : SetArgs} (success : parseSetArgs cmd.args.tail = .ok parsed) :
    (parsed.value.getD []).length ≤ 8 * 2 ^ 20 := by
  cases args : cmd.args.tail with
  | nil =>
    rw [args] at success
    cases success
  | cons value options =>
    rw [args] at success
    rw [parseSetOptions_value success]
    apply delivered.bulk value
    exact List.mem_of_mem_tail (args ▸ List.mem_cons_self)

theorem dispatchSet_adds : Adds session (dispatchSet moment cmd session) := by
  have key := length_arg delivered 0
  rw [dispatchSet_eq]
  split
  · exact .keep rfl
  cases success : parseSetArgs cmd.args.tail with
  | error message => exact .keep rfl
  | ok parsed =>
    have value := length_parsed delivered success
    dsimp only
    split
    · exact .keep rfl
    · refine .of_eq (Session.withKV_appended _ _) (.writeWAL ?_ (.keep rfl))
      omega

theorem dispatchSetex_adds : Adds session (dispatchSetex moment cmd session) := by
  have key := length_arg delivered 0
  have value := length_arg delivered 2
  unfold dispatchSetex
  split
  · exact .keep rfl
  split
  · exact .keep rfl
  split
  · exact .keep rfl
  · refine .of_eq (Session.withKV_appended _ _) (.writeWAL ?_ (.keep rfl))
    omega

end

end Delivered

theorem dispatchMset_adds (now : Int64) (cmd : Command) (session : Session) :
    Adds session (dispatchMset ⟨now, prepareMset cmd ≠ []⟩ cmd session) := by
  unfold dispatchMset
  split
  · exact .keep rfl
  rename_i arity
  dsimp only
  rw [List.foldl_fixed' fun pair => Session.writeWAL_suppressed
    (by simpa using prepareMset_ne_nil arity) ..]
  exact .keep rfl

theorem dispatchIncrBy_adds (moment : Moment) (name : String) (signed : Int64 → Int64)
    (cmd : Command) (session : Session) :
    Adds session (dispatchIncrBy moment name signed cmd session) := by
  unfold dispatchIncrBy
  repeat' split
  all_goals exact .keep rfl

section

variable (moment : Moment) (cmd : Command) (session : Session)

theorem dispatchRename_adds : Adds session (dispatchRename moment cmd session) := by
  unfold dispatchRename
  split <;> exact .keep rfl

theorem dispatchSetnx_adds : Adds session (dispatchSetnx moment cmd session) := by
  unfold dispatchSetnx
  split <;> exact .keep rfl

theorem dispatchAppend_adds : Adds session (dispatchAppend moment cmd session) := by
  unfold dispatchAppend
  split <;> exact .keep rfl

/-!
## Commands on vectors
-/

theorem length_encodeVAddPayload (docID : Bytes) (vec : Vec) :
    (encodeVAddPayload docID vec).length = 4 + docID.length + 4 * vec.length := by
  have words : (vec.flatMap fun bits => BigEndian.encode 4 bits.toNat).length = 4 * vec.length := by
    simp [List.length_flatMap, Nat.mul_comm]
  simp only [encodeVAddPayload, List.length_append, BigEndian.length_encode, words]

theorem length_parseFloats {parseFloat : Bytes → Option UInt32} {texts : List Bytes} {vec : Vec}
    (success : parseFloats parseFloat texts = .ok vec) : vec.length = texts.length := by
  induction texts generalizing vec with
  | nil =>
    cases success
    rfl
  | cons text texts ih =>
    simp only [parseFloats] at success
    split at success
    · cases success
    split at success
    · cases success
    · cases success
      rw [List.length_cons, List.length_cons, ih ‹_›]

theorem length_parseFloatArgs {parseFloat : Bytes → Option UInt32} {texts : List Bytes} {vec : Vec}
    (success : parseFloatArgs parseFloat texts = .ok vec) : vec.length = texts.length := by
  unfold parseFloatArgs at success
  split at success
  · cases success
  · cases success
    exact length_parseFloats ‹_›

theorem length_argSlice (start stop : Nat) : (argSlice cmd start stop).length ≤ cmd.numArgs := by
  simp only [argSlice, Command.keys, List.length_take, List.length_drop, List.length_map,
    Command.numArgs]
  omega

end

variable {cmd : Command}

theorem length_space {index next : Nat} {space : Bytes}
    (success : parseOptionalSpace cmd index = .ok (space, next)) : space.length ≤ 64 := by
  unfold parseOptionalSpace at success
  split at success
  · cases success
    exact Nat.zero_le _
  split at success
  · cases success
  rename_i valid
  cases success
  unfold validateSpaceName at valid
  split at valid
  · cases valid
  split at valid
  · cases valid
  · exact Nat.not_lt.mp ‹_›

theorem length_vectorSpaceKey (index space : Bytes) :
    (vectorSpaceKey index space).length ≤ index.length + space.length + 6 := by
  unfold vectorSpaceKey
  split
  · omega
  have marker : (ascii "spc:").length = 4 := by decide
  simp only [List.length_append, List.length_cons, List.length_nil, marker]
  omega

variable {items : List (Bytes × Vec)}

theorem validateItems_bounded {dim : Nat} (valid : Store.validateItems dim items = .ok ()) :
    ∀ item ∈ items, item.1.length ≤ 512 := by
  induction items with
  | nil => simp
  | cons item items ih =>
    obtain ⟨id, vec⟩ := item
    simp only [Store.validateItems] at valid
    split at valid
    · cases valid
    cases vector : validateVector id vec with
    | error message => simp only [vector, reduceCtorEq] at valid
    | ok =>
      simp only [vector] at valid
      intro other member
      rcases List.mem_cons.mp member with rfl | member
      · unfold validateVector maxVectorIDBytes at vector
        split at vector
        · cases vector
        · dsimp only
          omega
      · exact ih valid other member

variable {now : Int64}

theorem validateAddBatch_bounded {config : VectorConfig} {dim : Nat}
    (valid : (store.validateAddBatch config now key dim items).1 = .ok ()) :
    items.length ≤ 1000 ∧ dim ≤ 4096 ∧ ∀ item ∈ items, item.1.length ≤ 512 := by
  unfold Store.validateAddBatch maxVectorBatch maxVectorDimensions at valid
  split at valid
  · cases valid
  split at valid
  · cases valid
  cases each : Store.validateItems dim items with
  | error message => simp only [each, reduceCtorEq] at valid
  | ok => exact ⟨by omega, by omega, validateItems_bounded each⟩

theorem length_encodeVAddBatchPayload {dim : Nat} (count : items.length ≤ 1000) (dims : dim ≤ 4096)
    (ids : ∀ item ∈ items, item.1.length ≤ 512) :
    (encodeVAddBatchPayload dim items).length ≤ 17 * 2 ^ 20 := by
  have words (vec : Vec) : (vec.flatMap littleEndian).length = 4 * vec.length := by
    simp [List.length_flatMap, littleEndian, Nat.mul_comm]
  have each : (items.flatMap fun item => littleEndianNat item.1.length ++ item.1 ++
      (item.2.take dim).flatMap littleEndian).length ≤ items.length * 16900 := by
    rw [List.length_flatMap]
    refine (List.sum_le_card_nsmul _ 16900 ?_).trans_eq (by simp)
    intro size member
    obtain ⟨item, inside, rfl⟩ := List.mem_map.mp member
    have id := ids item inside
    have word : (littleEndianNat item.1.length).length = 4 := rfl
    simp only [List.length_append, words, List.length_take, word]
    omega
  simp only [encodeVAddBatchPayload, List.length_append]
  have first : (littleEndianNat dim).length = 4 := rfl
  have second : (littleEndianNat items.length).length = 4 := rfl
  omega

theorem addBatch_adds (env : Surroundings) (moment : Moment) (dim : Nat)
    (items : List (Bytes × Vec)) (session : Session) (short : key.length ≤ 9 * 2 ^ 20) :
    Adds session (addBatch env moment key dim items session) := by
  refine .step fun _ session valid _ => .writeWAL ?_ (.step fun _ session _ _ => .keep rfl)
  obtain ⟨count, dims, ids⟩ := validateAddBatch_bounded valid
  have payload := length_encodeVAddBatchPayload count dims ids
  omega

section Delivered

variable {cmd : Command} (delivered : cmd.Deliverable)

include delivered

theorem length_vectorArgs {parseFloat : Bytes → Option UInt32} {start stop : Nat} {vec : Vec}
    (success : parseFloatArgs parseFloat (argSlice cmd start stop) = .ok vec) :
    4 * vec.length ≤ 16 * 2 ^ 20 := by
  have items := delivered.items
  have slice := length_argSlice cmd start stop
  rw [length_parseFloatArgs success]
  unfold maxRESPArrayItems at items
  omega

section

variable (env : Surroundings) (moment : Moment) (session : Session)

theorem dispatchVadd_adds : Adds session (dispatchVadd env moment cmd session) := by
  have index := length_arg delivered 0
  have id := length_arg delivered 1
  unfold dispatchVadd
  split
  · exact .keep rfl
  split
  · exact .keep rfl
  rename_i space start named
  have name := length_space named
  have key := length_vectorSpaceKey (cmd.arg 0) space
  split
  · exact .keep rfl
  split
  · exact .keep rfl
  rename_i vec parsed
  have numbers := length_vectorArgs delivered parsed
  refine .step fun _ session _ _ => .writeWAL ?_ (.step fun _ session _ _ => .keep rfl)
  rw [length_encodeVAddPayload]
  omega

theorem dispatchVaddBatch_adds : Adds session (dispatchVaddBatch env moment cmd session) := by
  have index := length_arg delivered 0
  unfold dispatchVaddBatch
  split
  · exact .keep rfl
  split
  · exact .keep rfl
  split
  · exact .keep rfl
  rename_i space start named
  have name := length_space named
  have key := length_vectorSpaceKey (cmd.arg 0) space
  dsimp only
  split
  · exact .keep rfl
  split
  · exact .keep rfl
  split
  · exact .keep rfl
  · exact addBatch_adds env moment _ _ session (by omega)

theorem dispatchVaddbin_adds : Adds session (dispatchVaddbin env moment cmd session) := by
  have index := length_arg delivered 0
  unfold dispatchVaddbin
  split
  · exact .keep rfl
  split
  · exact .keep rfl
  dsimp only
  split
  · exact .keep rfl
  · exact addBatch_adds env moment _ _ session (by omega)

theorem dispatchVdel_adds : Adds session (dispatchVdel env moment cmd session) := by
  have index := length_arg delivered 0
  have id := length_arg delivered 1
  unfold dispatchVdel
  split
  · exact .keep rfl
  split
  · exact .keep rfl
  rename_i space next named
  have name := length_space named
  have key := length_vectorSpaceKey (cmd.arg 0) space
  split
  · exact .keep rfl
  refine .step fun live session _ _ => ?_
  split
  · exact .keep rfl
  refine .writeWAL (by omega) (.step fun _ session _ _ => ?_)
  dsimp only
  split
  · exact .keep rfl
  · exact .withStore (.step fun _ session _ _ => .keep rfl)

end

omit delivered in
theorem dispatchVcompact_adds (env : Surroundings) (moment : Moment) (session : Session) :
    Adds session (dispatchVcompact env moment cmd session) := by
  unfold dispatchVcompact
  split
  · exact .keep rfl
  split
  · exact .keep rfl
  split
  · exact .keep rfl
  · exact .step fun _ session _ _ => .keep rfl

theorem dispatchVmigrate_adds (env : Surroundings) (moment : Moment) (session : Session) :
    Adds session (dispatchVmigrate env moment cmd session) := by
  have key := length_arg delivered 1
  have id := length_arg delivered 2
  unfold dispatchVmigrate
  dsimp only
  split
  · exact .keep rfl
  split
  · unfold migrateStart
    dsimp only
    split
    · exact .keep rfl
    split
    · exact .keep rfl
    split
    · exact .keep rfl
    rename_i encoding _
    refine .writeWAL ?_ (.step fun _ session _ _ => .keep rfl)
    have name : encoding.name.length ≤ 7 := by cases encoding <;> decide
    simp only [encodeVMigrateStartPayload, List.length_append, BigEndian.length_encode]
    omega
  · split
    · unfold migrateAdd
      split
      · exact .keep rfl
      split
      · exact .keep rfl
      rename_i vec parsed
      have numbers := length_vectorArgs delivered parsed
      dsimp only
      split
      · exact .keep rfl
      refine .withStore (.writeWAL ?_ (.step fun _ session _ _ => .keep rfl))
      rw [length_encodeVAddPayload]
      omega
    · split
      · refine .step fun _ session _ _ => .writeWAL ?_ (.step fun _ session _ _ => .keep rfl)
        simp only [List.length_nil]
        omega
      · split
        · refine .writeWAL ?_ (.step fun _ session _ _ => .keep rfl)
          simp only [List.length_nil]
          omega
        · exact .keep rfl

end Delivered

theorem dispatchVsearch_adds (env : Surroundings) (moment : Moment) (cmd : Command)
    (session : Session) : Adds session (dispatchVsearch env moment cmd session) := by
  unfold dispatchVsearch
  repeat' split
  all_goals first | exact .keep rfl | exact .step fun _ session _ _ => .keep rfl

theorem dispatchVsim_adds (env : Surroundings) (moment : Moment) (cmd : Command)
    (session : Session) : Adds session (dispatchVsim env moment cmd session) := by
  unfold dispatchVsim
  repeat' split
  all_goals first
    | exact .keep rfl
    | exact .step fun _ session _ _ => .step fun _ session _ _ => .keep rfl

theorem dispatchVfuse_adds (env : Surroundings) (moment : Moment) (cmd : Command)
    (session : Session) : Adds session (dispatchVfuse env moment cmd session) := by
  unfold dispatchVfuse
  repeat' split
  all_goals first | exact .keep rfl | exact .step fun _ session _ _ => .keep rfl

/-!
## The effects appended beforehand
-/

theorem dispatched_adds (config : ExecutorConfig) (now : Int64) (name : CommandName)
    (delivered : cmd.Deliverable) (store : Store) :
    Adds (prepared (effectsBefore now name cmd store.kv) store)
      (dispatched config now name cmd store) := by
  unfold dispatched dispatch
  dsimp only
  cases name with
  | del => exact dispatchDel_adds delivered _ _
  | expire => exact dispatchExpire_adds delivered _ _
  | set => exact dispatchSet_adds delivered _ _
  | setex => exact dispatchSetex_adds delivered _ _
  | mset => exact dispatchMset_adds now cmd _
  | vadd => exact dispatchVadd_adds delivered config.toSurroundings _ _
  | vaddBatch => exact dispatchVaddBatch_adds delivered config.toSurroundings _ _
  | vaddbin => exact dispatchVaddbin_adds delivered config.toSurroundings _ _
  | vmigrate => exact dispatchVmigrate_adds delivered config.toSurroundings _ _
  | vdel => exact dispatchVdel_adds delivered config.toSurroundings _ _
  | vcompact => exact dispatchVcompact_adds config.toSurroundings _ _
  | vsearch => exact dispatchVsearch_adds config.toSurroundings _ cmd _
  | vsim => exact dispatchVsim_adds config.toSurroundings _ cmd _
  | vfuse => exact dispatchVfuse_adds config.toSurroundings _ cmd _
  | incrby => exact dispatchIncrBy_adds ..
  | decrby => exact dispatchIncrBy_adds ..
  | rename => exact dispatchRename_adds ..
  | setnx => exact dispatchSetnx_adds ..
  | append => exact dispatchAppend_adds ..
  | _ => exact .keep rfl

theorem appended_fit_iff (config : ExecutorConfig) (enc : Option Encryptor) (now : Int64)
    (name : CommandName) (delivered : cmd.Deliverable) (store : Store) :
    (∀ effects ∈ (dispatched config now name cmd store).2.appended, EffectsFit enc effects) ↔
      (effectsBefore now name cmd store.kv ≠ [] →
        EffectsFit enc (effectsBefore now name cmd store.kv)) := by
  obtain ⟨added, appended, small⟩ := dispatched_adds config now name delivered store
  rw [appended]
  generalize effectsBefore now name cmd store.kv = effects
  constructor
  · intro fit written
    apply fit
    simp [prepared, written]
  · intro fit transaction member
    rcases List.mem_append.mp member with member | member
    · by_cases written : effects = []
      · simp [prepared, written] at member
      · simp only [prepared, if_neg written, List.mem_singleton] at member
        exact member ▸ fit written
    · obtain ⟨effect, rfl, short⟩ := small transaction member
      exact short.fits enc

/-- What keeps the transactions of a command within a frame: the number and the
size of the pairs or of the live keys, or the size of a value that is moved or
grows. -/
def FrameSafe (enc : Option Encryptor) (now : Int64) (name : CommandName) (cmd : Command)
    (kv : KVStore MMapVectorIndex) : Prop :=
  match name with
  | .mset =>
    cmd.numArgs / 2 ≤ 1000000 ∧
      25 + 17 * (cmd.numArgs / 2) + (cmd.keys.map List.length).sum + sealOverhead enc ≤
        maxWALFrameSize
  | .del =>
    let live := cmd.keys.filter fun key => kv.exists now key
    live.length ≤ 1000000 ∧
      25 + 17 * live.length + (live.map List.length).sum + sealOverhead enc ≤ maxWALFrameSize
  | .rename => ∀ value expiresAt, stringState now (cmd.arg 0) kv = .valid value expiresAt →
      59 + (cmd.arg 0).length + (cmd.arg 1).length + value.length + sealOverhead enc ≤
        maxWALFrameSize
  | .append => ∀ value expiresAt, stringState now (cmd.arg 0) kv = .valid value expiresAt →
      42 + (cmd.arg 0).length + (cmd.arg 1).length + value.length + sealOverhead enc ≤
        maxWALFrameSize
  | _ => True

theorem length_formatInt (number : Int64) : (formatInt number).length ≤ 20 := by
  have upper := number.toInt_lt
  have lower := number.le_toInt
  have digits (n : Nat) (bound : n < 10 ^ 19) : (Nat.repr n).toList.length ≤ 19 := by
    simpa [Nat.repr] using Nat.toDigits_length 10 n 19 (by decide) bound
  unfold formatInt ascii
  rw [List.length_map]
  cases sign : number.toInt with
  | ofNat n =>
    rw [sign, Int.ofNat_eq_natCast] at upper
    exact (digits n (by omega)).trans (by decide)
  | negSucc n =>
    have short := digits (n + 1) (by omega)
    change ("-" ++ Nat.repr (n + 1)).toList.length ≤ 20
    rw [String.toList_append, List.length_append]
    simp only [String.reduceToList, List.length_cons, List.length_nil]
    omega

def AtMostOne (effects : List WALEffect) : Prop :=
  effects = [] ∨ ∃ effect, effects = [effect] ∧ Small effect

theorem AtMostOne.fits {effects : List WALEffect} (single : AtMostOne effects)
    (enc : Option Encryptor) : effects ≠ [] → EffectsFit enc effects := by
  intro written
  rcases single with none | ⟨effect, rfl, small⟩
  · exact absurd none written
  · exact small.fits enc

theorem AtMostOne.put {value : Bytes} (expiresAt : Int64)
    (small : key.length + value.length ≤ 48 * 2 ^ 20) : AtMostOne [put key value expiresAt] :=
  Or.inr ⟨_, rfl, small⟩

section Delivered

variable {cmd : Command} (delivered : cmd.Deliverable) (now : Int64)
  (kv : KVStore MMapVectorIndex)

include delivered

theorem prepareSet_atMostOne : AtMostOne (prepareSet now cmd kv) := by
  have key := length_arg delivered 0
  unfold prepareSet
  split
  · exact Or.inl rfl
  cases success : parseSetArgs cmd.args.tail with
  | error message => exact Or.inl rfl
  | ok parsed =>
    have value := length_parsed delivered success
    dsimp only
    split
    · exact Or.inl rfl
    · exact .put _ (by omega)

theorem prepareSetex_atMostOne : AtMostOne (prepareSetex now cmd) := by
  have key := length_arg delivered 0
  have value := length_arg delivered 2
  unfold prepareSetex
  repeat' split
  all_goals first | exact Or.inl rfl | exact .put _ (by omega)

theorem prepareSetnx_atMostOne : AtMostOne (prepareSetnx now cmd kv) := by
  have key := length_arg delivered 0
  have value := length_arg delivered 1
  unfold prepareSetnx
  repeat' split
  all_goals first | exact Or.inl rfl | exact .put _ (by omega)

theorem prepareGetset_atMostOne : AtMostOne (prepareGetset now cmd kv) := by
  have key := length_arg delivered 0
  have value := length_arg delivered 1
  unfold prepareGetset
  repeat' split
  all_goals first | exact Or.inl rfl | exact .put _ (by omega)

theorem expire_small (expiresAt : Int64) : Small ⟨recordExpire, cmd.arg 0, [], expiresAt⟩ := by
  have key := length_arg delivered 0
  simp only [Small, List.length_nil]
  omega

theorem prepareExpire_atMostOne : AtMostOne (prepareExpire now cmd kv) := by
  unfold prepareExpire
  repeat' split
  all_goals first | exact Or.inl rfl | exact Or.inr ⟨_, rfl, expire_small delivered _⟩

theorem preparePersist_atMostOne : AtMostOne (preparePersist now cmd kv) := by
  unfold preparePersist
  repeat' split
  all_goals first | exact Or.inl rfl | exact Or.inr ⟨_, rfl, expire_small delivered _⟩

theorem prepareIncr_atMostOne (amount : Option Int64) :
    AtMostOne (prepareIncr now amount cmd kv) := by
  have key := length_arg delivered 0
  have increment (amount current expiresAt : Int64) :
      AtMostOne [put (cmd.arg 0) (formatInt (current + amount)) expiresAt] := by
    have digits := length_formatInt (current + amount)
    exact .put _ (by omega)
  unfold prepareIncr
  cases amount with
  | none =>
    dsimp only
    split
    · exact Or.inl rfl
    · exact Or.inl rfl
    · split <;> exact Or.inl rfl
  | some amount =>
    dsimp only
    split
    · exact Or.inl rfl
    · exact increment amount 0 0
    · split
      · exact Or.inl rfl
      · exact increment amount _ _

end Delivered

section

variable {session : Session} {moment : Moment} (enc : Option Encryptor)

theorem fits_iff (effects : List WALEffect) :
    (effects ≠ [] → EffectsFit enc effects) ↔
      effects.length ≤ 1000000 ∧
        25 + (effects.map WALEffect.encodedSize).sum + sealOverhead enc ≤ maxWALFrameSize := by
  constructor
  · intro fit
    by_cases written : effects = []
    · have overhead : sealOverhead enc ≤ 28 := by cases enc <;> simp [sealOverhead]
      subst written
      refine ⟨Nat.zero_le _, ?_⟩
      simp only [List.map_nil, List.sum_nil, maxWALFrameSize]
      omega
    · exact ⟨(fit written).count, (fit written).size⟩
  · rintro ⟨count, size⟩ written
    exact ⟨List.length_pos_of_ne_nil written, count, size⟩

/-- The bytes and the number of the pairs, whose arguments come in even number. -/
theorem argPairs_size (args : List (Option Bytes)) (even : args.length % 2 = 0) :
    ((argPairs args).map fun pair => (put pair.1 (pair.2.getD []) 0).encodedSize).sum =
        17 * (args.length / 2) + ((args.map fun arg => arg.getD []).map List.length).sum ∧
      (argPairs args).length = args.length / 2 := by
  fun_induction argPairs args with
  | case1 key value rest ih =>
    simp only [List.length_cons] at even
    obtain ⟨size, count⟩ := ih (by omega)
    have pair : (put (key.getD []) (value.getD []) 0).encodedSize =
      17 + (key.getD []).length + (value.getD []).length := rfl
    simp only [List.map_cons, List.sum_cons, List.length_cons, size, count, pair]
    omega
  | case2 args short =>
    match args with
    | [] => simp
    | [arg] => simp at even
    | key :: value :: rest => exact absurd rfl (short key value rest)

theorem prepareMset_fit_iff
    (success : (dispatchMset ⟨now, prepareMset cmd ≠ []⟩ cmd session).1.isError = false) :
    (prepareMset cmd ≠ [] → EffectsFit enc (prepareMset cmd)) ↔
      FrameSafe enc now .mset cmd store.kv := by
  by_cases arity : cmd.numArgs < 2 ∨ cmd.numArgs % 2 ≠ 0
  · unfold dispatchMset at success
    rw [if_pos arity] at success
    cases success
  · obtain ⟨size, count⟩ := argPairs_size cmd.args (by simp only [Command.numArgs] at arity; omega)
    rw [fits_iff]
    unfold prepareMset FrameSafe
    rw [if_neg arity, List.length_map, List.map_map]
    have sizes : ((argPairs cmd.args).map (WALEffect.encodedSize ∘ fun pair =>
        put pair.1 (pair.2.getD []) 0)).sum = _ := size
    rw [sizes, count]
    simp only [Command.numArgs, Command.keys, Nat.add_assoc]

theorem prepareDel_fit_iff (now : Int64) (cmd : Command) (kv : KVStore MMapVectorIndex) :
    (prepareDel now cmd kv ≠ [] → EffectsFit enc (prepareDel now cmd kv)) ↔
      FrameSafe enc now .del cmd kv := by
  rw [fits_iff]
  unfold prepareDel FrameSafe
  dsimp only
  generalize cmd.keys.filter (fun key => kv.exists now key) = live
  have sizes : ((live.map fun key => (⟨recordDelete, key, [], 0⟩ : WALEffect)).map
      WALEffect.encodedSize).sum = 17 * live.length + (live.map List.length).sum := by
    induction live with
    | nil => rfl
    | cons key live ih =>
      simp only [List.map_cons, List.sum_cons, List.length_cons, ih, WALEffect.encodedSize,
        List.length_nil]
      omega
  rw [sizes, List.length_map]
  simp only [Nat.add_assoc]

theorem prepareRename_fit_iff (success : (dispatchRename moment cmd session).1.isError = false) :
    (prepareRename now cmd store.kv ≠ [] → EffectsFit enc (prepareRename now cmd store.kv)) ↔
      FrameSafe enc now .rename cmd store.kv := by
  by_cases arity : cmd.numArgs < 2
  · simp [dispatchRename, arity, Reply.isError] at success
  rw [fits_iff]
  have overhead : sealOverhead enc ≤ 28 := by cases enc <;> simp [sealOverhead]
  unfold prepareRename FrameSafe
  rw [if_neg arity]
  cases state : stringState now (cmd.arg 0) store.kv with
  | absent | invalid =>
    refine iff_of_true ⟨Nat.zero_le _, ?_⟩ (by intro value expiresAt valid; cases valid)
    simp only [List.map_nil, List.sum_nil, maxWALFrameSize]
    omega
  | valid value expiresAt =>
    simp only [StringState.valid.injEq, List.length_cons, List.length_nil, List.map_cons,
      List.map_nil, List.sum_cons, List.sum_nil, WALEffect.encodedSize, put]
    constructor
    · rintro ⟨-, size⟩ value expiresAt ⟨rfl, rfl⟩
      omega
    · intro safe
      have := safe value expiresAt ⟨rfl, rfl⟩
      omega

theorem prepareAppend_fit_iff (delivered : cmd.Deliverable)
    (success : (dispatchAppend moment cmd session).1.isError = false) :
    (prepareAppend now cmd store.kv ≠ [] → EffectsFit enc (prepareAppend now cmd store.kv)) ↔
      FrameSafe enc now .append cmd store.kv := by
  have key := length_arg delivered 0
  have suffix := length_arg delivered 1
  by_cases arity : cmd.numArgs < 2
  · simp [dispatchAppend, arity, Reply.isError] at success
  unfold prepareAppend FrameSafe
  rw [if_neg arity]
  cases state : stringState now (cmd.arg 0) store.kv with
  | invalid =>
    exact iff_of_true (fun written => absurd rfl written)
      (by intro value expiresAt valid; cases valid)
  | absent =>
    exact iff_of_true ((AtMostOne.put 0 (by omega)).fits enc)
      (by intro value expiresAt valid; cases valid)
  | valid value expiresAt =>
    rw [fits_iff]
    simp only [StringState.valid.injEq, List.length_cons, List.length_nil, List.map_cons,
      List.map_nil, List.sum_cons, List.sum_nil, WALEffect.encodedSize, put,
      List.length_append]
    constructor
    · rintro ⟨-, size⟩ value expiresAt ⟨rfl, rfl⟩
      omega
    · intro safe
      have := safe value expiresAt ⟨rfl, rfl⟩
      omega

theorem effectsBefore_fit_iff {config : ExecutorConfig} {name : CommandName}
    (delivered : cmd.Deliverable)
    (success : (dispatched config now name cmd store).1.isError = false) :
    (effectsBefore now name cmd store.kv ≠ [] →
        EffectsFit enc (effectsBefore now name cmd store.kv)) ↔
      FrameSafe enc now name cmd store.kv := by
  cases name with
  | mset => exact prepareMset_fit_iff enc success
  | del => exact prepareDel_fit_iff enc now cmd store.kv
  | rename => exact prepareRename_fit_iff enc success
  | append => exact prepareAppend_fit_iff enc delivered success
  | set => exact iff_of_true ((prepareSet_atMostOne delivered now store.kv).fits enc) trivial
  | setex => exact iff_of_true ((prepareSetex_atMostOne delivered now).fits enc) trivial
  | setnx => exact iff_of_true ((prepareSetnx_atMostOne delivered now store.kv).fits enc) trivial
  | getset => exact iff_of_true ((prepareGetset_atMostOne delivered now store.kv).fits enc) trivial
  | expire => exact iff_of_true ((prepareExpire_atMostOne delivered now store.kv).fits enc) trivial
  | persist =>
    exact iff_of_true ((preparePersist_atMostOne delivered now store.kv).fits enc) trivial
  | incr =>
    exact iff_of_true ((prepareIncr_atMostOne delivered now store.kv (some 1)).fits enc) trivial
  | decr =>
    exact iff_of_true ((prepareIncr_atMostOne delivered now store.kv (some (-1))).fits enc) trivial
  | incrby | decrby =>
    exact iff_of_true ((prepareIncr_atMostOne delivered now store.kv _).fits enc) trivial
  | _ => exact iff_of_true (fun written => absurd rfl written) trivial

end

/-- Of a command that the parser delivers and `Execute` answers with success, the
log is read back exactly where its pairs, its live keys or its value fit. -/
theorem execute_accepted_iff (config : ExecutorConfig) (enc : Option Encryptor) (now : Int64)
    {name : CommandName} {cmd : Command} {input rest : Bytes} (executor : Executor)
    (delivered : readCommand input = .ok (cmd, rest)) (known : lookup cmd.normalized = some name)
    (success : (execute config now cmd executor).reply.isError = false) :
    (∀ effects ∈ (execute config now cmd executor).appended, ∀ entry : LogEntry,
        entry.record.effects = effects →
          decodeFrames (entry.frame enc) false enc = .ok [entry.record]) ↔
      FrameSafe enc now name cmd executor.store.kv := by
  have deliverable := readCommand_deliverable delivered
  obtain ⟨reply, appended, -⟩ := execute_follows known success
  rw [reply] at success
  rw [← effectsBefore_fit_iff enc deliverable success,
    ← appended_fit_iff config enc now name deliverable executor.store, appended]
  exact forall₂_congr fun effects _ => accepted_iff_fits enc effects

def bulkKey : Bytes := [0x24, 0x31, 0x0d, 0x0a, 0x6b, 0x0d, 0x0a]

theorem readBulkStrings_bulkKey (count : Nat) :
    readBulkStrings count (List.replicate count bulkKey).flatten =
      .ok (List.replicate count (some [0x6b]), []) := by
  induction count with
  | zero => rfl
  | succ count ih =>
    have first (rest : Bytes) : readBulkString (bulkKey ++ rest) = .ok (some [0x6b], rest) := rfl
    rw [List.replicate_succ, List.flatten_cons, readBulkStrings, first]
    simp only [ih]
    rfl

def msetKeys (count : Nat) : Command := ⟨ascii "MSET", List.replicate count (some [0x6b])⟩

/-- `MSET` with a number of arguments that the first bytes announce. -/
def msetInput (count : Nat) (announced : Bytes) : Bytes :=
  0x2a :: announced ++ [0x0d, 0x0a] ++ ascii "$4\r\nMSET\r\n" ++
    (List.replicate count bulkKey).flatten

theorem readCommand_msetInput {count : Nat} {announced : Bytes} {number : Int64}
    (announces : ∀ rest, readInt (announced ++ [0x0d, 0x0a] ++ rest) = .ok (number, rest))
    (numbered : number.toInt.toNat = count + 1) (positive : ¬ number ≤ 0)
    (limit : ¬ Int64.ofNat maxRESPArrayItems < number) :
    readCommand (msetInput count announced) = .ok (msetKeys count, []) := by
  have name (rest : Bytes) :
      readBulkString (ascii "$4\r\nMSET\r\n" ++ rest) = .ok (some (ascii "MSET"), rest) := rfl
  have array : readCommand (msetInput count announced) =
      readArray (announced ++ [0x0d, 0x0a] ++
        (ascii "$4\r\nMSET\r\n" ++ (List.replicate count bulkKey).flatten)) := by
    unfold msetInput
    simp only [List.cons_append, List.append_assoc]
    rfl
  rw [array, readArray, announces]
  simp only [positive, if_false, limit, numbered, readBulkStrings, name,
    readBulkStrings_bulkKey]
  rfl

/-- `MSET` succeeds on an executor without limits, and its pairs are one transaction. -/
theorem execute_mset (known : lookup cmd.normalized = some .mset)
    (arity : ¬ (cmd.numArgs < 2 ∨ cmd.numArgs % 2 ≠ 0)) (now : Int64) (executor : Executor) :
    (execute keysOnly now cmd executor).reply = .simple "OK" ∧
      (execute keysOnly now cmd executor).appended = [prepareMset cmd] := by
  have admits : admitted keysOnly now .mset cmd executor = true := by
    simp [admitted, keysOnly, effectsFitQuota, supportedInDurableV1, CommandName.readOnly,
      CommandName.durableV1]
  have settled := @execute_cases keysOnly now cmd executor .mset known
  rw [if_pos admits] at settled
  obtain ⟨reply, appended, -⟩ : (execute keysOnly now cmd executor).Follows
    (dispatched keysOnly now .mset cmd executor.store) := settled
  rw [reply, appended]
  have written := prepareMset_ne_nil arity
  have ran : dispatched keysOnly now .mset cmd executor.store =
      dispatchMset ⟨now, prepareMset cmd ≠ []⟩ cmd
        (prepared (prepareMset cmd) executor.store) := rfl
  rw [ran, dispatchMset, if_neg arity]
  dsimp only
  rw [List.foldl_fixed' fun pair => Session.writeWAL_suppressed (by simpa using written) ..]
  refine ⟨rfl, ?_⟩
  simp [prepared, written]

/-- One pair more than a frame may hold: the parser delivers the command, it
succeeds on the empty store, and the transaction it appends is not read back. -/
theorem million_pairs_unreadable :
    readCommand (msetInput 2000002 (ascii "2000003")) = .ok (msetKeys 2000002, []) ∧
      (execute keysOnly 0 (msetKeys 2000002) ⟨.empty, 0⟩).reply.isError = false ∧
      ∃ effects ∈ (execute keysOnly 0 (msetKeys 2000002) ⟨.empty, 0⟩).appended,
        ∃ entry : LogEntry, entry.record.effects = effects ∧
          decodeFrames (entry.frame none) false none ≠ .ok [entry.record] := by
  have delivered : readCommand (msetInput 2000002 (ascii "2000003")) = .ok (msetKeys 2000002, []) :=
    readCommand_msetInput (fun _ => rfl) (by decide) (by decide) (by decide)
  have many : (msetKeys 2000002).numArgs = 2000002 := List.length_replicate
  have named : lookup (toUpper (ascii "MSET")) = some .mset := by decide
  have known : lookup (msetKeys 2000002).normalized = some .mset := named
  generalize msetKeys 2000002 = cmd at *
  have arity : ¬ (cmd.numArgs < 2 ∨ cmd.numArgs % 2 ≠ 0) := by omega
  obtain ⟨reply, appended⟩ := execute_mset known arity 0 ⟨.empty, 0⟩
  refine ⟨delivered, by rw [reply]; rfl, prepareMset cmd, by rw [appended]; simp, ?_⟩
  by_contra accepted
  have fits := (accepted_iff_fits none (prepareMset cmd)).mp fun entry same =>
    not_not.mp fun unread => accepted ⟨entry, same, unread⟩
  have pairs := (argPairs_size cmd.args (by simp only [Command.numArgs] at many; omega)).2
  have count := fits.count
  rw [prepareMset, if_neg arity, List.length_map, pairs] at count
  simp only [Command.numArgs] at many
  omega

theorem one_pair_readable :
    (execute keysOnly 0 (msetKeys 2) ⟨.empty, 0⟩).reply.isError = false ∧
      ∀ effects ∈ (execute keysOnly 0 (msetKeys 2) ⟨.empty, 0⟩).appended, ∀ entry : LogEntry,
        entry.record.effects = effects →
          decodeFrames (entry.frame none) false none = .ok [entry.record] :=
  ⟨rfl, (execute_accepted_iff keysOnly none 0 ⟨.empty, 0⟩
    (readCommand_msetInput (fun _ => rfl) (by decide) (by decide) (by decide) :
      readCommand (msetInput 2 (ascii "3")) = .ok (msetKeys 2, []))
    (by decide : lookup (msetKeys 2).normalized = some .mset) rfl).mpr
    ⟨by decide, by decide⟩⟩

end Dbx.Query
