import Dbx.Query.ExecutorProperties
import Dbx.Query.SearchLocality

/-!
# What a command touches

The keys that `Dispatch` looks at or writes, for every command of a durable tenant that
has a key, and that the command is confined to them.
-/

set_option autoImplicit false

namespace Dbx.Query

open Confinement Simulation Dbx.Engine Dbx.Persistence Dbx.Protocol

variable {parseFloat : Bytes → Option UInt32} {name : CommandName} {cmd : Command} {now : Int64}

/-- The arguments of `VMIGRATE` up to the first look at the key. -/
def migrationFits (parseFloat : Bytes → Option UInt32) (cmd : Command) : Bool :=
  let subcmd := toUpper (cmd.arg 0)
  2 ≤ cmd.numArgs &&
    if subcmd = ascii "START" then
      3 ≤ cmd.numArgs && (parseDim (cmd.arg 2)).isSome &&
        (normalizeVectorEncoding (if 4 ≤ cmd.numArgs then cmd.arg 3 else ascii "sq8")).isOk
    else if subcmd = ascii "ADD" then
      4 ≤ cmd.numArgs && (parseFloatArgs parseFloat (argSlice cmd 3 cmd.numArgs)).isOk
    else subcmd = ascii "SWAP" || subcmd = ascii "CANCEL"

/-- A space, if one is named at the position, ends the arguments. -/
def endsWithSpace (cmd : Command) (index : Nat) : Bool :=
  match parseOptionalSpace cmd index with
  | .error _ => false
  | .ok (_, next) => next = cmd.numArgs

/-- The arguments pass every check that `Dispatch` makes before it looks at a key. -/
def wellFormed (parseFloat : Bytes → Option UInt32) (name : CommandName) (cmd : Command) : Bool :=
  match name with
  | .get | .ttl => 1 ≤ cmd.numArgs
  | .getrange => 3 ≤ cmd.numArgs
  | .set => 2 ≤ cmd.numArgs && (parseSetArgs cmd.args.tail).isOk
  | .setex => 3 ≤ cmd.numArgs && (parseInt (cmd.arg 1)).any (0 < ·)
  | .setnx | .append | .rename => 2 ≤ cmd.numArgs
  | .mset => 2 ≤ cmd.numArgs && cmd.numArgs % 2 = 0
  | .expire | .incrby | .decrby => 2 ≤ cmd.numArgs && (parseInt (cmd.arg 1)).isSome
  | .vadd | .vaddBatch | .vaddbin =>
    match additionOf parseFloat name cmd with
    | .error _ => false
    | .ok (_, write) => write.check.isOk
  | .vmigrate => migrationFits parseFloat cmd
  | .vdel => 2 ≤ cmd.numArgs && endsWithSpace cmd 2
  | .vcompact => 1 ≤ cmd.numArgs && endsWithSpace cmd 1
  | .vsearch | .vsim | .vfuse => (searchOf parseFloat name cmd).isOk
  | .ping | .echo | .quit | .command | .auth | .select | .setrange => false
  | _ => true

/-- The keys that well-formed arguments name, and the storage keys built from them. -/
def handledKeys (parseFloat : Bytes → Option UInt32) (name : CommandName) (cmd : Command) :
    List Bytes :=
  match name with
  | .del | .«exists» | .mget => cmd.keys
  | .mset => (argPairs cmd.args).map Prod.fst
  | .rename => [cmd.arg 0, cmd.arg 1]
  | .vadd | .vaddBatch | .vaddbin =>
    match additionOf parseFloat name cmd with
    | .error _ => []
    | .ok (key, _) => [key]
  | .vdel => spaceKeys cmd 2
  | .vcompact => spaceKeys cmd 1
  | .vmigrate => [cmd.arg 1]
  | .vsearch | .vsim | .vfuse =>
    match searchOf parseFloat name cmd with
    | .error _ => []
    | .ok request => request.indexes ++ request.logs
  | _ => [cmd.arg 0]

def searching : CommandName → Bool
  | .vsearch | .vsim | .vfuse => true
  | _ => false

def adding : CommandName → Bool
  | .vadd | .vaddBatch | .vaddbin => true
  | _ => false

structure Touches (parseFloat : Bytes → Option UInt32) (name : CommandName) (cmd : Command)
    (key : Bytes) : Prop where
  fits : wellFormed parseFloat name cmd = true
  key : key ∈ handledKeys parseFloat name cmd ∨
    searching name = true ∧ key ∈ documentKeys parseFloat cmd

/-- The entries, files and records of keys, and the shadow of a migrated index among them. -/
def placesOf (vectors : VectorConfig) (name : CommandName) (cmd : Command) (keys : Set Bytes) :
    Set Place :=
  {place | match place with
    | .records key => key ∈ keys
    | .store (.entry key) => key ∈ keys
    | .store (.files (.live key)) => key ∈ keys
    | .store (.files path) =>
      name = .vmigrate ∧ cmd.arg 1 ∈ keys ∧ path = shadowPath vectors (cmd.arg 1)}

def handled (vectors : VectorConfig) (parseFloat : Bytes → Option UInt32) (name : CommandName)
    (cmd : Command) : Set Place :=
  placesOf vectors name cmd
    {key | wellFormed parseFloat name cmd = true ∧ key ∈ handledKeys parseFloat name cmd}

def touched (vectors : VectorConfig) (parseFloat : Bytes → Option UInt32) (name : CommandName)
    (cmd : Command) : Set Place :=
  placesOf vectors name cmd {key | Touches parseFloat name cmd key}

variable {key : Bytes}

theorem placesOf_mono {vectors : VectorConfig} {keys more : Set Bytes} (inside : keys ⊆ more) :
    placesOf vectors name cmd keys ⊆ placesOf vectors name cmd more := by
  intro place member
  rcases place with (key | (key | path)) | key
  · exact inside member
  · exact inside member
  · exact ⟨member.1, inside member.2.1, member.2.2⟩
  · exact inside member

theorem handled_subset (vectors : VectorConfig) :
    handled vectors parseFloat name cmd ⊆ touched vectors parseFloat name cmd :=
  placesOf_mono fun _ member => ⟨member.1, .inl member.2⟩

theorem touched_plain (vectors : VectorConfig) (plain : searching name = false) :
    touched vectors parseFloat name cmd ⊆ handled vectors parseFloat name cmd := by
  refine placesOf_mono fun key touches => ⟨touches.fits, touches.key.resolve_right ?_⟩
  rintro ⟨searches, -⟩
  rw [plain] at searches
  cases searches

theorem Touches.covers (touches : Touches parseFloat name cmd key) (vectors : VectorConfig) :
    Session.Covers (touched vectors parseFloat name cmd) key :=
  ⟨touches, touches, touches⟩

variable {left right : KVStore MMapVectorIndex}

theorem readReply_congr (sized : name ≠ .dbsize)
    (same : ∀ key ∈ handledKeys parseFloat name cmd, left.shown now key = right.shown now key) :
    readReply now name cmd left = readReply now name cmd right := by
  have first (single : handledKeys parseFloat name cmd = [cmd.arg 0]) :=
    same (cmd.arg 0) (single ▸ List.mem_singleton_self _)
  unfold readReply
  split
  case h_4 => exact absurd rfl sized
  case h_6 =>
    have filtered : (cmd.keys.filter fun key => left.exists now key) =
        cmd.keys.filter fun key => right.exists now key :=
      List.filter_congr fun key member => KVStore.exists_congr (same key member)
    dsimp only
    rw [filtered]
  case h_7 => rw [KVStore.type_congr (first rfl)]
  case h_8 =>
    dsimp only
    rw [KVStore.ttl_congr (first rfl)]
  case h_9 =>
    dsimp only
    rw [StringStore.get_congr (first rfl)]
  case h_10 =>
    have values : StringStore.mGet now cmd.keys left = StringStore.mGet now cmd.keys right :=
      List.map_congr_left fun key member => by rw [StringStore.get_congr (same key member)]
    rw [values]
  case h_11 => rw [StringStore.strlen, StringStore.strlen, StringStore.get_congr (first rfl)]
  case h_12 =>
    dsimp only
    rw [StringStore.getRange, StringStore.getRange, StringStore.get_congr (first rfl)]
  all_goals rfl

theorem readReply_isSome (now : Int64) (name : CommandName) (cmd : Command)
    (kv kv' : KVStore MMapVectorIndex) :
    (readReply now name cmd kv).isSome = (readReply now name cmd kv').isSome := by
  unfold readReply
  split <;> simp only [Option.isSome_some, Option.isSome_none]

theorem stringState_congr (same : left.shown now key = right.shown now key) :
    stringState now key left = stringState now key right := by
  rcases KVStore.shown_cases same with ⟨here, there⟩ | ⟨_, _, _, _, _, here, there⟩
  · rw [stringState, stringState, here, there]
  · rw [stringState, stringState, here, there]
    rfl

theorem prepareIncr_congr (amount : Option Int64)
    (same : left.shown now (cmd.arg 0) = right.shown now (cmd.arg 0)) :
    prepareIncr now amount cmd left = prepareIncr now amount cmd right := by
  simp only [prepareIncr, stringState_congr same]

theorem prepareDurableEffects_congr {left right : KVStore MMapVectorIndex}
    (same : ∀ key ∈ handledKeys parseFloat name cmd, left.shown now key = right.shown now key) :
    prepareDurableEffects now name cmd left = prepareDurableEffects now name cmd right := by
  have first (single : handledKeys parseFloat name cmd = [cmd.arg 0]) :=
    same (cmd.arg 0) (single ▸ List.mem_singleton_self _)
  unfold prepareDurableEffects
  split
  case h_1 => simp only [prepareSet, stringState_congr (first rfl)]
  case h_3 => simp only [prepareSetnx, stringState_congr (first rfl)]
  case h_4 => simp only [prepareGetset, stringState_congr (first rfl)]
  case h_6 =>
    have filtered : (cmd.keys.filter fun key => left.exists now key) =
        cmd.keys.filter fun key => right.exists now key :=
      List.filter_congr fun key member => KVStore.exists_congr (same key member)
    rw [prepareDel, prepareDel, filtered]
  case h_7 => simp only [prepareExpire, KVStore.exists_congr (first rfl)]
  case h_8 =>
    rcases KVStore.shown_cases (first rfl) with ⟨here, there⟩ | ⟨_, _, _, _, _, here, there⟩
    · simp only [preparePersist, here, there]
    · simp only [preparePersist, here, there]
  case h_9 => simp only [prepareRename, stringState_congr (same _ List.mem_cons_self)]
  case h_10 => rw [prepareIncr_congr _ (first rfl)]
  case h_11 => rw [prepareIncr_congr _ (first rfl)]
  case h_12 => rw [prepareIncr_congr _ (first rfl)]
  case h_13 => rw [prepareIncr_congr _ (first rfl)]
  case h_14 => simp only [prepareAppend, stringState_congr (first rfl)]
  all_goals rfl

/-- Arguments that are refused have no effects, whatever the tenant holds. -/
theorem prepareDurableEffects_refused (refused : wellFormed parseFloat name cmd = false)
    (kv kv' : KVStore MMapVectorIndex) :
    prepareDurableEffects now name cmd kv =
      (prepareDurableEffects now name cmd kv').map fun _ => [] := by
  cases name with
  | set =>
    have nothing (parsed : SetArgs) (two : 2 ≤ cmd.numArgs) :
        parseSetArgs cmd.args.tail ≠ .ok parsed := by
      intro parses
      simp [wellFormed, parses, two, Except.isOk, Except.toBool] at refused
    refine congrArg some ?_
    rw [prepareSet]
    split
    · rfl
    · cases parsed : parseSetArgs cmd.args.tail with
      | error message => rfl
      | ok args => exact absurd parsed (nothing args (by omega))
  | setex =>
    refine congrArg some ?_
    rw [prepareSetex]
    split
    · rfl
    · have enough : 3 ≤ cmd.numArgs := by omega
      cases parsed : parseInt (cmd.arg 1) with
      | none => rfl
      | some seconds =>
        simp only [wellFormed, enough, parsed, decide_true, Bool.true_and, Option.any_some,
          decide_eq_false_iff_not, Int64.not_lt] at refused
        exact if_pos refused
  | setnx =>
    have few : cmd.numArgs < 2 := by simpa [wellFormed] using refused
    simp only [prepareDurableEffects, prepareSetnx, few, if_true, Option.map_some]
  | rename =>
    have few : cmd.numArgs < 2 := by simpa [wellFormed] using refused
    simp only [prepareDurableEffects, prepareRename, few, if_true, Option.map_some]
  | append =>
    have few : cmd.numArgs < 2 := by simpa [wellFormed] using refused
    simp only [prepareDurableEffects, prepareAppend, few, if_true, Option.map_some]
  | mset =>
    have odd : cmd.numArgs < 2 ∨ cmd.numArgs % 2 ≠ 0 := by
      simp only [wellFormed, Bool.and_eq_false_iff, decide_eq_false_iff_not] at refused
      omega
    simp only [prepareDurableEffects, prepareMset, odd, if_true, Option.map_some]
  | expire =>
    refine congrArg some ?_
    rw [prepareExpire]
    split
    · rfl
    · have enough : 2 ≤ cmd.numArgs := by omega
      cases parsed : parseInt (cmd.arg 1) with
      | none => rfl
      | some seconds => simp [wellFormed, enough, parsed] at refused
  | incrby | decrby =>
    have number : parseInt (cmd.arg 1) = none := by
      by_cases few : cmd.numArgs < 2
      · exact parseInt_missing few
      · have enough : 2 ≤ cmd.numArgs := by omega
        simpa [wellFormed, enough] using refused
    simp only [prepareDurableEffects, number, Option.map_none, prepareIncr_none, Option.map_some]
  | getset | del | persist | incr | decr => cases refused
  | _ => rfl

theorem prepareIncr_key {amount : Option Int64} {kv : KVStore MMapVectorIndex}
    {effect : WALEffect} (member : effect ∈ prepareIncr now amount cmd kv) :
    effect.key = cmd.arg 0 := by
  unfold prepareIncr at member
  cases amount with
  | none =>
    dsimp only at member
    split at member
    · cases member
    · cases member
    · split at member <;> cases member
  | some amount =>
    dsimp only at member
    split at member
    · cases member
    · rw [List.mem_singleton.mp member]
      rfl
    · split at member
      · cases member
      · rw [List.mem_singleton.mp member]
        rfl

variable {effects : List WALEffect}

theorem prepareDurableEffects_key {kv : KVStore MMapVectorIndex}
    (prepared : prepareDurableEffects now name cmd kv = some effects) {effect : WALEffect}
    (member : effect ∈ effects) : effect.key ∈ handledKeys parseFloat name cmd := by
  unfold prepareDurableEffects at prepared
  split at prepared
  all_goals cases prepared
  case h_1 =>
    show effect.key ∈ [cmd.arg 0]
    grind [prepareSet, put]
  case h_2 =>
    show effect.key ∈ [cmd.arg 0]
    grind [prepareSetex, put]
  case h_3 =>
    show effect.key ∈ [cmd.arg 0]
    grind [prepareSetnx, put]
  case h_4 =>
    show effect.key ∈ [cmd.arg 0]
    grind [prepareGetset, put]
  case h_5 =>
    show effect.key ∈ (argPairs cmd.args).map Prod.fst
    grind [prepareMset, put]
  case h_6 =>
    show effect.key ∈ cmd.keys
    grind [prepareDel]
  case h_7 =>
    show effect.key ∈ [cmd.arg 0]
    grind [prepareExpire]
  case h_8 =>
    show effect.key ∈ [cmd.arg 0]
    grind [preparePersist]
  case h_9 =>
    show effect.key ∈ [cmd.arg 0, cmd.arg 1]
    grind [prepareRename, put]
  case h_14 =>
    show effect.key ∈ [cmd.arg 0]
    grind [prepareAppend, put]
  all_goals exact List.mem_singleton.mpr (prepareIncr_key member)

theorem prepareDurableEffects_touches {kv : KVStore MMapVectorIndex}
    (prepared : prepareDurableEffects now name cmd kv = some effects) {effect : WALEffect}
    (member : effect ∈ effects) : Touches parseFloat name cmd effect.key := by
  refine ⟨?_, .inl (prepareDurableEffects_key prepared member)⟩
  by_contra refused
  have nothing := @prepareDurableEffects_refused parseFloat name cmd now
    (Bool.eq_false_iff.mpr refused) kv kv
  rw [prepared, Option.map_some] at nothing
  rw [Option.some.inj nothing] at member
  cases member

theorem prepareDurableEffects_same {left right : KVStore MMapVectorIndex}
    (same : ∀ key, Touches parseFloat name cmd key → left.shown now key = right.shown now key) :
    prepareDurableEffects now name cmd left = prepareDurableEffects now name cmd right := by
  cases fits : wellFormed parseFloat name cmd with
  | true => exact prepareDurableEffects_congr fun key member => same key ⟨fits, .inl member⟩
  | false =>
    exact (prepareDurableEffects_refused fits left right).trans
      (prepareDurableEffects_refused fits right right).symm

theorem effectGrowth_congr (same : left.shown now key = right.shown now key) (effect : WALEffect) :
    effectGrowth now left key effect = effectGrowth now right key effect := by
  rcases KVStore.shown_cases same with ⟨here, there⟩ | ⟨_, _, _, _, _, here, there⟩
  · rw [effectGrowth, effectGrowth, here, there]
  · rw [effectGrowth, effectGrowth, here, there]

theorem mem_finalEffects (member : key ∈ finalEffects effects) :
    ∃ effect ∈ effects, effect.key = key := by
  have general : ∀ (effects : List WALEffect) (start : AList fun _ : Bytes => WALEffect),
      key ∈ effects.foldl (fun final effect =>
        if effect.type = recordSet ∨ effect.type = recordDelete then final.insert effect.key effect
        else final) start → key ∈ start ∨ ∃ effect ∈ effects, effect.key = key := by
    intro effects
    induction effects with
    | nil => exact fun start member => .inl member
    | cons effect effects ih =>
      intro start member
      rcases ih _ member with inside | ⟨later, listed, same⟩
      · dsimp only at inside
        split at inside
        · rcases (AList.mem_insert _).mp inside with same | before
          · exact .inr ⟨effect, List.mem_cons_self, same.symm⟩
          · exact .inl before
        · exact .inl inside
      · exact .inr ⟨later, List.mem_cons_of_mem _ listed, same⟩
  rcases general effects ∅ member with empty | found
  · exact absurd empty (AList.notMem_empty key)
  · exact found

theorem effectsFitQuota_congr (maxMemory accounted : Int)
    (same : ∀ effect ∈ effects, left.shown now effect.key = right.shown now effect.key) :
    effectsFitQuota now maxMemory accounted effects left =
      effectsFitQuota now maxMemory accounted effects right := by
  have growth (entry : Sigma fun _ : Bytes => WALEffect)
      (member : entry ∈ (finalEffects effects).entries) :
      effectGrowth now left entry.1 entry.2 = effectGrowth now right entry.1 entry.2 := by
    obtain ⟨effect, listed, named⟩ := mem_finalEffects (List.mem_map_of_mem member)
    exact effectGrowth_congr (named ▸ same effect listed) entry.2
  have projected : (finalEffects effects).entries.foldl
        (fun projected entry => projected + effectGrowth now left entry.1 entry.2) accounted =
      (finalEffects effects).entries.foldl
        (fun projected entry => projected + effectGrowth now right entry.1 entry.2) accounted :=
    List.foldl_ext _ _ accounted fun projected entry member => by rw [growth entry member]
  simp only [effectsFitQuota, projected]

section Dispatch

variable (config : ExecutorConfig) (ranking : Ranking) (moment : Moment)
  (history : Bytes → List (Int64 × WALEffect))

def revealing : CommandName → Bool
  | .del | .vadd | .vaddBatch | .vaddbin => true
  | _ => false

theorem revealing_cases (reveals : revealing name = true) :
    name = .del ∨ name = .vadd ∨ name = .vaddBatch ∨ name = .vaddbin := by
  unfold revealing at reveals
  split at reveals
  · exact .inl rfl
  · exact .inr (.inl rfl)
  · exact .inr (.inr (.inl rfl))
  · exact .inr (.inr (.inr rfl))
  · cases reveals

theorem migrate_refused {env : Surroundings} {cmd : Command}
    (refused : migrationFits env.parseFloat cmd = false) (moment : Moment) :
    ∃ reply, ∀ session, dispatchVmigrate env moment cmd session = (reply, session) := by
  by_cases few : cmd.numArgs < 2
  · exact ⟨_, fun session => if_pos few⟩
  have two : 2 ≤ cmd.numArgs := by omega
  simp only [migrationFits, two, decide_true, Bool.true_and] at refused
  simp only [dispatchVmigrate, few, if_false]
  split at refused
  · rename_i start
    simp only [start, if_true, migrateStart]
    by_cases short : cmd.numArgs < 3
    · exact ⟨_, fun session => if_pos short⟩
    simp only [short, if_false]
    cases parsed : parseDim (cmd.arg 2) with
    | none => exact ⟨_, fun session => rfl⟩
    | some dim =>
      dsimp only
      cases encoded : normalizeVectorEncoding
          (if 4 ≤ cmd.numArgs then cmd.arg 3 else ascii "sq8") with
      | error message => exact ⟨_, fun session => rfl⟩
      | ok encoding =>
        have three : 3 ≤ cmd.numArgs := by omega
        simp [three, parsed, encoded, Except.isOk, Except.toBool] at refused
  rename_i start
  split at refused
  · rename_i add
    simp only [add, if_true, migrateAdd]
    by_cases short : cmd.numArgs < 4
    · exact ⟨_, fun session => if_pos short⟩
    simp only [short, if_false]
    cases parsed : parseFloatArgs env.parseFloat (argSlice cmd 3 cmd.numArgs) with
    | error message => exact ⟨_, fun session => rfl⟩
    | ok vec =>
      have four : 4 ≤ cmd.numArgs := by omega
      simp [four, parsed, Except.isOk, Except.toBool] at refused
  · rename_i add
    simp only [Bool.or_eq_false_iff, decide_eq_false_iff_not] at refused
    simp only [start, add, refused.1, refused.2, if_false]
    exact ⟨_, fun session => rfl⟩

/-- Arguments that are refused are answered without a look at the tenant. -/
theorem dispatch_refused {whole : ExecutorConfig} {name : CommandName} {cmd : Command}
    (plain : searching name = false) (refused : wellFormed whole.parseFloat name cmd = false)
    (moment : Moment) :
    ∃ reply, ∀ session, dispatch whole moment name cmd session = (reply, session) := by
  have adding (adds : name = .vadd ∨ name = .vaddBatch ∨ name = .vaddbin)
      (refused : (match additionOf whole.parseFloat name cmd with
        | .error _ => false
        | .ok (_, write) => write.check.isOk) = false) :
      ∃ reply, ∀ session, dispatch whole moment name cmd session = (reply, session) := by
    simp only [dispatch_adds whole moment adds cmd]
    cases asked : additionOf whole.parseFloat name cmd with
    | error message => exact ⟨_, fun session => rfl⟩
    | ok found =>
      obtain ⟨key, write⟩ := found
      rw [asked] at refused
      cases checked : write.check with
      | ok =>
        simp [checked, Except.isOk, Except.toBool] at refused
      | error message =>
        refine ⟨.error message, fun session => ?_⟩
        simp only [addVectors, VectorWrite.validate_checked, checked]
        rfl
  cases name with
  | get | ttl | getrange =>
    simp only [wellFormed, decide_eq_false_iff_not, not_le] at refused
    exact ⟨_, fun session => by simp only [dispatch, readReply, refused, if_true]; rfl⟩
  | ping | echo | quit | command | auth | select | setrange => exact ⟨_, fun _ => rfl⟩
  | setnx | rename | append =>
    simp only [wellFormed, decide_eq_false_iff_not, not_le] at refused
    exact ⟨_, fun session => if_pos refused⟩
  | mset =>
    simp only [wellFormed, Bool.and_eq_false_iff, decide_eq_false_iff_not] at refused
    have odd : cmd.numArgs < 2 ∨ cmd.numArgs % 2 ≠ 0 := by omega
    exact ⟨_, fun session => if_pos odd⟩
  | set =>
    by_cases few : cmd.numArgs < 2
    · exact ⟨_, fun session => if_pos few⟩
    cases parsed : parseSetArgs cmd.args.tail with
    | error message =>
      refine ⟨.error message, fun session => ?_⟩
      simp only [dispatch, readReply, dispatchSet_eq, few, if_false, parsed]
    | ok args =>
      have two : 2 ≤ cmd.numArgs := by omega
      simp [wellFormed, two, parsed, Except.isOk, Except.toBool] at refused
  | setex =>
    by_cases few : cmd.numArgs < 3
    · exact ⟨_, fun session => if_pos few⟩
    have three : 3 ≤ cmd.numArgs := by omega
    simp only [dispatch, readReply, dispatchSetex, few, if_false]
    cases parsed : parseInt (cmd.arg 1) with
    | none => exact ⟨_, fun session => rfl⟩
    | some seconds =>
      simp only [wellFormed, three, parsed, decide_true, Bool.true_and, Option.any_some,
        decide_eq_false_iff_not, Int64.not_lt] at refused
      exact ⟨_, fun session => if_pos refused⟩
  | expire | incrby | decrby =>
    by_cases few : cmd.numArgs < 2
    · exact ⟨_, fun session => if_pos few⟩
    have two : 2 ≤ cmd.numArgs := by omega
    have number : parseInt (cmd.arg 1) = none := by simpa [wellFormed, two] using refused
    simp only [dispatch, readReply, dispatchExpire, dispatchIncrBy, few, if_false, number]
    exact ⟨_, fun session => rfl⟩
  | vadd => exact adding (.inl rfl) refused
  | vaddBatch => exact adding (.inr (.inl rfl)) refused
  | vaddbin => exact adding (.inr (.inr rfl)) refused
  | vmigrate => exact migrate_refused refused moment
  | vdel =>
    by_cases few : cmd.numArgs < 2
    · exact ⟨_, fun session => if_pos few⟩
    have two : 2 ≤ cmd.numArgs := by omega
    simp only [wellFormed, two, decide_true, Bool.true_and, endsWithSpace] at refused
    simp only [dispatch, readReply, dispatchVdel, few, if_false]
    cases parsed : parseOptionalSpace cmd 2 with
    | error message => exact ⟨_, fun session => rfl⟩
    | ok found =>
      simp only [parsed, decide_eq_false_iff_not] at refused
      exact ⟨_, fun session => if_pos refused⟩
  | vcompact =>
    by_cases few : cmd.numArgs < 1
    · exact ⟨_, fun session => if_pos few⟩
    have one : 1 ≤ cmd.numArgs := by omega
    simp only [wellFormed, one, decide_true, Bool.true_and, endsWithSpace] at refused
    simp only [dispatch, readReply, dispatchVcompact, few, if_false]
    cases parsed : parseOptionalSpace cmd 1 with
    | error message => exact ⟨_, fun session => rfl⟩
    | ok found =>
      simp only [parsed, decide_eq_false_iff_not] at refused
      exact ⟨_, fun session => if_pos refused⟩
  | vsearch | vsim | vfuse => cases plain
  | _ => cases refused

theorem searching_cases (searches : searching name = true) :
    name = .vsearch ∨ name = .vsim ∨ name = .vfuse := by
  unfold searching at searches
  split at searches
  · exact .inl rfl
  · exact .inr (.inl rfl)
  · exact .inr (.inr rfl)
  · cases searches

theorem adding_cases (adds : adding name = true) :
    name = .vadd ∨ name = .vaddBatch ∨ name = .vaddbin := by
  unfold adding at adds
  split at adds
  · exact .inl rfl
  · exact .inr (.inl rfl)
  · exact .inr (.inr rfl)
  · cases adds

theorem searchOf_touches {request : SearchRequest}
    (searches : searching name = true) (asked : searchOf parseFloat name cmd = .ok request) :
    wellFormed parseFloat name cmd = true ∧
      handledKeys parseFloat name cmd = request.indexes ++ request.logs := by
  rcases searching_cases searches with rfl | rfl | rfl <;>
    simp only [wellFormed, handledKeys, asked, Except.isOk, Except.toBool, and_self]

theorem additionOf_touches (adds : adding name = true)
    (fits : wellFormed parseFloat name cmd = true) :
    ∃ key write, additionOf parseFloat name cmd = .ok (key, write) ∧
      handledKeys parseFloat name cmd = [key] := by
  rcases adding_cases adds with rfl | rfl | rfl <;>
    (simp only [wellFormed] at fits
     split at fits
     · cases fits
     · rename_i key write asked
       exact ⟨key, write, asked, by simp only [handledKeys, asked]⟩)

theorem local_dispatch {whole : ExecutorConfig} {scope : Set Place} {name : CommandName}
    {cmd : Command}
    (around : whole.toSurroundings = (config.reading ranking moment.now history).toSurroundings)
    (sized : name ≠ .dbsize) (discreet : revealing name = false)
    (covers : ∀ key, Touches config.parseFloat name cmd key → Session.Covers scope key)
    (shadow : name = .vmigrate → Touches config.parseFloat name cmd (cmd.arg 1) →
      .store (.files (shadowPath config.vectors (cmd.arg 1))) ∈ scope)
    (look : Touches config.parseFloat name cmd (cmd.arg 0) →
      Session.Local config.vectors moment.now scope fun session =>
        (whole.read name cmd session.store.kv, session)) :
    Session.Local config.vectors moment.now scope (dispatch whole moment name cmd) := by
  cases searches : searching name with
  | true =>
    have names := searching_cases searches
    have same : dispatch whole moment name cmd =
        dispatch (config.reading ranking moment.now history) moment name cmd := by
      funext session
      rcases names with rfl | rfl | rfl <;> simp only [dispatch, readReply, around]
    rw [same]
    refine local_dispatchSearches ranking moment history names fun request asked => ?_
    obtain ⟨fits, keys⟩ := searchOf_touches searches asked
    exact ⟨fun key member =>
        (covers key ⟨fits, .inl (keys ▸ List.mem_append_left _ member)⟩).stored,
      fun key member => (covers key ⟨fits, .inr ⟨searches, member⟩⟩).entry⟩
  | false =>
  cases fits : wellFormed config.parseFloat name cmd with
  | false =>
    have parser : whole.parseFloat = config.parseFloat := by rw [around]; rfl
    obtain ⟨reply, answers⟩ := dispatch_refused searches (parser ▸ fits) moment
    rw [funext answers]
    exact .pure reply
  | true =>
  have inside (key : Bytes) (member : key ∈ handledKeys config.parseFloat name cmd) :=
    covers key ⟨fits, .inl member⟩
  by_cases reads : ∃ kv, (readReply moment.now name cmd kv).isSome
  · obtain ⟨kv, some⟩ := reads
    have same : dispatch whole moment name cmd =
        fun session => ((readReply moment.now name cmd session.store.kv).getD .quit, session) := by
      funext session
      rw [readReply_isSome _ _ _ _ session.store.kv] at some
      obtain ⟨reply, read⟩ := Option.isSome_iff_exists.mp some
      unfold dispatch
      simp only [read, Option.getD_some]
    rw [same]
    refine .read _ fun left right alike => ?_
    have shows (key : Bytes) (member : key ∈ handledKeys config.parseFloat name cmd) :=
      Store.alike_shown (inside key member).stored.entry (Session.alike_store alike)
    rw [readReply_congr sized shows]
  · have none (session : Session) : readReply moment.now name cmd session.store.kv = none := by
      rw [← Option.not_isSome_iff_eq_none]
      exact fun some => reads ⟨_, some⟩
    have first (single : handledKeys config.parseFloat name cmd = [cmd.arg 0]) :
        Session.Covers scope (cmd.arg 0) := inside _ (single ▸ List.mem_singleton_self _)
    unfold dispatch
    simp only [none, around]
    split
    case h_2 => exact local_dispatchExpire moment cmd (first rfl)
    case h_3 => exact local_dispatchPersist moment cmd (first rfl)
    case h_4 =>
      exact local_dispatchRename moment cmd (inside _ List.mem_cons_self)
        (inside _ (List.mem_cons_of_mem _ List.mem_cons_self))
    case h_5 => exact local_dispatchSet moment cmd (first rfl)
    case h_6 => exact local_dispatchSetex moment cmd (first rfl)
    case h_7 => exact local_dispatchMset moment cmd inside
    case h_8 => exact local_dispatchSetnx moment cmd (first rfl)
    case h_9 => exact local_dispatchGetset moment cmd (first rfl)
    case h_10 => exact local_dispatchIncr moment cmd 1 (first rfl)
    case h_11 => exact local_dispatchIncr moment cmd (-1) (first rfl)
    case h_12 => exact local_dispatchIncrBy moment cmd _ _ (first rfl)
    case h_13 => exact local_dispatchIncrBy moment cmd _ _ (first rfl)
    case h_14 => exact local_dispatchAppend moment cmd (first rfl)
    case h_18 =>
      exact local_dispatchVmigrate moment cmd _ ⟨inside _ List.mem_cons_self,
        shadow rfl ⟨fits, .inl List.mem_cons_self⟩⟩
    case h_19 => exact local_dispatchVdel moment cmd _ inside
    case h_20 => exact local_dispatchVcompact moment cmd _ inside
    case h_24 =>
      have asked := none ⟨.empty, []⟩
      -- Every other name has been dispatched or answered above.
      refine look ⟨fits, .inl ?_⟩
      unfold handledKeys
      split
      all_goals first | exact List.mem_singleton_self _ | contradiction
    case h_21 | h_22 | h_23 => cases searches
    all_goals cases discreet

theorem metered_dispatch (name : CommandName) (cmd : Command) (sized : name ≠ .dbsize) :
    Metered config.vectors moment.now (touched config.vectors config.parseFloat name cmd)
      (adding name = false ∨ config.vectors.maxMemory ≤ 0)
      (dispatch (config.reading ranking moment.now history) moment name cmd) := by
  have covers (key : Bytes) (touches : Touches config.parseFloat name cmd key) :=
    touches.covers config.vectors
  let reading := config.reading ranking moment.now history
  cases adds : adding name with
  | true =>
    have names := adding_cases adds
    have plain : searching name = false := by rcases names with rfl | rfl | rfl <;> rfl
    cases fits : wellFormed config.parseFloat name cmd with
    | false =>
      obtain ⟨reply, answers⟩ := @dispatch_refused reading name cmd plain fits moment
      rw [funext answers]
      exact .pure _ reply
    | true =>
      obtain ⟨key, write, asked, handled⟩ := additionOf_touches adds fits
      have same : dispatch reading moment name cmd =
          addVectors reading.toSurroundings moment key write := by
        funext session
        rw [dispatch_adds reading moment names cmd, show additionOf reading.parseFloat name cmd =
          .ok (key, write) from asked]
      have covered := covers key ⟨fits, .inl (handled ▸ List.mem_singleton_self key)⟩
      rw [same]
      exact (metered_addVectors moment reading.toSurroundings covered write).mono fun free =>
        free.resolve_left Bool.noConfusion
  | false =>
    cases reveals : revealing name with
    | false =>
      refine .of_confined ((local_dispatch config ranking moment history rfl sized reveals covers
        (fun same touches => ⟨same, touches, rfl⟩) fun touches => ?_).confined trivial)
      exact .read _ fun left right alike => congrArg (ranking.look name cmd)
        (Store.alike_shown (covers _ touches).stored.entry (Session.alike_store alike))
    | true =>
      rcases revealing_cases reveals with rfl | rfl | rfl | rfl
      · exact .of_confined (confined_dispatchDel moment cmd fun key member =>
          covers key ⟨rfl, .inl member⟩)
      all_goals cases adds

theorem fuseSearch_env {env env' : Surroundings} (same : env.vectors = env'.vectors) :
    fuseSearch env = fuseSearch env' := by
  have opts (now : Int64) (key : Bytes) (dim : Nat) (store : Store) :
      vSearchOpts env now key dim store = vSearchOpts env' now key dim store := by
    simp only [vSearchOpts, same]
  funext now index queries store
  induction queries generalizing store with
  | nil => rfl
  | cons query queries ih => simp only [fuseSearch, opts, ih]

theorem lookUp_env {env env' : Surroundings} (same : env.vectors = env'.vectors) (now : Int64)
    (store : Store) (request : SearchRequest) :
    request.lookUp env now store = request.lookUp env' now store := by
  cases request <;>
    simp only [SearchRequest.lookUp, vSearchOpts, getVector, fuseSearch_env same, same]

/-- The log has a part only in a search in the past, which looks at touched keys. -/
theorem dispatch_history {history history' : Bytes → List (Int64 × WALEffect)}
    (same : ∀ key, Touches config.parseFloat name cmd key → history key = history' key) :
    dispatch (config.reading ranking moment.now history) moment name cmd =
      dispatch (config.reading ranking moment.now history') moment name cmd := by
  funext session
  cases searches : searching name with
  | true =>
    have names := searching_cases searches
    rw [dispatch_searches config ranking moment history names,
      dispatch_searches config ranking moment history' names]
    cases asked : searchOf config.parseFloat name cmd with
    | error message => rfl
    | ok request =>
      obtain ⟨fits, keys⟩ := searchOf_touches searches asked
      have answers (store : Store) :
          request.answer config ranking moment.now history cmd store =
            request.answer config ranking moment.now history' cmd store := by
        refine SearchRequest.answer_congr ?_ fun _ _ _ _ _ => rfl
        refine SearchRequest.results_congr (fun _ _ => rfl) (fun _ _ _ _ _ _ _ _ _ => rfl) ?_
        intro key member asOf query
        rw [same key ⟨fits, .inl (keys ▸ List.mem_append_right _ member)⟩]
      dsimp only
      simp only [answers]
      rw [@lookUp_env (config.reading ranking moment.now history).toSurroundings
        (config.reading ranking moment.now history').toSurroundings rfl]
  | false =>
    unfold dispatch
    split
    · rfl
    split
    case h_21 | h_22 | h_23 => cases searches
    all_goals rfl

end Dispatch

section Additions

variable {env : Surroundings} {config : ExecutorConfig} {suppress : Bool} {write : VectorWrite}
  {session : Session}

theorem addVectors_refused {message : String}
    (refused : (write.validate env.vectors now key session.store).1 = .error message) :
    (addVectors env ⟨now, suppress⟩ key write session).1 = .error message := by
  simp only [addVectors, Session.step, refused, id]

theorem addVectors_accepted
    (accepted : (write.validate env.vectors now key session.store).1 = .ok ()) :
    (addVectors env ⟨now, suppress⟩ key write session).1 = .integer write.items.length := by
  have validated : write.validate env.vectors now key session.store =
      (.ok (), (write.validate env.vectors now key session.store).2) := Prod.ext accepted rfl
  obtain ⟨idx, made, -, applied⟩ := VectorWrite.apply_accepted validated
  simp only [addVectors, Session.step, accepted, Session.writeWAL_store, applied]

theorem dispatched_addition (adds : name = .vadd ∨ name = .vaddBatch ∨ name = .vaddbin)
    (store : Store) :
    dispatched config now name cmd store =
      match additionOf config.parseFloat name cmd with
      | .error message => (.error message, ⟨store, []⟩)
      | .ok (key, write) =>
        addVectors config.toSurroundings ⟨now, false⟩ key write ⟨store, []⟩ := by
  have nothing : effectsBefore now name cmd store.kv = [] := by
    rcases adds with rfl | rfl | rfl <;> rfl
  rw [dispatched, nothing]
  exact dispatch_adds config _ adds cmd _

end Additions

def Executor.session (executor : Executor) : Session := ⟨executor.store, []⟩

def Outcome.session (outcome : Outcome) : Session := ⟨outcome.executor.store, outcome.appended⟩

/-- What is prepared shows in the records of handled keys only. -/
theorem prepared_frame (vectors : VectorConfig) (executor : Executor) :
    Frame Session.view (handled vectors parseFloat name cmd) executor.session
      (prepared (effectsBefore now name cmd executor.store.kv) executor.store) := by
  intro place outside
  cases place with
  | store place => rfl
  | records key =>
    have untouched : ∀ effect ∈ effectsBefore now name cmd executor.store.kv,
        ¬ effect.key = key := by
      intro effect member same
      unfold effectsBefore at member
      cases effects : prepareDurableEffects now name cmd executor.store.kv with
      | none => simp [effects] at member
      | some listed =>
        rw [effects] at member
        have touches : Touches parseFloat name cmd effect.key :=
          prepareDurableEffects_touches effects member
        exact outside (same ▸ ⟨touches.fits, prepareDurableEffects_key effects member⟩)
    have none : (prepared (effectsBefore now name cmd executor.store.kv)
        executor.store).records key = [] := by
      rw [Session.records, prepared_flatten, List.filter_eq_nil_iff]
      exact fun effect member => by simpa using untouched effect member
    exact none

theorem execute_session (config : ExecutorConfig) {executor : Executor}
    (known : lookup cmd.normalized = some name) :
    (execute config now cmd executor).session = executor.session ∨
      (execute config now cmd executor).session =
        prepared (effectsBefore now name cmd executor.store.kv) executor.store ∨
      (execute config now cmd executor).session =
        (dispatched config now name cmd executor.store).2 := by
  have settled := @execute_cases config now cmd executor name known
  split at settled
  · unfold raftSettles at settled
    split at settled
    · exact .inr (.inr (congrArg₂ Session.mk settled.store settled.appended))
    split at settled
    · exact .inr (.inr (congrArg₂ Session.mk settled.store settled.appended))
    · exact .inr (.inr (congrArg₂ Session.mk settled.store settled.appended))
    · exact .inr (.inl (congrArg₂ Session.mk settled.store settled.appended))
    · exact .inr (.inl (congrArg₂ Session.mk settled.store settled.appended))
    · exact .inr (.inr (congrArg₂ Session.mk settled.store settled.appended))
  · exact .inl (congrArg₂ Session.mk settled.store settled.appended)

section Execute

variable (config : ExecutorConfig) (ranking : Ranking) (now : Int64)

/-- A search reads documents and changes the entries of its indexes only. -/
theorem dispatch_frame (moment : Moment) (history : Bytes → List (Int64 × WALEffect))
    (sized : name ≠ .dbsize) {session : Session} (placed : session.Placed config.vectors) :
    Frame Session.view (handled config.vectors config.parseFloat name cmd) session
      (dispatch (config.reading ranking moment.now history) moment name cmd session).2 := by
  cases searches : searching name with
  | false =>
    intro place outside
    exact (metered_dispatch config ranking moment history name cmd sized).frame placed place
      fun inside => outside (touched_plain config.vectors searches inside)
  | true =>
    rw [dispatch_searches config ranking moment history (searching_cases searches)]
    cases asked : searchOf config.parseFloat name cmd with
    | error message => exact fun _ _ => rfl
    | ok request =>
      obtain ⟨fits, keys⟩ := searchOf_touches searches asked
      have covers (key : Bytes) (member : key ∈ request.indexes) :
          Store.Covers (stored (handled config.vectors config.parseFloat name cmd)) key :=
        have inside := keys ▸ List.mem_append_left request.logs member
        ⟨⟨fits, inside⟩, ⟨fits, inside⟩⟩
      let env := (config.reading ranking moment.now history).toSurroundings
      have opening := ((request.local_lookUp env moment.now covers).confined trivial).frame
        session.store placed
      dsimp only
      rw [Session.step_store]
      intro place outside
      cases place with
      | store place => exact opening place outside
      | records key => rfl

theorem execute_frame {executor : Executor} (history : Bytes → List (Int64 × WALEffect))
    (known : lookup cmd.normalized = some name) (sized : name ≠ .dbsize)
    (placed : executor.store.Placed config.vectors) :
    Frame Session.view (handled config.vectors config.parseFloat name cmd) executor.session
      (execute (config.reading ranking now history) now cmd executor).session := by
  have before := @prepared_frame config.parseFloat name cmd now config.vectors executor
  have start : (prepared (effectsBefore now name cmd executor.store.kv) executor.store).Placed
      config.vectors := placed
  intro place outside
  rcases @execute_session name cmd now (config.reading ranking now history) executor known with
    refused | stopped | ran
  · rw [refused]
  · rw [stopped]
    exact before place outside
  · rw [ran]
    exact (dispatch_frame config ranking ⟨now, _⟩ history sized start place outside).trans
      (before place outside)

theorem execute_placed {executor : Executor} (history : Bytes → List (Int64 × WALEffect))
    (cmd : Command) (placed : executor.store.Placed config.vectors) :
    (execute (config.reading ranking now history) now cmd executor).executor.store.Placed
      config.vectors := by
  cases known : lookup cmd.normalized with
  | none =>
    rw [(execute_unknown known).store]
    exact placed
  | some name =>
    have start : (prepared (effectsBefore now name cmd executor.store.kv) executor.store).Placed
        config.vectors := placed
    have kept : (execute (config.reading ranking now history) now cmd executor).session.Placed
        config.vectors := by
      rcases @execute_session name cmd now (config.reading ranking now history) executor known with
        refused | stopped | ran
      · rw [refused]
        exact placed
      · rw [stopped]
        exact start
      · rw [ran]
        by_cases sized : name = .dbsize
        · subst sized
          exact start
        · exact (metered_dispatch config ranking ⟨now, _⟩ history name cmd sized).keeps start
    exact kept

variable {left right : Executor} {history history' : Bytes → List (Int64 × WALEffect)}

theorem effectsBefore_same
    (shows : ∀ key, Touches config.parseFloat name cmd key →
      left.store.kv.shown now key = right.store.kv.shown now key) :
    effectsBefore now name cmd left.store.kv = effectsBefore now name cmd right.store.kv :=
  congrArg (Option.getD · []) (prepareDurableEffects_same shows)

theorem dispatched_same (sized : name ≠ .dbsize)
    (placedLeft : left.store.Placed config.vectors)
    (placedRight : right.store.Placed config.vectors)
    (agree : Confinement.Agree Session.view (touched config.vectors config.parseFloat name cmd)
      left.session right.session)
    (histories : ∀ key, Touches config.parseFloat name cmd key → history key = history' key)
    (free : adding name = false ∨ config.vectors.maxMemory ≤ 0) :
    (dispatched (config.reading ranking now history) now name cmd left.store).1 =
      (dispatched (config.reading ranking now history') now name cmd right.store).1 := by
  have effects := @effectsBefore_same name cmd config now left right fun key touches =>
    Store.shown_determined now (touches.covers config.vectors).entry fun place member =>
      agree (.store place) member
  have start (effects : List WALEffect) : Confinement.Agree Session.view
      (touched config.vectors config.parseFloat name cmd) (prepared effects left.store)
      (prepared effects right.store) := by
    intro place member
    cases place with
    | store place => exact agree (.store place) member
    | records key => rfl
  unfold dispatched
  dsimp only
  rw [effects, dispatch_history config ranking ⟨now, _⟩ histories]
  exact (metered_dispatch config ranking ⟨now, _⟩ history' name cmd sized).same placedLeft
    placedRight (.inl free) (start _)

/-- Two tenants answer the same if both admit a command or neither does, and the command is
answered alike where it is dispatched. -/
theorem execute_same (known : lookup cmd.normalized = some name)
    (admits : admitted config now name cmd left = admitted config now name cmd right)
    (replies : admitted config now name cmd left = true →
      name.readOnly = true ∨ config.raft.failure = none →
      (dispatched (config.reading ranking now history) now name cmd left.store).1 =
        (dispatched (config.reading ranking now history') now name cmd right.store).1) :
    (execute (config.reading ranking now history) now cmd left).reply =
      (execute (config.reading ranking now history') now cmd right).reply := by
  have limits (history : Bytes → List (Int64 × WALEffect)) (executor : Executor) :
      admitted (config.reading ranking now history) now name cmd executor =
        admitted config now name cmd executor := rfl
  have node (history : Bytes → List (Int64 × WALEffect)) :
      (config.reading ranking now history).raft = config.raft := rfl
  rw [execute_reply known, execute_reply known, limits, limits, ← admits, node, node]
  cases entry : admitted config now name cmd left with
  | false => rfl
  | true =>
    simp only [if_true]
    by_cases reads : name.readOnly = true
    · rw [if_pos reads, if_pos reads]
      exact replies entry (.inl reads)
    · rw [if_neg reads, if_neg reads]
      cases failure : config.raft.failure with
      | none => exact replies entry (.inr failure)
      | some message => rfl

end Execute

end Dbx.Query
