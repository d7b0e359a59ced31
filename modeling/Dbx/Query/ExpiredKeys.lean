import Dbx.Query.ReplayAgreement
import Dbx.Query.Touched

/-!
# What expired entries show

Two tenants with the same live entries and the same files, one of which may still hold
entries whose deadline has passed. A command answers the same to both, apart from the
count of `DEL` and the admission of a vector.
-/

set_option autoImplicit false

namespace Dbx.Query

open Simulation Dbx.Engine Dbx.Persistence Dbx.Protocol

variable {α : Type} {now : Int64}

/-- An executor whose reads of other data look at live entries. For the commands that are
not modelled one by one (`KEYS`, `SCAN`, the reads of bitmaps and of types other than
strings) this is an assumption; they go through `Get`, `Keys` or `DBSize`. -/
def ExecutorConfig.live (config : ExecutorConfig) (ranking : Ranking)
    (look : CommandName → Command → (Bytes → Option (Entry MMapVectorIndex)) → Reply)
    (now : Int64) (history : Bytes → List (Int64 × WALEffect)) : ExecutorConfig :=
  { config.reading ranking now history with
    read := fun name cmd kv => look name cmd fun key => kv.shown now key }

section Dispatch

variable (config : ExecutorConfig) (ranking : Ranking)
  (look : CommandName → Command → (Bytes → Option (Entry MMapVectorIndex)) → Reply)
  (history : Bytes → List (Int64 × WALEffect)) (suppress : Bool) (cmd : Command)

theorem respects_dispatch (name : CommandName) (discreet : revealing name = false) :
    Respects (Session.Twins now)
      (dispatch (config.live ranking look now history) ⟨now, suppress⟩ name cmd) := by
  by_cases sized : name = .dbsize
  · subst sized
    exact .read (fun session : Session => Reply.integer (session.store.kv.dbSize now))
      fun left right twins => by rw [twins.live.dbSize]
  · have everywhere (key : Bytes) : Session.Covers Set.univ key := ⟨trivial, trivial, trivial⟩
    refine (@local_dispatch config ranking ⟨now, suppress⟩ history
      (config.live ranking look now history) Set.univ name cmd rfl sized discreet
      (fun key _ => everywhere key) (fun _ _ => trivial) fun _ => ?_).respects
    refine .read _ fun left right alike => congrArg (look name cmd) (funext fun key => ?_)
    exact Store.alike_shown (everywhere key).stored.entry (Session.alike_store alike)

end Dispatch

section Additions

variable {env : Surroundings} {suppress : Bool} {key : Bytes} {write : VectorWrite}
  {left right session : Session}

theorem addVectors_twins (twins : left.Twins now right)
    (room : ∀ needed, write.demand env.vectors now key left.store = .ok needed →
      (left.store.HasRoom env.vectors now needed ↔ right.store.HasRoom env.vectors now needed)) :
    (addVectors env ⟨now, suppress⟩ key write left).1 =
        (addVectors env ⟨now, suppress⟩ key write right).1 ∧
      (addVectors env ⟨now, suppress⟩ key write left).2.Twins now
        (addVectors env ⟨now, suppress⟩ key write right).2 := by
  have verdict := VectorWrite.verdict_same
    (write.demand_same (.univ key) (.inl twins)) room
  have covers : Session.Covers Set.univ key := ⟨trivial, trivial, trivial⟩
  have applying : Respects (Session.Twins now) fun session =>
      (session.writeWAL ⟨now, suppress⟩ (additionRecord write).1 key
        (additionRecord write).2 0).step (write.apply env.vectors now key
          (session.writeWAL ⟨now, suppress⟩ (additionRecord write).1 key
            (additionRecord write).2 0).store)
        ("ERR vector apply failed after WAL append: " ++ ·)
        fun _ session => (.integer write.items.length, session) :=
    (Session.local_logged ⟨now, suppress⟩ _ _ 0 (covers.records) (Session.local_step _
      (VectorWrite.local_apply env.vectors now covers.stored write) fun _ => .pure _)).respects
  have checked := @VectorWrite.validate_twins env.vectors now key _ _ twins write
  unfold addVectors Session.step
  dsimp only
  rw [verdict]
  cases (write.validate env.vectors now key right.store).1 with
  | error message => exact ⟨rfl, checked⟩
  | ok => exact applying _ _ checked

theorem addVectors_reveals (twins : left.Twins now right) {needed : Int}
    (asked : write.demand env.vectors now key left.store = .ok needed)
    (same : (addVectors env ⟨now, suppress⟩ key write left).1 =
      (addVectors env ⟨now, suppress⟩ key write right).1) :
    left.store.HasRoom env.vectors now needed ↔ right.store.HasRoom env.vectors now needed := by
  have asked' := (@VectorWrite.demand_same env.vectors now key _ _ _ (.univ key) (.inl twins)
    write).symm.trans asked
  have accepts (session : Session)
      (asks : write.demand env.vectors now key session.store = .ok needed) :
      session.store.HasRoom env.vectors now needed ↔
        (addVectors env ⟨now, suppress⟩ key write session).1.isError = false := by
    constructor
    · intro room
      rw [addVectors_accepted (write.accepted_iff.mpr ⟨needed, asks, room⟩)]
      rfl
    · intro success
      cases verdict : (write.validate env.vectors now key session.store).1 with
      | error message =>
        rw [addVectors_refused verdict] at success
        cases success
      | ok =>
        obtain ⟨needed', asks', room⟩ := write.accepted_iff.mp verdict
        rw [asks] at asks'
        cases asks'
        exact room
  rw [accepts left asked, accepts right asked', same]

end Additions

/-- The distinct keys of a command that have an entry, expired or not. -/
def presentKeys (cmd : Command) (kv : KVStore MMapVectorIndex) : Finset Bytes :=
  cmd.keys.toFinset.filter fun key => kv.contains key

structure Concealed (config : ExecutorConfig) (now : Int64) (cmd : Command)
    (left right : Executor) : Prop where
  /-- As many of the keys that `DEL` names are present. -/
  deleted : lookup cmd.normalized = some .del → cmd.numArgs ≠ 0 →
    admitted config now .del cmd left = true → config.raft.failure = none →
    (presentKeys cmd left.store.kv).card = (presentKeys cmd right.store.kv).card
  /-- The memory of open indexes leaves room for a vector in both, or in neither. -/
  added : ∀ name key write needed, lookup cmd.normalized = some name →
    additionOf config.parseFloat name cmd = .ok (key, write) → config.readOnly = false →
    config.raft.applies = true → write.demand config.vectors now key left.store = .ok needed →
    (left.store.HasRoom config.vectors now needed ↔ right.store.HasRoom config.vectors now needed)

section Observed

variable {config : ExecutorConfig} {ranking : Ranking}
  {look : CommandName → Command → (Bytes → Option (Entry MMapVectorIndex)) → Reply}
  {history : Bytes → List (Int64 × WALEffect)} {name : CommandName} {cmd : Command}
  {left right : Executor}

theorem effectsBefore_twins (twins : left.store.Twins now right.store) :
    effectsBefore now name cmd left.store.kv = effectsBefore now name cmd right.store.kv := by
  rw [effectsBefore, effectsBefore, @prepareDurableEffects_congr (fun _ => none) name cmd now
    left.store.kv right.store.kv fun key _ => twins.live key]

theorem admitted_twins (twins : left.store.Twins now right.store)
    (accounted : left.accountedMemory = right.accountedMemory) :
    admitted config now name cmd left = admitted config now name cmd right := by
  have fits := effectsFitQuota_congr config.maxMemory right.accountedMemory
    fun effect (_ : effect ∈ effectsBefore now name cmd right.store.kv) => twins.live effect.key
  dsimp only [admitted]
  rw [effectsBefore_twins twins, accounted, fits]

theorem dispatched_twins (twins : left.store.Twins now right.store)
    (discreet : revealing name = false) :
    (dispatched (config.live ranking look now history) now name cmd left.store).1 =
        (dispatched (config.live ranking look now history) now name cmd right.store).1 ∧
      (dispatched (config.live ranking look now history) now name cmd left.store).2.Twins now
        (dispatched (config.live ranking look now history) now name cmd right.store).2 := by
  unfold dispatched
  rw [effectsBefore_twins twins]
  exact respects_dispatch config ranking look history _ cmd name discreet _ _ twins

theorem dispatched_del (store : Store) (named : cmd.numArgs ≠ 0) :
    (dispatched config now .del cmd store).1 = .integer (presentKeys cmd store.kv).card ∧
      (dispatched config now .del cmd store).2.store = (store.delete now cmd.keys).2 := by
  have enough : ¬ cmd.numArgs < 1 := by omega
  simp only [dispatched, dispatch, readReply, dispatchDel, if_neg enough, prepared_store,
    Store.delete_count, presentKeys, true_and]
  split
  · exact (writeWAL_deletions ..).1
  · rfl

/-- The replies are the same, and so are the live entries behind them. -/
def Indistinct (now : Int64) (left right : Outcome) : Prop :=
  left.reply = right.reply ∧ left.executor.store.kv.SameLive now right.executor.store.kv

theorem indistinct_of_dispatched (known : lookup cmd.normalized = some name)
    (twins : left.store.Twins now right.store)
    (accounted : left.accountedMemory = right.accountedMemory)
    (replies : admitted config now name cmd left = true →
      name.readOnly = true ∨ config.raft.failure = none →
      (dispatched config now name cmd left.store).1 =
        (dispatched config now name cmd right.store).1)
    (stores : admitted config now name cmd left = true →
      (name.readOnly || config.raft.applies) = true →
      (dispatched config now name cmd left.store).2.store.kv.SameLive now
        (dispatched config now name cmd right.store).2.store.kv) :
    Indistinct now (execute config now cmd left) (execute config now cmd right) := by
  rw [Indistinct, execute_reply known, execute_reply known, execute_store known,
    execute_store known, ← admitted_twins twins accounted]
  cases admits : admitted config now name cmd left with
  | false => exact ⟨rfl, twins.live⟩
  | true =>
    simp only [if_true, Bool.true_and]
    constructor
    · by_cases reads : name.readOnly = true
      · rw [if_pos reads, if_pos reads]
        exact replies admits (.inl reads)
      rw [if_neg reads, if_neg reads]
      cases failure : config.raft.failure with
      | none => exact replies admits (.inr failure)
      | some message => rfl
    · by_cases applies : (name.readOnly || config.raft.applies) = true
      · rw [if_pos applies, if_pos applies]
        exact stores admits applies
      · rw [if_neg applies, if_neg applies]
        exact twins.live

theorem indistinct_del (known : lookup cmd.normalized = some .del)
    (twins : left.store.Twins now right.store)
    (accounted : left.accountedMemory = right.accountedMemory)
    (counts : cmd.numArgs ≠ 0 → admitted config now .del cmd left = true →
      config.raft.failure = none →
      (presentKeys cmd left.store.kv).card = (presentKeys cmd right.store.kv).card) :
    Indistinct now (execute config now cmd left) (execute config now cmd right) := by
  by_cases named : cmd.numArgs = 0
  · have refused (store : Store) : dispatched config now .del cmd store =
        (.error (wrongNumArgsError "DEL"), prepared (effectsBefore now .del cmd store.kv)
          store) := by
      simp [dispatched, dispatch, readReply, dispatchDel, named]
    refine indistinct_of_dispatched known twins accounted (fun _ _ => ?_) fun _ _ => ?_
    · rw [refused, refused]
    · rw [refused, refused]
      exact twins.live
  · refine indistinct_of_dispatched known twins accounted (fun admits settles => ?_) fun _ _ => ?_
    · rw [(dispatched_del left.store named).1, (dispatched_del right.store named).1,
        counts named admits (settles.resolve_left Bool.false_ne_true)]
    · rw [(dispatched_del left.store named).2, (dispatched_del right.store named).2]
      exact Store.sameLive_delete cmd.keys twins.live

theorem indistinct_adds (known : lookup cmd.normalized = some name)
    (adds : name = .vadd ∨ name = .vaddBatch ∨ name = .vaddbin)
    (twins : left.store.Twins now right.store)
    (accounted : left.accountedMemory = right.accountedMemory)
    (room : ∀ key write needed, additionOf config.parseFloat name cmd = .ok (key, write) →
      config.readOnly = false → config.raft.applies = true →
      write.demand config.vectors now key left.store = .ok needed →
      (left.store.HasRoom config.vectors now needed ↔
        right.store.HasRoom config.vectors now needed)) :
    Indistinct now (execute config now cmd left) (execute config now cmd right) := by
  have writes : name.readOnly = false := by rcases adds with rfl | rfl | rfl <;> rfl
  -- Where Raft reports no failure, this node has applied the command.
  have applied (failure : config.raft.failure = none) : config.raft.applies = true := by
    cases raft : config.raft with
    | «local» | leader => rfl
    | follower | failing => rw [raft] at failure; cases failure
  have both (admits : admitted config now name cmd left = true)
      (applies : config.raft.applies = true) :
      (dispatched config now name cmd left.store).1 =
          (dispatched config now name cmd right.store).1 ∧
        (dispatched config now name cmd left.store).2.Twins now
          (dispatched config now name cmd right.store).2 := by
    have primary : config.readOnly = false := by
      simp only [admitted, writes, Bool.and_eq_true] at admits
      simpa using admits.1.2
    rw [dispatched_addition adds, dispatched_addition adds]
    cases asked : additionOf config.parseFloat name cmd with
    | error message => exact ⟨rfl, twins⟩
    | ok found =>
      exact addVectors_twins twins fun needed demanded =>
        room found.1 found.2 needed asked primary applies demanded
  refine indistinct_of_dispatched known twins accounted (fun admits settles => ?_)
    fun admits applies => ?_
  · rw [writes] at settles
    exact (both admits (applied (settles.resolve_left Bool.false_ne_true))).1
  · rw [writes, Bool.false_or] at applies
    exact (both admits applies).2.live

theorem additionOf_adds {found : Bytes × VectorWrite} {parseFloat : Bytes → Option UInt32}
    (asked : additionOf parseFloat name cmd = .ok found) :
    name = .vadd ∨ name = .vaddBatch ∨ name = .vaddbin := by
  unfold additionOf at asked
  split at asked
  · exact .inl rfl
  · exact .inr (.inl rfl)
  · exact .inr (.inr rfl)
  · cases asked

theorem execute_write_reply {executor : Executor} (known : lookup cmd.normalized = some name)
    (writes : name.readOnly = false) (admits : admitted config now name cmd executor = true)
    (failure : config.raft.failure = none) :
    (execute config now cmd executor).reply =
      (dispatched config now name cmd executor.store).1 := by
  rw [execute_reply known, if_pos admits, writes, failure]
  rfl

theorem del_reveals (known : lookup cmd.normalized = some .del)
    (twins : left.store.Twins now right.store)
    (accounted : left.accountedMemory = right.accountedMemory) (named : cmd.numArgs ≠ 0)
    (admits : admitted config now .del cmd left = true) (failure : config.raft.failure = none)
    (same : (execute config now cmd left).reply = (execute config now cmd right).reply) :
    (presentKeys cmd left.store.kv).card = (presentKeys cmd right.store.kv).card := by
  rw [execute_write_reply known rfl admits failure, execute_write_reply known rfl
    ((admitted_twins twins accounted).symm.trans admits) failure,
    (dispatched_del left.store named).1, (dispatched_del right.store named).1] at same
  exact Int.ofNat.inj (Reply.integer.inj same)

theorem adds_reveal {key : Bytes} {write : VectorWrite} {needed : Int}
    (known : lookup cmd.normalized = some name)
    (asked : additionOf config.parseFloat name cmd = .ok (key, write))
    (twins : left.store.Twins now right.store) (primary : config.readOnly = false)
    (failure : config.raft.failure = none)
    (demanded : write.demand config.vectors now key left.store = .ok needed)
    (same : (execute config now cmd left).reply = (execute config now cmd right).reply) :
    left.store.HasRoom config.vectors now needed ↔
      right.store.HasRoom config.vectors now needed := by
  have adds := additionOf_adds asked
  have writes : name.readOnly = false := by rcases adds with rfl | rfl | rfl <;> rfl
  have admits (executor : Executor) : admitted config now name cmd executor = true := by
    rw [admitted, primary]
    rcases adds with rfl | rfl | rfl <;> rfl
  rw [execute_write_reply known writes (admits left) failure,
    execute_write_reply known writes (admits right) failure, dispatched_addition adds,
    dispatched_addition adds, asked] at same
  exact @addVectors_reveals now config.toSurroundings false key write ⟨left.store, []⟩
    ⟨right.store, []⟩ twins needed demanded same

/-- Expired entries show only in the count of `DEL` and in the room for a vector. Where
Raft fails after this node has run an addition, the reply is that failure in both, and
what one of them has added may be a vector that was there before. -/
theorem expired_entries_unobservable_iff (config : ExecutorConfig) (ranking : Ranking)
    (look : CommandName → Command → (Bytes → Option (Entry MMapVectorIndex)) → Reply)
    (history : Bytes → List (Int64 × WALEffect)) (now : Int64) (cmd : Command)
    (left right : Executor) (twins : left.store.Twins now right.store)
    (accounted : left.accountedMemory = right.accountedMemory) :
    (Concealed config now cmd left right →
      Indistinct now (execute (config.live ranking look now history) now cmd left)
        (execute (config.live ranking look now history) now cmd right)) ∧
    ((∀ message, config.raft ≠ .failing message true) →
      Indistinct now (execute (config.live ranking look now history) now cmd left)
        (execute (config.live ranking look now history) now cmd right) →
      Concealed config now cmd left right) := by
  constructor
  · intro concealed
    cases known : lookup cmd.normalized with
    | none =>
      simp only [Indistinct, execute, executeSpan, known, refuse]
      exact ⟨trivial, twins.live⟩
    | some name =>
      cases reveals : revealing name with
      | false =>
        have both := @dispatched_twins now config ranking look history name cmd left right twins
          reveals
        exact indistinct_of_dispatched known twins accounted (fun _ _ => both.1) fun _ _ =>
          both.2.live
      | true =>
        rcases revealing_cases reveals with rfl | adds
        · exact indistinct_del known twins accounted (concealed.deleted known)
        · exact indistinct_adds known adds twins accounted fun key write needed =>
            concealed.added name key write needed known
  · intro settled same
    constructor
    · intro known named admits failure
      exact @del_reveals now (config.live ranking look now history) cmd left right known twins
        accounted named admits failure same.1
    · intro name key write needed known asked primary applies demanded
      have failure : config.raft.failure = none := by
        cases raft : config.raft with
        | «local» | leader => rfl
        | follower => rw [raft] at applies; cases applies
        | failing message applied =>
          cases applied with
          | false => rw [raft] at applies; cases applies
          | true => exact absurd raft (settled message)
      exact @adds_reveal now (config.live ranking look now history) name cmd left right key write
        needed known asked twins primary failure demanded same.1

end Observed

/-- A tenant whose one key has expired and has not been reaped. -/
def lapsed : Executor :=
  ⟨⟨KVStore.new.put (ascii "k") ⟨.bytes (some (ascii "v")), .string, 1, 0⟩, fun _ => .absent⟩, 0⟩

def reaped : Executor := ⟨.empty, 0⟩

theorem lapsed_twins : lapsed.store.Twins 2 reaped.store := by
  refine ⟨fun key => ?_, rfl⟩
  by_cases same : key = ascii "k"
  · subst same
    rfl
  · simp [lapsed, reaped, Store.empty, KVStore.shown, KVStore.get, KVStore.put,
      AList.lookup_insert_ne same]

def delLapsed : Command := ⟨ascii "DEL", [some (ascii "k")]⟩

/-- `DEL` of a key that has expired answers one until the key has been reaped. -/
theorem expired_key_counted :
    lapsed.store.Twins 2 reaped.store ∧ lapsed.accountedMemory = reaped.accountedMemory ∧
      (execute (keysOnly.live nothingRanked (fun _ _ _ => .null) 2 fun _ => []) 2 delLapsed
        lapsed).reply = .integer 1 ∧
      (execute (keysOnly.live nothingRanked (fun _ _ _ => .null) 2 fun _ => []) 2 delLapsed
        reaped).reply = .integer 0 :=
  ⟨lapsed_twins, rfl, rfl, rfl⟩

theorem expired_key_unread :
    Indistinct 2
      (execute (keysOnly.live nothingRanked (fun _ _ _ => .null) 2 fun _ => []) 2
        ⟨ascii "GET", [some (ascii "k")]⟩ lapsed)
      (execute (keysOnly.live nothingRanked (fun _ _ _ => .null) 2 fun _ => []) 2
        ⟨ascii "GET", [some (ascii "k")]⟩ reaped) := by
  have known : lookup (Command.normalized ⟨ascii "GET", [some (ascii "k")]⟩) = some .get := rfl
  refine (expired_entries_unobservable_iff keysOnly nothingRanked (fun _ _ _ => .null) (fun _ => [])
    2 ⟨ascii "GET", [some (ascii "k")]⟩ lapsed reaped lapsed_twins rfl).1 ⟨?_, ?_⟩
  · intro named
    rw [known] at named
    cases named
  · intro name key write needed named asked
    rw [known] at named
    cases named
    cases asked

end Dbx.Query
