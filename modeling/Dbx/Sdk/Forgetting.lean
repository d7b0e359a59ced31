import Dbx.Query.ExpiredKeys
import Dbx.Query.VectorSteps
import Dbx.Sdk.TenantMemory

/-!
# Forgetting

A key that has been forgotten leaves no trace in what the memory returns, as long as its
vectors were only in the default space.
-/

set_option autoImplicit false

namespace Dbx.Sdk

open Calls Confinement Dbx.Engine Dbx.Persistence Dbx.Protocol Dbx.Query Runs

/-!
## The tenant
-/

/-- Keys without an entry, apart from the keys of the memory's indexes, and the ids that are
deleted in each of these. -/
structure Standing (vectors : VectorConfig) (index : Bytes) (gone : Set Bytes)
    (dead : Bytes → Set Bytes) (store : Store) : Prop where
  placed : store.Placed vectors
  spaces : ∀ space, store.Steady (dead (vectorSpaceKey index space)) (vectorSpaceKey index space)
  absent : ∀ key ∈ gone, store.kv.seen key = none
  apart : ∀ key ∈ gone, ∀ space, key ≠ vectorSpaceKey index space

section Standing

variable {vectors : VectorConfig} {index : Bytes} {gone : Set Bytes} {dead : Bytes → Set Bytes}
  {store : Store}

theorem seen_outside {key other : Bytes} (different : other ≠ key) :
    Location.entry other ∉ Store.keyPlaces key := by
  rintro (same | same)
  · exact different (Location.entry.inj same)
  · cases same

theorem files_outside {key other : Bytes} (different : other ≠ key) :
    Location.files (.live other) ∉ Store.keyPlaces key := by
  rintro (same | same)
  · cases same
  · exact different (IndexPath.live.inj (Location.files.inj same))

theorem steady_frame {α : Type} {key other : Bytes} {run : Store → α × Store} {more : Set Bytes}
    (confined : Confined Store.view (Store.Placed vectors) (Store.keyPlaces key) run)
    (placed : store.Placed vectors) (different : other ≠ key) (steady : store.Steady more other) :
    (run store).2.Steady more other := by
  have entry : (run store).2.kv.seen other = store.kv.seen other :=
    confined.frame store placed (.entry other) (seen_outside different)
  have files : (run store).2.disk (.live other) = store.disk (.live other) :=
    confined.frame store placed (.files (.live other)) (files_outside different)
  unfold Store.Steady
  rw [entry, files]
  exact steady

theorem Standing.change {α : Type} {space : Bytes} {run : Store → α × Store} {more : Set Bytes}
    (standing : Standing vectors index gone dead store)
    (confined : Confined Store.view (Store.Placed vectors)
      (Store.keyPlaces (vectorSpaceKey index space)) run)
    (steady : (run store).2.Steady more (vectorSpaceKey index space)) :
    Standing vectors index gone (Function.update dead (vectorSpaceKey index space) more)
      (run store).2 where
  placed := confined.keeps store standing.placed
  spaces other := by
    by_cases same : vectorSpaceKey index other = vectorSpaceKey index space
    · rw [same, Function.update_self]
      exact steady
    · rw [Function.update_of_ne same]
      exact steady_frame confined standing.placed same (standing.spaces other)
  absent key member := by
    have frame : (run store).2.kv.seen key = store.kv.seen key :=
      confined.frame store standing.placed (.entry key)
        (seen_outside (standing.apart key member space))
    exact frame.trans (standing.absent key member)
  apart := standing.apart

theorem Standing.keep {α : Type} {space : Bytes} {run : Store → α × Store}
    (standing : Standing vectors index gone dead store)
    (confined : Confined Store.view (Store.Placed vectors)
      (Store.keyPlaces (vectorSpaceKey index space)) run)
    (steady : (run store).2.Steady (dead (vectorSpaceKey index space))
      (vectorSpaceKey index space)) : Standing vectors index gone dead (run store).2 := by
  have changed := standing.change confined steady
  rwa [Function.update_eq_self] at changed

/-!
## Commands
-/

theorem step_holds {α : Type} {holds : Store → Prop} {session : Session}
    {result : Except String α × Store} {failed : String → String}
    {next : α → Session → Reply × Session} (first : holds result.2)
    (rest : ∀ value, holds (next value { session with store := result.2 }).2.store) :
    holds (session.step result failed next).2.store := by
  unfold Session.step
  dsimp only
  split
  · exact first
  · exact rest _

theorem Standing.validateAdd (standing : Standing vectors index gone dead store) (now : Int64)
    (space id : Bytes) (vec : Vec) :
    (store.validateAdd vectors now (vectorSpaceKey index space) id vec).2 = store := by
  unfold Store.validateAdd
  split
  · rfl
  · rw [validateBatchCapacity_store, (standing.spaces space).getReadOnly_store]

/-- `VADD` gives the rows of other ids no life. -/
theorem Standing.dispatchVadd {env : Surroundings} {session : Session}
    (standing : Standing env.vectors index gone dead session.store) {cmd : Command}
    (first : cmd.arg 0 = index)
    (alive : ∀ space start, parseOptionalSpace cmd 2 = .ok (space, start) →
      cmd.arg 1 ∉ dead (vectorSpaceKey index space)) (moment : Moment) :
    Standing env.vectors index gone dead (dispatchVadd env moment cmd session).2.store := by
  unfold Query.dispatchVadd
  split
  · exact standing
  split
  · exact standing
  split
  · exact standing
  split
  · exact standing
  rename_i space start parsed _ _ vec _
  rw [first]
  have checked := standing.validateAdd moment.now space (cmd.arg 1) vec
  refine step_holds (checked.symm ▸ standing) fun _ => ?_
  rw [checked]
  refine step_holds ?_ fun _ => ?_
  all_goals
    rw [Session.writeWAL_store]
    exact standing.keep ((Store.local_vAdd env.vectors moment.now (Store.covers_keyPlaces _)
      (cmd.arg 1) vec).confined trivial)
      ((standing.spaces space).vAdd (alive space start parsed) env.vectors moment.now vec)

section

variable (standing : Standing vectors index gone dead store)
include standing

theorem Standing.mono {fewer : Set Bytes} {less : Bytes → Set Bytes} (keys : fewer ⊆ gone)
    (ids : ∀ key, less key ⊆ dead key) : Standing vectors index fewer less store where
  placed := standing.placed
  spaces space := (standing.spaces space).mono (ids _)
  absent key member := standing.absent key (keys member)
  apart key member := standing.apart key (keys member)

theorem Standing.atIndex : store.Steady (dead index) index :=
  standing.spaces []

theorem Standing.vDel (now : Int64) (id : Bytes) :
    Standing vectors index gone (Function.update dead index (insert id (dead index)))
      (store.vDel vectors now index id).2 :=
  @Standing.change vectors index gone dead store _ [] _ _ standing
    ((Store.local_vDel vectors now (Store.covers_keyPlaces index) id).confined trivial)
    (standing.atIndex.vDel vectors now id)

theorem Standing.vCompact (now : Int64) :
    Standing vectors index gone dead (store.vCompact vectors now index).2 :=
  @Standing.keep vectors index gone dead store _ [] _ standing
    ((Store.local_vCompact vectors now (Store.covers_keyPlaces index)).confined trivial)
    (standing.atIndex.vCompact vectors now)

end

theorem subset_update (id : Bytes) (key : Bytes) :
    dead key ⊆ Function.update dead index (insert id (dead index)) key := by
  by_cases same : key = index
  · subst same
    rw [Function.update_self]
    exact Set.subset_insert id _
  · rw [Function.update_of_ne same]

/-- What `VDEL` does about an id that is live. -/
def deleteLive (env : Surroundings) (moment : Moment) (key id : Bytes) (session : Session) :
    Reply × Session :=
  let session := session.writeWAL moment recordVTombstone key id 0
  session.step (session.store.vDel env.vectors moment.now key id)
    ("ERR vector tombstone apply failed after WAL append: " ++ ·)
    fun deleted session =>
      let reply : Reply := .integer (if deleted then 1 else 0)
      let (exceeds, store) := session.store.tombstoneRatioExceeds env.vectors moment.now key
      let session := { session with store := store }
      if !exceeds then (reply, session)
      else
        session.step (session.store.vCompact env.vectors moment.now key)
          ("ERR vector compaction failed: " ++ ·) fun _ session => (reply, session)

theorem dispatchVdel_plain (env : Surroundings) (moment : Moment) (name id : Bytes)
    (session : Session) :
    dispatchVdel env moment ⟨name, [some index, some id]⟩ session =
      session.step (session.store.hasLiveVector env.vectors moment.now index id) (fun text => text)
        fun live session =>
          if !live then (.integer 0, session) else deleteLive env moment index id session :=
  rfl

theorem Standing.deleteLive {env : Surroundings} {session : Session}
    (standing : Standing env.vectors index gone dead session.store) (id : Bytes)
    (moment : Moment) :
    Standing env.vectors index gone (Function.update dead index (insert id (dead index)))
      (deleteLive env moment index id session).2.store := by
  have deleted := standing.vDel moment.now id
  have measured := tombstoneRatioExceeds_store env.vectors moment.now index
    (session.store.vDel env.vectors moment.now index id).2
  rw [deleted.atIndex.getReadOnly_store] at measured
  unfold Sdk.deleteLive
  dsimp only
  rw [Session.writeWAL_store]
  refine step_holds deleted fun _ => ?_
  dsimp only
  rw [measured]
  split
  · exact deleted
  · exact step_holds (deleted.vCompact moment.now) fun _ => deleted.vCompact moment.now

/-- `VDEL` leaves the id deleted if it succeeds. -/
theorem Standing.dispatchVdel {env : Surroundings} {session : Session}
    (standing : Standing env.vectors index gone dead session.store) (name id : Bytes)
    (moment : Moment) :
    Standing env.vectors index gone dead
        (dispatchVdel env moment ⟨name, [some index, some id]⟩ session).2.store ∧
      ((dispatchVdel env moment ⟨name, [some index, some id]⟩ session).1.isError = false →
        Standing env.vectors index gone (Function.update dead index (insert id (dead index)))
          (dispatchVdel env moment ⟨name, [some index, some id]⟩ session).2.store) := by
  have same : (session.store.hasLiveVector env.vectors moment.now index id).2 =
      session.store := by
    rw [hasLiveVector_store, standing.atIndex.getReadOnly_store]
  rw [dispatchVdel_plain]
  unfold Session.step
  rw [same]
  dsimp only
  cases found : (session.store.hasLiveVector env.vectors moment.now index id).1 with
  | error message => exact ⟨standing, fun success => by cases success⟩
  | ok live =>
    cases live with
    | false =>
      refine ⟨standing, fun _ => ?_⟩
      have unheld : (session.store.hasLiveVector env.vectors moment.now index id).1 ≠
          .ok true := by simp [found]
      exact @Standing.change env.vectors index gone dead session.store Unit [] _ _ standing
        (.pure ()) (standing.atIndex.hasLiveVector unheld)
    | true =>
      have deleted := standing.deleteLive id moment
      exact ⟨deleted.mono (Set.Subset.refl _) (subset_update id), fun _ => deleted⟩

section

variable {session : Session} {key : Bytes}
  (standing : Standing vectors index gone dead session.store)
include standing

/-- `SET` changes nothing about other keys. -/
theorem Standing.dispatchSet (kept : key ∉ gone) (name val : Bytes) (moment : Moment) :
    Standing vectors index gone dead
      (dispatchSet moment ⟨name, [some key, some val]⟩ session).2.store := by
  have stored : (Query.dispatchSet moment ⟨name, [some key, some val]⟩ session).2.store =
      { session.store with
        kv := session.store.kv.set moment.now key (.bytes (some val)) .string 0 } := by
    simp [Query.dispatchSet, Command.numArgs, Command.argBytes, Command.arg, StringStore.set,
      Session.withKV]
  have confined := (@local_dispatchSet vectors Set.univ moment ⟨name, [some key, some val]⟩
    ⟨trivial, trivial, trivial⟩).confined trivial
  have placed : Store.Placed vectors _ := confined.keeps session standing.placed
  rw [stored] at placed ⊢
  have others {other : Bytes} (different : other ≠ key) :
      (session.store.kv.set moment.now key (.bytes (some val)) .string 0).seen other =
        session.store.kv.seen other := by
    simp [KVStore.seen, KVStore.set, AList.lookup_insert_ne different]
  refine ⟨placed, fun space => ?_, fun other member => ?_, standing.apart⟩
  · by_cases same : vectorSpaceKey index space = key
    · rw [same]
      unfold Store.Steady
      have text : (session.store.kv.set moment.now key (.bytes (some val)) .string 0).seen key =
          some ⟨.bytes (some val), .string, 0, 0⟩ := by
        simp [KVStore.seen, KVStore.set, Entry.unversioned]
      rw [text]
      exact .text rfl rfl
    · have steady := standing.spaces space
      unfold Store.Steady at steady ⊢
      rwa [others same]
  · have different : other ≠ key := fun same => kept (same ▸ member)
    rw [others different]
    exact standing.absent other member

/-- `DEL` of a key that holds no index of the memory. -/
theorem Standing.dispatchDel (apart : ∀ space, key ≠ vectorSpaceKey index space) (name : Bytes)
    (moment : Moment) :
    Standing vectors index (insert key gone) dead
      (dispatchDel moment ⟨name, [some key]⟩ session).2.store := by
  have stored : (Query.dispatchDel moment ⟨name, [some key]⟩ session).2.store =
      (session.store.delete moment.now [key]).2 := by
    simp only [Query.dispatchDel, Command.numArgs, Command.keys, List.map_cons, List.map_nil,
      List.foldl_cons, List.foldl_nil, Option.getD_some, List.length_cons, List.length_nil]
    split
    · omega
    split
    · exact Session.writeWAL_store ..
    · rfl
  rw [stored]
  have covers : ∀ other ∈ [key], Store.Covers (Store.keyPlaces key) other := by
    intro other member
    rw [List.mem_singleton.mp member]
    exact Store.covers_keyPlaces key
  have confined := Store.confined_delete vectors moment.now covers
  refine ⟨confined.keeps _ standing.placed, fun space => ?_, ?_, ?_⟩
  · exact steady_frame confined standing.placed (apart space).symm (standing.spaces space)
  · intro other member
    rw [KVStore.seen, Store.delete_lookup]
    split
    · rfl
    rename_i different
    have before := standing.absent other
      (member.resolve_left fun same => different (by simp [same]))
    rwa [KVStore.seen] at before
  · rintro other (rfl | member)
    · exact apart
    · exact standing.apart other member

end

/-!
## Searches
-/

section Searches

variable {env : Surroundings} {session : Session} {cmd : Command} {ids : Set Bytes}

section

variable (standing : Standing env.vectors index gone dead store)
include standing

theorem Standing.vSearchOpts (now : Int64) (space : Bytes) (dim : Nat) :
    (vSearchOpts env now (vectorSpaceKey index space) dim store).2 = store := by
  rw [vSearchOpts_store, (standing.spaces space).getReadOnly_store]

theorem Standing.getVector (now : Int64) (space id : Bytes) :
    (getVector env now (vectorSpaceKey index space) id store).2 = store := by
  rw [getVector_store, (standing.spaces space).getReadOnly_store]

theorem Standing.fuseSearch (now : Int64) (queries : List (Bytes × Vec)) :
    (fuseSearch env now index queries store).2 = store := by
  induction queries with
  | nil => rfl
  | cons query queries ih =>
    have looked := standing.vSearchOpts now query.1 query.2.length
    rw [Query.fuseSearch]
    generalize Query.vSearchOpts env now (vectorSpaceKey index query.1) query.2.length store =
      result at looked
    obtain ⟨_ | _, after⟩ := result
    · exact looked
    · cases looked
      exact ih

end

/-- The tenant stays as it is, and a reply with hits has none of the ids. -/
def Spares (ids : Set Bytes) (session : Session) (ran : Reply × Session) : Prop :=
  ran.2.store = session.store ∧ ∀ items, ran.1 = .array items → Alive ids items

theorem spares_error (message : String) : Spares ids session (.error message, session) :=
  ⟨rfl, fun _ same => by cases same⟩

theorem spares_step {α : Type} {result : Except String α × Store}
    {next : α → Session → Reply × Session} (same : result.2 = session.store)
    (rest : ∀ value, Spares ids session (next value session)) :
    Spares ids session (session.step result id next) := by
  unfold Session.step
  rw [same]
  cases result.1 with
  | error message => exact spares_error message
  | ok value => exact rest value

theorem spares_array {items : List Reply} (alive : Alive ids items) :
    Spares ids session (.array items, session) :=
  ⟨rfl, fun _ same => by cases same; exact alive⟩

theorem Standing.dispatchVsearch (standing : Standing env.vectors index gone dead session.store)
    (first : cmd.arg 0 = index) (hits : Alive ids (env.hits .vsearch cmd session.store))
    (present : ∀ stop flags, stripVectorFlags env.parseFloat true false cmd cmd.numArgs
      ⟨[], [], 0⟩ = .ok (stop, flags) → 3 ≤ stop → flags.asOf = 0) (moment : Moment) :
    Spares ids session (dispatchVsearch env moment cmd session) := by
  unfold Query.dispatchVsearch
  split
  · exact spares_error _
  split
  · exact spares_error _
  rename_i stop flags stripped
  split
  · exact spares_error _
  split
  · exact spares_error _
  split
  · exact spares_error _
  split
  · exact spares_error _
  · rw [present stop flags stripped (by omega), if_neg (by decide), first]
    exact spares_step (standing.vSearchOpts ..) fun _ => spares_array hits

theorem Standing.dispatchVsim (standing : Standing env.vectors index gone dead session.store)
    (first : cmd.arg 0 = index) (hits : Alive ids (env.hits .vsim cmd session.store))
    (moment : Moment) : Spares ids session (dispatchVsim env moment cmd session) := by
  unfold Query.dispatchVsim
  split
  · exact spares_error _
  split
  · exact spares_error _
  split
  · exact spares_error _
  split
  · exact spares_error _
  rw [first]
  exact spares_step (standing.getVector ..) fun _ =>
    spares_step (standing.vSearchOpts ..) fun _ => spares_array hits

theorem Standing.dispatchVfuse (standing : Standing env.vectors index gone dead session.store)
    (first : cmd.arg 0 = index) (hits : Alive ids (env.hits .vfuse cmd session.store))
    (moment : Moment) : Spares ids session (dispatchVfuse env moment cmd session) := by
  unfold Query.dispatchVfuse
  split
  · exact spares_error _
  split
  · exact spares_error _
  split
  · exact spares_error _
  split
  · exact spares_error _
  split
  · exact spares_array alive_nil
  · rw [first]
    exact spares_step (standing.fuseSearch ..) fun _ => spares_array hits

end Searches

end Standing

/-!
## No search of the past
-/

/-- An instant is asked for only by a keyword behind the arguments that are left. -/
theorem stripVectorFlags_asOf {parseFloat : Bytes → Option UInt32} {spaces weights : Bool}
    {cmd : Command} {stop left : Nat} {flags found : VectorFlags}
    (stripped : stripVectorFlags parseFloat spaces weights cmd stop flags = .ok (left, found)) :
    left ≤ stop ∧ (found.asOf = flags.asOf ∨
      ∃ place, left ≤ place ∧ place + 2 ≤ stop ∧ toUpper (cmd.arg place) = ascii "AS_OF") := by
  induction stop using Nat.twoStepInduction generalizing flags with
  | zero =>
    cases stripped
    exact ⟨Nat.le_refl _, .inl rfl⟩
  | one =>
    cases stripped
    exact ⟨Nat.le_refl _, .inl rfl⟩
  | more stop ih _ =>
    have later {flags' : VectorFlags}
        (next : stripVectorFlags parseFloat spaces weights cmd stop flags' = .ok (left, found))
        (same : flags'.asOf = flags.asOf) :
        left ≤ stop + 2 ∧ (found.asOf = flags.asOf ∨
          ∃ place, left ≤ place ∧ place + 2 ≤ stop + 2 ∧
            toUpper (cmd.arg place) = ascii "AS_OF") := by
      obtain ⟨less, kept | ⟨place, above, below, keyword⟩⟩ := ih next
      · exact ⟨by omega, .inl (kept.trans same)⟩
      · exact ⟨by omega, .inr ⟨place, above, by omega, keyword⟩⟩
    unfold stripVectorFlags at stripped
    dsimp only at stripped
    split at stripped
    · exact later stripped rfl
    split at stripped
    · split at stripped
      · cases stripped
      · exact later stripped rfl
    split at stripped
    · split at stripped
      · cases stripped
      · exact later stripped rfl
    split at stripped
    · split at stripped
      · cases stripped
      split at stripped
      · cases stripped
      · exact later stripped rfl
    split at stripped
    · split at stripped
      · cases stripped
      split at stripped
      · cases stripped
      · exact later stripped rfl
    split at stripped
    · rename_i keyword
      split at stripped
      · cases stripped
      split at stripped
      · cases stripped
      · obtain ⟨less, -⟩ := ih stripped
        exact ⟨by omega, .inr ⟨stop, less, Nat.le_refl _, keyword⟩⟩
    · cases stripped
      exact ⟨Nat.le_refl _, .inl rfl⟩

theorem upper_numberByte {byte : UInt8} (plain : isNumberByte byte = true) :
    (if 0x61 ≤ byte ∧ byte ≤ 0x7a then byte - 0x20 else byte) ≠ 0x53 := by
  intro same
  split at same
  · have lower : byte = 0x73 := by
      rw [← UInt8.sub_add_cancel byte 0x20, same]
      rfl
    rw [lower] at plain
    exact absurd plain (by decide)
  · rw [same] at plain
    exact absurd plain (by decide)

theorem upper_number {text : Bytes} (plain : text.all isNumberByte = true) :
    (0x53 : UInt8) ∉ toUpper text := by
  induction text using toUpper.induct with
  | case1 => simp [toUpper]
  | case2 rest ih =>
    rw [List.all_cons, Bool.and_eq_true] at plain
    exact absurd plain.1 (by decide)
  | case3 rest ih =>
    rw [List.all_cons, Bool.and_eq_true] at plain
    exact absurd plain.1 (by decide)
  | case4 byte rest long dotless ih =>
    rw [List.all_cons, Bool.and_eq_true] at plain
    rw [toUpper, List.mem_cons, not_or]
    · exact ⟨(upper_numberByte plain.1).symm, ih plain.2⟩
    · exact long
    · exact dotless

theorem number_not_asOf {text : Bytes} (plain : text.all isNumberByte = true) :
    toUpper text ≠ ascii "AS_OF" := by
  intro same
  have none := upper_number plain
  rw [same] at none
  exact none (by decide)

/-- The arguments of `recall`, but for the name of the index and the last one. -/
theorem recall_plain (vector : List Number) (topK : Number) (minScore : Option Number)
    (space : Option Bytes) {text : Bytes}
    (member : text ∈ (vector.map Number.text ++ topK.text ::
      DBXClient.vectorFlags minScore none space none none).dropLast) :
    toUpper text ≠ ascii "AS_OF" := by
  rw [List.dropLast_append_of_ne_nil (List.cons_ne_nil _ _), List.mem_append] at member
  rcases member with listed | flag
  · obtain ⟨number, -, rfl⟩ := List.mem_map.mp listed
    exact number_not_asOf number.plain
  have sorted : text = topK.text ∨ text = ascii "MIN_SCORE" ∨ text = ascii "SPACE" ∨
      ∃ score, minScore = some score ∧ text = score.text := by
    rcases minScore with _ | score <;> rcases space with _ | _ | ⟨byte, bytes⟩ <;>
      simp [DBXClient.vectorFlags, DBXClient.option, DBXClient.number] at flag ⊢ <;> grind
  rcases sorted with rfl | rfl | rfl | ⟨score, -, rfl⟩
  · exact number_not_asOf topK.plain
  · decide
  · decide
  · exact number_not_asOf score.plain

theorem arg_map_some (name : Bytes) (args : List Bytes) (position : Nat) :
    Command.arg position ⟨name, args.map some⟩ = args[position]?.getD [] := by
  simp only [Command.arg, List.getElem?_map]
  cases args[position]? <;> rfl

theorem asOf_absent {parseFloat : Bytes → Option UInt32} {name index : Bytes} {rest : List Bytes}
    (plain : ∀ text ∈ rest.dropLast, toUpper text ≠ ascii "AS_OF") {stop : Nat}
    {flags : VectorFlags}
    (stripped : stripVectorFlags parseFloat true false ⟨name, (index :: rest).map some⟩
      (Command.numArgs ⟨name, (index :: rest).map some⟩) ⟨[], [], 0⟩ = .ok (stop, flags))
    (left : 3 ≤ stop) : flags.asOf = 0 := by
  obtain ⟨-, unchanged | ⟨place, above, below, keyword⟩⟩ := stripVectorFlags_asOf stripped
  · exact unchanged
  obtain ⟨place, rfl⟩ : ∃ before, place = before + 1 := ⟨place - 1, by omega⟩
  simp only [Command.numArgs, List.length_map, List.length_cons] at below
  rw [arg_map_some, List.getElem?_cons_succ, List.getElem?_eq_getElem (by omega),
    Option.getD_some] at keyword
  refine absurd keyword (plain _ ?_)
  rw [List.dropLast_eq_take]
  exact List.mem_take_iff_getElem.mpr ⟨place, by omega, rfl⟩

/-!
## Calls
-/

section Calls

theorem executeCommand_triple (client : DBXClient) {name : String} {args : List Bytes}
    {cmd : CommandName} {before raises : Store → Prop} {returns : Reply → Store → Prop}
    (known : lookup (toUpper (ascii name)) = some cmd)
    (stays : ∀ store, before store → raises store)
    (leaves : ∀ now store, before store →
      raises (dispatched (client.executorAt now) now cmd ⟨ascii name, args.map some⟩ store).2.store)
    (returning : ∀ now store, before store →
      (dispatched (client.executorAt now) now cmd ⟨ascii name, args.map some⟩ store).1.isError =
        false →
      returns (dispatched (client.executorAt now) now cmd ⟨ascii name, args.map some⟩ store).1
        (dispatched (client.executorAt now) now cmd ⟨ascii name, args.map some⟩ store).2.store) :
    Triple (fun server => before server.executor.store) (client.executeCommand name args)
      (fun reply server => returns reply server.executor.store)
      fun server => raises server.executor.store := by
  intro server start
  generalize at' : client.clock server.served = now
  have stored : (execute (client.executorAt now) now ⟨ascii name, args.map some⟩
      server.executor).executor.store = _ := execute_store known
  have followed := @execute_follows (client.executorAt now) now ⟨ascii name, args.map some⟩
    server.executor cmd known
  unfold DBXClient.executeCommand
  rw [at']
  dsimp only
  generalize execute (client.executorAt now) now ⟨ascii name, args.map some⟩ server.executor =
    outcome at stored followed
  cases failed : outcome.reply.isError with
  | true =>
    cases replied : outcome.reply with
    | error message =>
      refine ⟨fun value same => (by cases same), fun error _ => ?_⟩
      dsimp only
      rw [stored]
      split
      · exact leaves now _ start
      · exact stays _ start
    | _ => rw [replied] at failed; cases failed
  | false =>
    have follows := followed failed
    have success := returning now server.executor.store start
    rw [← follows.reply, ← follows.store] at success
    cases replied : outcome.reply with
    | error message => rw [replied] at failed; cases failed
    | _ =>
      refine ⟨fun value same => ?_, fun error same => (by cases same)⟩
      rw [replied] at success
      cases same
      exact success rfl

def Lacks (memory : TenantMemory) (gone : Set Bytes) (dead : Bytes → Set Bytes)
    (server : Server) : Prop :=
  Standing memory.client.config.vectors memory.index gone dead server.executor.store

variable {memory : TenantMemory} {gone : Set Bytes} {dead : Bytes → Set Bytes}

theorem keeping_triple {name : String} {args : List Bytes} {cmd : CommandName}
    (known : lookup (toUpper (ascii name)) = some cmd)
    (keeps : ∀ now store, Standing memory.client.config.vectors memory.index gone dead store →
      Standing memory.client.config.vectors memory.index gone dead
        (dispatched (memory.client.executorAt now) now cmd ⟨ascii name, args.map some⟩
          store).2.store) :
    Triple (Lacks memory gone dead) (memory.client.executeCommand name args)
      (fun _ => Lacks memory gone dead) (Lacks memory gone dead) :=
  executeCommand_triple memory.client known (fun _ standing => standing) keeps
    fun now store standing _ => keeps now store standing

theorem set_triple {key : Bytes} (kept : key ∉ gone) (val : Bytes) :
    Triple (Lacks memory gone dead) (memory.client.set key val) (fun _ => Lacks memory gone dead)
      (Lacks memory gone dead) :=
  .map (keeping_triple (by decide : lookup (toUpper (ascii "SET")) = some .set)
    fun _ _ standing => standing.dispatchSet kept _ _ _)

def vaddCommand (memory : TenantMemory) (key : Bytes) (vector : List Number)
    (space : Option Bytes) : Command :=
  ⟨ascii "VADD", (memory.index :: key ::
    (DBXClient.option "SPACE" space ++ vector.map Number.text)).map some⟩

theorem vadd_triple {key : Bytes} {vector : List Number} {space : Option Bytes}
    (alive : ∀ named start,
      parseOptionalSpace (vaddCommand memory key vector space) 2 = .ok (named, start) →
        key ∉ dead (vectorSpaceKey memory.index named)) :
    Triple (Lacks memory gone dead) (memory.client.vadd memory.index key vector space)
      (fun _ => Lacks memory gone dead) (Lacks memory gone dead) := by
  refine .map (keeping_triple (by decide : lookup (toUpper (ascii "VADD")) = some .vadd)
    fun now store standing => ?_)
  exact @Standing.dispatchVadd _ _ _ (memory.client.executorAt now).toSurroundings
    (prepared _ store) standing _ rfl alive _

theorem get_triple (key : Bytes) :
    Triple (Lacks memory gone dead) (memory.client.get key) (fun _ => Lacks memory gone dead)
      (Lacks memory gone dead) :=
  .map (keeping_triple (by decide : lookup (toUpper (ascii "GET")) = some .get)
    fun _ _ standing => standing)

theorem get_gone {key : Bytes} (member : key ∈ gone) {server : Server}
    (lacks : Lacks memory gone dead server) : (memory.client.get key server).1 = .ok none := by
  generalize at' : memory.client.clock server.served = now
  have lookedUp : StringStore.get now key server.executor.store.kv = .ok none := by
    have absent := lacks.absent key member
    rw [KVStore.seen, Option.map_eq_none_iff] at absent
    simp [StringStore.get, KVStore.get, absent]
  have known : lookup (Command.normalized ⟨ascii "GET", [some key]⟩) = some .get := by
    change lookup (toUpper (ascii "GET")) = some .get
    decide
  -- Reads are always admitted, and no vote of other nodes is needed for them.
  have settled := @execute_cases (memory.client.executorAt now) now ⟨ascii "GET", [some key]⟩
    server.executor .get known
  have admits : admitted (memory.client.executorAt now) now .get ⟨ascii "GET", [some key]⟩
      server.executor = true := by
    simp [admitted, effectsBefore, prepareDurableEffects, supportedInDurableV1,
      CommandName.readOnly]
  rw [if_pos admits, raftSettles, if_pos (by decide)] at settled
  have replied : (execute (memory.client.executorAt now) now ⟨ascii "GET", [some key]⟩
      server.executor).reply = .bulk none := by
    rw [settled.reply]
    change replyOf (StringStore.get now key server.executor.store.kv) Reply.bulk = Reply.bulk none
    rw [lookedUp]
    rfl
  have ran : memory.client.executeCommand "GET" [key] server = (.ok (.bulk none),
      ⟨(execute (memory.client.executorAt now) now ⟨ascii "GET", [some key]⟩
        server.executor).executor, server.served + 1⟩) := by
    simp only [DBXClient.executeCommand, at', List.map_cons, List.map_nil, replied]
  unfold DBXClient.get
  rw [Call.bind_ok ran]
  rfl

theorem delete_triple {key : Bytes} (apart : ∀ space, key ≠ vectorSpaceKey memory.index space) :
    Triple (Lacks memory gone dead) (memory.client.delete key)
      (fun _ => Lacks memory (insert key gone) dead) (Lacks memory gone dead) := by
  refine .map (executeCommand_triple memory.client
    (by decide : lookup (toUpper (ascii "DEL")) = some .del) (fun _ standing => standing)
    (fun now store standing => ?_) fun now store standing _ => ?_)
  · exact (standing.dispatchDel apart _ _).mono (Set.subset_insert key gone) fun _ =>
      Set.Subset.refl _
  · exact standing.dispatchDel apart _ _

theorem vdel_triple (key : Bytes) :
    Triple (Lacks memory gone dead) (memory.client.vdel memory.index key none)
      (fun _ => Lacks memory gone
        (Function.update dead memory.index (insert key (dead memory.index))))
      (Lacks memory gone dead) := by
  refine .map (executeCommand_triple memory.client
    (by decide : lookup (toUpper (ascii "VDEL")) = some .vdel) (fun _ standing => standing)
    (fun now store standing => ?_) fun now store standing success => ?_)
  · exact (@Standing.dispatchVdel _ _ _ (memory.client.executorAt now).toSurroundings
      (prepared _ store) standing _ key _).1
  · exact (@Standing.dispatchVdel _ _ _ (memory.client.executorAt now).toSurroundings
      (prepared _ store) standing _ key _).2 success

theorem search_triple {name : String} {args : List Bytes} {cmd : CommandName}
    (known : lookup (toUpper (ascii name)) = some cmd) {ids : Set Bytes}
    (spares : ∀ now store, Standing memory.client.config.vectors memory.index gone dead store →
      Spares ids (prepared (effectsBefore now cmd ⟨ascii name, args.map some⟩ store.kv) store)
        (dispatched (memory.client.executorAt now) now cmd ⟨ascii name, args.map some⟩ store)) :
    Triple (Lacks memory gone dead)
      (do return DBXClient.parseVectorHits (← memory.client.executeCommand name args))
      (fun hits server => Lacks memory gone dead server ∧ ∀ hit ∈ hits, hit.1 ∉ ids)
      (Lacks memory gone dead) := by
  have keeps (now : Int64) (store : Store)
      (standing : Standing memory.client.config.vectors memory.index gone dead store) :
      Standing memory.client.config.vectors memory.index gone dead
        (dispatched (memory.client.executorAt now) now cmd ⟨ascii name, args.map some⟩
          store).2.store := by
    rw [(spares now store standing).1]
    exact standing
  let returns (reply : Reply) (store : Store) : Prop :=
    Standing memory.client.config.vectors memory.index gone dead store ∧
      ∀ hit ∈ DBXClient.parseVectorHits reply, hit.1 ∉ ids
  refine .map (@executeCommand_triple memory.client name args cmd _ _ returns known
    (fun _ standing => standing) keeps
    fun now store standing _ => ⟨keeps now store standing, fun hit member => ?_⟩)
  unfold DBXClient.parseVectorHits at member
  split at member
  · rename_i items replied
    obtain ⟨item, listed, found⟩ := List.mem_filterMap.mp member
    obtain ⟨id, rest, rfl, alive⟩ := (spares now store standing).2 items replied item listed
    split at found
    · rename_i same
      cases same
      cases found
      exact alive
    · cases found
  · cases member

theorem hits_alive {ids : Set Bytes} {store : Store}
    (standing : Standing memory.client.config.vectors memory.index gone (fun _ => ids) store)
    (now : Int64) (name : CommandName) {cmd : Command} (first : cmd.arg 0 = memory.index) :
    Alive ids ((memory.client.executorAt now).hits name cmd store) :=
  searchHits_alive fun space => first ▸ standing.spaces space

variable {ids : Set Bytes}

theorem readItems_triple (hits : List (Bytes × Bytes)) :
    Triple (Lacks memory gone dead) (memory.readItems hits)
      (fun items server => Lacks memory gone dead server ∧
        items.map Prod.fst = hits.map Prod.fst) (Lacks memory gone dead) := by
  induction hits with
  | nil => exact .pure fun _ lacks => ⟨lacks, rfl⟩
  | cons hit hits ih =>
    refine (get_triple hit.1).bind fun stored => ih.bind fun items => .pure ?_
    intro server listed
    exact ⟨listed.1, congrArg (hit.1 :: ·) listed.2⟩

theorem items_triple {search : Call (List (Bytes × Bytes))}
    (searched : Triple (Lacks memory gone (fun _ => ids)) search
      (fun hits server => Lacks memory gone (fun _ => ids) server ∧ ∀ hit ∈ hits, hit.1 ∉ ids)
      (Lacks memory gone (fun _ => ids))) :
    Triple (Lacks memory gone (fun _ => ids)) (do memory.readItems (← search))
      (fun items server => Lacks memory gone (fun _ => ids) server ∧
        ∀ item ∈ items, item.1 ∉ ids) (Lacks memory gone (fun _ => ids)) := by
  refine searched.bind fun hits server start => ?_
  obtain ⟨returned, raised⟩ := readItems_triple hits server start.1
  refine ⟨fun items same => ⟨(returned items same).1, fun item member => ?_⟩, raised⟩
  have named : item.1 ∈ hits.map Prod.fst :=
    (returned items same).2 ▸ List.mem_map_of_mem member
  obtain ⟨hit, listed, equal⟩ := List.mem_map.mp named
  exact equal ▸ start.2 hit listed

theorem recall_triple (vector : List Number) (topK : Number) (minScore : Option Number)
    (space : Option Bytes) :
    Triple (Lacks memory gone (fun _ => ids)) (memory.recall vector topK minScore space)
      (fun items server => Lacks memory gone (fun _ => ids) server ∧
        ∀ item ∈ items, item.1 ∉ ids) (Lacks memory gone (fun _ => ids)) := by
  refine items_triple (search_triple
    (by decide : lookup (toUpper (ascii "VSEARCH")) = some .vsearch) fun now store standing => ?_)
  exact @Standing.dispatchVsearch _ _ _ (memory.client.executorAt now).toSurroundings
    (prepared _ store) _ ids standing rfl (hits_alive standing now .vsearch rfl)
    (fun stop flags => asOf_absent fun text => recall_plain vector topK minScore space) _

theorem similar_triple (itemID : Bytes) (topK : Number) (minScore : Option Number)
    (space : Option Bytes) :
    Triple (Lacks memory gone (fun _ => ids)) (memory.similar itemID topK minScore space)
      (fun items server => Lacks memory gone (fun _ => ids) server ∧
        ∀ item ∈ items, item.1 ∉ ids) (Lacks memory gone (fun _ => ids)) := by
  refine items_triple (search_triple
    (by decide : lookup (toUpper (ascii "VSIM")) = some .vsim) fun now store standing => ?_)
  exact @Standing.dispatchVsim _ _ _ (memory.client.executorAt now).toSurroundings
    (prepared _ store) _ ids standing rfl (hits_alive standing now .vsim rfl) _

theorem fuse_triple (queries : List (Bytes × List Number)) (topK : Number)
    (weights : Option (List Number)) (minScore : Option Number) :
    Triple (Lacks memory gone (fun _ => ids)) (memory.fuse queries topK weights minScore)
      (fun items server => Lacks memory gone (fun _ => ids) server ∧
        ∀ item ∈ items, item.1 ∉ ids) (Lacks memory gone (fun _ => ids)) := by
  refine items_triple ?_
  unfold DBXClient.vfuse
  split
  · exact .raise fun _ lacks => lacks
  refine search_triple
    (by decide : lookup (toUpper (ascii "VFUSE")) = some .vfuse) fun now store standing => ?_
  exact @Standing.dispatchVfuse _ _ _ (memory.client.executorAt now).toSurroundings
    (prepared _ store) _ ids standing rfl (hits_alive standing now .vfuse rfl) _

theorem remember_triple {key : Bytes} (kept : key ∉ gone) (value : Bytes)
    {vector : Option (List Number)} {space : Option Bytes}
    (alive : ∀ numbers, vector = some numbers → ∀ named start,
      parseOptionalSpace (vaddCommand memory key numbers space) 2 = .ok (named, start) →
        key ∉ dead (vectorSpaceKey memory.index named)) :
    Triple (Lacks memory gone dead) (memory.remember key value vector space)
      (fun _ => Lacks memory gone dead) (Lacks memory gone dead) := by
  refine (set_triple kept value).bind fun stored => ?_
  split
  · exact .raise fun _ lacks => lacks
  split
  · exact .pure fun _ lacks => lacks
  rename_i numbers
  refine (vadd_triple (alive numbers rfl)).bind fun added => ?_
  split
  · exact .raise fun _ lacks => lacks
  · exact .pure fun _ lacks => lacks

/-- The ids that are deleted while a key is being forgotten, in which it is in all but the
default space. -/
def forgetting (memory : TenantMemory) (key : Bytes) (ids : Set Bytes) : Bytes → Set Bytes :=
  Function.update (fun _ => insert key ids) memory.index ids

theorem subset_forgetting (memory : TenantMemory) (key : Bytes) (ids : Set Bytes) (place : Bytes) :
    ids ⊆ forgetting memory key ids place := by
  unfold forgetting
  by_cases same : place = memory.index
  · rw [same, Function.update_self]
  · rw [Function.update_of_ne same]
    exact Set.subset_insert key ids

theorem forget_triple {key : Bytes} (apart : ∀ space, key ≠ vectorSpaceKey memory.index space) :
    Triple (Lacks memory ids (forgetting memory key ids)) (memory.forget key)
      (fun _ => Lacks memory (insert key ids) (fun _ => insert key ids))
      (Lacks memory ids (fun _ => ids)) := by
  have raised (server : Server) {more : Set Bytes} (wider : ids ⊆ more)
      (lacks : Lacks memory more (forgetting memory key ids) server) :
      Lacks memory ids (fun _ => ids) server :=
    Standing.mono lacks wider (subset_forgetting memory key ids)
  have whole : Function.update (forgetting memory key ids) memory.index
      (insert key (forgetting memory key ids memory.index)) = fun _ => insert key ids := by
    unfold forgetting
    rw [Function.update_self, Function.update_idem, Function.update_eq_self_iff]
  have deleted := (@delete_triple memory ids (forgetting memory key ids) key apart).weaken
    (fun _ lacks => lacks) (fun _ _ lacks => lacks)
    fun server => raised server (Set.Subset.refl ids)
  have cleared := (@vdel_triple memory (insert key ids) (forgetting memory key ids) key).weaken
    (fun _ lacks => lacks) (fun _ _ lacks => lacks)
    fun server => raised server (Set.subset_insert key ids)
  rw [whole] at cleared
  exact deleted.bind fun _ => cleared.bind fun _ => .pure fun _ lacks => lacks

end Calls

/-!
## Runs
-/

/-- The keys that have been forgotten and not remembered since. -/
def MemoryRun.lost (run : MemoryRun) : Set Bytes := {key | key ∈ run.forgotten}

def MemoryRun.Sound (memory : TenantMemory) (run : MemoryRun) : Prop :=
  Lacks memory run.lost (fun _ => run.lost) run.server

theorem empty_standing (vectors : VectorConfig) (index : Bytes) (dead : Bytes → Set Bytes) :
    Standing vectors index ∅ dead .empty where
  placed _ _ _ held := by cases held
  spaces _ := .fresh rfl
  absent _ member := absurd member (Set.notMem_empty _)
  apart _ member := absurd member (Set.notMem_empty _)

theorem MemoryRun.sound_start (memory : TenantMemory) : MemoryRun.start.Sound memory := by
  have nothing : MemoryRun.start.lost = ∅ := Set.eq_empty_of_forall_notMem fun _ => List.not_mem_nil
  unfold Sound
  rw [nothing]
  exact empty_standing _ _ _

theorem Lacks.forgettable {memory : TenantMemory} {run : MemoryRun} (sound : run.Sound memory)
    {key : Bytes} (allowed : run.Forgettable memory (.forget key)) :
    Lacks memory run.lost (forgetting memory key run.lost) run.server where
  placed := sound.placed
  spaces space := by
    have steady := sound.spaces space
    by_cases same : vectorSpaceKey memory.index space = memory.index
    · rw [same] at steady ⊢
      rw [forgetting, Function.update_self]
      exact steady
    · rw [forgetting, Function.update_of_ne same]
      have named : space ≠ [] := fun empty => same (by rw [empty]; rfl)
      exact steady.hasLiveVector (allowed.2 space named)
  absent := sound.absent
  apart := sound.apart

theorem MemoryRun.step_sound {memory : TenantMemory} {run after : MemoryRun} {call : MemoryCall}
    (sound : run.Sound memory) (allowed : run.Forgettable memory call)
    (stepped : run.step memory call = .ok after) : after.Sound memory := by
  cases call with
  | remember key value vector space =>
    cases stepped
    have fewer : Lacks memory {other | other ∈ run.forgotten.filter (· ≠ key)}
        (fun _ => {other | other ∈ run.forgotten.filter (· ≠ key)}) run.server :=
      Standing.mono sound (fun _ member => (List.mem_filter.mp member).1)
        fun _ _ member => (List.mem_filter.mp member).1
    have kept : key ∉ {other | other ∈ run.forgotten.filter (· ≠ key)} := by simp
    exact (remember_triple kept value fun _ _ _ _ _ => kept).after fewer (fun _ _ lacks => lacks)
      fun _ lacks => lacks
  | forget key =>
    obtain ⟨returned, raised⟩ :=
      forget_triple allowed.1 run.server (Lacks.forgettable sound allowed)
    unfold MemoryRun.step at stepped
    dsimp only at stepped
    rcases ran : memory.forget key run.server with ⟨message | _, server⟩
    · rw [ran] at raised stepped
      cases stepped
      exact raised message rfl
    · rw [ran] at returned stepped
      cases stepped
      have more : MemoryRun.lost ⟨server, key :: run.forgotten⟩ = insert key run.lost := by
        ext other
        exact List.mem_cons
      unfold Sound
      rw [more]
      exact returned () rfl
  | get key =>
    cases stepped
    exact (get_triple key).after sound (fun _ _ lacks => lacks) fun _ lacks => lacks
  | «recall» vector topK minScore space =>
    cases stepped
    exact (recall_triple vector topK minScore space).after sound (fun _ _ lacks => lacks.1)
      fun _ lacks => lacks
  | similar itemID topK minScore space =>
    cases stepped
    exact (similar_triple itemID topK minScore space).after sound (fun _ _ lacks => lacks.1)
      fun _ lacks => lacks
  | fuse queries topK weights minScore =>
    cases stepped
    exact (fuse_triple queries topK weights minScore).after sound (fun _ _ lacks => lacks.1)
      fun _ lacks => lacks

theorem Lacks.forgotten {memory : TenantMemory} {ids : Set Bytes} {key : Bytes} {server : Server}
    (lacks : Lacks memory ids (fun _ => ids) server) (member : key ∈ ids) :
    Forgotten memory key server where
  get := get_gone member lacks
  «recall» vector topK minScore space items same item listed equal :=
    ((recall_triple vector topK minScore space server lacks).1 items same).2 item listed
      (equal ▸ member)
  similar itemID topK minScore space items same item listed equal :=
    ((similar_triple itemID topK minScore space server lacks).1 items same).2 item listed
      (equal ▸ member)
  fuse queries topK weights minScore items same item listed equal :=
    ((fuse_triple queries topK weights minScore server lacks).1 items same).2 item listed
      (equal ▸ member)

/-- Nothing of a key is left from when it is forgotten until it is remembered again. -/
theorem MemoryRun.reaches_forgotten {memory : TenantMemory} {run : MemoryRun}
    (reached : Reaches (MemoryRun.step memory) (MemoryRun.Forgettable memory) .start run)
    {key : Bytes} (member : key ∈ run.forgotten) : Forgotten memory key run.server := by
  have sound : run.Sound memory :=
    reached.invariant (sound_start memory) fun _ _ _ => step_sound
  exact sound.forgotten member

/-!
## A memory of one number
-/

def one : Number := ⟨ascii "1", by decide⟩

def smallMemory : TenantMemory where
  client :=
    { config := { keysOnly with
        parseFloat := fun text => if text = ascii "1" then some 0x3f800000 else none }
      graphs := oneNode
      others := nothingRanked
      history := fun _ => []
      clock := fun _ => 0 }
  index := ascii "memory"

/-- The run after some calls has forgotten a key, and `recall` in a space still returns it. -/
def recalledIn (space : Option Bytes) (key : Bytes) (run : MemoryRun) : Bool :=
  key ∈ run.forgotten &&
    match (smallMemory.recall [one] one none space run.server).1 with
    | .error _ => false
    | .ok items => items.any fun item => item.1 = key

def rememberAndForget (space : Option Bytes) : List MemoryCall :=
  [.remember (ascii "a") (ascii "v") (some [one]) space, .forget (ascii "a")]

/-- `remember("a", "v", [1], space="s")` and `forget("a")`: `recall([1], 1, space="s")` finds
`a`. -/
theorem named_space_remembers :
    ∃ run, Runs.run (MemoryRun.step smallMemory) (fun _ _ => true) .start
        (rememberAndForget (some (ascii "s"))) = some run ∧
      ascii "a" ∈ run.forgotten ∧ ¬ Forgotten smallMemory (ascii "a") run.server := by
  have found : ((Runs.run (MemoryRun.step smallMemory) (fun _ _ => true) .start
      (rememberAndForget (some (ascii "s")))).any
        (recalledIn (some (ascii "s")) (ascii "a"))) = true := by
    decide +kernel
  rcases ran : Runs.run (MemoryRun.step smallMemory) (fun _ _ => true) MemoryRun.start
    (rememberAndForget (some (ascii "s"))) with _ | run
  · rw [ran] at found
    cases found
  rw [ran, Option.any_some, recalledIn, Bool.and_eq_true, decide_eq_true_eq] at found
  obtain ⟨member, recalled⟩ := found
  refine ⟨run, rfl, member, fun forgotten => ?_⟩
  split at recalled
  · cases recalled
  rename_i items returned
  obtain ⟨item, listed, named⟩ := List.any_eq_true.mp recalled
  exact forgotten.recall _ _ _ _ items returned item listed (of_decide_eq_true named)

theorem remembered_lacks :
    Lacks smallMemory ∅ (Function.update (fun _ => Set.univ) smallMemory.index ∅)
      (smallMemory.remember (ascii "a") (ascii "v") (some [one]) none
        MemoryRun.start.server).2 := by
  refine (remember_triple (Set.notMem_empty _) _ ?_).after (empty_standing _ _ _)
    (fun _ _ lacks => lacks) fun _ lacks => lacks
  intro numbers same named start parsed
  cases same
  cases parsed
  exact Set.notMem_empty _

theorem vectorSpaceKey_named (index : Bytes) {space : Bytes} (named : space ≠ []) :
    vectorSpaceKey index space = 0x00 :: (ascii "spc:" ++ index ++ [0x1f] ++ space) := by
  rw [vectorSpaceKey, if_neg named]
  rfl

/-- The tenant after `remember("a", "v", [1])`. -/
def remembered : MemoryRun :=
  ⟨(smallMemory.remember (ascii "a") (ascii "v") (some [one]) none MemoryRun.start.server).2, []⟩

theorem remembered_forgettable : remembered.Forgettable smallMemory (.forget (ascii "a")) := by
  constructor
  · intro space same
    by_cases named : space = []
    · rw [named] at same
      revert same
      decide
    · rw [vectorSpaceKey_named _ named] at same
      cases same
  · intro space named
    have steady := remembered_lacks.spaces space
    have apart : vectorSpaceKey smallMemory.index space ≠ smallMemory.index := by
      rw [vectorSpaceKey_named _ named]
      intro same
      cases same
    rw [Function.update_of_ne apart] at steady
    exact steady.not_live (Set.mem_univ _)

/-- With the vector in the default space, nothing of the key is left. -/
theorem default_space_forgets :
    ∃ run, Reaches (MemoryRun.step smallMemory) (MemoryRun.Forgettable smallMemory) .start run ∧
      ascii "a" ∈ run.forgotten ∧ Forgotten smallMemory (ascii "a") run.server := by
  have first : Reaches (MemoryRun.step smallMemory) (MemoryRun.Forgettable smallMemory)
      .start remembered :=
    .next (.remember (ascii "a") (ascii "v") (some [one]) none) .start trivial rfl
  have returns : ((remembered.step smallMemory (.forget (ascii "a"))).toOption.any
      fun run => ascii "a" ∈ run.forgotten) = true := by
    decide +kernel
  cases stepped : remembered.step smallMemory (.forget (ascii "a")) with
  | error message =>
    rw [stepped] at returns
    cases returns
  | ok run =>
    rw [stepped] at returns
    have member : ascii "a" ∈ run.forgotten := of_decide_eq_true returns
    have reached := first.next _ remembered_forgettable stepped
    exact ⟨run, reached, member, MemoryRun.reaches_forgotten reached member⟩

end Dbx.Sdk
