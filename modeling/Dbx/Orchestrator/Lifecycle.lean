import Dbx.Orchestrator.ConcurrentProvision

/-!
# Starting and stopping tenants

The calls that bring the engine of a tenant up or down, taken apart into the
sections between which others may run. `StartTenant` looks at the record once and
registers the engine several steps later. The records are objects: a call goes on
with the one it was given, and the table may have another by then, or none.

Saves succeed. A start may fail in any of its steps.
-/

set_option autoImplicit false

namespace Dbx.Orchestrator

open Dbx.Protocol

inductive StartPhase where
  | flag
  | claim
  | mkdir
  | register
  | release (succeeded : Bool)
deriving DecidableEq, Repr

inductive LifecycleCall where
  /-- The records of a call to `ProvisionWith` that has passed its checks. -/
  | provision (records : List Tenant)
  /-- `StartTenant` for one record after another. A failure of the first of a set is the
  end of it. -/
  | start (object : Nat) (rest : List Nat) (phase : StartPhase) (leads : Bool)
  /-- `deleteTenant`, about to remove a record. -/
  | remove (object : Nat) (rest : List Nat) (id replicaOf : Bytes) (purge : Bool)
  /-- `deleteTenant`, about to erase the directory of a removed record. -/
  | erase (object : Nat) (rest : List Nat) (id replicaOf : Bytes)
  /-- `deleteTenant`, about to write the receipt of a purge. -/
  | receipt (rest : List Nat) (id replicaOf : Bytes)
  | unlist (id replicaOf : Bytes)

def LifecycleCall.targets : LifecycleCall → List Nat
  | .start object rest _ _ => object :: rest
  | _ => []

structure Fleet where
  heap : Nat → Tenant
  allocated : Nat
  tenants : AList (fun _ : Bytes => Nat)
  nextHTTPPort : Nat
  nextRESPPort : Nat
  nextReplPort : Nat
  dataRoot : Bytes
  instances : Bytes → Option Nat
  nextEngine : Nat
  starting : Bytes → Bool
  restarts : Bytes → Nat
  dirs : Bytes → Bool
  calls : List LifecycleCall
  /-- The ids whose record was last removed by a purge, and not provisioned since. -/
  purged : Bytes → Bool

/-- A failed engine reports to its supervisor. Of the calls in progress, the one at some
place takes its next step, which may fail. -/
inductive LifecycleEvent where
  | provision (id name : Bytes) (replicaCount : Int) (vectorEncoding : Bytes)
  | start (id : Bytes)
  | hibernate (id : Bytes)
  | wake (id : Bytes) (requireHibernated : Bool)
  | delete (id : Bytes) (purge : Bool)
  | engineFailed (engine : Nat) (id : Bytes)
  | advance (place : Nat) (succeeds : Bool)

namespace Fleet

def table (f : Fleet) : TenantTable :=
  (f.tenants.entries.map fun entry => (⟨entry.1, f.heap entry.2⟩ : Sigma fun _ => Tenant)).toAList

def manager (f : Fleet) : Manager :=
  { tenants := f.table, saved := some f.table, nextHTTPPort := f.nextHTTPPort
    nextRESPPort := f.nextRESPPort, nextReplPort := f.nextReplPort, dataRoot := f.dataRoot }

def setObject (f : Fleet) (object : Nat) (t : Tenant) : Fleet :=
  { f with heap := Function.update f.heap object t }

def enter (f : Fleet) (t : Tenant) : Fleet :=
  { f with
    heap := Function.update f.heap f.allocated t
    allocated := f.allocated + 1
    tenants := f.tenants.insert t.id f.allocated
    purged := Function.update f.purged t.id false }

def enterAll (f : Fleet) (records : List Tenant) : Fleet := records.foldl enter f

/-- The locked section of `removeTenant`. -/
def remove (f : Fleet) (object : Nat) (purge : Bool) : Fleet :=
  let id := (f.heap object).id
  { f with
    tenants := f.tenants.erase id
    instances := Function.update f.instances id none
    purged := Function.update f.purged id purge }

/-- What `deleteTenant` goes on with once a record is removed. -/
def afterRemoval (rest : List Nat) (id replicaOf : Bytes) (purge : Bool) : Option LifecycleCall :=
  match rest with
  | object :: rest => some (.remove object rest id replicaOf purge)
  | [] => if replicaOf = [] then none else some (.unlist id replicaOf)

/-- What a start goes on with once `StartTenant` has returned. -/
def afterStart (rest : List Nat) (leads succeeded : Bool) : Option LifecycleCall :=
  if leads && !succeeded then none
  else
    match rest with
    | object :: rest => some (.start object rest .flag false)
    | [] => none

/-- The next step of `StartTenant`. -/
def advanceStart (f : Fleet) (object : Nat) (rest : List Nat) (leads succeeds : Bool) :
    StartPhase → Fleet × Option LifecycleCall
  | .flag =>
    if (f.heap object).hibernated then (f, afterStart rest leads false)
    else (f, some (.start object rest .claim leads))
  | .claim =>
    let id := (f.heap object).id
    if f.starting id ∨ (f.instances id).isSome then (f, afterStart rest leads true)
    else
      ({ f with starting := Function.update f.starting id true },
        some (.start object rest .mkdir leads))
  | .mkdir =>
    if succeeds then
      ({ f with dirs := Function.update f.dirs (f.heap object).dataDir true },
        some (.start object rest .register leads))
    else (f, some (.start object rest (.release false) leads))
  | .register =>
    if succeeds then
      ({ f with
          instances := Function.update f.instances (f.heap object).id (some f.nextEngine)
          nextEngine := f.nextEngine + 1 },
        some (.start object rest (.release true) leads))
    else (f, some (.start object rest (.release false) leads))
  | .release succeeded =>
    ({ f with starting := Function.update f.starting (f.heap object).id false },
      afterStart rest leads succeeded)

def advance (f : Fleet) (succeeds : Bool) : LifecycleCall → Fleet × Option LifecycleCall
  | .provision records =>
    (f.enterAll records,
      match List.range' f.allocated records.length with
      | [] => none
      | primary :: replicas => some (.start primary replicas .flag true))
  | .start object rest phase leads => f.advanceStart object rest leads succeeds phase
  | .remove object rest id replicaOf purge =>
    (f.remove object purge,
      if purge then some (.erase object rest id replicaOf)
      else afterRemoval rest id replicaOf purge)
  | .erase object rest id replicaOf =>
    let t := f.heap object
    if succeeds then
      ({ f with dirs := Function.update f.dirs t.dataDir false },
        some (.receipt rest id replicaOf))
    else ({ f with purged := Function.update f.purged t.id false }, none)
  | .receipt rest id replicaOf =>
    (f, if succeeds then afterRemoval rest id replicaOf true else none)
  | .unlist id replicaOf =>
    match f.tenants.lookup replicaOf with
    | none => (f, none)
    | some object =>
      let primary := f.heap object
      (f.setObject object { primary with replicas := primary.replicas.filter (· ≠ id) }, none)

def begin (f : Fleet) (call : LifecycleCall) : Fleet := { f with calls := f.calls ++ [call] }

/-- One step of the node. A call that is refused leaves it as it is. -/
def step (f : Fleet) : LifecycleEvent → Except String Fleet
  | .provision id name replicaCount vectorEncoding =>
    match f.manager.provisionChecks id name replicaCount vectorEncoding with
    | .error _ => .ok f
    | .ok (count, encoding) =>
      let ports := f.manager.takePorts count
      .ok ({ f with
        nextHTTPPort := ports.nextHTTPPort
        nextRESPPort := ports.nextRESPPort
        nextReplPort := ports.nextReplPort }.begin
          (.provision (f.manager.newTenants id name count encoding)))
  | .start id =>
    match f.tenants.lookup id with
    | none => .ok f
    | some object => .ok (f.begin (.start object [] .flag false))
  | .hibernate id =>
    match f.tenants.lookup id with
    | none => .ok f
    | some object =>
      let tenant := f.heap object
      if tenant.role = .replica then .ok f
      else
        .ok { f.setObject object { tenant with hibernated := true } with
          instances := Function.update f.instances id none }
  | .wake id requireHibernated =>
    match f.tenants.lookup id with
    | none => .ok f
    | some object =>
      let tenant := f.heap object
      if requireHibernated && !tenant.hibernated then .ok f
      else
        .ok ((f.setObject object { tenant with hibernated := false }).begin
          (.start object [] .flag false))
  | .delete id purge =>
    match f.tenants.lookup id with
    | none => .ok f
    | some object =>
      let t := f.heap object
      let members := if t.role ≠ .replica then t.replicas.filterMap f.tenants.lookup else []
      match members ++ [object] with
      | [] => .ok f
      | first :: rest => .ok (f.begin (.remove first rest id t.replicaOf purge))
  | .engineFailed engine id =>
    if f.instances id ≠ some engine then .error "no such engine"
    else
      let stopped := { f with instances := Function.update f.instances id none }
      match f.tenants.lookup id with
      | none => .ok stopped
      | some object =>
        if (f.heap object).hibernated then .ok stopped
        else
          let attempt := f.restarts id + 1
          let counted := { stopped with restarts := Function.update f.restarts id attempt }
          if 3 < attempt then .ok counted
          else .ok (counted.begin (.start object [] .flag false))
  | .advance place succeeds =>
    match f.calls[place]? with
    | none => .error "no such call"
    | some call =>
      let (next, rest) := f.advance succeeds call
      .ok { next with calls := f.calls.eraseIdx place ++ rest.toList }

def start (dataRoot : Bytes) : Fleet where
  heap _ := { id := [], name := [], httpPort := 0, respPort := 0
              dataDir := tenantDataDir dataRoot [], vectorEncoding := .sq8 }
  allocated := 0
  tenants := ∅
  nextHTTPPort := 8081
  nextRESPPort := 6401
  nextReplPort := defaultReplicationPort
  dataRoot
  instances _ := none
  nextEngine := 0
  starting _ := false
  restarts _ := 0
  dirs _ := false
  calls := []
  purged _ := false

/-- Where no call is in progress, engines belong to tenants that are not hibernated, and
what was purged is gone. -/
structure Down (f : Fleet) : Prop where
  registered : f.calls = [] → ∀ id engine, f.instances id = some engine →
    ∃ object, f.tenants.lookup id = some object ∧ (f.heap object).hibernated = false
  erased : f.calls = [] → ∀ id, f.purged id = true → f.dirs (tenantDataDir f.dataRoot id) = false

/-!
## Orderly runs
-/

def Idle (f : Fleet) (id : Bytes) : Prop :=
  ∀ call ∈ f.calls, ∀ object ∈ call.targets, (f.heap object).id ≠ id

/-- A tenant is hibernated or removed only while no start of it is in progress. -/
def Orderly (f : Fleet) : LifecycleEvent → Prop
  | .hibernate id => f.Idle id
  | .advance place _ => ∀ object rest id replicaOf purge,
      f.calls[place]? = some (.remove object rest id replicaOf purge) →
        f.Idle (f.heap object).id
  | _ => True

def Awake (f : Fleet) (id : Bytes) : Prop :=
  ∃ object, f.tenants.lookup id = some object ∧ (f.heap object).hibernated = false

/-- An object is that of its tenant, or the tenant has one that is not hibernated. -/
def Live (f : Fleet) (object : Nat) : Prop :=
  f.tenants.lookup (f.heap object).id = some object ∨ f.Awake (f.heap object).id

def CallSound (f : Fleet) : LifecycleCall → Prop
  | .provision records =>
    ∀ t ∈ records, t.hibernated = false ∧ t.dataDir = tenantDataDir f.dataRoot t.id
  | .start object rest phase _ =>
    (∀ x ∈ object :: rest, x < f.allocated ∧ f.Live x) ∧
      (phase ≠ .flag → f.Awake (f.heap object).id)
  | .remove object rest _ _ _ => ∀ x ∈ object :: rest, x < f.allocated
  | .erase object rest _ _ => ∀ x ∈ object :: rest, x < f.allocated
  | .receipt rest _ _ => ∀ x ∈ rest, x < f.allocated
  | .unlist _ _ => True

def erases (f : Fleet) : LifecycleCall → Option Bytes
  | .erase object _ _ _ => some (f.heap object).id
  | _ => none

structure Sound (f : Fleet) : Prop where
  filed : ∀ id object, f.tenants.lookup id = some object →
    object < f.allocated ∧ (f.heap object).id = id
  placed : ∀ object < f.allocated,
    (f.heap object).dataDir = tenantDataDir f.dataRoot (f.heap object).id
  engines : ∀ id engine, f.instances id = some engine → f.Awake id
  calls : ∀ call ∈ f.calls, f.CallSound call
  gone : ∀ id, f.purged id = true → f.tenants.lookup id = none
  erased : ∀ id, f.purged id = true → f.dirs (tenantDataDir f.dataRoot id) = true →
    ∃ call ∈ f.calls, f.erases call = some id

theorem start_sound (dataRoot : Bytes) : (start dataRoot).Sound where
  filed _ _ found := nomatch found
  placed _ low := nomatch low
  engines _ _ runs := nomatch runs
  calls _ listed := nomatch listed
  gone _ purged := nomatch purged
  erased _ purged := nomatch purged

structure Extends (f f' : Fleet) : Prop where
  allocated : f.allocated ≤ f'.allocated
  dataRoot : f'.dataRoot = f.dataRoot
  ids : ∀ object < f.allocated, (f'.heap object).id = (f.heap object).id
  dirs : ∀ object < f.allocated, (f'.heap object).dataDir = (f.heap object).dataDir

/-- A tenant that is not hibernated stays so, and its object likewise. -/
structure Carries (f f' : Fleet) (id : Bytes) : Prop where
  awake : f.Awake id → f'.Awake id
  live : ∀ object, f.tenants.lookup id = some object →
    f'.tenants.lookup id = some object ∨ f'.Awake id

theorem Extends.refl (f : Fleet) : f.Extends f :=
  ⟨Nat.le_refl _, rfl, fun _ _ => rfl, fun _ _ => rfl⟩

variable {f : Fleet}

theorem Extends.trans {f' f'' : Fleet} (first : f.Extends f') (later : f'.Extends f'') :
    f.Extends f'' where
  allocated := first.allocated.trans later.allocated
  dataRoot := later.dataRoot.trans first.dataRoot
  ids o low := (later.ids o (low.trans_le first.allocated)).trans (first.ids o low)
  dirs o low := (later.dirs o (low.trans_le first.allocated)).trans (first.dirs o low)

theorem Carries.refl (f : Fleet) (id : Bytes) : f.Carries f id :=
  ⟨fun awake => awake, fun _ own => .inl own⟩

theorem Carries.trans {f' f'' : Fleet} {id : Bytes} (first : f.Carries f' id)
    (later : f'.Carries f'' id) : f.Carries f'' id where
  awake up := later.awake (first.awake up)
  live object own := by
    rcases first.live object own with still | awake
    · exact later.live object still
    · exact .inr (later.awake awake)

theorem Live.carried {f' : Fleet} {object : Nat} (live : f.Live object) (larger : f.Extends f')
    (low : object < f.allocated) (carries : f.Carries f' (f.heap object).id) : f'.Live object := by
  rw [Live, larger.ids object low]
  rcases live with own | awake
  · exact carries.live object own
  · exact .inr (carries.awake awake)

theorem CallSound.carried {f' : Fleet} {call : LifecycleCall} (sound : f.CallSound call)
    (larger : f.Extends f') (carries : ∀ object ∈ call.targets, f.Carries f' (f.heap object).id) :
    f'.CallSound call := by
  cases call with
  | provision records =>
    intro t listed
    rw [larger.dataRoot]
    exact sound t listed
  | start object rest phase leads =>
    obtain ⟨targets, awake⟩ := sound
    have first := List.mem_cons_self (a := object) (l := rest)
    refine ⟨fun x listed => ?_, fun past => ?_⟩
    · obtain ⟨low, live⟩ := targets x listed
      exact ⟨low.trans_le larger.allocated, live.carried larger low (carries x listed)⟩
    · rw [larger.ids object (targets object first).1]
      exact (carries object first).awake (awake past)
  | remove object rest id replicaOf purge =>
    exact fun x listed => (sound x listed).trans_le larger.allocated
  | erase object rest id replicaOf =>
    exact fun x listed => (sound x listed).trans_le larger.allocated
  | receipt rest id replicaOf =>
    exact fun x listed => (sound x listed).trans_le larger.allocated
  | unlist id replicaOf => trivial

namespace Sound

variable {f : Fleet}

/-!
### The calls in progress
-/

variable {call : LifecycleCall}

theorem begin (sound : f.Sound) (begun : f.CallSound call) :
    (f.begin call).Sound :=
  { sound with
    calls other listed := by
      rcases List.mem_append.1 listed with old | new
      · exact sound.calls other old
      · rw [List.mem_singleton.1 new]
        exact begun
    erased id purged there := by
      obtain ⟨other, listed, erases⟩ := sound.erased id purged there
      exact ⟨other, List.mem_append_left _ listed, erases⟩ }

variable {place : Nat}

/-- A call makes way for what is left of it, unless there is still a directory for it to
erase. -/
theorem replace (sound : f.Sound) (taken : f.calls[place]? = some call)
    {rest : Option LifecycleCall} (left : ∀ next ∈ rest, f.CallSound next)
    (done : ∀ id, f.erases call = some id → f.purged id = true →
      f.dirs (tenantDataDir f.dataRoot id) = false) :
    Sound { f with calls := f.calls.eraseIdx place ++ rest.toList } :=
  { sound with
    calls other listed := by
      rcases List.mem_append.1 listed with old | new
      · exact sound.calls other (List.mem_of_mem_eraseIdx old)
      · exact left other (Option.mem_toList.1 new)
    erased id purged there := by
      obtain ⟨other, listed, erases⟩ := sound.erased id purged there
      refine ⟨other, List.mem_append_left _ ?_, erases⟩
      obtain ⟨i, found⟩ := List.mem_iff_getElem?.1 listed
      refine List.mem_eraseIdx_iff_getElem?.2 ⟨i, fun same => ?_, found⟩
      subst same
      cases found.symm.trans taken
      cases (done id erases purged).symm.trans there }

/-!
### Directories and engines
-/

theorem awake_not_purged (sound : f.Sound) {id : Bytes} (awake : f.Awake id) :
    f.purged id ≠ true := by
  intro purged
  obtain ⟨object, found, -⟩ := awake
  cases (sound.gone id purged).symm.trans found

variable {object : Nat}

theorem mkdir (sound : f.Sound) (low : object < f.allocated) (awake : f.Awake (f.heap object).id) :
    Sound { f with dirs := Function.update f.dirs (f.heap object).dataDir true } :=
  { sound with
    erased id purged there := by
      by_cases same : tenantDataDir f.dataRoot id = (f.heap object).dataDir
      · rw [sound.placed object low] at same
        rw [← tenantDataDir_inj same] at awake
        exact absurd purged (sound.awake_not_purged awake)
      · exact sound.erased id purged ((Function.update_of_ne same ..).symm.trans there) }

theorem rmdir (sound : f.Sound) (dir : Bytes) :
    Sound { f with dirs := Function.update f.dirs dir false } :=
  { sound with
    erased id purged there := by
      by_cases same : tenantDataDir f.dataRoot id = dir
      · subst same
        cases (Function.update_self ..).symm.trans there
      · exact sound.erased id purged ((Function.update_of_ne same ..).symm.trans there) }

theorem unpurge (sound : f.Sound) (id : Bytes) :
    Sound { f with purged := Function.update f.purged id false } := by
  have purged : ∀ x, Function.update f.purged id false x = true → f.purged x = true := by
    intro x purged
    by_cases same : x = id
    · subst same
      cases (Function.update_self ..).symm.trans purged
    · exact (Function.update_of_ne same ..).symm.trans purged
  exact ⟨sound.filed, sound.placed, sound.engines, sound.calls,
    fun x still => sound.gone x (purged x still), fun x still => sound.erased x (purged x still)⟩

theorem register (sound : f.Sound) {id : Bytes} (awake : f.Awake id) (engine : Nat) :
    Sound
      { f with
        instances := Function.update f.instances id (some engine)
        nextEngine := f.nextEngine + 1 } :=
  { sound with
    engines x other runs := by
      by_cases same : x = id
      · rw [same]
        exact awake
      · exact sound.engines x other ((Function.update_of_ne same ..).symm.trans runs) }

theorem deregister (sound : f.Sound) (id : Bytes) :
    Sound { f with instances := Function.update f.instances id none } :=
  { sound with
    engines x engine runs := by
      by_cases same : x = id
      · subst same
        cases (Function.update_self ..).symm.trans runs
      · exact sound.engines x engine ((Function.update_of_ne same ..).symm.trans runs) }

/-!
### Records
-/

theorem erases_of_extends {f' : Fleet} (larger : f.Extends f') (callSound : f.CallSound call) :
    f'.erases call = f.erases call := by
  cases call with
  | erase object rest id replicaOf =>
    exact congrArg some (larger.ids object (callSound object (List.mem_cons_self ..)))
  | _ => rfl

/-- The object of a tenant is rewritten. It may become hibernated while the tenant has no
engine and none is being started. -/
theorem setObject (sound : f.Sound) {id : Bytes} {t : Tenant}
    (found : f.tenants.lookup id = some object) (sameID : t.id = (f.heap object).id)
    (sameDir : t.dataDir = (f.heap object).dataDir)
    (falls : t.hibernated = true → (f.heap object).hibernated = false →
      f.Idle id ∧ f.instances id = none) : (f.setObject object t).Sound := by
  have here : (f.setObject object t).heap object = t := Function.update_self ..
  have elsewhere : ∀ o, o ≠ object → (f.setObject object t).heap o = f.heap o :=
    fun o other => Function.update_of_ne other ..
  have ids : ∀ o, ((f.setObject object t).heap o).id = (f.heap o).id := by
    intro o
    by_cases same : o = object
    · rw [same, here, sameID]
    · rw [elsewhere o same]
  have dirs : ∀ o, ((f.setObject object t).heap o).dataDir = (f.heap o).dataDir := by
    intro o
    by_cases same : o = object
    · rw [same, here, sameDir]
    · rw [elsewhere o same]
  have larger : f.Extends (f.setObject object t) :=
    ⟨Nat.le_refl _, rfl, fun o _ => ids o, fun o _ => dirs o⟩
  -- Only the tenant itself may lose its engine.
  have awake : ∀ x, (x = id → (f.instances id).isSome ∨ ¬ f.Idle id) → f.Awake x →
      (f.setObject object t).Awake x := by
    rintro x needed ⟨o, lookup, up⟩
    refine ⟨o, lookup, ?_⟩
    by_cases same : o = object
    · rw [same] at lookup up ⊢
      rw [here]
      have same' : x = id :=
        (sound.filed x object lookup).2.symm.trans (sound.filed id object found).2
      cases flag : t.hibernated with
      | false => rfl
      | true =>
        obtain ⟨idle, none⟩ := falls flag up
        rcases needed same' with runs | starts
        · rw [none] at runs
          cases runs
        · exact absurd idle starts
    · rw [elsewhere o same]
      exact up
  refine ⟨fun x o lookup => ?_, fun o low => ?_, fun x engine runs => ?_, fun call listed => ?_,
    sound.gone, fun x purged there => ?_⟩
  · rw [ids]
    exact sound.filed x o lookup
  · rw [ids, dirs]
    exact sound.placed o low
  · refine awake x (fun same => .inl ?_) (sound.engines x engine runs)
    rw [← same]
    exact Option.isSome_iff_exists.2 ⟨engine, runs⟩
  · refine (sound.calls call listed).carried larger fun o target => ⟨?_, fun _ own => .inl own⟩
    exact awake _ fun same => .inr fun idle => idle call listed o target same
  · obtain ⟨call, listed, erases⟩ := sound.erased x purged there
    exact ⟨call, listed, (erases_of_extends larger (sound.calls call listed)).trans erases⟩

section

variable (f) (t : Tenant)

theorem enter_heap_self : (f.enter t).heap f.allocated = t :=
  Function.update_self ..

theorem enter_heap (low : object < f.allocated) : (f.enter t).heap object = f.heap object :=
  Function.update_of_ne (Nat.ne_of_lt low) ..

theorem enter_lookup_self : (f.enter t).tenants.lookup t.id = some f.allocated :=
  AList.lookup_insert _

theorem enter_lookup {id : Bytes} (other : id ≠ t.id) :
    (f.enter t).tenants.lookup id = f.tenants.lookup id :=
  AList.lookup_insert_ne other

theorem extends_enter : f.Extends (f.enter t) where
  allocated := Nat.le_succ _
  dataRoot := rfl
  ids _ low := congrArg Tenant.id (enter_heap f t low)
  dirs _ low := congrArg Tenant.dataDir (enter_heap f t low)

end

theorem carries_enter (sound : f.Sound) {t : Tenant} (up : t.hibernated = false) (id : Bytes) :
    f.Carries (f.enter t) id := by
  by_cases same : id = t.id
  · have risen : (f.enter t).Awake id := by
      rw [same]
      exact ⟨_, enter_lookup_self f t, by rw [enter_heap_self, up]⟩
    exact ⟨fun _ => risen, fun _ _ => .inr risen⟩
  · refine ⟨?_, fun object found => .inl ((enter_lookup f t same).trans found)⟩
    rintro ⟨object, found, awake⟩
    refine ⟨object, (enter_lookup f t same).trans found, ?_⟩
    rw [enter_heap f t (sound.filed id object found).1, awake]

theorem enter (sound : f.Sound) {t : Tenant} (up : t.hibernated = false)
    (placed : t.dataDir = tenantDataDir f.dataRoot t.id) : (f.enter t).Sound := by
  have larger := extends_enter f t
  have unpurged : ∀ x, (f.enter t).purged x = true → x ≠ t.id ∧ f.purged x = true := by
    intro x purged
    by_cases same : x = t.id
    · subst same
      cases (Function.update_self ..).symm.trans purged
    · exact ⟨same, (Function.update_of_ne same ..).symm.trans purged⟩
  refine ⟨fun x o lookup => ?_, fun o low => ?_, fun x engine runs => ?_, fun call listed => ?_,
    fun x purged => ?_, fun x purged there => ?_⟩
  · by_cases same : x = t.id
    · subst same
      cases (enter_lookup_self f t).symm.trans lookup
      exact ⟨Nat.lt_succ_self _, congrArg Tenant.id (enter_heap_self f t)⟩
    · rw [enter_lookup f t same] at lookup
      obtain ⟨low, own⟩ := sound.filed x o lookup
      exact ⟨Nat.lt_succ_of_lt low, (larger.ids o low).trans own⟩
  · rcases Nat.lt_succ_iff_lt_or_eq.1 low with old | rfl
    · rw [enter_heap f t old]
      exact sound.placed o old
    · rw [enter_heap_self]
      exact placed
  · exact (sound.carries_enter up x).awake (sound.engines x engine runs)
  · exact (sound.calls call listed).carried larger fun o _ => sound.carries_enter up _
  · obtain ⟨other, old⟩ := unpurged x purged
    exact (enter_lookup f t other).trans (sound.gone x old)
  · obtain ⟨call, listed, erases⟩ := sound.erased x (unpurged x purged).2 there
    exact ⟨call, listed, (erases_of_extends larger (sound.calls call listed)).trans erases⟩

/-- Each record has its object, which its id leads to unless a later one has taken its
place. -/
theorem enterAll {records : List Tenant} :
    ∀ {f : Fleet}, f.Sound → f.CallSound (.provision records) →
      (f.enterAll records).Sound ∧ f.Extends (f.enterAll records) ∧
        (∀ id, f.Carries (f.enterAll records) id) ∧ (f.enterAll records).calls = f.calls ∧
        ∀ x ∈ List.range' f.allocated records.length,
          x < (f.enterAll records).allocated ∧ (f.enterAll records).Live x := by
  induction records with
  | nil =>
    intro f sound _
    exact ⟨sound, .refl f, .refl f, rfl, fun _ listed => nomatch listed⟩
  | cons t records ih =>
    intro f sound fits
    obtain ⟨up, placed⟩ := fits t (List.mem_cons_self ..)
    obtain ⟨whole, later, carries, calls, live⟩ := ih (sound.enter up placed)
      fun t' listed => fits t' (List.mem_cons_of_mem _ listed)
    have low : f.allocated < (f.enter t).allocated := Nat.lt_succ_self _
    refine ⟨whole, (extends_enter f t).trans later,
      fun id => (sound.carries_enter up id).trans (carries id), calls, fun x listed => ?_⟩
    rw [List.length_cons, List.range'_succ, List.mem_cons] at listed
    rcases listed with rfl | behind
    · have own : (f.enter t).Live f.allocated := by
        refine .inl ?_
        rw [enter_heap_self]
        exact enter_lookup_self f t
      exact ⟨low.trans_le later.allocated, own.carried later low (carries _)⟩
    · exact live x behind

variable {rest : List Nat}

theorem remove (sound : f.Sound) {id replicaOf : Bytes} {purge : Bool}
    (taken : f.calls[place]? = some (.remove object rest id replicaOf purge))
    (idle : f.Idle (f.heap object).id) {next : Option LifecycleCall}
    (left : ∀ call ∈ next, (f.remove object purge).CallSound call)
    (erasing : purge = true → ∃ call ∈ next, f.erases call = some (f.heap object).id) :
    Sound
      { f.remove object purge with calls := f.calls.eraseIdx place ++ next.toList } := by
  have others : ∀ x, x ≠ (f.heap object).id →
      (f.remove object purge).tenants.lookup x = f.tenants.lookup x :=
    fun x other => AList.lookup_erase_ne other
  have removed : (f.remove object purge).tenants.lookup (f.heap object).id = none :=
    AList.lookup_erase _ _
  have found : ∀ x o, (f.remove object purge).tenants.lookup x = some o →
      x ≠ (f.heap object).id ∧ f.tenants.lookup x = some o := by
    intro x o lookup
    by_cases same : x = (f.heap object).id
    · subst same
      cases removed.symm.trans lookup
    · exact ⟨same, (others x same).symm.trans lookup⟩
  have carries : ∀ x, x ≠ (f.heap object).id → f.Carries (f.remove object purge) x := by
    refine fun x other => ⟨?_, fun o own => .inl ((others x other).trans own)⟩
    rintro ⟨o, lookup, up⟩
    exact ⟨o, (others x other).trans lookup, up⟩
  refine ⟨fun x o lookup => sound.filed x o (found x o lookup).2, sound.placed,
    fun x engine runs => ?_, fun call listed => ?_, fun x purged => ?_, fun x purged there => ?_⟩
  · by_cases same : x = (f.heap object).id
    · subst same
      cases (Function.update_self ..).symm.trans runs
    · exact (carries x same).awake
        (sound.engines x engine ((Function.update_of_ne same ..).symm.trans runs))
  · rcases List.mem_append.1 listed with old | new
    · have member := List.mem_of_mem_eraseIdx old
      have larger : f.Extends (f.remove object purge) :=
        ⟨Nat.le_refl _, rfl, fun _ _ => rfl, fun _ _ => rfl⟩
      have kept : (f.remove object purge).CallSound call :=
        (sound.calls call member).carried larger
          fun o target => carries _ (idle call member o target)
      exact kept
    · exact left call (Option.mem_toList.1 new)
  · by_cases same : x = (f.heap object).id
    · rw [same]
      exact removed
    · exact (others x same).trans
        (sound.gone x ((Function.update_of_ne same ..).symm.trans purged))
  · by_cases same : x = (f.heap object).id
    · subst same
      obtain ⟨call, new, erases⟩ := erasing ((Function.update_self ..).symm.trans purged)
      exact ⟨call, List.mem_append_right _ (Option.mem_toList.2 new), erases⟩
    · obtain ⟨call, listed, erases⟩ :=
        sound.erased x ((Function.update_of_ne same ..).symm.trans purged) there
      refine ⟨call, List.mem_append_left _ ?_, erases⟩
      obtain ⟨i, at'⟩ := List.mem_iff_getElem?.1 listed
      refine List.mem_eraseIdx_iff_getElem?.2 ⟨i, fun here => ?_, at'⟩
      subst here
      cases at'.symm.trans taken
      cases erases

/-!
### Steps
-/

theorem afterStart (targets : ∀ x ∈ rest, x < f.allocated ∧ f.Live x) (leads succeeded : Bool) :
    ∀ call ∈ Fleet.afterStart rest leads succeeded, f.CallSound call := by
  intro call next
  unfold Fleet.afterStart at next
  split at next
  · cases next
  cases rest with
  | nil => cases next
  | cons object rest =>
    cases next
    exact ⟨targets, fun past => absurd rfl past⟩

theorem afterRemoval (targets : ∀ x ∈ rest, x < f.allocated) (id replicaOf : Bytes) (purge : Bool) :
    ∀ call ∈ Fleet.afterRemoval rest id replicaOf purge, f.CallSound call := by
  intro call next
  unfold Fleet.afterRemoval at next
  cases rest with
  | nil =>
    dsimp only at next
    split at next
    · cases next
    · cases next
      trivial
  | cons object rest =>
    cases next
    exact targets

theorem advanceStart (sound : f.Sound) {phase : StartPhase} {leads : Bool}
    (taken : f.calls[place]? = some (.start object rest phase leads)) (succeeds : Bool) :
    Sound
      { (f.advanceStart object rest leads succeeds phase).1 with
        calls := f.calls.eraseIdx place ++
          (f.advanceStart object rest leads succeeds phase).2.toList } := by
  obtain ⟨targets, awake⟩ := sound.calls _ (List.mem_of_getElem? taken)
  have low := (targets object (List.mem_cons_self ..)).1
  have others := fun x listed => targets x (List.mem_cons_of_mem object listed)
  have goesOn : ∀ phase, f.Awake (f.heap object).id →
      ∀ call ∈ some (LifecycleCall.start object rest phase leads), f.CallSound call := by
    rintro phase awake call ⟨⟩
    exact ⟨targets, fun _ => awake⟩
  cases phase with
  | flag =>
    cases flag : (f.heap object).hibernated with
    | true =>
      simp only [Fleet.advanceStart, flag, if_true]
      exact sound.replace taken (afterStart others leads false) nofun
    | false =>
      have up : f.Awake (f.heap object).id := by
        rcases (targets object (List.mem_cons_self ..)).2 with own | awake
        · exact ⟨object, own, flag⟩
        · exact awake
      simp only [Fleet.advanceStart, flag, Bool.false_eq_true, if_false]
      exact sound.replace taken (goesOn .claim up) nofun
  | claim =>
    have up := awake nofun
    simp only [Fleet.advanceStart]
    split
    · exact sound.replace taken (afterStart others leads true) nofun
    have marked : Sound
        { f with starting := Function.update f.starting (f.heap object).id true } :=
      ⟨sound.filed, sound.placed, sound.engines, sound.calls, sound.gone, sound.erased⟩
    exact marked.replace taken (goesOn .mkdir up) nofun
  | mkdir =>
    have up := awake nofun
    cases succeeds with
    | true => exact (sound.mkdir low up).replace taken (goesOn .register up) nofun
    | false => exact sound.replace taken (goesOn (.release false) up) nofun
  | register =>
    have up := awake nofun
    cases succeeds with
    | true => exact (sound.register up _).replace taken (goesOn (.release true) up) nofun
    | false => exact sound.replace taken (goesOn (.release false) up) nofun
  | release succeeded =>
    have marked : Sound
        { f with starting := Function.update f.starting (f.heap object).id false } :=
      ⟨sound.filed, sound.placed, sound.engines, sound.calls, sound.gone, sound.erased⟩
    exact marked.replace taken (afterStart others leads succeeded) nofun

theorem advance (sound : f.Sound) (taken : f.calls[place]? = some call) (succeeds : Bool)
    (orderly : f.Orderly (.advance place succeeds)) :
    Sound
      { (f.advance succeeds call).1 with
        calls := f.calls.eraseIdx place ++ (f.advance succeeds call).2.toList } := by
  have callSound := sound.calls call (List.mem_of_getElem? taken)
  cases call with
  | provision records =>
    obtain ⟨entered, -, -, calls, live⟩ := sound.enterAll callSound
    have taken' : (f.enterAll records).calls[place]? = some (.provision records) := calls ▸ taken
    simp only [Fleet.advance]
    rw [← calls]
    refine entered.replace taken' (fun next started => ?_) nofun
    cases order : List.range' f.allocated records.length with
    | nil =>
      rw [order] at started
      cases started
    | cons primary replicas =>
      rw [order] at started live
      cases started
      exact ⟨live, fun past => absurd rfl past⟩
  | start object rest phase leads => exact sound.advanceStart taken succeeds
  | remove object rest id replicaOf purge =>
    have idle := orderly object rest id replicaOf purge taken
    have others := fun x listed => callSound x (List.mem_cons_of_mem object listed)
    cases purge with
    | true =>
      refine sound.remove taken idle (fun next erase => ?_) fun _ => ⟨_, rfl, rfl⟩
      cases erase
      exact callSound
    | false =>
      have left := afterRemoval (f := f.remove object false) others id replicaOf false
      exact sound.remove taken idle left nofun
  | erase object rest id replicaOf =>
    have low := callSound object (List.mem_cons_self ..)
    have others := fun x listed => callSound x (List.mem_cons_of_mem object listed)
    cases succeeds with
    | true =>
      refine (sound.rmdir (f.heap object).dataDir).replace taken ?_ fun x erases _ => ?_
      · rintro next ⟨⟩
        exact others
      · cases erases
        change Function.update f.dirs (f.heap object).dataDir false _ = false
        rw [← sound.placed object low, Function.update_self]
    | false =>
      refine (sound.unpurge (f.heap object).id).replace taken nofun fun x erases purged => ?_
      cases erases
      cases (Function.update_self ..).symm.trans purged
  | receipt rest id replicaOf =>
    cases succeeds with
    | true => exact sound.replace taken (afterRemoval callSound id replicaOf true) nofun
    | false => exact sound.replace taken nofun nofun
  | unlist id replicaOf =>
    simp only [Fleet.advance]
    cases found : f.tenants.lookup replicaOf with
    | none => exact sound.replace taken nofun nofun
    | some object =>
      have written := sound.setObject (t := { f.heap object with
        replicas := (f.heap object).replicas.filter (· ≠ id) }) found rfl rfl
        fun down up => absurd (down.symm.trans up) (by decide)
      exact written.replace taken nofun nofun

theorem found_start (sound : f.Sound) {id : Bytes} (found : f.tenants.lookup id = some object) :
    f.CallSound (.start object [] .flag false) := by
  refine ⟨fun x listed => ?_, fun past => absurd rfl past⟩
  rw [List.mem_singleton] at listed
  subst listed
  obtain ⟨low, own⟩ := sound.filed id x found
  exact ⟨low, .inl (own.symm ▸ found)⟩

section

variable (sound : f.Sound) {f' : Fleet} {id : Bytes}
include sound

theorem provision {name : Bytes} {replicaCount : Int} {vectorEncoding : Bytes}
    (stepped : f.step (.provision id name replicaCount vectorEncoding) = .ok f') : f'.Sound := by
  simp only [Fleet.step] at stepped
  split at stepped
  · cases stepped
    exact sound
  rename_i count encoding admitted
  cases stepped
  have taken : Sound
      { f with
        nextHTTPPort := (f.manager.takePorts count).nextHTTPPort
        nextRESPPort := (f.manager.takePorts count).nextRESPPort
        nextReplPort := (f.manager.takePorts count).nextReplPort } :=
    ⟨sound.filed, sound.placed, sound.engines, sound.calls, sound.gone, sound.erased⟩
  refine taken.begin fun t listed => ?_
  rcases List.mem_cons.1 listed with rfl | replica
  · exact ⟨rfl, rfl⟩
  · obtain ⟨n, -, rfl⟩ := List.mem_map.1 replica
    exact ⟨rfl, rfl⟩

theorem start (stepped : f.step (.start id) = .ok f') : f'.Sound := by
  simp only [Fleet.step] at stepped
  cases found : f.tenants.lookup id with
  | none =>
    rw [found] at stepped
    cases stepped
    exact sound
  | some object =>
    rw [found] at stepped
    cases stepped
    exact sound.begin (sound.found_start found)

theorem hibernate (idle : f.Idle id) (stepped : f.step (.hibernate id) = .ok f') : f'.Sound := by
  simp only [Fleet.step] at stepped
  cases found : f.tenants.lookup id with
  | none =>
    rw [found] at stepped
    cases stepped
    exact sound
  | some object =>
    rw [found] at stepped
    dsimp only at stepped
    split at stepped
    · cases stepped
      exact sound
    cases stepped
    refine (sound.deregister id).setObject found rfl rfl fun _ _ => ⟨idle, ?_⟩
    exact Function.update_self ..

theorem wake {requireHibernated : Bool} (stepped : f.step (.wake id requireHibernated) = .ok f') :
    f'.Sound := by
  simp only [Fleet.step] at stepped
  cases found : f.tenants.lookup id with
  | none =>
    rw [found] at stepped
    cases stepped
    exact sound
  | some object =>
    rw [found] at stepped
    dsimp only at stepped
    split at stepped
    · cases stepped
      exact sound
    cases stepped
    have woken : (f.setObject object { f.heap object with hibernated := false }).Sound :=
      sound.setObject found rfl rfl nofun
    exact woken.begin (woken.found_start found)

theorem delete {purge : Bool} (stepped : f.step (.delete id purge) = .ok f') : f'.Sound := by
  simp only [Fleet.step] at stepped
  cases found : f.tenants.lookup id with
  | none =>
    rw [found] at stepped
    cases stepped
    exact sound
  | some object =>
    rw [found] at stepped
    dsimp only at stepped
    split at stepped
    · cases stepped
      exact sound
    rename_i first rest order
    cases stepped
    refine sound.begin fun x listed => ?_
    rw [← order, List.mem_append, List.mem_singleton] at listed
    rcases listed with member | rfl
    · split at member
      · obtain ⟨replica, -, present⟩ := List.mem_filterMap.1 member
        exact (sound.filed replica x present).1
      · cases member
    · exact (sound.filed id x found).1

theorem engineFailed {engine : Nat} (stepped : f.step (.engineFailed engine id) = .ok f') :
    f'.Sound := by
  simp only [Fleet.step] at stepped
  split at stepped
  · cases stepped
  have stopped := sound.deregister id
  cases found : f.tenants.lookup id with
  | none =>
    rw [found] at stepped
    cases stepped
    exact stopped
  | some object =>
    rw [found] at stepped
    dsimp only at stepped
    split at stepped
    · cases stepped
      exact stopped
    have counted : Sound
        { f with
          instances := Function.update f.instances id none
          restarts := Function.update f.restarts id (f.restarts id + 1) } :=
      ⟨stopped.filed, stopped.placed, stopped.engines, stopped.calls, stopped.gone,
        stopped.erased⟩
    split at stepped
    · cases stepped
      exact counted
    · cases stepped
      exact counted.begin (sound.found_start found)

theorem step {event : LifecycleEvent} (orderly : f.Orderly event)
    (stepped : f.step event = .ok f') : f'.Sound := by
  cases event with
  | provision => exact sound.provision stepped
  | start => exact sound.start stepped
  | hibernate => exact sound.hibernate orderly stepped
  | wake => exact sound.wake stepped
  | delete => exact sound.delete stepped
  | engineFailed => exact sound.engineFailed stepped
  | advance place succeeds =>
    simp only [Fleet.step] at stepped
    cases taken : f.calls[place]? with
    | none =>
      rw [taken] at stepped
      cases stepped
    | some call =>
      rw [taken] at stepped
      cases stepped
      exact sound.advance taken succeeds orderly

end

theorem down (sound : f.Sound) : f.Down where
  registered _ id engine runs := sound.engines id engine runs
  erased quiet id purged := by
    cases there : f.dirs (tenantDataDir f.dataRoot id) with
    | false => rfl
    | true =>
      obtain ⟨call, listed, -⟩ := sound.erased id purged there
      rw [quiet] at listed
      cases listed

end Sound

/-- Along every run that hibernates and removes tenants only while they are not being
started, they stay down. -/
theorem reaches_down (dataRoot : Bytes) (f : Fleet)
    (reached : Runs.Reaches step Orderly (start dataRoot) f) : f.Down := by
  have sound : f.Sound :=
    reached.invariant (start_sound dataRoot) fun _ _ _ sound orderly stepped =>
      sound.step orderly stepped
  exact sound.down

/-- A tenant is provisioned, and its start takes so many steps. -/
def provisionAcme (steps : Nat) : List LifecycleEvent :=
  .provision (ascii "acme") (ascii "Acme") 0 [] :: List.replicate (steps + 1) (.advance 0 true)

/-- The start has looked at the record before the tenant is purged, and goes on behind it. -/
theorem start_survives_purge :
    ∃ f, Runs.Reaches step (fun _ _ => True) (start (ascii "/data")) f ∧ f.calls = [] ∧
      f.tenants.lookup (ascii "acme") = none ∧ f.instances (ascii "acme") = some 0 ∧
      f.purged (ascii "acme") = true ∧ f.dirs (tenantDataDir f.dataRoot (ascii "acme")) = true ∧
      ¬ f.Down := by
  have done : ∃ f, Runs.run step (fun _ _ => true) (start (ascii "/data"))
      (provisionAcme 2 ++ [.delete (ascii "acme") true] ++ List.replicate 3 (.advance 1 true) ++
        List.replicate 3 (.advance 0 true)) = some f ∧
      f.calls = [] ∧ f.tenants.lookup (ascii "acme") = none ∧ f.instances (ascii "acme") = some 0 ∧
      f.purged (ascii "acme") = true ∧ f.dirs (tenantDataDir f.dataRoot (ascii "acme")) = true :=
    ⟨_, rfl, rfl, rfl, rfl, rfl, rfl⟩
  obtain ⟨f, ran, quiet, absent, runs, purged, there⟩ := done
  refine ⟨f, .run (fun _ _ _ => trivial) .start ran, quiet, absent, runs, purged, there,
    fun down => ?_⟩
  cases (down.erased quiet _ purged).symm.trans there

def orderlyTest (f : Fleet) : LifecycleEvent → Bool
  | .hibernate id =>
    f.calls.all fun call => call.targets.all fun object => (f.heap object).id ≠ id
  | .advance place _ =>
    match f.calls[place]? with
    | some (.remove object ..) =>
      f.calls.all fun call => call.targets.all fun o => (f.heap o).id ≠ (f.heap object).id
    | _ => true
  | _ => true

theorem orderlyTest_orderly {event : LifecycleEvent} (passed : orderlyTest f event = true) :
    f.Orderly event := by
  cases event with
  | hibernate id =>
    intro call listed object target
    simpa using List.all_eq_true.1 (List.all_eq_true.1 passed call listed) object target
  | advance place succeeds =>
    intro object rest id replicaOf purge taken call listed o target
    rw [orderlyTest, taken] at passed
    simpa using List.all_eq_true.1 (List.all_eq_true.1 passed call listed) o target
  | _ => trivial

theorem purge_after_start :
    ∃ f, Runs.Reaches step Orderly (start (ascii "/data")) f ∧ f.calls = [] ∧
      f.purged (ascii "acme") = true ∧ f.Down := by
  have done : ∃ f, Runs.run step orderlyTest (start (ascii "/data"))
      (provisionAcme 5 ++ [.delete (ascii "acme") true] ++ List.replicate 3 (.advance 0 true)) =
        some f ∧ f.calls = [] ∧ f.purged (ascii "acme") = true :=
    ⟨_, rfl, rfl, rfl⟩
  obtain ⟨f, ran, quiet, purged⟩ := done
  have reached : Runs.Reaches step Orderly (start (ascii "/data")) f :=
    .run (fun _ _ => orderlyTest_orderly) .start ran
  exact ⟨f, reached, quiet, purged, reaches_down (ascii "/data") f reached⟩

end Fleet

end Dbx.Orchestrator
