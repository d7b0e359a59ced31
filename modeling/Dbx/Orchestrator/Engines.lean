import Dbx.Orchestrator.Placement

/-!
# Engines behind the tenant table

Which engine is registered for a tenant, and which one answers at an address. An
operation of the control plane changes both in several steps, between which
clients may connect. Operations do not overlap, and one that starts engines in the
background ends with the last of them.
-/

set_option autoImplicit false

namespace Dbx.Orchestrator

open Dbx.Protocol

inductive Address where
  | socket (dataDir : Bytes)
  | port (respPort : Nat)
deriving DecidableEq, Repr

/-- Engines bind a socket in their directory where the system has them. -/
def tenantRESPAddr (unix : Bool) (t : Tenant) : Address :=
  if unix then .socket t.dataDir else .port t.respPort

structure Node where
  manager : Manager
  instances : Bytes → Option Nat
  listening : Address → Option Nat
  nextEngine : Nat
  booting : Option Nat

/-- The steps of the operations. Each locked section is one of them. -/
inductive NodeStep where
  | provision (id name : Bytes) (replicaCount : Int) (vectorEncoding : Bytes)
  | exchange (replicaID : Bytes)
  | remove (t : Tenant)
  | unlist (id replicaOf : Bytes)
  | hibernate (id : Bytes)
  | wake (id : Bytes)
  | stop (engine : Nat)
  | listen (id : Bytes)
  | register (id : Bytes)

/-- The end of `deleteTenant`: the primary forgets a replica. -/
def Manager.unlist (m : Manager) (id replicaOf : Bytes) : Manager :=
  if replicaOf = [] then m
  else
    match m.tenants.lookup replicaOf with
    | none => m
    | some primary =>
      let kept := primary.replicas.filter (· ≠ id)
      { m with tenants := m.tenants.insert replicaOf { primary with replicas := kept } }.saveState

/-- The primary takes over the engine of the replica, and the rest of the set has
none. -/
def Node.moved (node : Node) (replicaID : Bytes) (replica primary : Tenant) (x : Bytes) :
    Option Nat :=
  if x = replica.replicaOf then node.instances replicaID
  else if x = replicaID ∨ x ∈ primary.replicas then none
  else node.instances x

/-- One step. Starting an engine may fail, and does nothing for a tenant that is
hibernated or has one. -/
def Node.exec (unix succeeds : Bool) (node : Node) : NodeStep → Node
  | .provision id name replicaCount vectorEncoding =>
    match node.manager.provisionWith id name replicaCount vectorEncoding with
    | .error _ => node
    | .ok manager => { node with manager }
  | .exchange replicaID =>
    match node.manager.tenants.lookup replicaID with
    | none => node
    | some replica =>
      match node.manager.tenants.lookup replica.replicaOf,
          node.manager.promoteLocal replicaID with
      | some primary, .ok manager =>
        { node with manager, instances := node.moved replicaID replica primary }
      | _, _ => node
  | .remove t =>
    { node with
      manager := node.manager.removeTenant t
      instances := Function.update node.instances t.id none }
  | .unlist id replicaOf => { node with manager := node.manager.unlist id replicaOf }
  | .hibernate id =>
    match node.manager.hibernateTenant id with
    | .error _ => node
    | .ok manager => { node with manager, instances := Function.update node.instances id none }
  | .wake id =>
    match node.manager.wakeTenant id with
    | .error _ => node
    | .ok manager => { node with manager }
  | .stop engine =>
    { node with listening := fun addr => (node.listening addr).filter (· ≠ engine) }
  | .listen id =>
    match node.manager.tenants.lookup id with
    | none => node
    | some t =>
      if t.hibernated ∨ (node.instances id).isSome ∨ !succeeds then node
      else
        { node with
          listening := Function.update node.listening (tenantRESPAddr unix t)
            (some node.nextEngine)
          nextEngine := node.nextEngine + 1
          booting := some node.nextEngine }
  | .register id =>
    match node.booting with
    | none => node
    | some engine =>
      { node with
        instances := Function.update node.instances id (some engine)
        booting := none }

def Node.stops (node : Node) (ids : List Bytes) : List NodeStep :=
  (ids.filterMap node.instances).map .stop

/-- `StartTenant`, for one tenant after another. -/
def starts (ids : List Bytes) : List NodeStep :=
  ids.flatMap fun id => [.listen id, .register id]

def Node.planPromote (node : Node) (replicaID : Bytes) (replica primary : Tenant) :
    List NodeStep :=
  let others := primary.replicas.filter (· ≠ replicaID)
  let stopped := replica.replicaOf :: others
  let hadEngines := (replicaID :: stopped).any fun id => (node.instances id).isSome
  let started := (if (node.instances replicaID).isSome then [] else [replica.replicaOf]) ++
    replicaID :: others.filter (· ∈ node.manager.tenants)
  .exchange replicaID :: node.stops stopped ++ if hadEngines then starts started else []

def Manager.removals (m : Manager) (t : Tenant) : List Tenant :=
  (if t.role ≠ .replica then t.replicas.filterMap m.tenants.lookup else []) ++ [t]

def Node.planDelete (node : Node) (id : Bytes) (t : Tenant) : List NodeStep :=
  ((node.manager.removals t).flatMap fun member => .remove member :: node.stops [member.id]) ++
    [.unlist id t.replicaOf]

def Node.plan (node : Node) : ControlEvent → Except String (List NodeStep)
  | .provision id name replicaCount vectorEncoding =>
    match node.manager.provisionWith id name replicaCount vectorEncoding with
    | .error message => .error message
    | .ok _ =>
      .ok (.provision id name replicaCount vectorEncoding ::
        starts (id :: (List.range' 1 replicaCount.toNat).map (replicaTenantID id)))
  | .promote replicaID =>
    match node.manager.promoteLocal replicaID with
    | .error message => .error message
    | .ok _ =>
      match node.manager.tenants.lookup replicaID with
      | none => .ok []
      | some replica =>
        match node.manager.tenants.lookup replica.replicaOf with
        | none => .ok []
        | some primary => .ok (node.planPromote replicaID replica primary)
  | .delete id _ =>
    match node.manager.tenants.lookup id with
    | none => .error "tenant not found"
    | some t => .ok (node.planDelete id t)
  | .hibernate id =>
    match node.manager.hibernateTenant id with
    | .error message => .error message
    | .ok _ => .ok (.hibernate id :: node.stops [id])
  | .wake id =>
    match node.manager.wakeTenant id with
    | .error message => .error message
    | .ok _ => .ok (.wake id :: starts [id])
  | .restart _ _ => .error "not an operation of a running node"

variable {unix : Bool}

/-- The engine that answers at a tenant's address is the one registered for it. -/
structure Node.Sound (unix : Bool) (node : Node) : Prop where
  manager : node.manager.Sound
  registered : ∀ id, node.instances id = (node.manager.tenants.lookup id).bind fun t =>
    node.listening (tenantRESPAddr unix t)
  owned : ∀ addr engine, node.listening addr = some engine →
    ∃ id t, node.manager.tenants.lookup id = some t ∧ tenantRESPAddr unix t = addr
  single : ∀ addr other engine, node.listening addr = some engine →
    node.listening other = some engine → addr = other
  numbered : ∀ addr engine, node.listening addr = some engine → engine < node.nextEngine
  idle : node.booting = none

/-- However the remaining steps turn out, the node is sound behind them. -/
def Node.Settles (unix : Bool) (node : Node) : List NodeStep → Prop
  | [] => node.Sound unix
  | step :: steps => ∀ succeeds, (node.exec unix succeeds step).Settles unix steps

variable {t : Tenant}

theorem tenantRESPAddr_place {s : Tenant} (same : s.place = t.place) :
    tenantRESPAddr unix s = tenantRESPAddr unix t := by
  have dir : s.dataDir = t.dataDir := congrArg Place.dataDir same
  have port : s.respPort = t.respPort := congrArg Place.respPort same
  rw [tenantRESPAddr, tenantRESPAddr, dir, port]

theorem Manager.Sound.address_inj {m : Manager} (sound : m.Sound) {a b : Bytes} {s : Tenant}
    (left : m.tenants.lookup a = some s) (right : m.tenants.lookup b = some t)
    (same : tenantRESPAddr unix s = tenantRESPAddr unix t) : a = b := by
  by_contra different
  have apart := sound.consistent.apart a b s t left right different
  unfold tenantRESPAddr at same
  cases unix with
  | true =>
    simp only [if_true, Address.socket.injEq] at same
    exact apart.dataDir same
  | false =>
    simp only [Bool.false_eq_true, if_false, Address.port.injEq] at same
    exact apart.respPort same

namespace Node.Sound

variable {node : Node}

theorem listening_of_lookup (sound : node.Sound unix) {id : Bytes} {t : Tenant}
    (found : node.manager.tenants.lookup id = some t) :
    node.listening (tenantRESPAddr unix t) = node.instances id := by
  rw [sound.registered id, found, Option.bind_some]

theorem lookup_of_instance (sound : node.Sound unix) {id : Bytes} {engine : Nat}
    (runs : node.instances id = some engine) :
    ∃ t, node.manager.tenants.lookup id = some t ∧
      node.listening (tenantRESPAddr unix t) = some engine := by
  rw [sound.registered id] at runs
  exact Option.bind_eq_some_iff.mp runs

theorem instance_inj (sound : node.Sound unix) {a b : Bytes} {engine : Nat}
    (left : node.instances a = some engine) (right : node.instances b = some engine) : a = b := by
  obtain ⟨s, foundLeft, listensLeft⟩ := sound.lookup_of_instance left
  obtain ⟨t, foundRight, listensRight⟩ := sound.lookup_of_instance right
  exact sound.manager.address_inj foundLeft foundRight
    (sound.single _ _ engine listensLeft listensRight)

end Node.Sound

def silenced (stopped : List Nat) (listening : Address → Option Nat) (addr : Address) :
    Option Nat :=
  (listening addr).filter (· ∉ stopped)

theorem silenced_eq_some {stopped : List Nat} {listening : Address → Option Nat} {addr : Address}
    {engine : Nat} :
    silenced stopped listening addr = some engine ↔
      listening addr = some engine ∧ engine ∉ stopped := by
  simp [silenced, Option.filter_eq_some_iff]

@[simp] theorem silenced_nil (listening : Address → Option Nat) :
    silenced [] listening = listening := by
  funext addr
  cases runs : listening addr <;> simp [silenced, runs]

variable {steps : List NodeStep}

theorem Node.settles_stops (stopped : List Nat) (node : Node) :
    node.Settles unix (stopped.map .stop ++ steps) ↔
      ({ node with listening := silenced stopped node.listening } : Node).Settles unix steps := by
  induction stopped generalizing node with
  | nil =>
    rw [silenced_nil]
    rfl
  | cons engine stopped ih =>
    have both : silenced stopped (fun addr => (node.listening addr).filter (· ≠ engine)) =
        silenced (engine :: stopped) node.listening := by
      funext addr
      simp only [silenced, Option.filter_filter, List.mem_cons, not_or]
      congr 1
      funext other
      simp
    simp only [List.map_cons, List.cons_append, Settles, exec, ih, both, forall_const]

variable {node : Node}

theorem Node.Sound.silenced_address (sound : node.Sound unix) (ids : List Bytes) {id : Bytes}
    (found : node.manager.tenants.lookup id = some t) :
    silenced (ids.filterMap node.instances) node.listening (tenantRESPAddr unix t) =
      if id ∈ ids then none else node.instances id := by
  rw [silenced, sound.listening_of_lookup found]
  cases runs : node.instances id with
  | none => simp
  | some engine =>
    have stopped : engine ∈ ids.filterMap node.instances ↔ id ∈ ids := by
      rw [List.mem_filterMap]
      constructor
      · rintro ⟨other, member, same⟩
        exact sound.instance_inj same runs ▸ member
      · exact fun member => ⟨id, member, runs⟩
    rw [Option.filter_some]
    simp only [stopped, decide_not, Bool.not_eq_true', decide_eq_false_iff_not, ite_not]

variable {manager : Manager}

theorem Node.Sound.stop (sound : node.Sound unix) (ids : List Bytes)
    {instances : Bytes → Option Nat} (placed : manager.Sound)
    (kept : ∀ id t, node.manager.tenants.lookup id = some t → id ∉ ids →
      ∃ id' t', manager.tenants.lookup id' = some t' ∧
        tenantRESPAddr unix t' = tenantRESPAddr unix t)
    (registered : ∀ id, instances id = (manager.tenants.lookup id).bind fun t =>
      silenced (ids.filterMap node.instances) node.listening (tenantRESPAddr unix t)) :
    ({ node with
      manager, instances
      listening := silenced (ids.filterMap node.instances) node.listening } : Node).Sound unix := by
  constructor
  · exact placed
  · exact registered
  · intro addr engine listens
    obtain ⟨before, running⟩ := silenced_eq_some.mp listens
    obtain ⟨id, t, found, rfl⟩ := sound.owned addr engine before
    have spared : id ∉ ids := by
      intro member
      rw [sound.listening_of_lookup found] at before
      exact running (List.mem_filterMap.mpr ⟨id, member, before⟩)
    exact kept id t found spared
  · intro addr other engine left right
    exact sound.single addr other engine (silenced_eq_some.mp left).1 (silenced_eq_some.mp right).1
  · intro addr engine listens
    exact sound.numbered addr engine (silenced_eq_some.mp listens).1
  · exact sound.idle

theorem Node.exec_listen (unix succeeds : Bool) (node : Node) (id : Bytes) :
    node.exec unix succeeds (.listen id) = node ∨
      ∃ t, node.manager.tenants.lookup id = some t ∧ node.instances id = none ∧
        node.exec unix succeeds (.listen id) =
          { node with
            listening := Function.update node.listening (tenantRESPAddr unix t)
              (some node.nextEngine)
            nextEngine := node.nextEngine + 1
            booting := some node.nextEngine } := by
  simp only [exec]
  cases found : node.manager.tenants.lookup id with
  | none => exact .inl rfl
  | some t =>
    by_cases refused : t.hibernated ∨ (node.instances id).isSome ∨ !succeeds
    · exact .inl (if_pos refused)
    have vacant : node.instances id = none := by
      rw [not_or, not_or] at refused
      exact Option.not_isSome_iff_eq_none.mp refused.2.1
    exact .inr ⟨t, rfl, vacant, if_neg refused⟩

theorem Node.Sound.start (sound : node.Sound unix) {id : Bytes}
    (found : node.manager.tenants.lookup id = some t) (vacant : node.instances id = none) :
    ({ node with
      instances := Function.update node.instances id (some node.nextEngine)
      listening := Function.update node.listening (tenantRESPAddr unix t) (some node.nextEngine)
      nextEngine := node.nextEngine + 1 } : Node).Sound unix := by
  have inversion : ∀ {addr : Address} {engine : Nat},
      Function.update node.listening (tenantRESPAddr unix t) (some node.nextEngine) addr =
        some engine →
      addr = tenantRESPAddr unix t ∧ engine = node.nextEngine ∨
        node.listening addr = some engine := by
    intro addr engine listens
    by_cases same : addr = tenantRESPAddr unix t
    · rw [same, Function.update_self, Option.some.injEq] at listens
      exact .inl ⟨same, listens.symm⟩
    · rw [Function.update_of_ne same] at listens
      exact .inr listens
  constructor
  · exact sound.manager
  · intro other
    by_cases same : other = id
    · subst same
      simp [found]
    simp only [Function.update_of_ne same, sound.registered other]
    cases present : node.manager.tenants.lookup other with
    | none => rfl
    | some s =>
      have different : tenantRESPAddr unix s ≠ tenantRESPAddr unix t := fun equal =>
        same (sound.manager.address_inj present found equal)
      simp only [Option.bind_some, Function.update_of_ne different]
  · intro addr engine listens
    rcases inversion listens with ⟨rfl, -⟩ | before
    · exact ⟨id, t, found, rfl⟩
    · exact sound.owned addr engine before
  · intro addr other engine left right
    rcases inversion left with ⟨rfl, rfl⟩ | before
    · rcases inversion right with ⟨rfl, -⟩ | before
      · rfl
      · exact absurd (sound.numbered other _ before) (Nat.lt_irrefl _)
    · rcases inversion right with ⟨rfl, rfl⟩ | before'
      · exact absurd (sound.numbered addr _ before) (Nat.lt_irrefl _)
      · exact sound.single addr other engine before before'
  · intro addr engine listens
    rcases inversion listens with ⟨-, rfl⟩ | before
    · exact Nat.lt_succ_self _
    · exact (sound.numbered addr engine before).trans (Nat.lt_succ_self _)
  · exact sound.idle

section

variable {id replicaID : Bytes} {replica primary : Tenant} (ids : List Bytes)
  (sound : node.Sound unix)
include sound

theorem Node.settles_starts : node.Settles unix (starts ids) := by
  induction ids generalizing node with
  | nil => exact sound
  | cons id ids ih =>
    intro succeeds registers
    refine ih ?_
    rcases node.exec_listen unix succeeds id with kept | ⟨t, found, vacant, booted⟩
    · rw [kept]
      simp only [exec, sound.idle]
      exact sound
    · rw [booted]
      have started := sound.start found vacant
      rw [sound.idle] at started
      exact started

theorem Node.Sound.vacate (ids : List Bytes) (placed : manager.Sound)
    (smaller : ∀ x place, manager.place x = some place → node.manager.place x = some place)
    (kept : ∀ x, x ∉ ids → manager.place x = node.manager.place x) :
    ({ node with
      manager
      instances := fun x => if x ∈ ids then none else node.instances x
      listening := silenced (ids.filterMap node.instances) node.listening } : Node).Sound unix := by
  have placedAt : ∀ {m : Manager} {x : Bytes} {place : Place}, m.place x = some place →
      ∃ t, m.tenants.lookup x = some t ∧ t.place = place :=
    fun present => Option.map_eq_some_iff.mp present
  refine sound.stop ids placed ?_ ?_
  · intro id t found spared
    obtain ⟨t', found', same⟩ := placedAt
      ((kept id spared).trans (Manager.place_of_lookup found))
    exact ⟨id, t', found', tenantRESPAddr_place same⟩
  · intro id
    cases found' : manager.tenants.lookup id with
    | none =>
      by_cases member : id ∈ ids
      · exact if_pos member
      have missing : node.manager.tenants.lookup id = none := by
        have places := kept id member
        rw [Manager.place, found', Option.map_none] at places
        exact Option.map_eq_none_iff.mp places.symm
      rw [if_neg member, sound.registered id, missing]
      rfl
    | some t' =>
      obtain ⟨t, found, same⟩ := placedAt (smaller id _ (Manager.place_of_lookup found'))
      rw [Option.bind_some, ← tenantRESPAddr_place same, sound.silenced_address ids found]

theorem Node.Sound.withManager (placed : manager.Sound)
    (same : manager.place = node.manager.place) :
    ({ node with manager } : Node).Sound unix := by
  have kept := sound.vacate [] placed (fun x place present => same ▸ present)
    (fun x _ => congrFun same x)
  simpa using kept

theorem Node.settles_hibernate (done : node.manager.hibernateTenant id = .ok manager) :
    node.Settles unix (.hibernate id :: node.stops [id]) := by
  intro succeeds
  rw [stops, ← List.append_nil (List.map _ _), settles_stops]
  simp only [exec, done]
  obtain ⟨tenant, found, rfl⟩ := Manager.hibernateTenant_cases done
  have places := @Manager.place_reset node.manager id tenant { tenant with hibernated := true }
    found rfl
  have vacated := sound.vacate [id] (Manager.hibernateTenant_sound sound.manager done)
    (fun x place present => places ▸ present) (fun x _ => congrFun places x)
  have erased : (fun x => if x ∈ [id] then none else node.instances x) =
      Function.update node.instances id none := by
    funext x
    simp only [List.mem_singleton, Function.update_apply]
  rw [erased] at vacated
  exact vacated

theorem Node.settles_wake (done : node.manager.wakeTenant id = .ok manager) :
    node.Settles unix (.wake id :: starts [id]) := by
  intro succeeds
  refine settles_starts [id] ?_
  simp only [exec, done]
  obtain ⟨tenant, found, rfl⟩ := Manager.wakeTenant_cases done
  exact sound.withManager (Manager.wakeTenant_sound sound.manager done)
    (Manager.place_reset found rfl)

theorem Node.settles_provision {name : Bytes} {replicaCount : Int} {vectorEncoding : Bytes}
    (ids : List Bytes)
    (vacant : node.manager.Vacant (.provision id name replicaCount vectorEncoding))
    (done : node.manager.provisionWith id name replicaCount vectorEncoding = .ok manager) :
    node.Settles unix (.provision id name replicaCount vectorEncoding :: starts ids) := by
  intro succeeds
  refine settles_starts ids ?_
  simp only [exec, done]
  have placed := Manager.provisionWith_sound sound.manager vacant done
  obtain ⟨count, rfl, -, -, fresh, provisioned, -⟩ := Manager.provisionWith_cases done
  have old : ∀ x t, node.manager.tenants.lookup x = some t →
      manager.tenants.lookup x = some t := by
    intro x t found
    refine (provisioned.other x fun n high same => ?_).trans found
    rw [same, fresh n high] at found
    cases found
  have registered : ∀ x, node.instances x = (manager.tenants.lookup x).bind fun t =>
      node.listening (tenantRESPAddr unix t) := by
    intro x
    cases before : node.manager.tenants.lookup x with
    | some t => rw [sound.registered x, before, old x t before]
    | none =>
      rw [sound.registered x, before, Option.bind_none]
      cases after : manager.tenants.lookup x with
      | none => rfl
      | some t =>
        -- An engine at the new address would be that of an older tenant.
        cases listens : node.listening (tenantRESPAddr unix t) with
        | none => exact listens.symm
        | some engine =>
          obtain ⟨other, s, found, same⟩ := sound.owned _ engine listens
          have equal := placed.address_inj (old other s found) after same
          rw [equal, before] at found
          cases found
  have kept := sound.stop [] placed (fun x t found _ => ⟨x, t, old x t found, rfl⟩)
    (by simpa using registered)
  simpa using kept

theorem Node.Sound.promote (found : node.manager.tenants.lookup replicaID = some replica)
    (owner : node.manager.tenants.lookup replica.replicaOf = some primary)
    (done : node.manager.promoteLocal replicaID = .ok manager) :
    ({ node with
      manager
      instances := node.moved replicaID replica primary
      listening := silenced ((replica.replicaOf ::
        primary.replicas.filter (· ≠ replicaID)).filterMap node.instances) node.listening
    } : Node).Sound unix := by
  obtain ⟨different, atReplica, atPrimary, elsewhere⟩ :=
    Manager.promoteLocal_lookup sound.manager found owner done
  refine sound.stop _ (Manager.promoteLocal_sound sound.manager done) ?_ ?_
  · intro id t present spared
    by_cases isReplica : id = replicaID
    · subst isReplica
      cases present.symm.trans found
      exact ⟨_, _, atPrimary, rfl⟩
    · have isPrimary : id ≠ replica.replicaOf := fun same => spared (same ▸ List.mem_cons_self ..)
      exact ⟨id, t, (elsewhere id isReplica isPrimary).trans present, rfl⟩
  · intro id
    by_cases isPrimary : id = replica.replicaOf
    · have taken : tenantRESPAddr unix (primary.exchange replica) = tenantRESPAddr unix replica :=
        rfl
      have spared : replicaID ∉ replica.replicaOf :: primary.replicas.filter (· ≠ replicaID) := by
        simp [different.symm]
      rw [moved, if_pos isPrimary, isPrimary, atPrimary, Option.bind_some, taken,
        sound.silenced_address _ found, if_neg spared]
    by_cases isReplica : id = replicaID
    · have taken : tenantRESPAddr unix (replica.exchange primary) = tenantRESPAddr unix primary :=
        rfl
      rw [moved, if_neg isPrimary, if_pos (.inl isReplica), isReplica, atReplica, Option.bind_some,
        taken, sound.silenced_address _ owner, if_pos (List.mem_cons_self ..)]
    rw [elsewhere id isReplica isPrimary, moved, if_neg isPrimary]
    have member : id ∈ replica.replicaOf :: primary.replicas.filter (· ≠ replicaID) ↔
        id = replicaID ∨ id ∈ primary.replicas := by
      simp [isPrimary, isReplica]
    cases present : node.manager.tenants.lookup id with
    | none =>
      rw [sound.registered id, present]
      simp
    | some t =>
      rw [Option.bind_some, sound.silenced_address _ present]
      simp only [member]

theorem Node.settles_promote (found : node.manager.tenants.lookup replicaID = some replica)
    (owner : node.manager.tenants.lookup replica.replicaOf = some primary)
    (done : node.manager.promoteLocal replicaID = .ok manager) :
    node.Settles unix (node.planPromote replicaID replica primary) := by
  intro succeeds
  rw [List.append_eq, stops, settles_stops]
  simp only [exec, found, owner, done]
  have promoted := sound.promote found owner done
  split
  · exact settles_starts _ promoted
  · exact promoted

end

theorem silenced_silenced (stopped others : List Nat) (listening : Address → Option Nat) :
    silenced others (silenced stopped listening) = silenced (stopped ++ others) listening := by
  funext addr
  simp only [silenced, Option.filter_filter, List.mem_append, not_or]
  congr 1
  funext engine
  simp

theorem Node.settles_removes (instances : Bytes → Option Nat) (ts : List Tenant) (node : Node) :
    node.Settles unix ((ts.flatMap fun t =>
        .remove t :: ([t.id].filterMap instances).map .stop) ++ steps) ↔
      ({ node with
        manager := ts.foldl Manager.removeTenant node.manager
        instances := fun x => if x ∈ ts.map Tenant.id then none else node.instances x
        listening := silenced ((ts.map Tenant.id).filterMap instances) node.listening
      } : Node).Settles unix steps := by
  induction ts generalizing node with
  | nil => simp
  | cons t ts ih =>
    have erased : (fun x => if x ∈ ts.map Tenant.id then none
          else Function.update node.instances t.id none x) =
        fun x => if x ∈ (t :: ts).map Tenant.id then none else node.instances x := by
      funext x
      by_cases same : x = t.id
      · simp [same]
      · simp [same]
    have stopped : silenced ((ts.map Tenant.id).filterMap instances)
          (silenced ([t.id].filterMap instances) node.listening) =
        silenced (((t :: ts).map Tenant.id).filterMap instances) node.listening := by
      rw [silenced_silenced, ← List.filterMap_append]
      rfl
    simp only [List.flatMap_cons, List.cons_append, List.append_assoc, Settles, settles_stops, ih,
      exec, stopped, erased, List.foldl_cons, forall_const]

theorem Manager.deleteTenant_eq {m : Manager} {id : Bytes} (found : m.tenants.lookup id = some t) :
    m.deleteTenant id = .ok (((m.removals t).foldl removeTenant m).unlist id t.replicaOf) := by
  have removed :
      ((if t.role ≠ .replica then t.replicas.filterMap m.tenants.lookup else []) ++ [t]) =
        m.removals t := rfl
  simp only [deleteTenant, found, removed, unlist]
  generalize (m.removals t).foldl removeTenant m = after
  split
  · rfl
  · cases after.tenants.lookup t.replicaOf <;> rfl

theorem Node.settles_delete (sound : node.Sound unix) {id : Bytes}
    (found : node.manager.tenants.lookup id = some t) :
    node.Settles unix (node.planDelete id t) := by
  have done := Manager.deleteTenant_eq found
  have ids : (node.manager.removals t).map Tenant.id = t.replicas ++ [id] := by
    rw [Manager.removals, List.map_append, sound.manager.members found]
    simp [sound.manager.filed id t found]
  have placed := Manager.deleteTenant_sound sound.manager done
  obtain ⟨t', table, found', changed, records⟩ := Manager.deleteTenant_cases sound.manager done
  cases found.symm.trans found'
  rw [changed] at placed
  have places : ∀ x, ({ node.manager with tenants := table } : Manager).saveState.place x =
      if x ∈ t.replicas ++ [id] then none else node.manager.place x := by
    intro x
    have kept (s : Tenant) : (if x = t.replicaOf then s.dropReplica id else s).place = s.place := by
      split <;> rfl
    have member : x ∈ t.replicas ++ [id] ↔ x = id ∨ x ∈ t.replicas := by
      simp [or_comm]
    rw [Manager.place, Manager.place, Manager.saveState, records x]
    simp only [member]
    split
    · rfl
    rw [Option.map_map]
    congr 1
    funext s
    exact kept s
  have vacated := sound.vacate (t.replicas ++ [id]) placed
    (fun x place present => ?_) (fun x spared => (places x).trans (if_neg spared))
  · unfold planDelete stops
    rw [settles_removes, ids]
    intro succeeds
    simp only [exec, changed]
    exact vacated
  · rw [places x] at present
    split at present
    · cases present
    · exact present

theorem Node.plan_settles {event : ControlEvent} (sound : node.Sound unix)
    (vacant : node.manager.Vacant event) (planned : node.plan event = .ok steps) :
    node.Settles unix steps := by
  cases event with
  | provision id name replicaCount vectorEncoding =>
    simp only [plan] at planned
    cases done : node.manager.provisionWith id name replicaCount vectorEncoding with
    | error message => rw [done] at planned; cases planned
    | ok manager =>
      rw [done] at planned
      cases planned
      exact settles_provision sound _ vacant done
  | promote replicaID =>
    simp only [plan] at planned
    cases done : node.manager.promoteLocal replicaID with
    | error message => rw [done] at planned; cases planned
    | ok manager =>
      obtain ⟨replica, primary, found, -, owner, -⟩ := Manager.promoteLocal_cases done
      simp only [done, found, owner, Except.ok.injEq] at planned
      exact planned ▸ settles_promote sound found owner done
  | delete id purge =>
    simp only [plan] at planned
    cases found : node.manager.tenants.lookup id with
    | none => rw [found] at planned; cases planned
    | some t =>
      rw [found] at planned
      cases planned
      exact settles_delete sound found
  | hibernate id =>
    simp only [plan] at planned
    cases done : node.manager.hibernateTenant id with
    | error message => rw [done] at planned; cases planned
    | ok manager =>
      rw [done] at planned
      cases planned
      exact settles_hibernate sound done
  | wake id =>
    simp only [plan] at planned
    cases done : node.manager.wakeTenant id with
    | error message => rw [done] at planned; cases planned
    | ok manager =>
      rw [done] at planned
      cases planned
      exact settles_wake sound done
  | restart dataRoot order => cases planned

end Dbx.Orchestrator
