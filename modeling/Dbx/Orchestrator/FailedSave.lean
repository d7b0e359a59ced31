import Dbx.Orchestrator.Engines

/-!
# Calls whose save fails

The operations of the control plane change the tenant table and the registered
engines before they save the table. When the save fails, some of them take back by
hand what they have changed, and some do not. What an operation does behind its
last save is left out here.
-/

set_option autoImplicit false

namespace Dbx.Orchestrator

open Dbx.Protocol

inductive ControlCall where
  | provisionWith (id name : Bytes) (replicaCount : Int) (vectorEncoding : Bytes)
  | deleteTenant (id : Bytes)
  | hibernateTenant (id : Bytes)
  | wakeTenant (id : Bytes) (requireHibernated : Bool)
  | createTenantKey (tenantID : Bytes) (key : TenantKey)
  | revokeTenantKey (tenantID keyID : Bytes)
  | promote (replicaID : Bytes)

structure CallOutcome where
  result : Except String Unit
  node : Node
  unsaved : Bool

def CallOutcome.andThen (outcome : CallOutcome) (next : Node → CallOutcome) : CallOutcome :=
  match outcome.result with
  | .ok () => next outcome.node
  | .error _ => outcome

namespace Node

def refuse (node : Node) (message : String) : CallOutcome := ⟨.error message, node, false⟩

def saveState (failure : Option String) (changed restored : Node)
    (wrap : String → String := fun message => message) : CallOutcome :=
  match failure with
  | none => ⟨.ok (), { changed with manager := changed.manager.saveState }, false⟩
  | some message => ⟨.error (wrap message), restored, true⟩

def setTenant (node : Node) (id : Bytes) (t : Tenant) : Node :=
  { node with manager := { node.manager with tenants := node.manager.tenants.insert id t } }

def provisionWith (failure : Option String) (node : Node) (id name : Bytes) (replicaCount : Int)
    (vectorEncoding : Bytes) : CallOutcome :=
  match node.manager.provisionWith id name replicaCount vectorEncoding with
  | .error message => node.refuse message
  | .ok manager =>
    let entered := { node with manager := { manager with saved := node.manager.saved } }
    saveState failure entered entered

def removeTenant (failure : Option String) (node : Node) (t : Tenant) : CallOutcome :=
  let removed :=
    { node with
      manager := { node.manager with tenants := node.manager.tenants.erase t.id }
      instances := Function.update node.instances t.id none
      listening := silenced (node.instances t.id).toList node.listening }
  saveState failure removed removed

/-- The `n`-th save of the call is the one for the first of the records. -/
def removeTenants (save : Nat → Option String) : Nat → List Tenant → Node → CallOutcome
  | _, [], node => ⟨.ok (), node, false⟩
  | n, t :: rest, node =>
    (removeTenant (save n) node t).andThen (removeTenants save (n + 1) rest)

def unlist (failure : Option String) (id replicaOf : Bytes) (node : Node) : CallOutcome :=
  if replicaOf = [] then ⟨.ok (), node, false⟩
  else
    match node.manager.tenants.lookup replicaOf with
    | none => ⟨.ok (), node, false⟩
    | some primary =>
      let kept := primary.replicas.filter (· ≠ id)
      let unlisted := node.setTenant replicaOf { primary with replicas := kept }
      saveState failure unlisted unlisted

def deleteTenant (save : Nat → Option String) (node : Node) (id : Bytes) : CallOutcome :=
  match node.manager.tenants.lookup id with
  | none => node.refuse "tenant not found"
  | some t =>
    let removals := node.manager.removals t
    (removeTenants save 0 removals node).andThen (unlist (save removals.length) id t.replicaOf)

def hibernateTenant (failure : Option String) (node : Node) (id : Bytes) : CallOutcome :=
  match node.manager.tenants.lookup id with
  | none => node.refuse "tenant not found"
  | some tenant =>
    if tenant.role = .replica then
      node.refuse ("hibernate the primary, not replica " ++ rawText id)
    else
      let changed :=
        { node.setTenant id { tenant with hibernated := true } with
          instances := Function.update node.instances id none }
      saveState failure changed (node.setTenant id { tenant with hibernated := false })
        ("persist hibernation state: " ++ ·)

def wakeTenant (failure : Option String) (node : Node) (id : Bytes) (requireHibernated : Bool) :
    CallOutcome :=
  match node.manager.tenants.lookup id with
  | none => node.refuse "tenant not found"
  | some tenant =>
    if requireHibernated && !tenant.hibernated then node.refuse "tenant is not hibernated"
    else
      saveState failure (node.setTenant id { tenant with hibernated := false })
        (node.setTenant id { tenant with hibernated := true }) ("persist wake state: " ++ ·)

def createTenantKey (failure : Option String) (node : Node) (tenantID : Bytes)
    (key : TenantKey) : CallOutcome :=
  if key.name = [] then node.refuse "key name is required"
  else
    match node.manager.tenants.lookup tenantID with
    | none => node.refuse "tenant not found"
    | some tenant =>
      let keys := tenant.keys.insert key.id key
      saveState failure (node.setTenant tenantID { tenant with keys })
        (node.setTenant tenantID { tenant with keys := keys.erase key.id })

def revokeTenantKey (failure : Option String) (node : Node) (tenantID keyID : Bytes) :
    CallOutcome :=
  match node.manager.tenants.lookup tenantID with
  | none => node.refuse "tenant not found"
  | some tenant =>
    match tenant.keys.lookup keyID with
    | none => node.refuse "tenant key not found"
    | some key =>
      let revoked := { key with revoked := true, generation := key.generation + 1 }
      let revived := { revoked with revoked := false, generation := revoked.generation - 1 }
      saveState failure
        (node.setTenant tenantID { tenant with keys := tenant.keys.replace keyID revoked })
        (node.setTenant tenantID { tenant with keys := tenant.keys.replace keyID revived })

/-- The exchange of `promoteLocal`, with the engines that it stops. A record that is
its own primary ends without an engine. -/
def exchanged (node : Node) (replicaID : Bytes) (replica primary : Tenant) : Node :=
  let others := primary.replicas.filter (· ≠ replicaID)
  { node with
    manager := { node.manager with
      tenants := (node.manager.tenants.insert replica.replicaOf (primary.exchange replica)).insert
        replicaID (replica.exchange primary) }
    instances := Function.update (node.moved replicaID replica primary) replicaID none
    listening := silenced ((replica.replicaOf :: others).filterMap node.instances) node.listening }

def promoteLocal (failure : Option String) (node : Node) (replicaID : Bytes) : CallOutcome :=
  match node.manager.tenants.lookup replicaID with
  | none => node.refuse ("tenant " ++ rawText replicaID ++ " is not a replica")
  | some replica =>
    if replica.role ≠ .replica ∨ replica.replicaOf = [] then
      node.refuse ("tenant " ++ rawText replicaID ++ " is not a replica")
    else
      match node.manager.tenants.lookup replica.replicaOf with
      | none => node.refuse ("primary " ++ rawText replica.replicaOf ++ " not found")
      | some primary =>
        let changed := node.exchanged replicaID replica primary
        saveState failure changed changed

/-- A call, whose saves fail as `save` says. -/
def call (save : Nat → Option String) (node : Node) : ControlCall → CallOutcome
  | .provisionWith id name replicaCount vectorEncoding =>
    node.provisionWith (save 0) id name replicaCount vectorEncoding
  | .deleteTenant id => node.deleteTenant save id
  | .hibernateTenant id => node.hibernateTenant (save 0) id
  | .wakeTenant id requireHibernated => node.wakeTenant (save 0) id requireHibernated
  | .createTenantKey tenantID key => node.createTenantKey (save 0) tenantID key
  | .revokeTenantKey tenantID keyID => node.revokeTenantKey (save 0) tenantID keyID
  | .promote replicaID => node.promoteLocal (save 0) replicaID

structure Unchanged (before after : Node) : Prop where
  tenants : ∀ id, after.manager.tenants.lookup id = before.manager.tenants.lookup id
  instances : ∀ id, after.instances id = before.instances id
  listening : ∀ addr, after.listening addr = before.listening addr

def Restorable (node : Node) : ControlCall → Prop
  | .provisionWith .. => False
  | .deleteTenant _ => False
  | .hibernateTenant id =>
    ∀ t, node.manager.tenants.lookup id = some t → t.hibernated = false
  | .wakeTenant id _ =>
    ∀ t, node.manager.tenants.lookup id = some t → t.hibernated = true
  | .createTenantKey tenantID key =>
    ∀ t, node.manager.tenants.lookup tenantID = some t → key.id ∉ t.keys
  | .revokeTenantKey tenantID keyID =>
    ∀ t, node.manager.tenants.lookup tenantID = some t →
      ∀ key, t.keys.lookup keyID = some key → key.revoked = false
  | .promote replicaID =>
    ∀ replica, node.manager.tenants.lookup replicaID = some replica →
      ∀ primary, node.manager.tenants.lookup replica.replicaOf = some primary →
        replica.place = primary.place ∧
          ∀ id ∈ replicaID :: replica.replicaOf :: primary.replicas, node.instances id = none

/-- With a failed save the call fails, and leaves no trace under the condition only. -/
def Judged (node : Node) (outcome : CallOutcome) (condition : Prop) : Prop :=
  outcome.unsaved = true →
    (∃ message, outcome.result = .error message) ∧ (node.Unchanged outcome.node ↔ condition)

theorem judged_refuse (node : Node) (message : String) (condition : Prop) :
    node.Judged (node.refuse message) condition :=
  fun unsaved => nomatch unsaved

theorem saveState_error {failure : Option String} {changed restored : Node}
    {wrap : String → String} (unsaved : (saveState failure changed restored wrap).unsaved = true) :
    ∃ message, (saveState failure changed restored wrap).result = .error message := by
  cases failure with
  | none => cases unsaved
  | some message => exact ⟨wrap message, rfl⟩

theorem judged_saveState {node : Node} {failure : Option String} {changed restored : Node}
    {wrap : String → String} {condition : Prop}
    (left : node.Unchanged restored ↔ condition) :
    node.Judged (saveState failure changed restored wrap) condition := by
  intro unsaved
  refine ⟨saveState_error unsaved, ?_⟩
  cases failure with
  | none => cases unsaved
  | some message => exact left

theorem unchanged_setTenant_iff {node : Node} {id : Bytes} {t t' : Tenant}
    (found : node.manager.tenants.lookup id = some t) :
    node.Unchanged (node.setTenant id t') ↔ t' = t := by
  constructor
  · intro same
    have written := same.tenants id
    rw [found] at written
    exact Option.some.inj ((AList.lookup_insert _).symm.trans written)
  · rintro rfl
    refine ⟨fun x => ?_, fun _ => rfl, fun _ => rfl⟩
    by_cases here : x = id
    · rw [here, found]
      exact AList.lookup_insert _
    · exact AList.lookup_insert_ne here

section

variable (failure : Option String) (node : Node) (id : Bytes)

theorem hibernateTenant_judged :
    node.Judged (node.hibernateTenant failure id) (node.Restorable (.hibernateTenant id)) := by
  unfold hibernateTenant
  cases found : node.manager.tenants.lookup id with
  | none => exact judged_refuse _ _ _
  | some t =>
    by_cases replica : t.role = .replica
    · simp only [if_pos replica]
      exact judged_refuse _ _ _
    simp only [if_neg replica]
    refine judged_saveState ((unchanged_setTenant_iff found).trans ?_)
    constructor
    · intro same t' present
      cases present.symm.trans found
      exact (congrArg Tenant.hibernated same).symm
    · intro awake
      exact congrArg (fun flag => { t with hibernated := flag }) (awake t found).symm

theorem wakeTenant_judged (requireHibernated : Bool) :
    node.Judged (node.wakeTenant failure id requireHibernated)
      (node.Restorable (.wakeTenant id requireHibernated)) := by
  unfold wakeTenant
  cases found : node.manager.tenants.lookup id with
  | none => exact judged_refuse _ _ _
  | some t =>
    by_cases awake : (requireHibernated && !t.hibernated) = true
    · simp only [if_pos awake]
      exact judged_refuse _ _ _
    simp only [if_neg awake]
    refine judged_saveState ((unchanged_setTenant_iff found).trans ?_)
    constructor
    · intro same t' present
      cases present.symm.trans found
      exact (congrArg Tenant.hibernated same).symm
    · intro asleep
      exact congrArg (fun flag => { t with hibernated := flag }) (asleep t found).symm

theorem createTenantKey_judged (tenantID : Bytes) (key : TenantKey) :
    node.Judged (node.createTenantKey failure tenantID key)
      (node.Restorable (.createTenantKey tenantID key)) := by
  unfold createTenantKey
  by_cases unnamed : key.name = []
  · rw [if_pos unnamed]
    exact judged_refuse _ _ _
  rw [if_neg unnamed]
  cases found : node.manager.tenants.lookup tenantID with
  | none => exact judged_refuse _ _ _
  | some t =>
    refine judged_saveState ((unchanged_setTenant_iff found).trans ?_)
    constructor
    · intro same t' present
      cases present.symm.trans found
      have keys : (t.keys.insert key.id key).erase key.id = t.keys := congrArg Tenant.keys same
      rw [← keys, AList.mem_erase]
      exact fun both => both.1 rfl
    · intro fresh
      have keys : (t.keys.insert key.id key).erase key.id = t.keys := by
        apply AList.ext
        change List.kerase key.id (t.keys.insert key.id key).entries = t.keys.entries
        rw [AList.entries_insert_of_notMem (fresh t found)]
        exact List.kerase_cons_eq rfl
      rw [keys]

/-- The count of a credential comes back, its mark only if it was not there before. -/
theorem revokeTenantKey_judged (tenantID keyID : Bytes) :
    node.Judged (node.revokeTenantKey failure tenantID keyID)
      (node.Restorable (.revokeTenantKey tenantID keyID)) := by
  unfold revokeTenantKey
  cases found : node.manager.tenants.lookup tenantID with
  | none => exact judged_refuse _ _ _
  | some t =>
    dsimp only
    cases held : t.keys.lookup keyID with
    | none => exact judged_refuse _ _ _
    | some key =>
      have count : key.generation + 1 - 1 = key.generation := UInt64.add_sub_cancel _ _
      refine judged_saveState ((unchanged_setTenant_iff found).trans ?_)
      rw [count]
      constructor
      · intro same t' present key' present'
        cases present.symm.trans found
        cases present'.symm.trans held
        have keys : t.keys.replace keyID { key with revoked := false } = t.keys :=
          congrArg Tenant.keys same
        have written : (t.keys.replace keyID { key with revoked := false }).lookup keyID =
            some { key with revoked := false } :=
          KeyedStore.lookup_replace _ (AList.lookup_isSome.1 (by rw [held]; rfl))
        rw [keys, held, Option.some.injEq] at written
        rw [written]
      · intro valid
        have same : ({ key with revoked := false } : TenantKey) = key :=
          congrArg (fun flag => { key with revoked := flag }) (valid t found key held).symm
        have keys : t.keys.replace keyID key = t.keys :=
          AList.ext (List.kreplace_self t.keys.nodupKeys (AList.mem_lookup_iff.1 held))
        rw [same, keys]

theorem provisionWith_judged (name : Bytes) (replicaCount : Int) (vectorEncoding : Bytes) :
    node.Judged (node.provisionWith failure id name replicaCount vectorEncoding)
      (node.Restorable (.provisionWith id name replicaCount vectorEncoding)) := by
  unfold provisionWith
  cases done : node.manager.provisionWith id name replicaCount vectorEncoding with
  | error message => exact judged_refuse _ _ _
  | ok manager =>
    refine judged_saveState (iff_false_intro fun same => ?_)
    obtain ⟨count, -, -, -, free, entered, -⟩ := Manager.provisionWith_cases done
    obtain ⟨t, present, -⟩ := entered.member 0 (Nat.zero_le _)
    have before := free 0 (Nat.zero_le _)
    rw [← same.tenants] at before
    cases before.symm.trans present

theorem andThen_absent {outcome : CallOutcome} {next : Node → CallOutcome} {id : Bytes}
    (first : outcome.node.manager.tenants.lookup id = none)
    (later : ∀ node : Node, node.manager.tenants.lookup id = none →
      (next node).node.manager.tenants.lookup id = none) :
    (outcome.andThen next).node.manager.tenants.lookup id = none := by
  unfold CallOutcome.andThen
  split
  · exact later _ first
  · exact first

theorem andThen_error {outcome : CallOutcome} {next : Node → CallOutcome}
    (later : ∀ node, (next node).unsaved = true → ∃ message, (next node).result = .error message)
    (unsaved : (outcome.andThen next).unsaved = true) :
    ∃ message, (outcome.andThen next).result = .error message := by
  unfold CallOutcome.andThen at unsaved ⊢
  split
  · next done =>
    rw [done] at unsaved
    exact later _ unsaved
  · next message failed => exact ⟨message, failed⟩

@[simp] theorem saveState_self_tenants (wrap : String → String) :
    (saveState failure node node wrap).node.manager.tenants = node.manager.tenants := by
  cases failure <;> rfl

@[simp] theorem removeTenant_tenants (t : Tenant) :
    (removeTenant failure node t).node.manager.tenants = node.manager.tenants.erase t.id :=
  saveState_self_tenants ..

theorem removeTenants_absent (save : Nat → Option String) (ts : List Tenant) {id : Bytes} :
    ∀ (n : Nat) (node : Node), node.manager.tenants.lookup id = none →
      (removeTenants save n ts node).node.manager.tenants.lookup id = none := by
  induction ts with
  | nil => exact fun _ _ absent => absent
  | cons t ts ih =>
    intro n node absent
    refine andThen_absent ?_ (ih (n + 1))
    rw [removeTenant_tenants]
    by_cases same : id = t.id
    · rw [same, AList.lookup_erase]
    · rw [AList.lookup_erase_ne same, absent]

theorem unlist_absent (x replicaOf : Bytes) {id : Bytes} (node : Node)
    (absent : node.manager.tenants.lookup id = none) :
    (unlist failure x replicaOf node).node.manager.tenants.lookup id = none := by
  unfold unlist
  by_cases unowned : replicaOf = []
  · rw [if_pos unowned]
    exact absent
  rw [if_neg unowned]
  cases owner : node.manager.tenants.lookup replicaOf with
  | none => exact absent
  | some primary =>
    have other : id ≠ replicaOf := by
      rintro rfl
      cases absent.symm.trans owner
    dsimp only
    rw [saveState_self_tenants]
    exact (AList.lookup_insert_ne other).trans absent

theorem unlist_error (replicaOf : Bytes) (node : Node)
    (unsaved : (unlist failure id replicaOf node).unsaved = true) :
    ∃ message, (unlist failure id replicaOf node).result = .error message := by
  unfold unlist at unsaved ⊢
  by_cases unowned : replicaOf = []
  · rw [if_pos unowned] at unsaved
    cases unsaved
  rw [if_neg unowned] at unsaved ⊢
  cases owner : node.manager.tenants.lookup replicaOf with
  | none =>
    rw [owner] at unsaved
    cases unsaved
  | some primary =>
    rw [owner] at unsaved
    exact saveState_error unsaved

theorem removals_head {m : Manager} (filed : ∀ id t, m.tenants.lookup id = some t → t.id = id)
    {id : Bytes} {t : Tenant} (found : m.tenants.lookup id = some t) :
    ∃ first rest, m.removals t = first :: rest ∧ m.tenants.lookup first.id = some first := by
  have all : ∀ member ∈ m.removals t, m.tenants.lookup member.id = some member := by
    intro member taken
    rw [Manager.removals, List.mem_append, List.mem_singleton] at taken
    rcases taken with listed | rfl
    · by_cases replica : t.role = .replica
      · simp [replica] at listed
      rw [if_pos replica, List.mem_filterMap] at listed
      obtain ⟨x, -, present⟩ := listed
      rw [filed x member present, present]
    · rw [filed id member found, found]
  cases order : m.removals t with
  | nil => simp [Manager.removals] at order
  | cons first rest => exact ⟨first, rest, rfl, all first (order ▸ List.mem_cons_self ..)⟩

theorem deleteTenant_judged (save : Nat → Option String) (node : Node) (id : Bytes)
    (filed : ∀ id t, node.manager.tenants.lookup id = some t → t.id = id) :
    node.Judged (node.deleteTenant save id) (node.Restorable (.deleteTenant id)) := by
  unfold deleteTenant
  cases found : node.manager.tenants.lookup id with
  | none => exact judged_refuse _ _ _
  | some t =>
    intro unsaved
    refine ⟨andThen_error (unlist_error _ _ _) unsaved,
      iff_false_intro fun same => ?_⟩
    obtain ⟨first, rest, order, present⟩ := removals_head filed found
    have gone : ((removeTenants save 0 (node.manager.removals t) node).andThen
        (unlist (save (node.manager.removals t).length) id t.replicaOf)
        ).node.manager.tenants.lookup first.id = none := by
      refine andThen_absent ?_ (unlist_absent _ _ _)
      rw [order]
      refine andThen_absent ?_ (removeTenants_absent save rest 1)
      rw [removeTenant_tenants, AList.lookup_erase]
    cases gone.symm.trans ((same.tenants first.id).trans present)

theorem exchange_eq_self_iff (t other : Tenant) : t.exchange other = t ↔ other.place = t.place := by
  constructor
  · intro same
    rw [← same]
    rfl
  · intro same
    obtain ⟨dataDir, http, resp, repl⟩ := Place.mk.inj same
    rw [Tenant.exchange, dataDir, http, resp, repl]

theorem unchanged_exchanged_iff {node : Node} {replicaID : Bytes} {replica primary : Tenant}
    (found : node.manager.tenants.lookup replicaID = some replica)
    (owner : node.manager.tenants.lookup replica.replicaOf = some primary) :
    node.Unchanged (node.exchanged replicaID replica primary) ↔
      replica.place = primary.place ∧
        ∀ id ∈ replicaID :: replica.replicaOf :: primary.replicas, node.instances id = none := by
  constructor
  · intro same
    have written := same.tenants replicaID
    rw [found] at written
    have kept : replica.exchange primary = replica :=
      Option.some.inj ((AList.lookup_insert _).symm.trans written)
    have moved : ∀ id, id ≠ replicaID → node.moved replicaID replica primary id =
        node.instances id :=
      fun id other => (Function.update_of_ne other ..).symm.trans (same.instances id)
    have idle : node.instances replicaID = none :=
      (same.instances replicaID).symm.trans (Function.update_self ..)
    refine ⟨((exchange_eq_self_iff _ _).1 kept).symm, fun id listed => ?_⟩
    by_cases here : id = replicaID
    · rw [here, idle]
    rw [← moved id here, Node.moved]
    by_cases served : id = replica.replicaOf
    · rw [if_pos served, idle]
    · rw [List.mem_cons, List.mem_cons, or_iff_right here, or_iff_right served] at listed
      rw [if_neg served, if_pos (Or.inr listed)]
  · rintro ⟨place, idle⟩
    refine ⟨fun x => ?_, fun x => ?_, fun addr => ?_⟩
    · have primaryKept := (exchange_eq_self_iff primary replica).2 place
      have replicaKept := (exchange_eq_self_iff replica primary).2 place.symm
      simp only [exchanged, primaryKept, replicaKept]
      by_cases here : x = replicaID
      · rw [here, found, AList.lookup_insert]
      rw [AList.lookup_insert_ne here]
      by_cases served : x = replica.replicaOf
      · rw [served, owner, AList.lookup_insert]
      · rw [AList.lookup_insert_ne served]
    · by_cases here : x = replicaID
      · rw [here, idle replicaID (by simp)]
        exact Function.update_self ..
      refine (Function.update_of_ne here ..).trans ?_
      rw [Node.moved]
      by_cases served : x = replica.replicaOf
      · rw [if_pos served, served, idle replicaID (by simp), idle replica.replicaOf (by simp)]
      rw [if_neg served]
      by_cases listed : x ∈ primary.replicas
      · rw [if_pos (Or.inr listed), idle x (by simp [listed])]
      · rw [if_neg (by simp [here, listed])]
    · have none : (replica.replicaOf :: primary.replicas.filter (· ≠ replicaID)).filterMap
          node.instances = [] := by
        rw [List.filterMap_eq_nil_iff]
        intro x listed
        rw [List.mem_cons, List.mem_filter] at listed
        exact idle x (by rcases listed with rfl | ⟨listed, -⟩ <;> simp [*])
      simp only [exchanged, none, silenced_nil]

theorem promoteLocal_judged (replicaID : Bytes) :
    node.Judged (node.promoteLocal failure replicaID) (node.Restorable (.promote replicaID)) := by
  unfold promoteLocal
  cases found : node.manager.tenants.lookup replicaID with
  | none => exact judged_refuse _ _ _
  | some replica =>
    dsimp only
    by_cases other : replica.role ≠ .replica ∨ replica.replicaOf = []
    · rw [if_pos other]
      exact judged_refuse _ _ _
    rw [if_neg other]
    cases owner : node.manager.tenants.lookup replica.replicaOf with
    | none => exact judged_refuse _ _ _
    | some primary =>
      refine judged_saveState ((unchanged_exchanged_iff found owner).trans ⟨?_, ?_⟩)
      · intro restorable replica' present primary' present'
        cases present.symm.trans found
        cases present'.symm.trans owner
        exact restorable
      · exact fun restorable => restorable replica found primary owner

end

theorem call_judged (save : Nat → Option String) (node : Node)
    (filed : ∀ id t, node.manager.tenants.lookup id = some t → t.id = id) (call : ControlCall) :
    node.Judged (node.call save call) (node.Restorable call) := by
  cases call with
  | provisionWith => exact provisionWith_judged _ _ _ _ _ _
  | deleteTenant => exact deleteTenant_judged _ _ _ filed
  | hibernateTenant => exact hibernateTenant_judged _ _ _
  | wakeTenant => exact wakeTenant_judged _ _ _ _
  | createTenantKey => exact createTenantKey_judged _ _ _ _
  | revokeTenantKey => exact revokeTenantKey_judged _ _ _ _
  | promote => exact promoteLocal_judged _ _ _

/-- A call with a failed save that reports its failure has left no trace just when it
writes back what it found: never for provisioning and deletion, and for the others
where the flag that they set was not set before. -/
theorem failed_call_unchanged_iff (save : Nat → Option String) (node : Node)
    (filed : ∀ id t, node.manager.tenants.lookup id = some t → t.id = id) (call : ControlCall)
    (unsaved : (node.call save call).unsaved = true) :
    (∀ message, (node.call save call).result = .error message →
        node.Unchanged (node.call save call).node) ↔ node.Restorable call := by
  obtain ⟨⟨message, failed⟩, unchanged⟩ := call_judged save node filed call unsaved
  rw [← unchanged]
  exact ⟨fun all => all message failed, fun same _ _ => same⟩

/-- A node with one tenant, which has an engine and a revoked credential. -/
def acmeNode : Node :=
  { manager :=
      { tenants := (∅ : TenantTable).insert (ascii "acme")
          { id := ascii "acme", name := ascii "Acme", httpPort := 8081, respPort := 6401
            dataDir := ascii "/data/tenants/acme", vectorEncoding := .float32
            keys := (∅ : AList fun _ : Bytes => TenantKey).insert (ascii "k1")
              ⟨ascii "k1", ascii "old", ascii "hash", .writer, [ascii "*"], 2, true⟩ }
        saved := none, nextHTTPPort := 8082, nextRESPPort := 6402, nextReplPort := 7401
        dataRoot := ascii "/data" }
    instances := fun id => if id = ascii "acme" then some 0 else none
    listening := fun addr => if addr = .port 6401 then some 0 else none
    nextEngine := 1
    booting := none }

def revokedFlag (node : Node) (tenantID keyID : Bytes) : Option Bool :=
  ((node.manager.tenants.lookup tenantID).bind (·.keys.lookup keyID)).map TenantKey.revoked

/-- A second revocation of a credential that fails to be saved makes it valid again. -/
theorem failed_revocation_revives :
    let outcome := acmeNode.call (fun _ => some "no space left on device")
      (.revokeTenantKey (ascii "acme") (ascii "k1"))
    outcome.unsaved = true ∧ outcome.result = .error "no space left on device" ∧
      acmeNode.revokedFlag (ascii "acme") (ascii "k1") = some true ∧
      outcome.node.revokedFlag (ascii "acme") (ascii "k1") = some false ∧
      ¬ acmeNode.Unchanged outcome.node := by
  intro outcome
  have before : acmeNode.revokedFlag (ascii "acme") (ascii "k1") = some true := by decide
  have after : outcome.node.revokedFlag (ascii "acme") (ascii "k1") = some false := by decide
  refine ⟨rfl, rfl, before, after, fun same => ?_⟩
  rw [revokedFlag, same.tenants] at after
  cases before.symm.trans after

theorem failed_hibernation_leaves_no_trace :
    acmeNode.Restorable (.hibernateTenant (ascii "acme")) ∧
      acmeNode.Unchanged (acmeNode.call (fun _ => some "no space left on device")
        (.hibernateTenant (ascii "acme"))).node := by
  have filed : ∀ id t, acmeNode.manager.tenants.lookup id = some t → t.id = id := by
    intro id t found
    by_cases here : id = ascii "acme"
    · subst here
      cases found
      rfl
    · cases (AList.lookup_insert_ne here).symm.trans found
  have awake : acmeNode.Restorable (.hibernateTenant (ascii "acme")) := by
    intro t found
    cases found
    rfl
  exact ⟨awake, (failed_call_unchanged_iff _ acmeNode filed _ rfl).2 awake _ rfl⟩

end Node

end Dbx.Orchestrator
