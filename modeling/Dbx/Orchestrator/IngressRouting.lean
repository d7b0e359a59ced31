import Dbx.Orchestrator.Ingress

/-!
# Sessions reach their engine

A record that has not changed since it was copied still leads to the engine that
answers for the tenant, and between operations that is the registered one. What
leads elsewhere is a connection dialled from an older record.
-/

set_option autoImplicit false

namespace Dbx.Orchestrator

open Dbx.Protocol

variable {unix : Bool}

theorem authRequest_eq (c : Credential) :
    authRequest c = commandFrame (ascii "AUTH") [c.keyID, c.secret] := by
  have head : ascii "*3\r\n$4\r\nAUTH\r\n" =
      0x2a :: formatNat 3 ++ crlf ++ bulkString (ascii "AUTH") := by decide
  simp [authRequest, commandFrame, head]

theorem splitIdentity_eq {identity tenantID keyID : Bytes}
    (split : splitIdentity identity = some (tenantID, keyID)) :
    identity = tenantID ++ ascii ":" ++ keyID := by
  unfold splitIdentity at split
  have whole := identity.takeWhile_append_dropWhile (p := fun byte => decide (byte ≠ 0x3a))
  cases behind : identity.dropWhile (fun byte => decide (byte ≠ 0x3a)) with
  | nil => simp only [behind, reduceCtorEq] at split
  | cons colon rest =>
    have stopped := List.head_dropWhile_not (fun byte : UInt8 => decide (byte ≠ 0x3a))
      (by rw [behind]; exact List.cons_ne_nil _ _)
    simp only [behind, List.head_cons, decide_eq_false_iff_not, not_not] at stopped
    simp only [behind, Option.some.injEq, Prod.mk.injEq] at split
    rw [behind, stopped, split.1, split.2] at whole
    rw [← whole]
    simp [ascii]

structure Credential.ReadFrom (c : Credential) (input rest : Bytes) (cmd : Command) : Prop where
  read : readCommand input = .ok (cmd, rest)
  name : cmd.normalized = ascii "AUTH"
  identity : cmd.arg 0 = c.tenantID ++ ascii ":" ++ c.keyID
  secret : cmd.arg 1 = c.secret

theorem readCredential_spec {input rest : Bytes} {c : Credential}
    (read : readCredential input = .ok (c, rest)) :
    (∃ cmd, c.ReadFrom input rest cmd) ∧ c.keyID.length ≤ 128 ∧ c.secret.length ≤ 256 := by
  unfold readCredential at read
  cases parsed : readCommand input with
  | error message => simp only [parsed, reduceCtorEq] at read
  | ok result =>
    obtain ⟨cmd, behind⟩ := result
    simp only [parsed] at read
    split at read
    · cases read
    rename_i auth
    rw [not_or, not_not] at auth
    cases split : splitIdentity (cmd.arg 0) with
    | none => simp only [split, reduceCtorEq] at read
    | some identity =>
      obtain ⟨tenantID, keyID⟩ := identity
      simp only [split] at read
      split at read
      · cases read
      rename_i bounds
      cases read
      simp only [not_or, Nat.not_lt] at bounds
      exact ⟨⟨cmd, parsed, auth.1, splitIdentity_eq split, rfl⟩, bounds.2⟩

theorem readCommand_authRequest {input rest : Bytes} {c : Credential}
    (read : readCredential input = .ok (c, rest)) (behind : Bytes) :
    readCommand (authRequest c ++ behind) =
      .ok (⟨ascii "AUTH", [some c.keyID, some c.secret]⟩, behind) := by
  obtain ⟨-, key, secret⟩ := readCredential_spec read
  have short : ∀ data ∈ [c.keyID, c.secret], data.length ≤ maxRESPBulkBytes := by
    intro data member
    have limit : 256 ≤ maxRESPBulkBytes := by decide
    rcases List.mem_cons.mp member with rfl | member
    · omega
    · rw [List.mem_singleton.mp member]
      omega
  rw [authRequest_eq]
  exact readCommand_commandFrame (by decide) short (by decide : 2 < maxRESPArrayItems) behind

def Filed (table : TenantTable) : Prop := ∀ id t, table.lookup id = some t → t.id = id

theorem Filed.insert {table : TenantTable} (filed : Filed table) {id : Bytes} {t : Tenant}
    (own : t.id = id) : Filed (table.insert id t) := by
  intro x s present
  by_cases same : x = id
  · subst same
    rw [AList.lookup_insert] at present
    cases present
    exact own
  · rw [AList.lookup_insert_ne same] at present
    exact filed x s present

theorem Filed.erase {table : TenantTable} (filed : Filed table) (id : Bytes) :
    Filed (table.erase id) := by
  intro x s present
  by_cases same : x = id
  · rw [same, AList.lookup_erase] at present
    cases present
  · rw [AList.lookup_erase_ne same] at present
    exact filed x s present

variable {node : Node}

theorem Filed.exec (filed : Filed node.manager.tenants) (succeeds : Bool) (step : NodeStep) :
    Filed (node.exec unix succeeds step).manager.tenants := by
  cases step with
  | provision id name replicaCount vectorEncoding =>
    simp only [Node.exec]
    cases done : node.manager.provisionWith id name replicaCount vectorEncoding with
    | error message => exact filed
    | ok manager =>
      obtain ⟨count, -, -, -, -, provisioned, -⟩ := Manager.provisionWith_cases done
      intro x t present
      rcases provisioned.inversion present with ⟨-, -, -, own, -⟩ | before
      · exact own
      · exact filed x t before
  | exchange replicaID =>
    cases found : node.manager.tenants.lookup replicaID with
    | none =>
      simp only [Node.exec, found]
      exact filed
    | some replica =>
      cases done : node.manager.promoteLocal replicaID with
      | error message =>
        simp only [Node.exec, found, done]
        cases node.manager.tenants.lookup replica.replicaOf <;> exact filed
      | ok manager =>
        obtain ⟨replica', primary, found', -, owner, rfl⟩ := Manager.promoteLocal_cases done
        cases found.symm.trans found'
        simp only [Node.exec, found, owner, done]
        have first := @Filed.insert _ filed replica.replicaOf (primary.exchange replica)
          (filed replica.replicaOf primary owner)
        exact @Filed.insert _ first replicaID (replica.exchange primary)
          (filed replicaID replica found)
  | remove t => exact filed.erase t.id
  | unlist id replicaOf =>
    simp only [Node.exec, Manager.unlist]
    split
    · exact filed
    cases owner : node.manager.tenants.lookup replicaOf with
    | none => exact filed
    | some primary => exact filed.insert (filed replicaOf primary owner)
  | hibernate id =>
    simp only [Node.exec]
    cases done : node.manager.hibernateTenant id with
    | error message => exact filed
    | ok manager =>
      obtain ⟨tenant, found, rfl⟩ := Manager.hibernateTenant_cases done
      exact filed.insert (filed id tenant found)
  | wake id =>
    simp only [Node.exec]
    cases done : node.manager.wakeTenant id with
    | error message => exact filed
    | ok manager =>
      obtain ⟨tenant, found, rfl⟩ := Manager.wakeTenant_cases done
      exact filed.insert (filed id tenant found)
  | stop engine => exact filed
  | listen id =>
    rcases node.exec_listen unix succeeds id with kept | ⟨t, -, -, booted⟩
    · rw [kept]
      exact filed
    · rw [booted]
      exact filed
  | register id =>
    simp only [Node.exec]
    cases node.booting <;> exact filed

def Node.answers (unix : Bool) (node : Node) (id : Bytes) : Option Nat :=
  (node.view unix id).bind Prod.snd

theorem Node.view_of_lookup {id : Bytes} {t : Tenant}
    (found : node.manager.tenants.lookup id = some t) :
    node.view unix id =
      some (tenantRESPAddr unix t, node.listening (tenantRESPAddr unix t)) := by
  rw [view, found, Option.map_some]

theorem Node.answers_of_view {id : Bytes} {addr : Address} {engine : Option Nat}
    (view : node.view unix id = some (addr, engine)) :
    node.answers unix id = node.listening addr := by
  obtain ⟨t, -, same⟩ := Option.map_eq_some_iff.mp view
  cases same
  rw [answers, view, Option.bind_some]

theorem Node.Sound.answers_eq (sound : node.Sound unix) (id : Bytes) :
    node.answers unix id = node.instances id := by
  rw [sound.registered id, Node.answers, Node.view, Option.bind_map]
  rfl

structure PooledBackend.Sound (unix : Bool) (node : Node) (epoch : Bytes → Nat) (id : Bytes)
    (item : PooledBackend) : Prop where
  past : item.epoch ≤ epoch id
  fresh : item.epoch = epoch id → node.answers unix id = some item.engine

/-- What holds of a session, over the parts of the ingress that other sessions do
not change. -/
structure Session.Sound (unix : Bool) (node : Node) (epoch : Bytes → Nat)
    (pending : List NodeStep) (operations : Nat) (session : Session) : Prop where
  read : readCredential session.input = .ok (session.credential, session.rest)
  named : session.tenant.id = session.credential.tenantID
  past : session.epoch ≤ epoch session.tenant.id
  address : session.epoch = epoch session.tenant.id →
    ∃ engine, node.view unix session.tenant.id =
      some (tenantRESPAddr unix session.tenant, engine)
  dialled : ∀ engine, session.phase = .dialled engine → session.epoch = epoch session.tenant.id →
    node.answers unix session.tenant.id = some engine
  counted : ∀ n, session.settled = some n → n ≤ operations
  current : session.settled = some operations →
    pending = [] ∧ session.epoch = epoch session.tenant.id ∧ session.Routed node

structure Ingress.Sound (unix : Bool) (ingress : Ingress) : Prop where
  settles : ingress.node.Settles unix ingress.pending
  filed : Filed ingress.node.manager.tenants
  sessions : ∀ sid session, ingress.sessions sid = some session →
    session.Sound unix ingress.node ingress.epoch ingress.pending ingress.operations
  pooled : ∀ id, ∀ item ∈ ingress.pool id, item.Sound unix ingress.node ingress.epoch id

theorem Ingress.start_sound (dataRoot : Bytes) : (start dataRoot).Sound unix where
  settles :=
    { manager := Manager.newManager_sound dataRoot
      registered := fun _ => rfl
      owned := by rintro _ _ ⟨⟩
      single := by rintro _ _ _ ⟨⟩
      numbered := by rintro _ _ ⟨⟩
      idle := rfl }
  filed := by rintro _ _ ⟨⟩
  sessions := by rintro _ _ ⟨⟩
  pooled := by rintro _ _ ⟨⟩

variable {ingress : Ingress}

theorem Ingress.withNode_epoch {id : Bytes} {n : Nat} (past : n ≤ ingress.epoch id)
    (same : n = (ingress.withNode unix node).epoch id) :
    n = ingress.epoch id ∧ node.view unix id = ingress.node.view unix id := by
  simp only [withNode] at same
  split at same
  · rename_i unchanged
    exact ⟨same, unchanged⟩
  · omega

theorem Ingress.epoch_le_withNode (ingress : Ingress) (node : Node) (id : Bytes) :
    ingress.epoch id ≤ (ingress.withNode unix node).epoch id := by
  simp only [withNode]
  split <;> omega

theorem Node.answers_congr {node' : Node} {id : Bytes}
    (same : node'.view unix id = node.view unix id) :
    node'.answers unix id = node.answers unix id := by
  rw [answers, answers, same]

theorem PooledBackend.Sound.withNode {id : Bytes} {item : PooledBackend}
    (sound : item.Sound unix ingress.node ingress.epoch id) (node : Node) :
    item.Sound unix node (ingress.withNode unix node).epoch id := by
  refine ⟨sound.past.trans (ingress.epoch_le_withNode node id), fun same => ?_⟩
  obtain ⟨before, view⟩ := Ingress.withNode_epoch sound.past same
  exact (Node.answers_congr view).trans (sound.fresh before)

theorem Session.Sound.advance {session : Session} {operations : Nat} {step : NodeStep}
    {steps : List NodeStep}
    (sound : session.Sound unix ingress.node ingress.epoch (step :: steps) operations)
    (node : Node) :
    session.Sound unix node (ingress.withNode unix node).epoch steps operations where
  read := sound.read
  named := sound.named
  past := sound.past.trans (ingress.epoch_le_withNode node _)
  address same := by
    obtain ⟨before, view⟩ := Ingress.withNode_epoch sound.past same
    rw [view]
    exact sound.address before
  dialled engine phase same := by
    obtain ⟨before, view⟩ := Ingress.withNode_epoch sound.past same
    exact (Node.answers_congr view).trans (sound.dialled engine phase before)
  counted := sound.counted
  current now := by
    obtain ⟨none, -⟩ := sound.current now
    cases none

namespace Session.Sound

variable {session : Session} {node : Node} {epoch : Bytes → Nat} {pending : List NodeStep}
  {operations engine : Nat}

section

variable {phase : Phase} (sound : session.Sound unix node epoch pending operations)
include sound

theorem begin (steps : List NodeStep) :
    session.Sound unix node epoch steps (operations + 1) :=
  { sound with
    counted n settled := Nat.le_succ_of_le (sound.counted n settled)
    current now := by
      have bound := sound.counted _ now
      omega }

theorem move {relayed : Bytes}
    (dialled : ∀ engine, phase = .dialled engine → session.epoch = epoch session.tenant.id →
      node.answers unix session.tenant.id = some engine)
    (routed : session.settled = some operations →
      ({ session with phase, relayed } : Session).Routed node) :
    ({ session with phase, relayed } : Session).Sound unix node epoch pending operations :=
  { sound with
    dialled := dialled
    current now := by
      obtain ⟨none, same, -⟩ := sound.current now
      exact ⟨none, same, routed now⟩ }

theorem connect {backend : Option Nat}
    (routes : session.settled = some operations →
      backend = node.instances session.credential.tenantID) :
    (session.connect backend).Sound unix node epoch pending operations := by
  cases backend with
  | none =>
    refine sound.move (by rintro _ ⟨⟩) fun now => ⟨fun _ => (routes now).symm, ?_, ?_⟩
    · rintro _ ⟨⟩
    · rintro _ ⟨⟩
  | some engine =>
    refine sound.move (by rintro _ ⟨⟩) fun now => ⟨?_, ?_, ?_⟩
    · rintro ⟨⟩
    · rintro _ ⟨⟩
      exact ⟨(routes now).symm, rfl⟩
    · rintro _ ⟨⟩

theorem accept (greeted : session.phase = .greeted engine) :
    ({ session with
      phase := .relaying engine
      relayed := session.relayed ++ session.rest } : Session).Sound unix node epoch pending
      operations := by
  refine sound.move (by rintro _ ⟨⟩) fun now => ⟨?_, ?_, ?_⟩
  · rintro ⟨⟩
  · rintro _ ⟨⟩
  · rintro _ ⟨⟩
    obtain ⟨-, -, routed⟩ := sound.current now
    obtain ⟨registered, relayed⟩ := routed.greeted engine greeted
    exact ⟨registered, congrArg (· ++ session.rest) relayed⟩

theorem retire (ended : phase = .closing ∨ phase = .checked ∨ phase = .over) :
    ({ session with phase } : Session).Sound unix node epoch pending operations := by
  refine sound.move ?_ fun _ => ⟨?_, ?_, ?_⟩
  · rcases ended with rfl | rfl | rfl <;> rintro _ ⟨⟩
  · rcases ended with rfl | rfl | rfl <;> rintro ⟨⟩
  · rcases ended with rfl | rfl | rfl <;> rintro _ ⟨⟩
  · rcases ended with rfl | rfl | rfl <;> rintro _ ⟨⟩

theorem dial (listens : node.listening (tenantRESPAddr unix session.tenant) = some engine) :
    ({ session with phase := .dialled engine } : Session).Sound unix node epoch pending
      operations := by
  refine sound.move ?_ fun _ => ⟨?_, ?_, ?_⟩
  · rintro _ ⟨⟩ same
    obtain ⟨other, view⟩ := sound.address same
    exact (Node.answers_of_view view).trans listens
  · rintro ⟨⟩
  · rintro _ ⟨⟩
  · rintro _ ⟨⟩

end

end Session.Sound

namespace Ingress.Sound

variable {ingress : Ingress}

theorem put (sound : ingress.Sound unix) (sid : Nat) {session : Session}
    (new : session.Sound unix ingress.node ingress.epoch ingress.pending ingress.operations) :
    (ingress.put sid session).Sound unix where
  settles := sound.settles
  filed := sound.filed
  sessions other session' present := by
    by_cases same : other = sid
    · rw [same, put_sessions, Function.update_self] at present
      cases present
      exact new
    · rw [put_sessions, Function.update_of_ne same] at present
      exact sound.sessions other session' present
  pooled := sound.pooled

theorem setPool (sound : ingress.Sound unix) (id : Bytes) {list : List PooledBackend}
    (items : ∀ item ∈ list, item.Sound unix ingress.node ingress.epoch id) :
    (ingress.setPool id list).Sound unix where
  settles := sound.settles
  filed := sound.filed
  sessions := sound.sessions
  pooled other item member := by
    by_cases same : other = id
    · subst same
      rw [setPool_pool, Function.update_self] at member
      exact items item member
    · rw [setPool_pool, Function.update_of_ne same] at member
      exact sound.pooled other item member

end Ingress.Sound

theorem takeIdle_spec (now : Nat) (list : List PooledBackend) :
    (∀ item ∈ (takeIdle now list).2, item ∈ list) ∧
      ∀ item, (takeIdle now list).1 = some item →
        item ∈ list ∧ ¬ backendIdleTTL < now - item.idleAt := by
  induction list with
  | nil => exact ⟨fun _ member => member, by rintro _ ⟨⟩⟩
  | cons head list ih =>
    rw [takeIdle]
    split
    · refine ⟨fun item member => List.mem_cons_of_mem _ (ih.1 item member), ?_⟩
      intro item taken
      obtain ⟨member, unexpired⟩ := ih.2 item taken
      exact ⟨List.mem_cons_of_mem _ member, unexpired⟩
    · rename_i unexpired
      refine ⟨fun item member => List.mem_cons_of_mem _ member, ?_⟩
      rintro _ ⟨⟩
      exact ⟨List.mem_cons_self .., unexpired⟩

theorem Ingress.acquired_current (sound : ingress.Sound unix) {sid : Nat} {session : Session}
    (present : ingress.sessions sid = some session) (fresh : ingress.Fresh (.acquire sid))
    (now : session.Current ingress) :
    (ingress.acquired unix session).1 = ingress.node.instances session.credential.tenantID := by
  have own := sound.sessions sid session present
  obtain ⟨none, same, -⟩ := own.current now
  have settled : ingress.node.Sound unix := by
    have settles := sound.settles
    rw [none] at settles
    exact settles
  rw [← own.named, ← settled.answers_eq]
  have taken := (takeIdle_spec ingress.now (ingress.pool session.tenant.id)).2
  unfold acquired
  generalize takeIdle ingress.now (ingress.pool session.tenant.id) = result at taken
  obtain ⟨_ | item, list⟩ := result
  · obtain ⟨engine, view⟩ := own.address same
    exact (Node.answers_of_view view).symm
  obtain ⟨member, unexpired⟩ := taken item rfl
  have latest := fresh session present now item member unexpired
  exact ((sound.pooled _ item member).fresh latest).symm

theorem Ingress.acquired_subset (ingress : Ingress) (session : Session) :
    ∀ item ∈ (ingress.acquired unix session).2, item ∈ ingress.pool session.tenant.id := by
  have kept := (takeIdle_spec ingress.now (ingress.pool session.tenant.id)).1
  unfold acquired
  generalize takeIdle ingress.now (ingress.pool session.tenant.id) = result at kept
  obtain ⟨_ | item, list⟩ := result
  · exact kept
  · exact kept

variable {event : IngressEvent}

theorem Ingress.sessionStep_sound {ingress' : Ingress} (sound : ingress.Sound unix) {sid : Nat}
    {session : Session} (present : ingress.sessions sid = some session)
    (fresh : ∀ other, event = .acquire other → ingress.Fresh (.acquire sid))
    (stepped : ingress.sessionStep unix sid session event = some ingress') :
    ingress'.Sound unix := by
  have own := sound.sessions sid session present
  cases event with
  | acquire other =>
    cases phase : session.phase with
    | verified =>
      simp only [sessionStep, phase, Option.some.injEq] at stepped
      subst stepped
      refine (sound.setPool session.tenant.id fun item member => ?_).put sid ?_
      · exact sound.pooled _ item (ingress.acquired_subset session item member)
      · exact own.connect fun now => acquired_current sound present (fresh other rfl) now
    | _ => simp only [sessionStep, phase, reduceCtorEq] at stepped
  | accept =>
    cases phase : session.phase with
    | greeted engine =>
      simp only [sessionStep, phase, Option.some.injEq] at stepped
      exact stepped ▸ sound.put sid (own.accept phase)
    | _ => simp only [sessionStep, phase, reduceCtorEq] at stepped
  | finish =>
    cases phase : session.phase with
    | greeted | relaying =>
      simp only [sessionStep, phase, Option.some.injEq] at stepped
      exact stepped ▸ sound.put sid (own.retire (.inl rfl))
    | _ => simp only [sessionStep, phase, reduceCtorEq] at stepped
  | check =>
    cases phase : session.phase with
    | closing =>
      simp only [sessionStep, phase, Option.some.injEq] at stepped
      subst stepped
      refine sound.put sid (own.retire ?_)
      split
      · exact .inr (.inr rfl)
      · exact .inr (.inl rfl)
    | _ => simp only [sessionStep, phase, reduceCtorEq] at stepped
  | dial =>
    cases phase : session.phase with
    | checked =>
      simp only [sessionStep, phase, Option.some.injEq] at stepped
      subst stepped
      refine sound.put sid ?_
      cases listens : ingress.node.listening (tenantRESPAddr unix session.tenant) with
      | none => exact own.retire (.inr (.inr rfl))
      | some engine => exact own.dial listens
    | _ => simp only [sessionStep, phase, reduceCtorEq] at stepped
  | store =>
    cases phase : session.phase with
    | dialled engine =>
      simp only [sessionStep, phase, Option.some.injEq] at stepped
      subst stepped
      refine (sound.setPool session.tenant.id fun item member => ?_).put sid
        (own.retire (.inr (.inr rfl)))
      split at member
      · exact sound.pooled _ item member
      rcases List.mem_cons.mp member with rfl | member
      · exact ⟨own.past, own.dialled engine phase⟩
      · exact sound.pooled _ item member
    | _ => simp only [sessionStep, phase, reduceCtorEq] at stepped
  | _ => cases stepped

theorem Node.view_reset {node : Node} {id : Bytes} {old new : Tenant}
    (found : node.manager.tenants.lookup id = some old) (samePlace : new.place = old.place) :
    ({ node with manager := { node.manager with
      tenants := node.manager.tenants.insert id new }.saveState } : Node).view unix =
      node.view unix := by
  funext x
  by_cases same : x = id
  · subst same
    have addr : tenantRESPAddr unix new = tenantRESPAddr unix old := tenantRESPAddr_place samePlace
    have here : ({ node.manager with
        tenants := node.manager.tenants.insert x new } : Manager).saveState.tenants.lookup x =
        some new := AList.lookup_insert _
    simp only [view, here, found, Option.map_some, addr]
  · exact congrArg (Option.map _) (AList.lookup_insert_ne same)

theorem Ingress.Sound.putKey (sound : ingress.Sound unix) (settled : ingress.pending = [])
    {id : Bytes} {old : Tenant} (found : ingress.node.manager.tenants.lookup id = some old)
    (keys : AList (fun _ : Bytes => TenantKey)) :
    (ingress.withNode unix { ingress.node with manager := { ingress.node.manager with
      tenants := ingress.node.manager.tenants.insert id { old with keys } }.saveState }).Sound
      unix := by
  have views := @Node.view_reset unix ingress.node id old { old with keys } found rfl
  have epochs : (ingress.withNode unix { ingress.node with manager := { ingress.node.manager with
      tenants := ingress.node.manager.tenants.insert id { old with keys } }.saveState }).epoch =
      ingress.epoch := by
    funext x
    simp only [withNode, views, if_true]
  have settles : ingress.node.Sound unix := by
    have settles := sound.settles
    rw [settled] at settles
    exact settles
  constructor
  · simp only [withNode, settled]
    exact settles.withManager (settles.manager.reset found rfl rfl rfl)
      (Manager.place_reset found rfl)
  · exact sound.filed.insert (sound.filed id old found)
  · intro sid session present
    have own := sound.sessions sid session present
    rw [epochs]
    refine ⟨own.read, own.named, own.past, ?_, ?_, own.counted, ?_⟩
    · intro same
      exact (congrFun views session.tenant.id) ▸ own.address same
    · intro engine phase same
      exact (Node.answers_congr (congrFun views _)).trans (own.dialled engine phase same)
    · intro now
      obtain ⟨none, same, routed⟩ := own.current now
      exact ⟨none, same, routed.unavailable, routed.greeted, routed.relaying⟩
  · intro x item member
    have own := sound.pooled x item member
    rw [epochs]
    exact ⟨own.past, fun same => (Node.answers_congr (congrFun views x)).trans (own.fresh same)⟩

variable {hashPassword : Bytes → Bytes}

theorem Manager.verifyTenantKey_lookup {m : Manager} {c : Credential} {t : Tenant}
    (verified : m.verifyTenantKey hashPassword c = some t) :
    m.tenants.lookup c.tenantID = some t := by
  unfold verifyTenantKey at verified
  cases found : m.tenants.lookup c.tenantID with
  | none => simp only [found, reduceCtorEq] at verified
  | some tenant =>
    cases known : tenant.keys.lookup c.keyID with
    | none => simp only [found, known, reduceCtorEq] at verified
    | some key =>
      simp only [found, known] at verified
      split at verified
      · cases verified
      · exact verified

theorem Ingress.Sound.authenticate (sound : ingress.Sound unix) {input rest : Bytes}
    {credential : Credential} {tenant : Tenant}
    (read : readCredential input = .ok (credential, rest))
    (verified : ingress.node.manager.verifyTenantKey hashPassword credential = some tenant) :
    ({ input, credential, rest, tenant, phase := .verified, relayed := []
       epoch := ingress.epoch tenant.id
       settled := if ingress.pending = [] then some ingress.operations else none } :
      Session).Sound unix ingress.node ingress.epoch ingress.pending ingress.operations := by
  have found := Manager.verifyTenantKey_lookup verified
  have named := sound.filed _ _ found
  refine ⟨read, named, Nat.le_refl _, fun _ => ?_, ?_, ?_, ?_⟩
  · exact ⟨_, named ▸ Node.view_of_lookup found⟩
  · rintro _ ⟨⟩
  · intro n settled
    split at settled
    · cases settled
      exact Nat.le_refl _
    · cases settled
  · intro settled
    split at settled
    · rename_i none
      exact ⟨none, rfl, by rintro ⟨⟩, by rintro _ ⟨⟩, by rintro _ ⟨⟩⟩
    · cases settled

def Ingress.onSession (ingress : Ingress) (unix : Bool) (sid : Nat) (event : IngressEvent) :
    Except String Ingress :=
  match ingress.sessions sid with
  | none => .error "no such session"
  | some session =>
    match ingress.sessionStep unix sid session event with
    | none => .error "not in this phase"
    | some ingress => .ok ingress

theorem Ingress.step_sound {ingress' : Ingress} (sound : ingress.Sound unix)
    (fresh : ingress.Fresh event) (stepped : ingress.step unix hashPassword event = .ok ingress') :
    ingress'.Sound unix := by
  -- The steps of a session differ only in which of them acquires a connection.
  have session {sid : Nat} (fresh : ∀ other, event = .acquire other → ingress.Fresh (.acquire sid))
      (stepped : ingress.onSession unix sid event = .ok ingress') : ingress'.Sound unix := by
    unfold onSession at stepped
    cases present : ingress.sessions sid with
    | none => simp only [present, reduceCtorEq] at stepped
    | some session =>
      cases moved : ingress.sessionStep unix sid session event with
      | none => simp only [present, moved, reduceCtorEq] at stepped
      | some after =>
        simp only [present, moved, Except.ok.injEq] at stepped
        exact stepped ▸ sessionStep_sound sound present fresh moved
  cases event with
  | begin operation =>
    simp only [step] at stepped
    split at stepped
    · cases stepped
    rename_i settled
    have none : ingress.pending = [] := not_not.mp settled
    have settles := sound.settles
    rw [none] at settles
    cases planned : ingress.node.plan operation with
    | error message => simp only [planned, reduceCtorEq] at stepped
    | ok steps =>
      simp only [planned, Except.ok.injEq] at stepped
      subst stepped
      exact ⟨Node.plan_settles settles fresh planned, sound.filed,
        fun sid session present => (sound.sessions sid session present).begin steps,
        sound.pooled⟩
  | advance succeeds =>
    simp only [step] at stepped
    cases remaining : ingress.pending with
    | nil => simp only [remaining, reduceCtorEq] at stepped
    | cons first steps =>
      simp only [remaining, Except.ok.injEq] at stepped
      subst stepped
      have settles := sound.settles
      rw [remaining] at settles
      refine ⟨settles succeeds, sound.filed.exec succeeds first, ?_, ?_⟩
      · intro sid session present
        have own := sound.sessions sid session present
        rw [remaining] at own
        exact own.advance _
      · exact fun id item member => (sound.pooled id item member).withNode _
  | putKey id key =>
    simp only [step] at stepped
    split at stepped
    · cases stepped
    rename_i settled
    cases found : ingress.node.manager.tenants.lookup id with
    | none => simp only [found, reduceCtorEq] at stepped
    | some tenant =>
      simp only [found, Except.ok.injEq] at stepped
      exact stepped ▸ sound.putKey (not_not.mp settled) found _
  | wait duration =>
    cases stepped
    exact ⟨sound.settles, sound.filed, sound.sessions, sound.pooled⟩
  | authenticate sid input =>
    simp only [step] at stepped
    split at stepped
    · cases stepped
    cases read : readCredential input with
    | error message => simp only [read, reduceCtorEq] at stepped
    | ok parsed =>
      obtain ⟨credential, rest⟩ := parsed
      cases verified : ingress.node.manager.verifyTenantKey hashPassword credential with
      | none => simp only [read, verified, reduceCtorEq] at stepped
      | some tenant =>
        simp only [read, verified, Except.ok.injEq] at stepped
        exact stepped ▸ sound.put sid (sound.authenticate read verified)
  | acquire sid => exact session (fun _ _ => fresh) stepped
  | accept sid | finish sid | check sid | dial sid | store sid =>
    exact session (by rintro _ ⟨⟩) stepped

/-- Over its connection the session delivers its credential and then exactly what the
client sends behind its first command. -/
structure Session.Delivers (session : Session) : Prop where
  first : ∃ cmd, session.credential.ReadFrom session.input session.rest cmd
  relayed : ∀ engine, session.phase = .relaying engine → readCommand session.relayed =
    .ok (⟨ascii "AUTH", [some session.credential.keyID, some session.credential.secret]⟩,
      session.rest)

theorem Ingress.reaches_sound {dataRoot : Bytes}
    (reached : Runs.Reaches (step unix hashPassword) Fresh (start dataRoot) ingress) :
    ingress.Sound unix :=
  reached.invariant (start_sound dataRoot) fun _ _ _ sound fresh stepped =>
    step_sound sound fresh stepped

/-- A session that authenticates behind the last operation is relayed to the engine
registered for its tenant. -/
theorem Ingress.reaches_routes (unix : Bool) (hashPassword : Bytes → Bytes) (dataRoot : Bytes)
    (ingress : Ingress)
    (reached : Runs.Reaches (step unix hashPassword) Fresh (start dataRoot) ingress) :
    ∀ sid session, ingress.sessions sid = some session → session.Current ingress →
      session.Routed ingress.node ∧ session.Delivers := by
  intro sid session present now
  have own := (reaches_sound reached).sessions sid session present
  obtain ⟨-, -, routed⟩ := own.current now
  refine ⟨routed, (readCredential_spec own.read).1, fun engine relaying => ?_⟩
  rw [(routed.relaying engine relaying).2]
  exact readCommand_authRequest own.read session.rest

def demoKey : TenantKey := ⟨ascii "k", ascii "n", ascii "s", .reader, [], 1, false⟩

def demoClient : Bytes := commandFrame (ascii "AUTH") [ascii "t:k", ascii "s"]

def connectOnce : List IngressEvent :=
  [.begin (.provision (ascii "t") (ascii "n") 1 []), .advance true, .advance true, .advance true,
   .advance true, .advance true, .putKey (ascii "t") demoKey,
   .authenticate 1 demoClient, .acquire 1, .accept 1]

/-- The tenant fails over to the replica before the session ends. -/
def failOver : List IngressEvent :=
  [.begin (.promote (ascii "t-r1")), .advance true, .advance true, .advance true, .advance true,
   .finish 1, .check 1, .dial 1, .store 1, .authenticate 2 demoClient, .acquire 2]

/-- The connection that the old session leaves in the pool leads to the demoted
replica, and the next session is relayed there. -/
theorem Ingress.stale_connection_misroutes :
    ∃ ingress session, Runs.Reaches (step true id) (fun _ _ => True) (start (ascii "d")) ingress ∧
      ingress.sessions 2 = some session ∧ session.Current ingress ∧
      ¬ session.Routed ingress.node := by
  have done : ∃ ingress, Runs.run (step true id) (fun _ _ => true) (start (ascii "d"))
      (connectOnce ++ failOver) = some ingress ∧
      ∃ session, ingress.sessions 2 = some session ∧ session.settled = some ingress.operations ∧
        session.phase = .greeted 2 ∧
        ingress.node.instances session.credential.tenantID = some 1 :=
    ⟨_, rfl, _, rfl, rfl, rfl, rfl⟩
  obtain ⟨ingress, ran, session, present, settled, greeted, registered⟩ := done
  refine ⟨ingress, session, .run (fun _ _ _ => trivial) .start ran, present, settled,
    fun routed => ?_⟩
  obtain ⟨other, -⟩ := routed.greeted 2 greeted
  rw [registered] at other
  exact absurd (Option.some.inj other) (by decide)

/-- Nothing in the pool, and no tenant in the way of the first. -/
def idleTest (ingress : Ingress) : IngressEvent → Bool
  | .begin _ => ingress.node.manager.tenants.entries.isEmpty
  | .acquire sid => (ingress.sessions sid).all fun session =>
    (ingress.pool session.tenant.id).isEmpty
  | _ => true

theorem idleTest_fresh (passed : idleTest ingress event = true) : ingress.Fresh event := by
  cases event with
  | begin operation =>
    have empty : ingress.node.manager.tenants.entries = [] := List.isEmpty_iff.mp passed
    have missing : ∀ id, ingress.node.manager.tenants.lookup id = none := by
      intro id
      rw [AList.lookup_eq_none, AList.mem_keys]
      simp [AList.keys, empty]
    cases operation with
    | provision =>
      intro n _ other t found
      rw [missing other] at found
      cases found
    | _ => trivial
  | acquire sid =>
    intro session present _ item member
    simp only [idleTest, present, Option.all_some, List.isEmpty_iff] at passed
    rw [passed] at member
    cases member
  | _ => trivial

theorem Ingress.first_session_routed :
    ∃ (ingress : Ingress) (session : Session),
      ingress.sessions 1 = some session ∧ session.phase = .relaying 0 ∧
      session.Routed ingress.node ∧ session.Delivers := by
  have done : ∃ ingress, Runs.run (step true id) idleTest (start (ascii "d")) connectOnce =
      some ingress ∧ ∃ session, ingress.sessions 1 = some session ∧
        session.settled = some ingress.operations ∧ session.phase = .relaying 0 :=
    ⟨_, rfl, _, rfl, rfl, rfl⟩
  obtain ⟨ingress, ran, session, present, settled, relaying⟩ := done
  have reached : Runs.Reaches (step true id) Fresh (start (ascii "d")) ingress :=
    .run (fun _ _ => idleTest_fresh) .start ran
  exact ⟨ingress, session, present, relaying,
    reaches_routes true id (ascii "d") ingress reached 1 session present settled⟩

end Dbx.Orchestrator
