import Dbx.Orchestrator.Engines
import Dbx.Protocol.CommandFrame

/-!
# The RESP ingress

Client sessions and the pool of idle connections to the engines, while operations
of the control plane go on step by step. A session that ends dials a connection
for the next one, from the copy of the tenant record that it authenticated with.
-/

set_option autoImplicit false

namespace Dbx.Orchestrator

open Dbx.Protocol

def backendIdleTTL : Nat := 30 * 10 ^ 9
def backendMaxIdle : Nat := 8

structure Credential where
  tenantID : Bytes
  keyID : Bytes
  secret : Bytes
deriving DecidableEq, Repr

def errNoAuth : String := "NOAUTH initial AUTH <tenant>:<key-id> <secret> required"
def errWrongPass : String := "WRONGPASS invalid tenant credential"

/-- `strings.SplitN(identity, ":", 2)`, where it has two parts. -/
def splitIdentity (identity : Bytes) : Option (Bytes × Bytes) :=
  match identity.dropWhile (· ≠ 0x3a) with
  | [] => none
  | _ :: keyID => some (identity.takeWhile (· ≠ 0x3a), keyID)

def readCredential (input : Bytes) : Except String (Credential × Bytes) :=
  match readCommand input with
  | .error _ => .error errNoAuth
  | .ok (cmd, rest) =>
    if cmd.normalized ≠ ascii "AUTH" ∨ cmd.numArgs ≠ 2 then .error errNoAuth
    else
      match splitIdentity (cmd.arg 0) with
      | none => .error errWrongPass
      | some (tenantID, keyID) =>
        if 128 < tenantID.length ∨ 128 < keyID.length ∨ 256 < (cmd.arg 1).length then
          .error errWrongPass
        else .ok (⟨tenantID, keyID, cmd.arg 1⟩, rest)

def Manager.verifyTenantKey (hashPassword : Bytes → Bytes) (m : Manager) (c : Credential) :
    Option Tenant :=
  match m.tenants.lookup c.tenantID with
  | none => none
  | some tenant =>
    match tenant.keys.lookup c.keyID with
    | none => none
    | some key =>
      if key.revoked ∨ hashPassword c.secret ≠ key.hash then none else some tenant

def authRequest (c : Credential) : Bytes :=
  ascii "*3\r\n$4\r\nAUTH\r\n" ++ bulkString c.keyID ++ bulkString c.secret

/-- The epoch of a connection is that of the session that dialled it. -/
structure PooledBackend where
  engine : Nat
  idleAt : Nat
  epoch : Nat
deriving DecidableEq, Repr

/-- `Acquire` takes the connection that was pooled last, which is the first here, and
drops those that have been idle too long. -/
def takeIdle (now : Nat) : List PooledBackend → Option PooledBackend × List PooledBackend
  | [] => (none, [])
  | item :: list =>
    if backendIdleTTL < now - item.idleAt then takeIdle now list else (some item, list)

inductive Phase where
  | verified
  | unavailable
  | greeted (engine : Nat)
  | relaying (engine : Nat)
  /-- The session has ended, and a connection is being prefetched. -/
  | closing
  | checked
  | dialled (engine : Nat)
  | over
deriving DecidableEq, Repr

structure Session where
  input : Bytes
  credential : Credential
  rest : Bytes
  tenant : Tenant
  phase : Phase
  relayed : Bytes
  /-- How often the tenant had changed when the session authenticated. -/
  epoch : Nat
  settled : Option Nat

/-- The session sends its credential over a new connection, if there is one. -/
def Session.connect (session : Session) : Option Nat → Session
  | none => { session with phase := .unavailable }
  | some engine =>
    { session with phase := .greeted engine, relayed := authRequest session.credential }

structure Ingress where
  node : Node
  pending : List NodeStep
  pool : Bytes → List PooledBackend
  sessions : Nat → Option Session
  now : Nat
  /-- How often the address of a tenant, or the engine that answers there, has
  changed. -/
  epoch : Bytes → Nat
  operations : Nat

inductive IngressEvent where
  | begin (operation : ControlEvent)
  | advance (succeeds : Bool)
  | putKey (id : Bytes) (key : TenantKey)
  | wait (duration : Nat)
  | authenticate (sid : Nat) (input : Bytes)
  | acquire (sid : Nat)
  | accept (sid : Nat)
  | finish (sid : Nat)
  | check (sid : Nat)
  | dial (sid : Nat)
  | store (sid : Nat)

def Node.view (unix : Bool) (node : Node) (id : Bytes) : Option (Address × Option Nat) :=
  (node.manager.tenants.lookup id).map fun t =>
    (tenantRESPAddr unix t, node.listening (tenantRESPAddr unix t))

namespace Ingress

def start (dataRoot : Bytes) : Ingress where
  node := ⟨newManager dataRoot none [], fun _ => none, fun _ => none, 0, none⟩
  pending := []
  pool _ := []
  sessions _ := none
  now := 0
  epoch _ := 0
  operations := 0

def withNode (unix : Bool) (ingress : Ingress) (node : Node) : Ingress :=
  { ingress with
    node
    epoch := fun id =>
      if node.view unix id = ingress.node.view unix id then ingress.epoch id
      else ingress.epoch id + 1 }

def put (ingress : Ingress) (sid : Nat) (session : Session) : Ingress :=
  { ingress with sessions := Function.update ingress.sessions sid (some session) }

@[simp] theorem put_sessions (ingress : Ingress) (sid : Nat) (session : Session) :
    (ingress.put sid session).sessions = Function.update ingress.sessions sid (some session) :=
  rfl

def setPool (ingress : Ingress) (id : Bytes) (list : List PooledBackend) : Ingress :=
  { ingress with pool := Function.update ingress.pool id list }

@[simp] theorem setPool_pool (ingress : Ingress) (id : Bytes) (list : List PooledBackend) :
    (ingress.setPool id list).pool = Function.update ingress.pool id list := rfl

def acquired (unix : Bool) (ingress : Ingress) (session : Session) :
    Option Nat × List PooledBackend :=
  match takeIdle ingress.now (ingress.pool session.tenant.id) with
  | (some item, list) => (some item.engine, list)
  | (none, list) => (ingress.node.listening (tenantRESPAddr unix session.tenant), list)

def sessionStep (unix : Bool) (ingress : Ingress) (sid : Nat) (session : Session) :
    IngressEvent → Option Ingress
  | .acquire _ =>
    match session.phase with
    | .verified =>
      let (backend, list) := ingress.acquired unix session
      some ((ingress.setPool session.tenant.id list).put sid (session.connect backend))
    | _ => none
  | .accept _ =>
    match session.phase with
    | .greeted engine =>
      some (ingress.put sid { session with
        phase := .relaying engine, relayed := session.relayed ++ session.rest })
    | _ => none
  | .finish _ =>
    match session.phase with
    | .greeted _ | .relaying _ => some (ingress.put sid { session with phase := .closing })
    | _ => none
  | .check _ =>
    match session.phase with
    | .closing =>
      let full := backendMaxIdle ≤ (ingress.pool session.tenant.id).length
      some (ingress.put sid { session with phase := if full then .over else .checked })
    | _ => none
  | .dial _ =>
    match session.phase with
    | .checked =>
      some (ingress.put sid { session with
        phase := match ingress.node.listening (tenantRESPAddr unix session.tenant) with
          | none => .over
          | some engine => .dialled engine })
    | _ => none
  | .store _ =>
    match session.phase with
    | .dialled engine =>
      let list := ingress.pool session.tenant.id
      let list :=
        if backendMaxIdle ≤ list.length then list
        else ⟨engine, ingress.now, session.epoch⟩ :: list
      some ((ingress.setPool session.tenant.id list).put sid { session with phase := .over })
    | _ => none
  | _ => none

def step (unix : Bool) (hashPassword : Bytes → Bytes) (ingress : Ingress) (event : IngressEvent) :
    Except String Ingress :=
  match event with
  | .begin operation =>
    if ingress.pending ≠ [] then .error "an operation is going on"
    else
      match ingress.node.plan operation with
      | .error message => .error message
      | .ok steps =>
        .ok { ingress with pending := steps, operations := ingress.operations + 1 }
  | .advance succeeds =>
    match ingress.pending with
    | [] => .error "no operation is going on"
    | step :: steps =>
      .ok { ingress.withNode unix (ingress.node.exec unix succeeds step) with pending := steps }
  | .putKey id key =>
    if ingress.pending ≠ [] then .error "an operation is going on"
    else
      match ingress.node.manager.tenants.lookup id with
      | none => .error "tenant not found"
      | some tenant =>
        let tenant := { tenant with keys := tenant.keys.insert key.id key }
        .ok (ingress.withNode unix { ingress.node with
          manager := { ingress.node.manager with
            tenants := ingress.node.manager.tenants.insert id tenant }.saveState })
  | .wait duration => .ok { ingress with now := ingress.now + duration }
  | .authenticate sid input =>
    if (ingress.sessions sid).isSome then .error "the session has begun"
    else
      match readCredential input with
      | .error message => .error message
      | .ok (credential, rest) =>
        match ingress.node.manager.verifyTenantKey hashPassword credential with
        | none => .error errWrongPass
        | some tenant =>
          .ok (ingress.put sid
            { input, credential, rest, tenant, phase := .verified, relayed := []
              epoch := ingress.epoch tenant.id
              settled := if ingress.pending = [] then some ingress.operations else none })
  | .acquire sid | .accept sid | .finish sid | .check sid | .dial sid | .store sid =>
    match ingress.sessions sid with
    | none => .error "no such session"
    | some session =>
      match ingress.sessionStep unix sid session event with
      | none => .error "not in this phase"
      | some ingress => .ok ingress

end Ingress

def Session.Current (ingress : Ingress) (session : Session) : Prop :=
  session.settled = some ingress.operations

/-- The session is relayed to the engine that is registered for its tenant, which
reads the credential and then what the client sends behind its own first command. -/
structure Session.Routed (node : Node) (session : Session) : Prop where
  unavailable : session.phase = .unavailable → node.instances session.credential.tenantID = none
  greeted : ∀ engine, session.phase = .greeted engine →
    node.instances session.credential.tenantID = some engine ∧
      session.relayed = authRequest session.credential
  relaying : ∀ engine, session.phase = .relaying engine →
    node.instances session.credential.tenantID = some engine ∧
      session.relayed = authRequest session.credential ++ session.rest

/-- No tenant is provisioned over a directory in use, and where a session acquires a
connection behind the last operation, no idle one that has not expired was dialled
from an older record of the tenant. -/
def Ingress.Fresh (ingress : Ingress) : IngressEvent → Prop
  | .begin operation => ingress.node.manager.Vacant operation
  | .acquire sid => ∀ session, ingress.sessions sid = some session → session.Current ingress →
      ∀ item ∈ ingress.pool session.tenant.id, ¬ backendIdleTTL < ingress.now - item.idleAt →
        item.epoch = ingress.epoch session.tenant.id
  | _ => True

end Dbx.Orchestrator
