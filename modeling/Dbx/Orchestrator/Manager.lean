import Dbx.Persistence.Backup

/-!
# The orchestrator's tenant table

The records that the control plane keeps of its tenants, the port counters, and the
operations that change them on a node without a Raft group. File operations
succeed, so every operation that saves the table leaves it in the state file.
-/

set_option autoImplicit false

namespace Dbx.Orchestrator

open Dbx.Engine Dbx.Protocol Dbx.Persistence

/-- The role of a credential: `reader`, `writer` or `tenant-admin`. -/
inductive KeyRole where
  | reader
  | writer
  | tenantAdmin
deriving DecidableEq, Repr

structure TenantKey where
  id : Bytes
  name : Bytes
  hash : Bytes
  role : KeyRole
  keyPatterns : List Bytes
  generation : UInt64
  revoked : Bool
deriving DecidableEq, Repr

/-- The empty role of the source is `standalone`. -/
inductive TenantRole where
  | standalone
  | primary
  | replica
deriving DecidableEq, Repr

/-- An empty `replicaOf` stands for none, and a `replicationPort` of zero likewise. -/
structure Tenant where
  id : Bytes
  name : Bytes
  httpPort : Nat
  respPort : Nat
  dataDir : Bytes
  role : TenantRole := .standalone
  replicaOf : Bytes := []
  replicationPort : Nat := 0
  replicas : List Bytes := []
  keys : AList (fun _ : Bytes => TenantKey) := ∅
  hibernated : Bool := false
  vectorEncoding : VectorEncoding
deriving DecidableEq

abbrev TenantTable := AList (fun _ : Bytes => Tenant)

structure Manager where
  tenants : TenantTable
  saved : Option TenantTable
  nextHTTPPort : Nat
  nextRESPPort : Nat
  nextReplPort : Nat
  dataRoot : Bytes

def maxTenantsPerNode : Nat := 100
def maxReplicasPerTenant : Nat := 2
def defaultReplicationPort : Nat := 7401

def replicaTenantID (id : Bytes) (n : Nat) : Bytes := id ++ ascii "-r" ++ ascii (toString n)

/-- `filepath.Join(dataRoot(), "tenants", id)`. The join cleans the data root: `data`,
`./data` and `data/` are one directory. An id is a single component of letters,
digits and dashes, which stays as it is. -/
def tenantDataDir (dataRoot id : Bytes) : Bytes :=
  let parts := cleanPath (dataRoot.splitOn 0x2f)
  -- nothing lies above the root of the file system
  let root := if dataRoot.head? = some 0x2f then [] :: parts.dropWhile (· = ascii "..") else parts
  ((root ++ [ascii "tenants"]).flatMap fun part => part ++ [0x2f]) ++ id

def Manager.saveState (m : Manager) : Manager := { m with saved := some m.tenants }

def tenantIDByte (c : UInt8) : Bool :=
  (0x61 ≤ c ∧ c ≤ 0x7a) ∨ (0x41 ≤ c ∧ c ≤ 0x5a) ∨ (0x30 ≤ c ∧ c ≤ 0x39) ∨ c = 0x2d

/-- The records enter the table as they are made. The source collects them first and
inserts them under its lock, and nothing reads the table in between. -/
def Manager.addPrimary (m : Manager) (id name : Bytes) (replicaCount : Nat)
    (encoding : VectorEncoding) : Manager :=
  let replicated := 0 < replicaCount
  let primary : Tenant :=
    { id, name, httpPort := m.nextHTTPPort, respPort := m.nextRESPPort
      dataDir := tenantDataDir m.dataRoot id
      role := if replicated then .primary else .standalone
      replicationPort := if replicated then m.nextReplPort else 0
      replicas := (List.range' 1 replicaCount).map (replicaTenantID id)
      vectorEncoding := encoding }
  { m with
    tenants := m.tenants.insert id primary
    nextHTTPPort := m.nextHTTPPort + 1
    nextRESPPort := m.nextRESPPort + 1
    nextReplPort := if replicated then m.nextReplPort + 1 else m.nextReplPort }

def Manager.addReplica (id name : Bytes) (encoding : VectorEncoding) (m : Manager) (n : Nat) :
    Manager :=
  let rid := replicaTenantID id n
  let replica : Tenant :=
    { id := rid, name := name ++ ascii " replica " ++ ascii (toString n)
      httpPort := m.nextHTTPPort, respPort := m.nextRESPPort
      dataDir := tenantDataDir m.dataRoot rid
      role := .replica, replicaOf := id, replicationPort := m.nextReplPort
      vectorEncoding := encoding }
  { m with
    tenants := m.tenants.insert rid replica
    nextHTTPPort := m.nextHTTPPort + 1
    nextRESPPort := m.nextRESPPort + 1
    nextReplPort := m.nextReplPort + 1 }

def Manager.addTenants (m : Manager) (id name : Bytes) (replicaCount : Nat)
    (encoding : VectorEncoding) : Manager :=
  (List.range' 1 replicaCount).foldl (addReplica id name encoding)
    (m.addPrimary id name replicaCount encoding)

def Manager.provisionWith (m : Manager) (id name : Bytes) (replicaCount : Int)
    (vectorEncoding : Bytes) : Except String Manager :=
  if id = [] then .error "invalid tenant id"
  else if ¬ id.all tenantIDByte then
    .error "invalid tenant id: only alphanumeric and dashes allowed"
  else if name = [] then .error "tenant name is required"
  else if replicaCount < 0 then .error "replica count must be >= 0"
  else if maxReplicasPerTenant < replicaCount then .error "at most 2 replicas per tenant"
  else
    match normalizeVectorEncoding vectorEncoding with
    | .error message => .error message
    | .ok encoding =>
      if id ∈ m.tenants then .error "tenant already exists"
      else
        match (List.range' 1 replicaCount.toNat).find? fun n =>
            replicaTenantID id n ∈ m.tenants with
        | some n => .error ("replica id " ++ rawText (replicaTenantID id n) ++ " already exists")
        | none =>
          if maxTenantsPerNode < m.tenants.entries.length + 1 + replicaCount.toNat then
            .error "v1 tenant limit reached: maximum 100 tenants per node"
          else .ok (m.addTenants id name replicaCount.toNat encoding).saveState

/-- The record keeps its identity and takes the storage and the listeners of another. -/
def Tenant.exchange (t other : Tenant) : Tenant :=
  { t with
    dataDir := other.dataDir
    httpPort := other.httpPort
    respPort := other.respPort
    replicationPort := other.replicationPort }

def Manager.promoteLocal (m : Manager) (replicaID : Bytes) : Except String Manager :=
  match m.tenants.lookup replicaID with
  | none => .error ("tenant " ++ rawText replicaID ++ " is not a replica")
  | some replica =>
    if replica.role ≠ .replica ∨ replica.replicaOf = [] then
      .error ("tenant " ++ rawText replicaID ++ " is not a replica")
    else
      match m.tenants.lookup replica.replicaOf with
      | none => .error ("primary " ++ rawText replica.replicaOf ++ " not found")
      | some primary =>
        .ok { m with
          tenants := (m.tenants.insert replica.replicaOf (primary.exchange replica)).insert
            replicaID (replica.exchange primary) }.saveState

def Manager.removeTenant (m : Manager) (t : Tenant) : Manager :=
  { m with tenants := m.tenants.erase t.id }.saveState

/-- A purge erases the directory as well, which the table does not show. -/
def Manager.deleteTenant (m : Manager) (id : Bytes) : Except String Manager :=
  match m.tenants.lookup id with
  | none => .error "tenant not found"
  | some t =>
    let members := if t.role ≠ .replica then t.replicas.filterMap m.tenants.lookup else []
    let removed := (members ++ [t]).foldl removeTenant m
    if t.replicaOf = [] then .ok removed
    else
      match removed.tenants.lookup t.replicaOf with
      | none => .ok removed
      | some primary =>
        let kept := primary.replicas.filter (· ≠ id)
        .ok { removed with
          tenants := removed.tenants.insert t.replicaOf { primary with replicas := kept }
        }.saveState

def Manager.hibernateTenant (m : Manager) (id : Bytes) : Except String Manager :=
  match m.tenants.lookup id with
  | none => .error "tenant not found"
  | some tenant =>
    if tenant.role = .replica then
      .error ("hibernate the primary, not replica " ++ rawText id)
    else .ok { m with tenants := m.tenants.insert id { tenant with hibernated := true } }.saveState

def Manager.wakeTenant (m : Manager) (id : Bytes) : Except String Manager :=
  match m.tenants.lookup id with
  | none => .error "tenant not found"
  | some tenant =>
    .ok { m with tenants := m.tenants.insert id { tenant with hibernated := false } }.saveState

def Manager.resume (m : Manager) (id : Bytes) : Manager :=
  match m.tenants.lookup id with
  | none => m
  | some t =>
    let nextHTTPPort := if m.nextHTTPPort ≤ t.httpPort then t.httpPort + 1 else m.nextHTTPPort
    let nextRESPPort := if m.nextRESPPort ≤ t.respPort then t.respPort + 1 else m.nextRESPPort
    let nextReplPort :=
      if m.nextReplPort ≤ t.replicationPort then t.replicationPort + 1 else m.nextReplPort
    let t' : Tenant :=
      { t with
        httpPort := if t.httpPort = 0 then nextHTTPPort else t.httpPort
        respPort := if t.respPort = 0 then nextRESPPort else t.respPort }
    { m with
      tenants := m.tenants.insert id t'
      nextHTTPPort := if t.httpPort = 0 then nextHTTPPort + 1 else nextHTTPPort
      nextRESPPort := if t.respPort = 0 then nextRESPPort + 1 else nextRESPPort
      nextReplPort }

/-- `NewManager` over a state file. The loop visits the table in the order that the
map iteration happens to take. -/
def newManager (dataRoot : Bytes) (saved : Option TenantTable) (order : List Bytes) : Manager :=
  order.foldl Manager.resume
    { tenants := saved.getD ∅, saved, nextHTTPPort := 8081, nextRESPPort := 6401
      nextReplPort := defaultReplicationPort, dataRoot }

end Dbx.Orchestrator
