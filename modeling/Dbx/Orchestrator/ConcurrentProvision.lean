import Dbx.Orchestrator.Placement

/-!
# Concurrent provisioning

`ProvisionWith` checks the table and takes ports in one locked section, and enters
the records in another: its own, or that of the state machine behind the Raft log.
Calls on any node interleave between the two. A node without a Raft group is taken
as a group of one, whose log is the order of the insertions.
-/

set_option autoImplicit false

namespace Dbx.Orchestrator

open Dbx.Engine Dbx.Protocol

namespace Manager

/-- The checks of `ProvisionWith`: the number of replicas and the encoding it goes on
with. -/
def provisionChecks (m : Manager) (id name : Bytes) (replicaCount : Int) (vectorEncoding : Bytes) :
    Except String (Nat × VectorEncoding) :=
  if id = [] then .error "invalid tenant id"
  else if ¬ id.all tenantIDByte then
    .error "invalid tenant id: only alphanumeric and dashes allowed"
  else if name = [] then .error "tenant name is required"
  else if replicaCount < 0 then .error "replica count must be >= 0"
  else if maxReplicasPerTenant < replicaCount then .error "at most 2 replicas per tenant"
  else
    match normalizeVectorEncoding vectorEncoding with
    | .error message => .error message
    | .ok encoding =>
      if id ∈ m.tenants then .error "tenant already exists"
      else
        match (List.range' 1 replicaCount.toNat).find? fun n =>
            replicaTenantID id n ∈ m.tenants with
        | some n => .error ("replica id " ++ rawText (replicaTenantID id n) ++ " already exists")
        | none =>
          if maxTenantsPerNode < m.tenants.entries.length + 1 + replicaCount.toNat then
            .error "v1 tenant limit reached: maximum 100 tenants per node"
          else .ok (replicaCount.toNat, encoding)

/-- The replica that a call makes in the `n`-th round of its loop. -/
def newReplica (m : Manager) (id name : Bytes) (encoding : VectorEncoding) (n : Nat) :
    Tenant :=
  { id := replicaTenantID id n, name := name ++ ascii " replica " ++ ascii (toString n)
    httpPort := m.nextHTTPPort + n, respPort := m.nextRESPPort + n
    dataDir := tenantDataDir m.dataRoot (replicaTenantID id n)
    role := .replica, replicaOf := id, replicationPort := m.nextReplPort + n
    vectorEncoding := encoding }

def newTenants (m : Manager) (id name : Bytes) (replicaCount : Nat) (encoding : VectorEncoding) :
    List Tenant :=
  let replicated := 0 < replicaCount
  let primary : Tenant :=
    { id, name, httpPort := m.nextHTTPPort, respPort := m.nextRESPPort
      dataDir := tenantDataDir m.dataRoot id
      role := if replicated then .primary else .standalone
      replicationPort := if replicated then m.nextReplPort else 0
      replicas := (List.range' 1 replicaCount).map (replicaTenantID id)
      vectorEncoding := encoding }
  primary :: (List.range' 1 replicaCount).map (m.newReplica id name encoding)

def takePorts (m : Manager) (replicaCount : Nat) : Manager :=
  { m with
    nextHTTPPort := m.nextHTTPPort + 1 + replicaCount
    nextRESPPort := m.nextRESPPort + 1 + replicaCount
    nextReplPort := if 0 < replicaCount then m.nextReplPort + 1 + replicaCount else m.nextReplPort }

end Manager

def TenantTable.enter (table : TenantTable) (records : List Tenant) : TenantTable :=
  records.foldl (fun table t => table.insert t.id t) table

def Manager.enter (m : Manager) (records : List Tenant) : Manager :=
  { m with tenants := TenantTable.enter m.tenants records }

section

variable (m : Manager) (id name : Bytes) (encoding : VectorEncoding) (count : Nat)

theorem Manager.foldl_addReplica_eq (table : TenantTable) :
    (List.range' 1 count).foldl (addReplica id name encoding)
        { m with
          tenants := table, nextHTTPPort := m.nextHTTPPort + 1
          nextRESPPort := m.nextRESPPort + 1, nextReplPort := m.nextReplPort + 1 } =
      { m with
        tenants := TenantTable.enter table
          ((List.range' 1 count).map (m.newReplica id name encoding))
        nextHTTPPort := m.nextHTTPPort + 1 + count
        nextRESPPort := m.nextRESPPort + 1 + count
        nextReplPort := m.nextReplPort + 1 + count } := by
  induction count with
  | zero => rfl
  | succ count ih =>
    rw [List.range'_concat, List.foldl_append, ih, List.map_append]
    simp only [TenantTable.enter, List.foldl_append, List.foldl_cons, List.foldl_nil,
      List.map_cons, List.map_nil, addReplica, newReplica, Nat.one_mul, Nat.add_assoc]

theorem Manager.addTenants_eq (replicaCount : Nat) (encoding : VectorEncoding) :
    m.addTenants id name replicaCount encoding =
      (m.takePorts replicaCount).enter (m.newTenants id name replicaCount encoding) := by
  cases replicaCount with
  | zero => rfl
  | succ count =>
    have replicated : 0 < count + 1 := Nat.succ_pos _
    simp only [addTenants, addPrimary, replicated, if_true, takePorts]
    exact m.foldl_addReplica_eq id name encoding (count + 1) _

theorem Manager.provisionWith_eq (replicaCount : Int) (vectorEncoding : Bytes) :
    m.provisionWith id name replicaCount vectorEncoding =
      (m.provisionChecks id name replicaCount vectorEncoding).map fun admitted =>
        ((m.takePorts admitted.1).enter
          (m.newTenants id name admitted.1 admitted.2)).saveState := by
  unfold provisionWith provisionChecks
  simp only [addTenants_eq]
  cases normalizeVectorEncoding vectorEncoding with
  | error message =>
    dsimp only
    repeat' split
    all_goals rfl
  | ok encoding =>
    cases (List.range' 1 replicaCount.toNat).find? fun n =>
        decide (replicaTenantID id n ∈ m.tenants) with
    | some n =>
      dsimp only
      repeat' split
      all_goals rfl
    | none =>
      dsimp only
      repeat' split
      all_goals rfl

theorem Manager.provisionChecks_cases {m : Manager} {id name : Bytes} {replicaCount : Int}
    {vectorEncoding : Bytes} {count : Nat} {encoding : VectorEncoding}
    (admitted : m.provisionChecks id name replicaCount vectorEncoding = .ok (count, encoding)) :
    count ≤ maxReplicasPerTenant ∧ ∀ n ≤ count, memberID id n ∉ m.tenants := by
  have done := m.provisionWith_eq id name replicaCount vectorEncoding
  rw [admitted] at done
  obtain ⟨given, rfl, small, -, free, -, -⟩ := provisionWith_cases done
  have same : count = given := by
    unfold provisionChecks at admitted
    repeat' split at admitted
    all_goals cases admitted
    rfl
  subst same
  exact ⟨small, fun n high => AList.lookup_eq_none.1 (free n high)⟩

theorem Manager.newTenants_ids (encoding : VectorEncoding) :
    (m.newTenants id name count encoding).map Tenant.id =
      (List.range (count + 1)).map (memberID id) := by
  rw [List.range_eq_range', List.range'_succ, List.map_cons, newTenants, List.map_cons,
    List.map_map]
  congr 1
  refine List.map_congr_left fun n listed => ?_
  have later : n ≠ 0 := by
    have := (List.mem_range'_1.1 listed).1
    omega
  exact (if_neg later).symm

theorem memberIDs_nodup {count : Nat} (small : count ≤ maxReplicasPerTenant) :
    ((List.range (count + 1)).map (memberID id)).Nodup := by
  refine List.Nodup.map_on (fun n listed k listed' same => ?_) List.nodup_range
  rw [List.mem_range] at listed listed'
  exact memberID_inj id (by omega) (by omega) same

end

namespace TenantTable

theorem enter_append (table : TenantTable) (first later : List Tenant) :
    enter table (first ++ later) = enter (enter table first) later :=
  List.foldl_append

variable {table : TenantTable} {records : List Tenant}

theorem mem_enter {id : Bytes} :
    id ∈ enter table records ↔ id ∈ table ∨ id ∈ records.map Tenant.id := by
  induction records generalizing table with
  | nil => simp [enter]
  | cons t records ih =>
    have step : enter table (t :: records) = enter (table.insert t.id t) records := rfl
    rw [step, ih, AList.mem_insert, List.map_cons, List.mem_cons]
    tauto

theorem lookup_enter_of_notMem {id : Bytes} (other : id ∉ records.map Tenant.id) :
    (enter table records).lookup id = table.lookup id := by
  induction records generalizing table with
  | nil => rfl
  | cons t records ih =>
    rw [List.map_cons, List.mem_cons, not_or] at other
    exact (ih other.2).trans (AList.lookup_insert_ne other.1)

theorem lookup_enter_of_mem (distinct : (records.map Tenant.id).Nodup) {t : Tenant}
    (listed : t ∈ records) :
    (enter table records).lookup t.id = some t := by
  induction records generalizing table with
  | nil => cases listed
  | cons first records ih =>
    rw [List.map_cons, List.nodup_cons] at distinct
    rcases List.mem_cons.1 listed with rfl | later
    · exact (lookup_enter_of_notMem distinct.1).trans (AList.lookup_insert _)
    · exact ih distinct.2 later

theorem length_enter (fresh : ∀ t ∈ records, t.id ∉ table)
    (distinct : (records.map Tenant.id).Nodup) :
    (enter table records).entries.length = table.entries.length + records.length := by
  induction records generalizing table with
  | nil => rfl
  | cons t records ih =>
    rw [List.map_cons, List.nodup_cons] at distinct
    have step : enter table (t :: records) = enter (table.insert t.id t) records := rfl
    have absent := fresh t (List.mem_cons_self ..)
    rw [step, ih ?_ distinct.2, AList.entries_insert_of_notMem absent, List.length_cons,
      List.length_cons]
    · omega
    · intro later listed
      rw [AList.mem_insert, not_or]
      refine ⟨fun same => distinct.1 ?_, fresh later (List.mem_cons_of_mem _ listed)⟩
      rw [← same]
      exact List.mem_map_of_mem listed

/-- Records with ids of their own, for which the table has room. -/
structure Admits (table : TenantTable) (records : List Tenant) : Prop where
  distinct : (records.map Tenant.id).Nodup
  fresh : ∀ t ∈ records, t.id ∉ table
  room : table.entries.length + records.length ≤ maxTenantsPerNode

namespace Admits

variable {table : TenantTable} {records : List Tenant}

theorem of_subperm (admits : Admits table records) {fewer : List Tenant}
    (part : fewer.Subperm records) : Admits table fewer := by
  obtain ⟨kept, perm, sublist⟩ := part
  refine ⟨?_, fun t listed => ?_, ?_⟩
  · exact (perm.map Tenant.id).nodup_iff.1 (admits.distinct.sublist (sublist.map Tenant.id))
  · exact admits.fresh t (sublist.subset (perm.mem_iff.2 listed))
  · have count := sublist.length_le
    rw [perm.length_eq] at count
    have room := admits.room
    omega

theorem append (admits : Admits table records) {new : List Tenant}
    (distinct : (new.map Tenant.id).Nodup) (fresh : ∀ id ∈ new.map Tenant.id, id ∉ table)
    (apart : ∀ id ∈ new.map Tenant.id, id ∉ records.map Tenant.id)
    (room : table.entries.length + records.length + new.length ≤ maxTenantsPerNode) :
    Admits table (records ++ new) := by
  refine ⟨?_, fun t listed => ?_, ?_⟩
  · rw [List.map_append, List.nodup_append']
    exact ⟨admits.distinct, distinct, fun id old added => apart id added old⟩
  · rcases List.mem_append.1 listed with old | added
    · exact admits.fresh t old
    · exact fresh t.id (List.mem_map_of_mem added)
  · rw [List.length_append]
    omega

theorem length_enter (admits : Admits table records) :
    (enter table records).entries.length = table.entries.length + records.length :=
  TenantTable.length_enter admits.fresh admits.distinct

end Admits

end TenantTable

/-- A node: its table, and how many entries of the log it has applied. -/
structure Site where
  manager : Manager
  applied : Nat

structure Pending where
  site : Nat
  records : List Tenant

structure Cluster where
  sites : Nat → Site
  log : List (List Tenant)
  pending : List Pending
  /-- The nodes with a call that waits for its entry, which comes second. -/
  waiting : List (Nat × Nat)
  succeeded : List Nat

/-- A pending call goes by its place. It is refused where its node is not the leader, or
where Raft does not take it. -/
inductive ClusterEvent where
  | check (site : Nat) (id name : Bytes) (replicaCount : Int) (vectorEncoding : Bytes)
  | insert (place : Nat) (saveError : Option String)
  | refuse (place : Nat)
  | propose (place : Nat)
  | apply (site : Nat)
  | reply (call : Nat × Nat) (error : Option String)

namespace Cluster

def start (table : TenantTable) (managers : Nat → Manager) : Cluster where
  sites n := ⟨{ managers n with tenants := table }, 0⟩
  log := []
  pending := []
  waiting := []
  succeeded := []

def enterAt (c : Cluster) (site : Nat) (records : List Tenant) : Nat → Site :=
  Function.update c.sites site
    ⟨(c.sites site).manager.enter records, (c.sites site).applied + 1⟩

def step (raft : Bool) (c : Cluster) : ClusterEvent → Except String Cluster
  | .check site id name replicaCount vectorEncoding =>
    if !raft && site ≠ 0 then .error "no such node"
    else
      let m := (c.sites site).manager
      match m.provisionChecks id name replicaCount vectorEncoding with
      | .error _ => .ok c
      | .ok (count, encoding) =>
        .ok { c with
          sites := Function.update c.sites site ⟨m.takePorts count, (c.sites site).applied⟩
          pending := c.pending ++ [⟨site, m.newTenants id name count encoding⟩] }
  | .insert place saveError =>
    match raft, c.pending[place]? with
    | false, some call =>
      .ok { c with
        sites := c.enterAt 0 call.records
        log := c.log ++ [call.records]
        pending := c.pending.eraseIdx place
        succeeded := if saveError.isNone then c.log.length :: c.succeeded else c.succeeded }
    | _, _ => .error "no such call"
  | .refuse place =>
    match raft with
    | true => .ok { c with pending := c.pending.eraseIdx place }
    | false => .error "no such call"
  | .propose place =>
    match raft, c.pending[place]? with
    | true, some call =>
      .ok { c with
        log := c.log ++ [call.records]
        pending := c.pending.eraseIdx place
        waiting := (call.site, c.log.length) :: c.waiting }
    | _, _ => .error "no such call"
  | .apply site =>
    match raft, c.log[(c.sites site).applied]? with
    | true, some records => .ok { c with sites := c.enterAt site records }
    | _, _ => .error "no such entry"
  | .reply call error =>
    if call ∉ c.waiting ∨ (error.isNone ∧ (c.sites call.1).applied ≤ call.2) then
      .error "no such call"
    else
      .ok { c with
        waiting := c.waiting.erase call
        succeeded := if error.isNone then call.2 :: c.succeeded else c.succeeded }

def underway (c : Cluster) (site : Nat) : List Tenant :=
  (c.log.drop (c.sites site).applied).flatten ++ c.pending.flatMap Pending.records

/-- A call that passes the checks would also pass them with the records that are still
to come. -/
def Clear (c : Cluster) : ClusterEvent → Prop
  | .check site id name replicaCount vectorEncoding =>
    ∀ count encoding, (c.sites site).manager.provisionChecks id name replicaCount vectorEncoding =
        .ok (count, encoding) →
      (∀ n ≤ count, memberID id n ∉ (c.underway site).map Tenant.id) ∧
      (c.sites site).manager.tenants.entries.length + (c.underway site).length + 1 + count ≤
        maxTenantsPerNode
  | _ => True

/-- Every id is provisioned once, every record stays as it was entered, and no node has
too many. -/
structure Safe (table : TenantTable) (c : Cluster) : Prop where
  once : (c.succeeded.flatMap fun i => (c.log[i]?.getD []).map Tenant.id).Nodup
  kept : ∀ site id t, table.lookup id = some t →
    (c.sites site).manager.tenants.lookup id = some t
  entered : ∀ site, ∀ records ∈ c.log.take (c.sites site).applied, ∀ t ∈ records,
    (c.sites site).manager.tenants.lookup t.id = some t
  limit : ∀ site, (c.sites site).manager.tenants.entries.length ≤ maxTenantsPerNode

def records (c : Cluster) : List Tenant := c.log.flatten ++ c.pending.flatMap Pending.records

structure Sound (raft : Bool) (table : TenantTable) (c : Cluster) : Prop where
  admits : TenantTable.Admits table c.records
  tables : ∀ site, (c.sites site).manager.tenants =
    TenantTable.enter table (c.log.take (c.sites site).applied).flatten
  applied : ∀ site, (c.sites site).applied ≤ c.log.length
  whole : raft = false → (c.sites 0).applied = c.log.length
  replies : (c.succeeded ++ c.waiting.map Prod.snd).Nodup
  replied : ∀ i ∈ c.succeeded ++ c.waiting.map Prod.snd, i < c.log.length

variable {raft : Bool} {table : TenantTable} {c : Cluster}

theorem records_handed_over {place : Nat} {call : Pending}
    (listed : c.pending[place]? = some call) :
    ((c.log ++ [call.records]).flatten ++ (c.pending.eraseIdx place).flatMap Pending.records).Perm
      c.records := by
  obtain ⟨low, rfl⟩ := List.getElem?_eq_some_iff.1 listed
  have order : (c.pending[place].records ++
      (c.pending.eraseIdx place).flatMap Pending.records).Perm
      (c.pending.flatMap Pending.records) :=
    (List.getElem_cons_eraseIdx_perm low).flatMap_right _
  rw [List.flatten_append, List.flatten_singleton, List.append_assoc]
  exact order.append_left _

theorem records_dropped (c : Cluster) (place : Nat) :
    (c.log.flatten ++ (c.pending.eraseIdx place).flatMap Pending.records).Subperm c.records :=
  (((List.eraseIdx_sublist ..).flatMap _).append_left _).subperm

theorem start_sound (managers : Nat → Manager)
    (room : table.entries.length ≤ maxTenantsPerNode) :
    (start table managers).Sound raft table where
  admits := ⟨List.nodup_nil, (fun _ listed => nomatch listed), room⟩
  tables _ := rfl
  applied _ := Nat.le_refl _
  whole _ := rfl
  replies := List.nodup_nil
  replied _ listed := nomatch listed

theorem taken_append_underway (c : Cluster) (site : Nat) :
    (c.log.take (c.sites site).applied).flatten ++ c.underway site = c.records := by
  rw [underway, ← List.append_assoc, ← List.flatten_append, List.take_append_drop, records]

theorem update_unmoved {site : Nat} {m : Manager}
    (same : m.tenants = (c.sites site).manager.tenants) (s : Nat) :
    let sites := Function.update c.sites site ⟨m, (c.sites site).applied⟩
    (sites s).applied = (c.sites s).applied ∧
      (sites s).manager.tenants = (c.sites s).manager.tenants := by
  intro sites
  by_cases here : s = site
  · subst here
    simp only [sites, Function.update_self]
    exact ⟨trivial, same⟩
  · simp only [sites, Function.update_of_ne here]
    exact ⟨trivial, trivial⟩

namespace Sound

theorem taken_admitted (sound : c.Sound raft table) (site : Nat) :
    TenantTable.Admits table (c.log.take (c.sites site).applied).flatten := by
  refine sound.admits.of_subperm ?_
  rw [← c.taken_append_underway site]
  exact (List.sublist_append_left ..).subperm

theorem tables_log (sound : c.Sound raft table) (records : List Tenant) (site : Nat) :
    (c.log ++ [records]).take (c.sites site).applied = c.log.take (c.sites site).applied :=
  List.take_append_of_le_length (sound.applied site)

theorem check (sound : c.Sound raft table) {site : Nat} {id name : Bytes} {replicaCount : Int}
    {vectorEncoding : Bytes} {count : Nat} {encoding : VectorEncoding}
    (admitted : (c.sites site).manager.provisionChecks id name replicaCount vectorEncoding =
      .ok (count, encoding))
    (clear : c.Clear (.check site id name replicaCount vectorEncoding)) :
    Sound raft table
      { c with
        sites := Function.update c.sites site
          ⟨(c.sites site).manager.takePorts count, (c.sites site).applied⟩
        pending := c.pending ++
          [⟨site, (c.sites site).manager.newTenants id name count encoding⟩] } := by
  obtain ⟨small, free⟩ := Manager.provisionChecks_cases admitted
  obtain ⟨apart, room⟩ := clear count encoding admitted
  have ids := (c.sites site).manager.newTenants_ids id name count encoding
  have member : ∀ x, x ∈ ((c.sites site).manager.newTenants id name count encoding).map
      Tenant.id → ∃ n ≤ count, x = memberID id n := by
    intro x listed
    rw [ids, List.mem_map] at listed
    obtain ⟨n, low, rfl⟩ := listed
    exact ⟨n, Nat.lt_succ_iff.1 (List.mem_range.1 low), rfl⟩
  -- The table of the node and what is to come to it together hold every record.
  have absent : ∀ n ≤ count, memberID id n ∉ table ∧ memberID id n ∉ c.records.map Tenant.id := by
    intro n low
    have here := free n low
    rw [sound.tables site, TenantTable.mem_enter, not_or] at here
    refine ⟨here.1, ?_⟩
    rw [← c.taken_append_underway site, List.map_append, List.mem_append, not_or]
    exact ⟨here.2, apart n low⟩
  have length : ((c.sites site).manager.newTenants id name count encoding).length = count + 1 := by
    rw [← List.length_map Tenant.id, ids, List.length_map, List.length_range]
  have total : (c.sites site).manager.tenants.entries.length + (c.underway site).length =
      table.entries.length + c.records.length := by
    rw [sound.tables site, (sound.taken_admitted site).length_enter, Nat.add_assoc,
      ← List.length_append, c.taken_append_underway site]
  have all : ({ c with
      pending := c.pending ++
        [⟨site, (c.sites site).manager.newTenants id name count encoding⟩] } : Cluster).records =
      c.records ++ (c.sites site).manager.newTenants id name count encoding := by
    simp only [records, List.flatMap_append, List.flatMap_singleton, List.append_assoc]
  have unmoved := update_unmoved (m := (c.sites site).manager.takePorts count) rfl
  refine ⟨?_, fun s => ?_, fun s => ?_, fun alone => ?_, sound.replies, sound.replied⟩
  · refine all ▸ sound.admits.append (ids ▸ memberIDs_nodup id small) (fun x listed => ?_)
      (fun x listed => ?_) (by omega)
    · obtain ⟨n, low, rfl⟩ := member x listed
      exact (absent n low).1
    · obtain ⟨n, low, rfl⟩ := member x listed
      exact (absent n low).2
  · rw [(unmoved s).1, (unmoved s).2, sound.tables s]
  · rw [(unmoved s).1]
    exact sound.applied s
  · rw [(unmoved 0).1]
    exact sound.whole alone

theorem refuse (sound : c.Sound raft table) (place : Nat) :
    Sound raft table { c with pending := c.pending.eraseIdx place } :=
  { sound with
    admits := sound.admits.of_subperm (c.records_dropped place) }

theorem propose (sound : c.Sound true table) {place : Nat} {call : Pending}
    (listed : c.pending[place]? = some call) :
    Sound true table
      { c with
        log := c.log ++ [call.records]
        pending := c.pending.eraseIdx place
        waiting := (call.site, c.log.length) :: c.waiting } where
  admits := sound.admits.of_subperm (records_handed_over listed).subperm
  tables s := by rw [sound.tables_log, sound.tables s]
  applied s := by
    rw [List.length_append]
    exact Nat.le_add_right_of_le (sound.applied s)
  whole := nofun
  replies := by
    rw [List.map_cons, List.nodup_middle, List.nodup_cons]
    exact ⟨fun old => absurd (sound.replied _ old) (Nat.lt_irrefl _), sound.replies⟩
  replied i listed := by
    rw [List.map_cons, List.mem_append, List.mem_cons, or_left_comm, ← List.mem_append] at listed
    rw [List.length_append, List.length_singleton]
    rcases listed with rfl | old
    · exact Nat.lt_succ_self _
    · exact Nat.lt_succ_of_lt (sound.replied i old)

theorem tables_enterAt (sound : c.Sound raft table) {log : List (List Tenant)}
    (before : ∀ site, log.take (c.sites site).applied = c.log.take (c.sites site).applied)
    {site : Nat} {records : List Tenant} (next : log[(c.sites site).applied]? = some records)
    (s : Nat) :
    (c.enterAt site records s).manager.tenants =
      TenantTable.enter table (log.take (c.enterAt site records s).applied).flatten := by
  by_cases here : s = site
  · subst here
    simp only [enterAt, Function.update_self, Manager.enter]
    rw [List.take_add_one, next, Option.toList_some, List.flatten_append, List.flatten_singleton,
      before, TenantTable.enter_append, sound.tables s]
  · simp only [enterAt, Function.update_of_ne here]
    rw [before, sound.tables s]

theorem applied_enterAt (sound : c.Sound raft table) {length : Nat}
    (longer : c.log.length ≤ length) {site : Nat} (next : (c.sites site).applied < length)
    (records : List Tenant) (s : Nat) : (c.enterAt site records s).applied ≤ length := by
  by_cases here : s = site
  · subst here
    simp only [enterAt, Function.update_self]
    exact next
  · simp only [enterAt, Function.update_of_ne here]
    exact (sound.applied s).trans longer

theorem apply (sound : c.Sound true table) {site : Nat} {records : List Tenant}
    (next : c.log[(c.sites site).applied]? = some records) :
    Sound true table { c with sites := c.enterAt site records } where
  admits := sound.admits
  tables := sound.tables_enterAt (fun _ => rfl) next
  applied := sound.applied_enterAt (Nat.le_refl _) (List.getElem?_eq_some_iff.1 next).1 records
  whole := nofun
  replies := sound.replies
  replied := sound.replied

theorem insert (sound : c.Sound false table) {place : Nat} {call : Pending}
    (listed : c.pending[place]? = some call) (saveError : Option String) :
    Sound false table
      { c with
        sites := c.enterAt 0 call.records
        log := c.log ++ [call.records]
        pending := c.pending.eraseIdx place
        succeeded := if saveError.isNone then c.log.length :: c.succeeded else c.succeeded } where
  admits := sound.admits.of_subperm (records_handed_over listed).subperm
  tables := by
    refine sound.tables_enterAt (sound.tables_log call.records) ?_
    rw [sound.whole rfl, List.getElem?_concat_length]
  applied := by
    refine sound.applied_enterAt ?_ ?_ call.records
    · rw [List.length_append]
      exact Nat.le_add_right ..
    · rw [sound.whole rfl, List.length_append]
      exact Nat.lt_succ_self _
  whole _ := by
    simp only [enterAt, Function.update_self, sound.whole rfl, List.length_append,
      List.length_singleton]
  replies := by
    split
    · rw [List.cons_append, List.nodup_cons]
      exact ⟨fun old => absurd (sound.replied _ old) (Nat.lt_irrefl _), sound.replies⟩
    · exact sound.replies
  replied i entry := by
    rw [List.length_append, List.length_singleton]
    split at entry
    · rcases List.mem_cons.1 entry with rfl | old
      · exact Nat.lt_succ_self _
      · exact Nat.lt_succ_of_lt (sound.replied i old)
    · exact Nat.lt_succ_of_lt (sound.replied i entry)

theorem reply (sound : c.Sound raft table) {call : Nat × Nat} (listed : call ∈ c.waiting)
    (error : Option String) :
    Sound raft table
      { c with
        waiting := c.waiting.erase call
        succeeded := if error.isNone then call.2 :: c.succeeded else c.succeeded } := by
  have order : (c.succeeded ++ c.waiting.map Prod.snd).Perm
      (call.2 :: c.succeeded ++ (c.waiting.erase call).map Prod.snd) :=
    (((List.perm_cons_erase listed).map Prod.snd).append_left _).trans List.perm_middle
  have part : ((if error.isNone then call.2 :: c.succeeded else c.succeeded) ++
      (c.waiting.erase call).map Prod.snd).Subperm (c.succeeded ++ c.waiting.map Prod.snd) := by
    refine List.Subperm.trans ?_ order.symm.subperm
    split
    · exact List.Subperm.refl _
    · exact (List.sublist_cons_self ..).subperm
  refine ⟨sound.admits, sound.tables, sound.applied, sound.whole, ?_,
    fun i entry => sound.replied i (part.subset entry)⟩
  obtain ⟨kept, perm, sublist⟩ := part
  exact perm.nodup_iff.1 (sound.replies.sublist sublist)

theorem step (sound : c.Sound raft table) {event : ClusterEvent} {c' : Cluster}
    (clear : c.Clear event) (stepped : c.step raft event = .ok c') : c'.Sound raft table := by
  cases event with
  | check site id name replicaCount vectorEncoding =>
    simp only [Cluster.step] at stepped
    split at stepped
    · cases stepped
    split at stepped
    · cases stepped
      exact sound
    rename_i count encoding admitted
    cases stepped
    exact sound.check admitted clear
  | insert place saveError =>
    simp only [Cluster.step] at stepped
    split at stepped
    · rename_i call listed
      cases stepped
      exact sound.insert listed saveError
    · cases stepped
  | refuse place =>
    simp only [Cluster.step] at stepped
    split at stepped
    · cases stepped
      exact sound.refuse place
    · cases stepped
  | propose place =>
    simp only [Cluster.step] at stepped
    split at stepped
    · rename_i call listed
      cases stepped
      exact sound.propose listed
    · cases stepped
  | apply site =>
    simp only [Cluster.step] at stepped
    split at stepped
    · rename_i records next
      cases stepped
      exact sound.apply next
    · cases stepped
  | reply call error =>
    simp only [Cluster.step] at stepped
    split at stepped
    · cases stepped
    rename_i passed
    cases stepped
    rw [not_or, not_not] at passed
    exact sound.reply passed.1 error

theorem once (sound : c.Sound raft table) :
    (c.succeeded.flatMap fun i => (c.log[i]?.getD []).map Tenant.id).Nodup := by
  have ids : ((c.log.map (List.map Tenant.id)).flatten).Nodup := by
    rw [← List.map_flatten]
    exact sound.admits.distinct.sublist ((List.sublist_append_left ..).map _)
  rw [List.nodup_flatten, List.pairwise_map, List.pairwise_iff_getElem] at ids
  obtain ⟨each, apart⟩ := ids
  have low : ∀ i ∈ c.succeeded, i < c.log.length :=
    fun i listed => sound.replied i (List.mem_append_left _ listed)
  have entry : ∀ i (low : i < c.log.length), c.log[i]?.getD [] = c.log[i] := by
    intro i low
    rw [List.getElem?_eq_getElem low, Option.getD_some]
  rw [List.nodup_flatMap]
  refine ⟨fun i listed => ?_, ?_⟩
  · rw [entry i (low i listed)]
    exact each _ (List.mem_map_of_mem (List.getElem_mem _))
  · have different := sound.replies.sublist (List.sublist_append_left ..)
    refine different.imp_of_mem fun {i j} listed listed' other => ?_
    rw [Function.onFun, entry i (low i listed), entry j (low j listed')]
    rcases Nat.lt_or_gt_of_ne other with before | behind
    · exact apart i j _ _ before
    · exact (apart j i _ _ behind).symm

theorem safe (sound : c.Sound raft table) : c.Safe table where
  once := sound.once
  kept site id t present := by
    have admits := sound.taken_admitted site
    have other : id ∉ (c.log.take (c.sites site).applied).flatten.map Tenant.id := by
      intro listed
      obtain ⟨t', entry, rfl⟩ := List.mem_map.1 listed
      exact admits.fresh t' entry (AList.lookup_isSome.1 (by rw [present]; rfl))
    rw [sound.tables site, TenantTable.lookup_enter_of_notMem other, present]
  entered site records applied t listed := by
    rw [sound.tables site]
    exact TenantTable.lookup_enter_of_mem (sound.taken_admitted site).distinct
      (List.mem_flatten_of_mem applied listed)
  limit site := by
    rw [sound.tables site, (sound.taken_admitted site).length_enter]
    exact (sound.taken_admitted site).room

end Sound

/-- Along every run in which a call passes its checks only where it would also pass
them with the records still to come, provisioning is safe. -/
theorem reaches_safe (raft : Bool) (table : TenantTable) (managers : Nat → Manager)
    (room : table.entries.length ≤ maxTenantsPerNode) (c : Cluster)
    (reached : Runs.Reaches (step raft) Clear (start table managers) c) : c.Safe table := by
  have sound : c.Sound raft table :=
    reached.invariant (start_sound managers room) fun _ _ _ sound clear stepped =>
      sound.step clear stepped
  exact sound.safe

def emptyManager : Manager :=
  { tenants := ∅, saved := none, nextHTTPPort := 8081, nextRESPPort := 6401, nextReplPort := 7401
    dataRoot := ascii "/data" }

/-- The record of a tenant without replicas, made when `n` others had taken ports. -/
def newRecord (id name : Bytes) (n : Nat) : Tenant :=
  { id, name, httpPort := 8081 + n, respPort := 6401 + n
    dataDir := tenantDataDir (ascii "/data") id, vectorEncoding := .sq8 }

def overlap (id id' name name' : Bytes) : List ClusterEvent :=
  [.check 0 id name 0 [], .check 0 id' name' 0 [], .insert 0 none, .insert 0 none]

/-- Two calls for one tenant succeed, and the second replaces the record of the first. -/
theorem overlapping_calls_collide :
    ∃ c, Runs.Reaches (step false) (fun _ _ => True) (start ∅ fun _ => emptyManager) c ∧
      c.succeeded = [1, 0] ∧
      c.log = [[newRecord (ascii "acme") (ascii "first") 0],
        [newRecord (ascii "acme") (ascii "second") 1]] ∧
      (c.sites 0).manager.tenants.lookup (ascii "acme") =
        some (newRecord (ascii "acme") (ascii "second") 1) ∧
      ¬ c.Safe ∅ := by
  have done : ∃ c, Runs.run (step false) (fun _ _ => true) (start ∅ fun _ => emptyManager)
      (overlap (ascii "acme") (ascii "acme") (ascii "first") (ascii "second")) = some c ∧
      c.succeeded = [1, 0] ∧
      c.log = [[newRecord (ascii "acme") (ascii "first") 0],
        [newRecord (ascii "acme") (ascii "second") 1]] ∧
      (c.sites 0).manager.tenants.lookup (ascii "acme") =
        some (newRecord (ascii "acme") (ascii "second") 1) :=
    ⟨_, rfl, rfl, rfl, rfl⟩
  obtain ⟨c, ran, succeeded, log, kept⟩ := done
  refine ⟨c, .run (fun _ _ _ => trivial) .start ran, succeeded, log, kept, fun safe => ?_⟩
  have once := safe.once
  rw [succeeded, log] at once
  exact absurd once (by decide)

def clearTest (c : Cluster) : ClusterEvent → Bool
  | .check site id name replicaCount vectorEncoding =>
    match (c.sites site).manager.provisionChecks id name replicaCount vectorEncoding with
    | .error _ => true
    | .ok (count, _) =>
      ((List.range (count + 1)).all fun n =>
        memberID id n ∉ (c.underway site).map Tenant.id) &&
      (c.sites site).manager.tenants.entries.length + (c.underway site).length + 1 + count ≤
        maxTenantsPerNode
  | _ => true

theorem clearTest_clear {event : ClusterEvent} (passed : clearTest c event = true) :
    c.Clear event := by
  cases event with
  | check site id name replicaCount vectorEncoding =>
    intro count encoding admitted
    simp only [clearTest, admitted, Bool.and_eq_true, List.all_eq_true, decide_eq_true_eq] at passed
    exact ⟨fun n low => passed.1 n (List.mem_range.2 (Nat.lt_succ_of_le low)), passed.2⟩
  | _ => trivial

theorem overlapping_calls_apart :
    ∃ c, Runs.Reaches (step false) Clear (start ∅ fun _ => emptyManager) c ∧
      c.succeeded = [1, 0] ∧ c.Safe ∅ := by
  have done : ∃ c, Runs.run (step false) clearTest (start ∅ fun _ => emptyManager)
      (overlap (ascii "acme") (ascii "beta") (ascii "first") (ascii "second")) = some c ∧
      c.succeeded = [1, 0] :=
    ⟨_, rfl, rfl⟩
  obtain ⟨c, ran, succeeded⟩ := done
  have reached : Runs.Reaches (step false) Clear (start ∅ fun _ => emptyManager) c :=
    .run (fun _ _ => clearTest_clear) .start ran
  exact ⟨c, reached, succeeded, reaches_safe false ∅ _ (Nat.zero_le _) c reached⟩

end Cluster

end Dbx.Orchestrator
