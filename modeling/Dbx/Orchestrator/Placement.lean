import Dbx.Library.Runs
import Dbx.Orchestrator.Manager
import Mathlib.Logic.Equiv.Basic
import Mathlib.Tactic.IntervalCases

/-!
# Storage and listeners of the tenants

A directory is derived from an id when a tenant is provisioned. A failover then
exchanges directories and ports between two records, so that an id that becomes
free again may belong to a directory that is still in use.
-/

set_option autoImplicit false

namespace Dbx.Orchestrator

open Dbx.Engine

structure Place where
  dataDir : Bytes
  httpPort : Nat
  respPort : Nat
  replicationPort : Nat

def Tenant.place (t : Tenant) : Place := ⟨t.dataDir, t.httpPort, t.respPort, t.replicationPort⟩

structure Place.Apart (a b : Place) : Prop where
  dataDir : a.dataDir ≠ b.dataDir
  httpPort : a.httpPort ≠ b.httpPort
  respPort : a.respPort ≠ b.respPort
  replicationPort : a.replicationPort ≠ 0 → a.replicationPort ≠ b.replicationPort

structure Family where
  role : TenantRole
  replicaOf : Bytes
  replicas : List Bytes

def Tenant.family (t : Tenant) : Family := ⟨t.role, t.replicaOf, t.replicas⟩

namespace Manager

def place (m : Manager) (id : Bytes) : Option Place := (m.tenants.lookup id).map Tenant.place

def family (m : Manager) (id : Bytes) : Option Family := (m.tenants.lookup id).map Tenant.family

theorem place_of_lookup {m : Manager} {id : Bytes} {t : Tenant}
    (found : m.tenants.lookup id = some t) : m.place id = some t.place := by
  rw [place, found, Option.map_some]

theorem family_of_lookup {m : Manager} {id : Bytes} {t : Tenant}
    (found : m.tenants.lookup id = some t) : m.family id = some t.family := by
  rw [family, found, Option.map_some]

end Manager

/-!
## Runs of the control plane
-/

/-- The operations of the control plane. A restart has a data root of its own and
visits the saved table in some order. -/
inductive ControlEvent where
  | provision (id name : Bytes) (replicaCount : Int) (vectorEncoding : Bytes)
  | promote (replicaID : Bytes)
  | delete (id : Bytes) (purge : Bool)
  | hibernate (id : Bytes)
  | wake (id : Bytes)
  | restart (dataRoot : Bytes) (order : List Bytes)

def Manager.step (m : Manager) : ControlEvent → Except String Manager
  | .provision id name replicaCount vectorEncoding =>
    m.provisionWith id name replicaCount vectorEncoding
  | .promote replicaID => m.promoteLocal replicaID
  | .delete id _ => m.deleteTenant id
  | .hibernate id => m.hibernateTenant id
  | .wake id => m.wakeTenant id
  | .restart dataRoot order =>
    if order.Perm (m.saved.getD ∅).keys then .ok (newManager dataRoot m.saved order)
    else .error "not an order of the saved table"

/-- Any two tenants are apart, and the replica lists agree with the replicas' own
records. -/
structure Manager.Consistent (m : Manager) : Prop where
  apart : ∀ a b s t, m.tenants.lookup a = some s → m.tenants.lookup b = some t → a ≠ b →
    s.place.Apart t.place
  listed : ∀ p t, m.tenants.lookup p = some t →
    ∀ r, r ∈ t.replicas ↔ ∃ s, m.tenants.lookup r = some s ∧ s.replicaOf = p
  owned : ∀ r s, m.tenants.lookup r = some s → s.replicaOf ≠ [] →
    ∃ t, m.tenants.lookup s.replicaOf = some t

/-- The ids that one provisioning creates: the tenant's and those of its replicas. -/
def memberID (id : Bytes) (n : Nat) : Bytes := if n = 0 then id else replicaTenantID id n

/-- No tenant uses the directory of an id that is about to be provisioned. -/
def Manager.Vacant (m : Manager) : ControlEvent → Prop
  | .provision id _ replicaCount _ => ∀ n : Nat, n ≤ replicaCount → ∀ other t,
      m.tenants.lookup other = some t → t.dataDir ≠ tenantDataDir m.dataRoot (memberID id n)
  | _ => True

/-!
## The invariant
-/

structure Linked (family : Bytes → Option Family) : Prop where
  named : family [] = none
  listed : ∀ p fp, family p = some fp →
    ∀ r, r ∈ fp.replicas ↔ ∃ fr, family r = some fr ∧ fr.replicaOf = p
  owned : ∀ r fr, family r = some fr → fr.replicaOf ≠ [] → ∃ fp, family fr.replicaOf = some fp
  flat : ∀ r fr, family r = some fr → fr.replicaOf ≠ [] → fr.replicas = []
  typed : ∀ r fr, family r = some fr → fr.role = .replica → fr.replicaOf ≠ []

def Separate (place : Bytes → Option Place) : Prop :=
  ∀ a b pa pb, place a = some pa → place b = some pb → a ≠ b → pa.Apart pb

structure Place.Allocated (m : Manager) (p : Place) : Prop where
  httpPort : 0 < p.httpPort ∧ p.httpPort < m.nextHTTPPort
  respPort : 0 < p.respPort ∧ p.respPort < m.nextRESPPort
  replicationPort : p.replicationPort < m.nextReplPort

structure Manager.Sound (m : Manager) : Prop where
  filed : ∀ id t, m.tenants.lookup id = some t → t.id = id
  separate : Separate m.place
  linked : Linked m.family
  allocated : ∀ id p, m.place id = some p → p.Allocated m
  started : 0 < m.nextHTTPPort ∧ 0 < m.nextRESPPort ∧ 0 < m.nextReplPort
  stored : ∀ x, (m.saved.getD ∅).lookup x = m.tenants.lookup x

variable {m : Manager}

theorem Manager.Sound.consistent (sound : m.Sound) : m.Consistent where
  apart a b s t left right different :=
    sound.separate a b _ _ (place_of_lookup left) (place_of_lookup right) different
  listed p t found r := by
    rw [show t.replicas = t.family.replicas from rfl,
      sound.linked.listed p _ (family_of_lookup found) r]
    constructor
    · rintro ⟨fr, present, owner⟩
      obtain ⟨s, replica, rfl⟩ := Option.map_eq_some_iff.mp present
      exact ⟨s, replica, owner⟩
    · rintro ⟨s, replica, owner⟩
      exact ⟨s.family, family_of_lookup replica, owner⟩
  owned r s found replica := by
    obtain ⟨fp, present⟩ := sound.linked.owned r _ (family_of_lookup found) replica
    obtain ⟨t, primary, -⟩ := Option.map_eq_some_iff.mp present
    exact ⟨t, primary⟩

/-!
## Hibernation and failover
-/

theorem Manager.place_reset {m : Manager} {id : Bytes} {old new : Tenant}
    (found : m.tenants.lookup id = some old) (samePlace : new.place = old.place) :
    ({ m with tenants := m.tenants.insert id new } : Manager).saveState.place = m.place := by
  funext x
  by_cases same : x = id
  · subst same
    have here :
        ({ m with tenants := m.tenants.insert x new } : Manager).saveState.tenants.lookup x =
          some new := AList.lookup_insert m.tenants
    rw [place_of_lookup here, place_of_lookup found, samePlace]
  · exact congrArg (Option.map Tenant.place) (AList.lookup_insert_ne same)

theorem Manager.family_reset {id : Bytes} {old new : Tenant}
    (found : m.tenants.lookup id = some old) (sameFamily : new.family = old.family) :
    ({ m with tenants := m.tenants.insert id new } : Manager).saveState.family = m.family := by
  funext x
  by_cases same : x = id
  · subst same
    have here :
        ({ m with tenants := m.tenants.insert x new } : Manager).saveState.tenants.lookup x =
          some new := AList.lookup_insert m.tenants
    rw [family_of_lookup here, family_of_lookup found, sameFamily]
  · exact congrArg (Option.map Tenant.family) (AList.lookup_insert_ne same)

theorem Manager.Sound.reset (sound : m.Sound) {id : Bytes} {old new : Tenant}
    (found : m.tenants.lookup id = some old) (sameID : new.id = old.id)
    (samePlace : new.place = old.place) (sameFamily : new.family = old.family) :
    ({ m with tenants := m.tenants.insert id new } : Manager).saveState.Sound := by
  have places := place_reset found samePlace
  have families := family_reset found sameFamily
  constructor
  · intro x t present
    by_cases same : x = id
    · subst same
      cases (AList.lookup_insert m.tenants).symm.trans present
      exact sameID.trans (sound.filed x old found)
    · exact sound.filed x t ((AList.lookup_insert_ne same).symm.trans present)
  · exact places ▸ sound.separate
  · exact families ▸ sound.linked
  · intro x p present
    obtain ⟨http, resp, repl⟩ := sound.allocated x p (places ▸ present)
    exact ⟨http, resp, repl⟩
  · exact sound.started
  · exact fun _ => rfl

variable {m' : Manager}

theorem Manager.hibernateTenant_cases {id : Bytes} (done : m.hibernateTenant id = .ok m') :
    ∃ tenant, m.tenants.lookup id = some tenant ∧
      m' = ({ m with
        tenants := m.tenants.insert id { tenant with hibernated := true } } :
          Manager).saveState := by
  unfold hibernateTenant at done
  cases found : m.tenants.lookup id with
  | none => simp only [found, reduceCtorEq] at done
  | some tenant =>
    by_cases role : tenant.role = .replica
    · simp only [found, role, if_true, reduceCtorEq] at done
    · simp only [found, role, if_false, Except.ok.injEq] at done
      exact ⟨tenant, rfl, done.symm⟩

theorem Manager.wakeTenant_cases {id : Bytes} (done : m.wakeTenant id = .ok m') :
    ∃ tenant, m.tenants.lookup id = some tenant ∧
      m' = ({ m with
        tenants := m.tenants.insert id { tenant with hibernated := false } } :
          Manager).saveState := by
  unfold wakeTenant at done
  cases found : m.tenants.lookup id with
  | none => simp only [found, reduceCtorEq] at done
  | some tenant =>
    simp only [found, Except.ok.injEq] at done
    exact ⟨tenant, rfl, done.symm⟩

theorem Manager.hibernateTenant_sound (sound : m.Sound) {id : Bytes}
    (done : m.hibernateTenant id = .ok m') : m'.Sound := by
  obtain ⟨tenant, found, rfl⟩ := hibernateTenant_cases done
  exact sound.reset found rfl rfl rfl

theorem Manager.wakeTenant_sound (sound : m.Sound) {id : Bytes} (done : m.wakeTenant id = .ok m') :
    m'.Sound := by
  obtain ⟨tenant, found, rfl⟩ := wakeTenant_cases done
  exact sound.reset found rfl rfl rfl

theorem Manager.promoteLocal_cases {replicaID : Bytes} (done : m.promoteLocal replicaID = .ok m') :
    ∃ replica primary, m.tenants.lookup replicaID = some replica ∧ replica.replicaOf ≠ [] ∧
      m.tenants.lookup replica.replicaOf = some primary ∧
      m' = ({ m with
        tenants := (m.tenants.insert replica.replicaOf (primary.exchange replica)).insert
          replicaID (replica.exchange primary) } : Manager).saveState := by
  unfold promoteLocal at done
  cases found : m.tenants.lookup replicaID with
  | none => simp only [found, reduceCtorEq] at done
  | some replica =>
    simp only [found] at done
    by_cases unfit : replica.role ≠ .replica ∨ replica.replicaOf = []
    · simp only [unfit, if_true, reduceCtorEq] at done
    rw [if_neg unfit] at done
    cases owner : m.tenants.lookup replica.replicaOf with
    | none => simp only [owner, reduceCtorEq] at done
    | some primary =>
      simp only [owner, Except.ok.injEq] at done
      exact ⟨replica, primary, rfl, fun empty => unfit (.inr empty), owner, done.symm⟩

theorem Separate.comp_injective {place : Bytes → Option Place} (separate : Separate place)
    {f : Bytes → Bytes} (injective : Function.Injective f) : Separate (place ∘ f) :=
  fun a b pa pb left right different =>
    separate (f a) (f b) pa pb left right (injective.ne different)

variable {family : Bytes → Option Family}

theorem Linked.not_own_replica (linked : Linked family) {r : Bytes} {fr : Family}
    (found : family r = some fr) (replica : fr.replicaOf ≠ []) :
    fr.replicaOf ≠ r := by
  intro same
  have listed := (linked.listed r fr found r).mpr ⟨fr, found, same⟩
  rw [linked.flat r fr found replica] at listed
  cases listed

theorem Manager.promoteLocal_lookup (sound : m.Sound) {replicaID : Bytes} {replica primary : Tenant}
    (found : m.tenants.lookup replicaID = some replica)
    (owner : m.tenants.lookup replica.replicaOf = some primary)
    (done : m.promoteLocal replicaID = .ok m') :
    replica.replicaOf ≠ replicaID ∧
      m'.tenants.lookup replicaID = some (replica.exchange primary) ∧
      m'.tenants.lookup replica.replicaOf = some (primary.exchange replica) ∧
      ∀ x, x ≠ replicaID → x ≠ replica.replicaOf → m'.tenants.lookup x = m.tenants.lookup x := by
  obtain ⟨replica', primary', found', isReplica, owner', changed⟩ := promoteLocal_cases done
  cases found.symm.trans found'
  cases owner.symm.trans owner'
  have different : replica.replicaOf ≠ replicaID :=
    sound.linked.not_own_replica (family_of_lookup found) isReplica
  subst changed
  refine ⟨different, AList.lookup_insert _, ?_, ?_⟩
  · exact (AList.lookup_insert_ne different).trans (AList.lookup_insert _)
  · intro x notReplica notPrimary
    exact (AList.lookup_insert_ne notReplica).trans (AList.lookup_insert_ne notPrimary)

theorem Manager.promoteLocal_sound (sound : m.Sound) {replicaID : Bytes}
    (done : m.promoteLocal replicaID = .ok m') : m'.Sound := by
  obtain ⟨replica, primary, found, -, owner, changed⟩ := promoteLocal_cases done
  obtain ⟨-, atReplica, atPrimary, elsewhere⟩ := promoteLocal_lookup sound found owner done
  have places : m'.place = m.place ∘ Equiv.swap replicaID replica.replicaOf := by
    funext x
    rcases eq_or_ne x replicaID with rfl | notReplica
    · rw [Function.comp_apply, Equiv.swap_apply_left, place_of_lookup atReplica,
        place_of_lookup owner]
      rfl
    · rcases eq_or_ne x replica.replicaOf with same | notPrimary
      · rw [Function.comp_apply, same, Equiv.swap_apply_right, place_of_lookup atPrimary,
          place_of_lookup found]
        rfl
      · rw [Function.comp_apply, Equiv.swap_apply_of_ne_of_ne notReplica notPrimary, place, place,
          elsewhere x notReplica notPrimary]
  have families : m'.family = m.family := by
    funext x
    rcases eq_or_ne x replicaID with rfl | notReplica
    · rw [family_of_lookup atReplica, family_of_lookup found]
      rfl
    rcases eq_or_ne x replica.replicaOf with same | notPrimary
    · rw [same, family_of_lookup atPrimary, family_of_lookup owner]
      rfl
    · rw [family, family, elsewhere x notReplica notPrimary]
  constructor
  · intro x t present
    rcases eq_or_ne x replicaID with rfl | notReplica
    · cases atReplica.symm.trans present
      exact sound.filed x replica found
    rcases eq_or_ne x replica.replicaOf with same | notPrimary
    · rw [same] at present ⊢
      cases atPrimary.symm.trans present
      exact sound.filed replica.replicaOf primary owner
    · exact sound.filed x t ((elsewhere x notReplica notPrimary).symm.trans present)
  · exact places ▸ sound.separate.comp_injective (Equiv.swap _ _).injective
  · exact families ▸ sound.linked
  · intro x p present
    rw [places] at present
    obtain ⟨http, resp, repl⟩ := sound.allocated _ p present
    subst changed
    exact ⟨http, resp, repl⟩
  · subst changed
    exact sound.started
  · subst changed
    exact fun _ => rfl

/-!
## Removal
-/

theorem Manager.foldl_removeTenant (ts : List Tenant) (m : Manager) :
    ∃ saved, ts.foldl removeTenant m =
      { m with tenants := ts.foldl (fun table t => table.erase t.id) m.tenants, saved } := by
  induction ts generalizing m with
  | nil => exact ⟨m.saved, rfl⟩
  | cons t ts ih => exact ih (m.removeTenant t)

theorem lookup_foldl_erase (ts : List Tenant) (table : TenantTable) (x : Bytes) :
    (ts.foldl (fun table t => table.erase t.id) table).lookup x =
      if x ∈ ts.map Tenant.id then none else table.lookup x := by
  induction ts generalizing table with
  | nil => rfl
  | cons t ts ih =>
    rw [List.foldl_cons, ih, List.map_cons]
    by_cases later : x ∈ ts.map Tenant.id
    · rw [if_pos later, if_pos (List.mem_cons_of_mem _ later)]
    rw [if_neg later]
    by_cases same : x = t.id
    · rw [same, AList.lookup_erase, if_pos (List.mem_cons_self ..)]
    · rw [AList.lookup_erase_ne same, if_neg (by simp [same, later])]

/-- The record of a tenant after a removal from the replica set of its primary. -/
def Tenant.dropReplica (t : Tenant) (id : Bytes) : Tenant :=
  { t with replicas := t.replicas.filter (· ≠ id) }

theorem Manager.Sound.members (sound : m.Sound) {id : Bytes} {t : Tenant}
    (found : m.tenants.lookup id = some t) :
    (if t.role ≠ .replica then t.replicas.filterMap m.tenants.lookup else []).map Tenant.id =
      t.replicas := by
  by_cases replica : t.role = .replica
  · have owned := sound.linked.typed id _ (family_of_lookup found) replica
    have none : t.replicas = [] := sound.linked.flat id _ (family_of_lookup found) owned
    rw [if_neg (not_not_intro replica), none]
    rfl
  · rw [if_pos replica, List.map_filterMap]
    have all : ∀ r ∈ t.replicas, (m.tenants.lookup r).map Tenant.id = some r := by
      intro r member
      obtain ⟨s, present, -⟩ := (sound.consistent.listed id t found r).mp member
      rw [present, Option.map_some, sound.filed r s present]
    rw [List.filterMap_congr all, List.filterMap_some]

theorem Manager.deleteTenant_cases (sound : m.Sound) {id : Bytes}
    (done : m.deleteTenant id = .ok m') :
    ∃ t table, m.tenants.lookup id = some t ∧
      m' = ({ m with tenants := table } : Manager).saveState ∧
      ∀ x, table.lookup x = if x = id ∨ x ∈ t.replicas then none
        else (m.tenants.lookup x).map fun s => if x = t.replicaOf then s.dropReplica id else s := by
  unfold deleteTenant at done
  cases found : m.tenants.lookup id with
  | none => simp only [found, reduceCtorEq] at done
  | some t =>
    simp only [found] at done
    generalize gathered :
      (if t.role ≠ .replica then t.replicas.filterMap m.tenants.lookup else []) = members at done
    have ids : (members ++ [t]).map Tenant.id = t.replicas ++ [id] := by
      rw [List.map_append, ← gathered, sound.members found]
      simp [sound.filed id t found]
    obtain ⟨saved, removed⟩ := foldl_removeTenant members m
    let table := (members ++ [t]).foldl (fun table t => table.erase t.id) m.tenants
    have after : (members ++ [t]).foldl removeTenant m =
        ({ m with tenants := table } : Manager).saveState := by
      rw [List.foldl_append, removed]
      simp only [table, List.foldl_append]
      rfl
    have erased : ∀ x, table.lookup x =
        if x = id ∨ x ∈ t.replicas then none else m.tenants.lookup x := by
      intro x
      rw [lookup_foldl_erase, ids]
      simp only [List.mem_append, List.mem_singleton, or_comm]
    rw [after] at done
    by_cases unowned : t.replicaOf = []
    · simp only [unowned, if_true, Except.ok.injEq] at done
      refine ⟨t, table, rfl, done.symm, fun x => ?_⟩
      rw [erased x]
      split
      · rfl
      cases present : m.tenants.lookup x with
      | none => rfl
      | some s =>
        have named : x ≠ t.replicaOf := by
          intro same
          have missing := sound.linked.named
          rw [← unowned, ← same, family_of_lookup present] at missing
          cases missing
        rw [Option.map_some, if_neg named]
    · rw [if_neg unowned] at done
      cases owner : table.lookup t.replicaOf with
      | none =>
        have stays : ({ m with tenants := table } : Manager).saveState.tenants.lookup
            t.replicaOf = none := owner
        simp only [stays, Except.ok.injEq] at done
        refine ⟨t, table, rfl, done.symm, fun x => ?_⟩
        rw [erased x]
        split
        · rfl
        rename_i kept
        have named : x ≠ t.replicaOf ∨ m.tenants.lookup x = none := by
          by_cases same : x = t.replicaOf
          · refine .inr ?_
            rw [← same, erased x, if_neg kept] at owner
            exact owner
          · exact .inl same
        rcases named with other | missing
        · simp [other]
        · rw [missing, Option.map_none]
      | some primary =>
        have stays : ({ m with tenants := table } : Manager).saveState.tenants.lookup
            t.replicaOf = some primary := owner
        simp only [stays, Except.ok.injEq] at done
        refine ⟨t, table.insert t.replicaOf (primary.dropReplica id), rfl, done.symm,
          fun x => ?_⟩
        by_cases same : x = t.replicaOf
        · subst same
          rw [erased] at owner
          split at owner
          · cases owner
          · rename_i kept
            rw [AList.lookup_insert, if_neg kept, owner, Option.map_some, if_pos rfl]
        · rw [AList.lookup_insert_ne same, erased x]
          simp [same]

theorem Separate.restrict {place smaller : Bytes → Option Place} (separate : Separate place)
    (kept : ∀ x p, smaller x = some p → place x = some p) : Separate smaller :=
  fun a b pa pb left right => separate a b pa pb (kept a pa left) (kept b pb right)

def Family.dropReplica (f : Family) (id : Bytes) : Family :=
  { f with replicas := f.replicas.filter (· ≠ id) }

theorem Linked.remove {smaller : Bytes → Option Family} (linked : Linked family) {id : Bytes}
    {t : Family} (found : family id = some t)
    (after : ∀ x, smaller x = if x = id ∨ x ∈ t.replicas then none
      else (family x).map fun f => if x = t.replicaOf then f.dropReplica id else f) :
    Linked smaller := by
  have inversion : ∀ x f', smaller x = some f' → x ≠ id ∧ x ∉ t.replicas ∧
      ∃ f, family x = some f ∧ f' = if x = t.replicaOf then f.dropReplica id else f := by
    intro x f' present
    rw [after x] at present
    split at present
    · cases present
    rename_i kept
    obtain ⟨f, before, changed⟩ := Option.map_eq_some_iff.mp present
    exact ⟨fun same => kept (.inl same), fun member => kept (.inr member), f, before, changed.symm⟩
  have view : ∀ x f, family x = some f → x ≠ id → x ∉ t.replicas →
      smaller x = some (if x = t.replicaOf then f.dropReplica id else f) := by
    intro x f before other unlisted
    rw [after x, if_neg (by simp [other, unlisted]), before, Option.map_some]
  have nonempty : id ≠ [] := by
    rintro rfl
    cases found.symm.trans linked.named
  constructor
  · rw [after [], linked.named]
    split <;> rfl
  · intro p fp' present r
    obtain ⟨other, -, fp, before, rfl⟩ := inversion p fp' present
    have listed := linked.listed p fp before r
    have filtered : (r ∈ (if p = t.replicaOf then fp.dropReplica id else fp).replicas) ↔
        r ∈ fp.replicas ∧ (p = t.replicaOf → r ≠ id) := by
      split
      · rename_i owner
        simp [Family.dropReplica, owner]
      · rename_i stranger
        simp [stranger]
    rw [filtered]
    constructor
    · rintro ⟨member, notRemoved⟩
      obtain ⟨fr, replica, owner⟩ := listed.mp member
      have stays : r ≠ id := by
        rintro rfl
        cases found.symm.trans replica
        exact notRemoved owner.symm rfl
      have unlisted : r ∉ t.replicas := by
        intro member
        obtain ⟨fr', replica', owner'⟩ := (linked.listed id t found r).mp member
        cases replica.symm.trans replica'
        exact other (owner.symm.trans owner')
      refine ⟨_, view r fr replica stays unlisted, ?_⟩
      split <;> exact owner
    · rintro ⟨fr', present', owner⟩
      obtain ⟨stays, -, fr, replica, rfl⟩ := inversion r fr' present'
      refine ⟨listed.mpr ⟨fr, replica, ?_⟩, fun _ => stays⟩
      split at owner <;> exact owner
  · intro r fr' present isReplica
    obtain ⟨-, unlisted, fr, before, rfl⟩ := inversion r fr' present
    have sameOwner : (if r = t.replicaOf then fr.dropReplica id else fr).replicaOf =
        fr.replicaOf := by split <;> rfl
    rw [sameOwner] at isReplica ⊢
    obtain ⟨fp, primary⟩ := linked.owned r fr before isReplica
    have member := (linked.listed fr.replicaOf fp primary r).mpr ⟨fr, before, rfl⟩
    have other : fr.replicaOf ≠ id := by
      intro same
      rw [same] at primary
      cases found.symm.trans primary
      exact unlisted member
    have notReplica : fr.replicaOf ∉ t.replicas := by
      intro listed
      obtain ⟨fp', primary', owner⟩ := (linked.listed id t found _).mp listed
      cases primary.symm.trans primary'
      rw [linked.flat _ fp primary (owner ▸ nonempty)] at member
      cases member
    exact ⟨_, view _ fp primary other notReplica⟩
  · intro r fr' present isReplica
    obtain ⟨-, -, fr, before, rfl⟩ := inversion r fr' present
    split at isReplica
    · rename_i owner
      simp [owner, Family.dropReplica, linked.flat r fr before isReplica]
    rename_i stranger
    rw [if_neg stranger]
    exact linked.flat r fr before isReplica
  · intro r fr' present role
    obtain ⟨-, -, fr, before, rfl⟩ := inversion r fr' present
    split at role <;> exact (by split <;> exact linked.typed r fr before role)

theorem Manager.deleteTenant_sound (sound : m.Sound) {id : Bytes}
    (done : m.deleteTenant id = .ok m') : m'.Sound := by
  obtain ⟨t, table, found, rfl, after⟩ := deleteTenant_cases sound done
  have inversion : ∀ x s', table.lookup x = some s' → x ≠ id ∧ x ∉ t.replicas ∧
      ∃ s, m.tenants.lookup x = some s ∧
        s' = if x = t.replicaOf then s.dropReplica id else s := by
    intro x s' present
    rw [after x] at present
    split at present
    · cases present
    rename_i kept
    obtain ⟨s, before, changed⟩ := Option.map_eq_some_iff.mp present
    exact ⟨fun same => kept (.inl same), fun member => kept (.inr member), s, before, changed.symm⟩
  constructor
  · intro x s' present
    obtain ⟨-, -, s, before, rfl⟩ := inversion x s' present
    rw [← sound.filed x s before]
    split <;> rfl
  · refine sound.separate.restrict fun x p present => ?_
    obtain ⟨s', after, rfl⟩ := Option.map_eq_some_iff.mp present
    obtain ⟨-, -, s, before, rfl⟩ := inversion x s' after
    rw [place_of_lookup before]
    split <;> rfl
  · refine sound.linked.remove (family_of_lookup found) fun x => ?_
    change (table.lookup x).map Tenant.family = if x = id ∨ x ∈ t.replicas then none
      else (m.family x).map fun f => if x = t.replicaOf then f.dropReplica id else f
    rw [after x]
    split
    · rfl
    rw [family, Option.map_map, Option.map_map]
    congr 1
    funext s
    simp only [Function.comp_apply]
    split <;> rfl
  · intro x p present
    obtain ⟨s', after, rfl⟩ := Option.map_eq_some_iff.mp present
    obtain ⟨-, -, s, before, rfl⟩ := inversion x s' after
    have allocated := sound.allocated x _ (place_of_lookup before)
    split
    · exact ⟨allocated.httpPort, allocated.respPort, allocated.replicationPort⟩
    · exact ⟨allocated.httpPort, allocated.respPort, allocated.replicationPort⟩
  · exact sound.started
  · exact fun _ => rfl

/-!
## Provisioning
-/

theorem replicaTenantID_ne (id : Bytes) (n : Nat) : replicaTenantID id n ≠ id := by
  intro same
  have length := congrArg List.length same
  simp [replicaTenantID, ascii] at length

section

variable {k n : Nat} (id : Bytes) (small : n ≤ maxReplicasPerTenant)
  (small' : k ≤ maxReplicasPerTenant)
include small small'

theorem replicaTenantID_inj (same : replicaTenantID id n = replicaTenantID id k) : n = k := by
  have digits : ascii (toString n) = ascii (toString k) := List.append_cancel_left same
  revert digits
  unfold maxReplicasPerTenant at small small'
  interval_cases n <;> interval_cases k <;> decide

theorem memberID_inj (same : memberID id n = memberID id k) : n = k := by
  unfold memberID at same
  split at same <;> split at same
  · omega
  · exact absurd same.symm (replicaTenantID_ne id k)
  · exact absurd same (replicaTenantID_ne id n)
  · exact replicaTenantID_inj id small small' same

end

theorem memberID_ne_nil {id : Bytes} (nonempty : id ≠ []) (n : Nat) : memberID id n ≠ [] := by
  unfold memberID replicaTenantID
  split <;> simp [nonempty]

theorem tenantDataDir_inj {dataRoot a b : Bytes}
    (same : tenantDataDir dataRoot a = tenantDataDir dataRoot b) : a = b :=
  List.append_cancel_left same

def Manager.newPlace (m : Manager) (id : Bytes) (replicaCount n : Nat) : Place :=
  ⟨tenantDataDir m.dataRoot (memberID id n), m.nextHTTPPort + n, m.nextRESPPort + n,
    if 0 < replicaCount then m.nextReplPort + n else 0⟩

def newFamily (id : Bytes) (replicaCount n : Nat) : Family :=
  if n = 0 then
    ⟨if 0 < replicaCount then .primary else .standalone, [],
      (List.range' 1 replicaCount).map (replicaTenantID id)⟩
  else ⟨.replica, id, []⟩

theorem newFamily_replicaOf (id : Bytes) (replicaCount n : Nat) :
    (newFamily id replicaCount n).replicaOf = if n = 0 then [] else id := by
  unfold newFamily
  split <;> rfl

theorem newFamily_replicas (id : Bytes) (replicaCount n : Nat) (r : Bytes) :
    r ∈ (newFamily id replicaCount n).replicas ↔
      n = 0 ∧ ∃ k, 0 < k ∧ k ≤ replicaCount ∧ r = memberID id k := by
  unfold newFamily
  split
  · rename_i first
    simp only [first, List.mem_map, List.mem_range'_1, true_and]
    constructor
    · rintro ⟨k, bounds, rfl⟩
      exact ⟨k, by omega, by omega, (if_neg (by omega)).symm⟩
    · rintro ⟨k, low, high, rfl⟩
      exact ⟨k, by omega, (if_neg (by omega)).symm⟩
  · rename_i later
    simp [later]

structure Manager.Provisioned (m : Manager) (id : Bytes) (replicaCount : Nat) (m' : Manager) :
    Prop where
  member : ∀ n ≤ replicaCount, ∃ t, m'.tenants.lookup (memberID id n) = some t ∧
    t.id = memberID id n ∧ t.place = m.newPlace id replicaCount n ∧
    t.family = newFamily id replicaCount n
  other : ∀ x, (∀ n ≤ replicaCount, x ≠ memberID id n) → m'.tenants.lookup x = m.tenants.lookup x
  httpPort : m'.nextHTTPPort = m.nextHTTPPort + replicaCount + 1
  respPort : m'.nextRESPPort = m.nextRESPPort + replicaCount + 1
  replPort : m'.nextReplPort =
    if 0 < replicaCount then m.nextReplPort + replicaCount + 1 else m.nextReplPort

variable {count : Nat}

theorem Manager.foldl_addReplica (m : Manager) (id name : Bytes) (encoding : VectorEncoding)
    (small : count ≤ maxReplicasPerTenant) :
    let after := (List.range' 1 count).foldl (addReplica id name encoding) m
    (∀ n, 1 ≤ n → n ≤ count → ∃ t, after.tenants.lookup (replicaTenantID id n) = some t ∧
      t.id = replicaTenantID id n ∧
      t.place = ⟨tenantDataDir m.dataRoot (replicaTenantID id n), m.nextHTTPPort + (n - 1),
        m.nextRESPPort + (n - 1), m.nextReplPort + (n - 1)⟩ ∧
      t.family = ⟨.replica, id, []⟩) ∧
    (∀ x, (∀ n, 1 ≤ n → n ≤ count → x ≠ replicaTenantID id n) →
      after.tenants.lookup x = m.tenants.lookup x) ∧
    after.nextHTTPPort = m.nextHTTPPort + count ∧ after.nextRESPPort = m.nextRESPPort + count ∧
    after.nextReplPort = m.nextReplPort + count ∧ after.dataRoot = m.dataRoot := by
  induction count with
  | zero => exact ⟨fun n low high => by omega, fun _ _ => rfl, rfl, rfl, rfl, rfl⟩
  | succ count ih =>
    obtain ⟨members, others, http, resp, repl, root⟩ := ih (by omega)
    rw [List.range'_concat, List.foldl_append]
    generalize (List.range' 1 count).foldl (addReplica id name encoding) m = before at *
    simp only [List.foldl_cons, List.foldl_nil, Nat.one_mul, Nat.add_comm 1 count]
    refine ⟨?_, ?_, ?_, ?_, ?_, root⟩
    · intro n low high
      by_cases last : n = count + 1
      · subst last
        refine ⟨_, AList.lookup_insert _, rfl, ?_, rfl⟩
        simp only [Tenant.place, root, http, resp, repl, Nat.add_sub_cancel]
      · obtain ⟨t, present, rest⟩ := members n low (by omega)
        have other : replicaTenantID id n ≠ replicaTenantID id (count + 1) := fun same =>
          last (replicaTenantID_inj id (by omega) small same)
        exact ⟨t, (AList.lookup_insert_ne other).trans present, rest⟩
    · intro x none
      have other : x ≠ replicaTenantID id (count + 1) := none (count + 1) (by omega) (by omega)
      refine (AList.lookup_insert_ne other).trans (others x fun n low high => ?_)
      exact none n low (by omega)
    · simp only [addReplica, http]; omega
    · simp only [addReplica, resp]; omega
    · simp only [addReplica, repl]; omega

theorem Manager.addTenants_provisioned (m : Manager) (id name : Bytes) (encoding : VectorEncoding)
    (small : count ≤ maxReplicasPerTenant) :
    m.Provisioned id count (m.addTenants id name count encoding).saveState := by
  obtain ⟨members, others, http, resp, repl, root⟩ :=
    (m.addPrimary id name count encoding).foldl_addReplica id name encoding small
  have first : ∀ n, 1 ≤ n → n ≤ count → id ≠ replicaTenantID id n :=
    fun n _ _ => (replicaTenantID_ne id n).symm
  constructor
  · intro n high
    rcases Nat.eq_zero_or_pos n with rfl | low
    · refine ⟨_, (others id first).trans (AList.lookup_insert _), rfl, ?_, rfl⟩
      rfl
    have named : memberID id n = replicaTenantID id n := if_neg (by omega)
    obtain ⟨t, present, own, place, family⟩ := members n low high
    refine ⟨t, named ▸ present, named ▸ own, place.trans ?_, family.trans ?_⟩
    · simp only [newPlace, named, addPrimary, Place.mk.injEq, true_and]
      have replicated : 0 < count := by omega
      simp only [replicated, if_true]
      omega
    · rw [newFamily, if_neg (by omega)]
  · intro x none
    have notPrimary : x ≠ id := none 0 (by omega)
    refine (others x fun n low high => ?_).trans (AList.lookup_insert_ne notPrimary)
    have named : memberID id n = replicaTenantID id n := if_neg (by omega)
    exact named ▸ none n high
  · exact http.trans (by simp only [addPrimary]; omega)
  · exact resp.trans (by simp only [addPrimary]; omega)
  · refine repl.trans ?_
    simp only [addPrimary]
    split <;> omega

variable {replicaCount : Int} {vectorEncoding : Bytes}

theorem Manager.provisionWith_cases {id name : Bytes}
    (done : m.provisionWith id name replicaCount vectorEncoding = .ok m') :
    ∃ count : Nat, replicaCount = count ∧ count ≤ maxReplicasPerTenant ∧ id ≠ [] ∧
      (∀ n ≤ count, m.tenants.lookup (memberID id n) = none) ∧ m.Provisioned id count m' ∧
      m'.saved = some m'.tenants := by
  unfold provisionWith at done
  by_cases empty : id = []
  · rw [if_pos empty] at done
    cases done
  by_cases invalid : ¬ id.all tenantIDByte
  · rw [if_neg empty, if_pos invalid] at done
    cases done
  by_cases unnamed : name = []
  · rw [if_neg empty, if_neg invalid, if_pos unnamed] at done
    cases done
  by_cases negative : replicaCount < 0
  · rw [if_neg empty, if_neg invalid, if_neg unnamed, if_pos negative] at done
    cases done
  by_cases many : maxReplicasPerTenant < replicaCount
  · rw [if_neg empty, if_neg invalid, if_neg unnamed, if_neg negative, if_pos many] at done
    cases done
  rw [if_neg empty, if_neg invalid, if_neg unnamed, if_neg negative, if_neg many] at done
  cases normal : normalizeVectorEncoding vectorEncoding with
  | error message => simp only [normal, reduceCtorEq] at done
  | ok encoding =>
    by_cases taken : id ∈ m.tenants
    · simp only [normal, taken, if_true, reduceCtorEq] at done
    simp only [normal, taken, if_false] at done
    cases clash : (List.range' 1 replicaCount.toNat).find? fun n =>
        decide (replicaTenantID id n ∈ m.tenants) with
    | some n => simp only [clash, reduceCtorEq] at done
    | none =>
      by_cases full : maxTenantsPerNode < m.tenants.entries.length + 1 + replicaCount.toNat
      · simp only [clash, full, if_true, reduceCtorEq] at done
      simp only [clash, full, if_false, Except.ok.injEq] at done
      subst done
      have small : replicaCount.toNat ≤ maxReplicasPerTenant := by omega
      refine ⟨replicaCount.toNat, by omega, small, empty, ?_,
        m.addTenants_provisioned id name encoding small, rfl⟩
      intro n high
      refine AList.lookup_eq_none.mpr ?_
      unfold memberID
      split
      · exact taken
      · have free := List.find?_eq_none.mp clash n (by rw [List.mem_range'_1]; omega)
        simpa using free

theorem Manager.Provisioned.inversion {id : Bytes} (provisioned : m.Provisioned id count m')
    {x : Bytes} {t : Tenant} (present : m'.tenants.lookup x = some t) :
    (∃ n ≤ count, x = memberID id n ∧ t.id = x ∧ t.place = m.newPlace id count n ∧
      t.family = newFamily id count n) ∨ m.tenants.lookup x = some t := by
  by_cases member : ∃ n ≤ count, x = memberID id n
  · obtain ⟨n, high, rfl⟩ := member
    obtain ⟨t', present', own, place, family⟩ := provisioned.member n high
    cases present.symm.trans present'
    exact .inl ⟨n, high, rfl, own, place, family⟩
  · have other : ∀ n ≤ count, x ≠ memberID id n := fun n high same => member ⟨n, high, same⟩
    exact .inr ((provisioned.other x other).symm.trans present)

theorem Linked.add {larger : Bytes → Option Family} (linked : Linked family) {id : Bytes}
    (nonempty : id ≠ []) (small : count ≤ maxReplicasPerTenant)
    (fresh : ∀ n ≤ count, family (memberID id n) = none)
    (member : ∀ n ≤ count, larger (memberID id n) = some (newFamily id count n))
    (other : ∀ x, (∀ n ≤ count, x ≠ memberID id n) → larger x = family x) : Linked larger := by
  -- Every record is either one of the new ones or an old one that is not new.
  have inversion : ∀ x f, larger x = some f →
      (∃ n ≤ count, x = memberID id n ∧ f = newFamily id count n) ∨ family x = some f := by
    intro x f present
    by_cases new : ∃ n ≤ count, x = memberID id n
    · obtain ⟨n, high, rfl⟩ := new
      exact .inl ⟨n, high, rfl, Option.some.inj (present.symm.trans (member n high))⟩
    · exact .inr ((other x fun n high same => new ⟨n, high, same⟩).symm.trans present)
  have kept : ∀ x f, family x = some f → larger x = some f := by
    intro x f before
    refine (other x fun n high same => ?_).trans before
    rw [same, fresh n high] at before
    cases before
  have unowned : ∀ r fr, family r = some fr → ∀ n ≤ count, fr.replicaOf ≠ memberID id n := by
    intro r fr before n high same
    obtain ⟨fp, primary⟩ := linked.owned r fr before (same ▸ memberID_ne_nil nonempty n)
    rw [same, fresh n high] at primary
    cases primary
  have idFresh : family id = none := fresh 0 (Nat.zero_le count)
  constructor
  · exact (other [] fun n _ same => memberID_ne_nil nonempty n same.symm).trans linked.named
  · intro p fp present r
    rcases inversion p fp present with ⟨n, high, rfl, rfl⟩ | before
    · rw [newFamily_replicas]
      constructor
      · rintro ⟨rfl, k, low, below, rfl⟩
        exact ⟨_, member k below, (newFamily_replicaOf id count k).trans (if_neg (by omega))⟩
      · rintro ⟨fr, replica, owner⟩
        rcases inversion r fr replica with ⟨k, below, rfl, rfl⟩ | old
        · rw [newFamily_replicaOf] at owner
          split at owner
          · exact absurd owner.symm (memberID_ne_nil nonempty n)
          rename_i later
          have first : 0 = n := memberID_inj id (by omega) (by omega) owner
          exact ⟨first.symm, k, by omega, below, rfl⟩
        · exact absurd owner (unowned r fr old n high)
    · rw [linked.listed p fp before r]
      constructor
      · rintro ⟨fr, replica, owner⟩
        exact ⟨fr, kept r fr replica, owner⟩
      · rintro ⟨fr, replica, owner⟩
        rcases inversion r fr replica with ⟨k, below, rfl, rfl⟩ | old
        · rw [newFamily_replicaOf] at owner
          split at owner
          · rw [← owner, linked.named] at before
            cases before
          · rw [← owner, idFresh] at before
            cases before
        · exact ⟨fr, old, owner⟩
  · intro r fr present isReplica
    rcases inversion r fr present with ⟨n, high, rfl, rfl⟩ | before
    · rw [newFamily_replicaOf] at isReplica ⊢
      split at isReplica
      · exact absurd rfl isReplica
      rename_i later
      rw [if_neg later]
      exact ⟨_, member 0 (Nat.zero_le count)⟩
    · obtain ⟨fp, primary⟩ := linked.owned r fr before isReplica
      exact ⟨fp, kept _ fp primary⟩
  · intro r fr present isReplica
    rcases inversion r fr present with ⟨n, high, rfl, rfl⟩ | before
    · refine List.eq_nil_iff_forall_not_mem.mpr fun x listed => ?_
      obtain ⟨rfl, -⟩ := (newFamily_replicas id count n x).mp listed
      exact isReplica (newFamily_replicaOf id count 0)
    · exact linked.flat r fr before isReplica
  · intro r fr present role
    rcases inversion r fr present with ⟨n, high, rfl, rfl⟩ | before
    · rw [newFamily_replicaOf]
      unfold newFamily at role
      split
      · rename_i first
        simp only [first, if_true] at role
        split at role <;> cases role
      · exact nonempty
    · exact linked.typed r fr before role

section Provisioned

variable {m m' : Manager} {id : Bytes} {count : Nat}

theorem Manager.Sound.separate_provisioned (sound : m.Sound)
    (provisioned : m.Provisioned id count m')
    (vacant : ∀ n ≤ count, ∀ other t, m.tenants.lookup other = some t →
      t.dataDir ≠ tenantDataDir m.dataRoot (memberID id n)) : Separate m'.place := by
  have mixed : ∀ n ≤ count, ∀ x t, m.tenants.lookup x = some t →
      (m.newPlace id count n).Apart t.place ∧ t.place.Apart (m.newPlace id count n) := by
    intro n high x t before
    obtain ⟨http, resp, repl⟩ := sound.allocated x _ (place_of_lookup before)
    have dir := vacant n high x t before
    have started := sound.started
    unfold newPlace
    refine ⟨⟨dir.symm, by simp only; omega, by simp only; omega, ?_⟩,
      ⟨dir, by simp only; omega, by simp only; omega, ?_⟩⟩
    · simp only
      split <;> omega
    · simp only
      split <;> omega
  intro a b pa pb left right different
  obtain ⟨s, first, rfl⟩ := Option.map_eq_some_iff.mp left
  obtain ⟨t, second, rfl⟩ := Option.map_eq_some_iff.mp right
  rcases provisioned.inversion first with ⟨n, high, rfl, -, place, -⟩ | old <;>
    rcases provisioned.inversion second with ⟨k, below, rfl, -, place', -⟩ | old'
  · rw [place, place']
    have offsets : n ≠ k := fun same => different (same ▸ rfl)
    refine ⟨fun same => different (tenantDataDir_inj same), ?_, ?_, ?_⟩
    · simp only [newPlace]; omega
    · simp only [newPlace]; omega
    · simp only [newPlace]
      split <;> omega
  · rw [place]
    exact (mixed n high b t old').1
  · rw [place']
    exact (mixed k below a s old).2
  · exact sound.separate a b _ _ (place_of_lookup old) (place_of_lookup old') different

theorem Manager.Sound.allocated_provisioned (sound : m.Sound)
    (provisioned : m.Provisioned id count m') {x : Bytes} {p : Place}
    (present : m'.place x = some p) : p.Allocated m' := by
  obtain ⟨t, found, rfl⟩ := Option.map_eq_some_iff.mp present
  have started := sound.started
  rcases provisioned.inversion found with ⟨n, high, rfl, -, place, -⟩ | before
  · rw [place]
    constructor
    · simp only [newPlace, provisioned.httpPort]; omega
    · simp only [newPlace, provisioned.respPort]; omega
    · simp only [newPlace, provisioned.replPort]
      split <;> omega
  · obtain ⟨http, resp, repl⟩ := sound.allocated x _ (place_of_lookup before)
    constructor
    · rw [provisioned.httpPort]; omega
    · rw [provisioned.respPort]; omega
    · rw [provisioned.replPort]
      split <;> omega

end Provisioned

theorem Manager.provisionWith_sound (sound : m.Sound) {id name : Bytes}
    (vacant : m.Vacant (.provision id name replicaCount vectorEncoding))
    (done : m.provisionWith id name replicaCount vectorEncoding = .ok m') : m'.Sound := by
  obtain ⟨count, rfl, small, nonempty, fresh, provisioned, saved⟩ := provisionWith_cases done
  constructor
  · intro x t present
    rcases provisioned.inversion present with ⟨n, -, -, own, -⟩ | before
    · exact own
    · exact sound.filed x t before
  · refine sound.separate_provisioned provisioned fun n high => vacant n (by exact_mod_cast high)
  · refine sound.linked.add nonempty small ?_ ?_ ?_
    · intro n high
      rw [family, fresh n high, Option.map_none]
    · intro n high
      obtain ⟨t, present, -, -, family⟩ := provisioned.member n high
      rw [family_of_lookup present, family]
    · intro x none
      rw [family, family, provisioned.other x none]
  · exact fun x p present => sound.allocated_provisioned provisioned present
  · rw [provisioned.httpPort, provisioned.respPort, provisioned.replPort]
    have started := sound.started
    refine ⟨by omega, by omega, ?_⟩
    split <;> omega
  · rw [saved]
    exact fun _ => rfl

/-!
## Restart
-/

/-- A round over a table whose ports are set only raises the counters. -/
theorem Manager.resume_spec (id : Bytes)
    (ported : ∀ x p, m.place x = some p → 0 < p.httpPort ∧ 0 < p.respPort) :
    (∀ x, (m.resume id).tenants.lookup x = m.tenants.lookup x) ∧
      m.nextHTTPPort ≤ (m.resume id).nextHTTPPort ∧ m.nextRESPPort ≤ (m.resume id).nextRESPPort ∧
      m.nextReplPort ≤ (m.resume id).nextReplPort ∧ (m.resume id).saved = m.saved ∧
      ∀ p, m.place id = some p → p.httpPort < (m.resume id).nextHTTPPort ∧
        p.respPort < (m.resume id).nextRESPPort ∧
        p.replicationPort < (m.resume id).nextReplPort := by
  unfold resume
  cases found : m.tenants.lookup id with
  | none =>
    refine ⟨fun _ => rfl, le_rfl, le_rfl, le_rfl, rfl, fun p present => ?_⟩
    rw [place, found] at present
    cases present
  | some t =>
    obtain ⟨http, resp⟩ := ported id _ (place_of_lookup found)
    have http' : t.httpPort ≠ 0 := Nat.pos_iff_ne_zero.mp http
    have resp' : t.respPort ≠ 0 := Nat.pos_iff_ne_zero.mp resp
    simp only [http', resp', if_false]
    refine ⟨fun x => ?_, by split <;> omega, by split <;> omega, by split <;> omega,
      trivial, ?_⟩
    · by_cases same : x = id
      · subst same
        exact (AList.lookup_insert _).trans found.symm
      · exact AList.lookup_insert_ne same
    · intro p present
      rw [place_of_lookup found, Option.some.injEq] at present
      subst present
      exact ⟨by simp only [Tenant.place]; split <;> omega,
        by simp only [Tenant.place]; split <;> omega,
        by simp only [Tenant.place]; split <;> omega⟩

theorem Manager.foldl_resume_spec (order : List Bytes) (m : Manager)
    (ported : ∀ x p, m.place x = some p → 0 < p.httpPort ∧ 0 < p.respPort) :
    let after := order.foldl resume m
    (∀ x, after.tenants.lookup x = m.tenants.lookup x) ∧
      m.nextHTTPPort ≤ after.nextHTTPPort ∧ m.nextRESPPort ≤ after.nextRESPPort ∧
      m.nextReplPort ≤ after.nextReplPort ∧ after.saved = m.saved ∧
      ∀ id ∈ order, ∀ p, m.place id = some p → p.httpPort < after.nextHTTPPort ∧
        p.respPort < after.nextRESPPort ∧ p.replicationPort < after.nextReplPort := by
  induction order generalizing m with
  | nil => exact ⟨fun _ => rfl, le_rfl, le_rfl, le_rfl, rfl, by rintro id ⟨⟩⟩
  | cons id order ih =>
    obtain ⟨lookups, http, resp, repl, saved, here⟩ := resume_spec id ported
    have places : (m.resume id).place = m.place := by
      funext x
      rw [place, place, lookups x]
    obtain ⟨lookups', http', resp', repl', saved', later⟩ := ih (m.resume id) (places ▸ ported)
    refine ⟨fun x => (lookups' x).trans (lookups x), http.trans http', resp.trans resp',
      repl.trans repl', saved'.trans saved, ?_⟩
    intro x member p present
    rcases List.mem_cons.mp member with rfl | member
    · obtain ⟨below, below', below''⟩ := here p present
      exact ⟨below.trans_le http', below'.trans_le resp', below''.trans_le repl'⟩
    · exact later x member p (places ▸ present)

theorem Manager.restart_sound (sound : m.Sound) (dataRoot : Bytes) {order : List Bytes}
    (visits : order.Perm (m.saved.getD ∅).keys) :
    (newManager dataRoot m.saved order).Sound := by
  let loaded : Manager :=
    { tenants := m.saved.getD ∅, saved := m.saved, nextHTTPPort := 8081, nextRESPPort := 6401
      nextReplPort := defaultReplicationPort, dataRoot }
  have places : loaded.place = m.place := by
    funext x
    exact congrArg (Option.map Tenant.place) (sound.stored x)
  obtain ⟨lookups, http, resp, repl, saved, below⟩ := foldl_resume_spec order loaded
    fun x p present => by
      have allocated := sound.allocated x p (places ▸ present)
      exact ⟨allocated.httpPort.1, allocated.respPort.1⟩
  have lookups' : ∀ x, (newManager dataRoot m.saved order).tenants.lookup x =
      m.tenants.lookup x := fun x => (lookups x).trans (sound.stored x)
  have places' : (newManager dataRoot m.saved order).place = m.place := by
    funext x
    rw [place, place, lookups' x]
  have families : (newManager dataRoot m.saved order).family = m.family := by
    funext x
    rw [family, family, lookups' x]
  constructor
  · exact fun x t present => sound.filed x t ((lookups' x).symm.trans present)
  · exact places' ▸ sound.separate
  · exact families ▸ sound.linked
  · intro x p present
    rw [places'] at present
    have member : x ∈ order := by
      rw [visits.mem_iff, ← AList.mem_keys, ← AList.lookup_isSome, sound.stored x]
      rw [place] at present
      exact Option.isSome_of_mem (Option.map_eq_some_iff.mp present).choose_spec.1
    have allocated := sound.allocated x p present
    obtain ⟨httpBelow, respBelow, replBelow⟩ := below x member p (places ▸ present)
    exact ⟨⟨allocated.httpPort.1, httpBelow⟩, ⟨allocated.respPort.1, respBelow⟩, replBelow⟩
  · exact ⟨(Nat.succ_pos 8080).trans_le http, (Nat.succ_pos 6400).trans_le resp,
      (Nat.succ_pos 7400).trans_le repl⟩
  · intro x
    rw [lookups' x, ← sound.stored x]
    exact congrArg (fun saved : Option TenantTable => (saved.getD ∅).lookup x) saved

/-!
## Whole runs
-/

theorem Manager.newManager_sound (dataRoot : Bytes) : (newManager dataRoot none []).Sound where
  filed _ _ present := by cases present
  separate _ _ _ _ left := by cases left
  linked := ⟨rfl, by rintro _ _ ⟨⟩, by rintro _ _ ⟨⟩, by rintro _ _ ⟨⟩, by rintro _ _ ⟨⟩⟩
  allocated _ _ present := by cases present
  started := ⟨Nat.succ_pos 8080, Nat.succ_pos 6400, Nat.succ_pos 7400⟩
  stored _ := rfl

theorem Manager.step_sound {event : ControlEvent} (sound : m.Sound) (vacant : m.Vacant event)
    (stepped : m.step event = .ok m') : m'.Sound := by
  cases event with
  | provision id name replicaCount vectorEncoding => exact provisionWith_sound sound vacant stepped
  | promote replicaID => exact promoteLocal_sound sound stepped
  | delete id purge => exact deleteTenant_sound sound stepped
  | hibernate id => exact hibernateTenant_sound sound stepped
  | wake id => exact wakeTenant_sound sound stepped
  | restart dataRoot order =>
    by_cases visits : order.Perm (m.saved.getD ∅).keys
    · simp only [step, visits, if_true, Except.ok.injEq] at stepped
      exact stepped ▸ restart_sound sound dataRoot visits
    · simp only [step, visits, if_false, reduceCtorEq] at stepped

theorem Manager.reaches_sound {dataRoot : Bytes}
    (reached : Runs.Reaches step Vacant (newManager dataRoot none []) m) : m.Sound :=
  reached.invariant (newManager_sound dataRoot) fun _ _ _ sound vacant stepped =>
    step_sound sound vacant stepped

theorem Manager.provisionWith_vacant {id name : Bytes}
    (done : m.provisionWith id name replicaCount vectorEncoding = .ok m')
    (consistent : m'.Consistent) :
    m.Vacant (.provision id name replicaCount vectorEncoding) := by
  obtain ⟨count, rfl, -, -, fresh, provisioned, -⟩ := provisionWith_cases done
  intro n high other t before sameDir
  have high : n ≤ count := by exact_mod_cast high
  obtain ⟨s, present, -, place, -⟩ := provisioned.member n high
  have old : ∀ k ≤ count, other ≠ memberID id k := by
    rintro k below rfl
    rw [fresh k below] at before
    cases before
  have kept : m'.tenants.lookup other = some t := (provisioned.other other old).trans before
  have apart := consistent.apart other (memberID id n) t s kept present (old n high)
  rw [place] at apart
  exact apart.dataDir sameDir

theorem Manager.consistent_iff_vacant {dataRoot : Bytes} {m m' : Manager} {event : ControlEvent}
    (reached : Runs.Reaches step Vacant (newManager dataRoot none []) m)
    (stepped : m.step event = .ok m') : m.Consistent ∧ (m'.Consistent ↔ m.Vacant event) := by
  have sound := reaches_sound reached
  refine ⟨sound.consistent, fun consistent => ?_,
    fun vacant => (step_sound sound vacant stepped).consistent⟩
  cases event with
  | provision => exact provisionWith_vacant stepped consistent
  | promote | delete | hibernate | wake | restart => trivial

/-- A tenant that failed over to its replica keeps the replica's directory. Once the
replica is deleted its id is free again, and so seems its directory. -/
theorem Manager.reused_id_shares_directory :
    ∃ m s t, Runs.Reaches step (fun _ _ => True) (newManager (ascii "data") none []) m ∧
      m.tenants.lookup (ascii "t") = some s ∧ m.tenants.lookup (ascii "t-r1") = some t ∧
      s.dataDir = t.dataDir ∧ ¬ m.Consistent := by
  refine ⟨_, _, _, .next (.provision (ascii "t-r1") (ascii "n") 0 [])
    (.next (.delete (ascii "t-r1") false) (.next (.promote (ascii "t-r1"))
      (.next (.provision (ascii "t") (ascii "n") 1 []) .start trivial rfl) trivial rfl)
      trivial rfl) trivial rfl, rfl, rfl, rfl, fun consistent => ?_⟩
  exact (consistent.apart (ascii "t") (ascii "t-r1") _ _ rfl rfl (by decide)).dataDir rfl

/-- The same failover without the removal leaves the two tenants apart. -/
theorem Manager.failover_consistent :
    ∃ m m', step m (.promote (ascii "t-r1")) = .ok m' ∧ m'.Consistent := by
  have reached : ∃ m, Runs.Reaches step Vacant (newManager (ascii "data") none []) m ∧
      ∃ m', step m (.promote (ascii "t-r1")) = .ok m' :=
    ⟨_, .next (.provision (ascii "t") (ascii "n") 1 []) .start (by rintro _ _ _ _ ⟨⟩) rfl, _, rfl⟩
  obtain ⟨m, reached, m', stepped⟩ := reached
  exact ⟨m, m', stepped, (consistent_iff_vacant reached stepped).2.mpr trivial⟩

end Dbx.Orchestrator
