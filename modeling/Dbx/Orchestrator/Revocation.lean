import Dbx.Orchestrator.TenantKeys

/-!
# Revocation

Whoever reads the keys behind a revocation leaves the revoked one out. What can
still carry it are the file, the poll and the user table, until the revocation
itself has passed over them.
-/

set_option autoImplicit false

namespace Dbx.Orchestrator

open Dbx.Auth Dbx.Engine Dbx.Protocol

variable {marshal : List User → Bytes} {isolated : Bool}

theorem ACLFile.read_write {users read : List User} {file : ACLFile}
    (found : (file.write marshal users).read marshal = some read) : read = users := by
  simp only [ACLFile.write, ACLFile.read] at found
  split_ifs at found
  exact (Option.some.inj found).symm

theorem replaceUsers_lookup {users : List User} {name : Bytes} {user : User}
    (found : (replaceUsers users).lookup name = some user) : user ∈ users ∧ user.name = name := by
  have general : ∀ (users : List User) (table : UserTable),
      (users.foldl (fun table user => if user.name = [] then table
        else table.insert user.name user) table).lookup name = some user →
      (user ∈ users ∧ user.name = name) ∨ table.lookup name = some user := by
    intro users
    induction users with
    | nil => exact fun table found => .inr found
    | cons first users ih =>
      intro table found
      rcases ih _ found with ⟨member, named⟩ | before
      · exact .inl ⟨List.mem_cons_of_mem _ member, named⟩
      dsimp only at before
      split at before
      · exact .inr before
      by_cases same : name = first.name
      · rw [same, AList.lookup_insert] at before
        cases before
        exact .inl ⟨List.mem_cons_self .., same.symm⟩
      · rw [AList.lookup_insert_ne same] at before
        exact .inr before
  rcases general users ∅ found with inside | before
  · exact inside
  · cases before

namespace Call

def held (call : Call) : List User :=
  match call.phase with
  | .write users _ | .fill users _ | .install users | .load users | .boot users
  | .upserts users => users
  | .upsert user => [user]
  | _ => []

def Early (call : Call) : Prop :=
  match call.phase with
  | .collect | .write _ _ | .fill _ _ => True
  | _ => False

def Live (call : Call) : Prop := call.phase ≠ .done

/-- The call has written the file, and has not done yet with what it reads there. -/
def Reads (call : Call) : Prop :=
  match call.phase with
  | .reload | .load _ | .boot _ => True
  | _ => False

def Boots (call : Call) : Prop :=
  match call.phase with
  | .boot _ | .register => True
  | _ => False

/-- The call is going to replace the user table by what the file holds, or to delete
its key from it. -/
def Cleans (isolated registered : Bool) (call : Call) : Prop :=
  if isolated then
    match call.phase with
    | .collect => registered = true ∧ call.kind ≠ .start
    | .write _ worker | .fill _ worker => worker = true ∧ call.kind ≠ .start
    | .reload | .install _ => True
    | _ => False
  else call.captured = true ∧ call.Live

def Revokes (call : Call) : Prop :=
  match call.phase with
  | .collect | .write _ _ | .fill _ _ | .reload | .install _ | .push | .done => True
  | _ => False

theorem Boots.carries {call : Call} (boots : call.Boots) (keyID : Bytes) : call.Carries keyID := by
  obtain ⟨kind, captured, phase⟩ := call
  cases phase with
  | boot users | register => trivial
  | _ => exact boots.elim

theorem Reads.carries {call : Call} (reads : call.Reads) (keyID : Bytes) : call.Carries keyID := by
  obtain ⟨kind, captured, phase⟩ := call
  cases phase with
  | reload | load users | boot users => trivial
  | _ => exact reads.elim

theorem carries_of_held {call : Call} {keyID : Bytes} (enables : Enables keyID call.held) :
    call.Carries keyID := by
  obtain ⟨kind, captured, phase⟩ := call
  cases phase with
  | write users worker | fill users worker | install users | upserts users | upsert user =>
    exact enables
  | load users | boot users => trivial
  | _ =>
    obtain ⟨user, ⟨⟩, -⟩ := enables

theorem Cleans.live {registered : Bool} {call : Call} (cleans : call.Cleans isolated registered) :
    call.Live := by
  intro done
  cases isolated with
  | true => simp [Cleans, done] at cleans
  | false => exact cleans.2 done

theorem Cleans.register {registered : Bool} {call : Call}
    (cleans : call.Cleans isolated registered) : call.Cleans isolated true := by
  cases isolated with
  | false => exact cleans
  | true =>
    obtain ⟨kind, captured, phase⟩ := call
    cases phase with
    | collect => exact ⟨rfl, cleans.2⟩
    | _ => exact cleans

end Call

namespace KeySite

def Revoked (site : KeySite) (keyID : Bytes) : Prop :=
  ∃ key, site.keys.lookup keyID = some key ∧ key.revoked = true

def FileEnables (marshal : List User → Bytes) (site : KeySite) (keyID : Bytes) : Prop :=
  ∃ users, site.file.read marshal = some users ∧ Enables keyID users

def PollEnables (site : KeySite) (keyID : Bytes) : Prop :=
  ∃ users, site.polling = some users ∧ Enables keyID users

def TableEnables (site : KeySite) (keyID : Bytes) : Prop :=
  ∃ user, site.user keyID = some user ∧ user.enabled = true

def Revoking (site : KeySite) (keyID : Bytes) (call : Call) : Prop :=
  ∃ cid, site.calls.lookup cid = some call ∧ call.kind = .revoke keyID

theorem user_map {site : KeySite} {change : UserTable → UserTable} {name : Bytes} {user : User}
    (found : ({ site with engine := site.engine.map change } : KeySite).user name = some user) :
    ∃ table, site.engine = some table ∧ (change table).lookup name = some user := by
  cases engine : site.engine with
  | none => simp [KeySite.user, engine] at found
  | some table =>
    simp only [KeySite.user, engine, Option.map_some, Option.bind_some] at found
    exact ⟨table, rfl, found⟩

theorem enables_of_replaced {site : KeySite} {users : List User} {keyID : Bytes}
    (enables : ({ site with engine := site.engine.map fun _ => replaceUsers users } :
      KeySite).TableEnables keyID) : Enables keyID users := by
  obtain ⟨user, found, enabled⟩ := enables
  obtain ⟨_, -, found⟩ := user_map found
  obtain ⟨member, named⟩ := replaceUsers_lookup found
  exact ⟨user, member, named, enabled⟩

structure Sound (marshal : List User → Bytes) (isolated : Bool) (site : KeySite) : Prop where
  filed : ∀ id key, site.keys.lookup id = some key → key.id = id
  marked : ∀ keyID call, site.Revoking keyID call → site.Revoked keyID
  shaped : ∀ keyID call, site.Revoking keyID call → call.Revokes
  held : ∀ keyID cid call, site.Revoked keyID → site.calls.lookup cid = some call →
    ¬ Enables keyID call.held
  running : site.engine ≠ none →
    site.registered = true ∨ ∃ cid call, site.calls.lookup cid = some call ∧ call.Boots
  polled : site.polling ≠ none → site.engine ≠ none
  /-- A file that still enables a revoked key is as old as each of its revocations. -/
  file : ∀ keyID call, site.Revoking keyID call → site.FileEnables marshal keyID →
    call.Early ∧ (site.engine ≠ none → call.Cleans isolated site.registered)
  unread : ∀ keyID cid call, site.Revoked keyID → site.FileEnables marshal keyID →
    site.calls.lookup cid = some call → ¬ call.Reads
  poll : ∀ keyID call, site.Revoking keyID call → site.PollEnables keyID →
    call.Early ∧ call.Cleans isolated site.registered
  table : ∀ keyID call, site.Revoking keyID call → site.TableEnables keyID →
    call.Cleans isolated site.registered

namespace Sound

variable {site : KeySite} {cid : Nat} {call : Call} {keyID : Bytes}

theorem collect_clean (sound : site.Sound marshal isolated) (revoked : site.Revoked keyID) :
    ¬ Enables keyID (collectTenantUsers site.keys) := by
  rintro ⟨user, member, named, -⟩
  obtain ⟨⟨id, key⟩, kept, rfl⟩ := List.mem_map.mp member
  obtain ⟨inside, live⟩ := List.mem_filter.mp kept
  have found : site.keys.lookup id = some key := AList.mem_lookup_iff.mpr inside
  have same : id = keyID := (sound.filed id key found).symm.trans named
  obtain ⟨key', found', marked⟩ := revoked
  rw [← same, found] at found'
  cases found'
  simp [marked] at live

/-!
## Changes of one part
-/

theorem withFile (sound : site.Sound marshal isolated) {file : ACLFile}
    (clean : ∀ keyID users, site.Revoked keyID → file.read marshal = some users →
      ¬ Enables keyID users) :
    ({ site with file } : KeySite).Sound marshal isolated := by
  have disabled : ∀ {keyID : Bytes}, site.Revoked keyID →
      ¬ ({ site with file } : KeySite).FileEnables marshal keyID := by
    rintro keyID revoked ⟨users, same, enables⟩
    exact clean keyID users revoked same enables
  exact { sound with
    file := fun keyID call revoking enables =>
      absurd enables (disabled (sound.marked keyID call revoking))
    unread := fun keyID cid call revoked enables => absurd enables (disabled revoked) }

theorem withTable (sound : site.Sound marshal isolated) {change : UserTable → UserTable}
    (table : ∀ keyID call, site.Revoking keyID call →
      ({ site with engine := site.engine.map change } : KeySite).TableEnables keyID →
      call.Cleans isolated site.registered) :
    ({ site with engine := site.engine.map change } : KeySite).Sound marshal isolated :=
  { sound with
    running runs := sound.running fun none => runs (by rw [none]; rfl)
    polled polling := by
      have runs := sound.polled polling
      cases engine : site.engine with
      | none => exact absurd engine runs
      | some table => simp
    file keyID call revoking enables := by
      obtain ⟨early, cleans⟩ := sound.file keyID call revoking enables
      exact ⟨early, fun runs => cleans fun none => runs (by rw [none]; rfl)⟩
    table := table }

theorem shrinkTable (sound : site.Sound marshal isolated) {change : UserTable → UserTable}
    (clean : ∀ keyID table user, site.Revoked keyID → (change table).lookup keyID = some user →
      user.enabled = true → table.lookup keyID = some user) :
    ({ site with engine := site.engine.map change } : KeySite).Sound marshal isolated := by
  refine sound.withTable fun keyID call revoking enables => ?_
  obtain ⟨user, found, enabled⟩ := enables
  obtain ⟨table, engine, found⟩ := user_map found
  have before := clean keyID table user (sound.marked keyID call revoking) found enabled
  refine sound.table keyID call revoking ⟨user, ?_, enabled⟩
  rw [KeySite.user, engine]
  exact before

variable {users : List User}

theorem replaceTable (sound : site.Sound marshal isolated)
    (clean : ∀ keyID, site.Revoked keyID → ¬ Enables keyID users) :
    ({ site with engine := site.engine.map fun _ => replaceUsers users } : KeySite).Sound
      marshal isolated := by
  refine sound.withTable fun keyID call revoking enables => ?_
  exact absurd (enables_of_replaced enables) (clean keyID (sound.marked keyID call revoking))

theorem insertUser (sound : site.Sound marshal isolated) {user : User}
    (clean : ∀ keyID, site.Revoked keyID → ¬ Enables keyID [user]) :
    ({ site with engine := site.engine.map (AList.insert user.name user) } : KeySite).Sound
      marshal isolated := by
  refine sound.shrinkTable fun keyID table other revoked found enabled => ?_
  by_cases same : keyID = user.name
  · rw [same, AList.lookup_insert] at found
    cases found
    exact absurd ⟨user, List.mem_singleton_self _, same.symm, enabled⟩ (clean keyID revoked)
  · rwa [AList.lookup_insert_ne same] at found

theorem eraseUser (sound : site.Sound marshal isolated) (name : Bytes) :
    ({ site with engine := site.engine.map (AList.erase name) } : KeySite).Sound marshal
      isolated := by
  refine sound.shrinkTable fun keyID table other revoked found enabled => ?_
  by_cases same : keyID = name
  · rw [same, AList.lookup_erase] at found
    cases found
  · rwa [AList.lookup_erase_ne same] at found

theorem withStarting (sound : site.Sound marshal isolated) (starting : Bool) :
    ({ site with starting } : KeySite).Sound marshal isolated :=
  { sound with }

theorem boot (sound : site.Sound marshal isolated) (present : site.calls.lookup cid = some call)
    (boots : call.phase = .boot users)
    (clean : ∀ keyID, site.Revoked keyID → ¬ Enables keyID users) :
    ({ site with engine := some (replaceUsers users) } : KeySite).Sound marshal isolated :=
  { sound with
    running _ := .inr ⟨cid, call, present, by simp [Call.Boots, boots]⟩
    polled _ := Option.some_ne_none _
    file keyID other revoking enables := by
      have reads : call.Reads := by simp [Call.Reads, boots]
      have revoked := sound.marked keyID other revoking
      exact absurd reads (sound.unread keyID cid call revoked enables present)
    table keyID other revoking := by
      rintro ⟨user, found, enabled⟩
      obtain ⟨member, named⟩ := replaceUsers_lookup found
      have revoked := sound.marked keyID other revoking
      exact absurd ⟨user, member, named, enabled⟩ (clean keyID revoked) }

theorem register (sound : site.Sound marshal isolated) :
    ({ site with registered := true } : KeySite).Sound marshal isolated :=
  { sound with
    running _ := .inl rfl
    file keyID call revoking enables := by
      obtain ⟨early, cleans⟩ := sound.file keyID call revoking enables
      exact ⟨early, fun runs => (cleans runs).register⟩
    poll keyID call revoking enables := by
      obtain ⟨early, cleans⟩ := sound.poll keyID call revoking enables
      exact ⟨early, cleans.register⟩
    table keyID call revoking enables := (sound.table keyID call revoking enables).register }

/-- What a step of a revocation must keep. -/
structure Keeps (marshal : List User → Bytes) (isolated : Bool) (site : KeySite) (keyID : Bytes)
    (call call' : Call) : Prop where
  shaped : call'.Revokes
  early : site.FileEnables marshal keyID ∨ site.PollEnables keyID → call'.Early
  cleans : call.Cleans isolated site.registered →
    site.FileEnables marshal keyID ∨ site.PollEnables keyID ∨ site.TableEnables keyID →
    call'.Cleans isolated site.registered

theorem setPhase_lookup {cid' : Nat} {call' : Call} {phase : CallPhase}
    (found : (site.setPhase cid call phase).calls.lookup cid' = some call') :
    cid' = cid ∧ call' = { call with phase } ∨ site.calls.lookup cid' = some call' := by
  by_cases same : cid' = cid
  · rw [same, KeySite.setPhase, AList.lookup_insert] at found
    exact .inl ⟨same, (Option.some.inj found).symm⟩
  · rw [KeySite.setPhase, AList.lookup_insert_ne same] at found
    exact .inr found

theorem setPhase (sound : site.Sound marshal isolated) {phase : CallPhase}
    (present : site.calls.lookup cid = some call)
    (held : ∀ keyID, site.Revoked keyID → ¬ Enables keyID ({ call with phase } : Call).held)
    (boots : call.Boots → site.engine ≠ none →
      ({ call with phase } : Call).Boots ∨ site.registered = true)
    (reads : ({ call with phase } : Call).Reads → call.Reads ∨
      ∀ keyID, site.Revoked keyID → ¬ site.FileEnables marshal keyID)
    (keeps : ∀ keyID, call.kind = .revoke keyID →
      Keeps marshal isolated site keyID call { call with phase }) :
    (site.setPhase cid call phase).Sound marshal isolated := by
  have inversion : ∀ {keyID : Bytes} {call' : Call},
      (site.setPhase cid call phase).Revoking keyID call' →
      call' = { call with phase } ∧ site.Revoking keyID call ∧
        Keeps marshal isolated site keyID call call' ∨ site.Revoking keyID call' := by
    rintro keyID call' ⟨cid', found, kind⟩
    rcases setPhase_lookup found with ⟨-, rfl⟩ | before
    · exact .inl ⟨rfl, ⟨cid, present, kind⟩, keeps keyID kind⟩
    · exact .inr ⟨cid', before, kind⟩
  constructor
  · exact sound.filed
  · intro keyID call' revoking
    rcases inversion revoking with ⟨-, revoking, -⟩ | before
    · exact sound.marked keyID call revoking
    · exact sound.marked keyID call' before
  · intro keyID call' revoking
    rcases inversion revoking with ⟨-, -, keeps⟩ | before
    · exact keeps.shaped
    · exact sound.shaped keyID call' before
  · intro keyID cid' call' revoked found
    rcases setPhase_lookup found with ⟨-, rfl⟩ | before
    · exact held keyID revoked
    · exact sound.held keyID cid' call' revoked before
  · intro runs
    rcases sound.running runs with registered | ⟨cid', call', found, booting⟩
    · exact .inl registered
    by_cases same : cid' = cid
    · rw [same, present] at found
      cases found
      rcases boots booting runs with booting' | registered
      · exact .inr ⟨cid, _, AList.lookup_insert _, booting'⟩
      · exact .inl registered
    · exact .inr ⟨cid', call', (AList.lookup_insert_ne same).trans found, booting⟩
  · exact sound.polled
  · intro keyID call' revoking enables
    rcases inversion revoking with ⟨-, revoking, keeps⟩ | before
    · obtain ⟨-, cleans⟩ := sound.file keyID call revoking enables
      exact ⟨keeps.early (.inl enables), fun runs => keeps.cleans (cleans runs) (.inl enables)⟩
    · exact sound.file keyID call' before enables
  · intro keyID cid' call' revoked enables found reading
    rcases setPhase_lookup found with ⟨-, rfl⟩ | before
    · rcases reads reading with before | clean
      · exact sound.unread keyID cid call revoked enables present before
      · exact clean keyID revoked enables
    · exact sound.unread keyID cid' call' revoked enables before reading
  · intro keyID call' revoking enables
    rcases inversion revoking with ⟨-, revoking, keeps⟩ | before
    · obtain ⟨-, cleans⟩ := sound.poll keyID call revoking enables
      exact ⟨keeps.early (.inr enables), keeps.cleans cleans (.inr (.inl enables))⟩
    · exact sound.poll keyID call' before enables
  · intro keyID call' revoking enables
    rcases inversion revoking with ⟨-, revoking, keeps⟩ | before
    · exact keeps.cleans (sound.table keyID call revoking enables) (.inr (.inr enables))
    · exact sound.table keyID call' before enables

/-- A revocation that has written the file has only the user table left. -/
theorem keeps_late (sound : site.Sound marshal isolated) {call' : Call}
    (revoking : site.Revoking keyID call) (late : ¬ call.Early) (shaped : call'.Revokes)
    (cleans : site.TableEnables keyID → call.Cleans isolated site.registered →
      call'.Cleans isolated site.registered) :
    Keeps marshal isolated site keyID call call' := by
  have file : ¬ site.FileEnables marshal keyID :=
    fun enables => late (sound.file keyID call revoking enables).1
  have poll : ¬ site.PollEnables keyID :=
    fun enables => late (sound.poll keyID call revoking enables).1
  refine ⟨shaped, ?_, ?_⟩
  · rintro (enables | enables)
    · exact absurd enables file
    · exact absurd enables poll
  · rintro cleaning (enables | enables | enables)
    · exact absurd enables file
    · exact absurd enables poll
    · exact cleans enables cleaning

theorem not_enables_nil (keyID : Bytes) : ¬ Enables keyID [] := by
  rintro ⟨user, ⟨⟩, -⟩

theorem not_revoking (sound : site.Sound marshal isolated)
    (present : site.calls.lookup cid = some call) (other : ¬ call.Revokes) :
    call.kind ≠ .revoke keyID :=
  fun kind => other (sound.shaped keyID call ⟨cid, present, kind⟩)

/-!
## The steps of a call
-/

section

variable {kind : CallKind} {captured : Bool} {phase : CallPhase}

theorem setPhase_other (sound : site.Sound marshal isolated)
    (present : site.calls.lookup cid = some call) (other : ∀ keyID, call.kind ≠ .revoke keyID)
    (held : ∀ keyID, site.Revoked keyID → ¬ Enables keyID ({ call with phase } : Call).held)
    (boots : call.Boots → site.engine ≠ none →
      ({ call with phase } : Call).Boots ∨ site.registered = true)
    (reads : ({ call with phase } : Call).Reads → call.Reads ∨
      ∀ keyID, site.Revoked keyID → ¬ site.FileEnables marshal keyID) :
    (site.setPhase cid call phase).Sound marshal isolated :=
  sound.setPhase present held boots reads fun keyID kind => absurd kind (other keyID)

theorem collect (sound : site.Sound marshal isolated)
    (present : site.calls.lookup cid = some ⟨kind, captured, .collect⟩) :
    (site.setPhase cid ⟨kind, captured, .collect⟩ (.write (collectTenantUsers site.keys)
      (isolated && site.registered && kind ≠ .start))).Sound marshal isolated := by
  refine sound.setPhase present ?_ False.elim False.elim ?_
  · exact fun keyID revoked => sound.collect_clean revoked
  · rintro keyID rfl
    refine ⟨trivial, fun _ => trivial, fun cleans _ => ?_⟩
    cases isolated with
    | false => exact ⟨cleans.1, by rintro ⟨⟩⟩
    | true =>
      refine ⟨?_, cleans.2⟩
      rw [cleans.1]
      rfl

variable {users : List User} {worker : Bool}

theorem truncate (sound : site.Sound marshal isolated)
    (present : site.calls.lookup cid = some ⟨kind, captured, .write users worker⟩) :
    (({ site with file := .truncated } : KeySite).setPhase cid
      ⟨kind, captured, .write users worker⟩ (.fill users worker)).Sound marshal isolated := by
  have clean : ({ site with file := .truncated } : KeySite).Sound marshal isolated :=
    sound.withFile (by rintro _ _ _ ⟨⟩)
  have held : ∀ keyID, site.Revoked keyID → ¬ Enables keyID users :=
    fun keyID revoked => sound.held keyID cid _ revoked present
  refine clean.setPhase present held False.elim False.elim ?_
  rintro keyID rfl
  refine ⟨trivial, fun _ => trivial, fun cleans _ => ?_⟩
  cases isolated with
  | true => exact cleans
  | false => exact ⟨cleans.1, by rintro ⟨⟩⟩

/-- Whatever else has been written there, the file shows the users of the call or none. -/
theorem fill (sound : site.Sound marshal isolated)
    (present : site.calls.lookup cid = some ⟨kind, captured, .fill users worker⟩)
    (unpolled : ∀ keyID, kind = .revoke keyID → ¬ site.PollEnables keyID) :
    (({ site with file := site.file.write marshal users } : KeySite).setPhase cid
      ⟨kind, captured, .fill users worker⟩
      (if kind = .start then .load users else if worker then .reload else .push)).Sound marshal
      isolated := by
  have held : ∀ keyID, site.Revoked keyID → ¬ Enables keyID users :=
    fun keyID revoked => sound.held keyID cid _ revoked present
  have disabled : ∀ keyID, site.Revoked keyID →
      ¬ ({ site with file := site.file.write marshal users } : KeySite).FileEnables marshal
        keyID := by
    rintro keyID revoked ⟨read, found, enables⟩
    exact held keyID revoked (ACLFile.read_write found ▸ enables)
  have clean : ({ site with file := site.file.write marshal users } : KeySite).Sound marshal
      isolated :=
    sound.withFile fun keyID read revoked found enables => disabled keyID revoked
      ⟨read, found, enables⟩
  refine clean.setPhase present ?_ False.elim (fun _ => .inr disabled) ?_
  · intro keyID revoked
    by_cases start : kind = .start
    · simpa [start, Call.held] using held keyID revoked
    · cases worker <;> simp [start, Call.held, not_enables_nil]
  · rintro keyID rfl
    have early : ¬ (({ site with file := site.file.write marshal users } : KeySite).FileEnables
        marshal keyID ∨ site.PollEnables keyID) := by
      rintro (enables | polled)
      · exact disabled keyID (sound.marked keyID _ ⟨cid, present, rfl⟩) enables
      · exact unpolled keyID rfl polled
    cases worker with
    | true =>
      refine ⟨trivial, fun enables => absurd enables early, fun cleans _ => ?_⟩
      cases isolated with
      | true => trivial
      | false => exact ⟨cleans.1, by rintro ⟨⟩⟩
    | false =>
      refine ⟨trivial, fun enables => absurd enables early, fun cleans _ => ?_⟩
      cases isolated with
      | true => exact absurd cleans.1 Bool.false_ne_true
      | false => exact ⟨cleans.1, by rintro ⟨⟩⟩

theorem reload (sound : site.Sound marshal isolated)
    (present : site.calls.lookup cid = some ⟨kind, captured, .reload⟩)
    (content : site.file.read marshal = some users) :
    (site.setPhase cid ⟨kind, captured, .reload⟩ (.install users)).Sound marshal isolated := by
  refine sound.setPhase present ?_ False.elim False.elim ?_
  · intro keyID revoked enables
    exact sound.unread keyID cid _ revoked ⟨users, content, enables⟩ present trivial
  · rintro keyID rfl
    refine sound.keeps_late ⟨cid, present, rfl⟩ id trivial fun _ cleans => ?_
    cases isolated with
    | true => trivial
    | false => exact ⟨cleans.1, by rintro ⟨⟩⟩

theorem install (sound : site.Sound marshal isolated)
    (present : site.calls.lookup cid = some ⟨kind, captured, .install users⟩) :
    (({ site with engine := site.engine.map fun _ => replaceUsers users } : KeySite).setPhase cid
      ⟨kind, captured, .install users⟩ .push).Sound marshal isolated := by
  have clean := sound.replaceTable fun keyID revoked => sound.held keyID cid _ revoked present
  refine clean.setPhase present (fun keyID _ => not_enables_nil keyID) False.elim False.elim ?_
  rintro keyID rfl
  refine clean.keeps_late ⟨cid, present, rfl⟩ id trivial fun enables => ?_
  have revoked := sound.marked keyID _ ⟨cid, present, rfl⟩
  exact absurd (enables_of_replaced enables) (sound.held keyID cid _ revoked present)

theorem pushCreated (sound : site.Sound marshal isolated)
    (present : site.calls.lookup cid = some ⟨.create keyID, captured, .push⟩) {key : TenantKey}
    (found : site.keys.lookup keyID = some key) :
    (site.setPhase cid ⟨.create keyID, captured, .push⟩ (.upsert (tenantUser key))).Sound marshal
      isolated := by
  refine sound.setPhase_other present (by rintro _ ⟨⟩) ?_ False.elim False.elim
  rintro other ⟨key', found', revoked⟩ ⟨user, member, named, enabled⟩
  rw [List.mem_singleton.mp member] at named enabled
  have same : keyID = other := (sound.filed keyID key found).symm.trans named
  rw [← same, found] at found'
  cases found'
  simp [tenantUser, revoked] at enabled

theorem pushRevoked (sound : site.Sound marshal isolated)
    (present : site.calls.lookup cid = some ⟨.revoke keyID, captured, .push⟩)
    (disabled : ¬ site.TableEnables keyID) :
    (site.setPhase cid ⟨.revoke keyID, captured, .push⟩ .done).Sound marshal isolated := by
  refine sound.setPhase present (fun other _ => not_enables_nil other) False.elim False.elim ?_
  rintro _ ⟨⟩
  exact sound.keeps_late ⟨cid, present, rfl⟩ id trivial fun enables => absurd enables disabled

theorem push {site' : KeySite} (sound : site.Sound marshal isolated)
    (present : site.calls.lookup cid = some ⟨kind, captured, .push⟩)
    (stepped : site.advance marshal isolated cid ⟨kind, captured, .push⟩ = some site') :
    site'.Sound marshal isolated := by
  have returns (other : ∀ keyID, kind ≠ .revoke keyID) :
      (site.setPhase cid ⟨kind, captured, .push⟩ .done).Sound marshal isolated :=
    sound.setPhase_other present other (fun other _ => not_enables_nil other) False.elim False.elim
  cases kind with
  | create keyID =>
    cases captured with
    | false =>
      cases stepped
      exact returns (by rintro _ ⟨⟩)
    | true =>
      cases found : site.keys.lookup keyID with
      | none =>
        simp only [KeySite.advance, found, Option.some.injEq] at stepped
        exact stepped ▸ returns (by rintro _ ⟨⟩)
      | some key =>
        simp only [KeySite.advance, found, Option.some.injEq] at stepped
        exact stepped ▸ sound.pushCreated present found
  | revoke keyID =>
    cases captured with
    | true =>
      cases stepped
      refine (sound.eraseUser keyID).pushRevoked present ?_
      rintro ⟨user, found, -⟩
      obtain ⟨table, -, found⟩ := user_map found
      rw [AList.lookup_erase] at found
      cases found
    | false =>
      cases stepped
      refine sound.pushRevoked present fun enables => ?_
      have cleans := sound.table keyID _ ⟨cid, present, rfl⟩ enables
      cases isolated with
      | true => exact cleans
      | false => exact Bool.false_ne_true cleans.1
  | start =>
    cases stepped
    exact returns (by rintro _ ⟨⟩)

theorem upsert (sound : site.Sound marshal isolated) {user : User}
    (present : site.calls.lookup cid = some ⟨kind, captured, .upsert user⟩) :
    (({ site with engine := site.engine.map (AList.insert user.name user) } : KeySite).setPhase cid
      ⟨kind, captured, .upsert user⟩ .done).Sound marshal isolated := by
  have clean := sound.insertUser fun keyID revoked => sound.held keyID cid _ revoked present
  exact clean.setPhase_other present (fun _ => clean.not_revoking present id)
    (fun keyID _ => not_enables_nil keyID) False.elim False.elim

/-- A start that does not get to its end. -/
theorem abandon (sound : site.Sound marshal isolated) (present : site.calls.lookup cid = some call)
    (other : ∀ keyID, call.kind ≠ .revoke keyID)
    (boots : call.Boots → site.engine ≠ none → site.registered = true) :
    (({ site with starting := false } : KeySite).setPhase cid call .done).Sound marshal isolated :=
  (sound.withStarting false).setPhase_other present other
    (fun keyID _ => not_enables_nil keyID) (fun booting runs => .inr (boots booting runs))
    False.elim

theorem load {site' : KeySite} (sound : site.Sound marshal isolated)
    (present : site.calls.lookup cid = some ⟨kind, captured, .load users⟩)
    (stepped : site.advance marshal isolated cid ⟨kind, captured, .load users⟩ = some site') :
    site'.Sound marshal isolated := by
  have other : ∀ keyID, kind ≠ .revoke keyID := fun keyID => sound.not_revoking present id
  have boots {loaded : List User} (clean : ∀ keyID, site.Revoked keyID → ¬ Enables keyID loaded) :
      (site.setPhase cid ⟨kind, captured, .load users⟩ (.boot loaded)).Sound marshal isolated :=
    sound.setPhase_other present other clean False.elim fun _ => .inl trivial
  cases content : site.file.read marshal with
  | some read =>
    simp only [KeySite.advance, content, Option.some.injEq] at stepped
    subst stepped
    refine boots fun keyID revoked enables => ?_
    exact sound.unread keyID cid _ revoked ⟨read, content, enables⟩ present trivial
  | none =>
    simp only [KeySite.advance, content] at stepped
    split_ifs at stepped with missing worker
    · cases stepped
      exact boots fun keyID _ => not_enables_nil keyID
    · cases stepped
      exact boots fun keyID revoked => sound.held keyID cid _ revoked present
    · cases stepped
      exact sound.abandon present other False.elim

theorem bootUp (sound : site.Sound marshal isolated)
    (present : site.calls.lookup cid = some ⟨kind, captured, .boot users⟩) :
    (({ site with engine := some (replaceUsers users) } : KeySite).setPhase cid
      ⟨kind, captured, .boot users⟩ .register).Sound marshal isolated := by
  have clean := sound.boot present rfl fun keyID revoked => sound.held keyID cid _ revoked present
  exact clean.setPhase_other present (fun _ => clean.not_revoking present id)
    (fun keyID _ => not_enables_nil keyID) (fun _ _ => .inl trivial) False.elim

theorem registerEngine {site' : KeySite} (sound : site.Sound marshal isolated)
    (present : site.calls.lookup cid = some ⟨kind, captured, .register⟩)
    (stepped : site.advance marshal isolated cid ⟨kind, captured, .register⟩ = some site') :
    site'.Sound marshal isolated := by
  have registered := sound.register
  have other : ∀ keyID, kind ≠ .revoke keyID := fun _ => sound.not_revoking present id
  cases isolated with
  | true =>
    cases stepped
    exact registered.abandon present other fun _ _ => rfl
  | false =>
    cases stepped
    exact registered.setPhase_other present other
      (fun keyID revoked => sound.collect_clean revoked) (fun _ _ => .inr rfl) False.elim

theorem upserts (sound : site.Sound marshal isolated) {user : User}
    (present : site.calls.lookup cid = some ⟨kind, captured, .upserts (user :: users)⟩) :
    (({ site with engine := site.engine.map (AList.insert user.name user) } : KeySite).setPhase cid
      ⟨kind, captured, .upserts (user :: users)⟩ (.upserts users)).Sound marshal isolated := by
  have held : ∀ keyID, site.Revoked keyID → ¬ Enables keyID (user :: users) :=
    fun keyID revoked => sound.held keyID cid _ revoked present
  have clean : ({ site with engine := site.engine.map (AList.insert user.name user) } :
      KeySite).Sound marshal isolated := by
    refine sound.insertUser fun keyID revoked => ?_
    rintro ⟨other, member, enables⟩
    rw [List.mem_singleton.mp member] at enables
    exact held keyID revoked ⟨user, List.mem_cons_self .., enables⟩
  refine clean.setPhase_other present (fun _ => clean.not_revoking present id) ?_
    False.elim False.elim
  rintro keyID revoked ⟨other, member, enables⟩
  exact held keyID revoked ⟨other, List.mem_cons_of_mem _ member, enables⟩

theorem advance_sound {site' : KeySite} (sound : site.Sound marshal isolated)
    (present : site.calls.lookup cid = some call)
    (undisturbed : site.Undisturbed marshal (.advance cid))
    (stepped : site.advance marshal isolated cid call = some site') :
    site'.Sound marshal isolated := by
  obtain ⟨kind, captured, phase⟩ := call
  cases phase with
  | collect =>
    cases stepped
    exact sound.collect present
  | write users worker =>
    cases stepped
    exact sound.truncate present
  | fill users worker =>
    cases stepped
    refine sound.fill present fun keyID revokes => ?_
    rintro ⟨polled, polling, enables⟩
    exact (undisturbed _ keyID present revokes).1 users worker rfl polled polling enables
  | reload =>
    cases content : site.file.read marshal with
    | some users =>
      simp only [KeySite.advance, content, Option.some.injEq] at stepped
      exact stepped ▸ sound.reload present content
    | none =>
      simp only [KeySite.advance, content, Option.some.injEq] at stepped
      refine stepped ▸ sound.setPhase_other present ?_ (fun keyID _ => not_enables_nil keyID)
        False.elim False.elim
      exact fun keyID revokes => (undisturbed _ keyID present revokes).2 rfl content
  | install users =>
    cases stepped
    exact sound.install present
  | push => exact sound.push present stepped
  | upsert user =>
    cases stepped
    exact sound.upsert present
  | load users => exact sound.load present stepped
  | boot users =>
    cases stepped
    exact sound.bootUp present
  | register => exact sound.registerEngine present stepped
  | upserts users =>
    cases users with
    | nil =>
      cases stepped
      exact sound.abandon present (fun _ => sound.not_revoking present id) False.elim
    | cons user users =>
      cases stepped
      exact sound.upserts present
  | done => cases stepped

/-- An engine that is gone has no users. -/
theorem stopEngine (sound : site.Sound marshal isolated) :
    ({ site with engine := none, polling := none } : KeySite).Sound marshal isolated :=
  { sound with
    running runs := absurd rfl runs
    polled polling := absurd rfl polling
    file keyID call revoking enables :=
      ⟨(sound.file keyID call revoking enables).1, fun runs => absurd rfl runs⟩
    poll keyID call _ := by rintro ⟨users, ⟨⟩, -⟩
    table keyID call _ := by rintro ⟨user, ⟨⟩, -⟩ }

theorem fail_sound {site' : KeySite} (sound : site.Sound marshal isolated)
    (present : site.calls.lookup cid = some call)
    (undisturbed : site.Undisturbed marshal (.fail cid))
    (stepped : site.fail cid call = some site') : site'.Sound marshal isolated := by
  obtain ⟨kind, captured, phase⟩ := call
  have other : ∀ keyID, kind ≠ .revoke keyID := fun keyID => undisturbed _ keyID present
  have pushes (boots : ¬ (⟨kind, captured, phase⟩ : Call).Boots) :
      (site.setPhase cid ⟨kind, captured, phase⟩ .push).Sound marshal isolated :=
    sound.setPhase_other present other (fun keyID _ => not_enables_nil keyID)
      (fun booting => absurd booting boots) False.elim
  cases phase with
  | write users worker | fill users worker =>
    simp only [KeySite.fail] at stepped
    split_ifs at stepped
    · cases stepped
      exact sound.abandon present other False.elim
    · cases stepped
      exact pushes id
  | reload =>
    cases stepped
    exact pushes id
  | load users =>
    cases stepped
    exact sound.abandon present other False.elim
  | register =>
    cases stepped
    exact sound.stopEngine.abandon present other fun _ runs => absurd rfl runs
  | _ => cases stepped

end

/-!
## Calls that begin
-/

theorem begin_lookup {cid' : Nat} {kind : CallKind} {captured : Bool}
    (found : (site.begin cid kind captured).calls.lookup cid' = some call) :
    cid' = cid ∧ call = ⟨kind, captured, .collect⟩ ∨ site.calls.lookup cid' = some call := by
  by_cases same : cid' = cid
  · rw [same, KeySite.begin, AList.lookup_insert] at found
    exact .inl ⟨same, (Option.some.inj found).symm⟩
  · rw [KeySite.begin, AList.lookup_insert_ne same] at found
    exact .inr found

theorem lookup_begin {cid' : Nat} (fresh : cid ∉ site.calls)
    (found : site.calls.lookup cid' = some call) (kind : CallKind) (captured : Bool) :
    (site.begin cid kind captured).calls.lookup cid' = some call := by
  have different : cid' ≠ cid := by
    rintro rfl
    rw [AList.lookup_eq_none.mpr fresh] at found
    cases found
  exact (AList.lookup_insert_ne different).trans found

theorem begin (sound : site.Sound marshal isolated) (fresh : cid ∉ site.calls) {kind : CallKind}
    {captured : Bool}
    (revokes : ∀ keyID, kind = .revoke keyID → site.Revoked keyID ∧
      (site.engine ≠ none → (⟨kind, captured, .collect⟩ : Call).Cleans isolated site.registered)) :
    (site.begin cid kind captured).Sound marshal isolated := by
  have inversion : ∀ {keyID : Bytes} {call : Call},
      (site.begin cid kind captured).Revoking keyID call →
      call = ⟨kind, captured, .collect⟩ ∧ kind = .revoke keyID ∨ site.Revoking keyID call := by
    rintro keyID call ⟨cid', found, kind⟩
    rcases begin_lookup found with ⟨-, rfl⟩ | before
    · exact .inl ⟨rfl, kind⟩
    · exact .inr ⟨cid', before, kind⟩
  constructor
  · exact sound.filed
  · intro keyID call revoking
    rcases inversion revoking with ⟨-, kind⟩ | before
    · exact (revokes keyID kind).1
    · exact sound.marked keyID call before
  · intro keyID call revoking
    rcases inversion revoking with ⟨rfl, -⟩ | before
    · trivial
    · exact sound.shaped keyID call before
  · intro keyID cid' call revoked found
    rcases begin_lookup found with ⟨-, rfl⟩ | before
    · exact not_enables_nil keyID
    · exact sound.held keyID cid' call revoked before
  · intro runs
    rcases sound.running runs with registered | ⟨cid', call, found, boots⟩
    · exact .inl registered
    · exact .inr ⟨cid', call, lookup_begin fresh found kind captured, boots⟩
  · exact sound.polled
  · intro keyID call revoking enables
    rcases inversion revoking with ⟨rfl, kind⟩ | before
    · exact ⟨trivial, (revokes keyID kind).2⟩
    · exact sound.file keyID call before enables
  · intro keyID cid' call revoked enables found
    rcases begin_lookup found with ⟨-, rfl⟩ | before
    · exact id
    · exact sound.unread keyID cid' call revoked enables before
  · intro keyID call revoking enables
    rcases inversion revoking with ⟨rfl, kind⟩ | before
    · obtain ⟨users, polling, -⟩ := enables
      refine ⟨trivial, (revokes keyID kind).2 (sound.polled fun none => ?_)⟩
      cases none.symm.trans polling
    · exact sound.poll keyID call before enables
  · intro keyID call revoking enables
    rcases inversion revoking with ⟨rfl, kind⟩ | before
    · obtain ⟨user, found, -⟩ := enables
      refine (revokes keyID kind).2 fun absent => ?_
      have nobody : site.user keyID = none := by rw [KeySite.user, absent]; rfl
      cases nobody.symm.trans found
    · exact sound.table keyID call before enables

/-- A key that is revoked stays so, and one that is revoked now is carried by no call. -/
theorem insertKey (sound : site.Sound marshal isolated) {key : TenantKey}
    (unmarked : key.revoked = false → ¬ site.Revoked key.id)
    (uncarried : key.revoked = true → ∀ cid call, site.calls.lookup cid = some call →
      ¬ call.Carries key.id) :
    ({ site with keys := site.keys.insert key.id key } : KeySite).Sound marshal isolated := by
  have before : ∀ {keyID : Bytes},
      ({ site with keys := site.keys.insert key.id key } : KeySite).Revoked keyID →
      site.Revoked keyID ∨ ∀ cid call, site.calls.lookup cid = some call →
        ¬ call.Carries keyID := by
    rintro keyID ⟨other, found, revoked⟩
    by_cases same : keyID = key.id
    · rw [same, AList.lookup_insert] at found
      cases found
      exact .inr (same ▸ uncarried revoked)
    · exact .inl ⟨other, (AList.lookup_insert_ne same).symm.trans found, revoked⟩
  have after : ∀ {keyID : Bytes}, site.Revoked keyID →
      ({ site with keys := site.keys.insert key.id key } : KeySite).Revoked keyID := by
    intro keyID marked
    by_cases same : keyID = key.id
    · cases revoked : key.revoked with
      | false => exact absurd (same ▸ marked) (unmarked revoked)
      | true => exact ⟨key, same ▸ AList.lookup_insert _, revoked⟩
    · obtain ⟨other, found, revoked⟩ := marked
      exact ⟨other, (AList.lookup_insert_ne same).trans found, revoked⟩
  exact { sound with
    filed := by
      intro id other found
      by_cases same : id = key.id
      · rw [same, AList.lookup_insert] at found
        cases found
        exact same.symm
      · exact sound.filed id other ((AList.lookup_insert_ne same).symm.trans found)
    marked := fun keyID call revoking => after (sound.marked keyID call revoking)
    held := by
      intro keyID cid call revoked found enables
      rcases before revoked with marked | uncarried
      · exact sound.held keyID cid call marked found enables
      · exact uncarried cid call found (Call.carries_of_held enables)
    unread := by
      intro keyID cid call revoked enables found reads
      rcases before revoked with marked | uncarried
      · exact sound.unread keyID cid call marked enables found reads
      · exact uncarried cid call found (reads.carries keyID) }

/-- No start is about to register its engine, so the revocation will pass over it. -/
theorem mark (sound : site.Sound marshal isolated) (fresh : cid ∉ site.calls)
    (uncarried : ∀ cid call, site.calls.lookup cid = some call → ¬ call.Carries keyID)
    {key : TenantKey} (found : site.keys.lookup keyID = some key) (generation : UInt64) :
    (({ site with keys := site.keys.insert keyID { key with revoked := true, generation } } :
      KeySite).begin cid (.revoke keyID) (site.registered && !isolated)).Sound marshal
        isolated := by
  obtain rfl := sound.filed keyID key found
  have marked := @insertKey _ _ _ sound { key with revoked := true, generation } (by rintro ⟨⟩)
    fun _ => uncarried
  refine marked.begin fresh ?_
  rintro _ ⟨⟩
  refine ⟨⟨_, AList.lookup_insert _, rfl⟩, fun runs => ?_⟩
  have registered : site.registered = true := by
    rcases sound.running runs with registered | ⟨cid', call, found', boots⟩
    · exact registered
    · exact absurd (boots.carries key.id) (uncarried cid' call found')
  cases isolated with
  | true => exact ⟨registered, by rintro ⟨⟩⟩
  | false => exact ⟨by simp [registered], by rintro ⟨⟩⟩

/-!
## The poll of the engine
-/

section

variable (sound : site.Sound marshal isolated)
include sound

theorem pollRead (content : site.file.read marshal = some users) (runs : site.engine ≠ none) :
    ({ site with polling := some users } : KeySite).Sound marshal isolated :=
  { sound with
    polled _ := runs
    poll keyID call revoking := by
      rintro ⟨users', same, enables⟩
      cases same
      obtain ⟨early, cleans⟩ := sound.file keyID call revoking ⟨users, content, enables⟩
      exact ⟨early, cleans runs⟩ }

theorem forgetPoll : ({ site with polling := none } : KeySite).Sound marshal isolated :=
  { sound with
    polled polling := absurd rfl polling
    poll keyID call _ := by rintro ⟨users, ⟨⟩, -⟩ }

theorem pollInstall (polling : site.polling = some users) :
    ({ site with
      engine := site.engine.map fun _ => replaceUsers users
      polling := none } : KeySite).Sound marshal isolated := by
  refine (sound.withTable fun keyID call revoking enables => ?_).forgetPoll
  exact (sound.poll keyID call revoking ⟨users, polling, enables_of_replaced enables⟩).2

/-!
## Runs
-/

theorem step_sound {event : KeyEvent} {site' : KeySite}
    (undisturbed : site.Undisturbed marshal event)
    (stepped : site.step marshal isolated event = .ok site') : site'.Sound marshal isolated := by
  cases event with
  | create cid key saved =>
    rw [KeySite.step] at stepped
    split at stepped
    · cases stepped
    split at stepped
    · cases stepped
    split at stepped
    · cases stepped
    rename_i begun _ taken
    cases saved with
    | false =>
      cases stepped
      exact sound
    | true =>
      cases stepped
      refine Sound.begin (@insertKey _ _ _ sound
        ⟨key.id, key.name, key.hash, key.role, _, 1, false⟩ ?_ (by rintro ⟨⟩)) begun ?_
      · rintro - ⟨other, found, -⟩
        rw [AList.lookup_eq_none.mpr taken] at found
        cases found
      · rintro keyID ⟨⟩
  | revoke cid keyID saved =>
    rw [KeySite.step] at stepped
    split at stepped
    · cases stepped
    rename_i begun
    split at stepped
    · cases stepped
    rename_i key found
    cases saved with
    | true =>
      cases stepped
      exact sound.mark begun undisturbed found _
    | false =>
      cases stepped
      have same := sound.filed keyID key found
      refine same ▸ @insertKey _ _ _ sound { key with revoked := false } ?_ (by rintro ⟨⟩)
      rintro - ⟨other, found', revoked⟩
      rw [undisturbed other (same ▸ found')] at revoked
      cases revoked
  | start cid =>
    simp only [KeySite.step] at stepped
    split_ifs at stepped with begun runs
    cases stepped
    refine (sound.withStarting true).begin begun ?_
    rintro keyID ⟨⟩
  | advance cid =>
    simp only [KeySite.step] at stepped
    split at stepped
    · cases stepped
    rename_i call present
    split at stepped
    · cases stepped
    rename_i next advanced
    cases stepped
    exact sound.advance_sound present undisturbed advanced
  | fail cid =>
    simp only [KeySite.step] at stepped
    split at stepped
    · cases stepped
    rename_i call present
    split at stepped
    · cases stepped
    rename_i next failed
    cases stepped
    exact sound.fail_sound present undisturbed failed
  | pollRead =>
    simp only [KeySite.step] at stepped
    split at stepped
    · rename_i table users engine content polling
      cases stepped
      exact sound.pollRead content (by rw [engine]; exact Option.some_ne_none _)
    · cases stepped
  | pollInstall =>
    simp only [KeySite.step] at stepped
    split at stepped
    · cases stepped
    rename_i users polling
    cases stepped
    exact sound.pollInstall polling

end

end Sound

theorem empty_sound : empty.Sound marshal isolated := by
  have unrevoked : ∀ {keyID : Bytes}, ¬ empty.Revoked keyID := by
    rintro keyID ⟨key, ⟨⟩, -⟩
  have unrevoking : ∀ {keyID : Bytes} {call : Call}, ¬ empty.Revoking keyID call := by
    rintro keyID call ⟨cid, ⟨⟩, -⟩
  constructor
  · rintro id key ⟨⟩
  · exact fun keyID call revoking => absurd revoking unrevoking
  · exact fun keyID call revoking => absurd revoking unrevoking
  · exact fun keyID cid call revoked => absurd revoked unrevoked
  · exact fun runs => absurd rfl runs
  · exact fun polling => absurd rfl polling
  · exact fun keyID call revoking => absurd revoking unrevoking
  · exact fun keyID cid call revoked => absurd revoked unrevoked
  · exact fun keyID call revoking => absurd revoking unrevoking
  · exact fun keyID call revoking => absurd revoking unrevoking

theorem shut_of_not_enabled {site : KeySite} {keyID : Bytes} (clean : ¬ site.TableEnables keyID) :
    site.Shut keyID := by
  have disabled : ∀ user, site.user keyID = some user → user.enabled = false := by
    intro user found
    cases enabled : user.enabled with
    | false => rfl
    | true => exact absurd ⟨user, found, enabled⟩ clean
  refine ⟨disabled, fun cmd => ?_⟩
  cases found : site.user keyID with
  | none => simp [enforce]
  | some user =>
    have refused : canExecute user cmd.normalized = false := by
      simp [canExecute, disabled user found]
    simp [enforce, refused]

/-- A text as long as the names of its users. -/
def namesText (users : List User) : Bytes :=
  ascii "[" ++ users.flatMap User.name ++ ascii "]"

def startAndCreate (starting steps : Nat) : List KeyEvent :=
  [.start 0] ++ List.replicate starting (.advance 0) ++
    [.create 1 ⟨ascii "k", ascii "client", ascii "hash", .reader, [], 0, false⟩ true] ++
    List.replicate steps (.advance 1)

def calmTest (site : KeySite) : KeyEvent → Bool
  | .revoke _ _ true => site.calls.entries.all fun entry => entry.2.phase = .done
  | .advance cid =>
    match site.calls.lookup cid with
    | some ⟨.revoke _, _, .fill _ _⟩ => site.polling = none
    | some ⟨.revoke _, _, .reload⟩ => site.file.read namesText ≠ none
    | _ => true
  | .revoke _ _ false | .fail _ => false
  | _ => true

theorem calmTest_undisturbed {site : KeySite} {event : KeyEvent}
    (passed : calmTest site event = true) : site.Undisturbed namesText event := by
  cases event with
  | revoke cid keyID saved =>
    cases saved with
    | false => cases passed
    | true =>
      intro cid' call found
      have done := List.all_eq_true.mp passed ⟨cid', call⟩ (AList.mem_lookup_iff.mp found)
      simp only [decide_eq_true_eq] at done
      simp [Call.Carries, done]
  | advance cid =>
    rintro ⟨kind, captured, phase⟩ keyID found rfl
    simp only [calmTest, found] at passed
    refine ⟨?_, ?_⟩
    · rintro users worker rfl polled polling
      simp [polling] at passed
    · rintro rfl
      simpa using passed
  | fail cid => cases passed
  | _ => trivial

end KeySite

end Dbx.Orchestrator
