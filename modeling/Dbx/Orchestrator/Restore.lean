import Dbx.Library.Runs

/-!
# Restoring a tenant from an archive

`RestoreTenant` unpacks an archive beside the data directory, moves the old
directory to a rollback name, installs the new one and starts the tenant on it.
Each of its steps may fail, and the process may stop before any of them.
-/

set_option autoImplicit false

namespace Dbx.Orchestrator

/-- The next step of a call. `idle` is the state between calls, and the state that a
stopped process leaves. -/
inductive RestorePhase (α : Type) where
  | idle
  | clearRollback (archive : α)
  | makeStaging (archive : α)
  | extract (archive : α)
  | moveAside
  | install
  | undoInstall
  | start
  | discard
  /-- Back to the old name after the restored tenant failed to start. -/
  | moveBack
  /-- The `StartTenant` at the end of every failing path. -/
  | startAgain
  | clearOld

/-- A start may be refused before `MkdirAll`, as for a hibernated tenant. -/
inductive StartResult where
  | started
  | failed
  | refused

inductive RestoreEvent (α κ : Type) where
  | call (archive : α)
  | succeed
  /-- The step fails. A `RemoveAll` leaves what it did not get to. -/
  | fail (left : κ)
  /-- The outcome of `StartTenant`, called by the restore or, between calls, by a new
  orchestrator. -/
  | start (result : StartResult)
  /-- The process stops, possibly in the middle of a `RemoveAll`. -/
  | crash (torn : Option κ)
  | serve (data : κ)

/-- The directories of one tenant. Contents are data files only: the configuration
that every start writes anew is left out. -/
structure RestoreSite (α κ : Type) where
  phase : RestorePhase α
  dataDir : Option κ
  rollback : Option κ
  staging : Option κ
  running : Bool
  /-- The data the tenant had when the restore was called or that it serves since. -/
  before : κ
  /-- The archive's files, while the tenant has not started on them. -/
  target : Option κ

namespace RestoreSite

variable {α κ : Type} [DecidableEq κ] (empty : κ) (extract : α → Except String κ)

/-- `StartTenant` makes a missing directory. Once started, the tenant's data is what
it found there. -/
def startTenant (site : RestoreSite α κ) : StartResult → RestoreSite α κ
  | .refused => site
  | .failed => { site with dataDir := some (site.dataDir.getD empty) }
  | .started =>
    let data := site.dataDir.getD empty
    { site with dataDir := some data, running := true, before := data, target := none }

/-- A directory may be renamed to a name that does not exist or is empty. -/
def Replaceable (dir : Option κ) : Prop := dir = none ∨ dir = some empty

instance (dir : Option κ) : Decidable (Replaceable empty dir) :=
  inferInstanceAs (Decidable (_ ∨ _))

def succeed (site : RestoreSite α κ) : Except String (RestoreSite α κ) :=
  match site.phase with
  | .clearRollback archive => .ok { site with phase := .makeStaging archive, rollback := none }
  | .makeStaging archive => .ok { site with phase := .extract archive, staging := some empty }
  | .extract archive =>
    match extract archive with
    | .ok files =>
      .ok { site with phase := .moveAside, staging := some files, target := some files }
    | .error message => .error message
  | .moveAside =>
    -- A missing directory is no error, and then there is nothing to move.
    match site.dataDir with
    | none => .ok { site with phase := .install }
    | some data =>
      if Replaceable empty site.rollback then
        .ok { site with phase := .install, dataDir := none, rollback := some data }
      else .error "directory not empty"
  | .install =>
    if Replaceable empty site.dataDir then
      .ok { site with phase := .start, dataDir := site.staging, staging := none }
    else .error "directory not empty"
  | .undoInstall | .moveBack =>
    match site.rollback with
    | none => .error "no such file or directory"
    | some data =>
      if Replaceable empty site.dataDir then
        .ok { site with phase := .startAgain, dataDir := some data, rollback := none }
      else .error "directory not empty"
  | .discard => .ok { site with phase := .moveBack, dataDir := none }
  | .clearOld => .ok { site with phase := .idle, rollback := none }
  | .idle | .start | .startAgain => .error "not a file operation"

/-- The step that fails, with what a `RemoveAll` leaves. -/
def fail (site : RestoreSite α κ) (left : κ) : Except String (RestoreSite α κ) :=
  match site.phase with
  | .clearRollback archive =>
    .ok { site with phase := .makeStaging archive, rollback := site.rollback.map fun _ => left }
  | .makeStaging _ => .ok { site with phase := .idle }
  | .extract _ | .moveAside => .ok { site with phase := .startAgain, staging := none }
  | .install => .ok { site with phase := .undoInstall }
  | .undoInstall | .moveBack => .ok { site with phase := .startAgain }
  | .discard => .ok { site with phase := .moveBack, dataDir := site.dataDir.map fun _ => left }
  | .clearOld => .ok { site with phase := .idle, rollback := site.rollback.map fun _ => left }
  | .idle | .start | .startAgain => .error "not a file operation"

def crash (site : RestoreSite α κ) (torn : Option κ) : RestoreSite α κ :=
  match site.phase, torn with
  | .clearRollback _, some left | .clearOld, some left =>
    { site with phase := .idle, running := false, rollback := site.rollback.map fun _ => left }
  | .discard, some left =>
    { site with phase := .idle, running := false, dataDir := site.dataDir.map fun _ => left }
  | _, _ => { site with phase := .idle, running := false }

def step (site : RestoreSite α κ) : RestoreEvent α κ → Except String (RestoreSite α κ)
  | .call archive =>
    match site.phase with
    | .idle => .ok { site with phase := .clearRollback archive, running := false, target := none }
    | _ => .error "restore in progress"
  | .succeed => site.succeed empty extract
  | .fail left => site.fail left
  | .start result =>
    match site.phase, result with
    | .idle, _ =>
      if site.running then .error "already running" else .ok (site.startTenant empty result)
    | .start, .started => .ok { site.startTenant empty .started with phase := .clearOld }
    | .start, _ => .ok { site.startTenant empty result with phase := .discard }
    | .startAgain, _ => .ok { site.startTenant empty result with phase := .idle }
    | _, _ => .error "not a start"
  | .crash torn => .ok (site.crash torn)
  | .serve data =>
    match site.phase with
    | .idle =>
      if site.running then .ok { site with dataDir := some data, before := data }
      else .error "not running"
    | _ => .error "not running"

/-- The phases in which the next `StartTenant` finds the directory as it is. -/
def Serves (site : RestoreSite α κ) : Prop :=
  match site.phase with
  | .idle | .start | .startAgain => True
  | _ => False

/-- What the tenant starts on is all of the old data or all of the archive, and the
old data exists until the tenant has started on the archive. -/
structure AllOrNothing (site : RestoreSite α κ) : Prop where
  served : site.Serves → site.dataDir = some site.before ∨
    ∃ files, site.target = some files ∧ site.dataDir = some files
  kept : site.dataDir = some site.before ∨ site.rollback = some site.before

/-- A call finds the tenant's own data in place, nothing stops or fails while the
directory is moved away, and a directory is discarded whole or not at all. -/
def Steady (site : RestoreSite α κ) : RestoreEvent α κ → Prop
  | .call _ => site.dataDir = some site.before
  | .crash torn =>
    site.dataDir ≠ none ∧ ((match site.phase with | .discard => True | _ => False) → torn = none)
  | .fail left =>
    match site.phase with
    | .undoInstall | .moveBack => site.dataDir ≠ none
    | .discard => site.dataDir = some left
    | _ => True
  | _ => True

def serving (data : κ) : RestoreSite α κ :=
  ⟨.idle, some data, none, none, true, data, none⟩

/-- The archive is in place and the old data is at the rollback name. -/
def Installed (site : RestoreSite α κ) : Prop :=
  ∃ files, site.target = some files ∧ site.dataDir = some files ∧
    site.rollback = some site.before

def Unpacked (site : RestoreSite α κ) : Prop :=
  ∃ files, site.target = some files ∧ site.staging = some files

def Inv (site : RestoreSite α κ) : Prop :=
  match site.phase with
  | .idle | .startAgain => site.dataDir = some site.before ∨ site.Installed
  | .clearRollback _ | .makeStaging _ | .extract _ | .clearOld => site.dataDir = some site.before
  | .moveAside => site.dataDir = some site.before ∧ site.Unpacked
  | .install => site.dataDir = none ∧ site.rollback = some site.before ∧ site.Unpacked
  | .undoInstall => site.dataDir = none ∧ site.rollback = some site.before
  | .start | .discard => site.Installed
  | .moveBack => site.dataDir = none ∧ site.rollback = some site.before ∨ site.Installed

omit [DecidableEq κ] in
theorem Inv.allOrNothing {site : RestoreSite α κ} (inv : site.Inv) : site.AllOrNothing := by
  obtain ⟨phase, dataDir, rollback, staging, running, before, target⟩ := site
  cases phase with
  | idle | startAgain =>
    rcases inv with own | ⟨files, unpacked, installed, aside⟩
    · exact ⟨fun _ => .inl own, .inl own⟩
    · exact ⟨fun _ => .inr ⟨files, unpacked, installed⟩, .inr aside⟩
  | clearRollback | makeStaging | extract | clearOld => exact ⟨False.elim, .inl inv⟩
  | moveAside => exact ⟨False.elim, .inl inv.1⟩
  | install => exact ⟨False.elim, .inr inv.2.1⟩
  | undoInstall => exact ⟨False.elim, .inr inv.2⟩
  | start =>
    obtain ⟨files, unpacked, installed, aside⟩ := inv
    exact ⟨fun _ => .inr ⟨files, unpacked, installed⟩, .inr aside⟩
  | discard => exact ⟨False.elim, .inr inv.choose_spec.2.2⟩
  | moveBack =>
    rcases inv with ⟨-, aside⟩ | ⟨-, -, -, aside⟩
    · exact ⟨False.elim, .inr aside⟩
    · exact ⟨False.elim, .inr aside⟩

variable {site successor : RestoreSite α κ}

theorem succeed_inv (inv : site.Inv) (stepped : site.succeed empty extract = .ok successor) :
    successor.Inv := by
  obtain ⟨phase, dataDir, rollback, staging, running, before, target⟩ := site
  cases phase with
  | idle | start | startAgain => cases stepped
  | clearRollback archive | makeStaging archive =>
    cases stepped
    exact inv
  | extract archive =>
    cases unpacked : extract archive with
    | error message => simp only [succeed, unpacked, reduceCtorEq] at stepped
    | ok files =>
      simp only [succeed, unpacked, Except.ok.injEq] at stepped
      subst stepped
      exact ⟨inv, files, rfl, rfl⟩
  | moveAside =>
    obtain ⟨own, unpacked⟩ := inv
    simp only at own
    subst own
    simp only [succeed] at stepped
    split at stepped
    · cases stepped
      exact ⟨rfl, rfl, unpacked⟩
    · cases stepped
  | install =>
    obtain ⟨away, aside, files, target, staged⟩ := inv
    simp only [succeed] at stepped
    split at stepped
    · cases stepped
      exact ⟨files, target, staged, aside⟩
    · cases stepped
  | undoInstall =>
    obtain ⟨away, aside⟩ := inv
    simp only at aside
    subst aside
    simp only [succeed] at stepped
    split at stepped
    · cases stepped
      exact .inl rfl
    · cases stepped
  | discard =>
    obtain ⟨files, -, -, aside⟩ := inv
    cases stepped
    exact .inl ⟨rfl, aside⟩
  | moveBack =>
    have aside : rollback = some before := by
      rcases inv with ⟨-, aside⟩ | ⟨-, -, -, aside⟩ <;> exact aside
    subst aside
    simp only [succeed] at stepped
    split at stepped
    · cases stepped
      exact .inl rfl
    · cases stepped
  | clearOld =>
    cases stepped
    exact .inl inv

omit [DecidableEq κ] in
theorem fail_inv (inv : site.Inv) {left : κ} (steady : site.Steady (.fail left))
    (stepped : site.fail left = .ok successor) : successor.Inv := by
  obtain ⟨phase, dataDir, rollback, staging, running, before, target⟩ := site
  cases phase with
  | idle | start | startAgain => cases stepped
  | clearRollback archive => cases stepped; exact inv
  | makeStaging archive | extract archive | clearOld => cases stepped; exact .inl inv
  | moveAside => cases stepped; exact .inl inv.1
  | install => cases stepped; exact ⟨inv.1, inv.2.1⟩
  | undoInstall => exact absurd inv.1 steady
  | discard =>
    cases stepped
    obtain ⟨files, unpacked, installed, aside⟩ := inv
    simp only at installed
    subst installed
    have whole : some files = some left := steady
    exact .inr ⟨files, unpacked, whole.symm, aside⟩
  | moveBack =>
    cases stepped
    exact .inr (inv.resolve_left fun away => steady away.1)

omit [DecidableEq κ] in
theorem crash_inv (inv : site.Inv) {torn : Option κ} (steady : site.Steady (.crash torn)) :
    (site.crash torn).Inv := by
  obtain ⟨phase, dataDir, rollback, staging, running, before, target⟩ := site
  obtain ⟨present, whole⟩ := steady
  cases phase with
  | idle | startAgain => exact inv
  | clearRollback archive | clearOld => cases torn <;> exact .inl inv
  | makeStaging archive | extract archive => exact .inl inv
  | moveAside => exact .inl inv.1
  | install | undoInstall => exact absurd inv.1 present
  | start => exact .inr inv
  | discard =>
    obtain rfl : torn = none := whole trivial
    exact .inr inv
  | moveBack => exact .inr (inv.resolve_left fun away => present away.1)

omit [DecidableEq κ] in
theorem startTenant_inv (held : site.dataDir = some site.before ∨ site.Installed)
    (result : StartResult) :
    let after := site.startTenant empty result
    (after.dataDir = some after.before ∨ after.Installed) ∧
      (result = .started → after.dataDir = some after.before) := by
  obtain ⟨data, present⟩ : ∃ data, site.dataDir = some data := by
    rcases held with own | ⟨files, -, installed, -⟩
    · exact ⟨_, own⟩
    · exact ⟨_, installed⟩
  cases result with
  | started => exact ⟨.inl rfl, fun _ => rfl⟩
  | failed =>
    have same : site.startTenant empty .failed = site := by
      simp only [startTenant, present, Option.getD_some]
      rw [← present]
    exact ⟨same.symm ▸ held, by rintro ⟨⟩⟩
  | refused => exact ⟨held, by rintro ⟨⟩⟩

theorem step_inv {event : RestoreEvent α κ} (inv : site.Inv) (steady : site.Steady event)
    (stepped : site.step empty extract event = .ok successor) : successor.Inv := by
  cases event with
  | succeed => exact succeed_inv empty extract inv stepped
  | fail left => exact fail_inv inv steady stepped
  | crash torn =>
    cases stepped
    exact crash_inv inv steady
  | call archive =>
    obtain ⟨phase, dataDir, rollback, staging, running, before, target⟩ := site
    cases phase with
    | idle =>
      cases stepped
      exact steady
    | _ => cases stepped
  | start result =>
    obtain ⟨phase, dataDir, rollback, staging, running, before, target⟩ := site
    cases phase with
    | idle =>
      simp only [step] at stepped
      split at stepped
      · cases stepped
      cases stepped
      have held := (startTenant_inv empty inv result).1
      cases result <;> exact held
    | start =>
      have served := startTenant_inv empty (.inr inv) result
      cases result with
      | started =>
        cases stepped
        exact served.2 rfl
      | failed =>
        cases stepped
        obtain ⟨files, unpacked, installed, aside⟩ := inv
        simp only at installed
        subst installed
        exact ⟨files, unpacked, rfl, aside⟩
      | refused =>
        cases stepped
        exact inv
    | startAgain =>
      cases stepped
      exact (startTenant_inv empty inv result).1
    | _ => cases stepped
  | serve data =>
    obtain ⟨phase, dataDir, rollback, staging, running, before, target⟩ := site
    cases phase with
    | idle =>
      simp only [step] at stepped
      split at stepped
      · cases stepped
        exact .inl rfl
      · cases stepped
    | _ => cases stepped

theorem reaches_allOrNothing {data : κ}
    (reached : Runs.Reaches (step empty extract) Steady (serving data : RestoreSite α κ) site) :
    site.AllOrNothing := by
  have inv : site.Inv := reached.invariant (.inl rfl) fun _ _ _ inv steady stepped =>
    step_inv empty extract inv steady stepped
  exact inv.allOrNothing

/-- A stop between the two renames: the next start finds no directory and makes an
empty one, and the next restore removes the only copy of the old data. -/
theorem stop_between_renames_loses_data :
    ∃ stopped lost : RestoreSite Nat Nat,
      Runs.Reaches (step 0 .ok) (fun _ _ => True) (serving 1) stopped ∧ ¬ stopped.AllOrNothing ∧
        Runs.Reaches (step 0 .ok) (fun _ _ => True) stopped lost ∧
        lost.dataDir = some 0 ∧ lost.rollback = none := by
  have stops : Runs.Reaches (step 0 .ok) (fun _ _ => True) (serving 1)
      ⟨.idle, none, some 1, some 2, false, 1, some 2⟩ :=
    .next (.crash none) (.next .succeed (.next .succeed (.next .succeed (.next .succeed
      (.next (.call 2) .start trivial rfl) trivial rfl) trivial rfl) trivial rfl) trivial rfl)
      trivial rfl
  refine ⟨_, _, stops, fun safe => ?_, .next .succeed (.next (.call 3)
    (.next (.start .started) .start trivial rfl) trivial rfl) trivial rfl, rfl, rfl⟩
  rcases safe.served trivial with own | ⟨files, -, installed⟩
  · cases own
  · cases installed

theorem restore_completes :
    ∃ site : RestoreSite Nat Nat, site.dataDir = some 2 ∧ site.rollback = none ∧
      site.AllOrNothing := by
  have reached : Runs.Reaches (step 0 .ok) Steady (serving 1 : RestoreSite Nat Nat)
      ⟨.idle, some 2, none, none, true, 2, none⟩ :=
    .next .succeed (.next (.start .started) (.next .succeed (.next .succeed (.next .succeed
      (.next .succeed (.next .succeed (.next (.call 2) .start rfl rfl) trivial rfl) trivial rfl)
      trivial rfl) trivial rfl) trivial rfl) trivial rfl) trivial rfl
  exact ⟨_, rfl, rfl, reaches_allOrNothing 0 .ok reached⟩

end RestoreSite

end Dbx.Orchestrator
