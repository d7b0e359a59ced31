import Dbx.Basic
import Dbx.Library.Files
import Dbx.Library.Runs

/-!
# The orchestrator's state file

`saveState` writes the tenant map to a temporary file, moves the previous state
file to a backup name and installs the new one. A process that starts after a
crash reads the state file or, when there is none, the backup.
-/

set_option autoImplicit false

namespace Dbx.Orchestrator

open Files

variable {σ : Type}

/-- The encoding of the tenant map. The `json` package reads back what it wrote. -/
structure StateCodec (σ : Type) where
  marshalIndent : σ → Bytes
  unmarshal : Bytes → Except String σ
  unmarshal_marshalIndent : ∀ tenants, unmarshal (marshalIndent tenants) = .ok tenants

/-- The state file and the names with the suffixes `.tmp` and `.bak`. -/
inductive StateName where
  | stateFile
  | tmp
  | backup
deriving DecidableEq, Repr

abbrev StateDir := Dir StateName Bytes

def errNotExist : String := "file does not exist"

def loadState (codec : StateCodec σ) (dir : StateDir) : Except String σ :=
  match dir .stateFile with
  | some content => codec.unmarshal content
  | none =>
    match dir .backup with
    | some content => codec.unmarshal content
    | none => .error errNotExist

/-- The operations of `saveState` that change a name or a content. The error arms
of the source need an operation that fails without a crash. -/
def saveState (codec : StateCodec σ) (tenants : σ) : Script StateName Bytes :=
  let install := .op (.rename .tmp .stateFile) (.op (.remove .backup) .done)
  -- `O_TRUNC` empties an older temporary file before the write.
  .op (.write .tmp []) <| .op (.write .tmp (codec.marshalIndent tenants)) <|
    .op (.remove .backup) <|
      .stat .stateFile (.op (.rename .stateFile .backup) install) install

/-- A directory with the tenant map it has to keep: that of the last save that
completed, or the map that a new process loaded after it. -/
structure ControlPlane (σ : Type) where
  dir : StateDir
  current : Option σ

def ControlPlane.empty : ControlPlane σ := ⟨fun _ => none, none⟩

inductive SaveEvent (σ : Type) where
  | saved (tenants : σ)
  | crashed (tenants : σ) (operations : Nat)

def SaveEvent.dir (codec : StateCodec σ) (dir : StateDir) : SaveEvent σ → StateDir
  | .saved tenants => (saveState codec tenants).run dir
  | .crashed tenants operations => (saveState codec tenants).cut operations dir

def ControlPlane.step (codec : StateCodec σ) (plane : ControlPlane σ) (event : SaveEvent σ) :
    Except String (ControlPlane σ) :=
  let dir := event.dir codec plane.dir
  match event with
  | .saved tenants => .ok ⟨dir, some tenants⟩
  | .crashed _ _ =>
    .ok ⟨dir, plane.current.map fun tenants => (loadState codec dir).toOption.getD tenants⟩

/-- What a load after the event has to return. Nothing is promised about a crash
before the first save has completed. -/
def ControlPlane.Survives (codec : StateCodec σ) (plane : ControlPlane σ) (event : SaveEvent σ) :
    Prop :=
  match event with
  | .saved tenants => loadState codec (event.dir codec plane.dir) = .ok tenants
  | .crashed interrupted _ => ∀ current, plane.current = some current →
      loadState codec (event.dir codec plane.dir) = .ok current ∨
        loadState codec (event.dir codec plane.dir) = .ok interrupted

/-- Without a state file the backup is the only copy, and three operations remove it
before the new file is installed. -/
def ControlPlane.Sheltered (plane : ControlPlane σ) (event : SaveEvent σ) : Prop :=
  match event with
  | .saved _ => True
  | .crashed _ operations =>
    plane.current = none ∨ plane.dir .stateFile ≠ none ∨ operations ≠ 3

/-- The files hold a map: in the state file, or in the backup when there is none. -/
def Holds (codec : StateCodec σ) (dir : StateDir) (tenants : σ) : Prop :=
  dir .stateFile = some (codec.marshalIndent tenants) ∨
    dir .stateFile = none ∧ dir .backup = some (codec.marshalIndent tenants)

theorem Holds.loadState {codec : StateCodec σ} {dir : StateDir} {tenants : σ}
    (holds : Holds codec dir tenants) : loadState codec dir = .ok tenants := by
  rcases holds with present | ⟨absent, present⟩
  · simp only [Orchestrator.loadState, present, codec.unmarshal_marshalIndent]
  · simp only [Orchestrator.loadState, absent, present, codec.unmarshal_marshalIndent]

theorem saveState_stateFile (codec : StateCodec σ) (tenants : σ) (dir : StateDir) :
    (saveState codec tenants).run dir .stateFile = some (codec.marshalIndent tenants) := by
  cases present : dir .stateFile with
  | none => simp [saveState, Script.run, Op.apply, present]
  | some content => simp [saveState, Script.run, Op.apply, present]

section Cut

variable (codec : StateCodec σ) (tenants : σ) {dir : StateDir} {content : Bytes}

theorem saveState_cut_present (present : dir .stateFile = some content) (operations : Nat) :
    let left := (saveState codec tenants).cut operations dir
    left .stateFile = some content ∨ left .stateFile = none ∧ left .backup = some content ∨
      left .stateFile = some (codec.marshalIndent tenants) := by
  match operations with
  | 0 | 1 | 2 => exact .inl (by simp [saveState, present])
  | 3 => exact .inl (by simp [saveState, Script.cut, present])
  | 4 => exact .inr (.inl (by simp [saveState, Script.cut, Op.apply, present]))
  | 5 => exact .inr (.inr (by simp [saveState, Script.cut, Op.apply, present]))
  | _ + 6 => exact .inr (.inr (by simp [saveState, Script.cut, Op.apply, present]))

theorem saveState_cut_absent (absent : dir .stateFile = none) {operations : Nat}
    (other : operations ≠ 3) :
    let left := (saveState codec tenants).cut operations dir
    left .stateFile = none ∧ left .backup = dir .backup ∨
      left .stateFile = some (codec.marshalIndent tenants) := by
  match operations with
  | 0 | 1 | 2 => exact .inl (by simp [saveState, absent])
  | 4 => exact .inr (by simp [saveState, Script.cut, Op.apply, absent])
  | _ + 5 => exact .inr (by simp [saveState, Script.cut, Op.apply, absent])

theorem saveState_cut_lost (absent : dir .stateFile = none) :
    loadState codec ((saveState codec tenants).cut 3 dir) = .error errNotExist := by
  simp [loadState, saveState, Script.cut, absent]

end Cut

theorem Holds.cut {codec : StateCodec σ} {dir : StateDir} {current : σ}
    (holds : Holds codec dir current) (tenants : σ) {operations : Nat}
    (sheltered : dir .stateFile ≠ none ∨ operations ≠ 3) :
    Holds codec ((saveState codec tenants).cut operations dir) current ∨
      Holds codec ((saveState codec tenants).cut operations dir) tenants := by
  rcases holds with present | ⟨absent, present⟩
  · rcases saveState_cut_present codec tenants present operations with kept | moved | installed
    · exact .inl (.inl kept)
    · exact .inl (.inr moved)
    · exact .inr (.inl installed)
  · have other : operations ≠ 3 := sheltered.resolve_left (fun exists' => exists' absent)
    rcases saveState_cut_absent codec tenants absent other with ⟨missing, kept⟩ | installed
    · exact .inl (.inr ⟨missing, kept.trans present⟩)
    · exact .inr (.inl installed)

def ControlPlane.Keeps (codec : StateCodec σ) (plane : ControlPlane σ) : Prop :=
  ∀ current, plane.current = some current → Holds codec plane.dir current

theorem ControlPlane.step_keeps {codec : StateCodec σ} {plane successor : ControlPlane σ}
    {event : SaveEvent σ} (keeps : plane.Keeps codec) (sheltered : plane.Sheltered event)
    (stepped : plane.step codec event = .ok successor) : successor.Keeps codec := by
  cases event with
  | saved tenants =>
    cases stepped
    rintro _ ⟨⟩
    exact .inl (saveState_stateFile codec tenants plane.dir)
  | crashed tenants operations =>
    cases stepped
    intro loaded after
    obtain ⟨current, before, rfl⟩ := Option.map_eq_some_iff.mp after
    have free := sheltered.resolve_left (by rw [before]; exact Option.some_ne_none current)
    -- The new process continues with whichever of the two maps the files hold.
    rcases (keeps current before).cut tenants free with kept | installed
    · rw [show loadState codec (SaveEvent.dir codec plane.dir (.crashed tenants operations)) = _
        from kept.loadState]
      exact kept
    · rw [show loadState codec (SaveEvent.dir codec plane.dir (.crashed tenants operations)) = _
        from installed.loadState]
      exact installed

theorem ControlPlane.reaches_keeps {codec : StateCodec σ} {plane : ControlPlane σ}
    (reached : Runs.Reaches (step codec) Sheltered empty plane) : plane.Keeps codec := by
  have initial : (empty : ControlPlane σ).Keeps codec := by rintro current ⟨⟩
  exact reached.invariant initial fun _ _ _ keeps sheltered stepped =>
    step_keeps keeps sheltered stepped

theorem ControlPlane.survives_iff_sheltered {codec : StateCodec σ} {plane : ControlPlane σ}
    (reached : Runs.Reaches (step codec) Sheltered empty plane) (event : SaveEvent σ) :
    plane.Survives codec event ↔ plane.Sheltered event := by
  have keeps := reaches_keeps reached
  cases event with
  | saved tenants =>
    exact iff_of_true (Holds.loadState (.inl (saveState_stateFile codec tenants plane.dir))) trivial
  | crashed tenants operations =>
    constructor
    · intro survives
      by_contra exposed
      obtain ⟨promised, missing, third⟩ :
          plane.current ≠ none ∧ plane.dir .stateFile = none ∧ operations = 3 := by
        simpa [Sheltered] using exposed
      obtain ⟨current, before⟩ := Option.ne_none_iff_exists'.mp promised
      subst third
      have lost := saveState_cut_lost codec tenants missing
      rcases survives current before with loaded | loaded
      · cases lost.symm.trans loaded
      · cases lost.symm.trans loaded
    · intro sheltered current before
      have free := sheltered.resolve_left (by rw [before]; exact Option.some_ne_none current)
      rcases (keeps current before).cut tenants free with kept | installed
      · exact .inl kept.loadState
      · exact .inr installed.loadState

def verbatim : StateCodec Bytes := ⟨id, .ok, fun _ => rfl⟩

/-- A completed save, a save that stops between its two renames, and a save that
stops after the backup is gone. -/
theorem second_crash_loses_the_state :
    ∃ plane : ControlPlane Bytes,
      Runs.Reaches (ControlPlane.step verbatim) (fun _ _ => True) .empty plane ∧
        plane.current = some [0x61] ∧ ¬ plane.Survives verbatim (.crashed [0x63] 3) ∧
        loadState verbatim ((SaveEvent.crashed [0x63] 3).dir verbatim plane.dir) =
          .error errNotExist := by
  refine ⟨_, .next (.crashed [0x62] 4) (.next (.saved [0x61]) .start trivial rfl) trivial rfl,
    rfl, fun survives => ?_, rfl⟩
  rcases survives [0x61] rfl with loaded | loaded <;> cases loaded

theorem first_crash_survived :
    ∃ plane : ControlPlane Bytes, plane.current = some [0x61] ∧
      plane.Survives verbatim (.crashed [0x62] 4) := by
  have reached : Runs.Reaches (ControlPlane.step verbatim) ControlPlane.Sheltered .empty
      ⟨(SaveEvent.saved [0x61]).dir verbatim (fun _ => none), some [0x61]⟩ :=
    .next (.saved [0x61]) .start trivial rfl
  exact ⟨_, rfl, (ControlPlane.survives_iff_sheltered reached _).mpr (.inr (.inr (by decide)))⟩

end Dbx.Orchestrator
