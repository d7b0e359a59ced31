/-!
# Runs of a guarded system

States reached from a start state by steps that are all allowed where they are
taken, and the rule that what every allowed step preserves holds in all of them.
-/

set_option autoImplicit false

namespace Runs

variable {σ ε μ : Type}

/-- States reached by allowed steps. A step that fails has no successor. -/
inductive Reaches (step : σ → ε → Except μ σ) (allowed : σ → ε → Prop) (start : σ) : σ → Prop
  | start : Reaches step allowed start start
  | next {state successor : σ} (event : ε) :
      Reaches step allowed start state → allowed state event →
      step state event = .ok successor → Reaches step allowed start successor

theorem Reaches.invariant {step : σ → ε → Except μ σ} {allowed : σ → ε → Prop} {start : σ}
    {holds : σ → Prop} (initial : holds start)
    (preserved : ∀ state event successor, holds state → allowed state event →
      step state event = .ok successor → holds successor)
    {state : σ} (reached : Reaches step allowed start state) : holds state := by
  induction reached with
  | start => exact initial
  | next event _ permitted stepped ih => exact preserved _ event _ ih permitted stepped

/-- Take the steps of a list, each of which has to pass a test. -/
def run (step : σ → ε → Except μ σ) (test : σ → ε → Bool) (state : σ) : List ε → Option σ
  | [] => some state
  | event :: events =>
    if test state event then
      match step state event with
      | .error _ => none
      | .ok successor => run step test successor events
    else none

theorem Reaches.run {step : σ → ε → Except μ σ} {allowed : σ → ε → Prop} {test : σ → ε → Bool}
    (passes : ∀ state event, test state event = true → allowed state event) {start state : σ}
    (reached : Reaches step allowed start state) {events : List ε} {successor : σ}
    (done : run step test state events = some successor) :
    Reaches step allowed start successor := by
  induction events generalizing state with
  | nil =>
    cases done
    exact reached
  | cons event events ih =>
    rw [Runs.run] at done
    split at done
    · rename_i passed
      cases stepped : step state event with
      | error message => simp only [stepped, reduceCtorEq] at done
      | ok next =>
        rw [stepped] at done
        exact ih (.next event reached (passes state event passed) stepped) done
    · cases done

variable {τ α : Type}

/-- Take all events in their order, each with what it returns. -/
def runAll (run : ε → σ → α × σ) : List ε → σ → List (ε × α) × σ
  | [], state => ([], state)
  | event :: events, state =>
    let rest := runAll run events (run event state).2
    ((event, (run event state).1) :: rest.1, rest.2)

/-- Systems that return the same in related states, step by step, do so in every run. -/
theorem runAll_simulates {run : ε → σ → α × σ} {run' : ε → τ → α × τ} {related : σ → τ → Prop}
    (events : List ε) (step : ∀ event ∈ events, ∀ left right, related left right →
      (run event left).1 = (run' event right).1 ∧
        related (run event left).2 (run' event right).2)
    {left : σ} {right : τ} (start : related left right) :
    (runAll run events left).1 = (runAll run' events right).1 ∧
      related (runAll run events left).2 (runAll run' events right).2 := by
  induction events generalizing left right with
  | nil => exact ⟨rfl, start⟩
  | cons event events ih =>
    obtain ⟨same, next⟩ := step event List.mem_cons_self left right start
    obtain ⟨values, final⟩ :=
      ih (fun later listed => step later (List.mem_cons_of_mem _ listed)) next
    simp only [runAll, same, values]
    exact ⟨trivial, final⟩

end Runs
