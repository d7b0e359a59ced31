import Dbx.Library.Confinement
import Dbx.Library.Runs

/-!
# Computations that respect a relation

A computation on a state respects a relation if it returns the same from related
states and leaves related states. Computations that are confined besides are local.
-/

set_option autoImplicit false

namespace Simulation

variable {σ τ α β γ μ : Type} {related : σ → σ → Prop}

def Respects (related : σ → σ → Prop) (run : σ → α × σ) : Prop :=
  ∀ left right, related left right →
    (run left).1 = (run right).1 ∧ related (run left).2 (run right).2

namespace Respects

variable {run : σ → α × σ}

theorem pure (value : α) : Respects related fun state => (value, state) :=
  fun _ _ same => ⟨rfl, same⟩

theorem bind {next : α → σ → β × σ} (first : Respects related run)
    (second : ∀ value, Respects related (next value)) :
    Respects related fun state => next (run state).1 (run state).2 := by
  intro left right same
  obtain ⟨value, after⟩ := first left right same
  dsimp only
  rw [value]
  exact second _ _ _ after

theorem choose (key : σ → β) {branch : β → σ → α × σ}
    (determined : ∀ left right, related left right → key left = key right)
    (respects : ∀ value, Respects related (branch value)) :
    Respects related fun state => branch (key state) state := by
  intro left right same
  dsimp only
  rw [determined left right same]
  exact respects _ left right same

theorem read (key : σ → α) (determined : ∀ left right, related left right → key left = key right) :
    Respects related fun state => (key state, state) :=
  fun left right same => ⟨determined left right same, same⟩

theorem ite {condition : Prop} [Decidable condition] {first second : σ → α × σ}
    (yes : Respects related first) (no : Respects related second) :
    Respects related fun state => if condition then first state else second state := by
  by_cases holds : condition
  · simpa only [holds, ↓reduceIte] using yes
  · simpa only [holds, ↓reduceIte] using no

theorem attempt {first : σ → Except μ α × σ} {failed : μ → σ → β × σ} {next : α → σ → β × σ}
    {whole : σ → β × σ} (begins : Respects related first)
    (failing : ∀ message, Respects related (failed message))
    (going : ∀ value, Respects related (next value))
    (fails : ∀ state message after, first state = (.error message, after) →
      whole state = failed message after)
    (goes : ∀ state value after, first state = (.ok value, after) →
      whole state = next value after) : Respects related whole := by
  intro left right same
  obtain ⟨result, after⟩ := begins left right same
  generalize begunLeft : first left = resultLeft at result after
  generalize begunRight : first right = resultRight at result after
  obtain ⟨value, stateLeft⟩ := resultLeft
  obtain ⟨value', stateRight⟩ := resultRight
  cases result
  cases value with
  | error message =>
    rw [fails left message stateLeft begunLeft, fails right message stateRight begunRight]
    exact failing message _ _ after
  | ok value =>
    rw [goes left value stateLeft begunLeft, goes right value stateRight begunRight]
    exact going value _ _ after

theorem iterate {items : List γ} {step : σ → γ → σ}
    (respects : ∀ item ∈ items, Respects related fun state => ((), step state item)) :
    Respects related fun state => ((), items.foldl step state) := by
  induction items with
  | nil => exact pure ()
  | cons item items ih =>
    have first := respects item List.mem_cons_self
    exact first.bind fun _ =>
      ih fun item member => respects item (List.mem_cons_of_mem _ member)

end Respects

section Local

open Confinement

variable {ι : Type} {ν : ι → Type} {view : ∀ place, σ → ν place} {valid : σ → Prop}
  {scope : Set ι} {good : Prop}

structure Local (related : σ → σ → Prop) (view : ∀ place, σ → ν place) (valid : σ → Prop)
    (scope : Set ι) (good : Prop) (run : σ → α × σ) : Prop where
  respects : Respects related run
  confined : good → Confined view valid scope run

/-- A local computation may read what is the same in two such states. -/
def Alike (related : σ → σ → Prop) (view : ∀ place, σ → ν place) (valid : σ → Prop)
    (scope : Set ι) (good : Prop) (left right : σ) : Prop :=
  related left right ∨ good ∧ valid left ∧ valid right ∧ Agree view scope left right

namespace Local

variable {run : σ → α × σ}

theorem pure (value : α) : Local related view valid scope good fun state => (value, state) :=
  ⟨.pure value, fun _ => .pure value⟩

theorem same {left right : σ} (narrow : Local related view valid scope good run)
    (alike : Alike related view valid scope good left right) : (run left).1 = (run right).1 := by
  rcases alike with same | ⟨holds, validLeft, validRight, agree⟩
  · exact (narrow.respects left right same).1
  · exact (narrow.confined holds).same left right validLeft validRight agree

theorem mono {wider : Set ι} (narrow : Local related view valid scope good run)
    (inside : scope ⊆ wider) : Local related view valid wider good run :=
  ⟨narrow.respects, fun holds => (narrow.confined holds).mono inside⟩

theorem given {better : Prop} (narrow : Local related view valid scope good run)
    (holds : better → good) : Local related view valid scope better run :=
  ⟨narrow.respects, fun given => narrow.confined (holds given)⟩

theorem bindOn {next : α → σ → β × σ} (fine : α → Prop)
    (first : Local related view valid scope good run)
    (ensures : good → ∀ state, valid state → fine (run state).1)
    (second : ∀ value, Local related view valid scope (fine value) (next value)) :
    Local related view valid scope good fun state => next (run state).1 (run state).2 :=
  ⟨first.respects.bind fun value => (second value).respects, fun holds =>
    (first.confined holds).bindOn fine (ensures holds) fun value => (second value).confined⟩

theorem bind {next : α → σ → β × σ} (first : Local related view valid scope good run)
    (second : ∀ value, Local related view valid scope good (next value)) :
    Local related view valid scope good fun state => next (run state).1 (run state).2 :=
  first.bindOn (fun _ => good) (fun holds _ _ => holds) second

theorem map (first : Local related view valid scope good run) (result : α → β) :
    Local related view valid scope good fun state => (result (run state).1, (run state).2) :=
  first.bind fun value => pure (result value)

theorem choose (key : σ → β) {branch : β → σ → α × σ}
    (determined : ∀ left right, Alike related view valid scope good left right →
      key left = key right)
    (each : ∀ value, Local related view valid scope good (branch value)) :
    Local related view valid scope good fun state => branch (key state) state :=
  ⟨.choose key (fun left right same => determined left right (.inl same)) fun value =>
      (each value).respects,
    fun holds => .choose key branch (fun left right validLeft validRight agree =>
      determined left right (.inr ⟨holds, validLeft, validRight, agree⟩)) fun value =>
        (each value).confined holds⟩

theorem read (key : σ → α) (determined : ∀ left right,
    Alike related view valid scope good left right → key left = key right) :
    Local related view valid scope good fun state => (key state, state) :=
  choose key determined pure

theorem ite {condition : Prop} [Decidable condition] {first second : σ → α × σ}
    (yes : Local related view valid scope good first)
    (no : Local related view valid scope good second) :
    Local related view valid scope good fun state =>
      if condition then first state else second state :=
  ⟨.ite yes.respects no.respects, fun holds => .ite (yes.confined holds) (no.confined holds)⟩

section

variable {first : σ → Except μ α × σ} (fine : α → Prop)
  (begins : Local related view valid scope good first)
  (ensures : good → ∀ state value, valid state → (first state).1 = .ok value → fine value)
include fine begins ensures

theorem attempt {failed : μ → σ → β × σ} {next : α → σ → β × σ} {whole : σ → β × σ}
    (failing : ∀ message, Local related view valid scope good (failed message))
    (going : ∀ value, Local related view valid scope (fine value) (next value))
    (fails : ∀ state message after, first state = (.error message, after) →
      whole state = failed message after)
    (goes : ∀ state value after, first state = (.ok value, after) →
      whole state = next value after) : Local related view valid scope good whole :=
  ⟨begins.respects.attempt (fun message => (failing message).respects)
      (fun value => (going value).respects) fails goes,
    fun holds => (begins.confined holds).attempt fine (ensures holds)
      (fun message => (failing message).confined holds) (fun value => (going value).confined)
      fails goes⟩

theorem andThen {next : α → σ → Except μ β × σ} {whole : σ → Except μ β × σ}
    (going : ∀ value, Local related view valid scope (fine value) (next value))
    (fails : ∀ state message after, first state = (.error message, after) →
      whole state = (.error message, after))
    (goes : ∀ state value after, first state = (.ok value, after) →
      whole state = next value after) : Local related view valid scope good whole :=
  begins.attempt fine ensures (fun message => pure (Except.error message)) going fails goes

end

theorem iterate {items : List γ} {step : σ → γ → σ}
    (each : ∀ item ∈ items, Local related view valid scope good fun state =>
      ((), step state item)) :
    Local related view valid scope good fun state => ((), items.foldl step state) :=
  ⟨.iterate fun item member => (each item member).respects,
    fun holds => .iterate fun item member => (each item member).confined holds⟩

end Local

end Local

end Simulation

namespace Confinement.Confined

variable {σ ι α γ : Type} {ν : ι → Type} {view : ∀ place, σ → ν place} {valid : σ → Prop}
  {scope : Set ι} {items : List γ}

/-- In a run, items that stay outside a scope can be left out for what is inside it. -/
theorem runAll_filter {run : γ → σ → α × σ} (own : γ → Bool)
    (inside : ∀ item ∈ items, own item = true → Confined view valid scope (run item))
    (outside : ∀ item ∈ items, own item = false →
      ∃ other, Disjoint scope other ∧ Confined view valid other (run item))
    {left right : σ} (validLeft : valid left) (validRight : valid right)
    (agree : Agree view scope left right) :
    (Runs.runAll run items left).1.filter (fun ran => own ran.1) =
        (Runs.runAll run (items.filter own) right).1 ∧
      Agree view scope (Runs.runAll run items left).2
        (Runs.runAll run (items.filter own) right).2 := by
  induction items generalizing left right with
  | nil => exact ⟨rfl, agree⟩
  | cons item items ih =>
    specialize @ih (fun other member => inside other (List.mem_cons_of_mem _ member))
      (fun other member => outside other (List.mem_cons_of_mem _ member))
    cases mine : own item with
    | true =>
      have confined := inside item List.mem_cons_self mine
      have next := ih (confined.keeps left validLeft) (confined.keeps right validRight)
        (confined.agree left right validLeft validRight agree)
      simp only [Runs.runAll, List.filter_cons, mine, if_true, next.1,
        confined.same left right validLeft validRight agree]
      exact ⟨trivial, next.2⟩
    | false =>
      obtain ⟨other, apart, confined⟩ := outside item List.mem_cons_self mine
      have kept : Agree view scope (run item left).2 right := fun place member =>
        (confined.frame left validLeft place (Set.disjoint_left.mp apart member)).trans
          (agree place member)
      simp only [Runs.runAll, List.filter_cons, mine, Bool.false_eq_true, if_false]
      exact ih (confined.keeps left validLeft) validRight kept

end Confinement.Confined
