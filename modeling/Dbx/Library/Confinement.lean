import Mathlib.Data.Set.Lattice
import Mathlib.Order.CompletePartialOrder

/-!
# Confined computations

A state is seen through locations. A computation is confined to a scope if what it
returns, and what it leaves in the scope, depends on nothing but the scope, and if
it leaves every location outside as it was.
-/

set_option autoImplicit false

namespace Confinement

variable {σ ι α β : Type} {ν : ι → Type} {view : ∀ place, σ → ν place} {valid : σ → Prop}
  {scope wider : Set ι}

def Agree (view : ∀ place, σ → ν place) (scope : Set ι) (left right : σ) : Prop :=
  ∀ place ∈ scope, view place left = view place right

def Frame (view : ∀ place, σ → ν place) (scope : Set ι) (before after : σ) : Prop :=
  ∀ place, place ∉ scope → view place after = view place before

structure Confined (view : ∀ place, σ → ν place) (valid : σ → Prop) (scope : Set ι)
    (run : σ → α × σ) : Prop where
  same : ∀ left right, valid left → valid right → Agree view scope left right →
    (run left).1 = (run right).1
  agree : ∀ left right, valid left → valid right → Agree view scope left right →
    Agree view scope (run left).2 (run right).2
  frame : ∀ state, valid state → Frame view scope state (run state).2
  keeps : ∀ state, valid state → valid (run state).2

namespace Confined

variable {run : σ → α × σ}

theorem pure (value : α) : Confined view valid scope fun state => (value, state) where
  same _ _ _ _ _ := rfl
  agree _ _ _ _ agree := agree
  frame _ _ _ _ := rfl
  keeps _ holds := holds

theorem bindOn {next : α → σ → β × σ} (good : α → Prop) (first : Confined view valid scope run)
    (ensures : ∀ state, valid state → good (run state).1)
    (second : ∀ value, good value → Confined view valid scope (next value)) :
    Confined view valid scope fun state => next (run state).1 (run state).2 where
  same left right validLeft validRight agree := by
    rw [first.same left right validLeft validRight agree]
    exact (second _ (ensures right validRight)).same _ _ (first.keeps left validLeft)
      (first.keeps right validRight) (first.agree left right validLeft validRight agree)
  agree left right validLeft validRight agree := by
    rw [first.same left right validLeft validRight agree]
    exact (second _ (ensures right validRight)).agree _ _ (first.keeps left validLeft)
      (first.keeps right validRight) (first.agree left right validLeft validRight agree)
  frame state holds place outside := by
    rw [(second _ (ensures state holds)).frame _ (first.keeps state holds) place outside]
    exact first.frame state holds place outside
  keeps state holds := (second _ (ensures state holds)).keeps _ (first.keeps state holds)

theorem bind {next : α → σ → β × σ} (first : Confined view valid scope run)
    (second : ∀ value, Confined view valid scope (next value)) :
    Confined view valid scope fun state => next (run state).1 (run state).2 :=
  bindOn (fun _ => True) first (fun _ _ => trivial) fun value _ => second value

theorem attempt {μ : Type} {first : σ → Except μ α × σ} {failed : μ → σ → β × σ}
    {next : α → σ → β × σ} {whole : σ → β × σ} (good : α → Prop)
    (confined : Confined view valid scope first)
    (ensures : ∀ state value, valid state → (first state).1 = .ok value → good value)
    (failing : ∀ message, Confined view valid scope (failed message))
    (going : ∀ value, good value → Confined view valid scope (next value))
    (fails : ∀ state message after, first state = (.error message, after) →
      whole state = failed message after)
    (goes : ∀ state value after, first state = (.ok value, after) →
      whole state = next value after) : Confined view valid scope whole := by
  let goOn : Except μ α → σ → β × σ := fun result state =>
    match result with
    | .error message => failed message state
    | .ok value => next value state
  have both : Confined view valid scope fun state => goOn (first state).1 (first state).2 := by
    refine confined.bindOn (fun result => ∀ value, result = .ok value → good value)
      (fun state holds value => ensures state value holds) ?_
    intro result holds
    cases result with
    | error message => exact failing message
    | ok value => exact going value (holds value rfl)
  have same : whole = fun state => goOn (first state).1 (first state).2 := by
    funext state
    rcases begun : first state with ⟨message | value, after⟩
    · exact fails state message after begun
    · exact goes state value after begun
  exact same ▸ both

theorem andThen {μ : Type} {first : σ → Except μ α × σ} {next : α → σ → Except μ β × σ}
    {whole : σ → Except μ β × σ} (good : α → Prop) (confined : Confined view valid scope first)
    (ensures : ∀ state value, valid state → (first state).1 = .ok value → good value)
    (going : ∀ value, good value → Confined view valid scope (next value))
    (fails : ∀ state message after, first state = (.error message, after) →
      whole state = (.error message, after))
    (goes : ∀ state value after, first state = (.ok value, after) →
      whole state = next value after) : Confined view valid scope whole :=
  confined.attempt good ensures (fun message => pure (Except.error message)) going fails goes

theorem choose (key : σ → β) (branch : β → σ → α × σ)
    (determined : ∀ left right, valid left → valid right → Agree view scope left right →
      key left = key right)
    (confined : ∀ value, Confined view valid scope (branch value)) :
    Confined view valid scope fun state => branch (key state) state where
  same left right validLeft validRight agree := by
    rw [determined left right validLeft validRight agree]
    exact (confined _).same left right validLeft validRight agree
  agree left right validLeft validRight agree := by
    rw [determined left right validLeft validRight agree]
    exact (confined _).agree left right validLeft validRight agree
  frame state holds := (confined _).frame state holds
  keeps state holds := (confined _).keeps state holds

theorem read (key : σ → α)
    (determined : ∀ left right, valid left → valid right → Agree view scope left right →
      key left = key right) : Confined view valid scope fun state => (key state, state) :=
  choose key _ determined pure

theorem ite {condition : Prop} [Decidable condition] {first second : σ → α × σ}
    (yes : Confined view valid scope first) (no : Confined view valid scope second) :
    Confined view valid scope fun state => if condition then first state else second state := by
  by_cases holds : condition
  · simpa only [holds, ↓reduceIte] using yes
  · simpa only [holds, ↓reduceIte] using no

theorem mono (confined : Confined view valid scope run) (inside : scope ⊆ wider) :
    Confined view valid wider run where
  same left right validLeft validRight agree :=
    confined.same left right validLeft validRight fun place member => agree place (inside member)
  agree left right validLeft validRight agree place member := by
    by_cases narrow : place ∈ scope
    · exact confined.agree left right validLeft validRight
        (fun place member => agree place (inside member)) place narrow
    · rw [confined.frame left validLeft place narrow, confined.frame right validRight place narrow]
      exact agree place member
  frame state holds place outside :=
    confined.frame state holds place fun member => outside (inside member)
  keeps := confined.keeps

theorem map (confined : Confined view valid scope run) (result : α → β) :
    Confined view valid scope fun state => (result (run state).1, (run state).2) :=
  confined.bind fun value => pure (result value)

theorem foldl {γ : Type} {items : List γ} {step : α × σ → γ → α × σ}
    (confined : ∀ item ∈ items, ∀ value, Confined view valid scope fun state =>
      step (value, state) item) (value : α) :
    Confined view valid scope fun state => items.foldl step (value, state) := by
  induction items generalizing value with
  | nil => exact pure value
  | cons item items ih =>
    have first := confined item List.mem_cons_self value
    exact first.bind fun value =>
      ih (fun item member => confined item (List.mem_cons_of_mem _ member)) value

theorem iterate {γ : Type} {items : List γ} {step : σ → γ → σ}
    (confined : ∀ item ∈ items, Confined view valid scope fun state => ((), step state item)) :
    Confined view valid scope fun state => ((), items.foldl step state) := by
  induction items with
  | nil => exact pure ()
  | cons item items ih =>
    have first := confined item List.mem_cons_self
    exact first.bind fun _ =>
      ih fun item member => confined item (List.mem_cons_of_mem _ member)

/-!
### Independent computations

Where the scopes of computations do not meet, each of them sees and leaves what it would
alone.
-/

section Independent

variable {γ μ : Type} {items : List γ} {place : γ → Set ι}

end Independent

end Confined

end Confinement
