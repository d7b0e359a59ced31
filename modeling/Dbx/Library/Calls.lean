/-!
# Calls that may fail

Computations over a state that return a value or raise an error, and keep what they have
done to the state either way, with rules for what holds before and after them.
-/

set_option autoImplicit false

namespace Calls

variable {σ μ α β : Type}

def Call (σ μ α : Type) : Type := σ → Except μ α × σ

namespace Call

def raise (error : μ) : Call σ μ α := fun state => (.error error, state)

instance : Monad (Call σ μ) where
  pure value := fun state => (.ok value, state)
  bind call next := fun state =>
    match call state with
    | (.error error, state) => (.error error, state)
    | (.ok value, state) => next value state

theorem bind_error {call : Call σ μ α} {state after : σ} {error : μ}
    (ran : call state = (.error error, after)) (next : α → Call σ μ β) :
    (call >>= next) state = (.error error, after) := by
  simp only [Bind.bind, ran]

theorem bind_ok {call : Call σ μ α} {state after : σ} {value : α}
    (ran : call state = (.ok value, after)) (next : α → Call σ μ β) :
    (call >>= next) state = next value after := by
  simp only [Bind.bind, ran]

end Call

/-- From every state with `before`, the call ends in one with `returns` or, if it raises an
error, in one with `raises`. -/
def Triple (before : σ → Prop) (call : Call σ μ α) (returns : α → σ → Prop) (raises : σ → Prop) :
    Prop :=
  ∀ state, before state →
    (∀ value, (call state).1 = .ok value → returns value (call state).2) ∧
      ∀ error, (call state).1 = .error error → raises (call state).2

namespace Triple

variable {before : σ → Prop} {call : Call σ μ α} {next : α → Call σ μ β}
  {returns : α → σ → Prop} {ends : β → σ → Prop} {raises : σ → Prop}

theorem pure {value : α} (holds : ∀ state, before state → returns value state) :
    Triple before (Pure.pure value : Call σ μ α) returns raises := by
  intro state start
  refine ⟨fun returned same => ?_, fun error same => by cases same⟩
  cases same
  exact holds state start

theorem raise {error : μ} (holds : ∀ state, before state → raises state) :
    Triple before (Call.raise error : Call σ μ α) returns raises :=
  fun state start => ⟨fun value same => (by cases same), fun _ _ => holds state start⟩

theorem bind (first : Triple before call returns raises)
    (rest : ∀ value, Triple (returns value) (next value) ends raises) :
    Triple before (call >>= next) ends raises := by
  intro state start
  obtain ⟨returned, raised⟩ := first state start
  rcases ran : call state with ⟨error | value, after⟩
  · rw [ran] at raised
    rw [Call.bind_error ran]
    exact ⟨fun value same => (by cases same), fun _ _ => raised error rfl⟩
  · rw [ran] at returned
    rw [Call.bind_ok ran]
    exact rest value after (returned value rfl)

theorem map {result : α → β}
    (first : Triple before call (fun value => ends (result value)) raises) :
    Triple before (call >>= fun value => Pure.pure (result value)) ends raises :=
  first.bind fun _ => .pure fun _ holds => holds

theorem weaken {start : σ → Prop} {leaves : α → σ → Prop} {fails : σ → Prop}
    (triple : Triple before call returns raises) (pre : ∀ state, start state → before state)
    (post : ∀ value state, returns value state → leaves value state)
    (failing : ∀ state, raises state → fails state) : Triple start call leaves fails := by
  intro state holds
  obtain ⟨returned, raised⟩ := triple state (pre state holds)
  exact ⟨fun value same => post value _ (returned value same),
    fun error same => failing _ (raised error same)⟩

theorem after {ensured : σ → Prop} (triple : Triple before call returns raises) {state : σ}
    (start : before state) (returning : ∀ value state, returns value state → ensured state)
    (raising : ∀ state, raises state → ensured state) : ensured (call state).2 := by
  obtain ⟨returned, raised⟩ := triple state start
  cases ran : (call state).1 with
  | error error => exact raising _ (raised error ran)
  | ok value => exact returning value _ (returned value ran)

end Triple

end Calls
