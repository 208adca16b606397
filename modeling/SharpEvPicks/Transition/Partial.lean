import Mathlib.Tactic.TypeStar

/-! Steps that are possible in some states only, and the runs that they make. -/
namespace Transition

variable {σ α : Type*} (step : σ → α → Option σ)

/-- The state after the actions, each of them possible in its turn. -/
def trace : σ → List α → Option σ
  | s, [] => some s
  | s, a :: rest => (step s a).bind fun s' => trace s' rest

variable {step} {I : σ → Prop} {s s' : σ} {actions : List α}

theorem trace_cons {a : α} : trace step s (a :: actions) = some s' ↔
    ∃ next, step s a = some next ∧ trace step next actions = some s' := Option.bind_eq_some_iff

theorem trace_append {before after : List α} : trace step s (before ++ after) = some s' ↔
    ∃ next, trace step s before = some next ∧ trace step next after = some s' := by
  induction before generalizing s with
  | nil => simp [trace]
  | cons a before ih =>
    rw [List.cons_append, trace_cons]
    constructor
    · rintro ⟨first, taken, rest⟩
      obtain ⟨next, early, late⟩ := ih.mp rest
      exact ⟨next, trace_cons.mpr ⟨first, taken, early⟩, late⟩
    · rintro ⟨next, early, late⟩
      obtain ⟨first, taken, rest⟩ := trace_cons.mp early
      exact ⟨first, taken, ih.mpr ⟨next, rest, late⟩⟩

/-- What every possible step keeps, the run keeps. -/
theorem trace_invariant (keeps : ∀ s a s', I s → step s a = some s' → I s') (base : I s)
    (ran : trace step s actions = some s') : I s' := by
  induction actions generalizing s with
  | nil =>
    cases ran
    exact base
  | cons a rest ih =>
    obtain ⟨next, taken, later⟩ := trace_cons.mp ran
    exact ih (keeps s a next base taken) later

variable {μ : σ → Nat}

/-- A measure that every step lowers bounds the run. -/
theorem trace_length (keeps : ∀ s a s', I s → step s a = some s' → I s')
    (falls : ∀ s a s', I s → step s a = some s' → μ s' < μ s) (base : I s)
    (ran : trace step s actions = some s') : actions.length + μ s' ≤ μ s := by
  induction actions generalizing s with
  | nil =>
    cases ran
    exact Nat.le_of_eq (Nat.zero_add _)
  | cons a rest ih =>
    obtain ⟨next, taken, later⟩ := trace_cons.mp ran
    have lower := falls s a next base taken
    have bounded := ih (keeps s a next base taken) later
    rw [List.length_cons]
    omega

/-- Where only final states allow no step, every state can be run to a final one. -/
theorem trace_final {final : σ → Prop} (keeps : ∀ s a s', I s → step s a = some s' → I s')
    (falls : ∀ s a s', I s → step s a = some s' → μ s' < μ s)
    (progress : ∀ s, I s → final s ∨ ∃ a s', step s a = some s') (base : I s) :
    ∃ actions s', trace step s actions = some s' ∧ final s' := by
  induction measured : μ s using Nat.strongRecOn generalizing s with
  | ind n ih =>
    obtain done | ⟨a, next, taken⟩ := progress s base
    · exact ⟨[], s, rfl, done⟩
    · have lower := falls s a next base taken
      obtain ⟨actions, s', ran, done⟩ :=
        ih (μ next) (measured ▸ lower) (keeps s a next base taken) rfl
      exact ⟨a :: actions, s', trace_cons.mpr ⟨next, taken, ran⟩, done⟩

end Transition
