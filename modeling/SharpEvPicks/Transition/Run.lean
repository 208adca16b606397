import Mathlib.Tactic.TypeStar

/-! Runs of a step function over a list of actions: what every step keeps, the whole run keeps. -/
namespace Transition

variable {σ α : Type*} (step : σ → α → σ)

def run (s : σ) (actions : List α) : σ := actions.foldl step s

/-- `P` holds of every step of the run, in the state in which it is taken. -/
def Along (P : σ → α → Prop) : σ → List α → Prop
  | _, [] => True
  | s, a :: rest => P s a ∧ Along P (step s a) rest

variable {step} {P Q : σ → α → Prop} {I : σ → Prop} {s : σ} {actions : List α}

@[simp] theorem run_nil : run step s [] = s := rfl

@[simp] theorem run_cons (a : α) : run step s (a :: actions) = run step (step s a) actions := rfl

theorem run_append (before after : List α) :
    run step s (before ++ after) = run step (run step s before) after := List.foldl_append

theorem along_append {before after : List α} :
    Along step P s (before ++ after) ↔ Along step P s before ∧ Along step P
      (run step s before) after := by
  induction before generalizing s with
  | nil => simp [Along]
  | cons a before ih => simp [Along, ih, and_assoc]

theorem Along.at {before after : List α} {a : α} (along : Along step P s (before ++ a :: after)) :
    P (run step s before) a := (along_append.mp along).2.1

theorem Along.invariant (keeps : ∀ s a, I s → P s a → I (step s a)) (base : I s)
    (along : Along step P s actions) : I (run step s actions) := by
  induction actions generalizing s with
  | nil => exact base
  | cons a rest ih => exact ih (keeps s a base along.1) along.2

theorem Along.of_forall (all : ∀ a ∈ actions, ∀ s, P s a) : Along step P s actions := by
  induction actions generalizing s with
  | nil => trivial
  | cons a rest ih =>
    exact ⟨all a List.mem_cons_self s, ih fun b inside => all b (List.mem_cons_of_mem a inside)⟩

theorem Along.and (first : Along step P s actions) (second : Along step Q s actions) :
    Along step (fun s a => P s a ∧ Q s a) s actions := by
  induction actions generalizing s with
  | nil => trivial
  | cons a rest ih => exact ⟨⟨first.1, second.1⟩, ih first.2 second.2⟩

/-- What an invariant and the condition give for one step, they give along the run. -/
theorem Along.imp (keeps : ∀ s a, I s → P s a → I (step s a))
    (gives : ∀ s a, I s → P s a → Q s a) (base : I s) (along : Along step P s actions) :
    Along step Q s actions := by
  induction actions generalizing s with
  | nil => trivial
  | cons a rest ih => exact ⟨gives s a base along.1, ih (keeps s a base along.1) along.2⟩

/-- Two conditions that an invariant makes equal hold along the same runs. -/
theorem along_congr (keeps : ∀ s a, I s → I (step s a))
    (same : ∀ s a, I s → (P s a ↔ Q s a)) (base : I s) :
    Along step P s actions ↔ Along step Q s actions := by
  constructor
  · exact Along.imp (fun s a held _ => keeps s a held) (fun s a held => (same s a held).mp) base
  · exact Along.imp (fun s a held _ => keeps s a held) (fun s a held => (same s a held).mpr) base

instance alongDecidable [∀ s a, Decidable (P s a)] :
    ∀ s actions, Decidable (Along step P s actions)
  | _, [] => inferInstanceAs (Decidable True)
  | s, a :: rest => @instDecidableAnd _ _ _ (alongDecidable (step s a) rest)

theorem invariant (keeps : ∀ s a, I s → I (step s a)) (base : I s) :
    I (run step s actions) := by
  induction actions generalizing s with
  | nil => exact base
  | cons a rest ih => exact ih (keeps s a base)

end Transition
