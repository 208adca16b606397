import Mathlib.Tactic.TypeStar

/-! Steps that raise or do what a total function does; the input alone decides which. -/
namespace Transition

variable {σ α β γ ε : Type*}

/-- What a sequence of two raising computations returns, both returned. -/
theorem bind_ok.{u, v} {ε : Type u} {α β : Type v} {x : Except ε α} {f : α → Except ε β}
    {b : β} : x >>= f = .ok b ↔ ∃ a, x = .ok a ∧ f a = .ok b := by
  cases x with
  | error e => exact ⟨nofun, nofun⟩
  | ok a =>
    constructor
    · intro done
      exact ⟨a, rfl, done⟩
    · rintro ⟨a', same, done⟩
      cases same
      exact done

theorem ok_of_toOption {x : Except ε α} {a : α} (done : x.toOption = some a) : x = .ok a := by
  cases x with
  | error e => cases done
  | ok b =>
    cases done
    rfl

theorem ok_of_mapError {x : Except ε α} {f : ε → β} {a : α} (done : x.mapError f = .ok a) :
    x = .ok a := by
  cases x with
  | error e => cases done
  | ok b =>
    cases done
    rfl

theorem mem_of_mapM_ok.{u, v} {ε : Type u} {α β : Type v} {f : α → Except ε β}
    {l : List α} {l' : List β} (done : l.mapM f = .ok l') {b : β} (inside : b ∈ l') :
      ∃ a ∈ l, f a = .ok b := by
  induction l generalizing l' with
  | nil =>
    cases done
    cases inside
  | cons a l ih =>
    rw [List.mapM_cons] at done
    obtain ⟨first, value, done⟩ := bind_ok.mp done
    obtain ⟨rest, values, done⟩ := bind_ok.mp done
    cases done
    obtain rfl | later := List.mem_cons.mp inside
    · exact ⟨a, List.mem_cons_self, value⟩
    · obtain ⟨a', listed, done⟩ := ih values later
      exact ⟨a', List.mem_cons_of_mem a listed, done⟩

/-- What can be told of one result by its item can be told of all of them. -/
theorem map_of_mapM_ok.{u, v, w} {ε : Type u} {α : Type w} {β : Type v}
    {f : α → Except ε β} {g : α → γ} {h : β → γ} {l : List α} {l' : List β}
    (done : l.mapM f = .ok l') (each : ∀ a b, f a = .ok b → h b = g a) :
    l'.map h = l.map g := by
  induction l generalizing l' with
  | nil =>
    cases done
    rfl
  | cons a l ih =>
    rw [List.mapM_cons] at done
    obtain ⟨first, value, done⟩ := bind_ok.mp done
    obtain ⟨rest, values, done⟩ := bind_ok.mp done
    cases done
    rw [List.map_cons, List.map_cons, each a first value, ih values]

/-- What every pass over a listed item keeps, a loop that returns keeps. -/
theorem foldlM_invariant.{u, v, w} {ε : Type u} {σ : Type v} {α : Type w}
    {step : σ → α → Except ε σ} {I : σ → Prop} {l : List α}
    (keeps : ∀ s, ∀ a ∈ l, ∀ s', I s → step s a = .ok s' → I s') {s s' : σ}
    (base : I s) (ran : l.foldlM step s = .ok s') : I s' := by
  induction l generalizing s with
  | nil =>
    cases ran
    exact base
  | cons a l ih =>
    rw [List.foldlM_cons] at ran
    obtain ⟨next, first, rest⟩ := bind_ok.mp ran
    have kept := keeps s a List.mem_cons_self next base first
    exact ih (fun s b inside => keeps s b (List.mem_cons_of_mem a inside)) kept rest

structure Guarded (step : σ → α → Except ε σ) (good : α → Prop) (f : σ → α → σ) :
    Prop where
  ok : ∀ s a, good a → step s a = .ok (f s a)
  error : ∀ s a, ¬ good a → ∃ e, step s a = .error e

namespace Guarded
variable {step : σ → α → Except ε σ} {good : α → Prop} {f : σ → α → σ}

/-- A loop raises where one of its passes does. -/
theorem foldlM (guarded : Guarded step good f) :
    Guarded (fun s (l : List α) => l.foldlM step s) (fun l => ∀ a ∈ l, good a)
      (fun s l => l.foldl f s) := by
  constructor
  · intro s l fits
    induction l generalizing s with
    | nil => rfl
    | cons a l ih =>
      obtain ⟨first, rest⟩ := List.forall_mem_cons.mp fits
      simp only [List.foldlM_cons, guarded.ok s a first, List.foldl_cons]
      exact ih (f s a) rest
  · intro s l bad
    induction l generalizing s with
    | nil => exact absurd (fun a inside => by cases inside) bad
    | cons a l ih =>
      by_cases first : good a
      · have rest : ¬ ∀ b ∈ l, good b :=
          fun rest => bad (List.forall_mem_cons.mpr ⟨first, rest⟩)
        obtain ⟨e, raised⟩ := ih (f s a) rest
        refine ⟨e, ?_⟩
        simp only [List.foldlM_cons, guarded.ok s a first]
        exact raised
      · obtain ⟨e, raised⟩ := guarded.error s a first
        exact ⟨e, by simp only [List.foldlM_cons, raised, bind, Except.bind]⟩

theorem congr {g : σ → α → σ} (guarded : Guarded step good f)
    (same : ∀ s a, f s a = g s a) : Guarded step good g := by
  obtain rfl : f = g := funext fun s => funext (same s)
  exact guarded

/-- A loop whose passes skip what is not a row. -/
theorem foldlM_filterMap {row : α → Option β} {g : σ → β → σ}
    (guarded : Guarded step good fun s a => (row a).elim s (g s)) :
    Guarded (fun s (l : List α) => l.foldlM step s) (fun l => ∀ a ∈ l, good a)
      (fun s l => (l.filterMap row).foldl g s) := by
  apply guarded.foldlM.congr
  intro s l
  rw [List.foldl_filterMap]
  congr 1
  funext s a
  cases row a <;> rfl

end Guarded
end Transition
