import Mathlib.Data.List.Basic
import Mathlib.Data.List.Induction
import SharpEvPicks.Transition.Run

/-! A condition that some steps set and that lasts as long as every step holds it. -/
namespace Transition

variable {σ α : Type*} {step : σ → α → σ} {latched : σ → Prop}
  {sets : σ → α → Prop} {holds : α → Prop} {s : σ}

/-- What is latched was set by a step, and every step since has held it. -/
theorem latched_iff (law : ∀ s a, latched (step s a) ↔ sets s a ∨ (latched s ∧ holds a))
    (base : ¬ latched s) (actions : List α) : latched (run step s actions) ↔
      ∃ early a late, actions = early ++ a :: late ∧ sets (run step s early) a ∧
        ∀ b ∈ late, holds b := by
  induction actions using List.reverseRecOn with
  | nil =>
    refine iff_of_false base ?_
    rintro ⟨early, a, late, same, -⟩
    exact List.append_ne_nil_of_right_ne_nil early (List.cons_ne_nil a late) same.symm
  | append_singleton actions last ih =>
    rw [run_append, run_cons, run_nil, law, ih]
    constructor
    · rintro (now | ⟨⟨early, a, late, rfl, set_, held⟩, holds_⟩)
      · exact ⟨actions, last, [], rfl, now, nofun⟩
      · refine ⟨early, a, late ++ [last], by simp, set_, fun b inside => ?_⟩
        obtain before | here := List.mem_append.mp inside
        · exact held b before
        · rwa [List.mem_singleton.mp here]
    · rintro ⟨early, a, late, same, set_, held⟩
      obtain rfl | ⟨late, b, rfl⟩ := List.eq_nil_or_concat' late
      · obtain ⟨rfl, ends⟩ := List.append_inj' same rfl
        cases ends
        exact .inl set_
      · rw [← List.cons_append, ← List.append_assoc] at same
        obtain ⟨rfl, ends⟩ := List.append_inj' same rfl
        cases ends
        exact .inr ⟨⟨early, a, late, rfl, set_,
          fun b inside => held b (List.mem_append_left _ inside)⟩,
          held _ (List.mem_append_right _ (List.mem_singleton_self _))⟩

end Transition
