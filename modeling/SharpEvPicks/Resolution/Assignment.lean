import Mathlib.Order.WellFounded

/-! Assignments without a pair that would rather have each other, where both sides like earlier
positions better. There is at most one, so it does not matter which side chooses. -/
namespace SharpEvPicks.Assignment

variable {ι κ : Type*}

/-- Every allowed pair has a member that is assigned to the other or to something earlier. -/
structure Stable [LE ι] [LE κ] (allowed assigned : ι → κ → Prop) : Prop where
  sound : ∀ {i j}, assigned i j → allowed i j
  left : ∀ {i j j'}, assigned i j → assigned i j' → j = j'
  right : ∀ {i i' j}, assigned i j → assigned i' j → i = i'
  content : ∀ {i j}, allowed i j → (∃ j' ≤ j, assigned i j') ∨ ∃ i' ≤ i, assigned i' j

theorem Stable.swap [LE ι] [LE κ] {allowed assigned : ι → κ → Prop}
    (stable : Stable allowed assigned) :
    Stable (fun j i => allowed i j) (fun j i => assigned i j) where
  sound := stable.sound
  left := stable.right
  right := stable.left
  content pair := (stable.content pair).symm

section Unique
variable [PartialOrder ι] [PartialOrder κ] {allowed M N : ι → κ → Prop}

/-- Where the earlier positions agree, a partner in the one is no later than in the other. -/
theorem Stable.no_later (stable : Stable allowed M) (other : Stable allowed N) {i : ι}
    (before : ∀ i' < i, ∀ j, M i' j ↔ N i' j) {j : κ} (given : M i j) :
      ∃ j' ≤ j, N i j' := by
  obtain kept | ⟨i', le, taken⟩ := other.content (stable.sound given)
  · exact kept
  · obtain rfl | lt := le.eq_or_lt
    · exact ⟨j, le_rfl, taken⟩
    · have same := stable.right ((before i' lt j).mpr taken) given
      exact absurd same lt.ne

theorem Stable.unique [WellFoundedLT ι] (stable : Stable allowed M) (other : Stable allowed N)
    (i : ι) : ∀ j, M i j ↔ N i j := by
  induction i using WellFoundedLT.induction with
  | ind i before =>
    have before' : ∀ i' < i, ∀ j, N i' j ↔ M i' j := fun i' lt j => (before i' lt j).symm
    intro j
    constructor
    · intro given
      obtain ⟨j', le, found⟩ := stable.no_later other before given
      obtain ⟨j'', le', back⟩ := other.no_later stable before' found
      cases stable.left given back
      cases le_antisymm le le'
      exact found
    · intro given
      obtain ⟨j', le, found⟩ := other.no_later stable before' given
      obtain ⟨j'', le', back⟩ := stable.no_later other before found
      cases other.left given back
      cases le_antisymm le le'
      exact found

end Unique

end SharpEvPicks.Assignment
