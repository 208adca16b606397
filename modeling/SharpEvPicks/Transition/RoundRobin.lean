import Mathlib.Data.List.Basic
import Mathlib.Tactic.Common

/-! Searching slots in a circle from a cursor: the cursor moves past the slot it finds, so a slot
that may be taken is reached before any other slot is taken twice. -/
namespace Transition

/-- The first slot from the cursor on that satisfies `p`. -/
def seek (slots cursor : Nat) (p : Nat → Bool) : Option Nat :=
  ((List.range slots).find? fun offset => p ((cursor + offset) % slots)).map fun offset =>
    (cursor + offset) % slots

/-- The slot is so many places ahead of the cursor. -/
def Ahead (slots cursor k d : Nat) : Prop := d < slots ∧ k = (cursor + d) % slots

variable {slots cursor k d i : Nat} {p : Nat → Bool}

theorem exists_ahead (inside : k < slots) (cursor : Nat) : ∃ d, Ahead slots cursor k d := by
  refine ⟨(k + (slots - cursor % slots)) % slots, Nat.mod_lt _ (by omega), ?_⟩
  have below : cursor % slots < slots := Nat.mod_lt _ (by omega)
  have whole : cursor % slots + (k + (slots - cursor % slots)) = k + slots := by omega
  rw [Nat.add_mod, Nat.mod_mod, ← Nat.add_mod, ← Nat.mod_add_mod, whole, Nat.add_mod_right,
    Nat.mod_eq_of_lt inside]

theorem seek_eq_some (found : seek slots cursor p = some i) : p i ∧ i < slots ∧
    ∃ offset, Ahead slots cursor i offset ∧ ∀ before < offset, p
      ((cursor + before) % slots) = false := by
  obtain ⟨offset, first, rfl⟩ := Option.map_eq_some_iff.mp found
  obtain ⟨holds, inside, earlier⟩ := List.find?_range_eq_some.mp first
  have below := List.mem_range.mp inside
  exact ⟨holds, Nat.mod_lt _ (by omega), offset, ⟨below, rfl⟩,
    fun before late => by simpa using earlier before late⟩

/-- Taking another slot brings the cursor nearer. -/
theorem Ahead.nearer (ahead : Ahead slots cursor k d) (free : p k)
    (found : seek slots cursor p = some i) (other : i ≠ k) :
    ∃ nearer < d, Ahead slots ((i + 1) % slots) k nearer := by
  obtain ⟨below, rfl⟩ := ahead
  obtain ⟨-, -, offset, ⟨inside, rfl⟩, earlier⟩ := seek_eq_some found
  have before : offset < d := by
    by_contra late
    obtain same | after := Nat.eq_or_lt_of_le (Nat.le_of_not_lt late)
    · exact other (same ▸ rfl)
    · rw [earlier d after] at free
      cases free
  refine ⟨d - offset - 1, by omega, by omega, ?_⟩
  have whole : cursor + offset + 1 + (d - offset - 1) = cursor + d := by omega
  rw [Nat.mod_add_mod, Nat.add_assoc, Nat.mod_add_mod, ← Nat.add_assoc, whole]

end Transition
