import Mathlib.Data.Finset.Card
import SharpEvPicks.Python.Lookups

/-! How many entries a dict has. -/
namespace Python.Dict

variable {κ ν : Type*} [DecidableEq κ] {d : Dict κ ν} {k : κ} {v : ν}

omit [DecidableEq κ] in
theorem entries_injective : Function.Injective (entries : Dict κ ν → List (κ × ν)) := by
  rintro ⟨_, _⟩ ⟨_, _⟩ rfl
  rfl

instance [DecidableEq ν] : DecidableEq (Dict κ ν) := entries_injective.decidableEq

omit [DecidableEq κ] in
theorem length_keys : d.keys.length = d.entries.length := List.length_map _

theorem length_set_of_isSome (held : (d.get? k).isSome) :
    (d.set k v).entries.length = d.entries.length := by
  rw [← length_keys, keys_set, if_pos (mem_keys_iff.mpr held), length_keys]

theorem length_set_le : (d.set k v).entries.length ≤ d.entries.length + 1 := by
  rw [← length_keys, keys_set, ← length_keys]
  split
  · exact Nat.le_succ _
  · rw [List.length_append, List.length_singleton]

theorem length_pop_lt (held : (d.get? k).isSome) : (d.pop k).entries.length < d.entries.length := by
  obtain ⟨v, held⟩ := Option.isSome_iff_exists.mp held
  have there := get?_eq_some_iff.mp held
  exact List.length_filter_lt_length_iff_exists.mpr ⟨(k, v), there, by simp⟩

/-- No more entries than the keys may be. -/
theorem length_le_card {keys : Finset κ} (inside : ∀ k, (d.get? k).isSome → k ∈ keys) :
    d.entries.length ≤ keys.card := by
  have distinct : d.keys.toFinset.card = d.entries.length := by
    exact (List.toFinset_card_of_nodup d.nodup).trans length_keys
  rw [← distinct]
  refine Finset.card_le_card fun k listed => ?_
  exact inside k (mem_keys_iff.mp (List.mem_toFinset.mp listed))

end Python.Dict
