import Mathlib.Algebra.BigOperators.Group.List.Basic
import SharpEvPicks.Python.Dict
import SharpEvPicks.Python.Sorting

/-! What does not depend on the order of a dict or a list. -/
namespace Python

section Lists
variable {α β : Type*}

theorem sortedBy_perm [LinearOrder α] {l l' : List α} (perm : l.Perm l') :
    sortedBy id l = sortedBy id l' := by
  have reordered : (sortedBy id l).Perm (sortedBy id l') :=
    ((List.perm_insertionSort _ l).trans perm).trans (List.perm_insertionSort _ l').symm
  refine reordered.eq_of_pairwise ?_ (sortedBy_pairwise id l) (sortedBy_pairwise id l')
  intro a b _ _ le ge
  exact le_antisymm le ge

theorem mapM_some_iff {f : α → Option β} (default : β) {l : List α} {r : List β} :
    l.mapM f = some r ↔ (∀ x ∈ l, (f x).isSome) ∧ r = l.map fun x =>
      (f x).getD default := by
  induction l generalizing r with
  | nil =>
    constructor
    · rintro ⟨rfl⟩
      exact ⟨by simp, rfl⟩
    · rintro ⟨-, rfl⟩
      rfl
  | cons x l ih =>
    cases first : f x with
    | none => simp [first]
    | some y =>
      cases rest : l.mapM f with
      | none =>
        simp only [List.mapM_cons, first, rest]
        constructor
        · intro absurd
          cases absurd
        · rintro ⟨all, rfl⟩
          have found := ih.mpr ⟨fun z inside => all z (List.mem_cons_of_mem _ inside), rfl⟩
          rw [rest] at found
          cases found
      | some ys =>
        obtain ⟨all, rfl⟩ := ih.mp rest
        simp only [List.mapM_cons, first, rest, List.forall_mem_cons, List.map_cons]
        constructor
        · rintro ⟨rfl⟩
          exact ⟨⟨rfl, all⟩, rfl⟩
        · rintro ⟨-, rfl⟩
          rfl

theorem mapM_ok {ε : Type*} {f : α → Except ε β} {g : α → β} {l : List α}
    (ok : ∀ x ∈ l, f x = .ok (g x)) : l.mapM f = .ok (l.map g) := by
  induction l with
  | nil => rfl
  | cons x l ih =>
    obtain ⟨first, rest⟩ := List.forall_mem_cons.mp ok
    rw [List.mapM_cons, first, ih rest]
    rfl

theorem ok_of_mapM {ε : Type*} {f : α → Except ε β} {l : List α} {r : List β}
    (ok : l.mapM f = .ok r) : ∀ x ∈ l, ∃ y, f x = .ok y := by
  induction l generalizing r with
  | nil => simp
  | cons x l ih =>
    rw [List.mapM_cons] at ok
    cases first : f x with
    | error e =>
      rw [first] at ok
      cases ok
    | ok y =>
      cases rest : l.mapM f with
      | error e =>
        rw [first, rest] at ok
        cases ok
      | ok ys => exact List.forall_mem_cons.mpr ⟨⟨y, first⟩, ih rest⟩

end Lists

namespace Dict
variable {κ ν : Type*} [DecidableEq κ]

omit [DecidableEq κ] in
theorem entries_nodup (d : Dict κ ν) : d.entries.Nodup := d.nodup.of_map _

theorem entry_unique {d : Dict κ ν} {e e' : κ × ν} (he : e ∈ d.entries)
    (he' : e' ∈ d.entries) (same : e.1 = e'.1) : e = e' := by
  obtain ⟨k, v⟩ := e
  obtain ⟨k', v'⟩ := e'
  cases same
  have first := get?_eq_some_iff.mpr he
  rw [get?_eq_some_iff.mpr he'] at first
  cases first
  rfl

theorem entries_perm {d d' : Dict κ ν} (same : ∀ k, d.get? k = d'.get? k) :
    d.entries.Perm d'.entries := by
  rw [List.perm_ext_iff_of_nodup d.entries_nodup d'.entries_nodup]
  rintro ⟨k, v⟩
  rw [← get?_eq_some_iff, ← get?_eq_some_iff, same]

theorem entries_eq (d : Dict κ ν) (default : ν) :
    d.entries = d.keys.map fun k => (k, (d.get? k).getD default) := by
  unfold keys
  rw [List.map_map]
  refine (List.map_id' d.entries).symm.trans (List.map_congr_left ?_)
  rintro ⟨k, v⟩ inside
  simp [get?_eq_some_iff.mpr inside]

theorem values_eq (d : Dict κ ν) (default : ν) :
    d.values = d.keys.map fun k => (d.get? k).getD default := by
  unfold values
  rw [d.entries_eq default, List.map_map]
  rfl

theorem entries_filter_key (d : Dict κ ν) (k : κ) :
    (d.entries.filter fun e => e.1 = k) = (d.get? k).toList.map fun v => (k, v) := by
  obtain ⟨entries, nodup⟩ := d
  unfold get?
  induction entries with
  | nil => rfl
  | cons e l ih =>
    obtain ⟨fresh, tail⟩ := List.nodup_cons.mp nodup
    by_cases own : e.1 = k
    · have others : (l.filter fun e => e.1 = k) = [] := by
        rw [List.filter_eq_nil_iff]
        intro e' inside fits
        simp only [decide_eq_true_eq] at fits
        exact fresh (List.mem_map.mpr ⟨e', inside, fits.trans own.symm⟩)
      subst own
      simp [find, others]
    · simp [find, own, ih tail]

/-- A loop that may set the entry of each key it comes by. -/
theorem get?_foldl_setIf (may : κ → Option ν → ν → Bool) {l : List (κ × ν)}
    (nodup : (l.map Prod.fst).Nodup) (d : Dict κ ν) (k : κ) :
    (l.foldl (fun d e => if may e.1 (d.get? e.1) e.2 then d.set e.1 e.2 else d) d).get? k =
      match find l k with
      | none => d.get? k
      | some v => if may k (d.get? k) v then some v else d.get? k := by
  induction l generalizing d with
  | nil => rfl
  | cons e l ih =>
    obtain ⟨fresh, tail⟩ := List.nodup_cons.mp nodup
    rw [List.foldl_cons, ih tail]
    by_cases own : e.1 = k
    · have others : find l k = none := by
        cases found : find l k with
        | none => rfl
        | some v =>
          have inside := (find_eq_some_iff tail).mp found
          exact absurd (List.mem_map.mpr ⟨_, inside, own.symm⟩) fresh
      subst own
      simp only [others, find, if_true]
      split
      · rw [get?_set_self]
      · rfl
    · have kept : (if may e.1 (d.get? e.1) e.2 then d.set e.1 e.2 else d).get? k = d.get? k := by
        split
        · exact get?_set_ne _ (Ne.symm own) _
        · rfl
      simp only [find, own, if_false, kept]

end Dict
end Python
