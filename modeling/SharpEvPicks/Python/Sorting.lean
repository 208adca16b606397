import Mathlib.Data.List.Sort

/-! Sorting by a key, stably, and the first element with the least key. -/
namespace Python

variable {α β : Type*} [LinearOrder β]

/-- `sorted(l, key=key)`. -/
def sortedBy (key : α → β) (l : List α) : List α := l.insertionSort fun a b => key a ≤ key b

/-- `b` is the first of the elements of `l` whose key is least. -/
def FirstLeast (key : α → β) (l : List α) (b : α) : Prop :=
  ∃ before after, l = before ++ b :: after ∧ (∀ x ∈ before, key b < key x) ∧
    ∀ x ∈ after, key b ≤ key x

theorem FirstLeast.mem {key : α → β} {l : List α} {b : α} (first : FirstLeast key l b) :
    b ∈ l := by
  obtain ⟨before, after, rfl, -, -⟩ := first
  simp

theorem FirstLeast.le {key : α → β} {l : List α} {b x : α} (first : FirstLeast key l b)
    (inside : x ∈ l) : key b ≤ key x := by
  obtain ⟨before, after, rfl, less, least⟩ := first
  obtain old | rfl | new := by simpa using inside
  · exact (less x old).le
  · exact le_rfl
  · exact least x new

theorem firstLeast_cons {key : α → β} {a : α} {l : List α} {b : α} :
    FirstLeast key (a :: l) b ↔
      (b = a ∧ ∀ x ∈ l, key a ≤ key x) ∨ (key b < key a ∧ FirstLeast key l b) := by
  constructor
  · rintro ⟨before, after, shape, less, least⟩
    cases before with
    | nil =>
      cases shape
      exact .inl ⟨rfl, least⟩
    | cons first before =>
      cases shape
      have less' : ∀ x ∈ before, key b < key x :=
        fun x inside => less x (List.mem_cons_of_mem _ inside)
      exact .inr ⟨less a List.mem_cons_self, before, after, rfl, less', least⟩
  · rintro (⟨rfl, least⟩ | ⟨smaller, before, after, rfl, less, least⟩)
    · exact ⟨[], l, rfl, by simp, least⟩
    · refine ⟨a :: before, after, rfl, ?_, least⟩
      intro x inside
      obtain rfl | old := List.mem_cons.mp inside
      · exact smaller
      · exact less x old

theorem head_orderedInsert (key : α → β) (a : α) (l : List α) :
    (l.orderedInsert (fun a b => key a ≤ key b) a).head? =
      some (match l.head? with
        | some b => if key a ≤ key b then a else b
        | none => a) := by
  cases l with
  | nil => rfl
  | cons b l =>
    simp only [List.orderedInsert_cons, List.head?_cons]
    split <;> rfl

theorem head_sortedBy (key : α → β) (l : List α) (b : α) :
    (sortedBy key l).head? = some b ↔ FirstLeast key l b := by
  induction l generalizing b with
  | nil =>
    constructor
    · intro absurd
      cases absurd
    · intro first
      cases first.mem
  | cons a l ih =>
    unfold sortedBy at ih ⊢
    rw [List.insertionSort_cons, head_orderedInsert, firstLeast_cons]
    cases least : (l.insertionSort fun a b => key a ≤ key b).head? with
    | none =>
      have empty : l = [] := by
        have := List.length_insertionSort (fun a b => key a ≤ key b) l
        rw [List.head?_eq_none_iff.mp least] at this
        exact List.length_eq_zero_iff.mp this.symm
      subst empty
      constructor
      · rintro ⟨rfl⟩
        exact .inl ⟨rfl, by simp⟩
      · rintro (⟨rfl, -⟩ | ⟨-, first⟩)
        · rfl
        · cases first.mem
    | some c =>
      have first := (ih c).mp least
      simp only [Option.some.injEq]
      split
      · rename_i early
        constructor
        · rintro rfl
          exact .inl ⟨rfl, fun x inside => early.trans (first.le inside)⟩
        · rintro (⟨rfl, -⟩ | ⟨smaller, other⟩)
          · rfl
          · exact absurd (early.trans (first.le other.mem)) (not_le.mpr smaller)
      · rename_i late
        constructor
        · rintro rfl
          exact .inr ⟨not_le.mp late, first⟩
        · rintro (⟨rfl, least'⟩ | ⟨-, other⟩)
          · exact absurd (least' c first.mem) late
          · have same := (ih b).mpr other
            rw [least] at same
            exact Option.some.inj same

theorem FirstLeast.unique {key : α → β} {l : List α} {b c : α} (first : FirstLeast key l b)
    (other : FirstLeast key l c) : b = c := by
  have left := (head_sortedBy key l b).mpr first
  rw [(head_sortedBy key l c).mpr other] at left
  exact (Option.some.inj left).symm

theorem mem_sortedBy {key : α → β} {l : List α} {x : α} : x ∈ sortedBy key l ↔ x ∈ l :=
  List.mem_insertionSort _

theorem sortedBy_pairwise (key : α → β) (l : List α) :
    (sortedBy key l).Pairwise fun a b => key a ≤ key b := by
  have total : Std.Total fun a b : α => key a ≤ key b := ⟨fun a b => le_total _ _⟩
  have trans : IsTrans α fun a b => key a ≤ key b := ⟨fun _ _ _ => le_trans⟩
  exact List.pairwise_insertionSort _ l

/-- `max(l, key=key)`, and the loop that keeps the first strictly better element. -/
def maxBy (key : α → β) (l : List α) : Option α :=
  l.foldl
    (fun best x =>
      match best with
      | none => some x
      | some b => if key b < key x then some x else some b)
    none

theorem firstLeast_singleton {key : α → β} {a b : α} : FirstLeast key [a] b ↔ b = a := by
  rw [firstLeast_cons]
  constructor
  · rintro (⟨same, -⟩ | ⟨-, first⟩)
    · exact same
    · cases first.mem
  · intro same
    exact .inl ⟨same, by simp⟩

theorem firstLeast_drop {key : α → β} {a x : α} {l : List α} {b : α}
    (smaller : key x < key a) : FirstLeast key (a :: x :: l) b ↔ FirstLeast key (x :: l) b := by
  rw [firstLeast_cons]
  constructor
  · rintro (⟨-, least⟩ | ⟨-, first⟩)
    · exact absurd (least x List.mem_cons_self) (not_le.mpr smaller)
    · exact first
  · intro first
    exact .inr ⟨lt_of_le_of_lt (first.le List.mem_cons_self) smaller, first⟩

theorem firstLeast_keep {key : α → β} {a x : α} {l : List α} {b : α}
    (least : key a ≤ key x) : FirstLeast key (a :: x :: l) b ↔ FirstLeast key (a :: l) b := by
  rw [firstLeast_cons, firstLeast_cons, firstLeast_cons]
  constructor
  · rintro (⟨same, all⟩ | ⟨smaller, ⟨rfl, -⟩ | ⟨-, first⟩⟩)
    · exact .inl ⟨same, fun y inside => all y (List.mem_cons_of_mem _ inside)⟩
    · exact absurd least (not_le.mpr smaller)
    · exact .inr ⟨smaller, first⟩
  · rintro (⟨same, all⟩ | ⟨smaller, first⟩)
    · exact .inl ⟨same, List.forall_mem_cons.mpr ⟨least, all⟩⟩
    · exact .inr ⟨smaller, .inr ⟨lt_of_lt_of_le smaller least, first⟩⟩

theorem maxBy_iff (key : α → β) (l : List α) (b : α) :
    maxBy key l = some b ↔ FirstLeast (fun x => OrderDual.toDual (key x)) l b := by
  cases l with
  | nil =>
    constructor
    · intro none
      cases none
    · intro first
      cases first.mem
  | cons start l =>
    unfold maxBy
    rw [List.foldl_cons]
    induction l generalizing start with
    | nil => rw [firstLeast_singleton, List.foldl_nil, Option.some.injEq, eq_comm]
    | cons x l ih =>
      rw [List.foldl_cons]
      by_cases better : key start < key x
      · simp only [better, if_true]
        have dropped : FirstLeast (fun x => OrderDual.toDual (key x)) (start :: x :: l) b ↔ _ :=
          firstLeast_drop better
        exact (ih x).trans dropped.symm
      · simp only [better, if_false]
        have kept : FirstLeast (fun x => OrderDual.toDual (key x)) (start :: x :: l) b ↔ _ :=
          firstLeast_keep (not_lt.mp better)
        exact (ih start).trans kept.symm

theorem exists_maxBy (key : α → β) {l : List α} {x : α} (inside : x ∈ l) :
    ∃ b, maxBy key l = some b := by
  cases first : (sortedBy (fun x => OrderDual.toDual (key x)) l).head? with
  | none =>
    have listed := (@mem_sortedBy _ _ _ (fun x => OrderDual.toDual (key x)) l x).mpr inside
    rw [List.head?_eq_none_iff.mp first] at listed
    cases listed
  | some b => exact ⟨b, (maxBy_iff key l b).mpr ((head_sortedBy _ _ _).mp first)⟩

/-- Scanning a sorted list for the first element of a kind meets one with the least key of the kind.
-/
theorem find?_least {key : α → β} {p : α → Bool} {l : List α}
    (sorted : l.Pairwise fun a b => key a ≤ key b) {b : α} (found : l.find? p = some b) {x : α}
    (inside : x ∈ l) (kind : p x) : key b ≤ key x := by
  induction l with
  | nil => cases inside
  | cons a l ih =>
    obtain ⟨least, sorted⟩ := List.pairwise_cons.mp sorted
    rw [List.find?_cons] at found
    cases here : p a with
    | true =>
      simp only [here, Option.some.injEq] at found
      subst found
      obtain rfl | later := List.mem_cons.mp inside
      · exact le_rfl
      · exact least x later
    | false =>
      simp only [here] at found
      obtain rfl | later := List.mem_cons.mp inside
      · rw [here] at kind
        cases kind
      · exact ih sorted found later

end Python
