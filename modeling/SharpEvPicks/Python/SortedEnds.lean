import SharpEvPicks.Python.Sorting

/-! The two ends of a stable sort: which elements can stand there, and when the order of the list
decides between them. -/
namespace Python

variable {α β γ : Type*} [LinearOrder β] {key : α → β}

def Earliest (key : α → β) (l : List α) (a : α) : Prop :=
  a ∈ l ∧ ∀ x ∈ l, key a ≤ key x

def Latest (key : α → β) (l : List α) (a : α) : Prop :=
  a ∈ l ∧ ∀ x ∈ l, key x ≤ key a

/-- Elements of the least key have one value. -/
def OpensAlike (key : α → β) (value : α → γ) (l : List α) : Prop :=
  ∀ a b, Earliest key l a → Earliest key l b → value a = value b

/-- Elements of the greatest key have one value. -/
def ClosesAlike (key : α → β) (value : α → γ) (l : List α) : Prop :=
  ∀ a b, Latest key l a → Latest key l b → value a = value b

theorem Earliest.perm {l l' : List α} {a : α} (first : Earliest key l a) (perm : l.Perm l') :
    Earliest key l' a :=
  ⟨perm.subset first.1, fun x inside => first.2 x (perm.symm.subset inside)⟩

theorem Latest.perm {l l' : List α} {a : α} (last : Latest key l a) (perm : l.Perm l') :
    Latest key l' a :=
  ⟨perm.subset last.1, fun x inside => last.2 x (perm.symm.subset inside)⟩

theorem Earliest.key_eq {l : List α} {a b : α} (first : Earliest key l a)
    (other : Earliest key l b) :
    key a = key b := le_antisymm (first.2 b other.1) (other.2 a first.1)

theorem Latest.key_eq {l : List α} {a b : α} (last : Latest key l a) (other : Latest key l b) :
    key a = key b := le_antisymm (other.2 a last.1) (last.2 b other.1)

theorem earliest_of_head {l : List α} {a : α} (first : (sortedBy key l).head? = some a) :
    Earliest key l a := by
  have least := (head_sortedBy key l a).mp first
  exact ⟨least.mem, fun x inside => least.le inside⟩

theorem latest_of_getLast {l : List α} {a : α} (last : (sortedBy key l).getLast? = some a) :
    Latest key l a := by
  obtain ⟨front, split⟩ := List.getLast?_eq_some_iff.mp last
  have sorted := sortedBy_pairwise key l
  rw [split, List.pairwise_append] at sorted
  have there : a ∈ sortedBy key l := List.mem_of_getLast? last
  refine ⟨mem_sortedBy.mp there, ?_⟩
  intro x inside
  have listed : x ∈ sortedBy key l := mem_sortedBy.mpr inside
  rw [split] at listed
  obtain before | here := List.mem_append.mp listed
  · exact sorted.2.2 x before a List.mem_cons_self
  · rw [List.mem_singleton.mp here]

theorem sortedBy_eq_nil {l : List α} : sortedBy key l = [] ↔ l = [] := by
  unfold sortedBy
  rw [← List.length_eq_zero_iff, List.length_insertionSort, List.length_eq_zero_iff]

variable (key) in
theorem exists_head {l : List α} (filled : l ≠ []) :
    ∃ a, (sortedBy key l).head? = some a ∧ Earliest key l a := by
  cases first : (sortedBy key l).head? with
  | none => exact absurd (sortedBy_eq_nil.mp (List.head?_eq_none_iff.mp first)) filled
  | some a => exact ⟨a, rfl, earliest_of_head first⟩

variable (key) in
theorem exists_getLast {l : List α} (filled : l ≠ []) :
    ∃ a, (sortedBy key l).getLast? = some a ∧ Latest key l a := by
  cases last : (sortedBy key l).getLast? with
  | none => exact absurd (sortedBy_eq_nil.mp (List.getLast?_eq_none_iff.mp last)) filled
  | some a => exact ⟨a, rfl, latest_of_getLast last⟩

/-- A list that begins with an element of the least key keeps it in front. -/
theorem head_sortedBy_cons {a : α} {l : List α} (least : ∀ x ∈ l, key a ≤ key x) :
    (sortedBy key (a :: l)).head? = some a := by
  unfold sortedBy
  rw [List.insertionSort_cons_of_forall_rel _ least, List.head?_cons]

theorem getLast_orderedInsert {x a : α} {l : List α} (last : l.getLast? = some a)
    (le : key x ≤ key a) :
    (l.orderedInsert (fun b c => key b ≤ key c) x).getLast? = some a := by
  induction l with
  | nil => cases last
  | cons b l ih =>
    rw [List.orderedInsert_cons]
    split
    · rw [List.getLast?_cons_cons]
      exact last
    · rename_i late
      cases l with
      | nil =>
        obtain rfl : b = a := Option.some.inj last
        exact absurd le late
      | cons c l =>
        rw [List.getLast?_cons_cons] at last
        rw [List.getLast?_cons, ih last]
        rfl

/-- A list that ends with an element of the greatest key keeps it at the end. -/
theorem getLast_sortedBy_concat {a : α} {l : List α} (greatest : ∀ x ∈ l, key x ≤ key a) :
    (sortedBy key (l ++ [a])).getLast? = some a := by
  unfold sortedBy
  induction l with
  | nil => rfl
  | cons x l ih =>
    obtain ⟨own, rest⟩ := List.forall_mem_cons.mp greatest
    rw [List.cons_append, List.insertionSort_cons]
    exact getLast_orderedInsert (ih rest) own

theorem OpensAlike.head {value : α → γ} {l l' : List α} (alike : OpensAlike key value l)
    (perm : l'.Perm l) : (sortedBy key l').head?.map value = (sortedBy key l).head?.map value := by
  by_cases filled : l = []
  · subst filled
    rw [List.perm_nil.mp perm]
  · obtain ⟨a, first, least⟩ := exists_head key filled
    obtain ⟨b, first', least'⟩ :=
      exists_head key fun empty => filled (List.nil_perm.mp (empty ▸ perm))
    rw [first, first']
    exact congrArg some (alike b a (least'.perm perm) least)

theorem ClosesAlike.getLast {value : α → γ} {l l' : List α} (alike : ClosesAlike key value l)
    (perm : l'.Perm l) :
    (sortedBy key l').getLast?.map value = (sortedBy key l).getLast?.map value := by
  by_cases filled : l = []
  · subst filled
    rw [List.perm_nil.mp perm]
  · obtain ⟨a, last, greatest⟩ := exists_getLast key filled
    obtain ⟨b, last', greatest'⟩ :=
      exists_getLast key fun empty => filled (List.nil_perm.mp (empty ▸ perm))
    rw [last, last']
    exact congrArg some (alike b a (greatest'.perm perm) greatest)

theorem closesAlike_key (l : List α) : ClosesAlike key key l :=
  fun _ _ last other => last.key_eq other

/-! A stable sort and a filter. -/

theorem orderedInsert_least {a : α} {l : List α} (least : ∀ x ∈ l, key a ≤ key x) :
    l.orderedInsert (fun a b => key a ≤ key b) a = a :: l := by
  cases l with
  | nil => rfl
  | cons b l => rw [List.orderedInsert_cons, if_pos (least b List.mem_cons_self)]

theorem filter_orderedInsert {p : α → Bool} {a : α} {l : List α}
    (sorted : l.Pairwise fun a b => key a ≤ key b) :
    (l.orderedInsert (fun a b => key a ≤ key b) a).filter p =
      if p a then (l.filter p).orderedInsert (fun a b => key a ≤ key b) a else l.filter p := by
  induction l with
  | nil =>
    rw [List.orderedInsert_nil, List.filter_cons]
    rfl
  | cons b l ih =>
    obtain ⟨first, rest⟩ := List.pairwise_cons.mp sorted
    rw [List.orderedInsert_cons]
    by_cases early : key a ≤ key b
    · have least : ∀ x ∈ (b :: l).filter p, key a ≤ key x := by
        intro x inside
        obtain rfl | later := List.mem_cons.mp (List.mem_filter.mp inside).1
        · exact early
        · exact early.trans (first x later)
      rw [if_pos early, List.filter_cons, orderedInsert_least least]
    · rw [if_neg early, List.filter_cons, ih rest]
      by_cases kept : p b
      · rw [if_pos kept, List.filter_cons_of_pos kept, List.orderedInsert_cons, if_neg early]
        exact (apply_ite (b :: ·) _ _ _)
      · rw [if_neg kept, List.filter_cons_of_neg kept]

theorem filter_sortedBy (p : α → Bool) (l : List α) :
    (sortedBy key l).filter p = sortedBy key (l.filter p) := by
  induction l with
  | nil => rfl
  | cons a l ih =>
    have inserted : sortedBy key (a :: l) =
        (sortedBy key l).orderedInsert (fun a b => key a ≤ key b) a :=
      List.insertionSort_cons _ a l
    rw [inserted, filter_orderedInsert (sortedBy_pairwise key l), ih, List.filter_cons]
    split
    · exact (List.insertionSort_cons _ a _).symm
    · rfl

theorem sortedBy_alike {d : β} {l : List α} (alike : ∀ x ∈ l, key x = d) :
    sortedBy key l = l := by
  apply List.Pairwise.insertionSort_eq
  exact List.pairwise_of_forall_mem_list fun a first b second => by
    rw [alike a first, alike b second]

/-- What a sorted list has before, at and after a key. -/
theorem sorted_split {l : List α} (d : β) (sorted : l.Pairwise fun a b => key a ≤ key b) :
    l = l.filter (key · < d) ++ (l.filter (key · = d) ++ l.filter (d < key ·)) := by
  induction l with
  | nil => rfl
  | cons a l ih =>
    obtain ⟨first, rest⟩ := List.pairwise_cons.mp sorted
    have none_before (le : d ≤ key a) : l.filter (key · < d) = [] :=
      List.filter_eq_nil_iff.mpr fun x inside => by
        rw [decide_eq_true_iff]
        exact not_lt.mpr (le.trans (first x inside))
    obtain before | same | after := lt_trichotomy (key a) d
    · have shape := congrArg (a :: ·) (ih rest)
      simpa [before, before.ne, before.not_gt] using shape
    · have shape := ih rest
      rw [none_before same.ge, List.nil_append] at shape
      have shape' := congrArg (a :: ·) shape
      simpa [same, none_before same.ge] using shape'
    · have none_at : l.filter (key · = d) = [] :=
        List.filter_eq_nil_iff.mpr fun x inside => by
          rw [decide_eq_true_iff]
          exact (after.trans_le (first x inside)).ne'
      have shape := ih rest
      rw [none_before after.le, none_at, List.nil_append, List.nil_append] at shape
      have shape' := congrArg (a :: ·) shape
      simpa [after, after.not_gt, after.ne', none_before after.le, none_at] using shape'

end Python
