import Mathlib.Data.List.Induction
import Mathlib.Data.Option.Basic
import SharpEvPicks.Python.Dict

/-! Dicts of dicts: what is read through all levels, and their equality as Python compares them. -/
namespace Python

/-- A loop of writes leaves at a place the value of the only item kept there. -/
theorem look_foldl {δ α ι ν : Type*} [DecidableEq ι] {put : δ → α → δ}
    {look : δ → ι → Option ν} {place : α → ι} {value : α → Option ν}
    (law : ∀ d x i, look (put d x) i = if place x = i then (value x).or (look d i) else look d i)
    {l : List α} {i : ι} {kept : Option α}
    (alone : (l.filter fun x => place x = i) = kept.toList) (d : δ) :
    look (l.foldl put d) i = (kept.bind value).or (look d i) := by
  induction l generalizing d kept with
  | nil =>
    cases kept with
    | none => rfl
    | some x => cases alone
  | cons x l ih =>
    rw [List.foldl_cons]
    by_cases here : place x = i
    · rw [List.filter_cons_of_pos (by simpa using here)] at alone
      cases kept with
      | none => cases alone
      | some y =>
        obtain ⟨rfl, rest⟩ := List.cons.inj alone
        have empty : (l.filter fun x => place x = i) = (none : Option α).toList := rest
        have later := ih empty (put d x)
        rw [later, Option.bind_none, Option.none_or, law, if_pos here, Option.bind_some]
    · rw [List.filter_cons_of_neg (by simpa using here)] at alone
      rw [ih alone, law, if_neg here]

/-- A loop that may raise leaves at a place what the last item with a value for it has. -/
theorem look_foldlM {σ α ν ε : Type*} {step : σ → α → Except ε σ}
    {look : σ → Option ν} {own : α → Option ν}
    (law : ∀ d x d', step d x = .ok d' → look d' = (own x).or (look d)) {l : List α}
    {d d' : σ} (ran : l.foldlM step d = .ok d') :
    look d' = ((l.filter fun x => (own x).isSome).getLast?.bind own).or (look d) := by
  induction l generalizing d with
  | nil =>
    cases ran
    rfl
  | cons x l ih =>
    rw [List.foldlM_cons] at ran
    cases first : step d x with
    | error e =>
      rw [first] at ran
      cases ran
    | ok next =>
      rw [first] at ran
      rw [ih ran, law d x next first, ← Option.or_assoc]
      congr 1
      cases here : own x with
      | none => simp [here]
      | some v =>
        rw [List.filter_cons_of_pos (by rw [here]; rfl), List.getLast?_cons]
        cases last : (l.filter fun y => (own y).isSome).getLast? with
        | none => simp [here]
        | some y =>
          obtain ⟨w, found⟩ :=
            Option.isSome_iff_exists.mp (List.mem_filter.mp (List.mem_of_getLast? last)).2
          simp [found]

/-- A loop that updates one key a step leaves there what the items of that key make of it. -/
theorem Dict.get?_foldl_own {κ α ν : Type*} [DecidableEq κ]
    {step : Dict κ ν → α → Dict κ ν} {key : α → κ}
    {update : Option ν → α → Option ν} {k : κ}
    (law : ∀ d x, (step d x).get? k = if key x = k then update (d.get? k) x else d.get? k)
    (l : List α) (d : Dict κ ν) :
    (l.foldl step d).get? k = (l.filter fun x => key x = k).foldl update (d.get? k) := by
  induction l generalizing d with
  | nil => rfl
  | cons x l ih =>
    rw [List.foldl_cons, ih, law]
    by_cases own : key x = k
    · rw [if_pos own, List.filter_cons_of_pos (by simpa using own), List.foldl_cons]
    · rw [if_neg own, List.filter_cons_of_neg (by simpa using own)]

/-- Where a key first occurs. -/
def firstAt {κ : Type*} [DecidableEq κ] (l : List κ) (k : κ) : Nat := l.idxOf k

namespace Dict
variable {κ ν ι μ : Type*} [DecidableEq κ]

/-- `d == d'`, where `R` compares the values. -/
def Eqv (R : ν → ν → Prop) (d d' : Dict κ ν) : Prop :=
  ∀ k, Option.Rel R (d.get? k) (d'.get? k)

/-- `{key(x): f(key(x)) for x in l}`. -/
theorem get?_comprehension {α : Type*} (key : α → κ) (f : κ → ν) (l : List α) (k : κ) :
    (ofList (l.map fun x => (key x, f (key x)))).get? k = if k ∈ l.map key then some (f k)
      else none := by
  have run (d : Dict κ ν) :
      ((l.map fun x => (key x, f (key x))).foldl (fun d e => d.set e.1 e.2) d).get? k =
      if k ∈ l.map key then some (f k) else d.get? k := by
    induction l generalizing d with
    | nil => simp
    | cons x l ih =>
      rw [List.map_cons, List.foldl_cons, ih, get?_set]
      by_cases here : k = key x <;> simp [here]
  exact run empty

theorem keys_set (d : Dict κ ν) (k : κ) (v : ν) :
    (d.set k v).keys = if k ∈ d.keys then d.keys else d.keys ++ [k] := by
  have inserted (l : List (κ × ν)) :
      (insert l k v).map Prod.fst = if k ∈ l.map Prod.fst then l.map Prod.fst
        else l.map Prod.fst ++ [k] := by
    induction l with
    | nil => rfl
    | cons e l ih =>
      obtain ⟨k', w⟩ := e
      rw [insert]
      by_cases here : k' = k
      · simp [here]
      · rw [if_neg here, List.map_cons, ih]
        by_cases later : k ∈ l.map Prod.fst <;> simp [Ne.symm here, later]
  exact inserted d.entries

/-- A dict keeps its keys in the order in which they first came up. -/
theorem keys_foldl_modify_pairwise {α : Type*} (key : α → κ) (step : Option ν → α → ν)
    (l : List α) :
    (l.foldl (fun d x => d.modify (key x) fun v => step v x) empty).keys.Pairwise fun k k' =>
      firstAt (l.map key) k < firstAt (l.map key) k' := by
  induction l using List.reverseRecOn with
  | nil => exact .nil
  | append_singleton l x ih =>
    have listed {k : κ}
        (inside : k ∈ (l.foldl (fun d x => d.modify (key x) fun v => step v x) empty).keys) :
        k ∈ l.map key := by
      obtain absurd | ⟨y, found, rfl⟩ := (mem_keys_foldl_modify key step l empty k).mp inside
      · cases absurd
      · exact List.mem_map_of_mem found
    have old : (l.foldl (fun d x => d.modify (key x) fun v => step v x) empty).keys.Pairwise
        fun k k' =>
        firstAt ((l ++ [x]).map key) k < firstAt ((l ++ [x]).map key) k' := by
      refine ih.imp_of_mem fun {k k'} first second less => ?_
      simp only [firstAt, List.map_append] at less ⊢
      rwa [List.idxOf_append_of_mem (listed first), List.idxOf_append_of_mem (listed second)]
    rw [List.foldl_concat, modify, keys_set]
    split
    · exact old
    · rename_i fresh
      have unseen : key x ∉ l.map key := by
        intro seen
        obtain ⟨y, found, same⟩ := List.mem_map.mp seen
        exact fresh ((mem_keys_foldl_modify key step l empty (key x)).mpr
          (.inr ⟨y, found, same⟩))
      refine List.pairwise_append.mpr ⟨old, List.pairwise_singleton _ _,
        fun k first k' last => ?_⟩
      rw [List.mem_singleton.mp last]
      simp only [firstAt, List.map_append]
      rw [List.idxOf_append_of_mem (listed first), List.idxOf_append_of_notMem unseen]
      exact Nat.lt_of_lt_of_le (List.idxOf_lt_length_of_mem (listed first)) (Nat.le_add_right _ _)

theorem eqv_of_get? {d d' : Dict κ ν} (same : ∀ k, d.get? k = d'.get? k) : d.Eqv Eq d' := by
  intro k
  rw [same]
  cases d'.get? k with
  | none => exact .none
  | some v => exact .some rfl

/-- A dict of containers, none of them empty, is known from what is read through it. -/
theorem eqv_of_look {R : ν → ν → Prop} {look : ν → ι → Option μ} {d d' : Dict κ ν}
    (filled : ∀ k v, d.get? k = some v → ∃ i, (look v i).isSome)
    (filled' : ∀ k v, d'.get? k = some v → ∃ i, (look v i).isSome)
    (alike : ∀ k i, (d.get? k).bind (look · i) = (d'.get? k).bind (look · i))
    (rel : ∀ k v v', d.get? k = some v → d'.get? k = some v' →
      (∀ i, look v i = look v' i) → R v v') :
    d.Eqv R d' := by
  intro k
  have same := alike k
  cases found : d.get? k with
  | none =>
    cases found' : d'.get? k with
    | none => exact .none
    | some v' =>
      obtain ⟨i, there⟩ := filled' k v' found'
      have := same i
      rw [found, found', Option.bind_none, Option.bind_some] at this
      rw [← this] at there
      cases there
  | some v =>
    cases found' : d'.get? k with
    | none =>
      obtain ⟨i, there⟩ := filled k v found
      have := same i
      rw [found, found', Option.bind_none, Option.bind_some] at this
      rw [this] at there
      cases there
    | some v' =>
      refine .some (rel k v v' found found' fun i => ?_)
      simpa [found, found'] using same i

end Dict
end Python
