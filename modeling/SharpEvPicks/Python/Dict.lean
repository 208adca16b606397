import Mathlib.Algebra.BigOperators.Group.List.Basic
import Mathlib.Algebra.GroupWithZero.Nat
import Mathlib.Data.List.Nodup

/-! Python's `dict`: entries in order of first insertion, keys without repetition. -/
namespace Python

structure Dict (κ ν : Type*) where
  entries : List (κ × ν)
  nodup : (entries.map Prod.fst).Nodup

namespace Dict
variable {κ ν μ : Type*}

def empty : Dict κ ν := ⟨[], List.nodup_nil⟩

def keys (d : Dict κ ν) : List κ := d.entries.map Prod.fst

def values (d : Dict κ ν) : List ν := d.entries.map Prod.snd

/-- A dict comprehension over the entries of another one. -/
def mapValues (d : Dict κ ν) (f : κ → ν → μ) : Dict κ μ :=
  ⟨d.entries.map fun e => (e.1, f e.1 e.2), by
    rw [List.map_map]
    exact d.nodup⟩

def filter (d : Dict κ ν) (p : κ → ν → Bool) : Dict κ ν :=
  ⟨d.entries.filter fun e => p e.1 e.2, (d.entries.filter_sublist.map _).nodup d.nodup⟩

theorem filterMap_keys (l : List (κ × ν)) (f : ν → Option μ) :
    ((l.filterMap fun e => (f e.2).map fun v => (e.1, v)).map Prod.fst).Sublist
    (l.map Prod.fst) := by
  induction l with
  | nil => exact .refl _
  | cons e rest ih =>
    cases value : f e.2 with
    | none => simpa [value] using ih.cons e.1
    | some v => simpa [value] using ih.cons_cons e.1

/-- A dict comprehension over the entries for which there is a value. -/
def filterMap (d : Dict κ ν) (f : ν → Option μ) : Dict κ μ :=
  ⟨d.entries.filterMap fun e => (f e.2).map fun v => (e.1, v),
    (filterMap_keys d.entries f).nodup d.nodup⟩

/-- Without the entries that were inserted first. -/
def drop (d : Dict κ ν) (n : Nat) : Dict κ ν :=
  ⟨d.entries.drop n, ((d.entries.drop_sublist n).map _).nodup d.nodup⟩

variable [DecidableEq κ]

def find : List (κ × ν) → κ → Option ν
  | [], _ => none
  | (k', v) :: rest, k => if k' = k then some v else find rest k

def insert : List (κ × ν) → κ → ν → List (κ × ν)
  | [], k, v => [(k, v)]
  | (k', v') :: rest, k, v => if k' = k then (k', v) :: rest else (k', v') :: insert rest k v

theorem mem_keys_insert {l : List (κ × ν)} {k k' : κ} {v : ν} :
    k' ∈ (insert l k v).map Prod.fst ↔ k' = k ∨ k' ∈ l.map Prod.fst := by
  induction l with
  | nil => simp [insert]
  | cons e rest ih =>
    by_cases hit : e.1 = k
    · simp only [insert, if_pos hit, List.map_cons, List.mem_cons]
      constructor
      · exact Or.inr
      · rintro (rfl | h)
        · exact Or.inl hit.symm
        · exact h
    · simp only [insert, if_neg hit, List.map_cons, List.mem_cons, ih]
      tauto

theorem insert_nodup {l : List (κ × ν)} (h : (l.map Prod.fst).Nodup) (k : κ) (v : ν) :
    ((insert l k v).map Prod.fst).Nodup := by
  induction l with
  | nil => simp [insert]
  | cons e rest ih =>
    obtain ⟨fresh, tail⟩ := List.nodup_cons.mp h
    by_cases hit : e.1 = k
    · simp only [insert, if_pos hit]
      exact h
    · simp only [insert, if_neg hit, List.map_cons]
      refine List.nodup_cons.mpr ⟨?_, ih tail⟩
      rw [mem_keys_insert]
      rintro (same | old)
      · exact hit same
      · exact fresh old

/-- `d.get(k)`. -/
def get? (d : Dict κ ν) (k : κ) : Option ν := find d.entries k

/-- `d[k] = v`: an existing key keeps its place. -/
def set (d : Dict κ ν) (k : κ) (v : ν) : Dict κ ν :=
  ⟨insert d.entries k v, insert_nodup d.nodup k v⟩

/-- `dict(pairs)`. -/
def ofList (l : List (κ × ν)) : Dict κ ν := l.foldl (fun d e => d.set e.1 e.2) empty

/-- `d.pop(k, None)`. -/
def pop (d : Dict κ ν) (k : κ) : Dict κ ν := d.filter fun k' _ => k' ≠ k

/-- `d[k] = f(d.get(k))`, the shape of `setdefault` followed by an update. -/
def modify (d : Dict κ ν) (k : κ) (f : Option ν → ν) : Dict κ ν := d.set k (f (d.get? k))

@[simp] theorem get?_empty (k : κ) : (empty : Dict κ ν).get? k = none := rfl

theorem find_insert_self (l : List (κ × ν)) (k : κ) (v : ν) :
    find (insert l k v) k = some v := by
  induction l with
  | nil => simp [insert, find]
  | cons e rest ih =>
    by_cases hit : e.1 = k
    · simp [insert, find, hit]
    · simp [insert, find, hit, ih]

theorem find_insert_ne (l : List (κ × ν)) {k k' : κ} (ne : k' ≠ k) (v : ν) :
    find (insert l k v) k' = find l k' := by
  induction l with
  | nil => simp [insert, find, ne.symm]
  | cons e rest ih =>
    by_cases hit : e.1 = k
    · have miss : e.1 ≠ k' := fun h => ne (h.symm.trans hit)
      simp [insert, find, if_pos hit, miss]
    · simp [insert, find, hit, ih]

@[simp] theorem get?_set_self (d : Dict κ ν) (k : κ) (v : ν) : (d.set k v).get? k = some v :=
  find_insert_self _ _ _

theorem get?_set_ne (d : Dict κ ν) {k k' : κ} (ne : k' ≠ k) (v : ν) :
    (d.set k v).get? k' = d.get? k' := find_insert_ne _ ne _

theorem get?_set (d : Dict κ ν) (k k' : κ) (v : ν) :
    (d.set k v).get? k' = if k' = k then some v else d.get? k' := by
  split
  · rename_i same
    rw [same, get?_set_self]
  · rename_i ne
    exact get?_set_ne d ne v

theorem get?_modify (d : Dict κ ν) (k k' : κ) (f : Option ν → ν) :
    (d.modify k f).get? k' = if k' = k then some (f (d.get? k)) else d.get? k' :=
  get?_set d k k' _

theorem find_eq_some_iff {l : List (κ × ν)} (nodup : (l.map Prod.fst).Nodup) {k : κ} {v : ν} :
    find l k = some v ↔ (k, v) ∈ l := by
  induction l with
  | nil => simp [find]
  | cons e rest ih =>
    obtain ⟨fresh, tail⟩ := List.nodup_cons.mp nodup
    obtain ⟨k', v'⟩ := e
    by_cases hit : k' = k
    · subst hit
      have other : (k', v) ∉ rest := fun inside =>
        fresh (List.mem_map.mpr ⟨_, inside, rfl⟩)
      simp [find, other, eq_comm]
    · simp [find, hit, ih tail, Ne.symm hit]

theorem get?_eq_some_iff {d : Dict κ ν} {k : κ} {v : ν} :
    d.get? k = some v ↔ (k, v) ∈ d.entries := find_eq_some_iff d.nodup

theorem mem_values {d : Dict κ ν} {v : ν} : v ∈ d.values ↔ ∃ k, d.get? k = some v := by
  simp only [values, List.mem_map, Prod.exists, exists_eq_right, get?_eq_some_iff]

theorem mem_of_get?_foldl_set {l : List (κ × ν)} {d : Dict κ ν} {k : κ} {v : ν}
    (found : (l.foldl (fun d e => d.set e.1 e.2) d).get? k = some v) :
      (k, v) ∈ l ∨ d.get? k = some v := by
  induction l generalizing d with
  | nil => exact .inr found
  | cons e l ih =>
    obtain later | now := ih found
    · exact .inl (List.mem_cons_of_mem e later)
    rw [get?_set] at now
    split at now
    · rename_i same
      cases now
      exact .inl (same ▸ List.mem_cons_self)
    · exact .inr now

theorem mem_of_get?_ofList {l : List (κ × ν)} {k : κ} {v : ν}
    (found : (ofList l).get? k = some v) : (k, v) ∈ l :=
  (mem_of_get?_foldl_set found).resolve_right nofun

theorem mem_keys_iff {d : Dict κ ν} {k : κ} : k ∈ d.keys ↔ (d.get? k).isSome := by
  rw [Option.isSome_iff_exists]
  constructor
  · intro inside
    obtain ⟨⟨k, v⟩, listed, rfl⟩ := List.mem_map.mp inside
    exact ⟨v, get?_eq_some_iff.mpr listed⟩
  · rintro ⟨v, found⟩
    exact List.mem_map.mpr ⟨_, get?_eq_some_iff.mp found, rfl⟩

theorem get?_filter (d : Dict κ ν) (p : κ → ν → Bool) (k : κ) :
    (d.filter p).get? k = (d.get? k).filter (p k) := by
  apply Option.ext
  intro v
  rw [get?_eq_some_iff, Option.filter_eq_some_iff, get?_eq_some_iff]
  exact List.mem_filter

theorem get?_mapValues (d : Dict κ ν) (f : κ → ν → μ) (k : κ) :
    (d.mapValues f).get? k = (d.get? k).map (f k) := by
  apply Option.ext
  intro v
  rw [get?_eq_some_iff, Option.map_eq_some_iff]
  simp only [mapValues, List.mem_map, Prod.mk.injEq, get?_eq_some_iff]
  constructor
  · rintro ⟨⟨k', v'⟩, inside, rfl, rfl⟩
    exact ⟨v', inside, rfl⟩
  · rintro ⟨v', inside, rfl⟩
    exact ⟨(k, v'), inside, rfl, rfl⟩

theorem get?_pop (d : Dict κ ν) (k k' : κ) : (d.pop k).get? k' = if k' = k then none
    else d.get? k' := by
  rw [pop, get?_filter]
  by_cases here : k' = k
  · cases d.get? k' <;> simp [Option.filter, here]
  · cases d.get? k' <;> simp [Option.filter, here]

theorem get?_drop {d : Dict κ ν} {n : Nat} {k : κ} {v : ν} (kept : (d.drop n).get? k = some v) :
    d.get? k = some v :=
  get?_eq_some_iff.mpr (List.mem_of_mem_drop (get?_eq_some_iff.mp kept))

theorem get?_filterMap (d : Dict κ ν) (f : ν → Option μ) (k : κ) :
    (d.filterMap f).get? k = (d.get? k).bind f := by
  apply Option.ext
  intro v
  simp only [Option.bind_eq_some_iff, get?_eq_some_iff]
  simp [filterMap]

/-- A loop that updates one entry a pass leaves at each key what the passes for that key make. -/
theorem get?_foldl_modify {α : Type*} (key : α → κ) (step : Option ν → α → ν)
    (l : List α) (d : Dict κ ν) (k : κ) :
    (l.foldl (fun d x => d.modify (key x) fun v => step v x) d).get? k =
      (l.filter fun x => key x = k).foldl (fun v x => some (step v x)) (d.get? k) := by
  induction l generalizing d with
  | nil => rfl
  | cons x l ih =>
    rw [List.foldl_cons, ih, get?_modify]
    by_cases here : key x = k
    · simp [here]
    · simp [here, Ne.symm here]

theorem getD_foldl_append {α : Type*} (f : α → μ) (l : List α) (v : Option (List μ)) :
    (l.foldl (fun v x => some (v.getD [] ++ [f x])) v).getD [] = v.getD [] ++ l.map f := by
  induction l generalizing v with
  | nil => simp
  | cons x l ih => rw [List.foldl_cons, ih, Option.getD_some, List.append_assoc, List.map_cons,
      List.singleton_append]

/-- `d.setdefault(key, []).append(value)` over a list groups the values by their keys. -/
theorem getD_get?_foldl_append {α : Type*} (key : α → κ) (f : α → μ) (l : List α)
    (k : κ) :
    ((l.foldl (fun d x => d.modify (key x) fun same => same.getD [] ++ [f x]) empty).get? k).getD
    [] = (l.filter fun x => key x = k).map f := by
  rw [get?_foldl_modify key (fun same x => same.getD [] ++ [f x]), get?_empty, getD_foldl_append]
  rfl

theorem mem_keys_foldl_modify {α : Type*} (key : α → κ) (step : Option ν → α → ν)
    (l : List α) (d : Dict κ ν) (k : κ) :
    k ∈ (l.foldl (fun d x => d.modify (key x) fun v => step v x) d).keys ↔
      k ∈ d.keys ∨ ∃ x ∈ l, key x = k := by
  induction l generalizing d with
  | nil => simp
  | cons x l ih =>
    have first : k ∈ (d.modify (key x) fun v => step v x).keys ↔ k = key x ∨ k ∈ d.keys :=
      mem_keys_insert
    rw [List.foldl_cons, ih, first, List.exists_mem_cons_iff, eq_comm (a := k)]
    tauto

theorem sum_countP_keys {α : Type*} (key : α → κ) {keys : List κ} (nodup : keys.Nodup)
    {l : List α} (covered : ∀ x ∈ l, key x ∈ keys) :
    (keys.map fun k => l.countP fun x => key x = k).sum = l.length := by
  induction l with
  | nil => simp
  | cons x l ih =>
    obtain ⟨inside, rest⟩ := List.forall_mem_cons.mp covered
    have own : (keys.map fun k => if key x = k then 1 else 0).sum = 1 := by
      rw [List.sum_map_eq_nsmul_single (key x) _ fun k other _ => if_neg (Ne.symm other)]
      simp [List.count_eq_one_of_mem nodup inside]
    simp only [List.countP_cons, decide_eq_true_eq, List.sum_map_add, ih rest, own,
      List.length_cons]

end Dict
end Python
