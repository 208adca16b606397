import Mathlib.Algebra.BigOperators.Group.List.Basic
import Mathlib.Algebra.BigOperators.Intervals
import Mathlib.Data.List.Basic

/-! Sums of the weights of a list by the cell of each item. -/
namespace SharpEvPicks.Tally

variable {α M : Type*} [AddCommMonoid M] (cell : α → Nat) (weight : α → M)

def accumulate (cells : List M) (items : List α) : List M :=
  items.foldl (fun cells x => cells.modify (cell x) (· + weight x)) cells

/-- What the items of one cell weigh. -/
def weighed (items : List α) (i : Nat) : M := ((items.filter fun x => cell x = i).map weight).sum

@[simp] theorem weighed_nil (i : Nat) : weighed cell weight [] i = 0 := rfl

theorem weighed_cons (x : α) (items : List α) (i : Nat) :
    weighed cell weight
      (x :: items) i = (if cell x = i then weight x else 0) + weighed cell weight items i := by
  by_cases own : cell x = i
  · simp [weighed, own]
  · simp [weighed, own]

theorem accumulate_get? (cells : List M) (items : List α) (i : Nat) :
    (accumulate cell weight cells items)[i]? = cells[i]?.map
    (· + weighed cell weight items i) := by
  induction items generalizing cells with
  | nil => simp [accumulate]
  | cons x items ih =>
    have step : accumulate cell weight cells (x :: items) =
        accumulate cell weight (cells.modify (cell x) (· + weight x)) items := rfl
    rw [step, ih, List.getElem?_modify, Option.map_eq_map, Option.map_map, weighed_cons]
    refine Option.map_congr fun m _ => ?_
    by_cases own : cell x = i
    · simp [own, add_assoc]
    · simp [own]

theorem getD_accumulate (size : Nat) (items : List α) {i : Nat} (inside : i < size) :
    (accumulate cell weight (List.replicate size 0) items).getD i 0 =
      weighed cell weight items i := by
  rw [List.getD_eq_getElem?_getD, accumulate_get?, List.getElem?_replicate_of_lt inside]
  exact zero_add _

/-- The cells together weigh as much as the items. -/
theorem sum_weighed {size : Nat} {items : List α} (inside : ∀ x ∈ items, cell x < size) :
    ∑ i ∈ Finset.range size, weighed cell weight items i = (items.map weight).sum := by
  induction items with
  | nil => simp
  | cons x items ih =>
    have own := inside x List.mem_cons_self
    simp only [weighed_cons, Finset.sum_add_distrib, Finset.sum_ite_eq, Finset.mem_range, own,
      if_true, List.map_cons, List.sum_cons]
    rw [ih fun y later => inside y (List.mem_cons_of_mem _ later)]

theorem weighed_one (items : List α) (i : Nat) :
    weighed cell (fun _ => 1) items i = items.countP fun x => cell x = i := by
  rw [weighed, List.map_const', List.sum_replicate, List.countP_eq_length_filter]
  exact Nat.mul_one _

end SharpEvPicks.Tally
