import Mathlib.Algebra.Order.Field.Rat
import Mathlib.Tactic.Linarith
import SharpEvPicks.Python.Dict
import SharpEvPicks.Python.Str

/-! Book names and prices net of commission, `app/edge/value.py`. -/
namespace SharpEvPicks.Edge

open Python

/-- `SHARP_BOOKS`, in priority order. -/
def sharpBooks : List Str :=
  ["pinnacle", "pinnacle sports", "betfair exchange", "smarkets"].map String.toList

/-- Net commission on winnings by normalized book name. -/
abbrev Commissions := Dict Str ℚ

def exchangeCommission : Commissions :=
  ⟨[("betfair exchange".toList, 5 / 100), ("betfair".toList, 5 / 100),
    ("smarkets".toList, 2 / 100), ("matchbook".toList, 2 / 100)], by decide⟩

variable [Unicode]

def norm (s : Str) : Str := Unicode.lower (strip s)

def effectiveOdds (commissions : Commissions) (book : Str) (odds : ℚ) : ℚ :=
  let c := (commissions.get? (norm book)).getD 0
  1 + (odds - 1) * (1 - c)

theorem commission_lt_one (book : Str) : (exchangeCommission.get? (norm book)).getD 0 < 1 := by
  cases found : exchangeCommission.get? (norm book) with
  | none => norm_num
  | some c =>
    have listed := Dict.get?_eq_some_iff.mp found
    have small : ∀ e ∈ exchangeCommission.entries, e.2 < 1 := by decide +kernel
    exact small _ listed

theorem commission_nonneg (book : Str) : 0 ≤ (exchangeCommission.get? (norm book)).getD 0 := by
  cases found : exchangeCommission.get? (norm book) with
  | none => exact le_rfl
  | some c =>
    have listed := Dict.get?_eq_some_iff.mp found
    have positive : ∀ e ∈ exchangeCommission.entries, 0 ≤ e.2 := by decide +kernel
    exact positive _ listed

theorem one_lt_effectiveOdds (book : Str) {odds : ℚ} (gt : 1 < odds) :
    1 < effectiveOdds exchangeCommission book odds := by
  have part := commission_lt_one book
  have gain : 0 < (odds - 1) * (1 - (exchangeCommission.get? (norm book)).getD 0) :=
    mul_pos (sub_pos.mpr gt) (sub_pos.mpr part)
  unfold effectiveOdds
  linarith

theorem one_le_effectiveOdds (book : Str) {odds : ℚ} (ge : 1 ≤ odds) :
    1 ≤ effectiveOdds exchangeCommission book odds := by
  have part := commission_lt_one book
  have gain : 0 ≤ (odds - 1) * (1 - (exchangeCommission.get? (norm book)).getD 0) :=
    mul_nonneg (sub_nonneg.mpr ge) (sub_nonneg.mpr part.le)
  unfold effectiveOdds
  linarith

theorem effectiveOdds_le (book : Str) {odds : ℚ} (ge : 1 ≤ odds) :
    effectiveOdds exchangeCommission book odds ≤ odds := by
  have cost : 0 ≤ (odds - 1) * (exchangeCommission.get? (norm book)).getD 0 :=
    mul_nonneg (sub_nonneg.mpr ge) (commission_nonneg book)
  unfold effectiveOdds
  linarith

def overround (odds : List ℚ) : ℚ := (odds.map fun o => 1 / o).sum - 1

end SharpEvPicks.Edge
