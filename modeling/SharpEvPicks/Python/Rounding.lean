import Mathlib.Algebra.Order.Field.Rat
import Mathlib.Data.Rat.Floor
import Mathlib.Tactic.Linarith
import Mathlib.Tactic.NormNum
import Mathlib.Tactic.Positivity

/-! Rounding to decimal places. `round` and `Decimal.quantize` round half to even;
`ROUND_HALF_UP` and a numeric column round half away from zero. -/
namespace Python

/-- The integer nearest to `q`, the even one of two. -/
def roundHalfEven (q : ℚ) : Int :=
  let rest := q - ⌊q⌋
  if rest < 1 / 2 then ⌊q⌋
  else if 1 / 2 < rest then ⌊q⌋ + 1
  else if ⌊q⌋ % 2 = 0 then ⌊q⌋ else ⌊q⌋ + 1

def roundTo (digits : Nat) (q : ℚ) : ℚ := roundHalfEven (q * 10 ^ digits) / 10 ^ digits

/-- The integer nearest to `q`, of two the one away from zero. -/
def roundHalfUp (q : ℚ) : Int := if 0 ≤ q then ⌊q + 1 / 2⌋ else -⌊-q + 1 / 2⌋

def quantizeHalfUp (digits : Nat) (q : ℚ) : ℚ := roundHalfUp (q * 10 ^ digits) / 10 ^ digits

theorem roundHalfEven_intCast (n : Int) : roundHalfEven n = n := by
  simp [roundHalfEven]

theorem roundHalfEven_half (n : Int) : roundHalfEven (n + 1 / 2) = if n % 2 = 0 then n
    else n + 1 := by
  have floor : ⌊(n : ℚ) + 1 / 2⌋ = n := by
    rw [Int.floor_eq_iff]
    constructor <;> linarith
  have rest : (n : ℚ) + 1 / 2 - n = 1 / 2 := by ring
  simp only [roundHalfEven, floor, rest, lt_irrefl, if_false]

theorem roundHalfUp_intCast (n : Int) : roundHalfUp n = n := by
  have half (m : Int) : ⌊(m : ℚ) + 1 / 2⌋ = m := by
    rw [Int.floor_intCast_add]
    norm_num
  unfold roundHalfUp
  split
  · exact half n
  · have negated := half (-n)
    push_cast at negated
    rw [negated, neg_neg]

theorem roundHalfUp_nonneg {q : ℚ} (h : 0 ≤ q) : 0 ≤ roundHalfUp q := by
  unfold roundHalfUp
  rw [if_pos h]
  exact Int.floor_nonneg.mpr (by linarith)

theorem quantizeHalfUp_nonneg {digits : Nat} {q : ℚ} (h : 0 ≤ q) :
    0 ≤ quantizeHalfUp digits q := by
  have scaled : 0 ≤ roundHalfUp (q * 10 ^ digits) := roundHalfUp_nonneg (by positivity)
  exact div_nonneg (Int.cast_nonneg scaled) (by positivity)

theorem quantizeHalfUp_quantizeHalfUp (digits : Nat) (q : ℚ) :
    quantizeHalfUp digits (quantizeHalfUp digits q) = quantizeHalfUp digits q := by
  have whole : quantizeHalfUp digits q * 10 ^ digits = roundHalfUp (q * 10 ^ digits) :=
    div_mul_cancel₀ _ (by positivity)
  change (roundHalfUp (quantizeHalfUp digits q * 10 ^ digits) : ℚ) / 10 ^ digits = _
  rw [whole, roundHalfUp_intCast]
  rfl

end Python
