import Mathlib.Tactic.IntervalCases
import SharpEvPicks.Python.Format

/-! Numbers printed by `format(x, "g")` and read back by `\d+(?:\.\d+)?` and `float`. -/
namespace Python

/-- `format(x, "g")` needs no exponent. -/
def Plain (x : ℚ) : Prop := x = 0 ∨ -4 ≤ (sixDigits x).1 ∧ (sixDigits x).1 < 6

/-- The number to its six first digits. -/
def sixDigitValue (x : ℚ) : ℚ :=
  if x = 0 then 0 else (sixDigits x).2 * (10 : ℚ) ^ ((sixDigits x).1 - 5)

variable {digits : Nat} {x : ℚ}

/-! What is printed. -/

theorem NumberChar.solid {c : Char} (part : NumberChar c) : isSpace c = false := by
  obtain digit | ⟨n, rfl⟩ | mark := part
  · simp only [Char.isDigit, Bool.and_eq_true, decide_eq_true_eq, UInt32.le_iff_toNat_le] at digit
    have high : c.toNat ≤ 57 := digit.2
    have low : 48 ≤ c.toNat := digit.1
    simp [isSpace]
    omega
  · exact @digitChar_cases (isSpace · = false) (by decide) (by decide) n
  · exact (by decide : ∀ c ∈ ['.', 'e', '+', '-'], isSpace c = false) c mark

theorem natText_ne_nil (n : Nat) : natText n ≠ [] := Nat.toDigits_ne_nil

theorem fixedText_ne_nil (digits : Nat) (x : ℚ) : fixedText digits x ≠ [] := by
  unfold fixedText withPoint
  split
  · exact natText_ne_nil _
  · exact List.append_ne_nil_of_left_ne_nil (natText_ne_nil _) _

theorem formatG_ne_nil (x : ℚ) : formatG x ≠ [] := by
  unfold formatG
  split
  · simp
  · dsimp only
    split
    · exact fixedText_ne_nil _ _
    · simp

/-! The digits of a fraction. -/

theorem floor_digit (low : 0 ≤ x) (high : x < 1) :
    ⌊10 * x⌋.toNat < 10 ∧ (⌊10 * x⌋.toNat : ℚ) = ⌊10 * x⌋ := by
  have floor : 0 ≤ ⌊10 * x⌋ := Int.floor_nonneg.mpr (by linarith)
  have below : ⌊10 * x⌋ < 10 := Int.floor_lt.mpr (by push_cast; linarith)
  refine ⟨by omega, ?_⟩
  exact_mod_cast Int.toNat_of_nonneg floor

theorem fract_digit (x : ℚ) : 0 ≤ 10 * x - ⌊10 * x⌋ ∧ 10 * x - ⌊10 * x⌋ < 1 :=
  ⟨Int.fract_nonneg (10 * x), Int.fract_lt_one (10 * x)⟩

theorem fractionText_digits (low : 0 ≤ x) (high : x < 1) :
    ∀ c ∈ fractionText digits x, c.isDigit := by
  induction digits generalizing x with
  | zero => simp [fractionText]
  | succ digits ih =>
    rw [fractionText]
    split
    · simp
    · refine List.forall_mem_cons.mpr ⟨?_, ih (fract_digit x).1 (fract_digit x).2⟩
      rw [Nat.isDigit_digitChar]
      exact decide_eq_true (floor_digit low high).1

/-! Reading. -/

variable [Unicode]

theorem decimal_digit {c : Char} (digit : c.isDigit) : Unicode.decimal c = some (c.toNat - 48) := by
  rw [Unicode.decimal_ascii c (Clean.digit digit).ascii, if_pos digit]

theorem decimal_digitChar {n : Nat} (small : n < 10) :
    Unicode.decimal (Nat.digitChar n) = some n := by
  interval_cases n <;> exact decimal_digit rfl

theorem decimalsValue_cons (c : Char) (s : Str) :
    decimalsValue (c :: s) = (Unicode.decimal c).getD 0 * 10 ^ s.length + decimalsValue s := by
  have shifted (s : Str) (n : Nat) : s.foldl (fun n c => 10 * n + (Unicode.decimal c).getD 0) n =
      n * 10 ^ s.length + s.foldl (fun n c => 10 * n + (Unicode.decimal c).getD 0) 0 := by
    induction s generalizing n with
    | nil => simp
    | cons c s ih =>
      rw [List.foldl_cons, List.foldl_cons, ih, ih (10 * 0 + _), List.length_cons, pow_succ]
      ring
  unfold decimalsValue
  rw [List.foldl_cons, shifted, Nat.mul_zero, Nat.zero_add]

theorem decimalsValue_append (s t : Str) :
    decimalsValue (s ++ t) = decimalsValue s * 10 ^ t.length + decimalsValue t := by
  induction s with
  | nil =>
    rw [List.nil_append, show decimalsValue ([] : Str) = 0 from rfl, Nat.zero_mul, Nat.zero_add]
  | cons c s ih =>
    rw [List.cons_append, decimalsValue_cons, ih, decimalsValue_cons, List.length_append, pow_add]
    ring

theorem decimalsValue_natText (n : Nat) : decimalsValue (natText n) = n := by
  induction n using Nat.strong_induction_on with
  | _ n ih =>
    by_cases small : n < 10
    · unfold natText
      rw [Nat.toDigits_of_lt_base small, decimalsValue_cons, decimal_digitChar small]
      simp [decimalsValue]
    · have split : natText n = natText (n / 10) ++ [Nat.digitChar (n % 10)] := by
        unfold natText
        exact Nat.toDigits_of_base_le (by omega) (by omega)
      rw [split, decimalsValue_append, ih (n / 10) (by omega), decimalsValue_cons,
        decimal_digitChar (Nat.mod_lt n (by omega))]
      simp [decimalsValue]
      omega

theorem isDecimals_digits {s : Str} (some : s ≠ []) (digits : ∀ c ∈ s, c.isDigit) :
    isDecimals s := by
  simp only [isDecimals, Bool.and_eq_true, List.all_eq_true]
  exact ⟨by simpa using some, fun c inside => by rw [decimal_digit (digits c inside)]; rfl⟩

theorem floatValue_unsigned {s : Str} (number : isUnsigned s) : floatValue s = unsignedValue s := by
  have sign {c : Char} (inside : c ∈ s) : c ≠ '-' ∧ c ≠ '+' := by
    obtain rfl | digit := isUnsigned_mem number inside
    · decide
    · constructor <;> rintro rfl <;> rw [Unicode.decimal_ascii _ (by decide)] at digit <;>
        cases digit
  unfold floatValue
  split
  · exact absurd rfl (sign (.head _)).1
  · exact absurd rfl (sign (.head _)).2
  · rfl

theorem not_isUnsigned_minus (s : Str) : isUnsigned ('-' :: s) = false := by
  by_contra number
  obtain point | digit := isUnsigned_mem (Bool.eq_true_of_not_eq_false number) (.head s)
  · cases point
  · rw [Unicode.decimal_ascii _ (by decide)] at digit
    cases digit

/-! A whole part and a fraction. -/

theorem unsigned_withPoint {whole fraction : Str} (some : whole ≠ [])
    (digits : ∀ c ∈ whole, c.isDigit) (digits' : ∀ c ∈ fraction, c.isDigit) :
    isUnsigned (withPoint whole fraction) = true ∧
      unsignedValue (withPoint whole fraction) =
        decimalsValue whole + decimalsValue fraction / 10 ^ fraction.length := by
  have clear : ∀ c ∈ whole, (c ≠ '.' : Bool) = true := by
    intro c inside
    refine decide_eq_true ?_
    rintro rfl
    cases digits '.' inside
  unfold withPoint
  by_cases none : fraction = []
  · have through : whole.dropWhile (· ≠ '.') = [] := List.dropWhile_eq_nil_iff.mpr clear
    rw [if_pos none, isUnsigned, unsignedValue, through, none]
    exact ⟨isDecimals_digits some digits, by simp [decimalsValue]⟩
  · have stops : (whole ++ '.' :: fraction).dropWhile (· ≠ '.') = '.' :: fraction := by
      rw [List.dropWhile_append_of_pos clear]
      simp
    have before : (whole ++ '.' :: fraction).takeWhile (· ≠ '.') = whole := by
      rw [List.takeWhile_append_of_pos clear]
      simp
    rw [if_neg none, isUnsigned, unsignedValue, stops, before]
    exact ⟨Bool.and_eq_true_iff.mpr ⟨isDecimals_digits some digits,
      isDecimals_digits none digits'⟩,
      rfl⟩

/-- A fraction that ends within the digits is read as it was printed. -/
theorem decimalsValue_fractionText (low : 0 ≤ x) (high : x < 1)
    (exact : ∃ k : Int, x * 10 ^ digits = k) :
    (decimalsValue (fractionText digits x) : ℚ) / 10 ^ (fractionText digits x).length = x := by
  induction digits generalizing x with
  | zero =>
    obtain ⟨k, exact⟩ := exact
    rw [pow_zero, mul_one] at exact
    have zero : x = 0 := by
      rw [exact] at low high ⊢
      have atLeast : 0 ≤ k := by exact_mod_cast low
      have below : k < 1 := by exact_mod_cast high
      rw [show k = 0 by omega, Int.cast_zero]
    simp [fractionText, decimalsValue, zero]
  | succ digits ih =>
    rw [fractionText]
    split
    · rename_i zero
      simp [decimalsValue, zero]
    · obtain ⟨k, exact⟩ := exact
      have rest := ih (fract_digit x).1 (fract_digit x).2 ⟨k - ⌊10 * x⌋ * 10 ^ digits, by
        push_cast
        rw [← exact, pow_succ]
        ring⟩
      obtain ⟨small, value⟩ := floor_digit low high
      rw [decimalsValue_cons, decimal_digitChar small, List.length_cons, Option.getD_some]
      push_cast
      rw [value, pow_succ, div_eq_iff (by positivity)]
      rw [div_eq_iff (by positivity)] at rest
      rw [rest]
      ring

theorem fixedText_read (low : 0 ≤ x) (exact : ∃ k : Int, x * 10 ^ digits = k) :
    isUnsigned (fixedText digits x) = true ∧ unsignedValue (fixedText digits x) = x := by
  have part : 0 ≤ x - ⌊x⌋ ∧ x - ⌊x⌋ < 1 := ⟨Int.fract_nonneg x, Int.fract_lt_one x⟩
  obtain ⟨k, exact⟩ := exact
  have fraction := @decimalsValue_fractionText digits _ _ part.1 part.2
      ⟨k - ⌊x⌋ * 10 ^ digits, by
    push_cast
    rw [← exact]
    ring⟩
  obtain ⟨number, value⟩ := unsigned_withPoint (natText_ne_nil ⌊x⌋.toNat)
    (fun _ inside => natText_digit inside) (@fractionText_digits digits _ part.1 part.2)
  refine ⟨number, value.trans ?_⟩
  have whole : ((⌊x⌋.toNat : Nat) : ℚ) = ⌊x⌋ := by
    exact_mod_cast Int.toNat_of_nonneg (Int.floor_nonneg.mpr low)
  rw [fraction, decimalsValue_natText, whole]
  ring

omit [Unicode] in
theorem roundHalfEven_nonneg {q : ℚ} (low : 0 ≤ q) : 0 ≤ roundHalfEven q := by
  have floor : 0 ≤ ⌊q⌋ := Int.floor_nonneg.mpr low
  unfold roundHalfEven
  dsimp only
  split_ifs <;> omega

omit [Unicode] in
theorem sixDigits_nonneg (pos : 0 < x) : 0 ≤ (sixDigits x).2 := by
  have scaled : 0 ≤ roundHalfEven (x / (10 : ℚ) ^ (Int.log 10 x - 5)) := 
    roundHalfEven_nonneg (div_nonneg pos.le (zpow_nonneg (by norm_num) _))
  simp only [sixDigits]
  split
  · norm_num
  · exact scaled

theorem not_isUnsigned_exponent (s t : Str) : isUnsigned (s ++ 'e' :: t) = false := by
  by_contra number
  obtain point | digit :=
    isUnsigned_mem (Bool.eq_true_of_not_eq_false number) (List.mem_append_right s (.head t))
  · cases point
  · rw [Unicode.decimal_ascii _ (by decide)] at digit
    cases digit

/-- What a reader of numbers without exponent makes of a printed one. -/
theorem formatG_read (low : 0 ≤ x) :
    (isUnsigned (formatG x) = true ↔ Plain x) ∧
    (Plain x → unsignedValue (formatG x) = sixDigitValue x) := by
  unfold formatG Plain sixDigitValue
  by_cases zero : x = 0
  · rw [if_pos zero, if_pos zero]
    have read := @unsigned_withPoint _ ['0'] [] (by decide) (by decide) (by decide)
    refine ⟨iff_of_true read.1 (.inl zero), fun _ => read.2.trans ?_⟩
    simp [decimalsValue, decimal_digit]
  · rw [if_neg zero, if_neg zero]
    dsimp only
    by_cases plain : -4 ≤ (sixDigits x).1 ∧ (sixDigits x).1 < 6
    · rw [if_pos plain]
      have positive := sixDigits_nonneg (low.lt_of_ne' zero)
      have digits : (0 : ℚ) ≤ (sixDigits x).2 := by exact_mod_cast positive
      have read := @fixedText_read (5 - (sixDigits x).1).toNat
        ((sixDigits x).2 * (10 : ℚ) ^ ((sixDigits x).1 - 5)) _
          (mul_nonneg digits (zpow_nonneg (by norm_num) _)) ⟨(sixDigits x).2, by
          rw [mul_assoc, ← zpow_natCast, ← zpow_add₀ (by norm_num),
            Int.toNat_of_nonneg (by omega)]
          simp⟩
      exact ⟨iff_of_true read.1 (.inr plain), fun _ => read.2⟩
    · rw [if_neg plain, not_isUnsigned_exponent]
      refine ⟨iff_of_false (by simp) fun other => plain (other.resolve_left zero),
        fun other => ?_⟩
      exact absurd (other.resolve_left zero) plain

end Python
