import SharpEvPicks.Python.Rounding
import SharpEvPicks.Python.Str
import Mathlib.Data.Int.Log

/-! Numbers printed: `str` of an integer and `format(x, "g")`. -/
namespace Python

def natText (n : Nat) : Str := Nat.toDigits 10 n

/-- At most so many digits of a part of one, without trailing zeros. -/
def fractionText : Nat → ℚ → Str
  | 0, _ => []
  | digits + 1, part =>
    if part = 0 then []
    else Nat.digitChar ⌊10 * part⌋.toNat :: fractionText digits (10 * part - ⌊10 * part⌋)

def withPoint (whole fraction : Str) : Str :=
  if fraction = [] then whole else whole ++ '.' :: fraction

/-- A number of at most so many decimals. -/
def fixedText (digits : Nat) (x : ℚ) : Str :=
  withPoint (natText ⌊x⌋.toNat) (fractionText digits (x - ⌊x⌋))

def exponentText (e : Int) : Str :=
  (if e < 0 then '-' else '+') :: if e.natAbs < 10 then '0' :: natText e.natAbs
    else natText e.natAbs

/-- The exponent and the six digits of a positive number. -/
def sixDigits (x : ℚ) : Int × Int :=
  let e := Int.log 10 x
  let m := roundHalfEven (x / (10 : ℚ) ^ (e - 5))
  if m = 10 ^ 6 then (e + 1, 10 ^ 5) else (e, m)

/-- `format(x, "g")` of a number that is not negative. -/
def formatG (x : ℚ) : Str :=
  if x = 0 then ['0']
  else
    let (e, m) := sixDigits x
    if -4 ≤ e ∧ e < 6 then fixedText (5 - e).toNat (m * (10 : ℚ) ^ (e - 5))
    else fixedText 5 (m / 10 ^ 5) ++ 'e' :: exponentText e

/-- `format(x, "g")`. -/
def formatSigned (x : ℚ) : Str := if x < 0 then '-' :: formatG (-x) else formatG x

/-- `format(x, "+g")`. -/
def formatPlus (x : ℚ) : Str := if x < 0 then '-' :: formatG (-x) else '+' :: formatG x

/-- ASCII that lower case leaves as it is, within a line. -/
structure Clean (c : Char) : Prop where
  ascii : isAscii c
  lower : c.toLower = c
  inline : c ≠ '\n'

instance decidableClean (c : Char) : Decidable (Clean c) :=
  decidable_of_iff (isAscii c ∧ c.toLower = c ∧ c ≠ '\n')
    ⟨fun h => ⟨h.1, h.2.1, h.2.2⟩, fun h => ⟨h.ascii, h.lower, h.inline⟩⟩

theorem toLower_of_not_upper {c : Char} (other : ¬ (c.val ≥ 'A'.val ∧ c.val ≤ 'Z'.val)) :
    c.toLower = c := by
  unfold Char.toLower
  exact dif_neg other

theorem toLower_digit {c : Char} (digit : c.isDigit) : c.toLower = c := by
  simp only [Char.isDigit, Bool.and_eq_true, decide_eq_true_eq, UInt32.le_iff_toNat_le] at digit
  apply toLower_of_not_upper
  rintro ⟨upper, -⟩
  have high : c.val.toNat ≤ 57 := digit.2
  have low : 65 ≤ c.val.toNat := UInt32.le_iff_toNat_le.mp upper
  omega

theorem Clean.digit {c : Char} (digit : c.isDigit) : Clean c where
  ascii := by
    simp only [Char.isDigit, Bool.and_eq_true, decide_eq_true_eq, UInt32.le_iff_toNat_le] at digit
    have high : c.toNat ≤ 57 := digit.2
    simp only [isAscii, decide_eq_true_eq]
    omega
  lower := toLower_digit digit
  inline := by
    rintro rfl
    simp at digit

theorem lower_clean [Unicode] {s : Str} (clean : ∀ c ∈ s, Clean c) : Unicode.lower s = s := by
  rw [Unicode.lower_ascii s fun c inside => (clean c inside).ascii]
  exact (List.map_congr_left fun c inside => (clean c inside).lower).trans s.map_id

theorem digitChar_cases {P : Char → Prop} (small : ∀ i < 16, P (Nat.digitChar i))
    (star : P '*') (n : Nat) : P (Nat.digitChar n) := by
  obtain below | beyond := lt_or_ge n 16
  · exact small n below
  · have same : Nat.digitChar n = '*' := by
      unfold Nat.digitChar
      repeat rw [if_neg (by omega)]
    exact same ▸ star

theorem natText_digit {n : Nat} {c : Char} (inside : c ∈ natText n) : c.isDigit :=
  Nat.isDigit_of_mem_toDigits (by decide) (by decide) inside

theorem natText_head (n : Nat) (rest : Str) :
    ∃ d rest', d.isDigit ∧ natText n ++ rest = d :: rest' := by
  have some : natText n ≠ [] := Nat.toDigits_ne_nil
  obtain ⟨d, whole, first⟩ := List.exists_cons_of_ne_nil some
  have inside : d ∈ natText n := by simp [first]
  exact ⟨d, whole ++ rest, natText_digit inside, by rw [first, List.cons_append]⟩

theorem natText_injective {n m : Nat} (same : natText n = natText m) : n = m := by
  have values := congrArg (Nat.ofDigitChars 10 · 0) same
  simpa [natText, Nat.ofDigitChars_ten_toDigits] using values

theorem underscore_notMem_natText (n : Nat) : '_' ∉ natText n := Nat.underscore_not_in_toDigits

theorem clean_natText {n : Nat} {c : Char} (inside : c ∈ natText n) : Clean c :=
  .digit (natText_digit inside)

/-- What a printed number is made of. -/
def NumberChar (c : Char) : Prop :=
  c.isDigit ∨ (∃ n, c = Nat.digitChar n) ∨ c ∈ ['.', 'e', '+', '-']

theorem NumberChar.clean {c : Char} (part : NumberChar c) : Clean c := by
  obtain digit | ⟨n, rfl⟩ | mark := part
  · exact .digit digit
  · exact @digitChar_cases Clean (by decide) (by decide) n
  · exact (by decide : ∀ c ∈ ['.', 'e', '+', '-'], Clean c) c mark

theorem NumberChar.ne_blank {c : Char} (part : NumberChar c) : c ≠ ' ' := by
  obtain digit | ⟨n, rfl⟩ | mark := part
  · rintro rfl
    cases digit
  · exact @digitChar_cases (· ≠ ' ') (by decide) (by decide) n
  · exact (by decide : ∀ c ∈ ['.', 'e', '+', '-'], c ≠ ' ') c mark

theorem natText_number {n : Nat} {c : Char} (inside : c ∈ natText n) : NumberChar c :=
  .inl (natText_digit inside)

theorem fractionText_number {digits : Nat} {part : ℚ} {c : Char}
    (inside : c ∈ fractionText digits part) : NumberChar c := by
  induction digits generalizing part with
  | zero => cases inside
  | succ digits ih =>
    rw [fractionText] at inside
    split at inside
    · cases inside
    · obtain rfl | later := List.mem_cons.mp inside
      · exact .inr (.inl ⟨_, rfl⟩)
      · exact ih later

theorem fixedText_number {digits : Nat} {x : ℚ} {c : Char} (inside : c ∈ fixedText digits x) :
    NumberChar c := by
  rw [fixedText, withPoint] at inside
  split at inside
  · exact natText_number inside
  · obtain whole | point := List.mem_append.mp inside
    · exact natText_number whole
    · obtain rfl | fraction := List.mem_cons.mp point
      · exact .inr (.inr (by decide))
      · exact fractionText_number fraction

theorem exponentText_number {e : Int} {c : Char} (inside : c ∈ exponentText e) :
    NumberChar c := by
  obtain sign | digits := List.mem_cons.mp inside
  · split at sign <;> subst sign <;> exact .inr (.inr (by decide))
  · split at digits
    · obtain rfl | digits := List.mem_cons.mp digits
      · exact .inl rfl
      · exact natText_number digits
    · exact natText_number digits

theorem formatG_number {x : ℚ} {c : Char} (inside : c ∈ formatG x) : NumberChar c := by
  rw [formatG] at inside
  split at inside
  · rw [List.mem_singleton.mp inside]
    exact .inl rfl
  · dsimp only at inside
    split at inside
    · exact fixedText_number inside
    · obtain mantissa | exponent := List.mem_append.mp inside
      · exact fixedText_number mantissa
      · obtain rfl | exponent := List.mem_cons.mp exponent
        · exact .inr (.inr (by decide))
        · exact exponentText_number exponent

theorem clean_formatG {x : ℚ} {c : Char} (inside : c ∈ formatG x) : Clean c :=
  (formatG_number inside).clean

theorem formatPlus_number {x : ℚ} {c : Char} (inside : c ∈ formatPlus x) : NumberChar c := by
  unfold formatPlus at inside
  split at inside <;> obtain rfl | inside := List.mem_cons.mp inside
  · exact .inr (.inr (by decide))
  · exact formatG_number inside
  · exact .inr (.inr (by decide))
  · exact formatG_number inside

theorem fractionText_zero (digits : Nat) : fractionText digits 0 = [] := by
  cases digits <;> simp [fractionText]

theorem fractionText_succ (digits n : Nat) {part : ℚ} (pos : 0 < part)
    (digit : ⌊10 * part⌋ = n) :
    fractionText (digits + 1) part = Nat.digitChar n :: fractionText digits (10 * part - n) := by
  rw [fractionText, if_neg pos.ne', digit]
  rfl

theorem fractionText_half (digits : Nat) : fractionText (digits + 1) (1 / 2) = ['5'] := by
  rw [fractionText_succ digits 5 (by norm_num) (by norm_num [Int.floor_eq_iff])]
  norm_num [fractionText_zero]

theorem fractionText_digit_half (digits n : Nat) :
    fractionText (digits + 2) ((n + 1 / 2) / 10) = [Nat.digitChar n, '5'] := by
  have rest : 10 * (((n : ℚ) + 1 / 2) / 10) - n = 1 / 2 := by ring
  have digit : ⌊10 * (((n : ℚ) + 1 / 2) / 10)⌋ = n := by
    rw [Int.floor_eq_iff]
    constructor <;> push_cast <;> linarith
  rw [fractionText_succ (digits + 1) n (by positivity) digit, rest, fractionText_half]

/-- A number whose digits end within the first six is printed as it is. -/
theorem formatG_exact {x : ℚ} {e k : Int} (pos : 0 < x) (log : Int.log 10 x = e)
    (low : -4 ≤ e) (high : e < 6) (digits : x = k * (10 : ℚ) ^ (e - 5)) :
      formatG x = fixedText (5 - e).toNat x := by
  have scale : (0 : ℚ) < (10 : ℚ) ^ (e - 5) := zpow_pos (by norm_num) _
  have quotient : x / (10 : ℚ) ^ (e - 5) = k := by
    rw [digits, mul_div_cancel_right₀ _ scale.ne']
  have below : k < 10 ^ 6 := by
    have bound : x < (10 : ℚ) ^ (e + 1) := by
      have bound := Int.lt_zpow_succ_log_self (b := 10) (by norm_num) x
      rwa [log] at bound
    have split : (10 : ℚ) ^ (e + 1) = 10 ^ 6 * (10 : ℚ) ^ (e - 5) := by
      rw [← zpow_natCast, ← zpow_add₀ (by norm_num)]
      congr 1
      push_cast
      ring
    rw [digits, split, mul_lt_mul_iff_left₀ scale] at bound
    exact_mod_cast bound
  have six : sixDigits x = (e, k) := by
    simp only [sixDigits, log, quotient, roundHalfEven_intCast]
    rw [if_neg below.ne]
  rw [formatG, if_neg pos.ne', six]
  simp only
  rw [if_pos ⟨low, high⟩, ← digits]

end Python
