import SharpEvPicks.Python.Format

/-! Half and quarter lines, and how a number format prints them. -/
namespace SharpEvPicks.Ingestion

open Python

/-- The quarters of a line that is not whole. -/
inductive Part where
  | one | two | three
  deriving DecidableEq, Repr

namespace Part

def hundredths : Part → Nat
  | one => 25
  | two => 50
  | three => 75

def value (p : Part) : ℚ := p.hundredths / 100

def digits : Part → Str
  | one => ['2', '5']
  | two => ['5']
  | three => ['7', '5']

end Part

structure Line where
  whole : Nat
  part : Part
  deriving DecidableEq, Repr

namespace Line
variable (l : Line)

def value : ℚ := l.whole + l.part.value

def text : Str := natText l.whole ++ '.' :: l.part.digits

/-- Six digits are enough for it. -/
def Short : Prop := l.whole < 10 ^ 4 ∨ (l.whole < 10 ^ 5 ∧ l.part = .two)

end Line

variable {l : Line}

theorem Part.value_bounds (p : Part) : 0 < p.value ∧ p.value < 1 := by
  cases p <;> norm_num [Part.value, Part.hundredths]

@[simp] theorem Line.floor_value (l : Line) : ⌊l.value⌋ = l.whole := by
  obtain ⟨pos, one⟩ := l.part.value_bounds
  rw [Line.value, Int.floor_natCast_add, Int.floor_eq_zero_iff.mpr ⟨pos.le, one⟩, add_zero]

theorem Line.value_injective {l l' : Line} (same : l.value = l'.value) : l = l' := by
  have whole : l.whole = l'.whole := by
    have floors := congrArg Int.floor same
    simpa using floors
  have part : l.part = l'.part := by
    have parts : l.part.value = l'.part.value := by
      simpa [Line.value, whole] using same
    revert parts
    cases l.part <;> cases l'.part <;> norm_num [Part.value, Part.hundredths]
  cases l
  cases l'
  simp_all

/-- The lines are the quarters of the natural numbers that are not whole. -/
theorem exists_line {quarters : Nat} (broken : quarters % 4 ≠ 0) : ∃ l :
    Line, l.value = quarters / 4 := by
  have split : (quarters : ℚ) = 4 * (quarters / 4 : Nat) + (quarters % 4 : Nat) := by
    exact_mod_cast (Nat.div_add_mod quarters 4).symm
  have kinds : quarters % 4 = 1 ∨ quarters % 4 = 2 ∨ quarters % 4 = 3 := by omega
  obtain kind | kind | kind := kinds <;> rw [kind] at split
  · exact ⟨⟨quarters / 4, .one⟩, by
      rw [split]; norm_num [Line.value, Part.value, Part.hundredths]; ring⟩
  · exact ⟨⟨quarters / 4, .two⟩, by
      rw [split]; norm_num [Line.value, Part.value, Part.hundredths]; ring⟩
  · exact ⟨⟨quarters / 4, .three⟩, by
      rw [split]; norm_num [Line.value, Part.value, Part.hundredths]; ring⟩

theorem fractionText_part (digits : Nat) (p : Part) :
    fractionText (digits + 2) p.value = p.digits := by
  cases p with
  | one =>
    have text := fractionText_digit_half digits 2
    norm_num at text
    norm_num [Part.value, Part.hundredths, text, Part.digits]
  | two =>
    have half : Part.two.value = 1 / 2 := by norm_num [Part.value, Part.hundredths]
    rw [half, fractionText_half, Part.digits]
  | three =>
    have text := fractionText_digit_half digits 7
    norm_num at text
    norm_num [Part.value, Part.hundredths, text, Part.digits]

theorem fixedText_line (digits : Nat) (l : Line) : fixedText (digits + 2) l.value = l.text := by
  have rest : l.value - ⌊l.value⌋ = l.part.value := by
    rw [Line.floor_value, Line.value]
    push_cast
    ring
  have digitsLeft : l.part.digits ≠ [] := by cases l.part <;> simp [Part.digits]
  rw [fixedText, rest, fractionText_part, Line.floor_value, withPoint, if_neg digitsLeft]
  rfl

theorem Line.value_pos (l : Line) : 0 < l.value := by
  have part := l.part.value_bounds
  have whole : (0 : ℚ) ≤ l.whole := by positivity
  rw [Line.value]
  linarith

theorem Line.log_value (l : Line) (one : 1 ≤ l.whole) :
    Int.log 10 l.value = Nat.log 10 l.whole := by
  have atLeast : (1 : ℚ) ≤ l.value := by
    have part := l.part.value_bounds
    have whole : (1 : ℚ) ≤ l.whole := by exact_mod_cast one
    rw [Line.value]
    linarith
  have floor : ⌊l.value⌋₊ = l.whole := by
    rw [← Int.floor_toNat, Line.floor_value, Int.toNat_natCast]
  rw [Int.log_of_one_le_right 10 atLeast, floor]

/-- How `%g` prints a line, with any character for the point. -/
inductive Printed (point : Char) (l : Line) : Str → Prop where
  | exact : l.Short → Printed point l (natText l.whole ++ point :: l.part.digits)
  | tenth (d : Char) : l.whole < 10 ^ 5 → ¬ l.Short → d = '2' ∨ d = '8' →
    Printed point l (natText l.whole ++ [point, d])
  | whole (n : Nat) : ¬ l.Short → Printed point l (natText n)
  | exponent (d : Char) (rest :
      Str) : ¬ l.Short → d.isDigit → 'e' ∈ rest → Printed point l (d :: rest)

theorem formatG_small {l : Line} (one : 1 ≤ l.whole) (short : l.whole < 10 ^ 4) :
    formatG l.value = l.text := by
  have small : Nat.log 10 l.whole < 4 := Nat.log_lt_of_lt_pow (by omega) short
  obtain ⟨rest, sum⟩ : ∃ rest, Nat.log 10 l.whole + rest = 3 :=
    ⟨3 - Nat.log 10 l.whole, by omega⟩
  have power : ((Nat.log 10 l.whole : Int) - 5) = -((rest + 2 : Nat) : Int) := by
    push_cast
    omega
  have exact := formatG_exact (k := ((100 * l.whole + l.part.hundredths) * 10 ^ rest : Nat))
    l.value_pos (l.log_value one) (by omega) (by omega) (by
      rw [power, zpow_neg, zpow_natCast, pow_add, Line.value, Part.value]
      push_cast
      field_simp
      ring)
  have digits : (5 - (Nat.log 10 l.whole : Int)).toNat = rest + 2 := by omega
  rw [exact, digits, fixedText_line]

theorem formatG_below_one (p : Part) : formatG (Line.mk 0 p).value = (Line.mk 0 p).text := by
  cases p <;> decide +kernel

theorem Line.log_five {l : Line} (big : 10 ^ 4 ≤ l.whole) (small : l.whole < 10 ^ 5) :
    Int.log 10 l.value = 4 := by
  have log : Nat.log 10 l.whole = 4 :=
    (Nat.log_eq_iff (.inl (by omega))).mpr ⟨big, small⟩
  rw [l.log_value (by omega), log]
  rfl

theorem formatG_half {l : Line} (big : 10 ^ 4 ≤ l.whole) (small : l.whole < 10 ^ 5)
    (half : l.part = .two) : formatG l.value = l.text := by
  have value : l.value = l.whole + 1 / 2 := by
    rw [Line.value, half]
    norm_num [Part.value, Part.hundredths]
  have exact := formatG_exact (k := (10 * l.whole + 5 : Nat)) l.value_pos (Line.log_five big small)
    (by omega) (by omega) (by
      rw [value]
      norm_num
      ring)
  have floor : ⌊l.value⌋ = l.whole := l.floor_value
  have rest : l.value - (l.whole : Int) = 1 / 2 := by
    rw [value]
    push_cast
    ring
  rw [exact, fixedText, floor, rest]
  change withPoint (natText l.whole) (fractionText 1 (1 / 2)) = l.text
  rw [fractionText_half, withPoint, if_neg (by simp), Line.text, half]
  rfl

theorem formatG_five {l : Line} (big : 10 ^ 4 ≤ l.whole) (small : l.whole < 10 ^ 5) {n : Nat}
    (rounds : roundHalfEven (10 * l.value) = n) (below : n < 10 ^ 6) :
    formatG l.value = fixedText 1 (n / 10) := by
  have quotient : l.value / (10 : ℚ) ^ ((4 : Int) - 5) = 10 * l.value := by
    norm_num
    ring
  have six : sixDigits l.value = (4, (n : Int)) := by
    simp only [sixDigits, Line.log_five big small, quotient, rounds]
    rw [if_neg (by omega)]
  have scaled : ((n : Int) : ℚ) * (10 : ℚ) ^ ((4 : Int) - 5) = n / 10 := by
    norm_num
    ring
  rw [formatG, if_neg l.value_pos.ne', six]
  dsimp only
  rw [if_pos (by omega), scaled]
  rfl

theorem fixedText_tenths (whole d : Nat) (low : 0 < d) (high : d < 10) :
    fixedText 1 ((10 * whole + d : Nat) / 10) = natText whole ++ ['.', Nat.digitChar d] := by
  have value : ((10 * whole + d : Nat) : ℚ) / 10 = whole + (d : ℚ) / 10 := by
    push_cast
    ring
  have lowPart : (0 : ℚ) < (d : ℚ) / 10 := by positivity
  have highPart : (d : ℚ) / 10 < 1 := by
    have high : (d : ℚ) < 10 := by exact_mod_cast high
    linarith
  have floor : ⌊(whole : ℚ) + (d : ℚ) / 10⌋ = whole := by
    rw [Int.floor_natCast_add, Int.floor_eq_zero_iff.mpr ⟨lowPart.le, highPart⟩, add_zero]
  have rest : (whole : ℚ) + (d : ℚ) / 10 - ((whole : Int) : ℚ) = d / 10 := by
    push_cast
    ring
  have digit : ⌊10 * ((d : ℚ) / 10)⌋ = d := by
    rw [mul_div_cancel₀ _ (by norm_num)]
    exact Int.floor_natCast d
  have text : fractionText 1 ((d : ℚ) / 10) = [Nat.digitChar d] := by
    rw [fractionText_succ 0 d lowPart digit]
    rfl
  rw [fixedText, value, floor, rest, text, withPoint, if_neg (by simp)]
  rfl

/-- From ten thousand on a quarter is rounded to an even digit. -/
theorem formatG_tenth {l : Line} (big : 10 ^ 4 ≤ l.whole) (small : l.whole < 10 ^ 5)
    (quarter : l.part ≠ .two) :
    ∃ d, (d = '2' ∨ d = '8') ∧ formatG l.value = natText l.whole ++ ['.', d] := by
  have value : l.value = l.whole + l.part.value := rfl
  cases part : l.part with
  | one =>
    have tens : 10 * l.value = ((10 * l.whole + 2 : Nat) : Int) + 1 / 2 := by
      rw [value, part]
      norm_num [Part.value, Part.hundredths]
      ring
    have rounds : roundHalfEven (10 * l.value) = (10 * l.whole + 2 : Nat) := by
      rw [tens, roundHalfEven_half, if_pos (by omega)]
    refine ⟨'2', .inl rfl, ?_⟩
    rw [formatG_five big small rounds (by omega), fixedText_tenths _ _ (by omega) (by omega)]
    rfl
  | two => exact absurd part quarter
  | three =>
    have tens : 10 * l.value = ((10 * l.whole + 7 : Nat) : Int) + 1 / 2 := by
      rw [value, part]
      norm_num [Part.value, Part.hundredths]
      ring
    have rounds : roundHalfEven (10 * l.value) = (10 * l.whole + 8 : Nat) := by
      rw [tens, roundHalfEven_half, if_neg (by omega)]
      push_cast
      ring
    refine ⟨'8', .inr rfl, ?_⟩
    rw [formatG_five big small rounds (by omega), fixedText_tenths _ _ (by omega) (by omega)]
    rfl

theorem fixedText_head (digits : Nat) (x : ℚ) :
    ∃ d rest, d.isDigit ∧ fixedText digits x = d :: rest := by
  obtain ⟨d, rest, whole⟩ :=
    List.exists_cons_of_ne_nil (Nat.toDigits_ne_nil (n := ⌊x⌋.toNat) (b := 10))
  have digit : d.isDigit := natText_digit (n := ⌊x⌋.toNat) (by simp [natText, whole])
  rw [fixedText, withPoint, natText, whole]
  split
  · exact ⟨d, rest, digit, rfl⟩
  · exact ⟨d, _, digit, rfl⟩

theorem formatG_large {l : Line} (large : 10 ^ 5 ≤ l.whole) :
    (∃ n, formatG l.value = natText n) ∨ ∃ d rest, d.isDigit ∧ 'e' ∈ rest ∧
      formatG l.value = d :: rest := by
  have log : 5 ≤ Int.log 10 l.value := by
    rw [l.log_value (by omega)]
    have log : 5 ≤ Nat.log 10 l.whole := Nat.le_log_of_pow_le (by omega) large
    exact_mod_cast log
  have six : 5 ≤ (sixDigits l.value).1 := by
    unfold sixDigits
    dsimp only
    split <;> dsimp only <;> omega
  rw [formatG, if_neg l.value_pos.ne']
  dsimp only
  split
  · rename_i range
    have five : (sixDigits l.value).1 = 5 := by omega
    have text (x : ℚ) : fixedText (5 - 5 : Int).toNat x = natText ⌊x⌋.toNat := rfl
    rw [five, text]
    exact .inl ⟨_, rfl⟩
  · obtain ⟨d, rest, digit, text⟩ := fixedText_head 5 ((sixDigits l.value).2 / 10 ^ 5)
    rw [text]
    exact .inr ⟨d, _, digit, by simp, List.cons_append⟩

theorem formatG_line (l : Line) : Printed '.' l (formatG l.value) := by
  obtain small | big := lt_or_ge l.whole (10 ^ 4)
  · have exact : formatG l.value = l.text := by
      obtain zero | one := Nat.eq_zero_or_pos l.whole
      · obtain ⟨whole, part⟩ := l
        cases zero
        exact formatG_below_one part
      · exact formatG_small one small
    rw [exact]
    exact .exact (.inl small)
  · obtain medium | large := lt_or_ge l.whole (10 ^ 5)
    · by_cases half : l.part = .two
      · rw [formatG_half big medium half]
        exact .exact (.inr ⟨medium, half⟩)
      · obtain ⟨d, which, text⟩ := formatG_tenth big medium half
        rw [text]
        refine .tenth d medium (fun short => ?_) which
        obtain small | ⟨_, two⟩ := short
        · omega
        · exact half two
    · have long : ¬ l.Short := by
        rintro (small | ⟨medium, _⟩) <;> omega
      obtain ⟨n, text⟩ | ⟨d, rest, digit, e, text⟩ := formatG_large large
      · rw [text]
        exact .whole n long
      · rw [text]
        exact .exponent d rest long digit e

end SharpEvPicks.Ingestion
