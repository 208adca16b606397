import SharpEvPicks.Python.Format
import SharpEvPicks.Python.Json

/-! Numbers printed with so many decimals, `format(x, ".4f")`, and texts cut at a separator. -/
namespace Python

/-- The last so many digits, zeros included. -/
def lastDigits : Nat → Nat → Str
  | 0, _ => []
  | digits + 1, n => lastDigits digits (n / 10) ++ [Nat.digitChar (n % 10)]

/-- A number in units of its last decimal. -/
def fixedUnits (decimals : Nat) (x : ℚ) : Nat := (roundHalfEven (|x| * 10 ^ decimals)).toNat

/-- `format(x, ".nf")` of a finite number. -/
def fixedPoint (decimals : Nat) (x : ℚ) : Str :=
  (if x < 0 then ['-'] else []) ++ natText (fixedUnits decimals x / 10 ^ decimals) ++
    '.' :: lastDigits decimals (fixedUnits decimals x % 10 ^ decimals)

/-- `format(x, ".nf")`. -/
def formatFixed (decimals : Nat) : PyFloat → Str
  | .finite x => fixedPoint decimals x
  | .inf negative => if negative then "-inf".toList else "inf".toList
  | .nan => "nan".toList

/-- Numbers that one text with so many decimals stands for: `-0.00` is not `0.00`. -/
def SamePrinted (decimals : Nat) : PyFloat → PyFloat → Prop
  | .finite x, .finite y => (x < 0 ↔ y < 0) ∧ fixedUnits decimals x = fixedUnits decimals y
  | x, y => x = y

/-! Separators. -/

/-- A text before the first separator, and after it. -/
theorem cut_first {sep : Char} {a b s t : Str} (plain : sep ∉ a) (plain' : sep ∉ b)
    (same : a ++ sep :: s = b ++ sep :: t) : a = b ∧ s = t := by
  induction a generalizing b with
  | nil =>
    cases b with
    | nil => exact ⟨rfl, (List.cons.inj same).2⟩
    | cons c b => exact absurd ((List.cons.inj same).1 ▸ List.mem_cons_self) plain'
  | cons c a ih =>
    cases b with
    | nil => exact absurd ((List.cons.inj same).1 ▸ List.mem_cons_self) plain
    | cons d b =>
      obtain ⟨rfl, rest⟩ := List.cons.inj same
      obtain ⟨rfl, tail⟩ :=
        ih (fun inside => plain (.tail _ inside)) (fun inside => plain' (.tail _ inside)) rest
      exact ⟨rfl, tail⟩

/-- A text before the last separator, and after it. -/
theorem cut_last {sep : Char} {a b s t : Str} (plain : sep ∉ s) (plain' : sep ∉ t)
    (same : a ++ sep :: s = b ++ sep :: t) : a = b ∧ s = t := by
  have turned : s.reverse ++ sep :: a.reverse = t.reverse ++ sep :: b.reverse := by
    have both := congrArg List.reverse same
    simpa using both
  obtain ⟨tails, heads⟩ := cut_first (by simpa using plain) (by simpa using plain') turned
  exact ⟨List.reverse_injective heads, List.reverse_injective tails⟩

/-! Digits. -/

theorem digitChar_injective {n m : Nat} (small : n < 10) (small' : m < 10)
    (same : Nat.digitChar n = Nat.digitChar m) : n = m := by
  have each : ∀ i < 10, ∀ j < 10, Nat.digitChar i = Nat.digitChar j → i = j := by decide
  exact each n small m small' same

theorem lastDigits_injective {digits n m : Nat} (small : n < 10 ^ digits) (small' : m < 10 ^ digits)
    (same : lastDigits digits n = lastDigits digits m) : n = m := by
  induction digits generalizing n m with
  | zero => omega
  | succ digits ih =>
    obtain ⟨front, last⟩ := List.append_inj' same rfl
    have low := digitChar_injective (Nat.mod_lt n (by decide)) (Nat.mod_lt m (by decide))
      (List.singleton_inj.mp last)
    have high := ih (n := n / 10) (m := m / 10) (by
      rw [Nat.div_lt_iff_lt_mul (by decide)]; exact small)
      (by rw [Nat.div_lt_iff_lt_mul (by decide)]; exact small') front
    omega

theorem lastDigits_number {digits n : Nat} {c : Char} (inside : c ∈ lastDigits digits n) :
    NumberChar c := by
  induction digits generalizing n with
  | zero => cases inside
  | succ digits ih =>
    obtain front | last := List.mem_append.mp inside
    · exact ih front
    · exact .inr (.inl ⟨_, List.mem_singleton.mp last⟩)

/-! Numbers. -/

theorem fixedPoint_number {decimals : Nat} {x : ℚ} {c : Char}
    (inside : c ∈ fixedPoint decimals x) : NumberChar c := by
  obtain front | rest := List.mem_append.mp inside
  · obtain sign | whole := List.mem_append.mp front
    · split at sign
      · exact .inr (.inr (by simp [List.mem_singleton.mp sign]))
      · cases sign
    · exact natText_number whole
  · obtain rfl | digits := List.mem_cons.mp rest
    · exact .inr (.inr (by simp))
    · exact lastDigits_number digits

/-- A letter that no printed number has. -/
theorem NumberChar.ne_letter {c : Char} (part : NumberChar c) :
    c ≠ 'i' ∧ c ≠ 'n' ∧ c ≠ '|' ∧ c ≠ '@' := by
  obtain digit | ⟨n, rfl⟩ | mark := part
  · refine ⟨?_, ?_, ?_, ?_⟩ <;> rintro rfl <;> cases digit
  · exact @digitChar_cases (fun c => c ≠ 'i' ∧ c ≠ 'n' ∧ c ≠ '|' ∧
        c ≠ '@') (by decide) (by
      decide) n
  · exact (by decide : ∀ c ∈ ['.', 'e', '+',
      '-'], c ≠ 'i' ∧ c ≠ 'n' ∧ c ≠ '|' ∧ c ≠ '@') c mark

theorem point_notMem_natText (n : Nat) : '.' ∉ natText n := fun inside =>
  absurd (natText_digit inside) (by decide)

theorem natText_unsigned {n : Nat} {rest t : Str} : natText n ++ rest ≠ '-' :: t := by
  obtain ⟨d, rest', digit, head⟩ := natText_head n rest
  rw [head]
  rintro same
  obtain ⟨rfl, -⟩ := List.cons.inj same
  cases digit

/-- The digits of a number, by its units. -/
theorem fixedDigits_injective {decimals u v : Nat}
    (same : natText (u / 10 ^ decimals) ++ '.' :: lastDigits decimals (u % 10 ^ decimals) =
      natText (v / 10 ^ decimals) ++ '.' :: lastDigits decimals (v % 10 ^ decimals)) : u = v := by
  obtain ⟨whole, tail⟩ := cut_first (point_notMem_natText _) (point_notMem_natText _) same
  have low := lastDigits_injective (Nat.mod_lt _ (by positivity))
    (Nat.mod_lt _ (by positivity)) tail
  rw [← Nat.div_add_mod u (10 ^ decimals), natText_injective whole, low, Nat.div_add_mod]

theorem fixedPoint_eq_iff {decimals : Nat} {x y : ℚ} :
    fixedPoint decimals x = fixedPoint decimals y ↔
      (x < 0 ↔ y < 0) ∧ fixedUnits decimals x = fixedUnits decimals y := by
  constructor
  · intro same
    unfold fixedPoint at same
    rw [List.append_assoc, List.append_assoc] at same
    by_cases negative : x < 0
    · by_cases negative' : y < 0
      · rw [if_pos negative, if_pos negative'] at same
        exact ⟨iff_of_true negative negative', fixedDigits_injective (List.cons.inj same).2⟩
      · rw [if_pos negative, if_neg negative'] at same
        exact absurd same.symm natText_unsigned
    · by_cases negative' : y < 0
      · rw [if_neg negative, if_pos negative'] at same
        exact absurd same natText_unsigned
      · rw [if_neg negative, if_neg negative'] at same
        exact ⟨iff_of_false negative negative', fixedDigits_injective same⟩
  · rintro ⟨sign, units⟩
    unfold fixedPoint
    simp only [sign, units]

theorem formatFixed_eq_iff {decimals : Nat} {x y : PyFloat} :
    formatFixed decimals x = formatFixed decimals y ↔ SamePrinted decimals x y := by
  have word (q : ℚ) {word : Str} (letter : 'i' ∈ word ∨ 'n' ∈ word) :
      fixedPoint decimals q ≠ word := by
    rintro rfl
    obtain inside | inside := letter
    · exact (fixedPoint_number inside).ne_letter.1 rfl
    · exact (fixedPoint_number inside).ne_letter.2.1 rfl
  cases x with
  | finite q =>
    cases y with
    | finite r => exact fixedPoint_eq_iff
    | inf negative => cases negative <;> exact iff_of_false (word q (by simp [formatFixed])) nofun
    | nan => exact iff_of_false (word q (by simp [formatFixed])) nofun
  | inf negative =>
    cases y with
    | finite r => cases negative <;> exact iff_of_false (word r (by simp [formatFixed])).symm nofun
    | inf negative' => cases negative <;> cases negative' <;> simp [formatFixed, SamePrinted]
    | nan => cases negative <;> simp [formatFixed, SamePrinted]
  | nan =>
    cases y with
    | finite r => exact iff_of_false (word r (by simp [formatFixed])).symm nofun
    | inf negative => cases negative <;> simp [formatFixed, SamePrinted]
    | nan => simp [SamePrinted]

/-- A number leaves room for separators. -/
theorem formatFixed_plain (decimals : Nat) (x : PyFloat) :
    '|' ∉ formatFixed decimals x ∧ '@' ∉ formatFixed decimals x := by
  cases x with
  | finite q =>
    exact ⟨fun inside => (fixedPoint_number inside).ne_letter.2.2.1 rfl,
      fun inside => (fixedPoint_number inside).ne_letter.2.2.2 rfl⟩
  | inf negative => cases negative <;> exact ⟨by simp [formatFixed], by simp [formatFixed]⟩
  | nan => exact ⟨by simp [formatFixed], by simp [formatFixed]⟩

end Python
