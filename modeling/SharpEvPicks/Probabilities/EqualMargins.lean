import SharpEvPicks.Probabilities.ClosedForm

/-! Methods of `app/probabilities/devig.py` that are one method in exact arithmetic: the
differential margin is the additive one on every market, Shin's on two outcomes. -/
namespace SharpEvPicks.Probabilities

variable {K : Type*} [Field K] [LinearOrder K] [IsStrictOrderedRing K]

/-! The differential margin. -/

section
variable {odds : List K}

/-- Of several positive parts of one, none is the whole. -/
theorem lt_one_of_parts {l : List K} (several : 2 ≤ l.length) (positive : ∀ x ∈ l, 0 < x)
    (one : l.sum = 1) {x : K} (listed : x ∈ l) : x < 1 := by
  have laid := (List.perm_cons_erase listed).sum_eq
  have rest : l.erase x ≠ [] := by
    rw [← List.length_pos_iff, List.length_erase_of_mem listed]
    omega
  have others : 0 < (l.erase x).sum := by
    have parts := @sum_map_pos _ _ _ _ _ id rest fun y inside =>
      positive y (List.mem_of_mem_erase inside)
    rwa [List.map_id] at parts
  rw [one, List.sum_cons] at laid
  linarith

omit [LinearOrder K] [IsStrictOrderedRing K] in
theorem sum_sub_const (l : List K) (c : K) : (l.map (· - c)).sum = l.sum - l.length * c := by
  induction l with
  | nil => simp
  | cons x l ih =>
    rw [List.map_cons, List.sum_cons, ih, List.sum_cons, List.length_cons]
    push_cast
    ring

/-- What both methods leave of the inverse prices. -/
def lessMargin (q : List K) : List K := q.map (· - (q.sum - 1) / q.length)

omit [LinearOrder K] [IsStrictOrderedRing K] in
theorem lessMargin_sum [CharZero K] {q : List K} (some : q ≠ []) : (lessMargin q).sum = 1 := by
  have count : (q.length : K) ≠ 0 := Nat.cast_ne_zero.mpr (List.length_pos_iff.mpr some).ne'
  rw [lessMargin, sum_sub_const, mul_div_cancel₀ _ count, sub_sub_cancel]

theorem differential_shares (some : odds ≠ []) (above : ∀ o ∈ odds, 1 < o) :
    (odds.map fun o => (odds.length - ((inverses odds).sum - 1) * o) / (odds.length * o)) =
      lessMargin (inverses odds) := by
  have count : (0 : K) < odds.length := Nat.cast_pos.mpr (List.length_pos_iff.mpr some)
  have length : (inverses odds).length = odds.length := List.length_map _
  rw [lessMargin, length, inverses, List.map_map]
  apply List.map_congr_left
  intro o quoted
  exact differential_share count (zero_lt_one.trans (above o quoted))

/-- A denominator fails where the share does. -/
theorem any_denominators (some : odds ≠ []) (above : ∀ o ∈ odds, 1 < o) :
    (odds.map fun o => odds.length - ((inverses odds).sum - 1) * o).any (· ≤ 0) =
      (lessMargin (inverses odds)).any (· ≤ 0) := by
  have count : (0 : K) < odds.length := Nat.cast_pos.mpr (List.length_pos_iff.mpr some)
  rw [← differential_shares some above, List.any_map, List.any_map, Bool.eq_iff_iff,
    List.any_eq_true, List.any_eq_true]
  apply exists_congr
  intro o
  apply and_congr_right
  intro quoted
  have scaled : 0 < (odds.length : K) * o := mul_pos count (zero_lt_one.trans (above o quoted))
  simp only [Function.comp_apply, decide_eq_true_eq, ← not_lt, div_pos_iff_of_pos_right scaled]

/-- The range check of the differential margin has nothing left to find. -/
theorem differentialMargin_eq (several : 2 ≤ odds.length) (above : ∀ o ∈ odds, 1 < o) :
    differentialMargin odds (inverses odds) = ((additive (inverses odds)).1,
      (additive (inverses odds)).2.map fun _ => .differentialMarginNonPositive) := by
  have nonempty : odds ≠ [] := List.length_pos_iff.mp (by omega)
  have priced : inverses odds ≠ [] := List.map_eq_nil_iff.not.mpr nonempty
  have left : additive (inverses odds) =
      if (lessMargin (inverses odds)).any (· ≤ 0) then
        (multiplicative (inverses odds), some .additiveNonPositive)
      else (lessMargin (inverses odds), none) := rfl
  unfold differentialMargin
  dsimp only
  rw [any_denominators nonempty above, differential_shares nonempty above, left]
  split
  · rfl
  · rename_i positive
    rw [Bool.not_eq_true] at positive
    have within : (lessMargin (inverses odds)).any (1 ≤ ·) = false := by
      rw [List.any_eq_false]
      intro p listed
      have length : (lessMargin (inverses odds)).length = odds.length :=
        (List.length_map _).trans (List.length_map _)
      have below := lt_one_of_parts (several.trans_eq length.symm) (fun x => pos_of_any positive)
        (lessMargin_sum priced) listed
      simpa using below
    rw [if_neg (by rw [positive, within]; decide)]
    rfl

end

variable [Numerics K]

theorem differentialMargin_additive (odds : List K) :
    devigWithDiagnostics odds .differentialMargin =
      (devigWithDiagnostics odds .additive).map fun (p, reason) =>
        (p, reason.map fun _ => .differentialMarginNonPositive) := by
  by_cases few : odds.length < 2
  · simp only [devigWithDiagnostics, if_pos few, Except.map]
  · cases low : odds.any (· ≤ 1) with
    | true => simp only [devigWithDiagnostics, if_neg few, low, if_true, Except.map]
    | false =>
      have above (o : K) (quoted : o ∈ odds) : 1 < o := by
        have kept := List.any_eq_false.mp low o quoted
        simpa using kept
      rw [devigWithDiagnostics_eq (not_lt.mp few) above,
        devigWithDiagnostics_eq (not_lt.mp few) above]
      simp only [methodShares, differentialMargin_eq (not_lt.mp few) above, Except.map]

/-! Shin's method on two outcomes. -/

omit [Numerics K] in
/-- `z` of the closed form for two outcomes. -/
def insiderFraction (x y : K) : K :=
  (x + y - 1) * ((x - y) * (x - y) - (x + y)) / ((x + y) * ((x - y) * (x - y) - 1))

/-- Two inverse prices of a book that takes a margin. -/
structure Overround (x y : K) : Prop where
  first : 0 < x ∧ x < 1
  second : 0 < y ∧ y < 1
  margin : 1 < x + y

omit [LinearOrder K] [IsStrictOrderedRing K] [Numerics K] in
theorem insiderFraction_comm (x y : K) : insiderFraction x y = insiderFraction y x := by
  unfold insiderFraction
  ring

namespace Overround
variable {x y : K}

omit [IsStrictOrderedRing K] [Numerics K] in
theorem symm (book : Overround x y) : Overround y x :=
  ⟨book.second, book.first, book.margin.trans_eq (add_comm x y)⟩

omit [Numerics K] in
theorem gap (book : Overround x y) : (x - y) * (x - y) < 1 := by
  obtain ⟨⟨x_pos, x_lt⟩, ⟨y_pos, y_lt⟩, -⟩ := book
  have parts : 0 < (1 - (x - y)) * (1 + (x - y)) := mul_pos (by linarith) (by linarith)
  linarith

omit [Numerics K] in
theorem denom (book : Overround x y) : (x + y) * ((x - y) * (x - y) - 1) < 0 :=
  mul_neg_of_pos_of_neg (zero_lt_one.trans book.margin) (sub_neg.mpr book.gap)

omit [Numerics K] in
theorem fraction_pos (book : Overround x y) : 0 < insiderFraction x y := by
  have margin := book.margin
  have gap := book.gap
  exact div_pos_of_neg_of_neg (mul_neg_of_pos_of_neg (by linarith) (by linarith)) book.denom

omit [Numerics K] in
theorem fraction_lt (book : Overround x y) : insiderFraction x y < 1 := by
  rw [insiderFraction, div_lt_one_of_neg book.denom]
  have first : 0 < x * (1 - x) := mul_pos book.first.1 (sub_pos.mpr book.first.2)
  have second : 0 < y * (1 - y) := mul_pos book.second.1 (sub_pos.mpr book.second.2)
  linarith

omit [Numerics K] in
/-- The radicand is a perfect square. -/
theorem inner_eq (book : Overround x y) :
    insiderFraction x y * insiderFraction x y + 4 * (1 - insiderFraction x y) * (x * x) / (x + y) =
      (1 + (x - y) * (1 - insiderFraction x y)) * (1 + (x - y) * (1 - insiderFraction x y)) := by
  have total : x + y ≠ 0 := (zero_lt_one.trans book.margin).ne'
  have scaled : insiderFraction x y * ((x + y) * ((x - y) * (x - y) - 1)) =
      (x + y - 1) * ((x - y) * (x - y) - (x + y)) := div_mul_cancel₀ _ book.denom.ne
  have square : 4 * (1 - insiderFraction x y) * (x * x) / (x + y) =
      (1 - insiderFraction x y) * (1 + (x - y)) *
        (2 * insiderFraction x y + (1 - insiderFraction x y) * (1 + (x - y))) := by
    rw [div_eq_iff total]
    linear_combination (1 - insiderFraction x y) * scaled
  rw [square]
  ring

theorem shinProb_eq (rooted : Rooted (Numerics.sqrt : K → K)) (book : Overround x y) :
    shinProb (x + y) (insiderFraction x y) x = x - (x + y - 1) / 2 := by
  have rest : 0 < 1 - insiderFraction x y := sub_pos.mpr book.fraction_lt
  have root_pos : 0 < 1 + (x - y) * (1 - insiderFraction x y) := by
    have below : -1 < x - y := by linarith [book.first.1, book.second.2]
    have part : 0 < (1 + (x - y)) * (1 - insiderFraction x y) := mul_pos (by linarith) rest
    linarith [book.fraction_pos]
  have root : Numerics.sqrt ((1 + (x - y) * (1 - insiderFraction x y)) *
      (1 + (x - y) * (1 - insiderFraction x y))) = 1 + (x - y) * (1 - insiderFraction x y) := by
    obtain ⟨nonneg, square⟩ := rooted _ (mul_pos root_pos root_pos).le
    exact (mul_self_inj nonneg root_pos.le).mp square
  unfold shinProb
  dsimp only
  rw [book.inner_eq, max_eq_left (mul_pos root_pos root_pos).le, root, div_eq_iff (by linarith)]
  ring

omit [Numerics K] in
/-- The denominator is out of the reach of its own tolerance. -/
theorem denom_large (book : Overround x y) (margin : 1 + 1 / 10 ^ 12 < x + y) :
    ¬ |(x + y) * ((x - y) * (x - y) - 1)| ≤ 1 / 10 ^ 15 := by
  have apart : 0 < (1 - x) * (1 - y) :=
    mul_pos (sub_pos.mpr book.first.2) (sub_pos.mpr book.second.2)
  have left : 0 < x * (1 - x) := mul_pos book.first.1 (sub_pos.mpr book.first.2)
  have right : 0 < y * (1 - y) := mul_pos book.second.1 (sub_pos.mpr book.second.2)
  have room : 1 / 10 ^ 12 < 1 - (x - y) * (x - y) := by linarith
  have grown : 1 - (x - y) * (x - y) < (x + y) * (1 - (x - y) * (x - y)) :=
    lt_mul_of_one_lt_left (sub_pos.mpr book.gap) book.margin
  have tiny : (1 : K) / 10 ^ 15 < 1 / 10 ^ 12 := by norm_num
  rw [abs_of_neg book.denom, not_le]
  linarith

/-- What the closed form returns where no clamp moves it. -/
structure Unclamped (x y z : K) : Prop where
  fraction : 0 < z ∧ z < 1
  ends : min (max z 0) (999 / 1000) = z
  radicands : ∀ q ∈ [x, y], 0 ≤ z * z + 4 * (1 - z) * (q * q) / (x + y)

omit [Numerics K] in
theorem unclamped (book : Overround x y) (small : insiderFraction x y ≤ 999 / 1000) :
    Unclamped x y (insiderFraction x y) where
  fraction := ⟨book.fraction_pos, book.fraction_lt⟩
  ends := by rw [max_eq_left book.fraction_pos.le, min_eq_left small]
  radicands q _ := by
    have total : 0 < x + y := zero_lt_one.trans book.margin
    have rest : 0 ≤ 1 - insiderFraction x y := (sub_pos.mpr book.fraction_lt).le
    exact add_nonneg (mul_self_nonneg _)
      (div_nonneg (mul_nonneg (mul_nonneg zero_le_four rest) (mul_self_nonneg q)) total.le)

theorem shin_eq (rooted : Rooted (Numerics.sqrt : K → K)) (book : Overround x y)
    (margin : 1 + 1 / 10 ^ 12 < x + y) (small : insiderFraction x y ≤ 999 / 1000) :
    shin [x, y] = ([x - (x + y - 1) / 2, y - (x + y - 1) / 2], none) := by
  have total : [x, y].sum = x + y := by rw [List.sum_pair]
  have second := book.symm.shinProb_eq rooted
  rw [insiderFraction_comm y x, add_comm y x] at second
  unfold shin
  dsimp only
  rw [total, if_neg margin.not_ge, if_neg (book.denom_large margin)]
  change (([x, y].map (shinProb (x + y) (min (max (insiderFraction x y) 0) (999 / 1000)))),
    none) = _
  rw [(book.unclamped small).ends, List.map_cons, List.map_singleton,
    book.shinProb_eq rooted, second]

omit [Numerics K] in
theorem additive_eq (book : Overround x y) :
    additive [x, y] = ([x - (x + y - 1) / 2, y - (x + y - 1) / 2], none) := by
  have first : ¬ x - (x + y - 1) / 2 ≤ 0 := by linarith [book.first.1, book.second.2]
  have second : ¬ y - (x + y - 1) / 2 ≤ 0 := by linarith [book.second.1, book.first.2]
  simp [additive, first, second]

end Overround

omit [Numerics K] in
theorem overround_inverses {a b : K} (first : 1 < a) (second : 1 < b) (margin : 1 < 1 / a + 1 / b) :
    Overround (1 / a) (1 / b) where
  first := ⟨one_div_pos.mpr (zero_lt_one.trans first),
    (div_lt_one (zero_lt_one.trans first)).mpr first⟩
  second := ⟨one_div_pos.mpr (zero_lt_one.trans second),
    (div_lt_one (zero_lt_one.trans second)).mpr second⟩
  margin := margin

/-- Shin's method tolerates a margin of `1e-12` as no margin. -/
theorem equal_margins (rooted : Rooted (Numerics.sqrt : K → K)) :
    (∀ odds : List K, devigWithDiagnostics odds .differentialMargin =
      (devigWithDiagnostics odds .additive).map fun (p, reason) =>
        (p, reason.map fun _ => .differentialMarginNonPositive)) ∧
      ∀ a b : K, 1 < a → 1 < b → 1 + 1 / 10 ^ 12 < 1 / a + 1 / b →
        insiderFraction (1 / a) (1 / b) ≤ 999 / 1000 →
          devigWithDiagnostics [a, b] .shin = devigWithDiagnostics [a, b] .additive ∧
            Overround.Unclamped (1 / a) (1 / b) (insiderFraction (1 / a) (1 / b)) := by
  refine ⟨differentialMargin_additive, fun a b first second margin small => ?_⟩
  have tolerance : (0 : K) < 1 / 10 ^ 12 := by positivity
  have book := overround_inverses first second (by linarith)
  have above : ∀ o ∈ [a, b], 1 < o := by simp [first, second]
  refine ⟨?_, book.unclamped small⟩
  rw [devigWithDiagnostics_eq (by simp) above, devigWithDiagnostics_eq (by simp) above]
  have priced : inverses [a, b] = [1 / a, 1 / b] := rfl
  simp only [methodShares, priced, book.shin_eq rooted margin small, book.additive_eq]

/-- At three to two on and three to two against. -/
theorem equal_margins_uneven :
    @devigWithDiagnostics ℝ _ _ Numerics.real [3 / 2, 5 / 2] .shin =
        @devigWithDiagnostics ℝ _ _ Numerics.real [3 / 2, 5 / 2] .additive ∧
      Overround.Unclamped (1 / (3 / 2) : ℝ) (1 / (5 / 2))
        (insiderFraction (1 / (3 / 2)) (1 / (5 / 2))) := by
  obtain ⟨-, two⟩ := @equal_margins ℝ _ _ _ Numerics.real rooted_real
  exact two (3 / 2) (5 / 2) (by norm_num) (by norm_num) (by norm_num) (by
    norm_num [insiderFraction])

/-- Two thirds, and a third with `1e-13` of margin. -/
theorem equal_margins_fails :
    ∃ a b : ℝ, 1 < a ∧ 1 < b ∧ 1 < 1 / a + 1 / b ∧
      insiderFraction (1 / a) (1 / b) ≤ 999 / 1000 ∧
      @devig ℝ _ _ Numerics.real [a, b] .shin ≠ @devig ℝ _ _ Numerics.real
        [a, b] .additive := by
  refine ⟨3 / 2, 30000000000000 / 10000000000003, by norm_num, by norm_num, by norm_num,
    by norm_num [insiderFraction], fun same => ?_⟩
  have above : ∀ o ∈ [3 / 2, (30000000000000 / 10000000000003 : ℝ)], 1 < o := by norm_num
  unfold devig at same
  rw [@devigWithDiagnostics_eq ℝ _ _ _ Numerics.real (by simp) above,
    @devigWithDiagnostics_eq ℝ _ _ _ Numerics.real (by simp) above] at same
  have kept : @shin ℝ _ _ Numerics.real (inverses [3 / 2, 30000000000000 / 10000000000003]) =
      (inverses [3 / 2, 30000000000000 / 10000000000003], none) := by
    have fair : isFair (inverses [3 / 2, (30000000000000 / 10000000000003 : ℝ)]) := by
      norm_num [isFair, inverses, abs_lt]
    have low : (inverses [3 / 2, (30000000000000 / 10000000000003 : ℝ)]).sum ≤
        1 + 1 / 10 ^ 12 := by
      norm_num [inverses]
    unfold shin
    dsimp only
    rw [if_pos low, if_pos fair]
  simp only [methodShares, kept] at same
  norm_num [inverses, additive, Except.map] at same

end SharpEvPicks.Probabilities
