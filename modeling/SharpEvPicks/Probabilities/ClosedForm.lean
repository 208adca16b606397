import Mathlib.Algebra.Order.BigOperators.Group.List
import Mathlib.Analysis.SpecialFunctions.Sqrt
import SharpEvPicks.Probabilities.Reordering

/-! The closed-form methods of `app/probabilities/devig.py` in exact arithmetic: positive shares
of one, in the reverse order of the prices. -/
namespace SharpEvPicks.Probabilities

section
variable {K : Type*} [Field K] [LinearOrder K] [IsStrictOrderedRing K]

/-! Shares by one function of a price. -/

/-- On the prices of a market `share` is positive and falls as the price rises. -/
structure Falling (odds : List K) (share : K → K) : Prop where
  positive : ∀ o ∈ odds, 0 < share o
  reversing : ∀ a ∈ odds, ∀ b ∈ odds, a < b → share b < share a

theorem sum_map_pos {odds : List K} {share : K → K} (some : odds ≠ [])
    (positive : ∀ o ∈ odds, 0 < share o) : 0 < (odds.map share).sum := by
  apply List.sum_pos
  · intro x listed
    obtain ⟨o, quoted, rfl⟩ := List.mem_map.mp listed
    exact positive o quoted
  · simpa using some

theorem Falling.div {odds : List K} {share : K → K} (falling : Falling odds share) {total : K}
    (some : 0 < total) : Falling odds fun o => share o / total where
  positive o quoted := div_pos (falling.positive o quoted) some
  reversing a ha b hb lt := (div_lt_div_iff_of_pos_right some).mpr (falling.reversing a ha b hb lt)

omit [LinearOrder K] [IsStrictOrderedRing K] in
theorem sum_div (l : List K) (total : K) : (l.map (· / total)).sum = l.sum / total := by
  induction l with
  | nil => exact (zero_div total).symm
  | cons x l ih => rw [List.map_cons, List.sum_cons, ih, List.sum_cons, add_div]

omit [IsStrictOrderedRing K] in
theorem sum_normalized {l : List K} (some : 0 < l.sum) : (l.map (· / l.sum)).sum = 1 := by
  rw [sum_div, div_self some.ne']

omit [IsStrictOrderedRing K] in
theorem normalized_multiplicative {q : List K} (some : 0 < q.sum) :
    (multiplicative q).map (· / (multiplicative q).sum) = multiplicative q := by
  have one : (multiplicative q).sum = 1 := sum_normalized some
  simp only [one, div_one, List.map_id']

/-- Two different members of a list of non-negative terms take part in its sum. -/
theorem pair_le_sum {l : List K} {f : K → K} (nonneg : ∀ x ∈ l, 0 ≤ f x) {a b : K}
    (ha : a ∈ l) (hb : b ∈ l) (ne : b ≠ a) : f a + f b ≤ (l.map f).sum := by
  have laid : l.Perm (a :: b :: (l.erase a).erase b) := by
    have rest : b ∈ l.erase a := (List.mem_erase_of_ne ne).mpr hb
    exact (List.perm_cons_erase ha).trans ((List.perm_cons_erase rest).cons a)
  have others : 0 ≤ (((l.erase a).erase b).map f).sum := by
    apply List.sum_nonneg
    intro y listed
    obtain ⟨x, inside, rfl⟩ := List.mem_map.mp listed
    exact nonneg x (List.mem_of_mem_erase (List.mem_of_mem_erase inside))
  rw [(laid.map f).sum_eq, List.map_cons, List.map_cons, List.sum_cons, List.sum_cons]
  linarith

/-! What a method makes of the inverse prices. -/

def inverses (odds : List K) : List K := odds.map fun o => 1 / o

/-- The shares of one method, before they are normalized. -/
structure Applied (odds : List K) (raw : K → K) (result : List K × Option DevigFallbackReason) :
    Prop where
  listed : result.1 = odds.map raw
  falling : Falling odds raw
  fellBack : result.2.isSome → result.1 = multiplicative (inverses odds)
  fair : (inverses odds).sum = 1 → result.1 = inverses odds

variable {odds : List K}

theorem falling_inverse (above : ∀ o ∈ odds, 1 < o) : Falling odds fun o => 1 / o where
  positive o quoted := one_div_pos.mpr (zero_lt_one.trans (above o quoted))
  reversing a ha _ _ lt := one_div_lt_one_div_of_lt (zero_lt_one.trans (above a ha)) lt

theorem inverses_sum_pos (some : odds ≠ []) (above : ∀ o ∈ odds, 1 < o) :
    0 < (inverses odds).sum :=
  sum_map_pos some (falling_inverse above).positive

theorem multiplicative_applied (some : odds ≠ []) (above : ∀ o ∈ odds, 1 < o)
    (reason : Option DevigFallbackReason) :
    Applied odds (fun o => 1 / o / (inverses odds).sum)
      (multiplicative (inverses odds), reason) where
  listed := List.map_map
  falling := (falling_inverse above).div (inverses_sum_pos some above)
  fellBack _ := rfl
  fair one := by
    change multiplicative (inverses odds) = inverses odds
    unfold multiplicative
    simp only [one, div_one, List.map_id']

theorem inverses_lt_one (above : ∀ o ∈ odds, 1 < o) {x : K} (listed : x ∈ inverses odds) :
    x < 1 := by
  obtain ⟨o, quoted, rfl⟩ := List.mem_map.mp listed
  have gt := above o quoted
  exact (div_lt_one (zero_lt_one.trans gt)).mpr gt

theorem inverses_pos (above : ∀ o ∈ odds, 1 < o) {x : K} (listed : x ∈ inverses odds) :
    0 < x := by
  obtain ⟨o, quoted, rfl⟩ := List.mem_map.mp listed
  exact (falling_inverse above).positive o quoted

omit [IsStrictOrderedRing K] in
theorem pos_of_any {l : List K} (none : l.any (· ≤ 0) = false) {x : K} (listed : x ∈ l) :
    0 < x := by
  have kept := List.any_eq_false.mp none x listed
  simpa using kept

theorem additive_applied (some : odds ≠ []) (above : ∀ o ∈ odds, 1 < o) :
    ∃ raw, Applied odds raw (additive (inverses odds)) := by
  unfold additive
  dsimp only
  split
  · exact ⟨_, multiplicative_applied some above _⟩
  · rename_i positive
    rw [Bool.not_eq_true] at positive
    refine ⟨fun o => 1 / o - ((inverses odds).sum - 1) / (inverses odds).length,
      List.map_map, ⟨?_, ?_⟩, fun fell => absurd fell Bool.false_ne_true, fun one => ?_⟩
    · intro o quoted
      exact pos_of_any positive (List.mem_map.mpr
        ⟨1 / o, List.mem_map.mpr ⟨o, quoted, rfl⟩, rfl⟩)
    · intro a ha b hb lt
      exact sub_lt_sub_right ((falling_inverse above).reversing a ha b hb lt) _
    · simp only [one, sub_self, zero_div, sub_zero, List.map_id']

omit [IsStrictOrderedRing K] in
/-- The price cancels: the margin is taken off in equal parts. -/
theorem differential_share {n m o : K} (positive : 0 < n) (priced : 0 < o) :
    (n - m * o) / (n * o) = 1 / o - m / n := by
  field_simp

theorem differentialMargin_applied (some : odds ≠ []) (above : ∀ o ∈ odds, 1 < o) :
    ∃ raw, Applied odds raw (differentialMargin odds (inverses odds)) := by
  have count : (0 : K) < odds.length := by
    rw [Nat.cast_pos]
    exact List.length_pos_iff.mpr some
  have share (o : K) (quoted : o ∈ odds) (m : K) :=
    differential_share (m := m) count (zero_lt_one.trans (above o quoted))
  unfold differentialMargin
  dsimp only
  split
  · exact ⟨_, multiplicative_applied some above _⟩
  · split
    · exact ⟨_, multiplicative_applied some above _⟩
    · rename_i inside
      simp only [Bool.or_eq_true, not_or, Bool.not_eq_true] at inside
      refine ⟨_, rfl, ⟨?_, ?_⟩, fun fell => absurd fell Bool.false_ne_true, fun one => ?_⟩
      · intro o quoted
        exact pos_of_any inside.1 (List.mem_map.mpr ⟨o, quoted, rfl⟩)
      · intro a ha b hb lt
        rw [share a ha, share b hb]
        exact sub_lt_sub_right ((falling_inverse above).reversing a ha b hb lt) _
      · apply List.map_congr_left
        intro o quoted
        rw [share o quoted, one, sub_self, zero_div, sub_zero]

/-! The shrink by equal units of standard error. -/

/-- A square root for each value that has one. -/
def Rooted (sqrt : K → K) : Prop := ∀ x, 0 ≤ x → 0 ≤ sqrt x ∧ sqrt x * sqrt x = x

omit [IsStrictOrderedRing K] in
theorem Rooted.pos {sqrt : K → K} (rooted : Rooted sqrt) {x : K} (positive : 0 < x) :
    0 < sqrt x := by
  obtain ⟨nonneg, square⟩ := rooted x positive.le
  apply lt_of_le_of_ne nonneg
  rintro zero
  rw [← zero, mul_zero] at square
  exact positive.ne square

/-- The shrink keeps the order of `a` and `b` unless the step takes back the sum of their errors. -/
theorem shrink_lt {sqrt : K → K} (rooted : Rooted sqrt) {a b step : K} (lt : a < b)
    (below : b < 1) (small : -(sqrt (1 - a) + sqrt (1 - b)) < step) :
    a - step * sqrt (1 - a) < b - step * sqrt (1 - b) := by
  obtain ⟨nonnegA, squareA⟩ := rooted (1 - a) (by linarith)
  obtain ⟨nonnegB, squareB⟩ := rooted (1 - b) (by linarith)
  have wider : sqrt (1 - b) < sqrt (1 - a) := by
    by_contra narrow
    have squares : sqrt (1 - a) * sqrt (1 - a) ≤ sqrt (1 - b) * sqrt (1 - b) :=
      mul_self_le_mul_self nonnegA (not_lt.mp narrow)
    linarith
  have gain : 0 < (sqrt (1 - a) - sqrt (1 - b)) * (sqrt (1 - a) + sqrt (1 - b) + step) :=
    mul_pos (sub_pos.mpr wider) (by linarith)
  have spread : (sqrt (1 - a) - sqrt (1 - b)) * (sqrt (1 - a) + sqrt (1 - b) + step) =
      (b - step * sqrt (1 - b)) - (a - step * sqrt (1 - a)) := by
    linear_combination squareA - squareB
  linarith

/-- The step is smaller than the errors of any two outcomes together. -/
theorem step_bound {sqrt : K → K} (rooted : Rooted sqrt) {q : List K}
    (positive : ∀ x ∈ q, 0 < x) (below : ∀ x ∈ q, x < 1) {a b : K} (ha : a ∈ q)
    (hb : b ∈ q) (ne : b ≠ a) :
    -(sqrt (1 - a) + sqrt (1 - b)) < (q.sum - 1) / (q.map fun x => sqrt (1 - x)).sum := by
  have errorA := rooted.pos (sub_pos.mpr (below a ha))
  have errorB := rooted.pos (sub_pos.mpr (below b hb))
  have errors : sqrt (1 - a) + sqrt (1 - b) ≤ (q.map fun x => sqrt (1 - x)).sum :=
    pair_le_sum (fun x inside => (rooted.pos (sub_pos.mpr (below x inside))).le) ha hb ne
  have both : a + b ≤ q.sum := by
    have pair := pair_le_sum (f := id) (fun x inside => (positive x inside).le) ha hb ne
    rwa [List.map_id] at pair
  have total : 0 < (q.map fun x => sqrt (1 - x)).sum := by linarith
  obtain ⟨-, squareA⟩ := rooted (1 - a) (sub_nonneg.mpr (below a ha).le)
  obtain ⟨-, squareB⟩ := rooted (1 - b) (sub_nonneg.mpr (below b hb).le)
  rw [lt_div_iff₀ total]
  have cross : 0 ≤ sqrt (1 - a) * sqrt (1 - b) := mul_nonneg errorA.le errorB.le
  have scaled : (sqrt (1 - a) + sqrt (1 - b)) * (sqrt (1 - a) + sqrt (1 - b)) ≤
      (sqrt (1 - a) + sqrt (1 - b)) * (q.map fun x => sqrt (1 - x)).sum :=
    mul_le_mul_of_nonneg_left errors (by linarith)
  linarith

theorem goto_applied [Numerics K] (rooted : Rooted (Numerics.sqrt : K → K)) (some : odds ≠ [])
    (above : ∀ o ∈ odds, 1 < o) : ∃ raw, Applied odds raw (goto (inverses odds)) := by
  unfold goto
  dsimp only
  split
  · exact ⟨_, rfl, falling_inverse above, fun fell => absurd fell Bool.false_ne_true,
      fun _ => rfl⟩
  · rename_i unfair
    split
    · exact ⟨_, multiplicative_applied some above _⟩
    · rename_i positive
      rw [Bool.not_eq_true] at positive
      refine ⟨_, List.map_map, ⟨?_, ?_⟩, fun fell => absurd fell Bool.false_ne_true,
        fun one => ?_⟩
      · intro o quoted
        exact pos_of_any positive (List.mem_map.mpr
          ⟨1 / o, List.mem_map.mpr ⟨o, quoted, rfl⟩, rfl⟩)
      · intro a ha b hb lt
        have implied := (falling_inverse above).reversing a ha b hb lt
        have listed (o : K) (quoted : o ∈ odds) : 1 / o ∈ inverses odds :=
          List.mem_map.mpr ⟨o, quoted, rfl⟩
        apply shrink_lt rooted implied (inverses_lt_one above (listed a ha))
        exact step_bound rooted (fun x => inverses_pos above) (fun x => inverses_lt_one above)
          (listed b hb) (listed a ha) implied.ne'
      · apply absurd _ unfair
        unfold isFair
        rw [one, sub_self, abs_zero]
        positivity

/-! What the dispatcher returns. -/

def closedForm : List DevigMethod := [.multiplicative, .additive, .differentialMargin, .goto]

variable [Numerics K]

theorem methodShares_applied (rooted : Rooted (Numerics.sqrt : K → K)) {method : DevigMethod}
    (closed : method ∈ closedForm) (some : odds ≠ []) (above : ∀ o ∈ odds, 1 < o) :
    ∃ raw result, methodShares method odds (inverses odds) = .ok result ∧
      Applied odds raw result := by
  cases method with
  | multiplicative => exact ⟨_, _, rfl, multiplicative_applied some above none⟩
  | additive =>
    obtain ⟨raw, applied⟩ := additive_applied some above
    exact ⟨raw, _, rfl, applied⟩
  | differentialMargin =>
    obtain ⟨raw, applied⟩ := differentialMargin_applied some above
    exact ⟨raw, _, rfl, applied⟩
  | goto =>
    obtain ⟨raw, applied⟩ := goto_applied rooted some above
    exact ⟨raw, _, rfl, applied⟩
  | power | shin | probit | oddsRatio | logarithmic => simp [closedForm] at closed

/-- One function of a price gives every listing of the market its probabilities. -/
structure Contract (odds : List K) (method : DevigMethod) (share : K → K)
    (reason : Option DevigFallbackReason) : Prop where
  reported : ∀ odds', odds'.Perm odds →
    devigWithDiagnostics odds' method = .ok (odds'.map share, reason)
  returned : ∀ odds', odds'.Perm odds → devig odds' method = .ok (odds'.map share)
  positive : ∀ o ∈ odds, 0 < share o
  one : (odds.map share).sum = 1
  reversing : ∀ a ∈ odds, ∀ b ∈ odds, a < b → share b < share a
  fellBack : reason.isSome → devig odds .multiplicative = .ok (odds.map share)
  fair : (inverses odds).sum = 1 → odds.map share = inverses odds

omit [IsStrictOrderedRing K] in
theorem devigWithDiagnostics_eq (enough : 2 ≤ odds.length) (above : ∀ o ∈ odds, 1 < o)
    (method : DevigMethod) :
    devigWithDiagnostics odds method = (methodShares method odds (inverses odds)).map
      fun (p, reason) => (p.map (· / p.sum), reason) := by
  have valid : odds.any (· ≤ 1) = false := by
    rw [List.any_eq_false]
    intro o quoted low
    exact (above o quoted).not_ge (of_decide_eq_true low)
  unfold devigWithDiagnostics
  rw [if_neg enough.not_gt, valid]
  rfl

omit [Field K] [LinearOrder K] [IsStrictOrderedRing K] [Numerics K] in
theorem Reordered.of_ok {ρ : Type*} {l l' p : List K} {reason : ρ}
    {r : Except DevigError (List K × ρ)} (both : Reordered l l' (.ok (p, reason)) r) :
    ∃ share, p = l.map share ∧ r = .ok (l'.map share, reason) := by
  cases both with
  | ok share _ => exact ⟨share, rfl, rfl⟩

omit [IsStrictOrderedRing K] in
/-- Every listing of a market is served by the function that serves one of them. -/
theorem reported_perm {method : DevigMethod} {share : K → K} {reason : Option DevigFallbackReason}
    (reported : devigWithDiagnostics odds method = .ok (odds.map share, reason)) {odds' : List K}
    (perm : odds'.Perm odds) :
    devigWithDiagnostics odds' method = .ok (odds'.map share, reason) := by
  have both := devigWithDiagnostics_reordered method perm.symm
  rw [reported] at both
  obtain ⟨share', same, served⟩ := both.of_ok
  have agree := List.map_inj_left.mp same
  have shares : odds'.map share' = odds'.map share := by
    apply List.map_congr_left
    intro o quoted
    exact (agree o (perm.mem_iff.mp quoted)).symm
  rw [served, shares]

theorem closed_form_contract (rooted : Rooted (Numerics.sqrt : K → K)) {method : DevigMethod}
    (closed : method ∈ closedForm) (enough : 2 ≤ odds.length) (above : ∀ o ∈ odds, 1 < o) :
    ∃ share reason, Contract odds method share reason := by
  have some : odds ≠ [] := by
    rintro rfl
    cases enough
  obtain ⟨raw, ⟨p, reason⟩, shares, applied⟩ :=
    methodShares_applied rooted closed some above
  obtain rfl : p = odds.map raw := applied.listed
  have total : 0 < (odds.map raw).sum := sum_map_pos some applied.falling.positive
  have falling := applied.falling.div total
  have reported : devigWithDiagnostics odds method =
      .ok (odds.map fun o => raw o / (odds.map raw).sum, reason) := by
    rw [devigWithDiagnostics_eq enough above, shares]
    simp only [Except.map, List.map_map, Function.comp_def]
  have normalized : (odds.map fun o => raw o / (odds.map raw).sum) =
      (odds.map raw).map (· / (odds.map raw).sum) := by
    rw [List.map_map]
    rfl
  refine ⟨_, reason, fun odds' perm => reported_perm reported perm, fun odds' perm => ?_,
    falling.positive, ?_, falling.reversing, fun fell => ?_, fun one => ?_⟩
  · rw [devig, reported_perm reported perm]
    rfl
  · rw [normalized, sum_normalized total]
  · have same : odds.map raw = multiplicative (inverses odds) := applied.fellBack fell
    rw [normalized, same, normalized_multiplicative (inverses_sum_pos some above), devig,
      devigWithDiagnostics_eq enough above]
    simp only [methodShares, Except.map, normalized_multiplicative (inverses_sum_pos some above)]
  · have same : odds.map raw = inverses odds := applied.fair one
    rw [normalized, same, one]
    simp only [div_one, List.map_id']

end

/-- The reals with their own square root. -/
@[reducible] noncomputable def Numerics.real : Numerics ℝ :=
  { Numerics.trivial with sqrt := Real.sqrt }

theorem rooted_real : Rooted Real.sqrt := fun x nonneg =>
  ⟨Real.sqrt_nonneg x, Real.mul_self_sqrt nonneg⟩

theorem closed_form_contract_goto :
    ∃ share reason, @Contract ℝ _ _ Numerics.real [3 / 2, 3, 4] .goto share reason :=
  @closed_form_contract ℝ _ _ _ [3 / 2, 3, 4] Numerics.real rooted_real .goto (by
    decide) (by decide)
    (by norm_num)

end SharpEvPicks.Probabilities
