import Mathlib.Tactic.Ring
import Mathlib.Tactic.Linarith
import SharpEvPicks.Edge.Spreads
import SharpEvPicks.Settlement.Outcomes

/-! A pair of handicap legs that is devigged as a two-way market, under the grades
it gets at settlement. Quarter lines are counted in quarters, as integers. -/
namespace SharpEvPicks.Settlement

open Python Edge

theorem isInteger_double_quarters (k : Int) : isInteger ((k : ℚ) / 4 * 2) = decide (2 ∣ k) := by
  rw [Bool.eq_iff_iff, isInteger_iff, decide_eq_true_iff]
  constructor
  · rintro ⟨z, equal⟩
    have twice : (k : ℚ) = ((2 * z : Int) : ℚ) := by push_cast; linarith
    exact ⟨z, by exact_mod_cast twice⟩
  · rintro ⟨z, rfl⟩
    exact ⟨z, by push_cast; ring⟩

theorem quarters_pos (n : Int) : (n : ℚ) / 4 > 0 ↔ n > 0 := by
  have scaled : (n : ℚ) / 4 > 0 ↔ (n : ℚ) > 0 := by constructor <;> intro <;> linarith
  rw [scaled]
  exact_mod_cast Iff.rfl

theorem quarters_zero (n : Int) : (n : ℚ) / 4 = 0 ↔ n = 0 := by simp

/-- The grade of a leg that is `n` quarters ahead after its handicap of `k` quarters. -/
def quarterGrade (k n : Int) (integerTiePushes : Bool) : Outcome :=
  if 2 ∣ k then
    if n > 0 then .won else if n = 0 ∧ integerTiePushes then .push else .lost
  else if n > 1 then .won else if n = 1 then .halfWon else if n = -1 then .halfLost else .lost

theorem gradeHandicap_quarters (base k : Int) (integerTiePushes : Bool) :
    gradeHandicap base ((k : ℚ) / 4) integerTiePushes =
      .ok (quarterGrade k (4 * base + k) integerTiePushes) := by
  have ahead (d : Int) : (base : ℚ) + k / 4 + d / 4 = ((4 * base + k + d : Int) : ℚ) / 4 := by
    push_cast
    ring
  have below : (base : ℚ) + k / 4 - 1 / 4 = ((4 * base + k - 1 : Int) : ℚ) / 4 := by
    rw [sub_eq_add_neg (4 * base + k), ← ahead (-1)]
    push_cast
    ring
  have above : (base : ℚ) + k / 4 + 1 / 4 = ((4 * base + k + 1 : Int) : ℚ) / 4 := by
    rw [← ahead 1]
    norm_num
  have level : (base : ℚ) + k / 4 = ((4 * base + k : Int) : ℚ) / 4 := by
    push_cast
    ring
  have split : quarterGrade k (4 * base + k) integerTiePushes = if 2 ∣ k then _ else _ := rfl
  rw [split, gradeHandicap, isInteger_double_quarters]
  by_cases even : 2 ∣ k
  · simp only [even, decide_true, not_true, if_false, if_true, level, quarters_pos, quarters_zero]
    cases integerTiePushes <;> split_ifs <;> simp_all
  · have odd : ¬ 2 ∣ 4 * base + k := by omega
    simp only [even, decide_false, Bool.false_eq_true, not_false_iff, if_true, if_false,
      below, above, ahComponent, quarters_pos, quarters_zero]
    generalize 4 * base + k = n at odd
    obtain behind | last | first | ahead : n < -1 ∨ n = -1 ∨ n = 1 ∨ n > 1 := by omega
    · have signs : ¬ n - 1 > 0 ∧ ¬ n - 1 = 0 ∧ ¬ n + 1 > 0 ∧ ¬ n + 1 = 0 := by omega
      have grade : ¬ n > 1 ∧ ¬ n = 1 ∧ ¬ n = -1 := by omega
      simp only [signs, grade, if_false]
      decide
    · subst last; decide
    · subst first; decide
    · have signs : n - 1 > 0 ∧ n + 1 > 0 := by omega
      simp only [signs, ahead, if_true]
      decide

def Mirrors : Outcome → Outcome → Prop
  | .won, .lost | .lost, .won | .halfWon, .halfLost | .halfLost, .halfWon | .push, .push => True
  | _, _ => False

instance : DecidableRel Mirrors := fun o o' => by
  cases o <;> cases o' <;> unfold Mirrors <;> infer_instance

/-- Opposite lines make opposite margins, and only the adjusted tie of an even
number of quarters has a grade that is not turned over with the margin. -/
theorem quarterGrade_mirrors (base k : Int) (pushes : Bool) :
    Mirrors (quarterGrade k (4 * base + k) pushes) (quarterGrade (-k) (4 * -base + -k) pushes) ↔
      pushes = true ∨ 4 * base + k ≠ 0 := by
  have turned : 4 * -base + -k = -(4 * base + k) := by ring
  have parity : 2 ∣ 4 * base + k ↔ 2 ∣ k := by omega
  rw [turned]
  generalize 4 * base + k = n at parity
  unfold quarterGrade
  by_cases even : 2 ∣ k
  · have turnedEven : (2 : Int) ∣ -k := by omega
    simp only [even, turnedEven, if_true]
    obtain behind | tie | ahead : n < 0 ∨ n = 0 ∨ n > 0 := by omega
    · have signs : ¬ n > 0 ∧ ¬ n = 0 := by omega
      simp [signs, behind, Mirrors]
    · subst tie
      cases pushes <;> simp [Mirrors]
    · have signs : n ≠ 0 ∧ ¬ n < 0 := by omega
      simp [signs, ahead, Mirrors]
  · have turnedOdd : ¬ (2 : Int) ∣ -k := by omega
    have odd : ¬ (2 : Int) ∣ n := by omega
    simp only [even, turnedOdd, if_false]
    obtain behind | last | first | ahead : n < -1 ∨ n = -1 ∨ n = 1 ∨ n > 1 := by omega
    · have signs : ¬ n > 1 ∧ ¬ n = 1 ∧ ¬ n = -1 ∧ -n > 1 ∧ n ≠ 0 := by omega
      simp [signs, Mirrors]
    · subst last; simp [Mirrors]
    · subst first; simp [Mirrors]
    · have signs : ¬ -n > 1 ∧ ¬ -n = 1 ∧ ¬ -n = -1 ∧ n ≠ 0 := by omega
      simp [signs, ahead, Mirrors]

section Legs
variable [Unicode]

theorem ehDrawMatch_leg (team : Str) {line : Str} (number : isSigned line) :
    ehDrawMatch (team ++ ' ' :: line) = none := by
  obtain ⟨front, last, rfl⟩ :=
    List.eq_nil_or_concat line |>.resolve_left (isSigned_ne_nil number)
  have noBracket : last ≠ ')' := by
    rintro rfl
    exact isSigned_no_bracket number (by simp)
  unfold ehDrawMatch
  split
  · rename_i rest text
    refine if_neg fun closed => ?_
    obtain ⟨inner, ended⟩ := List.getLast?_eq_some_iff.mp closed.1
    have ends := congrArg List.getLast? text
    simp [ended, List.getLast?_append, List.getLast?_cons] at ends
    exact noBracket ends
  · rfl

theorem teamLine_leg {team line : Str} (some : team ≠ []) (number : isSigned line) :
    teamLine (team ++ ' ' :: line) = .some (team, line) := by
  rw [teamLine, rpartition_append ' ' team line (isSigned_no_blank number)]
  simp [some, number]

theorem settle_leg {team line : Str} (named : team ≠ []) (notDraw : team ≠ "Draw".toList)
    (number : isSigned line) {hs as_ : Int} (homePlayed : 0 ≤ hs) (awayPlayed : 0 ≤ as_)
    {sportKey : Option Str} (notTennis : sportKey ≠ some "tennis".toList) (home away : Str)
    (detail : Option Str) :
    settleSelection .spreads (team ++ ' ' :: line) home away hs as_ sportKey detail =
      let pushes := sportIn sportKey twoWayHandicapSports
      if team = home then gradeHandicap (hs - as_) (floatValue line) pushes
      else if team = away then gradeHandicap (as_ - hs) (floatValue line) pushes
      else .error .neitherTeam := by
  have played : ¬ (hs < 0 ∨ as_ < 0) := by omega
  simp only [settleSelection, played, notTennis, false_and, if_false, settleSpreads,
    ehDrawMatch_leg team number, teamLine_leg named number, notDraw]

/-- Both legs of the pair are graded, and the grades are mirror images. -/
def SettlesMirrored (home lineA away lineB : Str) (hs as_ : Int) (sportKey detail : Option Str) :
    Prop :=
  ∃ o o', settleSelection .spreads (home ++ ' ' :: lineA) home away hs as_ sportKey detail =
    .ok o ∧
    settleSelection .spreads (away ++ ' ' :: lineB) home away hs as_ sportKey detail = .ok o' ∧
    Mirrors o o'

theorem spreadPair_mirrored_iff (home lineA away lineB : Str) (hs as_ : Int)
    (sportKey detail : Option Str) (numberA : isSigned lineA) (numberB : isSigned lineB)
    (accepted : spreadPairCoherent [home ++ ' ' :: lineA, away ++ ' ' :: lineB])
    (quarters : isInteger (floatValue lineA * 4)) (distinct : home ≠ away)
    (homeNamed : home ≠ "Draw".toList) (awayNamed : away ≠ "Draw".toList)
    (notTennis : sportKey ≠ some "tennis".toList) (homePlayed : 0 ≤ hs)
    (awayPlayed : 0 ≤ as_) :
    SettlesMirrored home lineA away lineB hs as_ sportKey detail ↔
      sportIn sportKey twoWayHandicapSports ∨ (hs : ℚ) + floatValue lineA ≠ as_ := by
  obtain ⟨someHome, someAway, opposite⟩ := complementary_legs numberA numberB accepted
  obtain ⟨k, scaled⟩ := (isInteger_iff _).mp quarters
  have line : floatValue lineA = (k : ℚ) / 4 := by linarith
  have otherLine : floatValue lineB = ((-k : Int) : ℚ) / 4 := by
    rw [opposite, line]
    push_cast
    ring
  have tie : (hs : ℚ) + (k : ℚ) / 4 ≠ as_ ↔ 4 * (hs - as_) + k ≠ 0 := by
    have scaledTie : (hs : ℚ) + (k : ℚ) / 4 = as_ ↔
        ((4 * (hs - as_) + k : Int) : ℚ) = 0 := by
      push_cast
      constructor <;> intro <;> linarith
    rw [ne_eq, not_congr scaledTie]
    exact_mod_cast Iff.rfl
  have margin : as_ - hs = -(hs - as_) := by ring
  simp only [SettlesMirrored, settle_leg someHome homeNamed numberA homePlayed awayPlayed notTennis,
    settle_leg someAway awayNamed numberB homePlayed awayPlayed notTennis, distinct.symm, if_true,
    if_false, line, otherLine, gradeHandicap_quarters, Except.ok.injEq]
  rw [tie, ← quarterGrade_mirrors, ← margin]
  constructor
  · rintro ⟨o, o', rfl, rfl, mirrors⟩
    exact mirrors
  · intro mirrors
    exact ⟨_, _, rfl, rfl, mirrors⟩

end Legs

theorem spreadPair_mirrored_basketball :
    @SettlesMirrored Unicode.ascii "Lakers".toList "-3".toList "Celtics".toList "+3".toList 100 97
      (some "basketball".toList) none :=
  (@spreadPair_mirrored_iff Unicode.ascii "Lakers".toList "-3".toList "Celtics".toList "+3".toList
    100 97 (some "basketball".toList) none (by decide) (by decide) (by decide) (by decide +kernel)
    (by decide) (by decide) (by decide) (by decide) (by decide) (by decide)).mpr (.inl (by decide))

/-- A level soccer handicap is accepted for devigging and loses on both sides of a draw. -/
theorem spreadPair_bothLose :
    @spreadPairCoherent Unicode.ascii ["Ajax +0".toList, "PSV +0".toList] = true ∧
      ¬ @SettlesMirrored Unicode.ascii "Ajax".toList "+0".toList "PSV".toList "+0".toList 1 1
        (some "soccer".toList) none := by
  refine ⟨by decide, ?_⟩
  rintro ⟨o, o', first, second, mirrors⟩
  have lost : @settleSelection Unicode.ascii .spreads
    ("Ajax".toList ++ ' ' :: "+0".toList) "Ajax".toList
    "PSV".toList 1 1 (some "soccer".toList) none = .ok .lost := by decide +kernel
  have alsoLost : @settleSelection Unicode.ascii .spreads ("PSV".toList ++ ' ' :: "+0".toList)
    "Ajax".toList "PSV".toList 1 1 (some "soccer".toList) none = .ok .lost := by decide +kernel
  cases lost.symm.trans first
  cases alsoLost.symm.trans second
  exact mirrors

end SharpEvPicks.Settlement
