import SharpEvPicks.Settlement.Bets
import SharpEvPicks.Settlement.SpreadPairs

/-! Markets of two selections: on quarter lines both are graded, and the grades are mirror images.
-/
namespace SharpEvPicks.Settlement

open Python Resolution

/-- Both selections are graded, to mirror images. -/
def ZeroSum (grade grade' : Except Refusal Outcome) : Prop :=
  ∃ o o', grade = .ok o ∧ grade' = .ok o' ∧ Mirrors o o'

theorem zeroSum_ok {o o' : Outcome} (mirrors : Mirrors o o') : ZeroSum (.ok o) (.ok o') :=
  ⟨o, o', rfl, rfl, mirrors⟩

theorem zeroSum_won (condition : Bool) : ZeroSum (.ok (won condition)) (.ok (won !condition)) := by
  cases condition
  · exact zeroSum_ok trivial
  · exact zeroSum_ok trivial

/-! A total is a handicap on the number of goals whose tie pushes. -/

theorem isInteger_neg (q : ℚ) : isInteger (-q) = isInteger q := by simp [isInteger]

theorem gradeTotal_over (line : ℚ) (total : Int) :
    gradeTotal .over line total = gradeHandicap total (-line) true := by
  have whole : isInteger (-line * 2) = isInteger (line * 2) := by rw [neg_mul, isInteger_neg]
  have below : (total : ℚ) + -line - 1 / 4 = total - (line + 1 / 4) := by ring
  have above : (total : ℚ) + -line + 1 / 4 = total - (line - 1 / 4) := by ring
  have ahead : (total : ℚ) + -line > 0 ↔
    (total : ℚ) > line := by constructor <;> intro <;> linarith
  have level : (total : ℚ) + -line = 0 ↔
    (total : ℚ) = line := by constructor <;> intro <;> linarith
  unfold gradeTotal gradeHandicap
  rw [whole]
  split
  · rw [below, above, Finset.pair_comm]
    rfl
  · simp only [ahead, level, if_true]
    split
    · rename_i tie
      rw [if_neg (by rw [tie]; exact lt_irrefl _)]
    · split <;> simp_all [won]

theorem gradeTotal_under (line : ℚ) (total : Int) :
    gradeTotal .under line total = gradeHandicap (-total) line true := by
  have below : ((-total : Int) : ℚ) + line - 1 / 4 = line - 1 / 4 - total := by
    push_cast
    ring
  have above : ((-total : Int) : ℚ) + line + 1 / 4 = line + 1 / 4 - total := by
    push_cast
    ring
  have ahead : ((-total : Int) : ℚ) + line > 0 ↔ (total : ℚ) < line := by
    push_cast
    constructor <;> intro <;> linarith
  have level : ((-total : Int) : ℚ) + line = 0 ↔ (total : ℚ) = line := by
    push_cast
    constructor <;> intro <;> linarith
  unfold gradeTotal gradeHandicap
  split
  · rw [below, above]
    rfl
  · simp only [ahead, level, if_true]
    split
    · rename_i tie
      rw [if_neg (by rw [tie]; exact lt_irrefl _)]
    · rename_i other
      by_cases under : (total : ℚ) < line
      · simp [under, under.le, won]
      · simp [under, lt_of_le_of_ne (not_lt.mp under) (Ne.symm other), won]

/-- Opposite quarter lines on opposite margins. -/
theorem gradeHandicap_zeroSum (base : Int) {line : ℚ} (pushes : Bool)
    (quarters : isInteger (line * 4)) (untied : pushes = true ∨ ¬ isInteger line) :
    ZeroSum (gradeHandicap base line pushes) (gradeHandicap (-base) (-line) pushes) := by
  obtain ⟨k, scaled⟩ := (isInteger_iff _).mp quarters
  obtain rfl : line = (k : ℚ) / 4 := by linarith
  have opposite : -((k : ℚ) / 4) = ((-k : Int) : ℚ) / 4 := by
    push_cast
    ring
  rw [opposite, gradeHandicap_quarters, gradeHandicap_quarters]
  refine zeroSum_ok ((quarterGrade_mirrors base k pushes).mpr
    (untied.imp_right fun broken tie => ?_))
  have whole : (k : ℚ) / 4 = ((-base : Int) : ℚ) := by
    obtain rfl : k = -(4 * base) := by omega
    push_cast
    ring
  exact broken ((isInteger_iff _).mpr ⟨-base, whole⟩)

/-! Halves. -/

theorem half_of_gradeHandicap {base : Int} {line : ℚ} {pushes : Bool} {o : Outcome}
    (half : o = .halfWon ∨ o = .halfLost) (graded : gradeHandicap base line pushes = .ok o) :
    ¬ isInteger (line * 2) := by
  intro whole
  unfold gradeHandicap at graded
  simp only [whole, not_true, if_false] at graded
  by_cases ahead : (base : ℚ) + line > 0
  · rw [if_pos ahead] at graded
    obtain rfl | rfl := half <;> cases graded
  · rw [if_neg ahead] at graded
    by_cases tie : (base : ℚ) + line = 0
    · rw [if_pos tie] at graded
      obtain rfl | rfl := half <;> cases pushes <;> cases graded
    · rw [if_neg tie] at graded
      obtain rfl | rfl := half <;> cases graded

theorem won_not_half {condition : Bool} {o : Outcome} (half : o = .halfWon ∨ o = .halfLost)
    (graded : (Except.ok (won condition) : Except Refusal Outcome) = .ok o) : False := by
  obtain rfl | rfl := half <;> cases condition <;> cases graded

/-- The line that a bet is on, for a total or a team's handicap. -/
def Bet.line : Bet → Option ℚ
  | .total _ line => some line
  | .handicap _ line => some line
  | _ => none

theorem half_of_gradeBet {sportKey : Option Str} {b : Bet} {hs as_ : Int} {o : Outcome}
    (half : o = .halfWon ∨ o = .halfLost) (graded : gradeBet sportKey b hs as_ = .ok o) :
    ∃ line, b.line = some line ∧ ¬ isInteger (line * 2) := by
  have pushed : (Except.ok .push : Except Refusal Outcome) ≠ .ok o := by
    obtain rfl | rfl := half
    · exact fun same => by cases same
    · exact fun same => by cases same
  cases b with
  | total direction line =>
    refine ⟨line, rfl, ?_⟩
    rcases direction with _ | _
    · rw [gradeBet, gradeTotal_over] at graded
      have broken := half_of_gradeHandicap half graded
      rwa [neg_mul, isInteger_neg] at broken
    · rw [gradeBet, gradeTotal_under] at graded
      exact half_of_gradeHandicap half graded
  | handicap s line => exact ⟨line, rfl, half_of_gradeHandicap half graded⟩
  | side s =>
    simp only [gradeBet] at graded
    split at graded
    · exact absurd graded pushed
    · exact (won_not_half half graded).elim
  | drawNoBet s =>
    simp only [gradeBet] at graded
    split at graded
    · exact absurd graded pushed
    · exact (won_not_half half graded).elim
  | draw => exact (won_not_half half graded).elim
  | bothScore yes => exact (won_not_half half graded).elim
  | sideOrDraw s => exact (won_not_half half graded).elim
  | eitherSide => exact (won_not_half half graded).elim
  | handicapDraw line => exact (won_not_half half graded).elim

section Legs
variable [Unicode]

theorem half_of_settleSelection {market : Market} {selection home away : Str} {hs as_ : Int}
    {sportKey detail : Option Str} {o : Outcome} (half : o = .halfWon ∨ o = .halfLost)
    (graded : settleSelection market selection home away hs as_ sportKey detail = .ok o) :
    ∃ b line, readBet market selection home away = .ok b ∧ b.line = some line ∧ ¬ isInteger
      (line * 2) := by
  rw [settleSelection_eq] at graded
  split at graded
  · cases graded
  · split at graded
    · cases graded
    · cases read : readBet market selection home away with
      | error refusal =>
        rw [read] at graded
        cases graded
      | ok b =>
        rw [read] at graded
        obtain ⟨line, own, broken⟩ := half_of_gradeBet half graded
        exact ⟨b, line, rfl, own, broken⟩

def overLeg (line : Str) : Str := "Over ".toList ++ line

def underLeg (line : Str) : Str := "Under ".toList ++ line

theorem totalsMatch_legs {line : Str} (number : isUnsigned line) :
    totalsMatch (overLeg line) = some (.over, line) ∧ totalsMatch (underLeg line) = some
      (.under, line) :=
  ⟨if_pos number, if_pos number⟩

theorem settleTotals_zeroSum {line : Str} (number : isUnsigned line)
    (quarters : isInteger (floatValue line * 4)) (total : Int) :
      ZeroSum (settleTotals (overLeg line) total) (settleTotals (underLeg line) total) := by
  obtain ⟨high, low⟩ := totalsMatch_legs number
  simp only [settleTotals, high, low, gradeTotal_over, gradeTotal_under]
  have turned := @gradeHandicap_zeroSum total (-floatValue line) true (by
    rwa [neg_mul, isInteger_neg]) (.inl rfl)
  rwa [neg_neg] at turned

/-- The name of a team that a handicap leg can be read back from. -/
structure Named (team : Str) : Prop where
  some : team ≠ []
  notDraw : team ≠ "Draw".toList

theorem settleSpreads_leg {team line : Str} (named : Named team) (number : isSigned line)
    (home away : Str) (hs as_ : Int) (pushes : Bool) :
    settleSpreads (team ++ ' ' :: line) home away hs as_ pushes =
      if team = home then gradeHandicap (hs - as_) (floatValue line) pushes
      else if team = away then gradeHandicap (as_ - hs) (floatValue line) pushes
      else .error .neitherTeam := by
  simp only [settleSpreads, ehDrawMatch_leg team number, teamLine_leg named.some number,
    named.notDraw, if_false]

theorem settleSpreads_zeroSum {home away lineA lineB : Str} (distinct : home ≠ away)
    (namedHome : Named home) (namedAway : Named away) (numberA : isSigned lineA)
    (numberB : isSigned lineB) (quarters : isInteger (floatValue lineA * 4))
    (opposite : floatValue lineB = -floatValue lineA) {pushes : Bool}
    (untied : pushes = true ∨ ¬ isInteger (floatValue lineA)) (hs as_ : Int) :
    ZeroSum (settleSpreads (home ++ ' ' :: lineA) home away hs as_ pushes)
      (settleSpreads (away ++ ' ' :: lineB) home away hs as_ pushes) := by
  have turned : as_ - hs = -(hs - as_) := (neg_sub hs as_).symm
  rw [settleSpreads_leg namedHome numberA, settleSpreads_leg namedAway numberB, if_pos rfl,
    if_neg distinct.symm, if_pos rfl, opposite, turned]
  exact gradeHandicap_zeroSum (hs - as_) pushes quarters untied

omit [Unicode] in
theorem settleDnb_zeroSum {home away : Str} (distinct : home ≠ away) (hs as_ : Int) :
    ZeroSum (settleDnb home home away hs as_) (settleDnb away home away hs as_) := by
  unfold settleDnb
  simp only [true_or, or_true, not_true, if_false, if_true, distinct.symm]
  obtain behind | tie | ahead := lt_trichotomy hs as_
  · simp only [behind.ne, if_false, gt_iff_lt, behind, not_lt.mpr behind.le, decide_true,
      decide_false]
    exact zeroSum_won false
  · simp only [tie, if_true]
    exact zeroSum_ok trivial
  · simp only [ahead.ne', if_false, gt_iff_lt, ahead, not_lt.mpr ahead.le, decide_true,
      decide_false]
    exact zeroSum_won true

def bttsYes : List Str := ["BTTS Yes".toList, "Yes".toList]

def bttsNo : List Str := ["BTTS No".toList, "No".toList]

omit [Unicode] in
theorem settleBtts_zeroSum {yes no : Str} (backs : yes ∈ bttsYes) (lays : no ∈ bttsNo)
    (hs as_ : Int) : ZeroSum (settleBtts yes hs as_) (settleBtts no hs as_) := by
  have other : ¬ no ∈ ["BTTS Yes".toList, "Yes".toList] := by
    obtain rfl | rfl := List.mem_pair.mp lays
    · decide
    · decide
  have first : settleBtts yes hs as_ = .ok (won (0 < hs && 0 < as_)) := if_pos backs
  have second : settleBtts no hs as_ = .ok (won !(0 < hs && 0 < as_)) := by
    have listed : no ∈ ["BTTS No".toList, "No".toList] := lays
    rw [settleBtts, if_neg other, if_pos listed]
  rw [first, second]
  exact zeroSum_won _

/-! `settle_selection` on both legs. -/

/-- The guard on tennis set scores refuses both legs, or both are graded, to mirror images. -/
def BothOrNone (grade grade' : Except Refusal Outcome) : Prop :=
  grade = .error .setScore ∧ grade' = .error .setScore ∨ ZeroSum grade grade'

/-- The guard looks at the size of a line, not at its side. -/
theorem bothOrNone_settleSelection {market : Market} {first second home away : Str} {hs as_ : Int}
    {sportKey detail : Option Str} (homePlayed : 0 ≤ hs) (awayPlayed : 0 ≤ as_)
    (guard : isTennisGameLine market first = isTennisGameLine market second)
    (graded : ZeroSum ((readBet market first home away).bind fun b => gradeBet sportKey b hs as_)
      ((readBet market second home away).bind fun b => gradeBet sportKey b hs as_)) :
    BothOrNone (settleSelection market first home away hs as_ sportKey detail)
      (settleSelection market second home away hs as_ sportKey detail) := by
  have played : ¬ (hs < 0 ∨ as_ < 0) := by omega
  have same : tennisSetScoreUngradeable market first hs as_ detail =
      tennisSetScoreUngradeable market second hs as_ detail := by
    unfold tennisSetScoreUngradeable
    rw [guard]
  rw [settleSelection_eq, settleSelection_eq, same, if_neg played, if_neg played]
  split
  · exact .inl ⟨rfl, rfl⟩
  · exact .inr graded

theorem tennisGameLine_totals {line : Str} (number : isUnsigned line) :
    isTennisGameLine .totals (overLeg line) = isTennisGameLine .totals (underLeg line) := by
  simp only [isTennisGameLine, totalsMatch_legs number, Option.any_some]

theorem tennisGameLine_spreads {home away lineA lineB : Str} (namedHome : Named home)
    (namedAway : Named away) (numberA : isSigned lineA) (numberB : isSigned lineB)
    (opposite : floatValue lineB = -floatValue lineA) :
    isTennisGameLine .spreads (home ++ ' ' :: lineA) = isTennisGameLine .spreads
      (away ++ ' ' :: lineB) := by
  simp only [isTennisGameLine, teamLine_leg namedHome.some numberA,
    teamLine_leg namedAway.some numberB, Option.any_some, opposite, abs_neg]

theorem two_way_zero_sum (home away : Str) {hs as_ : Int} (homePlayed : 0 ≤ hs)
    (awayPlayed : 0 ≤ as_) (sportKey detail : Option Str) :
    (∀ line, isUnsigned line → isInteger (floatValue line * 4) →
      ZeroSum (settleTotals (overLeg line) (hs + as_)) (settleTotals (underLeg line) (hs + as_)) ∧
      BothOrNone (settleSelection .totals (overLeg line) home away hs as_ sportKey detail)
        (settleSelection .totals (underLeg line) home away hs as_ sportKey detail)) ∧
    (home ≠ away → Named home → Named away → ∀ lineA lineB, isSigned lineA →
      isSigned lineB →
      isInteger (floatValue lineA * 4) → floatValue lineB = -floatValue lineA →
      (sportIn sportKey twoWayHandicapSports ∨ ¬ isInteger (floatValue lineA)) →
        ZeroSum
          (settleSpreads (home ++ ' ' :: lineA) home away hs as_
            (sportIn sportKey twoWayHandicapSports))
          (settleSpreads (away ++ ' ' :: lineB) home away hs as_
            (sportIn sportKey twoWayHandicapSports)) ∧
        BothOrNone (settleSelection .spreads (home ++ ' ' :: lineA) home away hs as_
          sportKey detail)
          (settleSelection .spreads (away ++ ' ' :: lineB) home away hs as_ sportKey detail)) ∧
    (home ≠ away →
      ZeroSum (settleSelection .dnb home home away hs as_ sportKey detail)
        (settleSelection .dnb away home away hs as_ sportKey detail)) ∧
    (∀ yes ∈ bttsYes, ∀ no ∈ bttsNo,
      ZeroSum (settleSelection .btts yes home away hs as_ sportKey detail)
        (settleSelection .btts no home away hs as_ sportKey detail)) ∧
    ∀ market selection o, o = .halfWon ∨ o = .halfLost →
      settleSelection market selection home away hs as_ sportKey detail = .ok o →
        ∃ b line, readBet market selection home away = .ok b ∧ b.line = some line ∧
          ¬ isInteger (line * 2) := by
  have played : ¬ (hs < 0 ∨ as_ < 0) := by omega
  refine ⟨fun line number quarters => ?_,
    fun distinct namedHome namedAway lineA lineB numberA numberB
    quarters opposite untied => ?_, fun distinct => ?_, fun yes backs no lays => ?_,
    fun market selection o half graded => half_of_settleSelection half graded⟩
  · have graded := settleTotals_zeroSum number quarters (hs + as_)
    refine ⟨graded, bothOrNone_settleSelection homePlayed awayPlayed
      (tennisGameLine_totals number) ?_⟩
    rwa [settleTotals_eq _ home away hs as_ sportKey,
      settleTotals_eq _ home away hs as_ sportKey] at graded
  · have graded := settleSpreads_zeroSum distinct namedHome namedAway numberA numberB quarters
      opposite untied hs as_
    refine ⟨graded, bothOrNone_settleSelection homePlayed awayPlayed
      (tennisGameLine_spreads namedHome namedAway numberA numberB opposite) ?_⟩
    rwa [settleSpreads_eq, settleSpreads_eq] at graded
  · have ungraded (team : Str) : tennisSetScoreUngradeable .dnb team hs as_ detail = false := by
      simp [tennisSetScoreUngradeable]
    simp only [settleSelection, played, if_false, ungraded, Bool.false_eq_true, and_false]
    exact settleDnb_zeroSum distinct hs as_
  · have ungraded (selection : Str) :
        tennisSetScoreUngradeable .btts selection hs as_ detail = false := by
      simp [tennisSetScoreUngradeable]
    simp only [settleSelection, played, if_false, ungraded, Bool.false_eq_true, and_false]
    exact settleBtts_zeroSum backs lays hs as_

end Legs

theorem two_way_ajax :
    BothOrNone
      (@settleSelection Unicode.ascii .spreads ("Ajax".toList ++
        ' ' :: "-0.25".toList) "Ajax".toList "PSV".toList 1 1 (some "soccer".toList) none)
      (@settleSelection Unicode.ascii .spreads ("PSV".toList ++ ' ' :: "+0.25".toList) "Ajax".toList
        "PSV".toList 1 1 (some "soccer".toList) none) :=
  ((@two_way_zero_sum Unicode.ascii "Ajax".toList "PSV".toList 1 1 (by decide) (by decide)
    (some "soccer".toList) none).2.1 (by decide) ⟨by decide, by decide⟩ ⟨by decide, by
      decide⟩ "-0.25".toList "+0.25".toList
    (by decide) (by decide) (by decide +kernel) (by decide +kernel) (.inr (by decide +kernel))).2

/-- A total of games and a score of sets; two teams of one name; a team called Draw; and one without
a name. -/
theorem two_way_fails :
    ¬ ZeroSum
        (@settleSelection Unicode.ascii .totals "Over 22.5".toList "Alcaraz".toList
          "Sinner".toList 2 1 (some "tennis".toList) none)
        (@settleSelection Unicode.ascii .totals "Under 22.5".toList "Alcaraz".toList
          "Sinner".toList 2 1 (some "tennis".toList) none) ∧
      ¬ ZeroSum
          (@settleSelection Unicode.ascii .dnb "Ajax".toList "Ajax".toList "Ajax".toList 1 0
            (some "soccer".toList) none)
          (@settleSelection Unicode.ascii .dnb "Ajax".toList "Ajax".toList "Ajax".toList 1 0
            (some "soccer".toList) none) ∧
      ¬ ZeroSum
          (@settleSelection Unicode.ascii .spreads "Draw +0.5".toList "Draw".toList
            "Ajax".toList 1 0 (some "soccer".toList) none)
          (@settleSelection Unicode.ascii .spreads "Ajax -0.5".toList "Draw".toList
            "Ajax".toList 1 0 (some "soccer".toList) none) ∧
      ¬ ZeroSum
          (@settleSelection Unicode.ascii .spreads " +0.5".toList [] "Ajax".toList 1 0
            (some "soccer".toList) none)
          (@settleSelection Unicode.ascii .spreads "Ajax -0.5".toList [] "Ajax".toList 1 0
            (some "soccer".toList) none) := by
  have refused {grade grade' : Except Refusal Outcome} (refusal : Refusal)
      (first : grade = .error refusal) :
      ¬ ZeroSum grade grade' := by
    rintro ⟨o, o', graded, -⟩
    rw [first] at graded
    cases graded
  refine ⟨refused .setScore (by decide +kernel), ?_, refused .drawLine (by decide +kernel),
    refused .unparseable (by decide)⟩
  rintro ⟨o, o', first, second, mirrors⟩
  have won : @settleSelection Unicode.ascii .dnb "Ajax".toList "Ajax".toList "Ajax".toList 1 0
    (some "soccer".toList) none = .ok .won := by decide
  cases won.symm.trans first
  cases won.symm.trans second
  exact mirrors

end SharpEvPicks.Settlement
