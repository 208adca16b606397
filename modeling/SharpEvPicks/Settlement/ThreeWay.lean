import SharpEvPicks.Python.Format
import SharpEvPicks.Python.Splitting
import SharpEvPicks.Settlement.TwoWay

/-! Markets of three selections in soccer: the three of a match result, the three of a European
handicap and the three double chances divide the scores among themselves. -/
namespace SharpEvPicks.Settlement

open Python Resolution

/-- One of three selections has won and the others have lost. -/
def OneWon (x y z : Except Refusal Outcome) : Prop :=
  x = .ok .won ∧ y = .ok .lost ∧ z = .ok .lost ∨ x = .ok .lost ∧ y = .ok .won ∧
    z = .ok .lost ∨ x = .ok .lost ∧ y = .ok .lost ∧ z = .ok .won

/-- One of three selections has lost and the others have won. -/
def TwoWon (x y z : Except Refusal Outcome) : Prop :=
  x = .ok .won ∧ y = .ok .won ∧ z = .ok .lost ∨ x = .ok .won ∧ y = .ok .lost ∧
    z = .ok .won ∨ x = .ok .lost ∧ y = .ok .won ∧ z = .ok .won

theorem oneWon_margin (margin : Int) :
    OneWon (.ok (won (margin > 0))) (.ok (won (margin = 0))) (.ok (won (-margin > 0))) := by
  obtain behind | tie | ahead := lt_trichotomy margin 0
  · have signs : ¬ margin > 0 ∧ ¬ margin = 0 ∧ -margin > 0 := by omega
    simp only [signs, decide_true, decide_false]
    exact .inr (.inr ⟨rfl, rfl, rfl⟩)
  · subst tie
    exact .inr (.inl ⟨rfl, rfl, rfl⟩)
  · have signs : ¬ margin = 0 ∧ ¬ -margin > 0 := by omega
    simp only [signs, ahead, decide_true, decide_false]
    exact .inl ⟨rfl, rfl, rfl⟩

section Text
variable [Unicode]

/-! A name is normalized without the white space around it. -/

theorem cleaned_append (s t : Str) : cleaned (s ++ t) = cleaned s ++ cleaned t := by
  simp only [cleaned, List.flatMap_append, List.map_append]

omit [Unicode] in
theorem toLower_blank {c : Char} (blank : ¬ c.isAlphanum) : ¬ c.toLower.isAlphanum := by
  have other : ¬ (c.val ≥ 'A'.val ∧ c.val ≤ 'Z'.val) := by
    intro letter
    have upper : c.isUpper = true := decide_eq_true letter
    have alpha : c.isAlpha = true := Bool.or_eq_true_iff.mpr (.inl upper)
    exact blank (Bool.or_eq_true_iff.mpr (.inl alpha))
  rwa [toLower_of_not_upper other]

theorem cleaned_spaces {s : Str} (space : ∀ c ∈ s, isSpace c) :
    ∀ c ∈ cleaned s, isSpace c := by
  intro c inside
  obtain ⟨d, folded, rfl⟩ := List.mem_map.mp inside
  obtain ⟨e, own, member⟩ := List.mem_flatMap.mp folded
  have blank := toLower_blank (Unicode.asciiFold_space e (space e own) d member)
  simp only [blank, Bool.false_eq_true, if_false]
  rfl

theorem normalizeName_strip (name : Str) : normalizeName (strip name) = normalizeName name := by
  obtain ⟨before, after, whole, spaceBefore, spaceAfter⟩ := strip_between name
  have tokens : split (cleaned name) = split (cleaned (strip name)) := by
    conv_lhs => rw [whole]
    rw [cleaned_append, cleaned_append, split_append_spaces (cleaned_spaces spaceAfter),
      split_spaces_append (cleaned_spaces spaceBefore)]
  rw [normalizeName, normalizeName, nameTokens, nameTokens, tokens]

/-! Double chances. -/

def doubleChance (first second : Str) : Str := first ++ " or ".toList ++ second

omit [Unicode] in
/-- A name that a double chance can be split after. -/
theorem no_separator {name after tail : Str} (absent : ¬ " or ".toList <:+: name)
    (ends : ¬ " or".toList <:+ name) (suffix : tail <:+ name) (some : tail ≠ []) :
    ¬ " or ".toList <+: tail ++ " or ".toList ++ after := by
  have text : " or ".toList = [' ', 'o', 'r', ' '] := rfl
  have text' : " or".toList = [' ', 'o', 'r'] := rfl
  rw [text] at absent ⊢
  rw [text'] at ends
  rintro starts
  match tail, suffix, some, starts with
  | [a], _, _, starts => simp at starts
  | [a, b], _, _, starts => simp at starts
  | [a, b, c], suffix, _, starts =>
    simp only [List.cons_append, List.nil_append, List.cons_prefix_cons] at starts
    obtain ⟨rfl, rfl, rfl, -⟩ := starts
    exact ends suffix
  | a :: b :: c :: d :: rest, suffix, _, starts =>
    simp only [List.cons_append, List.cons_prefix_cons] at starts
    obtain ⟨rfl, rfl, rfl, rfl, -⟩ := starts
    exact absent ((List.prefix_append [' ', 'o', 'r', ' '] rest).isInfix.trans suffix.isInfix)

omit [Unicode] in
theorem dcParts_doubleChance {first second : Str} (absent : ¬ " or ".toList <:+: first)
    (ends : ¬ " or".toList <:+ first) (absent' : ¬ " or ".toList <:+: second) :
    dcParts (doubleChance first second) = [strip first, strip second] := by
  have parts : splitSeq " or ".toList (doubleChance first second) = [first, second] := by
    have between : splitSeqFrom " or ".toList 0 [] (first ++ " or ".toList ++ second) =
        first :: splitSeqFrom " or ".toList 0 [] second :=
      splitSeqFrom_between (fun tail suffix some => no_separator absent ends suffix some) []
    have rest : splitSeqFrom " or ".toList 0 [] second = [second] := splitSeqFrom_absent absent' []
    rw [splitSeq, doubleChance, between, rest]
  rw [dcParts, parts]
  rfl

/-- What the names of a fixture have to be like for its double chances to be read. -/
structure Legible (home away : Str) : Prop where
  homeKey : normalizeName home ≠ []
  awayKey : normalizeName away ≠ []
  distinct : normalizeName home ≠ normalizeName away
  homeNotDraw : strip home ≠ "Draw".toList
  awayNotDraw : strip away ≠ "Draw".toList
  homeAbsent : ¬ " or ".toList <:+: home
  awayAbsent : ¬ " or ".toList <:+: away
  homeEnds : ¬ " or".toList <:+ home
  awayEnds : ¬ " or".toList <:+ away

namespace Legible
variable {home away : Str}

theorem turn (legible : Legible home away) : Legible away home :=
  ⟨legible.awayKey, legible.homeKey, legible.distinct.symm, legible.awayNotDraw,
    legible.homeNotDraw,
    legible.awayAbsent, legible.homeAbsent, legible.awayEnds, legible.homeEnds⟩

theorem named (legible : Legible home away) : Named home where
  some := by
    rintro rfl
    exact legible.homeKey rfl
  notDraw := by
    rintro rfl
    exact legible.homeNotDraw rfl

theorem ne (legible : Legible home away) : home ≠ away := fun same =>
  legible.distinct (congrArg normalizeName same)

theorem dcSide_home (legible : Legible home away) : dcSide (strip home) home away = some .home := by
  simp only [dcSide, normalizeName_strip, legible.homeKey, if_false, if_true]

theorem dcSide_away (legible : Legible home away) : dcSide (strip away) home away = some .away := by
  simp only [dcSide, normalizeName_strip, legible.awayKey, legible.distinct.symm, if_false, if_true]

/-- A team and the draw, in this order or the other. -/
theorem read_orDraw {team : Str} {s : WinnerSide} (side : dcSide (strip team) home away = some s)
    (notDraw : strip team ≠ "Draw".toList) (absent : ¬ " or ".toList <:+: team)
    (ends : ¬ " or".toList <:+ team) :
    readBet .doubleChance (doubleChance team "Draw".toList) home away = .ok (.sideOrDraw s) ∧
      readBet .doubleChance (doubleChance "Draw".toList team) home away = .ok (.sideOrDraw s) := by
  have drawn : strip "Draw".toList = "Draw".toList := by decide
  have first := dcParts_doubleChance absent ends (by decide : ¬ " or ".toList <:+: "Draw".toList)
  have second := dcParts_doubleChance (by decide : ¬ " or ".toList <:+: "Draw".toList) (by
    decide) absent
  rw [drawn] at first second
  constructor
  · simp only [readBet, readDoubleChance, first, or_true, if_true, side]
  · simp only [readBet, readDoubleChance, second, true_or, if_true, notDraw, if_false, side]

theorem read_either (legible : Legible home away) :
    readBet .doubleChance (doubleChance home away) home away = .ok .eitherSide ∧
      readBet .doubleChance (doubleChance away home) home away = .ok .eitherSide := by
  have first := dcParts_doubleChance legible.homeAbsent legible.homeEnds legible.awayAbsent
  have second := dcParts_doubleChance legible.awayAbsent legible.awayEnds legible.homeAbsent
  have teams : ¬ ("Draw".toList = strip home ∨ "Draw".toList = strip away) :=
    not_or.mpr ⟨legible.homeNotDraw.symm, legible.awayNotDraw.symm⟩
  constructor
  · simp only [readBet, readDoubleChance, first, teams, if_false, normalizeName_strip, ne_eq,
      not_true]
  · simp only [readBet, readDoubleChance, second, Or.comm.not.mp teams, if_false,
      normalizeName_strip, ne_eq, Finset.pair_comm, not_true]

theorem read_h2h (legible : Legible home away) :
    readBet .h2h home home away = .ok (.side .home) ∧ readBet .h2h away home away = .ok
      (.side .away) ∧ readBet .h2h "Draw".toList home away = .ok .draw := by
  have home' := legible.named.notDraw.symm
  have away' := legible.turn.named.notDraw.symm
  simp only [readBet, sideOf, if_true, legible.ne.symm, if_false, home', away', and_self]

end Legible

/-! Grading on a row of a three-way sport. -/

/-- A sport without a two-way market, such as soccer. -/
structure ThreeWay (sportKey : Option Str) : Prop where
  h2h : ¬ sportIn sportKey twoWayH2hSports
  handicap : ¬ sportIn sportKey twoWayHandicapSports

theorem settle_threeWay {sportKey : Option Str} (sport : ThreeWay sportKey) {hs as_ : Int}
    (homePlayed : 0 ≤ hs) (awayPlayed : 0 ≤ as_) {market : Market} {selection home away : Str}
    {b : Bet} (read : readBet market selection home away = .ok b) (detail : Option Str) :
    settleSelection market selection home away hs as_ sportKey detail =
      gradeBet sportKey b hs as_ := by
  have played : ¬ (hs < 0 ∨ as_ < 0) := by omega
  have notTennis : sportKey ≠ some "tennis".toList := by
    rintro rfl
    exact sport.handicap (by decide)
  rw [settleSelection_eq, if_neg played, if_neg (fun tennis => notTennis tennis.1), read]
  rfl

/-- A double chance has won iff one of the two results it names has. -/
def Backs (grade : Market → Str → Except Refusal Outcome) (first second : Str) : Prop :=
  grade .doubleChance (doubleChance first second) =
    .ok (won (grade .h2h first = .ok .won ∨ grade .h2h second = .ok .won))

/-- The double chances of a row, each written in either order. -/
structure DoubleChances (grade : Market → Str → Except Refusal Outcome) (home away : Str) :
    Prop where
  homeOrDraw : Backs grade home "Draw".toList
  drawOrHome : Backs grade "Draw".toList home
  homeOrAway : Backs grade home away
  awayOrHome : Backs grade away home
  drawOrAway : Backs grade "Draw".toList away
  awayOrDraw : Backs grade away "Draw".toList
  two : TwoWon (grade .doubleChance (doubleChance home "Draw".toList))
    (grade .doubleChance (doubleChance home away))
      (grade .doubleChance (doubleChance "Draw".toList away))

/-- What the selections of a row come to where the home side is ahead by `margin`. -/
structure Results (grade : Market → Str → Except Refusal Outcome) (home away : Str)
    (margin : Int) : Prop where
  homeSide : grade .h2h home = .ok (won (margin > 0))
  drawn : grade .h2h "Draw".toList = .ok (won (margin = 0))
  awaySide : grade .h2h away = .ok (won (-margin > 0))
  homeOrDraw : grade .doubleChance (doubleChance home "Draw".toList) = .ok (won (margin ≥ 0)) ∧
    grade .doubleChance (doubleChance "Draw".toList home) = .ok (won (margin ≥ 0))
  homeOrAway : grade .doubleChance (doubleChance home away) = .ok (won (margin ≠ 0)) ∧
    grade .doubleChance (doubleChance away home) = .ok (won (margin ≠ 0))
  drawOrAway : grade .doubleChance (doubleChance "Draw".toList away) = .ok (won (-margin ≥ 0)) ∧
    grade .doubleChance (doubleChance away "Draw".toList) = .ok (won (-margin ≥ 0))

namespace Results
variable {grade : Market → Str → Except Refusal Outcome} {home away : Str} {margin : Int}

omit [Unicode] in
theorem turn (results : Results grade home away margin) : Results grade away home (-margin) where
  homeSide := results.awaySide
  drawn := by
    rw [results.drawn]
    simp only [neg_eq_zero]
  awaySide := by
    rw [results.homeSide, neg_neg]
  homeOrDraw := results.drawOrAway.symm
  homeOrAway := by
    simp only [ne_eq, neg_eq_zero]
    exact results.homeOrAway.symm
  drawOrAway := by
    rw [neg_neg]
    exact results.homeOrDraw.symm

omit [Unicode] in
theorem won_iff (condition : Bool) :
    (Except.ok (won condition) : Except Refusal Outcome) = .ok .won ↔ condition := by
  cases condition <;> simp [won]

omit [Unicode] in
theorem doubleChances (results : Results grade home away margin) :
    DoubleChances grade home away := by
  have homeOrDraw : (margin ≥ 0) ↔ (margin > 0 ∨ margin = 0) := by omega
  have homeOrAway : (margin ≠ 0) ↔ (margin > 0 ∨ -margin > 0) := by omega
  have drawOrAway : (-margin ≥ 0) ↔ (margin = 0 ∨ -margin > 0) := by omega
  have swap (p q : Prop) [Decidable p] [Decidable q] : decide (p ∨ q) = decide (q ∨ p) :=
    decide_eq_decide.mpr or_comm
  refine ⟨?_, ?_, ?_, ?_, ?_, ?_, ?_⟩
  · simp only [Backs, results.homeOrDraw.1, results.homeSide, results.drawn, won_iff,
      decide_eq_true_eq, homeOrDraw]
  · simp only [Backs, results.homeOrDraw.2, results.homeSide, results.drawn, won_iff,
      decide_eq_true_eq, homeOrDraw]
    rw [swap]
  · simp only [Backs, results.homeOrAway.1, results.homeSide, results.awaySide, won_iff,
      decide_eq_true_eq, homeOrAway]
  · simp only [Backs, results.homeOrAway.2, results.homeSide, results.awaySide, won_iff,
      decide_eq_true_eq, homeOrAway]
    rw [swap]
  · simp only [Backs, results.drawOrAway.1, results.drawn, results.awaySide, won_iff,
      decide_eq_true_eq, drawOrAway]
  · simp only [Backs, results.drawOrAway.2, results.drawn, results.awaySide, won_iff,
      decide_eq_true_eq, drawOrAway]
    rw [swap]
  · rw [results.homeOrDraw.1, results.homeOrAway.1, results.drawOrAway.1]
    obtain behind | tie | ahead := lt_trichotomy margin 0
    · have signs : ¬ margin ≥ 0 ∧ margin ≠ 0 ∧ -margin ≥ 0 := by omega
      rw [decide_eq_false signs.1, decide_eq_true signs.2.1, decide_eq_true signs.2.2]
      exact .inr (.inr ⟨rfl, rfl, rfl⟩)
    · subst tie
      exact .inr (.inl ⟨rfl, rfl, rfl⟩)
    · have signs : margin ≥ 0 ∧ margin ≠ 0 ∧ ¬ -margin ≥ 0 := by omega
      rw [decide_eq_true signs.1, decide_eq_true signs.2.1, decide_eq_false signs.2.2]
      exact .inl ⟨rfl, rfl, rfl⟩

end Results

section Rows
variable {home away : Str} {hs as_ : Int} {sportKey : Option Str}

/-- The grade of a selection of a row. -/
def onRow (home away : Str) (hs as_ : Int) (sportKey detail : Option Str) (market : Market)
    (selection : Str) : Except Refusal Outcome :=
  settleSelection market selection home away hs as_ sportKey detail

theorem results_row (legible : Legible home away) (homePlayed : 0 ≤ hs) (awayPlayed : 0 ≤ as_)
    (sport : ThreeWay sportKey) (detail : Option Str) :
    Results (onRow home away hs as_ sportKey detail) home away (hs - as_) := by
  have grades {market : Market} {selection : Str} {b : Bet}
      (read : readBet market selection home away = .ok b) :
      onRow home away hs as_ sportKey detail market selection = gradeBet sportKey b hs as_ :=
    settle_threeWay sport homePlayed awayPlayed read detail
  have side (s : WinnerSide) :
      gradeBet sportKey (.side s) hs as_ = .ok (won (margin s hs as_ > 0)) := by
    simp only [gradeBet, sport.h2h]
    rfl
  have turned : margin .away hs as_ = -(hs - as_) := (neg_sub hs as_).symm
  obtain ⟨home', away', draw⟩ := legible.read_h2h
  obtain ⟨homeOrDraw, drawOrHome⟩ :=
    Legible.read_orDraw legible.dcSide_home legible.homeNotDraw legible.homeAbsent
    legible.homeEnds
  obtain ⟨awayOrDraw, drawOrAway⟩ :=
    Legible.read_orDraw legible.dcSide_away legible.awayNotDraw legible.awayAbsent
    legible.awayEnds
  obtain ⟨homeOrAway, awayOrHome⟩ := legible.read_either
  refine ⟨(grades home').trans (side .home), (grades draw).trans ?_, (grades away').trans ?_,
    ⟨(grades homeOrDraw).trans rfl, (grades drawOrHome).trans rfl⟩,
    ⟨(grades homeOrAway).trans ?_, (grades awayOrHome).trans ?_⟩,
    ⟨(grades drawOrAway).trans ?_, (grades awayOrDraw).trans ?_⟩⟩
  · simp only [gradeBet, sub_eq_zero]
  · rw [side, turned]
  · simp only [gradeBet, ne_eq, sub_eq_zero]
  · simp only [gradeBet, ne_eq, sub_eq_zero]
  · rw [gradeBet, turned]
  · rw [gradeBet, turned]

/-! European handicaps. -/

def drawLeg (text : Str) : Str := "Draw (".toList ++ text ++ ")".toList

theorem ehDrawMatch_drawLeg {text : Str} (number : isUnsigned text ∨ isSigned text) :
    ehDrawMatch (drawLeg text) = some text := by
  have shape : ehDrawMatch (drawLeg text) =
      if (text ++ [')']).getLast? = some ')' ∧
          (isUnsigned (text ++ [')']).dropLast ∨ isSigned (text ++ [')']).dropLast) then
        some (text ++ [')']).dropLast
      else none := rfl
  rw [shape, List.dropLast_concat, if_pos ⟨by simp, number⟩]

theorem read_drawLegs {line text : Str} (number : isSigned line)
    (whole : isInteger (floatValue line)) (written : isUnsigned text ∨ isSigned text)
    (same : floatValue text = floatValue line) (home away : Str) :
    readBet .spreads ("Draw".toList ++ ' ' :: line) home away = .ok
      (.handicapDraw (floatValue line)) ∧
      readBet .spreads (drawLeg text) home away = .ok (.handicapDraw (floatValue line)) := by
  constructor
  · simp only [readBet, readSpread, ehDrawMatch_leg _ number,
      teamLine_leg (by decide : "Draw".toList ≠ []) number, if_true, whole, not_true, if_false]
  · simp only [readBet, readSpread, ehDrawMatch_drawLeg written, same]

theorem read_leg {team line : Str} {s : WinnerSide} (named : Named team) (number : isSigned line)
    (side : sideOf team home away = some s) :
    readBet .spreads (team ++ ' ' :: line) home away = .ok (.handicap s (floatValue line)) := by
  simp only [readBet, readSpread, ehDrawMatch_leg _ number, teamLine_leg named.some number,
    named.notDraw, if_false, side]

omit [Unicode] in
/-- A whole line without a push. -/
theorem gradeHandicap_whole (base z : Int) :
    gradeHandicap base (z : ℚ) false = .ok (won (base + z > 0)) := by
  have whole : isInteger ((z : ℚ) * 2) = true :=
    (isInteger_iff _).mpr ⟨z * 2, by push_cast; ring⟩
  have ahead : (base : ℚ) + z > 0 ↔ base + z > 0 := by exact_mod_cast Iff.rfl
  simp only [gradeHandicap, whole, not_true, if_false, ahead, Bool.false_eq_true, ite_self]
  by_cases first : base + z > 0
  · simp [first, won]
  · simp [first, won]

theorem oneWon_handicap (legible : Legible home away) (homePlayed : 0 ≤ hs)
    (awayPlayed : 0 ≤ as_) (sport : ThreeWay sportKey) (detail : Option Str) {line line' : Str}
    (number : isSigned line) (number' : isSigned line') (whole : isInteger (floatValue line))
    (opposite : floatValue line' = -floatValue line) :
    OneWon (onRow home away hs as_ sportKey detail .spreads (home ++ ' ' :: line))
        (onRow home away hs as_ sportKey detail .spreads ("Draw".toList ++ ' ' :: line))
        (onRow home away hs as_ sportKey detail .spreads (away ++ ' ' :: line')) ∧
      ∀ text, isUnsigned text ∨ isSigned text → floatValue text = floatValue line →
        onRow home away hs as_ sportKey detail .spreads (drawLeg text) =
          onRow home away hs as_ sportKey detail .spreads ("Draw".toList ++ ' ' :: line) := by
  have grades {selection : Str} {b : Bet} (read : readBet .spreads selection home away = .ok b) :
      onRow home away hs as_ sportKey detail .spreads selection = gradeBet sportKey b hs as_ :=
    settle_threeWay sport homePlayed awayPlayed read detail
  have drawn := (read_drawLegs number whole (.inr number) rfl home away).1
  constructor
  · have homeLeg := read_leg legible.named number (if_pos rfl : sideOf home home away = some .home)
    have awaySide : sideOf away home away = some .away := by
      rw [sideOf, if_neg legible.ne.symm, if_pos rfl]
    have awayLeg := read_leg legible.turn.named number' awaySide
    obtain ⟨z, value⟩ := (isInteger_iff _).mp whole
    have value' : floatValue line' = ((-z : Int) : ℚ) := by
      rw [opposite, value]
      push_cast
      ring
    have noPush : sportIn sportKey twoWayHandicapSports = false :=
      Bool.eq_false_iff.mpr sport.handicap
    have tie : (hs : ℚ) + z = as_ ↔ hs - as_ + z = 0 := by
      have cast : (hs : ℚ) + z = as_ ↔ hs + z = as_ := by exact_mod_cast Iff.rfl
      rw [cast]
      omega
    have turned : margin .away hs as_ + -z = -(hs - as_ + z) := by
      simp only [margin]
      ring
    rw [grades homeLeg, grades drawn, grades awayLeg]
    simp only [gradeBet, value, value', noPush, gradeHandicap_whole, tie, turned]
    exact oneWon_margin (hs - as_ + z)
  · intro text written same
    rw [grades drawn, grades (read_drawLegs number whole written same home away).2]

end Rows

theorem three_way_partition {home away : Str} (legible : Legible home away) {hs as_ : Int}
    (homePlayed : 0 ≤ hs) (awayPlayed : 0 ≤ as_) {sportKey : Option Str}
    (sport : ThreeWay sportKey) (detail : Option Str) :
    OneWon (onRow home away hs as_ sportKey detail .h2h home)
        (onRow home away hs as_ sportKey detail .h2h "Draw".toList)
        (onRow home away hs as_ sportKey detail .h2h away) ∧
      (∀ line line', isSigned line → isSigned line' → isInteger (floatValue line) →
        floatValue line' = -floatValue line →
          OneWon (onRow home away hs as_ sportKey detail .spreads (home ++ ' ' :: line))
              (onRow home away hs as_ sportKey detail .spreads ("Draw".toList ++ ' ' :: line))
              (onRow home away hs as_ sportKey detail .spreads (away ++ ' ' :: line')) ∧
            ∀ text, isUnsigned text ∨ isSigned text → floatValue text = floatValue line →
              onRow home away hs as_ sportKey detail .spreads (drawLeg text) =
                onRow home away hs as_ sportKey detail .spreads ("Draw".toList ++ ' ' :: line)) ∧
      DoubleChances (onRow home away hs as_ sportKey detail) home away ∧
      DoubleChances (onRow away home as_ hs sportKey detail) home away := by
  have results := results_row legible homePlayed awayPlayed sport detail
  have turned := (results_row legible.turn awayPlayed homePlayed sport detail).turn
  refine ⟨?_, fun line line' number number' whole opposite =>
    oneWon_handicap legible homePlayed awayPlayed sport detail number number' whole opposite,
    results.doubleChances, turned.doubleChances⟩
  rw [results.homeSide, results.drawn, results.awaySide]
  exact oneWon_margin (hs - as_)

end Text

/-- A derby of four goals. -/
theorem three_way_derby :
    OneWon
      (@onRow Unicode.ascii "Ajax".toList "PSV".toList 3 1 (some "soccer".toList) none .spreads
        ("Ajax".toList ++ ' ' :: "-2".toList))
      (@onRow Unicode.ascii "Ajax".toList "PSV".toList 3 1 (some "soccer".toList) none .spreads
        ("Draw".toList ++ ' ' :: "-2".toList))
      (@onRow Unicode.ascii "Ajax".toList "PSV".toList 3 1 (some "soccer".toList) none .spreads
        ("PSV".toList ++ ' ' :: "+2".toList)) := by
  have legible : @Legible Unicode.ascii "Ajax".toList "PSV".toList :=
    @Legible.mk Unicode.ascii _ _ (by decide) (by decide) (by decide) (by decide) (by decide) (by
      decide) (by decide)
      (by decide) (by decide)
  exact ((@three_way_partition Unicode.ascii _ _ legible 3 1 (by decide) (by
    decide) (some "soccer".toList)
    ⟨by decide, by decide⟩ none).2.1 "-2".toList "+2".toList (by decide) (by decide) (by
      decide +kernel)
    (by decide +kernel)).1

/-- Two teams told apart by their names, with no separator inside one. -/
def Distinct (home away : Str) : Prop :=
  home ≠ "Draw".toList ∧ away ≠ "Draw".toList ∧ @normalizeName Unicode.ascii home ≠ [] ∧
    @normalizeName Unicode.ascii away ≠ [] ∧
    @normalizeName Unicode.ascii home ≠ @normalizeName Unicode.ascii away ∧
    ¬ " or ".toList <:+: home ∧ ¬ " or ".toList <:+: away

/-- A name that ends in the separator's first letters, and one that strips to the draw. -/
theorem three_way_fails :
    Distinct "Thor or".toList "Ajax".toList ∧
      @onRow Unicode.ascii "Thor or".toList "Ajax".toList 1 0
        (some "soccer".toList) none .doubleChance
        (doubleChance "Thor or".toList "Draw".toList) = .error .neitherTeam ∧
      Distinct " Draw".toList "Ajax".toList ∧
      @onRow Unicode.ascii " Draw".toList "Ajax".toList 1 1
        (some "soccer".toList) none .doubleChance
        (doubleChance " Draw".toList "Ajax".toList) = .ok .won ∧
      @onRow Unicode.ascii " Draw".toList "Ajax".toList 1 1
        (some "soccer".toList) none .h2h " Draw".toList = .ok .lost ∧
      @onRow Unicode.ascii " Draw".toList "Ajax".toList 1 1
        (some "soccer".toList) none .h2h "Ajax".toList = .ok .lost := by
  unfold Distinct
  decide

end SharpEvPicks.Settlement
