import SharpEvPicks.Python.ReadBack
import SharpEvPicks.Settlement.TwoWay

/-! Which selections `settle_selection` grades from every score that the results of a sport report.
-/
namespace SharpEvPicks.Settlement

open Python Resolution

/-- The scores of tennis are sets. -/
def Reportable (sportKey : Option Str) (hs as_ : Int) : Prop :=
  0 ≤ hs ∧ 0 ≤ as_ ∧ (sportKey = some "tennis".toList → hs + as_ ≤ 5)

/-- A stake on the line splits into components that go well together. -/
def Splits (line : ℚ) : Prop := isInteger (line * 2) = true ∨ ∀ z : Int, 1 / 4 ≤ |z + line|

/-- Selections that name teams by `home` and `away` only. -/
inductive NamesTeams [Unicode] (home away : Str) : Market → Str → Prop where
  | winner (team : Str) (named : team = home ∨ team = away) : NamesTeams home away .h2h team
  | draw : NamesTeams home away .h2h "Draw".toList
  | drawNoBet (team : Str) (named : team = home ∨ team = away) : NamesTeams home away .dnb team
  | handicap (team line : Str) (named : team = home ∨ team = away) (number : isSigned line) :
    NamesTeams home away .spreads (team ++ ' ' :: line)
  | doubleChance (first second : Str)
    (named : [first, second].Subperm [home, "Draw".toList, away]) :
    NamesTeams home away .doubleChance (first ++ " or ".toList ++ second)
  | overTotal (market : Market)
      (lined : market = .totals ∨ market = .teamTotals) (line : Str) (number : isUnsigned line) :
    NamesTeams home away market (overLeg line)
  | underTotal (market : Market)
      (lined : market = .totals ∨ market = .teamTotals) (line : Str) (number : isUnsigned line) :
    NamesTeams home away market (underLeg line)
  | bothScore (selection : Str) (listed : selection = "Yes".toList ∨ selection = "No".toList) :
    NamesTeams home away .btts selection

/-- The parts around ` or ` are the draw and a team that has a normal form, or the two teams. -/
def Paired [Unicode] (home away selection : Str) : Prop :=
  ∃ first second, dcParts selection = [first, second] ∧
    if "Draw".toList = first ∨ "Draw".toList = second then
      (dcSide (if second = "Draw".toList then first else second) home away).isSome = true
    else ({normalizeName first, normalizeName second} : Finset Str) = {normalizeName home,
      normalizeName away}

def Gradeable [Unicode] (home away : Str) (market : Market) (selection : Str) : Prop :=
  match market with
  | .h2h | .dnb | .btts => True
  | .doubleChance => Paired home away selection
  | .totals => ∃ direction line, totalsMatch selection = some
      (direction, line) ∧ Splits (floatValue line)
  | .spreads => ∃ team line, teamLine selection = some (team, line) ∧
      if team = "Draw".toList then isInteger (floatValue line) = true else Splits (floatValue line)
  | _ => False

/-! Components. -/

theorem isOk_combineQuarter (x : ℚ) :
    (combineQuarter {ahComponent (x - 1 / 4), ahComponent (x + 1 / 4)}).isOk = true ↔
      1 / 4 ≤ |x| := by
  have component (y : ℚ) : ahComponent y = if y > 0 then .won else if y = 0 then .push
      else .lost :=
    rfl
  obtain below | rfl | between | rfl | above :
      x < -(1 / 4) ∨ x = -(1 / 4) ∨ (-(1 / 4) < x ∧ x < 1 / 4) ∨ x = 1 / 4 ∨
        1 / 4 < x := by
    by_contra none
    push Not at none
    obtain ⟨h₁, h₂, h₃, h₄, h₅⟩ := none
    exact h₄ (le_antisymm h₅ (h₃ (lt_of_le_of_ne h₁ (Ne.symm h₂))))
  · rw [component, component, if_neg (by linarith), if_neg (by linarith), if_neg (by linarith),
      if_neg (by linarith)]
    exact iff_of_true (by decide) (le_abs.mpr (.inr (by linarith)))
  · rw [component, component, if_neg (by norm_num), if_neg (by norm_num), if_neg (by norm_num),
      if_pos (by norm_num)]
    exact iff_of_true (by decide) (by norm_num)
  · rw [component, component, if_neg (by linarith), if_neg (by linarith), if_pos (by linarith)]
    exact iff_of_false (by decide) (not_le.mpr (abs_lt.mpr between))
  · rw [component, component, if_neg (by norm_num), if_pos (by norm_num), if_pos (by norm_num)]
    exact iff_of_true (by decide) (by norm_num)
  · rw [component, component, if_pos (by linarith), if_pos (by linarith)]
    exact iff_of_true (by decide) (le_abs.mpr (.inl above.le))

theorem isOk_gradeHandicap (base : Int) (line : ℚ) (pushes : Bool) :
    (gradeHandicap base line pushes).isOk = true ↔ isInteger (line * 2) = true ∨
      1 / 4 ≤ |base + line| := by
  unfold gradeHandicap
  by_cases half : isInteger (line * 2) = true
  · rw [if_neg (not_not.mpr half)]
    refine iff_of_true ?_ (.inl half)
    dsimp only
    split
    · rfl
    · split <;> rfl
  · rw [if_pos half, isOk_combineQuarter, or_iff_right half]

theorem splits_neg (line : ℚ) : Splits (-line) ↔ Splits line := by
  have half (line : ℚ) (split : Splits line) : Splits (-line) := by
    refine split.imp (fun whole => ?_) fun far z => ?_
    · rw [neg_mul, isInteger_neg]
      exact whole
    · have mirrored := far (-z)
      rw [← abs_neg] at mirrored
      push_cast at mirrored
      rwa [neg_add, neg_neg] at mirrored
  exact ⟨fun split => neg_neg line ▸ half _ split, half line⟩

/-! Scores. -/

section Scores
variable [Unicode] {home away selection : Str} {market : Market} {sportKey detail : Option Str}

/-- The guard of the sets looks at the score only to tell sets from games. -/
theorem ungradeable_sets {hs as_ : Int} (sets : hs + as_ ≤ 5) :
    tennisSetScoreUngradeable market selection hs as_ detail =
      tennisSetScoreUngradeable market selection 0 0 detail := by
  unfold tennisSetScoreUngradeable
  rw [if_neg (not_lt.mpr sets), if_neg (by decide)]

/-- No reportable score stops the selection before it is read. -/
def Unguarded (market : Market) (selection : Str) (sportKey detail : Option Str) : Prop :=
  sportKey = some "tennis".toList → tennisSetScoreUngradeable market selection 0 0 detail = false

def Settles (home away : Str) (market : Market) (selection : Str) (sportKey detail : Option Str) :
    Prop :=
  ∀ hs as_, Reportable sportKey hs as_ →
    (settleSelection market selection home away hs as_ sportKey detail).isOk = true

theorem settle_reportable (unguarded : Unguarded market selection sportKey detail) {hs as_ : Int}
    (reported : Reportable sportKey hs as_) :
    settleSelection market selection home away hs as_ sportKey detail =
      (readBet market selection home away).bind fun b => gradeBet sportKey b hs as_ := by
  obtain ⟨homePlayed, awayPlayed, sets⟩ := reported
  rw [settleSelection_eq, if_neg (by omega), if_neg]
  rintro ⟨tennis, stopped⟩
  rw [ungradeable_sets (sets tennis), unguarded tennis] at stopped
  cases stopped

omit [Unicode] in
theorem reportable_nil (sportKey : Option Str) : Reportable sportKey 0 0 :=
  ⟨le_rfl, le_rfl, fun _ => by decide⟩

/-- A bet that is read settles if each score grades it. -/
theorem settles_read (unguarded : Unguarded market selection sportKey detail) {b : Bet}
    (read : readBet market selection home away = .ok b) :
      Settles home away market selection sportKey detail ↔
      ∀ hs as_, Reportable sportKey hs as_ → (gradeBet sportKey b hs as_).isOk = true := by
  refine forall_congr' fun hs => forall_congr' fun as_ => forall_congr' fun reported => ?_
  rw [settle_reportable unguarded reported, read]
  rfl

theorem not_settles (unguarded : Unguarded market selection sportKey detail) {refusal : Refusal}
    (read : readBet market selection home away = .error refusal) :
    ¬ Settles home away market selection sportKey detail := by
  intro settles
  have graded := settles 0 0 (reportable_nil sportKey)
  rw [settle_reportable unguarded (reportable_nil sportKey), read] at graded
  cases graded

omit [Unicode] in
/-- Of the bets only those on a line are not graded from every score. -/
theorem isOk_gradeBet {b : Bet} (lineless : b.line = none) (hs as_ : Int) :
    (gradeBet sportKey b hs as_).isOk = true := by
  cases b with
  | total direction line => cases lineless
  | handicap s line => cases lineless
  | side s =>
    simp only [gradeBet]
    split <;> rfl
  | drawNoBet s =>
    simp only [gradeBet]
    split <;> rfl
  | draw => rfl
  | bothScore yes => rfl
  | sideOrDraw s => rfl
  | eitherSide => rfl
  | handicapDraw line => rfl

theorem settles_lineless (unguarded : Unguarded market selection sportKey detail) {b : Bet}
    (read : readBet market selection home away = .ok b) (lineless : b.line = none) :
    Settles home away market selection sportKey detail :=
  (settles_read unguarded read).mpr fun hs as_ _ => isOk_gradeBet lineless hs as_

omit [Unicode] in
/-- If scores reach every margin near the line, the line has to split. -/
theorem gradeHandicap_reached {base : Int → Int → Int} {line : ℚ} (pushes : Bool)
    (reach : ∀ z : Int, |(z : ℚ) + line| < 1 / 4 → ∃ hs as_, Reportable sportKey hs as_ ∧
      base hs as_ = z) :
    (∀ hs as_, Reportable sportKey hs as_ →
      (gradeHandicap (base hs as_) line pushes).isOk = true) ↔ Splits line := by
  constructor
  · intro graded
    by_cases half : isInteger (line * 2) = true
    · exact .inl half
    · refine .inr fun z => le_of_not_gt fun near => ?_
      obtain ⟨hs, as_, reported, rfl⟩ := reach z near
      obtain whole | far := (isOk_gradeHandicap _ _ _).mp (graded hs as_ reported)
      · exact half whole
      · exact absurd far (not_le.mpr near)
  · intro splits hs as_ _
    exact (isOk_gradeHandicap _ _ _).mpr (splits.imp_right fun far => far _)

theorem unsignedValue_nonneg (s : Str) : 0 ≤ unsignedValue s := by
  unfold unsignedValue
  split <;> positivity

omit [Unicode] in
/-- A total of goals that is reported. -/
theorem reportable_total {line : ℚ} (low : 0 ≤ line)
    (sets : sportKey = some "tennis".toList → line ≤ 9 / 2) {z : Int}
    (near : |(z : ℚ) - line| < 1 / 4) : Reportable sportKey z 0 := by
  obtain ⟨above, below⟩ := abs_lt.mp near
  have nonneg : (-1 : ℚ) < z := by linarith
  refine ⟨by exact_mod_cast nonneg, le_rfl, fun tennis => ?_⟩
  have few : (z : ℚ) < 5 := by linarith [sets tennis]
  have few : z < 5 := by exact_mod_cast few
  omega

omit [Unicode] in
/-- A score of the margin. -/
theorem reportable_margin {line : ℚ}
    (sets : sportKey = some "tennis".toList → |line| ≤ 5 / 2) (s : WinnerSide) {z : Int}
    (near : |(z : ℚ) + line| < 1 / 4) :
      ∃ hs as_, Reportable sportKey hs as_ ∧ margin s hs as_ = z := by
  have few (tennis : sportKey = some "tennis".toList) : z < 5 ∧ -5 < z := by
    obtain ⟨above, below⟩ := abs_lt.mp near
    obtain ⟨low, high⟩ := abs_le.mp (sets tennis)
    have upper : (z : ℚ) < 5 := by linarith
    have lower : (-5 : ℚ) < z := by linarith
    exact ⟨by exact_mod_cast upper, by exact_mod_cast lower⟩
  have scored (ahead behind : Int) (played : 0 ≤ ahead) (played' : 0 ≤ behind)
      (apart : ahead - behind = z)
      (one : ahead = 0 ∨ behind = 0) : ∃ hs as_, Reportable sportKey hs as_ ∧
        margin s hs as_ = z := by
    cases s with
    | home => exact ⟨ahead, behind,
        ⟨played, played', fun tennis => by have := few tennis; omega⟩, apart⟩
    | away => exact ⟨behind, ahead,
        ⟨played', played, fun tennis => by have := few tennis; omega⟩, apart⟩
  obtain won | lost := le_total 0 z
  · exact scored z 0 won le_rfl (sub_zero z) (.inr rfl)
  · exact scored 0 (-z) le_rfl (by omega) (by omega) (.inl rfl)

/-- A line beyond the sets is stopped. -/
theorem sets_of_unguarded (unguarded : Unguarded market selection sportKey detail)
    (lined : market = .totals ∨ market = .spreads) (tennis : sportKey = some "tennis".toList) :
    isTennisGameLine market selection = false := by
  have passed := unguarded tennis
  unfold tennisSetScoreUngradeable at passed
  rw [if_neg (by decide)] at passed
  obtain rfl | rfl := lined
  · exact (Bool.or_eq_false_iff.mp passed).2
  · exact (Bool.or_eq_false_iff.mp passed).2

theorem settles_total {direction : Direction} {line : Str} (number : isUnsigned line)
    (matched : totalsMatch selection = some (direction, line))
    (unguarded : Unguarded .totals selection sportKey detail) :
    Settles home away .totals selection sportKey detail ↔ Splits (floatValue line) := by
  have low : 0 ≤ floatValue line := by
    rw [floatValue_unsigned number]
    exact unsignedValue_nonneg line
  have sets (tennis : sportKey = some "tennis".toList) : floatValue line ≤ 9 / 2 := by
    have small := sets_of_unguarded unguarded (.inl rfl) tennis
    simp only [isTennisGameLine, matched, Option.any_some, decide_eq_false_iff_not] at small
    exact not_lt.mp small
  have read : readBet .totals selection home away = .ok (.total direction (floatValue line)) := by
    simp only [readBet, matched]
  rw [settles_read unguarded read]
  obtain _ | _ := direction
  · simp only [gradeBet, gradeTotal_over]
    rw [gradeHandicap_reached, splits_neg]
    intro z near
    rw [← sub_eq_add_neg] at near
    exact ⟨z, 0, reportable_total low sets near, add_zero z⟩
  · simp only [gradeBet, gradeTotal_under]
    rw [gradeHandicap_reached]
    intro z near
    have mirrored : |((-z : Int) : ℚ) - floatValue line| < 1 / 4 := by
      rw [← abs_neg]
      push_cast
      rwa [neg_sub, sub_neg_eq_add, add_comm]
    exact ⟨-z, 0, reportable_total low sets mirrored, by omega⟩

omit [Unicode] in
theorem exists_sideOf {team : Str} (named : team = home ∨ team = away) :
    ∃ s, sideOf team home away = some s := by
  unfold sideOf
  by_cases atHome : team = home
  · exact ⟨.home, if_pos atHome⟩
  · exact ⟨.away, by rw [if_neg atHome, if_pos (named.resolve_left atHome)]⟩

theorem settles_line {direction : Direction} {line : Str} (number : isUnsigned line)
    (matched : totalsMatch selection = some (direction, line))
    (unguarded : Unguarded .totals selection sportKey detail) :
    Settles home away .totals selection sportKey detail ↔
      Gradeable home away .totals selection := by
  rw [settles_total number matched unguarded]
  simp only [Gradeable, matched]
  constructor
  · intro splits
    exact ⟨direction, line, rfl, splits⟩
  · rintro ⟨direction', line', same, splits⟩
    cases same
    exact splits

theorem teamLine_nameless {line : Str} (number : isSigned line) :
    teamLine (' ' :: line) = none := by
  have parts := rpartition_append ' ' [] line (isSigned_no_blank number)
  rw [List.nil_append] at parts
  simp [teamLine, parts]

theorem settles_handicap {team line : Str} (named : team = home ∨ team = away)
    (number : isSigned line)
    (unguarded : Unguarded .spreads (team ++ ' ' :: line) sportKey detail) :
    Settles home away .spreads (team ++ ' ' :: line) sportKey detail ↔
      Gradeable home away .spreads (team ++ ' ' :: line) := by
  have noDraw := ehDrawMatch_leg team number
  have reading : readBet .spreads (team ++ ' ' :: line) home away =
    readSpread (team ++ ' ' :: line) home away := rfl
  by_cases nameless : team = []
  · subst nameless
    have unread := teamLine_nameless number
    rw [List.nil_append] at noDraw reading unguarded ⊢
    have read : readBet .spreads (' ' :: line) home away = .error .unparseable := by
      rw [reading, readSpread, noDraw, unread]
    refine iff_of_false (not_settles unguarded read) ?_
    rintro ⟨team, line', found, -⟩
    rw [unread] at found
    cases found
  · have leg := teamLine_leg nameless number
    have own : Gradeable home away .spreads (team ++ ' ' :: line) ↔
        if team = "Draw".toList then isInteger (floatValue line) = true
          else Splits (floatValue line) := by
      simp only [Gradeable, leg]
      constructor
      · rintro ⟨team', line', same, fits⟩
        cases same
        exact fits
      · intro fits
        exact ⟨team, line, rfl, fits⟩
    rw [own]
    by_cases draw : team = "Draw".toList
    · rw [if_pos draw]
      by_cases whole : isInteger (floatValue line) = true
      · have read : readBet .spreads (team ++ ' ' :: line) home away =
            .ok (.handicapDraw (floatValue line)) := by
          rw [reading, readSpread, noDraw, leg]
          simp only [if_pos draw, if_neg (not_not.mpr whole)]
        exact iff_of_true (settles_lineless unguarded read rfl) whole
      · have read : readBet .spreads (team ++ ' ' :: line) home away = .error .drawLine := by
          rw [reading, readSpread, noDraw, leg]
          simp only [if_pos draw, if_pos whole]
        exact iff_of_false (not_settles unguarded read) whole
    · obtain ⟨s, side⟩ := exists_sideOf named
      have read : readBet .spreads (team ++ ' ' :: line) home away =
          .ok (.handicap s (floatValue line)) := by
        rw [reading, readSpread, noDraw, leg]
        simp only [if_neg draw, side]
      have sets (tennis : sportKey = some "tennis".toList) : |floatValue line| ≤ 5 / 2 := by
        have small := sets_of_unguarded unguarded (.inr rfl) tennis
        simp only [isTennisGameLine, leg, Option.any_some, decide_eq_false_iff_not] at small
        exact not_lt.mp small
      rw [if_neg draw, settles_read unguarded read]
      exact gradeHandicap_reached _ fun z => reportable_margin sets s

theorem settles_doubleChance (unguarded : Unguarded .doubleChance selection sportKey detail) :
    Settles home away .doubleChance selection sportKey detail ↔ Paired home away selection := by
  by_cases two : ∃ first second, dcParts selection = [first, second]
  swap
  · have read : readBet .doubleChance selection home away = .error .unparseable := by
      change readDoubleChance selection home away = _
      unfold readDoubleChance
      split
      · rename_i first second parts
        exact absurd ⟨first, second, parts⟩ two
      · rfl
    refine iff_of_false (not_settles unguarded read) ?_
    rintro ⟨first, second, parts, -⟩
    exact two ⟨first, second, parts⟩
  obtain ⟨first, second, parts⟩ := two
  have own : Paired home away selection ↔
      if "Draw".toList = first ∨ "Draw".toList = second then
        (dcSide (if second = "Draw".toList then first else second) home away).isSome = true
      else ({normalizeName first, normalizeName second} : Finset Str) = {normalizeName home,
        normalizeName away} := by
    unfold Paired
    rw [parts]
    constructor
    · rintro ⟨first', second', same, paired⟩
      cases same
      exact paired
    · intro paired
      exact ⟨first, second, rfl, paired⟩
  have reading : readBet .doubleChance selection home away = readDoubleChance selection home away :=
    rfl
  unfold readDoubleChance at reading
  rw [parts] at reading
  dsimp only at reading
  rw [own]
  by_cases drawn : "Draw".toList = first ∨ "Draw".toList = second
  · rw [if_pos drawn]
    rw [if_pos drawn] at reading
    cases side : dcSide (if second = "Draw".toList then first else second) home away with
    | none =>
      rw [side] at reading
      exact iff_of_false (not_settles unguarded reading) (by simp)
    | some s =>
      rw [side] at reading
      exact iff_of_true (settles_lineless unguarded reading rfl) rfl
  · rw [if_neg drawn]
    rw [if_neg drawn] at reading
    by_cases same : ({normalizeName first, normalizeName second} : Finset Str) =
      {normalizeName home, normalizeName away}
    · rw [if_neg (not_not.mpr same)] at reading
      exact iff_of_true (settles_lineless unguarded reading rfl) same
    · rw [if_pos same] at reading
      exact iff_of_false (not_settles unguarded reading) same

/-- Which selections that name teams are graded from every reportable score. -/
theorem settles_iff (names : NamesTeams home away market selection)
    (unguarded : Unguarded market selection sportKey detail) :
    Settles home away market selection sportKey detail ↔
      Gradeable home away market selection := by
  cases names with
  | winner _ named =>
    obtain ⟨s, side⟩ := exists_sideOf named
    have read : readBet .h2h selection home away = .ok (.side s) := by simp only [readBet, side]
    exact iff_of_true (settles_lineless unguarded read rfl) trivial
  | draw =>
    cases side : sideOf "Draw".toList home away with
    | some s =>
      have read : readBet .h2h "Draw".toList home away = .ok (.side s) := by
        simp only [readBet, side]
      exact iff_of_true (settles_lineless unguarded read rfl) trivial
    | none =>
      have read : readBet .h2h "Draw".toList home away = .ok .draw := by
        simp only [readBet, side, if_true]
      exact iff_of_true (settles_lineless unguarded read rfl) trivial
  | drawNoBet _ named =>
    obtain ⟨s, side⟩ := exists_sideOf named
    have read : readBet .dnb selection home away = .ok (.drawNoBet s) := by
      simp only [readBet, side]
    exact iff_of_true (settles_lineless unguarded read rfl) trivial
  | handicap team line named number => exact settles_handicap named number unguarded
  | doubleChance first second named => exact settles_doubleChance unguarded
  | overTotal _ lined line number =>
    obtain rfl | rfl := lined
    · exact settles_line number (totalsMatch_legs number).1 unguarded
    · exact iff_of_false (not_settles unguarded rfl) id
  | underTotal _ lined line number =>
    obtain rfl | rfl := lined
    · exact settles_line number (totalsMatch_legs number).2 unguarded
    · exact iff_of_false (not_settles unguarded rfl) id
  | bothScore _ listed =>
    obtain rfl | rfl := listed
    · have read : readBet .btts "Yes".toList home away = .ok (.bothScore true) := by
        simp only [readBet, if_pos (by decide : "Yes".toList ∈ ["BTTS Yes".toList, "Yes".toList])]
      exact iff_of_true (settles_lineless unguarded read rfl) trivial
    · have read : readBet .btts "No".toList home away = .ok (.bothScore false) := by
        simp only [readBet, if_neg (by decide : "No".toList ∉ ["BTTS Yes".toList, "Yes".toList]),
          if_pos (by decide : "No".toList ∈ ["BTTS No".toList, "No".toList])]
      exact iff_of_true (settles_lineless unguarded read rfl) trivial

end Scores

end SharpEvPicks.Settlement
