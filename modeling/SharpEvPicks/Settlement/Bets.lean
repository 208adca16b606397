import Mathlib.Tactic.Linarith
import SharpEvPicks.Settlement.Outcomes

/-! What a selection means once it is read against the names of its row, apart
from any score. `settle_selection` reads the bet and then grades it. -/
namespace SharpEvPicks.Settlement

open Python Resolution

inductive Bet where
  | side (s : WinnerSide)
  | draw
  | total (direction : Direction) (line : ℚ)
  | bothScore (yes : Bool)
  | drawNoBet (s : WinnerSide)
  | sideOrDraw (s : WinnerSide)
  | eitherSide
  | handicap (s : WinnerSide) (line : ℚ)
  | handicapDraw (line : ℚ)
  deriving DecidableEq

def margin : WinnerSide → Int → Int → Int
  | .home, hs, as_ => hs - as_
  | .away, hs, as_ => as_ - hs

def gradeBet (sportKey : Option Str) : Bet → Int → Int → Except Refusal Outcome
  | .side s, hs, as_ =>
    if sportIn sportKey twoWayH2hSports ∧ hs = as_ then .ok .push
      else .ok (won (margin s hs as_ > 0))
  | .draw, hs, as_ => .ok (won (hs = as_))
  | .total direction line, hs, as_ => gradeTotal direction line (hs + as_)
  | .bothScore yes, hs, as_ => .ok (won ((0 < hs && 0 < as_) == yes))
  | .drawNoBet s, hs, as_ => if hs = as_ then .ok .push else .ok (won (margin s hs as_ > 0))
  | .sideOrDraw s, hs, as_ => .ok (won (margin s hs as_ ≥ 0))
  | .eitherSide, hs, as_ => .ok (won (hs ≠ as_))
  | .handicap s line, hs, as_ =>
    gradeHandicap (margin s hs as_) line (sportIn sportKey twoWayHandicapSports)
  | .handicapDraw line, hs, as_ => .ok (won ((hs : ℚ) + line = as_))

def sideOf (team home away : Str) : Option WinnerSide :=
  if team = home then some .home else if team = away then some .away else none

section Reading
variable [Unicode]

def readDoubleChance (selection home away : Str) : Except Refusal Bet :=
  match dcParts selection with
  | [first, second] =>
    if "Draw".toList = first ∨ "Draw".toList = second then
      match dcSide (if second = "Draw".toList then first else second) home away with
      | none => .error .neitherTeam
      | some s => .ok (.sideOrDraw s)
    else if ({normalizeName first, normalizeName second} : Finset Str) ≠
        {normalizeName home, normalizeName away} then .error .neitherTeam
    else .ok .eitherSide
  | _ => .error .unparseable

def readSpread (selection home away : Str) : Except Refusal Bet :=
  match ehDrawMatch selection with
  | some line => .ok (.handicapDraw (floatValue line))
  | none =>
    match teamLine selection with
    | none => .error .unparseable
    | some (team, line) =>
      if team = "Draw".toList then
        if ¬ isInteger (floatValue line) then .error .drawLine
        else .ok (.handicapDraw (floatValue line))
      else match sideOf team home away with
        | some s => .ok (.handicap s (floatValue line))
        | none => .error .neitherTeam

def readBet (market : Market) (selection home away : Str) : Except Refusal Bet :=
  match market with
  | .h2h =>
    match sideOf selection home away with
    | some s => .ok (.side s)
    | none => if selection = "Draw".toList then .ok .draw else .error .neitherTeam
  | .totals =>
    match totalsMatch selection with
    | some (direction, line) => .ok (.total direction (floatValue line))
    | none => .error .unparseable
  | .btts =>
    if selection ∈ ["BTTS Yes".toList, "Yes".toList] then .ok (.bothScore true)
    else if selection ∈ ["BTTS No".toList, "No".toList] then .ok (.bothScore false)
    else .error .unparseable
  | .dnb =>
    match sideOf selection home away with
    | some s => .ok (.drawNoBet s)
    | none => .error .neitherTeam
  | .doubleChance => readDoubleChance selection home away
  | .spreads => readSpread selection home away
  | _ => .error .notSettleable

/-! One equation for each market. -/

theorem settleH2h_eq (selection home away : Str) (hs as_ : Int) (sportKey : Option Str) :
    settleH2h selection home away hs as_ (sportIn sportKey twoWayH2hSports) =
      (readBet .h2h selection home away).bind fun b => gradeBet sportKey b hs as_ := by
  unfold settleH2h readBet sideOf
  by_cases atHome : selection = home
  · simp only [atHome, true_or, and_true, if_true, Except.bind, gradeBet, margin, gt_iff_lt,
      sub_pos]
  · by_cases atAway : selection = away
    · have other : away ≠ home := atAway ▸ atHome
      simp [atAway, other, Except.bind, gradeBet, margin]
    · simp only [atHome, atAway, or_false, and_false, if_false]
      by_cases drawn : selection = "Draw".toList
      · simp only [drawn, if_true, Except.bind, gradeBet]
      · simp only [drawn, if_false, Except.bind]

theorem settleTotals_eq (selection home away : Str) (hs as_ : Int) (sportKey : Option Str) :
    settleTotals selection (hs + as_) =
      (readBet .totals selection home away).bind fun b => gradeBet sportKey b hs as_ := by
  simp only [settleTotals, readBet]
  cases totalsMatch selection with
  | none => rfl
  | some found => rfl

theorem settleBtts_eq (selection home away : Str) (hs as_ : Int) (sportKey : Option Str) :
    settleBtts selection hs as_ =
      (readBet .btts selection home away).bind fun b => gradeBet sportKey b hs as_ := by
  simp only [settleBtts, readBet]
  split
  · simp only [Except.bind, gradeBet, beq_true]
  · split
    · simp only [Except.bind, gradeBet, beq_false]
    · rfl

theorem settleDnb_eq (selection home away : Str) (hs as_ : Int) (sportKey : Option Str) :
    settleDnb selection home away hs as_ =
      (readBet .dnb selection home away).bind fun b => gradeBet sportKey b hs as_ := by
  unfold settleDnb readBet sideOf
  by_cases atHome : selection = home
  · simp [atHome, Except.bind, gradeBet, margin]
  · by_cases atAway : selection = away
    · have other : away ≠ home := atAway ▸ atHome
      simp [atAway, other, Except.bind, gradeBet, margin]
    · simp [atHome, atAway, Except.bind]

theorem settleDoubleChance_eq (selection home away : Str) (hs as_ : Int) (sportKey : Option Str) :
    settleDoubleChance selection home away hs as_ =
      (readBet .doubleChance selection home away).bind fun b => gradeBet sportKey b hs as_ := by
  change settleDoubleChance selection home away hs as_ =
    (readDoubleChance selection home away).bind fun b => gradeBet sportKey b hs as_
  unfold settleDoubleChance readDoubleChance
  generalize dcParts selection = parts
  match parts with
  | [] => rfl
  | [_] => rfl
  | _ :: _ :: _ :: _ => rfl
  | [first, second] =>
    dsimp only
    split
    · cases dcSide (if second = "Draw".toList then first else second) home away with
      | none => rfl
      | some s => cases s <;> simp [Except.bind, gradeBet, margin]
    · split <;> rfl

theorem settleSpreads_eq (selection home away : Str) (hs as_ : Int) (sportKey : Option Str) :
    settleSpreads selection home away hs as_ (sportIn sportKey twoWayHandicapSports) =
      (readBet .spreads selection home away).bind fun b => gradeBet sportKey b hs as_ := by
  simp only [settleSpreads, readBet, readSpread]
  cases ehDrawMatch selection with
  | some line => rfl
  | none =>
    cases teamLine selection with
    | none => rfl
    | some parts =>
      obtain ⟨team, line⟩ := parts
      by_cases drawLeg : team = "Draw".toList
      · simp only [drawLeg, if_true]
        split <;> rfl
      · simp only [drawLeg, if_false, sideOf]
        by_cases atHome : team = home
        · simp only [atHome, if_true]
          rfl
        · by_cases atAway : team = away
          · simp only [atAway, if_true, atAway ▸ atHome, if_false]
            rfl
          · simp only [atHome, atAway, if_false]
            rfl

/-- Grading reads the bet first; what is left depends on the score and the sport only. -/
theorem settleSelection_eq (market : Market) (selection home away : Str) (hs as_ : Int)
    (sportKey marketDetail : Option Str) :
    settleSelection market selection home away hs as_ sportKey marketDetail =
      if hs < 0 ∨ as_ < 0 then .error .negativeScore
      else if sportKey = some "tennis".toList ∧
          tennisSetScoreUngradeable market selection hs as_ marketDetail then .error .setScore
      else (readBet market selection home away).bind fun b => gradeBet sportKey b hs as_ := by
  unfold settleSelection
  split
  · rfl
  · split
    · rfl
    · cases market with
      | h2h => exact settleH2h_eq selection home away hs as_ sportKey
      | totals => exact settleTotals_eq selection home away hs as_ sportKey
      | btts => exact settleBtts_eq selection home away hs as_ sportKey
      | dnb => exact settleDnb_eq selection home away hs as_ sportKey
      | doubleChance => exact settleDoubleChance_eq selection home away hs as_ sportKey
      | spreads => exact settleSpreads_eq selection home away hs as_ sportKey
      | teamTotals => rfl
      | correctScore => rfl
      | other => rfl

end Reading

/-! A row with the sides the other way round. -/

def turnSide : WinnerSide → WinnerSide
  | .home => .away
  | .away => .home

def Bet.turn : Bet → Bet
  | .side s => .side (turnSide s)
  | .drawNoBet s => .drawNoBet (turnSide s)
  | .sideOrDraw s => .sideOrDraw (turnSide s)
  | .handicap s line => .handicap (turnSide s) line
  | .handicapDraw line => .handicapDraw (-line)
  | b => b

theorem margin_turn (s : WinnerSide) (hs as_ : Int) :
    margin (turnSide s) hs as_ = margin s as_ hs := by
  cases s <;> rfl

theorem gradeBet_turn (sportKey : Option Str) (b : Bet) (hs as_ : Int) :
    gradeBet sportKey b.turn hs as_ = gradeBet sportKey b as_ hs := by
  cases b with
  | side s => simp only [Bet.turn, gradeBet, margin_turn, eq_comm]
  | draw => simp only [Bet.turn, gradeBet, eq_comm]
  | total direction line => simp only [Bet.turn, gradeBet, Int.add_comm]
  | bothScore yes => simp only [Bet.turn, gradeBet, Bool.and_comm]
  | drawNoBet s => simp only [Bet.turn, gradeBet, margin_turn, eq_comm]
  | sideOrDraw s => simp only [Bet.turn, gradeBet, margin_turn]
  | eitherSide => simp only [Bet.turn, gradeBet, ne_comm]
  | handicap s line => simp only [Bet.turn, gradeBet, margin_turn]
  | handicapDraw line =>
    have same : (hs : ℚ) + -line = as_ ↔
      (as_ : ℚ) + line = hs := by constructor <;> intro <;> linarith
    simp only [Bet.turn, gradeBet, same]

end SharpEvPicks.Settlement
