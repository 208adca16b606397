import Mathlib.Data.Finset.Insert
import SharpEvPicks.Edge.Odds
import SharpEvPicks.Python.Rounding
import SharpEvPicks.Resolution.Names
import SharpEvPicks.Schemas

/-! Grading one selection from a final score, `app/settlement/outcomes.py`.
Scores and lines are exact numbers: a line is a short decimal, so the source's
floats represent every quarter line and every difference of scores exactly. -/
namespace SharpEvPicks.Settlement

open Python Resolution

inductive Refusal where
  | negativeScore | setScore | neitherTeam | unparseable | drawLine | quarterSplit | notSettleable
  | noAdvancingSide
  deriving DecidableEq, Repr

instance exceptDecidableEq [DecidableEq ε] [DecidableEq α] : DecidableEq (Except ε α)
  | .ok a, .ok b => decidable_of_iff (a = b) (by simp)
  | .error e, .error f => decidable_of_iff (e = f) (by simp)
  | .ok _, .error _ => isFalse nofun
  | .error _, .ok _ => isFalse nofun

inductive Direction where
  | over | under
  deriving DecidableEq, Repr

def isInteger (q : ℚ) : Bool := q.den == 1

theorem isInteger_iff (q : ℚ) : isInteger q = true ↔ ∃ z : Int, q = z := by
  constructor
  · intro whole
    exact ⟨q.num, (Rat.coe_int_num_of_den_eq_one (by simpa [isInteger] using whole)).symm⟩
  · rintro ⟨z, rfl⟩
    simp [isInteger]

def won (condition : Bool) : Outcome := if condition then .won else .lost

def ahComponent (margin : ℚ) : Outcome :=
  if margin > 0 then .won else if margin = 0 then .push else .lost

def combineQuarter (components : Finset Outcome) : Except Refusal Outcome :=
  if components = {.won} then .ok .won
  else if components = {.lost} then .ok .lost
  else if components = {.won, .push} then .ok .halfWon
  else if components = {.lost, .push} then .ok .halfLost
  else .error .quarterSplit

def twoWayH2hSports : List Str := ["american_football".toList]

def twoWayHandicapSports : List Str :=
  ["basketball", "tennis", "american_football"].map String.toList

def sportIn (sportKey : Option Str) (sports : List Str) : Bool := sportKey.any (· ∈ sports)

def settleH2h (selection home away : Str) (hs as_ : Int) (tiePushes : Bool) :
    Except Refusal Outcome :=
  if tiePushes ∧ hs = as_ ∧ (selection = home ∨ selection = away) then .ok .push
  else if selection = home then .ok (won (hs > as_))
  else if selection = away then .ok (won (as_ > hs))
  else if selection = "Draw".toList then .ok (won (hs = as_))
  else .error .neitherTeam

def settleBtts (selection : Str) (hs as_ : Int) : Except Refusal Outcome :=
  let both := 0 < hs && 0 < as_
  if selection ∈ ["BTTS Yes".toList, "Yes".toList] then .ok (won both)
  else if selection ∈ ["BTTS No".toList, "No".toList] then .ok (won !both)
  else .error .unparseable

def settleDnb (selection home away : Str) (hs as_ : Int) : Except Refusal Outcome :=
  if ¬ (selection = home ∨ selection = away) then .error .neitherTeam
  else if hs = as_ then .ok .push
  else .ok (won (if selection = home then hs > as_ else as_ > hs))

def totalsComponent (direction : Direction) (total : Int) (compLine : ℚ) : Outcome :=
  ahComponent (match direction with
    | .over => total - compLine
    | .under => compLine - total)

def gradeTotal (direction : Direction) (line : ℚ) (total : Int) : Except Refusal Outcome :=
  if ¬ isInteger (line * 2) then
    combineQuarter {totalsComponent direction total (line - 1 / 4),
      totalsComponent direction total (line + 1 / 4)}
  else if (total : ℚ) = line then .ok .push
  else
    let above : Bool := (total : ℚ) > line
    .ok (won (match direction with
      | .over => above
      | .under => !above))

/-- The grade of a team's handicap leg; `base` is the team's own margin. -/
def gradeHandicap (base : Int) (line : ℚ) (integerTiePushes : Bool) : Except Refusal Outcome :=
  if ¬ isInteger (line * 2) then
    combineQuarter {ahComponent (base + line - 1 / 4), ahComponent (base + line + 1 / 4)}
  else
    let margin := base + line
    if margin > 0 then .ok .won
    else if margin = 0 then .ok (if integerTiePushes then .push else .lost)
    else .ok .lost

section Text
variable [Unicode]

/-- `_TOTALS_RE.fullmatch`. -/
def totalsMatch (selection : Str) : Option (Direction × Str) :=
  match selection with
  | 'O' :: 'v' :: 'e' :: 'r' :: ' ' :: line => if isUnsigned line then some (.over, line) else none
  | 'U' :: 'n' :: 'd' :: 'e' :: 'r' :: ' ' :: line =>
    if isUnsigned line then some (.under, line) else none
  | _ => none

/-- `_EH_DRAW_RE.fullmatch`. -/
def ehDrawMatch (selection : Str) : Option Str :=
  match selection with
  | 'D' :: 'r' :: 'a' :: 'w' :: ' ' :: '(' :: rest =>
    if rest.getLast? = some ')' ∧ (isUnsigned rest.dropLast ∨ isSigned rest.dropLast) then
      some rest.dropLast
    else none
  | _ => none

def teamLine (selection : Str) : Option (Str × Str) :=
  let (team, rawLine) := rpartition ' ' selection
  if team ≠ [] ∧ isSigned rawLine then some (team, rawLine) else none

def isTennisGameLine (market : Market) (selection : Str) : Bool :=
  match market with
  | .totals => (totalsMatch selection).any fun (_, line) => 9 / 2 < floatValue line
  | .spreads => (teamLine selection).any fun (_, line) => 5 / 2 < |floatValue line|
  | _ => false

def isTennisSetsSpreadDetail (marketDetail : Option Str) : Bool :=
  marketDetail.any fun detail =>
    let detail := Unicode.lower detail
    "spreads_sets".toList.isPrefixOf detail ||
      ("asian_handicap".toList.isPrefixOf detail && "_sets".toList.isSuffixOf detail)

def isTennisGamesTotalDetail (marketDetail : Option Str) : Bool :=
  marketDetail.any fun detail =>
    let detail := Unicode.lower detail
    "over_under_games".toList.isPrefixOf detail || "totals_games".toList.isPrefixOf detail

def tennisSetScoreUngradeable (market : Market) (selection : Str) (homeScore awayScore : Int)
    (marketDetail : Option Str) : Bool :=
  if homeScore + awayScore > 5 then false
  else match market with
    | .spreads => !isTennisSetsSpreadDetail marketDetail || isTennisGameLine market selection
    | .totals => isTennisGamesTotalDetail marketDetail || isTennisGameLine market selection
    | _ => false

def settleTotals (selection : Str) (total : Int) : Except Refusal Outcome :=
  match totalsMatch selection with
  | none => .error .unparseable
  | some (direction, rawLine) => gradeTotal direction (floatValue rawLine) total

def dcSide (team home away : Str) : Option WinnerSide :=
  let token := normalizeName team
  if token = [] then none
  else if token = normalizeName home then some .home
  else if token = normalizeName away then some .away
  else none

/-- `[part.strip() for part in selection.split(" or ")]`. -/
def dcParts (selection : Str) : List Str := (splitSeq " or ".toList selection).map strip

def settleDoubleChance (selection home away : Str) (hs as_ : Int) : Except Refusal Outcome :=
  match dcParts selection with
  | [first, second] =>
    if "Draw".toList = first ∨ "Draw".toList = second then
      let team := if second = "Draw".toList then first else second
      match dcSide team home away with
      | none => .error .neitherTeam
      | some side => .ok (won (if side = .home then hs ≥ as_ else as_ ≥ hs))
    else if ({normalizeName first, normalizeName second} : Finset Str) ≠
        {normalizeName home, normalizeName away} then .error .neitherTeam
    else .ok (won (hs ≠ as_))
  | _ => .error .unparseable

def settleSpreads (selection home away : Str) (hs as_ : Int) (integerTiePushes : Bool) :
    Except Refusal Outcome :=
  match ehDrawMatch selection with
  | some line => .ok (won ((hs : ℚ) + floatValue line = as_))
  | none =>
    match teamLine selection with
    | none => .error .unparseable
    | some (team, rawLine) =>
      let line := floatValue rawLine
      if team = "Draw".toList then
        if ¬ isInteger line then .error .drawLine else .ok (won ((hs : ℚ) + line = as_))
      else if team = home then gradeHandicap (hs - as_) line integerTiePushes
      else if team = away then gradeHandicap (as_ - hs) line integerTiePushes
      else .error .neitherTeam

def settleSelection (market : Market) (selection home away : Str) (homeScore awayScore : Int)
    (sportKey marketDetail : Option Str) : Except Refusal Outcome :=
  if homeScore < 0 ∨ awayScore < 0 then .error .negativeScore
  else if sportKey = some "tennis".toList ∧
      tennisSetScoreUngradeable market selection homeScore awayScore marketDetail then
    .error .setScore
  else match market with
    | .h2h =>
      settleH2h selection home away homeScore awayScore (sportIn sportKey twoWayH2hSports)
    | .totals => settleTotals selection (homeScore + awayScore)
    | .btts => settleBtts selection homeScore awayScore
    | .dnb => settleDnb selection home away homeScore awayScore
    | .doubleChance => settleDoubleChance selection home away homeScore awayScore
    | .spreads =>
      settleSpreads selection home away homeScore awayScore (sportIn sportKey twoWayHandicapSports)
    | _ => .error .notSettleable

/-- A retirement after a completed set: the advancing player has won, the rest is void. -/
def settleSelectionRetired (market : Market) (selection home away : Str)
    (winnerSide : Option WinnerSide) : Except Refusal Outcome :=
  match winnerSide with
  | none => .error .noAdvancingSide
  | some side =>
    match market with
    | .h2h =>
      if selection = home then .ok (won (side = .home))
      else if selection = away then .ok (won (side = .away))
      else .error .neitherTeam
    | _ => .ok .void

/-! Money. The arithmetic is that of exact decimals. -/

/-- The profit of a stake; winnings at a named exchange are net of its commission. -/
def pickPnl (outcome : Outcome) (stake decimalOdds : ℚ) (bookmaker : Option Str) : ℚ :=
  let odds := match bookmaker with
    | some book =>
      if outcome = .won ∨ outcome = .halfWon then
        Edge.effectiveOdds Edge.exchangeCommission book decimalOdds
      else decimalOdds
    | none => decimalOdds
  match outcome with
  | .won => roundTo 2 (stake * (odds - 1))
  | .lost => roundTo 2 (-stake)
  | .halfWon => roundTo 2 (stake / 2 * (odds - 1))
  | .halfLost => roundTo 2 (-stake / 2)
  | .void | .push => 0

omit [Unicode] in
def pickRoi (pnl stake : ℚ) : Option ℚ := if stake = 0 then none else some (pnl / stake)

end Text
end SharpEvPicks.Settlement
