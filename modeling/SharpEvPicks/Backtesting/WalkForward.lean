import SharpEvPicks.Probabilities.Devig
import SharpEvPicks.Python.Sorting
import SharpEvPicks.Python.Str

/-! The walk-forward run of `app/backtesting/walkforward.py`; a date is its ordinal. -/
namespace SharpEvPicks.Backtesting

open Python Probabilities

/-- A row of `app/ingestion/football_data.py`. -/
structure MatchRow (K : Type*) where
  matchDate : Int
  homeTeam : Str
  awayTeam : Str
  homeGoals : Int
  awayGoals : Int
  result : Str
  b365Home : Option K
  b365Draw : Option K
  b365Away : Option K
  pinnacleClosingHome : Option K
  pinnacleClosingDraw : Option K
  pinnacleClosingAway : Option K
  betfairExchangeOpenHome : Option K
  betfairExchangeOpenDraw : Option K
  betfairExchangeOpenAway : Option K
  betfairExchangeClosingHome : Option K
  betfairExchangeClosingDraw : Option K
  betfairExchangeClosingAway : Option K
  homeShots : Option Int
  awayShots : Option Int
  homeShotsOnTarget : Option Int
  awayShotsOnTarget : Option Int
  homeCorners : Option Int
  awayCorners : Option Int

/-- `"H"`, `"D"` and `"A"`. -/
inductive Outcome where
  | home | draw | away
  deriving DecidableEq, Repr

def Outcome.text : Outcome → Str
  | .home => "H".toList
  | .draw => "D".toList
  | .away => "A".toList

/-- Three values in the order of the outcomes. -/
structure Triple (K : Type*) where
  home : K
  draw : K
  away : K

def Triple.get {K : Type*} (p : Triple K) : Outcome → K
  | .home => p.home
  | .draw => p.draw
  | .away => p.away

inductive Raised where
  /-- `OverflowError` of a `date`. -/
  | overflow
  | importError
  /-- What the priced function raises. -/
  | pricing
  | devig (error : DevigError)
  | clv
  deriving DecidableEq, Repr

abbrev PricedFn (K : Type*) := Str → Str → Except Raised (Option (Triple K))

inductive Fit (K : Type*) where
  | fitted (pricedFn : PricedFn K)
  | importError
  | failed

abbrev FitFn (K : Type*) := List (MatchRow K) → Int → Fit K

structure Settings where
  warmupMatches : Int
  trainingWindowDays : Int
  refitEveryDays : Int
  devigMethod : DevigMethod

structure Bet (K : Type*) where
  matchDate : Int
  home : Str
  away : Str
  selection : Outcome
  modelProb : K
  fairProb : K
  edge : K
  ev : K
  oddsTaken : K
  won : Bool
  clv : Option K

structure BacktestReport (K : Type*) where
  nEvalMatches : Nat
  nPriced : Nat
  bets : List (Bet K)
  nFitFailures : Nat

/-- `date.max`. -/
def maxOrdinal : Int := 3652059

/-- `d - timedelta(days=days)`. -/
def dateMinus (d days : Int) : Except Raised Int :=
  if 1 ≤ d - days ∧ d - days ≤ maxOrdinal then .ok (d - days) else .error .overflow

variable {K : Type*}

def MatchRow.b365 (m : MatchRow K) : List (Option K) := [m.b365Home, m.b365Draw, m.b365Away]

def MatchRow.pinnacleClosing (m : MatchRow K) : List (Option K) :=
  [m.pinnacleClosingHome, m.pinnacleClosingDraw, m.pinnacleClosingAway]

variable [Field K] [LinearOrder K]

/-- All of the odds are there and above one. -/
def quoted (odds : List (Option K)) : Bool := odds.all fun o => o.any (1 < ·)

/-- `_has_b365`. -/
def hasB365 (m : MatchRow K) : Bool := quoted m.b365

/-- The items of a list that has three. -/
def triple (p : List K) : Triple K := ⟨p.getD 0 0, p.getD 1 0, p.getD 2 0⟩

variable [Numerics K]

def fairOf (odds : List (Option K)) (method : DevigMethod) : Except Raised (Triple K) :=
  ((devig odds.reduceOption method).mapError .devig).map triple

/-- `_closing_fair`. -/
def closingFair (m : MatchRow K) (method : DevigMethod) : Except Raised (Option (Triple K)) :=
  if quoted m.pinnacleClosing then (fairOf m.pinnacleClosing method).map some else .ok none

def clvLog (fillDecimalOdds closingFairProbability : K) : Except Raised K :=
  if fillDecimalOdds ≤ 1 then .error .clv
  else if ¬ (0 < closingFairProbability ∧ closingFairProbability < 1) then .error .clv
  else .ok (Numerics.log (fillDecimalOdds * closingFairProbability))

/-- One round of the loop over the selections. -/
def betOn (m : MatchRow K) (b365 priced fair : Triple K) (close : Option (Triple K))
    (sel : Outcome) : Except Raised (Option (Bet K)) :=
  let odds := b365.get sel
  let edge := priced.get sel - fair.get sel
  let ev := priced.get sel * (odds - 1) - (1 - priced.get sel)
  if edge ≤ 0 ∨ ev ≤ 0 then .ok none
  else do
    let clv ← close.elim (.ok none) fun p => (clvLog odds (p.get sel)).map some
    return some ⟨m.matchDate, m.homeTeam, m.awayTeam, sel, priced.get sel, fair.get sel, edge,
      ev, odds, m.result = sel.text, clv⟩

def betsOn (m : MatchRow K) (method : DevigMethod) (priced : Triple K) :
    Except Raised (List (Bet K)) := do
  let fair ← fairOf m.b365 method
  let close ← closingFair m method
  let bets ← [Outcome.home, .draw,
    .away].mapM (betOn m (triple m.b365.reduceOption) priced fair close)
  return bets.reduceOption

/-- The loop's variables. -/
structure Walk (K : Type*) where
  pricedFn : Option (PricedFn K)
  lastFit : Option Int
  report : BacktestReport K

variable (settings : Settings) (fitFn : FitFn K) (ordered : List (MatchRow K))

def refitDue (lastFit : Option Int) (d : Int) : Bool :=
  lastFit.elim true fun last => settings.refitEveryDays ≤ d - last

def history (start d : Int) : List (MatchRow K) :=
  ordered.filter fun h => start ≤ h.matchDate ∧ h.matchDate < d

/-- The refit at `d`: the priced function it leaves, and how many fits failed. -/
def refit (d : Int) : Except Raised (Option (PricedFn K) × Nat) :=
  match dateMinus d settings.trainingWindowDays with
  | .error raised => .error raised
  | .ok start =>
    if 100 ≤ (history ordered start d).length then
      match fitFn (history ordered start d) d with
      | .fitted pricedFn => .ok (some pricedFn, 0)
      | .importError => .error .importError
      | .failed => .ok (none, 1)
    else .ok (none, 0)

/-- What the loop does before it prices a match. -/
def prepare (s : Walk K) (m : MatchRow K) : Except Raised (Walk K) := do
  let report := { s.report with nEvalMatches := s.report.nEvalMatches + 1 }
  if refitDue settings s.lastFit m.matchDate then
    let (pricedFn, failures) ← refit settings fitFn ordered m.matchDate
    return ⟨pricedFn, some m.matchDate,
      { report with nFitFailures := report.nFitFailures + failures }⟩
  else return { s with report }

def price (s : Walk K) (m : MatchRow K) : Except Raised (Walk K) :=
  match s.pricedFn with
  | none => .ok s
  | some pricedFn => do
    match ← pricedFn m.homeTeam m.awayTeam with
    | none => return s
    | some priced =>
      let bets ← betsOn m settings.devigMethod priced
      return { s with report := { s.report with nPriced := s.report.nPriced + 1,
                                                bets := s.report.bets ++ bets } }

def step (s : Walk K) (m : MatchRow K) : Except Raised (Walk K) := do
  let s ← prepare settings fitFn ordered s m
  price settings s m

def walk (i : Nat) (s : Walk K) : List (MatchRow K) → Except Raised (Walk K)
  | [] => .ok s
  | m :: rest =>
    if (i : Int) < settings.warmupMatches then walk (i + 1) s rest
    else do
      let s ← step settings fitFn ordered s m
      walk (i + 1) s rest

def runWalkforward (settings : Settings) (fitFn : FitFn K) (rows : List (MatchRow K)) :
    Except Raised (BacktestReport K) :=
  let ordered := sortedBy MatchRow.matchDate rows
  let eligible := ordered.filter hasB365
  (walk settings fitFn ordered 0 ⟨none, none, ⟨0, 0, [], 0⟩⟩ eligible).map Walk.report

end SharpEvPicks.Backtesting
