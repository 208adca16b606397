import SharpEvPicks.Ingestion.MarketCache
import SharpEvPicks.Python.Format
import SharpEvPicks.Resolution.Matching

/-! The join of football-data rows with the closes of the exchange: `home_draw_away_close` and
`attach_betfair_close` of `app/ingestion/betfair_bsp.py`. -/
namespace SharpEvPicks.Ingestion.BetfairJoin

open Python Resolution

def drawSelectionId : Int := 58805

/-! The close of a market for a fixture. -/

structure HdaClose where
  homeClose : Option ℚ
  drawClose : Option ℚ
  awayClose : Option ℚ
  result : Option Str

/-- The runners found so far. -/
structure Sides where
  home : Option BetfairRunner
  away : Option BetfairRunner
  draw : Option BetfairRunner

section Names
variable [Unicode]

def isDraw (aliases : AliasTable) (r : BetfairRunner) : Bool :=
  r.selectionId = drawSelectionId || r.name.any fun name => aliases.canonical name = "draw".toList

/-- `none` when a side is found twice. -/
def addRunner (aliases : AliasTable) (targetHome targetAway : Str) (sides : Sides)
    (r : BetfairRunner) : Option Sides :=
  if isDraw aliases r then some { sides with draw := some r }
  else
    match r.name with
    | none => some sides
    | some name =>
      if aliases.canonical name = targetHome then
        if sides.home.isSome then none else some { sides with home := some r }
      else if aliases.canonical name = targetAway then
        if sides.away.isSome then none else some { sides with away := some r }
      else some sides

def hasWon (r : BetfairRunner) : Bool := r.won = some true

def homeDrawAwayClose (aliases : AliasTable) (market : BetfairMarketClose) (home away : Str) :
    Option HdaClose :=
  let targetHome := aliases.canonical home
  let targetAway := aliases.canonical away
  if targetHome = [] ∨ targetAway = [] ∨ targetHome = targetAway then none
  else
    match market.runners.foldlM (addRunner aliases targetHome targetAway)
      ⟨none, none, none⟩ with
    | some ⟨some homeRunner, some awayRunner, drawRunner⟩ =>
      some
        { homeClose := homeRunner.closePrice
          drawClose := drawRunner.bind BetfairRunner.closePrice
          awayClose := awayRunner.closePrice
          result :=
            if hasWon homeRunner then some "H".toList
            else if hasWon awayRunner then some "A".toList
            else if drawRunner.any hasWon then some "D".toList
            else none }
    | _ => none

end Names

/-! The candidates. -/

/-- `by_ref` and `by_date`. -/
structure Index where
  byRef : Dict Str BetfairMarketClose
  byDate : Dict Int (List EventCandidate)

def Index.empty : Index := ⟨Dict.empty, Dict.empty⟩

def nonDraw (m : BetfairMarketClose) : List BetfairRunner :=
  m.runners.filter fun r => r.selectionId ≠ drawSelectionId && r.name.isSome

/-- The candidate of a market, when there are `known` references. -/
def candidateOf (known : Nat) (m : BetfairMarketClose) : Option EventCandidate :=
  match m.kickoffUtc, nonDraw m with
  | some kickoff, home :: away :: _ =>
    some ⟨if m.marketId = [] then "mkt-".toList ++ natText known else m.marketId,
      home.name.getD [], away.name.getD [], kickoff⟩
  | _, _ => none

def Index.add (index : Index) (m : BetfairMarketClose) : Index :=
  match candidateOf index.byRef.entries.length m with
  | none => index
  | some cand =>
    { byRef := index.byRef.set cand.ref m
      byDate := index.byDate.modify (dateOf cand.kickoff) fun old => old.getD [] ++ [cand] }

def indexOf (markets : List BetfairMarketClose) : Index := markets.foldl Index.add Index.empty

/-! The rows. -/

/-- A row of a file of football-data; a value can be `None`. -/
abbrev FdRow := Dict Str (Option Str)

/-- `row.get(column) or ""`. -/
def cell (row : FdRow) (column : String) : Str := (row.get? column.toList).join.getD []

/-- `datetime.strptime(text, format)`, as an instant in UTC; `none` is a `ValueError`. -/
class DateFormats where
  strptime : Str → String → Option Int

/-- What a row asks the matcher. -/
structure Asked where
  home : Str
  away : Str
  kickoff : Int

section Rows
variable [DateFormats]

/-- `_fd_date_to_utc`. -/
def fdDateToUtc (raw : Str) : Option Int :=
  (DateFormats.strptime (strip raw) "%d/%m/%Y").or (DateFormats.strptime (strip raw) "%d/%m/%y")

/-- `none` when the row lacks a team or a date. -/
def asked (row : FdRow) : Option Asked :=
  let home := strip (cell row "HomeTeam")
  let away := strip (cell row "AwayTeam")
  if home = [] ∨ away = [] then none
  else (fdDateToUtc (cell row "Date")).map fun kickoff => ⟨home, away, kickoff⟩

end Rows

def minDay : Int := -719162

def maxDay : Int := 2932896

/-- `range(-max_day_drift, max_day_drift + 1)`. -/
def offsets (maxDayDrift : Int) : List Int :=
  (List.range (2 * maxDayDrift + 1).toNat).map fun (i : Nat) => (i : Int) - maxDayDrift

/-- The candidates of the days around `kickoff`; `none` is an `OverflowError`. -/
def localCandidates (index : Index) (maxDayDrift kickoff : Int) : Option (List EventCandidate) :=
  ((offsets maxDayDrift).mapM fun off =>
    if minDay ≤ dateOf kickoff + off ∧ dateOf kickoff + off ≤ maxDay then
      some ((index.byDate.get? (dateOf kickoff + off)).getD [])
    else none).map List.flatten

/-- The query of a row; its `kickoff` is a date, so the whole window of days is allowed. -/
def Asked.query (a : Asked) (aliases : AliasTable) (maxDayDrift : Int) : StrictQuery where
  home := a.home
  away := a.away
  kickoff := a.kickoff
  aliases := aliases
  maxDayDrift := maxDayDrift
  maxMinuteDrift := (maxDayDrift + 1) * 24 * 60

/-! The join. -/

/-- What becomes of a row: the texts of its closes, when it is joined. -/
inductive Verdict where
  | unmatched | resultConflict
  | joined (home : Str) (draw : Option Str) (away : Str)
  deriving DecidableEq

structure JoinStats where
  nFdRows : Nat
  nMarkets : Nat
  nJoined : Nat
  nUnmatched : Nat
  nResultConflict : Nat

/-- The closing slots that are written, and the draw's if there is one. -/
def closingSlots (home : Str) (draw : Option Str) (away : Str) : List (String × Str) :=
  [("PSCH", home), ("PSCA", away), ("MaxCH", home), ("MaxCA", away)] ++
    draw.elim [] fun draw => [("PSCD", draw), ("MaxCD", draw)]

/-- Where the close comes from. -/
def provenance (ref : Str) (kickoff : Option Int) : List (String × Str) :=
  ("BetfairMarketId", ref) :: (kickoff.map fun t => ("_betfair_kickoff_utc", isoformat t)).toList

def withClose (row : FdRow) (ref : Str) (kickoff : Option Int) (home : Str) (draw : Option Str)
    (away : Str) : FdRow :=
  (closingSlots home draw away ++ provenance ref kickoff).foldl
    (fun row slot => row.set slot.1.toList (some slot.2)) row

section Join
variable [Unicode] [Printers] [DateFormats]

/-- The gates on the close of the market for the row. -/
def verdict (aliases : AliasTable) (row : FdRow) (a : Asked) (market : BetfairMarketClose) :
    Verdict :=
  match homeDrawAwayClose aliases market a.home a.away with
  | none => .unmatched
  | some close =>
    match close.homeClose, close.awayClose with
    | some homeClose, some awayClose =>
      let ftr := strip (cell row "FTR")
      if close.result.isSome ∧ ftr ∈ ["H".toList, "D".toList, "A".toList] ∧
        close.result ≠ some ftr then .resultConflict
      else .joined (Printers.decimal homeClose) (close.drawClose.map Printers.decimal)
        (Printers.decimal awayClose)
    | _, _ => .unmatched

/-- A pass over a row: the verdict, and the new row if it is joined. `none` is an `OverflowError`.
-/
def attachRow (aliases : AliasTable) (index : Index) (maxDayDrift : Int) (row : FdRow) :
    Option (Verdict × Option FdRow) :=
  match asked row with
  | none => some (.unmatched, none)
  | some a =>
    (localCandidates index maxDayDrift a.kickoff).map fun candidates =>
      match matchEvent (a.query aliases maxDayDrift) candidates with
      | none => (.unmatched, none)
      | some found =>
        match index.byRef.get? found.ref with
        -- a candidate's reference is in the index
        | none => (.unmatched, none)
        | some market =>
          match verdict aliases row a market with
          | .joined home draw away =>
            (.joined home draw away,
              some (withClose row found.ref market.kickoffUtc home draw away))
          | v => (v, none)

def attachBetfairClose (aliases : AliasTable) (fdRows : List FdRow)
    (markets : List BetfairMarketClose) (maxDayDrift : Int) : Option (List FdRow × JoinStats) :=
  (fdRows.mapM (attachRow aliases (indexOf markets) maxDayDrift)).map fun passes =>
    let joined := passes.filterMap Prod.snd
    (joined,
      { nFdRows := fdRows.length
        nMarkets := markets.length
        nJoined := joined.length
        nUnmatched := passes.countP fun pass => pass.1 = .unmatched
        nResultConflict := passes.countP fun pass => pass.1 = .resultConflict })

end Join

end SharpEvPicks.Ingestion.BetfairJoin
