import SharpEvPicks.Ingestion.ExchangeBooks
import SharpEvPicks.Ingestion.LineTokens

/-! Handicap and goal lines of the exchange as two-sided quotes, `join_extended_lines` of
`app/ingestion/betfair_api.py`. -/
namespace SharpEvPicks.Ingestion

open Python Pipeline Transition

/-- Best levels by selection and line. -/
abbrev LineBook := Dict (Int × ℚ) BackLevel

/-- The kinds of two-sided lines: a handicap by the line of the home side, a total by its goals. -/
inductive LineKind where
  | handicap | total
  deriving DecidableEq, Repr

/-- The home or over side comes first. -/
inductive LineSide where
  | first | second
  deriving DecidableEq, Repr

def LineKind.market : LineKind → Market
  | .handicap => .spreads
  | .total => .totals

/-- `_is_fractional_line`. -/
def isFractionalLine (value : ℚ) : Bool := 1 / 1000000000 < |value - roundHalfEven value|

namespace LineKind

def admits (kind : LineKind) (line : ℚ) : Bool :=
  match kind with
  | .handicap => isFractionalLine line
  | .total => 0 < line && isFractionalLine line

/-- Under which line the other side is priced. -/
def opposite (kind : LineKind) (line : ℚ) : ℚ :=
  match kind with
  | .handicap => lineKey (-line)
  | .total => line

def detail [Unicode] (kind : LineKind) (line : ℚ) : Option Str :=
  match kind with
  | .handicap => spreadDetail line
  | .total => totalsDetail line

end LineKind

/-- `BetfairLineQuote`; the market and the name of the side go with the kind. -/
structure LineQuote where
  marketId : Str
  eventId : Str
  kind : LineKind
  marketDetail : Str
  side : LineSide
  line : ℚ
  level : BackLevel

/-- The price maps of the two sides of a market, by line. -/
structure Sides where
  first : Dict ℚ BackLevel := .empty
  second : Dict ℚ BackLevel := .empty

namespace Sides

def put (sides : Sides) : LineSide × ℚ × BackLevel → Sides
  | (.first, line, level) => { sides with first := sides.first.set line level }
  | (.second, line, level) => { sides with second := sides.second.set line level }

def at_ (sides : Sides) : LineSide → Dict ℚ BackLevel
  | .first => sides.first
  | .second => sides.second

/-- The loop over the runners; what `read` finds no side, line and level for is skipped. -/
def gather (read : Runner → Option (LineSide × ℚ × BackLevel)) (runners : List Runner) :
    Sides :=
  (runners.filterMap read).foldl put {}

end Sides

section Quotes
variable [CaseMaps]

/-- Of one side and then the other, for every line that is priced on both. -/
def pairedQuotes (market : MarketCatalogue) (kind : LineKind) (sides : Sides) : List LineQuote :=
  (sortedBy id sides.first.keys).flatMap fun line =>
    if !kind.admits line then []
    else
      match sides.first.get? line, sides.second.get? (kind.opposite line), kind.detail line with
      | some first, some second, some detail =>
        [⟨market.marketId, market.eventId, kind, detail, .first, line, first⟩,
          ⟨market.marketId, market.eventId, kind, detail, .second, line, second⟩]
      | _, _, _ => []

def foldedName (name : Str) : Str := CaseMaps.casefold (strip name)

/-- The side of a handicap runner by its name. -/
def handicapSide (teams : Str × Str) (name : Str) : Option LineSide :=
  if foldedName name = foldedName teams.1 then some .first
  else if foldedName name = foldedName teams.2 then some .second
  else none

def readHandicap (teams : Str × Str) (perRunner : LineBook) (r : Runner) :
    Option (LineSide × ℚ × BackLevel) := do
  let line := lineKey (← r.handicap)
  let level ← perRunner.get? (r.selectionId, line)
  let side ← handicapSide teams r.name
  some (side, line, level)

/-- `_asian_handicap_quotes`. -/
def asianHandicapQuotes (market : MarketCatalogue) (perRunner : LineBook) (teams : Str × Str) :
    List LineQuote :=
  if foldedName teams.1 = [] ∨ foldedName teams.2 = [] ∨
    foldedName teams.1 = foldedName teams.2 then []
  else pairedQuotes market .handicap (.gather (readHandicap teams perRunner) market.runners)

def totalSide (name : Str) : Option LineSide :=
  if "over".toList.isPrefixOf (foldedName name) then some .first
  else if "under".toList.isPrefixOf (foldedName name) then some .second
  else none

/-- A runner of a total; `fixedLine` is the line of a market type that has one. -/
def readTotal (fixedLine : Option ℚ) (perRunner : LineBook) (r : Runner) :
    Option (LineSide × ℚ × BackLevel) := do
  let handicap := lineKey (r.handicap.getD 0)
  let level ← perRunner.get? (r.selectionId, handicap)
  let side ← totalSide r.name
  some (side, (fixedLine.map lineKey).getD handicap, level)

/-- `_totals_quotes_for_lines` of `_over_under_sides`. -/
def totalQuotes (market : MarketCatalogue) (perRunner : LineBook) (fixedLine : Option ℚ) :
    List LineQuote :=
  pairedQuotes market .total (.gather (readTotal fixedLine perRunner) market.runners)

/-- The line of `^OVER_UNDER_(\d{2})$`. -/
def overUnderLine (marketType : Str) : Option ℚ :=
  match marketType.dropPrefix? "OVER_UNDER_".toList with
  | some [tens, units] =>
    match Unicode.decimal tens, Unicode.decimal units with
    | some t, some u => some ((10 * t + u) / 10)
    | _, _ => none
  | _ => none

def marketLines (homeAway : Dict Str (Str × Str)) (market : MarketCatalogue)
    (perRunner : LineBook) : List LineQuote :=
  let marketType := CaseMaps.upper (strip market.marketType)
  if marketType = "ASIAN_HANDICAP".toList then
    match homeAway.get? market.eventId with
    | some teams => asianHandicapQuotes market perRunner teams
    | none => []
  else if marketType = "ALT_TOTAL_GOALS".toList then totalQuotes market perRunner none
  else
    match overUnderLine marketType with
    | some line => totalQuotes market perRunner (some line)
    | none => []

def joinExtendedLines (catalogue : List MarketCatalogue) (books : Dict Str LineBook)
    (homeAway : Dict Str (Str × Str)) : List LineQuote :=
  catalogue.flatMap fun market =>
    match books.get? market.marketId with
    | some perRunner => if perRunner.entries = [] then [] else marketLines homeAway market perRunner
    | none => []

end Quotes
end SharpEvPicks.Ingestion
