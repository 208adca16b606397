import Mathlib.Data.Char
import Mathlib.Data.List.Lex
import Mathlib.Data.Prod.Lex
import SharpEvPicks.Ingestion.ExchangeBooks
import SharpEvPicks.Ingestion.MarketCache
import SharpEvPicks.Python.Splitting
import SharpEvPicks.Resolution.Aliases

/-! The anchor dataset of the validation run: `build_anchor_rows` of
`app/backtesting/arcadia_anchor.py`. -/
namespace SharpEvPicks.Backtesting.Arcadia

open Python Resolution Ingestion

def anchorSource : String := "pinnacle_arcadia"

def parserMethod : String := "arcadia-json-feed/odds_snapshots-v1"

/-- `date(2026, 7, 1)` and `date(2026, 12, 31)`. -/
def eligibleWindowStart : Int := 20635
def eligibleWindowEnd : Int := 20818

def eligibleSourceSportKeys : List Str := ["pinnacle_soccer".toList]

def anchorMinPreKo : Int := seconds 3600
def anchorMaxPreKo : Int := seconds 86400
def closeWindow : Int := seconds 3600
def minAnchorCloseGap : Int := seconds 1800

/-- The rejection reasons. -/
inductive Rejection where
  | unsupportedMarket | incompleteOutcomeSet | selectionUnresolved | windowIneligible
  | sportIneligible | anchorStale | anchorSuperseded | anchorMissing | closeTautological
  | eventUnmatched | eventAmbiguous | kickoffOutOfWindow | marketMismatch | lineMismatch
  | selectionMismatch
  deriving DecidableEq

def Rejection.text : Rejection → String
  | unsupportedMarket => "unsupported_market"
  | incompleteOutcomeSet => "incomplete_outcome_set"
  | selectionUnresolved => "selection_unresolved"
  | windowIneligible => "window_ineligible"
  | sportIneligible => "sport_ineligible"
  | anchorStale => "anchor_stale"
  | anchorSuperseded => "anchor_superseded"
  | anchorMissing => "anchor_missing"
  | closeTautological => "close_tautological"
  | eventUnmatched => "event_unmatched"
  | eventAmbiguous => "event_ambiguous"
  | kickoffOutOfWindow => "kickoff_out_of_window"
  | marketMismatch => "market_mismatch"
  | lineMismatch => "line_mismatch"
  | selectionMismatch => "selection_mismatch"

/-- A row of `odds_snapshots`. -/
structure SnapshotObs where
  snapshotId : Int
  eventId : Int
  sportKey : Str
  league : Str
  home : Str
  away : Str
  startsAt : Int
  market : Str
  selection : Str
  decimalOdds : ℚ
  capturedAt : Int
  dated : InCalendar startsAt
  deriving DecidableEq

inductive Role where
  | anchor | closeSecondary
  deriving DecidableEq

structure AnchorRow where
  source : Str
  sourceEventId : Int
  sourceMarketId : Str
  canonicalEventId : Option Int
  sport : Str
  league : Str
  home : Str
  away : Str
  eventStartTimeUtc : Str
  marketType : Str
  period : Str
  line : Option ℚ
  selection : Str
  price : Str
  capturedAt : Str
  freshnessSeconds : Option Int
  rawSnapshotId : Int
  parserMethod : Str
  matchConfidence : Option ℚ
  matchMethod : Option Str
  usable : Bool
  rejectionReason : Option Rejection
  role : Role

/-! Markets and their sides. -/

/-- The eligible markets, `"1x2"` and `"ou25"`. -/
inductive Market where
  | oneXTwo | ou25
  deriving DecidableEq

namespace Market

def text : Market → Str
  | oneXTwo => "1x2".toList
  | ou25 => "ou25".toList

def line : Market → Option ℚ
  | oneXTwo => none
  | ou25 => some (5 / 2)

/-- `OUTCOMES_REQUIRED`. -/
def outcomesRequired : Market → Nat
  | oneXTwo => 3
  | ou25 => 2

end Market

def matchPeriod : Str := "match".toList

def classifyMarket (marketKey : Str) : Option Market :=
  if marketKey = "h2h".toList then some .oneXTwo
  else if marketKey = "over_under_2_5".toList then some .ou25
  else none

inductive Side where
  | home | draw | away | overGoals | underGoals
  deriving DecidableEq

def Side.text : Side → Str
  | home => "home".toList
  | draw => "draw".toList
  | away => "away".toList
  | overGoals => "over".toList
  | underGoals => "under".toList

section Names
variable [CaseMaps]

def resolveSelectionSide (selection home away : Str) (market : Market) (aliases : AliasTable) :
    Option Side :=
  let sel := strip selection
  match market with
  | .ou25 =>
    let low := CaseMaps.casefold sel
    if "over".toList.isPrefixOf low then some .overGoals
    else if "under".toList.isPrefixOf low then some .underGoals
    else none
  | .oneXTwo =>
    if CaseMaps.casefold sel = "draw".toList then some .draw
    else
      let canon := aliases.canonical sel
      if canon ≠ [] ∧ canon = aliases.canonical home then some .home
      else if canon ≠ [] ∧ canon = aliases.canonical away then some .away
      else none

def sideOf (aliases : AliasTable) (market : Market) (obs : SnapshotObs) : Option Side :=
  resolveSelectionSide obs.selection obs.home obs.away market aliases

end Names

/-! The rows. -/

/-- What a row says beside its observation: the keyword arguments of `_row`. -/
structure Label where
  marketType : Str
  period : Str
  line : Option ℚ
  selection : Str
  usable : Bool
  reason : Option Rejection
  role : Role

/-- An entry of `canonical_matches`: the event, the confidence and the method. -/
structure CanonicalMatch where
  eventId : Int
  confidence : ℚ
  method : Str

/-- `str(n)`. -/
def intText (n : Int) : Str := if n < 0 then '-' :: natText n.natAbs else natText n.natAbs

/-- `_iso`. -/
def iso (t : Int) : Str := replace "+00:00".toList "Z".toList (isoformat t)

def removeprefix (start s : Str) : Str := if start.isPrefixOf s then s.drop start.length else s

section Rows
variable [Printers]

/-- `_row`. -/
def row (matched : Option CanonicalMatch) (obs : SnapshotObs) (label : Label) : AnchorRow where
  source := anchorSource.toList
  sourceEventId := obs.eventId
  sourceMarketId := intText obs.eventId ++ ':' :: obs.market
  canonicalEventId := matched.map CanonicalMatch.eventId
  sport := removeprefix "pinnacle_".toList obs.sportKey
  league := obs.league
  home := obs.home
  away := obs.away
  eventStartTimeUtc := iso obs.startsAt
  marketType := label.marketType
  period := label.period
  line := label.line
  selection := label.selection
  price := Printers.decimal obs.decimalOdds
  capturedAt := iso obs.capturedAt
  freshnessSeconds := some ((obs.startsAt - obs.capturedAt).tdiv (seconds 1))
  rawSnapshotId := obs.snapshotId
  parserMethod := parserMethod.toList
  matchConfidence := matched.map CanonicalMatch.confidence
  matchMethod := matched.map CanonicalMatch.method
  usable := label.usable
  rejectionReason := label.reason
  role := label.role

end Rows

/-! A group: the observations of one market of an event. -/

/-- A row of no use. -/
def Market.rejected (market : Market) (selection : Str) (reason : Rejection) : Label :=
  ⟨market.text, matchPeriod, market.line, selection, false, some reason, .anchor⟩

/-- Why a group is rejected as a whole, by its first observation. -/
def gate (first : SnapshotObs) : Option Rejection :=
  if first.sportKey ∉ eligibleSourceSportKeys then some .sportIneligible
  else if eligibleWindowStart ≤ dateOf first.startsAt ∧
  dateOf first.startsAt ≤ eligibleWindowEnd then none
  else some .windowIneligible

/-- The two instants chosen, `anchor_ts` and `close_ts`. -/
@[ext] structure Chosen where
  anchor : Option Int
  close : Option Int

def Chosen.scan (ko : Int) (chosen : Chosen) (ts : Int) : Chosen :=
  if anchorMinPreKo ≤ ko - ts ∧ ko - ts ≤ anchorMaxPreKo then
    { chosen with anchor := some ts }
  else if 0 ≤ ko - ts ∧ ko - ts < closeWindow then { chosen with close := some ts }
  else chosen

/-- What the rows of a complete set say, once the instants are chosen. -/
def Chosen.label (chosen : Chosen) (ko : Int) (market : Market) (ts : Int) (side : Side) : Label :=
  if chosen.anchor = some ts then
    ⟨market.text, matchPeriod, market.line, side.text, true, none, .anchor⟩
  else if chosen.close = some ts then
    let tautological := chosen.anchor.any fun anchor => ts - anchor < minAnchorCloseGap
    ⟨market.text, matchPeriod, market.line, side.text, !tautological,
      if tautological then some .closeTautological else none, .closeSecondary⟩
  else
    market.rejected side.text (if anchorMaxPreKo < ko - ts then .anchorStale else .anchorSuperseded)

section Dataset
variable [CaseMaps]

/-- The sets by their instants, `by_capture`. -/
def byCapture (aliases : AliasTable) (market : Market) (group : List SnapshotObs) :
    Dict Int (Dict Side SnapshotObs) :=
  (group.filterMap fun obs => (sideOf aliases market obs).map fun side => (side, obs)).foldl
    (fun sets found => sets.modify found.2.capturedAt fun old =>
      (old.getD Dict.empty).set found.1 found.2) Dict.empty

/-- A set with an observation for every outcome. -/
def isComplete (market : Market) (sides : Dict Side SnapshotObs) : Bool :=
  sides.entries.length = market.outcomesRequired

def completeSets (aliases : AliasTable) (market : Market) (group : List SnapshotObs) :
    Dict Int (Dict Side SnapshotObs) :=
  (byCapture aliases market group).filter fun _ sides => isComplete market sides

def chosenOf (aliases : AliasTable) (market : Market) (group : List SnapshotObs) (ko : Int) :
    Chosen :=
  (sortedBy id (completeSets aliases market group).keys).foldl (Chosen.scan ko) ⟨none, none⟩

variable [Printers]

/-- The rows of one set. -/
def setRows (matched : Option CanonicalMatch) (sides : Dict Side SnapshotObs)
    (label : Side → Label) : List AnchorRow :=
  (sortedBy (fun entry => entry.1.text) sides.entries).map fun entry =>
    row matched entry.2 (label entry.1)

def groupRows (aliases : AliasTable) (matched : Option CanonicalMatch) (marketKey : Str) :
    List SnapshotObs → List AnchorRow
  -- a group has an observation
  | [] => []
  | first :: others =>
    let group := first :: others
    match classifyMarket marketKey with
    | none =>
      group.map fun obs =>
        row matched obs ⟨marketKey, matchPeriod, none, obs.selection, false,
          some .unsupportedMarket, .anchor⟩
    | some market =>
      match gate first with
      | some reason => group.map fun obs => row matched obs (market.rejected obs.selection reason)
      | none =>
        let ko := first.startsAt
        let chosen := chosenOf aliases market group ko
        let unresolved := group.filter fun obs => sideOf aliases market obs = none
        let incomplete := (byCapture aliases market group).entries.filter fun set =>
          !isComplete market set.2
        let complete := (completeSets aliases market group).entries
        (unresolved.map fun obs =>
          row matched obs (market.rejected obs.selection .selectionUnresolved)) ++
          ((sortedBy Prod.fst incomplete).flatMap fun set =>
            setRows matched set.2 fun side => market.rejected side.text .incompleteOutcomeSet) ++
          (sortedBy Prod.fst complete).flatMap fun set =>
            setRows matched set.2 (chosen.label ko market set.1)

def groupKey (obs : SnapshotObs) : Int × Str := (obs.eventId, obs.market)

/-- `by_event_market`. -/
def byEventMarket (observations : List SnapshotObs) : Dict (Int × Str) (List SnapshotObs) :=
  observations.foldl (fun groups obs => groups.modify (groupKey obs) fun old =>
    old.getD [] ++ [obs]) Dict.empty

def buildAnchorRows (aliases : AliasTable) (canonicalMatches : Dict Int CanonicalMatch)
    (observations : List SnapshotObs) : List AnchorRow :=
  (sortedBy (fun entry => toLex entry.1) (byEventMarket observations).entries).flatMap fun entry =>
    groupRows aliases (canonicalMatches.get? entry.1.1) entry.1.2 entry.2

end Dataset

end SharpEvPicks.Backtesting.Arcadia
