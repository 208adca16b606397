import SharpEvPicks.Ingestion.LineQuotes
import SharpEvPicks.Resolution.Matching

/-! The capture of exchange prices through the API, `BetfairApiShadowCapture` of
`app/ingestion/betfair_api.py`, with the ticks of `app/edge/betfair_ticks.py`. -/
namespace SharpEvPicks.Ingestion

open Python Pipeline Resolution Transition

/-! Ticks. -/

def tickLadder : List (ℚ × ℚ) :=
  [(2, 1 / 100), (3, 2 / 100), (4, 5 / 100), (6, 10 / 100), (10, 20 / 100), (20, 50 / 100), (30, 1),
    (50, 2), (100, 5), (1000, 10)]

def betfairTickSize (price : ℚ) : ℚ :=
  ((tickLadder.find? fun rung => price < rung.1).map Prod.snd).getD 10

def tickEps : ℚ := 1 / 1000000000

def withinOneTick : Option ℚ → Option ℚ → Option Bool
  | some a, some b => some (|a - b| ≤ betfairTickSize (max a b) + tickEps)
  | _, _ => none

def tickDistance : Option ℚ → Option ℚ → Option ℚ
  | some a, some b => some (|a - b| / betfairTickSize (max a b))
  | _, _ => none

/-! The comparison with the anchor that is stored already. -/

/-- `ReferenceOdds`. -/
structure ReferenceOdds where
  back : Role → Option ℚ
  capturedAt : Option Int

inductive Verdict where
  | pass | demote | noApiMatch | noApiPrice
  deriving DecidableEq, Repr

def verdictDecision (inlinePrice apiPrice : Option ℚ) (maxTicks : ℚ) : Verdict :=
  match apiPrice, inlinePrice with
  | none, _ => .noApiPrice
  | some _, none => .noApiMatch
  | some _, some _ =>
    match tickDistance inlinePrice apiPrice with
    | some distance => if maxTicks + tickEps < distance then .demote else .pass
    | none => .noApiPrice

structure SelectionComparison where
  selection : Role
  apiPrice : Option ℚ
  refPrice : Option ℚ
  deriving DecidableEq

def SelectionComparison.delta (c : SelectionComparison) :
    Option ℚ := do some ((← c.apiPrice) - (← c.refPrice))

def SelectionComparison.withinTick (c : SelectionComparison) : Option Bool :=
  withinOneTick c.apiPrice c.refPrice

structure EventComparison where
  eventRef : Str
  selections : List SelectionComparison
  freshnessGap : Option Int

/-- The price to back of each role. -/
def MatchOdds.price (odds : MatchOdds) (role : Role) : Option ℚ :=
  (odds.back role).map BackLevel.price

/-- In the order of `EventComparison.selections`. -/
def comparedRoles : List Role := [.home, .draw, .away]

def compareEvent (odds : MatchOdds) (reference : ReferenceOdds) (apiCapturedAt : Int)
    (eventRef : Str) : EventComparison where
  eventRef := eventRef
  selections := comparedRoles.map fun role => ⟨role, odds.price role, reference.back role⟩
  freshnessGap := reference.capturedAt.map fun captured => apiCapturedAt - captured

structure ComparisonAggregate where
  compared : Nat
  meanAbsDelta : Option ℚ
  pctWithinOneTick : Option ℚ
  pctApiFresher : Option ℚ

def percentage (flags : List Bool) : Option ℚ :=
  if flags = [] then none else some (100 * flags.count true / flags.length)

/-- `from_events`; without events it yields what the source spells out. -/
def ComparisonAggregate.fromEvents (events : List EventComparison) : ComparisonAggregate :=
  let deltas := events.flatMap fun e => e.selections.filterMap fun s => s.delta.map abs
  { compared := events.length
    meanAbsDelta := if deltas = [] then none else some (deltas.sum / deltas.length)
    pctWithinOneTick :=
      percentage (events.flatMap fun e => e.selections.filterMap SelectionComparison.withinTick)
    pctApiFresher := percentage (events.filterMap fun e => e.freshnessGap.map fun gap => 0 < gap) }

/-- `AnchorVerdictObservation`, of the market `h2h`. -/
structure AnchorVerdict where
  eventRef : Str
  selectionRole : Role
  inlinePrice : Option ℚ
  apiPrice : Option ℚ
  apiBestBackSize : Option ℚ
  tickDiff : Option ℚ
  inlineCapturedAt : Option Int
  apiCapturedAt : Int
  decision : Verdict

/-! One cycle. -/

def shadowBookmaker : Str := "betfair exchange (api-shadow)".toList

def promotedBookmaker : Str := "betfair exchange".toList

/-- What a capture is built with. -/
structure Capture where
  aliases : AliasTable
  /-- An alias table leaves out what normalizes to nothing. -/
  aliases_named : aliases.aliasToCanon.get? [] = none
  ordered : Bool := true
  nameFold : Option (Str → Str) := none
  extendedMarkets : Bool := false
  promote : Bool := false
  verdictTicks : ℚ := 1
  referenceOdds : Option (Str → Option ReferenceOdds) := none

/-- What the client answers in a cycle, and when. -/
structure ApiCycle where
  catalogue : List MarketCatalogue
  books : List Json
  observedAt : Int
  /-- Nothing where the request for the extended markets fails. -/
  extended : Option (List MarketCatalogue × List Json)
  extObservedAt : Int

structure ShadowReport where
  marketsFetched : Nat
  matched : Nat
  unmatched : Nat
  snapshots : List Snapshot
  comparison : Option ComparisonAggregate
  promoted : Bool
  candidatesConsidered : Nat
  extendedLines : Nat
  extendedEvents : Nat
  extendedFailed : Bool

/-- The names at the exchange of the sides of each event. -/
def homeAwayOf (odds : List MatchOdds) : Dict Str (Str × Str) :=
  .ofList <| (odds.filter fun m => m.home ≠ [] ∧ m.away ≠ []).map fun m =>
    (m.eventId, m.home, m.away)

/-- A market and the canonical event that it is matched to. -/
abbrev Hit := MatchOdds × EventCandidate

def matchedEventIds (hits : List Hit) : List Str :=
  (hits.map fun hit => hit.1.eventId).filter (· ≠ [])

theorem level_liquidity (level : BackLevel) : ∀ l ∈ some level.size, 0 ≤ l := by
  rintro l ⟨⟩
  exact level.size_nonneg

theorem live_not_future (now : Int) : now - now ≤ maxProviderClockSkew := by
  rw [sub_self]
  decide

/-- The name that a snapshot has for each role. -/
def participant (candidate : EventCandidate) : Role → Str
  | .home => candidate.home
  | .away => candidate.away
  | .draw => "Draw".toList

namespace Capture
variable (c : Capture)

def bookmaker : Str := if c.promote then promotedBookmaker else shadowBookmaker

def row (eventRef : Str) (market : Market) (detail : Option Str) (selection : Str)
    (level : BackLevel) (now : Int) : Snapshot where
  eventId := eventRef
  bookmaker := c.bookmaker
  market := market
  selection := selection
  decimalOdds := level.price
  liquidity := some level.size
  capturedAt := now
  ingestedAt := now
  marketDetail := detail
  odds_gt := level.price_gt
  odds_le := level.price_le
  liquidity_nonneg := level_liquidity level
  not_future := live_not_future now

/-- The row of one role. -/
def rowFor (hit : Hit) (now : Int) (role : Role) : Option Snapshot :=
  match hit.1.back role with
  | some level =>
    if participant hit.2 role = [] then none
    else some (c.row hit.2.ref .h2h none (participant hit.2 role) level now)
  | none => none

/-- `_snapshots_for`. -/
def snapshotsFor (hit : Hit) (now : Int) : List Snapshot := Role.all.filterMap (c.rowFor hit now)

/-- The selection of a line in the words of the matched event. -/
def lineSelection (candidate : EventCandidate) (q : LineQuote) : Str :=
  match q.kind, q.side with
  | .handicap, .first => candidate.home ++ ' ' :: formatPlus q.line
  | .handicap, .second => candidate.away ++ ' ' :: formatPlus (-q.line)
  | .total, .first => "Over ".toList ++ formatSigned q.line
  | .total, .second => "Under ".toList ++ formatSigned q.line

def lineRow (candidate : EventCandidate) (now : Int) (q : LineQuote) : Option Snapshot :=
  if q.kind = .handicap ∧ (candidate.home = [] ∨ candidate.away = []) then none
  else some (c.row candidate.ref q.kind.market (some q.marketDetail) (lineSelection candidate q)
    q.level now)

/-- `_extended_snapshots_for`. -/
def extendedSnapshotsFor (quotes : List LineQuote) (candidate : EventCandidate) (now : Int) :
    List Snapshot :=
  quotes.filterMap (c.lineRow candidate now)

def foldName (name : Str) : Str :=
  match c.nameFold with
  | some fold => fold name
  | none => name

/-- What the matcher is asked for a market. -/
def query (market : MatchOdds) (kickoff : Int) : Query where
  home := c.foldName market.home
  away := c.foldName market.away
  kickoff := kickoff
  aliases := c.aliases
  ordered := c.ordered

/-- `_verdicts_for`. -/
def verdictsFor (odds : MatchOdds) (reference : ReferenceOdds) (apiCapturedAt : Int)
    (eventRef : Str) : List AnchorVerdict :=
  (compareEvent odds reference apiCapturedAt eventRef).selections.map fun s =>
    { eventRef := eventRef
      selectionRole := s.selection
      inlinePrice := s.refPrice
      apiPrice := s.apiPrice
      apiBestBackSize := (odds.back s.selection).map BackLevel.size
      tickDiff := tickDistance s.refPrice s.apiPrice
      inlineCapturedAt := reference.capturedAt
      apiCapturedAt := apiCapturedAt
      decision := verdictDecision s.refPrice s.apiPrice c.verdictTicks }

/-- The events that `_compare` finds a stored anchor for. -/
def compared (hits : List Hit) : List (Hit × ReferenceOdds) :=
  match c.referenceOdds with
  | some reference => hits.filterMap fun hit => (reference hit.2.ref).map (hit, ·)
  | none => []

def comparison (hits : List Hit) (now : Int) : Option ComparisonAggregate :=
  if c.referenceOdds.isNone ∨ hits = [] then none
  else some (.fromEvents ((c.compared hits).map fun x => compareEvent x.1.1 x.2 now x.1.2.ref))

/-- What is handed to the sink of verdicts. -/
def verdicts (hits : List Hit) (now : Int) : List AnchorVerdict :=
  (c.compared hits).flatMap fun x => c.verdictsFor x.1.1 x.2 now x.1.2.ref

section Cycle
variable [Readers] [CaseMaps]

/-- The candidate of one market, unless it is skipped or nobody matches. -/
def hitOf (candidates : List EventCandidate) (observedAt : Int) (market : MatchOdds) : Option Hit :=
  match market.kickoff with
  | some kickoff =>
    if market.home = [] ∨ market.away = [] ∨ kickoff ≤ observedAt then none
    else (matchEventHardenedScored (c.query market kickoff) candidates).1.map fun outcome =>
      (market, outcome.candidate)
  | none => none

def hits (candidates : List EventCandidate) (observedAt : Int) (odds : List MatchOdds) : List Hit :=
  odds.filterMap (c.hitOf candidates observedAt)

/-- `_fetch_extended_quotes`: the quotes and whether the request failed. -/
def fetchExtendedQuotes (cycle : ApiCycle) (odds : List MatchOdds) (matchedEventIds : List Str) :
    Except NumberFault (List LineQuote × Bool) :=
  if c.extendedMarkets = false ∨ matchedEventIds = [] then .ok ([], false)
  else
    match cycle.extended with
    | none => .ok ([], true)
    | some ([], _) => .ok ([], false)
    | some (catalogue, payload) => do
      let books ← parseMarketBookBacksByHandicap payload
      .ok (joinExtendedLines catalogue books (homeAwayOf odds), false)

def liveAt (now : Int) (hit : Hit) : Bool := hit.1.kickoff.any (now < ·)

/-- The rows of the lines of one hit, unless its event has begun in the meantime. -/
def hitLines (quotes : List LineQuote) (now : Int) (hit : Hit) : List Snapshot :=
  if liveAt now hit then
    c.extendedSnapshotsFor (quotes.filter fun q => q.eventId = hit.1.eventId) hit.2 now
  else []

/-- `capture_once`, with what goes to the sink of verdicts. -/
def captureOnce (cycle : ApiCycle) (candidates : List EventCandidate) :
    Except NumberFault (ShadowReport × List AnchorVerdict) := do
  let odds ← fetchMatchOdds cycle.catalogue cycle.books
  let hits := c.hits candidates cycle.observedAt odds
  let (quotes, failed) ← c.fetchExtendedQuotes cycle odds (matchedEventIds hits)
  let now := if quotes = [] then cycle.observedAt else cycle.extObservedAt
  let lines := hits.flatMap (c.hitLines quotes now)
  .ok
    ({ marketsFetched := odds.length
       matched := hits.length
       unmatched := odds.length - hits.length
       snapshots := hits.flatMap (fun hit => c.snapshotsFor hit cycle.observedAt) ++ lines
       comparison := c.comparison hits cycle.observedAt
       promoted := c.promote
       candidatesConsidered := candidates.length
       extendedLines := (lines.map Snapshot.marketKey).toFinset.card
       extendedEvents := (lines.map Snapshot.eventId).toFinset.card
       extendedFailed := failed },
      c.verdicts hits cycle.observedAt)

end Cycle
end Capture
end SharpEvPicks.Ingestion
