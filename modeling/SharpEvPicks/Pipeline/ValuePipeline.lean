import SharpEvPicks.Pipeline.FairProbs
import SharpEvPicks.Pipeline.Vocabulary
import SharpEvPicks.Settlement.Outcomes

/-! One polling cycle of the value strategy, `run_value_pipeline` of `app/pipeline.py`, from
the fetched snapshots to the picks handed to persistence. What other services answer in the
cycle (scores, verdicts, team names) is part of its input. Stakes, labels and counters are
left out. -/
namespace SharpEvPicks.Pipeline

open Python Edge Probabilities

inductive Tier where
  | premium | volume
  deriving DecidableEq, Repr

inductive ShotsReason where
  | insufficientData | noLean | agrees | shadowTagDisagrees | vetoDisagrees
  deriving DecidableEq, Repr

/-- `ShotsTotalsSignal`, without the lean that only labels it. -/
structure ShotsSignal where
  pOver25 : Option ℚ
  veto : Bool
  reason : ShotsReason

/-- A loaded meta-model; it scores a selection of a market or abstains. -/
structure ValueFilter where
  shadow : Bool
  threshold : ℚ
  score : MarketKey → Str → Option ℚ

/-- `SteamVerdict`, as far as a pick or a tier depends on it. -/
structure SteamVerdict where
  tripped : Bool
  reasons : List Str

/-- The steam gate with the verdict it reaches on a market, a selection, a fill and an anchor. -/
structure SteamGate where
  enabled : Bool
  verdict : MarketKey → Str → Str → Str → Option SteamVerdict

inductive StalenessDecision where
  | pass | demote | noApiMatch | noApiPrice | staleApi
  deriving DecidableEq, Repr

structure Teams where
  home : Str
  away : Str
  league : Str

/-- `PipelineDeps`. `Settings` lets no floor be negative. -/
structure Deps where
  devigMethod : DevigMethod := .power
  directory : Str → Option Teams
  valueMinEdge : ℚ := 15 / 1000
  valueVolumeMinEdge : ℚ := 15 / 1000
  valueMinOdds : ℚ := 130 / 100
  maxOddsAgeSeconds : ℚ
  candidateFreshnessBasis : FreshnessBasis := .provider
  valuePolicy : ValuePolicy := {}
  valueFilter : Option ValueFilter := none
  valueMlFilterEnabled : Bool := false
  visibilityOnlySports : List Str := []
  experimentalSports : List Str := []
  steamPolicy : Option SteamGate := none
  shotsSignalLookup : Option (Str → Str → Settlement.Direction → Option ShotsSignal) := none
  floor_nonneg : 0 ≤ valueMinEdge
  override_nonneg : ∀ e ∈ valuePolicy.minEdgeByMarket, 0 ≤ e.2

structure Cycle where
  sportKey : Str
  snapshots : List Snapshot
  sharp : List Snapshot := []
  stalenessVerdicts : Dict Str StalenessDecision := Dict.empty
  kickoffs : Kickoffs
  now : Int
  sourceComplete : Bool := true
  incompleteRatio : ℚ := 0

def incompleteFetchRatioWarn : ℚ := 1 / 2

def sanityMaxOdds : ℚ := 50

inductive AuditReason where
  | marketFloor | visibilityOnly | oddsCeiling | drawSelectionDemotion | shotsTotalsVeto
  | premiumMintTooEarly | nonMajorLeague | noSharpAnchor | noSharpAnchorFor (cause : SharpMiss)
  | experimentalSport | mlFilter | steam | structuralSanity | premiumFloorShadowDnb
  deriving DecidableEq, Repr

/-- `ValuePickOut`. -/
structure Pick where
  sport : Str
  eventId : Str
  market : Market
  selection : Str
  marketDetail : Option Str
  bookmaker : Str
  decimalOdds : ℚ
  modelProbability : ℚ
  fairProbability : ℚ
  edge : ℚ
  ev : ℚ
  confidence : ℚ
  anchorBookCount : Nat
  hoursToKickoff : Option ℚ
  oddsAgeSeconds : ℚ
  tier : Tier
  valueFilterScore : Option ℚ
  anchorType : AnchorType
  anchorBook : Str
  anchorStalenessDecision : Option StalenessDecision
  steamTripped : Option Bool
  steamReasons : Option Str
  mintDevigFellBack : Bool
  createdAt : Int

/-- A pick handed to persistence, with the line of its group and its audit row's reasons. -/
@[ext] structure Evaluation where
  pick : Pick
  detail : Option Str
  reasons : List AuditReason

def Evaluation.key (e : Evaluation) : MarketKey := (e.pick.eventId, e.pick.market, e.detail)

def pickTier (edge premiumMinEdge volumeMinEdge : ℚ) : Option Tier :=
  if premiumMinEdge ≤ edge then some .premium
  else if volumeMinEdge ≤ edge then some .volume
  else none

def hoursToKickoff (startsAt : Option Int) (now : Int) : Option ℚ :=
  startsAt.map fun t => ((t - now : Int) : ℚ) / hours 1

/-- `none` for the infinite age of an unknown or future time. -/
def candidateAgeSeconds (now : Int) (freshnessAt : Option Int) : Option ℚ :=
  (freshnessAt.filter (· ≤ now)).map fun t => ((now - t : Int) : ℚ) / seconds 1

def Cycle.anchorSnapshots (c : Cycle) : List Snapshot :=
  dropPostKickoffSnapshots (c.snapshots ++ c.sharp) c.kickoffs

/-- The events whose fresh verdict takes their exchange anchor away. -/
def enforcedDemotions (policy : ValuePolicy) (c : Cycle) : List Str :=
  if policy.betfairStalenessGuard && !policy.betfairStalenessShadow then
    (c.stalenessVerdicts.filter fun _ d => d = .demote).keys
  else []

def scanMinEdge (deps : Deps) : ℚ :=
  (deps.valuePolicy.minEdgeByMarket.map Prod.snd).foldl min
    (min deps.valueVolumeMinEdge deps.valueMinEdge)

section Groups
variable [Unicode]

def nonSettleableParts : List Str :=
  ["1st_half", "2nd_half", "first_half", "second_half", "_quarter", "1st_set", "2nd_set",
    "3rd_set", "_set_", "corner", "card", "booking"].map String.toList

def isSettleableMarketDetail (detail : Option Str) : Bool :=
  detail.all fun d => nonSettleableParts.all fun part => !contains part (Unicode.lower d)

def isTennisGameLineGroup (sportKey : Str) (market : Market) (detail : Option Str)
    (prices : Prices) : Bool :=
  sportKey = "tennis".toList && (market = .totals || market = .spreads) &&
    ((market = .spreads && !Settlement.isTennisSetsSpreadDetail detail) ||
      (market = .totals && Settlement.isTennisGamesTotalDetail detail) ||
      prices.keys.any (Settlement.isTennisGameLine market))

/-- `_INT_LINE_TOTALS_DETAIL_RE`. -/
def intLineTotalsDetail (d : Str) : Bool :=
  let rest := (dropPrefix? "totals_".toList d).or (dropPrefix? "over_under_".toList d)
  rest.any fun token => isDecimals (dropSuffix "_0".toList token)

/-- `_INT_LINE_TOTALS_SELECTION_RE`; its letters have no other case forms than the ASCII ones. -/
def intLineTotalsSelection (selection : Str) : Bool :=
  let s := strip selection
  let rest := (dropPrefix? "over".toList (s.map Char.toLower)).or
    (dropPrefix? "under".toList (s.map Char.toLower))
  rest.any fun tail => tail.head?.any isSpace && isDecimals (tail.dropWhile isSpace)

def isIntegerLineTotalsGroup (market : Market) (detail : Option Str) (prices : Prices) : Bool :=
  market = .totals &&
    match detail with
    | none | some [] => prices.keys.any intLineTotalsSelection
    | some d => intLineTotalsDetail (norm d)

def isAsianHandicap (detail : Option Str) : Bool :=
  detail.any fun d => "asian_handicap".toList.isPrefixOf (norm d)

def shotsPickSide (market : Market) (detail : Option Str) (selection : Str) :
    Option Settlement.Direction :=
  if market ≠ .totals then none
  else
    let sel := norm selection
    let inScope : Bool := match canonicalMarketDetail detail with
      | some canon => canon = "totals_2_5".toList
      | none => " 2.5".toList.isSuffixOf sel
    if !inScope then none
    else if "over".toList.isPrefixOf sel then some .over
    else if "under".toList.isPrefixOf sel then some .under
    else none

end Groups

section Loop
variable [Unicode] (deps : Deps) (c : Cycle)

/-- The shots screen's verdict on a candidate: whether an armed veto disagrees with it. -/
def shotsDemote (key : MarketKey) (selection : Str) : Bool :=
  "soccer".toList.isPrefixOf c.sportKey &&
    (deps.shotsSignalLookup.any fun lookup =>
      (shotsPickSide key.2.1 key.2.2 selection).any fun side =>
        ((deps.directory key.1).bind fun teams => lookup teams.home teams.away side).any
            fun signal =>
          signal.pOver25.isSome && (signal.veto || deps.valuePolicy.shotsTotalsVeto) &&
            (signal.reason = .shadowTagDisagrees || signal.reason = .vetoDisagrees))

omit [Unicode] in
/-- The verdict on a candidate; a consensus anchor has no trajectory to judge. -/
def steamVerdict (key : MarketKey) (anchorBook : Str) (v : ValueBet) : Option SteamVerdict :=
  if anchorBook = consensusAnchor then none
  else deps.steamPolicy.bind fun gate => gate.verdict key v.selection v.bestBook anchorBook

/-- The notes a candidate collects. Of most only whether they are empty is read, of the steam
note how it starts. -/
structure Notes where
  marketFloor : Bool := false
  visibility : Bool := false
  moneyline : Bool := false
  draw : Bool := false
  shotsDemote : Bool := false
  timing : Bool := false
  major : Bool := false
  sharp : Option SharpMiss := none
  experimental : Bool := false
  ml : Bool := false
  steam : Str := []
  sanity : Bool := false
  dnbFloorShadow : Bool := false

/-- The start of a note that the steam gate demoted a candidate. -/
def steamMark : Str := " | steam (".toList

def steamShadowMark : Str := " | steam(shadow) (".toList

def steamDemoted (reasons : List Str) : Str :=
  steamMark ++ (join [','] reasons ++ "): demoted to volume (shadow)".toList)

def steamShadowed (reasons : List Str) : Str :=
  steamShadowMark ++ (join [','] reasons ++ "): would demote".toList)

def slugIf (noted : Bool) (reason : AuditReason) : List AuditReason :=
  if noted then [reason] else []

def Notes.auditReasons (n : Notes) : List AuditReason :=
  [slugIf n.marketFloor .marketFloor, slugIf n.visibility .visibilityOnly,
    slugIf n.moneyline .oddsCeiling, slugIf n.draw .drawSelectionDemotion,
    slugIf n.shotsDemote .shotsTotalsVeto, slugIf n.timing .premiumMintTooEarly,
    slugIf n.major .nonMajorLeague,
    match n.sharp with
      | none => []
      | some cause => [.noSharpAnchor, .noSharpAnchorFor cause],
    slugIf n.experimental .experimentalSport, slugIf n.ml .mlFilter,
    slugIf (steamMark.isPrefixOf n.steam) .steam, slugIf n.sanity .structuralSanity,
    slugIf n.dnbFloorShadow .premiumFloorShadowDnb].flatten

structure Gated where
  tier : Tier
  notes : Notes

def Gated.reasons (g : Gated) : List AuditReason := g.notes.auditReasons

structure Gate where
  trips : Bool
  note : Notes → Notes

def Gated.pass (g : Gated) (gate : Gate) : Gated :=
  if g.tier = .premium ∧ gate.trips then ⟨.volume, gate.note g.notes⟩ else g

/-- The steam gate, which only notes what it would do when it is off or comes too late. -/
def Gated.passSteam (g : Gated) (enforced : Bool) (verdict : Option SteamVerdict) : Gated :=
  match verdict with
  | none => g
  | some v =>
    if v.tripped = false then g
    else if enforced ∧ g.tier = .premium then
      ⟨.volume, { g.notes with steam := steamDemoted v.reasons }⟩
    else ⟨g.tier, { g.notes with steam := steamShadowed v.reasons }⟩

def visibilityGate (key : MarketKey) : Gate where
  trips := isVisibilityOnlyMarket deps.valuePolicy key.2.1 key.2.2 c.sportKey
  note n := { n with visibility := true }

omit [Unicode] in
def moneylineGate (key : MarketKey) (v : ValueBet) : Gate where
  trips := key.2.1 = .h2h && deps.valuePolicy.moneylineMaxOdds.exceededBy v.bestOdds
  note n := { n with moneyline := true }

def drawGate (key : MarketKey) (v : ValueBet) : Gate where
  trips := deps.valuePolicy.demoteDrawSelections && "soccer".toList.isPrefixOf c.sportKey &&
    drawSelectionDemotion key.2.1 v.selection
  note n := { n with draw := true }

def shotsGate (key : MarketKey) (v : ValueBet) : Gate where
  trips := shotsDemote deps c key v.selection
  note n := { n with shotsDemote := true }

omit [Unicode] in
def timingGate (hours : Option ℚ) : Gate where
  trips := hours.any deps.valuePolicy.premiumMaxHoursToKickoff.exceededBy
  note n := { n with timing := true }

def majorGate (key : MarketKey) : Gate where
  trips := !isMajorLeague deps.valuePolicy (((deps.directory key.1).map Teams.league).getD [])
  note n := { n with major := true }

def sharpGate (miss : Dict MarketKey SharpMiss) (key : MarketKey) (anchorBook : Str) : Gate where
  trips := deps.valuePolicy.requireSharpAnchor && !isSharpAnchored anchorBook
  note n := { n with sharp := some ((miss.get? key).getD .noFullMarket) }

omit [Unicode] in
def experimentalGate : Gate where
  trips := c.sportKey ∈ deps.experimentalSports
  note n := { n with experimental := true }

omit [Unicode] in
def mlGate (key : MarketKey) (v : ValueBet) : Gate where
  trips := deps.valueMlFilterEnabled && deps.valueFilter.any fun model =>
    !model.shadow && (model.score key v.selection).any (· < model.threshold)
  note n := { n with ml := true }

def sanityGate (v : ValueBet) (premiumFloor : ℚ) : Gate where
  trips := structuralSanityViolation exchangeCommission v premiumFloor
    deps.valuePolicy.sanityMaxEdge
  note n := { n with sanity := true }

def floorNote (v : ValueBet) (premiumFloor : ℚ) (tier : Tier) : Notes :=
  { marketFloor := tier = .volume && deps.valueMinEdge < premiumFloor &&
    deps.valueMinEdge ≤ v.edge }

def Gated.mark (g : Gated) (key : MarketKey) (anchorBook : Str) (v : ValueBet)
    (premiumFloor : ℚ) : Gated :=
  if g.tier = .volume ∧ "soccer".toList.isPrefixOf c.sportKey ∧ key.2.1 = .dnb ∧
      premiumFloorShadowDnb key.2.1 v.edge premiumFloor anchorBook ∧
      ¬ isVisibilityOnlyMarket deps.valuePolicy key.2.1 key.2.2 c.sportKey then
    ⟨g.tier, { g.notes with dnbFloorShadow := true }⟩
  else g

def earlyGates (key : MarketKey) (v : ValueBet) (hours : Option ℚ) : List Gate :=
  [visibilityGate deps c key, moneylineGate deps key v, drawGate deps c key v,
    shotsGate deps c key v, timingGate deps hours, majorGate deps key]

def lateGates (miss : Dict MarketKey SharpMiss) (key : MarketKey) (anchorBook : Str)
    (v : ValueBet) : List Gate :=
  [sharpGate deps miss key anchorBook, experimentalGate deps c, mlGate deps key v]

omit [Unicode] in
def steamEnforced : Bool := deps.steamPolicy.any SteamGate.enabled

/-- The demotion chain; `none` for the candidate that a sharp-anchor-only sport drops. -/
def demotionChain (miss : Dict MarketKey SharpMiss) (key : MarketKey) (anchorBook : Str)
    (v : ValueBet) (premiumFloor : ℚ) (tier : Tier) (hours : Option ℚ) : Option Gated :=
  let g := (earlyGates deps c key v hours).foldl Gated.pass
    ⟨tier, floorNote deps v premiumFloor tier⟩
  if g.tier = .premium ∧ (sharpGate deps miss key anchorBook).trips ∧
      c.sportKey ∈ deps.valuePolicy.sharpAnchorOnlySports then none
  else
    let g := (lateGates deps c miss key anchorBook v).foldl Gated.pass g
    let g := g.passSteam (steamEnforced deps) (steamVerdict deps key anchorBook v)
    some ((g.pass (sanityGate deps v premiumFloor)).mark deps c key anchorBook v premiumFloor)

def valuePick (key : MarketKey) (prices : Prices) (v : ValueBet) (tier : Tier) (age : ℚ)
    (hours : Option ℚ) : Pick where
  sport := c.sportKey
  eventId := key.1
  market := key.2.1
  selection := v.selection
  marketDetail := canonicalMarketDetail key.2.2
  bookmaker := v.bestBook
  decimalOdds := v.bestOdds
  modelProbability := v.sharpFairProb
  fairProbability := v.impliedProb
  edge := v.edge
  ev := v.ev
  confidence := if v.sharpBook = consensusAnchor then 7 / 10 else 9 / 10
  anchorBookCount := distinctBookCount prices sharpBooks
  hoursToKickoff := hours
  oddsAgeSeconds := age
  tier := tier
  valueFilterScore := deps.valueFilter.bind fun model => model.score key v.selection
  anchorType := anchorTypeFor v.sharpBook
  anchorBook := v.sharpBook
  anchorStalenessDecision :=
    if key.2.1 = .h2h ∧ deps.valuePolicy.betfairStalenessGuard then
      c.stalenessVerdicts.get? key.1
    else none
  steamTripped := (steamVerdict deps key v.sharpBook v).map SteamVerdict.tripped
  steamReasons := (steamVerdict deps key v.sharpBook v).bind fun verdict =>
    if verdict.reasons = [] then none else some (join [','] verdict.reasons)
  mintDevigFellBack := v.sharpDevigFellBack
  createdAt := c.now

def evaluateBet (miss : Dict MarketKey SharpMiss) (times : Dict (Str × Str) Int) (key : MarketKey)
    (prices : Prices) (anchorBook : Str) (v : ValueBet) : Option Evaluation :=
  let policy := deps.valuePolicy
  let (eventId, market, detail) := key
  if isAsianHandicap detail &&
    !ahCandidatePlausible v policy.ahMaxOdds policy.ahMaxSharpSoftRatio then
    none
  else if market = .doubleChance && !dcCandidatePlausible v policy.dcMaxSharpSoftRatio then none
  else
    (candidateAgeSeconds c.now (times.get? (v.selection, v.bestBook))).bind fun age =>
      if deps.maxOddsAgeSeconds < age then none
      else if !oddsInBands v.bestOdds policy.oddsBands then none
      else if sanityMaxOdds < v.bestOdds then none
      else if globalOddsCeilingViolation v policy.maxOdds then none
      else
        let premiumFloor := minEdgeFor policy market detail deps.valueMinEdge
        let hours := hoursToKickoff (c.kickoffs.of eventId) c.now
        (pickTier v.edge premiumFloor deps.valueVolumeMinEdge).bind fun tier =>
          (demotionChain deps c miss key anchorBook v premiumFloor tier hours).map fun gated =>
            ⟨valuePick deps c key prices v gated.tier age hours, detail, gated.reasons⟩

def groupDropped (key : MarketKey) (prices : Prices) : Bool :=
  let (eventId, market, detail) := key
  (c.kickoffs.of eventId).all (· ≤ c.now) || !isSettleableMarketDetail detail ||
    isTennisGameLineGroup c.sportKey market detail prices ||
    isIntegerLineTotalsGroup market detail prices ||
    distinctBookCount prices sharpBooks < minBooksFor deps.valuePolicy market detail

def scanOptions (key : MarketKey) : ScanOptions :=
  { minEdge := scanMinEdge deps
    minOdds := deps.valueMinOdds
    maxEdge := maxEdgeFor deps.valuePolicy key.2.1 key.2.2 deps.valuePolicy.maxEdge }

structure PricedMarkets where
  grouped : GroupedMarkets
  freshness : Dict MarketKey (Dict (Str × Str) Int)
  sharpMiss : Dict MarketKey SharpMiss
  fair : Dict MarketKey (Str × Dict Str ℚ)

def evaluateGroup (priced : PricedMarkets) (key : MarketKey) (group : Group) : List Evaluation :=
  if groupDropped deps c key group.prices then []
  else
    match priced.fair.get? key with
    | none => []
    | some (anchorBook, fair) =>
      let times := (priced.freshness.get? key).getD Dict.empty
      (findValueBetsWithFair group.prices fair anchorBook (scanOptions deps key)).filterMap
        (evaluateBet deps c priced.sharpMiss times key group.prices anchorBook)

def Cycle.folded (c : Cycle) : List Snapshot := foldInjectedGroupDetails c.anchorSnapshots

variable [Numerics ℚ]

/-- The call of `event_fair_probs` in `_group_and_price_markets`. -/
def mintFairs : Except DevigError Fairs :=
  eventFairProbs (groupMarketPrices c.folded) deps.devigMethod deps.valuePolicy
    (groupMarketLiquidity c.folded) (enforcedDemotions deps.valuePolicy c)

def groupAndPriceMarkets : Except DevigError PricedMarkets :=
  (mintFairs deps c).map fun fairs =>
    { grouped := groupMarketPrices c.folded
      freshness := groupMarketFreshnessTimes deps.candidateFreshnessBasis c.folded
      sharpMiss := fairs.miss
      fair := fairs.fair }

def runValuePipeline : Except DevigError (List Evaluation) :=
  if c.sportKey ∈ deps.visibilityOnlySports ∨ c.snapshots = [] ∨
      (¬ c.sourceComplete ∧ incompleteFetchRatioWarn < c.incompleteRatio) then
    .ok []
  else
    (groupAndPriceMarkets deps c).map fun priced =>
      priced.grouped.entries.flatMap fun (key, group) => evaluateGroup deps c priced key group

end Loop
end SharpEvPicks.Pipeline
