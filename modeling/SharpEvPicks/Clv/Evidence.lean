import Mathlib.Data.Char
import Mathlib.Data.List.Lex
import Mathlib.Data.Prod.Lex
import SharpEvPicks.Clv.Trust
import SharpEvPicks.Storage.Picks

/-! The three readers of settled closes: the headline `_aggregate_settled`, the cells of
`promotion_distance_cells`, both of `app/storage/repositories.py`, and the rows of
`app/backtesting/live_evidence.py`. Significance tests and intervals are left out. -/
namespace SharpEvPicks.Clv

open Python Edge Storage

def sharpCloseAnchors : List AnchorType := [.pinnacle, .sharp]

def minHeadlineN : Nat := 50
def sharpOddsBandThreshold : ℚ := 4
def staleCloseMaxGapMinutes : ℚ := 240
def sportMarketOkN : Nat := 30
def promotionCadenceWindowDays : Int := 14

/-- `LEGACY_EH_SPREADS_FIX_DEPLOYED_AT`: 2026-08-02 21:30. -/
def legacyEhSpreadsFixDeployedAt : Int := days 20667 + hours 21 + minutes 30

section
variable [Unicode]

/-- `_INTEGER_SPREADS_DETAIL_RE`. -/
def isIntegerSpreadsDetail (detail : Str) : Bool :=
  match detail.dropPrefix? "spreads_".toList with
  | none => false
  | some line =>
    isDecimals ((line.dropPrefix? "minus_".toList <|> line.dropPrefix? "plus_".toList).getD line)

def isLegacyProductMismatch (sport market marketDetail : Option Str) (mintedAt : Option Int) :
    Bool :=
  match mintedAt with
  | none => false
  | some minted =>
    sport = some "soccer".toList && market = some "spreads".toList &&
      minted < legacyEhSpreadsFixDeployedAt && marketDetail.all isIntegerSpreadsDetail

omit [Unicode] in
def clvRowIsTautological (clvLog closingFairProbability modelProbability : Option ℚ) : Bool :=
  match clvLog, closingFairProbability, modelProbability with
  | some _, some closing, some model => |closing - model| ≤ clvTautologyEps
  | _, _, _ => false

/-- The price that `_clv_row_is_fabricated` judges: net of commission where a book is given. -/
def judgedOdds (bookmaker : Option Str) (odds : ℚ) : ℚ :=
  match bookmaker with
  | some book => effectiveOdds exchangeCommission book odds
  | none => odds

def clvRowIsFabricated (clvLog decimalOdds closingFairProbability : Option ℚ)
    (bookmaker : Option Str) : Bool :=
  match clvLog with
  | none => false
  | some clv =>
    match decimalOdds, closingFairProbability with
    | some odds, some closing =>
      -- odds of zero imply nothing, as if they were absent
      if judgedOdds bookmaker odds = 0 then clvImplausibleLog < |clv|
      else clvImplausibleCloseEdge < closing - 1 / judgedOdds bookmaker odds
    | _, _ => clvImplausibleLog < |clv|

end

/-- `_ratio`, before it is written out. -/
def ratio (numerator denominator : ℚ) : Option ℚ :=
  if denominator = 0 then none else some (numerator / denominator)

def percentile (values : List ℚ) (q : ℚ) : Option ℚ :=
  (sortedBy id values)[min (values.length - 1) (⌈q * values.length⌉.toNat - 1)]?

/-! The headline. -/

/-- The tuple of one settled pick that `_aggregate_settled` reads. -/
structure HeadlineRow where
  outcome : Outcome
  pnl : Option ℚ
  stake : ℚ
  clvLog : Option ℚ
  beatClose : Option Bool
  closingOdds : Option ℚ
  closingAnchor : Option AnchorType
  closeIndependent : Option Bool
  hasSnapshotClose : Option Bool
  decimalOdds : Option ℚ
  closingFairProbability : Option ℚ
  modelProbability : Option ℚ
  mintDevigFellBack : Option Bool := none
  closeDevigFellBack : Option Bool := none
  closeSnapshotCapturedAt : Option Int := none
  kickoffAt : Option Int := none
  closeReason : Option Str := none
  fillBookmaker : Option Str := none
  legacyMismatch : Bool := false

/-- A sample of closing-line values: their sum by stake, the stakes, and each of them. -/
structure ClvSample where
  weighted : ℚ := 0
  stake : ℚ := 0
  series : List ℚ := []

def ClvSample.add (sample : ClvSample) (stake clv : ℚ) : ClvSample where
  weighted := sample.weighted + stake * clv
  stake := sample.stake + stake
  series := sample.series ++ [clv]

structure BeatTally where
  known : Nat := 0
  beaten : Nat := 0

def BeatTally.add (tally : BeatTally) : Option Bool → BeatTally
  | none => tally
  | some beat => { known := tally.known + 1, beaten := tally.beaten + beat.toNat }

structure QualityTally where
  missing : Nat := 0
  tautological : Nat := 0
  fabricated : Nat := 0
  circular : Nat := 0
  snapshotClose : Nat := 0
  fallbackClose : Nat := 0
  closeAges : List ℚ := []
  staleClose : Nat := 0
  reasons : Dict Str Nat := .empty

structure Tally where
  counts : Outcome → Nat := fun _ => 0
  totalStaked : ℚ := 0
  totalPnl : ℚ := 0
  blended : ClvSample := {}
  blendedBeat : BeatTally := {}
  nSharp : Nat := 0
  sharp : ClvSample := {}
  sharpBeat : BeatTally := {}
  sharpAllIndependent : Bool := true
  bandBelow : ClvSample := {}
  bandTail : ClvSample := {}
  bandUnknownOdds : Nat := 0
  quality : QualityTally := {}

def closeReasonLegacyProductMismatch : Str := "legacy_product_mismatch".toList

section
variable [Unicode]

namespace HeadlineRow

def fabricated (row : HeadlineRow) : Bool :=
  clvRowIsFabricated row.clvLog row.decimalOdds row.closingFairProbability row.fillBookmaker

omit [Unicode] in
def tautological (row : HeadlineRow) : Bool :=
  clvRowIsTautological row.clvLog row.closingFairProbability row.modelProbability

def excluded (row : HeadlineRow) : Bool := row.fabricated || row.tautological

def trusted (row : HeadlineRow) : Bool :=
  !row.excluded && row.hasSnapshotClose.getD false &&
    row.closingAnchor.any (· ∈ sharpCloseAnchors) &&
    row.clvLog.isSome && row.closeIndependent = some true &&
    !devigFallbackAsymmetric row.mintDevigFellBack row.closeDevigFellBack && !row.legacyMismatch

omit [Unicode] in
def closeAgeMinutes (row : HeadlineRow) : Option ℚ := do
  let captured ← row.closeSnapshotCapturedAt
  let kickoff ← row.kickoffAt
  pure ((kickoff - captured : Int) / (minutes 1 : Int))

omit [Unicode] in
def reasonLabel (row : HeadlineRow) : Option Str :=
  if row.legacyMismatch then some closeReasonLegacyProductMismatch else row.closeReason

end HeadlineRow

def QualityTally.add (q : QualityTally) (row : HeadlineRow) : QualityTally where
  missing := q.missing + row.clvLog.isNone.toNat
  tautological := q.tautological + row.tautological.toNat
  fabricated := q.fabricated + row.fabricated.toNat
  circular := q.circular +
    (row.clvLog.isSome && row.closeIndependent = some false && !row.excluded).toNat
  snapshotClose := q.snapshotClose + (row.hasSnapshotClose.getD false).toNat
  fallbackClose := q.fallbackClose + (!row.hasSnapshotClose.getD false && row.clvLog.isSome).toNat
  closeAges := q.closeAges ++ row.closeAgeMinutes.toList
  staleClose := q.staleClose + (row.closeAgeMinutes.any (staleCloseMaxGapMinutes < ·)).toNat
  reasons :=
    match row.reasonLabel with
    | some label => q.reasons.modify label fun n => n.getD 0 + 1
    | none => q.reasons

def Tally.addSettled (t : Tally) (row : HeadlineRow) : Tally :=
  { t with
    counts := Function.update t.counts row.outcome (t.counts row.outcome + 1)
    totalStaked := t.totalStaked + row.stake
    totalPnl := t.totalPnl + row.pnl.getD 0
    blended :=
      match row.clvLog with
      | some clv => if row.excluded then t.blended else t.blended.add row.stake clv
      | none => t.blended
    blendedBeat := if row.excluded then t.blendedBeat else t.blendedBeat.add row.beatClose
    quality := t.quality.add row }

omit [Unicode] in
def Tally.addTrusted (t : Tally) (row : HeadlineRow) (clv : ℚ) : Tally :=
  let tail := row.decimalOdds.any (sharpOddsBandThreshold ≤ ·)
  { t with
    nSharp := t.nSharp + 1
    sharp := t.sharp.add row.stake clv
    sharpBeat := t.sharpBeat.add row.beatClose
    sharpAllIndependent := t.sharpAllIndependent && row.closeIndependent = some true
    bandUnknownOdds := t.bandUnknownOdds + row.decimalOdds.isNone.toNat
    bandTail := if tail then t.bandTail.add row.stake clv else t.bandTail
    bandBelow := if row.decimalOdds.isSome && !tail then t.bandBelow.add row.stake clv
      else t.bandBelow }

def Tally.add (t : Tally) (row : HeadlineRow) : Tally :=
  if row.trusted then (t.addSettled row).addTrusted row (row.clvLog.getD 0) else t.addSettled row

/-- `_sharp_odds_band_cell`. -/
structure BandCell where
  n : Nat
  ok : Bool
  stakeWeightedClvLog : Option ℚ
  meanClvLog : Option ℚ

omit [Unicode] in
def ClvSample.bandCell (sample : ClvSample) : BandCell :=
  let ok := minHeadlineN ≤ sample.series.length
  { n := sample.series.length
    ok := ok
    stakeWeightedClvLog := if ok then ratio sample.weighted sample.stake else none
    meanClvLog := if ok then ratio sample.series.sum sample.series.length else none }

structure Aggregate where
  nSettled : Nat
  counts : Outcome → Nat
  totalStaked : ℚ
  totalPnl : ℚ
  roi : Option ℚ
  roiOk : Bool
  stakeWeightedClvLog : Option ℚ
  beatCloseRate : Option ℚ
  nSharpClose : Nat
  sharpOk : Bool
  sharpStakeWeightedClvLog : Option ℚ
  sharpBeatCloseRate : Option ℚ
  bandBelow : BandCell
  bandAtOrAbove : BandCell
  nUnknownOdds : Nat
  quality : QualityTally
  tautologicalRate : Option ℚ
  closeAgeP50Minutes : Option ℚ
  closeAgeP90Minutes : Option ℚ

/-- `RuntimeError("sharp-close subset contains a circular (self-priced) close")`. -/
inductive AggregateError where
  | circularSharpClose
  deriving DecidableEq

omit [Unicode] in
def Tally.report (t : Tally) (nSettled : Nat) : Aggregate :=
  let headlineOk := minHeadlineN ≤ nSettled
  let sharpOk := minHeadlineN ≤ t.nSharp
  { nSettled := nSettled
    counts := t.counts
    totalStaked := t.totalStaked
    totalPnl := t.totalPnl
    roi := if headlineOk then ratio t.totalPnl t.totalStaked else none
    roiOk := headlineOk
    stakeWeightedClvLog := if headlineOk then ratio t.blended.weighted t.blended.stake else none
    beatCloseRate := if headlineOk then ratio t.blendedBeat.beaten t.blendedBeat.known else none
    nSharpClose := t.nSharp
    sharpOk := sharpOk
    sharpStakeWeightedClvLog := if sharpOk then ratio t.sharp.weighted t.sharp.stake else none
    sharpBeatCloseRate := if sharpOk then ratio t.sharpBeat.beaten t.sharpBeat.known else none
    bandBelow := t.bandBelow.bandCell
    bandAtOrAbove := t.bandTail.bandCell
    nUnknownOdds := t.bandUnknownOdds
    quality := t.quality
    tautologicalRate :=
      if t.quality.missing < nSettled then
        some (t.quality.tautological / (nSettled - t.quality.missing : ℚ))
      else none
    closeAgeP50Minutes := percentile t.quality.closeAges (1 / 2)
    closeAgeP90Minutes := percentile t.quality.closeAges (9 / 10) }

def aggregateSettled (rows : List HeadlineRow) : Except AggregateError Aggregate :=
  let t := rows.foldl Tally.add {}
  if t.sharpAllIndependent then .ok (t.report rows.length) else .error .circularSharpClose

/-! The promotion cells. -/

def settledCloseIsTrusted (clvLog : Option ℚ) (closingAnchor : Option AnchorType)
    (closeIndependent hasSnapshotClose : Option Bool)
    (decimalOdds closingFairProbability modelProbability : Option ℚ)
    (mintDevigFellBack closeDevigFellBack : Option Bool) (bookmaker : Option Str)
    (legacyProductMismatch : Bool) : Bool :=
  if legacyProductMismatch then false
  else if clvLog.isNone || !hasSnapshotClose.getD false then false
  else if !closingAnchor.any (· ∈ sharpCloseAnchors) || closeIndependent ≠ some true then false
  else if clvRowIsTautological clvLog closingFairProbability modelProbability then false
  else if clvRowIsFabricated clvLog decimalOdds closingFairProbability bookmaker then false
  else !devigFallbackAsymmetric mintDevigFellBack closeDevigFellBack

/-- The tuple of one settled pick that `promotion_distance_cells` reads. -/
structure TrustRow where
  sport : Str
  market : Str
  settledAt : Int
  clvLog : Option ℚ
  closingAnchor : Option AnchorType
  closeIndependent : Option Bool
  hasSnapshotClose : Option Bool
  decimalOdds : Option ℚ
  closingFairProbability : Option ℚ
  modelProbability : Option ℚ
  mintDevigFellBack : Option Bool
  closeDevigFellBack : Option Bool
  bookmaker : Option Str := none
  marketDetail : Option Str := none
  mintedAt : Option Int := none

namespace TrustRow

omit [Unicode] in
def key (row : TrustRow) : Str × Str := (row.sport, row.market)

def trusted (row : TrustRow) : Bool :=
  settledCloseIsTrusted row.clvLog row.closingAnchor row.closeIndependent row.hasSnapshotClose
    row.decimalOdds row.closingFairProbability row.modelProbability row.mintDevigFellBack
    row.closeDevigFellBack row.bookmaker
    (isLegacyProductMismatch row.sport row.market row.marketDetail row.mintedAt)

end TrustRow

structure PromotionCell where
  sport : Str
  market : Str
  nSettled : Nat
  nTrusted : Nat
  okN : Nat
  ok : Bool
  nRecentTrusted : Nat
  cadenceWindowDays : Int
  estDaysToThreshold : Option ℚ
  meanClvLog : Option ℚ

omit [Unicode] in
def promotionCell (okN : Nat) (windowDays now : Int) (key : Str × Str) (nSettled : Nat)
    (trusted : List (ℚ × Int)) : PromotionCell :=
  let n := trusted.length
  let nRecent := trusted.countP fun v => now - days windowDays ≤ v.2
  { sport := key.1
    market := key.2
    nSettled := nSettled
    nTrusted := n
    okN := okN
    ok := okN ≤ n
    nRecentTrusted := nRecent
    cadenceWindowDays := windowDays
    estDaysToThreshold :=
      if ¬ okN ≤ n ∧ 0 < nRecent then some ((okN - n : ℚ) * windowDays / nRecent) else none
    meanClvLog := if okN ≤ n then ratio (trusted.map Prod.fst).sum n else none }

/-- `settled_counts` and `trusted` after the loop. -/
def settledCounts (rows : List TrustRow) : Dict (Str × Str) Nat :=
  rows.foldl (fun d row => d.modify row.key fun n => n.getD 0 + 1) .empty

def trustedCloses (rows : List TrustRow) : Dict (Str × Str) (List (ℚ × Int)) :=
  (rows.filter TrustRow.trusted).foldl (fun d row =>
    d.modify row.key fun closes => closes.getD [] ++ [(row.clvLog.getD 0, row.settledAt)]) .empty

def promotionDistanceCells (rows : List TrustRow) (now : Int) (okN : Nat := sportMarketOkN)
    (windowDays : Int := promotionCadenceWindowDays) : List PromotionCell :=
  sortedBy (fun cell => toLex (-(cell.nTrusted : Int), toLex (cell.sport, cell.market)))
    ((settledCounts rows).keys.map fun key =>
      promotionCell okN windowDays now key (((settledCounts rows).get? key).getD 0)
        (((trustedCloses rows).get? key).getD []))

/-! The live evidence. -/

structure SettledPickRow where
  tier : Pipeline.Tier
  valueFilterScore : Option ℚ
  clvLog : Option ℚ
  beatClose : Option Bool
  stake : ℚ
  pnl : Option ℚ
  anchorType : Option AnchorType := none
  sport : Option Str := none
  closingAnchorType : Option AnchorType := none
  hasSnapshotClose : Bool := false
  closeIndependentOfFill : Option Bool := none
  closingFairProbability : Option ℚ := none
  modelProbability : Option ℚ := none
  decimalOdds : Option ℚ := none
  mintDevigFellBack : Option Bool := none
  closeDevigFellBack : Option Bool := none
  mintedAt : Option Int := none
  market : Option Str := none
  marketDetail : Option Str := none
  leagueName : Option Str := none

namespace SettledPickRow

omit [Unicode] in
def devigFallbackAsymmetric (row : SettledPickRow) : Bool :=
  match row.mintDevigFellBack, row.closeDevigFellBack with
  | some mint, some close => mint ≠ close
  | _, _ => false

omit [Unicode] in
def isTautologicalClose (row : SettledPickRow) : Bool :=
  match row.clvLog, row.closingFairProbability, row.modelProbability with
  | some _, some closing, some model => |closing - model| ≤ clvTautologyEps
  | _, _, _ => false

omit [Unicode] in
/-- The price is the one the row holds: no book is netted here. -/
def isFabricated (row : SettledPickRow) : Bool :=
  match row.clvLog with
  | none => false
  | some clv =>
    match row.decimalOdds, row.closingFairProbability with
    | some odds, some closing =>
      if odds = 0 then clvImplausibleLog < |clv| else clvImplausibleCloseEdge < closing - 1 / odds
    | _, _ => clvImplausibleLog < |clv|

def isLegacyProductMismatch (row : SettledPickRow) : Bool :=
  Clv.isLegacyProductMismatch row.sport row.market row.marketDetail row.mintedAt

def sharpClose (row : SettledPickRow) : Bool :=
  row.hasSnapshotClose && row.closingAnchorType.any (· ∈ sharpCloseAnchors) &&
    row.closeIndependentOfFill = some true && !row.isTautologicalClose &&
    !row.devigFallbackAsymmetric && !row.isFabricated && !row.isLegacyProductMismatch

omit [Unicode] in
def sampled (row : SettledPickRow) : Bool :=
  row.closeIndependentOfFill = some true && !row.isTautologicalClose && !row.isFabricated

end SettledPickRow

structure StratumStats where
  n : Nat
  nClv : Nat
  nRoi : Nat
  meanClvLog : Option ℚ
  stakeWeightedClvLog : Option ℚ
  beatCloseRate : Option ℚ
  roi : Option ℚ
  sufficient : Bool

omit [Unicode] in
def stratumStats (rows : List SettledPickRow) (minN : Nat) : StratumStats :=
  let clvRows := rows.filter fun r => r.clvLog.isSome && r.sampled
  let pnlRows := rows.filter fun r => r.pnl.isSome
  let beatRows := rows.filter fun r => r.beatClose.isSome && r.sampled
  let stakeTotal := (clvRows.map SettledPickRow.stake).sum
  let staked := (pnlRows.map SettledPickRow.stake).sum
  let sufficient := minN ≤ clvRows.length
  { n := rows.length
    nClv := clvRows.length
    nRoi := pnlRows.length
    meanClvLog :=
      if sufficient then ratio (clvRows.map fun r => r.clvLog.getD 0).sum clvRows.length else none
    stakeWeightedClvLog :=
      if sufficient ∧ 0 < stakeTotal then
        some ((clvRows.map fun r => r.stake * r.clvLog.getD 0).sum / stakeTotal)
      else none
    beatCloseRate :=
      if sufficient then
        ratio (beatRows.countP fun r => r.beatClose = some true) beatRows.length
      else none
    roi :=
      if sufficient ∧ 0 < staked then some ((pnlRows.map fun r => r.pnl.getD 0).sum / staked)
        else none
    sufficient := sufficient }

def sharpCloseStats (rows : List SettledPickRow) (minN : Nat) : StratumStats :=
  stratumStats (rows.filter SettledPickRow.sharpClose) minN

/-! What the three readers are given of one row of the database. -/

/-- `picks` joined to `result_tracking`, and to the sport, the event and the league. -/
structure SettledRow where
  pick : PickRow
  sport : Str
  leagueName : Str
  startsAt : Option Int
  outcome : Outcome
  pnl : Option ℚ
  settledStakeAmount : Option ℚ
  settledEffectiveOdds : Option ℚ
  settledAt : Int
  odds_ge : 1 ≤ pick.detection.decimalOdds

namespace SettledRow

omit [Unicode] in
def settlementStake (row : SettledRow) : ℚ :=
  if 0 < row.pick.basis.stakeAmount then row.pick.basis.stakeAmount
  else row.pick.detection.recommendedStakeAmount

omit [Unicode] in
def settlementEffectiveOdds (row : SettledRow) : ℚ :=
  if 0 < row.pick.basis.stakeAmount then
    row.pick.basis.effectiveOddsStake / row.pick.basis.stakeAmount
  else row.pick.detection.decimalOdds

omit [Unicode] in
def settlementGuardBookmaker (row : SettledRow) : Option Str :=
  if 0 < row.pick.basis.stakeAmount then none else some row.pick.detection.bookmaker

omit [Unicode] in
def resultStake (row : SettledRow) : ℚ := row.settledStakeAmount.getD row.settlementStake

omit [Unicode] in
def resultEffectiveOdds (row : SettledRow) : ℚ :=
  row.settledEffectiveOdds.getD row.settlementEffectiveOdds

omit [Unicode] in
def resultGuardBookmaker (row : SettledRow) : Option Str :=
  if row.settledEffectiveOdds.isSome then none else row.settlementGuardBookmaker

omit [Unicode] in
def closeIndependent (row : SettledRow) : Option Bool :=
  if row.pick.basis.repriced then some false
  else if 0 < row.pick.basis.stakeAmount ∧ row.pick.basis.bookmaker = none then some false
  else row.pick.close.closeIndependentOfFill

omit [Unicode] in
def market (row : SettledRow) : Str := row.pick.instrument.market.value

def legacyMismatch (row : SettledRow) : Bool :=
  isLegacyProductMismatch row.sport row.market row.pick.instrument.marketDetail row.pick.createdAt

/-- `_settled_tuple` of the performance report. -/
def headlineRow (row : SettledRow) : HeadlineRow where
  outcome := row.outcome
  pnl := row.pnl
  stake := row.resultStake
  clvLog := row.pick.close.clvLog
  beatClose := row.pick.close.beatClose
  closingOdds := row.pick.close.closingOdds
  closingAnchor := row.pick.close.closingAnchorType
  closeIndependent := row.closeIndependent
  hasSnapshotClose := row.pick.close.hasSnapshotClose
  decimalOdds := row.resultEffectiveOdds
  closingFairProbability := row.pick.close.closingFairProbability
  modelProbability := row.pick.detection.modelProbability
  mintDevigFellBack := row.pick.detection.mintDevigFellBack
  closeDevigFellBack := row.pick.close.closeDevigFellBack
  closeSnapshotCapturedAt := row.pick.close.closeSnapshotCapturedAt
  kickoffAt := row.startsAt
  closeReason := row.pick.close.closeExclusionReason
  fillBookmaker := row.resultGuardBookmaker
  legacyMismatch := row.legacyMismatch

omit [Unicode] in
/-- The tuple of `_settled_trust_rows`. -/
def trustRow (row : SettledRow) : TrustRow where
  sport := row.sport
  market := row.market
  settledAt := row.settledAt
  clvLog := row.pick.close.clvLog
  closingAnchor := row.pick.close.closingAnchorType
  closeIndependent := row.closeIndependent
  hasSnapshotClose := row.pick.close.hasSnapshotClose
  decimalOdds := row.resultEffectiveOdds
  closingFairProbability := row.pick.close.closingFairProbability
  modelProbability := row.pick.detection.modelProbability
  mintDevigFellBack := row.pick.detection.mintDevigFellBack
  closeDevigFellBack := row.pick.close.closeDevigFellBack
  bookmaker := row.resultGuardBookmaker
  marketDetail := row.pick.instrument.marketDetail
  mintedAt := row.pick.createdAt

omit [Unicode] in
/-- The row that `live_evidence_rows` builds. -/
def evidenceRow (row : SettledRow) : SettledPickRow where
  tier := row.pick.tier
  valueFilterScore := row.pick.detection.valueFilterScore
  clvLog := row.pick.close.clvLog
  beatClose := row.pick.close.beatClose
  stake := row.resultStake
  pnl := row.pnl
  anchorType := row.pick.detection.anchorType
  sport := row.sport
  closingAnchorType := row.pick.close.closingAnchorType
  hasSnapshotClose := row.pick.close.hasSnapshotClose.getD false
  closeIndependentOfFill := row.closeIndependent
  closingFairProbability := row.pick.close.closingFairProbability
  modelProbability := row.pick.detection.modelProbability
  decimalOdds := row.resultEffectiveOdds
  mintDevigFellBack := row.pick.detection.mintDevigFellBack
  closeDevigFellBack := row.pick.close.closeDevigFellBack
  mintedAt := row.pick.createdAt
  market := row.market
  marketDetail := row.pick.instrument.marketDetail
  leagueName := row.leagueName

end SettledRow
end
end SharpEvPicks.Clv
