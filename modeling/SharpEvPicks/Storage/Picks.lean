import SharpEvPicks.Identity
import SharpEvPicks.Pipeline.ValuePipeline
import SharpEvPicks.Settlement.Engine

/-! The table of picks and the two writers of the pick path, `persist_pick` and
`update_pick_stake` of `app/storage/repositories.py`. Entity resolution has taken place: a
`Target` is what it returned. -/
namespace SharpEvPicks.Storage

open Python Edge Pipeline Settlement

structure Numeric where
  store : Nat → ℚ → ℚ
  store_store : ∀ decimals q, store decimals (store decimals q) = store decimals q

def Numeric.postgres : Numeric := ⟨quantizeHalfUp, quantizeHalfUp_quantizeHalfUp⟩

def Numeric.exact : Numeric := ⟨fun _ q => q, fun _ _ => rfl⟩

namespace Numeric
variable (numeric : Numeric)

def odds : ℚ → ℚ := numeric.store 4
def prob : ℚ → ℚ := numeric.store 6
def metric : ℚ → ℚ := numeric.store 6
def money : ℚ → ℚ := numeric.store 2
def basis : ℚ → ℚ := numeric.store 6

end Numeric

structure StakeBreakdownOut where
  rawKelly : ℚ
  fractional : ℚ
  capped : Bool
  final : ℚ
  dailyClipped : Bool := false
  phi : Option ℚ := none
  nEff : Option Nat := none
  shrunkFraction : Option ℚ := none
  deriving DecidableEq

/-- `PickOut`, with the count that only `ValuePickOut` has. The sport, the league and the
reference of its event are resolved before. -/
structure PickOut where
  market : Market
  selection : Str
  marketDetail : Option Str := none
  bookmaker : Str
  decimalOdds : ℚ
  modelProbability : ℚ
  fairProbability : ℚ
  edge : ℚ
  ev : ℚ
  confidence : ℚ
  recommendedStakeFraction : ℚ
  recommendedStakeAmount : ℚ
  stakeBreakdown : StakeBreakdownOut
  reasonSummary : Str
  tier : Tier := .premium
  valueFilterScore : Option ℚ := none
  anchorType : Option AnchorType := none
  anchorBook : Option Str := none
  anchorMatchConfidence : Option ℚ := none
  anchorMatchMethod : Option Str := none
  anchorStalenessDecision : Option StalenessDecision := none
  steamTripped : Option Bool := none
  steamReasons : Option Str := none
  steamClosedFraction : Option ℚ := none
  steamAnchorAgeSeconds : Option ℚ := none
  anchorBookCount : Option Nat := none
  hoursToKickoff : Option ℚ := none
  mintDevigFellBack : Option Bool := none
  policyFingerprint : Option Str := none
  odds_gt : 1 < decimalOdds
  fraction_nonneg : 0 ≤ recommendedStakeFraction
  amount_nonneg : 0 ≤ recommendedStakeAmount

/-- The rows that the sport, the league, the teams, the reference and the version of a pick name. -/
structure Target where
  eventId : Nat
  modelVersionId : Nat
  deriving DecidableEq

structure Instrument where
  eventId : Nat
  market : Market
  marketDetail : Option Str
  selection : Str
  deriving DecidableEq

structure Detection where
  bookmaker : Str
  decimalOdds : ℚ
  modelProbability : ℚ
  fairProbability : ℚ
  edge : ℚ
  ev : ℚ
  confidence : ℚ
  recommendedStakeFraction : ℚ
  recommendedStakeAmount : ℚ
  stakeBreakdown : StakeBreakdownOut
  reasonSummary : Str
  valueFilterScore : Option ℚ
  anchorType : Option AnchorType
  anchorBook : Option Str
  anchorMatchConfidence : Option ℚ
  anchorMatchMethod : Option Str
  anchorStalenessDecision : Option StalenessDecision
  steamTripped : Option Bool
  steamReasons : Option Str
  steamClosedFraction : Option ℚ
  steamAnchorAgeSeconds : Option ℚ
  anchorBookCount : Option Nat
  policyFingerprint : Option Str
  mintDevigFellBack : Option Bool
  deriving DecidableEq

/-- The accumulators of what was recommended at every price. -/
structure SettlementBasis where
  stakeAmount : ℚ
  rawOddsStake : ℚ
  effectiveOddsStake : ℚ
  bookmaker : Option Str
  repriced : Bool
  deriving DecidableEq

structure CloseColumns where
  closingOdds : Option ℚ := none
  closingFairProbability : Option ℚ := none
  clvLog : Option ℚ := none
  beatClose : Option Bool := none
  closingAnchorType : Option AnchorType := none
  hasSnapshotClose : Option Bool := none
  closeIndependentOfFill : Option Bool := none
  closeExclusionReason : Option Str := none
  closeDevigFellBack : Option Bool := none
  closeAnchorBook : Option Str := none
  closeSnapshotCapturedAt : Option Int := none
  currentOdds : Option ℚ := none
  currentEdge : Option ℚ := none
  currentBookmaker : Option Str := none
  revalidatedAt : Option Int := none
  deriving DecidableEq

structure PickRow where
  id : Nat
  instrument : Instrument
  modelVersionId : Nat
  detection : Detection
  basis : SettlementBasis
  exposureReservedOn : Option Int := none
  exposureReservedFraction : Option ℚ := none
  status : PickStatus
  tier : Tier
  hoursToKickoff : Option ℚ
  createdAt : Int
  close : CloseColumns := {}
  deriving DecidableEq

def PickRow.key (row : PickRow) : Instrument × Nat := (row.instrument, row.modelVersionId)

structure PickTable where
  rows : List PickRow
  nextId : Nat

/-- Where the pick path raises `ValueError` or `RuntimeError`. -/
inductive StorageError where
  | identity (e : IdentityError)
  | negativeSettlementStake | negativeIncrement | negativeReservedDelta | negativeStakeFraction
  | pickDisappeared
  deriving DecidableEq

inductive Persisted where
  | inserted | upgraded | duplicate | duplicateDenied
  | repriced (previousStakeFraction : ℚ)
  deriving DecidableEq

def Target.instrument (target : Target) (pick : PickOut) : Instrument :=
  ⟨target.eventId, pick.market, pick.marketDetail, pick.selection⟩

def Target.key (target : Target) (pick : PickOut) : Instrument × Nat :=
  (target.instrument pick, target.modelVersionId)

/-- The bounds that both writers check before they touch the session. -/
def checkPickIdentities (pick : PickOut) : Except IdentityError Unit := do
  let _ ← requireBoundedIdentity pick.selection selectionMaxBytes "pick selection".toList
  let _ ← requireBoundedIdentity pick.bookmaker bookmakerMaxBytes "pick bookmaker".toList
  match pick.marketDetail with
  | some detail =>
    let _ ← requireBoundedIdentity detail marketDetailMaxBytes "pick market_detail".toList true
  | none => pure ()

def checkAnchorIdentity (pick : PickOut) : Except IdentityError Unit :=
  match pick.anchorBook with
  | some book => do
    let _ ← requireBoundedIdentity book bookmakerMaxBytes "pick anchor_book".toList
  | none => pure ()

/-- A mint stamp saturates instead of overflowing its column. -/
def clampHours (hours : ℚ) : ℚ := min (max hours (-999999)) 999999

section
variable (numeric : Numeric)

def PickOut.detection (pick : PickOut) : Detection where
  bookmaker := pick.bookmaker
  decimalOdds := numeric.odds pick.decimalOdds
  modelProbability := numeric.prob pick.modelProbability
  fairProbability := numeric.prob pick.fairProbability
  edge := numeric.metric pick.edge
  ev := numeric.metric pick.ev
  confidence := numeric.prob pick.confidence
  recommendedStakeFraction := numeric.prob pick.recommendedStakeFraction
  recommendedStakeAmount := numeric.money pick.recommendedStakeAmount
  stakeBreakdown := pick.stakeBreakdown
  reasonSummary := pick.reasonSummary
  valueFilterScore := pick.valueFilterScore.map fun q => numeric.prob (roundTo 6 q)
  anchorType := pick.anchorType
  anchorBook := pick.anchorBook
  anchorMatchConfidence := pick.anchorMatchConfidence.map fun q => numeric.prob (roundTo 6 q)
  anchorMatchMethod := pick.anchorMatchMethod
  anchorStalenessDecision := pick.anchorStalenessDecision
  steamTripped := pick.steamTripped
  steamReasons := pick.steamReasons
  steamClosedFraction := pick.steamClosedFraction.map fun q => numeric.metric (roundTo 6 q)
  steamAnchorAgeSeconds := pick.steamAnchorAgeSeconds.map fun q => numeric.metric (roundTo 6 q)
  anchorBookCount := pick.anchorBookCount
  policyFingerprint := pick.policyFingerprint
  mintDevigFellBack := pick.mintDevigFellBack

end

section
variable [Unicode] (numeric : Numeric)

/-- `_settlement_basis_terms`: an amount times its raw and its commission-net odds. -/
def settlementBasisTerms (stakeAmount : ℚ) (bookmaker : Str) (decimalOdds : ℚ) :
    Except StorageError (ℚ × ℚ) :=
  if stakeAmount < 0 then .error .negativeSettlementStake
  else .ok (stakeAmount * decimalOdds,
    stakeAmount * effectiveOdds exchangeCommission bookmaker decimalOdds)

def PickOut.freshBasis (pick : PickOut) (terms : ℚ × ℚ) : SettlementBasis where
  stakeAmount := numeric.money pick.recommendedStakeAmount
  rawOddsStake := numeric.basis terms.1
  effectiveOddsStake := numeric.basis terms.2
  bookmaker := if 0 < pick.recommendedStakeAmount then some pick.bookmaker else none
  repriced := false

/-- An open row of another version gives way; a premium row only to a premium pick. -/
def PickRow.superseding (instrument : Instrument) (modelVersionId : Nat) (tier : Tier)
    (row : PickRow) : PickRow :=
  if row.instrument = instrument ∧ row.modelVersionId ≠ modelVersionId ∧
      row.status = .alerted ∧ (tier = .premium ∨ row.tier ≠ .premium) then
    { row with status := .superseded }
  else row

namespace PickTable

def find (picks : PickTable) (key : Instrument × Nat) : Option PickRow :=
  picks.rows.find? fun row => row.key = key

def put (picks : PickTable) (row : PickRow) : PickTable :=
  { picks with rows := picks.rows.map fun r => if r.id = row.id then row else r }

def add (picks : PickTable) (row : Nat → PickRow) : PickTable :=
  { rows := picks.rows ++ [row picks.nextId], nextId := picks.nextId + 1 }

def supersedeOlderVersions (picks : PickTable) (instrument : Instrument) (modelVersionId : Nat)
    (tier : Tier) : PickTable :=
  { picks with rows := picks.rows.map (PickRow.superseding instrument modelVersionId tier) }

end PickTable

def PickOut.newRow (pick : PickOut) (target : Target) (terms : ℚ × ℚ) (now : Int) (id : Nat) :
    PickRow where
  id := id
  instrument := target.instrument pick
  modelVersionId := target.modelVersionId
  detection := pick.detection numeric
  basis := pick.freshBasis numeric terms
  status := .alerted
  tier := pick.tier
  hoursToKickoff := pick.hoursToKickoff.map fun h => numeric.metric (roundTo 6 (clampHours h))
  createdAt := now

/-- A shadow row that becomes an actionable alert takes the numbers of that detection. -/
def PickOut.promote (pick : PickOut) (terms : ℚ × ℚ) (now : Int) (row : PickRow) : PickRow :=
  { row with
    tier := .premium
    detection := pick.detection numeric
    basis := pick.freshBasis numeric terms
    createdAt := now
    close := {} }

def PickOut.reprice (pick : PickOut) (row : PickRow) : PickRow :=
  { row with
    detection := pick.detection numeric
    basis := { row.basis with repriced := true }
    close := {} }

/-- What `persist_pick` finds under the key of a pick, in the order of its branches. -/
inductive Standing where
  | absent
  | upgradable (row : PickRow)
  | denied (row : PickRow)
  | repriceable (row : PickRow)
  | held (row : PickRow)

def PickTable.standing (picks : PickTable) (target : Target) (pick : PickOut) : Standing :=
  match picks.find (target.key pick) with
  | none => .absent
  | some row =>
    if pick.tier = .premium ∧ row.tier = .volume ∧ row.status = .alerted then .upgradable row
    else if row.detection.recommendedStakeFraction ≤ 0 then .denied row
    else if pick.tier = .premium ∧ row.tier = .premium ∧ row.status = .alerted ∧
        (row.detection.decimalOdds ≠ pick.decimalOdds ∨
          row.detection.bookmaker ≠ pick.bookmaker) then
      .repriceable row
    else .held row

def persistPick (picks : PickTable) (target : Target) (pick : PickOut) (now : Int) :
    Except StorageError (Persisted × PickTable) := do
  (checkPickIdentities pick).mapError .identity
  (checkAnchorIdentity pick).mapError .identity
  let terms ← settlementBasisTerms pick.recommendedStakeAmount pick.bookmaker pick.decimalOdds
  match picks.standing target pick with
  | .absent =>
    pure (.inserted, (picks.add (pick.newRow numeric target terms now)).supersedeOlderVersions
      (target.instrument pick) target.modelVersionId pick.tier)
  | .upgradable row =>
    pure (.upgraded, (picks.put (pick.promote numeric terms now row)).supersedeOlderVersions
      (target.instrument pick) target.modelVersionId .premium)
  | .denied _ => pure (.duplicateDenied, picks)
  | .repriceable row =>
    pure (.repriced row.detection.recommendedStakeFraction, picks.put (pick.reprice numeric row))
  | .held _ => pure (.duplicate, picks)

def SettlementBasis.accumulate (basis : SettlementBasis) (increment : ℚ) (bookmaker : Str)
    (terms : ℚ × ℚ) : SettlementBasis :=
  { basis with
    stakeAmount := numeric.money (basis.stakeAmount + increment)
    rawOddsStake := numeric.basis (basis.rawOddsStake + terms.1)
    effectiveOddsStake := numeric.basis (basis.effectiveOddsStake + terms.2)
    bookmaker :=
      if basis.stakeAmount ≤ 0 then some bookmaker
      else if basis.bookmaker = some bookmaker then basis.bookmaker
      else none }

def PickOut.nextBasis (pick : PickOut) (basis : SettlementBasis) :
    Option ℚ → Except StorageError SettlementBasis
  | none => do
    let terms ← settlementBasisTerms pick.recommendedStakeAmount pick.bookmaker pick.decimalOdds
    pure (pick.freshBasis numeric terms)
  | some increment =>
    if increment < 0 then .error .negativeIncrement
    else if increment = 0 then .ok basis
    else do
      let terms ← settlementBasisTerms increment pick.bookmaker pick.decimalOdds
      pure (basis.accumulate numeric increment pick.bookmaker terms)

/-- The exposure of a row charged to a day; a later day starts anew. -/
def PickRow.chargeExposure (row : PickRow) (day : Int) (delta : ℚ) : PickRow :=
  if row.exposureReservedOn = some day then
    { row with
      exposureReservedFraction :=
        some (numeric.prob (row.exposureReservedFraction.getD 0 + delta)) }
  else
    { row with
      exposureReservedOn := some day
      exposureReservedFraction := some (numeric.prob delta) }

/-- The keyword arguments of `update_pick_stake`. -/
structure StakeUpdate where
  persistTier : Bool := false
  exposureReservedOn : Option Int := none
  exposureReservedDelta : ℚ := 0
  settlementBasisIncrementAmount : Option ℚ := none

def StakeUpdate.charge (update : StakeUpdate) (row : PickRow) : PickRow :=
  match update.exposureReservedOn with
  | some day =>
    if 0 < update.exposureReservedDelta then
      row.chargeExposure numeric day update.exposureReservedDelta
    else row
  | none => row

/-- The row of a pick with its final stake and the basis that follows from it. -/
def PickOut.restaked (pick : PickOut) (row : PickRow) (update : StakeUpdate)
    (basis : SettlementBasis) : PickRow :=
  let charged := update.charge numeric row
  { charged with
    tier := if update.persistTier then pick.tier else row.tier
    detection := { row.detection with
      recommendedStakeFraction := numeric.prob pick.recommendedStakeFraction
      recommendedStakeAmount := numeric.money pick.recommendedStakeAmount
      stakeBreakdown := pick.stakeBreakdown
      reasonSummary := if update.persistTier then pick.reasonSummary
        else row.detection.reasonSummary }
    basis := basis }

def PickOut.restake (pick : PickOut) (row : PickRow) (update : StakeUpdate) :
    Except StorageError PickRow := do
  let basis ← pick.nextBasis numeric row.basis update.settlementBasisIncrementAmount
  if update.exposureReservedDelta < 0 then throw .negativeReservedDelta
  pure (pick.restaked numeric row update basis)

def updatePickStake (picks : PickTable) (target : Target) (pick : PickOut) (update : StakeUpdate) :
    Except StorageError (Bool × PickTable) := do
  (checkPickIdentities pick).mapError .identity
  match picks.find (target.key pick) with
  | none => pure (false, picks)
  | some row => do
    let staked ← pick.restake numeric row update
    pure (true, picks.put staked)

end
end SharpEvPicks.Storage
