import SharpEvPicks.Risk.Exposure
import SharpEvPicks.Storage.Picks

/-! Persisting a pick and charging its exposure, `_persist_and_reserve` and `_maybe_persist` of
`app/pipeline.py`. A transaction works on a copy of the table; its commit is the last step. -/
namespace SharpEvPicks.Pipeline

open Python Risk Storage

/-- What the two operations use of `PipelineDeps`. -/
structure PersistDeps where
  /-- A session factory and an event directory are configured. -/
  configured : Bool := true
  numeric : Numeric
  bankroll : ℚ
  bankroll_pos : 0 < bankroll

/-- `StakeBreakdown` of `app/risk/staking.py`. -/
structure StakeBreakdown where
  rawKelly : ℚ
  fractional : ℚ
  capped : Bool
  final : ℚ

inductive PersistOutcome where
  | unpersisted | inserted | upgraded | repriced | duplicate | duplicateDenied
  deriving DecidableEq, Repr

/-- Where a failure of the database or a cancellation ends an operation. -/
inductive Fault where
  | persist | update | commit
  deriving DecidableEq

structure Persistence where
  outcome : PersistOutcome
  /-- The pick to alert. -/
  staked : Option PickOut
  picks : PickTable
  ledger : DailyExposureLedger

def outcomeOf : Persisted → PersistOutcome
  | .inserted => .inserted
  | .upgraded => .upgraded
  | .duplicate => .duplicate
  | .duplicateDenied => .duplicateDenied
  | .repriced _ => .repriced

/-- The fraction asked of the ledger; a duplicate asks for none. -/
def requestedFraction (final : ℚ) : Persisted → Option ℚ
  | .duplicate | .duplicateDenied => none
  | .inserted | .upgraded => some final
  | .repriced previous => some (max (final - previous) 0)

def totalStake (granted : ℚ) : Persisted → ℚ
  | .repriced previous => previous + granted
  | _ => granted

def isRepriced : Persisted → Bool
  | .repriced _ => true
  | _ => false

def handBack (ledger : DailyExposureLedger) (day : Int) (granted : ℚ) (eventId : Str) :
    DailyExposureLedger :=
  if 0 < granted then
    match ledger.release day granted (some eventId) with
    | .ok released => released
    | .error _ => ledger
  else ledger

section Staking
variable (deps : PersistDeps)

def stakeAmount (fraction bankroll : ℚ) : Except StorageError ℚ :=
  if fraction < 0 then .error .negativeStakeFraction
  else .ok (quantizeHalfUp 2 (fraction * bankroll))

def stakeZeroNote : Str :=
  " | stake_zero: daily exposure cap granted 0 — demoted to volume".toList

def demoteToVolume (pick : PickOut) : PickOut :=
  { pick with
    tier := .volume
    recommendedStakeFraction := 0
    recommendedStakeAmount := 0
    stakeBreakdown := { pick.stakeBreakdown with final := 0, dailyClipped := true }
    reasonSummary := pick.reasonSummary ++ stakeZeroNote
    fraction_nonneg := le_refl 0
    amount_nonneg := le_refl 0 }

def withTotalStake (pick : PickOut) (total final : ℚ) : Except StorageError PickOut :=
  if nonneg : 0 ≤ total then
    .ok { pick with
      recommendedStakeFraction := total
      recommendedStakeAmount := quantizeHalfUp 2 (total * deps.bankroll)
      stakeBreakdown := { pick.stakeBreakdown with final := total, dailyClipped := total < final }
      fraction_nonneg := nonneg
      amount_nonneg := quantizeHalfUp_nonneg (mul_nonneg nonneg deps.bankroll_pos.le) }
  else .error .negativeStakeFraction

def stakedPick (pick : PickOut) (final granted : ℚ) (persisted : Persisted) :
    Except StorageError PickOut :=
  if totalStake granted persisted ≠ final ∨ isRepriced persisted then
    withTotalStake deps pick (totalStake granted persisted) final
  else .ok pick

def settlementIncrement (granted : ℚ) (persisted : Persisted) :
    Except StorageError (Option ℚ) :=
  if isRepriced persisted then (stakeAmount granted deps.bankroll).map some else .ok none

end Staking

section
variable [Unicode] (deps : PersistDeps)

/-- `update_pick_stake` where a missing row raises. -/
def updateOrRaise (picks : PickTable) (target : Target) (pick : PickOut) (update : StakeUpdate) :
    Except StorageError PickTable := do
  let (updated, picks) ← updatePickStake deps.numeric picks target pick update
  if updated then pure picks else throw .pickDisappeared

/-- What an operation does between its grant and its commit: the pick to alert and the table. -/
def finalizeStake (picks : PickTable) (target : Target) (pick : PickOut) (final granted : ℚ)
    (persisted : Persisted) (now : Int) : Except StorageError (Option PickOut × PickTable) := do
  if totalStake granted persisted ≤ 0 ∧ ¬ isRepriced persisted then
    let picks ← updateOrRaise deps picks target (demoteToVolume pick) { persistTier := true }
    pure (none, picks)
  else
    let staked ← stakedPick deps pick final granted persisted
    let increment ← settlementIncrement deps granted persisted
    let picks ← updateOrRaise deps picks target staked
      { exposureReservedOn := some (dateOf now)
        exposureReservedDelta := granted
        settlementBasisIncrementAmount := increment }
    pure (some staked, picks)

/-- `_persist_and_reserve`. The target is `none` where the directory does not know the event. -/
def persistAndReserve (picks : PickTable) (ledger : DailyExposureLedger) (target : Option Target)
    (pick : PickOut) (breakdown : StakeBreakdown) (eventId : Str) (now : Int)
    (fault : Option Fault) :
    Persistence :=
  let withheld (ledger : DailyExposureLedger) : Persistence :=
    ⟨.unpersisted, none, picks, ledger⟩
  if ¬ deps.configured then ⟨.unpersisted, some pick, picks, ledger⟩
  else match target with
  | none => withheld ledger
  | some target =>
    if fault = some .persist then withheld ledger
    else match persistPick deps.numeric picks target pick now with
    | .error _ => withheld ledger
    | .ok (persisted, written) =>
      match requestedFraction breakdown.final persisted with
      | none =>
        if fault = some .commit then withheld ledger
        else ⟨outcomeOf persisted, if persisted = .duplicate then some pick else none,
          written, ledger⟩
      | some requested =>
        match ledger.reserve (dateOf now) requested (some eventId) with
        | .error _ => withheld ledger
        | .ok (granted, charged) =>
          match finalizeStake deps written target pick breakdown.final granted persisted now with
          | .error _ => withheld (handBack charged (dateOf now) granted eventId)
          | .ok (staked, finalized) =>
            if fault = some .update ∨ fault = some .commit then
              withheld (handBack charged (dateOf now) granted eventId)
            else ⟨outcomeOf persisted, staked, finalized, charged⟩

/-- `_maybe_persist`, the path of the volume tier. -/
def maybePersist (picks : PickTable) (target : Option Target) (pick : PickOut) (now : Int)
    (fault : Option Fault) : PersistOutcome × PickTable :=
  if ¬ deps.configured then (.unpersisted, picks)
  else match target with
  | none => (.unpersisted, picks)
  | some target =>
    if fault.isSome then (.unpersisted, picks)
    else match persistPick deps.numeric picks target pick now with
    | .error _ => (.unpersisted, picks)
    | .ok (persisted, written) => (outcomeOf persisted, written)

inductive Ran (picks : PickTable) (ledger : DailyExposureLedger) (target : Option Target)
    (pick : PickOut) (final : ℚ) (eventId : Str) (now : Int) : Persistence → Prop where
  | unconfigured (off : deps.configured = false) :
    Ran picks ledger target pick final eventId now ⟨.unpersisted, some pick, picks, ledger⟩
  | withheld : Ran picks ledger target pick final eventId now
      ⟨.unpersisted, none, picks, ledger⟩
  | duplicate {t : Target} {persisted : Persisted} {written : PickTable} (known : target = some t)
      (found : persistPick deps.numeric picks t pick now = .ok (persisted, written))
      (idle : requestedFraction final persisted = none) :
    Ran picks ledger target pick final eventId now
      ⟨outcomeOf persisted, if persisted = .duplicate then some pick else none, written, ledger⟩
  | handedBack {persisted : Persisted} {requested granted : ℚ} {charged : DailyExposureLedger}
      (asked : requestedFraction final persisted = some requested)
      (grants : ledger.reserve (dateOf now) requested (some eventId) = .ok (granted, charged)) :
    Ran picks ledger target pick final eventId now
      ⟨.unpersisted, none, picks, handBack charged (dateOf now) granted eventId⟩
  | committed {t : Target} {persisted : Persisted} {written finalized : PickTable}
      {requested granted : ℚ} {charged : DailyExposureLedger} {staked : Option PickOut}
      (known : target = some t)
      (found : persistPick deps.numeric picks t pick now = .ok (persisted, written))
      (asked : requestedFraction final persisted = some requested)
      (grants : ledger.reserve (dateOf now) requested (some eventId) = .ok (granted, charged))
      (finished : finalizeStake deps written t pick final granted persisted now = .ok
        (staked, finalized)) :
    Ran picks ledger target pick final eventId now
      ⟨outcomeOf persisted, staked, finalized, charged⟩

theorem persistAndReserve_ran (picks : PickTable) (ledger : DailyExposureLedger)
    (target : Option Target) (pick : PickOut) (breakdown : StakeBreakdown) (eventId : Str)
    (now : Int) (fault : Option Fault) :
    Ran deps picks ledger target pick breakdown.final eventId now
      (persistAndReserve deps picks ledger target pick breakdown eventId now fault) := by
  unfold persistAndReserve
  cases configured : deps.configured with
  | false =>
    simp only [Bool.false_eq_true, not_false_eq_true, if_true]
    exact .unconfigured configured
  | true =>
    simp only [not_true_eq_false, if_false]
    cases target with
    | none => exact .withheld
    | some t =>
      simp only
      split
      · exact .withheld
      cases found : persistPick deps.numeric picks t pick now with
      | error e => exact .withheld
      | ok result =>
        obtain ⟨persisted, written⟩ := result
        simp only
        cases asked : requestedFraction breakdown.final persisted with
        | none =>
          simp only
          split
          · exact .withheld
          · exact .duplicate rfl found asked
        | some requested =>
          simp only
          cases grants : ledger.reserve (dateOf now) requested (some eventId) with
          | error e => exact .withheld
          | ok result =>
            obtain ⟨granted, charged⟩ := result
            simp only
            cases finished : finalizeStake deps written t pick breakdown.final granted persisted
              now with
            | error e => exact .handedBack asked grants
            | ok result =>
              obtain ⟨staked, finalized⟩ := result
              simp only
              split
              · exact .handedBack asked grants
              · exact .committed rfl found asked grants finished

end
end SharpEvPicks.Pipeline
