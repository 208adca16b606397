import SharpEvPicks.Pipeline.Persistence
import SharpEvPicks.Transition.Guarded

/-! Fractional-Kelly stakes, `app/risk/staking.py`, in exact arithmetic. -/
namespace SharpEvPicks.Risk

open Python Pipeline Transition

/-- What the stakes use of Python's `math`; its floats are rationals. -/
structure Math where
  log : ℚ → ℚ
  sqrt : ℚ → ℚ
  log_neg : ∀ x, 0 < x → x < 1 → log x < 0
  one_le_sqrt : ∀ x, 1 ≤ x → 1 ≤ sqrt x

/-- The places where a stake raises `ValueError`. -/
inductive StakingError where
  | probability | decimalOdds | maxDrawdown | maxDrawdownProbability | edgeVariance | coef | kappa
  | nEff | fraction | nLegs | avgCorrelation
  deriving DecidableEq, Repr

def kellyFraction (probability decimalOdds : ℚ) : Except StakingError ℚ :=
  if ¬ (0 ≤ probability ∧ probability ≤ 1) then .error .probability
  else if decimalOdds ≤ 1 then .error .decimalOdds
  else
    let b := decimalOdds - 1
    .ok (max ((b * probability - (1 - probability)) / b) 0)

structure StakePolicy where
  fractionalKelly : ℚ := 25 / 100
  maxStakeFraction : ℚ := 2 / 100
  maxDrawdown : Option ℚ := none
  maxDrawdownProbability : Option ℚ := none
  edgeUncertaintyCoef : Option ℚ := none

/-- The policy with its optional knobs off. -/
def StakePolicy.plain (policy : StakePolicy) : StakePolicy where
  fractionalKelly := policy.fractionalKelly
  maxStakeFraction := policy.maxStakeFraction

def uncertaintyMultiplier (base edgeVariance coef : ℚ) : Except StakingError ℚ :=
  if edgeVariance < 0 then .error .edgeVariance
  else if coef < 0 then .error .coef
  else .ok (base / (1 + coef * edgeVariance))

structure UncertaintyShrinkPolicy where
  enabled : Bool := false
  kappa : ℚ := 50
  kappa_pos : 0 < kappa := by norm_num

def uncertaintyPhi (nEff : Int) (kappa : ℚ) : Except StakingError ℚ :=
  if kappa ≤ 0 then .error .kappa
  else if nEff < 0 then .error .nEff
  else .ok (nEff / (nEff + kappa))

def uncertaintyShrink (fraction : ℚ) (nEff : Int) (kappa : ℚ) : Except StakingError ℚ :=
  if fraction < 0 then .error .fraction
  else (uncertaintyPhi nEff kappa).map (fraction * ·)

section
variable (math : Math)

def drawdownConstrainedMultiplier (maxDrawdown maxProbability : ℚ) : Except StakingError ℚ :=
  if ¬ (0 < maxDrawdown ∧ maxDrawdown < 1) then .error .maxDrawdown
  else if ¬ (0 < maxProbability ∧ maxProbability < 1) then .error .maxDrawdownProbability
  else
    let floor := 1 - maxDrawdown
    let lam := 2 / (1 + math.log maxProbability / math.log floor)
    .ok (min lam 1)

def correlationHaircut (nLegs : Int) (avgCorrelation : ℚ) : Except StakingError ℚ :=
  if nLegs < 1 then .error .nLegs
  else if ¬ (0 ≤ avgCorrelation ∧ avgCorrelation < 1) then .error .avgCorrelation
  else if nLegs = 1 ∨ avgCorrelation = 0 then .ok 1
  else .ok (1 / math.sqrt (1 + (nLegs - 1) * avgCorrelation))

def effectiveKellyMultiplier (policy : StakePolicy) : Except StakingError ℚ :=
  match policy.maxDrawdown, policy.maxDrawdownProbability with
  | some drawdown, some probability =>
    (drawdownConstrainedMultiplier math drawdown probability).map (min policy.fractionalKelly)
  | _, _ => .ok policy.fractionalKelly

def recommendedStake (probability decimalOdds : ℚ) (policy : StakePolicy)
    (edgeVariance : ℚ := 0) (correlatedLegs : Int := 1) (avgCorrelation : ℚ := 0) :
      Except StakingError StakeBreakdown := do
  let raw ← kellyFraction probability decimalOdds
  let base ← effectiveKellyMultiplier math policy
  let shrunk ←
    (match policy.edgeUncertaintyCoef with
    | some coef =>
      if 0 < edgeVariance then uncertaintyMultiplier base edgeVariance coef else .ok base
    | none => .ok base)
  let mult ←
    (if 1 < correlatedLegs ∧ 0 < avgCorrelation then
      (correlationHaircut math correlatedLegs avgCorrelation).map (shrunk * ·)
    else .ok shrunk)
  let fractional := raw * mult
  pure
    { rawKelly := raw
      fractional := fractional
      capped := policy.maxStakeFraction < fractional
      final := min fractional policy.maxStakeFraction }

/-- `same_event_stake_multipliers` of `app/risk/exposure.py`. -/
def sameEventStakeMultipliers (eventIds : List Str) (avgCorrelation : ℚ) :
    Except StakingError (Dict Str ℚ) := do
  let counts := eventIds.foldl (fun counts eventId => counts.modify eventId fun n =>
    n.getD 0 + 1) Dict.empty
  let multipliers ← counts.entries.mapM fun e =>
    (correlationHaircut math e.2 avgCorrelation).map (Prod.mk e.1)
  pure (Dict.ofList multipliers)

end

/-! No multiplier raises a stake. -/

section Bounds
variable {math : Math} {policy : StakePolicy}

theorem kellyFraction_nonneg {probability decimalOdds raw : ℚ}
    (done : kellyFraction probability decimalOdds = .ok raw) : 0 ≤ raw := by
  unfold kellyFraction at done
  split at done
  · cases done
  split at done
  · cases done
  · cases done
    exact le_max_right _ _

theorem uncertaintyMultiplier_mem {base edgeVariance coef m : ℚ} (low : 0 ≤ base)
    (done : uncertaintyMultiplier base edgeVariance coef = .ok m) : 0 ≤ m ∧ m ≤ base := by
  unfold uncertaintyMultiplier at done
  split at done
  · cases done
  rename_i variance
  split at done
  · cases done
  rename_i knob
  cases done
  have one : 1 ≤ 1 + coef * edgeVariance := by
    have product : 0 ≤ coef * edgeVariance := mul_nonneg (not_lt.mp knob) (not_lt.mp variance)
    linarith
  exact ⟨div_nonneg low (by linarith), div_le_self low one⟩

theorem uncertaintyPhi_mem {nEff : Int} {kappa phi : ℚ}
    (done : uncertaintyPhi nEff kappa = .ok phi) : 0 ≤ phi ∧ phi ≤ 1 := by
  unfold uncertaintyPhi at done
  split at done
  · cases done
  rename_i positive
  split at done
  · cases done
  rename_i count
  cases done
  have n : (0 : ℚ) ≤ nEff := by exact_mod_cast not_lt.mp count
  have k : 0 < kappa := not_le.mp positive
  exact ⟨div_nonneg n (by linarith), (div_le_one (by linarith)).mpr (by linarith)⟩

theorem uncertaintyShrink_mem {fraction kappa shrunk : ℚ} {nEff : Int}
    (done : uncertaintyShrink fraction nEff kappa = .ok shrunk) :
      0 ≤ shrunk ∧ shrunk ≤ fraction := by
  unfold uncertaintyShrink at done
  split at done
  · cases done
  rename_i low
  cases weight : uncertaintyPhi nEff kappa with
  | error e =>
    rw [weight] at done
    cases done
  | ok phi =>
    rw [weight] at done
    cases done
    obtain ⟨nonneg, le_one⟩ := uncertaintyPhi_mem weight
    exact ⟨mul_nonneg (not_lt.mp low) nonneg, mul_le_of_le_one_right (not_lt.mp low) le_one⟩

theorem drawdownConstrainedMultiplier_nonneg {maxDrawdown maxProbability lam : ℚ}
    (done : drawdownConstrainedMultiplier math maxDrawdown maxProbability = .ok lam) :
      0 ≤ lam := by
  unfold drawdownConstrainedMultiplier at done
  split at done
  · cases done
  rename_i drawdown
  split at done
  · cases done
  rename_i probability
  cases done
  obtain ⟨some_, less⟩ := not_not.mp drawdown
  obtain ⟨likely, unsure⟩ := not_not.mp probability
  have ratio : 0 < math.log maxProbability / math.log (1 - maxDrawdown) :=
    div_pos_of_neg_of_neg (math.log_neg _ likely unsure) (math.log_neg _ (by linarith) (by
      linarith))
  exact le_min (div_nonneg zero_le_two (by linarith)) zero_le_one

theorem correlationHaircut_mem {nLegs : Int} {avgCorrelation h : ℚ}
    (done : correlationHaircut math nLegs avgCorrelation = .ok h) : 0 ≤ h ∧ h ≤ 1 := by
  unfold correlationHaircut at done
  split at done
  · cases done
  rename_i legs
  split at done
  · cases done
  rename_i correlated
  split at done
  · cases done
    exact ⟨zero_le_one, le_refl 1⟩
  · cases done
    obtain ⟨nonneg, -⟩ := not_not.mp correlated
    have more : (0 : ℚ) ≤ nLegs - 1 := by
      have one : (1 : ℚ) ≤ nLegs := by exact_mod_cast not_lt.mp legs
      linarith
    have root := math.one_le_sqrt (1 + (nLegs - 1) * avgCorrelation) (by
      linarith [mul_nonneg more nonneg])
    exact ⟨div_nonneg zero_le_one (by linarith), (div_le_one (by linarith)).mpr root⟩

theorem sameEventStakeMultipliers_mem {eventIds : List Str} {avgCorrelation : ℚ}
    {multipliers : Dict Str ℚ}
    (done : sameEventStakeMultipliers math eventIds avgCorrelation = .ok multipliers)
    {eventId : Str} {h : ℚ} (found : multipliers.get? eventId = some h) :
      0 ≤ h ∧ h ≤ 1 := by
  obtain ⟨entries, mapped, done⟩ := bind_ok.mp done
  cases done
  have each : ∀ e ∈ entries, 0 ≤ e.2 ∧ e.2 ≤ 1 := by
    intro e inside
    obtain ⟨n, -, cut⟩ := mem_of_mapM_ok mapped inside
    cases haircut : correlationHaircut math n.2 avgCorrelation with
    | error err =>
      rw [haircut] at cut
      cases cut
    | ok h =>
      rw [haircut] at cut
      cases cut
      exact correlationHaircut_mem haircut
  exact each _ (Dict.mem_of_get?_ofList found)

theorem effectiveKellyMultiplier_mem {m : ℚ} (low : 0 ≤ policy.fractionalKelly)
    (done : effectiveKellyMultiplier math policy = .ok m) :
      0 ≤ m ∧ m ≤ policy.fractionalKelly := by
  unfold effectiveKellyMultiplier at done
  split at done
  · rename_i drawdown probability _ _
    cases constrained : drawdownConstrainedMultiplier math drawdown probability with
    | error e =>
      rw [constrained] at done
      cases done
    | ok lam =>
      rw [constrained] at done
      cases done
      exact ⟨le_min low (drawdownConstrainedMultiplier_nonneg constrained), min_le_left _ _⟩
  · cases done
    exact ⟨low, le_refl _⟩

theorem recommendedStake_plain (math : Math) {probability decimalOdds raw : ℚ}
    (kelly : kellyFraction probability decimalOdds = .ok raw) :
    recommendedStake math probability decimalOdds policy.plain = .ok
      { rawKelly := raw
        fractional := raw * policy.fractionalKelly
        capped := policy.maxStakeFraction < raw * policy.fractionalKelly
        final := min (raw * policy.fractionalKelly) policy.maxStakeFraction } := by
  unfold recommendedStake
  rw [kelly]
  rfl

/-- Every knob leaves the stake at or below the one that it takes with all of them off. -/
theorem recommendedStake_mem {probability decimalOdds edgeVariance avgCorrelation : ℚ}
    {correlatedLegs : Int} {breakdown : StakeBreakdown}
    (kelly_nonneg : 0 ≤ policy.fractionalKelly) (cap_nonneg : 0 ≤ policy.maxStakeFraction)
    (done : recommendedStake math probability decimalOdds policy edgeVariance correlatedLegs
      avgCorrelation = .ok breakdown) :
    0 ≤ breakdown.fractional ∧ 0 ≤ breakdown.final ∧
      ∃ plain, recommendedStake math probability decimalOdds policy.plain = .ok plain ∧
        breakdown.final ≤ plain.final ∧ plain.final ≤ policy.maxStakeFraction := by
  unfold recommendedStake at done
  obtain ⟨raw, kelly, done⟩ := bind_ok.mp done
  obtain ⟨base, effective, done⟩ := bind_ok.mp done
  obtain ⟨shrunk, uncertain, done⟩ := bind_ok.mp done
  obtain ⟨mult, correlated, done⟩ := bind_ok.mp done
  cases done
  have raw_nonneg := kellyFraction_nonneg kelly
  obtain ⟨base_nonneg, base_le⟩ := effectiveKellyMultiplier_mem kelly_nonneg effective
  have shrinks : 0 ≤ shrunk ∧ shrunk ≤ base := by
    split at uncertain
    · split at uncertain
      · exact uncertaintyMultiplier_mem base_nonneg uncertain
      · cases uncertain
        exact ⟨base_nonneg, le_refl _⟩
    · cases uncertain
      exact ⟨base_nonneg, le_refl _⟩
  have cuts : 0 ≤ mult ∧ mult ≤ shrunk := by
    split at correlated
    · cases haircut : correlationHaircut math correlatedLegs avgCorrelation with
      | error e =>
        rw [haircut] at correlated
        cases correlated
      | ok h =>
        rw [haircut] at correlated
        cases correlated
        obtain ⟨nonneg, le_one⟩ := correlationHaircut_mem haircut
        exact ⟨mul_nonneg shrinks.1 nonneg, mul_le_of_le_one_right shrinks.1 le_one⟩
    · cases correlated
      exact ⟨shrinks.1, le_refl _⟩
  have fractional : 0 ≤ raw * mult := mul_nonneg raw_nonneg cuts.1
  have below : raw * mult ≤ raw * policy.fractionalKelly :=
    mul_le_mul_of_nonneg_left (cuts.2.trans (shrinks.2.trans base_le)) raw_nonneg
  exact ⟨fractional, le_min fractional cap_nonneg, _, recommendedStake_plain math kelly,
    min_le_min_right _ below, min_le_right _ _⟩

end Bounds
end SharpEvPicks.Risk
