import SharpEvPicks.Pipeline.RestartSeed
import SharpEvPicks.Python.Format
import SharpEvPicks.Risk.Staking

/-! The stake of a pick from its detection to its row: `recommended_stake`, `_shrink_annotated` and
the same-event haircut of `app/pipeline.py`, then the two ways to the table. -/
namespace SharpEvPicks.Pipeline

open Python Risk Settlement Storage Transition

/-- Where the sizing of a pick raises. -/
inductive SizingError where
  | staking (e : StakingError) | storage (e : StorageError) | noMultiplier
  deriving DecidableEq

/-- The breakdown, with the count, the weight and the fraction of the annotation. -/
def shrinkAnnotated (shrink : UncertaintyShrinkPolicy) (nEff : Option Int)
    (breakdown : StakeBreakdown) :
    Except StakingError (StakeBreakdown × Option Int × Option ℚ × Option ℚ) :=
  match nEff with
  | none => .ok (breakdown, none, none, none)
  | some nEff => do
    let phi ← uncertaintyPhi nEff shrink.kappa
    let shrunk ← uncertaintyShrink breakdown.fractional nEff shrink.kappa
    pure (if shrink.enabled then { breakdown with final := min shrunk breakdown.final }
      else breakdown,
      some nEff, some phi, some shrunk)

/-- `f"{x:.3f}"` of a number that is not negative. -/
def formatThousandths (x : ℚ) : Str :=
  let n := (roundHalfEven (x * 1000)).toNat
  natText (n / 1000) ++ '.' :: (natText (1000 + n % 1000)).drop 1

section Sizing
variable (bankroll : ℚ) (bankroll_pos : 0 < bankroll)

/-- The pick with the stake of its breakdown. -/
def sized (pick : PickOut) (breakdown : StakeBreakdown) (nEff : Option Int)
    (phi shrunk : Option ℚ) : Except StorageError PickOut :=
  if nonneg : 0 ≤ breakdown.final then
    .ok { pick with
      recommendedStakeFraction := breakdown.final
      recommendedStakeAmount := quantizeHalfUp 2 (breakdown.final * bankroll)
      stakeBreakdown :=
        { rawKelly := breakdown.rawKelly
          fractional := breakdown.fractional
          capped := breakdown.capped
          final := breakdown.final
          phi := phi
          nEff := nEff.map Int.toNat
          shrunkFraction := shrunk }
      fraction_nonneg := nonneg
      amount_nonneg := quantizeHalfUp_nonneg (mul_nonneg nonneg bankroll_pos.le) }
  else .error .negativeStakeFraction

def haircutNote (mult : ℚ) : Str :=
  " | same-event correlation haircut x".toList ++ formatThousandths mult

def sameEventHaircut (mult : ℚ) (pick : PickOut) (breakdown : StakeBreakdown) :
    Except StorageError (PickOut × StakeBreakdown) :=
  if mult < 1 ∧ 0 < breakdown.final then
    if nonneg : 0 ≤ breakdown.final * mult then
      .ok ({ pick with
        recommendedStakeFraction := breakdown.final * mult
        recommendedStakeAmount := quantizeHalfUp 2 (breakdown.final * mult * bankroll)
        stakeBreakdown := { pick.stakeBreakdown with final := breakdown.final * mult }
        reasonSummary := pick.reasonSummary ++ haircutNote mult
        fraction_nonneg := nonneg
        amount_nonneg := quantizeHalfUp_nonneg (mul_nonneg nonneg bankroll_pos.le) },
        { breakdown with final := breakdown.final * mult })
    else .error .negativeStakeFraction
  else .ok (pick, breakdown)

end Sizing

/-- A detection: what the stake of its pick is made of, and where the pick goes. -/
structure Sizing where
  target : Option Target
  pick : PickOut
  eventId : Str
  probability : ℚ
  effectiveOdds : ℚ
  edgeVariance : ℚ := 0
  correlatedLegs : Int := 1
  avgCorrelation : ℚ := 0
  shrink : UncertaintyShrinkPolicy := {}
  nEff : Option Int := none
  stakeSameEventRho : ℚ := 0
  /-- The events of the premium candidates of its cycle that have a stake. -/
  legs : List Str := []

section
variable (math : Math) (policy : StakePolicy) (deps : PersistDeps)

def Sizing.mint (s : Sizing) : Except SizingError (PickOut × StakeBreakdown) := do
  let breakdown ← (recommendedStake math s.probability s.effectiveOdds policy s.edgeVariance
    s.correlatedLegs s.avgCorrelation).mapError .staking
  let annotated ← (shrinkAnnotated s.shrink s.nEff breakdown).mapError .staking
  let pick ← (sized deps.bankroll deps.bankroll_pos s.pick annotated.1 annotated.2.1
    annotated.2.2.1 annotated.2.2.2).mapError .storage
  pure (pick, annotated.1)

def Sizing.haircut (s : Sizing) (pick : PickOut) (breakdown : StakeBreakdown) :
    Except SizingError (PickOut × StakeBreakdown) :=
  if 0 < s.stakeSameEventRho then do
    let multipliers ← (sameEventStakeMultipliers math s.legs s.stakeSameEventRho).mapError
      .staking
    match multipliers.get? s.eventId with
    | none => .error .noMultiplier
    | some mult => (sameEventHaircut deps.bankroll deps.bankroll_pos mult pick
        breakdown).mapError .storage
  else .ok (pick, breakdown)

/-- What becomes of detections: a premium one is reserved, a volume one is only stored; a row may
close. -/
inductive Handling where
  | premium (sizing : Sizing) (ledger : DailyExposureLedger) (now : Int) (fault : Option Fault)
  | volume (sizing : Sizing) (now : Int) (fault : Option Fault)
  | settle (id : Nat) (closing : Closing) (close : CloseColumns)

def Handling.sizing : Handling → Option Sizing
  | .premium sizing _ _ _ => some sizing
  | .volume sizing _ _ => some sizing
  | .settle _ _ _ => none

def Sizing.stake (s : Sizing) : Except SizingError (PickOut × StakeBreakdown) := do
  let minted ← s.mint math policy deps
  s.haircut math deps minted.1 minted.2

/-- A detection whose sizing raises reaches no table. -/
def Handling.transaction : Handling → Option Transaction
  | .premium s ledger now fault => (s.stake math policy deps).toOption.map fun staked =>
    .reserve deps ledger s.target staked.1 staked.2 s.eventId now fault
  | .volume s now fault => (s.mint math policy deps).toOption.map fun minted =>
    .shadow deps s.target minted.1 now fault
  | .settle id closing close => some (.settle id closing close)

def handle [Unicode] (picks : PickTable) (h : Handling) : PickTable :=
  (h.transaction math policy deps).elim picks (transact picks)

end

/-- A stake is at most the one of the detection under the plain policy, and that one is within the
cap. -/
def Sizing.Allows (math : Math) (policy : StakePolicy) (s : Sizing) (fraction : ℚ) : Prop :=
  0 ≤ fraction ∧ ∃ plain,
    recommendedStake math s.probability s.effectiveOdds policy.plain = .ok plain ∧
    fraction ≤ plain.final ∧ plain.final ≤ policy.maxStakeFraction

/-- The pick of a detection, once it is sized. -/
structure Sized (math : Math) (policy : StakePolicy) (s : Sizing) (pick : PickOut)
    (breakdown : StakeBreakdown) : Prop where
  key : ∀ t : Target, t.key pick = t.key s.pick
  fraction : pick.recommendedStakeFraction = breakdown.final
  allowed : s.Allows math policy breakdown.final

section Minting
variable {math : Math} {policy : StakePolicy} {deps : PersistDeps} {s : Sizing} {pick : PickOut}
  {breakdown : StakeBreakdown} {fraction less : ℚ}

theorem Sizing.Allows.le (allowed : s.Allows math policy fraction) (low : 0 ≤ less)
    (below : less ≤ fraction) : s.Allows math policy less := by
  obtain ⟨-, plain, stake, within, cap⟩ := allowed
  exact ⟨low, plain, stake, below.trans within, cap⟩

/-- The annotation changes the final fraction only, and lowers it. -/
theorem shrinkAnnotated_mem {shrink : UncertaintyShrinkPolicy} {nEff : Option Int}
    {annotated : StakeBreakdown × Option Int × Option ℚ × Option ℚ}
    (low : 0 ≤ breakdown.final) (done : shrinkAnnotated shrink nEff breakdown = .ok annotated) :
    0 ≤ annotated.1.final ∧ annotated.1.final ≤ breakdown.final := by
  unfold shrinkAnnotated at done
  cases nEff with
  | none =>
    cases done
    exact ⟨low, le_refl _⟩
  | some n =>
    obtain ⟨phi, -, done⟩ := bind_ok.mp done
    obtain ⟨shrunk, shrinks, done⟩ := bind_ok.mp done
    cases done
    split
    · exact ⟨le_min (uncertaintyShrink_mem shrinks).1 low, min_le_right _ _⟩
    · exact ⟨low, le_refl _⟩

theorem sized_mint (kelly_nonneg : 0 ≤ policy.fractionalKelly)
    (cap_nonneg : 0 ≤ policy.maxStakeFraction)
    (done : s.mint math policy deps = .ok (pick, breakdown)) :
      Sized math policy s pick breakdown := by
  unfold Sizing.mint at done
  obtain ⟨recommended, stake, done⟩ := bind_ok.mp done
  obtain ⟨annotated, shrinks, done⟩ := bind_ok.mp done
  obtain ⟨minted, built, done⟩ := bind_ok.mp done
  cases done
  obtain ⟨-, low, plain, plainly, below, cap⟩ :=
    recommendedStake_mem kelly_nonneg cap_nonneg (ok_of_mapError stake)
  obtain ⟨low', less⟩ := shrinkAnnotated_mem low (ok_of_mapError shrinks)
  have pick_ := ok_of_mapError built
  rw [sized, dif_pos low'] at pick_
  cases pick_
  exact ⟨fun _ => rfl, rfl, low', plain, plainly, less.trans below, cap⟩

theorem sized_haircut {cut : PickOut} {cutBreakdown : StakeBreakdown}
    (sized : Sized math policy s pick breakdown)
    (done : s.haircut math deps pick breakdown = .ok (cut, cutBreakdown)) :
      Sized math policy s cut cutBreakdown := by
  unfold Sizing.haircut at done
  split at done
  swap
  · cases done
    exact sized
  obtain ⟨multipliers, legs, done⟩ := bind_ok.mp done
  cases found : multipliers.get? s.eventId with
  | none =>
    rw [found] at done
    cases done
  | some mult =>
    rw [found] at done
    obtain ⟨mult_nonneg, le_one⟩ := sameEventStakeMultipliers_mem (ok_of_mapError legs) found
    have cuts := ok_of_mapError done
    unfold sameEventHaircut at cuts
    split at cuts
    swap
    · cases cuts
      exact sized
    split at cuts
    · rename_i low
      cases cuts
      exact ⟨sized.key, rfl,
        sized.allowed.le low (mul_le_of_le_one_right sized.allowed.1 le_one)⟩
    · cases cuts

end Minting

/-! The rows that a transaction leaves. -/

/-- Each row of the new table is the written one, or one of before that kept its key and its
detection. -/
def OnlyWrites (picks : PickTable) (row : PickRow) (picks' : PickTable) : Prop :=
  ∀ r ∈ picks'.rows, r = row ∨ ∃ old ∈ picks.rows, old.key = r.key ∧
    old.detection = r.detection

section Rows
variable {picks : PickTable} {row : PickRow}

theorem onlyWrites_insertSlot {keyed : picks.Keyed} {key : Instrument × Nat}
    {absent : picks.find key = none} {tier : Tier} :
      OnlyWrites picks row ((picks.insertSlot keyed key absent tier).fill row) := by
  intro r inside
  obtain old | new := List.mem_append.mp inside
  · obtain ⟨r', listed, rfl⟩ := List.mem_map.mp old
    exact .inr ⟨r', listed, superseding_key.symm, superseding_detection.symm⟩
  · exact .inl (List.mem_singleton.mp new)

theorem onlyWrites_rewriteSlot {keyed : picks.Keyed} {old : PickRow} {inside : old ∈ picks.rows}
    {f : PickRow → PickRow} {ids : ∀ r, (f r).id = r.id} {keys : ∀ r, (f r).key = r.key}
    (same : ∀ r, (f r).detection = r.detection) :
    OnlyWrites picks row ((picks.rewriteSlot keyed old inside f ids keys).fill row) := by
  intro r listed
  obtain ⟨r', member, rfl⟩ := List.mem_map.mp listed
  split
  · exact .inl rfl
  · exact .inr ⟨r', member, (keys r').symm, (same r').symm⟩

variable [Unicode] {deps : PersistDeps} {pick : PickOut} {now : Int}

/-- A finalized row holds no stake, or what it held before and what was granted. -/
theorem finalized_fraction (exact : deps.numeric = Numeric.exact) {row' : PickRow}
    {final granted : ℚ} {persisted : Persisted} {alert : Option PickOut}
    (finalized : Finalized deps row pick final granted persisted now alert row')
    (asked : pick.recommendedStakeFraction = final) :
    row'.detection.recommendedStakeFraction = 0 ∨
      row'.detection.recommendedStakeFraction = totalStake granted persisted := by
  cases finalized with
  | demoted basis ungranted fresh next =>
    rw [exact]
    exact .inl rfl
  | staked p increment basis granted_ chosen added next =>
    rw [exact]
    right
    change p.recommendedStakeFraction = _
    obtain ⟨rfl, total, -⟩ | total := stakedPick_ok chosen
    · exact asked.trans total.symm
    · exact (withTotalStake_ok total).1

/-- A row has the stake of a row of before under its key, or it is the row of the pick and within
its stake. -/
def Staked (picks : PickTable) (found : Option Target) (pick : PickOut) (row : PickRow) : Prop :=
  (∃ old ∈ picks.rows, old.key = row.key ∧
    old.detection.recommendedStakeFraction = row.detection.recommendedStakeFraction) ∨
  ∃ t, found = some t ∧ t.key pick = row.key ∧
    0 ≤ row.detection.recommendedStakeFraction ∧
    row.detection.recommendedStakeFraction ≤ pick.recommendedStakeFraction

omit [Unicode] in
theorem staked_only {found : Option Target} {picks' : PickTable}
    (only : OnlyWrites picks row picks') (own : Staked picks found pick row) :
      ∀ r ∈ picks'.rows, Staked picks found pick r := by
  intro r inside
  obtain rfl | ⟨old, listed, keys, same⟩ := only r inside
  · exact own
  · exact .inl ⟨old, listed, keys, by rw [same]⟩

variable (keyed : picks.Keyed) {target : Target}

include keyed in
/-- A grant never takes the row above the larger of its old stake and the new one. -/
theorem staked_finalized (exact : deps.numeric = Numeric.exact)
    {ledger charged : DailyExposureLedger} {day : Int} {eventId : Option Str}
    {final requested granted : ℚ} (asked : pick.recommendedStakeFraction = final)
    {persisted : Persisted} {written picks' : PickTable} {alert : Option PickOut}
    (landing : Landing deps.numeric picks keyed target pick now persisted written)
    (requests : requestedFraction final persisted = some requested)
    (grants : ledger.reserve day requested eventId = .ok (granted, charged))
    (finished : finalizeStake deps written target pick final granted persisted now = .ok
      (alert, picks')) :
    ∀ r ∈ picks'.rows, Staked picks (some target) pick r := by
  obtain ⟨requested_nonneg, grant, -⟩ := DailyExposureLedger.reserve_ok grants
  have low : 0 ≤ granted := grant ▸ DailyExposureLedger.grant_nonneg requested_nonneg
  have high : granted ≤ requested := grant ▸ DailyExposureLedger.grant_le requested
  have final_nonneg : 0 ≤ final := asked ▸ pick.fraction_nonneg
  have within {row' : PickRow} (own : row'.key = target.key pick)
      (held : row'.detection.recommendedStakeFraction = 0 ∨
        row'.detection.recommendedStakeFraction = granted)
      (fresh : some requested = some final) : Staked picks (some target) pick row' := by
    refine .inr ⟨target, rfl, own.symm, ?_⟩
    rw [Option.some.inj fresh, ← asked] at high
    obtain none_ | all := held
    · rw [none_]
      exact ⟨le_refl 0, pick.fraction_nonneg⟩
    · rw [all]
      exact ⟨low, high⟩
  cases landing with
  | inserted absent =>
    obtain ⟨row', finalized, rfl⟩ := @finalizeStake_ok _ _ _
      (picks.insertSlot keyed (target.key pick) absent pick.tier)
      (pick.newRow deps.numeric target pick.terms now picks.nextId) _ _ _ _ _ _ _ _ _ rfl rfl rfl
        finished
    exact staked_only onlyWrites_insertSlot
      (within (finalized_frame finalized).2.1 (finalized_fraction exact finalized asked)
        requests.symm)
  | upgraded old inside own premium shadow live =>
    obtain ⟨row', finalized, rfl⟩ :=
      @finalizeStake_ok _ _ _ (upgradeSlot picks keyed old inside)
      (pick.promote deps.numeric pick.terms now old) _ _ _ _ _ _ _ _ _ rfl rfl own.symm finished
    exact staked_only (onlyWrites_rewriteSlot fun _ => superseding_detection)
      (within ((finalized_frame finalized).2.1.trans own) (finalized_fraction exact finalized asked)
        requests.symm)
  | denied row inside own kept unstaked => cases requests
  | repriced old inside own staked premium held live moved =>
    obtain ⟨row', finalized, rfl⟩ :=
      @finalizeStake_ok _ _ _ (repriceSlot picks keyed old inside)
      (pick.reprice deps.numeric old) _ _ _ _ _ _ _ _ _ rfl rfl own.symm finished
    have keys : row'.key = old.key := (finalized_frame finalized).2.1
    have asks : max (final - old.detection.recommendedStakeFraction) 0 = requested :=
      Option.some.inj requests
    refine staked_only (onlyWrites_rewriteSlot fun _ => rfl) ?_
    obtain none_ | total := finalized_fraction exact finalized asked
    · refine .inr ⟨target, rfl, (keys.trans own).symm, ?_⟩
      rw [none_]
      exact ⟨le_refl 0, pick.fraction_nonneg⟩
    · have sum : row'.detection.recommendedStakeFraction =
        old.detection.recommendedStakeFraction + granted := total
      by_cases more : old.detection.recommendedStakeFraction ≤ final
      · rw [max_eq_left (sub_nonneg.mpr more)] at asks
        refine .inr ⟨target, rfl, (keys.trans own).symm, ?_, ?_⟩
        · linarith
        · linarith
      · rw [max_eq_right (by linarith)] at asks
        exact .inl ⟨old, inside, keys.symm, by linarith⟩
  | held row inside own kept staked still => cases requests

theorem staked_landing (exact : deps.numeric = Numeric.exact) {persisted : Persisted}
    {written : PickTable}
    (landing : Landing deps.numeric picks keyed target pick now persisted written) :
    ∀ r ∈ written.rows, Staked picks (some target) pick r := by
  have kept : ∀ r ∈ picks.rows, Staked picks (some target) pick r :=
    fun r inside => .inl ⟨r, inside, rfl, rfl⟩
  have whole : (pick.detection deps.numeric).recommendedStakeFraction =
      pick.recommendedStakeFraction := by
    rw [exact]
    rfl
  have within {row' : PickRow} (own : row'.key = target.key pick)
      (held : row'.detection = pick.detection deps.numeric) :
        Staked picks (some target) pick row' := by
    refine .inr ⟨target, rfl, own.symm, ?_⟩
    rw [held, whole]
    exact ⟨pick.fraction_nonneg, le_refl _⟩
  cases landing with
  | inserted absent => exact staked_only onlyWrites_insertSlot (within rfl rfl)
  | upgraded old inside own premium shadow live =>
    exact staked_only (onlyWrites_rewriteSlot fun _ => superseding_detection) (within own rfl)
  | denied row inside own still unstaked => exact kept
  | repriced old inside own staked premium held live moved =>
    exact staked_only (onlyWrites_rewriteSlot fun _ => rfl) (within own rfl)
  | held row inside own still staked same => exact kept

include keyed in
theorem staked_reserve (exact : deps.numeric = Numeric.exact) (ledger : DailyExposureLedger)
    (found : Option Target) (breakdown : StakeBreakdown)
    (asked : pick.recommendedStakeFraction = breakdown.final) (eventId : Str)
    (fault : Option Fault) :
    ∀ r ∈ (persistAndReserve deps picks ledger found pick breakdown eventId now
      fault).picks.rows, Staked picks found pick r := by
  have kept : ∀ r ∈ picks.rows, Staked picks found pick r :=
    fun r inside => .inl ⟨r, inside, rfl, rfl⟩
  have ran := persistAndReserve_ran deps picks ledger found pick breakdown eventId now fault
  generalize persistAndReserve deps picks ledger found pick breakdown eventId now fault =
    done at ran ⊢
  cases ran with
  | unconfigured off => exact kept
  | withheld => exact kept
  | duplicate known stored idle =>
    rw [known]
    exact staked_landing keyed exact (persistPick_landing deps.numeric keyed stored)
  | handedBack requests grants => exact kept
  | committed known stored requests grants finished =>
    rw [known]
    exact staked_finalized keyed exact asked (persistPick_landing deps.numeric keyed stored)
      requests grants finished

include keyed in
theorem staked_shadow (exact : deps.numeric = Numeric.exact) (found : Option Target)
    (fault : Option Fault) :
    ∀ r ∈ (maybePersist deps picks found pick now fault).2.rows, Staked picks found pick r := by
  have kept : ∀ r ∈ picks.rows, Staked picks found pick r :=
    fun r inside => .inl ⟨r, inside, rfl, rfl⟩
  unfold maybePersist
  split
  · exact kept
  cases found with
  | none => exact kept
  | some t =>
    simp only
    split
    · exact kept
    cases stored : persistPick deps.numeric picks t pick now with
    | error e => exact kept
    | ok result =>
      obtain ⟨persisted, written⟩ := result
      exact staked_landing keyed exact (persistPick_landing deps.numeric keyed stored)

end Rows

/-! The stakes of a run. -/

/-- The stake of a row is one that a detection of its key allows. -/
def AllowedBy (math : Math) (policy : StakePolicy) (handlings : List Handling) (row : PickRow) :
    Prop :=
  ∃ h ∈ handlings, ∃ s t, h.sizing = some s ∧ s.target = some t ∧
    t.key s.pick = row.key ∧ s.Allows math policy row.detection.recommendedStakeFraction

structure WithinPolicy (math : Math) (policy : StakePolicy) (handlings : List Handling)
    (picks : PickTable) : Prop where
  sound : Sound picks
  allowed : ∀ r ∈ picks.rows, AllowedBy math policy handlings r

section Run
variable [Unicode] {math : Math} {policy : StakePolicy} {deps : PersistDeps} {picks : PickTable}
  {handlings : List Handling}

omit [Unicode] in
theorem allowedBy_staked {h : Handling} {s : Sizing} {pick : PickOut} {breakdown : StakeBreakdown}
    (allowed : ∀ r ∈ picks.rows, AllowedBy math policy handlings r) (inside : h ∈ handlings)
    (of : h.sizing = some s) (sized : Sized math policy s pick breakdown) {row : PickRow}
    (staked : Staked picks s.target pick row) : AllowedBy math policy handlings row := by
  obtain ⟨old, listed, keys, same⟩ | ⟨t, found, keys, low, below⟩ := staked
  · obtain ⟨h', inside', s', t', of', found', keys', allows⟩ := allowed old listed
    exact ⟨h', inside', s', t', of', found', keys'.trans keys, same ▸ allows⟩
  · rw [sized.fraction] at below
    exact ⟨h, inside, s, t, of, found, (sized.key t).symm.trans keys,
      sized.allowed.le low below⟩

theorem withinPolicy_transact (exact : deps.numeric = Numeric.exact)
    (kelly_nonneg : 0 ≤ policy.fractionalKelly) (cap_nonneg : 0 ≤ policy.maxStakeFraction)
    (within : WithinPolicy math policy handlings picks) {h : Handling} (inside : h ∈ handlings)
    {t : Transaction} (makes : h.transaction math policy deps = some t) :
    WithinPolicy math policy handlings (transact picks t) := by
  refine ⟨sound_transact within.sound t, ?_⟩
  cases h with
  | premium s ledger now fault =>
    obtain ⟨staked, stake, rfl⟩ := Option.map_eq_some_iff.mp makes
    obtain ⟨minted, mints, cuts⟩ := bind_ok.mp (ok_of_toOption stake)
    have sized := sized_haircut (sized_mint kelly_nonneg cap_nonneg mints) cuts
    intro r listed
    exact allowedBy_staked within.allowed inside rfl sized
      (staked_reserve within.sound.keyed exact ledger s.target staked.2 sized.fraction s.eventId
        fault r listed)
  | volume s now fault =>
    obtain ⟨minted, mints, rfl⟩ := Option.map_eq_some_iff.mp makes
    have sized := sized_mint kelly_nonneg cap_nonneg (ok_of_toOption mints)
    intro r listed
    exact allowedBy_staked within.allowed inside rfl sized
      (staked_shadow within.sound.keyed exact s.target fault r listed)
  | settle id closing close =>
    cases makes
    intro r listed
    obtain ⟨old, member, rfl⟩ := List.mem_map.mp listed
    obtain same | closed := settleRow_cases id closing close old
    · rw [same]
      exact within.allowed old member
    · rw [closed]
      exact within.allowed old member

theorem withinPolicy_handle (exact : deps.numeric = Numeric.exact)
    (kelly_nonneg : 0 ≤ policy.fractionalKelly) (cap_nonneg : 0 ≤ policy.maxStakeFraction)
    (within : WithinPolicy math policy handlings picks) {h : Handling} (inside : h ∈ handlings) :
      WithinPolicy math policy handlings (handle math policy deps picks h) := by
  unfold handle
  cases makes : h.transaction math policy deps with
  | none => exact within
  | some t => exact withinPolicy_transact exact kelly_nonneg cap_nonneg within inside makes

/-- Every stored stake is within the cap and within the plain stake of a detection of its key. -/
theorem stakes_within_policy (exact : deps.numeric = Numeric.exact)
    (kelly_nonneg : 0 ≤ policy.fractionalKelly) (cap_nonneg : 0 ≤ policy.maxStakeFraction)
    (handlings : List Handling) :
    ∀ row ∈ (run (handle math policy deps) emptyPicks handlings).rows,
      0 ≤ row.detection.recommendedStakeFraction ∧
      row.detection.recommendedStakeFraction ≤ policy.maxStakeFraction ∧
      ∃ h ∈ handlings, ∃ s t plain, h.sizing = some s ∧ s.target = some t ∧
        t.key s.pick = row.key ∧
        recommendedStake math s.probability s.effectiveOdds policy.plain = .ok plain ∧
        row.detection.recommendedStakeFraction ≤ plain.final := by
  have each : Along (handle math policy deps) (fun _ h => h ∈ handlings) emptyPicks handlings :=
    .of_forall fun h inside _ => inside
  have empty : WithinPolicy math policy handlings emptyPicks :=
    ⟨sound_empty, fun r inside => by cases inside⟩
  have kept : WithinPolicy math policy handlings
      (run (handle math policy deps) emptyPicks handlings) :=
    each.invariant (fun _ _ within inside =>
      withinPolicy_handle exact kelly_nonneg cap_nonneg within inside) empty
  intro row listed
  obtain ⟨h, inside, s, t, of, found, keys, low, plain, stake, below, cap⟩ :=
    kept.allowed row listed
  exact ⟨low, below.trans cap, h, inside, s, t, plain, of, found, keys, stake, below⟩

end Run

/-! A pick that is inserted with a clipped stake and repriced later, one of two legs of its event.
-/

/-- `sqrt` is that of the standard library on squares; `log` is not called. -/
def squares : Math where
  log x := x - 1
  sqrt x := Nat.sqrt (x.num.toNat * x.den) / x.den
  log_neg x _ below := by linarith
  one_le_sqrt x one := by
    have den : (0 : ℚ) < x.den := by exact_mod_cast x.pos
    have num : (x.den : Int) ≤ x.num := by
      have whole : (x.den : ℚ) ≤ x.num := by
        rw [← x.num_div_den] at one
        rwa [le_div_iff₀ den, one_mul] at one
      exact_mod_cast whole
    have root : x.den ≤ Nat.sqrt (x.num.toNat * x.den) :=
      Nat.le_sqrt.mpr (Nat.mul_le_mul_right _ (by omega))
    rw [le_div_iff₀ den, one_mul]
    exact_mod_cast root

def twoLegs : UncertaintyShrinkPolicy := { enabled := true, kappa := 50 }

theorem noStake : (0 : ℚ) ≤ 0 := le_refl 0

def arsenalSizing (probability odds : ℚ) (bookmaker : Str) : Sizing where
  target := some ⟨1, 1⟩
  pick := { rowPick 0 noStake with bookmaker := bookmaker }
  eventId := "e1".toList
  probability := probability
  effectiveOdds := odds
  shrink := twoLegs
  nEff := some 150
  stakeSameEventRho := 9 / 16
  legs := ["e1".toList, "e1".toList]

def halfLedger : DailyExposureLedger where
  maxDailyFraction := 1 / 100

def arsenalHandlings : List Handling :=
  [.premium (arsenalSizing (50 / 100) (21 / 10) "Bet365".toList) halfLedger (days 0) none,
    .premium (arsenalSizing (55 / 100) (22 / 10) "Pinnacle".toList) halfLedger (days 1) none]

theorem arsenalHandlings_within :
    (run (@handle squares {} exactDeps Unicode.ascii) emptyPicks arsenalHandlings).rows.length =
      1 ∧ ∀ row ∈ (run (@handle squares {} exactDeps Unicode.ascii) emptyPicks
        arsenalHandlings).rows, row.detection.recommendedStakeFraction ≤ 2 / 100 := by
  refine ⟨by decide +kernel, fun row listed => ?_⟩
  exact (@stakes_within_policy Unicode.ascii squares {} exactDeps rfl (by decide +kernel) (by
    decide +kernel)
    arsenalHandlings row listed).2.1

end SharpEvPicks.Pipeline
