import SharpEvPicks.Pipeline.Persistence
import SharpEvPicks.Storage.Landings

/-! The row that a committed operation leaves in the slot of its pick. -/
namespace SharpEvPicks.Pipeline

open Python Risk Storage

theorem charge_eq (numeric : Numeric) (update : StakeUpdate) (row : PickRow) :
    ∃ day fraction, update.charge numeric row =
      { row with exposureReservedOn := day, exposureReservedFraction := fraction } := by
  unfold StakeUpdate.charge
  split
  · split
    · unfold PickRow.chargeExposure
      split
      · exact ⟨row.exposureReservedOn, _, rfl⟩
      · exact ⟨_, _, rfl⟩
    · exact ⟨row.exposureReservedOn, row.exposureReservedFraction, rfl⟩
  · exact ⟨row.exposureReservedOn, row.exposureReservedFraction, rfl⟩

theorem restaked_frame (numeric : Numeric) (pick : PickOut) (row : PickRow) (update : StakeUpdate)
    (basis : SettlementBasis) :
    (pick.restaked numeric row update basis).id = row.id ∧
      (pick.restaked numeric row update basis).key = row.key ∧
      (pick.restaked numeric row update basis).status = row.status := by
  obtain ⟨day, fraction, charged⟩ := charge_eq numeric update row
  unfold PickOut.restaked
  rw [charged]
  exact ⟨rfl, rfl, rfl⟩

section
variable [Unicode] {numeric : Numeric} {id : Nat} {key : Instrument × Nat} (slot : Slot id key)
  {row : PickRow} {target : Target} {pick : PickOut}

theorem restake_ok {update : StakeUpdate} {row' : PickRow}
    (restaked : pick.restake numeric row update = .ok row') :
    ∃ basis, pick.nextBasis numeric row.basis update.settlementBasisIncrementAmount =
      .ok basis ∧ row' = pick.restaked numeric row update basis := by
  unfold PickOut.restake at restaked
  cases next : pick.nextBasis numeric row.basis update.settlementBasisIncrementAmount with
  | error e =>
    rw [next] at restaked
    cases restaked
  | ok basis =>
    rw [next] at restaked
    simp only [bind, Except.bind] at restaked
    split at restaked
    · cases restaked
    · cases restaked
      exact ⟨basis, rfl, rfl⟩

theorem updateOrRaise_ok {deps : PersistDeps} {update : StakeUpdate} {table : PickTable}
    (ids : row.id = id) (keys : row.key = key) (own : target.key pick = key)
    (updated : updateOrRaise deps (slot.fill row) target pick update = .ok table) :
    ∃ basis, pick.nextBasis deps.numeric row.basis update.settlementBasisIncrementAmount =
      .ok basis ∧ table = slot.fill (pick.restaked deps.numeric row update basis) := by
  unfold updateOrRaise updatePickStake at updated
  cases bounded : checkPickIdentities pick with
  | error e =>
    rw [bounded] at updated
    cases updated
  | ok _ =>
    rw [bounded, own, slot.find_fill row ids keys] at updated
    simp only [Except.mapError, bind, Except.bind] at updated
    cases next : pick.restake deps.numeric row update with
    | error e =>
      rw [next] at updated
      cases updated
    | ok row' =>
      rw [next] at updated
      cases updated
      obtain ⟨basis, reached, rfl⟩ := restake_ok next
      refine ⟨basis, reached, slot.put_fill _ _ ids ?_⟩
      exact (restaked_frame deps.numeric pick row update basis).1.trans ids

/-- How the stake of a row was finalized: demoted for want of exposure, or staked. -/
inductive Finalized (deps : PersistDeps) (row : PickRow) (pick : PickOut) (final granted : ℚ)
    (persisted : Persisted) (now : Int) : Option PickOut → PickRow → Prop where
  | demoted (basis : SettlementBasis) (ungranted : totalStake granted persisted ≤ 0)
      (fresh : ¬ isRepriced persisted)
      (next : (demoteToVolume pick).nextBasis deps.numeric row.basis none = .ok basis) :
    Finalized deps row pick final granted persisted now none
      ((demoteToVolume pick).restaked deps.numeric row { persistTier := true } basis)
  | staked (p : PickOut) (increment : Option ℚ) (basis : SettlementBasis)
      (granted_ : ¬ (totalStake granted persisted ≤ 0 ∧ ¬ isRepriced persisted))
      (chosen : stakedPick deps pick final granted persisted = .ok p)
      (added : settlementIncrement deps granted persisted = .ok increment)
      (next : p.nextBasis deps.numeric row.basis increment = .ok basis) :
    Finalized deps row pick final granted persisted now (some p)
      (p.restaked deps.numeric row
        { exposureReservedOn := some (dateOf now)
          exposureReservedDelta := granted
          settlementBasisIncrementAmount := increment } basis)

omit [Unicode] in
theorem stakedPick_ok {deps : PersistDeps} {final granted : ℚ} {persisted : Persisted}
    {p : PickOut} (chosen : stakedPick deps pick final granted persisted = .ok p) :
    (p = pick ∧ totalStake granted persisted = final ∧ ¬ isRepriced persisted) ∨
      withTotalStake deps pick (totalStake granted persisted) final = .ok p := by
  unfold stakedPick at chosen
  split at chosen
  · exact .inr chosen
  · rename_i same
    cases chosen
    rw [not_or, not_not] at same
    exact .inl ⟨rfl, same⟩

structure SameBet (p pick : PickOut) : Prop where
  market : p.market = pick.market
  marketDetail : p.marketDetail = pick.marketDetail
  selection : p.selection = pick.selection
  tier : p.tier = pick.tier
  bookmaker : p.bookmaker = pick.bookmaker
  decimalOdds : p.decimalOdds = pick.decimalOdds

omit [Unicode] in
theorem SameBet.target_key {p : PickOut} (same : SameBet p pick) :
    target.key p = target.key pick := by
  unfold Target.key Target.instrument
  rw [same.market, same.marketDetail, same.selection]

omit [Unicode] in
theorem withTotalStake_ok {deps : PersistDeps} {total final : ℚ} {p : PickOut}
    (chosen : withTotalStake deps pick total final = .ok p) :
    p.recommendedStakeFraction = total ∧
      p.recommendedStakeAmount = quantizeHalfUp 2 (total * deps.bankroll) ∧ SameBet p pick := by
  unfold withTotalStake at chosen
  split at chosen
  · cases chosen
    exact ⟨rfl, rfl, ⟨rfl, rfl, rfl, rfl, rfl, rfl⟩⟩
  · cases chosen

omit [Unicode] in
theorem stakedPick_same {deps : PersistDeps} {final granted : ℚ} {persisted : Persisted}
    {p : PickOut} (chosen : stakedPick deps pick final granted persisted = .ok p) :
      SameBet p pick := by
  rcases stakedPick_ok chosen with ⟨rfl, -⟩ | total
  · exact ⟨rfl, rfl, rfl, rfl, rfl, rfl⟩
  · exact (withTotalStake_ok total).2.2

theorem finalizeStake_ok {deps : PersistDeps} {final granted : ℚ} {persisted : Persisted}
    {now : Int} {alert : Option PickOut} {table : PickTable} (ids : row.id = id)
    (keys : row.key = key) (own : target.key pick = key)
    (finished : finalizeStake deps (slot.fill row) target pick final granted persisted now =
      .ok (alert, table)) :
    ∃ row', Finalized deps row pick final granted persisted now alert row' ∧
      table = slot.fill row' := by
  unfold finalizeStake at finished
  split at finished
  · rename_i ungranted
    cases updated : updateOrRaise deps (slot.fill row) target (demoteToVolume pick)
      { persistTier := true } with
    | error e =>
      rw [updated] at finished
      cases finished
    | ok written =>
      rw [updated] at finished
      cases finished
      have own' : target.key (demoteToVolume pick) = key := own
      obtain ⟨basis, next, rfl⟩ := updateOrRaise_ok slot ids keys own' updated
      exact ⟨_, .demoted basis ungranted.1 ungranted.2 next, rfl⟩
  · rename_i granted_
    cases chosen : stakedPick deps pick final granted persisted with
    | error e =>
      rw [chosen] at finished
      cases finished
    | ok p =>
      rw [chosen] at finished
      simp only [bind, Except.bind] at finished
      cases added : settlementIncrement deps granted persisted with
      | error e =>
        rw [added] at finished
        cases finished
      | ok increment =>
        rw [added] at finished
        simp only at finished
        cases updated : updateOrRaise deps (slot.fill row) target p
            { exposureReservedOn := some (dateOf now)
              exposureReservedDelta := granted
              settlementBasisIncrementAmount := increment } with
        | error e =>
          rw [updated] at finished
          cases finished
        | ok written =>
          rw [updated] at finished
          cases finished
          have own' : target.key p = key := (stakedPick_same chosen).target_key.trans own
          obtain ⟨basis, next, rfl⟩ := updateOrRaise_ok slot ids keys own' updated
          exact ⟨_, .staked p increment basis granted_ chosen added next, rfl⟩

/-- A finalized row is the row it was but for its stake, its basis and perhaps its tier. -/
theorem finalized_frame {deps : PersistDeps} {final granted : ℚ} {persisted : Persisted}
    {now : Int} {alert : Option PickOut} {row' : PickRow}
    (finalized : Finalized deps row pick final granted persisted now alert row') :
    row'.id = row.id ∧ row'.key = row.key ∧ row'.status = row.status ∧
      row'.detection.decimalOdds = row.detection.decimalOdds ∧
      (row'.tier = row.tier ∨ row'.tier = .volume ∧ ¬ isRepriced persisted) := by
  cases finalized with
  | demoted basis ungranted fresh next =>
    obtain ⟨ids, keys, status⟩ :=
      restaked_frame deps.numeric (demoteToVolume pick) row { persistTier := true } basis
    exact ⟨ids, keys, status, rfl, .inr ⟨rfl, fresh⟩⟩
  | staked p increment basis granted_ chosen added next =>
    obtain ⟨ids, keys, status⟩ := restaked_frame deps.numeric p row _ basis
    exact ⟨ids, keys, status, rfl, .inl rfl⟩

end

/-! What one committed operation does to the table. -/

section
variable [Unicode]

/-- The table is left alone, or the row of the pick is inserted, upgraded or repriced. -/
inductive Write (numeric : Numeric) (picks : PickTable) (keyed : picks.Keyed) (target : Target)
    (pick : PickOut) :
    PickTable → Prop where
  | untouched : Write numeric picks keyed target pick picks
  | inserted (absent : picks.find (target.key pick) = none) (row : PickRow)
      (ids : row.id = picks.nextId) (keys : row.key = target.key pick)
      (live : row.status = .alerted)
      (odds : row.detection.decimalOdds = numeric.odds pick.decimalOdds)
      (tier : row.tier = pick.tier ∨ row.tier = .volume) :
    Write numeric picks keyed target pick
      ((picks.insertSlot keyed (target.key pick) absent pick.tier).fill row)
  | upgraded (old : PickRow) (inside : old ∈ picks.rows) (own : old.key = target.key pick)
      (premium : pick.tier = .premium) (shadow : old.tier = .volume) (row : PickRow)
      (ids : row.id = old.id) (keys : row.key = old.key) (live : row.status = .alerted)
      (odds : row.detection.decimalOdds = numeric.odds pick.decimalOdds) :
    Write numeric picks keyed target pick ((upgradeSlot picks keyed old inside).fill row)
  | repriced (old : PickRow) (inside : old ∈ picks.rows) (own : old.key = target.key pick)
      (premium : pick.tier = .premium) (held : old.tier = .premium) (open_ : old.status = .alerted)
      (row : PickRow) (ids : row.id = old.id) (keys : row.key = old.key)
        (live : row.status = .alerted)
      (odds : row.detection.decimalOdds = numeric.odds pick.decimalOdds)
        (tier : row.tier = .premium) :
    Write numeric picks keyed target pick ((repriceSlot picks keyed old inside).fill row)

variable {deps : PersistDeps} {picks : PickTable} (keyed : picks.Keyed) {target : Target}
  {pick : PickOut} {now : Int}

theorem write_of_landing {persisted : Persisted} {written : PickTable}
    (landing : Landing deps.numeric picks keyed target pick now persisted written) :
    Write deps.numeric picks keyed target pick written := by
  cases landing with
  | inserted absent => exact .inserted absent _ rfl rfl rfl rfl (.inl rfl)
  | upgraded row inside own premium shadow live =>
    exact .upgraded row inside own premium shadow _ rfl rfl live rfl
  | denied row inside own kept unstaked => exact .untouched
  | repriced row inside own staked premium held live moved =>
    exact .repriced row inside own premium held live _ rfl rfl live rfl held
  | held row inside own kept staked still => exact .untouched

theorem write_of_finalized {persisted : Persisted} {written table : PickTable}
    {final granted : ℚ} {alert : Option PickOut} {requested : ℚ}
    (asked : requestedFraction final persisted = some requested)
    (landing : Landing deps.numeric picks keyed target pick now persisted written)
    (finished : finalizeStake deps written target pick final granted persisted now = .ok
      (alert, table)) :
    Write deps.numeric picks keyed target pick table := by
  cases landing with
  | inserted absent =>
    have ids : (pick.newRow deps.numeric target pick.terms now picks.nextId).id = picks.nextId :=
      rfl
    have keys : (pick.newRow deps.numeric target pick.terms now picks.nextId).key =
      target.key pick := rfl
    obtain ⟨row', finalized, rfl⟩ := finalizeStake_ok
      (picks.insertSlot keyed (target.key pick) absent pick.tier) ids keys rfl finished
    obtain ⟨ids, keys, status, odds, tier⟩ := finalized_frame finalized
    refine .inserted absent row' ids keys status odds ?_
    rcases tier with same | ⟨demoted, -⟩
    · exact .inl same
    · exact .inr demoted
  | upgraded row inside own premium shadow live =>
    have ids : (pick.promote deps.numeric pick.terms now row).id = row.id := rfl
    have keys : (pick.promote deps.numeric pick.terms now row).key = row.key := rfl
    obtain ⟨row', finalized, rfl⟩ :=
      finalizeStake_ok (upgradeSlot picks keyed row inside) ids keys own.symm finished
    obtain ⟨ids, keys, status, odds, tier⟩ := finalized_frame finalized
    exact .upgraded row inside own premium shadow row' ids keys (status.trans live) odds
  | denied row inside own kept unstaked => cases asked
  | repriced row inside own staked premium held live moved =>
    have ids : (pick.reprice deps.numeric row).id = row.id := rfl
    have keys : (pick.reprice deps.numeric row).key = row.key := rfl
    obtain ⟨row', finalized, rfl⟩ :=
      finalizeStake_ok (repriceSlot picks keyed row inside) ids keys own.symm finished
    obtain ⟨ids, keys, status, odds, tier⟩ := finalized_frame finalized
    refine .repriced row inside own premium held live row' ids keys (status.trans live) odds ?_
    rcases tier with same | ⟨-, fresh⟩
    · exact same.trans held
    · exact absurd rfl fresh
  | held row inside own kept staked still => cases asked

theorem persistAndReserve_writes {ledger : DailyExposureLedger} {found : Option Target}
    {breakdown : StakeBreakdown} {eventId : Str} {fault : Option Fault} :
    (persistAndReserve deps picks ledger found pick breakdown eventId now fault).picks = picks ∨
      ∃ t, found = some t ∧ Write deps.numeric picks keyed t pick
        (persistAndReserve deps picks ledger found pick breakdown eventId now fault).picks := by
  have ran := persistAndReserve_ran deps picks ledger found pick breakdown eventId now fault
  generalize persistAndReserve deps picks ledger found pick breakdown eventId now fault =
    r at ran ⊢
  cases ran with
  | unconfigured off => exact .inl rfl
  | withheld => exact .inl rfl
  | duplicate known found idle =>
    exact .inr ⟨_, known, write_of_landing keyed (persistPick_landing deps.numeric keyed found)⟩
  | handedBack asked grants => exact .inl rfl
  | committed known found asked grants finished =>
    exact .inr ⟨_, known,
      write_of_finalized keyed asked (persistPick_landing deps.numeric keyed found) finished⟩

theorem maybePersist_writes {found : Option Target} {fault : Option Fault} :
    (maybePersist deps picks found pick now fault).2 = picks ∨
      ∃ t, found = some t ∧ Write deps.numeric picks keyed t pick
        (maybePersist deps picks found pick now fault).2 := by
  unfold maybePersist
  split
  · exact .inl rfl
  cases found with
  | none => exact .inl rfl
  | some t =>
    simp only
    split
    · exact .inl rfl
    cases stored : persistPick deps.numeric picks t pick now with
    | error e => exact .inl rfl
    | ok result =>
      obtain ⟨persisted, written⟩ := result
      exact .inr ⟨t, rfl,
        write_of_landing keyed (persistPick_landing deps.numeric keyed stored)⟩

end
end SharpEvPicks.Pipeline
