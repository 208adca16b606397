import Mathlib.Algebra.BigOperators.Group.List.Basic
import SharpEvPicks.Pipeline.Alerts
import SharpEvPicks.Pipeline.ExposureAccounting

/-! The seed of the exposure ledger after a restart, `seed_exposure_ledger` of `app/scheduler.py`,
against the ledger that it replaces. -/
namespace SharpEvPicks.Pipeline

open Python Risk Storage Settlement

/-! The seed. -/

section Seed
variable (now : Int)

/-- `legacy_today`: a row from before the charge was stored. -/
def PickRow.LegacyToday (row : PickRow) : Prop :=
  row.exposureReservedOn = none ∧ dateOf now * days 1 ≤ row.createdAt ∧
    row.createdAt < dateOf now * days 1 + days 1

instance decidableLegacyToday (row : PickRow) : Decidable (PickRow.LegacyToday now row) :=
  inferInstanceAs (Decidable (_ ∧ _ ∧ _))

def PickRow.TodayPremium (row : PickRow) : Prop :=
  (row.exposureReservedOn = some (dateOf now) ∨ PickRow.LegacyToday now row) ∧
    row.tier = .premium

instance decidableTodayPremium (row : PickRow) : Decidable (PickRow.TodayPremium now row) :=
  inferInstanceAs (Decidable (_ ∧ _))

def PickRow.exposureCharge (row : PickRow) : ℚ :=
  if row.exposureReservedOn = some (dateOf now) then row.exposureReservedFraction.getD 0
  else if PickRow.LegacyToday now row then row.detection.recommendedStakeFraction
  else 0

def todayPremium (picks : PickTable) : List PickRow :=
  picks.rows.filter fun row => PickRow.TodayPremium now row

/-- `GROUP BY Event.external_ref`. -/
def exposureByEvent (externalRef : Nat → Str) (rows : List PickRow) : Dict Str ℚ :=
  rows.foldl (fun sums row => sums.modify (externalRef row.instrument.eventId) fun sum =>
    sum.getD 0 + PickRow.exposureCharge now row) Dict.empty

def seedExposureLedger (ledger : DailyExposureLedger) (picks : PickTable)
    (externalRef : Nat → Str) :
    Except LedgerError DailyExposureLedger := do
  let rows := todayPremium now picks
  let perEvent := if ledger.maxEventFraction.isSome then
    (exposureByEvent now externalRef rows).entries else []
  let ledger ← ledger.preload (dateOf now) (rows.map (PickRow.exposureCharge now)).sum
  perEvent.foldlM (fun ledger event => ledger.preloadEvent (dateOf now) event.1 event.2) ledger

end Seed

/-! The process before its restart: its table, its ledger and the day it is. -/

structure Books where
  picks : PickTable
  ledger : DailyExposureLedger
  today : Int

inductive Booking where
  | reserve (target : Option
      Target) (pick : PickOut) (breakdown : StakeBreakdown) (eventId : Str) (now : Int)
    (fault : Option Fault)
  | shadow (target : Option Target) (pick : PickOut) (now : Int) (fault : Option Fault)
  | settle (id : Nat) (closing : Closing) (close : CloseColumns)

section
variable [Unicode] (deps : PersistDeps)

def book (s : Books) : Booking → Books
  | .reserve target pick breakdown eventId now fault =>
    let done := persistAndReserve deps s.picks s.ledger target pick breakdown eventId now fault
    ⟨done.picks, done.ledger, dateOf now⟩
  | .shadow target pick now fault =>
    { s with picks := (maybePersist deps s.picks target pick now fault).2 }
  | .settle id closing close => { s with picks := transact s.picks (.settle id closing close) }

/-- The seed of a fresh ledger with the same caps. -/
def Books.reseeded (s : Books) (externalRef : Nat → Str) (now : Int) :
    Except LedgerError DailyExposureLedger :=
  seedExposureLedger now
    { maxDailyFraction := s.ledger.maxDailyFraction,
      maxEventFraction := s.ledger.maxEventFraction } s.picks externalRef

/-- The seeded totals of the day and of an event are those of the ledger that is lost. -/
def Books.Restores (s : Books) (externalRef : Nat → Str) (now : Int) (ref : Str) : Prop :=
  (s.reseeded externalRef now).map (fun l => (l.used (dateOf now), l.eventUsed (dateOf now) ref)) =
    .ok (s.ledger.used (dateOf now), s.ledger.eventUsed (dateOf now) ref)

instance decidableRestores (s : Books) (externalRef : Nat → Str) (now : Int) (ref : Str) :
    Decidable (s.Restores externalRef now ref) := inferInstanceAs (Decidable (_ = _))

def opened (daily : ℚ) (event : Option ℚ) (today : Int) : Books :=
  ⟨emptyPicks, { maxDailyFraction := daily, maxEventFraction := event }, today⟩

def history (daily : ℚ) (event : Option ℚ) (today : Int) (bookings : List Booking) : Books :=
  Transition.run (book deps) (opened daily event today) bookings

end

/-- The pipeline reserves for premium picks and persists the others without, and its clock does not
run back. -/
def Booking.InOrder (s : Books) : Booking → Prop
  | .reserve _ pick _ _ now _ => pick.tier = .premium ∧ s.today ≤ dateOf now
  | .shadow _ pick _ _ => pick.tier = .volume
  | .settle _ _ _ => True

/-- The event that a pick is stored under carries the reference that is charged. -/
def Booking.OwnRef (externalRef : Nat → Str) : Booking → Prop
  | .reserve target _ _ eventId _ _ => ∀ t ∈ target, externalRef t.eventId = eventId
  | _ => True

/-! What a row is charged with. -/

def PickRow.charged (of : Nat → Prop) [DecidablePred of] (day : Int) (row : PickRow) : ℚ :=
  if of row.instrument.eventId ∧ row.tier = .premium ∧ row.exposureReservedOn = some day then
    row.exposureReservedFraction.getD 0
  else 0

def chargedOn (of : Nat → Prop) [DecidablePred of] (day : Int) (picks : PickTable) : ℚ :=
  (picks.rows.map (PickRow.charged of day)).sum

section Charges
variable {of : Nat → Prop} [DecidablePred of] {day : Int} {picks : PickTable} {old new : PickRow}

theorem charged_superseding {instrument : Instrument} {version : Nat} {tier : Tier}
    (row : PickRow) :
    PickRow.charged of day
      (row.superseding instrument version tier) = PickRow.charged of day row := by
  obtain ⟨same, -⟩ | ⟨same, -⟩ :=
    superseding_cases instrument version tier row <;> rw [same]
  rfl

theorem charged_settleRow (id : Nat) (closing : Closing) (close : CloseColumns) (row : PickRow) :
    PickRow.charged of day (settleRow id closing close row) = PickRow.charged of day row := by
  obtain same | same := settleRow_cases id closing close row <;> rw [same]
  rfl

theorem chargedOn_map {f : PickRow → PickRow} {n : Nat}
    (same : ∀ r, PickRow.charged of day (f r) = PickRow.charged of day r) :
    chargedOn of day ⟨picks.rows.map f, n⟩ = chargedOn of day picks := by
  simp only [chargedOn, List.map_map]
  exact congrArg List.sum (List.map_congr_left fun r _ => same r)

/-- One row exchanged moves the sum by the difference. -/
theorem chargedOn_rewrite (keyed : picks.Keyed) (inside : old ∈ picks.rows)
    {f : PickRow → PickRow}
    (same : ∀ r, PickRow.charged of day (f r) = PickRow.charged of day r) {n : Nat} :
    chargedOn of day ⟨picks.rows.map fun r => if r.id = old.id then new else f r, n⟩ =
      chargedOn of day picks - PickRow.charged of day old + PickRow.charged of day new := by
  obtain ⟨before, after, split⟩ := List.append_of_mem inside
  have others : ∀ r ∈ before ++ after, r.id ≠ old.id := by
    have ids := keyed.ids
    rw [split] at ids
    simp only [List.map_append, List.map_cons, List.nodup_middle, List.nodup_cons] at ids
    intro r listed same
    exact ids.1 (by rw [← same, ← List.map_append]; exact List.mem_map_of_mem listed)
  have kept (rows : List PickRow) (apart : ∀ r ∈ rows, r.id ≠ old.id) :
      (rows.map fun r => if r.id = old.id then new else f r).map (PickRow.charged of day) =
        rows.map (PickRow.charged of day) := by
    rw [List.map_map]
    refine List.map_congr_left fun r listed => ?_
    rw [Function.comp_apply, if_neg (apart r listed), same]
  simp only [chargedOn, split, List.map_append, List.map_cons, if_true, List.sum_append,
    List.sum_cons, kept before fun r listed => others r (List.mem_append_left _ listed),
    kept after fun r listed => others r (List.mem_append_right _ listed)]
  ring

theorem chargedOn_insert {f : PickRow → PickRow}
    (same : ∀ r, PickRow.charged of day (f r) = PickRow.charged of day r) {n : Nat} :
    chargedOn of day ⟨picks.rows.map f ++ [new], n⟩ =
      chargedOn of day picks + PickRow.charged of day new := by
  have rest : (picks.rows.map f).map (PickRow.charged of day) =
      picks.rows.map (PickRow.charged of day) := by
    rw [List.map_map]
    exact List.map_congr_left fun r _ => same r
  simp only [chargedOn, List.map_append, rest, List.sum_append, List.map_singleton,
    List.sum_singleton]

/-- A premium row holds the charge of its last day, no other row holds any. -/
def PickRow.Booked (today : Int) (row : PickRow) : Prop :=
  match row.tier with
  | .premium => ∃ d f, row.exposureReservedOn = some d ∧ d ≤ today ∧
      row.exposureReservedFraction = some f ∧ 0 ≤ f
  | .volume => row.exposureReservedOn = none

theorem charged_volume (volume : old.tier = .volume) : PickRow.charged of day old = 0 := by
  refine if_neg ?_
  rintro ⟨-, premium, -⟩
  rw [volume] at premium
  cases premium

theorem charged_unreserved (unreserved : old.exposureReservedOn = none) :
    PickRow.charged of day old = 0 := by
  refine if_neg ?_
  rintro ⟨-, -, reserved⟩
  rw [unreserved] at reserved
  cases reserved

/-- The charge goes to its own day, on whatever earlier day the row was charged before. -/
theorem charged_chargeExposure {row : PickRow} {today : Int} {delta : ℚ}
    (premium : row.tier = .premium)
    (before : ∀ d, row.exposureReservedOn = some d → d ≤ today) (later : today ≤ day) :
    PickRow.charged of day (row.chargeExposure Numeric.exact today delta) =
      PickRow.charged of day row + if day = today ∧ of row.instrument.eventId then delta
        else 0 := by
  have stored : Numeric.exact.prob = id := rfl
  unfold PickRow.chargeExposure
  by_cases event : of row.instrument.eventId
  · split
    · rename_i same
      by_cases own : day = today
      · simp [PickRow.charged, premium, event, same, own, stored]
      · simp [PickRow.charged, premium, same, own, Ne.symm own]
    · rename_i other
      have old : ¬ row.exposureReservedOn = some day := by
        intro reserved
        obtain rfl : day = today := le_antisymm (before day reserved) later
        exact other reserved
      by_cases own : day = today
      · subst own
        simp [PickRow.charged, premium, event, old, stored]
      · simp [PickRow.charged, premium, old, own, Ne.symm own]
  · split <;> simp [PickRow.charged, event]

/-- The update that finalizes a stake. -/
def stakeUpdate (today : Int) (granted : ℚ) (increment : Option ℚ) : StakeUpdate where
  exposureReservedOn := some today
  exposureReservedDelta := granted
  settlementBasisIncrementAmount := increment

theorem charged_restaked {pick : PickOut} {row : PickRow} {basis : SettlementBasis} {today : Int}
    {granted : ℚ} (increment : Option ℚ) (premium : row.tier = .premium)
    (nonneg : 0 ≤ granted) (before : ∀ d, row.exposureReservedOn = some d → d ≤ today)
    (later : today ≤ day) :
    PickRow.charged of day
      (pick.restaked Numeric.exact row (stakeUpdate today granted increment) basis) =
      PickRow.charged of day row + if day = today ∧ of row.instrument.eventId then granted
        else 0 := by
  by_cases some_ : 0 < granted
  · have charge : (stakeUpdate today granted increment).charge Numeric.exact row =
        row.chargeExposure Numeric.exact today granted := if_pos some_
    rw [← charged_chargeExposure premium before later, PickRow.charged, PickRow.charged]
    simp only [PickOut.restaked, charge]
    have tier : (row.chargeExposure Numeric.exact today granted).tier = row.tier := by
      unfold PickRow.chargeExposure
      split <;> rfl
    rw [tier]
    rfl
  · have zero : granted = 0 := le_antisymm (not_lt.mp some_) nonneg
    rw [PickRow.charged, PickRow.charged]
    simp only [PickOut.restaked, zero, ite_self, add_zero]
    rfl

/-- A row that was not charged before needs a grant to be booked. -/
theorem booked_restaked {pick : PickOut} {row : PickRow} {basis : SettlementBasis} {today : Int}
    {granted : ℚ} (increment : Option ℚ) (premium : row.tier = .premium)
    (nonneg : 0 ≤ granted)
    (booked : row.exposureReservedOn = none ∧ 0 < granted ∨ PickRow.Booked today row) :
    PickRow.Booked today
      (pick.restaked Numeric.exact row (stakeUpdate today granted increment) basis) := by
  have tier : (pick.restaked Numeric.exact row (stakeUpdate today granted increment) basis).tier =
    row.tier := rfl
  have on : (pick.restaked Numeric.exact row (stakeUpdate today granted increment)
    basis).exposureReservedOn =
    ((stakeUpdate today granted increment).charge Numeric.exact row).exposureReservedOn := rfl
  have fraction : (pick.restaked Numeric.exact row (stakeUpdate today granted increment)
    basis).exposureReservedFraction =
    ((stakeUpdate today granted increment).charge Numeric.exact row).exposureReservedFraction := rfl
  simp only [PickRow.Booked, tier, premium, on, fraction] at booked ⊢
  by_cases some_ : 0 < granted
  · have charge : (stakeUpdate today granted increment).charge Numeric.exact row =
        row.chargeExposure Numeric.exact today granted := if_pos some_
    rw [charge]
    unfold PickRow.chargeExposure
    split
    · rename_i same
      obtain ⟨unreserved, -⟩ | ⟨d, f, -, -, held, low⟩ := booked
      · rw [unreserved] at same
        cases same
      · refine ⟨today, f + granted, same, le_refl _, ?_, by linarith⟩
        simp only [held, Option.getD_some]
        rfl
    · exact ⟨today, granted, rfl, le_refl _, rfl, nonneg⟩
  · have charge : (stakeUpdate today granted increment).charge Numeric.exact row = row :=
      if_neg some_
    rw [charge]
    exact booked.resolve_left fun fresh => some_ fresh.2

end Charges

/-! One transaction. -/

/-- What a transaction of a day does to the table: it charges an amount to the event of its target.
-/
structure Posted (picks : PickTable) (target : Target) (today : Int) (granted : ℚ)
    (picks' : PickTable) : Prop where
  booked : ∀ r ∈ picks'.rows, PickRow.Booked today r
  charged : ∀ (of : Nat → Prop) [DecidablePred of] (day : Int), today ≤ day →
    chargedOn of day picks' = chargedOn of day picks + if day = today ∧ of target.eventId then
      granted else 0

section Posting
variable {picks : PickTable} {target : Target} {pick : PickOut} {row : PickRow} {today : Int}

theorem Booked.later {day : Int} (booked : PickRow.Booked day row) (later : day ≤ today) :
    PickRow.Booked today row := by
  unfold PickRow.Booked at booked ⊢
  split at booked
  · obtain ⟨d, f, reserved, back, fraction, low⟩ := booked
    exact ⟨d, f, reserved, back.trans later, fraction, low⟩
  · exact booked

theorem booked_superseding {instrument : Instrument} {version : Nat} {tier : Tier}
    (booked : PickRow.Booked today row) :
      PickRow.Booked today (row.superseding instrument version tier) := by
  obtain ⟨same, -⟩ | ⟨same, -⟩ :=
    superseding_cases instrument version tier row <;> rw [same]
  · exact booked
  · exact booked

theorem booked_before (booked : PickRow.Booked today row) :
    ∀ d, row.exposureReservedOn = some d → d ≤ today := by
  intro d reserved
  unfold PickRow.Booked at booked
  split at booked
  · obtain ⟨d', f, reserved', back, -⟩ := booked
    rw [reserved] at reserved'
    rw [Option.some.inj reserved']
    exact back
  · rw [booked] at reserved
    cases reserved

theorem posted_insert (keyed : picks.Keyed)
    (booked : ∀ r ∈ picks.rows, PickRow.Booked today r)
    (absent : picks.find (target.key pick) = none) (tier : Tier) {granted : ℚ}
    (own : PickRow.Booked today row)
    (charge : ∀ (of : Nat → Prop) [DecidablePred of] (day : Int), today ≤ day →
      PickRow.charged of day row = if day = today ∧ of target.eventId then granted else 0) :
    Posted picks target today granted
      ((picks.insertSlot keyed (target.key pick) absent tier).fill row) where
  booked r inside := by
    obtain old | new := List.mem_append.mp inside
    · obtain ⟨r', listed, rfl⟩ := List.mem_map.mp old
      exact booked_superseding (booked r' listed)
    · rw [List.mem_singleton.mp new]
      exact own
  charged of _ day later := by
    rw [← charge of day later]
    exact chargedOn_insert charged_superseding

theorem posted_rewrite (keyed : picks.Keyed)
    (booked : ∀ r ∈ picks.rows, PickRow.Booked today r) {old : PickRow}
    (inside : old ∈ picks.rows) {f : PickRow → PickRow} {ids : ∀ r, (f r).id = r.id}
    {keys : ∀ r, (f r).key = r.key}
    (kept : ∀ r, PickRow.Booked today r → PickRow.Booked today (f r))
    (same : ∀ (of : Nat → Prop) [DecidablePred of] (day : Int) r,
      PickRow.charged of day (f r) = PickRow.charged of day r)
    {granted : ℚ} (own : PickRow.Booked today row)
    (charge : ∀ (of : Nat → Prop) [DecidablePred of] (day : Int), today ≤ day →
      PickRow.charged of day row = PickRow.charged of day old + if day = today ∧
      of target.eventId then granted else 0) :
    Posted picks target today granted
      ((picks.rewriteSlot keyed old inside f ids keys).fill row) where
  booked r listed := by
    obtain ⟨r', member, rfl⟩ := List.mem_map.mp listed
    split
    · exact own
    · exact kept r' (booked r' member)
  charged of _ day later := by
    have moved : chargedOn of day ((picks.rewriteSlot keyed old inside f ids keys).fill row) =
        chargedOn of day picks - PickRow.charged of day old + PickRow.charged of day row :=
      chargedOn_rewrite keyed inside (same of day)
    rw [moved, charge of day later]
    ring

end Posting

section Persisting
variable [Unicode] {deps : PersistDeps} {pick : PickOut} {now : Int}

omit [Unicode] in
theorem totalStake_fresh {persisted : Persisted} (granted : ℚ) (fresh : ¬ isRepriced persisted) :
    totalStake granted persisted = granted := by
  cases persisted with
  | repriced previous => exact absurd rfl fresh
  | inserted => rfl
  | upgraded => rfl
  | duplicate => rfl
  | duplicateDenied => rfl

/-- What becomes of a premium row whose stake is finalized, however the row came about. -/
theorem finalized_charge (exact : deps.numeric = Numeric.exact) {row row' : PickRow}
    {final granted : ℚ} {persisted : Persisted} {alert : Option PickOut}
    (finalized : Finalized deps row pick final granted persisted now alert row')
    (premium : row.tier = .premium) (nonneg : 0 ≤ granted)
    (before : ¬ isRepriced persisted ∧ row.exposureReservedOn = none ∨ isRepriced persisted ∧
      PickRow.Booked (dateOf now) row) :
    PickRow.Booked (dateOf now) row' ∧
      ∀ (of : Nat → Prop) [DecidablePred of] (day : Int), dateOf now ≤ day →
        PickRow.charged of day row' =
          PickRow.charged of day row + if day = dateOf now ∧
          of row.instrument.eventId then granted
            else 0 := by
  cases finalized with
  | demoted basis ungranted fresh next =>
    obtain ⟨-, unreserved⟩ := before.resolve_right fun repriced => fresh repriced.1
    obtain rfl : granted = 0 :=
      le_antisymm (by rwa [totalStake_fresh granted fresh] at ungranted) nonneg
    refine ⟨unreserved, fun of _ day later => ?_⟩
    rw [charged_volume rfl, charged_unreserved unreserved, ite_self, add_zero]
  | staked p increment basis granted_ chosen added next =>
    rw [exact]
    have earlier : ∀ d, row.exposureReservedOn = some d → d ≤ dateOf now := by
      obtain ⟨-, unreserved⟩ | ⟨-, booked⟩ := before
      · intro d reserved
        rw [unreserved] at reserved
        cases reserved
      · exact booked_before booked
    refine ⟨booked_restaked increment premium nonneg ?_, fun of _ day later =>
      charged_restaked increment premium nonneg earlier later⟩
    obtain ⟨fresh, unreserved⟩ | ⟨-, booked⟩ := before
    · left
      rw [totalStake_fresh granted fresh] at granted_
      exact ⟨unreserved, not_le.mp fun none_ => granted_ ⟨none_, fresh⟩⟩
    · exact .inr booked

variable {picks : PickTable} {target : Target} {today : Int}

theorem posted_finalized (exact : deps.numeric = Numeric.exact) (keyed : picks.Keyed)
    (booked : ∀ r ∈ picks.rows, PickRow.Booked (dateOf now) r)
    (premium : pick.tier = .premium) {persisted : Persisted} {written picks' : PickTable}
    {final requested granted : ℚ} {alert : Option PickOut}
    (landing : Landing deps.numeric picks keyed target pick now persisted written)
    (asked : requestedFraction final persisted = some requested) (nonneg : 0 ≤ granted)
    (finished : finalizeStake deps written target pick final granted persisted now = .ok
      (alert, picks')) :
    Posted picks target (dateOf now) granted picks' := by
  cases landing with
  | inserted absent =>
    have unreserved : (pick.newRow deps.numeric target pick.terms now
      picks.nextId).exposureReservedOn = none := rfl
    obtain ⟨row', finalized, rfl⟩ := @finalizeStake_ok _ _ _
      (picks.insertSlot keyed (target.key pick) absent pick.tier)
      (pick.newRow deps.numeric target pick.terms now picks.nextId) _ _ _ _ _ _ _ _ _ rfl rfl rfl
        finished
    obtain ⟨own, charge⟩ :=
      finalized_charge exact finalized premium nonneg (.inl ⟨Bool.false_ne_true, unreserved⟩)
    refine posted_insert keyed booked absent pick.tier own fun of _ day later => ?_
    rw [charge of day later, charged_unreserved unreserved, zero_add]
    rfl
  | upgraded old inside own premium' shadow live =>
    have idle : old.exposureReservedOn = none := by
      have held := booked old inside
      unfold PickRow.Booked at held
      rwa [shadow] at held
    have unreserved : (pick.promote deps.numeric pick.terms now old).exposureReservedOn = none :=
      idle
    obtain ⟨row', finalized, rfl⟩ :=
      @finalizeStake_ok _ _ _ (upgradeSlot picks keyed old inside)
      (pick.promote deps.numeric pick.terms now old) _ _ _ _ _ _ _ _ _ rfl rfl own.symm finished
    obtain ⟨own', charge⟩ :=
      finalized_charge exact finalized rfl nonneg (.inl ⟨Bool.false_ne_true, unreserved⟩)
    have event : old.instrument.eventId = target.eventId := congrArg (fun key => key.1.eventId) own
    refine posted_rewrite keyed booked inside (fun r held => booked_superseding held)
      (fun of _ day r => charged_superseding r) own' fun of _ day later => ?_
    rw [charge of day later, charged_unreserved unreserved, charged_unreserved idle, ← event]
    rfl
  | denied row inside own kept unstaked => cases asked
  | repriced old inside own staked premium' held live moved =>
    obtain ⟨row', finalized, rfl⟩ :=
      @finalizeStake_ok _ _ _ (repriceSlot picks keyed old inside)
      (pick.reprice deps.numeric old) _ _ _ _ _ _ _ _ _ rfl rfl own.symm finished
    obtain ⟨own', charge⟩ :=
      finalized_charge exact finalized held nonneg (.inr ⟨rfl, booked old inside⟩)
    have event : old.instrument.eventId = target.eventId := congrArg (fun key => key.1.eventId) own
    refine posted_rewrite keyed booked inside (fun r held => held) (fun of _ day r => rfl) own'
      fun of _ day later => ?_
    rw [charge of day later, ← event]
    rfl
  | held row inside own kept staked still => cases asked

omit [Unicode] in
/-- A grant that is given back leaves the totals as they were. -/
theorem charged_back {ledger charged : DailyExposureLedger} {day : Int} {eventId : Str}
    {requested granted : ℚ} (used : ∀ d, 0 ≤ ledger.used d)
    (eventUsed : ∀ d e, 0 ≤ ledger.eventUsed d e)
    (grants : ledger.reserve day requested (some eventId) = .ok (granted, charged)) :
    Charged ledger ⟨day, some eventId, 0⟩ (handBack charged day granted eventId) := by
  obtain ⟨taken, nonneg, -⟩ := charged_of_reserve grants
  have daily : granted ≤ charged.used day := by
    rw [taken.used, Charge.onDay, if_pos rfl]
    linarith [used day]
  have event : granted ≤ charged.eventUsed day eventId := by
    rw [taken.eventUsed, Charge.onEvent, if_pos ⟨rfl, rfl⟩]
    linarith [eventUsed day eventId]
  have given := charged_of_handBack nonneg daily event
  refine ⟨given.daily.symm.trans taken.daily, given.event.symm.trans taken.event, ?_, ?_⟩
  · intro d
    have total := given.used d
    rw [taken.used] at total
    simp only [Charge.onDay, ite_self, add_zero] at total ⊢
    linarith
  · intro d e
    have total := given.eventUsed d e
    rw [taken.eventUsed] at total
    simp only [Charge.onEvent, ite_self, add_zero] at total ⊢
    linarith

/-- An operation moves nothing, or the table and the ledger by one amount. -/
theorem persistAndReserve_posts (exact : deps.numeric = Numeric.exact) (keyed : picks.Keyed)
    (booked : ∀ r ∈ picks.rows, PickRow.Booked (dateOf now) r)
    (premium : pick.tier = .premium) {ledger : DailyExposureLedger}
    (used : ∀ d, 0 ≤ ledger.used d) (eventUsed : ∀ d e, 0 ≤ ledger.eventUsed d e)
    (found : Option Target) (breakdown : StakeBreakdown) (eventId : Str) (fault : Option Fault) :
    ((persistAndReserve deps picks ledger found pick breakdown eventId now fault).picks = picks ∧
      Charged ledger ⟨dateOf now, some eventId, 0⟩
        (persistAndReserve deps picks ledger found pick breakdown eventId now fault).ledger) ∨
    ∃ t granted, found = some t ∧ 0 ≤ granted ∧
      Posted picks t (dateOf now) granted
        (persistAndReserve deps picks ledger found pick breakdown eventId now fault).picks ∧
      Charged ledger ⟨dateOf now, some eventId, granted⟩
        (persistAndReserve deps picks ledger found pick breakdown eventId now fault).ledger := by
  have ran := persistAndReserve_ran deps picks ledger found pick breakdown eventId now fault
  generalize persistAndReserve deps picks ledger found pick breakdown eventId now fault =
    done at ran ⊢
  cases ran with
  | unconfigured off => exact .inl ⟨rfl, charged_zero _ _⟩
  | withheld => exact .inl ⟨rfl, charged_zero _ _⟩
  | duplicate known stored idle =>
    refine .inl ⟨?_, charged_zero _ _⟩
    cases persistPick_landing deps.numeric keyed stored with
    | inserted absent => cases idle
    | upgraded row inside own premium shadow live => cases idle
    | denied row inside own kept unstaked => rfl
    | repriced row inside own staked premium held live moved => cases idle
    | held row inside own kept staked still => rfl
  | handedBack asked grants => exact .inl ⟨rfl, charged_back used eventUsed grants⟩
  | committed known stored asked grants finished =>
    obtain ⟨taken, nonneg, -⟩ := charged_of_reserve grants
    exact .inr ⟨_, _, known, nonneg, posted_finalized exact keyed booked premium
      (persistPick_landing deps.numeric keyed stored) asked nonneg finished, taken⟩

/-- A shadow pick is inserted at most, and holds no charge. -/
theorem maybePersist_posts (keyed : picks.Keyed)
    (booked : ∀ r ∈ picks.rows, PickRow.Booked today r) (volume : pick.tier = .volume)
    (found : Option Target) (fault : Option Fault) :
    (maybePersist deps picks found pick now fault).2 = picks ∨
      ∃ t, Posted picks t today 0 (maybePersist deps picks found pick now fault).2 := by
  unfold maybePersist
  split
  · exact .inl rfl
  cases found with
  | none => exact .inl rfl
  | some t =>
    simp only
    split
    · exact .inl rfl
    cases stored : persistPick deps.numeric picks t pick now with
    | error e => exact .inl rfl
    | ok result =>
      obtain ⟨persisted, written⟩ := result
      cases persistPick_landing deps.numeric keyed stored with
      | inserted absent =>
        have tier : (pick.newRow deps.numeric t pick.terms now picks.nextId).tier = .volume :=
          volume
        refine .inr ⟨t, posted_insert keyed booked absent pick.tier ?_ fun of _ day later => ?_⟩
        · unfold PickRow.Booked
          rw [tier]
          rfl
        · rw [charged_volume tier, ite_self]
      | upgraded row inside own premium shadow live =>
        rw [volume] at premium
        cases premium
      | denied row inside own kept unstaked => exact .inl rfl
      | repriced row inside own staked premium held live moved =>
        rw [volume] at premium
        cases premium
      | held row inside own kept staked still => exact .inl rfl

end Persisting

/-! The invariant of a history. -/

/-- What each transaction keeps: the ledger and the table agree on every day from today on. -/
structure Books.Agree (daily : ℚ) (event : Option ℚ) (s : Books) : Prop where
  sound : Sound s.picks
  booked : ∀ r ∈ s.picks.rows, PickRow.Booked s.today r
  daily : s.ledger.maxDailyFraction = daily
  event : s.ledger.maxEventFraction = event
  used_nonneg : ∀ day, 0 ≤ s.ledger.used day
  eventUsed_nonneg : ∀ day e, 0 ≤ s.ledger.eventUsed day e
  used : ∀ day, s.today ≤ day → s.ledger.used day = chargedOn (fun _ => True) day s.picks

/-- A transaction charges one amount to a stored event in the table, and to a reference in the
ledger. -/
structure Books.Moved (s s' : Books) (eventId : Nat) (ref : Str) (amount : ℚ) : Prop where
  back : s.today ≤ s'.today
  booked : ∀ r ∈ s'.picks.rows, PickRow.Booked s'.today r
  nonneg : 0 ≤ amount
  charged : ∀ (of : Nat → Prop) [DecidablePred of] (day : Int), s'.today ≤ day →
    chargedOn of day s'.picks = chargedOn of day s.picks + if day = s'.today ∧ of eventId then
      amount else 0
  ledger : Charged s.ledger ⟨s'.today, some ref, amount⟩ s'.ledger

section History
variable [Unicode] {deps : PersistDeps} {daily : ℚ} {event : Option ℚ} {s s' : Books}

omit [Unicode] in
theorem moved_nothing
    (same : ∀ (of : Nat → Prop) [DecidablePred of] (day : Int), s'.today ≤ day →
      chargedOn of day s'.picks = chargedOn of day s.picks)
    (booked : ∀ r ∈ s'.picks.rows, PickRow.Booked s'.today r) (back : s.today ≤ s'.today)
    {ref : Str} (ledger : Charged s.ledger ⟨s'.today, some ref, 0⟩ s'.ledger) :
      s.Moved s' 0 ref 0 where
  back := back
  booked := booked
  nonneg := le_refl 0
  charged of _ day later := by rw [same of day later, ite_self, add_zero]
  ledger := ledger

theorem book_moves (exact : deps.numeric = Numeric.exact) (agree : s.Agree daily event)
    (booking : Booking) (inOrder : Booking.InOrder s booking) :
    ∃ eventId ref amount, s.Moved (book deps s booking) eventId ref amount ∧
      (amount = 0 ∨ ∀ externalRef, Booking.OwnRef externalRef booking →
        externalRef eventId = ref) := by
  cases booking with
  | reserve target pick breakdown ref now fault =>
    obtain ⟨premium, back⟩ := inOrder
    have booked : ∀ r ∈ s.picks.rows, PickRow.Booked (dateOf now) r :=
      fun r inside => Booked.later (agree.booked r inside) back
    obtain ⟨same, ledger⟩ | ⟨t, granted, known, nonneg, posted, ledger⟩ :=
      persistAndReserve_posts exact
      agree.sound.keyed booked premium agree.used_nonneg agree.eventUsed_nonneg target breakdown
        ref fault
    · refine ⟨0, ref, 0, moved_nothing (fun of _ day _ => ?_) ?_ back ledger, .inl rfl⟩
      · exact congrArg (chargedOn of day) same
      · intro r inside
        have old : r ∈ s.picks.rows := same ▸ inside
        exact booked r old
    · refine ⟨t.eventId, ref, granted, ⟨back, posted.booked, nonneg, posted.charged, ledger⟩,
        .inr ?_⟩
      intro externalRef own
      exact own t known
  | shadow target pick now fault =>
    have posts : (maybePersist deps s.picks target pick now fault).2 = s.picks ∨
        ∃ t, Posted s.picks t s.today 0 (maybePersist deps s.picks target pick now fault).2 :=
      maybePersist_posts agree.sound.keyed agree.booked inOrder target fault
    obtain same | ⟨t, posted⟩ := posts
    · have kept : book deps s (.shadow target pick now fault) = s :=
        congrArg (fun picks => { s with picks := picks }) same
      rw [kept]
      exact ⟨0, [], 0,
        moved_nothing (fun of _ day _ => rfl) agree.booked (le_refl _) (charged_zero _ _),
        .inl rfl⟩
    · exact ⟨t.eventId, [], 0,
        ⟨le_refl _, posted.booked, le_refl 0, posted.charged, charged_zero _ _⟩, .inl rfl⟩
  | settle id closing close =>
    refine ⟨0, [], 0, ?_, .inl rfl⟩
    apply moved_nothing
    · intro of _ day _
      exact chargedOn_map (charged_settleRow id closing close)
    · intro r inside
      obtain ⟨old, listed, rfl⟩ := List.mem_map.mp inside
      obtain same | closed := settleRow_cases id closing close old
      · rw [same]
        exact agree.booked old listed
      · rw [closed]
        exact agree.booked old listed
    · exact le_refl _
    · exact charged_zero _ _

theorem sound_book (sound : Sound s.picks) (booking : Booking) :
    Sound (book deps s booking).picks := by
  cases booking with
  | reserve target pick breakdown ref now fault =>
    exact sound_transact sound (.reserve deps s.ledger target pick breakdown ref now fault)
  | shadow target pick now fault => exact sound_transact sound (.shadow deps target pick now fault)
  | settle id closing close => exact sound_settle sound id closing close

theorem agree_book (exact : deps.numeric = Numeric.exact) (s : Books) (booking : Booking)
    (agree : s.Agree daily event) (inOrder : Booking.InOrder s booking) :
    (book deps s booking).Agree daily event := by
  obtain ⟨eventId, ref, amount, moved, -⟩ := book_moves exact agree booking inOrder
  refine ⟨sound_book agree.sound booking, moved.booked, moved.ledger.daily.trans agree.daily,
    moved.ledger.event.trans agree.event, ?_, ?_, ?_⟩
  · intro day
    rw [moved.ledger.used, Charge.onDay]
    have before := agree.used_nonneg day
    have nonneg := moved.nonneg
    split <;> linarith
  · intro day e
    rw [moved.ledger.eventUsed, Charge.onEvent]
    have before := agree.eventUsed_nonneg day e
    have nonneg := moved.nonneg
    split <;> linarith
  · intro day later
    rw [moved.ledger.used, moved.charged _ day later, agree.used day (moved.back.trans later),
      Charge.onDay]
    simp only [and_true]

end History

/-! What the seed restores. -/

section Restoring
variable {now today : Int} {externalRef : Nat → Str}

/-- No booked row is from before the charge was stored. -/
theorem todayPremium_iff {row : PickRow} (booked : PickRow.Booked today row) :
    PickRow.TodayPremium now row ↔ row.tier = .premium ∧ row.exposureReservedOn = some
      (dateOf now) := by
  constructor
  · rintro ⟨reserved | legacy, premium⟩
    · exact ⟨premium, reserved⟩
    · unfold PickRow.Booked at booked
      rw [premium] at booked
      obtain ⟨d, f, on, -⟩ := booked
      rw [legacy.1] at on
      cases on
  · rintro ⟨premium, reserved⟩
    exact ⟨.inl reserved, premium⟩

theorem exposureCharge_today {row : PickRow} (booked : PickRow.Booked today row)
    (seeded : PickRow.TodayPremium now row) :
    PickRow.exposureCharge now row = row.exposureReservedFraction.getD 0 ∧
    0 ≤ PickRow.exposureCharge now row := by
  obtain ⟨premium, reserved⟩ := (todayPremium_iff booked).mp seeded
  have charge : PickRow.exposureCharge now row = row.exposureReservedFraction.getD 0 :=
    if_pos reserved
  unfold PickRow.Booked at booked
  rw [premium] at booked
  obtain ⟨d, f, -, -, held, low⟩ := booked
  rw [charge, held]
  exact ⟨rfl, low⟩

theorem sum_exposureCharge (of : Nat → Prop) [DecidablePred of] {rows : List PickRow}
    (booked : ∀ r ∈ rows, PickRow.Booked today r) :
    (((rows.filter fun r => PickRow.TodayPremium now r).filter fun r => of r.instrument.eventId).map
      (PickRow.exposureCharge now)).sum = (rows.map (PickRow.charged of (dateOf now))).sum := by
  induction rows with
  | nil => rfl
  | cons row rows ih =>
    obtain ⟨first, rest⟩ := List.forall_mem_cons.mp booked
    rw [List.map_cons, List.sum_cons, ← ih rest, List.filter_cons, PickRow.charged]
    by_cases seeded : PickRow.TodayPremium now row
    · obtain ⟨premium, reserved⟩ := (todayPremium_iff first).mp seeded
      rw [if_pos (by simpa using seeded), List.filter_cons]
      by_cases event : of row.instrument.eventId
      · rw [if_pos (by simpa using event), if_pos ⟨event, premium, reserved⟩, List.map_cons,
          List.sum_cons, (exposureCharge_today first seeded).1]
      · rw [if_neg (by simpa using event), if_neg fun held => event held.1, zero_add]
    · have other : ¬ (of row.instrument.eventId ∧ row.tier = .premium ∧
          row.exposureReservedOn = some (dateOf now)) :=
        fun held => seeded ((todayPremium_iff first).mpr held.2)
      rw [if_neg (by simpa using seeded), if_neg other, zero_add]

theorem getD_foldl_add {α : Type} (charge : α → ℚ) (l : List α) (v : Option ℚ) :
    (l.foldl (fun v x => some (v.getD 0 + charge x)) v).getD 0 = v.getD 0 + (l.map charge).sum := by
  induction l generalizing v with
  | nil => simp
  | cons x l ih =>
    rw [List.foldl_cons, ih, List.map_cons, List.sum_cons, Option.getD_some, add_assoc]

theorem get?_exposureByEvent (rows : List PickRow) (ref : Str) :
    ((exposureByEvent now externalRef rows).get? ref).getD 0 =
      ((rows.filter fun r =>
        externalRef r.instrument.eventId = ref).map (PickRow.exposureCharge now)).sum := by
  unfold exposureByEvent
  rw [Dict.get?_foldl_modify (fun row : PickRow => externalRef row.instrument.eventId)
    (fun sum row => sum.getD 0 + PickRow.exposureCharge now row), getD_foldl_add]
  simp

theorem preloadEvents_ok {sums : List (Str × ℚ)} (nodup : (sums.map Prod.fst).Nodup)
    (nonneg : ∀ e ∈ sums, 0 ≤ e.2) (ledger : DailyExposureLedger) (day : Int) :
    ∃ l', sums.foldlM (fun ledger event => ledger.preloadEvent day event.1 event.2) ledger =
      .ok l' ∧ (∀ d, l'.used d = ledger.used d) ∧
      ∀ ref, l'.eventUsed day ref = (Dict.find sums ref).getD (ledger.eventUsed day ref) := by
  induction sums generalizing ledger with
  | nil => exact ⟨ledger, rfl, fun _ => rfl, fun _ => rfl⟩
  | cons e sums ih =>
    obtain ⟨fresh, tail⟩ := List.nodup_cons.mp nodup
    obtain ⟨low, rest⟩ := List.forall_mem_cons.mp nonneg
    have first : ledger.preloadEvent day e.1 e.2 =
        .ok { ledger with usedByEvent := ledger.usedByEvent.set (day, e.1) e.2 } :=
          if_neg (not_lt.mpr low)
    obtain ⟨l', done, used, eventUsed⟩ :=
      ih tail rest { ledger with usedByEvent := ledger.usedByEvent.set (day, e.1) e.2 }
    refine ⟨l', ?_, used, fun ref => ?_⟩
    · rw [List.foldlM_cons, first]
      exact done
    · rw [eventUsed ref, DailyExposureLedger.eventUsed_preloaded, Dict.find]
      by_cases own : e.1 = ref
      · have last : Dict.find sums ref = none := by
          cases found : Dict.find sums ref with
          | none => rfl
          | some v =>
            have inside := (Dict.find_eq_some_iff tail).mp found
            exact absurd (own ▸ List.mem_map_of_mem inside) fresh
        rw [if_pos own, if_pos ⟨rfl, own.symm⟩, last]
        rfl
      · rw [if_neg own, if_neg fun same => own same.2.symm]

/-- The seed finds what the table is charged with on its day, by event where the events have a cap.
-/
theorem seed_charged {picks : PickTable} (booked : ∀ r ∈ picks.rows, PickRow.Booked today r)
    (daily : ℚ) (event : Option ℚ) :
    ∃ seeded, seedExposureLedger now
      { maxDailyFraction := daily, maxEventFraction := event } picks externalRef = .ok seeded ∧
      seeded.used (dateOf now) = chargedOn (fun _ => True) (dateOf now) picks ∧
      ∀ ref, seeded.eventUsed (dateOf now) ref =
        if event.isSome then chargedOn (fun e => externalRef e = ref) (dateOf now) picks
          else 0 := by
  have charges : ∀ r ∈ todayPremium now picks, 0 ≤ PickRow.exposureCharge now r := by
    intro r inside
    obtain ⟨listed, seeded⟩ := List.mem_filter.mp inside
    exact (exposureCharge_today (booked r listed) (by simpa using seeded)).2
  have low : 0 ≤ ((todayPremium now picks).map (PickRow.exposureCharge now)).sum := by
    apply List.sum_nonneg
    intro q listed
    obtain ⟨r, inside, rfl⟩ := List.mem_map.mp listed
    exact charges r inside
  have total : ((todayPremium now picks).map (PickRow.exposureCharge now)).sum =
      chargedOn (fun _ => True) (dateOf now) picks := by
    have whole := @sum_exposureCharge now _ (fun _ => True) _ _ booked
    rwa [List.filter_eq_self.mpr fun r _ => by simp] at whole
  have byEvent (ref : Str) :
      ((exposureByEvent now externalRef (todayPremium now picks)).get? ref).getD 0 =
      chargedOn (fun e => externalRef e = ref) (dateOf now) picks := by
    rw [get?_exposureByEvent]
    exact sum_exposureCharge (fun e => externalRef e = ref) booked
  have sums : ∀ e ∈ (exposureByEvent now externalRef (todayPremium now picks)).entries,
      0 ≤ e.2 := by
    rintro ⟨ref, amount⟩ listed
    have sum := @get?_exposureByEvent now externalRef (todayPremium now picks) ref
    rw [Dict.get?_eq_some_iff.mpr listed, Option.getD_some] at sum
    rw [sum]
    apply List.sum_nonneg
    intro q inside
    obtain ⟨r, member, rfl⟩ := List.mem_map.mp inside
    exact charges r (List.mem_of_mem_filter member)
  simp only [seedExposureLedger]
  generalize ((todayPremium now picks).map (PickRow.exposureCharge now)).sum =
    amount at low total ⊢
  have first (ledger : DailyExposureLedger) : ledger.preload (dateOf now) amount =
      .ok { ledger with usedByDay := ledger.usedByDay.set (dateOf now) amount } :=
        if_neg (not_lt.mpr low)
  have onDay : DailyExposureLedger.used
      { maxDailyFraction := daily
        maxEventFraction := event
        usedByDay := Dict.empty.set (dateOf now) amount } (dateOf now) = amount := by
    simp [DailyExposureLedger.used]
  simp only [first, bind, Except.bind]
  cases event with
  | none => exact ⟨_, rfl, onDay.trans total, fun ref => rfl⟩
  | some cap =>
    obtain ⟨seeded, done, used, eventUsed⟩ := preloadEvents_ok
      (exposureByEvent now externalRef (todayPremium now picks)).nodup sums
      { maxDailyFraction := daily
        maxEventFraction := some cap
        usedByDay := Dict.empty.set (dateOf now) amount } (dateOf now)
    refine ⟨seeded, done, ?_, fun ref => ?_⟩
    · rw [used, ← total]
      exact onDay
    · rw [eventUsed]
      exact byEvent ref

end Restoring

section
variable [Unicode] {deps : PersistDeps} (daily : ℚ) (event : Option ℚ) (today now : Int)
  (externalRef : Nat → Str) (bookings : List Booking)

omit [Unicode] in
theorem agree_opened : (opened daily event today).Agree daily event where
  sound := sound_empty
  booked r inside := by cases inside
  daily := rfl
  event := rfl
  used_nonneg _ := le_refl 0
  eventUsed_nonneg _ _ := le_refl 0
  used _ _ := rfl

/-- Where each pick is charged to the reference of its stored event, the totals by event agree as
well. -/
theorem eventUsed_run (exact : deps.numeric = Numeric.exact)
    (own : ∀ b ∈ bookings, Booking.OwnRef externalRef b)
    (inOrder : Transition.Along (book deps) Booking.InOrder (opened daily event today) bookings)
    (ref : Str) :
    ∀ day, (history deps daily event today bookings).today ≤ day →
      (history deps daily event today bookings).ledger.eventUsed day ref =
        chargedOn (fun e => externalRef e = ref) day
          (history deps daily event today bookings).picks := by
  have named : Transition.Along (book deps)
      (fun _ b => Booking.OwnRef externalRef b) (opened daily event today) bookings :=
    .of_forall fun b inside _ => own b inside
  refine (Transition.Along.invariant (I := fun s => s.Agree daily event ∧ ∀ day,
    s.today ≤ day →
    s.ledger.eventUsed day ref = chargedOn (fun e => externalRef e = ref) day s.picks) ?_ ?_
    (inOrder.and named)).2
  · rintro s booking ⟨agree, totals⟩ ⟨inOrder, own⟩
    obtain ⟨eventId, ref', amount, moved, hit⟩ := book_moves exact agree booking inOrder
    refine ⟨agree_book exact s booking agree inOrder, fun day later => ?_⟩
    rw [moved.ledger.eventUsed, moved.charged _ day later, totals day (moved.back.trans later),
      Charge.onEvent]
    obtain rfl | same := hit
    · simp only [ite_self]
    · simp only [same externalRef own, Option.some.injEq]
  · exact ⟨agree_opened daily event today, fun _ _ => rfl⟩

theorem seed_restores (exact : deps.numeric = Numeric.exact)
    (inOrder : Transition.Along (book deps) Booking.InOrder (opened daily event today) bookings)
    (later : (history deps daily event today bookings).today ≤ dateOf now) :
    ∃ seeded, (history deps daily event today bookings).reseeded externalRef now = .ok seeded ∧
      seeded.used (dateOf now) =
        (history deps daily event today bookings).ledger.used (dateOf now) ∧
      (event = none → ∀ ref, seeded.eventUsed (dateOf now) ref = 0) ∧
      (event.isSome → (∀ b ∈ bookings, Booking.OwnRef externalRef b) → ∀ ref,
        seeded.eventUsed (dateOf now) ref =
        (history deps daily event today bookings).ledger.eventUsed (dateOf now) ref) := by
  have agree : (history deps daily event today bookings).Agree daily event :=
    Transition.Along.invariant (agree_book exact) (agree_opened daily event today) inOrder
  have events := fun own => eventUsed_run daily event today externalRef bookings exact own inOrder
  generalize history deps daily event today bookings = s at agree later events ⊢
  unfold Books.reseeded
  rw [agree.daily, agree.event]
  obtain ⟨seeded, done, used, eventUsed⟩ := seed_charged agree.booked daily event
  refine ⟨seeded, done, ?_, ?_, ?_⟩
  · rw [used, agree.used _ later]
  · rintro rfl ref
    exact eventUsed ref
  · intro capped own ref
    rw [eventUsed, if_pos capped, events own ref _ later]

end

/-! Histories of one or two reservations. -/

def exactDeps : PersistDeps where
  numeric := .exact
  bankroll := 1000
  bankroll_pos := bankrollDeps.bankroll_pos

def breakdownOf (final : ℚ) : StakeBreakdown :=
  { rawKelly := 8 / 100, fractional := final, capped := false, final := final }

/-- The stored event 1 carries the reference `e1`, whatever reference a pick came under. -/
def storedRef (_ : Nat) : Str := "e1".toList

def reservation (pick : PickOut) (ref : Str) (final : ℚ) (day : Int) : Booking :=
  .reserve (some ⟨1, 1⟩) pick (breakdownOf final) ref (days day) none

def refOf (event : Nat) : Str := 'e' :: (toString event).toList

theorem percent_nonneg (percent : Nat) : 0 ≤ (percent : ℚ) / 100 :=
  div_nonneg percent.cast_nonneg (by norm_num)

def staked (percent : Nat) : PickOut := rowPick (percent / 100) (percent_nonneg percent)

def picked (event : Nat) (selection : String) (percent : Nat) (day : Int) : Booking :=
  .reserve (some ⟨event, 1⟩) { staked percent with selection := selection.toList }
    (breakdownOf (percent / 100)) (refOf event) (days day) none

/-- Two events on one day; on the next a volume pick, a settlement, and three reservations, of which
the daily cap grants the last in part. -/
def twoDays : List Booking :=
  [picked 1 "Arsenal" 2 0, picked 2 "Leeds" 3 0,
    .shadow (some ⟨3, 1⟩) { staked 1 with tier := .volume } (days 1) none,
      .settle 1 .superseded {},
    picked 1 "Draw" 3 1, picked 2 "Draw" 1 1, picked 3 "Everton" 2 1]

def afterTwoDays : Books := @history Unicode.ascii exactDeps (5 / 100) (some (4 / 100)) 0 twoDays

theorem twoDays_inOrder :
    Transition.Along (@book Unicode.ascii exactDeps) Booking.InOrder
      (opened (5 / 100) (some (4 / 100)) 0) twoDays :=
  ⟨⟨rfl, by decide⟩, ⟨rfl, by decide⟩, rfl, trivial, ⟨rfl, by decide⟩,
    ⟨rfl, by decide⟩, ⟨rfl, by decide⟩, trivial⟩

theorem twoDays_restored :
    ∃ seeded, afterTwoDays.reseeded refOf (days 1) = .ok seeded ∧
      seeded.used 1 = afterTwoDays.ledger.used 1 ∧
      ∀ ref, seeded.eventUsed 1 ref = afterTwoDays.ledger.eventUsed 1 ref := by
  obtain ⟨seeded, done, daily, -, events⟩ := @seed_restores Unicode.ascii exactDeps (5 / 100)
    (some (4 / 100)) 0 (days 1) refOf twoDays rfl twoDays_inOrder (by decide)
  refine ⟨seeded, done, daily, events rfl fun b inside => ?_⟩
  simp only [twoDays, List.mem_cons, List.not_mem_nil, or_false] at inside
  obtain rfl | rfl | rfl | rfl | rfl | rfl | rfl := inside
  all_goals first | trivial | (intro t known; cases known; rfl)

/-- The day's total is at its cap. -/
example : afterTwoDays.ledger.used 1 = 5 / 100 ∧
    afterTwoDays.ledger.eventUsed 1 "e1".toList = 3 / 100 ∧
    afterTwoDays.ledger.eventUsed 1 "e3".toList = 1 / 100 := by decide +kernel

/-- Without a cap per event no total of an event is seeded; under another reference than the stored
one, a total is seeded under the stored one only; a charge that an earlier day overwrites and a
charge of a volume pick are not seeded. -/
theorem seed_restores_fails :
    (¬ (@history Unicode.ascii exactDeps (5 / 100) none 0
        [reservation (rowPick (2 / 100) (by norm_num)) "e1".toList (2 / 100) 0]).Restores storedRef
        (days 0) "e1".toList) ∧
    (¬ (@history Unicode.ascii exactDeps (5 / 100) (some (4 / 100)) 0
        [reservation (rowPick (2 / 100) (by norm_num)) "e2".toList (2 / 100) 0]).Restores storedRef
        (days 0) "e2".toList) ∧
    (¬ (@history Unicode.ascii exactDeps (5 / 100) (some (4 / 100)) 0
        [reservation (rowPick (2 / 100) (by norm_num)) "e1".toList (2 / 100) 1,
          reservation { rowPick (3 / 100) (by norm_num) with bookmaker := "Pinnacle".toList }
            "e1".toList (3 / 100) 0]).Restores
        storedRef (days 1) "e1".toList) ∧
    ¬ (@history Unicode.ascii exactDeps (5 / 100) (some (4 / 100)) 0
        [reservation { rowPick (2 / 100) (by norm_num) with tier := .volume } "e1".toList (2 / 100)
          0]).Restores
      storedRef (days 0) "e1".toList := by
  decide +kernel

end SharpEvPicks.Pipeline
