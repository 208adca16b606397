import SharpEvPicks.Pipeline.OnePremium
import SharpEvPicks.Python.Sorting

/-! The dispatch loop of `run_value_pipeline`: the alert that a premium candidate hands to the
dispatcher, against its row in the table at that moment. What a sink does with an alert
changes neither the table nor the ledger. -/
namespace SharpEvPicks.Pipeline

open Python Risk Settlement Storage

/-- A premium candidate of a cycle, with the rows that its event and version resolve to and
what befalls its transaction. -/
structure Candidate where
  target : Option Target
  pick : PickOut
  breakdown : StakeBreakdown
  eventId : Str
  fault : Option Fault := none
  premium : pick.tier = .premium

/-- A candidate of the volume tier, persisted where it is evaluated. -/
structure Shadow where
  target : Option Target
  pick : PickOut
  fault : Option Fault := none
  volume : pick.tier = .volume

/-- What `build_pick_alert` renders. -/
structure Alert where
  pick : PickOut
  correlationWarning : Bool
  repriced : Bool

/-- An alert in the hands of the dispatcher, the key of its pick and the table at that time. -/
structure Dispatched where
  alert : Alert
  key : Option (Instrument × Nat)
  picks : PickTable

structure PickCycle where
  ledger : DailyExposureLedger
  now : Int
  shadows : List Shadow
  candidates : List Candidate

section
variable [Unicode] (deps : PersistDeps)

def persistCandidate (now : Int) (s : PickTable × DailyExposureLedger) (c : Candidate) :
    Persistence :=
  persistAndReserve deps s.1 s.2 c.target c.pick c.breakdown c.eventId now c.fault

def passOne (now : Int) (s : PickTable × DailyExposureLedger) (c : Candidate) :
    PickTable × DailyExposureLedger :=
  ((persistCandidate deps now s c).picks, (persistCandidate deps now s c).ledger)

/-- The alert of one pass, if it gets to the dispatcher. -/
def alertOne (now : Int) (s : PickTable × DailyExposureLedger) (c : Candidate) :
    Option Dispatched :=
  let r := persistCandidate deps now s c
  if r.outcome = .unpersisted ∧ deps.configured then none
  else r.staked.map fun pick =>
    { alert :=
        { pick := pick
          correlationWarning := 0 < s.2.eventUsed (dateOf now) c.eventId
          repriced := r.outcome = .repriced }
      key := c.target.map fun t => t.key c.pick
      picks := r.picks }

def dispatchLoop (now : Int) (s : PickTable × DailyExposureLedger) :
    List Candidate → List Dispatched
  | [] => []
  | c :: rest => (alertOne deps now s c).toList ++ dispatchLoop now (passOne deps now s c) rest

def persistShadow (now : Int) (picks : PickTable) (c : Shadow) : PickTable :=
  (maybePersist deps picks c.target c.pick now c.fault).2

def PickCycle.opening (cycle : PickCycle) (picks : PickTable) : PickTable :=
  Transition.run (persistShadow deps cycle.now) picks cycle.shadows

/-- The candidates fund by full Kelly fraction, the highest first. -/
def PickCycle.ranked (cycle : PickCycle) : List Candidate :=
  sortedBy (fun c => OrderDual.toDual c.breakdown.rawKelly) cycle.candidates

inductive Happening where
  | cycle (c : PickCycle)
  | close (id : Nat) (closing : Closing) (close : CloseColumns)

def happen (picks : PickTable) : Happening → PickTable
  | .cycle c => (Transition.run (passOne deps c.now) (c.opening deps picks, c.ledger) c.ranked).1
  | .close id closing close => transact picks (.settle id closing close)

def alertsOf (picks : PickTable) : Happening → List Dispatched
  | .cycle c => dispatchLoop deps c.now (c.opening deps picks, c.ledger) c.ranked
  | .close _ _ _ => []

end

/-! An alert and its row. -/

section
variable (numeric : Numeric)

/-- The row is open and premium, and its columns hold the price, the venue and the stake. -/
def QuotedBy (pick : PickOut) (row : PickRow) : Prop :=
  row.status = .alerted ∧ row.tier = .premium ∧ row.detection.bookmaker = pick.bookmaker ∧
    row.detection.decimalOdds = numeric.odds pick.decimalOdds ∧
    row.detection.recommendedStakeFraction = numeric.prob pick.recommendedStakeFraction

instance decidableQuotedBy (pick : PickOut) (row : PickRow) :
    Decidable (QuotedBy numeric pick row) :=
  inferInstanceAs (Decidable (_ ∧ _ ∧ _ ∧ _ ∧ _))

def Quotes (d : Dispatched) : Prop :=
  ∃ row ∈ d.picks.rows, some row.key = d.key ∧ QuotedBy numeric d.alert.pick row

instance decidableQuotes (d : Dispatched) : Decidable (Quotes numeric d) :=
  inferInstanceAs (Decidable (∃ row ∈ d.picks.rows,
    some row.key = d.key ∧ QuotedBy numeric d.alert.pick row))

/-- A row with a stake that is there for a premium pick is open; if it is premium at the
pick's own price and venue, its stake is the pick's. -/
def Current (picks : PickTable) (target : Option Target) (pick : PickOut) : Prop :=
  ∀ t, target = some t → ∀ row, picks.find (t.key pick) = some row →
    0 < row.detection.recommendedStakeFraction → row.status = .alerted ∧
      (row.tier = .premium → row.detection.decimalOdds = pick.decimalOdds →
        row.detection.bookmaker = pick.bookmaker →
        row.detection.recommendedStakeFraction = numeric.prob pick.recommendedStakeFraction)

/-- The odds of a row are a value that their column can hold. -/
def OddsStored (picks : PickTable) : Prop :=
  ∀ r ∈ picks.rows, numeric.odds r.detection.decimalOdds = r.detection.decimalOdds

end

section
variable [Unicode] {deps : PersistDeps} {picks : PickTable}

omit [Unicode] in
theorem mem_fill {id : Nat} {key : Instrument × Nat} (slot : Slot id key) {row : PickRow}
    (ids : row.id = id) (keys : row.key = key) : row ∈ (slot.fill row).rows :=
  (PickTable.find_some (slot.find_fill row ids keys)).1

theorem quotedBy_of_finalized {row row' : PickRow} {pick p : PickOut} {final granted : ℚ}
    {persisted : Persisted} {now : Int}
    (finalized : Finalized deps row pick final granted persisted now (some p) row')
    (status : row.status = .alerted) (tier : row.tier = .premium)
    (bookmaker : row.detection.bookmaker = pick.bookmaker)
    (odds : row.detection.decimalOdds = deps.numeric.odds pick.decimalOdds) :
    QuotedBy deps.numeric p row' := by
  cases finalized with
  | staked _ increment basis granted_ chosen added next =>
    have same := stakedPick_same chosen
    obtain ⟨-, -, kept⟩ := restaked_frame deps.numeric p row
      { exposureReservedOn := some (dateOf now)
        exposureReservedDelta := granted
        settlementBasisIncrementAmount := increment } basis
    refine ⟨kept.trans status, tier, ?_, ?_, rfl⟩
    · exact bookmaker.trans same.bookmaker.symm
    · rw [same.decimalOdds]
      exact odds

omit [Unicode] in
theorem quotedBy_iff_of_held {pick : PickOut} {row : PickRow}
    (stored : OddsStored deps.numeric picks) (inside : row ∈ picks.rows)
    (premium : pick.tier = .premium)
    (kept : ¬ (pick.tier = .premium ∧ row.tier = .volume ∧ row.status = .alerted))
    (still : ¬ (pick.tier = .premium ∧ row.tier = .premium ∧ row.status = .alerted ∧
      (row.detection.decimalOdds ≠ pick.decimalOdds ∨
        row.detection.bookmaker ≠ pick.bookmaker))) :
    QuotedBy deps.numeric pick row ↔ row.status = .alerted ∧
      (row.tier = .premium → row.detection.decimalOdds = pick.decimalOdds →
        row.detection.bookmaker = pick.bookmaker →
        row.detection.recommendedStakeFraction =
          deps.numeric.prob pick.recommendedStakeFraction) := by
  constructor
  · rintro ⟨live, -, -, -, stake⟩
    exact ⟨live, fun _ _ _ => stake⟩
  · rintro ⟨live, stake⟩
    have actionable : row.tier = .premium := by
      cases tier : row.tier with
      | premium => rfl
      | volume => exact absurd ⟨premium, tier, live⟩ kept
    have price : row.detection.decimalOdds = pick.decimalOdds ∧
        row.detection.bookmaker = pick.bookmaker := by
      by_contra moved
      rw [not_and_or] at moved
      exact still ⟨premium, actionable, live, moved⟩
    refine ⟨live, actionable, price.2, ?_, stake actionable price.1 price.2⟩
    rw [← price.1, stored row inside]

theorem quoted_of_finalized (keyed : picks.Keyed) {target : Target} {pick p : PickOut} {now : Int}
    {persisted : Persisted} {written table : PickTable} {final requested granted : ℚ}
    (landing : Landing deps.numeric picks keyed target pick now persisted written)
    (asked : requestedFraction final persisted = some requested) (premium : pick.tier = .premium)
    (finished : finalizeStake deps written target pick final granted persisted now = .ok
      (some p, table)) :
    ∃ row ∈ table.rows, row.key = target.key pick ∧ QuotedBy deps.numeric p row := by
  cases landing with
  | denied row inside own kept unstaked => cases asked
  | held row inside own kept staked still => cases asked
  | inserted absent =>
    have ids : (pick.newRow deps.numeric target pick.terms now picks.nextId).id = picks.nextId :=
      rfl
    have keys : (pick.newRow deps.numeric target pick.terms now picks.nextId).key =
      target.key pick := rfl
    obtain ⟨row', finalized, rfl⟩ := finalizeStake_ok
      (picks.insertSlot keyed (target.key pick) absent pick.tier) ids keys rfl finished
    obtain ⟨ids', keys', -⟩ := finalized_frame finalized
    exact ⟨row', mem_fill _ ids' keys', keys',
      quotedBy_of_finalized finalized rfl premium rfl rfl⟩
  | upgraded row inside own premium' shadow live =>
    have ids : (pick.promote deps.numeric pick.terms now row).id = row.id := rfl
    have keys : (pick.promote deps.numeric pick.terms now row).key = row.key := rfl
    obtain ⟨row', finalized, rfl⟩ :=
      finalizeStake_ok (upgradeSlot picks keyed row inside) ids keys own.symm finished
    obtain ⟨ids', keys', -⟩ := finalized_frame finalized
    exact ⟨row', mem_fill _ ids' keys', keys'.trans own,
      quotedBy_of_finalized finalized live rfl rfl rfl⟩
  | repriced row inside own staked premium' held live moved =>
    have ids : (pick.reprice deps.numeric row).id = row.id := rfl
    have keys : (pick.reprice deps.numeric row).key = row.key := rfl
    obtain ⟨row', finalized, rfl⟩ :=
      finalizeStake_ok (repriceSlot picks keyed row inside) ids keys own.symm finished
    obtain ⟨ids', keys', -⟩ := finalized_frame finalized
    exact ⟨row', mem_fill _ ids' keys', keys'.trans own,
      quotedBy_of_finalized finalized live held rfl rfl⟩

/-- What asks for exposure is current: it is new, a shadow row, or at another price. -/
theorem current_of_landing (keyed : picks.Keyed) {target : Target} {pick : PickOut} {now : Int}
    {persisted : Persisted} {written : PickTable} {final requested : ℚ}
    (landing : Landing deps.numeric picks keyed target pick now persisted written)
    (asked : requestedFraction final persisted = some requested) :
    Current deps.numeric picks (some target) pick := by
  intro t same row there _
  cases same
  cases landing with
  | denied row inside own kept unstaked => cases asked
  | held row inside own kept staked still => cases asked
  | inserted absent =>
    rw [absent] at there
    cases there
  | upgraded own inside key premium shadow live =>
    rw [← key, keyed.find_mem inside] at there
    cases there
    refine ⟨live, fun actionable => ?_⟩
    rw [shadow] at actionable
    cases actionable
  | repriced own inside key staked premium held live moved =>
    rw [← key, keyed.find_mem inside] at there
    cases there
    refine ⟨live, fun _ odds bookmaker => ?_⟩
    rcases moved with odds' | bookmaker'
    · exact absurd odds odds'
    · exact absurd bookmaker bookmaker'

/-- The alert of a pass quotes its row just when the row was current. -/
theorem quotes_iff_current (keyed : picks.Keyed) (stored : OddsStored deps.numeric picks)
    (configured : deps.configured = true) {ledger : DailyExposureLedger} {c : Candidate} {now : Int}
    {d : Dispatched} (alerted : alertOne deps now (picks, ledger) c = some d) :
    Quotes deps.numeric d ↔ Current deps.numeric picks c.target c.pick := by
  have ran := persistAndReserve_ran deps picks ledger c.target c.pick c.breakdown c.eventId
    now c.fault
  unfold alertOne persistCandidate at alerted
  generalize persistAndReserve deps picks ledger c.target c.pick c.breakdown c.eventId now c.fault =
    r at ran alerted
  simp only [configured, and_true] at alerted
  cases ran with
  | unconfigured off =>
    rw [configured] at off
    cases off
  | withheld => cases alerted
  | handedBack asked grants => cases alerted
  | duplicate known found idle =>
    have landing := persistPick_landing deps.numeric keyed found
    cases landing with
    | inserted absent => cases idle
    | upgraded row inside own premium shadow live => cases idle
    | repriced row inside own staked premium held live moved => cases idle
    | denied row inside own kept unstaked => cases alerted
    | held row inside own kept staked still =>
      cases alerted
      have there := keyed.find_mem inside
      rw [own] at there
      have same := quotedBy_iff_of_held stored inside c.premium kept still
      constructor
      · rintro ⟨row', inside', own', quoted⟩ t known' other found' _
        rw [known] at known' own'
        cases known'
        rw [keyed.keys row' inside' row inside ((Option.some.inj own').trans own.symm)] at quoted
        rw [there] at found'
        cases found'
        exact same.mp quoted
      · intro current
        refine ⟨row, inside, ?_, same.mpr (current _ known row there staked)⟩
        rw [known, own]
        rfl
  | committed known found asked grants finished =>
    have landing := persistPick_landing deps.numeric keyed found
    split at alerted
    · cases alerted
    obtain ⟨p, rfl, rfl⟩ := Option.map_eq_some_iff.mp alerted
    obtain ⟨row, inside, own, quoted⟩ :=
      quoted_of_finalized keyed landing asked c.premium finished
    rw [known]
    refine iff_of_true ⟨row, inside, ?_, quoted⟩ (current_of_landing keyed landing asked)
    rw [own]
    rfl

/-! The run. -/

omit [Unicode] in
theorem oddsStored_rewriteSlot {keyed : picks.Keyed} {numeric : Numeric}
    (stored : OddsStored numeric picks) {old row : PickRow} {inside : old ∈ picks.rows}
    {f : PickRow → PickRow} {ids : ∀ r, (f r).id = r.id} {keys : ∀ r, (f r).key = r.key}
    (detection : ∀ r, (f r).detection = r.detection)
    (new : numeric.odds row.detection.decimalOdds = row.detection.decimalOdds) :
    OddsStored numeric ((picks.rewriteSlot keyed old inside f ids keys).fill row) := by
  intro r listed
  obtain ⟨o, member, rfl⟩ := List.mem_map.mp listed
  split
  · exact new
  · rw [detection]
    exact stored o member

omit [Unicode] in
theorem oddsStored_write {keyed : picks.Keyed} {numeric : Numeric} {target : Target}
    {pick : PickOut} {picks' : PickTable} (write : Write numeric picks keyed target pick picks')
    (stored : OddsStored numeric picks) : OddsStored numeric picks' := by
  have idempotent (row : PickRow)
      (odds : row.detection.decimalOdds = numeric.odds pick.decimalOdds) :
      numeric.odds row.detection.decimalOdds = row.detection.decimalOdds := by
    rw [odds]
    exact numeric.store_store 4 pick.decimalOdds
  cases write with
  | untouched => exact stored
  | inserted absent row ids keys live odds tier =>
    intro r inside
    rcases List.mem_append.mp inside with old | new
    · obtain ⟨o, listed, rfl⟩ := List.mem_map.mp old
      rw [superseding_detection]
      exact stored o listed
    · rw [List.mem_singleton.mp new]
      exact idempotent row odds
  | upgraded old inside own premium shadow row ids keys live odds =>
    exact oddsStored_rewriteSlot stored (fun _ => superseding_detection) (idempotent row odds)
  | repriced old inside own premium held open_ row ids keys live odds tier =>
    exact oddsStored_rewriteSlot stored (fun _ => rfl) (idempotent row odds)

structure Consistent (numeric : Numeric) (picks : PickTable) : Prop where
  sound : Sound picks
  stored : OddsStored numeric picks

theorem consistent_passOne (now : Int) {s : PickTable × DailyExposureLedger}
    (consistent : Consistent deps.numeric s.1) (c : Candidate) :
    Consistent deps.numeric (passOne deps now s c).1 := by
  have written : (passOne deps now s c).1 = s.1 ∨ ∃ t, c.target = some t ∧
      Write deps.numeric s.1 consistent.sound.keyed t c.pick (passOne deps now s c).1 :=
    persistAndReserve_writes consistent.sound.keyed
  rcases written with same | ⟨t, -, write⟩
  · rw [same]
    exact consistent
  · exact ⟨consistent.sound.write write, oddsStored_write write consistent.stored⟩

theorem consistent_persistShadow (now : Int) (consistent : Consistent deps.numeric picks)
    (c : Shadow) : Consistent deps.numeric (persistShadow deps now picks c) := by
  have written : persistShadow deps now picks c = picks ∨ ∃ t, c.target = some t ∧
      Write deps.numeric picks consistent.sound.keyed t c.pick (persistShadow deps now picks c) :=
    maybePersist_writes consistent.sound.keyed
  rcases written with same | ⟨t, -, write⟩
  · rw [same]
    exact consistent
  · exact ⟨consistent.sound.write write, oddsStored_write write consistent.stored⟩

theorem consistent_opening (cycle : PickCycle) (consistent : Consistent deps.numeric picks) :
    Consistent deps.numeric (cycle.opening deps picks) :=
  Transition.invariant (fun _ c held => consistent_persistShadow cycle.now held c) consistent

theorem consistent_happen (consistent : Consistent deps.numeric picks) (h : Happening) :
    Consistent deps.numeric (happen deps picks h) := by
  cases h with
  | cycle c =>
    have opened : Consistent deps.numeric (c.opening deps picks, c.ledger).1 :=
      consistent_opening c consistent
    exact @Transition.invariant _ _ (passOne deps c.now) (fun s => Consistent deps.numeric s.1) _ _
      (fun s candidate held => consistent_passOne c.now held candidate) opened
  | close id closing close =>
    refine ⟨sound_settle consistent.sound id closing close, ?_⟩
    intro r inside
    obtain ⟨o, listed, rfl⟩ := List.mem_map.mp inside
    rcases settleRow_cases id closing close o with same | moved
    · rw [same]
      exact consistent.stored o listed
    · rw [moved]
      exact consistent.stored o listed

/-- Every candidate of a cycle is current when its turn comes. -/
def CurrentIn (deps : PersistDeps) (picks : PickTable) : Happening → Prop
  | .cycle c =>
    Transition.Along (passOne deps c.now) (fun s candidate =>
      Current deps.numeric s.1 candidate.target candidate.pick)
      (c.opening deps picks, c.ledger) c.ranked
  | .close _ _ _ => True

theorem dispatchLoop_quotes (configured : deps.configured = true) (now : Int)
    {s : PickTable × DailyExposureLedger} (consistent : Consistent deps.numeric s.1)
    {candidates : List Candidate}
    (current : Transition.Along (passOne deps now)
      (fun s candidate => Current deps.numeric s.1 candidate.target candidate.pick) s candidates) :
    ∀ d ∈ dispatchLoop deps now s candidates, Quotes deps.numeric d := by
  induction candidates generalizing s with
  | nil =>
    intro d inside
    cases inside
  | cons c rest ih =>
    intro d inside
    rcases List.mem_append.mp inside with first | later
    · exact (quotes_iff_current consistent.sound.keyed consistent.stored configured
        (Option.mem_toList.mp first)).mpr current.1
    · exact ih (consistent_passOne now consistent c) current.2 d later

/-- In a run whose candidates are all current, every alert quotes its row. -/
theorem alerts_quote (configured : deps.configured = true) {happenings : List Happening}
    (current : Transition.Along (happen deps) (CurrentIn deps) emptyPicks happenings) :
    Transition.Along (happen deps)
      (fun picks h => ∀ d ∈ alertsOf deps picks h, Quotes deps.numeric d)
      emptyPicks happenings := by
  have base : Consistent deps.numeric emptyPicks := by
    refine ⟨sound_empty, ?_⟩
    intro r inside
    cases inside
  refine @Transition.Along.imp _ _ (happen deps) _ _ (Consistent deps.numeric) _ _
    (fun picks h consistent _ => consistent_happen consistent h) ?_ base current
  intro picks h consistent now
  cases h with
  | cycle c =>
    exact dispatchLoop_quotes configured c.now (consistent_opening c consistent) now
  | close id closing close =>
    intro d inside
    cases inside

end

/-! A run in which the cap clips the first alert and a later cycle repeats the pick. -/

def rowPick (fraction : ℚ) (nonneg : 0 ≤ fraction) : PickOut where
  market := .h2h
  selection := "Arsenal".toList
  bookmaker := "Bet365".toList
  decimalOdds := 21 / 10
  modelProbability := 1 / 2
  fairProbability := 10 / 21
  edge := 5 / 100
  ev := 5 / 100
  confidence := 1 / 2
  recommendedStakeFraction := fraction
  recommendedStakeAmount := quantizeHalfUp 2 (fraction * 1000)
  stakeBreakdown := { rawKelly := 8 / 100, fractional := fraction, capped := false,
                      final := fraction }
  reasonSummary := []
  odds_gt := by norm_num
  fraction_nonneg := nonneg
  amount_nonneg := quantizeHalfUp_nonneg (by positivity)

def bankrollDeps : PersistDeps where
  numeric := .postgres
  bankroll := 1000
  bankroll_pos := by norm_num

def arsenalCandidate : Candidate where
  target := some ⟨1, 1⟩
  pick := rowPick (2 / 100) (by norm_num)
  breakdown := { rawKelly := 8 / 100, fractional := 2 / 100, capped := false, final := 2 / 100 }
  eventId := "e1".toList
  premium := rfl

def arsenalCycle (day : Int) : PickCycle where
  ledger :=
    { maxDailyFraction := 5 / 100
      usedByDay := ⟨[(day, 4 / 100)], by simp⟩ }
  now := days day
  shadows := []
  candidates := [arsenalCandidate]

theorem arsenalCycle_alerted :
    (@alertsOf Unicode.ascii bankrollDeps emptyPicks (.cycle (arsenalCycle 0))).length = 1 := by
  decide +kernel

theorem arsenalCycle_quotes :
    ∃ d ∈ @alertsOf Unicode.ascii bankrollDeps emptyPicks (.cycle (arsenalCycle 0)),
      Quotes bankrollDeps.numeric d := by
  have current : Transition.Along (@happen Unicode.ascii bankrollDeps)
      (@CurrentIn Unicode.ascii bankrollDeps) emptyPicks [.cycle (arsenalCycle 0)] := by
    refine ⟨⟨?_, trivial⟩, trivial⟩
    intro t _ row there
    cases there
  obtain ⟨d, inside⟩ := List.exists_mem_of_length_pos (arsenalCycle_alerted ▸ Nat.one_pos)
  exact ⟨d, inside, (@alerts_quote Unicode.ascii bankrollDeps rfl _ current).1 d inside⟩

/-- The second alert promises twice the stake that the row holds. -/
theorem alerts_quote_fails :
    ¬ ∀ d ∈ @alertsOf Unicode.ascii bankrollDeps
        (@happen Unicode.ascii bankrollDeps emptyPicks (.cycle (arsenalCycle 0)))
        (.cycle (arsenalCycle 1)),
      Quotes bankrollDeps.numeric d := by
  decide +kernel

end SharpEvPicks.Pipeline
