import SharpEvPicks.Settlement.InstrumentLocks
import SharpEvPicks.Settlement.SportFence

/-! Of two picks that stand for one real bet, at most one gets a result, however the transactions
that settle picks interleave. -/
namespace SharpEvPicks.Settlement

open Python Resolution Transition

/-- A pick without its status, which is all that settlement changes of it. -/
def Pick.bet (pick : Pick) : Pick := { pick with status := .pending }

namespace Store

def bets (store : Store) : List Pick := store.picks.map Pick.bet

/-- The same events and, statuses aside, the same picks. -/
structure Fits (s t : Store) : Prop where
  events : t.events = s.events
  bets : t.bets = s.bets

theorem Fits.refl (s : Store) : Fits s s := ⟨rfl, rfl⟩

theorem Fits.eventOf {s t : Store} (fits : Fits s t) (pick : Pick) :
    t.eventOf pick = s.eventOf pick := by
  rw [Store.eventOf, fits.events, Store.eventOf]

theorem Fits.mem {s t : Store} (fits : Fits s t) {pick : Pick} (inside : pick ∈ t.picks) :
    pick.bet ∈ s.bets := by
  rw [← fits.bets]
  exact List.mem_map_of_mem inside

theorem bets_setStatus (s : Store) (pickId : Nat) (status : PickStatus) :
    (s.setStatus pickId status).bets = s.bets := by
  simp only [bets, setStatus, List.map_map]
  refine List.map_congr_left fun p _ => ?_
  simp only [Function.comp_apply]
  split <;> rfl

theorem hasResult_insertResult (s : Store) (row : ResultTracking) (pickId : Nat) :
    (s.insertResult row).1.hasResult pickId ↔ s.hasResult pickId ∨ row.pickId = pickId := by
  unfold insertResult
  split
  · rename_i present
    refine ⟨.inl, fun has => has.elim id ?_⟩
    rintro rfl
    exact present
  · simp [hasResult]

end Store

namespace Write
open Store

theorem fits_apply {s t : Store} (write : Write) (fits : s.Fits t) : s.Fits (write.apply t) := by
  cases write with
  | result row =>
    simp only [apply, insertResult]
    split
    · exact fits
    · exact ⟨fits.events, fits.bets⟩
  | status pickId closed =>
    exact ⟨fits.events, (bets_setStatus t pickId closed).trans fits.bets⟩
  | finished eventId => exact ⟨fits.events, fits.bets⟩
  | grading graded => exact ⟨fits.events, fits.bets⟩

/-- The write enters a result of the pick. -/
def Adds : Write → Pick → Prop
  | .result row, pick => row.pickId = pick.id
  | _, _ => False

theorem hasResult_apply (s : Store) (write : Write) (pick : Pick) :
    (write.apply s).hasResult pick.id ↔ s.hasResult pick.id ∨ write.Adds pick := by
  cases write with
  | result row => exact hasResult_insertResult s row pick.id
  | status pickId closed => exact (iff_of_eq (or_false _)).symm
  | finished eventId => exact (iff_of_eq (or_false _)).symm
  | grading graded => exact (iff_of_eq (or_false _)).symm

end Write

section Bets
variable [Unicode]

/-- Two event rows of one fixture, as settlement tells. -/
structure EventRow.SameFixture (e f : EventRow) : Prop where
  sportId : e.sportId = f.sportId
  sportKey : e.sportKey = f.sportKey
  kickoffs : ∃ t t', e.startsAt = some t ∧ f.startsAt = some t' ∧
    |t - t'| ≤ dedupTolerance e.sportKey
  pair : ∃ p p', fixturePairKey e.homeName e.awayName = some p ∧
    fixturePairKey f.homeName f.awayName = some p' ∧ p.Same p'

/-- Two picks that stand for one real bet. -/
structure Store.Twins (store : Store) (p q : Pick) : Prop where
  apart : p.eventId ≠ q.eventId
  market : p.market = q.market
  marketDetail : p.marketDetail = q.marketDetail
  modelVersionId : p.modelVersionId = q.modelVersionId
  selection : selectionDedupKey p.selection = selectionDedupKey q.selection
  fixture : ∃ e f, store.eventOf p = some e ∧ store.eventOf q = some f ∧ e.SameFixture f

omit [Unicode] in
theorem samePair_symm {p q : PairKey} (same : p.Same q) : q.Same p := by
  obtain ⟨home, away⟩ | ⟨home, away⟩ := same
  · exact .inl ⟨home.symm, away.symm⟩
  · exact .inr ⟨away.symm, home.symm⟩

theorem EventRow.SameFixture.symm {e f : EventRow} (same : e.SameFixture f) : f.SameFixture e := by
  obtain ⟨t, t', starts, starts', near⟩ := same.kickoffs
  obtain ⟨p, p', pair, pair', alike⟩ := same.pair
  refine ⟨same.sportId.symm, same.sportKey.symm, ⟨t', t, starts', starts, ?_⟩,
    ⟨p', p, pair', pair, samePair_symm alike⟩⟩
  rw [← same.sportKey, abs_sub_comm]
  exact near

namespace Store

theorem Twins.symm {s : Store} {p q : Pick} (twins : s.Twins p q) : s.Twins q p := by
  obtain ⟨e, f, event, event', same⟩ := twins.fixture
  exact ⟨twins.apart.symm, twins.market.symm, twins.marketDetail.symm, twins.modelVersionId.symm,
    twins.selection.symm, ⟨f, e, event', event, same.symm⟩⟩

/-- Twins share the lock. -/
theorem lock_twins (hash : Instrument → Int) {e f : EventRow} {p q : Pick} {s : Store}
    (twins : s.Twins p q) (event : s.eventOf p = some e) (event' : s.eventOf q = some f) :
    ∃ key, Task.lock hash p e = some key ∧ Task.lock hash q f = some key := by
  obtain ⟨e', f', found, found', same⟩ := twins.fixture
  obtain rfl : e' = e := Option.some.inj (found.symm.trans event)
  obtain rfl : f' = f := Option.some.inj (found'.symm.trans event')
  obtain ⟨t, t', starts, starts', -⟩ := same.kickoffs
  obtain ⟨pair, pair', key, key', alike⟩ := same.pair
  have sorted : sortedBy id [pair.home, pair.away] = sortedBy id [pair'.home, pair'.away] := by
    obtain ⟨home, away⟩ | ⟨home, away⟩ := alike
    · rw [home, away]
    · rw [home, away]
      exact sortedBy_perm (List.Perm.swap _ _ _)
  have instruments : Task.instrument p e' pair = Task.instrument q f' pair' := by
    rw [Task.instrument, Task.instrument, same.sportId, sorted, twins.market, twins.marketDetail,
      twins.selection, twins.modelVersionId]
  refine ⟨.instrument (hash (Task.instrument p e' pair)), ?_, ?_⟩
  · simp only [Task.lock, key, starts, Option.bind_some, Option.map_some]
  · simp only [Task.lock, key', starts', Option.bind_some, Option.map_some, instruments]

/-- The lock of a pick's instrument; a pick without one shares its key with no other. -/
def resource (s : Store) (hash : Instrument → Int) (p : Pick) : Resource :=
  ((s.eventOf p).bind (Task.lock hash p)).getD (.result p.id)

/-- A task of a row that was read. -/
structure Known (s : Store) (task : Task) : Prop where
  pick : task.pick.bet ∈ s.bets
  event : s.eventOf task.pick = some task.event

/-- Twins that do not both have a result yet. -/
structure Rivals (s : Store) (p q : Pick) : Prop where
  left : p ∈ s.bets
  right : q ∈ s.bets
  twins : s.Twins p q
  open_ : ¬ (s.hasResult p.id ∧ s.hasResult q.id)

variable {s t : Store} {p q : Pick}

theorem Rivals.symm (rivals : s.Rivals p q) : s.Rivals q p :=
  ⟨rivals.right, rivals.left, rivals.twins.symm, fun both => rivals.open_ both.symm⟩

omit [Unicode] in
theorem bet_unique (unique : (s.picks.map Pick.id).Nodup) (inside : p ∈ s.bets)
    (inside' : q ∈ s.bets) (same : p.id = q.id) : p = q := by
  have ids : (s.bets.map Pick.id).Nodup := by
    rw [bets, List.map_map]
    exact unique
  exact List.inj_on_of_nodup_map ids inside inside' same

theorem lock_known (hash : Instrument → Int) (task : Task) (known : s.Known task)
    (rivals : s.Rivals task.pick.bet q) :
    (protocol hash).lock task = some (s.resource hash task.pick.bet) := by
  obtain ⟨e, f, event, event', -⟩ := rivals.twins.fixture
  obtain ⟨key, locked, -⟩ := lock_twins hash rivals.twins known.event event'
  have same : Task.lock hash task.pick.bet task.event = Task.lock hash task.pick task.event := rfl
  have found : s.eventOf task.pick.bet = some task.event := known.event
  rw [protocol_lock, resource, found, Option.bind_some, locked, Option.getD_some, ← same, locked]

theorem resource_rivals (hash : Instrument → Int) (rivals : s.Rivals p q) :
    s.resource hash p = s.resource hash q := by
  obtain ⟨e, f, event, event', -⟩ := rivals.twins.fixture
  obtain ⟨key, locked, locked'⟩ := lock_twins hash rivals.twins event event'
  rw [resource, resource, event, event', Option.bind_some, Option.bind_some, locked, locked',
    Option.getD_some, Option.getD_some]

/-- The check under the lock finds a settled twin. -/
theorem settledSibling_known (hash : Instrument → Int) (unique : (s.picks.map Pick.id).Nodup)
    (task : Task) (fits : s.Fits t) (known : s.Known task) (rivals : s.Rivals task.pick.bet q)
    (has : t.hasResult q.id) : (protocol hash).rival t task = true := by
  obtain ⟨e, f, event, event', same⟩ := rivals.twins.fixture
  obtain rfl : task.event = e := Option.some.inj (known.event.symm.trans event)
  obtain ⟨at_, at', starts, starts', near⟩ := same.kickoffs
  obtain ⟨pair, pair', key, key', alike⟩ := same.pair
  have listed : q ∈ t.bets := fits.bets ▸ rivals.right
  obtain ⟨sibling, inside, rfl⟩ := List.mem_map.mp listed
  have twins := rivals.twins
  have other : sibling.id ≠ task.pick.id := fun own =>
    twins.apart (congrArg Pick.eventId (bet_unique unique rivals.left rivals.right own.symm))
  have found : t.eventOf sibling = some f := (fits.eventOf sibling).trans event'
  have near' : |at' - at_| ≤ dedupTolerance task.event.sportKey := by
    rw [abs_sub_comm]
    exact near
  simp only [protocol_rival, Task.settledSibling, key, starts, Option.any_some]
  refine List.any_eq_true.mpr ⟨sibling, inside, ?_⟩
  simp only [found, Option.any_some, starts', key', Bool.and_eq_true, decide_eq_true_eq]
  exact ⟨⟨⟨⟨⟨⟨has, other⟩, twins.apart.symm⟩, twins.market.symm⟩,
    twins.marketDetail.symm⟩, twins.modelVersionId.symm⟩,
    ⟨⟨same.sportId.symm, near'⟩, twins.selection.symm⟩, samePair_symm alike⟩

/-! What a call reads. -/

omit [Unicode] in
theorem mem_joined {status : PickStatus} {pick : Pick} {event : EventRow} :
    (pick, event) ∈ t.joined status ↔
      (pick ∈ t.picks ∧ pick.status = status) ∧ t.eventOf pick = some event := by
  simp only [joined, List.mem_filterMap, List.mem_filter, decide_eq_true_eq, Option.map_eq_some_iff,
    Prod.mk.injEq]
  constructor
  · rintro ⟨p, inside, e, found, rfl, rfl⟩
    exact ⟨inside, found⟩
  · rintro ⟨inside, found⟩
    exact ⟨pick, inside, event, found, rfl, rfl⟩

omit [Unicode] in
theorem known_row (fits : s.Fits t) {pick : Pick} {event : EventRow} (inside : pick ∈ t.picks)
    (found : t.eventOf pick = some event) (closing : Closing) :
      s.Known ⟨pick, event, closing⟩ :=
  ⟨fits.mem inside, (fits.eventOf pick).symm.trans found⟩

omit [Unicode] in
theorem known_joined (fits : s.Fits t) {pick : Pick} {event : EventRow}
    (read : (pick, event) ∈ t.joined .alerted) (closing : Closing) :
      s.Known ⟨pick, event, closing⟩ :=
  known_row fits (mem_joined.mp read).1.1 (mem_joined.mp read).2 closing

omit [Unicode] in
theorem known_due (fits : s.Fits t) {now delay startsAt : Int} {pick : Pick} {event : EventRow}
    (read : (pick, event, startsAt) ∈ t.due now delay) (closing : Closing) :
    s.Known ⟨pick, event, closing⟩ := by
  obtain ⟨inside, -, found, -⟩ := mem_due.mp read
  exact known_row fits inside found closing

theorem known_candidate (fits : s.Fits t) {book : ScoreBook Str} {now delay : Int} {c : Candidate}
    (read : c ∈ t.candidates book now delay) (closing : Closing) :
      s.Known ⟨c.pick, c.event, closing⟩ := by
  obtain ⟨⟨pick, event, startsAt⟩, isDue, rfl⟩ := List.mem_map.mp read
  exact known_due fits isDue closing

theorem known_ofCall (fits : s.Fits t) (call : Call) {task : Task}
    (read : .inl task ∈ Task.ofCall t call) : s.Known task := by
  cases call with
  | settleOpenPicks book now delay =>
    simp only [Task.ofCall] at read
    split at read
    · cases read
    · obtain graded | deferred := List.mem_append.mp read
      · obtain ⟨c, chosen, same⟩ := List.mem_map.mp graded
        cases same
        exact known_candidate fits (List.mem_filter.mp chosen).1 _
      · cases List.mem_singleton.mp deferred
  | settleEventPicks eventId homeScore awayScore now =>
    obtain ⟨⟨pick, event⟩, chosen, same⟩ := List.mem_map.mp read
    cases same
    exact known_joined fits (List.mem_filter.mp chosen).1 _
  | voidStaleNullKickoffPicks now =>
    obtain ⟨⟨pick, event⟩, chosen, same⟩ := List.mem_map.mp read
    cases same
    exact known_joined fits (List.mem_filter.mp chosen).1 _
  | voidUnsettleableKnownKickoffPicks now =>
    obtain ⟨⟨pick, event, startsAt⟩, chosen, same⟩ := List.mem_map.mp read
    cases same
    obtain ⟨⟨pick', event'⟩, row, kept⟩ := List.mem_filterMap.mp chosen
    obtain ⟨t', -, kept⟩ := Option.bind_eq_some_iff.mp kept
    split at kept
    · cases kept
      exact known_joined fits row _
    · cases kept
  | reportAndExpireNoResultPicks book now expireAfter =>
    simp only [Task.ofCall] at read
    split at read
    · cases read
    · cases expireAfter with
      | none => cases read
      | some age =>
        obtain ⟨⟨pick, event, startsAt⟩, chosen, same⟩ := List.mem_map.mp read
        cases same
        exact known_due fits (List.mem_filter.mp chosen).1 _

theorem known_hinted (fits : s.Fits t) (call : Call) {deferred : List Candidate}
    (read : .inr deferred ∈ Task.ofCall t call) (t' : Store) {task : Task}
    (hinted : task ∈ Task.hinted t' deferred) : s.Known task := by
  obtain ⟨c, chosen, rfl⟩ := List.mem_map.mp hinted
  have inside := (List.mem_filter.mp chosen).1
  cases call with
  | settleOpenPicks book now delay =>
    simp only [Task.ofCall] at read
    split at read
    · cases read
    · obtain graded | last := List.mem_append.mp read
      · obtain ⟨c, -, same⟩ := List.mem_map.mp graded
        cases same
      · cases List.mem_singleton.mp last
        exact known_candidate fits (List.mem_filter.mp inside).1 _
  | settleEventPicks eventId homeScore awayScore now =>
    obtain ⟨row, -, same⟩ := List.mem_map.mp read
    cases same
  | voidStaleNullKickoffPicks now =>
    obtain ⟨row, -, same⟩ := List.mem_map.mp read
    cases same
  | voidUnsettleableKnownKickoffPicks now =>
    obtain ⟨row, -, same⟩ := List.mem_map.mp read
    cases same
  | reportAndExpireNoResultPicks book now expireAfter =>
    simp only [Task.ofCall] at read
    split at read
    · cases read
    · cases expireAfter with
      | none => cases read
      | some age =>
        obtain ⟨row, -, same⟩ := List.mem_map.mp read
        cases same

/-! What a task writes. -/

omit [Unicode] in
theorem adds_resultWrites {row : ResultTracking} {others : List Write}
    (silent : ∀ write ∈ others, ¬ write.Adds p) {write : Write}
    (inside : write ∈ t.resultWrites row others) (adds : write.Adds p) : row.pickId = p.id := by
  unfold resultWrites at inside
  split at inside
  · cases inside
  · obtain rfl | rfl | other := List.mem_cons.mp inside |>.imp_right List.mem_cons.mp
    · exact adds
    · exact absurd adds id
    · exact absurd adds (silent write other)

theorem pickId_gradedResult {pick : Pick} {event : EventRow} {homeScore awayScore now : Int}
    {completion : Completion} {winnerSide : Option WinnerSide} {row : ResultTracking}
    (graded : t.gradedResult pick event homeScore awayScore now completion winnerSide = some row) :
    row.pickId = pick.id := by
  unfold gradedResult at graded
  split at graded
  · cases graded
  · split at graded
    · cases graded
    · cases graded
      rfl

theorem adds_gradedWrites {pick : Pick} {event : EventRow} {homeScore awayScore now : Int}
    {completion : Completion} {winnerSide : Option WinnerSide} {others : List Write}
    (silent : ∀ write ∈ others, ¬ write.Adds p) {write : Write}
    (inside : write ∈ t.gradedWrites pick event homeScore awayScore now completion
      winnerSide others)
    (adds : write.Adds p) : pick.id = p.id := by
  unfold gradedWrites at inside
  split at inside
  · cases inside
  · rename_i row graded
    rw [← pickId_gradedResult graded]
    refine adds_resultWrites (fun write inside => ?_) inside adds
    obtain finished | other := List.mem_append.mp inside
    · split at finished
      · cases finished
      · cases List.mem_singleton.mp finished
        exact id
    · exact silent write other

theorem adds_writes {task : Task} {write : Write} (inside : write ∈ task.writes t)
    (adds : write.Adds p) : task.pick.id = p.id := by
  obtain ⟨pick, event, closing⟩ := task
  cases closing with
  | score score now =>
    refine adds_gradedWrites (fun write inside => ?_) inside adds
    cases List.mem_singleton.mp inside
    exact id
  | byHand homeScore awayScore now =>
    exact adds_gradedWrites (fun _ inside => by cases inside) inside adds
  | void note now =>
    have row := adds_resultWrites (fun _ inside => by cases inside) inside adds
    exact row
  | leave => cases inside

theorem subject_adds (unique : (s.picks.map Pick.id).Nodup) {task : Task} (known : s.Known task)
    {write : Write} (inside : write ∈ task.writes t) (adds : write.Adds p)
    (rivals : s.Rivals p q) : p = task.pick.bet :=
  (bet_unique unique known.pick rivals.left (adds_writes inside adds)).symm

omit [Unicode] in
theorem superseded_adds {task : Task} {write : Write}
    (inside : write ∈ [Write.status task.pick.id .superseded]) : ¬ write.Adds p := by
  cases List.mem_singleton.mp inside
  exact id

theorem rivals_irrefl (p : Pick) : ¬ s.Rivals p p := fun rivals => rivals.twins.apart rfl

/-- Settlement compares a pick with its twins under their common lock. -/
def discipline (hash : Instrument → Int) (s : Store) (unique : (s.picks.map Pick.id).Nodup) :
    Sessions.Discipline (protocol hash) Pick where
  Has t p := t.hasResult p.id
  Adds := Write.Adds
  Rival := s.Rivals
  key := s.resource hash
  subject task := task.pick.bet
  Fits := s.Fits
  Known := s.Known
  symm rivals := rivals.symm
  irrefl p := rivals_irrefl p
  key_rival rivals := resource_rivals hash rivals
  has_apply t write p := Write.hasResult_apply t write p
  fits_apply _ write fits := write.fits_apply fits
  known_start _ call fits _ read := known_ofCall fits call read
  known_expand _ call fits _ read t' _ hinted := known_hinted fits call read t' hinted
  lock task _ known rivals := lock_known hash task known rivals
  rival _ task _ fits known rivals has :=
    settledSibling_known hash unique task fits known rivals has
  yield _ _ inside _ := superseded_adds inside
  act _ _ known _ inside _ _ adds rivals := subject_adds unique known inside adds rivals

theorem one_result_per_bet (hash : Instrument → Int) (s : Store)
    (unique : (s.picks.map Pick.id).Nodup) (actions : List (Sessions.Action Call)) :
    ∀ p ∈ s.picks, ∀ q ∈ s.picks, s.Twins p q →
      ¬ (s.hasResult p.id ∧ s.hasResult q.id) →
      ¬ ((run (Sessions.step (protocol hash)) { committed := s } actions).committed.hasResult
        p.id ∧
        (run (Sessions.step (protocol hash)) { committed := s } actions).committed.hasResult
          q.id) := by
  intro p inside q inside' twins open_
  have apart := Sessions.Discipline.apart_run (d := discipline hash s unique) (Fits.refl s)
    (fun i j rivals first second => rivals.open_ ⟨first, second⟩) actions
  have rivals : s.Rivals p.bet q.bet :=
    ⟨List.mem_map_of_mem inside, List.mem_map_of_mem inside',
      ⟨twins.apart, twins.market, twins.marketDetail, twins.modelVersionId, twins.selection,
        twins.fixture⟩,
      open_⟩
  exact fun both => apart p.bet q.bet rivals both.1 both.2

end Store
end Bets

/-! One match that two sources list, each with its own pick. -/

def derby (id : Nat) (home away : String) (startsAt : Int) : EventRow where
  id := id
  sportId := 1
  sportKey := "soccer".toList
  homeName := home.toList
  awayName := away.toList
  startsAt := some startsAt
  scrapedHomeScore := none
  scrapedAwayScore := none

def derbyPick (id : Nat) : Pick where
  id := id
  eventId := id
  modelVersionId := 1
  market := .h2h
  marketDetail := none
  selection := "Arsenal".toList
  bookmaker := "bet365".toList
  decimalOdds := 2
  recommendedStakeAmount := 10
  settlementStakeAmount := 0
  settlementEffectiveOddsStake := 0
  status := .alerted
  createdAt := 0

def derbyStore : Store :=
  ⟨[derby 1 "Arsenal" "Chelsea" 0, derby 2 "Chelsea" "Arsenal" 3600], [derbyPick 1, derbyPick 2],
    [], [], [], []⟩

/-- The cycle reads both picks to void them, and an operator settles the second one before it goes
on. -/
def derbyRun : List (Sessions.Action Call) :=
  [.call 0 (.voidUnsettleableKnownKickoffPicks (days 16)),
    .call 1 (.settleEventPicks 2 0 2 (days 16)),
    .statement 1, .statement 0, .statement 1, .statement 1, .commit 1] ++
    List.replicate 5 (.statement 0) ++ [.commit 0]

theorem exists_pair_of_any {pair pair' : Option PairKey}
    (same : pair.any fun p => pair'.any fun p' => p.Same p') :
    ∃ p p', pair = some p ∧ pair' = some p' ∧ p.Same p' := by
  obtain ⟨p, found, same⟩ := (Option.any_eq_true _ _).mp same
  obtain ⟨p', found', same⟩ := (Option.any_eq_true _ _).mp same
  exact ⟨p, p', found, found', of_decide_eq_true same⟩

theorem derby_twins : @Store.Twins Unicode.ascii derbyStore (derbyPick 1) (derbyPick 2) := by
  refine @Store.Twins.mk Unicode.ascii _ _ _ (by decide) rfl rfl rfl rfl
    ⟨derby 1 "Arsenal" "Chelsea" 0, derby 2 "Chelsea" "Arsenal" 3600, by decide, by decide, ?_⟩
  exact @EventRow.SameFixture.mk Unicode.ascii _ _ rfl rfl ⟨0, 3600, rfl, rfl, by decide⟩
    (exists_pair_of_any (by decide))

/-- The operator's pick has the result and the other one is superseded. -/
theorem one_result_derby :
    ((@run _ _ (Sessions.step (@protocol Unicode.ascii fun _ => 0)) { committed := derbyStore }
      derbyRun).committed.hasResult 2 ∧
      ¬ (@run _ _ (Sessions.step (@protocol Unicode.ascii fun _ => 0)) { committed := derbyStore }
        derbyRun).committed.hasResult 1) ∧
    ¬ ((@run _ _ (Sessions.step (@protocol Unicode.ascii fun _ => 0)) { committed := derbyStore }
      derbyRun).committed.hasResult 1 ∧
      (@run _ _ (Sessions.step (@protocol Unicode.ascii fun _ => 0)) { committed := derbyStore }
        derbyRun).committed.hasResult 2) :=
  ⟨by decide +kernel,
    @Store.one_result_per_bet Unicode.ascii (fun _ => 0) derbyStore (by
      decide) derbyRun (derbyPick 1) (by decide)
      (derbyPick 2) (by decide) derby_twins (by decide)⟩

end SharpEvPicks.Settlement
