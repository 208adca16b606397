import SharpEvPicks.Python.Reordering
import SharpEvPicks.Settlement.Engine
import SharpEvPicks.Transition.Sessions

/-! The statements that settle picks, `app/settlement/engine.py`, as transactions of several
sessions run them: rows are read once, and every pick then takes the lock of its instrument, looks
for a settled twin and writes. Row locks on a pick only make a session wait and are left out. -/
namespace SharpEvPicks.Settlement

open Python Resolution Transition

inductive Write where
  | result (row : ResultTracking)
  | status (pickId : Nat) (status : PickStatus)
  | finished (eventId : Nat)
  /-- Not in the source. -/
  | grading (grading : Grading)

def Write.apply (store : Store) : Write → Store
  | .result row => (store.insertResult row).1
  | .status pickId closed => store.setStatus pickId closed
  | .finished eventId => store.finishEvent eventId
  | .grading graded => { store with gradings := store.gradings ++ [graded] }

/-- What is done with a pick that has no settled twin. -/
inductive Closing where
  | score (score : FeedScore) (now : Int)
  | byHand (homeScore awayScore now : Int)
  | void (note : Option Note) (now : Int)
  | leave

structure Task where
  pick : Pick
  event : EventRow
  closing : Closing

/-- What the advisory lock is on. -/
structure Instrument where
  sportId : Nat
  pair : List Str
  market : Market
  marketDetail : Option Str
  selection : Str
  modelVersionId : Nat

inductive Resource where
  | instrument (id : Int)
  | result (pickId : Nat)
  deriving DecidableEq

inductive Call where
  | settleOpenPicks (book : ScoreBook Str) (now delay : Int)
  | settleEventPicks (eventId : Nat) (homeScore awayScore now : Int)
  | voidStaleNullKickoffPicks (now : Int)
  | voidUnsettleableKnownKickoffPicks (now : Int)
  | reportAndExpireNoResultPicks (book : ScoreBook Str) (now : Int) (expireAfter : Option Int)

namespace Store

def hasResult (store : Store) (pickId : Nat) : Bool := store.results.any fun r => r.pickId = pickId

/-- The writes of a result that is inserted, unless the pick has one. -/
def resultWrites (store : Store) (row : ResultTracking) (others : List Write) : List Write :=
  if store.hasResult row.pickId then [] else .result row :: .status row.pickId .settled :: others

variable [Unicode]

def voidResult (store : Store) (pick : Pick) (note : Option Note) (now : Int) : ResultTracking :=
  let (stake, odds, book) := store.stakeAndOdds pick
  let pnl := pickPnl .void stake odds none
  { pickId := pick.id, outcome := .void, pnl, roi := pickRoi pnl stake, settledStakeAmount := stake
    settledEffectiveOdds := effectiveSettlementOdds odds book, homeScore := none
    awayScore := none, note, settledAt := now }

/-- The result of a pick that grades. -/
def gradedResult (store : Store) (pick : Pick) (event : EventRow) (homeScore awayScore now : Int)
    (completion : Completion) (winnerSide : Option WinnerSide) : Option ResultTracking :=
  if tennisGameLine pick event.sportKey completion homeScore awayScore then none
  else match gradeOutcome pick event.homeName event.awayName homeScore awayScore completion
    winnerSide event.sportKey with
    | .error _ => none
    | .ok outcome =>
      let (stake, odds, book) := store.stakeAndOdds pick
      let pnl := pickPnl outcome stake odds book
      some
        { pickId := pick.id, outcome, pnl, roi := pickRoi pnl stake, settledStakeAmount := stake
          settledEffectiveOdds := effectiveSettlementOdds odds book
          homeScore := if completion = .void then none else some homeScore
          awayScore := if completion = .void then none else some awayScore
          note := none, settledAt := now }

def gradedWrites (store : Store) (pick : Pick) (event : EventRow) (homeScore awayScore now : Int)
    (completion : Completion) (winnerSide : Option WinnerSide) (others : List Write) : List Write :=
  match store.gradedResult pick event homeScore awayScore now completion winnerSide with
  | none => []
  | some row =>
    store.resultWrites row
      ((if completion = .void then [] else [.finished pick.eventId]) ++ others)

end Store

namespace Task
variable [Unicode]

def writes (store : Store) (task : Task) : List Write :=
  match task.closing with
  | .score score now =>
    store.gradedWrites task.pick task.event score.homeScore score.awayScore now score.completion
      score.winnerSide [.grading ⟨task.pick.id, task.event.sportKey, score⟩]
  | .byHand homeScore awayScore now =>
    store.gradedWrites task.pick task.event homeScore awayScore now .full none []
  | .void note now => store.resultWrites (store.voidResult task.pick note now) []
  | .leave => []

def instrument (pick : Pick) (event : EventRow) (pair : PairKey) : Instrument where
  sportId := event.sportId
  pair := sortedBy id [pair.home, pair.away]
  market := pick.market
  marketDetail := pick.marketDetail
  selection := selectionDedupKey pick.selection
  modelVersionId := pick.modelVersionId

/-- `_lock_settlement_instrument`, where a pick is compared with its twins. -/
def lock (hash : Instrument → Int) (pick : Pick) (event : EventRow) : Option Resource :=
  (fixturePairKey event.homeName event.awayName).bind fun pair =>
    event.startsAt.map fun _ => .instrument (hash (instrument pick event pair))

def settledSibling (store : Store) (task : Task) : Bool :=
  (fixturePairKey task.event.homeName task.event.awayName).any fun pair =>
    task.event.startsAt.any fun startsAt =>
      store.settledSiblingExists task.pick task.event startsAt pair

def ofCandidate (now : Int) (c : Store.Candidate) : Task where
  pick := c.pick
  event := c.event
  closing :=
    match c.score with
    | none => .leave
    | some score => .score score now

def deferred (c : Store.Candidate) : Task where
  pick := c.pick
  event := c.event
  closing := .leave

/-- The tasks of the rows that a call reads. The deferred candidates wait for the bulk query. -/
def ofCall (store : Store) : Call → List (Task ⊕ List Store.Candidate)
  | .settleOpenPicks book now delay =>
    if book.count = 0 then []
    else
      let all := store.candidates book now delay
      let gradeable := all.filter fun c => c.score.isSome && !c.tennisGameLineSetScore
      let deferred := all.filter fun c => c.score.isNone || c.tennisGameLineSetScore
      gradeable.map (fun c => .inl (ofCandidate now c)) ++ [.inr deferred]
  | .settleEventPicks eventId homeScore awayScore now =>
    let rows := (store.joined .alerted).filter fun (pick, _) => pick.eventId = eventId
    rows.map fun (pick, event) => .inl ⟨pick, event, .byHand homeScore awayScore now⟩
  | .voidStaleNullKickoffPicks now =>
    let rows := (store.joined .alerted).filter fun (pick, event) =>
      event.startsAt.isNone && pick.createdAt < now - staleNullKickoffAge
    rows.map fun (pick, event) => .inl ⟨pick, event, .void none now⟩
  | .voidUnsettleableKnownKickoffPicks now =>
    let rows := (store.joined .alerted).filterMap fun (pick, event) =>
      event.startsAt.bind fun startsAt =>
        if startsAt < now - staleUnsettleableAge ∧ event.scrapedHomeScore.isNone then
          some (pick, event, startsAt)
        else none
    rows.map fun (pick, event, _) => .inl ⟨pick, event, .void (some .expiredNoResultSource) now⟩
  | .reportAndExpireNoResultPicks book now expireAfter =>
    if book.count = 0 then []
    else match expireAfter with
      | none => []
      | some age =>
        let gaps := (store.due now settleDelay).filter fun (_, event, startsAt) =>
          (book.lookup event.homeName event.awayName startsAt).isNone && startsAt < now - age
        gaps.map fun (pick, event, _) =>
          .inl ⟨pick, event, .void (some .expiredNoResultSource) now⟩

/-- The deferred candidates that the bulk query has a settled twin for. -/
def hinted (store : Store) (deferred : List Store.Candidate) : List Task :=
  let possible := store.prefetchSettledSiblingIds deferred
  (deferred.filter fun c => c.pick.id ∈ possible).map Task.deferred

end Task

section Protocol
variable [Unicode]

/-- The lock ids are a hash of the instrument; two instruments may share one. -/
def protocol (hash : Instrument → Int) :
    Sessions.Protocol Store Write Resource Task (List Store.Candidate) Call where
  apply := Write.apply
  start := Task.ofCall
  expand := Task.hinted
  lock task := Task.lock hash task.pick task.event
  rival := Task.settledSibling
  yield task := [.status task.pick.id .superseded]
  act := Task.writes
  entry task := .result task.pick.id

theorem protocol_rival (hash : Instrument → Int) : (protocol hash).rival = Task.settledSibling :=
  rfl

theorem protocol_lock (hash : Instrument → Int) (task : Task) :
    (protocol hash).lock task = Task.lock hash task.pick task.event := rfl

end Protocol
end SharpEvPicks.Settlement
