import Mathlib.Data.List.MinMax
import SharpEvPicks.Settlement.Dedup
import SharpEvPicks.Settlement.Lookup

/-! One settlement cycle over the tables it reads and writes,
`app/settlement/engine.py`. A query returns its rows in table order, which the
source leaves open; tables are arbitrary lists. The closing prices that a settled
pick also gets, and the log lines, are not part of this model. -/
namespace SharpEvPicks.Settlement

open Python Resolution

structure EventRow where
  id : Nat
  sportId : Nat
  sportKey : Str
  homeName : Str
  awayName : Str
  startsAt : Option Int
  scrapedHomeScore : Option Int
  scrapedAwayScore : Option Int
  deriving DecidableEq

inductive PickStatus where
  | pending | alerted | settled | superseded
  deriving DecidableEq

structure Pick where
  id : Nat
  eventId : Nat
  modelVersionId : Nat
  market : Market
  marketDetail : Option Str
  selection : Str
  bookmaker : Str
  decimalOdds : ℚ
  recommendedStakeAmount : ℚ
  settlementStakeAmount : ℚ
  settlementEffectiveOddsStake : ℚ
  status : PickStatus
  createdAt : Int
  deriving DecidableEq

structure ManualBet where
  pickId : Nat
  betPlaced : Bool
  actualStake : Option ℚ
  actualOdds : Option ℚ
  bookmakerUsed : Option Str
  deriving DecidableEq

inductive Note where
  | expiredNoResultSource
  deriving DecidableEq

structure ResultTracking where
  pickId : Nat
  outcome : Outcome
  pnl : ℚ
  roi : Option ℚ
  settledStakeAmount : ℚ
  settledEffectiveOdds : ℚ
  homeScore : Option Int
  awayScore : Option Int
  note : Option Note
  settledAt : Int
  deriving DecidableEq

/-- A score of a feed, with the sport of the feed. -/
abbrev FeedScore := FinalScore Str

/-- Not in the source: the score that graded a pick, and the pick's sport. -/
structure Grading where
  pickId : Nat
  sportKey : Str
  score : FeedScore
  deriving DecidableEq

structure Store where
  events : List EventRow
  picks : List Pick
  manualBets : List ManualBet
  results : List ResultTracking
  /-- The events whose status is `finished`. -/
  finished : List Nat
  /-- Not in the source: what was graded so far. No function reads it. -/
  gradings : List Grading
  deriving DecidableEq

/-! Delays and tolerances. -/

def settleDelay : Int := hours 2
def staleNullKickoffAge : Int := days 14
def staleUnsettleableAge : Int := days 15

def dedupTolerance (sportKey : Str) : Int :=
  if sportKey = "tennis".toList then hours 6 else hours 2

def sportSettleDelay : List (Str × Int) :=
  [("basketball".toList, hours 4), ("american_football".toList, minutes 270),
    ("tennis".toList, hours 6)]

def settleDelayFor (sportKey : Str) (base : Int) : Int :=
  max base ((Dict.find sportSettleDelay sportKey).getD base)

namespace Store

/-! Single statements. -/

def eventOf (store : Store) (pick : Pick) : Option EventRow :=
  store.events.find? fun e => e.id = pick.eventId

def joined (store : Store) (status : PickStatus) : List (Pick × EventRow) :=
  (store.picks.filter fun p => p.status = status).filterMap fun p => (store.eventOf p).map (p, ·)

def setStatus (store : Store) (pickId : Nat) (status : PickStatus) : Store :=
  { store with picks := store.picks.map fun p => if p.id = pickId then { p with status } else p }

/-- `INSERT … ON CONFLICT DO NOTHING` on the pick of a result, and whether a row went in. -/
def insertResult (store : Store) (result : ResultTracking) : Store × Bool :=
  if store.results.any fun r => r.pickId = result.pickId then (store, false)
  else ({ store with results := store.results ++ [result] }, true)

def finishEvent (store : Store) (eventId : Nat) : Store :=
  { store with finished := if eventId ∈ store.finished then store.finished
    else eventId :: store.finished }

def recommendedSettlementBasis (pick : Pick) : ℚ × ℚ × Option Str :=
  let stake := pick.settlementStakeAmount
  let effectiveTerm := pick.settlementEffectiveOddsStake
  if 0 < stake ∧ 0 < effectiveTerm then (stake, effectiveTerm / stake, none)
  else (pick.recommendedStakeAmount, pick.decimalOdds, some pick.bookmaker)

def stakeAndOdds (store : Store) (pick : Pick) : ℚ × ℚ × Option Str :=
  let logged := store.manualBets.reverse.find? fun bet =>
    bet.pickId = pick.id && bet.betPlaced && bet.actualStake.isSome
  match logged.bind fun bet => bet.actualStake.map (bet, ·) with
  | some (bet, stake) =>
    match bet.actualOdds with
    | some odds =>
      -- an empty book name counts as none
      (stake, odds, some ((bet.bookmakerUsed.filter (· ≠ [])).getD pick.bookmaker))
    | none =>
      let (_, odds, book) := recommendedSettlementBasis pick
      (stake, odds, book)
  | none => recommendedSettlementBasis pick

variable [Unicode]

def effectiveSettlementOdds (odds : ℚ) : Option Str → ℚ
  | none => odds
  | some book => Edge.effectiveOdds Edge.exchangeCommission book odds

def voidPick (store : Store) (pick : Pick) (note : Option Note) (now : Int) : Store :=
  let (stake, odds, book) := store.stakeAndOdds pick
  let pnl := pickPnl .void stake odds none
  let (inserted, fresh) := store.insertResult
    { pickId := pick.id, outcome := .void, pnl, roi := pickRoi pnl stake,
      settledStakeAmount := stake
      settledEffectiveOdds := effectiveSettlementOdds odds book, homeScore := none
      awayScore := none, note, settledAt := now }
  if fresh then inserted.setStatus pick.id .settled else store

/-! Picks of one real fixture. -/

def settledSiblingExists (store : Store) (pick : Pick) (event : EventRow) (startsAt : Int)
    (pair : PairKey) : Bool :=
  store.picks.any fun sibling =>
    (store.results.any fun r => r.pickId = sibling.id) &&
      sibling.id ≠ pick.id && sibling.eventId ≠ pick.eventId && sibling.market = pick.market &&
      sibling.marketDetail = pick.marketDetail && sibling.modelVersionId = pick.modelVersionId &&
      (store.eventOf sibling).any fun other =>
        other.sportId = event.sportId &&
          (other.startsAt.any fun t => |t - startsAt| ≤ dedupTolerance event.sportKey) &&
          selectionDedupKey sibling.selection = selectionDedupKey pick.selection &&
          (fixturePairKey other.homeName other.awayName).any fun p => p.Same pair

/-- `_supersede_if_settled_sibling`, and whether it did. -/
def supersedeIfSettledSibling (store : Store) (pick : Pick) (event : EventRow) (startsAt : Int) :
    Store × Bool :=
  match fixturePairKey event.homeName event.awayName with
  | none => (store, false)
  | some pair =>
    if store.settledSiblingExists pick event startsAt pair then
      (store.setStatus pick.id .superseded, true)
    else (store, false)

/-! Grading. -/

def gradeOutcome (pick : Pick) (homeName awayName : Str) (homeScore awayScore : Int)
    (completion : Completion) (winnerSide : Option WinnerSide) (sportKey : Str) :
    Except Refusal Outcome :=
  match completion with
  | .void => .ok .void
  | .retired => settleSelectionRetired pick.market pick.selection homeName awayName winnerSide
  | .full =>
    settleSelection pick.market pick.selection homeName awayName homeScore awayScore (some sportKey)
      pick.marketDetail

/-- The guard on tennis game lines, before grading. -/
def tennisGameLine (pick : Pick) (sportKey : Str) (completion : Completion)
    (homeScore awayScore : Int) : Bool :=
  completion = .full && sportKey = "tennis".toList &&
    tennisSetScoreUngradeable pick.market pick.selection homeScore awayScore pick.marketDetail

/-- `_settle_one`, and whether the pick was settled. -/
def settleOne (store : Store) (pick : Pick) (homeName awayName : Str) (homeScore awayScore : Int)
    (now : Int) (completion : Completion) (winnerSide : Option WinnerSide) (sportKey : Str) :
    Store × Bool :=
  if tennisGameLine pick sportKey completion homeScore awayScore then (store, false)
  else match gradeOutcome pick homeName awayName homeScore awayScore completion winnerSide
    sportKey with
    | .error _ => (store, false)
    | .ok outcome =>
      let (stake, odds, book) := store.stakeAndOdds pick
      let pnl := pickPnl outcome stake odds book
      let (inserted, fresh) := store.insertResult
        { pickId := pick.id, outcome, pnl, roi := pickRoi pnl stake, settledStakeAmount := stake
          settledEffectiveOdds := effectiveSettlementOdds odds book
          homeScore := if completion = .void then none else some homeScore
          awayScore := if completion = .void then none else some awayScore
          note := none, settledAt := now }
      if !fresh then (store, false)
      else
        let settled := inserted.setStatus pick.id .settled
        if completion = .void then (settled, true) else (settled.finishEvent pick.eventId, true)

/-! The candidates of a pass. -/

/-- `_SettlementCandidate`. -/
structure Candidate where
  pick : Pick
  event : EventRow
  startsAt : Int
  score : Option FeedScore
  tennisGameLineSetScore : Bool

def Candidate.pair (c : Candidate) : Option PairKey :=
  fixturePairKey c.event.homeName c.event.awayName

def due (store : Store) (now delay : Int) : List (Pick × EventRow × Int) :=
  (store.joined .alerted).filterMap fun (pick, event) =>
    event.startsAt.bind fun startsAt =>
      if startsAt ≤ now - delay ∧ ¬ startsAt > now - settleDelayFor event.sportKey delay then
        some (pick, event, startsAt)
      else none

def candidate (book : ScoreBook Str) (pick : Pick) (event : EventRow) (startsAt : Int) :
    Candidate :=
  let score := book.lookup event.homeName event.awayName startsAt
  { pick, event, startsAt, score
    tennisGameLineSetScore :=
      score.any fun s => tennisGameLine pick event.sportKey s.completion s.homeScore s.awayScore }

def candidates (store : Store) (book : ScoreBook Str) (now delay : Int) : List Candidate :=
  (store.due now delay).map fun (pick, event, startsAt) => candidate book pick event startsAt

def prefetchChunkSize : Nat := 1000

/-- `_prefetch_settled_sibling_candidate_ids` on one chunk of candidates with a pair. -/
def prefetchChunk (store : Store) (chunk : List (Candidate × PairKey)) : List Nat :=
  let starts := chunk.map fun (c, _) => c.startsAt - dedupTolerance c.event.sportKey
  let ends := chunk.map fun (c, _) => c.startsAt + dedupTolerance c.event.sportKey
  let rows := store.picks.filterMap fun sibling =>
    (store.eventOf sibling).bind fun other =>
      other.startsAt.bind fun t =>
        if (store.results.any fun r => r.pickId = sibling.id) &&
            (chunk.any fun (c, _) => c.event.sportId = other.sportId) &&
            starts.any (· ≤ t) && ends.any (t ≤ ·) &&
            (chunk.any fun (c, _) => c.pick.market = sibling.market) &&
            (chunk.any fun (c, _) => c.pick.marketDetail = sibling.marketDetail) &&
            (chunk.any fun (c, _) => c.pick.modelVersionId = sibling.modelVersionId) then
          (fixturePairKey other.homeName other.awayName).map fun p => (sibling, other, t, p)
        else none
  (chunk.filter fun (c, pair) =>
    rows.any fun (sibling, other, t, p) =>
      other.sportId = c.event.sportId && sibling.market = c.pick.market &&
        sibling.marketDetail = c.pick.marketDetail &&
          sibling.modelVersionId = c.pick.modelVersionId &&
        selectionDedupKey sibling.selection = selectionDedupKey c.pick.selection && p.Same pair &&
        sibling.id ≠ c.pick.id && sibling.eventId ≠ c.pick.eventId &&
        |t - c.startsAt| ≤ dedupTolerance c.event.sportKey).map fun (c, _) => c.pick.id

def prefetchSettledSiblingIds (store : Store) (candidates : List Candidate) : List Nat :=
  let eligible := candidates.filterMap fun c => c.pair.map (c, ·)
  (eligible.toChunks prefetchChunkSize).flatMap store.prefetchChunk

/-! The two phases of `settle_open_picks`. -/

def settleGradeable (now : Int) (state : Store × Nat) (c : Candidate) : Store × Nat :=
  match c.score with
  | none => state
  | some score =>
    let (store, superseded) := state.1.supersedeIfSettledSibling c.pick c.event c.startsAt
    if superseded then (store, state.2)
    else
      let (settled, done) :=
        store.settleOne c.pick c.event.homeName c.event.awayName score.homeScore
        score.awayScore now score.completion score.winnerSide c.event.sportKey
      if done then
        ({ settled with gradings := settled.gradings ++ [⟨c.pick.id, c.event.sportKey,
          score⟩] }, state.2 + 1)
      else (settled, state.2)

def supersedeDeferred (possible : List Nat) (store : Store) (c : Candidate) : Store :=
  if c.pick.id ∈ possible then (store.supersedeIfSettledSibling c.pick c.event c.startsAt).1
    else store

def settleOpenPicks (store : Store) (book : ScoreBook Str) (now delay : Int) : Store × Nat :=
  if book.count = 0 then (store, 0)
  else
    let all := store.candidates book now delay
    let gradeable := all.filter fun c => c.score.isSome && !c.tennisGameLineSetScore
    let deferred := all.filter fun c => c.score.isNone || c.tennisGameLineSetScore
    let (store, settled) := gradeable.foldl (settleGradeable now) (store, 0)
    (deferred.foldl (supersedeDeferred (store.prefetchSettledSiblingIds deferred)) store, settled)

/-! A score entered by hand. -/

/-- One row of `settle_event_picks`, with the settled and the skipped so far. A pick without a known
kickoff is not compared with its twins. -/
def settleByHand (homeScore awayScore now : Int) (state : Store × Nat × Nat)
    (row : Pick × EventRow) : Store × Nat × Nat :=
  let (pick, event) := row
  let (store, superseded) :=
    match event.startsAt with
    | none => (state.1, false)
    | some startsAt => state.1.supersedeIfSettledSibling pick event startsAt
  if superseded then (store, state.2.1, state.2.2 + 1)
  else
    let (settled, done) :=
      store.settleOne pick event.homeName event.awayName homeScore awayScore now .full
      none event.sportKey
    if done then (settled, state.2.1 + 1, state.2.2) else (settled, state.2.1, state.2.2 + 1)

def settleEventPicks (store : Store) (eventId : Nat) (homeScore awayScore now : Int) :
    Store × Nat × Nat :=
  let rows := (store.joined .alerted).filter fun (pick, _) => pick.eventId = eventId
  rows.foldl (settleByHand homeScore awayScore now) (store, 0, 0)

/-! Voids. -/

def voidStaleNullKickoffPicks (store : Store) (now : Int) : Store :=
  let rows := (store.joined .alerted).filter fun (pick, event) =>
    event.startsAt.isNone && pick.createdAt < now - staleNullKickoffAge
  rows.foldl (fun store (pick, _) => store.voidPick pick none now) store

/-- Void a pick for want of a result, unless a settled twin supersedes it. -/
def voidOrSupersede (now : Int) (store : Store) (row : Pick × EventRow × Int) : Store :=
  let (pick, event, startsAt) := row
  let (store, superseded) := store.supersedeIfSettledSibling pick event startsAt
  if superseded then store else store.voidPick pick (some .expiredNoResultSource) now

def voidUnsettleableKnownKickoffPicks (store : Store) (now : Int) : Store :=
  let rows := (store.joined .alerted).filterMap fun (pick, event) =>
    event.startsAt.bind fun startsAt =>
      if startsAt < now - staleUnsettleableAge ∧ event.scrapedHomeScore.isNone then
        some (pick, event, startsAt)
      else none
  rows.foldl (voidOrSupersede now) store

def reportAndExpireNoResultPicks (store : Store) (book : ScoreBook Str) (now : Int)
    (expireAfter : Option Int) : Store :=
  if book.count = 0 then store
  else match expireAfter with
    | none => store
    | some age =>
      let gaps := (store.due now settleDelay).filter fun (_, event, startsAt) =>
        (book.lookup event.homeName event.awayName startsAt).isNone && startsAt < now - age
      gaps.foldl (voidOrSupersede now) store

/-! The cycle. -/

/-- The row of an event with a scraped score, under its kickoff. -/
def scrapedFinal (now : Int) (event : EventRow) : Option (Int × FeedScore) :=
  match event.startsAt, event.scrapedHomeScore, event.scrapedAwayScore with
  | some startsAt, some homeScore, some awayScore =>
    if event.sportKey ≠ "tennis".toList ∧ startsAt < now then
      some (startsAt, { homeTeam := event.homeName, awayTeam := event.awayName
                        matchDate := dateOf startsAt, homeScore, awayScore, feed :=
                          event.sportKey })
    else none
  | _, _, _ => none

/-- `_load_scraped_finals`; equal rows come once. -/
def loadScrapedFinals (store : Store) (now : Int) : List FeedScore :=
  ((store.joined .alerted).filterMap fun (_, event) => scrapedFinal now event).dedup.map Prod.snd

structure Settings where
  settleFromScrapedScores : Bool
  settlementExpireDays : Int

def voidStale (store : Store) (now : Int) : Store :=
  (store.voidStaleNullKickoffPicks now).voidUnsettleableKnownKickoffPicks now

def scrapedOf (store : Store) (settings : Settings) (now : Int) : List FeedScore :=
  if settings.settleFromScrapedScores then store.loadScrapedFinals now else []

/-- `run_settlement_cycle` on the rows that the feeds returned, and the number of settled picks. -/
def runSettlementCycle (store : Store) (settings : Settings) (feedScores : List FeedScore)
    (now : Int) : Store × Nat :=
  let store := store.voidStale now
  let scraped := store.scrapedOf settings now
  if feedScores = [] ∧ scraped = [] then (store, 0)
  else
    let (store, fromFeeds) :=
      if feedScores ≠ [] then store.settleOpenPicks (.ofRows feedScores) now settleDelay
        else (store, 0)
    let (store, fromScraped) :=
      if scraped ≠ [] then store.settleOpenPicks (.ofRows scraped) now settleDelay else (store, 0)
    let expireAfter :=
      if 0 < settings.settlementExpireDays then some (days settings.settlementExpireDays) else none
    (store.reportAndExpireNoResultPicks (.ofRows (feedScores ++ scraped)) now expireAfter,
      fromFeeds + fromScraped)

end Store
end SharpEvPicks.Settlement
