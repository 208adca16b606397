import Mathlib.Logic.Relation
import SharpEvPicks.Settlement.Engine

/-! From which sport's feed a pick is graded, over whole runs. The book looks rows
up by names and date alone, so the fence has to be in the rows. -/
namespace SharpEvPicks.Settlement

open Python Resolution

namespace Store

/-- Settlement only closes picks and leaves the events alone. -/
structure Advances (s t : Store) : Prop where
  events : t.events = s.events
  alerted : ∀ p ∈ t.picks, p.status = .alerted → p ∈ s.picks

structure Quiet (s t : Store) : Prop extends Advances s t where
  gradings : t.gradings = s.gradings

theorem Advances.refl (s : Store) : Advances s s := ⟨rfl, fun _ inside _ => inside⟩

theorem Advances.trans {s t u : Store} (first : Advances s t) (second : Advances t u) :
    Advances s u :=
  ⟨second.events.trans first.events,
    fun p inside alerted => first.alerted p (second.alerted p inside alerted) alerted⟩

theorem Quiet.refl (s : Store) : Quiet s s := ⟨.refl s, rfl⟩

theorem Quiet.trans {s t u : Store} (first : Quiet s t) (second : Quiet t u) : Quiet s u :=
  ⟨first.toAdvances.trans second.toAdvances, second.gradings.trans first.gradings⟩

theorem quiet_foldl {α : Type} (step : Store → α → Store)
    (quiet : ∀ s a, Quiet s (step s a)) (l : List α) (s : Store) : Quiet s (l.foldl step s) := by
  induction l generalizing s with
  | nil => exact .refl s
  | cons a l ih => exact (quiet s a).trans (ih (step s a))

theorem quiet_setStatus (s : Store) (pickId : Nat) {status : PickStatus}
    (closed : status ≠ .alerted) : Quiet s (s.setStatus pickId status) := by
  refine ⟨⟨rfl, fun p inside alerted => ?_⟩, rfl⟩
  obtain ⟨old, oldIn, rfl⟩ := List.mem_map.mp inside
  split at alerted
  · exact absurd alerted closed
  · rename_i other
    rw [if_neg other]
    exact oldIn

theorem quiet_insertResult (s : Store) (result : ResultTracking) :
    Quiet s (s.insertResult result).1 := by
  unfold insertResult
  split
  · exact .refl s
  · exact ⟨⟨rfl, fun _ inside _ => inside⟩, rfl⟩

section Steps
variable [Unicode]

theorem quiet_voidPick (s : Store) (pick : Pick) (note : Option Note) (now : Int) :
    Quiet s (s.voidPick pick note now) := by
  simp only [voidPick]
  split
  · exact (quiet_insertResult s _).trans (quiet_setStatus _ _ (by decide))
  · exact .refl s

theorem quiet_supersede (s : Store) (pick : Pick) (event : EventRow) (startsAt : Int) :
    Quiet s (s.supersedeIfSettledSibling pick event startsAt).1 := by
  unfold supersedeIfSettledSibling
  split
  · exact .refl s
  · split
    · exact quiet_setStatus _ _ (by decide)
    · exact .refl s

theorem quiet_supersedeDeferred (possible : List Nat) (s : Store) (c : Candidate) :
    Quiet s (supersedeDeferred possible s c) := by
  unfold supersedeDeferred
  split
  · exact quiet_supersede s c.pick c.event c.startsAt
  · exact .refl s

theorem quiet_voidOrSupersede (now : Int) (s : Store) (row : Pick × EventRow × Int) :
    Quiet s (voidOrSupersede now s row) := by
  obtain ⟨pick, event, startsAt⟩ := row
  simp only [voidOrSupersede]
  split
  · exact quiet_supersede s pick event startsAt
  · exact (quiet_supersede s pick event startsAt).trans (quiet_voidPick _ _ _ _)

theorem quiet_settleOne (s : Store) (pick : Pick) (homeName awayName : Str)
    (homeScore awayScore : Int) (now : Int) (completion : Completion)
    (winnerSide : Option WinnerSide) (sportKey : Str) :
    Quiet s (s.settleOne pick homeName awayName homeScore awayScore now completion winnerSide
      sportKey).1 := by
  have closed (result : ResultTracking) :
      Quiet s ((s.insertResult result).1.setStatus pick.id .settled) :=
    (quiet_insertResult s result).trans (quiet_setStatus _ _ (by decide))
  unfold settleOne
  split
  · exact .refl s
  · cases gradeOutcome pick homeName awayName homeScore awayScore completion winnerSide
      sportKey with
    | error refusal => exact .refl s
    | ok outcome =>
      by_cases unplayed : completion = .void
      · simp only [unplayed, if_true]
        split
        · exact .refl s
        · exact closed _
      · simp only [unplayed, if_false]
        split
        · exact .refl s
        · exact (closed _).trans ⟨⟨rfl, fun _ inside _ => inside⟩, rfl⟩

theorem quiet_voidStale (s : Store) (now : Int) : Quiet s (s.voidStale now) := by
  have voids : Quiet s (s.voidStaleNullKickoffPicks now) :=
    quiet_foldl (fun store (row : Pick × EventRow) => store.voidPick row.1 none now)
      (fun store row => quiet_voidPick store row.1 none now) _ s
  exact voids.trans (quiet_foldl _ (quiet_voidOrSupersede now) _ _)

theorem quiet_reportAndExpire (s : Store) (book : ScoreBook Str) (now : Int)
    (expireAfter : Option Int) : Quiet s (s.reportAndExpireNoResultPicks book now expireAfter) := by
  unfold reportAndExpireNoResultPicks
  split
  · exact .refl s
  · split
    · exact .refl s
    · exact quiet_foldl _ (quiet_voidOrSupersede now) _ s

/-! What a step may grade. -/

omit [Unicode] in
theorem mem_due {s : Store} {now delay : Int} {pick : Pick} {event : EventRow} {startsAt : Int} :
    (pick, event, startsAt) ∈ s.due now delay ↔
      pick ∈ s.picks ∧ pick.status = .alerted ∧ s.eventOf pick = some event ∧
        event.startsAt = some startsAt ∧ startsAt ≤ now - delay ∧
          startsAt ≤ now - settleDelayFor event.sportKey delay := by
  simp only [due, joined, List.mem_filterMap, List.mem_filter, decide_eq_true_eq,
    Option.map_eq_some_iff, Option.bind_eq_some_iff, Prod.exists]
  constructor
  · rintro ⟨p, e, ⟨q, ⟨inside, alerted⟩, e', found, pair⟩, t, starts, passed⟩
    cases pair
    split at passed
    · rename_i floors
      cases passed
      exact ⟨inside, alerted, found, starts, floors.1, not_lt.mp floors.2⟩
    · cases passed
  · rintro ⟨inside, alerted, found, starts, floor, sportFloor⟩
    refine ⟨pick, event, ⟨pick, ⟨inside, alerted⟩, event, found, rfl⟩, startsAt,
      starts, ?_⟩
    rw [if_pos ⟨floor, not_lt.mpr sportFloor⟩]

omit [Unicode] in
theorem due_of_advances {s t : Store} (advances : Advances s t) {now delay : Int}
    {row : Pick × EventRow × Int} (later : row ∈ t.due now delay) :
      row ∈ s.due now delay := by
  obtain ⟨pick, event, startsAt⟩ := row
  obtain ⟨inside, alerted, found, rest⟩ := mem_due.mp later
  refine mem_due.mpr ⟨advances.alerted pick inside alerted, alerted, ?_, rest⟩
  rw [← found, eventOf, eventOf, advances.events]

def OwnSport (s : Store) : Prop := ∀ g ∈ s.gradings, g.score.feed = g.sportKey

instance (s : Store) : Decidable (OwnSport s) :=
  inferInstanceAs (Decidable (∀ g ∈ s.gradings, g.score.feed = g.sportKey))

omit [Unicode] in
theorem OwnSport.quiet {s t : Store} (own : OwnSport s) (quiet : Quiet s t) : OwnSport t := by
  unfold OwnSport
  rw [quiet.gradings]
  exact own

theorem settleGradeable_step (now : Int) (state : Store × Nat) (c : Candidate) :
    Advances state.1 (settleGradeable now state c).1 ∧
      ((settleGradeable now state c).1.gradings = state.1.gradings ∨
        ∃ score, c.score = some score ∧ (settleGradeable now state c).1.gradings =
          state.1.gradings ++ [⟨c.pick.id, c.event.sportKey, score⟩]) := by
  unfold settleGradeable
  cases c.score with
  | none => exact ⟨.refl _, .inl rfl⟩
  | some score =>
    have superseding := quiet_supersede state.1 c.pick c.event c.startsAt
    dsimp only
    split
    · exact ⟨superseding.toAdvances, .inl superseding.gradings⟩
    · have settling := superseding.trans (quiet_settleOne
        (state.1.supersedeIfSettledSibling c.pick c.event c.startsAt).1 c.pick c.event.homeName
        c.event.awayName score.homeScore score.awayScore now score.completion score.winnerSide
        c.event.sportKey)
      split
      · exact ⟨⟨settling.events, settling.alerted⟩,
          .inr ⟨score, rfl, by rw [settling.gradings]⟩⟩
      · exact ⟨settling.toAdvances, .inl settling.gradings⟩

theorem foldl_settleGradeable (now : Int) (l : List Candidate) (state : Store × Nat)
    (fenced : ∀ c ∈ l, ∀ score, c.score = some score → score.feed = c.event.sportKey)
    (own : OwnSport state.1) :
    Advances state.1 (l.foldl (settleGradeable now) state).1 ∧
      OwnSport (l.foldl (settleGradeable now) state).1 := by
  induction l generalizing state with
  | nil => exact ⟨.refl _, own⟩
  | cons c l ih =>
    obtain ⟨advances, graded⟩ := settleGradeable_step now state c
    have next : OwnSport (settleGradeable now state c).1 := by
      unfold OwnSport
      obtain same | ⟨score, found, added⟩ := graded
      · rw [same]
        exact own
      · rw [added]
        intro g inside
        obtain old | new := List.mem_append.mp inside
        · exact own g old
        · cases List.mem_singleton.mp new
          exact fenced c List.mem_cons_self score found
    obtain ⟨later, final⟩ := ih (settleGradeable now state c)
      (fun c inside => fenced c (List.mem_cons_of_mem _ inside)) next
    exact ⟨advances.trans later, final⟩

/-- The row that decides a lookup for the event, if any, is of the event's sport. -/
def Fenced (rows : List FeedScore) (event : EventRow) (startsAt : Int) : Prop :=
  ∀ r, ScoreBook.Decides rows event.homeName event.awayName (dateOf startsAt) r →
    r.feed = event.sportKey

def FencedPass (s : Store) (rows : List FeedScore) (now : Int) : Prop :=
  ∀ row ∈ s.due now settleDelay, Fenced rows row.2.1 row.2.2

/-- The condition on one cycle: the feed rows and the scraped rows are fenced for every
open pick that is due once the stale ones are voided. -/
def FencedCycle (s : Store) (settings : Settings) (feedScores : List FeedScore) (now : Int) :
    Prop :=
  FencedPass (s.voidStale now) feedScores now ∧
    FencedPass (s.voidStale now) ((s.voidStale now).scrapedOf settings now) now

/-- It is enough that no row of another sport near the kickoff denotes the fixture. -/
theorem fenced_of_denotes {rows : List FeedScore} {event : EventRow} {startsAt : Int}
    (apart : ∀ r ∈ rows, ScoreBook.Denotes event.homeName event.awayName r →
      (r.matchDate = dateOf startsAt ∨ ScoreBook.Adjacent (dateOf startsAt) r.matchDate) →
        r.feed = event.sportKey) : Fenced rows event startsAt := by
  intro r decides
  obtain ⟨inside, date, denotes⟩ := ScoreBook.lookup_sound (ScoreBook.lookup_iff.mpr decides)
  exact apart r inside denotes date

/-- No row of another sport within a day of a due pick's kickoff denotes its fixture. -/
def ApartPass (s : Store) (rows : List FeedScore) (now : Int) : Prop :=
  ∀ row ∈ s.due now settleDelay, ∀ r ∈ rows,
    ScoreBook.Denotes row.2.1.homeName row.2.1.awayName r →
    (r.matchDate = dateOf row.2.2 ∨ ScoreBook.Adjacent (dateOf row.2.2) r.matchDate) →
      r.feed = row.2.1.sportKey

def ApartCycle (s : Store) (settings : Settings) (feedScores : List FeedScore) (now : Int) : Prop :=
  ApartPass (s.voidStale now) feedScores now ∧
    ApartPass (s.voidStale now) ((s.voidStale now).scrapedOf settings now) now

theorem ApartCycle.fenced {s : Store} {settings : Settings} {feedScores : List FeedScore}
    {now : Int} (apart : ApartCycle s settings feedScores now) :
      FencedCycle s settings feedScores now :=
  ⟨fun row isDue => fenced_of_denotes (apart.1 row isDue),
    fun row isDue => fenced_of_denotes (apart.2 row isDue)⟩

theorem FencedPass.advances {s t : Store} {rows : List FeedScore} {now : Int}
    (fenced : FencedPass s rows now) (advances : Advances s t) : FencedPass t rows now :=
  fun row later => fenced row (due_of_advances advances later)

theorem settleOpenPicks_fenced {s : Store} {rows : List FeedScore} {now : Int}
    (fenced : FencedPass s rows now) (own : OwnSport s) :
    Advances s (s.settleOpenPicks (.ofRows rows) now settleDelay).1 ∧
      OwnSport (s.settleOpenPicks (.ofRows rows) now settleDelay).1 := by
  unfold settleOpenPicks
  split
  · exact ⟨.refl s, own⟩
  · have scores : ∀ c ∈ (s.candidates (.ofRows rows) now settleDelay).filter
        (fun c => c.score.isSome && !c.tennisGameLineSetScore),
        ∀ score, c.score = some score → score.feed = c.event.sportKey := by
      intro c inside score found
      obtain ⟨row, isDue, rfl⟩ := List.mem_map.mp (List.mem_filter.mp inside).1
      exact fenced row isDue score (ScoreBook.lookup_iff.mp found)
    obtain ⟨advances, graded⟩ := foldl_settleGradeable now _ (s, 0) scores own
    have deferring (possible : List Nat) (l : List Candidate) (store : Store) :
        Quiet store (l.foldl (supersedeDeferred possible) store) :=
      quiet_foldl _ (quiet_supersedeDeferred possible) l store
    exact ⟨advances.trans (deferring _ _ _).toAdvances, graded.quiet (deferring _ _ _)⟩

theorem runSettlementCycle_fenced {s : Store} {settings : Settings} {feedScores : List FeedScore}
    {now : Int} (fenced : FencedCycle s settings feedScores now) (own : OwnSport s) :
    OwnSport (s.runSettlementCycle settings feedScores now).1 := by
  have start : OwnSport (s.voidStale now) := own.quiet (quiet_voidStale s now)
  obtain ⟨feedFence, scrapedFence⟩ := fenced
  unfold runSettlementCycle
  dsimp only
  generalize s.voidStale now = store at start feedFence scrapedFence ⊢
  generalize store.scrapedOf settings now = scraped at scrapedFence ⊢
  split
  · exact start
  · have fromFeeds : Advances store (if feedScores ≠ [] then
        store.settleOpenPicks (.ofRows feedScores) now settleDelay else (store, 0)).1 ∧
        OwnSport (if feedScores ≠ [] then
        store.settleOpenPicks (.ofRows feedScores) now settleDelay else (store, 0)).1 := by
      split
      · exact settleOpenPicks_fenced feedFence start
      · exact ⟨.refl store, start⟩
    generalize (if feedScores ≠ [] then
        store.settleOpenPicks (.ofRows feedScores) now settleDelay else (store, 0)) =
          first at fromFeeds
    obtain ⟨advances, graded⟩ := fromFeeds
    refine OwnSport.quiet ?_ (quiet_reportAndExpire _ _ _ _)
    split
    · exact (settleOpenPicks_fenced (scrapedFence.advances advances) graded).2
    · exact graded

/-! Whole runs. -/

/-- From one look at the store to the next: a cycle that meets the condition, or anything that does
not grade. -/
inductive Moves (Fits : Store → Settings → List FeedScore → Int → Prop) (s : Store) :
    Store → Prop
  | cycle (settings : Settings) (feedScores : List FeedScore) (now : Int)
      (fits : Fits s settings feedScores now) :
    Moves Fits s (s.runSettlementCycle settings feedScores now).1
  | elsewhere (t : Store) (ungraded : t.gradings = s.gradings) : Moves Fits s t

theorem ownSport_fencedRun {s t : Store} (run : Relation.ReflTransGen (Moves FencedCycle) s t)
    (own : OwnSport s) : OwnSport t := by
  induction run with
  | refl => exact own
  | tail _ move ih =>
    cases move with
    | cycle settings feedScores now fenced => exact runSettlementCycle_fenced fenced ih
    | elsewhere t ungraded =>
      unfold OwnSport
      rw [ungraded]
      exact ih

/-- Every grading of a run is from a row of the pick's own sport, when the rows that decide its
cycles' lookups are; so it is when no row of another sport comes near a fixture that is due. -/
theorem ownSport_run {s t : Store} (own : OwnSport s) :
    (Relation.ReflTransGen (Moves FencedCycle) s t → OwnSport t) ∧
      (Relation.ReflTransGen (Moves ApartCycle) s t → OwnSport t) := by
  have fenced {s t : Store} (move : Moves ApartCycle s t) : Moves FencedCycle s t := by
    cases move with
    | cycle settings feedScores now apart => exact .cycle settings feedScores now apart.fenced
    | elsewhere t ungraded => exact .elsewhere t ungraded
  exact ⟨fun run => ownSport_fencedRun run own,
    fun run => ownSport_fencedRun (Relation.ReflTransGen.mono (fun _ _ => fenced) _ _ run) own⟩

end Steps

/-! A basketball game between clubs that also play football. -/

def clasico : EventRow where
  id := 1
  sportId := 2
  sportKey := "basketball".toList
  homeName := "Barcelona".toList
  awayName := "Real Madrid".toList
  startsAt := some (hours 12)
  scrapedHomeScore := none
  scrapedAwayScore := none

def clasicoPick : Pick where
  id := 1
  eventId := 1
  modelVersionId := 1
  market := .h2h
  marketDetail := none
  selection := "Barcelona".toList
  bookmaker := "bet365".toList
  decimalOdds := 2
  recommendedStakeAmount := 10
  settlementStakeAmount := 0
  settlementEffectiveOddsStake := 0
  status := .alerted
  createdAt := 0

def clasicoStore : Store := ⟨[clasico], [clasicoPick], [], [], [], []⟩

def clasicoRow (feed : String) (homeScore awayScore : Int) : FeedScore where
  homeTeam := "Barcelona".toList
  awayTeam := "Real Madrid".toList
  matchDate := 0
  homeScore := homeScore
  awayScore := awayScore
  feed := feed.toList

def feedsOnly : Settings := ⟨false, 0⟩

/-- The football clubs meet a week later. -/
def clasicoRows : List FeedScore :=
  [clasicoRow "basketball" 88 91, { clasicoRow "soccer" 2 1 with matchDate := 7 }]

theorem ownSport_clasico :
    (@runSettlementCycle Unicode.ascii clasicoStore feedsOnly clasicoRows
      (hours 17)).1.OwnSport := by
  have only : @due (@voidStale Unicode.ascii clasicoStore (hours 17)) (hours 17) settleDelay =
      [(clasicoPick, clasico, hours 12)] := by decide +kernel
  have apart : @ApartCycle Unicode.ascii clasicoStore feedsOnly clasicoRows (hours 17) := by
    constructor
    · intro row isDue r inside _ near
      rw [only] at isDue
      cases List.mem_singleton.mp isDue
      obtain rfl | other := List.mem_cons.mp inside
      · rfl
      · cases List.mem_singleton.mp other
        obtain same | adjacent := near
        · exact absurd same (by decide)
        · obtain before | after := adjacent
          · exact absurd before (by decide)
          · exact absurd after (by decide)
    · intro row _ r inside
      cases inside
  exact (@ownSport_run Unicode.ascii clasicoStore _ (by decide)).2
    (.single (@Moves.cycle Unicode.ascii _ clasicoStore feedsOnly clasicoRows (hours 17) apart))

/-- The football result is the only row, and the basketball pick is graded from it. -/
theorem ownSport_fails :
    clasicoStore.OwnSport ∧
      ¬ (@runSettlementCycle Unicode.ascii clasicoStore feedsOnly [clasicoRow "soccer" 2 1]
        (hours 17)).1.OwnSport := by
  refine ⟨by decide, fun own => ?_⟩
  have graded : (@runSettlementCycle Unicode.ascii clasicoStore feedsOnly [clasicoRow "soccer" 2 1]
    (hours 17)).1.gradings = [⟨1, "basketball".toList, clasicoRow "soccer" 2 1⟩] := by
      decide +kernel
  have same := own ⟨1, "basketball".toList, clasicoRow "soccer" 2 1⟩ (by rw [graded]; decide)
  exact absurd same (by decide)

end Store
end SharpEvPicks.Settlement
