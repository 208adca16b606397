import SharpEvPicks.Ingestion.JsonCycle
import SharpEvPicks.Pipeline.ValuePipeline
import SharpEvPicks.Python.Calendar
import SharpEvPicks.Python.Lookups

/-! What the poll cycles leave in `LAST_POLL`: the heartbeats of `app/pipeline.py`, and the watchdog
of `app/scheduler.py` that writes them. -/
namespace SharpEvPicks.Pipeline

open Python
open Ingestion.JsonCycle (countPerMarket)

/-- What a pipeline reports of its cycle. -/
structure CycleReport where
  snapshots : List Snapshot := []
  picks : Nat := 0
  matchesFound : Option Int := none
  snapshotsPersisted : Option Nat := none
  volumePicks : Nat := 0
  staleCandidates : Nat := 0
  staleDropRatio : ℚ := 0
  staleDropRatioWarn : ℚ := 1 / 2
  sourceComplete : Bool := true
  completenessReason : Option Str := none
  incompleteFetchRatio : ℚ := 1
  incompleteFetchRatioWarn : ℚ := incompleteFetchRatioWarn

inductive DegradationReason where
  | listedMatchesWithoutOdds | sourceIncomplete | staleDropRatio
  deriving DecidableEq

namespace CycleReport

def listedWithoutOdds (r : CycleReport) : Bool :=
  r.matchesFound.any (· ≠ 0) && r.snapshots.isEmpty

def sourceIncomplete (r : CycleReport) : Bool :=
  !r.sourceComplete && r.incompleteFetchRatioWarn < r.incompleteFetchRatio

def staleStarved (r : CycleReport) : Bool :=
  0 < r.staleCandidates && r.staleDropRatioWarn < r.staleDropRatio

def degradationReasons (r : CycleReport) : List DegradationReason :=
  (if r.listedWithoutOdds then [.listedMatchesWithoutOdds] else []) ++
    (if r.sourceIncomplete then [.sourceIncomplete] else []) ++
      (if r.staleStarved then [.staleDropRatio] else [])

def degraded (r : CycleReport) : Bool := !r.degradationReasons.isEmpty

end CycleReport

/-- The entries of a record that only a reported cycle has. -/
structure Coverage where
  snapshots : Nat
  picks : Nat
  volumePicks : Nat
  matchesFound : Option Int
  perMarket : Dict Str Nat
  snapshotsPersisted : Option Nat
  staleCandidates : Nat
  staleDropRatio : ℚ
  staleDropRatioWarnThreshold : ℚ
  sourceComplete : Bool
  completenessReason : Option Str
  degradationReasons : List DegradationReason

inductive PollState where
  | inProgress | completed | failed
  deriving DecidableEq

/-- The record of a sport. An entry that the record does not have reads as `none`, false or zero. -/
structure Poll where
  startedAt : Option Str := none
  finishedAt : Option Str := none
  heartbeatAt : Option Str := none
  inProgress : Bool := false
  state : Option PollState := none
  failureReason : Option Str := none
  degraded : Bool := false
  consecutiveDegraded : Int := 0
  coverage : Option Coverage := none

/-- `LAST_POLL`. -/
abbrev Polls := Dict Str Poll

/-- `_prior_consecutive_degraded`. -/
def priorConsecutiveDegraded (poll : Option Poll) : Int :=
  max 0 ((poll.map Poll.consecutiveDegraded).getD 0)

/-! The records that take the place of a sport's last one. -/

def startedPoll (now : Int) (prior : Option Poll) : Poll :=
  { prior.getD {} with
    startedAt := some (isoformat now), heartbeatAt := some (isoformat now), inProgress := true
    state := some .inProgress, failureReason := none }

def finishedPoll (now : Int) (prior : Option Poll) : Poll :=
  { prior.getD {} with
    finishedAt := some (isoformat now), heartbeatAt := some (isoformat now), inProgress := false
    state := some .completed, failureReason := none, degraded := false, consecutiveDegraded := 0 }

def failedPoll (now : Int) (reason : Str) (prior : Option Poll) : Poll :=
  { prior.getD {} with
    finishedAt := some (isoformat now), heartbeatAt := some (isoformat now), inProgress := false
    state := some .failed, failureReason := some reason, degraded := true
    consecutiveDegraded := priorConsecutiveDegraded prior + 1 }

def reportedPoll (now : Int) (r : CycleReport) (prior : Option Poll) : Poll where
  startedAt := prior.bind Poll.startedAt
  finishedAt := some (isoformat now)
  heartbeatAt := some (isoformat now)
  state := some .completed
  degraded := r.degraded
  consecutiveDegraded := if r.degraded then priorConsecutiveDegraded prior + 1 else 0
  coverage := some
    { snapshots := r.snapshots.length
      picks := r.picks
      volumePicks := r.volumePicks
      matchesFound := r.matchesFound
      perMarket := countPerMarket r.snapshots
      snapshotsPersisted := r.snapshotsPersisted
      staleCandidates := r.staleCandidates
      staleDropRatio := r.staleDropRatio
      staleDropRatioWarnThreshold := r.staleDropRatioWarn
      sourceComplete := r.sourceComplete
      completenessReason := if r.sourceComplete then none else r.completenessReason
      degradationReasons := r.degradationReasons }

/-- `record_poll_started`. -/
def recordPollStarted (polls : Polls) (sport : Str) (now : Int) : Polls :=
  polls.modify sport (startedPoll now)

/-- `record_poll_finished`. -/
def recordPollFinished (polls : Polls) (sport : Str) (now : Int) : Polls :=
  polls.modify sport (finishedPoll now)

/-- `record_poll_failure`. -/
def recordPollFailure (polls : Polls) (sport : Str) (now : Int) (reason : Str) : Polls :=
  polls.modify sport (failedPoll now reason)

/-- `_record_poll`. -/
def recordPoll (polls : Polls) (sport : Str) (now : Int) (r : CycleReport) : Polls :=
  polls.modify sport (reportedPoll now r)

/-! `run_sport_cycle_guarded`, one write at a time. -/

/-- What a guarded cycle does to the records: it starts, its pipeline reports, and it ends by the
budget, by an exception of a type or by itself. -/
inductive Phase where
  | started
  | reported (r : CycleReport)
  | timedOut
  | raised (type : Str)
  | returned

structure Beat where
  sport : Str
  time : Int
  phase : Phase

def timeoutReason : Str := "timeout".toList

/-- The write of a phase. A cycle that returns without a report closes the heartbeat that it opened.
-/
def Beat.write (polls : Polls) (b : Beat) : Polls :=
  match b.phase with
  | .started => recordPollStarted polls b.sport b.time
  | .reported r => recordPoll polls b.sport b.time r
  | .timedOut => recordPollFailure polls b.sport b.time timeoutReason
  | .raised type => recordPollFailure polls b.sport b.time type
  | .returned =>
    if ((polls.get? b.sport).map Poll.inProgress).getD false then
      recordPollFinished polls b.sport b.time else polls

/-- `LAST_POLL` after the cycles of a process, their writes in the order of the list. -/
def lastPoll (beats : List Beat) : Polls := beats.foldl Beat.write .empty

/-! What happened to a sport, and the record that shows it. -/

inductive Ending where
  | clean | incomplete | failed
  deriving DecidableEq

/-- Since when a cycle of the sport runs, and the cycles that ended, the latest first. -/
structure SportLog where
  running : Option Int := none
  endings : List (Int × Ending) := []

namespace SportLog

def ends (log : SportLog) (t : Int) (ending : Ending) : SportLog :=
  ⟨none, (t, ending) :: log.endings⟩

def note (log : SportLog) (b : Beat) : SportLog :=
  match b.phase with
  | .started => { log with running := some b.time }
  | .reported r => log.ends b.time (if r.degraded then .incomplete else .clean)
  | .timedOut | .raised _ => log.ends b.time .failed
  | .returned => if log.running.isSome then log.ends b.time .clean else log

def last (log : SportLog) : Option (Int × Ending) := log.endings.head?

/-- How many cycles have ended since the last clean one. -/
def streak (log : SportLog) : Nat := (log.endings.takeWhile fun e => e.2 ≠ .clean).length

def Known (log : SportLog) : Prop := log.running.isSome ∨ log.endings ≠ []

end SportLog

def sportLog (beats : List Beat) (sport : Str) : SportLog :=
  (beats.filter fun b => b.sport = sport).foldl SportLog.note {}

structure Shows (log : SportLog) (poll : Poll) : Prop where
  inProgress : poll.inProgress = log.running.isSome
  startedAt : ∀ t ∈ log.running, poll.startedAt = some (isoformat t) ∧
    poll.state = some .inProgress
  finishedAt : poll.finishedAt = log.last.map fun e => isoformat e.1
  degraded : poll.degraded = log.last.any fun e => e.2 ≠ .clean
  state : log.running = none →
    ∀ e ∈ log.last, poll.state = some (if e.2 = .failed then .failed else .completed)
  consecutive : poll.consecutiveDegraded = log.streak

/-- The sport has a record when something has happened to it. -/
structure Kept (log : SportLog) (poll : Option Poll) : Prop where
  known : poll.isSome ↔ log.Known
  shows_ : Shows log (poll.getD {})

/-- What a beat makes of the record of its own sport. -/
def Beat.update (prior : Option Poll) (b : Beat) : Option Poll :=
  match b.phase with
  | .started => some (startedPoll b.time prior)
  | .reported r => some (reportedPoll b.time r prior)
  | .timedOut => some (failedPoll b.time timeoutReason prior)
  | .raised type => some (failedPoll b.time type prior)
  | .returned => if (prior.map Poll.inProgress).getD false then some
      (finishedPoll b.time prior) else prior

theorem get?_write (polls : Polls) (b : Beat) (sport : Str) :
    (b.write polls).get? sport = if b.sport = sport then b.update (polls.get? sport)
      else polls.get? sport := by
  obtain ⟨own, time, phase⟩ := b
  have placed (f : Option Poll → Poll) :
      (polls.modify own f).get? sport = if own = sport then some (f (polls.get? sport))
        else polls.get? sport := by
    rw [Dict.get?_modify]
    by_cases same : own = sport
    · rw [if_pos same, if_pos same.symm, same]
    · rw [if_neg same, if_neg fun back => same back.symm]
  cases phase with
  | returned =>
    simp only [Beat.write, Beat.update, recordPollFinished]
    by_cases same : own = sport
    · subst same
      split
      · rw [placed]
      · rw [if_pos rfl]
    · rw [if_neg same]
      split
      · rw [placed, if_neg same]
      · rfl
  | _ => exact placed _

namespace Kept
variable {log : SportLog} {poll : Option Poll}

theorem prior_eq (kept : Kept log poll) : priorConsecutiveDegraded poll = log.streak := by
  have count := kept.shows_.consecutive
  unfold priorConsecutiveDegraded
  cases poll with
  | none =>
    have zero : (0 : Int) = log.streak := count
    rw [← zero]
    rfl
  | some poll =>
    have same : poll.consecutiveDegraded = log.streak := count
    simp [same]

theorem inProgress_eq (kept : Kept log poll) :
    (poll.map Poll.inProgress).getD false = log.running.isSome := by
  rw [← kept.shows_.inProgress]
  cases poll <;> rfl

theorem ended (kept : Kept log poll) (t : Int) (ending : Ending) {next : Poll}
    (idle : next.inProgress = false) (stamped : next.finishedAt = some (isoformat t))
    (bad : next.degraded = decide (ending ≠ .clean))
    (state : next.state = some (if ending = .failed then .failed else .completed))
    (count : next.consecutiveDegraded = if ending = .clean then 0
      else priorConsecutiveDegraded poll + 1) :
    Kept (log.ends t ending) (some next) where
  known := iff_of_true rfl (.inr (List.cons_ne_nil _ _))
  shows_ := by
    refine ⟨idle, nofun, stamped, bad, fun _ e last => ?_, ?_⟩
    · cases last
      exact state
    · rw [kept.prior_eq] at count
      cases ending <;> simp [count, SportLog.streak, SportLog.ends]

theorem update (kept : Kept log poll) (b : Beat) : Kept (log.note b) (b.update poll) := by
  obtain ⟨own, time, phase⟩ := b
  cases phase with
  | started =>
    have prior := kept.shows_
    exact ⟨iff_of_true rfl (.inl rfl), rfl,
      fun t now => by cases now; exact ⟨rfl, rfl⟩, prior.finishedAt,
      prior.degraded, nofun, prior.consecutive⟩
  | reported r =>
    cases bad : r.degraded <;> refine kept.ended time _ rfl rfl ?_ ?_ ?_ <;>
      simp [reportedPoll, bad]
  | timedOut => exact kept.ended time .failed rfl rfl rfl rfl rfl
  | raised type => exact kept.ended time .failed rfl rfl rfl rfl rfl
  | returned =>
    simp only [SportLog.note, Beat.update, kept.inProgress_eq]
    split
    · exact kept.ended time .clean rfl rfl rfl rfl rfl
    · exact kept

end Kept

/-- After any run, the record of each sport shows its log. -/
theorem lastPoll_kept (beats : List Beat) (sport : Str) :
    Kept (sportLog beats sport) ((lastPoll beats).get? sport) := by
  have own : (lastPoll beats).get? sport =
      (beats.filter fun b => b.sport = sport).foldl Beat.update none :=
    Dict.get?_foldl_own (fun polls b => get?_write polls b sport) beats .empty
  rw [own]
  unfold sportLog
  generalize beats.filter (fun b => b.sport = sport) = mine
  induction mine using List.reverseRecOn with
  | nil => exact ⟨iff_of_false Bool.false_ne_true (by simp [SportLog.Known]), rfl, nofun, rfl,
      rfl, nofun, rfl⟩
  | append_singleton mine b ih =>
    rw [List.foldl_concat, List.foldl_concat]
    exact ih.update b

/-- What holds of the time of every beat holds of the times in the log. -/
theorem sportLog_times {good : Int → Prop} {beats : List Beat}
    (all : ∀ b ∈ beats, good b.time) (sport : Str) :
    (∀ t ∈ (sportLog beats sport).running, good t) ∧ ∀ e ∈ (sportLog beats sport).endings,
      good e.1 := by
  have mine : ∀ b ∈ beats.filter (fun b => b.sport = sport), good b.time := fun b inside =>
    all b (List.mem_of_mem_filter inside)
  unfold sportLog
  revert mine
  generalize beats.filter (fun b => b.sport = sport) = mine
  induction mine using List.reverseRecOn with
  | nil => exact fun _ => ⟨nofun, nofun⟩
  | append_singleton mine b ih =>
    intro each
    obtain ⟨running, endings⟩ := ih fun b inside => each b (List.mem_append_left _ inside)
    have here : good b.time := each b (List.mem_append_right _ (List.mem_singleton_self b))
    have ends (ending : Ending) :
        ∀ e ∈ (b.time, ending) :: (mine.foldl SportLog.note {}).endings, good e.1 :=
      List.forall_mem_cons.mpr ⟨here, endings⟩
    rw [List.foldl_concat]
    unfold SportLog.note
    split
    · exact ⟨fun t now => by cases now; exact here, endings⟩
    · exact ⟨nofun, ends _⟩
    · exact ⟨nofun, ends _⟩
    · exact ⟨nofun, ends _⟩
    · split
      · exact ⟨nofun, ends _⟩
      · exact ⟨running, endings⟩

theorem SportLog.Known.note {log : SportLog} (known : log.Known) (b : Beat) :
    (log.note b).Known := by
  unfold SportLog.note
  split
  · exact .inl rfl
  · exact .inr (List.cons_ne_nil _ _)
  · exact .inr (List.cons_ne_nil _ _)
  · exact .inr (List.cons_ne_nil _ _)
  · split
    · exact .inr (List.cons_ne_nil _ _)
    · exact known

theorem known_of_started {beats : List Beat} {b : Beat} (inside : b ∈ beats)
    (started : b.phase = .started) : (sportLog beats b.sport).Known := by
  have mine : b ∈ beats.filter fun other => other.sport = b.sport :=
    List.mem_filter.mpr ⟨inside, by simp⟩
  unfold sportLog
  obtain ⟨before, after, split_⟩ := List.append_of_mem mine
  rw [split_, List.foldl_append, List.foldl_cons]
  clear split_
  have here : ((before.foldl SportLog.note {}).note b).Known := by
    unfold SportLog.note
    rw [started]
    exact .inl rfl
  induction after using List.reverseRecOn with
  | nil => exact here
  | append_singleton after next ih =>
    rw [List.foldl_concat]
    exact ih.note next

end SharpEvPicks.Pipeline
