import SharpEvPicks.Pipeline.Heartbeats
import SharpEvPicks.Python.Json

/-! Liveness by the records of the polls, `_poll_health` of `app/api/routes.py`. -/
namespace SharpEvPicks.Api

open Python Pipeline

def healthMaxPollAgeMultiplier : Int := 3

def healthFallbackCycleBudgetSeconds : ℚ := 900

def healthMaxCycleBudgetSeconds : ℚ := 7200

def healthMaxExpectedSports : Int := 16

def healthConsecutiveDegradedThreshold : Int := 3

instance (t : Int) : Decidable (InCalendar t) := inferInstanceAs (Decidable (_ ∧ _))

/-- `(now - t).total_seconds()`. -/
def elapsed (now t : Int) : ℚ := (now - t : Int) / 1000000

/-- What the settings say of a sweep over the sports. -/
structure Sweep where
  pollIntervalSeconds : Int
  expectedSportCount : Int := 1
  cycleTimeoutSeconds : Int := 900
  maxAgeMultiplier : Int := healthMaxPollAgeMultiplier

namespace Sweep
variable (s : Sweep)

/-- `_bounded_cycle_budget`. -/
def boundedCycleBudget : ℚ :=
  let configured : ℚ := s.cycleTimeoutSeconds
  min
    (if configured ≤ 0 then
      max healthFallbackCycleBudgetSeconds
        (healthMaxPollAgeMultiplier * s.pollIntervalSeconds : Int)
    else configured)
    healthMaxCycleBudgetSeconds

/-- `_poll_freshness_ceiling`. -/
def pollFreshnessCeiling : ℚ :=
  let sportCount := min (max 1 s.expectedSportCount) healthMaxExpectedSports
  max (healthMaxPollAgeMultiplier * s.pollIntervalSeconds : Int) (sportCount * s.boundedCycleBudget)

def ceiling : ℚ := max (s.maxAgeMultiplier * s.pollIntervalSeconds : Int) s.pollFreshnessCeiling

end Sweep

inductive PollReason where
  | invalidStartedAt | futureStartedAt | activeCycleDegraded | activeCyclePriorDegraded
  | invalidFinishedAt | futureFinishedAt | staleCycle | degradedCycle | failedCycle
  deriving DecidableEq

/-- `_SOFT_DEGRADED_POLL_REASONS`. -/
def softDegradedPollReasons : List PollReason := [.degradedCycle, .activeCyclePriorDegraded]

/-- `_is_soft_degraded_reason`. -/
def isSoftDegradedReason (reason : Option PollReason) : Bool :=
  reason.any (· ∈ softDegradedPollReasons)

/-- The reasons that are hard at once. -/
def isInvalid : PollReason → Bool
  | .invalidStartedAt | .futureStartedAt | .invalidFinishedAt | .futureFinishedAt => true
  | _ => false

/-- An entry of the breakdown by sport. -/
structure SportHealth where
  degraded : Bool
  consecutiveDegraded : Int
  reason : Option PollReason
  deriving DecidableEq

/-- A sport's part in `hard_degraded`. -/
def SportHealth.hard (h : SportHealth) : Bool :=
  h.reason.any isInvalid ||
    (h.degraded && healthConsecutiveDegradedThreshold ≤ h.consecutiveDegraded &&
      !isSoftDegradedReason h.reason)

inductive HealthStatus where
  | ok | partly | degraded
  deriving DecidableEq

structure Health where
  status : HealthStatus
  http : Nat
  newestPollAgeSeconds : Option ℚ
  breakdown : Dict Str SportHealth

section
variable [Readers]

/-- `_parse_poll_finish`: a text with an offset, at an instant of the calendar. -/
def parsePollFinish (raw : Option Str) : Option Int :=
  (raw.bind Readers.fromisoformat).bind fun time =>
    (time.offset.map fun offset => time.fields - offset).filter fun t => InCalendar t

/-- `_newest_poll_finish`. -/
def newestPollFinish (polls : Polls) : Option Int :=
  polls.values.foldl (fun newest poll =>
    match parsePollFinish poll.finishedAt with
    | none => newest
    | some parsed => if newest.all (· < parsed) then some parsed else newest) none

/-- The reason of a degraded sport. -/
def pollReason (now : Int) (s : Sweep) (poll : Poll) : Option PollReason :=
  if poll.inProgress then
    match parsePollFinish poll.startedAt with
    | none => some .invalidStartedAt
    | some started =>
      if elapsed now started < -60 then some .futureStartedAt
      else if s.boundedCycleBudget < elapsed now started ∨ poll.state = some .failed then
        some .activeCycleDegraded
      else if poll.degraded then some .activeCyclePriorDegraded
      else none
  else
    match parsePollFinish poll.finishedAt with
    | none => some .invalidFinishedAt
    | some finished =>
      if elapsed now finished < -60 then some .futureFinishedAt
      else if s.ceiling < elapsed now finished then some .staleCycle
      else if poll.degraded then
        some (if poll.state = some .completed then .degradedCycle else .failedCycle)
      else none

/-- The pass over a sport; `_poll_consecutive_degraded` is never below zero. -/
def sportHealth (now : Int) (s : Sweep) (poll : Poll) : SportHealth where
  degraded := (pollReason now s poll).isSome
  consecutiveDegraded := max 0 poll.consecutiveDegraded
  reason := pollReason now s poll

/-- `_poll_health`. -/
def pollHealth (polls : Polls) (now : Int) (s : Sweep) : Health :=
  if polls.entries = [] then ⟨.ok, 200, none, .empty⟩
  else
    let newest := newestPollFinish polls
    let breakdown := polls.mapValues fun _ poll => sportHealth now s poll
    let degradedSports := breakdown.values.countP SportHealth.degraded
    let allSoft := breakdown.values.all fun h => !h.degraded || isSoftDegradedReason h.reason
    let newestIsFresh := newest.any fun t => elapsed now t ≤ s.ceiling
    let hardDegraded := breakdown.values.any SportHealth.hard ||
      (0 < degradedSports && degradedSports = breakdown.values.length &&
        !(allSoft && newestIsFresh))
    match newest with
    | none =>
      if polls.values.any Poll.inProgress && !hardDegraded && degradedSports = 0 then
        ⟨.ok, 200, none, breakdown⟩
      else ⟨.degraded, 503, none, breakdown⟩
    | some t =>
      if hardDegraded then ⟨.degraded, 503, some (elapsed now t), breakdown⟩
      else if 0 < degradedSports then ⟨.partly, 200, some (elapsed now t), breakdown⟩
      else ⟨.ok, 200, some (elapsed now t), breakdown⟩

end

/-! The verdict by what happened to each sport. -/

/-- The last cycle that ended was not a clean one. -/
def Wanting (log : SportLog) : Prop := ∃ e ∈ log.last, e.2 ≠ .clean

/-- A cycle outlives its budget; or none runs, and the last one failed or is out of date. -/
def Starved (now : Int) (s : Sweep) (log : SportLog) : Prop :=
  (∃ t ∈ log.running, s.boundedCycleBudget < elapsed now t) ∨
    log.running = none ∧ ∃ e ∈ log.last, s.ceiling < elapsed now e.1 ∨ e.2 = .failed

def Ailing (now : Int) (s : Sweep) (log : SportLog) : Prop := Starved now s log ∨ Wanting log

/-- When the service reads as down: a sport starves in its third bad cycle in a row, or before any
cycle has ended, or all sports ail and one of them starves or nothing has ended in time. -/
def Pages (now : Int) (s : Sweep) (logs : Str → SportLog) : Prop :=
  (∃ sport, Starved now s (logs sport) ∧ 3 ≤ (logs sport).streak) ∨
    ((∃ sport, Starved now s (logs sport)) ∧ ∀ sport, (logs sport).last = none) ∨
      (∃ sport, Ailing now s (logs sport)) ∧
        (∀ sport, (logs sport).Known → Ailing now s (logs sport)) ∧
        ((∃ sport, Starved now s (logs sport)) ∨
          ∀ sport, ∀ e ∈ (logs sport).last, s.ceiling < elapsed now e.1)

section
variable {now t : Int} {s : Sweep} {log : SportLog} {poll : Poll}

theorem degraded_iff (shown : Shows log poll) : poll.degraded = true ↔ Wanting log := by
  rw [shown.degraded]
  unfold Wanting
  cases log.last <;> simp

/-- What the reason of a sport says of its log. -/
structure Tells (now : Int) (s : Sweep) (log : SportLog) (reason : Option PollReason) : Prop where
  valid : reason.any isInvalid = false
  degraded : reason.isSome ↔ Ailing now s log
  soft : isSoftDegradedReason reason = true ↔ Ailing now s log ∧ ¬ Starved now s log

theorem Tells.starved {x : PollReason} (valid : isInvalid x = false)
    (hard : isSoftDegradedReason (some x) = false) (starved : Starved now s log) :
      Tells now s log (some x) :=
  ⟨valid, iff_of_true rfl (.inl starved),
    iff_of_false (by rw [hard]; exact Bool.false_ne_true) fun both => both.2 starved⟩

theorem Tells.wanting {x : PollReason} (valid : isInvalid x = false)
    (soft : isSoftDegradedReason (some x) = true) (wanting : Wanting log)
    (fed : ¬ Starved now s log) : Tells now s log (some x) :=
  ⟨valid, iff_of_true rfl (.inr wanting), iff_of_true soft ⟨.inr wanting, fed⟩⟩

theorem Tells.well (content : ¬ Wanting log) (fed : ¬ Starved now s log) : Tells now s log none :=
  ⟨rfl, iff_of_false Bool.false_ne_true (not_or.mpr ⟨fed, content⟩),
    iff_of_false Bool.false_ne_true fun both => both.1.elim fed content⟩

variable [Readers]

/-- A stamp that is read back, and not from the future. -/
structure Legible (now t : Int) : Prop where
  dated : InCalendar t
  back : Readers.fromisoformat (isoformat t) = some ⟨t, some 0⟩
  timely : t ≤ now + seconds 60

theorem Legible.parsed (legible : Legible now t) :
    parsePollFinish (some (isoformat t)) = some t := by
  simp [parsePollFinish, legible.back, legible.dated]

theorem Legible.present (legible : Legible now t) : ¬ elapsed now t < -60 := by
  have late : -60000000 ≤ now - t := by
    have timely := legible.timely
    unfold seconds at timely
    omega
  have exact_ : (-60000000 : ℚ) ≤ (now - t : Int) := by exact_mod_cast late
  unfold elapsed
  linarith

omit [Readers] in
theorem elapsed_le {u : Int} (earlier : u ≤ t) : elapsed now t ≤ elapsed now u := by
  have less : ((now - t : Int) : ℚ) ≤ (now - u : Int) := by
    exact_mod_cast sub_le_sub_left earlier now
  unfold elapsed
  linarith

/-- The times of the log can be read. -/
structure Timed (now : Int) (log : SportLog) : Prop where
  running : ∀ t ∈ log.running, Legible now t
  endings : ∀ e ∈ log.endings, Legible now e.1

theorem Timed.last (timed : Timed now log) : ∀ e ∈ log.last, Legible now e.1 := fun e last =>
  timed.endings e (List.mem_of_head? last)

theorem reason_tells (shown : Shows log poll) (known : log.Known) (timed : Timed now log) :
    Tells now s log (pollReason now s poll) := by
  unfold pollReason
  rw [shown.inProgress]
  cases running : log.running with
  | some t =>
    obtain ⟨started, state⟩ := shown.startedAt t running
    have legible := timed.running t running
    have starved_iff : Starved now s log ↔ s.boundedCycleBudget < elapsed now t := by
      simp [Starved, running]
    rw [Option.isSome_some, if_pos rfl, started, legible.parsed]
    dsimp only
    rw [if_neg legible.present, state]
    by_cases late : s.boundedCycleBudget < elapsed now t
    · rw [if_pos (.inl late)]
      exact .starved rfl rfl (starved_iff.mpr late)
    · have fed : ¬ Starved now s log := fun starved => late (starved_iff.mp starved)
      rw [if_neg (by simp [late])]
      split
      · rename_i bad
        exact .wanting rfl rfl ((degraded_iff shown).mp bad) fed
      · rename_i good
        exact .well (fun wanting => good ((degraded_iff shown).mpr wanting)) fed
  | none =>
    obtain some_ | ended := known
    · rw [running] at some_
      cases some_
    obtain ⟨e, last⟩ : ∃ e, log.last = some e :=
      Option.ne_none_iff_exists'.mp fun none => ended (List.head?_eq_none_iff.mp none)
    have legible := timed.last e last
    have starved_iff : Starved now s log ↔ s.ceiling < elapsed now e.1 ∨ e.2 = .failed := by
      simp [Starved, running, last]
    have wanting_iff : Wanting log ↔ e.2 ≠ .clean := by simp [Wanting, last]
    rw [Option.isSome_none, if_neg Bool.false_ne_true, shown.finishedAt, last]
    dsimp only [Option.map_some]
    rw [legible.parsed]
    dsimp only
    rw [if_neg legible.present, shown.state running e last]
    by_cases late : s.ceiling < elapsed now e.1
    · rw [if_pos late]
      exact .starved rfl rfl (starved_iff.mpr (.inl late))
    · rw [if_neg late]
      have fed_iff : Starved now s log ↔ e.2 = .failed := by rw [starved_iff, or_iff_right late]
      have bad : poll.degraded = decide (e.2 ≠ .clean) := by rw [shown.degraded, last]; rfl
      rw [bad]
      cases ending : e.2 with
      | clean =>
        exact .well (by rw [wanting_iff, ending]; simp) (by rw [fed_iff, ending]; simp)
      | incomplete =>
        exact .wanting rfl rfl (by rw [wanting_iff, ending]; simp) (by rw [fed_iff, ending]; simp)
      | failed => exact .starved rfl rfl (fed_iff.mpr ending)

/-- The health entry of a sport by its log. -/
theorem sportHealth_hard (shown : Shows log poll) (known : log.Known) (timed : Timed now log) :
    (sportHealth now s poll).hard = true ↔ Starved now s log ∧ 3 ≤ log.streak := by
  have tells : Tells now s log (pollReason now s poll) := reason_tells shown known timed
  have count : healthConsecutiveDegradedThreshold ≤ max 0 poll.consecutiveDegraded ↔
      3 ≤ log.streak := by
    rw [shown.consecutive]
    unfold healthConsecutiveDegradedThreshold
    omega
  simp only [SportHealth.hard, sportHealth, tells.valid, Bool.false_or, Bool.and_eq_true,
    decide_eq_true_eq, count, Bool.not_eq_true', tells.degraded, ← Bool.not_eq_true, tells.soft]
  constructor
  · rintro ⟨⟨ailing, enough⟩, hard⟩
    exact ⟨not_not.mp fun fed => hard ⟨ailing, fed⟩, enough⟩
  · rintro ⟨starved, enough⟩
    exact ⟨⟨.inl starved, enough⟩, fun both => both.2 starved⟩

/-! Reading the whole of the records. -/

/-- The latest of some times. -/
structure Newest (times : List Int) (newest : Option Int) : Prop where
  none_iff : newest = none ↔ times = []
  mem : ∀ t ∈ newest, t ∈ times
  le : ∀ t ∈ newest, ∀ u ∈ times, u ≤ t

omit [Readers] in
theorem Newest.concat {times : List Int} {best : Option Int} (newest : Newest times best)
    (t : Int) : Newest (times ++ [t]) (if best.all (· < t) then some t else best) := by
  split
  · rename_i later
    refine ⟨iff_of_false nofun (by simp),
      fun u same => by cases same; simp, fun u same v inside => ?_⟩
    cases same
    obtain before | here := List.mem_append.mp inside
    · obtain ⟨last, found⟩ := Option.ne_none_iff_exists'.mp fun none =>
        List.ne_nil_of_mem before (newest.none_iff.mp none)
      rw [found] at later
      exact (newest.le last found v before).trans (le_of_lt (by simpa using later))
    · exact le_of_eq (List.mem_singleton.mp here)
  · rename_i earlier
    cases best with
    | none => exact absurd rfl earlier
    | some last =>
      refine ⟨iff_of_false nofun (by simp),
        fun u same => List.mem_append_left _ (newest.mem u same), fun u same v inside => ?_⟩
      obtain before | here := List.mem_append.mp inside
      · exact newest.le u same v before
      · cases same
        rw [List.mem_singleton.mp here]
        simpa using earlier

theorem newestPollFinish_newest (polls : Polls) :
    Newest (polls.values.filterMap fun poll => parsePollFinish poll.finishedAt)
      (newestPollFinish polls) := by
  unfold newestPollFinish
  generalize polls.values = records
  induction records using List.reverseRecOn with
  | nil => exact ⟨iff_of_true rfl rfl, nofun, nofun⟩
  | append_singleton records poll ih =>
    rw [List.foldl_concat, List.filterMap_append]
    cases parsed : parsePollFinish poll.finishedAt with
    | none => simpa [parsed] using ih
    | some time => simpa [parsed] using ih.concat time

/-- The records are those of the logs, at a time when they can be read. -/
structure Reported (now : Int) (logs : Str → SportLog) (polls : Polls) : Prop where
  kept : ∀ sport, Kept (logs sport) (polls.get? sport)
  timed : ∀ sport, Timed now (logs sport)

omit [Readers] in
theorem Ailing.known (ailing : Ailing now s log) : log.Known := by
  have ended {e : Int × Ending} (last : e ∈ log.last) : log.Known :=
    .inr (List.ne_nil_of_mem (List.mem_of_head? last))
  obtain (⟨t, running, -⟩ | ⟨-, e, last, -⟩) | ⟨e, last, -⟩ := ailing
  · exact .inl (Option.isSome_iff_exists.mpr ⟨t, running⟩)
  · exact ended last
  · exact ended last

namespace Reported
variable {logs : Str → SportLog} {polls : Polls} {sport : Str} {record : Poll}

theorem shown (r : Reported now logs polls) (found : polls.get? sport = some record) :
    Shows (logs sport) record ∧ (logs sport).Known := by
  have kept := r.kept sport
  rw [found] at kept
  exact ⟨kept.shows_, kept.known.mp rfl⟩

/-- What can be told of a sport by its record, for one sport or for all. -/
theorem exists_iff (r : Reported now logs polls) (P : Poll → Prop) (Q : SportLog → Prop)
    (same : ∀ sport record, polls.get? sport = some record → (P record ↔ Q (logs sport)))
    (known : ∀ sport, Q (logs sport) → (logs sport).Known) :
    (∃ record ∈ polls.values, P record) ↔ ∃ sport, Q (logs sport) := by
  constructor
  · rintro ⟨record, inside, holds⟩
    obtain ⟨sport, found⟩ := Dict.mem_values.mp inside
    exact ⟨sport, (same sport record found).mp holds⟩
  · rintro ⟨sport, holds⟩
    obtain ⟨record, found⟩ :=
      Option.isSome_iff_exists.mp ((r.kept sport).known.mpr (known sport holds))
    exact ⟨record, Dict.mem_values.mpr ⟨sport, found⟩, (same sport record found).mpr holds⟩

theorem hard_iff (r : Reported now logs polls) :
    (∃ record ∈ polls.values, (sportHealth now s record).hard = true) ↔
    ∃ sport, Starved now s (logs sport) ∧ 3 ≤ (logs sport).streak :=
  r.exists_iff (fun record => (sportHealth now s record).hard = true)
    (fun log => Starved now s log ∧ 3 ≤ log.streak)
    (fun sport _ found => sportHealth_hard (r.shown found).1 (r.shown found).2 (r.timed sport))
    fun _ both => Ailing.known (.inl both.1)

theorem tells (r : Reported now logs polls) (found : polls.get? sport = some record) :
    Tells now s (logs sport) (pollReason now s record) :=
  reason_tells (r.shown found).1 (r.shown found).2 (r.timed sport)

theorem degraded_iff (r : Reported now logs polls) :
    (∃ record ∈ polls.values, (sportHealth now s record).degraded = true) ↔
    ∃ sport, Ailing now s (logs sport) :=
  r.exists_iff (fun record => (sportHealth now s record).degraded = true) (Ailing now s)
    (fun _ _ found => (r.tells found).degraded) fun _ => Ailing.known

theorem well_iff (r : Reported now logs polls) :
    (∃ record ∈ polls.values, ¬ (sportHealth now s record).degraded = true) ↔
      ∃ sport, (logs sport).Known ∧ ¬ Ailing now s (logs sport) :=
  r.exists_iff (fun record => ¬ (sportHealth now s record).degraded = true)
    (fun log => log.Known ∧ ¬ Ailing now s log)
    (fun sport record found => by
      rw [and_iff_right (r.shown found).2]
      exact not_congr (r.tells found).degraded)
    fun _ => And.left

theorem starved_iff (r : Reported now logs polls) :
    (∃ record ∈ polls.values, (sportHealth now s record).degraded = true ∧
      ¬ isSoftDegradedReason (sportHealth now s record).reason = true) ↔
      ∃ sport, Starved now s (logs sport) := by
  refine r.exists_iff (fun record => (sportHealth now s record).degraded = true ∧
    ¬ isSoftDegradedReason (sportHealth now s record).reason = true) (Starved now s)
    (fun sport record found => ?_) fun _ starved => Ailing.known (.inl starved)
  have told := r.tells (s := s) found
  simp only [sportHealth, told.degraded, told.soft]
  exact ⟨fun both => not_not.mp fun fed => both.2 ⟨both.1, fed⟩,
    fun starved => ⟨.inl starved, fun both => both.2 starved⟩⟩

theorem finished (r : Reported now logs polls) (found : polls.get? sport = some record) :
    parsePollFinish record.finishedAt = (logs sport).last.map Prod.fst := by
  rw [(r.shown found).1.finishedAt]
  cases last : (logs sport).last with
  | none => rfl
  | some e => exact ((r.timed sport).last e last).parsed

theorem mem_times (r : Reported now logs polls) {t : Int} :
    t ∈ polls.values.filterMap (fun record => parsePollFinish record.finishedAt) ↔
      ∃ sport, ∃ e ∈ (logs sport).last, e.1 = t := by
  rw [List.mem_filterMap]
  refine r.exists_iff (fun record => parsePollFinish record.finishedAt = some t)
    (fun log => ∃ e ∈ log.last, e.1 = t) (fun sport record found => ?_) fun sport last => ?_
  · rw [r.finished found, Option.map_eq_some_iff]
    exact Iff.rfl
  · obtain ⟨e, last, -⟩ := last
    exact .inr (List.ne_nil_of_mem (List.mem_of_head? last))

end Reported

namespace Reported
variable {logs : Str → SportLog} {polls : Polls}

theorem newest_none_iff (r : Reported now logs polls) : newestPollFinish polls = none ↔
    ∀ sport, (logs sport).last = none := by
  rw [(newestPollFinish_newest polls).none_iff, List.eq_nil_iff_forall_not_mem]
  constructor
  · intro none sport
    by_contra some_
    obtain ⟨e, last⟩ := Option.ne_none_iff_exists'.mp some_
    exact none e.1 (r.mem_times.mpr ⟨sport, e, last, rfl⟩)
  · intro none t inside
    obtain ⟨sport, e, last, -⟩ := r.mem_times.mp inside
    rw [none sport] at last
    cases last

/-- The newest end is out of date when all of them are. -/
theorem stale_iff (r : Reported now logs polls) :
    ((newestPollFinish polls).any fun t => elapsed now t ≤ s.ceiling) = false ↔
      ∀ sport, ∀ e ∈ (logs sport).last, s.ceiling < elapsed now e.1 := by
  have newest := newestPollFinish_newest polls
  constructor
  · intro stale sport e last
    have inside := r.mem_times.mpr ⟨sport, e, last, rfl⟩
    obtain ⟨t, found⟩ :=
      Option.ne_none_iff_exists'.mp fun none => List.ne_nil_of_mem inside (newest.none_iff.mp none)
    rw [found] at stale
    have old : s.ceiling < elapsed now t := by simpa using stale
    exact old.trans_le (elapsed_le (newest.le t found e.1 inside))
  · intro all
    cases found : newestPollFinish polls with
    | none => rfl
    | some t =>
      obtain ⟨sport, e, last, rfl⟩ := r.mem_times.mp (newest.mem t found)
      simpa using all sport e last

/-- The health verdict for the records of any logs. -/
theorem verdict (r : Reported now logs polls) (s : Sweep) :
    ((pollHealth polls now s).http = 503 ↔ Pages now s logs) ∧
    ((pollHealth polls now s).status = .ok ↔ ∀ sport, ¬ Ailing now s (logs sport)) := by
  have ailing_of_streak : (∃ sport, Starved now s (logs sport) ∧ 3 ≤ (logs sport).streak) →
      ∃ sport, Ailing now s (logs sport) :=
    fun ⟨sport, starved, _⟩ => ⟨sport, .inl starved⟩
  have values (f : Poll → SportHealth) :
      (polls.mapValues fun _ record => f record).values = polls.values.map f := by
    simp [Dict.values, Dict.mapValues, Function.comp_def]
  have hard : (polls.values.map (sportHealth now s)).any SportHealth.hard = true ↔
      ∃ sport, Starved now s (logs sport) ∧ 3 ≤ (logs sport).streak := by
    rw [List.any_map, List.any_eq_true]
    exact r.hard_iff
  have some_degraded : 0 < (polls.values.map (sportHealth now s)).countP SportHealth.degraded ↔
      ∃ sport, Ailing now s (logs sport) := by
    rw [List.countP_map, List.countP_pos_iff]
    exact r.degraded_iff
  have all_degraded : (polls.values.map (sportHealth now s)).countP SportHealth.degraded =
      (polls.values.map (sportHealth now s)).length ↔ ∀ sport, (logs sport).Known →
        Ailing now s (logs sport) := by
    rw [List.countP_eq_length, List.forall_mem_map, ← not_iff_not]
    push Not
    exact r.well_iff
  have all_soft : ((polls.values.map (sportHealth now s)).all fun h => !h.degraded ||
      isSoftDegradedReason h.reason) = false ↔ ∃ sport, Starved now s (logs sport) := by
    rw [List.all_eq_false, ← r.starved_iff]
    simp
  have stale := r.stale_iff (s := s)
  have none_iff := r.newest_none_iff
  -- Before any cycle has ended, nothing is wanting: what ails is a cycle that outlives its budget.
  have starved_of_none (none : ∀ sport, (logs sport).last = none)
      (some_ : ∃ sport, Ailing now s (logs sport)) :
      ∃ sport, Starved now s (logs sport) := by
    obtain ⟨sport, starved | ⟨e, last, -⟩⟩ := some_
    · exact ⟨sport, starved⟩
    · rw [none sport] at last
      cases last
  have ailing_of_pages : Pages now s logs → ∃ sport, Ailing now s (logs sport) := by
    rintro (⟨sport, starved, -⟩ | ⟨⟨sport, starved⟩, -⟩ | ⟨some_, -⟩)
    · exact ⟨sport, .inl starved⟩
    · exact ⟨sport, .inl starved⟩
    · exact some_
  unfold pollHealth
  by_cases empty : polls.entries = []
  · have well : ¬ ∃ sport, Ailing now s (logs sport) := by
      rw [← some_degraded]
      simp [Dict.values, empty]
    rw [if_pos empty]
    exact ⟨iff_of_false (by decide) fun pages => well (ailing_of_pages pages),
      iff_of_true rfl (not_exists.mp well)⟩
  have active (none : ∀ sport, (logs sport).last = none) :
      polls.values.any Poll.inProgress = true := by
    obtain ⟨⟨sport, record⟩, inside⟩ := List.exists_mem_of_ne_nil _ empty
    have found : polls.get? sport = some record := Dict.get?_eq_some_iff.mpr inside
    obtain ⟨shown, running | ended⟩ := r.shown found
    · exact List.any_eq_true.mpr ⟨record, Dict.mem_values.mpr ⟨sport, found⟩, by
        rw [shown.inProgress, running]⟩
    · exact absurd (List.head?_eq_none_iff.mp (none sport)) ended
  rw [if_neg empty]
  simp only [values]
  generalize (polls.values.map (sportHealth now s)).any SportHealth.hard = anyHard at hard ⊢
  generalize (polls.values.map (sportHealth now s)).countP SportHealth.degraded =
    count at some_degraded all_degraded ⊢
  generalize ((polls.values.map (sportHealth now s)).all fun h => !h.degraded ||
    isSoftDegradedReason h.reason) = allSoft at all_soft ⊢
  cases found : newestPollFinish polls with
  | none =>
    have none := none_iff.mp found
    have pages_iff : Pages now s logs ↔ ∃ sport, Ailing now s (logs sport) :=
      ⟨ailing_of_pages, fun some_ => .inr (.inl ⟨starved_of_none none some_, none⟩)⟩
    rw [pages_iff, ← not_exists, ← some_degraded, active none]
    dsimp only
    by_cases some_ : 0 < count
    · have positive : ¬ count = 0 := some_.ne'
      simp [positive, some_]
    · have quiet : anyHard = false := by
        rw [← Bool.not_eq_true, hard]
        exact fun streak => some_ (some_degraded.mpr (ailing_of_streak streak))
      have zero : count = 0 := Nat.eq_zero_of_not_pos some_
      simp [zero, quiet]
  | some t =>
    rw [found] at stale
    have ended : ¬ ∀ sport, (logs sport).last = none := fun none => by
      rw [none_iff.mpr none] at found
      cases found
    have pages_iff : Pages now s logs ↔ anyHard = true ∨ 0 < count ∧
        count = (polls.values.map (sportHealth now s)).length ∧
          (allSoft = false ∨ ((some t).any fun t => elapsed now t ≤ s.ceiling) = false) := by
      rw [hard, some_degraded, all_degraded, all_soft, stale]
      unfold Pages
      rw [or_iff_right (a := _ ∧ ∀ sport, (logs sport).last = none) fun both => ended both.2]
    rw [pages_iff, ← not_exists, ← some_degraded]
    generalize ((some t).any fun t => elapsed now t ≤ s.ceiling) = fresh
    generalize (polls.values.map (sportHealth now s)).length = total
    dsimp only
    have hard_iff : (anyHard || (0 < count && count = total && !(allSoft && fresh))) = true ↔
        anyHard = true ∨ 0 < count ∧ count = total ∧ (allSoft = false ∨ fresh = false) := by
      cases allSoft <;> cases fresh <;> simp
    rw [← hard_iff]
    split
    · rename_i down
      refine ⟨iff_of_true rfl down, iff_of_false (by simp) (not_not.mpr ?_)⟩
      obtain streak | ⟨some_, -⟩ := hard_iff.mp down
      · exact some_degraded.mpr (ailing_of_streak (hard.mp streak))
      · exact some_
    · rename_i up
      split
      · rename_i some_
        exact ⟨iff_of_false (by simp) up, iff_of_false (by simp) (not_not.mpr some_)⟩
      · rename_i none
        exact ⟨iff_of_false (by simp) up, iff_of_true rfl none⟩

end Reported

theorem reported {beats : List Beat} (read : ∀ b ∈ beats, Legible now b.time) :
    Reported now (sportLog beats) (lastPoll beats) where
  kept := lastPoll_kept beats
  timed sport := ⟨(sportLog_times read sport).1, (sportLog_times read sport).2⟩

/-- After any run of polls, whatever the order of the sports in it, the service reads as down
exactly when what happened to the sports asks for it, and as healthy exactly when no sport ails. -/
theorem health_exact {beats : List Beat} (read : ∀ b ∈ beats, Legible now b.time) (s : Sweep) :
    ((pollHealth (lastPoll beats) now s).http = 503 ↔ Pages now s (sportLog beats)) ∧
      ((pollHealth (lastPoll beats) now s).status = .ok ↔ ∀ sport,
        ¬ Ailing now s (sportLog beats sport)) :=
  (reported read).verdict s

omit [Readers] in
theorem Sweep.budget_pos (s : Sweep) : 0 < s.boundedCycleBudget := by
  unfold Sweep.boundedCycleBudget healthFallbackCycleBudgetSeconds healthMaxCycleBudgetSeconds
  refine lt_min ?_ (by norm_num)
  split
  · exact lt_max_of_lt_left (by norm_num)
  · rename_i positive
    exact not_le.mp positive

omit [Readers] in
/-- A sweep has at least the budget of one cycle. -/
theorem Sweep.budget_le_ceiling (s : Sweep) : s.boundedCycleBudget ≤ s.ceiling := by
  have sports : (1 : Int) ≤ min (max 1 s.expectedSportCount) healthMaxExpectedSports :=
    le_min (le_max_left _ _) (by decide)
  have sports' : (1 : ℚ) ≤
      (min (max 1 s.expectedSportCount) healthMaxExpectedSports : Int) := by
    exact_mod_cast sports
  calc s.boundedCycleBudget = 1 * s.boundedCycleBudget := (one_mul _).symm
    _ ≤ (min (max 1 s.expectedSportCount) healthMaxExpectedSports : Int) * s.boundedCycleBudget :=
      mul_le_mul_of_nonneg_right sports' s.budget_pos.le
    _ ≤ s.pollFreshnessCeiling := le_max_right _ _
    _ ≤ s.ceiling := le_max_right _ _

/-- Whatever the polls have done: when none of them has written for longer than the ceiling, the
service reads as down. -/
theorem silence_pages {beats : List Beat} (begun : ∃ b ∈ beats, b.phase = .started)
    (read : ∀ b ∈ beats,
      InCalendar b.time ∧ Readers.fromisoformat (isoformat b.time) = some ⟨b.time, some 0⟩)
    (s : Sweep) (silent : ∀ b ∈ beats, s.ceiling < elapsed now b.time) :
    (pollHealth (lastPoll beats) now s).http = 503 := by
  have legible : ∀ b ∈ beats, Legible now b.time := fun b inside => by
    refine ⟨(read b inside).1, (read b inside).2, ?_⟩
    have old : 0 < elapsed now b.time :=
      s.budget_pos.trans_le (s.budget_le_ceiling.trans (silent b inside).le)
    have past : (0 : ℚ) < (now - b.time : Int) := by
      unfold elapsed at old
      linarith
    have past' : 0 < now - b.time := by exact_mod_cast past
    unfold seconds
    omega
  have starved (sport : Str) (known : (sportLog beats sport).Known) :
      Starved now s (sportLog beats sport) := by
    have times : (∀ t ∈ (sportLog beats sport).running, s.ceiling < elapsed now t) ∧
        ∀ e ∈ (sportLog beats sport).endings, s.ceiling < elapsed now e.1 :=
          sportLog_times silent sport
    obtain ⟨runs, ends⟩ := times
    cases running : (sportLog beats sport).running with
    | some t => exact .inl ⟨t, running, s.budget_le_ceiling.trans_lt (runs t running)⟩
    | none =>
      obtain some_ | ended := known
      · rw [running] at some_
        cases some_
      · obtain ⟨e, last⟩ : ∃ e, (sportLog beats sport).last = some e :=
          Option.ne_none_iff_exists'.mp fun none => ended (List.head?_eq_none_iff.mp none)
        exact .inr ⟨running, e, last, .inl (ends e (List.mem_of_head? last))⟩
  obtain ⟨b, inside, started⟩ := begun
  have first := starved b.sport (known_of_started inside started)
  exact ((health_exact legible s).1).mpr
    (.inr (.inr ⟨⟨b.sport, .inl first⟩, fun sport known => .inl (starved sport known),
      .inl ⟨b.sport, first⟩⟩))

end

/-! A poll that found two matches and no odds. -/

def noon : Int := 1735732800000000

def later : Int := noon + seconds 30

/-- An interpreter that reads the two stamps. -/
@[reducible] def stampReaders : Readers where
  loads _ := .error .notJson
  int _ := none
  float _ := none
  decimal _ := none
  shortest x := x
  nearest n := n
  str _ := []
  fromisoformat s :=
    if s = "2025-01-01T12:00:00+00:00".toList then some ⟨1735732800000000, some 0⟩
    else if s = "2025-01-01T12:00:30+00:00".toList then some ⟨1735732830000000, some 0⟩
    else none
  fromtimestamp _ := none

def blankPoll : List Beat :=
  [⟨"soccer".toList, noon, .started⟩,
    ⟨"soccer".toList, later, .reported { matchesFound := some 2 }⟩]

theorem noon_legible : @Legible stampReaders later noon := by
  have text : isoformat noon = "2025-01-01T12:00:00+00:00".toList := by decide +kernel
  refine @Legible.mk stampReaders later noon (by decide) ?_ (by decide)
  rw [text]
  rfl

theorem later_legible : @Legible stampReaders later later := by
  have text : isoformat later = "2025-01-01T12:00:30+00:00".toList := by decide +kernel
  refine @Legible.mk stampReaders later later (by decide) ?_ (by decide)
  rw [text]
  rfl

theorem health_exact_blankPoll :
    ((@pollHealth stampReaders (lastPoll blankPoll) later ⟨60, 1, 900, 3⟩).http = 503 ↔
        Pages later ⟨60, 1, 900, 3⟩ (sportLog blankPoll)) ∧
      ((@pollHealth stampReaders (lastPoll blankPoll) later ⟨60, 1, 900, 3⟩).status = .ok ↔
        ∀ sport, ¬ Ailing later ⟨60, 1, 900, 3⟩ (sportLog blankPoll sport)) :=
  @health_exact later stampReaders blankPoll (List.forall_mem_cons.mpr ⟨noon_legible,
    List.forall_mem_singleton.mpr later_legible⟩) ⟨60, 1, 900, 3⟩

theorem silence_pages_blankPoll :
    (@pollHealth stampReaders (lastPoll blankPoll) (noon + hours 1) ⟨60, 1, 900, 3⟩).http =
      503 :=
  @silence_pages (noon + hours 1) stampReaders blankPoll ⟨_, List.mem_cons_self, rfl⟩
    (List.forall_mem_cons.mpr ⟨⟨@Legible.dated stampReaders _ _ noon_legible,
      @Legible.back stampReaders _ _ noon_legible⟩, List.forall_mem_singleton.mpr
        ⟨@Legible.dated stampReaders _ _ later_legible,
          @Legible.back stampReaders _ _ later_legible⟩⟩)
    ⟨60, 1, 900, 3⟩
    (by decide +kernel)

end SharpEvPicks.Api
