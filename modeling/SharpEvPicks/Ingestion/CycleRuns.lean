import Mathlib.Data.List.Perm.Basic
import SharpEvPicks.Ingestion.JsonCycle

/-! What holds of a poll cycle in every interleaving of its workers. -/
namespace SharpEvPicks.Ingestion.JsonCycle

open Python Pipeline Transition

variable {c : Cycle} {w w' : World} {i : Nat} {url : Str} {attempt : Nat}

/-! What one step can do. -/

inductive Stepped (c : Cycle) (w : World) : World → Prop where
  | retired {i : Nat} (at_ : w.workers[i]? = some .ready)
      (idle : w.resourceReason ≠ [] ∨ w.queue = []) :
      Stepped c w { w with workers := w.workers.set i .returned }
  | took {i : Nat} {url : Str} {rest : List Str}
      (at_ : w.workers[i]? = some .ready) (clear : w.resourceReason = [])
      (due : w.queue = url :: rest) :
        Stepped c w { w with queue := rest, workers := w.workers.set i (.waiting url 1) }
  | entered {i : Nat} {url : Str} {attempt : Nat}
      (at_ : w.workers[i]? = some (.waiting url attempt))
      (free : Cycle.inFlight w < c.workerCount) :
        Stepped c w { w with workers := w.workers.set i (.scraping url attempt) }
  | failed {i : Nat} {url : Str} {attempt : Nat}
      (at_ : w.workers[i]? = some (.scraping url attempt)) (left : attempt < matchMaxAttempts) :
        Stepped c w { w with workers := w.workers.set i (.backoff url attempt) }
  | settled {i : Nat} {url : Str} {attempt : Nat} {scraped : Scraped}
      (at_ : w.workers[i]? = some (.scraping url attempt))
      (small : scraped.snapshots.length ≤ c.maxSnapshotsPerMatch) :
        Stepped c w (c.settle w i url scraped)
  | woke {i : Nat} {url : Str} {attempt : Nat} (at_ : w.workers[i]? = some (.backoff url attempt)) :
      Stepped c w { w with workers := w.workers.set i (.waiting url (attempt + 1)) }

theorem checked_small (rows : List Snapshot) :
    (c.checked rows).snapshots.length ≤ c.maxSnapshotsPerMatch := by
  unfold Cycle.checked
  split
  · exact Nat.zero_le _
  · rename_i small
    exact Nat.le_of_not_lt small

theorem stepped_of_step {a : Action} (taken : c.step w a = some w') : Stepped c w w' := by
  cases a with
  | pull i =>
    simp only [Cycle.step] at taken
    split at taken
    · rename_i at_
      cases taken
      unfold Cycle.pull
      split
      · rename_i tripped
        exact .retired at_ (.inl tripped)
      · rename_i clear
        split
        · rename_i due
          exact .retired at_ (.inr due)
        · rename_i url rest due
          exact .took at_ (not_ne_iff.mp clear) due
    · cases taken
  | enter i =>
    simp only [Cycle.step] at taken
    split at taken
    · rename_i at_
      split at taken
      · rename_i free
        cases taken
        exact .entered at_ free
      · cases taken
    · cases taken
  | reply i result =>
    simp only [Cycle.step] at taken
    split at taken
    · rename_i at_
      cases taken
      cases result with
      | ok rows => exact .settled at_ (checked_small rows)
      | error fault =>
        simp only [Cycle.reply]
        split
        · rename_i again
          exact .failed at_ again.2
        · exact .settled at_ (Nat.zero_le _)
    · cases taken
  | wake i =>
    simp only [Cycle.step] at taken
    split at taken
    · rename_i at_
      cases taken
      exact .woke at_
    · cases taken

/-! What a settled match changes. -/

section Settle
variable (c w i url) (scraped : Scraped)

theorem settle_apart : (c.settle w i url scraped).queue = w.queue ∧
    (c.settle w i url scraped).workers = w.workers.set i .ready ∧
    (c.settle w i url scraped).finished = w.finished ++ [(url, scraped)] := by
  unfold Cycle.settle
  cases scraped with
  | rows rows =>
    dsimp only
    split
    · exact ⟨rfl, rfl, rfl⟩
    · split <;> exact ⟨rfl, rfl, rfl⟩
  | failed fault =>
    dsimp only
    cases classifyCurlError fault <;> exact ⟨rfl, rfl, rfl⟩
  | exceeded => exact ⟨rfl, rfl, rfl⟩

@[simp] theorem settle_queue : (c.settle w i url scraped).queue = w.queue :=
  (settle_apart c w i url scraped).1

@[simp] theorem settle_workers : (c.settle w i url scraped).workers = w.workers.set i .ready :=
  (settle_apart c w i url scraped).2.1

@[simp] theorem settle_finished :
    (c.settle w i url scraped).finished = w.finished ++ [(url, scraped)] :=
  (settle_apart c w i url scraped).2.2

theorem settle_counts :
    (c.settle w i url scraped).transient = w.transient + (scraped.isKind .transient).toNat ∧
    (c.settle w i url scraped).permanent = w.permanent + (scraped.isKind .permanent).toNat ∧
    (c.settle w i url scraped).unknown = w.unknown + (scraped.isKind .unknown).toNat := by
  unfold Cycle.settle
  cases scraped with
  | rows rows =>
    dsimp only
    split
    · exact ⟨rfl, rfl, rfl⟩
    · split <;> exact ⟨rfl, rfl, rfl⟩
  | failed fault =>
    simp only [Scraped.isKind]
    cases classifyCurlError fault <;> exact ⟨rfl, rfl, rfl⟩
  | exceeded => exact ⟨rfl, rfl, rfl⟩

end Settle

/-- The rows of a match are added, or dropped for a reason. -/
inductive Kept (c : Cycle) (w : World) (scraped : Scraped) (w' : World) : Prop where
  | added (reason : w'.resourceReason = w.resourceReason)
      (rows : w'.snapshots = w.snapshots ++ scraped.snapshots)
      (odds : w'.matchesWithOdds = w.matchesWithOdds + (decide (scraped.snapshots ≠ [])).toNat)
      (bounded : scraped.snapshots = [] ∨
        w'.snapshots.length ≤ c.maxSnapshotsPerCycle) (not_over : scraped.isExceeded = false)
  | ignored (reason : w'.resourceReason = w.resourceReason)
      (tripped : w.resourceReason ≠ []) (rows : w'.snapshots = w.snapshots)
  | tripped (reason : w'.resourceReason ≠ []) (rows : w'.snapshots = w.snapshots)
      (cause : scraped.isExceeded ∨
        c.maxSnapshotsPerCycle < w.snapshots.length + scraped.snapshots.length)

theorem settle_kept (c : Cycle) (w : World) (i : Nat) (url : Str) (scraped : Scraped) :
    Kept c w scraped (c.settle w i url scraped) := by
  unfold Cycle.settle
  cases scraped with
  | rows rows =>
    dsimp only
    split
    · rename_i unkept
      obtain tripped | empty := unkept
      · exact .ignored rfl tripped rfl
      · subst empty
        exact .added rfl (List.append_nil _).symm rfl (.inl rfl) rfl
    · rename_i kept
      obtain ⟨-, some_⟩ := not_or.mp kept
      split
      · rename_i past
        exact .tripped (List.cons_ne_nil _ _) rfl (.inr past)
      · rename_i within
        refine .added rfl rfl ?_ (.inr ?_) rfl
        · simp [Scraped.snapshots, some_]
        · rw [List.length_append]
          exact Nat.le_of_not_lt within
  | failed fault =>
    dsimp only
    cases classifyCurlError fault <;> exact .added rfl (List.append_nil _).symm rfl (.inl rfl) rfl
  | exceeded => exact .tripped (List.cons_ne_nil _ _) rfl (.inl rfl)

/-! What is kept. -/

/-- The matches in the hands of the workers. -/
def handsOf (workers : List Worker) : List Str := workers.filterMap Worker.url?

theorem handsOf_set {workers : List Worker} {old : Worker} (new : Worker)
    (at_ : workers[i]? = some old) :
    ∃ others, (handsOf workers).Perm (old.url?.toList ++ others) ∧
      (handsOf (workers.set i new)).Perm (new.url?.toList ++ others) := by
  obtain ⟨inside, rfl⟩ := List.getElem?_eq_some_iff.mp at_
  have hands (worker : Worker) (rest : List Worker) :
      handsOf (worker :: rest) = worker.url?.toList ++ handsOf rest := by
    cases worker <;> rfl
  refine ⟨handsOf (workers.eraseIdx i), ?_, ?_⟩
  · rw [← hands]
    exact (List.getElem_cons_eraseIdx_perm inside).symm.filterMap _
  · rw [← hands]
    exact (List.set_perm_cons_eraseIdx inside new).filterMap _

/-- An attempt is one of three, and only before the last one is there another. -/
def Worker.within : Worker → Prop
  | waiting _ attempt => attempt ≤ matchMaxAttempts
  | scraping _ attempt => attempt ≤ matchMaxAttempts
  | backoff _ attempt => attempt < matchMaxAttempts
  | ready => True
  | returned => True

def rowsOf (finished : List (Str × Scraped)) : List Snapshot :=
  finished.flatMap fun e => e.2.snapshots

structure Sound (c : Cycle) (w : World) : Prop where
  count : w.workers.length = c.workerCount
  matches_ : (w.finished.map Prod.fst ++ (handsOf w.workers ++ w.queue)).Perm c.matchUrls
  attempts : ∀ worker ∈ w.workers, worker.within
  stays : ∀ worker ∈ w.workers, worker.isReturned → w.resourceReason ≠ [] ∨ w.queue = []
  transient : w.transient = w.finished.countP fun e => e.2.isKind .transient
  permanent : w.permanent = w.finished.countP fun e => e.2.isKind .permanent
  unknown : w.unknown = w.finished.countP fun e => e.2.isKind .unknown
  bounded : w.snapshots.length ≤ c.maxSnapshotsPerCycle
  small : ∀ e ∈ w.finished, e.2.snapshots.length ≤ c.maxSnapshotsPerMatch
  clean : w.resourceReason = [] → w.snapshots = rowsOf w.finished ∧
    (∀ e ∈ w.finished, e.2.isExceeded = false) ∧
    w.matchesWithOdds = w.finished.countP fun e => e.2.snapshots ≠ []
  cause : w.resourceReason ≠ [] → (∃ e ∈ w.finished, e.2.isExceeded) ∨
    c.maxSnapshotsPerCycle < (rowsOf w.finished).length

theorem sound_start : Sound c c.start where
  count := List.length_replicate
  matches_ := by
    have empty : ∀ n, handsOf (List.replicate n .ready) = [] := by
      intro n
      induction n with
      | zero => rfl
      | succ n ih => exact ih
    change (handsOf (List.replicate c.workerCount .ready) ++ c.matchUrls).Perm c.matchUrls
    rw [empty]
    exact .refl _
  attempts worker inside := by
    obtain rfl := List.eq_of_mem_replicate inside
    trivial
  stays worker inside := by
    obtain rfl := List.eq_of_mem_replicate inside
    intro back
    cases back
  transient := rfl
  permanent := rfl
  unknown := rfl
  bounded := Nat.zero_le _
  small e inside := by cases inside
  clean _ := ⟨rfl, List.forall_mem_nil _, rfl⟩
  cause tripped := absurd rfl tripped

namespace Sound

/-- A worker goes on with the match in its hands. -/
theorem move {old new : Worker} (sound : Sound c w) (at_ : w.workers[i]? = some old)
    (same : new.url? = old.url?) (fits : new.within)
    (stays : new.isReturned → w.resourceReason ≠ [] ∨ w.queue = []) :
    Sound c { w with workers := w.workers.set i new } where
  count := by rw [List.length_set, sound.count]
  matches_ := by
    obtain ⟨others, before, after⟩ := handsOf_set new at_
    rw [same] at after
    exact ((after.trans before.symm).append_right _ |>.append_left _).trans sound.matches_
  attempts worker inside := by
    obtain held | rfl := List.mem_or_eq_of_mem_set inside
    · exact sound.attempts worker held
    · exact fits
  stays worker inside back := by
    obtain held | rfl := List.mem_or_eq_of_mem_set inside
    · exact sound.stays worker held back
    · exact stays back
  transient := sound.transient
  permanent := sound.permanent
  unknown := sound.unknown
  bounded := sound.bounded
  small := sound.small
  clean := sound.clean
  cause := sound.cause

theorem take {rest : List Str} (sound : Sound c w) (at_ : w.workers[i]? = some .ready)
    (due : w.queue = url :: rest) :
    Sound c { w with queue := rest, workers := w.workers.set i (.waiting url 1) } where
  count := by rw [List.length_set, sound.count]
  matches_ := by
    obtain ⟨others, before, after⟩ := handsOf_set (.waiting url 1) at_
    have held := sound.matches_
    rw [due] at held
    have moved : (handsOf (w.workers.set i (.waiting url 1)) ++ rest).Perm
        (handsOf w.workers ++ url :: rest) :=
      (after.append_right rest).trans (List.perm_middle.symm.trans (before.symm.append_right _))
    exact (moved.append_left _).trans held
  attempts worker inside := by
    obtain held | rfl := List.mem_or_eq_of_mem_set inside
    · exact sound.attempts worker held
    · exact (by decide : 1 ≤ matchMaxAttempts)
  stays worker inside back := by
    obtain held | rfl := List.mem_or_eq_of_mem_set inside
    · obtain tripped | empty := sound.stays worker held back
      · exact .inl tripped
      · rw [due] at empty
        cases empty
    · cases back
  transient := sound.transient
  permanent := sound.permanent
  unknown := sound.unknown
  bounded := sound.bounded
  small := sound.small
  clean := sound.clean
  cause := sound.cause

theorem settle {scraped : Scraped} (sound : Sound c w)
    (at_ : w.workers[i]? = some (.scraping url attempt))
    (small : scraped.snapshots.length ≤ c.maxSnapshotsPerMatch) :
      Sound c (c.settle w i url scraped) := by
  have rows : rowsOf (w.finished ++ [(url, scraped)]) = rowsOf w.finished ++ scraped.snapshots := by
    simp [rowsOf]
  have one (p : Str × Scraped → Bool) : (w.finished ++ [(url, scraped)]).countP p =
      w.finished.countP p + (p (url, scraped)).toNat := by
    rw [List.countP_append]
    cases held : p (url, scraped) <;> simp [held]
  have listed {e : Str × Scraped} (inside : e ∈ w.finished ++ [(url, scraped)]) :
      e ∈ w.finished ∨ e = (url, scraped) := by simpa using inside
  obtain ⟨transient, permanent, unknown⟩ := settle_counts c w i url scraped
  constructor
  · rw [settle_workers, List.length_set, sound.count]
  · obtain ⟨others, before, after⟩ := handsOf_set .ready at_
    rw [settle_queue, settle_workers, settle_finished, List.map_append, List.append_assoc]
    refine .trans (.append_left _ ?_) sound.matches_
    have back : (url :: (handsOf (w.workers.set i .ready) ++ w.queue)).Perm
        (url :: (others ++ w.queue)) :=
      (after.append_right w.queue).cons url
    exact back.trans (before.symm.append_right w.queue)
  · intro worker inside
    rw [settle_workers] at inside
    obtain held | rfl := List.mem_or_eq_of_mem_set inside
    · exact sound.attempts worker held
    · trivial
  · intro worker inside back
    rw [settle_workers] at inside
    rw [settle_queue]
    obtain held | rfl := List.mem_or_eq_of_mem_set inside
    · obtain tripped | empty := sound.stays worker held back
      · cases settle_kept c w i url scraped with
        | added reason => exact .inl (reason ▸ tripped)
        | ignored reason => exact .inl (reason ▸ tripped)
        | tripped reason => exact .inl reason
      · exact .inr empty
    · cases back
  · rw [transient, sound.transient, settle_finished, one]
  · rw [permanent, sound.permanent, settle_finished, one]
  · rw [unknown, sound.unknown, settle_finished, one]
  · cases settle_kept c w i url scraped with
    | added reason rows odds bounded =>
      obtain none | within := bounded
      · rw [rows, none, List.append_nil]
        exact sound.bounded
      · exact within
    | ignored reason tripped rows => exact rows ▸ sound.bounded
    | tripped reason rows => exact rows ▸ sound.bounded
  · intro e inside
    rw [settle_finished] at inside
    obtain held | rfl := listed inside
    · exact sound.small e held
    · exact small
  · intro clear
    cases settle_kept c w i url scraped with
    | added reason added odds bounded not_over =>
      obtain ⟨snapshots, none, count⟩ := sound.clean (reason ▸ clear)
      rw [settle_finished, rows, one]
      refine ⟨by rw [added, snapshots], ?_, by rw [odds, count]⟩
      intro e inside
      obtain held | rfl := listed inside
      · exact none e held
      · exact not_over
    | ignored reason tripped => exact absurd (reason ▸ clear) tripped
    | tripped reason => exact absurd clear reason
  · intro tripped
    rw [settle_finished, rows, List.length_append]
    have kept (old : w.resourceReason ≠ []) :
        (∃ e ∈ w.finished ++ [(url, scraped)], e.2.isExceeded) ∨
        c.maxSnapshotsPerCycle < (rowsOf w.finished).length + scraped.snapshots.length := by
      obtain ⟨e, inside, past⟩ | more := sound.cause old
      · exact .inl ⟨e, List.mem_append_left _ inside, past⟩
      · exact .inr (Nat.lt_add_right _ more)
    cases settle_kept c w i url scraped with
    | added reason => exact kept (reason ▸ tripped)
    | ignored reason old => exact kept old
    | tripped reason same cause =>
      by_cases old : w.resourceReason = []
      · obtain past | more := cause
        · exact .inl ⟨(url, scraped), by simp, past⟩
        · rw [(sound.clean old).1] at more
          exact .inr more
      · exact kept old

theorem step {a : Action} (sound : Sound c w) (taken : c.step w a = some w') : Sound c w' := by
  cases stepped_of_step taken with
  | retired at_ idle => exact sound.move at_ rfl trivial fun _ => idle
  | took at_ clear due => exact sound.take at_ due
  | entered at_ free =>
    have held := sound.attempts _ (List.mem_of_getElem? at_)
    exact sound.move at_ rfl held nofun
  | failed at_ left => exact sound.move at_ rfl left nofun
  | settled at_ small => exact sound.settle at_ small
  | woke at_ =>
    have held := sound.attempts _ (List.mem_of_getElem? at_)
    exact sound.move at_ rfl held nofun

/-- In every interleaving. -/
theorem run {actions : List Action} (ran : trace c.step c.start actions = some w) : Sound c w :=
  trace_invariant (fun _ _ _ sound taken => sound.step taken) sound_start ran

end Sound

/-! Every run ends. -/

/-- A bound on the steps a worker has left with the match in its hands. -/
def Worker.left : Worker → Nat
  | ready => 1
  | waiting _ attempt => 3 * (matchMaxAttempts - attempt) + 3
  | scraping _ attempt => 3 * (matchMaxAttempts - attempt) + 2
  | backoff _ attempt => 3 * (matchMaxAttempts - attempt) + 1
  | returned => 0

def World.left (w : World) : Nat := 9 * w.queue.length + (w.workers.map Worker.left).sum

theorem left_set {workers : List Worker} {old : Worker} (new : Worker)
    (at_ : workers[i]? = some old) :
    ((workers.set i new).map Worker.left).sum + old.left =
    (workers.map Worker.left).sum + new.left := by
  obtain ⟨inside, rfl⟩ := List.getElem?_eq_some_iff.mp at_
  have before := ((List.getElem_cons_eraseIdx_perm inside).map Worker.left).sum_eq
  have after := ((List.set_perm_cons_eraseIdx inside new).map Worker.left).sum_eq
  rw [List.map_cons, List.sum_cons] at before after
  omega

theorem Sound.left_falls {a : Action} (sound : Sound c w) (taken : c.step w a = some w') :
    w'.left < w.left := by
  unfold World.left
  cases stepped_of_step taken with
  | retired at_ idle =>
    have moved := left_set .returned at_
    simp only [Worker.left] at moved
    dsimp only
    omega
  | @took i url rest at_ clear due =>
    have moved := left_set (.waiting url 1) at_
    simp only [Worker.left, matchMaxAttempts] at moved
    simp only [due, List.length_cons]
    omega
  | @entered i url attempt at_ free =>
    have moved := left_set (.scraping url attempt) at_
    simp only [Worker.left] at moved
    dsimp only
    omega
  | @failed i url attempt at_ left =>
    have moved := left_set (.backoff url attempt) at_
    simp only [Worker.left] at moved
    dsimp only
    omega
  | settled at_ small =>
    have moved := left_set .ready at_
    simp only [Worker.left] at moved
    rw [settle_queue, settle_workers]
    omega
  | @woke i url attempt at_ =>
    have moved := left_set (.waiting url (attempt + 1)) at_
    have earlier : attempt < matchMaxAttempts := sound.attempts _ (List.mem_of_getElem? at_)
    simp only [Worker.left] at moved
    dsimp only
    omega

theorem start_left : c.start.left = 9 * c.matchesTotal + c.workerCount := by
  unfold World.left Cycle.start
  rw [List.map_replicate, List.sum_replicate]
  change 9 * c.matchesTotal + c.workerCount * 1 = _
  rw [Nat.mul_one]

/-- A worker that is not back can go on. -/
theorem Sound.progress (sound : Sound c w) : w.done ∨ ∃ a w', c.step w a = some w' := by
  by_cases back : w.done
  · exact .inl back
  · obtain ⟨worker, inside, away⟩ : ∃ worker ∈ w.workers, ¬ worker.isReturned := by
      by_contra none
      exact back fun worker inside => by_contra fun away => none ⟨worker, inside, away⟩
    obtain ⟨i, at_⟩ := List.mem_iff_getElem?.mp inside
    cases worker with
    | ready => exact .inr ⟨.pull i, _, by simp only [Cycle.step, at_]; rfl⟩
    | waiting url attempt =>
      have free : Cycle.inFlight w < c.workerCount := by
        rw [← sound.count]
        refine Nat.lt_of_le_of_ne List.countP_le_length fun all => ?_
        have scrapes := List.countP_eq_length.mp all _ inside
        cases scrapes
      exact .inr ⟨.enter i, _, by simp only [Cycle.step, at_, if_pos free]; rfl⟩
    | scraping url attempt =>
      exact .inr ⟨.reply i (.ok []), _, by simp only [Cycle.step, at_]; rfl⟩
    | backoff url attempt => exact .inr ⟨.wake i, _, by simp only [Cycle.step, at_]; rfl⟩
    | returned => exact absurd rfl away

/-- No interleaving is stuck or goes on forever, and no more scrapes are on their way than there are
slots. -/
theorem runCycle_terminates (c : Cycle) {actions : List Action} {w : World}
    (ran : trace c.step c.start actions = some w) :
    actions.length ≤ 9 * c.matchesTotal + c.workerCount ∧ Cycle.inFlight w ≤ c.workerCount ∧
      ∃ more w', trace c.step c.start (actions ++ more) = some w' ∧ w'.done := by
  have keeps : ∀ s a s', Sound c s → c.step s a = some s' → Sound c s' :=
    fun _ _ _ sound taken => sound.step taken
  have falls : ∀ s a s', Sound c s → c.step s a = some s' → s'.left < s.left :=
    fun _ _ _ sound taken => sound.left_falls taken
  have sound := Sound.run ran
  have bounded := trace_length keeps falls sound_start ran
  rw [start_left] at bounded
  obtain ⟨more, w', later, done⟩ :=
    trace_final keeps falls (fun _ sound => sound.progress) sound
  exact ⟨by omega, sound.count ▸ List.countP_le_length, more, w', trace_append.mpr
    ⟨w, ran, later⟩, done⟩

/-- Two pages; the second fails once. -/
def twoPages : Cycle :=
  { matchUrls := ["a".toList, "b".toList], gate := { markets := ["1x2".toList] } }

def pageRow : Snapshot where
  eventId := "e".toList
  bookmaker := "b".toList
  market := .h2h
  selection := "Home".toList
  decimalOdds := 2
  capturedAt := 0
  ingestedAt := 0
  marketDetail := some "1x2".toList
  odds_gt := even_gt
  odds_le := even_le
  liquidity_nonneg := noLiquidity
  not_future := noSkew

def twoActions : List Action :=
  [.pull 0, .pull 1, .enter 0, .enter 1, .reply 1 (.error .transientStatus),
    .reply 0 (.ok [pageRow]), .wake 1, .pull 0, .enter 1, .reply 1 (.ok [pageRow]), .pull 1]

def twoDone : World where
  queue := []
  workers := [.returned, .returned]
  snapshots := [pageRow, pageRow]
  matchesWithOdds := 2
  finished := [("a".toList, .rows [pageRow]), ("b".toList, .rows [pageRow])]

theorem twoPages_runs : trace twoPages.step twoPages.start twoActions = some twoDone := rfl

theorem twoDone_done : twoDone.done := by
  intro worker inside
  simp only [twoDone, List.mem_cons, List.not_mem_nil, or_false, or_self] at inside
  exact inside ▸ rfl

theorem runCycle_terminates_twoPages :
    twoActions.length ≤ 9 * twoPages.matchesTotal + twoPages.workerCount ∧
    Cycle.inFlight twoDone ≤ twoPages.workerCount ∧
      ∃ more w', trace twoPages.step twoPages.start (twoActions ++ more) = some w' ∧ w'.done :=
  runCycle_terminates twoPages twoPages_runs

/-! What a finished cycle has done. -/

theorem workerCount_pos : 0 < c.workerCount := by
  unfold Cycle.workerCount
  omega

theorem handsOf_done {workers : List Worker} (done : ∀ worker ∈ workers, worker.isReturned) :
    handsOf workers = [] := by
  unfold handsOf
  rw [List.filterMap_eq_nil_iff]
  intro worker inside
  have back := done worker inside
  cases worker <;> first | rfl | cases back

/-- Without a ceiling hit, the queue is empty at the end. -/
theorem Sound.all_finished (sound : Sound c w) (done : w.done) (clear : w.resourceReason = []) :
    (w.finished.map Prod.fst).Perm c.matchUrls := by
  have empty : w.queue = [] := by
    obtain ⟨worker, inside⟩ : ∃ worker, worker ∈ w.workers :=
      List.exists_mem_of_length_pos (sound.count ▸ workerCount_pos)
    exact (sound.stays worker inside (done worker inside)).resolve_left fun tripped => tripped clear
  have held := sound.matches_
  rw [handsOf_done done, empty, List.nil_append, List.append_nil] at held
  exact held

theorem one_kind (scraped : Scraped) :
    (if scraped.isKind .transient then 1 else 0) + (if scraped.isKind .permanent then 1 else 0) +
    (if scraped.isKind .unknown then 1 else 0) + (if decide (scraped.snapshots ≠ []) then 1
      else 0) +
    (if scraped.isEmpty then 1 else 0) = 1 := by
  cases scraped with
  | rows rows => by_cases empty : rows = [] <;> simp [Scraped.isKind, Scraped.snapshots,
      Scraped.isEmpty, empty]
  | failed fault =>
    cases kind : classifyCurlError fault <;>
      simp [Scraped.isKind, Scraped.snapshots, Scraped.isEmpty, kind]
  | exceeded => rfl

/-- Every match is of one kind. -/
theorem kinds_sum (finished : List (Str × Scraped)) :
    (finished.countP fun e => e.2.isKind .transient) +
      (finished.countP fun e => e.2.isKind .permanent) +
      (finished.countP fun e => e.2.isKind .unknown) +
      (finished.countP fun e => e.2.snapshots ≠ []) + (finished.countP fun e => e.2.isEmpty) =
        finished.length := by
  induction finished with
  | nil => rfl
  | cons e finished ih =>
    have one := one_kind e.2
    rw [List.countP_cons, List.countP_cons, List.countP_cons, List.countP_cons, List.countP_cons,
      List.length_cons]
    omega

/-- However the workers interleave, no ceiling is passed; and where none is hit, every listed match
is scraped to its end once, counted once, and all the rows are kept. -/
theorem runCycle_accounts (c : Cycle) {actions : List Action} {w : World}
    (ran : trace c.step c.start actions = some w) (done : w.done) :
    w.snapshots.length ≤ c.maxSnapshotsPerCycle ∧
      (∀ e ∈ w.finished, e.2.snapshots.length ≤ c.maxSnapshotsPerMatch) ∧
      (w.resourceReason = [] → (w.finished.map Prod.fst).Perm c.matchUrls ∧
        w.snapshots = rowsOf w.finished ∧
          w.matchesWithOdds + (w.finished.countP fun e => e.2.isEmpty) + w.transient +
            w.permanent + w.unknown = c.matchesTotal) := by
  have sound := Sound.run ran
  refine ⟨sound.bounded, sound.small, fun clear => ?_⟩
  have all := sound.all_finished done clear
  obtain ⟨snapshots, -, odds⟩ := sound.clean clear
  refine ⟨all, snapshots, ?_⟩
  have total := kinds_sum w.finished
  have listed := all.length_eq
  rw [List.length_map] at listed
  rw [odds, sound.transient, sound.permanent, sound.unknown]
  change _ = c.matchUrls.length
  omega

theorem runCycle_accounts_twoPages : twoDone.snapshots.length ≤ twoPages.maxSnapshotsPerCycle ∧
    (∀ e ∈ twoDone.finished, e.2.snapshots.length ≤ twoPages.maxSnapshotsPerMatch) ∧
      (twoDone.resourceReason = [] → (twoDone.finished.map Prod.fst).Perm twoPages.matchUrls ∧
        twoDone.snapshots = rowsOf twoDone.finished ∧
        twoDone.matchesWithOdds + (twoDone.finished.countP fun e => e.2.isEmpty) +
          twoDone.transient + twoDone.permanent + twoDone.unknown = twoPages.matchesTotal) :=
  runCycle_accounts twoPages twoPages_runs twoDone_done

end SharpEvPicks.Ingestion.JsonCycle
