import Mathlib.Data.Finset.Insert
import Mathlib.Data.Finset.Erase
import SharpEvPicks.Python.Format
import SharpEvPicks.Transition.Run

/-! Concurrent dispatches of alerts over one idempotency store, `app/notifications/dispatcher.py`
and `app/notifications/dedupe.py`. A dispatch stands still at each `await`; between two of them
nothing else runs. -/
namespace SharpEvPicks.Notifications

open Python

structure Alert where
  pickId : Str
  title : Str
  body : Str
  dedupeKey : Str

/-- `AlertSink`, as far as a dispatch reads it. -/
structure Sink where
  name : Str
  configured : Bool := true

/-- `InMemoryIdempotencyStore.claim`. -/
def claim (seen : Finset Str) (key : Str) (legacyKey : Option Str) : Finset Str × Bool :=
  if ∃ legacy ∈ legacyKey, legacy ∈ seen then (insert key seen, false)
  else if key ∈ seen then (seen, false)
  else (insert key seen, true)

/-- `InMemoryIdempotencyStore.release`. -/
def release (seen : Finset Str) (key : Str) : Finset Str := seen.erase key

/-- Where a dispatch over `n` sinks stands. -/
inductive Phase (n : Nat) where
  /-- In `_claim`, the claim is not made yet. -/
  | claiming (index : Fin n) (cancelled : Bool)
  /-- In `_claim`, the claim is made. -/
  | claimed (index : Fin n) (won cancelled : Bool)
  | sending (index : Fin n)
  /-- In `_release`, the release is not made yet. A cancelled one ends in the cancellation. -/
  | releasing (index : Fin n) (cancelled : Bool)
  | released (index : Fin n) (cancelled : Bool)
  | returned (skippedDuplicate : Bool)
  | cancelled

variable (sinks : List Sink)

structure Job where
  alert : Alert
  sinkResults : List (Str × Bool) := []
  anyNewClaim : Bool := false
  phase : Phase sinks.length

def ordinal (index : Fin sinks.length) : Nat :=
  (sinks.take index).countP fun prior => prior.name = (sinks.get index).name

/-- `_sink_key`. -/
def sinkKey (dedupeKey : Str) (index : Fin sinks.length) : Str :=
  dedupeKey ++ ":sink:".toList ++ (sinks.get index).name ++ ':' :: natText (ordinal sinks index)

/-- What a send is, and what it ends in, under the dedupe key of its alert. -/
inductive Event where
  | invoked (dedupeKey : Str) (index : Fin sinks.length)
  | delivered (dedupeKey : Str) (index : Fin sinks.length)
  deriving DecidableEq

inductive Outcome where
  | delivered
  | failed
  | raised
  | cancelled

structure Effect where
  seen : Finset Str
  job : Job sinks
  log : List (Event sinks) := []

variable {sinks}

namespace Job

def key (job : Job sinks) (index : Fin sinks.length) : Str :=
  sinkKey sinks job.alert.dedupeKey index

/-- On to the next sink. -/
def proceed (job : Job sinks) (index : Fin sinks.length) : Job sinks :=
  { job with
    phase := if h : index + 1 < sinks.length then .claiming ⟨index + 1, h⟩ false
      else .returned (!job.anyNewClaim) }

def record (job : Job sinks) (index : Fin sinks.length) (delivered : Bool) : Job sinks :=
  { job with sinkResults := job.sinkResults ++ [((sinks.get index).name, delivered)] }

def moveTo (job : Job sinks) (phase : Phase sinks.length) : Job sinks := { job with phase }

/-- The task of `_claim` runs. -/
def runClaim (seen : Finset Str) (job : Job sinks) : Effect sinks :=
  match job.phase with
  | .claiming index cancelled =>
    let claimed := claim seen (job.key index) (some job.alert.dedupeKey)
    ⟨claimed.1, job.moveTo (.claimed index claimed.2 cancelled), []⟩
  | _ => ⟨seen, job, []⟩

/-- The task of `_release` runs. -/
def runRelease (seen : Finset Str) (job : Job sinks) : Effect sinks :=
  match job.phase with
  | .releasing index cancelled =>
    ⟨release seen (job.key index), job.moveTo (.released index cancelled), []⟩
  | _ => ⟨seen, job, []⟩

/-- The dispatch wakes up after a task. -/
def resume (seen : Finset Str) (job : Job sinks) : Effect sinks :=
  match job.phase with
  | .claimed index true true => ⟨seen, job.moveTo (.releasing index true), []⟩
  | .claimed _ false true => ⟨seen, job.moveTo .cancelled, []⟩
  | .claimed index true false =>
    ⟨seen, { job with anyNewClaim := true, phase := .sending index },
      [.invoked job.alert.dedupeKey index]⟩
  | .claimed index false false => ⟨seen, (job.record index true).proceed index, []⟩
  | .released _ true => ⟨seen, job.moveTo .cancelled, []⟩
  | .released index false => ⟨seen, job.proceed index, []⟩
  | _ => ⟨seen, job, []⟩

/-- A channel that is not configured keeps its claim. -/
def undelivered (job : Job sinks) (index : Fin sinks.length) : Job sinks :=
  let job := job.record index false
  if (sinks.get index).configured then job.moveTo (.releasing index false) else job.proceed index

/-- The send ends. -/
def sendEnds (seen : Finset Str) (job : Job sinks) (outcome : Outcome) : Effect sinks :=
  match job.phase, outcome with
  | .sending index, .delivered =>
    ⟨seen, (job.record index true).proceed index, [.delivered job.alert.dedupeKey index]⟩
  | .sending index, .failed | .sending index, .raised => ⟨seen, job.undelivered index, []⟩
  | .sending index, .cancelled => ⟨seen, job.moveTo (.releasing index true), []⟩
  | _, _ => ⟨seen, job, []⟩

/-- The caller is cancelled while a task of the store is awaited. -/
def cancel (seen : Finset Str) (job : Job sinks) : Effect sinks :=
  match job.phase with
  | .claiming index _ => ⟨seen, job.moveTo (.claiming index true), []⟩
  | .claimed index won _ => ⟨seen, job.moveTo (.claimed index won true), []⟩
  | .releasing index _ => ⟨seen, job.moveTo (.releasing index true), []⟩
  | .released index _ => ⟨seen, job.moveTo (.released index true), []⟩
  | _ => ⟨seen, job, []⟩

end Job

inductive Turn where
  | claim
  | release
  | resume
  | send (outcome : Outcome)
  | cancel

def Job.turn (seen : Finset Str) (job : Job sinks) : Turn → Effect sinks
  | .claim => job.runClaim seen
  | .release => job.runRelease seen
  | .resume => job.resume seen
  | .send outcome => job.sendEnds seen outcome
  | .cancel => job.cancel seen

variable (sinks)

/-- The store, every dispatch that was ever called, and their sends. -/
structure State where
  seen : Finset Str := ∅
  jobs : List (Job sinks) := []
  log : List (Event sinks) := []

inductive Act where
  | dispatch (alert : Alert)
  | turn (job : Nat) (turn : Turn)

/-- `dispatch` up to its first `await`. -/
def dispatch (alert : Alert) : Job sinks :=
  { alert, phase := if h : 0 < sinks.length then .claiming ⟨0, h⟩ false else .returned false }

def act (s : State sinks) : Act → State sinks
  | .dispatch alert => { s with jobs := s.jobs ++ [dispatch sinks alert] }
  | .turn k turn =>
    s.jobs[k]?.elim s fun job =>
      let e := job.turn s.seen turn
      ⟨e.seen, s.jobs.set k e.job, s.log ++ e.log⟩

end SharpEvPicks.Notifications
