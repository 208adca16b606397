import Mathlib.Data.Finset.Card
import Mathlib.Data.Rat.Floor
import SharpEvPicks.Python.Sorting
import SharpEvPicks.Python.Str
import SharpEvPicks.Python.Sizes
import SharpEvPicks.Transition.FixedWindow
import SharpEvPicks.Transition.Partial

/-! The throttle of `/login` in `app/api/routes.py`: failures in a window for each address, and the
hashes that run at once. The clock is `time.monotonic()`, in seconds. -/
namespace SharpEvPicks.Api.LoginThrottle

open Python Transition

def loginMaxFailures : Nat := 5

def loginWindowSeconds : ℚ := 300

def throttleMaxKeys : Nat := 1024

def loginMaxInflight : Nat := 4

/-- `_login_failures`: the start of the window of an address, and its failures in it. -/
abbrev Failures := Dict Str (ℚ × Nat)

/-- `int(x)`. -/
def truncate (x : ℚ) : Int := if 0 ≤ x then ⌊x⌋ else ⌈x⌉

/-- `_login_retry_after`. -/
def loginRetryAfter (failures : Failures) (ip : Str) (now : ℚ) : Option Int :=
  match failures.get? ip with
  | none => none
  | some (windowStart, count) =>
    if loginWindowSeconds ≤ now - windowStart ∨ count < loginMaxFailures then none
    else some (max 1 (truncate (windowStart + loginWindowSeconds - now) + 1))

/-- `min(_login_failures, key=...)`, the first of the oldest. -/
def oldest (failures : Failures) : Option Str :=
  (sortedBy (fun e => e.2.1) failures.entries).head?.map Prod.fst

/-- The `while` loop that drops the oldest, with a bound on its passes. -/
def dropOldest : Nat → Failures → Failures
  | 0, failures => failures
  | passes + 1, failures =>
    if throttleMaxKeys ≤ failures.entries.length then
      match oldest failures with
      | none => failures
      | some key => dropOldest passes (failures.pop key)
    else failures

/-- Expired windows go first, then the oldest. -/
def makeRoom (failures : Failures) (now : ℚ) : Failures :=
  if throttleMaxKeys ≤ failures.entries.length then
    let live := failures.filter fun _ entry => !(loginWindowSeconds ≤ now - entry.1)
    dropOldest live.entries.length live
  else failures

/-- `_login_record_failure`. -/
def loginRecordFailure (failures : Failures) (ip : Str) (now : ℚ) : Failures :=
  match failures.get? ip with
  | none => (makeRoom failures now).set ip (now, 1)
  | some (windowStart, count) =>
    if loginWindowSeconds ≤ now - windowStart then (makeRoom failures now).set ip (now, 1)
    else failures.set ip (windowStart, count + 1)

/-- `_login_record_success`. -/
def loginRecordSuccess (failures : Failures) (ip : Str) : Failures := failures.pop ip

/-! The requests to `/login`. -/

/-- How a request is answered before it hashes: 429 twice, with the seconds to wait, or not at all.
-/
inductive Admission where
  | throttled (retryAfter : Int)
  | busy
  | hashing
  deriving DecidableEq

/-- How the wait for `authenticate` ends. A request that is cancelled meanwhile keeps its slot until
the worker is done and then records neither a failure nor a success. -/
inductive Authenticated where
  | yes | no | raised | cancelled
  deriving DecidableEq

/-- The two tables of the process, and the addresses whose hashes run. -/
structure World where
  failures : Failures := .empty
  inflight : Finset Str := ∅
  hashes : List Str := []
  clock : ℚ := 0
  deriving DecidableEq

inductive Action where
  | submit (ip : Str) (now : ℚ)
  | finish (ip : Str) (now : ℚ) (authenticated : Authenticated)
  deriving DecidableEq

def Action.ip : Action → Str
  | submit ip _ => ip
  | finish ip _ _ => ip

/-- `login_submit`, up to the hash. -/
def admission (w : World) (ip : Str) (now : ℚ) : Admission :=
  match loginRetryAfter w.failures ip now with
  | some retryAfter => .throttled retryAfter
  | none => if ip ∈ w.inflight ∨ loginMaxInflight ≤ w.inflight.card then .busy else .hashing

/-- `login_submit`, from the hash on. -/
def settled (failures : Failures) (ip : Str) (now : ℚ) : Authenticated → Failures
  | .yes => loginRecordSuccess failures ip
  | .no => loginRecordFailure failures ip now
  | .raised | .cancelled => failures

def step (w : World) : Action → Option World
  | .submit ip now =>
    if w.clock ≤ now then
      match admission w ip now with
      | .hashing => some { w with inflight := insert ip w.inflight, hashes := ip :: w.hashes,
                                  clock := now }
      | _ => some { w with clock := now }
    else none
  | .finish ip now authenticated =>
    if w.clock ≤ now ∧ ip ∈ w.hashes then
      some { failures := settled w.failures ip now authenticated
             inflight := w.inflight.erase ip
             hashes := w.hashes.erase ip
             clock := now }
    else none

end SharpEvPicks.Api.LoginThrottle
