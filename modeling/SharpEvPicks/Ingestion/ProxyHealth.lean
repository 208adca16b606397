import SharpEvPicks.Python.Dict
import SharpEvPicks.Python.Sorting
import SharpEvPicks.Python.Str
import SharpEvPicks.Transition.Run

/-! The health of the proxies of a pool, `app/ingestion/proxy_health.py`: slots that keep failing
are quarantined, and probed one selection at a time once the cooldown is over. Times are in
microseconds. The log lines are not part of this model. -/
namespace SharpEvPicks.Ingestion.ProxyHealth

open Python Transition

def second : Int := 1000000

def deadAfter : Int := 3600 * second

def failureLogMaxlen : Nat := 4096

inductive SlotState where
  | healthy | quarantined | halfOpen
  deriving DecidableEq

structure SlotHealth where
  successes : Nat := 0
  failures : Nat := 0
  consecutiveFailures : Nat := 0
  lastSuccessAt : Option Int := none
  lastFailureAt : Option Int := none
  lastErrorClass : Option Str := none
  quarantinedUntil : Option Int := none
  probeClaimedUntil : Option Int := none
  deriving DecidableEq

def SlotHealth.state (slot : SlotHealth) (now : Int) : SlotState :=
  match slot.quarantinedUntil with
  | none => .healthy
  | some t => if now < t then .quarantined else .halfOpen

/-- Another selection holds the probe. -/
def SlotHealth.claimed (slot : SlotHealth) (now : Int) : Bool :=
  slot.probeClaimedUntil.any fun t => now < t

structure Registry where
  threshold : Nat
  cooldown : Int
  halfOpenClaim : Int
  slots : Dict Nat SlotHealth := .empty
  failureLog : List (Int × Str) := []
  failOpenEvents : Nat := 0

namespace Registry

/-! Recording. -/

def recordSuccess (r : Registry) (index : Nat) (now : Int) : Registry :=
  let slot := (r.slots.get? index).getD {}
  { r with
    slots := r.slots.set index
      { slot with
        successes := slot.successes + 1
        consecutiveFailures := 0
        lastSuccessAt := some now
        quarantinedUntil := none
        probeClaimedUntil := none } }

def logFailure (log : List (Int × Str)) (failure : Int × Str) : List (Int × Str) :=
  (log ++ [failure]).drop (log.length + 1 - failureLogMaxlen)

def recordFailure (r : Registry) (index : Nat) (errorClass : Str) (now : Int) : Registry :=
  let slot := (r.slots.get? index).getD {}
  let failed :=
    { slot with
      failures := slot.failures + 1
      consecutiveFailures := slot.consecutiveFailures + 1
      lastFailureAt := some now
      lastErrorClass := some errorClass }
  let slot :=
    if r.threshold ≤ failed.consecutiveFailures then
      { failed with quarantinedUntil := some (now + r.cooldown), probeClaimedUntil := none }
    else failed
  { r with slots := r.slots.set index slot,
           failureLog := logFailure r.failureLog (now, errorClass) }

/-! Selection. -/

/-- `_eligible`, which takes the probe of a half-open slot if it is to claim it. -/
def eligible (r : Registry) (index : Nat) (now : Int) (claim : Bool) : Registry × Bool :=
  match r.slots.get? index with
  | none => (r, true)
  | some slot =>
    match slot.state now with
    | .healthy => (r, true)
    | .quarantined => (r, false)
    | .halfOpen =>
      if slot.claimed now then (r, false)
      else if claim then
        let slot := { slot with probeClaimedUntil := some (now + r.halfOpenClaim) }
        ({ r with slots := r.slots.set index slot }, true)
      else (r, true)

def noteFailOpen (r : Registry) : Registry := { r with failOpenEvents := r.failOpenEvents + 1 }

def stateOf (r : Registry) (index : Nat) (now : Int) : SlotState :=
  match r.slots.get? index with
  | none => .healthy
  | some slot => slot.state now

def filterRotation (r : Registry) (order : List Nat) (now : Int) : Registry × List Nat :=
  let usable := order.filter fun index => (r.eligible index now false).2
  let healthy := usable.filter fun index => r.stateOf index now ≠ .halfOpen
  let halfOpen := usable.filter fun index => r.stateOf index now = .halfOpen
  let out := healthy ++ halfOpen
  if out ≠ [] ∨ order = [] then (r, out) else (r.noteFailOpen, order)

def selectFrom (r : Registry) (now : Int) : List Nat → Option (Registry × Nat)
  | [] => none
  | index :: rest =>
    let (r, usable) := r.eligible index now true
    if usable then some (r, index) else r.selectFrom now rest

def select (r : Registry) (order : List Nat) (now : Int) : Registry × Option Nat :=
  match order with
  | [] => (r, none)
  | first :: _ =>
    match r.selectFrom now order with
    | some (r, index) => (r, some index)
    | none => (r.noteFailOpen, some first)

/-! Diagnostics. -/

inductive Category where
  | dead | quarantined | probing
  deriving DecidableEq

/-- The category of a slot of the pool that is not healthy. -/
def category (r : Registry) (configured : Nat) (now : Int) (index : Nat) : Option Category :=
  (r.slots.get? index).bind fun slot =>
    if slot.state now = .healthy ∨ configured ≤ index then none
    else if slot.lastSuccessAt.all fun t => deadAfter < now - t then some .dead
    else if slot.state now = .quarantined then some .quarantined
    else some .probing

structure SlotRow where
  index : Nat
  state : SlotState
  successes : Nat
  failures : Nat
  consecutiveFailures : Nat
  lastSuccessAt : Option Int
  lastFailureAt : Option Int
  lastErrorClass : Option Str

structure Diagnostics where
  configured : Nat
  healthy : Nat
  concurrencyFloor : Nat
  headroom : Int
  quarantined : Nat
  probing : Nat
  dead : Nat
  failovers15m : Nat
  failovers1h : Nat
  failOpenEvents : Nat
  dominantFailureClass : Option Str
  quarantineThreshold : Nat
  quarantineSeconds : Int
  degraded : Bool
  slots : List SlotRow

def listing (r : Registry) (configured : Nat) : List Nat :=
  sortedBy id (List.range configured ++ r.slots.keys).dedup

def slotRow (r : Registry) (now : Int) (index : Nat) : SlotRow :=
  let slot := (r.slots.get? index).getD {}
  { index, state := r.stateOf index now, successes := slot.successes, failures := slot.failures
    consecutiveFailures := slot.consecutiveFailures, lastSuccessAt := slot.lastSuccessAt
    lastFailureAt := slot.lastFailureAt, lastErrorClass := slot.lastErrorClass }

/-- The texts of the verdict depend on `degraded` alone and are left out. -/
def diagnostics (r : Registry) (configured concurrencyFloor : Nat) (now : Int) : Diagnostics :=
  let categories := (r.listing configured).map (r.category configured now)
  let quarantined := categories.count (some .quarantined)
  let probing := categories.count (some .probing)
  let dead := categories.count (some .dead)
  let recent1h := r.failureLog.filter fun failure => now - 3600 * second ≤ failure.1
  let classes := recent1h.map Prod.snd
  let healthy := configured - quarantined - probing - dead
  { configured, healthy, concurrencyFloor, headroom := healthy - concurrencyFloor, quarantined,
    probing, dead
    failovers15m := recent1h.countP fun failure => now - 900 * second ≤ failure.1
    failovers1h := recent1h.length
    failOpenEvents := r.failOpenEvents
    dominantFailureClass := maxBy (fun errorClass => classes.count errorClass) classes
    quarantineThreshold := r.threshold
    quarantineSeconds := r.cooldown
    degraded := 0 < quarantined + probing + dead
    slots := (r.listing configured).map (r.slotRow now) }

end Registry

/-! Runs. -/

inductive Action where
  | recordSuccess (index : Nat) (now : Int)
  | recordFailure (index : Nat) (errorClass : Str) (now : Int)
  | select (order : List Nat) (now : Int)
  | filterRotation (order : List Nat) (now : Int)

def Action.now : Action → Int
  | .recordSuccess _ now => now
  | .recordFailure _ _ now => now
  | .select _ now => now
  | .filterRotation _ now => now

def step (r : Registry) : Action → Registry
  | .recordSuccess index now => r.recordSuccess index now
  | .recordFailure index errorClass now => r.recordFailure index errorClass now
  | .select order now => (r.select order now).1
  | .filterRotation order now => (r.filterRotation order now).1

end SharpEvPicks.Ingestion.ProxyHealth
