import Mathlib.Algebra.Order.Ring.Rat
import Mathlib.Data.Finset.Card
import Mathlib.Data.Rat.Defs
import SharpEvPicks.Python.Sizes
import SharpEvPicks.Transition.Partial
import SharpEvPicks.Transition.RoundRobin

/-! The key slots of The Odds API client, `app/ingestion/odds_api.py`: `fetch_odds` request by
request. Times are in seconds. -/
namespace SharpEvPicks.Ingestion.OddsApi

open Python Transition

def transientStatuses : List Int := [408, 500, 502, 503, 504]

def maxStatusAttempts : Nat := 3

def invalidKeyCooldown : ℚ := 315360000

def defaultRateLimitCooldown : ℚ := 60

def maxEventsPerResponse : Nat := 5000

/-- A body of status 200. -/
inductive Payload where
  | notJson
  | notList
  /-- So many events; `_parse` may raise at its ceilings. -/
  | events (count : Nat) (parses : Bool)
  deriving DecidableEq

structure Response where
  statusCode : Int
  /-- `_retry_after_seconds` of the header. -/
  retryAfter : Option ℚ
  /-- `int` of the header `x-requests-remaining`. -/
  remaining : Option Int
  payload : Payload
  deriving DecidableEq

/-- One slot that is being requested, at the clock of the attempt. -/
structure Flight where
  index : Nat
  now : ℚ
  attempt : Nat
  deriving DecidableEq

/-- A call of `fetch_odds` that has not returned. -/
structure Fetch where
  attempted : Finset Nat := ∅
  flight : Option Flight := none
  deriving DecidableEq

structure Client where
  cursor : Nat := 0
  cooldownUntil : Dict Nat ℚ := .empty
  requests : Nat := 0
  retries : Nat := 0
  rateLimited : Nat := 0
  rejectedKeys : Nat := 0
  quotaRemaining : Dict Nat Int := .empty
  deriving DecidableEq

structure World where
  client : Client := {}
  fetch : Option Fetch := none
  clock : ℚ := 0
  deriving DecidableEq

inductive Action where
  | fetchOdds
  /-- The head of the loop over the slots. -/
  | attempt (now : ℚ)
  /-- One request raises `httpx.TransportError`. -/
  | transportError
  /-- One request raises `UpstreamBodyTooLarge`. -/
  | bodyTooLarge
  | respond (response : Response)
  /-- The watchdog cancels the call, within a request or between two. -/
  | cancelled (requesting : Bool)
  deriving DecidableEq

def Client.cooling (client : Client) (now : ℚ) (index : Nat) : Bool :=
  now < (client.cooldownUntil.get? index).getD now

section Slots
variable (slots : Nat)

/-- `_next_key_index`. -/
def nextKeyIndex (client : Client) (now : ℚ) (attempted : Finset Nat) : Option Nat :=
  seek slots client.cursor fun index => index ∉ attempted && !client.cooling now index

/-- `_record_quota`. -/
def recordQuota (client : Client) (index : Nat) (response : Response) : Client :=
  match response.remaining with
  | some remaining =>
    if 0 ≤ remaining then
      { client with quotaRemaining := client.quotaRemaining.set index remaining } else client
  | none => client

/-- What a response that is not retried does, and whether the loop goes on to the next slot. -/
def settled (client : Client) (flight : Flight) (response : Response) : Client × Bool :=
  let client := recordQuota client flight.index response
  if response.statusCode = 401 then
    ({ client with
        rejectedKeys := client.rejectedKeys + 1
        cooldownUntil := client.cooldownUntil.set flight.index (flight.now + invalidKeyCooldown) },
          true)
  else if response.statusCode = 429 then
    ({ client with
        rateLimited := client.rateLimited + 1
        cooldownUntil :=
          client.cooldownUntil.set flight.index
            (flight.now + response.retryAfter.getD defaultRateLimitCooldown) }, true)
  else if response.statusCode ≠ 200 then (client, false)
  else
    match response.payload with
    | .notJson => (client, false)
    | .notList => (client, false)
    | .events count _ =>
      if maxEventsPerResponse < count then (client, false)
      else ({ client with cooldownUntil := client.cooldownUntil.pop flight.index }, false)

def step (w : World) : Action → Option World
  | .fetchOdds => if w.fetch.isNone then some { w with fetch := some {} } else none
  | .attempt now =>
    match w.fetch with
    | none => none
    | some fetch =>
      if fetch.flight.isNone ∧ w.clock ≤ now then
        match if fetch.attempted.card < slots then nextKeyIndex slots w.client now fetch.attempted
          else none with
        | none => some { w with clock := now, fetch := none }
        | some index =>
          some
            { client := { w.client with cursor := (index + 1) % slots }
              fetch := some
                { attempted := insert index fetch.attempted,
                  flight := some { index := index, now := now, attempt := 0 } }
              clock := now }
      else none
  | .transportError =>
    match w.fetch with
    | some { attempted, flight := some flight } =>
      if flight.attempt + 1 = maxStatusAttempts then
        some { w with client := { w.client with requests := w.client.requests + 1 }, fetch := none }
      else
        some { w with
          client := { w.client with requests := w.client.requests + 1,
                                    retries := w.client.retries + 1 }
          fetch := some { attempted := attempted,
                          flight := some { flight with attempt := flight.attempt + 1 } } }
    | _ => none
  | .bodyTooLarge =>
    match w.fetch with
    | some { attempted := _, flight := some _ } =>
      some { w with client := { w.client with requests := w.client.requests + 1 }, fetch := none }
    | _ => none
  | .respond response =>
    match w.fetch with
    | some { attempted, flight := some flight } =>
      let client := { w.client with requests := w.client.requests + 1 }
      if response.statusCode ∈ transientStatuses ∧ flight.attempt + 1 ≠ maxStatusAttempts then
        some { w with
          client := { client with retries := client.retries + 1 }
          fetch := some { attempted := attempted,
                          flight := some { flight with attempt := flight.attempt + 1 } } }
      else
        let (client, rotates) := settled client flight response
        some { w with client := client, fetch := if rotates then some { attempted := attempted }
          else none }
    | _ => none
  | .cancelled requesting =>
    match w.fetch with
    | some { attempted := _, flight := some _ } =>
      some { w with client := { w.client with requests := w.client.requests + requesting.toNat },
                    fetch := none }
    | _ => none

/-- The slot that an action takes up. -/
def taken (w : World) : Action → Option Nat
  | .attempt now =>
    w.fetch.bind fun fetch => if fetch.attempted.card < slots then
      nextKeyIndex slots w.client now fetch.attempted else none
  | _ => none

/-- The slots that a run takes up, in its order. -/
def turns (w : World) : List Action → List Nat
  | [] => []
  | a :: rest => (taken slots w a).toList ++
      ((step slots w a).map fun next => turns next rest).getD []

end Slots
end SharpEvPicks.Ingestion.OddsApi
