import SharpEvPicks.Pipeline.Snapshots
import SharpEvPicks.Transition.ChangeGate
import SharpEvPicks.Transition.Run

/-! The archive of Pinnacle's lines behind a version gate, `PinnacleArcadiaCapture` of
`app/ingestion/pinnacle_arcadia.py`. -/
namespace SharpEvPicks.Ingestion.Arcadia

open Python Pipeline Transition

/-- `SPORT_IDS`. -/
def sportIds : Dict Str Nat :=
  .ofList ([("soccer", 29), ("tennis", 33), ("basketball", 4), ("american_football", 15),
    ("baseball", 3), ("hockey", 19), ("rugby", 27), ("handball", 18)].map fun (sport, id) =>
    (String.toList sport, id))

def maxSeenVersions : Nat := 50000

/-- The version of a market that was never seen. -/
def unseen : Int := -1

structure MarketQuote where
  eventId : Str
  marketKey : Str
  version : Int
  snapshots : List Snapshot
  priced : snapshots ≠ []
  own : ∀ s ∈ snapshots, s.eventId = eventId

/-- The parsed payloads of a sport. A market is only quoted for an event that is a matchup. -/
structure Slate where
  matchups : List Str
  quotes : List MarketQuote
  listed : ∀ q ∈ quotes, q.eventId ∈ matchups

/-- How the two requests of a sport and the reading of their payloads end. -/
inductive Fetched where
  | failed
  | invalid
  | slate (slate : Slate)

/-- How `persist_odds_snapshots` ends. The rows of an event are written all or none. -/
inductive Persisted where
  | returned (rows : Nat) (failedEventIds : List Str)
  | raised

/-- Sport, event and market. -/
abbrev GateKey := Str × Str × Str

def gateKey (sport : Str) (q : MarketQuote) : GateKey := (sport, q.eventId, q.marketKey)

structure Selected where
  seenVersion : Dict GateKey Int
  fresh : List Snapshot := []
  teams : List Str := []

def selectQuote (sport : Str) (matchups : List Str) (b : Selected) (q : MarketQuote) : Selected :=
  if q.version ≤ (b.seenVersion.get? (gateKey sport q)).getD unseen then b
  else
    { seenVersion := b.seenVersion.set (gateKey sport q) q.version
      fresh := b.fresh ++ q.snapshots
      teams := if q.eventId ∈ matchups then b.teams ++ [q.eventId] else b.teams }

/-- The entries that were inserted first go. -/
def evict (seenVersion : Dict GateKey Int) : Dict GateKey Int :=
  if maxSeenVersions < seenVersion.entries.length then
    seenVersion.drop (seenVersion.entries.length - maxSeenVersions)
  else seenVersion

/-- `_select_fresh`. -/
def selectFresh (seenVersion : Dict GateKey Int) (sport : Str) (slate : Slate) : Selected :=
  let b := slate.quotes.foldl (selectQuote sport slate.matchups) { seenVersion }
  { b with seenVersion := evict b.seenVersion }

/-- What the gate held for every key that the quotes can touch. -/
def gatePrior (seenVersion : Dict GateKey Int) (sport : Str) (quotes : List MarketQuote) :
    Dict GateKey (Option Int) :=
  .ofList (quotes.map fun q => (gateKey sport q, seenVersion.get? (gateKey sport q)))

/-- The gate, and every row that was ever written, under its sport. -/
structure CaptureState where
  seenVersion : Dict GateKey Int
  rows : List (Str × Snapshot)

/-- `PinnacleArcadiaCapture`, as far as it is configured. -/
structure Capture where
  client : Bool := true
  sessionFactory : Bool := true
  sports : List Str

variable (cap : Capture)

/-- The rows of the events that resolve and do not fail. -/
def writtenRows (sport : Str) (b : Selected) (failed : List Str) : List (Str × Snapshot) :=
  (b.fresh.filter fun s => s.eventId ∈ b.teams ∧ s.eventId ∉ failed).map fun s => (sport, s)

def captureSlate (s : CaptureState) (sport : Str) (slate : Slate) (persisted : Persisted) :
    CaptureState × Nat :=
  let prior := gatePrior s.seenVersion sport slate.quotes
  let b := selectFresh s.seenVersion sport slate
  if b.fresh = [] ∨ cap.sessionFactory = false then ({ s with seenVersion := b.seenVersion }, 0)
  else
    match persisted with
    | .raised => ({ s with seenVersion := ChangeGate.restore b.seenVersion prior }, 0)
    | .returned rows failed =>
      (⟨ChangeGate.restore b.seenVersion (prior.filter fun key _ => key.2.1 ∈ failed),
        s.rows ++ writtenRows sport b failed⟩, rows)

structure SportPass where
  sport : Str
  fetched : Fetched
  persisted : Persisted

/-- What is captured of a sport: nothing of an unknown one, or of one that is hidden upstream. -/
def slateOf (liveIds : Option (List Nat)) (sport : Str) (fetched : Fetched) : Option Slate :=
  match sportIds.get? sport, fetched with
  | some id, .slate slate => if ∀ ids ∈ liveIds, id ∈ ids then some slate else none
  | _, _ => none

/-- A sport of a cycle up to its end, and the number of new rows that it reports. -/
def captureSport (liveIds : Option (List Nat)) (s : CaptureState) (pass : SportPass) :
    CaptureState × Option Nat :=
  match sportIds.get? pass.sport with
  | none => (s, none)
  | some id =>
    if ∀ ids ∈ liveIds, id ∈ ids then
      match pass.fetched with
      | .failed => (s, none)
      | .invalid => (s, some 0)
      | .slate slate =>
        let written := captureSlate cap s pass.sport slate pass.persisted
        (written.1, some written.2)
    else (s, some 0)

/-- A sport that is cancelled while its rows are written: none is. -/
def cancelSport (liveIds : Option (List Nat)) (s : CaptureState) (sport : Str) (fetched : Fetched) :
    CaptureState :=
  (slateOf liveIds sport fetched).elim s fun slate =>
    { s with seenVersion := (selectFresh s.seenVersion sport slate).seenVersion }

inductive CaptureStep where
  | sport (liveIds : Option (List Nat)) (pass : SportPass)
  | cancelled (liveIds : Option (List Nat)) (sport : Str) (fetched : Fetched)

def captureStep (s : CaptureState) : CaptureStep → CaptureState
  | .sport liveIds pass => (captureSport cap liveIds s pass).1
  | .cancelled liveIds sport fetched => cancelSport liveIds s sport fetched

/-- Where a cycle is cancelled: at a request, or while the rows of a sport are written. -/
inductive Cut where
  | fetching
  | persisting (sport : Str) (fetched : Fetched)

/-- The live sports, where they were discovered, the sports that a cycle completes, and its cut. -/
structure Cycle where
  liveIds : Option (List Nat) := none
  passes : List SportPass
  cut : Option Cut := none

/-- `capture_once`; a cancelled cycle returns nothing. -/
def captureOnce (s : CaptureState) (c : Cycle) : CaptureState × Option (Dict Str Nat) :=
  if cap.client then
    let done := c.passes.foldl (fun acc pass =>
      let written := captureSport cap c.liveIds acc.1 pass
      (written.1, written.2.elim acc.2 (acc.2.set pass.sport))) (s, Dict.empty)
    match c.cut with
    | none => (done.1, some done.2)
    | some .fetching => (done.1, none)
    | some (.persisting sport fetched) => (cancelSport c.liveIds done.1 sport fetched, none)
  else (s, some (.ofList (cap.sports.map fun sport => (sport, 0))))

end SharpEvPicks.Ingestion.Arcadia
