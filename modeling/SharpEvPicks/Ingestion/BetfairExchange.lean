import SharpEvPicks.Pipeline.Snapshots
import SharpEvPicks.Transition.ChangeGate
import SharpEvPicks.Transition.Run

/-! The capture of exchange prices behind a change gate, `BetfairExchangeCapture` of
`app/ingestion/betfair_exchange.py`. -/
namespace SharpEvPicks.Ingestion

open Python Pipeline Transition

/-- `SPORT_SEGMENTS`. -/
def sportSegments : List Str := ["soccer", "basketball"].map String.toList

def maxSeenPrices : Nat := 20000

/-- Sport, event and selection. -/
abbrev GateKey := Str × Str × Str

/-- One target of a pass: what `read_snapshots` returned, nothing where it raised. -/
structure TargetRead where
  eventId : Str
  snapshots : Option (List Snapshot)
  own : ∀ s ∈ snapshots.getD [], s.eventId = eventId

structure Batch where
  seenPrice : Dict GateKey ℚ
  fresh : List Snapshot
  gatePrior : Dict GateKey (Option ℚ)

def gateKey (sport eventId : Str) (s : Snapshot) : GateKey := (sport, eventId, s.selection)

/-- The entries that were inserted first go. -/
def evict (seenPrice : Dict GateKey ℚ) : Dict GateKey ℚ :=
  if maxSeenPrices < seenPrice.entries.length then
    seenPrice.drop (seenPrice.entries.length - maxSeenPrices)
  else seenPrice

/-- `_select_fresh`. -/
def selectFresh (seenPrice : Dict GateKey ℚ) (sport eventId : Str) (snapshots : List Snapshot) :
    Dict GateKey ℚ × List Snapshot :=
  let state := snapshots.foldl (ChangeGate.offer (gateKey sport eventId) Snapshot.decimalOdds)
    (seenPrice, [])
  (evict state.1, state.2)

/-- The earlier price of each key that is touched for the first time. -/
def notePrior (seenPrice : Dict GateKey ℚ) (prior : Dict GateKey (Option ℚ)) (key : GateKey) :
    Dict GateKey (Option ℚ) :=
  if (prior.get? key).isSome then prior else prior.set key (seenPrice.get? key)

def readTarget (sport : Str) (b : Batch) (r : TargetRead) : Batch :=
  match r.snapshots with
  | none | some [] => b
  | some snapshots =>
    let prior := (snapshots.map (gateKey sport r.eventId)).foldl (notePrior b.seenPrice) b.gatePrior
    let selected := selectFresh b.seenPrice sport r.eventId snapshots
    ⟨selected.1, b.fresh ++ selected.2, prior⟩

def Batch.start (seenPrice : Dict GateKey ℚ) : Batch := ⟨seenPrice, [], Dict.empty⟩

def readTargets (seenPrice : Dict GateKey ℚ) (sport : Str) (targets : List TargetRead) : Batch :=
  targets.foldl (readTarget sport) (.start seenPrice)

/-- How `persist_odds_snapshots` ends. The rows of an event are written all or none. -/
inductive Persisted where
  | returned (rows : Nat) (failedEventIds : List Str)
  /-- An exception, and the events whose rows are written all the same. -/
  | raised (landed : List Str)

structure SportPass where
  sport : Str
  targets : List TargetRead
  persisted : Persisted

/-- The gate, and every row that was ever written, under its sport. -/
structure CaptureState where
  seenPrice : Dict GateKey ℚ
  rows : List (Str × Snapshot)

def writtenRows (sport : Str) (fresh : List Snapshot) (lands : Str → Bool) :
    List (Str × Snapshot) :=
  (fresh.filter fun s => lands s.eventId).map fun s => (sport, s)

/-- A sport of a cycle up to its end, and the number of new rows that it reports. -/
def captureSport (s : CaptureState) (pass : SportPass) : CaptureState × Option Nat :=
  if pass.sport ∈ sportSegments then
    let b := readTargets s.seenPrice pass.sport pass.targets
    if b.fresh = [] then ({ s with seenPrice := b.seenPrice }, some 0)
    else
      match pass.persisted with
      | .raised landed =>
        (⟨ChangeGate.restore b.seenPrice b.gatePrior,
          s.rows ++ writtenRows pass.sport b.fresh (· ∈ landed)⟩, some 0)
      | .returned rows failed =>
        (⟨ChangeGate.restore b.seenPrice (b.gatePrior.filter fun key _ => key.2.1 ∈ failed),
          s.rows ++ writtenRows pass.sport b.fresh (· ∉ failed)⟩, some rows)
  else (s, none)

/-- A sport that is cancelled before its commit, with the targets that it had read. -/
def cancelSport (s : CaptureState) (sport : Str) (targets : List TargetRead) : CaptureState :=
  if sport ∈ sportSegments then
    { s with seenPrice := (readTargets s.seenPrice sport targets).seenPrice } else s

inductive CaptureStep where
  | sport (pass : SportPass)
  | cancelled (sport : Str) (targets : List TargetRead)

def captureStep (s : CaptureState) : CaptureStep → CaptureState
  | .sport pass => (captureSport s pass).1
  | .cancelled sport targets => cancelSport s sport targets

/-- The sports that a cycle completes, and the one in which it is cancelled. -/
structure Cycle where
  passes : List SportPass
  cancelled : Option (Str × List TargetRead) := none

/-- `capture_once`; a cancelled cycle returns nothing. -/
def captureOnce (s : CaptureState) (c : Cycle) : CaptureState × Option (Dict Str Nat) :=
  let done := c.passes.foldl (fun acc pass =>
    let (s, rows) := captureSport acc.1 pass
    (s, rows.elim acc.2 (acc.2.set pass.sport))) (s, Dict.empty)
  match c.cancelled with
  | none => (done.1, some done.2)
  | some (sport, targets) => (cancelSport done.1 sport targets, none)

end SharpEvPicks.Ingestion
