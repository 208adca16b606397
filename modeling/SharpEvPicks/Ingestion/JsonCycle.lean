import SharpEvPicks.Pipeline.Snapshots
import SharpEvPicks.Python.FixedPoint
import SharpEvPicks.Transition.Partial

/-! One poll cycle over the match pages, `app/ingestion/oddsportal_json_session.py`: workers that
share a queue of matches, retries outside the slot, and the completeness gate. -/
namespace SharpEvPicks.Ingestion.JsonCycle

open Python Pipeline Transition

/-! Errors. -/

/-- What a scrape raises: the two HTTP errors by their type, everything else by its libcurl code. -/
inductive Fault where
  | transientStatus
  | permanentStatus
  | other (code : Option Int)
  deriving DecidableEq

def transientCurlCodes : List Int := [28, 7, 56, 55, 52, 18, 35]

def permanentCurlCodes : List Int := [6, 60, 77, 3, 1, 5]

inductive Kind where
  | transient | permanent | unknown
  deriving DecidableEq

/-- `classify_curl_error`. -/
def classifyCurlError : Fault → Kind
  | .transientStatus => .transient
  | .permanentStatus => .permanent
  | .other none => .unknown
  | .other (some code) =>
    if code ∈ transientCurlCodes then .transient
    else if code ∈ permanentCurlCodes then .permanent
    else .unknown

/-- `_is_transient_exception`. The other predicate of the retry reads the status of a list, which
has none. -/
def isTransientException (fault : Fault) : Bool := classifyCurlError fault = .transient

/-- What the scrape of a match came to in the end; `exceeded` is `CycleResourceLimitError`. -/
inductive Scraped where
  | rows (snapshots : List Snapshot)
  | failed (fault : Fault)
  | exceeded

namespace Scraped

def snapshots : Scraped → List Snapshot
  | rows snapshots => snapshots
  | failed _ => []
  | exceeded => []

def isKind (kind : Kind) : Scraped → Bool
  | rows _ => false
  | failed fault => classifyCurlError fault = kind
  | exceeded => kind = .unknown

def isExceeded : Scraped → Bool
  | exceeded => true
  | _ => false

def isEmpty : Scraped → Bool
  | rows snapshots => snapshots = []
  | _ => false

end Scraped

/-! The gate. -/

/-- `repr` of a text. -/
class Reprs where
  repr : Str → Str

/-- `format(x, ".0%")`. -/
def percentText (x : ℚ) : Str :=
  (if x < 0 then ['-'] else []) ++ natText (fixedUnits 0 (x * 100)) ++ ['%']

/-- `str` of a list of texts. -/
def listText [Reprs] (texts : List Str) : Str :=
  '[' :: join ", ".toList (texts.map Reprs.repr) ++ [']']

/-- The market a row is counted under. -/
def countKey (s : Snapshot) : Str := (s.marketDetail.filter (· ≠ [])).getD s.market.value

/-- `_count_per_market`. -/
def countPerMarket (snapshots : List Snapshot) : Dict Str Nat :=
  snapshots.foldl (fun counts s => counts.modify (countKey s) fun count => count.getD 0 + 1) .empty

/-- `_market_covered`. -/
def marketCovered (market : Str) (perMarket : Dict Str Nat) : Bool :=
  0 < (perMarket.get? market).getD 0 || perMarket.entries.any fun e =>
    (market ++ ['_']).isPrefixOf e.1 && 0 < e.2

structure Gate where
  markets : List Str
  prevCycleRows : Option Nat := none
  completenessFloor : ℚ := 4 / 5
  requireMarketCoverage : Bool := true

/-- The previous count of which too few rows are left. -/
def Gate.collapsed (gate : Gate) (rows : Nat) : Option Nat :=
  gate.prevCycleRows.filter fun prev => 0 < prev ∧ (rows : ℚ) < gate.completenessFloor * prev

def Gate.missing (gate : Gate) (perMarket : Dict Str Nat) : List Str :=
  gate.markets.filter fun market => !marketCovered market perMarket

/-- `_evaluate_completeness`. -/
def evaluateCompleteness [Reprs] (gate : Gate) (snapshots : List Snapshot)
    (perMarket : Dict Str Nat) (matchesTotal failureTotal : Nat) : Bool × Str :=
  if matchesTotal = 0 then (true, [])
  else if 0 < failureTotal then
    (false, natText failureTotal ++ " listed match fetch(es) failed".toList)
  else if snapshots.length = 0 then
    (false, "0 rows from ".toList ++ natText matchesTotal ++ " listed match(es)".toList)
  else
    match gate.collapsed snapshots.length with
    | some prev =>
      (false, "row collapse: ".toList ++ natText snapshots.length ++ " rows < ".toList ++
        percentText gate.completenessFloor ++ " of previous ".toList ++ natText prev)
    | none =>
      if gate.requireMarketCoverage ∧ gate.missing perMarket ≠ [] ∧
          (gate.missing perMarket).length ≠ gate.markets.length then
        (false, "expected markets returned 0 rows: ".toList ++ listText (gate.missing perMarket))
      else (true, [])

/-! The cycle. -/

def matchMaxAttempts : Nat := 3

/-- The arguments of `run_cycle`, past the checks that raise `ValueError`. -/
structure Cycle where
  matchUrls : List Str
  gate : Gate
  concurrency : Int := 8
  maxMatchUrls : Nat := 2000
  maxSnapshotsPerMatch : Nat := 5000
  maxSnapshotsPerCycle : Nat := 250000
  urls_pos : 1 ≤ maxMatchUrls := by decide
  perMatch_pos : 1 ≤ maxSnapshotsPerMatch := by decide
  perCycle_pos : 1 ≤ maxSnapshotsPerCycle := by decide

/-- A worker between two awaits, with its match and the number of the attempt. -/
inductive Worker where
  | ready
  | waiting (url : Str) (attempt : Nat)
  | scraping (url : Str) (attempt : Nat)
  | backoff (url : Str) (attempt : Nat)
  | returned

namespace Worker

def url? : Worker → Option Str
  | ready => none
  | waiting url _ => some url
  | scraping url _ => some url
  | backoff url _ => some url
  | returned => none

def isScraping : Worker → Bool
  | scraping _ _ => true
  | _ => false

def isReturned : Worker → Bool
  | returned => true
  | _ => false

end Worker

/-- The variables of `run_cycle` and its workers; `finished` is what became of each match so far. -/
structure World where
  queue : List Str
  workers : List Worker
  snapshots : List Snapshot := []
  matchesWithOdds : Nat := 0
  transient : Nat := 0
  permanent : Nat := 0
  unknown : Nat := 0
  resourceReason : Str := []
  finished : List (Str × Scraped) := []

structure CycleOutcome where
  snapshots : List Snapshot
  complete : Bool
  reason : Str
  matchesTotal : Nat
  matchesWithOdds : Nat := 0
  transientFailures : Nat := 0
  permanentFailures : Nat := 0
  unknownFailures : Nat := 0
  perMarket : Dict Str Nat := .empty

inductive Action where
  | pull (worker : Nat)
  | enter (worker : Nat)
  | reply (worker : Nat) (result : Except Fault (List Snapshot))
  | wake (worker : Nat)

namespace Cycle
variable (c : Cycle)

def matchesTotal : Nat := c.matchUrls.length

def workerCount : Nat :=
  (max 1 (min c.concurrency (if c.matchesTotal = 0 then 1 else c.matchesTotal))).toNat

def start : World where
  queue := c.matchUrls
  workers := List.replicate c.workerCount .ready

def perMatchReason : Str :=
  "one match exceeded snapshot ceiling (".toList ++ natText c.maxSnapshotsPerMatch ++ [')']

def perCycleReason : Str :=
  "cycle snapshot ceiling exceeded (".toList ++ natText c.maxSnapshotsPerCycle ++ [')']

/-- What `_scrape_one_with_retry` makes of the rows of a match. -/
def checked (rows : List Snapshot) : Scraped :=
  if c.maxSnapshotsPerMatch < rows.length then .exceeded else .rows rows

/-- The body of the loop of `_worker` once the scrape is over. -/
def settle (w : World) (i : Nat) (url : Str) (scraped : Scraped) : World :=
  let w := { w with workers := w.workers.set i .ready, finished := w.finished ++ [(url, scraped)] }
  match scraped with
  | .exceeded => { w with unknown := w.unknown + 1, resourceReason := c.perMatchReason }
  | .failed fault =>
    match classifyCurlError fault with
    | .transient => { w with transient := w.transient + 1 }
    | .permanent => { w with permanent := w.permanent + 1 }
    | .unknown => { w with unknown := w.unknown + 1 }
  | .rows rows =>
    if w.resourceReason ≠ [] ∨ rows = [] then w
    else if c.maxSnapshotsPerCycle < w.snapshots.length + rows.length then
      { w with resourceReason := c.perCycleReason }
    else { w with matchesWithOdds := w.matchesWithOdds + 1, snapshots := w.snapshots ++ rows }

/-- The head of the loop: a worker returns or takes the next match. -/
def pull (w : World) (i : Nat) : World :=
  if w.resourceReason ≠ [] then { w with workers := w.workers.set i .returned }
  else
    match w.queue with
    | [] => { w with workers := w.workers.set i .returned }
    | url :: rest => { w with queue := rest, workers := w.workers.set i (.waiting url 1) }

def inFlight (w : World) : Nat := w.workers.countP Worker.isScraping

/-- An attempt returns or raises; its slot is free again before the retry sleeps. -/
def reply (w : World) (i : Nat) (url : Str) (attempt : Nat) : Except Fault (List Snapshot) → World
  | .ok rows => c.settle w i url (c.checked rows)
  | .error fault =>
    if isTransientException fault ∧ attempt < matchMaxAttempts then
      { w with workers := w.workers.set i (.backoff url attempt) }
    else c.settle w i url (.failed fault)

def step (w : World) : Action → Option World
  | .pull i =>
    match w.workers[i]? with
    | some .ready => some (pull w i)
    | _ => none
  | .enter i =>
    match w.workers[i]? with
    | some (.waiting url attempt) =>
      if inFlight w < c.workerCount then
        some { w with workers := w.workers.set i (.scraping url attempt) } else none
    | _ => none
  | .reply i result =>
    match w.workers[i]? with
    | some (.scraping url attempt) => some (c.reply w i url attempt result)
    | _ => none
  | .wake i =>
    match w.workers[i]? with
    | some (.backoff url attempt) =>
      some { w with workers := w.workers.set i (.waiting url (attempt + 1)) }
    | _ => none

/-- The matches are too many to begin. -/
def tooMany : Bool := c.maxMatchUrls < c.matchesTotal

def refusal : CycleOutcome where
  snapshots := []
  complete := false
  reason := "listed match URL ceiling exceeded (".toList ++ natText c.maxMatchUrls ++ [')']
  matchesTotal := c.matchesTotal

def verdict [Reprs] (w : World) : Bool × Str :=
  if w.resourceReason ≠ [] then (false, w.resourceReason)
  else
    evaluateCompleteness c.gate w.snapshots (countPerMarket w.snapshots) c.matchesTotal
      (w.transient + w.permanent + w.unknown)

/-- What `run_cycle` returns after the gather. -/
def outcome [Reprs] (w : World) : CycleOutcome where
  snapshots := w.snapshots
  complete := (c.verdict w).1
  reason := (c.verdict w).2
  matchesTotal := c.matchesTotal
  matchesWithOdds := w.matchesWithOdds
  transientFailures := w.transient
  permanentFailures := w.permanent
  unknownFailures := w.unknown
  perMarket := countPerMarket w.snapshots

end Cycle

/-- The gather is over. -/
def World.done (w : World) : Prop := ∀ worker ∈ w.workers, worker.isReturned

/-- `run_cycle` can return this, the scrapes and the scheduler being as they may. -/
def Returns [Reprs] (c : Cycle) (out : CycleOutcome) : Prop :=
  (c.tooMany ∧ out = c.refusal) ∨
    (¬ c.tooMany ∧ ∃ actions w, trace c.step c.start actions = some w ∧ w.done ∧
      out = c.outcome w)

/-! Cycle after cycle, `_json_cycle_snapshots` of `app/ingestion/oddsportal.py`. -/

/-- The baseline of a sport after a cycle. -/
def nextBaseline (prev : Option Nat) (out : CycleOutcome) : Option Nat :=
  if out.complete ∧ out.snapshots ≠ [] then some out.snapshots.length else prev

end SharpEvPicks.Ingestion.JsonCycle
