import Mathlib.Data.Char
import Mathlib.Data.List.Lex
import SharpEvPicks.Ingestion.BetfairBsp
import SharpEvPicks.Python.Calendar

/-! The cache of parsed markets: `write_market_cache` and `read_market_cache` of
`app/ingestion/betfair_bsp.py`. A cache is its lines. -/
namespace SharpEvPicks.Ingestion

open Python

/-- How the interpreter prints: `json.dumps(d, separators=(",", ":"))`, and `str` of a `Decimal`. -/
class Printers where
  dumps : Json → Str
  decimal : ℚ → Str

inductive CacheFault where
  /-- `KeyError`, `ValueError` or `TypeError`. -/
  | unread
  | overflow
  | attributeError
  /-- A value that its field does not declare, which the dataclass takes all the same. -/
  | undeclared
  /-- What `json.loads` raises beside `ValueError`. -/
  | loads
  deriving DecidableEq

def orNull {α : Type} (json : α → Json) (value : Option α) : Json := value.elim .null json

section Writing
variable [Printers]

def decimalText (price : ℚ) : Json := .str (Printers.decimal price)

def timeJson (t : Int) : Json := .str (isoformat t)

/-- An item of `runners` in `_market_to_dict`. -/
def runnerToDict (r : BetfairRunner) : Json :=
  .obj
    [("selection_id".toList, .int r.selectionId),
      ("name".toList, orNull .str r.name),
      ("sort_priority".toList, orNull .int r.sortPriority),
      ("status".toList, .str r.status),
      ("close_price".toList, orNull decimalText r.closePrice),
      ("bsp".toList, orNull decimalText r.bsp),
      ("won".toList, orNull .bool r.won)]

/-- `_market_to_dict`. -/
def marketToDict (m : BetfairMarketClose) : Json :=
  .obj
    [("market_id".toList, .str m.marketId),
      ("event_type_id".toList, orNull .str m.eventTypeId),
      ("event_name".toList, orNull .str m.eventName),
      ("competition".toList, orNull .str m.competition),
      ("market_type".toList, orNull .str m.marketType),
      ("kickoff_utc".toList, orNull timeJson m.kickoffUtc),
      ("in_play_utc".toList, orNull timeJson m.inPlayUtc),
      ("settled".toList, .bool m.settled),
      ("bsp_reconciled".toList, .bool m.bspReconciled),
      ("event_id".toList, orNull .str m.eventId),
      ("settled_time_utc".toList, orNull timeJson m.settledTimeUtc),
      ("runners".toList, .arr (m.runners.map runnerToDict))]

def writeMarketCache (markets : List BetfairMarketClose) : List Str :=
  markets.map fun m => Printers.dumps (marketToDict m)

end Writing

section Reading
variable [Readers]

/-- `_dt_from_iso`. -/
def dtFromIso (raw : Json) : Except CacheFault (Option Int) :=
  match raw.asStr with
  | none | some [] => .ok none
  | some raw =>
    match Readers.fromisoformat raw with
    | none => .error .unread
    | some ⟨fields, none⟩ => .ok (some fields)
    | some ⟨fields, some offset⟩ =>
      if minInstant ≤ fields - offset ∧ fields - offset ≤ maxInstant then
        .ok (some (fields - offset))
      else .error .overflow

/-- A value that is taken as it is: `None`, or what the field declares. -/
def declared {α : Type} (read : Json → Option α) (value : Json) :
    Except CacheFault (Option α) :=
  match value with
  | .null => .ok none
  | value =>
    match read value with
    | some a => .ok (some a)
    | none => .error .undeclared

def asBool : Json → Option Bool
  | .bool b => some b
  | _ => none

/-- `int(r["selection_id"])`. -/
def selectionIdOf (r : Members) : Except CacheFault Int :=
  if r.any fun m => m.1 = "selection_id".toList then
    match (r.get "selection_id".toList).toInt with
    | .ok n => .ok n
    | .error .unread => .error .unread
    | .error .overflow => .error .overflow
  else .error .unread

def runnerFromDict (r : Json) : Except CacheFault BetfairRunner :=
  match r.asObj with
  | none => .error .unread
  | some r => do
    let selectionId ← selectionIdOf r
    let name ← declared Json.asStr (r.get "name".toList)
    let sortPriority ← declared Json.asInt (r.get "sort_priority".toList)
    let won ← declared asBool (r.get "won".toList)
    return ⟨selectionId, name, sortPriority, textOf (r.get "status".toList),
      toDecimal (r.get "close_price".toList), toDecimal (r.get "bsp".toList), won⟩

/-- What a loop over `d.get("runners", [])` goes through. -/
def runnerItems (d : Members) : Except CacheFault (List Json) :=
  if d.any fun m => m.1 = "runners".toList then
    match d.get "runners".toList with
    | .arr items => .ok items
    | .str s => .ok (s.map fun c => .str [c])
    | .obj members => .ok (members.map fun m => .str m.1)
    | _ => .error .unread
  else .ok []

/-- `_market_from_dict`. -/
def marketFromDict (d : Json) : Except CacheFault BetfairMarketClose :=
  match d.asObj with
  | none => .error .attributeError
  | some d => do
    let runners ← (← runnerItems d).mapM runnerFromDict
    let eventTypeId ← declared Json.asStr (d.get "event_type_id".toList)
    let eventName ← declared Json.asStr (d.get "event_name".toList)
    let competition ← declared Json.asStr (d.get "competition".toList)
    let marketType ← declared Json.asStr (d.get "market_type".toList)
    let kickoffUtc ← dtFromIso (d.get "kickoff_utc".toList)
    let inPlayUtc ← dtFromIso (d.get "in_play_utc".toList)
    let settledTimeUtc ← dtFromIso (d.get "settled_time_utc".toList)
    let eventId := d.get "event_id".toList
    return ⟨textOf (d.get "market_id".toList), eventTypeId, eventName, competition, marketType,
      kickoffUtc, inPlayUtc,
      (d.get "settled".toList).truthy, (d.get "bsp_reconciled".toList).truthy, runners,
      if eventId.truthy then some eventId.toStr else none, settledTimeUtc⟩

/-- The markets of the lines that can be read. -/
def cachedMarkets : List Str → Except CacheFault (List BetfairMarketClose)
  | [] => .ok []
  | line :: rest =>
    if strip line = [] then cachedMarkets rest
    else
      match Readers.loads line with
      | .error .notJson | .error .unread => cachedMarkets rest
      | .error .raised => .error .loads
      | .ok d =>
        match marketFromDict d with
        | .error .unread => cachedMarkets rest
        | .error fault => .error fault
        | .ok m => (cachedMarkets rest).map (m :: ·)

/-- `(m.kickoff_utc or datetime.min, m.market_id)`. -/
def cacheKey (m : BetfairMarketClose) : Int ×ₗ Str :=
  toLex (m.kickoffUtc.getD minInstant, m.marketId)

def readMarketCache (lines : List Str) : Except CacheFault (List BetfairMarketClose) :=
  (cachedMarkets lines).map (sortedBy cacheKey)

end Reading

end SharpEvPicks.Ingestion
