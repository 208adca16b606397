import SharpEvPicks.Python.Dict
import SharpEvPicks.Python.Json
import SharpEvPicks.Python.Sorting
import Mathlib.Data.Prod.Lex

/-! The close of one market of the exchange from the lines of its stream,
`parse_market_stream` of `app/ingestion/betfair_bsp.py`. -/
namespace SharpEvPicks.Ingestion

open Python

structure BetfairRunner where
  selectionId : Int
  name : Option Str
  sortPriority : Option Int
  status : Str
  closePrice : Option ℚ
  bsp : Option ℚ
  won : Option Bool
  deriving DecidableEq

structure BetfairMarketClose where
  marketId : Str
  eventTypeId : Option Str
  eventName : Option Str
  competition : Option Str
  marketType : Option Str
  kickoffUtc : Option Int
  inPlayUtc : Option Int
  settled : Bool
  bspReconciled : Bool
  runners : List BetfairRunner
  eventId : Option Str
  settledTimeUtc : Option Int
  deriving DecidableEq

/-- The exceptions that leave the parser. -/
inductive StreamFault where
  /-- `OverflowError`, of a number or of a time. -/
  | overflow
  /-- What `json.loads` raises beside `JSONDecodeError`. -/
  | loads
  deriving DecidableEq

/-- The instants that a `datetime` has. -/
def minInstant : Int := -62135596800000000

def maxInstant : Int := 253402300799999999

/-- `_RunnerLadder`: the prices by level, displayed and raw, and the last traded price. -/
structure RunnerLadder where
  bdatb : Dict Int ℚ
  batb : Dict Int ℚ
  ltp : Option ℚ

structure StreamState where
  marketId : Option Str
  latestDef : Option Members
  ladders : Dict Int RunnerLadder
  preInplay : Option (Dict Int ℚ)
  inPlayUtc : Option Int

def StreamState.start : StreamState := ⟨none, none, Dict.empty, none, none⟩

def timeText (raw : Str) : Str :=
  let text := strip raw
  if text.getLast? = some 'Z' then text.dropLast ++ "+00:00".toList else text

section
variable [Readers]

def toDecimal (value : Json) : Option ℚ :=
  match value.decimalOf with
  | some (.finite d) => if 1 < d then some d else none
  | _ => none

def parseMarketTime (value : Json) : Except StreamFault (Option Int) :=
  match value.asStr with
  | none | some [] => .ok none
  | some raw =>
    match Readers.fromisoformat (timeText raw) with
    | none => .ok none
    | some ⟨fields, none⟩ => .ok (some fields)
    | some ⟨fields, some offset⟩ =>
      if minInstant ≤ fields - offset ∧ fields - offset ≤ maxInstant then
        .ok (some (fields - offset))
      else .error .overflow

def epochMsToUtc : Json → Option Int
  | .int n => Readers.fromtimestamp (.int n)
  | .float x => Readers.fromtimestamp (.float x)
  | _ => none

/-! The ladder of a runner. -/

/-- Level and price of a row of a ladder, without a price where the level goes; nothing for a
malformed row. -/
def readDelta : Json → Except StreamFault (Option (Int × Option ℚ))
  | .arr (level :: price :: size :: _) =>
    match level.toInt with
    | .error .unread => .ok none
    | .error .overflow => .error .overflow
    | .ok level =>
      match size.toFloat with
      | .error .unread => .ok (some (level, none))
      | .error .overflow => .error .overflow
      | .ok (.finite size) => .ok (some (level, if size ≤ 0 then none else toDecimal price))
      | .ok (.inf negative) => .ok (some (level, if negative then none else toDecimal price))
      | .ok .nan => .ok (some (level, toDecimal price))
  | _ => .ok none

/-- A level is written or popped. -/
def write (book : Dict Int ℚ) (row : Int × Option ℚ) : Dict Int ℚ :=
  match row.2 with
  | none => book.pop row.1
  | some price => book.set row.1 price

def applyDelta (book : Dict Int ℚ) (entry : Json) : Except StreamFault (Dict Int ℚ) := do
  match ← readDelta entry with
  | none => pure book
  | some row => pure (write book row)

def applyDeltas (book : Dict Int ℚ) : Json → Except StreamFault (Dict Int ℚ)
  | .arr deltas => deltas.foldlM applyDelta book
  | _ => .ok book

namespace RunnerLadder

def empty : RunnerLadder := ⟨Dict.empty, Dict.empty, none⟩

def apply (ladder : RunnerLadder) (rc : Members) : Except StreamFault RunnerLadder := do
  let bdatb ← applyDeltas ladder.bdatb (rc.get "bdatb".toList)
  let batb ← applyDeltas ladder.batb (rc.get "batb".toList)
  pure ⟨bdatb, batb, (toDecimal (rc.get "ltp".toList)).or ladder.ltp⟩

/-- `book[min(book)]`. -/
def lowest (book : Dict Int ℚ) : Option ℚ := book.keys.min?.bind book.get?

def bestBack (ladder : RunnerLadder) : Option ℚ :=
  (lowest ladder.bdatb).or ((lowest ladder.batb).or ladder.ltp)

end RunnerLadder

/-! The messages. -/

/-- A row that is an object with an integer for its `id`. -/
def identified (row : Json) : Option (Int × Members) :=
  row.asObj.bind fun members => (members.get "id".toList).asInt.map fun sid => (sid, members)

def pricesNow (ladders : Dict Int RunnerLadder) : Dict Int ℚ :=
  ladders.filterMap RunnerLadder.bestBack

namespace StreamState

def named (s : StreamState) (mc : Members) : StreamState :=
  if (mc.get "id".toList).truthy then { s with marketId := some (mc.get "id".toList).toStr } else s

/-- `mdef.get("inPlay") is True`. -/
def inPlay (mdef : Members) : Bool := (mdef.get "inPlay".toList).isTrue

/-- A definition; the first that is in play keeps the prices up to here. -/
def defined (s : StreamState) (pt : Json) (mdef : Members) : StreamState :=
  if inPlay mdef && s.preInplay.isNone then
    { s with latestDef := some mdef, preInplay := some (pricesNow s.ladders),
             inPlayUtc := epochMsToUtc pt }
  else { s with latestDef := some mdef }

/-- The id and the definition of a market change. -/
def marked (s : StreamState) (pt : Json) (mc : Members) : StreamState :=
  match (mc.get "marketDefinition".toList).asObj with
  | some mdef => (s.named mc).defined pt mdef
  | none => s.named mc

def runnerChange (ladders : Dict Int RunnerLadder) (rc : Json) :
    Except StreamFault (Dict Int RunnerLadder) :=
  match identified rc with
  | none => .ok ladders
  | some (sid, rc) => do
    let ladder ← ((ladders.get? sid).getD RunnerLadder.empty).apply rc
    pure (ladders.set sid ladder)

def marketChange (pt : Json) (s : StreamState) (mc : Json) : Except StreamFault StreamState :=
  match mc.asObj with
  | none => .ok s
  | some mc =>
    match (mc.get "rc".toList).asArr with
    | none => .ok (s.marked pt mc)
    | some changes => do
      let ladders ← changes.foldlM runnerChange (s.marked pt mc).ladders
      pure { s.marked pt mc with ladders := ladders }

/-- The rows of `mc`, if it is a message of market changes. -/
def changesIn (msg : Members) : List Json :=
  if (msg.get "op".toList).isStr "mcm".toList then ((msg.get "mc".toList).asArr).getD [] else []

def line (s : StreamState) (text : Str) : Except StreamFault StreamState :=
  if strip text = [] then .ok s
  else
    match Readers.loads text with
    | .error .notJson => .ok s
    | .error .unread | .error .raised => .error .loads
    | .ok msg =>
      match msg.asObj with
      | none => .ok s
      | some msg => (changesIn msg).foldlM (marketChange (msg.get "pt".toList)) s

end StreamState

/-! The close. -/

def won (status : Str) : Option Bool :=
  if status = "WINNER".toList then some true
  else if status = "LOSER".toList then some false
  else none

/-- `str(v or "")`. -/
def textOf (value : Json) : Str := if value.truthy then value.toStr else []

def closingRunners (mdef : Members) : List (Int × Members) :=
  (((mdef.get "runners".toList).asArr).getD []).filterMap identified

def closingRunner (snapshot : Dict Int ℚ) (sid : Int) (rd : Members) : BetfairRunner :=
  let status := textOf (rd.get "status".toList)
  let bsp := toDecimal (rd.get "bsp".toList)
  { selectionId := sid
    name := (rd.get "name".toList).asStr
    sortPriority := (rd.get "sortPriority".toList).asInt
    status := status
    closePrice := bsp.or (snapshot.get? sid)
    bsp := bsp
    won := won status }

def marketClose (s : StreamState) : Except StreamFault (Option BetfairMarketClose) :=
  match s.latestDef with
  | none => .ok none
  | some mdef =>
    let snapshot := s.preInplay.getD (pricesNow s.ladders)
    let runners := (closingRunners mdef).map fun row => closingRunner snapshot row.1 row.2
    if runners = [] then .ok none
    else do
      let competition :=
        (mdef.get "competition".toList).asObj.bind fun comp => (comp.get "name".toList).asStr
      let kickoffUtc ← parseMarketTime (mdef.get "marketTime".toList)
      let settledTimeUtc ← parseMarketTime (mdef.get "settledTime".toList)
      pure (some
        { marketId := s.marketId.getD []
          eventTypeId := (mdef.get "eventTypeId".toList).asStr
          eventName := (mdef.get "eventName".toList).asStr
          competition := competition
          marketType := (mdef.get "marketType".toList).asStr
          kickoffUtc := kickoffUtc
          inPlayUtc := s.inPlayUtc
          settled := textOf (mdef.get "status".toList) = "CLOSED".toList
          bspReconciled := (mdef.get "bspReconciled".toList).truthy
          runners := sortedBy (fun r => toLex (r.sortPriority.getD 99, r.selectionId)) runners
          eventId := (mdef.get "eventId".toList).asStr
          settledTimeUtc := settledTimeUtc })

def parseMarketStream (lines : List Str) : Except StreamFault (Option BetfairMarketClose) := do
  marketClose (← lines.foldlM StreamState.line StreamState.start)

end
end SharpEvPicks.Ingestion
