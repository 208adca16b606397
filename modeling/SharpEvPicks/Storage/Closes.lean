import Mathlib.Data.Char
import Mathlib.Data.List.Lex
import Mathlib.Data.Prod.Lex
import SharpEvPicks.Identity
import SharpEvPicks.Pipeline.Snapshots
import SharpEvPicks.Python.Sorting

/-! The history of odds and the closes read from it, `closing_odds_from_snapshots` of
`app/storage/repositories.py`. -/
namespace SharpEvPicks.Storage

open Python Pipeline

/-! Stored market keys. -/

def allMarkets : List Market :=
  [.h2h, .doubleChance, .dnb, .spreads, .totals, .teamTotals, .btts, .correctScore, .other]

/-- `Market(key)`. -/
def marketOfValue (key : Str) : Option Market := allMarkets.find? fun m => m.value = key

/-- `_EXACT_MARKETS` of `app/ingestion/oddsportal.py`. -/
def exactMarkets : Dict Str Market :=
  ⟨[("1x2".toList, .h2h), ("home_away".toList, .h2h), ("match_winner".toList, .h2h),
    ("btts".toList, .btts), ("dnb".toList, .dnb), ("double_chance".toList, .doubleChance)], by
      decide⟩

def marketForKey (key : Str) : Option Market :=
  match exactMarkets.get? key with
  | some market => some market
  | none =>
    if "over_under_".toList.isPrefixOf key then some .totals
    else if "asian_handicap".toList.isPrefixOf key ∨
      "european_handicap".toList.isPrefixOf key then
      some .spreads
    else none

def marketFromSnapshotKey (key : Str) : Option (Market × Option Str) :=
  match marketOfValue key with
  | some market => some (market, none)
  | none =>
    match marketForKey key with
    | some market => some (market, some key)
    | none =>
      ([Market.teamTotals, .spreads, .totals].find? fun m => (m.value ++ ['_']).isPrefixOf key).map
        fun m => (m, some key)

/-! The table `odds_snapshots`. -/

structure OddsRow where
  eventId : Nat
  bookmaker : Str
  market : Str
  selection : Str
  decimalOdds : ℚ
  liquidity : Option ℚ
  capturedAt : Int
  ingestedAt : Int
  deriving DecidableEq

namespace OddsRow

/-- The columns of `DISTINCT ON`. -/
def series (row : OddsRow) : Str × Str × Str := (row.market, row.bookmaker, row.selection)

/-- The columns of `uq_odds_snapshot_observation`. -/
def observation (row : OddsRow) : (Nat × Int) × Str × Str × Str :=
  ((row.eventId, row.capturedAt), row.series)

end OddsRow

structure OddsTable where
  rows : List OddsRow
  unique : (rows.map OddsRow.observation).Nodup

def maxLiquidity : ℚ := 999999999999 / 100

/-- What `OddsSnapshotIn` checks of a stored row but for its prices. -/
def boundedRow (externalRef : Str) (row : OddsRow) (detail : Option Str) :
    Except IdentityError Unit := do
  let _ ← requireBoundedIdentity externalRef eventRefMaxBytes "event_id".toList
  let _ ← requireBoundedIdentity row.bookmaker bookmakerMaxBytes "bookmaker".toList
  let _ ← requireBoundedIdentity row.selection selectionMaxBytes "selection".toList
  match detail with
  | some key =>
    let _ ← requireBoundedIdentity key marketDetailMaxBytes "market_detail".toList true
  | none => pure ()

def OddsRow.snapshot (row : OddsRow) (externalRef : Str) (market : Market) (detail : Option Str) :
    Option Snapshot :=
  if valid : 1 < row.decimalOdds ∧ row.decimalOdds ≤ maxDecimalOdds ∧
      (∀ l ∈ row.liquidity, 0 ≤ l) ∧
        row.capturedAt - row.ingestedAt ≤ maxProviderClockSkew then
    if (boundedRow externalRef row detail).toBool ∧ row.liquidity.all (· ≤ maxLiquidity) then
      some
        { eventId := externalRef
          bookmaker := row.bookmaker
          market := market
          selection := row.selection
          decimalOdds := row.decimalOdds
          liquidity := row.liquidity
          capturedAt := row.capturedAt
          ingestedAt := row.ingestedAt
          marketDetail := detail
          odds_gt := valid.1
          odds_le := valid.2.1
          liquidity_nonneg := valid.2.2.1
          not_future := valid.2.2.2 }
    else none
  else none

/-- The snapshot that a close row becomes: unknown keys, degenerate prices and rows out of
bounds are skipped. -/
def OddsRow.close (externalRef : Str) (row : OddsRow) : Option Snapshot := do
  let (market, detail) ← marketFromSnapshotKey row.market
  if row.decimalOdds ≤ 1 then none else row.snapshot externalRef market detail

namespace OddsTable

def before (odds : OddsTable) (eventId : Nat) (cutoff : Int) : List OddsRow :=
  sortedBy (fun row => toLex (row.market, toLex (row.bookmaker, row.selection)))
    (odds.rows.filter fun row => row.eventId = eventId ∧ row.capturedAt < cutoff)

def closeRows (odds : OddsTable) (eventId : Nat) (cutoff : Int) : List OddsRow :=
  (odds.before eventId cutoff).filter fun row =>
    (odds.before eventId cutoff).all fun other =>
      other.series = row.series → other.capturedAt ≤ row.capturedAt

/-- `closing_odds_from_snapshots`: the closes, and when the scrape last saw the event. -/
def closingOddsFromSnapshots (odds : OddsTable) (eventId : Nat) (externalRef : Str)
    (kickoff : Int) : List Snapshot × Option Int :=
  let rows := odds.closeRows eventId kickoff
  (rows.filterMap (OddsRow.close externalRef),
    ((rows.filter fun row => row.liquidity.isNone).map OddsRow.capturedAt).max?)

end OddsTable

structure ClosedFrom (row : OddsRow) (externalRef : Str) (s : Snapshot) : Prop where
  market : marketFromSnapshotKey row.market = some (s.market, s.marketDetail)
  eventId : s.eventId = externalRef
  bookmaker : s.bookmaker = row.bookmaker
  selection : s.selection = row.selection
  decimalOdds : s.decimalOdds = row.decimalOdds
  liquidity : s.liquidity = row.liquidity
  capturedAt : s.capturedAt = row.capturedAt
  ingestedAt : s.ingestedAt = row.ingestedAt

theorem closedFrom_of_close {row : OddsRow} {externalRef : Str} {s : Snapshot}
    (closed : row.close externalRef = some s) : ClosedFrom row externalRef s := by
  unfold OddsRow.close at closed
  simp only [Option.bind_eq_bind, Option.bind_eq_some_iff] at closed
  obtain ⟨⟨market, detail⟩, keyed, closed⟩ := closed
  split at closed
  · cases closed
  · unfold OddsRow.snapshot at closed
    split at closed
    · split at closed
      · cases closed
        exact ⟨keyed, rfl, rfl, rfl, rfl, rfl, rfl, rfl⟩
      · cases closed
    · cases closed

/-- The last row of its series before the cutoff. -/
structure LastBefore (odds : OddsTable) (eventId : Nat) (cutoff : Int) (row : OddsRow) : Prop where
  stored : row ∈ odds.rows
  own : row.eventId = eventId
  early : row.capturedAt < cutoff
  latest : ∀ other ∈ odds.rows, other.eventId = eventId → other.capturedAt < cutoff →
    other.series = row.series → other.capturedAt ≤ row.capturedAt

theorem mem_before {odds : OddsTable} {eventId : Nat} {cutoff : Int} {row : OddsRow} :
    row ∈ odds.before eventId cutoff ↔ row ∈ odds.rows ∧ row.eventId = eventId ∧
      row.capturedAt < cutoff := by
  rw [OddsTable.before, mem_sortedBy, List.mem_filter, decide_eq_true_eq]

theorem mem_closeRows {odds : OddsTable} {eventId : Nat} {cutoff : Int} {row : OddsRow} :
    row ∈ odds.closeRows eventId cutoff ↔ LastBefore odds eventId cutoff row := by
  unfold OddsTable.closeRows
  rw [List.mem_filter, mem_before, List.all_eq_true]
  constructor
  · rintro ⟨⟨stored, own, early⟩, latest⟩
    refine ⟨stored, own, early, ?_⟩
    intro other stored' own' early' same
    have newest := latest other (mem_before.mpr ⟨stored', own', early'⟩)
    exact of_decide_eq_true newest same
  · intro last
    refine ⟨⟨last.stored, last.own, last.early⟩, ?_⟩
    intro other inside
    obtain ⟨stored, own, early⟩ := mem_before.mp inside
    exact decide_eq_true (last.latest other stored own early)

theorem mem_closingOdds {odds : OddsTable} {eventId : Nat} {externalRef : Str} {cutoff : Int}
    {s : Snapshot} (closed : s ∈ (odds.closingOddsFromSnapshots eventId externalRef cutoff).1) :
    ∃ row ∈ odds.closeRows eventId cutoff, ClosedFrom row externalRef s := by
  obtain ⟨row, last, made⟩ := List.mem_filterMap.mp closed
  exact ⟨row, last, closedFrom_of_close made⟩

end SharpEvPicks.Storage
