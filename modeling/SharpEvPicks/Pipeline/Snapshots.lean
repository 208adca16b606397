import SharpEvPicks.Edge.Anchors
import SharpEvPicks.Schemas

/-! Odds snapshots, `app/schemas/odds.py`, and how a cycle groups them by market,
`app/pipeline.py`. -/
namespace SharpEvPicks.Pipeline

open Python Edge

def maxDecimalOdds : ℚ := 1000

def maxProviderClockSkew : Int := seconds 300

/-- `OddsSnapshotIn`. -/
structure Snapshot where
  eventId : Str
  bookmaker : Str
  market : Market
  selection : Str
  decimalOdds : ℚ
  liquidity : Option ℚ := none
  capturedAt : Int
  ingestedAt : Int
  marketDetail : Option Str := none
  odds_gt : 1 < decimalOdds
  odds_le : decimalOdds ≤ maxDecimalOdds
  liquidity_nonneg : ∀ l ∈ liquidity, 0 ≤ l
  not_future : capturedAt - ingestedAt ≤ maxProviderClockSkew

theorem even_gt : (1 : ℚ) < 2 := by norm_num

theorem even_le : (2 : ℚ) ≤ maxDecimalOdds := by
  unfold maxDecimalOdds
  norm_num

theorem noLiquidity : ∀ l ∈ (none : Option ℚ), 0 ≤ l := by
  intro l none
  cases none

theorem noSkew : (0 : Int) - 0 ≤ maxProviderClockSkew := by decide

abbrev MarketKey := Str × Market × Option Str

namespace Snapshot

def marketKey (s : Snapshot) : MarketKey := (s.eventId, s.market, s.marketDetail)

def observation (s : Snapshot) : MarketKey × Str × Str := (s.marketKey, s.selection, s.bookmaker)

/-- `_rank(s) > _rank(previous)`. -/
def outranks (s previous : Snapshot) : Bool :=
  if s.capturedAt ≠ previous.capturedAt then previous.capturedAt < s.capturedAt
  else if s.ingestedAt ≠ previous.ingestedAt then previous.ingestedAt < s.ingestedAt
  else if s.decimalOdds ≠ previous.decimalOdds then s.decimalOdds < previous.decimalOdds
  else if s.liquidity.isSome ≠ previous.liquidity.isSome then s.liquidity.isSome
  else s.liquidity.getD 0 < previous.liquidity.getD 0

/-- `snap.model_copy(update={"market_detail": detail})`. -/
def withDetail (s : Snapshot) (detail : Option Str) : Snapshot := { s with marketDetail := detail }

end Snapshot

def newer (previous : Option Snapshot) (s : Snapshot) : Snapshot :=
  match previous with
  | none => s
  | some p => if s.outranks p then s else p

/-- `coalesce_market_snapshots`. -/
def coalesce (snapshots : List Snapshot) : List Snapshot :=
  (snapshots.foldl (fun newest s => newest.modify s.observation fun p => newer p s)
    Dict.empty).values

inductive FreshnessBasis where
  | provider | observation
  deriving DecidableEq, Repr

def freshnessTime (basis : FreshnessBasis) (s : Snapshot) : Int :=
  match basis with
  | .observation => s.ingestedAt
  | .provider => s.capturedAt

/-- Prices of a group and, per selection and bookmaker, when they were captured. -/
structure Group where
  prices : Prices
  captured : Dict (Str × Str) Int

def Group.empty : Group := ⟨Dict.empty, Dict.empty⟩

def Group.add (g : Group) (s : Snapshot) : Group where
  prices := g.prices.modify s.selection fun books =>
    (books.getD Dict.empty).set s.bookmaker s.decimalOdds
  captured := g.captured.set (s.selection, s.bookmaker) s.capturedAt

def Group.price (g : Group) (selection bookmaker : Str) : Option ℚ :=
  (g.prices.get? selection).bind (·.get? bookmaker)

theorem Group.price_add (g : Group) (s : Snapshot) (selection bookmaker : Str) :
    (g.add s).price selection bookmaker =
      if selection = s.selection ∧ bookmaker = s.bookmaker then some s.decimalOdds
      else g.price selection bookmaker := by
  unfold Group.price Group.add
  rw [Dict.get?_modify]
  by_cases same : selection = s.selection
  · rw [if_pos same, Option.bind_some, Dict.get?_set, same]
    by_cases book : bookmaker = s.bookmaker
    · simp [book]
    · cases g.prices.get? s.selection <;> simp [book]
  · simp [same]

theorem Group.price_foldl_add {l : List Snapshot} {g : Group} {selection bookmaker : Str}
    {odds : ℚ} (priced : (l.foldl Group.add g).price selection bookmaker = some odds) :
    g.price selection bookmaker = some odds ∨ ∃ s ∈ l, s.decimalOdds = odds := by
  induction l generalizing g with
  | nil => exact .inl priced
  | cons s l ih =>
    obtain start | ⟨later, inside, same⟩ := ih priced
    · rw [Group.price_add] at start
      split at start
      · exact .inr ⟨s, List.mem_cons_self, Option.some.inj start⟩
      · exact .inl start
    · exact .inr ⟨later, List.mem_cons_of_mem _ inside, same⟩

abbrev GroupedMarkets := Dict MarketKey Group

def groupMarketPrices (snapshots : List Snapshot) : GroupedMarkets :=
  (coalesce snapshots).foldl
    (fun out s => out.modify s.marketKey fun g => (g.getD Group.empty).add s) Dict.empty

def groupOf : List Snapshot → Option Group
  | [] => none
  | s :: rest => some (rest.foldl Group.add (Group.empty.add s))

theorem get?_groupMarketPrices (snapshots : List Snapshot) (key : MarketKey) :
    (groupMarketPrices snapshots).get? key =
      groupOf ((coalesce snapshots).filter fun s => s.marketKey = key) := by
  unfold groupMarketPrices
  rw [Dict.get?_foldl_modify Snapshot.marketKey fun g s => (g.getD Group.empty).add s]
  have run (l : List Snapshot) (g : Group) :
      l.foldl (fun v x => some ((v.getD Group.empty).add x)) (some g) =
        some (l.foldl Group.add g) := by
    induction l generalizing g with
    | nil => rfl
    | cons x l ih => exact ih (g.add x)
  cases (coalesce snapshots).filter fun s => s.marketKey = key with
  | nil => rfl
  | cons s rest => exact run rest _

theorem groupOf_eq_some {rows : List Snapshot} {group : Group}
    (grouped : groupOf rows = some group) : rows.foldl Group.add Group.empty = group := by
  cases rows with
  | nil => cases grouped
  | cons s rest => exact Option.some.inj grouped

theorem one_lt_of_grouped {snapshots : List Snapshot} {key : MarketKey} {group : Group}
    (grouped : (groupMarketPrices snapshots).get? key = some group) {selection bookmaker : Str}
    {odds : ℚ} (priced : group.price selection bookmaker = some odds) : 1 < odds := by
  rw [get?_groupMarketPrices] at grouped
  rw [← groupOf_eq_some grouped] at priced
  obtain start | ⟨s, -, rfl⟩ := Group.price_foldl_add priced
  · cases start
  · exact s.odds_gt

def groupMarketFreshnessTimes (basis : FreshnessBasis) (snapshots : List Snapshot) :
    Dict MarketKey (Dict (Str × Str) Int) :=
  (coalesce snapshots).foldl
    (fun out s => out.modify s.marketKey fun times =>
      (times.getD Dict.empty).set (s.selection, s.bookmaker) (freshnessTime basis s))
    Dict.empty

/-- Known liquidity only. -/
def groupMarketLiquidity (snapshots : List Snapshot) : Dict MarketKey Prices :=
  (coalesce snapshots).foldl
    (fun out s =>
      match s.liquidity with
      | none => out
      | some l => out.modify s.marketKey fun liquidity =>
          (liquidity.getD Dict.empty).modify s.selection fun books =>
            (books.getD Dict.empty).set s.bookmaker l)
    Dict.empty

/-- Best-known kickoffs; an event without one is missing or `none`. -/
abbrev Kickoffs := Dict Str (Option Int)

def Kickoffs.of (kickoffs : Kickoffs) (eventId : Str) : Option Int := (kickoffs.get? eventId).join

def dropPostKickoffSnapshots (snapshots : List Snapshot) (kickoffs : Kickoffs) : List Snapshot :=
  snapshots.filter fun s => !(kickoffs.of s.eventId).any (· ≤ s.capturedAt)

end SharpEvPicks.Pipeline
