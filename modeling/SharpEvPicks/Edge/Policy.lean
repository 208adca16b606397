import Mathlib.Data.List.Dedup
import SharpEvPicks.Edge.Anchors
import SharpEvPicks.Resolution.Names
import SharpEvPicks.Schemas

/-! The optional gates of the value strategy, `app/edge/value_policy.py`. -/
namespace SharpEvPicks.Edge

open Python Probabilities

/-- A ceiling, `none` for `math.inf`. -/
abbrev Ceiling := Option ℚ

def Ceiling.exceededBy (ceiling : Ceiling) (x : ℚ) : Bool := ceiling.any (· < x)

/-- `ValuePolicy`, with the defaults of the source; frozen sets are lists. -/
structure ValuePolicy where
  minEdgeByMarket : List (Str × ℚ) := []
  oddsBands : List (ℚ × ℚ) := []
  minBooksByMarket : List (Str × Nat) := []
  majorLeagues : List Str := []
  bookAllowlist : List Str := []
  requireSharpAnchor : Bool := false
  maxEdge : Ceiling := none
  sanityMaxEdge : ℚ := 15 / 100
  maxEdgeByMarket : List (Str × ℚ) := []
  devigByMarket : List (Str × DevigMethod) := []
  visibilityOnlyMarkets : List Str := []
  ahMaxOdds : ℚ := 15
  ahMaxSharpSoftRatio : ℚ := 3
  dcMaxSharpSoftRatio : ℚ := 3 / 2
  moneylineMaxOdds : Ceiling := none
  maxOdds : ℚ := 0
  consensusLogitPool : Bool := false
  exchangeMinLiquidity : ℚ := 0
  betfairStalenessGuard : Bool := false
  betfairStalenessShadow : Bool := true
  demoteDrawSelections : Bool := false
  sharpAnchorOnlySports : List Str := []
  premiumMaxHoursToKickoff : Ceiling := none
  shotsTotalsVeto : Bool := false

def oddsInBands (odds : ℚ) (bands : List (ℚ × ℚ)) : Bool :=
  bands.isEmpty || bands.any fun (lo, hi) => lo ≤ odds && odds ≤ hi

variable [Unicode]

def marketLookupKeys (market : Market) (detail : Option Str) : List Str :=
  match detail.map norm with
  | none => [market.value]
  | some [] => [market.value]
  | some key => if key = market.value then [key] else [key, market.value]

/-- The lookup of `min_edge_for` and its siblings: the line first, then the family. -/
def overrideFor {α : Type*} (entries : List (Str × α)) (market : Market) (detail : Option Str) :
    Option α :=
  (marketLookupKeys market detail).findSome? (Dict.ofList entries).get?

def minEdgeFor (policy : ValuePolicy) (market : Market) (detail : Option Str) (default : ℚ) :
    ℚ :=
  (overrideFor policy.minEdgeByMarket market detail).getD default

def maxEdgeFor (policy : ValuePolicy) (market : Market) (detail : Option Str) (default : Ceiling) :
    Ceiling :=
  (overrideFor policy.maxEdgeByMarket market detail).or default

def devigMethodFor (policy : ValuePolicy) (market : Market) (detail : Option Str)
    (default : DevigMethod) : DevigMethod :=
  (overrideFor policy.devigByMarket market detail).getD default

def minBooksFor (policy : ValuePolicy) (market : Market) (detail : Option Str) : Nat :=
  (overrideFor policy.minBooksByMarket market detail).getD 0

/-- `normalize_league`; on the ASCII text left, `casefold` may come before the split. -/
def normalizeLeague (name : Str) : Str := join [' '] (split (Resolution.cleaned name))

def isMajorLeague (policy : ValuePolicy) (league : Str) : Bool :=
  policy.majorLeagues.isEmpty ||
    (normalizeLeague league ≠ [] &&
      normalizeLeague league ∈ policy.majorLeagues.map normalizeLeague)

def splitSportMarket (entry : Str) : Option Str × Str :=
  let key := norm entry
  match key.dropWhile (· ≠ ':') with
  | [] => (none, key)
  | _ :: market =>
    let sport := strip (key.takeWhile (· ≠ ':'))
    (if sport = [] then none else some sport, strip market)

def sportInScope (entrySport : Option Str) (sport : Str) : Bool :=
  match entrySport with
  | none => true
  | some entry => sport ≠ [] && (sport = entry || (entry ++ ['_']).isPrefixOf sport)

def isVisibilityOnlyMarket (policy : ValuePolicy) (market : Market) (detail : Option Str)
    (sport : Str) : Bool :=
  let detail' := norm (detail.getD [])
  policy.visibilityOnlyMarkets.any fun entry =>
    let (entrySport, entryMarket) := splitSportMarket entry
    entryMarket ≠ [] && sportInScope entrySport (norm sport) &&
      (entryMarket ∈ marketLookupKeys market detail ||
        (detail' ≠ [] && (detail' = entryMarket || (entryMarket ++ ['_']).isPrefixOf detail')))

def distinctBookCount (prices : Prices) (exclude : List Str) : Nat :=
  (((prices.values.map Dict.keys).flatten.map norm).filter (· ∉ exclude)).dedup.length

end SharpEvPicks.Edge
