import Mathlib.Data.List.Sort
import SharpEvPicks.Edge.Odds
import SharpEvPicks.Probabilities.Devig
import SharpEvPicks.Python.Sorting

/-! Where fair value comes from: the first sharp book with a sane full market, else a
consensus of the books that price all of it, `app/edge/value.py`. -/
namespace SharpEvPicks.Edge

open Python Probabilities

/-- Prices of one market: selection, then bookmaker. -/
abbrev Prices := Dict Str (Dict Str ℚ)

def consensusAnchor : Str := "consensus(median)".toList

def minConsensusBooks : Nat := 3

/-- The `SHARP_MISS_*` reasons, and the refusal of a spreads pair that shares their channel. -/
inductive SharpMiss where
  | noFullMarket | liquidityFloor | exchangeDemoted | overround | spreadPairIncoherent
  deriving DecidableEq, Repr

structure AnchorOptions where
  maxOverround : ℚ := 12 / 100
  devigMethod : DevigMethod := .power
  sharpBooks : List Str := Edge.sharpBooks
  commissions : Commissions := exchangeCommission
  consensusLogitPool : Bool := false
  liquidity : Option Prices := none
  exchangeMinLiquidity : ℚ := 0
  exchangeDemoted : Bool := false

def AnchorOptions.sane (opts : AnchorOptions) (x : ℚ) : Prop :=
  0 ≤ x ∧ x ≤ opts.maxOverround

instance (opts : AnchorOptions) (x : ℚ) : Decidable (opts.sane x) :=
  inferInstanceAs (Decidable (_ ∧ _))

variable [Unicode]

inductive AnchorType where
  | pinnacle | sharp | consensus
  deriving DecidableEq, Repr

def anchorTypeFor (anchorBook : Str) : AnchorType :=
  if anchorBook = consensusAnchor then .consensus
  else if contains "pinnacle".toList (norm anchorBook) then .pinnacle
  else if norm anchorBook ∈ sharpBooks.map norm then .sharp
  else .consensus

def isSharpAnchored (anchorBook : Str) : Bool := anchorTypeFor anchorBook ≠ .consensus

/-- `_lookup`: the first entry of that normalized name. -/
def lookupBook {ν : Type*} (books : Dict Str ν) (normBook : Str) : Option ν :=
  (books.entries.find? fun e => norm e.1 = normBook).map Prod.snd

def fullMarket (prices : Prices) (pref : Str) : Option (List ℚ) :=
  prices.entries.mapM fun (_, books) => lookupBook books pref

/-- A known liquidity below the floor on some selection; an unknown one is not thin. -/
def knownThin (opts : AnchorOptions) (prices : Prices) (pref : Str) : Bool :=
  prices.keys.any fun s =>
    ((opts.liquidity.bind (·.get? s)).bind (lookupBook · (norm pref))).any
      (· < opts.exchangeMinLiquidity)

inductive Judged where
  | incomplete
  | rejected (reason : SharpMiss)
  | accepted (gross : List ℚ)

def judge (opts : AnchorOptions) (prices : Prices) (pref : Str) : Judged :=
  match fullMarket prices pref with
  | none => .incomplete
  | some gross =>
    let exchange := (opts.commissions.get? (norm pref)).isSome
    if 0 < opts.exchangeMinLiquidity && exchange && knownThin opts prices pref then
      .rejected .liquidityFloor
    else if opts.exchangeDemoted && exchange then .rejected .exchangeDemoted
    else if opts.sane (overround (gross.map (effectiveOdds opts.commissions pref))) then
      .accepted gross
    else .rejected .overround

/-- `raw_by_norm[pref]`: the spelling met first. -/
def rawName (prices : Prices) (pref : Str) : Str :=
  (((prices.values.map Dict.keys).flatten).find? fun b => norm b = pref).getD pref

/-- The walk down the sharp books; `miss` is the first guard that rejected one. -/
def namedWalk (opts : AnchorOptions) (prices : Prices) :
    List Str → Option SharpMiss → Except SharpMiss (Str × List ℚ)
  | [], miss => .error (miss.getD .noFullMarket)
  | pref :: rest, miss =>
    match judge opts prices pref with
    | .incomplete => namedWalk opts prices rest miss
    | .rejected reason => namedWalk opts prices rest (miss.or (some reason))
    | .accepted gross => .ok (rawName prices pref, gross)

def namedSharpAnchor (opts : AnchorOptions) (prices : Prices) :
    Except SharpMiss (Str × List ℚ) :=
  namedWalk opts prices opts.sharpBooks none

def fullMarketBooks (prices : Prices) : List Str :=
  match prices.values with
  | [] => []
  | first :: rest =>
    ((first.keys.map norm).dedup).filter fun b => rest.all fun books => b ∈ books.keys.map norm

/-- The best price of each full-market book for one selection: its net, then its gross value. -/
def bestByNorm (commissions : Commissions) (members : List Str) (books : Dict Str ℚ) :
    Dict Str (ℚ × ℚ) :=
  books.entries.foldl
    (fun best (b, o) =>
      let e := effectiveOdds commissions b o
      if norm b ∈ members then
        match best.get? (norm b) with
        | none => best.set (norm b) (e, o)
        | some old => if old.1 < e then best.set (norm b) (e, o) else best
      else best)
    Dict.empty

def median (l : List ℚ) : ℚ :=
  let s := sortedBy id l
  if s.length % 2 = 1 then s.getD (s.length / 2) 0
  else (s.getD (s.length / 2 - 1) 0 + s.getD (s.length / 2) 0) / 2

def medianConsensus (opts : AnchorOptions) (prices : Prices) : Option (Str × List ℚ) :=
  let members := fullMarketBooks prices
  if members.length < minConsensusBooks then none
  else
    let best := prices.values.map fun books => (bestByNorm opts.commissions members books).values
    if opts.sane (overround (best.map fun l => median (l.map Prod.fst))) then
      some (consensusAnchor, best.map fun l => median (l.map Prod.snd))
    else none

variable [Numerics ℚ]

def logit (p : ℚ) : ℚ :=
  let p := min (max p (1 / 10 ^ 12)) (1 - 1 / 10 ^ 12)
  Numerics.log (p / (1 - p))

def bookVector (opts : AnchorOptions) (members : List Str) (prices : Prices) (book : Str) :
    Option (List ℚ) :=
  prices.values.mapM fun books =>
    ((bestByNorm opts.commissions members books).get? book).map Prod.snd

def plausibleFairs (opts : AnchorOptions) (prices : Prices) : Except DevigError (List (List ℚ)) :=
  let members := fullMarketBooks prices
  let vectors := members.filterMap fun book =>
    ((bookVector opts members prices book).filter fun gross =>
      opts.sane (overround (gross.map (effectiveOdds opts.commissions book))))
  vectors.mapM fun gross => devig gross opts.devigMethod

/-- `_logit_consensus_anchor`. -/
def logitConsensus (opts : AnchorOptions) (prices : Prices) :
    Except DevigError (Option (Str × List ℚ)) :=
  if (fullMarketBooks prices).length < minConsensusBooks then .ok none
  else
    (plausibleFairs opts prices).map fun fairs =>
      let k := fairs.length
      if k < minConsensusBooks then none
      else
        let logits := fairs.map fun fair => fair.map logit
        let zero := prices.values.map fun _ => (0 : ℚ)
        let total : List ℚ := logits.foldl (fun acc l => List.zipWith (· + ·) acc l) zero
        let pooled : List ℚ := total.map fun x => sigmoid (x / k)
        if pooled.sum ≤ 0 then none
        else
          let synth := pooled.map fun p => pooled.sum / p
          if opts.maxOverround < overround synth then none else some (consensusAnchor, synth)

structure Anchored where
  book : Str
  fair : Dict Str ℚ
  fellBack : Bool

def zipFair (prices : Prices) (fair : List ℚ) : Dict Str ℚ :=
  ((prices.keys.zip fair).foldl fun d (s, p) => d.set s p) Dict.empty

def anchorVector (opts : AnchorOptions) (prices : Prices) :
    Except DevigError (Option (Str × List ℚ) × Option SharpMiss) :=
  match namedSharpAnchor opts prices with
  | .ok anchor => .ok (some anchor, none)
  | .error miss =>
    if opts.consensusLogitPool then (logitConsensus opts prices).map fun anchor =>
      (anchor, some miss)
    else .ok (medianConsensus opts prices, some miss)

/-- `anchor_fair_probs_with_provenance`, with what it appends to `sharp_miss_out`. -/
def anchorFairProbs (opts : AnchorOptions) (prices : Prices) :
    Except DevigError (Option Anchored × Option SharpMiss) :=
  if prices.keys.length < 2 then .ok (none, none)
  else
    match anchorVector opts prices with
    | .error e => .error e
    | .ok (none, miss) => .ok (none, miss)
    | .ok (some (book, odds), miss) =>
      (devigWithProvenance odds opts.devigMethod).map fun (fair, fellBack) =>
        (some ⟨book, zipFair prices fair, fellBack⟩, miss)

theorem anchorFairProbs_some {opts : AnchorOptions} {prices : Prices} {a : Anchored}
    {miss : Option SharpMiss} (priced : anchorFairProbs opts prices = .ok (some a, miss)) :
    ∃ odds fair, anchorVector opts prices = .ok (some (a.book, odds), miss) ∧
      devigWithProvenance odds opts.devigMethod = .ok (fair, a.fellBack) ∧
      a.fair = zipFair prices fair := by
  unfold anchorFairProbs at priced
  split at priced
  · cases priced
  · split at priced
    · cases priced
    · cases priced
    · rename_i book odds miss' chosen
      cases devigged : devigWithProvenance odds opts.devigMethod with
      | error e =>
        rw [devigged] at priced
        cases priced
      | ok pair =>
        rw [devigged] at priced
        cases priced
        exact ⟨odds, pair.1, chosen, devigged, rfl⟩

def vectorFellBack (opts : AnchorOptions) (prices : Prices) : Bool :=
  match anchorVector opts prices with
  | .ok (some (_, odds), _) =>
    match devigWithDiagnostics odds opts.devigMethod with
    | .ok (_, reason) => reason.isSome
    | .error _ => false
  | _ => false

theorem anchorFairProbs_fellBack {opts : AnchorOptions} {prices : Prices} {a : Anchored}
    {miss : Option SharpMiss} (priced : anchorFairProbs opts prices = .ok (some a, miss)) :
    a.fellBack = vectorFellBack opts prices := by
  obtain ⟨odds, fair, chosen, devigged, -⟩ := anchorFairProbs_some priced
  unfold devigWithProvenance at devigged
  cases diagnosed : devigWithDiagnostics odds opts.devigMethod with
  | error e =>
    rw [diagnosed] at devigged
    cases devigged
  | ok pair =>
    rw [diagnosed] at devigged
    injection devigged with same
    injection same with _ flag
    simp only [vectorFellBack, chosen, diagnosed, flag]

end SharpEvPicks.Edge
