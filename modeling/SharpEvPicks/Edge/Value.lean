import SharpEvPicks.Edge.Anchors
import SharpEvPicks.Edge.Policy

/-! The value scan: soft prices above a fair value that is given, `app/edge/value.py`. -/
namespace SharpEvPicks.Edge

open Python Probabilities

def anchorSwapTolerance : ℚ := 10 / 100

structure ValueBet where
  selection : Str
  bestBook : Str
  bestOdds : ℚ
  bestOddsEffective : ℚ
  sharpBook : Str
  sharpFairProb : ℚ
  impliedProb : ℚ
  edge : ℚ
  ev : ℚ
  sharpDevigFellBack : Bool := false
  theoreticalBestBook : Str := []
  theoreticalBestOdds : ℚ := 0
  theoreticalBestOddsEffective : ℚ := 0
  theoreticalEdge : ℚ := 0
  fillGap : ℚ := 0

structure ScanOptions where
  minEdge : ℚ := 1 / 100
  minOdds : ℚ := 130 / 100
  maxEdge : Ceiling := none
  commissions : Commissions := exchangeCommission
  devigFellBack : Bool := false
  bookAllowlist : List Str := []

variable [Unicode]

def eligible (anchorBook : Str) (allowlist : List Str) (book : Str) (odds : ℚ) : Bool :=
  norm book ≠ norm anchorBook && norm book ∉ sharpBooks.map norm &&
    (allowlist.isEmpty || norm book ∈ allowlist) && 1 < odds

structure Quote where
  book : Str
  odds : ℚ
  effective : ℚ

def quotes (commissions : Commissions) (anchorBook : Str) (allowlist : List Str)
    (books : Dict Str ℚ) : List Quote :=
  (books.entries.filter fun (b, o) => eligible anchorBook allowlist b o).map fun (b, o) =>
    ⟨b, o, effectiveOdds commissions b o⟩

def bestOtherBook (books : Dict Str ℚ) (anchorBook : Str) (commissions : Commissions)
    (allowlist : List Str) : Option Quote :=
  maxBy Quote.effective (quotes commissions anchorBook allowlist books)

/-- The lowest implied probability of each book for one selection. -/
def impliedByNorm (commissions : Commissions) (books : Dict Str ℚ) : Dict Str ℚ :=
  books.entries.foldl
    (fun best (b, o) =>
      if o ≤ 1 then best
      else
        let implied := 1 / effectiveOdds commissions b o
        match best.get? (norm b) with
        | none => best.set (norm b) implied
        | some old => if implied < old then best.set (norm b) implied else best)
    Dict.empty

def consensusImplied (commissions : Commissions) (prices : Prices) (fair : Dict Str ℚ) :
    Option (Dict Str ℚ) := do
  let ref ← fair.keys.mapM fun s =>
    let implied := (impliedByNorm commissions ((prices.get? s).getD Dict.empty)).values
    if implied.length < minConsensusBooks then none else some (s, median implied)
  let total := (ref.map Prod.snd).sum
  if total ≤ 0 then none else some (Dict.ofList (ref.map fun (s, p) => (s, p / total)))

/-- Some outcome clearly ahead of another by the consensus is not ahead by the anchor. -/
def anchorDisagrees (commissions : Commissions) (tolerance : ℚ) (prices : Prices)
    (fair : Dict Str ℚ) : Bool :=
  (consensusImplied commissions prices fair).any fun ref =>
    fair.entries.any fun (a, fairA) =>
      fair.entries.any fun (b, fairB) =>
        tolerance < (ref.get? a).getD 0 - (ref.get? b).getD 0 && fairA ≤ fairB

omit [Unicode] in
def valueBet (opts : ScanOptions) (anchorBook selection : Str) (fairP : ℚ)
    (theoretical fill : Quote) : ValueBet :=
  let implied := 1 / fill.effective
  let edge := fairP - implied
  let theoreticalEdge := fairP - 1 / theoretical.effective
  { selection := selection
    bestBook := fill.book
    bestOdds := fill.odds
    bestOddsEffective := fill.effective
    sharpBook := anchorBook
    sharpFairProb := fairP
    impliedProb := implied
    edge := edge
    ev := fairP * (fill.effective - 1) - (1 - fairP)
    sharpDevigFellBack := opts.devigFellBack
    theoreticalBestBook := theoretical.book
    theoreticalBestOdds := theoretical.odds
    theoreticalBestOddsEffective := theoretical.effective
    theoreticalEdge := theoreticalEdge
    fillGap := theoreticalEdge - edge }

/-- One pass of the loop in `_scan_against_fair`. -/
def scanSelection (opts : ScanOptions) (anchorBook : Str) (fair : Dict Str ℚ) (selection : Str)
    (books : Dict Str ℚ) : Option ValueBet :=
  (fair.get? selection).bind fun fairP =>
    (bestOtherBook books anchorBook opts.commissions []).bind fun theoretical =>
      let fill :=
        if opts.bookAllowlist.isEmpty then some theoretical
        else bestOtherBook books anchorBook opts.commissions opts.bookAllowlist
      fill.bind fun fill =>
        let edge := fairP - 1 / fill.effective
        if fill.effective < opts.minOdds then none
        else if edge < opts.minEdge || opts.maxEdge.exceededBy edge then none
        else some (valueBet opts anchorBook selection fairP theoretical fill)

def scanAgainstFair (opts : ScanOptions) (prices : Prices) (fair : Dict Str ℚ)
    (anchorBook : Str) : List ValueBet :=
  if anchorDisagrees opts.commissions anchorSwapTolerance prices fair then []
  else
    sortedBy (fun v => -v.edge)
      (prices.entries.filterMap fun (s, books) => scanSelection opts anchorBook fair s books)

def findValueBetsWithFair (prices : Prices) (fair : Dict Str ℚ) (anchorBook : Str)
    (opts : ScanOptions) : List ValueBet :=
  scanAgainstFair opts prices fair anchorBook

/-- The exchange is never demoted here. -/
def findValueBets [Probabilities.Numerics ℚ] (prices : Prices) (anchor : AnchorOptions)
    (scan : ScanOptions) : Except Probabilities.DevigError (List ValueBet) :=
  (anchorFairProbs { anchor with exchangeDemoted := false } prices).map fun (anchored, _) =>
    match anchored with
    | none => []
    | some a =>
      scanAgainstFair { scan with commissions := anchor.commissions,
                                  devigFellBack := a.fellBack } prices
        a.fair a.book

/-- With an empty allowlist the fill is the theoretical best itself. -/
theorem scanSelection_iff {opts : ScanOptions} {anchorBook : Str} {fair : Dict Str ℚ}
    {selection : Str} {books : Dict Str ℚ} {v : ValueBet} :
    scanSelection opts anchorBook fair selection books = some v ↔
      ∃ fairP theoretical fill, fair.get? selection = some fairP ∧
        bestOtherBook books anchorBook opts.commissions [] = some theoretical ∧
        bestOtherBook books anchorBook opts.commissions opts.bookAllowlist = some fill ∧
        opts.minOdds ≤ fill.effective ∧ opts.minEdge ≤ fairP - 1 / fill.effective ∧
        opts.maxEdge.exceededBy (fairP - 1 / fill.effective) = false ∧
        valueBet opts anchorBook selection fairP theoretical fill = v := by
  have filled (theoretical : Quote)
      (best : bestOtherBook books anchorBook opts.commissions [] = some theoretical) :
      (if opts.bookAllowlist.isEmpty then some theoretical
        else bestOtherBook books anchorBook opts.commissions opts.bookAllowlist) =
        bestOtherBook books anchorBook opts.commissions opts.bookAllowlist := by
    split
    · rename_i empty
      rw [List.isEmpty_iff.mp empty, best]
    · rfl
  simp only [scanSelection, Option.bind_eq_some_iff, Option.ite_none_left_eq_some,
    Option.some.injEq, Bool.or_eq_true, decide_eq_true_eq, not_or, not_lt, Bool.not_eq_true]
  constructor
  · rintro ⟨fairP, known, theoretical, best, fill, chosen, minOdds,
      ⟨minEdge, maxEdge⟩, built⟩
    rw [filled theoretical best] at chosen
    exact ⟨fairP, theoretical, fill, known, best, chosen, minOdds, minEdge, maxEdge, built⟩
  · rintro ⟨fairP, theoretical, fill, known, best, chosen, minOdds, minEdge, maxEdge, built⟩
    rw [← filled theoretical best] at chosen
    exact ⟨fairP, known, theoretical, best, fill, chosen, minOdds,
      ⟨minEdge, maxEdge⟩, built⟩

theorem mem_scanAgainstFair {opts : ScanOptions} {prices : Prices} {fair : Dict Str ℚ}
    {anchorBook : Str} {v : ValueBet} :
    v ∈ scanAgainstFair opts prices fair anchorBook ↔
      anchorDisagrees opts.commissions anchorSwapTolerance prices fair = false ∧
        ∃ s books, (s, books) ∈ prices.entries ∧
          scanSelection opts anchorBook fair s books = some v := by
  unfold scanAgainstFair
  split
  · rename_i swapped
    simp [swapped]
  · rename_i agrees
    simp only [mem_sortedBy, List.mem_filterMap, Prod.exists, agrees, true_and]

omit [Unicode] in
/-- `double_chance_fair` with the draw named `Draw`. -/
def doubleChanceFair (h2hFair : Dict Str ℚ) (home away : Str) : Dict Str ℚ :=
  let draw := "Draw".toList
  match h2hFair.get? home, h2hFair.get? draw, h2hFair.get? away with
  | some h, some d, some a =>
    Dict.ofList
      [(home ++ " or ".toList ++ draw, h + d), (home ++ " or ".toList ++ away, h + a),
        (draw ++ " or ".toList ++ away, d + a)]
  | _, _, _ => Dict.empty

/-! Gates on a single candidate. -/

omit [Unicode] in
def ratioPlausible (bet : ValueBet) (maxSharpSoftRatio : ℚ) : Bool :=
  0 < bet.impliedProb && bet.sharpFairProb / bet.impliedProb ≤ maxSharpSoftRatio

def ahCandidatePlausible (bet : ValueBet) (maxOdds maxSharpSoftRatio : ℚ) : Bool :=
  bet.bestOdds ≤ maxOdds && ratioPlausible bet maxSharpSoftRatio

def dcCandidatePlausible (bet : ValueBet) (maxSharpSoftRatio : ℚ) : Bool :=
  ratioPlausible bet maxSharpSoftRatio

def globalOddsCeilingViolation (bet : ValueBet) (maxOdds : ℚ) : Bool :=
  0 < maxOdds && maxOdds ≤ bet.bestOdds

/-- `casefold` is `lower` wherever the answer turns on it. -/
def drawSelectionDemotion (market : Market) (selection : Str) : Bool :=
  let normalized := norm selection
  match market with
  | .h2h => normalized = "draw".toList
  | .doubleChance =>
    normalized ∈ ["1x".toList, "x2".toList] ||
      "draw".toList ∈ (splitSeq " or ".toList normalized).map strip
  | _ => false

def premiumFloorShadowDnbMinEdge : ℚ := 15 / 1000

def premiumFloorShadowDnb (market : Market) (edge premiumFloor : ℚ) (anchorBook : Str) : Bool :=
  market = .dnb && isSharpAnchored anchorBook && premiumFloorShadowDnbMinEdge ≤ edge &&
    edge < premiumFloor

/-- `min_acceptable_odds`. It raises on a fair outside (0, 1) and on a negative `minEdge`;
its callers pass neither. -/
def minAcceptableOdds (commissions : Commissions) (fairProb minEdge : ℚ) (book : Str) :
    Option ℚ :=
  let headroom := fairProb - minEdge
  if headroom ≤ 0 then none
  else
    let effMin := 1 / headroom
    let c := (commissions.get? (norm book)).getD 0
    some (1 + (effMin - 1) / (1 - c))

def structuralSanityViolation (commissions : Commissions) (bet : ValueBet)
    (minEdge sanityMaxEdge : ℚ) : Bool :=
  if sanityMaxEdge < bet.edge then true
  else if ¬ (0 < bet.sharpFairProb ∧ bet.sharpFairProb < 1) then true
  else if bet.bestOddsEffective ≤ 1 / bet.sharpFairProb then true
  else
    match minAcceptableOdds commissions bet.sharpFairProb minEdge bet.bestBook with
    | none => true
    | some floor => bet.bestOdds < floor

end SharpEvPicks.Edge
