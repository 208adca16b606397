import Mathlib.Algebra.Order.Field.Basic
import SharpEvPicks.Edge.Completeness

/-! The execution threshold, `min_acceptable_odds` and `structural_sanity_violation` in
`app/edge/value.py`. -/
namespace SharpEvPicks.Edge

open Python

/-! A commission on winnings over any ordered field. -/

section
variable {K : Type*} [Field K] [LinearOrder K] [IsStrictOrderedRing K] {rate fair floor price : K}

/-- The price left of `price` when winnings pay the rate. -/
def net (rate price : K) : K := 1 + (price - 1) * (1 - rate)

/-- The price that nets to `price`. -/
def gross (rate price : K) : K := 1 + (price - 1) / (1 - rate)

theorem le_net_iff (part : rate < 1) {floor price : K} :
    floor ≤ net rate price ↔ gross rate floor ≤ price := by
  have left : 0 < 1 - rate := sub_pos.mpr part
  calc floor ≤ net rate price
      ↔ floor - 1 ≤ (price - 1) * (1 - rate) := by
        unfold net
        rw [sub_le_iff_le_add']
    _ ↔ (floor - 1) / (1 - rate) ≤ price - 1 := (div_le_iff₀ left).symm
    _ ↔ gross rate floor ≤ price := by
        unfold gross
        rw [le_sub_iff_add_le']

theorem one_lt_net (part : rate < 1) (gt : 1 < price) : 1 < net rate price := by
  have gain : 0 < (price - 1) * (1 - rate) := mul_pos (sub_pos.mpr gt) (sub_pos.mpr part)
  unfold net
  linarith

theorem one_lt_gross (part : rate < 1) (gt : 1 < price) : 1 < gross rate price := by
  have gain : 0 < (price - 1) / (1 - rate) := div_pos (sub_pos.mpr gt) (sub_pos.mpr part)
  unfold gross
  linarith

/-- An edge kept at a price is a headroom that covers what the price implies. -/
theorem keeps_iff (room : 0 < fair - floor) (positive : 0 < price) :
    floor ≤ fair - 1 / price ↔ 1 / (fair - floor) ≤ price := by
  rw [one_div_le room positive, le_sub_comm]

theorem keeps_net_iff (part : rate < 1) (room : 0 < fair - floor) (gt : 1 < price) :
    floor ≤ fair - 1 / net rate price ↔ gross rate (1 / (fair - floor)) ≤ price := by
  have positive : 0 < net rate price := zero_lt_one.trans (one_lt_net part gt)
  rw [keeps_iff room positive, le_net_iff part]

theorem room_of_keeps (positive : 0 < price) (keeps : floor ≤ fair - 1 / price) :
    0 < fair - floor := by
  have implied : 0 < 1 / price := one_div_pos.mpr positive
  linarith

end

section
variable [Unicode] {commissions : Commissions}

def rateOf (commissions : Commissions) (book : Str) : ℚ := (commissions.get? (norm book)).getD 0

theorem effectiveOdds_eq (book : Str) (odds : ℚ) :
    effectiveOdds commissions book odds = net (rateOf commissions book) odds := rfl

omit [Unicode] in
theorem Fees.rate_lt_one (fees : Fees commissions) (k : Str) : (commissions.get? k).getD 0 < 1 := by
  cases found : commissions.get? k with
  | none => exact zero_lt_one
  | some c => exact (fees _ (Dict.get?_eq_some_iff.mp found)).2

theorem Fees.rateOf_lt_one (fees : Fees commissions) (book : Str) : rateOf commissions book < 1 :=
  fees.rate_lt_one (norm book)

theorem minAcceptableOdds_eq (fair minEdge : ℚ) (book : Str) :
    minAcceptableOdds commissions fair minEdge book =
      if fair - minEdge ≤ 0 then none
      else some (gross (rateOf commissions book) (1 / (fair - minEdge))) := rfl

theorem minAcceptableOdds_eq_none_iff {fair minEdge : ℚ} {book : Str} :
    minAcceptableOdds commissions fair minEdge book = none ↔ fair - minEdge ≤ 0 := by
  rw [minAcceptableOdds_eq]
  split
  · rename_i low
    simp only [low]
  · rename_i room
    simp only [room, reduceCtorEq]

theorem minAcceptableOdds_eq_some_iff {fair minEdge m : ℚ} {book : Str} :
    minAcceptableOdds commissions fair minEdge book = some m ↔
      0 < fair - minEdge ∧ gross (rateOf commissions book) (1 / (fair - minEdge)) = m := by
  rw [minAcceptableOdds_eq]
  split
  · rename_i low
    simp only [reduceCtorEq, not_lt.mpr low, false_and]
  · rename_i room
    simp only [Option.some.injEq, not_le.mp room, true_and]

/-- The threshold says of every price whether it keeps the edge. -/
structure Threshold (commissions : Commissions) (fair minEdge : ℚ) (book : Str) : Prop where
  none : minAcceptableOdds commissions fair minEdge book = none ↔
    ¬ ∃ d, 1 < d ∧ minEdge ≤ fair - 1 / effectiveOdds commissions book d
  some : ∀ m, minAcceptableOdds commissions fair minEdge book = some m →
    ∀ d, 1 < d → (minEdge ≤ fair - 1 / effectiveOdds commissions book d ↔ m ≤ d)

theorem keeps_floor (fees : Fees commissions) {fair minEdge m : ℚ} {book : Str}
    (exact : minAcceptableOdds commissions fair minEdge book = some m) {d : ℚ} (gt : 1 < d) :
    minEdge ≤ fair - 1 / effectiveOdds commissions book d ↔ m ≤ d := by
  obtain ⟨room, rfl⟩ := minAcceptableOdds_eq_some_iff.mp exact
  rw [effectiveOdds_eq]
  exact keeps_net_iff (fees.rateOf_lt_one book) room gt

/-- With headroom below one the threshold itself is a price, and it keeps the edge. -/
theorem threshold_of_fair (fees : Fees commissions) {fair minEdge : ℚ} (below : fair < 1)
    (nonneg : 0 ≤ minEdge) (book : Str) : Threshold commissions fair minEdge book := by
  refine ⟨?_, fun m exact d gt => keeps_floor fees exact gt⟩
  rw [minAcceptableOdds_eq_none_iff]
  constructor
  · rintro low ⟨d, gt, keeps⟩
    have positive : 0 < effectiveOdds commissions book d := zero_lt_one.trans (fees.one_lt book gt)
    exact (room_of_keeps positive keeps).not_ge low
  · intro lost
    by_contra room
    have room : 0 < fair - minEdge := not_le.mp room
    have inverse : 1 < 1 / (fair - minEdge) := by
      rw [lt_one_div zero_lt_one room, div_one]
      linarith
    have gt := one_lt_gross (fees.rateOf_lt_one book) inverse
    exact lost ⟨_, gt, (keeps_net_iff (fees.rateOf_lt_one book) room gt).mpr le_rfl⟩

/-- A bet on a price that keeps a positive edge passes every test of the net. -/
theorem sane_of_keeps (fees : Fees commissions) {v : ValueBet} {minEdge sanityMaxEdge : ℚ}
    (gt : 1 < v.bestOdds)
    (netted : v.bestOddsEffective = effectiveOdds commissions v.bestBook v.bestOdds)
    (keeps : minEdge ≤ v.sharpFairProb - 1 / v.bestOddsEffective) (least : 0 < minEdge)
    (below : v.sharpFairProb < 1) (most : v.edge ≤ sanityMaxEdge) :
    structuralSanityViolation commissions v minEdge sanityMaxEdge = false := by
  have positive : 0 < v.bestOddsEffective := by
    rw [netted]
    exact zero_lt_one.trans (fees.one_lt v.bestBook gt)
  have implied : 0 < 1 / v.bestOddsEffective := one_div_pos.mpr positive
  have above : 0 < v.sharpFairProb := by linarith
  have better : 1 / v.sharpFairProb < v.bestOddsEffective := by
    rw [one_div_lt above positive]
    linarith
  have room : 0 < v.sharpFairProb - minEdge := room_of_keeps positive keeps
  obtain ⟨m, found⟩ : ∃ m,
      minAcceptableOdds commissions v.sharpFairProb minEdge v.bestBook = some m :=
    ⟨_, minAcceptableOdds_eq_some_iff.mpr ⟨room, rfl⟩⟩
  rw [netted, keeps_floor fees found gt] at keeps
  unfold structuralSanityViolation
  rw [if_neg most.not_gt, if_neg (not_not_intro ⟨above, below⟩), if_neg better.not_ge, found]
  exact decide_eq_false keeps.not_gt

theorem sane_of_scanSelection {opts : ScanOptions} (fees : Fees opts.commissions) {anchorBook : Str}
    {fair : Dict Str ℚ} {selection : Str} {books : Dict Str ℚ} {v : ValueBet}
    (listed : scanSelection opts anchorBook fair selection books = some v)
    (least : 0 < opts.minEdge) (below : v.sharpFairProb < 1) {sanityMaxEdge : ℚ}
    (most : v.edge ≤ sanityMaxEdge) :
    structuralSanityViolation opts.commissions v opts.minEdge sanityMaxEdge = false := by
  obtain ⟨fairP, theoretical, fill, -, -, best, -, keeps, -, rfl⟩ := scanSelection_iff.mp listed
  obtain ⟨book, odds, -, may, rfl⟩ := mem_quotes.mp ((maxBy_iff _ _ _).mp best).mem
  simp only [eligible, Bool.and_eq_true, decide_eq_true_eq] at may
  exact sane_of_keeps fees may.2 rfl keeps least below most

/-- `min_acceptable_odds` is the price from which the edge is kept, and what the scan lists
with a fair value below one the sanity net lets through. -/
theorem execution_threshold (commissions : Commissions) (fees : Fees commissions) :
    (∀ fair minEdge book, 0 < fair → fair < 1 → 0 ≤ minEdge →
      Threshold commissions fair minEdge book) ∧
    ∀ (opts : ScanOptions) prices fair anchorBook v sanityMaxEdge,
      opts.commissions = commissions →
      0 < opts.minEdge → v ∈ scanAgainstFair opts prices fair anchorBook →
        v.sharpFairProb < 1 → v.edge ≤ sanityMaxEdge →
          structuralSanityViolation commissions v opts.minEdge sanityMaxEdge = false := by
  refine ⟨fun fair minEdge book _ below nonneg => threshold_of_fair fees below nonneg book, ?_⟩
  rintro opts prices fair anchorBook v sanityMaxEdge rfl least listed below most
  obtain ⟨-, s, books, -, bet⟩ := mem_scanAgainstFair.mp listed
  exact sane_of_scanSelection fees bet least below most

end

theorem execution_threshold_derby :
    @Threshold Unicode.ascii exchangeCommission (1 / 2) (1 / 100) "Smarkets".toList ∧
      (@scanAgainstFair Unicode.ascii {} derbyPrices derbyFair "Pinnacle".toList).length = 1 ∧
      ∀ v ∈ @scanAgainstFair Unicode.ascii {} derbyPrices derbyFair "Pinnacle".toList,
        @structuralSanityViolation Unicode.ascii exchangeCommission v (1 / 100)
          (15 / 100) = false := by
  obtain ⟨exact, sane⟩ :=
    @execution_threshold Unicode.ascii exchangeCommission (by decide +kernel)
  have small : ∀ v ∈ @scanAgainstFair Unicode.ascii {} derbyPrices derbyFair "Pinnacle".toList,
      v.sharpFairProb < 1 ∧ v.edge ≤ 15 / 100 := by decide +kernel
  refine ⟨exact _ _ _ (by norm_num) (by norm_num) (by norm_num), by
    decide +kernel, fun v listed => ?_⟩
  exact sane {} _ _ _ v _ rfl (by norm_num) listed (small v listed).1 (small v listed).2

end SharpEvPicks.Edge
