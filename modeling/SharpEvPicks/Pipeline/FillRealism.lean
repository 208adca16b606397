import SharpEvPicks.Pipeline.Minted

/-! The book a pick is filled at against the books the policy can bet at. The scan keeps off the
sharp books and off the anchor, but is called without the allowlist. -/
namespace SharpEvPicks.Pipeline

open Python Edge Probabilities

section
variable [Unicode]

def offers (c : Cycle) (key : MarketKey) (selection : Str) : Dict Str ℚ :=
  (((groupMarketPrices c.folded).get? key).bind (·.prices.get? selection)).getD Dict.empty

structure Bettable (policy : ValuePolicy) (anchorBook book : Str) : Prop where
  allowed : norm book ∈ policy.bookAllowlist
  soft : norm book ∉ sharpBooks.map norm
  foreign : norm book ≠ norm anchorBook

/-- The pick is filled at a bettable book with the best net price of these. -/
structure FilledFairly (deps : Deps) (c : Cycle) (e : Evaluation) : Prop where
  bettable : Bettable deps.valuePolicy e.pick.anchorBook e.pick.bookmaker
  offered : (offers c e.key e.pick.selection).get? e.pick.bookmaker = some e.pick.decimalOdds
  best : ∀ book odds, (offers c e.key e.pick.selection).get? book = some odds →
    Bettable deps.valuePolicy e.pick.anchorBook book →
      effectiveOdds exchangeCommission book odds ≤
        effectiveOdds exchangeCommission e.pick.bookmaker e.pick.decimalOdds

variable [Numerics ℚ]

def anchorBookOf (deps : Deps) (c : Cycle) (key : MarketKey) : Str :=
  (((mintFairs deps c).toOption.bind (·.fair.get? key)).map Prod.fst).getD []

/-- The first of the best soft prices of a selection is at an allowed book. -/
def BestSoftAllowed (deps : Deps) (c : Cycle) (key : MarketKey) (selection : Str) : Prop :=
  ∃ best, FirstLeast (fun q => OrderDual.toDual q.effective)
      (quotes exchangeCommission (anchorBookOf deps c key) [] (offers c key selection)) best ∧
    norm best.book ∈ deps.valuePolicy.bookAllowlist

omit [Numerics ℚ] in
theorem mem_quotes {commissions : Commissions} {anchorBook : Str} {allowlist : List Str}
    {books : Dict Str ℚ} {q : Quote} :
    q ∈ quotes commissions anchorBook allowlist books ↔
      books.get? q.book = some q.odds ∧ eligible anchorBook allowlist q.book q.odds ∧
        q.effective = effectiveOdds commissions q.book q.odds := by
  simp only [quotes, List.mem_map, List.mem_filter, Prod.exists, Dict.get?_eq_some_iff]
  constructor
  · rintro ⟨book, odds, ⟨listed, allowed⟩, rfl⟩
    exact ⟨listed, allowed, rfl⟩
  · rintro ⟨listed, allowed, same⟩
    exact ⟨q.book, q.odds, ⟨listed, allowed⟩, by rw [← same]⟩

omit [Numerics ℚ] in
theorem eligible_iff {anchorBook book : Str} {odds : ℚ} :
    eligible anchorBook [] book odds ↔
      norm book ≠ norm anchorBook ∧ norm book ∉ sharpBooks.map norm ∧ 1 < odds := by
  simp [eligible, and_assoc]

omit [Numerics ℚ] in
theorem one_lt_of_offered {c : Cycle} {key : MarketKey} {selection book : Str} {odds : ℚ}
    (offered : (offers c key selection).get? book = some odds) : 1 < odds := by
  unfold offers at offered
  cases grouped : (groupMarketPrices c.folded).get? key with
  | none =>
    rw [grouped] at offered
    cases offered
  | some group =>
    rw [grouped, Option.bind_some] at offered
    have priced : group.price selection book = some odds := by
      unfold Group.price
      cases books : group.prices.get? selection with
      | none =>
        rw [books] at offered
        cases offered
      | some entry =>
        rw [books] at offered
        exact offered
    exact one_lt_of_grouped grouped priced

theorem fill_of_minted {deps : Deps} {c : Cycle} {e : Evaluation} (inside : e ∈ minted deps c) :
    e.pick.anchorBook = anchorBookOf deps c e.key ∧ ∃ fill,
      FirstLeast (fun q => OrderDual.toDual q.effective)
          (quotes exchangeCommission e.pick.anchorBook [] (offers c e.key e.pick.selection))
            fill ∧
        e.pick.bookmaker = fill.book ∧ e.pick.decimalOdds = fill.odds := by
  obtain ⟨-, fairs, priced, group, fair, v, age, tier, gated, origin⟩ := mem_minted.mp inside
  obtain ⟨-, s, books, listed, found⟩ := mem_scanAgainstFair.mp origin.scanned
  obtain ⟨fairP, theoretical, fill, -, -, filled, -, -, -, built⟩ := scanSelection_iff.mp found
  have anchorBook : e.pick.anchorBook = v.sharpBook := by rw [← origin.pick]; rfl
  have selection : e.pick.selection = s := by rw [← origin.pick, ← built]; rfl
  have offered : offers c e.key e.pick.selection = books := by
    rw [offers, origin.grouped, Option.bind_some, selection, Dict.get?_eq_some_iff.mpr listed,
      Option.getD_some]
  refine ⟨?_, fill, ?_, by rw [← origin.pick, ← built]; rfl, by
    rw [← origin.pick, ← built]; rfl⟩
  · rw [anchorBook, anchorBookOf, priced, Except.toOption, Option.bind_some, origin.anchored]
    rfl
  · rw [offered, anchorBook]
    exact (maxBy_iff _ _ _).mp filled

theorem filledFairly_iff {deps : Deps} {c : Cycle} {e : Evaluation} (inside : e ∈ minted deps c) :
    FilledFairly deps c e ↔ BestSoftAllowed deps c e.key e.pick.selection := by
  obtain ⟨anchorBook, fill, first, bookmaker, decimalOdds⟩ := fill_of_minted inside
  unfold BestSoftAllowed
  rw [← anchorBook]
  constructor
  · intro fair
    refine ⟨fill, first, ?_⟩
    rw [← bookmaker]
    exact fair.bettable.allowed
  · rintro ⟨best, first', allowed⟩
    cases first.unique first'
    obtain ⟨offered, eligible, effective⟩ := mem_quotes.mp first.mem
    obtain ⟨foreign, soft, -⟩ := eligible_iff.mp eligible
    rw [← bookmaker] at offered foreign soft allowed
    refine ⟨⟨allowed, soft, foreign⟩, by rw [offered, decimalOdds], ?_⟩
    intro book odds other bettable
    have quoted : (⟨book, odds, effectiveOdds exchangeCommission book odds⟩ : Quote) ∈
        quotes exchangeCommission e.pick.anchorBook [] (offers c e.key e.pick.selection) :=
      mem_quotes.mpr
        ⟨other, eligible_iff.mpr ⟨bettable.foreign, bettable.soft, one_lt_of_offered other⟩,
          rfl⟩
    rw [bookmaker, decimalOdds, ← effective]
    exact OrderDual.toDual_le_toDual.mp (first.le quoted)

end

def bet365Deps : Deps :=
  { additiveDeps with
    valuePolicy := { bookAllowlist := ["bet365".toList] }
    override_nonneg := no_overrides }

/-- Two soft books above Pinnacle's fair value of the draw; the better one is not allowed. -/
def outbidCycle : Cycle :=
  soccerCycle
    [winnerPrice "Pinnacle" "Arsenal" 2 (by norm_num) (by norm_num [maxDecimalOdds]),
      winnerPrice "Pinnacle" "Draw" (35 / 10) (by norm_num) (by norm_num [maxDecimalOdds]),
      winnerPrice "Pinnacle" "Chelsea" (42 / 10) (by norm_num) (by norm_num [maxDecimalOdds]),
      winnerPrice "Bet365" "Draw" (385 / 100) (by norm_num) (by norm_num [maxDecimalOdds]),
      winnerPrice "Unibet" "Draw" (39 / 10) (by norm_num) (by norm_num [maxDecimalOdds])]

theorem outbidCycle_fill :
    ((@minted Unicode.ascii Numerics.trivial bet365Deps outbidCycle).any fun e =>
      e.pick.tier = .premium ∧
        @norm Unicode.ascii e.pick.bookmaker ∉ bet365Deps.valuePolicy.bookAllowlist) = true := by
  decide +kernel

theorem outbidCycle_filled :
    ∃ e ∈ @minted Unicode.ascii Numerics.trivial bet365Deps outbidCycle,
      @FilledFairly Unicode.ascii bet365Deps outbidCycle e ↔
        @BestSoftAllowed Unicode.ascii Numerics.trivial bet365Deps outbidCycle e.key
          e.pick.selection := by
  obtain ⟨e, inside, -⟩ := List.any_eq_true.mp outbidCycle_fill
  exact ⟨e, inside, @filledFairly_iff Unicode.ascii Numerics.trivial _ _ _ inside⟩

/-- A premium pick at a book that the policy does not allow. -/
theorem filledFairly_fails :
    ¬ ∀ e ∈ @minted Unicode.ascii Numerics.trivial bet365Deps outbidCycle,
      @FilledFairly Unicode.ascii bet365Deps outbidCycle e := by
  intro fair
  obtain ⟨e, inside, elsewhere⟩ := List.any_eq_true.mp outbidCycle_fill
  have bettable := @FilledFairly.bettable Unicode.ascii _ _ _ (fair e inside)
  exact (of_decide_eq_true elsewhere).2 (@Bettable.allowed Unicode.ascii _ _ _ bettable)

end SharpEvPicks.Pipeline
