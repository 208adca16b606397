import SharpEvPicks.Pipeline.ValuePipeline

/-! What a minted pick comes from: a group of the cycle, its anchored fair and a bet of its scan
that no drop took away. -/
namespace SharpEvPicks.Pipeline

open Python Edge Probabilities

variable [Unicode] {deps : Deps} {c : Cycle}

structure Survives (deps : Deps) (c : Cycle) (times : Dict (Str × Str) Int) (key : MarketKey)
    (v : ValueBet) (age : ℚ) : Prop where
  handicap : isAsianHandicap key.2.2 →
    ahCandidatePlausible v deps.valuePolicy.ahMaxOdds deps.valuePolicy.ahMaxSharpSoftRatio
  doubleChance : key.2.1 = .doubleChance →
    dcCandidatePlausible v deps.valuePolicy.dcMaxSharpSoftRatio
  age_eq : candidateAgeSeconds c.now (times.get? (v.selection, v.bestBook)) = some age
  fresh : age ≤ deps.maxOddsAgeSeconds
  band : oddsInBands v.bestOdds deps.valuePolicy.oddsBands
  sane : v.bestOdds ≤ sanityMaxOdds
  ceiling : globalOddsCeilingViolation v deps.valuePolicy.maxOdds = false

def floorOf (deps : Deps) (key : MarketKey) : ℚ :=
  minEdgeFor deps.valuePolicy key.2.1 key.2.2 deps.valueMinEdge

def hoursOf (c : Cycle) (key : MarketKey) : Option ℚ :=
  hoursToKickoff (c.kickoffs.of key.1) c.now

theorem evaluateBet_iff {miss : Dict MarketKey SharpMiss} {times : Dict (Str × Str) Int}
    {key : MarketKey} {prices : Prices} {anchorBook : Str} {v : ValueBet} {e : Evaluation} :
    evaluateBet deps c miss times key prices anchorBook v = some e ↔
      ∃ age tier gated, Survives deps c times key v age ∧
        pickTier v.edge (floorOf deps key) deps.valueVolumeMinEdge = some tier ∧
        demotionChain deps c miss key anchorBook v (floorOf deps key) tier (hoursOf c key) =
          some gated ∧
        ⟨valuePick deps c key prices v gated.tier age (hoursOf c key), key.2.2,
          gated.reasons⟩ = e := by
  obtain ⟨eventId, market, detail⟩ := key
  unfold evaluateBet
  constructor
  · intro result
    simp only [Option.ite_none_left_eq_some, Option.bind_eq_some_iff,
      Option.map_eq_some_iff] at result
    obtain ⟨handicap, doubleChance, age, age_eq, fresh, band, sane, ceiling, tier, tiered, gated,
      chained, built⟩ := result
    have kept : Survives deps c times (eventId, market, detail) v age :=
      { handicap := by simpa using handicap
        doubleChance := by simpa using doubleChance
        age_eq := age_eq
        fresh := not_lt.mp fresh
        band := by simpa using band
        sane := not_lt.mp sane
        ceiling := by simpa using ceiling }
    exact ⟨age, tier, gated, kept, tiered, chained, built⟩
  · rintro ⟨age, tier, gated, kept, tiered, chained, rfl⟩
    simp only [Option.ite_none_left_eq_some, Option.bind_eq_some_iff, Option.map_eq_some_iff]
    refine ⟨by simpa using kept.handicap, by simpa using kept.doubleChance, age, kept.age_eq,
      not_lt.mpr kept.fresh, by simpa using kept.band, not_lt.mpr kept.sane,
      by simpa using kept.ceiling, tier, tiered, gated, chained, rfl⟩
def skipped (deps : Deps) (c : Cycle) : Prop :=
  c.sportKey ∈ deps.visibilityOnlySports ∨ c.snapshots = [] ∨
    (¬ c.sourceComplete ∧ incompleteFetchRatioWarn < c.incompleteRatio)

def timesOf (deps : Deps) (c : Cycle) (key : MarketKey) : Dict (Str × Str) Int :=
  ((groupMarketFreshnessTimes deps.candidateFreshnessBasis c.folded).get? key).getD Dict.empty

/-- A pick of the cycle, with everything it was built from. -/
structure Origin (deps : Deps) (c : Cycle) (fairs : Fairs) (e : Evaluation) (group : Group)
    (fair : Dict Str ℚ) (v : ValueBet) (age : ℚ) (tier : Tier) (gated : Gated) : Prop where
  grouped : (groupMarketPrices c.folded).get? e.key = some group
  kept : groupDropped deps c e.key group.prices = false
  anchored : fairs.fair.get? e.key = some (v.sharpBook, fair)
  scanned : v ∈ findValueBetsWithFair group.prices fair v.sharpBook (scanOptions deps e.key)
  survives : Survives deps c (timesOf deps c e.key) e.key v age
  tiered : pickTier v.edge (floorOf deps e.key) deps.valueVolumeMinEdge = some tier
  chained : demotionChain deps c fairs.miss e.key v.sharpBook v (floorOf deps e.key) tier
    (hoursOf c e.key) = some gated
  pick : valuePick deps c e.key group.prices v gated.tier age (hoursOf c e.key) = e.pick
  reasons : gated.reasons = e.reasons

theorem sharpBook_of_scanned {opts : ScanOptions} {prices : Prices} {fair : Dict Str ℚ}
    {anchorBook : Str} {v : ValueBet}
    (scanned : v ∈ findValueBetsWithFair prices fair anchorBook opts) :
    v.sharpBook = anchorBook := by
  obtain ⟨-, s, books, -, found⟩ := mem_scanAgainstFair.mp scanned
  obtain ⟨fairP, theoretical, fill, -, -, -, -, -, -, rfl⟩ := scanSelection_iff.mp found
  rfl

theorem mem_evaluateGroup {priced : PricedMarkets} {key : MarketKey} {group : Group}
    {e : Evaluation} :
    e ∈ evaluateGroup deps c priced key group ↔
      groupDropped deps c key group.prices = false ∧ ∃ fair v,
        priced.fair.get? key = some (v.sharpBook, fair) ∧
        v ∈ findValueBetsWithFair group.prices fair v.sharpBook (scanOptions deps key) ∧
        evaluateBet deps c priced.sharpMiss ((priced.freshness.get? key).getD Dict.empty) key
          group.prices v.sharpBook v = some e := by
  unfold evaluateGroup
  split
  · rename_i dropped
    simp [dropped]
  · rename_i kept
    cases anchored : priced.fair.get? key with
    | none => simp
    | some pair =>
      obtain ⟨anchorBook, fair⟩ := pair
      simp only [Bool.not_eq_true] at kept
      simp only [kept, true_and, List.mem_filterMap, Option.some.injEq, Prod.mk.injEq]
      constructor
      · rintro ⟨v, scanned, built⟩
        have same := sharpBook_of_scanned scanned
        subst same
        exact ⟨fair, v, ⟨rfl, rfl⟩, scanned, built⟩
      · rintro ⟨fair', v, ⟨rfl, rfl⟩, scanned, built⟩
        exact ⟨v, scanned, built⟩

theorem mem_runValuePipeline [Numerics ℚ] {evals : List Evaluation}
    (ran : runValuePipeline deps c = .ok evals) {e : Evaluation} :
    e ∈ evals ↔ ¬ skipped deps c ∧ ∃ fairs, mintFairs deps c = .ok fairs ∧
      ∃ group fair v age tier gated, Origin deps c fairs e group fair v age tier gated := by
  unfold runValuePipeline at ran
  split at ran
  · rename_i idle
    cases ran
    constructor
    · intro absurd
      cases absurd
    · rintro ⟨live, -⟩
      exact absurd idle live
  · rename_i live
    simp only [groupAndPriceMarkets] at ran
    cases priced : mintFairs deps c with
    | error err =>
      rw [priced] at ran
      cases ran
    | ok fairs =>
      rw [priced] at ran
      cases ran
      simp only [List.mem_flatMap, Prod.exists, mem_evaluateGroup, evaluateBet_iff]
      constructor
      · rintro ⟨eventId, market, detail, group, inside, kept, fair, v, anchored, scanned, age,
          tier, gated, survives, tiered, chained, rfl⟩
        exact ⟨live, fairs, rfl, group, fair, v, age, tier, gated,
          { grouped := Dict.get?_eq_some_iff.mpr inside
            kept := kept
            anchored := anchored
            scanned := scanned
            survives := survives
            tiered := tiered
            chained := chained
            pick := rfl
            reasons := rfl }⟩
      · rintro ⟨-, fairs', priced', group, fair, v, age, tier, gated, origin⟩
        cases priced'
        exact ⟨_, _, _, group, Dict.get?_eq_some_iff.mp origin.grouped, origin.kept, fair, v,
          origin.anchored, origin.scanned, age, tier, gated, origin.survives, origin.tiered,
          origin.chained, Evaluation.ext origin.pick rfl origin.reasons⟩

/-- The picks of a cycle; none where a devig raises. -/
def minted [Numerics ℚ] (deps : Deps) (c : Cycle) : List Evaluation :=
  (runValuePipeline deps c).toOption.getD []

theorem mem_minted [Numerics ℚ] {e : Evaluation} :
    e ∈ minted deps c ↔ ¬ skipped deps c ∧ ∃ fairs, mintFairs deps c = .ok fairs ∧
      ∃ group fair v age tier gated, Origin deps c fairs e group fair v age tier gated := by
  unfold minted
  cases ran : runValuePipeline deps c with
  | ok evals => exact mem_runValuePipeline ran
  | error err =>
    constructor
    · intro inside
      cases inside
    · rintro ⟨live, fairs, priced, -⟩
      unfold skipped at live
      unfold runValuePipeline at ran
      rw [if_neg live, groupAndPriceMarkets, priced] at ran
      cases ran

def winnerPrice (book selection : String) (odds : ℚ) (gt : 1 < odds)
    (le : odds ≤ maxDecimalOdds) : Snapshot where
  eventId := "e1".toList
  bookmaker := book.toList
  market := .h2h
  selection := selection.toList
  decimalOdds := odds
  capturedAt := 0
  ingestedAt := 0
  odds_gt := gt
  odds_le := le
  liquidity_nonneg := by simp
  not_future := by decide

omit [Unicode] in
theorem no_overrides : ∀ e ∈ ([] : List (Str × ℚ)), 0 ≤ e.2 := by simp

def additiveDeps : Deps where
  devigMethod := .additive
  directory _ := none
  maxOddsAgeSeconds := 600
  floor_nonneg := by norm_num
  override_nonneg := no_overrides

def soccerCycle (snapshots : List Snapshot) : Cycle where
  sportKey := "soccer".toList
  snapshots := snapshots
  kickoffs := ⟨[("e1".toList, some (hours 1))], by decide⟩
  now := seconds 60

end SharpEvPicks.Pipeline
