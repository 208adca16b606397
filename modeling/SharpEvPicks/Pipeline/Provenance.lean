import SharpEvPicks.Clv.Trust
import SharpEvPicks.Pipeline.Minted

/-! The devig flag of a pick against the devig behind its fair value. The flag is right where
`event_fair_probs` leaves it and lost in the scan, which is called without it. -/
namespace SharpEvPicks.Pipeline

open Python Edge Probabilities Clv

section Fairs
variable [Unicode] [Numerics ℚ]

/-- The group whose vector is devigged for the fair of a market: for a double chance the last
three-way 1X2 of its event that has a fair. -/
def anchorGroup (options : MarketKey → AnchorOptions) (grouped : GroupedMarkets)
    (key : MarketKey) : Option (MarketKey × Group) :=
  if key.2.1 = .doubleChance then
    (grouped.entries.filter fun entry => (threeWayOf options key.1 entry).isSome).getLast?
  else (grouped.get? key).map fun group => (key, group)

def anchorFellBack (options : MarketKey → AnchorOptions) (grouped : GroupedMarkets)
    (key : MarketKey) : Bool :=
  (anchorGroup options grouped key).any fun entry => vectorFellBack (options entry.1) entry.2.prices

theorem anchoring_some {options : MarketKey → AnchorOptions} {key : MarketKey} {group : Group}
    {a : Anchored} (anchored : anchoring options key group = .ok (some a)) :
    key.2.1 ∈ directMarkets ∧ ∃ miss,
      anchorFairProbs (options key) group.prices = .ok (some a, miss) := by
  unfold anchoring at anchored
  split at anchored
  · cases anchored
  · rename_i direct
    split at anchored
    · cases anchored
    · cases priced : anchorFairProbs (options key) group.prices with
      | error e =>
        rw [priced] at anchored
        cases anchored
      | ok result =>
        rw [priced] at anchored
        obtain ⟨found, miss⟩ := result
        cases anchored
        exact ⟨not_not.mp direct, miss, rfl⟩

theorem threeWayOf_fellBack {options : MarketKey → AnchorOptions} {event : Str}
    {entry : MarketKey × Group} {threeWay : ThreeWay}
    (found : threeWayOf options event entry = some threeWay) :
    threeWay.fellBack = vectorFellBack (options entry.1) entry.2.prices := by
  unfold threeWayOf at found
  split at found
  · cases anchored : anchoring options entry.1 entry.2 with
    | error e =>
      rw [anchored] at found
      cases found
    | ok result =>
      rw [anchored] at found
      cases result with
      | none => cases found
      | some a =>
        cases found
        obtain ⟨-, miss, priced⟩ := anchoring_some anchored
        exact anchorFairProbs_fellBack priced
  · cases found

omit [Unicode] [Numerics ℚ] in
theorem doubleChanceStep_cases (out : Fairs) (key : MarketKey) :
    (doubleChanceStep out key).threeWay = out.threeWay ∧
      (((doubleChanceStep out key).fair = out.fair ∧
          (doubleChanceStep out key).fellBack = out.fellBack) ∨
        key.2.1 = .doubleChance ∧ ∃ threeWay fair, out.threeWay.get? key.1 = some threeWay ∧
          (doubleChanceStep out key).fair = out.fair.set key fair ∧
          (doubleChanceStep out key).fellBack = out.fellBack.set key threeWay.fellBack) := by
  unfold doubleChanceStep
  split
  · exact ⟨rfl, .inl ⟨rfl, rfl⟩⟩
  · rename_i derived
    split
    · exact ⟨rfl, .inl ⟨rfl, rfl⟩⟩
    · rename_i threeWay known
      split
      · split
        · exact ⟨rfl, .inl ⟨rfl, rfl⟩⟩
        · dsimp only
          split
          · exact ⟨rfl, .inl ⟨rfl, rfl⟩⟩
          · exact ⟨rfl, .inr ⟨not_not.mp derived, threeWay, _, known, rfl, rfl⟩⟩
      · exact ⟨rfl, .inl ⟨rfl, rfl⟩⟩

/-- Every fair has its flag, and the flag says how its anchor's vector was devigged. -/
def Fairs.Truthful (flag : MarketKey → Bool) (out : Fairs) : Prop :=
  ∀ key, (out.fair.get? key).isSome → out.fellBack.get? key = some (flag key)

omit [Unicode] [Numerics ℚ] in
theorem foldl_doubleChanceStep {flag : MarketKey → Bool} {keys : List MarketKey} {out : Fairs}
    (derived : ∀ key threeWay, key.2.1 = .doubleChance →
      out.threeWay.get? key.1 = some threeWay → threeWay.fellBack = flag key)
    (truthful : out.Truthful flag) : (keys.foldl doubleChanceStep out).Truthful flag := by
  induction keys generalizing out with
  | nil => exact truthful
  | cons key rest ih =>
    rw [List.foldl_cons]
    obtain ⟨kept, ⟨fair, fellBack⟩ | ⟨double, threeWay, value, known, fair,
        fellBack⟩⟩ :=
      doubleChanceStep_cases out key
    · refine ih (by rwa [kept]) ?_
      unfold Fairs.Truthful
      rwa [fair, fellBack]
    · refine ih (by rwa [kept]) ?_
      intro other priced
      rw [fair, Dict.get?_set] at priced
      rw [fellBack, Dict.get?_set]
      split
      · rename_i same
        subst same
        rw [derived other threeWay double known]
      · rename_i ne
        rw [if_neg ne] at priced
        exact truthful other priced

/-- The side channel of `event_fair_probs` is right for every market it prices. -/
theorem eventFairProbs_truthful {grouped : GroupedMarkets} {method : DevigMethod}
    {policy : ValuePolicy} {liquidity : Dict MarketKey Prices} {demoted : List Str} {out : Fairs}
    (ran : eventFairProbs grouped method policy liquidity demoted = .ok out) :
    out.Truthful (anchorFellBack (anchorOptions method policy liquidity demoted) grouped) := by
  unfold eventFairProbs at ran
  cases looped : grouped.entries.foldlM
      (fairStep (anchorOptions method policy liquidity demoted)) {} with
  | error e =>
    rw [looped] at ran
    cases ran
  | ok first =>
    rw [looped] at ran
    cases ran
    obtain ⟨others, own⟩ := foldlM_fairStep grouped.nodup looped
    apply foldl_doubleChanceStep
    · intro key threeWay double known
      rw [foldlM_threeWay looped, Dict.get?_empty, Option.or_none, Option.bind_eq_some_iff] at known
      obtain ⟨entry, last, found⟩ := known
      rw [threeWayOf_fellBack found, anchorFellBack, anchorGroup, if_pos double, last,
        Option.any_some]
    · intro key priced
      by_cases inside : key ∈ grouped.entries.map Prod.fst
      · obtain ⟨⟨key', group⟩, member, rfl⟩ := List.mem_map.mp inside
        obtain ⟨result, anchored, fair, fellBack⟩ := own key' group member
        simp only [Dict.get?_empty, Option.or_none] at fair fellBack
        rw [fair, Option.isSome_map] at priced
        obtain ⟨a, rfl⟩ := Option.isSome_iff_exists.mp priced
        obtain ⟨direct, miss, found⟩ := anchoring_some anchored
        have single : key'.2.1 ≠ .doubleChance := by
          rintro double
          rw [double] at direct
          revert direct
          decide
        rw [fellBack, anchorFellBack, anchorGroup, if_neg single,
          Dict.get?_eq_some_iff.mpr member, Option.map_some, Option.map_some, Option.any_some,
          anchorFairProbs_fellBack found]
      · rw [(others key inside).1, Dict.get?_empty] at priced
        cases priced

end Fairs

section Picks
variable [Unicode] [Numerics ℚ] {deps : Deps} {c : Cycle} {e : Evaluation}

def mintOptions (deps : Deps) (c : Cycle) : MarketKey → AnchorOptions :=
  anchorOptions deps.devigMethod deps.valuePolicy (groupMarketLiquidity c.folded)
    (enforcedDemotions deps.valuePolicy c)

def devigFellBack (deps : Deps) (c : Cycle) (e : Evaluation) : Bool :=
  anchorFellBack (mintOptions deps c) (groupMarketPrices c.folded) e.key

/-- The flag of a pick is that of its devig, so that the guard on closes of another effective
method fires exactly on these. -/
structure TruthfulProvenance (deps : Deps) (c : Cycle) (e : Evaluation) : Prop where
  flag : e.pick.mintDevigFellBack = devigFellBack deps c e
  guard : ∀ (close : Close) fillEff closeFellBack clvLogValue hasSnapshotClose,
    close.Comparable fillEff →
      (closeExclusionReason close fillEff (some e.pick.mintDevigFellBack) (some closeFellBack)
          clvLogValue hasSnapshotClose = .asymmetricDevigFallback ↔
        closeFellBack ≠ devigFellBack deps c e)

omit [Numerics ℚ] in
theorem flag_of_scanned {opts : ScanOptions} {prices : Prices} {fair : Dict Str ℚ}
    {anchorBook : Str} {v : ValueBet}
    (scanned : v ∈ findValueBetsWithFair prices fair anchorBook opts) :
    v.sharpDevigFellBack = opts.devigFellBack := by
  obtain ⟨-, s, books, -, found⟩ := mem_scanAgainstFair.mp scanned
  obtain ⟨fairP, theoretical, fill, -, -, -, -, -, -, rfl⟩ := scanSelection_iff.mp found
  rfl

theorem mintDevigFellBack_of_minted (inside : e ∈ minted deps c) :
    e.pick.mintDevigFellBack = false := by
  obtain ⟨-, fairs, -, group, fair, v, age, tier, gated, origin⟩ := mem_minted.mp inside
  rw [← origin.pick]
  exact flag_of_scanned origin.scanned

theorem devigProvenance_iff (inside : e ∈ minted deps c) :
    TruthfulProvenance deps c e ↔ devigFellBack deps c e = false := by
  have lost := mintDevigFellBack_of_minted inside
  constructor
  · intro truthful
    rw [← truthful.flag, lost]
  · intro solved
    refine ⟨by rw [lost, solved], ?_⟩
    intro close fillEff closeFellBack clvLogValue hasSnapshotClose comparable
    rw [closeExclusionReason_asymmetric_iff, lost, solved]
    cases closeFellBack <;> simp [comparable, devigFallbackAsymmetric]

end Picks

/-- Pinnacle's favourite is so short that an equal share of its margin leaves the longshot nothing.
-/
def lopsidedCycle : Cycle :=
  soccerCycle
    [winnerPrice "Pinnacle" "Arsenal" (102 / 100) (by norm_num) (by norm_num [maxDecimalOdds]),
      winnerPrice "Pinnacle" "Draw" 21 (by norm_num) (by norm_num [maxDecimalOdds]),
      winnerPrice "Pinnacle" "Chelsea" 101 (by norm_num) (by norm_num [maxDecimalOdds]),
      winnerPrice "Bet365" "Draw" 40 (by norm_num) (by norm_num [maxDecimalOdds])]

theorem lopsidedCycle_fellBack :
    ((@minted Unicode.ascii Numerics.trivial additiveDeps lopsidedCycle).any fun e =>
      @devigFellBack Unicode.ascii Numerics.trivial additiveDeps lopsidedCycle e) = true := by
  decide +kernel

theorem lopsidedCycle_provenance :
    ∃ e ∈ @minted Unicode.ascii Numerics.trivial additiveDeps lopsidedCycle,
      @TruthfulProvenance Unicode.ascii Numerics.trivial additiveDeps lopsidedCycle e ↔
        @devigFellBack Unicode.ascii Numerics.trivial additiveDeps lopsidedCycle e = false := by
  obtain ⟨e, inside, -⟩ := List.any_eq_true.mp lopsidedCycle_fellBack
  exact ⟨e, inside, @devigProvenance_iff Unicode.ascii Numerics.trivial _ _ _ inside⟩

/-- A pick priced by a fallback, with a flag that denies it. -/
theorem devigProvenance_fails :
    ¬ ∀ e ∈ @minted Unicode.ascii Numerics.trivial additiveDeps lopsidedCycle,
      @TruthfulProvenance Unicode.ascii Numerics.trivial additiveDeps lopsidedCycle e := by
  intro truthful
  obtain ⟨e, inside, fellBack⟩ := List.any_eq_true.mp lopsidedCycle_fellBack
  have lost := @mintDevigFellBack_of_minted Unicode.ascii Numerics.trivial _ _ _ inside
  have flag := @TruthfulProvenance.flag Unicode.ascii Numerics.trivial _ _ _ (truthful e inside)
  rw [flag, fellBack] at lost
  cases lost

end SharpEvPicks.Pipeline
