import SharpEvPicks.Clv.Evidence

/-! The three readers against each other: which closes each of them trusts, row by row and in
their counts. -/
namespace SharpEvPicks.Clv

open Python Edge Storage

section
variable [Unicode]

namespace SettledRow

/-- The guards that the three readers share, all passed. -/
structure Admissible (row : SettledRow) : Prop where
  measured : row.pick.close.clvLog.isSome
  snapshot : row.pick.close.hasSnapshotClose = some true
  anchored : row.pick.close.closingAnchorType.any (· ∈ sharpCloseAnchors)
  independent : row.closeIndependent = some true
  moved : clvRowIsTautological row.pick.close.clvLog row.pick.close.closingFairProbability
    row.pick.detection.modelProbability = false
  symmetric :
    devigFallbackAsymmetric row.pick.detection.mintDevigFellBack row.pick.close.closeDevigFellBack =
      false
  current : row.legacyMismatch = false

/-- A raw fill at a book whose commission alone keeps the close-implied edge within the bound. -/
structure Straddles (row : SettledRow) : Prop where
  raw : row.settledEffectiveOdds = none
  unblended : row.pick.basis.stakeAmount ≤ 0
  edge : ∃ closing, row.pick.close.closingFairProbability = some closing ∧
    closing - 1 / effectiveOdds exchangeCommission row.pick.detection.bookmaker
      row.pick.detection.decimalOdds ≤ clvImplausibleCloseEdge ∧
    clvImplausibleCloseEdge < closing - 1 / row.pick.detection.decimalOdds

def fabricatedAt (row : SettledRow) (bookmaker : Option Str) : Bool :=
  clvRowIsFabricated row.pick.close.clvLog row.resultEffectiveOdds
    row.pick.close.closingFairProbability bookmaker

/-! The three conditions, each as the guards and a verdict on the price. -/

omit [Unicode] in
theorem flag_getD_iff {flag : Option Bool} : flag.getD false = true ↔ flag = some true := by
  cases flag <;> simp

theorem headlineRow_trusted_iff (row : SettledRow) :
    row.headlineRow.trusted ↔
      row.Admissible ∧ row.fabricatedAt row.resultGuardBookmaker = false := by
  simp only [HeadlineRow.trusted, HeadlineRow.excluded, Bool.and_eq_true, Bool.not_eq_true',
    Bool.or_eq_false_iff, decide_eq_true_eq, flag_getD_iff]
  constructor
  · rintro ⟨⟨⟨⟨⟨⟨⟨fabricated, moved⟩, snapshot⟩, anchored⟩, measured⟩,
      independent⟩, symmetric⟩, current⟩
    exact ⟨⟨measured, snapshot, anchored, independent, moved, symmetric, current⟩,
      fabricated⟩
  · rintro ⟨guards, fabricated⟩
    exact ⟨⟨⟨⟨⟨⟨⟨fabricated, guards.moved⟩, guards.snapshot⟩, guards.anchored⟩,
      guards.measured⟩, guards.independent⟩, guards.symmetric⟩, guards.current⟩

theorem settledCloseIsTrusted_iff {clvLog : Option ℚ} {closingAnchor : Option AnchorType}
    {closeIndependent hasSnapshotClose : Option Bool} {decimalOdds closing model : Option ℚ}
    {mintFellBack closeFellBack : Option Bool} {bookmaker : Option Str} {legacy : Bool} :
    settledCloseIsTrusted clvLog closingAnchor closeIndependent hasSnapshotClose decimalOdds closing
        model mintFellBack closeFellBack bookmaker legacy ↔
      (clvLog.isSome ∧ hasSnapshotClose = some true ∧
        closingAnchor.any (· ∈ sharpCloseAnchors) ∧
        closeIndependent = some true ∧ clvRowIsTautological clvLog closing model = false ∧
        devigFallbackAsymmetric mintFellBack closeFellBack = false ∧ legacy = false) ∧
      clvRowIsFabricated clvLog decimalOdds closing bookmaker = false := by
  unfold settledCloseIsTrusted
  constructor
  · intro trusted
    split at trusted
    · cases trusted
    rename_i current
    split at trusted
    · cases trusted
    rename_i closed
    split at trusted
    · cases trusted
    rename_i sharp
    split at trusted
    · cases trusted
    rename_i moved
    split at trusted
    · cases trusted
    rename_i fabricated
    simp only [Bool.or_eq_true, Option.isNone_iff_eq_none, Bool.not_eq_true', decide_eq_true_eq,
      not_or, Bool.not_eq_false, not_not, flag_getD_iff] at closed sharp
    have measured : clvLog.isSome := Option.isSome_iff_ne_none.mpr closed.1
    exact ⟨⟨measured, closed.2, sharp.1, sharp.2, by simpa using moved, by simpa using trusted,
      by simpa using current⟩, by simpa using fabricated⟩
  · rintro ⟨⟨measured, snapshot, anchored, independent, moved, symmetric, current⟩,
      fabricated⟩
    simp [current, snapshot, anchored, independent, moved, fabricated, symmetric,
      Option.isSome_iff_ne_none.mp measured]

theorem trustRow_trusted_iff (row : SettledRow) :
    row.trustRow.trusted ↔
      row.Admissible ∧ row.fabricatedAt row.resultGuardBookmaker = false := by
  rw [TrustRow.trusted, settledCloseIsTrusted_iff]
  constructor
  · rintro ⟨⟨measured, snapshot, anchored, independent, moved, symmetric, current⟩,
      fabricated⟩
    exact ⟨⟨measured, snapshot, anchored, independent, moved, symmetric, current⟩,
      fabricated⟩
  · rintro ⟨guards, fabricated⟩
    exact ⟨⟨guards.measured, guards.snapshot, guards.anchored, guards.independent, guards.moved,
      guards.symmetric, guards.current⟩, fabricated⟩

theorem evidenceRow_sharpClose_iff (row : SettledRow) :
    row.evidenceRow.clvLog.isSome ∧ row.evidenceRow.sharpClose ↔
      row.Admissible ∧ row.fabricatedAt none = false := by
  simp only [SettledPickRow.sharpClose, Bool.and_eq_true, Bool.not_eq_true', decide_eq_true_eq]
  constructor
  · rintro ⟨measured,
      ⟨⟨⟨⟨⟨snapshot, anchored⟩, independent⟩, moved⟩, symmetric⟩, fabricated⟩,
      current⟩
    exact ⟨⟨measured, flag_getD_iff.mp snapshot, anchored, independent, moved, symmetric,
      current⟩, fabricated⟩
  · rintro ⟨guards, fabricated⟩
    exact ⟨guards.measured,
      ⟨⟨⟨⟨⟨flag_getD_iff.mpr guards.snapshot, guards.anchored⟩, guards.independent⟩,
        guards.moved⟩,
      guards.symmetric⟩, fabricated⟩, guards.current⟩

/-! The verdicts on the price, net and raw. -/

omit [Unicode] in
/-- A basis holds net odds already, and so does a result; only a raw fill is netted. -/
theorem resultGuardBookmaker_eq (row : SettledRow) :
    row.resultGuardBookmaker =
      if row.settledEffectiveOdds = none ∧ row.pick.basis.stakeAmount ≤ 0 then
        some row.pick.detection.bookmaker
      else none := by
  unfold resultGuardBookmaker settlementGuardBookmaker
  cases row.settledEffectiveOdds with
  | some odds => simp
  | none =>
    by_cases blended : 0 < row.pick.basis.stakeAmount
    · simp [blended]
    · simp [blended, not_lt.mp blended]

omit [Unicode] in
theorem resultEffectiveOdds_raw {row : SettledRow} (raw : row.settledEffectiveOdds = none)
    (unblended : row.pick.basis.stakeAmount ≤ 0) :
    row.resultEffectiveOdds = row.pick.detection.decimalOdds := by
  simp [resultEffectiveOdds, settlementEffectiveOdds, raw, not_lt.mpr unblended]

theorem clvRowIsFabricated_priced {clv odds closing : ℚ} {bookmaker : Option Str}
    (priced : judgedOdds bookmaker odds ≠ 0) :
    clvRowIsFabricated (some clv) (some odds) (some closing) bookmaker =
      decide (clvImplausibleCloseEdge < closing - 1 / judgedOdds bookmaker odds) := by
  simp [clvRowIsFabricated, priced]

theorem fabricatedAt_raw_iff {row : SettledRow} (measured : row.pick.close.clvLog.isSome)
    (raw : row.settledEffectiveOdds = none) (unblended : row.pick.basis.stakeAmount ≤ 0)
    (bookmaker : Option Str) {closing : ℚ}
    (fair : row.pick.close.closingFairProbability = some closing) :
    row.fabricatedAt bookmaker ↔
      clvImplausibleCloseEdge <
        closing - 1 / judgedOdds bookmaker row.pick.detection.decimalOdds := by
  obtain ⟨clv, measured⟩ := Option.isSome_iff_exists.mp measured
  have priced : judgedOdds bookmaker row.pick.detection.decimalOdds ≠ 0 := by
    have positive : 1 ≤ judgedOdds bookmaker row.pick.detection.decimalOdds := by
      cases bookmaker with
      | none => exact row.odds_ge
      | some book => exact one_le_effectiveOdds book row.odds_ge
    linarith
  rw [fabricatedAt, measured, fair, resultEffectiveOdds_raw raw unblended,
    clvRowIsFabricated_priced priced, decide_eq_true_eq]

theorem fabricatedAt_unfair {row : SettledRow} (fair : row.pick.close.closingFairProbability = none)
    (bookmaker : Option Str) : row.fabricatedAt bookmaker = row.fabricatedAt none := by
  unfold fabricatedAt clvRowIsFabricated
  rw [fair]

theorem netEdge_le (row : SettledRow) (closing : ℚ) :
    closing - 1 / effectiveOdds exchangeCommission row.pick.detection.bookmaker
        row.pick.detection.decimalOdds ≤ closing - 1 / row.pick.detection.decimalOdds := by
  have net := one_le_effectiveOdds row.pick.detection.bookmaker row.odds_ge
  have lower := effectiveOdds_le row.pick.detection.bookmaker row.odds_ge
  have implied := one_div_le_one_div_of_le (one_pos.trans_le net) lower
  linarith

/-- The verdicts differ on the rows whose edge straddles the bound, and the raw one is stricter. -/
theorem fabricatedAt_cases (row : SettledRow) (measured : row.pick.close.clvLog.isSome) :
    (row.fabricatedAt row.resultGuardBookmaker = row.fabricatedAt none ∧ ¬ row.Straddles) ∨
      (row.fabricatedAt row.resultGuardBookmaker = false ∧ row.fabricatedAt none = true ∧
        row.Straddles) := by
  by_cases fill : row.settledEffectiveOdds = none ∧ row.pick.basis.stakeAmount ≤ 0
  · rw [resultGuardBookmaker_eq, if_pos fill]
    cases fair : row.pick.close.closingFairProbability with
    | none =>
      refine .inl ⟨fabricatedAt_unfair fair _, ?_⟩
      rintro ⟨-, -, closing, priced, -⟩
      rw [fair] at priced
      cases priced
    | some closing =>
      have net := fabricatedAt_raw_iff measured fill.1 fill.2
        (some row.pick.detection.bookmaker) fair
      have gross := fabricatedAt_raw_iff measured fill.1 fill.2 none fair
      simp only [judgedOdds] at net gross
      rcases lt_or_ge clvImplausibleCloseEdge (closing - 1 / effectiveOdds exchangeCommission
        row.pick.detection.bookmaker row.pick.detection.decimalOdds) with above | within
      · -- the raw edge is then above the bound as well
        refine .inl ⟨(net.mpr above).trans
          (gross.mpr (above.trans_le (row.netEdge_le closing))).symm, ?_⟩
        rintro ⟨-, -, other, same, bounded, -⟩
        obtain rfl := Option.some.inj (fair.symm.trans same)
        exact absurd bounded (not_le.mpr above)
      · have credible : row.fabricatedAt (some row.pick.detection.bookmaker) = false :=
          Bool.eq_false_iff.mpr fun bad => absurd (net.mp bad) (not_lt.mpr within)
        rcases lt_or_ge clvImplausibleCloseEdge (closing - 1 / row.pick.detection.decimalOdds)
          with beyond | inside
        · exact .inr ⟨credible, gross.mpr beyond, fill.1, fill.2, closing, fair,
            within, beyond⟩
        · have agreed : row.fabricatedAt none = false :=
            Bool.eq_false_iff.mpr fun bad => absurd (gross.mp bad) (not_lt.mpr inside)
          refine .inl ⟨credible.trans agreed.symm, ?_⟩
          rintro ⟨-, -, other, same, -, beyond⟩
          obtain rfl := Option.some.inj (fair.symm.trans same)
          exact absurd beyond (not_lt.mpr inside)
  · rw [resultGuardBookmaker_eq, if_neg fill]
    exact .inl ⟨rfl, fun straddles => fill ⟨straddles.raw, straddles.unblended⟩⟩

/-- The row enters the trusted subset of the headline, whatever came before it. -/
def Counted (row : SettledRow) : Prop :=
  ∀ t : Tally, (t.add row.headlineRow).nSharp = t.nSharp + 1

def key (row : SettledRow) : Str × Str := (row.sport, row.market)

end SettledRow

/-! The counts. -/

theorem Tally.nSharp_add (t : Tally) (row : HeadlineRow) :
    (t.add row).nSharp = t.nSharp + if row.trusted then 1 else 0 := by
  unfold Tally.add
  split <;> rfl

theorem counted_iff (row : SettledRow) : row.Counted ↔ row.headlineRow.trusted := by
  constructor
  · intro counted
    have first := counted {}
    rw [Tally.nSharp_add] at first
    by_contra distrusted
    simp [distrusted] at first
  · intro trusted t
    rw [Tally.nSharp_add, if_pos trusted]

theorem Tally.nSharp_foldl (rows : List HeadlineRow) (t : Tally) :
    (rows.foldl Tally.add t).nSharp = t.nSharp + rows.countP HeadlineRow.trusted := by
  induction rows generalizing t with
  | nil => rfl
  | cons row rows ih =>
    rw [List.foldl_cons, ih, Tally.nSharp_add, List.countP_cons]
    omega

/-- A row is only admitted when its close is independent: the raise is out of reach. -/
theorem Tally.sharpAllIndependent_foldl (rows : List HeadlineRow) (t : Tally) :
    (rows.foldl Tally.add t).sharpAllIndependent = t.sharpAllIndependent := by
  induction rows generalizing t with
  | nil => rfl
  | cons row rows ih =>
    rw [List.foldl_cons, ih]
    unfold Tally.add
    split
    · rename_i trusted
      have independent : decide (row.closeIndependent = some true) := by
        simp only [HeadlineRow.trusted, Bool.and_eq_true] at trusted
        exact trusted.1.1.2
      simp [Tally.addTrusted, Tally.addSettled, independent]
    · rfl

theorem aggregateSettled_eq (rows : List HeadlineRow) :
    aggregateSettled rows = .ok ((rows.foldl Tally.add {}).report rows.length) := by
  exact if_pos (Tally.sharpAllIndependent_foldl rows {})

theorem nSharpClose_eq {rows : List SettledRow} {report : Aggregate}
    (done : aggregateSettled (rows.map SettledRow.headlineRow) = .ok report) :
    report.nSharpClose = rows.countP fun row => row.headlineRow.trusted := by
  rw [aggregateSettled_eq] at done
  cases done
  rw [Tally.report, Tally.nSharp_foldl, List.countP_map, Nat.zero_add]
  rfl

theorem SettledPickRow.sampled_of_sharpClose {row : SettledPickRow} (sharp : row.sharpClose) :
    row.sampled := by
  simp only [SettledPickRow.sharpClose, Bool.and_eq_true] at sharp
  obtain ⟨⟨⟨⟨⟨-, independent⟩, moved⟩, -⟩, credible⟩, -⟩ := sharp
  simp only [SettledPickRow.sampled, Bool.and_eq_true]
  exact ⟨⟨independent, moved⟩, credible⟩

theorem sharpCloseStats_nClv (rows : List SettledPickRow) (minN : Nat) :
    (sharpCloseStats rows minN).nClv = rows.countP fun row =>
      row.clvLog.isSome && row.sharpClose := by
  rw [List.countP_eq_length_filter]
  unfold sharpCloseStats stratumStats
  simp only [List.filter_filter]
  congr 1
  apply List.filter_congr
  intro row _
  cases sharp : row.sharpClose with
  | false => simp
  | true => simp [SettledPickRow.sampled_of_sharpClose sharp]

theorem length_trustedCloses (rows : List TrustRow) (key : Str × Str) :
    (((trustedCloses rows).get? key).getD []).length =
      rows.countP fun row => row.trusted && row.key = key := by
  unfold trustedCloses
  rw [Dict.getD_get?_foldl_append, List.length_map, List.filter_filter,
    List.countP_eq_length_filter]
  simp [Bool.and_comm]

omit [Unicode] in
theorem mem_settledCounts {rows : List TrustRow} {row : TrustRow} (inside : row ∈ rows) :
    row.key ∈ (settledCounts rows).keys := by
  unfold settledCounts
  rw [Dict.mem_keys_foldl_modify]
  exact .inr ⟨row, inside, rfl⟩

theorem mem_promotionDistanceCells {rows : List TrustRow} {now : Int} {cell : PromotionCell}
    (inside : cell ∈ promotionDistanceCells rows now) :
    cell.nTrusted = rows.countP fun row => row.trusted && row.key = (cell.sport, cell.market) := by
  unfold promotionDistanceCells at inside
  rw [mem_sortedBy, List.mem_map] at inside
  obtain ⟨key, -, rfl⟩ := inside
  exact length_trustedCloses rows key

theorem sum_nTrusted (rows : List TrustRow) (now : Int) :
    ((promotionDistanceCells rows now).map PromotionCell.nTrusted).sum =
      rows.countP TrustRow.trusted := by
  unfold promotionDistanceCells sortedBy
  rw [((List.perm_insertionSort _ _).map _).sum_eq, List.map_map]
  have cell : ∀ key, (PromotionCell.nTrusted ∘ fun key =>
      promotionCell sportMarketOkN promotionCadenceWindowDays now key
        (((settledCounts rows).get? key).getD 0) (((trustedCloses rows).get? key).getD [])) key =
      (rows.filter TrustRow.trusted).countP fun row => row.key = key := by
    intro key
    rw [List.countP_filter]
    exact (length_trustedCloses rows key).trans (by simp [Bool.and_comm])
  have distinct : (settledCounts rows).keys.Nodup := (settledCounts rows).nodup
  rw [List.map_congr_left fun key _ => cell key, Dict.sum_countP_keys TrustRow.key distinct,
    List.countP_eq_length_filter]
  intro row inside
  exact mem_settledCounts (List.mem_of_mem_filter inside)

/-! One definition of a trusted close. -/

/-- The three readers trust the same closes of these rows, and count them alike: over all of them,
and in every cell of a sport and a market. -/
structure OneTrust (rows : List SettledRow) (now : Int) (minN : Nat) : Prop where
  headline : ∀ row ∈ rows, row.Counted ↔ row.trustRow.trusted
  evidence : ∀ row ∈ rows, row.trustRow.trusted ↔
    row.evidenceRow.clvLog.isSome ∧ row.evidenceRow.sharpClose
  counts : ∃ report, aggregateSettled (rows.map SettledRow.headlineRow) = .ok report ∧
    ((promotionDistanceCells (rows.map SettledRow.trustRow) now).map PromotionCell.nTrusted).sum =
      report.nSharpClose ∧
    (sharpCloseStats (rows.map SettledRow.evidenceRow) minN).nClv = report.nSharpClose
  cells : ∀ cell ∈ promotionDistanceCells (rows.map SettledRow.trustRow) now,
    let own := rows.filter fun row => row.key = (cell.sport, cell.market)
    ∃ report, aggregateSettled (own.map SettledRow.headlineRow) = .ok report ∧
      cell.nTrusted = report.nSharpClose ∧
      (sharpCloseStats (own.map SettledRow.evidenceRow) minN).nClv = report.nSharpClose

namespace SettledRow

theorem headlineRow_trusted_eq (row : SettledRow) :
    row.headlineRow.trusted = row.trustRow.trusted :=
  Bool.eq_iff_iff.mpr (row.headlineRow_trusted_iff.trans row.trustRow_trusted_iff.symm)

/-- The live evidence trusts what the headline trusts, less the rows that straddle the bound. -/
theorem evidence_iff (row : SettledRow) :
    row.evidenceRow.clvLog.isSome ∧ row.evidenceRow.sharpClose ↔
      row.trustRow.trusted ∧ ¬ (row.Admissible ∧ row.Straddles) := by
  rw [evidenceRow_sharpClose_iff, trustRow_trusted_iff]
  constructor
  · rintro ⟨guards, gross⟩
    rcases row.fabricatedAt_cases guards.measured with ⟨same, within⟩ | ⟨-, fabricated, -⟩
    · exact ⟨⟨guards, same.trans gross⟩, fun clipped => within clipped.2⟩
    · rw [gross] at fabricated
      cases fabricated
  · rintro ⟨⟨guards, net⟩, clear⟩
    rcases row.fabricatedAt_cases guards.measured with ⟨same, -⟩ | ⟨-, -, straddles⟩
    · exact ⟨guards, same.symm.trans net⟩
    · exact absurd ⟨guards, straddles⟩ clear

theorem trusted_of_straddles {row : SettledRow} (guards : row.Admissible)
    (straddles : row.Straddles) : row.trustRow.trusted := by
  rcases row.fabricatedAt_cases guards.measured with ⟨-, within⟩ | ⟨net, -, -⟩
  · exact absurd straddles within
  · exact row.trustRow_trusted_iff.mpr ⟨guards, net⟩

end SettledRow

theorem nClv_eq {rows : List SettledRow}
    (clear : ∀ row ∈ rows, ¬ (row.Admissible ∧ row.Straddles)) (minN : Nat) :
    (sharpCloseStats (rows.map SettledRow.evidenceRow) minN).nClv =
      rows.countP fun row => row.headlineRow.trusted := by
  rw [sharpCloseStats_nClv, List.countP_map]
  apply List.countP_congr
  intro row inside
  have same := row.evidence_iff
  simp only [Function.comp_apply, Bool.and_eq_true, row.headlineRow_trusted_eq]
  exact same.trans (and_iff_left (clear row inside))

/-- The readers agree on a report exactly when no admissible raw fill straddles the bound. -/
theorem oneTrust_iff (rows : List SettledRow) (now : Int) (minN : Nat) :
    OneTrust rows now minN ↔ ∀ row ∈ rows, ¬ (row.Admissible ∧ row.Straddles) := by
  constructor
  · intro agreed row inside clipped
    have trusted := SettledRow.trusted_of_straddles clipped.1 clipped.2
    exact (row.evidence_iff.mp ((agreed.evidence row inside).mp trusted)).2 clipped
  · intro clear
    refine ⟨?_, ?_, ?_, ?_⟩
    · intro row _
      rw [counted_iff, row.headlineRow_trusted_eq]
    · intro row inside
      rw [row.evidence_iff]
      exact (and_iff_left (clear row inside)).symm
    · refine ⟨_, aggregateSettled_eq _, ?_, ?_⟩
      · rw [nSharpClose_eq (aggregateSettled_eq _), sum_nTrusted, List.countP_map]
        exact List.countP_congr fun row _ => by simp [row.headlineRow_trusted_eq]
      · rw [nSharpClose_eq (aggregateSettled_eq _), nClv_eq clear]
    · intro cell listed own
      have within : ∀ row ∈ own, ¬ (row.Admissible ∧ row.Straddles) :=
        fun row inside => clear row (List.mem_of_mem_filter inside)
      refine ⟨_, aggregateSettled_eq _, ?_, ?_⟩
      · rw [nSharpClose_eq (aggregateSettled_eq _), mem_promotionDistanceCells listed,
          List.countP_map, List.countP_filter]
        have keyed (row : SettledRow) : row.trustRow.key = row.key := rfl
        exact List.countP_congr fun row _ => by simp [row.headlineRow_trusted_eq, keyed]
      · rw [nSharpClose_eq (aggregateSettled_eq _), nClv_eq within]

end

theorem evenOdds_ge : (1 : ℚ) ≤ 2 := by norm_num

/-- A fill at 2 on an exchange that nets 5%, from before results kept their fill, and its close. -/
def exchangeFill (closing : ℚ) : SettledRow where
  pick :=
    { id := 1
      instrument := ⟨1, .h2h, none, "lakers".toList⟩
      modelVersionId := 1
      detection :=
        { bookmaker := "Betfair Exchange".toList
          decimalOdds := 2
          modelProbability := 55 / 100
          fairProbability := 55 / 100
          edge := 3 / 100
          ev := 7 / 100
          confidence := 1 / 2
          recommendedStakeFraction := 1 / 100
          recommendedStakeAmount := 10
          stakeBreakdown := { rawKelly := 2 / 100, fractional := 1 / 100, capped := false,
                              final := 1 / 100 }
          reasonSummary := []
          valueFilterScore := none
          anchorType := some .pinnacle
          anchorBook := some "Pinnacle".toList
          anchorMatchConfidence := none
          anchorMatchMethod := none
          anchorStalenessDecision := none
          steamTripped := none
          steamReasons := none
          steamClosedFraction := none
          steamAnchorAgeSeconds := none
          anchorBookCount := none
          policyFingerprint := none
          mintDevigFellBack := none }
      basis := ⟨0, 0, 0, none, false⟩
      status := .settled
      tier := .premium
      hoursToKickoff := none
      createdAt := 0
      close :=
        { closingFairProbability := some closing
          clvLog := some (318 / 1000)
          closingAnchorType := some .pinnacle
          hasSnapshotClose := some true
          closeIndependentOfFill := some true } }
  sport := "basketball".toList
  leagueName := "NBA".toList
  startsAt := some (days 1)
  outcome := .won
  pnl := some (95 / 10)
  settledStakeAmount := none
  settledEffectiveOdds := none
  settledAt := days 2
  odds_ge := evenOdds_ge

/-- The net edge of this close is 0.192, the raw one 0.205. -/
theorem oneTrust_fails :
    @HeadlineRow.trusted Unicode.ascii
      (@SettledRow.headlineRow Unicode.ascii (exchangeFill (705 / 1000))) = true ∧
      @TrustRow.trusted Unicode.ascii (exchangeFill (705 / 1000)).trustRow = true ∧
      @SettledPickRow.sharpClose Unicode.ascii (exchangeFill (705 / 1000)).evidenceRow = false ∧
      ∀ now minN, ¬ @OneTrust Unicode.ascii [exchangeFill (705 / 1000)] now minN := by
  have headline : @HeadlineRow.trusted Unicode.ascii
      (@SettledRow.headlineRow Unicode.ascii (exchangeFill (705 / 1000))) = true := by
        decide +kernel
  have cell : @TrustRow.trusted Unicode.ascii (exchangeFill (705 / 1000)).trustRow = true := by
    decide +kernel
  have live : @SettledPickRow.sharpClose Unicode.ascii (exchangeFill (705 / 1000)).evidenceRow =
      false := by
    decide +kernel
  refine ⟨headline, cell, live, fun now minN agreed => ?_⟩
  have evidence := ((@OneTrust.evidence Unicode.ascii _ _ _ agreed _ List.mem_cons_self).mp cell).2
  rw [live] at evidence
  cases evidence

end SharpEvPicks.Clv
