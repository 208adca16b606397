import SharpEvPicks.Pipeline.OnePremium

/-! A pick that is persisted twice, with nothing in between. -/
namespace SharpEvPicks.Storage

open Python Edge Pipeline Settlement

/-- The answers for which a pick has just been written. -/
def Written : Persisted → Prop
  | .inserted | .upgraded | .repriced _ => True
  | .duplicate | .duplicateDenied => False

/-- The row of a pick as its own detection left it. -/
structure LeftBy (numeric : Numeric) (picks : PickTable) (target : Target) (pick : PickOut)
    (row : PickRow) : Prop where
  found : picks.find (target.key pick) = some row
  detection : row.detection = pick.detection numeric
  live : row.status = .alerted
  tier : row.tier = pick.tier

section
variable [Unicode] {numeric : Numeric} {picks written : PickTable} {target : Target}
  {pick : PickOut} {now : Int} {persisted : Persisted}

/-- Whatever was written, an open row of the tier of the pick holds its numbers. -/
theorem exists_leftBy {keyed : picks.Keyed}
    (landing : Landing numeric picks keyed target pick now persisted written)
    (wrote : Written persisted) : ∃ row, LeftBy numeric written target pick row := by
  cases landing with
  | inserted absent =>
    refine ⟨pick.newRow numeric target pick.terms now picks.nextId, ?_, rfl, rfl, rfl⟩
    exact (picks.insertSlot keyed (target.key pick) absent pick.tier).find_fill _ rfl rfl
  | upgraded row inside own premium shadow live =>
    refine ⟨pick.promote numeric pick.terms now row, ?_, rfl, live, premium.symm⟩
    rw [← own]
    exact (upgradeSlot picks keyed row inside).find_fill _ rfl rfl
  | repriced row inside own staked premium held live moved =>
    refine ⟨pick.reprice numeric row, ?_, rfl, live, held.trans premium.symm⟩
    rw [← own]
    exact (repriceSlot picks keyed row inside).find_fill _ rfl rfl
  | denied | held => cases wrote

/-- What the next detection of the same pick takes for no move: a shadow pick, a stake of nothing,
or a price that the column holds as it is. -/
def Steady (numeric : Numeric) (pick : PickOut) : Prop :=
  pick.tier = .volume ∨ numeric.prob pick.recommendedStakeFraction ≤ 0 ∨
    numeric.odds pick.decimalOdds = pick.decimalOdds

/-- The pick is taken for known, and no column of any row changes. -/
def NoOp (numeric : Numeric) (picks : PickTable) (target : Target) (pick : PickOut) (now : Int) :
    Prop :=
  persistPick numeric picks target pick now = .ok (.duplicate, picks) ∨
    persistPick numeric picks target pick now = .ok (.duplicateDenied, picks)

theorem persistPick_bounded
    (found : persistPick numeric picks target pick now = .ok (persisted, written)) :
    checkPickIdentities pick = .ok () ∧ checkAnchorIdentity pick = .ok () := by
  unfold persistPick at found
  cases bounded : checkPickIdentities pick with
  | error e =>
    rw [bounded] at found
    cases found
  | ok _ =>
    cases anchored : checkAnchorIdentity pick with
    | error e =>
      rw [bounded, anchored] at found
      cases found
    | ok _ => exact ⟨rfl, rfl⟩

omit [Unicode] in
/-- How the next detection stands to the row that the last one left. -/
theorem standing_of_leftBy {row : PickRow} (left : LeftBy numeric picks target pick row) :
    picks.standing target pick =
      if numeric.prob pick.recommendedStakeFraction ≤ 0 then .denied row
      else if pick.tier = .premium ∧ numeric.odds pick.decimalOdds ≠ pick.decimalOdds then
        .repriceable row
      else .held row := by
  have upgrade : ¬ (pick.tier = .premium ∧ row.tier = .volume ∧ row.status = .alerted) := by
    rintro ⟨premium, shadow, -⟩
    rw [left.tier, premium] at shadow
    cases shadow
  have stake : row.detection.recommendedStakeFraction =
      numeric.prob pick.recommendedStakeFraction :=
    congrArg Detection.recommendedStakeFraction left.detection
  have moved : (pick.tier = .premium ∧ row.tier = .premium ∧ row.status = .alerted ∧
      (row.detection.decimalOdds ≠ pick.decimalOdds ∨
        row.detection.bookmaker ≠ pick.bookmaker)) ↔
        pick.tier = .premium ∧ numeric.odds pick.decimalOdds ≠ pick.decimalOdds := by
    rw [left.tier, left.detection]
    simp [left.live, PickOut.detection]
  unfold PickTable.standing
  simp only [left.found, if_neg upgrade, stake, moved]

theorem noOp_iff {row : PickRow} (bounded : checkPickIdentities pick = .ok ())
    (anchored : checkAnchorIdentity pick = .ok ()) (left : LeftBy numeric picks target pick row)
    (later : Int) :
    NoOp numeric picks target pick later ↔ Steady numeric pick := by
  have shadow : pick.tier = .volume ↔ ¬ pick.tier = .premium := by cases pick.tier <;> simp
  unfold NoOp Steady persistPick
  rw [bounded, anchored, settlementBasisTerms_pick, standing_of_leftBy left, shadow]
  by_cases denied : numeric.prob pick.recommendedStakeFraction ≤ 0
  · rw [if_pos denied]
    exact iff_of_true (.inr rfl) (.inr (.inl denied))
  · rw [if_neg denied]
    by_cases moved : pick.tier = .premium ∧ numeric.odds pick.decimalOdds ≠ pick.decimalOdds
    · rw [if_pos moved]
      refine iff_of_false ?_ ?_
      · rintro (same | same) <;> cases same
      · rintro (shadow | nothing | still)
        · exact shadow moved.1
        · exact denied nothing
        · exact moved.2 still
    · rw [if_neg moved]
      refine iff_of_true (.inl rfl) ?_
      rw [not_and_or, not_not] at moved
      exact moved.imp_right .inr

/-- A pick that was written is a duplicate at once, unless its price is off the scale of its column.
-/
theorem redetection_noOp_iff (keyed : picks.Keyed)
    (first : persistPick .postgres picks target pick now = .ok (persisted, written))
    (wrote : Written persisted) (later : Int) :
    NoOp .postgres written target pick later ↔ Steady .postgres pick := by
  obtain ⟨bounded, anchored⟩ := persistPick_bounded first
  obtain ⟨row, left⟩ := exists_leftBy (persistPick_landing _ keyed first) wrote
  exact noOp_iff bounded anchored left later

end

theorem drawFraction_nonneg : (0 : ℚ) ≤ 1 / 100 := by norm_num

theorem drawAmount_nonneg : (0 : ℚ) ≤ 10 := by norm_num

def drawPick (odds : ℚ) (gt : 1 < odds) : PickOut where
  market := .h2h
  selection := "Draw".toList
  bookmaker := "Bet365".toList
  decimalOdds := odds
  modelProbability := 3 / 10
  fairProbability := 3 / 10
  edge := 2 / 100
  ev := 5 / 100
  confidence := 3 / 10
  recommendedStakeFraction := 1 / 100
  recommendedStakeAmount := 10
  stakeBreakdown := { rawKelly := 4 / 100, fractional := 1 / 100, capped := false,
                      final := 1 / 100 }
  reasonSummary := []
  odds_gt := gt
  fraction_nonneg := drawFraction_nonneg
  amount_nonneg := drawAmount_nonneg

theorem seven_halves_gt : (1 : ℚ) < 7 / 2 := by norm_num

theorem fifth_decimal_gt : (1 : ℚ) < 350001 / 100000 := by norm_num

theorem redetection_noOp_draw :
    ∃ written, @persistPick Unicode.ascii .postgres emptyPicks ⟨7, 1⟩
      (drawPick (7 / 2) seven_halves_gt) 0 = .ok (.inserted, written) ∧
      @NoOp Unicode.ascii .postgres written ⟨7, 1⟩ (drawPick (7 / 2) seven_halves_gt) 0 := by
  refine ⟨_, rfl, ?_⟩
  refine (@redetection_noOp_iff Unicode.ascii _ _ _ _ _ _ sound_empty.keyed rfl
    (show Written .inserted from trivial) 0).mpr ?_
  right
  right
  decide +kernel

/-- A price with a fifth decimal is taken for a move of the price that was just stored. -/
theorem redetection_noOp_fails :
    ∃ written,
      @persistPick Unicode.ascii .postgres emptyPicks ⟨7, 1⟩
        (drawPick (350001 / 100000) fifth_decimal_gt) 0 = .ok (.inserted, written) ∧
      (@persistPick Unicode.ascii .postgres written
        ⟨7, 1⟩ (drawPick (350001 / 100000) fifth_decimal_gt) 0).toOption.map
        (fun again => (again.1, again.2.rows.map (·.basis.repriced))) = some
        (.repriced (1 / 100), [true]) := by
  refine ⟨_, rfl, ?_⟩
  decide +kernel

end SharpEvPicks.Storage
