import SharpEvPicks.Pipeline.Cells
import SharpEvPicks.Pipeline.Folding
import SharpEvPicks.Pipeline.Minted
import SharpEvPicks.Settlement.Gradeable

/-! Which minted picks the settler can grade. The drops of the candidate loop look at the detail and
the lines of a group, the settler at the pick alone. -/
namespace SharpEvPicks.Pipeline

open Python Edge Probabilities Settlement

section Rows
variable [UnicodeDigits] {c : Cycle} {key : MarketKey} {group : Group}

theorem retold_canonical (snapshots : List Snapshot) (a : Snapshot) :
    canonicalMarketDetail
      (retold snapshots a).marketDetail = (retold snapshots a).marketDetail := by
  obtain ⟨d, adoptable, told⟩ | ⟨-, told⟩ := retold_cases snapshots a
  · rw [told]
    obtain ⟨n, -, quotes⟩ := adoptable.quoted
    exact quotes.canonical
  · rw [told]
    exact canonical_idempotent a.marketDetail

/-- A row of the cycle under its name for the line. -/
structure ToldFrom (c : Cycle) (s a : Snapshot) : Prop where
  inside : a ∈ c.snapshots ++ c.sharp
  event : a.eventId = s.eventId
  market : a.market = s.market
  selection : a.selection = s.selection

theorem toldFrom_of_folded {s : Snapshot} (folded : s ∈ c.folded) :
    (∃ a, ToldFrom c s a) ∧ canonicalMarketDetail s.marketDetail = s.marketDetail := by
  rw [Cycle.folded, fold_eq] at folded
  obtain ⟨a, kept, rfl⟩ := List.mem_map.mp folded
  refine ⟨⟨a, (List.mem_filter.mp kept).1, ?_, ?_, ?_⟩, retold_canonical _ a⟩
  all_goals
    obtain ⟨d, -, told⟩ | ⟨-, told⟩ := retold_cases c.anchorSnapshots a
    · rw [told]
      rfl
    · rw [told]
      rfl

omit [UnicodeDigits] in
theorem row_of_selection [Unicode] {snapshots : List Snapshot} {selection : Str}
    (grouped : (groupMarketPrices snapshots).get? key = some group)
    (listed : selection ∈ group.prices.keys) :
    ∃ s ∈ snapshots, s.marketKey = key ∧ s.selection = selection := by
  obtain ⟨b, priced⟩ := tight_groupMarketPrices grouped selection listed
  rw [(holds_groupMarketPrices grouped selection b).price] at priced
  cases newest : newestOf snapshots (key, selection, b) with
  | none =>
    rw [newest] at priced
    cases priced
  | some s =>
    obtain ⟨inside, own, -⟩ := newestOf_some newest
    have parts : s.marketKey = key ∧ s.selection = selection ∧ s.bookmaker = b := by
      simpa [Snapshot.observation] using own
    exact ⟨s, inside, parts.1, parts.2.1⟩

end Rows

section Picks
variable [UnicodeDigits] [Numerics ℚ] {deps : Deps} {c : Cycle} {e : Evaluation}

/-- What a pick keeps of its group and of the row that its selection comes from. -/
structure Sourced (c : Cycle) (e : Evaluation) (group : Group) (a : Snapshot) : Prop where
  inside : a ∈ c.snapshots ++ c.sharp
  event : a.eventId = e.pick.eventId
  market : a.market = e.pick.market
  selection : a.selection = e.pick.selection
  sport : e.pick.sport = c.sportKey
  detail : e.pick.marketDetail = e.detail
  listed : e.pick.selection ∈ group.prices.keys
  settleable : isTennisGameLineGroup c.sportKey e.pick.market e.detail group.prices = false

theorem sourced_of_minted (inside : e ∈ minted deps c) : ∃ group a, Sourced c e group a := by
  obtain ⟨-, fairs, -, group, fair, v, age, tier, gated, origin⟩ := mem_minted.mp inside
  obtain ⟨-, selection, books, entry, found⟩ := mem_scanAgainstFair.mp origin.scanned
  obtain ⟨fairP, theoretical, fill, -, -, -, -, -, -, built⟩ := scanSelection_iff.mp found
  have own : e.pick.selection = selection := by
    rw [← origin.pick, ← built]
    rfl
  have listed : e.pick.selection ∈ group.prices.keys := by
    rw [own]
    exact List.mem_map_of_mem entry
  obtain ⟨s, folded, keyed, selected⟩ := row_of_selection origin.grouped listed
  obtain ⟨⟨a, from_⟩, canonical⟩ := toldFrom_of_folded folded
  have parts : s.eventId = e.pick.eventId ∧ s.market = e.pick.market ∧
      s.marketDetail = e.detail := by
    simpa [Snapshot.marketKey, Evaluation.key] using keyed
  have kept := origin.kept
  simp only [groupDropped, Bool.or_eq_false_iff] at kept
  refine ⟨group, a,
    { inside := from_.inside
      event := from_.event.trans parts.1
      market := from_.market.trans parts.2.1
      selection := from_.selection.trans selected
      sport := ?_
      detail := ?_
      listed := listed
      settleable := kept.1.1.2 }⟩
  · rw [← origin.pick]
    rfl
  · rw [parts.2.2] at canonical
    rw [← origin.pick]
    exact canonical

omit [Numerics ℚ] in
theorem Sourced.unguarded {group : Group} {a : Snapshot} (sourced : Sourced c e group a) :
    Unguarded e.pick.market e.pick.selection (some e.pick.sport) e.pick.marketDetail := by
  intro tennis
  have dropped := sourced.settleable
  rw [← sourced.sport, Option.some.inj tennis] at dropped
  rw [sourced.detail]
  unfold isTennisGameLineGroup at dropped
  unfold tennisSetScoreUngradeable
  have line (none_ : group.prices.keys.any (isTennisGameLine e.pick.market) = false) :
      isTennisGameLine e.pick.market e.pick.selection = false := by
    simpa using List.any_eq_false.mp none_ _ sourced.listed
  rw [if_neg (by decide)]
  cases market : e.pick.market with
  | totals =>
    rw [market] at dropped line
    simp only [decide_true, Bool.true_and, Bool.true_or, Bool.or_eq_false_iff] at dropped
    exact Bool.or_eq_false_iff.mpr ⟨by simpa using dropped.1.2, line dropped.2⟩
  | spreads =>
    rw [market] at dropped line
    simp only [decide_true, Bool.true_and, Bool.or_true, Bool.or_eq_false_iff] at dropped
    exact Bool.or_eq_false_iff.mpr ⟨by simpa using dropped.1.1, line dropped.2⟩
  | _ => rfl

/-- The rows of the cycle name the teams as the directory does. -/
def NamedCycle (deps : Deps) (c : Cycle) : Prop :=
  ∀ s ∈ c.snapshots ++ c.sharp, ∃ teams, deps.directory s.eventId = some teams ∧
    NamesTeams teams.home teams.away s.market s.selection

/-- The settler grades the pick from every score that can be reported. -/
def GradesPick (deps : Deps) (e : Evaluation) : Prop :=
  ∃ teams, deps.directory e.pick.eventId = some teams ∧
    Settles teams.home teams.away e.pick.market e.pick.selection (some e.pick.sport)
      e.pick.marketDetail

def GradeablePick (deps : Deps) (e : Evaluation) : Prop :=
  ∃ teams, deps.directory e.pick.eventId = some teams ∧
    Gradeable teams.home teams.away e.pick.market e.pick.selection

theorem gradesPick_iff (named : NamedCycle deps c) (inside : e ∈ minted deps c) :
    GradesPick deps e ↔ GradeablePick deps e := by
  obtain ⟨group, a, sourced⟩ := sourced_of_minted inside
  obtain ⟨teams, known, names⟩ := named a sourced.inside
  rw [sourced.event] at known
  rw [sourced.market, sourced.selection] at names
  have settles := settles_iff names sourced.unguarded
  constructor
  · rintro ⟨teams', known', graded⟩
    cases known.symm.trans known'
    exact ⟨teams, known, settles.mp graded⟩
  · rintro ⟨teams', known', fits⟩
    cases known.symm.trans known'
    exact ⟨teams, known, settles.mpr fits⟩

end Picks

/-- Teams whose names have no ASCII letter, so no normal form. -/
def hanTeams : Teams where
  home := "山东".toList
  away := "上海".toList
  league := "csl".toList

def hanDeps : Deps := { additiveDeps with directory := fun _ => some hanTeams }

theorem home_range : (1 : ℚ) < 2 ∧ 2 ≤ maxDecimalOdds := by norm_num [maxDecimalOdds]

theorem draw_range :
    (1 : ℚ) < 35 / 10 ∧ 35 / 10 ≤ maxDecimalOdds := by norm_num [maxDecimalOdds]

theorem away_range :
    (1 : ℚ) < 42 / 10 ∧ 42 / 10 ≤ maxDecimalOdds := by norm_num [maxDecimalOdds]

theorem double_range :
    (1 : ℚ) < 140 / 100 ∧ 140 / 100 ≤ maxDecimalOdds := by norm_num [maxDecimalOdds]

/-- A soft book above Pinnacle's fair value of the home team or the draw. -/
def hanCycle : Cycle :=
  soccerCycle
    [winnerPrice "Pinnacle" "山东" 2 home_range.1 home_range.2,
      winnerPrice "Pinnacle" "Draw" (35 / 10) draw_range.1 draw_range.2,
      winnerPrice "Pinnacle" "上海" (42 / 10) away_range.1 away_range.2,
      { winnerPrice "Bet365" "山东 or Draw" (140 / 100) double_range.1 double_range.2 with
        market := .doubleChance
        marketDetail := some "double_chance".toList }]

theorem hanCycle_ungraded :
    ((@minted Unicode.ascii Numerics.trivial hanDeps hanCycle).any fun e =>
      e.pick.eventId = "e1".toList ∧
        (@settleSelection Unicode.ascii e.pick.market e.pick.selection hanTeams.home
          hanTeams.away 1 0 (some e.pick.sport) e.pick.marketDetail).isOk = false) = true := by
  decide +kernel

theorem hanCycle_named : @NamedCycle UnicodeDigits.ascii hanDeps hanCycle := by
  intro s inside
  refine ⟨hanTeams, rfl, ?_⟩
  simp only [hanCycle, soccerCycle, List.append_nil, List.mem_cons, List.not_mem_nil,
    or_false] at inside
  obtain rfl | rfl | rfl | rfl := inside
  · exact @NamesTeams.winner Unicode.ascii _ _ _ (.inl rfl)
  · exact @NamesTeams.draw Unicode.ascii _ _
  · exact @NamesTeams.winner Unicode.ascii _ _ _ (.inr rfl)
  · exact @NamesTeams.doubleChance Unicode.ascii hanTeams.home hanTeams.away hanTeams.home
      "Draw".toList (by decide)

theorem hanCycle_settled :
    ∃ e ∈ @minted Unicode.ascii Numerics.trivial hanDeps hanCycle,
      @GradesPick UnicodeDigits.ascii hanDeps e ↔
        @GradeablePick UnicodeDigits.ascii hanDeps e := by
  obtain ⟨e, inside, -⟩ := List.any_eq_true.mp hanCycle_ungraded
  exact ⟨e, inside, @gradesPick_iff UnicodeDigits.ascii Numerics.trivial _ _ _
    hanCycle_named inside⟩

/-- A pick on a double chance that no score settles. -/
theorem gradesPick_fails :
    @NamedCycle UnicodeDigits.ascii hanDeps hanCycle ∧
      ¬ ∀ e ∈ @minted Unicode.ascii Numerics.trivial hanDeps hanCycle,
        @GradesPick UnicodeDigits.ascii hanDeps e := by
  refine ⟨hanCycle_named, fun graded => ?_⟩
  obtain ⟨e, inside, raised⟩ := List.any_eq_true.mp hanCycle_ungraded
  obtain ⟨teams, known, settles⟩ := graded e inside
  cases known
  have reported : Reportable (some e.pick.sport) 1 0 := ⟨by decide, le_rfl, fun _ => by decide⟩
  have settled := settles 1 0 reported
  rw [(of_decide_eq_true raised).2] at settled
  cases settled

end SharpEvPicks.Pipeline
