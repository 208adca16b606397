import SharpEvPicks.Pipeline.StakeBounds
import SharpEvPicks.Python.Lookups
import SharpEvPicks.Python.Reordering
import SharpEvPicks.Python.Sorting

/-! The same-event haircut over the premium candidates of a cycle, between their sizing and their
ranking in `run_value_pipeline`. -/
namespace SharpEvPicks.Pipeline

open Python Risk Storage Transition

/-- An entry of `premium_candidates`. -/
structure PremiumCandidate where
  pick : PickOut
  breakdown : StakeBreakdown
  eventId : Str

def PremiumCandidate.staked (c : PremiumCandidate) : Bool := 0 < c.breakdown.final

section
variable (math : Math) (deps : PersistDeps)

/-- One pass of the loop over the candidates. -/
def PremiumCandidate.haircut (multipliers : Dict Str ℚ) (c : PremiumCandidate) :
    Except SizingError PremiumCandidate :=
  match multipliers.get? c.eventId with
  | none => .error .noMultiplier
  | some mult => do
    let cut ← (sameEventHaircut deps.bankroll deps.bankroll_pos mult c.pick c.breakdown).mapError
      .storage
    pure { c with pick := cut.1, breakdown := cut.2 }

def haircutCandidates (stakeSameEventRho : ℚ) (premiumCandidates : List PremiumCandidate) :
    Except SizingError (List PremiumCandidate) :=
  if 0 < stakeSameEventRho ∧ premiumCandidates ≠ [] then do
    let multipliers ← (sameEventStakeMultipliers math
      ((premiumCandidates.filter PremiumCandidate.staked).map PremiumCandidate.eventId)
        stakeSameEventRho).mapError .staking
    premiumCandidates.mapM (PremiumCandidate.haircut deps multipliers)
  else .ok premiumCandidates

end

/-- The order in which the candidates are funded. -/
def byRawKelly (premiumCandidates : List PremiumCandidate) : List PremiumCandidate :=
  sortedBy (fun c => OrderDual.toDual c.breakdown.rawKelly) premiumCandidates

/-! The multipliers of a batch. -/

theorem foldl_increment {α : Type*} (l : List α) (n : Int) :
    l.foldl (fun (total : Option Int) _ => some (total.getD 0 + 1)) (some n) = some
      (n + l.length) := by
  induction l generalizing n with
  | nil => simp
  | cons x l ih =>
    rw [List.foldl_cons, ih, Option.getD_some, List.length_cons]
    push_cast
    congr 1
    ring

/-- `Counter(event_ids)`. -/
theorem get?_counter (eventIds : List Str) (eventId : Str) :
    (eventIds.foldl (fun counts e => counts.modify e fun n => n.getD 0 + 1)
        (Dict.empty : Dict Str Int)).get? eventId =
      if eventId ∈ eventIds then some (eventIds.count eventId : Int) else none := by
  refine (Dict.get?_foldl_modify id (fun (n : Option Int) (_ : Str) =>
    n.getD 0 + 1) eventIds Dict.empty eventId).trans ?_
  rw [Dict.get?_empty]
  have own : eventIds.count eventId = (eventIds.filter fun e => id e = eventId).length := by
    rw [List.count_eq_length_filter]
    exact congrArg List.length (List.filter_congr fun e _ => by simp [beq_eq_decide])
  rw [own]
  cases legs : eventIds.filter fun e => id e = eventId with
  | nil =>
    have absent : eventId ∉ eventIds := fun inside =>
      List.filter_eq_nil_iff.mp legs eventId inside (decide_eq_true rfl)
    rw [if_neg absent]
    rfl
  | cons e rest =>
    have listed : e ∈ eventIds.filter fun e => id e = eventId := legs ▸ List.mem_cons_self
    obtain ⟨inside, same⟩ := List.mem_filter.mp listed
    have here : e = eventId := of_decide_eq_true same
    rw [if_pos (here ▸ inside), List.foldl_cons, foldl_increment, List.length_cons,
      Option.getD_none]
    push_cast
    congr 1
    ring

section
variable {math : Math} {rho : ℚ}

/-- The haircut of an event of `n` staked legs. -/
def legFactor (math : Math) (rho : ℚ) (n : Int) : ℚ := 1 / math.sqrt (1 + (n - 1) * rho)

theorem correlationHaircut_eq (unit : math.sqrt 1 = 1) (low : 0 < rho) (high : rho < 1) {n : Int}
    (some_ : 1 ≤ n) : correlationHaircut math n rho = .ok (legFactor math rho n) := by
  rw [correlationHaircut, if_neg (not_lt.mpr some_), if_neg (not_not.mpr ⟨low.le, high⟩)]
  by_cases one : n = 1
  · subst one
    simp [legFactor, unit]
  · rw [if_neg (not_or.mpr ⟨one, low.ne'⟩), legFactor]

theorem legFactor_le_one (low : 0 < rho) {n : Int} (some_ : 1 ≤ n) :
    0 < legFactor math rho n ∧ legFactor math rho n ≤ 1 := by
  have more : (0 : ℚ) ≤ n - 1 := by
    have one : (1 : ℚ) ≤ n := by exact_mod_cast some_
    linarith
  have root := math.one_le_sqrt (1 + (n - 1) * rho) (by linarith [mul_nonneg more low.le])
  exact ⟨by unfold legFactor; positivity, (div_le_one (by linarith)).mpr root⟩

theorem sameEventStakeMultipliers_eq (unit : math.sqrt 1 = 1) (low : 0 < rho) (high : rho < 1)
    (eventIds : List Str) :
    ∃ multipliers, sameEventStakeMultipliers math eventIds rho = .ok multipliers ∧
      ∀ eventId, multipliers.get? eventId =
        if eventId ∈ eventIds then some (legFactor math rho (eventIds.count eventId))
          else none := by
  have counter := get?_counter eventIds
  unfold sameEventStakeMultipliers
  generalize eventIds.foldl (fun counts eventId => counts.modify eventId fun n => n.getD 0 + 1)
    (Dict.empty : Dict Str Int) = counts at counter ⊢
  have entry : ∀ e ∈ counts.entries, e.1 ∈ eventIds ∧ e.2 = (eventIds.count e.1 : Int) := by
    intro e inside
    have found := counter e.1
    rw [Dict.get?_eq_some_iff.mpr inside] at found
    split at found
    · exact ⟨by assumption, Option.some.inj found⟩
    · cases found
  have cuts : counts.entries.mapM (fun e => (correlationHaircut math e.2 rho).map (Prod.mk e.1)) =
      .ok (counts.entries.map fun e => (e.1, legFactor math rho (eventIds.count e.1))) := by
    refine mapM_ok fun e inside => ?_
    obtain ⟨listed, same⟩ := entry e inside
    have some_ : (1 : Int) ≤ eventIds.count e.1 := by exact_mod_cast List.count_pos_iff.mpr listed
    rw [same, correlationHaircut_eq unit low high some_]
    rfl
  refine ⟨_, bind_ok.mpr ⟨_, cuts, rfl⟩, fun eventId => ?_⟩
  have keys : eventId ∈ counts.entries.map Prod.fst ↔ eventId ∈ eventIds := by
    change eventId ∈ counts.keys ↔ _
    rw [Dict.mem_keys_iff, counter eventId]
    split <;> simp [*]
  rw [Dict.get?_comprehension Prod.fst fun e => legFactor math rho (eventIds.count e)]
  simp only [keys]

end

/-! The step. -/

section
variable {math : Math} {deps : PersistDeps} {rho : ℚ} {premiumCandidates : List PremiumCandidate}

/-- The legs of an event that have a stake. -/
def legsOf (premiumCandidates : List PremiumCandidate) (eventId : Str) : Nat :=
  premiumCandidates.countP fun c => c.staked ∧ c.eventId = eventId

theorem legsOf_eq (eventId : Str) :
    ((premiumCandidates.filter PremiumCandidate.staked).map PremiumCandidate.eventId).count
      eventId = legsOf premiumCandidates eventId := by
  rw [List.count, List.countP_map, List.countP_filter, legsOf]
  congr 1
  funext c
  simp [Bool.and_comm, beq_eq_decide]

/-- Some leg of the event has a stake. -/
def Funded (premiumCandidates : List PremiumCandidate) (eventId : Str) : Prop :=
  ∃ c ∈ premiumCandidates, c.eventId = eventId ∧ 0 < c.breakdown.final

theorem legsOf_pos {eventId : Str} : 0 < legsOf premiumCandidates eventId ↔
    Funded premiumCandidates eventId := by
  rw [legsOf, List.countP_pos_iff]
  simp only [PremiumCandidate.staked, decide_eq_true_eq, and_comm, Funded]

/-- What the step does to a candidate with `legs` staked legs on its event. -/
structure Cut (math : Math) (rho : ℚ) (legs : Nat) (c c' : PremiumCandidate) : Prop where
  eventId : c'.eventId = c.eventId
  rawKelly : c'.breakdown.rawKelly = c.breakdown.rawKelly
  idle : c.breakdown.final = 0 → c' = c
  scaled : 0 < c.breakdown.final →
    c'.breakdown.final = c.breakdown.final * legFactor math rho legs
  shrinks : c'.breakdown.final ≤ c.breakdown.final
  shown : c.pick.recommendedStakeFraction = c.breakdown.final →
    c'.pick.recommendedStakeFraction = c'.breakdown.final

/-- The step completes, cuts each candidate where it stands, and the ranking that follows is as
before. -/
def Completes (math : Math) (deps : PersistDeps) (rho : ℚ)
    (premiumCandidates : List PremiumCandidate) : Prop :=
  ∃ cut, haircutCandidates math deps rho premiumCandidates = .ok (premiumCandidates.map cut) ∧
    (∀ c ∈ premiumCandidates, Cut math rho (legsOf premiumCandidates c.eventId) c (cut c)) ∧
    byRawKelly (premiumCandidates.map cut) = (byRawKelly premiumCandidates).map cut

theorem sameEventHaircut_cut {bankroll : ℚ} (bankroll_pos : 0 < bankroll) {mult : ℚ}
    (pick : PickOut) {breakdown : StakeBreakdown} (cuts : mult < 1 ∧ 0 < breakdown.final)
    (nonneg : 0 ≤ breakdown.final * mult) :
    ∃ cut, sameEventHaircut bankroll bankroll_pos mult pick breakdown =
        .ok (cut, { breakdown with final := breakdown.final * mult }) ∧
      cut.recommendedStakeFraction = breakdown.final * mult := by
  rw [sameEventHaircut, if_pos cuts, dif_pos nonneg]
  exact ⟨_, rfl, rfl⟩

/-- One pass, where the event has a multiplier. -/
theorem haircut_ok (low : 0 < rho) {multipliers : Dict Str ℚ} {c : PremiumCandidate}
    {legs : Nat} (some_ : 0 < legs)
    (found : multipliers.get? c.eventId = some (legFactor math rho legs))
    (nonneg : 0 ≤ c.breakdown.final) :
      ∃ c', c.haircut deps multipliers = .ok c' ∧ Cut math rho legs c c' := by
  obtain ⟨positive, le_one⟩ : 0 < legFactor math rho legs ∧ legFactor math rho legs ≤ 1 :=
    legFactor_le_one low (by exact_mod_cast some_ : (1 : Int) ≤ legs)
  rw [PremiumCandidate.haircut, found]
  by_cases cuts : legFactor math rho legs < 1 ∧ 0 < c.breakdown.final
  · have product : 0 ≤ c.breakdown.final * legFactor math rho legs :=
      mul_nonneg nonneg positive.le
    obtain ⟨pick, done, shown⟩ := sameEventHaircut_cut deps.bankroll_pos c.pick cuts product
    refine ⟨_, bind_ok.mpr ⟨_, congrArg (Except.mapError SizingError.storage) done, rfl⟩, rfl,
        rfl, fun zero => absurd zero cuts.2.ne', fun _ => rfl, mul_le_of_le_one_right nonneg le_one,
        fun _ => shown⟩
  · refine ⟨c, bind_ok.mpr ⟨(c.pick, c.breakdown), ?_, rfl⟩, rfl, rfl, fun _ => rfl,
      fun staked => ?_, le_refl _, id⟩
    · rw [sameEventHaircut, if_neg cuts]
      rfl
    · have unit : legFactor math rho legs = 1 :=
        le_antisymm le_one (not_lt.mp fun less => cuts ⟨less, staked⟩)
      rw [unit, mul_one]

theorem byRawKelly_map {cut : PremiumCandidate → PremiumCandidate}
    (same : ∀ c ∈ premiumCandidates, (cut c).breakdown.rawKelly = c.breakdown.rawKelly) :
    byRawKelly (premiumCandidates.map cut) = (byRawKelly premiumCandidates).map cut := by
  unfold byRawKelly sortedBy
  refine (List.map_insertionSort _ _ _ _ fun a first b second => ?_).symm
  simp only [same a first, same b second]

theorem haircut_completes_iff (unit : math.sqrt 1 = 1) (low : 0 < rho) (high : rho < 1)
    (nonneg : ∀ c ∈ premiumCandidates, 0 ≤ c.breakdown.final) :
    Completes math deps rho premiumCandidates ↔
      ∀ c ∈ premiumCandidates, Funded premiumCandidates c.eventId := by
  obtain ⟨multipliers, batch, found⟩ := sameEventStakeMultipliers_eq unit low high
    ((premiumCandidates.filter PremiumCandidate.staked).map PremiumCandidate.eventId)
  have step (some_ : premiumCandidates ≠ []) : haircutCandidates math deps rho premiumCandidates =
      premiumCandidates.mapM (PremiumCandidate.haircut deps multipliers) := by
    rw [haircutCandidates, if_pos ⟨low, some_⟩, batch]
    rfl
  have factor (eventId : Str) : multipliers.get? eventId =
      if 0 < legsOf premiumCandidates eventId then
        some (legFactor math rho (legsOf premiumCandidates eventId))
      else none := by
    simp only [found, ← legsOf_eq, List.count_pos_iff]
  constructor
  · rintro ⟨cut, done, -, -⟩ c inside
    rw [step (List.ne_nil_of_mem inside)] at done
    obtain ⟨c', own⟩ := ok_of_mapM done c inside
    by_contra unfunded
    rw [PremiumCandidate.haircut, factor, if_neg (legsOf_pos.not.mpr unfunded)] at own
    cases own
  · intro funded
    have each : ∀ c, ∃ c', c ∈ premiumCandidates → c.haircut deps multipliers = .ok c' ∧
        Cut math rho (legsOf premiumCandidates c.eventId) c c' := by
      intro c
      by_cases inside : c ∈ premiumCandidates
      · have some_ := legsOf_pos.mpr (funded c inside)
        have found : multipliers.get? c.eventId =
            some (legFactor math rho (legsOf premiumCandidates c.eventId)) := by
          rw [factor, if_pos some_]
        obtain ⟨c', done, cut⟩ : ∃ c', c.haircut deps multipliers = .ok c' ∧
            Cut math rho (legsOf premiumCandidates c.eventId) c c' :=
          haircut_ok low some_ found (nonneg c inside)
        exact ⟨c', fun _ => ⟨done, cut⟩⟩
      · exact ⟨c, fun listed => absurd listed inside⟩
    choose cut cuts using each
    refine ⟨cut, ?_, fun c inside => (cuts c inside).2,
      byRawKelly_map fun c inside => (cuts c inside).2.rawKelly⟩
    by_cases some_ : premiumCandidates = []
    · subst some_
      rw [haircutCandidates, if_neg (fun both => both.2 rfl)]
      rfl
    · rw [step some_]
      exact mapM_ok fun c inside => (cuts c inside).1

end

/-! A pick of the cell whose evidence is empty has no stake. -/

def idleSizing : Sizing :=
  { arsenalSizing (50 / 100) (21 / 10) "Bet365".toList with
    eventId := "e2".toList
    nEff := some 0 }

/-- A candidate of Arsenal's event. -/
def arsenalLeg (final : ℚ) : PremiumCandidate where
  pick := rowPick 0 noStake
  breakdown := { rawKelly := 8 / 100, fractional := 2 / 100, capped := false, final := final }
  eventId := "e1".toList

theorem haircut_completes_arsenal :
    Completes squares exactDeps (9 / 16)
      [arsenalLeg (2 / 100), arsenalLeg 0, arsenalLeg (1 / 100)] := by
  have funded : Funded [arsenalLeg (2 / 100), arsenalLeg 0, arsenalLeg (1 / 100)] "e1".toList :=
    ⟨arsenalLeg (2 / 100), List.mem_cons_self, rfl, by norm_num [arsenalLeg]⟩
  refine (haircut_completes_iff (by decide +kernel) (by norm_num) (by norm_num) ?_).mpr ?_
  · simp only [List.forall_mem_cons, arsenalLeg]
    norm_num
  · intro c inside
    have own : c.eventId = "e1".toList := by
      obtain rfl | rfl | rfl := by
        simpa only [List.mem_cons, List.not_mem_nil, or_false] using inside
      all_goals rfl
    rw [own]
    exact funded

/-- The pick is minted without a stake, its event has no multiplier, and the step raises. -/
theorem haircut_completes_fails :
    ((idleSizing.mint squares {} exactDeps).map fun minted => minted.2.final) = .ok 0 ∧
      ((idleSizing.mint squares {} exactDeps).bind fun minted =>
        (haircutCandidates squares exactDeps (9 / 16)
          [arsenalLeg (2 / 100), ⟨minted.1, minted.2, idleSizing.eventId⟩]).map fun _ => ()) =
        .error .noMultiplier := by
  decide +kernel

end SharpEvPicks.Pipeline
