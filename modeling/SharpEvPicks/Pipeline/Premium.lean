import SharpEvPicks.Pipeline.Minted

/-! Which candidates of a cycle become premium, and what the audit row says of those that do not.
Eleven gates act in turn on one tier; each step keeps `Honest`. -/
namespace SharpEvPicks.Pipeline

open Python Edge Probabilities

/-- The slugs that stand for a demotion. -/
def AuditReason.isDemotion : AuditReason → Bool
  | .marketFloor | .premiumFloorShadowDnb => false
  | _ => true

/-- The audit row of a candidate that was premium by its edge says how it ended. -/
inductive Honest : Gated → Prop
  | kept (steam : Str) (shadow : steamMark.isPrefixOf steam = false) :
      Honest ⟨.premium, { steam := steam }⟩
  | demoted (notes : Notes) (slugs : notes.auditReasons ≠ [])
      (demotions : ∀ reason ∈ notes.auditReasons, reason.isDemotion) :
        Honest ⟨.volume, notes⟩

/-- Before the steam gate no steam note is written. -/
def Gated.Unsteamed (g : Gated) : Prop := g.notes.steam = []

/-- On a candidate without notes the gate leaves demotion slugs and no steam note. -/
structure Gate.Marks (gate : Gate) : Prop where
  demotes : ∀ steam, steamMark.isPrefixOf steam = false →
    Honest ⟨.volume, gate.note { steam := steam }⟩
  steam : ∀ n, (gate.note n).steam = n.steam

theorem Honest.of_slug {notes : Notes} {reason : AuditReason} (slug : notes.auditReasons = [reason])
    (demotion : reason.isDemotion) : Honest ⟨.volume, notes⟩ := by
  apply Honest.demoted
  · rw [slug]
    exact List.cons_ne_nil _ _
  · intro other inside
    rw [slug, List.mem_singleton] at inside
    rw [inside]
    exact demotion

theorem Gated.pass_premium_iff (g : Gated) (gate : Gate) :
    (g.pass gate).tier = .premium ↔ g.tier = .premium ∧ gate.trips = false := by
  unfold Gated.pass
  cases gate.trips <;> split <;> simp_all

theorem foldl_pass_premium_iff (gates : List Gate) (g : Gated) :
    (gates.foldl Gated.pass g).tier = .premium ↔
      g.tier = .premium ∧ ∀ gate ∈ gates, gate.trips = false := by
  induction gates generalizing g with
  | nil => simp
  | cons gate gates ih =>
    rw [List.foldl_cons, ih, Gated.pass_premium_iff, List.forall_mem_cons, and_assoc]

theorem Honest.pass {g : Gated} (honest : Honest g) {gate : Gate} (marks : gate.Marks) :
    Honest (g.pass gate) := by
  unfold Gated.pass
  split
  · rename_i tripped
    cases honest with
    | kept steam shadow => exact marks.demotes steam shadow
    | demoted notes slugs demotions => cases tripped.1
  · exact honest

theorem Gated.Unsteamed.pass {g : Gated} (unsteamed : g.Unsteamed) {gate : Gate}
    (marks : gate.Marks) : (g.pass gate).Unsteamed := by
  unfold Gated.pass
  split
  · exact (marks.steam g.notes).trans unsteamed
  · exact unsteamed

theorem foldl_pass_honest {gates : List Gate} (marks : ∀ gate ∈ gates, gate.Marks) {g : Gated}
    (honest : Honest g) (unsteamed : g.Unsteamed) :
    Honest (gates.foldl Gated.pass g) ∧ (gates.foldl Gated.pass g).Unsteamed := by
  induction gates generalizing g with
  | nil => exact ⟨honest, unsteamed⟩
  | cons gate gates ih =>
    obtain ⟨mark, marks⟩ := List.forall_mem_cons.mp marks
    exact ih marks (honest.pass mark) (unsteamed.pass mark)

theorem steamDemoted_start (reasons : List Str) :
    steamMark.isPrefixOf (steamDemoted reasons) = true :=
  List.isPrefixOf_iff_prefix.mpr (List.prefix_append _ _)

theorem steamShadowed_start (reasons : List Str) :
    steamMark.isPrefixOf (steamShadowed reasons) = false := by
  have shorter : steamMark.length ≤ steamShadowMark.length := by decide +kernel
  have apart : ¬ steamMark <+: steamShadowMark := by decide +kernel
  rw [← Bool.not_eq_true, List.isPrefixOf_iff_prefix]
  intro start
  exact apart (List.prefix_of_prefix_length_le start (List.prefix_append _ _) shorter)

theorem steamMark_empty : steamMark.isPrefixOf [] = false := by decide +kernel

theorem Gated.passSteam_premium_iff (g : Gated) (enforced : Bool) (verdict : Option SteamVerdict) :
    (g.passSteam enforced verdict).tier = .premium ↔
      g.tier = .premium ∧ (enforced && verdict.any SteamVerdict.tripped) = false := by
  cases verdict with
  | none => simp [Gated.passSteam]
  | some v =>
    cases tripped : v.tripped <;> cases enforced <;> cases tier : g.tier <;>
      simp [Gated.passSteam, tripped, tier]

theorem Honest.passSteam {g : Gated} (honest : Honest g) (unsteamed : g.Unsteamed) (enforced : Bool)
    (verdict : Option SteamVerdict) : Honest (g.passSteam enforced verdict) := by
  unfold Gated.passSteam
  split
  · exact honest
  · rename_i v
    split
    · exact honest
    · split
      · rename_i demoted
        cases honest with
        | kept steam shadow =>
          apply Honest.of_slug
          · simp only [Notes.auditReasons, steamDemoted_start]
            rfl
          · rfl
        | demoted notes slugs demotions => cases demoted.2
      · cases honest with
        | kept steam shadow => exact .kept _ (steamShadowed_start _)
        | demoted notes slugs demotions =>
          have blank : notes.steam = [] := unsteamed
          have same : ({ notes with steam := steamShadowed v.reasons } : Notes).auditReasons =
              notes.auditReasons := by
            simp only [Notes.auditReasons, steamShadowed_start, blank, steamMark_empty]
          exact .demoted _ (by rwa [same]) (by rwa [same])

theorem Gate.marks_of_slug {gate : Gate} (reason : AuditReason)
    (slug : ∀ steam, steamMark.isPrefixOf steam = false →
      (gate.note { steam := steam }).auditReasons = [reason])
    (demotion : reason.isDemotion) (steam : ∀ n, (gate.note n).steam = n.steam) : gate.Marks :=
  ⟨fun text shadow => .of_slug (slug text shadow) demotion, steam⟩

section Chain
variable [Unicode] (deps : Deps) (c : Cycle) (miss : Dict MarketKey SharpMiss) (key : MarketKey)
  (anchorBook : Str) (v : ValueBet) (premiumFloor : ℚ) (hours : Option ℚ)

theorem earlyGates_mark : ∀ gate ∈ earlyGates deps c key v hours, gate.Marks := by
  intro gate inside
  simp only [earlyGates, List.mem_cons, List.not_mem_nil, or_false] at inside
  rcases inside with rfl | rfl | rfl | rfl | rfl | rfl
  · apply Gate.marks_of_slug .visibilityOnly _ rfl fun _ => rfl
    intro steam shadow
    simp only [visibilityGate, Notes.auditReasons, shadow]
    rfl
  · apply Gate.marks_of_slug .oddsCeiling _ rfl fun _ => rfl
    intro steam shadow
    simp only [moneylineGate, Notes.auditReasons, shadow]
    rfl
  · apply Gate.marks_of_slug .drawSelectionDemotion _ rfl fun _ => rfl
    intro steam shadow
    simp only [drawGate, Notes.auditReasons, shadow]
    rfl
  · apply Gate.marks_of_slug .shotsTotalsVeto _ rfl fun _ => rfl
    intro steam shadow
    simp only [shotsGate, Notes.auditReasons, shadow]
    rfl
  · apply Gate.marks_of_slug .premiumMintTooEarly _ rfl fun _ => rfl
    intro steam shadow
    simp only [timingGate, Notes.auditReasons, shadow]
    rfl
  · apply Gate.marks_of_slug .nonMajorLeague _ rfl fun _ => rfl
    intro steam shadow
    simp only [majorGate, Notes.auditReasons, shadow]
    rfl

theorem sharpGate_marks : (sharpGate deps miss key anchorBook).Marks := by
  refine ⟨?_, fun _ => rfl⟩
  intro steam shadow
  have slugs : ((sharpGate deps miss key anchorBook).note { steam := steam }).auditReasons =
      [.noSharpAnchor, .noSharpAnchorFor ((miss.get? key).getD .noFullMarket)] := by
    simp only [sharpGate, Notes.auditReasons, shadow]
    rfl
  apply Honest.demoted
  · rw [slugs]
    exact List.cons_ne_nil _ _
  · rw [slugs]
    simp [AuditReason.isDemotion]

theorem lateGates_mark : ∀ gate ∈ lateGates deps c miss key anchorBook v, gate.Marks := by
  intro gate inside
  simp only [lateGates, List.mem_cons, List.not_mem_nil, or_false] at inside
  rcases inside with rfl | rfl | rfl
  · exact sharpGate_marks deps miss key anchorBook
  · apply Gate.marks_of_slug .experimentalSport _ rfl fun _ => rfl
    intro steam shadow
    simp only [experimentalGate, Notes.auditReasons, shadow]
    rfl
  · apply Gate.marks_of_slug .mlFilter _ rfl fun _ => rfl
    intro steam shadow
    simp only [mlGate, Notes.auditReasons, shadow]
    rfl

theorem sanityGate_marks : (sanityGate deps v premiumFloor).Marks := by
  apply Gate.marks_of_slug .structuralSanity _ rfl fun _ => rfl
  intro steam shadow
  simp only [sanityGate, Notes.auditReasons, shadow]
  rfl

structure Ungated : Prop where
  visibility : (visibilityGate deps c key).trips = false
  moneyline : (moneylineGate deps key v).trips = false
  draw : (drawGate deps c key v).trips = false
  shots : (shotsGate deps c key v).trips = false
  timing : (timingGate deps hours).trips = false
  major : (majorGate deps key).trips = false
  sharp : (sharpGate deps miss key anchorBook).trips = false
  experimental : (experimentalGate deps c).trips = false
  ml : (mlGate deps key v).trips = false
  steam : (steamEnforced deps && (steamVerdict deps key anchorBook v).any SteamVerdict.tripped) =
    false
  sanity : (sanityGate deps v premiumFloor).trips = false

theorem Gated.mark_tier (g : Gated) :
    (g.mark deps c key anchorBook v premiumFloor).tier = g.tier := by
  unfold Gated.mark
  split <;> rfl

theorem Gated.mark_of_floor (g : Gated) (floor : premiumFloor ≤ v.edge) :
    g.mark deps c key anchorBook v premiumFloor = g := by
  unfold Gated.mark
  rw [if_neg]
  rintro ⟨-, -, -, cohort, -⟩
  simp only [premiumFloorShadowDnb, Bool.and_eq_true, decide_eq_true_eq] at cohort
  exact absurd floor (not_le.mpr cohort.2)

theorem demotionChain_some (tier : Tier) {gated : Gated} :
    demotionChain deps c miss key anchorBook v premiumFloor tier hours = some gated ↔
      ¬ (((earlyGates deps c key v hours).foldl Gated.pass
            ⟨tier, floorNote deps v premiumFloor tier⟩).tier = .premium ∧
          (sharpGate deps miss key anchorBook).trips ∧
          c.sportKey ∈ deps.valuePolicy.sharpAnchorOnlySports) ∧
        (((((lateGates deps c miss key anchorBook v).foldl Gated.pass
              ((earlyGates deps c key v hours).foldl Gated.pass
                ⟨tier, floorNote deps v premiumFloor tier⟩)).passSteam (steamEnforced deps)
              (steamVerdict deps key anchorBook v)).pass (sanityGate deps v premiumFloor)).mark deps
              c
            key anchorBook v premiumFloor) = gated := by
  unfold demotionChain
  rw [Option.ite_none_left_eq_some, Option.some.injEq]

theorem demotionChain_premium_iff (tier : Tier) :
    (∃ gated, demotionChain deps c miss key anchorBook v premiumFloor tier hours = some gated ∧
        gated.tier = .premium) ↔
      tier = .premium ∧ Ungated deps c miss key anchorBook v premiumFloor hours := by
  have early : ((earlyGates deps c key v hours).foldl Gated.pass
      ⟨tier, floorNote deps v premiumFloor tier⟩).tier = .premium ↔ _ :=
      foldl_pass_premium_iff _ _
  simp only [earlyGates, List.forall_mem_cons, List.not_mem_nil, false_imp_iff, implies_true,
    and_true] at early
  constructor
  · rintro ⟨gated, chained, premium⟩
    obtain ⟨-, rfl⟩ :=
      (demotionChain_some deps c miss key anchorBook v premiumFloor hours tier).mp chained
    rw [Gated.mark_tier, Gated.pass_premium_iff, Gated.passSteam_premium_iff,
      foldl_pass_premium_iff] at premium
    obtain ⟨⟨⟨started, late⟩, steam⟩, sanity⟩ := premium
    obtain ⟨start, visibility, moneyline, draw, shots, timing, major⟩ := early.mp started
    simp only [lateGates, List.forall_mem_cons] at late
    exact ⟨start, visibility, moneyline, draw, shots, timing, major, late.1, late.2.1, late.2.2.1,
      steam, sanity⟩
  · rintro ⟨start, clean⟩
    have started := early.mpr ⟨start, clean.visibility, clean.moneyline, clean.draw, clean.shots,
      clean.timing, clean.major⟩
    refine ⟨_, (demotionChain_some deps c miss key anchorBook v premiumFloor hours tier).mpr
      ⟨by simp [clean.sharp], rfl⟩, ?_⟩
    rw [Gated.mark_tier, Gated.pass_premium_iff, Gated.passSteam_premium_iff,
      foldl_pass_premium_iff]
    refine ⟨⟨⟨started, ?_⟩, clean.steam⟩, clean.sanity⟩
    simp [lateGates, clean.sharp, clean.experimental, clean.ml]

/-- A candidate above its premium floor leaves the chain with an honest audit row. -/
theorem demotionChain_honest (floor : premiumFloor ≤ v.edge) {gated : Gated}
    (chained : demotionChain deps c miss key anchorBook v premiumFloor .premium hours =
      some gated) :
    Honest gated := by
  have start : Honest ⟨.premium, floorNote deps v premiumFloor .premium⟩ :=
    .kept [] steamMark_empty
  obtain ⟨early, unsteamed⟩ := foldl_pass_honest (earlyGates_mark deps c key v hours) start rfl
  obtain ⟨late, unsteamed⟩ :=
    foldl_pass_honest (lateGates_mark deps c miss key anchorBook v) early unsteamed
  obtain ⟨-, rfl⟩ :=
    (demotionChain_some deps c miss key anchorBook v premiumFloor hours .premium).mp chained
  rw [Gated.mark_of_floor deps c key anchorBook v premiumFloor _ floor]
  exact (late.passSteam unsteamed _ _).pass (sanityGate_marks deps v premiumFloor)

end Chain

section Picks
variable [Unicode] {deps : Deps} {c : Cycle}

structure Mintable (deps : Deps) (c : Cycle) (key : MarketKey) (prices : Prices) : Prop where
  kickoff : ∃ t, c.kickoffs.of key.1 = some t ∧ c.now < t
  settleable : isSettleableMarketDetail key.2.2
  gameLine : isTennisGameLineGroup c.sportKey key.2.1 key.2.2 prices = false
  integerLine : isIntegerLineTotalsGroup key.2.1 key.2.2 prices = false
  books : minBooksFor deps.valuePolicy key.2.1 key.2.2 ≤ distinctBookCount prices sharpBooks

theorem groupDropped_iff {key : MarketKey} {prices : Prices} :
    groupDropped deps c key prices = false ↔ Mintable deps c key prices := by
  obtain ⟨eventId, market, detail⟩ := key
  simp only [groupDropped, Bool.or_eq_false_iff, decide_eq_false_iff_not, not_lt,
    Bool.not_eq_false']
  constructor
  · rintro ⟨⟨⟨⟨kickoff, settleable⟩, gameLine⟩, integerLine⟩, books⟩
    refine ⟨?_, settleable, gameLine, integerLine, books⟩
    cases known : c.kickoffs.of eventId with
    | none => simp [known] at kickoff
    | some t => exact ⟨t, rfl, by simpa [known] using kickoff⟩
  · rintro ⟨⟨t, known, future⟩, settleable, gameLine, integerLine, books⟩
    exact ⟨⟨⟨⟨by simpa [known] using future, settleable⟩, gameLine⟩, integerLine⟩,
      books⟩

omit [Unicode] in
theorem pickTier_premium_iff {edge premiumMinEdge : ℚ} (volumeMinEdge : ℚ) :
    pickTier edge premiumMinEdge volumeMinEdge = some .premium ↔ premiumMinEdge ≤ edge := by
  unfold pickTier
  split
  · simp [*]
  · split <;> simp [*]

/-- A candidate of the loop that nothing keeps from premium. -/
structure Qualified (deps : Deps) (c : Cycle) (fairs : Fairs) (key : MarketKey) (group : Group)
    (fair : Dict Str ℚ) (v : ValueBet) (age : ℚ) : Prop where
  grouped : (groupMarketPrices c.folded).get? key = some group
  mintable : Mintable deps c key group.prices
  anchored : fairs.fair.get? key = some (v.sharpBook, fair)
  scanned : v ∈ findValueBetsWithFair group.prices fair v.sharpBook (scanOptions deps key)
  survives : Survives deps c (timesOf deps c key) key v age
  floor : floorOf deps key ≤ v.edge
  ungated : Ungated deps c fairs.miss key v.sharpBook v (floorOf deps key) (hoursOf c key)

variable [Numerics ℚ]

/-- The candidates that the loop defers to the staking and alerting part of the cycle. -/
def premiumCandidates (deps : Deps) (c : Cycle) : List Evaluation :=
  (minted deps c).filter fun e => e.pick.tier = .premium

theorem honest_of_minted {e : Evaluation} (inside : e ∈ minted deps c) :
    (e.pick.tier = .premium → floorOf deps e.key ≤ e.pick.edge) ∧
      (floorOf deps e.key ≤ e.pick.edge → ∃ gated,
        Honest gated ∧ gated.tier = e.pick.tier ∧ gated.reasons = e.reasons) := by
  obtain ⟨-, fairs, -, group, fair, v, age, tier, gated, origin⟩ := mem_minted.mp inside
  have edge : e.pick.edge = v.edge := by rw [← origin.pick]; rfl
  have ends : gated.tier = e.pick.tier := by rw [← origin.pick]; rfl
  rw [edge, ← pickTier_premium_iff deps.valueVolumeMinEdge, origin.tiered]
  constructor
  · intro premium
    have reached := (demotionChain_premium_iff deps c fairs.miss e.key v.sharpBook v
      (floorOf deps e.key) (hoursOf c e.key) tier).mp
        ⟨gated, origin.chained, ends.trans premium⟩
    rw [reached.1]
  · intro started
    have chained := origin.chained
    rw [Option.some.inj started] at chained
    have floor : floorOf deps e.key ≤ v.edge := by
      rw [← pickTier_premium_iff deps.valueVolumeMinEdge, origin.tiered, started]
    exact ⟨gated, demotionChain_honest deps c fairs.miss e.key v.sharpBook v _ _ floor chained,
      ends, origin.reasons⟩

omit [Unicode] [Numerics ℚ] in
theorem Honest.reasons_of_premium {g : Gated} (honest : Honest g) (premium : g.tier = .premium) :
    g.reasons = [] := by
  cases honest with
  | kept steam shadow =>
    unfold Gated.reasons
    simp only [Notes.auditReasons, shadow]
    rfl
  | demoted notes slugs demotions => cases premium

omit [Unicode] [Numerics ℚ] in
theorem Honest.reasons_of_volume {g : Gated} (honest : Honest g) (volume : g.tier = .volume) :
    g.reasons ≠ [] ∧ ∀ reason ∈ g.reasons, reason.isDemotion := by
  cases honest with
  | kept steam shadow => cases volume
  | demoted notes slugs demotions => exact ⟨slugs, demotions⟩

theorem mem_premiumCandidates {e : Evaluation} :
    e ∈ premiumCandidates deps c ↔ e ∈ minted deps c ∧ e.pick.tier = .premium := by
  simp [premiumCandidates, List.mem_filter]

theorem reasons_of_premium {e : Evaluation} (inside : e ∈ premiumCandidates deps c) :
    e.reasons = [] := by
  obtain ⟨inside, premium⟩ := mem_premiumCandidates.mp inside
  obtain ⟨floor, chain⟩ := honest_of_minted inside
  obtain ⟨gated, honest, tier, reasons⟩ := chain (floor premium)
  rw [← reasons]
  exact honest.reasons_of_premium (tier.trans premium)

theorem premium_iff {e : Evaluation} :
    e ∈ premiumCandidates deps c ↔ ¬ skipped deps c ∧ ∃ fairs group fair v age,
      mintFairs deps c = .ok fairs ∧ Qualified deps c fairs e.key group fair v age ∧
        e = ⟨valuePick deps c e.key group.prices v .premium age (hoursOf c e.key), e.key.2.2,
          []⟩ := by
  constructor
  · intro inside
    have clean := reasons_of_premium inside
    obtain ⟨inside, premium⟩ := mem_premiumCandidates.mp inside
    obtain ⟨live, fairs, priced, group, fair, v, age, tier, gated, origin⟩ :=
      mem_minted.mp inside
    have ends : gated.tier = .premium := by rw [← premium, ← origin.pick]; rfl
    obtain ⟨started, ungated⟩ :=
      (demotionChain_premium_iff deps c fairs.miss e.key v.sharpBook v
      (floorOf deps e.key) (hoursOf c e.key) tier).mp ⟨gated, origin.chained, ends⟩
    have qualified : Qualified deps c fairs e.key group fair v age :=
      { grouped := origin.grouped
        mintable := groupDropped_iff.mp origin.kept
        anchored := origin.anchored
        scanned := origin.scanned
        survives := origin.survives
        floor := (pickTier_premium_iff deps.valueVolumeMinEdge).mp (by rw [origin.tiered, started])
        ungated := ungated }
    refine ⟨live, fairs, group, fair, v, age, priced, qualified, ?_⟩
    apply Evaluation.ext
    · rw [← ends]
      exact origin.pick.symm
    · rfl
    · exact clean
  · rintro ⟨live, fairs, group, fair, v, age, priced, qualified, built⟩
    obtain ⟨gated, chained, ends⟩ :=
      (demotionChain_premium_iff deps c fairs.miss e.key v.sharpBook v
      (floorOf deps e.key) (hoursOf c e.key) .premium).mpr ⟨rfl, qualified.ungated⟩
    have honest := demotionChain_honest deps c fairs.miss e.key v.sharpBook v _ _ qualified.floor
      chained
    have origin : Origin deps c fairs e group fair v age .premium gated :=
      { grouped := qualified.grouped
        kept := groupDropped_iff.mpr qualified.mintable
        anchored := qualified.anchored
        scanned := qualified.scanned
        survives := qualified.survives
        tiered := (pickTier_premium_iff _).mpr qualified.floor
        chained := chained
        pick := by rw [ends]; exact (congrArg Evaluation.pick built).symm
        reasons := (honest.reasons_of_premium ends).trans (congrArg Evaluation.reasons built).symm }
    have inside : e ∈ minted deps c :=
      mem_minted.mpr ⟨live, fairs, priced, group, fair, v, age, .premium, gated, origin⟩
    exact mem_premiumCandidates.mpr ⟨inside, by rw [← origin.pick]; exact ends⟩

theorem premium_sound (deps : Deps) (c : Cycle) (e : Evaluation) :
    (e ∈ premiumCandidates deps c ↔ ¬ skipped deps c ∧ ∃ fairs group fair v age,
        mintFairs deps c = .ok fairs ∧ Qualified deps c fairs e.key group fair v age ∧
          e = ⟨valuePick deps c e.key group.prices v .premium age (hoursOf c e.key),
            e.key.2.2, []⟩) ∧
      (e ∈ premiumCandidates deps c → e.reasons = []) ∧
      (e ∈ minted deps c → floorOf deps e.key ≤ e.pick.edge → e.pick.tier = .volume →
        e.reasons ≠ [] ∧ ∀ reason ∈ e.reasons, reason.isDemotion) := by
  refine ⟨premium_iff, reasons_of_premium, ?_⟩
  intro inside floor volume
  obtain ⟨gated, honest, tier, reasons⟩ := (honest_of_minted inside).2 floor
  rw [← reasons]
  exact honest.reasons_of_volume (tier.trans volume)

end Picks
end SharpEvPicks.Pipeline
