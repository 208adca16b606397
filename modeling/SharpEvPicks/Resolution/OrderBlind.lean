import SharpEvPicks.Resolution.Acceptance

/-! The order in which candidates are listed, and the rivals of an accepted one. -/
namespace SharpEvPicks.Resolution

open Python

section
variable [Unicode]

/-- The copies of one reference have one kickoff. -/
def OneKickoff (candidates : List EventCandidate) : Prop :=
  ∀ x ∈ candidates, ∀ y ∈ candidates, x.ref = y.ref → x.kickoff = y.kickoff

instance (candidates : List EventCandidate) : Decidable (OneKickoff candidates) :=
  inferInstanceAs (Decidable (∀ x ∈ candidates, ∀ y ∈ candidates, x.ref = y.ref →
    x.kickoff = y.kickoff))

/-- The reference that `match_event_hardened_scored` accepts. -/
def acceptedRef (q : Query) (candidates : List EventCandidate) : Option Str :=
  (matchEventHardenedScored q candidates).1.map fun outcome => outcome.candidate.ref

namespace Query
variable {q : Query} {candidates candidates' : List EventCandidate}

theorem cand_of_survive {cand : EventCandidate} {s : Survivor} (alive : q.survive cand = some s) :
    s.cand = cand := by
  unfold survive at alive
  split at alive
  · cases alive
  split at alive
  · cases alive
    rfl
  split at alive
  · cases alive
    rfl
  · cases alive

theorem survive_of_eligible {s : Survivor} (inside : s ∈ q.eligible candidates) :
    s.cand ∈ candidates ∧ q.survive s.cand = some s := by
  obtain ⟨cand, listed, alive⟩ := List.mem_filterMap.mp (List.mem_filter.mp inside).1
  obtain rfl := cand_of_survive alive
  exact ⟨listed, alive⟩

theorem eligible_perm (perm : candidates.Perm candidates') :
    (q.eligible candidates).Perm (q.eligible candidates') := (perm.filterMap _).filter _

theorem exists_leads {s : Survivor} (inside : s ∈ q.eligible candidates) :
    ∃ b, q.Leads candidates b := by
  cases first : (sortedBy q.rank (q.eligible candidates)).head? with
  | none =>
    have listed := (@mem_sortedBy _ _ _ q.rank (q.eligible candidates) s).mpr inside
    rw [List.head?_eq_none_iff.mp first] at listed
    cases listed
  | some b => exact ⟨b, (head_sortedBy _ _ _).mp first⟩

/-- The leaders of two arrangements tie in every key. -/
theorem rank_of_leads (perm : candidates.Perm candidates') {b b' : Survivor}
    (leads : q.Leads candidates b) (leads' : q.Leads candidates' b') : q.rank b = q.rank b' :=
  le_antisymm (leads.le ((eligible_perm perm).mem_iff.mpr leads'.mem))
    (leads'.le ((eligible_perm perm).mem_iff.mp leads.mem))

omit [Unicode] in
theorem ties {b b' : Survivor} (same : q.rank b = q.rank b') :
    b.score = b'.score ∧ b.cand.ref = b'.cand.ref := by
  simp only [rank, EmbeddingLike.apply_eq_iff_eq, Prod.mk.injEq, neg_inj] at same
  exact ⟨same.1, same.2.2⟩

theorem sameFixture_trans {x y z : EventCandidate} (same : q.sameFixture y z = true) :
    q.sameFixture x y = q.sameFixture x z := by
  simp only [sameFixture, Bool.and_eq_true, decide_eq_true_eq] at same
  rw [sameFixture, sameFixture, same.1, same.2]

/-- Of two tied leaders at one kickoff, neither is refused unless the other is: two of different
fixtures are rivals of each other, and two of one fixture have the same rivals and legs. -/
theorem Refused.transfer (perm : candidates.Perm candidates') {b b' : Survivor}
    (leads : q.Leads candidates b) (leads' : q.Leads candidates' b')
    (level : b.cand.kickoff = b'.cand.kickoff) (refused : q.Refused candidates' b') :
    q.Refused candidates b := by
  have members (s : Survivor) : s ∈ q.eligible candidates' ↔ s ∈ q.eligible candidates :=
    (eligible_perm perm).mem_iff.symm
  have tied := (ties (rank_of_leads perm leads leads')).1
  cases fixture : q.sameFixture b'.cand b.cand with
  | false =>
    refine .inl ⟨b', (members b').mp leads'.mem, by simp [fixture], ?_⟩
    rw [tied, sub_self]
    decide +kernel
  | true =>
    obtain ⟨r, inside, distinct, close⟩ | ⟨o, inside, twin, far⟩ := refused
    · refine .inl ⟨r, (members r).mp inside, ?_, by rwa [tied]⟩
      rwa [← sameFixture_trans fixture]
    · refine .inr ⟨o, (members o).mp inside, ?_, by rwa [level]⟩
      rwa [← sameFixture_trans fixture]

theorem acceptedRef_of_perm (perm : candidates.Perm candidates') (placed : OneKickoff candidates)
    {ref : Str} (accepts : acceptedRef q candidates = some ref) :
      acceptedRef q candidates' = some ref := by
  obtain ⟨outcome, accepted, rfl⟩ := Option.map_eq_some_iff.mp accepts
  obtain ⟨posed, b, leads, kept, rfl⟩ := (accepts_iff q candidates outcome).mp accepted
  obtain ⟨b', leads'⟩ := exists_leads ((eligible_perm perm).mem_iff.mp leads.mem)
  have same := (ties (rank_of_leads perm leads leads')).2
  have listed := (survive_of_eligible leads.mem).1
  have listed' := perm.mem_iff.mpr (survive_of_eligible leads'.mem).1
  have kept' : ¬ q.Refused candidates' b' := fun refused =>
    kept (refused.transfer perm leads leads' (placed _ listed _ listed' same))
  have accepted' := (accepts_iff q candidates' _).mpr ⟨posed, b', leads', kept', rfl⟩
  rw [acceptedRef, accepted', Option.map_some, accepted_candidate, accepted_candidate, same]

theorem acceptedRef_perm (perm : candidates.Perm candidates') (placed : OneKickoff candidates) :
    acceptedRef q candidates = acceptedRef q candidates' := by
  have placed' : OneKickoff candidates' := fun x inside y inside' =>
    placed x (perm.mem_iff.mpr inside) y (perm.mem_iff.mpr inside')
  apply Option.ext
  intro ref
  exact ⟨acceptedRef_of_perm perm placed, acceptedRef_of_perm perm.symm placed'⟩

/-- What is accepted leads every other fixture of the window by the margin. -/
theorem margin_of_accepted {outcome : MatchOutcome}
    (accepts : (matchEventHardenedScored q candidates).1 = some outcome) :
    ∃ best ∈ q.eligible candidates, q.survive outcome.candidate = some best ∧
      ∀ rival ∈ q.eligible candidates, ¬ q.sameFixture rival.cand outcome.candidate →
        ambiguityMargin ≤ best.score - rival.score := by
  obtain ⟨-, b, leads, kept, rfl⟩ := (accepts_iff q candidates outcome).mp accepts
  rw [accepted_candidate]
  refine ⟨b, leads.mem, (survive_of_eligible leads.mem).2, fun rival inside distinct => ?_⟩
  by_contra close
  exact kept (.inl ⟨rival, inside, distinct, not_le.mp close⟩)

end Query

/-! `match_event`. -/

namespace StrictQuery
variable {q : StrictQuery} {candidates candidates' : List EventCandidate}

/-- The references among the candidates that qualify. -/
def matchedRefs (q : StrictQuery) (candidates : List EventCandidate) : Finset Str :=
  ((candidates.filter q.qualifies).map EventCandidate.ref).toFinset

/-- A reference is returned when it is the only one that qualifies, whichever copy of it is nearest.
-/
theorem matchEvent_ref_iff {ref : Str} :
    (matchEvent q candidates).map EventCandidate.ref = some ref ↔
      ¬ (q.targetHome = [] ∨ q.targetAway = [] ∨ q.targetHome = q.targetAway) ∧
        q.matchedRefs candidates = {ref} := by
  unfold matchEvent
  by_cases degenerate : q.targetHome = [] ∨ q.targetAway = [] ∨ q.targetHome = q.targetAway
  · simp [degenerate]
  rw [if_neg degenerate]
  change (if 1 < (q.matchedRefs candidates).card then none
    else _ : Option EventCandidate).map _ = _ ↔ _
  have inMatched {cand : EventCandidate} (inside : cand ∈ candidates.filter q.qualifies) :
      cand.ref ∈ q.matchedRefs candidates := List.mem_toFinset.mpr (List.mem_map_of_mem inside)
  by_cases several : 1 < (q.matchedRefs candidates).card
  · have notOne : q.matchedRefs candidates ≠ {ref} := by
      intro one
      rw [one, Finset.card_singleton] at several
      exact absurd several (lt_irrefl 1)
    simp [several, notOne]
  · rw [if_neg several, Option.map_eq_some_iff]
    constructor
    · rintro ⟨cand, nearest, rfl⟩
      refine ⟨degenerate, ?_⟩
      have inside := inMatched (mem_sortedBy.mp (List.mem_of_head? nearest))
      exact (Finset.eq_singleton_iff_unique_mem.mpr
        ⟨inside, fun other found => Finset.card_le_one.mp (not_lt.mp several) _ found _ inside⟩)
    · rintro ⟨-, only⟩
      have listed : ref ∈ q.matchedRefs candidates := only ▸ Finset.mem_singleton_self ref
      obtain ⟨first, inside, -⟩ := List.mem_map.mp (List.mem_toFinset.mp listed)
      cases nearest : (sortedBy (fun cand =>
        toLex (q.drift cand, cand.ref)) (candidates.filter q.qualifies)).head? with
      | none =>
        have sorted :=
          (@mem_sortedBy _ _ _ (fun cand => toLex (q.drift cand, cand.ref)) _ first).mpr inside
        rw [List.head?_eq_none_iff.mp nearest] at sorted
        cases sorted
      | some cand =>
        refine ⟨cand, rfl, ?_⟩
        have inside := inMatched (mem_sortedBy.mp (List.mem_of_head? nearest))
        rw [only, Finset.mem_singleton] at inside
        exact inside

theorem matchEvent_perm (perm : candidates.Perm candidates') :
    (matchEvent q candidates).map EventCandidate.ref =
    (matchEvent q candidates').map EventCandidate.ref := by
  have refs : q.matchedRefs candidates = q.matchedRefs candidates' :=
    List.toFinset_eq_of_perm _ _ ((perm.filter _).map _)
  apply Option.ext
  intro ref
  rw [matchEvent_ref_iff, matchEvent_ref_iff, refs]

end StrictQuery

theorem matching_orderBlind :
    (∀ (q : Query) (candidates candidates' : List EventCandidate), candidates.Perm candidates' →
      OneKickoff candidates → acceptedRef q candidates = acceptedRef q candidates') ∧
      (∀ (q : Query) (candidates : List EventCandidate) (outcome : MatchOutcome),
        (matchEventHardenedScored q candidates).1 = some outcome →
          ∃ best ∈ q.eligible candidates, q.survive outcome.candidate = some best ∧
            ∀ rival ∈ q.eligible candidates, ¬ q.sameFixture rival.cand outcome.candidate →
              ambiguityMargin ≤ best.score - rival.score) ∧
      ∀ (q : StrictQuery) (candidates candidates' : List EventCandidate),
        candidates.Perm candidates' → (matchEvent q candidates).map EventCandidate.ref =
          (matchEvent q candidates').map EventCandidate.ref :=
  ⟨fun _ _ _ perm placed => Query.acceptedRef_perm perm placed,
    fun _ _ _ accepts => Query.margin_of_accepted accepts,
    fun _ _ _ perm => StrictQuery.matchEvent_perm perm⟩

end

/-! One reference at two kickoffs, as far before the query as after it. -/

def mirrorLegs : List EventCandidate :=
  [("1", hours 9), ("1", hours 15), ("2", hours 15 + minutes 30)].map fun (ref, kickoff) =>
    ⟨ref.toList, "Gigantes".toList, "Cangrejeros".toList, kickoff⟩

theorem acceptedRef_perm_fails :
    ¬ ∀ candidates candidates' : List EventCandidate, candidates.Perm candidates' →
      @acceptedRef Unicode.ascii seriesQuery candidates =
        @acceptedRef Unicode.ascii seriesQuery candidates' := by
  intro blind
  have swapped : mirrorLegs.Perm ([mirrorLegs[1], mirrorLegs[0], mirrorLegs[2]]) :=
    .swap mirrorLegs[1] mirrorLegs[0] [mirrorLegs[2]]
  have same := blind _ _ swapped
  -- the early copy is too far from the third leg, the late one is not
  have early : @acceptedRef Unicode.ascii seriesQuery mirrorLegs = none := by decide +kernel
  have late : @acceptedRef Unicode.ascii seriesQuery [mirrorLegs[1], mirrorLegs[0], mirrorLegs[2]] =
    some "1".toList := by decide +kernel
  rw [early, late] at same
  cases same

def strictSeries : StrictQuery where
  home := "Gigantes".toList
  away := "Cangrejeros".toList
  kickoff := hours 12
  aliases := .empty

/-- The three legs, and another fixture whose names pass the tests too. -/
def rivalLegs : List EventCandidate :=
  seriesLegs ++ [⟨"4".toList, "Gigante".toList, "Cangrejero".toList, hours 12⟩]

theorem rivalLegs_orderBlind :
    @acceptedRef Unicode.ascii seriesQuery rivalLegs =
        @acceptedRef Unicode.ascii seriesQuery rivalLegs.reverse ∧
      (∃ best ∈ @Query.eligible Unicode.ascii seriesQuery rivalLegs,
        @Query.survive Unicode.ascii seriesQuery rivalLegs[1] = some best ∧
          ∃ rival ∈ @Query.eligible Unicode.ascii seriesQuery rivalLegs,
            rival.cand = rivalLegs[3] ∧ ambiguityMargin ≤ best.score - rival.score) ∧
      (@matchEvent Unicode.ascii strictSeries rivalLegs).map EventCandidate.ref =
        (@matchEvent Unicode.ascii strictSeries rivalLegs.reverse).map EventCandidate.ref := by
  obtain ⟨blind, margin, strict⟩ := @matching_orderBlind Unicode.ascii
  refine ⟨blind seriesQuery rivalLegs rivalLegs.reverse rivalLegs.reverse_perm.symm (by decide),
    ?_, strict strictSeries rivalLegs rivalLegs.reverse rivalLegs.reverse_perm.symm⟩
  obtain ⟨best, inside, survives, apart⟩ :=
    margin seriesQuery rivalLegs ⟨rivalLegs[1], 1, .exactCanonical⟩ (by decide +kernel)
  have rival : ⟨861 / 440, rivalLegs[3],
      false⟩ ∈ @Query.eligible Unicode.ascii seriesQuery rivalLegs := by
    decide +kernel
  exact ⟨best, inside, survives, _, rival, rfl, apart _ rival (by decide +kernel)⟩

end SharpEvPicks.Resolution
