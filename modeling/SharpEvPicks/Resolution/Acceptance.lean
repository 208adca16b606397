import Mathlib.Algebra.Order.Group.Abs
import Mathlib.Algebra.Order.Group.Int
import SharpEvPicks.Resolution.Matching

/-! When the hardened matcher accepts: the leader of the window is taken unless a
rival fixture or a far leg of its own fixture refuses it. -/
namespace SharpEvPicks.Resolution

open Python

section
variable [Unicode]

namespace Query
variable (q : Query) (candidates : List EventCandidate)

/-- No survivor in the window ranks better, and none that ranks equal comes earlier. -/
def Leads (b : Survivor) : Prop := FirstLeast q.rank (q.eligible candidates) b

def Rivalled (b : Survivor) : Prop :=
  ∃ r ∈ q.eligible candidates, ¬ q.sameFixture r.cand b.cand ∧
    b.score - r.score < ambiguityMargin

def FarLeg (b : Survivor) : Prop :=
  ∃ o ∈ q.eligible candidates, q.sameFixture o.cand b.cand ∧
    duplicateCapture < |o.cand.kickoff - b.cand.kickoff|

def Refused (b : Survivor) : Prop := q.Rivalled candidates b ∨ q.FarLeg candidates b

variable {q candidates}

@[simp] theorem sameFixture_self (x : EventCandidate) : q.sameFixture x x := by
  simp [sameFixture]

omit [Unicode] in
theorem score_le_of_rank_le {r x : Survivor} (ahead : q.rank r ≤ q.rank x) :
    x.score ≤ r.score := by
  obtain less | ⟨same, -⟩ := Prod.Lex.toLex_le_toLex.mp ahead
  · exact (neg_lt_neg_iff.mp less).le
  · exact (neg_inj.mp same).ge

theorem marginRival_eq (best : Survivor) (rest : List Survivor) :
    q.marginRival best rest =
      (rest.find? fun r => !q.sameFixture r.cand best.cand).filter
        fun r => best.score - r.score < ambiguityMargin := by
  induction rest with
  | nil => rfl
  | cons r rest ih =>
    cases same : q.sameFixture r.cand best.cand with
    | true => simp [marginRival, same, ih]
    | false =>
      by_cases close : best.score - r.score < ambiguityMargin <;>
        simp [marginRival, same, close, Option.filter]

theorem marginRival_none_iff (best : Survivor) {rest : List Survivor}
    (sorted : rest.Pairwise fun x y => q.rank x ≤ q.rank y) :
    q.marginRival best rest = none ↔
      ∀ r ∈ rest, ¬ q.sameFixture r.cand best.cand →
        ¬ best.score - r.score < ambiguityMargin := by
  rw [marginRival_eq]
  cases found : rest.find? fun r => !q.sameFixture r.cand best.cand with
  | none =>
    have twins := List.find?_eq_none.mp found
    simp only [Option.filter_none, true_iff]
    intro r inside distinct
    exact absurd (by simpa using distinct) (twins r inside)
  | some first =>
    have distinct := List.find?_some found
    simp only [Option.filter_eq_none_iff, Option.some.injEq, forall_eq', decide_eq_true_eq]
    constructor
    · intro far r inside other close
      have ahead := find?_least sorted found inside (by simpa using other)
      have := score_le_of_rank_le ahead
      exact far (lt_of_le_of_lt (sub_le_sub_left this best.score) close)
    · intro far
      refine far first (List.mem_of_find?_eq_some found) ?_
      simpa using distinct

theorem splitLeg_iff (best : Survivor) (rest : List Survivor) :
    q.splitLeg best rest ↔ ∃ o ∈ rest, q.sameFixture o.cand best.cand ∧
      duplicateCapture < |o.cand.kickoff - best.cand.kickoff| := by
  simp [splitLeg]

theorem decide_accepts (outcome : MatchOutcome) :
    (q.decide (sortedBy q.rank (q.eligible candidates))).1 = some outcome ↔
      ∃ b, q.Leads candidates b ∧ ¬ q.Refused candidates b ∧ q.accepted b = outcome := by
  have sorted := sortedBy_pairwise q.rank (q.eligible candidates)
  have first := head_sortedBy q.rank (q.eligible candidates)
  have members (s : Survivor) : s ∈ q.eligible candidates ↔
      s ∈ sortedBy q.rank (q.eligible candidates) :=
    mem_sortedBy.symm
  unfold Refused Rivalled FarLeg Leads
  simp only [members, ← first]
  generalize sortedBy q.rank (q.eligible candidates) = l at sorted
  cases l with
  | nil => simp [decide]
  | cons best rest =>
    have unrivalled := q.marginRival_none_iff best (List.pairwise_cons.mp sorted).2
    have near := q.splitLeg_iff best rest
    have level : ¬ duplicateCapture < 0 := by decide
    simp only [List.head?_cons, Option.some.injEq, exists_eq_left', List.exists_mem_cons_iff,
      sameFixture_self, not_true, false_and, false_or, true_and, sub_self, abs_zero, level]
    unfold decide
    cases rival : q.marginRival best rest with
    | some runner =>
      simp only [rival, reduceCtorEq, false_iff, not_and]
      intro kept
      have none := unrivalled.mpr fun r inside other close =>
        kept (.inl ⟨r, inside, other, close⟩)
      rw [rival] at none
      cases none
    | none =>
      have alone : ¬ ∃ r ∈ rest, ¬ q.sameFixture r.cand best.cand ∧
          best.score - r.score < ambiguityMargin := by
        rintro ⟨r, inside, other, close⟩
        exact unrivalled.mp rival r inside other close
      simp only [rival, alone, false_or, ← near]
      cases q.splitLeg best rest <;> simp

end Query

open Query

/-- The matcher accepts exactly the leader of the window that is not refused. -/
theorem accepts_iff (q : Query) (candidates : List EventCandidate) (outcome : MatchOutcome) :
    (matchEventHardenedScored q candidates).1 = some outcome ↔
      q.wellPosed ∧ ∃ b, q.Leads candidates b ∧ ¬ q.Refused candidates b ∧
        q.accepted b = outcome := by
  unfold matchEventHardenedScored
  cases posed : q.wellPosed with
  | false => simp
  | true =>
    simp only [Bool.not_true, Bool.false_eq_true, if_false, true_and]
    by_cases empty : q.eligible candidates = []
    · have nobody : ¬ ∃ b, q.Leads candidates b ∧ ¬ q.Refused candidates b ∧
          q.accepted b = outcome := by
        rintro ⟨b, leads, -⟩
        have inside := leads.mem
        rw [empty] at inside
        cases inside
      simp only [empty, if_true, nobody, iff_false]
      cases (q.survivors candidates).argmax Survivor.score <;> simp
    · simp only [empty, if_false]
      exact decide_accepts outcome


@[simp] theorem accepted_candidate (q : Query) (b : Survivor) :
    (q.accepted b).candidate = b.cand := by
  simp only [Query.accepted]
  split <;> rfl

/-! Legs of a series. -/

/-- Whatever is accepted, the legs of its fixture in the window are within six hours of each other.
-/
def SeriesTogether (q : Query) (candidates : List EventCandidate) : Prop :=
  ∀ outcome, (matchEventHardenedScored q candidates).1 = some outcome →
    ∀ x ∈ q.eligible candidates, ∀ y ∈ q.eligible candidates,
      q.sameFixture x.cand outcome.candidate → q.sameFixture y.cand outcome.candidate →
        |x.cand.kickoff - y.cand.kickoff| ≤ duplicateCapture

/-- Two legs of the fixture lie on either side of `b` and cannot be one game. -/
def Straddled (q : Query) (candidates : List EventCandidate) (b : Survivor) : Prop :=
  ∃ x ∈ q.eligible candidates, ∃ y ∈ q.eligible candidates,
    q.sameFixture x.cand b.cand ∧ q.sameFixture y.cand b.cand ∧
      x.cand.kickoff ≤ b.cand.kickoff ∧ b.cand.kickoff ≤ y.cand.kickoff ∧
        duplicateCapture < y.cand.kickoff - x.cand.kickoff

theorem seriesTogether_iff (q : Query) (candidates : List EventCandidate) :
    SeriesTogether q candidates ↔
      (q.wellPosed → ∀ b, q.Leads candidates b →
        q.Refused candidates b ∨ ¬ Straddled q candidates b) := by
  constructor
  · intro together posed b leads
    by_contra open_
    obtain ⟨kept, ⟨x, xIn, y, yIn, xSame, ySame, before, after, apart⟩⟩ :
        ¬ q.Refused candidates b ∧ Straddled q candidates b := by
      constructor
      · exact fun refused => open_ (.inl refused)
      · by_contra level
        exact open_ (.inr level)
    have accepts := (accepts_iff q candidates _).mpr ⟨posed, b, leads, kept, rfl⟩
    have close := together _ accepts x xIn y yIn (by simpa using xSame) (by simpa using ySame)
    have := (abs_le.mp close).1
    omega
  · intro condition outcome accepts x xIn y yIn xSame ySame
    obtain ⟨posed, b, leads, kept, rfl⟩ := (accepts_iff q candidates outcome).mp accepts
    rw [accepted_candidate] at xSame ySame
    have level : ¬ Straddled q candidates b := (condition posed b leads).resolve_left kept
    have near (s : Survivor) (inside : s ∈ q.eligible candidates)
        (same : q.sameFixture s.cand b.cand) :
        |s.cand.kickoff - b.cand.kickoff| ≤ duplicateCapture := by
      by_contra far
      exact kept (.inr ⟨s, inside, same, not_le.mp far⟩)
    obtain ⟨xLow, xHigh⟩ := abs_le.mp (near x xIn xSame)
    obtain ⟨yLow, yHigh⟩ := abs_le.mp (near y yIn ySame)
    -- legs on one side of the leader are as close to each other as to it
    rw [abs_le]
    constructor
    · by_contra apart
      exact level ⟨x, xIn, y, yIn, xSame, ySame, by omega, by omega, by omega⟩
    · by_contra apart
      exact level ⟨y, yIn, x, xIn, ySame, xSame, by omega, by omega, by omega⟩

/-! Both orientations of one candidate. -/

def BothOrientations (q : Query) (cand : EventCandidate) : Prop :=
  q.oriented cand false ∧ q.oriented cand true

/-- No accepted candidate passes the tests in both orientations. -/
def OneOrientation (q : Query) (candidates : List EventCandidate) : Prop :=
  ∀ outcome, (matchEventHardenedScored q candidates).1 = some outcome →
    ¬ BothOrientations q outcome.candidate

/-- Every survivor that passes the tests both ways round loses to another one, or is refused. -/
def BothWaysLose (q : Query) (candidates : List EventCandidate) : Prop :=
  q.wellPosed → ∀ s ∈ q.eligible candidates, BothOrientations q s.cand →
    ¬ q.Leads candidates s ∨ q.Rivalled candidates s ∨ q.FarLeg candidates s

theorem oneOrientation_of (q : Query) (candidates : List EventCandidate) :
    OneOrientation q candidates ↔ BothWaysLose q candidates := by
  constructor
  · intro single posed s _ both
    by_contra open_
    simp only [not_or, not_not] at open_
    obtain ⟨leads, alone, near⟩ := open_
    have kept : ¬ q.Refused candidates s := fun refused => refused.elim alone near
    refine single _ ((accepts_iff q candidates _).mpr ⟨posed, s, leads, kept, rfl⟩) ?_
    rw [accepted_candidate]
    exact both
  · intro condition outcome accepts both
    obtain ⟨posed, b, leads, kept, rfl⟩ := (accepts_iff q candidates outcome).mp accepts
    rw [accepted_candidate] at both
    obtain trailing | refused := condition posed b leads.mem both
    · exact trailing leads
    · exact kept refused

/-- The query lets a candidate be taken the other way round. -/
def Query.flips (q : Query) : Prop := q.ordered = false ∨ q.allowOrientationFlip = true

/-- Of a query that lets a candidate be taken the other way round no candidate is accepted that
passes the tests in both orientations, just when each of these loses; and the same for every query.
-/
theorem oneOrientation_iff (q : Query) (candidates : List EventCandidate) :
    ((q.flips → OneOrientation q candidates) ↔ (q.flips → BothWaysLose q candidates)) ∧
      (OneOrientation q candidates ↔ BothWaysLose q candidates) :=
  ⟨imp_congr_right fun _ => oneOrientation_of q candidates, oneOrientation_of q candidates⟩

end

/-! Where the matcher falls short of either. -/

def seriesQuery : Query where
  home := "Gigantes".toList
  away := "Cangrejeros".toList
  kickoff := hours 12
  aliases := .empty

def seriesLegs : List EventCandidate :=
  [("1", 7), ("2", 12), ("3", 17)].map fun (ref, hour) =>
    ⟨ref.toList, "Gigantes".toList, "Cangrejeros".toList, hours hour⟩

/-- Legs five hours before and after the accepted one are ten hours apart. -/
theorem seriesTogether_fails : ¬ @SeriesTogether Unicode.ascii seriesQuery seriesLegs := by
  intro together
  have legs : @Query.eligible Unicode.ascii seriesQuery seriesLegs =
    seriesLegs.map fun cand => ⟨2, cand, false⟩ := by decide +kernel
  have accepts : (@matchEventHardenedScored Unicode.ascii seriesQuery seriesLegs).1 =
    some ⟨⟨"2".toList, "Gigantes".toList, "Cangrejeros".toList, hours 12⟩, 1,
      .exactCanonical⟩ := by
    decide +kernel
  have apart := together _ accepts ⟨2, seriesLegs[0], false⟩ (by rw [legs]; decide)
    ⟨2, seriesLegs[2], false⟩ (by rw [legs]; decide) (by decide) (by decide)
  exact absurd apart (by decide)

def youthQuery : Query where
  home := "Ajax U19".toList
  away := "Ajax U21".toList
  kickoff := hours 12
  aliases := .empty
  ordered := false

def youthGame : EventCandidate :=
  ⟨"game".toList, "Ajax U19".toList, "Ajax U21".toList, hours 12⟩

/-- Two youth sides of one club strip to one base name and carry one marker. -/
theorem oneOrientation_fails : ¬ @OneOrientation Unicode.ascii youthQuery [youthGame] := by
  intro single
  have accepts : (@matchEventHardenedScored Unicode.ascii youthQuery [youthGame]).1 =
    some ⟨youthGame, 1, .exactCanonical⟩ := by decide +kernel
  exact single _ accepts ⟨by decide, by decide⟩

end SharpEvPicks.Resolution
