import SharpEvPicks.Edge.Steam
import SharpEvPicks.Python.SortedEnds

/-! What a steam verdict owes to the rows it should not see, and to the order of the others. -/
namespace SharpEvPicks.Edge.Steam

open Python

theorem endPrices_eq (l : List TrajectoryPoint) :
    endPrices l = (l.head?.map Prod.snd).bind fun first => (l.getLast?.map Prod.snd).map fun last =>
      (first, last) := by
  unfold endPrices
  cases l.head? with
  | none => rfl
  | some first => cases l.getLast? <;> rfl

theorem endPrices_perm {l l' : List TrajectoryPoint} (opens : OpensAlike Prod.fst Prod.snd l)
    (closes : ClosesAlike Prod.fst Prod.snd l) (perm : l'.Perm l) :
    endPrices (sortedBy Prod.fst l') = endPrices (sortedBy Prod.fst l) := by
  rw [endPrices_eq, endPrices_eq, opens.head perm, closes.getLast perm]

/-! What a verdict makes of sane prices. -/

theorem impliedProb_sane {odds : ℚ} (sane : 1 < odds) : impliedProb odds = .ok (1 / odds) :=
  if_neg (not_le.mpr sane)

theorem convergence_sane (policy : SteamPolicy) (pFillOpen pFillNow : ℚ) {x y : ℚ}
    (open_ : 1 < x) (now_ : 1 < y) :
    convergence policy pFillOpen pFillNow (some (x, y)) =
      if policy.minInitialGap ≤ 1 / x - pFillOpen then
        if 1 / x - pFillOpen = 0 then .error .zeroDivision
        else
          let closedFraction := (1 / x - pFillOpen - (1 / y - pFillNow)) / (1 / x - pFillOpen)
          .ok (some closedFraction, decide (1 / y - pFillNow < 1 / x - pFillOpen) &&
            decide (policy.softTowardAnchorCloseFrac ≤ closedFraction))
      else .ok (none, false) := by
  unfold convergence
  dsimp only
  rw [impliedProb_sane open_, impliedProb_sane now_]
  rfl

/-- An anchor that opens at the price of the fill has no gap to close. -/
theorem convergence_level (policy : SteamPolicy) (pFillNow : ℚ) {x y y' : ℚ} (open_ : 1 < x)
    (now_ : 1 < y) (now' : 1 < y') :
    convergence policy (1 / x) pFillNow (some (x, y)) = convergence policy (1 / x) pFillNow
      (some (x, y')) := by
  rw [convergence_sane _ _ _ open_ now_, convergence_sane _ _ _ open_ now', sub_self, if_pos rfl,
    if_pos rfl]

theorem movement_sane (policy : SteamPolicy) (anchor : Option (ℚ × ℚ)) {o f : ℚ}
    (open_ : 1 < o) (now_ : 1 < f) :
    movement policy anchor (some (o, f)) =
      (convergence policy (1 / o) (1 / f) anchor).map fun closed =>
        { softMove := some (1 / f - 1 / o)
          steamed := decide (policy.softSteamAwayDelta ≤ -(1 / f - 1 / o))
          closedFraction := closed.1
          toward := closed.2 } := by
  have run : movement policy anchor (some (o, f)) =
      (convergence policy (1 / o) (1 / f) anchor).bind fun closed =>
      .ok
        { softMove := some (1 / f - 1 / o)
          steamed := decide (policy.softSteamAwayDelta ≤ -(1 / f - 1 / o))
          closedFraction := closed.1
          toward := closed.2 } := by
    unfold movement
    dsimp only
    rw [impliedProb_sane open_, impliedProb_sane now_]
    rfl
  rw [run]
  cases convergence policy (1 / o) (1 / f) anchor <;> rfl

theorem judge_congr (now : Int) (policy : SteamPolicy) {reading reading' : Reading}
    (count : reading.fillPoints = reading'.fillPoints)
    (seen : reading.anchorSeen = reading'.anchorSeen)
    (moved : movement policy reading.anchor reading.fill =
      movement policy reading'.anchor reading'.fill) :
    judge now policy reading = judge now policy reading' := by
  unfold judge
  rw [count, seen, moved]

/-! Series that agree at their ends. -/

/-- Rows of one capture time at an end of a series agree, as far as that end is read. -/
structure EndsAgree (fill anchor : List TrajectoryPoint) : Prop where
  fillOpens : OpensAlike Prod.fst Prod.snd fill
  fillCloses : ClosesAlike Prod.fst Prod.snd fill
  anchorOpens : fill ≠ [] → OpensAlike Prod.fst Prod.snd anchor
  anchorCloses : ∀ o a, Earliest Prod.fst fill o → Earliest Prod.fst anchor a →
    o.2 ≠ a.2 → ClosesAlike Prod.fst Prod.snd anchor

theorem exists_ends {l : List TrajectoryPoint} (filled : l ≠ []) :
    ∃ a b, endPrices (sortedBy Prod.fst l) = some (a.2, b.2) ∧ Earliest Prod.fst l a ∧
      Latest Prod.fst l b := by
  obtain ⟨a, first, least⟩ := exists_head Prod.fst filled
  obtain ⟨b, last, greatest⟩ := exists_getLast Prod.fst filled
  refine ⟨a, b, ?_, least, greatest⟩
  rw [endPrices_eq, first, last]
  rfl

theorem movement_agree {fill fill' anchor anchor' : List TrajectoryPoint} (policy : SteamPolicy)
    (agree : EndsAgree fill anchor) (fills : fill'.Perm fill) (anchors : anchor'.Perm anchor)
    (sane : ∀ p ∈ fill, 1 < p.2) (sane' : ∀ p ∈ anchor, 1 < p.2) :
    movement policy (endPrices (sortedBy Prod.fst anchor')) (endPrices (sortedBy Prod.fst fill')) =
      movement policy (endPrices (sortedBy Prod.fst anchor))
        (endPrices (sortedBy Prod.fst fill)) := by
  rw [endPrices_perm agree.fillOpens agree.fillCloses fills]
  by_cases filled : fill = []
  · subst filled
    rfl
  by_cases priced : anchor = []
  · subst priced
    rw [List.perm_nil.mp anchors]
  obtain ⟨o, f, ends, opened, closed⟩ := exists_ends filled
  obtain ⟨a, n, aEnds, aOpened, aClosed⟩ := exists_ends priced
  obtain ⟨a', n', aEnds', aOpened', aClosed'⟩ :=
    exists_ends (l := anchor') fun empty => priced (List.nil_perm.mp (empty ▸ anchors))
  have opens : a'.2 = a.2 := agree.anchorOpens filled a' a (aOpened'.perm anchors) aOpened
  rw [ends, aEnds, aEnds', opens]
  by_cases level : o.2 = a.2
  · have saneFill := sane o opened.1
    rw [movement_sane _ _ saneFill (sane f closed.1),
      movement_sane _ _ saneFill (sane f closed.1), ← level,
      convergence_level _ _ saneFill (sane' n' (aClosed'.perm anchors).1) (sane' n aClosed.1)]
  · have closes := agree.anchorCloses o a opened aOpened level
    rw [closes n' n (aClosed'.perm anchors) aClosed]

/-! What a verdict shows of its series, under a policy that looks for it. -/

/-- Judges a movement from the first observation on, and a gap from the given one on. -/
def probe (lookbackSeconds gap : ℚ) : SteamPolicy :=
  { lookbackSeconds := lookbackSeconds, minPoints := 1, minInitialGap := gap }

def surface (moved : Except SteamError Movement) : Except SteamError (Option ℚ × Option ℚ) :=
  moved.map fun m => (m.softMove, m.closedFraction)

theorem surface_judge {now : Int} {lookbackSeconds gap : ℚ} {reading : Reading}
    (filled : 1 ≤ reading.fillPoints) :
    (judge now (probe lookbackSeconds gap) reading).map (fun v => (v.softMove, v.closedFraction)) =
      surface (movement (probe lookbackSeconds gap) reading.anchor reading.fill) := by
  have enough : (probe lookbackSeconds gap).minPoints ≤ reading.fillPoints :=
    Int.ofNat_le.mpr filled
  unfold judge surface
  rw [if_pos enough]
  cases movement (probe lookbackSeconds gap) reading.anchor reading.fill <;> rfl

theorem surface_movement (policy : SteamPolicy) (anchor : Option (ℚ × ℚ)) {o f : ℚ}
    (open_ : 1 < o) (now_ : 1 < f) :
    surface (movement policy anchor (some (o, f))) =
      (convergence policy (1 / o) (1 / f) anchor).map fun closed =>
      (some (1 / f - 1 / o), closed.1) := by
  rw [movement_sane policy anchor open_ now_]
  unfold surface
  cases convergence policy (1 / o) (1 / f) anchor <;> rfl

theorem inv_lt_inv_of_sane {x y : ℚ} (sane : 1 < x) (lt : x < y) : 1 / y < 1 / x :=
  one_div_lt_one_div_of_lt (zero_lt_one.trans sane) lt

theorem eq_of_inv {x y : ℚ} (same : 1 / x = 1 / y) : x = y := by
  rwa [one_div, one_div, inv_inj] at same

/-- Over a gap that prices cannot make, only the movement of the fill is left. -/
theorem convergence_far {lookbackSeconds o pFillNow : ℚ} {anchor : Option (ℚ × ℚ)}
    (open_ : 1 < o) (sane : ∀ e ∈ anchor, 1 < e.1 ∧ 1 < e.2) :
    convergence (probe lookbackSeconds 2) (1 / o) pFillNow anchor = .ok (none, false) := by
  cases anchor with
  | none => rfl
  | some e =>
    obtain ⟨x, y⟩ := e
    obtain ⟨opened, closed⟩ := sane _ rfl
    have small : 1 / x < 1 := by
      rw [div_lt_one (zero_lt_one.trans opened)]
      exact opened
    have positive : 0 < 1 / o := one_div_pos.mpr (zero_lt_one.trans open_)
    have below : ¬ (probe lookbackSeconds 2).minInitialGap ≤ 1 / x - 1 / o := by
      have far : (probe lookbackSeconds 2).minInitialGap = 2 := rfl
      rw [far, not_le]
      linarith
    rw [convergence_sane _ _ _ opened closed, if_neg below]

theorem move_eq {lookbackSeconds o f o' f' : ℚ} {anchor anchor' : Option (ℚ × ℚ)}
    (open_ : 1 < o) (now_ : 1 < f) (open' : 1 < o') (now' : 1 < f')
    (sane : ∀ e ∈ anchor, 1 < e.1 ∧ 1 < e.2)
    (sane' : ∀ e ∈ anchor', 1 < e.1 ∧ 1 < e.2)
    (same : surface (movement (probe lookbackSeconds 2) anchor (some (o, f))) =
      surface (movement (probe lookbackSeconds 2) anchor' (some (o', f')))) :
    1 / f - 1 / o = 1 / f' - 1 / o' := by
  rw [surface_movement _ _ open_ now_, surface_movement _ _ open' now', convergence_far open_ sane,
    convergence_far open' sane'] at same
  exact Option.some.inj (congrArg Prod.fst (Except.ok.inj same))

/-- An opening price at the threshold shows, and one below it does not. -/
theorem opening_ne {lookbackSeconds o f x y x' y' : ℚ} (open_ : 1 < o) (now_ : 1 < f)
    (anchor : 1 < x) (later : 1 < y) (anchor' : 1 < x') (later' : 1 < y') (lt : x < x') :
    surface (movement (probe lookbackSeconds (1 / x - 1 / o)) (some (x, y)) (some (o, f))) ≠
      surface (movement (probe lookbackSeconds (1 / x - 1 / o)) (some (x', y')) (some (o, f))) := by
  have wide : (probe lookbackSeconds (1 / x - 1 / o)).minInitialGap ≤ 1 / x - 1 / o := le_rfl
  have narrow : ¬ (probe lookbackSeconds (1 / x - 1 / o)).minInitialGap ≤ 1 / x' - 1 / o := by
    have less := inv_lt_inv_of_sane anchor lt
    have own : (probe lookbackSeconds (1 / x - 1 / o)).minInitialGap = 1 / x - 1 / o := rfl
    rw [own, not_le]
    linarith
  rw [surface_movement _ _ open_ now_, surface_movement _ _ open_ now_,
    convergence_sane _ _ _ anchor later,
    convergence_sane _ _ _ anchor' later', if_pos wide, if_neg narrow]
  split
  · intro same
    cases same
  · intro same
    cases congrArg Prod.snd (Except.ok.inj same)

theorem closing_eq {lookbackSeconds o f x y y' : ℚ} (open_ : 1 < o) (now_ : 1 < f)
    (anchor : 1 < x) (later : 1 < y) (later' : 1 < y') (apart : o ≠ x)
    (same : surface (movement (probe lookbackSeconds (1 / x - 1 / o)) (some (x, y)) (some (o, f))) =
      surface (movement (probe lookbackSeconds (1 / x - 1 / o)) (some (x, y')) (some (o, f)))) :
    y =
      y' := by
  have wide : (probe lookbackSeconds (1 / x - 1 / o)).minInitialGap ≤ 1 / x - 1 / o := le_rfl
  have gap : 1 / x - 1 / o ≠ 0 := fun level => apart (eq_of_inv (sub_eq_zero.mp level)).symm
  rw [surface_movement _ _ open_ now_, surface_movement _ _ open_ now_,
    convergence_sane _ _ _ anchor later,
    convergence_sane _ _ _ anchor later', if_pos wide, if_neg gap, if_pos wide, if_neg gap] at same
  have shares := Option.some.inj (congrArg Prod.snd (Except.ok.inj same))
  have gaps := (div_left_inj' gap).mp shares
  exact eq_of_inv (by linarith)

section
variable [Unicode]

/-- The rows that a verdict on the candidate may see. -/
def relevant (now : Int) (lookbackSeconds : ℚ) (c : Candidate) (s : SnapshotLike) : Bool :=
  inWindow now lookbackSeconds s.capturedAt && 1 < s.decimalOdds && s.key = c.key &&
    s.selection = c.selection &&
    (norm s.bookmaker = norm c.fillBook || norm s.bookmaker = norm c.anchorBook)

/-- The verdict is the same on every list with the same relevant rows, in whatever order. -/
def OrderBlind (snapshots : List SnapshotLike) (now : Int) (lookbackSeconds : ℚ) (c : Candidate) :
    Prop :=
  ∀ (snapshots' : List SnapshotLike) (policy : SteamPolicy),
    policy.lookbackSeconds = lookbackSeconds →
    (snapshots'.filter (relevant now lookbackSeconds c)).Perm
      (snapshots.filter (relevant now lookbackSeconds c)) →
      steamVerdict snapshots' now policy c = steamVerdict snapshots now policy c

def fillSeries (snapshots : List SnapshotLike) (now : Int) (lookbackSeconds : ℚ) (c : Candidate) :
    List TrajectoryPoint :=
  series snapshots now lookbackSeconds c.key c.selection c.fillBook

def anchorSeries (snapshots : List SnapshotLike) (now : Int) (lookbackSeconds : ℚ)
    (c : Candidate) :
    List TrajectoryPoint := series snapshots now lookbackSeconds c.key c.selection c.anchorBook

variable {snapshots snapshots' : List SnapshotLike} {now : Int} {lookbackSeconds : ℚ}
  {c : Candidate}

/-! Only relevant rows are read. -/

theorem series_filter {p : SnapshotLike → Bool} {key : TrajectoryKey} {selection book : Str}
    (seen : ∀ s, inSeries now lookbackSeconds key selection book s → p s) :
    series snapshots now lookbackSeconds key selection book =
      ((snapshots.filter p).filter (inSeries now lookbackSeconds key selection book)).map
        SnapshotLike.point := by
  unfold series
  rw [List.filter_filter]
  congr 1
  apply List.filter_congr
  intro s _
  cases inside : inSeries now lookbackSeconds key selection book s with
  | false => rfl
  | true => rw [seen s inside, Bool.and_self]

theorem inSeries_iff {key : TrajectoryKey} {selection book : Str} {s : SnapshotLike} :
    inSeries now lookbackSeconds key selection book s = true ↔
      inWindow now lookbackSeconds s.capturedAt = true ∧ 1 < s.decimalOdds ∧ s.key = key ∧
      s.selection = selection ∧ norm s.bookmaker = norm book := by
  simp only [inSeries, SnapshotLike.selBook, Bool.and_eq_true, decide_eq_true_eq, Prod.mk.injEq,
    and_assoc]

theorem relevant_of_fill {s : SnapshotLike}
    (inside : inSeries now lookbackSeconds c.key c.selection c.fillBook s) :
    relevant now lookbackSeconds c s = true := by
  obtain ⟨recent, sane, key, selection, book⟩ := inSeries_iff.mp inside
  simp [relevant, recent, sane, key, selection, book]

theorem relevant_of_anchor {s : SnapshotLike}
    (inside : inSeries now lookbackSeconds c.key c.selection c.anchorBook s) :
    relevant now lookbackSeconds c s = true := by
  obtain ⟨recent, sane, key, selection, book⟩ := inSeries_iff.mp inside
  simp [relevant, recent, sane, key, selection, book]

theorem fillSeries_filter (snapshots : List SnapshotLike) :
    fillSeries snapshots now lookbackSeconds c =
    ((snapshots.filter (relevant now lookbackSeconds c)).filter
      (inSeries now lookbackSeconds c.key c.selection c.fillBook)).map SnapshotLike.point :=
  series_filter fun _ => relevant_of_fill

theorem anchorSeries_filter (snapshots : List SnapshotLike) :
    anchorSeries snapshots now lookbackSeconds c =
    ((snapshots.filter (relevant now lookbackSeconds c)).filter
      (inSeries now lookbackSeconds c.key c.selection c.anchorBook)).map SnapshotLike.point :=
  series_filter fun _ => relevant_of_anchor

section Seen
variable (same : (snapshots'.filter (relevant now lookbackSeconds c)).Perm
  (snapshots.filter (relevant now lookbackSeconds c)))
include same

theorem fillSeries_perm :
    (fillSeries snapshots' now lookbackSeconds c).Perm
    (fillSeries snapshots now lookbackSeconds c) := by
  rw [fillSeries_filter, fillSeries_filter snapshots]
  exact (same.filter _).map _

theorem anchorSeries_perm :
    (anchorSeries snapshots' now lookbackSeconds c).Perm
    (anchorSeries snapshots now lookbackSeconds c) := by
  rw [anchorSeries_filter, anchorSeries_filter snapshots]
  exact (same.filter _).map _

end Seen

theorem mem_series {key : TrajectoryKey} {selection book : Str} {p : TrajectoryPoint} :
    p ∈ series snapshots now lookbackSeconds key selection book ↔
      ∃ s ∈ snapshots, inSeries now lookbackSeconds key selection book s = true ∧
        s.point = p := by
  simp only [series, List.mem_map, List.mem_filter, and_assoc]

theorem series_sane {key : TrajectoryKey} {selection book : Str} {p : TrajectoryPoint}
    (inside : p ∈ series snapshots now lookbackSeconds key selection book) : 1 < p.2 := by
  obtain ⟨s, -, member, rfl⟩ := mem_series.mp inside
  exact (inSeries_iff.mp member).2.1

theorem orderBlind_of_agree
    (agree : EndsAgree (fillSeries snapshots now lookbackSeconds c)
      (anchorSeries snapshots now lookbackSeconds c)) :
    OrderBlind snapshots now lookbackSeconds c := by
  rintro snapshots' policy rfl same
  have fills := fillSeries_perm same
  have anchors := anchorSeries_perm same
  rw [steamVerdict_eq, steamVerdict_eq]
  apply judge_congr
  · simp only [readSeries, sortedBy, List.length_insertionSort]
    exact fills.length_eq
  · exact (closesAlike_key _).getLast anchors
  · exact movement_agree policy agree fills anchors (fun p => series_sane) (fun p => series_sane)

/-! Lists with a chosen row at an end. -/

/-- Two rows that can stand at the ends of a series. -/
structure Ends (snapshots : List SnapshotLike) (now : Int) (lookbackSeconds : ℚ)
    (key : TrajectoryKey) (selection book : Str) (r z : SnapshotLike) : Prop where
  opening : r ∈ snapshots ∧ inSeries now lookbackSeconds key selection book r = true
  closing : z ∈ snapshots ∧ inSeries now lookbackSeconds key selection book z = true
  apart : z ≠ r
  first : Earliest Prod.fst (series snapshots now lookbackSeconds key selection book) r.point
  last : Latest Prod.fst (series snapshots now lookbackSeconds key selection book) z.point

section Arranged
variable {key : TrajectoryKey} {selection book : Str} {r z : SnapshotLike}
  (member : inSeries now lookbackSeconds key selection book r = true)
include member

theorem series_cons (l : List SnapshotLike) :
    series (r :: l) now lookbackSeconds key selection book =
      r.point :: series l now lookbackSeconds key selection book := by
  unfold series
  rw [List.filter_cons_of_pos member, List.map_cons]

theorem series_concat (l : List SnapshotLike) :
    series (l ++ [r]) now lookbackSeconds key selection book =
      series l now lookbackSeconds key selection book ++ [r.point] := by
  unfold series
  rw [List.filter_append, List.filter_cons_of_pos member, List.filter_nil, List.map_append,
    List.map_singleton]

omit member in
theorem series_perm {l l' : List SnapshotLike} (perm : l.Perm l') :
    (series l now lookbackSeconds key selection book).Perm
    (series l' now lookbackSeconds key selection book) :=
  (perm.filter _).map _

theorem front {l : List SnapshotLike} (perm : (r :: l).Perm snapshots)
    (first : Earliest Prod.fst (series snapshots now lookbackSeconds key selection book) r.point) :
    (sortedBy Prod.fst (series (r :: l) now lookbackSeconds key selection book)).head? =
      some r.point := by
  have least := (first.perm (series_perm perm).symm).2
  rw [series_cons member] at least ⊢
  exact head_sortedBy_cons fun x inside => least x (List.mem_cons_of_mem _ inside)

theorem back {l : List SnapshotLike} (perm : (l ++ [r]).Perm snapshots)
    (last : Latest Prod.fst (series snapshots now lookbackSeconds key selection book) r.point) :
    (sortedBy Prod.fst (series (l ++ [r]) now lookbackSeconds key selection book)).getLast? =
      some r.point := by
  have greatest := (last.perm (series_perm perm).symm).2
  rw [series_concat member] at greatest ⊢
  exact getLast_sortedBy_concat fun x inside => greatest x (List.mem_append_left _ inside)

omit member in
theorem arrange (ends : Ends snapshots now lookbackSeconds key selection book r z) :
    ∃ l : List SnapshotLike, l.Perm snapshots ∧
      endPrices (sortedBy Prod.fst (series l now lookbackSeconds key selection book)) =
        some (r.decimalOdds, z.decimalOdds) := by
  have moved : (snapshots.erase r).Perm ((snapshots.erase r).erase z ++ [z]) :=
    (List.perm_cons_erase ((List.mem_erase_of_ne ends.apart).mpr ends.closing.1)).trans
      (List.perm_append_singleton _ _).symm
  have perm : (r :: ((snapshots.erase r).erase z ++ [z])).Perm snapshots :=
    ((moved.cons r).symm).trans (List.perm_cons_erase ends.opening.1).symm
  refine ⟨_, perm, ?_⟩
  have opened := front ends.opening.2 perm ends.first
  have closed : (sortedBy Prod.fst
      (series (r :: ((snapshots.erase r).erase z ++ [z])) now lookbackSeconds key
      selection book)).getLast? = some z.point :=
    back (l := r :: (snapshots.erase r).erase z) ends.closing.2 perm ends.last
  rw [endPrices_eq, opened, closed]
  rfl

end Arranged

/-! What blindness to the order costs. -/

theorem endPrices_sane {key : TrajectoryKey} {selection book : Str} :
    ∀ e ∈ endPrices (sortedBy Prod.fst
      (series snapshots now lookbackSeconds key selection book)), 1 < e.1 ∧ 1 < e.2 := by
  by_cases filled : series snapshots now lookbackSeconds key selection book = []
  · rw [filled]
    intro e there
    cases there
  · obtain ⟨a, b, ends, first, last⟩ := exists_ends filled
    rw [ends]
    rintro e ⟨rfl⟩
    exact ⟨series_sane first.1, series_sane last.1⟩

section Blind
variable (blind : OrderBlind snapshots now lookbackSeconds c) {l l' : List SnapshotLike}
include blind

theorem blind_surface (perm : l.Perm snapshots) (perm' : l'.Perm snapshots)
    (filled : fillSeries snapshots now lookbackSeconds c ≠ []) (gap : ℚ) :
    surface (movement (probe lookbackSeconds gap)
      (endPrices (sortedBy Prod.fst (anchorSeries l now lookbackSeconds c)))
      (endPrices (sortedBy Prod.fst (fillSeries l now lookbackSeconds c)))) =
    surface (movement (probe lookbackSeconds gap)
      (endPrices (sortedBy Prod.fst (anchorSeries l' now lookbackSeconds c)))
      (endPrices (sortedBy Prod.fst (fillSeries l' now lookbackSeconds c)))) := by
  have counted {l : List SnapshotLike} (perm : l.Perm snapshots) :
      1 ≤ (sortedBy Prod.fst (fillSeries l now lookbackSeconds c)).length := by
    unfold sortedBy
    rw [List.length_insertionSort, (fillSeries_perm (perm.filter _)).length_eq]
    exact List.length_pos_iff.mpr filled
  have same := (blind l (probe lookbackSeconds gap) rfl (perm.filter _)).trans
    (blind l' (probe lookbackSeconds gap) rfl (perm'.filter _)).symm
  rw [steamVerdict_eq, steamVerdict_eq] at same
  have shown := congrArg (Except.map fun v => (v.softMove, v.closedFraction)) same
  rw [surface_judge (counted perm), surface_judge (counted perm')] at shown
  exact shown

theorem swing {r z r' z' : SnapshotLike}
    (ends : Ends snapshots now lookbackSeconds c.key c.selection c.fillBook r z)
    (ends' : Ends snapshots now lookbackSeconds c.key c.selection c.fillBook r' z') :
    1 / z.decimalOdds - 1 / r.decimalOdds = 1 / z'.decimalOdds - 1 / r'.decimalOdds := by
  obtain ⟨l, perm, arranged⟩ := arrange ends
  obtain ⟨l', perm', arranged'⟩ := arrange ends'
  have filled : fillSeries snapshots now lookbackSeconds c ≠ [] := List.ne_nil_of_mem ends.first.1
  have same := blind_surface blind perm perm' filled 2
  unfold fillSeries at same
  rw [arranged, arranged'] at same
  exact move_eq (series_sane ends.first.1) (series_sane ends.last.1) (series_sane ends'.first.1)
    (series_sane ends'.last.1) endPrices_sane endPrices_sane same

theorem blind_opens :
    OpensAlike Prod.fst Prod.snd (fillSeries snapshots now lookbackSeconds c) := by
  intro p q first first'
  obtain ⟨r, listed, member, rfl⟩ := mem_series.mp first.1
  obtain ⟨s, listed', member', rfl⟩ := mem_series.mp first'.1
  by_contra differ
  have apart : s ≠ r := fun same => differ (by rw [same])
  obtain ⟨b, -, last⟩ := exists_getLast Prod.fst (List.ne_nil_of_mem first.1)
  obtain ⟨z, listed'', member'', rfl⟩ := mem_series.mp last.1
  by_cases once : z.capturedAt = r.capturedAt
  · have latest : Latest Prod.fst (fillSeries snapshots now lookbackSeconds c) r.point :=
      ⟨first.1, fun x inside => (last.2 x inside).trans once.le⟩
    have latest' : Latest Prod.fst (fillSeries snapshots now lookbackSeconds c) s.point :=
      ⟨first'.1, fun x inside => (latest.2 x inside).trans (first.key_eq first').le⟩
    have same := swing blind ⟨⟨listed, member⟩, ⟨listed', member'⟩, apart, first,
      latest'⟩ ⟨⟨listed', member'⟩, ⟨listed, member⟩, apart.symm, first', latest⟩
    have inverse : 1 / r.decimalOdds = 1 / s.decimalOdds := by linarith
    exact differ (eq_of_inv inverse)
  · have early : z ≠ r := fun same => once (congrArg SnapshotLike.capturedAt same)
    have early' : z ≠ s :=
      fun same => once ((congrArg SnapshotLike.capturedAt same).trans (first'.key_eq first))
    have same := swing blind ⟨⟨listed, member⟩, ⟨listed'', member''⟩, early,
      first, last⟩ ⟨⟨listed', member'⟩, ⟨listed'', member''⟩, early', first', last⟩
    have inverse : 1 / r.decimalOdds = 1 / s.decimalOdds := by linarith
    exact differ (eq_of_inv inverse)

theorem blind_closes :
    ClosesAlike Prod.fst Prod.snd (fillSeries snapshots now lookbackSeconds c) := by
  intro p q last last'
  obtain ⟨r, listed, member, rfl⟩ := mem_series.mp last.1
  obtain ⟨s, listed', member', rfl⟩ := mem_series.mp last'.1
  by_contra differ
  have apart : s ≠ r := fun same => differ (by rw [same])
  obtain ⟨a, -, first⟩ := exists_head Prod.fst (List.ne_nil_of_mem last.1)
  obtain ⟨z, listed'', member'', rfl⟩ := mem_series.mp first.1
  by_cases once : r.capturedAt = z.capturedAt
  · have earliest : Earliest Prod.fst (fillSeries snapshots now lookbackSeconds c) r.point :=
      ⟨last.1, fun x inside => once.le.trans (first.2 x inside)⟩
    exact differ (blind_opens blind _ _ earliest
      ⟨last'.1, fun x inside => (last'.key_eq last).le.trans (earliest.2 x inside)⟩)
  · have late : r ≠ z := fun same => once (congrArg SnapshotLike.capturedAt same)
    have late' : s ≠ z :=
      fun same => once ((last.key_eq last').trans (congrArg SnapshotLike.capturedAt same))
    have same := swing blind ⟨⟨listed'', member''⟩, ⟨listed, member⟩, late, first, last⟩
      ⟨⟨listed'', member''⟩, ⟨listed', member'⟩, late', first, last'⟩
    have inverse : 1 / r.decimalOdds = 1 / s.decimalOdds := by linarith
    exact differ (eq_of_inv inverse)

theorem blind_anchorOpens (filled : fillSeries snapshots now lookbackSeconds c ≠ []) :
    OpensAlike Prod.fst Prod.snd (anchorSeries snapshots now lookbackSeconds c) := by
  have front_of {r : SnapshotLike} (listed : r ∈ snapshots)
      (member : inSeries now lookbackSeconds c.key c.selection c.anchorBook r = true)
      (first : Earliest Prod.fst (anchorSeries snapshots now lookbackSeconds c) r.point) :
      ∃ (l : List SnapshotLike) (y : ℚ), l.Perm snapshots ∧ 1 < y ∧
        endPrices (sortedBy Prod.fst (anchorSeries l now lookbackSeconds c)) = some
          (r.decimalOdds, y) := by
    have perm := (List.perm_cons_erase listed).symm
    have opened := front member perm first
    have there := first.perm (series_perm perm).symm
    obtain ⟨b, closed, last⟩ := exists_getLast Prod.fst (List.ne_nil_of_mem there.1)
    refine ⟨_, b.2, perm, series_sane last.1, ?_⟩
    unfold anchorSeries
    rw [endPrices_eq, opened, closed]
    rfl
  have never {r s : SnapshotLike} (listed : r ∈ snapshots) (listed' : s ∈ snapshots)
      (member : inSeries now lookbackSeconds c.key c.selection c.anchorBook r = true)
      (member' : inSeries now lookbackSeconds c.key c.selection c.anchorBook s = true)
      (first : Earliest Prod.fst (anchorSeries snapshots now lookbackSeconds c) r.point)
      (first' : Earliest Prod.fst (anchorSeries snapshots now lookbackSeconds c) s.point) :
      ¬ r.decimalOdds < s.decimalOdds := by
    intro lt
    obtain ⟨l, y, perm, later, ends⟩ := front_of listed member first
    obtain ⟨l', y', perm', later', ends'⟩ := front_of listed' member' first'
    obtain ⟨o, f, fillEnds, opened, closed⟩ := exists_ends filled
    have same := blind_surface blind perm perm' filled (1 / r.decimalOdds - 1 / o.2)
    rw [endPrices_perm (blind_opens blind) (blind_closes blind) (fillSeries_perm (perm.filter _)),
      endPrices_perm (blind_opens blind) (blind_closes blind) (fillSeries_perm (perm'.filter _)),
        fillEnds, ends,
      ends'] at same
    exact opening_ne (series_sane opened.1) (series_sane closed.1) (series_sane first.1) later
      (series_sane first'.1) later' lt same
  intro p q first first'
  obtain ⟨r, listed, member, rfl⟩ := mem_series.mp first.1
  obtain ⟨s, listed', member', rfl⟩ := mem_series.mp first'.1
  exact le_antisymm (not_lt.mp (never listed' listed member' member first' first))
    (not_lt.mp (never listed listed' member member' first first'))

theorem blind_anchorCloses {o a : TrajectoryPoint}
    (opened : Earliest Prod.fst (fillSeries snapshots now lookbackSeconds c) o)
    (aOpened : Earliest Prod.fst (anchorSeries snapshots now lookbackSeconds c) a)
    (apart : o.2 ≠ a.2) :
    ClosesAlike Prod.fst Prod.snd (anchorSeries snapshots now lookbackSeconds c) := by
  have filled := List.ne_nil_of_mem opened.1
  have opens := blind_anchorOpens blind filled
  have back_of {r : SnapshotLike} (listed : r ∈ snapshots)
      (member : inSeries now lookbackSeconds c.key c.selection c.anchorBook r = true)
      (last : Latest Prod.fst (anchorSeries snapshots now lookbackSeconds c) r.point) :
      ∃ l : List SnapshotLike, l.Perm snapshots ∧
        endPrices (sortedBy Prod.fst (anchorSeries l now lookbackSeconds c)) = some
          (a.2, r.decimalOdds) := by
    have perm : (snapshots.erase r ++ [r]).Perm snapshots :=
      (List.perm_append_singleton _ _).trans (List.perm_cons_erase listed).symm
    have closed := back member perm last
    have there := last.perm (series_perm perm).symm
    obtain ⟨b, first, least⟩ := exists_head Prod.fst (List.ne_nil_of_mem there.1)
    refine ⟨_, perm, ?_⟩
    unfold anchorSeries
    rw [endPrices_eq, first, closed, ← opens b a (least.perm (series_perm perm)) aOpened]
    rfl
  intro p q last last'
  obtain ⟨r, listed, member, rfl⟩ := mem_series.mp last.1
  obtain ⟨s, listed', member', rfl⟩ := mem_series.mp last'.1
  obtain ⟨l, perm, ends⟩ := back_of listed member last
  obtain ⟨l', perm', ends'⟩ := back_of listed' member' last'
  obtain ⟨o', f, fillEnds, opened', closed⟩ := exists_ends filled
  have same := blind_surface blind perm perm' filled (1 / a.2 - 1 / o'.2)
  rw [endPrices_perm (blind_opens blind) (blind_closes blind) (fillSeries_perm (perm.filter _)),
    endPrices_perm (blind_opens blind) (blind_closes blind) (fillSeries_perm (perm'.filter _)),
      fillEnds, ends,
    ends'] at same
  rw [blind_opens blind o o' opened opened'] at apart
  exact closing_eq (series_sane opened'.1) (series_sane closed.1) (series_sane aOpened.1)
    (series_sane last.1) (series_sane last'.1) apart same

end Blind

/-- The order of the rows that a verdict may see matters exactly where rows of one capture time
disagree at an end that is read. -/
theorem orderBlind_iff (snapshots : List SnapshotLike) (now : Int) (lookbackSeconds : ℚ)
    (c : Candidate) :
    OrderBlind snapshots now lookbackSeconds c ↔
      EndsAgree (fillSeries snapshots now lookbackSeconds c)
        (anchorSeries snapshots now lookbackSeconds c) := by
  constructor
  · intro blind
    exact ⟨blind_opens blind, blind_closes blind, blind_anchorOpens blind,
      fun o a opened aOpened apart => blind_anchorCloses blind opened aOpened apart⟩
  · exact orderBlind_of_agree

end

/-! One book in two spellings, captured twice at one time. -/

def derbyKey : TrajectoryKey := ⟨"e7".toList, .h2h, none⟩

def derbyRow (book : String) (capturedAt : Int) (odds : ℚ) : SnapshotLike where
  eventId := "e7".toList
  bookmaker := book.toList
  market := .h2h
  selection := "Porto".toList
  decimalOdds := odds
  marketDetail := none
  capturedAt := capturedAt

def derbyBet : Candidate := ⟨derbyKey, "Porto".toList, "Bet365".toList, "Pinnacle".toList⟩

def derbyRows (last last' : SnapshotLike) : List SnapshotLike :=
  [derbyRow "Pinnacle" 0 2, derbyRow "Bet365" 0 (5 / 2), derbyRow "Pinnacle" (minutes 60) 2,
    last, last']

def longer : SnapshotLike := derbyRow "Bet365" (minutes 60) (12 / 5)

def shorter : SnapshotLike := derbyRow "bet365" (minutes 60) (11 / 5)

/-- The default policy trips on the bet for one order of the rows and not for the other. -/
theorem orderBlind_fails :
    (derbyRows longer shorter).Perm (derbyRows shorter longer) ∧
      ((@steamVerdict Unicode.ascii (derbyRows longer shorter) (minutes 60) {}
        derbyBet).toOption.map fun v =>
        (v.tripped, v.reasons)) = some (true, ["soft_toward_anchor".toList]) ∧
      ((@steamVerdict Unicode.ascii (derbyRows shorter longer) (minutes 60) {}
        derbyBet).toOption.map fun v =>
        (v.tripped, v.reasons)) = some (false, []) := by
  refine ⟨?_, ?_⟩
  · exact List.Perm.append_left [derbyRow "Pinnacle" 0 2, derbyRow "Bet365" 0 (5 / 2),
      derbyRow "Pinnacle" (minutes 60) 2] (List.Perm.swap _ _ _)
  · decide +kernel

end SharpEvPicks.Edge.Steam
