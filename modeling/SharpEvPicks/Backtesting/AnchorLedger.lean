import SharpEvPicks.Backtesting.AnchorRows

/-! When the anchor dataset has a row for each observation, and one anchor for each market. -/
namespace SharpEvPicks.Backtesting.Arcadia

open Python Resolution Ingestion

/-! What a label tells. -/

section Labels
variable {chosen chosen' : Chosen} {ko ko' ts : Int} {market : Market} {side : Side}

theorem label_anchor_iff :
    ((chosen.label ko market ts side).usable = true ∧
      (chosen.label ko market ts side).role = .anchor) ↔
    chosen.anchor = some ts := by
  unfold Chosen.label Market.rejected
  split
  · rename_i own
    exact iff_of_true ⟨rfl, rfl⟩ own
  · rename_i other
    split
    · simp [other]
    · simp [other]

theorem label_close_iff : (chosen.label ko market ts side).role = .closeSecondary ↔
    chosen.anchor ≠ some ts ∧ chosen.close = some ts := by
  unfold Chosen.label Market.rejected
  split
  · rename_i own
    simp [own]
  · rename_i other
    split
    · rename_i own
      simp [other, own]
    · rename_i none_there
      simp [none_there]

theorem label_close_gap (usable : (chosen.label ko market ts side).usable = true)
    (close : (chosen.label ko market ts side).role = .closeSecondary) {anchor : Int}
    (picked : chosen.anchor = some anchor) : minAnchorCloseGap ≤ ts - anchor := by
  obtain ⟨other, own⟩ := label_close_iff.mp close
  unfold Chosen.label at usable
  rw [if_neg other, if_pos own, picked] at usable
  simpa using usable

/-- Usable labels of one role are of one instant. -/
theorem label_together {ts' : Int} {side' : Side}
    (usable : (chosen.label ko market ts side).usable = true)
    (usable' : (chosen.label ko market ts' side').usable = true)
    (same : (chosen.label ko market ts side).role = (chosen.label ko market ts' side').role) :
      ts = ts' := by
  cases role : (chosen.label ko market ts side).role with
  | anchor =>
    have picked := label_anchor_iff.mp ⟨usable, role⟩
    rw [label_anchor_iff.mp ⟨usable', same.symm.trans role⟩, Option.some.injEq] at picked
    exact picked.symm
  | closeSecondary =>
    have picked := (label_close_iff.mp role).2
    rw [(label_close_iff.mp (same.symm.trans role)).2, Option.some.injEq] at picked
    exact picked.symm

theorem label_reason (useless : (chosen.label ko market ts side).usable = false) :
    (chosen.label ko market ts side).reason.isSome := by
  unfold Chosen.label Market.rejected at useless ⊢
  split at useless <;> rename_i own
  · cases useless
  · rw [if_neg own]
    split at useless <;> rename_i last
    · rw [if_pos last]
      have tautological :
          (chosen.anchor.any fun anchor => ts - anchor < minAnchorCloseGap) = true := by
        simpa using useless
      dsimp only
      rw [if_pos tautological]
      rfl
    · rw [if_neg last]
      rfl

theorem label_selection : (chosen.label ko market ts side).selection = side.text := by
  unfold Chosen.label Market.rejected
  split
  · rfl
  · split <;> rfl

theorem label_marketType : (chosen.label ko market ts side).marketType = market.text := by
  unfold Chosen.label Market.rejected
  split
  · rfl
  · split <;> rfl

theorem label_stale_iff (other : chosen.anchor ≠ some ts) (other' : chosen.close ≠ some ts) :
    (chosen.label ko market ts side).reason = some .anchorStale ↔ anchorMaxPreKo < ko - ts := by
  unfold Chosen.label Market.rejected
  rw [if_neg other, if_neg other']
  split <;> simp [*]

end Labels

/-! The labels of the complete instants tell the phases. -/

section Phases
variable [CaseMaps] {aliases : AliasTable} {market : Market} {group : List SnapshotObs}
  {ko ko' ts : Int}

theorem exists_last {lies : Phase} (complete : Complete aliases market group ts)
    (here : phase ko ts = lies) :
    ∃ last, LastIn aliases market group ko lies last ∧ ts ≤ last := by
  have inside : ts ∈ (completeSets aliases market group).keys.filter fun ts =>
      phase ko ts = lies :=
    List.mem_filter.mpr ⟨mem_completeSets.mpr complete, decide_eq_true here⟩
  obtain ⟨last, -, there, greatest⟩ :=
    exists_getLast (id : Int → Int) (List.ne_nil_of_mem inside)
  obtain ⟨listed, lies'⟩ := List.mem_filter.mp there
  refine ⟨last, ⟨mem_completeSets.mp listed, of_decide_eq_true lies',
    fun ts' complete' here' => ?_⟩, greatest ts inside⟩
  exact greatest ts' (List.mem_filter.mpr
    ⟨mem_completeSets.mpr complete', decide_eq_true here'⟩)

theorem window_iff (complete : Complete aliases market group ts) : phase ko ts = .window ↔
    phase ko ts ≠ .stale ∧ ∃ anchor,
      (chosenOf aliases market group ko).anchor = some anchor ∧ ts ≤ anchor := by
  constructor
  · intro here
    obtain ⟨anchor, last, before⟩ := exists_last complete here
    exact ⟨by rw [here]; nofun, anchor, chosenOf_anchor.mpr last, before⟩
  · rintro ⟨recent, anchor, picked, before⟩
    obtain ⟨-, lies, -⟩ := chosenOf_anchor.mp picked
    rw [(phase_iff ko anchor).2.2.1] at lies
    rw [ne_eq, (phase_iff ko ts).2.2.2] at recent
    rw [(phase_iff ko ts).2.2.1]
    omega

theorem lastHour_iff (complete : Complete aliases market group ts) : phase ko ts = .lastHour ↔
    phase ko ts ≠ .stale ∧ phase ko ts ≠ .window ∧
      ∃ close, (chosenOf aliases market group ko).close = some close ∧ ts ≤ close := by
  constructor
  · intro here
    obtain ⟨close, last, before⟩ := exists_last complete here
    exact ⟨by rw [here]; nofun, by rw [here]; nofun, close, chosenOf_close.mpr last, before⟩
  · rintro ⟨recent, outside, close, picked, before⟩
    obtain ⟨-, lies, -⟩ := chosenOf_close.mp picked
    rw [(phase_iff ko close).2.1] at lies
    cases here : phase ko ts with
    | after =>
      rw [(phase_iff ko ts).1] at here
      omega
    | lastHour => rfl
    | window => exact absurd here outside
    | stale => exact absurd here recent

/-- One choice and the same stale instants are the same phases. -/
theorem phase_congr (complete : Complete aliases market group ts)
    (same : chosenOf aliases market group ko = chosenOf aliases market group ko')
    (stale : phase ko ts = .stale ↔ phase ko' ts = .stale) : phase ko ts = phase ko' ts := by
  have window : phase ko ts = .window ↔ phase ko' ts = .window := by
    rw [window_iff complete, window_iff complete, same, ne_eq, ne_eq, stale]
  have lastHour : phase ko ts = .lastHour ↔ phase ko' ts = .lastHour := by
    rw [lastHour_iff complete, lastHour_iff complete, same, ne_eq, ne_eq, ne_eq, ne_eq,
      stale, window]
  cases here : phase ko ts <;> cases here' : phase ko' ts <;>
    simp [here, here'] at stale window lastHour ⊢

variable (aliases market group) in
/-- Two kick-offs label the complete instants alike. -/
def SameLabels (ko ko' : Int) : Prop := ∀ ts, Complete aliases market group ts → ∃ side,
  (chosenOf aliases market group ko).label ko market ts side =
    (chosenOf aliases market group ko').label ko' market ts side

namespace SameLabels

theorem symm (alike : SameLabels aliases market group ko ko') :
    SameLabels aliases market group ko' ko := by
  intro ts complete
  obtain ⟨side, same⟩ := alike ts complete
  exact ⟨side, same.symm⟩

theorem anchor (alike : SameLabels aliases market group ko ko')
    (picked : (chosenOf aliases market group ko).anchor = some ts) :
      (chosenOf aliases market group ko').anchor = some ts := by
  obtain ⟨side, same⟩ := alike ts (chosenOf_anchor.mp picked).1
  have labelled : ((chosenOf aliases market group ko).label ko market ts side).usable = true ∧
      ((chosenOf aliases market group ko).label ko market ts side).role = .anchor :=
        label_anchor_iff.mpr picked
  rw [same] at labelled
  exact label_anchor_iff.mp labelled

theorem close (alike : SameLabels aliases market group ko ko')
    (picked : (chosenOf aliases market group ko).close = some ts) :
      (chosenOf aliases market group ko').close = some ts := by
  obtain ⟨complete, lies, -⟩ := chosenOf_close.mp picked
  obtain ⟨side, same⟩ := alike ts complete
  have apart : (chosenOf aliases market group ko).anchor ≠ some ts := by
    intro picked'
    rw [(chosenOf_anchor.mp picked').2.1] at lies
    cases lies
  have role : ((chosenOf aliases market group ko).label ko market ts side).role = .closeSecondary :=
    label_close_iff.mpr ⟨apart, picked⟩
  rw [same] at role
  exact (label_close_iff.mp role).2

theorem chosen (alike : SameLabels aliases market group ko ko') :
    chosenOf aliases market group ko = chosenOf aliases market group ko' := by
  apply Chosen.ext
  · apply Option.ext
    exact fun ts => ⟨alike.anchor, alike.symm.anchor⟩
  · apply Option.ext
    exact fun ts => ⟨alike.close, alike.symm.close⟩

theorem stale (alike : SameLabels aliases market group ko ko')
    (complete : Complete aliases market group ts) (early : phase ko ts = .stale) :
      phase ko' ts = .stale := by
  obtain ⟨side, same⟩ := alike ts complete
  have other : (chosenOf aliases market group ko).anchor ≠ some ts := by
    intro picked
    rw [(chosenOf_anchor.mp picked).2.1] at early
    cases early
  have other' : (chosenOf aliases market group ko).close ≠ some ts := by
    intro picked
    rw [(chosenOf_close.mp picked).2.1] at early
    cases early
  have reason : ((chosenOf aliases market group ko).label ko market ts side).reason =
      some .anchorStale :=
    (label_stale_iff other other').mpr ((phase_iff ko ts).2.2.2.mp early)
  rw [same] at reason
  rw [alike.chosen] at other other'
  exact (phase_iff ko' ts).2.2.2.mpr ((label_stale_iff other other').mp reason)

theorem phase (alike : SameLabels aliases market group ko ko')
    (complete : Complete aliases market group ts) : phase ko ts = phase ko' ts :=
  phase_congr complete alike.chosen ⟨alike.stale complete, alike.symm.stale complete⟩

end SameLabels

end Phases

/-! The ledger. -/

section Ledger
variable [CaseMaps] (aliases : AliasTable)

/-- The labels of one market of an event, with the instant of its anchor. -/
structure Picks (market : Market) (group : List SnapshotObs) (label : SnapshotObs → Label)
    (anchor : Option Int) : Prop where
  anchors : ∀ obs ∈ group, ((label obs).usable = true ∧ (label obs).role = .anchor) ↔
    (anchor = some obs.capturedAt ∧ (sideOf aliases market obs).isSome)
  single : ∀ obs ∈ group, ∀ obs' ∈ group, (label obs).usable = true →
    (label obs').usable = true → (label obs).role = (label obs').role →
      sideOf aliases market obs = sideOf aliases market obs' → obs = obs'
  sides : ∀ obs ∈ group, (label obs).usable = true →
    (sideOf aliases market obs).map Side.text = some (label obs).selection
  complete : ∀ ts, anchor = some ts → Complete aliases market group ts
  window : ∀ ts, anchor = some ts → ∀ obs ∈ group, hours 1 ≤ obs.startsAt - ts ∧
    obs.startsAt - ts ≤ hours 24
  latest : ∀ ts, anchor = some ts → ∀ ts', Complete aliases market group ts' →
    (∃ obs ∈ group, hours 1 ≤ obs.startsAt - ts' ∧ obs.startsAt - ts' ≤ hours 24) →
      ts' ≤ ts
  missing : anchor = none → (∀ obs ∈ group, (gate obs).isSome) ∨
    ∀ ts, Complete aliases market group ts →
      ∀ obs ∈ group, ¬ (hours 1 ≤ obs.startsAt - ts ∧ obs.startsAt - ts ≤ hours 24)
  closes : ∀ obs ∈ group, (label obs).usable = true → (label obs).role = .closeSecondary →
    0 ≤ obs.startsAt - obs.capturedAt ∧ obs.startsAt - obs.capturedAt < hours 1 ∧
      ∀ ts, anchor = some ts → minutes 30 ≤ obs.capturedAt - ts
  reasons : ∀ obs ∈ group, (label obs).usable = false → (label obs).reason.isSome

/-- The first observation of a group does not matter, and no two are of one side at one instant. -/
structure Steady (market : Market) (group : List SnapshotObs) : Prop where
  gates : ∀ first ∈ group, ∀ first' ∈ group, gate first = gate first'
  single : ∀ first ∈ group, gate first = none → ∀ obs ∈ group, ∀ obs' ∈ group,
    obs.capturedAt = obs'.capturedAt → (sideOf aliases market obs).isSome →
      sideOf aliases market obs = sideOf aliases market obs' → obs = obs'
  phases : ∀ first ∈ group, gate first = none →
    ∀ first' ∈ group, ∀ ts, Complete aliases market group ts →
    phase first.startsAt ts = phase first'.startsAt ts

/-- The observations of each eligible market of an event are steady. -/
def SteadyIn (observations : List SnapshotObs) : Prop :=
  ∀ obs ∈ observations, ∀ market, classifyMarket obs.market = some market →
    Steady aliases market (groupIn observations obs)

variable [Printers] (canonicalMatches : Dict Int CanonicalMatch)

/-- One row for each observation, one anchor at most for each market of an event, and no part in
this for the order of the observations. -/
structure Ledger (observations : List SnapshotObs) : Prop where
  rows : ∃ label : SnapshotObs → Label,
    (buildAnchorRows aliases canonicalMatches observations).Perm
      (observations.map fun obs => row (canonicalMatches.get? obs.eventId) obs (label obs)) ∧
    ∀ obs ∈ observations,
      (∀ market, classifyMarket obs.market = some market →
        ∃ anchor, Picks aliases market (groupIn observations obs) label anchor) ∧
      (classifyMarket obs.market = none → (label obs).usable = false ∧
        (label obs).reason.isSome)
  reordered : ∀ observations', observations.Perm observations' →
    (buildAnchorRows aliases canonicalMatches observations').Perm
      (buildAnchorRows aliases canonicalMatches observations)

end Ledger

/-! A steady dataset. -/

section Steady
variable [CaseMaps] {aliases : AliasTable} {market : Market} {marketKey : Str}
  {group group' observations : List SnapshotObs} {first first' obs : SnapshotObs}

theorem heldIn_perm (distinct : group.Nodup)
    (single : ∀ obs ∈ group, ∀ obs' ∈ group, obs.capturedAt = obs'.capturedAt →
      (sideOf aliases market obs).isSome →
        sideOf aliases market obs = sideOf aliases market obs' → obs = obs') :
    (heldIn aliases market group).Perm group := by
  rw [List.perm_ext_iff_of_nodup (heldIn_nodup distinct) distinct]
  intro obs
  refine ⟨mem_of_heldIn, fun listed => mem_heldIn.mpr ?_⟩
  cases found : sideOf aliases market obs with
  | none => exact .inl ⟨listed, rfl⟩
  | some side =>
    refine .inr ⟨side, held_of_single listed found fun obs' listed' together found' => ?_⟩
    exact (single obs listed obs' listed' together.symm (by
      rw [found]; rfl) (found.trans found'.symm)).symm

theorem labelFor_perm (perm : group.Perm group') : labelFor aliases marketKey first group obs =
    labelFor aliases marketKey first group' obs := by
  unfold labelFor
  split
  · rfl
  · rename_i market _
    have chosen : chosenOf aliases market group first.startsAt =
        chosenOf aliases market group' first.startsAt :=
      chosenOf_congr (complete_perm perm) fun _ _ => rfl
    simp only [complete_perm perm, chosen]

/-- A group whose first observation is refused has labels of no use. -/
theorem labelFor_refused {reason : Rejection} (kind : classifyMarket marketKey = some market)
    (closed : gate first = some reason) :
    labelFor aliases marketKey first group obs = market.rejected obs.selection reason := by
  simp only [labelFor, kind, closed]

theorem picks_refused {label : SnapshotObs → Label} {reason : Rejection}
    (steady : Steady aliases market group) (kind : classifyMarket marketKey = some market)
    (inside : first ∈ group) (closed : gate first = some reason)
    (labels : ∀ obs ∈ group, label obs = labelFor aliases marketKey first group obs) :
    Picks aliases market group label none := by
  have useless : ∀ obs ∈ group, (label obs).usable = false ∧ (label obs).reason.isSome := by
    intro obs listed
    rw [labels obs listed, labelFor_refused kind closed]
    exact ⟨rfl, rfl⟩
  have never {obs : SnapshotObs} (listed : obs ∈ group) (usable : (label obs).usable = true) :
      False := by
    rw [(useless obs listed).1] at usable
    cases usable
  constructor
  · intro obs listed
    exact iff_of_false (fun usable => never listed usable.1) (fun picked => nomatch picked.1)
  · intro obs listed _ _ usable
    exact (never listed usable).elim
  · intro obs listed usable
    exact (never listed usable).elim
  · exact nofun
  · exact nofun
  · exact nofun
  · intro _
    refine .inl fun obs listed => ?_
    rw [← steady.gates first inside obs listed, closed]
    rfl
  · intro obs listed usable
    exact (never listed usable).elim
  · intro obs listed _
    exact (useless obs listed).2

omit [CaseMaps] in
theorem phase_window {ko ts : Int} :
    phase ko ts = .window ↔ hours 1 ≤ ko - ts ∧ ko - ts ≤ hours 24 :=
      (phase_iff ko ts).2.2.1

/-- What a usable label is. -/
theorem usable_label (kind : classifyMarket marketKey = some market) (opened : gate first = none)
    (usable : (labelFor aliases marketKey first group obs).usable = true) :
    ∃ side, sideOf aliases market obs = some side ∧
      Complete aliases market group obs.capturedAt ∧ labelFor aliases marketKey first group obs =
        (chosenOf aliases market group first.startsAt).label first.startsAt market obs.capturedAt
          side := by
  cases found : sideOf aliases market obs with
  | none =>
    rw [labelFor_unresolved kind opened found] at usable
    cases usable
  | some side =>
    rw [labelFor_resolved kind opened found] at usable ⊢
    split at usable
    · rename_i complete
      exact ⟨side, rfl, complete, if_pos complete⟩
    · cases usable

theorem picks_open {label : SnapshotObs → Label} (steady : Steady aliases market group)
    (kind : classifyMarket marketKey = some market) (inside : first ∈ group)
    (opened : gate first = none)
    (labels : ∀ obs ∈ group, label obs = labelFor aliases marketKey first group obs) :
    Picks aliases market group label (chosenOf aliases market group first.startsAt).anchor := by
  have usable_of {obs : SnapshotObs} (listed : obs ∈ group) (usable : (label obs).usable = true) :
      ∃ side, sideOf aliases market obs = some side ∧
        Complete aliases market group obs.capturedAt ∧
        label obs = (chosenOf aliases market group first.startsAt).label first.startsAt market
          obs.capturedAt side := by
    rw [labels obs listed] at usable ⊢
    exact usable_label kind opened usable
  have moved {obs : SnapshotObs} (listed : obs ∈ group) {ts : Int}
      (complete : Complete aliases market group ts) :
      phase obs.startsAt ts = phase first.startsAt ts :=
        (steady.phases first inside opened obs listed ts complete).symm
  constructor
  · intro obs listed
    constructor
    · rintro ⟨usable, role⟩
      obtain ⟨side, found, -, same⟩ := usable_of listed usable
      rw [same] at usable role
      exact ⟨label_anchor_iff.mp ⟨usable, role⟩, by rw [found]; rfl⟩
    · rintro ⟨picked, resolved⟩
      obtain ⟨side, found⟩ := Option.isSome_iff_exists.mp resolved
      rw [labels obs listed, labelFor_resolved kind opened found,
        if_pos (chosenOf_anchor.mp picked).1]
      exact label_anchor_iff.mpr picked
  · intro obs listed obs' listed' usable usable' role sides
    obtain ⟨side, found, -, same⟩ := usable_of listed usable
    obtain ⟨side', -, -, same'⟩ := usable_of listed' usable'
    refine steady.single first inside opened obs listed obs' listed' ?_ (by rw [found]; rfl) sides
    rw [same] at usable
    rw [same'] at usable'
    rw [same, same'] at role
    exact label_together usable usable' role
  · intro obs listed usable
    obtain ⟨side, found, -, same⟩ := usable_of listed usable
    rw [found, same, label_selection, Option.map_some]
  · intro ts picked
    exact (chosenOf_anchor.mp picked).1
  · intro ts picked obs listed
    obtain ⟨complete, lies, -⟩ := chosenOf_anchor.mp picked
    rw [← phase_window, moved listed complete, lies]
  · rintro ts picked ts' complete ⟨obs, listed, lies⟩
    rw [← phase_window, moved listed complete] at lies
    exact (chosenOf_anchor.mp picked).2.2 ts' complete lies
  · intro none_picked
    refine .inr fun ts complete obs listed lies => ?_
    rw [← phase_window, moved listed complete] at lies
    obtain ⟨anchor, last, -⟩ := exists_last complete lies
    rw [chosenOf_anchor.mpr last] at none_picked
    cases none_picked
  · intro obs listed usable role
    obtain ⟨side, -, complete, same⟩ := usable_of listed usable
    rw [same] at usable role
    have lies := (chosenOf_close.mp (label_close_iff.mp role).2).2.1
    rw [← moved listed complete, (phase_iff _ _).2.1] at lies
    exact ⟨lies.1, lies.2, fun ts picked => label_close_gap usable role picked⟩
  · intro obs listed useless
    rw [labels obs listed] at useless ⊢
    cases found : sideOf aliases market obs with
    | none =>
      rw [labelFor_unresolved kind opened found]
      rfl
    | some side =>
      rw [labelFor_resolved kind opened found] at useless ⊢
      split at useless <;> rename_i complete
      · rw [if_pos complete]
        exact label_reason useless
      · rw [if_neg complete]
        rfl

theorem Steady.perm (steady : Steady aliases market group) (perm : group.Perm group') :
    Steady aliases market group' where
  gates first inside first' inside' :=
    steady.gates first (perm.mem_iff.mpr inside) first' (perm.mem_iff.mpr inside')
  single first inside opened obs listed obs' listed' :=
    steady.single first (perm.mem_iff.mpr inside) opened obs (perm.mem_iff.mpr listed) obs'
      (perm.mem_iff.mpr listed')
  phases first inside opened first' inside' ts complete :=
    steady.phases first (perm.mem_iff.mpr inside) opened first' (perm.mem_iff.mpr inside') ts
      ((complete_perm perm ts).mpr complete)

/-- In a steady group any observation may come first. -/
theorem Steady.labelFor_eq (steady : Steady aliases market group)
    (kind : classifyMarket marketKey = some market) (inside : first ∈ group)
    (inside' : first' ∈ group) :
    labelFor aliases marketKey first group obs = labelFor aliases marketKey first' group obs := by
  have gates := steady.gates first inside first' inside'
  cases closed : gate first with
  | some reason =>
    rw [closed] at gates
    rw [labelFor_refused kind closed, labelFor_refused kind gates.symm]
  | none =>
    rw [closed] at gates
    have alike := steady.phases first inside closed first' inside'
    have chosen : chosenOf aliases market group first.startsAt =
        chosenOf aliases market group first'.startsAt :=
      chosenOf_congr (fun _ => Iff.rfl) alike
    cases found : sideOf aliases market obs with
    | none => rw [labelFor_unresolved kind closed found, labelFor_unresolved kind gates.symm found]
    | some side =>
      rw [labelFor_resolved kind closed found, labelFor_resolved kind gates.symm found, chosen]
      split
      · rename_i complete
        have stale : anchorMaxPreKo < first.startsAt - obs.capturedAt ↔
            anchorMaxPreKo < first'.startsAt - obs.capturedAt := by
          rw [← (phase_iff _ _).2.2.2, ← (phase_iff _ _).2.2.2, alike _ complete]
        unfold Chosen.label
        simp only [stale]
      · rfl

omit [CaseMaps] in
theorem groupIn_perm {observations' : List SnapshotObs} (perm : observations.Perm observations')
    (obs : SnapshotObs) :
    (groupIn observations obs).Perm (groupIn observations' obs) := perm.filter _

omit [CaseMaps] in
theorem headD_mem (filled : obs ∈ group) (default : SnapshotObs) :
    group.headD default ∈ group := by
  cases group with
  | nil => cases filled
  | cons first others => exact List.mem_cons_self

theorem SteadyIn.perm {observations' : List SnapshotObs} (steady : SteadyIn aliases observations)
    (perm : observations.Perm observations') : SteadyIn aliases observations' :=
      fun obs listed market kind =>
  (steady obs (perm.mem_iff.mpr listed) market kind).perm (groupIn_perm perm obs)

theorem labelFor_unsupported (kind : classifyMarket marketKey = none) :
    labelFor aliases marketKey first group obs =
      ⟨marketKey, matchPeriod, none, obs.selection, false, some .unsupportedMarket,
        .anchor⟩ := by
  simp only [labelFor, kind]

theorem SteadyIn.labelIn_eq {observations' : List SnapshotObs}
    (steady : SteadyIn aliases observations) (perm : observations.Perm observations')
    (listed : obs ∈ observations) :
    labelIn aliases observations obs = labelIn aliases observations' obs := by
  have groups := groupIn_perm perm obs
  have self := self_mem_groupIn listed
  unfold labelIn
  rw [← labelFor_perm groups]
  cases kind : classifyMarket obs.market with
  | none => rw [labelFor_unsupported kind, labelFor_unsupported kind]
  | some market =>
    exact (steady obs listed market kind).labelFor_eq kind (headD_mem self obs)
      (groups.mem_iff.mpr (headD_mem (groups.mem_iff.mp self) obs))

theorem SteadyIn.kept_perm (steady : SteadyIn aliases observations)
    (distinct : observations.Nodup) : (keptIn aliases observations).Perm observations := by
  refine keptIn_perm fun obs listed => ?_
  have self := self_mem_groupIn listed
  cases kind : classifyMarket obs.market with
  | none => rw [kept, kind]
  | some market =>
    cases closed : gate ((groupIn observations obs).headD obs) with
    | some reason => rw [kept_shut closed self]
    | none =>
      rw [kept_open kind self closed]
      exact heldIn_perm (distinct.filter _)
        ((steady obs listed market kind).single _ (headD_mem self obs) closed)

theorem ledger_of_steady [Printers] {canonicalMatches : Dict Int CanonicalMatch}
    (distinct : observations.Nodup) (steady : SteadyIn aliases observations) :
      Ledger aliases canonicalMatches observations := by
  have rows {l : List SnapshotObs} (perm : observations.Perm l) :
      (buildAnchorRows aliases canonicalMatches l).Perm (observations.map fun obs =>
        row (canonicalMatches.get? obs.eventId) obs (labelIn aliases observations obs)) := by
    refine buildAnchorRows_perm.trans ?_
    refine ((((steady.perm perm).kept_perm (perm.nodup distinct)).trans perm.symm).map _).trans
      (.of_eq ?_)
    refine List.map_congr_left fun obs listed => ?_
    rw [steady.labelIn_eq perm listed]
  refine ⟨⟨labelIn aliases observations, rows (.refl _),
    fun obs listed => ⟨fun market kind => ?_, fun kind => ?_⟩⟩,
    fun observations' perm => (rows perm).trans (rows (.refl _)).symm⟩
  · have own := steady obs listed market kind
    have inside := headD_mem (self_mem_groupIn listed) obs
    have labels : ∀ other ∈ groupIn observations obs, labelIn aliases observations other =
        labelFor aliases obs.market ((groupIn observations obs).headD obs)
          (groupIn observations obs) other := by
      intro other listed'
      obtain ⟨-, same⟩ := mem_groupIn.mp listed'
      have market' : other.market = obs.market := congrArg Prod.snd same
      rw [labelIn, groupIn_congr same, market']
      exact own.labelFor_eq kind (headD_mem listed' other) inside
    cases closed : gate ((groupIn observations obs).headD obs) with
    | some reason => exact ⟨none, picks_refused own kind inside closed labels⟩
    | none => exact ⟨_, picks_open own kind inside closed labels⟩
  · rw [labelIn, labelFor_unsupported kind]
    exact ⟨rfl, rfl⟩

end Steady

/-! What the ledger needs. -/

section Needed
variable [CaseMaps] {aliases : AliasTable} {market : Market} {marketKey : Str}
  {group observations : List SnapshotObs} {first first' obs obs' : SnapshotObs}

def Rejection.isGate (reason : Rejection) : Bool :=
  reason = .sportIneligible || reason = .windowIneligible

omit [CaseMaps] in
theorem gate_isGate {reason : Rejection} (closed : gate first = some reason) :
    reason.isGate = true := by
  unfold gate at closed
  split at closed
  · cases closed
    rfl
  · split at closed
    · cases closed
    · cases closed
      rfl

omit [CaseMaps] in
theorem label_not_gate (chosen : Chosen) (ko ts : Int) (market : Market) (side : Side) :
    (chosen.label ko market ts side).reason.filter Rejection.isGate = none := by
  unfold Chosen.label Market.rejected
  split
  · rfl
  · split
    · dsimp only
      split <;> rfl
    · dsimp only
      split <;> rfl

/-- A label tells whether the group was refused. -/
theorem gate_of_label (kind : classifyMarket marketKey = some market) :
    (labelFor aliases marketKey first group obs).reason.filter Rejection.isGate = gate first := by
  cases closed : gate first with
  | some reason =>
    rw [labelFor_refused kind closed]
    exact Option.filter_some_pos (gate_isGate closed)
  | none =>
    cases found : sideOf aliases market obs with
    | none =>
      rw [labelFor_unresolved kind closed found]
      rfl
    | some side =>
      rw [labelFor_resolved kind closed found]
      split
      · exact label_not_gate _ _ _ _ _
      · rfl

variable [Printers] {canonicalMatches : Dict Int CanonicalMatch} {label : SnapshotObs → Label}

omit [CaseMaps] in
theorem row_inj {matched matched' : Option CanonicalMatch} {said said' : Label}
    (same : row matched obs said = row matched' obs' said') :
      obs.snapshotId = obs'.snapshotId ∧ said = said' := by
  simp only [row, AnchorRow.mk.injEq] at same
  obtain ⟨-, -, -, -, -, -, -, -, -, marketType, period, line, selection, -, -, -, id, -, -, -,
    usable, reason, role⟩ := same
  cases said
  cases said'
  simp_all

/-- With a row for each observation in any order, each observation keeps its place and its label. -/
theorem told (distinct : (observations.map SnapshotObs.snapshotId).Nodup)
    (rows : (buildAnchorRows aliases canonicalMatches observations).Perm
      (observations.map fun obs => row (canonicalMatches.get? obs.eventId) obs (label obs)))
    (reordered : ∀ observations', observations.Perm observations' →
      (buildAnchorRows aliases canonicalMatches observations').Perm
      (buildAnchorRows aliases canonicalMatches observations))
    {l : List SnapshotObs} (perm : observations.Perm l) (listed : obs ∈ observations) :
    obs ∈ keptIn aliases l ∧ labelIn aliases l obs = label obs := by
  have there : row (canonicalMatches.get? obs.eventId) obs (label obs) ∈
      buildAnchorRows aliases canonicalMatches l :=
    (reordered l perm).mem_iff.mpr (rows.mem_iff.mpr (List.mem_map.mpr ⟨obs, listed, rfl⟩))
  obtain ⟨other, held, same⟩ := List.mem_map.mp (buildAnchorRows_perm.mem_iff.mp there)
  obtain ⟨id, said⟩ := row_inj same
  have inside : other ∈ observations := perm.mem_iff.mpr (mem_keptIn.mp held).1
  obtain rfl := List.inj_on_of_nodup_map distinct inside listed id
  exact ⟨held, said⟩

theorem steady_of_ledger (distinct : (observations.map SnapshotObs.snapshotId).Nodup)
    (ledger : Ledger aliases canonicalMatches observations) : SteadyIn aliases observations := by
  intro whose listed market kind
  obtain ⟨label, rows, -⟩ := ledger.rows
  -- put any observation of the group first
  have labels {first obs : SnapshotObs} (inside : first ∈ groupIn observations whose)
      (inside' : obs ∈ groupIn observations whose) :
      labelFor aliases whose.market first (groupIn observations whose) obs = label obs := by
    obtain ⟨there, same⟩ := mem_groupIn.mp inside
    obtain ⟨there', same'⟩ := mem_groupIn.mp inside'
    have perm : observations.Perm (first :: observations.erase first) := List.perm_cons_erase there
    rw [← (told distinct rows ledger.reordered perm there').2, labelIn]
    have front : (groupIn (first :: observations.erase first) obs).headD obs = first := by
      rw [groupIn, List.filter_cons_of_pos (by simp [same, same']), List.headD_cons]
    have market' : obs.market = whose.market := congrArg Prod.snd same'
    have groups := groupIn_perm perm obs
    rw [groupIn_congr same'] at groups
    rw [front, market', labelFor_perm groups]
  have gates : ∀ first ∈ groupIn observations whose, ∀ first' ∈ groupIn observations whose,
      gate first = gate first' := by
    intro first inside first' inside'
    have told : labelFor aliases whose.market first (groupIn observations whose) first =
        labelFor aliases whose.market first' (groupIn observations whose) first :=
      (labels inside inside).trans (labels inside' inside).symm
    exact (gate_of_label kind).symm.trans
      ((congrArg (fun l => l.reason.filter Rejection.isGate) told).trans (gate_of_label kind))
  refine ⟨gates, ?_, ?_⟩
  · intro first inside opened obs held obs' held' together resolved sides
    have keeps {o : SnapshotObs} (held : o ∈ groupIn observations whose) :
        o ∈ heldIn aliases market (groupIn observations whose) := by
      obtain ⟨there, same⟩ := mem_groupIn.mp held
      have kept := (mem_keptIn.mp (told distinct rows ledger.reordered (.refl _) there).1).2
      have market' : o.market = whose.market := congrArg Prod.snd same
      have opened' : gate ((groupIn observations whose).headD o) = none := by
        rw [gates _ (headD_mem held o) first inside, opened]
      rwa [groupIn_congr same, market', kept_open kind held opened'] at kept
    exact heldIn_single (keeps held) (keeps held') resolved sides together
  · intro first inside opened first' inside' ts complete
    have opened' : gate first' = none := (gates first inside first' inside').symm.trans opened
    refine SameLabels.phase (fun ts complete => ?_) complete
    obtain ⟨obs, held, here, resolved⟩ := exists_of_complete complete
    obtain ⟨side, found⟩ := Option.isSome_iff_exists.mp resolved
    have same := (labels inside held).trans (labels inside' held).symm
    subst here
    rw [labelFor_resolved kind opened found, labelFor_resolved kind opened' found, if_pos complete,
      if_pos complete] at same
    exact ⟨side, same⟩

/-- The ledger holds of steady observations and of no others. -/
theorem buildAnchorRows_iff (aliases : AliasTable) (canonicalMatches : Dict Int CanonicalMatch)
    (observations : List SnapshotObs) (distinct : (observations.map SnapshotObs.snapshotId).Nodup) :
    Ledger aliases canonicalMatches observations ↔ SteadyIn aliases observations :=
  ⟨steady_of_ledger distinct, ledger_of_steady distinct.of_map⟩

end Needed

/-! A line that is captured once. -/

@[reducible] def Printers.evens : Printers where
  dumps _ := []
  decimal price := if price = 2 then "2".toList else "1.9".toList

theorem goalsQuote_dated : InCalendar (days 20639 + hours 15) := by
  unfold InCalendar
  decide

/-- A quote of the line of 2.5 goals, two hours before a game. -/
def goalsQuote (id : Int) (selection : String) (price : ℚ) : SnapshotObs where
  snapshotId := id
  eventId := 7
  sportKey := "pinnacle_soccer".toList
  league := "England - Premier League".toList
  home := "Ajax".toList
  away := "Feyenoord".toList
  startsAt := days 20639 + hours 15
  market := "over_under_2_5".toList
  selection := selection.toList
  decimalOdds := price
  capturedAt := days 20639 + hours 13
  dated := goalsQuote_dated

/-- A group of one sport and one kick-off is steady when no two of its observations are of one side
at one instant. -/
theorem steady_of_alike [CaseMaps] {aliases : AliasTable} {market : Market}
    {group : List SnapshotObs} {sport : Str} {ko : Int}
    (alike : ∀ obs ∈ group, obs.sportKey = sport ∧ obs.startsAt = ko)
    (single : ∀ obs ∈ group, ∀ obs' ∈ group, obs.capturedAt = obs'.capturedAt →
      (sideOf aliases market obs).isSome →
        sideOf aliases market obs = sideOf aliases market obs' → obs = obs') :
    Steady aliases market group where
  gates first inside first' inside' := by
    obtain ⟨sport, ko⟩ := alike first inside
    obtain ⟨sport', ko'⟩ := alike first' inside'
    rw [gate, gate, sport, ko, sport', ko']
  single _ _ _ := single
  phases first inside _ first' inside' ts _ := by
    rw [(alike first inside).2, (alike first' inside').2]

def goalsLine : List SnapshotObs := [goalsQuote 1 "Over" (19 / 10), goalsQuote 2 "Under" 2]

theorem goalsLine_group : ∀ obs ∈ goalsLine, groupIn goalsLine obs = goalsLine := by
  decide +kernel

theorem goalsLine_single :
    ∀ obs ∈ goalsLine, ∀ obs' ∈ goalsLine, obs.capturedAt = obs'.capturedAt →
    (@sideOf CaseMaps.ascii AliasTable.empty .ou25 obs).isSome →
      @sideOf CaseMaps.ascii AliasTable.empty .ou25 obs =
        @sideOf CaseMaps.ascii AliasTable.empty .ou25 obs' → obs = obs' := by
  decide +kernel

theorem goalsLine_steady : @SteadyIn CaseMaps.ascii AliasTable.empty goalsLine := by
  intro obs listed market kind
  rw [goalsLine_group obs listed]
  have goals : ∀ obs ∈ goalsLine, classifyMarket obs.market = some .ou25 := by decide +kernel
  rw [goals obs listed, Option.some.injEq] at kind
  subst kind
  have alike : ∀ obs ∈ goalsLine, obs.sportKey = "pinnacle_soccer".toList ∧
      obs.startsAt = days 20639 + hours 15 := by
    decide +kernel
  exact @steady_of_alike CaseMaps.ascii AliasTable.empty .ou25 goalsLine _ _ alike goalsLine_single

theorem buildAnchorRows_iff_goals :
    @Ledger CaseMaps.ascii AliasTable.empty Printers.evens Dict.empty goalsLine :=
  (@buildAnchorRows_iff CaseMaps.ascii Printers.evens AliasTable.empty Dict.empty goalsLine (by
    decide)).mpr goalsLine_steady

/-- The same side twice at an instant. -/
def overTwice : List SnapshotObs :=
  [goalsQuote 1 "Over" (19 / 10), goalsQuote 2 "Over 2.5" 2, goalsQuote 3 "Under" 2]

theorem overTwice_rows :
    (@buildAnchorRows CaseMaps.ascii Printers.evens AliasTable.empty Dict.empty overTwice).length =
      2 := by
  decide +kernel

theorem buildAnchorRows_fails : (overTwice.map SnapshotObs.snapshotId).Nodup ∧
    ¬ @Ledger CaseMaps.ascii AliasTable.empty Printers.evens Dict.empty overTwice := by
  refine ⟨by decide, ?_⟩
  rintro ⟨⟨label, rows, -⟩, -⟩
  have count := rows.length_eq
  rw [overTwice_rows, List.length_map] at count
  cases count

end SharpEvPicks.Backtesting.Arcadia
