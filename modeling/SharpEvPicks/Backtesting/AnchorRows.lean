import SharpEvPicks.Backtesting.ArcadiaAnchor
import SharpEvPicks.Python.Grouping
import SharpEvPicks.Python.SortedEnds

/-! What a row of the anchor dataset says, by its observation and its group. -/
namespace SharpEvPicks.Backtesting.Arcadia

open Python Resolution Ingestion

/-! Complete sets. -/

section Sets
variable [CaseMaps] (aliases : AliasTable) (market : Market)

/-- The observations that have a side. -/
def resolved (group : List SnapshotObs) : List (Side × SnapshotObs) :=
  group.filterMap fun obs => (sideOf aliases market obs).map fun side => (side, obs)

/-- The sides observed at an instant. -/
def sidesAt (group : List SnapshotObs) (ts : Int) : Finset Side :=
  ((group.filter fun obs => obs.capturedAt = ts).filterMap (sideOf aliases market)).toFinset

/-- Every outcome of the market is observed at an instant. -/
def Complete (group : List SnapshotObs) (ts : Int) : Prop :=
  (sidesAt aliases market group ts).card = market.outcomesRequired

instance completeDecidable (group : List SnapshotObs) (ts : Int) :
    Decidable (Complete aliases market group ts) :=
  inferInstanceAs (Decidable ((sidesAt aliases market group ts).card = market.outcomesRequired))

variable {aliases market} {group group' : List SnapshotObs} {ts : Int} {side : Side}
  {obs : SnapshotObs}

theorem mem_resolved : (side, obs) ∈ resolved aliases market group ↔
    obs ∈ group ∧ sideOf aliases market obs = some side := by
  simp only [resolved, List.mem_filterMap, Option.map_eq_some_iff, Prod.mk.injEq]
  constructor
  · rintro ⟨obs, listed, side, found, rfl, rfl⟩
    exact ⟨listed, found⟩
  · rintro ⟨listed, found⟩
    exact ⟨obs, listed, side, found, rfl, rfl⟩

theorem mem_sidesAt : side ∈ sidesAt aliases market group ts ↔
    ∃ obs ∈ group, obs.capturedAt = ts ∧ sideOf aliases market obs = some side := by
  simp only [sidesAt, List.mem_toFinset, List.mem_filterMap, List.mem_filter, decide_eq_true_eq]
  constructor
  · rintro ⟨obs, ⟨listed, here⟩, found⟩
    exact ⟨obs, listed, here, found⟩
  · rintro ⟨obs, listed, here, found⟩
    exact ⟨obs, ⟨listed, here⟩, found⟩

theorem sidesAt_perm (perm : group.Perm group') (ts : Int) :
    sidesAt aliases market group ts = sidesAt aliases market group' ts := by
  ext side
  simp only [mem_sidesAt, perm.mem_iff]

theorem complete_perm (perm : group.Perm group') (ts : Int) :
    Complete aliases market group ts ↔ Complete aliases market group' ts := by
  rw [Complete, Complete, sidesAt_perm perm]

theorem exists_of_complete (complete : Complete aliases market group ts) :
    ∃ obs ∈ group, obs.capturedAt = ts ∧ (sideOf aliases market obs).isSome := by
  have filled : (sidesAt aliases market group ts).Nonempty := by
    rw [← Finset.card_pos, complete]
    cases market <;> decide
  obtain ⟨side, inside⟩ := filled
  obtain ⟨obs, listed, here, found⟩ := mem_sidesAt.mp inside
  exact ⟨obs, listed, here, by rw [found]; rfl⟩

theorem byCapture_eq (group : List SnapshotObs) : byCapture aliases market group =
    nestOf (fun found : Side × SnapshotObs => found.2.capturedAt) Prod.fst Prod.snd
      (resolved aliases market group) := rfl

/-- What is held at an instant for a side was observed then, and has that side. -/
theorem observed_of_mem (held : (ts, side, obs) ∈ flatten (byCapture aliases market group)) :
    obs ∈ group ∧ obs.capturedAt = ts ∧ sideOf aliases market obs = some side := by
  rw [mem_flatten_iff, byCapture_eq, get?_nestOf, Option.map_eq_some_iff] at held
  obtain ⟨⟨side', obs'⟩, last, rfl⟩ := held
  obtain ⟨listed, fits⟩ := List.mem_filter.mp (List.mem_of_getLast? last)
  obtain ⟨rfl, rfl⟩ := decide_eq_true_eq.mp fits
  obtain ⟨inside, found⟩ := mem_resolved.mp listed
  exact ⟨inside, rfl, found⟩

theorem held_unique {obs' : SnapshotObs}
    (held : (ts, side, obs) ∈ flatten (byCapture aliases market group))
    (held' : (ts, side, obs') ∈ flatten (byCapture aliases market group)) : obs = obs' := by
  rw [mem_flatten_iff] at held held'
  exact Option.some.inj (held.symm.trans held')

/-- An observation without a rival for its side at its instant is held. -/
theorem held_of_single (listed : obs ∈ group) (found : sideOf aliases market obs = some side)
    (single : ∀ obs' ∈ group, obs'.capturedAt = obs.capturedAt →
      sideOf aliases market obs' = some side → obs' = obs) :
    (obs.capturedAt, side, obs) ∈ flatten (byCapture aliases market group) := by
  rw [mem_flatten_iff, byCapture_eq, get?_nestOf, Option.map_eq_some_iff]
  have there : (side, obs) ∈ (resolved aliases market group).filter fun found =>
      found.2.capturedAt = obs.capturedAt ∧ found.1 = side :=
    List.mem_filter.mpr ⟨mem_resolved.mpr ⟨listed, found⟩, decide_eq_true ⟨rfl, rfl⟩⟩
  refine ⟨_, List.getLast?_eq_some_getLast (List.ne_nil_of_mem there), ?_⟩
  obtain ⟨inside, fits⟩ := List.mem_filter.mp (List.getLast_mem (List.ne_nil_of_mem there))
  obtain ⟨here, own⟩ := decide_eq_true_eq.mp fits
  obtain ⟨listed', found'⟩ := mem_resolved.mp inside
  exact single _ listed' here (found'.trans (congrArg some own))

theorem isComplete_iff {sides : Dict Side SnapshotObs}
    (there : (ts, sides) ∈ (byCapture aliases market group).entries) :
    isComplete market sides = true ↔ Complete aliases market group ts := by
  have keys : sides.keys.toFinset = sidesAt aliases market group ts := by
    ext side
    rw [List.mem_toFinset, mem_inner_keys there, mem_sidesAt]
    constructor
    · rintro ⟨⟨side', obs⟩, listed, here, own⟩
      cases own
      obtain ⟨inside, found⟩ := mem_resolved.mp listed
      exact ⟨obs, inside, here, found⟩
    · rintro ⟨obs, listed, here, found⟩
      exact ⟨(side, obs), mem_resolved.mpr ⟨listed, found⟩, here, rfl⟩
  have distinct : sides.keys.Nodup := sides.nodup
  have count : sides.entries.length = (sidesAt aliases market group ts).card := by
    rw [← keys, List.toFinset_card_of_nodup distinct]
    exact (List.length_map _).symm
  rw [isComplete, decide_eq_true_iff, count, Complete]

theorem mem_completeSets : ts ∈ (completeSets aliases market group).keys ↔
    Complete aliases market group ts := by
  constructor
  · intro inside
    obtain ⟨⟨ts, sides⟩, held, rfl⟩ := List.mem_map.mp inside
    obtain ⟨there, complete⟩ := List.mem_filter.mp held
    exact (isComplete_iff there).mp complete
  · intro complete
    obtain ⟨obs, listed, rfl, found⟩ := exists_of_complete complete
    obtain ⟨side, found⟩ := Option.isSome_iff_exists.mp found
    have there : obs.capturedAt ∈ (byCapture aliases market group).keys := by
      rw [byCapture_eq, mem_keys_nestOf]
      exact ⟨(side, obs), mem_resolved.mpr ⟨listed, found⟩, rfl⟩
    obtain ⟨⟨ts, sides⟩, held, same⟩ := List.mem_map.mp there
    dsimp only at same
    subst same
    exact List.mem_map.mpr ⟨_, List.mem_filter.mpr ⟨held, (isComplete_iff held).mpr complete⟩,
      rfl⟩

end Sets

/-! The instants chosen. -/

/-- Where an instant lies before a kick-off. -/
inductive Phase where
  | after | lastHour | window | stale
  deriving DecidableEq

def phase (ko ts : Int) : Phase :=
  if ko - ts < 0 then .after
  else if ko - ts < closeWindow then .lastHour
  else if ko - ts ≤ anchorMaxPreKo then .window
  else .stale

theorem phase_iff (ko ts : Int) :
    (phase ko ts = .after ↔ ko < ts) ∧
    (phase ko ts = .lastHour ↔ 0 ≤ ko - ts ∧ ko - ts < closeWindow) ∧
    (phase ko ts = .window ↔ anchorMinPreKo ≤ ko - ts ∧ ko - ts ≤ anchorMaxPreKo) ∧
    (phase ko ts = .stale ↔ anchorMaxPreKo < ko - ts) := by
  unfold phase anchorMinPreKo anchorMaxPreKo closeWindow seconds
  split
  · simp
    omega
  · split
    · simp
      omega
    · split
      · simp
        omega
      · simp
        omega

theorem scan_eq (ko : Int) (chosen : Chosen) (ts : Int) :
    chosen.scan ko ts =
      ⟨if phase ko ts = .window then some ts else chosen.anchor,
        if phase ko ts = .lastHour then some ts else chosen.close⟩ := by
  obtain ⟨-, lastHour, window, -⟩ := phase_iff ko ts
  unfold Chosen.scan
  simp only [← window, ← lastHour]
  cases phase ko ts <;> rfl

theorem scan_foldl (ko : Int) (instants : List Int) (chosen : Chosen) :
    instants.foldl (Chosen.scan ko) chosen =
      ⟨((instants.filter fun ts => phase ko ts = .window).getLast?).or chosen.anchor,
        ((instants.filter fun ts => phase ko ts = .lastHour).getLast?).or chosen.close⟩ := by
  induction instants generalizing chosen with
  | nil => rfl
  | cons ts instants ih =>
    rw [List.foldl_cons, ih, scan_eq]
    cases lies : phase ko ts <;> simp [lies, List.getLast?_cons]

/-- The last of a sorted list with a property is the greatest. -/
theorem getLast_filter_iff {l : List Int} {p : Int → Bool} {ts : Int} :
    ((sortedBy id l).filter p).getLast? = some ts ↔ ts ∈ l ∧ p ts ∧ ∀ ts' ∈ l, p ts' →
      ts' ≤ ts := by
  rw [filter_sortedBy]
  constructor
  · intro last
    obtain ⟨inside, greatest⟩ := latest_of_getLast last
    obtain ⟨listed, fits⟩ := List.mem_filter.mp inside
    exact ⟨listed, fits,
      fun ts' listed' fits' => greatest ts' (List.mem_filter.mpr ⟨listed', fits'⟩)⟩
  · rintro ⟨listed, fits, greatest⟩
    have inside : ts ∈ l.filter p := List.mem_filter.mpr ⟨listed, fits⟩
    obtain ⟨ts', last, inside', greatest'⟩ :=
      exists_getLast (id : Int → Int) (List.ne_nil_of_mem inside)
    obtain ⟨listed', fits'⟩ := List.mem_filter.mp inside'
    rw [last, Option.some.injEq]
    exact le_antisymm (greatest ts' listed' fits') (greatest' ts inside)

section Chosen
variable [CaseMaps] (aliases : AliasTable) (market : Market) (group : List SnapshotObs)

/-- The last complete instant of a phase. -/
def LastIn (ko : Int) (lies : Phase) (ts : Int) : Prop :=
  Complete aliases market group ts ∧ phase ko ts = lies ∧
    ∀ ts', Complete aliases market group ts' → phase ko ts' = lies → ts' ≤ ts

variable {aliases market group} {group' : List SnapshotObs} {ko ko' ts : Int} {lies : Phase}

theorem chosenOf_anchor : (chosenOf aliases market group ko).anchor = some ts ↔
    LastIn aliases market group ko .window ts := by
  rw [chosenOf, scan_foldl]
  dsimp only
  rw [Option.or_none, getLast_filter_iff]
  simp only [mem_completeSets, decide_eq_true_eq, LastIn]

theorem chosenOf_close : (chosenOf aliases market group ko).close = some ts ↔
    LastIn aliases market group ko .lastHour ts := by
  rw [chosenOf, scan_foldl]
  dsimp only
  rw [Option.or_none, getLast_filter_iff]
  simp only [mem_completeSets, decide_eq_true_eq, LastIn]

theorem LastIn.congr
    (same : ∀ ts, Complete aliases market group ts ↔ Complete aliases market group' ts)
    (alike : ∀ ts, Complete aliases market group ts → phase ko ts = phase ko' ts)
    (last : LastIn aliases market group ko lies ts) : LastIn aliases market group' ko' lies ts := by
  obtain ⟨complete, here, greatest⟩ := last
  refine ⟨(same ts).mp complete, (alike ts complete).symm.trans here,
    fun ts' complete' here' => ?_⟩
  have complete' := (same ts').mpr complete'
  exact greatest ts' complete' ((alike ts' complete').trans here')

/-- Two kick-offs that see the complete instants alike have one choice. -/
theorem chosenOf_congr
    (same : ∀ ts, Complete aliases market group ts ↔ Complete aliases market group' ts)
    (alike : ∀ ts, Complete aliases market group ts → phase ko ts = phase ko' ts) :
    chosenOf aliases market group ko = chosenOf aliases market group' ko' := by
  have back : ∀ ts, Complete aliases market group' ts → phase ko' ts = phase ko ts :=
    fun ts complete => (alike ts ((same ts).mpr complete)).symm
  apply Chosen.ext
  · apply Option.ext
    intro ts
    rw [chosenOf_anchor, chosenOf_anchor]
    exact ⟨LastIn.congr same alike, LastIn.congr (fun ts => (same ts).symm) back⟩
  · apply Option.ext
    intro ts
    rw [chosenOf_close, chosenOf_close]
    exact ⟨LastIn.congr same alike, LastIn.congr (fun ts => (same ts).symm) back⟩

end Chosen

/-! The rows of a group. -/

section Groups
variable [CaseMaps] (aliases : AliasTable)

/-- What the row of an observation says, in a group that begins with `first`. -/
def labelFor (marketKey : Str) (first : SnapshotObs) (group : List SnapshotObs)
    (obs : SnapshotObs) : Label :=
  match classifyMarket marketKey with
  | none => ⟨marketKey, matchPeriod, none, obs.selection, false, some .unsupportedMarket,
      .anchor⟩
  | some market =>
    match gate first with
    | some reason => market.rejected obs.selection reason
    | none =>
      match sideOf aliases market obs with
      | none => market.rejected obs.selection .selectionUnresolved
      | some side =>
        if Complete aliases market group obs.capturedAt then
          (chosenOf aliases market group first.startsAt).label first.startsAt market
            obs.capturedAt side
        else market.rejected side.text .incompleteOutcomeSet

/-- The observations that the sets of a group hold, after those without a side. -/
def heldIn (market : Market) (group : List SnapshotObs) : List SnapshotObs :=
  (group.filter fun obs => sideOf aliases market obs = none) ++
    (flatten (byCapture aliases market group)).map fun entry => entry.2.2

/-- The observations of a group that get a row. -/
def kept (marketKey : Str) (group : List SnapshotObs) : List SnapshotObs :=
  match classifyMarket marketKey, group.head?.bind gate with
  | some market, none => heldIn aliases market group
  | _, _ => group

variable {aliases} {market : Market} {marketKey : Str} {first obs : SnapshotObs}
  {others group : List SnapshotObs}

theorem mem_heldIn : obs ∈ heldIn aliases market group ↔
    (obs ∈ group ∧ sideOf aliases market obs = none) ∨
      ∃ side, (obs.capturedAt, side, obs) ∈ flatten (byCapture aliases market group) := by
  simp only [heldIn, List.mem_append, List.mem_filter, decide_eq_true_eq, List.mem_map, Prod.exists]
  apply or_congr Iff.rfl
  constructor
  · rintro ⟨ts, side, obs, held, rfl⟩
    obtain ⟨-, rfl, -⟩ := observed_of_mem held
    exact ⟨side, held⟩
  · rintro ⟨side, held⟩
    exact ⟨_, side, obs, held, rfl⟩

theorem mem_of_heldIn (listed : obs ∈ heldIn aliases market group) : obs ∈ group := by
  rcases mem_heldIn.mp listed with ⟨inside, -⟩ | ⟨side, held⟩
  · exact inside
  · exact (observed_of_mem held).1

theorem mem_of_kept (listed : obs ∈ kept aliases marketKey group) : obs ∈ group := by
  unfold kept at listed
  split at listed
  · exact mem_of_heldIn listed
  · exact listed

theorem kept_nil : kept aliases marketKey [] = [] := by
  unfold kept
  split <;> rfl

/-- The first observation opens the group. -/
theorem kept_open (kind : classifyMarket marketKey = some market) (filled : obs ∈ group)
    (opened : gate (group.headD obs) = none) :
      kept aliases marketKey group = heldIn aliases market group := by
  cases group with
  | nil => cases filled
  | cons first others =>
    have shut : ((first :: others).head?.bind gate) = none := opened
    rw [kept, kind, shut]

theorem kept_shut {reason : Rejection} (closed : gate (group.headD obs) = some reason)
    (filled : obs ∈ group) : kept aliases marketKey group = group := by
  cases group with
  | nil => cases filled
  | cons first others =>
    have shut : ((first :: others).head?.bind gate) = some reason := closed
    rw [kept, shut]
    cases classifyMarket marketKey <;> rfl

/-- One observation is held for a side at an instant. -/
theorem heldIn_single {obs' : SnapshotObs} (listed : obs ∈ heldIn aliases market group)
    (listed' : obs' ∈ heldIn aliases market group)
    (resolved : (sideOf aliases market obs).isSome)
    (same : sideOf aliases market obs = sideOf aliases market obs')
    (together : obs.capturedAt = obs'.capturedAt) : obs = obs' := by
  obtain ⟨side, found⟩ := Option.isSome_iff_exists.mp resolved
  have holds {o : SnapshotObs} (listed : o ∈ heldIn aliases market group)
      (found : sideOf aliases market o = some side) :
      (o.capturedAt, side, o) ∈ flatten (byCapture aliases market group) := by
    rcases mem_heldIn.mp listed with ⟨-, unresolved⟩ | ⟨side', held⟩
    · rw [found] at unresolved
      cases unresolved
    · obtain ⟨-, -, found'⟩ := observed_of_mem held
      rw [found] at found'
      cases found'
      exact held
  have held := holds listed found
  rw [together] at held
  exact held_unique held (holds listed' (same.symm.trans found))

theorem heldIn_nodup (distinct : group.Nodup) : (heldIn aliases market group).Nodup := by
  unfold heldIn
  rw [List.nodup_append]
  refine ⟨distinct.filter _, flatten_nodup.map_on ?_, ?_⟩
  · rintro ⟨ts, side, obs⟩ held ⟨ts', side', obs'⟩ held' same
    dsimp only at same
    subst same
    obtain ⟨-, rfl, found⟩ := observed_of_mem held
    obtain ⟨-, rfl, found'⟩ := observed_of_mem held'
    rw [found] at found'
    cases found'
    rfl
  · rintro obs unresolved obs' held rfl
    obtain ⟨⟨ts, side, obs⟩, inside, rfl⟩ := List.mem_map.mp held
    obtain ⟨-, -, found⟩ := observed_of_mem inside
    have none_there := of_decide_eq_true (List.mem_filter.mp unresolved).2
    dsimp only at none_there
    rw [found] at none_there
    cases none_there

section Open
variable {ts : Int} {side : Side} (kind : classifyMarket marketKey = some market)
  (closed : gate first = none)
include kind closed

theorem labelFor_unresolved (unresolved : sideOf aliases market obs = none) :
    labelFor aliases marketKey first group obs =
      market.rejected obs.selection .selectionUnresolved := by
  simp only [labelFor, kind, closed, unresolved]

theorem labelFor_resolved (found : sideOf aliases market obs = some side) :
    labelFor aliases marketKey first group obs =
      if Complete aliases market group obs.capturedAt then
        (chosenOf aliases market group first.startsAt).label first.startsAt market
          obs.capturedAt side
      else market.rejected side.text .incompleteOutcomeSet := by
  simp only [labelFor, kind, closed, found]

end Open

variable [Printers] {matched : Option CanonicalMatch}

omit [CaseMaps] in
theorem setRows_perm (sides : Dict Side SnapshotObs) (label : Side → Label) :
    (setRows matched sides label).Perm
    (sides.entries.map fun entry => row matched entry.2 (label entry.1)) :=
  (List.perm_insertionSort _ _).map _

/-- The rows of the sets of a group, complete or not. -/
theorem capturedRows_perm (kind : classifyMarket marketKey = some market)
    (closed : gate first = none) :
    (((sortedBy Prod.fst ((byCapture aliases market group).entries.filter fun set =>
      !isComplete market set.2)).flatMap
        fun set => setRows matched set.2 fun side =>
          market.rejected side.text .incompleteOutcomeSet) ++
      (sortedBy Prod.fst (completeSets aliases market group).entries).flatMap fun set =>
        setRows matched set.2
        ((chosenOf aliases market group first.startsAt).label first.startsAt market set.1)).Perm
    ((flatten (byCapture aliases market group)).map fun entry =>
      row matched entry.2.2 (labelFor aliases marketKey first group entry.2.2)) := by
  let pieces (set : Int × Dict Side SnapshotObs) : List AnchorRow :=
    set.2.entries.map fun entry =>
      row matched entry.2 (labelFor aliases marketKey first group entry.2)
  have said {set : Int ×
      Dict Side SnapshotObs} (there : set ∈ (byCapture aliases market group).entries)
      {label : Side → Label} (each : ∀ side, label side =
        if isComplete market set.2 then
          (chosenOf aliases market group first.startsAt).label first.startsAt market set.1 side
        else market.rejected side.text .incompleteOutcomeSet) :
      (setRows matched set.2 label).Perm (pieces set) := by
    refine (setRows_perm set.2 label).trans (.of_eq (List.map_congr_left fun entry inside => ?_))
    have held : (set.1, entry.1, entry.2) ∈ flatten (byCapture aliases market group) :=
      mem_flatten.mpr ⟨set.2, there, inside⟩
    obtain ⟨-, here, found⟩ := observed_of_mem held
    rw [each, labelFor_resolved kind closed found, here]
    simp only [← isComplete_iff there]
  have incomplete : ((sortedBy Prod.fst ((byCapture aliases market group).entries.filter fun set =>
      !isComplete market set.2)).flatMap fun set => setRows matched set.2 fun side =>
        market.rejected side.text .incompleteOutcomeSet).Perm
      (((byCapture aliases market group).entries.filter fun set =>
        !isComplete market set.2).flatMap pieces) := by
    refine .flatMap (List.perm_insertionSort _ _) fun set listed => ?_
    obtain ⟨there, partly⟩ := List.mem_filter.mp (mem_sortedBy.mp listed)
    exact said there fun side => by rw [if_neg (by simpa using partly)]
  have complete : ((sortedBy Prod.fst (completeSets aliases market group).entries).flatMap
      fun set => setRows matched set.2
      ((chosenOf aliases market group first.startsAt).label first.startsAt market set.1)).Perm
      (((byCapture aliases market group).entries.filter fun set =>
        isComplete market set.2).flatMap pieces) := by
    refine .flatMap (List.perm_insertionSort _ _) fun set listed => ?_
    obtain ⟨there, whole⟩ := List.mem_filter.mp (mem_sortedBy.mp listed)
    exact said there fun side => by rw [if_pos whole]
  refine (incomplete.append complete).trans ?_
  rw [← List.flatMap_append]
  refine ((List.perm_append_comm.trans (List.filter_append_perm _ _)).flatMap_right pieces).trans
    (.of_eq ?_)
  simp only [flatten, List.map_flatMap, List.map_map]
  rfl

/-- The rows of a group say of each observation that gets one what its label says. -/
theorem groupRows_perm : (groupRows aliases matched marketKey (first :: others)).Perm
    ((kept aliases marketKey (first :: others)).map fun obs =>
      row matched obs (labelFor aliases marketKey first (first :: others) obs)) := by
  unfold groupRows kept
  rw [List.head?_cons, Option.bind_some]
  cases kind : classifyMarket marketKey with
  | none =>
    simp only [labelFor, kind]
    exact .refl _
  | some market =>
    cases closed : gate first with
    | some reason =>
      simp only [labelFor, kind, closed]
      exact .refl _
    | none =>
      simp only [closed]
      rw [heldIn, List.map_append, List.map_map, List.append_assoc]
      refine .append (.of_eq (List.map_congr_left fun obs listed => ?_))
        (capturedRows_perm kind closed)
      rw [labelFor_unresolved kind closed (of_decide_eq_true (List.mem_filter.mp listed).2)]

end Groups

/-! The rows of a dataset. -/

section Dataset
variable [CaseMaps] (aliases : AliasTable) (observations : List SnapshotObs)

/-- The observations of the market of the event that `obs` is of. -/
def groupIn (obs : SnapshotObs) : List SnapshotObs :=
  observations.filter fun other => groupKey other = groupKey obs

def labelIn (obs : SnapshotObs) : Label :=
  labelFor aliases obs.market ((groupIn observations obs).headD obs) (groupIn observations obs) obs

def keptIn : List SnapshotObs :=
  (byEventMarket observations).entries.flatMap fun entry => kept aliases entry.1.2 entry.2

variable {aliases observations} {obs : SnapshotObs}

omit [CaseMaps] in
theorem mem_groupIn {other : SnapshotObs} :
    other ∈ groupIn observations obs ↔
      other ∈ observations ∧ groupKey other = groupKey obs := by
  rw [groupIn, List.mem_filter, decide_eq_true_iff]

omit [CaseMaps] in
theorem self_mem_groupIn (listed : obs ∈ observations) : obs ∈ groupIn observations obs :=
  mem_groupIn.mpr ⟨listed, rfl⟩

omit [CaseMaps] in
theorem groupIn_congr {other : SnapshotObs} (same : groupKey other = groupKey obs) :
    groupIn observations other = groupIn observations obs := by
  rw [groupIn, groupIn, same]

omit [CaseMaps] in
theorem groupIn_of_entry {entry : (Int × Str) × List SnapshotObs}
    (there : entry ∈ (byEventMarket observations).entries) (inside : obs ∈ entry.2) :
      entry.1 = groupKey obs ∧ entry.2 = groupIn observations obs := by
  have group := group_of_mem there
  rw [group, List.mem_filter, decide_eq_true_iff] at inside
  refine ⟨inside.2.symm, ?_⟩
  rw [group, groupIn, inside.2]

theorem mem_keptIn : obs ∈ keptIn aliases observations ↔
    obs ∈ observations ∧ obs ∈ kept aliases obs.market (groupIn observations obs) := by
  rw [keptIn, List.mem_flatMap]
  constructor
  · rintro ⟨entry, there, listed⟩
    obtain ⟨key, group⟩ := groupIn_of_entry there (mem_of_kept listed)
    have inside := mem_of_kept listed
    rw [group] at inside listed
    rw [key] at listed
    exact ⟨(mem_groupIn.mp inside).1, listed⟩
  · rintro ⟨inside, listed⟩
    exact ⟨_, entry_of_mem inside, listed⟩

variable [Printers] {canonicalMatches : Dict Int CanonicalMatch}

theorem buildAnchorRows_perm : (buildAnchorRows aliases canonicalMatches observations).Perm
    ((keptIn aliases observations).map fun obs =>
      row (canonicalMatches.get? obs.eventId) obs (labelIn aliases observations obs)) := by
  rw [keptIn, List.map_flatMap, buildAnchorRows]
  refine .flatMap (List.perm_insertionSort _ _) fun entry listed => ?_
  have there := mem_sortedBy.mp listed
  cases group : entry.2 with
  | nil =>
    rw [kept_nil]
    exact .refl _
  | cons first others =>
    refine groupRows_perm.trans (.of_eq (List.map_congr_left fun obs held => ?_))
    have inside := mem_of_kept held
    rw [← group] at inside
    obtain ⟨key, own⟩ := groupIn_of_entry there inside
    have event : entry.1.1 = obs.eventId := congrArg Prod.fst key
    have market : entry.1.2 = obs.market := congrArg Prod.snd key
    rw [labelIn, ← own, group, List.headD_cons, event, market]

omit [Printers] in
/-- Every observation gets a row when each group keeps its own. -/
theorem keptIn_perm (each : ∀ obs ∈ observations,
    (kept aliases obs.market (groupIn observations obs)).Perm (groupIn observations obs)) :
    (keptIn aliases observations).Perm observations := by
  refine .trans ?_ (flatMap_groupsOf_perm groupKey observations)
  refine .flatMap_left _ fun entry there => ?_
  cases group : entry.2 with
  | nil => rw [kept_nil]
  | cons first others =>
    have inside : first ∈ entry.2 := by
      rw [group]
      exact List.mem_cons_self
    obtain ⟨key, own⟩ := groupIn_of_entry there inside
    have listed : first ∈ observations := by
      rw [own] at inside
      exact (mem_groupIn.mp inside).1
    have market : entry.1.2 = first.market := congrArg Prod.snd key
    rw [market, ← group, own]
    exact each first listed

end Dataset

end SharpEvPicks.Backtesting.Arcadia
