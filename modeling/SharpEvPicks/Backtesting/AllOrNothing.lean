import SharpEvPicks.Backtesting.AnchorLedger
import SharpEvPicks.Backtesting.AnchorMatch
import SharpEvPicks.Resolution.OrderBlind

/-! Anchors are attached to a row for every selection, from one quote of one event, or not at all.
-/
namespace SharpEvPicks.Backtesting.Arcadia

open Python Resolution Ingestion

/-! The kick-off of a row. -/

/-- A text that stands only at the end is replaced there. -/
theorem replace_last {c : Char} {sep' before : Str} (new : Str) (absent : c ∉ before) :
    replace (c :: sep') new (before ++ c :: sep') = before ++ new := by
  have first : ∀ tail, tail <:+ before → tail ≠ [] →
      ¬ c :: sep' <+: tail ++ (c :: sep') ++ [] := by
    intro tail suffix filled starts
    obtain ⟨d, rest, rfl⟩ := List.exists_cons_of_ne_nil filled
    obtain rfl : c = d := by simpa using (List.cons_prefix_cons.mp starts).1
    exact absent (suffix.subset List.mem_cons_self)
  have parts := splitSeqFrom_between first []
  rw [List.append_nil] at parts
  rw [replace, splitSeq, parts, List.reverse_nil, List.nil_append]
  simp [splitSeqFrom, join, List.intersperse]

/-- A character of a date and time before its offset. -/
def Stamp (c : Char) : Prop := c.isDigit ∨ c ∈ ['-', 'T', ':', '.']

theorem stamp_padded {width n : Nat} {c : Char} (inside : c ∈ padded width n) : Stamp c := by
  rcases List.mem_append.mp inside with zero | digit
  · rw [(List.mem_replicate.mp zero).2]
    exact .inl (by decide)
  · exact .inl (natText_digit digit)

theorem isoformat_split (t : Int) :
    ∃ body, isoformat t = body ++ "+00:00".toList ∧ ∀ c ∈ body, Stamp c := by
  refine ⟨_, rfl, ?_⟩
  intro c inside
  simp only [List.mem_append, List.mem_cons] at inside
  rcases inside with (((((year | rfl | month) | rfl | day) | rfl | hour) | rfl | minute) | rfl |
    second) | micro
  all_goals first | exact stamp_padded ‹_› | exact .inr (by decide) | skip
  split at micro
  · cases micro
  · rcases List.mem_cons.mp micro with rfl | micro
    · exact .inr (by decide)
    · exact stamp_padded micro

theorem not_stamp {c : Char} (other : ¬ Stamp c) {body : Str} (stamps : ∀ c ∈ body, Stamp c) :
    c ∉ body :=
  fun inside => other (stamps c inside)

/-- What the join reads is what the dataset was printed from. -/
theorem replace_iso (t : Int) : replace "Z".toList "+00:00".toList (iso t) = isoformat t := by
  obtain ⟨body, shape, stamps⟩ := isoformat_split t
  have plus : '+' ∉ body := not_stamp (by unfold Stamp; decide) stamps
  have zulu : 'Z' ∉ body := not_stamp (by unfold Stamp; decide) stamps
  have printed : iso t = body ++ "Z".toList := by
    rw [iso, shape]
    exact replace_last "Z".toList plus
  rw [printed, shape]
  exact replace_last "+00:00".toList zulu

/-! Usable anchors. -/

section Anchors
variable [CaseMaps] {aliases : AliasTable} {canonicalMatches : Dict Int CanonicalMatch}
  {observations : List SnapshotObs}

omit [CaseMaps] in
theorem classifyMarket_inj {marketKey marketKey' : Str} {market : Market}
    (kind : classifyMarket marketKey = some market)
    (kind' : classifyMarket marketKey' = some market) : marketKey = marketKey' := by
  unfold classifyMarket at kind kind'
  split at kind <;> rename_i key
  · cases kind
    split at kind' <;> rename_i key'
    · rw [key, key']
    · split at kind' <;> cases kind'
  · split at kind <;> rename_i goals
    · cases kind
      split at kind' <;> rename_i key'
      · cases kind'
      · split at kind' <;> rename_i goals'
        · rw [goals, goals']
        · cases kind'
    · cases kind

omit [CaseMaps] in
theorem Market.text_inj {market market' : Market} (same : market.text = market'.text) :
    market = market' := by
  cases market <;> cases market' <;> first | rfl | exact absurd same (by decide)

omit [CaseMaps] in
theorem Side.text_inj {side side' : Side} (same : side.text = side'.text) : side = side' := by
  cases side <;> cases side' <;> first | rfl | exact absurd same (by decide)

/-- What a usable anchor row is the row of. -/
structure AnchorFor (aliases : AliasTable) (observations : List SnapshotObs) (obs : SnapshotObs)
    (market : Market) (side : Side) : Prop where
  listed : obs ∈ observations
  held : obs ∈ heldIn aliases market (groupIn observations obs)
  kind : classifyMarket obs.market = some market
  found : sideOf aliases market obs = some side
  instant : (chosenOf aliases market (groupIn observations obs)
    ((groupIn observations obs).headD obs).startsAt).anchor = some obs.capturedAt
  text : (labelIn aliases observations obs).marketType = market.text
  selection : (labelIn aliases observations obs).selection = side.text

theorem anchorFor_of_usable {obs : SnapshotObs} (kept : obs ∈ keptIn aliases observations)
    (usable : (labelIn aliases observations obs).usable = true)
    (role : (labelIn aliases observations obs).role = .anchor) :
    ∃ market side, AnchorFor aliases observations obs market side := by
  obtain ⟨listed, held⟩ := mem_keptIn.mp kept
  cases kind : classifyMarket obs.market with
  | none =>
    rw [labelIn, labelFor_unsupported kind] at usable
    cases usable
  | some market =>
    cases closed : gate ((groupIn observations obs).headD obs) with
    | some reason =>
      rw [labelIn, labelFor_refused kind closed] at usable
      cases usable
    | none =>
      obtain ⟨side, found, complete, label⟩ := usable_label kind closed usable
      rw [kept_open kind (self_mem_groupIn listed) closed] at held
      rw [labelIn, label] at usable role
      refine ⟨market, side, listed, held, kind, found,
        label_anchor_iff.mp ⟨usable, role⟩, ?_, ?_⟩
      · rw [labelIn, label, label_marketType]
      · rw [labelIn, label, label_selection]

variable {obs obs' : SnapshotObs} {market market' : Market} {side side' : Side}

/-- The anchors of one market of an event are of one instant. -/
theorem AnchorFor.together (one : AnchorFor aliases observations obs market side)
    (other : AnchorFor aliases observations obs' market side')
    (event : obs.eventId = obs'.eventId) :
    groupKey obs' = groupKey obs ∧ obs'.capturedAt = obs.capturedAt := by
  have key : groupKey obs' = groupKey obs :=
    Prod.ext event.symm (classifyMarket_inj other.kind one.kind)
  have group : groupIn observations obs' = groupIn observations obs := groupIn_congr key
  have first : (groupIn observations obs).headD obs' = (groupIn observations obs).headD obs := by
    have inside := self_mem_groupIn one.listed
    cases listed : groupIn observations obs with
    | nil =>
      rw [listed] at inside
      cases inside
    | cons first others => rfl
  have instant := other.instant
  rw [group, first, one.instant, Option.some.injEq] at instant
  exact ⟨key, instant.symm⟩

theorem AnchorFor.unique (one : AnchorFor aliases observations obs market side)
    (other : AnchorFor aliases observations obs' market side) (event : obs.eventId = obs'.eventId) :
      obs = obs' := by
  obtain ⟨key, instant⟩ := one.together other event
  have held := other.held
  rw [groupIn_congr key] at held
  exact heldIn_single one.held held (by
    rw [one.found]; rfl) (one.found.trans other.found.symm) instant.symm

section Rows
variable [Printers] {anchorRows : List AnchorRow} {fixture : ValidationFixture} {r r' : AnchorRow}
  (dataset : anchorRows.Perm (buildAnchorRows aliases canonicalMatches observations))
include dataset

/-- A row that may be picked for a fixture. -/
theorem candidate_spec (listed : r ∈ candidatesOf fixture (poolOf fixture anchorRows)) :
    ∃ obs market side,
    r = row (canonicalMatches.get? obs.eventId) obs (labelIn aliases observations obs) ∧
      AnchorFor aliases observations obs market side ∧ market.text = fixture.marketType ∧
      side.text = fixture.selection := by
  obtain ⟨pooled, fits⟩ := List.mem_filter.mp listed
  obtain ⟨inside, usable⟩ := List.mem_filter.mp pooled
  simp only [Bool.and_eq_true, decide_eq_true_eq] at fits usable
  obtain ⟨obs, kept, rfl⟩ :=
    List.mem_map.mp (buildAnchorRows_perm.mem_iff.mp (dataset.mem_iff.mp inside))
  obtain ⟨market, side, anchor⟩ := anchorFor_of_usable kept usable.1.1 usable.1.2
  exact ⟨obs, market, side, rfl, anchor, anchor.text.symm.trans fits.1.1.1,
    anchor.selection.symm.trans fits.2⟩

/-- Of an event, one row may be picked. -/
theorem candidate_unique (listed : r ∈ candidatesOf fixture (poolOf fixture anchorRows))
    (listed' : r' ∈ candidatesOf fixture (poolOf fixture anchorRows))
    (event : r.sourceEventId = r'.sourceEventId) : r = r' := by
  obtain ⟨obs, market, side, rfl, anchor, kind, own⟩ := candidate_spec dataset listed
  obtain ⟨obs', market', side', rfl, anchor', kind', own'⟩ := candidate_spec dataset listed'
  obtain rfl := Market.text_inj (kind.trans kind'.symm)
  obtain rfl := Side.text_inj (own.trans own'.symm)
  have event : obs.eventId = obs'.eventId := event
  rw [anchor.unique anchor' event]

end Rows

end Anchors

/-! The rows accepted for a fixture. -/

section Accepted
variable [Unicode] [Readers] (aliases : AliasTable) (fixture : ValidationFixture)

def inWindow (r : AnchorRow) : Bool :=
  r.kickoff.any fun kickoff => |kickoff - fixture.kickoff| ≤ minutes validationKickoffWindow

def accepts (r : AnchorRow) : Bool :=
  inWindow fixture r && !vetoed fixture r &&
    r.kickoff.any fun kickoff =>
      (matchEventHardenedScored (fixture.query aliases) [r.candidate kickoff]).1.isSome

/-- The accepted rows by their events. -/
def acceptedOf (candidates : List AnchorRow) : Dict Int AnchorRow :=
  (candidates.filter (accepts aliases fixture)).foldl
    (fun accepted r => accepted.set r.sourceEventId r) Dict.empty

variable {aliases fixture} {candidates candidates' : List AnchorRow}

theorem consider_eq {state : Considered} {r : AnchorRow} {kickoff : Int}
    (dated : r.kickoff = some kickoff) :
    consider aliases fixture state r = some
      ⟨if accepts aliases fixture r then state.accepted.set r.sourceEventId r else state.accepted,
        state.anyInWindow || inWindow fixture r⟩ := by
  unfold consider accepts inWindow
  rw [dated]
  simp only [Option.map_some, Option.any_some, Option.some.injEq]
  split
  · rename_i far
    simp [not_le.mpr far]
  · rename_i near
    have near := not_lt.mp near
    split
    · rename_i veto
      simp [near, veto]
    · rename_i clear
      split
      · rename_i found
        simp [near, clear, found]
      · rename_i missed
        simp [near, missed]

theorem consider_foldlM (dated : ∀ r ∈ candidates, r.kickoff.isSome) (state : Considered) :
    candidates.foldlM (consider aliases fixture) state = some
      ⟨(candidates.filter (accepts aliases fixture)).foldl
        (fun accepted r => accepted.set r.sourceEventId r) state.accepted,
        state.anyInWindow || candidates.any (inWindow fixture)⟩ := by
  induction candidates generalizing state with
  | nil => simp
  | cons r candidates ih =>
    obtain ⟨first, rest⟩ := List.forall_mem_cons.mp dated
    obtain ⟨kickoff, first⟩ := Option.isSome_iff_exists.mp first
    rw [List.foldlM_cons, consider_eq first]
    refine (ih rest _).trans ?_
    rw [List.any_cons, Bool.or_assoc]
    cases takes : accepts aliases fixture r with
    | true => rw [List.filter_cons_of_pos takes]; rfl
    | false => rw [List.filter_cons_of_neg (by simp [takes])]; rfl

omit [Unicode] [Readers] in
/-- With one row for each event, what is held for an event is its row. -/
theorem get?_foldl_event {l : List AnchorRow}
    (alone : ∀ r ∈ l, ∀ r' ∈ l, r.sourceEventId = r'.sourceEventId → r = r')
    {event : Int} {r : AnchorRow} :
    (l.foldl (fun accepted r => accepted.set r.sourceEventId r) Dict.empty).get? event = some r ↔
      r ∈ l ∧ r.sourceEventId = event := by
  have run := Dict.get?_foldl_modify AnchorRow.sourceEventId (fun _ r => r) l Dict.empty event
  have last : (l.filter fun r => r.sourceEventId = event).foldl (fun _ r =>
      some r) (none : Option AnchorRow) = (l.filter fun r => r.sourceEventId = event).getLast? := by
    induction (l.filter fun r => r.sourceEventId = event) using List.reverseRecOn with
    | nil => rfl
    | append_singleton front r _ => rw [List.foldl_append, List.getLast?_concat]; rfl
  have found : (l.foldl (fun accepted r => accepted.set r.sourceEventId r) Dict.empty).get? event =
      (l.filter fun r => r.sourceEventId = event).getLast? := run.trans last
  rw [found]
  constructor
  · intro here
    obtain ⟨listed, own⟩ := List.mem_filter.mp (List.mem_of_getLast? here)
    exact ⟨listed, of_decide_eq_true own⟩
  · rintro ⟨listed, own⟩
    have inside : r ∈ l.filter fun r => r.sourceEventId = event :=
      List.mem_filter.mpr ⟨listed, decide_eq_true own⟩
    rw [List.getLast?_eq_some_getLast (List.ne_nil_of_mem inside), Option.some.injEq]
    obtain ⟨listed', own'⟩ := List.mem_filter.mp (List.getLast_mem (List.ne_nil_of_mem inside))
    exact alone _ listed' _ listed ((of_decide_eq_true own').trans own.symm)

variable (candidates) in
/-- Of an event, one candidate. -/
def Alone : Prop :=
  ∀ r ∈ candidates, ∀ r' ∈ candidates, r.sourceEventId = r'.sourceEventId → r = r'

theorem mem_acceptedOf (alone : Alone candidates) {r : AnchorRow} :
    r ∈ (acceptedOf aliases fixture candidates).values ↔
      r ∈ candidates ∧ accepts aliases fixture r = true := by
  have alone' : ∀ r ∈ candidates.filter (accepts aliases fixture),
      ∀ r' ∈ candidates.filter (accepts aliases fixture),
      r.sourceEventId = r'.sourceEventId → r = r' := fun r listed r' listed' =>
    alone r (List.mem_filter.mp listed).1 r' (List.mem_filter.mp listed').1
  rw [Dict.mem_values, ← List.mem_filter]
  constructor
  · rintro ⟨event, held⟩
    exact ((get?_foldl_event alone').mp held).1
  · intro listed
    exact ⟨r.sourceEventId, (get?_foldl_event alone').mpr ⟨listed, rfl⟩⟩

theorem acceptedOf_perm (alone : Alone candidates) (perm : candidates.Perm candidates') :
    (acceptedOf aliases fixture candidates).values.Perm
    (acceptedOf aliases fixture candidates').values := by
  refine (Dict.entries_perm fun event => Option.ext fun r => ?_).map _
  have alone' : Alone candidates' := fun r listed r' listed' =>
    alone r (perm.mem_iff.mpr listed) r' (perm.mem_iff.mpr listed')
  rw [acceptedOf, acceptedOf, get?_foldl_event, get?_foldl_event, (perm.filter _).mem_iff]
  · exact fun r listed r' listed' =>
      alone' r (List.mem_filter.mp listed).1 r' (List.mem_filter.mp listed').1
  · exact fun r listed r' listed' =>
      alone r (List.mem_filter.mp listed).1 r' (List.mem_filter.mp listed').1

omit [Unicode] [Readers] in
theorem soleAccepted_perm {l l' : List AnchorRow} (perm : l.Perm l') (anyInWindow : Bool) :
    soleAccepted l anyInWindow = soleAccepted l' anyInWindow := by
  cases l with
  | nil => rw [perm.symm.eq_nil]
  | cons r rest =>
    cases rest with
    | nil => rw [List.perm_singleton.mp perm.symm]
    | cons r' rest =>
      have long := perm.length_eq
      match l', long with
      | _ :: _ :: _, _ => rfl

/-- The row for a fixture does not depend on the order of the anchor rows. -/
theorem matchAnchorToFixture_perm {anchorRows anchorRows' : List AnchorRow}
    (perm : anchorRows.Perm anchorRows')
    (dated : ∀ r ∈ candidatesOf fixture (poolOf fixture anchorRows), r.kickoff.isSome)
    (alone : Alone (candidatesOf fixture (poolOf fixture anchorRows))) :
    matchAnchorToFixture aliases fixture anchorRows =
      matchAnchorToFixture aliases fixture anchorRows' := by
  have pool : (poolOf fixture anchorRows).Perm (poolOf fixture anchorRows') := perm.filter _
  have candidates : (candidatesOf fixture (poolOf fixture anchorRows)).Perm
      (candidatesOf fixture (poolOf fixture anchorRows')) := pool.filter _
  have dated' : ∀ r ∈ candidatesOf fixture (poolOf fixture anchorRows'), r.kickoff.isSome :=
    fun r listed => dated r (candidates.mem_iff.mpr listed)
  unfold matchAnchorToFixture
  dsimp only
  have none_left : candidatesOf fixture (poolOf fixture anchorRows) = [] ↔
      candidatesOf fixture (poolOf fixture anchorRows') = [] := by
    rw [← List.length_eq_zero_iff, candidates.length_eq, List.length_eq_zero_iff]
  have why : noCandidate fixture (poolOf fixture anchorRows) =
      noCandidate fixture (poolOf fixture anchorRows') := by
    simp only [noCandidate, pool.any_eq]
  simp only [none_left, why]
  split
  · rfl
  · rw [consider_foldlM dated, consider_foldlM dated', Option.map_some, Option.map_some,
      candidates.any_eq]
    exact congrArg some (soleAccepted_perm (acceptedOf_perm alone candidates) _)

/-- What is picked is a candidate that is accepted. -/
theorem accepted_of_match {anchorRows : List AnchorRow}
    (dated : ∀ r ∈ candidatesOf fixture (poolOf fixture anchorRows), r.kickoff.isSome)
    (alone : Alone (candidatesOf fixture (poolOf fixture anchorRows)))
    {result : Except Rejection AnchorRow}
    (ran : matchAnchorToFixture aliases fixture anchorRows = some result) {r : AnchorRow}
    (picked : result = .ok r) :
    r ∈ candidatesOf fixture (poolOf fixture anchorRows) ∧
    accepts aliases fixture r = true := by
  unfold matchAnchorToFixture at ran
  dsimp only at ran
  split at ran
  · cases ran
    cases picked
  · rw [consider_foldlM dated, Option.map_some, Option.some.injEq] at ran
    rw [← mem_acceptedOf alone]
    have sole := ran.trans picked
    change soleAccepted (acceptedOf aliases fixture _).values _ = .ok r at sole
    unfold soleAccepted at sole
    split at sole
    · cases sole
    · rename_i values
      cases sole
      rw [values]
      exact List.mem_singleton_self r
    · cases sole

theorem match_isSome {anchorRows : List AnchorRow}
    (dated : ∀ r ∈ candidatesOf fixture (poolOf fixture anchorRows), r.kickoff.isSome) :
    (matchAnchorToFixture aliases fixture anchorRows).isSome := by
  unfold matchAnchorToFixture
  dsimp only
  split
  · rfl
  · rw [consider_foldlM dated]
    rfl

end Accepted

/-! Teams. -/

section Teams
variable [Unicode]

/-- The teams of an event are the fixture's, home to home and away to away, as the matcher compares
names. -/
structure SameTeams (aliases : AliasTable) (fixture : ValidationFixture) (home away : Str) :
    Prop where
  homeMarkers : distinguishingMarkers home = distinguishingMarkers fixture.home
  awayMarkers : distinguishingMarkers away = distinguishingMarkers fixture.away
  homeName : baseNameOk (aliases.canonical (stripMarkers fixture.home))
    (aliases.canonical (stripMarkers home)) = true
  awayName : baseNameOk (aliases.canonical (stripMarkers fixture.away))
    (aliases.canonical (stripMarkers away)) = true

/-- With the orientation locked, what survives passes the test as it stands. -/
theorem oriented_of_found {aliases : AliasTable} {fixture : ValidationFixture}
    {cand : EventCandidate}
    (found : (matchEventHardenedScored (fixture.query aliases) [cand]).1.isSome) :
    (fixture.query aliases).oriented cand false = true := by
  obtain ⟨outcome, found⟩ := Option.isSome_iff_exists.mp found
  obtain ⟨-, b, leads, -, -⟩ := (accepts_iff _ _ _).mp found
  obtain ⟨listed, alive⟩ := Query.survive_of_eligible leads.mem
  rw [List.mem_singleton.mp listed] at alive
  unfold Query.survive at alive
  split at alive
  · cases alive
  split at alive
  · assumption
  · rename_i flipped
    have locked : (fixture.query aliases).flipOk cand = false := rfl
    rw [locked, Bool.false_and, if_neg Bool.false_ne_true] at alive
    cases alive

variable [Readers]

theorem sameTeams_of_accepts {aliases : AliasTable} {fixture : ValidationFixture} {r : AnchorRow}
    (takes : accepts aliases fixture r = true) : SameTeams aliases fixture r.home r.away := by
  simp only [accepts, Bool.and_eq_true, Bool.not_eq_true', Option.any_eq_true] at takes
  obtain ⟨⟨-, clear⟩, kickoff, -, found⟩ := takes
  simp only [vetoed, Bool.or_eq_false_iff, decide_eq_false_iff_not, not_not] at clear
  have oriented := oriented_of_found found
  simp only [Query.oriented, Bool.and_eq_true] at oriented
  exact ⟨clear.1.1, clear.1.2, oriented.1.2, oriented.2⟩

end Teams

/-! Picks. -/

section Picks
variable [CaseMaps] [Printers] [Readers] {aliases : AliasTable}
  {canonicalMatches : Dict Int CanonicalMatch}
  {observations : List SnapshotObs} {anchorRows anchorRows' : List AnchorRow}
  {fixtureBuilder : FixtureRow → Str →
    Option ValidationFixture} {row' : FixtureRow} {keys : List Str}

/-- `fromisoformat` reads the kick-offs that were printed. -/
def ReadsBack (observations : List SnapshotObs) : Prop :=
  ∀ obs ∈ observations,
    Readers.fromisoformat (isoformat obs.startsAt) = some ⟨obs.startsAt, some 0⟩

/-- The fixtures of a row differ only in their selections. -/
def SelectionOnly (fixtureBuilder : FixtureRow → Str → Option ValidationFixture) : Prop :=
  ∀ row s s' f f', fixtureBuilder row s = some f → fixtureBuilder row s' = some f' →
    { f with selection := f'.selection } = f'

omit [CaseMaps] in
theorem kickoff_row (reads : ReadsBack observations) {obs : SnapshotObs}
    (listed : obs ∈ observations) (matched : Option CanonicalMatch) (label : Label) :
      (row matched obs label).kickoff = some obs.startsAt := by
  have text : replace "Z".toList "+00:00".toList (row matched obs label).eventStartTimeUtc =
      isoformat obs.startsAt :=
    replace_iso obs.startsAt
  rw [AnchorRow.kickoff, text, reads obs listed, Option.bind_some, Option.map_some, sub_zero]

section Dataset
variable (reads : ReadsBack observations)
  (dataset : anchorRows.Perm (buildAnchorRows aliases canonicalMatches observations))
include reads dataset

theorem candidate_dated (fixture : ValidationFixture) :
    ∀ r ∈ candidatesOf fixture (poolOf fixture anchorRows), r.kickoff.isSome := by
  intro r listed
  obtain ⟨obs, market, side, rfl, anchor, -⟩ := candidate_spec dataset listed
  rw [kickoff_row reads anchor.listed]
  rfl

omit [Readers] reads in
theorem candidate_alone (fixture : ValidationFixture) :
    Alone (candidatesOf fixture (poolOf fixture anchorRows)) :=
  fun _ listed _ listed' event => candidate_unique dataset listed listed' event

theorem pickAll_isSome : (pickAll fixtureBuilder aliases anchorRows row' keys).isSome := by
  induction keys with
  | nil => rfl
  | cons selection keys ih =>
    unfold pickAll
    cases built : fixtureBuilder row' selection with
    | none => rfl
    | some fixture =>
      obtain ⟨result, ran⟩ : ∃ result,
          matchAnchorToFixture aliases fixture anchorRows = some result :=
        Option.isSome_iff_exists.mp (match_isSome (candidate_dated reads dataset fixture))
      dsimp only
      rw [ran]
      cases result with
      | error reason => rfl
      | ok r => rw [Option.isSome_map]; exact ih

theorem pickAll_perm (perm : anchorRows.Perm anchorRows') :
    pickAll fixtureBuilder aliases anchorRows row' keys =
      pickAll fixtureBuilder aliases anchorRows' row' keys := by
  induction keys with
  | nil => rfl
  | cons selection keys ih =>
    unfold pickAll
    cases built : fixtureBuilder row' selection with
    | none => rfl
    | some fixture =>
      dsimp only
      rw [← matchAnchorToFixture_perm perm (candidate_dated reads dataset fixture)
        (candidate_alone dataset fixture), ih]

/-- Each pick is a candidate of its fixture that is accepted. -/
theorem pickAll_spec {picked : List AnchorRow}
    (ran : pickAll fixtureBuilder aliases anchorRows row' keys = some (.ok picked)) :
    List.Forall₂ (fun selection r => ∃ fixture, fixtureBuilder row' selection = some fixture ∧
      r ∈ candidatesOf fixture (poolOf fixture anchorRows) ∧
      accepts aliases fixture r = true) keys picked := by
  induction keys generalizing picked with
  | nil =>
    cases ran
    exact .nil
  | cons selection keys ih =>
    unfold pickAll at ran
    cases built : fixtureBuilder row' selection with
    | none =>
      rw [built] at ran
      cases ran
    | some fixture =>
      rw [built] at ran
      dsimp only at ran
      cases found : matchAnchorToFixture aliases fixture anchorRows with
      | none =>
        rw [found] at ran
        cases ran
      | some result =>
        rw [found] at ran
        cases result with
        | error reason => cases ran
        | ok r =>
          obtain ⟨rest, later, joined⟩ := Option.map_eq_some_iff.mp ran
          cases rest with
          | error reason => cases joined
          | ok others =>
            cases joined
            obtain ⟨listed, takes⟩ :=
              accepted_of_match (candidate_dated reads dataset fixture)
                (candidate_alone dataset fixture) found rfl
            exact .cons ⟨fixture, built, listed, takes⟩ (ih later)

end Dataset

/-- An observation is a quote for the fixture: a price of a complete set, for a game of the same
teams within the hour. -/
structure QuoteFor (aliases : AliasTable) (observations : List SnapshotObs)
    (fixture : ValidationFixture) (obs : SnapshotObs) : Prop where
  listed : obs ∈ observations
  near : |obs.startsAt - fixture.kickoff| ≤ minutes validationKickoffWindow
  teams : SameTeams aliases fixture obs.home obs.away
  market : ∃ market, classifyMarket obs.market = some market ∧
    market.text = fixture.marketType ∧
    (sideOf aliases market obs).map Side.text = some fixture.selection ∧
    Complete aliases market (groupIn observations obs) obs.capturedAt

/-- Every destination column has the price of a quote, the quotes of one event and one instant. -/
def Anchored (floatOf : Str → PyFloat)
    (fixtureBuilder : FixtureRow → Str → Option ValidationFixture) (aliases : AliasTable)
    (columnMap : Dict Str Str) (observations : List SnapshotObs) (row row' : FixtureRow) : Prop :=
  ∃ event instant, ∀ col ∈ columnMap.values, ∃ selection fixture obs,
    (selection, col) ∈ columnMap.entries ∧
    fixtureBuilder row selection = some fixture ∧ QuoteFor aliases observations fixture obs ∧
    obs.eventId = event ∧ obs.capturedAt = instant ∧
    row'.get? col = some (.float (floatOf (Printers.decimal obs.decimalOdds)))

/-- No destination column is left. -/
def Unanchored (columnMap : Dict Str Str) (row' : FixtureRow) : Prop :=
  ∀ col ∈ columnMap.values, row'.get? col = none

omit [CaseMaps] [Printers] [Readers] in
theorem cleared_unanchored (columnMap : Dict Str Str) (row' : FixtureRow) :
    Unanchored columnMap (cleared columnMap row') := by
  intro col listed
  rw [cleared, get?_foldl_pop, if_pos listed]

omit [CaseMaps] [Printers] [Readers] in
/-- The columns and the picks are in step. -/
theorem zip_columns {R : Str → AnchorRow → Prop} {entries : List (Str × Str)}
    {picked : List AnchorRow} (related : List.Forall₂ R (entries.map Prod.fst) picked) :
    ((entries.map Prod.snd).zip picked).map Prod.fst = entries.map Prod.snd ∧
      ∀ col r, (col, r) ∈ (entries.map Prod.snd).zip picked →
        ∃ selection, (selection, col) ∈ entries ∧ R selection r := by
  induction entries generalizing picked with
  | nil => simp
  | cons entry entries ih =>
    obtain ⟨selection, col⟩ := entry
    obtain ⟨r, rest, head, tail, rfl⟩ := List.forall₂_cons_left_iff.mp related
    obtain ⟨columns, each⟩ := ih tail
    simp only [List.map_cons, List.zip_cons_cons, columns, true_and]
    intro col' r' listed
    rcases List.mem_cons.mp listed with same | later
    · cases same
      exact ⟨selection, List.mem_cons_self, head⟩
    · obtain ⟨selection', inside, related'⟩ := each col' r' later
      exact ⟨selection', List.mem_cons_of_mem _ inside, related'⟩

omit [CaseMaps] [Printers] [Readers] in
/-- A destination column holds the price of one of its picks. -/
theorem withAnchors_column {floatOf : Str → PyFloat} {columnMap : Dict Str Str}
    {picked : List AnchorRow} {col : Str}
    (listed : col ∈ (columnMap.values.zip picked).map Prod.fst)
    (apart : col ≠ eventColumn ∧ col ≠ methodColumn) :
    ∃ r, (col, r) ∈ columnMap.values.zip picked ∧
      (withAnchors floatOf columnMap row' picked).get? col = some (.float (floatOf r.price)) := by
  have keys : col ∈ ((columnMap.values.zip picked).map fun pick =>
      (pick.1, Cell.float (floatOf pick.2.price))).map Prod.fst := by
    rw [List.map_map]
    exact listed
  obtain ⟨v, inside, held⟩ := written_of_mem keys row'
  obtain ⟨⟨col', r⟩, there, same⟩ := List.mem_map.mp inside
  cases same
  rw [List.foldl_map] at held
  refine ⟨r, there, ?_⟩
  unfold withAnchors
  cases picked with
  | nil => exact held
  | cons first others =>
    dsimp only
    rw [Dict.get?_set, if_neg apart.2, Dict.get?_set, if_neg apart.1]
    exact held

section Join
variable (reads : ReadsBack observations)
  (dataset : anchorRows.Perm (buildAnchorRows aliases canonicalMatches observations))
include reads dataset

theorem quoteFor_of_accepts {fixture : ValidationFixture} {r : AnchorRow}
    (listed : r ∈ candidatesOf fixture (poolOf fixture anchorRows))
    (takes : accepts aliases fixture r = true) :
    ∃ obs market side, r = row (canonicalMatches.get? obs.eventId) obs
      (labelIn aliases observations obs) ∧
      AnchorFor aliases observations obs market side ∧ market.text = fixture.marketType ∧
      QuoteFor aliases observations fixture obs := by
  obtain ⟨obs, market, side, rfl, anchor, kind, own⟩ := candidate_spec dataset listed
  have near : inWindow fixture _ = true :=
    (Bool.and_eq_true_iff.mp (Bool.and_eq_true_iff.mp takes).1).1
  rw [inWindow, kickoff_row reads anchor.listed, Option.any_some, decide_eq_true_iff] at near
  refine ⟨obs, market, side, rfl, anchor, kind, anchor.listed, near, sameTeams_of_accepts takes,
    market, anchor.kind, kind, ?_, (chosenOf_anchor.mp anchor.instant).1⟩
  rw [anchor.found, Option.map_some, own]

/-- Picks of one event for fixtures that differ only in their selections anchor the row. -/
theorem anchored_of_picks {floatOf : Str → PyFloat} {columnMap : Dict Str Str}
    (alike : SelectionOnly fixtureBuilder)
    (apart : eventColumn ∉ columnMap.values ∧ methodColumn ∉ columnMap.values)
    {picked : List AnchorRow}
    (ran : pickAll fixtureBuilder aliases anchorRows row' columnMap.keys = some (.ok picked))
    (one : (picked.map AnchorRow.sourceEventId).toFinset.card = 1) :
    Anchored floatOf fixtureBuilder aliases columnMap observations row'
      (withAnchors floatOf columnMap row' picked) := by
  have spec := pickAll_spec reads dataset ran
  obtain ⟨columns, each⟩ := zip_columns spec
  obtain ⟨event, only⟩ := Finset.card_eq_one.mp one
  have ofEvent {r : AnchorRow} (listed : r ∈ picked) : r.sourceEventId = event := by
    have inside : r.sourceEventId ∈ (picked.map AnchorRow.sourceEventId).toFinset :=
      List.mem_toFinset.mpr (List.mem_map_of_mem listed)
    rw [only] at inside
    exact Finset.mem_singleton.mp inside
  -- every column has a quote, and any two quotes are of one instant
  have quoted : ∀ col ∈ columnMap.values, ∃ selection fixture obs market side,
      (selection, col) ∈ columnMap.entries ∧
      fixtureBuilder row' selection = some fixture ∧ QuoteFor aliases observations fixture obs ∧
      obs.eventId = event ∧
      AnchorFor aliases observations obs market side ∧ market.text = fixture.marketType ∧
      (withAnchors floatOf columnMap row' picked).get? col =
        some (.float (floatOf (Printers.decimal obs.decimalOdds))) := by
    intro col listed
    have zipped : col ∈ (columnMap.values.zip picked).map Prod.fst := by
      change col ∈ ((columnMap.entries.map Prod.snd).zip picked).map Prod.fst
      rw [columns]
      exact listed
    obtain ⟨r, inside, held⟩ : ∃ r, (col, r) ∈ columnMap.values.zip picked ∧
        (withAnchors floatOf columnMap row' picked).get? col = some (.float (floatOf r.price)) :=
          withAnchors_column zipped
      ⟨fun same => apart.1 (same ▸ listed), fun same => apart.2 (same ▸ listed)⟩
    obtain ⟨selection, entry, fixture, built, candidate, takes⟩ := each col r inside
    obtain ⟨obs, market, side, rfl, anchor, kind, quote⟩ :=
      quoteFor_of_accepts reads dataset candidate takes
    exact ⟨selection, fixture, obs, market, side, entry, built, quote,
      ofEvent (List.of_mem_zip inside).2, anchor, kind, held⟩
  cases filled : columnMap.values with
  | nil => exact ⟨event, 0, by rw [filled]; nofun⟩
  | cons col others =>
    obtain ⟨selection, fixture, obs, market, side, -, built, -, event₀, anchor, kind, -⟩ :=
      quoted col (by rw [filled]; exact List.mem_cons_self)
    refine ⟨event, obs.capturedAt, fun col' listed => ?_⟩
    obtain ⟨selection', fixture', obs', market', side', entry, built', quote, event', anchor',
      kind', held⟩ := quoted col' listed
    have same := alike row' selection selection' fixture fixture' built built'
    have sameKind : fixture.marketType = fixture'.marketType := by rw [← same]
    obtain rfl := Market.text_inj (kind.trans (sameKind.trans kind'.symm))
    exact ⟨selection', fixture', obs', entry, built', quote, event',
      (anchor.together anchor' (event₀.trans event'.symm)).2, held⟩

end Join

omit [CaseMaps] [Printers] [Readers] in
/-- A row is attached or counted under a reason. -/
theorem counted_once (passes : List (FixtureRow × Option Rejection)) :
    (passes.countP fun pass => pass.2 = none) + (counted (passes.filterMap Prod.snd)).values.sum =
      passes.length := by
  have reasons : (counted (passes.filterMap Prod.snd)).values.sum =
      (passes.filterMap Prod.snd).length :=
    (sum_values_counter _ Dict.empty).trans (Nat.zero_add _)
  rw [reasons]
  induction passes with
  | nil => rfl
  | cons pass passes ih =>
    have rest := ih ((sum_values_counter _ Dict.empty).trans (Nat.zero_add _))
    obtain ⟨row, reason⟩ := pass
    cases reason <;> simp <;> omega

/-- Every row is anchored as a whole or not at all, every row is counted once, and the order of the
anchor rows plays no part. -/
theorem attachArcadiaAnchor_allOrNothing (floatOf : Str → PyFloat)
    (fixtureBuilder : FixtureRow → Str → Option ValidationFixture) (aliases : AliasTable)
    (columnMap : Dict Str Str) (canonicalMatches : Dict Int CanonicalMatch)
    (observations : List SnapshotObs) (fixturesRows : List FixtureRow)
    (reads : ReadsBack observations) (alike : SelectionOnly fixtureBuilder)
    (apart : eventColumn ∉ columnMap.values ∧ methodColumn ∉ columnMap.values) :
    ∃ out,
      (∀ anchorRows, anchorRows.Perm (buildAnchorRows aliases canonicalMatches observations) →
        attachArcadiaAnchor floatOf fixtureBuilder aliases columnMap fixturesRows anchorRows =
          some out) ∧
      List.Forall₂ (fun row row' =>
        Anchored floatOf fixtureBuilder aliases columnMap observations row row' ∨
        Unanchored columnMap row') fixturesRows out.rows ∧
      out.attached + out.reasons.values.sum = fixturesRows.length := by
  have each (row : FixtureRow) : ∃ pass,
      (∀ anchorRows, anchorRows.Perm (buildAnchorRows aliases canonicalMatches observations) →
        attachRow floatOf fixtureBuilder aliases columnMap anchorRows row = some pass) ∧
      (Anchored floatOf fixtureBuilder aliases columnMap observations row pass.1 ∨
        Unanchored columnMap pass.1) := by
    obtain ⟨picked, ran⟩ : ∃ picked,
        pickAll fixtureBuilder aliases (buildAnchorRows aliases canonicalMatches observations)
        row columnMap.keys = some picked :=
          Option.isSome_iff_exists.mp (pickAll_isSome reads (.refl _))
    refine ⟨settled floatOf columnMap row (picked.bind sameEvent),
      fun anchorRows dataset => ?_, ?_⟩
    · rw [attachRow, pickAll_perm reads dataset dataset, ran, Option.map_some]
    · cases result : picked.bind sameEvent with
      | error reason => exact .inr (cleared_unanchored columnMap row)
      | ok chosen =>
        cases picked with
        | error reason => cases result
        | ok picked =>
          change sameEvent picked = .ok chosen at result
          unfold sameEvent at result
          split at result
          · rename_i one
            cases result
            exact .inl (anchored_of_picks reads (.refl _) alike apart ran one)
          · cases result
  choose pass spec using each
  have run : ∀ anchorRows,
      anchorRows.Perm (buildAnchorRows aliases canonicalMatches observations) →
      fixturesRows.mapM (attachRow floatOf fixtureBuilder aliases columnMap anchorRows) =
        some (fixturesRows.map pass) := by
    intro anchorRows dataset
    rw [mapM_some_iff (Dict.empty, none)]
    refine ⟨fun row _ => ?_, List.map_congr_left fun row _ => ?_⟩
    · rw [(spec row).1 anchorRows dataset]
      rfl
    · rw [(spec row).1 anchorRows dataset, Option.getD_some]
  refine ⟨⟨(fixturesRows.map pass).map Prod.fst,
    (fixturesRows.map pass).countP fun pass => pass.2 = none,
    counted ((fixturesRows.map pass).filterMap Prod.snd)⟩, fun anchorRows dataset => ?_, ?_, ?_⟩
  · rw [attachArcadiaAnchor, run anchorRows dataset, Option.map_some]
  · dsimp only
    rw [List.map_map, List.forall₂_map_right_iff, List.forall₂_same]
    exact fun row _ => (spec row).2
  · dsimp only
    rw [counted_once, List.length_map]

end Picks

/-! A row and the line of its goals. -/

@[reducible] def Readers.sunday : Readers where
  loads _ := .error .notJson
  int _ := none
  float _ := none
  decimal _ := none
  shortest x := x
  nearest n := n
  str _ := []
  fromisoformat s :=
    if s = "2026-07-05T15:00:00+00:00".toList then some ⟨days 20639 + hours 15, some 0⟩
      else none
  fromtimestamp _ := none

def goalsColumns : Dict Str Str :=
  Dict.ofList [("over".toList, "P>2.5".toList), ("under".toList, "P<2.5".toList)]

def goalsFixture (_ : FixtureRow) (selection : Str) : Option ValidationFixture :=
  some ⟨"soccer".toList, "E0".toList, "Ajax".toList, "Feyenoord".toList, days 20639 + hours 15,
    "ou25".toList, matchPeriod, some (5 / 2), selection⟩

/-- The two prices as they are printed. -/
def goalsFloat (text : Str) : PyFloat := if text = "2".toList then .finite 2 else .finite (19 / 10)

theorem goalsFixture_alike : SelectionOnly goalsFixture := by
  intro row s s' f f' built built'
  cases built
  cases built'
  rfl

theorem goalsLine_reads : @ReadsBack Readers.sunday goalsLine := by
  have printed : isoformat (days 20639 + hours 15) = "2026-07-05T15:00:00+00:00".toList := by
    decide +kernel
  have starts : ∀ obs ∈ goalsLine, obs.startsAt = days 20639 + hours 15 := by decide
  intro obs listed
  rw [starts obs listed, printed]
  exact if_pos rfl

theorem attachArcadiaAnchor_allOrNothing_goals :
    ∃ out,
      (∀ anchorRows, anchorRows.Perm
        (@buildAnchorRows CaseMaps.ascii Printers.evens AliasTable.empty Dict.empty goalsLine) →
        @attachArcadiaAnchor Unicode.ascii Readers.sunday goalsFloat goalsFixture AliasTable.empty
          goalsColumns [Dict.empty] anchorRows = some out) ∧
      List.Forall₂ (fun row row' =>
        @Anchored CaseMaps.ascii Printers.evens goalsFloat goalsFixture AliasTable.empty
          goalsColumns goalsLine row row' ∨
          Unanchored goalsColumns row') [Dict.empty] out.rows ∧
      out.attached + out.reasons.values.sum = 1 :=
  @attachArcadiaAnchor_allOrNothing CaseMaps.ascii Printers.evens Readers.sunday goalsFloat
    goalsFixture AliasTable.empty
    goalsColumns Dict.empty goalsLine [Dict.empty] goalsLine_reads goalsFixture_alike (by decide)

end SharpEvPicks.Backtesting.Arcadia
