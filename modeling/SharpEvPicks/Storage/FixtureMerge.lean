import SharpEvPicks.Storage.EventStages

/-! Which references end at one event, when each always reports the same fixture. -/
namespace SharpEvPicks.Storage.EventStore

open Python Resolution Settlement Transition

/-- What a reference says of its fixture. -/
structure Report where
  sportId : Nat
  leagueId : Nat
  homeId : Nat
  awayId : Nat
  startsAt : Option Int

def Report.call (r : Report) (externalRef : Str) (now : Int) : EventCall :=
  ⟨r.sportId, r.leagueId, r.homeId, r.awayId, externalRef, r.startsAt, now⟩

/-- The tables, and what each call was answered. -/
structure History where
  store : EventStore
  resolved : List (Str × Nat)

section
variable [Unicode] (d : Directory) (report : Str → Report)

/-- One sport, one pair of sides in any order, and the same markers in the league. -/
structure SameFixture (a b : Report) : Prop where
  sport : a.sportId = b.sportId
  sides : sidesOf d a.homeId a.awayId = sidesOf d b.homeId b.awayId
  markers : leagueMarkerSet (d.leagueName a.leagueId) = leagueMarkerSet (d.leagueName b.leagueId)

structure Mergeable (a b : Report) : Prop where
  fixture : SameFixture d a b
  near : ∃ t ∈ a.startsAt, ∃ t' ∈ b.startsAt, ¬ isDateOnlyMidnight t ∧
    ¬ isDateOnlyMidnight t' ∧
    |t - t'| ≤ dedupTolerance (d.sportKey a.sportId)

def answer (h : History) (call : Str × Int) : History :=
  match h.store.getOrCreateEvent d ((report call.1).call call.1 call.2) with
  | (.ok id, written) => ⟨written, h.resolved ++ [(call.1, id)]⟩
  | (.error _, _) => h

/-- Where the first tier decides, the row that it takes has a real kickoff. -/
def NoPlaceholder (h : History) (call : Str × Int) : Prop :=
  let c := (report call.1).call call.1 call.2
  h.store.Unknown c.sportId c.externalRef →
    ∀ t ∈ c.realKickoff, ∀ e ∈ h.store.exactMatch d c t,
    ¬ e.startsAt.any isDateOnlyMidnight

structure RowOf (r : Report) (e : Event) : Prop where
  sport : e.sportId = r.sportId
  sides : sidesOf d e.homeTeamId e.awayTeamId = sidesOf d r.homeId r.awayId
  markers : leagueMarkerSet (d.leagueName e.leagueId) = leagueMarkerSet (d.leagueName r.leagueId)

variable {d}

theorem RowOf.same {a b : Report} {e : Event} (first : RowOf d a e) (second : RowOf d b e) :
    SameFixture d a b where
  sport := first.sport.symm.trans second.sport
  sides := first.sides.symm.trans second.sides
  markers := first.markers.symm.trans second.markers

theorem RowOf.moved {r : Report} {e : Event} (row : RowOf d r e) (startsAt : Option Int) :
    RowOf d r { e with startsAt := startsAt } := ⟨row.sport, row.sides, row.markers⟩

theorem Mergeable.symm {a b : Report} (mergeable : Mergeable d a b) : Mergeable d b a := by
  obtain ⟨⟨sport, sides, markers⟩, t, known, t', known', real, real', near⟩ := mergeable
  refine ⟨⟨sport.symm, sides.symm, markers.symm⟩, t', known', t, known, real', real, ?_⟩
  rwa [abs_sub_comm, ← sport]

variable (d) (called : Str → Prop)

/-- What ties the tables to the answers. -/
structure Traced (h : History) : Prop where
  keyed : h.store.Keyed
  owned : ∀ e ∈ h.store.events, (e.externalRef, e.id) ∈ h.resolved
  linked : ∀ ref, ∀ l ∈ h.store.activeLinks ref, (ref, l.canonicalEventId) ∈ h.resolved
  existing : ∀ x ∈ h.resolved, ∃ e ∈ h.store.events, e.id = x.2
  row : ∀ x ∈ h.resolved, ∀ e ∈ h.store.events, e.id = x.2 → RowOf d (report x.1) e
  kickoff : ∀ e ∈ h.store.events, ∃ x ∈ h.resolved, x.2 = e.id ∧
    e.startsAt = (report x.1).startsAt
  safe : ∀ x ∈ h.resolved, ∀ y ∈ h.resolved, x.1 ≠ y.1 → x.2 = y.2 →
    Mergeable d (report x.1) (report y.1)
  called : ∀ x ∈ h.resolved, called x.1

variable {d report called} {s : EventStore} {resolved : List (Str × Nat)} {ref : Str} {id : Nat}

theorem Traced.again (traced : Traced d report called ⟨s, resolved⟩)
    (known : (ref, id) ∈ resolved) : Traced d report called ⟨s, resolved ++ [(ref, id)]⟩ := by
  have members : ∀ x, x ∈ resolved ++ [(ref, id)] ↔ x ∈ resolved := by
    intro x
    rw [List.mem_append, List.mem_singleton, or_iff_left_iff_imp]
    rintro rfl
    exact known
  obtain ⟨keyed, owned, linked, existing, row, kickoff, safe, called⟩ := traced
  constructor <;> simpa only [members]

theorem Traced.moveKickoff (traced : Traced d report called ⟨s, resolved⟩)
    (known : (ref, id) ∈ resolved) :
    Traced d report called ⟨s.moveKickoff id (report ref).startsAt, resolved⟩ where
  keyed := traced.keyed.moveKickoff
  owned e' inside' := by
    rcases moveKickoff_cases inside' with old | ⟨e, inside, -, rfl⟩
    · exact traced.owned e' old
    · exact traced.owned e inside
  linked := traced.linked
  existing x inside := by
    obtain ⟨e, listed, ids⟩ := traced.existing x inside
    refine ⟨_, mem_moveKickoff.mpr ⟨e, listed, rfl⟩, ?_⟩
    split <;> exact ids
  row x inside e' inside' ids := by
    rcases moveKickoff_cases inside' with old | ⟨e, listed, -, rfl⟩
    · exact traced.row x inside e' old ids
    · exact (traced.row x inside e listed ids).moved _
  kickoff e' inside' := by
    rcases moveKickoff_cases inside' with old | ⟨e, listed, own, rfl⟩
    · exact traced.kickoff e' old
    · rcases preferKickoff_cases e.startsAt (report ref).startsAt with same | new
      · obtain ⟨x, inside, ids, reported⟩ := traced.kickoff e listed
        exact ⟨x, inside, ids, same.trans reported⟩
      · exact ⟨(ref, id), known, own.symm, new⟩
  safe := traced.safe
  called := traced.called

theorem Traced.join (traced : Traced d report called ⟨s, resolved⟩) (asked : called ref)
    {canon : Event} (inside : canon ∈ s.events) (row : RowOf d (report ref) canon)
    (fits : ∀ x ∈ resolved, x.1 ≠ ref → x.2 = canon.id →
      Mergeable d (report x.1) (report ref)) :
    Traced d report called ⟨s, resolved ++ [(ref, canon.id)]⟩ where
  keyed := traced.keyed
  owned e listed := List.mem_append_left _ (traced.owned e listed)
  linked ref' l active := List.mem_append_left _ (traced.linked ref' l active)
  existing x answered := by
    rcases List.mem_append.mp answered with old | new
    · exact traced.existing x old
    · rw [List.mem_singleton.mp new]
      exact ⟨canon, inside, rfl⟩
  row x answered e listed ids := by
    rcases List.mem_append.mp answered with old | new
    · exact traced.row x old e listed ids
    · rw [List.mem_singleton.mp new] at ids ⊢
      rw [traced.keyed.id_inj listed inside ids]
      exact row
  kickoff e listed := by
    obtain ⟨x, answered, ids, reported⟩ := traced.kickoff e listed
    exact ⟨x, List.mem_append_left _ answered, ids, reported⟩
  safe x answered y answered' different same := by
    rcases List.mem_append.mp answered with old | new
    · rcases List.mem_append.mp answered' with old' | new'
      · exact traced.safe x old y old' different same
      · rw [List.mem_singleton.mp new'] at different same ⊢
        exact fits x old different same
    · rw [List.mem_singleton.mp new] at different same ⊢
      rcases List.mem_append.mp answered' with old' | new'
      · exact (fits y old' (Ne.symm different) same.symm).symm
      · rw [List.mem_singleton.mp new'] at different
        exact absurd rfl different
  called x answered := by
    rcases List.mem_append.mp answered with old | new
    · exact traced.called x old
    · rw [List.mem_singleton.mp new]
      exact asked

theorem Traced.upsert (traced : Traced d report called ⟨s, resolved⟩) {canon : Event}
    {canonicalRef matchMethod : Str} {matchedAt : Int} (found : s.own canonicalRef = some canon)
    (known : (ref, canon.id) ∈ resolved) :
    Traced d report called
      ⟨s.upsertEventSourceLink (sourceOfRef ref) ref canonicalRef matchMethod matchedAt,
        resolved⟩ := by
  obtain ⟨events, -, -⟩ :=
    @upsert_frame s (sourceOfRef ref) ref canonicalRef matchMethod matchedAt
  refine ⟨traced.keyed.upsert, ?_, ?_, ?_, ?_, ?_, traced.safe, traced.called⟩
  · rw [events]
    exact traced.owned
  · intro ref' l active
    obtain ⟨inside, source, named, live⟩ := mem_activeLinks.mp active
    rcases upsert_active found inside live with ⟨-, own, target⟩ | ⟨old, -⟩
    · rw [← named, own, target]
      exact known
    · exact traced.linked ref' l (mem_activeLinks.mpr ⟨old, source, named, live⟩)
  · rw [events]
    exact traced.existing
  · rw [events]
    exact traced.row
  · rw [events]
    exact traced.kickoff

theorem Traced.mint (traced : Traced d report called ⟨s, resolved⟩) (asked : called ref)
    {now : Int} (own : s.own ref = none) :
    Traced d report called
      ⟨(s.mint ((report ref).call ref now)).2, resolved ++ [(ref, s.nextEventId)]⟩ := by
  have old_id : ∀ x ∈ resolved, x.2 < s.nextEventId := by
    intro x answered
    obtain ⟨e, inside, ids⟩ := traced.existing x answered
    rw [← ids]
    exact traced.keyed.fresh e inside
  refine ⟨traced.keyed.mint own, ?_, ?_, ?_, ?_, ?_, ?_, ?_⟩
  · intro e inside
    rcases List.mem_append.mp inside with old | new
    · exact List.mem_append_left _ (traced.owned e old)
    · rw [List.mem_singleton.mp new]
      exact List.mem_append_right _ (List.mem_singleton_self _)
  · intro ref' l active
    exact List.mem_append_left _ (traced.linked ref' l active)
  · intro x answered
    rcases List.mem_append.mp answered with old | new
    · obtain ⟨e, inside, ids⟩ := traced.existing x old
      exact ⟨e, List.mem_append_left _ inside, ids⟩
    · rw [List.mem_singleton.mp new]
      exact ⟨_, List.mem_append_right _ (List.mem_singleton_self _), rfl⟩
  · intro x answered e inside ids
    rcases List.mem_append.mp inside with old | new
    · rcases List.mem_append.mp answered with old' | new'
      · exact traced.row x old' e old ids
      · rw [List.mem_singleton.mp new'] at ids
        exact absurd ids (ne_of_lt (traced.keyed.fresh e old))
    · rw [List.mem_singleton.mp new] at ids ⊢
      rcases List.mem_append.mp answered with old' | new'
      · exact absurd ids.symm (ne_of_lt (old_id x old'))
      · rw [List.mem_singleton.mp new']
        exact ⟨rfl, rfl, rfl⟩
  · intro e inside
    rcases List.mem_append.mp inside with old | new
    · obtain ⟨x, answered, ids, reported⟩ := traced.kickoff e old
      exact ⟨x, List.mem_append_left _ answered, ids, reported⟩
    · rw [List.mem_singleton.mp new]
      exact ⟨_, List.mem_append_right _ (List.mem_singleton_self _), rfl, rfl⟩
  · intro x answered y answered' different same
    rcases List.mem_append.mp answered with old | new
    · rcases List.mem_append.mp answered' with old' | new'
      · exact traced.safe x old y old' different same
      · rw [List.mem_singleton.mp new'] at same
        exact absurd same (ne_of_lt (old_id x old))
    · rw [List.mem_singleton.mp new] at different same
      rcases List.mem_append.mp answered' with old' | new'
      · exact absurd same.symm (ne_of_lt (old_id y old'))
      · rw [List.mem_singleton.mp new'] at different
        exact absurd rfl different
  · intro x answered
    rcases List.mem_append.mp answered with old | new
    · exact traced.called x old
    · rw [List.mem_singleton.mp new]
      exact asked

/-- The references of the event that a tier takes all fit the report, where reports do not chain. -/
theorem fits_of_matched (traced : Traced d report called ⟨s, resolved⟩) (asked : called ref)
    {now startsAt : Int}
    (unchained : ∀ a b c, called a → called b → called c →
      Mergeable d (report a) (report b) → Mergeable d (report b) (report c) →
        Mergeable d (report a) (report c))
    {canon : Event} (matched : Matched d s ((report ref).call ref now) startsAt canon)
    (given : (report ref).startsAt = some startsAt) (real : ¬ isDateOnlyMidnight startsAt)
    (stored : ¬ canon.startsAt.any isDateOnlyMidnight) :
    ∀ x ∈ resolved, x.1 ≠ ref → x.2 = canon.id →
      Mergeable d (report x.1) (report ref) := by
  intro x answered _ same
  obtain ⟨m, answered', ids, reported⟩ := traced.kickoff canon matched.inside
  obtain ⟨k, known, near⟩ := matched.near
  have fixture : SameFixture d (report m.1) (report ref) :=
    (traced.row m answered' canon matched.inside ids.symm).same
      ⟨matched.sport, matched.sides, matched.markers⟩
  have mergeable : Mergeable d (report m.1) (report ref) := by
    refine ⟨fixture, k, reported ▸ known, startsAt, given, ?_, real, ?_⟩
    · intro midnight
      exact stored (by rw [known]; exact midnight)
    · rw [fixture.sport]
      exact near
  by_cases own : x.1 = m.1
  · rw [own]
    exact mergeable
  · exact unchained x.1 m.1 ref (traced.called x answered) (traced.called m answered') asked
      (traced.safe x answered m answered' own (same.trans ids.symm)) mergeable

theorem traced_answer {h : History} (traced : Traced d report called h)
    (unchained : ∀ a b c, called a → called b → called c →
      Mergeable d (report a) (report b) → Mergeable d (report b) (report c) →
        Mergeable d (report a) (report c))
    {call : Str × Int} (asked : called call.1) (placed : NoPlaceholder d report h call) :
    Traced d report called (answer d report h call) := by
  obtain ⟨s, resolved⟩ := h
  obtain ⟨ref, now⟩ := call
  have handled : Handled d s ((report ref).call ref now)
      (s.getOrCreateEvent d ((report ref).call ref now)) :=
    getOrCreateEvent_handled
  unfold answer
  simp only at handled ⊢
  generalize s.getOrCreateEvent d ((report ref).call ref now) = r at handled ⊢
  cases handled with
  | refused e bounded => exact traced
  | otherSport existing own unlinked other => exact traced
  | unreviewed existing own unlinked sport settled e => exact traced
  | unrecorded unknown startsAt real canon tier e => exact traced
  | followed id target =>
    obtain ⟨e, -, -, -, l, active, rfl⟩ := linkTarget_some target
    have known := traced.linked ref l active
    exact (traced.moveKickoff known).again known
  | unmoved existing own unlinked sport reviews =>
    obtain ⟨inside, rfl⟩ := own_some own
    obtain ⟨keyed, owned, linked, existing', row, kickoff, safe, called⟩ :=
      traced.again (traced.owned existing inside)
    exact ⟨⟨keyed.fresh, keyed.ids, keyed.refs⟩, owned, linked, existing', row, kickoff,
      safe, called⟩
  | moved existing own unlinked sport allowed =>
    obtain ⟨inside, named⟩ := own_some own
    have reference : existing.externalRef = ref := named
    have known : (ref, existing.id) ∈ resolved := reference ▸ traced.owned existing inside
    exact (traced.moveKickoff known).again known
  | merged unknown startsAt real canon tier matchMethod =>
    have matched := tierMatch_matched tier
    obtain ⟨given, other⟩ := realKickoff_some real
    have stored : ¬ canon.startsAt.any isDateOnlyMidnight := by
      rcases matched.real with exact_ | real'
      · exact placed unknown startsAt real canon exact_
      · exact real'
    have joined := traced.join asked matched.inside ⟨matched.sport, matched.sides,
      matched.markers⟩ (fits_of_matched traced asked unchained matched given other stored)
    have known : (ref, canon.id) ∈ resolved ++ [(ref, canon.id)] :=
      List.mem_append_right _ (List.mem_singleton_self _)
    have found : (s.moveKickoff canon.id (report ref).startsAt).own canon.externalRef = some _ :=
      own_moveKickoff_canon traced.keyed matched.inside
    exact (joined.moveKickoff known).upsert found known
  | minted unknown unmatched => exact traced.mint asked unknown.own

def History.empty : History := ⟨EventStore.empty, []⟩

theorem traced_empty : Traced d report called History.empty := by
  have unlinked : ∀ ref, ∀ l ∈ EventStore.empty.activeLinks ref,
      (ref, l.canonicalEventId) ∈ History.empty.resolved := by
    intro ref l active
    cases active
  refine ⟨keyed_empty, ?_, unlinked, ?_, ?_, ?_, ?_, ?_⟩
  all_goals
    intro x inside
    cases inside

/-- Where each reference always reports one fixture, two of them end at one event only if they are
mergeable, as long as mergeable reports do not chain and the first tier takes no placeholder. -/
theorem merges_safe (calls : List (Str × Int))
    (unchained : ∀ a ∈ calls, ∀ b ∈ calls, ∀ c ∈ calls,
      Mergeable d (report a.1) (report b.1) → Mergeable d (report b.1) (report c.1) →
        Mergeable d (report a.1) (report c.1))
    (placed : Along (answer d report) (NoPlaceholder d report) History.empty calls) :
    ∀ x ∈ (run (answer d report) History.empty calls).resolved,
      ∀ y ∈ (run (answer d report) History.empty calls).resolved,
        x.1 ≠ y.1 → x.2 = y.2 → Mergeable d (report x.1) (report y.1) := by
  have asked : Along (answer d report) (fun _ call => call ∈ calls) History.empty calls :=
    .of_forall fun call inside _ => inside
  have spaced : ∀ a b c, (∃ call ∈ calls, call.1 = a) → (∃ call ∈ calls, call.1 = b) →
      (∃ call ∈ calls, call.1 = c) →
      Mergeable d (report a) (report b) → Mergeable d (report b) (report c) →
        Mergeable d (report a) (report c) := by
    rintro a b c ⟨x, inside, rfl⟩ ⟨y, inside', rfl⟩ ⟨z, inside'', rfl⟩
    exact unchained x inside y inside' z inside''
  have traced : Traced d report (fun ref => ∃ call ∈ calls, call.1 = ref)
      (run (answer d report) History.empty calls) := by
    refine @Along.invariant _ _ (answer d report) _ (Traced d report fun ref => ∃ call ∈ calls,
      call.1 = ref) _ _ ?_ traced_empty (asked.and placed)
    rintro h call traced ⟨inside, placed⟩
    exact traced_answer traced spaced ⟨call, inside, rfl⟩ placed
  exact traced.safe

instance sameFixtureDecidable (a b : Report) : Decidable (SameFixture d a b) :=
  decidable_of_iff (a.sportId = b.sportId ∧
      sidesOf d a.homeId a.awayId = sidesOf d b.homeId b.awayId ∧
      leagueMarkerSet (d.leagueName a.leagueId) = leagueMarkerSet (d.leagueName b.leagueId))
    ⟨fun ⟨sport, sides, markers⟩ => ⟨sport, sides, markers⟩,
      fun ⟨sport, sides, markers⟩ => ⟨sport, sides, markers⟩⟩

instance mergeableDecidable (a b : Report) : Decidable (Mergeable d a b) :=
  decidable_of_iff (SameFixture d a b ∧ ∃ t ∈ a.startsAt, ∃ t' ∈ b.startsAt,
      ¬ isDateOnlyMidnight t ∧
      ¬ isDateOnlyMidnight t' ∧ |t - t'| ≤ dedupTolerance (d.sportKey a.sportId))
    ⟨fun ⟨fixture, near⟩ => ⟨fixture, near⟩,
      fun ⟨fixture, near⟩ => ⟨fixture, near⟩⟩

omit [Unicode] in
instance unknownDecidable (sportId : Nat) (ref : Str) : Decidable (s.Unknown sportId ref) :=
  decidable_of_iff (s.redirect sportId ref = none ∧ s.own ref = none ∧
    s.linked sportId ref = none) ⟨fun ⟨redirect, own, linked⟩ => ⟨redirect, own, linked⟩,
      fun ⟨redirect, own, linked⟩ => ⟨redirect, own, linked⟩⟩

instance noPlaceholderDecidable (h : History) (call : Str × Int) :
    Decidable (NoPlaceholder d report h call) :=
  inferInstanceAs (Decidable (h.store.Unknown _ _ → ∀ t ∈ EventCall.realKickoff _,
    ∀ e ∈ h.store.exactMatch d _ t, _))

end

/-! Two references of one derby, the second at another time than the first. -/

def derbyReport (first second : Int) (ref : Str) : Report :=
  ⟨1, 1, 1, 2, some (if ref = "oddsportal:1".toList then first else second)⟩

def derbyCalls : List (Str × Int) := [("oddsportal:1".toList, 0), ("oddschecker:2".toList, 0)]

theorem derby_merges_safe :
    @Mergeable Unicode.ascii derbyDirectory
      (derbyReport derbyKickoff (derbyKickoff + hours 1) "oddsportal:1".toList)
      (derbyReport derbyKickoff (derbyKickoff + hours 1) "oddschecker:2".toList) := by
  have answers : (run
      (@answer Unicode.ascii derbyDirectory (derbyReport derbyKickoff (derbyKickoff + hours 1)))
      History.empty derbyCalls).resolved = [("oddsportal:1".toList, 1),
        ("oddschecker:2".toList, 1)] := by
    decide +kernel
  have unchained : ∀ a ∈ derbyCalls, ∀ b ∈ derbyCalls, ∀ c ∈ derbyCalls,
      @Mergeable Unicode.ascii derbyDirectory
        (derbyReport derbyKickoff (derbyKickoff + hours 1) a.1)
        (derbyReport derbyKickoff (derbyKickoff + hours 1) b.1) →
      @Mergeable Unicode.ascii derbyDirectory
        (derbyReport derbyKickoff (derbyKickoff + hours 1) b.1)
        (derbyReport derbyKickoff (derbyKickoff + hours 1) c.1) →
      @Mergeable Unicode.ascii derbyDirectory
        (derbyReport derbyKickoff (derbyKickoff + hours 1) a.1)
        (derbyReport derbyKickoff (derbyKickoff + hours 1) c.1) := by decide +kernel
  have placed : Along
      (@answer Unicode.ascii derbyDirectory (derbyReport derbyKickoff (derbyKickoff + hours 1)))
      (@NoPlaceholder Unicode.ascii derbyDirectory
        (derbyReport derbyKickoff (derbyKickoff + hours 1)))
      History.empty derbyCalls := by decide +kernel
  have safe := @merges_safe Unicode.ascii derbyDirectory _ derbyCalls unchained placed
  rw [answers] at safe
  exact safe ("oddsportal:1".toList, 1) List.mem_cons_self ("oddschecker:2".toList, 1)
    (List.mem_cons_of_mem _ List.mem_cons_self) (by decide) rfl

/-- A fixture stored under the placeholder takes the one that starts at half past one. -/
theorem merges_safe_fails :
    let report := derbyReport (days 20000) (days 20000 + minutes 90)
    (@run _ _ (@answer Unicode.ascii derbyDirectory report) History.empty derbyCalls).resolved =
        [("oddsportal:1".toList, 1), ("oddschecker:2".toList, 1)] ∧
      ¬ @Mergeable Unicode.ascii derbyDirectory (report "oddsportal:1".toList)
        (report "oddschecker:2".toList) := by
  decide +kernel

end SharpEvPicks.Storage.EventStore
