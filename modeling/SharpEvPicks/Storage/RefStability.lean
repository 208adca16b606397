import SharpEvPicks.Storage.EventStages

/-! Where a provider's reference leads, over a sequence of calls. -/
namespace SharpEvPicks.Storage.EventStore

open Python Resolution Settlement Transition

section
variable [Unicode] {d : Directory} {s s' : EventStore} {c : EventCall}

/-- What a call leaves alone: every fixture, and the links of other references. -/
structure Frame (ref : Str) (s s' : EventStore) : Prop where
  kept : ∀ e ∈ s.events, ∃ e' ∈ s'.events, e'.fixture = e.fixture
  origin : ∀ e' ∈ s'.events, (∃ e ∈ s.events, e.fixture = e'.fixture) ∨
    e'.externalRef = ref
  links : ∀ other, other ≠ ref → ∀ l, l ∈ s'.activeLinks other ↔
    l ∈ s.activeLinks other
  settled : s'.settled = s.settled

omit [Unicode] in
theorem frame_of_fixtures {ref : Str}
    (same : s'.events.map Event.fixture = s.events.map Event.fixture)
    (links : ∀ other, other ≠ ref → ∀ l, l ∈ s'.activeLinks other ↔
      l ∈ s.activeLinks other)
    (settled : s'.settled = s.settled) : Frame ref s s' where
  kept e inside := by
    have listed : e.fixture ∈ s'.events.map Event.fixture := same ▸ List.mem_map_of_mem inside
    exact List.mem_map.mp listed
  origin e' inside := by
    have listed : e'.fixture ∈ s.events.map Event.fixture := same ▸ List.mem_map_of_mem inside
    exact .inl (List.mem_map.mp listed)
  links := links
  settled := settled

omit [Unicode] in
theorem frame_refl (ref : Str) (s : EventStore) : Frame ref s s :=
  frame_of_fixtures rfl (fun _ _ _ => Iff.rfl) rfl

omit [Unicode] in
theorem fixture_of_moved {id : Nat} {startsAt : Option Int} {e' : Event}
    (inside : e' ∈ (s.moveKickoff id startsAt).events) :
    ∃ e ∈ s.events, e.fixture = e'.fixture := by
  have listed : e'.fixture ∈ s.events.map Event.fixture :=
    moveKickoff_fixtures ▸ List.mem_map_of_mem inside
  exact List.mem_map.mp listed

omit [Unicode] in
theorem frame_moveKickoff {ref : Str} {id : Nat} {startsAt : Option Int} :
    Frame ref s (s.moveKickoff id startsAt) :=
  frame_of_fixtures moveKickoff_fixtures (fun _ _ _ => Iff.rfl) rfl

omit [Unicode] in
theorem frame_upsert {canonicalRef matchMethod : Str} {matchedAt : Int} {canon : Event} (ref : Str)
    (found : s.own canonicalRef = some canon) :
    Frame ref s (s.upsertEventSourceLink (sourceOfRef ref) ref canonicalRef matchMethod
      matchedAt) := by
  obtain ⟨events, settled, -⟩ :=
    @upsert_frame s (sourceOfRef ref) ref canonicalRef matchMethod matchedAt
  refine frame_of_fixtures (by rw [events]) ?_ settled
  intro other different l
  simp only [mem_activeLinks]
  constructor
  · rintro ⟨inside, source, named, active⟩
    rcases upsert_active found inside active with ⟨-, own, -⟩ | ⟨old, -⟩
    · exact absurd (named.symm.trans own) different
    · exact ⟨old, source, named, active⟩
  · rintro ⟨inside, source, named, active⟩
    refine ⟨upsert_keeps found inside ?_, source, named, active⟩
    rintro ⟨-, own⟩
    exact different (named.symm.trans own)

omit [Unicode] in
theorem Frame.trans {ref : Str} {s'' : EventStore} (first : Frame ref s s')
    (second : Frame ref s' s'') : Frame ref s s'' where
  kept e inside := by
    obtain ⟨e', inside', same⟩ := first.kept e inside
    obtain ⟨e'', inside'', same'⟩ := second.kept e' inside'
    exact ⟨e'', inside'', same'.trans same⟩
  origin e'' inside'' := by
    rcases second.origin e'' inside'' with ⟨e', inside', same'⟩ | own
    · rcases first.origin e' inside' with ⟨e, inside, same⟩ | own
      · exact .inl ⟨e, inside, same.trans same'⟩
      · have refs : e'.externalRef = e''.externalRef := by
          change e'.fixture.externalRef = e''.fixture.externalRef
          rw [same']
        exact .inr (refs.symm.trans own)
    · exact .inr own
  links other different l := (second.links other different l).trans (first.links other different l)
  settled := second.settled.trans first.settled

omit [Unicode] in
theorem frame_mint : Frame c.externalRef s (s.mint c).2 where
  kept e inside := ⟨e, List.mem_append_left _ inside, rfl⟩
  origin e' inside := by
    rcases List.mem_append.mp inside with old | new
    · exact .inl ⟨e', old, rfl⟩
    · rw [List.mem_singleton.mp new]
      exact .inr rfl
  links _ _ _ := Iff.rfl
  settled := rfl

theorem frame_afterCall (keyed : s.Keyed) : Frame c.externalRef s (s.afterCall d c) := by
  have handled : Handled d s c (s.getOrCreateEvent d c) := getOrCreateEvent_handled
  unfold afterCall
  generalize s.getOrCreateEvent d c = r at handled ⊢
  cases handled with
  | refused e bounded => exact frame_refl _ s
  | otherSport existing own unlinked other => exact frame_refl _ s
  | unmoved existing own unlinked sport reviews =>
    exact frame_of_fixtures rfl (fun _ _ _ => Iff.rfl) rfl
  | unreviewed existing own unlinked sport settled e => exact frame_refl _ s
  | unrecorded unknown startsAt real canon tier e => exact frame_refl _ s
  | moved existing own unlinked sport allowed => exact frame_moveKickoff
  | followed id target => exact frame_moveKickoff
  | minted unknown unmatched => exact frame_mint
  | merged unknown startsAt real canon tier matchMethod =>
    have found : (s.moveKickoff canon.id c.startsAt).own canon.externalRef = some _ :=
      own_moveKickoff_canon keyed (tierMatch_matched tier).inside
    exact frame_moveKickoff.trans (frame_upsert _ found)

end

/-- The one event that a reference leads to for calls of a sport: its own, beside links to other
sports' events, or the target of its links, beside another sport's own event. -/
structure Holds (s : EventStore) (ref : Str) (sportId id : Nat) : Prop where
  bounded : requireBoundedIdentity ref eventRefMaxBytes "event external_ref".toList = .ok ref
  event : ∃ e ∈ s.events, e.id = id ∧ e.sportId = sportId
  single : ∀ l ∈ s.activeLinks ref, ∀ l' ∈ s.activeLinks ref,
    l.canonicalEventId = l'.canonicalEventId
  standing : ((∃ e ∈ s.events, e.externalRef = ref ∧ e.id = id) ∧
      ∀ l ∈ s.activeLinks ref, ∃ e ∈ s.events, e.id = l.canonicalEventId ∧
        e.sportId ≠ sportId) ∨
    ((∀ e ∈ s.events, e.externalRef = ref → e.sportId ≠ sportId) ∧
      ∃ l ∈ s.activeLinks ref, l.canonicalEventId = id)

structure Unheld (s : EventStore) (ref : Str) : Prop where
  own : ∀ e ∈ s.events, e.externalRef ≠ ref
  links : ∀ l, l ∉ s.activeLinks ref

/-- A call with the reference is of its link's sport, where it lives as a link only. -/
def KeepsSport (ref : Str) (s : EventStore) (c : EventCall) : Prop :=
  c.externalRef = ref → s.own ref = none → ∀ l ∈ s.activeLinks ref, ∀ e ∈ s.events,
    e.id = l.canonicalEventId → e.sportId = c.sportId

/-- A call with the reference that is of another sport than its link, where it lives as a link only,
is merged onto no event by a tier: the merge would retire the link. -/
def KeepsLink [Unicode] (d : Directory) (ref : Str) (s : EventStore) (c : EventCall) : Prop :=
  c.externalRef = ref → s.own ref = none →
    (∃ l ∈ s.activeLinks ref, ∃ e ∈ s.events, e.id = l.canonicalEventId ∧
      e.sportId ≠ c.sportId) → ∀ startsAt ∈ c.realKickoff, s.tierMatch d c startsAt = none

/-- A reference with an event of its own has no links beside it. -/
def Unmixed (ref : Str) (s : EventStore) : Prop :=
  (s.own ref).isSome → ∀ l, l ∉ s.activeLinks ref

structure Fresh (s : EventStore) : Prop where
  keyed : s.Keyed
  unsettled : s.settled = []

section
variable {s s' : EventStore} {ref other : Str} {sportId id : Nat}

theorem fixture_sport {e e' : Event} (same : e'.fixture = e.fixture) :
    e'.id = e.id ∧ e'.sportId = e.sportId ∧ e'.externalRef = e.externalRef := by
  simp only [Event.fixture, Event.mk.injEq] at same
  exact ⟨same.1, same.2.1, same.2.2.2.2.2.1⟩

/-- Calls with other references, or that write no link, move no reference. -/
theorem Holds.of_frame (held : Holds s ref sportId id) (frame : Frame other s s')
    (new : ∀ e' ∈ s'.events, e'.externalRef = ref → ∃ e ∈ s.events,
      e.fixture = e'.fixture)
    (links : ∀ l, l ∈ s'.activeLinks ref ↔ l ∈ s.activeLinks ref) :
      Holds s' ref sportId id where
  bounded := held.bounded
  event := by
    obtain ⟨e, inside, ids, sport⟩ := held.event
    obtain ⟨e', inside', same⟩ := frame.kept e inside
    obtain ⟨ids', sport', -⟩ := fixture_sport same
    exact ⟨e', inside', ids'.trans ids, sport'.trans sport⟩
  single l active l' active' := held.single l ((links l).mp active) l' ((links l').mp active')
  standing := by
    rcases held.standing with ⟨⟨e, inside, own, ids⟩, apart⟩ | ⟨foreign, l,
      active, target⟩
    · left
      obtain ⟨e', inside', same⟩ := frame.kept e inside
      obtain ⟨ids', -, own'⟩ := fixture_sport same
      refine ⟨⟨e', inside', own'.trans own, ids'.trans ids⟩, fun l active => ?_⟩
      obtain ⟨t, listed, leads, sport⟩ := apart l ((links l).mp active)
      obtain ⟨t', listed', same'⟩ := frame.kept t listed
      obtain ⟨leads', sport', -⟩ := fixture_sport same'
      exact ⟨t', listed', leads'.trans leads, fun equal => sport (sport'.symm.trans equal)⟩
    · right
      refine ⟨fun e' inside' own' => ?_, l, (links l).mpr active, target⟩
      obtain ⟨e, inside, same⟩ := new e' inside' own'
      obtain ⟨-, sport, own⟩ := fixture_sport same
      exact fun equal => foreign e inside (own.trans own') (sport.trans equal)

theorem Unheld.of_frame (unheld : Unheld s ref) (frame : Frame other s s')
    (different : ref ≠ other) : Unheld s' ref where
  own e' inside' own' := by
    rcases frame.origin e' inside' with ⟨e, inside, same⟩ | new
    · exact unheld.own e inside ((fixture_sport same).2.2.trans own')
    · exact different (own'.symm.trans new)
  links l active := unheld.links l ((frame.links ref different l).mp active)

theorem Holds.of_other (held : Holds s ref sportId id) (frame : Frame other s s')
    (different : ref ≠ other) : Holds s' ref sportId id := by
  refine held.of_frame frame ?_ (frame.links ref different)
  intro e' inside' own'
  rcases frame.origin e' inside' with old | new
  · exact old
  · exact absurd (own'.symm.trans new) different

theorem Holds.moveKickoff (held : Holds s ref sportId id) {id' : Nat} {startsAt : Option Int} :
    Holds (s.moveKickoff id' startsAt) ref sportId id := by
  have frame : Frame [] s (s.moveKickoff id' startsAt) := frame_moveKickoff
  exact held.of_frame frame (fun _ inside' _ => fixture_of_moved inside') fun _ => Iff.rfl

end

section
variable [Unicode] {d : Directory} {s : EventStore} {c : EventCall} {sportId id : Nat}

omit [Unicode] in
theorem unowned_of_moved {ref : Str} (unowned : ∀ e ∈ s.events, e.externalRef ≠ ref)
    {startsAt : Option Int} :
    ∀ e ∈ (s.moveKickoff id startsAt).events, e.externalRef ≠ ref := by
  intro e' inside'
  obtain ⟨e, inside, same⟩ := fixture_of_moved inside'
  exact fun own => unowned e inside ((fixture_sport same).2.2.trans own)

omit [Unicode] in
theorem minted_mem (s : EventStore) (c : EventCall) :
    (⟨s.nextEventId, c.sportId, c.leagueId, c.homeId, c.awayId, c.externalRef, c.startsAt⟩ :
      Event) ∈ (s.mint c).2.events :=
  List.mem_append_right _ (List.mem_singleton_self _)

theorem bounded_of_ok (resolved : (s.getOrCreateEvent d c).1 = .ok id) :
    requireBoundedIdentity c.externalRef eventRefMaxBytes "event external_ref".toList =
      .ok c.externalRef := by
  unfold getOrCreateEvent at resolved
  cases bounded : requireBoundedIdentity c.externalRef eventRefMaxBytes
    "event external_ref".toList with
  | error e =>
    rw [bounded] at resolved
    cases resolved
  | ok ref => rw [requireBoundedIdentity_ok bounded]

omit [Unicode] in
theorem Holds.sport (held : Holds s c.externalRef sportId id) (keyed : s.Keyed) {e : Event}
    (inside : e ∈ s.events) (ids : e.id = id) : e.sportId = sportId := by
  obtain ⟨o, listed, own, sport⟩ := held.event
  rw [keyed.id_inj inside listed (ids.trans own.symm)]
  exact sport

omit [Unicode] in
theorem redirect_of_unlinked (held : Holds s c.externalRef sportId id)
    (unlinked : s.linkTarget c = none) : s.redirect c.sportId c.externalRef = none := by
  rw [linkTarget, held.bounded] at unlinked
  exact (Option.or_eq_none_iff.mp unlinked).1

omit [Unicode] in
/-- Where no link redirects a call of the sport, the event is the reference's own. -/
theorem Holds.own_of_unlinked (held : Holds s c.externalRef c.sportId id)
    (unlinked : s.redirect c.sportId c.externalRef = none) :
    ∃ e ∈ s.events, e.externalRef = c.externalRef ∧ e.id = id := by
  rcases held.standing with ⟨own, -⟩ | ⟨foreign, l, active, target⟩
  · exact own
  · obtain ⟨e, inside, ids, sport⟩ := held.event
    have other : e.externalRef ≠ c.externalRef := fun own => foreign e inside own sport
    exact absurd (target.trans ids.symm) (redirect_none unlinked inside sport other l active)

omit [Unicode] in
theorem Holds.known (held : Holds s c.externalRef c.sportId id) :
    ¬ s.Unknown c.sportId c.externalRef := by
  intro unknown
  obtain ⟨e, inside, own, -⟩ := held.own_of_unlinked unknown.redirect
  exact own_none_iff.mp unknown.own e inside own

/-- A call of the sport is led to the event. -/
theorem Holds.resolves (fresh : s.Fresh) (held : Holds s c.externalRef c.sportId id) :
    (s.getOrCreateEvent d c).1 = .ok id := by
  have handled : Handled d s c (s.getOrCreateEvent d c) := getOrCreateEvent_handled
  have owner : ∀ existing, s.own c.externalRef = some existing → s.linkTarget c = none →
      existing.id = id := by
    intro existing own unlinked
    obtain ⟨inside, named⟩ := own_some own
    obtain ⟨e, listed, own', ids⟩ := held.own_of_unlinked (redirect_of_unlinked held unlinked)
    obtain rfl := fresh.keyed.ref_inj inside listed (named.trans own'.symm)
    exact ids
  generalize s.getOrCreateEvent d c = r at handled ⊢
  cases handled with
  | refused e bounded => cases bounded.symm.trans held.bounded
  | followed id' target =>
    obtain ⟨e, inside, ids, sport, l, active, leads⟩ := linkTarget_some target
    rcases held.standing with ⟨-, apart⟩ | ⟨-, l', active', leads'⟩
    · obtain ⟨t, listed, ids', other⟩ := apart l active
      obtain rfl := fresh.keyed.id_inj inside listed (ids.trans (leads.symm.trans ids'.symm))
      exact absurd sport other
    · rw [← leads, held.single l active l' active', leads']
  | otherSport existing own unlinked other =>
    obtain ⟨inside, -⟩ := own_some own
    exact absurd (held.sport fresh.keyed inside (owner existing own unlinked)) other
  | unmoved existing own unlinked sport reviews => exact congrArg _ (owner existing own unlinked)
  | unreviewed existing own unlinked sport settled e =>
    rw [fresh.unsettled] at settled
    cases settled
  | moved existing own unlinked sport allowed => exact congrArg _ (owner existing own unlinked)
  | merged unknown startsAt real canon tier matchMethod => exact absurd unknown held.known
  | unrecorded unknown startsAt real canon tier e => exact absurd unknown held.known
  | minted unknown unmatched => exact absurd unknown held.known

/-- A tier merges no call with a reference that leads somewhere. -/
theorem Holds.unmatched (held : Holds s c.externalRef sportId id)
    (keeps : KeepsLink d c.externalRef s c) (unknown : s.Unknown c.sportId c.externalRef)
    {startsAt : Int} (real : c.realKickoff = some startsAt) : s.tierMatch d c startsAt = none := by
  have other : sportId ≠ c.sportId := by
    rintro rfl
    exact held.known unknown
  refine keeps rfl unknown.own ?_ startsAt real
  rcases held.standing with ⟨⟨e, inside, own, -⟩, -⟩ | ⟨-, l, active, target⟩
  · exact absurd own (own_none_iff.mp unknown.own e inside)
  · obtain ⟨e, inside, ids, sport⟩ := held.event
    exact ⟨l, active, e, inside, ids.trans target.symm,
      fun same => other (sport.symm.trans same)⟩

/-- A call of the sport leaves the reference where it leads. -/
theorem Holds.ownCall (held : Holds s c.externalRef c.sportId id) :
    Holds (s.afterCall d c) c.externalRef c.sportId id := by
  have handled : Handled d s c (s.getOrCreateEvent d c) := getOrCreateEvent_handled
  unfold afterCall
  generalize s.getOrCreateEvent d c = r at handled ⊢
  cases handled with
  | refused e bounded => exact held
  | followed id' target => exact held.moveKickoff
  | otherSport existing own unlinked other => exact held
  | unmoved existing own unlinked sport reviews =>
    exact ⟨held.bounded, held.event, held.single, held.standing⟩
  | unreviewed existing own unlinked sport settled e => exact held
  | moved existing own unlinked sport allowed => exact held.moveKickoff
  | merged unknown startsAt real canon tier matchMethod => exact absurd unknown held.known
  | unrecorded unknown startsAt real canon tier e => exact absurd unknown held.known
  | minted unknown unmatched => exact absurd unknown held.known

/-! A call of another sport: it may find an event of its own beside the one that is held. -/

section Foreign
variable (fresh : s.Fresh) (held : Holds s c.externalRef sportId id)
  (foreign : c.sportId ≠ sportId)
include fresh held foreign

omit [Unicode] in
/-- An event of its own that is of the call's sport stands beside a link to the held one. -/
theorem Holds.beside {existing : Event} (found : s.own c.externalRef = some existing)
    (sport : existing.sportId = c.sportId) : Holds s c.externalRef c.sportId existing.id := by
  obtain ⟨inside, named⟩ := own_some found
  rcases held.standing with ⟨⟨e, listed, own', ids⟩, -⟩ | ⟨-, l, active, target⟩
  · obtain rfl := fresh.keyed.ref_inj inside listed (named.trans own'.symm)
    exact absurd (sport.symm.trans (held.sport fresh.keyed inside ids)) foreign
  · obtain ⟨e, listed, ids, sport'⟩ := held.event
    refine ⟨held.bounded, ⟨existing, inside, rfl, sport⟩, held.single,
      .inl ⟨⟨existing, inside, named, rfl⟩, fun l' active' => ⟨e, listed, ?_, ?_⟩⟩⟩
    · rw [ids, held.single l' active' l active, target]
    · exact fun same => foreign (same.symm.trans sport')

omit [Unicode] in
/-- A link that the call follows stands beside an event of the reference's own. -/
theorem Holds.linked {id' : Nat} (target : s.linkTarget c = some id') :
    Holds s c.externalRef c.sportId id' := by
  obtain ⟨e, inside, ids, sport, l, active, leads⟩ := linkTarget_some target
  refine ⟨held.bounded, ⟨e, inside, ids, sport⟩, held.single,
    .inr ⟨fun e' inside' named same => ?_, l, active, leads⟩⟩
  rcases held.standing with ⟨⟨o, listed, own', ids'⟩, -⟩ | ⟨-, l', active', target'⟩
  · obtain rfl := fresh.keyed.ref_inj inside' listed (named.trans own'.symm)
    exact foreign (same.symm.trans (held.sport fresh.keyed inside' ids'))
  · have equal : e.id = id := by rw [ids, ← leads, held.single l active l' active', target']
    exact foreign (sport.symm.trans (held.sport fresh.keyed inside equal))

omit [Unicode] fresh in
/-- Both stand after the call mints an event. -/
theorem Holds.minted (unowned : s.own c.externalRef = none) :
    Holds (s.mint c).2 c.externalRef sportId id ∧
      Holds (s.mint c).2 c.externalRef c.sportId s.nextEventId := by
  obtain ⟨e, inside, ids, sport⟩ := held.event
  have old : e ∈ (s.mint c).2.events := List.mem_append_left _ inside
  have new := minted_mem s c
  rcases held.standing with ⟨⟨o, listed, own', -⟩, -⟩ | ⟨-, l, active, target⟩
  · exact absurd own' (own_none_iff.mp unowned o listed)
  · constructor
    · refine ⟨held.bounded, ⟨e, old, ids, sport⟩, held.single,
        .inr ⟨fun e' inside' named => ?_, l, active, target⟩⟩
      rcases List.mem_append.mp inside' with before | last
      · exact absurd named (own_none_iff.mp unowned e' before)
      · rw [List.mem_singleton.mp last]
        exact foreign
    · refine ⟨held.bounded, ⟨_, new, rfl, rfl⟩, held.single,
        .inl ⟨⟨_, new, rfl, rfl⟩, fun l' active' => ⟨e, old, ?_, ?_⟩⟩⟩
      · rw [ids, held.single l' active' l active, target]
      · exact fun same => foreign (same.symm.trans sport)

theorem Holds.foreignCall (keeps : KeepsLink d c.externalRef s c) :
    Holds (s.afterCall d c) c.externalRef sportId id ∧
      ∀ id', (s.getOrCreateEvent d c).1 = .ok id' →
        Holds (s.afterCall d c) c.externalRef c.sportId id' := by
  have handled : Handled d s c (s.getOrCreateEvent d c) := getOrCreateEvent_handled
  unfold afterCall
  generalize s.getOrCreateEvent d c = r at handled ⊢
  cases handled with
  | refused e bounded => cases bounded.symm.trans held.bounded
  | followed id' target =>
    refine ⟨held.moveKickoff, fun id'' resolved => ?_⟩
    cases resolved
    exact (held.linked fresh foreign target).moveKickoff
  | otherSport existing own unlinked other => exact ⟨held, fun _ resolved => by cases resolved⟩
  | unmoved existing own unlinked sport reviews =>
    refine ⟨⟨held.bounded, held.event, held.single, held.standing⟩, fun id' resolved => ?_⟩
    cases resolved
    have next := held.beside fresh foreign own sport
    exact ⟨next.bounded, next.event, next.single, next.standing⟩
  | unreviewed existing own unlinked sport settled e =>
    rw [fresh.unsettled] at settled
    cases settled
  | moved existing own unlinked sport allowed =>
    refine ⟨held.moveKickoff, fun id' resolved => ?_⟩
    cases resolved
    exact (held.beside fresh foreign own sport).moveKickoff
  | merged unknown startsAt real canon tier matchMethod =>
    cases (held.unmatched keeps unknown real).symm.trans tier
  | unrecorded unknown startsAt real canon tier e =>
    cases (held.unmatched keeps unknown real).symm.trans tier
  | minted unknown unmatched =>
    obtain ⟨still, new⟩ := held.minted foreign unknown.own
    refine ⟨still, fun id' resolved => ?_⟩
    cases resolved
    exact new

end Foreign

/-- A call with the reference leaves it where it leads, and may be resolved to an event of its own
sport besides. -/
theorem holds_call (fresh : s.Fresh) (held : Holds s c.externalRef sportId id)
    (keeps : KeepsLink d c.externalRef s c) :
    Holds (s.afterCall d c) c.externalRef sportId id ∧
      ∀ id', (s.getOrCreateEvent d c).1 = .ok id' →
        Holds (s.afterCall d c) c.externalRef c.sportId id' := by
  by_cases own : c.sportId = sportId
  · subst own
    refine ⟨held.ownCall, fun id' resolved => ?_⟩
    cases (held.resolves fresh).symm.trans resolved
    exact held.ownCall
  · exact held.foreignCall fresh own keeps

/-- A call with a reference that nothing knows resolves it, or raises and leaves it unknown. -/
theorem unheld_call (fresh : s.Fresh) (unheld : Unheld s c.externalRef) :
    ((∃ e, (s.getOrCreateEvent d c).1 = .error e) ∧ Unheld (s.afterCall d c) c.externalRef) ∨
      ∃ id, (s.getOrCreateEvent d c).1 = .ok id ∧ Holds
        (s.afterCall d c) c.externalRef c.sportId id := by
  have handled : Handled d s c (s.getOrCreateEvent d c) := getOrCreateEvent_handled
  have accepted : ∀ id, (s.getOrCreateEvent d c).1 = .ok id →
      requireBoundedIdentity c.externalRef eventRefMaxBytes "event external_ref".toList =
        .ok c.externalRef :=
    fun id => bounded_of_ok
  have unowned : ∀ existing, s.own c.externalRef ≠ some existing := by
    intro existing own
    obtain ⟨inside, named⟩ := own_some own
    exact unheld.own existing inside named
  unfold afterCall
  generalize s.getOrCreateEvent d c = r at handled accepted ⊢
  cases handled with
  | refused e bounded => exact .inl ⟨⟨_, rfl⟩, unheld⟩
  | otherSport existing own unlinked other => exact absurd own (unowned existing)
  | unmoved existing own unlinked sport reviews => exact absurd own (unowned existing)
  | unreviewed existing own unlinked sport settled e => exact absurd own (unowned existing)
  | moved existing own unlinked sport allowed => exact absurd own (unowned existing)
  | followed id target =>
    obtain ⟨e, inside, ids, sport, l, active, leads⟩ := linkTarget_some target
    exact absurd active (unheld.links l)
  | unrecorded unknown startsAt real canon tier e => exact .inl ⟨⟨_, rfl⟩, unheld⟩
  | merged unknown startsAt real canon tier matchMethod =>
    have matched := tierMatch_matched tier
    have found : (s.moveKickoff canon.id c.startsAt).own canon.externalRef = some _ :=
      own_moveKickoff_canon fresh.keyed matched.inside
    have target : ∀ l ∈
        (commit s (.ok canon.id, (s.moveKickoff canon.id c.startsAt).upsertEventSourceLink
        (sourceOfRef c.externalRef) c.externalRef canon.externalRef matchMethod c.now)).activeLinks
        c.externalRef, l.canonicalEventId = canon.id := by
      intro l active
      obtain ⟨inside, source, named, live⟩ := mem_activeLinks.mp active
      rcases upsert_active found inside live with ⟨-, -, target⟩ | ⟨-, other⟩
      · exact target
      · exact absurd ⟨source, named⟩ other
    refine .inr ⟨canon.id, rfl, accepted canon.id rfl, ?_,
      fun l active l' active' => (target l active).trans (target l' active').symm,
        .inr ⟨?_, ?_⟩⟩
    · refine ⟨{ canon with startsAt := preferKickoff canon.startsAt c.startsAt }, ?_, rfl,
        matched.sport⟩
      rw [commit, upsert_frame.1]
      exact (own_some found).1
    · intro e inside named
      rw [commit, upsert_frame.1] at inside
      exact absurd named (unowned_of_moved unheld.own e inside)
    · obtain ⟨l, inside, source, named, leads, active⟩ := upsert_links found
      have live := mem_activeLinks.mpr ⟨inside, source, named, active⟩
      exact ⟨l, live, target l live⟩
  | minted unknown unmatched =>
    have new := minted_mem s c
    exact .inr ⟨s.nextEventId, rfl, accepted s.nextEventId rfl, ⟨_, new, rfl, rfl⟩,
      fun l active => absurd active (unheld.links l),
      .inl ⟨⟨_, new, rfl, rfl⟩, fun l active => absurd active (unheld.links l)⟩⟩

theorem result_sport (fresh : s.Fresh) (resolved : (s.getOrCreateEvent d c).1 = .ok id) :
    ∃ e ∈ (s.afterCall d c).events, e.id = id ∧ e.sportId = c.sportId := by
  have handled : Handled d s c (s.getOrCreateEvent d c) := getOrCreateEvent_handled
  have frame : Frame c.externalRef s (s.afterCall d c) := frame_afterCall fresh.keyed
  have kept : ∀ e ∈ s.events, e.id = id → e.sportId = c.sportId →
      ∃ e ∈ (s.afterCall d c).events, e.id = id ∧ e.sportId = c.sportId := by
    intro e inside ids sport
    obtain ⟨e', inside', same⟩ := frame.kept e inside
    obtain ⟨ids', sport', -⟩ := fixture_sport same
    exact ⟨e', inside', ids'.trans ids, sport'.trans sport⟩
  unfold afterCall at kept ⊢
  generalize s.getOrCreateEvent d c = r at handled resolved kept ⊢
  cases handled with
  | refused e bounded => cases resolved
  | otherSport existing own unlinked other => cases resolved
  | unreviewed existing own unlinked sport settled e => cases resolved
  | unrecorded unknown startsAt real canon tier e => cases resolved
  | unmoved existing own unlinked sport reviews =>
    cases resolved
    exact kept existing (own_some own).1 rfl sport
  | moved existing own unlinked sport allowed =>
    cases resolved
    exact kept existing (own_some own).1 rfl sport
  | followed id' target =>
    cases resolved
    obtain ⟨e, inside, ids, sport, -⟩ := linkTarget_some target
    exact kept e inside ids sport
  | merged unknown startsAt real canon tier matchMethod =>
    cases resolved
    have matched := tierMatch_matched tier
    exact kept canon matched.inside rfl matched.sport
  | minted unknown unmatched =>
    cases resolved
    exact ⟨_, List.mem_append_right _ (List.mem_singleton_self _), rfl, rfl⟩

end

/-! Runs. -/

section
variable [Unicode] {d : Directory} {s : EventStore} {ref : Str}

theorem Fresh.afterCall (fresh : s.Fresh) (c : EventCall) : (s.afterCall d c).Fresh :=
  ⟨fresh.keyed.afterCall, (frame_afterCall fresh.keyed).settled.trans fresh.unsettled⟩

omit [Unicode] in
theorem fresh_empty : EventStore.empty.Fresh := ⟨keyed_empty, rfl⟩

theorem Holds.afterCall {sportId id : Nat} (held : Holds s ref sportId id) (fresh : s.Fresh)
    {c : EventCall} (keeps : KeepsLink d ref s c) : Holds (s.afterCall d c) ref sportId id := by
  by_cases own : c.externalRef = ref
  · subst own
    exact (holds_call fresh held keeps).1
  · exact held.of_other (frame_afterCall fresh.keyed) (Ne.symm own)

theorem standing_afterCall (fresh : s.Fresh) {c : EventCall} (keeps : KeepsLink d ref s c)
    (standing : Unheld s ref ∨ ∃ sportId id, Holds s ref sportId id) :
    Unheld (s.afterCall d c) ref ∨ ∃ sportId id, Holds (s.afterCall d c) ref sportId id := by
  rcases standing with unheld | ⟨sportId, id, held⟩
  · by_cases own : c.externalRef = ref
    · subst own
      rcases unheld_call fresh unheld with ⟨-, still⟩ | ⟨id, -, held⟩
      · exact .inl still
      · exact .inr ⟨c.sportId, id, held⟩
    · exact .inl (unheld.of_frame (frame_afterCall fresh.keyed) (Ne.symm own))
  · exact .inr ⟨sportId, id, held.afterCall fresh keeps⟩

theorem holds_of_resolved (fresh : s.Fresh) {c : EventCall}
    (keeps : KeepsLink d c.externalRef s c)
    (standing : Unheld s c.externalRef ∨ ∃ sportId id, Holds s c.externalRef sportId id)
    {id : Nat} (resolved : (s.getOrCreateEvent d c).1 = .ok id) :
    Holds (s.afterCall d c) c.externalRef c.sportId id := by
  rcases standing with unheld | ⟨sportId, id', held⟩
  · rcases unheld_call fresh unheld with ⟨⟨e, raised⟩, -⟩ | ⟨id', resolved', held⟩
    · cases resolved.symm.trans raised
    · cases resolved.symm.trans resolved'
      exact held
  · exact (holds_call fresh held keeps).2 id resolved

/-- A call whose sport has no event under the reference raises where the reference has one. -/
theorem otherSport_of_own {c : EventCall} {existing : Event}
    (bounded : requireBoundedIdentity c.externalRef eventRefMaxBytes "event external_ref".toList =
      .ok c.externalRef)
    (own : s.own c.externalRef = some existing)
    (none_ : ∀ e ∈ s.events, e.sportId = c.sportId → e.externalRef ≠ c.externalRef ∧
      ∀ l ∈ s.activeLinks c.externalRef, l.canonicalEventId ≠ e.id) :
    s.getOrCreateEvent d c = (.error .otherSport, s) := by
  have handled : Handled d s c (s.getOrCreateEvent d c) := getOrCreateEvent_handled
  have foreign : ∀ e, s.own c.externalRef = some e → e.sportId ≠ c.sportId := by
    intro e found sport
    obtain ⟨inside, named⟩ := own_some found
    exact (none_ e inside sport).1 named
  generalize s.getOrCreateEvent d c = r at handled ⊢
  cases handled with
  | refused e raised => cases raised.symm.trans bounded
  | followed id target =>
    obtain ⟨e, inside, ids, sport, l, active, leads⟩ := linkTarget_some target
    exact absurd (leads.trans ids.symm) ((none_ e inside sport).2 l active)
  | otherSport existing own unlinked other => rfl
  | unmoved existing own unlinked sport reviews => exact absurd sport (foreign existing own)
  | unreviewed existing own unlinked sport settled e => exact absurd sport (foreign existing own)
  | moved existing own unlinked sport allowed => exact absurd sport (foreign existing own)
  | merged unknown startsAt real canon tier matchMethod => cases own.symm.trans unknown.own
  | unrecorded unknown startsAt real canon tier e => cases own.symm.trans unknown.own
  | minted unknown unmatched => cases own.symm.trans unknown.own

/-! A reference that no call uses for two sports. -/

omit [Unicode] in
theorem Unmixed.of_kept {s' : EventStore} (unmixed : Unmixed ref s)
    (new : ∀ e' ∈ s'.events, e'.externalRef = ref → ∃ e ∈ s.events,
      e.fixture = e'.fixture)
    (links : ∀ l, l ∈ s'.activeLinks ref ↔ l ∈ s.activeLinks ref) : Unmixed ref s' := by
  intro owned l active
  obtain ⟨e', found⟩ := Option.isSome_iff_exists.mp owned
  obtain ⟨inside', named⟩ := own_some found
  obtain ⟨e, inside, same⟩ := new e' inside' named
  refine unmixed ?_ l ((links l).mp active)
  by_contra missing
  rw [Option.not_isSome_iff_eq_none] at missing
  exact own_none_iff.mp missing e inside ((fixture_sport same).2.2.trans named)

omit [Unicode] in
theorem Unmixed.moveKickoff (unmixed : Unmixed ref s) {id : Nat} {startsAt : Option Int} :
    Unmixed ref (s.moveKickoff id startsAt) :=
  unmixed.of_kept (fun _ inside' _ => fixture_of_moved inside') fun _ => Iff.rfl

omit [Unicode] in
theorem not_unknown_of_keepsSport {c : EventCall} (keeps : KeepsSport c.externalRef s c)
    (standing : Unheld s c.externalRef ∨ ∃ sportId id, Holds s c.externalRef sportId id)
    (unknown : s.Unknown c.sportId c.externalRef) : Unheld s c.externalRef := by
  rcases standing with unheld | ⟨sportId, id, held⟩
  · exact unheld
  · rcases held.standing with ⟨⟨e, inside, own, -⟩, -⟩ | ⟨-, l, active, target⟩
    · exact absurd own (own_none_iff.mp unknown.own e inside)
    · obtain ⟨e, inside, ids, sport⟩ := held.event
      have same := keeps rfl unknown.own l active e inside (ids.trans target.symm)
      obtain rfl := sport.symm.trans same
      exact absurd unknown held.known

theorem Unmixed.afterCall (fresh : s.Fresh) {c : EventCall} (keeps : KeepsSport ref s c)
    (standing : Unheld s ref ∨ ∃ sportId id, Holds s ref sportId id) (unmixed : Unmixed ref s) :
    Unmixed ref (s.afterCall d c) := by
  by_cases own : c.externalRef = ref
  · subst own
    have handled : Handled d s c (s.getOrCreateEvent d c) := getOrCreateEvent_handled
    unfold EventStore.afterCall
    generalize s.getOrCreateEvent d c = r at handled ⊢
    cases handled with
    | refused e bounded => exact unmixed
    | followed id target => exact unmixed.moveKickoff
    | otherSport existing own unlinked other => exact unmixed
    | unmoved existing own unlinked sport reviews => exact unmixed
    | unreviewed existing own unlinked sport settled e => exact unmixed
    | moved existing own unlinked sport allowed => exact unmixed.moveKickoff
    | unrecorded unknown startsAt real canon tier e => exact unmixed
    | minted unknown unmatched =>
      exact fun _ => (not_unknown_of_keepsSport keeps standing unknown).links
    | merged unknown startsAt real canon tier matchMethod =>
      intro owned
      obtain ⟨e, found⟩ := Option.isSome_iff_exists.mp owned
      obtain ⟨inside, named⟩ := own_some found
      rw [commit, upsert_frame.1] at inside
      exact absurd named (unowned_of_moved (own_none_iff.mp unknown.own) e inside)
  · have frame := @frame_afterCall _ d _ c fresh.keyed
    refine unmixed.of_kept ?_ (frame.links ref (Ne.symm own))
    intro e' inside' named
    rcases frame.origin e' inside' with old | new
    · exact old
    · exact absurd (new.symm.trans named) own

theorem KeepsSport.keepsLink {c : EventCall} (keeps : KeepsSport ref s c) :
    KeepsLink d ref s c := by
  rintro own unowned ⟨l, active, e, inside, ids, other⟩
  exact absurd (keeps own unowned l active e inside ids) other

/-! Runs of calls. -/

/-- What holds of a reference after every run that keeps its link. -/
structure Standing (ref : Str) (s : EventStore) : Prop where
  fresh : s.Fresh
  led : Unheld s ref ∨ ∃ sportId id, Holds s ref sportId id

omit [Unicode] in
theorem standing_empty (ref : Str) : Standing ref EventStore.empty :=
  ⟨fresh_empty, .inl ⟨fun e none => (by cases none), fun l none => (by cases none)⟩⟩

theorem Standing.run {calls : List EventCall}
    (keeps : Along (EventStore.afterCall d) (KeepsLink d ref) s calls) (standing : Standing ref s) :
    Standing ref (run (EventStore.afterCall d) s calls) := by
  refine Along.invariant (fun s c standing keeps => ?_) standing keeps
  exact ⟨standing.fresh.afterCall c, standing_afterCall standing.fresh keeps standing.led⟩

theorem unmixed_run {calls : List EventCall}
    (keeps : Along (EventStore.afterCall d) (KeepsSport ref) s calls) (standing : Standing ref s)
    (unmixed : Unmixed ref s) : Unmixed ref (run (EventStore.afterCall d) s calls) := by
  have both : Standing ref (run (EventStore.afterCall d) s calls) ∧
      Unmixed ref (run (EventStore.afterCall d) s calls) := by
    refine @Along.invariant _ _ (EventStore.afterCall d) _ (fun s => Standing ref s ∧
      Unmixed ref s) _ _ (fun s c held keeps => ?_) ⟨standing, unmixed⟩ keeps
    obtain ⟨standing, unmixed⟩ := held
    exact ⟨⟨standing.fresh.afterCall c,
      standing_afterCall standing.fresh keeps.keepsLink standing.led⟩,
      unmixed.afterCall standing.fresh keeps standing.led⟩
  exact both.2

/-- A reference resolved to an event leads every later call of that sport to it, as long as no call
merges it onto an event of another sport while it lives as a link only. A call of another sport
never ends at the event: what it returns is of its own sport; and it raises and changes nothing
where the reference has an event of its own and none of the call's sport, which is so whenever it
has an event of its own, as long as no call uses it for another sport while it lives as a link only.
-/
theorem refs_resolve_stably (before middle : List EventCall) (c c' : EventCall) {id : Nat}
    (same : c'.externalRef = c.externalRef)
    (resolved : ((run (afterCall d) EventStore.empty before).getOrCreateEvent d c).1 = .ok id)
    (keeps : Along (afterCall d) (KeepsLink d c.externalRef) EventStore.empty
      (before ++ c :: middle)) :
    let s := run (afterCall d) EventStore.empty (before ++ c :: middle)
    (c'.sportId = c.sportId → (s.getOrCreateEvent d c').1 = .ok id) ∧
      (c'.sportId ≠ c.sportId → ∀ id', (s.getOrCreateEvent d c').1 = .ok id' →
        id' ≠ id ∧ ∃ e ∈ (s.afterCall d c').events, e.id = id' ∧
          e.sportId = c'.sportId) ∧
      (c'.sportId ≠ c.sportId → (s.own c.externalRef).isSome →
        ((∀ e ∈ s.events, e.sportId = c'.sportId → e.externalRef ≠ c.externalRef ∧
            ∀ l ∈ s.activeLinks c.externalRef, l.canonicalEventId ≠ e.id) ∨
          Along (afterCall d) (KeepsSport c.externalRef) EventStore.empty
            (before ++ c :: middle)) →
        s.getOrCreateEvent d c' = (.error .otherSport, s)) := by
  obtain ⟨early, now, late⟩ := along_append.mp keeps
  have start := (standing_empty c.externalRef).run early
  have held := holds_of_resolved start.fresh now start.led resolved
  have last : (run (afterCall d) EventStore.empty (before ++ c :: middle)).Fresh ∧
      Holds (run (afterCall d) EventStore.empty (before ++ c :: middle)) c.externalRef c.sportId
        id := by
    rw [run_append, run_cons]
    refine @Along.invariant _ _ (afterCall d) _
      (fun s => s.Fresh ∧ Holds s c.externalRef c.sportId id) _ _ ?_
      ⟨start.fresh.afterCall c, held⟩ late
    rintro s a ⟨fresh, held⟩ keeps
    exact ⟨fresh.afterCall a, held.afterCall fresh keeps⟩
  obtain ⟨fresh, final⟩ := last
  intro s
  have named : Holds s c'.externalRef c.sportId id := same.symm ▸ final
  refine ⟨?_, ?_, ?_⟩
  · intro sport
    rw [← sport] at named
    exact named.resolves fresh
  · intro sport id' resolved'
    obtain ⟨e, inside, ids, own⟩ := result_sport fresh resolved'
    refine ⟨?_, e, inside, ids, own⟩
    intro equal
    obtain ⟨o, listed, ids', sport'⟩ := named.event
    have frame : Frame c'.externalRef s (s.afterCall d c') := frame_afterCall fresh.keyed
    obtain ⟨o', listed', fixture⟩ := frame.kept o listed
    obtain ⟨ids'', sport'', -⟩ := fixture_sport fixture
    obtain rfl := fresh.keyed.afterCall.id_inj inside listed'
      (ids.trans (equal.trans (ids''.trans ids').symm))
    exact sport (own.symm.trans (sport''.trans sport'))
  · intro sport owned apart
    obtain ⟨existing, found⟩ := Option.isSome_iff_exists.mp owned
    rw [← same] at found apart
    refine otherSport_of_own named.bounded found ?_
    obtain none_ | single := apart
    · exact none_
    · rw [same] at single
      have unmixed := unmixed_run single (standing_empty c.externalRef) (fun owned => by
        cases owned)
      have unlinked : ∀ l, l ∉ s.activeLinks c'.externalRef := same.symm ▸ unmixed owned
      intro e inside other
      refine ⟨fun mine => ?_, fun l active => absurd active (unlinked l)⟩
      rcases named.standing with ⟨⟨o, listed, own, ids⟩, -⟩ | ⟨-, l, active, -⟩
      · obtain rfl := fresh.keyed.ref_inj inside listed (mine.trans own.symm)
        exact sport (other.symm.trans (named.sport fresh.keyed inside ids))
      · exact unlinked l active

end

/-! A reference that was merged by its link, and then called for another sport. -/

def mergedCalls : List EventCall := [derbyCall 1 "oddsportal:1".toList (some derbyKickoff)]

def linkedCall (sportId : Nat) : EventCall :=
  derbyCall sportId "oddschecker:2".toList (some derbyKickoff)

instance keepsLinkDecidable [Unicode] (d : Directory) (ref : Str) (s : EventStore) (c : EventCall) :
    Decidable (KeepsLink d ref s c) :=
  inferInstanceAs (Decidable (c.externalRef = ref → s.own ref = none →
    (∃ l ∈ s.activeLinks ref, ∃ e ∈ s.events, _) → ∀ startsAt ∈ c.realKickoff, _))

theorem linkedCall_stable :
    let s := run (@afterCall Unicode.ascii derbyDirectory) EventStore.empty
      (mergedCalls ++ linkedCall 1 :: [linkedCall 2])
    (@getOrCreateEvent Unicode.ascii derbyDirectory s (linkedCall 1)).1 = .ok 1 ∧
      @getOrCreateEvent Unicode.ascii derbyDirectory s (linkedCall 3) =
        (.error .otherSport, s) := by
  have resolved : (@getOrCreateEvent Unicode.ascii derbyDirectory
      (run (@afterCall Unicode.ascii derbyDirectory) EventStore.empty mergedCalls)
        (linkedCall 1)).1 = .ok 1 := by
    decide +kernel
  have keeps : Along (@afterCall Unicode.ascii derbyDirectory)
      (@KeepsLink Unicode.ascii derbyDirectory (linkedCall 1).externalRef)
      EventStore.empty (mergedCalls ++ linkedCall 1 :: [linkedCall 2]) := by decide +kernel
  have stable (sportId : Nat) :=
    @refs_resolve_stably Unicode.ascii _ mergedCalls [linkedCall 2] (linkedCall 1)
    (linkedCall sportId) _ rfl resolved keeps
  exact ⟨(stable 1).1 rfl,
    (stable 3).2.2 (by decide) (by decide +kernel) (.inl (by decide +kernel))⟩

/-- Its call for another sport does not raise: a new event takes the reference. -/
theorem refs_resolve_stably_fails :
    let s := @run _ _ (@afterCall Unicode.ascii derbyDirectory) EventStore.empty mergedCalls
    (@getOrCreateEvent Unicode.ascii derbyDirectory s (linkedCall 1)).1 = .ok 1 ∧
      (@getOrCreateEvent Unicode.ascii derbyDirectory
        (@afterCall Unicode.ascii derbyDirectory s (linkedCall 1)) (linkedCall 2)).1 = .ok 2 := by
  decide +kernel

end SharpEvPicks.Storage.EventStore
