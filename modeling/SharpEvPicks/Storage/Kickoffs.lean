import SharpEvPicks.Storage.EventStages

/-! Kickoffs of stored events, and which writers guard settled history. -/
namespace SharpEvPicks.Storage.EventStore

open Python Resolution Settlement Transition

inductive EventWrite where
  | call (c : EventCall)
  | refresh (kickoffs : Dict Str Int)
  -- another writer of links, or the settlement of a pick
  | link (source sourceEventId canonicalExternalRef matchMethod : Str) (matchedAt : Int)
  | settle (eventId : Nat)

section
variable [Unicode] (d : Directory)

def write (s : EventStore) : EventWrite → EventStore
  | .call c => s.afterCall d c
  | .refresh kickoffs => s.refreshEventKickoffs kickoffs
  | .link source sourceEventId canonicalExternalRef matchMethod matchedAt =>
    s.upsertEventSourceLink source sourceEventId canonicalExternalRef matchMethod matchedAt
  | .settle eventId => { s with settled := eventId :: s.settled }

end

/-- A real kickoff stays real, and that of settled history moves within the window. -/
structure KickoffKept (settled : List Nat) (e e' : Event) : Prop where
  real : ∀ t, e.startsAt = some t → ¬ isDateOnlyMidnight t →
    ∃ t', e'.startsAt = some t' ∧ ¬ isDateOnlyMidnight t'
  near : e.id ∈ settled → ∀ t ∈ e.startsAt, ∀ t' ∈ e'.startsAt,
    |t' - t| ≤ eventRedateGuardWindow

def KickoffsKept (s s' : EventStore) : Prop :=
  ∀ e ∈ s.events, (∃ e' ∈ s'.events, e'.id = e.id) ∧
    ∀ e' ∈ s'.events, e'.id = e.id → KickoffKept s.settled e e'

instance mayMoveDecidable (s : EventStore) (e : Event) (target : Option Int) :
    Decidable (s.MayMove e target) :=
  inferInstanceAs (Decidable (_ → ∀ stored ∈ e.startsAt, ∀ incoming ∈ target, _))

/-- A write by a link or a bulk refresh does what the guard would allow. -/
def WithinGuard (s : EventStore) : EventWrite → Prop
  | .call c => ∀ id ∈ s.linkTarget c, ∀ e ∈ s.events, e.id = id →
    s.MayMove e (preferKickoff e.startsAt c.startsAt)
  | .refresh kickoffs =>
    ∀ e ∈ s.events, s.MayMove e (preferKickoff e.startsAt (kickoffs.get? e.externalRef))
  | .link .. | .settle _ => True

instance withinGuardDecidable (s : EventStore) : ∀ w, Decidable (s.WithinGuard w)
  | .call c => inferInstanceAs (Decidable
      (∀ id ∈ s.linkTarget c, ∀ e ∈ s.events, e.id = id → _))
  | .refresh _ => inferInstanceAs (Decidable (∀ e ∈ s.events, _))
  | .link .. | .settle _ => inferInstanceAs (Decidable True)

theorem KickoffKept.refl (settled : List Nat) (e : Event) : KickoffKept settled e e where
  real t known real := ⟨t, known, real⟩
  near _ t known t' known' := by
    rw [Option.mem_unique known known', sub_self, abs_zero]
    decide

variable {s s' : EventStore}

theorem kickoffKept_preferred (e : Event) (startsAt : Option Int) :
    KickoffKept s.settled e { e with startsAt := preferKickoff e.startsAt startsAt } ↔
      s.MayMove e (preferKickoff e.startsAt startsAt) := by
  constructor
  · intro kept settled stored known incoming chosen
    exact kept.near settled stored known incoming chosen
  · intro allowed
    refine ⟨?_, ?_⟩
    · intro t known real
      change ∃ t', preferKickoff e.startsAt startsAt = some t' ∧ _
      rw [known]
      exact preferKickoff_real real startsAt
    · intro settled t known t' chosen
      exact allowed settled t known t' chosen

theorem kickoffsKept_of_events (keyed : s.Keyed) (same : s'.events = s.events) :
    KickoffsKept s s' := by
  intro e inside
  rw [same]
  refine ⟨⟨e, inside, rfl⟩, ?_⟩
  intro e' inside' ids
  rw [keyed.id_inj inside' inside ids]
  exact .refl _ e

theorem kickoffsKept_moveKickoff (keyed : s.Keyed) {id : Nat} {startsAt : Option Int} :
    KickoffsKept s (s.moveKickoff id startsAt) ↔
      ∀ e ∈ s.events, e.id = id → s.MayMove e (preferKickoff e.startsAt startsAt) := by
  constructor
  · intro kept e inside own
    apply (kickoffKept_preferred e startsAt).mp
    exact (kept e inside).2 _ (mem_moveKickoff.mpr ⟨e, inside, if_pos own⟩) rfl
  · intro allowed e inside
    constructor
    · refine ⟨_, mem_moveKickoff.mpr ⟨e, inside, rfl⟩, ?_⟩
      split <;> rfl
    · intro e' inside' ids
      obtain ⟨o, listed, rfl⟩ := mem_moveKickoff.mp inside'
      have same : o = e := by
        apply keyed.id_inj listed inside
        split at ids <;> exact ids
      subst same
      split
      · rename_i own
        exact (kickoffKept_preferred o startsAt).mpr (allowed o listed own)
      · exact .refl _ o

theorem kickoffsKept_refresh (keyed : s.Keyed) (kickoffs : Dict Str Int) :
    KickoffsKept s (s.refreshEventKickoffs kickoffs) ↔
      ∀ e ∈ s.events, s.MayMove e (preferKickoff e.startsAt (kickoffs.get? e.externalRef)) := by
  constructor
  · intro kept e inside
    apply (kickoffKept_preferred e _).mp
    exact (kept e inside).2 _ (List.mem_map_of_mem inside) rfl
  · intro allowed e inside
    refine ⟨⟨_, List.mem_map_of_mem inside, rfl⟩, ?_⟩
    intro e' inside' ids
    obtain ⟨o, listed, rfl⟩ := List.mem_map.mp inside'
    have same : o = e := keyed.id_inj listed inside ids
    subst same
    exact (kickoffKept_preferred o _).mpr (allowed o inside)

theorem kickoffsKept_mint (keyed : s.Keyed) (c : EventCall) : KickoffsKept s (s.mint c).2 := by
  intro e inside
  refine ⟨⟨e, List.mem_append_left _ inside, rfl⟩, ?_⟩
  intro e' inside' ids
  rcases List.mem_append.mp inside' with old | new
  · rw [keyed.id_inj old inside ids]
    exact .refl _ e
  · rw [List.mem_singleton.mp new] at ids
    have below := keyed.fresh e inside
    exact absurd ids (ne_of_gt below)

section
variable [Unicode] {d : Directory} {c : EventCall}

theorem mayMove_of_matched {startsAt : Int} {canon : Event}
    (matched : Matched d s c startsAt canon) (real : c.realKickoff = some startsAt) :
      s.MayMove canon (preferKickoff canon.startsAt c.startsAt) := by
  intro _ stored known incoming chosen
  obtain ⟨k, known', near⟩ := matched.near
  obtain ⟨given, other⟩ := realKickoff_some real
  rw [known', given, preferKickoff_of_real other] at chosen
  obtain rfl := Option.some.inj chosen
  obtain rfl := Option.some.inj (known'.symm.trans known)
  rw [abs_sub_comm]
  apply near.trans
  rcases dedupTolerance_cases (d.sportKey c.sportId) with wide | same
  · rw [wide]
    decide
  · rw [same]
    decide

omit [Unicode] in
theorem withinGuard_of_unlinked (unlinked : s.linkTarget c = none) : s.WithinGuard (.call c) := by
  intro id target
  rw [unlinked] at target
  cases target

omit [Unicode] in
theorem kickoffsKept_moved (keyed : s.Keyed) {e : Event} (inside : e ∈ s.events)
    {startsAt : Option Int} (allowed : s.MayMove e (preferKickoff e.startsAt startsAt)) :
      KickoffsKept s (s.moveKickoff e.id startsAt) := by
  apply (kickoffsKept_moveKickoff keyed).mpr
  intro e' inside' own
  rw [keyed.id_inj inside' inside own]
  exact allowed

/-- Of all the ways in which a call ends, only that by a link can break what is kept. -/
theorem kickoffsKept_call (keyed : s.Keyed) : KickoffsKept s (s.afterCall d c) ↔
    s.WithinGuard (.call c) := by
  have handled : Handled d s c (s.getOrCreateEvent d c) := getOrCreateEvent_handled
  unfold afterCall
  generalize s.getOrCreateEvent d c = r at handled ⊢
  cases handled with
  | refused e bounded =>
    exact iff_of_true (kickoffsKept_of_events keyed rfl)
      (withinGuard_of_unlinked (linkTarget_of_refused bounded))
  | otherSport existing own unlinked other =>
    exact iff_of_true (kickoffsKept_of_events keyed rfl) (withinGuard_of_unlinked unlinked)
  | unmoved existing own unlinked sport reviews =>
    exact iff_of_true (kickoffsKept_of_events keyed rfl) (withinGuard_of_unlinked unlinked)
  | unreviewed existing own unlinked sport settled e =>
    exact iff_of_true (kickoffsKept_of_events keyed rfl) (withinGuard_of_unlinked unlinked)
  | moved existing own unlinked sport allowed =>
    exact iff_of_true (kickoffsKept_moved keyed (own_some own).1 allowed)
      (withinGuard_of_unlinked unlinked)
  | unrecorded unknown startsAt real canon tier e =>
    exact iff_of_true (kickoffsKept_of_events keyed rfl)
      (withinGuard_of_unlinked unknown.linkTarget)
  | minted unknown unmatched =>
    exact iff_of_true (kickoffsKept_mint keyed c) (withinGuard_of_unlinked unknown.linkTarget)
  | merged unknown startsAt real canon tier matchMethod =>
    refine iff_of_true ?_ (withinGuard_of_unlinked unknown.linkTarget)
    have matched := tierMatch_matched tier
    have kept := kickoffsKept_moved keyed matched.inside (mayMove_of_matched matched real)
    unfold KickoffsKept at kept ⊢
    rwa [commit, upsert_frame.1]
  | followed id target =>
    rw [commit, kickoffsKept_moveKickoff keyed]
    constructor
    · intro allowed id' target' e inside own
      rw [Option.mem_unique target' target] at own
      exact allowed e inside own
    · intro guarded e inside own
      exact guarded id target e inside own

theorem kickoffsKept_write (keyed : s.Keyed) (w : EventWrite) :
    KickoffsKept s (s.write d w) ↔ s.WithinGuard w := by
  cases w with
  | call c => exact kickoffsKept_call keyed
  | refresh kickoffs => exact kickoffsKept_refresh keyed kickoffs
  | link source sourceEventId canonicalExternalRef matchMethod matchedAt =>
    exact iff_of_true (kickoffsKept_of_events keyed upsert_frame.1) trivial
  | settle eventId => exact iff_of_true (kickoffsKept_of_events keyed rfl) trivial

theorem Keyed.write (keyed : s.Keyed) (w : EventWrite) : (s.write d w).Keyed := by
  cases w with
  | call c => exact keyed.afterCall
  | refresh kickoffs =>
    have same : (s.refreshEventKickoffs kickoffs).events.map Event.fixture =
        s.events.map Event.fixture := by
      rw [refreshEventKickoffs, List.map_map]
      rfl
    exact keyed.of_fixtures same rfl
  | link source sourceEventId canonicalExternalRef matchMethod matchedAt => exact keyed.upsert
  | settle eventId => exact ⟨keyed.fresh, keyed.ids, keyed.refs⟩

/-- Along every run the kickoffs are kept just where no link and no bulk refresh does what the
guard of an event's own row would refuse. -/
theorem kickoffs_kept (keyed : s.Keyed) (writes : List EventWrite) :
    Along (write d) (fun s w => KickoffsKept s (s.write d w)) s writes ↔
      Along (write d) WithinGuard s writes :=
  along_congr (fun _ w keyed => keyed.write w) (fun _ w keyed => kickoffsKept_write keyed w) keyed

end

/-! One fixture under two references, settled, and then reported on another day. -/

def derbyWrites (ref : Str) (drift : Int) : List EventWrite :=
  [.call (derbyCall 1 "oddsportal:1".toList (some derbyKickoff)),
    .call (derbyCall 1 "oddschecker:2".toList (some derbyKickoff)), .settle 1,
    .call (derbyCall 1 ref (some (derbyKickoff + drift)))]

theorem derby_kickoffs_kept :
    Along (@write Unicode.ascii derbyDirectory)
      (fun s w => KickoffsKept s (@write Unicode.ascii derbyDirectory s w))
      EventStore.empty (derbyWrites "oddsportal:1".toList (hours 100)) := by
  have guarded : Along (@write Unicode.ascii derbyDirectory) WithinGuard EventStore.empty
      (derbyWrites "oddsportal:1".toList (hours 100)) := by decide +kernel
  exact (@kickoffs_kept _ Unicode.ascii _ keyed_empty _).mpr guarded

/-- Its own reference is refused, and the linked one moves the settled fixture by 100 hours. -/
theorem kickoffs_kept_fails :
    ¬ Along (@write Unicode.ascii derbyDirectory)
      (fun s w => KickoffsKept s (@write Unicode.ascii derbyDirectory s w))
      EventStore.empty (derbyWrites "oddschecker:2".toList (hours 100)) := by
  intro along
  have moved := @Along.at _ _ _ _ _ ((derbyWrites "oddschecker:2".toList (hours 100)).take 3)
    [] _ along
  have keyed : (run (@write Unicode.ascii derbyDirectory) EventStore.empty
      ((derbyWrites "oddschecker:2".toList (hours 100)).take 3)).Keyed :=
    invariant (fun _ w keyed => @Keyed.write _ Unicode.ascii _ keyed w) keyed_empty
  exact absurd ((@kickoffsKept_write _ Unicode.ascii _ keyed _).mp moved) (by decide +kernel)

end SharpEvPicks.Storage.EventStore
