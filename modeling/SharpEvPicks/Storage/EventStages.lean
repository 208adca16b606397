import Mathlib.Data.Sym.Sym2
import SharpEvPicks.Storage.Events
import SharpEvPicks.Transition.Run

/-! What each stage of `_get_or_create_event` finds and writes. -/
namespace SharpEvPicks.Storage

open Python Resolution Settlement

theorem preferKickoff_cases (existing incoming : Option Int) :
    preferKickoff existing incoming = existing ∨ preferKickoff existing incoming = incoming := by
  cases existing with
  | none => cases incoming <;> exact .inr rfl
  | some t =>
    cases incoming with
    | none => exact .inl rfl
    | some t' =>
      unfold preferKickoff
      simp only
      split
      · exact .inl rfl
      · exact .inr rfl

theorem preferKickoff_real {t : Int} (real : ¬ isDateOnlyMidnight t) (incoming : Option Int) :
    ∃ t', preferKickoff (some t) incoming = some t' ∧ ¬ isDateOnlyMidnight t' := by
  cases incoming with
  | none => exact ⟨t, rfl, real⟩
  | some t' =>
    unfold preferKickoff
    simp only
    split
    · exact ⟨t, rfl, real⟩
    · rename_i other
      refine ⟨t', rfl, ?_⟩
      intro midnight
      exact other ⟨midnight, real⟩

theorem preferKickoff_of_real {t t' : Int} (real : ¬ isDateOnlyMidnight t') :
    preferKickoff (some t) (some t') = some t' :=
  if_neg fun both => real both.1

theorem realKickoff_some {c : EventCall} {t : Int} (real : c.realKickoff = some t) :
    c.startsAt = some t ∧ ¬ isDateOnlyMidnight t := by
  obtain ⟨known, other⟩ := Option.filter_eq_some_iff.mp real
  exact ⟨known, by simpa using other⟩

def Event.fixture (e : Event) : Event := { e with startsAt := none }

namespace EventStore

/-- Ids and references name one event each. -/
structure Keyed (s : EventStore) : Prop where
  fresh : ∀ e ∈ s.events, e.id < s.nextEventId
  ids : (s.events.map Event.id).Nodup
  refs : (s.events.map Event.externalRef).Nodup

variable {s s' : EventStore}

theorem keyed_empty : EventStore.empty.Keyed := by
  refine ⟨?_, List.nodup_nil, List.nodup_nil⟩
  intro e inside
  cases inside

theorem Keyed.id_inj (keyed : s.Keyed) {e e' : Event} (inside : e ∈ s.events)
    (inside' : e' ∈ s.events) (same : e.id = e'.id) : e = e' :=
      List.inj_on_of_nodup_map keyed.ids inside inside' same

theorem Keyed.ref_inj (keyed : s.Keyed) {e e' : Event} (inside : e ∈ s.events)
    (inside' : e' ∈ s.events) (same : e.externalRef = e'.externalRef) : e = e' :=
      List.inj_on_of_nodup_map keyed.refs inside inside' same

theorem own_some {ref : Str} {e : Event} (found : s.own ref = some e) :
    e ∈ s.events ∧ e.externalRef = ref :=
  ⟨List.mem_of_find?_eq_some found, by simpa using List.find?_some found⟩

theorem own_none_iff {ref : Str} :
    s.own ref = none ↔ ∀ e ∈ s.events, e.externalRef ≠ ref := by
  simp [own, List.find?_eq_none]

theorem Keyed.own_mem (keyed : s.Keyed) {e : Event} (inside : e ∈ s.events) :
    s.own e.externalRef = some e := by
  cases found : s.own e.externalRef with
  | none => exact absurd rfl (own_none_iff.mp found e inside)
  | some other =>
    obtain ⟨listed, same⟩ := own_some found
    rw [keyed.ref_inj listed inside same]

theorem Keyed.of_fixtures (keyed : s.Keyed)
    (same : s'.events.map Event.fixture = s.events.map Event.fixture)
    (next : s'.nextEventId = s.nextEventId) : s'.Keyed where
  fresh e inside := by
    have listed : e.fixture ∈ s.events.map Event.fixture := same ▸ List.mem_map_of_mem inside
    obtain ⟨old, member, equal⟩ := List.mem_map.mp listed
    have ids : old.id = e.id := by
      change old.fixture.id = e.fixture.id
      rw [equal]
    rw [next, ← ids]
    exact keyed.fresh old member
  ids := by
    have fields := congrArg (List.map Event.id) same
    rw [List.map_map, List.map_map] at fields
    exact fields ▸ keyed.ids
  refs := by
    have fields := congrArg (List.map Event.externalRef) same
    rw [List.map_map, List.map_map] at fields
    exact fields ▸ keyed.refs

/-! Kickoffs that move. -/

section
variable {id : Nat} {startsAt : Option Int}

theorem mem_moveKickoff {e' : Event} :
    e' ∈ (s.moveKickoff id startsAt).events ↔ ∃ e ∈ s.events,
      (if e.id = id then { e with startsAt := preferKickoff e.startsAt startsAt } else e) = e' :=
        List.mem_map

theorem moveKickoff_fixtures :
    (s.moveKickoff id startsAt).events.map Event.fixture = s.events.map Event.fixture := by
  rw [moveKickoff, List.map_map]
  apply List.map_congr_left
  intro e _
  rw [Function.comp_apply]
  split <;> rfl

theorem Keyed.moveKickoff (keyed : s.Keyed) : (s.moveKickoff id startsAt).Keyed :=
  keyed.of_fixtures moveKickoff_fixtures rfl

theorem own_moveKickoff_canon (keyed : s.Keyed) {canon : Event} (inside : canon ∈ s.events) :
    (s.moveKickoff canon.id startsAt).own canon.externalRef =
      some { canon with startsAt := preferKickoff canon.startsAt startsAt } := by
  have there : { canon with startsAt := preferKickoff canon.startsAt startsAt } ∈
      (s.moveKickoff canon.id startsAt).events :=
        mem_moveKickoff.mpr ⟨canon, inside, if_pos rfl⟩
  exact keyed.moveKickoff.own_mem there

theorem moveKickoff_cases {e' : Event} (inside : e' ∈ (s.moveKickoff id startsAt).events) :
    e' ∈ s.events ∨
      ∃ e ∈ s.events, e.id = id ∧
        e' = { e with startsAt := preferKickoff e.startsAt startsAt } := by
  obtain ⟨e, listed, rfl⟩ := mem_moveKickoff.mp inside
  split
  · rename_i own
    exact .inr ⟨e, listed, own, rfl⟩
  · exact .inl listed

end

/-! Links. -/

section
variable {source ref canonicalRef matchMethod : Str} {matchedAt : Int} {canon : Event}

theorem mem_activeLinks {l : SourceLink} :
    l ∈ s.activeLinks ref ↔
      l ∈ s.links ∧ l.source = sourceOfRef ref ∧ l.sourceEventId = ref ∧ l.active := by
  simp [activeLinks, List.mem_filter]

theorem upsert_frame :
    (s.upsertEventSourceLink source ref canonicalRef matchMethod matchedAt).events = s.events ∧
      (s.upsertEventSourceLink source ref canonicalRef matchMethod matchedAt).settled =
        s.settled ∧
      (s.upsertEventSourceLink source ref canonicalRef matchMethod matchedAt).nextEventId =
        s.nextEventId := by
  unfold upsertEventSourceLink
  cases s.own canonicalRef with
  | none => exact ⟨rfl, rfl, rfl⟩
  | some canon =>
    simp only
    split <;> exact ⟨rfl, rfl, rfl⟩

theorem Keyed.upsert (keyed : s.Keyed) :
    (s.upsertEventSourceLink source ref canonicalRef matchMethod matchedAt).Keyed := by
  obtain ⟨events, -, next⟩ := @upsert_frame s source ref canonicalRef matchMethod matchedAt
  exact keyed.of_fixtures (by rw [events]) next

/-- An active link after the upsert leads to its target, or was there and is of another id. -/
theorem upsert_active (found : s.own canonicalRef = some canon) {l : SourceLink}
    (inside : l ∈ (s.upsertEventSourceLink source ref canonicalRef matchMethod matchedAt).links)
    (active : l.active) :
    (l.source = source ∧ l.sourceEventId = ref ∧ l.canonicalEventId = canon.id) ∨
      (l ∈ s.links ∧ ¬ (l.source = source ∧ l.sourceEventId = ref)) := by
  simp only [upsertEventSourceLink, found] at inside
  split at inside
  · obtain ⟨retired, listed, rfl⟩ := List.mem_map.mp inside
    obtain ⟨old, member, rfl⟩ := List.mem_map.mp listed
    grind
  · rcases List.mem_append.mp inside with listed | new
    · obtain ⟨old, member, rfl⟩ := List.mem_map.mp listed
      grind
    · rw [List.mem_singleton.mp new]
      exact .inl ⟨rfl, rfl, rfl⟩

theorem upsert_keeps (found : s.own canonicalRef = some canon) {l : SourceLink}
    (inside : l ∈ s.links) (other : ¬ (l.source = source ∧ l.sourceEventId = ref)) :
    l ∈ (s.upsertEventSourceLink source ref canonicalRef matchMethod matchedAt).links := by
  have different : (l.source = source && l.sourceEventId = ref) = false := by simpa using other
  simp only [upsertEventSourceLink, found]
  split
  · refine List.mem_map.mpr ⟨l, List.mem_map.mpr ⟨l, inside, ?_⟩, ?_⟩ <;> simp [different]
  · exact List.mem_append_left _ (List.mem_map.mpr ⟨l, inside, by simp [different]⟩)

theorem upsert_links (found : s.own canonicalRef = some canon) :
    ∃ l ∈ (s.upsertEventSourceLink source ref canonicalRef matchMethod matchedAt).links,
      l.source = source ∧ l.sourceEventId = ref ∧ l.canonicalEventId = canon.id ∧
      l.active := by
  simp only [upsertEventSourceLink, found]
  split
  · rename_i there
    obtain ⟨l, inside, own⟩ := List.any_eq_true.mp there
    simp only [Bool.and_eq_true, decide_eq_true_eq] at own
    refine ⟨_, List.mem_map.mpr ⟨l, inside, if_pos (by simp [own])⟩, own.1.1, own.1.2,
      own.2, rfl⟩
  · exact ⟨_, List.mem_append_right _ (List.mem_singleton_self _), rfl, rfl, rfl, rfl⟩

theorem recordLink_ok {externalRef : Str} {now : Int}
    (recorded : s.recordLink externalRef canonicalRef matchMethod now = .ok s') :
    s' = s.upsertEventSourceLink
      (sourceOfRef externalRef) externalRef canonicalRef matchMethod now := by
  unfold recordLink at recorded
  simp only [bind, Except.bind] at recorded
  repeat' split at recorded
  all_goals cases recorded
  rfl

end

theorem redirect_some {sportId id : Nat} {ref : Str} (found : s.redirect sportId ref = some id) :
    ∃ e ∈ s.events, e.id = id ∧ e.sportId = sportId ∧ e.externalRef ≠ ref ∧
      ∃ l ∈ s.activeLinks ref, l.canonicalEventId = id := by
  have listed := mem_sortedBy.mp (List.mem_of_head? found)
  obtain ⟨e, target, rfl⟩ := List.mem_map.mp listed
  obtain ⟨inside, named⟩ := List.mem_filter.mp target
  simp only [decide_eq_true_eq, List.any_eq_true] at named
  exact ⟨e, inside, rfl, named.1, named.2.1, named.2.2⟩

theorem redirect_none {sportId : Nat} {ref : Str} (none_ : s.redirect sportId ref = none)
    {e : Event} (inside : e ∈ s.events) (sport : e.sportId = sportId)
    (other : e.externalRef ≠ ref) : ∀ l ∈ s.activeLinks ref, l.canonicalEventId ≠ e.id := by
  intro l active same
  have target : e.id ∈ sortedBy (fun n : Nat => n) (List.map Event.id (s.events.filter fun e =>
      e.sportId = sportId ∧ e.externalRef ≠ ref ∧
        (s.activeLinks ref).any fun l => l.canonicalEventId = e.id)) := by
    apply mem_sortedBy.mpr
    apply List.mem_map_of_mem
    apply List.mem_filter.mpr
    refine ⟨inside, ?_⟩
    simp only [decide_eq_true_eq, List.any_eq_true]
    exact ⟨sport, other, l, active, same⟩
  have empty := List.head?_eq_none_iff.mp none_
  rw [empty] at target
  cases target

theorem linked_some {sportId id : Nat} {ref : Str} (found : s.linked sportId ref = some id) :
    ∃ e ∈ s.events, e.id = id ∧ e.sportId = sportId ∧ ∃ l ∈ s.activeLinks ref,
      l.canonicalEventId = id := by
  obtain ⟨l, chosen, rfl⟩ := Option.map_eq_some_iff.mp found
  have listed := ((maxBy_iff _ _ l).mp chosen).mem
  obtain ⟨active, target⟩ := List.mem_filter.mp listed
  obtain ⟨e, inside, named⟩ := List.any_eq_true.mp target
  simp only [Bool.and_eq_true, decide_eq_true_eq] at named
  exact ⟨e, inside, named.1, named.2, l, active, rfl⟩

/-! One call. -/

section
variable [Unicode] (d : Directory) (s : EventStore) (c : EventCall)

def tierMatch (startsAt : Int) : Option Event :=
  (s.exactMatch d c startsAt).or (s.pairMatch d c startsAt)

/-- A kickoff of settled history moves within the guard's window only. -/
def MayMove (s : EventStore) (e : Event) (target : Option Int) : Prop :=
  e.id ∈ s.settled → ∀ stored ∈ e.startsAt, ∀ incoming ∈ target,
    |incoming - stored| ≤ eventRedateGuardWindow

/-- The event that a link leads a call to, before its own row or for want of one. -/
def linkTarget (s : EventStore) (c : EventCall) : Option Nat :=
  match requireBoundedIdentity c.externalRef eventRefMaxBytes "event external_ref".toList with
  | .error _ => none
  | .ok ref => (s.redirect c.sportId ref).or
      (if (s.own ref).isSome then none else s.linked c.sportId ref)

/-- No stage before the tiers knows the reference. -/
structure Unknown (s : EventStore) (sportId : Nat) (ref : Str) : Prop where
  redirect : s.redirect sportId ref = none
  own : s.own ref = none
  linked : s.linked sportId ref = none

/-- What a call can have done, with the result and the tables that it leaves. -/
inductive Handled : Except EventError Nat × EventStore → Prop where
  | refused (e : IdentityError)
      (bounded : requireBoundedIdentity c.externalRef eventRefMaxBytes "event external_ref".toList =
        .error e) :
    Handled (.error (.identity e), s)
  | followed (id : Nat) (target : s.linkTarget c = some id) : Handled
      (.ok id, s.moveKickoff id c.startsAt)
  | otherSport (existing : Event) (own : s.own c.externalRef = some existing)
      (unlinked : s.linkTarget c = none) (other : existing.sportId ≠ c.sportId) :
    Handled (.error .otherSport, s)
  | unmoved (existing : Event) (own : s.own c.externalRef = some existing)
      (unlinked : s.linkTarget c = none) (sport : existing.sportId = c.sportId)
        (reviews : List MatchReview) :
    Handled (.ok existing.id, { s with reviews := reviews })
  | unreviewed (existing : Event) (own : s.own c.externalRef = some existing)
      (unlinked : s.linkTarget c = none) (sport : existing.sportId = c.sportId)
      (settled : existing.id ∈ s.settled) (e : IdentityError) :
    Handled (.error (.identity e), s)
  | moved (existing : Event) (own : s.own c.externalRef = some existing)
      (unlinked : s.linkTarget c = none) (sport : existing.sportId = c.sportId)
      (allowed : s.MayMove existing (preferKickoff existing.startsAt c.startsAt)) :
    Handled (.ok existing.id, s.moveKickoff existing.id c.startsAt)
  | merged (unknown : s.Unknown c.sportId c.externalRef) (startsAt : Int)
      (real : c.realKickoff = some startsAt)
      (canon : Event) (tier : s.tierMatch d c startsAt = some canon) (matchMethod : Str) :
    Handled (.ok canon.id,
      (s.moveKickoff canon.id c.startsAt).upsertEventSourceLink (sourceOfRef c.externalRef)
      c.externalRef canon.externalRef matchMethod c.now)
  | unrecorded (unknown : s.Unknown c.sportId
      c.externalRef) (startsAt : Int) (real : c.realKickoff = some startsAt)
      (canon : Event) (tier : s.tierMatch d c startsAt = some canon) (e : EventError) :
    Handled (.error e, s.moveKickoff canon.id c.startsAt)
  | minted (unknown : s.Unknown c.sportId c.externalRef)
      (unmatched : ∀ startsAt, c.realKickoff = some startsAt →
        s.tierMatch d c startsAt = none) :
    Handled (s.mint c)

variable {d s c}

omit [Unicode] in
theorem kickoffWithin_iff {e : Event} {startsAt tolerance : Int} :
    kickoffWithin e startsAt tolerance ↔ ∃ k, e.startsAt = some k ∧
      |k - startsAt| ≤ tolerance := by
  simp only [kickoffWithin, Option.any_eq_true, decide_eq_true_eq, abs_le]
  apply exists_congr
  intro k
  apply and_congr_right
  intro _
  constructor <;> rintro ⟨low, high⟩ <;> constructor <;> omega

omit [Unicode] in
theorem dedupTolerance_cases (sportKey : Str) :
    dedupTolerance sportKey = hours 6 ∨ dedupTolerance sportKey = resolverTolerance := by
  unfold dedupTolerance
  split
  · exact .inl rfl
  · exact .inr rfl

/-- The sides of a fixture in no order, normalized. -/
def sidesOf (d : Directory) (homeId awayId : Nat) : Sym2 Str :=
  s(normalizeName (stripLiveStatus (d.teamName homeId)),
    normalizeName (stripLiveStatus (d.teamName awayId)))

theorem sidesOf_of_same {homeId awayId homeId' awayId' : Nat} {pair pair' : PairKey}
    (found : fixturePairKey (d.teamName homeId) (d.teamName awayId) = some pair)
    (found' : fixturePairKey (d.teamName homeId') (d.teamName awayId') = some pair')
    (same : pair.Same pair') : sidesOf d homeId awayId = sidesOf d homeId' awayId' := by
  unfold fixturePairKey at found found'
  simp only [Option.dite_none_right_eq_some, Option.some.injEq] at found found'
  obtain ⟨_, rfl⟩ := found
  obtain ⟨_, rfl⟩ := found'
  exact Sym2.eq_iff.mpr same

structure Matched (d : Directory) (s : EventStore) (c : EventCall) (startsAt : Int)
    (canon : Event) : Prop where
  inside : canon ∈ s.events
  sport : canon.sportId = c.sportId
  markers : leagueMarkerSet (d.leagueName canon.leagueId) =
    leagueMarkerSet (d.leagueName c.leagueId)
  sides : sidesOf d canon.homeTeamId canon.awayTeamId = sidesOf d c.homeId c.awayId
  near : ∃ k, canon.startsAt = some k ∧ |k - startsAt| ≤ dedupTolerance (d.sportKey c.sportId)
  /-- Only the first tier takes a placeholder. -/
  real : s.exactMatch d c startsAt = some canon ∨ ¬ canon.startsAt.any isDateOnlyMidnight

theorem tierMatch_matched {startsAt : Int} {canon : Event}
    (found : s.tierMatch d c startsAt = some canon) : Matched d s c startsAt canon := by
  rcases Option.or_eq_some_iff.mp found with exact_ | ⟨-, pair⟩
  · obtain ⟨row, markers⟩ := List.mem_filter.mp (mem_sortedBy.mp (List.mem_of_head? exact_))
    obtain ⟨inside, key⟩ := List.mem_filter.mp row
    simp only [decide_eq_true_eq] at key
    obtain ⟨sport, home, away, within⟩ := key
    obtain ⟨k, known, near⟩ := kickoffWithin_iff.mp within
    refine ⟨inside, sport, of_decide_eq_true markers, by
      rw [home, away], ⟨k, known, near.trans ?_⟩, .inl exact_⟩
    rcases dedupTolerance_cases (d.sportKey c.sportId) with wide | same
    · rw [wide]
      decide
    · rw [same]
  · obtain ⟨key, keyed, chosen⟩ := Option.bind_eq_some_iff.mp pair
    obtain ⟨inside, row⟩ := List.mem_filter.mp (mem_sortedBy.mp (List.mem_of_head? chosen))
    simp only [decide_eq_true_eq] at row
    obtain ⟨sport, -, within, real, sides, markers⟩ := row
    obtain ⟨key', keyed', same⟩ := (Option.any_eq_true _ _).mp sides
    exact ⟨inside, sport, of_decide_eq_true markers,
      sidesOf_of_same keyed' keyed (of_decide_eq_true same),
      kickoffWithin_iff.mp within, .inr real⟩

omit [Unicode] in
theorem redateAllowed_cases (s : EventStore) (existing : Event) (target : Option Int) (ref : Str) :
    (s.redateAllowed existing target ref = (.ok true, s) ∧ s.MayMove existing target) ∨
      existing.id ∈ s.settled ∧
        ((∃ reviews, s.redateAllowed existing target ref =
          (.ok false, { s with reviews := reviews })) ∨
          ∃ e, s.redateAllowed existing target ref = (.error (.identity e), s)) := by
  unfold redateAllowed MayMove
  cases stored : existing.startsAt with
  | none => exact .inl ⟨rfl, fun _ t known => by cases known⟩
  | some t =>
    cases target with
    | none => exact .inl ⟨rfl, fun _ _ _ t' known => by cases known⟩
    | some t' =>
      simp only
      split
      · rename_i near
        refine .inl ⟨rfl, ?_⟩
        intro _ _ known _ known'
        cases known
        cases known'
        exact near
      · split
        · rename_i unsettled
          exact .inl ⟨rfl, fun settled => absurd settled unsettled⟩
        · rename_i settled
          refine .inr ⟨not_not.mp settled, ?_⟩
          split
          · rename_i e _
            exact .inr ⟨e, rfl⟩
          · left
            split
            · exact ⟨s.reviews, rfl⟩
            · exact ⟨_, rfl⟩

theorem handled_ownRow {existing : Event} (own : s.own c.externalRef = some existing)
    (unlinked : s.linkTarget c = none) :
    Handled d s c (s.resolveOwnRow existing c) := by
  unfold resolveOwnRow
  split
  · rename_i other
    exact .otherSport existing own unlinked other
  · rename_i sport
    rw [not_not] at sport
    simp only
    split
    · exact .unmoved existing own unlinked sport s.reviews
    · rcases redateAllowed_cases s existing (preferKickoff existing.startsAt c.startsAt)
        c.externalRef with
        ⟨moves, allowed⟩ | ⟨settled, ⟨reviews, kept⟩ | ⟨e, failed⟩⟩
      · rw [moves]
        exact .moved existing own unlinked sport allowed
      · rw [kept]
        exact .unmoved existing own unlinked sport reviews
      · rw [failed]
        exact .unreviewed existing own unlinked sport settled e

theorem handled_merge (unknown : s.Unknown c.sportId c.externalRef) {startsAt : Int}
    (real : c.realKickoff = some startsAt) {canon : Event}
    (tier : s.tierMatch d c startsAt = some canon) (matchMethod : Str) :
      Handled d s c (s.mergeOnto canon c matchMethod) := by
  unfold mergeOnto
  simp only
  cases recorded : (s.moveKickoff canon.id c.startsAt).recordLink c.externalRef canon.externalRef
    matchMethod c.now with
  | error e => exact .unrecorded unknown startsAt real canon tier e
  | ok written =>
    rw [recordLink_ok recorded]
    exact .merged unknown startsAt real canon tier matchMethod

theorem handled_newRef (unknown : s.Unknown c.sportId c.externalRef) :
    Handled d s c (s.resolveNewRef d c) := by
  unfold resolveNewRef
  cases real : c.realKickoff with
  | none => exact .minted unknown fun startsAt known => by cases real.symm.trans known
  | some startsAt =>
    simp only [resolveCanonicalEvent, resolveCanonicalEventByPair]
    cases exact_ : s.exactMatch d c startsAt with
    | some canon =>
      exact handled_merge unknown real (by rw [tierMatch, exact_]; rfl) _
    | none =>
      cases pair : s.pairMatch d c startsAt with
      | some canon => exact handled_merge unknown real (by rw [tierMatch, exact_, pair]; rfl) _
      | none =>
        refine .minted unknown ?_
        intro t known
        cases real.symm.trans known
        rw [tierMatch, exact_, pair]
        rfl

omit [Unicode] in
theorem Unknown.linkTarget (unknown : s.Unknown c.sportId c.externalRef) :
    s.linkTarget c = none := by
  unfold EventStore.linkTarget
  split
  · rfl
  · rename_i bounded
    rw [requireBoundedIdentity_ok bounded, unknown.redirect, unknown.own, unknown.linked]
    rfl

omit [Unicode] in
theorem linkTarget_of_refused {e : IdentityError}
    (bounded : requireBoundedIdentity c.externalRef eventRefMaxBytes "event external_ref".toList =
      .error e) :
    s.linkTarget c = none := by
  rw [linkTarget, bounded]

omit [Unicode] in
theorem linkTarget_some {id : Nat} (target : s.linkTarget c = some id) :
    ∃ e ∈ s.events, e.id = id ∧ e.sportId = c.sportId ∧
      ∃ l ∈ s.activeLinks c.externalRef, l.canonicalEventId = id := by
  unfold EventStore.linkTarget at target
  split at target
  · cases target
  · rename_i bounded
    rw [requireBoundedIdentity_ok bounded] at target
    rcases Option.or_eq_some_iff.mp target with redirected | ⟨-, followed⟩
    · obtain ⟨e, inside, ids, sport, -, link⟩ := redirect_some redirected
      exact ⟨e, inside, ids, sport, link⟩
    · split at followed
      · cases followed
      · exact linked_some followed

theorem getOrCreateEvent_handled : Handled d s c (s.getOrCreateEvent d c) := by
  unfold getOrCreateEvent
  cases bounded : requireBoundedIdentity c.externalRef eventRefMaxBytes
    "event external_ref".toList with
  | error e => exact .refused e bounded
  | ok ref =>
    obtain rfl := requireBoundedIdentity_ok bounded
    simp only
    cases redirected : s.redirect c.sportId c.externalRef with
    | some id =>
      refine .followed id ?_
      simp only [linkTarget, bounded, redirected, Option.some_or]
    | none =>
      cases own : s.own c.externalRef with
      | some existing =>
        apply handled_ownRow own
        simp only [linkTarget, bounded, redirected, own, Option.isSome_some, if_true,
          Option.or_none]
      | none =>
        cases linked : s.linked c.sportId c.externalRef with
        | some id =>
          refine .followed id ?_
          simp only [linkTarget, bounded, redirected, own, linked, Option.isSome_none,
            Bool.false_eq_true, if_false, Option.none_or]
        | none => exact handled_newRef ⟨redirected, own, linked⟩

omit [Unicode] in
theorem Keyed.mint (keyed : s.Keyed) (own : s.own c.externalRef = none) : (s.mint c).2.Keyed where
  fresh e inside := by
    rcases List.mem_append.mp inside with old | new
    · exact Nat.lt_succ_of_lt (keyed.fresh e old)
    · rw [List.mem_singleton.mp new]
      exact Nat.lt_succ_self _
  ids := by
    rw [EventStore.mint, List.map_append, List.map_singleton]
    apply List.nodup_append.mpr
    refine ⟨keyed.ids, List.nodup_singleton _, ?_⟩
    intro id old id' new same
    obtain ⟨e, inside, rfl⟩ := List.mem_map.mp old
    rw [List.mem_singleton.mp new] at same
    exact absurd same (ne_of_lt (keyed.fresh e inside))
  refs := by
    rw [EventStore.mint, List.map_append, List.map_singleton]
    apply List.nodup_append.mpr
    refine ⟨keyed.refs, List.nodup_singleton _, ?_⟩
    intro ref old ref' new same
    obtain ⟨e, inside, rfl⟩ := List.mem_map.mp old
    rw [List.mem_singleton.mp new] at same
    exact absurd same (own_none_iff.mp own e inside)

theorem Keyed.afterCall (keyed : s.Keyed) : (s.afterCall d c).Keyed := by
  have handled : Handled d s c (s.getOrCreateEvent d c) := getOrCreateEvent_handled
  unfold EventStore.afterCall
  generalize s.getOrCreateEvent d c = r at handled ⊢
  cases handled with
  | refused e bounded => exact keyed
  | otherSport existing own unlinked other => exact keyed
  | unmoved existing own unlinked sport reviews => exact ⟨keyed.fresh, keyed.ids, keyed.refs⟩
  | unreviewed existing own unlinked sport settled e => exact keyed
  | unrecorded unknown startsAt real canon tier e => exact keyed
  | moved existing own unlinked sport allowed => exact keyed.moveKickoff
  | followed id target => exact keyed.moveKickoff
  | merged unknown startsAt real canon tier matchMethod => exact keyed.moveKickoff.upsert
  | minted unknown unmatched => exact keyed.mint unknown.own

end
end EventStore

/-! One fixture, for examples. -/

def derbyDirectory : Directory where
  sportKey sportId := if sportId = 1 then "soccer".toList else "tennis".toList
  leagueName _ := "Premier League".toList
  teamName teamId := if teamId = 1 then "Arsenal".toList else "Chelsea".toList

def derbyKickoff : Int := days 20000 + hours 12

def derbyCall (sportId : Nat) (externalRef : Str) (startsAt : Option Int) : EventCall :=
  ⟨sportId, 1, 1, 2, externalRef, startsAt, derbyKickoff - hours 3⟩

end SharpEvPicks.Storage
