import SharpEvPicks.Python.Rounding
import SharpEvPicks.Storage.Rekeying
import SharpEvPicks.Transition.Run

/-! Links to archive events over time: a match by name writes one, and later calls reuse it,
`resolve_pinnacle_close_snaps` of `app/storage/repositories.py`. -/
namespace SharpEvPicks.Storage

open Python Pipeline Resolution Transition

/-! The write. -/

namespace ArchiveStore
variable (s : ArchiveStore)

/-- `upsert_event_source_links` of the one accepted link. -/
def upsertLink (link : LinkByRef) (matchedAt : Int) : ArchiveStore :=
  match s.events.find? fun e => e.externalRef = link.canonicalExternalRef with
  | none => s
  | some canon =>
    let same (l : ConfirmedLink) : Bool :=
      l.source = pinnacleArcadia && l.sourceEventId = link.sourceEventId
    let retired := s.links.map fun l =>
      if same l && l.canonicalEventId ≠ canon.id then { l with active := false } else l
    let confirmed (id : Nat) : ConfirmedLink :=
      ⟨⟨id, canon.id, pinnacleArcadia, link.sourceEventId, link.method, matchedAt, true⟩,
        roundTo 6 link.confidence⟩
    { s with
      links :=
        if retired.any fun l => same l && l.canonicalEventId = canon.id then
          retired.map fun l => if same l && l.canonicalEventId = canon.id then confirmed l.id else l
        else retired ++ [confirmed (s.links.length + 1)] }

theorem map_updated {α : Type} (events : List Event) (id : Nat) {f : Event → Event}
    {key : Event → α} (keeps : ∀ e, key (f e) = key e) :
    (events.map fun e => if e.id = id then f e else e).map key = events.map key := by
  rw [List.map_map]
  apply List.map_congr_left
  intro e _
  rw [Function.comp_apply]
  split
  · exact keeps e
  · rfl

def update (id : Nat) (f : Event → Event) (ids : ∀ e, (f e).id = e.id)
    (refs : ∀ e, (f e).externalRef = e.externalRef) : ArchiveStore :=
  { s with
    events := s.events.map fun e => if e.id = id then f e else e
    ids := map_updated s.events id ids ▸ s.ids
    refs := map_updated s.events id refs ▸ s.refs }

def redate (id : Nat) (startsAt : Option Int) : ArchiveStore :=
  s.update id (fun e => { e with startsAt := startsAt }) (fun _ => rfl) fun _ => rfl

def relabel (id leagueId : Nat) : ArchiveStore :=
  s.update id (fun e => { e with leagueId := leagueId }) (fun _ => rfl) fun _ => rfl

/-- A new event; an id or a reference that is taken leaves the table as it is. -/
def capture (event : Event) : ArchiveStore :=
  if fresh : event.id ∉ s.events.map Event.id ∧
    event.externalRef ∉ s.events.map Event.externalRef then
    { s with
      events := event :: s.events
      ids := List.nodup_cons.mpr ⟨fresh.1, s.ids⟩
      refs := List.nodup_cons.mpr ⟨fresh.2, s.refs⟩ }
  else s

end ArchiveStore

/-! Histories. -/

/-- What a call is given of the fixture of a pick. -/
structure PickFixture where
  pinnacleSportKey : Str
  home : Str
  away : Str
  kickoff : Int
  deriving DecidableEq

def PickFixture.query (fixture : PickFixture) (ref : Str) : CloseQuery where
  pinnacleSportKey := fixture.pinnacleSportKey
  pickExternalRef := ref
  home := fixture.home
  away := fixture.away
  kickoff := fixture.kickoff

structure LinkHistory where
  store : ArchiveStore
  fixtures : Dict Str PickFixture

inductive ArchiveAction where
  | capture (event : Event)
  | prices (odds : OddsTable)
  | redate (id : Nat) (startsAt : Option Int)
  | relabel (id leagueId : Nat)
  | fixture (ref : Str) (fixture : PickFixture)
  /-- A call for a pick; the write of its link may fail. -/
  | resolve (ref : Str) (matchedAt : Int) (written : Bool)

def ArchiveAction.isUpdate : ArchiveAction → Bool
  | .resolve .. => false
  | _ => true

section
variable [UnicodeLetters] (d : Directory) (aliases : AliasTable)

def LinkHistory.resolve (h : LinkHistory) (ref : Str) : Option (Attachment × List Snapshot) :=
  (h.fixtures.get? ref).bind fun fixture =>
    (h.store.resolvePinnacleCloseSnaps d aliases (fixture.query ref)).toOption

def LinkHistory.step (h : LinkHistory) : ArchiveAction → LinkHistory
  | .capture event => { h with store := h.store.capture event }
  | .prices odds => { h with store := { h.store with odds := odds } }
  | .redate id startsAt => { h with store := h.store.redate id startsAt }
  | .relabel id leagueId => { h with store := h.store.relabel id leagueId }
  | .fixture ref fixture => { h with fixtures := h.fixtures.set ref fixture }
  | .resolve ref matchedAt written =>
    match (h.resolve d aliases ref).bind fun result => result.1.link with
    | some link => if written then { h with store := h.store.upsertLink link matchedAt } else h
    | none => h

/-! The gates. -/

/-- What the path without a link asks of an archive event, now. -/
structure Gated (s : ArchiveStore) (q : CloseQuery) (x : ArchiveEvent) : Prop where
  near : |x.kickoff - q.kickoff| ≤ minutes 360
  unmarked : q.leagueOnlyMarkers x = []
  alone : ∀ y ∈ s.archived d q, ¬ q.sibling x y

/-- Every event that a link attaches to a pick, tennis apart, passes the gates. -/
def LinksGated (h : LinkHistory) : Prop :=
  ∀ e ∈ h.fixtures.entries, ¬ (e.2.query e.1).isTennis →
    ∀ linked ∈ h.store.linkRows d (e.2.query e.1), Gated d h.store (e.2.query e.1) linked.2

/-- A new event, another kickoff, league or fixture leaves what is linked within the gates. -/
def Spares (h : LinkHistory) (action : ArchiveAction) : Prop :=
  action.isUpdate → LinksGated d (h.step d aliases action)

/-- Whatever a call attaches to a pick, tennis apart, passes the gates. -/
def AttachesGated (h : LinkHistory) : Prop :=
  ∀ ref fixture, h.fixtures.get? ref = some fixture → ¬ (fixture.query ref).isTennis →
    ∀ result x, h.resolve d aliases ref = some result → result.1.event = some x →
      Gated d h.store (fixture.query ref) x

/-! The match by name. -/

variable {d aliases} {s : ArchiveStore} {q : CloseQuery} {h : LinkHistory}

theorem NameMatched.gated {x : ArchiveEvent} {outcome : MatchOutcome}
    (matched : NameMatched d aliases s q x outcome) (team : ¬ q.isTennis)
    (drift : q.maxDayDrift = 1) : Gated d s q x := by
  have unrefused := matched.unrefused
  rw [CloseQuery.refusal, if_neg team] at unrefused
  split at unrefused
  · cases unrefused
  rename_i unmarked
  split at unrefused
  · cases unrefused
  rename_i alone
  obtain ⟨-, home, away, -, near⟩ := matched.candidate
  refine ⟨near, not_not.mp unmarked, ?_⟩
  intro y listed twin
  apply alone
  have close : |y.kickoff - q.kickoff| ≤ minutes 360 := by
    simp only [CloseQuery.sibling, Bool.and_eq_true, decide_eq_true_eq] at twin
    exact twin.1.1.1.2
  have window : minutes 360 ≤ days (q.maxDayDrift + 1) := by
    rw [drift]
    decide
  obtain ⟨after, before⟩ := abs_le.mp close
  have nearby : y ∈ s.nearby d q := by
    refine List.mem_filter.mpr ⟨listed, decide_eq_true ⟨?_, ?_⟩⟩ <;> linarith
  exact List.any_eq_true.mpr ⟨y, nearby, twin⟩

omit [UnicodeLetters] in
theorem linkTo_ok {x : ArchiveEvent} {confidence : ℚ} {method : Str} {link : LinkByRef}
    (linked : q.linkTo x confidence method = .ok link) :
    link.sourceEventId = x.externalRef ∧ link.canonicalExternalRef = q.pickExternalRef := by
  unfold CloseQuery.linkTo at linked
  simp only [bind, Except.bind, pure, Except.pure] at linked
  repeat
    split at linked
    · cases linked
  cases linked
  exact ⟨rfl, rfl⟩

/-- Only an accepted match by name writes a link: from its event to the pick. -/
theorem attach_link {found : Attachment} {link : LinkByRef}
    (attached : s.attach d aliases q = .ok found) (wrote : found.link = some link) :
    ∃ x outcome, NameMatched d aliases s q x outcome ∧ link.sourceEventId = x.externalRef ∧
      link.canonicalExternalRef = q.pickExternalRef := by
  unfold ArchiveStore.attach at attached
  split at attached
  · cases attached
    cases wrote
  obtain ⟨-, none⟩ | ⟨x, outcome, method, link', matched, linked, -, -, same⟩ :=
    attachByName_cases attached
  · rw [none] at wrote
    cases wrote
  · rw [same] at wrote
    cases wrote
    exact ⟨x, outcome, matched, linkTo_ok linked⟩

omit [UnicodeLetters] in
theorem archived_ref_inj {x y : ArchiveEvent} (hx : x ∈ s.archived d q)
    (hy : y ∈ s.archived d q) (same : x.externalRef = y.externalRef) : x = y := by
  obtain ⟨e, stored, -, shown⟩ := mem_archived hx
  obtain ⟨e', stored', -, shown'⟩ := mem_archived hy
  have one : e.externalRef = e'.externalRef :=
    (archiveEvent_some shown).2.1.symm.trans (same.trans (archiveEvent_some shown').2.1)
  obtain rfl : e = e' := List.inj_on_of_nodup_map s.refs stored stored' one
  exact Option.some.inj (shown.symm.trans shown')

/-! What a link leads to after the write of another. -/

omit [UnicodeLetters] in
theorem upsertLink_frame (link : LinkByRef) (matchedAt : Int) :
    (s.upsertLink link matchedAt).events = s.events ∧
      ∀ l ∈ (s.upsertLink link matchedAt).links, l.active →
        (∃ old ∈ s.links, old.active ∧ old.source = l.source ∧
          old.sourceEventId = l.sourceEventId ∧ old.canonicalEventId = l.canonicalEventId) ∨
        (l.sourceEventId = link.sourceEventId ∧
          ∃ canon ∈ s.events, canon.id = l.canonicalEventId ∧
            canon.externalRef = link.canonicalExternalRef) := by
  unfold ArchiveStore.upsertLink
  split
  · exact ⟨rfl, fun l inside active => .inl ⟨l, inside, active, rfl, rfl, rfl⟩⟩
  · rename_i canon found
    have target := List.mem_of_find?_eq_some found
    have named : canon.externalRef = link.canonicalExternalRef := by
      simpa using List.find?_some found
    -- a link that is left alone, and one that retires
    have kept : ∀ l ∈ s.links.map fun l : ConfirmedLink =>
        if (l.source = pinnacleArcadia && l.sourceEventId = link.sourceEventId) &&
          l.canonicalEventId ≠ canon.id then
          { l with active := false } else l, l.active → l ∈ s.links := by
      intro l inside active
      obtain ⟨old, listed, rfl⟩ := List.mem_map.mp inside
      split at active
      · cases active
      · rename_i stays
        rw [if_neg stays]
        exact listed
    refine ⟨rfl, ?_⟩
    intro l inside active
    simp only at inside
    split at inside
    · obtain ⟨l', listed, rfl⟩ := List.mem_map.mp inside
      split at active
      · rename_i mine
        rw [if_pos mine]
        exact .inr ⟨rfl, canon, target, rfl, named⟩
      · rename_i other
        rw [if_neg other]
        exact .inl ⟨l', kept l' listed active, active, rfl, rfl, rfl⟩
    · obtain old | new := List.mem_append.mp inside
      · exact .inl ⟨l, kept l old active, active, rfl, rfl, rfl⟩
      · rw [List.mem_singleton.mp new]
        exact .inr ⟨rfl, canon, target, rfl, named⟩

omit [UnicodeLetters] in
theorem linkRows_upsertLink {link : LinkByRef} {matchedAt : Int}
    {linked : ConfirmedLink × ArchiveEvent}
    (inside : linked ∈ (s.upsertLink link matchedAt).linkRows d q) :
    (∃ l, (l, linked.2) ∈ s.linkRows d q) ∨
      (linked.2 ∈ s.archived d q ∧ linked.2.externalRef = link.sourceEventId ∧
        q.pickExternalRef = link.canonicalExternalRef) := by
  obtain ⟨events, origin⟩ := @upsertLink_frame s link matchedAt
  obtain ⟨l, points, listed⟩ := List.mem_flatMap.mp inside
  obtain ⟨stored, points⟩ := List.mem_filter.mp points
  obtain ⟨x, there, rfl⟩ := List.mem_map.mp listed
  obtain ⟨archived, named⟩ := List.mem_filter.mp there
  simp only [decide_eq_true_eq] at named
  have archived' : x ∈ s.archived d q := by
    unfold ArchiveStore.archived at archived ⊢
    rwa [events] at archived
  simp only [ArchiveStore.pointsToPick, events, Bool.and_eq_true, decide_eq_true_eq,
    List.any_eq_true] at points
  obtain ⟨⟨source, active⟩, e, listed, ids, refs⟩ := points
  obtain ⟨old, kept, active', source', event', canonical'⟩ | ⟨event', canon, target, ids',
      refs'⟩ :=
    origin l stored active
  · refine .inl ⟨old, List.mem_flatMap.mpr ⟨old, List.mem_filter.mpr ⟨kept, ?_⟩, ?_⟩⟩
    · simp only [ArchiveStore.pointsToPick, Bool.and_eq_true, decide_eq_true_eq, List.any_eq_true]
      exact ⟨⟨source'.trans source, active'⟩, e, listed, ids.trans canonical'.symm, refs⟩
    · exact List.mem_map.mpr ⟨x,
        List.mem_filter.mpr ⟨archived', decide_eq_true (named.trans event'.symm)⟩, rfl⟩
  · have same : e = canon := List.inj_on_of_nodup_map s.ids listed target (ids.trans ids'.symm)
    exact .inr ⟨archived', named.trans event', by rw [← refs, same, refs']⟩

/-! Runs. -/

theorem Gated.upsertLink {x : ArchiveEvent} (gated : Gated d s q x) (link : LinkByRef)
    (matchedAt : Int) : Gated d (s.upsertLink link matchedAt) q x := by
  have events := (@upsertLink_frame s link matchedAt).1
  refine ⟨gated.near, gated.unmarked, ?_⟩
  unfold ArchiveStore.archived
  rw [events]
  exact gated.alone

theorem resolve_some {ref : Str} {result : Attachment × List Snapshot}
    (resolved : h.resolve d aliases ref = some result) :
    ∃ fixture, h.fixtures.get? ref = some fixture ∧
      h.store.attach d aliases (fixture.query ref) = .ok result.1 := by
  obtain ⟨fixture, known, answered⟩ := Option.bind_eq_some_iff.mp resolved
  refine ⟨fixture, known, ?_⟩
  cases called : h.store.resolvePinnacleCloseSnaps d aliases (fixture.query ref) with
  | error e =>
    rw [called] at answered
    cases answered
  | ok value =>
    rw [called] at answered
    cases answered
    exact (resolve_ok called).1

theorem linksGated_step (linked : LinksGated d h) (action : ArchiveAction)
    (spared : Spares d aliases h action) : LinksGated d (h.step d aliases action) := by
  cases action with
  | resolve ref matchedAt written =>
    unfold LinkHistory.step
    simp only
    split
    · rename_i link wrote
      split
      · obtain ⟨result, resolved, wrote⟩ := Option.bind_eq_some_iff.mp wrote
        obtain ⟨fixture, known, attached⟩ := resolve_some resolved
        obtain ⟨x, outcome, matched, source, target⟩ := attach_link attached wrote
        rintro ⟨ref', fixture'⟩ listed team pair inside
        obtain ⟨l, before⟩ | ⟨archived, named, own⟩ := linkRows_upsertLink inside
        · exact (linked _ listed team _ before).upsertLink link matchedAt
        · -- the link that was written leads from this pick to the matched event
          obtain rfl : ref' = ref := own.trans target
          obtain rfl : fixture' = fixture := by
            have same := Dict.get?_eq_some_iff.mpr listed
            rw [known] at same
            exact (Option.some.inj same).symm
          have same : pair.2 = x :=
            archived_ref_inj archived (List.mem_of_mem_filter matched.nearby) (named.trans source)
          rw [same]
          exact (matched.gated team rfl).upsertLink link matchedAt
      · exact linked
    · exact linked
  | _ => exact spared rfl

theorem attachesGated_of_linksGated (linked : LinksGated d h) : AttachesGated d aliases h := by
  intro ref fixture known team result x resolved event
  obtain ⟨fixture', known', attached⟩ := resolve_some resolved
  obtain rfl := Option.some.inj (known.symm.trans known')
  have way := attach_attached attached event
  generalize result.1.outcome = outcome at way
  cases way with
  | link only =>
    rename_i confirmed
    have inside : (confirmed, x) ∈ h.store.linkRows d (fixture.query ref) := by
      rw [only]
      exact List.mem_singleton_self _
    exact linked _ (Dict.get?_eq_some_iff.mp known) team _ inside
  | nameMatch matched => exact matched.gated team rfl

/-- From an archive without links, as long as no update takes a linked event out of the gates,
everything that is attached is within them. -/
theorem attached_gated (unlinked : ∀ l ∈ h.store.links, l.source ≠ pinnacleArcadia)
    (actions : List ArchiveAction)
    (spared : Along (LinkHistory.step d aliases) (Spares d aliases) h actions) :
    AttachesGated d aliases (run (LinkHistory.step d aliases) h actions) := by
  apply attachesGated_of_linksGated
  refine spared.invariant (fun h action linked => linksGated_step linked action) ?_
  intro e _ _ pair inside
  obtain ⟨l, points, -⟩ := List.mem_flatMap.mp inside
  obtain ⟨stored, points⟩ := List.mem_filter.mp points
  simp only [ArchiveStore.pointsToPick, Bool.and_eq_true, decide_eq_true_eq] at points
  exact absurd points.1.1 (unlinked l stored)

end

/-! A kickoff that moves after the link. -/

section
variable [UnicodeLetters] {d : Directory} {aliases : AliasTable}

instance gatedDecidable (s : ArchiveStore) (q : CloseQuery) (x : ArchiveEvent) :
    Decidable (Gated d s q x) :=
  decidable_of_iff (|x.kickoff - q.kickoff| ≤ minutes 360 ∧ q.leagueOnlyMarkers x = [] ∧
      ∀ y ∈ s.archived d q, ¬ q.sibling x y)
    ⟨fun ⟨near, unmarked, alone⟩ => ⟨near, unmarked, alone⟩,
      fun gated => ⟨gated.near, gated.unmarked, gated.alone⟩⟩

instance linksGatedDecidable (h : LinkHistory) : Decidable (LinksGated d h) :=
  inferInstanceAs (Decidable (∀ e ∈ h.fixtures.entries, ¬ (e.2.query e.1).isTennis →
    ∀ linked ∈ h.store.linkRows d (e.2.query e.1), Gated d h.store (e.2.query e.1) linked.2))

instance sparesDecidable (h : LinkHistory) (action : ArchiveAction) :
    Decidable (Spares d aliases h action) :=
  inferInstanceAs (Decidable (action.isUpdate → LinksGated d (h.step d aliases action)))

end

def leagueDirectory : Directory where
  sportKey sportId := if sportId = 1 then "soccer".toList else "pinnacle_soccer".toList
  leagueName _ := "Premier League".toList
  teamName teamId := if teamId = 1 then "Arsenal".toList else "Chelsea".toList

def leagueRows : List OddsRow :=
  [⟨2, "Pinnacle".toList, "h2h".toList, "Arsenal".toList, 2, none, hours 90, hours 90⟩,
    ⟨2, "Pinnacle".toList, "h2h".toList, "Draw".toList, 7 / 2, none, hours 90, hours 90⟩,
    ⟨2, "Pinnacle".toList, "h2h".toList, "Chelsea".toList, 4, none, hours 90, hours 90⟩]

theorem leagueRows_unique : (leagueRows.map OddsRow.observation).Nodup := by decide +kernel

def emptyLinks : LinkHistory :=
  ⟨⟨[], [], ⟨[], List.nodup_nil⟩, List.nodup_nil, List.nodup_nil⟩, Dict.empty⟩

/-- A pick and an archive event, a call, and another kickoff for the archive event. -/
def redated (startsAt : Int) : List ArchiveAction :=
  [.capture ⟨1, 1, 1, 1, 2, "oddsportal:1".toList, some (hours 100)⟩,
    .capture ⟨2, 2, 1, 1, 2, "arcadia:2".toList, some (hours 100)⟩,
    .prices ⟨leagueRows, leagueRows_unique⟩,
    .fixture "oddsportal:1".toList ⟨"pinnacle_soccer".toList, "Arsenal".toList, "Chelsea".toList,
      hours 100⟩,
    .resolve "oddsportal:1".toList (hours 95) true,
    .redate 2 (some startsAt)]

/-- Two hours later the archive event still has the same kickoff as the pick, as far as the gates
go. -/
theorem redated_attached_gated :
    @AttachesGated UnicodeLetters.ascii leagueDirectory AliasTable.empty
      (run (@LinkHistory.step UnicodeLetters.ascii leagueDirectory AliasTable.empty) emptyLinks
        (redated (hours 102))) := by
  have spared : Along (@LinkHistory.step UnicodeLetters.ascii leagueDirectory AliasTable.empty)
      (@Spares UnicodeLetters.ascii leagueDirectory AliasTable.empty) emptyLinks
        (redated (hours 102)) := by
    decide +kernel
  exact @attached_gated UnicodeLetters.ascii leagueDirectory AliasTable.empty emptyLinks
    (fun l inside => by cases inside) _ spared

def leagueCall (startsAt : Int) : Option (Option ArchiveEvent × List Str) :=
  (@LinkHistory.resolve UnicodeLetters.ascii leagueDirectory AliasTable.empty
    (run (@LinkHistory.step UnicodeLetters.ascii leagueDirectory AliasTable.empty) emptyLinks
      (redated startsAt))
    "oddsportal:1".toList).map fun result => (result.1.event, result.2.map Snapshot.selection)

/-- Two days later the link still attaches the prices of what is another game by then. -/
theorem attached_gated_fails :
    ∃ result x fixture,
      @LinkHistory.resolve UnicodeLetters.ascii leagueDirectory AliasTable.empty
        (run (@LinkHistory.step UnicodeLetters.ascii leagueDirectory AliasTable.empty) emptyLinks
          (redated (hours 148))) "oddsportal:1".toList = some result ∧
      result.1.event = some x ∧
      result.2.map Snapshot.selection = ["Arsenal".toList, "Chelsea".toList, "Draw".toList] ∧
      (run (@LinkHistory.step UnicodeLetters.ascii leagueDirectory AliasTable.empty) emptyLinks
        (redated (hours 148))).fixtures.get? "oddsportal:1".toList = some fixture ∧
      (fixture.query "oddsportal:1".toList).isTennis = false ∧
      x.kickoff - fixture.kickoff = hours 48 ∧
      ¬ @AttachesGated UnicodeLetters.ascii leagueDirectory AliasTable.empty
        (run (@LinkHistory.step UnicodeLetters.ascii leagueDirectory AliasTable.empty) emptyLinks
          (redated (hours 148))) := by
  have called : leagueCall (hours 148) =
      some (some ⟨2, "arcadia:2".toList, "Arsenal".toList, "Chelsea".toList, hours 148,
        "Premier League".toList⟩, ["Arsenal".toList, "Chelsea".toList, "Draw".toList]) := by
    decide +kernel
  obtain ⟨result, resolved, same⟩ := Option.map_eq_some_iff.mp called
  obtain ⟨event, selections⟩ := Prod.ext_iff.mp same
  have known : (run (@LinkHistory.step UnicodeLetters.ascii leagueDirectory AliasTable.empty)
      emptyLinks (redated (hours 148))).fixtures.get? "oddsportal:1".toList =
      some ⟨"pinnacle_soccer".toList, "Arsenal".toList, "Chelsea".toList, hours 100⟩ := by
    decide +kernel
  refine ⟨result, _, _, resolved, event, selections, known, by decide +kernel, by
    decide +kernel, ?_⟩
  intro gated
  have near := @Gated.near UnicodeLetters.ascii _ _ _ _
    (gated _ _ known (by decide +kernel) result _ resolved event)
  exact absurd near (by decide +kernel)

end SharpEvPicks.Storage
