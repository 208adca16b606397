import Mathlib
import SharpEvPicks.Storage.Archive

/-! What an attachment came from: the only active link, or an accepted match by name. -/
namespace SharpEvPicks.Storage

open Python Pipeline Resolution

section
variable [UnicodeLetters]

/-- The event of an accepted match, with all that the path without a link asked of it. -/
structure NameMatched (d : Directory) (aliases : AliasTable) (s : ArchiveStore) (q : CloseQuery)
    (x : ArchiveEvent) (outcome : MatchOutcome) : Prop where
  nearby : x ∈ s.nearby d q
  accepted : ∃ home away, (matchEventHardenedScored (q.matcherQuery aliases home away)
    ((s.nearby d q).map q.candidate)).1 = some outcome
  ref : x.ref = outcome.candidate.ref
  shares : q.isTennis → q.sharesToken outcome.candidate
  unrefused : q.refusal (s.nearby d q) x = none

inductive Attached (d : Directory) (aliases : AliasTable) (s : ArchiveStore) (q : CloseQuery)
    (x : ArchiveEvent) : ResolveOutcome → Prop
  | link {confirmed : ConfirmedLink} (only : s.linkRows d q = [(confirmed, x)]) :
    Attached d aliases s q x .link
  | nameMatch {outcome : MatchOutcome} (matched : NameMatched d aliases s q x outcome) :
    Attached d aliases s q x .nameMatch

variable {d : Directory} {aliases : AliasTable} {s : ArchiveStore} {q : CloseQuery}

theorem nameMatch_accepted {candidates : List EventCandidate} {outcome : MatchOutcome}
    {method : Str} {taps : List MatchReviewCandidate}
    (found : q.nameMatch aliases candidates = (some (outcome, method), taps)) :
    ∃ home away, (matchEventHardenedScored (q.matcherQuery aliases home away) candidates).1 =
      some outcome := by
  unfold CloseQuery.nameMatch at found
  simp only at found
  split at found
  · rename_i shown display
    cases found
    exact ⟨_, _, display⟩
  · split at found
    · cases found
    · rename_i slugHome slugAway named
      split at found
      · obtain ⟨accepted, -⟩ := Prod.ext_iff.mp found
        obtain ⟨shown, matched, same⟩ := Option.map_eq_some_iff.mp accepted
        cases same
        exact ⟨_, _, matched⟩
      · cases found

/-- The path without a link attaches nothing, or an accepted match with the link to it. -/
theorem attachByName_cases {found : Attachment}
    (attached : s.attachByName d aliases q = .ok found) :
    (found.event = none ∧ found.link = none) ∨
      ∃ x outcome method link, NameMatched d aliases s q x outcome ∧
        q.linkTo x outcome.confidence method = .ok link ∧ found.event = some x ∧
        found.outcome = .nameMatch ∧ found.link = some link := by
  unfold ArchiveStore.attachByName at attached
  simp only [bind, Except.bind, pure, Except.pure] at attached
  split at attached
  · cases attached
    exact .inl ⟨rfl, rfl⟩
  split at attached
  · split at attached
    · cases attached
    · cases attached
      exact .inl ⟨rfl, rfl⟩
  rename_i outcome method taps match_
  split at attached
  · cases attached
    exact .inl ⟨rfl, rfl⟩
  rename_i kin
  split at attached
  · cases attached
    exact .inl ⟨rfl, rfl⟩
  rename_i x listed
  split at attached
  · cases attached
    exact .inl ⟨rfl, rfl⟩
  rename_i unrefused
  split at attached
  · cases attached
  rename_i link linked
  cases attached
  have ref : x.ref = outcome.candidate.ref := by simpa using List.find?_some listed
  refine .inr ⟨x, outcome, method, link, ?_, linked, rfl, rfl, rfl⟩
  refine ⟨List.mem_of_find?_eq_some listed, nameMatch_accepted match_, ref, ?_, unrefused⟩
  intro tennis
  by_contra strange
  exact kin ⟨tennis, strange⟩

theorem attachByName_attached {found : Attachment} {x : ArchiveEvent}
    (attached : s.attachByName d aliases q = .ok found) (event : found.event = some x) :
    Attached d aliases s q x found.outcome := by
  obtain ⟨none, -⟩ | ⟨y, outcome, method, link, matched, -, same, way, -⟩ :=
    attachByName_cases attached
  · rw [none] at event
    cases event
  · rw [same] at event
    cases event
    rw [way]
    exact .nameMatch matched

theorem attach_attached {found : Attachment} {x : ArchiveEvent}
    (attached : s.attach d aliases q = .ok found) (event : found.event = some x) :
    Attached d aliases s q x found.outcome := by
  unfold ArchiveStore.attach at attached
  split at attached
  · rename_i confirmed linked only
    cases attached
    cases event
    exact .link only
  · exact attachByName_attached attached event

/-! Whose candidate was accepted. -/

omit [UnicodeLetters] in
theorem mem_archived {x : ArchiveEvent} (there : x ∈ s.archived d q) :
    ∃ e ∈ s.events, d.sportKey e.sportId = q.pinnacleSportKey ∧
      archiveEvent d e = some x := by
  obtain ⟨e, inside, shown⟩ := List.mem_filterMap.mp there
  obtain ⟨stored, sport⟩ := List.mem_filter.mp inside
  exact ⟨e, stored, of_decide_eq_true sport, shown⟩

omit [UnicodeLetters] in
theorem archiveEvent_some {e : Event} {x : ArchiveEvent} (shown : archiveEvent d e = some x) :
    x.id = e.id ∧ x.externalRef = e.externalRef ∧ e.startsAt = some x.kickoff := by
  obtain ⟨kickoff, known, rfl⟩ := Option.map_eq_some_iff.mp shown
  exact ⟨rfl, rfl, known⟩

omit [UnicodeLetters] in
theorem archived_id_inj {x y : ArchiveEvent} (hx : x ∈ s.archived d q) (hy : y ∈ s.archived d q)
    (same : x.id = y.id) : x = y := by
  obtain ⟨e, stored, -, shown⟩ := mem_archived hx
  obtain ⟨e', stored', -, shown'⟩ := mem_archived hy
  have one : e.id = e'.id :=
    (archiveEvent_some shown).1.symm.trans (same.trans (archiveEvent_some shown').1)
  obtain rfl : e = e' := List.inj_on_of_nodup_map s.ids stored stored' one
  exact Option.some.inj (shown.symm.trans shown')

theorem Attached.archived {x : ArchiveEvent} {outcome : ResolveOutcome}
    (attached : Attached d aliases s q x outcome) : x ∈ s.archived d q := by
  cases attached with
  | link only =>
    rename_i confirmed
    have inside : (confirmed, x) ∈ s.linkRows d q := by simp [only]
    obtain ⟨link, -, there⟩ := List.mem_flatMap.mp inside
    obtain ⟨y, listed, same⟩ := List.mem_map.mp there
    cases same
    exact List.mem_of_mem_filter listed
  | nameMatch matched => exact List.mem_of_mem_filter matched.nearby

/-- The accepted candidate is the one of the attached event, and it passed the blocks. -/
theorem NameMatched.candidate {x : ArchiveEvent} {outcome : MatchOutcome}
    (matched : NameMatched d aliases s q x outcome) :
    outcome.candidate = q.candidate x ∧
      ∃ home away, (q.matcherQuery aliases home away).inBlock (q.candidate x) ∧
        |x.kickoff - q.kickoff| ≤ minutes 360 := by
  obtain ⟨home, away, accepted⟩ := matched.accepted
  obtain ⟨-, b, leads, -, rfl⟩ := (accepts_iff _ _ _).mp accepted
  have ref := matched.ref
  rw [accepted_candidate] at ref ⊢
  obtain ⟨survived, near⟩ := List.mem_filter.mp leads.mem
  obtain ⟨cand, offered, survives⟩ := List.mem_filterMap.mp survived
  obtain ⟨y, nearby, rfl⟩ := List.mem_map.mp offered
  have own : b.cand = q.candidate y ∧
      (q.matcherQuery aliases home away).inBlock (q.candidate y) := by
    unfold Query.survive at survives
    split at survives
    · cases survives
    rename_i blocked
    have block : (q.matcherQuery aliases home away).inBlock (q.candidate y) := by
      simpa using blocked
    split at survives
    · cases survives
      exact ⟨rfl, block⟩
    split at survives
    · cases survives
      exact ⟨rfl, block⟩
    · cases survives
  rw [own.1] at ref near ⊢
  have same : x = y := by
    apply archived_id_inj (List.mem_of_mem_filter matched.nearby) (List.mem_of_mem_filter nearby)
    exact Nat.repr_injective (String.toList_inj.mp ref)
  subst same
  exact ⟨rfl, home, away, own.2, of_decide_eq_true near⟩

end
end SharpEvPicks.Storage
