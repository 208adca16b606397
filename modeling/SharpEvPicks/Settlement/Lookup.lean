import SharpEvPicks.Settlement.Results
import Mathlib.Data.List.Perm.Basic
import Mathlib.Tactic.Linarith

/-! Which row `ScoreBook.lookup` returns: its two name tiers against its three dates,
and what the order of the rows can change. -/
namespace SharpEvPicks.Settlement.ScoreBook

open Python Resolution

section Discipline
variable {σ : Type} [Unicode]

def sameNames (rows : List (FinalScore σ)) (home away : Str) (d : Int) : List (FinalScore σ) :=
  pairings rows (normalizeTeam home, normalizeTeam away, d)

@[simp] theorem exact_names (rows : List (FinalScore σ)) (home away : Str) (d : Int) :
    (ofRows rows).exact.get? (normalizeTeam home, normalizeTeam away, d) =
      (sameNames rows home away d).getLast? := exact_ofRows rows _

theorem mem_sameNames {rows : List (FinalScore σ)} {home away : Str} {d : Int}
    {s : FinalScore σ} :
    s ∈ sameNames rows home away d ↔
      s ∈ rows ∧ normalizeTeam s.homeTeam = normalizeTeam home ∧
      normalizeTeam s.awayTeam = normalizeTeam away ∧ s.matchDate = d := by
  simp [sameNames, pairings, rowKey]

theorem mem_hits {rows : List (FinalScore σ)} {home away : Str} {d : Int} {s : FinalScore σ} :
    s ∈ hits rows home away d ↔ s ∈ rows ∧ s.matchDate = d ∧
      nameHit home away s = true := by
  simp [hits]

/-- A row denotes the fixture: equal normalized names, or both sides in the containment tier. -/
def Denotes (home away : Str) (s : FinalScore σ) : Prop :=
  (normalizeTeam s.homeTeam = normalizeTeam home ∧
    normalizeTeam s.awayTeam = normalizeTeam away) ∨ nameHit home away s = true

/-- The neighbouring date on the other side of the kickoff date. -/
def opposite (d0 d : Int) : Int := 2 * d0 - d

def Adjacent (d0 d : Int) : Prop := d = d0 - 1 ∨ d = d0 + 1

omit [Unicode] in
theorem agreed_mem {l : List (FinalScore σ)} {r : FinalScore σ} (h : agreed l = some r) :
    r ∈ l := by
  cases l with
  | nil => cases h
  | cons first rest =>
    simp only [agreed] at h
    split at h
    · cases Option.some.inj h
      exact List.mem_cons_self
    · cases h

inductive Found (rows : List (FinalScore σ)) (home away : Str) (d0 : Int) (r : FinalScore σ) :
    Prop
  | exact (hit : r ∈ sameNames rows home away d0)
  | exactAdjacent (d : Int) (adjacent : Adjacent d0 d) (hit : r ∈ sameNames rows home away d)
      (missing : sameNames rows home away d0 = [])
      (alone : sameNames rows home away (opposite d0 d) = [])
  | contained (hit : r ∈ hits rows home away d0) (missing : sameNames rows home away d0 = [])
  | containedAdjacent (d : Int) (adjacent : Adjacent d0 d) (hit : r ∈ hits rows home away d)
      (missing : sameNames rows home away d0 = []) (noHit : hits rows home away d0 = [])
      (alone : sameNames rows home away (opposite d0 d) = [])
      (aloneHit : hits rows home away (opposite d0 d) = [])

omit [Unicode] in
theorem opposite_prev (d0 : Int) : opposite d0 (d0 - 1) = d0 + 1 := by unfold opposite; omega

omit [Unicode] in
theorem opposite_next (d0 : Int) : opposite d0 (d0 + 1) = d0 - 1 := by unfold opposite; omega

theorem found_of_lookup {rows : List (FinalScore σ)} {home away : Str} {kickoff : Int}
    {r : FinalScore σ} (found : (ofRows rows).lookup home away kickoff = some r) :
    Found rows home away (dateOf kickoff) r := by
  simp only [lookup, exact_names, contained_ofRows] at found
  split at found
  · rename_i last
    cases Option.some.inj found
    exact .exact (List.mem_of_getLast? last)
  · rename_i missing
    rw [List.getLast?_eq_none_iff] at missing
    split at found
    · cases found
    · rename_i prev next
      cases Option.some.inj found
      exact .exactAdjacent _ (Or.inl rfl) (List.mem_of_getLast? prev) missing
        (by rw [opposite_prev]; exact List.getLast?_eq_none_iff.mp next)
    · rename_i prev next
      cases Option.some.inj found
      exact .exactAdjacent _ (Or.inr rfl) (List.mem_of_getLast? next) missing
        (by rw [opposite_next]; exact List.getLast?_eq_none_iff.mp prev)
    · rename_i prev next
      rw [List.getLast?_eq_none_iff] at prev next
      split at found
      · exact .contained (agreed_mem found) missing
      · rename_i noHit
        rw [ne_eq, not_not] at noHit
        split at found
        · cases found
        · rename_i notBoth
          by_cases before : hits rows home away (dateOf kickoff - 1) = []
          · rw [if_neg (by simpa using before)] at found
            exact .containedAdjacent _ (Or.inr rfl) (agreed_mem found) missing noHit
              (by rw [opposite_next]; exact prev) (by rw [opposite_next]; exact before)
          · rw [if_pos before] at found
            have after : hits rows home away (dateOf kickoff + 1) = [] := by
              by_contra after
              exact notBoth ⟨before, after⟩
            exact .containedAdjacent _ (Or.inl rfl) (agreed_mem found) missing noHit
              (by rw [opposite_prev]; exact next) (by rw [opposite_prev]; exact after)

/-- A returned row is one of the book, of the kickoff date or a neighbouring one, and denotes
the fixture. -/
theorem lookup_sound {rows : List (FinalScore σ)} {home away : Str} {kickoff : Int}
    {r : FinalScore σ} (found : (ofRows rows).lookup home away kickoff = some r) :
    r ∈ rows ∧ (r.matchDate = dateOf kickoff ∨ Adjacent (dateOf kickoff) r.matchDate) ∧
      Denotes home away r := by
  cases found_of_lookup found with
  | exact hit =>
    obtain ⟨mem, h, a, date⟩ := mem_sameNames.mp hit
    exact ⟨mem, Or.inl date, Or.inl ⟨h, a⟩⟩
  | exactAdjacent d adjacent hit missing alone =>
    obtain ⟨mem, h, a, date⟩ := mem_sameNames.mp hit
    exact ⟨mem, Or.inr (date ▸ adjacent), Or.inl ⟨h, a⟩⟩
  | contained hit missing =>
    obtain ⟨mem, date, names⟩ := mem_hits.mp hit
    exact ⟨mem, Or.inl date, Or.inr names⟩
  | containedAdjacent d adjacent hit missing noHit alone aloneHit =>
    obtain ⟨mem, date, names⟩ := mem_hits.mp hit
    exact ⟨mem, Or.inr (date ▸ adjacent), Or.inr names⟩

theorem lookup_today {rows : List (FinalScore σ)} {home away : Str} {kickoff : Int}
    (present : sameNames rows home away (dateOf kickoff) ≠ []) :
    (ofRows rows).lookup home away kickoff =
      (sameNames rows home away (dateOf kickoff)).getLast? := by
  simp [lookup, List.getLast?_eq_getLast_of_ne_nil present]

theorem lookup_backToBack {rows : List (FinalScore σ)} {home away : Str} {kickoff : Int}
    (missing : sameNames rows home away (dateOf kickoff) = [])
    (prev : sameNames rows home away (dateOf kickoff - 1) ≠ [])
    (next : sameNames rows home away (dateOf kickoff + 1) ≠ []) :
    (ofRows rows).lookup home away kickoff = none := by
  simp [lookup, missing, List.getLast?_eq_getLast_of_ne_nil prev,
    List.getLast?_eq_getLast_of_ne_nil next]

theorem lookup_adjacent {rows : List (FinalScore σ)} {home away : Str} {kickoff : Int} {d : Int}
    (adjacent : Adjacent (dateOf kickoff) d)
    (missing : sameNames rows home away (dateOf kickoff) = [])
    (present : sameNames rows home away d ≠ [])
    (alone : sameNames rows home away (opposite (dateOf kickoff) d) = []) :
    (ofRows rows).lookup home away kickoff = (sameNames rows home away d).getLast? := by
  rcases adjacent with rfl | rfl
  · rw [opposite_prev] at alone
    simp [lookup, missing, alone, List.getLast?_eq_getLast_of_ne_nil present]
  · rw [opposite_next] at alone
    simp [lookup, missing, alone, List.getLast?_eq_getLast_of_ne_nil present]

def containedScore (rows : List (FinalScore σ)) (home away : Str) (d0 : Int) :
    Option (FinalScore σ) :=
  if hits rows home away d0 ≠ [] then agreed (hits rows home away d0)
  else if hits rows home away (d0 - 1) ≠ [] ∧ hits rows home away (d0 + 1) ≠ [] then none
  else agreed (if hits rows home away (d0 - 1) ≠ [] then hits rows home away (d0 - 1)
    else hits rows home away (d0 + 1))

theorem lookup_contained {rows : List (FinalScore σ)} {home away : Str} {kickoff : Int}
    (missing : sameNames rows home away (dateOf kickoff) = [])
    (prev : sameNames rows home away (dateOf kickoff - 1) = [])
    (next : sameNames rows home away (dateOf kickoff + 1) = []) :
    (ofRows rows).lookup home away kickoff = containedScore rows home away (dateOf kickoff) := by
  simp [lookup, containedScore, missing, prev, next]

/-- The row that the tiers single out. -/
inductive Decides (rows : List (FinalScore σ)) (home away : Str) (d0 : Int) (r : FinalScore σ) :
    Prop
  | exact (last : (sameNames rows home away d0).getLast? = some r)
  | exactAdjacent (d : Int) (adjacent : Adjacent d0 d)
      (last : (sameNames rows home away d).getLast? = some r)
      (missing : sameNames rows home away d0 = [])
      (alone : sameNames rows home away (opposite d0 d) = [])
  | contained (agreed : containedScore rows home away d0 = some r)
      (missing : sameNames rows home away d0 = []) (prev : sameNames rows home away (d0 - 1) = [])
      (next : sameNames rows home away (d0 + 1) = [])

theorem lookup_iff {rows : List (FinalScore σ)} {home away : Str} {kickoff : Int}
    {r : FinalScore σ} :
    (ofRows rows).lookup home away kickoff = some r ↔
      Decides rows home away (dateOf kickoff) r := by
  constructor
  · intro found
    by_cases missing : sameNames rows home away (dateOf kickoff) = []
    · by_cases prev : sameNames rows home away (dateOf kickoff - 1) = []
      · by_cases next : sameNames rows home away (dateOf kickoff + 1) = []
        · rw [lookup_contained missing prev next] at found
          exact .contained found missing prev next
        · have alone : sameNames rows home away (opposite (dateOf kickoff) (dateOf kickoff + 1)) =
              [] := by
            rw [opposite_next]
            exact prev
          rw [lookup_adjacent (.inr rfl) missing next alone] at found
          exact .exactAdjacent _ (.inr rfl) found missing alone
      · by_cases next : sameNames rows home away (dateOf kickoff + 1) = []
        · have alone : sameNames rows home away (opposite (dateOf kickoff) (dateOf kickoff - 1)) =
              [] := by
            rw [opposite_prev]
            exact next
          rw [lookup_adjacent (.inl rfl) missing prev alone] at found
          exact .exactAdjacent _ (.inl rfl) found missing alone
        · rw [lookup_backToBack missing prev next] at found
          cases found
    · rw [lookup_today missing] at found
      exact .exact found
  · intro decides
    cases decides with
    | exact last =>
      rw [lookup_today (List.ne_nil_of_mem (List.mem_of_getLast? last))]
      exact last
    | exactAdjacent d adjacent last missing alone =>
      rw [lookup_adjacent adjacent missing (List.ne_nil_of_mem (List.mem_of_getLast? last)) alone]
      exact last
    | contained agreed missing prev next =>
      rw [lookup_contained missing prev next]
      exact agreed

/-! Date discipline. -/

/-- A score of a neighbouring date is returned only when no row of the kickoff date and none of
the opposite date denotes the fixture. -/
def DateDiscipline (rows : List (FinalScore σ)) (home away : Str) (kickoff : Int) : Prop :=
  ∀ r, (ofRows rows).lookup home away kickoff = some r → r.matchDate ≠ dateOf kickoff →
    (∀ s ∈ rows, s.matchDate = dateOf kickoff → ¬ Denotes home away s) ∧
      ∀ s ∈ rows, s.matchDate = opposite (dateOf kickoff) r.matchDate → ¬ Denotes home away s

/-- Where the exact tier holds the names on one neighbouring date alone, the containment tier
holds nothing on the kickoff date nor on the opposite one. -/
def TiersKeepApart (rows : List (FinalScore σ)) (home away : Str) (kickoff : Int) : Prop :=
  ∀ d, Adjacent (dateOf kickoff) d → sameNames rows home away (dateOf kickoff) = [] →
    sameNames rows home away d ≠ [] →
      sameNames rows home away (opposite (dateOf kickoff) d) = [] →
    hits rows home away (dateOf kickoff) = [] ∧
      hits rows home away (opposite (dateOf kickoff) d) = []

theorem not_denotes_of_empty {rows : List (FinalScore σ)} {home away : Str} {d : Int}
    (missing : sameNames rows home away d = []) (noHit : hits rows home away d = []) :
    ∀ s ∈ rows, s.matchDate = d → ¬ Denotes home away s := by
  rintro s mem date (⟨h, a⟩ | names)
  · exact List.ne_nil_of_mem (mem_sameNames.mpr ⟨mem, h, a, date⟩) missing
  · exact List.ne_nil_of_mem (mem_hits.mpr ⟨mem, date, names⟩) noHit

theorem hits_empty {rows : List (FinalScore σ)} {home away : Str} {d : Int}
    (h : ∀ s ∈ rows, s.matchDate = d → ¬ Denotes home away s) :
      hits rows home away d = [] := by
  refine List.eq_nil_iff_forall_not_mem.mpr fun s hs => ?_
  obtain ⟨mem, date, names⟩ := mem_hits.mp hs
  exact h s mem date (Or.inr names)

theorem dateDiscipline_iff (rows : List (FinalScore σ)) (home away : Str) (kickoff : Int) :
    DateDiscipline rows home away kickoff ↔ TiersKeepApart rows home away kickoff := by
  constructor
  · intro discipline d adjacent missing present alone
    have found := lookup_adjacent adjacent missing present alone
    rw [List.getLast?_eq_getLast_of_ne_nil present] at found
    have date : ((sameNames rows home away d).getLast present).matchDate = d :=
      (mem_sameNames.mp (List.getLast_mem present)).2.2.2
    have offDate : d ≠ dateOf kickoff := by
      intro same
      rcases adjacent with prev | next
      · omega
      · omega
    have clear := discipline _ found (by rw [date]; exact offDate)
    rw [date] at clear
    exact ⟨hits_empty clear.1, hits_empty clear.2⟩
  · intro apart r found offDate
    cases found_of_lookup found with
    | exact hit => exact absurd (mem_sameNames.mp hit).2.2.2 offDate
    | contained hit missing => exact absurd (mem_hits.mp hit).2.1 offDate
    | exactAdjacent d adjacent hit missing alone =>
      have date : r.matchDate = d := (mem_sameNames.mp hit).2.2.2
      have clear := apart d adjacent missing (List.ne_nil_of_mem hit) alone
      rw [date]
      exact ⟨not_denotes_of_empty missing clear.1, not_denotes_of_empty alone clear.2⟩
    | containedAdjacent d adjacent hit missing noHit alone aloneHit =>
      have date : r.matchDate = d := (mem_hits.mp hit).2.1
      rw [date]
      exact ⟨not_denotes_of_empty missing noHit, not_denotes_of_empty alone aloneHit⟩

end Discipline

/-- The exact spelling a day early beats the containment spelling on the kickoff date. -/
theorem dateDiscipline_fails :
    ¬ @DateDiscipline Unit Unicode.ascii
      [{ homeTeam := "Flamengo RJ".toList, awayTeam := "Palmeiras".toList, matchDate := 20000,
         homeScore := 2, awayScore := 0, feed := () },
       { homeTeam := "Flamengo".toList, awayTeam := "Palmeiras".toList, matchDate := 19999,
         homeScore := 0, awayScore := 1, feed := () }]
      "Flamengo".toList "Palmeiras".toList (days 20000) := by
  intro discipline
  have clear := discipline
    { homeTeam := "Flamengo".toList, awayTeam := "Palmeiras".toList, matchDate := 19999,
      homeScore := 0, awayScore := 1, feed := () } (by decide) (by decide)
  exact clear.1 _ List.mem_cons_self (by decide) (Or.inr (by decide))

/-! Order of the rows. -/

section Order
variable {σ : Type} [Unicode]

omit [Unicode] in
theorem agreed_payload_perm {l l' : List (FinalScore σ)} (perm : l.Perm l') :
    (agreed l).map FinalScore.payload = (agreed l').map FinalScore.payload := by
  cases l with
  | nil => rw [List.nil_perm.mp perm]
  | cons r rest =>
    cases l' with
    | nil => exact absurd perm.length_eq (by simp)
    | cons r' rest' =>
      have one : ∀ {a : FinalScore σ} {as : List (FinalScore σ)},
          as.all (fun s => s.payload = a.payload) = true ↔
            ∀ s ∈ a :: as, s.payload = a.payload := by
        intro a as
        simp
      by_cases same : ∀ s ∈ r :: rest, s.payload = r.payload
      · have head : r'.payload = r.payload := same r' (perm.mem_iff.mpr List.mem_cons_self)
        have same' : ∀ s ∈ r' :: rest', s.payload = r'.payload := fun s hs =>
          (same s (perm.mem_iff.mpr hs)).trans head.symm
        rw [agreed, agreed, if_pos (one.mpr same), if_pos (one.mpr same'), Option.map_some,
          Option.map_some, head]
      · have same' : ¬ ∀ s ∈ r' :: rest', s.payload = r'.payload := by
          intro h
          apply same
          intro s hs
          have first := h r (perm.mem_iff.mp List.mem_cons_self)
          exact (h s (perm.mem_iff.mp hs)).trans first.symm
        rw [agreed, agreed, if_neg (mt one.mp same), if_neg (mt one.mp same')]

def OnePayload (l : List (FinalScore σ)) : Prop := ∀ r ∈ l, ∀ s ∈ l, r.payload = s.payload

omit [Unicode] in
theorem last_payload_perm {l l' : List (FinalScore σ)} (one : OnePayload l) (perm : l.Perm l') :
    l.getLast?.map FinalScore.payload = l'.getLast?.map FinalScore.payload := by
  cases h : l.getLast? with
  | none =>
    rw [List.getLast?_eq_none_iff.mp h] at perm
    rw [List.nil_perm.mp perm]
    rfl
  | some r =>
    have some' : l' ≠ [] := by
      rintro rfl
      rw [List.perm_nil.mp perm] at h
      cases h
    rw [List.getLast?_eq_getLast_of_ne_nil some']
    exact congrArg some
      (one r (List.mem_of_getLast? h) _ (perm.mem_iff.mpr (List.getLast_mem some')))

def deciding (rows : List (FinalScore σ)) (home away : Str) (d0 : Int) : List (FinalScore σ) :=
  if sameNames rows home away d0 ≠ [] then sameNames rows home away d0
  else if sameNames rows home away (d0 - 1) ≠ [] ∧
    sameNames rows home away (d0 + 1) ≠ [] then []
  else sameNames rows home away (d0 - 1) ++ sameNames rows home away (d0 + 1)

theorem sameNames_perm {rows rows' : List (FinalScore σ)} (perm : rows.Perm rows')
    (home away : Str) (d : Int) :
    (sameNames rows home away d).Perm (sameNames rows' home away d) := perm.filter _

theorem hits_perm {rows rows' : List (FinalScore σ)} (perm : rows.Perm rows')
    (home away : Str) (d : Int) : (hits rows home away d).Perm (hits rows' home away d) :=
  perm.filter _

theorem containedScore_payload_perm {rows rows' : List (FinalScore σ)} (perm : rows.Perm rows')
    (home away : Str) (d0 : Int) :
    (containedScore rows home away d0).map FinalScore.payload =
      (containedScore rows' home away d0).map FinalScore.payload := by
  have empty : ∀ d, hits rows home away d = [] ↔ hits rows' home away d = [] := fun d =>
    ⟨fun h => List.nil_perm.mp (h ▸ hits_perm perm home away d),
      fun h => List.perm_nil.mp (h ▸ hits_perm perm home away d)⟩
  simp only [containedScore, ne_eq, empty]
  split
  · exact agreed_payload_perm (hits_perm perm home away _)
  · split
    · rfl
    · split
      · exact agreed_payload_perm (hits_perm perm home away _)
      · exact agreed_payload_perm (hits_perm perm home away _)

/-- Every order of the rows finds the same payload or none, and two rows of the kickoff date
with the query's names and different payloads find none. -/
def OrderFree (rows : List (FinalScore σ)) (home away : Str) (kickoff : Int) : Prop :=
  (∀ rows', rows.Perm rows' →
    ((ofRows rows).lookup home away kickoff).map FinalScore.payload =
      ((ofRows rows').lookup home away kickoff).map FinalScore.payload) ∧
  ∀ r ∈ sameNames rows home away (dateOf kickoff),
    ∀ s ∈ sameNames rows home away (dateOf kickoff), r.payload ≠ s.payload →
      (ofRows rows).lookup home away kickoff = none

theorem lookup_perm {rows rows' : List (FinalScore σ)} {home away : Str} {kickoff : Int}
    (one : OnePayload (deciding rows home away (dateOf kickoff))) (perm : rows.Perm rows') :
    ((ofRows rows).lookup home away kickoff).map FinalScore.payload =
      ((ofRows rows').lookup home away kickoff).map FinalScore.payload := by
  have same := fun d => sameNames_perm perm home away d
  have empty : ∀ d, sameNames rows home away d = [] ↔
      sameNames rows' home away d = [] := fun d =>
    ⟨fun h => List.nil_perm.mp (h ▸ same d), fun h => List.perm_nil.mp (h ▸ same d)⟩
  by_cases today : sameNames rows home away (dateOf kickoff) = []
  · by_cases prev : sameNames rows home away (dateOf kickoff - 1) = []
    · by_cases next : sameNames rows home away (dateOf kickoff + 1) = []
      · rw [lookup_contained today prev next,
          lookup_contained ((empty _).mp today) ((empty _).mp prev) ((empty _).mp next)]
        exact containedScore_payload_perm perm home away _
      · have alone : sameNames rows home away (opposite (dateOf kickoff) (dateOf kickoff + 1)) =
            [] := by
          rw [opposite_next]; exact prev
        rw [lookup_adjacent (Or.inr rfl) today next alone,
          lookup_adjacent (Or.inr rfl) ((empty _).mp today) (mt (empty _).mpr next)
            ((empty _).mp alone)]
        exact last_payload_perm (by simpa [deciding, today, prev] using one) (same _)
    · by_cases next : sameNames rows home away (dateOf kickoff + 1) = []
      · have alone : sameNames rows home away (opposite (dateOf kickoff) (dateOf kickoff - 1)) =
            [] := by
          rw [opposite_prev]; exact next
        rw [lookup_adjacent (Or.inl rfl) today prev alone,
          lookup_adjacent (Or.inl rfl) ((empty _).mp today) (mt (empty _).mpr prev)
            ((empty _).mp alone)]
        exact last_payload_perm (by simpa [deciding, today, next] using one) (same _)
      · rw [lookup_backToBack today prev next,
          lookup_backToBack ((empty _).mp today) (mt (empty _).mpr prev) (mt (empty _).mpr next)]
  · rw [lookup_today today, lookup_today (mt (empty _).mpr today)]
    exact last_payload_perm (by simpa [deciding, today] using one) (same _)

theorem exists_perm_last {rows : List (FinalScore σ)} {home away : Str} {d : Int}
    {r : FinalScore σ} (hr : r ∈ sameNames rows home away d) :
    ∃ rows', rows.Perm rows' ∧ (sameNames rows' home away d).getLast? = some r := by
  obtain ⟨before, after, rfl⟩ := List.append_of_mem (mem_sameNames.mp hr).1
  refine ⟨before ++ after ++ [r], ?_, ?_⟩
  · rw [List.append_assoc]
    exact (List.perm_append_singleton r after).symm.append_left before
  · have hit : rowKey r = (normalizeTeam home, normalizeTeam away, d) := by
      obtain ⟨_, h, a, date⟩ := mem_sameNames.mp hr
      rw [rowKey, h, a, date]
    simp [sameNames, pairings, hit]

theorem one_of_orderFree {rows : List (FinalScore σ)} {home away : Str} {kickoff : Int} {d : Int}
    (free : OrderFree rows home away kickoff) (adjacent : Adjacent (dateOf kickoff) d)
    (missing : sameNames rows home away (dateOf kickoff) = [])
    (alone : sameNames rows home away (opposite (dateOf kickoff) d) = []) :
    OnePayload (sameNames rows home away d) := by
  have payload : ∀ r ∈ sameNames rows home away d,
      ((ofRows rows).lookup home away kickoff).map FinalScore.payload = some r.payload := by
    intro r hr
    obtain ⟨rows', perm, last⟩ := exists_perm_last hr
    have present : sameNames rows' home away d ≠ [] := by
      intro h
      rw [h] at last
      cases last
    have empty : ∀ e, sameNames rows home away e = [] → sameNames rows' home away e = [] :=
      fun e h => List.nil_perm.mp (h ▸ sameNames_perm perm home away e)
    rw [free.1 rows' perm, lookup_adjacent adjacent (empty _ missing) present (empty _ alone), last]
    rfl
  intro r hr s hs
  exact Option.some.inj ((payload r hr).symm.trans (payload s hs))

theorem orderFree_iff (rows : List (FinalScore σ)) (home away : Str) (kickoff : Int) :
    OrderFree rows home away kickoff ↔ OnePayload (deciding rows home away (dateOf kickoff)) := by
  constructor
  · intro free
    unfold deciding
    split
    · rename_i today
      intro r hr s hs
      by_contra differ
      have refused := free.2 r hr s hs differ
      rw [lookup_today today] at refused
      exact today (List.getLast?_eq_none_iff.mp refused)
    · rename_i today
      rw [ne_eq, not_not] at today
      split
      · exact fun r hr => absurd hr List.not_mem_nil
      · rename_i notBoth
        by_cases prev : sameNames rows home away (dateOf kickoff - 1) = []
        · rw [prev, List.nil_append]
          exact one_of_orderFree free (Or.inr rfl) today (by rw [opposite_next]; exact prev)
        · have next : sameNames rows home away (dateOf kickoff + 1) = [] := by
            by_contra next
            exact notBoth ⟨prev, next⟩
          rw [next, List.append_nil]
          exact one_of_orderFree free (Or.inl rfl) today (by rw [opposite_prev]; exact next)
  · intro one
    refine ⟨fun rows' perm => lookup_perm one perm, ?_⟩
    intro r hr s hs differ
    have today := List.ne_nil_of_mem hr
    rw [deciding, if_pos today] at one
    exact absurd (one r hr s hs) differ

end Order

/-- Two feeds disagree on one fixture: whichever was read last is graded. -/
theorem orderFree_fails :
    ¬ @OrderFree Unit Unicode.ascii
      [{ homeTeam := "Arsenal".toList, awayTeam := "Chelsea".toList, matchDate := 20000,
         homeScore := 2, awayScore := 1, feed := () },
       { homeTeam := "Arsenal".toList, awayTeam := "Chelsea".toList, matchDate := 20000,
         homeScore := 1, awayScore := 1, feed := () }]
      "Arsenal".toList "Chelsea".toList (days 20000) := by
  intro free
  exact absurd (free.1 _ (List.Perm.swap _ _ [])) (by decide)

end SharpEvPicks.Settlement.ScoreBook
