import SharpEvPicks.Storage.Attachments

/-! Closes of the archive in the words of the pick: what a re-keyed row keeps, and which side of
the pick a team of the archive becomes. -/
namespace SharpEvPicks.Storage

open Python Pipeline Resolution

/-- The team that a selection names, and what follows its name. -/
def namedTeam (market : Market) (selection : Str) : Option (Str × Str) :=
  match market with
  | .h2h => if selection = "Draw".toList then none else some (selection, [])
  | .spreads =>
    if ' ' ∈ selection then
      let (team, suffix) := rpartition ' ' selection
      some (team, ' ' :: suffix)
    else none
  | _ => none

section
variable [UnicodeLetters]

theorem mappedSelection_named {names : Dict Str Str} {market : Market} {selection team suffix : Str}
    (named : namedTeam market selection = some (team, suffix)) :
    mappedSelection names market selection =
      (names.get? (normalizeName team)).map fun side => side ++ suffix := by
  cases market with
  | h2h =>
    by_cases draw : selection = "Draw".toList
    · rw [namedTeam, if_pos draw] at named
      cases named
    · rw [namedTeam, if_neg draw] at named
      rw [mappedSelection, if_neg draw]
      cases named
      simp
  | spreads =>
    by_cases blank : ' ' ∈ selection
    · rw [namedTeam, if_pos blank] at named
      rw [mappedSelection, if_pos blank]
      cases named
      rfl
    · rw [namedTeam, if_neg blank] at named
      cases named
  | doubleChance | dnb | totals | teamTotals | btts | correctScore | other => cases named

theorem mappedSelection_unnamed {names : Dict Str Str} {market : Market} {selection mapped : Str}
    (unnamed : namedTeam market selection = none)
    (kept : mappedSelection names market selection = some mapped) : mapped = selection := by
  cases market with
  | h2h =>
    by_cases draw : selection = "Draw".toList
    · rw [mappedSelection, if_pos draw] at kept
      exact (Option.some.inj kept).symm
    · rw [namedTeam, if_neg draw] at unnamed
      cases unnamed
  | spreads =>
    by_cases blank : ' ' ∈ selection
    · rw [namedTeam, if_pos blank] at unnamed
      cases unnamed
    · rw [mappedSelection, if_neg blank] at kept
      cases kept
  | totals => exact (Option.some.inj kept).symm
  | doubleChance | dnb | teamTotals | btts | correctScore | other => cases kept

namespace CloseQuery
variable (q : CloseQuery) (x : ArchiveEvent)

def homeSide : Option Str := if q.isTennis then q.playerSide x.home else some q.home

def awaySide : Option Str := if q.isTennis then q.playerSide x.away else some q.away

theorem get?_selectionMap (apart : normalizeName x.home ≠ normalizeName x.away) (name : Str) :
    (q.selectionMap x).get? name =
      if name = normalizeName x.home then q.homeSide x
      else if name = normalizeName x.away then q.awaySide x else none := by
  unfold selectionMap homeSide awaySide
  split
  · simp only [List.foldl_cons, List.foldl_nil]
    cases q.playerSide x.home <;> cases q.playerSide x.away <;>
      simp only [Dict.get?_set, Dict.get?_empty] <;> grind
  · simp only [Dict.get?_set, Dict.get?_empty]
    grind

def Recognises (raw : Str) : Prop :=
  canonicalTennisName q.home ≠ [] ∧ canonicalTennisName q.away ≠ [] ∧
    canonicalTennisName q.home ≠ canonicalTennisName q.away ∧
    (canonicalTennisName raw = canonicalTennisName q.home ∨
      canonicalTennisName raw = canonicalTennisName q.away)

theorem playerSide_some {raw side : Str} (known : q.playerSide raw = some side) :
    q.Recognises raw ∧ (side = q.home ∨ side = q.away) ∧
      canonicalTennisName side = canonicalTennisName raw := by
  unfold playerSide at known
  simp only at known
  split at known
  · cases known
  rename_i told
  simp only [not_or] at told
  split at known
  · rename_i same
    cases known
    exact ⟨⟨told.1, told.2.1, told.2.2, .inl same⟩, .inl rfl, same.symm⟩
  split at known
  · rename_i same
    cases known
    exact ⟨⟨told.1, told.2.1, told.2.2, .inr same⟩, .inr rfl, same.symm⟩
  · cases known

theorem playerSide_of_recognises {raw : Str} (known : q.Recognises raw) :
    (q.playerSide raw).isSome := by
  obtain ⟨home, away, apart, same⟩ := known
  unfold playerSide
  simp only [home, away, apart, or_self, if_false]
  rcases same with same | same <;> simp [same, apart.symm]

theorem playerSide_congr {raw other : Str}
    (same : canonicalTennisName raw = canonicalTennisName other) :
    q.playerSide raw = q.playerSide other := by
  unfold playerSide
  rw [same]

structure Clash : Prop where
  apart : normalizeName x.home ≠ normalizeName x.away
  merged :
    if q.isTennis then canonicalTennisName x.home = canonicalTennisName x.away ∧
      q.Recognises x.home
    else q.home = q.away

theorem clash_iff (apart : normalizeName x.home ≠ normalizeName x.away) :
    q.Clash x ↔ ∃ side, q.homeSide x = some side ∧ q.awaySide x = some side := by
  unfold homeSide awaySide
  constructor
  · rintro ⟨-, merged⟩
    split at merged
    · rename_i tennis
      obtain ⟨side, known⟩ := Option.isSome_iff_exists.mp (q.playerSide_of_recognises merged.2)
      refine ⟨side, ?_, ?_⟩
      · rw [if_pos tennis, known]
      · rw [if_pos tennis, ← q.playerSide_congr merged.1, known]
    · rename_i ordered
      exact ⟨q.home, if_neg ordered, by rw [if_neg ordered, merged]⟩
  · rintro ⟨side, home, away⟩
    refine ⟨apart, ?_⟩
    split
    · rename_i tennis
      rw [if_pos tennis] at home away
      have here := q.playerSide_some home
      have there := q.playerSide_some away
      exact ⟨here.2.2.symm.trans there.2.2, here.1⟩
    · rename_i ordered
      rw [if_neg ordered] at home away
      exact (Option.some.inj home).trans (Option.some.inj away).symm

end CloseQuery

/-! What a returned row should be. -/

/-- The name that a team of the archive takes: by position in ordered sports, by canonical name
in tennis. -/
def CloseQuery.SideOf (q : CloseQuery) (x : ArchiveEvent) (team side : Str) : Prop :=
  if q.isTennis then
    (side = q.home ∨ side = q.away) ∧ canonicalTennisName side = canonicalTennisName team
  else (team = x.home ∧ side = q.home) ∨ (team = x.away ∧ side = q.away)

structure Kept (q : CloseQuery) (x : ArchiveEvent) (row : OddsRow) (r : Snapshot) : Prop where
  own : row.eventId = x.id
  beforePick : row.capturedAt < q.kickoff
  beforeEvent : row.capturedAt < x.kickoff
  capturedAt : r.capturedAt = row.capturedAt
  eventId : r.eventId = q.pickExternalRef
  market : marketFromSnapshotKey row.market = some (r.market, r.marketDetail)
  price : r.decimalOdds = row.decimalOdds
  unnamed : namedTeam r.market row.selection = none → r.selection = row.selection
  renamed : ∀ team suffix, namedTeam r.market row.selection = some (team, suffix) →
    ∃ archived side, (archived = x.home ∨ archived = x.away) ∧
      normalizeName team = normalizeName archived ∧ q.SideOf x archived side ∧
        r.selection = side ++ suffix

def Names (c : Snapshot) (team : Str) : Prop :=
  ∃ own suffix, namedTeam c.market c.selection = some (own, suffix) ∧
    normalizeName own = normalizeName team

theorem names_of_any {closes : List Snapshot} {team : Str}
    (listed : closes.any fun c => (namedTeam c.market c.selection).any fun n =>
      normalizeName n.1 = normalizeName team) : ∃ c ∈ closes, Names c team := by
  obtain ⟨c, closed, named⟩ := List.any_eq_true.mp listed
  cases known : namedTeam c.market c.selection with
  | none =>
    rw [known] at named
    cases named
  | some n =>
    rw [known, Option.any_some] at named
    exact ⟨c, closed, n.1, n.2, known, of_decide_eq_true named⟩

/-- The close names the team, and the returned row has `side` in its place. -/
def RenamedTo (q : CloseQuery) (x : ArchiveEvent) (team : Str) (c r : Snapshot) (side : Str) :
    Prop :=
  rekeyClose q x c = some r ∧ ∃ own suffix,
    namedTeam c.market c.selection = some (own, suffix) ∧
    normalizeName own = normalizeName team ∧ r.selection = side ++ suffix

/-- The rows returned of an event of the archive keep what they were, and its two teams never
become one team of the pick. -/
structure RekeyedRight (s : ArchiveStore) (q : CloseQuery) (x : ArchiveEvent)
    (rows : List Snapshot) : Prop where
  kept : ∀ r ∈ rows, ∃ row ∈ s.odds.rows, Kept q x row r
  apart : ∀ c ∈ s.archiveCloses q x, ∀ r ∈ rows, ∀ c' ∈ s.archiveCloses q x,
    ∀ r' ∈ rows, ∀ side, RenamedTo q x x.home c r side → ¬ RenamedTo q x x.away c' r' side

structure Priced (s : ArchiveStore) (q : CloseQuery) (x : ArchiveEvent) : Prop where
  home : ∃ c ∈ s.archiveCloses q x, Names c x.home
  away : ∃ c ∈ s.archiveCloses q x, Names c x.away

variable {s : ArchiveStore} {q : CloseQuery} {x : ArchiveEvent}

theorem rekeyClose_some {c r : Snapshot} (made : rekeyClose q x c = some r) :
    ∃ mapped, mappedSelection (q.selectionMap x) c.market c.selection = some mapped ∧
      r = rekeyed c q.pickExternalRef mapped := by
  obtain ⟨mapped, kept, rfl⟩ := Option.map_eq_some_iff.mp made
  exact ⟨mapped, kept, rfl⟩

theorem rekeyClose_named (apart : normalizeName x.home ≠ normalizeName x.away) {c r : Snapshot}
    {team suffix : Str} (named : namedTeam c.market c.selection = some (team, suffix))
    (made : rekeyClose q x c = some r) :
    ∃ side, r.selection = side ++ suffix ∧
      ((normalizeName team = normalizeName x.home ∧ q.homeSide x = some side) ∨
        (normalizeName team = normalizeName x.away ∧ q.awaySide x = some side)) := by
  obtain ⟨mapped, kept, rfl⟩ := rekeyClose_some made
  rw [mappedSelection_named named, q.get?_selectionMap x apart] at kept
  obtain ⟨side, known, rfl⟩ := Option.map_eq_some_iff.mp kept
  refine ⟨side, rfl, ?_⟩
  split at known
  · rename_i home
    exact .inl ⟨home, known⟩
  split at known
  · rename_i away
    exact .inr ⟨away, known⟩
  · cases known

theorem sideOf_home {side : Str} (known : q.homeSide x = some side) : q.SideOf x x.home side := by
  unfold CloseQuery.homeSide at known
  unfold CloseQuery.SideOf
  split at known
  · rename_i tennis
    rw [if_pos tennis]
    exact (q.playerSide_some known).2
  · rename_i ordered
    rw [if_neg ordered]
    exact .inl ⟨rfl, (Option.some.inj known).symm⟩

theorem sideOf_away {side : Str} (known : q.awaySide x = some side) : q.SideOf x x.away side := by
  unfold CloseQuery.awaySide at known
  unfold CloseQuery.SideOf
  split at known
  · rename_i tennis
    rw [if_pos tennis]
    exact (q.playerSide_some known).2
  · rename_i ordered
    rw [if_neg ordered]
    exact .inr ⟨rfl, (Option.some.inj known).symm⟩

theorem mem_rekeyedClose {r : Snapshot} :
    r ∈ s.rekeyedClose q x ↔ normalizeName x.home ≠ normalizeName x.away ∧
      ∃ c ∈ s.archiveCloses q x, rekeyClose q x c = some r := by
  unfold ArchiveStore.rekeyedClose
  split
  · rename_i same
    simp [same]
  · rename_i apart
    simp [apart, List.mem_filterMap]

theorem kept_of_rekeyed {r : Snapshot} (returned : r ∈ s.rekeyedClose q x) :
    ∃ row ∈ s.odds.rows, Kept q x row r := by
  obtain ⟨apart, c, closed, made⟩ := mem_rekeyedClose.mp returned
  obtain ⟨row, last, from_⟩ := mem_closingOdds closed
  obtain ⟨stored, own, early, -⟩ := mem_closeRows.mp last
  obtain ⟨mapped, kept, rfl⟩ := rekeyClose_some made
  have before : row.capturedAt < q.kickoff ∧ row.capturedAt < x.kickoff := by
    split at early <;> omega
  refine ⟨row, stored, own, before.1, before.2, from_.capturedAt, rfl, from_.market,
    from_.decimalOdds, ?_, ?_⟩
  · intro unnamed
    rw [← from_.selection] at unnamed ⊢
    exact mappedSelection_unnamed unnamed kept
  · intro team suffix named
    rw [← from_.selection] at named
    obtain ⟨side, renamed, ⟨home, known⟩ | ⟨away, known⟩⟩ :=
      rekeyClose_named apart named made
    · exact ⟨x.home, side, .inl rfl, home, sideOf_home known, renamed⟩
    · exact ⟨x.away, side, .inr rfl, away, sideOf_away known, renamed⟩

theorem homeSide_of_renamedTo (apart : normalizeName x.home ≠ normalizeName x.away)
    {c r : Snapshot} {side : Str} (renamed : RenamedTo q x x.home c r side) :
      q.homeSide x = some side := by
  obtain ⟨made, team, suffix, named, home, selection⟩ := renamed
  obtain ⟨known, same, ⟨-, home'⟩ | ⟨away, -⟩⟩ := rekeyClose_named apart named made
  · rw [home', List.append_cancel_right (selection.symm.trans same)]
  · exact absurd (home.symm.trans away) apart

theorem awaySide_of_renamedTo (apart : normalizeName x.home ≠ normalizeName x.away)
    {c r : Snapshot} {side : Str} (renamed : RenamedTo q x x.away c r side) :
      q.awaySide x = some side := by
  obtain ⟨made, team, suffix, named, away, selection⟩ := renamed
  obtain ⟨known, same, ⟨home, -⟩ | ⟨-, away'⟩⟩ := rekeyClose_named apart named made
  · exact absurd (home.symm.trans away) apart
  · rw [away', List.append_cancel_right (selection.symm.trans same)]

theorem renamedTo_of_names (apart : normalizeName x.home ≠ normalizeName x.away) {c : Snapshot}
    (closed : c ∈ s.archiveCloses q x) {team side : Str} (names : Names c team)
    (known : (q.selectionMap x).get? (normalizeName team) = some side) :
    ∃ r ∈ s.rekeyedClose q x, RenamedTo q x team c r side := by
  obtain ⟨own, suffix, named, same⟩ := names
  have made : rekeyClose q x c = some (rekeyed c q.pickExternalRef (side ++ suffix)) := by
    unfold rekeyClose
    rw [mappedSelection_named named, same, known]
    rfl
  exact ⟨_, mem_rekeyedClose.mpr ⟨apart, c, closed, made⟩, made, own, suffix, named,
    same, rfl⟩

theorem rekeyedRight_iff (s : ArchiveStore) (q : CloseQuery) (x : ArchiveEvent) :
    RekeyedRight s q x (s.rekeyedClose q x) ↔ ¬ (q.Clash x ∧ Priced s q x) := by
  constructor
  · rintro right ⟨clash, priced⟩
    obtain ⟨side, home, away⟩ := (q.clash_iff x clash.apart).mp clash
    obtain ⟨c, closed, names⟩ := priced.home
    obtain ⟨c', closed', names'⟩ := priced.away
    have known : (q.selectionMap x).get? (normalizeName x.home) = some side := by
      rw [q.get?_selectionMap x clash.apart, if_pos rfl, home]
    have known' : (q.selectionMap x).get? (normalizeName x.away) = some side := by
      rw [q.get?_selectionMap x clash.apart, if_neg clash.apart.symm, if_pos rfl, away]
    obtain ⟨r, returned, renamed⟩ := renamedTo_of_names clash.apart closed names known
    obtain ⟨r', returned', renamed'⟩ := renamedTo_of_names clash.apart closed' names' known'
    exact right.apart c closed r returned c' closed' r' returned' side renamed renamed'
  · intro clear
    refine ⟨fun r returned => kept_of_rekeyed returned, ?_⟩
    intro c closed r returned c' closed' r' returned' side home away
    have apart := (mem_rekeyedClose.mp returned).1
    apply clear
    refine ⟨(q.clash_iff x apart).mpr ⟨side, homeSide_of_renamedTo apart home,
      awaySide_of_renamedTo apart away⟩, ⟨c, closed, ?_⟩, ⟨c', closed', ?_⟩⟩
    · obtain ⟨-, own, suffix, named, same, -⟩ := home
      exact ⟨own, suffix, named, same⟩
    · obtain ⟨-, own, suffix, named, same, -⟩ := away
      exact ⟨own, suffix, named, same⟩

/-! The closes of a call. -/

/-- What `resolve_pinnacle_close_snaps` should return: nothing without an event of the archive,
and its re-keyed closes with one. -/
structure ClosesRight (d : Directory) (s : ArchiveStore) (q : CloseQuery)
    (result : Attachment × List Snapshot) : Prop where
  detached : result.1.event = none → result.2 = []
  archived : ∀ x, result.1.event = some x → x ∈ s.archived d q
  rekeyed : ∀ x, result.1.event = some x → RekeyedRight s q x result.2

variable {d : Directory} {aliases : AliasTable}

theorem resolve_ok {result : Attachment × List Snapshot}
    (resolved : s.resolvePinnacleCloseSnaps d aliases q = .ok result) :
    s.attach d aliases q = .ok result.1 ∧
      result.2 = (match result.1.event with
        | none => []
        | some x => s.rekeyedClose q x) := by
  unfold ArchiveStore.resolvePinnacleCloseSnaps at resolved
  cases attached : s.attach d aliases q with
  | error e =>
    rw [attached] at resolved
    cases resolved
  | ok found =>
    rw [attached] at resolved
    simp only [bind, Except.bind, pure, Except.pure] at resolved
    cases event : found.event with
    | none =>
      rw [event] at resolved
      cases resolved
      exact ⟨rfl, by rw [event]⟩
    | some x =>
      rw [event] at resolved
      cases resolved
      exact ⟨rfl, by rw [event]⟩

/-- The closes of a call are right unless its event has two teams, both priced, that the names
of the pick do not tell apart. -/
theorem closesRight_iff {result : Attachment × List Snapshot}
    (resolved : s.resolvePinnacleCloseSnaps d aliases q = .ok result) :
    ClosesRight d s q result ↔ ∀ x, result.1.event = some x →
      ¬ (q.Clash x ∧ Priced s q x) := by
  obtain ⟨attached, rows⟩ := resolve_ok resolved
  constructor
  · intro right x event
    rw [event] at rows
    have rekeyed := right.rekeyed x event
    rw [rows] at rekeyed
    exact (rekeyedRight_iff s q x).mp rekeyed
  · intro clear
    refine ⟨?_, ?_, ?_⟩
    · intro event
      rw [rows, event]
    · intro x event
      exact (attach_attached attached event).archived
    · intro x event
      rw [rows, event]
      exact (rekeyedRight_iff s q x).mpr (clear x event)

end

/-! A linked fixture of two players. -/

def courtDirectory (home away : Str) : Directory where
  sportKey n := if n = 1 then "tennis".toList else "pinnacle_tennis".toList
  leagueName _ := "WTA Birmingham".toList
  teamName n := if n = 3 then home else if n = 4 then away else []

def courtRows (home away : Str) : List OddsRow :=
  [⟨2, "Pinnacle".toList, "h2h".toList, home, 19 / 10, none, hours 1, hours 1⟩,
    ⟨2, "Pinnacle".toList, "h2h".toList, away, 21 / 10, none, hours 1, hours 1⟩]

def courtEvents : List Event :=
  [⟨1, 1, 1, 1, 2, "oddsportal:1".toList, some (hours 2)⟩,
    ⟨2, 2, 1, 3, 4, "arcadia:2".toList, some (hours 2)⟩]

theorem courtRows_unique {home away : Str} (apart : home ≠ away) :
    ((courtRows home away).map OddsRow.observation).Nodup := by
  simp [courtRows, OddsRow.observation, OddsRow.series, apart]

theorem courtEvents_ids : (courtEvents.map Event.id).Nodup := by decide +kernel

theorem courtEvents_refs : (courtEvents.map Event.externalRef).Nodup := by decide +kernel

def courtArchive (home away : Str) (apart : home ≠ away) : ArchiveStore where
  events := courtEvents
  links := [⟨⟨1, 1, pinnacleArcadia, "arcadia:2".toList, "exact_canonical".toList, 0, true⟩,
    1⟩]
  odds := ⟨courtRows home away, courtRows_unique apart⟩
  ids := courtEvents_ids
  refs := courtEvents_refs

def courtQuery (home away : Str) : CloseQuery where
  pinnacleSportKey := "pinnacle_tennis".toList
  pickExternalRef := "oddsportal:1".toList
  home := home
  away := away
  kickoff := hours 2

def courtEvent (home away : Str) : ArchiveEvent :=
  ⟨2, "arcadia:2".toList, home, away, hours 2, "WTA Birmingham".toList⟩

def karolina : Str := "Karolina Pliskova".toList
def kristyna : Str := "Kristyna Pliskova".toList
def serena : Str := "Serena Williams".toList

theorem karolina_ne_serena : karolina ≠ serena := by decide +kernel

theorem karolina_ne_kristyna : karolina ≠ kristyna := by decide +kernel

def courtCall (home away : Str) (apart : home ≠ away) (q : CloseQuery) :
    Option (Option ArchiveEvent × List Str) :=
  (@ArchiveStore.resolvePinnacleCloseSnaps UnicodeLetters.ascii (courtDirectory home away)
    AliasTable.empty (courtArchive home away apart) q).toOption.map fun result =>
      (result.1.event, result.2.map Snapshot.selection)

theorem courtCall_some {home away : Str} {apart : home ≠ away} {q : CloseQuery}
    {event : Option ArchiveEvent} {selections : List Str}
    (called : courtCall home away apart q = some (event, selections)) :
    ∃ result, @ArchiveStore.resolvePinnacleCloseSnaps UnicodeLetters.ascii
      (courtDirectory home away)
        AliasTable.empty (courtArchive home away apart) q = .ok result ∧
      result.1.event = event ∧ result.2.map Snapshot.selection = selections := by
  unfold courtCall at called
  obtain ⟨result, returned, same⟩ := Option.map_eq_some_iff.mp called
  obtain ⟨found, rows⟩ := Prod.ext_iff.mp same
  generalize @ArchiveStore.resolvePinnacleCloseSnaps UnicodeLetters.ascii (courtDirectory home away)
    AliasTable.empty (courtArchive home away apart) q = answer at returned
  cases answer with
  | error e => cases returned
  | ok value =>
    cases returned
    exact ⟨_, rfl, found, rows⟩

/-- The players come in the other order, and each row takes the name of its own. -/
theorem serena_closesRight :
    ∃ result, @ArchiveStore.resolvePinnacleCloseSnaps UnicodeLetters.ascii
        (courtDirectory karolina serena) AliasTable.empty
        (courtArchive karolina serena karolina_ne_serena)
        (courtQuery "Williams S.".toList "Pliskova K.".toList) = .ok result ∧
      result.2.map Snapshot.selection = ["Pliskova K.".toList, "Williams S.".toList] ∧
      @ClosesRight UnicodeLetters.ascii (courtDirectory karolina serena)
        (courtArchive karolina serena karolina_ne_serena)
        (courtQuery "Williams S.".toList "Pliskova K.".toList) result := by
  have called : courtCall karolina serena karolina_ne_serena
      (courtQuery "Williams S.".toList "Pliskova K.".toList) =
      some (some (courtEvent karolina serena), ["Pliskova K.".toList, "Williams S.".toList]) := by
    decide +kernel
  obtain ⟨result, resolved, event, selections⟩ := courtCall_some called
  refine ⟨result, resolved, selections,
    (@closesRight_iff UnicodeLetters.ascii _ _ _ _ _ resolved).mpr ?_⟩
  rintro x attached ⟨clash, -⟩
  obtain rfl := Option.some.inj (event.symm.trans attached)
  have merged := @CloseQuery.Clash.merged UnicodeLetters.ascii _ _ clash
  rw [if_pos (by decide +kernel)] at merged
  exact absurd merged.1 (by decide +kernel)

/-- Sisters with one initial: both closes are renamed to the same player. -/
theorem closesRight_fails :
    ∃ result, @ArchiveStore.resolvePinnacleCloseSnaps UnicodeLetters.ascii
        (courtDirectory karolina kristyna) AliasTable.empty
        (courtArchive karolina kristyna karolina_ne_kristyna)
        (courtQuery "Pliskova K.".toList "Pliskova Kr.".toList) = .ok result ∧
      result.2.map Snapshot.selection = ["Pliskova K.".toList, "Pliskova K.".toList] ∧
      ¬ @ClosesRight UnicodeLetters.ascii (courtDirectory karolina kristyna)
        (courtArchive karolina kristyna karolina_ne_kristyna)
        (courtQuery "Pliskova K.".toList "Pliskova Kr.".toList) result := by
  have called : courtCall karolina kristyna karolina_ne_kristyna
      (courtQuery "Pliskova K.".toList "Pliskova Kr.".toList) =
      some (some (courtEvent karolina kristyna), ["Pliskova K.".toList, "Pliskova K.".toList]) := by
    decide +kernel
  obtain ⟨result, resolved, event, selections⟩ := courtCall_some called
  refine ⟨result, resolved, selections, fun right => ?_⟩
  have rekeyed := @ClosesRight.rekeyed UnicodeLetters.ascii _ _ _ _ right _ event
  rw [(@resolve_ok UnicodeLetters.ascii _ _ _ _ _ resolved).2, event] at rekeyed
  have clear := (@rekeyedRight_iff UnicodeLetters.ascii _ _ _).mp rekeyed
  apply clear
  constructor
  · have tennis : (courtQuery "Pliskova K.".toList "Pliskova Kr.".toList).isTennis := by
      decide +kernel
    refine @CloseQuery.Clash.mk UnicodeLetters.ascii _ _ (by decide +kernel) ?_
    rw [if_pos tennis]
    exact ⟨by decide +kernel, by decide +kernel, by decide +kernel, by decide +kernel,
      .inl (by decide +kernel)⟩
  · exact @Priced.mk UnicodeLetters.ascii _ _ _
      (@names_of_any UnicodeLetters.ascii _ _ (by decide +kernel))
      (@names_of_any UnicodeLetters.ascii _ _ (by decide +kernel))

end SharpEvPicks.Storage
