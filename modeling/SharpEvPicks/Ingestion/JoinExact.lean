import SharpEvPicks.Ingestion.BetfairJoin
import SharpEvPicks.Python.Grouping
import SharpEvPicks.Resolution.OrderBlind
import Mathlib.Data.List.ReduceOption

/-! When the historical close join gives every row the close of its own market. -/
namespace SharpEvPicks.Ingestion.BetfairJoin

open Python Resolution

/-! The candidates without an index. -/

section Index

/-- The candidates of the markets, each with its market, in the order of the markets. -/
def sourcesFrom (index : Index) :
    List BetfairMarketClose → List (EventCandidate × BetfairMarketClose)
  | [] => []
  | m :: rest =>
    ((candidateOf index.byRef.entries.length m).map fun cand => (cand, m)).toList ++
      sourcesFrom (index.add m) rest

def sources (markets : List BetfairMarketClose) : List (EventCandidate × BetfairMarketClose) :=
  sourcesFrom Index.empty markets

/-- The last market of a reference. -/
def lastOf (ref : Str) (l : List (EventCandidate × BetfairMarketClose)) :
    Option BetfairMarketClose :=
  ((l.filter fun s => s.1.ref = ref).getLast?).map Prod.snd

theorem lastOf_append (ref : Str) (l l' : List (EventCandidate × BetfairMarketClose)) :
    lastOf ref (l ++ l') = (lastOf ref l').or (lastOf ref l) := by
  rw [lastOf, List.filter_append, List.getLast?_append, lastOf, lastOf]
  cases (l'.filter fun s => s.1.ref = ref).getLast? <;> rfl

theorem byRef_foldl (markets : List BetfairMarketClose) (index : Index) (ref : Str) :
    (markets.foldl Index.add index).byRef.get? ref = (lastOf ref (sourcesFrom index markets)).or
    (index.byRef.get? ref) := by
  induction markets generalizing index with
  | nil => rfl
  | cons m markets ih =>
    rw [List.foldl_cons, ih, sourcesFrom, lastOf_append, Option.or_assoc]
    congr 1
    unfold Index.add
    cases candidateOf index.byRef.entries.length m with
    | none => rfl
    | some cand =>
      dsimp only
      rw [Dict.get?_set]
      by_cases here : ref = cand.ref
      · rw [if_pos here]
        simp [lastOf, here]
      · rw [if_neg here]
        simp [lastOf, Ne.symm here]

theorem byDate_foldl (markets : List BetfairMarketClose) (index : Index) (day : Int) :
    ((markets.foldl Index.add index).byDate.get? day).getD [] =
      (index.byDate.get? day).getD [] ++
        ((sourcesFrom index markets).map Prod.fst).filter fun cand =>
          dateOf cand.kickoff = day := by
  induction markets generalizing index with
  | nil => exact (List.append_nil _).symm
  | cons m markets ih =>
    rw [List.foldl_cons, ih, sourcesFrom, List.map_append,
      List.filter_append, ← List.append_assoc]
    congr 1
    unfold Index.add
    cases candidateOf index.byRef.entries.length m with
    | none => exact (List.append_nil _).symm
    | some cand =>
      dsimp only
      rw [Dict.get?_modify]
      by_cases here : day = dateOf cand.kickoff
      · rw [if_pos here]
        simp [here]
      · rw [if_neg here]
        simp [Ne.symm here]

theorem byRef_indexOf (markets : List BetfairMarketClose) (ref : Str) :
    (indexOf markets).byRef.get? ref = lastOf ref (sources markets) := by
  rw [indexOf, byRef_foldl, sources]
  exact Option.or_none

theorem byDate_indexOf (markets : List BetfairMarketClose) (day : Int) :
    ((indexOf markets).byDate.get? day).getD [] =
      ((sources markets).map Prod.fst).filter fun cand => dateOf cand.kickoff = day := by
  rw [indexOf, byDate_foldl, sources]
  rfl

theorem mem_offsets {maxDayDrift off : Int} : off ∈ offsets maxDayDrift ↔
    |off| ≤ maxDayDrift := by
  unfold offsets
  rw [List.mem_map, abs_le]
  constructor
  · rintro ⟨i, inside, rfl⟩
    have small := List.mem_range.mp inside
    omega
  · intro small
    have inside : (off + maxDayDrift).toNat < (2 * maxDayDrift + 1).toNat := by omega
    have value : ((off + maxDayDrift).toNat : Int) - maxDayDrift = off := by omega
    exact ⟨(off + maxDayDrift).toNat, List.mem_range.mpr inside, value⟩

theorem lastOf_isSome {markets : List BetfairMarketClose} {s : EventCandidate × BetfairMarketClose}
    (listed : s ∈ sources markets) : ∃ m, lastOf s.1.ref (sources markets) = some m := by
  have inside : s ∈ (sources markets).filter fun s' => s'.1.ref = s.1.ref :=
    List.mem_filter.mpr ⟨listed, decide_eq_true rfl⟩
  have last := List.getLast?_eq_some_getLast (List.ne_nil_of_mem inside)
  exact ⟨_, by rw [lastOf, last, Option.map_some]⟩

/-- The days around a date are dates. -/
def DaysExist (maxDayDrift kickoff : Int) : Prop :=
  ∀ off ∈ offsets maxDayDrift, minDay ≤ dateOf kickoff + off ∧
    dateOf kickoff + off ≤ maxDay

theorem localCandidates_eq {index : Index} {maxDayDrift kickoff : Int}
    (exist : DaysExist maxDayDrift kickoff) :
    localCandidates index maxDayDrift kickoff =
      some ((offsets maxDayDrift).flatMap fun off =>
        (index.byDate.get? (dateOf kickoff + off)).getD []) := by
  unfold localCandidates
  have each : (offsets maxDayDrift).mapM (fun off =>
      if minDay ≤ dateOf kickoff + off ∧ dateOf kickoff + off ≤ maxDay then
        some ((index.byDate.get? (dateOf kickoff + off)).getD [])
      else none) = some ((offsets maxDayDrift).map fun off =>
        (index.byDate.get? (dateOf kickoff + off)).getD []) := by
    rw [mapM_some_iff []]
    refine ⟨fun off inside => by
      rw [if_pos (exist off inside)]; rfl, List.map_congr_left fun off inside => ?_⟩
    rw [if_pos (exist off inside), Option.getD_some]
  rw [each]
  rfl

theorem localCandidates_none {index : Index} {maxDayDrift kickoff : Int}
    (missing : ¬ DaysExist maxDayDrift kickoff) :
    localCandidates index maxDayDrift kickoff = none := by
  unfold localCandidates
  rw [Option.map_eq_none_iff]
  by_contra found
  obtain ⟨lists, found⟩ := Option.ne_none_iff_exists'.mp found
  apply missing
  intro off inside
  have there := ((mapM_some_iff []).mp found).1 off inside
  by_contra outside
  rw [if_neg outside] at there
  cases there

end Index

/-! The market of a row. -/

section Rows
variable [Unicode] [Printers] [DateFormats]

/-- What `match_event` finds over all candidates, with its market. -/
def source (aliases : AliasTable) (markets : List BetfairMarketClose) (maxDayDrift : Int)
    (a : Asked) : Option (EventCandidate × BetfairMarketClose) :=
  (matchEvent (a.query aliases maxDayDrift) ((sources markets).map Prod.fst)).bind fun found =>
    (sources markets).find? fun s => s.1 = found

omit [Printers] [DateFormats] in
theorem matchEvent_mem {q : StrictQuery} {candidates : List EventCandidate} {found : EventCandidate}
    (matched : matchEvent q candidates = some found) : found ∈ candidates := by
  unfold matchEvent at matched
  split at matched
  · cases matched
  · dsimp only at matched
    split at matched
    · cases matched
    · exact (List.mem_filter.mp (mem_sortedBy.mp (List.mem_of_head? matched))).1

omit [Printers] [DateFormats] in
theorem source_ref (aliases : AliasTable) (markets : List BetfairMarketClose) (maxDayDrift : Int)
    (a : Asked) :
    (source aliases markets maxDayDrift a).map (fun s => s.1.ref) =
      (matchEvent (a.query aliases maxDayDrift) ((sources markets).map Prod.fst)).map
        EventCandidate.ref := by
  unfold source
  cases matched : matchEvent (a.query aliases maxDayDrift) ((sources markets).map Prod.fst) with
  | none => rfl
  | some found =>
    obtain ⟨s, listed, same⟩ := List.mem_map.mp (matchEvent_mem matched)
    rw [Option.bind_some, Option.map_some]
    cases first : (sources markets).find? fun s => s.1 = found with
    | none =>
      have none_there := List.find?_eq_none.mp first s listed
      exact absurd (decide_eq_true same) none_there
    | some s' =>
      have there : s'.1 = found := by simpa using List.find?_some first
      rw [Option.map_some, there]

omit [Printers] [DateFormats] in
/-- A row's own days are enough. -/
theorem matchEvent_local {aliases : AliasTable} {markets : List BetfairMarketClose}
    {maxDayDrift : Int} {a : Asked} :
    (matchEvent (a.query aliases maxDayDrift) ((offsets maxDayDrift).flatMap fun off =>
      ((indexOf markets).byDate.get? (dateOf a.kickoff + off)).getD [])).map EventCandidate.ref =
      (source aliases markets maxDayDrift a).map fun s => s.1.ref := by
  rw [source_ref]
  have refs : (a.query aliases maxDayDrift).matchedRefs ((offsets maxDayDrift).flatMap fun off =>
      ((indexOf markets).byDate.get? (dateOf a.kickoff + off)).getD []) =
        (a.query aliases maxDayDrift).matchedRefs ((sources markets).map Prod.fst) := by
    ext ref
    simp only [StrictQuery.matchedRefs, List.mem_toFinset, List.mem_map, List.mem_filter,
      List.mem_flatMap, byDate_indexOf]
    constructor
    · rintro ⟨cand, ⟨⟨off, -, listed, -⟩, qualifies⟩, rfl⟩
      exact ⟨cand, ⟨listed, qualifies⟩, rfl⟩
    · rintro ⟨cand, ⟨listed, qualifies⟩, rfl⟩
      have window : sameDayWindow a.kickoff cand.kickoff maxDayDrift = true := by
        simp only [StrictQuery.qualifies, Bool.and_eq_true] at qualifies
        exact qualifies.1.1.1.1
      have near : |dateOf a.kickoff - dateOf cand.kickoff| ≤ maxDayDrift :=
        of_decide_eq_true window
      refine ⟨cand, ⟨⟨dateOf cand.kickoff - dateOf a.kickoff, ?_, listed, ?_⟩, qualifies⟩,
        rfl⟩
      · rw [mem_offsets, abs_sub_comm]
        exact near
      · rw [decide_eq_true_iff]
        omega
  apply Option.ext
  intro ref
  rw [StrictQuery.matchEvent_ref_iff, StrictQuery.matchEvent_ref_iff, refs]

variable (aliases : AliasTable) (markets : List BetfairMarketClose) (maxDayDrift : Int)

/-- The verdict on a row by the market that `match_event` finds over all candidates. -/
def ownVerdict (row : FdRow) : Verdict :=
  ((asked row).bind fun a => (source aliases markets maxDayDrift a).map fun s =>
    verdict aliases row a s.2).getD .unmatched

/-- What a pass makes of the verdict. -/
def passOf (row : FdRow) (ref : Str) (market : BetfairMarketClose) :
    Verdict → Verdict × Option FdRow
  | .joined home draw away =>
    (.joined home draw away, some (withClose row ref market.kickoffUtc home draw away))
  | v => (v, none)

/-- The market stored for the reference of a row's candidate, with the reference. -/
def stored (a : Asked) : Option (Str × BetfairMarketClose) :=
  (source aliases markets maxDayDrift a).bind fun s =>
    (lastOf s.1.ref (sources markets)).map fun m => (s.1.ref, m)

def rowPass (row : FdRow) : Verdict × Option FdRow :=
  ((asked row).bind fun a => (stored aliases markets maxDayDrift a).map fun s =>
    passOf row s.1 s.2 (verdict aliases row a s.2)).getD (.unmatched, none)

/-- The days around the date of a row are dates. -/
def RowDays (row : FdRow) : Prop := ∀ a, asked row = some a → DaysExist maxDayDrift a.kickoff

theorem attachRow_eq {row : FdRow} (exist : RowDays maxDayDrift row) :
    attachRow aliases (indexOf markets) maxDayDrift row = some
      (rowPass aliases markets maxDayDrift row) := by
  unfold attachRow rowPass
  cases fields : asked row with
  | none => rfl
  | some a =>
    dsimp only [Option.bind_some]
    rw [localCandidates_eq (exist a fields), Option.map_some]
    have refs := @matchEvent_local _ aliases markets maxDayDrift a
    unfold stored
    cases matched : matchEvent (a.query aliases maxDayDrift)
        ((offsets maxDayDrift).flatMap fun off =>
        ((indexOf markets).byDate.get? (dateOf a.kickoff + off)).getD []) with
    | none =>
      rw [matched, Option.map_none, eq_comm, Option.map_eq_none_iff] at refs
      rw [refs]
      rfl
    | some found =>
      rw [matched, Option.map_some, eq_comm, Option.map_eq_some_iff] at refs
      obtain ⟨s, full, same⟩ := refs
      rw [full, Option.bind_some, same]
      dsimp only
      rw [byRef_indexOf]
      cases lastOf found.ref (sources markets) with
      | none => rfl
      | some market =>
        dsimp only [Option.map_some, Option.getD_some]
        unfold passOf
        cases verdict aliases row a market <;> rfl

theorem attachRow_none {row : FdRow} (missing : ¬ RowDays maxDayDrift row) :
    attachRow aliases (indexOf markets) maxDayDrift row = none := by
  unfold RowDays at missing
  push Not at missing
  obtain ⟨a, fields, missing⟩ := missing
  unfold attachRow
  rw [fields]
  dsimp only
  rw [localCandidates_none missing]
  rfl

end Rows

/-! The columns of a joined row. -/

section Columns

/-- The closing slots and the side that each is for. -/
def Verdict.slots (v : Verdict) : List (String × Option Str) :=
  match v with
  | .joined home draw away =>
    [("PSCH", some home), ("PSCD", draw), ("PSCA", some away),
      ("MaxCH", some home), ("MaxCD", draw), ("MaxCA", some away)]
  | _ => []

def slotColumns : List String := ["PSCH", "PSCD", "PSCA", "MaxCH", "MaxCD", "MaxCA"]

def provenanceColumns : List String := ["BetfairMarketId", "_betfair_kickoff_utc"]

theorem get?_foldl_slots (slots : List (String × Str)) (row : FdRow) (column : Str) :
    (slots.foldl (fun row slot => row.set slot.1.toList (some slot.2)) row).get? column =
      ((slots.reverse.find? fun slot => slot.1.toList = column).map fun slot => some slot.2).or
      (row.get? column) := by
  have written := get?_foldl_set (slots.map fun slot => (slot.1.toList, some slot.2)) row column
  rw [List.foldl_map, ← List.map_reverse, List.find?_map, Option.map_map] at written
  exact written

variable (row : FdRow) (ref : Str) (kickoff : Option Int) (home : Str) (draw : Option Str)
  (away : Str)

theorem closingSlots_columns :
    ∀ slot ∈ closingSlots home draw away, slot.1 ∈ slotColumns := by
  unfold closingSlots slotColumns
  cases draw <;> simp

theorem provenance_columns : ∀ slot ∈ provenance ref kickoff, slot.1 ∈ provenanceColumns := by
  unfold provenance provenanceColumns
  cases kickoff <;> simp

theorem get?_withClose_other {column : Str} (other : column ∉ slotColumns.map String.toList)
    (foreign : ∀ slot ∈ provenance ref kickoff, slot.1.toList ≠ column) :
    (withClose row ref kickoff home draw away).get? column = row.get? column := by
  rw [withClose, get?_foldl_slots]
  have untouched : ((closingSlots home draw away ++ provenance ref kickoff).reverse.find?
      fun slot =>
      slot.1.toList = column) = none := by
    rw [List.find?_eq_none]
    intro slot listed here
    rw [decide_eq_true_iff] at here
    rw [List.mem_reverse, List.mem_append] at listed
    rcases listed with listed | listed
    · exact other (List.mem_map.mpr ⟨slot.1,
        closingSlots_columns home draw away slot listed, here⟩)
    · exact foreign slot listed here
  rw [untouched]
  rfl

theorem cell_withClose (column : String) :
    cell (withClose row ref kickoff home draw away) column =
      (((closingSlots home draw away ++ provenance ref kickoff).reverse.find? fun slot =>
        slot.1 = column).map Prod.snd).getD (cell row column) := by
  rw [cell, withClose, get?_foldl_slots]
  simp only [String.toList_inj]
  cases (closingSlots home draw away ++ provenance ref kickoff).reverse.find? fun slot =>
    slot.1 = column with
  | none => rfl
  | some slot => rfl

/-- The slots of a joined row, the sides' written over and the draw's only when there is a price for
it. -/
theorem slots_withClose :
    slotColumns.map (cell (withClose row ref kickoff home draw away)) =
      [home, draw.getD (cell row "PSCD"), away, home, draw.getD (cell row "MaxCD"), away] := by
  simp only [slotColumns, List.map_cons, List.map_nil, cell_withClose]
  cases draw <;> cases kickoff <;> simp [closingSlots, provenance]

theorem provenance_withClose {slot : String × Str} (listed : slot ∈ provenance ref kickoff) :
    (withClose row ref kickoff home draw away).get? slot.1.toList = some (some slot.2) := by
  rw [withClose, get?_foldl_slots]
  simp only [String.toList_inj]
  cases kickoff with
  | none =>
    cases List.mem_singleton.mp listed
    cases draw <;> simp [closingSlots, provenance]
  | some t =>
    rcases List.mem_pair.mp listed with rfl | rfl <;> cases draw <;> simp [closingSlots, provenance]

end Columns

/-! The close of a row and the close of its own market. -/

section Closes
variable {row : FdRow} {ref : Str} {kickoff : Option Int} {home home' : Str}
  {draw draw' : Option Str} {away away' : Str}

/-- A cell is empty or shows the close. -/
def Shows (text : Str) (close : Option Str) : Prop := text = [] ∨ close = some text

def Verdict.isJoined : Verdict → Bool
  | .joined _ _ _ => true
  | _ => false

/-- A market's closes, and its reference, on a row are those of the row's `own` market. -/
def SameClose (row : FdRow) (ref : Str) (kickoff : Option Int) : Verdict → Verdict → Prop
  | .joined home draw away, .joined home' draw' away' =>
    Shows home' (some home) ∧ Shows (draw'.getD (cell row "PSCD")) draw ∧
      Shows away' (some away) ∧ Shows (draw'.getD (cell row "MaxCD")) draw ∧
      ∀ slot ∈ provenance ref kickoff, row.get? slot.1.toList = none ∨
        row.get? slot.1.toList = some (some slot.2)
  | own, stored => own.isJoined = stored.isJoined

/-- What becomes of a row is what the verdict of its `own` market says. -/
structure Follows (row : FdRow) (own : Verdict) (out : Option FdRow) : Prop where
  returned : out.isSome = own.isJoined
  slots : ∀ new ∈ out, ∀ slot ∈ own.slots, Shows (cell new slot.1) slot.2
  unchanged : ∀ new ∈ out, ∀ column ∉ slotColumns.map String.toList,
    new.get? column = row.get? column ∨ row.get? column = none ∧
    column ∈ provenanceColumns.map String.toList

theorem follows_none (row : FdRow) {own : Verdict} (aside : own.isJoined = false) :
    Follows row own none where
  returned := aside.symm
  slots := nofun
  unchanged := nofun

theorem provenance_not_slot {slot : String × Str} (listed : slot ∈ provenance ref kickoff) :
      slot.1.toList ∉ slotColumns.map String.toList := by
  have column := provenance_columns ref kickoff slot listed
  simp only [provenanceColumns, List.mem_cons, List.not_mem_nil, or_false] at column
  rcases column with column | column <;> rw [column] <;> decide

theorem unchanged_iff :
    (∀ column ∉ slotColumns.map String.toList,
      (withClose row ref kickoff home draw away).get? column = row.get? column ∨
        row.get? column = none ∧ column ∈ provenanceColumns.map String.toList) ↔
    ∀ slot ∈ provenance ref kickoff, row.get? slot.1.toList = none ∨
      row.get? slot.1.toList = some (some slot.2) := by
  constructor
  · intro unchanged slot listed
    have written := provenance_withClose row ref kickoff home draw away listed
    rcases unchanged _ (provenance_not_slot listed) with same | ⟨fresh, -⟩
    · exact .inr (same.symm.trans written)
    · exact .inl fresh
  · intro fits column other
    by_cases foreign : ∀ slot ∈ provenance ref kickoff, slot.1.toList ≠ column
    · exact .inl (get?_withClose_other row ref kickoff home draw away other foreign)
    · push Not at foreign
      obtain ⟨slot, listed, rfl⟩ := foreign
      rcases fits slot listed with fresh | held
      · exact .inr ⟨fresh, List.mem_map_of_mem (provenance_columns ref kickoff slot listed)⟩
      · exact .inl ((provenance_withClose row ref kickoff home draw away listed).trans held.symm)

theorem slots_iff :
    (∀ slot ∈ (Verdict.joined home draw away).slots,
      Shows (cell (withClose row ref kickoff home' draw' away') slot.1) slot.2) ↔
      Shows home' (some home) ∧ Shows (draw'.getD (cell row "PSCD")) draw ∧ Shows away'
        (some away) ∧ Shows (draw'.getD (cell row "MaxCD")) draw := by
  have cells := slots_withClose row ref kickoff home' draw' away'
  simp only [slotColumns, List.map_cons, List.map_nil, List.cons.injEq, and_true] at cells
  obtain ⟨psch, pscd, psca, maxch, maxcd, maxca⟩ := cells
  simp only [Verdict.slots, List.forall_mem_cons, psch, pscd, psca, maxch, maxcd, maxca]
  constructor
  · rintro ⟨homeShown, drawShown, awayShown, -, drawShown', -⟩
    exact ⟨homeShown, drawShown, awayShown, drawShown'⟩
  · rintro ⟨homeShown, drawShown, awayShown, drawShown'⟩
    exact ⟨homeShown, drawShown, awayShown, homeShown, drawShown', awayShown, nofun⟩

theorem follows_passOf {market : BetfairMarketClose} {own stored : Verdict} :
    Follows row own (passOf row ref market stored).2 ↔
      SameClose row ref market.kickoffUtc own stored := by
  cases stored with
  | unmatched => cases own <;> exact ⟨fun follows => follows.returned.symm,
      fun same => follows_none row same⟩
  | resultConflict =>
    cases own <;> exact ⟨fun follows => follows.returned.symm,
      fun same => follows_none row same⟩
  | joined home' draw' away' =>
    cases own with
    | unmatched => exact ⟨fun follows => follows.returned.symm, fun same => nomatch same⟩
    | resultConflict => exact ⟨fun follows => follows.returned.symm, fun same => nomatch same⟩
    | joined home draw away =>
      constructor
      · intro follows
        obtain ⟨homeShown, drawShown, awayShown, drawShown'⟩ :=
          slots_iff.mp (follows.slots _ rfl)
        exact ⟨homeShown, drawShown, awayShown, drawShown',
          unchanged_iff.mp (follows.unchanged _ rfl)⟩
      · rintro ⟨homeShown, drawShown, awayShown, drawShown', fits⟩
        refine ⟨rfl, ?_, ?_⟩
        · rintro new ⟨⟩
          exact slots_iff.mpr ⟨homeShown, drawShown, awayShown, drawShown'⟩
        · rintro new ⟨⟩
          exact unchanged_iff.mpr fits

theorem row_of_out {fdRows : List FdRow} {R : FdRow → Option FdRow → Prop}
    {outs : List (Option FdRow)} (related : List.Forall₂ R fdRows outs) {out : Option FdRow}
    (listed : out ∈ outs) : ∃ row, R row out := by
  induction related with
  | nil => cases listed
  | cons head tail ih =>
    rcases List.mem_cons.mp listed with rfl | later
    · exact ⟨_, head⟩
    · exact ih later

/-- A pass counts once. -/
theorem counted {passes : List (Verdict × Option FdRow)}
    (spec : ∀ pass ∈ passes, pass.2.isSome = pass.1.isJoined) :
    (passes.filterMap Prod.snd).length + (passes.countP fun pass => pass.1 = .unmatched) +
      (passes.countP fun pass => pass.1 = .resultConflict) = passes.length := by
  induction passes with
  | nil => rfl
  | cons pass passes ih =>
    obtain ⟨verdict, out⟩ := pass
    have rest := ih fun pass listed => spec pass (List.mem_cons_of_mem _ listed)
    have head : out.isSome = verdict.isJoined := spec _ List.mem_cons_self
    cases verdict <;> cases out <;> simp [Verdict.isJoined] at head ⊢ <;> omega

theorem reduceOption_passes (passes : List (Verdict × Option FdRow)) :
    passes.filterMap Prod.snd = (passes.map Prod.snd).reduceOption := by
  rw [List.reduceOption, List.filterMap_map]
  rfl

end Closes

/-! Rows that read alike. -/

section Reading

/-- What a row is matched and checked by. -/
def reading (row : FdRow) : List Str := ["HomeTeam", "AwayTeam", "Date", "FTR"].map (cell row)

theorem reading_of_get? {row new : FdRow}
    (same : ∀ column ∈ ["HomeTeam", "AwayTeam", "Date", "FTR"],
      new.get? column.toList = row.get? column.toList) :
    reading new = reading row := by
  apply List.map_congr_left
  intro column listed
  rw [cell, same column listed, cell]

theorem reading_other : ∀ column ∈ ["HomeTeam", "AwayTeam", "Date", "FTR"],
    column.toList ∉ slotColumns.map String.toList ∧
    column.toList ∉ provenanceColumns.map String.toList := by
  decide

theorem reading_of_follows {row new : FdRow} {own : Verdict}
    (follows : Follows row own (some new)) : reading new = reading row := by
  apply reading_of_get?
  intro column listed
  obtain ⟨other, foreign⟩ := reading_other column listed
  exact (follows.unchanged new rfl _ other).resolve_right fun fresh => foreign fresh.2

theorem reading_withClose (row : FdRow) (ref : Str) (kickoff : Option Int) (home : Str)
    (draw : Option Str) (away : Str) :
    reading (withClose row ref kickoff home draw away) = reading row := by
  apply reading_of_get?
  intro column listed
  obtain ⟨other, foreign⟩ := reading_other column listed
  apply get?_withClose_other row ref kickoff home draw away other
  intro slot written same
  exact foreign (List.mem_map.mpr ⟨slot.1, provenance_columns ref kickoff slot written, same⟩)

section
variable [DateFormats]

theorem asked_congr {row row' : FdRow} (same : reading row = reading row') :
    asked row = asked row' := by
  simp only [reading, List.map_cons, List.cons.injEq] at same
  obtain ⟨home, away, date, -⟩ := same
  rw [asked, asked, home, away, date]

variable [Unicode] [Printers]

omit [DateFormats] in
theorem verdict_congr {row row' : FdRow} (same : reading row = reading row')
    (aliases : AliasTable) (a : Asked) (market : BetfairMarketClose) :
      verdict aliases row a market = verdict aliases row' a market := by
  simp only [reading, List.map_cons, List.cons.injEq] at same
  obtain ⟨-, -, -, ftr, -⟩ := same
  rw [verdict, verdict, ftr]

variable (aliases : AliasTable) (markets : List BetfairMarketClose) (maxDayDrift : Int)

theorem ownVerdict_congr {row row' : FdRow} (same : reading row = reading row') :
    ownVerdict aliases markets maxDayDrift row = ownVerdict aliases markets maxDayDrift row' := by
  simp only [ownVerdict, asked_congr same, verdict_congr same]

/-- The verdict of the market that is stored. -/
def storedVerdict (row : FdRow) : Verdict :=
  ((asked row).bind fun a => (stored aliases markets maxDayDrift a).map fun s =>
    verdict aliases row a s.2).getD .unmatched

theorem storedVerdict_congr {row row' : FdRow} (same : reading row = reading row') :
    storedVerdict aliases markets maxDayDrift row =
      storedVerdict aliases markets maxDayDrift row' := by
  simp only [storedVerdict, asked_congr same, verdict_congr same]

theorem rowPass_spec (row : FdRow) :
    (rowPass aliases markets maxDayDrift row).1 = storedVerdict aliases markets maxDayDrift row ∧
      (rowPass aliases markets maxDayDrift row).2.isSome =
      (storedVerdict aliases markets maxDayDrift row).isJoined ∧
      ∀ new ∈ (rowPass aliases markets maxDayDrift row).2, reading new = reading row := by
  unfold rowPass storedVerdict
  cases asked row with
  | none => exact ⟨rfl, rfl, nofun⟩
  | some a =>
    rw [Option.bind_some, Option.bind_some]
    cases stored aliases markets maxDayDrift a with
    | none => exact ⟨rfl, rfl, nofun⟩
    | some s =>
      rw [Option.map_some, Option.map_some, Option.getD_some, Option.getD_some]
      cases verdict aliases row a s.2 with
      | unmatched => exact ⟨rfl, rfl, nofun⟩
      | resultConflict => exact ⟨rfl, rfl, nofun⟩
      | joined home draw away =>
        refine ⟨rfl, rfl, ?_⟩
        rintro new ⟨⟩
        exact reading_withClose row s.1 s.2.kickoffUtc home draw away

end

end Reading

/-! The join as a whole. -/

section Join
variable [Unicode] [Printers] [DateFormats]
variable (aliases : AliasTable) (markets : List BetfairMarketClose) (maxDayDrift : Int)

/-- The rows returned are those whose own market closes them, with its closes, and every row is
counted once. -/
def JoinExact (fdRows : List FdRow) : Prop :=
  ∃ joined stats, attachBetfairClose aliases fdRows markets maxDayDrift = some (joined, stats) ∧
    stats.nJoined + stats.nUnmatched + stats.nResultConflict = stats.nFdRows ∧
    ∃ outs, joined = outs.reduceOption ∧
      List.Forall₂ (fun row out => Follows row (ownVerdict aliases markets maxDayDrift row) out)
        fdRows outs

/-- The market stored last for the reference that a row finds closes the row as the market found
does. -/
def StoredSame (row : FdRow) : Prop :=
  ∀ a, asked row = some a → ∀ s, source aliases markets maxDayDrift a = some s →
    ∀ m, lastOf s.1.ref (sources markets) = some m →
      SameClose row s.1.ref m.kickoffUtc (verdict aliases row a s.2) (verdict aliases row a m)

def Covered (row : FdRow) : Prop :=
  RowDays maxDayDrift row ∧ StoredSame aliases markets maxDayDrift row

theorem follows_rowPass {row : FdRow} :
    Follows row (ownVerdict aliases markets maxDayDrift row)
      (rowPass aliases markets maxDayDrift row).2 ↔
      StoredSame aliases markets maxDayDrift row := by
  unfold ownVerdict rowPass StoredSame stored
  cases fields : asked row with
  | none => exact ⟨fun _ _ absent => (nomatch absent), fun _ => follows_none row rfl⟩
  | some a =>
    simp only [Option.bind_some, Option.some.injEq, forall_eq']
    cases found : source aliases markets maxDayDrift a with
    | none => exact ⟨fun _ _ absent => (nomatch absent), fun _ => follows_none row rfl⟩
    | some s =>
      have listed : s ∈ sources markets := by
        obtain ⟨cand, -, first⟩ := Option.bind_eq_some_iff.mp found
        exact List.mem_of_find?_eq_some first
      obtain ⟨m, last⟩ := lastOf_isSome listed
      simp only [Option.bind_some, Option.map_some, Option.getD_some, Option.some.injEq, forall_eq',
        last, follows_passOf]

variable {aliases markets maxDayDrift} {fdRows : List FdRow}

/-- The rows that are returned determine what became of each row: two rows that could pass for one
another have one verdict. -/
theorem aligned {outs : List (Option FdRow)}
    (follows : List.Forall₂
      (fun row out => Follows row (ownVerdict aliases markets maxDayDrift row) out) fdRows outs)
    (same : outs.reduceOption =
      (fdRows.map fun row => (rowPass aliases markets maxDayDrift row).2).reduceOption) :
    outs = fdRows.map fun row => (rowPass aliases markets maxDayDrift row).2 := by
  induction follows with
  | nil => rfl
  | @cons row out rows outs head tail ih =>
    rw [List.map_cons] at same ⊢
    obtain ⟨-, passed, passReads⟩ := rowPass_spec aliases markets maxDayDrift row
    cases out with
    | none =>
      cases pass : (rowPass aliases markets maxDayDrift row).2 with
      | none =>
        rw [pass, List.reduceOption_cons_of_none, List.reduceOption_cons_of_none] at same
        rw [ih same]
      | some new =>
        -- a later row would have to return `new`, and then this one's own verdict is to join
        rw [pass, List.reduceOption_cons_of_none, List.reduceOption_cons_of_some] at same
        have listed : some new ∈ outs :=
          List.reduceOption_mem_iff.mp (same ▸ List.mem_cons_self)
        obtain ⟨row', follows'⟩ := row_of_out tail listed
        have alike := (passReads new pass).symm.trans (reading_of_follows follows')
        have refused := head.returned
        rw [ownVerdict_congr aliases markets maxDayDrift alike, ← follows'.returned] at refused
        cases refused
    | some new =>
      cases pass : (rowPass aliases markets maxDayDrift row).2 with
      | none =>
        rw [pass, List.reduceOption_cons_of_none, List.reduceOption_cons_of_some] at same
        have listed : some new ∈ rows.map fun row =>
            (rowPass aliases markets maxDayDrift row).2 :=
          List.reduceOption_mem_iff.mp (same ▸ List.mem_cons_self)
        obtain ⟨row', -, pass'⟩ := List.mem_map.mp listed
        obtain ⟨-, passed', passReads'⟩ := rowPass_spec aliases markets maxDayDrift row'
        have alike := (reading_of_follows head).symm.trans (passReads' new pass')
        rw [pass, storedVerdict_congr aliases markets maxDayDrift alike, ← passed',
          pass'] at passed
        cases passed
      | some new' =>
        rw [pass, List.reduceOption_cons_of_some, List.reduceOption_cons_of_some] at same
        obtain ⟨first, rest⟩ := List.cons.inj same
        rw [ih rest, first]

theorem attach_eq (exist : ∀ row ∈ fdRows, RowDays maxDayDrift row) :
    fdRows.mapM (attachRow aliases (indexOf markets) maxDayDrift) = some
      (fdRows.map (rowPass aliases markets maxDayDrift)) := by
  rw [mapM_some_iff (.unmatched, none)]
  refine ⟨fun row listed => ?_, List.map_congr_left fun row listed => ?_⟩
  · rw [attachRow_eq aliases markets maxDayDrift (exist row listed)]
    rfl
  · rw [attachRow_eq aliases markets maxDayDrift (exist row listed), Option.getD_some]

/-- The join is exact when every row's days are dates and the market stored for the row's
reference closes it as its own market does, the draw's slots included. -/
theorem attachBetfairClose_iff (aliases : AliasTable) (markets : List BetfairMarketClose)
    (maxDayDrift : Int) (fdRows : List FdRow) :
    JoinExact aliases markets maxDayDrift fdRows ↔
      ∀ row ∈ fdRows, Covered aliases markets maxDayDrift row := by
  constructor
  · rintro ⟨joined, stats, attached, -, outs, rfl, follows⟩
    have exist : ∀ row ∈ fdRows, RowDays maxDayDrift row := by
      intro row listed
      by_contra missing
      obtain ⟨passes, ran, -⟩ := Option.map_eq_some_iff.mp attached
      have there := ((mapM_some_iff (.unmatched, none)).mp ran).1 row listed
      rw [attachRow_none aliases markets maxDayDrift missing] at there
      cases there
    rw [attachBetfairClose, attach_eq exist, Option.map_some] at attached
    have same := congrArg Prod.fst (Option.some.inj attached)
    rw [reduceOption_passes, List.map_map] at same
    rw [aligned follows same.symm, List.forall₂_map_right_iff, List.forall₂_same] at follows
    intro row listed
    exact ⟨exist row listed,
      (follows_rowPass aliases markets maxDayDrift).mp (follows row listed)⟩
  · intro covered
    have exist : ∀ row ∈ fdRows, RowDays maxDayDrift row :=
      fun row listed => (covered row listed).1
    have spec : ∀ pass ∈ fdRows.map (rowPass aliases markets maxDayDrift),
        pass.2.isSome = pass.1.isJoined := by
      intro pass listed
      obtain ⟨row, -, rfl⟩ := List.mem_map.mp listed
      obtain ⟨own, passed, -⟩ := rowPass_spec aliases markets maxDayDrift row
      rw [passed, own]
    refine ⟨_, _, by rw [attachBetfairClose, attach_eq exist,
      Option.map_some], ?_, _, reduceOption_passes _, ?_⟩
    · dsimp only
      rw [counted spec, List.length_map]
    · rw [List.map_map, List.forall₂_map_right_iff, List.forall₂_same]
      intro row listed
      exact (follows_rowPass aliases markets maxDayDrift).mpr (covered row listed).2

end Join

/-! A market without a price for the draw. -/

@[reducible] def Printers.halves : Printers where
  dumps _ := []
  decimal price := if price = 5 / 2 then "2.5".toList else "3.5".toList

@[reducible] def DateFormats.newYear : DateFormats where
  strptime text format :=
    if text = "01/01/2025".toList ∧ format = "%d/%m/%Y" then some 1735689600000000 else none

/-- A row with the closing draw price of football-data. -/
def drawnRow : FdRow := Dict.ofList
  [("HomeTeam".toList, some "Ajax".toList), ("AwayTeam".toList, some "Feyenoord".toList),
    ("Date".toList, some "01/01/2025".toList), ("PSCD".toList, some "3.4".toList)]

def twoPriced : BetfairMarketClose where
  marketId := "1.1".toList
  eventTypeId := none
  eventName := none
  competition := none
  marketType := none
  kickoffUtc := some 1735732800000000
  inPlayUtc := none
  settled := true
  bspReconciled := false
  runners :=
    [⟨7, some "Ajax".toList, some 1, [], some (5 / 2), none, none⟩,
      ⟨8, some "Feyenoord".toList, some 2, [], some (7 / 2), none, none⟩,
      ⟨drawSelectionId, some "The Draw".toList, some 3, [], none, none, none⟩]
  eventId := none
  settledTimeUtc := none

theorem drawnRow_joined :
    (@attachBetfairClose Unicode.ascii Printers.halves DateFormats.newYear AliasTable.empty
      [drawnRow] [twoPriced] 1).map
      (fun result => result.1.map fun row => cell row "PSCD") = some ["3.4".toList] := by
  decide +kernel

theorem drawnRow_own :
    @ownVerdict Unicode.ascii Printers.halves DateFormats.newYear AliasTable.empty
      [twoPriced] 1 drawnRow = .joined "2.5".toList none "3.5".toList := by
  decide +kernel

theorem attachBetfairClose_fails :
    ¬ @JoinExact Unicode.ascii Printers.halves DateFormats.newYear AliasTable.empty [twoPriced] 1
      [drawnRow] := by
  rintro ⟨joined, stats, attached, -, outs, rfl, follows⟩
  have cells := drawnRow_joined
  rw [attached, Option.map_some, Option.some.injEq] at cells
  obtain ⟨out, others, head, tail, rfl⟩ := List.forall₂_cons_left_iff.mp follows
  cases tail
  cases out with
  | none => cases cells
  | some new =>
    rw [drawnRow_own] at head
    have stale : cell new "PSCD" = "3.4".toList := (List.cons.inj cells).1
    have shown : Shows (cell new "PSCD") none :=
      head.slots new rfl ("PSCD", none) (by simp [Verdict.slots])
    rw [stale] at shown
    rcases shown with shown | shown <;> cases shown

end SharpEvPicks.Ingestion.BetfairJoin
