import SharpEvPicks.Ingestion.MarketStream

/-! No price from play becomes the close. -/
namespace SharpEvPicks.Ingestion

open Python Transition

section
variable [Readers]

/-! The price that the changes of a runner leave, without a ladder. -/

/-- The price of the last row for a level. -/
def populated (rows : List (Int × Option ℚ)) (level : Int) : Option ℚ :=
  ((rows.filter fun row => row.1 = level).getLast?).bind Prod.snd

def lowestPopulated (rows : List (Int × Option ℚ)) : Option ℚ :=
  (((rows.map Prod.fst).filter fun level => (populated rows level).isSome).min?).bind
    (populated rows)

/-- The lowest displayed level, else the lowest raw level, else the last traded price. -/
def backAfter (changes : List Members) : Option ℚ :=
  (lowestPopulated (changes.flatMap fun rc => rowsOf (rc.get "bdatb".toList))).or
    ((lowestPopulated (changes.flatMap fun rc => rowsOf (rc.get "batb".toList))).or
      (changes.filterMap fun rc => toDecimal (rc.get "ltp".toList)).getLast?)

def changesOf (sid : Int) (changes : List Change) : List Members :=
  ((changes.flatMap fun c => runnerChanges c.mc).filter fun row => row.1 = sid).map Prod.snd

omit [Readers] in
theorem get?_write (book : Dict Int ℚ) (row : Int × Option ℚ) (level : Int) :
    (write book row).get? level = if row.1 = level then row.2 else book.get? level := by
  unfold write
  cases row.2 with
  | none => simp only [Dict.get?_pop, eq_comm]
  | some price => simp only [Dict.get?_set, eq_comm]

omit [Readers] in
theorem get?_written (rows : List (Int × Option ℚ)) (level : Int) :
    (rows.foldl write Dict.empty).get? level = populated rows level := by
  induction rows using List.reverseRecOn with
  | nil => rfl
  | append_singleton rows row ih =>
    unfold populated at ih ⊢
    rw [List.foldl_append, List.foldl_cons, List.foldl_nil, get?_write, ih, List.filter_append,
      List.getLast?_append]
    by_cases here : row.1 = level <;> simp [here]

omit [Readers] in
/-- The least key is looked for among the rows: a level without a row has no price. -/
theorem lowest_written (rows : List (Int × Option ℚ)) :
    RunnerLadder.lowest (rows.foldl write Dict.empty) = lowestPopulated rows := by
  have value : (rows.foldl write Dict.empty).get? = populated rows := funext (get?_written rows)
  have levels : ∀ level, level ∈ (rows.foldl write Dict.empty).keys ↔
      level ∈ (rows.map Prod.fst).filter fun level => (populated rows level).isSome := by
    intro level
    rw [Dict.mem_keys_iff, get?_written, List.mem_filter, iff_and_self]
    intro priced
    obtain ⟨price, found⟩ := Option.isSome_iff_exists.mp priced
    obtain ⟨row, last, -⟩ := Option.bind_eq_some_iff.mp found
    obtain ⟨there, same⟩ := List.mem_filter.mp (List.mem_of_getLast? last)
    exact List.mem_map.mpr ⟨row, there, of_decide_eq_true same⟩
  unfold RunnerLadder.lowest lowestPopulated
  rw [value]
  congr 1
  apply Option.ext
  intro level
  simp only [List.min?_eq_some_iff, levels]

theorem foldl_applied (changes : List Members) (ladder : RunnerLadder) :
    changes.foldl RunnerLadder.applied ladder =
      ⟨(changes.flatMap fun rc => rowsOf (rc.get "bdatb".toList)).foldl write ladder.bdatb,
        (changes.flatMap fun rc => rowsOf (rc.get "batb".toList)).foldl write ladder.batb,
        ((changes.filterMap fun rc => toDecimal (rc.get "ltp".toList)).getLast?).or
          ladder.ltp⟩ := by
  induction changes generalizing ladder with
  | nil => rfl
  | cons rc changes ih =>
    rw [List.foldl_cons, ih, List.flatMap_cons, List.flatMap_cons, List.foldl_append,
      List.foldl_append]
    have traded : (((rc :: changes).filterMap fun rc =>
        toDecimal (rc.get "ltp".toList)).getLast?).or ladder.ltp =
        ((changes.filterMap fun rc => toDecimal (rc.get "ltp".toList)).getLast?).or
          ((toDecimal (rc.get "ltp".toList)).or ladder.ltp) := by
      rw [List.filterMap_cons]
      cases toDecimal (rc.get "ltp".toList) with
      | none => rfl
      | some price =>
        rw [List.getLast?_cons]
        cases (changes.filterMap fun rc => toDecimal (rc.get "ltp".toList)).getLast? <;> rfl
    rw [traded]
    rfl

theorem bestBack_applied (changes : List Members) :
    (changes.foldl RunnerLadder.applied RunnerLadder.empty).bestBack = backAfter changes := by
  rw [foldl_applied]
  unfold RunnerLadder.bestBack RunnerLadder.empty backAfter
  simp only [lowest_written, Option.or_none]

theorem price_after (changes : List Change) (sid : Int) :
    (pricesNow (laddersAfter changes)).get? sid = backAfter (changesOf sid changes) := by
  rw [pricesNow, Dict.get?_filterMap, laddersAfter, laddered, Dict.get?_foldl_modify]
  rw [← bestBack_applied, changesOf, List.foldl_map]
  generalize (changes.flatMap fun c => runnerChanges c.mc).filter (fun row => row.1 = sid) = rows
  have kept (rows : List (Int × Members)) (ladder : RunnerLadder) :
      rows.foldl (fun v row => some ((v.getD RunnerLadder.empty).applied row.2)) (some ladder) =
        some (rows.foldl (fun ladder row => ladder.applied row.2) ladder) := by
    induction rows generalizing ladder with
    | nil => rfl
    | cons row rows ih => exact ih _
  -- the first change of a runner makes its ladder, the others find it
  cases rows with
  | nil => rfl
  | cons row rows =>
    rw [List.foldl_cons, List.foldl_cons, kept]
    rfl

/-! The close. -/

def lastDefinition (lines : List Str) : Option Members :=
  ((marketChanges lines).filterMap Change.definition).getLast?

def InRange (value : Json) : Prop :=
  ∀ raw fields offset, value.asStr = some raw → raw ≠ [] →
    Readers.fromisoformat (timeText raw) = some ⟨fields, some offset⟩ →
      minInstant ≤ fields - offset ∧ fields - offset ≤ maxInstant

/-- The two times of the last definition are instants in UTC. -/
def TimesFit (lines : List Str) : Prop :=
  ∀ mdef ∈ lastDefinition lines, closingRunners mdef ≠ [] →
    InRange (mdef.get "marketTime".toList) ∧ InRange (mdef.get "settledTime".toList)

/-- Nothing in the lines raises. -/
structure Readable (lines : List Str) : Prop where
  fits : ∀ text ∈ lines, LineFits text
  times : TimesFit lines

/-- A close for each runner of the last definition; without a price of its own, the runner has
the price of the changes before play. -/
def ClosesBeforePlay (lines : List Str) : Prop :=
  ∃ close, parseMarketStream lines = .ok close ∧
    (close.elim [] fun market => market.runners.map BetfairRunner.selectionId).Perm
      (((lastDefinition lines).elim [] closingRunners).map Prod.fst) ∧
    ∀ market ∈ close, ∀ runner ∈ market.runners, runner.bsp = none →
      runner.closePrice =
        backAfter (changesOf runner.selectionId (beforePlay (marketChanges lines)))

/-- Two streams of one market that agree up to the first definition in play, and on the last one. -/
structure SameToPlay (lines lines' : List Str) : Prop where
  shared : ∃ before pt mc mc' after after',
    marketChanges lines = before ++ ⟨pt, mc⟩ :: after ∧
    marketChanges lines' = before ++ ⟨pt, mc'⟩ :: after' ∧ (∀ c ∈ before, ¬ c.turns) ∧
    (Change.mk pt mc).turns ∧ (Change.mk pt mc').definition = (Change.mk pt mc).definition
  market : ((marketChanges lines').filterMap Change.marketId).getLast? =
    ((marketChanges lines).filterMap Change.marketId).getLast?
  last : lastDefinition lines' = lastDefinition lines

theorem parseMarketTime_ok {value : Json} (fits : InRange value) :
    ∃ instant, parseMarketTime value = .ok instant := by
  unfold parseMarketTime
  split
  · exact ⟨none, rfl⟩
  · exact ⟨none, rfl⟩
  · rename_i raw written known
    split
    · exact ⟨none, rfl⟩
    · exact ⟨some _, rfl⟩
    · rename_i fields offset read
      rw [if_pos (fits raw fields offset known (fun empty => written empty) read)]
      exact ⟨some _, rfl⟩

theorem parseMarketTime_error {value : Json} (far : ¬ InRange value) :
    parseMarketTime value = .error .overflow := by
  unfold InRange at far
  push Not at far
  obtain ⟨raw, fields, offset, known, written, read, outside⟩ := far
  unfold parseMarketTime
  rw [known]
  cases raw with
  | nil => exact absurd rfl written
  | cons c raw =>
    simp only [read]
    rw [if_neg (fun inside => absurd (outside inside.1) (not_lt.mpr inside.2))]

/-- What the close of a state is, when the times of its definition are in range. -/
theorem marketClose_ok {s : StreamState}
    (fits : ∀ mdef ∈ s.latestDef, closingRunners mdef ≠ [] →
      InRange (mdef.get "marketTime".toList) ∧ InRange (mdef.get "settledTime".toList)) :
    ∃ close, marketClose s = .ok close ∧
      (close.elim [] fun market => market.runners.map BetfairRunner.selectionId).Perm
        ((s.latestDef.elim [] closingRunners).map Prod.fst) ∧
      ∀ market ∈ close, ∀ runner ∈ market.runners, runner.bsp = none →
        runner.closePrice = (s.preInplay.getD (pricesNow s.ladders)).get? runner.selectionId := by
  unfold marketClose
  cases defined : s.latestDef with
  | none => exact ⟨none, rfl, .refl _, fun _ none => by cases none⟩
  | some mdef =>
    simp only [List.map_eq_nil_iff]
    by_cases empty : closingRunners mdef = []
    · rw [if_pos empty]
      exact ⟨none, rfl, by simp [empty], fun _ none => by cases none⟩
    · obtain ⟨kickoff, settled⟩ := fits mdef defined empty
      obtain ⟨kickoffUtc, read⟩ := parseMarketTime_ok kickoff
      obtain ⟨settledTimeUtc, read'⟩ := parseMarketTime_ok settled
      simp only [if_neg empty, read, read', bind, Except.bind, pure, Except.pure]
      refine ⟨_, rfl, ?_, ?_⟩
      · have sorted := (List.perm_insertionSort (fun a b : BetfairRunner =>
            toLex (a.sortPriority.getD 99, a.selectionId) ≤ toLex
              (b.sortPriority.getD 99, b.selectionId))
          ((closingRunners mdef).map fun row =>
            closingRunner (s.preInplay.getD (pricesNow s.ladders)) row.1 row.2)).map
              BetfairRunner.selectionId
        rw [List.map_map] at sorted
        exact sorted
      · rintro market ⟨⟩ runner listed unpriced
        obtain ⟨row, -, rfl⟩ := List.mem_map.mp (mem_sortedBy.mp listed)
        unfold closingRunner at unpriced ⊢
        simp only at unpriced ⊢
        rw [unpriced, Option.none_or]

theorem marketClose_error {s : StreamState} {mdef : Members} (defined : s.latestDef = some mdef)
    (some_ : closingRunners mdef ≠ [])
    (far : ¬ (InRange (mdef.get "marketTime".toList) ∧
      InRange (mdef.get "settledTime".toList))) :
    marketClose s = .error .overflow := by
  unfold marketClose
  simp only [defined, List.map_eq_nil_iff, if_neg some_]
  by_cases kickoff : InRange (mdef.get "marketTime".toList)
  · obtain ⟨kickoffUtc, read⟩ := parseMarketTime_ok kickoff
    have settled := parseMarketTime_error fun settled => far ⟨kickoff, settled⟩
    simp only [read, settled, bind, Except.bind]
  · simp only [parseMarketTime_error kickoff, bind, Except.bind]

theorem snapshot_before (changes : List Change) (sid : Int) :
    (((changes.find? Change.turns).map fun _ => pricesNow (laddersAfter (beforePlay changes))).getD
      (pricesNow (laddersAfter changes))).get? sid =
      backAfter (changesOf sid (beforePlay changes)) := by
  cases turned : changes.find? Change.turns with
  | some turn => exact price_after _ sid
  | none =>
    rw [beforePlay_calm (List.find?_eq_none.mp turned)]
    exact price_after _ sid

theorem parseMarketStream_eq {lines : List Str} (fits : ∀ text ∈ lines, LineFits text) :
    parseMarketStream lines = marketClose
      ((marketChanges lines).foldl StreamState.changed StreamState.start) := by
  unfold parseMarketStream
  simp only [lines_guarded.ok StreamState.start lines fits, bind, Except.bind]

theorem closesBeforePlay_iff (lines : List Str) : ClosesBeforePlay lines ↔ Readable lines := by
  constructor
  · rintro ⟨close, parsed, -⟩
    have fits : ∀ text ∈ lines, LineFits text := by
      by_contra large
      obtain ⟨e, raised⟩ := lines_guarded.error StreamState.start lines large
      simp only [parseMarketStream, raised, bind, Except.bind] at parsed
      cases parsed
    refine ⟨fits, fun mdef last runners => ?_⟩
    by_contra far
    rw [parseMarketStream_eq fits, state_after] at parsed
    rw [marketClose_error last runners far] at parsed
    cases parsed
  · rintro ⟨fits, times⟩
    obtain ⟨close, closed, ids, prices⟩ := @marketClose_ok _
      ((marketChanges lines).foldl StreamState.changed StreamState.start) (by
        rw [state_after]; exact times)
    refine ⟨close, (parseMarketStream_eq fits).trans closed, ?_, ?_⟩
    · rw [state_after] at ids
      exact ids
    · intro market known runner listed unpriced
      rw [prices market known runner listed unpriced, state_after]
      exact snapshot_before _ _

theorem SameToPlay.parse_eq {lines lines' : List Str} (same : SameToPlay lines lines')
    (fits : ∀ text ∈ lines, LineFits text) (fits' : ∀ text ∈ lines', LineFits text) :
    parseMarketStream lines' = parseMarketStream lines := by
  obtain ⟨before, pt, mc, mc', after, after', listed, listed', calm, turns, defined⟩ :=
    same.shared
  have turns' : (Change.mk pt mc').turns := by
    unfold Change.turns at turns ⊢
    rwa [defined]
  have turn {mc : Members} {after : List Change} (turns : (Change.mk pt mc).turns) :
      (before ++ ⟨pt, mc⟩ :: after).find? Change.turns = some ⟨pt, mc⟩ := by
    rw [List.find?_append, List.find?_eq_none.mpr calm, List.find?_cons_of_pos turns]
    rfl
  rw [parseMarketStream_eq fits, parseMarketStream_eq fits', state_after, state_after]
  have last := same.last
  unfold lastDefinition at last
  rw [same.market, last, listed, listed', turn turns, turn turns',
    beforePlay_turn calm turns, beforePlay_turn calm turns']
  rfl

/-- What happens in play has no part in the close, as long as nothing raises. -/
theorem closes_before_play (lines : List Str) :
    (ClosesBeforePlay lines ↔ Readable lines) ∧
      ∀ lines', Readable lines → Readable lines' → SameToPlay lines lines' →
        parseMarketStream lines' = parseMarketStream lines :=
  ⟨closesBeforePlay_iff lines, fun _ fits fits' same => same.parse_eq fits.fits fits'.fits⟩

/-! Readability is decidable. -/

theorem parseMarketTime_isSome {value : Json} : (parseMarketTime value).toOption.isSome ↔
    InRange value := by
  by_cases fits : InRange value
  · obtain ⟨instant, read⟩ := parseMarketTime_ok fits
    simp [read, fits, Except.toOption]
  · simp [parseMarketTime_error fits, fits, Except.toOption]

instance changeFitsDecidable (mc : Members) : Decidable (ChangeFits mc) :=
  inferInstanceAs (Decidable (∀ row ∈ runnerChanges mc, ∀ name ∈ ["bdatb".toList,
    "batb".toList], ∀ entry ∈ ((row.2.get name).asArr).getD [], ¬ oversized entry))

instance decodesDecidable (text : Str) : Decidable (Decodes text) :=
  @instDecidableForall _ _ inferInstance inferInstance

instance lineFitsDecidable (text : Str) : Decidable (LineFits text) :=
  inferInstanceAs (Decidable (Decodes text ∧ ∀ c ∈ lineChanges text, ChangeFits c.mc))

instance inRangeDecidable (value : Json) : Decidable (InRange value) :=
  decidable_of_iff _ (@parseMarketTime_isSome _ value)

instance readableDecidable (lines : List Str) : Decidable (Readable lines) :=
  decidable_of_iff ((∀ text ∈ lines, LineFits text) ∧ ∀ mdef ∈ lastDefinition lines,
      closingRunners mdef ≠ [] →
      InRange (mdef.get "marketTime".toList) ∧ InRange (mdef.get "settledTime".toList))
    ⟨fun ⟨fits, times⟩ => ⟨fits, times⟩,
      fun readable => ⟨readable.fits, readable.times⟩⟩

end

/-! An infinite level, in play. -/

/-- The interpreter on the texts of a table. -/
@[reducible] def Readers.table (texts : List (Str × Json)) : Readers where
  loads text := (texts.lookup text).elim (.error .notJson) .ok
  int _ := none
  float _ := none
  decimal _ := none
  shortest x := x
  nearest n := n
  str _ := []
  fromisoformat _ := none
  fromtimestamp _ := none

def object (members : List (String × Json)) : Json := .obj (members.map fun m => (m.1.toList, m.2))

def number (x : ℚ) : Json := .float (.finite x)

/-- `[level, 2.5, 9]` of runner 7. -/
def deltaOf (level : Json) : Json :=
  .arr [object [("id", .int 7), ("batb", .arr [.arr [level, number (5 / 2), .int 9]])]]

def mcm (change : Json) : Json := object [("op", .str "mcm".toList), ("mc", .arr [change])]

/-- A text in pieces. -/
def joined (pieces : List String) : Str := pieces.flatMap String.toList

/-- A message with one runner change, and the level of its one row. -/
def rowText (start : List String) (level : String) : Str :=
  joined (start ++ ["\"rc\":[\x7b", "\"id\":7,", "\"batb\":[[", level, ",2.5,9]]",
    "\x7d]\x7d]\x7d"])

def mcmText : List String := ["\x7b\"op\":", "\"mcm\",", "\"mc\":[\x7b"]

def openText : Str :=
  rowText (mcmText ++ ["\"market", "Definition", "\":\x7b", "\"runners\"", ":[\x7b\"id\":",
    "7\x7d]\x7d,"]) "0"

def playText : Str :=
  joined (mcmText ++ ["\"market", "Definition", "\":\x7b", "\"inPlay\"", ":true,", "\"runners\"",
    ":[\x7b\"id\":", "7\x7d]\x7d", "\x7d]\x7d"])

def tameText : Str := rowText mcmText "0"

def wildText : Str := rowText mcmText "1e999"

/-- The definition that is in play. -/
def playChange : Members :=
  [("marketDefinition".toList,
    object [("inPlay", .bool true), ("runners", .arr [object [("id", .int 7)]])])]

def streamTexts : List (Str × Json) :=
  [(openText, mcm (object [("marketDefinition",
      object [("runners", .arr [object [("id", .int 7)]])]), ("rc", deltaOf (.int 0))])),
    (playText, mcm (.obj playChange)),
    (tameText, mcm (object [("rc", deltaOf (.int 0))])),
    (wildText, mcm (object [("rc", deltaOf (.float (.inf false)))]))]

def closesOf (lines : List Str) : Except StreamFault (List (Int × Option ℚ)) :=
  (@parseMarketStream (Readers.table streamTexts) lines).map fun close =>
    close.elim [] fun market => market.runners.map fun runner =>
      (runner.selectionId, runner.closePrice)

theorem openText_calm : ∀ c ∈ @lineChanges (Readers.table streamTexts) openText,
    ¬ c.turns := by
  decide +kernel

theorem streamTexts_same :
    @SameToPlay (Readers.table streamTexts) [openText, playText] [openText, playText, tameText] :=
  @SameToPlay.mk (Readers.table streamTexts) _ _
    ⟨@lineChanges (Readers.table streamTexts) openText, .null, playChange, playChange, [],
      @lineChanges (Readers.table streamTexts) tameText, rfl, rfl, openText_calm, rfl, rfl⟩
    rfl rfl

/-- A close, and the same close with more of the play. -/
theorem kickoff_closes :
    @ClosesBeforePlay (Readers.table streamTexts) [openText, playText] ∧
      @parseMarketStream (Readers.table streamTexts) [openText, playText, tameText] =
        @parseMarketStream (Readers.table streamTexts) [openText, playText] := by
  obtain ⟨closes, same⟩ := @closes_before_play (Readers.table streamTexts) [openText, playText]
  exact ⟨closes.mpr (by decide +kernel),
    same _ (by decide +kernel) (by decide +kernel) streamTexts_same⟩

/-- One infinite level in play takes the close with it. -/
theorem closes_before_play_fails :
    closesOf [openText, playText] = .ok [(7, some (5 / 2))] ∧
      @parseMarketStream (Readers.table streamTexts)
        [openText, playText, wildText] = .error .overflow ∧
      ¬ @ClosesBeforePlay (Readers.table streamTexts) [openText, playText, wildText] := by
  have raised : @parseMarketStream (Readers.table streamTexts) [openText, playText, wildText] =
      .error .overflow := by
    decide +kernel
  refine ⟨by decide +kernel, raised, ?_⟩
  rintro ⟨close, parsed, -⟩
  cases raised.symm.trans parsed

end SharpEvPicks.Ingestion
