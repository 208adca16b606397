import SharpEvPicks.Ingestion.BetfairBsp
import SharpEvPicks.Transition.Guarded

/-! What the lines of a stream amount to: its definitions and its runner changes, in order. -/
namespace SharpEvPicks.Ingestion

open Python Transition

section
variable [Readers]

/-! Rows that cannot be skipped. -/

def isInfinite : Json → Bool
  | .float (.inf _) => true
  | _ => false

def beyondFloat : Json → Bool
  | .int n => Json.floatLimit ≤ n.natAbs
  | _ => false

/-- An infinite level, or a size too large for a `float` at a level that is a number. -/
def oversized : Json → Bool
  | .arr (level :: _ :: size :: _) =>
    isInfinite level || (level.toInt.toOption.isSome && beyondFloat size)
  | _ => false

theorem toInt_overflow (v : Json) : v.toInt = .error .overflow ↔ isInfinite v := by
  cases v with
  | float x => cases x <;> simp [Json.toInt, isInfinite]
  | str s =>
    simp only [Json.toInt, isInfinite]
    split <;> simp
  | _ => simp [Json.toInt, isInfinite]

theorem toFloat_overflow (v : Json) : v.toFloat = .error .overflow ↔ beyondFloat v := by
  cases v with
  | int n =>
    simp only [Json.toFloat, beyondFloat, decide_eq_true_eq]
    split <;> simp_all
  | str s =>
    simp only [Json.toFloat, beyondFloat]
    split <;> simp
  | _ => simp [Json.toFloat, beyondFloat]

/-- The row that an entry of a ladder stands for, if it is one. -/
def rowOf (entry : Json) : Option (Int × Option ℚ) := (readDelta entry).toOption.join

theorem readDelta_ok {entry : Json} (fits : ¬ oversized entry) :
    readDelta entry = .ok (rowOf entry) := by
  have read : ∀ e, readDelta entry ≠ .error e := by
    intro e raised
    apply fits
    unfold readDelta at raised
    split at raised
    · rename_i level price size rest
      simp only [oversized, Bool.or_eq_true, Bool.and_eq_true]
      split at raised
      · cases raised
      · rename_i infinite
        exact .inl ((toInt_overflow level).mp infinite)
      · rename_i n whole
        split at raised
        · cases raised
        · rename_i large
          exact .inr ⟨by simp [whole, Except.toOption], (toFloat_overflow size).mp large⟩
        all_goals cases raised
    · cases raised
  unfold rowOf
  cases read' : readDelta entry with
  | error e => exact absurd read' (read e)
  | ok row => rfl

theorem readDelta_error {entry : Json} (large : oversized entry) :
    readDelta entry = .error .overflow := by
  unfold oversized at large
  split at large
  · rename_i level price size rest
    simp only [Bool.or_eq_true, Bool.and_eq_true] at large
    unfold readDelta
    obtain infinite | ⟨whole, beyond⟩ := large
    · simp only [(toInt_overflow level).mpr infinite]
    · cases read : level.toInt with
      | error e =>
        rw [read] at whole
        cases whole
      | ok n => simp only [read, (toFloat_overflow size).mpr beyond]
  · cases large

/-! What a change does when nothing raises. -/

/-- The rows of a ladder that are not malformed. -/
def rowsOf (deltas : Json) : List (Int × Option ℚ) := (deltas.asArr.getD []).filterMap rowOf

def RunnerLadder.applied (ladder : RunnerLadder) (rc : Members) : RunnerLadder :=
  ⟨(rowsOf (rc.get "bdatb".toList)).foldl write ladder.bdatb,
    (rowsOf (rc.get "batb".toList)).foldl write ladder.batb,
    (toDecimal (rc.get "ltp".toList)).or ladder.ltp⟩

/-- No row of the two ladders is oversized. -/
def Fits (rc : Members) : Prop :=
  ∀ name ∈ ["bdatb".toList, "batb".toList], ∀ entry ∈ ((rc.get name).asArr).getD [],
    ¬ oversized entry

/-- The runner changes of a market change, with the runner of each. -/
def runnerChanges (mc : Members) : List (Int × Members) :=
  (((mc.get "rc".toList).asArr).getD []).filterMap identified

def ChangeFits (mc : Members) : Prop := ∀ row ∈ runnerChanges mc, Fits row.2

def laddered (ladders : Dict Int RunnerLadder) (rows : List (Int × Members)) :
    Dict Int RunnerLadder :=
  rows.foldl (fun ladders row =>
    ladders.modify row.1 fun ladder => (ladder.getD RunnerLadder.empty).applied row.2) ladders

/-- A market change with the time of its message. -/
structure Change where
  pt : Json
  mc : Members

def Change.definition (c : Change) : Option Members := (c.mc.get "marketDefinition".toList).asObj

def Change.marketId (c : Change) : Option Str :=
  if (c.mc.get "id".toList).truthy then some (c.mc.get "id".toList).toStr else none

/-- A definition that is in play. -/
def Change.turns (c : Change) : Bool := c.definition.any StreamState.inPlay

def StreamState.changed (s : StreamState) (c : Change) : StreamState :=
  { s.marked c.pt c.mc with ladders := laddered (s.marked c.pt c.mc).ladders (runnerChanges c.mc) }

def lineChanges (text : Str) : List Change :=
  if strip text = [] then []
  else
    match Readers.loads text with
    | .error _ => []
    | .ok msg =>
      match msg.asObj with
      | none => []
      | some msg => (StreamState.changesIn
          msg).filterMap fun mc => mc.asObj.map fun mc => ⟨msg.get "pt".toList, mc⟩

/-- The market changes of all messages, in order. -/
def marketChanges (lines : List Str) : List Change := lines.flatMap lineChanges

/-- `json.loads` returns or raises `JSONDecodeError`. -/
def Decodes (text : Str) : Prop :=
  strip text ≠ [] → Readers.loads text matches .ok _ | .error .notJson

def LineFits (text : Str) : Prop :=
  Decodes text ∧ ∀ c ∈ lineChanges text, ChangeFits c.mc

/-! The parser does that, and raises just on what does not fit. -/

theorem applyDelta_guarded :
    Guarded applyDelta (fun entry => ¬ oversized entry) fun book entry => (rowOf entry).elim book
      (write book) := by
  constructor
  · intro book entry fits
    simp only [applyDelta, readDelta_ok fits, bind, Except.bind, pure, Except.pure]
    cases rowOf entry <;> rfl
  · intro book entry large
    exact ⟨.overflow, by
      simp only [applyDelta, readDelta_error (not_not.mp large), bind, Except.bind]⟩

theorem applyDeltas_guarded :
    Guarded applyDeltas (fun deltas => ∀ entry ∈ deltas.asArr.getD [], ¬ oversized entry)
      fun book deltas => (rowsOf deltas).foldl write book := by
  have loop := applyDelta_guarded.foldlM_filterMap
  constructor
  · intro book deltas fits
    cases deltas with
    | arr entries => exact loop.ok book entries fits
    | _ => rfl
  · intro book deltas large
    cases deltas with
    | arr entries => exact loop.error book entries large
    | _ => exact absurd (fun entry inside => by cases inside) large

theorem apply_guarded : Guarded RunnerLadder.apply Fits RunnerLadder.applied := by
  constructor
  · intro ladder rc fits
    obtain ⟨displayed, raw, -⟩ : _ ∧ _ ∧ _ := by
      simpa only [Fits, List.forall_mem_cons] using fits
    simp only [RunnerLadder.apply, applyDeltas_guarded.ok _ _ displayed,
      applyDeltas_guarded.ok _ _ raw, bind, Except.bind, pure, Except.pure]
    rfl
  · intro ladder rc large
    unfold RunnerLadder.apply
    by_cases displayed : ∀ entry ∈ ((rc.get "bdatb".toList).asArr).getD [], ¬ oversized entry
    · have raw : ¬ ∀ entry ∈ ((rc.get "batb".toList).asArr).getD [], ¬ oversized entry := by
        intro raw
        apply large
        simpa only [Fits, List.forall_mem_cons, List.not_mem_nil, false_implies, implies_true,
          and_true] using ⟨displayed, raw⟩
      obtain ⟨e, raised⟩ := applyDeltas_guarded.error ladder.batb _ raw
      exact ⟨e, by simp only [applyDeltas_guarded.ok _ _ displayed, raised, bind, Except.bind]⟩
    · obtain ⟨e, raised⟩ := applyDeltas_guarded.error ladder.bdatb _ displayed
      exact ⟨e, by simp only [raised, bind, Except.bind]⟩

theorem runnerChange_guarded :
    Guarded StreamState.runnerChange
      (fun rc => ∀ row ∈ identified rc, Fits row.2) fun ladders rc =>
      (identified rc).elim ladders fun row =>
        ladders.modify row.1 fun ladder => (ladder.getD RunnerLadder.empty).applied row.2 := by
  constructor
  · intro ladders rc fits
    unfold StreamState.runnerChange
    cases known : identified rc with
    | none => rfl
    | some row =>
      simp only [apply_guarded.ok _ _ (fits row known), bind, Except.bind, pure, Except.pure]
      rfl
  · intro ladders rc large
    unfold StreamState.runnerChange
    cases known : identified rc with
    | none => exact absurd (fun _ there => by cases known.symm.trans there) large
    | some row =>
      have large : ¬ Fits row.2 :=
        fun fits => large fun _ there => Option.some.inj (known.symm.trans there) ▸ fits
      obtain ⟨e, raised⟩ :=
        apply_guarded.error ((ladders.get? row.1).getD RunnerLadder.empty) row.2 large
      exact ⟨e, by simp only [raised, bind, Except.bind]⟩

theorem changeFits_iff {mc : Members} :
    ChangeFits mc ↔ ∀ rc ∈ ((mc.get "rc".toList).asArr).getD [], ∀ row ∈ identified rc,
      Fits row.2 := by
  unfold ChangeFits runnerChanges
  constructor
  · intro fits rc inside row known
    exact fits row (List.mem_filterMap.mpr ⟨rc, inside, known⟩)
  · intro fits row inside
    obtain ⟨rc, inside, known⟩ := List.mem_filterMap.mp inside
    exact fits rc inside row known

theorem marketChange_guarded (pt : Json) :
    Guarded (StreamState.marketChange pt)
      (fun row => ∀ mc ∈ row.asObj, ChangeFits mc) fun s row =>
      (row.asObj.map (Change.mk pt)).elim s s.changed := by
  have loop := runnerChange_guarded.foldlM_filterMap
  constructor
  · intro s row fits
    unfold StreamState.marketChange
    cases known : row.asObj with
    | none => rfl
    | some mc =>
      have fits := changeFits_iff.mp (fits mc known)
      simp only [Option.map_some, Option.elim_some, StreamState.changed, runnerChanges]
      cases rows : (mc.get "rc".toList).asArr with
      | none => rfl
      | some changes =>
        rw [rows] at fits
        simp only [loop.ok _ changes fits, bind, Except.bind, pure, Except.pure, Option.getD_some]
        rfl
  · intro s row large
    unfold StreamState.marketChange
    cases known : row.asObj with
    | none => exact absurd (fun _ there => by cases known.symm.trans there) large
    | some mc =>
      have large : ¬ ChangeFits mc :=
        fun fits => large fun _ there => Option.some.inj (known.symm.trans there) ▸ fits
      rw [changeFits_iff] at large
      cases rows : (mc.get "rc".toList).asArr with
      | none =>
        rw [rows] at large
        exact absurd (fun _ inside => by cases inside) large
      | some changes =>
        rw [rows] at large
        obtain ⟨e, raised⟩ := loop.error (s.marked pt mc).ladders changes large
        exact ⟨e, by simp only [rows, raised, bind, Except.bind]⟩

theorem line_guarded :
    Guarded StreamState.line LineFits fun s text =>
      (lineChanges text).foldl StreamState.changed s := by
  constructor
  · intro s text fits
    obtain ⟨decodes, fits⟩ := fits
    unfold StreamState.line
    unfold lineChanges at fits ⊢
    split
    · rfl
    · rename_i written
      rw [if_neg written] at fits
      cases read : Readers.loads text with
      | error fault =>
        cases fault with
        | notJson => rfl
        | unread | raised => exact absurd (decodes written) (by simp [read])
      | ok msg =>
        cases object : msg.asObj with
        | none => simp only [object]; rfl
        | some msg =>
          simp only [read, object] at fits ⊢
          refine ((marketChange_guarded _).foldlM_filterMap).ok s _ fun row inside mc known => ?_
          exact fits ⟨_, mc⟩ (List.mem_filterMap.mpr ⟨row, inside, by rw [known]; rfl⟩)
  · intro s text large
    unfold LineFits Decodes lineChanges at large
    unfold StreamState.line
    split
    · rename_i blank
      exact absurd ⟨fun written => absurd blank written, by simp [blank]⟩ large
    · rename_i written
      rw [if_neg written] at large
      cases read : Readers.loads text with
      | error fault =>
        cases fault with
        | notJson => exact absurd ⟨by simp [read], by simp [read]⟩ large
        | unread | raised => exact ⟨.loads, rfl⟩
      | ok msg =>
        cases object : msg.asObj with
        | none => exact absurd ⟨by simp [read], by simp [read, object]⟩ large
        | some msg =>
          simp only [read, object] at large ⊢
          refine ((marketChange_guarded _).foldlM_filterMap).error s _ fun fits => ?_
          apply large
          refine ⟨by simp, fun c inside => ?_⟩
          obtain ⟨row, listed, known⟩ := List.mem_filterMap.mp inside
          obtain ⟨mc, object, rfl⟩ := Option.map_eq_some_iff.mp known
          exact fits row listed mc object

/-- The parser up to the last line. -/
theorem lines_guarded :
    Guarded (fun s (lines : List Str) => lines.foldlM StreamState.line s)
      (fun lines => ∀ text ∈ lines, LineFits text)
      fun s lines => (marketChanges lines).foldl StreamState.changed s := by
  apply line_guarded.foldlM.congr
  intro s lines
  rw [marketChanges, List.foldl_flatMap]

/-! The state after a list of changes. -/

def beforePlay (changes : List Change) : List Change := changes.takeWhile fun c => !c.turns

def laddersAfter (changes : List Change) : Dict Int RunnerLadder :=
  laddered Dict.empty (changes.flatMap fun c => runnerChanges c.mc)

theorem changed_eq (s : StreamState) (c : Change) :
    s.changed c =
      { marketId := c.marketId.or s.marketId
        latestDef := c.definition.or s.latestDef
        ladders := laddered s.ladders (runnerChanges c.mc)
        preInplay := s.preInplay.or (if c.turns then some (pricesNow s.ladders) else none)
        inPlayUtc := if c.turns && s.preInplay.isNone then epochMsToUtc c.pt
          else s.inPlayUtc } := by
  have same : s.marked c.pt c.mc =
      { marketId := c.marketId.or s.marketId
        latestDef := c.definition.or s.latestDef
        ladders := s.ladders
        preInplay := s.preInplay.or (if c.turns then some (pricesNow s.ladders) else none)
        inPlayUtc := if c.turns && s.preInplay.isNone then epochMsToUtc c.pt
          else s.inPlayUtc } := by
    have named : s.named c.mc = { s with marketId := c.marketId.or s.marketId } := by
      unfold StreamState.named Change.marketId
      split <;> rfl
    unfold StreamState.marked Change.turns Change.definition
    rw [named]
    cases (c.mc.get "marketDefinition".toList).asObj with
    | none => simp
    | some mdef =>
      unfold StreamState.defined
      by_cases turns : StreamState.inPlay mdef <;> cases s.preInplay <;> simp [turns]
  unfold StreamState.changed
  rw [same]

omit [Readers] in
theorem beforePlay_turn {before after : List Change} {c : Change}
    (calm : ∀ x ∈ before, ¬ x.turns) (turns : c.turns) :
    beforePlay (before ++ c :: after) = before := by
  unfold beforePlay
  rw [List.takeWhile_append_of_pos (by simpa using calm)]
  simp [turns]

omit [Readers] in
theorem beforePlay_calm {changes : List Change} (calm : ∀ x ∈ changes, ¬ x.turns) :
    beforePlay changes = changes :=
  List.takeWhile_eq_self_iff.mpr (by simpa using calm)

/-- The state is read off the changes: the last id and definition, and what stood at the first turn.
-/
theorem state_after (changes : List Change) :
    changes.foldl StreamState.changed StreamState.start =
      { marketId := (changes.filterMap Change.marketId).getLast?
        latestDef := (changes.filterMap Change.definition).getLast?
        ladders := laddersAfter changes
        preInplay := (changes.find? Change.turns).map fun _ =>
          pricesNow (laddersAfter (beforePlay changes))
        inPlayUtc := (changes.find? Change.turns).bind fun c => epochMsToUtc c.pt } := by
  induction changes using List.reverseRecOn with
  | nil => rfl
  | append_singleton changes c ih =>
    rw [List.foldl_append, List.foldl_cons, List.foldl_nil, ih, changed_eq]
    have ladders : laddersAfter (changes ++ [c]) =
        laddered (laddersAfter changes) (runnerChanges c.mc) := by
      unfold laddersAfter laddered
      rw [List.flatMap_append, List.foldl_append, List.flatMap_singleton]
    have last {α : Type} (f : Change → Option α) :
        ((changes ++ [c]).filterMap f).getLast? = (f c).or (changes.filterMap f).getLast? := by
      rw [List.filterMap_append, List.getLast?_append]
      cases value : f c <;> simp [value]
    rw [last, last, ladders, List.find?_append]
    cases turned : changes.find? Change.turns with
    | some turn =>
      obtain ⟨turns, before, after, rfl, calm⟩ := List.find?_eq_some_iff_append.mp turned
      have calm : ∀ x ∈ before, ¬ x.turns := by simpa using calm
      rw [List.append_assoc, List.cons_append, beforePlay_turn calm turns,
        beforePlay_turn calm turns]
      simp
    | none =>
      have calm := List.find?_eq_none.mp turned
      by_cases turns : c.turns
      · rw [beforePlay_turn calm turns]
        simp [turns]
      · simp [turns]

end
end SharpEvPicks.Ingestion
