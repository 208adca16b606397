import SharpEvPicks.Ingestion.PinnacleArcadia
import SharpEvPicks.Python.Lookups

/-! Every version that the gate holds is archived, unless a write is cancelled in between. -/
namespace SharpEvPicks.Ingestion.Arcadia

open Python Pipeline Transition

/-- The market that a quote was read for. -/
def marketOf (r : Str × MarketQuote) : GateKey := gateKey r.1 r.2

/-- A market was read at this version, and the rows of that reading are written. -/
def Holds (read : List (Str × MarketQuote)) (s : CaptureState) (key : GateKey) (version : Int) :
    Prop :=
  ∃ r ∈ read, marketOf r = key ∧ r.2.version = version ∧ ∀ row ∈ r.2.snapshots,
    (r.1, row) ∈ s.rows

def Backed (read : List (Str × MarketQuote)) (s : CaptureState) : Prop :=
  ∀ key version, s.seenVersion.get? key = some version → Holds read s key version

/-- The versions of a market do not fall from one reading to the next. -/
def Rising (read : List (Str × MarketQuote)) : Prop :=
  read.Pairwise fun a b => marketOf a = marketOf b → a.2.version ≤ b.2.version

/-- The quotes that a step reads. -/
def readings : CaptureStep → List (Str × MarketQuote)
  | .sport liveIds pass =>
    ((slateOf liveIds pass.sport pass.fetched).elim [] Slate.quotes).map (pass.sport, ·)
  | .cancelled liveIds sport fetched =>
    ((slateOf liveIds sport fetched).elim [] Slate.quotes).map (sport, ·)

/-- What a pass reads and is not written yet, it hands to the write. -/
def Emits (read : List (Str × MarketQuote)) (s : CaptureState) (liveIds : Option (List Nat))
    (pass : SportPass) : Prop :=
  ∀ slate ∈ slateOf liveIds pass.sport pass.fetched, ∀ q ∈ slate.quotes,
    unseen < q.version → ¬ Holds read s (gateKey pass.sport q) q.version →
      ∃ sent ∈ slate.quotes, gateKey pass.sport sent = gateKey pass.sport q ∧
        sent.version = q.version ∧
        ∀ row ∈ sent.snapshots, row ∈ (selectFresh s.seenVersion pass.sport slate).fresh

variable (cap : Capture)

/-- What is new reaches a write, and the write is not cancelled. -/
def Kept (s : CaptureState) : CaptureStep → Prop
  | .sport liveIds pass => cap.sessionFactory ∨
      ∀ slate ∈ slateOf liveIds pass.sport pass.fetched,
        (selectFresh s.seenVersion pass.sport slate).fresh = []
  | .cancelled liveIds sport fetched =>
      ∀ slate ∈ slateOf liveIds sport fetched,
        (selectFresh s.seenVersion sport slate).fresh = []

def Cycle.steps (c : Cycle) : List CaptureStep :=
  if cap.client then
    c.passes.map (.sport c.liveIds) ++
      match c.cut with
      | some (.persisting sport fetched) => [.cancelled c.liveIds sport fetched]
      | _ => []
  else []

variable {cap} {sport : Str} {slate : Slate} {read : List (Str × MarketQuote)} {s : CaptureState}

/-! What the gate lets through. -/

/-- The quotes that `_select_fresh` lets through. -/
def through (seenVersion : Dict GateKey Int) (sport : Str) (quotes : List MarketQuote) :
    List MarketQuote :=
  (quotes.foldl (ChangeGate.offerNewer unseen (gateKey sport) MarketQuote.version)
    (seenVersion, [])).2

structure Passes (seenVersion : Dict GateKey Int) (sport : Str) (slate : Slate) (b : Selected)
    (sent : List MarketQuote) : Prop where
  fresh : b.fresh = sent.flatMap MarketQuote.snapshots
  teams : b.teams = sent.map MarketQuote.eventId
  known : ∀ q ∈ sent, q ∈ slate.quotes
  brought : ChangeGate.Brought (gateKey sport) MarketQuote.version seenVersion b.seenVersion sent

theorem get?_evict {seenVersion : Dict GateKey Int} {key : GateKey} {version : Int}
    (kept : (evict seenVersion).get? key = some version) : seenVersion.get? key = some version := by
  unfold evict at kept
  split at kept
  · exact Dict.get?_drop kept
  · exact kept

/-- The loop is the gate over versions, with the snapshots and the events of what comes through. -/
theorem foldl_selectQuote {matchups : List Str} (quotes : List MarketQuote)
    (listed : ∀ q ∈ quotes, q.eventId ∈ matchups)
    (state : Dict GateKey Int × List MarketQuote) :
    quotes.foldl (selectQuote sport matchups)
        ⟨state.1, state.2.flatMap MarketQuote.snapshots, state.2.map MarketQuote.eventId⟩ =
      let after := quotes.foldl
        (ChangeGate.offerNewer unseen (gateKey sport) MarketQuote.version) state
      ⟨after.1, after.2.flatMap MarketQuote.snapshots, after.2.map MarketQuote.eventId⟩ := by
  induction quotes generalizing state with
  | nil => rfl
  | cons q quotes ih =>
    obtain ⟨first, rest⟩ := List.forall_mem_cons.mp listed
    rw [List.foldl_cons, List.foldl_cons, ← ih rest]
    congr 1
    unfold selectQuote ChangeGate.offerNewer
    by_cases old : q.version ≤ (state.1.get? (gateKey sport q)).getD unseen
    · simp only [if_pos old]
    · simp only [if_neg old, if_pos first, List.flatMap_append, List.map_append,
        List.flatMap_singleton, List.map_singleton]

theorem selectFresh_passes (seenVersion : Dict GateKey Int) (sport : Str) (slate : Slate) :
    Passes seenVersion sport slate (selectFresh seenVersion sport slate)
      (through seenVersion sport slate.quotes) := by
  have loop := @foldl_selectQuote sport slate.matchups slate.quotes slate.listed (seenVersion, [])
  simp only [List.flatMap_nil, List.map_nil] at loop
  have start : ChangeGate.Brought (gateKey sport) MarketQuote.version seenVersion
      (seenVersion, ([] : List MarketQuote)).1 (seenVersion, ([] : List MarketQuote)).2 := .refl
  unfold selectFresh
  rw [loop]
  constructor
  · rfl
  · rfl
  · intro q inside
    exact ((ChangeGate.offerNewer_gates.mem slate.quotes _).2 q inside).resolve_left
      List.not_mem_nil
  · exact (ChangeGate.offerNewer_gates.broughtAll slate.quotes start).mono
      (fun _ _ kept => get?_evict kept) fun _ inside => inside

theorem Passes.none {seenVersion : Dict GateKey Int} {b : Selected} {sent : List MarketQuote}
    (passes : Passes seenVersion sport slate b sent) (nothing : b.fresh = []) : sent = [] := by
  cases sent with
  | nil => rfl
  | cons q sent =>
    rw [passes.fresh, List.flatMap_cons, List.append_eq_nil_iff] at nothing
    exact absurd nothing.1 q.priced

/-! The steps. -/

theorem Holds.mono {key : GateKey} {version : Int} (held : Holds read s key version)
    {read' : List (Str × MarketQuote)} {s' : CaptureState} (longer : ∀ r ∈ read, r ∈ read')
    (more : ∀ row ∈ s.rows, row ∈ s'.rows) : Holds read' s' key version := by
  obtain ⟨r, inside, market, same, rows⟩ := held
  exact ⟨r, longer r inside, market, same, fun row listed => more _ (rows row listed)⟩

theorem Backed.calm {b : Selected} (backed : Backed read s)
    (passes : Passes s.seenVersion sport slate b (through s.seenVersion sport slate.quotes))
    (nothing : b.fresh = []) (later : List (Str × MarketQuote)) :
      Backed (read ++ later) { s with seenVersion := b.seenVersion } := by
  intro key version held
  obtain old | ⟨q, sent, -⟩ := passes.brought key version held
  · exact (backed key version old).mono (fun _ inside => List.mem_append_left _ inside)
        fun _ row =>
      row
  · rw [passes.none nothing] at sent
    cases sent

theorem Backed.captureSlate {cap : Capture} (backed : Backed read s)
    (kept : cap.sessionFactory ∨ (selectFresh s.seenVersion sport slate).fresh = [])
    (persisted : Persisted) :
    Backed (read ++ slate.quotes.map (sport, ·)) (captureSlate cap s sport slate persisted).1 := by
  have passes := selectFresh_passes s.seenVersion sport slate
  have prior (key : GateKey) : (gatePrior s.seenVersion sport slate.quotes).get? key =
      if key ∈ slate.quotes.map (gateKey sport) then some (s.seenVersion.get? key) else none := by
    rw [gatePrior, Dict.get?_comprehension (gateKey sport) s.seenVersion.get?]
    congr
  have touched : ∀ q ∈ through s.seenVersion sport slate.quotes,
      ((gatePrior s.seenVersion sport slate.quotes).get? (gateKey sport q)).isSome := by
    intro q inside
    rw [prior, if_pos (List.mem_map_of_mem (passes.known q inside))]
    rfl
  have earlier : ∀ key version,
      (gatePrior s.seenVersion sport slate.quotes).get? key = some (some version) →
      s.seenVersion.get? key = some version := by
    intro key version noted
    rw [prior] at noted
    split at noted
    · exact Option.some.inj noted
    · cases noted
  unfold Arcadia.captureSlate
  generalize selectFresh s.seenVersion sport slate = b at passes kept
  simp only
  by_cases nothing : b.fresh = []
  · rw [if_pos (.inl nothing)]
    exact backed.calm passes nothing _
  have session : cap.sessionFactory = true := kept.resolve_right nothing
  rw [if_neg (by simp [nothing, session])]
  have longer : ∀ r ∈ read, r ∈ read ++ slate.quotes.map (sport, ·) :=
    fun _ inside => List.mem_append_left _ inside
  cases persisted with
  | raised =>
    intro key version held
    simp only [ChangeGate.get?_restore] at held
    exact (backed key version (passes.brought.restored touched earlier held)).mono longer fun _
      row => row
  | returned rows failed =>
    intro key version held
    simp only [ChangeGate.get?_restore, Dict.get?_filter] at held
    have more : ∀ row ∈ s.rows, row ∈ s.rows ++ writtenRows sport b failed :=
      fun _ row => List.mem_append_left _ row
    by_cases rolled : key.2.1 ∈ failed
    · have same : ((gatePrior s.seenVersion sport slate.quotes).get? key).filter
          (fun _ => decide (key.2.1 ∈ failed)) =
          (gatePrior s.seenVersion sport slate.quotes).get? key := by
        cases (gatePrior s.seenVersion sport slate.quotes).get? key <;> simp [Option.filter, rolled]
      rw [same] at held
      exact (backed key version (passes.brought.restored touched earlier held)).mono longer more
    · have same : ((gatePrior s.seenVersion sport slate.quotes).get? key).filter
          (fun _ => decide (key.2.1 ∈ failed)) = none := by
        simp [rolled]
      rw [same] at held
      obtain old | ⟨q, sent, rfl, rfl⟩ := passes.brought key version held
      · exact (backed key version old).mono longer more
      · refine ⟨(sport, q), List.mem_append_right _ (List.mem_map_of_mem (passes.known q sent)),
          rfl, rfl, ?_⟩
        intro row listed
        apply List.mem_append_right
        have event : q.eventId ∈ b.teams := passes.teams ▸ List.mem_map_of_mem sent
        have inside : row ∈ b.fresh := passes.fresh ▸ List.mem_flatMap.mpr ⟨q, sent, listed⟩
        refine List.mem_map.mpr ⟨row, List.mem_filter.mpr ⟨inside, ?_⟩, rfl⟩
        rw [q.own row listed]
        exact decide_eq_true ⟨event, rolled⟩

theorem captureSport_slate (cap : Capture) (liveIds : Option (List Nat)) (s : CaptureState)
    (pass : SportPass) :
    (captureSport cap liveIds s pass).1 =
      (slateOf liveIds pass.sport pass.fetched).elim s fun slate =>
        (Arcadia.captureSlate cap s pass.sport slate pass.persisted).1 := by
  unfold captureSport slateOf
  cases sportIds.get? pass.sport with
  | none => rfl
  | some id =>
    by_cases live : ∀ ids ∈ liveIds, id ∈ ids
    · simp only [if_pos live]
      cases pass.fetched with
      | failed => rfl
      | invalid => rfl
      | slate slate => simp only [if_pos live, Option.elim_some]
    · simp only [if_neg live]
      cases pass.fetched with
      | failed => rfl
      | invalid => rfl
      | slate slate => simp only [if_neg live, Option.elim_none]

theorem Backed.step {step : CaptureStep} (backed : Backed read s) (kept : Kept cap s step) :
    Backed (read ++ readings step) (captureStep cap s step) := by
  cases step with
  | sport liveIds pass =>
    simp only [captureStep, captureSport_slate, readings]
    cases read' : slateOf liveIds pass.sport pass.fetched with
    | none => simpa using backed
    | some slate =>
      exact backed.captureSlate (kept.imp_right fun calm => calm slate read') pass.persisted
  | cancelled liveIds sport fetched =>
    simp only [captureStep, cancelSport, readings]
    cases read' : slateOf liveIds sport fetched with
    | none => simpa using backed
    | some slate => exact backed.calm (selectFresh_passes _ _ _) (kept slate read') _

theorem Backed.run {steps : List CaptureStep} (backed : Backed read s)
    (kept : Along (captureStep cap) (Kept cap) s steps) :
    Backed (read ++ steps.flatMap readings) (run (captureStep cap) s steps) := by
  induction steps generalizing read s with
  | nil => simpa using backed
  | cons step steps ih =>
    rw [List.flatMap_cons, ← List.append_assoc]
    exact ih (backed.step kept.1) kept.2

theorem Backed.emits (backed : Backed read s) {liveIds : Option (List Nat)} {pass : SportPass}
    (rising : Rising (read ++ readings (.sport liveIds pass))) : Emits read s liveIds pass := by
  intro slate fetched q inside young unwritten
  have passes := selectFresh_passes s.seenVersion pass.sport slate
  simp only [readings, Option.mem_def.mp fetched, Option.elim_some] at rising
  obtain ⟨-, within, across⟩ := List.pairwise_append.mp rising
  have above : ∀ v, s.seenVersion.get? (gateKey pass.sport q) = some v → v ≤ q.version := by
    intro v held
    obtain ⟨r, earlier, market, rfl, -⟩ := backed _ v held
    exact across r earlier (pass.sport, q) (List.mem_map_of_mem inside) market
  obtain held | ⟨sent, there, market, version⟩ :=
    ChangeGate.Brought.newer_through inside (List.pairwise_map.mp within) young above
  · exact absurd (backed _ _ held) unwritten
  · refine ⟨sent, passes.known sent there, market, version, fun row listed => ?_⟩
    rw [passes.fresh]
    exact List.mem_flatMap.mpr ⟨sent, there, listed⟩

theorem captureOnce_steps (s : CaptureState) (c : Cycle) :
    (captureOnce cap s c).1 = run (captureStep cap) s (c.steps cap) := by
  have passes (liveIds : Option (List Nat)) (passes : List SportPass)
      (acc : CaptureState × Dict Str Nat) :
      (passes.foldl (fun acc pass =>
        ((captureSport cap liveIds acc.1 pass).1,
          (captureSport cap liveIds acc.1 pass).2.elim acc.2 (acc.2.set pass.sport))) acc).1 =
        run (captureStep cap) acc.1 (passes.map (.sport liveIds)) := by
    induction passes generalizing acc with
    | nil => rfl
    | cons pass passes ih => exact ih _
  unfold captureOnce Cycle.steps
  cases cap.client with
  | false => rfl
  | true =>
    simp only [if_true]
    rw [run_append, ← passes c.liveIds c.passes (s, Dict.empty)]
    cases c.cut with
    | none => rfl
    | some cut => cases cut <;> rfl

theorem captures_steps (s : CaptureState) (cycles : List Cycle) :
    run (fun s c => (captureOnce cap s c).1) s cycles = run (captureStep cap) s
      (cycles.flatMap (Cycle.steps cap)) := by
  induction cycles generalizing s with
  | nil => rfl
  | cons c cycles ih => rw [run_cons, ih, captureOnce_steps, List.flatMap_cons, run_append]

/-- As long as no write is cancelled that has something new, the gate holds archived versions only,
and the next cycle hands every version that is not archived to a write. -/
theorem archive_keeps_lines (cap : Capture) (rows : List (Str × Snapshot)) (cycles : List Cycle)
    (kept : Along (captureStep cap) (Kept cap)
      ⟨Dict.empty, rows⟩ (cycles.flatMap (Cycle.steps cap))) :
    Backed ((cycles.flatMap (Cycle.steps cap)).flatMap readings)
        (run (fun s c => (captureOnce cap s c).1) ⟨Dict.empty, rows⟩ cycles) ∧
      ∀ (liveIds : Option (List Nat)) (before : List SportPass) (pass : SportPass),
        cap.sessionFactory →
        let cycles' := cycles ++ [{ liveIds, passes := before }]
        let read := (cycles'.flatMap (Cycle.steps cap)).flatMap readings
        Rising (read ++ readings (.sport liveIds pass)) →
          Emits read (run (fun s c => (captureOnce cap s c).1)
            ⟨Dict.empty, rows⟩ cycles') liveIds
            pass := by
  have start : Backed [] ⟨Dict.empty, rows⟩ := by
    intro key version held
    cases held
  rw [captures_steps]
  refine ⟨start.run kept, fun liveIds before pass session => ?_⟩
  intro cycles' read rising
  have calm : Along (captureStep cap) (Kept cap)
      ⟨Dict.empty, rows⟩ (cycles'.flatMap (Cycle.steps cap)) := by
    rw [List.flatMap_append, along_append]
    refine ⟨kept, Along.of_forall fun step inside s => ?_⟩
    rw [List.flatMap_singleton, Cycle.steps, List.append_nil] at inside
    split at inside
    · obtain ⟨pass, -, rfl⟩ := List.mem_map.mp inside
      exact .inl session
    · cases inside
  rw [captures_steps]
  exact (start.run calm).emits rising

/-! A cycle that is cancelled while its rows are written. -/

def arsenalLine : Snapshot where
  eventId := "100".toList
  bookmaker := "Pinnacle".toList
  market := .h2h
  selection := "Arsenal".toList
  decimalOdds := 2
  liquidity := none
  capturedAt := 0
  ingestedAt := 0
  marketDetail := none
  odds_gt := even_gt
  odds_le := even_le
  liquidity_nonneg := noLiquidity
  not_future := noSkew

theorem arsenalLine_own : ∀ s ∈ [arsenalLine], s.eventId = "100".toList := by decide

def arsenalQuote (version : Int) : MarketQuote :=
  ⟨"100".toList, "s;0;m".toList, version, [arsenalLine], List.cons_ne_nil _ _, arsenalLine_own⟩

theorem arsenalQuote_listed (version : Int) :
    ∀ q ∈ [arsenalQuote version], q.eventId ∈ ["100".toList] := by
  intro q inside
  rw [List.mem_singleton.mp inside]
  exact List.mem_singleton_self _

def arsenalFetched (version : Int) : Fetched :=
  .slate ⟨["100".toList], [arsenalQuote version], arsenalQuote_listed version⟩

def arsenalPass (version : Int) : SportPass :=
  ⟨"soccer".toList, arsenalFetched version, .returned 1 []⟩

def arsenalCut : Cycle :=
  { passes := [], cut := some (.persisting "soccer".toList (arsenalFetched 7)) }

def soccerCapture : Capture := { sports := ["soccer".toList] }

/-- Version 7 is archived, then version 8 is handed to the write. -/
theorem arsenal_keeps_lines :
    Backed ([({ passes := [arsenalPass 7] } : Cycle)].flatMap (Cycle.steps soccerCapture) |>.flatMap
      readings)
        (run (fun s c => (captureOnce soccerCapture s c).1)
          ⟨Dict.empty, []⟩ [{ passes := [arsenalPass 7] }]) ∧
      Emits [("soccer".toList, arsenalQuote 7)]
        (run (fun s c => (captureOnce soccerCapture s c).1) ⟨Dict.empty, []⟩
          [{ passes := [arsenalPass 7] }, { passes := [] }]) none (arsenalPass 8) := by
  obtain ⟨backed, emits⟩ :=
    archive_keeps_lines soccerCapture [] [{ passes := [arsenalPass 7] }] ⟨.inl rfl, trivial⟩
  exact ⟨backed, emits none [] (arsenalPass 8) rfl (List.pairwise_pair.mpr fun _ => by decide)⟩

/-- The gate keeps the version whose write was cancelled, and the next cycle writes nothing. -/
theorem archive_keeps_lines_fails :
    (captureOnce soccerCapture ⟨Dict.empty, []⟩ arsenalCut).1.seenVersion.get?
        (gateKey "soccer".toList (arsenalQuote 7)) = some 7 ∧
      (captureOnce soccerCapture ⟨Dict.empty, []⟩ arsenalCut).1.rows = [] ∧
      ¬ Backed [("soccer".toList, arsenalQuote 7)]
        (captureOnce soccerCapture ⟨Dict.empty, []⟩ arsenalCut).1 ∧
      (captureOnce soccerCapture (captureOnce soccerCapture ⟨Dict.empty, []⟩ arsenalCut).1
        { passes := [arsenalPass 7] }).1.rows = [] := by
  have held : (captureOnce soccerCapture ⟨Dict.empty, []⟩ arsenalCut).1.seenVersion.get?
      (gateKey "soccer".toList (arsenalQuote 7)) = some 7 := by decide
  have unwritten : (captureOnce soccerCapture ⟨Dict.empty, []⟩ arsenalCut).1.rows = [] := by
    decide
  refine ⟨held, unwritten, fun backed => ?_, by decide⟩
  obtain ⟨r, inside, -, -, rows⟩ := backed _ _ held
  rw [List.mem_singleton.mp inside, unwritten] at rows
  cases rows arsenalLine (List.mem_singleton_self _)

end SharpEvPicks.Ingestion.Arcadia
