import SharpEvPicks.Ingestion.BetfairExchange

/-! Every price that the gate holds is written, unless a cancellation comes between. -/
namespace SharpEvPicks.Ingestion

open Python Pipeline Transition

/-- A row with this price is written for the selection. -/
def CaptureState.Holds (s : CaptureState) (key : GateKey) (price : ℚ) : Prop :=
  ∃ row ∈ s.rows, row.1 = key.1 ∧ row.2.eventId = key.2.1 ∧ row.2.selection = key.2.2 ∧
    row.2.decimalOdds = price

def Backed (s : CaptureState) : Prop :=
  ∀ key price, s.seenPrice.get? key = some price → s.Holds key price

/-- What a pass reads and is not written yet, it hands to the write. -/
def Emits (s : CaptureState) (pass : SportPass) : Prop :=
  ∀ r ∈ pass.targets, ∀ snapshot ∈ r.snapshots.getD [],
    ¬ s.Holds (gateKey pass.sport r.eventId snapshot) snapshot.decimalOdds →
      ∃ sent ∈ (readTargets s.seenPrice pass.sport pass.targets).fresh,
        sent.eventId = r.eventId ∧
        sent.selection = snapshot.selection ∧ sent.decimalOdds = snapshot.decimalOdds

/-- Every price that is read is the one that the gate holds. -/
def Calm (sport : Str) : Batch → List TargetRead → Prop
  | _, [] => True
  | b, r :: rest =>
    (∀ s ∈ r.snapshots.getD [],
      b.seenPrice.get? (gateKey sport r.eventId s) = some s.decimalOdds) ∧
      Calm sport (readTarget sport b r) rest

/-- A cancelled sport has read no price that the gate did not hold. -/
def CutsCalm (s : CaptureState) : CaptureStep → Prop
  | .sport _ => True
  | .cancelled sport targets => Calm sport (.start s.seenPrice) targets

def Cycle.steps (c : Cycle) : List CaptureStep :=
  c.passes.map .sport ++ c.cancelled.toList.map fun cut => .cancelled cut.1 cut.2

/-! What the targets of a sport leave. -/

def rowKey (sport : Str) (s : Snapshot) : GateKey := (sport, s.eventId, s.selection)

variable {before : Dict GateKey ℚ} {sport : Str} {b : Batch}

structure Noted (before : Dict GateKey ℚ) (sport : Str) (b : Batch) : Prop where
  brought : ChangeGate.Brought (rowKey sport) Snapshot.decimalOdds before b.seenPrice b.fresh
  touched : ∀ s ∈ b.fresh, (b.gatePrior.get? (rowKey sport s)).isSome
  prior : ∀ key price, b.gatePrior.get? key = some (some price) → before.get? key = some price

theorem notePrior_spec (seenPrice : Dict GateKey ℚ) (keys : List GateKey)
    (prior : Dict GateKey (Option ℚ)) (key : GateKey) :
    (keys.foldl (notePrior seenPrice) prior).get? key =
      (prior.get? key).or (if key ∈ keys then some (seenPrice.get? key) else none) := by
  induction keys generalizing prior with
  | nil => simp
  | cons first keys ih =>
    have noted : (notePrior seenPrice prior first).get? key =
        (prior.get? key).or (if key = first then some (seenPrice.get? key) else none) := by
      unfold notePrior
      split
      · rename_i known
        by_cases here : key = first
        · obtain ⟨old, found⟩ := Option.isSome_iff_exists.mp known
          simp [here, found]
        · simp [here]
      · rename_i unknown
        rw [Dict.get?_set]
        by_cases here : key = first
        · simp only [Option.not_isSome_iff_eq_none] at unknown
          simp [here, unknown]
        · simp [here]
    rw [List.foldl_cons, ih, noted, Option.or_assoc]
    congr 1
    by_cases here : key = first <;> simp [here]

theorem get?_evict {seenPrice : Dict GateKey ℚ} {key : GateKey} {price : ℚ}
    (kept : (evict seenPrice).get? key = some price) : seenPrice.get? key = some price := by
  unfold evict at kept
  split at kept
  · exact Dict.get?_drop kept
  · exact kept

theorem selectFresh_spec {seenPrice : Dict GateKey ℚ} {eventId : Str} {snapshots : List Snapshot}
    (own : ∀ s ∈ snapshots, s.eventId = eventId) :
    ChangeGate.Brought (rowKey sport) Snapshot.decimalOdds seenPrice
        (selectFresh seenPrice sport eventId snapshots).1
        (selectFresh seenPrice sport eventId snapshots).2 ∧
      (∀ s ∈ (selectFresh seenPrice sport eventId snapshots).2, s ∈ snapshots) ∧
      ∀ s ∈ snapshots, seenPrice.get? (rowKey sport s) = some s.decimalOdds ∨
        ∃ sent ∈ (selectFresh seenPrice sport eventId snapshots).2,
          rowKey sport sent = rowKey sport s ∧ sent.decimalOdds = s.decimalOdds := by
  have keys : snapshots.foldl (ChangeGate.offer (gateKey sport eventId) Snapshot.decimalOdds)
      (seenPrice, []) =
      snapshots.foldl (ChangeGate.offer (rowKey sport) Snapshot.decimalOdds) (seenPrice, []) := by
    apply List.foldl_ext
    intro state s inside
    unfold ChangeGate.offer gateKey rowKey
    rw [own s inside]
  have start : ChangeGate.Brought (rowKey sport) Snapshot.decimalOdds seenPrice
      (seenPrice, ([] : List Snapshot)).1 (seenPrice, ([] : List Snapshot)).2 := .refl
  simp only [selectFresh]
  rw [keys]
  refine ⟨(ChangeGate.offer_gates.broughtAll snapshots start).mono
    (fun key price kept => get?_evict kept) fun _ inside => inside, ?_, ?_⟩
  · intro s inside
    obtain none | known := (ChangeGate.offer_gates.mem snapshots (seenPrice, [])).2 s inside
    · cases none
    · exact known
  · intro s inside
    exact start.through_all inside

theorem Noted.read (noted : Noted before sport b) (r : TargetRead) :
    Noted before sport (readTarget sport b r) := by
  unfold readTarget
  split
  · exact noted
  · exact noted
  · rename_i snapshots _ read
    have own : ∀ s ∈ snapshots, s.eventId = r.eventId := by
      have own := r.own
      rwa [read] at own
    obtain ⟨brought, known, -⟩ := @selectFresh_spec sport b.seenPrice r.eventId snapshots own
    constructor
    · exact noted.brought.trans brought
    · intro s inside
      simp only [notePrior_spec]
      obtain old | new := List.mem_append.mp inside
      · obtain ⟨v, found⟩ := Option.isSome_iff_exists.mp (noted.touched s old)
        rw [found]
        rfl
      · have key : rowKey sport s ∈ snapshots.map (gateKey sport r.eventId) :=
          List.mem_map.mpr ⟨s, known s new, by rw [gateKey, rowKey, own s (known s new)]⟩
        rw [if_pos key]
        cases b.gatePrior.get? (rowKey sport s) <;> rfl
    · intro key price there
      simp only [notePrior_spec, Option.or_eq_some_iff] at there
      obtain old | ⟨untouched, there⟩ := there
      · exact noted.prior key price old
      · split at there
        · obtain old | ⟨s, inside, rfl, -⟩ := noted.brought key price (Option.some.inj there)
          · exact old
          · have touched := noted.touched s inside
            rw [untouched] at touched
            cases touched
        · cases there

theorem readTargets_noted (seenPrice : Dict GateKey ℚ) (sport : Str) (targets : List TargetRead) :
    Noted seenPrice sport (readTargets seenPrice sport targets) := by
  have start : Noted seenPrice sport (.start seenPrice) :=
    ⟨.refl, fun _ none => (by cases none), fun _ _ none => by cases none⟩
  unfold readTargets
  generalize Batch.start seenPrice = b at start ⊢
  induction targets generalizing b with
  | nil => exact start
  | cons r targets ih => exact ih _ (start.read r)

/-- After a rollback of all keys the gate holds what it held before. -/
theorem Noted.restored (noted : Noted before sport b) {key : GateKey} {price : ℚ}
    (held : ((b.gatePrior.get? key).getD (b.seenPrice.get? key)) = some price) :
      before.get? key = some price :=
  noted.brought.restored noted.touched noted.prior held

/-! The steps. -/

theorem CaptureState.Holds.mono {s : CaptureState} {key : GateKey} {price : ℚ}
    (held : s.Holds key price) (seenPrice : Dict GateKey ℚ) (more : List (Str × Snapshot)) :
      CaptureState.Holds ⟨seenPrice, s.rows ++ more⟩ key price := by
  obtain ⟨row, inside, same⟩ := held
  exact ⟨row, List.mem_append_left _ inside, same⟩

theorem holds_written {s : CaptureState} {seenPrice : Dict GateKey ℚ} {fresh : List Snapshot}
    {lands : Str → Bool} {row : Snapshot} (inside : row ∈ fresh) (landed : lands row.eventId) :
    CaptureState.Holds ⟨seenPrice, s.rows ++ writtenRows sport fresh lands⟩
      (rowKey sport row) row.decimalOdds :=
  ⟨(sport, row), List.mem_append_right _ (List.mem_map.mpr ⟨row,
    List.mem_filter.mpr ⟨inside, landed⟩, rfl⟩),
    rfl, rfl, rfl, rfl⟩

theorem captureSport_backed {s : CaptureState} (backed : Backed s) (pass : SportPass) :
    Backed (captureSport s pass).1 := by
  unfold captureSport
  split
  · have noted := readTargets_noted s.seenPrice pass.sport pass.targets
    generalize readTargets s.seenPrice pass.sport pass.targets = b at noted
    simp only
    split
    · rename_i none
      intro key price held
      obtain old | ⟨row, inside, -⟩ := noted.brought key price held
      · exact backed key price old
      · rw [none] at inside
        cases inside
    · split
      · intro key price held
        simp only [ChangeGate.get?_restore] at held
        exact (backed key price (noted.restored held)).mono _ _
      · rename_i rows failed _
        intro key price held
        simp only [ChangeGate.get?_restore, Dict.get?_filter] at held
        by_cases rolled : key.2.1 ∈ failed
        · have same : (b.gatePrior.get? key).filter (fun _ => decide (key.2.1 ∈ failed)) =
              b.gatePrior.get? key := by
            cases b.gatePrior.get? key <;> simp [Option.filter, rolled]
          rw [same] at held
          exact (backed key price (noted.restored held)).mono _ _
        · have same : (b.gatePrior.get? key).filter (fun _ => decide (key.2.1 ∈ failed)) =
              none := by
            simp [rolled]
          rw [same] at held
          obtain old | ⟨row, inside, rfl, rfl⟩ := noted.brought key price held
          · exact (backed key price old).mono _ _
          · exact holds_written inside (decide_eq_true rolled)
  · exact backed

theorem calm_seenPrice {targets : List TargetRead} {b : Batch} (calm : Calm sport b targets)
    {key : GateKey} {price : ℚ}
    (held : (targets.foldl (readTarget sport) b).seenPrice.get? key = some price) :
      b.seenPrice.get? key = some price := by
  induction targets generalizing b with
  | nil => exact held
  | cons r targets ih =>
    obtain ⟨quiet, rest⟩ := calm
    have later := ih rest held
    unfold readTarget at later
    split at later
    · exact later
    · exact later
    · rename_i snapshots _ read
      rw [read] at quiet
      unfold selectFresh at later
      rw [ChangeGate.offerAll_held quiet] at later
      exact get?_evict later

theorem captureStep_backed {s : CaptureState} (backed : Backed s) (step : CaptureStep)
    (calm : CutsCalm s step) : Backed (captureStep s step) := by
  cases step with
  | sport pass => exact captureSport_backed backed pass
  | cancelled sport targets =>
    unfold captureStep cancelSport
    simp only
    split
    · exact fun key price held => backed key price (calm_seenPrice calm held)
    · exact backed

theorem fresh_grows (b : Batch) (targets : List TargetRead) {s : Snapshot}
    (inside : s ∈ b.fresh) : s ∈ (targets.foldl (readTarget sport) b).fresh := by
  induction targets generalizing b with
  | nil => exact inside
  | cons r targets ih =>
    apply ih
    unfold readTarget
    split
    · exact inside
    · exact inside
    · exact List.mem_append_left _ inside

theorem emits_of_backed {s : CaptureState} (backed : Backed s) (pass : SportPass) :
    Emits s pass := by
  intro r inside snapshot read unwritten
  have own : snapshot.eventId = r.eventId := r.own snapshot read
  have key : gateKey pass.sport r.eventId snapshot = rowKey pass.sport snapshot := by
    rw [gateKey, rowKey, own]
  rw [key] at unwritten
  suffices sent : ∃ sent ∈ (readTargets s.seenPrice pass.sport pass.targets).fresh,
      rowKey pass.sport sent = rowKey pass.sport snapshot ∧
      sent.decimalOdds = snapshot.decimalOdds by
    obtain ⟨sent, there, same, price⟩ := sent
    obtain ⟨-, same⟩ := Prod.ext_iff.mp same
    obtain ⟨event, selection⟩ := Prod.ext_iff.mp same
    exact ⟨sent, there, event.trans own, selection, price⟩
  obtain ⟨first, rest, split⟩ := List.append_of_mem inside
  have noted := readTargets_noted s.seenPrice pass.sport first
  unfold readTargets at noted ⊢
  rw [split, List.foldl_append, List.foldl_cons]
  generalize first.foldl (readTarget pass.sport) (.start s.seenPrice) = b at noted
  have sent : ∃ sent ∈ (readTarget pass.sport b r).fresh,
      rowKey pass.sport sent = rowKey pass.sport snapshot ∧
      sent.decimalOdds = snapshot.decimalOdds := by
    unfold readTarget
    split
    · rename_i none
      rw [none] at read
      cases read
    · rename_i none
      rw [none] at read
      cases read
    · rename_i snapshots _ returned
      rw [returned] at read
      have owned := r.own
      rw [returned] at owned
      obtain held | ⟨sent, through, same⟩ :=
        (@selectFresh_spec pass.sport b.seenPrice _ _ owned).2.2 snapshot read
      · -- the gate holds the price: it brought it in this pass, or it is written
        obtain old | ⟨sent, through, same⟩ := noted.brought _ _ held
        · exact absurd (backed _ _ old) unwritten
        · exact ⟨sent, List.mem_append_left _ through, same⟩
      · exact ⟨sent, List.mem_append_right _ through, same⟩
  obtain ⟨sent, through, same⟩ := sent
  exact ⟨sent, fresh_grows _ rest through, same⟩

/-! Runs. -/

theorem captureOnce_steps (s : CaptureState) (c : Cycle) :
    (captureOnce s c).1 = run captureStep s c.steps := by
  have passes (passes : List SportPass) (acc : CaptureState × Dict Str Nat) :
      (passes.foldl (fun acc pass =>
        ((captureSport acc.1 pass).1,
          (captureSport acc.1 pass).2.elim acc.2 (acc.2.set pass.sport))) acc).1 =
        run captureStep acc.1 (passes.map .sport) := by
    induction passes generalizing acc with
    | nil => rfl
    | cons pass passes ih => exact ih _
  unfold captureOnce Cycle.steps
  rw [run_append, ← passes c.passes (s, Dict.empty)]
  cases c.cancelled <;> rfl

theorem captures_steps (s : CaptureState) (cycles : List Cycle) :
    run (fun s c => (captureOnce s c).1) s cycles = run captureStep s
      (cycles.flatMap Cycle.steps) := by
  induction cycles generalizing s with
  | nil => rfl
  | cons c cycles ih => rw [run_cons, ih, captureOnce_steps, List.flatMap_cons, run_append]

/-- As long as no cancelled sport has read a new price, the gate holds written prices only, and
the next pass hands on what is not written. -/
theorem gate_backed (rows : List (Str × Snapshot)) (cycles : List Cycle)
    (calm : Along captureStep CutsCalm ⟨Dict.empty, rows⟩ (cycles.flatMap Cycle.steps)) :
    Backed (run (fun s c => (captureOnce s c).1) ⟨Dict.empty, rows⟩ cycles) ∧
      ∀ (passes : List SportPass) (pass : SportPass),
        Emits (run captureStep (run (fun s c => (captureOnce s c).1) ⟨Dict.empty, rows⟩ cycles)
          (passes.map .sport))
          pass := by
  have backed : Backed (run (fun s c => (captureOnce s c).1) ⟨Dict.empty, rows⟩ cycles) := by
    rw [captures_steps]
    exact calm.invariant (fun s step backed =>
      captureStep_backed backed step) fun key price none => by cases none
  refine ⟨backed, fun passes pass => emits_of_backed ?_ pass⟩
  generalize run (fun s c => (captureOnce s c).1) ⟨Dict.empty, rows⟩ cycles = s at backed
  induction passes generalizing s with
  | nil => exact backed
  | cons first passes ih => exact ih _ (captureSport_backed backed first)

/-! A cycle that is cancelled between two targets. -/

instance calmDecidable (sport : Str) : ∀ b targets, Decidable (Calm sport b targets)
  | _, [] => inferInstanceAs (Decidable True)
  | b, r :: rest => @instDecidableAnd _ _ _ (calmDecidable sport (readTarget sport b r) rest)

instance cutsCalmDecidable (s : CaptureState) : ∀ step, Decidable (CutsCalm s step)
  | .sport _ => inferInstanceAs (Decidable True)
  | .cancelled sport targets =>
    inferInstanceAs (Decidable (Calm sport (.start s.seenPrice) targets))

def arsenalBack : Snapshot where
  eventId := "oddsportal:1".toList
  bookmaker := "Betfair Exchange".toList
  market := .h2h
  selection := "Arsenal".toList
  decimalOdds := 2
  liquidity := none
  capturedAt := 0
  ingestedAt := 0
  marketDetail := some "1x2".toList
  odds_gt := even_gt
  odds_le := even_le
  liquidity_nonneg := noLiquidity
  not_future := noSkew

theorem arsenalBack_own :
    ∀ s ∈ (some [arsenalBack]).getD [], s.eventId = "oddsportal:1".toList := by decide +kernel

def arsenalRead : TargetRead := ⟨"oddsportal:1".toList, some [arsenalBack], arsenalBack_own⟩

def arsenalPass : SportPass := ⟨"soccer".toList, [arsenalRead], .returned 1 []⟩

def arsenalCut : Cycle := ⟨[], some ("soccer".toList, [arsenalRead])⟩

/-- Once the price is written, a cancellation after the same read does no harm. -/
theorem arsenal_backed :
    Backed (run (fun s c => (captureOnce s c).1) ⟨Dict.empty, []⟩
      [⟨[arsenalPass], none⟩, arsenalCut]) :=
  (gate_backed [] [⟨[arsenalPass], none⟩, arsenalCut] (by decide +kernel)).1

/-- The gate keeps the price of a read whose write was cancelled, and the next cycle writes nothing.
-/
theorem gate_backed_fails :
    (captureOnce ⟨Dict.empty, []⟩ arsenalCut).1.seenPrice.get?
    (rowKey "soccer".toList arsenalBack) = some 2 ∧
      (captureOnce ⟨Dict.empty, []⟩ arsenalCut).1.rows = [] ∧
      ¬ Backed (captureOnce ⟨Dict.empty, []⟩ arsenalCut).1 ∧
      (captureOnce (captureOnce ⟨Dict.empty, []⟩ arsenalCut).1
        ⟨[arsenalPass], none⟩).1.rows =
      [] := by
  have held : (captureOnce ⟨Dict.empty, []⟩ arsenalCut).1.seenPrice.get?
      (rowKey "soccer".toList arsenalBack) = some 2 := by
    decide +kernel
  have unwritten : (captureOnce ⟨Dict.empty, []⟩ arsenalCut).1.rows = [] := by decide +kernel
  refine ⟨held, unwritten, fun backed => ?_, by decide +kernel⟩
  obtain ⟨row, inside, -⟩ := backed _ _ held
  rw [unwritten] at inside
  cases inside

end SharpEvPicks.Ingestion
