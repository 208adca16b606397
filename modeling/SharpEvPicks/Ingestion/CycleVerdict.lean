import SharpEvPicks.Ingestion.CycleRuns
import SharpEvPicks.Transition.Run

/-! A cycle is complete by what its scrapes come to, whatever the order. -/
namespace SharpEvPicks.Ingestion.JsonCycle

open Python Pipeline Transition

variable {c : Cycle} {w : World} {gate : Gate} {rows rows' : List Snapshot} {market : Str}

/-! Coverage. -/

/-- A row counts for the market, or for a line of its family. -/
def Seen (market : Str) (rows : List Snapshot) : Prop :=
  ∃ s ∈ rows, countKey s = market ∨ (market ++ ['_']) <+: countKey s

theorem Seen.perm (same : rows.Perm rows') (seen : Seen market rows) : Seen market rows' := by
  obtain ⟨s, inside, key⟩ := seen
  exact ⟨s, same.mem_iff.mp inside, key⟩

theorem counted_some (l : List Snapshot) (n : Nat) :
    l.foldl (fun (count : Option Nat) _ => some (count.getD 0 + 1)) (some n) = some
      (n + l.length) := by
  induction l generalizing n with
  | nil => rfl
  | cons s l ih =>
    rw [List.foldl_cons, Option.getD_some, ih, List.length_cons]
    congr 1
    omega

theorem count_pos (key : Str) : 0 < ((countPerMarket rows).get? key).getD 0 ↔
    ∃ s ∈ rows, countKey s = key := by
  rw [countPerMarket, Dict.get?_foldl_modify countKey fun count _ => count.getD 0 + 1,
    Dict.get?_empty]
  cases mine : rows.filter fun s => countKey s = key with
  | nil =>
    have none := List.filter_eq_nil_iff.mp mine
    constructor
    · exact fun positive => absurd positive (Nat.lt_irrefl 0)
    · rintro ⟨s, inside, here⟩
      exact absurd (decide_eq_true here) (none s inside)
  | cons s others =>
    have found : s ∈ rows.filter fun s => countKey s = key := mine ▸ List.mem_cons_self
    rw [List.mem_filter, decide_eq_true_iff] at found
    rw [List.foldl_cons, Option.getD_none, counted_some]
    refine iff_of_true ?_ ⟨s, found⟩
    rw [Option.getD_some]
    omega

theorem marketCovered_iff : marketCovered market (countPerMarket rows) ↔ Seen market rows := by
  have entry (e : Str × Nat) (inside : e ∈ (countPerMarket rows).entries) : 0 < e.2 ↔
      ∃ s ∈ rows, countKey s = e.1 := by
    rw [← count_pos, Dict.get?_eq_some_iff.mpr inside, Option.getD_some]
  unfold marketCovered
  rw [Bool.or_eq_true, decide_eq_true_iff, count_pos, List.any_eq_true]
  constructor
  · rintro (⟨s, inside, here⟩ | ⟨e, inside, line⟩)
    · exact ⟨s, inside, .inl here⟩
    · rw [Bool.and_eq_true, decide_eq_true_iff, List.isPrefixOf_iff_prefix] at line
      obtain ⟨s, held, here⟩ := (entry e inside).mp line.2
      exact ⟨s, held, .inr (here ▸ line.1)⟩
  · rintro ⟨s, inside, here | line⟩
    · exact .inl ⟨s, inside, here⟩
    · have positive := (count_pos (countKey s)).mpr ⟨s, inside, rfl⟩
      obtain ⟨n, counted⟩ : ∃ n, (countPerMarket rows).get? (countKey s) = some n := by
        cases counted : (countPerMarket rows).get? (countKey s) with
        | none =>
          rw [counted] at positive
          exact absurd positive (Nat.lt_irrefl 0)
        | some n => exact ⟨n, rfl⟩
      rw [counted, Option.getD_some] at positive
      refine .inr ⟨(countKey s, n), Dict.get?_eq_some_iff.mp counted, ?_⟩
      rw [Bool.and_eq_true, decide_eq_true_iff, List.isPrefixOf_iff_prefix]
      exact ⟨line, positive⟩

/-! The gate. -/

/-- Rows that a healthy slate has: enough of them, and no configured market alone without any. -/
structure Gate.Passes (gate : Gate) (rows : List Snapshot) : Prop where
  some_ : rows ≠ []
  floor : ∀ prev, gate.prevCycleRows = some prev → 0 < prev →
    gate.completenessFloor * prev ≤ rows.length
  covered : gate.requireMarketCoverage → (∀ market ∈ gate.markets, Seen market rows) ∨
    ∀ market ∈ gate.markets, ¬ Seen market rows

theorem Gate.Passes.perm (same : rows.Perm rows') (passes : gate.Passes rows) :
    gate.Passes rows' where
  some_ := fun empty => passes.some_ (same.trans (empty ▸ .refl _)).eq_nil
  floor prev before positive := same.length_eq ▸ passes.floor prev before positive
  covered required := by
    obtain all | none := passes.covered required
    · exact .inl fun market inside => (all market inside).perm same
    · exact .inr fun market inside seen => none market inside (seen.perm same.symm)

theorem collapsed_none : gate.collapsed rows.length = none ↔
    ∀ prev, gate.prevCycleRows = some prev → 0 < prev →
      gate.completenessFloor * prev ≤ rows.length := by
  unfold Gate.collapsed
  cases gate.prevCycleRows with
  | none => simp
  | some prev => simp [Option.filter]

theorem missing_ends : gate.missing (countPerMarket rows) ≠ [] ∧
    (gate.missing (countPerMarket rows)).length ≠ gate.markets.length ↔
    ¬ ((∀ market ∈ gate.markets, Seen market rows) ∨ ∀ market ∈ gate.markets,
      ¬ Seen market rows) := by
  have none : gate.missing (countPerMarket rows) = [] ↔
      ∀ market ∈ gate.markets, Seen market rows := by
    simp [Gate.missing, List.filter_eq_nil_iff, marketCovered_iff]
  have all : (gate.missing (countPerMarket rows)).length = gate.markets.length ↔
      ∀ market ∈ gate.markets, ¬ Seen market rows := by
    unfold Gate.missing
    rw [List.length_filter_eq_length_iff]
    simp [← marketCovered_iff]
  rw [not_or, ← none, ← all]

theorem evaluate_complete [Reprs] {matchesTotal failureTotal : Nat} :
    (evaluateCompleteness gate rows (countPerMarket rows) matchesTotal failureTotal).1 ↔
      matchesTotal = 0 ∨ failureTotal = 0 ∧ gate.Passes rows := by
  unfold evaluateCompleteness
  split
  · rename_i empty
    exact iff_of_true rfl (.inl empty)
  · rename_i listed
    rw [or_iff_right listed]
    split
    · rename_i failed
      exact iff_of_false Bool.false_ne_true fun passes =>
        absurd passes.1 (Nat.pos_iff_ne_zero.mp failed)
    · rename_i clean
      split
      · rename_i empty
        exact iff_of_false Bool.false_ne_true fun passes =>
          passes.2.some_ (List.length_eq_zero_iff.mp empty)
      · rename_i some_
        split
        · rename_i prev collapsed
          refine iff_of_false Bool.false_ne_true fun passes => ?_
          rw [collapsed_none.mpr passes.2.floor] at collapsed
          cases collapsed
        · rename_i floor
          split
          · rename_i gap
            refine iff_of_false Bool.false_ne_true fun passes => ?_
            exact missing_ends.mp gap.2 (passes.2.covered gap.1)
          · rename_i whole
            refine iff_of_true rfl ⟨Nat.eq_zero_of_not_pos clean,
              fun none => some_ (none ▸ rfl), collapsed_none.mp floor, ?_⟩
            intro required
            by_contra uneven
            exact whole ⟨required, missing_ends.mpr uneven⟩

/-! The verdict of a cycle. -/

theorem rows_of_no_kind {scraped : Scraped} (none : ∀ kind, scraped.isKind kind = false) :
    ∃ rows, scraped = .rows rows := by
  cases scraped with
  | rows rows => exact ⟨rows, rfl⟩
  | failed fault =>
    exact absurd (decide_eq_true rfl) (Bool.not_eq_true _ ▸ none (classifyCurlError fault))
  | exceeded => cases none .unknown

theorem Sound.failures_zero (sound : Sound c w) :
    w.transient + w.permanent + w.unknown = 0 ↔ ∀ e ∈ w.finished, ∃ rows,
      e.2 = .rows rows := by
  rw [sound.transient, sound.permanent, sound.unknown, Nat.add_eq_zero_iff, Nat.add_eq_zero_iff,
    List.countP_eq_zero, List.countP_eq_zero, List.countP_eq_zero]
  constructor
  · rintro ⟨⟨transient, permanent⟩, unknown⟩ e inside
    refine rows_of_no_kind fun kind => ?_
    cases kind with
    | transient => exact Bool.eq_false_iff.mpr (transient e inside)
    | permanent => exact Bool.eq_false_iff.mpr (permanent e inside)
    | unknown => exact Bool.eq_false_iff.mpr (unknown e inside)
  · intro rows
    have none (kind : Kind) : ∀ e ∈ w.finished, ¬ e.2.isKind kind := by
      intro e inside held
      obtain ⟨rows, scraped⟩ := rows e inside
      rw [scraped] at held
      cases held
    exact ⟨⟨none .transient, none .permanent⟩, none .unknown⟩

theorem outcome_complete [Reprs] (sound : Sound c w) :
    (c.outcome w).complete ↔ w.resourceReason = [] ∧
    (c.matchUrls = [] ∨ (∀ e ∈ w.finished, ∃ rows, e.2 = .rows rows) ∧
      c.gate.Passes w.snapshots) := by
  change (c.verdict w).1 ↔ _
  unfold Cycle.verdict
  split
  · rename_i tripped
    exact iff_of_false Bool.false_ne_true fun clear => tripped clear.1
  · rename_i clear
    rw [evaluate_complete, sound.failures_zero]
    exact (and_iff_right (not_ne_iff.mp clear)).symm.trans
      (and_congr_right fun _ => or_congr_left List.length_eq_zero_iff)

section Verdict
variable (verdict : Str → Scraped)

/-- The rows of the listed matches. -/
def allRows (urls : List Str) : List Snapshot := urls.flatMap fun url => (verdict url).snapshots

variable {verdict} (fetched : ∀ e ∈ w.finished, e.2 = verdict e.1)
include fetched

theorem rowsOf_fetched : rowsOf w.finished = allRows verdict (w.finished.map Prod.fst) := by
  rw [rowsOf, allRows, List.flatMap_map]
  exact List.flatMap_congr fun e inside => by rw [fetched e inside]

theorem Sound.rows_perm (sound : Sound c w) (done : w.done) (clear : w.resourceReason = []) :
    w.snapshots.Perm (allRows verdict c.matchUrls) := by
  rw [(sound.clean clear).1, rowsOf_fetched fetched]
  exact (sound.all_finished done clear).flatMap_right _

theorem Sound.rows_all (sound : Sound c w) (done : w.done) (clear : w.resourceReason = [])
    (rows : ∀ e ∈ w.finished, ∃ rows, e.2 = .rows rows) {url : Str}
    (listed : url ∈ c.matchUrls) : ∃ rows, verdict url = .rows rows := by
  obtain ⟨e, inside, rfl⟩ :=
    List.mem_map.mp ((sound.all_finished done clear).mem_iff.mpr listed)
  rw [← fetched e inside]
  exact rows e inside

/-- Where every listed match has rows, within the ceiling, no ceiling is hit. -/
theorem Sound.clear_of_rows (sound : Sound c w)
    (rows : ∀ url ∈ c.matchUrls, ∃ rows, verdict url = .rows rows)
    (within : (allRows verdict c.matchUrls).length ≤ c.maxSnapshotsPerCycle) :
      w.resourceReason = [] := by
  by_contra tripped
  obtain ⟨e, inside, exceeded⟩ | more := sound.cause tripped
  · have listed : e.1 ∈ c.matchUrls :=
      sound.matches_.mem_iff.mp (List.mem_append_left _ (List.mem_map_of_mem inside))
    obtain ⟨rows, scraped⟩ := rows e.1 listed
    rw [fetched e inside, scraped] at exceeded
    cases exceeded
  · have total := (sound.matches_.flatMap_right fun url => (verdict url).snapshots).length_eq
    rw [List.flatMap_append, List.length_append] at total
    rw [rowsOf_fetched fetched] at more
    unfold allRows at more within
    omega

end Verdict

/-- What the scrapes come to decides whether the cycle is complete, and the rows it then returns;
the order in which the workers are scheduled does not. -/
theorem runCycle_complete_iff [Reprs] (c : Cycle) (verdict : Str → Scraped)
    {actions : List Action} {w : World} (ran : trace c.step c.start actions = some w)
    (done : w.done) (fetched : ∀ e ∈ w.finished, e.2 = verdict e.1) :
    ((c.outcome w).complete ↔ (∀ url ∈ c.matchUrls, ∃ rows, verdict url = .rows rows) ∧
      (allRows verdict c.matchUrls).length ≤ c.maxSnapshotsPerCycle ∧
      (c.matchUrls = [] ∨ c.gate.Passes (allRows verdict c.matchUrls))) ∧
    ((c.outcome w).complete → (c.outcome w).snapshots.Perm (allRows verdict c.matchUrls)) := by
  have sound := Sound.run ran
  rw [outcome_complete sound]
  refine ⟨⟨?_, ?_⟩, fun complete => sound.rows_perm fetched done complete.1⟩
  · rintro ⟨clear, passes⟩
    have perm := sound.rows_perm fetched done clear
    have within := perm.length_eq ▸ sound.bounded
    obtain empty | ⟨rows, passes⟩ := passes
    · exact ⟨by rw [empty]; exact List.forall_mem_nil _, within, .inl empty⟩
    · exact ⟨fun url listed => sound.rows_all fetched done clear rows listed, within,
        .inr (passes.perm perm)⟩
  · rintro ⟨rows, within, passes⟩
    have clear := sound.clear_of_rows fetched rows within
    refine ⟨clear, passes.imp id fun passes =>
      ⟨fun e inside => ?_, passes.perm (sound.rows_perm fetched done clear).symm⟩⟩
    have listed : e.1 ∈ c.matchUrls :=
      sound.matches_.mem_iff.mp (List.mem_append_left _ (List.mem_map_of_mem inside))
    rw [fetched e inside]
    exact rows e.1 listed

/-- `repr` of a text without quotes or escapes. -/
@[reducible] def quotedReprs : Reprs := ⟨fun text => '\'' :: text ++ ['\'']⟩

theorem runCycle_complete_iff_twoPages : ((@Cycle.outcome twoPages quotedReprs twoDone).complete ↔
      (∀ url ∈ twoPages.matchUrls, ∃ rows, Scraped.rows [pageRow] = .rows rows) ∧
        (allRows (fun _ => .rows [pageRow]) twoPages.matchUrls).length ≤
          twoPages.maxSnapshotsPerCycle ∧
        (twoPages.matchUrls = [] ∨
          twoPages.gate.Passes (allRows (fun _ => .rows [pageRow]) twoPages.matchUrls))) ∧
    ((@Cycle.outcome twoPages quotedReprs twoDone).complete →
      (@Cycle.outcome twoPages quotedReprs twoDone).snapshots.Perm
      (allRows (fun _ => .rows [pageRow]) twoPages.matchUrls)) :=
  @runCycle_complete_iff quotedReprs twoPages (fun _ => .rows [pageRow]) _ _ twoPages_runs
      twoDone_done (by
    intro e inside
    simp only [twoDone, List.mem_cons, List.not_mem_nil, or_false] at inside
    obtain rfl | rfl := inside <;> rfl)

/-! Cycle after cycle. -/

/-- A cycle of a sport and what it returned. -/
structure Poll where
  cycle : Cycle
  out : CycleOutcome

def Poll.after (prev : Option Nat) (p : Poll) : Option Nat := nextBaseline prev p.out

/-- The cycle is gated by the baseline of its time. -/
def Poll.Gated [Reprs] (prev : Option Nat) (p : Poll) : Prop :=
  p.cycle.gate.prevCycleRows = prev ∧ Returns p.cycle p.out

/-- The cycle moves the baseline. -/
def Poll.Healthy (p : Poll) : Prop := p.out.complete ∧ p.out.snapshots ≠ []

theorem Returns.passes [Reprs] {out : CycleOutcome} (returned : Returns c out)
    (complete : out.complete) (listed : c.matchUrls ≠ []) : c.gate.Passes out.snapshots := by
  obtain ⟨-, rfl⟩ | ⟨-, actions, w, ran, done, rfl⟩ := returned
  · cases complete
  · obtain ⟨-, empty | ⟨-, passes⟩⟩ := (outcome_complete (Sound.run ran)).mp complete
    · exact absurd empty listed
    · exact passes

theorem Poll.Healthy.next {p : Poll} (healthy : p.Healthy) (prev : Option Nat) :
    Poll.after prev p = some p.out.snapshots.length :=
  if_pos healthy

theorem after_unhealthy {polls : List Poll} (unhealthy : ∀ p ∈ polls, ¬ p.Healthy)
    (prev : Option Nat) : run Poll.after prev polls = prev := by
  induction polls generalizing prev with
  | nil => rfl
  | cons p polls ih =>
    obtain ⟨first, rest⟩ := List.forall_mem_cons.mp unhealthy
    have same : Poll.after prev p = prev := if_neg first
    rw [run_cons, same, ih rest]

/-- A complete cycle has at least the floor of the rows of the complete one before it, however many
incomplete ones lie between. -/
theorem baseline_held [Reprs] {prev : Option Nat} {before between after : List Poll}
    {first last : Poll}
    (polled : Along Poll.after Poll.Gated prev (before ++ first :: (between ++ last :: after)))
    (healthy : first.Healthy) (unhealthy : ∀ p ∈ between, ¬ p.Healthy)
    (complete : last.out.complete) (listed : last.cycle.matchUrls ≠ []) :
    last.cycle.gate.completenessFloor * first.out.snapshots.length ≤
      last.out.snapshots.length := by
  obtain ⟨-, -, later⟩ := along_append.mp polled
  obtain ⟨baseline, returned⟩ := later.at
  rw [after_unhealthy unhealthy, healthy.next] at baseline
  exact (returned.passes complete listed).floor _ baseline (List.length_pos_iff.mpr healthy.2)

/-- The same pages after a cycle of two rows. -/
def twoPagesAgain : Cycle :=
  { twoPages with gate := { twoPages.gate with prevCycleRows := some 2 } }

theorem twoPages_returns :
    @Returns quotedReprs twoPages (@Cycle.outcome twoPages quotedReprs twoDone) :=
  .inr ⟨by decide, twoActions, twoDone, rfl, twoDone_done, rfl⟩

theorem twoPagesAgain_returns :
    @Returns quotedReprs twoPagesAgain (@Cycle.outcome twoPagesAgain quotedReprs twoDone) :=
  .inr ⟨by decide, twoActions, twoDone, rfl, twoDone_done, rfl⟩

/-- The second page is gone, and a row with it. -/
def brokenActions : List Action :=
  [.pull 0, .pull 1, .enter 0, .enter 1, .reply 0 (.ok [pageRow]),
    .reply 1 (.error .permanentStatus), .pull 0, .pull 1]

def brokenDone : World where
  queue := []
  workers := [.returned, .returned]
  snapshots := [pageRow]
  matchesWithOdds := 1
  permanent := 1
  finished := [("a".toList, .rows [pageRow]), ("b".toList, .failed .permanentStatus)]

theorem broken_returns :
    @Returns quotedReprs twoPagesAgain (@Cycle.outcome twoPagesAgain quotedReprs brokenDone) :=
  .inr ⟨by decide, brokenActions, brokenDone, rfl, twoDone_done, rfl⟩

def fullPoll : Poll := ⟨twoPages, @Cycle.outcome twoPages quotedReprs twoDone⟩

def brokenPoll : Poll := ⟨twoPagesAgain, @Cycle.outcome twoPagesAgain quotedReprs brokenDone⟩

def fullPollAgain : Poll := ⟨twoPagesAgain, @Cycle.outcome twoPagesAgain quotedReprs twoDone⟩

theorem fullPoll_healthy : fullPoll.Healthy := ⟨by decide +kernel, List.cons_ne_nil _ _⟩

theorem brokenPoll_unhealthy : ¬ brokenPoll.Healthy := by
  rintro ⟨complete, -⟩
  exact absurd complete (by decide +kernel)

/-- A complete cycle, one that loses a page, and a complete one that is held to the first. -/
theorem polls_gated :
    @Along _ _ Poll.after (@Poll.Gated quotedReprs) none [fullPoll, brokenPoll, fullPollAgain] := by
  have kept : Poll.after (some 2) brokenPoll = some 2 :=
    after_unhealthy (List.forall_mem_singleton.mpr brokenPoll_unhealthy) _
  have first : Poll.after none fullPoll = some 2 := fullPoll_healthy.next none
  refine ⟨⟨rfl, twoPages_returns⟩, ?_⟩
  rw [first]
  refine ⟨⟨rfl, broken_returns⟩, ?_⟩
  rw [kept]
  exact ⟨⟨rfl, twoPagesAgain_returns⟩, trivial⟩

theorem baseline_held_brokenPoll :
    twoPagesAgain.gate.completenessFloor * fullPoll.out.snapshots.length ≤
      fullPollAgain.out.snapshots.length :=
  @baseline_held quotedReprs none [] [brokenPoll] [] fullPoll fullPollAgain polls_gated
    fullPoll_healthy (List.forall_mem_singleton.mpr brokenPoll_unhealthy) (by decide +kernel)
    (List.cons_ne_nil _ _)

end SharpEvPicks.Ingestion.JsonCycle
