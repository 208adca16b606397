import SharpEvPicks.Pipeline.ValuePipeline
import SharpEvPicks.Python.Reordering
import SharpEvPicks.Python.Sorting
import SharpEvPicks.Transition.Run

/-! Change-only persistence of odds, `_persist_snapshots` and `_sweep_odds_seen` of
`app/pipeline.py`. -/
namespace SharpEvPicks.Pipeline

open Python Transition

/-- Event, bookmaker, line-qualified market and selection. -/
abbrev OddsKey := Str × Str × Str × Str

/-- The last odds written for a key, and when the key was last seen. -/
abbrev OddsSeenCache := Dict OddsKey (ℚ × Int)

def oddsSeenTtl : Int := hours 72

def oddsSeenMax : Nat := 100000

def Snapshot.oddsKey (s : Snapshot) : OddsKey :=
  (s.eventId, s.bookmaker, (s.marketDetail.filter (· ≠ [])).getD s.market.value, s.selection)

def sweepOddsSeen (cache : OddsSeenCache) (now : Int) (maxSize : Nat) : OddsSeenCache :=
  if cache.entries.length ≤ maxSize then cache
  else
    let fresh := cache.filter fun _ entry => !(entry.2 < now - oddsSeenTtl)
    let oldest := (sortedBy (fun e => e.2.2) fresh.entries).take (fresh.entries.length - maxSize)
    fresh.filter fun key _ => key ∉ oldest.map Prod.fst

/-- The cache of a process, and the rows that the process has persisted, oldest first. -/
structure OddsHistory where
  oddsSeen : OddsSeenCache := Dict.empty
  rows : List (OddsKey × ℚ) := []

structure OddsCycle where
  snapshots : List Snapshot
  directory : Str → Option Teams
  now : Int
  /-- The events that the repository writes, all rows of one in the order of the list; `none` where
  the batch raises, and then nothing is written. -/
  writes : Option (Str → Bool)

namespace OddsCycle
variable (c : OddsCycle)

def succeeded (eventId : Str) : Bool := c.writes.any (· eventId)

/-- One pass of the first loop, over `to_write` and `seen_updates`. -/
def stage (oddsSeen : OddsSeenCache) (staged : List Snapshot × OddsSeenCache) (s : Snapshot) :
    List Snapshot × OddsSeenCache :=
  if (c.directory s.eventId).isNone then staged
  else
    let last := (staged.2.get? s.oddsKey).or (oddsSeen.get? s.oddsKey)
    let updates := staged.2.set s.oddsKey (s.decimalOdds, c.now)
    if last.any fun entry => entry.1 = s.decimalOdds then (staged.1, updates)
      else (staged.1 ++ [s], updates)

def staged (oddsSeen : OddsSeenCache) : List Snapshot × OddsSeenCache :=
  c.snapshots.foldl (c.stage oddsSeen) ([], Dict.empty)

end OddsCycle

def rowsOf (snapshots : List Snapshot) : List (OddsKey × ℚ) :=
  snapshots.map fun s => (s.oddsKey, s.decimalOdds)

def attempted (toWrite : List Snapshot) (eventId : Str) : Bool :=
  toWrite.any fun s => s.eventId = eventId

/-- `_persist_snapshots`, with the number of new rows. -/
def persistSnapshots (h : OddsHistory) (c : OddsCycle) : OddsHistory × Option Nat :=
  let (toWrite, seenUpdates) := c.staged h.oddsSeen
  if toWrite ≠ [] ∧ c.writes.isNone then (h, none)
  else
    let written := toWrite.filter fun s => c.succeeded s.eventId
    let merged := seenUpdates.entries.foldl
      (fun seen e => if !attempted toWrite e.1.1 || c.succeeded e.1.1 then seen.set e.1 e.2
        else seen) h.oddsSeen
    ({ oddsSeen := sweepOddsSeen merged c.now oddsSeenMax
       rows := h.rows ++ rowsOf written }, some written.length)

inductive OddsStep where
  | cycle (c : OddsCycle)
  | sweep (now : Int) (maxSize : Nat)

def oddsStep (h : OddsHistory) : OddsStep → OddsHistory
  | .cycle c => (persistSnapshots h c).1
  | .sweep now maxSize => { h with oddsSeen := sweepOddsSeen h.oddsSeen now maxSize }

/-! What a cycle observes, and what is the last row of a key. -/

def lastRow (rows : List (OddsKey × ℚ)) (key : OddsKey) : Option ℚ :=
  ((rows.filter fun row => row.1 = key).getLast?).map Prod.snd

/-- The last price of a key whose event the directory knows. -/
def OddsCycle.observed (c : OddsCycle) (snapshots : List Snapshot) (key : OddsKey) : Option ℚ :=
  ((snapshots.filter fun s => s.oddsKey = key && (c.directory s.eventId).isSome).getLast?).map
    (·.decimalOdds)

/-- Some row of the event was to be written and was not. -/
def OddsCycle.failed (c : OddsCycle) (h : OddsHistory) (eventId : Str) : Bool :=
  attempted (c.staged h.oddsSeen).1 eventId && !c.succeeded eventId

/-- An entry of the cache holds the price of the key's last row. -/
def Coherent (h : OddsHistory) : Prop :=
  ∀ key price seen, h.oddsSeen.get? key = some (price, seen) → lastRow h.rows key = some price

/-- The cycle leaves the last price of each key it observes as the key's last row, unless the write
failed. -/
def Recorded (h : OddsHistory) (c : OddsCycle) : Prop :=
  ∀ key price, c.observed c.snapshots key = some price → ¬ c.failed h key.1 →
    lastRow (persistSnapshots h c).1.rows key = some price

theorem lastRow_append (rows rows' : List (OddsKey × ℚ)) (key : OddsKey) :
    lastRow (rows ++ rows') key = (lastRow rows' key).or (lastRow rows key) := by
  simp only [lastRow, List.filter_append, List.getLast?_append, Option.map_or]

theorem lastRow_single (s : Snapshot) (key : OddsKey) :
    lastRow (rowsOf [s]) key = if s.oddsKey = key then some s.decimalOdds else none := by
  by_cases own : s.oddsKey = key <;> simp [lastRow, rowsOf, own]

theorem sweep_get? {cache : OddsSeenCache} {now : Int} {maxSize : Nat} {key : OddsKey}
    {entry : ℚ × Int} (kept : (sweepOddsSeen cache now maxSize).get? key = some entry) :
      cache.get? key = some entry := by
  unfold sweepOddsSeen at kept
  split at kept
  · exact kept
  · rw [Dict.get?_filter] at kept
    obtain ⟨fresh, -⟩ := Option.filter_eq_some_iff.mp kept
    rw [Dict.get?_filter] at fresh
    exact (Option.filter_eq_some_iff.mp fresh).1

/-! One cycle. -/

/-- Where the first loop has got to after the snapshots of `l`. -/
structure Staged (c : OddsCycle) (oddsSeen : OddsSeenCache) (l : List Snapshot)
    (staged : List Snapshot × OddsSeenCache) : Prop where
  observed : ∀ key, (staged.2.get? key).map Prod.fst = c.observed l key
  quiet : ∀ key, staged.2.get? key = none → lastRow (rowsOf staged.1) key = none
  kept : ∀ key price seen, staged.2.get? key = some (price, seen) →
    lastRow (rowsOf staged.1) key = some price ∨
    lastRow (rowsOf staged.1) key = none ∧ ∃ seen, oddsSeen.get? key = some (price, seen)

section Cycle
variable {c : OddsCycle} {oddsSeen : OddsSeenCache} {h : OddsHistory}

theorem observed_concat (l : List Snapshot) (s : Snapshot) (key : OddsKey) :
    c.observed (l ++ [s]) key =
      if s.oddsKey = key ∧ (c.directory s.eventId).isSome then some s.decimalOdds
        else c.observed l key := by
  simp only [OddsCycle.observed, List.filter_append]
  by_cases own : s.oddsKey = key ∧ (c.directory s.eventId).isSome
  · simp [own]
  · simp only [List.filter_cons, List.filter_nil, Bool.and_eq_true, decide_eq_true_eq, if_neg own,
      List.append_nil]

theorem staged_stage {l : List Snapshot} {staged : List Snapshot × OddsSeenCache} (s : Snapshot)
    (upTo : Staged c oddsSeen l staged) :
      Staged c oddsSeen (l ++ [s]) (c.stage oddsSeen staged s) := by
  obtain ⟨toWrite, updates⟩ := staged
  unfold OddsCycle.stage
  by_cases unknown : (c.directory s.eventId).isNone
  · have blind (key : OddsKey) : ¬ (s.oddsKey = key ∧ (c.directory s.eventId).isSome) := by
      rw [Option.isNone_iff_eq_none.mp unknown]
      exact fun both => Bool.false_ne_true both.2
    rw [if_pos unknown]
    exact ⟨fun key => by
      rw [observed_concat, if_neg (blind key)]; exact upTo.observed key, upTo.quiet, upTo.kept⟩
  have known : (c.directory s.eventId).isSome := Option.isSome_iff_ne_none.mpr fun none_ =>
    unknown (Option.isNone_iff_eq_none.mpr none_)
  have observed (key : OddsKey) :
      ((updates.set s.oddsKey (s.decimalOdds, c.now)).get? key).map Prod.fst =
        c.observed (l ++ [s]) key := by
    rw [Dict.get?_set, observed_concat]
    by_cases own : key = s.oddsKey
    · rw [if_pos own, if_pos ⟨own.symm, known⟩]
      rfl
    · rw [if_neg own, if_neg fun both => own both.1.symm]
      exact upTo.observed key
  rw [if_neg unknown]
  by_cases same : ((updates.get? s.oddsKey).or (oddsSeen.get? s.oddsKey)).any fun entry =>
    entry.1 = s.decimalOdds
  · -- the price has not changed since it was staged, or since it was cached
    simp only [if_pos same]
    refine ⟨observed, fun key none_ => ?_, fun key price seen found => ?_⟩
    · rw [Dict.get?_set] at none_
      split at none_
      · cases none_
      · exact upTo.quiet key none_
    · rw [Dict.get?_set] at found
      split at found
      swap
      · exact upTo.kept key price seen found
      rename_i own
      subst own
      cases found
      obtain ⟨entry, last, equal⟩ := (Option.any_eq_true _ _).mp same
      rw [← of_decide_eq_true equal]
      cases staged : updates.get? s.oddsKey with
      | some entry' =>
        rw [staged, Option.some_or] at last
        cases last
        exact upTo.kept s.oddsKey entry.1 entry.2 staged
      | none =>
        rw [staged, Option.none_or] at last
        exact .inr ⟨upTo.quiet s.oddsKey staged, entry.2, last⟩
  · -- the row is to be written
    simp only [if_neg same]
    have rows (key : OddsKey) : lastRow (rowsOf (toWrite ++ [s])) key =
        if s.oddsKey = key then some s.decimalOdds else lastRow (rowsOf toWrite) key := by
      rw [rowsOf, List.map_append, lastRow_append]
      change (lastRow (rowsOf [s]) key).or (lastRow (rowsOf toWrite) key) = _
      rw [lastRow_single]
      split <;> simp
    refine ⟨observed, fun key none_ => ?_, fun key price seen found => ?_⟩
    · rw [Dict.get?_set] at none_
      split at none_
      · cases none_
      · rename_i other
        rw [rows, if_neg (Ne.symm other)]
        exact upTo.quiet key none_
    · rw [Dict.get?_set] at found
      split at found
      · rename_i own
        subst own
        cases found
        exact .inl (by rw [rows, if_pos rfl])
      · rename_i other
        rw [rows, if_neg (Ne.symm other)]
        exact upTo.kept key price seen found

theorem staged_staged (c : OddsCycle) (oddsSeen : OddsSeenCache) :
    Staged c oddsSeen c.snapshots (c.staged oddsSeen) := by
  have upTo (l : List Snapshot) :
      Staged c oddsSeen l (l.foldl (c.stage oddsSeen) ([], Dict.empty)) := by
    induction l using List.reverseRecOn with
    | nil => exact ⟨fun _ => rfl, fun _ _ => rfl, fun _ _ _ absurd => by cases absurd⟩
    | append_singleton l s ih =>
      rw [List.foldl_concat]
      exact staged_stage s ih
  exact upTo c.snapshots

/-- The rows of a key that the cycle writes. -/
theorem lastRow_written (toWrite : List Snapshot) (key : OddsKey) :
    lastRow (rowsOf (toWrite.filter fun s => c.succeeded s.eventId)) key =
      if c.succeeded key.1 then lastRow (rowsOf toWrite) key else none := by
  have rows : (rowsOf (toWrite.filter fun s => c.succeeded s.eventId)).filter
      (fun row => row.1 = key) =
      if c.succeeded key.1 then (rowsOf toWrite).filter fun row => row.1 = key else [] := by
    have own (s : Snapshot) : (decide (s.oddsKey = key) && c.succeeded s.eventId) =
        (decide (s.oddsKey = key) && c.succeeded key.1) := by
      by_cases same : s.oddsKey = key
      · rw [← same]
        rfl
      · simp [same]
    simp only [rowsOf, List.filter_map, List.filter_filter, Function.comp_def, own]
    by_cases written : c.succeeded key.1 <;> simp [written]
  rw [lastRow, rows]
  split <;> rfl

theorem not_attempted {toWrite : List Snapshot} {key : OddsKey}
    (idle : ¬ attempted toWrite key.1) : lastRow (rowsOf toWrite) key = none := by
  have empty : (rowsOf toWrite).filter (fun row => row.1 = key) = [] := by
    refine List.filter_eq_nil_iff.mpr fun row inside => ?_
    obtain ⟨s, listed, rfl⟩ := List.mem_map.mp inside
    intro same
    refine idle (List.any_eq_true.mpr ⟨s, listed, ?_⟩)
    rw [← of_decide_eq_true same]
    exact decide_eq_true rfl
  rw [lastRow, empty]
  rfl

/-- What the cycle leaves: the rows, and of the cache no more than the updates of the events that
did not fail. -/
theorem persistSnapshots_cases (h : OddsHistory) (c : OddsCycle) :
    (c.writes = none ∧ (c.staged h.oddsSeen).1 ≠ [] ∧ persistSnapshots h c = (h, none)) ∨
      ((persistSnapshots h c).1.rows =
          h.rows ++ rowsOf ((c.staged h.oddsSeen).1.filter fun s => c.succeeded s.eventId) ∧
        ∀ key entry, (persistSnapshots h c).1.oddsSeen.get? key = some entry →
          (¬ c.failed h key.1 ∧ (c.staged h.oddsSeen).2.get? key = some entry) ∨
            ((c.failed h key.1 ∨ (c.staged h.oddsSeen).2.get? key = none) ∧
              h.oddsSeen.get? key = some entry)) := by
  unfold persistSnapshots
  dsimp only
  split
  · rename_i raises
    exact .inl ⟨Option.isNone_iff_eq_none.mp raises.2, raises.1, rfl⟩
  · refine .inr ⟨rfl, fun key entry found => ?_⟩
    have merged := sweep_get? found
    rw [Dict.get?_foldl_setIf (fun key _ _ => !attempted (c.staged h.oddsSeen).1 key.1 ||
      c.succeeded key.1) (c.staged h.oddsSeen).2.nodup] at merged
    cases update : (c.staged h.oddsSeen).2.get? key with
    | none =>
      have absent : Dict.find (c.staged h.oddsSeen).2.entries key = none := update
      rw [absent] at merged
      exact .inr ⟨.inr rfl, merged⟩
    | some v =>
      have staged : Dict.find (c.staged h.oddsSeen).2.entries key = some v := update
      rw [staged] at merged
      dsimp only at merged
      split at merged
      · rename_i goes
        have fine : ∀ tried written : Bool, (!tried || written) →
          ¬ (tried && !written) := by decide
        exact .inl ⟨fine _ _ goes, merged⟩
      · rename_i stops
        have failed : ∀ tried written : Bool, ¬ (!tried || written) →
          (tried && !written) := by decide
        exact .inr ⟨.inl (failed _ _ stops), merged⟩

theorem succeeded_of_not_failed {key : OddsKey} (fine : ¬ c.failed h key.1) :
    c.succeeded key.1 ∨ ¬ attempted (c.staged h.oddsSeen).1 key.1 := by
  unfold OddsCycle.failed at fine
  by_cases written : c.succeeded key.1
  · exact .inl written
  · exact .inr (by simpa [written] using fine)

/-- The last row of a key whose event did not fail, from what was staged for it. -/
theorem lastRow_fine {key : OddsKey} {price : ℚ} {seen : Int} (coherent : Coherent h)
    (fine : ¬ c.failed h key.1) (staged : (c.staged h.oddsSeen).2.get? key = some (price, seen)) :
    lastRow (h.rows ++ rowsOf ((c.staged h.oddsSeen).1.filter fun s => c.succeeded s.eventId)) key =
      some price := by
  have unwritten (none_ : lastRow (rowsOf (c.staged h.oddsSeen).1) key = none) :
      lastRow (rowsOf ((c.staged h.oddsSeen).1.filter fun s => c.succeeded s.eventId)) key =
        none := by
    rw [lastRow_written, none_, ite_self]
  rw [lastRow_append]
  obtain written | ⟨none_, cachedAt, cached⟩ :=
    (staged_staged c h.oddsSeen).kept key price seen staged
  · obtain succeeded | idle := succeeded_of_not_failed fine
    · rw [lastRow_written, if_pos succeeded, written, Option.some_or]
    · rw [not_attempted idle] at written
      cases written
  · rw [unwritten none_, Option.none_or, coherent key price cachedAt cached]

theorem coherent_cycle (coherent : Coherent h) (c : OddsCycle) :
    Coherent (persistSnapshots h c).1 := by
  obtain ⟨-, -, raised⟩ | ⟨rows, entries⟩ := persistSnapshots_cases h c
  · rw [raised]
    exact coherent
  · intro key price seen found
    rw [rows]
    obtain ⟨fine, staged⟩ | ⟨stays, cached⟩ := entries key (price, seen) found
    · exact lastRow_fine coherent fine staged
    · have unwritten :
          lastRow (rowsOf ((c.staged h.oddsSeen).1.filter fun s => c.succeeded s.eventId)) key =
            none := by
        rw [lastRow_written]
        obtain failed | none_ := stays
        · unfold OddsCycle.failed at failed
          have stopped : ¬ c.succeeded key.1 := by simpa using (Bool.and_eq_true_iff.mp failed).2
          rw [if_neg stopped]
        · rw [(staged_staged c h.oddsSeen).quiet key none_, ite_self]
      rw [lastRow_append, unwritten, Option.none_or, coherent key price seen cached]

theorem recorded_cycle (coherent : Coherent h) (c : OddsCycle) : Recorded h c := by
  intro key price observed fine
  have staged := (staged_staged c h.oddsSeen).observed key
  rw [observed] at staged
  obtain ⟨⟨price', seen⟩, found, same⟩ := Option.map_eq_some_iff.mp staged
  cases same
  obtain ⟨raises, -, raised⟩ | ⟨rows, -⟩ := persistSnapshots_cases h c
  · have none_ : (c.staged h.oddsSeen).1.filter (fun s => c.succeeded s.eventId) = [] := by
      refine List.filter_eq_nil_iff.mpr fun s _ => ?_
      rw [OddsCycle.succeeded, raises]
      exact Bool.false_ne_true
    have last := lastRow_fine coherent fine found
    rw [none_, rowsOf, List.map_nil, List.append_nil] at last
    rw [raised]
    exact last
  · rw [rows]
    exact lastRow_fine coherent fine found

theorem coherent_step (h : OddsHistory) (step : OddsStep) (coherent : Coherent h) :
    Coherent (oddsStep h step) := by
  cases step with
  | cycle c => exact coherent_cycle coherent c
  | sweep now maxSize =>
    intro key price seen found
    exact coherent key price seen (sweep_get? found)

end Cycle

/-- In a new process the cache is empty and no row has been persisted. -/
theorem odds_seen_last (steps : List OddsStep) :
    Coherent (run oddsStep {} steps) ∧ ∀ c, Recorded (run oddsStep {} steps) c := by
  have start : Coherent {} := fun _ _ _ absurd => by cases absurd
  have coherent : Coherent (run oddsStep {} steps) := invariant coherent_step start
  exact ⟨coherent, recorded_cycle coherent⟩

end SharpEvPicks.Pipeline
