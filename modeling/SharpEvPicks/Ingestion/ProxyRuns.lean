import Mathlib.Data.List.Dedup
import Mathlib.Data.List.Perm.Subperm
import SharpEvPicks.Ingestion.ProxyHealth

/-! What holds of the proxy registry in every run: when a slot is quarantined, what a selection
returns, and how often a probe is granted. -/
namespace SharpEvPicks.Ingestion.ProxyHealth

open Python Transition

theorem state_healthy {slot : SlotHealth} {now : Int} :
    slot.state now = .healthy ↔ slot.quarantinedUntil = none := by
  unfold SlotHealth.state
  split
  · rename_i none
    exact iff_of_true rfl none
  · rename_i t some
    rw [some]
    split <;> simp

namespace Registry
variable {r : Registry} {index j : Nat} {now : Int} {slot : SlotHealth} {order : List Nat}

/-- What `eligible` says, with or without a claim. -/
def usable (r : Registry) (index : Nat) (now : Int) : Bool := (r.eligible index now false).2

def claimed (r : Registry) (index : Nat) (now : Int) : Bool :=
  (r.slots.get? index).any fun slot => slot.claimed now

theorem eligible_snd (r : Registry) (index : Nat) (now : Int) (claim : Bool) :
    (r.eligible index now claim).2 = r.usable index now := by
  unfold usable eligible
  cases r.slots.get? index with
  | none => rfl
  | some slot =>
    dsimp only
    cases slot.state now with
    | healthy => rfl
    | quarantined => rfl
    | halfOpen =>
      dsimp only
      by_cases held : slot.claimed now = true
      · simp only [held, if_true]
      · cases claim <;> simp [held]

theorem usable_eq_false :
    r.usable index now = false ↔
      r.stateOf index now = .quarantined ∨ r.stateOf index now = .halfOpen ∧
      r.claimed index now := by
  unfold usable eligible stateOf claimed
  cases r.slots.get? index with
  | none => simp
  | some slot =>
    dsimp only
    cases slot.state now with
    | healthy => simp
    | quarantined => simp
    | halfOpen =>
      dsimp only
      by_cases held : slot.claimed now = true <;> simp [held]

/-- Only the claim of a half-open slot changes anything. -/
theorem eligible_fst (r : Registry) (index : Nat) (now : Int) :
    (r.eligible index now true).1 = r ∨
      ∃ slot, r.slots.get? index = some slot ∧ slot.state now = .halfOpen ∧
        (r.eligible index now true).1 =
          { r with
            slots := r.slots.set index
              { slot with probeClaimedUntil := some (now + r.halfOpenClaim) } } := by
  unfold eligible
  cases found : r.slots.get? index with
  | none => exact .inl rfl
  | some slot =>
    dsimp only
    cases state : slot.state now with
    | healthy => exact .inl rfl
    | quarantined => exact .inl rfl
    | halfOpen =>
      dsimp only
      by_cases held : slot.claimed now = true
      · rw [if_pos held]
        exact .inl rfl
      · rw [if_neg held]
        exact .inr ⟨slot, rfl, state, rfl⟩

theorem eligible_refused (refused : r.usable index now = false) :
    (r.eligible index now true).1 = r := by
  unfold usable eligible at refused
  unfold eligible
  cases found : r.slots.get? index with
  | none => rfl
  | some slot =>
    rw [found] at refused
    dsimp only at refused ⊢
    cases state : slot.state now with
    | healthy => rfl
    | quarantined => rfl
    | halfOpen =>
      rw [state] at refused
      dsimp only at refused ⊢
      by_cases held : slot.claimed now = true
      · rw [if_pos held]
      · rw [if_neg held] at refused
        cases refused

theorem selectFrom_eq (r : Registry) (now : Int) (order : List Nat) :
    r.selectFrom now order =
      (order.find? fun index => r.usable index now).map fun index =>
      ((r.eligible index now true).1, index) := by
  induction order with
  | nil => rfl
  | cons index rest ih =>
    unfold selectFrom
    rw [List.find?_cons]
    have verdict := eligible_snd r index now true
    by_cases usable : r.usable index now = true
    · simp only [verdict, usable, if_true, Option.map_some]
    · have refused := Bool.eq_false_iff.mpr usable
      simp only [verdict, refused, eligible_refused refused, Bool.false_eq_true, if_false, ih]

/-- The first usable slot, or the first one if none is. -/
theorem select_cases (r : Registry) {order : List Nat} (now : Int) (filled : order ≠ []) :
    (∃ index ∈ order, r.usable index now = true ∧
      r.select order now = ((r.eligible index now true).1, some index)) ∨
    (∃ first ∈ order, (∀ index ∈ order, r.usable index now = false) ∧
      r.select order now = (r.noteFailOpen, some first)) := by
  cases order with
  | nil => exact absurd rfl filled
  | cons first rest =>
    unfold select
    dsimp only
    rw [selectFrom_eq]
    cases found : (first :: rest).find? fun index => r.usable index now with
    | none =>
      refine .inr ⟨first, List.mem_cons_self, fun index inside => ?_, rfl⟩
      exact Bool.eq_false_iff.mpr (List.find?_eq_none.mp found index inside)
    | some index =>
      have usable := List.find?_some found
      exact .inl ⟨index, List.mem_of_find?_eq_some found, usable, rfl⟩

/-- A selection leaves every slot as it is, but for the claim of a half-open one that was usable. -/
theorem get?_select (r : Registry) (order : List Nat) (now : Int) (j : Nat) :
    (r.select order now).1.slots.get? j = r.slots.get? j ∨
      ∃ old, r.slots.get? j = some old ∧ r.usable j now = true ∧ old.state now = .halfOpen ∧
        (r.select order now).1.slots.get? j =
          some { old with probeClaimedUntil := some (now + r.halfOpenClaim) } := by
  by_cases filled : order = []
  · subst filled
    exact .inl rfl
  · obtain ⟨index, -, usable, same⟩ | ⟨first, -, -, same⟩ := select_cases r now filled
    · rw [same]
      obtain kept | ⟨old, known, half, claims⟩ := eligible_fst r index now
      · rw [kept]
        exact .inl rfl
      · rw [claims]
        dsimp only
        rw [Dict.get?_set]
        by_cases here : j = index
        · subst here
          rw [if_pos rfl]
          exact .inr ⟨old, known, usable, half, rfl⟩
        · rw [if_neg here]
          exact .inl rfl
    · rw [same]
      exact .inl rfl

theorem slots_filterRotation (r : Registry) (order : List Nat) (now : Int) :
    (r.filterRotation order now).1.slots = r.slots := by
  simp only [filterRotation]
  split <;> rfl

/-! The settings of a registry never change. -/

structure Settled (threshold : Nat) (cooldown halfOpenClaim : Int) (r : Registry) : Prop where
  threshold : r.threshold = threshold
  cooldown : r.cooldown = cooldown
  halfOpenClaim : r.halfOpenClaim = halfOpenClaim

theorem settled_select {threshold : Nat} {cooldown halfOpenClaim : Int}
    (settled : Settled threshold cooldown halfOpenClaim r) (order : List Nat) (now : Int) :
    Settled threshold cooldown halfOpenClaim (r.select order now).1 := by
  by_cases filled : order = []
  · subst filled
    exact settled
  · obtain ⟨index, -, -, same⟩ | ⟨first, -, -, same⟩ := select_cases r now filled
    · rw [same]
      obtain kept | ⟨slot, -, -, claims⟩ := eligible_fst r index now
      · rw [kept]
        exact settled
      · rw [claims]
        exact ⟨settled.threshold, settled.cooldown, settled.halfOpenClaim⟩
    · rw [same]
      exact ⟨settled.threshold, settled.cooldown, settled.halfOpenClaim⟩

theorem settled_step {threshold : Nat} {cooldown halfOpenClaim : Int}
    (settled : Settled threshold cooldown halfOpenClaim r) (a : Action) :
    Settled threshold cooldown halfOpenClaim (step r a) := by
  obtain ⟨first, second, third⟩ := settled
  cases a with
  | recordSuccess index now => exact ⟨first, second, third⟩
  | recordFailure index errorClass now => exact ⟨first, second, third⟩
  | select order now => exact settled_select ⟨first, second, third⟩ order now
  | filterRotation order now =>
    simp only [step, filterRotation]
    split
    · exact ⟨first, second, third⟩
    · exact ⟨first, second, third⟩

/-! Streaks. -/

/-- A slot has a quarantine iff its streak has reached the threshold. -/
def Streaks (r : Registry) : Prop :=
  ∀ index slot, r.slots.get? index = some slot →
    (slot.quarantinedUntil.isSome ↔ r.threshold ≤ slot.consecutiveFailures)

/-- The current failure streak; a slot never seen has none. -/
def streak (r : Registry) (index : Nat) : Nat :=
  ((r.slots.get? index).map SlotHealth.consecutiveFailures).getD 0

theorem streaks_set {r' : Registry} (streaks : r.Streaks) (same : r'.threshold = r.threshold)
    (write : r'.slots = r.slots.set index slot)
    (kept : slot.quarantinedUntil.isSome ↔ r.threshold ≤ slot.consecutiveFailures) :
      r'.Streaks := by
  intro j slot' found
  rw [write, Dict.get?_set] at found
  rw [same]
  split at found
  · cases found
    exact kept
  · exact streaks j slot' found

theorem streaks_slot (streaks : r.Streaks) (positive : 1 ≤ r.threshold) (index : Nat) :
    ((r.slots.get? index).getD {}).quarantinedUntil.isSome ↔
      r.threshold ≤ ((r.slots.get? index).getD {}).consecutiveFailures := by
  cases found : r.slots.get? index with
  | none =>
    refine iff_of_false (by decide) (not_le.mpr ?_)
    exact positive
  | some slot => exact streaks index slot found

theorem streaks_step (a : Action) (streaks : r.Streaks) (positive : 1 ≤ r.threshold) :
    (step r a).Streaks := by
  cases a with
  | recordSuccess index now =>
    exact streaks_set streaks rfl rfl (iff_of_false Bool.false_ne_true (not_le.mpr positive))
  | recordFailure index errorClass now =>
    refine streaks_set streaks rfl rfl ?_
    have before := streaks_slot streaks positive index
    dsimp only
    split
    · rename_i reached
      exact iff_of_true rfl reached
    · rename_i short
      refine iff_of_false ?_ short
      dsimp only at short ⊢
      rw [before]
      omega
  | select order now =>
    intro j slot found
    have same : (step r (.select order now)).threshold = r.threshold :=
      (settled_select ⟨rfl, rfl, rfl⟩ order now).threshold
    rw [same]
    obtain kept | ⟨old, known, -, -, claims⟩ := get?_select r order now j
    · exact streaks j slot (kept ▸ found)
    · rw [step, claims] at found
      cases found
      exact streaks j old known
  | filterRotation order now =>
    intro j slot found
    rw [step, slots_filterRotation] at found
    have same : (step r (.filterRotation order now)).threshold = r.threshold :=
      (settled_step ⟨rfl, rfl, rfl⟩ (.filterRotation order now)).threshold
    rw [same]
    exact streaks j slot found

theorem stateOf_iff (streaks : r.Streaks) (positive : 1 ≤ r.threshold) (index : Nat) (now : Int) :
    r.stateOf index now ≠ .healthy ↔ r.threshold ≤ r.streak index := by
  unfold stateOf streak
  cases found : r.slots.get? index with
  | none =>
    refine iff_of_false (by simp) (not_le.mpr ?_)
    exact positive
  | some slot =>
    rw [Option.map_some, Option.getD_some, ← streaks index slot found]
    rw [ne_eq, state_healthy, Option.isSome_iff_ne_none]

/-! Probes. -/

/-- A half-open slot is granted, by a call that did not fail open. -/
def Probes (r : Registry) (order : List Nat) (now : Int) (index : Nat) : Prop :=
  (r.select order now).2 = some index ∧ r.stateOf index now = .halfOpen ∧
    (r.select order now).1.failOpenEvents = r.failOpenEvents

theorem Probes.usable (probes : r.Probes order now index) :
    order ≠ [] ∧ r.usable index now = true ∧
    r.select order now = ((r.eligible index now true).1, some index) := by
  obtain ⟨granted, -, closed⟩ := probes
  have filled : order ≠ [] := by
    rintro rfl
    cases granted
  refine ⟨filled, ?_⟩
  obtain ⟨index', -, usable, same⟩ | ⟨first, -, -, same⟩ := select_cases r now filled
  · rw [same] at granted
    cases granted
    exact ⟨usable, same⟩
  · rw [same] at closed
    exact absurd closed (Nat.succ_ne_self _)

/-- A probe is out, or the slot is quarantined again, up to the deadline. -/
structure Waits (index : Nat) (until_ deadline : Int) (slot : SlotHealth) (r : Registry) :
    Prop where
  found : r.slots.get? index = some slot
  streak : r.threshold ≤ slot.consecutiveFailures
  quarantine : ∃ t, slot.quarantinedUntil = some t ∧
    (slot.probeClaimedUntil = some until_ ∨ deadline < t)

/-- While it waits, a slot is not usable. -/
theorem Waits.unusable {until_ deadline : Int} (waits : Waits index until_ deadline slot r)
    (early : deadline < until_) (due : now ≤ deadline) : r.usable index now = false := by
  obtain ⟨t, quarantine, held⟩ := waits.quarantine
  rw [usable_eq_false]
  have state : r.stateOf index now = if now < t then .quarantined else .halfOpen := by
    simp only [stateOf, waits.found, SlotHealth.state, quarantine]
  rw [state]
  by_cases closed : now < t
  · exact .inl (if_pos closed)
  · refine .inr ⟨if_neg closed, ?_⟩
    obtain out | later := held
    · simp only [claimed, waits.found, Option.any_some, SlotHealth.claimed, out, decide_eq_true_eq]
      omega
    · omega

def Waiting (index : Nat) (until_ deadline : Int) (r : Registry) : Prop :=
  ∃ slot, Waits index until_ deadline slot r

/-- What may happen while a probe is out: no success of the slot, and no failure whose cooldown is
over by the deadline. -/
structure Idle (cooldown : Int) (index : Nat) (deadline : Int) (a : Action) : Prop where
  now : a.now ≤ deadline
  success : ∀ t, a ≠ .recordSuccess index t
  failure : ∀ errorClass t, a = .recordFailure index errorClass t → deadline < t + cooldown

theorem Waiting.step {until_ deadline : Int} (waiting : Waiting index until_ deadline r)
    (early : deadline < until_) {a : Action} (idle : Idle r.cooldown index deadline a) :
    Waiting index until_ deadline (step r a) := by
  obtain ⟨slot, waits⟩ := waiting
  cases a with
  | recordSuccess j now =>
    have other : index ≠ j := by
      rintro rfl
      exact idle.success now rfl
    exact ⟨slot, (Dict.get?_set_ne _ other _).trans waits.found, waits.streak, waits.quarantine⟩
  | recordFailure j errorClass now =>
    by_cases same : index = j
    · subst same
      have later := idle.failure errorClass now rfl
      have reached : r.threshold ≤ slot.consecutiveFailures + 1 := Nat.le_succ_of_le waits.streak
      refine ⟨{ slot with
          failures := slot.failures + 1
          consecutiveFailures := slot.consecutiveFailures + 1
          lastFailureAt := some now
          lastErrorClass := some errorClass
          quarantinedUntil := some (now + r.cooldown)
          probeClaimedUntil := none }, ?_, reached, now + r.cooldown, rfl, .inr later⟩
      simp only [ProxyHealth.step, recordFailure, Dict.get?_set_self, waits.found, Option.getD_some,
        if_pos reached]
    · exact ⟨slot, (Dict.get?_set_ne _ same _).trans waits.found, waits.streak,
        waits.quarantine⟩
  | select order now =>
    have unusable : r.usable index now = false := waits.unusable early idle.now
    have settled := settled_select ⟨rfl, rfl, rfl⟩ order now (r := r)
    have found : (r.select order now).1.slots.get? index = some slot := by
      obtain kept | ⟨old, -, usable, -⟩ := get?_select r order now index
      · rw [kept, waits.found]
      · rw [unusable] at usable
        cases usable
    refine ⟨slot, found, ?_, waits.quarantine⟩
    rw [ProxyHealth.step, settled.threshold]
    exact waits.streak
  | filterRotation order now =>
    have settled := settled_step ⟨rfl, rfl, rfl⟩ (.filterRotation order now) (r := r)
    refine ⟨slot, ?_, ?_, waits.quarantine⟩
    · rw [ProxyHealth.step, slots_filterRotation]
      exact waits.found
    · rw [settled.threshold]
      exact waits.streak

/-- Granting a probe sets the slot waiting. -/
theorem Probes.waiting (streaks : r.Streaks) (probes : r.Probes order now index) (deadline : Int) :
    Waiting index (now + r.halfOpenClaim) deadline (r.select order now).1 := by
  obtain ⟨-, usable, same⟩ := probes.usable
  obtain ⟨-, half, -⟩ := probes
  rw [same]
  have known : r.stateOf index now = .halfOpen := half
  unfold stateOf at half
  cases found : r.slots.get? index with
  | none =>
    rw [found] at half
    cases half
  | some slot =>
    rw [found] at half
    dsimp only at half
    have free : ¬ slot.claimed now = true := by
      intro held
      have refused : r.usable index now = false := by
        rw [usable_eq_false]
        refine .inr ⟨known, ?_⟩
        rw [claimed, found]
        exact held
      rw [refused] at usable
      cases usable
    have claims : (r.eligible index now true).1 =
        { r with
          slots := r.slots.set index
            { slot with probeClaimedUntil := some (now + r.halfOpenClaim) } } := by
      simp only [eligible, found, half, free, if_true, Bool.false_eq_true, if_false]
    rw [claims]
    have quarantined : slot.quarantinedUntil.isSome := by
      rw [Option.isSome_iff_ne_none, ne_eq, ← @state_healthy slot now, half]
      decide
    obtain ⟨t, quarantine⟩ := Option.isSome_iff_exists.mp quarantined
    exact ⟨_, Dict.get?_set_self _ _ _, (streaks index slot found).mp quarantined, t, quarantine,
      .inl rfl⟩

/-! Rotations and diagnostics. -/

theorem filterRotation_mem (filled : order ≠ []) :
    (r.filterRotation order now).2 ≠ [] ∧ ∀ index ∈ (r.filterRotation order now).2,
      index ∈ order := by
  simp only [filterRotation]
  split
  · rename_i some
    refine ⟨some.resolve_right filled, fun index inside => ?_⟩
    obtain healthy | half := List.mem_append.mp inside
    · exact (List.mem_filter.mp (List.mem_filter.mp healthy).1).1
    · exact (List.mem_filter.mp (List.mem_filter.mp half).1).1
  · exact ⟨filled, fun _ inside => inside⟩

theorem nodup_listing (r : Registry) (configured : Nat) : (r.listing configured).Nodup :=
  (List.perm_insertionSort _ _).nodup_iff.mpr (List.nodup_dedup _)

/-- Every slot that counts as degraded is one of the configured ones, once. -/
theorem categories_le (r : Registry) (configured : Nat) (now : Int) :
    ((r.listing configured).countP fun index => (r.category configured now index).isSome) ≤
      configured := by
  rw [List.countP_eq_length_filter]
  have inside : (r.listing configured).filter (fun index =>
      (r.category configured now index).isSome) ⊆ List.range configured := by
    intro index kept
    obtain ⟨category, known⟩ := Option.isSome_iff_exists.mp (List.mem_filter.mp kept).2
    obtain ⟨slot, -, known⟩ := Option.bind_eq_some_iff.mp known
    split at known
    · cases known
    · rename_i degraded
      exact List.mem_range.mpr (not_le.mp fun outside => degraded (.inr outside))
  have bound := (((nodup_listing r configured).filter _).subperm inside).length_le
  rwa [List.length_range] at bound

theorem count_categories {α : Type*} (l : List α) (f : α → Option Category) :
    (l.map f).count (some .quarantined) + (l.map f).count (some .probing) + (l.map f).count
    (some .dead) = l.countP fun x => (f x).isSome := by
  induction l with
  | nil => rfl
  | cons x l ih =>
    rw [List.countP_cons, ← ih]
    simp only [List.map_cons, List.count_cons]
    cases f x with
    | none => simp
    | some category => cases category <;> simp <;> omega

theorem diagnostics_partition (r : Registry) (configured concurrencyFloor : Nat) (now : Int) :
    (r.diagnostics configured concurrencyFloor now).healthy +
      (r.diagnostics configured concurrencyFloor now).quarantined +
      (r.diagnostics configured concurrencyFloor now).probing +
      (r.diagnostics configured concurrencyFloor now).dead =
        (r.diagnostics configured concurrencyFloor now).configured := by
  have total := count_categories (r.listing configured) (r.category configured now)
  have bound := categories_le r configured now
  simp only [diagnostics]
  omega

end Registry

/-! Whole runs. -/

def fresh (threshold : Nat) (cooldown halfOpenClaim : Int) : Registry :=
  { threshold, cooldown, halfOpenClaim }

section Runs
variable {threshold : Nat} {cooldown halfOpenClaim : Int}

theorem settled_run (actions : List Action) :
    (run step (fresh threshold cooldown halfOpenClaim) actions).Settled threshold cooldown
      halfOpenClaim :=
  invariant (I := Registry.Settled threshold cooldown halfOpenClaim)
    (fun _ a settled => Registry.settled_step settled a) ⟨rfl, rfl, rfl⟩

structure Tracked (threshold : Nat) (r : Registry) : Prop where
  threshold : r.threshold = threshold
  streaks : r.Streaks

/-- The failures of a slot since its last success, by the calls alone. -/
def failuresOf (index : Nat) (streak : Nat) : Action → Nat
  | .recordSuccess j _ => if j = index then 0 else streak
  | .recordFailure j _ _ => if j = index then streak + 1 else streak
  | _ => streak

theorem streak_step (r : Registry) (index : Nat) (a : Action) :
    (step r a).streak index = failuresOf index (r.streak index) a := by
  have set_streak (j : Nat) (slot : SlotHealth) :
      (((r.slots.set j slot).get? index).map SlotHealth.consecutiveFailures).getD 0 =
        if j = index then slot.consecutiveFailures else r.streak index := by
    rw [Dict.get?_set]
    by_cases here : index = j
    · rw [if_pos here, if_pos here.symm, Option.map_some, Option.getD_some]
    · rw [if_neg here, if_neg (Ne.symm here), Registry.streak]
  cases a with
  | recordSuccess j now => exact set_streak j _
  | recordFailure j errorClass now =>
    have old : ((r.slots.get? j).getD {}).consecutiveFailures = r.streak j := by
      unfold Registry.streak
      cases r.slots.get? j <;> rfl
    simp only [step, Registry.streak, Registry.recordFailure, set_streak, failuresOf]
    split
    · rename_i same
      subst same
      rw [← Registry.streak, ← old]
      split <;> rfl
    · rfl
  | select order now =>
    simp only [step, Registry.streak, failuresOf]
    obtain kept | ⟨old, known, -, -, claims⟩ := r.get?_select order now index
    · rw [kept]
    · rw [claims, known, Option.map_some, Option.map_some]
  | filterRotation order now =>
    simp only [step, Registry.streak, Registry.slots_filterRotation, failuresOf]

theorem tracked_run (positive : 1 ≤ threshold) (actions : List Action) :
    Tracked threshold (run step (fresh threshold cooldown halfOpenClaim) actions) := by
  refine invariant (fun r a tracked => ?_) ⟨rfl, fun index slot found => by cases found⟩
  have settled := Registry.settled_step (r := r) ⟨tracked.threshold, rfl, rfl⟩ a
  refine ⟨settled.threshold, Registry.streaks_step a tracked.streaks ?_⟩
  rw [tracked.threshold]
  exact positive

structure Guarding (threshold : Nat) (cooldown halfOpenClaim : Int) (index : Nat)
    (until_ deadline : Int) (r : Registry) : Prop where
  waiting : r.Waiting index until_ deadline
  settled : r.Settled threshold cooldown halfOpenClaim

theorem guarding_step {index : Nat} {until_ deadline : Int} (early : deadline < until_)
    (r : Registry) (a : Action)
    (guarding : Guarding threshold cooldown halfOpenClaim index until_ deadline r)
    (idle : Registry.Idle cooldown index deadline a) :
    Guarding threshold cooldown halfOpenClaim index until_ deadline (step r a) := by
  refine ⟨guarding.waiting.step early ?_, Registry.settled_step guarding.settled a⟩
  rw [guarding.settled.cooldown]
  exact idle

/-- Between two probes of a slot, none of them past the claim of the first, there was a success of
the slot or a failure whose cooldown is over. -/
theorem probes_apart (positive : 1 ≤ threshold) {before during : List Action}
    {order order' : List Nat} {now now' : Int} {index : Nat}
    (ordered : ∀ a ∈ during, a.now ≤ now')
    (first : (run step (fresh threshold cooldown halfOpenClaim) before).Probes order now index)
    (second : (run step (fresh threshold cooldown halfOpenClaim)
      (before ++ .select order now :: during)).Probes order' now' index)
    (window : now' < now + halfOpenClaim) :
    (∃ t, .recordSuccess index t ∈ during) ∨
      ∃ errorClass t, .recordFailure index errorClass t ∈ during ∧ t + cooldown ≤ now' := by
  by_contra neither
  rw [not_or, not_exists] at neither
  obtain ⟨noSuccess, noFailure⟩ := neither
  have start : Guarding threshold cooldown halfOpenClaim index (now + halfOpenClaim) now'
      (run step (fresh threshold cooldown halfOpenClaim) (before ++ [.select order now])) := by
    refine ⟨?_, settled_run _⟩
    have waiting := first.waiting (tracked_run positive before).streaks now'
    rw [(settled_run before).halfOpenClaim] at waiting
    rw [run_append]
    exact waiting
  have idle : Along step (fun _ a => Registry.Idle cooldown index now' a)
      (run step (fresh threshold cooldown halfOpenClaim) (before ++ [.select order now]))
        during := by
    refine Along.of_forall fun a inside _ => ⟨ordered a inside, ?_, ?_⟩
    · rintro t rfl
      exact noSuccess t inside
    · rintro errorClass t rfl
      by_contra past
      exact noFailure ⟨errorClass, t, inside, not_lt.mp past⟩
  have later := idle.invariant (guarding_step window) start
  have joined : before ++ .select order now :: during = (before ++ [.select order now]) ++
    during := by simp
  rw [joined, run_append] at second
  obtain ⟨slot, waits⟩ := later.waiting
  have refused := waits.unusable window le_rfl
  rw [second.usable.2.1] at refused
  cases refused

/-- What a registry promises along a run. -/
structure Promises (threshold : Nat) (actions : List Action) (r : Registry) : Prop where
  streak : ∀ index now, r.stateOf index now = .quarantined ∨ r.stateOf index now = .halfOpen ↔
    threshold ≤ actions.foldl (failuresOf index) 0
  select : ∀ order now, order ≠ [] →
    ∃ index ∈ order, (r.select order now).2 = some index ∧
    (r.stateOf index now = .quarantined ∨ r.stateOf index now = .halfOpen ∧
      r.claimed index now → ∀ other ∈ order,
        r.stateOf other now = .quarantined ∨ r.stateOf other now = .halfOpen ∧
        r.claimed other now)
  rotation : ∀ order now, order ≠ [] →
    (r.filterRotation order now).2 ≠ [] ∧ ∀ index ∈ (r.filterRotation order now).2,
      index ∈ order
  partition : ∀ configured concurrencyFloor now,
    (r.diagnostics configured concurrencyFloor now).healthy +
      (r.diagnostics configured concurrencyFloor now).quarantined +
      (r.diagnostics configured concurrencyFloor now).probing +
      (r.diagnostics configured concurrencyFloor now).dead = configured

theorem select_promise (r : Registry) {order : List Nat} {now : Int} (filled : order ≠ []) :
    ∃ index ∈ order, (r.select order now).2 = some index ∧
      (r.stateOf index now = .quarantined ∨ r.stateOf index now = .halfOpen ∧
        r.claimed index now → ∀ other ∈ order,
          r.stateOf other now = .quarantined ∨ r.stateOf other now = .halfOpen ∧
          r.claimed other now) := by
  obtain ⟨index, inside, usable, same⟩ | ⟨first, inside, none, same⟩ :=
    r.select_cases now filled
  · refine ⟨index, inside, by rw [same], fun closed => ?_⟩
    rw [← Registry.usable_eq_false, usable] at closed
    cases closed
  · exact ⟨first, inside, by
      rw [same], fun _ other listed => Registry.usable_eq_false.mp (none other listed)⟩

theorem streak_run (r : Registry) (index : Nat) (actions : List Action) :
    (run step r actions).streak index = actions.foldl (failuresOf index) (r.streak index) := by
  induction actions generalizing r with
  | nil => rfl
  | cons a actions ih => rw [run_cons, ih, streak_step, List.foldl_cons]

theorem state_promise (positive : 1 ≤ threshold) (actions : List Action) (index : Nat)
    (now : Int) :
    let r := run step (fresh threshold cooldown halfOpenClaim) actions
    r.stateOf index now = .quarantined ∨ r.stateOf index now = .halfOpen ↔
      threshold ≤ actions.foldl (failuresOf index) 0 := by
  intro r
  have tracked : Tracked threshold r := tracked_run positive actions
  have iff := Registry.stateOf_iff tracked.streaks (tracked.threshold ▸ positive) index now
  have streak : r.streak index = actions.foldl (failuresOf index) 0 := streak_run _ index actions
  rw [tracked.threshold, streak] at iff
  rw [← iff]
  cases r.stateOf index now <;> decide

/-- Every run keeps the promises, and within one claim window a half-open slot is granted once,
unless there was a success, or a failure that has cooled down. -/
theorem registry_promises (positive : 1 ≤ threshold) (actions : List Action)
    (ordered : actions.Pairwise fun a b => a.now ≤ b.now) :
    Promises threshold actions (run step (fresh threshold cooldown halfOpenClaim) actions) ∧
      ∀ before during after order order' now now' index,
        actions = before ++ .select order now :: (during ++ .select order' now' :: after) →
          (run step (fresh threshold cooldown halfOpenClaim) before).Probes order now index →
            (run step (fresh threshold cooldown halfOpenClaim)
              (before ++ .select order now :: during)).Probes order' now' index →
              now' < now + halfOpenClaim →
                (∃ t, .recordSuccess index t ∈ during) ∨
                  ∃ errorClass t, .recordFailure index errorClass t ∈ during ∧
                    t + cooldown ≤ now' := by
  refine ⟨⟨state_promise positive actions, fun order now filled => select_promise _ filled,
    fun order now filled => Registry.filterRotation_mem filled,
    fun configured floor now => Registry.diagnostics_partition _ configured floor now⟩, ?_⟩
  rintro before during after order order' now now' index rfl first second window
  refine probes_apart positive (fun a inside => ?_) first second window
  have tail := (List.pairwise_append.mp ordered).2.1
  exact (List.pairwise_append.mp (List.pairwise_cons.mp tail).2).2.2 a inside _ List.mem_cons_self

end Runs

/-! One slot, quarantined by its first failure for ten seconds, and a claim of thirty. -/

def shortCooldown : List Action :=
  [.recordFailure 0 "TimeoutError".toList 0, .select [0] (10 * second),
    .recordFailure 0 "TimeoutError".toList (11 * second)]

theorem probes_short :
    (run step (fresh 1 (10 * second) (30 * second)) (shortCooldown.take 1)).Probes [0]
    (10 * second) 0 ∧
      (run step (fresh 1 (10 * second) (30 * second)) shortCooldown).Probes [0]
      (21 * second) 0 := by
  refine ⟨⟨?_, ?_, ?_⟩, ?_, ?_, ?_⟩ <;> decide

theorem promises_short :
    Promises 1 (shortCooldown ++ [.select [0] (21 * second)])
        (run step (fresh 1 (10 * second) (30 * second))
          (shortCooldown ++ [.select [0] (21 * second)])) ∧
      ((∃ t, .recordSuccess 0 t ∈ shortCooldown.drop 2) ∨
        ∃ errorClass t, .recordFailure 0 errorClass t ∈ shortCooldown.drop 2 ∧
          t + 10 * second ≤ 21 * second) := by
  have kept := @registry_promises 1 (10 * second) (30 * second) (by decide)
    (shortCooldown ++ [.select [0] (21 * second)]) (by decide)
  exact ⟨kept.1, kept.2 (shortCooldown.take 1) (shortCooldown.drop 2) [] [0] [0] (10 * second)
    (21 * second) 0 rfl probes_short.1 probes_short.2 (by decide)⟩

/-- The failed probe is followed by another one 11 seconds after the first. -/
theorem one_probe_fails :
    ¬ ∀ (threshold : Nat) (cooldown halfOpenClaim : Int) (before during : List Action)
      (order order' : List Nat) (now now' : Int) (index : Nat),
      1 ≤ threshold →
        List.Pairwise (fun a b => a.now ≤ b.now)
          (before ++ .select order now :: (during ++ [.select order' now'])) →
          (run step (fresh threshold cooldown halfOpenClaim) before).Probes order now index →
            (run step (fresh threshold cooldown halfOpenClaim)
              (before ++ .select order now :: during)).Probes order' now' index →
              now' < now + halfOpenClaim → ∃ t, .recordSuccess index t ∈ during := by
  intro claim
  obtain ⟨t, inside⟩ :=
    claim 1 (10 * second) (30 * second) (shortCooldown.take 1) (shortCooldown.drop 2) [0] [0]
    (10 * second) (21 * second) 0 (by decide) (by decide) probes_short.1 probes_short.2 (by decide)
  cases List.mem_singleton.mp inside

end SharpEvPicks.Ingestion.ProxyHealth
