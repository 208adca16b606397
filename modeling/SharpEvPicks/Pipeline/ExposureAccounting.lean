import Mathlib.Algebra.Order.BigOperators.Group.List
import Mathlib.Logic.Relation
import SharpEvPicks.Pipeline.Persistence

/-! What the ledger holds while operations of `_persist_and_reserve` and direct callers are
interleaved. An operation gives way to others only where it awaits the database: before its
reservation, and between its reservation and its commit. What `persist_pick` answers it is
left open. -/
namespace SharpEvPicks.Pipeline

open Python Risk Storage

structure Charge where
  day : Int
  eventId : Option Str
  amount : ℚ

def Charge.onDay (c : Charge) (day : Int) : ℚ := if day = c.day then c.amount else 0

def Charge.onEvent (c : Charge) (day : Int) (eventId : Str) : ℚ :=
  if day = c.day ∧ c.eventId = some eventId then c.amount else 0

inductive Operation where
  | persisting (day : Int) (eventId : Str) (final : ℚ)
  | holding (day : Int) (eventId : Str) (granted : ℚ)
  | committed (day : Int) (eventId : Str) (granted : ℚ)
  | direct (c : Charge)
  | ended

def Operation.charge : Operation → Option Charge
  | .holding day eventId granted | .committed day eventId granted =>
    some ⟨day, some eventId, granted⟩
  | .direct c => some c
  | .persisting _ _ _ | .ended => none

def Operation.onDay (day : Int) (o : Operation) : ℚ := (o.charge.map (·.onDay day)).getD 0

def Operation.onEvent (day : Int) (eventId : Str) (o : Operation) : ℚ :=
  (o.charge.map (·.onEvent day eventId)).getD 0

structure Exposure where
  ledger : DailyExposureLedger
  operations : List Operation

def Exposure.chargedOn (s : Exposure) (day : Int) : ℚ :=
  (s.operations.map (Operation.onDay day)).sum

def Exposure.chargedOnEvent (s : Exposure) (day : Int) (eventId : Str) : ℚ :=
  (s.operations.map (Operation.onEvent day eventId)).sum

/-- One step of one operation, or one call of a direct caller. -/
inductive Step : Exposure → Exposure → Prop where
  | begin (s : Exposure) (day : Int) (eventId : Str) (final : ℚ) :
    Step s { s with operations := s.operations ++ [.persisting day eventId final] }
  | reserved {ledger charged : DailyExposureLedger} {day : Int} {eventId : Str}
      {final requested granted : ℚ} (persisted : Persisted) (before after : List Operation)
      (asked : requestedFraction final persisted = some requested)
      (grants : ledger.reserve day requested (some eventId) = .ok (granted, charged)) :
    Step ⟨ledger, before ++ .persisting day eventId final :: after⟩
      ⟨charged, before ++ .holding day eventId granted :: after⟩
  -- a duplicate, or a failure before the reservation
  | ended (ledger : DailyExposureLedger) (day : Int) (eventId : Str) (final : ℚ)
      (before after : List Operation) :
    Step ⟨ledger, before ++ .persisting day eventId final :: after⟩
      ⟨ledger, before ++ .ended :: after⟩
  | committed (ledger : DailyExposureLedger) (day : Int) (eventId : Str) (granted : ℚ)
      (before after : List Operation) :
    Step ⟨ledger, before ++ .holding day eventId granted :: after⟩
      ⟨ledger, before ++ .committed day eventId granted :: after⟩
  | failed (ledger : DailyExposureLedger) (day : Int) (eventId : Str) (granted : ℚ)
      (before after : List Operation) :
    Step ⟨ledger, before ++ .holding day eventId granted :: after⟩
      ⟨handBack ledger day granted eventId, before ++ .ended :: after⟩
  | reservedDirectly {s : Exposure} {charged : DailyExposureLedger} {day : Int}
      {eventId : Option Str} {fraction granted : ℚ}
      (grants : s.ledger.reserve day fraction eventId = .ok
        (granted, charged)) :
    Step s ⟨charged, s.operations ++ [.direct ⟨day, eventId, granted⟩]⟩
  | releasedDirectly {ledger released : DailyExposureLedger} {c : Charge}
      (before after : List Operation)
      (gives : ledger.release c.day c.amount c.eventId = .ok released) :
    Step ⟨ledger, before ++ .direct c :: after⟩ ⟨released, before ++ .ended :: after⟩

abbrev Steps : Exposure → Exposure → Prop := Relation.ReflTransGen Step

/-! The ledger moves by what an operation takes or gives. -/

variable {l l' : DailyExposureLedger}

/-- The totals of `l'` are those of `l` and `c`, under the same caps. -/
structure Charged (l : DailyExposureLedger) (c : Charge) (l' : DailyExposureLedger) : Prop where
  daily : l'.maxDailyFraction = l.maxDailyFraction
  event : l'.maxEventFraction = l.maxEventFraction
  used : ∀ day, l'.used day = l.used day + c.onDay day
  eventUsed : ∀ day e, l'.eventUsed day e = l.eventUsed day e + c.onEvent day e

theorem charged_zero (day : Int) (eventId : Option Str) : Charged l ⟨day, eventId, 0⟩ l := by
  constructor <;> simp [Charge.onDay, Charge.onEvent]

theorem charged_of_reserve {day : Int} {eventId : Option Str} {fraction granted : ℚ}
    (grants : l.reserve day fraction eventId = .ok (granted, l')) :
    Charged l ⟨day, eventId, granted⟩ l' ∧ 0 ≤ granted ∧ granted ≤ l.remaining day ∧
      ∀ cap e, l.maxEventFraction = some cap → eventId = some e →
        granted ≤ max (cap - l.eventUsed day e) 0 := by
  obtain ⟨asked, amount, moved⟩ := DailyExposureLedger.reserve_ok grants
  have nonneg : 0 ≤ granted := amount ▸ DailyExposureLedger.grant_nonneg asked
  refine ⟨?_, nonneg, amount ▸ DailyExposureLedger.grant_le_remaining fraction, ?_⟩
  · by_cases some_ : 0 < granted
    · rw [if_pos some_] at moved
      subst moved
      refine ⟨rfl, rfl, ?_, ?_⟩
      · intro d
        rw [DailyExposureLedger.used_book, Charge.onDay]
        split
        · rename_i same
          rw [same]
        · rw [add_zero]
      · intro d e
        rw [DailyExposureLedger.eventUsed_book, Charge.onEvent]
        split
        · rename_i same
          rw [same.1]
        · rw [add_zero]
    · rw [if_neg some_] at moved
      have zero : granted = 0 := le_antisymm (not_lt.mp some_) nonneg
      rw [moved, zero]
      exact charged_zero day eventId
  · rintro cap e capped rfl
    exact amount ▸ DailyExposureLedger.grant_le_eventRemaining capped fraction e

/-- Where the totals cover an amount, its release takes back just the charge. -/
theorem charged_of_release {c : Charge} (nonneg : 0 ≤ c.amount)
    (covered : c.amount ≤ l.used c.day)
    (coveredEvent : ∀ e, c.eventId = some e → c.amount ≤ l.eventUsed c.day e)
    (gives : l.release c.day c.amount c.eventId = .ok l') : Charged l' c l := by
  unfold DailyExposureLedger.release at gives
  rw [if_neg (not_lt.mpr nonneg)] at gives
  cases gives
  split
  · refine ⟨rfl, rfl, ?_, ?_⟩
    · intro d
      rw [DailyExposureLedger.used_book, Charge.onDay]
      split
      · rename_i same
        rw [same, max_eq_left (sub_nonneg.mpr covered), sub_add_cancel]
      · rw [add_zero]
    · intro d e
      rw [DailyExposureLedger.eventUsed_book, Charge.onEvent]
      split
      · rename_i same
        rw [same.1, max_eq_left (sub_nonneg.mpr (coveredEvent e same.2)), sub_add_cancel]
      · rw [add_zero]
  · rename_i none_
    have zero : c.amount = 0 := le_antisymm (not_lt.mp none_) nonneg
    obtain ⟨day, eventId, amount⟩ := c
    cases zero
    exact charged_zero day eventId

theorem charged_of_handBack {day : Int} {eventId : Str} {granted : ℚ} (nonneg : 0 ≤ granted)
    (covered : granted ≤ l.used day) (coveredEvent : granted ≤ l.eventUsed day eventId) :
    Charged (handBack l day granted eventId) ⟨day, some eventId, granted⟩ l := by
  unfold handBack
  split
  · cases gives : l.release day granted (some eventId) with
    | ok released =>
      refine charged_of_release nonneg covered ?_ gives
      intro e same
      rw [← Option.some.inj same]
      exact coveredEvent
    | error err =>
      unfold DailyExposureLedger.release at gives
      rw [if_neg (not_lt.mpr nonneg)] at gives
      cases gives
  · rename_i none_
    have zero : granted = 0 := le_antisymm (not_lt.mp none_) nonneg
    rw [zero]
    exact charged_zero day (some eventId)

/-! The invariant of a run: the totals are the preload and what the operations hold. -/

structure Balanced (start : DailyExposureLedger) (s : Exposure) : Prop where
  daily : s.ledger.maxDailyFraction = start.maxDailyFraction
  event : s.ledger.maxEventFraction = start.maxEventFraction
  used : ∀ day, s.ledger.used day = start.used day + s.chargedOn day
  eventUsed : ∀ day e, s.ledger.eventUsed day e = start.eventUsed day e + s.chargedOnEvent day e
  nonneg : ∀ o ∈ s.operations, ∀ c, o.charge = some c → 0 ≤ c.amount
  used_le : ∀ day, s.ledger.used day ≤ start.maxDailyFraction
  eventUsed_le : ∀ cap, start.maxEventFraction = some cap →
    ∀ day e, s.ledger.eventUsed day e ≤ cap

variable {start : DailyExposureLedger} {s s' : Exposure} {before after : List Operation}
  {o o' : Operation}

theorem chargedOn_at (ledger : DailyExposureLedger) (day : Int) :
    (Exposure.mk ledger (before ++ o :: after)).chargedOn day =
      (before.map (Operation.onDay day)).sum + (after.map (Operation.onDay day)).sum + o.onDay
        day := by
  simp only [Exposure.chargedOn, List.map_append, List.map_cons, List.sum_append, List.sum_cons]
  ring

theorem chargedOnEvent_at (ledger : DailyExposureLedger) (day : Int) (e : Str) :
    (Exposure.mk ledger (before ++ o :: after)).chargedOnEvent day e =
      (before.map (Operation.onEvent day e)).sum + (after.map (Operation.onEvent day e)).sum +
        o.onEvent day e := by
  simp only [Exposure.chargedOnEvent, List.map_append, List.map_cons, List.sum_append,
    List.sum_cons]
  ring

theorem onDay_nonneg (nonneg : ∀ c, o.charge = some c → 0 ≤ c.amount) (day : Int) :
    0 ≤ o.onDay day := by
  unfold Operation.onDay
  cases held : o.charge with
  | none => exact le_refl 0
  | some c =>
    rw [Option.map_some, Option.getD_some, Charge.onDay]
    split
    · exact nonneg c held
    · exact le_refl 0

theorem onEvent_nonneg (nonneg : ∀ c, o.charge = some c → 0 ≤ c.amount) (day : Int)
    (e : Str) : 0 ≤ o.onEvent day e := by
  unfold Operation.onEvent
  cases held : o.charge with
  | none => exact le_refl 0
  | some c =>
    rw [Option.map_some, Option.getD_some, Charge.onEvent]
    split
    · exact nonneg c held
    · exact le_refl 0

/-- The totals cover every grant that is held, so that no release of one is clamped. -/
theorem Balanced.covered (balanced : Balanced start s) (preloaded : start.WithinCaps)
    (inside : o ∈ s.operations) {c : Charge} (held : o.charge = some c) :
    c.amount ≤ s.ledger.used c.day ∧
      ∀ e, c.eventId = some e → c.amount ≤ s.ledger.eventUsed c.day e := by
  constructor
  · have share : o.onDay c.day ≤ s.chargedOn c.day := by
      apply List.single_le_sum
      · intro q listed
        obtain ⟨o', inside', rfl⟩ := List.mem_map.mp listed
        exact onDay_nonneg (balanced.nonneg o' inside') c.day
      · exact List.mem_map_of_mem inside
    have amount : o.onDay c.day = c.amount := by simp [Operation.onDay, held, Charge.onDay]
    have base := preloaded.used_nonneg c.day
    have total := balanced.used c.day
    linarith
  · intro e named
    have share : o.onEvent c.day e ≤ s.chargedOnEvent c.day e := by
      apply List.single_le_sum
      · intro q listed
        obtain ⟨o', inside', rfl⟩ := List.mem_map.mp listed
        exact onEvent_nonneg (balanced.nonneg o' inside') c.day e
      · exact List.mem_map_of_mem inside
    have amount : o.onEvent c.day e = c.amount := by
      simp [Operation.onEvent, held, Charge.onEvent, named]
    have base := preloaded.eventUsed_nonneg c.day e
    have total := balanced.eventUsed c.day e
    linarith

theorem balanced_start (preloaded : start.WithinCaps) : Balanced start ⟨start, []⟩ where
  daily := rfl
  event := rfl
  used day := (add_zero _).symm
  eventUsed day e := (add_zero _).symm
  nonneg o inside := by cases inside
  used_le := preloaded.used_le
  eventUsed_le := preloaded.eventUsed_le

theorem Balanced.waiting (balanced : Balanced start s) (idle : o.charge = none) :
    Balanced start ⟨s.ledger, s.operations ++ [o]⟩ where
  daily := balanced.daily
  event := balanced.event
  used day := by
    rw [balanced.used, chargedOn_at]
    simp [Exposure.chargedOn, Operation.onDay, idle]
  eventUsed day e := by
    rw [balanced.eventUsed, chargedOnEvent_at]
    simp [Exposure.chargedOnEvent, Operation.onEvent, idle]
  nonneg o' inside c held := by
    rcases List.mem_append.mp inside with old | new
    · exact balanced.nonneg o' old c held
    · rw [List.mem_singleton.mp new, idle] at held
      cases held
  used_le := balanced.used_le
  eventUsed_le := balanced.eventUsed_le

/-- An operation that moves on takes from the ledger what it then holds more than before. -/
theorem Balanced.move (balanced : Balanced start ⟨l, before ++ o :: after⟩)
    (daily : l'.maxDailyFraction = l.maxDailyFraction)
    (event : l'.maxEventFraction = l.maxEventFraction)
    (used : ∀ day, l'.used day + o.onDay day = l.used day + o'.onDay day)
    (eventUsed : ∀ day e,
      l'.eventUsed day e + o.onEvent day e = l.eventUsed day e + o'.onEvent day e)
    (nonneg : ∀ c, o'.charge = some c → 0 ≤ c.amount)
    (used_le : ∀ day, l'.used day ≤ start.maxDailyFraction)
    (eventUsed_le : ∀ cap, start.maxEventFraction = some cap → ∀ day e,
      l'.eventUsed day e ≤ cap) :
    Balanced start ⟨l', before ++ o' :: after⟩ where
  daily := daily.trans balanced.daily
  event := event.trans balanced.event
  used day := by
    have total := balanced.used day
    rw [chargedOn_at] at total ⊢
    have moved := used day
    simp only at total ⊢
    linarith
  eventUsed day e := by
    have total := balanced.eventUsed day e
    rw [chargedOnEvent_at] at total ⊢
    have moved := eventUsed day e
    simp only at total ⊢
    linarith
  nonneg o'' inside c held := by
    rcases List.mem_append.mp inside with left | right
    · exact balanced.nonneg o'' (List.mem_append_left _ left) c held
    rcases List.mem_cons.mp right with rfl | right
    · exact nonneg c held
    · exact balanced.nonneg o'' (List.mem_append_right _ (List.mem_cons_of_mem _ right)) c held
  used_le := used_le
  eventUsed_le := eventUsed_le

theorem Balanced.reserve {day : Int} {eventId : Option Str} {fraction granted : ℚ}
    (balanced : Balanced start ⟨l, before ++ o :: after⟩) (idle : o.charge = none)
    (grants : l.reserve day fraction eventId = .ok (granted, l'))
    (holds : o'.charge = some ⟨day, eventId, granted⟩) :
    Balanced start ⟨l', before ++ o' :: after⟩ := by
  obtain ⟨charged, nonneg, room, eventRoom⟩ := charged_of_reserve grants
  refine balanced.move charged.daily charged.event ?_ ?_ ?_ ?_ ?_
  · intro d
    simp [charged.used d, Operation.onDay, idle, holds]
  · intro d e
    simp [charged.eventUsed d e, Operation.onEvent, idle, holds]
  · intro c held
    rw [holds] at held
    cases held
    exact nonneg
  · intro d
    have within := balanced.used_le d
    rw [charged.used d, Charge.onDay]
    split
    · rename_i same
      subst same
      have cap := balanced.daily
      have left : l.remaining d = l.maxDailyFraction - l.used d := by
        apply max_eq_left
        simp only at cap within
        linarith
      simp only at cap
      linarith
    · rw [add_zero]
      exact within
  · intro cap capped d e
    have within := balanced.eventUsed_le cap capped d e
    rw [charged.eventUsed d e, Charge.onEvent]
    split
    · rename_i same
      obtain ⟨rfl, named⟩ := same
      have bound := eventRoom cap e (balanced.event.trans capped) named
      have left : max (cap - l.eventUsed d e) 0 = cap - l.eventUsed d e :=
        max_eq_left (sub_nonneg.mpr within)
      simp only at bound ⊢
      linarith
    · rw [add_zero]
      exact within

theorem Balanced.giveBack {c : Charge} (balanced : Balanced start ⟨l, before ++ o :: after⟩)
    (held : o.charge = some c) (given : Charged l' c l) :
    Balanced start ⟨l', before ++ .ended :: after⟩ := by
  have holder : o ∈ (Exposure.mk l (before ++ o :: after)).operations :=
    List.mem_append_right _ List.mem_cons_self
  have nonneg := balanced.nonneg o holder c held
  have onDay (d : Int) : o.onDay d = c.onDay d := by simp [Operation.onDay, held]
  have onEvent (d : Int) (e : Str) : o.onEvent d e = c.onEvent d e := by
    simp [Operation.onEvent, held]
  refine balanced.move given.daily.symm given.event.symm ?_ ?_ ?_ ?_ ?_
  · intro d
    rw [onDay, given.used d]
    exact (add_zero _).symm
  · intro d e
    rw [onEvent, given.eventUsed d e]
    exact (add_zero _).symm
  · intro c' none_
    cases none_
  · intro d
    have within := balanced.used_le d
    have part := onDay_nonneg (balanced.nonneg o holder) d
    rw [onDay] at part
    have total := given.used d
    simp only at within
    linarith
  · intro cap capped d e
    have within := balanced.eventUsed_le cap capped d e
    have part := onEvent_nonneg (balanced.nonneg o holder) d e
    rw [onEvent] at part
    have total := given.eventUsed d e
    simp only at within
    linarith

theorem balanced_step (preloaded : start.WithinCaps) (balanced : Balanced start s)
    (step : Step s s') : Balanced start s' := by
  cases step with
  | begin day eventId final => exact balanced.waiting rfl
  | reserved persisted before after asked grants => exact balanced.reserve rfl grants rfl
  | ended ledger day eventId final before after =>
    refine balanced.move rfl rfl (fun _ => rfl)
      (fun _ _ => rfl) ?_ balanced.used_le balanced.eventUsed_le
    intro c none_
    cases none_
  | committed ledger day eventId granted before after =>
    refine balanced.move rfl rfl (fun _ => rfl)
      (fun _ _ => rfl) ?_ balanced.used_le balanced.eventUsed_le
    intro c held
    exact balanced.nonneg _ (List.mem_append_right _ List.mem_cons_self) c held
  | failed ledger day eventId granted before after =>
    have holder : Operation.holding day eventId granted ∈
        (Exposure.mk ledger (before ++ .holding day eventId granted :: after)).operations :=
      List.mem_append_right _ List.mem_cons_self
    obtain ⟨daily, event⟩ := balanced.covered preloaded holder rfl
    exact balanced.giveBack rfl
      (charged_of_handBack (balanced.nonneg _ holder _ rfl) daily (event eventId rfl))
  | reservedDirectly grants =>
    have idle : Balanced start ⟨s.ledger, s.operations ++ [.ended]⟩ := balanced.waiting rfl
    exact idle.reserve rfl grants rfl
  | releasedDirectly before after gives =>
    rename_i ledger released c
    have holder : Operation.direct c ∈
        (Exposure.mk ledger (before ++ .direct c :: after)).operations :=
      List.mem_append_right _ List.mem_cons_self
    obtain ⟨daily, event⟩ := balanced.covered preloaded holder rfl
    exact balanced.giveBack rfl
      (charged_of_release (balanced.nonneg _ holder _ rfl) daily event gives)

theorem balanced_steps (preloaded : start.WithinCaps) (run : Steps ⟨start, []⟩ s) :
    Balanced start s := by
  induction run with
  | refl => exact balanced_start preloaded
  | tail _ step ih => exact balanced_step preloaded ih step

/-- The operation as it is written takes these steps, when nothing comes in between. -/
theorem persistAndReserve_steps [Unicode] (deps : PersistDeps) (picks : PickTable)
    (ledger : DailyExposureLedger) (target : Option Target) (pick : PickOut)
    (breakdown : StakeBreakdown) (eventId : Str) (now : Int) (fault : Option Fault)
    (others : List Operation) :
    ∃ o, Steps ⟨ledger, others ++ [.persisting (dateOf now) eventId breakdown.final]⟩
        ⟨(persistAndReserve deps picks ledger target pick breakdown eventId now fault).ledger,
          others ++ [o]⟩ ∧
      (o = .ended ∨ ∃ granted, o = .committed (dateOf now) eventId granted) ∧
      ((persistAndReserve deps picks ledger target pick breakdown eventId now fault).outcome =
        .unpersisted → o = .ended) := by
  have ended : Steps ⟨ledger, others ++ [.persisting (dateOf now) eventId breakdown.final]⟩
      ⟨ledger, others ++ [.ended]⟩ := .single (.ended _ _ _ _ _ [])
  have ran := persistAndReserve_ran deps picks ledger target pick breakdown eventId now fault
  generalize persistAndReserve deps picks ledger target pick breakdown eventId now fault =
    r at ran ⊢
  cases ran with
  | unconfigured off => exact ⟨.ended, ended, .inl rfl, fun _ => rfl⟩
  | withheld => exact ⟨.ended, ended, .inl rfl, fun _ => rfl⟩
  | duplicate known found idle => exact ⟨.ended, ended, .inl rfl, fun _ => rfl⟩
  | handedBack asked grants =>
    refine ⟨.ended, ?_, .inl rfl, fun _ => rfl⟩
    exact (Relation.ReflTransGen.single (.reserved _ others [] asked grants)).tail
      (.failed _ _ _ _ others [])
  | committed known found asked grants finished =>
    rename_i t persisted written finalized requested granted charged staked
    refine ⟨.committed (dateOf now) eventId granted, ?_, .inr ⟨granted, rfl⟩, ?_⟩
    · exact (Relation.ReflTransGen.single (.reserved _ others [] asked grants)).tail
        (.committed _ _ _ _ others [])
    · intro unpersisted
      cases persisted <;> cases unpersisted

/-- The ledger holds the preload and what the operations hold, within the caps, and it
covers each of their grants. -/
structure Accounted (start : DailyExposureLedger) (s : Exposure) : Prop where
  used : ∀ day, s.ledger.used day = start.used day + s.chargedOn day
  eventUsed : ∀ day e, s.ledger.eventUsed day e = start.eventUsed day e + s.chargedOnEvent day e
  used_le : ∀ day, s.ledger.used day ≤ start.maxDailyFraction
  eventUsed_le : ∀ cap, start.maxEventFraction = some cap →
    ∀ day e, s.ledger.eventUsed day e ≤ cap
  unclamped : ∀ o ∈ s.operations, ∀ c, o.charge = some c →
    max (s.ledger.used c.day - c.amount) 0 = s.ledger.used c.day - c.amount ∧
      ∀ e, c.eventId = some e →
        max (s.ledger.eventUsed c.day e - c.amount) 0 = s.ledger.eventUsed c.day e - c.amount

theorem exposure_accounted (preloaded : start.WithinCaps) (run : Steps ⟨start, []⟩ s) :
    Accounted start s := by
  have balanced := balanced_steps preloaded run
  refine ⟨balanced.used, balanced.eventUsed, balanced.used_le, balanced.eventUsed_le, ?_⟩
  intro o inside c held
  obtain ⟨daily, event⟩ := balanced.covered preloaded inside held
  exact ⟨max_eq_left (sub_nonneg.mpr daily),
    fun e named => max_eq_left (sub_nonneg.mpr (event e named))⟩

theorem step_direct (s : Exposure) (day : Int) (eventId : Option Str) {fraction : ℚ}
    (asked : 0 ≤ fraction) :
    Step s ⟨if 0 < s.ledger.grant day fraction eventId then
        s.ledger.book day eventId (· + s.ledger.grant day fraction eventId) else s.ledger,
      s.operations ++ [.direct ⟨day, eventId, s.ledger.grant day fraction eventId⟩]⟩ :=
  .reservedDirectly (DailyExposureLedger.reserve_of_nonneg asked)

def dailyLedger : DailyExposureLedger where
  maxDailyFraction := 5 / 100
  maxEventFraction := some (4 / 100)

/-- A pick takes its grant and fails; what it held is free again for a direct caller. -/
theorem dailyLedger_accounted :
    ∃ s, Steps ⟨dailyLedger, []⟩ s ∧ s.chargedOn 7 = 4 / 100 ∧
      Accounted dailyLedger s := by
  have fresh : dailyLedger.WithinCaps :=
    DailyExposureLedger.withinCaps_fresh (by norm_num) fun cap same => by
      rw [← Option.some.inj same]
      norm_num
  have asked : (0 : ℚ) ≤ 2 / 100 := by norm_num
  have more : (0 : ℚ) ≤ 5 / 100 := by norm_num
  have run : Steps ⟨dailyLedger, []⟩ _ :=
    (((Relation.ReflTransGen.single (.begin ⟨dailyLedger, []⟩ 7 "e1".toList (2 / 100))).tail
      (.reserved .inserted [] [] rfl (DailyExposureLedger.reserve_of_nonneg asked))).tail
        (.failed _ _ _ _ [] [])).tail (step_direct _ 7 (some "e1".toList) more)
  exact ⟨_, run, by decide +kernel, exposure_accounted fresh run⟩

end SharpEvPicks.Pipeline
