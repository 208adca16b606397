import Mathlib.Algebra.Order.Field.Rat
import Mathlib.Tactic.Linarith
import SharpEvPicks.Python.Dict
import SharpEvPicks.Schemas

/-! The ledger of recommended stake fractions, `app/risk/exposure.py`, in exact
arithmetic. A day is its number from the epoch. -/
namespace SharpEvPicks.Risk

open Python

structure DailyExposureLedger where
  maxDailyFraction : ℚ
  maxEventFraction : Option ℚ := none
  usedByDay : Dict Int ℚ := Dict.empty
  usedByEvent : Dict (Int × Str) ℚ := Dict.empty

/-- The places where the ledger raises `ValueError`. -/
inductive LedgerError where
  | negativeRequest | negativePreload | negativeEventPreload | negativeRelease
  deriving DecidableEq, Repr

namespace DailyExposureLedger

def used (l : DailyExposureLedger) (day : Int) : ℚ := (l.usedByDay.get? day).getD 0

def remaining (l : DailyExposureLedger) (day : Int) : ℚ := max (l.maxDailyFraction - l.used day) 0

def eventUsed (l : DailyExposureLedger) (day : Int) (eventId : Str) : ℚ :=
  (l.usedByEvent.get? (day, eventId)).getD 0

def eventRemaining (l : DailyExposureLedger) (day : Int) (eventId : Str) : ℚ :=
  match l.maxEventFraction with
  | none => l.remaining day
  | some cap => max (cap - l.eventUsed day eventId) 0

def book (l : DailyExposureLedger) (day : Int) (eventId : Option Str) (f : ℚ → ℚ) :
    DailyExposureLedger :=
  { l with
    usedByDay := l.usedByDay.set day (f (l.used day))
    usedByEvent := match eventId with
      | none => l.usedByEvent
      | some e => l.usedByEvent.set (day, e) (f (l.eventUsed day e)) }

def grant (l : DailyExposureLedger) (day : Int) (fraction : ℚ) (eventId : Option Str) : ℚ :=
  let granted := min fraction (l.remaining day)
  match l.maxEventFraction, eventId with
  | some _, some e => min granted (l.eventRemaining day e)
  | _, _ => granted

def reserve (l : DailyExposureLedger) (day : Int) (fraction : ℚ) (eventId : Option Str) :
    Except LedgerError (ℚ × DailyExposureLedger) :=
  if fraction < 0 then .error .negativeRequest
  else
    let granted := l.grant day fraction eventId
    .ok (granted, if 0 < granted then l.book day eventId (· + granted) else l)

def preload (l : DailyExposureLedger) (day : Int) (fraction : ℚ) :
    Except LedgerError DailyExposureLedger :=
  if fraction < 0 then .error .negativePreload
  else .ok { l with usedByDay := l.usedByDay.set day fraction }

def preloadEvent (l : DailyExposureLedger) (day : Int) (eventId : Str) (fraction : ℚ) :
    Except LedgerError DailyExposureLedger :=
  if fraction < 0 then .error .negativeEventPreload
  else .ok { l with usedByEvent := l.usedByEvent.set (day, eventId) fraction }

def release (l : DailyExposureLedger) (day : Int) (fraction : ℚ) (eventId : Option Str) :
    Except LedgerError DailyExposureLedger :=
  if fraction < 0 then .error .negativeRelease
  else .ok (if 0 < fraction then l.book day eventId fun total => max (total - fraction) 0 else l)

/-! What one change does to the totals. -/

variable {l l' : DailyExposureLedger} {day : Int} {eventId : Option Str}

@[simp] theorem maxDailyFraction_book (f : ℚ → ℚ) :
    (l.book day eventId f).maxDailyFraction = l.maxDailyFraction := rfl

@[simp] theorem maxEventFraction_book (f : ℚ → ℚ) :
    (l.book day eventId f).maxEventFraction = l.maxEventFraction := rfl

theorem used_book (f : ℚ → ℚ) (d : Int) :
    (l.book day eventId f).used d = if d = day then f (l.used day) else l.used d := by
  unfold used book
  rw [Dict.get?_set]
  split <;> rfl

theorem eventUsed_book (f : ℚ → ℚ) (d : Int) (e : Str) :
    (l.book day eventId f).eventUsed d e =
      if d = day ∧ eventId = some e then f (l.eventUsed day e) else l.eventUsed d e := by
  cases eventId with
  | none => simp [eventUsed, book]
  | some e' =>
    unfold eventUsed book
    rw [Dict.get?_set]
    by_cases here : d = day ∧ e = e'
    · obtain ⟨rfl, rfl⟩ := here
      simp [eventUsed]
    · have apart : ¬ (d = day ∧ some e' = some e) := by
        rintro ⟨rfl, same⟩
        exact here ⟨rfl, (Option.some.inj same).symm⟩
      have apart' : ¬ (d, e) = (day, e') := by
        rintro same
        exact here (Prod.mk.inj same)
      rw [if_neg apart, if_neg apart']

theorem remaining_nonneg : 0 ≤ l.remaining day := le_max_right _ _

theorem eventRemaining_nonneg (e : Str) : 0 ≤ l.eventRemaining day e := by
  unfold eventRemaining
  split
  · exact remaining_nonneg
  · exact le_max_right _ _

theorem grant_nonneg {fraction : ℚ} (asked : 0 ≤ fraction) :
    0 ≤ l.grant day fraction eventId := by
  have daily : 0 ≤ min fraction (l.remaining day) := le_min asked remaining_nonneg
  unfold grant
  split
  · exact le_min daily (eventRemaining_nonneg _)
  · exact daily

theorem grant_le (fraction : ℚ) : l.grant day fraction eventId ≤ fraction := by
  unfold grant
  split
  · exact (min_le_left _ _).trans (min_le_left _ _)
  · exact min_le_left _ _

theorem grant_le_remaining (fraction : ℚ) : l.grant day fraction eventId ≤ l.remaining day := by
  unfold grant
  split
  · exact (min_le_left _ _).trans (min_le_right _ _)
  · exact min_le_right _ _

theorem grant_le_eventRemaining {cap : ℚ} (capped : l.maxEventFraction = some cap)
    (fraction : ℚ) (e : Str) :
      l.grant day fraction (some e) ≤ max (cap - l.eventUsed day e) 0 := by
  unfold grant
  rw [capped]
  apply (min_le_right _ _).trans
  simp only [eventRemaining, capped, le_refl]

theorem reserve_of_nonneg {fraction : ℚ} (asked : 0 ≤ fraction) :
    l.reserve day fraction eventId = .ok (l.grant day fraction eventId,
      if 0 < l.grant day fraction eventId then l.book day eventId
        (· + l.grant day fraction eventId)
      else l) :=
  if_neg (not_lt.mpr asked)

theorem reserve_ok {fraction granted : ℚ}
    (reserved : l.reserve day fraction eventId = .ok (granted, l')) :
    0 ≤ fraction ∧ granted = l.grant day fraction eventId ∧
      l' = if 0 < granted then l.book day eventId (· + granted) else l := by
  unfold reserve at reserved
  split at reserved
  · cases reserved
  · rename_i asked
    cases reserved
    exact ⟨not_lt.mp asked, rfl, rfl⟩

theorem preload_ok {fraction : ℚ} (preloaded : l.preload day fraction = .ok l') :
    0 ≤ fraction ∧ l' = { l with usedByDay := l.usedByDay.set day fraction } := by
  unfold preload at preloaded
  split at preloaded
  · cases preloaded
  · rename_i asked
    cases preloaded
    exact ⟨not_lt.mp asked, rfl⟩

theorem used_preloaded (fraction : ℚ) (d : Int) :
    used { l with usedByDay := l.usedByDay.set day fraction } d = if d = day then fraction
      else l.used d := by
  unfold used
  rw [Dict.get?_set]
  split <;> rfl

theorem preloadEvent_ok {e : Str} {fraction : ℚ}
    (preloaded : l.preloadEvent day e fraction = .ok l') :
    0 ≤ fraction ∧ l' = { l with usedByEvent := l.usedByEvent.set (day, e) fraction } := by
  unfold preloadEvent at preloaded
  split at preloaded
  · cases preloaded
  · rename_i asked
    cases preloaded
    exact ⟨not_lt.mp asked, rfl⟩

theorem eventUsed_preloaded (e : Str) (fraction : ℚ) (d : Int) (e' : Str) :
    eventUsed { l with usedByEvent := l.usedByEvent.set (day, e) fraction } d e' =
      if d = day ∧ e' = e then fraction else l.eventUsed d e' := by
  unfold eventUsed
  rw [Dict.get?_set]
  simp only [Prod.mk.injEq]
  split <;> rfl

/-! The caps. -/

structure WithinCaps (l : DailyExposureLedger) : Prop where
  used_nonneg : ∀ day, 0 ≤ l.used day
  used_le : ∀ day, l.used day ≤ l.maxDailyFraction
  eventUsed_nonneg : ∀ day e, 0 ≤ l.eventUsed day e
  eventUsed_le : ∀ cap, l.maxEventFraction = some cap → ∀ day e, l.eventUsed day e ≤ cap

theorem withinCaps_fresh {daily : ℚ} {event : Option ℚ} (daily_nonneg : 0 ≤ daily)
    (event_nonneg : ∀ cap, event = some cap → 0 ≤ cap) :
    WithinCaps { maxDailyFraction := daily, maxEventFraction := event } where
  used_nonneg _ := le_refl _
  used_le _ := daily_nonneg
  eventUsed_nonneg _ _ := le_refl _
  eventUsed_le cap capped _ _ := event_nonneg cap capped

theorem WithinCaps.preload {fraction : ℚ} (ok : l.WithinCaps)
    (fits : fraction ≤ l.maxDailyFraction) (preloaded : l.preload day fraction = .ok l') :
      l'.WithinCaps := by
  obtain ⟨asked, rfl⟩ := preload_ok preloaded
  refine ⟨?_, ?_, ok.eventUsed_nonneg, ok.eventUsed_le⟩
  · intro d
    rw [used_preloaded]
    split
    · exact asked
    · exact ok.used_nonneg d
  · intro d
    rw [used_preloaded]
    split
    · exact fits
    · exact ok.used_le d

theorem WithinCaps.preloadEvent {fraction : ℚ} {e : Str} (ok : l.WithinCaps)
    (fits : ∀ cap, l.maxEventFraction = some cap → fraction ≤ cap)
    (preloaded : l.preloadEvent day e fraction = .ok l') : l'.WithinCaps := by
  obtain ⟨asked, rfl⟩ := preloadEvent_ok preloaded
  refine ⟨ok.used_nonneg, ok.used_le, ?_, ?_⟩
  · intro d e'
    rw [eventUsed_preloaded]
    split
    · exact asked
    · exact ok.eventUsed_nonneg d e'
  · intro cap capped d e'
    rw [eventUsed_preloaded]
    split
    · exact fits cap capped
    · exact ok.eventUsed_le cap capped d e'

end DailyExposureLedger
end SharpEvPicks.Risk
