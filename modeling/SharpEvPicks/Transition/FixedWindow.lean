import Mathlib.Algebra.Order.Field.Basic
import Mathlib.Tactic.GCongr
import Mathlib.Tactic.Linarith
import Mathlib.Tactic.Ring

/-! Counting in fixed windows: a counter starts a window at its first event, and forgets it once the
window is over. -/
namespace Transition

variable {K : Type*} [Field K] [LinearOrder K] [IsStrictOrderedRing K]

/-- The start of the window and the events in it. -/
abbrev Window (K : Type*) := Option (K × Nat)

namespace Window
variable (width : K) (limit : Nat)

def Over (now : K) (w : Window K) : Prop :=
  ∀ start n, w = some (start, n) → width ≤ now - start

/-- Another event fits the window. -/
def Open (now : K) (w : Window K) : Prop :=
  ∀ start n, w = some (start, n) → width ≤ now - start ∨ n < limit

variable {width limit} {now now' : K} {w : Window K}

omit [IsStrictOrderedRing K] in
theorem over_none : Over width now none := fun _ _ none => (nomatch none)

theorem Over.later (past : Over width now w) (after : now ≤ now') : Over width now' w := by
  intro start n held
  have ended := past start n held
  linarith

omit [IsStrictOrderedRing K] in
theorem Over.isOpen (past : Over width now w) : Open width limit now w :=
  fun start n held => .inl (past start n held)

omit [IsStrictOrderedRing K] in
theorem open_none : Open width limit now none := over_none.isOpen

theorem Open.later (opened : Open width limit now w) (after : now ≤ now') :
    Open width limit now' w := by
  intro start n held
  refine (opened start n held).imp_left fun ended => ?_
  linarith

/-! At most so many events. -/

variable (width limit) in
/-- So many events since `since`, if the events of `k` windows are past. -/
inductive Budget (since now : K) (w : Window K) (events : Nat) : Prop where
  | past (k : Nat) (past : Over width now w)
      (counted : events ≤ limit * k) (room : since + width * k ≤ now + width)
  | live (k : Nat) (start : K) (n : Nat) (held : w = some (start, n))
      (began : start ≤ now) (full : n ≤ limit)
      (counted : events ≤ limit * k + n) (room : since + width * k ≤ start + width)

namespace Budget
variable {since : K} {events : Nat}

theorem start (wide : 0 ≤ width)
    (held : ∀ start n, w = some (start, n) → start ≤ now ∧ n ≤ limit) :
    Budget width limit now now w 0 := by
  by_cases past : Over width now w
  · exact .past 0 past (Nat.zero_le _) (by rw [Nat.cast_zero]; linarith)
  · simp only [Over, not_forall] at past
    obtain ⟨start, n, here, live⟩ := past
    obtain ⟨began, full⟩ := held start n here
    exact .live 0 start n here began full (Nat.zero_le _) (by rw [Nat.cast_zero]; linarith)

theorem tick (budget : Budget width limit since now w events) (after : now ≤ now') :
    Budget width limit since now' w events := by
  cases budget with
  | past k past counted room => exact .past k (past.later after) counted (by linarith)
  | live k start n held began full counted room =>
    by_cases ended : width ≤ now' - start
    · refine .past (k + 1) ?_ ?_ ?_
      · intro start' n' held'
        cases held.symm.trans held'
        exact ended
      · calc events ≤ limit * k + n := counted
          _ ≤ limit * k + limit := Nat.add_le_add_left full _
          _ = limit * (k + 1) := (Nat.mul_succ limit k).symm
      · rw [Nat.cast_succ]
        linarith
    · exact .live k start n held (began.trans after) full counted room

theorem forget (budget : Budget width limit since now w events) (past : Over width now w) :
    Budget width limit since now none events := by
  cases budget with
  | past k past counted room => exact .past k over_none counted room
  | live k start n held began full counted room =>
    have ended := past start n held
    refine .past (k + 1) over_none ?_ ?_
    · calc events ≤ limit * k + n := counted
        _ ≤ limit * k + limit := Nat.add_le_add_left full _
        _ = limit * (k + 1) := (Nat.mul_succ limit k).symm
    · rw [Nat.cast_succ]
      linarith

/-- A window opens. -/
theorem opens (budget : Budget width limit since now w events) (past : Over width now w)
    (some_ : 0 < limit) : Budget width limit since now (some (now, 1)) (events + 1) := by
  cases budget.forget past with
  | past k _ counted room =>
    exact .live k now 1 rfl le_rfl some_ (Nat.add_le_add_right counted 1) room
  | live k start n held => cases held

omit [IsStrictOrderedRing K] in
/-- An event within its window. -/
theorem counts {start : K} {n : Nat}
    (budget : Budget width limit since now (some (start, n)) events)
    (live : ¬ width ≤ now - start) (room : n < limit) :
    Budget width limit since now (some (start, n + 1)) (events + 1) := by
  cases budget with
  | past k past => exact absurd (past start n rfl) live
  | live k start' n' held began full counted room' =>
    cases held
    exact .live k start (n + 1) rfl began room (Nat.add_le_add_right counted 1) room'

/-- The windows that have begun since then, and the one that was open. -/
theorem bound (wide : 0 ≤ width) (budget : Budget width limit since now w events) :
    events * width ≤ limit * (now - since + 2 * width) := by
  obtain ⟨k, counted, room⟩ : ∃ k : Nat, events ≤ limit * (k + 1) ∧
      since + width * k ≤ now + width := by
    cases budget with
    | past k past counted room =>
      exact ⟨k, counted.trans (Nat.mul_le_mul_left _ (Nat.le_succ k)), room⟩
    | live k start n held began full counted room =>
      exact ⟨k, counted.trans (Nat.add_le_add_left full _), by linarith⟩
  calc (events : K) * width ≤ (limit * (k + 1) : Nat) * width := by gcongr
    _ = limit * (width * k + width) := by push_cast; ring
    _ ≤ limit * (now - since + 2 * width) :=
      mul_le_mul_of_nonneg_left (by linarith) (Nat.cast_nonneg limit)

end Budget
end Window
end Transition
