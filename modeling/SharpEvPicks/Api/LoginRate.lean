import SharpEvPicks.Api.ThrottleRuns

/-! How often an address can fail to sign in, and how long it is locked out. -/
namespace SharpEvPicks.Api.LoginThrottle

open Python Transition

variable {addresses : Finset Str} {who ip ip' : Str} {now : ℚ} {w w' : World} {a : Action}

/-- The sign-in fails, and is recorded. -/
def Action.fails (who : Str) : Action → Bool
  | finish ip _ .no => ip = who
  | _ => false

def Action.succeeds (who : Str) : Action → Bool
  | finish ip _ .yes => ip = who
  | _ => false

/-- The addresses are so few that the table holds them all. -/
structure Known (addresses : Finset Str) (w : World) : Prop where
  sound : Sound w
  few : addresses.card ≤ throttleMaxKeys
  inside : ∀ k, (w.failures.get? k).isSome → k ∈ addresses

namespace Known

theorem step (known : Known addresses w) (mine : a.ip ∈ addresses)
    (taken : LoginThrottle.step w a = some w') : Known addresses w' := by
  refine ⟨known.sound.step taken, known.few, ?_⟩
  cases a with
  | submit ip now =>
    simp only [LoginThrottle.step] at taken
    split at taken
    · split at taken <;> (cases taken; exact known.inside)
    · cases taken
  | finish ip now authenticated =>
    simp only [LoginThrottle.step] at taken
    split at taken
    · cases taken
      intro k there
      by_cases here : k = ip
      · exact here ▸ mine
      · obtain ⟨entry, held⟩ := Option.isSome_iff_exists.mp there
        apply known.inside k
        cases authenticated with
        | yes =>
          simp only [settled, loginRecordSuccess, Dict.get?_pop, if_neg here] at held
          exact held ▸ rfl
        | no => exact (recorded w.failures ip now).other here held ▸ rfl
        | raised | cancelled => exact held ▸ rfl
    · cases taken

theorem run {actions : List Action} (known : Known addresses w)
    (mine : ∀ a ∈ actions, a.ip ∈ addresses)
    (ran : trace LoginThrottle.step w actions = some w') :
      Known addresses w' := by
  induction actions generalizing w with
  | nil =>
    cases ran
    exact known
  | cons a rest ih =>
    obtain ⟨first, later⟩ := List.forall_mem_cons.mp mine
    obtain ⟨next, taken, ran⟩ := trace_cons.mp ran
    exact ih (known.step first taken) later ran

end Known

/-- The window of an address as others leave it: it is dropped only once it is over. -/
def Left (now : ℚ) (before after : Window ℚ) : Prop :=
  after = before ∨ after = none ∧ Window.Over loginWindowSeconds now before

theorem recorded_left (known : Known addresses w) (mine : ip ∈ addresses) (apart : who ≠ ip) :
    Left now (w.failures.get? who) ((loginRecordFailure w.failures ip now).get? who) := by
  have done := recorded w.failures ip now
  cases before : w.failures.get? who with
  | none =>
    cases after : (loginRecordFailure w.failures ip now).get? who with
    | none => exact .inl rfl
    | some entry =>
      rw [done.other apart after] at before
      cases before
  | some entry =>
    by_cases past : loginWindowSeconds ≤ now - entry.1
    · cases after : (loginRecordFailure w.failures ip now).get? who with
      | none =>
        refine .inr ⟨rfl, fun start n here => ?_⟩
        cases here
        exact past
      | some entry' => exact .inl ((done.other apart after).symm.trans before)
    · left
      generalize loginRecordFailure w.failures ip now = after at done ⊢
      cases done with
      | opened ended =>
        rw [Dict.get?_set_ne _ apart]
        exact makeRoom_live known.few known.inside mine ended before past
      | counted held live => rw [Dict.get?_set_ne _ apart, before]

theorem step_clock (taken : step w a = some w') : w.clock ≤ w'.clock := by
  cases a with
  | submit ip now =>
    simp only [step] at taken
    split at taken
    · rename_i later
      split at taken <;> (cases taken; exact later)
    · cases taken
  | finish ip now authenticated =>
    simp only [step] at taken
    split at taken
    · rename_i possible
      cases taken
      exact possible.1
    · cases taken

/-- A step in which the address neither fails nor succeeds. -/
theorem step_left (known : Known addresses w) (mine : a.ip ∈ addresses)
    (taken : step w a = some w') (fails : a.fails who = false) (succeeds : a.succeeds who = false) :
    Left w'.clock (w.failures.get? who) (w'.failures.get? who) := by
  cases a with
  | submit ip now =>
    simp only [step] at taken
    split at taken
    · split at taken <;> (cases taken; exact .inl rfl)
    · cases taken
  | finish ip now authenticated =>
    simp only [step] at taken
    split at taken
    · cases taken
      cases authenticated with
      | yes =>
        have apart : who ≠ ip :=
          fun same => absurd (decide_eq_true same.symm) (Bool.eq_false_iff.mp succeeds)
        left
        simp only [settled, loginRecordSuccess, Dict.get?_pop, if_neg apart]
      | no =>
        have apart : who ≠ ip :=
          fun same => absurd (decide_eq_true same.symm) (Bool.eq_false_iff.mp fails)
        exact recorded_left known mine apart
      | raised | cancelled => exact .inl rfl
    · cases taken

/-! The failures of an address. -/

theorem budget_step {since : ℚ} {events : Nat} (known : Known addresses w)
    (mine : a.ip ∈ addresses) (taken : step w a = some w') (succeeds : a.succeeds who = false)
    (budget : Window.Budget loginWindowSeconds loginMaxFailures since w.clock (w.failures.get? who)
      events) :
    Window.Budget loginWindowSeconds loginMaxFailures since w'.clock (w'.failures.get? who)
      (events + (a.fails who).toNat) := by
  have ticked := budget.tick (step_clock taken)
  cases fails : a.fails who with
  | false =>
    obtain same | ⟨none, past⟩ := step_left known mine taken fails succeeds
    · rw [same]
      exact ticked
    · rw [none]
      exact ticked.forget past
  | true =>
    cases a with
    | submit ip now => cases fails
    | finish ip now authenticated =>
      cases authenticated with
      | yes => cases fails
      | raised | cancelled => cases fails
      | no =>
        obtain rfl : ip = who := of_decide_eq_true fails
        simp only [step] at taken
        split at taken
        · rename_i possible
          cases taken
          dsimp only [settled, Bool.toNat_true] at ticked ⊢
          have done := recorded w.failures ip now
          generalize loginRecordFailure w.failures ip now = after at done ⊢
          cases done with
          | opened past =>
            rw [Dict.get?_set_self]
            exact ticked.opens past (by decide)
          | @counted windowStart count held live =>
            rw [Dict.get?_set_self]
            have room := ((known.sound.opened ip possible.2).later possible.1 _ _ held).resolve_left
              live
            rw [held] at ticked
            exact ticked.counts live room
        · cases taken

theorem budget_run {since : ℚ} {events : Nat} {actions : List Action}
    (known : Known addresses w) (mine : ∀ a ∈ actions, a.ip ∈ addresses)
    (ran : trace step w actions = some w')
    (unsuccessful : ∀ a ∈ actions, a.succeeds who = false)
    (budget : Window.Budget loginWindowSeconds loginMaxFailures since w.clock (w.failures.get? who)
      events) :
    Window.Budget loginWindowSeconds loginMaxFailures since w'.clock (w'.failures.get? who)
      (events + actions.countP fun a => a.fails who) := by
  induction actions generalizing w events with
  | nil =>
    cases ran
    exact budget
  | cons a rest ih =>
    obtain ⟨first, later⟩ := List.forall_mem_cons.mp mine
    obtain ⟨quiet, quiets⟩ := List.forall_mem_cons.mp unsuccessful
    obtain ⟨next, taken, ran⟩ := trace_cons.mp ran
    have total : events + (a :: rest).countP (fun a => a.fails who) =
        events + (a.fails who).toNat + rest.countP fun a => a.fails who := by
      rw [List.countP_cons]
      cases a.fails who <;> simp [Nat.add_assoc, Nat.add_comm]
    rw [total]
    exact ih (known.step first taken) later ran quiets (budget_step known first taken quiet budget)

theorem known_start (few : addresses.card ≤ throttleMaxKeys) : Known addresses {} where
  sound := .start
  few := few
  inside _ there := by cases there

/-- As long as the table can hold the addresses, an address that does not sign in fails at most five
times for each five minutes that pass, and ten times more. -/
theorem failures_bounded {addresses : Finset Str} {before actions : List Action} {w w' : World}
    (who : Str) (few : addresses.card ≤ throttleMaxKeys)
    (mine : ∀ a ∈ before ++ actions, a.ip ∈ addresses)
    (reached : trace step {} before = some w) (ran : trace step w actions = some w')
    (unsuccessful : ∀ a ∈ actions, a.succeeds who = false) :
    ((actions.countP fun a => a.fails who : Nat) : ℚ) * loginWindowSeconds ≤
      loginMaxFailures * (w'.clock - w.clock + 2 * loginWindowSeconds) := by
  have wide : 0 ≤ loginWindowSeconds := by
    unfold loginWindowSeconds
    norm_num
  have known :=
    (known_start few).run (fun a inside => mine a (List.mem_append_left _ inside)) reached
  have begun : Window.Budget loginWindowSeconds loginMaxFailures w.clock w.clock
      (w.failures.get? who) 0 :=
    .start wide fun windowStart count held =>
      ⟨(known.sound.counted who _ _ held).1, (known.sound.counted who _ _ held).2.2⟩
  have budget := budget_run known (fun a inside => mine a (List.mem_append_right _ inside)) ran
    unsuccessful begun
  rw [Nat.zero_add] at budget
  exact budget.bound wide

/-- The addresses of the sign-ins. -/
def signingIn : Finset Str := {"peer".toList, "other".toList, "guest".toList}

theorem failures_bounded_signIns :
    ((nextSignIns.countP fun a => a.fails "peer".toList : Nat) : ℚ) * loginWindowSeconds ≤
      loginMaxFailures * (afterNext.clock - afterFirst.clock + 2 * loginWindowSeconds) :=
  @failures_bounded signingIn firstSignIns nextSignIns afterFirst afterNext "peer".toList
    (by decide) (by decide) firstSignIns_run nextSignIns_run (by decide)

/-! The lockout of an address. -/

theorem truncate_bounds {x : ℚ} (pos : 0 < x) :
    0 ≤ truncate x ∧ (truncate x : ℚ) ≤ x ∧ x < truncate x + 1 := by
  rw [truncate, if_pos pos.le]
  exact ⟨Int.floor_nonneg.mpr pos.le, Int.floor_le x, Int.lt_floor_add_one x⟩

/-- The address is locked out from the window of five failures on. -/
structure Locked (who : Str) (windowStart : ℚ) (count : Nat) (w : World) : Prop where
  idle : who ∉ w.hashes
  window : w.failures.get? who = some (windowStart, count) ∨
    w.failures.get? who = none ∧ windowStart + loginWindowSeconds ≤ w.clock

variable {windowStart : ℚ} {count : Nat}

theorem Locked.refuses {t : ℚ} (locked : Locked who windowStart count w)
    (full : loginMaxFailures ≤ count) (later : w.clock ≤ t) :
    (loginRetryAfter w.failures who t).isSome ↔ t < windowStart + loginWindowSeconds := by
  unfold loginRetryAfter
  obtain held | ⟨none, past⟩ := locked.window
  · rw [held]
    dsimp only
    split
    · rename_i opened
      refine iff_of_false Bool.false_ne_true (not_lt.mpr ?_)
      have ended := opened.resolve_right (Nat.not_lt_of_le full)
      linarith
    · rename_i closed
      refine iff_of_true rfl ?_
      have live := not_le.mp (not_or.mp closed).1
      linarith
  · rw [none]
    exact iff_of_false Bool.false_ne_true (not_lt.mpr (past.trans later))

theorem Locked.step (known : Known addresses w) (mine : a.ip ∈ addresses)
    (full : loginMaxFailures ≤ count) (locked : Locked who windowStart count w)
    (early : ∀ t, a = .submit who t → t < windowStart + loginWindowSeconds)
    (taken : LoginThrottle.step w a = some w') : Locked who windowStart count w' := by
  have clock := step_clock taken
  have drops {after : Window ℚ} (left : Left w'.clock (w.failures.get? who) after) :
      after = some (windowStart, count) ∨ after = none ∧
      windowStart + loginWindowSeconds ≤ w'.clock := by
    obtain held | ⟨none, past⟩ := locked.window
    · obtain same | ⟨dropped, ended⟩ := left
      · exact .inl (same.trans held)
      · have passed := ended windowStart count held
        exact .inr ⟨dropped, by linarith⟩
    · obtain same | ⟨dropped, -⟩ := left
      · exact .inr ⟨same.trans none, past.trans clock⟩
      · exact .inr ⟨dropped, past.trans clock⟩
  cases a with
  | submit ip now =>
    have left : Left w'.clock (w.failures.get? who) (w'.failures.get? who) :=
      step_left known mine taken rfl rfl
    refine ⟨?_, drops left⟩
    simp only [LoginThrottle.step] at taken
    split at taken
    · rename_i later
      split at taken
      · rename_i admitted
        cases taken
        intro inside
        obtain rfl | running := List.mem_cons.mp inside
        · obtain ⟨retryAfter, refused⟩ :=
            Option.isSome_iff_exists.mp ((locked.refuses full later).mpr (early now rfl))
          simp [admission, refused] at admitted
        · exact locked.idle running
      · cases taken
        exact locked.idle
    · cases taken
  | finish ip now authenticated =>
    have running : ip ∈ w.hashes ∧ w'.hashes = w.hashes.erase ip := by
      simp only [LoginThrottle.step] at taken
      split at taken
      · rename_i possible
        cases taken
        exact ⟨possible.2, rfl⟩
      · cases taken
    have apart : decide (ip = who) = false :=
      decide_eq_false fun same => locked.idle (same ▸ running.1)
    have left : Left w'.clock (w.failures.get? who) (w'.failures.get? who) :=
      step_left known mine taken (by cases authenticated <;> first | rfl | exact apart)
        (by cases authenticated <;> first | rfl | exact apart)
    exact ⟨fun inside => locked.idle (List.mem_of_mem_erase (running.2 ▸ inside)), drops left⟩

theorem Locked.run {more : List Action} (known : Known addresses w)
    (mine : ∀ a ∈ more, a.ip ∈ addresses) (full : loginMaxFailures ≤ count)
    (locked : Locked who windowStart count w)
    (early : ∀ t, .submit who t ∈ more → t < windowStart + loginWindowSeconds)
    (ran : trace LoginThrottle.step w more = some w') : Locked who windowStart count w' := by
  induction more generalizing w with
  | nil =>
    cases ran
    exact locked
  | cons a rest ih =>
    obtain ⟨first, later⟩ := List.forall_mem_cons.mp mine
    obtain ⟨next, taken, ran⟩ := trace_cons.mp ran
    have held := locked.step known first full
      (fun t here => early t (here ▸ List.mem_cons_self)) taken
    exact ih (known.step first taken) later held
      (fun t inside => early t (List.mem_cons_of_mem _ inside)) ran

/-- An address told to wait is refused until its window ends and no longer, whatever others do
meanwhile; and the wait that it is told is at most 301 seconds and reaches that end. -/
theorem lockout {addresses : Finset Str} {before : List Action} {w : World} {who : Str}
    {now : ℚ} {retryAfter : Int} (few : addresses.card ≤ throttleMaxKeys)
    (mine : ∀ a ∈ before, a.ip ∈ addresses) (reached : trace step {} before = some w)
    (asked : w.clock ≤ now) (told : loginRetryAfter w.failures who now = some retryAfter) :
    1 ≤ retryAfter ∧ retryAfter ≤ 301 ∧ ∃ free :
      ℚ, now < free ∧ free ≤ now + retryAfter ∧
      ∀ (more : List Action) (w' : World), (∀ a ∈ more, a.ip ∈ addresses) →
        trace step w more = some w' → (∀ t, .submit who t ∈ more → t < free) →
        ∀ t, w'.clock ≤ t → ((loginRetryAfter w'.failures who t).isSome ↔ t < free) := by
  have known := (known_start few).run mine reached
  unfold loginRetryAfter at told
  split at told
  · cases told
  · rename_i windowStart count held
    split at told
    · cases told
    · rename_i closed
      obtain ⟨live, full⟩ := not_or.mp closed
      have began := (known.sound.counted who windowStart count held).1
      have pos : 0 < windowStart + loginWindowSeconds - now := by linarith
      obtain ⟨whole, below, above⟩ := truncate_bounds pos
      have wait : windowStart + loginWindowSeconds - now ≤ 300 := by
        have width : loginWindowSeconds = 300 := rfl
        linarith
      cases told
      rw [max_eq_right (by omega)]
      have short : truncate (windowStart + loginWindowSeconds - now) ≤ 300 := by
        exact_mod_cast below.trans wait
      refine ⟨by omega, by omega, windowStart + loginWindowSeconds, by linarith, ?_, ?_⟩
      · push_cast
        linarith
      · intro more w' others ran early t later
        have locked : Locked who windowStart count w := by
          refine ⟨fun running => ?_, .inl held⟩
          obtain ended | room := known.sound.opened who running windowStart count held
          · exact live (by linarith)
          · exact full room
        exact (locked.run known others (Nat.le_of_not_lt full) early ran).refuses
          (Nat.le_of_not_lt full) later

theorem lockout_signIns :
    (1 : Int) ≤ 288 ∧ (288 : Int) ≤ 301 ∧ ∃ free :
      ℚ, 16 < free ∧ free ≤ 16 + (288 : Int) ∧
      ∀ (more : List Action) (w' : World), (∀ a ∈ more, a.ip ∈ signingIn) →
        trace step afterNext more = some w' →
          (∀ t, .submit "peer".toList t ∈ more → t < free) →
        ∀ t, w'.clock ≤ t →
          ((loginRetryAfter w'.failures "peer".toList t).isSome ↔ t < free) :=
  lockout (by decide) (by decide) signIns_run (by norm_num [afterNext]) (by decide +kernel)

end SharpEvPicks.Api.LoginThrottle
