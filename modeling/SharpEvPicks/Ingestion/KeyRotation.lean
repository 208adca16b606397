import SharpEvPicks.Ingestion.OddsApi
import SharpEvPicks.Python.Lookups

/-! What the rotation of key slots keeps over all calls. -/
namespace SharpEvPicks.Ingestion.OddsApi

open Python Transition

variable {slots k d : Nat} {w w' : World} {a : Action} {client : Client} {flight : Flight}
  {response : Response}

/-! One slot at a time. -/

theorem cooldown_recordQuota (index : Nat) :
    (recordQuota client index response).cooldownUntil = client.cooldownUntil := by
  unfold recordQuota
  split
  · split <;> rfl
  · rfl

theorem cursor_recordQuota (index : Nat) :
    (recordQuota client index response).cursor = client.cursor := by
  unfold recordQuota
  split
  · split <;> rfl
  · rfl

theorem requests_recordQuota (index : Nat) :
    (recordQuota client index response).requests = client.requests := by
  unfold recordQuota
  split
  · split <;> rfl
  · rfl

/-- What a response leaves of the client for the other slots. -/
structure Elsewhere (index : Nat) (client after : Client) : Prop where
  cursor : after.cursor = client.cursor
  requests : after.requests = client.requests
  cooldown : ∀ k, k ≠ index → after.cooldownUntil.get? k = client.cooldownUntil.get? k

theorem elsewhere_settled (client : Client) (flight : Flight) (response : Response) :
    Elsewhere flight.index client (settled client flight response).1 := by
  have quota : Elsewhere flight.index client (recordQuota client flight.index response) :=
    ⟨cursor_recordQuota _, requests_recordQuota _, fun k _ => by rw [cooldown_recordQuota]⟩
  unfold settled
  dsimp only
  split
  · exact ⟨quota.cursor, quota.requests,
      fun k apart => (Dict.get?_set_ne _ apart _).trans (quota.cooldown k apart)⟩
  · split
    · exact ⟨quota.cursor, quota.requests,
        fun k apart => (Dict.get?_set_ne _ apart _).trans (quota.cooldown k apart)⟩
    · split
      · exact quota
      · split
        · exact quota
        · exact quota
        · split
          · exact quota
          · refine ⟨quota.cursor, quota.requests, fun k apart => ?_⟩
            rw [Dict.get?_pop, if_neg apart]
            exact quota.cooldown k apart

/-- What a step can do. -/
inductive Stepped (slots : Nat) (w : World) : Action → World → Prop where
  | begins (idle : w.fetch = none) : Stepped slots w .fetchOdds { w with fetch := some {} }
  | exhausted {fetch : Fetch} {now : ℚ}
      (running : w.fetch = some fetch) (grounded : fetch.flight = none) (later : w.clock ≤ now)
      (none_ : taken slots w (.attempt now) = none) :
        Stepped slots w (.attempt now) { w with clock := now, fetch := none }
  | takes {fetch : Fetch} {now : ℚ} {index : Nat}
      (running : w.fetch = some fetch) (grounded : fetch.flight = none)
      (later : w.clock ≤ now)
      (found : nextKeyIndex slots w.client now fetch.attempted = some index)
      (took : taken slots w (.attempt now) = some index) :
      Stepped slots w (.attempt now)
        { client := { w.client with cursor := (index + 1) % slots }
          fetch := some
            { attempted := insert index fetch.attempted,
              flight := some { index := index, now := now, attempt := 0 } }
          clock := now }
  | retries {a : Action} {attempted : Finset Nat} {flight : Flight}
      (grounded : taken slots w a = none) (called : a ≠ .fetchOdds)
      (flying : w.fetch = some { attempted := attempted, flight := some flight })
      (again : flight.attempt + 1 ≠ maxStatusAttempts) :
      Stepped slots w a
        { w with
          client := { w.client with requests := w.client.requests + 1,
                                    retries := w.client.retries + 1 }
          fetch := some { attempted := attempted,
                          flight := some { flight with attempt := flight.attempt + 1 } } }
  | ends {a : Action} {attempted : Finset Nat} {flight : Flight} {requests : Nat}
      (grounded : taken slots w a = none) (called : a ≠ .fetchOdds)
      (flying : w.fetch = some { attempted := attempted, flight := some flight })
      (one : requests ≤ 1) :
      Stepped slots w a { w with
        client := { w.client with requests := w.client.requests + requests }, fetch := none }
  | responds {attempted : Finset Nat} {flight : Flight} {response : Response}
      (flying : w.fetch = some { attempted := attempted, flight := some flight }) :
      Stepped slots w (.respond response)
        { w with
          client := (settled { w.client with requests := w.client.requests + 1 } flight response).1
          fetch :=
            if (settled { w.client with requests := w.client.requests + 1 } flight response).2 then
              some { attempted := attempted }
            else none }

theorem stepped (done : step slots w a = some w') : Stepped slots w a w' := by
  cases a with
  | fetchOdds =>
    simp only [step] at done
    split at done
    · rename_i idle
      cases done
      exact .begins (Option.isNone_iff_eq_none.mp idle)
    · cases done
  | attempt now =>
    simp only [step] at done
    split at done
    · cases done
    · rename_i fetch running
      split at done
      · rename_i possible
        have grounded := Option.isNone_iff_eq_none.mp possible.1
        split at done
        · rename_i none
          cases done
          exact .exhausted running grounded possible.2 (by rw [taken, running]; exact none)
        · rename_i index found
          cases done
          have took : taken slots w (.attempt now) = some index := by
            rw [taken, running]
            exact found
          split at found
          · exact .takes running grounded possible.2 found took
          · cases found
      · cases done
  | transportError =>
    simp only [step] at done
    split at done
    · rename_i attempted flight flying
      split at done
      · cases done
        exact .ends rfl (by nofun) flying le_rfl
      · rename_i again
        cases done
        exact .retries rfl (by nofun) flying again
    · cases done
  | bodyTooLarge =>
    simp only [step] at done
    split at done
    · rename_i attempted flight flying
      cases done
      exact .ends rfl (by nofun) flying le_rfl
    · cases done
  | respond response =>
    simp only [step] at done
    split at done
    · rename_i attempted flight flying
      split at done
      · rename_i again
        cases done
        exact .retries rfl (by nofun) flying again.2
      · cases done
        exact .responds flying
    · cases done
  | cancelled requesting =>
    simp only [step] at done
    split at done
    · rename_i attempted flight flying
      cases done
      exact .ends rfl (by nofun) flying (by cases requesting <;> decide)
    · cases done

theorem turns_cons {rest : List Action} (done : step slots w a = some w') :
    turns slots w (a :: rest) = (taken slots w a).toList ++ turns slots w' rest := by
  rw [turns, done, Option.map_some, Option.getD_some]

/-! Whose turn it is. -/

/-- The slot waits for its turn, so many places ahead. -/
structure Waiting (slots k d : Nat) (w : World) : Prop where
  ahead : Ahead slots w.client.cursor k d
  free : ∀ cooldown, w.client.cooldownUntil.get? k = some cooldown → cooldown ≤ w.clock
  fresh : ∀ fetch, w.fetch = some fetch → k ∉ fetch.attempted ∧ ∀ flight,
    fetch.flight = some flight → flight.index ≠ k

theorem Waiting.not_cooling {now : ℚ} (waiting : Waiting slots k d w) (later : w.clock ≤ now) :
    w.client.cooling now k = false := by
  refine decide_eq_false (not_lt.mpr ?_)
  cases held : w.client.cooldownUntil.get? k with
  | none => exact le_rfl
  | some cooldown => exact (waiting.free cooldown held).trans later

/-- Every turn that another slot takes brings the slot nearer to its own. -/
theorem Waiting.step (waiting : Waiting slots k d w) (done : OddsApi.step slots w a = some w')
    (passed : k ∉ (taken slots w a).toList) :
    ∃ nearer, Waiting slots k nearer w' ∧ (taken slots w a).toList.length + nearer ≤ d := by
  cases stepped done with
  | begins idle =>
    refine ⟨d, ⟨waiting.ahead, waiting.free, fun fetch same => ?_⟩, (Nat.zero_add d).le⟩
    cases same
    exact ⟨Finset.notMem_empty k, fun flight none => by cases none⟩
  | exhausted running grounded later none_ =>
    refine ⟨d, ⟨waiting.ahead, fun cooldown held => (waiting.free cooldown held).trans later,
      fun fetch none => by cases none⟩, ?_⟩
    rw [none_]
    exact (Nat.zero_add d).le
  | @takes fetch now index running grounded later found took =>
    rw [took] at passed ⊢
    have other : index ≠ k := fun same => passed (same ▸ List.mem_singleton.mpr rfl)
    have fresh := (waiting.fresh fetch running).1
    have open_ : (k ∉ fetch.attempted && !w.client.cooling now k) = true := by
      rw [waiting.not_cooling later]
      simpa using fresh
    obtain ⟨nearer, less, ahead⟩ := waiting.ahead.nearer open_ found other
    refine ⟨nearer, ⟨ahead, fun cooldown held => (waiting.free cooldown held).trans later,
      fun fetch' same => ?_⟩, ?_⟩
    · cases same
      refine ⟨fun inside => ?_, fun flight same => ?_⟩
      · obtain same | before := Finset.mem_insert.mp inside
        · exact other same.symm
        · exact fresh before
      · cases same
        exact other
    · rw [Option.toList_some, List.length_singleton]
      omega
  | @retries _ attempted flight grounded called flying again =>
    obtain ⟨fresh, elsewhere⟩ := waiting.fresh _ flying
    refine ⟨d, ⟨waiting.ahead, waiting.free, fun fetch same => ?_⟩, ?_⟩
    · cases same
      refine ⟨fresh, fun flight' same => ?_⟩
      cases same
      exact elsewhere flight rfl
    · rw [grounded]
      exact (Nat.zero_add d).le
  | ends grounded called flying one =>
    refine ⟨d, ⟨waiting.ahead, waiting.free, fun fetch none => by cases none⟩, ?_⟩
    rw [grounded]
    exact (Nat.zero_add d).le
  | @responds attempted flight response flying =>
    obtain ⟨fresh, elsewhere⟩ := waiting.fresh _ flying
    have left := elsewhere_settled { w.client with requests := w.client.requests + 1 } flight
      response
    refine ⟨d, ⟨left.cursor ▸ waiting.ahead, fun cooldown held => ?_, fun fetch same => ?_⟩,
      (Nat.zero_add d).le⟩
    · rw [left.cooldown k (elsewhere flight rfl).symm] at held
      exact waiting.free cooldown held
    · split at same
      · cases same
        exact ⟨fresh, fun flight none => by cases none⟩
      · cases same

theorem Waiting.run {actions : List Action} (waiting : Waiting slots k d w)
    (ran : trace (OddsApi.step slots) w actions = some w') (passed : k ∉ turns slots w actions) :
      (turns slots w actions).length ≤ d := by
  induction actions generalizing w d with
  | nil => exact Nat.zero_le d
  | cons a rest ih =>
    obtain ⟨next, done, later⟩ := trace_cons.mp ran
    rw [turns_cons done] at passed ⊢
    obtain ⟨first, others⟩ := not_or.mp (List.mem_append.not.mp passed)
    obtain ⟨nearer, waiting', less⟩ := waiting.step done first
    have bounded := ih waiting' later others
    rw [List.length_append]
    omega

/-- Over any calls, a slot that does not cool down is passed over less often than there are slots.
-/
theorem round_robin {actions : List Action} (inside : k < slots) (idle : w.fetch = none)
    (free : ∀ cooldown, w.client.cooldownUntil.get? k = some cooldown → cooldown ≤ w.clock)
    (ran : trace (step slots) w actions = some w') (passed : k ∉ turns slots w actions) :
    (turns slots w actions).length < slots := by
  obtain ⟨d, ahead⟩ := exists_ahead inside w.client.cursor
  have waiting : Waiting slots k d w :=
    ⟨ahead, free, fun fetch running => by cases idle.symm.trans running⟩
  exact (waiting.run ran passed).trans_lt ahead.1

/-- The first of two slots is taken. -/
def firstTaken (attempt : Nat) : World where
  client := { cursor := 1, requests := attempt, retries := attempt }
  fetch := some { attempted := {0}, flight := some { index := 0, now := 0, attempt := attempt } }

theorem round_robin_firstTaken : (turns 2 {} [.fetchOdds, .attempt 0]).length < 2 :=
  @round_robin 2 1 {} (firstTaken 0) [.fetchOdds, .attempt 0] (by decide) rfl (fun _ none => by
    cases none) (by decide +kernel)
    (by decide +kernel)

/-! Slots that cool down. -/

/-- The slot is not requested before that time. -/
structure Resting (index : Nat) (until_ : ℚ) (w : World) : Prop where
  rested : until_ ≤ w.clock ∨
    (∃ cooldown, w.client.cooldownUntil.get? index = some cooldown ∧ until_ ≤ cooldown) ∧
      ∀ attempted flight, w.fetch = some { attempted := attempted, flight := some flight } →
        flight.index ≠ index

theorem Resting.at_turn {index : Nat} {until_ now : ℚ} (resting : Resting index until_ w)
    (later : w.clock ≤ now) (took : taken slots w (.attempt now) = some index) :
      until_ ≤ now := by
  obtain passed | ⟨⟨cooldown, held, after⟩, -⟩ := resting.rested
  · exact passed.trans later
  · obtain ⟨fetch, -, found⟩ := Option.bind_eq_some_iff.mp took
    split at found
    · have free := (seek_eq_some found).1
      have warm := (Bool.and_eq_true_iff.mp free).2
      simp only [Client.cooling, held, Option.getD_some, Bool.not_eq_true', decide_eq_false_iff_not,
        not_lt] at warm
      exact after.trans warm
    · cases found

theorem Resting.step {index : Nat} {until_ : ℚ} (resting : Resting index until_ w)
    (done : OddsApi.step slots w a = some w') : Resting index until_ w' := by
  cases stepped done with
  | begins idle =>
    refine ⟨resting.rested.imp_right fun ⟨cools, _⟩ =>
      ⟨cools, fun attempted flight same => ?_⟩⟩
    cases same
  | exhausted running grounded later none_ =>
    refine ⟨resting.rested.imp (fun passed => passed.trans later) fun ⟨cools, _⟩ =>
      ⟨cools, fun attempted flight same => ?_⟩⟩
    cases same
  | @takes fetch now index' running grounded later found took =>
    by_cases same : index' = index
    · exact ⟨.inl (resting.at_turn later (same ▸ took))⟩
    · refine ⟨resting.rested.imp (fun passed => passed.trans later) fun ⟨cools,
        _⟩ => ⟨cools, fun attempted flight here => ?_⟩⟩
      cases here
      exact same
  | @retries _ attempted flight grounded called flying again =>
    refine ⟨resting.rested.imp_right fun ⟨cools, elsewhere⟩ =>
      ⟨cools, fun attempted' flight' same => ?_⟩⟩
    cases same
    exact elsewhere attempted flight flying
  | ends grounded called flying one =>
    refine ⟨resting.rested.imp_right fun ⟨cools, _⟩ =>
      ⟨cools, fun attempted flight same => ?_⟩⟩
    cases same
  | @responds attempted flight response flying =>
    have left := elsewhere_settled { w.client with requests := w.client.requests + 1 } flight
      response
    refine ⟨resting.rested.imp_right fun ⟨⟨cooldown, held, after⟩, elsewhere⟩ =>
      ⟨⟨cooldown, ?_, after⟩, ?_⟩⟩
    · exact (left.cooldown index (elsewhere _ _ flying).symm).trans held
    · intro attempted' flight' same
      split at same <;> cases same

/-- How long a slot is left alone that answers so. -/
def cooldownOf (response : Response) : ℚ :=
  if response.statusCode = 401 then invalidKeyCooldown
    else response.retryAfter.getD defaultRateLimitCooldown

theorem resting_of_rejected {attempted : Finset Nat}
    (flying : w.fetch = some { attempted := attempted, flight := some flight })
    (rejected : response.statusCode = 401 ∨ response.statusCode = 429)
    (done : OddsApi.step slots w (.respond response) = some w') :
      Resting flight.index (flight.now + cooldownOf response) w' := by
  have final : response.statusCode ∉ transientStatuses := by
    obtain invalid | limited := rejected
    · rw [invalid]
      decide
    · rw [limited]
      decide
  simp only [OddsApi.step, flying, final, false_and, if_false] at done
  cases done
  refine ⟨.inr ⟨⟨flight.now + cooldownOf response, ?_, le_rfl⟩,
    fun attempted flight same => ?_⟩⟩
  · obtain invalid | limited := rejected
    · simp [settled, cooldownOf, invalid, Dict.get?_set_self]
    · simp [settled, cooldownOf, limited, Dict.get?_set_self]
  · split at same <;> cases same

/-- A slot that is rejected or rate-limited is not requested again, over all that follows, before
its cool-down ends; it is counted from the turn that was rejected. -/
theorem cooldown_kept {w₀ : World} {attempted : Finset Nat} {actions : List Action} {now : ℚ}
    (flying : w₀.fetch = some { attempted := attempted, flight := some flight })
    (rejected : response.statusCode = 401 ∨ response.statusCode = 429)
    (answered : step slots w₀ (.respond response) = some w)
    (ran : trace (step slots) w actions = some w') (later : w'.clock ≤ now)
    (again : taken slots w' (.attempt now) = some flight.index) :
      flight.now + cooldownOf response ≤ now := by
  have resting := trace_invariant (fun _ _ _ rests done => Resting.step rests done)
    (resting_of_rejected flying rejected answered) ran
  exact resting.at_turn later again

/-- The only slot, in flight, then limited for half a minute, then in the next call. -/
def soleFlight : Flight := { index := 0, now := 0, attempt := 0 }

def soleTaken : World where
  fetch := some { attempted := {0}, flight := some soleFlight }

def limited : Response :=
  { statusCode := 429, retryAfter := some 30, remaining := none, payload := .notJson }

def soleLimited : World where
  client := { requests := 1, rateLimited := 1, cooldownUntil := Dict.empty.set 0 30 }
  fetch := some { attempted := {0} }

def soleAgain : World := { soleLimited with fetch := some {} }

theorem cooldown_kept_limited : soleFlight.now + cooldownOf limited ≤ 40 :=
  @cooldown_kept 1 soleLimited soleAgain soleFlight limited soleTaken {0}
    [.attempt 0, .fetchOdds] 40 rfl (.inr rfl)
    (by decide +kernel) (by decide +kernel) (by decide +kernel) (by decide +kernel)

/-! Requests. -/

/-- What the requests in flight may still come to. -/
def Fetch.left (fetch : Fetch) : Nat :=
  (fetch.flight.map fun flight => maxStatusAttempts - flight.attempt).getD 0

structure Counted (slots fetches : Nat) (w : World) : Prop where
  idle : w.fetch = none → w.client.requests ≤ maxStatusAttempts * slots * fetches
  running : ∀ fetch, w.fetch = some fetch → fetch.attempted ⊆ Finset.range slots ∧
    (∀ flight, fetch.flight = some flight → flight.attempt < maxStatusAttempts) ∧
      ∃ earlier, fetches = earlier + 1 ∧
        w.client.requests + fetch.left ≤ maxStatusAttempts * slots * earlier + maxStatusAttempts *
          fetch.attempted.card

namespace Counted
variable {fetches : Nat} {fetch : Fetch}

/-- A call that returns. -/
theorem returned (counted : Counted slots fetches w) (running : w.fetch = some fetch)
    {requests : Nat} (fits : requests ≤ w.client.requests + fetch.left) :
      requests ≤ maxStatusAttempts * slots * fetches := by
  obtain ⟨inside, -, earlier, rfl, bound⟩ := counted.running fetch running
  have few : fetch.attempted.card ≤ slots :=
    (Finset.card_le_card inside).trans_eq (Finset.card_range slots)
  have most := Nat.mul_le_mul_left maxStatusAttempts few
  rw [Nat.mul_succ]
  omega

theorem left_pos {attempted : Finset Nat} {flight : Flight}
    (early : flight.attempt < maxStatusAttempts) :
    1 ≤ Fetch.left ⟨attempted, some flight⟩ := by
  have same : Fetch.left ⟨attempted, some flight⟩ = maxStatusAttempts - flight.attempt := rfl
  omega

theorem step (counted : Counted slots fetches w) (done : OddsApi.step slots w a = some w') :
    Counted slots (fetches + [a].count .fetchOdds) w' := by
  cases stepped done with
  | begins idle =>
    refine ⟨fun none => (by cases none), fun fetch same => ?_⟩
    cases same
    exact ⟨Finset.empty_subset _, fun flight none => (by cases none), fetches, rfl,
      counted.idle idle⟩
  | @exhausted fetch now running grounded later none_ =>
    exact ⟨fun _ => counted.returned running (Nat.le_add_right _ _),
      fun fetch none => by cases none⟩
  | @takes fetch now index running grounded later found took =>
    obtain ⟨inside, -, earlier, rfl, bound⟩ := counted.running fetch running
    obtain ⟨free, below, -⟩ := seek_eq_some found
    have new : index ∉ fetch.attempted := of_decide_eq_true (Bool.and_eq_true_iff.mp free).1
    refine ⟨fun none => (by cases none), fun fetch' same => ?_⟩
    cases same
    refine ⟨Finset.insert_subset (Finset.mem_range.mpr below) inside, fun flight same => ?_,
      earlier, rfl, ?_⟩
    · cases same
      exact Nat.zero_lt_succ 2
    · have none : fetch.left = 0 := by rw [Fetch.left, grounded]; rfl
      have three (attempted : Finset Nat) :
        Fetch.left ⟨attempted, some ⟨index, now, 0⟩⟩ = maxStatusAttempts := rfl
      rw [Finset.card_insert_of_notMem new, three, Nat.mul_succ]
      dsimp only
      omega
  | @retries _ attempted flight grounded called flying again =>
    obtain ⟨inside, early, earlier, rfl, bound⟩ := counted.running _ flying
    have more : flight.attempt + 1 < maxStatusAttempts :=
      Nat.lt_of_le_of_ne (early flight rfl) again
    rw [List.count_singleton, if_neg (by simpa using called)]
    refine ⟨fun none => (by cases none), fun fetch same => ?_⟩
    cases same
    refine ⟨inside, fun flight' same => ?_, earlier, rfl, ?_⟩
    · cases same
      exact more
    · have before : Fetch.left ⟨attempted, some flight⟩ = maxStatusAttempts - flight.attempt :=
        rfl
      have after : Fetch.left ⟨attempted, some { flight with attempt := flight.attempt + 1 }⟩ =
          maxStatusAttempts - (flight.attempt + 1) := rfl
      rw [before] at bound
      rw [after]
      dsimp only at bound ⊢
      omega
  | @ends _ attempted flight requests grounded called flying one =>
    obtain ⟨-, early, -⟩ := counted.running _ flying
    have some_ : 1 ≤ Fetch.left ⟨attempted, some flight⟩ := left_pos (early flight rfl)
    rw [List.count_singleton, if_neg (by simpa using called)]
    exact ⟨fun _ => counted.returned flying (Nat.add_le_add_left (one.trans some_) _),
      fun fetch none => by cases none⟩
  | @responds attempted flight response flying =>
    obtain ⟨inside, early, earlier, rfl, bound⟩ := counted.running _ flying
    have some_ : 1 ≤ Fetch.left ⟨attempted, some flight⟩ := left_pos (early flight rfl)
    have requests := (elsewhere_settled { w.client with requests := w.client.requests + 1 } flight
      response).requests
    refine ⟨fun _ => ?_, fun fetch same => ?_⟩
    · exact requests.trans_le (counted.returned flying (Nat.add_le_add_left some_ _))
    · split at same
      · cases same
        refine ⟨inside, fun flight none => (by cases none), earlier, rfl, ?_⟩
        have none : Fetch.left ⟨attempted, .none⟩ = 0 := rfl
        rw [none, requests]
        dsimp only at bound ⊢
        omega
      · cases same

theorem run {actions : List Action} (counted : Counted slots fetches w)
    (ran : trace (OddsApi.step slots) w actions = some w') :
    Counted slots (fetches + actions.count .fetchOdds) w' := by
  induction actions generalizing w fetches with
  | nil =>
    cases ran
    exact counted
  | cons a rest ih =>
    obtain ⟨next, done, later⟩ := trace_cons.mp ran
    have total : (a :: rest).count Action.fetchOdds =
      [a].count .fetchOdds + rest.count .fetchOdds := @List.count_append _ _ _ [a] rest
    rw [total, ← Nat.add_assoc]
    exact ih (counted.step done) later

end Counted

/-- Three requests for each slot, each slot once in a call. -/
theorem requests_bounded {actions : List Action} (ran : trace (step slots) {} actions = some w) :
    w.client.requests ≤ maxStatusAttempts * slots * actions.count .fetchOdds := by
  have start : Counted slots 0 {} := ⟨fun _ => Nat.zero_le _, fun fetch none => by cases none⟩
  have counted := start.run ran
  rw [Nat.zero_add] at counted
  cases running : w.fetch with
  | none => exact counted.idle running
  | some fetch => exact counted.returned running (Nat.le_add_right _ _)

theorem requests_bounded_firstTaken :
    (firstTaken 1).client.requests ≤ maxStatusAttempts * 2 *
      [Action.fetchOdds, .attempt 0, .transportError].count .fetchOdds :=
  requests_bounded (by decide +kernel)

end SharpEvPicks.Ingestion.OddsApi
