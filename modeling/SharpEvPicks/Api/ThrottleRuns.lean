import SharpEvPicks.Api.LoginThrottle
import SharpEvPicks.Python.Sizes

/-! What the throttle of `/login` keeps, however the requests interleave. -/
namespace SharpEvPicks.Api.LoginThrottle

open Python Transition

variable {failures : Failures} {ip ip' : Str} {now : ℚ} {entry : ℚ × Nat} {w w' : World}

/-! Room in the table. -/

theorem oldest_held {key : Str} (first : oldest failures = some key) :
    (failures.get? key).isSome := by
  obtain ⟨e, head, rfl⟩ := Option.map_eq_some_iff.mp first
  have there := mem_sortedBy.mp (List.mem_of_head? head)
  exact Dict.mem_keys_iff.mp (List.mem_map_of_mem there)

theorem exists_oldest (some_ : failures.entries ≠ []) : ∃ key, oldest failures = some key := by
  obtain ⟨e, there⟩ := List.exists_mem_of_ne_nil _ some_
  have listed : e ∈ sortedBy (fun e => e.2.1) failures.entries := mem_sortedBy.mpr there
  cases head : (sortedBy (fun e => e.2.1) failures.entries).head? with
  | none =>
    rw [List.head?_eq_none_iff.mp head] at listed
    cases listed
  | some first => exact ⟨first.1, by rw [oldest, head]; rfl⟩

theorem dropOldest_small (passes : Nat) (small : failures.entries.length < throttleMaxKeys) :
    dropOldest passes failures = failures := by
  cases passes with
  | zero => rfl
  | succ passes => exact if_neg (Nat.not_le_of_lt small)

theorem dropOldest_length {passes : Nat} (enough : failures.entries.length ≤ passes) :
    (dropOldest passes failures).entries.length < throttleMaxKeys := by
  induction passes generalizing failures with
  | zero => exact Nat.lt_of_le_of_lt enough (by decide)
  | succ passes ih =>
    unfold dropOldest
    split
    · rename_i full
      have some_ : failures.entries ≠ [] := by
        intro none
        rw [none] at full
        exact absurd full (by decide)
      obtain ⟨key, first⟩ := exists_oldest some_
      have fewer := Dict.length_pop_lt (oldest_held first)
      simp only [first]
      exact ih (by omega)
    · rename_i small
      exact Nat.lt_of_not_le small

theorem dropOldest_get? {passes : Nat} (held : (dropOldest passes failures).get? ip = some entry) :
    failures.get? ip = some entry := by
  induction passes generalizing failures with
  | zero => exact held
  | succ passes ih =>
    unfold dropOldest at held
    split at held
    · split at held
      · exact held
      · have before := ih held
        rw [Dict.get?_pop] at before
        split at before
        · cases before
        · exact before
    · exact held

theorem makeRoom_get? (held : (makeRoom failures now).get? ip = some entry) :
    failures.get? ip = some entry := by
  unfold makeRoom at held
  split at held
  · have before := dropOldest_get? held
    rw [Dict.get?_filter] at before
    exact (Option.filter_eq_some_iff.mp before).1
  · exact held

theorem makeRoom_length (failures : Failures) (now : ℚ) :
    (makeRoom failures now).entries.length < throttleMaxKeys := by
  unfold makeRoom
  split
  · exact dropOldest_length le_rfl
  · rename_i small
    exact Nat.lt_of_not_le small

/-- With few addresses, what room is made for an address takes no window that is still on. -/
theorem makeRoom_live {addresses : Finset Str} (few : addresses.card ≤ throttleMaxKeys)
    (inside : ∀ k, (failures.get? k).isSome → k ∈ addresses) (mine : ip ∈ addresses)
    (past : Window.Over loginWindowSeconds now (failures.get? ip))
    (held : failures.get? ip' = some entry) (live : ¬ loginWindowSeconds ≤ now - entry.1) :
    (makeRoom failures now).get? ip' = some entry := by
  unfold makeRoom
  split
  · have kept (k : Str) :
        (failures.filter fun _ entry => !(loginWindowSeconds ≤ now - entry.1)).get? k =
        (failures.get? k).filter fun entry => !(loginWindowSeconds ≤ now - entry.1) :=
          Dict.get?_filter _ _ _
    have small : (failures.filter fun _ entry =>
        !(loginWindowSeconds ≤ now - entry.1)).entries.length < throttleMaxKeys := by
      have others : _ ≤ (addresses.erase ip).card := Dict.length_le_card fun k there => by
        rw [kept] at there
        obtain ⟨e, there⟩ := Option.isSome_iff_exists.mp there
        obtain ⟨before, on⟩ := Option.filter_eq_some_iff.mp there
        refine Finset.mem_erase.mpr ⟨?_, inside k (before ▸ rfl)⟩
        rintro rfl
        have ended := past e.1 e.2 before
        simp [ended] at on
      have one := Finset.card_erase_add_one mine
      omega
    rw [dropOldest_small _ small, kept, held]
    simp [live]
  · exact held

/-! What a failure does to the table. -/

inductive Recorded (failures : Failures) (ip : Str) (now : ℚ) : Failures → Prop where
  | opened (past : Window.Over loginWindowSeconds now (failures.get? ip)) :
      Recorded failures ip now ((makeRoom failures now).set ip (now, 1))
  | counted {windowStart : ℚ} {count : Nat} (held : failures.get? ip = some (windowStart, count))
      (live : ¬ loginWindowSeconds ≤ now - windowStart) :
      Recorded failures ip now (failures.set ip (windowStart, count + 1))

theorem recorded (failures : Failures) (ip : Str) (now : ℚ) :
    Recorded failures ip now (loginRecordFailure failures ip now) := by
  unfold loginRecordFailure
  split
  · rename_i none
    exact .opened (none ▸ Window.over_none)
  · rename_i windowStart count held
    split
    · rename_i ended
      refine .opened fun start n here => ?_
      cases held.symm.trans here
      exact ended
    · rename_i live
      exact .counted held live

namespace Recorded
variable {after : Failures}

theorem length_le (done : Recorded failures ip now after)
    (small : failures.entries.length ≤ throttleMaxKeys) :
    after.entries.length ≤ throttleMaxKeys := by
  cases done with
  | opened past =>
    have room := makeRoom_length failures now
    exact Dict.length_set_le.trans room
  | counted held live => exact (Dict.length_set_of_isSome (held ▸ rfl)).trans_le small

theorem other (done : Recorded failures ip now after) (apart : ip' ≠ ip)
    (held : after.get? ip' = some entry) : failures.get? ip' = some entry := by
  cases done with
  | opened past =>
    rw [Dict.get?_set_ne _ apart] at held
    exact makeRoom_get? held
  | counted held' live => rwa [Dict.get?_set_ne _ apart] at held

theorem self (done : Recorded failures ip now after) :
    ∃ windowStart count, after.get? ip = some (windowStart, count) ∧
    (windowStart = now ∧ count = 1 ∨
      ∃ before, failures.get? ip = some (windowStart, before) ∧
        ¬ loginWindowSeconds ≤ now - windowStart ∧ count = before + 1) := by
  cases done with
  | opened past => exact ⟨now, 1, Dict.get?_set_self _ _ _, .inl ⟨rfl, rfl⟩⟩
  | counted held live => exact ⟨_, _, Dict.get?_set_self _ _ _, .inr ⟨_, held, live, rfl⟩⟩

end Recorded

theorem retryAfter_none : loginRetryAfter failures ip now = none ↔
    Window.Open loginWindowSeconds loginMaxFailures now (failures.get? ip) := by
  unfold loginRetryAfter
  split
  · rename_i none
    exact iff_of_true rfl (none ▸ Window.open_none)
  · rename_i windowStart count held
    rw [held]
    split
    · rename_i opened
      refine iff_of_true rfl fun start n here => ?_
      cases here
      exact opened
    · rename_i closed
      exact iff_of_false (Option.some_ne_none _) fun opened => closed (opened windowStart count rfl)

/-! What is kept. -/

structure Sound (w : World) : Prop where
  small : w.failures.entries.length ≤ throttleMaxKeys
  single : w.hashes.Nodup
  inflight : w.inflight = w.hashes.toFinset
  few : w.hashes.length ≤ loginMaxInflight
  opened : ∀ ip ∈ w.hashes,
    Window.Open loginWindowSeconds loginMaxFailures w.clock (w.failures.get? ip)
  counted : ∀ ip windowStart count, w.failures.get? ip = some (windowStart, count) →
    windowStart ≤ w.clock ∧ 1 ≤ count ∧ count ≤ loginMaxFailures

namespace Sound

theorem start : Sound {} where
  small := Nat.zero_le _
  single := List.nodup_nil
  inflight := rfl
  few := Nat.zero_le _
  opened _ inside := by cases inside
  counted _ _ _ held := by cases held

theorem wait (sound : Sound w) (later : w.clock ≤ now) : Sound { w with clock := now } where
  small := sound.small
  single := sound.single
  inflight := sound.inflight
  few := sound.few
  opened ip inside := (sound.opened ip inside).later later
  counted ip windowStart count held := by
    obtain ⟨began, counts⟩ := sound.counted ip windowStart count held
    exact ⟨began.trans later, counts⟩

theorem hashing (sound : Sound w) (later : w.clock ≤ now)
    (admitted : admission w ip now = .hashing) :
    Sound { w with inflight := insert ip w.inflight, hashes := ip :: w.hashes, clock := now } := by
  unfold admission at admitted
  split at admitted
  · cases admitted
  · rename_i retry
    split at admitted
    · cases admitted
    · rename_i idle
      obtain ⟨fresh, room⟩ := not_or.mp idle
      have opened := retryAfter_none.mp retry
      have card : w.inflight.card = w.hashes.length := by
        rw [sound.inflight, List.toFinset_card_of_nodup sound.single]
      rw [sound.inflight, List.mem_toFinset] at fresh
      have waited := sound.wait later
      exact
        { small := sound.small
          single := List.nodup_cons.mpr ⟨fresh, sound.single⟩
          inflight := by rw [sound.inflight, List.toFinset_cons]
          few := by
            rw [List.length_cons]
            omega
          opened := List.forall_mem_cons.mpr ⟨opened, waited.opened⟩
          counted := waited.counted }

/-- A hash ends, and the other addresses keep what is recorded of them. -/
theorem release {after : Failures} (sound : Sound w) (later : w.clock ≤ now)
    (size : after.entries.length ≤ throttleMaxKeys)
    (same : ∀ ip' entry, ip' ≠ ip → after.get? ip' = some entry →
      w.failures.get? ip' = some entry)
    (mine : ∀ windowStart count, after.get? ip = some (windowStart, count) →
      windowStart ≤ now ∧ 1 ≤ count ∧ count ≤ loginMaxFailures) :
    Sound { failures := after, inflight := w.inflight.erase ip, hashes := w.hashes.erase ip,
            clock := now } := by
  have waited := sound.wait later
  constructor
  · exact size
  · exact sound.single.erase ip
  · rw [sound.inflight]
    ext ip'
    simp [sound.single.mem_erase_iff]
  · exact (List.length_erase_le).trans sound.few
  · intro ip' inside windowStart count held
    obtain ⟨apart, listed⟩ := sound.single.mem_erase_iff.mp inside
    exact waited.opened ip' listed windowStart count (same ip' _ apart held)
  · intro ip' windowStart count held
    by_cases here : ip' = ip
    · subst here
      exact mine windowStart count held
    · exact waited.counted ip' windowStart count (same ip' _ here held)

theorem finish {authenticated : Authenticated} (sound : Sound w) (later : w.clock ≤ now)
    (running : ip ∈ w.hashes) :
    Sound { failures := settled w.failures ip now authenticated, inflight := w.inflight.erase ip,
            hashes := w.hashes.erase ip, clock := now } := by
  have waited := sound.wait later
  cases authenticated with
  | yes =>
    refine sound.release later ((List.length_filter_le _ _).trans sound.small) ?_ ?_
    · intro ip' entry apart held
      rwa [settled, loginRecordSuccess, Dict.get?_pop, if_neg apart] at held
    · intro windowStart count held
      rw [settled, loginRecordSuccess, Dict.get?_pop, if_pos rfl] at held
      cases held
  | no =>
    have done := recorded w.failures ip now
    refine sound.release later (done.length_le sound.small)
      (fun ip' entry apart held => done.other apart held) ?_
    intro windowStart count held
    obtain ⟨start, n, here, ⟨rfl, rfl⟩ | ⟨before, held', live, rfl⟩⟩ := done.self
    · cases here.symm.trans held
      exact ⟨le_rfl, le_rfl, by decide⟩
    · cases here.symm.trans held
      have room := (waited.opened ip running _ before held').resolve_left live
      exact ⟨(waited.counted ip _ before held').1, Nat.le_add_left 1 before, room⟩
  | raised | cancelled =>
    exact sound.release later sound.small (fun _ _ _ held => held) (waited.counted ip)

theorem step {a : Action} (sound : Sound w) (taken : LoginThrottle.step w a = some w') :
    Sound w' := by
  cases a with
  | submit ip now =>
    simp only [LoginThrottle.step] at taken
    split at taken
    · rename_i later
      split at taken
      · rename_i admitted
        cases taken
        exact sound.hashing later admitted
      · cases taken
        exact sound.wait later
    · cases taken
  | finish ip now authenticated =>
    simp only [LoginThrottle.step] at taken
    split at taken
    · rename_i possible
      cases taken
      exact sound.finish possible.1 possible.2
    · cases taken

theorem run {actions : List Action} (ran : trace LoginThrottle.step {} actions = some w) :
    Sound w :=
  trace_invariant (fun _ _ _ sound taken => sound.step taken) start ran

end Sound

/-- However the sign-ins interleave, the table and the running hashes are bounded, an address runs
one hash at once, and no window of an address ever counts more than five failures. -/
theorem throttle_bounds {actions : List Action} {w : World} (ran : trace step {} actions = some w) :
    w.failures.entries.length ≤ throttleMaxKeys ∧ w.hashes.Nodup ∧
    w.hashes.length ≤ loginMaxInflight ∧
      ∀ ip windowStart count, w.failures.get? ip = some (windowStart, count) →
        windowStart ≤ w.clock ∧ 1 ≤ count ∧ count ≤ loginMaxFailures := by
  have sound := Sound.run ran
  exact ⟨sound.small, sound.single, sound.few, sound.counted⟩

/-- Two addresses fail side by side. -/
def firstSignIns : List Action :=
  [.submit "peer".toList 0, .submit "other".toList 1, .finish "other".toList 2 .no,
    .finish "peer".toList 3 .no]

def afterFirst : World where
  failures := (Dict.empty.set "other".toList (2, 1)).set "peer".toList (3, 1)
  clock := 3

/-- One address fails four times more, with a cancelled request in between, while another
signs in. -/
def nextSignIns : List Action :=
  [.submit "peer".toList 4, .submit "guest".toList 4, .finish "peer".toList 5 .no,
    .submit "peer".toList 6, .finish "guest".toList 7 .yes, .finish "peer".toList 8 .cancelled,
    .submit "peer".toList 9, .submit "other".toList 9, .finish "peer".toList 10 .no,
    .submit "peer".toList 11, .finish "other".toList 12 .no, .finish "peer".toList 13 .no,
    .submit "peer".toList 14, .finish "peer".toList 15 .no]

def afterNext : World where
  failures := (Dict.empty.set "other".toList (2, 2)).set "peer".toList (3, 5)
  clock := 15

theorem firstSignIns_run : trace step {} firstSignIns = some afterFirst := by decide +kernel

theorem nextSignIns_run : trace step afterFirst nextSignIns = some afterNext := by decide +kernel

theorem signIns_run : trace step {} (firstSignIns ++ nextSignIns) = some afterNext := by
  decide +kernel

theorem throttle_bounds_signIns :
    afterNext.failures.entries.length ≤ throttleMaxKeys ∧ afterNext.hashes.Nodup ∧
      afterNext.hashes.length ≤ loginMaxInflight ∧
      ∀ ip windowStart count, afterNext.failures.get? ip = some (windowStart, count) →
        windowStart ≤ afterNext.clock ∧ 1 ≤ count ∧ count ≤ loginMaxFailures :=
  throttle_bounds signIns_run

end SharpEvPicks.Api.LoginThrottle
