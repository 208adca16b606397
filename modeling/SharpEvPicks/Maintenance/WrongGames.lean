import Mathlib.Data.Finset.Order
import SharpEvPicks.Maintenance.AuditAlerts

/-! The floor under repeated wrong-game alerts, over all cycles of a process. -/
namespace SharpEvPicks.Maintenance.SelfAudit

open Python Transition

variable {m : MonitorState} {c : AuditCycle} {deadMan : Option Anomaly} {now later : Int}
  {alerted : Dict Str Int} {log : List (Str × Int)}

/-- The wrong games among the alerts that reached a channel, each with the time. -/
def wrongGames (now : Int) (sent : List Attempt) : List (Str × Int) :=
  (sent.filter fun s => s.anomaly.code = .wrongGameAnchor ∧ s.confirmed).map fun s =>
    (s.anomaly.dedupeKey, now)

/-- The job, with the wrong games that it has delivered so far. -/
def record (s : MonitorState × List (Str × Int)) (c : AuditCycle) :
    MonitorState × List (Str × Int) :=
  (nextState s.1 c, s.2 ++ wrongGames c.now (selfAuditJob s.1 c).2)

/-- The deliveries of the last 24 hours. -/
def recent (now : Int) (log : List (Str × Int)) : List (Str × Int) :=
  log.filter fun e => now - e.2 < wrongGameRealertInterval

/-- The times that the monitor remembers are those of deliveries. -/
def Logged (alerted : Dict Str Int) (log : List (Str × Int)) : Prop :=
  ∀ key t, alerted.get? key = some t → (key, t) ∈ log

/-- What the remembered times say of the deliveries. -/
structure Floor (now : Int) (alerted : Dict Str Int) (log : List (Str × Int)) : Prop where
  logged : Logged alerted log
  stamped : ∀ e ∈ recent now log, alerted.get? e.1 = some e.2
  past : ∀ e ∈ log, e.2 ≤ now
  apart : log.Pairwise fun e e' => e.1 = e'.1 → wrongGameRealertInterval ≤ e'.2 - e.2

theorem mem_recent {e : Str × Int} :
    e ∈ recent now log ↔ e ∈ log ∧ now - e.2 < wrongGameRealertInterval := by
  unfold recent
  rw [List.mem_filter, decide_eq_true_eq]

theorem Floor.pass (held : Floor now alerted log) (after : now ≤ later) :
    Floor later alerted log where
  logged := held.logged
  stamped e inside := by
    obtain ⟨listed, fresh⟩ := mem_recent.mp inside
    exact held.stamped e (mem_recent.mpr ⟨listed, by omega⟩)
  past e inside := (held.past e inside).trans after
  apart := held.apart

theorem Floor.deliver (held : Floor now alerted log) {key : Str}
    (due : ∀ last ∈ alerted.get? key, wrongGameRealertInterval ≤ now - last) :
    Floor now (alerted.set key now) (log ++ [(key, now)]) where
  logged key' t found := by
    rw [Dict.get?_set] at found
    split at found
    · rename_i same
      cases found
      exact List.mem_append_right _ (same ▸ List.mem_singleton_self _)
    · exact List.mem_append_left _ (held.logged key' t found)
  stamped e inside := by
    obtain ⟨listed, fresh⟩ := mem_recent.mp inside
    obtain before | here := List.mem_append.mp listed
    · have stamp : alerted.get? e.1 = some e.2 :=
        held.stamped e (mem_recent.mpr ⟨before, fresh⟩)
      have other : e.1 ≠ key := by
        intro same
        rw [same] at stamp
        have old : wrongGameRealertInterval ≤ now - e.2 := due e.2 stamp
        omega
      rwa [Dict.get?_set_ne _ other]
    · rw [List.mem_singleton.mp here]
      exact Dict.get?_set_self _ _ _
  past e inside := by
    obtain before | here := List.mem_append.mp inside
    · exact held.past e before
    · rw [List.mem_singleton.mp here]
  apart := by
    refine List.pairwise_append.mpr ⟨held.apart, List.pairwise_singleton _ _,
      fun e before e' here same => ?_⟩
    rw [List.mem_singleton.mp here] at same ⊢
    -- a delivery of the last 24 hours would still be remembered
    by_contra soon
    have stamp : alerted.get? e.1 = some e.2 :=
      held.stamped e (mem_recent.mpr ⟨before, not_le.mp soon⟩)
    exact soon (due e.2 ((congrArg alerted.get? same).symm.trans stamp))

/-! Pruning. -/

theorem prune_keeps {key : Str} {t : Int}
    (found : (pruneWrongGameAlerted alerted now).get? key = some t) :
    alerted.get? key = some t := by
  unfold pruneWrongGameAlerted at found
  rw [Dict.get?_filter, Dict.get?_filter] at found
  exact (Option.filter_eq_some_iff.mp (Option.filter_eq_some_iff.mp found).1).1

theorem get?_prune
    (few : (alerted.filter fun _ t => !(wrongGameRealertInterval ≤ now - t)).entries.length ≤
      wrongGameDailyMaxKeys)
    {key : Str} {t : Int} (fresh : now - t < wrongGameRealertInterval)
    (found : alerted.get? key = some t) :
    (pruneWrongGameAlerted alerted now).get? key = some t := by
  unfold pruneWrongGameAlerted
  dsimp only
  rw [Nat.sub_eq_zero_of_le few, List.take_zero, Dict.get?_filter, Dict.get?_filter, found]
  simp [fresh]

theorem Floor.prune (held : Floor now alerted log)
    (few : (recent now log).length ≤ wrongGameDailyMaxKeys) :
    Floor now (pruneWrongGameAlerted alerted now) log where
  logged key t found := held.logged key t (prune_keeps found)
  stamped e inside := by
    have fresh : now - e.2 < wrongGameRealertInterval := (mem_recent.mp inside).2
    refine get?_prune (le_trans ?_ few) fresh (held.stamped e inside)
    -- what is alive in the dictionary was delivered in the last 24 hours
    refine (List.Nodup.subperm (List.Nodup.of_map _ (alerted.filter _).nodup) fun e alive =>
      ?_).length_le
    obtain ⟨stored, young⟩ := List.mem_filter.mp alive
    refine mem_recent.mpr ⟨held.logged e.1 e.2 (Dict.get?_eq_some_iff.mpr stored), ?_⟩
    simpa using young
  past := held.past
  apart := held.apart

/-! One cycle. -/

theorem wrongGames_append (sent more : List Attempt) :
    wrongGames now (sent ++ more) = wrongGames now sent ++ wrongGames now more := by
  unfold wrongGames
  rw [List.filter_append, List.map_append]

theorem wrongGames_lost (a : Anomaly) : wrongGames now [⟨a, false⟩] = [] := by
  simp [wrongGames]

theorem wrongGames_other {a : Anomaly} {confirmed : Bool} (other : a.code ≠ .wrongGameAnchor) :
    wrongGames now [⟨a, confirmed⟩] = [] := by
  simp [wrongGames, other]

theorem wrongGames_heard {a : Anomaly} (wrong : a.code = .wrongGameAnchor) :
    wrongGames now [⟨a, true⟩] = [(a.dedupeKey, now)] := by
  simp [wrongGames, wrong]

theorem wrongGames_watches : wrongGames now (watches m c).2 = [] := by
  unfold wrongGames
  rw [List.map_eq_nil_iff, List.filter_eq_nil_iff]
  intro s inside wrong
  have code : s.anomaly.code = .wrongGameAnchor := (of_decide_eq_true wrong).1
  obtain headroom | recovered := watches_code inside
  · rw [headroom] at code
    cases code
  · rw [recovered] at code
    cases code

theorem wrongGames_nil : wrongGames now [] = [] := rfl

/-- The alerts of wrong games in a cycle are those of its audit. -/
theorem wrongGames_job : wrongGames c.now (selfAuditJob m c).2 =
    c.readings.elim [] fun r => wrongGames c.now (audited m c r).2 := by
  cases read : c.readings with
  | none =>
    rw [job_none read]
    exact wrongGames_watches
  | some r =>
    rw [job_some read, wrongGames_append, wrongGames_watches]
    rfl

variable {w w' : MonitorState × List Attempt} {a : Anomaly}

theorem Dispatched.floor (done : Dispatched deadMan now w a w')
    (dead : ∀ d ∈ deadMan, d.code = .deadMansSwitch)
    (held : Floor now w.1.wrongGameAlerted (log ++ wrongGames now w.2)) :
    Floor now w'.1.wrongGameAlerted (log ++ wrongGames now w'.2) := by
  cases done with
  | suppressed => exact held
  | lost => rwa [wrongGames_append, wrongGames_lost, List.append_nil]
  | switched same =>
    obtain ⟨d, there, same⟩ := same
    have other : a.code ≠ .wrongGameAnchor := by
      rw [same, dead d there]
      decide
    rwa [wrongGames_append, wrongGames_other other, List.append_nil]
  | heard apart due =>
    by_cases wrong : a.code = .wrongGameAnchor
    · rw [wrongGames_append, wrongGames_heard wrong, ← List.append_assoc, if_pos wrong]
      exact held.deliver (due wrong)
    · rwa [wrongGames_append, wrongGames_other wrong, List.append_nil, if_neg wrong]

theorem Floor.next (held : Floor c.now m.wrongGameAlerted log)
    (few : (recent c.now log).length ≤ wrongGameDailyMaxKeys) :
    Floor c.now (nextState m c).wrongGameAlerted
      (log ++ wrongGames c.now (selfAuditJob m c).2) := by
  rw [wrongGames_job]
  unfold nextState
  cases read : c.readings with
  | none =>
    rw [job_none read]
    simpa [watches] using held
  | some r =>
    rw [job_some read]
    refine fold_invariant (P := fun w =>
      Floor c.now w.1.wrongGameAlerted (log ++ wrongGames c.now w.2)) _
      (fun w w' a _ done held => done.floor deadManOf_code held) ?_
    simpa [wrongGames, settled, countedState, watches] using held.prune few

/-! All cycles. -/

/-- No more keys are delivered in 24 hours than the monitor remembers. -/
def Few (s : MonitorState × List (Str × Int)) (c : AuditCycle) : Prop :=
  (recent c.now s.2).length ≤ wrongGameDailyMaxKeys

theorem floor_run {cycles : List AuditCycle} (clock : cycles.Pairwise fun c d => c.now ≤ d.now)
    (few : Along record Few ({}, []) cycles) (after : ∀ c ∈ cycles, c.now ≤ later) :
    Floor later (run record ({}, []) cycles).1.wrongGameAlerted (run record ({}, []) cycles).2 := by
  induction cycles using List.reverseRecOn generalizing later with
  | nil => exact ⟨nofun, nofun, nofun, .nil⟩
  | append_singleton before last ih =>
    obtain ⟨early, -, between⟩ := List.pairwise_append.mp clock
    obtain ⟨fewEarly, fewLast, -⟩ := along_append.mp few
    rw [run_append, run_cons, run_nil]
    have held := ih early fewEarly fun c inside =>
      between c inside last (List.mem_singleton_self last)
    exact (held.next fewLast).pass
      (after last (List.mem_append_right _ (List.mem_singleton_self last)))

/-- Deliveries of one wrong game are 24 hours apart, while the clock does not go back and no more
than 256 are delivered in 24 hours. -/
theorem wrong_game_floor {cycles : List AuditCycle}
    (clock : cycles.Pairwise fun c d => c.now ≤ d.now) (few : Along record Few ({}, []) cycles) :
    (run record ({}, []) cycles).2.Pairwise fun e e' => e.1 = e'.1 →
      wrongGameRealertInterval ≤ e'.2 - e.2 := by
  obtain ⟨later, after⟩ := (cycles.map AuditCycle.now).toFinset.exists_le
  have held := floor_run clock few fun c inside =>
    after c.now (List.mem_toFinset.mpr (List.mem_map_of_mem inside))
  exact held.apart

/-- An audit at the hour that finds one wrong game, or none. -/
def hourly (hour : Nat) (wrong : Bool) (reached : Bool) : AuditCycle where
  now := hours hour
  readings := some
    { newestOdds := some (hours hour), freshOdds := 1,
      wrongGames := if wrong then ["Arsenal".toList] else [] }
  deliver _ _ := if reached then .bare else .raised

/-- A wrong game that comes and goes. -/
def flapping : List AuditCycle :=
  [hourly 0 true true, hourly 1 false true, hourly 2 true true, hourly 3 false true,
    hourly 25 true true]

theorem wrong_game_floor_flapping :
    (run record ({}, []) flapping).2.map Prod.snd = [hours 0, hours 25] ∧
      (run record ({}, []) flapping).2.Pairwise fun e e' => e.1 = e'.1 →
        wrongGameRealertInterval ≤ e'.2 - e.2 := by
  have few : Along record Few ({}, []) flapping := by
    unfold Few
    decide +kernel
  exact ⟨by decide +kernel, wrong_game_floor (by decide +kernel) few⟩

/-! Nothing is muted before it is delivered. -/

/-- The wrong games of which the monitor keeps quiet have been delivered. -/
structure Known (m : MonitorState) (log : List (Str × Int)) : Prop where
  logged : Logged m.wrongGameAlerted log
  delivered : ∀ a : Anomaly, a.code = .wrongGameAnchor → a.dedupeKey ∈ m.activeAnomalies →
    ∃ t, (a.dedupeKey, t) ∈ log

/-- The key was handed over in the cycle, or had been delivered before it. -/
def Answered (log : List (Str × Int)) (key : Str) (w : MonitorState × List Attempt) : Prop :=
  (∃ s ∈ w.2, s.anomaly.dedupeKey = key) ∨ ∃ t, (key, t) ∈ log

theorem mem_wrongGames {sent : List Attempt} {key : Str} {t : Int}
    (inside : (key, t) ∈ wrongGames now sent) : ∃ s ∈ sent, s.anomaly.dedupeKey = key := by
  obtain ⟨s, kept, same⟩ := List.mem_map.mp inside
  cases same
  exact ⟨s, List.mem_of_mem_filter kept, rfl⟩

theorem wrong_key_ne {b : Anomaly} (wrong : a.code = .wrongGameAnchor)
    (other : b.code ≠ .wrongGameAnchor) : a.dedupeKey ≠ b.dedupeKey := by
  intro same
  have colon : ':' ∈ b.dedupeKey := same ▸ colon_of_wrong wrong
  unfold Anomaly.dedupeKey at colon
  rw [if_neg other] at colon
  exact text_clear b.code colon

theorem Known.grow {more : List (Str × Int)} (known : Known m log) : Known m (log ++ more) where
  logged key t found := List.mem_append_left _ (known.logged key t found)
  delivered a wrong active := by
    obtain ⟨t, listed⟩ := known.delivered a wrong active
    exact ⟨t, List.mem_append_left _ listed⟩

theorem Dispatched.known (done : Dispatched deadMan now w a w')
    (known : Known w.1 (log ++ wrongGames now w.2)) : Known w'.1 (log ++ wrongGames now w'.2) := by
  cases done with
  | suppressed wrong held =>
    refine ⟨known.logged, fun b wrong active => ?_⟩
    obtain here | before := Finset.mem_insert.mp active
    · exact ⟨_, here ▸ known.logged _ _ held⟩
    · exact known.delivered b wrong before
  | lost =>
    rw [wrongGames_append, ← List.append_assoc]
    exact known.grow
  | switched =>
    rw [wrongGames_append, ← List.append_assoc]
    exact ⟨known.grow.logged, known.grow.delivered⟩
  | heard =>
    rw [wrongGames_append, ← List.append_assoc]
    constructor
    · intro key t found
      dsimp only at found
      split at found
      · rename_i wrong
        rw [Dict.get?_set] at found
        split at found
        · rename_i same
          cases found
          rw [same, wrongGames_heard wrong]
          exact List.mem_append_right _ (List.mem_singleton_self _)
        · exact known.grow.logged key t found
      · exact known.grow.logged key t found
    · intro b wrong active
      obtain here | before := Finset.mem_insert.mp active
      · have heardWrong : a.code = .wrongGameAnchor := by
          by_contra other
          exact wrong_key_ne wrong other here
        rw [here, wrongGames_heard heardWrong]
        exact ⟨now, List.mem_append_right _ (List.mem_singleton_self _)⟩
      · exact known.grow.delivered b wrong before

theorem Dispatched.answered (done : Dispatched deadMan now w a w')
    (known : Known w.1 (log ++ wrongGames now w.2)) : Answered log a.dedupeKey w' := by
  cases done with
  | suppressed wrong held =>
    obtain before | here := List.mem_append.mp (known.logged _ _ held)
    · exact .inr ⟨_, before⟩
    · exact .inl (mem_wrongGames here)
  | lost => exact .inl ⟨_, List.mem_append_right _ (List.mem_singleton_self _), rfl⟩
  | switched => exact .inl ⟨_, List.mem_append_right _ (List.mem_singleton_self _), rfl⟩
  | heard => exact .inl ⟨_, List.mem_append_right _ (List.mem_singleton_self _), rfl⟩

theorem Dispatched.still {key : Str} (done : Dispatched deadMan now w a w')
    (answered : Answered log key w) : Answered log key w' := by
  refine answered.imp_left ?_
  rintro ⟨s, sent, same⟩
  refine ⟨s, ?_, same⟩
  cases done with
  | suppressed => exact sent
  | lost => exact List.mem_append_left _ sent
  | switched => exact List.mem_append_left _ sent
  | heard => exact List.mem_append_left _ sent

theorem fold_answered {deliver : Nat → Anomaly → Delivery} {l : List Anomaly}
    (inside : a ∈ l) (known : Known w.1 (log ++ wrongGames now w.2)) :
      Answered log a.dedupeKey (l.foldl (dispatchOne deadMan deliver now) w) := by
  induction l generalizing w with
  | nil => cases inside
  | cons b l ih =>
    obtain rfl | later := List.mem_cons.mp inside
    · exact fold_invariant l (fun w w' b _ done answered =>
        done.still answered) ((dispatched w a).answered known)
    · exact ih later ((dispatched w b).known known)

/-- Where the dispatches of an audit start. -/
theorem Known.start {anomalies : List Anomaly} (known : Known m log) (r : Readings) :
    Known (settled (countedState m c r) anomalies now) (log ++ wrongGames now []) := by
  rw [wrongGames_nil, List.append_nil]
  exact ⟨fun key t found => known.logged key t (prune_keeps found),
    fun a wrong active => known.delivered a wrong (Finset.mem_filter.mp active).1⟩

theorem Known.next (known : Known m log) :
    Known (nextState m c) (log ++ wrongGames c.now (selfAuditJob m c).2) := by
  rw [wrongGames_job]
  unfold nextState
  cases read : c.readings with
  | none =>
    rw [job_none read, Option.elim_none, List.append_nil]
    exact ⟨known.logged, known.delivered⟩
  | some r =>
    rw [job_some read]
    exact fold_invariant (P := fun w => Known w.1 (log ++ wrongGames c.now w.2)) _
      (fun w w' a _ done known => done.known known) (known.start r)

theorem known_run (cycles : List AuditCycle) :
    Known (run record ({}, []) cycles).1 (run record ({}, []) cycles).2 := by
  have base : Known {} [] := ⟨nofun, fun _ _ active => absurd active (Finset.notMem_empty _)⟩
  exact invariant (I := fun s : MonitorState × List (Str × Int) => Known s.1 s.2)
      (fun _ _ known =>
    known.next) base

/-- A wrong game that an audit finds is handed to the dispatcher in that cycle, unless it has been
delivered before. -/
theorem wrong_game_heard (before : List AuditCycle) (c : AuditCycle) {r : Readings}
    (read : c.readings = some r) {detail : Str} (found : detail ∈ r.wrongGames) :
    let s := run record ({}, []) before
    let key := (⟨.error, .wrongGameAnchor, detail⟩ : Anomaly).dedupeKey
    (∃ sent ∈ (selfAuditJob s.1 c).2, sent.anomaly.dedupeKey = key) ∨ ∃ t,
      (key, t) ∈ s.2 := by
  intro s key
  have known : Known s.1 s.2 := known_run before
  have listed : (⟨.error, .wrongGameAnchor, detail⟩ : Anomaly) ∈
      (runSelfAudit c.now c.pinnacleSilenceWindow r).1 :=
    List.mem_append_right _ (List.mem_map_of_mem found)
  by_cases quiet : key ∈ s.1.activeAnomalies
  · exact .inr (known.delivered _ rfl quiet)
  · rw [job_some read]
    have due : (⟨.error, .wrongGameAnchor, detail⟩ : Anomaly) ∈
        toSend (countedState s.1 c r) (runSelfAudit c.now c.pinnacleSilenceWindow r).1
          (deadManOf s.1 c r) :=
      List.mem_append_left _ (List.mem_filter.mpr ⟨listed, decide_eq_true quiet⟩)
    have answered : Answered s.2 key (audited s.1 c r) := fold_answered due (known.start r)
    obtain ⟨sent, inside, same⟩ | before := answered
    · exact .inl ⟨sent, List.mem_append_right _ inside, same⟩
    · exact .inr before

/-- An alert that was lost is repeated in the next cycle. -/
theorem wrong_game_heard_lost :
    ∃ sent ∈ (selfAuditJob (run record ({}, []) [hourly 0 true false]).1
      (hourly 1 true true)).2,
    sent.anomaly.dedupeKey =
      (⟨.error, .wrongGameAnchor, "Arsenal".toList⟩ : Anomaly).dedupeKey := by
  obtain sent | ⟨t, before⟩ :=
    wrong_game_heard [hourly 0 true false] (hourly 1 true true) rfl (List.mem_singleton_self _)
  · exact sent
  · have none : (run record ({}, []) [hourly 0 true false]).2 = [] := by decide +kernel
    rw [none] at before
    cases before

end SharpEvPicks.Maintenance.SelfAudit
