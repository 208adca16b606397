import SharpEvPicks.Maintenance.SelfAudit
import SharpEvPicks.Transition.Latch

/-! What the self-audit alerts of, over all cycles of a process. -/
namespace SharpEvPicks.Maintenance.SelfAudit

open Python Transition

variable {m : MonitorState} {c : AuditCycle} {code : Code} {deadMan : Option Anomaly}
  {deliver : Nat → Anomaly → Delivery} {now : Int} {anomalies : List Anomaly}

/-- The codes of which an audit finds at most one. -/
def Code.single : Code → Bool
  | .awaitingBacklog | .staleOdds | .sharpAnchorCliff | .pinnacleCaptureSilent
  | .impossibleMarketFamily => true
  | _ => false

/-- The audit of the cycle finds the code. -/
def Reports (code : Code) (c : AuditCycle) : Prop :=
  ∃ r ∈ c.readings, ∃ a ∈ (runSelfAudit c.now c.pinnacleSilenceWindow r).1, a.code = code

/-- The code is among the alerts of the cycle. -/
def Sends (code : Code) (m : MonitorState) (c : AuditCycle) : Prop :=
  ∃ sent ∈ (selfAuditJob m c).2, sent.anomaly.code = code

/-- An alert of the code reaches a channel. -/
def Delivers (code : Code) (m : MonitorState) (c : AuditCycle) : Prop :=
  ∃ sent ∈ (selfAuditJob m c).2, sent.anomaly.code = code ∧ sent.confirmed = true

/-! One dispatch. -/

/-- What the pass over an anomaly can do. -/
inductive Dispatched (deadMan : Option Anomaly) (now : Int) (w : MonitorState × List Attempt)
    (a : Anomaly) :
    MonitorState × List Attempt → Prop
  | suppressed {last : Int}
      (wrong : a.code = .wrongGameAnchor) (held : w.1.wrongGameAlerted.get? a.dedupeKey = some last)
      (recent : now - last < wrongGameRealertInterval) :
      Dispatched deadMan now w a
        ({ w.1 with activeAnomalies := insert a.dedupeKey w.1.activeAnomalies }, w.2)
  | lost (due : a.code = .wrongGameAnchor → ∀ last ∈ w.1.wrongGameAlerted.get? a.dedupeKey,
      wrongGameRealertInterval ≤ now - last) :
      Dispatched deadMan now w a (w.1, w.2 ++ [⟨a, false⟩])
  | switched (same : ∃ d ∈ deadMan, a.code = d.code) :
      Dispatched deadMan now w a ({ w.1 with deadManAlerted := true }, w.2 ++ [⟨a, true⟩])
  | heard (apart : ∀ d ∈ deadMan, a.code ≠ d.code)
      (due : a.code = .wrongGameAnchor → ∀ last ∈ w.1.wrongGameAlerted.get? a.dedupeKey,
        wrongGameRealertInterval ≤ now - last) :
      Dispatched deadMan now w a
        ({ w.1 with
          activeAnomalies := insert a.dedupeKey w.1.activeAnomalies
          wrongGameAlerted :=
            if a.code = .wrongGameAnchor then w.1.wrongGameAlerted.set a.dedupeKey now
              else w.1.wrongGameAlerted },
          w.2 ++ [⟨a, true⟩])

theorem dispatched (w : MonitorState × List Attempt) (a : Anomaly) :
    Dispatched deadMan now w a (dispatchOne deadMan deliver now w a) := by
  unfold dispatchOne
  dsimp only
  by_cases quiet : a.code = .wrongGameAnchor ∧
      ((w.1.wrongGameAlerted.get? a.dedupeKey).any fun last =>
        now - last < wrongGameRealertInterval) = true
  · rw [if_pos quiet]
    obtain ⟨wrong, recent⟩ := quiet
    obtain ⟨last, held, recent⟩ := (Option.any_eq_true _ _).mp recent
    exact .suppressed wrong held (of_decide_eq_true recent)
  · rw [if_neg quiet]
    have due : a.code = .wrongGameAnchor → ∀ last ∈ w.1.wrongGameAlerted.get? a.dedupeKey,
        wrongGameRealertInterval ≤ now - last := by
      intro wrong last held
      by_contra recent
      exact quiet ⟨wrong,
        (Option.any_eq_true _ _).mpr ⟨last, held, decide_eq_true (not_le.mp recent)⟩⟩
    cases heard : (deliver w.2.length a).confirmed with
    | false => exact .lost due
    | true =>
      rw [if_neg (by simp)]
      by_cases same : (deadMan.any fun d => a.code = d.code) = true
      · rw [if_pos same]
        obtain ⟨d, there, same⟩ := (Option.any_eq_true _ _).mp same
        exact .switched ⟨d, there, of_decide_eq_true same⟩
      · rw [if_neg same]
        exact .heard (fun d there equal =>
          same ((Option.any_eq_true _ _).mpr ⟨d, there, decide_eq_true equal⟩)) due

/-! Codes of which an audit finds at most one. -/

theorem text_clear (code : Code) : ':' ∉ code.text := by
  cases code <;> decide

theorem colon_of_wrong {a : Anomaly} (wrong : a.code = .wrongGameAnchor) : ':' ∈ a.dedupeKey := by
  unfold Anomaly.dedupeKey
  rw [if_pos wrong]
  exact List.mem_append_right _ List.mem_cons_self

theorem text_injective {other : Code} (same : code.text = other.text) : code = other := by
  cases code <;> cases other <;> first | rfl | (revert same; decide)

theorem key_iff (single : code.single = true) (a : Anomaly) :
    a.dedupeKey = code.text ↔ a.code = code := by
  unfold Anomaly.dedupeKey
  split
  · rename_i wrong
    refine iff_of_false (fun same => text_clear code ?_) fun equal => ?_
    · rw [← same]
      exact List.mem_append_right _ List.mem_cons_self
    · rw [wrong] at equal
      subst equal
      cases single
  · exact ⟨text_injective, fun equal => by rw [equal]⟩

theorem runSelfAudit_code {window : Option Int} {r : Readings} {a : Anomaly}
    (inside : a ∈ (runSelfAudit now window r).1) :
    a.code.single = true ∨ a.code = .wrongGameAnchor := by
  simp only [runSelfAudit, evaluateAnomalies, List.mem_append, Option.mem_toList,
    List.mem_map] at inside
  obtain ((((backlog | stale) | cliff) | silent) | family) | ⟨detail, -, rfl⟩ := inside
  · split at backlog
    · rw [List.mem_singleton.mp backlog]
      exact .inl rfl
    · cases backlog
  · split at stale
    · rw [List.mem_singleton.mp stale]
      exact .inl rfl
    · cases stale
  · unfold evaluateSharpAnchorCliff at cliff
    split at cliff
    · cases cliff
    · split at cliff <;> cases cliff
      exact .inl rfl
  · obtain ⟨hours, -, silent⟩ := Option.bind_eq_some_iff.mp silent
    unfold evaluatePinnacleCaptureSilence at silent
    split at silent <;> cases silent
    exact .inl rfl
  · unfold evaluateImpossibleMarketFamilies at family
    dsimp only at family
    split at family <;> cases family
    exact .inl rfl
  · exact .inr rfl

/-- An alert of the code has reached a channel. -/
def Heard (code : Code) (w : MonitorState × List Attempt) : Prop :=
  ∃ s ∈ w.2, s.anomaly.code = code ∧ s.confirmed = true

theorem heard_concat {w : MonitorState × List Attempt} {s : Attempt} {m' : MonitorState} :
    Heard code (m', w.2 ++ [s]) ↔ Heard code w ∨ s.anomaly.code = code ∧
      s.confirmed = true := by
  simp [Heard, or_and_right, exists_or]

section
variable {w w' : MonitorState × List Attempt} {a : Anomaly} {base : Prop}

theorem Dispatched.sent (done : Dispatched deadMan now w a w')
    (plain : a.code ≠ .wrongGameAnchor) : ∃ confirmed, w'.2 = w.2 ++ [⟨a, confirmed⟩] := by
  cases done with
  | suppressed wrong => exact absurd wrong plain
  | lost => exact ⟨false, rfl⟩
  | switched => exact ⟨true, rfl⟩
  | heard => exact ⟨true, rfl⟩

theorem Dispatched.active (done : Dispatched deadMan now w a w') (single : code.single = true)
    (dead : ∀ d ∈ deadMan, d.code = .deadMansSwitch)
    (known : code.text ∈ w.1.activeAnomalies ↔ base ∨ Heard code w) :
    code.text ∈ w'.1.activeAnomalies ↔ base ∨ Heard code w' := by
  cases done with
  | suppressed wrong =>
    have other : code.text ≠ a.dedupeKey := fun same => by
      rw [(key_iff single a).mp same.symm] at wrong
      subst wrong
      cases single
    rw [Finset.mem_insert, or_iff_right other, known]
    rfl
  | lost =>
    rw [known, heard_concat]
    simp
  | switched same =>
    obtain ⟨d, there, same⟩ := same
    have other : a.code ≠ code := fun equal => by
      rw [dead d there, equal] at same
      subst same
      cases single
    rw [heard_concat]
    simp [known, other]
  | heard =>
    rw [heard_concat, Finset.mem_insert, known, eq_comm, key_iff single a, or_comm, or_assoc]
    simp

end

theorem fold_invariant {P : MonitorState × List Attempt → Prop} (l : List Anomaly)
    {w : MonitorState × List Attempt}
    (keeps : ∀ w w', ∀ a ∈ l, Dispatched deadMan now w a w' → P w → P w') (base : P w) :
    P (l.foldl (dispatchOne deadMan deliver now) w) := by
  induction l generalizing w with
  | nil => exact base
  | cons a l ih =>
    exact ih (fun w w' a inside => keeps w w' a (List.mem_cons_of_mem _ inside))
      (keeps w _ a List.mem_cons_self (dispatched w a) base)

theorem fold_sends (plain : code ≠ .wrongGameAnchor) (l : List Anomaly)
    (w : MonitorState × List Attempt) :
    (∃ s ∈ (l.foldl (dispatchOne deadMan deliver now) w).2, s.anomaly.code = code) ↔
      (∃ s ∈ w.2, s.anomaly.code = code) ∨ ∃ a ∈ l, a.code = code := by
  induction l generalizing w with
  | nil => simp
  | cons a l ih =>
    have done : Dispatched deadMan now w a (dispatchOne deadMan deliver now w a) := dispatched w a
    rw [List.foldl_cons, ih, List.exists_mem_cons_iff, ← or_assoc]
    refine or_congr_left ?_
    generalize dispatchOne deadMan deliver now w a = next at done
    by_cases wrong : a.code = .wrongGameAnchor
    · have other : a.code ≠ code := fun same => plain (same.symm.trans wrong)
      cases done <;> simp [other]
    · obtain ⟨confirmed, sent⟩ := done.sent wrong
      rw [sent]
      simp [or_and_right, exists_or]

/-- What `_dispatch_anomalies` goes over. -/
def toSend (m : MonitorState) (anomalies : List Anomaly) (deadMan : Option Anomaly) :
    List Anomaly :=
  (anomalies.filter fun a => a.dedupeKey ∉ m.activeAnomalies) ++ deadMan.toList

/-- The state in which it starts. -/
def settled (m : MonitorState) (anomalies : List Anomaly) (now : Int) : MonitorState :=
  { m with
    activeAnomalies := m.activeAnomalies.filter fun key => key ∈ anomalies.map Anomaly.dedupeKey
    wrongGameAlerted := pruneWrongGameAlerted m.wrongGameAlerted now }

theorem dispatchAnomalies_eq : dispatchAnomalies m anomalies deadMan deliver now =
    (toSend m anomalies deadMan).foldl (dispatchOne deadMan deliver now)
    (settled m anomalies now, []) := rfl

theorem dispatch_sends (single : code.single = true)
    (dead : ∀ d ∈ deadMan, d.code = .deadMansSwitch) :
    (∃ s ∈ (dispatchAnomalies m anomalies deadMan deliver now).2, s.anomaly.code = code) ↔
      (∃ a ∈ anomalies, a.code = code) ∧ code.text ∉ m.activeAnomalies := by
  have plain : code ≠ .wrongGameAnchor := by
    rintro rfl
    cases single
  rw [dispatchAnomalies_eq, fold_sends plain]
  constructor
  · rintro (⟨s, none, -⟩ | ⟨a, inside, same⟩)
    · cases none
    · obtain due | switch := List.mem_append.mp inside
      · obtain ⟨listed, fresh⟩ := List.mem_filter.mp due
        rw [(key_iff single a).mpr same] at fresh
        exact ⟨⟨a, listed, same⟩, of_decide_eq_true fresh⟩
      · rw [dead a (Option.mem_toList.mp switch)] at same
        subst same
        cases single
  · rintro ⟨⟨a, listed, same⟩, fresh⟩
    refine .inr ⟨a, List.mem_append_left _ (List.mem_filter.mpr ⟨listed, ?_⟩), same⟩
    rw [(key_iff single a).mpr same]
    exact decide_eq_true fresh

theorem dispatch_active (single : code.single = true)
    (dead : ∀ d ∈ deadMan, d.code = .deadMansSwitch) :
    code.text ∈ (dispatchAnomalies m anomalies deadMan deliver now).1.activeAnomalies ↔
      (code.text ∈ m.activeAnomalies ∧ ∃ a ∈ anomalies, a.code = code) ∨
        Heard code (dispatchAnomalies m anomalies deadMan deliver now) := by
  rw [dispatchAnomalies_eq]
  refine fold_invariant _ (fun w w' a _ done known => done.active single dead known) ?_
  have none : ¬ Heard code (settled m anomalies now, []) := by
    rintro ⟨s, none, -⟩
    cases none
  rw [or_iff_left none]
  unfold settled
  rw [Finset.mem_filter, List.mem_map]
  simp only [key_iff single]

theorem dispatch_dead_sends (foreign : ∀ a ∈ anomalies, a.code ≠ .deadMansSwitch)
    (dead : ∀ d ∈ deadMan, d.code = .deadMansSwitch) :
    (∃ s ∈ (dispatchAnomalies m anomalies deadMan deliver now).2,
      s.anomaly.code = .deadMansSwitch) ↔ deadMan.isSome := by
  rw [dispatchAnomalies_eq, fold_sends (by decide)]
  constructor
  · rintro (⟨s, none, -⟩ | ⟨a, inside, same⟩)
    · cases none
    · obtain due | switch := List.mem_append.mp inside
      · exact absurd same (foreign a (List.mem_of_mem_filter due))
      · exact Option.isSome_iff_exists.mpr ⟨a, Option.mem_toList.mp switch⟩
  · intro some_
    obtain ⟨d, there⟩ := Option.isSome_iff_exists.mp some_
    exact .inr ⟨d, List.mem_append_right _ (Option.mem_toList.mpr there), dead d there⟩

theorem dispatch_alerted (foreign : ∀ a ∈ anomalies, a.code ≠ .deadMansSwitch)
    (dead : ∀ d ∈ deadMan, d.code = .deadMansSwitch) :
    (dispatchAnomalies m anomalies deadMan deliver now).1.deadManAlerted = true ↔
      m.deadManAlerted = true ∨ Heard .deadMansSwitch
        (dispatchAnomalies m anomalies deadMan deliver now) := by
  rw [dispatchAnomalies_eq]
  have none : ¬ Heard .deadMansSwitch (settled m anomalies now, []) := by
    rintro ⟨s, none, -⟩
    cases none
  refine fold_invariant (P := fun w => w.1.deadManAlerted = true ↔
    m.deadManAlerted = true ∨ Heard .deadMansSwitch w) _
    (fun w w' a inside done known => ?_) (or_iff_left none).symm
  cases done with
  | suppressed => exact known
  | lost =>
    rw [known, heard_concat]
    simp
  | switched same =>
    obtain ⟨d, there, same⟩ := same
    rw [heard_concat]
    simp [same, dead d there]
  | heard apart =>
    have other : a.code ≠ .deadMansSwitch := fun same => by
      obtain due | switch := List.mem_append.mp inside
      · exact foreign a (List.mem_of_mem_filter due) same
      · exact apart a (Option.mem_toList.mp switch) rfl
    rw [heard_concat]
    simp [known, other]

/-! One cycle. -/

theorem watches_code {s : Attempt} (inside : s ∈ (watches m c).2) :
    s.anomaly.code = .proxyHeadroom ∨ s.anomaly.code = .listingRecovered := by
  simp only [watches, List.mem_append, Option.mem_toList, Option.map_eq_some_iff] at inside
  obtain ⟨a, warned, rfl⟩ | ⟨a, noticed, rfl⟩ := inside
  · obtain ⟨⟨healthy, floor⟩, -, warned⟩ := Option.bind_eq_some_iff.mp warned
    unfold evaluateProxyHeadroom at warned
    split at warned
    · cases warned
    · split at warned <;> cases warned
      exact .inl rfl
  · unfold evaluateListingRecovery at noticed
    split at noticed
    · cases noticed
    · split at noticed
      · cases noticed
      · split at noticed <;> cases noticed
        exact .inr rfl

/-- The dead man's alert of the cycle. -/
def deadManOf (m : MonitorState) (c : AuditCycle) (r : Readings) : Option Anomaly :=
  (evaluateDeadMansSwitch r.freshOdds m.emptyOddsStreak c.deadMansK m.deadManAlerted).2.2

/-- The state in which the dispatches of the cycle start. -/
def countedState (m : MonitorState) (c : AuditCycle) (r : Readings) : MonitorState :=
  let switch := evaluateDeadMansSwitch r.freshOdds m.emptyOddsStreak c.deadMansK m.deadManAlerted
  { (watches m c).1 with
    emptyOddsStreak :=
      switch.1, deadManAlerted := if switch.2.2.isNone then switch.2.1 else m.deadManAlerted }

theorem job_none (raised : c.readings = none) : selfAuditJob m c = watches m c := by
  unfold selfAuditJob
  rw [raised]

theorem job_some {r : Readings} (read : c.readings = some r) : selfAuditJob m c =
    ((dispatchAnomalies (countedState m c r) (runSelfAudit c.now c.pinnacleSilenceWindow r).1
      (deadManOf m c r) c.deliver c.now).1, (watches m c).2 ++
        (dispatchAnomalies (countedState m c r) (runSelfAudit c.now c.pinnacleSilenceWindow r).1
          (deadManOf m c r) c.deliver c.now).2) := by
  unfold selfAuditJob
  rw [read]
  rfl

theorem deadManOf_code {r : Readings} : ∀ d ∈ deadManOf m c r, d.code = .deadMansSwitch := by
  intro d there
  simp only [deadManOf, evaluateDeadMansSwitch, Option.mem_def] at there
  split at there
  · cases there
  · split at there <;> cases there
    rfl

theorem deadManOf_isSome {r : Readings} : (deadManOf m c r).isSome ↔
    r.freshOdds = 0 ∧ c.deadMansK ≤ m.emptyOddsStreak + 1 ∧ m.deadManAlerted = false := by
  unfold deadManOf evaluateDeadMansSwitch
  split
  · rename_i fresh
    exact iff_of_false Bool.false_ne_true fun both => fresh.ne' both.1
  · rename_i empty
    rw [and_iff_right (Nat.eq_zero_of_not_pos empty)]
    dsimp only
    split
    · rename_i fires
      exact iff_of_true rfl fires
    · rename_i quiet
      exact iff_of_false Bool.false_ne_true quiet

theorem counted_alerted {r : Readings} : (countedState m c r).deadManAlerted = true ↔
    m.deadManAlerted = true ∧ r.freshOdds = 0 := by
  unfold countedState evaluateDeadMansSwitch
  dsimp only
  split
  · rename_i fresh
    simp [fresh.ne']
  · rename_i empty
    rw [and_iff_left (Nat.eq_zero_of_not_pos empty)]
    split <;> rfl

theorem foreign_codes {window : Option Int} {r : Readings} :
    ∀ a ∈ (runSelfAudit now window r).1, a.code ≠ .deadMansSwitch := by
  intro a inside same
  obtain single | wrong := runSelfAudit_code inside
  · rw [same] at single
    cases single
  · rw [same] at wrong
    cases wrong

/-- The dispatches of the audit in the cycle. -/
def audited (m : MonitorState) (c : AuditCycle) (r : Readings) : MonitorState × List Attempt :=
  dispatchAnomalies (countedState m c r) (runSelfAudit c.now c.pinnacleSilenceWindow r).1
    (deadManOf m c r) c.deliver c.now

theorem exists_sent {P : Attempt → Prop} {r : Readings} (read : c.readings = some r)
    (own : ∀ s, P s → s.anomaly.code ≠ .proxyHeadroom ∧
      s.anomaly.code ≠ .listingRecovered) :
    (∃ s ∈ (selfAuditJob m c).2, P s) ↔ ∃ s ∈ (audited m c r).2, P s := by
  rw [job_some read]
  constructor
  · rintro ⟨s, inside, holds⟩
    obtain notice | sent := List.mem_append.mp inside
    · obtain headroom | recovered := watches_code notice
      · exact absurd headroom (own s holds).1
      · exact absurd recovered (own s holds).2
    · exact ⟨s, sent, holds⟩
  · rintro ⟨s, sent, holds⟩
    exact ⟨s, List.mem_append_right _ sent, holds⟩

theorem not_sent {P : Attempt → Prop} (raised : c.readings = none)
    (own : ∀ s, P s → s.anomaly.code ≠ .proxyHeadroom ∧
      s.anomaly.code ≠ .listingRecovered) :
    ¬ ∃ s ∈ (selfAuditJob m c).2, P s := by
  rw [job_none raised]
  rintro ⟨s, notice, holds⟩
  obtain headroom | recovered := watches_code notice
  · exact (own s holds).1 headroom
  · exact (own s holds).2 recovered

theorem own_of_single (single : code.single = true) :
    code ≠ .proxyHeadroom ∧ code ≠ .listingRecovered := by
  constructor <;> (rintro rfl; cases single)

theorem sends_iff (single : code.single = true) :
    Sends code m c ↔ Reports code c ∧ code.text ∉ m.activeAnomalies := by
  have own (s : Attempt) (same : s.anomaly.code = code) := same ▸ own_of_single single
  unfold Sends Reports
  cases read : c.readings with
  | none =>
    refine iff_of_false (not_sent read own) ?_
    rintro ⟨⟨r, none, -⟩, -⟩
    cases none
  | some r =>
    rw [exists_sent read own, audited, dispatch_sends single deadManOf_code]
    simp [countedState, watches]

theorem active_iff (single : code.single = true) : code.text ∈ (nextState m c).activeAnomalies ↔
    Delivers code m c ∨
      (code.text ∈ m.activeAnomalies ∧ (c.readings = none ∨ Reports code c)) := by
  have own (s : Attempt) (both : s.anomaly.code = code ∧ s.confirmed = true) :=
    both.1 ▸ own_of_single single
  unfold Delivers Reports nextState
  cases read : c.readings with
  | none =>
    rw [or_iff_right (not_sent read own), job_none read]
    simp [watches]
  | some r =>
    rw [exists_sent read own, job_some read]
    dsimp only
    rw [dispatch_active single deadManOf_code, or_comm]
    simp [countedState, watches, Heard, audited]

theorem dead_sends_iff : Sends .deadMansSwitch m c ↔ ∃ r ∈ c.readings,
    r.freshOdds = 0 ∧ c.deadMansK ≤ m.emptyOddsStreak + 1 ∧ m.deadManAlerted = false := by
  have own (s : Attempt) (same : s.anomaly.code = .deadMansSwitch) :
      s.anomaly.code ≠ .proxyHeadroom ∧ s.anomaly.code ≠ .listingRecovered := by
    rw [same]
    decide
  unfold Sends
  cases read : c.readings with
  | none =>
    refine iff_of_false (not_sent read own) ?_
    rintro ⟨r, none, -⟩
    cases none
  | some r =>
    rw [exists_sent read own, audited, dispatch_dead_sends foreign_codes deadManOf_code,
      deadManOf_isSome]
    simp

theorem dead_alerted_iff : (nextState m c).deadManAlerted = true ↔
    Delivers .deadMansSwitch m c ∨
      (m.deadManAlerted = true ∧ ∀ r ∈ c.readings, r.freshOdds = 0) := by
  have own (s : Attempt) (both : s.anomaly.code = .deadMansSwitch ∧ s.confirmed = true) :
      s.anomaly.code ≠ .proxyHeadroom ∧ s.anomaly.code ≠ .listingRecovered := by
    rw [both.1]
    decide
  unfold Delivers nextState
  cases read : c.readings with
  | none =>
    rw [or_iff_right (not_sent read own), job_none read]
    simp [watches]
  | some r =>
    rw [exists_sent read own, job_some read]
    dsimp only
    rw [dispatch_alerted foreign_codes deadManOf_code, counted_alerted, or_comm]
    simp [Heard, audited]

/-! All cycles. -/

/-- The monitor after the cycles of a process. -/
def monitor (cycles : List AuditCycle) : MonitorState := run nextState {} cycles

/-- An alert for each outage: an audit's finding is alerted of exactly when it has not been
delivered since it was last absent. Audits that raise do not count. -/
theorem alert_per_outage (single : code.single = true) (before : List AuditCycle) (c : AuditCycle) :
    Sends code (monitor before) c ↔ Reports code c ∧
      ¬ ∃ early d late, before = early ++ d :: late ∧ Delivers code (monitor early) d ∧
        ∀ e ∈ late, e.readings = none ∨ Reports code e := by
  have latched := @latched_iff _ _ nextState
    (fun m => code.text ∈ m.activeAnomalies) (Delivers code)
    (fun e => e.readings = none ∨ Reports code e) {}
      (fun m c => active_iff single) (Finset.notMem_empty _) before
  rw [sends_iff single]
  exact and_congr_right fun _ => not_congr latched

/-- An audit that finds no odds at all. -/
def outage : AuditCycle where
  now := hours 4
  readings := some { newestOdds := none, freshOdds := 0 }
  deliver _ _ := .bare

theorem alert_per_outage_outage :
    Sends .staleOdds (monitor []) outage ∧ ¬ Sends .staleOdds (monitor [outage]) outage := by
  have reports : Reports .staleOdds outage := by
    unfold Reports
    decide +kernel
  have delivers : Delivers .staleOdds (monitor []) outage := by
    unfold Delivers
    decide +kernel
  constructor
  · refine (alert_per_outage rfl [] outage).mpr ⟨reports, ?_⟩
    rintro ⟨early, d, late, same, -⟩
    exact List.append_ne_nil_of_right_ne_nil early (List.cons_ne_nil d late) same.symm
  · intro sends
    refine ((alert_per_outage rfl [outage] outage).mp sends).2
      ⟨[], outage, [], rfl, delivers, ?_⟩
    intro e none
    cases none

/-! The dead man's switch. -/

/-- How many audits in a row, up to the last one that did not raise, have found no fresh odds. -/
def emptyRun (cycles : List AuditCycle) : Nat :=
  ((cycles.filterMap AuditCycle.readings).reverse.takeWhile fun r => r.freshOdds = 0).length

theorem streak_next : (nextState m c).emptyOddsStreak =
    c.readings.elim m.emptyOddsStreak fun r => if r.freshOdds = 0 then m.emptyOddsStreak + 1
      else 0 := by
  unfold nextState
  cases read : c.readings with
  | none =>
    rw [job_none read]
    rfl
  | some r =>
    rw [job_some read, dispatchAnomalies_eq]
    have kept : (countedState m c r).emptyOddsStreak = if r.freshOdds = 0 then m.emptyOddsStreak + 1
        else 0 := by
      unfold countedState evaluateDeadMansSwitch
      dsimp only
      split
      · rename_i fresh
        rw [if_neg fresh.ne']
      · rename_i empty
        rw [if_pos (Nat.eq_zero_of_not_pos empty)]
        split <;> rfl
    refine fold_invariant (P := fun w => w.1.emptyOddsStreak = if r.freshOdds = 0 then
      m.emptyOddsStreak + 1 else 0) _ (fun w w' a _ done same => ?_) kept
    cases done <;> exact same

theorem streak_eq (before : List AuditCycle) :
    (monitor before).emptyOddsStreak = emptyRun before := by
  induction before using List.reverseRecOn with
  | nil => rfl
  | append_singleton before last ih =>
    unfold monitor at ih ⊢
    rw [run_append, run_cons, run_nil, streak_next, ih]
    unfold emptyRun
    rw [List.filterMap_append]
    cases read : last.readings with
    | none => simp [read]
    | some r =>
      have ends : [last].filterMap AuditCycle.readings = [r] := List.filterMap_cons_some read
      rw [ends, List.reverse_append, List.reverse_singleton, List.singleton_append]
      by_cases empty : r.freshOdds = 0 <;> simp [empty]

/-- The dead man's switch fires in an audit exactly when it and the audits before it were empty
often enough in a row, and the switch has not been delivered since odds last came in. Audits that
raise do not count. -/
theorem dead_mans_switch (before : List AuditCycle) (c : AuditCycle) :
    Sends .deadMansSwitch (monitor before) c ↔ ∃ r ∈ c.readings, r.freshOdds = 0 ∧
      c.deadMansK ≤ emptyRun before + 1 ∧
      ¬ ∃ early d late, before = early ++ d :: late ∧ Delivers .deadMansSwitch
        (monitor early) d ∧ ∀ e ∈ late, ∀ r ∈ e.readings, r.freshOdds = 0 := by
  have latched := @latched_iff _ _ nextState
    (fun m => m.deadManAlerted = true) (Delivers .deadMansSwitch) (fun e => ∀ r ∈ e.readings,
      r.freshOdds = 0) {} (fun m c => dead_alerted_iff) Bool.false_ne_true before
  have quiet : (monitor before).deadManAlerted = false ↔
      ¬ ∃ early d late, before = early ++ d :: late ∧
      Delivers .deadMansSwitch (monitor early) d ∧ ∀ e ∈ late, ∀ r ∈ e.readings,
        r.freshOdds = 0 := by
    rw [← Bool.not_eq_true]
    exact not_congr latched
  rw [dead_sends_iff, streak_eq, quiet]

end SharpEvPicks.Maintenance.SelfAudit
