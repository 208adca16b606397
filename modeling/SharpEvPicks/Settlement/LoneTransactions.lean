import SharpEvPicks.Settlement.InstrumentLocks
import SharpEvPicks.Settlement.SportFence

/-! A transaction that nobody interleaves does what the functions of a cycle do on the tables. -/
namespace SharpEvPicks.Settlement

open Python Resolution Transition

variable [Unicode]

def Store.after (store : Store) (writes : List Write) : Store := writes.foldl Write.apply store

namespace Store
variable {s : Store}

omit [Unicode] in
theorem insertResult_fresh {row : ResultTracking} (fresh : s.hasResult row.pickId = false) :
    s.insertResult row = ({ s with results := s.results ++ [row] }, true) := by
  rw [insertResult, if_neg (by rw [← hasResult, fresh]; exact Bool.false_ne_true)]

omit [Unicode] in
theorem insertResult_taken {row : ResultTracking} (taken : s.hasResult row.pickId = true) :
    s.insertResult row = (s, false) := if_pos taken

theorem voidPick_eq (pick : Pick) (note : Option Note) (now : Int) :
    s.voidPick pick note now = s.after (s.resultWrites (s.voidResult pick note now) []) := by
  have own : (s.voidResult pick note now).pickId = pick.id := rfl
  have same : s.voidPick pick note now =
      if (s.insertResult (s.voidResult pick note now)).2 then
        (s.insertResult (s.voidResult pick note now)).1.setStatus pick.id .settled
      else s := rfl
  rw [same, resultWrites, own]
  by_cases has : s.hasResult pick.id = true
  · rw [insertResult_taken has, if_pos has]
    rfl
  · rw [if_neg has, insertResult_fresh (Bool.eq_false_iff.mpr has), if_pos rfl, after,
      List.foldl_cons, Write.apply, insertResult_fresh (Bool.eq_false_iff.mpr has)]
    rfl

theorem settleOne_eq (pick : Pick) (event : EventRow) (homeScore awayScore now : Int)
    (completion : Completion) (winnerSide : Option WinnerSide) :
    s.settleOne pick event.homeName event.awayName homeScore awayScore now completion winnerSide
        event.sportKey =
      (s.after (s.gradedWrites pick event homeScore awayScore now completion winnerSide []),
        !(s.gradedWrites pick event homeScore awayScore now completion winnerSide []).isEmpty) := by
  unfold settleOne gradedWrites gradedResult
  by_cases line : tennisGameLine pick event.sportKey completion homeScore awayScore = true
  · rw [if_pos line, if_pos line]
    rfl
  · rw [if_neg line, if_neg line]
    cases gradeOutcome pick event.homeName event.awayName homeScore awayScore completion winnerSide
      event.sportKey with
    | error refusal => rfl
    | ok outcome =>
      dsimp only
      by_cases has : s.hasResult pick.id = true
      · rw [resultWrites, if_pos has, insertResult_taken has]
        rfl
      · have fresh := Bool.eq_false_iff.mpr has
        rw [resultWrites, if_neg has, insertResult_fresh fresh]
        by_cases unplayed : completion = .void
        · simp only [unplayed, if_true, Bool.not_true, Bool.false_eq_true, if_false, after,
            List.foldl_cons,
            List.append_nil, List.foldl_nil, Write.apply, List.isEmpty_cons, Bool.not_false]
          rw [insertResult_fresh fresh]
        · simp only [unplayed, Bool.not_true, Bool.false_eq_true, if_false, after, List.foldl_cons,
            List.append_nil, List.foldl_nil, Write.apply, List.isEmpty_cons, Bool.not_false]
          rw [insertResult_fresh fresh]

/-- What a graded pick writes besides comes last. -/
theorem gradedWrites_append (pick : Pick) (event : EventRow) (homeScore awayScore now : Int)
    (completion : Completion) (winnerSide : Option WinnerSide) (others : List Write) :
    s.gradedWrites pick event homeScore awayScore now completion winnerSide others =
      s.gradedWrites pick event homeScore awayScore now completion winnerSide [] ++
        if (s.gradedWrites pick event homeScore awayScore now completion winnerSide []).isEmpty then
          []
        else others := by
  unfold gradedWrites
  cases s.gradedResult pick event homeScore awayScore now completion winnerSide with
  | none => rfl
  | some row =>
    simp only [resultWrites]
    split
    · rfl
    · simp

theorem supersede_sibling {task : Task} {startsAt : Int}
    (starts : task.event.startsAt = some startsAt) (sibling : task.settledSibling s = true) :
    s.supersedeIfSettledSibling task.pick task.event startsAt =
      (s.setStatus task.pick.id .superseded, true) := by
  unfold supersedeIfSettledSibling
  unfold Task.settledSibling at sibling
  rw [starts] at sibling
  cases pair : fixturePairKey task.event.homeName task.event.awayName with
  | none =>
    rw [pair] at sibling
    cases sibling
  | some key =>
    rw [pair] at sibling
    exact if_pos sibling

theorem supersede_alone {task : Task} {startsAt : Int}
    (starts : task.event.startsAt = some startsAt) (alone : ¬ task.settledSibling s = true) :
    s.supersedeIfSettledSibling task.pick task.event startsAt = (s, false) := by
  unfold supersedeIfSettledSibling
  unfold Task.settledSibling at alone
  rw [starts] at alone
  cases pair : fixturePairKey task.event.homeName task.event.awayName with
  | none => rfl
  | some key =>
    rw [pair] at alone
    exact if_neg alone

end Store

section Alone
variable (hash : Instrument → Int) {s : Store}

theorem settledSibling_locked {task : Task} (sibling : task.settledSibling s = true) :
    task.event.startsAt.isSome ∧ ((protocol hash).lock task).isSome := by
  rw [protocol_lock]
  unfold Task.settledSibling at sibling
  unfold Task.lock
  cases pair : fixturePairKey task.event.homeName task.event.awayName with
  | none =>
    rw [pair] at sibling
    cases sibling
  | some key =>
    rw [pair] at sibling
    cases starts : task.event.startsAt with
    | none =>
      rw [starts] at sibling
      cases sibling
    | some startsAt => exact ⟨rfl, rfl⟩

theorem perform_sibling {task : Task} (sibling : task.settledSibling s = true) :
    (protocol hash).perform s task = s.setStatus task.pick.id .superseded :=
  Sessions.Protocol.perform_rival (settledSibling_locked hash sibling).2 (by
    rw [protocol_rival]; exact sibling)

theorem perform_alone {task : Task} (alone : ¬ task.settledSibling s = true) :
    (protocol hash).perform s task = s.after (task.writes s) :=
  Sessions.Protocol.perform_clear (by rw [protocol_rival]; exact Bool.eq_false_iff.mpr alone)

theorem voidOrSupersede_eq (now : Int) (s : Store) {pick : Pick} {event : EventRow} {startsAt : Int}
    (starts : event.startsAt = some startsAt) :
    Store.voidOrSupersede now s (pick, event, startsAt) =
      (protocol hash).perform s ⟨pick, event, .void (some .expiredNoResultSource) now⟩ := by
  by_cases sibling :
    Task.settledSibling s ⟨pick, event, .void (some .expiredNoResultSource) now⟩ = true
  · have supersedes := Store.supersede_sibling starts sibling
    dsimp only at supersedes
    rw [perform_sibling hash sibling, Store.voidOrSupersede, supersedes]
    rfl
  · have passes := Store.supersede_alone starts sibling
    dsimp only at passes
    rw [perform_alone hash sibling, Store.voidOrSupersede, passes]
    exact Store.voidPick_eq pick _ now

theorem settleGradeable_eq (now : Int) (state : Store × Nat) {c : Store.Candidate}
    (starts : c.event.startsAt = some c.startsAt) (scored : c.score.isSome) :
    (Store.settleGradeable now state c).1 = (protocol hash).perform state.1
    (Task.ofCandidate now c) := by
  obtain ⟨score, found⟩ := Option.isSome_iff_exists.mp scored
  unfold Store.settleGradeable
  rw [found]
  by_cases sibling : (Task.ofCandidate now c).settledSibling state.1 = true
  · have supersedes := Store.supersede_sibling starts sibling
    simp only [Task.ofCandidate] at supersedes
    rw [perform_sibling hash sibling]
    simp only [supersedes, if_true]
    rfl
  · have passes := Store.supersede_alone starts sibling
    have writes : (Task.ofCandidate now c).writes state.1 =
        state.1.gradedWrites c.pick c.event score.homeScore
        score.awayScore now score.completion score.winnerSide
          [.grading ⟨c.pick.id, c.event.sportKey, score⟩] := by
      simp only [Task.writes, Task.ofCandidate, found]
    simp only [Task.ofCandidate] at passes
    rw [perform_alone hash sibling, writes, Store.gradedWrites_append, Store.after,
      List.foldl_append]
    simp only [passes, Bool.false_eq_true, if_false, Store.settleOne_eq]
    by_cases refused : (state.1.gradedWrites c.pick c.event score.homeScore score.awayScore now
        score.completion score.winnerSide []).isEmpty = true
    · simp only [refused, Bool.not_true, Bool.false_eq_true, if_false, if_true]
      rfl
    · simp only [refused, Bool.not_false, Bool.false_eq_true, if_false, if_true]
      rfl

theorem supersedeDeferred_eq (s : Store) {c : Store.Candidate}
    (starts : c.event.startsAt = some c.startsAt) :
    (s.supersedeIfSettledSibling c.pick c.event c.startsAt).1 =
      (protocol hash).perform s (Task.deferred c) := by
  by_cases sibling : (Task.deferred c).settledSibling s = true
  · have supersedes := Store.supersede_sibling starts sibling
    simp only [Task.deferred] at supersedes
    rw [perform_sibling hash sibling, supersedes]
    rfl
  · have passes := Store.supersede_alone starts sibling
    simp only [Task.deferred] at passes
    rw [perform_alone hash sibling, passes]
    rfl

theorem settleByHand_eq (homeScore awayScore now : Int) (state : Store × Nat × Nat) (pick : Pick)
    (event : EventRow) :
    (Store.settleByHand homeScore awayScore now state (pick, event)).1 =
      (protocol hash).perform state.1 ⟨pick, event, .byHand homeScore awayScore now⟩ := by
  have settles (settled skipped : Nat) (done : Bool) (t : Store) :
      (if done then (t, settled + 1, skipped) else (t, settled, skipped + 1)).1 = t := by
    cases done <;> rfl
  unfold Store.settleByHand
  by_cases sibling :
    Task.settledSibling state.1 ⟨pick, event, .byHand homeScore awayScore now⟩ = true
  · obtain ⟨startsAt, starts⟩ :=
      Option.isSome_iff_exists.mp (settledSibling_locked hash sibling).1
    have supersedes := Store.supersede_sibling starts sibling
    dsimp only at starts supersedes
    rw [perform_sibling hash sibling]
    simp only [starts, supersedes, if_true]
  · rw [perform_alone hash sibling]
    cases starts : event.startsAt with
    | none =>
      simp only [starts, Bool.false_eq_true, if_false, Store.settleOne_eq, settles]
      rfl
    | some startsAt =>
      have passes := Store.supersede_alone starts sibling
      dsimp only at passes
      simp only [starts, passes, Bool.false_eq_true, if_false, Store.settleOne_eq, settles]
      rfl

theorem voidPick_perform (s : Store) {pick : Pick} {event : EventRow} (note : Option Note)
    (now : Int) (unknown : event.startsAt = none) :
    s.voidPick pick note now = (protocol hash).perform s ⟨pick, event, .void note now⟩ := by
  have alone : ¬ Task.settledSibling s ⟨pick, event, .void note now⟩ = true := by
    intro sibling
    have known := (settledSibling_locked hash sibling).1
    rw [unknown] at known
    cases known
  rw [perform_alone hash alone]
  exact Store.voidPick_eq pick note now

/-! Whole calls. -/

/-- What a call does outside of a transaction. -/
def Call.apply (s : Store) : Call → Store
  | .settleOpenPicks book now delay => (s.settleOpenPicks book now delay).1
  | .settleEventPicks eventId homeScore awayScore now =>
    (s.settleEventPicks eventId homeScore awayScore now).1
  | .voidStaleNullKickoffPicks now => s.voidStaleNullKickoffPicks now
  | .voidUnsettleableKnownKickoffPicks now => s.voidUnsettleableKnownKickoffPicks now
  | .reportAndExpireNoResultPicks book now expireAfter =>
    s.reportAndExpireNoResultPicks book now expireAfter

/-- An agenda of tasks does what a loop over the rows does. -/
theorem foldl_performItem {α σ : Type} (task : α → Task) (step : σ → α → σ)
    (tables : σ → Store) {rows : List α} (state : σ)
    (same : ∀ state, ∀ row ∈ rows,
      tables (step state row) = (protocol hash).perform (tables state) (task row)) :
    (rows.map fun row => .inl (task row)).foldl (protocol hash).performItem (tables state) =
      tables (rows.foldl step state) := by
  induction rows generalizing state with
  | nil => rfl
  | cons row rows ih =>
    obtain ⟨first, rest⟩ :=
      List.forall_mem_cons.mp (fun row inside state => same state row inside)
    rw [List.map_cons, List.foldl_cons,
      List.foldl_cons, ← ih (step state row) fun state row inside => rest row inside state,
      first state]
    rfl

theorem starts_candidate {book : ScoreBook Str} {now delay : Int} {c : Store.Candidate}
    (read : c ∈ s.candidates book now delay) : c.event.startsAt = some c.startsAt := by
  obtain ⟨⟨pick, event, startsAt⟩, isDue, rfl⟩ := List.mem_map.mp read
  exact (Store.mem_due.mp isDue).2.2.2.1

theorem foldl_deferred (possible : List Nat) {deferred : List Store.Candidate}
    (known : ∀ c ∈ deferred, c.event.startsAt = some c.startsAt) (s : Store) :
    deferred.foldl (Store.supersedeDeferred possible) s =
      ((deferred.filter fun c => c.pick.id ∈ possible).map Task.deferred).foldl
      (protocol hash).perform s := by
  induction deferred generalizing s with
  | nil => rfl
  | cons c deferred ih =>
    obtain ⟨first, rest⟩ := List.forall_mem_cons.mp known
    rw [List.foldl_cons, ih rest, Store.supersedeDeferred, List.filter_cons]
    by_cases hit : c.pick.id ∈ possible
    · rw [if_pos hit, if_pos (decide_eq_true hit), List.map_cons, List.foldl_cons,
        supersedeDeferred_eq hash s first]
    · rw [if_neg hit, if_neg (by rw [decide_eq_false hit]; exact Bool.false_ne_true)]

theorem settleOpenPicks_perform (s : Store) (book : ScoreBook Str) (now delay : Int) :
    (Task.ofCall s (.settleOpenPicks book now delay)).foldl (protocol hash).performItem s =
      (s.settleOpenPicks book now delay).1 := by
  unfold Store.settleOpenPicks Task.ofCall
  by_cases empty : book.count = 0
  · simp only [if_pos empty, List.foldl_nil]
  · simp only [if_neg empty]
    generalize candidates : s.candidates book now delay = all
    have known : ∀ c ∈ all, c.event.startsAt = some c.startsAt := fun c read =>
      starts_candidate (candidates ▸ read)
    have graded : ∀ state, ∀ c ∈ all.filter fun c =>
      c.score.isSome && !c.tennisGameLineSetScore, (Store.settleGradeable now state c).1 =
          (protocol hash).perform state.1 (Task.ofCandidate now c) := by
      intro state c chosen
      obtain ⟨read, gradeable⟩ := List.mem_filter.mp chosen
      exact settleGradeable_eq hash now state (known c read) (Bool.and_eq_true_iff.mp gradeable).1
    rw [List.foldl_append,
      foldl_performItem hash (Task.ofCandidate now) (Store.settleGradeable now) Prod.fst
      (s, 0) graded, List.foldl_cons, List.foldl_nil]
    exact (foldl_deferred hash _ (fun c chosen => known c (List.mem_filter.mp chosen).1) _).symm

theorem ofCall_perform (s : Store) (call : Call) :
    (Task.ofCall s call).foldl (protocol hash).performItem s = call.apply s := by
  cases call with
  | settleOpenPicks book now delay => exact settleOpenPicks_perform hash s book now delay
  | settleEventPicks eventId homeScore awayScore now =>
    exact foldl_performItem hash _ _ Prod.fst (s, 0, 0) fun state row _ =>
      settleByHand_eq hash homeScore awayScore now state row.1 row.2
  | voidStaleNullKickoffPicks now =>
    refine foldl_performItem hash _ _ id s fun state row chosen => ?_
    have unknown := (Bool.and_eq_true_iff.mp (List.mem_filter.mp chosen).2).1
    exact voidPick_perform hash state none now (Option.isNone_iff_eq_none.mp unknown)
  | voidUnsettleableKnownKickoffPicks now =>
    refine foldl_performItem hash _ _ id s fun state row chosen => ?_
    obtain ⟨⟨pick, event⟩, read, kept⟩ := List.mem_filterMap.mp chosen
    obtain ⟨startsAt, starts, kept⟩ := Option.bind_eq_some_iff.mp kept
    split at kept
    · cases kept
      exact voidOrSupersede_eq hash now state starts
    · cases kept
  | reportAndExpireNoResultPicks book now expireAfter =>
    simp only [Task.ofCall, Call.apply, Store.reportAndExpireNoResultPicks]
    split
    · rfl
    · cases expireAfter with
      | none => rfl
      | some age =>
        refine foldl_performItem hash _ _ id s fun state row chosen => ?_
        obtain ⟨pick, event, startsAt⟩ := row
        have starts := (Store.mem_due.mp (List.mem_filter.mp chosen).1).2.2.2.1
        exact voidOrSupersede_eq hash now state starts

/-- A transaction of one call that nobody interleaves commits what the call does. -/
theorem lone_call (session : Nat) (s : Store) (call : Call) :
    ∃ n, (run (Sessions.step (protocol hash)) { committed := s }
      (.call session call ::
        (List.replicate n (.statement session) ++ [.commit session]))).committed =
        call.apply s := by
  obtain ⟨n, done⟩ := Sessions.run_alone (protocol hash) session s call
  refine ⟨n, done.trans ?_⟩
  exact ofCall_perform hash s call

end Alone
end SharpEvPicks.Settlement
