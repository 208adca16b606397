import SharpEvPicks.Notifications.Dispatcher

/-! What holds of the deliveries of a sink in every interleaving of dispatches. -/
namespace SharpEvPicks.Notifications

open Python Transition

/-- The sink whose claim a dispatch owns. -/
def Phase.holding {n : Nat} : Phase n → Option (Fin n)
  | .claimed index won _ => if won then some index else none
  | .sending index => some index
  | .releasing index _ => some index
  | _ => none

/-- How many sinks a dispatch is done with, as long as it is not cancelled. -/
def Phase.tried {n : Nat} : Phase n → Option Nat
  | .claiming index _ => some index
  | .claimed index _ _ => some index
  | .sending index => some index
  | .releasing index cut => if cut then none else some (index + 1)
  | .released index cut => if cut then none else some (index + 1)
  | .returned _ => some n
  | .cancelled => none

def Phase.inFlight {n : Nat} : Phase n → Bool
  | .returned _ => false
  | .cancelled => false
  | _ => true

variable {sinks : List Sink} {seen : Finset Str} {job job' : Job sinks} {i : Fin sinks.length}

def Job.holding (job : Job sinks) : Option (Fin sinks.length) := job.phase.holding

theorem Phase.inFlight_of_holding {n : Nat} {phase : Phase n} {i : Fin n}
    (holds : phase.holding = some i) : phase.inFlight := by
  cases phase <;> first | rfl | cases holds

/-! What one turn of a dispatch does, as far as its claim goes. -/

inductive Turned (seen : Finset Str) (job : Job sinks) : Effect sinks → Prop where
  | idle {job' : Job sinks} : job'.alert = job.alert → job'.holding = job.holding →
      Turned seen job ⟨seen, job', []⟩
  | took {job' : Job sinks} {i : Fin sinks.length} :
      job'.alert = job.alert → job.holding = none →
      job'.holding = some i → job.key i ∉ seen →
        Turned seen job ⟨insert (job.key i) seen, job', []⟩
  | seeded {job' : Job sinks} {i : Fin sinks.length} :
      job'.alert = job.alert → job.holding = none →
      job'.holding = none → job.alert.dedupeKey ∈ seen →
        Turned seen job ⟨insert (job.key i) seen, job', []⟩
  | invoked {job' : Job sinks} {i : Fin sinks.length} :
      job'.alert = job.alert → job.holding = some i →
      job'.holding = some i → Turned seen job ⟨seen, job', [.invoked job.alert.dedupeKey i]⟩
  | delivered {job' : Job sinks} {i : Fin sinks.length} :
      job'.alert = job.alert → job.holding = some i →
      job'.holding = none → Turned seen job ⟨seen, job', [.delivered job.alert.dedupeKey i]⟩
  | kept {job' : Job sinks} {i : Fin sinks.length} :
      job'.alert = job.alert → job.holding = some i →
      job'.holding = none → (sinks.get i).configured = false →
        Turned seen job ⟨seen, job', []⟩
  | dropped {job' : Job sinks} {i : Fin sinks.length} :
      job'.alert = job.alert → job.holding = some i →
      job'.holding = none → Turned seen job ⟨seen.erase (job.key i), job', []⟩

@[simp] theorem Job.moveTo_alert (job : Job sinks) (phase : Phase sinks.length) :
    (job.moveTo phase).alert = job.alert := rfl

@[simp] theorem Job.moveTo_holding (job : Job sinks) (phase : Phase sinks.length) :
    (job.moveTo phase).holding = phase.holding := rfl

@[simp] theorem Job.record_alert (job : Job sinks) (i : Fin sinks.length) (delivered : Bool) :
    (job.record i delivered).alert = job.alert := rfl

@[simp] theorem Job.proceed_alert (job : Job sinks) (i : Fin sinks.length) :
    (job.proceed i).alert = job.alert := rfl

@[simp] theorem Job.proceed_holding (job : Job sinks) (i : Fin sinks.length) :
    (job.proceed i).holding = none := by
  unfold Job.proceed Job.holding
  simp only
  split <;> rfl

theorem runClaim_turned (seen : Finset Str) (job : Job sinks) :
    Turned seen job (job.runClaim seen) := by
  unfold Job.runClaim
  split
  · rename_i index cancelled claiming
    have free : job.holding = none := congrArg Phase.holding claiming
    unfold claim
    split
    · rename_i legacy
      obtain ⟨_, same, there⟩ := legacy
      cases same
      exact .seeded rfl free rfl there
    · split
      · exact .idle rfl free.symm
      · rename_i absent
        exact .took rfl free rfl absent
  · exact .idle rfl rfl

theorem runRelease_turned (seen : Finset Str) (job : Job sinks) :
    Turned seen job (job.runRelease seen) := by
  unfold Job.runRelease
  split
  · rename_i index cancelled releasing
    exact .dropped rfl (congrArg Phase.holding releasing) rfl
  · exact .idle rfl rfl

theorem resume_turned (seen : Finset Str) (job : Job sinks) :
    Turned seen job (job.resume seen) := by
  unfold Job.resume
  split <;> rename_i standing
  · exact .idle rfl (congrArg Phase.holding standing).symm
  · exact .idle rfl (congrArg Phase.holding standing).symm
  · exact .invoked rfl (congrArg Phase.holding standing) rfl
  · exact .idle rfl ((Job.proceed_holding _ _).trans (congrArg Phase.holding standing).symm)
  · exact .idle rfl (congrArg Phase.holding standing).symm
  · exact .idle rfl ((Job.proceed_holding _ _).trans (congrArg Phase.holding standing).symm)
  · exact .idle rfl rfl

theorem undelivered_turned {index : Fin sinks.length} (sending : job.holding = some index) :
    Turned seen job ⟨seen, job.undelivered index, []⟩ := by
  unfold Job.undelivered
  cases configured : (sinks.get index).configured with
  | true => exact .idle rfl sending.symm
  | false => exact .kept rfl sending (Job.proceed_holding _ _) configured

theorem sendEnds_turned (seen : Finset Str) (job : Job sinks) (outcome : Outcome) :
    Turned seen job (job.sendEnds seen outcome) := by
  unfold Job.sendEnds
  split <;> rename_i sending
  · exact .delivered rfl (congrArg Phase.holding sending) (Job.proceed_holding _ _)
  · exact undelivered_turned (congrArg Phase.holding sending)
  · exact undelivered_turned (congrArg Phase.holding sending)
  · exact .idle rfl (congrArg Phase.holding sending).symm
  · exact .idle rfl rfl

theorem cancel_turned (seen : Finset Str) (job : Job sinks) :
    Turned seen job (job.cancel seen) := by
  unfold Job.cancel
  split
  · rename_i standing
    exact .idle rfl (congrArg Phase.holding standing).symm
  · rename_i standing
    exact .idle rfl (congrArg Phase.holding standing).symm
  · rename_i standing
    exact .idle rfl (congrArg Phase.holding standing).symm
  · rename_i standing
    exact .idle rfl (congrArg Phase.holding standing).symm
  · exact .idle rfl rfl

theorem turned (seen : Finset Str) (job : Job sinks) (turn : Turn) :
    Turned seen job (job.turn seen turn) := by
  cases turn with
  | claim => exact runClaim_turned seen job
  | release => exact runRelease_turned seen job
  | resume => exact resume_turned seen job
  | send outcome => exact sendEnds_turned seen job outcome
  | cancel => exact cancel_turned seen job

/-! The store and the sends. -/

/-- After a delivery the sink is not invoked again under the dedupe key. -/
def NeverAgain (log : List (Event sinks)) : Prop :=
  log.Pairwise fun earlier later => ∀ d i, earlier = .delivered d i → later ≠ .invoked d i

/-- A dispatch that owns the claim with this key. -/
def Job.Owns (job : Job sinks) (key : Str) : Prop := ∃ i, job.holding = some i ∧ job.key i = key

/-- The dispatch at this place owns the claim. -/
def Owner (jobs : List (Job sinks)) (k : Nat) (key : Str) : Prop :=
  ∃ job ∈ jobs[k]?, job.Owns key

structure Sound (s : State sinks) : Prop where
  held : ∀ k key, Owner s.jobs k key → key ∈ s.seen
  alone : ∀ k k' key, Owner s.jobs k key → Owner s.jobs k' key → k = k'
  settled : ∀ d i, .delivered d i ∈ s.log → sinkKey sinks d i ∈ s.seen ∧ ∀ k,
    ¬ Owner s.jobs k (sinkKey sinks d i)
  once : NeverAgain s.log

theorem Job.owns_iff {key : Str} (holds : job.holding = some i) :
    job.Owns key ↔ key = job.key i := by
  constructor
  · rintro ⟨i', holds', rfl⟩
    rw [holds] at holds'
    cases holds'
    rfl
  · rintro rfl
    exact ⟨i, holds, rfl⟩

theorem Job.not_owns {key : Str} (free : job.holding = none) : ¬ job.Owns key := by
  rintro ⟨i, holds, -⟩
  rw [free] at holds
  cases holds

theorem Job.owns_congr {key : Str} (same : job'.alert = job.alert)
    (holds : job'.holding = job.holding) : job'.Owns key ↔ job.Owns key := by
  unfold Job.Owns Job.key
  rw [same, holds]

section
variable {s : State sinks} {k : Nat}

theorem owner_set (found : s.jobs[k]? = some job) (k' : Nat) (key : Str) :
    Owner (s.jobs.set k job') k' key ↔ if k' = k then job'.Owns key else Owner s.jobs k' key := by
  obtain ⟨inside, -⟩ := List.getElem?_eq_some_iff.mp found
  unfold Owner
  rw [List.getElem?_set]
  by_cases here : k' = k
  · simp [here, inside]
  · simp [here, Ne.symm here]

theorem owner_here (found : s.jobs[k]? = some job) {key : Str} :
    Owner s.jobs k key ↔ job.Owns key := by
  simp [Owner, found]

/-- A turn that changes neither who owns a claim nor the store. -/
theorem owner_same (found : s.jobs[k]? = some job) (alert : job'.alert = job.alert)
    (holds : job'.holding = job.holding) (k' : Nat) (key : Str) :
    Owner (s.jobs.set k job') k' key ↔ Owner s.jobs k' key := by
  rw [owner_set found]
  split
  · rename_i here
    rw [here, owner_here found, Job.owns_congr alert holds]
  · rfl

/-- A turn after which the dispatch owns no claim. -/
theorem owner_freed (found : s.jobs[k]? = some job) (free : job'.holding = none) (k' : Nat)
    (key : Str) : Owner (s.jobs.set k job') k' key ↔ k' ≠ k ∧ Owner s.jobs k' key := by
  rw [owner_set found]
  split
  · rename_i here
    exact iff_of_false (Job.not_owns free) fun other => other.1 here
  · rename_i other
    exact ⟨fun owner => ⟨other, owner⟩, And.right⟩

theorem NeverAgain.concat {log : List (Event sinks)} (once : NeverAgain log) {e : Event sinks}
    (fresh : ∀ d i, .delivered d i ∈ log → e ≠ .invoked d i) : NeverAgain (log ++ [e]) := by
  refine List.pairwise_append.mpr ⟨once, List.pairwise_singleton _ _, ?_⟩
  rintro earlier inside later last d i rfl
  rw [List.mem_singleton.mp last]
  exact fresh d i inside

theorem Sound.turn (sound : Sound s) (found : s.jobs[k]? = some job) {e : Effect sinks}
    (turned : Turned s.seen job e) : Sound ⟨e.seen, s.jobs.set k e.job, s.log ++ e.log⟩ := by
  cases turned with
  | idle alert holds =>
    simp only [List.append_nil]
    constructor
    · simpa only [owner_same found alert holds] using sound.held
    · simpa only [owner_same found alert holds] using sound.alone
    · simpa only [owner_same found alert holds] using sound.settled
    · exact sound.once
  | @took job' i alert free holds absent =>
    have owner (k' : Nat) (key : Str) : Owner (s.jobs.set k job') k' key ↔
        if k' = k then key = job.key i else Owner s.jobs k' key := by
      rw [owner_set found, Job.owns_iff holds, Job.key, alert]
      rfl
    simp only [List.append_nil]
    constructor
    · intro k' key owned
      rw [owner] at owned
      split at owned
      · exact owned ▸ Finset.mem_insert_self _ _
      · exact Finset.mem_insert_of_mem (sound.held k' key owned)
    · intro k₁ k₂ key owned owned'
      rw [owner] at owned owned'
      split at owned <;> split at owned'
      · rename_i here here'
        exact here.trans here'.symm
      · exact absurd (sound.held k₂ key owned') (owned ▸ absent)
      · exact absurd (sound.held k₁ key owned) (owned' ▸ absent)
      · exact sound.alone k₁ k₂ key owned owned'
    · intro d i' delivered
      obtain ⟨inside, unowned⟩ := sound.settled d i' delivered
      refine ⟨Finset.mem_insert_of_mem inside, fun k' owned => ?_⟩
      rw [owner] at owned
      split at owned
      · exact absent (owned ▸ inside)
      · exact unowned k' owned
    · exact sound.once
  | seeded alert free free' legacy =>
    have same := owner_same found alert (free'.trans free.symm)
    simp only [List.append_nil]
    constructor
    · intro k' key owned
      exact Finset.mem_insert_of_mem (sound.held k' key ((same k' key).mp owned))
    · simpa only [same] using sound.alone
    · intro d i' delivered
      obtain ⟨inside, unowned⟩ := sound.settled d i' delivered
      exact ⟨Finset.mem_insert_of_mem inside, fun k' owned => unowned k' ((same k' _).mp owned)⟩
    · exact sound.once
  | @invoked job' i alert holds holds' =>
    have same := owner_same found alert (holds'.trans holds.symm)
    constructor
    · simpa only [same] using sound.held
    · simpa only [same] using sound.alone
    · intro d i' delivered
      obtain old | new := List.mem_append.mp delivered
      · simpa only [same] using sound.settled d i' old
      · cases List.mem_singleton.mp new
    · refine sound.once.concat fun d i' delivered again => ?_
      cases again
      exact (sound.settled _ _ delivered).2 k ((owner_here found).mpr ⟨i, holds, rfl⟩)
  | @delivered job' i alert holds free =>
    have freed := owner_freed found free
    have owned : Owner s.jobs k (job.key i) := (owner_here found).mpr ⟨i, holds, rfl⟩
    constructor
    · intro k' key owned'
      exact sound.held k' key ((freed k' key).mp owned').2
    · intro k₁ k₂ key owned₁ owned₂
      exact sound.alone k₁ k₂ key ((freed k₁ key).mp owned₁).2
        ((freed k₂ key).mp owned₂).2
    · intro d i' delivered
      obtain old | new := List.mem_append.mp delivered
      · obtain ⟨inside, unowned⟩ := sound.settled d i' old
        exact ⟨inside, fun k' owned' => unowned k' ((freed k' _).mp owned').2⟩
      · cases List.mem_singleton.mp new
        refine ⟨sound.held k _ owned, fun k' owned' => ?_⟩
        obtain ⟨other, owned'⟩ := (freed k' _).mp owned'
        exact other (sound.alone k' k _ owned' owned)
    · exact sound.once.concat fun d i' _ again => by cases again
  | @kept job' i alert holds free unconfigured =>
    have freed := owner_freed found free
    simp only [List.append_nil]
    constructor
    · intro k' key owned'
      exact sound.held k' key ((freed k' key).mp owned').2
    · intro k₁ k₂ key owned₁ owned₂
      exact sound.alone k₁ k₂ key ((freed k₁ key).mp owned₁).2
        ((freed k₂ key).mp owned₂).2
    · intro d i' delivered
      obtain ⟨inside, unowned⟩ := sound.settled d i' delivered
      exact ⟨inside, fun k' owned' => unowned k' ((freed k' _).mp owned').2⟩
    · exact sound.once
  | @dropped job' i alert holds free =>
    have freed := owner_freed found free
    have owned : Owner s.jobs k (job.key i) := (owner_here found).mpr ⟨i, holds, rfl⟩
    simp only [List.append_nil]
    constructor
    · intro k' key owned'
      obtain ⟨other, owned'⟩ := (freed k' key).mp owned'
      refine Finset.mem_erase.mpr ⟨?_, sound.held k' key owned'⟩
      rintro rfl
      exact other (sound.alone k' k _ owned' owned)
    · intro k₁ k₂ key owned₁ owned₂
      exact sound.alone k₁ k₂ key ((freed k₁ key).mp owned₁).2
        ((freed k₂ key).mp owned₂).2
    · intro d i' delivered
      obtain ⟨inside, unowned⟩ := sound.settled d i' delivered
      refine ⟨Finset.mem_erase.mpr ⟨?_, inside⟩,
        fun k' owned' => unowned k' ((freed k' _).mp owned').2⟩
      intro same
      exact unowned k (same ▸ owned)
    · exact sound.once

theorem owner_dispatch (alert : Alert) (k' : Nat) (key : Str) :
    Owner (s.jobs ++ [dispatch sinks alert]) k' key ↔ Owner s.jobs k' key := by
  have free : (dispatch sinks alert).holding = none := by
    unfold dispatch Job.holding
    simp only
    split <;> rfl
  unfold Owner
  rw [List.getElem?_append]
  split
  · rfl
  · rename_i outside
    rw [List.getElem?_eq_none (not_lt.mp outside), List.getElem?_singleton]
    split
    · simp [Job.not_owns free]
    · simp

theorem act_turn (s : State sinks) (k : Nat) (turn : Turn) :
    act sinks s (.turn k turn) = s ∨ ∃ job, s.jobs[k]? = some job ∧
      act sinks s (.turn k turn) = ⟨(job.turn s.seen turn).seen,
        s.jobs.set k (job.turn s.seen turn).job, s.log ++ (job.turn s.seen turn).log⟩ := by
  cases found : s.jobs[k]? with
  | none => exact .inl (by simp [act, found])
  | some job => exact .inr ⟨job, rfl, by simp [act, found]⟩

theorem sound_act (sound : Sound s) (a : Act) : Sound (act sinks s a) := by
  cases a with
  | dispatch alert =>
    constructor
    · simpa only [act, owner_dispatch] using sound.held
    · simpa only [act, owner_dispatch] using sound.alone
    · simpa only [act, owner_dispatch] using sound.settled
    · exact sound.once
  | turn k turn =>
    obtain still | ⟨job, found, turns⟩ := act_turn s k turn
    · exact still.symm ▸ sound
    · exact turns.symm ▸ sound.turn found (turned s.seen job turn)

theorem sound_run (acts : List Act) : Sound (run (act sinks) {} acts) := by
  refine invariant (fun s a sound => sound_act sound a) ⟨?_, ?_, ?_, List.Pairwise.nil⟩
  · rintro k key ⟨job, none, -⟩
    cases none
  · rintro k k' key ⟨job, none, -⟩
    cases none
  · intro d i none
    cases none

/-! Where the keys in the store come from. -/

/-- The keys of two sinks differ where one of them is configured, and none is the key of an alert.
-/
structure Apart (sinks : List Sink) (keys : Set Str) : Prop where
  own : ∀ d ∈ keys, ∀ d' ∈ keys, ∀ i j, (sinks.get i).configured →
    sinkKey sinks d i = sinkKey sinks d' j → d = d' ∧ i = j
  fresh : (∃ sink ∈ sinks, sink.configured) → ∀ d ∈ keys, ∀ d' ∈ keys, ∀ j,
    d ≠ sinkKey sinks d' j

inductive Origin (keys : Set Str) (s : State sinks) : Str → Prop where
  | owned {k : Nat} {key : Str} : Owner s.jobs k key → Origin keys s key
  | delivered {d : Str}
      {i : Fin sinks.length} : d ∈ keys → .delivered d i ∈ s.log → Origin keys s
      (sinkKey sinks d i)
  | unconfigured {d : Str} {i : Fin sinks.length} : d ∈ keys →
      (sinks.get i).configured = false → Origin keys s (sinkKey sinks d i)
  | seeded {d : Str} {i : Fin sinks.length} : d ∈ keys →
      (∃ d' ∈ keys, ∃ j, d = sinkKey sinks d' j) → Origin keys s (sinkKey sinks d i)

structure Traced (keys : Set Str) (s : State sinks) : Prop where
  asked : ∀ (k : Nat) (job : Job sinks), s.jobs[k]? = some job → job.alert.dedupeKey ∈ keys
  origin : ∀ key ∈ s.seen, Origin keys s key

variable {keys : Set Str}

theorem Traced.named (traced : Traced keys s) {key : Str} (inside : key ∈ s.seen) :
    ∃ d ∈ keys, ∃ i, key = sinkKey sinks d i := by
  cases traced.origin key inside with
  | owned owner =>
    obtain ⟨job, found, i, -, rfl⟩ := owner
    exact ⟨_, traced.asked _ job found, i, rfl⟩
  | delivered known => exact ⟨_, known, _, rfl⟩
  | unconfigured known => exact ⟨_, known, _, rfl⟩
  | seeded known => exact ⟨_, known, _, rfl⟩

/-- What an origin was it stays, as long as its owner owns it. -/
theorem Origin.mono {s' : State sinks} {key : Str} (origin : Origin keys s key)
    (owners : ∀ k, Owner s.jobs k key → Origin keys s' key)
    (log : ∀ e ∈ s.log, e ∈ s'.log) :
      Origin keys s' key := by
  cases origin with
  | owned owner => exact owners _ owner
  | delivered known there => exact .delivered known (log _ there)
  | unconfigured known unconfigured => exact .unconfigured known unconfigured
  | seeded known seed => exact .seeded known seed

theorem Turned.alert_eq {e : Effect sinks} (turned : Turned seen job e) :
    e.job.alert = job.alert := by
  cases turned <;> assumption

theorem Traced.turn (traced : Traced keys s) (found : s.jobs[k]? = some job) {e : Effect sinks}
    (turned : Turned s.seen job e) :
      Traced keys ⟨e.seen, s.jobs.set k e.job, s.log ++ e.log⟩ := by
  have known : job.alert.dedupeKey ∈ keys := traced.asked k job found
  constructor
  · intro k' job' found'
    simp only [List.getElem?_set] at found'
    split at found'
    · split at found'
      · cases found'
        rw [turned.alert_eq]
        exact known
      · cases found'
    · exact traced.asked k' job' found'
  have log : ∀ event ∈ s.log, event ∈ s.log ++ e.log :=
    fun _ there => List.mem_append_left _ there
  cases turned with
  | @idle job' alert holds =>
    intro key inside
    exact (traced.origin key inside).mono (fun k' owner =>
      .owned ((owner_same found alert holds k' key).mpr owner)) log
  | @took job' i alert free holds absent =>
    intro key inside
    obtain rfl | inside := Finset.mem_insert.mp inside
    · refine .owned ((owner_set found k _).mpr ?_)
      rw [if_pos rfl]
      exact ⟨i, holds, by rw [Job.key, Job.key, alert]⟩
    · refine (traced.origin key inside).mono (fun k' owner =>
        .owned ((owner_set found k' key).mpr ?_)) log
      split
      · rename_i here
        rw [here, owner_here found] at owner
        exact absurd owner (Job.not_owns free)
      · exact owner
  | @seeded job' i alert free free' legacy =>
    intro key inside
    obtain rfl | inside := Finset.mem_insert.mp inside
    · exact .seeded known (traced.named legacy)
    · exact (traced.origin key inside).mono
        (fun k' owner => .owned ((owner_same found alert (free'.trans free.symm) k' key).mpr owner))
          log
  | @invoked job' i alert holds holds' =>
    intro key inside
    exact (traced.origin key inside).mono
      (fun k' owner => .owned ((owner_same found alert (holds'.trans holds.symm) k' key).mpr owner))
        log
  | @delivered job' i alert holds free =>
    intro key inside
    refine (traced.origin key inside).mono (fun k' owner => ?_) log
    by_cases here : k' = k
    · rw [here, owner_here found, Job.owns_iff holds] at owner
      exact owner ▸ .delivered known (List.mem_append_right _ (List.mem_singleton_self _))
    · exact .owned ((owner_freed found free k' key).mpr ⟨here, owner⟩)
  | @kept job' i alert holds free unconfigured =>
    intro key inside
    refine (traced.origin key inside).mono (fun k' owner => ?_) log
    by_cases here : k' = k
    · rw [here, owner_here found, Job.owns_iff holds] at owner
      exact owner ▸ .unconfigured known unconfigured
    · exact .owned ((owner_freed found free k' key).mpr ⟨here, owner⟩)
  | @dropped job' i alert holds free =>
    intro key inside
    obtain ⟨other, inside⟩ := Finset.mem_erase.mp inside
    refine (traced.origin key inside).mono (fun k' owner => ?_) log
    by_cases here : k' = k
    · rw [here, owner_here found, Job.owns_iff holds] at owner
      exact absurd owner other
    · exact .owned ((owner_freed found free k' key).mpr ⟨here, owner⟩)

theorem traced_act (traced : Traced keys s) (a : Act)
    (asked : ∀ alert, a = .dispatch alert → alert.dedupeKey ∈ keys) :
    Traced keys (act sinks s a) := by
  cases a with
  | dispatch alert =>
    constructor
    · intro k' job' found'
      simp only [act, List.getElem?_append] at found'
      split at found'
      · exact traced.asked k' job' found'
      · rw [List.getElem?_singleton] at found'
        split at found'
        · cases found'
          exact asked alert rfl
        · cases found'
    · intro key inside
      exact (traced.origin key inside).mono (fun k' owner =>
        .owned ((owner_dispatch alert k' key).mpr owner)) fun _ there => there
  | turn k turn =>
    obtain still | ⟨job, found, turns⟩ := act_turn s k turn
    · exact still.symm ▸ traced
    · exact turns.symm ▸ traced.turn found (turned s.seen job turn)

theorem traced_run (acts : List Act)
    (asked : ∀ alert, .dispatch alert ∈ acts → alert.dedupeKey ∈ keys) :
    Traced keys (run (act sinks) {} acts) := by
  have along : Along (act sinks) (fun _ a => ∀ alert, a = .dispatch alert →
      alert.dedupeKey ∈ keys) {} acts :=
    .of_forall fun a inside _ alert same => asked alert (same ▸ inside)
  refine along.invariant (fun s a traced asked => traced_act traced a asked) ⟨?_, ?_⟩
  · intro k job none
    cases none
  · intro key none
    cases none

/-- A configured sink that has not delivered is only claimed by a dispatch that is at it. -/
theorem Traced.busy (traced : Traced keys s) (apart : Apart sinks keys) {d : Str}
    (known : d ∈ keys) (configured : (sinks.get i).configured)
    (undelivered : .delivered d i ∉ s.log) (claimed : sinkKey sinks d i ∈ s.seen) :
    ∃ job ∈ s.jobs, job.alert.dedupeKey = d ∧ job.holding = some i := by
  generalize key_eq : sinkKey sinks d i = key at claimed
  cases traced.origin key claimed with
  | @owned k _ owner =>
    obtain ⟨job, found, j, holds, same⟩ := owner
    obtain ⟨rfl, rfl⟩ :=
      apart.own d known _ (traced.asked k job found) i j configured (key_eq.trans same.symm)
    exact ⟨job, List.mem_of_getElem? found, rfl, holds⟩
  | @delivered d' j known' there =>
    obtain ⟨rfl, rfl⟩ := apart.own d known d' known' i j configured key_eq
    exact absurd there undelivered
  | @unconfigured d' j known' unconfigured =>
    obtain ⟨rfl, rfl⟩ := apart.own d known d' known' i j configured key_eq
    rw [configured] at unconfigured
    cases unconfigured
  | @seeded d' j known' seed =>
    obtain ⟨d'', known'', j', same⟩ := seed
    exact absurd same (apart.fresh ⟨_, List.getElem_mem i.isLt,
      configured⟩ d' known' d'' known'' j')

theorem Traced.unseen (traced : Traced keys s) (apart : Apart sinks keys) {d : Str}
    (known : d ∈ keys) (configured : (sinks.get i).configured) : d ∉ s.seen := by
  intro inside
  obtain ⟨d', known', j, same⟩ := traced.named inside
  exact apart.fresh ⟨_, List.getElem_mem i.isLt, configured⟩ d known d' known' j same

/-! No sink is left out of a dispatch that returns. -/

/-- As long as it is not cancelled, a dispatch has a result for each sink that it is done with. -/
def Job.Thorough (job : Job sinks) : Prop :=
  ∀ m, job.phase.tried = some m → job.sinkResults.map Prod.fst = (sinks.take m).map Sink.name

theorem take_record (i : Fin sinks.length) (delivered : Bool)
    (before : job.sinkResults.map Prod.fst = (sinks.take i).map Sink.name) :
    (job.record i delivered).sinkResults.map Prod.fst = (sinks.take (i + 1)).map Sink.name := by
  rw [List.take_add_one, List.getElem?_eq_getElem i.isLt, Job.record, List.map_append, before,
    List.map_append]
  rfl

theorem thorough_proceed
    (after : job.sinkResults.map Prod.fst = (sinks.take (i + 1)).map Sink.name) :
    (job.proceed i).Thorough := by
  intro m tried
  unfold Job.proceed at tried ⊢
  simp only at tried ⊢
  split at tried
  · cases tried
    exact after
  · rename_i last
    cases tried
    rw [after, show (i : Nat) + 1 = sinks.length by omega]

theorem Job.Thorough.moveTo {phase : Phase sinks.length} (thorough : job.Thorough)
    (tried : phase.tried = job.phase.tried ∨ phase.tried = none) :
      (job.moveTo phase).Thorough := by
  intro m now
  obtain same | none := tried
  · exact thorough m (same ▸ now)
  · change phase.tried = some m at now
    rw [none] at now
    cases now

theorem Job.Thorough.runClaim (thorough : job.Thorough) (seen : Finset Str) :
    (job.runClaim seen).job.Thorough := by
  unfold Job.runClaim
  split
  · rename_i standing
    exact thorough.moveTo (.inl (congrArg Phase.tried standing).symm)
  · exact thorough

theorem Job.Thorough.runRelease (thorough : job.Thorough) (seen : Finset Str) :
    (job.runRelease seen).job.Thorough := by
  unfold Job.runRelease
  split
  · rename_i standing
    exact thorough.moveTo (.inl (congrArg Phase.tried standing).symm)
  · exact thorough

theorem Job.Thorough.resume (thorough : job.Thorough) (seen : Finset Str) :
    (job.resume seen).job.Thorough := by
  unfold Job.resume
  split <;> rename_i standing
  · exact thorough.moveTo (.inr rfl)
  · exact thorough.moveTo (.inr rfl)
  · intro m tried
    exact thorough m ((congrArg Phase.tried standing).trans tried)
  · exact thorough_proceed (take_record _ _ (thorough _ (congrArg Phase.tried standing)))
  · exact thorough.moveTo (.inr rfl)
  · exact thorough_proceed (thorough _ (congrArg Phase.tried standing))
  · exact thorough

theorem Job.Thorough.undelivered (thorough : job.Thorough) (sending : job.phase = .sending i) :
    (job.undelivered i).Thorough := by
  have recorded := take_record i false (thorough _ (congrArg Phase.tried sending))
  unfold Job.undelivered
  cases (sinks.get i).configured with
  | true =>
    intro m tried
    cases tried
    exact recorded
  | false => exact thorough_proceed recorded

theorem Job.Thorough.sendEnds (thorough : job.Thorough) (seen : Finset Str) (outcome : Outcome) :
    (job.sendEnds seen outcome).job.Thorough := by
  unfold Job.sendEnds
  split <;> rename_i sending
  · exact thorough_proceed (take_record _ _ (thorough _ (congrArg Phase.tried sending)))
  · exact thorough.undelivered sending
  · exact thorough.undelivered sending
  · exact thorough.moveTo (.inr rfl)
  · exact thorough

theorem Job.Thorough.cancel (thorough : job.Thorough) (seen : Finset Str) :
    (job.cancel seen).job.Thorough := by
  unfold Job.cancel
  split <;> rename_i standing
  · exact thorough.moveTo (.inl (congrArg Phase.tried standing).symm)
  · exact thorough.moveTo (.inl (congrArg Phase.tried standing).symm)
  · exact thorough.moveTo (.inr rfl)
  · exact thorough.moveTo (.inr rfl)
  · exact thorough

theorem Job.Thorough.turn (thorough : job.Thorough) (seen : Finset Str) (turn : Turn) :
    (job.turn seen turn).job.Thorough := by
  cases turn with
  | claim => exact thorough.runClaim seen
  | release => exact thorough.runRelease seen
  | resume => exact thorough.resume seen
  | send outcome => exact thorough.sendEnds seen outcome
  | cancel => exact thorough.cancel seen

def AllThorough (s : State sinks) : Prop := ∀ job ∈ s.jobs, job.Thorough

theorem thorough_act (all : AllThorough s) (a : Act) : AllThorough (act sinks s a) := by
  intro job inside
  cases a with
  | dispatch alert =>
    obtain old | new := List.mem_append.mp inside
    · exact all job old
    · rw [List.mem_singleton.mp new]
      intro m tried
      unfold dispatch at tried ⊢
      simp only at tried ⊢
      split at tried
      · cases tried
        rfl
      · rename_i empty
        cases tried
        rw [List.length_eq_zero_iff.mp (Nat.eq_zero_of_not_pos empty)]
        rfl
  | turn k turn =>
    obtain still | ⟨job', found, turns⟩ := act_turn s k turn
    · exact all job (still ▸ inside)
    · rw [turns] at inside
      obtain old | rfl := List.mem_or_eq_of_mem_set inside
      · exact all job old
      · exact (all job' (List.mem_of_getElem? found)).turn s.seen turn

theorem thorough_run (acts : List Act) : AllThorough (run (act sinks) {} acts) := by
  refine invariant (fun s a all => thorough_act all a) ?_
  intro job none
  cases none

end

/-- Of each sink, whatever the others do: once delivered it is not invoked again, a dispatch that
returns has tried it, and without a delivery its claim is only taken while a dispatch is at it. -/
theorem delivery_per_sink (sinks : List Sink) (keys : Set Str) (acts : List Act)
    (asked : ∀ alert, .dispatch alert ∈ acts → alert.dedupeKey ∈ keys) :
    let s := run (act sinks) {} acts
    NeverAgain s.log ∧
      (∀ job ∈ s.jobs, ∀ skipped, job.phase = .returned skipped →
        job.sinkResults.map Prod.fst = sinks.map Sink.name) ∧
      (Apart sinks keys → ∀ d ∈ keys, ∀ i : Fin sinks.length, (sinks.get i).configured →
        .delivered d i ∉ s.log → (sinkKey sinks d i ∈ s.seen → ∃ job ∈ s.jobs,
          job.alert.dedupeKey = d ∧ job.holding = some i) ∧
          ((∀ job ∈ s.jobs, job.alert.dedupeKey = d → ¬ job.phase.inFlight) →
            sinkKey sinks d i ∉ s.seen ∧
            (claim s.seen (sinkKey sinks d i) (some d)).2 = true)) := by
  have traced := @traced_run sinks keys acts asked
  have thorough := @thorough_run sinks acts
  refine ⟨(sound_run acts).once, ?_, fun apart d known i configured undelivered => ?_⟩
  · intro job inside skipped returned
    have results := thorough job inside sinks.length (congrArg Phase.tried returned)
    rwa [List.take_length] at results
  · have busy := traced.busy apart known configured undelivered
    refine ⟨busy, fun quiet => ?_⟩
    have free : sinkKey sinks d i ∉ (run (act sinks) {} acts).seen := by
      intro claimed
      obtain ⟨job, inside, same, holds⟩ := busy claimed
      exact quiet job inside same (Phase.inFlight_of_holding holds)
    have unseen := traced.unseen apart known configured
    simp [claim, free, unseen]

/-! Names without a colon keep the keys apart. -/

theorem lastColon {x x' z z' : Str} (plain : ':' ∉ z) (plain' : ':' ∉ z')
    (same : x ++ ':' :: z = x' ++ ':' :: z') : x = x' ∧ z = z' := by
  obtain ⟨c, rfl, rest⟩ | ⟨c, rfl, rest⟩ := List.append_eq_append_iff.mp same
  · cases c with
    | nil => exact ⟨(List.append_nil x).symm, List.tail_eq_of_cons_eq rest⟩
    | cons d c => exact absurd (List.tail_eq_of_cons_eq rest ▸
        List.mem_append_right c List.mem_cons_self) plain
  · cases c with
    | nil => exact ⟨List.append_nil x', (List.tail_eq_of_cons_eq rest).symm⟩
    | cons d c => exact absurd (List.tail_eq_of_cons_eq rest ▸
        List.mem_append_right c List.mem_cons_self) plain'

theorem colon_notMem_natText (n : Nat) : ':' ∉ natText n := by
  intro inside
  have digit := natText_digit inside
  revert digit
  decide

theorem ordinal_lt {i j : Fin sinks.length} (before : i < j)
    (same : (sinks.get i).name = (sinks.get j).name) : ordinal sinks i < ordinal sinks j := by
  unfold ordinal
  have earlier : (sinks.take (i + 1)).Sublist (sinks.take j) := List.take_sublist_take_left before
  have fewer := earlier.countP_le (p := fun prior => decide (prior.name = (sinks.get j).name))
  rw [List.take_add_one, List.getElem?_eq_getElem i.isLt, List.countP_append] at fewer
  have here : sinks[(i : Nat)].name = (sinks.get j).name := same
  simp only [Option.toList_some, List.countP_singleton, here, decide_true, if_true] at fewer
  simp only [same]
  omega

theorem ordinal_injective {i j : Fin sinks.length} (names : (sinks.get i).name = (sinks.get j).name)
    (same : ordinal sinks i = ordinal sinks j) : i = j := by
  obtain before | rfl | after := lt_trichotomy i j
  · exact absurd same (ordinal_lt before names).ne
  · rfl
  · exact absurd same (ordinal_lt after names.symm).ne'

theorem apart_of_plain {keys : Set Str} (names : ∀ sink ∈ sinks, ':' ∉ sink.name)
    (plain : ∀ d ∈ keys, ¬ ":sink:".toList <:+: d) : Apart sinks keys := by
  constructor
  · intro d _ d' _ i j _ same
    unfold sinkKey at same
    obtain ⟨front, digits⟩ := lastColon (colon_notMem_natText _) (colon_notMem_natText _) same
    have parts (d : Str) (i : Fin sinks.length) :
        d ++ ":sink:".toList ++ (sinks.get i).name = (d ++ ":sink".toList) ++
          ':' :: (sinks.get i).name := by simp
    rw [parts, parts] at front
    obtain ⟨start, name⟩ :=
      lastColon (names _ (List.getElem_mem _)) (names _ (List.getElem_mem _)) front
    exact ⟨List.append_cancel_right start, ordinal_injective name (natText_injective digits)⟩
  · rintro - d known d' - j rfl
    exact plain _ known ⟨d', (sinks.get j).name ++ ':' :: natText (ordinal sinks j), by
      simp [sinkKey]⟩

/-! One sink, and an alert whose dedupe key is the sink's key of another alert. -/

def telegram : List Sink := [{ name := "telegram".toList }]

def onlySink : Fin telegram.length := ⟨0, Nat.one_pos⟩

def alertOf (dedupeKey : String) : Alert where
  pickId := "1".toList
  title := []
  body := []
  dedupeKey := dedupeKey.toList

/-- The dispatch at this place is the only one that runs, and its send delivers. -/
def delivers (k : Nat) : List Act := [.turn k .claim, .turn k .resume, .turn k (.send .delivered)]

/-- The send fails and the dispatch returns. -/
def refused : List Act :=
  [.dispatch (alertOf "x"), .turn 0 .claim, .turn 0 .resume, .turn 0 (.send .failed),
    .turn 0 .release, .turn 0 .resume]

/-- The first send fails, the second dispatch delivers. -/
def retried : List Act := refused ++ .dispatch (alertOf "x") :: delivers 1

theorem telegram_apart : Apart telegram {"x".toList} := by
  apply apart_of_plain
  · decide
  · rintro d rfl
    decide

/-- After the failure the alert is claimable again, and after the delivery it is not sent any more.
-/
theorem retried_delivery :
    (sinkKey telegram "x".toList onlySink ∉ (run (act telegram) {} refused).seen ∧
      (claim (run (act telegram) {} refused).seen (sinkKey telegram "x".toList onlySink)
        (some "x".toList)).2 = true) ∧
      NeverAgain (run (act telegram) {} retried).log := by
  have asked (alert : Alert) (inside : .dispatch alert ∈ retried) :
      alert.dedupeKey ∈ ({"x".toList} : Set Str) := by
    simp only [retried, refused, delivers, List.cons_append, List.nil_append, List.mem_cons,
      List.not_mem_nil, reduceCtorEq, Act.dispatch.injEq, false_or, or_false, or_self] at inside
    exact inside ▸ rfl
  obtain ⟨-, -, free⟩ := delivery_per_sink telegram {"x".toList} refused
    fun alert inside => asked alert (List.mem_append_left _ inside)
  obtain ⟨once, -, -⟩ := delivery_per_sink telegram {"x".toList} retried asked
  exact ⟨(free telegram_apart "x".toList rfl onlySink rfl (by decide)).2 (by decide), once⟩

/-- The second alert is reported as delivered and its claim stays, though it is never sent. -/
theorem delivery_per_sink_fails :
    ¬ ∀ acts : List Act, ∀ d i, .delivered d i ∉ (run (act telegram) {} acts).log →
      (∀ job ∈ (run (act telegram) {} acts).jobs, ¬ job.phase.inFlight) →
        sinkKey telegram d i ∉ (run (act telegram) {} acts).seen := by
  intro holds
  exact holds (.dispatch (alertOf "x") :: delivers 0 ++ .dispatch (alertOf "x:sink:telegram:0") ::
    delivers 1) "x:sink:telegram:0".toList onlySink (by decide) (by decide) (by decide)

end SharpEvPicks.Notifications
