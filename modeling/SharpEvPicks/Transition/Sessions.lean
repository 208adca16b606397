import Mathlib.Data.List.Basic
import Mathlib.Logic.Function.Basic
import SharpEvPicks.Transition.Run

/-! Transactions of several sessions under read committed. What a session writes is its own until it
commits, a statement sees what is committed and what its session wrote, and keys are held to the end
of the transaction. A task takes its lock, looks for a rival, and then yields or acts. -/
namespace Transition.Sessions

/-- What tasks read, lock and write. `σ` is the tables, `ω` a write, `κ` a key, `τ` a task, `β`
tasks that a query narrows down first, `γ` a call. -/
structure Protocol (σ ω κ τ β γ : Type*) where
  apply : σ → ω → σ
  start : σ → γ → List (τ ⊕ β)
  expand : σ → β → List τ
  /-- A task without a lock does not look for a rival. -/
  lock : τ → Option κ
  rival : σ → τ → Bool
  yield : τ → List ω
  act : σ → τ → List ω
  /-- The key of a unique index that an act inserts under; its second inserter waits for the first.
  -/
  entry : τ → κ

inductive Cursor (τ : Type*) where
  | idle
  | locked (task : τ)
  | checked (task : τ)

structure Session (ω τ β : Type*) where
  cursor : Cursor τ := .idle
  agenda : List (τ ⊕ β) := []
  writes : List ω := []

structure World (σ ω κ τ β : Type*) where
  committed : σ
  session : Nat → Session ω τ β := fun _ => {}
  owner : κ → Option Nat := fun _ => none

inductive Action (γ : Type*) where
  | call (s : Nat) (c : γ)
  | statement (s : Nat)
  | commit (s : Nat)
  | rollback (s : Nat)

variable {σ ω κ τ β γ ι : Type*}

def Session.done (x : Session ω τ β) : Bool :=
  match x.cursor with
  | .idle => x.agenda.isEmpty
  | _ => false

namespace Protocol
variable (P : Protocol σ ω κ τ β γ)

def after (tables : σ) (writes : List ω) : σ := writes.foldl P.apply tables

/-- A task with nobody else around. -/
def perform (tables : σ) (task : τ) : σ :=
  if (P.lock task).isSome && P.rival tables task then P.after tables (P.yield task)
  else P.after tables (P.act tables task)

def performItem (tables : σ) : τ ⊕ β → σ
  | .inl task => P.perform tables task
  | .inr tasks => (P.expand tables tasks).foldl P.perform tables

variable {P} in
theorem perform_rival {tables : σ} {task : τ} (locked : (P.lock task).isSome)
    (rival : P.rival tables task) : P.perform tables task = P.after tables (P.yield task) :=
      if_pos (by rw [locked, rival, Bool.and_self])

variable {P} in
theorem perform_clear {tables : σ} {task : τ} (clear : P.rival tables task = false) :
    P.perform tables task = P.after tables (P.act tables task) :=
  if_neg (by rw [clear, Bool.and_false]; exact Bool.false_ne_true)

theorem after_append (tables : σ) (writes more : List ω) :
    P.after tables (writes ++ more) = P.after (P.after tables writes) more := List.foldl_append

end Protocol

namespace World
variable [DecidableEq κ] (P : Protocol σ ω κ τ β γ) (w : World σ ω κ τ β) (s : Nat)

def view : σ := P.after w.committed (w.session s).writes

def set (x : Session ω τ β) : World σ ω κ τ β :=
  { w with session := Function.update w.session s x }

/-- The session goes on with the key, or waits for its owner. -/
def take (key : κ) (x : Session ω τ β) : World σ ω κ τ β :=
  if w.owner key = none ∨ w.owner key = some s then
    { w.set s x with owner := Function.update w.owner key (some s) }
  else w

def next : List (τ ⊕ β) → World σ ω κ τ β
  | [] => w
  | .inr tasks :: rest =>
    w.set s { w.session s with agenda := (P.expand (w.view P s) tasks).map .inl ++ rest }
  | .inl task :: rest =>
    match P.lock task with
    | none => w.set s { w.session s with cursor := .checked task, agenda := rest }
    | some key => w.take s key { w.session s with cursor := .locked task, agenda := rest }

def check (task : τ) : World σ ω κ τ β :=
  let x := w.session s
  if P.rival (w.view P s) task then
    w.set s { x with cursor := .idle, writes := x.writes ++ P.yield task }
  else w.set s { x with cursor := .checked task }

def close (task : τ) : World σ ω κ τ β :=
  let x := w.session s
  let writes := P.act (w.view P s) task
  if writes.isEmpty then w.set s { x with cursor := .idle }
  else w.take s (P.entry task) { x with cursor := .idle, writes := x.writes ++ writes }

def statement : World σ ω κ τ β :=
  match (w.session s).cursor with
  | .idle => w.next P s (w.session s).agenda
  | .locked task => w.check P s task
  | .checked task => w.close P s task

/-- The transaction is over and leaves these tables. -/
def finish (tables : σ) : World σ ω κ τ β where
  committed := tables
  session := Function.update w.session s {}
  owner key := if w.owner key = some s then none else w.owner key

end World

def step [DecidableEq κ] (P : Protocol σ ω κ τ β γ) (w : World σ ω κ τ β) :
    Action γ → World σ ω κ τ β
  | .call s c =>
    if (w.session s).done then w.set s { w.session s with agenda := P.start (w.view P s) c } else w
  | .statement s => w.statement P s
  | .commit s => if (w.session s).done then w.finish s (w.view P s) else w
  | .rollback s => w.finish s w.committed

/-! Facts of which at most one of two rivals may come to hold. -/

/-- Tasks check for rivals of their subject under the key of the subject, and add no other fact. -/
structure Discipline (P : Protocol σ ω κ τ β γ) (ι : Type*) where
  Has : σ → ι → Prop
  Adds : ω → ι → Prop
  Rival : ι → ι → Prop
  key : ι → κ
  subject : τ → ι
  /-- What no write changes in the tables. -/
  Fits : σ → Prop
  /-- What is so of every task that is read from such tables. -/
  Known : τ → Prop
  symm : ∀ {i j}, Rival i j → Rival j i
  irrefl : ∀ i, ¬ Rival i i
  key_rival : ∀ {i j}, Rival i j → key i = key j
  has_apply : ∀ tables write i, Has (P.apply tables write) i ↔ Has tables i ∨ Adds write i
  fits_apply : ∀ tables write, Fits tables → Fits (P.apply tables write)
  known_start : ∀ tables call, Fits tables → ∀ task, .inl task ∈ P.start tables call →
    Known task
  known_expand : ∀ tables call, Fits tables → ∀ tasks, .inr tasks ∈ P.start tables call →
    ∀ tables', ∀ task ∈ P.expand tables' tasks, Known task
  lock : ∀ task j, Known task → Rival (subject task) j →
    P.lock task = some (key (subject task))
  rival : ∀ tables task j, Fits tables → Known task → Rival (subject task) j →
    Has tables j → P.rival tables task = true
  yield : ∀ task, ∀ write ∈ P.yield task, ∀ i, ¬ Adds write i
  act : ∀ tables task, Known task → ∀ write ∈ P.act tables task, ∀ i j, Adds write i →
    Rival i j → i = subject task

namespace Discipline
variable {P : Protocol σ ω κ τ β γ} (d : Discipline P ι)

def Apart (tables : σ) : Prop := ∀ i j, d.Rival i j → d.Has tables i → ¬ d.Has tables j

def KnownItem : τ ⊕ β → Prop
  | .inl task => d.Known task
  | .inr tasks => ∀ tables, ∀ task ∈ P.expand tables tasks, d.Known task

/-- The session owns the key of every rival that it has added or is about to. -/
structure Owns (owner : κ → Option Nat) (s : Nat) (x : Session ω τ β) : Prop where
  pending : ∀ write ∈ x.writes, ∀ i j, d.Adds write i → d.Rival i j →
    owner (d.key i) = some s
  locked : ∀ task, x.cursor = .locked task → ∀ j, d.Rival (d.subject task) j →
    owner (d.key (d.subject task)) = some s
  checked : ∀ task, x.cursor = .checked task → ∀ j, d.Rival (d.subject task) j →
    owner (d.key (d.subject task)) = some s

/-- What a session may rely on as long as others leave its keys alone. -/
structure Sees (tables : σ) (x : Session ω τ β) : Prop where
  agenda : ∀ item ∈ x.agenda, d.KnownItem item
  locked : ∀ task, x.cursor = .locked task → d.Known task
  checked : ∀ task, x.cursor = .checked task → d.Known task
  apart : d.Apart (P.after tables x.writes)
  clear : ∀ task, x.cursor = .checked task → ∀ j, d.Rival (d.subject task) j →
    ¬ d.Has (P.after tables x.writes) j

structure Sound (w : World σ ω κ τ β) : Prop where
  fits : d.Fits w.committed
  owns : ∀ s, d.Owns w.owner s (w.session s)
  sees : ∀ s, d.Sees w.committed (w.session s)

theorem has_after (tables : σ) (writes : List ω) (i : ι) :
    d.Has (P.after tables writes) i ↔ d.Has tables i ∨ ∃ write ∈ writes,
      d.Adds write i := by
  induction writes generalizing tables with
  | nil => simp [Protocol.after]
  | cons write writes ih =>
    have first : P.after tables (write :: writes) = P.after (P.apply tables write) writes := rfl
    simp only [first, ih, d.has_apply, or_assoc, List.mem_cons, or_and_right, exists_or,
      exists_eq_left]

theorem fits_after {tables : σ} (fits : d.Fits tables) (writes : List ω) :
    d.Fits (P.after tables writes) := by
  induction writes generalizing tables with
  | nil => exact fits
  | cons write writes ih => exact ih (d.fits_apply tables write fits)

variable {d}

section Constructors
variable {owner : κ → Option Nat} {s : Nat} {x : Session ω τ β} {tables : σ} {task : τ}

theorem Owns.idle (idle : x.cursor = .idle)
    (pending : ∀ write ∈ x.writes, ∀ i j, d.Adds write i → d.Rival i j →
      owner (d.key i) = some s) :
    d.Owns owner s x where
  pending := pending
  locked task held := by
    rw [idle] at held
    cases held
  checked task held := by
    rw [idle] at held
    cases held

theorem Owns.at_locked (now : x.cursor = .locked task)
    (pending : ∀ write ∈ x.writes, ∀ i j, d.Adds write i → d.Rival i j →
      owner (d.key i) = some s)
    (owned : ∀ j, d.Rival (d.subject task) j → owner (d.key (d.subject task)) = some s) :
    d.Owns owner s x where
  pending := pending
  locked task held := by
    rw [now] at held
    cases held
    exact owned
  checked task held := by
    rw [now] at held
    cases held

theorem Owns.at_checked (now : x.cursor = .checked task)
    (pending : ∀ write ∈ x.writes, ∀ i j, d.Adds write i → d.Rival i j →
      owner (d.key i) = some s)
    (owned : ∀ j, d.Rival (d.subject task) j → owner (d.key (d.subject task)) = some s) :
    d.Owns owner s x where
  pending := pending
  locked task held := by
    rw [now] at held
    cases held
  checked task held := by
    rw [now] at held
    cases held
    exact owned

theorem Sees.idle (idle : x.cursor = .idle) (agenda : ∀ item ∈ x.agenda, d.KnownItem item)
    (apart : d.Apart (P.after tables x.writes)) : d.Sees tables x where
  agenda := agenda
  locked task held := by
    rw [idle] at held
    cases held
  checked task held := by
    rw [idle] at held
    cases held
  apart := apart
  clear task held := by
    rw [idle] at held
    cases held

theorem Sees.at_locked (now : x.cursor = .locked task)
    (agenda : ∀ item ∈ x.agenda, d.KnownItem item) (known : d.Known task)
    (apart : d.Apart (P.after tables x.writes)) : d.Sees tables x where
  agenda := agenda
  locked task held := by
    rw [now] at held
    cases held
    exact known
  checked task held := by
    rw [now] at held
    cases held
  apart := apart
  clear task held := by
    rw [now] at held
    cases held

theorem Sees.at_checked (now : x.cursor = .checked task)
    (agenda : ∀ item ∈ x.agenda, d.KnownItem item) (known : d.Known task)
    (apart : d.Apart (P.after tables x.writes))
    (clear : ∀ j, d.Rival (d.subject task) j → ¬ d.Has (P.after tables x.writes) j) :
      d.Sees tables x where
  agenda := agenda
  locked task held := by
    rw [now] at held
    cases held
  checked task held := by
    rw [now] at held
    cases held
    exact known
  apart := apart
  clear task held := by
    rw [now] at held
    cases held
    exact clear

variable (d owner s) in
theorem owns_empty : d.Owns owner s {} := .idle rfl fun _ inside => by cases inside

theorem sees_empty (apart : d.Apart tables) : d.Sees tables {} :=
  .idle rfl (fun _ inside => by cases inside) apart

end Constructors

theorem Owns.mono {owner owner' : κ → Option Nat} {s : Nat} {x : Session ω τ β}
    (owns : d.Owns owner s x) (keeps : ∀ key, owner key = some s → owner' key = some s) :
      d.Owns owner' s x where
  pending write inside i j adds rival := keeps _ (owns.pending write inside i j adds rival)
  locked task held j rival := keeps _ (owns.locked task held j rival)
  checked task held j rival := keeps _ (owns.checked task held j rival)

namespace Sound
variable {w : World σ ω κ τ β} {s : Nat} (sound : d.Sound w)
include sound

theorem fits_view (s : Nat) : d.Fits (w.view P s) := d.fits_after sound.fits _

/-- Only what the session itself does is at stake in a statement. -/
theorem set {x : Session ω τ β} (owns : d.Owns w.owner s x) (sees : d.Sees w.committed x) :
    d.Sound (w.set s x) where
  fits := sound.fits
  owns s' := by
    by_cases same : s' = s
    · subst same
      simpa [World.set] using owns
    · simpa [World.set, same] using sound.owns s'
  sees s' := by
    by_cases same : s' = s
    · subst same
      simpa [World.set] using sees
    · simpa [World.set, same] using sound.sees s'

variable [DecidableEq κ]

omit sound in
theorem keeps_own {owner : κ → Option Nat} {key key' : κ} (owned : owner key' = some s) :
    Function.update owner key (some s) key' = some s := by
  by_cases same : key' = key
  · rw [same, Function.update_self]
  · rw [Function.update_of_ne same, owned]

theorem take {key : κ} {x : Session ω τ β}
    (owns : d.Owns (Function.update w.owner key (some s)) s x) (sees : d.Sees w.committed x) :
      d.Sound (w.take s key x) := by
  unfold World.take
  split
  · rename_i free
    have keeps : ∀ s' key', w.owner key' = some s' → s' ≠ s →
        Function.update w.owner key (some s) key' = some s' := by
      intro s' key' owned other
      have apart : key' ≠ key := by
        rintro rfl
        obtain none | own := free
        · rw [none] at owned
          cases owned
        · rw [own, Option.some.injEq] at owned
          exact other owned.symm
      rw [Function.update_of_ne apart, owned]
    refine ⟨sound.fits, fun s' => ?_, fun s' => ?_⟩
    · by_cases same : s' = s
      · subst same
        simpa [World.set] using owns
      · simpa [World.set, same] using (sound.owns s').mono fun key' owned =>
          keeps s' key' owned same
    · by_cases same : s' = s
      · subst same
        simpa [World.set] using sees
      · simpa [World.set, same] using sound.sees s'
  · exact sound

theorem call (c : γ) : d.Sound (step P w (.call s c)) := by
  simp only [Sessions.step]
  split
  · refine sound.set ⟨(sound.owns s).pending, (sound.owns s).locked, (sound.owns s).checked⟩
      ⟨fun item inside => ?_, (sound.sees s).locked, (sound.sees s).checked, (sound.sees s).apart,
        (sound.sees s).clear⟩
    cases item with
    | inl task => exact d.known_start _ c (sound.fits_view s) task inside
    | inr tasks => exact d.known_expand _ c (sound.fits_view s) tasks inside
  · exact sound

theorem next {agenda : List (τ ⊕ β)} (due : (w.session s).agenda = agenda) :
    d.Sound (w.next P s agenda) := by
  have known : ∀ item ∈ agenda, d.KnownItem item := due ▸ (sound.sees s).agenda
  unfold World.next
  split
  · exact sound
  · rename_i tasks rest
    obtain ⟨batch, others⟩ := List.forall_mem_cons.mp known
    refine sound.set ⟨(sound.owns s).pending, (sound.owns s).locked, (sound.owns s).checked⟩
      ⟨fun item inside => ?_, (sound.sees s).locked, (sound.sees s).checked, (sound.sees s).apart,
        (sound.sees s).clear⟩
    obtain expanded | later := List.mem_append.mp inside
    · obtain ⟨task, listed, rfl⟩ := List.mem_map.mp expanded
      exact batch _ task listed
    · exact others item later
  · rename_i task rest
    obtain ⟨first, others⟩ := List.forall_mem_cons.mp known
    split
    · -- a task without a lock has no rival
      rename_i free
      have lone (j : ι) : ¬ d.Rival (d.subject task) j := by
        intro rival
        rw [d.lock task j first rival] at free
        cases free
      exact sound.set
        (.at_checked rfl (sound.owns s).pending fun j rival => absurd rival (lone j))
        (.at_checked rfl others first (sound.sees s).apart fun j rival => absurd rival (lone j))
    · rename_i key locked
      refine sound.take (.at_locked rfl (fun write inside i j adds rival => ?_) fun j rival => ?_)
        (.at_locked rfl others first (sound.sees s).apart)
      · exact keeps_own ((sound.owns s).pending write inside i j adds rival)
      · rw [d.lock task j first rival, Option.some.injEq] at locked
        rw [locked, Function.update_self]

omit [DecidableEq κ] in
theorem check {task : τ} (held : (w.session s).cursor = .locked task) :
    d.Sound (w.check P s task) := by
  have known := (sound.sees s).locked task held
  have quiet (i : ι) : d.Has (P.after w.committed ((w.session s).writes ++ P.yield task)) i ↔
      d.Has (P.after w.committed (w.session s).writes) i := by
    rw [P.after_append, d.has_after]
    exact or_iff_left fun ⟨write, inside, adds⟩ => d.yield task write inside i adds
  simp only [World.check]
  split
  · refine sound.set (.idle rfl fun write inside i j adds rival => ?_)
      (.idle rfl (sound.sees s).agenda fun i j rival first second => ?_)
    · obtain old | new := List.mem_append.mp inside
      · exact (sound.owns s).pending write old i j adds rival
      · exact absurd adds (d.yield task write new i)
    · exact (sound.sees s).apart i j rival ((quiet i).mp first) ((quiet j).mp second)
  · rename_i none
    refine sound.set (.at_checked rfl (sound.owns s).pending ((sound.owns s).locked task held))
      (.at_checked rfl (sound.sees s).agenda known (sound.sees s).apart fun j rival has => ?_)
    exact none (d.rival _ task j (sound.fits_view s) known rival has)

theorem close {task : τ} (held : (w.session s).cursor = .checked task) :
    d.Sound (w.close P s task) := by
  have added := d.act (w.view P s) task ((sound.sees s).checked task held)
  simp only [World.close]
  split
  · exact sound.set (.idle rfl (sound.owns s).pending)
      (.idle rfl (sound.sees s).agenda (sound.sees s).apart)
  · refine sound.take (.idle rfl fun write inside i j adds rival => keeps_own ?_)
      (.idle rfl (sound.sees s).agenda fun i j rival first second => ?_)
    · obtain old | new := List.mem_append.mp inside
      · exact (sound.owns s).pending write old i j adds rival
      · obtain rfl := added write new i j adds rival
        exact (sound.owns s).checked task held j rival
    · -- the subject is the only one that is new, and its rivals were looked for
      rw [P.after_append, d.has_after] at first second
      obtain old | ⟨write, inside, adds⟩ := first
      · obtain old' | ⟨write, inside, adds⟩ := second
        · exact (sound.sees s).apart i j rival old old'
        · obtain rfl := added write inside j i adds (d.symm rival)
          exact (sound.sees s).clear task held i (d.symm rival) old
      · obtain rfl := added write inside i j adds rival
        obtain old' | ⟨write', inside', adds'⟩ := second
        · exact (sound.sees s).clear task held j rival old'
        · obtain rfl := added write' inside' j _ adds' (d.symm rival)
          exact d.irrefl _ rival

theorem statement : d.Sound (w.statement P s) := by
  unfold World.statement
  split
  · exact sound.next rfl
  · exact sound.check ‹_›
  · exact sound.close ‹_›

omit [DecidableEq κ] in
/-- The end of a transaction frees only its own keys. -/
theorem finish {tables : σ} (fits : d.Fits tables) (apart : d.Apart tables)
    (sees : ∀ s', s' ≠ s → d.Sees tables (w.session s')) : d.Sound (w.finish s tables) where
  fits := fits
  owns s' := by
    by_cases same : s' = s
    · subst same
      simpa [World.finish] using d.owns_empty _ _
    · have kept : d.Owns (w.finish s tables).owner s' (w.session s') :=
        (sound.owns s').mono fun key owned => by simp [World.finish, owned, same]
      simpa [World.finish, same] using kept
  sees s' := by
    by_cases same : s' = s
    · subst same
      simpa [World.finish] using d.sees_empty apart
    · simpa [World.finish, same] using sees s' same

omit [DecidableEq κ] in
/-- What a session owns the key of, another one cannot have added. -/
theorem has_committed {s' : Nat} (other : s' ≠ s) {i j : ι} (rival : d.Rival i j)
    (owned : w.owner (d.key i) = some s') :
    d.Has (P.after (w.view P s) (w.session s').writes) i ↔ d.Has (w.view P s') i := by
  have foreign : ¬ ∃ write ∈ (w.session s).writes, d.Adds write i := by
    rintro ⟨write, inside, adds⟩
    rw [(sound.owns s).pending write inside i j adds rival, Option.some.injEq] at owned
    exact other owned.symm
  simp only [World.view, d.has_after, foreign, or_false]

theorem commit : d.Sound (step P w (.commit s)) := by
  simp only [Sessions.step]
  split
  · refine sound.finish (sound.fits_view s) (sound.sees s).apart fun s' other => ?_
    refine ⟨(sound.sees s').agenda, (sound.sees s').locked, (sound.sees s').checked,
      fun i j rival first second => ?_, fun task held j rival has => ?_⟩
    · by_cases owned : w.owner (d.key i) = some s'
      · have owned' : w.owner (d.key j) = some s' := d.key_rival rival ▸ owned
        rw [sound.has_committed other rival owned] at first
        rw [sound.has_committed other (d.symm rival) owned'] at second
        exact (sound.sees s').apart i j rival first second
      · -- the other session has added neither
        have none (k l : ι) (rival' : d.Rival k l) (same : d.key k = d.key i) :
            ¬ ∃ write ∈ (w.session s').writes, d.Adds write k := by
          rintro ⟨write, inside, adds⟩
          exact owned (same ▸ (sound.owns s').pending write inside k l adds rival')
        rw [d.has_after] at first second
        exact (sound.sees s).apart i j rival (first.resolve_right (none i j rival rfl))
          (second.resolve_right (none j i (d.symm rival) (d.key_rival rival).symm))
    · have owned := (sound.owns s').checked task held j rival
      rw [d.key_rival rival] at owned
      rw [sound.has_committed other (d.symm rival) owned] at has
      exact (sound.sees s').clear task held j rival has
  · exact sound

theorem rollback : d.Sound (step P w (.rollback s)) := by
  refine sound.finish sound.fits (fun i j rival first second => ?_) fun s' _ => sound.sees s'
  exact (sound.sees s).apart i j rival ((d.has_after _ _ _).mpr (.inl first))
    ((d.has_after _ _ _).mpr (.inl second))

theorem step (a : Action γ) : d.Sound (step P w a) := by
  cases a with
  | call s c => exact sound.call c
  | statement s => exact sound.statement
  | commit s => exact sound.commit
  | rollback s => exact sound.rollback

end Sound

theorem sound_initial {tables : σ} (fits : d.Fits tables) (apart : d.Apart tables) :
    d.Sound (κ := κ) { committed := tables } where
  fits := fits
  owns s := d.owns_empty _ s
  sees _ := d.sees_empty apart

/-- However the sessions interleave, two rivals are never both committed. -/
theorem apart_run [DecidableEq κ] {tables : σ} (fits : d.Fits tables) (apart : d.Apart tables)
    (actions : List (Action γ)) :
      d.Apart (run (Sessions.step P) { committed := tables } actions).committed := by
  have sound : d.Sound (run (Sessions.step P) { committed := tables } actions) :=
    invariant (fun _ a sound => sound.step a) (sound_initial fits apart)
  intro i j rival first second
  exact (sound.sees 0).apart i j rival ((d.has_after _ _ _).mpr (.inl first))
    ((d.has_after _ _ _).mpr (.inl second))

end Discipline

/-! A session that no other one hinders does its agenda in order. -/

section Alone
variable [DecidableEq κ] (P : Protocol σ ω κ τ β γ) (s : Nat)

/-- `s` is between two tasks and could take every key. -/
structure Alone (w : World σ ω κ τ β) (agenda : List (τ ⊕ β)) (committed tables : σ) :
    Prop where
  cursor : (w.session s).cursor = .idle
  agenda : (w.session s).agenda = agenda
  committed : w.committed = committed
  view : w.view P s = tables
  free : ∀ key, w.owner key = none ∨ w.owner key = some s

def Reaches (w w' : World σ ω κ τ β) : Prop :=
  ∃ n, run (step P) w (List.replicate n (.statement s)) = w'

variable {P s} {w w' : World σ ω κ τ β} {x : Session ω τ β} {task : τ}
  {rest agenda : List (τ ⊕ β)} {committed tables : σ}

theorem Reaches.trans {w'' : World σ ω κ τ β} (first : Reaches P s w w')
    (second : Reaches P s w' w'') : Reaches P s w w'' := by
  obtain ⟨n, rfl⟩ := first
  obtain ⟨m, rfl⟩ := second
  exact ⟨n + m, by rw [List.replicate_add, run_append]⟩

theorem reaches_one (one : w.statement P s = w') : Reaches P s w w' := ⟨1, one⟩

theorem take_free {key : κ} (free : w.owner key = none ∨ w.owner key = some s) :
    w.take s key x = { w.set s x with owner := Function.update w.owner key (some s) } := if_pos free

theorem free_update (free : ∀ key, w.owner key = none ∨ w.owner key = some s) (key key' : κ) :
    Function.update w.owner key (some s) key' = none ∨ Function.update w.owner key
      (some s) key' = some s := by
  by_cases same : key' = key
  · rw [same, Function.update_self]
    exact .inr rfl
  · rw [Function.update_of_ne same]
    exact free key'

/-- From a checked task, the act. -/
theorem Alone.close (now : (w.session s).cursor = .checked task) (due : (w.session s).agenda = rest)
    (held : w.committed = committed) (view : w.view P s = tables)
    (free : ∀ key, w.owner key = none ∨ w.owner key = some s) :
    ∃ w', Reaches P s w w' ∧ Alone P s w' rest committed
      (P.after tables (P.act tables task)) := by
  subst held view
  refine ⟨_, reaches_one rfl, ?_⟩
  simp only [World.statement, now, World.close]
  split
  · rename_i nothing
    rw [List.isEmpty_iff.mp nothing]
    exact ⟨by simp [World.set], by simpa [World.set] using due, rfl, by
      simp [World.view, World.set, Protocol.after], free⟩
  · rw [take_free (free _)]
    exact ⟨by simp [World.set], by simpa [World.set] using due, rfl,
      by simp [World.view, World.set, P.after_append], free_update free _⟩

theorem Alone.perform (alone : Alone P s w (.inl task :: rest) committed tables) :
    ∃ w', Reaches P s w w' ∧ Alone P s w' rest committed (P.perform tables task) := by
  obtain ⟨cursor, due, rfl, rfl, free⟩ := alone
  have begins : w.statement P s = w.next P s (.inl task :: rest) := by
    simp only [World.statement, cursor, due]
  cases locked : P.lock task with
  | none =>
    let x : Session ω τ β := { w.session s with cursor := .checked task, agenda := rest }
    have next : w.statement P s = w.set s x := by simp only [begins, World.next, locked, x]
    have session : (w.set s x).session s = x := by simp [World.set]
    have view : (w.set s x).view P s = w.view P s := by
      simp only [World.view, session]
      rfl
    have closed : ∃ w', Reaches P s (w.set s x) w' ∧
        Alone P s w' rest w.committed (P.after (w.view P s) (P.act (w.view P s) task)) :=
      Alone.close (congrArg Session.cursor session) (congrArg Session.agenda session) rfl view free
    obtain ⟨w', reached, done⟩ := closed
    refine ⟨w', (reaches_one next).trans reached, ?_⟩
    simpa [Protocol.perform, locked] using done
  | some key =>
    let x : Session ω τ β := { w.session s with cursor := .locked task, agenda := rest }
    let u : World σ ω κ τ β := { w.set s x with owner := Function.update w.owner key (some s) }
    have next : w.statement P s = u := by
      simp only [begins, World.next, locked]
      exact take_free (free key)
    have session : u.session s = x := by simp [u, World.set]
    have view : u.view P s = w.view P s := by
      simp only [World.view, session]
      rfl
    have checks : u.statement P s = u.check P s task := by simp only [World.statement, session, x]
    by_cases rival : P.rival (w.view P s) task
    · refine ⟨u.check P s task, (reaches_one next).trans (reaches_one checks), ?_⟩
      simp only [World.check, view, rival, if_true, Protocol.perform, locked, Option.isSome_some,
        Bool.and_self]
      refine ⟨by simp [World.set], by
        simp [World.set, session, x], rfl, ?_, free_update free key⟩
      simp [World.view, World.set, x, u, P.after_append]
    · have checked : u.check P s task = u.set s { u.session s with cursor := .checked task } := by
        simp only [World.check, view, rival, if_false, Bool.false_eq_true]
      have session' : (u.set s { u.session s with cursor := .checked task }).session s =
          { x with cursor := .checked task } := by simp [World.set, session]
      have view' : (u.set s { u.session s with cursor := .checked task }).view P s =
          w.view P s := by
        simp only [World.view, session']
        rfl
      have closed : ∃ w',
          Reaches P s (u.set s { u.session s with cursor := .checked task }) w' ∧
          Alone P s w' rest w.committed (P.after (w.view P s) (P.act (w.view P s) task)) :=
        Alone.close (congrArg Session.cursor session') (congrArg Session.agenda session') rfl view'
          (free_update free key)
      obtain ⟨w', reached, done⟩ := closed
      refine ⟨w', ((reaches_one next).trans (reaches_one (checks.trans checked))).trans reached,
        ?_⟩
      simpa [Protocol.perform, rival] using done

theorem Alone.perform_all (tasks : List τ)
    (alone : Alone P s w (tasks.map .inl ++ rest) committed tables) :
    ∃ w', Reaches P s w w' ∧ Alone P s w' rest committed (tasks.foldl P.perform tables) := by
  induction tasks generalizing w tables with
  | nil => exact ⟨w, ⟨0, rfl⟩, alone⟩
  | cons task tasks ih =>
    obtain ⟨w', first, alone⟩ := Alone.perform alone
    obtain ⟨w'', second, alone⟩ := ih alone
    exact ⟨w'', first.trans second, alone⟩

theorem Alone.performItem {item : τ ⊕ β} (alone : Alone P s w (item :: rest) committed tables) :
    ∃ w', Reaches P s w w' ∧ Alone P s w' rest committed (P.performItem tables item) := by
  cases item with
  | inl task => exact alone.perform
  | inr tasks =>
    obtain ⟨cursor, due, rfl, rfl, free⟩ := alone
    have next : w.statement P s =
        w.set s { w.session s with agenda := (P.expand (w.view P s) tasks).map .inl ++ rest } := by
      simp only [World.statement, cursor, due, World.next]
    have alone : Alone P s
        (w.set s { w.session s with agenda := (P.expand (w.view P s) tasks).map .inl ++ rest })
        ((P.expand (w.view P s) tasks).map .inl ++ rest) w.committed (w.view P s) :=
      ⟨by simpa [World.set] using cursor, by simp [World.set], rfl, by
        simp [World.view, World.set], free⟩
    obtain ⟨w', reached, done⟩ := alone.perform_all
    exact ⟨w', (reaches_one next).trans reached, done⟩

theorem Alone.run (alone : Alone P s w agenda committed tables) :
    ∃ w', Reaches P s w w' ∧ Alone P s w' [] committed (agenda.foldl P.performItem tables) := by
  induction agenda generalizing w tables with
  | nil => exact ⟨w, ⟨0, rfl⟩, alone⟩
  | cons item agenda ih =>
    obtain ⟨w', first, alone⟩ := alone.performItem
    obtain ⟨w'', second, alone⟩ := ih alone
    exact ⟨w'', first.trans second, alone⟩

/-- Alone, a call that is committed has done its agenda in order. -/
theorem run_alone (P : Protocol σ ω κ τ β γ) (s : Nat) (tables : σ) (call : γ) :
    ∃ n, (Transition.run (step P) { committed := tables }
      (.call s call :: (List.replicate n (.statement s) ++ [.commit s]))).committed =
        (P.start tables call).foldl P.performItem tables := by
  have called : Alone P s (step P { committed := tables } (.call s call)) (P.start tables call)
      tables tables := by
    have start : step P { committed := tables } (.call s call) =
        World.set { committed := tables } s { agenda := P.start tables call } := rfl
    rw [start]
    exact ⟨by simp [World.set], by simp [World.set], rfl, by
      simp [World.view, World.set, Protocol.after],
      fun _ => .inl rfl⟩
  obtain ⟨w', ⟨n, reached⟩, alone⟩ := called.run
  refine ⟨n, ?_⟩
  rw [run_cons, run_append, reached, run_cons, run_nil]
  have done : (w'.session s).done = true := by simp [Session.done, alone.cursor, alone.agenda]
  simp only [step, done, if_true, World.finish]
  exact alone.view

end Alone
end Transition.Sessions
