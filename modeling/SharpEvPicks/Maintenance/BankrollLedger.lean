import Mathlib.Algebra.Order.Group.Int
import Mathlib.Data.List.Chain
import Mathlib.Data.List.Lex
import Mathlib.Data.List.Perm.Basic
import Mathlib.Data.Prod.Lex
import SharpEvPicks.Python.Rounding
import SharpEvPicks.Python.Sorting
import SharpEvPicks.Transition.Run

/-! The bankroll ledger, `app/maintenance/bankroll_ledger.py`: a running total of settled profit,
appended to by transactions that one advisory lock keeps apart, while others settle picks. -/
namespace SharpEvPicks.Maintenance

open Python Transition

/-- A row of `result_tracking`, as far as the ledger reads it. Money is counted in cents. -/
structure ResultRow where
  id : Nat
  pickId : Nat
  pnl : Option Int
  settledAt : Int

inductive EntryType where
  | startingBalance | settledPnl
  deriving DecidableEq, Repr

structure LedgerEntry where
  id : Nat
  occurredAt : Int
  entryType : EntryType
  amount : Int
  balanceAfter : Int
  pickId : Option Nat
  deriving DecidableEq, Repr

/-- A fetched row that is not in the ledger yet. -/
structure Due where
  pickId : Nat
  pnl : Int
  settledAt : Int
  deriving DecidableEq, Repr

inductive Stage where
  | locked
  | opened
  | appending (remaining : List Due)
  deriving DecidableEq, Repr

/-- A transaction that holds the lock; what it inserted is its own until it commits. -/
structure Sync where
  startingBalance : ℚ
  now : Int
  stage : Stage := .locked
  balance : Int := 0
  pending : List LedgerEntry := []
  appended : Nat := 0
  deriving DecidableEq, Repr

structure World where
  results : List ResultRow := []
  ledger : List LedgerEntry := []
  /-- The identity column, which is not rolled back. -/
  nextId : Nat := 0
  holder : Option Sync := none

def picks (entries : List LedgerEntry) : List Nat := entries.filterMap LedgerEntry.pickId

def ResultRow.due (r : ResultRow) : Option Due :=
  r.pnl.map fun pnl => ⟨r.pickId, pnl, r.settledAt⟩

namespace World

/-- What the transaction that holds the lock sees of the ledger. -/
def seen (w : World) (s : Sync) : List LedgerEntry := w.ledger ++ s.pending

def insert (w : World) (s : Sync) (entry : LedgerEntry) (stage : Stage) : World :=
  { w with
    nextId := w.nextId + 1
    holder := some
      { s with
        stage := stage
        balance := entry.balanceAfter
        pending := s.pending ++ [entry]
        appended := s.appended + 1 } }

def openBalance (w : World) (s : Sync) : World :=
  match maxBy LedgerEntry.id (w.seen s) with
  | none =>
    let balance := roundHalfUp (s.startingBalance * 10 ^ 2)
    w.insert s
      { id := w.nextId
        occurredAt := s.now
        entryType := .startingBalance
        amount := balance
        balanceAfter := balance
        pickId := none }
      .opened
  | some last => { w with holder := some { s with stage := .opened, balance := last.balanceAfter } }

/-- Settled picks with a profit that the ledger lacks, in settlement order. -/
def fetched (w : World) (s : Sync) : List Due :=
  (sortedBy (fun r => toLex (r.settledAt, r.id))
    (w.results.filter fun r => r.pnl.isSome && r.pickId ∉ picks (w.seen s))).filterMap
    ResultRow.due

def append (w : World) (s : Sync) (due : Due) (rest : List Due) : World :=
  let balance := s.balance + due.pnl
  if due.pickId ∈ picks (w.seen s) then
    -- the conflict consumed an identity and takes the balance back
    { w with
      nextId := w.nextId + 1
      holder := some { s with stage := .appending rest, balance := balance - due.pnl } }
  else
    w.insert s
      { id := w.nextId
        occurredAt := due.settledAt
        entryType := .settledPnl
        amount := due.pnl
        balanceAfter := balance
        pickId := some due.pickId }
      (.appending rest)

/-- The next statement of the transaction that holds the lock. -/
def statement (w : World) (s : Sync) : World :=
  match s.stage with
  | .locked => w.openBalance s
  | .opened => { w with holder := some { s with stage := .appending (w.fetched s) } }
  | .appending [] => w
  | .appending (due :: rest) => w.append s due rest

/-- The lock is free and the ledger active. -/
def lock (w : World) (startingBalance : Option ℚ) (now : Int) : World :=
  match startingBalance, w.holder with
  | some balance, none => { w with holder := some { startingBalance := balance, now := now } }
  | _, _ => w

def commit (w : World) (s : Sync) : World :=
  match s.stage with
  | .appending [] => { w with ledger := w.seen s, holder := none }
  | _ => w

/-- A result row of a settlement; a pick has one at most. -/
def addResult (results : List ResultRow) (r : ResultRow) : List ResultRow :=
  if r.pickId ∈ results.map ResultRow.pickId then results else results ++ [r]

end World

/-- A settlement commits, or the transactions of the syncs take a step. A sync that waits for the
lock has done nothing yet; one without a starting balance never asks for it. -/
inductive Action where
  | settle (rows : List ResultRow)
  | lock (startingBalance : Option ℚ) (now : Int)
  | statement
  | commit
  | rollback

def step (w : World) : Action → World
  | .settle rows => { w with results := rows.foldl World.addResult w.results }
  | .lock startingBalance now => w.lock startingBalance now
  | .statement => w.holder.elim w w.statement
  | .commit => w.holder.elim w w.commit
  | .rollback => { w with holder := none }

/-! What a ledger is. -/

/-- One starting row, at the front, then settled picks, once each, and a running total in id order.
-/
structure Running (entries : List LedgerEntry) : Prop where
  ordered : entries.Pairwise fun e e' => e.id < e'.id
  first : ∃ start rest, entries = start :: rest ∧ start.entryType = .startingBalance ∧
    start.pickId = none ∧
    start.amount = start.balanceAfter ∧ ∀ e ∈ rest, e.entryType = .settledPnl ∧
      e.pickId.isSome
  once : (picks entries).Nodup
  chain : entries.IsChain fun e e' => e'.balanceAfter = e.balanceAfter + e'.amount

/-- Every pick of the entries has the result that the entry says. -/
def Backed (results : List ResultRow) (entries : List LedgerEntry) : Prop :=
  ∀ e ∈ entries, ∀ p, e.pickId = some p → ∃ r ∈ results, r.pickId = p ∧
    r.pnl = some e.amount

theorem picks_append (entries entries' : List LedgerEntry) :
    picks (entries ++ entries') = picks entries ++ picks entries' := List.filterMap_append

theorem picks_concat (entries : List LedgerEntry) (e : LedgerEntry) :
    picks (entries ++ [e]) = picks entries ++ e.pickId.toList := by
  rw [picks_append]
  cases pick : e.pickId <;> simp [picks, pick]

section
variable {entries : List LedgerEntry} {results results' : List ResultRow}

theorem running_start {e : LedgerEntry} (type : e.entryType = .startingBalance)
    (pick : e.pickId = none) (amount : e.amount = e.balanceAfter) : Running [e] where
  ordered := List.pairwise_singleton _ _
  first := ⟨e, [], rfl, type, pick, amount, fun _ inside => by cases inside⟩
  once := by simp [picks, pick]
  chain := .singleton e

theorem Running.concat (running : Running entries) {e : LedgerEntry} {pick : Nat} {balance : Int}
    (last : entries.getLast?.map LedgerEntry.balanceAfter = some balance)
    (later : ∀ e' ∈ entries, e'.id < e.id) (type : e.entryType = .settledPnl)
    (own : e.pickId = some pick) (fresh : pick ∉ picks entries)
    (total : e.balanceAfter = balance + e.amount) : Running (entries ++ [e]) where
  ordered := by
    refine List.pairwise_append.mpr ⟨running.ordered, List.pairwise_singleton _ _,
      fun e' inside e'' single => ?_⟩
    rw [List.mem_singleton.mp single]
    exact later e' inside
  first := by
    obtain ⟨start, rest, rfl, startType, startPick, amount, settled⟩ := running.first
    refine ⟨start, rest ++ [e], rfl, startType, startPick, amount, fun e' inside => ?_⟩
    obtain old | new := List.mem_append.mp inside
    · exact settled e' old
    · rw [List.mem_singleton.mp new, own]
      exact ⟨type, rfl⟩
  once := by
    rw [picks_concat, own]
    exact List.nodup_append.mpr ⟨running.once, List.nodup_singleton _,
        fun p inside p' single => by
      rw [List.mem_singleton.mp single]
      rintro rfl
      exact fresh inside⟩
  chain := by
    refine List.isChain_append.mpr ⟨running.chain, .singleton e,
      fun before ends after starts => ?_⟩
    obtain rfl := Option.mem_some_iff.mp starts
    rw [ends, Option.map_some, Option.some.injEq] at last
    rw [total, last]

theorem chain_total {start : LedgerEntry} {rest : List LedgerEntry}
    (chain : (start :: rest).IsChain fun e e' => e'.balanceAfter = e.balanceAfter + e'.amount) :
    ((start :: rest).getLast?).map LedgerEntry.balanceAfter =
      some (start.balanceAfter + (rest.map LedgerEntry.amount).sum) := by
  induction rest generalizing start with
  | nil => simp
  | cons e rest ih =>
    obtain ⟨next, chain⟩ := List.isChain_cons_cons.mp chain
    rw [List.getLast?_cons_cons, ih chain, next, List.map_cons, List.sum_cons, Option.some.injEq]
    ring

theorem Backed.mono (backed : Backed results entries) (more : ∀ r ∈ results, r ∈ results') :
    Backed results' entries := by
  intro e inside p own
  obtain ⟨r, there, same⟩ := backed e inside p own
  exact ⟨r, more r there, same⟩

theorem Backed.concat (backed : Backed results entries) {e : LedgerEntry}
    (own : ∀ p, e.pickId = some p → ∃ r ∈ results, r.pickId = p ∧ r.pnl = some e.amount) :
    Backed results (entries ++ [e]) := by
  intro e' inside
  obtain old | new := List.mem_append.mp inside
  · exact backed e' old
  · rw [List.mem_singleton.mp new]
    exact own

end

/-! The invariant. -/

/-- What an appending transaction still has to insert is in the results. -/
def Sync.Due (s : Sync) (results : List ResultRow) : Prop :=
  match s.stage with
  | .appending remaining =>
    ∀ d ∈ remaining, ∃ r ∈ results, r.pickId = d.pickId ∧ r.pnl = some d.pnl
  | _ => True

/-- Entries that a transaction sees once it has opened the balance. -/
structure Opened (w : World) (s : Sync) : Prop where
  running : Running (w.seen s)
  last : (w.seen s).getLast?.map LedgerEntry.balanceAfter = some s.balance
  fresh : ∀ e ∈ w.seen s, e.id < w.nextId
  backed : Backed w.results (w.seen s)
  due : s.Due w.results

def SyncSound (w : World) (s : Sync) : Prop :=
  match s.stage with
  | .locked => s.pending = []
  | _ => Opened w s

structure Sound (w : World) : Prop where
  unique : (w.results.map ResultRow.pickId).Nodup
  ledger : w.ledger = [] ∨ Running w.ledger
  fresh : ∀ e ∈ w.ledger, e.id < w.nextId
  backed : Backed w.results w.ledger
  holder : ∀ s, w.holder = some s → SyncSound w s

theorem sound_start : Sound {} where
  unique := List.nodup_nil
  ledger := .inl rfl
  fresh _ inside := by cases inside
  backed _ inside := by cases inside
  holder _ held := by cases held

theorem addResults_spec (rows : List ResultRow) {results : List ResultRow}
    (unique : (results.map ResultRow.pickId).Nodup) :
    ((rows.foldl World.addResult results).map ResultRow.pickId).Nodup ∧
      ∀ r ∈ results, r ∈ rows.foldl World.addResult results := by
  induction rows generalizing results with
  | nil => exact ⟨unique, fun _ inside => inside⟩
  | cons r rows ih =>
    have first : ((World.addResult results r).map ResultRow.pickId).Nodup := by
      unfold World.addResult
      split
      · exact unique
      · rename_i absent
        rw [List.map_append]
        refine List.nodup_append.mpr ⟨unique, List.nodup_singleton _,
          fun p inside p' single => ?_⟩
        rw [List.mem_singleton.mp single]
        rintro rfl
        exact absent inside
    have kept : ∀ r' ∈ results, r' ∈ World.addResult results r := by
      intro r' inside
      unfold World.addResult
      split
      · exact inside
      · exact List.mem_append_left _ inside
    obtain ⟨unique', more⟩ := ih first
    exact ⟨unique', fun r' inside => more r' (kept r' inside)⟩

/-- The row with the greatest id is the last one. -/
theorem Running.maxBy_id {entries : List LedgerEntry} (running : Running entries)
    {last : LedgerEntry} (ends : entries.getLast? = some last) :
      maxBy LedgerEntry.id entries = some last := by
  obtain ⟨before, rfl⟩ := List.getLast?_eq_some_iff.mp ends
  refine (maxBy_iff _ _ _).mpr ⟨before, [], rfl, fun e inside => ?_,
    fun _ inside => by cases inside⟩
  exact OrderDual.toDual_lt_toDual.mpr
    ((List.pairwise_append.mp running.ordered).2.2 e inside last (List.mem_singleton_self last))

theorem mem_fetched {w : World} {s : Sync} {d : Due} :
    d ∈ w.fetched s ↔ ∃ r ∈ w.results, r.pickId ∉ picks (w.seen s) ∧
      r.due = some d := by
  simp only [World.fetched, List.mem_filterMap, mem_sortedBy, List.mem_filter, Bool.and_eq_true,
    decide_eq_true_eq]
  constructor
  · rintro ⟨r, ⟨inside, -, absent⟩, due⟩
    exact ⟨r, inside, absent, due⟩
  · rintro ⟨r, inside, absent, due⟩
    have known : r.pnl.isSome := by
      cases pnl : r.pnl with
      | none => simp [ResultRow.due, pnl] at due
      | some p => rfl
    exact ⟨r, ⟨inside, known, absent⟩, due⟩

theorem due_eq_some {r : ResultRow} {d : Due} (due : r.due = some d) :
    r.pickId = d.pickId ∧ r.pnl = some d.pnl := by
  obtain ⟨p, pnl, rfl⟩ := Option.map_eq_some_iff.mp due
  exact ⟨rfl, pnl⟩

section
variable {w : World} {s : Sync}

theorem Sound.of_holder (sound : Sound w) {w' : World} (results : w'.results = w.results)
    (ledger : w'.ledger = w.ledger) (ids : w.nextId ≤ w'.nextId)
    (holder : ∀ s, w'.holder = some s → SyncSound w' s) : Sound w' where
  unique := results ▸ sound.unique
  ledger := ledger ▸ sound.ledger
  fresh e inside := (sound.fresh e (ledger ▸ inside)).trans_le ids
  backed := by
    rw [results, ledger]
    exact sound.backed
  holder := holder

/-- Opening the balance: the starting row of an empty ledger, else the last balance of the running
one. -/
theorem Sound.openBalance (sound : Sound w) (empty : s.pending = []) : Sound (w.openBalance s) := by
  have seen : w.seen s = w.ledger := by rw [World.seen, empty, List.append_nil]
  unfold World.openBalance
  rw [seen]
  obtain none | running := sound.ledger
  · rw [none]
    refine sound.of_holder rfl rfl (Nat.le_succ _) fun s' held => ?_
    cases held
    constructor
    all_goals simp only [World.insert, World.seen, none, empty, List.nil_append]
    · exact running_start rfl rfl rfl
    · rfl
    · intro e inside
      rw [List.mem_singleton.mp inside]
      exact Nat.lt_succ_self _
    · intro e inside p own
      rw [List.mem_singleton.mp inside] at own
      cases own
    · trivial
  · obtain ⟨start, rest, same, -⟩ := running.first
    cases ends : w.ledger.getLast? with
    | none =>
      rw [List.getLast?_eq_none_iff.mp ends] at same
      cases same
    | some last =>
      rw [running.maxBy_id ends]
      refine sound.of_holder rfl rfl le_rfl fun s' held => ?_
      cases held
      constructor
      all_goals simp only [World.seen, empty, List.append_nil]
      · exact running
      · rw [ends, Option.map_some]
      · exact sound.fresh
      · exact sound.backed
      · trivial

theorem Sound.fetch (sound : Sound w) (opened : Opened w s) :
    Sound { w with holder := some { s with stage := .appending (w.fetched s) } } := by
  refine sound.of_holder rfl rfl le_rfl fun s' held => ?_
  cases held
  refine ⟨opened.running, opened.last, opened.fresh, opened.backed, fun d inside => ?_⟩
  obtain ⟨r, there, -, due⟩ := mem_fetched.mp inside
  exact ⟨r, there, due_eq_some due⟩

theorem Sound.append (sound : Sound w) (opened : Opened w s) {due : Due} {rest : List Due}
    (stage : s.stage = .appending (due :: rest)) : Sound (w.append s due rest) := by
  have results : ∀ d ∈ due :: rest, ∃ r ∈ w.results, r.pickId = d.pickId ∧
      r.pnl = some d.pnl := by
    have all := opened.due
    rw [Sync.Due, stage] at all
    exact all
  obtain ⟨own, later⟩ := List.forall_mem_cons.mp results
  unfold World.append
  split
  · refine sound.of_holder rfl rfl (Nat.le_succ _) fun s' held => ?_
    cases held
    refine ⟨opened.running, ?_,
      fun e inside => (opened.fresh e inside).trans (Nat.lt_succ_self _), opened.backed, later⟩
    rw [add_sub_cancel_right]
    exact opened.last
  · rename_i fresh
    refine sound.of_holder rfl rfl (Nat.le_succ _) fun s' held => ?_
    cases held
    constructor
    all_goals simp only [World.insert, World.seen, ← List.append_assoc]
    · exact opened.running.concat opened.last opened.fresh rfl rfl fresh rfl
    · simp
    · intro e inside
      obtain old | new := List.mem_append.mp inside
      · exact (opened.fresh e old).trans (Nat.lt_succ_self _)
      · rw [List.mem_singleton.mp new]
        exact Nat.lt_succ_self _
    · refine opened.backed.concat fun p same => ?_
      cases same
      exact own
    · exact later

theorem Sound.statement (sound : Sound w) (held : w.holder = some s) : Sound (w.statement s) := by
  have own := sound.holder s held
  unfold World.statement
  unfold SyncSound at own
  cases stage : s.stage with
  | locked =>
    rw [stage] at own
    exact sound.openBalance own
  | opened =>
    rw [stage] at own
    exact sound.fetch own
  | appending remaining =>
    rw [stage] at own
    cases remaining with
    | nil => exact sound
    | cons due rest => exact sound.append own stage

theorem Sound.settle (sound : Sound w) (rows : List ResultRow) : Sound (step w (.settle rows)) := by
  obtain ⟨unique, more⟩ := addResults_spec rows sound.unique
  refine ⟨unique, sound.ledger, sound.fresh, sound.backed.mono more, fun s held => ?_⟩
  have own := sound.holder s held
  have opened (o : Opened w s) : Opened (step w (.settle rows)) s := by
    refine ⟨o.running, o.last, o.fresh, o.backed.mono more, ?_⟩
    have due := o.due
    unfold Sync.Due at due ⊢
    split at due
    · intro d inside
      obtain ⟨r, there, same⟩ := due d inside
      exact ⟨r, more r there, same⟩
    · trivial
  unfold SyncSound at own ⊢
  split at own
  · exact own
  · exact opened own

end

/-- A transaction with nothing left to insert. -/
def Ready (w : World) (s : Sync) : Prop := w.holder = some s ∧ s.stage = .appending []

instance (w : World) (s : Sync) : Decidable (Ready w s) :=
  inferInstanceAs (Decidable (w.holder = some s ∧ s.stage = .appending []))

theorem Ready.opened {w : World} {s : Sync} (ready : Ready w s) (sound : Sound w) : Opened w s := by
  have own := sound.holder s ready.1
  unfold SyncSound at own
  rw [ready.2] at own
  exact own

theorem Ready.commit {w : World} {s : Sync} (ready : Ready w s) :
    step w .commit = { w with ledger := w.seen s, holder := none } := by
  have done : w.holder.elim w w.commit = w.commit s := by rw [ready.1, Option.elim_some]
  refine Eq.trans done ?_
  rw [World.commit, ready.2]

theorem sound_step (w : World) (a : Action) (sound : Sound w) : Sound (step w a) := by
  cases a with
  | settle rows => exact sound.settle rows
  | lock startingBalance now =>
    change Sound (w.lock startingBalance now)
    unfold World.lock
    split
    · refine sound.of_holder rfl rfl le_rfl fun s held => ?_
      cases held
      rfl
    · exact sound
  | statement =>
    cases held : w.holder with
    | none => simpa [step, held] using sound
    | some s => simpa [step, held] using sound.statement held
  | commit =>
    cases held : w.holder with
    | none => simpa [step, held] using sound
    | some s =>
      have done : step w .commit = w.commit s := by rw [step, held, Option.elim_some]
      rw [done]
      unfold World.commit
      split
      · rename_i stage
        have opened : Opened w s := Ready.opened ⟨held, stage⟩ sound
        exact ⟨sound.unique, .inr opened.running, opened.fresh, opened.backed,
          fun _ none => by cases none⟩
      · exact sound
  | rollback => exact sound.of_holder rfl rfl le_rfl fun _ none => by cases none

theorem sound_run (actions : List Action) : Sound (run step {} actions) :=
  invariant sound_step sound_start

/-! A sync that no settlement interrupts misses nothing. -/

def Action.settles : Action → Bool
  | .settle _ => true
  | _ => false

/-- Every result with a profit is in the entries that a transaction sees, or still to be inserted.
-/
def Covered (w : World) : Prop :=
  ∀ s remaining, w.holder = some s → s.stage = .appending remaining →
    ∀ r ∈ w.results, r.pnl.isSome → r.pickId ∈ picks (w.seen s) ∨
      r.pickId ∈ remaining.map Due.pickId

theorem covered_statement {w : World} {s : Sync} (held : w.holder = some s) (covered : Covered w) :
    Covered (w.statement s) := by
  unfold World.statement
  cases stage : s.stage with
  | locked =>
    intro s' remaining held' stage'
    simp only [World.openBalance] at held'
    split at held' <;> (cases held'; cases stage')
  | opened =>
    intro s' remaining held' stage' r inside known
    cases held'
    cases stage'
    by_cases listed : r.pickId ∈ picks (w.seen s)
    · exact .inl listed
    · obtain ⟨pnl, found⟩ := Option.isSome_iff_exists.mp known
      have due : r.due = some ⟨r.pickId, pnl, r.settledAt⟩ := by
        rw [ResultRow.due, found, Option.map_some]
      exact .inr (List.mem_map.mpr ⟨_, mem_fetched.mpr ⟨r, inside, listed, due⟩, rfl⟩)
  | appending remaining =>
    cases remaining with
    | nil => exact covered
    | cons due rest =>
      intro s' remaining held' stage' r inside known
      have before := covered s _ held stage
      simp only [World.append] at held' inside ⊢
      split at held'
      · rename_i listed
        rw [if_pos listed] at inside ⊢
        cases held'
        cases stage'
        obtain old | first | later := (before r inside known).imp_right List.mem_cons.mp
        · exact .inl old
        · rw [first]
          exact .inl listed
        · exact .inr later
      · rename_i fresh
        rw [if_neg fresh] at inside ⊢
        cases held'
        cases stage'
        have seen : picks (w.ledger ++
            (s.pending ++ [⟨w.nextId, due.settledAt, .settledPnl, due.pnl,
            s.balance + due.pnl, some due.pickId⟩])) = picks (w.seen s) ++ [due.pickId] := by
          rw [← List.append_assoc, picks_concat]
          rfl
        simp only [World.insert, World.seen, seen]
        obtain old | first | later := (before r inside known).imp_right List.mem_cons.mp
        · exact .inl (List.mem_append_left _ old)
        · rw [first]
          exact .inl (List.mem_append_right _ (List.mem_singleton_self _))
        · exact .inr later

theorem covered_step (w : World) (a : Action) (covered : Covered w) (quiet : a.settles = false) :
    Covered (step w a) := by
  cases a with
  | settle rows => cases quiet
  | lock startingBalance now =>
    change Covered (w.lock startingBalance now)
    unfold World.lock
    split
    · intro s remaining held stage
      cases held
      cases stage
    · exact covered
  | statement =>
    cases held : w.holder with
    | none => simpa [step, held] using covered
    | some s => simpa [step, held] using covered_statement held covered
  | commit =>
    cases held : w.holder with
    | none => simpa [step, held] using covered
    | some s =>
      have done : step w .commit = w.commit s := by rw [step, held, Option.elim_some]
      rw [done]
      unfold World.commit
      split
      · exact fun _ _ none => by cases none
      · exact covered
  | rollback => exact fun _ _ none => by cases none

theorem pairs_perm {results : List ResultRow} {entries : List LedgerEntry}
    (unique : (results.map ResultRow.pickId).Nodup) (once : (picks entries).Nodup)
    (backed : Backed results entries)
    (all : ∀ r ∈ results, r.pnl.isSome → r.pickId ∈ picks entries) :
    (entries.filterMap fun e => e.pickId.map (·, e.amount)).Perm
      (results.filterMap fun r => r.pnl.map (r.pickId, ·)) := by
  have nodup : (entries.filterMap fun e => e.pickId.map (·, e.amount)).Nodup := by
    refine List.Nodup.of_map Prod.fst ?_
    rw [List.map_filterMap]
    refine (congrArg List.Nodup (List.filterMap_congr fun e _ => ?_)).mpr once
    cases e.pickId <;> rfl
  have nodup' : (results.filterMap fun r => r.pnl.map (r.pickId, ·)).Nodup := by
    refine List.Nodup.of_map Prod.fst ?_
    have kept : ((results.filterMap fun r => r.pnl.map (r.pickId, ·)).map Prod.fst) =
        (results.filter fun r => r.pnl.isSome).map ResultRow.pickId := by
      rw [List.map_filterMap, ← List.filterMap_eq_map, List.filterMap_filter]
      refine List.filterMap_congr fun r _ => ?_
      cases r.pnl <;> rfl
    rw [kept]
    exact (results.filter_sublist.map _).nodup unique
  refine (List.perm_ext_iff_of_nodup nodup nodup').mpr fun pair => ?_
  obtain ⟨pick, amount⟩ := pair
  simp only [List.mem_filterMap, Option.map_eq_some_iff, Prod.mk.injEq]
  constructor
  · rintro ⟨e, inside, p, own, rfl, rfl⟩
    obtain ⟨r, there, rfl, pnl⟩ := backed e inside p own
    exact ⟨r, there, e.amount, pnl, rfl, rfl⟩
  · rintro ⟨r, inside, p, pnl, rfl, rfl⟩
    obtain ⟨e, listed, own⟩ := List.mem_filterMap.mp (all r inside (by rw [pnl]; rfl))
    obtain ⟨r', there, same, pnl'⟩ := backed e listed r.pickId own
    obtain rfl := List.inj_on_of_nodup_map unique there inside same
    rw [pnl, Option.some.injEq] at pnl'
    exact ⟨e, listed, r'.pickId, own, rfl, pnl'.symm⟩

/-- The profits in the ledger add up to those of the results. -/
theorem total_of_covered {w : World} {s : Sync} (sound : Sound w) (covered : Covered w)
    (ready : Ready w s) :
    ∃ start last, (w.seen s).head? = some start ∧ (w.seen s).getLast? = some last ∧
      last.balanceAfter = start.balanceAfter + (w.results.filterMap ResultRow.pnl).sum := by
  have opened := ready.opened sound
  have all : ∀ r ∈ w.results, r.pnl.isSome → r.pickId ∈ picks (w.seen s) := by
    intro r inside known
    obtain listed | waiting := covered s [] ready.1 ready.2 r inside known
    · exact listed
    · cases waiting
  have perm := (pairs_perm sound.unique opened.running.once opened.backed all).map Prod.snd
  obtain ⟨start, rest, same, -, noPick, -, settled⟩ := opened.running.first
  have total := chain_total (same ▸ opened.running.chain)
  rw [← same] at total
  obtain ⟨last, ends, balance⟩ := Option.map_eq_some_iff.mp total
  refine ⟨start, last, by rw [same]; rfl, ends, ?_⟩
  have ledgerSide : ((w.seen s).filterMap fun e => e.pickId.map (·, e.amount)).map Prod.snd =
      rest.map LedgerEntry.amount := by
    rw [same, List.filterMap_cons_none (by rw [noPick]; rfl),
      List.map_filterMap, ← List.filterMap_eq_map]
    refine List.filterMap_congr fun e inside => ?_
    obtain ⟨p, own⟩ := Option.isSome_iff_exists.mp (settled e inside).2
    rw [own]
    rfl
  have resultSide : (w.results.filterMap fun r => r.pnl.map (r.pickId, ·)).map Prod.snd =
      w.results.filterMap ResultRow.pnl := by
    rw [List.map_filterMap]
    refine List.filterMap_congr fun r _ => ?_
    cases r.pnl <;> rfl
  rw [ledgerSide, resultSide] at perm
  rw [balance, perm.sum_eq]

theorem ledger_exact :
    (∀ actions, (run step {} actions).ledger = [] ∨ Running (run step {} actions).ledger) ∧
      (∀ actions s, Ready (run step {} actions) s →
        Running (run step {} (actions ++ [.commit])).ledger) ∧
      ∀ before during s, (run step {} before).holder = none →
        (∀ a ∈ during, a.settles = false) → Ready (run step {} (before ++ during)) s →
          ∃ start last, (run step {} (before ++ during ++ [.commit])).ledger.head? =
            some start ∧
            (run step {} (before ++ during ++ [.commit])).ledger.getLast? = some last ∧
              last.balanceAfter = start.balanceAfter +
                ((run step {} (before ++ during ++ [.commit])).results.filterMap
                  ResultRow.pnl).sum := by
  refine ⟨fun actions => (sound_run actions).ledger, fun actions s ready => ?_,
    fun before during s free quiet ready => ?_⟩
  · rw [run_append, run_cons, run_nil, ready.commit]
    exact (ready.opened (sound_run actions)).running
  · rw [run_append, run_cons, run_nil, ready.commit]
    have start : Covered (run step {} before) := fun s' _ held => by
      rw [free] at held
      cases held
    have quietly : Along step (fun _ a => a.settles = false) (run step {} before) during :=
      Along.of_forall fun a inside _ => quiet a inside
    have covered := quietly.invariant covered_step start
    rw [← run_append] at covered
    exact total_of_covered (sound_run (before ++ during)) covered ready

/-- Two results, the later one settled first, and the sync that enters them. -/
def weekend : List Action :=
  [.settle [⟨1, 8, some 450, 20⟩], .settle [⟨2, 7, some (-300), 10⟩, ⟨3, 9, none, 15⟩],
    .lock (some 1000) 30, .statement, .statement, .statement, .statement]

def weekendSync : Sync where
  startingBalance := 1000
  now := 30
  stage := .appending []
  balance := 100150
  pending :=
    [⟨0, 30, .startingBalance, 100000, 100000, none⟩,
      ⟨1, 10, .settledPnl, -300, 99700, some 7⟩, ⟨2, 20, .settledPnl, 450, 100150, some 8⟩]
  appended := 3

theorem weekend_exact :
    ∃ start last, (run step {} (weekend.take 2 ++ weekend.drop 2 ++ [.commit])).ledger.head? =
      some start ∧
      (run step {} (weekend.take 2 ++ weekend.drop 2 ++ [.commit])).ledger.getLast? = some last ∧
        last.balanceAfter = start.balanceAfter +
          ((run step {} (weekend.take 2 ++ weekend.drop 2 ++ [.commit])).results.filterMap
            ResultRow.pnl).sum :=
  ledger_exact.2.2 (weekend.take 2) (weekend.drop 2) weekendSync (by decide) (by decide) (by
    decide +kernel)

end SharpEvPicks.Maintenance
