import Mathlib.Data.List.Dedup
import SharpEvPicks.Ingestion.ProxyHealth

/-! The sessions that the match pages of a cycle share, `_ProxySessionPool` of
`app/ingestion/oddschecker.py`. A session is the number at which the factory made it, so that
`id(session)` is the session. -/
namespace SharpEvPicks.Ingestion.SessionPool

open Python Transition

/-- `_ProxySessionLease`, which is also its key. -/
structure Lease where
  index : Nat
  session : Nat
  deriving DecidableEq

structure Pool where
  proxies : Nat
  sessions : Dict Nat Nat := .empty
  leaseCounts : Dict Lease Nat := .empty
  retiredSessions : Dict Lease Nat := .empty
  cursor : Nat := 0
  warmed : List Lease := []

inductive PoolError where
  | empty | excluded | noSlot
  /-- The factory raised. -/
  | factory
  deriving DecidableEq

namespace Pool
variable (pool : Pool)

def rotation (excludeIndices : List Nat) : List Nat :=
  let start := pool.cursor % pool.proxies
  ((List.range pool.proxies).map fun k => (start + k) % pool.proxies).filter (· ∉ excludeIndices)

def lend (lease : Lease) : Pool :=
  { pool with leaseCounts := pool.leaseCounts.modify lease fun count => count.getD 0 + 1 }

def turned : Pool := { pool with cursor := pool.cursor + 1 }

/-- The lease of a slot, with a session that is made if there is none. -/
def leaseOf (made : Option Nat) (index : Nat) : Except PoolError Lease × Pool :=
  match pool.sessions.get? index with
  | some session => (.ok ⟨index, session⟩, pool.lend ⟨index, session⟩)
  | none =>
    match made with
    | none => (.error .factory, pool)
    | some session =>
      (.ok ⟨index, session⟩,
        { pool with sessions := pool.sessions.set index session }.lend ⟨index, session⟩)

/-- `acquire_lease`, with the session that the factory would make. The health of the proxies is
shared with others and only read here. -/
def acquireLease (excludeIndices : List Nat) (health : Option ProxyHealth.Registry) (now : Int)
    (made : Option Nat) : Except PoolError Lease × Pool :=
  if pool.proxies = 0 then (.error .empty, pool)
  else
    let order := pool.rotation excludeIndices
    if order = [] then (.error .excluded, pool.turned)
    else
      match (health.map fun registry => (registry.filterRotation order now).2).getD order with
      | [] => (.error .noSlot, pool.turned)
      | index :: _ => pool.turned.leaseOf made index

/-- `evict`, and the sessions that it closes. -/
def evict (lease : Lease) : Pool × List Nat :=
  if pool.sessions.get? lease.index = some lease.session then
    let left :=
      { pool with
        sessions := pool.sessions.pop lease.index
        warmed := pool.warmed.filter (· ≠ lease) }
    if 0 < (pool.leaseCounts.get? lease).getD 0 then
      ({ left with retiredSessions := pool.retiredSessions.set lease lease.session }, [])
    else (left, [lease.session])
  else (pool, [])

/-- `release`, and the sessions that it closes. -/
def release (lease : Lease) : Pool × List Nat :=
  let count := (pool.leaseCounts.get? lease).getD 0
  if count ≤ 1 then
    ({ pool with
       leaseCounts := pool.leaseCounts.pop lease
       retiredSessions := pool.retiredSessions.pop lease },
      (pool.retiredSessions.get? lease).toList)
  else ({ pool with leaseCounts := pool.leaseCounts.set lease (count - 1) }, [])

/-- `aclose`, and the sessions whose closing it gathers. -/
def aclose : Pool × List Nat :=
  ({ pool with sessions := .empty, leaseCounts := .empty, retiredSessions := .empty, warmed := [] },
    (pool.sessions.values ++ pool.retiredSessions.values).dedup)

def markWarmed (lease : Lease) : Pool := { pool with warmed := lease :: pool.warmed }

end Pool

/-! The pool among its borrowers. -/

structure World where
  pool : Pool
  /-- The slots of the sessions that the factory made. -/
  slots : List Nat := []
  issued : List Lease := []
  outstanding : List Lease := []
  evicted : List Nat := []
  /-- The sessions whose `close` was called, a session as often as it was. -/
  closed : List Nat := []
  /-- Gathered, but not called yet. -/
  gathered : List Nat := []
  finished : List Nat := []
  /-- How many sessions there were at the last `aclose`. -/
  shut : Nat := 0

inductive Action where
  | acquire (excludeIndices : List Nat)
      (health : Option ProxyHealth.Registry) (now : Int) (makes : Bool)
  | markWarmed (lease : Lease)
  | evict (lease : Lease)
  | release (lease : Lease)
  | aclose
  | beginClose (session : Nat)
  | finishClose (session : Nat)

namespace World
variable (w : World)

/-- What the factory returns next, if it does not raise. -/
def next (makes : Bool) : Option Nat := if makes then some w.slots.length else none

def acquired (result : Except PoolError Lease × Pool) : World :=
  match result.1 with
  | .error _ => { w with pool := result.2 }
  | .ok lease =>
    { w with
      pool := result.2
      slots := if lease.session = w.slots.length then w.slots ++ [lease.index] else w.slots
      issued := lease :: w.issued
      outstanding := lease :: w.outstanding }

def step : Action → World
  | .acquire excludeIndices health now makes =>
    w.acquired (w.pool.acquireLease excludeIndices health now (w.next makes))
  | .markWarmed lease => { w with pool := w.pool.markWarmed lease }
  | .evict lease =>
    { w with
      pool := (w.pool.evict lease).1
      evicted := if w.pool.sessions.get? lease.index = some lease.session then
        lease.session :: w.evicted else w.evicted
      closed := w.closed ++ (w.pool.evict lease).2 }
  | .release lease =>
    { w with
      pool := (w.pool.release lease).1
      outstanding := w.outstanding.erase lease
      closed := w.closed ++ (w.pool.release lease).2 }
  | .aclose =>
    { w with
      pool := w.pool.aclose.1
      gathered := w.gathered ++ w.pool.aclose.2
      shut := w.slots.length }
  | .beginClose session =>
    { w with gathered := w.gathered.erase session, closed := w.closed ++ [session] }
  | .finishClose session => { w with finished := session :: w.finished }

/-- Leases are those of the pool, each is released once, and a close runs after it was asked for. -/
def Allowed (w : World) : Action → Prop
  | .acquire _ _ _ _ | .aclose => True
  | .markWarmed lease | .evict lease => lease ∈ w.issued
  | .release lease => lease ∈ w.outstanding
  | .beginClose session => session ∈ w.gathered
  | .finishClose session => session ∈ w.closed

instance : ∀ action, Decidable (w.Allowed action)
  | .acquire _ _ _ _ | .aclose => inferInstanceAs (Decidable True)
  | .markWarmed lease | .evict lease => inferInstanceAs (Decidable (lease ∈ w.issued))
  | .release lease => inferInstanceAs (Decidable (lease ∈ w.outstanding))
  | .beginClose session => inferInstanceAs (Decidable (session ∈ w.gathered))
  | .finishClose session => inferInstanceAs (Decidable (session ∈ w.closed))

end World

def start (proxies : Nat) : World := { pool := { proxies := proxies } }

/-! What an acquisition does. -/

/-- The refused keep the tables of the pool; the others share the session of the slot or have one
made. -/
inductive Acquired (pool : Pool) (made : Option Nat) : Except PoolError Lease × Pool → Prop
  | refused (e : PoolError) (cursor : Nat) : Acquired pool made
      (.error e, { pool with cursor := cursor })
  | shared (index session : Nat) (held : pool.sessions.get? index = some session) :
      Acquired pool made (.ok ⟨index, session⟩, pool.turned.lend ⟨index, session⟩)
  | fresh (index session : Nat) (free : pool.sessions.get? index = none)
      (makes : made = some session) :
      Acquired pool made (.ok ⟨index, session⟩,
        { pool.turned with sessions := pool.sessions.set index session }.lend ⟨index, session⟩)

theorem acquired_leaseOf (pool : Pool) (made : Option Nat) (index : Nat) :
    Acquired pool made (pool.turned.leaseOf made index) := by
  unfold Pool.leaseOf
  cases held : pool.turned.sessions.get? index with
  | some session => exact .shared index session held
  | none =>
    cases made with
    | none => exact .refused .factory _
    | some session => exact .fresh index session held rfl

theorem acquired_acquireLease (pool : Pool) (excludeIndices : List Nat)
    (health : Option ProxyHealth.Registry) (now : Int) (made : Option Nat) :
      Acquired pool made (pool.acquireLease excludeIndices health now made) := by
  unfold Pool.acquireLease
  split
  · exact .refused .empty pool.cursor
  · dsimp only
    split
    · exact .refused .excluded _
    · split
      · exact .refused .noSlot _
      · exact acquired_leaseOf pool made _

/-! What is kept. -/

structure Inv (w : World) : Prop where
  held : ∀ i s, w.pool.sessions.get? i = some s ↔ w.slots[s]? = some i ∧ w.shut ≤ s ∧
    s ∉ w.evicted
  counted : ∀ l, (w.pool.leaseCounts.get? l).getD 0 = if w.shut ≤ l.session then
    w.outstanding.count l else 0
  retired : ∀ l s, w.pool.retiredSessions.get? l = some s ↔
    s = l.session ∧ w.shut ≤ s ∧ s ∈ w.evicted ∧ l ∈ w.outstanding
  issued : ∀ l ∈ w.issued, w.slots[l.session]? = some l.index
  lent : ∀ l ∈ w.outstanding, l ∈ w.issued
  made : ∀ s ∈ w.evicted, s < w.slots.length
  past : w.shut ≤ w.slots.length
  gathered : ∀ s ∈ w.gathered, s < w.shut
  closed : ∀ s, w.shut ≤ s →
    w.closed.count s = if s ∈ w.evicted ∧ ∀ l ∈ w.outstanding, l.session ≠ s then 1 else 0
  shut : ∀ s < w.shut, (w.closed ++ w.gathered).count s = 1

theorem inv_start (proxies : Nat) : Inv (start proxies) where
  held i s := by simp [start]
  counted l := by simp [start]
  retired l s := by simp [start]
  issued l inside := by cases inside
  lent l inside := by cases inside
  made s inside := by cases inside
  past := le_rfl
  gathered s inside := by cases inside
  closed s _ := by simp [start]
  shut s inside := absurd inside (Nat.not_lt_zero s)

namespace Inv
variable {w : World}

/-- A session is lent under one lease. -/
theorem lease_eq (inv : Inv w) {l l' : Lease} (inside : l ∈ w.issued) (inside' : l' ∈ w.issued)
    (same : l.session = l'.session) : l = l' := by
  have slot := inv.issued l inside
  rw [same, inv.issued l' inside'] at slot
  cases l
  cases l'
  simp_all

theorem turn (inv : Inv w) (cursor : Nat) :
    Inv { w with pool := { w.pool with cursor := cursor } } :=
  ⟨inv.held, inv.counted, inv.retired, inv.issued, inv.lent, inv.made, inv.past, inv.gathered,
    inv.closed, inv.shut⟩

/-- A session is made in a free slot. -/
theorem make (inv : Inv w) {index : Nat} (free : w.pool.sessions.get? index = none) :
    Inv { w with
      pool := { w.pool with sessions := w.pool.sessions.set index w.slots.length }
      slots := w.slots ++ [index] } where
  held i s := by
    rw [Dict.get?_set]
    have new : w.slots.length ∉ w.evicted := fun gone => (inv.made _ gone).ne rfl
    by_cases here : i = index
    · subst here
      rw [if_pos rfl]
      constructor
      · rintro ⟨rfl⟩
        exact ⟨by simp, inv.past, new⟩
      · rintro ⟨slot, open_, kept⟩
        by_cases old : s < w.slots.length
        · rw [List.getElem?_append_left old] at slot
          have held := (inv.held i s).mpr ⟨slot, open_, kept⟩
          rw [free] at held
          cases held
        · have bound := (List.getElem?_eq_some_iff.mp slot).1
          rw [List.length_append, List.length_singleton] at bound
          exact congrArg some (by omega)
    · rw [if_neg here, inv.held]
      refine and_congr_left fun _ => ?_
      by_cases old : s < w.slots.length
      · rw [List.getElem?_append_left old]
      · rw [List.getElem?_eq_none (not_lt.mp old), List.getElem?_append_right (not_lt.mp old)]
        refine iff_of_false (by simp) ?_
        intro slot
        have only := List.mem_singleton.mp (List.mem_of_getElem? slot)
        exact here only
  counted := inv.counted
  retired := inv.retired
  issued l inside := by
    have slot := inv.issued l inside
    rw [List.getElem?_append_left (List.getElem?_eq_some_iff.mp slot).1]
    exact slot
  lent := inv.lent
  made s gone := by
    rw [List.length_append]
    exact (inv.made s gone).trans_le (Nat.le_add_right _ _)
  past := by
    rw [List.length_append]
    exact inv.past.trans (Nat.le_add_right _ _)
  gathered := inv.gathered
  closed := inv.closed
  shut := inv.shut

/-- The session of a slot is lent once more. -/
theorem lend (inv : Inv w) {lease : Lease}
    (held : w.pool.sessions.get? lease.index = some lease.session) :
    Inv { w with
      pool := w.pool.lend lease
      issued := lease :: w.issued
      outstanding := lease :: w.outstanding } := by
  obtain ⟨slot, open_, kept⟩ := (inv.held _ _).mp held
  have other {l : Lease} (gone : l.session ∈ w.evicted) : l ≠ lease := by
    rintro rfl
    exact kept gone
  refine
    { held := inv.held
      counted := ?_
      retired := ?_
      issued := ?_
      lent := ?_
      made := inv.made
      past := inv.past
      gathered := inv.gathered
      closed := ?_
      shut := inv.shut }
  · intro l
    simp only [Pool.lend, Dict.get?_modify, List.count_cons, beq_iff_eq]
    by_cases own : l = lease
    · subst own
      rw [if_pos rfl, if_pos rfl, Option.getD_some, inv.counted, if_pos open_, if_pos open_]
    · rw [if_neg own, if_neg (Ne.symm own), inv.counted, Nat.add_zero]
  · intro l s
    simp only [Pool.lend]
    rw [inv.retired, List.mem_cons]
    constructor
    · rintro ⟨rfl, past, gone, inside⟩
      exact ⟨rfl, past, gone, .inr inside⟩
    · rintro ⟨rfl, past, gone, inside⟩
      exact ⟨rfl, past, gone, inside.resolve_left (other gone)⟩
  · intro l inside
    obtain rfl | old := List.mem_cons.mp inside
    · exact slot
    · exact inv.issued l old
  · intro l inside
    exact List.mem_cons.mpr ((List.mem_cons.mp inside).imp_right (inv.lent l))
  · intro s past
    rw [inv.closed s past]
    congr 1
    rw [eq_iff_iff]
    refine and_congr_right fun gone => ?_
    rw [List.forall_mem_cons, and_iff_right]
    rintro rfl
    exact kept gone

theorem acquire (inv : Inv w) {makes : Bool} {result : Except PoolError Lease × Pool}
    (done : Acquired w.pool (w.next makes) result) : Inv (w.acquired result) := by
  cases done with
  | refused e cursor => exact inv.turn cursor
  | shared index session held =>
    have known := (List.getElem?_eq_some_iff.mp ((inv.held index session).mp held).1).1
    have lent := @lend _ (inv.turn (w.pool.cursor + 1)) ⟨index, session⟩ held
    unfold World.acquired
    simp only [if_neg known.ne]
    exact lent
  | fresh index session free made =>
    obtain rfl : w.slots.length = session := by
      unfold World.next at made
      split at made
      · exact Option.some.inj made
      · cases made
    have new := (inv.turn (w.pool.cursor + 1)).make free
    have lent := @lend _ new ⟨index, w.slots.length⟩ (Dict.get?_set_self _ _ _)
    unfold World.acquired
    simp only [if_pos]
    exact lent

/-- A session that leaves its slot goes to its borrowers, or is closed if it has none. -/
theorem evict (inv : Inv w) {lease : Lease} (inside : lease ∈ w.issued) :
    Inv (w.step (.evict lease)) := by
  simp only [World.step]
  unfold Pool.evict
  by_cases held : w.pool.sessions.get? lease.index = some lease.session
  swap
  · simp only [if_neg held, List.append_nil]
    exact inv
  obtain ⟨slot, open_, kept⟩ := (inv.held _ _).mp held
  have slots : ∀ i s, (w.pool.sessions.pop lease.index).get? i = some s ↔
      w.slots[s]? = some i ∧ w.shut ≤ s ∧ s ∉ lease.session :: w.evicted := by
    intro i s
    rw [Dict.get?_pop, List.mem_cons, not_or]
    by_cases here : i = lease.index
    · rw [if_pos here, here]
      refine iff_of_false (by simp) ?_
      rintro ⟨own, past, other, gone⟩
      have now_ := (inv.held _ _).mpr ⟨own, past, gone⟩
      rw [held] at now_
      exact other (Option.some.inj now_).symm
    · rw [if_neg here, inv.held]
      refine and_congr_right fun own => and_congr_right fun _ => ?_
      rw [and_iff_right]
      rintro rfl
      rw [slot] at own
      exact here (Option.some.inj own).symm
  have unique {l : Lease} (lent : l ∈ w.outstanding) (same : l.session = lease.session) :
      l = lease :=
    inv.lease_eq (inv.lent l lent) inside same
  have closings {s : Nat} (past : w.shut ≤ s) (other : s ≠ lease.session) : w.closed.count s =
      if s ∈ lease.session :: w.evicted ∧ ∀ l ∈ w.outstanding, l.session ≠ s then 1
        else 0 := by
    rw [inv.closed s past]
    congr 1
    rw [eq_iff_iff, List.mem_cons, or_iff_right other]
  have unclosed : w.closed.count lease.session = 0 := by
    rw [inv.closed _ open_, if_neg fun both => kept both.1]
  simp only [if_pos held, inv.counted, if_pos open_]
  by_cases lent : 0 < w.outstanding.count lease
  · simp only [if_pos lent, List.append_nil]
    have borrowed : lease ∈ w.outstanding := List.count_pos_iff.mp lent
    refine
      { held := slots
        counted := inv.counted
        retired := ?_
        issued := inv.issued
        lent := inv.lent
        made := ?_
        past := inv.past
        gathered := inv.gathered
        closed := ?_
        shut := inv.shut }
    · intro l s
      rw [Dict.get?_set]
      by_cases own : l = lease
      · subst own
        rw [if_pos rfl, Option.some.injEq]
        constructor
        · rintro rfl
          exact ⟨rfl, open_, List.mem_cons_self, borrowed⟩
        · rintro ⟨rfl, -, -, -⟩
          rfl
      · rw [if_neg own, inv.retired, List.mem_cons]
        refine and_congr_right fun same => and_congr_right fun _ => and_congr_left fun out => ?_
        rw [or_iff_right]
        rintro rfl
        exact own (unique out same.symm)
    · intro s gone
      obtain rfl | old := List.mem_cons.mp gone
      · exact (List.getElem?_eq_some_iff.mp slot).1
      · exact inv.made s old
    · intro s past
      by_cases own : s = lease.session
      · subst own
        rw [unclosed, if_neg fun both => both.2 lease borrowed rfl]
      · exact closings past own
  · simp only [if_neg lent]
    have free {l : Lease} (out : l ∈ w.outstanding) : l.session ≠ lease.session := by
      intro same
      rw [unique out same] at out
      exact lent (List.count_pos_iff.mpr out)
    refine
      { held := slots
        counted := inv.counted
        retired := ?_
        issued := inv.issued
        lent := inv.lent
        made := ?_
        past := inv.past
        gathered := inv.gathered
        closed := ?_
        shut := ?_ }
    · intro l s
      rw [inv.retired, List.mem_cons]
      refine and_congr_right fun same => and_congr_right fun _ => and_congr_left fun out => ?_
      rw [or_iff_right]
      rintro rfl
      exact free out same.symm
    · intro s gone
      obtain rfl | old := List.mem_cons.mp gone
      · exact (List.getElem?_eq_some_iff.mp slot).1
      · exact inv.made s old
    · intro s past
      rw [List.count_append, List.count_singleton]
      by_cases own : s = lease.session
      · subst own
        rw [unclosed, if_pos (beq_self_eq_true _),
          if_pos ⟨List.mem_cons_self, fun l out => free out⟩]
      · rw [if_neg (by simpa using Ne.symm own), Nat.add_zero]
        exact closings past own
    · intro s before
      have other : lease.session ≠ s := fun same => absurd (same ▸ before) (not_lt.mpr open_)
      have still := inv.shut s before
      rw [List.count_append] at still ⊢
      rw [List.count_append, List.count_singleton, if_neg (by simpa using other), Nat.add_zero]
      exact still

theorem unleased_erase {out : List Lease} {lease : Lease} {s : Nat} (other : lease.session ≠ s) :
    (∀ l ∈ out.erase lease, l.session ≠ s) ↔ ∀ l ∈ out, l.session ≠ s := by
  constructor
  · intro free l inside
    by_cases own : l = lease
    · rw [own]
      exact other
    · exact free l ((List.mem_erase_of_ne own).mpr inside)
  · intro free l inside
    exact free l (List.mem_of_mem_erase inside)

/-- The last borrower of an evicted session closes it. -/
theorem release (inv : Inv w) {lease : Lease} (inside : lease ∈ w.outstanding) :
    Inv (w.step (.release lease)) := by
  simp only [World.step]
  unfold Pool.release
  have elsewhere {s : Nat} (other : lease.session ≠ s) (past : w.shut ≤ s) : w.closed.count s =
      if s ∈ w.evicted ∧ ∀ l ∈ w.outstanding.erase lease, l.session ≠ s then 1
        else 0 := by
    rw [inv.closed s past]
    congr 1
    rw [eq_iff_iff, unleased_erase other]
  have counts {l : Lease} (other : l ≠ lease) :
      (w.outstanding.erase lease).count l = w.outstanding.count l :=
    List.count_erase_of_ne other
  have lent : ∀ l ∈ w.outstanding.erase lease, l ∈ w.issued :=
    fun l out => inv.lent l (List.mem_of_mem_erase out)
  by_cases few : (w.pool.leaseCounts.get? lease).getD 0 ≤ 1
  · simp only [if_pos few]
    have gone (open_ : w.shut ≤ lease.session) : lease ∉ w.outstanding.erase lease := by
      rw [inv.counted, if_pos open_] at few
      rw [← List.count_pos_iff, List.count_erase_self]
      omega
    have closing {s : Nat} (other : lease.session ≠ s) :
        (w.pool.retiredSessions.get? lease).toList.count s = 0 := by
      cases retired : w.pool.retiredSessions.get? lease with
      | none => rfl
      | some s' =>
        obtain ⟨rfl, -, -, -⟩ := (inv.retired _ _).mp retired
        exact List.count_eq_zero.mpr fun there => other (List.mem_singleton.mp there).symm
    refine
      { held := inv.held
        counted := ?_
        retired := ?_
        issued := inv.issued
        lent := lent
        made := inv.made
        past := inv.past
        gathered := inv.gathered
        closed := ?_
        shut := ?_ }
    · intro l
      rw [Dict.get?_pop]
      by_cases own : l = lease
      · subst own
        rw [if_pos rfl, Option.getD_none]
        split
        · rename_i open_
          exact (List.count_eq_zero.mpr (gone open_)).symm
        · rfl
      · rw [if_neg own, inv.counted, counts own]
    · intro l s
      rw [Dict.get?_pop]
      by_cases own : l = lease
      · subst own
        rw [if_pos rfl]
        refine iff_of_false (by simp) ?_
        rintro ⟨rfl, open_, -, out⟩
        exact gone open_ out
      · rw [if_neg own, inv.retired, List.mem_erase_of_ne own]
    · intro s past
      rw [List.count_append]
      by_cases own : lease.session = s
      · subst own
        have last : ∀ l ∈ w.outstanding.erase lease, l.session ≠ lease.session := by
          intro l out same
          have only := inv.lease_eq (lent l out) (inv.lent lease inside) same
          exact gone past (only ▸ out)
        have open_ : w.closed.count lease.session = 0 := by
          rw [inv.closed _ past, if_neg fun both => both.2 lease inside rfl]
        rw [open_, Nat.zero_add]
        by_cases evicted : lease.session ∈ w.evicted
        · rw [(inv.retired lease lease.session).mpr ⟨rfl, past, evicted, inside⟩,
            if_pos ⟨evicted, last⟩]
          simp
        · rw [if_neg fun both => evicted both.1]
          cases retired : w.pool.retiredSessions.get? lease with
          | none => rfl
          | some s' =>
            obtain ⟨rfl, -, there, -⟩ := (inv.retired _ _).mp retired
            exact absurd there evicted
      · rw [closing own, Nat.add_zero]
        exact elsewhere own past
    · intro s before
      have still := inv.shut s before
      rw [List.count_append] at still ⊢
      by_cases own : lease.session = s
      · subst own
        cases retired : w.pool.retiredSessions.get? lease with
        | none => simpa using still
        | some s' => exact absurd ((inv.retired _ _).mp
            retired).2.1 (((inv.retired _ _).mp retired).1 ▸ not_le.mpr before)
      · rw [List.count_append, closing own, Nat.add_zero]
        exact still
  · simp only [if_neg few, List.append_nil]
    have open_ : w.shut ≤ lease.session := by
      by_contra past
      rw [inv.counted, if_neg past] at few
      omega
    have many := few
    rw [inv.counted, if_pos open_] at many
    have stays : lease ∈ w.outstanding.erase lease := by
      rw [← List.count_pos_iff, List.count_erase_self]
      omega
    have same (l : Lease) : l ∈ w.outstanding.erase lease ↔ l ∈ w.outstanding := by
      by_cases own : l = lease
      · subst own
        exact iff_of_true stays inside
      · exact List.mem_erase_of_ne own
    refine
      { held := inv.held
        counted := ?_
        retired := ?_
        issued := inv.issued
        lent := lent
        made := inv.made
        past := inv.past
        gathered := inv.gathered
        closed := ?_
        shut := inv.shut }
    · intro l
      rw [Dict.get?_set]
      by_cases own : l = lease
      · subst own
        rw [if_pos rfl, Option.getD_some, inv.counted, if_pos open_, if_pos open_,
          List.count_erase_self]
      · rw [if_neg own, inv.counted, counts own]
    · intro l s
      rw [inv.retired, same]
    · intro s past
      rw [inv.closed s past]
      simp only [same]

/-- `aclose` takes what is in the slots and what waits for its borrowers. -/
theorem mem_aclose (inv : Inv w) (s : Nat) :
    s ∈ w.pool.sessions.values ++ w.pool.retiredSessions.values ↔
    s < w.slots.length ∧ w.shut ≤ s ∧
    (s ∈ w.evicted → ∃ l ∈ w.outstanding, l.session = s) := by
  rw [List.mem_append, Dict.mem_values, Dict.mem_values]
  constructor
  · rintro (⟨i, held⟩ | ⟨l, retired⟩)
    · obtain ⟨slot, past, kept⟩ := (inv.held i s).mp held
      exact ⟨(List.getElem?_eq_some_iff.mp slot).1, past, fun gone => absurd gone kept⟩
    · obtain ⟨rfl, past, gone, out⟩ := (inv.retired l s).mp retired
      exact ⟨inv.made _ gone, past, fun _ => ⟨l, out, rfl⟩⟩
  · rintro ⟨known, past, lent⟩
    by_cases gone : s ∈ w.evicted
    · obtain ⟨l, out, rfl⟩ := lent gone
      exact .inr ⟨l, (inv.retired l _).mpr ⟨rfl, past, gone, out⟩⟩
    · exact .inl ⟨w.slots[s],
        (inv.held _ _).mpr ⟨List.getElem?_eq_getElem known, past, gone⟩⟩

theorem aclose (inv : Inv w) : Inv (w.step .aclose) where
  held i s := by
    refine iff_of_false (by simp [World.step, Pool.aclose]) ?_
    rintro ⟨slot, past, -⟩
    exact absurd (List.getElem?_eq_some_iff.mp slot).1 (not_lt.mpr past)
  counted l := by
    by_cases past : (w.step .aclose).shut ≤ l.session
    · rw [if_pos past]
      refine (List.count_eq_zero.mpr fun out => ?_).symm
      have slot := inv.issued l (inv.lent l out)
      exact absurd (List.getElem?_eq_some_iff.mp slot).1 (not_lt.mpr past)
    · rw [if_neg past]
      rfl
  retired l s := by
    refine iff_of_false (by simp [World.step, Pool.aclose]) ?_
    rintro ⟨-, past, gone, -⟩
    exact absurd (inv.made s gone) (not_lt.mpr past)
  issued := inv.issued
  lent := inv.lent
  made := inv.made
  past := le_rfl
  gathered s inside := by
    obtain old | new := List.mem_append.mp inside
    · exact (inv.gathered s old).trans_le inv.past
    · exact ((inv.mem_aclose s).mp (List.mem_dedup.mp new)).1
  closed s past := inv.closed s (inv.past.trans past)
  shut s before := by
    simp only [World.step, Pool.aclose]
    rw [List.count_append, List.count_append, List.count_dedup]
    by_cases earlier : s < w.shut
    · have still := inv.shut s earlier
      rw [List.count_append] at still
      rw [if_neg fun inside => absurd earlier (not_lt.mpr ((inv.mem_aclose s).mp inside).2.1),
        Nat.add_zero]
      exact still
    · have past := not_lt.mp earlier
      have ungathered : w.gathered.count s = 0 :=
        List.count_eq_zero.mpr fun there => earlier (inv.gathered s there)
      rw [ungathered, Nat.zero_add, inv.closed s past]
      by_cases over_ : s ∈ w.evicted ∧ ∀ l ∈ w.outstanding, l.session ≠ s
      · rw [if_pos over_, if_neg]
        intro inside
        obtain ⟨l, out, own⟩ := ((inv.mem_aclose s).mp inside).2.2 over_.1
        exact over_.2 l out own
      · rw [if_neg over_, if_pos]
        refine (inv.mem_aclose s).mpr ⟨before, past, fun gone => ?_⟩
        by_contra unlent
        exact over_ ⟨gone, fun l out own => unlent ⟨l, out, own⟩⟩

theorem beginClose (inv : Inv w) {session : Nat} (inside : session ∈ w.gathered) :
    Inv (w.step (.beginClose session)) where
  held := inv.held
  counted := inv.counted
  retired := inv.retired
  issued := inv.issued
  lent := inv.lent
  made := inv.made
  past := inv.past
  gathered s there := inv.gathered s (List.mem_of_mem_erase there)
  closed s past := by
    have other : s ∉ [session] := by
      intro own
      rw [List.mem_singleton.mp own] at past
      exact absurd (inv.gathered session inside) (not_lt.mpr past)
    simp only [World.step]
    rw [List.count_append, List.count_eq_zero.mpr other, Nat.add_zero]
    exact inv.closed s past
  shut s before := by
    have moved : (w.closed ++ [session] ++ w.gathered.erase session).Perm
        (w.closed ++ w.gathered) := by
      rw [List.append_assoc]
      exact (List.perm_cons_erase inside).symm.append_left _
    exact (moved.count_eq s).trans (inv.shut s before)

theorem step (inv : Inv w) (action : Action) (allowed : w.Allowed action) :
    Inv (w.step action) := by
  cases action with
  | acquire excludeIndices health now makes => exact inv.acquire (acquired_acquireLease _ _ _ _ _)
  | markWarmed lease =>
    exact ⟨inv.held, inv.counted, inv.retired, inv.issued, inv.lent, inv.made, inv.past,
      inv.gathered, inv.closed, inv.shut⟩
  | evict lease => exact inv.evict allowed
  | release lease => exact inv.release allowed
  | aclose => exact inv.aclose
  | beginClose session => exact inv.beginClose allowed
  | finishClose session =>
    exact ⟨inv.held, inv.counted, inv.retired, inv.issued, inv.lent, inv.made, inv.past,
      inv.gathered, inv.closed, inv.shut⟩

end Inv

/-! What it comes to. -/

/-- Sessions from `shut` on were made after the last `aclose`. -/
structure Sound (w : World) : Prop where
  unleased : ∀ l ∈ w.outstanding, w.shut ≤ l.session → l.session ∉ w.closed
  gone : ∀ excludeIndices health now makes lease,
    (w.pool.acquireLease excludeIndices health now (w.next makes)).1 = .ok lease →
      lease.session ∉ w.evicted
  once : ∀ s ∈ w.evicted, w.shut ≤ s →
    w.closed.count s = if ∃ l ∈ w.outstanding, l.session = s then 0 else 1
  kept : ∀ s ∉ w.evicted, w.shut ≤ s → s ∉ w.closed
  shut : ∀ s < w.shut, (w.closed ++ w.gathered).count s = 1

theorem Inv.sound {w : World} (inv : Inv w) : Sound w where
  unleased l out past there := by
    have never : w.closed.count l.session = 0 := by
      rw [inv.closed _ past, if_neg fun both => both.2 l out rfl]
    exact List.count_eq_zero.mp never there
  gone excludeIndices health now makes lease given there := by
    have done := acquired_acquireLease w.pool excludeIndices health now (w.next makes)
    generalize w.pool.acquireLease excludeIndices health now (w.next makes) = result at done given
    cases done with
    | refused e cursor => cases given
    | shared index session held =>
      cases given
      exact ((inv.held index session).mp held).2.2 there
    | fresh index session free made =>
      cases given
      unfold World.next at made
      split at made
      · cases made
        exact (inv.made _ there).ne rfl
      · cases made
  once s gone past := by
    rw [inv.closed s past]
    by_cases lent : ∃ l ∈ w.outstanding, l.session = s
    · obtain ⟨l, out, own⟩ := lent
      rw [if_neg fun both => both.2 l out own, if_pos ⟨l, out, own⟩]
    · rw [if_neg lent, if_pos ⟨gone, fun l out own => lent ⟨l, out, own⟩⟩]
  kept s kept past := by
    rw [← List.count_eq_zero, inv.closed s past, if_neg fun both => kept both.1]
  shut := inv.shut

/-- Over every order of acquisitions, evictions, releases and closes. -/
theorem sessions_sound (proxies : Nat) (actions : List Action)
    (allowed : Along World.step World.Allowed (start proxies) actions) :
    Sound (run World.step (start proxies) actions) := by
  have keeps (w : World) (action : Action) (inv : Inv w) (allowed : w.Allowed action) :
      Inv (w.step action) :=
    inv.step action allowed
  exact (allowed.invariant keeps (inv_start proxies)).sound

def twoBorrowers : List Action :=
  [.acquire [] none 0 true, .acquire [] none 0 true, .evict ⟨0, 0⟩, .acquire [] none 0 true,
    .release ⟨0, 0⟩,
    .evict ⟨0, 0⟩, .release ⟨0, 0⟩, .finishClose 0, .aclose, .release ⟨0, 1⟩,
      .beginClose 1]

theorem sessions_sound_twoBorrowers : Sound (run World.step (start 1) twoBorrowers) :=
  sessions_sound 1 twoBorrowers (by decide)

end SharpEvPicks.Ingestion.SessionPool
