import Mathlib.Data.Finset.Card
import SharpEvPicks.Clv.OffWindow

/-! No open pick starves off the window: the cap is a round robin within a band. -/
namespace SharpEvPicks.Clv.OffWindow

open Python Ingestion Transition

/-! The order of one cycle. -/

section Order
variable {rows : List Pick} {now : Option ℚ} {since : ℚ} {ref other : Str}

theorem sortKey_pairwise : (orderOffwindowRefs rows now).Pairwise fun a b =>
    sortKey rows now a ≤ sortKey rows now b :=
  sortedBy_pairwise _ _

theorem mem_orderOffwindowRefs : ref ∈ orderOffwindowRefs rows now ↔
    ∃ row ∈ rows, row.externalRef = ref :=
  mem_sortedBy.trans mem_keys_groupsOf

theorem orderOffwindowRefs_nodup : (orderOffwindowRefs rows now).Nodup :=
  (List.perm_insertionSort _ _).nodup_iff.mpr (groupsOf Pick.externalRef rows).nodup

theorem mem_attempts {t : ℚ} : t ∈ attempts rows ref ↔
    ∃ row ∈ rows, row.externalRef = ref ∧ row.revalidationAttemptedAt = some t := by
  simp [attempts, and_assoc]

/-- No attempt of the row is later. -/
def Pick.Stale (since : ℚ) (pick : Pick) : Prop :=
  ∀ t, pick.revalidationAttemptedAt = some t → t ≤ since

/-- What goes before a stale event of its band, or of a better one, is stale itself. -/
theorem exists_stale (listed : other ∈ orderOffwindowRefs rows now)
    (before : sortKey rows now other ≤ sortKey rows now ref)
    (level : ¬ band rows now other < band rows now ref)
    (stale : ∀ row ∈ rows, row.externalRef = ref → row.Stale since) :
    ∃ row ∈ rows, row.externalRef = other ∧ row.Stale since := by
  obtain better | ⟨-, turn⟩ := Prod.Lex.toLex_le_toLex.mp before
  · exact absurd better level
  obtain ⟨row, inside, named⟩ := mem_orderOffwindowRefs.mp listed
  by_cases tried : attempts rows other = []
  · refine ⟨row, inside, named, fun t stamp => ?_⟩
    have there := mem_attempts.mpr ⟨row, inside, named, stamp⟩
    rw [tried] at there
    cases there
  · rw [Prod.Lex.toLex_le_toLex] at turn
    have also : attempts rows ref ≠ [] := by
      intro none
      have late : true < false := by simpa [tried, none] using turn
      exact absurd late (by decide)
    cases least : (attempts rows ref).min? with
    | none => exact absurd (List.min?_eq_none_iff.mp least) also
    | some t =>
      cases first : (attempts rows other).min? with
      | none => exact absurd (List.min?_eq_none_iff.mp first) tried
      | some s =>
        have earlier : s ≤ t := by simpa [tried, also, least, first] using turn
        obtain ⟨row', inside', named', stamp'⟩ := mem_attempts.mp (List.min?_mem least)
        obtain ⟨row'', inside'', named'', stamp''⟩ := mem_attempts.mp (List.min?_mem first)
        refine ⟨row'', inside'', named'', fun u stamped => ?_⟩
        cases stamp''.symm.trans stamped
        exact earlier.trans (stale row' inside' named' t stamp')

end Order

/-- What a prefix leaves out comes after all of it. -/
theorem take_before {α : Type*} {R : α → α → Prop} {l : List α} (sorted : l.Pairwise R)
    {x : α} {n : Nat} (inside : x ∈ l) (out : x ∉ l.take n) :
      (l.take n).length = n ∧ ∀ y ∈ l.take n, R y x := by
  have whole := List.take_append_drop n l
  have after : x ∈ l.drop n := by
    rw [← whole] at inside
    exact (List.mem_append.mp inside).resolve_left out
  constructor
  · have some_ := List.length_pos_of_mem after
    rw [List.length_drop] at some_
    rw [List.length_take]
    omega
  · rw [← whole] at sorted
    intro y early
    exact (List.pairwise_append.mp sorted).2.2 y early x after

section Candidates
variable [CaseMaps] [UrlText] {cycle : Cycle} {since : ℚ} {ref : Str} {ahead : Nat}

theorem candidates_sublist :
    cycle.candidates.Sublist (orderOffwindowRefs cycle.rows (some cycle.now)) := by
  unfold Cycle.candidates offwindowCandidates
  dsimp only
  split
  · exact List.filter_sublist
  · exact List.filter_sublist
  · exact List.filter_sublist.trans List.filter_sublist

/-- A link for each place that is left at the band of the event passed over, and a stale row for
each of them. -/
theorem exists_tickets (past : passesOver ref ahead cycle) (out : ref ∉ cycle.links)
    (stale : ∀ row ∈ cycle.rows, row.externalRef = ref → row.Stale since)
    (unique : ∀ p ∈ cycle.rows, ∀ q ∈ cycle.rows, p.id = q.id → p = q) :
    ∃ tickets : Finset Nat, offwindowLinkCap - ahead ≤ tickets.card ∧
      ∀ i ∈ tickets, ∃ row ∈ cycle.rows, row.id = i ∧ row.externalRef ∈ cycle.links ∧
        row.Stale since := by
  obtain ⟨eligible, few⟩ := Bool.and_eq_true_iff.mp past
  have sublist : cycle.candidates.Sublist (orderOffwindowRefs cycle.rows (some cycle.now)) :=
    candidates_sublist
  have sorted := sortKey_pairwise.sublist sublist
  obtain ⟨full, before⟩ := take_before sorted (of_decide_eq_true eligible) out
  let better (other : Str) : Bool :=
    band cycle.rows (some cycle.now) other < band cycle.rows (some cycle.now) ref
  have count : offwindowLinkCap - ahead ≤
      (cycle.links.filter fun other => !better other).length := by
    have kept : cycle.links.countP better ≤ ahead :=
      ((List.take_sublist _ _).countP_le).trans (of_decide_eq_true few)
    have parts := List.length_eq_countP_add_countP better (l := cycle.links)
    have length : cycle.links.length = offwindowLinkCap := full
    rw [← List.countP_eq_length_filter]
    simp only [Bool.not_eq_true, Bool.decide_eq_false] at parts
    omega
  have row_of (other : Str) : ∃ row, other ∈ cycle.links.filter (fun other => !better other) →
      row ∈ cycle.rows ∧ row.externalRef = other ∧ row.Stale since := by
    by_cases late : other ∈ cycle.links.filter fun other => !better other
    · obtain ⟨linked, level⟩ := List.mem_filter.mp late
      have listed := candidates_sublist.subset ((List.take_sublist _ _).subset linked)
      obtain ⟨row, inside, named, untried⟩ :=
        exists_stale listed (before other linked) (by simpa [better] using level) stale
      exact ⟨row, fun _ => ⟨inside, named, untried⟩⟩
    · obtain ⟨row, -, -⟩ :=
        mem_orderOffwindowRefs.mp (candidates_sublist.subset (of_decide_eq_true eligible))
      exact ⟨row, fun there => absurd there late⟩
  choose row rows_spec using row_of
  refine ⟨(cycle.links.filter fun other => !better other).toFinset.image fun other =>
    (row other).id, ?_, ?_⟩
  · rw [Finset.card_image_of_injOn]
    · have distinct : cycle.candidates.Nodup := orderOffwindowRefs_nodup.sublist sublist
      have apart : (cycle.links.filter fun other => !better other).Nodup :=
        (distinct.sublist (List.take_sublist _ _)).filter _
      exact count.trans_eq (List.toFinset_card_of_nodup apart).symm
    · intro a first b second same
      obtain ⟨insideA, namedA, -⟩ := rows_spec a (List.mem_toFinset.mp first)
      obtain ⟨insideB, namedB, -⟩ := rows_spec b (List.mem_toFinset.mp second)
      rw [← namedA, ← namedB, unique _ insideA _ insideB same]
  · intro i ticket
    obtain ⟨other, late, rfl⟩ := Finset.mem_image.mp ticket
    obtain ⟨inside, named, untried⟩ := rows_spec other (List.mem_toFinset.mp late)
    refine ⟨row other, inside, rfl, ?_, untried⟩
    rw [named]
    exact (List.mem_filter.mp (List.mem_toFinset.mp late)).1

end Candidates

/-! The picks. -/

section Picks
variable {ref : Str}

theorem eq_of_id {picks : List Pick} (unique : (picks.map Pick.id).Nodup) {p q : Pick}
    (first : p ∈ picks) (second : q ∈ picks) (same : p.id = q.id) : p = q :=
      List.inj_on_of_nodup_map unique first second same

/-- A change of picks that opens none, and stamps none of the event. -/
structure Gentle (ref : Str) (clock : ℚ) (f : Pick → Pick) : Prop where
  id : ∀ p, (f p).id = p.id
  externalRef : ∀ p, (f p).externalRef = p.externalRef
  alerted : ∀ p, (f p).alerted → p.alerted
  stamp : ∀ p, (f p).revalidationAttemptedAt = p.revalidationAttemptedAt ∨
    p.externalRef ≠ ref ∧ ∃ t, (f p).revalidationAttemptedAt = some t ∧ clock ≤ t

theorem gentle_close {id : Nat} {status : Str} {clock : ℚ}
    (closes : status ≠ "alerted".toList) :
    Gentle ref clock fun pick => if pick.id = id then { pick with status := status } else pick where
  id p := by split <;> rfl
  externalRef p := by split <;> rfl
  alerted p opened := by
    split at opened
    · exact absurd (of_decide_eq_true opened) closes
    · exact opened
  stamp p := by split <;> exact .inl rfl

theorem gentle_amend {id : Nat} {tier : Str} {startsAt : Option ℚ} {clock : ℚ} :
    Gentle ref clock fun pick => if pick.id = id then
      { pick with tier := tier, startsAt := startsAt } else pick where
  id p := by split <;> rfl
  externalRef p := by split <;> rfl
  alerted p opened := by split at opened <;> exact opened
  stamp p := by split <;> exact .inl rfl

theorem gentle_reprice {other : Str} {id : Nat} {now clock : ℚ} (apart : other ≠ ref)
    (later : clock ≤ now) :
    Gentle ref clock fun pick =>
      if pick.id = id ∧ pick.externalRef = other then
        { pick with revalidationAttemptedAt := some now } else pick where
  id p := by split <;> rfl
  externalRef p := by split <;> rfl
  alerted p opened := by split at opened <;> exact opened
  stamp p := by
    split
    · rename_i repriced
      exact .inr ⟨fun same => apart (repriced.2.symm.trans same), now, rfl, later⟩
    · exact .inl rfl

theorem gentle_stamped {links : List Str} {attemptedAt clock : ℚ} (out : ref ∉ links)
    (later : clock ≤ attemptedAt) : Gentle ref clock (stamped links attemptedAt) where
  id p := by unfold stamped; split <;> rfl
  externalRef p := by unfold stamped; split <;> rfl
  alerted p opened := by unfold stamped at opened; split at opened <;> exact opened
  stamp p := by
    unfold stamped
    split
    · rename_i linked
      have there := of_decide_eq_true (Bool.and_eq_true_iff.mp linked).2
      exact .inr ⟨fun same => out (same ▸ there), attemptedAt, rfl, later⟩
    · exact .inl rfl

end Picks

/-! The tickets of a run. -/

section Tickets
variable [CaseMaps] [UrlText] {since : ℚ} {ref : Str} {ahead n : Nat} {w w' : World} {a : Action}
  {seen used : Finset Nat}

/-- What is spent while the event waits: the tickets that are used are open picks no more, or tried
since. -/
structure Spent (since : ℚ) (ref : Str) (ahead : Nat) (w : World) (seen used : Finset Nat)
    (n : Nat) : Prop where
  unique : (w.picks.map Pick.id).Nodup
  waiting : ∀ p ∈ w.picks, p.externalRef = ref → p.Stale since
  opened : ∀ p ∈ w.picks, p.alerted → p.id ∈ seen
  known : ∀ i ∈ used, i ∈ seen ∧ i ∈ w.picks.map Pick.id
  paid : ∀ p ∈ w.picks, p.id ∈ used → p.alerted → ¬ p.Stale since
  count : (offwindowLinkCap - ahead) * n ≤ used.card
  clock : since ≤ w.clock
  later : used.Nonempty → since < w.clock
  pending : ∀ cycle, w.fetching = some cycle → since < w.clock ∧ ref ∉ cycle.links ∧
    (passesOver ref ahead cycle → ∃ tickets : Finset Nat,
      offwindowLinkCap - ahead ≤ tickets.card ∧
      ∀ i ∈ tickets, i ∉ used ∧ i ∈ seen ∧ ∃ p ∈ w.picks, p.id = i ∧
        p.externalRef ∈ cycle.links)

theorem Spent.map {f : Pick → Pick} (spent : Spent since ref ahead w seen used n)
    (gentle : Gentle ref w.clock f) {clock : ℚ} (later : w.clock ≤ clock)
    {fetching : Option Cycle} (same : fetching = none ∨ fetching = w.fetching) :
    Spent since ref ahead
      { picks := w.picks.map f, fetching := fetching, clock := clock } seen used n := by
  have ids : (w.picks.map f).map Pick.id = w.picks.map Pick.id := by
    rw [List.map_map]
    exact List.map_congr_left fun p _ => gentle.id p
  constructor
  · exact ids ▸ spent.unique
  · intro p' inside named
    obtain ⟨p, there, rfl⟩ := List.mem_map.mp inside
    rw [gentle.externalRef] at named
    obtain kept | ⟨apart, -⟩ := gentle.stamp p
    · intro t stamp
      exact spent.waiting p there named t (kept ▸ stamp)
    · exact absurd named apart
  · intro p' inside opened
    obtain ⟨p, there, rfl⟩ := List.mem_map.mp inside
    rw [gentle.id]
    exact spent.opened p there (gentle.alerted p opened)
  · rw [ids]
    exact spent.known
  · intro p' inside ticket opened
    obtain ⟨p, there, rfl⟩ := List.mem_map.mp inside
    rw [gentle.id] at ticket
    obtain kept | ⟨-, t, stamp, after⟩ := gentle.stamp p
    · intro stale
      refine spent.paid p there ticket (gentle.alerted p opened) fun t stamp => ?_
      exact stale t (kept.trans stamp)
    · intro stale
      have early := stale t stamp
      have now := spent.later ⟨_, ticket⟩
      linarith
  · exact spent.count
  · exact spent.clock.trans later
  · intro some_
    exact (spent.later some_).trans_le later
  · intro cycle running
    obtain rfl | rfl := same
    · cases running
    · obtain ⟨began, out, tickets⟩ := spent.pending cycle running
      refine ⟨began.trans_le later, out, fun past => ?_⟩
      obtain ⟨tickets, enough, each⟩ := tickets past
      refine ⟨tickets, enough, fun i ticket => ?_⟩
      obtain ⟨fresh, opened, p, there, id, linked⟩ := each i ticket
      exact ⟨fresh, opened, f p, List.mem_map_of_mem there, (gentle.id p).trans id,
        (gentle.externalRef p).symm ▸ linked⟩

theorem Spent.mint {pick : Pick} (spent : Spent since ref ahead w seen used n)
    (fresh : pick.revalidationAttemptedAt = none) (new : pick.id ∉ w.picks.map Pick.id) :
    Spent since ref ahead { w with picks := w.picks ++ [pick] } (insert pick.id seen) used n := by
  have ids : (w.picks ++ [pick]).map Pick.id = w.picks.map Pick.id ++ [pick.id] := by simp
  constructor
  · rw [ids]
    exact List.nodup_append.mpr ⟨spent.unique, List.nodup_singleton _, by
      rintro i inside j here rfl
      exact new (List.mem_singleton.mp here ▸ inside)⟩
  · intro p inside named
    obtain there | here := List.mem_append.mp inside
    · exact spent.waiting p there named
    · intro t stamp
      rw [List.mem_singleton.mp here, fresh] at stamp
      cases stamp
  · intro p inside opened
    obtain there | here := List.mem_append.mp inside
    · exact Finset.mem_insert_of_mem (spent.opened p there opened)
    · rw [List.mem_singleton.mp here]
      exact Finset.mem_insert_self _ _
  · intro i ticket
    obtain ⟨opened, held⟩ := spent.known i ticket
    rw [ids]
    exact ⟨Finset.mem_insert_of_mem opened, List.mem_append_left _ held⟩
  · intro p inside ticket opened
    obtain there | here := List.mem_append.mp inside
    · exact spent.paid p there ticket opened
    · rw [List.mem_singleton.mp here] at ticket
      exact absurd (spent.known _ ticket).2 new
  · exact spent.count
  · exact spent.clock
  · exact spent.later
  · intro cycle running
    obtain ⟨began, out, tickets⟩ := spent.pending cycle running
    refine ⟨began, out, fun past => ?_⟩
    obtain ⟨tickets, enough, each⟩ := tickets past
    refine ⟨tickets, enough, fun i ticket => ?_⟩
    obtain ⟨unused, opened, p, there, id, linked⟩ := each i ticket
    exact ⟨unused, Finset.mem_insert_of_mem opened, p, List.mem_append_left _ there, id, linked⟩

theorem Spent.choose {cycle : Cycle} (spent : Spent since ref ahead w seen used n)
    (later : w.clock < cycle.now) (rows : cycle.rows.Perm (selected w.picks cycle.now))
    (out : ref ∉ cycle.links) {fetching : Option Cycle}
    (running : fetching = none ∨ fetching = some cycle) :
    Spent since ref ahead { w with clock := cycle.now, fetching := fetching } seen used n := by
  have row {p : Pick} (inside : p ∈ cycle.rows) : p ∈ w.picks ∧ p.alerted := by
    obtain ⟨there, chosen⟩ := List.mem_filter.mp (rows.subset inside)
    exact ⟨there, (Bool.and_eq_true_iff.mp chosen).1⟩
  constructor
  · exact spent.unique
  · exact spent.waiting
  · exact spent.opened
  · exact spent.known
  · exact spent.paid
  · exact spent.count
  · exact spent.clock.trans later.le
  · intro some_
    exact (spent.later some_).trans later
  · intro other here
    obtain rfl | rfl := running
    · cases here
    cases here
    refine ⟨spent.clock.trans_lt later, out, fun past => ?_⟩
    obtain ⟨tickets, enough, each⟩ :=
      exists_tickets past out (fun p inside named => spent.waiting p (row inside).1 named)
      fun p first q second same => eq_of_id spent.unique (row first).1 (row second).1 same
    refine ⟨tickets, enough, fun i ticket => ?_⟩
    obtain ⟨p, inside, rfl, linked, stale⟩ := each i ticket
    obtain ⟨there, opened⟩ := row inside
    exact ⟨fun spend => spent.paid p there spend opened stale, spent.opened p there opened, p,
      there, rfl, linked⟩

/-- A fetch that ends spends the tickets of its cycle. -/
theorem Spent.fetched {cycle : Cycle} {attemptedAt : ℚ}
    (spent : Spent since ref ahead w seen used n) (running : w.fetching = some cycle)
    (later : w.clock ≤ attemptedAt) : ∃ used', Spent since ref ahead
      { picks := w.picks.map (stamped cycle.links attemptedAt), fetching := none,
        clock := attemptedAt } seen used'
        (n + waited ref ahead w (.fetched attemptedAt)) := by
  obtain ⟨began, out, tickets⟩ := spent.pending cycle running
  have kept := spent.map (gentle_stamped out later) later (.inl rfl)
  by_cases past : passesOver ref ahead cycle
  · obtain ⟨tickets, enough, each⟩ := tickets past
    have one : waited ref ahead w (.fetched attemptedAt) = 1 := by simp [waited, running, past]
    refine ⟨used ∪ tickets, kept.unique, kept.waiting, kept.opened, ?_, ?_, ?_, kept.clock, ?_,
      fun cycle none => by cases none⟩
    · intro i spend
      obtain before | ticket := Finset.mem_union.mp spend
      · exact kept.known i before
      · obtain ⟨-, opened, p, there, rfl, -⟩ := each i ticket
        refine ⟨opened, List.mem_map.mpr ⟨_, List.mem_map_of_mem there, ?_⟩⟩
        exact (gentle_stamped out later).id p
    · intro p' inside spend opened
      obtain before | ticket := Finset.mem_union.mp spend
      · exact kept.paid p' inside before opened
      · obtain ⟨p, there, rfl⟩ := List.mem_map.mp inside
        rw [(gentle_stamped out later).id] at ticket
        obtain ⟨-, -, q, other, same, linked⟩ := each _ ticket
        obtain rfl := eq_of_id spent.unique other there same
        have stamp : (stamped cycle.links attemptedAt q).revalidationAttemptedAt =
            some attemptedAt := by
          have live := (gentle_stamped out later).alerted q opened
          rw [stamped, if_pos (Bool.and_eq_true_iff.mpr ⟨live, decide_eq_true linked⟩)]
        intro stale
        have early := stale _ stamp
        linarith
    · have apart : Disjoint used tickets :=
        Finset.disjoint_right.mpr fun i ticket => (each i ticket).1
      have count := spent.count
      rw [one, Finset.card_union_of_disjoint apart, Nat.mul_succ]
      omega
    · exact fun _ => began.trans_le later
  · have none : waited ref ahead w (.fetched attemptedAt) = 0 := by simp [waited, running, past]
    rw [none]
    exact ⟨used, kept⟩

theorem Spent.step (spent : Spent since ref ahead w seen used n) (leaves : a.leaves ref)
    (taken : OffWindow.step w a = some w') :
    ∃ seen' used', Spent since ref ahead w' seen' used' (n + waited ref ahead w a) ∧
      seen'.card ≤ seen.card + a.minted := by
  cases a with
  | mint pick =>
    simp only [OffWindow.step] at taken
    split at taken
    · rename_i new
      cases taken
      exact ⟨_, used, spent.mint new.1 new.2, Finset.card_insert_le _ _⟩
    · cases taken
  | close id status =>
    simp only [OffWindow.step] at taken
    split at taken
    · rename_i closes
      cases taken
      exact ⟨seen, used, spent.map (gentle_close closes) le_rfl (.inr rfl), le_rfl⟩
    · cases taken
  | amend id tier startsAt =>
    cases taken
    exact ⟨seen, used, spent.map gentle_amend le_rfl (.inr rfl), le_rfl⟩
  | reprice other id now =>
    simp only [OffWindow.step] at taken
    split at taken
    · rename_i later
      cases taken
      exact ⟨seen, used, spent.map (gentle_reprice leaves later) later (.inr rfl), le_rfl⟩
    · cases taken
  | choose cycle =>
    simp only [OffWindow.step] at taken
    split at taken
    · rename_i possible
      cases taken
      refine ⟨seen, used, spent.choose possible.2.1 possible.2.2 leaves ?_, le_rfl⟩
      split
      · exact .inl rfl
      · exact .inr rfl
    · cases taken
  | fetched attemptedAt =>
    simp only [OffWindow.step] at taken
    split at taken
    · cases taken
    · rename_i cycle running
      split at taken
      · rename_i later
        cases taken
        obtain ⟨used', ended⟩ := spent.fetched running later
        exact ⟨seen, used', ended, le_rfl⟩
      · cases taken
  | failed =>
    cases taken
    have idle := spent.map (f := id) ⟨fun _ => rfl, fun _ => rfl, fun _ => id,
      fun _ => .inl rfl⟩ le_rfl (.inl rfl)
    rw [List.map_id] at idle
    exact ⟨seen, used, idle, le_rfl⟩

theorem Spent.run {actions : List Action} (spent : Spent since ref ahead w seen used n)
    (leaves : ∀ a ∈ actions, a.leaves ref) (ran : trace OffWindow.step w actions = some w') :
      ∃ seen' used', Spent since ref ahead w' seen' used' (n + waits ref ahead w actions) ∧
        seen'.card ≤ seen.card + (actions.map Action.minted).sum := by
  induction actions generalizing w n seen used with
  | nil =>
    cases ran
    exact ⟨seen, used, spent, le_rfl⟩
  | cons a rest ih =>
    obtain ⟨next, taken, later⟩ := trace_cons.mp ran
    obtain ⟨first, others⟩ := List.forall_mem_cons.mp leaves
    obtain ⟨seen', used', spent', few⟩ := spent.step first taken
    obtain ⟨seen'', used'', spent'', few'⟩ := ih spent' others later
    have total : n + waits ref ahead w (a :: rest) =
        n + waited ref ahead w a + waits ref ahead next rest := by
      rw [waits, taken, Option.map_some, Option.getD_some, Nat.add_assoc]
    refine ⟨seen'', used'', total ▸ spent'', ?_⟩
    rw [List.map_cons, List.sum_cons]
    omega

end Tickets

/-! The theorem. -/

section Runs
variable [CaseMaps] [UrlText] {w w' : World}

/-- What every reachable state keeps. -/
structure Sound (w : World) : Prop where
  unique : (w.picks.map Pick.id).Nodup
  stale : ∀ p ∈ w.picks, p.Stale w.clock

omit [CaseMaps] [UrlText] in
theorem Sound.map {f : Pick → Pick} {clock : ℚ} {fetching : Option Cycle} (sound : Sound w)
    (later : w.clock ≤ clock) (ids : ∀ p, (f p).id = p.id)
    (stamps : ∀ p, (f p).revalidationAttemptedAt = p.revalidationAttemptedAt ∨
      (f p).revalidationAttemptedAt = some clock) :
    Sound { picks := w.picks.map f, fetching := fetching, clock := clock } := by
  constructor
  · have same : (w.picks.map f).map Pick.id = w.picks.map Pick.id := by
      rw [List.map_map]
      exact List.map_congr_left fun p _ => ids p
    exact same ▸ sound.unique
  · intro p' inside t stamp
    obtain ⟨p, there, rfl⟩ := List.mem_map.mp inside
    obtain kept | new := stamps p
    · exact (sound.stale p there t (kept ▸ stamp)).trans later
    · cases new.symm.trans stamp
      exact le_rfl

omit [CaseMaps] [UrlText] in
theorem Sound.start : Sound {} := ⟨List.nodup_nil, fun _ none => by cases none⟩

theorem Sound.step {a : Action} (sound : Sound w) (taken : OffWindow.step w a = some w') :
    Sound w' := by
  cases a with
  | mint pick =>
    simp only [OffWindow.step] at taken
    split at taken
    · rename_i new
      cases taken
      constructor
      · rw [List.map_append]
        refine List.nodup_append.mpr ⟨sound.unique, List.nodup_singleton _, ?_⟩
        rintro i inside j here rfl
        exact new.2 (List.mem_singleton.mp here ▸ inside)
      · intro p inside t stamp
        obtain there | here := List.mem_append.mp inside
        · exact sound.stale p there t stamp
        · rw [List.mem_singleton.mp here, new.1] at stamp
          cases stamp
    · cases taken
  | close id status =>
    simp only [OffWindow.step] at taken
    split at taken
    · cases taken
      exact sound.map le_rfl (fun p => by split <;> rfl) fun p => by split <;> exact .inl rfl
    · cases taken
  | amend id tier startsAt =>
    cases taken
    exact sound.map le_rfl (fun p => by split <;> rfl) fun p => by split <;> exact .inl rfl
  | reprice ref id now =>
    simp only [OffWindow.step] at taken
    split at taken
    · rename_i later
      cases taken
      refine sound.map later (fun p => by split <;> rfl) fun p => ?_
      split
      · exact .inr rfl
      · exact .inl rfl
    · cases taken
  | choose cycle =>
    simp only [OffWindow.step] at taken
    split at taken
    · rename_i possible
      cases taken
      exact ⟨sound.unique,
        fun p inside t stamp => (sound.stale p inside t stamp).trans possible.2.1.le⟩
    · cases taken
  | fetched attemptedAt =>
    simp only [OffWindow.step] at taken
    split at taken
    · cases taken
    · split at taken
      · rename_i later
        cases taken
        refine sound.map later (fun p => by unfold stamped; split <;> rfl) fun p => ?_
        unfold stamped
        split
        · exact .inr rfl
        · exact .inl rfl
      · cases taken
  | failed =>
    cases taken
    exact ⟨sound.unique, sound.stale⟩

theorem Sound.run {actions : List Action} (ran : trace OffWindow.step {} actions = some w) :
    Sound w :=
  trace_invariant (fun _ _ _ sound taken => sound.step taken) Sound.start ran

end Runs

/-! Twenty-six open picks on pages of their own, the first of them premium. -/

end SharpEvPicks.Clv.OffWindow
