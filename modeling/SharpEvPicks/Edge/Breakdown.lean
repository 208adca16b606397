import Mathlib.Data.Finset.Max
import Mathlib.Data.List.GetD
import SharpEvPicks.Edge.Board
import SharpEvPicks.Python.Lookups

/-! One book cannot carry the median consensus of `app/edge/value.py` out of the range of the
others. -/
namespace SharpEvPicks.Edge

open Python

/-! Positions of a sorted list against a bound that few of its members miss. -/

section
variable {α : Type*} [LinearOrder α] {s : List α} {c : α}

theorem le_getElem_of_countP (sorted : s.Pairwise (· ≤ ·)) {i : Nat} (inside : i < s.length)
    (few : s.countP (· < c) ≤ i) : c ≤ s[i] := by
  induction s generalizing i with
  | nil => cases inside
  | cons a s ih =>
    obtain ⟨least, sorted⟩ := List.pairwise_cons.mp sorted
    by_cases low : a < c
    · rw [List.countP_cons_of_pos (by simpa using low)] at few
      cases i with
      | zero => omega
      | succ i => exact ih sorted (Nat.lt_of_succ_lt_succ inside) (Nat.le_of_succ_le_succ few)
    · have above : c ≤ a := not_lt.mp low
      cases i with
      | zero => exact above
      | succ i => exact above.trans (least _ (List.getElem_mem _))

theorem getElem_le_of_countP (sorted : s.Pairwise (· ≤ ·)) {i : Nat} (inside : i < s.length)
    (few : s.countP (c < ·) + i < s.length) : s[i] ≤ c := by
  induction s generalizing i with
  | nil => cases inside
  | cons a s ih =>
    obtain ⟨least, sorted⟩ := List.pairwise_cons.mp sorted
    rw [List.countP_cons, List.length_cons] at few
    cases i with
    | succ i =>
      apply ih sorted (Nat.lt_of_succ_lt_succ inside)
      omega
    | zero =>
      by_contra high
      have high : c < a := not_le.mp high
      have all : s.countP (c < ·) = s.length := by
        rw [List.countP_eq_length]
        intro x listed
        exact decide_eq_true (high.trans_le (least x listed))
      rw [all] at few
      simp [high] at few

end

/-! Fewer than half of the values cannot move the median past the rest. -/

section
variable {l : List ℚ} {c : ℚ}

theorem sortedBy_id_perm (l : List ℚ) : (sortedBy id l).Perm l := List.perm_insertionSort _ _

theorem le_median (few : 2 * l.countP (· < c) < l.length) : c ≤ median l := by
  have same : (sortedBy id l).length = l.length := (sortedBy_id_perm l).length_eq
  have at_least (i : Nat) (inside : i < l.length) (past : l.countP (· < c) ≤ i) :
      c ≤ (sortedBy id l).getD i 0 := by
    rw [List.getD_eq_getElem _ _ (same ▸ inside)]
    apply le_getElem_of_countP (sortedBy_pairwise id l)
    rwa [(sortedBy_id_perm l).countP_eq]
  unfold median
  simp only [same]
  split
  · exact at_least _ (by omega) (by omega)
  · have lower := at_least (l.length / 2 - 1) (by omega) (by omega)
    have upper := at_least (l.length / 2) (by omega) (by omega)
    linarith

theorem median_le (few : 2 * l.countP (c < ·) < l.length) : median l ≤ c := by
  have same : (sortedBy id l).length = l.length := (sortedBy_id_perm l).length_eq
  have at_most (i : Nat) (inside : i < l.length) (past : l.countP (c < ·) + i < l.length) :
      (sortedBy id l).getD i 0 ≤ c := by
    rw [List.getD_eq_getElem _ _ (same ▸ inside)]
    apply getElem_le_of_countP (sortedBy_pairwise id l)
    rwa [(sortedBy_id_perm l).countP_eq, same]
  unfold median
  simp only [same]
  split
  · exact at_most _ (by omega) (by omega)
  · have lower := at_most (l.length / 2 - 1) (by omega) (by omega)
    have upper := at_most (l.length / 2) (by omega) (by omega)
    linarith

/-- `x` is between the least and the greatest of the list. -/
structure Within (l : List ℚ) (x : ℚ) : Prop where
  least : ∃ lo ∈ l, (∀ y ∈ l, lo ≤ y) ∧ lo ≤ x
  greatest : ∃ hi ∈ l, (∀ y ∈ l, y ≤ hi) ∧ x ≤ hi

theorem within_of_bounds {x : ℚ} (some : l ≠ [])
    (lower : ∀ c, (∀ y ∈ l, c ≤ y) → c ≤ x)
    (upper : ∀ c, (∀ y ∈ l, y ≤ c) → x ≤ c) : Within l x := by
  obtain ⟨y, listed⟩ := List.exists_mem_of_ne_nil l some
  have inhabited : l.toFinset.Nonempty := ⟨y, List.mem_toFinset.mpr listed⟩
  obtain ⟨lo, inside, least⟩ := l.toFinset.exists_min_image id inhabited
  obtain ⟨hi, inside', greatest⟩ := l.toFinset.exists_max_image id inhabited
  simp only [List.mem_toFinset, id] at inside least inside' greatest
  exact ⟨⟨lo, inside, least, lower lo least⟩,
    ⟨hi, inside', greatest, upper hi greatest⟩⟩

end

/-! The best price of each book, book by book. -/

section
variable [Unicode]

/-- The better of what is kept of a book and its next quote. -/
def better (old : Option (ℚ × ℚ)) (next : ℚ × ℚ) : ℚ × ℚ :=
  match old with
  | none => next
  | some old => if old.1 < next.1 then next else old

theorem get?_keepBest (commissions : Commissions) (members : List Str)
    (best : Dict Str (ℚ × ℚ)) (e : Str × ℚ) (k : Str) :
    (keepBest commissions members best e).get? k =
      if k ∈ members ∧ norm e.1 = k then some (better (best.get? k) (netQuote commissions e))
      else best.get? k := by
  by_cases own : norm e.1 = k
  · subst own
    unfold keepBest
    by_cases member : norm e.1 ∈ members
    · rw [if_pos member, if_pos ⟨member, rfl⟩]
      cases kept : best.get? (norm e.1) with
      | none => exact Dict.get?_set_self ..
      | some old =>
        dsimp only [better]
        split
        · exact Dict.get?_set_self ..
        · exact kept
    · rw [if_neg member, if_neg fun both => member both.1]
  · rw [if_neg fun both => own both.2]
    unfold keepBest
    split
    · split
      · exact Dict.get?_set_ne _ (Ne.symm own) _
      · split
        · exact Dict.get?_set_ne _ (Ne.symm own) _
        · rfl
    · rfl

/-- What is kept of a book depends on its own quotes alone. -/
theorem get?_bestByNorm_own (commissions : Commissions) {members : List Str} {k : Str}
    (member : k ∈ members) (books : Dict Str ℚ) :
    (bestByNorm commissions members books).get? k =
      (books.entries.filter fun e => norm e.1 = k).foldl
        (fun old e => some (better old (netQuote commissions e))) none := by
  have law (best : Dict Str (ℚ × ℚ)) (e : Str × ℚ) :
      (keepBest commissions members best e).get? k =
      if norm e.1 = k then some (better (best.get? k) (netQuote commissions e))
        else best.get? k := by
    rw [get?_keepBest]
    simp only [member, true_and]
  exact Dict.get?_foldl_own law books.entries Dict.empty

theorem get?_bestByNorm_of_not_mem (commissions : Commissions) {members : List Str} {k : Str}
    (stranger : k ∉ members) (books : Dict Str ℚ) :
    (bestByNorm commissions members books).get? k = none := by
  have apart (l : List (Str × ℚ)) (best : Dict Str (ℚ × ℚ)) :
      (l.foldl (keepBest commissions members) best).get? k = best.get? k := by
    induction l generalizing best with
    | nil => rfl
    | cons e l ih => rw [List.foldl_cons, ih, get?_keepBest, if_neg fun both => stranger both.1]
  rw [bestByNorm_eq, apart, Dict.get?_empty]

theorem foldl_better_isSome (commissions : Commissions) {l : List (Str × ℚ)}
    {old : Option (ℚ × ℚ)} (kept : l ≠ [] ∨ old.isSome) :
    (l.foldl (fun old e => some (better old (netQuote commissions e))) old).isSome := by
  induction l generalizing old with
  | nil => simpa using kept
  | cons e l ih => exact ih (.inr rfl)

theorem bestByNorm_covers (commissions : Commissions) {p : Prices} {s k : Str}
    (quoted : s ∈ p.keys) (member : k ∈ fullMarketBooks p) :
    k ∈ (bestByNorm commissions (fullMarketBooks p) (p.books s)).keys := by
  obtain ⟨b, listed, named⟩ :=
    List.mem_map.mp (((mem_fullMarketBooks p k).mp member).2 s quoted)
  obtain ⟨e, inside, rfl⟩ := List.mem_map.mp listed
  rw [Dict.mem_keys_iff, get?_bestByNorm_own commissions member]
  apply foldl_better_isSome
  left
  exact List.ne_nil_of_mem (List.mem_filter.mpr ⟨inside, decide_eq_true named⟩)

/-! One book's quotes changed. -/

/-- The maps differ in the quotes of the book `k` alone. -/
structure ChangedOnly (k : Str) (p p' : Prices) : Prop where
  selections : p'.keys = p.keys
  others : ∀ s, ((p'.books s).entries.filter fun e => norm e.1 ≠ k) =
    (p.books s).entries.filter fun e => norm e.1 ≠ k

/-- A selection that neither map has holds nothing. -/
theorem changedOnly_of_keys {k : Str} {p p' : Prices} (selections : p'.keys = p.keys)
    (others : ∀ s ∈ p.keys, ((p'.books s).entries.filter fun e => norm e.1 ≠ k) =
      (p.books s).entries.filter fun e => norm e.1 ≠ k) : ChangedOnly k p p' := by
  refine ⟨selections, fun s => ?_⟩
  by_cases quoted : s ∈ p.keys
  · exact others s quoted
  · rw [books_of_not_mem quoted, books_of_not_mem (selections ▸ quoted)]

/-- The best gross price at a selection of each full-market book but `k`. -/
def otherGross (commissions : Commissions) (p : Prices) (k s : Str) : List ℚ :=
  ((bestByNorm commissions (fullMarketBooks p) (p.books s)).pop k).values.map Prod.snd

variable {commissions : Commissions} {k : Str} {p p' : Prices}

theorem mem_otherGross {s : Str} {g : ℚ} :
    g ∈ otherGross commissions p k s ↔
      ∃ k' e, k' ≠ k ∧
        (bestByNorm commissions (fullMarketBooks p) (p.books s)).get? k' = some (e, g) := by
  unfold otherGross
  simp only [List.mem_map, Dict.mem_values]
  constructor
  · rintro ⟨⟨e, g⟩, ⟨k', found⟩, rfl⟩
    rw [Dict.get?_pop] at found
    split at found
    · cases found
    · rename_i other
      exact ⟨k', e, other, found⟩
  · rintro ⟨k', e, other, found⟩
    refine ⟨(e, g), ⟨k', ?_⟩, rfl⟩
    rw [Dict.get?_pop, if_neg other, found]

theorem ChangedOnly.own (only : ChangedOnly k p p') {k' : Str} (other : k' ≠ k) (s : Str) :
    ((p'.books s).entries.filter fun e => norm e.1 = k') =
      (p.books s).entries.filter fun e => norm e.1 = k' := by
  have narrow (l : List (Str × ℚ)) : (l.filter fun e => norm e.1 = k') =
      (l.filter fun e => norm e.1 ≠ k).filter fun e => norm e.1 = k' := by
    rw [List.filter_filter]
    apply List.filter_congr
    intro e _
    by_cases named : norm e.1 = k'
    · simp [named, other]
    · simp [named]
  rw [narrow, only.others s, ← narrow]

theorem ChangedOnly.mem_iff (only : ChangedOnly k p p') {k' : Str} (other : k' ≠ k) :
    k' ∈ fullMarketBooks p' ↔ k' ∈ fullMarketBooks p := by
  have named (p : Prices) (s : Str) : k' ∈ (p.books s).keys.map norm ↔
      ((p.books s).entries.filter fun e => norm e.1 = k') ≠ [] := by
    simp only [Dict.keys, List.map_map, List.mem_map, Function.comp_apply, ne_eq,
      List.filter_eq_nil_iff, decide_eq_true_eq, not_forall, not_not, exists_prop]
  simp only [mem_fullMarketBooks, named, only.own other, only.selections]

theorem ChangedOnly.get?_bestByNorm (only : ChangedOnly k p p') {k' : Str} (other : k' ≠ k)
    (s : Str) :
    (bestByNorm commissions (fullMarketBooks p') (p'.books s)).get? k' =
      (bestByNorm commissions (fullMarketBooks p) (p.books s)).get? k' := by
  by_cases member : k' ∈ fullMarketBooks p
  · rw [get?_bestByNorm_own commissions member,
      get?_bestByNorm_own commissions ((only.mem_iff other).mpr member), only.own other]
  · rw [get?_bestByNorm_of_not_mem commissions member,
      get?_bestByNorm_of_not_mem commissions (mt (only.mem_iff other).mp member)]

omit [Unicode] in
theorem countP_values_le_one {d : Dict Str (ℚ × ℚ)} {P : ℚ → Bool}
    (only : ∀ k' e g, d.get? k' = some (e, g) → P g → k' = k) :
      (d.values.map Prod.snd).countP P ≤ 1 := by
  have own : ∀ e ∈ d.entries, P e.2.2 → decide (e.1 = k) = true := fun e listed hit =>
    decide_eq_true (only e.1 e.2.1 e.2.2 (Dict.get?_eq_some_iff.mpr listed) hit)
  calc (d.values.map Prod.snd).countP P
      = d.entries.countP (fun e => P e.2.2) := by
        rw [Dict.values, List.map_map, List.countP_map]
        rfl
    _ ≤ d.entries.countP (fun e => e.1 = k) := List.countP_mono_left own
    _ = d.keys.count k := by
        rw [Dict.keys, List.count, List.countP_map]
        apply List.countP_congr
        simp
    _ ≤ 1 := List.nodup_iff_count_le_one.mp d.nodup k

theorem exists_other (enough : minConsensusBooks ≤ (fullMarketBooks p).length) (k : Str) :
    ∃ k' ∈ fullMarketBooks p, k' ≠ k := by
  by_contra none
  simp only [not_exists, not_and, not_not] at none
  have single : (fullMarketBooks p).length ≤ [k].length :=
    ((fullMarketBooks_nodup p).subperm fun k' member =>
      List.mem_singleton.mpr (none k' member)).length_le
  have three : 3 ≤ (fullMarketBooks p).length := enough
  simp only [List.length_singleton] at single
  omega

/-- The book `k` has one of three or more values, so it leaves the median among the others. -/
theorem within_otherGross (only : ChangedOnly k p p') {s : Str} (quoted : s ∈ p'.keys)
    (enough : minConsensusBooks ≤ (fullMarketBooks p').length) :
    Within (otherGross commissions p k s)
      (median ((bestByNorm commissions (fullMarketBooks p') (p'.books s)).values.map
        Prod.snd)) := by
  let best := bestByNorm commissions (fullMarketBooks p') (p'.books s)
  have three : 3 ≤ (best.values.map Prod.snd).length := by
    have covered : (fullMarketBooks p').Subperm best.keys :=
      (fullMarketBooks_nodup p').subperm fun k' member =>
        bestByNorm_covers commissions quoted member
    rw [List.length_map, Dict.values, List.length_map, ← List.length_map (f := Prod.fst)]
    exact le_trans enough covered.length_le
  have kept {k' : Str} {e g : ℚ} (found : best.get? k' = some (e, g)) (other : k' ≠ k) :
      g ∈ otherGross commissions p k s := by
    rw [only.get?_bestByNorm other] at found
    exact mem_otherGross.mpr ⟨k', e, other, found⟩
  apply within_of_bounds
  · obtain ⟨k', member, other⟩ := exists_other enough k
    have listed := bestByNorm_covers commissions quoted member
    obtain ⟨⟨e, g⟩, found⟩ := Option.isSome_iff_exists.mp (Dict.mem_keys_iff.mp listed)
    exact List.ne_nil_of_mem (kept found other)
  · intro c below
    change c ≤ median (best.values.map Prod.snd)
    apply le_median
    have few : (best.values.map Prod.snd).countP (· < c) ≤ 1 := by
      apply countP_values_le_one (k := k)
      intro k' e g found low
      by_contra other
      exact (of_decide_eq_true low).not_ge (below g (kept found other))
    omega
  · intro c above
    change median (best.values.map Prod.snd) ≤ c
    apply median_le
    have few : (best.values.map Prod.snd).countP (c < ·) ≤ 1 := by
      apply countP_values_le_one (k := k)
      intro k' e g found high
      by_contra other
      exact (of_decide_eq_true high).not_ge (above g (kept found other))
    omega

theorem medianConsensus_some {opts : AnchorOptions} {anchor : Str} {odds : List ℚ}
    (chosen : medianConsensus opts p = some (anchor, odds)) :
    minConsensusBooks ≤ (fullMarketBooks p).length ∧
      odds = p.keys.map fun s =>
        median ((bestByNorm opts.commissions (fullMarketBooks p) (p.books s)).values.map
          Prod.snd) := by
  unfold medianConsensus at chosen
  dsimp only at chosen
  split at chosen
  · cases chosen
  · rename_i enough
    split at chosen
    · injection chosen with same
      injection same with _ vector
      refine ⟨not_lt.mp enough, vector.symm.trans ?_⟩
      rw [values_map, List.map_map, List.map_map]
      rfl
    · cases chosen

/-- Whatever one book quotes, a consensus price stays within what the other books quote. -/
theorem consensus_breakdown (opts : AnchorOptions) (only : ChangedOnly k p p') {anchor : Str}
    {odds : List ℚ} (chosen : medianConsensus opts p' = some (anchor, odds)) :
    List.Forall₂ (fun s o => Within (otherGross opts.commissions p k s) o) p.keys odds := by
  obtain ⟨enough, rfl⟩ := medianConsensus_some chosen
  rw [← only.selections, List.forall₂_map_right_iff, List.forall₂_same]
  intro s quoted
  exact within_otherGross only quoted enough

end

/-- `Tipico` quotes 9.9 on a side where nobody else goes past 2.1. -/
def oneBadBook : Prices :=
  Dict.ofList
    [("Arsenal".toList, Dict.ofList [("Bet365".toList, 2), ("Unibet".toList, 21 / 10),
      ("tipico".toList, 99 / 10), ("Betway".toList, 19 / 10)]),
    ("Chelsea".toList, Dict.ofList [("Bet365".toList, 18 / 10), ("Unibet".toList, 17 / 10),
      ("Tipico".toList, 2), ("Betway".toList, 19 / 10)])]

def beforeBadBook : Prices :=
  Dict.ofList
    [("Arsenal".toList, Dict.ofList [("Bet365".toList, 2), ("Unibet".toList, 21 / 10),
      ("Tipico".toList, 2), ("Betway".toList, 19 / 10)]),
    ("Chelsea".toList, Dict.ofList [("Bet365".toList, 18 / 10), ("Unibet".toList, 17 / 10),
      ("Tipico".toList, 18 / 10), ("Betway".toList, 19 / 10)])]

theorem changedOnly_badBook : @ChangedOnly Unicode.ascii "tipico".toList beforeBadBook oneBadBook :=
  @changedOnly_of_keys Unicode.ascii _ _ _ (by decide +kernel) (by decide +kernel)

theorem consensus_breakdown_tipico :
    List.Forall₂ (fun s o => Within (@otherGross Unicode.ascii exchangeCommission beforeBadBook
        "tipico".toList s) o) beforeBadBook.keys [41 / 20, 37 / 20] :=
  @consensus_breakdown Unicode.ascii "tipico".toList beforeBadBook oneBadBook {} changedOnly_badBook
    consensusAnchor _ (by decide +kernel)

end SharpEvPicks.Edge
