import Mathlib.Data.List.Basic
import Mathlib.Tactic.Linarith
import SharpEvPicks.Resolution.Assignment
import SharpEvPicks.Resolution.Matching

/-! Jaro-Winkler is a proper similarity. The partners of the greedy scan are the one stable
assignment of equal characters, whichever string scans. -/
namespace SharpEvPicks.Resolution

open Python Assignment

/-! The partners of the scan. -/

/-- Equal characters no further apart than the window. -/
def InWindow (distance : Nat) (s1 s2 : Str) (i j : Nat) : Prop :=
  i ≤ j + distance ∧ j ≤ i + distance ∧ ∃ c, s1[i]? = some c ∧ s2[j]? = some c

def partners (distance : Nat) : Nat → Str → Flagged → List (Nat × Nat)
  | _, [], _ => []
  | i, c :: s1, s2 =>
    match freePartner c s2 (i - distance) (min (i + distance + 1) s2.length) with
    | none => partners distance (i + 1) s1 s2
    | some j => (i, j) :: partners distance (i + 1) s1 (s2.set j (c, true))

/-- The first free character of the window. -/
structure Earliest (distance i : Nat) (c : Char) (s2 : Flagged) (j : Nat) : Prop where
  free : s2[j]? = some (c, false)
  low : i ≤ j + distance
  high : j ≤ i + distance
  first : ∀ k, i ≤ k + distance → k ≤ i + distance → s2[k]? = some (c, false) → j ≤ k

theorem freePartner_some {distance i j : Nat} {c : Char} {s2 : Flagged}
    (found : freePartner c s2 (i - distance) (min (i + distance + 1) s2.length) = some j) :
    Earliest distance i c s2 j := by
  obtain ⟨free, inside, before⟩ := List.find?_range'_eq_some.mp found
  have window := List.mem_range'_1.mp inside
  refine ⟨by simpa using free, by omega, by omega, fun k low high other => ?_⟩
  by_contra later
  have taken := before k (by omega) (by omega)
  rw [other] at taken
  simp at taken

theorem freePartner_none {distance i k : Nat} {c : Char} {s2 : Flagged}
    (missing : freePartner c s2 (i - distance) (min (i + distance + 1) s2.length) = none)
    (low : i ≤ k + distance) (high : k ≤ i + distance) : s2[k]? ≠ some (c, false) := by
  intro free
  obtain ⟨inside, -⟩ := List.getElem?_eq_some_iff.mp free
  have absent := List.find?_eq_none.mp missing k (List.mem_range'_1.mpr (by omega))
  rw [free] at absent
  simp at absent

/-- What the scan from position `i` on assigns. -/
structure Assigned (distance i : Nat) (s1 : Str) (s2 : Flagged) (pairs : List (Nat × Nat)) :
    Prop where
  sound : ∀ {p j}, (p, j) ∈ pairs → i ≤ p ∧ p ≤ j + distance ∧ j ≤ p + distance ∧
    ∃ c, s1[p - i]? = some c ∧ s2[j]? = some (c, false)
  left : ∀ {p j j'}, (p, j) ∈ pairs → (p, j') ∈ pairs → j = j'
  right : ∀ {p p' j}, (p, j) ∈ pairs → (p', j) ∈ pairs → p = p'
  content : ∀ {p j c}, i ≤ p → p ≤ j + distance → j ≤ p + distance →
    s1[p - i]? = some c →
    s2[j]? = some (c, false) → (∃ j' ≤ j, (p, j') ∈ pairs) ∨ ∃ p' ≤ p,
      (p', j) ∈ pairs

theorem getElem?_sub_succ {α : Type*} {c : α} {s : List α} {p i : Nat} (later : i + 1 ≤ p) :
    (c :: s)[p - i]? = s[p - (i + 1)]? := by
  obtain ⟨k, rfl⟩ := Nat.exists_eq_add_of_le later
  rw [show i + 1 + k - i = k + 1 by omega, show i + 1 + k - (i + 1) = k by
    omega, List.getElem?_cons_succ]

theorem Assigned.skip {distance i : Nat} {c : Char} {s1 : Str} {s2 : Flagged}
    {pairs : List (Nat × Nat)}
    (missing : ∀ k, i ≤ k + distance → k ≤ i + distance → s2[k]? ≠ some (c, false))
    (rest : Assigned distance (i + 1) s1 s2 pairs) : Assigned distance i (c :: s1) s2 pairs where
  sound {p j} inside := by
    obtain ⟨later, low, high, d, own, free⟩ := rest.sound inside
    exact ⟨by omega, low, high, d, by rw [getElem?_sub_succ later, own], free⟩
  left := rest.left
  right := rest.right
  content {p j d} start low high own free := by
    obtain rfl | later := Nat.eq_or_lt_of_le start
    · rw [Nat.sub_self, List.getElem?_cons_zero, Option.some.injEq] at own
      subst own
      exact absurd free (missing j low high)
    · rw [getElem?_sub_succ later] at own
      exact rest.content later low high own free

theorem Assigned.take {distance i j : Nat} {c : Char} {s1 : Str} {s2 : Flagged}
    {pairs : List (Nat × Nat)} (taken : Earliest distance i c s2 j)
    (rest : Assigned distance (i + 1) s1 (s2.set j (c, true)) pairs) :
    Assigned distance i (c :: s1) s2 ((i, j) :: pairs) := by
  obtain ⟨bound, -⟩ := List.getElem?_eq_some_iff.mp taken.free
  have marked : (s2.set j (c, true))[j]? = some (c, true) := List.getElem?_set_self bound
  have other {k : Nat} (apart : k ≠ j) : (s2.set j (c, true))[k]? = s2[k]? :=
    List.getElem?_set_ne apart.symm
  have fresh {p k : Nat} (inside : (p, k) ∈ pairs) : k ≠ j := by
    rintro rfl
    obtain ⟨-, -, -, d, -, free⟩ := rest.sound inside
    rw [marked] at free
    cases free
  refine ⟨?_, ?_, ?_, ?_⟩
  · intro p k inside
    obtain first | later := List.mem_cons.mp inside
    · cases first
      exact ⟨le_rfl, taken.low, taken.high, c, by simp, taken.free⟩
    · obtain ⟨start, low, high, d, own, free⟩ := rest.sound later
      rw [other (fresh later)] at free
      exact ⟨by omega, low, high, d, by rw [getElem?_sub_succ start, own], free⟩
  · intro p k k' inside inside'
    obtain first | later := List.mem_cons.mp inside
    · obtain first' | later' := List.mem_cons.mp inside'
      · cases first
        cases first'
        rfl
      · cases first
        have := (rest.sound later').1
        omega
    · obtain first' | later' := List.mem_cons.mp inside'
      · cases first'
        have := (rest.sound later).1
        omega
      · exact rest.left later later'
  · intro p p' k inside inside'
    obtain first | later := List.mem_cons.mp inside
    · obtain first' | later' := List.mem_cons.mp inside'
      · cases first
        cases first'
        rfl
      · cases first
        exact absurd rfl (fresh later')
    · obtain first' | later' := List.mem_cons.mp inside'
      · cases first'
        exact absurd rfl (fresh later)
      · exact rest.right later later'
  · intro p k d start low high own free
    obtain rfl | later := Nat.eq_or_lt_of_le start
    · rw [Nat.sub_self, List.getElem?_cons_zero, Option.some.injEq] at own
      subst own
      exact .inl ⟨j, taken.first k low high free, List.mem_cons_self⟩
    · by_cases same : k = j
      · subst same
        exact .inr ⟨i, start, List.mem_cons_self⟩
      · rw [getElem?_sub_succ later] at own
        rw [← other same] at free
        obtain ⟨k', le, inside⟩ | ⟨p', le, inside⟩ := rest.content later low high own free
        · exact .inl ⟨k', le, List.mem_cons_of_mem _ inside⟩
        · exact .inr ⟨p', le, List.mem_cons_of_mem _ inside⟩

theorem assigned_partners (distance i : Nat) (s1 : Str) (s2 : Flagged) :
    Assigned distance i s1 s2 (partners distance i s1 s2) := by
  induction s1 generalizing i s2 with
  | nil => exact ⟨by simp [partners], by simp [partners], by simp [partners], by simp⟩
  | cons c s1 ih =>
    unfold partners
    split
    · rename_i missing
      exact (ih (i + 1) s2).skip fun k => freePartner_none missing
    · rename_i j found
      exact (ih (i + 1) (s2.set j (c, true))).take (freePartner_some found)

/-- The partners of the whole scan. -/
def partnered (distance : Nat) (s1 s2 : Str) : List (Nat × Nat) :=
  partners distance 0 s1 (s2.map fun c => (c, false))

theorem partnered_stable (distance : Nat) (s1 s2 : Str) :
    Stable (InWindow distance s1 s2) fun i j => (i, j) ∈ partnered distance s1 s2 := by
  have scan := assigned_partners distance 0 s1 (s2.map fun c => (c, false))
  have unflagged {j : Nat} {c : Char} : (s2.map fun c => (c, false))[j]? = some (c, false) ↔
      s2[j]? = some c := by
    simp
  refine ⟨?_, scan.left, scan.right, ?_⟩
  · intro i j inside
    obtain ⟨-, low, high, c, own, free⟩ := scan.sound inside
    exact ⟨low, high, c, own, unflagged.mp free⟩
  · rintro i j ⟨low, high, c, own, same⟩
    exact scan.content (Nat.zero_le i) low high own (unflagged.mpr same)

/-- Either string may scan. -/
theorem mem_partnered_swap (distance : Nat) (s1 s2 : Str) (i j : Nat) :
    (i, j) ∈ partnered distance s1 s2 ↔ (j, i) ∈ partnered distance s2 s1 := by
  have window : InWindow distance s1 s2 = fun i j => InWindow distance s2 s1 j i := by
    funext i j
    refine propext ⟨?_, ?_⟩
    · rintro ⟨low, high, c, own, same⟩
      exact ⟨high, low, c, same, own⟩
    · rintro ⟨low, high, c, own, same⟩
      exact ⟨high, low, c, same, own⟩
  have stable := partnered_stable distance s1 s2
  rw [window] at stable
  exact stable.unique (partnered_stable distance s2 s1).swap i j

/-! The flags of the scan. -/

theorem matchFrom_left (distance i : Nat) (s1 : Str) (s2 : Flagged) (k : Nat) :
    (matchFrom distance i s1 s2).1[k]? =
      s1[k]?.map fun c => (c, decide (i + k ∈ (partners distance i s1 s2).map Prod.fst)) := by
  induction s1 generalizing i s2 k with
  | nil => simp [matchFrom]
  | cons c s1 ih =>
    have later (s2 : Flagged) : i ∉ (partners distance (i + 1) s1 s2).map Prod.fst := by
      intro inside
      obtain ⟨⟨p, j⟩, listed, rfl⟩ := List.mem_map.mp inside
      have := ((assigned_partners distance (p + 1) s1 s2).sound listed).1
      omega
    cases found : freePartner c s2 (i - distance) (min (i + distance + 1) s2.length) with
    | none =>
      simp only [matchFrom, partners, found]
      cases k with
      | zero => simp only [List.getElem?_cons_zero, Option.map_some, Nat.add_zero, later,
          decide_false]
      | succ k => rw [List.getElem?_cons_succ, List.getElem?_cons_succ, ih, Nat.add_right_comm,
          Nat.add_assoc]
    | some j =>
      simp only [matchFrom, partners, found]
      cases k with
      | zero => simp
      | succ k =>
        rw [List.getElem?_cons_succ, List.getElem?_cons_succ, ih, Nat.add_right_comm, Nat.add_assoc]
        have flag : i + (k + 1) ∈
            ((i, j) :: partners distance (i + 1) s1 (s2.set j (c, true))).map Prod.fst ↔
            i + (k + 1) ∈ (partners distance (i + 1) s1 (s2.set j (c, true))).map Prod.fst := by
          rw [List.map_cons, List.mem_cons]
          exact or_iff_right (by omega)
        rw [decide_eq_decide.mpr flag]

theorem matchFrom_right (distance i : Nat) (s1 : Str) (s2 : Flagged) (j : Nat) :
    (matchFrom distance i s1 s2).2[j]? =
      s2[j]?.map fun x =>
        (x.1, x.2 || decide (j ∈ (partners distance i s1 s2).map Prod.snd)) := by
  induction s1 generalizing i s2 with
  | nil => simp [matchFrom, partners]
  | cons c s1 ih =>
    cases found : freePartner c s2 (i - distance) (min (i + distance + 1) s2.length) with
    | none =>
      simp only [matchFrom, partners, found]
      exact ih (i + 1) s2
    | some k =>
      have free := (freePartner_some found).free
      obtain ⟨bound, -⟩ := List.getElem?_eq_some_iff.mp free
      simp only [matchFrom, partners, found]
      rw [ih]
      by_cases same : j = k
      · subst same
        rw [List.getElem?_set_self bound, free]
        simp
      · rw [List.getElem?_set_ne (Ne.symm same)]
        have flag : j ∈ ((i, k) :: partners distance (i + 1) s1 (s2.set k (c, true))).map
            Prod.snd ↔
            j ∈ (partners distance (i + 1) s1 (s2.set k (c, true))).map Prod.snd := by
          rw [List.map_cons, List.mem_cons]
          exact or_iff_right same
        rw [decide_eq_decide.mpr flag]

def unflagged (s : Str) : Flagged := s.map fun c => (c, false)

/-- The scan from the other string sets the same flags. -/
theorem matchFrom_swap (distance : Nat) (s1 s2 : Str) :
    matchFrom distance 0 s2 (unflagged s1) = (matchFrom distance 0 s1 (unflagged s2)).swap := by
  have either (s1 s2 : Str) :
      (matchFrom distance 0 s1 (unflagged s2)).1 = (matchFrom distance 0 s2 (unflagged s1)).2 := by
    refine List.ext_getElem? fun k => ?_
    have flags : k ∈ (partners distance 0 s1 (unflagged s2)).map Prod.fst ↔
        k ∈ (partners distance 0 s2 (unflagged s1)).map Prod.snd := by
      simp only [List.mem_map, Prod.exists, exists_and_right, exists_eq_right]
      exact exists_congr fun j => mem_partnered_swap distance s1 s2 k j
    have chars : (unflagged s1)[k]? = s1[k]?.map fun c => (c, false) := List.getElem?_map
    rw [matchFrom_left, matchFrom_right, chars, Option.map_map, Nat.zero_add,
      decide_eq_decide.mpr flags]
    rfl
  exact Prod.ext (either s2 s1) (either s1 s2).symm

theorem matchFrom_chars (distance : Nat) (s1 s2 : Str) :
    (matchFrom distance 0 s1 (unflagged s2)).1.map Prod.fst = s1 ∧
      (matchFrom distance 0 s1 (unflagged s2)).2.map Prod.fst = s2 := by
  constructor
  · refine List.ext_getElem? fun k => ?_
    rw [List.getElem?_map, matchFrom_left, Option.map_map]
    exact Option.map_id_apply
  · refine List.ext_getElem? fun k => ?_
    have chars : (unflagged s2)[k]? = s2[k]?.map fun c => (c, false) := List.getElem?_map
    rw [List.getElem?_map, matchFrom_right, chars, Option.map_map, Option.map_map]
    exact Option.map_id_apply

/-! Transpositions. -/

def kept (s : Flagged) : Str := (s.filter (·.2)).map Prod.fst

theorem length_kept (s : Flagged) : (kept s).length = matched s := by
  rw [kept, List.length_map, matched, List.countP_eq_length_filter]

theorem nextMatched_kept {s rest : Flagged} {c : Char} (next : nextMatched s = some (c, rest)) :
    kept s = c :: kept rest := by
  induction s with
  | nil => cases next
  | cons x s ih =>
    obtain ⟨d, flag⟩ := x
    cases flag with
    | true =>
      cases next
      rfl
    | false => exact ih next

def mismatches (a b : Str) : Nat := (a.zip b).countP fun pair => pair.1 ≠ pair.2

theorem outOfOrder_kept {s1 s2 : Flagged} {n : Nat} (counted : outOfOrder s1 s2 = some n) :
    n = mismatches (kept s1) (kept s2) := by
  induction s1 generalizing s2 n with
  | nil =>
    cases counted
    rfl
  | cons x s1 ih =>
    obtain ⟨c, flag⟩ := x
    cases flag with
    | false => exact ih counted
    | true =>
      simp only [outOfOrder, Option.bind_eq_bind, Option.bind_eq_some_iff, Prod.exists,
        Option.pure_def, Option.some.injEq] at counted
      obtain ⟨d, rest, next, m, below, rfl⟩ := counted
      have head : kept ((c, true) :: s1) = c :: kept s1 := rfl
      rw [head, nextMatched_kept next, mismatches, List.zip_cons_cons, List.countP_cons, ih below,
        mismatches]
      by_cases same : c = d
      · simp [same]
      · simp [same]

theorem mismatches_comm (a b : Str) : mismatches a b = mismatches b a := by
  unfold mismatches
  rw [← List.zip_swap, List.countP_map]
  refine List.countP_congr fun pair _ => ?_
  simp only [Function.comp_apply, Prod.fst_swap, Prod.snd_swap, decide_eq_true_eq]
  exact ne_comm

theorem mismatches_le (a b : Str) : mismatches a b ≤ a.length := by
  have counted : mismatches a b ≤ (a.zip b).length := List.countP_le_length
  rw [List.length_zip] at counted
  omega

theorem eq_of_mismatches {a b : Str} (same : a.length = b.length) (none_ : mismatches a b = 0) :
    a = b := by
  refine List.ext_getElem same fun k inA inB => ?_
  have pair : (a[k], b[k]) ∈ a.zip b := by
    rw [← List.getElem_zip (h := by simpa using ⟨inA, inB⟩)]
    exact List.getElem_mem _
  simpa using List.countP_eq_zero.mp none_ _ pair

theorem length_kept_le (s : Flagged) : (kept s).length ≤ s.length := by
  rw [length_kept]
  exact List.countP_le_length

theorem kept_eq {s : Flagged} (full : (kept s).length = s.length) : kept s = s.map Prod.fst := by
  rw [length_kept, matched, List.countP_eq_length] at full
  rw [kept, List.filter_eq_self.mpr full]

/-! The score. -/

/-- The matched characters of either string, in its own order. -/
def common (s1 s2 : Str) : Str × Str :=
  (matchFrom (max s1.length s2.length / 2 - 1) 0 s1 (unflagged s2)).map kept kept

theorem common_swap (s1 s2 : Str) : common s2 s1 = (common s1 s2).swap := by
  unfold common
  rw [max_comm s2.length, matchFrom_swap]
  rfl

theorem length_common (s1 s2 : Str) : (common s1 s2).1.length = (common s1 s2).2.length := by
  have balance := matchFrom_matched (max s1.length s2.length / 2 - 1) 0 s1 (unflagged s2)
  have free : matched (unflagged s2) = 0 := by
    rw [matched, unflagged, List.countP_map, List.countP_eq_zero]
    intro c _ flag
    cases flag
  rw [free, Nat.add_zero] at balance
  rw [common, Prod.map_fst, Prod.map_snd, length_kept, length_kept, balance]

theorem length_common_le (s1 s2 : Str) : (common s1 s2).1.length ≤ s1.length := by
  have chars := congrArg List.length (matchFrom_chars (max s1.length s2.length / 2 - 1) s1 s2).1
  rw [List.length_map] at chars
  rw [← chars]
  exact length_kept_le _

theorem common_eq {s1 s2 : Str} (full : (common s1 s2).1.length = s1.length) :
    (common s1 s2).1 = s1 := by
  have chars := (matchFrom_chars (max s1.length s2.length / 2 - 1) s1 s2).1
  have lengths := congrArg List.length chars
  rw [List.length_map] at lengths
  rw [← lengths] at full
  exact (kept_eq full).trans chars

/-- The Jaro score of `m` matches with `n` of them out of order. -/
def scoreOf (s1 s2 : Str) (m n : ℚ) : ℚ :=
  if m = 0 then 0 else (m / s1.length + m / s2.length + (m - n / 2) / m) / 3

theorem jaro_eq {s1 s2 : Str} (apart : s1 ≠ s2) (nonempty : ¬ (s1 = [] ∨ s2 = [])) :
    jaro s1 s2 = scoreOf s1 s2 (common s1 s2).1.length
      (mismatches (common s1 s2).1 (common s1 s2).2) := by
  obtain ⟨n, counted⟩ :=
    Option.isSome_iff_exists.mp (jaro_scan_isSome (max s1.length s2.length / 2 - 1) s1 s2)
  have order := outOfOrder_kept counted
  unfold jaro scoreOf
  rw [if_neg apart, if_neg nonempty]
  dsimp only
  rw [counted, Option.getD_some, order, common, Prod.map_fst, Prod.map_snd, length_kept]
  rfl

theorem jaro_comm (s1 s2 : Str) : jaro s1 s2 = jaro s2 s1 := by
  by_cases same : s1 = s2
  · rw [same]
  · by_cases empty : s1 = [] ∨ s2 = []
    · unfold jaro
      rw [if_neg same, if_pos empty, if_neg (Ne.symm same), if_pos empty.symm]
    · rw [jaro_eq same empty, jaro_eq (Ne.symm same) fun reversed => empty reversed.symm,
        common_swap s1 s2, Prod.fst_swap, Prod.snd_swap, length_common, mismatches_comm]
      unfold scoreOf
      rw [add_comm ((_ : ℚ) / (s1.length : ℚ))]

/-- The parts of the score lie between 0 and 1. -/
structure Parts (s1 s2 : Str) (x y z : ℚ) : Prop where
  score : jaro s1 s2 = (x + y + z) / 3
  nonneg : 0 ≤ x ∧ 0 ≤ y ∧ 0 ≤ z
  le_one : x ≤ 1 ∧ y ≤ 1 ∧ z ≤ 1
  full : x = 1 → (common s1 s2).1.length = s1.length
  full' : y = 1 → (common s1 s2).2.length = s2.length
  ordered : z = 1 → mismatches (common s1 s2).1 (common s1 s2).2 = 0

theorem exists_parts {s1 s2 : Str} (apart : s1 ≠ s2) (nonempty : ¬ (s1 = [] ∨ s2 = []))
    (matches_ : 0 < (common s1 s2).1.length) : ∃ x y z, Parts s1 s2 x y z := by
  obtain ⟨some1, some2⟩ := not_or.mp nonempty
  have positive1 : (0 : ℚ) < s1.length := by exact_mod_cast List.length_pos_iff.mpr some1
  have positive2 : (0 : ℚ) < s2.length := by exact_mod_cast List.length_pos_iff.mpr some2
  have positive : (0 : ℚ) < (common s1 s2).1.length := by exact_mod_cast matches_
  have within1 : ((common s1 s2).1.length : ℚ) ≤ s1.length := by
    exact_mod_cast length_common_le s1 s2
  have within2 : ((common s1 s2).1.length : ℚ) ≤ s2.length := by
    have bound := length_common_le s2 s1
    rw [common_swap, Prod.fst_swap, ← length_common] at bound
    exact_mod_cast bound
  have few : (mismatches (common s1 s2).1 (common s1 s2).2 : ℚ) ≤ (common s1 s2).1.length := by
    exact_mod_cast mismatches_le _ _
  have counted : (0 : ℚ) ≤ mismatches (common s1 s2).1 (common s1 s2).2 := Nat.cast_nonneg _
  refine ⟨(common s1 s2).1.length / s1.length, (common s1 s2).1.length / s2.length,
    ((common s1 s2).1.length - mismatches (common s1 s2).1 (common s1 s2).2 / 2) /
      (common s1 s2).1.length, ?_,
    ⟨by positivity, by positivity, div_nonneg (by linarith) positive.le⟩,
    ⟨(div_le_one positive1).mpr within1, (div_le_one positive2).mpr within2,
      (div_le_one positive).mpr (by linarith)⟩,
    ?_, ?_, ?_⟩
  · rw [jaro_eq apart nonempty, scoreOf, if_neg positive.ne']
  · intro one
    rw [div_eq_one_iff_eq positive1.ne'] at one
    exact_mod_cast one
  · intro one
    rw [div_eq_one_iff_eq positive2.ne'] at one
    rw [← length_common]
    exact_mod_cast one
  · intro one
    rw [div_eq_one_iff_eq positive.ne'] at one
    have none_ : (mismatches (common s1 s2).1 (common s1 s2).2 : ℚ) = 0 := by linarith
    exact_mod_cast none_

theorem jaro_zero {s1 s2 : Str} (apart : s1 ≠ s2)
    (none_ : s1 = [] ∨ s2 = [] ∨ (common s1 s2).1.length = 0) : jaro s1 s2 = 0 := by
  by_cases empty : s1 = [] ∨ s2 = []
  · unfold jaro
    rw [if_neg apart, if_pos empty]
  · obtain ⟨some1, some2⟩ := not_or.mp empty
    rw [jaro_eq apart empty, scoreOf, if_pos]
    exact_mod_cast (none_.resolve_left some1).resolve_left some2

theorem jaro_cases {s1 s2 : Str} (apart : s1 ≠ s2) :
    jaro s1 s2 = 0 ∨ ∃ x y z, Parts s1 s2 x y z := by
  by_cases none_ : s1 = [] ∨ s2 = [] ∨ (common s1 s2).1.length = 0
  · exact .inl (jaro_zero apart none_)
  · rw [← or_assoc, not_or] at none_
    exact .inr (exists_parts apart none_.1 (Nat.pos_of_ne_zero none_.2))

theorem jaro_nonneg (s1 s2 : Str) : 0 ≤ jaro s1 s2 := by
  by_cases same : s1 = s2
  · rw [same, jaro_self]
    exact zero_le_one
  · obtain zero | ⟨x, y, z, parts⟩ := jaro_cases same
    · exact zero.ge
    · rw [parts.score]
      linarith [parts.nonneg.1, parts.nonneg.2.1, parts.nonneg.2.2]

theorem jaro_le_one (s1 s2 : Str) : jaro s1 s2 ≤ 1 := by
  by_cases same : s1 = s2
  · rw [same, jaro_self]
  · obtain zero | ⟨x, y, z, parts⟩ := jaro_cases same
    · rw [zero]
      exact zero_le_one
    · rw [parts.score]
      linarith [parts.le_one.1, parts.le_one.2.1, parts.le_one.2.2]

theorem jaro_eq_one {s1 s2 : Str} : jaro s1 s2 = 1 ↔ s1 = s2 := by
  constructor
  · intro one
    by_contra apart
    obtain zero | ⟨x, y, z, parts⟩ := jaro_cases apart
    · rw [zero] at one
      exact zero_ne_one one
    · rw [parts.score] at one
      obtain ⟨xOne, yOne, zOne⟩ := parts.le_one
      have first := common_eq (parts.full (by linarith))
      have swapped := common_swap s1 s2
      have second : (common s1 s2).2 = s2 := by
        have full := parts.full' (by linarith)
        have mirrored : (common s2 s1).1 = (common s1 s2).2 := by rw [swapped, Prod.fst_swap]
        rw [← mirrored] at full ⊢
        exact common_eq full
      have equal := eq_of_mismatches (length_common s1 s2) (parts.ordered (by linarith))
      rw [first, second] at equal
      exact apart equal
  · rintro rfl
    exact jaro_self s1

/-! Winkler's prefix. -/

theorem commonPrefix_comm (s1 s2 : Str) : commonPrefix s1 s2 = commonPrefix s2 s1 := by
  induction s1 generalizing s2 with
  | nil => cases s2 <;> rfl
  | cons c s1 ih =>
    cases s2 with
    | nil => rfl
    | cons d s2 =>
      by_cases same : c = d
      · simp only [commonPrefix, if_pos same, if_pos same.symm, ih]
      · simp only [commonPrefix, if_neg same, if_neg (Ne.symm same)]

theorem jaroWinkler_comm (s1 s2 : Str) : jaroWinkler s1 s2 = jaroWinkler s2 s1 := by
  unfold jaroWinkler
  rw [jaro_comm, commonPrefix_comm]

/-- The prefix takes at most two fifths of what is missing. -/
theorem exists_bonus (s1 s2 : Str) :
    ∃ w : ℚ, 0 ≤ w ∧ w ≤ 2 / 5 ∧
      jaroWinkler s1 s2 = jaro s1 s2 + w * (1 - jaro s1 s2) := by
  have capped : (min (commonPrefix s1 s2) 4 : Nat) ≤ (4 : ℚ) := by
    exact_mod_cast min_le_right _ 4
  exact ⟨_, by positivity, by linarith, rfl⟩

theorem jaroWinkler_bounds (s1 s2 : Str) : 0 ≤ jaroWinkler s1 s2 ∧ jaroWinkler s1 s2 ≤ 1 := by
  obtain ⟨w, nonneg, small, score⟩ := exists_bonus s1 s2
  have missing : 0 ≤ 1 - jaro s1 s2 := sub_nonneg.mpr (jaro_le_one s1 s2)
  rw [score]
  constructor
  · exact add_nonneg (jaro_nonneg s1 s2) (mul_nonneg nonneg missing)
  · nlinarith

theorem jaroWinkler_eq_one {s1 s2 : Str} : jaroWinkler s1 s2 = 1 ↔ s1 = s2 := by
  obtain ⟨w, nonneg, small, score⟩ := exists_bonus s1 s2
  have missing : 0 ≤ 1 - jaro s1 s2 := sub_nonneg.mpr (jaro_le_one s1 s2)
  rw [score, ← jaro_eq_one]
  constructor
  · intro one
    nlinarith
  · intro one
    rw [one, sub_self, mul_zero, add_zero]

/-! The decision on two names. -/

/-- The similarity is proper on the two names, and accepting them does not look at which is the
query. -/
structure ProperSimilarity (a b : Str) : Prop where
  scan : let flagged := matchFrom (max a.length b.length / 2 - 1) 0 a (b.map fun c => (c, false))
    (outOfOrder flagged.1 flagged.2).isSome
  bounds : 0 ≤ jaroWinkler a b ∧ jaroWinkler a b ≤ 1
  one : jaroWinkler a b = 1 ↔ a = b
  symmetric : jaroWinkler a b = jaroWinkler b a
  decision : baseNameOk a b = baseNameOk b a

/-- The two names come as far as the token-sort ratio. -/
def Weighed (a b : Str) : Prop :=
  ¬ (a = [] ∨ b = []) ∧ a ≠ b ∧ initialsClash a b = false ∧ disambiguated a b = false ∧
    jwAccept ≤ jaroWinkler a b

theorem initialsClash_comm (a b : Str) : initialsClash a b = initialsClash b a := by
  unfold initialsClash
  cases tennisInitial a with
  | none => cases tennisInitial b <;> rfl
  | some initialA =>
    cases tennisInitial b with
    | none => rfl
    | some initialB => exact decide_eq_decide.mpr ne_comm

theorem disambiguated_comm (a b : Str) : disambiguated a b = disambiguated b a := by
  unfold disambiguated
  dsimp only
  rw [List.all_append, List.all_append, Bool.and_comm (List.all _ _)]
  congr 1
  refine decide_eq_decide.mpr (not_congr ?_)
  rw [List.append_eq_nil_iff, List.append_eq_nil_iff, and_comm]

theorem Weighed.swap {a b : Str} (weighed : Weighed a b) : Weighed b a := by
  obtain ⟨nonempty, apart, initials, tokens, similar⟩ := weighed
  refine ⟨fun empty => nonempty empty.symm, apart.symm, ?_, ?_, ?_⟩
  · rw [initialsClash_comm, initials]
  · rw [disambiguated_comm, tokens]
  · rw [jaroWinkler_comm]
    exact similar

theorem baseNameOk_iff {a b : Str} (apart : a ≠ b) :
    baseNameOk a b = true ↔ Weighed a b ∧ tokenSortAccept ≤ tokenSortRatio a b := by
  have floor : jwReviewFloor ≤ jwAccept := by decide +kernel
  unfold baseNameOk Weighed
  by_cases empty : a = [] ∨ b = []
  · rw [if_pos empty]
    exact iff_of_false Bool.false_ne_true fun weighed => weighed.1.1 empty
  · rw [if_neg empty, if_neg apart]
    cases initials : initialsClash a b with
    | true => exact iff_of_false Bool.false_ne_true fun weighed => absurd weighed.1.2.2.1 (by
      decide)
    | false =>
      cases tokens : disambiguated a b with
      | true => exact iff_of_false Bool.false_ne_true fun weighed => absurd weighed.1.2.2.2.1 (by
        decide)
      | false =>
        rw [if_neg Bool.false_ne_true, if_neg Bool.false_ne_true]
        by_cases low : jaroWinkler a b < jwReviewFloor
        · rw [if_pos low]
          exact iff_of_false Bool.false_ne_true fun weighed =>
            absurd (low.trans_le floor) (not_lt.mpr weighed.1.2.2.2.2)
        · rw [if_neg low, Bool.and_eq_true, decide_eq_true_iff, decide_eq_true_iff]
          exact and_congr_left fun _ =>
            ⟨fun similar => ⟨empty, apart, rfl, rfl, similar⟩,
              fun weighed => weighed.2.2.2.2⟩

/-- The decision has a direction if the token-sort ratio passes in one order only. -/
theorem baseNameOk_comm_iff (a b : Str) : baseNameOk a b = baseNameOk b a ↔
    (Weighed a b → (tokenSortAccept ≤ tokenSortRatio a b ↔
      tokenSortAccept ≤ tokenSortRatio b a)) := by
  by_cases same : a = b
  · subst same
    exact iff_of_true rfl fun _ => Iff.rfl
  · rw [Bool.eq_iff_iff, baseNameOk_iff same, baseNameOk_iff (Ne.symm same)]
    constructor
    · intro either weighed
      exact ⟨fun passed => (either.mp ⟨weighed, passed⟩).2,
        fun passed => (either.mpr ⟨weighed.swap, passed⟩).2⟩
    · intro agree
      constructor
      · rintro ⟨weighed, passed⟩
        exact ⟨weighed.swap, (agree weighed).mp passed⟩
      · rintro ⟨weighed, passed⟩
        exact ⟨weighed.swap, (agree weighed.swap).mpr passed⟩

theorem properSimilarity_iff (a b : Str) : ProperSimilarity a b ↔
    (Weighed a b → (tokenSortAccept ≤ tokenSortRatio a b ↔
      tokenSortAccept ≤ tokenSortRatio b a)) := by
  rw [← baseNameOk_comm_iff]
  constructor
  · intro proper
    exact proper.decision
  · intro decision
    exact
      { scan := jaro_scan_isSome _ a b
        bounds := jaroWinkler_bounds a b
        one := jaroWinkler_eq_one
        symmetric := jaroWinkler_comm a b
        decision := decision }

/-- `SequenceMatcher` finds other blocks when the texts change places. -/
theorem properSimilarity_fails : ¬ ∀ a b, ProperSimilarity a b := by
  intro proper
  have decision := (proper "albinoleffe".toList "albinolfefe".toList).decision
  have accepted : baseNameOk "albinoleffe".toList "albinolfefe".toList = true := by decide +kernel
  have refused : baseNameOk "albinolfefe".toList "albinoleffe".toList = false := by decide +kernel
  rw [accepted, refused] at decision
  cases decision

end SharpEvPicks.Resolution
