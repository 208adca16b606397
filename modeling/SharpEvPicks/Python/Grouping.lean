import SharpEvPicks.Python.Reordering

/-! Lists grouped by a key, and by a key and a second one below it. -/
namespace Python

variable {α κ σ ν : Type*} [DecidableEq κ]

theorem filter_apart_perm {p q : α → Bool} (apart : ∀ x, ¬ (p x ∧ q x)) (l : List α) :
    (l.filter p ++ l.filter q).Perm (l.filter fun x => p x || q x) := by
  induction l with
  | nil => exact .refl _
  | cons x l ih =>
    cases left : p x with
    | true =>
      have right : q x = false := Bool.eq_false_iff.mpr fun right => apart x ⟨left, right⟩
      simpa [left, right] using ih
    | false =>
      cases right : q x with
      | true =>
        simp only [List.filter_cons, left, right, Bool.or_true, if_true, Bool.false_eq_true,
          if_false]
        exact List.perm_middle.trans (.cons x ih)
      | false => simpa [left, right] using ih

/-- The groups of some keys hold the items with one of these keys. -/
theorem flatMap_filter_perm (key : α → κ) {keys : List κ} (nodup : keys.Nodup) (l : List α) :
    (keys.flatMap fun k => l.filter fun x => key x = k).Perm
    (l.filter fun x => key x ∈ keys) := by
  induction keys with
  | nil => simp
  | cons k keys ih =>
    obtain ⟨fresh, rest⟩ := List.nodup_cons.mp nodup
    rw [List.flatMap_cons]
    refine ((ih rest).append_left _).trans ?_
    refine (filter_apart_perm ?_ l).trans (.of_eq (List.filter_congr fun x _ => ?_))
    · rintro x ⟨here, there⟩
      simp only [decide_eq_true_eq] at here there
      exact fresh (here ▸ there)
    · simp [List.mem_cons]

/-! `groups.setdefault(key(x), []).append(x)`. -/

def groupsOf (key : α → κ) (l : List α) : Dict κ (List α) :=
  l.foldl (fun groups x => groups.modify (key x) fun old => old.getD [] ++ [x]) Dict.empty

theorem mem_keys_groupsOf {key : α → κ} {l : List α} {k : κ} :
    k ∈ (groupsOf key l).keys ↔ ∃ x ∈ l, key x = k := by
  rw [groupsOf, Dict.mem_keys_foldl_modify key fun old x => old.getD [] ++ [x]]
  exact or_iff_right (List.not_mem_nil)

theorem getD_groupsOf (key : α → κ) (l : List α) (k : κ) :
    ((groupsOf key l).get? k).getD [] = l.filter fun x => key x = k := by
  have grouped := Dict.getD_get?_foldl_append key id l k
  rw [List.map_id] at grouped
  exact grouped

theorem group_of_mem {key : α → κ} {l : List α} {entry : κ × List α}
    (listed : entry ∈ (groupsOf key l).entries) :
    entry.2 = l.filter fun x => key x = entry.1 := by
  have held := Dict.get?_eq_some_iff.mpr listed
  rw [← getD_groupsOf, held, Option.getD_some]

theorem entry_of_mem {key : α → κ} {l : List α} {x : α} (listed : x ∈ l) :
    (key x, l.filter fun y => key y = key x) ∈ (groupsOf key l).entries := by
  have there : key x ∈ (groupsOf key l).keys := mem_keys_groupsOf.mpr ⟨x, listed, rfl⟩
  obtain ⟨group, held⟩ := Option.isSome_iff_exists.mp (Dict.mem_keys_iff.mp there)
  have grouped := getD_groupsOf key l (key x)
  rw [held, Option.getD_some] at grouped
  rw [← grouped]
  exact Dict.get?_eq_some_iff.mp held

/-- The groups hold every item once. -/
theorem flatMap_groupsOf_perm (key : α → κ) (l : List α) :
    ((groupsOf key l).entries.flatMap Prod.snd).Perm l := by
  rw [Dict.entries_eq _ [], List.flatMap_map]
  simp only [getD_groupsOf]
  refine (flatMap_filter_perm key (groupsOf key l).nodup l).trans (.of_eq ?_)
  rw [List.filter_eq_self]
  intro x listed
  exact decide_eq_true (mem_keys_groupsOf.mpr ⟨x, listed, rfl⟩)

/-! Writes and removals in a row. -/

/-- A loop of writes leaves at a key what was last written there. -/
theorem get?_foldl_set (l : List (κ × ν)) (d : Dict κ ν) (k : κ) :
    (l.foldl (fun d e => d.set e.1 e.2) d).get? k =
      ((l.reverse.find? fun e => e.1 = k).map Prod.snd).or (d.get? k) := by
  induction l generalizing d with
  | nil => rfl
  | cons e l ih =>
    rw [List.foldl_cons, ih, List.reverse_cons, List.find?_append, Dict.get?_set]
    cases l.reverse.find? fun e => e.1 = k with
    | some found => rfl
    | none =>
      by_cases here : k = e.1
      · simp [here]
      · simp [here, Ne.symm here]

/-- A key that is written has one of the values written. -/
theorem written_of_mem {l : List (κ × ν)} {k : κ} (listed : k ∈ l.map Prod.fst)
    (d : Dict κ ν) :
    ∃ v, (k, v) ∈ l ∧ (l.foldl (fun d e => d.set e.1 e.2) d).get? k = some v := by
  obtain ⟨e, inside, rfl⟩ := List.mem_map.mp listed
  rw [get?_foldl_set]
  cases found : l.reverse.find? fun e' => e'.1 = e.1 with
  | none =>
    have missing := List.find?_eq_none.mp found e (List.mem_reverse.mpr inside)
    exact absurd (decide_eq_true rfl) missing
  | some e' =>
    have same : e'.1 = e.1 := by simpa using List.find?_some found
    exact ⟨e'.2, same ▸ List.mem_reverse.mp (List.mem_of_find?_eq_some found), rfl⟩

theorem get?_foldl_pop (l : List κ) (d : Dict κ ν) (k : κ) :
    (l.foldl (fun d k => d.pop k) d).get? k = if k ∈ l then none else d.get? k := by
  induction l generalizing d with
  | nil => rfl
  | cons k' l ih =>
    rw [List.foldl_cons, ih, Dict.get?_pop]
    by_cases later : k ∈ l
    · simp [later]
    · by_cases here : k = k' <;> simp [later, here]

/-! `nested.setdefault(key(x), {})[sub(x)] = value(x)`. -/

section Nested
variable [DecidableEq σ] (key : α → κ) (sub : α → σ) (value : α → ν)

def nestOf (l : List α) : Dict κ (Dict σ ν) :=
  l.foldl (fun nested x => nested.modify (key x) fun old =>
    (old.getD Dict.empty).set (sub x) (value x)) Dict.empty

/-- An inner entry with its outer key. -/
def flatten (nested : Dict κ (Dict σ ν)) : List (κ × σ × ν) :=
  nested.entries.flatMap fun outer => outer.2.entries.map fun inner => (outer.1, inner.1, inner.2)

variable {key sub value} {l : List α} {nested : Dict κ (Dict σ ν)} {k : κ} {s : σ} {v : ν}

omit [DecidableEq κ] [DecidableEq σ] in
theorem mem_flatten : (k, s, v) ∈ flatten nested ↔ ∃ inner, (k, inner) ∈ nested.entries ∧
    (s, v) ∈ inner.entries := by
  simp only [flatten, List.mem_flatMap, List.mem_map, Prod.mk.injEq, Prod.exists]
  constructor
  · rintro ⟨k, inner, there, s, v, held, rfl, rfl, rfl⟩
    exact ⟨inner, there, held⟩
  · rintro ⟨inner, there, held⟩
    exact ⟨k, inner, there, s, v, held, rfl, rfl, rfl⟩

theorem mem_flatten_iff : (k, s, v) ∈ flatten nested ↔
    ((nested.get? k).bind fun inner => inner.get? s) = some v := by
  rw [mem_flatten, Option.bind_eq_some_iff]
  simp only [Dict.get?_eq_some_iff]

omit [DecidableEq σ] in
theorem flatten_nodup : (flatten nested).Nodup := by
  unfold flatten
  rw [List.nodup_flatMap]
  constructor
  · intro outer there
    apply outer.2.entries_nodup.map
    intro inner inner' same
    simpa [Prod.ext_iff] using same
  · refine nested.entries_nodup.imp_of_mem ?_
    intro outer outer' there there' distinct x held held'
    obtain ⟨inner, -, rfl⟩ := List.mem_map.mp held
    obtain ⟨inner', -, same⟩ := List.mem_map.mp held'
    exact distinct (Dict.entry_unique there there' (congrArg Prod.fst same).symm)

/-- What is held below two keys is the last that was put there. -/
theorem get?_nestOf (l : List α) (k : κ) (s : σ) :
    (((nestOf key sub value l).get? k).bind fun inner => inner.get? s) =
      (l.filter fun x => key x = k ∧ sub x = s).getLast?.map value := by
  have run (d : Option (Dict σ ν)) (group : List α) :
      ((group.foldl (fun old x => some ((old.getD Dict.empty).set (sub x) (value x))) d).bind
        fun inner => inner.get? s) =
        ((group.filter fun x => sub x = s).getLast?.map value).or
          (d.bind fun inner => inner.get? s) := by
    induction group generalizing d with
    | nil => rfl
    | cons x group ih =>
      rw [List.foldl_cons, ih, Option.bind_some, Dict.get?_set]
      by_cases here : sub x = s
      · rw [if_pos here.symm, List.filter_cons_of_pos (by simpa using here), List.getLast?_cons]
        cases (group.filter fun x => sub x = s).getLast? <;> rfl
      · rw [if_neg (Ne.symm here), List.filter_cons_of_neg (by simpa using here)]
        cases d <;> rfl
  rw [nestOf, Dict.get?_foldl_modify key fun old x => (old.getD Dict.empty).set (sub x) (value x),
    Dict.get?_empty, run, List.filter_filter, Option.bind_none, Option.or_none]
  congr 2
  apply List.filter_congr
  intro x _
  rw [Bool.decide_and, Bool.and_comm]

theorem mem_keys_nestOf : k ∈ (nestOf key sub value l).keys ↔ ∃ x ∈ l, key x = k := by
  rw [nestOf, Dict.mem_keys_foldl_modify key fun old x =>
    (old.getD Dict.empty).set (sub x) (value x)]
  exact or_iff_right (List.not_mem_nil)

theorem mem_inner_keys {inner : Dict σ ν}
    (there : (k, inner) ∈ (nestOf key sub value l).entries) :
    s ∈ inner.keys ↔ ∃ x ∈ l, key x = k ∧ sub x = s := by
  have held : ((nestOf key sub value l).get? k).bind (fun inner => inner.get? s) =
      (l.filter fun x => key x = k ∧ sub x = s).getLast?.map value := get?_nestOf l k s
  rw [Dict.get?_eq_some_iff.mpr there, Option.bind_some] at held
  rw [Dict.mem_keys_iff, held, Option.isSome_map, List.getLast?_isSome, ne_eq,
    List.filter_eq_nil_iff]
  simp

end Nested
/-! `counts[x] += 1`. -/

theorem sum_insert (l : List (κ × Nat)) (k : κ) (n : Nat) :
    ((Dict.insert l k n).map Prod.snd).sum + (Dict.find l k).getD 0 = (l.map Prod.snd).sum + n := by
  induction l with
  | nil => simp [Dict.insert, Dict.find]
  | cons e l ih =>
    unfold Dict.insert Dict.find
    by_cases here : e.1 = k
    · simp only [here, if_true, List.map_cons, List.sum_cons, Option.getD_some]
      omega
    · simp only [here, if_false, List.map_cons, List.sum_cons]
      omega

/-- A counter counts every item once. -/
theorem sum_values_counter (l : List κ) (d : Dict κ Nat) :
    (l.foldl (fun counts x => counts.modify x fun n => n.getD 0 + 1) d).values.sum =
      d.values.sum + l.length := by
  induction l generalizing d with
  | nil => rfl
  | cons x l ih =>
    have one : (d.modify x fun n => n.getD 0 + 1).values.sum = d.values.sum + 1 := by
      have total := sum_insert d.entries x ((Dict.find d.entries x).getD 0 + 1)
      change ((Dict.insert d.entries x ((Dict.find d.entries x).getD 0 + 1)).map Prod.snd).sum =
        (d.entries.map Prod.snd).sum + 1
      omega
    rw [List.foldl_cons, ih, one, List.length_cons]
    omega

end Python
