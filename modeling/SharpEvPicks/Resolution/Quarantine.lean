import Mathlib.Data.Finset.Card
import SharpEvPicks.Resolution.Aliases

/-! What an alias table comes to: which canonical names claim an alias decides how it resolves,
and the order of the claims does not. -/
namespace SharpEvPicks.Resolution

open Python

namespace AliasTable

/-- The names of one `add`, normalized; nothing is claimed where one of them is empty. -/
def claimOf [Unicode] (call : Str × Str) : Option (Str × Str) :=
  let name := normalizeName call.1
  let canon := normalizeName call.2
  if name = [] ∨ canon = [] then none else some (name, canon)

/-- The distinct canonical names that claim an alias. -/
def claimants (claims : List (Str × Str)) (name : Str) : Finset Str :=
  ((claims.filter fun c => c.1 = name).map Prod.snd).toFinset

/-- The table holds what the claims say, in each of its maps. -/
structure Settled (table : AliasTable) (claims : List (Str × Str)) : Prop where
  conflicted : ∀ name, table.conflicted.get? name =
    if 2 ≤ (claimants claims name).card then some (claimants claims name) else none
  forward : ∀ name canon, table.aliasToCanon.get? name = some canon ↔
    claimants claims name = {canon}
  reverse : ∀ name canon,
    name ∈ (table.canonToAliases.get? canon).getD ∅ ↔ claimants claims name = {canon}

theorem claimants_concat (claims : List (Str × Str)) (name canon other : Str) :
    claimants (claims ++ [(name, canon)]) other =
      if other = name then insert canon (claimants claims name) else claimants claims other := by
  ext c
  by_cases here : other = name
  · subst here
    simp [claimants]
  · simp [claimants, here, Ne.symm here]

theorem claimants_perm {claims claims' : List (Str × Str)} (perm : claims.Perm claims')
    (name : Str) : claimants claims name = claimants claims' name :=
  List.toFinset_eq_of_perm _ _ ((perm.filter _).map _)

theorem settled_empty : empty.Settled [] where
  conflicted _ := rfl
  forward name canon := by
    simp only [empty, Dict.get?_empty, claimants, reduceCtorEq, false_iff]
    exact (Finset.singleton_ne_empty canon).symm
  reverse name canon := by
    simp only [empty, Dict.get?_empty, claimants, Option.getD_none, Finset.notMem_empty, false_iff]
    exact (Finset.singleton_ne_empty canon).symm

section
variable {table : AliasTable} {claims : List (Str × Str)} {name canon : Str}

/-- A further claim on a quarantined alias is recorded and resolves nothing. -/
theorem Settled.absorb (settled : table.Settled claims) {known : Finset Str}
    (held : table.conflicted.get? name = some known) :
    Settled { table with conflicted := table.conflicted.set name (insert canon known) }
      (claims ++ [(name, canon)]) := by
  have rule := settled.conflicted name
  rw [held] at rule
  split at rule
  case isFalse => cases rule
  rename_i many
  cases rule
  have more : 2 ≤ (insert canon (claimants claims name)).card :=
    many.trans (Finset.card_le_card (Finset.subset_insert canon _))
  have several {s : Finset Str} (two : 2 ≤ s.card) (c : Str) : s ≠ {c} := by
    rintro rfl
    rw [Finset.card_singleton] at two
    omega
  constructor
  · intro other
    rw [claimants_concat, Dict.get?_set]
    by_cases here : other = name
    · rw [if_pos here, if_pos here, if_pos more]
    · rw [if_neg here, if_neg here]
      exact settled.conflicted other
  · intro other c
    rw [claimants_concat]
    split
    · rename_i here
      rw [here, settled.forward]
      exact iff_of_false (several many c) (several more c)
    · exact settled.forward other c
  · intro other c
    rw [claimants_concat]
    split
    · rename_i here
      rw [here, settled.reverse]
      exact iff_of_false (several many c) (several more c)
    · exact settled.reverse other c

theorem mem_reverse_quarantine {existing n c : Str} :
    n ∈ ((table.quarantine name existing canon).canonToAliases.get? c).getD ∅ ↔
      n ∈ (table.canonToAliases.get? c).getD ∅ ∧ ¬ (n = name ∧ c = existing) := by
  rw [quarantine, Dict.get?_mapValues]
  cases table.canonToAliases.get? c with
  | none => simp
  | some names =>
    by_cases same : c = existing
    · simp [same, and_comm]
    · simp [same]

/-- The second canonical name of an alias: the first mapping is taken back from both maps. -/
theorem Settled.quarantine (settled : table.Settled claims) {existing : Str}
    (held : table.aliasToCanon.get? name = some existing) (other : existing ≠ canon) :
    (table.quarantine name existing canon).Settled (claims ++ [(name, canon)]) := by
  have sole := (settled.forward name existing).mp held
  have both : insert canon (claimants claims name) = {existing, canon} := by
    rw [sole, Finset.pair_comm]
  have two : ({existing, canon} : Finset Str).card = 2 := Finset.card_pair other
  have several (c : Str) : ({existing, canon} : Finset Str) ≠ {c} := by
    intro single
    rw [single, Finset.card_singleton] at two
    cases two
  constructor
  · intro n
    rw [claimants_concat, AliasTable.quarantine, Dict.get?_set, both]
    by_cases here : n = name
    · rw [if_pos here, if_pos here, if_pos two.ge]
    · rw [if_neg here, if_neg here]
      exact settled.conflicted n
  · intro n c
    rw [claimants_concat, AliasTable.quarantine, Dict.get?_filter, both]
    split
    · rename_i here
      simp [here, several c]
    · rename_i elsewhere
      rw [← settled.forward n c]
      simp [Option.filter_eq_some_iff, elsewhere]
  · intro n c
    rw [claimants_concat, mem_reverse_quarantine, settled.reverse]
    by_cases here : n = name
    · rw [if_pos here, both, here, sole, Finset.singleton_inj]
      -- the alias was listed under its first canonical name only, and leaves that set
      refine iff_of_false ?_ (several c)
      rintro ⟨rfl, stays⟩
      exact stays ⟨rfl, rfl⟩
    · simp [here]

/-- A first claim on an alias, or one that repeats its only canonical name. -/
theorem Settled.register (settled : table.Settled claims)
    (open_ : table.conflicted.get? name = none)
    (fits : insert canon (claimants claims name) = {canon}) :
    (table.register name canon).Settled (claims ++ [(name, canon)]) := by
  constructor
  · intro n
    rw [claimants_concat]
    split
    · rename_i here
      rw [here, fits, Finset.card_singleton, if_neg (by decide)]
      exact open_
    · exact settled.conflicted n
  · intro n c
    rw [claimants_concat, AliasTable.register, Dict.get?_set]
    split
    · rw [fits, Finset.singleton_inj, Option.some.injEq]
    · exact settled.forward n c
  · intro n c
    have kept := settled.reverse n c
    rw [claimants_concat, AliasTable.register, Dict.get?_modify]
    split
    · rename_i sameCanon
      subst sameCanon
      simp only [Option.getD_some, Finset.mem_insert, kept]
      split
      · rename_i here
        simp [here, fits]
      · rename_i elsewhere
        simp [elsewhere]
    · rename_i otherCanon
      rw [kept]
      split
      · rename_i here
        rw [here, fits]
        refine iff_of_false (fun claimed => ?_) fun single =>
          otherCanon (Finset.singleton_inj.mp single).symm
        rw [claimed] at fits
        have inside : c ∈ ({canon} : Finset Str) :=
          fits ▸ Finset.mem_insert_of_mem (Finset.mem_singleton_self c)
        exact otherCanon (Finset.mem_singleton.mp inside)
      · rfl

theorem Settled.claim (settled : table.Settled claims) (name canon : Str) :
    (table.claim name canon).Settled (claims ++ [(name, canon)]) := by
  unfold AliasTable.claim
  cases held : table.conflicted.get? name with
  | some known => exact settled.absorb held
  | none =>
    cases mapped : table.aliasToCanon.get? name with
    | some existing =>
      by_cases other : existing ≠ canon
      · simp only [if_pos other]
        exact settled.quarantine mapped other
      · simp only [if_neg other]
        obtain rfl := not_not.mp other
        have sole := (settled.forward name existing).mp mapped
        exact settled.register held (by
          rw [sole, Finset.insert_eq_of_mem (Finset.mem_singleton_self _)])
    | none =>
      have few := settled.conflicted name
      rw [held] at few
      split at few
      case isTrue => cases few
      rename_i atMostOne
      -- no claim yet: a single one would have been mapped
      have nobody : claimants claims name = ∅ := by
        obtain none | one : (claimants claims name).card = 0 ∨
            (claimants claims name).card = 1 := by
          omega
        · exact Finset.card_eq_zero.mp none
        · obtain ⟨c, single⟩ := Finset.card_eq_one.mp one
          rw [(settled.forward name c).mpr single] at mapped
          cases mapped
      exact settled.register held (by rw [nobody, insert_empty_eq])

end

section
variable [Unicode]

theorem settled_add {table : AliasTable} {claims : List (Str × Str)}
    (settled : table.Settled claims) (call : Str × Str) :
    (table.add call.1 call.2).Settled (claims ++ (claimOf call).toList) := by
  by_cases blank : normalizeName call.1 = [] ∨ normalizeName call.2 = []
  · simpa [add, claimOf, blank] using settled
  · simpa [add, claimOf, blank] using settled.claim (normalizeName call.1) (normalizeName call.2)

/-- After any calls, the table is the one that their claims describe. -/
theorem settled_ofItems (calls : List (Str × Str)) :
    (ofItems calls).Settled (calls.filterMap claimOf) := by
  have run (calls : List (Str × Str)) {table : AliasTable} {claims : List (Str × Str)}
      (settled : table.Settled claims) :
      (calls.foldl (fun table item => table.add item.1 item.2) table).Settled
        (claims ++ calls.filterMap claimOf) := by
    induction calls generalizing table claims with
    | nil => simpa using settled
    | cons call calls ih =>
      have next := ih (settled_add settled call)
      rw [List.append_assoc] at next
      cases named : claimOf call with
      | none => simpa [named] using next
      | some claim => simpa [named] using next
  exact run calls settled_empty

/-- Two tables settled by the same claimants answer every question alike. -/
theorem Settled.same {table table' : AliasTable} {claims claims' : List (Str × Str)}
    (settled : table.Settled claims) (settled' : table'.Settled claims')
    (same : ∀ name, claimants claims name = claimants claims' name) :
    table.canonical = table'.canonical ∧ table.aliasesOf = table'.aliasesOf ∧
      ∀ name, table.conflicts.get? name = table'.conflicts.get? name := by
  have canonical : table.canonical = table'.canonical := by
    funext name
    have mapped : table.aliasToCanon.get? (normalizeName name) =
        table'.aliasToCanon.get? (normalizeName name) := by
      apply Option.ext
      intro canon
      rw [settled.forward, settled'.forward, same]
    rw [AliasTable.canonical, AliasTable.canonical, mapped]
  refine ⟨canonical, ?_, ?_⟩
  · funext name
    ext other
    simp only [aliasesOf, canonical, Finset.mem_insert, settled.reverse, settled'.reverse, same]
  · intro name
    rw [conflicts, conflicts, settled.conflicted, settled'.conflicted, same]

/-- The claims of a list of calls on one alias, in the words of the calls. -/
theorem mem_claimants_iff {calls : List (Str × Str)} {name canon : Str} :
    canon ∈ claimants (calls.filterMap claimOf) name ↔
      ∃ call ∈ calls, claimOf call = some (name, canon) := by
  simp only [claimants, List.mem_toFinset, List.mem_map, List.mem_filter, List.mem_filterMap,
    decide_eq_true_eq]
  constructor
  · rintro ⟨⟨n, c⟩, ⟨⟨call, inside, named⟩, rfl⟩, rfl⟩
    exact ⟨call, inside, named⟩
  · rintro ⟨call, inside, named⟩
    exact ⟨(name, canon), ⟨⟨call, inside, named⟩, rfl⟩, rfl⟩

/-- How the three maps of a table stand to each other. -/
structure Consistent (table : AliasTable) : Prop where
  inverse : ∀ name canon, table.aliasToCanon.get? name = some canon ↔
    name ∈ (table.canonToAliases.get? canon).getD ∅
  quarantined : ∀ name, (table.conflicts.get? name).isSome →
    table.aliasToCanon.get? name = none ∧ ∀ canon,
      name ∉ (table.canonToAliases.get? canon).getD ∅

omit [Unicode] in
theorem Settled.consistent {table : AliasTable} {claims : List (Str × Str)}
    (settled : table.Settled claims) : table.Consistent := by
  constructor
  · intro name canon
    rw [settled.forward, settled.reverse]
  · intro name held
    rw [conflicts, settled.conflicted] at held
    have several : 2 ≤ (claimants claims name).card := by
      by_contra few
      rw [if_neg few] at held
      cases held
    have never (canon : Str) : claimants claims name ≠ {canon} := by
      intro single
      rw [single, Finset.card_singleton] at several
      omega
    refine ⟨?_, fun canon listed => never canon ((settled.reverse name canon).mp listed)⟩
    apply Option.eq_none_iff_forall_ne_some.mpr
    intro canon mapped
    exact never canon ((settled.forward name canon).mp mapped)

theorem quarantine_orderFree (calls : List (Str × Str)) :
    (∀ calls', calls.Perm calls' →
      (ofItems calls).canonical = (ofItems calls').canonical ∧
        (ofItems calls).aliasesOf = (ofItems calls').aliasesOf ∧
          ∀ name, (ofItems calls).conflicts.get? name = (ofItems calls').conflicts.get? name) ∧
      (∀ moment, (ofItems (calls.take moment)).Consistent) ∧
      ∀ name, ∃ claimed : Finset Str,
        (∀ canon, canon ∈ claimed ↔ ∃ call ∈ calls, claimOf call = some (name, canon)) ∧
          (ofItems calls).conflicts.get? name = if 2 ≤ claimed.card then some claimed
            else none := by
  refine ⟨fun calls' perm => ?_, fun moment => ?_, fun name => ?_⟩
  · exact (settled_ofItems calls).same (settled_ofItems calls')
      fun name => claimants_perm (perm.filterMap _) name
  · exact (settled_ofItems (calls.take moment)).consistent
  · exact ⟨claimants (calls.filterMap claimOf) name, fun canon => mem_claimants_iff,
      (settled_ofItems calls).conflicted name⟩

end
end AliasTable
end SharpEvPicks.Resolution
