import SharpEvPicks.Python.Splitting
import SharpEvPicks.Resolution.Matching
import SharpEvPicks.Resolution.Quarantine

/-! Canonical names are settled by one lookup: what a table loaded from a seed resolves to resolves
to itself. -/
namespace SharpEvPicks.Resolution

open Python

/-! Names that are normalized. -/

/-- A character that `cleaned` leaves as it is. -/
structure NameChar (c : Char) : Prop where
  ascii : isAscii c
  lower : c.toLower = c
  alnum : c.isAlphanum

theorem lower_name {c : Char} (ascii : isAscii c) (alnum : c.toLower.isAlphanum) :
    NameChar c.toLower := by
  have each : ∀ n : Fin 128, (Char.ofNat n).toLower.toLower = (Char.ofNat n).toLower ∧
      isAscii (Char.ofNat n).toLower := by decide
  have small : c.toNat < 128 := of_decide_eq_true ascii
  have here := each ⟨c.toNat, small⟩
  simp only [Char.ofNat_toNat] at here
  exact ⟨here.2, here.1, alnum⟩

section
variable [Unicode]

theorem cleaned_eq_self {s : Str} (kept : ∀ c ∈ s, c = ' ' ∨ NameChar c) : cleaned s = s := by
  induction s with
  | nil => rfl
  | cons c s ih =>
    obtain ⟨first, rest⟩ := List.forall_mem_cons.mp kept
    have next := ih rest
    have ascii : isAscii c := by
      obtain rfl | name := first
      · rfl
      · exact name.ascii
    have alone : (if c.toLower.isAlphanum then c.toLower else ' ') = c := by
      obtain rfl | name := first
      · rfl
      · rw [name.lower, if_pos name.alnum]
    rw [cleaned, List.flatMap_cons, Unicode.asciiFold_ascii c ascii, List.map_append,
      List.map_singleton, alone]
    exact congrArg (List.cons c) next

/-- The words of a normalized name. -/
structure NameToken (token : Str) : Prop where
  unspaced : Unspaced token
  chars : ∀ c ∈ token, NameChar c
  telling : token ∉ noiseTokens

theorem nameTokens_named {name token : Str} (listed : token ∈ nameTokens name) :
    NameToken token := by
  obtain ⟨word, telling⟩ := List.mem_filter.mp listed
  have unspaced := unspaced_of_mem_split word
  refine ⟨unspaced, fun c inside => ?_, of_decide_eq_true telling⟩
  obtain ⟨d, folded, rfl⟩ := List.mem_map.mp (mem_of_mem_split word inside)
  obtain ⟨source, -, image⟩ := List.mem_flatMap.mp folded
  have solid := unspaced.solid _ inside
  split at solid
  · rename_i alnum
    rw [if_pos alnum]
    exact lower_name (Unicode.ascii_of_mem_asciiFold source d image) alnum
  · cases solid

/-- Normalizing a normalized name finds its words again and drops none of them. -/
theorem normalizeName_normalizeName (name : Str) :
    normalizeName (normalizeName name) = normalizeName name := by
  have named {token : Str} (listed : token ∈ nameTokens name) := nameTokens_named listed
  have kept : cleaned (normalizeName name) = normalizeName name := by
    apply cleaned_eq_self
    intro c inside
    obtain blank | ⟨token, listed, here⟩ := mem_of_mem_join inside
    · exact .inl (List.mem_singleton.mp blank)
    · exact .inr ((named listed).chars c here)
  have words : split (normalizeName name) = nameTokens name :=
    split_join fun token listed => (named listed).unspaced
  have tokens : nameTokens (normalizeName name) = nameTokens name := by
    rw [nameTokens, kept, words, List.filter_eq_self]
    exact fun token listed => decide_eq_true (named listed).telling
  rw [normalizeName, tokens, normalizeName]

end

/-! Tables loaded from a seed. -/

namespace AliasTable
variable [Unicode] {teams : List (Str × List Str)}

theorem claimOf_eq_some {call : Str × Str} {name canon : Str}
    (named : claimOf call = some (name, canon)) :
    name = normalizeName call.1 ∧ canon = normalizeName call.2 ∧ canon ≠ [] := by
  unfold claimOf at named
  dsimp only at named
  split at named
  · cases named
  · rename_i filled
    cases named
    exact ⟨rfl, rfl, fun blank => filled (.inr blank)⟩

def seedCalls (teams : List (Str × List Str)) : List (Str × Str) :=
  teams.flatMap fun (canonical, aliases) => (canonical :: aliases).map (·, canonical)

/-- Each canonical name of a seed claims itself. -/
theorem claims_itself {name canon : Str}
    (claimed : canon ∈ claimants ((seedCalls teams).filterMap claimOf) name) :
    canon ∈ claimants ((seedCalls teams).filterMap claimOf) canon := by
  obtain ⟨call, listed, named⟩ := mem_claimants_iff.mp claimed
  obtain ⟨⟨canonical, aliases⟩, seeded, entry⟩ := List.mem_flatMap.mp listed
  obtain ⟨alias_, -, rfl⟩ := List.mem_map.mp entry
  obtain ⟨-, rfl, some⟩ := claimOf_eq_some named
  refine mem_claimants_iff.mpr ⟨(canonical, canonical), ?_, ?_⟩
  · exact List.mem_flatMap.mpr ⟨(canonical, aliases), seeded,
      List.mem_map.mpr ⟨canonical, .head _, rfl⟩⟩
  · simp only [claimOf, some, or_self, if_false]

theorem settled_ofSeed (teams : List (Str × List Str)) :
    (ofSeed teams).Settled ((seedCalls teams).filterMap claimOf) :=
      settled_ofItems (seedCalls teams)

/-- A claim by one name only decides what an alias resolves to. -/
theorem canonical_of_sole {table : AliasTable} {claims : List (Str × Str)}
    (settled : table.Settled claims) {name canon : Str}
    (sole : claimants claims (normalizeName name) = {canon}) : table.canonical name = canon := by
  rw [canonical, (settled.forward _ _).mpr sole]
  rfl

theorem canonical_cases {table : AliasTable} {claims : List (Str × Str)}
    (settled : table.Settled claims) (name : Str) :
      claimants claims (normalizeName name) = {table.canonical name} ∨
      table.canonical name = normalizeName name := by
  cases found : table.aliasToCanon.get? (normalizeName name) with
  | none => exact .inr (by rw [canonical, found, Option.getD_none])
  | some canon =>
    have sole := (settled.forward _ _).mp found
    exact .inl (by rw [canonical_of_sole settled sole, sole])

/-- A name that claims itself stands for itself, quarantined or not. -/
theorem canonical_of_own {table : AliasTable} {claims : List (Str × Str)}
    (settled : table.Settled claims) {name : Str} (normal : normalizeName name = name)
    (own : name ∈ claimants claims name) : table.canonical name = name := by
  obtain sole | passed := canonical_cases settled name
  · rw [normal] at sole
    rw [sole] at own
    exact (Finset.mem_singleton.mp own).symm
  · exact passed.trans normal

theorem normal_of_claimed {calls : List (Str × Str)} {name canon : Str}
    (claimed : canon ∈ claimants (calls.filterMap claimOf) name) :
    normalizeName name = name ∧ normalizeName canon = canon := by
  obtain ⟨call, -, named⟩ := mem_claimants_iff.mp claimed
  obtain ⟨rfl, rfl, -⟩ := claimOf_eq_some named
  exact ⟨normalizeName_normalizeName _, normalizeName_normalizeName _⟩

theorem ofSeed_canonical_canonical (teams : List (Str × List Str)) (name : Str) :
    (ofSeed teams).canonical ((ofSeed teams).canonical name) = (ofSeed teams).canonical name := by
  have settled := settled_ofSeed teams
  obtain sole | passed := canonical_cases settled name
  · have claimed : (ofSeed teams).canonical name ∈
        claimants ((seedCalls teams).filterMap claimOf) (normalizeName name) := by
      rw [sole]
      exact Finset.mem_singleton_self _
    exact canonical_of_own settled (normal_of_claimed claimed).2 (claims_itself claimed)
  · rw [passed]
    have again : (ofSeed teams).canonical (normalizeName name) = (ofSeed teams).canonical name := by
      rw [canonical, normalizeName_normalizeName, canonical]
    rw [again, passed]

/-- Every name under which a table knows another resolves like it. -/
theorem ofSeed_canonical_alias {name other : Str}
    (listed : other ∈ (ofSeed teams).aliasesOf name) :
    (ofSeed teams).canonical other = (ofSeed teams).canonical name := by
  have settled := settled_ofSeed teams
  obtain rfl | known := Finset.mem_insert.mp listed
  · exact ofSeed_canonical_canonical teams name
  · have sole := (settled.reverse _ _).mp known
    have claimed : (ofSeed teams).canonical name ∈
        claimants ((seedCalls teams).filterMap claimOf) other := by
      rw [sole]
      exact Finset.mem_singleton_self _
    apply canonical_of_sole settled
    rw [(normal_of_claimed claimed).1, sole]

/-- A name, its canonical form and its aliases. -/
def Spells (table : AliasTable) (name other : Str) : Prop :=
  other = name ∨ other ∈ table.aliasesOf name

theorem Spells.canonical {name other : Str} (spells : (ofSeed teams).Spells name other) :
    (ofSeed teams).canonical other = (ofSeed teams).canonical name := by
  obtain rfl | listed := spells
  · rfl
  · exact ofSeed_canonical_alias listed

end AliasTable
end SharpEvPicks.Resolution
