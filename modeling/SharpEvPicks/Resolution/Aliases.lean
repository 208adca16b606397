import Mathlib.Data.Finset.Erase
import Mathlib.Data.Finset.Insert
import SharpEvPicks.Python.Dict
import SharpEvPicks.Resolution.Names

/-! `AliasTable` of `app/resolution/matching.py`. -/
namespace SharpEvPicks.Resolution

open Python

structure AliasTable where
  aliasToCanon : Dict Str Str
  canonToAliases : Dict Str (Finset Str)
  /-- Aliases that several canonical names claim: they resolve to none of them. -/
  conflicted : Dict Str (Finset Str)

namespace AliasTable

def empty : AliasTable := ⟨Dict.empty, Dict.empty, Dict.empty⟩

def register (table : AliasTable) (name canon : Str) : AliasTable :=
  { table with
    aliasToCanon := table.aliasToCanon.set name canon
    canonToAliases := table.canonToAliases.modify canon fun old => insert name (old.getD ∅) }

def quarantine (table : AliasTable) (name existing canon : Str) : AliasTable where
  aliasToCanon := table.aliasToCanon.filter fun key _ => key ≠ name
  canonToAliases := table.canonToAliases.mapValues fun key names =>
    if key = existing then names.erase name else names
  conflicted := table.conflicted.set name {existing, canon}

/-- `add` on normalized names. -/
def claim (table : AliasTable) (name canon : Str) : AliasTable :=
  match table.conflicted.get? name with
  | some claimants =>
    { table with conflicted := table.conflicted.set name (insert canon claimants) }
  | none =>
    match table.aliasToCanon.get? name with
    | some existing =>
      if existing ≠ canon then table.quarantine name existing canon else table.register name canon
    | none => table.register name canon

/-- The property of this name: each quarantined alias with the canonical names that claim it. -/
def conflicts (table : AliasTable) : Dict Str (Finset Str) := table.conflicted

variable [Unicode]

def add (table : AliasTable) (alias_ canonical : Str) : AliasTable :=
  let name := normalizeName alias_
  let canon := normalizeName canonical
  if name = [] ∨ canon = [] then table else table.claim name canon

/-- `__init__` over the items of a mapping. -/
def ofItems (items : List (Str × Str)) : AliasTable :=
  items.foldl (fun table item => table.add item.1 item.2) empty

/-- `from_seed` over the items of the seed's `teams`. -/
def ofSeed (teams : List (Str × List Str)) : AliasTable :=
  ofItems (teams.flatMap fun (canonical, aliases) => (canonical :: aliases).map (·, canonical))

def canonical (table : AliasTable) (name : Str) : Str :=
  (table.aliasToCanon.get? (normalizeName name)).getD (normalizeName name)

def aliasesOf (table : AliasTable) (name : Str) : Finset Str :=
  let canon := table.canonical name
  insert canon ((table.canonToAliases.get? canon).getD ∅)

end AliasTable
end SharpEvPicks.Resolution
