import Mathlib.Data.List.Nodup
import SharpEvPicks.Storage.Picks

/-! Where a pick lands in the table: the row that `persist_pick` leaves under its key, in a table
in which ids and natural keys are unique. -/
namespace SharpEvPicks.Storage

open Python Edge Pipeline Settlement

variable {picks : PickTable} {row row' : PickRow} {key : Instrument × Nat}

/-- Ids are handed out once, and a natural key has one row. -/
structure PickTable.Keyed (picks : PickTable) : Prop where
  fresh : ∀ r ∈ picks.rows, r.id < picks.nextId
  ids : (picks.rows.map PickRow.id).Nodup
  keys : ∀ r ∈ picks.rows, ∀ r' ∈ picks.rows, r.key = r'.key → r = r'

namespace PickTable

theorem Keyed.id_inj (keyed : picks.Keyed) {r r' : PickRow} (inside : r ∈ picks.rows)
    (inside' : r' ∈ picks.rows) (same : r.id = r'.id) : r = r' :=
  List.inj_on_of_nodup_map keyed.ids inside inside' same

theorem Keyed.map {f : PickRow → PickRow} (keyed : picks.Keyed)
    (same : ∀ r ∈ picks.rows, (f r).id = r.id ∧ (f r).key = r.key) :
    Keyed { picks with rows := picks.rows.map f } where
  fresh r inside := by
    obtain ⟨old, listed, rfl⟩ := List.mem_map.mp inside
    rw [(same old listed).1]
    exact keyed.fresh old listed
  ids := by
    have kept : (picks.rows.map f).map PickRow.id = picks.rows.map PickRow.id := by
      rw [List.map_map]
      exact List.map_congr_left fun r inside => (same r inside).1
    simp only [kept]
    exact keyed.ids
  keys r inside r' inside' equal := by
    obtain ⟨old, listed, rfl⟩ := List.mem_map.mp inside
    obtain ⟨old', listed', rfl⟩ := List.mem_map.mp inside'
    rw [(same old listed).2, (same old' listed').2] at equal
    rw [keyed.keys old listed old' listed' equal]

theorem Keyed.add {new : Nat → PickRow} (keyed : picks.Keyed)
    (id : (new picks.nextId).id = picks.nextId)
    (absent : ∀ r ∈ picks.rows, r.key ≠ (new picks.nextId).key) : (picks.add new).Keyed where
  fresh r inside := by
    rcases List.mem_append.mp inside with old | latest
    · exact Nat.lt_succ_of_lt (keyed.fresh r old)
    · rw [List.mem_singleton.mp latest, id]
      exact Nat.lt_succ_self _
  ids := by
    rw [PickTable.add, List.map_append, List.map_singleton, id]
    apply List.nodup_append.mpr
    refine ⟨keyed.ids, List.nodup_singleton _, ?_⟩
    intro n old m latest same
    obtain ⟨r, inside, rfl⟩ := List.mem_map.mp old
    have below := keyed.fresh r inside
    rw [List.mem_singleton.mp latest] at same
    omega
  keys r inside r' inside' same := by
    rcases List.mem_append.mp inside with old | latest
    · rcases List.mem_append.mp inside' with old' | latest'
      · exact keyed.keys r old r' old' same
      · rw [List.mem_singleton.mp latest'] at same
        exact absurd same (absent r old)
    · rcases List.mem_append.mp inside' with old' | latest'
      · rw [List.mem_singleton.mp latest] at same
        exact absurd same.symm (absent r' old')
      · rw [List.mem_singleton.mp latest, List.mem_singleton.mp latest']

theorem find_some (found : picks.find key = some row) : row ∈ picks.rows ∧ row.key = key :=
  ⟨List.mem_of_find?_eq_some found, by simpa using List.find?_some found⟩

theorem find_none_iff : picks.find key = none ↔ ∀ r ∈ picks.rows, r.key ≠ key := by
  simp [find, List.find?_eq_none]

theorem Keyed.find_mem (keyed : picks.Keyed) (inside : row ∈ picks.rows) :
    picks.find row.key = some row := by
  cases found : picks.find row.key with
  | none => exact absurd rfl (find_none_iff.mp found row inside)
  | some other =>
    obtain ⟨listed, same⟩ := find_some found
    rw [keyed.keys other listed row inside same]

end PickTable

/-! Superseding changes the status only. -/

section Superseding
variable {instrument : Instrument} {modelVersionId : Nat} {tier : Tier}

theorem superseding_cases (instrument : Instrument) (modelVersionId : Nat) (tier : Tier)
    (row : PickRow) :
    (row.superseding instrument modelVersionId tier = row ∧
      ¬ (row.instrument = instrument ∧ row.modelVersionId ≠ modelVersionId ∧
        row.status = .alerted ∧ (tier = .premium ∨ row.tier ≠ .premium))) ∨
    (row.superseding instrument modelVersionId tier = { row with status := .superseded } ∧
      row.instrument = instrument ∧ row.modelVersionId ≠ modelVersionId ∧
      row.status = .alerted ∧ (tier = .premium ∨ row.tier ≠ .premium)) := by
  unfold PickRow.superseding
  split
  · rename_i gives
    exact .inr ⟨rfl, gives⟩
  · rename_i stays
    exact .inl ⟨rfl, stays⟩

@[simp] theorem superseding_id : (row.superseding instrument modelVersionId tier).id = row.id := by
  rcases superseding_cases instrument modelVersionId tier row with ⟨same, -⟩ | ⟨same, -⟩ <;>
    rw [same]

@[simp] theorem superseding_key :
    (row.superseding instrument modelVersionId tier).key = row.key := by
  rcases superseding_cases instrument modelVersionId tier row with ⟨same, -⟩ | ⟨same, -⟩ <;>
    rw [same]
  rfl

@[simp] theorem superseding_tier :
    (row.superseding instrument modelVersionId tier).tier = row.tier := by
  rcases superseding_cases instrument modelVersionId tier row with ⟨same, -⟩ | ⟨same, -⟩ <;>
    rw [same]

@[simp] theorem superseding_detection :
    (row.superseding instrument modelVersionId tier).detection = row.detection := by
  rcases superseding_cases instrument modelVersionId tier row with ⟨same, -⟩ | ⟨same, -⟩ <;>
    rw [same]

theorem superseding_own (own : row.modelVersionId = modelVersionId) :
    row.superseding instrument modelVersionId tier = row := by
  rcases superseding_cases instrument modelVersionId tier row with ⟨same, -⟩ | ⟨-, -,
    other, -⟩
  · exact same
  · exact absurd own other

theorem superseding_premium (premium : row.tier = .premium) :
    row.superseding instrument modelVersionId .volume = row := by
  rcases superseding_cases instrument modelVersionId .volume row with ⟨same, -⟩ | ⟨-, -, -,
    -, open_⟩
  · exact same
  · rcases open_ with shadow | other
    · cases shadow
    · exact absurd premium other

theorem version_of_open
    (stays : (row.superseding instrument modelVersionId .premium).status = .alerted)
    (same : row.instrument = instrument) : row.modelVersionId = modelVersionId := by
  rcases superseding_cases instrument modelVersionId .premium row with ⟨whole,
    kept⟩ | ⟨gone, -⟩
  · rw [whole] at stays
    by_contra other
    exact kept ⟨same, other, stays, .inl rfl⟩
  · rw [gone] at stays
    cases stays

end Superseding

/-! The table around the row of a pick. -/

/-- A table with one row left open, which has this id and this key. -/
structure Slot (id : Nat) (key : Instrument × Nat) where
  fill : PickRow → PickTable
  find_fill : ∀ row, row.id = id → row.key = key → (fill row).find key = some row
  put_fill : ∀ row row', row.id = id → row'.id = id → (fill row).put row' = fill row'

namespace PickTable

theorem put_of_fresh (keyed : picks.Keyed) {f : PickRow → PickRow} (same : ∀ r, (f r).id = r.id)
    (new : row.id = picks.nextId) (new' : row'.id = picks.nextId) (n : Nat) :
    PickTable.put ⟨picks.rows.map f ++ [row], n⟩ row' =
      ⟨picks.rows.map f ++ [row'], n⟩ := by
  have untouched : (picks.rows.map f).map (fun r => if r.id = row'.id then row' else r) =
      picks.rows.map f := by
    rw [List.map_map]
    apply List.map_congr_left
    intro r inside
    have below := keyed.fresh r inside
    exact if_neg (by rw [same, new']; omega)
  simp only [put, List.map_append, untouched, List.map_singleton]
  rw [if_pos (new.trans new'.symm)]

def insertSlot (picks : PickTable) (keyed : picks.Keyed) (key : Instrument × Nat)
    (absent : picks.find key = none) (tier : Tier) : Slot picks.nextId key where
  fill row := ⟨picks.rows.map (PickRow.superseding key.1 key.2 tier) ++ [row], picks.nextId + 1⟩
  find_fill row _ same := by
    have others : (picks.rows.map (PickRow.superseding key.1 key.2 tier)).find?
        (fun r => r.key = key) = none := by
      apply List.find?_eq_none.mpr
      intro r inside
      obtain ⟨old, listed, rfl⟩ := List.mem_map.mp inside
      simpa using find_none_iff.mp absent old listed
    simp [find, List.find?_append, others, same]
  put_fill row row' new new' := put_of_fresh keyed (fun _ => superseding_id) new new' _

/-- The slot of a row that is there, the others rewritten by `f`. -/
def rewriteSlot (picks : PickTable) (keyed : picks.Keyed) (row : PickRow)
    (inside : row ∈ picks.rows) (f : PickRow → PickRow) (ids : ∀ r, (f r).id = r.id)
    (keys : ∀ r, (f r).key = r.key) : Slot row.id row.key where
  fill new := { picks with rows := picks.rows.map fun r => if r.id = row.id then new else f r }
  find_fill new id same := by
    have there : new ∈ picks.rows.map fun r => if r.id = row.id then new else f r :=
      List.mem_map.mpr ⟨row, inside, if_pos rfl⟩
    have only : ∀ r ∈ picks.rows.map (fun r => if r.id = row.id then new else f r),
        r.key = row.key → r = new := by
      intro r listed equal
      obtain ⟨old, member, rfl⟩ := List.mem_map.mp listed
      by_cases own : old.id = row.id
      · rw [if_pos own]
      · rw [if_neg own, keys] at equal
        rw [keyed.keys old member row inside equal] at own
        exact absurd rfl own
    cases found : (find { picks with
      rows := picks.rows.map fun r => if r.id = row.id then new else f r } row.key) with
    | none => exact absurd same (find_none_iff.mp found new there)
    | some other =>
      obtain ⟨listed, equal⟩ := find_some found
      rw [only other listed equal]
  put_fill new new' id id' := by
    simp only [put, List.map_map]
    congr 1
    apply List.map_congr_left
    intro r inside'
    by_cases own : r.id = row.id
    · simp [own, id, id']
    · simp [own, ids, id']

end PickTable

/-- Superseding for a premium pick around its own row, or nothing around a repriced one. -/
def upgradeSlot (picks : PickTable) (keyed : picks.Keyed) (row : PickRow)
    (inside : row ∈ picks.rows) : Slot row.id row.key :=
  picks.rewriteSlot keyed row inside
    (PickRow.superseding row.instrument row.modelVersionId .premium)
    (fun _ => superseding_id) (fun _ => superseding_key)

def repriceSlot (picks : PickTable) (keyed : picks.Keyed) (row : PickRow)
    (inside : row ∈ picks.rows) : Slot row.id row.key :=
  picks.rewriteSlot keyed row inside id (fun _ => rfl) (fun _ => rfl)

theorem supersede_add {instrument : Instrument} {version : Nat} {tier : Tier}
    {new : Nat → PickRow} (own : (new picks.nextId).modelVersionId = version) :
    (picks.add new).supersedeOlderVersions instrument version tier =
      ⟨picks.rows.map (PickRow.superseding instrument version tier) ++ [new picks.nextId],
        picks.nextId + 1⟩ := by
  simp only [PickTable.supersedeOlderVersions, PickTable.add, List.map_append, List.map_singleton]
  rw [superseding_own own]

theorem supersede_put {instrument : Instrument} {version : Nat} {tier : Tier}
    (own : row.modelVersionId = version) :
    (picks.put row).supersedeOlderVersions instrument version tier =
      { picks with
        rows := picks.rows.map fun r =>
          if r.id = row.id then row else r.superseding instrument version tier } := by
  simp only [PickTable.supersedeOlderVersions, PickTable.put, List.map_map]
  congr 1
  apply List.map_congr_left
  intro r _
  rw [Function.comp_apply]
  split
  · exact superseding_own own
  · rfl

section Landing
variable [Unicode] (numeric : Numeric)

def PickOut.terms (pick : PickOut) : ℚ × ℚ :=
  (pick.recommendedStakeAmount * pick.decimalOdds,
    pick.recommendedStakeAmount * effectiveOdds exchangeCommission pick.bookmaker pick.decimalOdds)

theorem settlementBasisTerms_pick (pick : PickOut) :
    settlementBasisTerms pick.recommendedStakeAmount pick.bookmaker pick.decimalOdds =
      .ok pick.terms :=
  if_neg (not_lt.mpr pick.amount_nonneg)

/-- Each way in which `persist_pick` can end: what it found, what it answers and the table. -/
inductive Landing (picks : PickTable) (keyed : picks.Keyed) (target : Target) (pick : PickOut)
    (now : Int) :
    Persisted → PickTable → Prop where
  | inserted (absent : picks.find (target.key pick) = none) :
    Landing picks keyed target pick now .inserted
      ((picks.insertSlot keyed (target.key pick) absent pick.tier).fill
        (pick.newRow numeric target pick.terms now picks.nextId))
  | upgraded (row : PickRow) (inside : row ∈ picks.rows) (own : row.key = target.key pick)
      (premium : pick.tier = .premium) (shadow : row.tier = .volume)
        (live : row.status = .alerted) :
    Landing picks keyed target pick now .upgraded
      ((upgradeSlot picks keyed row inside).fill (pick.promote numeric pick.terms now row))
  | denied (row : PickRow) (inside : row ∈ picks.rows) (own : row.key = target.key pick)
      (kept : ¬ (pick.tier = .premium ∧ row.tier = .volume ∧ row.status = .alerted))
      (unstaked : row.detection.recommendedStakeFraction ≤ 0) :
    Landing picks keyed target pick now .duplicateDenied picks
  | repriced (row : PickRow) (inside : row ∈ picks.rows) (own : row.key = target.key pick)
      (staked : 0 < row.detection.recommendedStakeFraction) (premium : pick.tier = .premium)
      (held : row.tier = .premium) (live : row.status = .alerted)
      (moved : row.detection.decimalOdds ≠ pick.decimalOdds ∨
        row.detection.bookmaker ≠ pick.bookmaker) :
    Landing picks keyed target pick now (.repriced row.detection.recommendedStakeFraction)
      ((repriceSlot picks keyed row inside).fill (pick.reprice numeric row))
  | held (row : PickRow) (inside : row ∈ picks.rows) (own : row.key = target.key pick)
      (kept : ¬ (pick.tier = .premium ∧ row.tier = .volume ∧ row.status = .alerted))
      (staked : 0 < row.detection.recommendedStakeFraction)
      (still : ¬ (pick.tier = .premium ∧ row.tier = .premium ∧ row.status = .alerted ∧
        (row.detection.decimalOdds ≠ pick.decimalOdds ∨
          row.detection.bookmaker ≠ pick.bookmaker))) :
    Landing picks keyed target pick now .duplicate picks

theorem persistPick_landing {picks written : PickTable} (keyed : picks.Keyed) {target : Target}
    {pick : PickOut} {now : Int} {persisted : Persisted}
    (found : persistPick numeric picks target pick now = .ok (persisted, written)) :
    Landing numeric picks keyed target pick now persisted written := by
  unfold persistPick at found
  cases bounded : checkPickIdentities pick with
  | error e =>
    rw [bounded] at found
    cases found
  | ok _ =>
    cases anchored : checkAnchorIdentity pick with
    | error e =>
      rw [bounded, anchored] at found
      cases found
    | ok _ =>
      rw [bounded, anchored, settlementBasisTerms_pick] at found
      simp only [Except.mapError, bind, Except.bind] at found
      unfold PickTable.standing at found
      cases there : picks.find (target.key pick) with
      | none =>
        rw [there] at found
        cases found
        have version : (pick.newRow numeric target pick.terms now picks.nextId).modelVersionId =
            target.modelVersionId := rfl
        rw [supersede_add version]
        exact .inserted there
      | some row =>
        obtain ⟨inside, own⟩ := PickTable.find_some there
        have version : row.modelVersionId = target.modelVersionId := congrArg Prod.snd own
        have instrument : row.instrument = target.instrument pick := congrArg Prod.fst own
        rw [there] at found
        by_cases upgradable : pick.tier = .premium ∧ row.tier = .volume ∧ row.status = .alerted
        · simp only [if_pos upgradable] at found
          cases found
          have promoted : (pick.promote numeric pick.terms now row).modelVersionId =
              target.modelVersionId :=
            version
          rw [supersede_put promoted, ← instrument, ← version]
          exact .upgraded row inside own upgradable.1 upgradable.2.1 upgradable.2.2
        simp only [if_neg upgradable] at found
        by_cases unstaked : row.detection.recommendedStakeFraction ≤ 0
        · simp only [if_pos unstaked] at found
          cases found
          exact .denied row inside own upgradable unstaked
        simp only [if_neg unstaked] at found
        by_cases moved : pick.tier = .premium ∧ row.tier = .premium ∧ row.status = .alerted ∧
            (row.detection.decimalOdds ≠ pick.decimalOdds ∨
              row.detection.bookmaker ≠ pick.bookmaker)
        · simp only [if_pos moved] at found
          cases found
          exact .repriced row inside own (not_le.mp unstaked) moved.1 moved.2.1 moved.2.2.1
            moved.2.2.2
        · simp only [if_neg moved] at found
          cases found
          exact .held row inside own upgradable (not_le.mp unstaked) moved

end Landing
end SharpEvPicks.Storage
