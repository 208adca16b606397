import Mathlib.Data.Prod.Lex
import SharpEvPicks.Edge.Board
import SharpEvPicks.Pipeline.Snapshots

/-! What a group of a cycle holds for one selection at one book: the newest of its snapshots. -/
namespace SharpEvPicks.Pipeline

open Python Edge

/-- The order of `outranks`. -/
def Snapshot.rank (s : Snapshot) : Int ×ₗ Int ×ₗ ℚ ×ₗ Bool ×ₗ ℚ :=
  toLex (s.capturedAt, toLex (s.ingestedAt, toLex (-s.decimalOdds,
    toLex (s.liquidity.isSome, -s.liquidity.getD 0))))

theorem outranks_iff (s previous : Snapshot) : s.outranks previous = true ↔
    previous.rank < s.rank := by
  unfold Snapshot.rank Snapshot.outranks
  simp only [Prod.Lex.toLex_lt_toLex, neg_lt_neg_iff, neg_inj]
  split
  · rename_i captured
    simp [Ne.symm captured]
  · rename_i captured
    rw [ne_eq, not_not] at captured
    simp only [captured, lt_irrefl, false_or, true_and]
    split
    · rename_i ingested
      simp [Ne.symm ingested]
    · rename_i ingested
      rw [ne_eq, not_not] at ingested
      simp only [ingested, lt_irrefl, false_or, true_and]
      split
      · rename_i odds
        simp [Ne.symm odds]
      · rename_i odds
        rw [ne_eq, not_not] at odds
        simp only [odds, lt_irrefl, false_or, true_and]
        split
        · rename_i known
          generalize s.liquidity.isSome = now, previous.liquidity.isSome = before at known ⊢
          cases now <;> cases before <;> simp at known ⊢
        · rename_i known
          rw [ne_eq, not_not] at known
          simp [known]

/-- The snapshot of an observation that outranks the others. -/
def newestOf (snapshots : List Snapshot) (observation : MarketKey × Str × Str) :
    Option Snapshot :=
  maxBy Snapshot.rank (snapshots.filter fun s => s.observation = observation)

theorem foldl_newer (l : List Snapshot) :
    l.foldl (fun v s => some (newer v s)) none = maxBy Snapshot.rank l := by
  unfold maxBy
  congr 1
  funext best s
  cases best with
  | none => rfl
  | some b =>
    simp only [newer, outranks_iff]
    split <;> rfl

def newestByObservation (snapshots : List Snapshot) : Dict (MarketKey × Str × Str) Snapshot :=
  snapshots.foldl (fun newest s => newest.modify s.observation fun p => newer p s) Dict.empty

theorem get?_newestByObservation (snapshots : List Snapshot)
    (observation : MarketKey × Str × Str) :
    (newestByObservation snapshots).get? observation = newestOf snapshots observation :=
  (Dict.get?_foldl_modify Snapshot.observation newer snapshots Dict.empty observation).trans
    (foldl_newer _)

theorem newestOf_some {snapshots : List Snapshot} {observation : MarketKey × Str × Str}
    {s : Snapshot} (newest : newestOf snapshots observation = some s) :
    s ∈ snapshots ∧ s.observation = observation ∧
      ∀ s' ∈ snapshots, s'.observation = observation → s'.rank ≤ s.rank := by
  have first := (maxBy_iff _ _ _).mp newest
  obtain ⟨inside, own⟩ := List.mem_filter.mp first.mem
  refine ⟨inside, of_decide_eq_true own, ?_⟩
  intro s' inside' own'
  exact OrderDual.toDual_le_toDual.mp
    (first.le (List.mem_filter.mpr ⟨inside', decide_eq_true own'⟩))

theorem exists_newestOf {snapshots : List Snapshot} {s : Snapshot} (inside : s ∈ snapshots) :
    ∃ newest, newestOf snapshots s.observation = some newest :=
  exists_maxBy Snapshot.rank (List.mem_filter.mpr ⟨inside, decide_eq_true rfl⟩)

/-- After coalescing each observation has the newest of its snapshots. -/
theorem filter_coalesce (snapshots : List Snapshot) (observation : MarketKey × Str × Str) :
    ((coalesce snapshots).filter fun s => s.observation = observation) =
    (newestOf snapshots observation).toList := by
  have own : ∀ e ∈ (newestByObservation snapshots).entries, e.2.observation = e.1 := by
    rintro ⟨observation, s⟩ inside
    have newest := Dict.get?_eq_some_iff.mpr inside
    rw [get?_newestByObservation] at newest
    exact (newestOf_some newest).2.1
  have listed : coalesce snapshots = (newestByObservation snapshots).entries.map Prod.snd := rfl
  rw [listed, List.filter_map, ← get?_newestByObservation]
  have keyed : ((newestByObservation snapshots).entries.filter
      ((fun s : Snapshot => decide (s.observation = observation)) ∘ Prod.snd)) =
        (newestByObservation snapshots).entries.filter fun e => e.1 = observation := by
    apply List.filter_congr
    intro e inside
    simp [own e inside]
  rw [keyed, Dict.entries_filter_key, List.map_map]
  exact List.map_id _

theorem mem_coalesce {snapshots : List Snapshot} {s : Snapshot} :
    s ∈ coalesce snapshots ↔ newestOf snapshots s.observation = some s := by
  have filtered := filter_coalesce snapshots s.observation
  constructor
  · intro inside
    have kept : s ∈ (coalesce snapshots).filter fun s' => s'.observation = s.observation :=
      List.mem_filter.mpr ⟨inside, decide_eq_true rfl⟩
    rw [filtered] at kept
    exact Option.mem_toList.mp kept
  · intro newest
    rw [newest] at filtered
    have kept : s ∈ (coalesce snapshots).filter fun s' => s'.observation = s.observation := by
      rw [filtered]
      exact List.mem_singleton_self s
    exact (List.mem_filter.mp kept).1

def Snapshot.cell (s : Snapshot) : ℚ × Int := (s.decimalOdds, s.capturedAt)

namespace Group
variable {g : Group} {selection bookmaker : Str} {cell : Option (ℚ × Int)}

/-- The price of a selection at a book, and when it was captured. -/
structure Holds (g : Group) (selection bookmaker : Str) (cell : Option (ℚ × Int)) : Prop where
  price : g.price selection bookmaker = cell.map Prod.fst
  captured : g.captured.get? (selection, bookmaker) = cell.map Prod.snd

theorem Holds.add (holds : g.Holds selection bookmaker cell) (s : Snapshot) :
    (g.add s).Holds selection bookmaker
      (if s.selection = selection ∧ s.bookmaker = bookmaker then some s.cell else cell) where
  price := by
    rw [price_add, holds.price]
    by_cases own : s.selection = selection ∧ s.bookmaker = bookmaker
    · simp [own, Snapshot.cell]
    · have other : ¬ (selection = s.selection ∧ bookmaker = s.bookmaker) :=
        fun same => own ⟨same.1.symm, same.2.symm⟩
      rw [if_neg own, if_neg other]
  captured := by
    have set : (g.add s).captured = g.captured.set (s.selection, s.bookmaker) s.capturedAt := rfl
    rw [set, Dict.get?_set, holds.captured]
    by_cases own : s.selection = selection ∧ s.bookmaker = bookmaker
    · simp [own, Snapshot.cell]
    · have other : ¬ (selection, bookmaker) = (s.selection, s.bookmaker) := by
        intro same
        cases same
        exact own ⟨rfl, rfl⟩
      rw [if_neg own, if_neg other]

theorem Holds.foldl_add (holds : g.Holds selection bookmaker cell) (l : List Snapshot) :
    (l.foldl Group.add g).Holds selection bookmaker
      (((l.filter fun s => s.selection = selection ∧ s.bookmaker = bookmaker).getLast?.map
        Snapshot.cell).or cell) := by
  induction l generalizing g cell with
  | nil => exact holds
  | cons s l ih =>
    have next := ih (holds.add s)
    by_cases own : s.selection = selection ∧ s.bookmaker = bookmaker
    · rw [if_pos own] at next
      rw [List.filter_cons_of_pos (by simpa using own), List.getLast?_cons]
      cases last : (l.filter fun s => s.selection = selection ∧
        s.bookmaker = bookmaker).getLast? with
      | none =>
        rw [last] at next
        exact next
      | some later =>
        rw [last] at next
        exact next
    · rw [if_neg own] at next
      rw [List.filter_cons_of_neg (by simpa using own)]
      exact next

theorem holds_empty (selection bookmaker : Str) : empty.Holds selection bookmaker none where
  price := rfl
  captured := rfl

/-- Every selection of the group has a price. -/
def Tight (g : Group) : Prop := ∀ s ∈ g.prices.keys, ∃ b, (g.price s b).isSome

theorem Tight.add (tight : g.Tight) (s : Snapshot) : (g.add s).Tight := by
  intro s' listed
  have keys : s' = s.selection ∨ s' ∈ g.prices.keys := Dict.mem_keys_insert.mp listed
  obtain rfl | old := keys
  · exact ⟨s.bookmaker, by rw [price_add, if_pos ⟨rfl, rfl⟩]; rfl⟩
  · obtain ⟨b, priced⟩ := tight s' old
    refine ⟨b, ?_⟩
    rw [price_add]
    split
    · rfl
    · exact priced

theorem Tight.foldl_add (tight : g.Tight) (l : List Snapshot) : (l.foldl Group.add g).Tight := by
  induction l generalizing g with
  | nil => exact tight
  | cons s l ih => exact ih (tight.add s)

end Group

section
variable {snapshots : List Snapshot} {key : MarketKey} {group : Group}

theorem holds_groupMarketPrices (grouped : (groupMarketPrices snapshots).get? key = some group)
    (selection bookmaker : Str) :
    group.Holds selection bookmaker
      ((newestOf snapshots (key, selection, bookmaker)).map Snapshot.cell) := by
  rw [get?_groupMarketPrices] at grouped
  have holds := (Group.holds_empty selection bookmaker).foldl_add
    ((coalesce snapshots).filter fun s => s.marketKey = key)
  have rows : (((coalesce snapshots).filter fun s => s.marketKey = key).filter fun s =>
      s.selection = selection ∧ s.bookmaker = bookmaker) =
        (coalesce snapshots).filter fun s => s.observation = (key, selection, bookmaker) := by
    rw [List.filter_filter]
    apply List.filter_congr
    intro s _
    simp only [Snapshot.observation, Prod.mk.injEq, Bool.decide_and, Bool.and_comm]
  rw [groupOf_eq_some grouped, rows, filter_coalesce, Option.or_none] at holds
  cases newest : newestOf snapshots (key, selection, bookmaker) with
  | none => simpa [newest] using holds
  | some s => simpa [newest] using holds

theorem tight_groupMarketPrices (grouped : (groupMarketPrices snapshots).get? key = some group) :
    group.Tight := by
  rw [get?_groupMarketPrices] at grouped
  rw [← groupOf_eq_some grouped]
  have empty : Group.empty.Tight := fun _ listed => by cases listed
  exact empty.foldl_add _

theorem grouped_iff : ((groupMarketPrices snapshots).get? key).isSome ↔
    ∃ s ∈ snapshots, s.marketKey = key := by
  have rows : (groupOf ((coalesce snapshots).filter fun s => s.marketKey = key)).isSome ↔
      ∃ s ∈ coalesce snapshots, s.marketKey = key := by
    cases kept : (coalesce snapshots).filter fun s => s.marketKey = key with
    | nil =>
      rw [List.filter_eq_nil_iff] at kept
      simpa [groupOf] using kept
    | cons s rest =>
      have inside : s ∈ (coalesce snapshots).filter fun s => s.marketKey = key := by
        rw [kept]
        exact List.mem_cons_self
      obtain ⟨listed, own⟩ := List.mem_filter.mp inside
      exact ⟨fun _ => ⟨s, listed, of_decide_eq_true own⟩, fun _ => rfl⟩
  rw [get?_groupMarketPrices, rows]
  constructor
  · rintro ⟨s, listed, own⟩
    exact ⟨s, (newestOf_some (mem_coalesce.mp listed)).1, own⟩
  · rintro ⟨s, inside, rfl⟩
    obtain ⟨newest, found⟩ := exists_newestOf inside
    have same := (newestOf_some found).2.1
    refine ⟨newest, ?_, congrArg Prod.fst same⟩
    rw [mem_coalesce, same]
    exact found

end
end SharpEvPicks.Pipeline
