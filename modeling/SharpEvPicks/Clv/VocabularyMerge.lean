import Mathlib.Data.List.Pairwise
import SharpEvPicks.Pipeline.Coalescing
import SharpEvPicks.Pipeline.Vocabulary
import SharpEvPicks.Python.Reordering

/-! One group for one line, `_merge_vocabulary_groups` of `app/clv_trueup.py`: the prices of the
groups whose details fold together, and the times they were captured. -/
namespace SharpEvPicks.Clv

open Python Edge Pipeline

/-- `new is not None and (prev is None or new >= prev)`. -/
def notOlder (prev new : Option Int) : Bool := new.any fun t => prev.all (· ≤ t)

/-- The books of a selection, over those already merged. -/
def mergeBooks (dst src : Group) (selection : Str) (books held : Dict Str ℚ) : Dict Str ℚ :=
  books.entries.foldl
    (fun out e =>
      if (out.get? e.1).isNone ||
          notOlder (dst.captured.get? (selection, e.1)) (src.captured.get? (selection, e.1)) then
        out.set e.1 e.2
      else out)
    held

def mergePrices (dst src : Group) : Prices :=
  src.prices.entries.foldl
    (fun out e => out.modify e.1 fun held =>
      mergeBooks dst src e.1 e.2 (held.getD Dict.empty)) dst.prices

def mergeCaptured (dst src : Dict (Str × Str) Int) : Dict (Str × Str) Int :=
  src.entries.foldl (fun out e => if (out.get? e.1).all (· ≤ e.2) then out.set e.1 e.2
    else out) dst

def mergeGroup (dst src : Group) : Group :=
  ⟨mergePrices dst src, mergeCaptured dst.captured src.captured⟩

section
variable [Unicode]

def canonicalKey (key : MarketKey) : MarketKey := (key.1, key.2.1, canonicalMarketDetail key.2.2)

/-- The first group of a line is copied, the others are merged into it. -/
def mergeVocabularyGroups (grouped : GroupedMarkets) : GroupedMarkets :=
  grouped.entries.foldl
    (fun out e => out.modify (canonicalKey e.1) fun held => held.elim e.2 fun dst =>
      mergeGroup dst e.2)
    Dict.empty

end

/-! One group into another. -/

/-- A time is that of a price. -/
def Timed (g : Group) : Prop :=
  ∀ selection book, (g.captured.get? (selection, book)).isSome → (g.price selection book).isSome

section Merging
variable {dst src : Group} {selection book : Str}

theorem get?_mergeBooks (books held : Dict Str ℚ) :
    (mergeBooks dst src selection books held).get? book =
      if (held.get? book).isNone ||
          notOlder (dst.captured.get? (selection, book)) (src.captured.get? (selection, book)) then
        (books.get? book).or (held.get? book)
      else held.get? book := by
  have pass := Dict.get?_foldl_setIf
    (fun book (held : Option ℚ) (_ : ℚ) => held.isNone ||
      notOlder (dst.captured.get? (selection, book)) (src.captured.get? (selection, book)))
      books.nodup held book
  have quoted : Dict.find books.entries book = books.get? book := rfl
  rw [quoted] at pass
  rw [mergeBooks, pass]
  cases books.get? book with
  | none => simp
  | some odds => rfl

/-- What the merged prices say of a selection at a book. -/
theorem price_mergeGroup :
    (mergeGroup dst src).price selection book =
      if (dst.price selection book).isNone ||
          notOlder (dst.captured.get? (selection, book)) (src.captured.get? (selection, book)) then
        (src.price selection book).or (dst.price selection book)
      else dst.price selection book := by
  unfold Group.price mergeGroup mergePrices
  dsimp only
  rw [Dict.get?_foldl_modify Prod.fst
    (fun held e => mergeBooks dst src e.1 e.2 (held.getD Dict.empty)), Dict.entries_filter_key]
  cases src.prices.get? selection with
  | none => simp
  | some books =>
    simp only [Option.toList_some, List.map_cons, List.map_nil, List.foldl_cons, List.foldl_nil,
      Option.bind_some, get?_mergeBooks]
    cases dst.prices.get? selection <;> rfl

theorem captured_mergeGroup (place : Str × Str) :
    (mergeGroup dst src).captured.get? place =
      if notOlder (dst.captured.get? place) (src.captured.get? place) then src.captured.get? place
      else dst.captured.get? place := by
  have pass := Dict.get?_foldl_setIf (fun _ (held : Option Int) t =>
    held.all (· ≤ t)) src.captured.nodup dst.captured place
  have timed : Dict.find src.captured.entries place = src.captured.get? place := rfl
  rw [timed] at pass
  change (mergeCaptured dst.captured src.captured).get? place = _
  rw [mergeCaptured, pass]
  cases src.captured.get? place with
  | none => rfl
  | some t => rfl

theorem selection_mergeGroup :
    ((mergeGroup dst src).prices.get? selection).isSome ↔
      (dst.prices.get? selection).isSome ∨ (src.prices.get? selection).isSome := by
  change ((mergePrices dst src).get? selection).isSome ↔ _
  rw [mergePrices, Dict.get?_foldl_modify Prod.fst
    (fun held e => mergeBooks dst src e.1 e.2 (held.getD Dict.empty)), Dict.entries_filter_key]
  cases src.prices.get? selection with
  | none => simp
  | some books => simp

end Merging

/-! All the groups of a line. -/

/-- The price of a place is the one that was seen last, and is recorded with its time. -/
structure Newest (groups : List Group) (m : Group) (selection book : Str) (odds : ℚ) (g : Group) :
    Prop where
  mem : g ∈ groups
  price : g.price selection book = some odds
  time : m.captured.get? (selection, book) = g.captured.get? (selection, book)
  latest : ∀ g' ∈ groups, (g'.price selection book).isSome →
    ∀ t', g'.captured.get? (selection, book) = some t' →
    ∃ t, g.captured.get? (selection, book) = some t ∧ t' ≤ t

/-- What the groups of one line come to. -/
structure Freshest (groups : List Group) (m : Group) : Prop where
  selections : ∀ selection, (m.prices.get? selection).isSome ↔
    ∃ g ∈ groups, (g.prices.get? selection).isSome
  books : ∀ selection book, (m.price selection book).isSome ↔
    ∃ g ∈ groups, (g.price selection book).isSome
  newest : ∀ selection book odds, m.price selection book = some odds →
    ∃ g, Newest groups m selection book odds g
  timed : Timed m

theorem freshest_single {g : Group} (timed : Timed g) : Freshest [g] g where
  selections selection := by simp
  books selection book := by simp
  newest selection book odds priced := by
    refine ⟨g, List.mem_singleton_self g, priced, rfl, fun g' inside _ t' known => ?_⟩
    obtain rfl := List.mem_singleton.mp inside
    exact ⟨t', known, le_rfl⟩
  timed := timed

theorem notOlder_false_iff {prev new : Option Int} :
    notOlder prev new = false ↔ ∀ t', new = some t' → ∃ t, prev = some t ∧ t' < t := by
  cases new with
  | none => simp [notOlder]
  | some t' => cases prev <;> simp [notOlder]

theorem notOlder_iff {prev new : Option Int} :
    notOlder prev new ↔ ∃ t, new = some t ∧ ∀ t', prev = some t' → t' ≤ t := by
  cases new with
  | none => simp [notOlder]
  | some t' => cases prev <;> simp [notOlder]

section Step
variable {groups : List Group} {m g : Group} (fresh : Freshest groups m) (timed : Timed g)
include fresh timed

omit timed in
theorem Freshest.price_isSome (selection book : Str) :
    ((mergeGroup m g).price selection book).isSome ↔
      ∃ g' ∈ groups ++ [g], (g'.price selection book).isSome := by
  have old := fresh.books selection book
  rw [price_mergeGroup]
  simp only [List.mem_append, List.mem_singleton, or_and_right, exists_or, exists_eq_left, ← old]
  cases held : m.price selection book with
  | none => simp
  | some odds =>
    cases g.price selection book with
    | none => simp
    | some other =>
      cases notOlder (m.captured.get? (selection, book)) (g.captured.get? (selection, book)) <;>
        simp

/-- An observation that is not older than the one held, or the first of its place. -/
theorem Freshest.newest_taken {selection book : Str} {odds : ℚ}
    (priced : g.price selection book = some odds)
    (takes : m.price selection book = none ∨
      notOlder (m.captured.get? (selection, book)) (g.captured.get? (selection, book))) :
    Newest (groups ++ [g]) (mergeGroup m g) selection book odds g where
  mem := by simp
  price := priced
  time := by
    rw [captured_mergeGroup]
    split
    · rfl
    · rename_i older
      have first := takes.resolve_right older
      have unheld : m.captured.get? (selection, book) = none := by
        by_contra known
        have sold := fresh.timed selection book (Option.isSome_iff_ne_none.mpr known)
        rw [first] at sold
        cases sold
      rw [unheld] at older ⊢
      cases known : g.captured.get? (selection, book) with
      | none => rfl
      | some t => simp [known, notOlder] at older
  latest g' inside quoted t' known := by
    obtain before | now := List.mem_append.mp inside
    · have held := (fresh.books selection book).mpr ⟨g', before, quoted⟩
      obtain ⟨odds', there⟩ := Option.isSome_iff_exists.mp held
      obtain ⟨g₀, newest⟩ := fresh.newest selection book odds' there
      obtain ⟨t₀, time, le⟩ := newest.latest g' before quoted t' known
      obtain first | later := takes
      · rw [first] at there
        cases there
      · obtain ⟨t, here, above⟩ := notOlder_iff.mp later
        exact ⟨t, here, le.trans (above t₀ (newest.time.trans time))⟩
    · obtain rfl := List.mem_singleton.mp now
      exact ⟨t', known, le_rfl⟩

theorem Freshest.newest_kept {selection book : Str} {odds : ℚ}
    (held : m.price selection book = some odds)
    (older : notOlder (m.captured.get? (selection, book)) (g.captured.get? (selection, book)) =
      false) :
    ∃ g', Newest (groups ++ [g]) (mergeGroup m g) selection book odds g' := by
  obtain ⟨g₀, newest⟩ := fresh.newest selection book odds held
  refine ⟨g₀, List.mem_append_left _ newest.mem, newest.price, ?_,
    fun g' inside quoted t' known => ?_⟩
  · rw [captured_mergeGroup, older, if_neg Bool.false_ne_true, newest.time]
  · obtain before | now := List.mem_append.mp inside
    · exact newest.latest g' before quoted t' known
    · obtain rfl := List.mem_singleton.mp now
      obtain ⟨t, here, lt⟩ := notOlder_false_iff.mp older t' known
      exact ⟨t, newest.time.symm.trans here, lt.le⟩

theorem Freshest.newest_step {selection book : Str} {odds : ℚ}
    (priced : (mergeGroup m g).price selection book = some odds) :
    ∃ g', Newest (groups ++ [g]) (mergeGroup m g) selection book odds g' := by
  rw [price_mergeGroup] at priced
  split at priced
  · rename_i takes
    simp only [Bool.or_eq_true, Option.isNone_iff_eq_none] at takes
    cases quoted : g.price selection book with
    | some odds' =>
      rw [quoted, Option.some_or] at priced
      cases priced
      exact ⟨g, fresh.newest_taken timed quoted takes⟩
    | none =>
      -- a time without a price cannot have moved the line
      rw [quoted, Option.none_or] at priced
      rw [priced] at takes
      obtain ⟨t, known, -⟩ := notOlder_iff.mp (takes.resolve_left (Option.some_ne_none odds))
      have sold := timed selection book (by rw [known]; rfl)
      rw [quoted] at sold
      cases sold
  · rename_i keeps
    simp only [Bool.or_eq_true, not_or, Bool.not_eq_true] at keeps
    exact fresh.newest_kept timed priced keeps.2

theorem Freshest.concat : Freshest (groups ++ [g]) (mergeGroup m g) where
  selections selection := by
    rw [selection_mergeGroup, fresh.selections]
    simp [or_and_right, exists_or]
  books := fresh.price_isSome
  newest _ _ _ := fresh.newest_step timed
  timed selection book known := by
    rw [captured_mergeGroup] at known
    rw [fresh.price_isSome]
    split at known
    · exact ⟨g, by simp, timed selection book known⟩
    · obtain ⟨g', inside, priced⟩ :=
        (fresh.books selection book).mp (fresh.timed selection book known)
      exact ⟨g', List.mem_append_left _ inside, priced⟩

end Step

theorem Freshest.foldl {done groups : List Group} {m : Group} (fresh : Freshest done m)
    (timed : ∀ g ∈ groups, Timed g) :
      Freshest (done ++ groups) (groups.foldl mergeGroup m) := by
  induction groups generalizing done m with
  | nil => rwa [List.append_nil]
  | cons g groups ih =>
    obtain ⟨first, rest⟩ := List.forall_mem_cons.mp timed
    have next := ih (fresh.concat first) rest
    rwa [List.append_assoc] at next

/-! The order of the groups. -/

/-- The groups did not see one selection at one book at the same time. -/
def Apart (g g' : Group) : Prop :=
  ∀ selection book, (g.price selection book).isSome → (g'.price selection book).isSome →
    g.captured.get? (selection, book) ≠ g'.captured.get? (selection, book)

instance apartSymm : Std.Symm Apart :=
  ⟨fun _ _ apart selection book first second => (apart selection book second first).symm⟩

def Untied (groups : List Group) : Prop := groups.Pairwise Apart

theorem Untied.same {groups : List Group} (untied : Untied groups) {g g' : Group}
    (here : g ∈ groups) (there : g' ∈ groups) {selection book : Str}
    (priced : (g.price selection book).isSome) (priced' : (g'.price selection book).isSome)
    (time : g.captured.get? (selection, book) = g'.captured.get? (selection, book)) : g = g' := by
  by_contra ne
  exact List.Pairwise.forall untied here there ne selection book priced priced' time

section
variable {groups groups' : List Group} {m m' : Group} (perm : groups.Perm groups')
  (untied : Untied groups) (fresh : Freshest groups m) (fresh' : Freshest groups' m')
include perm untied fresh fresh'

theorem Freshest.agree {selection book : Str} {odds : ℚ}
    (priced : m.price selection book = some odds) :
    m'.price selection book = some odds ∧
      m.captured.get? (selection, book) = m'.captured.get? (selection, book) := by
  have sold : (m'.price selection book).isSome := by
    rw [fresh'.books]
    obtain ⟨g, inside, quoted⟩ := (fresh.books selection book).mp (by rw [priced]; rfl)
    exact ⟨g, perm.mem_iff.mp inside, quoted⟩
  obtain ⟨odds', priced'⟩ := Option.isSome_iff_exists.mp sold
  obtain ⟨g, newest⟩ := fresh.newest selection book odds priced
  obtain ⟨g', newest'⟩ := fresh'.newest selection book odds' priced'
  have quoted : (g.price selection book).isSome := by rw [newest.price]; rfl
  have quoted' : (g'.price selection book).isSome := by rw [newest'.price]; rfl
  have level : g.captured.get? (selection, book) = g'.captured.get? (selection, book) := by
    have above := newest.latest g' (perm.mem_iff.mpr newest'.mem) quoted'
    have above' := newest'.latest g (perm.mem_iff.mp newest.mem) quoted
    cases known : g.captured.get? (selection, book) with
    | none =>
      cases known' : g'.captured.get? (selection, book) with
      | none => rfl
      | some t' =>
        obtain ⟨t, here, -⟩ := above t' known'
        rw [known] at here
        cases here
    | some t =>
      obtain ⟨t', there, le⟩ := above' t known
      obtain ⟨t₁, here, le'⟩ := above t' there
      rw [known] at here
      cases here
      rw [there, le_antisymm le le']
  obtain rfl := untied.same newest.mem (perm.mem_iff.mpr newest'.mem) quoted quoted' level
  have same : odds = odds' := Option.some.inj (newest.price.symm.trans newest'.price)
  exact ⟨priced'.trans (congrArg some same.symm), newest.time.trans newest'.time.symm⟩

end

theorem eqv_of_price {prices prices' : Prices}
    (selections : ∀ selection, (prices.get? selection).isSome ↔ (prices'.get? selection).isSome)
    (alike : ∀ place, quoteAt prices place = quoteAt prices' place) :
      prices.Eqv (Dict.Eqv Eq) prices' := by
  intro selection
  have both := selections selection
  cases here : prices.get? selection with
  | none =>
    cases there : prices'.get? selection with
    | none => exact .none
    | some books' => simp [here, there] at both
  | some books =>
    cases there : prices'.get? selection with
    | none => simp [here, there] at both
    | some books' =>
      refine .some (Dict.eqv_of_get? fun book => ?_)
      have same := alike (selection, book)
      rwa [quoteAt, quoteAt, here, there, Option.bind_some, Option.bind_some] at same

theorem Freshest.same {groups groups' : List Group} {m m' : Group} (perm : groups.Perm groups')
    (untied : Untied groups) (fresh : Freshest groups m) (fresh' : Freshest groups' m') :
      m.Same m' := by
  have untied' : Untied groups' :=
    (perm.pairwise_iff fun apart => apartSymm.symm _ _ apart).mp untied
  have price (selection book : Str) : m.price selection book = m'.price selection book := by
    apply Option.ext
    intro odds
    exact ⟨fun priced => (fresh.agree perm untied fresh' priced).1,
      fun priced => (fresh'.agree perm.symm untied' fresh priced).1⟩
  constructor
  · refine eqv_of_price (fun selection => ?_) fun place => price place.1 place.2
    rw [fresh.selections, fresh'.selections]
    simp only [perm.mem_iff]
  · apply Dict.eqv_of_get?
    rintro ⟨selection, book⟩
    cases known : m.captured.get? (selection, book) with
    | some t =>
      obtain ⟨odds, priced⟩ :=
        Option.isSome_iff_exists.mp (fresh.timed selection book (by rw [known]; rfl))
      rw [← known, (fresh.agree perm untied fresh' priced).2]
    | none =>
      cases known' : m'.captured.get? (selection, book) with
      | none => rfl
      | some t =>
        obtain ⟨odds, priced⟩ :=
          Option.isSome_iff_exists.mp (fresh'.timed selection book (by rw [known']; rfl))
        have back := (fresh'.agree perm.symm untied' fresh priced).2
        rw [known, known'] at back
        cases back

/-! The maps of all groups. -/

section
variable [Unicode]

/-- The groups that fold to a key, in the order in which they come. -/
def foldingTo (grouped : GroupedMarkets) (key : MarketKey) : List Group :=
  (grouped.entries.filter fun e => canonicalKey e.1 = key).map Prod.snd

theorem get?_mergeVocabularyGroups (grouped : GroupedMarkets) (key : MarketKey) :
    (mergeVocabularyGroups grouped).get? key =
      (foldingTo grouped key).head?.map fun g =>
      (foldingTo grouped key).tail.foldl mergeGroup g := by
  have run (l : List (MarketKey × Group)) (m : Group) :
      l.foldl (fun v e => some (v.elim e.2 fun dst => mergeGroup dst e.2)) (some m) =
        some ((l.map Prod.snd).foldl mergeGroup m) := by
    induction l generalizing m with
    | nil => rfl
    | cons e l ih => exact ih (mergeGroup m e.2)
  unfold mergeVocabularyGroups foldingTo
  rw [Dict.get?_foldl_modify (fun e : MarketKey × Group => canonicalKey e.1)
    fun held e => held.elim e.2 fun dst => mergeGroup dst e.2]
  cases grouped.entries.filter fun e => canonicalKey e.1 = key with
  | nil => rfl
  | cons e l => exact run l e.2

/-- Every time that is kept in a map is that of a price. -/
def AllTimed (grouped : GroupedMarkets) : Prop := ∀ e ∈ grouped.entries, Timed e.2

omit [Unicode] in
theorem allTimed_groupMarketPrices (snapshots : List Snapshot) :
    AllTimed (groupMarketPrices snapshots) := by
  rintro ⟨key, g⟩ listed selection book known
  have holds := holds_groupMarketPrices (Dict.get?_eq_some_iff.mpr listed) selection book
  rw [holds.captured, Option.isSome_map] at known
  rw [holds.price, Option.isSome_map]
  exact known

theorem freshest_merged {grouped : GroupedMarkets} (timed : AllTimed grouped) {key : MarketKey}
    {m : Group} (merged : (mergeVocabularyGroups grouped).get? key = some m) :
      Freshest (foldingTo grouped key) m := by
  have each : ∀ g ∈ foldingTo grouped key, Timed g := by
    intro g inside
    obtain ⟨e, kept, rfl⟩ := List.mem_map.mp inside
    exact timed e (List.mem_filter.mp kept).1
  rw [get?_mergeVocabularyGroups] at merged
  cases groups : foldingTo grouped key with
  | nil =>
    rw [groups] at merged
    cases merged
  | cons g rest =>
    rw [groups] at merged each
    obtain ⟨first, others⟩ := List.forall_mem_cons.mp each
    cases merged
    exact (freshest_single first).foldl others

theorem merge_keeps_freshest {grouped : GroupedMarkets} (timed : AllTimed grouped) :
    (∀ key, ((mergeVocabularyGroups grouped).get? key).isSome ↔
      foldingTo grouped key ≠ []) ∧
      (∀ key m, (mergeVocabularyGroups grouped).get? key = some m →
        Freshest (foldingTo grouped key) m) ∧
      ∀ grouped' : GroupedMarkets, grouped.entries.Perm grouped'.entries →
        (∀ key, Untied (foldingTo grouped key)) →
          (mergeVocabularyGroups grouped).Eqv Group.Same (mergeVocabularyGroups grouped') := by
  have known (grouped : GroupedMarkets) (key : MarketKey) :
      ((mergeVocabularyGroups grouped).get? key).isSome ↔ foldingTo grouped key ≠ [] := by
    rw [get?_mergeVocabularyGroups, Option.isSome_map, List.isSome_head?]
  refine ⟨known grouped, fun key m merged => freshest_merged timed merged,
    fun grouped' perm untied key => ?_⟩
  have timed' : AllTimed grouped' := fun e listed => timed e (perm.mem_iff.mpr listed)
  have groups : (foldingTo grouped key).Perm (foldingTo grouped' key) := (perm.filter _).map _
  have both : ((mergeVocabularyGroups grouped).get? key).isSome ↔
      ((mergeVocabularyGroups grouped').get? key).isSome := by
    rw [known, known, ← List.length_pos_iff, groups.length_eq, List.length_pos_iff]
  cases merged : (mergeVocabularyGroups grouped).get? key with
  | none =>
    cases merged' : (mergeVocabularyGroups grouped').get? key with
    | none => exact .none
    | some m' => simp [merged, merged'] at both
  | some m =>
    cases merged' : (mergeVocabularyGroups grouped').get? key with
    | none => simp [merged, merged'] at both
    | some m' =>
      exact .some ((freshest_merged timed merged).same groups (untied key)
        (freshest_merged timed' merged'))

end

/-! More than 2.5 goals at one bookmaker, in two spellings of the line: at evens, and a minute later
shorter. -/

theorem shorter_gt : (1 : ℚ) < 19 / 10 := by norm_num

theorem shorter_le : (19 / 10 : ℚ) ≤ maxDecimalOdds := by
  unfold maxDecimalOdds
  norm_num

def firstGoals : Snapshot where
  eventId := "alpha-v-beta".toList
  bookmaker := "bet365".toList
  market := .totals
  selection := "Over 2.5".toList
  decimalOdds := 2
  capturedAt := 0
  ingestedAt := 60
  marketDetail := some "over_under_2_5".toList
  odds_gt := even_gt
  odds_le := even_le
  liquidity_nonneg := noLiquidity
  not_future := by decide

def laterGoals : Snapshot where
  eventId := "alpha-v-beta".toList
  bookmaker := "bet365".toList
  market := .totals
  selection := "Over 2.5".toList
  decimalOdds := 19 / 10
  capturedAt := 60
  ingestedAt := 60
  marketDetail := some "totals_2_5".toList
  odds_gt := shorter_gt
  odds_le := shorter_le
  liquidity_nonneg := noLiquidity
  not_future := by decide

def goalsLine : MarketKey := ("alpha-v-beta".toList, .totals, some "totals_2_5".toList)

theorem apart_goals : Apart (Group.empty.add firstGoals) (Group.empty.add laterGoals) := by
  intro selection book priced _
  have first := (Group.holds_empty selection book).add firstGoals
  have later := (Group.holds_empty selection book).add laterGoals
  rw [first.captured, later.captured]
  rw [first.price] at priced
  by_cases own : firstGoals.selection = selection ∧ firstGoals.bookmaker = book
  · rw [if_pos own, if_pos (show laterGoals.selection = selection ∧
      laterGoals.bookmaker = book from own)]
    decide
  · rw [if_neg own] at priced
    cases priced

theorem untied_goals (key : MarketKey) :
    Untied (@foldingTo Unicode.ascii (groupMarketPrices [firstGoals, laterGoals]) key) := by
  have groups : Untied ((groupMarketPrices [firstGoals, laterGoals]).entries.map Prod.snd) :=
    List.pairwise_pair.mpr apart_goals
  exact groups.sublist (List.filter_sublist.map _)

theorem merge_keeps_freshest_goals :
    ((@mergeVocabularyGroups Unicode.ascii (groupMarketPrices [firstGoals, laterGoals])).get?
      goalsLine).isSome ∧
      (∀ m, (@mergeVocabularyGroups Unicode.ascii
        (groupMarketPrices [firstGoals, laterGoals])).get? goalsLine =
        some m → Freshest (@foldingTo Unicode.ascii (groupMarketPrices [firstGoals, laterGoals])
          goalsLine) m) ∧
      (@mergeVocabularyGroups Unicode.ascii (groupMarketPrices [firstGoals, laterGoals])).Eqv
        Group.Same
        (@mergeVocabularyGroups Unicode.ascii (groupMarketPrices [laterGoals, firstGoals])) := by
  obtain ⟨known, fresh, blind⟩ :=
    @merge_keeps_freshest Unicode.ascii _ (allTimed_groupMarketPrices [firstGoals, laterGoals])
  refine ⟨(known goalsLine).mpr (by decide +kernel), fresh goalsLine, blind _ ?_ untied_goals⟩
  exact .swap _ _ _

end SharpEvPicks.Clv
