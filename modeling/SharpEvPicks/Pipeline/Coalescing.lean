import SharpEvPicks.Pipeline.Cells
import SharpEvPicks.Python.Lookups

/-! The maps of a cycle, its prices, times and liquidity, against the list of snapshots they are
made of. -/
namespace SharpEvPicks.Pipeline

open Python Edge

/-! The winner of an observation. -/

theorem Snapshot.eq_of_rank_eq {s s' : Snapshot} (own : s.observation = s'.observation)
    (rank : s.rank = s'.rank) : s = s' := by
  have liquidity : s.liquidity = s'.liquidity := by
    simp only [Snapshot.rank, EmbeddingLike.apply_eq_iff_eq, Prod.mk.injEq, neg_inj] at rank
    obtain ⟨-, -, -, known, amount⟩ := rank
    cases here : s.liquidity with
    | none =>
      cases there : s'.liquidity with
      | none => rfl
      | some l => simp [here, there] at known
    | some l =>
      cases there : s'.liquidity with
      | none => simp [here, there] at known
      | some l' => simpa [here, there] using amount
  simp only [Snapshot.rank, EmbeddingLike.apply_eq_iff_eq, Prod.mk.injEq, neg_inj] at rank
  simp only [Snapshot.observation, Snapshot.marketKey, Prod.mk.injEq] at own
  cases s
  cases s'
  simp_all

theorem newestOf_none_iff {snapshots : List Snapshot} {observation : MarketKey × Str × Str} :
    newestOf snapshots observation = none ↔
      ∀ s ∈ snapshots, s.observation ≠ observation := by
  constructor
  · rintro silent s inside rfl
    obtain ⟨newest, found⟩ := exists_newestOf inside
    rw [silent] at found
    cases found
  · intro absent
    apply Option.eq_none_iff_forall_ne_some.mpr
    intro s newest
    obtain ⟨inside, own, -⟩ := newestOf_some newest
    exact absent s inside own

theorem newestOf_of_perm {snapshots snapshots' : List Snapshot} (perm : snapshots.Perm snapshots')
    {observation : MarketKey × Str × Str} {s : Snapshot}
    (newest : newestOf snapshots observation = some s) :
    newestOf snapshots' observation = some s := by
  obtain ⟨inside, own, top⟩ := newestOf_some newest
  cases found : newestOf snapshots' observation with
  | none => exact absurd own (newestOf_none_iff.mp found s (perm.mem_iff.mp inside))
  | some s' =>
    obtain ⟨inside', own', top'⟩ := newestOf_some found
    have level : s'.rank = s.rank :=
      le_antisymm (top s' (perm.mem_iff.mpr inside') own') (top' s (perm.mem_iff.mp inside) own)
    rw [Snapshot.eq_of_rank_eq (own'.trans own.symm) level]

theorem newestOf_perm {snapshots snapshots' : List Snapshot} (perm : snapshots.Perm snapshots')
    (observation : MarketKey × Str × Str) :
      newestOf snapshots observation = newestOf snapshots' observation := by
  apply Option.ext
  intro s
  exact ⟨newestOf_of_perm perm, newestOf_of_perm perm.symm⟩

/-- The newest snapshot of an observation, and the cheapest of those of its moment. -/
structure Wins (snapshots : List Snapshot) (observation : MarketKey × Str × Str) (s : Snapshot) :
    Prop where
  mem : s ∈ snapshots
  own : s.observation = observation
  newest : ∀ s' ∈ snapshots, s'.observation = observation →
    toLex (s'.capturedAt, s'.ingestedAt) ≤ toLex (s.capturedAt, s.ingestedAt)
  cheapest : ∀ s' ∈ snapshots, s'.observation = observation → s'.capturedAt = s.capturedAt →
    s'.ingestedAt = s.ingestedAt → s.decimalOdds ≤ s'.decimalOdds

theorem wins_of_newestOf {snapshots : List Snapshot} {observation : MarketKey × Str × Str}
    {s : Snapshot} (newest : newestOf snapshots observation = some s) :
      Wins snapshots observation s := by
  obtain ⟨inside, own, top⟩ := newestOf_some newest
  refine ⟨inside, own, fun s' inside' own' => ?_, fun s' inside' own' captured ingested => ?_⟩
  · obtain earlier | ⟨captured, later⟩ := Prod.Lex.toLex_le_toLex.mp (top s' inside' own')
    · exact Prod.Lex.toLex_le_toLex.mpr (.inl earlier)
    · refine Prod.Lex.toLex_le_toLex.mpr (.inr ⟨captured, ?_⟩)
      obtain less | ⟨same, -⟩ := Prod.Lex.toLex_le_toLex.mp later
      · exact less.le
      · exact same.le
  · have below := top s' inside' own'
    simp only [Snapshot.rank, Prod.Lex.toLex_le_toLex, captured, ingested, lt_irrefl, false_or,
      true_and] at below
    obtain less | ⟨same, -⟩ := below
    · exact (neg_lt_neg_iff.mp less).le
    · exact (neg_inj.mp same).ge

/-! What the three maps hold for an observation. -/

def priceAt (snapshots : List Snapshot) (observation : MarketKey × Str × Str) : Option ℚ :=
  ((groupMarketPrices snapshots).get? observation.1).bind fun g =>
    g.price observation.2.1 observation.2.2

def capturedAt (snapshots : List Snapshot) (observation : MarketKey × Str × Str) : Option Int :=
  ((groupMarketPrices snapshots).get? observation.1).bind fun g => g.captured.get? observation.2

def timeIn (times : Dict MarketKey (Dict (Str × Str) Int))
    (observation : MarketKey × Str × Str) : Option Int :=
  (times.get? observation.1).bind fun times => times.get? observation.2

def freshAt (basis : FreshnessBasis) (snapshots : List Snapshot)
    (observation : MarketKey × Str × Str) : Option Int :=
  timeIn (groupMarketFreshnessTimes basis snapshots) observation

/-- A price at a book of a selection. -/
def quoteAt (prices : Prices) (place : Str × Str) : Option ℚ :=
  (prices.get? place.1).bind fun books => books.get? place.2

def liquidityIn (liquidity : Dict MarketKey Prices) (observation : MarketKey × Str × Str) :
    Option ℚ :=
  (liquidity.get? observation.1).bind fun prices => quoteAt prices observation.2

section
variable {snapshots : List Snapshot} {observation : MarketKey × Str × Str}

theorem holdsAt (snapshots : List Snapshot) (observation : MarketKey × Str × Str) :
    priceAt snapshots observation = (newestOf snapshots observation).map Snapshot.decimalOdds ∧
      capturedAt snapshots observation =
        (newestOf snapshots observation).map Snapshot.capturedAt := by
  obtain ⟨key, selection, bookmaker⟩ := observation
  cases grouped : (groupMarketPrices snapshots).get? key with
  | none =>
    have silent : newestOf snapshots (key, selection, bookmaker) = none := by
      refine newestOf_none_iff.mpr fun s inside own => ?_
      have known := grouped_iff.mpr ⟨s, inside, congrArg Prod.fst own⟩
      rw [grouped] at known
      cases known
    simp [priceAt, capturedAt, grouped, silent]
  | some group =>
    have holds := holds_groupMarketPrices grouped selection bookmaker
    constructor
    · rw [priceAt, grouped, Option.bind_some, holds.price, Option.map_map]
      rfl
    · rw [capturedAt, grouped, Option.bind_some, holds.captured, Option.map_map]
      rfl

def putTime (basis : FreshnessBasis) (out : Dict MarketKey (Dict (Str × Str) Int)) (s : Snapshot) :
    Dict MarketKey (Dict (Str × Str) Int) :=
  out.modify s.marketKey fun times =>
    (times.getD Dict.empty).set (s.selection, s.bookmaker) (freshnessTime basis s)

theorem timeIn_put (basis : FreshnessBasis) (out : Dict MarketKey (Dict (Str × Str) Int))
    (s : Snapshot) (o : MarketKey × Str × Str) :
    timeIn (putTime basis out s) o =
      if s.observation = o then (some (freshnessTime basis s)).or (timeIn out o)
        else timeIn out o := by
  obtain ⟨key, place⟩ := o
  rw [timeIn, putTime, Dict.get?_modify]
  by_cases sameKey : key = s.marketKey
  · rw [if_pos sameKey, Option.bind_some, Dict.get?_set, sameKey]
    by_cases samePlace : place = (s.selection, s.bookmaker)
    · simp [Snapshot.observation, samePlace]
    · cases found : out.get? s.marketKey <;>
        simp [Snapshot.observation, timeIn, found, samePlace, Ne.symm samePlace]
  · simp [Snapshot.observation, timeIn, sameKey, Ne.symm sameKey]

theorem freshAt_eq (basis : FreshnessBasis) (snapshots : List Snapshot)
    (observation : MarketKey × Str × Str) :
    freshAt basis snapshots observation = (newestOf snapshots observation).map
      (freshnessTime basis) := by
  have read := look_foldl (timeIn_put basis) (filter_coalesce snapshots observation) Dict.empty
  have start : timeIn Dict.empty observation = none := rfl
  rw [start, Option.or_none] at read
  refine Eq.trans read ?_
  cases newestOf snapshots observation <;> rfl

def putLiquidity (out : Dict MarketKey Prices) (s : Snapshot) : Dict MarketKey Prices :=
  match s.liquidity with
  | none => out
  | some l => out.modify s.marketKey fun liquidity =>
      (liquidity.getD Dict.empty).modify s.selection fun books =>
        (books.getD Dict.empty).set s.bookmaker l

theorem quoteAt_modify (prices : Prices) (selection bookmaker : Str) (l : ℚ)
    (place : Str × Str) :
    quoteAt (prices.modify selection fun books => (books.getD Dict.empty).set bookmaker l) place =
      if (selection, bookmaker) = place then some l else quoteAt prices place := by
  obtain ⟨s, b⟩ := place
  rw [quoteAt, Dict.get?_modify]
  by_cases sameSelection : s = selection
  · rw [if_pos sameSelection, Option.bind_some, Dict.get?_set, sameSelection]
    by_cases sameBook : b = bookmaker
    · simp [sameBook]
    · cases found : prices.get? selection <;> simp [quoteAt, found, sameBook, Ne.symm sameBook]
  · simp [quoteAt, sameSelection, Ne.symm sameSelection]

theorem liquidityIn_put (out : Dict MarketKey Prices) (s : Snapshot) (o : MarketKey × Str × Str) :
    liquidityIn (putLiquidity out s) o =
      if s.observation = o then s.liquidity.or (liquidityIn out o) else liquidityIn out o := by
  obtain ⟨key, place⟩ := o
  unfold putLiquidity
  cases s.liquidity with
  | none => simp
  | some l =>
    rw [liquidityIn, Dict.get?_modify]
    by_cases sameKey : key = s.marketKey
    · rw [if_pos sameKey, Option.bind_some, quoteAt_modify, sameKey, liquidityIn]
      by_cases samePlace : (s.selection, s.bookmaker) = place
      · simp [Snapshot.observation, samePlace]
      · cases out.get? s.marketKey <;> simp [Snapshot.observation, samePlace, quoteAt]
    · simp [Snapshot.observation, liquidityIn, sameKey, Ne.symm sameKey]

theorem liquidityIn_eq (snapshots : List Snapshot) (observation : MarketKey × Str × Str) :
    liquidityIn (groupMarketLiquidity snapshots) observation =
      (newestOf snapshots observation).bind Snapshot.liquidity := by
  have read := look_foldl liquidityIn_put (filter_coalesce snapshots observation) Dict.empty
  have start : liquidityIn Dict.empty observation = none := rfl
  rw [start, Option.or_none] at read
  exact read

/-- Everything that the maps hold for an observation is read off one snapshot. -/
structure Reads (snapshots : List Snapshot) (observation : MarketKey × Str × Str)
    (s : Option Snapshot) : Prop where
  price : priceAt snapshots observation = s.map Snapshot.decimalOdds
  captured : capturedAt snapshots observation = s.map Snapshot.capturedAt
  fresh : ∀ basis, freshAt basis snapshots observation = s.map (freshnessTime basis)
  liquidity : liquidityIn (groupMarketLiquidity snapshots) observation = s.bind Snapshot.liquidity

theorem reads_newestOf (snapshots : List Snapshot) (observation : MarketKey × Str × Str) :
    Reads snapshots observation (newestOf snapshots observation) where
  price := (holdsAt snapshots observation).1
  captured := (holdsAt snapshots observation).2
  fresh basis := freshAt_eq basis snapshots observation
  liquidity := liquidityIn_eq snapshots observation

/-! No container of the maps is empty. -/

/-- A selection is listed, and each one listed has a book. -/
structure Stocked (prices : Prices) : Prop where
  some : ∃ place, (quoteAt prices place).isSome
  books : ∀ selection books, prices.get? selection = .some books → ∃ b, (books.get? b).isSome

theorem stocked_modify {prices : Prices}
    (books : ∀ selection books, prices.get? selection = some books → ∃ b,
      (books.get? b).isSome)
    (selection bookmaker : Str) (l : ℚ) :
    Stocked (prices.modify selection fun books => (books.getD Dict.empty).set bookmaker l) where
  some := ⟨(selection, bookmaker), by rw [quoteAt_modify, if_pos rfl]; rfl⟩
  books s bs found := by
    rw [Dict.get?_modify] at found
    split at found
    · cases found
      exact ⟨bookmaker, by rw [Dict.get?_set_self]; rfl⟩
    · exact books s bs found

theorem stocked_putLiquidity {out : Dict MarketKey Prices}
    (stocked : ∀ key prices, out.get? key = some prices → Stocked prices) (s : Snapshot) :
    ∀ key prices, (putLiquidity out s).get? key = some prices → Stocked prices := by
  intro key prices found
  unfold putLiquidity at found
  split at found
  · exact stocked key prices found
  rw [Dict.get?_modify] at found
  split at found
  · cases found
    apply stocked_modify
    cases old : out.get? s.marketKey with
    | none =>
      intro selection books absent
      cases absent
    | some old' => exact (stocked s.marketKey old' old).books
  · exact stocked key prices found

theorem stocked_groupMarketLiquidity {key : MarketKey} {prices : Prices}
    (found : (groupMarketLiquidity snapshots).get? key = some prices) : Stocked prices := by
  have run (l : List Snapshot) {out : Dict MarketKey Prices}
      (stocked : ∀ key prices, out.get? key = some prices → Stocked prices) :
      ∀ key prices, (l.foldl putLiquidity out).get? key = some prices → Stocked prices := by
    induction l generalizing out with
    | nil => exact stocked
    | cons s l ih => exact ih (stocked_putLiquidity stocked s)
  have start : ∀ key prices, (Dict.empty : Dict MarketKey Prices).get? key = some prices →
      Stocked prices :=
    fun _ _ absent => by cases absent
  exact run (coalesce snapshots) start key prices found

theorem filled_groupMarketFreshnessTimes {basis : FreshnessBasis} {key : MarketKey}
    {times : Dict (Str × Str) Int}
    (found : (groupMarketFreshnessTimes basis snapshots).get? key = some times) :
    ∃ place, (times.get? place).isSome := by
  have run (l : List Snapshot) {out : Dict MarketKey (Dict (Str × Str) Int)}
      (filled : ∀ key times, out.get? key = some times → ∃ place, (times.get? place).isSome) :
      ∀ key times, (l.foldl (putTime basis) out).get? key = some times →
        ∃ place, (times.get? place).isSome := by
    induction l generalizing out with
    | nil => exact filled
    | cons s l ih =>
      refine ih fun key times found => ?_
      rw [putTime, Dict.get?_modify] at found
      split at found
      · cases found
        exact ⟨_, by rw [Dict.get?_set_self]; rfl⟩
      · exact filled key times found
  have start : ∀ key times,
      (Dict.empty : Dict MarketKey (Dict (Str × Str) Int)).get? key = some times →
      ∃ place, (times.get? place).isSome := fun _ _ absent => by cases absent
  exact run (coalesce snapshots) start key times found

end

/-! Equal maps. -/

theorem eqv_prices {prices prices' : Prices}
    (books : ∀ selection books, prices.get? selection = some books → ∃ b,
      (books.get? b).isSome)
    (books' : ∀ selection books, prices'.get? selection = some books → ∃ b,
      (books.get? b).isSome)
    (alike : ∀ place, quoteAt prices place = quoteAt prices' place) :
    prices.Eqv (Dict.Eqv Eq) prices' :=
  Dict.eqv_of_look books books' (fun selection b => alike (selection, b)) fun _ _ _ _ _ =>
    Dict.eqv_of_get?

theorem Group.books_of_tight {g : Group} (tight : g.Tight) {selection : Str} {books : Dict Str ℚ}
    (found : g.prices.get? selection = some books) : ∃ b, (books.get? b).isSome := by
  have listed : selection ∈ g.prices.keys := by
    rw [Dict.mem_keys_iff, found]
    rfl
  obtain ⟨b, priced⟩ := tight selection listed
  rw [Group.price, found, Option.bind_some] at priced
  exact ⟨b, priced⟩

/-- `==` on a group. -/
structure Group.Same (g g' : Group) : Prop where
  prices : g.prices.Eqv (Dict.Eqv Eq) g'.prices
  captured : g.captured.Eqv Eq g'.captured

theorem eqv_groupMarketPrices {snapshots snapshots' : List Snapshot}
    (perm : snapshots.Perm snapshots') :
    (groupMarketPrices snapshots).Eqv Group.Same (groupMarketPrices snapshots') := by
  intro key
  have keys : ((groupMarketPrices snapshots).get? key).isSome ↔
      ((groupMarketPrices snapshots').get? key).isSome := by
    rw [grouped_iff, grouped_iff]
    simp only [perm.mem_iff]
  cases grouped : (groupMarketPrices snapshots).get? key with
  | none =>
    cases grouped' : (groupMarketPrices snapshots').get? key with
    | none => exact .none
    | some g' => simp [grouped, grouped'] at keys
  | some g =>
    cases grouped' : (groupMarketPrices snapshots').get? key with
    | none => simp [grouped, grouped'] at keys
    | some g' =>
      refine .some ⟨eqv_prices (fun _ _ => Group.books_of_tight (tight_groupMarketPrices grouped))
        (fun _ _ => Group.books_of_tight (tight_groupMarketPrices grouped')) ?_,
          Dict.eqv_of_get? ?_⟩
      · rintro ⟨selection, bookmaker⟩
        have holds := holds_groupMarketPrices grouped selection bookmaker
        rw [newestOf_perm perm] at holds
        exact holds.price.trans (holds_groupMarketPrices grouped' selection bookmaker).price.symm
      · rintro ⟨selection, bookmaker⟩
        have holds := holds_groupMarketPrices grouped selection bookmaker
        rw [newestOf_perm perm] at holds
        exact holds.captured.trans
          (holds_groupMarketPrices grouped' selection bookmaker).captured.symm

theorem eqv_groupMarketLiquidity {snapshots snapshots' : List Snapshot}
    (perm : snapshots.Perm snapshots') :
    (groupMarketLiquidity snapshots).Eqv (Dict.Eqv (Dict.Eqv Eq))
    (groupMarketLiquidity snapshots') := by
  have filled (rows : List Snapshot) (key : MarketKey) (prices : Prices)
      (found : (groupMarketLiquidity rows).get? key = some prices) :
      ∃ place, (quoteAt prices place).isSome := (stocked_groupMarketLiquidity found).some
  refine Dict.eqv_of_look (filled snapshots) (filled snapshots') (fun key place => ?_) ?_
  · have here := liquidityIn_eq snapshots (key, place)
    rw [newestOf_perm perm] at here
    exact here.trans (liquidityIn_eq snapshots' (key, place)).symm
  · intro key prices prices' found found' alike
    exact eqv_prices (stocked_groupMarketLiquidity found).books
      (stocked_groupMarketLiquidity found').books alike

theorem eqv_groupMarketFreshnessTimes {snapshots snapshots' : List Snapshot}
    (perm : snapshots.Perm snapshots') (basis : FreshnessBasis) :
    (groupMarketFreshnessTimes basis snapshots).Eqv (Dict.Eqv Eq)
      (groupMarketFreshnessTimes basis snapshots') := by
  refine Dict.eqv_of_look (fun _ _ => filled_groupMarketFreshnessTimes)
    (fun _ _ => filled_groupMarketFreshnessTimes) (fun key place => ?_) fun _ _ _ _ _ =>
      Dict.eqv_of_get?
  have here := freshAt_eq basis snapshots (key, place)
  rw [newestOf_perm perm] at here
  exact here.trans (freshAt_eq basis snapshots' (key, place)).symm

theorem coalescing_singleSourced (snapshots : List Snapshot) :
    (∀ snapshots', snapshots.Perm snapshots' →
      (groupMarketPrices snapshots).Eqv Group.Same (groupMarketPrices snapshots') ∧
        (groupMarketLiquidity snapshots).Eqv (Dict.Eqv (Dict.Eqv Eq))
        (groupMarketLiquidity snapshots') ∧
          ∀ basis, (groupMarketFreshnessTimes basis snapshots).Eqv (Dict.Eqv Eq)
            (groupMarketFreshnessTimes basis snapshots')) ∧
      ∀ observation,
        ((∀ s ∈ snapshots, s.observation ≠ observation) ∧
          Reads snapshots observation none) ∨
          ∃ s, Wins snapshots observation s ∧ Reads snapshots observation (some s) := by
  constructor
  · intro snapshots' perm
    exact ⟨eqv_groupMarketPrices perm, eqv_groupMarketLiquidity perm,
      eqv_groupMarketFreshnessTimes perm⟩
  · intro observation
    have reads := reads_newestOf snapshots observation
    cases newest : newestOf snapshots observation with
    | none =>
      rw [newest] at reads
      exact .inl ⟨newestOf_none_iff.mp newest, reads⟩
    | some s =>
      rw [newest] at reads
      exact .inr ⟨s, wins_of_newestOf newest, reads⟩

end SharpEvPicks.Pipeline
