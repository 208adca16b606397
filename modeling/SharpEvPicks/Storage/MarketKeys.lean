import SharpEvPicks.Ingestion.LineTokens
import SharpEvPicks.Storage.Closes

/-! The column `market`: which of the loaders' markets come back out of it as they went in. -/
namespace SharpEvPicks.Storage

open Python Pipeline Ingestion

section Keys
variable [Unicode]

/-- `snapshot_market_key`. -/
def snapshotMarketKey (market : Market) (detail : Option Str) : Except IdentityError Str :=
  let key := match detail with
    | none | some [] => market.value
    | some detail => detail
  requireBoundedIdentity key marketDetailMaxBytes "snapshot market".toList

/-- A stored snapshot is rebuilt in the group it was scraped in. -/
structure Decoded (market : Market) (detail : Option Str) (key : Str) (d : Option Str) : Prop where
  stored : snapshotMarketKey market detail = .ok key
  read : marketFromSnapshotKey key = some (market, d)
  grouped : canonicalMarketDetail d = canonicalMarketDetail detail

def RoundTrips (market : Market) (detail : Option Str) : Prop :=
  ∃ key d, Decoded market detail key d

/-! The loaders. -/

/-- What a market and its detail are read from. -/
inductive Loaded where
  | oddsChecker (marketType : Str) (line : Json) (selection : Option Str)
      (betNames : Option (List Str))
    (soccer : Bool)
  /-- `_EXACT_SETS_BO3_DETAIL`. -/
  | exactSets
  | oddsPortal (key : Str)
  | arcadiaMoneyline
  | arcadiaTotals (games : Bool) (points : ℚ)
  | arcadiaSpread (games : Bool) (homeLine : ℚ)

/-- The detail of `extract_spread_quotes`. -/
def arcadiaSpreadDetail (games : Bool) (homeLine : ℚ) : Str :=
  if games then "asian_handicap_games_".toList ++ gamesLineToken homeLine
  else "asian_handicap_".toList ++ (if homeLine < 0 then ['-'] else []) ++ arcadiaLineToken homeLine

def Loaded.emits [Readers] : Loaded → Option (Market × Option Str)
  | oddsChecker marketType line selection betNames soccer =>
    match marketForType marketType line selection betNames soccer with
    | .ok (some (market, detail)) => some (market, some detail)
    | _ => none
  | exactSets => some (.totals, some "totals_2_5".toList)
  | oddsPortal key => (marketForKey key).map fun market => (market, some key)
  | arcadiaMoneyline => some (.h2h, none)
  | arcadiaTotals games points => some (.totals, some (arcadiaTotalsDetail games points))
  | arcadiaSpread games homeLine => some (.spreads, some (arcadiaSpreadDetail games homeLine))

def settledMarkets : List Market := [.h2h, .totals, .spreads, .btts, .dnb, .doubleChance]

/-- OddsChecker writes more than the market's own name. -/
def Qualified [Readers] (key : Str) (line : Json) : Prop :=
  isSetHandicapMarketType key ∨ marketPeriodSlug key ≠ [] ∨
    ((lineText line).map slugLine).getD [] ≠ []

def Loaded.Decodable [Readers] : Loaded → Prop
  | oddsChecker marketType line selection _ _ =>
    let key := Unicode.lower (strip marketType)
    ¬ contains "draw no bet".toList key ∧ key ≠ "double chance".toList ∧
      (isSpreadMarketType key ∨ isTotalMarketType key selection → Qualified key line)
  | oddsPortal key => key ≠ "dnb".toList ∧ key ≠ "double_chance".toList
  | _ => True

/-! Reading keys. -/

omit [Unicode] in
/-- The key of a detail is the detail. -/
theorem snapshotMarketKey_detail {market : Market} {detail : Str} (named : detail ≠ [])
    (bounded : utf8Length detail ≤ marketDetailMaxBytes) :
    snapshotMarketKey market (some detail) = .ok detail := by
  obtain ⟨c, rest, rfl⟩ := List.exists_cons_of_ne_nil named
  simp [snapshotMarketKey, requireBoundedIdentity, bounded.not_gt]

theorem roundTrips_detail {market : Market} {detail : Str} (named : detail ≠ [])
    (bounded : utf8Length detail ≤ marketDetailMaxBytes) :
    RoundTrips market (some detail) ↔
      ∃ d, marketFromSnapshotKey detail = some (market, d) ∧
        canonicalMarketDetail d = canonicalMarketDetail (some detail) := by
  have stored : snapshotMarketKey market (some detail) = .ok detail :=
    snapshotMarketKey_detail named bounded
  constructor
  · rintro ⟨key, d, decoded⟩
    have same : detail = key := by
      have keys := decoded.stored
      rw [stored] at keys
      exact Except.ok.inj keys
    subst same
    exact ⟨d, decoded.read, decoded.grouped⟩
  · rintro ⟨d, read, grouped⟩
    exact ⟨detail, d, stored, read, grouped⟩

/-- A key that is read as a market with itself for detail. -/
theorem roundTrips_self {market : Market} {detail : Str} (named : detail ≠ [])
    (bounded : utf8Length detail ≤ marketDetailMaxBytes)
    (read : marketFromSnapshotKey detail = some (market, some detail)) :
      RoundTrips market (some detail) :=
  (roundTrips_detail named bounded).mpr ⟨some detail, read, rfl⟩

/-- A key that is the name of a market loses its detail. -/
theorem roundTrips_name {market : Market} {detail : Str} (named : detail ≠ [])
    (bounded : utf8Length detail ≤ marketDetailMaxBytes)
    (read : marketFromSnapshotKey detail = some (market, none)) :
    RoundTrips market (some detail) ↔ canonicalMarketDetail (some detail) = none := by
  rw [roundTrips_detail named bounded, read]
  constructor
  · rintro ⟨d, same, grouped⟩
    obtain rfl : none = d := (Prod.mk.inj (Option.some.inj same)).2
    exact grouped.symm
  · intro lineless
    exact ⟨none, rfl, lineless.symm⟩

end Keys

theorem marketOfValue_begins {start key : Str} (begins : start.isPrefixOf key)
    (other : ∀ k ∈ allMarkets.map Market.value, ¬ start.isPrefixOf k) :
      marketOfValue key = none := by
  refine List.find?_eq_none.mpr fun m listed => ?_
  rw [decide_eq_true_iff]
  rintro rfl
  exact other m.value (List.mem_map_of_mem listed) begins

theorem exactMarkets_prefix {start key : Str} (begins : start.isPrefixOf key)
    (other : ∀ k ∈ exactMarkets.keys, ¬ start.isPrefixOf k) :
      exactMarkets.get? key = none := by
  by_contra found
  exact other key (Dict.mem_keys_iff.mpr (Option.isSome_iff_ne_none.mpr found)) begins

/-- The prefixes of `_market_for_key`. -/
theorem read_oddsPortal {key : Str} {market : Market} (named : marketOfValue key = none)
    (found : marketForKey key = some market) :
      marketFromSnapshotKey key = some (market, some key) := by
  rw [marketFromSnapshotKey, named, found]

theorem read_totals (rest : Str) :
    marketFromSnapshotKey ("totals_".toList ++ rest) = some
      (.totals, some ("totals_".toList ++ rest)) := by
  have named : marketOfValue ("totals_".toList ++ rest) = none :=
    marketOfValue_begins rfl (by
      decide : ∀ k ∈ allMarkets.map Market.value, ¬ "totals_".toList.isPrefixOf k)
  have exact : exactMarkets.get? ("totals_".toList ++ rest) = none :=
    exactMarkets_prefix rfl (by
      decide : ∀ k ∈ exactMarkets.keys, ¬ "totals_".toList.isPrefixOf k)
  rw [marketFromSnapshotKey, named, marketForKey, exact]
  rfl

theorem read_spreads (rest : Str) :
    marketFromSnapshotKey ("spreads_".toList ++ rest) = some
      (.spreads, some ("spreads_".toList ++ rest)) := by
  have named : marketOfValue ("spreads_".toList ++ rest) = none :=
    marketOfValue_begins rfl (by
      decide : ∀ k ∈ allMarkets.map Market.value, ¬ "spreads_".toList.isPrefixOf k)
  have exact : exactMarkets.get? ("spreads_".toList ++ rest) = none :=
    exactMarkets_prefix rfl (by
      decide : ∀ k ∈ exactMarkets.keys, ¬ "spreads_".toList.isPrefixOf k)
  rw [marketFromSnapshotKey, named, marketForKey, exact]
  rfl

/-- No key of the draw no bet market is read but its name. -/
theorem read_dnb (rest : Str) : marketFromSnapshotKey ("dnb_".toList ++ rest) = none := by
  have named : marketOfValue ("dnb_".toList ++ rest) = none :=
    marketOfValue_begins rfl (by
      decide : ∀ k ∈ allMarkets.map Market.value, ¬ "dnb_".toList.isPrefixOf k)
  have exact : exactMarkets.get? ("dnb_".toList ++ rest) = none :=
    exactMarkets_prefix rfl (by decide : ∀ k ∈ exactMarkets.keys, ¬ "dnb_".toList.isPrefixOf k)
  rw [marketFromSnapshotKey, named, marketForKey, exact]
  rfl

section Sources
variable [Unicode] {market : Market} {detail : Str}

theorem canonical_eq_none {detail : Str} :
    canonicalMarketDetail (some detail) = none ↔ Unicode.lower detail ∈ linelessDetails := by
  simp only [canonicalMarketDetail, Option.bind_some]
  split
  · rename_i lineless
    simp [lineless]
  · rename_i lined
    simp only [lined, iff_false]
    split <;> exact Option.some_ne_none _

omit [Unicode] in
/-- The names of markets that OddsPortal lists under keys of its own. -/
theorem marketOfValue_key {key : Str} {market : Market} (found : marketForKey key = some market) :
    marketOfValue key = none ∨ key ∈ ["btts", "dnb", "double_chance"].map String.toList := by
  rw [marketForKey] at found
  split at found
  · rename_i exact
    have listed : key ∈ exactMarkets.keys := Dict.mem_keys_iff.mpr (by simp [exact])
    have cases : ∀ key ∈ exactMarkets.keys,
        marketOfValue key = none ∨
          key ∈ ["btts", "dnb", "double_chance"].map String.toList := by
          decide
    exact cases key listed
  · left
    split at found
    · rename_i begins
      exact marketOfValue_begins begins (by decide)
    split at found
    · rename_i begins
      obtain asian | european := begins
      · exact marketOfValue_begins asian (by decide)
      · exact marketOfValue_begins european (by decide)
    · cases found

theorem oddsPortal_roundTrips {key : Str} (found : marketForKey key = some market)
    (bounded : utf8Length key ≤ marketDetailMaxBytes) :
    RoundTrips market (some key) ↔ key ≠ "dnb".toList ∧ key ≠ "double_chance".toList := by
  have named : key ≠ [] := by
    rintro rfl
    have empty : marketForKey [] = none := by decide
    rw [empty] at found
    cases found
  obtain unlisted | listed := marketOfValue_key found
  · have read := read_oddsPortal unlisted found
    refine iff_of_true (roundTrips_self named bounded read) ⟨?_, ?_⟩ <;> rintro rfl <;>
      revert unlisted <;> decide
  · have read : marketFromSnapshotKey key = some (market, none) := by
      have values : ∀ key ∈ ["btts", "dnb", "double_chance"].map String.toList,
          marketFromSnapshotKey key = (marketForKey key).map fun market =>
            (market, none) := by decide
      rw [values key listed, found]
      rfl
    have clean : ∀ key ∈ ["btts", "dnb", "double_chance"].map String.toList, ∀ c ∈ key,
      Clean c := by decide
    have lineless : ∀ key ∈ ["btts", "dnb", "double_chance"].map String.toList,
        key ∈ linelessDetails ↔
          key ≠ "dnb".toList ∧ key ≠ "double_chance".toList := by decide
    rw [roundTrips_name named bounded read, canonical_eq_none, lower_clean (clean key listed),
      lineless key listed]

/-- A key that no market is read from, or that names a market whose name is a detail. -/
theorem not_roundTrips {detail : Str} (named : detail ≠ [])
    (bounded : utf8Length detail ≤ marketDetailMaxBytes)
    (lost : marketFromSnapshotKey detail = none ∨ ∃ m,
      marketFromSnapshotKey detail = some (m, none) ∧ Unicode.lower detail ∉ linelessDetails) :
    ¬ RoundTrips market (some detail) := by
  rw [roundTrips_detail named bounded]
  rintro ⟨d, read, grouped⟩
  obtain unread | ⟨m, name, lined⟩ := lost
  · rw [unread] at read
    cases read
  · obtain rfl : none = d := (Prod.mk.inj (Option.some.inj (name.symm.trans read))).2
    exact lined (canonical_eq_none.mp grouped.symm)

/-- The names of markets are details except three. -/
theorem name_lost {name : Str}
    (listed : name ∈ ["dnb", "double_chance", "spreads", "totals"].map String.toList) :
    ∃ m, marketFromSnapshotKey name = some (m, none) ∧
      Unicode.lower name ∉ linelessDetails := by
  have clean : ∀ name ∈ ["dnb", "double_chance", "spreads", "totals"].map String.toList,
      ∀ c ∈ name, Clean c := by
    decide
  have named : ∀ name ∈ ["dnb", "double_chance", "spreads", "totals"].map String.toList,
      marketFromSnapshotKey name = (marketOfValue name).map (·, none) ∧
      (marketOfValue name).isSome ∧ name ∉ linelessDetails := by decide
  obtain ⟨read, some, lined⟩ := named name listed
  obtain ⟨m, value⟩ := Option.isSome_iff_exists.mp some
  refine ⟨m, by rw [read, value]; rfl, ?_⟩
  rwa [lower_clean (clean name listed)]

theorem isTotal_word {key : Str} {selection : Option Str}
    (total : isTotalMarketType key selection) :
    contains "total".toList key ∨ containsAny totalTerms key := by
  rw [isTotalMarketType] at total
  split at total
  · cases total
  split at total
  · rename_i terms
    exact .inr terms
  · simp only [Bool.and_eq_true] at total
    exact .inl total.1

omit [Unicode] in
/-- Market types that are neither handicaps nor totals. -/
theorem direct_words : ∀ entry ∈ supportedMarketTypes.entries, ¬ isSpreadMarketType entry.1 ∧
    ¬ contains "total".toList entry.1 ∧ ¬ containsAny totalTerms entry.1 := by decide

omit [Unicode] in
theorem direct_decodes :
    ∀ entry ∈ supportedMarketTypes.entries, entry.2.1 ∈ settledMarkets →
    marketFromSnapshotKey entry.2.2 = some (entry.2.1, none) ∧ entry.2.2 ≠ [] ∧
    (∀ c ∈ entry.2.2, Clean c) ∧
      (entry.2.2 ∈ linelessDetails ↔
        ¬ contains "draw no bet".toList entry.1 ∧ entry.1 ≠ "double chance".toList) := by
          decide

/-- A key of one of OddsPortal's families. -/
theorem family_roundTrips {start rest : Str} (family : marketForKey (start ++ rest) = some market)
    (unlisted : ∀ k ∈ allMarkets.map Market.value, ¬ start.isPrefixOf k)
    (named : start ≠ []) (bounded : utf8Length (start ++ rest) ≤ marketDetailMaxBytes) :
      RoundTrips market (some (start ++ rest)) := by
  have begins : start.isPrefixOf (start ++ rest) := by simp
  have nonempty : start ++ rest ≠ [] := by simp [named]
  exact roundTrips_self nonempty bounded
    (read_oddsPortal (marketOfValue_begins begins unlisted) family)

theorem arcadiaTotals_roundTrips (games : Bool) (points : ℚ)
    (bounded : utf8Length (arcadiaTotalsDetail games points) ≤ marketDetailMaxBytes) :
    RoundTrips .totals (some (arcadiaTotalsDetail games points)) := by
  have family (rest : Str) : marketForKey ("over_under_".toList ++ rest) = some .totals := by
    rw [marketForKey, exactMarkets_prefix rfl (by
      decide : ∀ k ∈ exactMarkets.keys, ¬ "over_under_".toList.isPrefixOf k)]
    rfl
  obtain ⟨rest, detail⟩ : ∃ rest, arcadiaTotalsDetail games points = "over_under_".toList ++
      rest := by
    cases games
    · exact ⟨arcadiaLineToken points, rfl⟩
    · exact ⟨"games_".toList ++ gamesLineToken points, rfl⟩
  rw [detail] at bounded ⊢
  exact family_roundTrips (family rest) (by decide) (by decide) bounded

theorem arcadiaSpread_roundTrips (games : Bool) (homeLine : ℚ)
    (bounded : utf8Length (arcadiaSpreadDetail games homeLine) ≤ marketDetailMaxBytes) :
    RoundTrips .spreads (some (arcadiaSpreadDetail games homeLine)) := by
  have family (rest : Str) : marketForKey ("asian_handicap".toList ++ rest) = some .spreads := by
    rw [marketForKey, exactMarkets_prefix rfl (by
      decide : ∀ k ∈ exactMarkets.keys, ¬ "asian_handicap".toList.isPrefixOf k)]
    rfl
  obtain ⟨rest, detail⟩ : ∃ rest,
      arcadiaSpreadDetail games homeLine = "asian_handicap".toList ++
      rest := by
    cases games
    · exact ⟨"_".toList ++ ((if homeLine < 0 then ['-'] else []) ++ arcadiaLineToken homeLine),
        rfl⟩
    · exact ⟨"_games_".toList ++ gamesLineToken homeLine, rfl⟩
  rw [detail] at bounded ⊢
  exact family_roundTrips (family rest) (by decide) (by decide) bounded

variable [Readers]

theorem marketDetail_bare {start key : Str} {line : Json} (bare : marketPeriodSlug key = [])
    (empty : ((lineText line).map slugLine).getD [] = []) :
      marketDetail start key (lineText line) = start := by
  rw [marketDetail, bare, empty]
  simp [join]

theorem marketDetail_more {start key : Str} {line : Json}
    (more : marketPeriodSlug key ≠ [] ∨ ((lineText line).map slugLine).getD [] ≠ []) :
    ∃ rest, marketDetail start key (lineText line) = start ++ '_' :: rest := by
  have parts : [marketPeriodSlug key, ((lineText line).map slugLine).getD []].filter (· ≠ []) ≠
      [] := by
    obtain period | slug := more
    · simp [period]
    · by_cases period : marketPeriodSlug key = [] <;> simp [period, slug]
  obtain ⟨first, others, split⟩ := List.exists_cons_of_ne_nil parts
  refine ⟨join ['_'] (first :: others), ?_⟩
  rw [marketDetail, split]
  simp [join]

theorem marketDetail_cases (start key : Str) (line : Json) :
    (marketDetail start key (lineText line) = start ∧ marketPeriodSlug key = [] ∧
        ((lineText line).map slugLine).getD [] = []) ∨
      ∃ rest, marketDetail start key (lineText line) = start ++ '_' :: rest ∧
        (marketPeriodSlug key ≠ [] ∨ ((lineText line).map slugLine).getD [] ≠ []) := by
  by_cases more : marketPeriodSlug key ≠ [] ∨ ((lineText line).map slugLine).getD [] ≠ []
  · obtain ⟨rest, detail⟩ := marketDetail_more more
    exact .inr ⟨rest, detail, more⟩
  · push Not at more
    exact .inl ⟨marketDetail_bare more.1 more.2, more⟩

/-- What `_market_for_type` makes of a market type, branch by branch. -/
inductive Typed (key : Str) (line : Json) (selection : Option Str) : Market → Str → Prop where
  | direct {market : Market} {detail : Str} : supportedMarketTypes.get? key = some
      (market, detail) →
    Typed key line selection market detail
  | drawNoBet : contains "draw no bet".toList key →
    Typed key line selection .dnb (marketDetail "dnb".toList key (lineText line))
  | bothTeams : key = "both teams to score".toList → Typed key line selection .btts "btts".toList
  | doubleChance : key = "double chance".toList →
    Typed key line selection .doubleChance "double_chance".toList
  | spread : ¬ contains "draw no bet".toList key → key ≠ "double chance".toList →
    isSpreadMarketType key → Typed key line selection .spreads
      (marketDetail
        (if isSetHandicapMarketType key then "spreads_sets".toList else "spreads".toList) key
        (lineText line))
  | teamTotal (detail : Str) : Typed key line selection .teamTotals detail
  | total : ¬ contains "draw no bet".toList key → key ≠ "double chance".toList →
    ¬ isSpreadMarketType key → isTotalMarketType key selection →
    Typed key line selection .totals (marketDetail "totals".toList key (lineText line))

theorem marketForType_typed {marketType : Str} {line : Json} {selection : Option Str}
    {betNames : Option (List Str)} {soccer : Bool}
    (found : marketForType marketType line selection betNames soccer =
      .ok (some (market, detail))) :
    Typed (Unicode.lower (strip marketType)) line selection market detail := by
  rw [marketForType] at found
  split at found
  · rename_i direct listed
    cases found
    exact .direct listed
  · cases finite : isNonfiniteNumeric line with
    | error fault =>
      rw [finite] at found
      cases found
    | ok infinite =>
      rw [finite] at found
      change (if infinite then _ else _) = _ at found
      split at found
      · cases found
      split at found
      · rename_i draw
        cases found
        exact .drawNoBet draw
      rename_i draw
      split at found
      · rename_i both
        cases found
        exact .bothTeams both
      split at found
      · rename_i double
        cases found
        exact .doubleChance double
      rename_i double
      split at found
      · rename_i spread
        split at found
        · cases found
        · cases found
          exact .spread draw double spread
      rename_i spread
      split at found
      · cases found
        exact .teamTotal _
      split at found
      · rename_i total
        cases found
        exact .total draw double spread total
      · cases found

/-- The detail of a line market has to say more than the market's name. -/
theorem lined_roundTrips {start key : Str} {line : Json}
    (name : start ∈ ["dnb", "double_chance", "spreads", "totals"].map String.toList)
    (read : ∀ rest, marketFromSnapshotKey (start ++ '_' :: rest) = some
      (market, some (start ++ '_' :: rest)))
    (bounded : utf8Length (marketDetail start key (lineText line)) ≤ marketDetailMaxBytes) :
    RoundTrips market (some (marketDetail start key (lineText line))) ↔
      marketPeriodSlug key ≠ [] ∨ ((lineText line).map slugLine).getD [] ≠ [] := by
  obtain ⟨bare, period, slug⟩ | ⟨rest, detail, more⟩ := marketDetail_cases start key line
  · rw [bare] at bounded ⊢
    have named : start ≠ [] := by
      rintro rfl
      simp at name
    refine iff_of_false (not_roundTrips named bounded (.inr (name_lost name))) ?_
    simp [period, slug]
  · rw [detail] at bounded ⊢
    exact iff_of_true (roundTrips_self (by simp) bounded (read rest)) more

theorem oddsChecker_roundTrips {marketType : Str} {line : Json} {selection : Option Str}
    {betNames : Option (List Str)} {soccer : Bool}
    (found : marketForType marketType line selection betNames soccer = .ok (some (market, detail)))
    (settled : market ∈ settledMarkets) (bounded : utf8Length detail ≤ marketDetailMaxBytes) :
    RoundTrips market (some detail) ↔
      (Loaded.oddsChecker marketType line selection betNames soccer).Decodable := by
  have typed := marketForType_typed found
  simp only [Loaded.Decodable]
  generalize Unicode.lower (strip marketType) = key at typed ⊢
  cases typed with
  | direct listed =>
    have entry := Dict.get?_eq_some_iff.mp listed
    obtain ⟨noSpread, noTotal, noTerm⟩ := direct_words _ entry
    obtain ⟨read, named, clean, lineless⟩ := direct_decodes _ entry settled
    have lines : isSpreadMarketType key ∨ isTotalMarketType key selection →
        Qualified key line := by
      rintro (spread | total)
      · exact absurd spread noSpread
      · exact ((isTotal_word total).elim noTotal noTerm).elim
    rw [roundTrips_name named bounded read, canonical_eq_none, lower_clean clean, lineless]
    exact ⟨fun h => ⟨h.1, h.2, lines⟩, fun h => ⟨h.1, h.2.1⟩⟩
  | drawNoBet draw =>
    refine iff_of_false ?_ fun decodable => decodable.1 draw
    obtain ⟨bare, -⟩ | ⟨rest, detail, -⟩ := marketDetail_cases "dnb".toList key line
    · rw [bare] at bounded ⊢
      exact not_roundTrips (by decide) bounded (.inr (name_lost (by decide)))
    · rw [detail] at bounded ⊢
      exact not_roundTrips (by simp) bounded (.inl (read_dnb rest))
  | bothTeams both =>
    subst both
    have words : ¬ isSpreadMarketType "both teams to score".toList ∧
        ¬ contains "total".toList "both teams to score".toList ∧
        ¬ containsAny totalTerms "both teams to score".toList := by decide
    have lines : isSpreadMarketType "both teams to score".toList ∨
        isTotalMarketType "both teams to score".toList selection →
          Qualified "both teams to score".toList line := by
      rintro (spread | total)
      · exact absurd spread words.1
      · exact ((isTotal_word total).elim words.2.1 words.2.2).elim
    have read : marketFromSnapshotKey "btts".toList = some (.btts, none) := by decide
    have clean : ∀ c ∈ "btts".toList, Clean c := by decide
    rw [roundTrips_name (by decide) bounded read, canonical_eq_none, lower_clean clean]
    exact iff_of_true (by decide) ⟨by decide, by decide, lines⟩
  | doubleChance double =>
    refine iff_of_false ?_ fun decodable => decodable.2.1 double
    exact not_roundTrips (by decide) bounded (.inr (name_lost (by decide)))
  | spread draw double spread =>
    have decodable : (¬ contains "draw no bet".toList key ∧ key ≠ "double chance".toList ∧
        (isSpreadMarketType key ∨ isTotalMarketType key selection → Qualified key line)) ↔
        Qualified key line :=
      ⟨fun h => h.2.2 (.inl spread), fun qualified => ⟨draw, double, fun _ => qualified⟩⟩
    rw [decodable]
    by_cases sets : isSetHandicapMarketType key
    · simp only [sets, if_true] at bounded ⊢
      refine iff_of_true ?_ (.inl sets)
      obtain ⟨bare, -⟩ | ⟨rest, detail, -⟩ :=
        marketDetail_cases "spreads_sets".toList key line
      · rw [bare] at bounded ⊢
        exact roundTrips_self (by decide) bounded (read_spreads "sets".toList)
      · rw [detail] at bounded ⊢
        exact roundTrips_self (by simp) bounded (read_spreads ("sets_".toList ++ rest))
    · simp only [sets, Bool.false_eq_true, if_false] at bounded ⊢
      rw [lined_roundTrips (by decide) read_spreads bounded, Qualified]
      exact ⟨.inr, fun qualified => qualified.resolve_left sets⟩
  | teamTotal detail => exact absurd settled (by decide)
  | total draw double spread total =>
    have sets : ¬ isSetHandicapMarketType key := by
      simp only [isSetHandicapMarketType, Bool.and_eq_true, not_and]
      exact fun found => absurd found spread
    rw [lined_roundTrips (by decide) read_totals bounded]
    exact ⟨fun more => ⟨draw, double, fun _ => .inr more⟩,
      fun h => (h.2.2 (.inr total)).resolve_left sets⟩

/-- A stored market is read back as it was loaded, exactly unless OddsChecker or OddsPortal loaded
draw no bet or double chance, or OddsChecker a total or handicap without period and line. -/
theorem stored_market_decodes {loaded : Loaded} {market : Market} {detail : Option Str}
    (emitted : loaded.emits = some (market, detail)) (settled : market ∈ settledMarkets)
    (bounded : ∀ d ∈ detail, utf8Length d ≤ marketDetailMaxBytes) :
    RoundTrips market detail ↔ loaded.Decodable := by
  cases loaded with
  | oddsChecker marketType line selection betNames soccer =>
    rw [Loaded.emits] at emitted
    split at emitted
    · rename_i found
      cases emitted
      exact oddsChecker_roundTrips found settled (bounded _ rfl)
    · cases emitted
  | exactSets =>
    cases emitted
    exact iff_of_true (roundTrips_self (by decide) (by decide) (read_totals "2_5".toList)) trivial
  | oddsPortal key =>
    obtain ⟨m, found, pair⟩ := Option.map_eq_some_iff.mp emitted
    cases pair
    exact oddsPortal_roundTrips found (bounded _ rfl)
  | arcadiaMoneyline =>
    cases emitted
    exact iff_of_true ⟨"h2h".toList, none, by decide, by decide, rfl⟩ trivial
  | arcadiaTotals games points =>
    cases emitted
    exact iff_of_true (arcadiaTotals_roundTrips games points (bounded _ rfl)) trivial
  | arcadiaSpread games homeLine =>
    cases emitted
    exact iff_of_true (arcadiaSpread_roundTrips games homeLine (bounded _ rfl)) trivial

end Sources

/-- The interpreter, as far as it reads 2.5. -/
@[reducible] def lineReaders : Readers where
  loads _ := .error .notJson
  int _ := none
  float s := if s = "2.5".toList then some (.finite (5 / 2)) else none
  decimal _ := none
  shortest x := x
  nearest n := n
  str _ := []
  fromisoformat _ := none
  fromtimestamp _ := none

def overUnder : Loaded := .oddsChecker "Over/Under".toList (.str "2.5".toList) none none true

theorem overUnder_decodes :
    @RoundTrips Unicode.ascii .totals (some "totals_2_5".toList) ↔
      @Loaded.Decodable Unicode.ascii lineReaders overUnder :=
  @stored_market_decodes Unicode.ascii lineReaders overUnder .totals (some "totals_2_5".toList)
    (by decide +kernel) (by decide) (by decide)

/-- Market types of OddsChecker with what they are loaded as without a line. -/
def lostTypes : List (String × Market × String) :=
  [("Draw No Bet", .dnb, "dnb"), ("Draw No Bet 1st Half", .dnb, "dnb_1st_half"),
    ("Double Chance", .doubleChance, "double_chance"), ("Over/Under", .totals, "totals")]

/-- Draw no bet, its first half, double chance and a total without a line are stored and not read
back. -/
theorem stored_market_decodes_fails :
    lostTypes.Forall fun lost =>
      @Loaded.emits Unicode.ascii lineReaders (.oddsChecker lost.1.toList .null none none false) =
          some (lost.2.1, some lost.2.2.toList) ∧
        ¬ @RoundTrips Unicode.ascii lost.2.1 (some lost.2.2.toList) := by
  have emitted : ∀ lost ∈ lostTypes,
      @Loaded.emits Unicode.ascii lineReaders (.oddsChecker lost.1.toList .null none none false) =
        some (lost.2.1, some lost.2.2.toList) := by decide +kernel
  have named : ∀ lost ∈ lostTypes, lost.2.2.toList ≠ [] ∧
      utf8Length lost.2.2.toList ≤ marketDetailMaxBytes := by
    decide +kernel
  have read : ∀ lost ∈ lostTypes, marketFromSnapshotKey lost.2.2.toList = none ∨
      marketFromSnapshotKey lost.2.2.toList = some (lost.2.1, none) ∧
        @Unicode.lower Unicode.ascii lost.2.2.toList ∉ linelessDetails := by decide +kernel
  refine List.forall_iff_forall_mem.mpr fun lost listed => ⟨emitted lost listed, ?_⟩
  obtain ⟨nonempty, bounded⟩ := named lost listed
  exact @not_roundTrips Unicode.ascii _ _ nonempty bounded
    ((read lost listed).imp_right fun h => ⟨_, h⟩)

end SharpEvPicks.Storage
