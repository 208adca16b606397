import SharpEvPicks.Ingestion.LineQuotes

/-! The quotes of lines come in pairs: two sides of one line out of one open book. -/
namespace SharpEvPicks.Ingestion

open Python Pipeline Transition

/-! Price maps. -/

namespace Sides
variable {read : Runner → Option (LineSide × ℚ × BackLevel)} {runners : List Runner}

theorem at_put (sides : Sides) (side side' : LineSide) (line line' : ℚ) (level : BackLevel) :
    ((sides.put (side, line, level)).at_ side').get? line' =
      if side = side' ∧ line = line' then some level else (sides.at_ side').get? line' := by
  cases side <;> cases side' <;> simp [put, at_, Dict.get?_set, eq_comm]

/-- Every price of a side is that of a runner. -/
theorem mem_of_get?_gather {side : LineSide} {line : ℚ} {level : BackLevel}
    (found : ((gather read runners).at_ side).get? line = some level) :
    ∃ r ∈ runners, read r = some (side, line, level) := by
  have all (entries : List (LineSide × ℚ × BackLevel)) (sides : Sides)
      (found : ((entries.foldl put sides).at_ side).get? line = some level) :
      (sides.at_ side).get? line = some level ∨ (side, line, level) ∈ entries := by
    induction entries generalizing sides with
    | nil => exact .inl found
    | cons entry entries ih =>
      obtain early | late := ih (sides.put entry) found
      · obtain ⟨side', line', level'⟩ := entry
        rw [at_put] at early
        split at early
        · rename_i here
          obtain ⟨rfl, rfl⟩ := here
          cases early
          exact .inr List.mem_cons_self
        · exact .inl early
      · exact .inr (List.mem_cons_of_mem entry late)
  obtain early | listed := all _ _ found
  · cases side <;> cases early
  · exact List.mem_filterMap.mp listed

end Sides

/-! Pairs. -/

/-- A line of a market that is priced on both sides. -/
structure LinePair where
  market : MarketCatalogue
  perRunner : LineBook
  kind : LineKind
  detail : Str
  line : ℚ
  first : BackLevel
  second : BackLevel

namespace LinePair
variable (p : LinePair)

def level : LineSide → BackLevel
  | .first => p.first
  | .second => p.second

def quote (side : LineSide) : LineQuote :=
  ⟨p.market.marketId, p.market.eventId, p.kind, p.detail, side, p.line, p.level side⟩

def quotes : List LineQuote := [p.quote .first, p.quote .second]

end LinePair

section Quotes
variable [CaseMaps]

/-- Which kind of lines a market has, and how its runners are read. -/
def marketReader (homeAway : Dict Str (Str × Str)) (market : MarketCatalogue)
    (perRunner : LineBook) :
    Option (LineKind × (Runner → Option (LineSide × ℚ × BackLevel))) :=
  let marketType := CaseMaps.upper (strip market.marketType)
  if marketType = "ASIAN_HANDICAP".toList then
    (homeAway.get? market.eventId).bind fun teams =>
      if foldedName teams.1 = [] ∨ foldedName teams.2 = [] ∨
        foldedName teams.1 = foldedName teams.2 then none
      else some (.handicap, readHandicap teams perRunner)
  else if marketType = "ALT_TOTAL_GOALS".toList then some (.total, readTotal none perRunner)
  else (overUnderLine marketType).map fun line => (.total, readTotal (some line) perRunner)

theorem marketLines_eq (homeAway : Dict Str (Str × Str)) (market : MarketCatalogue)
    (perRunner : LineBook) :
    marketLines homeAway market perRunner =
      (marketReader homeAway market perRunner).elim [] fun reader =>
        pairedQuotes market reader.1 (.gather reader.2 market.runners) := by
  unfold marketLines marketReader
  dsimp only
  split
  · cases homeAway.get? market.eventId with
    | none => rfl
    | some teams =>
      simp only [asianHandicapQuotes, Option.bind_some]
      split <;> rfl
  split
  · rfl
  · cases overUnderLine (CaseMaps.upper (strip market.marketType)) <;> rfl

/-- The line of a market that is priced on both sides, if it is. -/
def pairAt (market : MarketCatalogue) (perRunner : LineBook) (kind : LineKind) (sides : Sides)
    (line : ℚ) : Option LinePair :=
  if !kind.admits line then none
  else do
    let first ← sides.first.get? line
    let second ← sides.second.get? (kind.opposite line)
    let detail ← kind.detail line
    some ⟨market, perRunner, kind, detail, line, first, second⟩

theorem pairedQuotes_eq (market : MarketCatalogue) (perRunner : LineBook) (kind : LineKind)
    (sides : Sides) :
    pairedQuotes market kind sides =
      ((sortedBy id sides.first.keys).filterMap (pairAt market perRunner kind sides)).flatMap
        LinePair.quotes := by
  rw [pairedQuotes, List.filterMap_eq_flatMap_toList, List.flatMap_assoc]
  refine List.flatMap_congr fun line _ => ?_
  unfold pairAt
  split
  · rfl
  · cases sides.first.get? line <;> cases sides.second.get? (kind.opposite line) <;>
      cases kind.detail line <;> rfl

/-- What the catalogue, the books and the names offer as a pair. -/
structure LinePair.Offered (catalogue : List MarketCatalogue) (books : Dict Str LineBook)
    (homeAway : Dict Str (Str × Str)) (p : LinePair) : Prop where
  listed : p.market ∈ catalogue
  book : books.get? p.market.marketId = some p.perRunner
  priced : ∃ read, marketReader homeAway p.market p.perRunner = some (p.kind, read) ∧
    (Sides.gather read p.market.runners).first.get? p.line = some p.first ∧
      (Sides.gather read p.market.runners).second.get? (p.kind.opposite p.line) = some p.second
  admitted : p.kind.admits p.line
  detailed : p.kind.detail p.line = some p.detail

/-- The pairs of one market. -/
def marketPairs (homeAway : Dict Str (Str × Str)) (market : MarketCatalogue)
    (perRunner : LineBook) : List LinePair :=
  (marketReader homeAway market perRunner).elim [] fun reader =>
    let sides := Sides.gather reader.2 market.runners
    (sortedBy id sides.first.keys).filterMap (pairAt market perRunner reader.1 sides)

/-- The pairs of a catalogue with its books. -/
def linePairs (catalogue : List MarketCatalogue) (books : Dict Str LineBook)
    (homeAway : Dict Str (Str × Str)) :
    List LinePair :=
  catalogue.flatMap fun market =>
    ((books.get? market.marketId).map (marketPairs homeAway market)).getD []

omit [CaseMaps] in
theorem gather_nil {read : Runner → Option (LineSide × ℚ × BackLevel)} {runners : List Runner}
    (nothing : ∀ r, read r = none) : Sides.gather read runners = {} := by
  rw [Sides.gather, List.filterMap_eq_nil_iff.mpr fun r _ => nothing r]
  rfl

theorem marketLines_quotes (homeAway : Dict Str (Str × Str)) (market : MarketCatalogue)
    (perRunner : LineBook) :
    marketLines homeAway market perRunner =
      (marketPairs homeAway market perRunner).flatMap LinePair.quotes := by
  rw [marketLines_eq, marketPairs]
  cases marketReader homeAway market perRunner with
  | none => rfl
  | some reader => exact pairedQuotes_eq market perRunner reader.1 _

/-- A book without prices gives no pairs. -/
theorem marketPairs_empty (homeAway : Dict Str (Str × Str)) (market : MarketCatalogue)
    {perRunner : LineBook} (priceless : perRunner.entries = []) :
      marketPairs homeAway market perRunner = [] := by
  have unpriced (key : Int × ℚ) : perRunner.get? key = none := by
    unfold Dict.get?
    rw [priceless]
    rfl
  have handicaps (teams : Str × Str) (r : Runner) : readHandicap teams perRunner r = none := by
    cases handicap : r.handicap <;> simp [readHandicap, handicap, unpriced]
  have totals (fixedLine : Option ℚ) (r : Runner) : readTotal fixedLine perRunner r = none := by
    simp [readTotal, unpriced]
  have empty (kind : LineKind)
      {read : Runner → Option (LineSide × ℚ × BackLevel)} (nothing : ∀ r, read r = none) :
      (sortedBy id (Sides.gather read market.runners).first.keys).filterMap
        (pairAt market perRunner kind (.gather read market.runners)) = [] := by
    rw [gather_nil nothing]
    rfl
  cases reader : marketReader homeAway market perRunner with
  | none => rw [marketPairs, reader]; rfl
  | some found =>
    rw [marketPairs, reader]
    refine empty found.1 ?_
    unfold marketReader at reader
    dsimp only at reader
    split at reader
    · obtain ⟨teams, -, reader⟩ := Option.bind_eq_some_iff.mp reader
      split at reader
      · cases reader
      · cases reader
        exact handicaps teams
    split at reader
    · cases reader
      exact totals none
    · obtain ⟨line, -, rfl⟩ := Option.map_eq_some_iff.mp reader
      exact totals (some line)

theorem joinExtendedLines_eq (catalogue : List MarketCatalogue) (books : Dict Str LineBook)
    (homeAway : Dict Str (Str × Str)) :
    joinExtendedLines catalogue books homeAway =
      (linePairs catalogue books homeAway).flatMap LinePair.quotes := by
  rw [joinExtendedLines, linePairs, List.flatMap_assoc]
  refine List.flatMap_congr fun market _ => ?_
  cases books.get? market.marketId with
  | none => rfl
  | some perRunner =>
    simp only [Option.map_some, Option.getD_some]
    split
    · rename_i priceless
      rw [marketPairs_empty homeAway market priceless]
      rfl
    · exact marketLines_quotes homeAway market perRunner

theorem pairAt_eq_some {market : MarketCatalogue} {perRunner : LineBook} {kind : LineKind}
    {sides : Sides} {line : ℚ} {p : LinePair} :
      pairAt market perRunner kind sides line = some p ↔
      kind.admits line ∧ sides.first.get? line = some p.first ∧ sides.second.get?
        (kind.opposite line) = some p.second ∧
        kind.detail line = some p.detail ∧ p.market = market ∧ p.perRunner = perRunner ∧
        p.kind = kind ∧ p.line = line := by
  unfold pairAt
  cases admitted : kind.admits line with
  | false => simp
  | true =>
    simp only [Bool.not_true, Bool.false_eq_true, if_false, Option.bind_eq_bind,
      Option.bind_eq_some_iff, true_and]
    constructor
    · rintro ⟨first, firstAt, second, secondAt, detail, detailed, same⟩
      cases same
      exact ⟨firstAt, secondAt, detailed, rfl, rfl, rfl, rfl⟩
    · rintro ⟨firstAt, secondAt, detailed, rfl, rfl, rfl, rfl⟩
      exact ⟨_, firstAt, _, secondAt, _, detailed, rfl⟩

theorem mem_linePairs {catalogue : List MarketCatalogue} {books : Dict Str LineBook}
    {homeAway : Dict Str (Str × Str)} {p : LinePair} : p ∈ linePairs catalogue books homeAway ↔
      p.Offered catalogue books homeAway := by
  unfold linePairs
  rw [List.mem_flatMap]
  constructor
  · rintro ⟨market, listed, inside⟩
    cases book : books.get? market.marketId with
    | none =>
      rw [book] at inside
      cases inside
    | some perRunner =>
      rw [book, Option.map_some, Option.getD_some, marketPairs] at inside
      cases reader : marketReader homeAway market perRunner with
      | none =>
        rw [reader] at inside
        cases inside
      | some found =>
        rw [reader] at inside
        obtain ⟨line, -, pair⟩ := List.mem_filterMap.mp inside
        obtain ⟨admitted, first, second, detailed, rfl, rfl, kind, rfl⟩ :=
          pairAt_eq_some.mp pair
        rw [← kind] at admitted second detailed
        exact ⟨listed, book, ⟨found.2, by rw [reader, kind], first, second⟩, admitted,
          detailed⟩
  · rintro ⟨listed, book, ⟨read, reader, first, second⟩, admitted, detailed⟩
    refine ⟨p.market, listed, ?_⟩
    rw [book, Option.map_some, Option.getD_some, marketPairs, reader]
    refine List.mem_filterMap.mpr ⟨p.line, mem_sortedBy.mpr ?_, ?_⟩
    · exact Dict.mem_keys_iff.mpr (by rw [first]; rfl)
    · exact pairAt_eq_some.mpr ⟨admitted, first, second, detailed, rfl, rfl, rfl, rfl⟩

end Quotes

/-! Legs. -/

theorem lineKey_neg_lineKey (x : ℚ) : lineKey (-lineKey x) = -lineKey x := by
  rw [lineKey, lineKey, roundTo, roundTo, neg_mul,
    div_mul_cancel₀ _ (by norm_num), ← Int.cast_neg, roundHalfEven_intCast, Int.cast_neg,
      neg_div]

namespace LinePair

/-- The line of one side; the away side of a handicap has the negated home line. -/
def sideLine (p : LinePair) : LineSide → ℚ
  | .first => p.line
  | .second =>
    match p.kind with
    | .handicap => -p.line
    | .total => p.line

variable [CaseMaps]

/-- The price of a side is that of this runner in the book: the home or away runner at the line of
its side, or a runner over or under the goals. -/
def Leg (homeAway : Dict Str (Str × Str)) (p : LinePair) (side : LineSide) (r : Runner) : Prop :=
  match p.kind with
  | .handicap => ∃ teams h, homeAway.get? p.market.eventId = some teams ∧
      handicapSide teams r.name = some side ∧ r.handicap = some h ∧
      lineKey h = p.sideLine side ∧
      p.perRunner.get? (r.selectionId, p.sideLine side) = some (p.level side)
  | .total => totalSide r.name = some side ∧
      p.perRunner.get? (r.selectionId, lineKey (r.handicap.getD 0)) = some (p.level side) ∧
        (lineKey (r.handicap.getD 0) = p.line ∨
          (overUnderLine (CaseMaps.upper (strip p.market.marketType))).map lineKey = some p.line)

theorem leg_of_read {homeAway : Dict Str (Str × Str)} {p : LinePair} {side : LineSide} {r : Runner}
    {read : Runner → Option (LineSide × ℚ × BackLevel)}
    (reader : marketReader homeAway p.market p.perRunner = some (p.kind, read))
    (found : read r = some (side, p.sideLine side, p.level side)) : p.Leg homeAway side r := by
  unfold marketReader at reader
  dsimp only at reader
  split at reader
  · obtain ⟨teams, known, reader⟩ := Option.bind_eq_some_iff.mp reader
    split at reader
    · cases reader
    · obtain ⟨kind, rfl⟩ := Prod.mk.inj (Option.some.inj reader)
      simp only [readHandicap, Option.bind_eq_bind, Option.bind_eq_some_iff, Option.some.injEq,
        Prod.mk.injEq] at found
      obtain ⟨h, handicap, level, priced, named, sided, rfl, lined, rfl⟩ := found
      rw [Leg, ← kind]
      exact ⟨teams, h, known, sided, handicap, lined, lined ▸ priced⟩
  split at reader
  · obtain ⟨kind, rfl⟩ := Prod.mk.inj (Option.some.inj reader)
    simp only [readTotal, Option.bind_eq_bind, Option.bind_eq_some_iff, Option.some.injEq,
      Prod.mk.injEq] at found
    obtain ⟨level, priced, named, sided, rfl, lined, rfl⟩ := found
    have own : p.sideLine named = p.line := by cases named <;> simp [sideLine, ← kind]
    rw [Leg, ← kind]
    exact ⟨sided, priced, .inl (lined.trans own)⟩
  · obtain ⟨line, fixed, reader⟩ := Option.map_eq_some_iff.mp reader
    obtain ⟨kind, rfl⟩ := Prod.mk.inj reader
    simp only [readTotal, Option.bind_eq_bind, Option.bind_eq_some_iff, Option.some.injEq,
      Prod.mk.injEq] at found
    obtain ⟨level, priced, named, sided, rfl, lined, rfl⟩ := found
    have own : p.sideLine named = p.line := by cases named <;> simp [sideLine, ← kind]
    rw [Leg, ← kind, fixed]
    exact ⟨sided, priced, .inr (congrArg some (lined.trans own))⟩

theorem lineKey_of_read {homeAway : Dict Str (Str × Str)} {market : MarketCatalogue}
    {perRunner : LineBook} {kind : LineKind}
    {read : Runner → Option (LineSide × ℚ × BackLevel)} {r : Runner} {side : LineSide}
    {line : ℚ} {level : BackLevel}
    (reader : marketReader homeAway market perRunner = some (kind, read))
    (found : read r = some (side, line, level)) : ∃ x, line = lineKey x := by
  unfold marketReader at reader
  dsimp only at reader
  split at reader
  · obtain ⟨teams, known, reader⟩ := Option.bind_eq_some_iff.mp reader
    split at reader
    · cases reader
    · cases reader
      simp only [readHandicap, Option.bind_eq_bind, Option.bind_eq_some_iff, Option.some.injEq,
        Prod.mk.injEq] at found
      obtain ⟨h, -, -, -, -, -, -, rfl, -⟩ := found
      exact ⟨h, rfl⟩
  split at reader
  · cases reader
    simp only [readTotal, Option.bind_eq_bind, Option.bind_eq_some_iff, Option.some.injEq,
      Prod.mk.injEq] at found
    obtain ⟨-, -, -, -, -, rfl, -⟩ := found
    exact ⟨_, rfl⟩
  · obtain ⟨fixed, -, reader⟩ := Option.map_eq_some_iff.mp reader
    cases reader
    simp only [readTotal, Option.bind_eq_bind, Option.bind_eq_some_iff, Option.some.injEq,
      Prod.mk.injEq] at found
    obtain ⟨-, -, -, -, -, rfl, -⟩ := found
    exact ⟨_, rfl⟩

/-- Both sides of an offered pair are legs out of its one book. -/
theorem Offered.legs {catalogue : List MarketCatalogue} {books : Dict Str LineBook}
    {homeAway : Dict Str (Str × Str)} {p : LinePair}
    (offered : p.Offered catalogue books homeAway) (side : LineSide) :
    ∃ r ∈ p.market.runners, p.Leg homeAway side r := by
  obtain ⟨read, reader, first, second⟩ := offered.priced
  obtain ⟨r, listed, found⟩ := @Sides.mem_of_get?_gather read p.market.runners .first _ _ first
  obtain ⟨x, keyed⟩ := lineKey_of_read reader found
  have opposite : p.kind.opposite p.line = p.sideLine .second := by
    unfold LineKind.opposite sideLine
    cases p.kind with
    | handicap => rw [keyed, lineKey_neg_lineKey]
    | total => rfl
  cases side with
  | first => exact ⟨r, listed, leg_of_read reader found⟩
  | second =>
    rw [opposite] at second
    obtain ⟨r', listed', found'⟩ :=
      @Sides.mem_of_get?_gather read p.market.runners .second _ _ second
    exact ⟨r', listed', leg_of_read reader found'⟩

end LinePair
end SharpEvPicks.Ingestion
