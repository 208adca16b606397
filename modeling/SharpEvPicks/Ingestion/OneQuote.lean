import SharpEvPicks.Ingestion.EqualLines
import SharpEvPicks.Ingestion.LinePairs
import SharpEvPicks.Ingestion.RightSide

/-! One price for an outcome in the report of a cycle, and both sides of every line. -/
namespace SharpEvPicks.Ingestion

open Python Pipeline Resolution Transition

/-! Printed lines. -/

theorem formatG_head {x : ℚ} (pos : 0 < x) : ∃ d rest, d.isDigit ∧ formatG x = d :: rest := by
  rw [formatG, if_neg pos.ne']
  dsimp only
  split
  · exact fixedText_head _ _
  · obtain ⟨d, rest, digit, same⟩ := fixedText_head 5 ((sixDigits x).2 / 10 ^ 5)
    exact ⟨d, rest ++ 'e' :: exponentText (sixDigits x).1, digit, by rw [same]; rfl⟩

theorem pieces_digit {d : Char} (digit : d.isDigit) (rest : Str) : pieces (d :: rest) ≠ [] := by
  intro none
  obtain ⟨rest', some⟩ := slug_digit digit rest
  rw [slug, none] at some
  cases some

theorem spellSigns_digit {d : Char} (digit : d.isDigit) (rest : Str) :
    spellSigns (d :: rest) = d :: spellSigns rest := by
  have plus : d ≠ '+' := fun same => by rw [same] at digit; cases digit
  have minus : d ≠ '-' := fun same => by rw [same] at digit; cases digit
  rw [spellSigns, List.flatMap_cons, if_neg plus, if_neg minus]
  rfl

theorem signedLineToken_eq {line : ℚ} (broken : line ≠ 0) :
    signedLineToken line = signToken (line < 0) ++ slug (spellSigns (formatG |line|)) := by
  obtain ⟨d, rest, digit, same⟩ := formatG_head (abs_pos.mpr broken)
  have some : pieces (spellSigns (formatG |line|)) ≠ [] := by
    rw [same, spellSigns_digit digit]
    exact pieces_digit digit _
  rw [signedLineToken, formatPlus]
  split
  · rename_i below
    rw [← abs_of_neg below, slug_minus some, signToken, if_pos (by simpa using below)]
  · rename_i above
    rw [← abs_of_nonneg (not_lt.mp above)] at *
    rw [slug_plus (by rwa [abs_abs] at some), signToken, if_neg (by simp), abs_abs]

/-- The detail of a handicap shows which side gives the start. -/
theorem spreadDetail_sign [Unicode] {line line' : ℚ} (broken : line ≠ 0) (broken' : line' ≠ 0)
    (same : spreadDetail line = spreadDetail line') : line < 0 ↔ line' < 0 := by
  have clean (line : ℚ) : ∀ c ∈ signToken (line < 0) ++ slug (spellSigns (formatG |line|)),
      Clean c :=
    clean_append (clean_signToken _) (clean_slug (clean_spellSigns fun _ => clean_formatG))
  rw [spreadDetail, spreadDetail, signedLineToken_eq broken, signedLineToken_eq broken',
    canonical_spreads (clean line), canonical_spreads (clean line')] at same
  have tokens := List.append_cancel_left (Option.some.inj same)
  simpa using (signToken_inj tokens).1

theorem formatPlus_sign {x y : ℚ} (same : formatPlus x = formatPlus y) : x < 0 ↔ y < 0 := by
  unfold formatPlus at same
  by_cases left : x < 0 <;> by_cases right : y < 0 <;> simp [left, right] at same ⊢

/-- Two handicaps that print alike for one side print alike for the other. -/
theorem formatPlus_neg {x y : ℚ} (broken : x ≠ 0) (broken' : y ≠ 0)
    (same : formatPlus (-x) = formatPlus (-y)) : formatPlus x = formatPlus y := by
  have signs := formatPlus_sign same
  rw [neg_lt_zero, neg_lt_zero] at signs
  unfold formatPlus at same ⊢
  obtain below | above := broken.lt_or_gt
  · have below' : y < 0 :=
      broken'.lt_or_gt.resolve_right fun above => below.not_gt (signs.mpr above)
    rw [if_neg (by linarith), if_neg (by linarith)] at same
    rw [if_pos below, if_pos below', (List.cons.inj same).2]
  · have above' := signs.mp above
    rw [if_pos (by linarith), if_pos (by linarith), neg_neg, neg_neg] at same
    rw [if_neg above.not_gt, if_neg above'.not_gt, (List.cons.inj same).2]

/-- A line never prints like the negation of one with its sign. -/
theorem formatPlus_cross {x y : ℚ} (broken : y ≠ 0) (signs : x < 0 ↔ y < 0) :
    formatPlus x ≠ formatPlus (-y) := by
  intro same
  have crossed := signs.symm.trans (formatPlus_sign same)
  rw [neg_lt_zero] at crossed
  obtain below | above := broken.lt_or_gt
  · exact below.not_gt (crossed.mp below)
  · exact above.not_gt (crossed.mpr above)

theorem blank_inj {name name' text text' : Str} (solid : ' ' ∉ text) (solid' : ' ' ∉ text')
    (same : name ++ ' ' :: text = name' ++ ' ' :: text') : name = name' ∧ text = text' := by
  have parts := congrArg (rpartition ' ') same
  rw [rpartition_append ' ' name text solid, rpartition_append ' ' name' text' solid'] at parts
  exact Prod.mk.inj parts

theorem LineKind.ne_zero_of_admits {kind : LineKind} {line : ℚ} (admitted : kind.admits line) :
    line ≠ 0 := by
  rintro rfl
  have whole : roundHalfEven 0 = 0 := roundHalfEven_intCast 0
  have level : isFractionalLine 0 = false := by
    rw [isFractionalLine, whole]
    decide +kernel
  cases kind <;> simp [admits, level] at admitted

theorem blank_notMem_formatPlus (x : ℚ) : ' ' ∉ formatPlus x :=
  fun inside => (formatPlus_number inside).ne_blank rfl

/-! What the lines of a report are. -/

/-- The words of a side in the matched event. -/
def sideName (candidate : EventCandidate) : LineKind → LineSide → Str
  | .handicap, .first => candidate.home
  | .handicap, .second => candidate.away
  | .total, .first => "Over".toList
  | .total, .second => "Under".toList

/-- How the line of a kind is printed. -/
def LineKind.text (kind : LineKind) (line : ℚ) : Str :=
  match kind with
  | .handicap => formatPlus line
  | .total => formatSigned line

namespace LinePair

/-- A side of a pair as it is sent for an event. -/
def selection (p : LinePair) (candidate : EventCandidate) (side : LineSide) : Str :=
  Capture.lineSelection candidate (p.quote side)

theorem detail_of_text [CaseMaps] {catalogue catalogue' : List MarketCatalogue}
    {books books' : Dict Str LineBook} {homeAway homeAway' : Dict Str (Str × Str)}
    {p q : LinePair} (offered : p.Offered catalogue books homeAway)
    (offered' : q.Offered catalogue' books' homeAway') (kinds : p.kind = q.kind)
    (texts : p.kind.text p.line = q.kind.text q.line) : p.detail = q.detail := by
  have detailed := offered.detailed
  have detailed' := offered'.detailed
  have admitted := offered.admitted
  have admitted' := offered'.admitted
  rw [← kinds] at detailed' texts admitted'
  suffices same : p.kind.detail p.line = p.kind.detail q.line by
    rw [detailed, detailed'] at same
    exact Option.some.inj same
  cases kind : p.kind with
  | handicap =>
    rw [kind] at texts
    have texts : formatPlus p.line = formatPlus q.line := texts
    simp only [LineKind.detail, spreadDetail, signedLineToken, texts]
  | total =>
    rw [kind] at texts admitted admitted'
    simp only [LineKind.admits, Bool.and_eq_true, decide_eq_true_eq] at admitted admitted'
    have texts : formatSigned p.line = formatSigned q.line := texts
    rw [formatSigned, formatSigned, if_neg admitted.1.not_gt, if_neg admitted'.1.not_gt] at texts
    simp only [LineKind.detail, totalsDetail, unsignedLineToken, abs_of_pos admitted.1,
      abs_of_pos admitted'.1, texts]

theorem selection_of_text [CaseMaps] {catalogue catalogue' : List MarketCatalogue}
    {books books' : Dict Str LineBook} {homeAway homeAway' : Dict Str (Str × Str)}
    {p q : LinePair} (offered : p.Offered catalogue books homeAway)
    (offered' : q.Offered catalogue' books' homeAway') (kinds : p.kind = q.kind)
    (texts : p.kind.text p.line = q.kind.text q.line) {candidate candidate' : EventCandidate}
    {side : LineSide} (names : sideName candidate p.kind side = sideName candidate' q.kind side) :
    p.selection candidate side = q.selection candidate' side := by
  have broken := neg_ne_zero.mpr (LineKind.ne_zero_of_admits offered.admitted)
  have broken' := neg_ne_zero.mpr (LineKind.ne_zero_of_admits offered'.admitted)
  unfold selection Capture.lineSelection
  have kept : (q.quote side).kind = p.kind := kinds.symm
  have own : (p.quote side).kind = p.kind := rfl
  rw [kept, own]
  rw [← kinds] at texts names
  cases kind : p.kind with
  | handicap =>
    rw [kind] at texts names
    have texts : formatPlus p.line = formatPlus q.line := texts
    cases side with
    | first =>
      have names : candidate.home = candidate'.home := names
      simp only [quote, texts, names]
    | second =>
      have names : candidate.away = candidate'.away := names
      have crossed := formatPlus_neg broken broken' (by rwa [neg_neg, neg_neg])
      simp only [quote, crossed, names]
  | total =>
    rw [kind] at texts
    have texts : formatSigned p.line = formatSigned q.line := texts
    cases side <;> simp only [quote, texts]

theorem text_of_selection [CaseMaps] {catalogue catalogue' : List MarketCatalogue}
    {books books' : Dict Str LineBook} {homeAway homeAway' : Dict Str (Str × Str)}
    {p q : LinePair} (offered : p.Offered catalogue books homeAway)
    (offered' : q.Offered catalogue' books' homeAway') (kinds : p.kind = q.kind)
    (details : p.detail = q.detail) {candidate candidate' : EventCandidate}
    {side side' : LineSide} (same : p.selection candidate side = q.selection candidate' side') :
    side = side' ∧ sideName candidate p.kind side = sideName candidate' q.kind side ∧
      p.kind.text p.line = q.kind.text q.line := by
  have broken := LineKind.ne_zero_of_admits offered.admitted
  have broken' := LineKind.ne_zero_of_admits offered'.admitted
  have detailed := offered.detailed
  have detailed' := offered'.detailed
  rw [details] at detailed
  unfold selection Capture.lineSelection at same
  rw [← kinds] at detailed' ⊢
  have kept : (q.quote side').kind = p.kind := kinds.symm
  have own : (p.quote side).kind = p.kind := rfl
  rw [kept, own] at same
  cases kind : p.kind with
  | handicap =>
    rw [kind] at same detailed detailed'
    have signs := spreadDetail_sign broken broken' (detailed.trans detailed'.symm)
    cases side with
    | first =>
      cases side' with
      | first =>
        obtain ⟨names, texts⟩ :=
          blank_inj (blank_notMem_formatPlus _) (blank_notMem_formatPlus _) same
        exact ⟨rfl, names, texts⟩
      | second =>
        obtain ⟨-, texts⟩ :=
          blank_inj (blank_notMem_formatPlus _) (blank_notMem_formatPlus _) same
        exact absurd texts (formatPlus_cross broken' signs)
    | second =>
      cases side' with
      | first =>
        obtain ⟨-, texts⟩ :=
          blank_inj (blank_notMem_formatPlus _) (blank_notMem_formatPlus _) same
        exact absurd texts.symm (formatPlus_cross broken signs.symm)
      | second =>
        obtain ⟨names, texts⟩ :=
          blank_inj (blank_notMem_formatPlus _) (blank_notMem_formatPlus _) same
        exact ⟨rfl, names, formatPlus_neg broken broken' texts⟩
  | total =>
    rw [kind] at same
    cases side with
    | first =>
      cases side' with
      | first => exact ⟨rfl, rfl, List.append_cancel_left same⟩
      | second => cases same
    | second =>
      cases side' with
      | first => cases same
      | second => exact ⟨rfl, rfl, List.append_cancel_left same⟩

end LinePair

namespace Capture
section
variable [Readers] [CaseMaps] (c : Capture) (cycle : ApiCycle) (odds : List MatchOdds)
  (hits : List Hit)

/-- A pair that the answers of a cycle offer. -/
structure Feeds (p : LinePair) : Prop where
  wanted : c.extendedMarkets
  asked : matchedEventIds hits ≠ []
  offered : ∃ catalogue payload books, cycle.extended = some (catalogue, payload) ∧
    parseMarketBookBacksByHandicap payload = .ok books ∧
    p.Offered catalogue books (homeAwayOf odds)

/-- The row of one side of a pair. -/
def sideRow (candidate : EventCandidate) (now : Int) (p : LinePair) (side : LineSide) : Snapshot :=
  c.row candidate.ref p.kind.market (some p.detail) (p.selection candidate side) (p.level side) now

/-- Both sides of a pair are legs out of one open book that is not in play. -/
structure Booked (p : LinePair) : Prop where
  book : ∃ catalogue payload, cycle.extended = some (catalogue, payload) ∧
    p.market ∈ catalogue ∧ ReadFrom lineRunnerKey payload p.market.marketId p.perRunner
  legs : ∀ side, ∃ r ∈ p.market.runners, p.Leg (homeAwayOf odds) side r

/-- No outcome has two prices, and the lines come as two sides out of one book. -/
structure CoherentQuotes (report : ShadowReport) : Prop where
  one : ∀ s ∈ report.snapshots, ∀ t ∈ report.snapshots, s.marketKey = t.marketKey →
    s.selection = t.selection → s.decimalOdds = t.decimalOdds
  paired : ∃ now, ∃ pairs : List (Hit × LinePair),
    (∀ x ∈ pairs, x.1 ∈ hits ∧ x.2.market.eventId = x.1.1.eventId ∧
      Booked cycle odds x.2) ∧ report.snapshots.filter (fun s => s.market ≠ .h2h) =
        pairs.flatMap fun x => [c.sideRow x.1.2 now x.2 .first, c.sideRow x.1.2 now x.2 .second]

/-- Whatever feeds one outcome of a canonical event, it has one price: the markets that are matched
to the event, its participants, and the books of its lines that print alike. -/
structure AgreeingFeeds : Prop where
  roles : ∀ x ∈ hits, ∀ y ∈ hits, x.2.ref = y.2.ref → ∀ role role',
    participant x.2 role = participant y.2 role' →
      ∀ price price', x.1.price role = some price →
      y.1.price role' = some price' → price = price'
  lines : ∀ x ∈ hits, ∀ y ∈ hits, x.2.ref = y.2.ref → liveAt cycle.extObservedAt x →
    liveAt cycle.extObservedAt y →
    ∀ p q, c.Feeds cycle odds hits p → c.Feeds cycle odds hits q →
      p.market.eventId = x.1.eventId → q.market.eventId = y.1.eventId → p.kind = q.kind →
        p.kind.text p.line = q.kind.text q.line →
        ∀ side, sideName x.2 p.kind side = sideName y.2 q.kind side →
          (p.level side).price = (q.level side).price

end

section
variable [Readers] [CaseMaps] {c : Capture} {cycle : ApiCycle} {odds : List MatchOdds}
  {hits : List Hit}

/-- The quotes that are fetched are those of the pairs that are offered. -/
theorem quotes_of_fetch {quotes : List LineQuote} {failed : Bool}
    (read : c.fetchExtendedQuotes cycle odds (matchedEventIds hits) = .ok (quotes, failed)) :
    ∃ pairs : List LinePair, (∀ p, p ∈ pairs ↔ c.Feeds cycle odds hits p) ∧
      quotes = pairs.flatMap LinePair.quotes := by
  unfold fetchExtendedQuotes at read
  split at read
  · rename_i idle
    cases read
    refine ⟨[], fun p => ?_, rfl⟩
    simp only [List.not_mem_nil, false_iff]
    intro feeds
    obtain off | nobody := idle
    · cases off.symm.trans feeds.wanted
    · exact feeds.asked nobody
  · rename_i busy
    simp only [not_or, Bool.not_eq_false] at busy
    split at read
    · rename_i failed
      cases read
      refine ⟨[], fun p => ?_, rfl⟩
      simp only [List.not_mem_nil, false_iff]
      rintro ⟨-, -, catalogue, payload, books, answered, -⟩
      cases failed.symm.trans answered
    · rename_i payload bare
      cases read
      refine ⟨[], fun p => ?_, rfl⟩
      simp only [List.not_mem_nil, false_iff]
      rintro ⟨-, -, catalogue, payload, books, answered, -, offered⟩
      cases bare.symm.trans answered
      cases offered.listed
    · rename_i catalogue payload _ answered
      obtain ⟨books, parsed, read⟩ := bind_ok.mp read
      cases read
      refine ⟨linePairs catalogue books (homeAwayOf odds), fun p => ?_,
        joinExtendedLines_eq _ _ _⟩
      rw [mem_linePairs]
      constructor
      · intro offered
        exact ⟨busy.1, busy.2, catalogue, payload, books, answered, parsed, offered⟩
      · rintro ⟨-, -, catalogue', payload', books', answered', parsed', offered⟩
        cases answered.symm.trans answered'
        cases parsed.symm.trans parsed'
        exact offered

theorem Feeds.booked {p : LinePair} (feeds : c.Feeds cycle odds hits p) : Booked cycle odds p := by
  obtain ⟨-, -, catalogue, payload, books, answered, parsed, offered⟩ := feeds
  exact ⟨⟨catalogue, payload, answered, offered.listed,
    readFrom_of_parseBooks parsed offered.book⟩, offered.legs⟩

omit [Readers] [CaseMaps] in
theorem lineRow_quote {candidate : EventCandidate} {now : Int}
    (named : candidate.home ≠ [] ∧ candidate.away ≠ []) (p : LinePair) (side : LineSide) :
    c.lineRow candidate now (p.quote side) = some (c.sideRow candidate now p side) := by
  rw [lineRow, if_neg (by simp [named])]
  rfl

omit [Readers] [CaseMaps] in
/-- The rows of the lines of a hit are those of the pairs of its event. -/
theorem hitLines_eq {pairs : List LinePair} {now : Int} {hit : Hit}
    (named : hit.2.home ≠ [] ∧ hit.2.away ≠ []) :
    c.hitLines (pairs.flatMap LinePair.quotes) now hit =
      (if liveAt now hit then pairs.filter fun p => p.market.eventId = hit.1.eventId
        else []).flatMap fun p =>
        [c.sideRow hit.2 now p .first, c.sideRow hit.2 now p .second] := by
  unfold hitLines extendedSnapshotsFor
  split
  · induction pairs with
    | nil => rfl
    | cons p pairs ih =>
      have event (side : LineSide) : (p.quote side).eventId = p.market.eventId := rfl
      rw [List.flatMap_cons, List.filter_append, List.filterMap_append, ih, LinePair.quotes]
      by_cases own : p.market.eventId = hit.1.eventId
      · simp [event, own, lineRow_quote named]
      · simp [event, own]
  · rfl

omit [Readers] [CaseMaps] in
theorem quotes_ne_nil {pairs : List LinePair} {p : LinePair} (listed : p ∈ pairs) :
    pairs.flatMap LinePair.quotes ≠ [] := by
  intro none
  cases List.flatMap_eq_nil_iff.mp none p listed

variable {candidates : List EventCandidate} {report : ShadowReport} {verdicts : List AnchorVerdict}

omit [Readers] in
theorem named_of_hit {now : Int} {x : Hit} (inside : x ∈ c.hits candidates now odds) :
    x.2.home ≠ [] ∧ x.2.away ≠ [] := by
  obtain ⟨market, -, b, kickoff, takes, rfl⟩ := taken_of_hit inside
  exact takes.named

/-- The rows of a report: those of the roles of the hits, and both sides of the pairs of their
events. -/
theorem mem_report (fetched : fetchMatchOdds cycle.catalogue cycle.books = .ok odds)
    (ran : c.captureOnce cycle candidates = .ok (report, verdicts))
    (matched : hits = c.hits candidates cycle.observedAt odds) {s : Snapshot} :
    s ∈ report.snapshots ↔
      (∃ x ∈ hits, ∃ role, c.rowFor x cycle.observedAt role = some s) ∨
      ∃ x ∈ hits, liveAt cycle.extObservedAt x ∧ ∃ p, c.Feeds cycle odds hits p ∧
        p.market.eventId = x.1.eventId ∧
        ∃ side, s = c.sideRow x.2 cycle.extObservedAt p side := by
  obtain ⟨quotes, failed, read, rows, -⟩ := report_of_captureOnce fetched ran
  rw [← matched] at read rows
  obtain ⟨pairs, feeds, rfl⟩ := quotes_of_fetch read
  rw [rows, List.mem_append, List.mem_flatMap, List.mem_flatMap]
  refine or_congr ⟨?_, ?_⟩ ⟨?_, ?_⟩
  · rintro ⟨x, inside, emitted⟩
    obtain ⟨role, -, emitted⟩ := List.mem_filterMap.mp emitted
    exact ⟨x, inside, role, emitted⟩
  · rintro ⟨x, inside, role, emitted⟩
    exact ⟨x, inside, List.mem_filterMap.mpr ⟨role, by cases role <;> decide, emitted⟩⟩
  · rintro ⟨x, inside, emitted⟩
    rw [hitLines_eq (named_of_hit (matched ▸ inside))] at emitted
    obtain ⟨p, offered, sides⟩ := List.mem_flatMap.mp emitted
    obtain ⟨live, offered⟩ := List.mem_ite_nil_right.mp offered
    obtain ⟨listed, own⟩ := List.mem_filter.mp offered
    rw [if_neg (quotes_ne_nil listed)] at live sides
    refine ⟨x, inside, live, p, (feeds p).mp listed, by simpa using own, ?_⟩
    simp only [List.mem_cons, List.not_mem_nil, or_false] at sides
    obtain rfl | rfl := sides
    · exact ⟨.first, rfl⟩
    · exact ⟨.second, rfl⟩
  · rintro ⟨x, inside, live, p, fed, own, side, rfl⟩
    have listed := (feeds p).mpr fed
    refine ⟨x, inside, ?_⟩
    rw [hitLines_eq (named_of_hit (matched ▸ inside)), if_neg (quotes_ne_nil listed), if_pos live]
    refine List.mem_flatMap.mpr ⟨p, List.mem_filter.mpr ⟨listed, by simpa using own⟩, ?_⟩
    cases side <;> simp

omit [Readers] [CaseMaps] in
theorem rowFor_eq_some {x : Hit} {now : Int} {role : Role} {s : Snapshot}
    (emitted : c.rowFor x now role = some s) :
    s.marketKey = (x.2.ref, .h2h, none) ∧ s.selection = participant x.2 role ∧
    x.1.price role = some s.decimalOdds := by
  unfold rowFor at emitted
  split at emitted
  · rename_i level priced
    split at emitted
    · cases emitted
    · cases emitted
      exact ⟨rfl, rfl, by rw [MatchOdds.price, priced]; rfl⟩
  · cases emitted

omit [Readers] in
theorem rowFor_of_price {now : Int} {x : Hit} (inside : x ∈ c.hits candidates now odds)
    {role : Role} {price : ℚ} (priced : x.1.price role = some price) :
      ∃ s, c.rowFor x now role = some s ∧ s.decimalOdds = price := by
  obtain ⟨level, back, rfl⟩ := Option.map_eq_some_iff.mp priced
  have named : participant x.2 role ≠ [] := by
    obtain ⟨home, away⟩ := named_of_hit inside
    cases role with
    | home => exact home
    | away => exact away
    | draw => exact List.cons_ne_nil _ _
  refine ⟨c.row x.2.ref .h2h none (participant x.2 role) level now, ?_, rfl⟩
  unfold rowFor
  simp only [back, if_neg named]

/-- The lines of a report are pairs out of open books. -/
theorem report_paired (fetched : fetchMatchOdds cycle.catalogue cycle.books = .ok odds)
    (ran : c.captureOnce cycle candidates = .ok (report, verdicts))
    (matched : hits = c.hits candidates cycle.observedAt odds) :
    ∃ now, ∃ pairs : List (Hit × LinePair),
      (∀ x ∈ pairs, x.1 ∈ hits ∧ x.2.market.eventId = x.1.1.eventId ∧
        Booked cycle odds x.2) ∧ report.snapshots.filter (fun s => s.market ≠ .h2h) =
          pairs.flatMap fun x =>
            [c.sideRow x.1.2 now x.2 .first, c.sideRow x.1.2 now x.2 .second] := by
  obtain ⟨quotes, failed, read, rows, -⟩ := report_of_captureOnce fetched ran
  rw [← matched] at read rows
  obtain ⟨pairs, feeds, rfl⟩ := quotes_of_fetch read
  generalize (if pairs.flatMap LinePair.quotes = [] then cycle.observedAt
    else cycle.extObservedAt) = now at rows
  refine ⟨now, hits.flatMap fun x =>
    (if liveAt now x then pairs.filter fun p => p.market.eventId = x.1.eventId
    else []).map (x, ·), ?_, ?_⟩
  · intro pair inside
    obtain ⟨x, listed, inside⟩ := List.mem_flatMap.mp inside
    obtain ⟨p, offered, rfl⟩ := List.mem_map.mp inside
    obtain ⟨known, own⟩ := List.mem_filter.mp (List.mem_ite_nil_right.mp offered).2
    exact ⟨listed, by simpa using own, ((feeds p).mp known).booked⟩
  · have odds_ : ∀ s ∈ hits.flatMap (fun hit => c.snapshotsFor hit cycle.observedAt),
        s.market = .h2h := by
      intro s inside
      obtain ⟨x, -, emitted⟩ := List.mem_flatMap.mp inside
      obtain ⟨role, -, emitted⟩ := List.mem_filterMap.mp emitted
      exact congrArg (·.2.1) (rowFor_eq_some emitted).1
    have lines : ∀ s ∈ hits.flatMap (c.hitLines (pairs.flatMap LinePair.quotes) now),
        s.market ≠ .h2h := by
      intro s inside
      obtain ⟨x, -, emitted⟩ := List.mem_flatMap.mp inside
      exact hitLines_market emitted
    rw [rows, List.filter_append, List.filter_eq_nil_iff.mpr (by simpa using odds_),
      List.nil_append, List.filter_eq_self.mpr (by simpa using lines), List.flatMap_assoc]
    refine List.flatMap_congr fun x inside => ?_
    rw [hitLines_eq (named_of_hit (matched ▸ inside)), List.flatMap_map]

/-- A report has one price for an outcome exactly where all that feeds the outcome agrees; its lines
are always pairs out of one open book. -/
theorem coherentQuotes_iff (fetched : fetchMatchOdds cycle.catalogue cycle.books = .ok odds)
    (ran : c.captureOnce cycle candidates = .ok (report, verdicts)) :
    c.CoherentQuotes cycle odds (c.hits candidates cycle.observedAt odds) report ↔
      c.AgreeingFeeds cycle odds (c.hits candidates cycle.observedAt odds) := by
  obtain ⟨hits, matched⟩ : ∃ hits, hits = c.hits candidates cycle.observedAt odds :=
    ⟨_, rfl⟩
  rw [← matched]
  have inside (s : Snapshot) := mem_report (s := s) fetched ran matched
  constructor
  · intro coherent
    constructor
    · intro x xIn y yIn refs role role' names price price' priced priced'
      obtain ⟨s, emitted, rfl⟩ := rowFor_of_price (matched ▸ xIn) priced
      obtain ⟨t, emitted', rfl⟩ := rowFor_of_price (matched ▸ yIn) priced'
      obtain ⟨key, selection, -⟩ := rowFor_eq_some emitted
      obtain ⟨key', selection', -⟩ := rowFor_eq_some emitted'
      exact coherent.one s ((inside s).mpr (.inl ⟨x, xIn, role, emitted⟩)) t
        ((inside t).mpr (.inl ⟨y, yIn, role', emitted'⟩)) (by rw [key, key', refs]) (by
          rw [selection, selection', names])
    · intro x xIn y yIn refs live live' p q fed fed' own own' kinds texts side names
      obtain ⟨-, -, _, _, _, -, -, offered⟩ := id fed
      obtain ⟨-, -, _, _, _, -, -, offered'⟩ := id fed'
      have details := LinePair.detail_of_text offered offered' kinds texts
      refine coherent.one _ ((inside _).mpr (.inr ⟨x, xIn, live, p, fed, own, side, rfl⟩)) _
        ((inside _).mpr (.inr ⟨y, yIn, live', q, fed', own', side, rfl⟩)) ?_ ?_
      · simp only [Snapshot.marketKey, sideRow, row, refs, kinds, details]
      · exact LinePair.selection_of_text offered offered' kinds texts names
  · intro agree
    refine ⟨?_, report_paired fetched ran matched⟩
    intro s sIn t tIn keys selections
    obtain ⟨x, xIn, role, emitted⟩ | ⟨x, xIn, live, p, fed, own, side, rfl⟩ :=
      (inside s).mp sIn
    · obtain ⟨key, selection, priced⟩ := rowFor_eq_some emitted
      obtain ⟨y, yIn, role', emitted'⟩ | ⟨y, yIn, live', q, fed', own', side', rfl⟩ :=
        (inside t).mp tIn
      · obtain ⟨key', selection', priced'⟩ := rowFor_eq_some emitted'
        rw [key, key'] at keys
        rw [selection, selection'] at selections
        exact agree.roles x xIn y yIn (Prod.mk.inj keys).1 role role' selections _ _ priced priced'
      · rw [key] at keys
        have markets : Market.h2h = q.kind.market := congrArg (·.2.1) keys
        cases kind : q.kind <;> rw [kind] at markets <;> cases markets
    · obtain ⟨y, yIn, role', emitted'⟩ | ⟨y, yIn, live', q, fed', own', side', rfl⟩ :=
        (inside t).mp tIn
      · obtain ⟨key', -, -⟩ := rowFor_eq_some emitted'
        rw [key'] at keys
        have markets : p.kind.market = Market.h2h := congrArg (·.2.1) keys
        cases kind : p.kind <;> rw [kind] at markets <;> cases markets
      · obtain ⟨-, -, _, _, _, -, -, offered⟩ := id fed
        obtain ⟨-, -, _, _, _, -, -, offered'⟩ := id fed'
        obtain ⟨refs, markets, details⟩ : x.2.ref = y.2.ref ∧
            p.kind.market = q.kind.market ∧ some p.detail = some q.detail := by
          simpa [Snapshot.marketKey, sideRow, row] using keys
        have kinds : p.kind = q.kind := by
          revert markets
          cases p.kind <;> cases q.kind <;> simp [LineKind.market]
        obtain ⟨rfl, names, texts⟩ :=
          LinePair.text_of_selection offered offered' kinds (Option.some.inj details) selections
        exact agree.lines x xIn y yIn refs live live' p q fed fed' own own' kinds texts side names

end
end Capture

/-! Lines of goals from several books. -/

def bookRunner (selection : Int) (handicap : Json) (price : ℚ) : Json :=
  object [("selectionId", .int selection), ("handicap", handicap),
    ("ex", object [("availableToBack", .arr [object [("price", number price)]])])]

def openBook (marketId : String) (runners : List Json) : Json :=
  object [("marketId", .str marketId.toList), ("status", .str "OPEN".toList),
    ("inplay", .bool false), ("runners", .arr runners)]

def goalMarket (marketId marketType : String) (handicap : Option ℚ) (goals : String := "2.5") :
    MarketCatalogue where
  marketId := marketId.toList
  eventId := "30".toList
  competition := []
  marketStartTime := some (hours 12)
  runners :=
    [⟨1, joined ["Under ", goals, " Goals"], 1, handicap⟩,
      ⟨2, joined ["Over ", goals, " Goals"], 2, handicap⟩]
  marketType := marketType.toList

/-- The line 2.5 stands on the ladder of goal lines and in a market of its own. -/
def goalsCycle : ApiCycle where
  catalogue :=
    [{ goalMarket "1.1" "MATCH_ODDS" none with
       runners := [⟨11, "Alpha".toList, 1, none⟩, ⟨12, "Beta".toList, 2, none⟩] }]
  books := [openBook "1.1" [bookRunner 11 .null 2, bookRunner 12 .null 2]]
  observedAt := 0
  extended := some
    ([goalMarket "1.2" "ALT_TOTAL_GOALS" (some (5 / 2)), goalMarket "1.3" "OVER_UNDER_25" none],
      [openBook "1.2" [bookRunner 1 (number (5 / 2)) 2, bookRunner 2 (number (5 / 2)) (48 / 25)],
        openBook "1.3" [bookRunner 1 .null 2, bookRunner 2 .null (39 / 20)]])
  extObservedAt := 0

def goalsCapture : Capture where
  aliases := .empty
  aliases_named := unaliased
  extendedMarkets := true

def alphaGame : EventCandidate :=
  ⟨"alpha-v-beta".toList, "Alpha".toList, "Beta".toList, hours 12⟩

structure SentPrice where
  key : MarketKey
  selection : Str
  price : ℚ
  deriving DecidableEq

def sentPrice (s : Snapshot) : SentPrice := ⟨s.marketKey, s.selection, s.decimalOdds⟩

def quoted (detail selection : String) (price : ℚ) : SentPrice :=
  ⟨(alphaGame.ref, .totals, some detail.toList), selection.toList, price⟩

/-- What the report of a cycle for one candidate sends. -/
def sentPrices (c : Capture) (cycle : ApiCycle) (candidate : EventCandidate) :
    Option (List SentPrice) :=
  (@Capture.captureOnce c (Readers.table []) .ascii cycle [candidate]).toOption.map fun sent =>
    sent.1.snapshots.map sentPrice

/-- The report quotes over 2.5 goals at 1.92 and at 1.95. -/
theorem coherentQuotes_fails :
    ∃ odds report verdicts, @fetchMatchOdds
      (Readers.table []) .ascii goalsCycle.catalogue goalsCycle.books = .ok odds ∧
      @Capture.captureOnce goalsCapture (Readers.table []) .ascii goalsCycle [alphaGame] = .ok
        (report, verdicts) ∧
        ¬ @Capture.CoherentQuotes (Readers.table []) .ascii goalsCapture goalsCycle odds
          (@Capture.hits goalsCapture .ascii [alphaGame] 0 odds) report := by
  have sent : (sentPrices goalsCapture goalsCycle alphaGame).any fun l =>
      decide (quoted "totals_2_5" "Over 2.5" (48 / 25) ∈ l ∧
        quoted "totals_2_5" "Over 2.5" (39 / 20) ∈ l) := by
    decide +kernel
  obtain ⟨l, reported, both⟩ := (Option.any_eq_true _ _).mp sent
  obtain ⟨⟨report, verdicts⟩, ended, rfl⟩ := Option.map_eq_some_iff.mp reported
  have ran := ok_of_toOption ended
  obtain ⟨odds, fetched⟩ :=
    @Capture.fetched_of_captureOnce .ascii goalsCapture _ (Readers.table []) _ _ _ ran
  refine ⟨odds, report, verdicts, fetched, ran, fun coherent => ?_⟩
  obtain ⟨first, second⟩ := of_decide_eq_true both
  obtain ⟨s, sIn, ladder⟩ := List.mem_map.mp first
  obtain ⟨t, tIn, own⟩ := List.mem_map.mp second
  obtain ⟨key, selection, price⟩ := SentPrice.mk.inj ladder
  obtain ⟨key', selection', price'⟩ := SentPrice.mk.inj own
  have one := @Capture.CoherentQuotes.one (Readers.table []) .ascii _ _ _ _ _ coherent s sIn t tIn
    (key.trans key'.symm) (selection.trans selection'.symm)
  rw [price, price'] at one
  exact absurd one (by decide +kernel)

/-- Two lines of goals, each in a market of its own. -/
def linesCycle : ApiCycle :=
  { goalsCycle with
    extended := some
      ([goalMarket "1.3" "OVER_UNDER_25" none, goalMarket "1.4" "OVER_UNDER_35" none "3.5"],
        [openBook "1.3" [bookRunner 1 .null 2, bookRunner 2 .null (39 / 20)],
          openBook "1.4" [bookRunner 1 .null (8 / 5), bookRunner 2 .null (5 / 2)]]) }

def linesQuotes : List SentPrice :=
  [quoted "totals_2_5" "Over 2.5" (39 / 20), quoted "totals_2_5" "Under 2.5" 2,
    quoted "totals_3_5" "Over 3.5" (5 / 2), quoted "totals_3_5" "Under 3.5" (8 / 5)]

/-- What is read of them agrees: each outcome is sent once, and each line from both sides. -/
theorem coherentQuotes_lines :
    ∃ odds report verdicts, @fetchMatchOdds
      (Readers.table []) .ascii linesCycle.catalogue linesCycle.books = .ok odds ∧
      @Capture.captureOnce goalsCapture (Readers.table []) .ascii linesCycle [alphaGame] = .ok
        (report, verdicts) ∧
        (∀ q ∈ linesQuotes, q ∈ report.snapshots.map sentPrice) ∧
        @Capture.CoherentQuotes (Readers.table []) .ascii goalsCapture linesCycle odds
          (@Capture.hits goalsCapture .ascii [alphaGame] 0 odds) report ∧
        @Capture.AgreeingFeeds (Readers.table []) .ascii goalsCapture linesCycle odds
          (@Capture.hits goalsCapture .ascii [alphaGame] 0 odds) := by
  have sent : (sentPrices goalsCapture linesCycle alphaGame).any fun l =>
      decide ((∀ q ∈ linesQuotes, q ∈ l) ∧
        ∀ p ∈ l, ∀ q ∈ l, p.key = q.key → p.selection = q.selection → p.price = q.price) := by
    decide +kernel
  obtain ⟨l, reported, both⟩ := (Option.any_eq_true _ _).mp sent
  obtain ⟨⟨report, verdicts⟩, ended, rfl⟩ := Option.map_eq_some_iff.mp reported
  have ran := ok_of_toOption ended
  obtain ⟨odds, fetched⟩ :=
    @Capture.fetched_of_captureOnce .ascii goalsCapture _ (Readers.table []) _ _ _ ran
  obtain ⟨listed, agreeing⟩ := of_decide_eq_true both
  have coherent : @Capture.CoherentQuotes (Readers.table []) .ascii goalsCapture linesCycle odds
      (@Capture.hits goalsCapture .ascii [alphaGame] 0 odds) report := by
    refine @Capture.CoherentQuotes.mk (Readers.table []) .ascii _ _ _ _ _
      (fun s sIn t tIn key selection => ?_)
      (@Capture.report_paired (Readers.table []) .ascii _ _ _ _ _ _ _ fetched ran rfl)
    exact agreeing _ (List.mem_map_of_mem sIn) _ (List.mem_map_of_mem tIn) key selection
  exact ⟨odds, report, verdicts, fetched, ran, listed, coherent,
    (@Capture.coherentQuotes_iff (Readers.table []) .ascii _ _ _ _ _ _ fetched ran).mp coherent⟩

end SharpEvPicks.Ingestion
