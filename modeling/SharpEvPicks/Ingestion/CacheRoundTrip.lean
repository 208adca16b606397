import SharpEvPicks.Ingestion.MarketCache
import SharpEvPicks.Ingestion.PreInPlay
import SharpEvPicks.Python.Reordering

/-! What the market cache gives back of a parsed market. -/
namespace SharpEvPicks.Ingestion

open Python Transition

section
variable [Readers]

/-! What the parser can leave in a market. -/

/-- Odds that `_to_decimal` makes of some value. -/
def Price (price : ℚ) : Prop := ∃ value, toDecimal value = some price

theorem price_of_readDelta {entry : Json} {level : Int} {price : ℚ}
    (row : readDelta entry = .ok (some (level, some price))) : Price price := by
  unfold readDelta at row
  split at row
  swap
  · cases row
  rename_i level' value size rest
  have kept (gone : Prop) [Decidable gone] {n : Int}
      (left : (n, if gone then none else toDecimal value) = (level, some price)) : Price price := by
    have priced := (Prod.mk.inj left).2
    split at priced
    · cases priced
    · exact ⟨value, priced⟩
  split at row
  · cases row
  · cases row
  split at row
  · cases row
  · cases row
  · exact kept _ (Option.some.inj (Except.ok.inj row))
  · exact kept _ (Option.some.inj (Except.ok.inj row))
  · exact ⟨value, (Prod.mk.inj (Option.some.inj (Except.ok.inj row))).2⟩

theorem price_of_rowsOf {deltas : Json} {row : Int × Option ℚ} (inside : row ∈ rowsOf deltas)
    {price : ℚ} (priced : row.2 = some price) : Price price := by
  obtain ⟨entry, -, read⟩ := List.mem_filterMap.mp inside
  obtain ⟨level, value⟩ := row
  subst priced
  unfold rowOf at read
  rw [Option.join_eq_some_iff] at read
  exact price_of_readDelta (ok_of_toOption read)

theorem price_of_lowestPopulated {rows : List (Int × Option ℚ)}
    (priced : ∀ row ∈ rows, ∀ price, row.2 = some price → Price price) {price : ℚ}
    (lowest : lowestPopulated rows = some price) : Price price := by
  obtain ⟨level, -, found⟩ := Option.bind_eq_some_iff.mp lowest
  obtain ⟨row, last, value⟩ := Option.bind_eq_some_iff.mp found
  exact priced row (List.mem_filter.mp (List.mem_of_getLast? last)).1 price value

theorem price_of_backAfter {changes : List Members} {price : ℚ}
    (back : backAfter changes = some price) : Price price := by
  have rows (name : Str) : ∀ row ∈ changes.flatMap fun rc => rowsOf (rc.get name), ∀ price,
      row.2 = some price → Price price := by
    intro row inside price priced
    obtain ⟨rc, -, listed⟩ := List.mem_flatMap.mp inside
    exact price_of_rowsOf listed priced
  unfold backAfter at back
  rw [Option.or_eq_some_iff, Option.or_eq_some_iff] at back
  obtain shown | ⟨-, raw | ⟨-, traded⟩⟩ := back
  · exact price_of_lowestPopulated (rows _) shown
  · exact price_of_lowestPopulated (rows _) raw
  · obtain ⟨rc, -, read⟩ := List.mem_filterMap.mp (List.mem_of_getLast? traded)
    exact ⟨_, read⟩

/-- A `datetime` lies in the calendar. -/
structure Dated : Prop where
  written : ∀ (s : Str) (time : IsoTime), Readers.fromisoformat s = some time →
    InCalendar time.fields
  stamped : ∀ (value : Json) (t : Int), Readers.fromtimestamp value = some t → InCalendar t

def BetfairRunner.prices (r : BetfairRunner) : List ℚ := r.closePrice.toList ++ r.bsp.toList

def BetfairMarketClose.times (m : BetfairMarketClose) : List Int :=
  m.kickoffUtc.toList ++ m.inPlayUtc.toList ++ m.settledTimeUtc.toList

section
variable [Printers]

/-- The interpreter reads what it prints of a market: `json.loads` the text of `json.dumps`,
`Decimal` the `str` of a finite `Decimal`, and `fromisoformat` a date and a time with an offset of
zero. -/
structure Faithful (m : BetfairMarketClose) : Prop where
  json : Readers.loads (Printers.dumps (marketToDict m)) = .ok (marketToDict m)
  inked : strip (Printers.dumps (marketToDict m)) ≠ []
  decimal : ∀ r ∈ m.runners, ∀ price ∈ r.prices,
    Readers.decimal (Printers.decimal price) = some (.finite price)
  iso : ∀ t ∈ m.times, (momentOf t).Valid →
    Readers.fromisoformat (momentOf t).isoformat = some ⟨(momentOf t).instant, some 0⟩

end

/-! Fields that are read back. -/

theorem one_lt_of_price {price : ℚ} (priced : Price price) : 1 < price := by
  obtain ⟨value, read⟩ := priced
  unfold toDecimal at read
  split at read
  · split at read
    · rename_i above
      cases read
      exact above
    · cases read
  · cases read

theorem toDecimal_decimalText [Printers] {price : ℚ} (priced : Price price)
    (back : Readers.decimal (Printers.decimal price) = some (.finite price)) :
    toDecimal (decimalText price) = some price := by
  have read : (decimalText price).decimalOf = some (.finite price) := back
  unfold toDecimal
  rw [read]
  exact if_pos (one_lt_of_price priced)

theorem dtFromIso_timeJson {t : Int} (inside : InCalendar t) (back : (momentOf t).Valid →
    Readers.fromisoformat (momentOf t).isoformat = some ⟨(momentOf t).instant, some 0⟩) :
    dtFromIso (timeJson t) = .ok (some t) := by
  have read := back (momentOf_valid inside)
  rw [instant_momentOf inside.1] at read
  have range : minInstant ≤ t - 0 ∧ t - 0 ≤ maxInstant := by rwa [Int.sub_zero]
  unfold dtFromIso timeJson isoformat
  dsimp only [Json.asStr]
  cases text : (momentOf t).isoformat with
  | nil =>
    unfold Moment.isoformat at text
    simp at text
  | cons c rest =>
    rw [text] at read
    dsimp only
    rw [read]
    dsimp only
    rw [if_pos range, Int.sub_zero]

omit [Readers] in
theorem declared_orNull {α : Type} (json : α → Json) (read : Json → Option α)
    (back : ∀ a, read (json a) = some a) (filled : ∀ a, json a ≠ .null) (value : Option α) :
      declared read (orNull json value) = .ok value := by
  cases value with
  | none => rfl
  | some a =>
    unfold declared orNull
    dsimp only [Option.elim]
    split
    · rename_i null
      exact absurd null (filled a)
    · rw [back]

theorem textOf_str (s : Str) : textOf (.str s) = s := by
  unfold textOf Json.truthy
  by_cases empty : s = []
  · rw [empty]
    rfl
  · rw [if_pos (decide_eq_true empty)]
    rfl

/-! Markets that the parser returns. -/

/-- What the parser promises of a market. -/
structure Parsed (m : BetfairMarketClose) : Prop where
  closes : ∀ r ∈ m.runners, ∀ price, r.closePrice = some price → Price price
  bsps : ∀ r ∈ m.runners, ∀ price, r.bsp = some price → Price price
  kickoff : ∀ t, m.kickoffUtc = some t → InCalendar t
  inPlay : ∀ t, m.inPlayUtc = some t → InCalendar t
  settled : ∀ t, m.settledTimeUtc = some t → InCalendar t

theorem inCalendar_of_parseMarketTime (dated : Dated) {value : Json} {time : Option Int}
    (read : parseMarketTime value = .ok time) (t : Int) (there : time = some t) : InCalendar t := by
  subst there
  unfold parseMarketTime at read
  split at read
  · cases read
  · cases read
  split at read
  · cases read
  · rename_i fields naive
    cases read
    exact dated.written _ _ naive
  · split at read
    · rename_i range
      cases read
      exact range
    · cases read

theorem inCalendar_of_epochMsToUtc (dated : Dated) {value : Json} {t : Int}
    (read : epochMsToUtc value = some t) : InCalendar t := by
  unfold epochMsToUtc at read
  split at read
  · exact dated.stamped _ _ read
  · exact dated.stamped _ _ read
  · cases read

theorem fits_of_parsed {lines : List Str} {close : Option BetfairMarketClose}
    (parsed : parseMarketStream lines = .ok close) : ∀ text ∈ lines, LineFits text := by
  by_contra large
  obtain ⟨e, raised⟩ := lines_guarded.error StreamState.start lines large
  simp only [parseMarketStream, raised, bind, Except.bind] at parsed
  cases parsed

theorem parsed_of_stream (dated : Dated) {lines : List Str} {m : BetfairMarketClose}
    (parsed : parseMarketStream lines = .ok (some m)) : Parsed m := by
  rw [parseMarketStream_eq (fits_of_parsed parsed), state_after] at parsed
  unfold marketClose at parsed
  dsimp only at parsed
  split at parsed
  · cases parsed
  rename_i mdef last
  split at parsed
  · cases parsed
  obtain ⟨kickoffUtc, kickoff, parsed⟩ := bind_ok.mp parsed
  obtain ⟨settledTimeUtc, settled, parsed⟩ := bind_ok.mp parsed
  cases parsed
  refine ⟨fun r inside price priced => ?_, fun r inside price priced => ?_,
    inCalendar_of_parseMarketTime dated kickoff,
    fun t turned => ?_, inCalendar_of_parseMarketTime dated settled⟩
  · obtain ⟨row, -, rfl⟩ := List.mem_map.mp (mem_sortedBy.mp inside)
    unfold closingRunner at priced
    dsimp only at priced
    rw [snapshot_before, Option.or_eq_some_iff] at priced
    obtain reconciled | ⟨-, back⟩ := priced
    · exact ⟨_, reconciled⟩
    · exact price_of_backAfter back
  · obtain ⟨row, -, rfl⟩ := List.mem_map.mp (mem_sortedBy.mp inside)
    exact ⟨_, priced⟩
  · obtain ⟨c, -, stamped⟩ := Option.bind_eq_some_iff.mp turned
    exact inCalendar_of_epochMsToUtc dated stamped

/-! The round trip. -/

section
variable [Printers]

theorem toDecimal_orNull {price : Option ℚ} (priced : ∀ p, price = some p → Price p)
    (back : ∀ p ∈ price.toList, Readers.decimal (Printers.decimal p) = some (.finite p)) :
    toDecimal (orNull decimalText price) = price := by
  cases price with
  | none => rfl
  | some p => exact toDecimal_decimalText (priced p rfl) (back p (List.mem_singleton_self p))

omit [Printers] in
theorem dtFromIso_orNull {t : Option Int} (inside : ∀ u, t = some u → InCalendar u)
    (back : ∀ u ∈ t.toList, (momentOf u).Valid →
      Readers.fromisoformat (momentOf u).isoformat = some ⟨(momentOf u).instant, some 0⟩) :
    dtFromIso (orNull timeJson t) = .ok t := by
  cases t with
  | none => rfl
  | some u => exact dtFromIso_timeJson (inside u rfl) (back u (List.mem_singleton_self u))

theorem runnerFromDict_runnerToDict {r : BetfairRunner}
    (close : ∀ price, r.closePrice = some price → Price price)
    (bsp : ∀ price, r.bsp = some price → Price price)
    (back : ∀ price ∈ r.prices,
      Readers.decimal (Printers.decimal price) = some (.finite price)) :
    runnerFromDict (runnerToDict r) = .ok r := by
  have name := declared_orNull Json.str Json.asStr (fun _ => rfl) (fun _ => Json.noConfusion) r.name
  have sortPriority :=
    declared_orNull Json.int Json.asInt (fun _ => rfl) (fun _ => Json.noConfusion)
    r.sortPriority
  have won := declared_orNull Json.bool asBool (fun _ => rfl) (fun _ => Json.noConfusion) r.won
  have shape : runnerFromDict (runnerToDict r) = (do
      let name ← declared Json.asStr (orNull .str r.name)
      let sortPriority ← declared Json.asInt (orNull .int r.sortPriority)
      let won ← declared asBool (orNull .bool r.won)
      return ⟨r.selectionId, name, sortPriority, textOf (.str r.status),
        toDecimal (orNull decimalText r.closePrice),
        toDecimal (orNull decimalText r.bsp), won⟩) := rfl
  rw [shape, name, sortPriority, won,
    toDecimal_orNull close fun p inside => back p (List.mem_append_left _ inside),
    toDecimal_orNull bsp fun p inside => back p (List.mem_append_right _ inside), textOf_str]
  rfl

/-- The market as the cache gives it back. -/
def BetfairMarketClose.reread (m : BetfairMarketClose) : BetfairMarketClose :=
  { m with eventId := m.eventId.filter (· ≠ []) }

theorem marketFromDict_marketToDict {m : BetfairMarketClose} (faithful : Faithful m)
    (parsed : Parsed m) : marketFromDict (marketToDict m) = .ok m.reread := by
  have text (value : Option Str) : declared Json.asStr (orNull Json.str value) = .ok value :=
    declared_orNull Json.str Json.asStr (fun _ => rfl) (fun _ => Json.noConfusion) value
  have runners : (m.runners.map runnerToDict).mapM runnerFromDict = .ok m.runners := by
    have each : ∀ r ∈ m.runners, runnerFromDict (runnerToDict r) = .ok r := fun r inside =>
      runnerFromDict_runnerToDict (parsed.closes r inside) (parsed.bsps r inside)
        (faithful.decimal r inside)
    rw [List.mapM_map]
    exact (mapM_ok (f := runnerFromDict ∘ runnerToDict) (g := id) each).trans
      (congrArg Except.ok (List.map_id _))
  have eventId : (if (orNull Json.str m.eventId).truthy then some (orNull Json.str m.eventId).toStr
      else none) =
      m.eventId.filter (· ≠ []) := by
    cases m.eventId with
    | none => rfl
    | some s =>
      unfold orNull Json.truthy
      dsimp only [Option.elim]
      rw [Option.filter_some]
      rfl
  have shape : marketFromDict (marketToDict m) = (do
      let runners ← (m.runners.map runnerToDict).mapM runnerFromDict
      let eventTypeId ← declared Json.asStr (orNull .str m.eventTypeId)
      let eventName ← declared Json.asStr (orNull .str m.eventName)
      let competition ← declared Json.asStr (orNull .str m.competition)
      let marketType ← declared Json.asStr (orNull .str m.marketType)
      let kickoffUtc ← dtFromIso (orNull timeJson m.kickoffUtc)
      let inPlayUtc ← dtFromIso (orNull timeJson m.inPlayUtc)
      let settledTimeUtc ← dtFromIso (orNull timeJson m.settledTimeUtc)
      return ⟨textOf (.str m.marketId), eventTypeId, eventName, competition, marketType,
        kickoffUtc, inPlayUtc, m.settled, m.bspReconciled, runners,
        if (orNull Json.str m.eventId).truthy then some (orNull Json.str m.eventId).toStr else none,
        settledTimeUtc⟩) := rfl
  have kickoff := dtFromIso_orNull parsed.kickoff fun u inside =>
    faithful.iso u (List.mem_append_left _ (List.mem_append_left _ inside))
  have inPlay := dtFromIso_orNull parsed.inPlay fun u inside =>
    faithful.iso u (List.mem_append_left _ (List.mem_append_right _ inside))
  have settled := dtFromIso_orNull parsed.settled fun u inside =>
    faithful.iso u (List.mem_append_right _ inside)
  rw [shape, runners, text, text, text, text, kickoff, inPlay, settled, textOf_str, eventId]
  rfl

theorem cachedMarkets_write {markets : List BetfairMarketClose}
    (faithful : ∀ m ∈ markets, Faithful m) (parsed : ∀ m ∈ markets, Parsed m) :
    cachedMarkets (writeMarketCache markets) = .ok (markets.map BetfairMarketClose.reread) := by
  induction markets with
  | nil => rfl
  | cons m markets ih =>
    obtain ⟨first, rest⟩ := List.forall_mem_cons.mp parsed
    obtain ⟨here, there⟩ := List.forall_mem_cons.mp faithful
    have cached : cachedMarkets (writeMarketCache markets) = _ := ih there rest
    unfold writeMarketCache at cached ⊢
    rw [List.map_cons, cachedMarkets, if_neg here.inked, here.json, cached]
    dsimp only
    rw [marketFromDict_marketToDict here first]
    rfl

omit [Readers] [Printers] in
theorem reread_eq_iff (m : BetfairMarketClose) : m.reread = m ↔ m.eventId ≠ some [] := by
  have field : m.reread = m ↔ m.eventId.filter (· ≠ []) = m.eventId :=
    ⟨fun same => congrArg BetfairMarketClose.eventId same,
      fun same => by rw [BetfairMarketClose.reread, same]⟩
  rw [field]
  cases m.eventId with
  | none => simp
  | some s => simp [Option.filter_some]

/-- A parsed market survives the cache just when its event id is not empty, and a cache gives back
its markets in order, none dropped or altered, just when all of them survive. -/
theorem marketCache_iff (dated : Dated) {ms : List BetfairMarketClose}
    (faithful : ∀ m ∈ ms, Faithful m)
    (parsed : ∀ m ∈ ms, ∃ lines, parseMarketStream lines = .ok (some m)) :
    (∀ m ∈ ms, marketFromDict (marketToDict m) = .ok m ↔ m.eventId ≠ some []) ∧
      (readMarketCache (writeMarketCache ms) = .ok (sortedBy cacheKey ms) ↔ ∀ m ∈ ms,
        m.eventId ≠ some []) := by
  have promised : ∀ m ∈ ms, Parsed m := fun m inside => by
    obtain ⟨lines, ran⟩ := parsed m inside
    exact parsed_of_stream dated ran
  refine ⟨fun m inside => ?_, ?_⟩
  · rw [marketFromDict_marketToDict (faithful m inside) (promised m inside), Except.ok.injEq,
      reread_eq_iff]
  · rw [readMarketCache, cachedMarkets_write faithful promised]
    constructor
    · intro same m inside empty
      have sorted := Except.ok.inj same
      have listed : m ∈ sortedBy cacheKey (ms.map BetfairMarketClose.reread) := by
        rw [sorted]
        exact mem_sortedBy.mpr inside
      obtain ⟨m', -, rfl⟩ := List.mem_map.mp (mem_sortedBy.mp listed)
      have kept : m'.eventId.filter (· ≠ []) = some [] := empty
      rw [Option.filter_eq_some_iff] at kept
      exact absurd kept.2 (by simp)
    · intro filled
      have same : ms.map BetfairMarketClose.reread = ms :=
        (List.map_congr_left fun m inside =>
          (reread_eq_iff m).mpr (filled m inside)).trans (List.map_id ms)
      rw [same]
      rfl

end

end

/-! Markets with one runner that closed at 2.5. -/

structure Listing where
  eventId : String
  marketId : String := "1.1"
  hour : String := "12"
  kickoff : Int := 1735732800000000
  deriving DecidableEq

def Listing.isoText (l : Listing) : Str := joined ["2025-01-01T", l.hour, ":00:00+00:00"]

def streamText (l : Listing) : Str :=
  joined (mcmText ++ ["\"id\":\"", l.marketId, "\",", "\"market", "Definition\":\x7b",
    "\"eventId\":\"", l.eventId, "\",", "\"marketTime\":", "\"2025-01-01T", l.hour, ":00:00Z\",",
    "\"runners\":[\x7b", "\"id\":7,", "\"bsp\":2.5", "\x7d]\x7d\x7d]\x7d"])

def cacheText (l : Listing) : Str :=
  joined ["\x7b\"market_id\":\"", l.marketId, "\",", "\"event_type_id\":null,",
    "\"event_name\":null,", "\"competition\":null,", "\"market_type\":null,", "\"kickoff_utc\":\"",
    "2025-01-01T", l.hour, ":00:00+00:00\",", "\"in_play_utc\":null,", "\"settled\":false,",
    "\"bsp_reconciled\":false,", "\"event_id\":\"", l.eventId, "\",", "\"settled_time_utc\":null,",
    "\"runners\":[\x7b", "\"selection_id\":7,", "\"name\":null,", "\"sort_priority\":null,",
    "\"status\":\"\",", "\"close_price\":\"2.5\",", "\"bsp\":\"2.5\",", "\"won\":null", "\x7d]\x7d"]

def Listing.market (l : Listing) : BetfairMarketClose where
  marketId := l.marketId.toList
  eventTypeId := none
  eventName := none
  competition := none
  marketType := none
  kickoffUtc := some l.kickoff
  inPlayUtc := none
  settled := false
  bspReconciled := false
  runners := [⟨7, none, none, [], some (5 / 2), some (5 / 2), none⟩]
  eventId := some l.eventId.toList
  settledTimeUtc := none

def Listing.message (l : Listing) : Json :=
  mcm (object [("id", .str l.marketId.toList), ("marketDefinition",
    object [("eventId", .str l.eventId.toList),
      ("marketTime", .str (joined ["2025-01-01T", l.hour, ":00:00Z"])),
      ("runners", .arr [object [("id", .int 7), ("bsp", number (5 / 2))]])])])

@[reducible] def Printers.listing (ls : List Listing) : Printers where
  dumps d :=
    ((ls.find? fun l => (((d.asObj).getD []).get "market_id".toList).isStr l.marketId.toList).map
      cacheText).getD []
  decimal _ := "2.5".toList

@[reducible] def Readers.listing (ls : List Listing) : Readers where
  loads text :=
    ((ls.find? fun l => streamText l = text).map Listing.message).elim
      (((ls.find? fun l => cacheText l = text).map fun l =>
        @marketToDict (Printers.listing ls) l.market).elim (.error .notJson) .ok) .ok
  int _ := none
  float _ := none
  decimal s := if s = "2.5".toList then some (.finite (5 / 2)) else none
  shortest x := x
  nearest n := n
  str _ := []
  fromisoformat s := (ls.find? fun l => l.isoText = s).map fun l => ⟨l.kickoff, some 0⟩
  fromtimestamp _ := none

/-- Two markets that are cached against their order. -/
def twoListings : List Listing :=
  [{ eventId := "34", marketId := "1.2", hour := "15", kickoff := 1735743600000000 },
    { eventId := "33" }]

def unnamed : Listing := { eventId := "" }

theorem twoListings_parsed :
    ∀ l ∈ twoListings,
      @parseMarketStream (Readers.listing twoListings) [streamText l] = .ok (some l.market) := by
  intro l inside
  apply ok_of_toOption
  revert l
  decide +kernel

theorem unnamed_parsed :
    @parseMarketStream (Readers.listing [unnamed]) [streamText unnamed] = .ok
      (some unnamed.market) :=
  ok_of_toOption (by decide +kernel)

theorem twoListings_dated : @Dated (Readers.listing twoListings) := by
  have within : ∀ l ∈ twoListings, InCalendar l.kickoff := by
    simp only [twoListings, List.forall_mem_cons]
    exact ⟨⟨by decide, by decide⟩, ⟨by decide, by decide⟩, List.forall_mem_nil _⟩
  refine @Dated.mk (Readers.listing twoListings) (fun s time read => ?_) (fun value t read => ?_)
  · obtain ⟨l, found, rfl⟩ := Option.map_eq_some_iff.mp read
    exact within l (List.mem_of_find?_eq_some found)
  · cases read

theorem twoListings_kept : ∀ l ∈ twoListings,
    (twoListings.find? fun l' =>
      ((((@marketToDict (Printers.listing twoListings) l.market).asObj).getD []).get
        "market_id".toList).isStr l'.marketId.toList) = some l ∧
    (twoListings.find? fun l' => streamText l' = cacheText l) = none ∧
    (twoListings.find? fun l' => cacheText l' = cacheText l) = some l ∧
    strip (cacheText l) ≠ [] ∧
    (twoListings.find? fun l' => l'.isoText = (momentOf l.kickoff).isoformat) = some l ∧
    (momentOf l.kickoff).instant = l.kickoff := by
  decide +kernel

theorem twoListings_faithful {l : Listing} (inside : l ∈ twoListings) :
    @Faithful (Readers.listing twoListings) (Printers.listing twoListings) l.market := by
  obtain ⟨named, unstreamed, cached, inked, timed, instant⟩ := twoListings_kept l inside
  have dumped : @Printers.dumps (Printers.listing twoListings)
      (@marketToDict (Printers.listing twoListings) l.market) = cacheText l :=
    congrArg (fun found => (Option.map cacheText found).getD []) named
  have loaded : @Readers.loads (Readers.listing twoListings) (cacheText l) =
      .ok (@marketToDict (Printers.listing twoListings) l.market) := by
    unfold Readers.loads
    dsimp only
    rw [unstreamed, cached]
    rfl
  refine @Faithful.mk (Readers.listing twoListings) (Printers.listing twoListings) _ ?_ ?_ ?_ ?_
  · rw [dumped, loaded]
  · rwa [dumped]
  · intro r inside price listed
    cases List.mem_singleton.mp inside
    simp only [BetfairRunner.prices, Option.toList, List.singleton_append, List.mem_cons,
      List.not_mem_nil, or_false, or_self] at listed
    rw [listed]
    rfl
  · intro t listed valid
    obtain rfl := List.mem_singleton.mp listed
    rw [instant]
    exact congrArg (Option.map fun l : Listing => IsoTime.mk l.kickoff (some 0)) timed

/-- Two markets that the cache keeps, and reads in the order of their kickoffs. -/
theorem marketCache_iff_twoListings :
    @readMarketCache (Readers.listing twoListings)
        (@writeMarketCache (Printers.listing twoListings) (twoListings.map Listing.market)) =
      .ok (twoListings.map Listing.market).reverse := by
  have kept := @marketCache_iff (Readers.listing twoListings) (Printers.listing twoListings)
    twoListings_dated (twoListings.map Listing.market)
    (List.forall_mem_map.mpr fun l inside => twoListings_faithful inside)
    (List.forall_mem_map.mpr fun l inside => ⟨_, twoListings_parsed l inside⟩)
  have sorted : sortedBy cacheKey (twoListings.map Listing.market) =
      (twoListings.map Listing.market).reverse := by decide +kernel
  exact (kept.2.mpr (by decide)).trans (congrArg _ sorted)

/-- The cache forgets an empty event id. -/
theorem marketCache_fails :
    @parseMarketStream (Readers.listing [unnamed]) [streamText unnamed] = .ok
      (some unnamed.market) ∧ @marketFromDict (Readers.listing [unnamed])
        (@marketToDict (Printers.listing [unnamed]) unnamed.market) ≠ .ok unnamed.market := by
  refine ⟨unnamed_parsed, fun same => ?_⟩
  have ids : (@marketFromDict (Readers.listing [unnamed])
      (@marketToDict (Printers.listing [unnamed]) unnamed.market)).toOption.map
      BetfairMarketClose.eventId = some (some []) := by
    rw [same]
    rfl
  exact absurd ids (by decide +kernel)

end SharpEvPicks.Ingestion
