import SharpEvPicks.Storage.Closes

/-! What the closes say of the history they are read from: the rows they stand for, and the clock
of the scrape. -/
namespace SharpEvPicks.Storage

open Python Pipeline

/-- The columns of a row pass the checks of a snapshot. -/
structure InBounds (externalRef : Str) (row : OddsRow) (detail : Option Str) : Prop where
  odds_gt : 1 < row.decimalOdds
  odds_le : row.decimalOdds ≤ maxDecimalOdds
  liquidity : ∀ l ∈ row.liquidity, 0 ≤ l ∧ l ≤ maxLiquidity
  not_future : row.capturedAt - row.ingestedAt ≤ maxProviderClockSkew
  bounded : boundedRow externalRef row detail = .ok ()

/-- The key of the row maps, and its columns make a price. -/
def Valid (externalRef : Str) (row : OddsRow) : Prop :=
  ∃ market detail, marketFromSnapshotKey row.market = some (market, detail) ∧
    InBounds externalRef row detail

theorem toBool_eq {ε : Type} {checked : Except ε Unit} :
    checked.toBool = true ↔ checked = .ok () := by
  cases checked with
  | error e => exact iff_of_false (by simp [Except.toBool]) (by simp)
  | ok u => exact iff_of_true rfl rfl

theorem snapshot_isSome {row : OddsRow} {externalRef : Str} (market : Market)
    {detail : Option Str} :
    (row.snapshot externalRef market detail).isSome ↔ InBounds externalRef row detail := by
  unfold OddsRow.snapshot
  split
  · rename_i valid
    split
    · rename_i bounded
      refine iff_of_true rfl ⟨valid.1, valid.2.1, ?_, valid.2.2.2, toBool_eq.mp bounded.1⟩
      intro l there
      rw [Option.mem_def] at there
      have small := bounded.2
      rw [there] at small
      exact ⟨valid.2.2.1 l there, of_decide_eq_true small⟩
    · rename_i wide
      refine iff_of_false (by simp) ?_
      intro bounded
      refine wide ⟨toBool_eq.mpr bounded.bounded, ?_⟩
      cases there : row.liquidity with
      | none => rfl
      | some l => exact decide_eq_true (bounded.liquidity l there).2
  · rename_i invalid
    refine iff_of_false (by simp) ?_
    intro bounded
    exact invalid ⟨bounded.odds_gt, bounded.odds_le, fun l there => (bounded.liquidity l there).1,
      bounded.not_future⟩

theorem close_isSome {row : OddsRow} {externalRef : Str} :
    (row.close externalRef).isSome ↔ Valid externalRef row := by
  unfold OddsRow.close Valid
  cases keyed : marketFromSnapshotKey row.market with
  | none => simp
  | some found =>
    obtain ⟨market, detail⟩ := found
    have own : (∃ market' detail', some (market, detail) = some (market', detail') ∧
        InBounds externalRef row detail') ↔ InBounds externalRef row detail := by simp
    rw [own, ← snapshot_isSome market]
    simp only [Option.bind_eq_bind, Option.bind_some]
    by_cases low : row.decimalOdds ≤ 1
    · rw [if_pos low]
      exact iff_of_false (by simp) fun made =>
        absurd ((snapshot_isSome market).mp made).odds_gt (not_lt.mpr low)
    · rw [if_neg low]

/-- A snapshot for each series whose last row before the kickoff makes one, with the columns of that
row. -/
def Closes (odds : OddsTable) (eventId : Nat) (externalRef : Str) (kickoff : Int)
    (snaps : List Snapshot) : Prop :=
  ∃ rows : List OddsRow, (rows.map OddsRow.series).Nodup ∧
    (∀ row, row ∈ rows ↔ LastBefore odds eventId kickoff row ∧ Valid externalRef row) ∧
    List.Forall₂ (fun row s => ClosedFrom row externalRef s) rows snaps

/-- A row of the main scrape, which reports no liquidity. -/
structure Scraped (odds : OddsTable) (eventId : Nat) (kickoff : Int) (row : OddsRow) : Prop where
  stored : row ∈ odds.rows
  own : row.eventId = eventId
  early : row.capturedAt < kickoff
  main : row.liquidity = none

/-- When the main scrape last saw the event. -/
def ScrapeClock (odds : OddsTable) (eventId : Nat) (kickoff : Int) : Option Int → Prop
  | none => ∀ row, ¬ Scraped odds eventId kickoff row
  | some t => (∃ row, Scraped odds eventId kickoff row ∧ row.capturedAt = t) ∧
    ∀ row, Scraped odds eventId kickoff row → row.capturedAt ≤ t

/-- A dedicated capture of the same series came after the row. -/
def Buried (odds : OddsTable) (eventId : Nat) (kickoff : Int) (row : OddsRow) : Prop :=
  ∃ other ∈ odds.rows, other.eventId = eventId ∧ other.capturedAt < kickoff ∧
    other.series = row.series ∧ other.liquidity ≠ none ∧ row.capturedAt < other.capturedAt

/-- Some row of the last scrape of the event is the last of its series. -/
def LastScrapeShows (odds : OddsTable) (eventId : Nat) (kickoff : Int) : Prop :=
  (∃ row, Scraped odds eventId kickoff row) →
    ∃ row, Scraped odds eventId kickoff row ∧ ¬ Buried odds eventId kickoff row ∧
      ∀ other, Scraped odds eventId kickoff other → other.capturedAt ≤ row.capturedAt

section
variable {odds : OddsTable} {eventId : Nat} {externalRef : Str} {kickoff : Int}

theorem LastBefore.unique {row other : OddsRow} (last : LastBefore odds eventId kickoff row)
    (last' : LastBefore odds eventId kickoff other) (same : row.series = other.series) :
      row = other := by
  have times : row.capturedAt = other.capturedAt :=
    le_antisymm (last'.latest row last.stored last.own last.early same)
      (last.latest other last'.stored last'.own last'.early same.symm)
  have observed : row.observation = other.observation := by
    unfold OddsRow.observation
    rw [last.own, last'.own, times, same]
  exact List.inj_on_of_nodup_map odds.unique last.stored last'.stored observed

theorem closeRows_nodup : (odds.closeRows eventId kickoff).Nodup := by
  apply List.Nodup.filter
  exact (List.perm_insertionSort _ _).nodup_iff.mpr ((odds.unique.of_map _).filter _)

theorem forall₂_filterMap {α β : Type} {R : α → β → Prop} {f : α → Option β}
    (made : ∀ a b, f a = some b → R a b) (l : List α) :
      List.Forall₂ R (l.filter fun a => (f a).isSome) (l.filterMap f) := by
  induction l with
  | nil => exact .nil
  | cons a l ih =>
    cases there : f a with
    | none =>
      rw [List.filterMap_cons_none there, List.filter_cons_of_neg (by simp [there])]
      exact ih
    | some b =>
      rw [List.filterMap_cons_some there, List.filter_cons_of_pos (by simp [there])]
      exact .cons (made a b there) ih

theorem closes_of_history :
    Closes odds eventId externalRef kickoff
      (odds.closingOddsFromSnapshots eventId externalRef kickoff).1 := by
  refine ⟨(odds.closeRows eventId kickoff).filter fun row => (row.close externalRef).isSome,
    ?_, ?_, ?_⟩
  · apply List.Nodup.map_on
    · intro row inside other inside' same
      have last := mem_closeRows.mp (List.mem_of_mem_filter inside)
      exact last.unique (mem_closeRows.mp (List.mem_of_mem_filter inside')) same
    · exact closeRows_nodup.filter _
  · intro row
    rw [List.mem_filter, mem_closeRows, close_isSome]
  · exact forall₂_filterMap (f := OddsRow.close externalRef)
      (fun row s made => closedFrom_of_close made) _

/-- Among the rows of the last scrape, those that no dedicated capture followed are the close rows.
-/
theorem lastBefore_iff {row : OddsRow} (scraped : Scraped odds eventId kickoff row)
    (newest : ∀ other, Scraped odds eventId kickoff other →
      other.capturedAt ≤ row.capturedAt) :
    LastBefore odds eventId kickoff row ↔ ¬ Buried odds eventId kickoff row := by
  constructor
  · rintro last ⟨other, stored, own, early, same, -, later⟩
    exact absurd later (not_lt.mpr (last.latest other stored own early same))
  · intro shown
    refine ⟨scraped.stored, scraped.own, scraped.early, ?_⟩
    intro other stored own early same
    by_cases main : other.liquidity = none
    · exact newest other ⟨stored, own, early, main⟩
    · by_contra later
      exact shown ⟨other, stored, own, early, same, main, not_le.mp later⟩

theorem mem_clockTimes {t : Int} :
    t ∈ ((odds.closeRows eventId kickoff).filter fun row =>
      row.liquidity.isNone).map OddsRow.capturedAt ↔
      ∃ row, LastBefore odds eventId kickoff row ∧ Scraped odds eventId kickoff row ∧
        row.capturedAt = t := by
  rw [List.mem_map]
  constructor
  · rintro ⟨row, inside, time⟩
    obtain ⟨last, main⟩ := List.mem_filter.mp inside
    have last := mem_closeRows.mp last
    exact ⟨row, last, ⟨last.stored, last.own, last.early, Option.isNone_iff_eq_none.mp main⟩,
      time⟩
  · rintro ⟨row, last, scraped, time⟩
    exact ⟨row, List.mem_filter.mpr ⟨mem_closeRows.mpr last,
      Option.isNone_iff_eq_none.mpr scraped.main⟩, time⟩

theorem scrapeClock_iff :
    ScrapeClock odds eventId kickoff
      (odds.closingOddsFromSnapshots eventId externalRef kickoff).2 ↔
      LastScrapeShows odds eventId kickoff := by
  have read : (odds.closingOddsFromSnapshots eventId externalRef kickoff).2 =
      (((odds.closeRows eventId kickoff).filter fun row =>
        row.liquidity.isNone).map OddsRow.capturedAt).max? := rfl
  rw [read]
  cases newest : (((odds.closeRows eventId kickoff).filter fun row => row.liquidity.isNone).map
      OddsRow.capturedAt).max? with
  | none =>
    rw [List.max?_eq_none_iff] at newest
    constructor
    · rintro unseen ⟨row, scraped⟩
      exact absurd scraped (unseen row)
    · intro shows row scraped
      obtain ⟨row, scraped, shown, last⟩ := shows ⟨row, scraped⟩
      have inside := mem_clockTimes.mpr ⟨row, (lastBefore_iff scraped last).mpr shown,
        scraped, rfl⟩
      rw [newest] at inside
      cases inside
  | some t =>
    obtain ⟨there, greatest⟩ := List.max?_eq_some_iff.mp newest
    obtain ⟨row, last, scraped, time⟩ := mem_clockTimes.mp there
    constructor
    · rintro ⟨-, seen⟩ -
      rw [← time] at seen
      exact ⟨row, scraped, (lastBefore_iff scraped seen).mp last, seen⟩
    · intro shows
      obtain ⟨other, scraped', shown, seen⟩ := shows ⟨row, scraped⟩
      have other_le := greatest _ (mem_clockTimes.mpr ⟨other,
        (lastBefore_iff scraped' seen).mpr shown, scraped', rfl⟩)
      refine ⟨⟨row, scraped, time⟩, ?_⟩
      intro r scraped''
      exact (seen r scraped'').trans other_le

/-- The closes are always those of the history, and the clock is that of the scrape unless every row
of the last scrape is buried. -/
theorem closingOdds_iff :
    (Closes odds eventId externalRef kickoff
      (odds.closingOddsFromSnapshots eventId externalRef kickoff).1 ∧
      ScrapeClock odds eventId kickoff
        (odds.closingOddsFromSnapshots eventId externalRef kickoff).2) ↔
        LastScrapeShows odds eventId kickoff := by
  rw [and_iff_right closes_of_history]
  exact scrapeClock_iff

end

/-! An event last scraped at 50, at the exchange alone, and captured there at 90. -/

def exchangeRow (capturedAt : Int) (liquidity : Option ℚ) : OddsRow where
  eventId := 7
  bookmaker := "Betfair Exchange".toList
  market := "1x2".toList
  selection := "Porto".toList
  decimalOdds := 2
  liquidity := liquidity
  capturedAt := capturedAt
  ingestedAt := capturedAt

theorem buriedScrape_unique :
    ([exchangeRow 50 none, exchangeRow 90 (some 512)].map OddsRow.observation).Nodup := by decide

def buriedScrape : OddsTable where
  rows := [exchangeRow 50 none, exchangeRow 90 (some 512)]
  unique := buriedScrape_unique

theorem closingOdds_fails :
    Scraped buriedScrape 7 100 (exchangeRow 50 none) ∧
      (buriedScrape.closingOddsFromSnapshots 7 "e7".toList 100).2 = none := by
  refine ⟨⟨List.mem_cons_self, rfl, by decide, rfl⟩, ?_⟩
  decide +kernel

end SharpEvPicks.Storage
