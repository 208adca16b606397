import SharpEvPicks.Ingestion.BetfairApi
import SharpEvPicks.Ingestion.PreInPlay
import SharpEvPicks.Resolution.OrderBlind

/-! On which side of an event the prices of the exchange land. -/
namespace SharpEvPicks.Ingestion

open Python Pipeline Resolution Transition

/-- The role at the exchange of the runner that is aligned with a role of the candidate. -/
def Role.aligned (swapped : Bool) : Role → Role
  | .home => if swapped then .away else .home
  | .away => if swapped then .home else .away
  | .draw => .draw

namespace Capture
variable [CaseMaps] (c : Capture) (candidates : List EventCandidate) (now : Int)

/-- The matcher takes `b` for a market that is not skipped. -/
structure Takes (market : MatchOdds) (b : Survivor) (kickoff : Int) : Prop where
  starts : market.kickoff = some kickoff
  future : now < kickoff
  home : market.home ≠ []
  away : market.away ≠ []
  posed : (c.query market kickoff).wellPosed
  leads : (c.query market kickoff).Leads candidates b
  kept : ¬ (c.query market kickoff).Refused candidates b

/-- Every row and every verdict of a role of `b` has the price of the runner aligned with it. -/
structure RightSide (market : MatchOdds) (b : Survivor) : Prop where
  rows : ∀ role row, c.rowFor (market, b.cand) now role = some row →
    market.price (role.aligned b.swapped) = some row.decimalOdds
  verdicts : ∀ look reference, c.referenceOdds = some look →
    look b.cand.ref = some reference → ∀ v ∈ c.verdictsFor market reference now b.cand.ref,
      v.apiPrice = market.price (v.selectionRole.aligned b.swapped) ∧
      v.inlinePrice = reference.back v.selectionRole

/-- A cycle emits match odds and verdicts for the markets that are taken only, and each on the right
side. -/
structure KeepsSides (odds : List MatchOdds) (report : ShadowReport)
    (verdicts : List AnchorVerdict) : Prop where
  rows : ∀ s ∈ report.snapshots, s.market = .h2h → ∃ market ∈ odds, ∃ b kickoff role,
    c.Takes candidates now market b kickoff ∧ c.rowFor (market, b.cand) now role = some s
  verdicts : ∀ v ∈ verdicts, ∃ market ∈ odds, ∃ b kickoff look reference,
    c.Takes candidates now market b kickoff ∧
    c.referenceOdds = some look ∧ look b.cand.ref = some reference ∧
      v ∈ c.verdictsFor market reference now b.cand.ref
  sides : ∀ market ∈ odds, ∀ b kickoff, c.Takes candidates now market b kickoff →
    c.RightSide now market b

/-- A market that is taken the other way round has one price for both sides. -/
def SwapsLevel (odds : List MatchOdds) : Prop :=
  ∀ market ∈ odds, ∀ b kickoff, c.Takes candidates now market b kickoff → b.swapped →
    market.price .home = market.price .away

variable {c candidates now} {market : MatchOdds} {b : Survivor} {kickoff : Int}

theorem hitOf_iff {hit : Hit} :
    c.hitOf candidates now market = some hit ↔
      ∃ b kickoff, c.Takes candidates now market b kickoff ∧ hit = (market, b.cand) := by
  unfold hitOf
  cases starts : market.kickoff with
  | none =>
    simp only [reduceCtorEq, false_iff]
    rintro ⟨b, kickoff, takes, -⟩
    cases starts.symm.trans takes.starts
  | some kickoff =>
    dsimp only
    split
    · rename_i skipped
      simp only [reduceCtorEq, false_iff]
      rintro ⟨b, kickoff', takes, -⟩
      cases starts.symm.trans takes.starts
      obtain home | away | begun := skipped
      · exact takes.home home
      · exact takes.away away
      · exact absurd takes.future (not_lt.mpr begun)
    · rename_i usable
      simp only [not_or, not_le] at usable
      simp only [Option.map_eq_some_iff, accepts_iff]
      constructor
      · rintro ⟨outcome, ⟨posed, b, leads, kept, rfl⟩, rfl⟩
        exact ⟨b, kickoff,
          ⟨starts, usable.2.2, usable.1, usable.2.1, posed, leads, kept⟩, by simp⟩
      · rintro ⟨b, kickoff', takes, rfl⟩
        cases starts.symm.trans takes.starts
        exact ⟨_, ⟨takes.posed, b, takes.leads, takes.kept, rfl⟩, by simp⟩

/-! A taken candidate has names. -/

omit [CaseMaps] in
theorem normalizeName_nil [Unicode] : normalizeName [] = [] := rfl

omit [CaseMaps] in
theorem stripMarkers_nil [Unicode] : stripMarkers [] = [] := by
  unfold stripMarkers
  rw [normalizeName_nil]
  dsimp only
  split <;> rfl

theorem canonical_nil : c.aliases.canonical (stripMarkers []) = [] := by
  rw [stripMarkers_nil, AliasTable.canonical, normalizeName_nil, c.aliases_named]
  rfl

omit [CaseMaps] in
theorem named_of_baseNameOk {x y : Str} (ok : baseNameOk x y) : y ≠ [] := by
  rintro rfl
  simp [baseNameOk] at ok

theorem Takes.named (takes : c.Takes candidates now market b kickoff) :
    b.cand.home ≠ [] ∧ b.cand.away ≠ [] := by
  obtain ⟨-, alive⟩ := Query.survive_of_eligible takes.leads.mem
  have some : ∃ swapped, (c.query market kickoff).oriented b.cand swapped := by
    unfold Query.survive at alive
    split at alive
    · cases alive
    split at alive
    · exact ⟨false, by assumption⟩
    split at alive
    · rename_i flipped
      exact ⟨true, (Bool.and_eq_true_iff.mp flipped).2⟩
    · cases alive
  obtain ⟨swapped, oriented⟩ := some
  simp only [Query.oriented, Query.orientedBases, Bool.and_eq_true] at oriented
  have first := named_of_baseNameOk oriented.1.2
  have second := named_of_baseNameOk oriented.2
  cases swapped with
  | false =>
    constructor
    · intro unnamed
      simp only [unnamed] at first
      exact first canonical_nil
    · intro unnamed
      simp only [unnamed] at second
      exact second canonical_nil
  | true =>
    constructor
    · intro unnamed
      simp only [unnamed] at second
      exact second canonical_nil
    · intro unnamed
      simp only [unnamed] at first
      exact first canonical_nil

theorem Takes.rightSide_iff (takes : c.Takes candidates now market b kickoff) :
    c.RightSide now market b ↔ (b.swapped → market.price .home = market.price .away) := by
  obtain ⟨home, away⟩ := takes.named
  constructor
  · intro right swapped
    have emitted (role : Role) (named : participant b.cand role ≠ []) {level : BackLevel}
        (priced : market.back role = some level) :
          market.price (role.aligned true) = some level.price := by
      have built : c.rowFor (market, b.cand) now role =
          some (c.row b.cand.ref .h2h none (participant b.cand role) level now) := by
        unfold rowFor
        simp only [priced, if_neg named]
      rw [← swapped]
      exact right.rows role _ built
    cases homeBack : market.back .home with
    | some level =>
      have cross : market.price .away = some level.price := emitted .home home homeBack
      rw [cross, MatchOdds.price, homeBack]
      rfl
    | none =>
      cases awayBack : market.back .away with
      | some level =>
        have cross : market.price .home = some level.price := emitted .away away awayBack
        rw [cross, MatchOdds.price, awayBack]
        rfl
      | none => rw [MatchOdds.price, homeBack, MatchOdds.price, awayBack]
  · intro level
    have same (role : Role) : market.price (role.aligned b.swapped) = market.price role := by
      cases swapped : b.swapped with
      | false => cases role <;> rfl
      | true => cases role <;> simp [Role.aligned, level swapped]
    constructor
    · intro role row emitted
      rw [same]
      unfold rowFor at emitted
      split at emitted
      · rename_i priced
        split at emitted
        · cases emitted
        · cases emitted
          rw [MatchOdds.price, priced]
          rfl
      · cases emitted
    · intro look reference _ _ v inside
      rw [same]
      obtain ⟨s, listed, rfl⟩ := List.mem_map.mp inside
      obtain ⟨role, -, rfl⟩ := List.mem_map.mp listed
      exact ⟨rfl, rfl⟩

/-! The reports of a cycle. -/

section Report
variable [Readers] {cycle : ApiCycle} {odds : List MatchOdds} {report : ShadowReport}
  {verdicts : List AnchorVerdict}

omit [CaseMaps] [Readers] in
theorem lineRow_market {candidate : EventCandidate} {q : LineQuote} {s : Snapshot}
    (emitted : c.lineRow candidate now q = some s) : s.market = q.kind.market := by
  unfold lineRow at emitted
  split at emitted
  · cases emitted
  · cases emitted
    rfl

omit [CaseMaps] [Readers] in
theorem hitLines_market {quotes : List LineQuote} {hit : Hit} {s : Snapshot}
    (inside : s ∈ c.hitLines quotes now hit) : s.market ≠ .h2h := by
  unfold hitLines at inside
  split at inside
  · obtain ⟨q, -, emitted⟩ := List.mem_filterMap.mp inside
    rw [lineRow_market emitted]
    cases q.kind <;> decide
  · cases inside

theorem fetched_of_captureOnce (ran : c.captureOnce cycle candidates = .ok (report, verdicts)) :
    ∃ odds, fetchMatchOdds cycle.catalogue cycle.books = .ok odds := by
  unfold captureOnce at ran
  obtain ⟨odds, fetched, -⟩ := bind_ok.mp ran
  exact ⟨odds, fetched⟩

theorem captureOnce_plain (plain : c.extendedMarkets = false)
    (fetched : fetchMatchOdds cycle.catalogue cycle.books = .ok odds) :
    ∃ report verdicts, c.captureOnce cycle candidates = .ok (report, verdicts) := by
  unfold captureOnce
  rw [fetched]
  simp only [fetchExtendedQuotes, plain, true_or, if_true]
  exact ⟨_, _, rfl⟩

/-- What a cycle that returns has emitted. -/
theorem report_of_captureOnce (fetched : fetchMatchOdds cycle.catalogue cycle.books = .ok odds)
    (ran : c.captureOnce cycle candidates = .ok (report, verdicts)) :
    ∃ quotes failed, c.fetchExtendedQuotes cycle odds
      (matchedEventIds (c.hits candidates cycle.observedAt odds)) = .ok (quotes, failed) ∧
      report.snapshots =
        (c.hits candidates cycle.observedAt odds).flatMap
        (fun hit => c.snapshotsFor hit cycle.observedAt) ++
          (c.hits candidates cycle.observedAt odds).flatMap
            (c.hitLines quotes (if quotes = [] then cycle.observedAt else cycle.extObservedAt)) ∧
      verdicts = c.verdicts (c.hits candidates cycle.observedAt odds) cycle.observedAt := by
  unfold captureOnce at ran
  obtain ⟨odds', again, ran⟩ := bind_ok.mp ran
  obtain rfl := Except.ok.inj (again.symm.trans fetched)
  obtain ⟨⟨quotes, failed⟩, read, ran⟩ := bind_ok.mp ran
  cases ran
  exact ⟨quotes, failed, read, rfl, rfl⟩

omit [Readers] in
theorem taken_of_hit {hit : Hit} (inside : hit ∈ c.hits candidates now odds) :
    ∃ market ∈ odds, ∃ b kickoff, c.Takes candidates now market b kickoff ∧
      hit = (market, b.cand) := by
  obtain ⟨market, listed, found⟩ := List.mem_filterMap.mp inside
  obtain ⟨b, kickoff, takes, rfl⟩ := hitOf_iff.mp found
  exact ⟨market, listed, b, kickoff, takes, rfl⟩

omit [CaseMaps] [Readers] in
theorem mem_compared {hits : List Hit} {x : Hit × ReferenceOdds} (inside : x ∈ c.compared hits) :
    ∃ look, c.referenceOdds = some look ∧ x.1 ∈ hits ∧ look x.1.2.ref = some x.2 := by
  unfold compared at inside
  split at inside
  · rename_i look wired
    obtain ⟨hit, listed, found⟩ := List.mem_filterMap.mp inside
    obtain ⟨reference, known, rfl⟩ := Option.map_eq_some_iff.mp found
    exact ⟨look, wired, listed, known⟩
  · cases inside

/-- The prices of a cycle stay on the right side exactly where no market with two prices is swapped.
-/
theorem keepsSides_iff (fetched : fetchMatchOdds cycle.catalogue cycle.books = .ok odds)
    (ran : c.captureOnce cycle candidates = .ok (report, verdicts)) :
    c.KeepsSides candidates cycle.observedAt odds report verdicts ↔
      c.SwapsLevel candidates cycle.observedAt odds := by
  obtain ⟨quotes, failed, -, rows, sent⟩ := report_of_captureOnce fetched ran
  constructor
  · intro keeps market listed b kickoff takes
    exact takes.rightSide_iff.mp (keeps.sides market listed b kickoff takes)
  · intro level
    constructor
    · intro s inside h2h
      rw [rows] at inside
      obtain emitted | line := List.mem_append.mp inside
      · obtain ⟨hit, taken, emitted⟩ := List.mem_flatMap.mp emitted
        obtain ⟨market, listed, b, kickoff, takes, rfl⟩ := taken_of_hit taken
        obtain ⟨role, -, emitted⟩ := List.mem_filterMap.mp emitted
        exact ⟨market, listed, b, kickoff, role, takes, emitted⟩
      · obtain ⟨hit, -, line⟩ := List.mem_flatMap.mp line
        exact absurd h2h (hitLines_market line)
    · intro v inside
      rw [sent] at inside
      obtain ⟨⟨hit, reference⟩, compared, given⟩ := List.mem_flatMap.mp inside
      obtain ⟨look, wired, taken, known⟩ := mem_compared compared
      obtain ⟨market, listed, b, kickoff, takes, rfl⟩ := taken_of_hit taken
      exact ⟨market, listed, b, kickoff, look, reference, takes, wired, known, given⟩
    · intro market listed b kickoff takes
      exact takes.rightSide_iff.mpr (level market listed b kickoff takes)

end Report
end Capture

/-! A market whose first runner is the second of the candidate. -/

def lysRunner (selection : Int) (price : ℚ) : Json :=
  object [("selectionId", .int selection),
    ("ex", object [("availableToBack", .arr [object [("price", number price)]])])]

def lysCycle (lysPrice udvardyPrice : ℚ) : ApiCycle where
  catalogue :=
    [{ marketId := "1.9".toList
       eventId := "30".toList
       competition := []
       marketStartTime := some (hours 12)
       runners := [⟨611, "Eva Lys".toList, 1, none⟩,
         ⟨622, "Panna Udvardy".toList, 2, none⟩] }]
  books :=
    [object [("marketId", .str "1.9".toList), ("status", .str "OPEN".toList),
      ("inplay", .bool false),
      ("runners", .arr [lysRunner 611 lysPrice, lysRunner 622 udvardyPrice])]]
  observedAt := 0
  extended := none
  extObservedAt := 0

def lysGame : EventCandidate :=
  ⟨"udvardy-v-lys".toList, "Panna Udvardy".toList, "Eva Lys".toList, hours 12⟩

theorem unaliased : AliasTable.empty.aliasToCanon.get? [] = none := rfl

/-- Tennis is matched without an order. -/
def tennisCapture : Capture where
  aliases := .empty
  aliases_named := unaliased
  ordered := false

/-- What the matcher is asked for the market of `lysCycle`. -/
def lysQuery : Query where
  home := "Eva Lys".toList
  away := "Panna Udvardy".toList
  kickoff := hours 12
  aliases := .empty
  ordered := false

/-- What a market of a cycle says of its two sides. -/
structure TwoSided where
  home : Str
  away : Str
  kickoff : Option Int
  homePrice : Option ℚ
  awayPrice : Option ℚ
  deriving DecidableEq

def twoSided (m : MatchOdds) : TwoSided :=
  ⟨m.home, m.away, m.kickoff, m.price .home, m.price .away⟩

def lysSides (price price' : ℚ) : TwoSided :=
  ⟨"Eva Lys".toList, "Panna Udvardy".toList, some (hours 12), some price, some price'⟩

def readOdds (cycle : ApiCycle) : Option (List TwoSided) :=
  (@fetchMatchOdds (Readers.table []) .ascii cycle.catalogue cycle.books).toOption.map
    (List.map twoSided)

theorem lys_read {price price' : ℚ}
    (read : readOdds (lysCycle price price') = some [lysSides price price']) :
    ∃ market, @fetchMatchOdds (Readers.table []) .ascii (lysCycle price price').catalogue
        (lysCycle price price').books = .ok [market] ∧
        twoSided market = lysSides price price' := by
  obtain ⟨odds, fetched, listed⟩ := Option.map_eq_some_iff.mp read
  obtain ⟨market, rest, rfl, same, none⟩ := List.map_eq_cons_iff.mp listed
  obtain rfl := List.map_eq_nil_iff.mp none
  exact ⟨market, ok_of_toOption fetched, same⟩

/-- The first player's price goes to the second player's row. -/
theorem keepsSides_fails :
    ∃ odds report verdicts, @fetchMatchOdds (Readers.table []) .ascii
      (lysCycle (9 / 5) (11 / 5)).catalogue (lysCycle (9 / 5) (11 / 5)).books = .ok odds ∧
      @Capture.captureOnce tennisCapture (Readers.table []) .ascii (lysCycle (9 / 5) (11 / 5))
        [lysGame] = .ok (report, verdicts) ∧
        ¬ @Capture.KeepsSides .ascii tennisCapture [lysGame] 0 odds report verdicts := by
  obtain ⟨market, fetched, read⟩ := @lys_read (9 / 5) (11 / 5) (by decide +kernel)
  obtain ⟨home, away, starts, first, second⟩ := TwoSided.mk.inj read
  have asked : tennisCapture.query market (hours 12) = lysQuery := by
    rw [Capture.query, home, away]
    rfl
  have accepts : (@matchEventHardenedScored CaseMaps.ascii.toUnicode lysQuery [lysGame]).1 =
      some ⟨lysGame, 1, .exactCanonical⟩ := by decide +kernel
  have only : @Query.eligible CaseMaps.ascii.toUnicode lysQuery [lysGame] =
    [⟨2, lysGame, true⟩] := by decide +kernel
  obtain ⟨posed, b, leads, kept, -⟩ := (@accepts_iff CaseMaps.ascii.toUnicode _ _ _).mp accepts
  have swapped : b = ⟨2, lysGame, true⟩ := List.mem_singleton.mp (only ▸ leads.mem)
  have takes : @Capture.Takes .ascii tennisCapture [lysGame] 0 market b (hours 12) :=
    @Capture.Takes.mk .ascii _ _ _ _ _ _ starts (by
      decide) (home ▸ (by decide : "Eva Lys".toList ≠ []))
      (away ▸ (by decide : "Panna Udvardy".toList ≠ [])) (asked ▸ posed)
        (asked ▸ leads) (asked ▸ kept)
  obtain ⟨report, verdicts, ran⟩ :=
    @Capture.captureOnce_plain .ascii tennisCapture [lysGame] (Readers.table []) _ _ rfl fetched
  refine ⟨[market], report, verdicts, fetched, ran, fun keeps => ?_⟩
  have right := @Capture.KeepsSides.sides .ascii _ _ _ _ _ _ keeps market
    (List.mem_singleton_self _) b _ takes
  have level := (@Capture.Takes.rightSide_iff .ascii _ _ _ _ _ _ takes).mp right (swapped ▸ rfl)
  rw [first, second] at level
  exact absurd level (by decide +kernel)

theorem keepsSides_level :
    ∃ odds report verdicts, @fetchMatchOdds (Readers.table []) .ascii (lysCycle 2 2).catalogue
        (lysCycle 2 2).books = .ok odds ∧
      @Capture.captureOnce tennisCapture (Readers.table []) .ascii (lysCycle 2 2) [lysGame] = .ok
        (report, verdicts) ∧
        @Capture.KeepsSides .ascii tennisCapture [lysGame] 0 odds report verdicts := by
  obtain ⟨market, fetched, read⟩ := @lys_read 2 2 (by decide +kernel)
  obtain ⟨-, -, -, first, second⟩ := TwoSided.mk.inj read
  obtain ⟨report, verdicts, ran⟩ :=
    @Capture.captureOnce_plain .ascii tennisCapture [lysGame] (Readers.table []) _ _ rfl fetched
  refine ⟨[market], report, verdicts, fetched, ran, ?_⟩
  refine (@Capture.keepsSides_iff .ascii tennisCapture [lysGame] (Readers.table []) _ _ _ _ fetched
    ran).mpr ?_
  intro market' listed b kickoff _ _
  rw [List.mem_singleton.mp listed, first, second]

end SharpEvPicks.Ingestion
