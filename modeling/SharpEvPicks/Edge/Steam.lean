import SharpEvPicks.Edge.Odds
import SharpEvPicks.Python.Rounding
import SharpEvPicks.Python.Sorting
import SharpEvPicks.Schemas

/-! How prices moved before a bet, `app/edge/steam.py`. -/
namespace SharpEvPicks.Edge.Steam

open Python

/-- When a price was captured, and the price. -/
abbrev TrajectoryPoint := Int × ℚ

structure SteamPolicy where
  enabled : Bool := false
  lookbackSeconds : ℚ := 21600
  minPoints : Int := 2
  softTowardAnchorCloseFrac : ℚ := 1 / 2
  minInitialGap : ℚ := 1 / 100
  anchorStalenessSeconds : ℚ := 7200
  softSteamAwayDelta : ℚ := 4 / 100
  demoteOnSoftSteam : Bool := false

structure SteamVerdict where
  softTowardAnchor : Bool
  staleAnchor : Bool
  softSteamed : Bool
  tripped : Bool
  reasons : List Str
  closedFraction : Option ℚ
  anchorAgeSeconds : Option ℚ
  softMove : Option ℚ
  deriving DecidableEq

inductive SteamError where
  | degeneratePrice | noPoint | zeroDivision
  deriving DecidableEq

def impliedProb (odds : ℚ) : Except SteamError ℚ :=
  if odds ≤ 1 then .error .degeneratePrice else .ok (1 / odds)

/-- `now - timedelta(seconds=lookback_seconds)`. -/
def windowStart (now : Int) (lookbackSeconds : ℚ) : Int :=
  now - roundHalfEven (lookbackSeconds * seconds 1)

def inWindow (now : Int) (lookbackSeconds : ℚ) (t : Int) : Bool :=
  windowStart now lookbackSeconds ≤ t && t ≤ now

/-- `_window`. -/
def window (trajectory : List TrajectoryPoint) (now : Int) (lookbackSeconds : ℚ) :
    List TrajectoryPoint :=
  sortedBy Prod.fst (trajectory.filter fun p => inWindow now lookbackSeconds p.1 && 1 < p.2)

/-- The first and the last price of a series. -/
def endPrices (series : List TrajectoryPoint) : Option (ℚ × ℚ) :=
  series.head?.bind fun first => series.getLast?.map fun last => (first.2, last.2)

/-- The share of the opening gap that has closed, and whether it is enough. -/
def convergence (policy : SteamPolicy) (pFillOpen pFillNow : ℚ) :
    Option (ℚ × ℚ) → Except SteamError (Option ℚ × Bool)
  | none => .ok (none, false)
  | some (anchorOpen, anchorNow) => do
    let pAnchorOpen ← impliedProb anchorOpen
    let pAnchorNow ← impliedProb anchorNow
    let gapOpen := pAnchorOpen - pFillOpen
    let gapNow := pAnchorNow - pFillNow
    if policy.minInitialGap ≤ gapOpen then
      if gapOpen = 0 then .error .zeroDivision
      else
        let closedFraction := (gapOpen - gapNow) / gapOpen
        pure (some closedFraction,
          decide (gapNow < gapOpen) && decide (policy.softTowardAnchorCloseFrac ≤ closedFraction))
    else pure (none, false)

structure Movement where
  softMove : Option ℚ := none
  steamed : Bool := false
  closedFraction : Option ℚ := none
  toward : Bool := false

def movement (policy : SteamPolicy) (anchor : Option (ℚ × ℚ)) :
    Option (ℚ × ℚ) → Except SteamError Movement
  | none => .error .noPoint
  | some (fillOpen, fillNow) => do
    let pFillOpen ← impliedProb fillOpen
    let pFillNow ← impliedProb fillNow
    let softMove := pFillNow - pFillOpen
    let (closedFraction, toward) ← convergence policy pFillOpen pFillNow anchor
    pure
      { softMove := some softMove
        steamed := decide (policy.softSteamAwayDelta ≤ -softMove)
        closedFraction := closedFraction
        toward := toward }

def reasonIf (holds : Bool) (reason : String) : List Str := if holds then [reason.toList] else []

/-- What a verdict reads of the two series. -/
structure Reading where
  fillPoints : Nat
  fill : Option (ℚ × ℚ)
  anchor : Option (ℚ × ℚ)
  anchorSeen : Option Int

def judge (now : Int) (policy : SteamPolicy) (reading : Reading) :
    Except SteamError SteamVerdict := do
  let anchorAge := reading.anchorSeen.map fun t => ((now - t : Int) : ℚ) / seconds 1
  let stale := !anchorAge.any (· ≤ policy.anchorStalenessSeconds)
  let moved ←
    if policy.minPoints ≤ reading.fillPoints then movement policy reading.anchor reading.fill
      else .ok {}
  pure
    { softTowardAnchor := moved.toward
      staleAnchor := stale
      softSteamed := moved.steamed
      tripped := moved.toward || stale || (moved.steamed && policy.demoteOnSoftSteam)
      reasons := reasonIf stale "stale_anchor" ++ reasonIf moved.steamed "soft_steamed_away" ++
        reasonIf moved.toward "soft_toward_anchor"
      closedFraction := moved.closedFraction
      anchorAgeSeconds := anchorAge
      softMove := moved.softMove }

def readSeries (fill anchor : List TrajectoryPoint) : Reading where
  fillPoints := fill.length
  fill := endPrices fill
  anchor := endPrices anchor
  anchorSeen := anchor.getLast?.map Prod.fst

def evaluateSteam (fillTrajectory anchorTrajectory : List TrajectoryPoint) (now : Int)
    (policy : SteamPolicy) : Except SteamError SteamVerdict :=
  judge now policy (readSeries (window fillTrajectory now policy.lookbackSeconds)
    (window anchorTrajectory now policy.lookbackSeconds))

/-! Series from snapshots. -/

/-- `_SnapshotLike`. -/
structure SnapshotLike where
  eventId : Str
  bookmaker : Str
  market : Market
  selection : Str
  decimalOdds : ℚ
  marketDetail : Option Str
  capturedAt : Int
  deriving DecidableEq

structure TrajectoryKey where
  eventId : Str
  market : Market
  marketDetail : Option Str
  deriving DecidableEq

abbrev MarketTrajectories := Dict (Str × Str) (List TrajectoryPoint)

def SnapshotLike.key (s : SnapshotLike) : TrajectoryKey := ⟨s.eventId, s.market, s.marketDetail⟩

def SnapshotLike.point (s : SnapshotLike) : TrajectoryPoint := (s.capturedAt, s.decimalOdds)

section
variable [Unicode]

def SnapshotLike.selBook (s : SnapshotLike) : Str × Str := (s.selection, norm s.bookmaker)

def buildTrajectories (snapshots : List SnapshotLike) (now : Int) (lookbackSeconds : ℚ) :
    Dict TrajectoryKey MarketTrajectories :=
  let out := (snapshots.filter fun s => inWindow now lookbackSeconds s.capturedAt &&
    !decide (s.decimalOdds ≤ 1)).foldl (fun out s => out.modify s.key fun market =>
      (market.getD Dict.empty).modify s.selBook fun series =>
        series.getD [] ++ [s.point]) Dict.empty
  out.mapValues fun _ market => market.mapValues fun _ series => sortedBy Prod.fst series

def lookupTrajectory (trajectories : MarketTrajectories) (selection book : Str) :
    List TrajectoryPoint :=
  (trajectories.get? (selection, norm book)).getD []

/-- A bet that is judged: its market and selection, the book it is placed at and the one it is
priced by. -/
structure Candidate where
  key : TrajectoryKey
  selection : Str
  fillBook : Str
  anchorBook : Str

/-- The verdict of `run_value_pipeline` on a candidate. -/
def steamVerdict (snapshots : List SnapshotLike) (now : Int) (policy : SteamPolicy)
    (c : Candidate) : Except SteamError SteamVerdict :=
  let trajectories :=
    ((buildTrajectories snapshots now policy.lookbackSeconds).get? c.key).getD Dict.empty
  evaluateSteam (lookupTrajectory trajectories c.selection c.fillBook)
    (lookupTrajectory trajectories c.selection c.anchorBook) now policy

/-! What a series holds. -/

/-- The rows of one series. -/
def inSeries (now : Int) (lookbackSeconds : ℚ) (key : TrajectoryKey) (selection book : Str)
    (s : SnapshotLike) : Bool :=
  inWindow now lookbackSeconds s.capturedAt && 1 < s.decimalOdds && s.key = key &&
    s.selBook = (selection, norm book)

def series (snapshots : List SnapshotLike) (now : Int) (lookbackSeconds : ℚ) (key : TrajectoryKey)
    (selection book : Str) : List TrajectoryPoint :=
  (snapshots.filter (inSeries now lookbackSeconds key selection book)).map SnapshotLike.point

omit [Unicode] in
theorem getD_foldl_some {α δ : Type} (g : δ → α → δ) (d : δ) (l : List α)
    (v : Option δ) :
    (l.foldl (fun v x => some (g (v.getD d) x)) v).getD d = l.foldl g (v.getD d) := by
  induction l generalizing v with
  | nil => rfl
  | cons x l ih => rw [List.foldl_cons, ih, Option.getD_some, List.foldl_cons]

theorem lookup_sorted (market : Option MarketTrajectories) (selection book : Str) :
    lookupTrajectory ((market.map fun market => market.mapValues fun _ series =>
      sortedBy Prod.fst series).getD Dict.empty) selection book =
        sortedBy Prod.fst (((market.getD Dict.empty).get? (selection, norm book)).getD []) := by
  unfold lookupTrajectory
  cases market with
  | none => rfl
  | some market =>
    rw [Option.map_some, Option.getD_some, Option.getD_some, Dict.get?_mapValues]
    cases market.get? (selection, norm book) with
    | none => rfl
    | some points => rfl

theorem lookup_buildTrajectories (snapshots : List SnapshotLike) (now : Int) (lookbackSeconds : ℚ)
    (key : TrajectoryKey) (selection book : Str) :
    lookupTrajectory (((buildTrajectories snapshots now lookbackSeconds).get? key).getD Dict.empty)
      selection book =
      sortedBy Prod.fst (series snapshots now lookbackSeconds key selection book) := by
  unfold buildTrajectories
  simp only [Dict.get?_mapValues, lookup_sorted]
  congr 1
  rw [Dict.get?_foldl_modify SnapshotLike.key fun market s =>
    (market.getD Dict.empty).modify s.selBook fun series => series.getD [] ++ [s.point],
      Dict.get?_empty,
    getD_foldl_some (fun (market : MarketTrajectories) (s : SnapshotLike) =>
      market.modify s.selBook fun series => series.getD [] ++ [s.point]), Option.getD_none,
    Dict.getD_get?_foldl_append SnapshotLike.selBook SnapshotLike.point, List.filter_filter,
      List.filter_filter]
  unfold series
  congr 1
  apply List.filter_congr
  intro s _
  have sane : (!decide (s.decimalOdds ≤ 1)) = decide (1 < s.decimalOdds) := by
    rw [← decide_not, decide_eq_decide]
    exact not_le
  rw [inSeries, sane]
  simp only [Bool.and_assoc, Bool.and_comm]

/-- The second filter and the second sort change nothing. -/
theorem window_series (snapshots : List SnapshotLike) (now : Int) (lookbackSeconds : ℚ)
    (key : TrajectoryKey) (selection book : Str) :
    window (sortedBy Prod.fst (series snapshots now lookbackSeconds key selection book)) now
      lookbackSeconds =
      sortedBy Prod.fst (series snapshots now lookbackSeconds key selection book) := by
  unfold window
  rw [List.filter_eq_self.mpr]
  · exact List.Pairwise.insertionSort_eq (sortedBy_pairwise _ _)
  · intro p inside
    obtain ⟨s, listed, rfl⟩ := List.mem_map.mp (mem_sortedBy.mp inside)
    have kept := (List.mem_filter.mp listed).2
    simp only [inSeries, Bool.and_eq_true] at kept
    exact Bool.and_eq_true_iff.mpr kept.1.1

theorem steamVerdict_eq (snapshots : List SnapshotLike) (now : Int) (policy : SteamPolicy)
    (c : Candidate) :
    steamVerdict snapshots now policy c =
      judge now policy (readSeries
        (sortedBy Prod.fst
          (series snapshots now policy.lookbackSeconds c.key c.selection c.fillBook))
        (sortedBy Prod.fst
          (series snapshots now policy.lookbackSeconds c.key c.selection c.anchorBook))) := by
  unfold steamVerdict evaluateSteam
  simp only [lookup_buildTrajectories, window_series]

end
end SharpEvPicks.Edge.Steam
