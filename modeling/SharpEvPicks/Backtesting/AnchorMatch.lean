import SharpEvPicks.Backtesting.ArcadiaAnchor
import SharpEvPicks.Resolution.Matching

/-! The validation join of `app/backtesting/arcadia_anchor.py`: `match_anchor_to_fixture` and
`attach_arcadia_anchor`. -/
namespace SharpEvPicks.Backtesting.Arcadia

open Python Resolution Ingestion

def validationKickoffWindow : Int := 60

structure ValidationFixture where
  sport : Str
  league : Str
  home : Str
  away : Str
  kickoff : Int
  marketType : Str
  period : Str
  line : Option ℚ
  selection : Str

section Names
variable [Unicode]

/-- `_country_token`. -/
def countryToken (league : Str) : Option Str :=
  (partition " - ".toList league).bind fun parts =>
    if normalizeName parts.1 = [] then none else some (normalizeName parts.1)

/-- A one-sided marker, or two countries. -/
def vetoed (fixture : ValidationFixture) (r : AnchorRow) : Bool :=
  distinguishingMarkers r.home ≠ distinguishingMarkers fixture.home ||
    distinguishingMarkers r.away ≠ distinguishingMarkers fixture.away ||
    match countryToken r.league, countryToken fixture.league with
    | some rc, some fc => rc ≠ fc
    | _, _ => false

/-- What is asked of the matcher: orientation locked, and the tight window. -/
def ValidationFixture.query (fixture : ValidationFixture) (aliases : AliasTable) : Query where
  home := fixture.home
  away := fixture.away
  kickoff := fixture.kickoff
  aliases := aliases
  ordered := true
  maxMinuteDrift := validationKickoffWindow
  maxAcceptMinuteDrift := validationKickoffWindow
  allowOrientationFlip := false

def AnchorRow.candidate (r : AnchorRow) (kickoff : Int) : EventCandidate :=
  ⟨intText r.sourceEventId, r.home, r.away, kickoff⟩

/-! The matcher. -/

def poolOf (fixture : ValidationFixture) (anchorRows : List AnchorRow) : List AnchorRow :=
  anchorRows.filter fun r => r.usable && r.role = .anchor && r.sport = fixture.sport

def candidatesOf (fixture : ValidationFixture) (pool : List AnchorRow) : List AnchorRow :=
  pool.filter fun r => r.marketType = fixture.marketType && r.period = fixture.period &&
    r.line = fixture.line && r.selection = fixture.selection

/-- Why a pool has no candidate. -/
def noCandidate (fixture : ValidationFixture) (pool : List AnchorRow) : Rejection :=
  if pool.any fun r => r.marketType ≠ fixture.marketType then .marketMismatch
  else if pool.any fun r => r.marketType = fixture.marketType && r.line ≠ fixture.line then
    .lineMismatch
  else if pool.any fun r => r.marketType = fixture.marketType && r.line = fixture.line &&
    r.selection ≠ fixture.selection then
    .selectionMismatch
  else .anchorMissing

variable [Readers]

/-- The kick-off of a row; `none` is a `ValueError`, or the `TypeError` of a time without an offset.
-/
def AnchorRow.kickoff (r : AnchorRow) : Option Int :=
  (Readers.fromisoformat (replace "Z".toList "+00:00".toList r.eventStartTimeUtc)).bind fun time =>
    time.offset.map fun offset => time.fields - offset

/-- The rows accepted so far by their events, and whether one was in the window. -/
structure Considered where
  accepted : Dict Int AnchorRow
  anyInWindow : Bool

def consider (aliases : AliasTable) (fixture : ValidationFixture) (state : Considered)
    (r : AnchorRow) : Option Considered :=
  r.kickoff.map fun kickoff =>
    if minutes validationKickoffWindow < |kickoff - fixture.kickoff| then state
    else if vetoed fixture r then { state with anyInWindow := true }
    else if (matchEventHardenedScored (fixture.query aliases) [r.candidate kickoff]).1.isSome then
      ⟨state.accepted.set r.sourceEventId r, true⟩
    else { state with anyInWindow := true }

/-- The one row accepted, or why there is none. -/
def soleAccepted (accepted : List AnchorRow) (anyInWindow : Bool) : Except Rejection AnchorRow :=
  match accepted with
  | [] => .error (if anyInWindow then .eventUnmatched else .kickoffOutOfWindow)
  | [r] => .ok r
  | _ => .error .eventAmbiguous

/-- The row for the fixture, or why there is none; `none` is an exception. -/
def matchAnchorToFixture (aliases : AliasTable) (fixture : ValidationFixture)
    (anchorRows : List AnchorRow) : Option (Except Rejection AnchorRow) :=
  let pool := poolOf fixture anchorRows
  let candidates := candidatesOf fixture pool
  if candidates = [] then some (.error (noCandidate fixture pool))
  else
    (candidates.foldlM (consider aliases fixture) ⟨Dict.empty, false⟩).map fun state =>
      soleAccepted state.accepted.values state.anyInWindow

end Names

/-! The join. -/

inductive Cell where
  | text (s : Option Str)
  | int (n : Int)
  | float (x : PyFloat)

abbrev FixtureRow := Dict Str Cell

structure Attachment where
  rows : List FixtureRow
  attached : Nat
  reasons : Dict Rejection Nat

section Join
variable [Unicode] [Readers]
-- `float(Decimal(text))`, and the fixture of a row for a selection
variable (floatOf : Str → PyFloat)
  (fixtureBuilder : FixtureRow → Str → Option ValidationFixture)

/-- The rows picked for the selections, up to the first that has none. -/
def pickAll (aliases : AliasTable) (anchorRows : List AnchorRow) (row : FixtureRow) :
    List Str → Option (Except Rejection (List AnchorRow))
  | [] => some (.ok [])
  | selection :: rest =>
    match fixtureBuilder row selection with
    | none => some (.error .anchorMissing)
    | some fixture =>
      match matchAnchorToFixture aliases fixture anchorRows with
      | none => none
      | some (.error reason) => some (.error reason)
      | some (.ok r) => (pickAll aliases anchorRows row rest).map (Except.map (r :: ·))

/-- The picks, when they are all of one event. -/
def sameEvent (picked : List AnchorRow) : Except Rejection (List AnchorRow) :=
  if (picked.map AnchorRow.sourceEventId).toFinset.card = 1 then .ok picked
    else .error .eventAmbiguous

def cleared (columnMap : Dict Str Str) (row : FixtureRow) : FixtureRow :=
  columnMap.values.foldl (fun row col => row.pop col) row

def eventColumn : Str := "_arcadia_anchor_event_id".toList

def methodColumn : Str := "_arcadia_anchor_method".toList

/-- The prices of the picks and, after them, where they come from. -/
def withAnchors (columnMap : Dict Str Str) (row : FixtureRow) (picked : List AnchorRow) :
    FixtureRow :=
  let priced := (columnMap.values.zip picked).foldl (fun row pick =>
    row.set pick.1 (.float (floatOf pick.2.price))) row
  match picked with
  | [] => priced
  | first :: _ =>
    let method := first.matchMethod.getD []
    (priced.set eventColumn (.int first.sourceEventId)).set methodColumn
      (.text (some (if method = [] then "hardened".toList else method)))

/-- A row after the join, and why it was rejected. -/
def settled (columnMap : Dict Str Str) (row : FixtureRow) : Except Rejection (List AnchorRow) →
    FixtureRow × Option Rejection
  | .ok picked => (withAnchors floatOf columnMap row picked, none)
  | .error reason => (cleared columnMap row, some reason)

def attachRow (aliases : AliasTable) (columnMap : Dict Str Str) (anchorRows : List AnchorRow)
    (row : FixtureRow) : Option (FixtureRow × Option Rejection) :=
  (pickAll fixtureBuilder aliases anchorRows row columnMap.keys).map fun picked =>
    settled floatOf columnMap row (picked.bind sameEvent)

/-- `Counter`. -/
def counted (reasons : List Rejection) : Dict Rejection Nat :=
  reasons.foldl (fun counts reason => counts.modify reason fun n => n.getD 0 + 1) Dict.empty

def attachArcadiaAnchor (aliases : AliasTable) (columnMap : Dict Str Str)
    (fixturesRows : List FixtureRow) (anchorRows : List AnchorRow) : Option Attachment :=
  (fixturesRows.mapM (attachRow floatOf fixtureBuilder aliases columnMap anchorRows)).map
      fun passes =>
    { rows := passes.map Prod.fst
      attached := passes.countP fun pass => pass.2 = none
      reasons := counted (passes.filterMap Prod.snd) }

end Join

end SharpEvPicks.Backtesting.Arcadia
