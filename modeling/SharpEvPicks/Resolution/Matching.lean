import Mathlib.Data.Char
import Mathlib.Data.List.Lex
import Mathlib.Data.Prod.Lex
import SharpEvPicks.Python.Rounding
import SharpEvPicks.Python.Sorting
import SharpEvPicks.Resolution.Aliases
import SharpEvPicks.Resolution.Similarity
import SharpEvPicks.Schemas

/-! Matching one event across sources, `app/resolution/matching.py`. -/
namespace SharpEvPicks.Resolution

open Python

structure EventCandidate where
  ref : Str
  home : Str
  away : Str
  kickoff : Int
  deriving DecidableEq, Repr

/-- The arguments of `match_event_hardened_scored` but for the candidates. -/
structure Query where
  home : Str
  away : Str
  kickoff : Int
  aliases : AliasTable
  ordered : Bool := true
  league : Option Str := none
  candidateLeagues : Dict Str Str := Dict.empty
  maxMinuteDrift : Int := 360
  maxAcceptMinuteDrift : Int := 360
  allowOrientationFlip : Bool := false

def jwAccept : ℚ := 92 / 100
def tokenSortAccept : ℚ := 90
def jwReviewFloor : ℚ := 84 / 100
def ambiguityMargin : ℚ := 4 / 100

/-- `_DUPLICATE_CAPTURE_SECONDS`. -/
def duplicateCapture : Int := minutes 360

def wnbaRoster : List String :=
  ["Atlanta Dream", "Chicago Sky", "Connecticut Sun", "Dallas Wings", "Golden State Valkyries",
    "Indiana Fever", "Las Vegas Aces", "Los Angeles Sparks", "Minnesota Lynx", "New York Liberty",
    "Phoenix Mercury", "Portland Fire", "Seattle Storm", "Toronto Tempo", "Washington Mystics"]

def disambiguatingTokens : List Str :=
  ["united", "city", "town", "rovers", "athletic", "atletico", "wanderers", "albion", "county",
    "sociedad", "real", "inter", "internazionale", "sporting", "racing", "dynamo", "dinamo",
    "lokomotiv", "spartak", "zenit", "central", "nacional", "junior", "juniors", "north", "south",
    "east", "west", "b", "ii"].map String.toList

section Names
variable [Unicode]

/-! Markers. -/

def markersConflict (home away candHome candAway : Str) : Bool :=
  distinguishingMarkers home ≠ distinguishingMarkers candHome ||
    distinguishingMarkers away ≠ distinguishingMarkers candAway

/-- `_confirmed_wnba_canonicals`, with its check of the roster. -/
def confirmedWnbaCanonicals : List Str :=
  let canonicals := wnbaRoster.map fun team => normalizeName team.toList
  if canonicals.any (· = []) || !canonicals.Nodup then [] else canonicals

def hasLiteralWMarker (name : Str) : Bool := ['w'] ∈ split (normalizeName name)

/-- One side of `_confirmed_wnba_w_marker_exception`: the identity it resolves to,
and whether the two names differ by a `W`. -/
def wnbaSide (aliases : AliasTable) (queryName candidateName : Str) : Option (Str × Bool) :=
  let queryMarkers := distinguishingMarkers queryName
  let candidateMarkers := distinguishingMarkers candidateName
  let differ : Bool := queryMarkers ≠ candidateMarkers
  let marked := if .women ∈ queryMarkers then queryName else candidateName
  if (queryMarkers ++ candidateMarkers).any (· ≠ Marker.women) then none
  else if differ && !hasLiteralWMarker marked then none
  else
    let canonical := aliases.canonical queryName
    if canonical ≠ aliases.canonical candidateName ∨
      canonical ∉ confirmedWnbaCanonicals then none
    else some (canonical, differ)

def confirmedWnbaWMarkerException (aliases : AliasTable) (home away candHome candAway : Str) :
    Bool :=
  match wnbaSide aliases home candHome, wnbaSide aliases away candAway with
  | some (homeId, homeDiffers), some (awayId, awayDiffers) =>
    (homeDiffers || awayDiffers) && homeId ≠ awayId
  | _, _ => false

def fixtureMarkersCompatible (aliases : AliasTable) (home away candHome candAway : Str) : Bool :=
  !markersConflict home away candHome candAway ||
    confirmedWnbaWMarkerException aliases home away candHome candAway

end Names

/-! Base names. -/

/-- `str.isalpha` of one character is asked of normalized names only, which are ASCII. -/
def tennisInitial (name : Str) : Option Str :=
  let tokens := split name
  if tokens.length < 2 then none
  else tokens.getLast?.filter fun token =>
    match token with
    | [c] => c.isAlpha
    | _ => false

def initialsClash (a b : Str) : Bool :=
  match tennisInitial a, tennisInitial b with
  | some initialA, some initialB => initialA ≠ initialB
  | _, _ => false

def disambiguated (a b : Str) : Bool :=
  let diff := (split a).filter (· ∉ split b) ++ (split b).filter (· ∉ split a)
  diff ≠ [] && diff.all (· ∈ disambiguatingTokens)

def baseNameOk (a b : Str) : Bool :=
  if a = [] ∨ b = [] then false
  else if a = b then true
  else if initialsClash a b then false
  else if disambiguated a b then false
  else if jaroWinkler a b < jwReviewFloor then false
  else jwAccept ≤ jaroWinkler a b && tokenSortAccept ≤ tokenSortRatio a b

inductive SideStatus where
  | ok | jwBelowAccept | tokenSortBelowAccept
  deriving DecidableEq, Repr

def reviewSideStatus (a b : Str) : Option SideStatus :=
  if a = [] ∨ b = [] then none
  else if a = b then some .ok
  else if initialsClash a b then none
  else if disambiguated a b then none
  else if jaroWinkler a b < jwReviewFloor then none
  else if jwAccept ≤ jaroWinkler a b then
    some (if tokenSortAccept ≤ tokenSortRatio a b then .ok else .tokenSortBelowAccept)
  else some .jwBelowAccept

def pairScore (a1 a2 b1 b2 : Str) : ℚ := jaroWinkler a1 b1 + jaroWinkler a2 b2

inductive Method where
  | exactCanonical | jwTwoTier
  deriving DecidableEq, Repr

structure MatchOutcome where
  candidate : EventCandidate
  confidence : ℚ
  method : Method
  deriving DecidableEq, Repr

inductive ReviewReason where
  | jwBelowAccept | tokenSortBelowAccept | ambiguityMargin | kickoffDrift | sameTeamsKickoffSplit
  deriving DecidableEq, Repr

structure ReviewEvidence where
  queryBaseHome : Str
  queryBaseAway : Str
  candidateBaseHome : Str
  candidateBaseAway : Str
  jwHome : ℚ
  jwAway : ℚ
  tokenSortHome : ℚ
  tokenSortAway : ℚ
  kickoffDelta : Int
  deriving DecidableEq, Repr

structure MatchReviewCandidate where
  candidate : EventCandidate
  confidence : ℚ
  reason : ReviewReason
  evidence : ReviewEvidence
  deriving DecidableEq, Repr

structure Survivor where
  score : ℚ
  cand : EventCandidate
  swapped : Bool
  deriving DecidableEq, Repr

section Matcher
variable [Unicode]

def leaguesAgree (league candLeague : Option Str) : Bool :=
  match league, candLeague with
  | some l, some c => l = [] || c = [] || normalizeName l = normalizeName c
  | _, _ => true

namespace Query

def baseHome (q : Query) : Str := q.aliases.canonical (stripMarkers q.home)
def baseAway (q : Query) : Str := q.aliases.canonical (stripMarkers q.away)

def orientedBases (q : Query) (cand : EventCandidate) (swapped : Bool) : Str × Str :=
  let home := q.aliases.canonical (stripMarkers cand.home)
  let away := q.aliases.canonical (stripMarkers cand.away)
  if swapped then (away, home) else (home, away)

def oriented (q : Query) (cand : EventCandidate) (swapped : Bool) : Bool :=
  let (candHome, candAway) := if swapped then (cand.away, cand.home) else (cand.home, cand.away)
  let bases := q.orientedBases cand swapped
  fixtureMarkersCompatible q.aliases q.home q.away candHome candAway &&
    baseNameOk q.baseHome bases.1 && baseNameOk q.baseAway bases.2

def drift (q : Query) (cand : EventCandidate) : Int := |cand.kickoff - q.kickoff|

def candLeague (q : Query) (cand : EventCandidate) : Option Str := q.candidateLeagues.get? cand.ref

def inBlock (q : Query) (cand : EventCandidate) : Bool :=
  q.drift cand ≤ minutes q.maxMinuteDrift && leaguesAgree q.league (q.candLeague cand) &&
    q.aliases.canonical cand.home ≠ q.aliases.canonical cand.away

def known (league : Option Str) : Bool := league.any (· ≠ [])

def flipOk (q : Query) (cand : EventCandidate) : Bool :=
  !q.ordered || (q.allowOrientationFlip && known q.league && known (q.candLeague cand))

def scored (q : Query) (cand : EventCandidate) (swapped : Bool) : Survivor :=
  let bases := q.orientedBases cand swapped
  ⟨pairScore q.baseHome q.baseAway bases.1 bases.2, cand, swapped⟩

def survive (q : Query) (cand : EventCandidate) : Option Survivor :=
  if !q.inBlock cand then none
  else if q.oriented cand false then some (q.scored cand false)
  else if q.flipOk cand && q.oriented cand true then some (q.scored cand true)
  else none

def minSideJw (q : Query) (bases : Str × Str) : ℚ :=
  min (jaroWinkler q.baseHome bases.1) (jaroWinkler q.baseAway bases.2)

def review (q : Query) (cand : EventCandidate) (swapped : Bool) (reason : ReviewReason) :
    MatchReviewCandidate :=
  let bases := q.orientedBases cand swapped
  { candidate := cand
    confidence := q.minSideJw bases
    reason := reason
    evidence :=
      { queryBaseHome := q.baseHome
        queryBaseAway := q.baseAway
        candidateBaseHome := bases.1
        candidateBaseAway := bases.2
        jwHome := roundTo 4 (jaroWinkler q.baseHome bases.1)
        jwAway := roundTo 4 (jaroWinkler q.baseAway bases.2)
        tokenSortHome := roundTo 2 (tokenSortRatio q.baseHome bases.1)
        tokenSortAway := roundTo 2 (tokenSortRatio q.baseAway bases.2)
        kickoffDelta := q.drift cand } }

def reviewMiss (q : Query) (cand : EventCandidate) : Option MatchReviewCandidate :=
  if !q.inBlock cand || (q.survive cand).isSome then none
  else if !fixtureMarkersCompatible q.aliases q.home q.away cand.home cand.away then none
  else
    let bases := q.orientedBases cand false
    match reviewSideStatus q.baseHome bases.1, reviewSideStatus q.baseAway bases.2 with
    | some home, some away =>
      if home = .jwBelowAccept ∨ away = .jwBelowAccept then
        some (q.review cand false .jwBelowAccept)
      else if home = .tokenSortBelowAccept ∨ away = .tokenSortBelowAccept then
        some (q.review cand false .tokenSortBelowAccept)
      else none
    | _, _ => none

def sameFixture (q : Query) (x y : EventCandidate) : Bool :=
  q.aliases.canonical x.home = q.aliases.canonical y.home &&
    q.aliases.canonical x.away = q.aliases.canonical y.away

/-- The sort key `(-score, drift, ref)`. -/
def rank (q : Query) (s : Survivor) : ℚ ×ₗ Int ×ₗ Str :=
  toLex (-s.score, toLex (q.drift s.cand, s.cand.ref))

/-- The first runner of another fixture, when it is within the margin. -/
def marginRival (q : Query) (best : Survivor) : List Survivor → Option Survivor
  | [] => none
  | runner :: rest =>
    if q.sameFixture runner.cand best.cand then q.marginRival best rest
    else if best.score - runner.score < ambiguityMargin then some runner
    else none

/-- A leg of the best one's fixture too far from it to be the same game. The best
one itself, which the source skips, is at distance zero. -/
def splitLeg (q : Query) (best : Survivor) (rest : List Survivor) : Bool :=
  rest.any fun other =>
    q.sameFixture other.cand best.cand &&
      duplicateCapture < |other.cand.kickoff - best.cand.kickoff|

def accepted (q : Query) (best : Survivor) : MatchOutcome :=
  let bases := q.orientedBases best.cand best.swapped
  if q.baseHome = bases.1 ∧ q.baseAway = bases.2 then ⟨best.cand, 1, .exactCanonical⟩
  else ⟨best.cand, min 1 (max 0 (q.minSideJw bases)), .jwTwoTier⟩

/-- The decision among the candidates inside the accept window, best first. -/
def decide (q : Query) : List Survivor → Option MatchOutcome × List MatchReviewCandidate
  | [] => (none, [])
  | best :: rest =>
    match q.marginRival best rest with
    | some runner =>
      (none, [q.review best.cand best.swapped .ambiguityMargin,
        q.review runner.cand runner.swapped .ambiguityMargin])
    | none =>
      if q.splitLeg best rest then
        (none, [q.review best.cand best.swapped .sameTeamsKickoffSplit])
      else (some (q.accepted best), [])

def wellPosed (q : Query) : Bool :=
  let home := q.aliases.canonical q.home
  let away := q.aliases.canonical q.away
  home ≠ [] && away ≠ [] && home ≠ away

def survivors (q : Query) (candidates : List EventCandidate) : List Survivor :=
  candidates.filterMap q.survive

def eligible (q : Query) (candidates : List EventCandidate) : List Survivor :=
  (q.survivors candidates).filter fun s => q.drift s.cand ≤ minutes q.maxAcceptMinuteDrift

end Query

/-- The result and what is appended to `review_out`. -/
def matchEventHardenedScored (q : Query) (candidates : List EventCandidate) :
    Option MatchOutcome × List MatchReviewCandidate :=
  if !q.wellPosed then (none, [])
  else
    let misses := candidates.filterMap q.reviewMiss
    let (outcome, reviews) :=
      if q.eligible candidates = [] then
        match (q.survivors candidates).argmax Survivor.score with
        | some s => (none, [q.review s.cand s.swapped .kickoffDrift])
        | none => (none, [])
      else q.decide (sortedBy q.rank (q.eligible candidates))
    (outcome, misses ++ reviews)

/-! `match_event`: names equal after the alias table, on the same days. -/

/-- The arguments of `match_event` but for the candidates. -/
structure StrictQuery where
  home : Str
  away : Str
  kickoff : Int
  aliases : AliasTable
  maxDayDrift : Int := 1
  maxMinuteDrift : Int := 360
  ordered : Bool := true

omit [Unicode] in
/-- `_same_day_window`: the dates of two times, counted in days. -/
def sameDayWindow (a b maxDayDrift : Int) : Bool := |a / days 1 - b / days 1| ≤ maxDayDrift

namespace StrictQuery

def targetHome (q : StrictQuery) : Str := q.aliases.canonical q.home
def targetAway (q : StrictQuery) : Str := q.aliases.canonical q.away

def drift (q : StrictQuery) (cand : EventCandidate) : Int := |cand.kickoff - q.kickoff|

def qualifies (q : StrictQuery) (cand : EventCandidate) : Bool :=
  let candHome := q.aliases.canonical cand.home
  let candAway := q.aliases.canonical cand.away
  sameDayWindow q.kickoff cand.kickoff q.maxDayDrift && q.drift cand ≤ minutes q.maxMinuteDrift &&
    candHome ≠ [] && candAway ≠ [] &&
    if q.ordered then candHome = q.targetHome && candAway = q.targetAway
    else ({candHome, candAway} : Finset Str) = {q.targetHome, q.targetAway}

end StrictQuery

def matchEvent (q : StrictQuery) (candidates : List EventCandidate) : Option EventCandidate :=
  if q.targetHome = [] ∨ q.targetAway = [] ∨ q.targetHome = q.targetAway then none
  else
    let matched := candidates.filter q.qualifies
    if 1 < (matched.map EventCandidate.ref).toFinset.card then none
    else (sortedBy (fun cand => toLex (q.drift cand, cand.ref)) matched).head?

end Matcher
end SharpEvPicks.Resolution
