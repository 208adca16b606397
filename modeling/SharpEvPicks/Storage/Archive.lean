import SharpEvPicks.Resolution.Acceptance
import SharpEvPicks.Resolution.Spellings
import SharpEvPicks.Storage.Closes
import SharpEvPicks.Storage.Events

/-! The archive of sharp closes and how a pick's fixture finds its event there,
`resolve_pinnacle_close_snaps` of `app/storage/repositories.py`. -/
namespace SharpEvPicks.Storage

open Python Pipeline Resolution

def pinnacleArcadia : Str := "pinnacle_arcadia".toList

structure ConfirmedLink extends SourceLink where
  confidenceScore : ℚ
  deriving DecidableEq

structure ArchiveStore where
  events : List Event
  links : List ConfirmedLink
  odds : OddsTable
  ids : (events.map Event.id).Nodup
  refs : (events.map Event.externalRef).Nodup

structure CloseQuery where
  pinnacleSportKey : Str
  pickExternalRef : Str
  home : Str
  away : Str
  kickoff : Int
  maxDayDrift : Int := 1

/-- An event of the archive as both paths select it. -/
structure ArchiveEvent where
  id : Nat
  externalRef : Str
  home : Str
  away : Str
  kickoff : Int
  league : Str
  deriving DecidableEq

/-- `SourceLinkByRef`, as far as the resolver fills it. -/
structure LinkByRef where
  sourceEventId : Str
  canonicalExternalRef : Str
  confidence : ℚ
  method : Str
  rawSport : Str
  rawHome : Str
  rawAway : Str
  rawStartTimeUtc : Int
  deriving DecidableEq

/-- `MatchReviewIn`, as far as the resolver fills it. -/
structure ReviewRow where
  sourceEventId : Str
  candidateCanonicalEventId : Nat
  confidence : ℚ
  reason : ReviewReason
  evidence : ReviewEvidence
  deriving DecidableEq

inductive ResolveOutcome where
  | link | nameMatch | noMatch
  deriving DecidableEq, Repr

/-- The two refusals that `/health` counts. -/
inductive Quarantine where
  | markerVeto | samePairAmbiguity
  deriving DecidableEq, Repr

/-- What a call finds, and what it leaves beside the closes. -/
structure Attachment where
  event : Option ArchiveEvent := none
  outcome : ResolveOutcome := .noMatch
  provenance : Option (ℚ × Str) := none
  link : Option LinkByRef := none
  reviews : List ReviewRow := []
  quarantined : Option Quarantine := none

def methodName : Method → Str
  | .exactCanonical => "exact_canonical".toList
  | .jwTwoTier => "jw_two_tier".toList

namespace CloseQuery

def isTennis (q : CloseQuery) : Bool :=
  (q.pinnacleSportKey.dropPrefix? "pinnacle_".toList).getD q.pinnacleSportKey = "tennis".toList

end CloseQuery

/-! The rows of the two paths. -/

section
variable (d : Directory)

def archiveEvent (e : Event) : Option ArchiveEvent :=
  e.startsAt.map fun kickoff =>
    ⟨e.id, e.externalRef, d.teamName e.homeTeamId, d.teamName e.awayTeamId, kickoff,
      d.leagueName e.leagueId⟩

namespace ArchiveStore
variable (s : ArchiveStore) (q : CloseQuery)

def archived : List ArchiveEvent :=
  (s.events.filter fun e => d.sportKey e.sportId = q.pinnacleSportKey).filterMap (archiveEvent d)

def pointsToPick (link : ConfirmedLink) : Bool :=
  link.source = pinnacleArcadia && link.active &&
    s.events.any fun e => e.id = link.canonicalEventId && e.externalRef = q.pickExternalRef

def linkRows : List (ConfirmedLink × ArchiveEvent) :=
  (s.links.filter (s.pointsToPick q)).flatMap fun link =>
    ((s.archived d q).filter fun x => x.externalRef = link.sourceEventId).map fun x => (link, x)

def nearby : List ArchiveEvent :=
  (s.archived d q).filter fun x =>
    q.kickoff - days (q.maxDayDrift + 1) ≤ x.kickoff ∧
      x.kickoff ≤ q.kickoff + days (q.maxDayDrift + 1)

end ArchiveStore
end

/-- `str(eid)`. -/
def ArchiveEvent.ref (x : ArchiveEvent) : Str := (Nat.repr x.id).toList

section
variable [UnicodeLetters]

/-! The match by name. -/

namespace CloseQuery
variable (aliases : AliasTable) (q : CloseQuery)

def spelled (name : Str) : Str := if q.isTennis then canonicalTennisName name else name

def candidate (x : ArchiveEvent) : EventCandidate :=
  ⟨x.ref, q.spelled x.home, q.spelled x.away, x.kickoff⟩

def matcherQuery (home away : Str) : Query where
  home := home
  away := away
  kickoff := q.kickoff
  aliases := aliases
  ordered := !q.isTennis
  maxMinuteDrift := (q.maxDayDrift + 1) * 24 * 60

/-- The display names, then the names of the slug if it drops none of their markers. -/
def nameMatch (candidates : List EventCandidate) :
    Option (MatchOutcome × Str) × List MatchReviewCandidate :=
  let display := matchEventHardenedScored
    (q.matcherQuery aliases (q.spelled q.home) (q.spelled q.away)) candidates
  match display.1 with
  | some outcome => (some (outcome, methodName outcome.method), display.2)
  | none =>
    match slugNames q.pickExternalRef with
    | none => (none, display.2)
    | some (slugHome, slugAway) =>
      let home := q.spelled slugHome
      let away := q.spelled slugAway
      if distinguishingMarkers q.home ++ distinguishingMarkers q.away ⊆
          distinguishingMarkers home ++ distinguishingMarkers away then
        let slug := matchEventHardenedScored (q.matcherQuery aliases home away) candidates
        (slug.1.map fun outcome => (outcome, "slug_".toList ++ methodName outcome.method),
          display.2 ++ slug.2)
      else (none, display.2)

/-- `_toks` of both names. -/
def tokens (home away : Str) : List Str := split (normalizeName home) ++ split (normalizeName away)

def sharesToken (matched : EventCandidate) : Bool :=
  (tokens q.home q.away).any (· ∈ tokens matched.home matched.away)

/-- The markers of the league that neither name of the pick has. -/
def leagueOnlyMarkers (x : ArchiveEvent) : List Marker :=
  (leagueMarkerSet x.league).filter (· ∉ distinguishingMarkers q.home ++
    distinguishingMarkers q.away)

/-- Another event of the same clubs and markers in the accept window. -/
def sibling (x y : ArchiveEvent) : Bool :=
  y.id ≠ x.id && |y.kickoff - q.kickoff| ≤ minutes 360 &&
    normalizeName y.home = normalizeName x.home && normalizeName y.away = normalizeName x.away &&
    leagueMarkerSet y.league = leagueMarkerSet x.league

def refusal (rows : List ArchiveEvent) (x : ArchiveEvent) : Option Quarantine :=
  if q.isTennis then none
  else if q.leagueOnlyMarkers x ≠ [] then some .markerVeto
  else if rows.any (q.sibling x) then some .samePairAmbiguity
  else none

omit [UnicodeLetters] in
def linkTo (x : ArchiveEvent) (confidence : ℚ) (method : Str) :
    Except IdentityError LinkByRef := do
  let _ ← requireBoundedIdentity pinnacleArcadia 32 "link source".toList
  let _ ← requireBoundedIdentity x.externalRef eventRefMaxBytes "link source_event_id".toList
  let _ ← requireBoundedIdentity q.pickExternalRef eventRefMaxBytes
    "link canonical_external_ref".toList
  let _ ← requireBoundedIdentity method 32 "link method".toList
  let _ ← requireBoundedIdentity q.pinnacleSportKey sportKeyMaxBytes "link raw_sport".toList
  let _ ← requireBoundedIdentity x.home teamNameMaxBytes "link raw_home".toList
  let _ ← requireBoundedIdentity x.away teamNameMaxBytes "link raw_away".toList
  pure ⟨x.externalRef, q.pickExternalRef, confidence, method, q.pinnacleSportKey, x.home, x.away,
    x.kickoff⟩

omit [UnicodeLetters] in
def reviewOf (rows : List ArchiveEvent) (canonicalId : Nat) (tap : MatchReviewCandidate) :
    Except IdentityError ReviewRow := do
  let sourceEventId :=
    ((rows.find? fun x => x.ref = tap.candidate.ref).map ArchiveEvent.externalRef).getD
    tap.candidate.ref
  let _ ← requireBoundedIdentity sourceEventId eventRefMaxBytes "review source_event_id".toList
  pure ⟨sourceEventId, canonicalId, tap.confidence, tap.reason, tap.evidence⟩

end CloseQuery

namespace ArchiveStore
variable (d : Directory) (aliases : AliasTable) (s : ArchiveStore) (q : CloseQuery)

def reviews (taps : List MatchReviewCandidate) : Except IdentityError (List ReviewRow) :=
  match s.events.find? fun e => e.externalRef = q.pickExternalRef with
  | none => .ok []
  | some canonical => taps.mapM (CloseQuery.reviewOf (s.nearby d q) canonical.id)

def attachByName : Except IdentityError Attachment := do
  let rows := s.nearby d q
  if rows = [] then return {}
  match q.nameMatch aliases (rows.map q.candidate) with
  | (none, taps) =>
    let reviews ← s.reviews d q taps
    return { reviews := reviews }
  | (some (outcome, method), _) =>
    if q.isTennis ∧ ¬ q.sharesToken outcome.candidate then return {}
    match rows.find? fun x => x.ref = outcome.candidate.ref with
    | none => return {}
    | some x =>
      match q.refusal rows x with
      | some quarantine => return { quarantined := some quarantine }
      | none =>
        let link ← q.linkTo x outcome.confidence method
        return {
          event := some x
          outcome := .nameMatch
          provenance := some (outcome.confidence, method)
          link := some link }

/-- What `resolve_pinnacle_close_snaps` attaches: the event of the only active link, else a match.
-/
def attach : Except IdentityError Attachment :=
  match s.linkRows d q with
  | [(link, x)] =>
    .ok
      { event := some x
        outcome := .link
        provenance := some (link.confidenceScore, "link_".toList ++ link.matchMethod) }
  | _ => s.attachByName d aliases q

end ArchiveStore

/-! The re-key. -/

namespace CloseQuery
variable (q : CloseQuery)

def playerSide (raw : Str) : Option Str :=
  let home := canonicalTennisName q.home
  let away := canonicalTennisName q.away
  if home = [] ∨ away = [] ∨ home = away then none
  else if canonicalTennisName raw = home then some q.home
  else if canonicalTennisName raw = away then some q.away
  else none

/-- `selection_map`: from the normalized names of the archive to the names of the pick. -/
def selectionMap (x : ArchiveEvent) : Dict Str Str :=
  if q.isTennis then
    [x.home, x.away].foldl (fun names raw =>
      match q.playerSide raw with
      | some side => names.set (normalizeName raw) side
      | none => names) Dict.empty
  else (Dict.empty.set (normalizeName x.home) q.home).set (normalizeName x.away) q.away

end CloseQuery

/-- The selection in the words of the pick, by the grammar of its market. -/
def mappedSelection (names : Dict Str Str) (market : Market) (selection : Str) : Option Str :=
  match market with
  | .h2h => if selection = "Draw".toList then some selection else names.get?
      (normalizeName selection)
  | .totals => some selection
  | .spreads =>
    if ' ' ∈ selection then
      let (team, suffix) := rpartition ' ' selection
      (names.get? (normalizeName team)).map fun side => side ++ ' ' :: suffix
    else none
  | _ => none

omit [UnicodeLetters] in
/-- `snap.model_copy(update={"event_id": ref, "selection": selection})`. -/
def rekeyed (s : Snapshot) (ref selection : Str) : Snapshot :=
  { s with eventId := ref, selection := selection }

def rekeyClose (q : CloseQuery) (x : ArchiveEvent) (s : Snapshot) : Option Snapshot :=
  (mappedSelection (q.selectionMap x) s.market s.selection).map (rekeyed s q.pickExternalRef)

namespace ArchiveStore
variable (d : Directory) (aliases : AliasTable) (s : ArchiveStore) (q : CloseQuery)

def archiveCloses (x : ArchiveEvent) : List Snapshot :=
  (s.odds.closingOddsFromSnapshots x.id x.externalRef
    (if x.kickoff < q.kickoff then x.kickoff else q.kickoff)).1

/-- `_rekeyed_close`; names that cannot be told apart drop the whole close. -/
def rekeyedClose (x : ArchiveEvent) : List Snapshot :=
  if normalizeName x.home = normalizeName x.away then []
  else (s.archiveCloses q x).filterMap (rekeyClose q x)

def resolvePinnacleCloseSnaps : Except IdentityError (Attachment × List Snapshot) := do
  let found ← s.attach d aliases q
  match found.event with
  | none => pure (found, [])
  | some x => pure (found, s.rekeyedClose q x)

end ArchiveStore
end
end SharpEvPicks.Storage
