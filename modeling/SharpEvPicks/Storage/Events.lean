import Mathlib.Data.Prod.Lex
import Mathlib.Order.Lattice.Nat
import SharpEvPicks.Identity
import SharpEvPicks.Python.Sorting
import SharpEvPicks.Settlement.Engine

/-! Events and their source links, `_get_or_create_event` and what it calls in
`app/storage/repositories.py`. -/
namespace SharpEvPicks.Storage

open Python Resolution Settlement

structure Directory where
  sportKey : Nat → Str
  leagueName : Nat → Str
  teamName : Nat → Str

structure Event where
  id : Nat
  sportId : Nat
  leagueId : Nat
  homeTeamId : Nat
  awayTeamId : Nat
  externalRef : Str
  startsAt : Option Int
  deriving DecidableEq

structure SourceLink where
  id : Nat
  canonicalEventId : Nat
  source : Str
  sourceEventId : Str
  matchMethod : Str
  matchedAt : Int
  active : Bool
  deriving DecidableEq

/-- A row of `match_review_queue`, whose only reason here is `redate_settled_event`. -/
structure MatchReview where
  source : Str
  sourceEventId : Str
  candidateCanonicalEventId : Nat
  storedStartsAt : Int
  incomingStartsAt : Int
  deriving DecidableEq

structure EventStore where
  events : List Event
  links : List SourceLink
  reviews : List MatchReview
  /-- The events that have a settled pick. -/
  settled : List Nat
  nextEventId : Nat
  nextLinkId : Nat
  deriving DecidableEq

def EventStore.empty : EventStore := ⟨[], [], [], [], 1, 1⟩

inductive EventError where
  | identity (e : IdentityError)
  | otherSport
  deriving DecidableEq

/-- The arguments of `_get_or_create_event`, and the time of the call. -/
structure EventCall where
  sportId : Nat
  leagueId : Nat
  homeId : Nat
  awayId : Nat
  externalRef : Str
  startsAt : Option Int
  now : Int
  deriving DecidableEq

def resolverTolerance : Int := hours 2

def eventRedateGuardWindow : Int := hours 48

/-! Kickoffs, `app/ingestion/base.py`. -/

/-- The time of a source that knows the day only. -/
def isDateOnlyMidnight (t : Int) : Bool := t % days 1 = 0

def preferKickoff : Option Int → Option Int → Option Int
  | existing, none => existing
  | none, some incoming => some incoming
  | some existing, some incoming =>
    if isDateOnlyMidnight incoming ∧ ¬ isDateOnlyMidnight existing then some existing
    else some incoming

/-- A kickoff that the resolver may key on. -/
def EventCall.realKickoff (c : EventCall) : Option Int :=
  c.startsAt.filter (! isDateOnlyMidnight ·)

/-! Names of sources and markers of leagues. -/

def unknownSource : Str := "unknown".toList

/-- The part of a reference before its first colon. -/
def sourceOfRef (externalRef : Str) : Str :=
  let source := externalRef.takeWhile (· ≠ ':')
  if source ≠ [] ∧ source ≠ externalRef then source else unknownSource

def reserveWords : List Str := ["reserve", "reserves"].map String.toList

def leagueTokenMarker (token : Str) : Option Marker :=
  if token ∈ womenMarkers then some .women
  else if token ∈ youthWordMarkers || isYouthAge token then some .youth
  else if token ∈ reserveWords then some .reserve
  else none

section
variable [Unicode]

/-- `_league_marker_set`, in the order of `Marker`. -/
def leagueMarkerSet (leagueName : Str) : List Marker :=
  let tokens := split (normalizeName leagueName)
  [Marker.women, .youth, .reserve].filter fun m => tokens.any fun token =>
    leagueTokenMarker token = some m

end

namespace EventStore

/-! Statements on the tables. -/

def own (s : EventStore) (externalRef : Str) : Option Event :=
  s.events.find? fun e => e.externalRef = externalRef

/-- `event.starts_at = prefer_kickoff(event.starts_at, starts_at)`. -/
def moveKickoff (s : EventStore) (id : Nat) (startsAt : Option Int) : EventStore :=
  { s with
    events := s.events.map fun e =>
      if e.id = id then { e with startsAt := preferKickoff e.startsAt startsAt } else e }

def activeLinks (s : EventStore) (externalRef : Str) : List SourceLink :=
  s.links.filter fun l => l.source = sourceOfRef externalRef ∧ l.sourceEventId = externalRef ∧
    l.active

/-- Stage 0b: an active link to another event of the sport, the lowest id first. -/
def redirect (s : EventStore) (sportId : Nat) (externalRef : Str) : Option Nat :=
  let targets := s.events.filter fun e =>
    e.sportId = sportId ∧ e.externalRef ≠ externalRef ∧
      (s.activeLinks externalRef).any fun l => l.canonicalEventId = e.id
  (sortedBy (fun n => n) (targets.map Event.id)).head?

/-- Stage 1: the active link to an event of the sport that was matched last. -/
def linked (s : EventStore) (sportId : Nat) (externalRef : Str) : Option Nat :=
  let found := (s.activeLinks externalRef).filter fun l =>
    s.events.any fun e => e.id = l.canonicalEventId && e.sportId = sportId
  (maxBy (fun l => toLex (l.matchedAt, l.id)) found).map SourceLink.canonicalEventId

/-- `upsert_event_source_links` of one link: other targets of the provider id retire. -/
def upsertEventSourceLink (s : EventStore)
    (source sourceEventId canonicalExternalRef matchMethod : Str) (matchedAt : Int) : EventStore :=
  match s.own canonicalExternalRef with
  | none => s
  | some canon =>
    let same (l : SourceLink) : Bool := l.source = source && l.sourceEventId = sourceEventId
    let retired := s.links.map fun l =>
      if same l && l.canonicalEventId ≠ canon.id then { l with active := false } else l
    if retired.any fun l => same l && l.canonicalEventId = canon.id then
      { s with
        links := retired.map fun l =>
          if same l && l.canonicalEventId = canon.id then
            { l with active := true, matchedAt := matchedAt, matchMethod := matchMethod }
          else l }
    else
      { s with
        links := retired ++
          [⟨s.nextLinkId, canon.id, source, sourceEventId, matchMethod, matchedAt, true⟩]
        nextLinkId := s.nextLinkId + 1 }

/-- The bounds of `SourceLinkByRef`, then the upsert. -/
def recordLink (s : EventStore) (externalRef canonicalExternalRef matchMethod : Str) (now : Int) :
    Except EventError EventStore := do
  let source := sourceOfRef externalRef
  let check (value : Str) (maximumBytes : Nat) (field : Str) : Except EventError Str :=
    (requireBoundedIdentity value maximumBytes field).mapError .identity
  let _ ← check source 32 "link source".toList
  let _ ← check externalRef eventRefMaxBytes "link source_event_id".toList
  let _ ← check canonicalExternalRef eventRefMaxBytes "link canonical_external_ref".toList
  let _ ← check matchMethod 32 "link method".toList
  pure (s.upsertEventSourceLink source externalRef canonicalExternalRef matchMethod now)

/-- `_redate_allowed`, with the review that a refusal enqueues. -/
def redateAllowed (s : EventStore) (existing : Event) (target : Option Int) (externalRef : Str) :
    Except EventError Bool × EventStore :=
  match existing.startsAt, target with
  | some stored, some incoming =>
    if |incoming - stored| ≤ eventRedateGuardWindow then (.ok true, s)
    else if existing.id ∉ s.settled then (.ok true, s)
    else
      match (do
        let _ ← requireBoundedIdentity (sourceOfRef externalRef) 32 "review source".toList
        requireBoundedIdentity externalRef eventRefMaxBytes "review source_event_id".toList) with
      | .error e => (.error (.identity e), s)
      | .ok _ =>
        let review : MatchReview :=
          ⟨sourceOfRef externalRef, externalRef, existing.id, stored, incoming⟩
        -- one row a source, reference and candidate
        let known := s.reviews.any fun r =>
          r.source = review.source && r.sourceEventId = externalRef &&
            r.candidateCanonicalEventId = existing.id
        (.ok false, if known then s else { s with reviews := s.reviews ++ [review] })
  | _, _ => (.ok true, s)

/-! The stages of `_get_or_create_event`. -/

def resolveOwnRow (s : EventStore) (existing : Event) (c : EventCall) :
    Except EventError Nat × EventStore :=
  if existing.sportId ≠ c.sportId then (.error .otherSport, s)
  else
    let target := preferKickoff existing.startsAt c.startsAt
    if target = existing.startsAt then (.ok existing.id, s)
    else
      match s.redateAllowed existing target c.externalRef with
      | (.error e, s) => (.error e, s)
      | (.ok false, s) => (.ok existing.id, s)
      | (.ok true, s) => (.ok existing.id, s.moveKickoff existing.id c.startsAt)

/-- A tier found its event: the kickoff moves, then the link is written. -/
def mergeOnto (s : EventStore) (canon : Event) (c : EventCall) (matchMethod : Str) :
    Except EventError Nat × EventStore :=
  let moved := s.moveKickoff canon.id c.startsAt
  match moved.recordLink c.externalRef canon.externalRef matchMethod c.now with
  | .error e => (.error e, moved)
  | .ok linked => (.ok canon.id, linked)

def kickoffWithin (e : Event) (startsAt tolerance : Int) : Bool :=
  e.startsAt.any fun t => startsAt - tolerance ≤ t ∧ t ≤ startsAt + tolerance

section
variable [Unicode] (d : Directory) (s : EventStore) (c : EventCall)

def markersAgree (e : Event) : Bool :=
  leagueMarkerSet (d.leagueName e.leagueId) = leagueMarkerSet (d.leagueName c.leagueId)

def exactRows (startsAt : Int) : List Event :=
  s.events.filter fun e =>
    e.sportId = c.sportId ∧ e.homeTeamId = c.homeId ∧ e.awayTeamId = c.awayId ∧
      kickoffWithin e startsAt resolverTolerance

def exactMatch (startsAt : Int) : Option Event :=
  (sortedBy (fun e => toLex (|e.startsAt.getD 0 - startsAt|, e.id))
    ((s.exactRows c startsAt).filter (markersAgree d c))).head?

/-- Tier 1, `_resolve_canonical_event`. -/
def resolveCanonicalEvent (startsAt : Int) : Option (Except EventError Nat × EventStore) :=
  (s.exactMatch d c startsAt).map fun canon =>
    s.mergeOnto canon c
      (if (s.exactRows c startsAt).length = 1 then "exact_team_id".toList
        else "exact_team_id_multi".toList)

def pairMatches (pair : PairKey) (startsAt : Int) : List Event :=
  s.events.filter fun e =>
    e.sportId = c.sportId ∧ e.externalRef ≠ c.externalRef ∧
      kickoffWithin e startsAt (dedupTolerance (d.sportKey c.sportId)) ∧
      ¬ e.startsAt.any isDateOnlyMidnight ∧
      (fixturePairKey (d.teamName e.homeTeamId) (d.teamName e.awayTeamId)).any (·.Same pair) ∧
      markersAgree d c e

def pairMatch (startsAt : Int) : Option Event :=
  (fixturePairKey (d.teamName c.homeId) (d.teamName c.awayId)).bind fun pair =>
    (sortedBy Event.id (s.pairMatches d c pair startsAt)).head?

/-- Tier 2, `_resolve_canonical_event_by_pair`. -/
def resolveCanonicalEventByPair (startsAt : Int) : Option (Except EventError Nat × EventStore) :=
  (s.pairMatch d c startsAt).map fun canon => s.mergeOnto canon c "fixture_pair_key".toList

omit [Unicode] in
def mint : Except EventError Nat × EventStore :=
  (.ok s.nextEventId,
    { s with
      events := s.events ++
        [⟨s.nextEventId, c.sportId, c.leagueId, c.homeId, c.awayId, c.externalRef, c.startsAt⟩]
      nextEventId := s.nextEventId + 1 })

/-- A reference without a row and without a link: the tiers, then a new event. -/
def resolveNewRef : Except EventError Nat × EventStore :=
  match c.realKickoff with
  | none => s.mint c
  | some startsAt =>
    match s.resolveCanonicalEvent d c startsAt with
    | some result => result
    | none =>
      match s.resolveCanonicalEventByPair d c startsAt with
      | some result => result
      | none => s.mint c

/-- `_get_or_create_event`, and the tables as it leaves them, also where it raises. -/
def getOrCreateEvent : Except EventError Nat × EventStore :=
  match requireBoundedIdentity c.externalRef eventRefMaxBytes "event external_ref".toList with
  | .error e => (.error (.identity e), s)
  | .ok externalRef =>
    match s.redirect c.sportId externalRef with
    | some id => (.ok id, s.moveKickoff id c.startsAt)
    | none =>
      match s.own externalRef with
      | some existing => s.resolveOwnRow existing c
      | none =>
        match s.linked c.sportId externalRef with
        | some id => (.ok id, s.moveKickoff id c.startsAt)
        | none => s.resolveNewRef d c

omit [Unicode] in
/-- What a transaction leaves of a call: nothing of one that raises. -/
def commit : Except EventError Nat × EventStore → EventStore
  | (.ok _, written) => written
  | (.error _, _) => s

def afterCall : EventStore := s.commit (s.getOrCreateEvent d c)

end

def refreshEventKickoffs (s : EventStore) (kickoffs : Dict Str Int) : EventStore :=
  { s with
    events := s.events.map fun e =>
      { e with startsAt := preferKickoff e.startsAt (kickoffs.get? e.externalRef) } }

end EventStore
end SharpEvPicks.Storage
