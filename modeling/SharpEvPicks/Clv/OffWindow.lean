import Mathlib.Data.Prod.Lex
import Mathlib.Data.Rat.Defs
import Mathlib.Algebra.Order.Ring.Rat
import SharpEvPicks.Clv.MatchUrl
import SharpEvPicks.Python.Grouping
import SharpEvPicks.Python.Sorting
import SharpEvPicks.Transition.Partial

/-! The scrape order of open picks whose games a cycle does not cover, `app/clv_trueup.py`. Times
are in seconds. -/
namespace SharpEvPicks.Clv.OffWindow

open Python Ingestion Transition

def offwindowLinkCap : Nat := 25

def offwindowCloseBoostWindow : ℚ := 3600

def staleNullKickoffAge : ℚ := 1209600

/-- `datetime.min`. -/
def datetimeMin : ℚ := -62135596800

/-- A pick with the reference and the kickoff of its event. -/
structure Pick where
  id : Nat
  externalRef : Str
  tier : Str
  status : Str
  revalidationAttemptedAt : Option ℚ
  startsAt : Option ℚ
  createdAt : ℚ
  deriving DecidableEq

def Pick.alerted (pick : Pick) : Bool := pick.status = "alerted".toList

/-! `order_offwindow_refs`. -/

section Order
variable (rows : List Pick) (now : Option ℚ) (ref : Str)

def hasPremium : Bool := rows.any fun row => row.externalRef = ref && row.tier = "premium".toList

def imminent : Bool :=
  rows.any fun row => row.externalRef = ref &&
    match now, row.startsAt with
    | some now, some startsAt =>
      0 ≤ startsAt - now && startsAt - now ≤ offwindowCloseBoostWindow
    | _, _ => false

def attempts : List ℚ :=
  (rows.filter fun row => row.externalRef = ref).filterMap Pick.revalidationAttemptedAt

/-- Premium first, then kickoffs within the hour. -/
def band : Bool ×ₗ Bool := toLex (!hasPremium rows ref, !imminent rows now ref)

/-- The four components of `sort_key`, the band and the turn within it. -/
def sortKey : (Bool ×ₗ Bool) ×ₗ (Bool ×ₗ ℚ) :=
  toLex (band rows now ref,
    toLex (decide (attempts rows ref ≠ []), (attempts rows ref).min?.getD datetimeMin))

def orderOffwindowRefs : List Str :=
  sortedBy (sortKey rows now) (groupsOf Pick.externalRef rows).keys

end Order

/-! `select_offwindow_links`. -/

section Links
variable [CaseMaps] [UrlText] (refs : List Str) (sportSegment : Option Str)
  (coveredEventIds : List Str)

/-- The links before the cap. -/
def offwindowCandidates : List Str :=
  let links := refs.filter fun ref => isAllowedMatchUrl ref && ref ∉ coveredEventIds
  match sportSegment with
  | none | some [] => links
  | some segment => links.filter fun ref => contains ('/' :: segment ++ ['/']) ref

def selectOffwindowLinks (cap : Nat) : List Str :=
  (offwindowCandidates refs sportSegment coveredEventIds).take cap

end Links

/-! `revalidate_offwindow_picks`, and what else changes picks meanwhile. -/

/-- The picks that the first query selects, in no order. -/
def selected (picks : List Pick) (now : ℚ) : List Pick :=
  picks.filter fun pick => pick.alerted &&
    match pick.startsAt with
    | none => now - staleNullKickoffAge < pick.createdAt
    | some startsAt => now < startsAt

/-- One call, up to the fetch: its arguments, its clock, and its rows as the database returns them.
-/
structure Cycle where
  now : ℚ
  sportSegment : Option Str
  coveredEventIds : List Str
  rows : List Pick
  deriving DecidableEq

section Cycles
variable [CaseMaps] [UrlText]

def Cycle.candidates (cycle : Cycle) : List Str :=
  offwindowCandidates (orderOffwindowRefs cycle.rows (some cycle.now)) cycle.sportSegment
    cycle.coveredEventIds

def Cycle.links (cycle : Cycle) : List Str :=
  selectOffwindowLinks (orderOffwindowRefs cycle.rows (some cycle.now)) cycle.sportSegment
    cycle.coveredEventIds offwindowLinkCap

end Cycles

structure World where
  picks : List Pick := []
  fetching : Option Cycle := none
  clock : ℚ := 0
  deriving DecidableEq

inductive Action where
  | mint (pick : Pick)
  /-- The pick is settled or superseded. -/
  | close (id : Nat) (status : Str)
  | amend (id : Nat) (tier : Str) (startsAt : Option ℚ)
  /-- `revalidate_open_picks` stamps a pick that it prices. -/
  | reprice (ref : Str) (id : Nat) (now : ℚ)
  | choose (cycle : Cycle)
  | fetched (attemptedAt : ℚ)
  /-- The fetch raises, or the watchdog cancels it. -/
  | failed
  deriving DecidableEq

/-- The update after the fetch. -/
def stamped (links : List Str) (attemptedAt : ℚ) (pick : Pick) : Pick :=
  if pick.alerted && pick.externalRef ∈ links then
    { pick with revalidationAttemptedAt := some attemptedAt } else pick

section Steps
variable [CaseMaps] [UrlText]

def step (w : World) : Action → Option World
  | .mint pick =>
    if pick.revalidationAttemptedAt = none ∧ pick.id ∉ w.picks.map Pick.id then
      some { w with picks := w.picks ++ [pick] }
    else none
  | .close id status =>
    if status ≠ "alerted".toList then
      some { w with picks := w.picks.map fun pick => if pick.id = id then
        { pick with status := status } else pick }
    else none
  | .amend id tier startsAt =>
    some { w with
      picks := w.picks.map fun pick => if pick.id = id then
        { pick with tier := tier, startsAt := startsAt } else pick }
  | .reprice ref id now =>
    if w.clock ≤ now then
      some { w with
        clock := now
        picks := w.picks.map fun pick =>
          if pick.id = id ∧ pick.externalRef = ref then
            { pick with revalidationAttemptedAt := some now } else pick }
    else none
  | .choose cycle =>
    if w.fetching = none ∧ w.clock < cycle.now ∧
      cycle.rows.Perm (selected w.picks cycle.now) then
      some { w with clock := cycle.now, fetching := if cycle.links = [] then none else some cycle }
    else none
  | .fetched attemptedAt =>
    match w.fetching with
    | none => none
    | some cycle =>
      if w.clock ≤ attemptedAt then
        some { picks := w.picks.map (stamped cycle.links attemptedAt), fetching := none,
               clock := attemptedAt }
      else none
  | .failed => some { w with fetching := none }

/-- The fetch that ends could have had the event among its links, with so many events before it for
their band. -/
def passesOver (ref : Str) (ahead : Nat) (cycle : Cycle) : Bool :=
  ref ∈ cycle.candidates &&
    cycle.candidates.countP (fun other =>
      band cycle.rows (some cycle.now) other < band cycle.rows (some cycle.now) ref) ≤ ahead

/-- A fetch that ends and passes over the event. -/
def waited (ref : Str) (ahead : Nat) (w : World) : Action → Nat
  | .fetched _ => if w.fetching.any (passesOver ref ahead) then 1 else 0
  | _ => 0

/-- The waits of a run. -/
def waits (ref : Str) (ahead : Nat) : World → List Action → Nat
  | _, [] => 0
  | w, a :: rest =>
    waited ref ahead w a + ((step w a).map fun next => waits ref ahead next rest).getD 0

def Action.minted : Action → Nat
  | .mint _ => 1
  | _ => 0

/-- The action stamps no pick of the event. -/
def Action.leaves (ref : Str) : Action → Prop
  | .reprice other _ _ => other ≠ ref
  | .choose cycle => ref ∉ cycle.links
  | _ => True

end Steps

end SharpEvPicks.Clv.OffWindow
