import Mathlib.Data.Finset.Basic
import Mathlib.Data.Finset.Filter
import Mathlib.Data.Finset.Insert
import SharpEvPicks.Python.Lookups
import SharpEvPicks.Python.Sorting
import SharpEvPicks.Python.FixedPoint
import SharpEvPicks.Schemas

/-! The self-audit of `app/maintenance/self_audit.py`: its checks, and the alerts that it sends over
the cycles of a process. -/
namespace SharpEvPicks.Maintenance.SelfAudit

open Python

def deadMansDefaultK : Nat := 3

def proxyHeadroomAlertInterval : Int := hours 6

def listingDarkK : Nat := 3

def sharpAnchorCliffDrop : ℚ := 4 / 5

def sharpAnchorCliffMinPrior : Nat := 50

def impossibleMarketMinGraded : Nat := 30

def wrongGameRealertInterval : Int := hours 24

def wrongGameDailyMaxKeys : Nat := 256

inductive Severity where
  | warn | error
  deriving DecidableEq

inductive Code where
  | awaitingBacklog | staleOdds | sharpAnchorCliff | pinnacleCaptureSilent | impossibleMarketFamily
  | wrongGameAnchor | deadMansSwitch | proxyHeadroom | listingRecovered
  deriving DecidableEq

def Code.text : Code → Str
  | awaitingBacklog => "awaiting_backlog".toList
  | staleOdds => "stale_odds".toList
  | sharpAnchorCliff => "sharp_anchor_cliff".toList
  | pinnacleCaptureSilent => "pinnacle_capture_silent".toList
  | impossibleMarketFamily => "impossible_market_family".toList
  | wrongGameAnchor => "wrong_game_anchor".toList
  | deadMansSwitch => "dead_mans_switch".toList
  | proxyHeadroom => "proxy_headroom".toList
  | listingRecovered => "listing_recovered".toList

structure Anomaly where
  severity : Severity
  code : Code
  detail : Str
  deriving DecidableEq

/-! The checks. -/

/-- `f"{n:02d}"`. -/
def twoDigits (n : Nat) : Str := if n < 10 then '0' :: natText n else natText n

/-- `str` of a time difference that is not negative, without its fraction. -/
def spanText (d : Int) : Str :=
  let total := (d / 1000000).toNat
  let days := total / 86400
  (if days = 0 then [] else natText days ++ (if days = 1 then " day, " else " days, ").toList) ++
    natText (total / 3600 % 24) ++ ':' :: twoDigits (total / 60 % 60) ++
      ':' :: twoDigits (total % 60)

def awaitingThreshold : Nat := 25

def awaitingGraceHours : Nat := 6

def staleOddsAfter : Int := hours 3

/-- `evaluate_anomalies`. -/
def evaluateAnomalies (now : Int) (awaitingBacklog : Nat) (newestOdds : Option Int) :
    List Anomaly :=
  (if awaitingThreshold < awaitingBacklog then
    [⟨.warn, .awaitingBacklog,
      natText awaitingBacklog ++ " alerted picks >".toList ++ natText awaitingGraceHours ++
      "h past kickoff still unsettled — finished-score capture/settle may be stuck".toList⟩]
  else []) ++
    (if newestOdds.all (· < now - staleOddsAfter) then
      [⟨.error, .staleOdds, "newest odds-snapshot age ".toList ++
        (newestOdds.elim "none".toList fun newest => spanText (now - newest)) ++
          " exceeds ".toList ++
          spanText staleOddsAfter ++ " — odds ingestion may be down".toList⟩]
    else [])

/-- `evaluate_dead_mans_switch`: the streak, whether it has alerted, and the alert. -/
def evaluateDeadMansSwitch (freshOddsRows priorStreak kEmptyCycles : Nat) (alreadyAlerted : Bool) :
    Nat × Bool × Option Anomaly :=
  if 0 < freshOddsRows then (0, false, none)
  else
    let streak := priorStreak + 1
    if kEmptyCycles ≤ streak ∧ alreadyAlerted = false then
      (streak, true, some ⟨.error, .deadMansSwitch, natText streak ++
        (" consecutive self-audit cycles produced ZERO fresh odds rows — the live scrape appears DEAD " ++
          "(not merely a quiet slate)").toList⟩)
    else (streak, alreadyAlerted, none)

/-- `evaluate_proxy_headroom`. -/
def evaluateProxyHeadroom (healthy concurrencyFloor now : Int) (lastAlerted : Option Int) :
    Option Anomaly :=
  if concurrencyFloor + 1 < healthy then none
  else if lastAlerted.any fun last => now - last < proxyHeadroomAlertInterval then none
  else
    some ⟨.warn, .proxyHeadroom,
      "proxy pool headroom exhausted: ".toList ++ (toString healthy).toList ++
      " healthy vs concurrency floor ".toList ++ (toString concurrencyFloor).toList ++
        (" (ODDSPORTAL_CONCURRENCY) — one more quarantine slows every scrape cycle; " ++
          "expand or replace the proxy pool").toList⟩

/-- `evaluate_listing_recovery`: the dark streak, and the notice. -/
def evaluateListingRecovery (listedMatches : Option Int) (priorDarkStreak : Nat) :
    Nat × Option Anomaly :=
  match listedMatches with
  | none => (priorDarkStreak, none)
  | some listed =>
    if listed ≤ 0 then (priorDarkStreak + 1, none)
    else if listingDarkK ≤ priorDarkStreak then
      (0, some ⟨.warn, .listingRecovered,
        "oddsportal listing RECOVERED: ".toList ++ (toString listed).toList ++
        " matches listed after ".toList ++ natText priorDarkStreak ++
          " consecutive dark self-audit cycles — live odds ingestion should resume; verify fresh picks follow".toList⟩)
    else (0, none)

/-- `evaluate_sharp_anchor_cliff`. -/
def evaluateSharpAnchorCliff (recent prior : Nat) : Option Anomaly :=
  if prior < sharpAnchorCliffMinPrior then none
  else if (prior : ℚ) * (1 - sharpAnchorCliffDrop) ≤ recent then none
  else
    some ⟨.warn, .sharpAnchorCliff, "sharp-anchored evaluations fell ".toList ++
      fixedPoint 0 (100 * (1 - (recent : ℚ) / prior)) ++ "%: ".toList ++ natText recent ++
        " in the last 24h vs ".toList ++ natText prior ++
          (" in the prior 24h — sharp-anchor coverage may have regressed (liquidity floor / exchange demotion / " ++
            "sharp feed loss); check the no_sharp_anchor:<cause> reason mix in candidate_evaluations").toList⟩

/-- `evaluate_pinnacle_capture_silence`. -/
def evaluatePinnacleCaptureSilence (newPinnacleEvents : Nat) (windowHours : ℚ) : Option Anomaly :=
  if 0 < newPinnacleEvents then none
  else
    some ⟨.warn, .pinnacleCaptureSilent,
      "zero NEW pinnacle-namespace events created in the last ".toList ++
      formatSigned windowHours ++
        ("h — the arcadia sharp capture appears DEAD (2026-07-18..26 shape: 8 silent days, no alarm); " ++
          "check arcadia proxies/feed and the capture_pinnacle_arcadia job").toList⟩

/-- Sport, family, and how many of its results are graded and won. -/
abbrev Family := Str × Str × Nat × Nat

/-- `evaluate_impossible_market_families`. -/
def evaluateImpossibleMarketFamilies (families : List Family) : Option Anomaly :=
  let offenders := families.filter fun (_, _, graded, wins) =>
    impossibleMarketMinGraded ≤ graded ∧ wins = 0
  if offenders = [] then none
  else
    some ⟨.warn, .impossibleMarketFamily, "impossible market family(ies) — ".toList ++
      join "; ".toList (offenders.map fun (sport, family, graded, _) =>
        sport ++ '/' :: family ++ ": 0 wins in ".toList ++ natText graded ++ " graded".toList) ++
        (" — a family that NEVER wins is a grading defect (e.g. game handicaps graded on set scores, audit " ++
          "2026-08-02): audit the settlement axis before trusting these results").toList⟩

/-! One audit. -/

/-- What the queries of an audit return. -/
structure Readings where
  awaitingBacklog : Nat := 0
  newestOdds : Option Int
  freshOdds : Nat
  sharpRecent : Nat := 0
  sharpPrior : Nat := 0
  newPinnacleEvents : Nat := 0
  families : List Family := []
  /-- The details that `audit_live_pinnacle_anchors` finds. -/
  wrongGames : List Str := []

/-- `run_self_audit`, on what its queries return. -/
def runSelfAudit (now : Int) (pinnacleSilenceWindow : Option Int) (r : Readings) :
    List Anomaly × Nat :=
  (evaluateAnomalies now r.awaitingBacklog r.newestOdds ++
    (evaluateSharpAnchorCliff r.sharpRecent r.sharpPrior).toList ++
    (pinnacleSilenceWindow.bind fun window =>
      evaluatePinnacleCaptureSilence r.newPinnacleEvents ((window : ℚ) / hours 1)).toList ++
    (evaluateImpossibleMarketFamilies r.families).toList ++
    r.wrongGames.map fun detail => ⟨.error, .wrongGameAnchor, detail⟩, r.freshOdds)

/-- `SelfAuditMonitorState`. -/
structure MonitorState where
  activeAnomalies : Finset Str := ∅
  emptyOddsStreak : Nat := 0
  deadManAlerted : Bool := false
  lastProxyHeadroomAlert : Option Int := none
  listingDarkStreak : Nat := 0
  wrongGameAlerted : Dict Str Int := .empty

/-- What becomes of a dispatch: it raises, returns a result without the delivery surface, or with
it. -/
inductive Delivery where
  | raised
  | bare
  | result (skippedDuplicate : Bool) (sinkResults : List (Str × Bool))

/-- `_dispatch_confirmed`; what raises is not confirmed. -/
def Delivery.confirmed : Delivery → Bool
  | raised => false
  | bare => true
  | result skippedDuplicate sinkResults => skippedDuplicate || sinkResults.any Prod.snd

/-- `_anomaly_dedupe_key`. -/
def Anomaly.dedupeKey (a : Anomaly) : Str :=
  if a.code = .wrongGameAnchor then a.code.text ++ ':' :: a.detail else a.code.text

/-- `_prune_wrong_game_alerted`. -/
def pruneWrongGameAlerted (alerted : Dict Str Int) (now : Int) : Dict Str Int :=
  let live := alerted.filter fun _ t => !(wrongGameRealertInterval ≤ now - t)
  let oldest := (sortedBy Prod.snd live.entries).take (live.entries.length - wrongGameDailyMaxKeys)
  live.filter fun key _ => key ∉ oldest.map Prod.fst

/-- An alert that was handed to the dispatcher. -/
structure Attempt where
  anomaly : Anomaly
  confirmed : Bool
  deriving DecidableEq

/-- The pass of `_dispatch_anomalies` over an anomaly. `deliver` is asked with the number of
dispatches before it in the cycle. -/
def dispatchOne (deadMan : Option Anomaly) (deliver : Nat → Anomaly → Delivery) (now : Int)
    (w : MonitorState × List Attempt) (a : Anomaly) : MonitorState × List Attempt :=
  let key := a.dedupeKey
  if a.code = .wrongGameAnchor ∧ (w.1.wrongGameAlerted.get? key).any fun last =>
    now - last < wrongGameRealertInterval then
    ({ w.1 with activeAnomalies := insert key w.1.activeAnomalies }, w.2)
  else
    let confirmed := (deliver w.2.length a).confirmed
    let sent := w.2 ++ [⟨a, confirmed⟩]
    if !confirmed then (w.1, sent)
    else if deadMan.any fun d => a.code = d.code then ({ w.1 with deadManAlerted := true }, sent)
    else
      ({ w.1 with
        activeAnomalies := insert key w.1.activeAnomalies
        wrongGameAlerted :=
          if a.code = .wrongGameAnchor then w.1.wrongGameAlerted.set key now
            else w.1.wrongGameAlerted }, sent)

/-- `_dispatch_anomalies`. -/
def dispatchAnomalies (m : MonitorState) (anomalies : List Anomaly) (deadMan : Option Anomaly)
    (deliver : Nat → Anomaly → Delivery) (now : Int) : MonitorState × List Attempt :=
  let toSend := (anomalies.filter fun a => a.dedupeKey ∉ m.activeAnomalies) ++ deadMan.toList
  let settled : MonitorState :=
    { m with
      activeAnomalies := m.activeAnomalies.filter fun key => key ∈ anomalies.map Anomaly.dedupeKey
      wrongGameAlerted := pruneWrongGameAlerted m.wrongGameAlerted now }
  toSend.foldl (dispatchOne deadMan deliver now) (settled, [])

/-- One run of the job. -/
structure AuditCycle where
  now : Int
  proxyHeadroom : Option (Int × Int) := none
  listedMatches : Option Int := none
  pinnacleSilenceWindow : Option Int := none
  deadMansK : Nat := deadMansDefaultK
  /-- `none` where the audit raises. -/
  readings : Option Readings
  /-- What becomes of the headroom warning and of the recovery notice. -/
  headroomDelivery : Delivery := .bare
  recoveredDelivery : Delivery := .bare
  deliver : Nat → Anomaly → Delivery

/-- The headroom warning and the recovery notice, which come before the audit. -/
def watches (m : MonitorState) (c : AuditCycle) : MonitorState × List Attempt :=
  let headroom := c.proxyHeadroom.bind fun (healthy, floor) =>
    evaluateProxyHeadroom healthy floor c.now m.lastProxyHeadroomAlert
  let recovery := evaluateListingRecovery c.listedMatches m.listingDarkStreak
  ({ m with
    lastProxyHeadroomAlert := if headroom.isSome then some c.now else m.lastProxyHeadroomAlert
    listingDarkStreak := recovery.1 },
    (headroom.map fun a => ⟨a, c.headroomDelivery.confirmed⟩).toList ++
      (recovery.2.map fun a => ⟨a, c.recoveredDelivery.confirmed⟩).toList)

/-- `self_audit_job` with a dispatcher and a monitor state; the alerts that it hands over. -/
def selfAuditJob (m : MonitorState) (c : AuditCycle) : MonitorState × List Attempt :=
  let (watched, notices) := watches m c
  match c.readings with
  | none => (watched, notices)
  | some r =>
    let (anomalies, freshOdds) := runSelfAudit c.now c.pinnacleSilenceWindow r
    let (streak, alerted, deadMan) :=
      evaluateDeadMansSwitch freshOdds watched.emptyOddsStreak c.deadMansK watched.deadManAlerted
    let counted : MonitorState :=
      { watched with
        emptyOddsStreak :=
          streak, deadManAlerted := if deadMan.isNone then alerted else watched.deadManAlerted }
    let (m', sent) := dispatchAnomalies counted anomalies deadMan c.deliver c.now
    (m', notices ++ sent)

/-- The monitor over the cycles of a process. -/
def nextState (m : MonitorState) (c : AuditCycle) : MonitorState := (selfAuditJob m c).1

end SharpEvPicks.Maintenance.SelfAudit
