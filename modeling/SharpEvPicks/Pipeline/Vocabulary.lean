import SharpEvPicks.Pipeline.Snapshots

/-! Provider names for one line, `canonical_market_detail` and
`fold_injected_group_details` of `app/pipeline.py`. -/
namespace SharpEvPicks.Pipeline

open Python

/-- What `$` ignores at the end of a text. -/
def beforeFinalNewline (s : Str) : Str :=
  if s.getLast? = some '\n' then s.dropLast else s

def dropPrefix? (start s : Str) : Option Str :=
  if start.isPrefixOf s then some (s.drop start.length) else none

def dropSuffix (ending s : Str) : Str :=
  if ending.isSuffixOf s then s.take (s.length - ending.length) else s

def linelessDetails : List Str := ["h2h", "1x2", "btts"].map String.toList

section Details
variable [Unicode]

/-- `\d+(?:_\d+)?`, a line with an underscore for its point. -/
def isLineToken (s : Str) : Bool :=
  match s.dropWhile (· ≠ '_') with
  | [] => isDecimals s
  | _ :: fraction => isDecimals (s.takeWhile (· ≠ '_')) && isDecimals fraction

/-- `_OU_DETAIL_RE`. -/
def ouDetail (d : Str) : Option Str := do
  let rest ← dropPrefix? "over_under_".toList d
  let token := beforeFinalNewline ((dropPrefix? "games_".toList rest).getD rest)
  if isLineToken token then some token else none

/-- `_INT_TOTALS_DETAIL_RE`. -/
def intTotalsDetail (d : Str) : Option Str := do
  let rest ← dropPrefix? "totals_".toList d
  let token := beforeFinalNewline rest
  let whole := token.takeWhile (· ≠ '_')
  if isDecimals whole && token.dropWhile (· ≠ '_') = "_0".toList then some whole else none

def canonicalMarketDetail (detail : Option Str) : Option Str :=
  detail.bind fun detail =>
    let d := Unicode.lower detail
    if d ∈ linelessDetails then none
    else
      let (d, detail) := match ouDetail d with
        | some token => ("totals_".toList ++ token, "totals_".toList ++ token)
        | none => (d, detail)
      match intTotalsDetail d with
      | some whole => some ("totals_".toList ++ whole)
      | none => some detail

def fractionalLine (token : Str) : Option ℚ :=
  let line := floatValue (token.map fun c => if c = '_' then '.' else c)
  if line.den = 1 then none else some line

/-- `_ARCADIA_AH_DETAIL_RE`. -/
def arcadiaAhDetail (detail : Str) : Option Str := do
  let rest ← dropPrefix? "asian_handicap_".toList detail
  let rest := (dropPrefix? "games_".toList rest).getD rest
  let token := dropSuffix "_games".toList (beforeFinalNewline rest)
  if isLineToken ((dropPrefix? ['-'] token).getD token) then some token else none

/-- `_NATIVE_SPREAD_DETAIL_RE`. -/
def nativeSpreadDetail (detail : Str) : Option Str := do
  let rest ← dropPrefix? "spreads_".toList detail
  let rest := ((dropPrefix? "minus_".toList rest).or (dropPrefix? "plus_".toList rest)).getD rest
  let token := beforeFinalNewline rest
  if isLineToken token then some token else none

def canoned (s : Snapshot) : Snapshot := s.withDetail (canonicalMarketDetail s.marketDetail)

def nativeLine (s : Snapshot) : Option ℚ :=
  if s.market = .spreads then (s.marketDetail.bind nativeSpreadDetail).bind fractionalLine else none

def arcadiaLine (s : Snapshot) : Option ℚ :=
  if s.market = .spreads then (s.marketDetail.bind arcadiaAhDetail).bind fractionalLine else none

/-- `native_by_selection`: the native spreads details that quote an event's selection. -/
def nativeDetails (canon : List Snapshot) (s : Snapshot) : List (Option Str) :=
  ((canon.filter fun n => n.eventId = s.eventId && n.selection = s.selection &&
    (nativeLine n).isSome).map (·.marketDetail)).dedup

def adoptedDetail (canon : List Snapshot) (s : Snapshot) : Option (Option Str) := do
  let line ← arcadiaLine s
  match nativeDetails canon s with
  | [native] =>
    let nativeLine ← (native.bind nativeSpreadDetail).bind fractionalLine
    if |nativeLine| = |line| then some native else none
  | _ => none

def foldInjectedGroupDetails (snapshots : List Snapshot) : List Snapshot :=
  let canon := snapshots.map canoned
  canon.map fun s =>
    match adoptedDetail canon s with
    | some native => s.withDetail native
    | none => s

end Details

end SharpEvPicks.Pipeline
