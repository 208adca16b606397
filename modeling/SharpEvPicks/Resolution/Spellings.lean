import SharpEvPicks.Resolution.Names

/-! Names as another source spells them: `app/resolution/tennis_names.py`, and the slugs of
`app/resolution/matching.py`. -/
namespace SharpEvPicks.Resolution

open Python

/-! Tennis players. -/

/-- `token.rstrip(".")`. -/
def dropDots (token : Str) : Str := (token.reverse.dropWhile (· = '.')).reverse

section
variable [UnicodeLetters]

def normToken (token : Str) : Str :=
  ((token.flatMap Unicode.asciiFold).map Char.toLower).filter Char.isAlphanum

def isInitial (token : Str) : Bool :=
  match dropDots token with
  | [c] => UnicodeLetters.isAlpha c
  | _ => false

def canonicalTennisName (name : Str) : Str :=
  match split (name.map fun c => if c = ',' then ' ' else c) with
  | [] => []
  | [token] => normToken token
  | first :: second :: others =>
    let tokens := second :: others
    let last := tokens.getLastD first
    let (initial, surname) :=
      if isInitial last then (normToken last, ((first :: tokens).dropLast.map normToken).flatten)
      else if isInitial first then (normToken first, (tokens.map normToken).flatten)
      else (normToken first, normToken last)
    if surname = [] ∨ initial = [] then [] else surname ++ ' ' :: initial.take 1

end

example : @canonicalTennisName UnicodeLetters.ascii "Frances Tiafoe".toList =
    @canonicalTennisName UnicodeLetters.ascii "Tiafoe F.".toList := by decide +kernel

/-! Slugs. -/

/-- `$` matches before a final newline, and `.` matches none. -/
def dropFinalNewline (s : Str) : Str := if s.getLast? = some '\n' then s.dropLast else s

/-- What `_ODDSPORTAL_ID` leaves of a slug. -/
def dropSlugId (slug : Str) : Str :=
  let body := dropFinalNewline slug
  let id := body.drop (body.length - 9)
  if id.length = 9 ∧ id.head? = some '-' ∧ id.tail.all Char.isAlphanum then
    body.take (body.length - 9) ++ slug.drop body.length
  else slug

def unhyphenate (slug : Str) : Str := strip (slug.map fun c => if c = '-' then ' ' else c)

def pathParts (path : Str) : List Str :=
  ((path.takeWhile (· ≠ '#')).splitOnP (· = '/')).filter (· ≠ [])

def bothNames (home away : Str) : Option (Str × Str) :=
  if home = [] ∨ away = [] then none else some (home, away)

def oddsportalSlugNames (externalRef : Str) : Option (Str × Str) := do
  let (_, path) ← partition "oddsportal.com/".toList externalRef
  match (pathParts path).reverse with
  | away :: home :: _ => bothNames (unhyphenate (dropSlugId home)) (unhyphenate (dropSlugId away))
  | _ => none

/-- `^(.+?)-v-(.+)$` and its like. -/
def matchSeparated (sep segment : Str) : Option (Str × Str) :=
  match dropFinalNewline segment with
  | [] => none
  | c :: cs =>
    if '\n' ∈ c :: cs then none
    else (partition sep cs).bind fun (before, after) =>
      if after = [] then none else some (c :: before, after)

/-- The fixture that a segment names; `-at-` has the away side first. -/
def segmentNames (segment : Str) : Option (Str × Str) := do
  let (home, away) ← matchSeparated "-v-".toList segment <|>
    (matchSeparated "-at-".toList segment).map Prod.swap
  bothNames (unhyphenate home) (unhyphenate away)

def oddscheckerSlugNames (externalRef : Str) : Option (Str × Str) := do
  let path ← externalRef.dropPrefix? "oddschecker:".toList
  (pathParts path).reverse.findSome? segmentNames

def slugNames (externalRef : Str) : Option (Str × Str) :=
  oddsportalSlugNames externalRef <|> oddscheckerSlugNames externalRef

example : slugNames "oddschecker:football/english/arsenal-v-coventry/winner".toList =
    some ("arsenal".toList, "coventry".toList) := by decide +kernel

end SharpEvPicks.Resolution
