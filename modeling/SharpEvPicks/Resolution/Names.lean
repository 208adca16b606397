import SharpEvPicks.Python.Str

/-! Names of teams and players, `app/resolution/matching.py`. -/
namespace SharpEvPicks.Resolution

open Python

section Names
variable [Unicode]

def noiseTokens : List Str :=
  ["fc", "afc", "cf", "cfc", "sc", "fk", "ff", "bk", "if", "ac", "club", "calcio", "jk"].map
    String.toList

/-- NFKD, ASCII, casefold, and a blank for everything not alphanumeric. On ASCII
text `casefold` is `lower` and `isalnum` is letters and digits. -/
def cleaned (s : Str) : Str :=
  (s.flatMap Unicode.asciiFold).map fun c => if c.toLower.isAlphanum then c.toLower else ' '

/-- On ASCII text no two Unicode databases differ. -/
theorem cleaned_ascii {s : Str} (ascii : ∀ c ∈ s, isAscii c) :
    cleaned s = @cleaned Unicode.ascii s := by
  have plain (u : Unicode) : s.flatMap u.asciiFold = s := by
    have each : ∀ c ∈ s, u.asciiFold c = [c] :=
      fun c inside => u.asciiFold_ascii c (ascii c inside)
    rw [List.flatMap_congr each]
    simp
  unfold cleaned
  rw [plain, plain Unicode.ascii]

def nameTokens (name : Str) : List Str := (split (cleaned name)).filter (· ∉ noiseTokens)

def normalizeName (name : Str) : Str := join [' '] (nameTokens name)

theorem normalizeName_ascii {s : Str} (ascii : ∀ c ∈ s, isAscii c) :
    normalizeName s = @normalizeName Unicode.ascii s := by
  unfold normalizeName nameTokens
  rw [cleaned_ascii ascii]

/-! Markers that tell a women's, youth or reserve side from the senior one. -/

inductive Marker where
  | women | youth | reserve
  deriving DecidableEq, Repr

def womenMarkers : List Str :=
  ["w", "women", "womens", "ladies", "fem", "femenino", "femenina", "feminin", "feminine",
    "feminino", "frauen", "damen", "dames", "kvinner", "kvinnor"].map String.toList

def youthWordMarkers : List Str := ["youth", "juvenil", "juvenis", "jugend"].map String.toList

def reserveMarkers : List Str := ["ii", "iii", "reserve", "reserves"].map String.toList

def trailingReserveTokens : List Str := ["2", "3", "b"].map String.toList

/-- `^(?:u|sub)(?:1[0-9]|2[0-3])$` on a token, which holds no newline. -/
def isYouthAge (token : Str) : Bool :=
  let age : Str → Bool
    | ['1', d] => d.isDigit
    | ['2', d] => d ∈ ['0', '1', '2', '3']
    | _ => false
  match token with
  | 'u' :: rest => age rest
  | 's' :: 'u' :: 'b' :: rest => age rest
  | _ => false

def tokenMarker (token : Str) : Option Marker :=
  if token ∈ womenMarkers then some .women
  else if token ∈ youthWordMarkers || isYouthAge token then some .youth
  else if token ∈ reserveMarkers then some .reserve
  else none

def endsInReserve (tokens : List Str) : Bool :=
  2 ≤ tokens.length && tokens.getLast?.any (· ∈ trailingReserveTokens)

/-- The markers of a token list in the order of `Marker`; a set in the source. -/
def markersOf (tokens : List Str) : List Marker :=
  [Marker.women, .youth, .reserve].filter fun m =>
    tokens.any (fun token => tokenMarker token = some m) || (m = .reserve && endsInReserve tokens)

def distinguishingMarkers (name : Str) : List Marker := markersOf (split (normalizeName name))

def knownClubWhitelist : List Str :=
  ["Boca Juniors", "Argentinos Juniors", "Young Boys", "Defensa y Justicia", "Newells Old Boys",
    "Junior"].map fun n => normalizeName n.toList

def stripMarkers (name : Str) : Str :=
  let norm := normalizeName name
  if norm ∈ knownClubWhitelist then norm
  else
    let tokens := split norm
    let tokens := if endsInReserve tokens then tokens.dropLast else tokens
    let kept := tokens.filter fun token =>
      !(token ∈ womenMarkers || token ∈ youthWordMarkers || token ∈ reserveMarkers ||
        isYouthAge token)
    if kept = [] then norm else join [' '] kept

end Names

/-! Live status. -/

/-- What `\s*\[[^\]]*\]\s*$` leaves of a name. The leftmost match opens at the
first `[` after the last `]` but one. -/
def dropLiveStatus (name : Str) : Str :=
  match name.reverse.dropWhile isSpace with
  | ']' :: rest =>
    let body := (rest.takeWhile (· ≠ ']')).reverse
    if '[' ∈ body then (rest.dropWhile (· ≠ ']')).reverse ++ body.takeWhile (· ≠ '[')
      else name
  | _ => name

def stripLiveStatus (name : Str) : Str := strip (dropLiveStatus name)

variable [Unicode]

/-- The normalized pair of a fixture, kept in the given order: the source compares it as a set. -/
structure PairKey where
  home : Str
  away : Str
  home_nonempty : home ≠ []
  away_nonempty : away ≠ []
  distinct : home ≠ away

def PairKey.Same (p q : PairKey) : Prop :=
  (p.home = q.home ∧ p.away = q.away) ∨ (p.home = q.away ∧ p.away = q.home)

instance (p q : PairKey) : Decidable (p.Same q) :=
  inferInstanceAs (Decidable ((p.home = q.home ∧ p.away = q.away) ∨ _))

def fixturePairKey (home away : Str) : Option PairKey :=
  let homeKey := normalizeName (stripLiveStatus home)
  let awayKey := normalizeName (stripLiveStatus away)
  if h : homeKey ≠ [] ∧ awayKey ≠ [] ∧ homeKey ≠ awayKey then
    some ⟨homeKey, awayKey, h.1, h.2.1, h.2.2⟩
  else none

end SharpEvPicks.Resolution
