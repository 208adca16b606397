import Mathlib.Data.List.TakeWhile
import SharpEvPicks.Python.Str

/-! `urllib.parse`: `urlsplit`, `urlparse`, what they read off the network location, and `geturl`. A
URL that raises `ValueError` is `none`. -/
namespace Python

/-! Cutting a text at a character. -/

/-- Up to the first character that satisfies `p`, and from it on. -/
def cutAt (p : Char → Bool) (s : Str) : Str × Str :=
  (s.takeWhile fun c => !p c, s.dropWhile fun c => !p c)

/-- It ends there, or goes on with such a character. -/
def StopsAt (p : Char → Bool) (s : Str) : Prop := s = [] ∨ ∃ c rest, s = c :: rest ∧ p c

section Cuts
variable {p q : Char → Bool} {s before after : Str}

theorem cutAt_append (p : Char → Bool) (s : Str) : (cutAt p s).1 ++ (cutAt p s).2 = s :=
  List.takeWhile_append_dropWhile

theorem cutAt_clear {c : Char} (inside : c ∈ (cutAt p s).1) : p c = false := by
  simpa using List.mem_takeWhile_imp inside

theorem cutAt_stops (p : Char → Bool) (s : Str) : StopsAt p (cutAt p s).2 := by
  have stop := List.head?_dropWhile_not (fun c => !p c) s
  unfold cutAt
  cases shape : s.dropWhile fun c => !p c with
  | nil => exact .inl rfl
  | cons c rest =>
    rw [shape] at stop
    exact .inr ⟨c, rest, rfl, by simpa using stop⟩

theorem cutAt_of_stops (clear : ∀ c ∈ before, p c = false) (stops : StopsAt p after) :
    cutAt p (before ++ after) = (before, after) := by
  have each : ∀ c ∈ before, (!p c) = true := fun c inside => by rw [clear c inside]; rfl
  unfold cutAt
  rw [List.takeWhile_append_of_pos each, List.dropWhile_append_of_pos each]
  obtain rfl | ⟨c, rest, rfl, stop⟩ := stops
  · simp
  · simp [stop]

theorem cutAt_of_clear (clear : ∀ c ∈ s, p c = false) : cutAt p s = (s, []) := by
  simpa using cutAt_of_stops clear (.inl rfl)

theorem StopsAt.mono (stops : StopsAt p s) (wider : ∀ c, p c → q c) : StopsAt q s := by
  obtain rfl | ⟨c, rest, rfl, stop⟩ := stops
  · exact .inl rfl
  · exact .inr ⟨c, rest, rfl, wider c stop⟩

end Cuts

/-! `urlsplit`. -/

class UrlText [Unicode] where
  /-- `unicodedata.normalize("NFKC", s)`. -/
  nfkc : Str → Str
  /-- `ipaddress.IPv6Address(s)` is one. -/
  isIpv6 : Str → Bool
  isIpv6_colon : ∀ s, isIpv6 s → ':' ∈ s

@[reducible] def UrlText.ascii : @UrlText Unicode.ascii :=
  @UrlText.mk Unicode.ascii id (fun s => decide (':' ∈ s)) fun _ colon => of_decide_eq_true colon

structure SplitResult where
  scheme : Str
  netloc : Str
  path : Str
  query : Str
  fragment : Str
  deriving DecidableEq

/-- A C0 control or a space. -/
def isC0OrSpace (c : Char) : Bool := c.toNat ≤ 32

def isTabOrNewline (c : Char) : Bool := c == '\t' || c == '\r' || c == '\n'

def isSchemeChar (c : Char) : Bool := c.isAlphanum || c == '+' || c == '-' || c == '.'

def endsNetloc (c : Char) : Bool := c == '/' || c == '?' || c == '#'

def scrubbed (url : Str) : Str := (url.dropWhile isC0OrSpace).filter fun c => !isTabOrNewline c

def splitScheme (url : Str) : Str × Str :=
  let (head, rest) := cutAt (· == ':') url
  if rest ≠ [] && head.head?.any Char.isAlpha && head.all isSchemeChar then
    (head.map Char.toLower, rest.drop 1)
  else ([], url)

def splitNetloc (url : Str) : Str × Str :=
  if "//".toList.isPrefixOf url then cutAt endsNetloc (url.drop 2) else ([], url)

/-- `\Av[a-fA-F0-9]+\..+\Z`. -/
def isFutureAddress : Str → Bool
  | 'v' :: rest =>
    let (version, tail) :=
      cutAt (fun c => !(c.isDigit || ('a' ≤ c && c ≤ 'f') || ('A' ≤ c && c ≤ 'F'))) rest
    version ≠ [] && tail.head? == some '.' && tail.length ≥ 2
  | _ => false

section Parsing
variable [Unicode] [UrlText]

/-- `_check_bracketed_netloc`. -/
def checkBracketedNetloc (netloc : Str) : Bool :=
  let hostnameAndPort := (rpartition '@' netloc).2
  let (beforeBracket, bracketed) := cutAt (· == '[') hostnameAndPort
  if bracketed = [] then
    let hostname := (cutAt (· == ':') hostnameAndPort).1
    if hostname.head? = some 'v' then isFutureAddress hostname else UrlText.isIpv6 hostname
  else
    let (hostname, rest) := cutAt (· == ']') (bracketed.drop 1)
    let port := rest.drop 1
    beforeBracket = [] && (port = [] || port.head? = some ':') &&
      if hostname.head? = some 'v' then isFutureAddress hostname else UrlText.isIpv6 hostname

def checkBrackets (netloc : Str) : Bool :=
  if '[' ∈ netloc ∨ ']' ∈ netloc then '[' ∈ netloc && ']' ∈ netloc &&
    checkBracketedNetloc netloc
    else true

/-- `_checknetloc`. -/
def checknetloc (netloc : Str) : Bool :=
  if netloc.all isAscii then true
  else
    let n := netloc.filter fun c => !(c == '@' || c == ':' || c == '#' || c == '?')
    let netloc2 := UrlText.nfkc n
    n == netloc2 || netloc2.all fun c => !(c == '/' || c == '?' || c == '#' || c == '@' || c == ':')

def urlsplit (url : Str) : Option SplitResult :=
  let (scheme, rest) := splitScheme (scrubbed url)
  let (netloc, rest) := splitNetloc rest
  if checkBrackets netloc && checknetloc netloc then
    let (rest, fragment) := cutAt (· == '#') rest
    let (path, query) := cutAt (· == '?') rest
    some { scheme := scheme, netloc := netloc, path := path, query := query.drop 1,
           fragment := fragment.drop 1 }
  else none

end Parsing

/-! The parts of a text that is split. -/

theorem toLower_ascii {c : Char} (ascii : isAscii c) :
    isAscii c.toLower ∧ c.toLower.toLower = c.toLower := by
  have table : ∀ n : Fin 128, isAscii (Char.ofNat n).toLower ∧
      (Char.ofNat n).toLower.toLower = (Char.ofNat n).toLower := by
    decide
  have small : c.toNat < 128 := of_decide_eq_true ascii
  have here := table ⟨c.toNat, small⟩
  rwa [Char.ofNat_toNat] at here

section Parts
variable {url scheme netloc rest : Str} {r : SplitResult}

theorem splitScheme_eq (parts : splitScheme url = (scheme, rest)) (some_ : scheme ≠ []) :
    ∃ head, url = head ++ ':' :: rest ∧ head.map Char.toLower = scheme ∧
      ∀ other, splitScheme (head ++ ':' :: other) = (scheme, other) := by
  unfold splitScheme at parts
  have whole := cutAt_append (· == ':') url
  have stops := cutAt_stops (· == ':') url
  have clear := @cutAt_clear (· == ':') url
  generalize cutAt (· == ':') url = cut at parts whole stops clear
  obtain ⟨head, tail⟩ := cut
  dsimp only at parts whole stops clear
  split at parts
  · rename_i named
    cases parts
    obtain rfl | ⟨c, tail, rfl, colon⟩ := stops
    · simp at named
    · obtain rfl : c = ':' := by simpa using colon
      refine ⟨head, whole.symm, rfl, fun other => ?_⟩
      have again := cutAt_of_stops (fun c inside => clear inside)
        (.inr ⟨':', other, rfl, colon⟩)
      unfold splitScheme
      rw [again]
      simp only [ne_eq, reduceCtorEq, not_false_eq_true, decide_true, Bool.true_and,
        Bool.and_eq_true] at named ⊢
      rw [if_pos named]
      rfl
  · cases parts
    exact absurd rfl some_

theorem splitNetloc_eq (parts : splitNetloc url = (netloc, rest)) (some_ : netloc ≠ []) :
    url = '/' :: '/' :: (netloc ++ rest) ∧ (∀ c ∈ netloc, endsNetloc c = false) ∧
      StopsAt endsNetloc rest := by
  unfold splitNetloc at parts
  split at parts
  · rename_i slashes
    obtain ⟨tail, rfl⟩ := List.isPrefixOf_iff_prefix.mp slashes
    have drop : ("//".toList ++ tail).drop 2 = tail := rfl
    rw [drop] at parts
    have whole := cutAt_append endsNetloc tail
    have stops := cutAt_stops endsNetloc tail
    have clear := @cutAt_clear endsNetloc tail
    rw [parts] at whole stops clear
    exact ⟨by rw [← whole]; rfl, fun c inside => clear inside, stops⟩
  · cases parts
    exact absurd rfl some_

theorem isAscii_of_isSchemeChar {c : Char} (named : isSchemeChar c) : isAscii c := by
  refine decide_eq_true ?_
  obtain dotted | rfl := (Bool.or_eq_true _ _).mp named |>.imp_right eq_of_beq
  · obtain dashed | rfl := (Bool.or_eq_true _ _).mp dotted |>.imp_right eq_of_beq
    · obtain alnum | rfl := (Bool.or_eq_true _ _).mp dashed |>.imp_right eq_of_beq
      · have bound : c.val.toNat ≤ 122 := by
          obtain letter | digit := Bool.or_eq_true_iff.mp alnum
          · obtain upper | lower := Bool.or_eq_true_iff.mp letter
            · exact (UInt32.le_iff_toNat_le.mp (of_decide_eq_true upper).2).trans (by decide)
            · exact UInt32.le_iff_toNat_le.mp (of_decide_eq_true (Bool.and_eq_true_iff.mp lower).2)
          · exact (UInt32.le_iff_toNat_le.mp
              (of_decide_eq_true (Bool.and_eq_true_iff.mp digit).2)).trans (by decide)
        exact Nat.lt_of_le_of_lt bound (by decide)
      · decide
    · decide
  · decide

variable [Unicode] [UrlText]

omit [UrlText] in
theorem lower_splitScheme (text : Str) :
    Unicode.lower (splitScheme text).1 = (splitScheme text).1 := by
  have lower_nil : Unicode.lower [] = [] := Unicode.lower_ascii [] fun _ none => by cases none
  unfold splitScheme
  dsimp only
  split
  · rename_i named
    have each := List.all_eq_true.mp (Bool.and_eq_true_iff.mp named).2
    have ascii : ∀ c ∈ (cutAt (· == ':') text).1, isAscii c :=
      fun c inside => isAscii_of_isSchemeChar (each c inside)
    rw [Unicode.lower_ascii, List.map_map]
    · exact List.map_congr_left fun c inside => (toLower_ascii (ascii c inside)).2
    · intro c inside
      obtain ⟨d, there, rfl⟩ := List.mem_map.mp inside
      exact (toLower_ascii (ascii d there)).1
  · exact lower_nil

/-- The text that is split, part by part. -/
structure Split (url : Str) (r : SplitResult) where
  head : Str
  tail : Str
  text : scrubbed url = head ++ ':' :: '/' :: '/' :: (r.netloc ++ tail)
  lowered : head.map Char.toLower = r.scheme
  scheme : ∀ other, splitScheme (head ++ ':' :: other) = (r.scheme, other)
  clear : ∀ c ∈ r.netloc, endsNetloc c = false
  stops : StopsAt endsNetloc tail
  brackets : checkBrackets r.netloc
  compatible : checknetloc r.netloc
  path : r.path = (cutAt (· == '?') (cutAt (· == '#') tail).1).1
  query : r.query = (cutAt (· == '?') (cutAt (· == '#') tail).1).2.drop 1

theorem split_of_urlsplit (parsed : urlsplit url = some r) (named : r.scheme ≠ [])
    (located : r.netloc ≠ []) : Nonempty (Split url r) := by
  unfold urlsplit at parsed
  cases first : splitScheme (scrubbed url) with
  | mk scheme rest =>
    cases second : splitNetloc rest with
    | mk netloc tail =>
      simp only [first, second] at parsed
      split at parsed
      · rename_i checked
        obtain ⟨brackets, compatible⟩ := Bool.and_eq_true_iff.mp checked
        cases parsed
        obtain ⟨head, text, lowered, again⟩ := splitScheme_eq first named
        obtain ⟨shape, clear, stops⟩ := splitNetloc_eq second located
        exact ⟨
          { head := head
            tail := tail
            text := by rw [text, shape]
            lowered := lowered
            scheme := again
            clear := clear
            stops := stops
            brackets := brackets
            compatible := compatible
            path := rfl
            query := rfl }⟩
      · cases parsed

theorem lower_scheme (parsed : urlsplit url = some r) : Unicode.lower r.scheme = r.scheme := by
  have lowered : Unicode.lower (splitScheme (scrubbed url)).1 = (splitScheme (scrubbed url)).1 :=
    lower_splitScheme _
  unfold urlsplit at parsed
  cases first : splitScheme (scrubbed url) with
  | mk scheme rest =>
    cases second : splitNetloc rest with
    | mk netloc tail =>
      simp only [first, second] at parsed
      rw [first] at lowered
      split at parsed
      · cases parsed
        exact lowered
      · cases parsed

end Parts

/-! What is read off the network location. -/

namespace SplitResult

/-- `_userinfo`. -/
def userinfo (r : SplitResult) : Option (Str × Option Str) :=
  if '@' ∈ r.netloc then
    let (username, password) := cutAt (· == ':') (rpartition '@' r.netloc).1
    some (username, if password = [] then none else some (password.drop 1))
  else none

def username (r : SplitResult) : Option Str := r.userinfo.map Prod.fst

def password (r : SplitResult) : Option Str := r.userinfo.bind Prod.snd

/-- `_hostinfo`. -/
def hostinfo (r : SplitResult) : Str × Option Str :=
  let info := (rpartition '@' r.netloc).2
  let (_, bracketed) := cutAt (· == '[') info
  let (hostname, port) :=
    if bracketed = [] then cutAt (· == ':') info
    else
      let (hostname, port) := cutAt (· == ']') (bracketed.drop 1)
      (hostname, (cutAt (· == ':') (port.drop 1)).2)
  (hostname, if port.drop 1 = [] then none else some (port.drop 1))

theorem plain_of_username {r : SplitResult} (anonymous : r.username = none) : '@' ∉ r.netloc := by
  intro inside
  rw [username, userinfo, if_pos inside] at anonymous
  cases anonymous

theorem rpartition_of_not_mem {sep : Char} {s : Str} (absent : sep ∉ s) :
    rpartition sep s = ([], s) := by
  have none : s.reverse.dropWhile (· ≠ sep) = [] := by
    refine List.dropWhile_eq_nil_iff.mpr fun c inside => decide_eq_true ?_
    rintro rfl
    exact absent (List.mem_reverse.mp inside)
  rw [rpartition, none]

theorem hostinfo_plain {r : SplitResult} (anonymous : '@' ∉ r.netloc) (open_ : '[' ∉ r.netloc) :
    r.hostinfo.1 = (cutAt (· == ':') r.netloc).1 ∧
      r.hostinfo.2 = if (cutAt (· == ':') r.netloc).2.drop 1 = [] then none
        else some ((cutAt (· == ':') r.netloc).2.drop 1) := by
  have clear : cutAt (· == '[') r.netloc = (r.netloc, []) :=
    cutAt_of_clear fun c inside => beq_eq_false_iff_ne.mpr fun same => open_ (same ▸ inside)
  simp [hostinfo, rpartition_of_not_mem anonymous, clear]

/-- In brackets stands the address itself, of version six or of one to come. -/
theorem hostinfo_bracketed [Unicode] [UrlText] {r : SplitResult} (anonymous : '@' ∉ r.netloc)
    (opened : '[' ∈ r.netloc) (checked : checkBrackets r.netloc) :
      isFutureAddress r.hostinfo.1 ∨ UrlText.isIpv6 r.hostinfo.1 := by
  have some_ : (cutAt (· == '[') r.netloc).2 ≠ [] := by
    intro none
    have whole := cutAt_append (· == '[') r.netloc
    rw [none, List.append_nil] at whole
    rw [← whole] at opened
    simpa using cutAt_clear opened
  have named : r.hostinfo.1 = (cutAt (· == ']') ((cutAt (· == '[') r.netloc).2.drop 1)).1 := by
    unfold hostinfo
    rw [rpartition_of_not_mem anonymous]
    dsimp only
    rw [if_neg some_]
  rw [checkBrackets, if_pos (.inl opened), Bool.and_eq_true_iff] at checked
  have address := checked.2
  unfold checkBracketedNetloc at address
  rw [rpartition_of_not_mem anonymous] at address
  dsimp only at address
  rw [if_neg some_, ← named, Bool.and_eq_true_iff] at address
  obtain ⟨-, address⟩ := address
  split at address
  · exact .inl address
  · exact .inr address

section Texts
variable [Unicode]

/-- The zone of a scoped address keeps its case. -/
def hostname (r : SplitResult) : Option Str :=
  if r.hostinfo.1 = [] then none
  else
    let (hostname, zone) := cutAt (· == '%') r.hostinfo.1
    some (Unicode.lower hostname ++ zone)

/-- `port`, `none` where it raises. -/
def port (r : SplitResult) : Option (Option Nat) :=
  match r.hostinfo.2 with
  | none => some none
  | some text =>
    if text.all Char.isDigit && decimalsValue text ≤ 65535 then some (some (decimalsValue text))
      else none

end Texts
end SplitResult

/-! `urlparse` and `geturl`. -/

structure ParseResult extends SplitResult where
  params : Str
  deriving DecidableEq

def usesParams : List Str :=
  ["".toList, "ftp".toList, "hdl".toList, "prospero".toList, "http".toList, "imap".toList,
    "https".toList,
    "shttp".toList, "rtsp".toList, "rtsps".toList, "rtspu".toList, "sip".toList, "sips".toList,
      "mms".toList,
    "sftp".toList, "tel".toList]

def usesNetloc : List Str :=
  ["".toList, "ftp".toList, "http".toList, "gopher".toList, "nntp".toList, "telnet".toList,
    "imap".toList, "wais".toList,
    "file".toList, "mms".toList, "https".toList, "shttp".toList, "snews".toList, "prospero".toList,
      "rtsp".toList,
    "rtsps".toList, "rtspu".toList, "rsync".toList, "svn".toList, "svn+ssh".toList, "sftp".toList,
      "nfs".toList,
    "git".toList, "git+ssh".toList, "ws".toList, "wss".toList, "itms-services".toList]

/-- The text after the last slash, with what comes before. -/
def lastSegment (path : Str) : Str × Str :=
  let (last, lead) := cutAt (· == '/') path.reverse
  (lead.reverse, last.reverse)

/-- `_splitparams`. -/
def splitParams (path : Str) : Str × Str :=
  let (lead, last) := lastSegment path
  let (name, params) := cutAt (· == ';') last
  (lead ++ name, params.drop 1)

def urlparse [Unicode] [UrlText] (url : Str) : Option ParseResult :=
  (urlsplit url).map fun r =>
    if r.scheme ∈ usesParams && ';' ∈ r.path then
      let (path, params) := splitParams r.path
      { r with path := path, params := params }
    else { r with params := [] }

theorem urlparse_eq [Unicode] [UrlText] {url : Str} {parsed : ParseResult}
    (done : urlparse url = some parsed) :
    ∃ r, urlsplit url = some r ∧ parsed.toSplitResult = { r with path := parsed.path } := by
  obtain ⟨r, first, rfl⟩ := Option.map_eq_some_iff.mp done
  refine ⟨r, first, ?_⟩
  split <;> rfl

/-- `urlunsplit`. -/
def urlunsplit (r : SplitResult) : Str :=
  let url :=
    if r.netloc ≠ [] then
      "//".toList ++ r.netloc ++ (if r.path ≠ [] ∧ r.path.head? ≠ some '/' then '/' :: r.path
        else r.path)
    else if "//".toList.isPrefixOf r.path then "//".toList ++ r.path
    else if r.scheme ≠ [] ∧ r.scheme ∈ usesNetloc ∧
      (r.path = [] ∨ r.path.head? = some '/') then
      "//".toList ++ r.path
    else r.path
  let url := if r.scheme ≠ [] then r.scheme ++ ':' :: url else url
  let url := if r.query ≠ [] then url ++ '?' :: r.query else url
  if r.fragment ≠ [] then url ++ '#' :: r.fragment else url

/-- Path and parameters as they are printed. -/
def withParams (path params : Str) : Str := if params ≠ [] then path ++ ';' :: params else path

/-- `urlunparse`. -/
def ParseResult.geturl (r : ParseResult) : Str :=
  urlunsplit { r.toSplitResult with path := withParams r.path r.params }

end Python
