import Mathlib.Data.List.DropRight
import SharpEvPicks.Ingestion.ExchangeBooks
import SharpEvPicks.Python.Format
import SharpEvPicks.Python.Urls

/-! The guard of the match pages that may be fetched, `_is_allowed_match_url` of
`app/clv_trueup.py`, and the host that a browser goes to. -/
namespace SharpEvPicks.Clv

open Python Ingestion

/-- `str.lower` and `str.casefold`, as far as they go character by character. -/
class CaseEach extends CaseMaps where
  lower_mem : ∀ (s : Str) (c : Char), c ∈ s → isAscii c → c.toLower ∈ lower s
  casefold_mem : ∀ (s : Str) (c : Char), c ∈ s → isAscii c → c.toLower ∈ casefold s

@[reducible] def CaseEach.ascii : CaseEach :=
  { CaseMaps.ascii with
    lower_mem := fun _ _ inside _ => List.mem_map_of_mem inside
    casefold_mem := fun _ _ inside _ => List.mem_map_of_mem inside }

def allowedMatchHosts : List Str := ["oddsportal.com".toList, "www.oddsportal.com".toList]

/-- `_is_allowed_match_url`. -/
def isAllowedMatchUrl [CaseMaps] [UrlText] (ref : Str) : Bool :=
  if '\\' ∈ ref || ref.any isSpace then false
  else
    match urlparse ref with
    | none => false
    | some parsed =>
      match parsed.port with
      | none => false
      | some port =>
        if parsed.scheme ≠ "https".toList then false
        else if parsed.username.isSome || parsed.password.isSome then false
        else CaseMaps.casefold (parsed.hostname.getD []) ∈ allowedMatchHosts &&
          (port = none || port = some 443)

/-! What a browser reads off a URL is not in this repository: its parser is a parameter. -/

/-- As a browser's parser first trims it. -/
def trimmed (url : Str) : Str :=
  ((url.dropWhile isC0OrSpace).rdropWhile isC0OrSpace).filter fun c => !isTabOrNewline c

def isDomainChar (c : Char) : Bool := 'a' ≤ c && c ≤ 'z' || c == '.'

/-- A domain that is spelled in ASCII already, and not with the `ss` of a sharp s. -/
def isPlainDomain (domain : Str) : Bool :=
  domain ≠ [] && domain.all isDomainChar && domain.tails.all fun t => !"ss".toList.isPrefixOf t

/-- An https URL with a host that folds to such a domain, and at most a port beside it. -/
structure Spells [CaseMaps] (url host port : Str) : Prop where
  text : ∃ head rest, trimmed url = head ++ "://".toList ++ (host ++ port) ++ rest ∧
    head.map Char.toLower = "https".toList ∧ StopsAt endsNetloc rest
  domain : isPlainDomain (CaseMaps.casefold (Unicode.lower host))
  port : port = [] ∨
    ∃ digits, port = ':' :: digits ∧ digits.all Char.isDigit ∧ decimalsValue digits ≤ 65535

/-- The port of the scheme stands where none is written. -/
def portNumber [Unicode] (port : Str) : Nat :=
  if port.drop 1 = [] then 443 else decimalsValue (port.drop 1)

/-- What is assumed of a browser's URL parser, `authority`: of an https URL without credentials,
with slashes before the host, it takes the host, folded to lower case, and the port. Of other texts
nothing is assumed. -/
structure ReadsUrls [CaseMaps] (authority : Str → Option (Str × Nat)) : Prop where
  plain : ∀ url host port, Spells url host port →
    authority url = some (CaseMaps.casefold (Unicode.lower host), portNumber port)

/-! The characters of an accepted host. -/

section Characters
variable {c : Char}

/-- The ASCII characters of the two hosts. -/
def inHosts (c : Char) : Bool := c.toLower ∈ "www.oddsportal.com".toList

theorem inHosts_of_folded [CaseEach] {name zone : Str}
    (known : CaseMaps.casefold (Unicode.lower name ++ zone) ∈ allowedMatchHosts)
    (inside : c ∈ name ++ zone) (ascii : isAscii c) : inHosts c := by
  obtain ⟨lowered, same⟩ := toLower_ascii ascii
  have folded : c.toLower ∈ CaseMaps.casefold (Unicode.lower name ++ zone) := by
    obtain first | second := List.mem_append.mp inside
    · rw [← same]
      exact CaseEach.casefold_mem _ _ (List.mem_append_left _ (CaseEach.lower_mem _ _ first ascii))
        lowered
    · exact CaseEach.casefold_mem _ _ (List.mem_append_right _ second) ascii
  refine decide_eq_true ?_
  rcases List.mem_cons.mp known with short | long
  · rw [short] at folded
    exact List.mem_append_right "www.".toList folded
  · rwa [List.mem_singleton.mp long] at folded

set_option maxRecDepth 2000 in
theorem toNat_of_inHosts (ascii : isAscii c) (known : inHosts c) : 33 ≤ c.toNat := by
  have table : ∀ n : Fin 128, inHosts (Char.ofNat n) → 33 ≤ n.val := by decide
  have small : c.toNat < 128 := of_decide_eq_true ascii
  have here := table ⟨c.toNat, small⟩
  rw [Char.ofNat_toNat] at here
  exact here known

end Characters

theorem rdropWhile_append_of_neg {p : Char → Bool} {s : Str} (rest : Str) (some_ : s ≠ [])
    (last : p (s.getLast some_) = false) : (s ++ rest).rdropWhile p = s ++ rest.rdropWhile p := by
  induction rest using List.reverseRecOn with
  | nil =>
    rw [List.append_nil, List.rdropWhile_nil, List.append_nil]
    exact List.rdropWhile_eq_self_iff.mpr fun _ => by simp [last]
  | append_singleton rest c ih =>
    rw [← List.append_assoc, List.rdropWhile_concat, List.rdropWhile_concat, ih]
    split
    · rfl
    · rw [List.append_assoc]

/-! What an accepted link is. -/

section Accepted
variable [CaseEach] {ref : Str} {r : SplitResult}

theorem casefold_nil : CaseMaps.casefold [] = [] :=
  CaseMaps.casefold_ascii [] fun _ none => by cases none

/-- The host is one of the two, whatever its case. -/
structure Folded (host : Str) : Prop where
  known : CaseMaps.casefold (Unicode.lower host) ∈ allowedMatchHosts
  filled : host ≠ []
  letters : ∀ c ∈ host, isAscii c → inHosts c

theorem folded_of_hostname (known : CaseMaps.casefold (r.hostname.getD []) ∈ allowedMatchHosts) :
    Folded r.hostinfo.1 := by
  have filled : r.hostinfo.1 ≠ [] := by
    intro none
    rw [SplitResult.hostname, if_pos none, Option.getD_none, casefold_nil] at known
    simp [allowedMatchHosts] at known
  rw [SplitResult.hostname, if_neg filled] at known
  have whole := cutAt_append (· == '%') r.hostinfo.1
  have stops := cutAt_stops (· == '%') r.hostinfo.1
  generalize cutAt (· == '%') r.hostinfo.1 = cut at known whole stops
  obtain ⟨name, zone⟩ := cut
  have letters : ∀ c ∈ r.hostinfo.1, isAscii c → inHosts c := fun c inside ascii =>
    inHosts_of_folded known (whole ▸ inside) ascii
  obtain rfl | ⟨c, rest, rfl, percent⟩ := stops
  · dsimp only [Option.getD_some] at known whole
    rw [List.append_nil] at known whole
    rw [whole] at known
    exact ⟨known, filled, letters⟩
  · obtain rfl : c = '%' := by simpa using percent
    have there : '%' ∈ r.hostinfo.1 := whole ▸ List.mem_append_right _ List.mem_cons_self
    exact absurd (letters '%' there rfl) (by decide)

theorem Folded.domain {host : Str} (folded : Folded host) :
    isPlainDomain (CaseMaps.casefold (Unicode.lower host)) := by
  have table : ∀ domain ∈ allowedMatchHosts, isPlainDomain domain = true := by decide
  exact table _ folded.known

theorem Folded.not_mem {host : Str} (folded : Folded host) {c : Char} (ascii : isAscii c)
    (foreign : inHosts c = false) : c ∉ host := by
  intro inside
  rw [folded.letters c inside ascii] at foreign
  cases foreign

theorem hostname_of_folded (folded : Folded r.hostinfo.1) :
    r.hostname = some (Unicode.lower r.hostinfo.1) := by
  have whole : cutAt (· == '%') r.hostinfo.1 = (r.hostinfo.1, []) := by
    refine cutAt_of_clear fun c inside => beq_eq_false_iff_ne.mpr ?_
    rintro rfl
    exact folded.not_mem rfl (by decide) inside
  rw [SplitResult.hostname, if_neg folded.filled, whole]
  simp

theorem no_brackets [UrlText] (folded : Folded r.hostinfo.1) (anonymous : '@' ∉ r.netloc)
    (checked : checkBrackets r.netloc) : '[' ∉ r.netloc := by
  intro opened
  obtain future | six := SplitResult.hostinfo_bracketed anonymous opened checked
  · unfold isFutureAddress at future
    split at future
    · rename_i rest shape
      have letter := folded.not_mem (c := 'v') rfl (by decide)
      exact letter (shape ▸ List.mem_cons_self)
    · cases future
  · exact folded.not_mem (c := ':') rfl (by decide) (UrlText.isIpv6_colon _ six)

/-- A network location of a host and, maybe, a port. -/
structure Located (netloc host port : Str) : Prop where
  folded : Folded host
  text : netloc = host ∧ port = [] ∨ netloc = host ++ ':' :: port
  secure : port = [] ∨ port.all Char.isDigit ∧ decimalsValue port = 443

theorem located [UrlText] (folded : Folded r.hostinfo.1) (anonymous : '@' ∉ r.netloc)
    (checked : checkBrackets r.netloc) (secure : r.port = some none ∨ r.port = some (some 443)) :
      ∃ port, Located r.netloc r.hostinfo.1 port := by
  obtain ⟨host, read⟩ :=
    SplitResult.hostinfo_plain anonymous (no_brackets folded anonymous checked)
  have whole := cutAt_append (· == ':') r.netloc
  have stops := cutAt_stops (· == ':') r.netloc
  rw [← host] at whole
  rw [SplitResult.port, read] at secure
  generalize (cutAt (· == ':') r.netloc).2 = tail at whole stops secure
  refine ⟨tail.drop 1, folded, ?_, ?_⟩
  · obtain rfl | ⟨c, rest, rfl, colon⟩ := stops
    · exact .inl ⟨by rw [← whole, List.append_nil], rfl⟩
    · obtain rfl : c = ':' := by simpa using colon
      exact .inr whole.symm
  · by_cases none : tail.drop 1 = []
    · exact .inl none
    · right
      rw [if_neg none] at secure
      dsimp only at secure
      split at secure
      · rename_i number
        obtain ⟨digits, -⟩ := Bool.and_eq_true_iff.mp number
        obtain absent | value := secure
        · cases absent
        · exact ⟨digits, Option.some.inj (Option.some.inj value)⟩
      · obtain raised | raised := secure <;> cases raised

namespace Located
variable {netloc host port tail : Str}

theorem visible (there : Located netloc host port) {c : Char} (inside : c ∈ netloc) :
    isC0OrSpace c = false := by
  have high (n : Nat) (large : 33 ≤ n) (code : c.toNat = n) : isC0OrSpace c = false :=
    decide_eq_false (by omega)
  have lettered (inside : c ∈ host) : isC0OrSpace c = false := by
    by_cases ascii : isAscii c
    · exact high _ (toNat_of_inHosts ascii (there.folded.letters c inside ascii)) rfl
    · have large : ¬ c.toNat < 128 := fun small => ascii (decide_eq_true small)
      exact high _ (by omega) rfl
  obtain ⟨rfl, -⟩ | rfl := there.text
  · exact lettered inside
  · obtain first | second := List.mem_append.mp inside
    · exact lettered first
    · obtain rfl | digit := List.mem_cons.mp second
      · rfl
      · obtain rfl | ⟨digits, -⟩ := there.secure
        · cases digit
        · have number := List.all_eq_true.mp digits c digit
          simp only [Char.isDigit, Bool.and_eq_true, decide_eq_true_eq,
            UInt32.le_iff_toNat_le] at number
          have code : c.val.toNat = c.toNat := rfl
          refine high _ ?_ rfl
          simp at number
          omega

theorem ne_nil (there : Located netloc host port) : netloc ≠ [] := by
  obtain ⟨rfl, -⟩ | rfl := there.text
  · exact there.folded.filled
  · simp

/-- Nothing is trimmed off such a text before the location, and no tab or newline is in it. -/
theorem trimmed_eq (there : Located netloc host port) {scheme rest : Str}
    (spaceless : ∀ c ∈ ref, isSpace c = false)
    (text : scrubbed ref = scheme ++ ':' :: '/' :: '/' :: (netloc ++ rest)) :
    trimmed ref = scheme ++ [':', '/', '/'] ++ netloc ++ rest.rdropWhile isC0OrSpace := by
  have tidy : ∀ c ∈ ref, isTabOrNewline c = false := fun c inside => by
    by_contra blank
    have space := spaceless c inside
    simp only [isTabOrNewline, Bool.not_eq_false, Bool.or_eq_true, beq_iff_eq] at blank
    obtain (rfl | rfl) | rfl := blank <;> cases space
  have within {c : Char} (inside : c ∈ ref.dropWhile isC0OrSpace) : c ∈ ref :=
    (List.dropWhile_suffix _).subset inside
  have front : ref.dropWhile isC0OrSpace = (scheme ++ [':', '/', '/'] ++ netloc) ++ rest := by
    have same : scrubbed ref = ref.dropWhile isC0OrSpace :=
      List.filter_eq_self.mpr fun c inside => by rw [tidy c (within inside)]; rfl
    rw [← same, text]
    simp
  have last : isC0OrSpace ((scheme ++ [':', '/', '/'] ++ netloc).getLast (by simp)) = false := by
    rw [List.getLast_append_of_ne_nil _ there.ne_nil]
    exact there.visible (List.getLast_mem _)
  have back := rdropWhile_append_of_neg rest _ last
  rw [← front] at back
  rw [trimmed, List.filter_eq_self.mpr, back]
  intro c inside
  rw [tidy c (within ((List.rdropWhile_prefix _ _).subset inside))]
  rfl

omit [CaseEach] in
theorem stops_trimmed {rest : Str} (stops : StopsAt endsNetloc rest) :
    StopsAt endsNetloc (rest.rdropWhile isC0OrSpace) := by
  obtain rfl | ⟨c, more, rfl, stop⟩ := stops
  · exact .inl rfl
  · have seen : isC0OrSpace c = false := by
      simp only [endsNetloc, Bool.or_eq_true, beq_iff_eq] at stop
      obtain (rfl | rfl) | rfl := stop <;> rfl
    exact .inr ⟨c, _, rdropWhile_append_of_neg more (List.cons_ne_nil c []) seen, stop⟩

/-- A text that ends with such a location spells it out for a browser too. -/
theorem spells (there : Located netloc host port) {scheme rest : Str}
    (spaceless : ∀ c ∈ ref, isSpace c = false)
    (text : scrubbed ref = scheme ++ ':' :: '/' :: '/' :: (netloc ++ rest))
    (https : scheme.map Char.toLower = "https".toList) (stops : StopsAt endsNetloc rest) :
    ∃ port', Spells ref host port' ∧ portNumber port' = 443 := by
  have kept := there.trimmed_eq spaceless text
  have ends := stops_trimmed stops
  obtain ⟨rfl, -⟩ | rfl := there.text
  · refine ⟨[], ⟨⟨scheme, _, ?_, https, ends⟩, there.folded.domain, .inl rfl⟩, rfl⟩
    rw [List.append_nil]
    exact kept
  · obtain ⟨digits, value⟩ : port.all Char.isDigit ∧ portNumber (':' :: port) = 443 := by
      obtain rfl | ⟨digits, value⟩ := there.secure
      · exact ⟨rfl, rfl⟩
      · refine ⟨digits, ?_⟩
        unfold portNumber
        split
        · rfl
        · exact value
    have small : decimalsValue port ≤ 65535 := by
      obtain rfl | ⟨-, standard⟩ := there.secure
      · exact Nat.zero_le _
      · omega
    exact ⟨':' :: port, ⟨⟨scheme, _, kept, https, ends⟩, there.folded.domain,
      .inr ⟨port, rfl, digits, small⟩⟩, value⟩

end Located

section
variable [UrlText]

/-- What the guard has checked of a link that it accepts. -/
theorem allowed_checks (allowed : isAllowedMatchUrl ref) :
    (∀ c ∈ ref, isSpace c = false) ∧ ∃ parsed, urlparse ref = some parsed ∧
      parsed.scheme = "https".toList ∧ parsed.username = none ∧
      CaseMaps.casefold (parsed.hostname.getD []) ∈ allowedMatchHosts ∧
      (parsed.port = some none ∨ parsed.port = some (some 443)) := by
  unfold isAllowedMatchUrl at allowed
  split at allowed
  · cases allowed
  · rename_i plain
    simp only [Bool.or_eq_true, decide_eq_true_eq, not_or, Bool.not_eq_true,
      List.any_eq_false] at plain
    refine ⟨plain.2, ?_⟩
    split at allowed
    · cases allowed
    · rename_i parsed done
      split at allowed
      · cases allowed
      · rename_i port read
        split at allowed
        · cases allowed
        · rename_i https
          split at allowed
          · cases allowed
          · rename_i anonymous
            obtain ⟨known, secure⟩ := Bool.and_eq_true_iff.mp allowed
            simp only [Bool.or_eq_true, not_or, Bool.not_eq_true, Option.isSome_eq_false_iff,
              Option.isNone_iff_eq_none] at anonymous
            refine ⟨parsed, done, not_not.mp https, anonymous.1, of_decide_eq_true known, ?_⟩
            rw [read]
            obtain none | standard := Bool.or_eq_true_iff.mp secure
            · exact .inl (by rw [of_decide_eq_true none])
            · exact .inr (by rw [of_decide_eq_true standard])

/-- A browser reads the same host off a link that is accepted as `urllib` does, one of the two that
are allowed, and goes there by the standard port. -/
theorem match_url_host {authority : Str → Option (Str × Nat)} (reads : ReadsUrls authority)
    (allowed : isAllowedMatchUrl ref) :
    ∃ parsed host, urlparse ref = some parsed ∧ parsed.hostname = some host ∧
      (parsed.port = some none ∨ parsed.port = some (some 443)) ∧
      CaseMaps.casefold host ∈ allowedMatchHosts ∧
      authority ref = some (CaseMaps.casefold host, 443) := by
  obtain ⟨spaceless, parsed, done, https, anonymous, known, standard⟩ := allowed_checks allowed
  obtain ⟨r, first, same⟩ := urlparse_eq done
  have netloc : parsed.netloc = r.netloc := by rw [same]
  have scheme : parsed.scheme = r.scheme := by rw [same]
  have plainly := SplitResult.plain_of_username anonymous
  have folded := folded_of_hostname known
  have held : r.netloc ≠ [] := by
    intro none
    refine folded.filled ?_
    simp [SplitResult.hostinfo, netloc, none, rpartition, cutAt]
  obtain ⟨parts⟩ := split_of_urlsplit first (by rw [← scheme, https]; simp) held
  obtain ⟨port, there⟩ := located folded plainly (netloc ▸ parts.brackets) standard
  rw [netloc] at there
  have lowered : parts.head.map Char.toLower = "https".toList := by
    rw [parts.lowered, ← scheme, https]
  obtain ⟨port', spelled, value⟩ := there.spells spaceless parts.text lowered parts.stops
  have target := reads.plain ref _ port' spelled
  rw [value] at target
  exact ⟨parsed, _, done, hostname_of_folded folded, standard, folded.known, target⟩

end

end Accepted

/-! A parser that keeps to ASCII. -/

def plainAuthority (url : Str) : Option (Str × Nat) :=
  let (head, rest) := cutAt (· == ':') (trimmed url)
  if head.map Char.toLower ≠ "https".toList then none
  else
    let (netloc, _) := cutAt endsNetloc (rest.drop 3)
    let (host, port) := cutAt (· == ':') netloc
    some (host.map Char.toLower, @portNumber Unicode.ascii port)

theorem lowered_domain {c : Char} (known : isDomainChar c.toLower.toLower) :
    (c == ':') = false ∧ endsNetloc c = false ∧ c.toLower.toLower = c.toLower := by
  have table : ∀ n : Fin 128, isDomainChar (Char.ofNat n).toLower.toLower →
      (Char.ofNat n == ':') = false ∧ endsNetloc (Char.ofNat n) = false ∧
        (Char.ofNat n).toLower.toLower = (Char.ofNat n).toLower := by decide
  have small : c.toNat < 128 := by
    by_contra large
    have code : c.val.toNat = c.toNat := rfl
    have other : ¬ (c.val ≥ 'A'.val ∧ c.val ≤ 'Z'.val) := by
      rintro ⟨-, upper⟩
      have bound : c.val.toNat ≤ 90 := UInt32.le_iff_toNat_le.mp upper
      omega
    rw [toLower_of_not_upper other, toLower_of_not_upper other] at known
    obtain letter | rfl := (Bool.or_eq_true_iff.mp known).imp_right eq_of_beq
    · have bound : c.val.toNat ≤ 122 :=
        UInt32.le_iff_toNat_le.mp (of_decide_eq_true (Bool.and_eq_true_iff.mp letter).2)
      omega
    · exact large (by decide)
  have here := table ⟨c.toNat, small⟩
  rw [Char.ofNat_toNat] at here
  exact here known

theorem plainAuthority_reads : @ReadsUrls CaseMaps.ascii plainAuthority := by
  refine @ReadsUrls.mk CaseMaps.ascii _ fun url host port spelled => ?_
  obtain ⟨⟨head, rest, text, https, stops⟩, domain, ported⟩ := spelled
  have letters : ∀ c ∈ host, (c == ':') = false ∧ endsNetloc c = false ∧
      c.toLower.toLower = c.toLower := by
    intro c inside
    have each := List.all_eq_true.mp (Bool.and_eq_true_iff.mp (Bool.and_eq_true_iff.mp domain).1).2
    exact lowered_domain (each _ (List.mem_map_of_mem (List.mem_map_of_mem inside)))
  have schemed : ∀ c ∈ head, (c == ':') = false := by
    intro c inside
    refine beq_eq_false_iff_ne.mpr ?_
    rintro rfl
    have lowered : ':' ∈ head.map Char.toLower := List.mem_map.mpr ⟨':', inside, by decide⟩
    rw [https] at lowered
    exact absurd lowered (by decide)
  have first : cutAt (· == ':') (trimmed url) =
      (head, "://".toList ++ ((host ++ port) ++ rest)) := by
    rw [text, List.append_assoc, List.append_assoc]
    exact cutAt_of_stops schemed (.inr ⟨':', _, rfl, rfl⟩)
  have second : cutAt endsNetloc ((host ++ port) ++ rest) = (host ++ port, rest) := by
    refine cutAt_of_stops (fun c inside => ?_) stops
    obtain inHost | inPort := List.mem_append.mp inside
    · exact (letters c inHost).2.1
    · obtain rfl | ⟨digits, rfl, number, -⟩ := ported
      · cases inPort
      · obtain rfl | digit := List.mem_cons.mp inPort
        · decide
        · have numeral := List.all_eq_true.mp number c digit
          simp only [endsNetloc, Bool.or_eq_false_iff, beq_eq_false_iff_ne, ne_eq]
          refine ⟨⟨?_, ?_⟩, ?_⟩ <;> (rintro rfl; exact absurd numeral (by decide))
  have third : cutAt (· == ':') (host ++ port) = (host, port) := by
    refine cutAt_of_stops (fun c inside => (letters c inside).1) ?_
    obtain rfl | ⟨digits, rfl, -⟩ := ported
    · exact .inl rfl
    · exact .inr ⟨':', digits, rfl, rfl⟩
  have lowered : (host.map Char.toLower).map Char.toLower = host.map Char.toLower := by
    rw [List.map_map]
    exact List.map_congr_left fun c inside => (letters c inside).2.2
  have dropped : ("://".toList ++ ((host ++ port) ++ rest)).drop 3 = (host ++ port) ++ rest := rfl
  simp only [plainAuthority, first, https, dropped, second, third, ne_eq, not_true, if_false]
  exact congrArg (fun folded => some (folded, _)) lowered.symm

def matchPage : Str :=
  "https://www.OddsPortal.com:443/football/england/premier-league/arsenal-leeds-x1/?r=1".toList

theorem match_url_host_page :
    ∃ parsed host, @urlparse Unicode.ascii UrlText.ascii matchPage = some parsed ∧
      @SplitResult.hostname Unicode.ascii parsed.toSplitResult = some host ∧
      (@SplitResult.port Unicode.ascii parsed.toSplitResult = some none ∨
        @SplitResult.port Unicode.ascii parsed.toSplitResult = some (some 443)) ∧
      @CaseMaps.casefold CaseMaps.ascii host ∈ allowedMatchHosts ∧
      plainAuthority matchPage = some (@CaseMaps.casefold CaseMaps.ascii host, 443) :=
  @match_url_host CaseEach.ascii matchPage UrlText.ascii plainAuthority plainAuthority_reads
    (by decide +kernel)

end SharpEvPicks.Clv
