import SharpEvPicks.Ingestion.LineTokens

/-! One line, one key: where the details of the providers for equal lines are equal and
for distinct ones distinct. -/
namespace SharpEvPicks.Ingestion

open Python Pipeline

section Keys
variable [Unicode]

/-! Details of one line, canonical. -/

/-- A market type without a period. -/
def FullMatch : Type := {marketType : Str // marketPeriodSlug marketType = []}

def oddsCheckerTotals (market : FullMatch) (s : Spelling) (l : Line) : Option Str :=
  canonicalMarketDetail (some (marketDetail "totals".toList market.val (some (s.total l))))

def oddsCheckerSpreads (market : FullMatch) (s : Spelling) (h : HomeLine) : Option Str :=
  canonicalMarketDetail (some (marketDetail "spreads".toList market.val (some (s.handicap h))))

def arcadiaTotals (games : Bool) (l : Line) : Option Str :=
  canonicalMarketDetail (some (arcadiaTotalsDetail games l.value))

/-- The keys of a totals line that OddsChecker spells so. -/
def totalsKeys (market : FullMatch) (s : Spelling) (l : Line) : List (Option Str) :=
  [oddsCheckerTotals market s l, totalsDetail l.value, arcadiaTotals false l, arcadiaTotals true l]

def spreadsKeys (market : FullMatch) (s : Spelling) (h : HomeLine) : List (Option Str) :=
  [oddsCheckerSpreads market s h, spreadDetail h.value]

/-- The keys of a line are one, and no other line has it however it is spelled. -/
structure OneKey {L : Type} (keys : FullMatch → Spelling → L → List (Option Str))
    (market : FullMatch) (s : Spelling) (l : L) : Prop where
  one : ∀ key ∈ keys market s l, ∀ key' ∈ keys market s l, key = key'
  apart : ∀ market' s' l', l' ≠ l → ∀ key ∈ keys market s l, key ∉ keys market' s' l'

/-- Digits as the number prints them. -/
def Spelling.Exact : Spelling → Prop
  | .number => True
  | .text _ zeros => zeros = 0

/-- How a handicap has to be spelled: with its sign. -/
def HomeLine.Signed (h : HomeLine) (s : Spelling) : Prop := h.negative ∨ s.HasPlus

/-! The canonical fold. -/

omit [Unicode] in
theorem dropPrefix?_append (start s : Str) : dropPrefix? start (start ++ s) = some s := by
  simp [dropPrefix?]

omit [Unicode] in
theorem beforeFinalNewline_clean {s : Str} (clean : ∀ c ∈ s, Clean c) :
    beforeFinalNewline s = s := by
  refine if_neg fun last => ?_
  exact (clean '\n' (List.mem_of_getLast? last)).inline rfl

/-- A token that `_INT_TOTALS_DETAIL_RE` leaves alone. -/
def Broken (token : Str) : Prop :=
  ¬ (isDecimals (token.takeWhile (· ≠ '_')) ∧ token.dropWhile (· ≠ '_') = ['_', '0'])

omit [Unicode] in
theorem lineless_head :
    ∀ d ∈ linelessDetails, d.head? ∉ [some 't', some 's', some 'o'] := by decide

theorem intTotalsDetail_broken {token : Str} (clean : ∀ c ∈ token, Clean c)
    (broken : Broken token) : intTotalsDetail ("totals_".toList ++ token) = none := by
  rw [intTotalsDetail, dropPrefix?_append]
  simp only [Option.bind_eq_bind, Option.bind_some, beforeFinalNewline_clean clean]
  refine if_neg ?_
  simpa [Broken] using broken

omit [Unicode] in
theorem clean_append {start token : Str} (first : ∀ c ∈ start, Clean c)
    (second : ∀ c ∈ token, Clean c) : ∀ c ∈ start ++ token, Clean c := by
  intro c inside
  exact (List.mem_append.mp inside).elim (first c) (second c)

theorem canonical_totals {token : Str} (clean : ∀ c ∈ token, Clean c) (broken : Broken token) :
    canonicalMarketDetail (some ("totals_".toList ++ token)) = some
      ("totals_".toList ++ token) := by
  have lower := lower_clean (clean_append (by decide : ∀ c ∈ "totals_".toList, Clean c) clean)
  have lined : "totals_".toList ++ token ∉ linelessDetails :=
    fun listed => lineless_head _ listed (by simp)
  have total : ouDetail ("totals_".toList ++ token) = none := rfl
  simp only [canonicalMarketDetail, Option.bind_some, lower, if_neg lined, total,
    intTotalsDetail_broken clean broken]

theorem canonical_spreads {token : Str} (clean : ∀ c ∈ token, Clean c) :
    canonicalMarketDetail (some ("spreads_".toList ++ token)) = some
      ("spreads_".toList ++ token) := by
  have lower := lower_clean (clean_append (by decide : ∀ c ∈ "spreads_".toList, Clean c) clean)
  have lined : "spreads_".toList ++ token ∉ linelessDetails :=
    fun listed => lineless_head _ listed (by simp)
  have total : ouDetail ("spreads_".toList ++ token) = none := rfl
  have whole : intTotalsDetail ("spreads_".toList ++ token) = none := rfl
  simp only [canonicalMarketDetail, Option.bind_some, lower, if_neg lined, total, whole]

/-- The namespaces of arcadia's totals. -/
def namespaceOf (games : Bool) : Str :=
  if games then "over_under_games_".toList else "over_under_".toList

theorem ouDetail_namespace (games : Bool) {d : Char} (digit : d.isDigit) {rest : Str}
    (clean : ∀ c ∈ d :: rest, Clean c) :
    ouDetail (namespaceOf games ++ d :: rest) = if isLineToken (d :: rest) then some (d :: rest)
      else none := by
  have bare : dropPrefix? "games_".toList (d :: rest) = none := by
    have other : ('g' == d) = false := by
      refine beq_false_of_ne ?_
      rintro rfl
      cases digit
    simp [dropPrefix?, List.isPrefixOf, other]
  cases games with
  | false =>
    rw [namespaceOf, if_neg Bool.false_ne_true, ouDetail, dropPrefix?_append]
    simp only [Option.bind_eq_bind, Option.bind_some, bare, Option.getD_none,
      beforeFinalNewline_clean clean]
  | true =>
    have split : "over_under_games_".toList = "over_under_".toList ++ "games_".toList := by decide
    rw [namespaceOf, if_pos rfl, split, List.append_assoc, ouDetail, dropPrefix?_append]
    simp only [Option.bind_eq_bind, Option.bind_some, dropPrefix?_append, Option.getD_some,
      beforeFinalNewline_clean clean]

/-- What arcadia writes is read as a total where it is one, and left as it is elsewhere. -/
theorem canonical_arcadia (games : Bool) {d : Char} (digit : d.isDigit) {rest : Str}
    (clean : ∀ c ∈ d :: rest, Clean c) (broken : Broken (d :: rest)) :
    canonicalMarketDetail (some (namespaceOf games ++ d :: rest)) =
      if isLineToken (d :: rest) then some ("totals_".toList ++ d :: rest)
      else some (namespaceOf games ++ d :: rest) := by
  have cleanNamespace : ∀ c ∈ namespaceOf games, Clean c := by
    cases games <;> decide
  have head : (namespaceOf games ++ d :: rest).head? = some 'o' := by
    cases games <;> rfl
  have lower := lower_clean (clean_append cleanNamespace clean)
  have lined : namespaceOf games ++ d :: rest ∉ linelessDetails :=
    fun listed => lineless_head _ listed (by simp [head])
  have whole : intTotalsDetail (namespaceOf games ++ d :: rest) = none := by
    cases games <;> rfl
  by_cases line : isLineToken (d :: rest)
  · simp only [canonicalMarketDetail, Option.bind_some, lower, if_neg lined,
      ouDetail_namespace games digit clean, if_pos line, intTotalsDetail_broken clean broken]
  · simp only [canonicalMarketDetail, Option.bind_some, lower, if_neg lined,
      ouDetail_namespace games digit clean, if_neg line, whole]

/-! Tokens as the fold reads them. -/

theorem isDecimals_digits {s : Str} (digits : ∀ c ∈ s, c.isDigit) (some : s ≠ []) :
    isDecimals s := by
  simp only [isDecimals, Bool.and_eq_true, List.all_eq_true, decide_eq_true_eq]
  refine ⟨some, fun c inside => ?_⟩
  rw [Unicode.decimal_ascii c (Clean.digit (digits c inside)).ascii, if_pos (digits c inside)]
  rfl

theorem not_isDecimals {s : Str} {c : Char} (letter : Clean c ∧ ¬ c.isDigit) (inside : c ∈ s) :
    ¬ isDecimals s := by
  intro decimals
  have digit := isDecimals_mem decimals inside
  rw [Unicode.decimal_ascii c letter.1.ascii, if_neg letter.2] at digit
  cases digit

omit [Unicode] in
theorem takeWhile_natText (n : Nat) : (natText n).takeWhile (· ≠ '_') = natText n := by
  refine List.takeWhile_eq_self_iff.mpr fun c inside => decide_eq_true ?_
  rintro rfl
  exact underscore_notMem_natText n inside

omit [Unicode] in
theorem dropWhile_natText (n : Nat) : (natText n).dropWhile (· ≠ '_') = [] := by
  refine List.dropWhile_eq_nil_iff.mpr fun c inside => decide_eq_true ?_
  rintro rfl
  exact underscore_notMem_natText n inside

omit [Unicode] in
theorem dropWhile_point (n : Nat) (rest : Str) :
    (natText n ++ '_' :: rest).dropWhile (· ≠ '_') = '_' :: rest := by
  rw [List.dropWhile_append, dropWhile_natText]
  rfl

omit [Unicode] in
theorem takeWhile_point (n : Nat) (rest : Str) :
    (natText n ++ '_' :: rest).takeWhile (· ≠ '_') = natText n := by
  rw [List.takeWhile_append, takeWhile_natText, if_pos rfl]
  simp

theorem broken_point (n : Nat) {fraction : Str} (odd : fraction ≠ ['0']) :
    Broken (natText n ++ '_' :: fraction) := by
  rintro ⟨-, rest⟩
  rw [dropWhile_point] at rest
  exact odd (List.cons.inj rest).2

theorem line_point (n : Nat) {fraction : Str} (digits : ∀ c ∈ fraction, c.isDigit)
    (some : fraction ≠ []) : isLineToken (natText n ++ '_' :: fraction) := by
  rw [isLineToken, dropWhile_point, takeWhile_point]
  rw [Bool.and_eq_true]
  exact ⟨isDecimals_digits (fun _ => natText_digit) (word_natText n).nonempty,
    isDecimals_digits digits some⟩

omit [Unicode] in
theorem fraction_odd (s : Spelling) (l : Line) : s.fraction l ≠ ['0'] := by
  cases s with
  | number =>
    rw [Spelling.fraction]
    split
    · cases l.part <;> simp [Part.digits]
    · split <;> simp
  | text plus zeros =>
    rw [Spelling.fraction]
    cases l.part <;> simp [Part.digits]

section Printed
variable {l : Line} {text : Str}

theorem Printed.broken (printed : Printed '_' l text) : Broken text := by
  cases printed with
  | exact short => exact broken_point _ (by cases l.part <;> simp [Part.digits])
  | tenth d medium long which => exact broken_point _ (by obtain rfl | rfl := which <;> simp)
  | whole n long =>
    rintro ⟨-, rest⟩
    rw [dropWhile_natText] at rest
    cases rest
  | exponent d rest long digit e =>
    rintro ⟨decimals, rest'⟩
    have parts := List.takeWhile_append_dropWhile (p := (· ≠ '_')) (l := d :: rest)
    have member : 'e' ∈ d :: rest := .tail _ e
    rw [← parts, rest'] at member
    obtain front | back := List.mem_append.mp member
    · exact not_isDecimals (c := 'e') (by decide) front decimals
    · simp at back

/-- Up to an exponent it is a line. -/
theorem Printed.line (printed : Printed '_' l text) : isLineToken text ∨ ¬ l.Short := by
  cases printed with
  | exact short => exact .inl (line_point _ (fun _ => part_digits) (by
    cases l.part <;> simp [Part.digits]))
  | tenth d medium long which => exact .inr long
  | whole n long => exact .inr long
  | exponent d rest long digit e => exact .inr long

omit [Unicode] in
theorem Printed.head (printed : Printed '_' l text) :
    ∃ d rest, d.isDigit ∧ text = d :: rest := by
  cases printed with
  | exact short => exact natText_head _ _
  | tenth d medium long which => exact natText_head _ _
  | whole n long => simpa using natText_head n []
  | exponent d rest long digit e => exact ⟨d, rest, digit, rfl⟩

end Printed

/-! The keys. -/

omit [Unicode] in
theorem clean_slug {text : Str} (clean : ∀ c ∈ text, Clean c) :
    ∀ c ∈ slug text, Clean c := by
  intro c inside
  obtain rfl | ⟨d, member, rfl⟩ := mem_of_mem_slug inside
  · decide
  · rw [(clean d member).lower]
    exact clean d member

omit [Unicode] in
theorem clean_spellSigns {text : Str} (clean : ∀ c ∈ text, Clean c) :
    ∀ c ∈ spellSigns text, Clean c := by
  intro c inside
  obtain ⟨d, member, part⟩ := List.mem_flatMap.mp inside
  have words : (∀ c ∈ "plus_".toList, Clean c) ∧ ∀ c ∈ "minus_".toList,
    Clean c := by decide
  split at part
  · exact words.1 c part
  split at part
  · exact words.2 c part
  · rw [List.mem_singleton.mp part]
    exact clean d member

omit [Unicode] in
theorem clean_underscored {text : Str} (clean : ∀ c ∈ text, Clean c) :
    ∀ c ∈ underscored text, Clean c := by
  intro c inside
  obtain ⟨d, member, rfl⟩ := List.mem_map.mp inside
  split
  · decide
  · exact clean d member

omit [Unicode] in
theorem clean_token (s : Spelling) (l : Line) : ∀ c ∈ s.token l, Clean c := by
  intro c inside
  obtain whole | inside := List.mem_append.mp inside
  · exact clean_natText whole
  obtain rfl | fraction := List.mem_cons.mp inside
  · decide
  · exact .digit (fraction_digit fraction)

theorem marketDetail_full (start : Str) (market : FullMatch) {text : Str}
    (some : slugLine text ≠ []) :
    marketDetail start market.val (.some text) = start ++ '_' :: slugLine text := by
  rw [marketDetail, market.property]
  simp [join, some]

omit [Unicode] in
theorem slugLine_total (s : Spelling) (l : Line) :
    slugLine (s.total l) = (if s.HasPlus then "plus_".toList else []) ++ s.token l := by
  rw [Spelling.total]
  split
  · exact slugLine_plus s l
  · exact slugLine_unsigned s l

theorem oddsCheckerTotals_eq (market : FullMatch) (s : Spelling) (l : Line) :
    oddsCheckerTotals market s l =
      some ("totals_".toList ++ ((if s.HasPlus then "plus_".toList else []) ++ s.token l)) := by
  have nonempty : slugLine (s.total l) ≠ [] := by simp [slugLine_total, Spelling.token]
  have clean : ∀ c ∈ (if s.HasPlus then "plus_".toList else []) ++ s.token l, Clean c := by
    refine clean_append ?_ (clean_token s l)
    split <;> decide
  have broken : Broken ((if s.HasPlus then "plus_".toList else []) ++ s.token l) := by
    split
    · rintro ⟨decimals, -⟩
      exact not_isDecimals (c := 'p') (by decide) (.head _) decimals
    · exact broken_point _ (fraction_odd s l)
  rw [oddsCheckerTotals, marketDetail_full _ market nonempty,
    slugLine_total, ← canonical_totals clean broken]
  rfl

theorem totalsDetail_printed (l : Line) :
    ∃ text, Printed '_' l text ∧ totalsDetail l.value = some ("totals_".toList ++ text) := by
  have printed := (formatG_line l).slug
  refine ⟨slug (formatG l.value), printed, ?_⟩
  rw [totalsDetail, unsignedLineToken, abs_of_pos l.value_pos]
  exact canonical_totals (clean_slug fun _ => clean_formatG) printed.broken

theorem arcadiaTotals_printed (games : Bool) (l : Line) :
    ∃ text, Printed '_' l text ∧ arcadiaTotals games l =
      if isLineToken text then some ("totals_".toList ++ text)
        else some (namespaceOf games ++ text) := by
  have printed := (formatG_line l).underscored
  have detail : arcadiaTotalsDetail games l.value = namespaceOf games ++
      underscored (formatG l.value) := by
    cases games with
    | false =>
      have broken : |l.value| ≠ ⌊|l.value|⌋ := by
        obtain ⟨low, high⟩ := l.part.value_bounds
        rw [abs_of_pos l.value_pos, Line.floor_value, Line.value]
        push_cast
        linarith
      rw [arcadiaTotalsDetail, if_neg Bool.false_ne_true, arcadiaLineToken, if_pos broken,
        abs_of_pos l.value_pos]
      rfl
    | true =>
      rw [arcadiaTotalsDetail, if_pos rfl, gamesLineToken, formatSigned,
        if_neg l.value_pos.le.not_gt]
      rfl
  obtain ⟨d, rest, digit, text⟩ := printed.head
  have clean : ∀ c ∈ d :: rest, Clean c := text ▸ clean_underscored fun _ => clean_formatG
  refine ⟨d :: rest, text ▸ printed, ?_⟩
  rw [arcadiaTotals, detail, text]
  exact canonical_arcadia games digit clean (text ▸ printed).broken

omit [Unicode] in
theorem token_exact {s : Spelling} {l : Line} (exact : s.Exact) (short : l.Short) :
    s.token l = natText l.whole ++ '_' :: l.part.digits := by
  have small := short.small
  have fraction : s.fraction l = l.part.digits := by
    cases s with
    | number => rw [Spelling.fraction, if_pos (by omega)]
    | text plus zeros =>
      have none : zeros = 0 := exact
      simp [Spelling.fraction, none]
  rw [Spelling.token, fraction]

omit [Unicode] in
theorem Printed.exact_of_token {s : Spelling} {l : Line} (printed : Printed '_' l (s.token l)) :
    s.Exact ∧ l.Short := by
  obtain ⟨short, -, fraction⟩ := printed.token rfl
  refine ⟨?_, short⟩
  cases s with
  | number => trivial
  | text plus zeros =>
    simpa [Spelling.fraction, Spelling.Exact] using fraction

omit [Unicode] in
theorem Printed.eq_token {s : Spelling} {l : Line} {text : Str} (exact : s.Exact) (short : l.Short)
    (printed : Printed '_' l text) : text = s.token l := by
  rw [token_exact exact short]
  cases printed with
  | exact short => rfl
  | tenth d medium long which => exact absurd short long
  | whole n long => exact absurd short long
  | exponent d rest long digit e => exact absurd short long

omit [Unicode] in
theorem token_injective {s s' : Spelling} {l l' : Line} (exact : s.Exact) (short : l.Short)
    (same : s.token l = s'.token l') : l' = l := by
  rw [token_exact exact short] at same
  exact ((Printed.exact short).token same).2.1

theorem totals_one {market : FullMatch} {s : Spelling} {l : Line} (unsigned : ¬ s.HasPlus)
    (exact : s.Exact) (short : l.Short) :
      ∀ key ∈ totalsKeys market s l, key = some ("totals_".toList ++ s.token l) := by
  have oddsChecker := oddsCheckerTotals_eq market s l
  obtain ⟨betfair, printedB, totals⟩ := totalsDetail_printed l
  have arcadia (games : Bool) : arcadiaTotals games l = some ("totals_".toList ++ s.token l) := by
    obtain ⟨text, printed, detail⟩ := arcadiaTotals_printed games l
    have line : isLineToken text := printed.line.resolve_right (not_not_intro short)
    rw [detail, if_pos line, printed.eq_token exact short]
  intro key inside
  simp only [totalsKeys, List.mem_cons, List.not_mem_nil, or_false] at inside
  obtain rfl | rfl | rfl | rfl := inside
  · rw [oddsChecker, if_neg unsigned]
    rfl
  · rw [totals, printedB.eq_token exact short]
  · exact arcadia false
  · exact arcadia true

omit [Unicode] in
/-- A token starts with a digit. -/
theorem sign_ne {sign : Char} (other : ¬ sign.isDigit) {rest text : Str} {d : Char}
    (digit : d.isDigit) (head : ∃ rest', text = d :: rest') : sign :: rest ≠ text := by
  obtain ⟨rest', rfl⟩ := head
  rintro same
  exact other ((List.cons.inj same).1 ▸ digit)

theorem totals_apart {market : FullMatch} {s s' : Spelling} {l l' : Line} (exact : s.Exact)
    (short : l.Short) (found : some ("totals_".toList ++ s.token l) ∈ totalsKeys market s' l') :
      l' = l := by
  have arcadia (games : Bool)
      (found : some ("totals_".toList ++ s.token l) = arcadiaTotals games l') : l' = l := by
    obtain ⟨text, printed, detail⟩ := arcadiaTotals_printed games l'
    rw [detail] at found
    split at found
    · rw [Option.some.injEq, List.append_cancel_left_eq] at found
      exact (printed.token found.symm).2.1.symm
    · have heads := congrArg List.head? (Option.some.inj found)
      cases games <;> cases heads
  simp only [totalsKeys, List.mem_cons, List.not_mem_nil, or_false] at found
  obtain found | found | found | found := found
  · rw [oddsCheckerTotals_eq, Option.some.injEq, List.append_cancel_left_eq] at found
    split at found
    · obtain ⟨d, rest, digit, head⟩ := natText_head l.whole ('_' :: s.fraction l)
      exact absurd found.symm (sign_ne (by decide) digit ⟨rest, head⟩)
    · exact token_injective exact short found
  · obtain ⟨text, printed, totals⟩ := totalsDetail_printed l'
    rw [totals, Option.some.injEq, List.append_cancel_left_eq] at found
    exact (printed.token found.symm).2.1.symm
  · exact arcadia false found
  · exact arcadia true found

theorem OneKey.totals {market : FullMatch} {s : Spelling} {l : Line}
    (agree : OneKey totalsKeys market s l) : oddsCheckerTotals market s l = totalsDetail l.value :=
  agree.one _ (.head _) _ (.tail _ (.head _))

theorem totals_oneKey (market : FullMatch) (s : Spelling) (l : Line) :
    OneKey totalsKeys market s l ↔ (¬ s.HasPlus ∧ s.Exact) ∧ l.Short := by
  constructor
  · intro agree
    obtain ⟨text, printed, totals⟩ := totalsDetail_printed l
    have same := agree.totals
    rw [oddsCheckerTotals_eq, totals, Option.some.injEq, List.append_cancel_left_eq] at same
    split at same
    · obtain ⟨d, rest, digit, head⟩ := printed.head
      exact absurd same (sign_ne (by decide) digit ⟨rest, head⟩)
    · rename_i unsigned
      obtain ⟨exact, short⟩ := Printed.exact_of_token (s := s) (same ▸ printed)
      exact ⟨⟨unsigned, exact⟩, short⟩
  · rintro ⟨⟨unsigned, exact⟩, short⟩
    have one := @totals_one _ market _ _ unsigned exact short
    refine ⟨fun key inside key' inside' => (one key inside).trans (one key' inside').symm, ?_⟩
    intro market' s' l' other key inside found
    rw [one key inside] at found
    exact other (totals_apart exact short found)

/-! Handicaps. -/

def signToken (negative : Bool) : Str := if negative then "minus_".toList else "plus_".toList

omit [Unicode] in
theorem signToken_head (negative : Bool) :
    ∃ c rest, ¬ c.isDigit ∧ signToken negative = c :: rest := by
  cases negative
  · exact ⟨'p', "lus_".toList, by decide, rfl⟩
  · exact ⟨'m', "inus_".toList, by decide, rfl⟩

omit [Unicode] in
theorem signToken_inj {negative negative' : Bool} {token token' : Str}
    (same : signToken negative ++ token = signToken negative' ++ token') :
    negative = negative' ∧ token = token' := by
  have signs : negative = negative' := by
    have heads := congrArg List.head? same
    revert heads
    cases negative <;> cases negative' <;> simp [signToken]
  subst signs
  exact ⟨rfl, List.append_cancel_left same⟩

omit [Unicode] in
theorem clean_signToken (negative : Bool) : ∀ c ∈ signToken negative, Clean c := by
  cases negative <;> decide

omit [Unicode] in
open Classical in
theorem slugLine_handicap (s : Spelling) (h : HomeLine) :
    slugLine (s.handicap h) = (if h.Signed s then signToken h.negative else []) ++
      s.token h.line := by
  obtain ⟨negative, line⟩ := h
  cases negative with
  | true => simpa [HomeLine.Signed, signToken, Spelling.handicap] using slugLine_minus s line
  | false => simpa [HomeLine.Signed, signToken, Spelling.handicap] using slugLine_total s line

open Classical in
theorem oddsCheckerSpreads_eq (market : FullMatch) (s : Spelling) (h : HomeLine) :
    oddsCheckerSpreads market s h =
      some ("spreads_".toList ++
        ((if h.Signed s then signToken h.negative else []) ++ s.token h.line)) := by
  have nonempty : slugLine (s.handicap h) ≠ [] := by simp [slugLine_handicap, Spelling.token]
  have clean : ∀ c ∈ (if h.Signed s then signToken h.negative else []) ++ s.token h.line,
      Clean c := by
    refine clean_append ?_ (clean_token s h.line)
    split
    · exact clean_signToken _
    · exact fun c none => by cases none
  rw [oddsCheckerSpreads, marketDetail_full _ market nonempty,
    slugLine_handicap, ← canonical_spreads clean]
  rfl

theorem spreadDetail_printed (h : HomeLine) :
    ∃ text, Printed '_' h.line text ∧
      spreadDetail h.value = some ("spreads_".toList ++ (signToken h.negative ++ text)) := by
  have printed := (formatG_line h.line).spellSigns
  have token : signedLineToken h.value = signToken h.negative ++
      slug (spellSigns (formatG h.line.value)) := by
    obtain ⟨negative, line⟩ := h
    have pos := line.value_pos
    cases negative with
    | true =>
      have below : -line.value < 0 := by linarith
      rw [signedLineToken, HomeLine.value, if_pos rfl, formatPlus, if_pos below, neg_neg,
        slug_minus printed.pieces]
      rfl
    | false =>
      rw [signedLineToken, HomeLine.value, if_neg Bool.false_ne_true, formatPlus,
        if_neg pos.le.not_gt, slug_plus printed.pieces]
      rfl
  have clean : ∀ c ∈ signToken h.negative ++ slug (spellSigns (formatG h.line.value)),
      Clean c :=
    clean_append (clean_signToken _) (clean_slug (clean_spellSigns fun _ => clean_formatG))
  refine ⟨slug (spellSigns (formatG h.line.value)), printed.slug, ?_⟩
  rw [spreadDetail, token]
  exact canonical_spreads clean

theorem spreads_one {market : FullMatch} {s : Spelling} {h : HomeLine} (signed : h.Signed s)
    (exact : s.Exact) (short : h.line.Short) :
    ∀ key ∈ spreadsKeys market s h,
      key = some ("spreads_".toList ++ (signToken h.negative ++ s.token h.line)) := by
  intro key inside
  simp only [spreadsKeys, List.mem_cons, List.not_mem_nil, or_false] at inside
  obtain rfl | rfl := inside
  · rw [oddsCheckerSpreads_eq, if_pos signed]
  · obtain ⟨text, printed, spread⟩ := spreadDetail_printed h
    rw [spread, printed.eq_token exact short]

theorem spreads_apart {market : FullMatch} {s s' : Spelling} {h h' : HomeLine} (exact : s.Exact)
    (short : h.line.Short)
    (found : some ("spreads_".toList ++ (signToken h.negative ++ s.token h.line)) ∈
      spreadsKeys market s' h') :
    h' = h := by
  have same (signs : h.negative = h'.negative) (lines : h'.line = h.line) : h' = h := by
    cases h
    cases h'
    simp_all
  simp only [spreadsKeys, List.mem_cons, List.not_mem_nil, or_false] at found
  obtain found | found := found
  · rw [oddsCheckerSpreads_eq, Option.some.injEq, List.append_cancel_left_eq] at found
    split at found
    · obtain ⟨signs, tokens⟩ := signToken_inj found
      exact same signs (token_injective exact short tokens)
    · obtain ⟨c, rest, other, sign⟩ := signToken_head h.negative
      obtain ⟨d, rest', digit, head⟩ := natText_head h'.line.whole ('_' :: s'.fraction h'.line)
      rw [sign, List.cons_append] at found
      exact absurd found (sign_ne other digit ⟨rest', head⟩)
  · obtain ⟨text, printed, spread⟩ := spreadDetail_printed h'
    rw [spread, Option.some.injEq, List.append_cancel_left_eq] at found
    obtain ⟨signs, tokens⟩ := signToken_inj found
    exact same signs (printed.token tokens.symm).2.1.symm

theorem OneKey.spreads {market : FullMatch} {s : Spelling} {h : HomeLine}
    (agree : OneKey spreadsKeys market s h) :
    oddsCheckerSpreads market s h = spreadDetail h.value :=
  agree.one _ (.head _) _ (.tail _ (.head _))

theorem spreads_oneKey (market : FullMatch) (s : Spelling) (h : HomeLine) :
    OneKey spreadsKeys market s h ↔ (h.Signed s ∧ s.Exact) ∧ h.line.Short := by
  constructor
  · intro agree
    obtain ⟨text, printed, spread⟩ := spreadDetail_printed h
    have same := agree.spreads
    rw [oddsCheckerSpreads_eq, spread, Option.some.injEq, List.append_cancel_left_eq] at same
    split at same
    · rename_i signed
      obtain ⟨exact, short⟩ :=
        Printed.exact_of_token (s := s) ((signToken_inj same).2 ▸ printed)
      exact ⟨⟨signed, exact⟩, short⟩
    · obtain ⟨c, rest, other, sign⟩ := signToken_head h.negative
      obtain ⟨d, rest', digit, head⟩ := natText_head h.line.whole ('_' :: s.fraction h.line)
      rw [sign, List.cons_append] at same
      exact absurd same.symm (sign_ne other digit ⟨rest', head⟩)
  · rintro ⟨⟨signed, exact⟩, short⟩
    have one := @spreads_one _ market _ _ signed exact short
    refine ⟨fun key inside key' inside' => (one key inside).trans (one key' inside').symm, ?_⟩
    intro market' s' h' other key inside found
    rw [one key inside] at found
    exact other (spreads_apart exact short found)

/-- Lines get one key from every provider exactly where OddsChecker spells the total without a plus
or the handicap with its sign, without zeros to spare, and six digits hold the line. -/
theorem equal_lines_one_key (market : FullMatch) (s : Spelling) :
    (∀ l, OneKey totalsKeys market s l ↔ (¬ s.HasPlus ∧ s.Exact) ∧ l.Short) ∧
      ∀ h, OneKey spreadsKeys market s h ↔ (h.Signed s ∧ s.Exact) ∧ h.line.Short :=
  ⟨totals_oneKey market s, spreads_oneKey market s⟩

end Keys

def totalGoals : @FullMatch Unicode.ascii :=
  ⟨"total goals over/under".toList, by decide +kernel⟩

/-- The texts 2.50 and +2.5 leave Betfair's group of 2.5, a handicap of 0.25 without its sign leaves
Betfair's, and from 100000 on the lines of one half point share a key. -/
theorem equal_lines_one_key_fails :
    ¬ @OneKey Unicode.ascii Line (@totalsKeys Unicode.ascii) totalGoals
      (.text false 1) ⟨2, .two⟩ ∧
      ¬ @OneKey Unicode.ascii Line (@totalsKeys Unicode.ascii) totalGoals
        (.text true 0) ⟨2, .two⟩ ∧
      ¬ @OneKey Unicode.ascii HomeLine
        (@spreadsKeys Unicode.ascii) totalGoals .number ⟨false, 0, .one⟩ ∧
      @totalsDetail Unicode.ascii (Line.value ⟨100000, .one⟩) =
        @totalsDetail Unicode.ascii (Line.value ⟨100000, .two⟩) := by
  have zeros : @oddsCheckerTotals Unicode.ascii totalGoals (.text false 1) ⟨2, .two⟩ ≠
      @totalsDetail Unicode.ascii (Line.value ⟨2, .two⟩) := by decide +kernel
  have plus : @oddsCheckerTotals Unicode.ascii totalGoals (.text true 0) ⟨2, .two⟩ ≠
      @totalsDetail Unicode.ascii (Line.value ⟨2, .two⟩) := by decide +kernel
  have bare : @oddsCheckerSpreads Unicode.ascii totalGoals .number ⟨false, 0, .one⟩ ≠
      @spreadDetail Unicode.ascii (HomeLine.value ⟨false, 0, .one⟩) := by decide +kernel
  refine ⟨fun agree => zeros ?_, fun agree => plus ?_, fun agree => bare ?_, by decide +kernel⟩
  · exact @OneKey.totals Unicode.ascii _ _ _ agree
  · exact @OneKey.totals Unicode.ascii _ _ _ agree
  · exact @OneKey.spreads Unicode.ascii _ _ _ agree

end SharpEvPicks.Ingestion
