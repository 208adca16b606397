import SharpEvPicks.Ingestion.Lines
import SharpEvPicks.Ingestion.OddsChecker
import SharpEvPicks.Pipeline.Vocabulary

/-! How the providers write a line into a market detail: OddsChecker's slug, and the
encoders of `app/ingestion/betfair_api.py` and `app/ingestion/pinnacle_arcadia.py`. -/
namespace SharpEvPicks.Ingestion

open Python Pipeline

/-! `app/ingestion/betfair_api.py`. -/

def signedLineToken (line : ℚ) : Str := slug (spellSigns (formatPlus line))

def unsignedLineToken (line : ℚ) : Str := slug (formatG |line|)

section Details
variable [Unicode]

def spreadDetail (homeLine : ℚ) : Option Str :=
  canonicalMarketDetail (some ("spreads_".toList ++ signedLineToken homeLine))

def totalsDetail (line : ℚ) : Option Str :=
  canonicalMarketDetail (some ("totals_".toList ++ unsignedLineToken line))

end Details

/-! `app/ingestion/pinnacle_arcadia.py`. -/

/-- `text.replace(".", "_")`. -/
def underscored (text : Str) : Str := text.map fun c => if c = '.' then '_' else c

/-- `_line_token`. -/
def arcadiaLineToken (line : ℚ) : Str :=
  if |line| ≠ ⌊|line|⌋ then underscored (formatG |line|)
    else natText ⌊|line|⌋.toNat ++ ['_', '0']

def gamesLineToken (line : ℚ) : Str := underscored (formatSigned line)

/-- The detail of `extract_total_quotes`; the sport selects the namespace. -/
def arcadiaTotalsDetail (games : Bool) (line : ℚ) : Str :=
  if games then "over_under_games_".toList ++ gamesLineToken line
  else "over_under_".toList ++ arcadiaLineToken line

/-! What the feed of OddsChecker carries. -/

inductive Spelling where
  | number
  | text (plus : Bool) (zeros : Nat)
  deriving DecidableEq, Repr

/-- The decimals; of a `float` from 2^49 on `str` writes one, which tells the quarters apart. -/
def Spelling.fraction (s : Spelling) (l : Line) : Str :=
  match s with
  | .number =>
    if l.whole < 2 ^ 49 then l.part.digits
    else
      match l.part with
      | .one => ['2']
      | .two => ['5']
      | .three => ['8']
  | .text _ zeros => l.part.digits ++ List.replicate zeros '0'

/-- Without a sign. -/
def Spelling.unsigned (s : Spelling) (l : Line) : Str := natText l.whole ++ '.' :: s.fraction l

def Spelling.HasPlus : Spelling → Prop
  | .number => False
  | .text plus _ => plus

instance Spelling.decidableHasPlus : (s : Spelling) → Decidable s.HasPlus
  | .number => isFalse id
  | .text plus _ => decidable_of_iff (plus = true) Iff.rfl

/-- A line of a total as `str` of what the feed carries. -/
def Spelling.total (s : Spelling) (l : Line) : Str :=
  if s.HasPlus then '+' :: s.unsigned l else s.unsigned l

/-- A home line, which is never level. -/
structure HomeLine where
  negative : Bool
  line : Line
  deriving DecidableEq, Repr

def HomeLine.value (h : HomeLine) : ℚ := if h.negative then -h.line.value else h.line.value

/-- A minus is always written, a plus only where the spelling has it. -/
def Spelling.handicap (s : Spelling) (h : HomeLine) : Str :=
  if h.negative then '-' :: s.unsigned h.line else s.total h.line

/-! Tokens. -/

/-- What a slug makes of an unsigned line. -/
def Spelling.token (s : Spelling) (l : Line) : Str := natText l.whole ++ '_' :: s.fraction l

theorem Word.digits {word : Str} (digits : ∀ c ∈ word, c.isDigit) (nonempty : word ≠ []) :
    Word word where
  alnum c inside := by simp [Char.isAlphanum, digits c inside]
  lower c inside := toLower_digit (digits c inside)
  nonempty := nonempty

theorem word_natText (n : Nat) : Word (natText n) :=
  Word.digits (fun _ inside => natText_digit inside) Nat.toDigits_ne_nil

theorem part_digit {p : Part} {zeros : Nat} {c : Char}
    (inside : c ∈ p.digits ++ List.replicate zeros '0') : c.isDigit := by
  obtain digit | zero := List.mem_append.mp inside
  · cases p <;> simp only [Part.digits, List.mem_cons, List.not_mem_nil, or_false] at digit
    · obtain rfl | rfl := digit <;> rfl
    · exact digit ▸ rfl
    · obtain rfl | rfl := digit <;> rfl
  · rw [List.eq_of_mem_replicate zero]
    rfl

theorem word_part (p : Part) (zeros : Nat) : Word (p.digits ++ List.replicate zeros '0') :=
  Word.digits (fun _ inside => part_digit inside) (by cases p <;> simp [Part.digits])

theorem slug_point {whole fraction : Str} (first : Word whole) (second : Word fraction) :
    slug (whole ++ '.' :: fraction) = whole ++ '_' :: fraction := by
  rw [slug_append first (by decide) (by simp [pieces_word second]), slug_word second]

theorem fraction_digit {s : Spelling} {l : Line} {c : Char} (inside : c ∈ s.fraction l) :
    c.isDigit := by
  cases s with
  | number =>
    rw [Spelling.fraction] at inside
    split at inside
    · exact @part_digit _ 0 _ (by simpa using inside)
    · split at inside <;> rw [List.mem_singleton.mp inside] <;> rfl
  | text plus zeros => exact part_digit inside

theorem word_fraction (s : Spelling) (l : Line) : Word (s.fraction l) := by
  refine Word.digits (fun _ inside => fraction_digit inside) ?_
  cases s with
  | number =>
    rw [Spelling.fraction]
    split
    · cases l.part <;> simp [Part.digits]
    · split <;> simp
  | text plus zeros => exact (word_part l.part zeros).nonempty

/-! Signs. -/

/-- Without signs and blanks. -/
def Quiet (text : Str) : Prop := ∀ c ∈ text, c.isDigit ∨ c = '.'

theorem Quiet.spellSigns {text : Str} (quiet : Quiet text) : spellSigns text = text := by
  induction text with
  | nil => rfl
  | cons c text ih =>
    have signs : c ≠ '+' ∧ c ≠ '-' := by
      constructor <;> rintro rfl <;> obtain digit | point := quiet _ (.head _)
      · cases digit
      · cases point
      · cases digit
      · cases point
    have rest := ih fun d inside => quiet d (.tail _ inside)
    rw [Ingestion.spellSigns] at rest ⊢
    rw [List.flatMap_cons, rest, if_neg signs.1, if_neg signs.2]
    rfl

theorem Quiet.solid {text : Str} (quiet : Quiet text) {c : Char} (inside : c ∈ text) :
    ¬ isSpace c := by
  obtain digit | rfl := quiet c inside
  · simp only [Char.isDigit, Bool.and_eq_true, decide_eq_true_eq, UInt32.le_iff_toNat_le] at digit
    have high : c.toNat ≤ 57 := digit.2
    have low : 48 ≤ c.toNat := digit.1
    simp only [isSpace, Bool.or_eq_true, Bool.and_eq_true, decide_eq_true_eq, beq_iff_eq]
    omega
  · decide

theorem strip_solid {text : Str} (solid : ∀ c ∈ text, ¬ isSpace c) : strip text = text := by
  have front : text.dropWhile isSpace = text := by
    cases text with
    | nil => rfl
    | cons c text => exact List.dropWhile_cons_of_neg (solid c (.head _))
  have back : text.reverse.dropWhile isSpace = text.reverse := by
    cases reversed : text.reverse with
    | nil => rfl
    | cons c rest =>
      have inside : c ∈ text := List.mem_reverse.mp (reversed ▸ .head _)
      exact List.dropWhile_cons_of_neg (solid c inside)
  rw [strip, front, back, List.reverse_reverse]

theorem quiet_unsigned (s : Spelling) (l : Line) : Quiet (s.unsigned l) := by
  intro c inside
  obtain whole | inside := List.mem_append.mp inside
  · exact .inl (natText_digit whole)
  obtain rfl | fraction := List.mem_cons.mp inside
  · exact .inr rfl
  · exact .inl (fraction_digit fraction)

theorem slug_unsigned (s : Spelling) (l : Line) : slug (s.unsigned l) = s.token l :=
  slug_point (word_natText _) (word_fraction s l)

theorem pieces_unsigned (s : Spelling) (l : Line) : pieces (s.unsigned l) ≠ [] := by
  rw [Spelling.unsigned, pieces_append (word_natText _) (by decide)]
  exact List.cons_ne_nil _ _

/-- Of a text of digits and points only the slug is left to take. -/
theorem slugLine_unsigned (s : Spelling) (l : Line) : slugLine (s.unsigned l) = s.token l := by
  have quiet := quiet_unsigned s l
  rw [slugLine, strip_solid fun _ => quiet.solid, quiet.spellSigns, slug_unsigned]

theorem word_plus : Word "plus".toList := ⟨by decide, by decide, by decide⟩

theorem word_minus : Word "minus".toList := ⟨by decide, by decide, by decide⟩

theorem slug_plus {text : Str} (some : pieces (spellSigns text) ≠ []) :
    slug (spellSigns ('+' :: text)) = "plus_".toList ++ slug (spellSigns text) := by
  have spelled : spellSigns ('+' :: text) = "plus".toList ++ '_' :: spellSigns text := rfl
  rw [spelled, slug_append word_plus (by decide) some]
  rfl

theorem slug_minus {text : Str} (some : pieces (spellSigns text) ≠ []) :
    slug (spellSigns ('-' :: text)) = "minus_".toList ++ slug (spellSigns text) := by
  have spelled : spellSigns ('-' :: text) = "minus".toList ++ '_' :: spellSigns text := rfl
  rw [spelled, slug_append word_minus (by decide) some]
  rfl

theorem slugLine_plus (s : Spelling) (l : Line) :
    slugLine ('+' :: s.unsigned l) = "plus_".toList ++ s.token l := by
  have quiet := quiet_unsigned s l
  have solid : ∀ c ∈ '+' :: s.unsigned l, ¬ isSpace c :=
    List.forall_mem_cons.mpr ⟨by decide, fun _ => quiet.solid⟩
  rw [slugLine, strip_solid solid, slug_plus (by rw [quiet.spellSigns]; exact pieces_unsigned s l),
    quiet.spellSigns, slug_unsigned]

theorem slugLine_minus (s : Spelling) (l : Line) :
    slugLine ('-' :: s.unsigned l) = "minus_".toList ++ s.token l := by
  have quiet := quiet_unsigned s l
  have solid : ∀ c ∈ '-' :: s.unsigned l, ¬ isSpace c :=
    List.forall_mem_cons.mpr ⟨by decide, fun _ => quiet.solid⟩
  rw [slugLine, strip_solid solid, slug_minus (by rw [quiet.spellSigns]; exact pieces_unsigned s l),
    quiet.spellSigns, slug_unsigned]

/-! What `%g` prints, with its point written as an underscore. -/

theorem slug_digit {d : Char} (digit : d.isDigit) (rest : Str) :
    ∃ rest', slug (d :: rest) = d :: rest' := by
  obtain ⟨first, others, parts⟩ :=
    List.exists_cons_of_ne_nil (List.splitOnP_ne_nil (fun c : Char => !c.isAlphanum) rest)
  have alnum : d.isAlphanum := by simp [Char.isAlphanum, digit]
  have head : pieces (d :: rest) = (d :: first) :: others.filter (· ≠ []) := by
    simp [pieces, List.splitOnP_cons_eq_if_modifyHead, alnum, parts]
  rw [slug, head]
  cases others.filter (· ≠ []) with
  | nil => exact ⟨first.map Char.toLower, by simp [join, toLower_digit digit]⟩
  | cons second others =>
    exact ⟨_, by rw [join, List.intersperse_cons_cons, List.flatten_cons, List.cons_append,
      List.map_cons, toLower_digit digit]⟩

theorem Part.digits_injective {p p' : Part} (same : p.digits = p'.digits) : p = p' := by
  cases p <;> cases p' <;> simp_all [Part.digits]

theorem part_of_fraction {s : Spelling} {l : Line} {p : Part} (small : l.whole < 2 ^ 49)
    (same : s.fraction l = p.digits) : l.part = p := by
  cases s with
  | number =>
    rw [Spelling.fraction, if_pos small] at same
    exact Part.digits_injective same
  | text plus zeros =>
    rw [Spelling.fraction] at same
    cases zeros with
    | zero => exact Part.digits_injective (by simpa using same)
    | succ zeros =>
      revert same
      cases l.part <;> cases p <;> simp [Part.digits, List.replicate_succ]

section Printed
variable {l : Line} {text : Str}

theorem quiet_natText (n : Nat) : Quiet (natText n) := fun _ inside => .inl (natText_digit inside)

theorem quiet_point {n : Nat} {fraction : Str} (digits : ∀ c ∈ fraction, c.isDigit) :
    Quiet (natText n ++ '.' :: fraction) := by
  intro c inside
  obtain whole | inside := List.mem_append.mp inside
  · exact .inl (natText_digit whole)
  obtain rfl | fraction := List.mem_cons.mp inside
  · exact .inr rfl
  · exact .inl (digits c fraction)

theorem part_digits {p : Part} {c : Char} (inside : c ∈ p.digits) : c.isDigit :=
  @part_digit _ 0 _ (by simpa using inside)

theorem tenth_digits {d : Char} (which : d = '2' ∨ d = '8') {c : Char} (inside : c ∈ [d]) :
    c.isDigit := by
  rw [List.mem_singleton.mp inside]
  obtain rfl | rfl := which <;> rfl

theorem Printed.pieces (printed : Printed '.' l text) : Ingestion.pieces text ≠ [] := by
  have head : ∃ c ∈ text, c.isAlphanum := by
    have digits (n : Nat) (rest : Str) : ∃ c ∈ natText n ++ rest, c.isAlphanum := by
      obtain ⟨c, inside⟩ := List.exists_mem_of_ne_nil _ (word_natText n).nonempty
      exact ⟨c, List.mem_append_left _ inside, (word_natText n).alnum c inside⟩
    cases printed with
    | exact short => exact digits _ _
    | tenth d medium long which => exact digits _ _
    | whole n long => simpa using digits n []
    | exponent d rest long digit e => exact ⟨d, .head _, by simp [Char.isAlphanum, digit]⟩
  obtain ⟨c, inside, alnum⟩ := head
  obtain ⟨piece, member, _⟩ := exists_mem_pieces alnum inside
  exact List.ne_nil_of_mem member

theorem Printed.spellSigns (printed : Printed '.' l text) :
    Printed '.' l (Ingestion.spellSigns text) := by
  cases printed with
  | exact short =>
    rw [(quiet_point fun _ => part_digits).spellSigns]
    exact .exact short
  | tenth d medium long which =>
    rw [(quiet_point fun _ => tenth_digits which).spellSigns]
    exact .tenth d medium long which
  | whole n long =>
    rw [(quiet_natText n).spellSigns]
    exact .whole n long
  | exponent d rest long digit e =>
    have first : Ingestion.spellSigns [d] = [d] := Quiet.spellSigns (by simp [Quiet, digit])
    have split : Ingestion.spellSigns (d :: rest) = d :: Ingestion.spellSigns rest := by
      rw [Ingestion.spellSigns, List.flatMap_singleton] at first
      rw [Ingestion.spellSigns, List.flatMap_cons, first]
      rfl
    rw [split]
    exact .exponent d _ long digit (List.mem_flatMap.mpr ⟨'e', e, by decide⟩)

theorem Printed.slug (printed : Printed '.' l text) : Printed '_' l (Ingestion.slug text) := by
  cases printed with
  | exact short =>
    rw [slug_point (word_natText _) (Word.digits (fun _ => part_digits) (by
      cases l.part <;> simp [Part.digits]))]
    exact .exact short
  | tenth d medium long which =>
    rw [slug_point (word_natText _)
      (Word.digits (fun _ => tenth_digits which) (List.cons_ne_nil _ _))]
    exact .tenth d medium long which
  | whole n long =>
    rw [slug_word (word_natText n)]
    exact .whole n long
  | exponent d rest long digit e =>
    obtain ⟨rest', slugged⟩ := slug_digit digit rest
    have member : 'e' ∈ d :: rest' := slugged ▸ mem_slug (c := 'e') (by decide) (.tail _ e)
    rw [slugged]
    refine .exponent d rest' long digit ((List.mem_cons.mp member).resolve_left ?_)
    rintro rfl
    cases digit

theorem underscored_digits {text : Str} (digits : ∀ c ∈ text, c.isDigit) :
    Ingestion.underscored text = text := by
  have same : text.map (fun c => if c = '.' then '_' else c) = text.map id := by
    refine List.map_congr_left fun c inside => if_neg ?_
    rintro rfl
    cases digits _ inside
  rw [Ingestion.underscored, same, List.map_id]

theorem underscored_point {n : Nat} {fraction : Str} (digits : ∀ c ∈ fraction, c.isDigit) :
    Ingestion.underscored (natText n ++ '.' :: fraction) = natText n ++ '_' :: fraction := by
  have whole := underscored_digits fun _ => natText_digit (n := n)
  have rest := underscored_digits digits
  rw [Ingestion.underscored] at whole rest ⊢
  rw [List.map_append, List.map_cons, whole, rest, if_pos rfl]

theorem Printed.underscored (printed : Printed '.' l text) :
    Printed '_' l (Ingestion.underscored text) := by
  cases printed with
  | exact short =>
    rw [underscored_point fun _ => part_digits]
    exact .exact short
  | tenth d medium long which =>
    rw [underscored_point fun _ => tenth_digits which]
    exact .tenth d medium long which
  | whole n long =>
    rw [underscored_digits fun _ => natText_digit]
    exact .whole n long
  | exponent d rest long digit e =>
    have first : Ingestion.underscored [d] = [d] := underscored_digits (by simp [digit])
    have split : Ingestion.underscored (d :: rest) = d :: Ingestion.underscored rest := by
      rw [Ingestion.underscored, List.map_cons]
      exact congrArg (· :: _) (List.cons.inj first).1
    rw [split]
    exact .exponent d _ long digit (List.mem_map.mpr ⟨'e', e, rfl⟩)

theorem Line.Short.small (short : l.Short) : l.whole < 10 ^ 5 := by
  obtain small | ⟨medium, _⟩ := short
  · omega
  · exact medium

theorem fraction_large {s : Spelling} {l : Line} {d : Char} (which : d = '2' ∨ d = '8')
    (same : s.fraction l = [d]) : 2 ^ 49 ≤ l.whole := by
  cases s with
  | number =>
    rw [Spelling.fraction] at same
    split at same
    · obtain rfl | rfl := which <;> cases part : l.part <;> simp [part, Part.digits] at same
    · omega
  | text plus zeros =>
    rw [Spelling.fraction] at same
    obtain rfl | rfl := which <;> cases part : l.part <;> simp [part, Part.digits] at same

theorem token_inj {l' : Line} {s : Spelling} {fraction : Str}
    (digits : ∀ c ∈ fraction, c.isDigit)
    (same : natText l.whole ++ '_' :: fraction = s.token l') :
      l.whole = l'.whole ∧ fraction = s.fraction l' := by
  have apart : '_' ∉ fraction := fun inside => by cases digits _ inside
  obtain ⟨whole, -, fractions⟩ :=
    (List.append_cons_inj_of_notMem (underscore_notMem_natText _) apart).mp same
  exact ⟨natText_injective whole, fractions⟩

/-- What is printed of a line is a line's token only where all of it is printed. -/
theorem Printed.token {l' : Line} {s : Spelling} (printed : Printed '_' l text)
    (same : text = s.token l') : l.Short ∧ l' = l ∧ s.fraction l = l.part.digits := by
  cases printed with
  | exact short =>
    obtain ⟨whole, fraction⟩ := token_inj (fun _ => part_digits) same
    have small := short.small
    have part := part_of_fraction (by omega) fraction.symm
    have line : l' = l := by
      cases l
      cases l'
      simp_all
    subst line
    exact ⟨short, rfl, fraction.symm⟩
  | tenth d medium long which =>
    obtain ⟨whole, fraction⟩ := token_inj (fun _ => tenth_digits which) same
    have large := fraction_large which fraction.symm
    omega
  | whole n long =>
    have inside : '_' ∈ natText n := by simp [same, Spelling.token]
    exact absurd inside (underscore_notMem_natText n)
  | exponent d rest long digit e =>
    have inside : 'e' ∈ s.token l' := same ▸ .tail _ e
    obtain whole | inside := List.mem_append.mp inside
    · cases natText_digit whole
    obtain other | fraction := List.mem_cons.mp inside
    · cases other
    · cases fraction_digit fraction

end Printed

end SharpEvPicks.Ingestion
