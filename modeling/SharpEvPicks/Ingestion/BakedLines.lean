import SharpEvPicks.Ingestion.LineTokens
import SharpEvPicks.Python.ReadBack

/-! The line in the name of a selection, `_canonical_selection` of `app/ingestion/oddschecker.py`,
and the line of its group. -/
namespace SharpEvPicks.Ingestion

open Python

def lineBearingMarkets : List Market := [.spreads, .totals, .teamTotals]

/-- A finite `float`; a zero has a sign, which is the one of its text. -/
structure LineValue where
  value : ℚ
  negative : Bool
  deriving DecidableEq

section Selection
variable [Readers]

/-- `_line_value`. -/
def lineValue (line : Json) : Except NumberFault (Option LineValue) :=
  match lineText line, line.toFloat with
  | none, _ => .ok none
  | some text, .ok (.finite value) =>
    .ok (some ⟨value, value < 0 || value = 0 && (strip text).head? = some '-'⟩)
  | some _, .ok _ => .ok none
  | some _, .error .unread => .ok none
  | some _, .error .overflow => .error .overflow

/-- The line as `:+g` prints it for a handicap and `:g` for the others. -/
def lineSuffix (market : Market) (line : LineValue) : Str :=
  if line.negative then '-' :: formatG |line.value|
  else if market = .spreads then '+' :: formatG |line.value|
  else formatG |line.value|

/-- `_line_bearing_selection`. -/
def lineBearingSelection (selection : Str) (line : Json) (market : Market) :
    Except NumberFault Str :=
  if market ∉ lineBearingMarkets then .ok selection
  else
    match lineValue line with
    | .error fault => .error fault
    | .ok none => .ok selection
    | .ok (some value) =>
      let suffix := lineSuffix market value
      if suffix.isSuffixOf selection then .ok selection
        else .ok (strip (selection ++ ' ' :: suffix))

/-- What `^\s*btts\s+`, in any case, leaves of a text that it matches. -/
def afterBtts (selection : Str) : Option Str :=
  match selection.dropWhile isSpace with
  | b :: t :: t' :: s :: rest =>
    if b ∈ ['b', 'B'] ∧ t ∈ ['t', 'T'] ∧ t' ∈ ['t', 'T'] ∧ s ∈ ['s', 'S', 'ſ'] ∧
      rest.head?.any isSpace then
      some (rest.dropWhile isSpace)
    else none
  | _ => none

variable [Unicode]

/-- `\d\s*[-:–]\s*\d` at the front. -/
def startsScoreline : Str → Bool
  | c :: rest =>
    (Unicode.decimal c).isSome &&
      match rest.dropWhile isSpace with
      | dash :: rest =>
        decide (dash ∈ ['-', ':', '–']) && (rest.dropWhile isSpace).head?.any fun c =>
          (Unicode.decimal c).isSome
      | [] => false
  | [] => false

/-- `_canonical_selection`; `none` drops the bet. -/
def canonicalSelection (selection : Str) (line : Json) (market : Market) :
    Except NumberFault (Option Str) :=
  match market with
  | .btts =>
    let stripped := strip ((afterBtts selection).getD selection)
    .ok (some (if stripped = [] then selection else stripped))
  | .correctScore => .ok (if selection.tails.any startsScoreline then some selection else none)
  | _ => (lineBearingSelection selection line market).map some

end Selection

/-- A bet of the feed as the loaders hand it on, with a name that is stripped and not empty. -/
structure OfferedBet where
  marketType : Str
  name : Str
  line : Json
  betNames : Option (List Str)
  soccer : Bool
  named : name ≠ [] ∧ strip name = name

namespace OfferedBet
variable [Unicode] [Readers]

def mapped (b : OfferedBet) : Except NumberFault (Option (Market × Str)) :=
  marketForType b.marketType b.line (some b.name) b.betNames b.soccer

def selection (b : OfferedBet) (market : Market) : Except NumberFault (Option Str) :=
  canonicalSelection b.name b.line market

end OfferedBet

/-! How lines are read. -/

section Reading
variable [Unicode]

/-- The number of a handicap has a sign for the settler, and of a total none. -/
def readLine (market : Market) (word : Str) : Option ℚ :=
  if (if market = .spreads then isSigned word else isUnsigned word) then some (floatValue word)
    else none

/-- The line at the end of a selection. -/
def trailingLine (market : Market) (selection : Str) : Option ℚ :=
  readLine market (rpartition ' ' selection).2

/-- One line at the end. -/
structure Carries (market : Market) (selection : Str) (line : ℚ) : Prop where
  last : trailingLine market selection = some line
  only : trailingLine market (rpartition ' ' selection).1 = none

/-- The words of a token: a sign, the whole part and the fraction. -/
def wordsValue (words : List Str) : Option ℚ :=
  let number (words : List Str) : Option ℚ :=
    if isUnsigned (join ['.'] words) then some (unsignedValue (join ['.'] words)) else none
  match words with
  | [] => none
  | sign :: rest =>
    if sign = "plus".toList then number rest
    else if sign = "minus".toList then (number rest).map fun line => -line
    else number words

/-- The line that the token of a detail stands for. -/
def tokenValue (token : Str) : Option ℚ := wordsValue (pieces token)

/-- The line that the digits of a feed's line spell. -/
def spelledValue (text : Str) : Option ℚ :=
  wordsValue ((pieces (spellSigns (strip text))).map fun word => word.map Char.toLower)

variable [Readers]

/-- What a line adds to the detail of its market is a token of this value. -/
def OfferedBet.GroupLine (b : OfferedBet) (market : Market) (detail : Str) (line : ℚ) : Prop :=
  ∃ bare token, OfferedBet.mapped { b with line := .null } = .ok (some (market, bare)) ∧
    detail = bare ++ '_' :: token ∧ tokenValue token = some line

/-- The selection carries the line of the group, once. -/
def OfferedBet.Baked (b : OfferedBet) (market : Market) (detail : Str) : Prop :=
  ∃ selection line, b.selection market = .ok (some selection) ∧
    Carries market selection line ∧ b.GroupLine market detail line

/-- Printed without an exponent, with a sign only where the settler reads one, as this number. -/
structure Prints (market : Market) (value : LineValue) (line : ℚ) : Prop where
  sign : market = .spreads ∨ value.negative = false
  plain : Plain |value.value|
  number : line = if value.negative then -sixDigitValue |value.value|
    else sixDigitValue |value.value|

/-- The line of the text is at the end of the name already, or the name has none and the line
prints. -/
def OfferedBet.Bakes (b : OfferedBet) (market : Market) (value : LineValue) : Prop :=
  ∃ line, spelledValue b.line.toStr = some line ∧
    if (lineSuffix market value).isSuffixOf b.name then Carries market b.name line
    else trailingLine market b.name = none ∧ Prints market value line

end Reading

/-! Tokens. -/

theorem alphanum_small {c : Char} (alnum : c.isAlphanum) : c.toNat < 128 := by
  have bound : c.val.toNat ≤ 122 := by
    obtain letter | digit := Bool.or_eq_true_iff.mp alnum
    · obtain upper | lower := Bool.or_eq_true_iff.mp letter
      · exact (UInt32.le_iff_toNat_le.mp (of_decide_eq_true upper).2).trans (by decide)
      · exact UInt32.le_iff_toNat_le.mp (of_decide_eq_true (Bool.and_eq_true_iff.mp lower).2)
    · exact (UInt32.le_iff_toNat_le.mp (of_decide_eq_true (Bool.and_eq_true_iff.mp digit).2)).trans
        (by decide)
  exact Nat.lt_of_le_of_lt bound (by decide)

theorem lower_alphanum {c : Char} (alnum : c.isAlphanum) :
    c.toLower.isAlphanum ∧ c.toLower.toLower = c.toLower := by
  have all : ∀ n : Fin 128, (Char.ofNat n).isAlphanum → (Char.ofNat n).toLower.isAlphanum ∧
      (Char.ofNat n).toLower.toLower = (Char.ofNat n).toLower := by decide
  have own := all ⟨c.toNat, alphanum_small alnum⟩
  simp only [Char.ofNat_toNat] at own
  exact own alnum

theorem word_lowered {text piece : Str} (part : piece ∈ pieces text) :
    Word (piece.map Char.toLower) := by
  obtain ⟨split, some⟩ := List.mem_filter.mp part
  have alnum (c : Char) (inside : c ∈ piece) : c.isAlphanum := by
    simpa using (mem_splitOnP split inside).1
  refine ⟨?_, ?_, by simpa using some⟩
  · intro d inside
    obtain ⟨c, there, rfl⟩ := List.mem_map.mp inside
    exact (lower_alphanum (alnum c there)).1
  · intro d inside
    obtain ⟨c, there, rfl⟩ := List.mem_map.mp inside
    exact (lower_alphanum (alnum c there)).2

theorem map_join (f : Char → Char) (sep : Str) (parts : List Str) :
    (join sep parts).map f = join (sep.map f) (parts.map fun part => part.map f) := by
  induction parts with
  | nil => rfl
  | cons first parts ih =>
    cases parts with
    | nil => simp [join]
    | cons second parts =>
      simp only [join, List.map_cons, List.intersperse_cons_cons, List.flatten_cons,
        List.map_append] at ih ⊢
      rw [ih]

theorem pieces_join {words : List Str} (each : ∀ word ∈ words, Word word) :
    pieces (join ['_'] words) = words := by
  induction words with
  | nil => rfl
  | cons first words ih =>
    obtain ⟨own, rest⟩ := List.forall_mem_cons.mp each
    cases words with
    | nil => simpa [join] using pieces_word own
    | cons second words =>
      have split : join ['_'] (first :: second :: words) = first ++
          '_' :: join ['_'] (second :: words) := by
        simp [join]
      rw [split, pieces_append own (by decide), ih rest]

/-- The token of a line stands for what the line spells. -/
theorem tokenValue_slugLine [Unicode] (text : Str) :
    tokenValue (slugLine text) = spelledValue text := by
  have words : ∀ word ∈ (pieces (spellSigns (strip text))).map fun word =>
      word.map Char.toLower, Word word := by
    intro word inside
    obtain ⟨piece, part, rfl⟩ := List.mem_map.mp inside
    exact word_lowered part
  rw [tokenValue, spelledValue, slugLine, slug, map_join,
    show ['_'].map Char.toLower = ['_'] from rfl, pieces_join words]

/-! Details. -/

theorem marketDetail_line [Unicode] (start key text : Str) : marketDetail start key (some text) =
    if slugLine text = [] then marketDetail start key none
    else marketDetail start key none ++ '_' :: slugLine text := by
  unfold marketDetail
  by_cases period : marketPeriodSlug key = [] <;> by_cases none : slugLine text = [] <;>
    simp [period, none, join]

theorem direct_lineless :
    ∀ e ∈ supportedMarketTypes.entries, e.2.1 ∉ lineBearingMarkets := by decide

/-- The market of a bet does not depend on its line. -/
theorem marketForType_lineless [Unicode] [Readers] {marketType detail : Str} {line : Json}
    {selection : Option Str} {betNames : Option (List Str)} {soccer : Bool} {market : Market}
    (found : marketForType marketType line selection betNames soccer = .ok (some (market, detail)))
    (bearing : market ∈ lineBearingMarkets) :
    ∃ start, marketForType marketType .null selection betNames soccer =
        .ok (some (market, marketDetail start (Unicode.lower (strip marketType)) none)) ∧
      detail = marketDetail start (Unicode.lower (strip marketType)) (lineText line) := by
  have finite' : isNonfiniteNumeric .null = pure false := rfl
  unfold marketForType at found ⊢
  cases listed : supportedMarketTypes.get? (Unicode.lower (strip marketType)) with
  | some direct =>
    simp only [listed] at found
    cases found
    exact absurd bearing (direct_lineless _ (Dict.get?_eq_some_iff.mp listed))
  | none =>
    simp only [listed] at found
    simp only [listed, finite', pure_bind, Bool.false_eq_true, if_false]
    cases finite : isNonfiniteNumeric line with
    | error fault =>
      rw [finite] at found
      cases found
    | ok infinite =>
      rw [finite] at found
      change (if infinite then _ else _) = _ at found
      split at found
      · cases found
      split at found
      · cases found
        exact absurd bearing (by decide)
      rename_i draw
      split at found
      · cases found
        exact absurd bearing (by decide)
      rename_i both
      split at found
      · cases found
        exact absurd bearing (by decide)
      rename_i double
      split at found
      · rename_i spread
        split at found
        · cases found
        · rename_i twoWay
          cases found
          refine ⟨_, ?_, rfl⟩
          rw [if_neg draw, if_neg both, if_neg double, if_pos spread, if_neg twoWay]
          rfl
      rename_i spread
      split at found
      · rename_i team
        cases found
        refine ⟨_, ?_, rfl⟩
        rw [if_neg draw, if_neg both, if_neg double, if_neg spread, if_pos team]
        rfl
      rename_i team
      split at found
      · rename_i total
        cases found
        refine ⟨_, ?_, rfl⟩
        rw [if_neg draw, if_neg both, if_neg double, if_neg spread, if_neg team, if_pos total]
        rfl
      · cases found

theorem lineText_of_finite [Readers] {line : Json} {value : LineValue}
    (finite : lineValue line = .ok (some value)) : lineText line = some line.toStr := by
  cases line with
  | null => cases finite
  | str text =>
    cases text with
    | nil => cases finite
    | cons c text => rfl
  | _ => rfl

section Group
variable [Unicode] [Readers] {b : OfferedBet} {market : Market} {detail : Str} {value : LineValue}

theorem groupLine_iff (mapped : b.mapped = .ok (some (market, detail)))
    (bearing : market ∈ lineBearingMarkets) (finite : lineValue b.line = .ok (some value))
    (line : ℚ) : b.GroupLine market detail line ↔ spelledValue b.line.toStr = some line := by
  obtain ⟨start, lineless, own⟩ := marketForType_lineless mapped bearing
  rw [lineText_of_finite finite, marketDetail_line] at own
  rw [← tokenValue_slugLine, own]
  constructor
  · rintro ⟨bare, token, mapped', same, read⟩
    obtain rfl : marketDetail start (Unicode.lower (strip b.marketType)) none = bare :=
      (Prod.mk.inj (Option.some.inj (Except.ok.inj (lineless.symm.trans mapped')))).2
    split at same
    · exact absurd same (by simp)
    · rw [(List.cons.inj (List.append_cancel_left same)).2]
      exact read
  · intro read
    have some : slugLine b.line.toStr ≠ [] := by
      intro none
      rw [none] at read
      cases read
    rw [if_neg some]
    exact ⟨_, _, lineless, rfl, read⟩

end Group

/-! Selections. -/

theorem suffix_number [Readers] {market : Market} {value : LineValue} {c : Char}
    (inside : c ∈ lineSuffix market value) : NumberChar c := by
  unfold lineSuffix at inside
  split at inside
  · obtain rfl | digits := List.mem_cons.mp inside
    · exact .inr (.inr (by decide))
    · exact formatG_number digits
  · split at inside
    · obtain rfl | digits := List.mem_cons.mp inside
      · exact .inr (.inr (by decide))
      · exact formatG_number digits
    · exact formatG_number inside

theorem head_of_stripped {c : Char} {text : Str} (stripped : strip (c :: text) = c :: text) :
    isSpace c = false := by
  by_contra space
  have shorter : (strip (c :: text)).length ≤ text.length := by
    unfold strip
    rw [List.dropWhile_cons_of_pos (Bool.eq_true_of_not_eq_false space), List.length_reverse]
    have left := (List.dropWhile_suffix isSpace (l := (text.dropWhile isSpace).reverse)).length_le
    have right := (List.dropWhile_suffix isSpace (l := text)).length_le
    rw [List.length_reverse] at left
    exact left.trans right
  rw [stripped, List.length_cons] at shorter
  omega

/-- A stripped name with a word behind it is stripped. -/
theorem strip_word {name word : Str} (named : name ≠ []) (stripped : strip name = name)
    (some : word ≠ []) (solid : ∀ c ∈ word, isSpace c = false) :
      strip (name ++ ' ' :: word) = name ++ ' ' :: word := by
  obtain ⟨first, rest, rfl⟩ := List.exists_cons_of_ne_nil named
  obtain ⟨front, last, shape⟩ := (List.eq_nil_or_concat word).resolve_left some
  rw [List.concat_eq_append] at shape
  have shut : isSpace last = false := solid last (by simp [shape])
  unfold strip
  rw [List.cons_append, List.dropWhile_cons_of_neg (by simp [head_of_stripped stripped]), shape]
  simp [shut]

section Lines
variable [Unicode] [Readers] {b : OfferedBet} {market : Market} {detail : Str} {value : LineValue}

omit [Unicode] [Readers] in
theorem suffix_some (market : Market) (value : LineValue) : lineSuffix market value ≠ [] := by
  unfold lineSuffix
  split
  · simp
  · split
    · simp
    · exact formatG_ne_nil _

/-- The name, or the name with its line. -/
theorem selection_eq (bearing : market ∈ lineBearingMarkets)
    (finite : lineValue b.line = .ok (some value)) :
    b.selection market = .ok (some (if (lineSuffix market value).isSuffixOf b.name then b.name
      else b.name ++ ' ' :: lineSuffix market value)) := by
  have canonical : b.selection market = (lineBearingSelection b.name b.line market).map some := by
    unfold OfferedBet.selection canonicalSelection
    cases market with
    | btts | correctScore => exact absurd bearing (by decide)
    | _ => rfl
  have word := strip_word b.named.1 b.named.2 (suffix_some market value) fun c inside =>
    (suffix_number inside).solid
  rw [canonical, lineBearingSelection, if_neg (not_not.mpr bearing)]
  simp only [finite]
  split
  · rfl
  · rw [word]
    rfl

omit [Unicode] in
theorem blank_notMem_suffix : ' ' ∉ lineSuffix market value :=
  fun inside => (suffix_number inside).ne_blank rfl

omit [Readers] in
theorem readLine_suffix (line : ℚ) : readLine market (lineSuffix market value) = some line ↔
    Prints market value line := by
  obtain ⟨number, read⟩ := formatG_read (abs_nonneg value.value)
  have printed (sign : ℚ → ℚ) :
      (if isUnsigned (formatG |value.value|) then
        some (sign (unsignedValue (formatG |value.value|))) else none) =
        some line ↔ Plain |value.value| ∧ line = sign (sixDigitValue |value.value|) := by
    by_cases plain : Plain |value.value|
    · rw [if_pos (number.mpr plain), read plain, Option.some.injEq, eq_comm, and_iff_right plain]
    · rw [if_neg (mt number.mp plain)]
      exact iff_of_false (by simp) fun both => plain both.1
  unfold readLine lineSuffix
  cases minus : value.negative with
  | true =>
    simp only [if_true]
    by_cases spread : market = .spreads
    · rw [if_pos spread]
      refine (printed Neg.neg).trans ⟨fun both => ⟨.inl spread, both.1, ?_⟩,
        fun prints => ⟨prints.plain, ?_⟩⟩
      · rw [minus]
        exact both.2
      · simpa [minus] using prints.number
    · rw [if_neg spread, not_isUnsigned_minus]
      refine iff_of_false (by simp) fun prints => ?_
      cases minus.symm.trans (prints.sign.resolve_left spread)
  | false =>
    simp only [Bool.false_eq_true, if_false]
    by_cases spread : market = .spreads
    · rw [if_pos spread, if_pos spread]
      refine (printed id).trans ⟨fun both => ⟨.inl spread, both.1, ?_⟩,
        fun prints => ⟨prints.plain, ?_⟩⟩
      · rw [minus]
        exact both.2
      · simpa [minus] using prints.number
    · rw [if_neg spread, if_neg spread]
      have float : (if isUnsigned (formatG |value.value|) then
          some (floatValue (formatG |value.value|)) else none) =
          if isUnsigned (formatG |value.value|) then some (unsignedValue (formatG |value.value|))
            else none := by
        split
        · rename_i unsigned
          rw [floatValue_unsigned unsigned]
        · rfl
      rw [float]
      refine (printed id).trans ⟨fun both => ⟨.inr minus, both.1, ?_⟩,
        fun prints => ⟨prints.plain, ?_⟩⟩
      · rw [minus]
        exact both.2
      · simpa [minus] using prints.number

theorem baked_iff_bakes (mapped : b.mapped = .ok (some (market, detail)))
    (bearing : market ∈ lineBearingMarkets) (finite : lineValue b.line = .ok (some value)) :
      b.Baked market detail ↔ b.Bakes market value := by
  have parts : rpartition ' ' (b.name ++ ' ' :: lineSuffix market value) =
      (b.name, lineSuffix market value) :=
    rpartition_append ' ' _ _ blank_notMem_suffix
  have carries (line : ℚ) : Carries market (b.name ++ ' ' :: lineSuffix market value) line ↔
      trailingLine market b.name = none ∧ Prints market value line := by
    rw [← readLine_suffix]
    constructor
    · rintro ⟨last, only⟩
      rw [trailingLine, parts] at last
      rw [parts] at only
      exact ⟨only, last⟩
    · rintro ⟨only, last⟩
      refine ⟨?_, ?_⟩
      · rw [trailingLine, parts]
        exact last
      · rw [parts]
        exact only
  unfold OfferedBet.Baked OfferedBet.Bakes
  rw [selection_eq bearing finite]
  constructor
  · rintro ⟨selection, line, emitted, carried, group⟩
    refine ⟨line, (groupLine_iff mapped bearing finite line).mp group, ?_⟩
    obtain rfl := Option.some.inj (Except.ok.inj emitted)
    split
    · rename_i inside
      rw [if_pos inside] at carried
      exact carried
    · rename_i outside
      rw [if_neg outside] at carried
      exact (carries line).mp carried
  · rintro ⟨line, spelled, fits⟩
    refine ⟨_, line, rfl, ?_, (groupLine_iff mapped bearing finite line).mpr spelled⟩
    split
    · rename_i inside
      rw [if_pos inside] at fits
      exact fits
    · rename_i outside
      rw [if_neg outside] at fits
      exact (carries line).mpr fits

/-- What two selections carry is one line if they are one selection. -/
theorem line_of_selection {b' : OfferedBet} {detail' : Str} (baked : b.Baked market detail)
    (baked' : b'.Baked market detail') (same : b.selection market = b'.selection market) :
    ∃ line, b.GroupLine market detail line ∧ b'.GroupLine market detail' line := by
  obtain ⟨selection, line, emitted, carried, group⟩ := baked
  obtain ⟨selection', line', emitted', carried', group'⟩ := baked'
  obtain rfl : selection = selection' :=
    Option.some.inj (Except.ok.inj (emitted.symm.trans (same.trans emitted')))
  obtain rfl : line = line' := Option.some.inj (carried.last.symm.trans carried'.last)
  exact ⟨line, group, group'⟩

end Lines

/-- When the selection of a bet carries the line of its group; such selections tell lines apart. -/
theorem baked_iff [Unicode] [Readers] (b : OfferedBet) {market : Market} {detail : Str}
    {value : LineValue} (mapped : b.mapped = .ok (some (market, detail)))
    (bearing : market ∈ lineBearingMarkets) (finite : lineValue b.line = .ok (some value)) :
    (b.Baked market detail ↔ b.Bakes market value) ∧
      ∀ (b' : OfferedBet) (detail' : Str), b.Baked market detail → b'.Baked market detail' →
        b.selection market = b'.selection market →
          ∃ line, b.GroupLine market detail line ∧ b'.GroupLine market detail' line :=
  ⟨baked_iff_bakes mapped bearing finite, fun _ _ => line_of_selection⟩

/-! Totals. -/

/-- The interpreter, as far as it reads three lines. -/
@[reducible] def totalReaders : Readers where
  loads _ := .error .notJson
  int _ := none
  float s := ([("2.5".toList, 5 / 2), ("3.0".toList, 3),
    ("12.5".toList, 25 / 2)].lookup s).map .finite
  decimal _ := none
  shortest x := x
  nearest n := n
  str _ := []
  fromisoformat _ := none
  fromtimestamp _ := none

def overUnderBet (name line : Str) (named : name ≠ [] ∧ strip name = name) : OfferedBet :=
  ⟨"Over/Under".toList, name, .str line, none, true, named⟩

theorem over_named : "Over".toList ≠ [] ∧ strip "Over".toList = "Over".toList := by decide

theorem overThree_named :
    "Over 3.0".toList ≠ [] ∧ strip "Over 3.0".toList = "Over 3.0".toList := by decide

theorem overTwelve_named :
    "Over 12.5".toList ≠ [] ∧ strip "Over 12.5".toList = "Over 12.5".toList := by decide

theorem baked_iff_over :
    (@OfferedBet.Baked .ascii totalReaders
      (overUnderBet "Over".toList "2.5".toList over_named) .totals "totals_2_5".toList ↔
      @OfferedBet.Bakes .ascii totalReaders
        (overUnderBet "Over".toList "2.5".toList over_named) .totals ⟨5 / 2, false⟩) ∧
      ∀ (b' : OfferedBet) (detail' : Str),
        @OfferedBet.Baked .ascii totalReaders
          (overUnderBet "Over".toList "2.5".toList over_named) .totals "totals_2_5".toList →
        @OfferedBet.Baked .ascii totalReaders b' .totals detail' →
        @OfferedBet.selection .ascii totalReaders
          (overUnderBet "Over".toList "2.5".toList over_named) .totals =
          @OfferedBet.selection .ascii totalReaders b' .totals →
        ∃ line,
          @OfferedBet.GroupLine .ascii totalReaders
            (overUnderBet "Over".toList "2.5".toList over_named) .totals
            "totals_2_5".toList line ∧
          @OfferedBet.GroupLine .ascii totalReaders b' .totals detail' line :=
  @baked_iff .ascii totalReaders (overUnderBet "Over".toList "2.5".toList over_named) .totals
    "totals_2_5".toList ⟨5 / 2, false⟩ (by decide +kernel) (by decide) (by decide +kernel)

/-- A line written `3.0` is appended to a name that has it, and two lines share a name that ends in
one. -/
theorem baked_fails :
    @OfferedBet.mapped .ascii totalReaders
      (overUnderBet "Over 3.0".toList "3.0".toList overThree_named) =
        .ok (some (.totals, "totals_3_0".toList)) ∧
      @OfferedBet.selection .ascii totalReaders
        (overUnderBet "Over 3.0".toList "3.0".toList overThree_named) .totals =
        .ok (some "Over 3.0 3".toList) ∧
      ¬ @OfferedBet.Baked .ascii totalReaders
        (overUnderBet "Over 3.0".toList "3.0".toList overThree_named) .totals
        "totals_3_0".toList ∧
      @OfferedBet.selection .ascii totalReaders
        (overUnderBet "Over 12.5".toList "2.5".toList overTwelve_named) .totals =
        @OfferedBet.selection .ascii totalReaders
          (overUnderBet "Over 12.5".toList "12.5".toList overTwelve_named) .totals := by
  have emitted : @OfferedBet.selection .ascii totalReaders
      (overUnderBet "Over 3.0".toList "3.0".toList overThree_named) .totals =
        .ok (some "Over 3.0 3".toList) := by
    decide +kernel
  refine ⟨by decide +kernel, emitted, ?_, by decide +kernel⟩
  rintro ⟨selection, line, own, carried, -⟩
  obtain rfl := Option.some.inj (Except.ok.inj (emitted.symm.trans own))
  have twice : @trailingLine .ascii .totals (rpartition ' ' "Over 3.0 3".toList).1 = some 3 := by
    decide +kernel
  cases twice.symm.trans (@Carries.only .ascii _ _ _ carried)

end SharpEvPicks.Ingestion
