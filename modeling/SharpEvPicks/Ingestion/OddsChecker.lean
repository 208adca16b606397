import SharpEvPicks.Python.Dict
import SharpEvPicks.Python.Json
import SharpEvPicks.Python.Splitting
import SharpEvPicks.Schemas

/-! The names of OddsChecker's markets and lines, `_market_for_type` of
`app/ingestion/oddschecker.py`. -/
namespace SharpEvPicks.Ingestion

open Python

/-! Lines. -/

/-- The runs of letters and digits. -/
def pieces (text : Str) : List Str := (text.splitOnP fun c => !c.isAlphanum).filter (· ≠ [])

/-- `re.sub(r"[^0-9A-Za-z]+", "_", text).strip("_").lower()`. -/
def slug (text : Str) : Str := (join ['_'] (pieces text)).map Char.toLower

/-- `text.replace("+", "plus_").replace("-", "minus_")`. -/
def spellSigns (text : Str) : Str :=
  text.flatMap fun c => if c = '+' then "plus_".toList else if c = '-' then "minus_".toList else [c]

/-- `_slug_line` of a line by its `str`. -/
def slugLine (value : Str) : Str := slug (spellSigns (strip value))

def periodTerms : List (Str × Str) :=
  [("1st quarter", "1st_quarter"), ("first quarter", "1st_quarter"), ("2nd quarter", "2nd_quarter"),
    ("second quarter", "2nd_quarter"), ("3rd quarter", "3rd_quarter"),
      ("third quarter", "3rd_quarter"),
    ("4th quarter", "4th_quarter"), ("fourth quarter", "4th_quarter"), ("1st half", "1st_half"),
    ("first half", "1st_half"), ("2nd half", "2nd_half"), ("second half", "2nd_half"),
      ("set 1", "set_1"),
    ("set 2", "set_2"), ("set 3", "set_3"), ("set 4", "set_4"), ("set 5", "set_5")].map
    fun (needle, slug) => (needle.toList, slug.toList)

section Details
variable [Unicode]

def marketPeriodSlug (marketType : Str) : Str :=
  let key := Unicode.lower (strip marketType)
  match periodTerms.find? fun term => contains term.1 key with
  | some term => term.2
  | none => []

/-- `_market_detail`; a line that is `None` or empty is not written. -/
def marketDetail (start marketType : Str) (line : Option Str) : Str :=
  join ['_'] (start :: [marketPeriodSlug marketType,
    (line.map slugLine).getD []].filter (· ≠ []))

end Details

/-! Market types. -/

def excludedTotalMarketTerms : List Str :=
  ["3-way", "3 way", "banded", "exact", "odd/even", "odd even"].map String.toList

def excludedPlayerPropTerms : List Str :=
  ["booking", "card", "corner", "foul", "goalkeeper", "offsides", "pass", "player", "shot",
    "tackle"].map String.toList

def teamTotalTerms : List Str :=
  ["away team total", "home team total", "player a total", "player b total", "total away",
    "total home"].map String.toList

def totalTerms : List Str :=
  ["asian total", "over/under", "total games", "total goals", "total points",
    "total sets"].map String.toList

def supportedMarketTypes : Dict Str (Market × Str) :=
  ⟨[("win market".toList, .h2h, "h2h".toList), ("match result".toList, .h2h, "h2h".toList),
    ("moneyline".toList, .h2h, "h2h".toList), ("winner".toList, .h2h, "h2h".toList),
    ("double chance".toList, .doubleChance, "double_chance".toList),
    ("draw no bet".toList, .dnb, "dnb".toList),
      ("both teams to score".toList, .btts, "btts".toList),
    ("correct score".toList, .correctScore, "correct_score".toList)], by decide⟩

def containsAny (terms : List Str) (key : Str) : Bool := terms.any fun term => contains term key

def isSpreadMarketType (key : Str) : Bool :=
  containsAny ["handicap".toList, "spread".toList] key && !containsAny excludedPlayerPropTerms key

def isSetHandicapMarketType (key : Str) : Bool :=
  isSpreadMarketType key &&
    (key.splitOnP fun c => !(c.isDigit || c.isLower)).any fun token =>
      token = "set".toList || token = "sets".toList

def isTeamTotalMarketType (key : Str) : Bool :=
  !containsAny excludedPlayerPropTerms key && containsAny teamTotalTerms key

section Types
variable [Unicode]

def isDrawHandicapSelection (name : Str) : Bool :=
  let key := Unicode.lower (strip name)
  let key := if "the ".toList.isPrefixOf key then key.drop 4 else key
  key = "draw".toList || "draw ".toList.isPrefixOf key

def isThreeWayHandicapMarket (key : Str) (selection : Option Str) (betNames : Option (List Str))
    (soccer : Bool) : Bool :=
  containsAny ["3 way".toList, "3-way".toList] key ||
    (soccer && contains "handicap".toList key && !contains "asian".toList key) ||
    (selection.map isDrawHandicapSelection).getD false ||
    (betNames.map fun names => names.any isDrawHandicapSelection).getD false

def isTotalMarketType (key : Str) (selection : Option Str) : Bool :=
  if containsAny excludedTotalMarketTerms key || contains " and ".toList key ||
    containsAny excludedPlayerPropTerms key then false
  else if containsAny totalTerms key then true
  else
    let selectionKey := Unicode.lower (strip (selection.getD []))
    contains "total".toList key &&
      (selectionKey = "over".toList || selectionKey = "under".toList ||
        "over ".toList.isPrefixOf selectionKey || "under ".toList.isPrefixOf selectionKey)

variable [Readers]

/-- An integer that no `float` holds is an `OverflowError`. -/
def isNonfiniteNumeric (value : Json) : Except NumberFault Bool :=
  match value with
  | .null | .str [] => .ok false
  | .bool _ | .arr _ | .obj _ => .ok true
  | .str _ | .int _ | .float _ =>
    match value.toFloat with
    | .ok (.finite _) => .ok false
    | .ok _ | .error .unread => .ok true
    | .error .overflow => .error .overflow

/-- The `str` of a line that is neither `None` nor empty. -/
def lineText : Json → Option Str
  | .null | .str [] => none
  | line => some line.toStr

def marketForType (marketType : Str) (line : Json) (selection : Option Str)
    (betNames : Option (List Str)) (soccer : Bool) : Except NumberFault (Option (Market × Str)) :=
  let key := Unicode.lower (strip marketType)
  match supportedMarketTypes.get? key with
  | some direct => .ok (some direct)
  | none => do
    if ← isNonfiniteNumeric line then .ok none
    else if contains "draw no bet".toList key then
      .ok (some (.dnb, marketDetail "dnb".toList key (lineText line)))
    else if key = "both teams to score".toList then .ok (some (.btts, "btts".toList))
    else if key = "double chance".toList then .ok (some (.doubleChance, "double_chance".toList))
    else if isSpreadMarketType key then
      if isThreeWayHandicapMarket key selection betNames soccer then .ok none
      else
        let start := if isSetHandicapMarketType key then "spreads_sets".toList else "spreads".toList
        .ok (some (.spreads, marketDetail start key (lineText line)))
    else if isTeamTotalMarketType key then
      .ok (some (.teamTotals, marketDetail "team_totals".toList key (lineText line)))
    else if isTotalMarketType key selection then
      .ok (some (.totals, marketDetail "totals".toList key (lineText line)))
    else .ok none

end Types

/-! Slugs. -/

/-- What a slug keeps as it is. -/
structure Word (word : Str) : Prop where
  alnum : ∀ c ∈ word, c.isAlphanum
  lower : ∀ c ∈ word, c.toLower = c
  nonempty : word ≠ []

theorem pieces_word {word : Str} (plain : Word word) : pieces word = [word] := by
  have whole : word.splitOnP (fun c => !c.isAlphanum) = [word] :=
    List.splitOnP_eq_singleton fun c inside => by simp [plain.alnum c inside]
  simp [pieces, whole, plain.nonempty]

theorem pieces_append {word : Str} (plain : Word word) {c : Char} (stop : ¬ c.isAlphanum)
    (rest : Str) : pieces (word ++ c :: rest) = word :: pieces rest := by
  have first : (word ++ c :: rest).splitOnP (fun c => !c.isAlphanum) =
      word :: rest.splitOnP fun c => !c.isAlphanum :=
    List.splitOnP_append_cons_of_forall_mem (fun c inside => by simp [plain.alnum c inside]) c
      (by simp [stop]) rest
  simp [pieces, first, plain.nonempty]

theorem exists_mem_pieces {c : Char} (alnum : c.isAlphanum) {text : Str} (inside : c ∈ text) :
    ∃ piece ∈ pieces text, c ∈ piece := by
  have split : ∃ piece ∈ text.splitOnP fun c => !c.isAlphanum, c ∈ piece := by
    induction text with
    | nil => cases inside
    | cons d text ih =>
      rw [List.splitOnP_cons_eq_if_modifyHead]
      obtain ⟨first, others, parts⟩ :=
        List.exists_cons_of_ne_nil (List.splitOnP_ne_nil (fun c : Char => !c.isAlphanum) text)
      obtain here | later := List.mem_cons.mp inside
      · subst here
        simp [alnum, parts]
      · obtain ⟨piece, found, there⟩ := ih later
        split
        · exact ⟨piece, .tail _ found, there⟩
        · rw [parts] at found ⊢
          obtain rfl | other := List.mem_cons.mp found
          · exact ⟨d :: piece, .head _, .tail _ there⟩
          · exact ⟨piece, .tail _ other, there⟩
  obtain ⟨piece, found, there⟩ := split
  exact ⟨piece, by simp [pieces, found, List.ne_nil_of_mem there], there⟩

theorem map_toLower {word : Str} (plain : Word word) : word.map Char.toLower = word :=
  (List.map_congr_left plain.lower).trans word.map_id

theorem slug_word {word : Str} (plain : Word word) : slug word = word := by
  rw [slug, pieces_word plain]
  simp [join, map_toLower plain]

theorem slug_append {word : Str} (plain : Word word) {c : Char} (stop : ¬ c.isAlphanum)
    {rest : Str} (more : pieces rest ≠ []) :
      slug (word ++ c :: rest) = word ++ '_' :: slug rest := by
  obtain ⟨first, others, parts⟩ := List.exists_cons_of_ne_nil more
  rw [slug, pieces_append plain stop, parts, slug, parts]
  simp [join, map_toLower plain]

theorem mem_slug {c : Char} (alnum : c.isAlphanum) {text : Str} (inside : c ∈ text) :
    c.toLower ∈ slug text := by
  obtain ⟨piece, found, here⟩ := exists_mem_pieces alnum inside
  exact List.mem_map.mpr ⟨c, mem_join found here, rfl⟩

theorem mem_text_of_mem_pieces {text piece : Str} (part : piece ∈ pieces text) {c : Char}
    (inside : c ∈ piece) : c ∈ text :=
  (mem_splitOnP (List.mem_filter.mp part).1 inside).2

theorem mem_of_mem_slug {text : Str} {c : Char} (inside : c ∈ slug text) :
    c = '_' ∨ ∃ d ∈ text, c = d.toLower := by
  obtain ⟨d, member, rfl⟩ := List.mem_map.mp inside
  obtain sep | ⟨piece, part, here⟩ := mem_of_mem_join member
  · left
    rw [List.mem_singleton.mp sep]
    rfl
  · exact .inr ⟨d, mem_text_of_mem_pieces part here, rfl⟩

end SharpEvPicks.Ingestion
