import SharpEvPicks.Pipeline.Snapshots
import SharpEvPicks.Python.Json
import SharpEvPicks.Python.Rounding
import SharpEvPicks.Transition.Guarded

/-! Catalogues and books of the exchange as its API answers them, `app/ingestion/betfair_api.py`:
the parsers of books, and the home, away and draw runners of a market. -/
namespace SharpEvPicks.Ingestion

open Python Pipeline Transition

/-- `str.casefold` and `str.upper`. -/
class CaseMaps extends Unicode where
  casefold : Str → Str
  upper : Str → Str
  casefold_ascii : ∀ s : Str, (∀ c ∈ s, isAscii c) → casefold s = s.map Char.toLower
  upper_ascii : ∀ s : Str, (∀ c ∈ s, isAscii c) → upper s = s.map Char.toUpper

@[reducible] def CaseMaps.ascii : CaseMaps :=
  { Unicode.ascii with
    casefold := List.map Char.toLower
    upper := List.map Char.toUpper
    casefold_ascii := Unicode.ascii.lower_ascii
    upper_ascii := fun _ _ => rfl }

def maxLiquidity : ℚ := 999999999999 / 100

/-- A best price to back and the size that is offered at it. -/
structure BackLevel where
  price : ℚ
  size : ℚ
  price_gt : 1 < price
  price_le : price ≤ maxDecimalOdds
  size_nonneg : 0 ≤ size
  deriving DecidableEq

/-- `BetfairRunner`. -/
structure Runner where
  selectionId : Int
  name : Str
  sortPriority : Int
  handicap : Option ℚ := none
  deriving DecidableEq

/-- `BetfairMarketCatalogue`, but for the name of the event. -/
structure MarketCatalogue where
  marketId : Str
  eventId : Str
  competition : Str
  marketStartTime : Option Int
  runners : List Runner
  marketType : Str := []
  deriving DecidableEq

section Books
variable [Readers]

/-- A finite `int` or `float`; `_finite_handicap`. -/
def finiteNumber : Json → Except NumberFault (Option ℚ)
  | .int n => do
    match ← (Json.int n).toFloat with
    | .finite x => .ok (some x)
    | _ => .ok none
  | .float (.finite x) => .ok (some x)
  | _ => .ok none

omit [Readers] in
theorem noSize : (0 : ℚ) ≤ 0 := le_rfl

def backSize (size : Json) : Except NumberFault {x : ℚ // 0 ≤ x} := do
  match ← finiteNumber size with
  | some x =>
    if inside : 0 ≤ x ∧ x ≤ maxLiquidity then .ok ⟨x, inside.1⟩ else .ok ⟨0, noSize⟩
  | none => .ok ⟨0, noSize⟩

def betterLevel (best : Option BackLevel) : Json → Except NumberFault (Option BackLevel)
  | .obj level => do
    match ← finiteNumber (Members.get level "price".toList) with
    | some price =>
      if odds : 1 < price ∧ price ≤ maxDecimalOdds then do
        let size ← backSize (Members.get level "size".toList)
        if best.all fun b => b.price < price then
          .ok (some ⟨price, size, odds.1, odds.2, size.2⟩)
        else .ok best
      else .ok best
    | none => .ok best
  | _ => .ok best

/-- `_best_back_level`. -/
def bestBackLevel : Json → Except NumberFault (Option BackLevel)
  | .arr levels => levels.foldlM betterLevel none
  | _ => .ok none

/-- The list under `market.get("runners") or []`; what is no list but can be iterated holds no
runner. -/
def runnersOf : Json → Except NumberFault (List Json)
  | .arr items => .ok items
  | .str _ | .obj _ => .ok []
  | v => if v.truthy then .error .unread else .ok []

/-- `str(d.get(name, ""))`. -/
def textAt (members : Members) (name : Str) : Str :=
  if members.any fun m => m.1 = name then (members.get name).toStr else []

section Parser
variable {κ : Type} [DecidableEq κ] (key : Int → Members → Except NumberFault κ)

def noteRunner (perRunner : Dict κ BackLevel) : Json → Except NumberFault (Dict κ BackLevel)
  | .obj runner =>
    match (Members.get runner "selectionId".toList).asInt with
    | none => .ok perRunner
    | some selection => do
      let at_ ← key selection runner
      let ex := ((Members.get runner "ex".toList).asObj.getD []).get "availableToBack".toList
      match ← bestBackLevel ex with
      | some level => .ok (perRunner.set at_ level)
      | none => .ok perRunner
  | _ => .ok perRunner

def bookOf (runners : List Json) : Except NumberFault (Dict κ BackLevel) :=
  runners.foldlM (noteRunner key) Dict.empty

end Parser

def bookMarketId (market : Members) : Str := strip (textAt market "marketId".toList)

variable [CaseMaps]

/-- An explicitly open book that is not in play. -/
def OpenBook (market : Members) : Prop :=
  CaseMaps.upper (textAt market "status".toList) = "OPEN".toList ∧
    Members.get market "inplay".toList = .bool false

/-- What the parsers read off a book. -/
def bookStatus (market : Members) : Bool :=
  CaseMaps.upper (textAt market "status".toList) = "OPEN".toList &&
    match Members.get market "inplay".toList with
    | .bool inplay => !inplay
    | _ => false

theorem bookStatus_iff (market : Members) : bookStatus market ↔ OpenBook market := by
  unfold bookStatus OpenBook
  cases Members.get market "inplay".toList with
  | bool inplay => cases inplay <;> simp
  | null | int n | float x | str s | arr items | obj members => simp

section Parser
variable {κ : Type} [DecidableEq κ] (key : Int → Members → Except NumberFault κ)

def noteBook (books : Dict Str (Dict κ BackLevel)) :
    Json → Except NumberFault (Dict Str (Dict κ BackLevel))
  | .obj market =>
    if bookMarketId market = [] ∨ ¬ bookStatus market then .ok books
    else do
      let runners ← runnersOf (Members.get market "runners".toList)
      let perRunner ← bookOf key runners
      .ok (books.set (bookMarketId market) perRunner)
  | _ => .ok books

def parseBooks (payload : List Json) : Except NumberFault (Dict Str (Dict κ BackLevel)) :=
  payload.foldlM (noteBook key) Dict.empty

end Parser

/-- `parse_market_book_backs`. -/
def parseMarketBookBacks : List Json → Except NumberFault (Dict Str (Dict Int BackLevel)) :=
  parseBooks fun selection _ => .ok selection

/-- `_line_key`. -/
def lineKey (value : ℚ) : ℚ := roundTo 2 value

/-- The key of a runner that stands once for every line. -/
def lineRunnerKey (selection : Int) (runner : Members) : Except NumberFault (Int × ℚ) := do
  let handicap ← finiteNumber (Members.get runner "handicap".toList)
  .ok (selection, lineKey (handicap.getD 0))

/-- `parse_market_book_backs_by_handicap`. -/
def parseMarketBookBacksByHandicap :
    List Json → Except NumberFault (Dict Str (Dict (Int × ℚ) BackLevel)) :=
      parseBooks lineRunnerKey

end Books

/-! Match odds. -/

/-- Home, away and draw. -/
inductive Role where
  | home | away | draw
  deriving DecidableEq, Repr

/-- In the order of the rows. -/
def Role.all : List Role := [.home, .away, .draw]

structure Roles where
  home : Option Runner := none
  away : Option Runner := none
  draw : Option Runner := none

def drawSelectionId : Int := 58805

section Roles
variable [Unicode]

def Runner.isDraw (r : Runner) : Bool :=
  r.selectionId = drawSelectionId || Unicode.lower (strip r.name) = "the draw".toList

def Roles.assign (roles : Roles) (r : Runner) : Roles :=
  if r.isDraw then { roles with draw := some r }
  else if r.sortPriority = 1 then { roles with home := some r }
  else if r.sortPriority = 2 then { roles with away := some r }
  else roles

/-- `_roles`. -/
def rolesOf (runners : List Runner) : Roles :=
  let roles := runners.foldl Roles.assign {}
  { roles with draw := roles.draw.or (runners.find? fun r => r.sortPriority = 3) }

end Roles

/-- `BetfairMatchOdds`, each price beside its size. -/
structure MatchOdds where
  marketId : Str
  eventId : Str
  competition : Str
  kickoff : Option Int
  home : Str
  away : Str
  back : Role → Option BackLevel

section Join
variable [Unicode]

def matchOddsOf (backs : Dict Str (Dict Int BackLevel)) (market : MarketCatalogue) :
    Option MatchOdds :=
  let roles := rolesOf market.runners
  match roles.home, roles.away, backs.get? market.marketId with
  | some home, some away, some perRunner =>
    some
      { marketId := market.marketId
        eventId := market.eventId
        competition := market.competition
        kickoff := market.marketStartTime
        home := home.name
        away := away.name
        back := fun
          | .home => perRunner.get? home.selectionId
          | .away => perRunner.get? away.selectionId
          | .draw => roles.draw.bind fun draw => perRunner.get? draw.selectionId }
  | _, _, _ => none

def joinMatchOdds (catalogue : List MarketCatalogue) (backs : Dict Str (Dict Int BackLevel)) :
    List MatchOdds :=
  catalogue.filterMap (matchOddsOf backs)

end Join

section Fetch
variable [Readers] [CaseMaps]

/-- `fetch_match_odds` after its two requests. -/
def fetchMatchOdds (catalogue : List MarketCatalogue) (books : List Json) :
    Except NumberFault (List MatchOdds) :=
  if catalogue = [] then .ok []
  else do
    let backs ← parseMarketBookBacks books
    .ok (joinMatchOdds catalogue backs)

end Fetch

/-! What a parsed book comes from. -/

section Parsed
variable [Readers] [CaseMaps] {κ : Type} [DecidableEq κ]
  {key : Int → Members → Except NumberFault κ}

/-- An open book of the payload whose levels these are. -/
def ReadFrom (key : Int → Members → Except NumberFault κ) (payload : List Json)
    (marketId : Str) (perRunner : Dict κ BackLevel) : Prop :=
  ∃ market, Json.obj market ∈ payload ∧ bookMarketId market = marketId ∧ OpenBook market ∧
    ∃ runners, runnersOf (Members.get market "runners".toList) = .ok runners ∧
      bookOf key runners = .ok perRunner

theorem get?_noteBook {books books' : Dict Str (Dict κ BackLevel)} {v : Json} {marketId : Str}
    {perRunner : Dict κ BackLevel} (noted : noteBook key books v = .ok books')
    (found : books'.get? marketId = some perRunner) :
    books.get? marketId = some perRunner ∨ ReadFrom key [v] marketId perRunner := by
  cases v with
  | obj market =>
    simp only [noteBook] at noted
    split at noted
    · cases noted
      exact .inl found
    · rename_i accepted
      rw [not_or, not_not, bookStatus_iff] at accepted
      obtain ⟨runners, runnersRead, noted⟩ := bind_ok.mp noted
      obtain ⟨read, bookRead, noted⟩ := bind_ok.mp noted
      cases noted
      rw [Dict.get?_set] at found
      split at found
      · rename_i here
        cases found
        exact .inr ⟨market, List.mem_singleton_self _, here.symm, accepted.2, runners,
          runnersRead, bookRead⟩
      · exact .inl found
  | null | bool b | int n | float x | str s | arr items =>
    cases noted
    exact .inl found

/-- Every parsed book is read off one open book of the payload. -/
theorem readFrom_of_parseBooks {payload : List Json} {books : Dict Str (Dict κ BackLevel)}
    {marketId : Str} {perRunner : Dict κ BackLevel} (parsed : parseBooks key payload = .ok books)
    (found : books.get? marketId = some perRunner) : ReadFrom key payload marketId perRunner := by
  have all : ∀ perRunner, books.get? marketId = some perRunner →
      ReadFrom key payload marketId perRunner := by
    refine foldlM_invariant (I := fun books : Dict Str (Dict κ BackLevel) =>
      ∀ perRunner, books.get? marketId = some perRunner →
        ReadFrom key payload marketId perRunner) ?_ ?_ parsed
    · intro books v listed books' known noted perRunner found
      obtain old | ⟨market, here, rest⟩ := get?_noteBook noted found
      · exact known perRunner old
      · obtain rfl := List.mem_singleton.mp here
        exact ⟨market, listed, rest⟩
    · intro perRunner found
      cases found
  exact all perRunner found

end Parsed
end SharpEvPicks.Ingestion
