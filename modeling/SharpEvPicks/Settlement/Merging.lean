import Mathlib.Algebra.Order.Archimedean.Basic
import Mathlib.Tactic.Linarith
import Mathlib.Tactic.Ring
import SharpEvPicks.Settlement.Dedup

/-! Two picks that the dedup key merges, and when they are one bet. -/
namespace SharpEvPicks.Settlement

open Python Resolution

section Text
variable [Unicode]

/-- How a handicap selection writes its line: after the team, or in brackets. -/
inductive LineText : Str → Str → Prop
  | leg {team line : Str} (named : team.dropWhile isSpace ≠ []) (number : isSigned line) :
    LineText (team ++ ' ' :: line) line
  | bracket {line : Str} (number : isUnsigned line ∨ isSigned line) :
    LineText ("Draw (".toList ++ (line ++ [')'])) line

theorem ehDrawMatch_text {selection line : Str} (found : ehDrawMatch selection = some line) :
    LineText selection line := by
  unfold ehDrawMatch at found
  split at found
  · rename_i rest
    split at found
    · rename_i closed
      cases found
      obtain ⟨inner, ended⟩ := List.getLast?_eq_some_iff.mp closed.1
      subst ended
      rw [List.dropLast_concat] at closed ⊢
      exact .bracket closed.2
    · cases found
  · cases found

theorem teamLine_text {selection team line : Str} (found : teamLine selection = some (team, line)) :
    selection = team ++ ' ' :: line ∧ isSigned line := by
  simp only [teamLine] at found
  split at found
  · rename_i parts
    cases found
    exact ⟨rpartition_eq rfl parts.1, parts.2⟩
  · cases found

theorem readSpread_text {selection home away : Str} {b : Bet}
    (homeNamed : home.dropWhile isSpace ≠ []) (awayNamed : away.dropWhile isSpace ≠ [])
    (read : readSpread selection home away = .ok b) :
    ∃ line, LineText selection line ∧
      (b = .handicapDraw (floatValue line) ∨ ∃ s, b = .handicap s (floatValue line)) := by
  unfold readSpread at read
  cases eh : ehDrawMatch selection with
  | some line =>
    simp only [eh, Except.ok.injEq] at read
    exact ⟨line, ehDrawMatch_text eh, .inl read.symm⟩
  | none =>
    cases parts : teamLine selection with
    | none => simp [eh, parts] at read
    | some leg =>
      obtain ⟨team, line⟩ := leg
      obtain ⟨rfl, number⟩ := teamLine_text parts
      simp only [eh, parts] at read
      by_cases drawLeg : team = "Draw".toList
      · simp only [drawLeg, if_true] at read
        split at read
        · cases read
        · refine ⟨line, .leg ?_ number, .inl (Except.ok.inj read).symm⟩
          rw [drawLeg]
          decide
      · simp only [drawLeg, if_false] at read
        unfold sideOf at read
        by_cases atHome : team = home
        · simp only [atHome, if_true, Except.ok.injEq] at read
          exact ⟨line, .leg (atHome ▸ homeNamed) number, .inr ⟨_, read.symm⟩⟩
        · by_cases atAway : team = away
          · simp only [atAway, if_true] at read
            split at read
            · exact ⟨line, .leg (atAway ▸ awayNamed) number,
                .inr ⟨_, (Except.ok.inj read).symm⟩⟩
            · cases read
          · simp only [atHome, atAway, if_false] at read
            cases read

theorem number_digit {line : Str} (number : isUnsigned line ∨ isSigned line) :
    line.any Unicode.isDigit ∧ ' ' ∉ line := by
  have ends : ∃ front last, line = front ++ [last] ∧ (Unicode.decimal last).isSome :=
    number.elim isUnsigned_ends isSigned_ends
  obtain ⟨front, last, shape, digit⟩ := ends
  obtain ⟨n, value⟩ := Option.isSome_iff_exists.mp digit
  constructor
  · exact List.any_eq_true.mpr ⟨last, by simp [shape], Unicode.isDigit_of_decimal last n value⟩
  · intro blank
    obtain unsigned | signed := number
    · cases isUnsigned_not_space unsigned blank
    · cases isSigned_not_space signed blank

/-- The key keeps the line, so equal keys have equal lines. -/
theorem key_bracket {line : Str} (number : isUnsigned line ∨ isSigned line) :
    selectionDedupKey ("Draw (".toList ++ (line ++ [')'])) = "Draw (".toList ++
      (line ++ [')']) := by
  obtain ⟨digit, noBlank⟩ := number_digit number
  have digits : ('(' :: line ++ [')']).any Unicode.isDigit := by
    rw [List.any_append, List.any_cons, digit]
    simp
  exact @key_verbatim _ "raw".toList ('(' :: line) 'D' ')' rfl (by decide) (by simp [noBlank]) rfl
    (by decide) rfl digits

theorem line_of_key {selection selection' line line' : Str} (text : LineText selection line)
    (text' : LineText selection' line')
    (same : selectionDedupKey selection = selectionDedupKey selection') : line = line' := by
  have apart {t line inner : Str} (number : isSigned line) :
      t ++ ' ' :: line ≠ "Draw (".toList ++ (inner ++ [')']) := by
    intro equal
    obtain ⟨front, last, rfl, -⟩ := isSigned_ends number
    have ends := congrArg List.getLast? equal
    simp [List.getLast?_append, List.getLast?_cons] at ends
    exact isSigned_no_bracket number (by simp [ends])
  cases text with
  | leg named number =>
    obtain ⟨t, key⟩ := key_leg named number
    cases text' with
    | leg named' number' =>
      obtain ⟨t', key'⟩ := key_leg named' number'
      rw [key, key'] at same
      have parts := congrArg (rpartition ' ') same
      rw [rpartition_append ' ' t line (isSigned_no_blank number),
        rpartition_append ' ' t' line' (isSigned_no_blank number')] at parts
      exact (Prod.mk.inj parts).2
    | bracket number' =>
      rw [key, key_bracket number'] at same
      exact absurd same (apart number)
  | bracket number =>
    cases text' with
    | leg named' number' =>
      obtain ⟨t', key'⟩ := key_leg named' number'
      rw [key_bracket number, key'] at same
      exact absurd same.symm (apart number')
    | bracket number' =>
      rw [key_bracket number, key_bracket number', List.append_cancel_left_eq,
        List.append_cancel_right_eq] at same
      exact same

theorem key_totals {selection : Str} {found : Direction × Str}
    (read : totalsMatch selection = some found) : selectionDedupKey selection = selection := by
  have kept (first : Char) (word : Str) (solidFirst : isSpace first = false)
      (wordSolid : ' ' ∉ word) (line : Str) (number : isUnsigned line) :
      selectionDedupKey (first :: word ++ ' ' :: line) = first :: word ++ ' ' :: line := by
    obtain ⟨digit, noBlank⟩ := number_digit (.inl number)
    obtain ⟨front, last, rfl, isDigit⟩ := isUnsigned_ends number
    have open_ : last ≠ ']' := by
      rintro rfl
      rw [Unicode.decimal_ascii _ (by decide)] at isDigit
      cases isDigit
    exact key_verbatim solidFirst wordSolid (fun inside => noBlank (by simp [inside]))
      (isUnsigned_not_space number (by simp)) open_ (isUnsigned_not_signed number) digit
  unfold totalsMatch at read
  split at read
  · rename_i line
    split at read
    · rename_i number
      exact kept 'O' "ver".toList rfl (by decide) line number
    · cases read
  · rename_i line
    split at read
    · rename_i number
      exact kept 'U' "nder".toList rfl (by decide) line number
    · cases read
  · cases read

end Text

/-! Rows of one fixture. -/

structure Row where
  home : Str
  away : Str

def Bet.market : Bet → Market
  | .side _ | .draw => .h2h
  | .total _ _ => .totals
  | .bothScore _ => .btts
  | .drawNoBet _ => .dnb
  | .sideOrDraw _ | .eitherSide => .doubleChance
  | .handicap _ _ | .handicapDraw _ => .spreads

def Bet.party : Bet → Option WinnerSide
  | .side s | .drawNoBet s | .sideOrDraw s | .handicap s _ => some s
  | _ => none

/-- A bet of a row in the terms of another row of the fixture. -/
def Bet.orient (turned : Bool) (b : Bet) : Bet := if turned then b.turn else b

theorem turn_market (b : Bet) : b.turn.market = b.market := by cases b <;> rfl

theorem orient_market (turned : Bool) (b : Bet) : (b.orient turned).market = b.market := by
  cases turned
  · rfl
  · exact turn_market b

/-- A handicap-draw leg that means another line on the row turned round. -/
def TurnedDrawLine (turned : Bool) (b : Bet) : Prop :=
  turned ∧ ∃ line, b = .handicapDraw line ∧ isInteger line ∧ line ≠ 0

/-- The two bets are on one side, or both on none, and no draw line is turned round. -/
def OneBet (turned : Bool) (b b' : Bet) : Prop :=
  b.party = (b'.orient turned).party ∧ ¬ TurnedDrawLine turned b

/-! Bets on different sides are told apart by some large score. -/

theorem gradeHandicap_won {base : Int} {line : ℚ} (ahead : (base : ℚ) + line > 1)
    (pushes : Bool) : gradeHandicap base line pushes = .ok .won := by
  have low : (base : ℚ) + line - 1 / 4 > 0 := by linarith
  have high : (base : ℚ) + line + 1 / 4 > 0 := by linarith
  have level : (base : ℚ) + line > 0 := by linarith
  simp only [gradeHandicap, ahComponent, low, high, level, if_true]
  split
  · decide
  · rfl

theorem gradeHandicap_lost {base : Int} {line : ℚ} (behind : (base : ℚ) + line < -1)
    (pushes : Bool) : gradeHandicap base line pushes = .ok .lost := by
  have low : ¬ (base : ℚ) + line - 1 / 4 > 0 ∧ ¬ (base : ℚ) + line - 1 / 4 = 0 := by
    constructor <;> intro <;> linarith
  have high : ¬ (base : ℚ) + line + 1 / 4 > 0 ∧ ¬ (base : ℚ) + line + 1 / 4 = 0 := by
    constructor <;> intro <;> linarith
  have level : ¬ (base : ℚ) + line > 0 ∧ ¬ (base : ℚ) + line = 0 := by
    constructor <;> intro <;> linarith
  simp only [gradeHandicap, ahComponent, low, high, level, if_false]
  split
  · decide
  · rfl

/-- A score too large for any set score that grades the bets differently. -/
def ToldApart (sportKey : Option Str) (b c : Bet) : Prop :=
  ∃ hs as_ o o', 0 ≤ hs ∧ 0 ≤ as_ ∧ hs + as_ > 5 ∧
    gradeBet sportKey b hs as_ = .ok o ∧ gradeBet sportKey c hs as_ = .ok o' ∧ o ≠ o'

theorem ToldApart.symm {sportKey : Option Str} {b c : Bet} (apart : ToldApart sportKey b c) :
    ToldApart sportKey c b := by
  obtain ⟨hs, as_, o, o', home, away, large, grade, grade', differ⟩ := apart
  exact ⟨hs, as_, o', o, home, away, large, grade', grade, differ.symm⟩

def winBy : WinnerSide → Int → Int × Int
  | .home, n => (n, 0)
  | .away, n => (0, n)

theorem toldApart_handicap (sportKey : Option Str) (s : WinnerSide) (line : ℚ) (c : Bet)
    (beaten : ∃ m : ℚ, ∀ n : Int, (n : ℚ) > m → n ≠ 0 →
      gradeBet sportKey c (winBy s n).1 (winBy s n).2 = .ok .lost) :
    ToldApart sportKey (.handicap s line) c := by
  obtain ⟨m, lost⟩ := beaten
  obtain ⟨n, large⟩ := exists_nat_gt (max (max m (1 - line)) 6)
  have overM : ((n : Int) : ℚ) > m :=
    lt_of_le_of_lt ((le_max_left _ _).trans (le_max_left _ _)) large
  have overLine : ((n : Int) : ℚ) > 1 - line :=
    lt_of_le_of_lt ((le_max_right _ _).trans (le_max_left _ _)) large
  have overSix : (n : Int) > 6 := by
    have : (n : ℚ) > 6 := lt_of_le_of_lt (le_max_right _ _) large
    exact_mod_cast this
  have ahead : ((n : Int) : ℚ) + line > 1 := by linarith
  have beatenAt := lost n overM (by omega)
  have grade : gradeBet sportKey (.handicap s line) (winBy s n).1 (winBy s n).2 = .ok .won := by
    cases s with
    | home =>
      simp only [gradeBet, winBy, margin, sub_zero]
      exact gradeHandicap_won ahead _
    | away =>
      simp only [gradeBet, winBy, margin, sub_zero]
      exact gradeHandicap_won ahead _
  refine ⟨_, _, _, _, ?_, ?_, ?_, grade, beatenAt, by decide⟩
  · cases s <;> simp only [winBy] <;> omega
  · cases s <;> simp only [winBy] <;> omega
  · cases s <;> simp only [winBy] <;> omega

theorem toldApart_handicaps (sportKey : Option Str) {s s' : WinnerSide} (differ : s ≠ s')
    (line line' : ℚ) : ToldApart sportKey (.handicap s line) (.handicap s' line') := by
  apply toldApart_handicap
  refine ⟨line' + 1, fun n large _ => ?_⟩
  have behind : ((0 - n : Int) : ℚ) + line' < -1 := by
    push_cast
    linarith
  cases s <;> cases s' <;> first
    | exact absurd rfl differ
    | exact gradeHandicap_lost behind _

theorem toldApart_drawLine (sportKey : Option Str) (s : WinnerSide) (line line' : ℚ) :
    ToldApart sportKey (.handicap s line) (.handicapDraw line') := by
  apply toldApart_handicap
  refine ⟨|line'|, fun n large _ => ?_⟩
  have bound := abs_lt.mp large
  cases s with
  | home =>
    have missed : ¬ (n : ℚ) + line' = (0 : Int) := by
      push_cast
      intro level
      linarith
    simp only [gradeBet, winBy, missed, decide_false, won, Bool.false_eq_true, if_false]
  | away =>
    have missed : ¬ ((0 : Int) : ℚ) + line' = n := by
      push_cast
      intro level
      linarith
    simp only [gradeBet, winBy, missed, decide_false, won, Bool.false_eq_true, if_false]

theorem toldApart_turned (sportKey : Option Str) {line : ℚ} (whole : isInteger line)
    (nonzero : line ≠ 0) : ToldApart sportKey (.handicapDraw line) (.handicapDraw (-line)) := by
  obtain ⟨z, rfl⟩ := (isInteger_iff line).mp whole
  have met : ((6 + |z| : Int) : ℚ) + z = ((6 + |z| + z : Int) : ℚ) := by push_cast; ring
  have missed : ¬ ((6 + |z| : Int) : ℚ) + -z = ((6 + |z| + z : Int) : ℚ) := by
    intro level
    push_cast at level
    exact nonzero (by linarith)
  obtain ⟨low, high⟩ := abs_le.mp (le_refl |z|)
  have size := abs_nonneg z
  refine ⟨6 + |z|, 6 + |z| + z, .won, .lost, by omega, by omega, by omega, ?_, ?_, by decide⟩
  · simp only [gradeBet, met, decide_true, won, if_true]
  · simp only [gradeBet, missed, decide_false, won, Bool.false_eq_true, if_false]

/-! When a side wins ten to nil, the bets without a line are won or lost by their side. -/

theorem grade_side (sportKey : Option Str) (s s' : WinnerSide) :
    gradeBet sportKey (.side s) (winBy s' 10).1 (winBy s' 10).2 = .ok (won (s = s')) := by
  cases s <;> cases s' <;> simp [gradeBet, winBy, margin]

theorem grade_draw (sportKey : Option Str) (s' : WinnerSide) :
    gradeBet sportKey .draw (winBy s' 10).1 (winBy s' 10).2 = .ok .lost := by
  cases s' <;> rfl

theorem grade_drawNoBet (sportKey : Option Str) (s s' : WinnerSide) :
    gradeBet sportKey (.drawNoBet s) (winBy s' 10).1 (winBy s' 10).2 = .ok (won (s = s')) := by
  cases s <;> cases s' <;> simp [gradeBet, winBy, margin]

theorem grade_sideOrDraw (sportKey : Option Str) (s s' : WinnerSide) :
    gradeBet sportKey (.sideOrDraw s) (winBy s' 10).1 (winBy s' 10).2 = .ok (won (s = s')) := by
  cases s <;> cases s' <;> simp [gradeBet, winBy, margin]

theorem grade_eitherSide (sportKey : Option Str) (s' : WinnerSide) :
    gradeBet sportKey .eitherSide (winBy s' 10).1 (winBy s' 10).2 = .ok .won := by
  cases s' <;> rfl

theorem toldApart_ten (sportKey : Option Str) {b c : Bet} (s : WinnerSide) {o o' : Outcome}
    (grade : gradeBet sportKey b (winBy s 10).1 (winBy s 10).2 = .ok o)
    (grade' : gradeBet sportKey c (winBy s 10).1 (winBy s 10).2 = .ok o') (differ : o ≠ o') :
    ToldApart sportKey b c := by
  refine ⟨_, _, o, o', ?_, ?_, ?_, grade, grade', differ⟩ <;> cases s <;> decide

theorem won_ne {s s' : WinnerSide} (differ : s ≠ s') : won (s = s) ≠ won (s' = s) := by
  simp [won, differ.symm]

theorem toldApart_of_party (sportKey : Option Str) {b c : Bet} (market : b.market = c.market)
    (differ : b.party ≠ c.party) : ToldApart sportKey b c := by
  cases b with
  | side s =>
    cases c with
    | side s' =>
      have other : s ≠ s' := fun same => differ (same ▸ rfl)
      exact toldApart_ten sportKey s (grade_side _ s s) (grade_side _ s' s) (won_ne other)
    | draw => exact toldApart_ten sportKey s (grade_side _ s s) (grade_draw _ s) (by simp [won])
    | _ => cases market
  | draw =>
    cases c with
    | side s => exact toldApart_ten sportKey s (grade_draw _ s) (grade_side _ s s) (by simp [won])
    | draw => exact absurd rfl differ
    | _ => cases market
  | total direction line =>
    cases c with
    | total direction' line' => exact absurd rfl differ
    | _ => cases market
  | bothScore yes =>
    cases c with
    | bothScore yes' => exact absurd rfl differ
    | _ => cases market
  | drawNoBet s =>
    cases c with
    | drawNoBet s' =>
      have other : s ≠ s' := fun same => differ (same ▸ rfl)
      exact toldApart_ten sportKey s (grade_drawNoBet _ s s) (grade_drawNoBet _ s' s) (won_ne other)
    | _ => cases market
  | sideOrDraw s =>
    cases c with
    | sideOrDraw s' =>
      have other : s ≠ s' := fun same => differ (same ▸ rfl)
      exact toldApart_ten sportKey s (grade_sideOrDraw _ s s) (grade_sideOrDraw _ s' s)
        (won_ne other)
    | eitherSide =>
      exact toldApart_ten sportKey (turnSide s) (grade_sideOrDraw _ s (turnSide s))
        (grade_eitherSide _ _) (by cases s <;> decide)
    | _ => cases market
  | eitherSide =>
    cases c with
    | sideOrDraw s =>
      exact toldApart_ten sportKey (turnSide s) (grade_eitherSide _ _)
        (grade_sideOrDraw _ s (turnSide s)) (by cases s <;> decide)
    | eitherSide => exact absurd rfl differ
    | _ => cases market
  | handicap s line =>
    cases c with
    | handicap s' line' =>
      have other : s ≠ s' := fun same => differ (same ▸ rfl)
      exact toldApart_handicaps sportKey other line line'
    | handicapDraw line' => exact toldApart_drawLine sportKey s line line'
    | _ => cases market
  | handicapDraw line =>
    cases c with
    | handicap s line' => exact (toldApart_drawLine sportKey s line' line).symm
    | handicapDraw line' => exact absurd rfl differ
    | _ => cases market

/-! Where no line is involved, market and party make the bet. -/

theorem eq_of_party {b c : Bet} (market : b.market = c.market) (party : b.party = c.party)
    (unlined : b.market ∈ [Market.h2h, .dnb, .doubleChance]) : b = c := by
  cases b <;> cases c <;> simp_all [Bet.market, Bet.party]

theorem orient_unlined (swap : Bool) {b : Bet} (unlined : b.market ∈ [Market.totals, .btts]) :
    b.orient swap = b := by
  cases swap
  · rfl
  · cases b <;> simp_all [Bet.market, Bet.orient, Bet.turn]

theorem gradeBet_orient (sportKey : Option Str) (swap : Bool) (b : Bet) (hs as_ : Int) :
    gradeBet sportKey (b.orient swap) hs as_ =
      if swap then gradeBet sportKey b as_ hs else gradeBet sportKey b hs as_ := by
  cases swap
  · rfl
  · exact gradeBet_turn sportKey b hs as_

section Merge
variable [Unicode]

theorem readBet_market {market : Market} {selection home away : Str} {b : Bet}
    (read : readBet market selection home away = .ok b) : b.market = market := by
  cases market with
  | h2h =>
    simp only [readBet] at read
    split at read
    · cases read; rfl
    · split at read
      · cases read; rfl
      · cases read
  | totals =>
    simp only [readBet] at read
    split at read
    · cases read; rfl
    · cases read
  | btts =>
    simp only [readBet] at read
    split at read
    · cases read; rfl
    · split at read
      · cases read; rfl
      · cases read
  | dnb =>
    simp only [readBet] at read
    split at read
    · cases read; rfl
    · cases read
  | doubleChance =>
    simp only [readBet, readDoubleChance] at read
    split at read
    · split at read
      · split at read
        · cases read
        · cases read; rfl
      · split at read
        · cases read
        · cases read; rfl
    · cases read
  | spreads =>
    simp only [readBet, readSpread] at read
    split at read
    · cases read; rfl
    · split at read
      · cases read
      · split at read
        · split at read
          · cases read
          · cases read; rfl
        · split at read
          · cases read; rfl
          · cases read
  | teamTotals => cases read
  | correctScore => cases read
  | other => cases read

def SameFixture (r r' : Row) : Prop :=
  ∃ p p', fixturePairKey r.home r.away = some p ∧ fixturePairKey r'.home r'.away = some p' ∧
    p.Same p'

def turned (r r' : Row) : Bool :=
  normalizeName (stripLiveStatus r.home) ≠ normalizeName (stripLiveStatus r'.home)

/-- Whatever the score, picks of the two selections that are both graded get one
outcome. The score is that of the first row. -/
def MergesEqual (market : Market) (selection selection' : Str) (r r' : Row)
    (sportKey detail : Option Str) : Prop :=
  ∀ hs as_ o o',
    settleSelection market selection r.home r.away hs as_ sportKey detail = .ok o →
    (if turned r r' then settleSelection market selection' r'.home r'.away as_ hs sportKey detail
      else settleSelection market selection' r'.home r'.away hs as_ sportKey detail) = .ok o' →
    o = o'

theorem named_of_pair {home away : Str} {p : PairKey} (pair : fixturePairKey home away = some p) :
    home.dropWhile isSpace ≠ [] ∧ away.dropWhile isSpace ≠ [] := by
  have blank (name : Str) (empty : name.dropWhile isSpace = []) :
      normalizeName (stripLiveStatus name) = [] := by
    have spaces := List.dropWhile_eq_nil_iff.mp empty
    have back : name.reverse.dropWhile isSpace = [] :=
      List.dropWhile_eq_nil_iff.mpr fun c inside => spaces c (List.mem_reverse.mp inside)
    have nothing : stripLiveStatus name = [] := by
      simp [stripLiveStatus, dropLiveStatus, strip, back, empty]
    rw [nothing]
    rfl
  simp only [fixturePairKey] at pair
  split at pair
  · rename_i named
    exact ⟨fun empty => named.1 (blank home empty), fun empty => named.2.1 (blank away empty)⟩
  · cases pair

theorem readTotals_of_key {selection selection' home away home' away' : Str} {b b' : Bet}
    (same : selectionDedupKey selection = selectionDedupKey selection')
    (read : readBet .totals selection home away = .ok b)
    (read' : readBet .totals selection' home' away' = .ok b') : b = b' := by
  simp only [readBet] at read read'
  split at read
  · rename_i found
    split at read'
    · rename_i found'
      rw [key_totals found, key_totals found'] at same
      rw [same, found'] at found
      cases found
      cases read
      cases read'
      rfl
    · cases read'
  · cases read

theorem readBtts_of_key {selection selection' home away home' away' : Str} {b b' : Bet}
    (same : selectionDedupKey selection = selectionDedupKey selection')
    (read : readBet .btts selection home away = .ok b)
    (read' : readBet .btts selection' home' away' = .ok b') : b = b' := by
  have text {s home away : Str} {b : Bet} (read : readBet .btts s home away = .ok b) :
      (b = .bothScore true ∧ selectionDedupKey s ∈ ["btts yes".toList, "yes".toList]) ∨
        (b = .bothScore false ∧ selectionDedupKey s ∈ ["btts no".toList, "no".toList]) := by
    obtain ⟨prefixedYes, yes, prefixedNo, no⟩ := key_btts
    simp only [readBet] at read
    split at read
    · rename_i affirmed
      cases read
      simp only [List.mem_cons, List.not_mem_nil, or_false] at affirmed
      obtain rfl | rfl := affirmed
      · exact .inl ⟨rfl, by rw [prefixedYes]; decide⟩
      · exact .inl ⟨rfl, by rw [yes]; decide⟩
    · split at read
      · rename_i denied
        cases read
        simp only [List.mem_cons, List.not_mem_nil, or_false] at denied
        obtain rfl | rfl := denied
        · exact .inr ⟨rfl, by rw [prefixedNo]; decide⟩
        · exact .inr ⟨rfl, by rw [no]; decide⟩
      · cases read
  have apart : ∀ k ∈ ["btts yes".toList, "yes".toList],
    k ∉ ["btts no".toList, "no".toList] := by decide
  obtain ⟨rfl, key⟩ | ⟨rfl, key⟩ := text read
  · obtain ⟨rfl, -⟩ | ⟨-, key'⟩ := text read'
    · rfl
    · exact absurd key' (same ▸ apart _ key)
  · obtain ⟨-, key'⟩ | ⟨rfl, -⟩ := text read'
    · exact absurd key (same ▸ apart _ key')
    · rfl

theorem bet_of_key {market : Market} {selection selection' : Str} {r r' : Row} {b b' : Bet}
    {swap : Bool} (fixture : SameFixture r r')
    (same : selectionDedupKey selection = selectionDedupKey selection')
    (read : readBet market selection r.home r.away = .ok b)
    (read' : readBet market selection' r'.home r'.away = .ok b')
    (party : b.party = (b'.orient swap).party) :
    (∃ line, b = .handicapDraw line ∧ b' = .handicapDraw line) ∨
      (b.market ≠ .spreads ∨ b.party ≠ none) ∧ b = b'.orient swap := by
  have of := readBet_market read
  have of' := readBet_market read'
  have markets : b.market = (b'.orient swap).market := by rw [orient_market, of, of']
  by_cases unlined : market ∈ [Market.h2h, .dnb, .doubleChance]
  · have other : market ≠ .spreads := by
      rintro rfl
      exact absurd unlined (by decide)
    exact .inr ⟨.inl (of ▸ other), eq_of_party markets party (of ▸ unlined)⟩
  · cases market with
    | totals =>
      rw [orient_unlined swap (by rw [of']; decide)]
      exact .inr ⟨.inl (by rw [of]; decide), readTotals_of_key same read read'⟩
    | btts =>
      rw [orient_unlined swap (by rw [of']; decide)]
      exact .inr ⟨.inl (by rw [of]; decide), readBtts_of_key same read read'⟩
    | spreads =>
      obtain ⟨p, p', pair, pair', -⟩ := fixture
      obtain ⟨homeNamed, awayNamed⟩ := named_of_pair pair
      obtain ⟨homeNamed', awayNamed'⟩ := named_of_pair pair'
      obtain ⟨line, text, kind⟩ := readSpread_text homeNamed awayNamed read
      obtain ⟨line', text', kind'⟩ := readSpread_text homeNamed' awayNamed' read'
      obtain rfl := line_of_key text text' same
      obtain rfl | ⟨s, rfl⟩ := kind
      · obtain rfl | ⟨s', rfl⟩ := kind'
        · exact .inl ⟨_, rfl, rfl⟩
        · cases swap <;> cases party
      · obtain rfl | ⟨s', rfl⟩ := kind'
        · cases swap <;> cases party
        · cases swap <;> cases party <;> exact .inr ⟨.inr nofun, rfl⟩
    | teamTotals => cases read
    | correctScore => cases read
    | other => cases read
    | h2h | dnb | doubleChance => exact absurd (by decide) unlined

theorem settle_ok {market : Market} {selection home away : Str} {hs as_ : Int}
    {sportKey detail : Option Str} {o : Outcome}
    (graded : settleSelection market selection home away hs as_ sportKey detail = .ok o) :
    ∃ b, readBet market selection home away = .ok b ∧ gradeBet sportKey b hs as_ = .ok o := by
  rw [settleSelection_eq] at graded
  split at graded
  · cases graded
  · split at graded
    · cases graded
    · cases read : readBet market selection home away with
      | error e => simp [read, Except.bind] at graded
      | ok b => exact ⟨b, rfl, by simpa [read, Except.bind] using graded⟩

theorem settle_large {market : Market} {selection home away : Str} {hs as_ : Int}
    {sportKey : Option Str} {b : Bet} (read : readBet market selection home away = .ok b)
    (homePlayed : 0 ≤ hs) (awayPlayed : 0 ≤ as_) (large : hs + as_ > 5) (detail : Option Str) :
    settleSelection market selection home away hs as_ sportKey detail =
      gradeBet sportKey b hs as_ := by
  have played : ¬ (hs < 0 ∨ as_ < 0) := by omega
  simp [settleSelection_eq, played, tennisSetScoreUngradeable, large, read, Except.bind]

theorem mergesEqual_iff (market : Market) (selection selection' : Str) (r r' : Row)
    (sportKey detail : Option Str) (fixture : SameFixture r r')
    (same : selectionDedupKey selection = selectionDedupKey selection') :
    MergesEqual market selection selection' r r' sportKey detail ↔
      ∀ b b', readBet market selection r.home r.away = .ok b →
        readBet market selection' r'.home r'.away = .ok b' → OneBet (turned r r') b b' := by
  have settled {hs as_ : Int} {b' : Bet}
      (read' : readBet market selection' r'.home r'.away = .ok b')
      (homePlayed : 0 ≤ hs) (awayPlayed : 0 ≤ as_) (large : hs + as_ > 5) :
      (if turned r r' then settleSelection market selection' r'.home r'.away as_ hs sportKey detail
        else settleSelection market selection' r'.home r'.away hs as_ sportKey detail) =
        gradeBet sportKey (b'.orient (turned r r')) hs as_ := by
    rw [gradeBet_orient, settle_large read' homePlayed awayPlayed large,
      settle_large read' awayPlayed homePlayed (by omega)]
  constructor
  · intro merges b b' read read'
    by_contra several
    have apart : ToldApart sportKey b (b'.orient (turned r r')) := by
      by_cases party : b.party = (b'.orient (turned r r')).party
      · obtain ⟨swap, line, rfl, whole, nonzero⟩ : TurnedDrawLine (turned r r') b := by
          by_contra straight
          exact several ⟨party, straight⟩
        obtain ⟨line', equal, rfl⟩ | ⟨noDraw, -⟩ := bet_of_key fixture same read read' party
        · cases equal
          rw [swap]
          exact toldApart_turned sportKey whole nonzero
        · exact absurd rfl (noDraw.resolve_left fun other => other rfl)
      · have markets : b.market = (b'.orient (turned r r')).market := by
          rw [orient_market, readBet_market read, readBet_market read']
        exact toldApart_of_party sportKey markets party
    obtain ⟨hs, as_, o, o', homePlayed, awayPlayed, large, grade, grade', differ⟩ := apart
    refine differ (merges hs as_ o o' ?_ ?_)
    · rw [settle_large read homePlayed awayPlayed large, grade]
    · rw [settled read' homePlayed awayPlayed large, grade']
  · intro condition hs as_ o o' graded graded'
    obtain ⟨b, read, grade⟩ := settle_ok graded
    have second : ∃ b', readBet market selection' r'.home r'.away = .ok b' ∧
        gradeBet sportKey (b'.orient (turned r r')) hs as_ = .ok o' := by
      simp only [gradeBet_orient]
      cases swap : turned r r' with
      | true =>
        simp only [swap, if_true] at graded' ⊢
        exact settle_ok graded'
      | false =>
        simp only [swap, Bool.false_eq_true, if_false] at graded' ⊢
        exact settle_ok graded'
    obtain ⟨b', read', grade'⟩ := second
    obtain ⟨party, straight⟩ := condition b b' read read'
    obtain ⟨line, rfl, rfl⟩ | ⟨-, rfl⟩ := bet_of_key fixture same read read' party
    · -- a draw line survives the turn when it is zero or cannot be met
      rw [gradeBet_orient] at grade'
      split at grade'
      · rename_i swap
        have met : (hs : ℚ) + line = as_ ↔ (as_ : ℚ) + line = hs := by
          by_cases whole : isInteger line
          · have zero : line = 0 := by
              by_contra nonzero
              exact straight ⟨swap, line, rfl, whole, nonzero⟩
            rw [zero, add_zero, add_zero]
            exact eq_comm
          · have never (x y : Int) : ¬ (x : ℚ) + line = y := by
              intro level
              refine whole ((isInteger_iff line).mpr ⟨y - x, ?_⟩)
              push_cast
              linarith
            exact iff_of_false (never hs as_) (never as_ hs)
        simp only [gradeBet, met] at grade grade'
        exact Except.ok.inj (grade.symm.trans grade')
      · exact Except.ok.inj (grade.symm.trans grade')
    · exact Except.ok.inj (grade.symm.trans grade')

end Merge
def ajaxAtHome : Row := ⟨"Ajax".toList, "PSV".toList⟩
def psvAtHome : Row := ⟨"PSV".toList, "Ajax".toList⟩

theorem psv_sameFixture : @SameFixture Unicode.ascii ajaxAtHome psvAtHome := by
  refine ⟨⟨"ajax".toList, "psv".toList, by decide, by decide, by decide⟩,
    ⟨"psv".toList, "ajax".toList, by decide, by decide, by decide⟩, ?_, ?_, by decide⟩
  · rfl
  · rfl

theorem mergesEqual_totals :
    @MergesEqual Unicode.ascii .totals "Over 2.5".toList "Over 2.5".toList ajaxAtHome psvAtHome none
      none := by
  refine (@mergesEqual_iff Unicode.ascii .totals "Over 2.5".toList "Over 2.5".toList ajaxAtHome
    psvAtHome none none psv_sameFixture rfl).mpr ?_
  intro b b' read read'
  have line : @readBet Unicode.ascii .totals "Over 2.5".toList "Ajax".toList "PSV".toList =
    .ok (.total .over (5 / 2)) := by decide +kernel
  cases line.symm.trans read
  cases line.symm.trans read'
  refine ⟨rfl, ?_⟩
  rintro ⟨-, line, equal, -⟩
  cases equal

/-- A draw line is its row's home handicap: on the row turned round it is another bet. -/
theorem mergesEqual_drawLine :
    @selectionDedupKey Unicode.ascii "Draw -1".toList = "draw -1".toList ∧
      ¬ @MergesEqual Unicode.ascii .spreads "Draw -1".toList "Draw -1".toList ajaxAtHome psvAtHome
        (some "soccer".toList) none := by
  refine ⟨by decide, fun merges => ?_⟩
  have graded : @settleSelection Unicode.ascii .spreads "Draw -1".toList "Ajax".toList
    "PSV".toList 1 0 (some "soccer".toList) none = .ok .won := by decide +kernel
  have turned : @settleSelection Unicode.ascii .spreads "Draw -1".toList "PSV".toList
    "Ajax".toList 0 1 (some "soccer".toList) none = .ok .lost := by decide +kernel
  cases merges 1 0 .won .lost graded turned

end SharpEvPicks.Settlement
