import SharpEvPicks.Edge.Odds

/-! Which handicap legs may be devigged together, `app/edge/value.py`. -/
namespace SharpEvPicks.Edge

open Python

variable [Unicode]

/-- `_SPREAD_SELECTION_RE.match`, on stripped text: the line is all that follows
the last white space, and the dot of the pattern takes no newline. -/
def spreadMatch (s : Str) : Option (Str × Str) :=
  let line := (s.reverse.takeWhile fun c => !isSpace c).reverse
  let team := ((s.reverse.dropWhile fun c => !isSpace c).dropWhile isSpace).reverse
  if isSigned line ∧ team ≠ [] ∧ '\n' ∉ team then some (team, line) else none

def parseSpreadSelection (selection : Str) : Option (Str × ℚ) :=
  (spreadMatch (strip selection)).map fun (team, line) => (norm team, floatValue line)

def isDrawSpreadLeg (selection : Str) : Bool :=
  let key := norm selection
  let key := if "the ".toList.isPrefixOf key then key.drop 4 else key
  key = "draw".toList || "draw ".toList.isPrefixOf key || "draw(".toList.isPrefixOf key

def complementary (first second : Str) : Bool :=
  match parseSpreadSelection first, parseSpreadSelection second with
  | some (teamA, lineA), some (teamB, lineB) => teamA ≠ teamB && lineA = -lineB
  | _, _ => false

def spreadPairCoherent (selections : List Str) : Bool :=
  match selections with
  | [first, second] => complementary first second
  | [_, _, _] =>
    match selections.filter fun s => !isDrawSpreadLeg s with
    | [first, second] => complementary first second
    | _ => false
  | _ => false

/-! What is read back from a leg written as a team, a blank and a line. -/

theorem strip_leg (team : Str) {line : Str} (number : isSigned line) :
    strip (team ++ ' ' :: line) =
      if team.dropWhile isSpace = [] then line else team.dropWhile isSpace ++ ' ' :: line := by
  have solid : line.dropWhile isSpace = line := by
    cases line with
    | nil => rfl
    | cons c cs => simp [isSigned_not_space number List.mem_cons_self]
  have solidEnd (before : Str) :
      ((before ++ line).reverse.dropWhile isSpace).reverse = before ++ line := by
    obtain ⟨front, last, rfl⟩ :=
      List.eq_nil_or_concat line |>.resolve_left (isSigned_ne_nil number)
    have shut : isSpace last = false := isSigned_not_space number (by simp)
    simp [shut]
  unfold strip
  rw [List.dropWhile_append]
  by_cases blank : team.dropWhile isSpace = []
  · have space : isSpace ' ' = true := rfl
    simp only [blank, List.isEmpty_nil, if_true, List.dropWhile_cons, space, solid]
    exact solidEnd []
  · simp only [List.isEmpty_iff, blank, if_false]
    have := solidEnd (team.dropWhile isSpace ++ [' '])
    simpa using this

theorem parseSpreadSelection_leg {team line : Str} (number : isSigned line) {name : Str}
    {value : ℚ} (parsed : parseSpreadSelection (team ++ ' ' :: line) = some (name, value)) :
    team ≠ [] ∧ value = floatValue line := by
  have solid : ∀ c ∈ line.reverse, (!isSpace c) = true := by
    intro c inside
    simp [isSigned_not_space number (List.mem_reverse.mp inside)]
  rw [parseSpreadSelection, strip_leg team number] at parsed
  split at parsed
  · -- nothing but the line is left, and no team stands before it
    simp [spreadMatch, List.takeWhile_eq_self_iff.mpr solid, List.dropWhile_eq_nil_iff.mpr solid]
      at parsed
  · rename_i named
    have text : (team.dropWhile isSpace ++ ' ' :: line).reverse =
        line.reverse ++ ' ' :: (team.dropWhile isSpace).reverse := by simp
    have space : isSpace ' ' = true := rfl
    simp only [spreadMatch, text, List.takeWhile_append_of_pos solid, List.takeWhile_cons, space,
      Bool.not_true, Bool.false_eq_true, if_false, List.append_nil, List.reverse_reverse,
      Option.map_eq_some_iff] at parsed
    obtain ⟨⟨found, rest⟩, matched, result⟩ := parsed
    split at matched
    · cases matched
      cases result
      refine ⟨?_, rfl⟩
      rintro rfl
      exact named rfl
    · cases matched

theorem complementary_legs {home away lineA lineB : Str} (numberA : isSigned lineA)
    (numberB : isSigned lineB)
    (accepted : spreadPairCoherent [home ++ ' ' :: lineA, away ++ ' ' :: lineB]) :
    home ≠ [] ∧ away ≠ [] ∧ floatValue lineB = -floatValue lineA := by
  simp only [spreadPairCoherent, complementary] at accepted
  split at accepted
  · rename_i nameA valueA nameB valueB parsedA parsedB
    obtain ⟨someHome, lineHome⟩ := parseSpreadSelection_leg numberA parsedA
    obtain ⟨someAway, lineAway⟩ := parseSpreadSelection_leg numberB parsedB
    simp only [Bool.and_eq_true, decide_eq_true_eq] at accepted
    refine ⟨someHome, someAway, ?_⟩
    rw [← lineHome, ← lineAway, accepted.2, neg_neg]
  · cases accepted

end SharpEvPicks.Edge
