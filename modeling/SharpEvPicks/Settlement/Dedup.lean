import Mathlib.Data.List.Sort
import Mathlib.Data.List.Lex
import Mathlib.Data.Char
import SharpEvPicks.Settlement.Bets

/-! The selection part of the settlement dedup key, `_selection_dedup_key` of
`app/settlement/engine.py`, and the bets it takes for one. -/
namespace SharpEvPicks.Settlement

open Python Resolution

section Key
variable [Unicode]

def selectionDedupKey (selection : Str) : Str :=
  let base := stripLiveStatus selection
  let (team, rawLine) := rpartition ' ' base
  if team ≠ [] ∧ isSigned rawLine then
    let norm := normalizeName (stripLiveStatus team)
    if norm ≠ [] then norm ++ ' ' :: rawLine else base
  else if contains " or ".toList base then
    let parts := (splitSeq " or ".toList base).map normalizeName
    if parts.all (· ≠ []) then join " or ".toList (parts.insertionSort (· ≤ ·)) else base
  else if base.any Unicode.isDigit then base
  else
    let norm := normalizeName base
    if norm ≠ [] then norm else base

/-! Live status is looked for at the end of the text. -/

omit [Unicode] in
theorem stripLiveStatus_plain (front : Str) {last : Char} (solid : isSpace last = false)
    (open_ : last ≠ ']') :
    stripLiveStatus (front ++ [last]) = (front ++ [last]).dropWhile isSpace := by
  have kept : dropLiveStatus (front ++ [last]) = front ++ [last] := by
    unfold dropLiveStatus
    split
    · rename_i rest shape
      simp [solid] at shape
      exact absurd shape.1 open_
    · rfl
  have ends : ∃ front', (front ++ [last]).dropWhile isSpace = front' ++ [last] := by
    rw [List.dropWhile_append]
    split
    · exact ⟨[], by simp [solid]⟩
    · exact ⟨_, rfl⟩
  obtain ⟨front', shape⟩ := ends
  unfold stripLiveStatus strip
  rw [kept, shape]
  simp [solid]

theorem stripLiveStatus_number (front : Str) {number : Str} (line : isSigned number) :
    stripLiveStatus (front ++ number) = (front ++ number).dropWhile isSpace := by
  obtain ⟨first, last, rfl, digit⟩ := isSigned_ends line
  have solid : isSpace last = false := isSigned_not_space line (by simp)
  have open_ : last ≠ ']' := by
    rintro rfl
    rw [Unicode.decimal_ascii _ (by decide)] at digit
    cases digit
  rw [← List.append_assoc]
  exact stripLiveStatus_plain _ solid open_

/-- A team and a signed line keep the line as it is written. -/
theorem key_leg {team line : Str} (named : team.dropWhile isSpace ≠ []) (number : isSigned line) :
    ∃ t, selectionDedupKey (team ++ ' ' :: line) = t ++ ' ' :: line := by
  have base : stripLiveStatus (team ++ ' ' :: line) = team.dropWhile isSpace ++ ' ' :: line := by
    have := stripLiveStatus_number (team ++ [' ']) number
    rw [List.append_assoc, List.singleton_append] at this
    rw [this, List.dropWhile_append]
    simp [named]
  simp only [selectionDedupKey, base,
    rpartition_append ' ' _ line (isSigned_no_blank number)]
  simp only [named, ne_eq, not_false_iff, number, and_self, if_true]
  split
  · exact ⟨_, rfl⟩
  · exact ⟨_, rfl⟩

/-- One word, one blank and a text with a digit but no sign are kept as they are. -/
theorem key_verbatim {word rest : Str} {first last : Char} (solidFirst : isSpace first = false)
    (wordSolid : ' ' ∉ word) (restSolid : ' ' ∉ rest) (solid : isSpace last = false)
    (open_ : last ≠ ']') (unsigned : isSigned (rest ++ [last]) = false)
    (digit : (rest ++ [last]).any Unicode.isDigit) :
    selectionDedupKey (first :: word ++ ' ' :: (rest ++ [last])) =
      first :: word ++ ' ' :: (rest ++ [last]) := by
  have blankFirst : first ≠ ' ' := by
    rintro rfl
    cases solidFirst
  have blankLast : last ≠ ' ' := by
    rintro rfl
    cases solid
  have base : stripLiveStatus (first :: word ++ ' ' :: (rest ++ [last])) =
      first :: word ++ ' ' :: (rest ++ [last]) := by
    have := stripLiveStatus_plain (first :: word ++ ' ' :: rest) solid open_
    have tail : ' ' :: rest ++ [last] = ' ' :: (rest ++ [last]) := rfl
    rw [List.append_assoc, tail] at this
    rw [this]
    simp [solidFirst]
  have single : contains " or ".toList (first :: word ++ ' ' :: (rest ++ [last])) = false := by
    rw [contains, decide_eq_false_iff_not]
    intro inside
    have twice := inside.sublist.count_le ' '
    rw [List.count_append, List.count_cons_self, List.count_append,
      List.count_eq_zero_of_not_mem restSolid, List.count_cons_of_ne blankFirst,
      List.count_eq_zero_of_not_mem wordSolid, List.count_singleton] at twice
    simp [blankLast] at twice
  have after : ' ' ∉ rest ++ [last] := by simp [restSolid, blankLast.symm]
  have anyDigit : (first :: word ++ ' ' :: (rest ++ [last])).any Unicode.isDigit := by
    obtain ⟨c, inside, isDigit⟩ := List.any_eq_true.mp digit
    exact List.any_eq_true.mpr ⟨c, List.mem_append_right _ (List.mem_cons_of_mem _ inside),
      isDigit⟩
  simp only [selectionDedupKey, base, rpartition_append ' ' _ _ after, unsigned, single, anyDigit,
    Bool.false_eq_true, and_false, if_false, if_true]

theorem key_word {s : Str} (ascii : s.all isAscii) (clean : stripLiveStatus s = s)
    (unsigned : isSigned (rpartition ' ' s).2 = false) (single : contains " or ".toList s = false)
    (wordy : s.any Char.isDigit = false) (named : @normalizeName Unicode.ascii s ≠ []) :
    selectionDedupKey s = @normalizeName Unicode.ascii s := by
  have ascii := List.all_eq_true.mp ascii
  have noDigit : s.any Unicode.isDigit = false := by
    rw [List.any_eq_false] at wordy ⊢
    intro c inside
    rw [Unicode.isDigit_ascii c (ascii c inside)]
    exact wordy c inside
  simp only [selectionDedupKey, clean, unsigned, single, noDigit, normalizeName_ascii ascii, named,
    Bool.false_eq_true, and_false, if_false, ne_eq, not_false_iff, if_true]

theorem key_btts :
    selectionDedupKey "BTTS Yes".toList = "btts yes".toList ∧
      selectionDedupKey "Yes".toList = "yes".toList ∧
      selectionDedupKey "BTTS No".toList = "btts no".toList ∧
      selectionDedupKey "No".toList = "no".toList :=
  ⟨key_word (by decide) (by decide) rfl (by decide) (by decide) (by decide),
    key_word (by decide) (by decide) rfl (by decide) (by decide) (by decide),
    key_word (by decide) (by decide) rfl (by decide) (by decide) (by decide),
    key_word (by decide) (by decide) rfl (by decide) (by decide) (by decide)⟩

end Key
end SharpEvPicks.Settlement
