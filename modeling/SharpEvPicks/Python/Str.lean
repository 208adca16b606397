import Mathlib.Data.List.Infix
import Mathlib.Data.List.TakeWhile
import Mathlib.Data.Rat.Defs
import Mathlib.Algebra.Order.Ring.Rat

/-! The part of Python's `str`, `unicodedata` and `re` that name handling needs.
A `str` is its list of code points. What a method looks up in the Unicode
database is a parameter, because the database changes with the interpreter;
its laws are what every version of it has in common. -/
namespace Python

abbrev Str := List Char

instance memDecidable (s : Str) (l : List Str) : Decidable (s ∈ l) := inferInstance

/-- Decided along the text, not over the alphabet. -/
instance everyDecidable (p : Char → Prop) [DecidablePred p] (s : Str) :
    Decidable (∀ c ∈ s, p c) :=
  List.decidableBAll p s

/-- `str.isspace` of one character; `split`, `strip` and `\s` use the same set. -/
def isSpace (c : Char) : Bool :=
  let n := c.toNat
  (9 ≤ n && n ≤ 13) || (28 ≤ n && n ≤ 32) || n == 0x85 || n == 0xa0 || n == 0x1680 ||
    (0x2000 ≤ n && n ≤ 0x200a) || n == 0x2028 || n == 0x2029 || n == 0x202f ||
    n == 0x205f || n == 0x3000

def isAscii (c : Char) : Bool := c.toNat < 128

/-- The Unicode database, as far as it is consulted. -/
class Unicode where
  /-- `unicodedata.normalize("NFKD", c).encode("ascii", "ignore")`. Canonical
  reordering never moves an ASCII character, so a string folds character by character. -/
  asciiFold : Char → Str
  lower : Str → Str
  /-- The decimal value of a character that `\d` matches. -/
  decimal : Char → Option Nat
  isDigit : Char → Bool
  asciiFold_ascii : ∀ c, isAscii c → asciiFold c = [c]
  ascii_of_mem_asciiFold : ∀ c, ∀ d ∈ asciiFold c, isAscii d
  asciiFold_space : ∀ c, isSpace c → ∀ d ∈ asciiFold c, ¬ d.isAlphanum
  lower_ascii : ∀ s : Str, (∀ c ∈ s, isAscii c) → lower s = s.map Char.toLower
  decimal_ascii : ∀ c, isAscii c → decimal c = if c.isDigit then some (c.toNat - 48) else none
  decimal_lt : ∀ c n, decimal c = some n → n < 10
  isDigit_of_decimal : ∀ c n, decimal c = some n → isDigit c
  not_space_of_decimal : ∀ c n, decimal c = some n → ¬ isSpace c
  isDigit_ascii : ∀ c, isAscii c → isDigit c = c.isDigit

/-- The database cut down to ASCII: the values on ASCII text are everybody's. -/
@[reducible] def Unicode.ascii : Unicode where
  asciiFold c := if isAscii c then [c] else []
  lower s := s.map Char.toLower
  decimal c := if c.isDigit then some (c.toNat - 48) else none
  isDigit c := c.isDigit
  asciiFold_ascii c h := by simp [h]
  ascii_of_mem_asciiFold c d h := by
    split at h
    · rename_i ascii
      rw [List.mem_singleton.mp h]
      exact ascii
    · simp at h
  asciiFold_space c h d hd := by
    split at hd
    · rw [List.mem_singleton.mp hd]
      have : ∀ n : Fin 128, isSpace (Char.ofNat n) = true →
          ¬ (Char.ofNat n).isAlphanum = true := by
        decide
      rename_i ascii
      have small : c.toNat < 128 := by simpa [isAscii] using ascii
      have := this ⟨c.toNat, small⟩
      simp only [Char.ofNat_toNat] at this
      exact this h
    · simp at hd
  lower_ascii _ _ := rfl
  decimal_ascii _ _ := rfl
  decimal_lt c n h := by
    split at h
    · rename_i digit
      have bound : c.toNat ≤ 57 := by
        simp [Char.isDigit, UInt32.le_iff_toNat_le] at digit
        exact digit.2
      cases Option.some.inj h
      omega
    · cases h
  isDigit_of_decimal c n h := by
    split at h
    · assumption
    · cases h
  not_space_of_decimal c n h := by
    split at h
    · rename_i digit
      simp [Char.isDigit, UInt32.le_iff_toNat_le] at digit
      have low : 48 ≤ c.toNat := digit.1
      have high : c.toNat ≤ 57 := digit.2
      simp [isSpace]
      omega
    · cases h
  isDigit_ascii _ _ := rfl

/-- The database with `str.isalpha` of one character. -/
class UnicodeLetters extends Unicode where
  isAlpha : Char → Bool
  isAlpha_ascii : ∀ c, isAscii c → isAlpha c = c.isAlpha

@[reducible] def UnicodeLetters.ascii : UnicodeLetters :=
  { Unicode.ascii with
    isAlpha := Char.isAlpha
    isAlpha_ascii := fun _ _ => rfl }

/-! Splitting, stripping and joining. -/

/-- `s.split()`. -/
def split (s : Str) : List Str := (s.splitOnP isSpace).filter (· ≠ [])

def strip (s : Str) : Str := ((s.dropWhile isSpace).reverse.dropWhile isSpace).reverse

/-- `sep.join(parts)`. -/
def join (sep : Str) (parts : List Str) : Str := (parts.intersperse sep).flatten

/-- `s.rpartition(sep)` for a one-character separator, without the middle component. -/
def rpartition (sep : Char) (s : Str) : Str × Str :=
  match s.reverse.dropWhile (· ≠ sep) with
  | [] => ([], s)
  | _ :: before => (before.reverse, (s.reverse.takeWhile (· ≠ sep)).reverse)

/-- `s.split(sep)` scanning from the left; `skip` characters of a separator are still to be read. -/
def splitSeqFrom (sep : Str) : Nat → Str → Str → List Str
  | _, piece, [] => [piece.reverse]
  | skip + 1, piece, _ :: cs => splitSeqFrom sep skip piece cs
  | 0, piece, c :: cs =>
    if sep.isPrefixOf (c :: cs) then piece.reverse :: splitSeqFrom sep (sep.length - 1) [] cs
    else splitSeqFrom sep 0 (c :: piece) cs

/-- `s.split(sep)` for a nonempty separator. -/
def splitSeq (sep s : Str) : List Str := splitSeqFrom sep 0 [] s

/-- `s.split(sep, 1)` where `sep` occurs. -/
def partition (sep : Str) : Str → Option (Str × Str)
  | [] => none
  | c :: cs =>
    if sep.isPrefixOf (c :: cs) then some ([], (c :: cs).drop sep.length)
    else (partition sep cs).map fun (before, after) => (c :: before, after)

/-- `sub in s`. -/
def contains (sub s : Str) : Bool := decide (sub <:+: s)

/-! Numbers in text. -/

section Numbers
variable [Unicode]

/-- `\d+`. -/
def isDecimals (s : Str) : Bool := s ≠ [] && s.all fun c => (Unicode.decimal c).isSome

/-- `\d+(?:\.\d+)?`. -/
def isUnsigned (s : Str) : Bool :=
  match s.dropWhile (· ≠ '.') with
  | [] => isDecimals s
  | _ :: fraction => isDecimals (s.takeWhile (· ≠ '.')) && isDecimals fraction

/-- `[+-]\d+(?:\.\d+)?`. -/
def isSigned : Str → Bool
  | sign :: rest => (sign == '+' || sign == '-') && isUnsigned rest
  | [] => false

def decimalsValue (s : Str) : Nat :=
  s.foldl (fun n c => 10 * n + (Unicode.decimal c).getD 0) 0

def unsignedValue (s : Str) : ℚ :=
  match s.dropWhile (· ≠ '.') with
  | [] => decimalsValue s
  | _ :: fraction =>
    decimalsValue (s.takeWhile (· ≠ '.')) + decimalsValue fraction / 10 ^ fraction.length

/-- `float(s)` on text of the two forms above. -/
def floatValue : Str → ℚ
  | '-' :: rest => -unsignedValue rest
  | '+' :: rest => unsignedValue rest
  | s => unsignedValue s

/-! A number holds digits, a point and a sign, so no separator occurs in it. -/

theorem isDecimals_mem {s : Str} (number : isDecimals s) {c : Char} (inside : c ∈ s) :
    (Unicode.decimal c).isSome := by
  simp only [isDecimals, Bool.and_eq_true, List.all_eq_true] at number
  exact number.2 c inside

theorem isUnsigned_mem {s : Str} (number : isUnsigned s) {c : Char} (inside : c ∈ s) :
    c = '.' ∨ (Unicode.decimal c).isSome := by
  have parts : s.takeWhile (· ≠ '.') ++ s.dropWhile (· ≠ '.') = s :=
    List.takeWhile_append_dropWhile
  unfold isUnsigned at number
  split at number
  · exact .inr (isDecimals_mem number inside)
  · rename_i point fraction rest
    have stop : point = '.' := by
      have stops := List.head?_dropWhile_not (fun c : Char => decide (c ≠ '.')) s
      rw [rest] at stops
      simpa using stops
    rw [Bool.and_eq_true] at number
    rw [← parts, rest, List.mem_append, List.mem_cons] at inside
    obtain whole | here | after := inside
    · exact .inr (isDecimals_mem number.1 whole)
    · exact .inl (here.trans stop)
    · exact .inr (isDecimals_mem number.2 after)

theorem isSigned_mem {s : Str} (number : isSigned s) {c : Char} (inside : c ∈ s) :
    c = '+' ∨ c = '-' ∨ c = '.' ∨ (Unicode.decimal c).isSome := by
  cases s with
  | nil => cases inside
  | cons sign rest =>
    simp only [isSigned, Bool.and_eq_true, Bool.or_eq_true, beq_iff_eq] at number
    obtain here | after := List.mem_cons.mp inside
    · subst here
      obtain plus | minus := number.1
      · exact .inl plus
      · exact .inr (.inl minus)
    · exact .inr (.inr (isUnsigned_mem number.2 after))

theorem isSigned_not_space {s : Str} (number : isSigned s) {c : Char} (inside : c ∈ s) :
    isSpace c = false := by
  obtain rfl | rfl | rfl | digit := isSigned_mem number inside
  · rfl
  · rfl
  · rfl
  · obtain ⟨n, value⟩ := Option.isSome_iff_exists.mp digit
    simpa using Unicode.not_space_of_decimal c n value

theorem isSigned_no_blank {s : Str} (number : isSigned s) : ' ' ∉ s := by
  intro inside
  have := isSigned_not_space number inside
  cases this

theorem isSigned_no_bracket {s : Str} (number : isSigned s) : ')' ∉ s := by
  intro inside
  obtain h | h | h | digit := isSigned_mem number inside
  · cases h
  · cases h
  · cases h
  · rw [Unicode.decimal_ascii _ (by decide)] at digit
    cases digit

theorem isUnsigned_ends {s : Str} (number : isUnsigned s) :
    ∃ front last, s = front ++ [last] ∧ (Unicode.decimal last).isSome := by
  have digits (t : Str) (number : isDecimals t) :
      ∃ front last, t = front ++ [last] ∧ (Unicode.decimal last).isSome := by
    have nonempty : t ≠ [] := by
      rintro rfl
      cases number
    obtain ⟨front, last, shape⟩ := (List.eq_nil_or_concat t).resolve_left nonempty
    rw [List.concat_eq_append] at shape
    exact ⟨front, last, shape, isDecimals_mem number (by simp [shape])⟩
  have parts : s.takeWhile (· ≠ '.') ++ s.dropWhile (· ≠ '.') = s :=
    List.takeWhile_append_dropWhile
  unfold isUnsigned at number
  split at number
  · exact digits s number
  · rename_i point fraction rest
    rw [Bool.and_eq_true] at number
    obtain ⟨front, last, shape, digit⟩ := digits fraction number.2
    rw [rest, shape] at parts
    refine ⟨s.takeWhile (· ≠ '.') ++ point :: front, last, ?_, digit⟩
    rw [List.append_assoc, List.cons_append]
    exact parts.symm

theorem isSigned_ends {s : Str} (number : isSigned s) :
    ∃ front last, s = front ++ [last] ∧ (Unicode.decimal last).isSome := by
  cases s with
  | nil => cases number
  | cons sign rest =>
    simp only [isSigned, Bool.and_eq_true] at number
    obtain ⟨front, last, shape, digit⟩ := isUnsigned_ends number.2
    exact ⟨sign :: front, last, by simp [shape], digit⟩

theorem isUnsigned_not_signed {s : Str} (number : isUnsigned s) : isSigned s = false := by
  cases s with
  | nil => rfl
  | cons c rest =>
    have first : isDecimals ((c :: rest).takeWhile (· ≠ '.')) := by
      unfold isUnsigned at number
      split at number
      · rename_i whole
        have all := List.dropWhile_eq_nil_iff.mp whole
        rw [List.takeWhile_eq_self_iff.mpr all]
        exact number
      · rw [Bool.and_eq_true] at number
        exact number.1
    have starts : c ≠ '.' := by
      rintro rfl
      cases first
    have digit : (Unicode.decimal c).isSome := isDecimals_mem first (by simp [starts])
    have noPlus : c ≠ '+' := by
      rintro rfl
      rw [Unicode.decimal_ascii _ (by decide)] at digit
      cases digit
    have noMinus : c ≠ '-' := by
      rintro rfl
      rw [Unicode.decimal_ascii _ (by decide)] at digit
      cases digit
    simp [isSigned, noPlus, noMinus]

theorem isUnsigned_not_space {s : Str} (number : isUnsigned s) {c : Char} (inside : c ∈ s) :
    isSpace c = false := by
  obtain rfl | digit := isUnsigned_mem number inside
  · rfl
  · obtain ⟨n, value⟩ := Option.isSome_iff_exists.mp digit
    simpa using Unicode.not_space_of_decimal c n value

theorem isSigned_ne_nil {s : Str} (number : isSigned s) : s ≠ [] := by
  rintro rfl
  cases number

end Numbers

theorem rpartition_eq {sep : Char} {s before after : Str}
    (parts : rpartition sep s = (before, after)) (found : before ≠ []) :
      s = before ++ sep :: after := by
  have whole : s.reverse.takeWhile (· ≠ sep) ++ s.reverse.dropWhile (· ≠ sep) = s.reverse :=
    List.takeWhile_append_dropWhile
  unfold rpartition at parts
  split at parts
  · cases parts
    exact absurd rfl found
  · rename_i c rest shape
    have stops := List.head?_dropWhile_not (fun c : Char => decide (c ≠ sep)) s.reverse
    rw [shape] at stops
    have stop : c = sep := by simpa using stops
    cases parts
    rw [shape, stop] at whole
    have := congrArg List.reverse whole
    simpa using this.symm

theorem rpartition_append (sep : Char) (before after : Str) (last : sep ∉ after) :
    rpartition sep (before ++ sep :: after) = (before, after) := by
  have clear : ∀ c ∈ after.reverse, (c ≠ sep : Bool) = true := by
    intro c inside
    simpa using fun same : c = sep => last (same ▸ List.mem_reverse.mp inside)
  have text : (before ++ sep :: after).reverse = after.reverse ++ sep :: before.reverse := by simp
  simp only [rpartition, text, List.dropWhile_append_of_pos clear,
    List.takeWhile_append_of_pos clear]
  simp

end Python
