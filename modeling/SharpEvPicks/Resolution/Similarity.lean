import Mathlib.Data.Rat.Defs
import Mathlib.Data.List.Sort
import Mathlib.Data.List.Lex
import Mathlib.Data.Char
import Mathlib.Data.List.Count
import Mathlib.Algebra.Order.Ring.Rat
import SharpEvPicks.Python.Str

/-! The string similarities of `app/resolution/matching.py`, and the part of
`difflib.SequenceMatcher` below them. The arithmetic is exact. -/
namespace SharpEvPicks.Resolution

open Python

/-! Jaro. The flag of a character says that it has found its partner. -/

abbrev Flagged := List (Char × Bool)

/-- The first free `j` with `start ≤ j < stop` where the text holds `c`. -/
def freePartner (c : Char) (s2 : Flagged) (start stop : Nat) : Option Nat :=
  (List.range' start (stop - start)).find? fun j => s2[j]? = some (c, false)

def matchFrom (distance : Nat) : Nat → Str → Flagged → Flagged × Flagged
  | _, [], s2 => ([], s2)
  | i, c :: s1, s2 =>
    match freePartner c s2 (i - distance) (min (i + distance + 1) s2.length) with
    | none =>
      let (flagged, s2') := matchFrom distance (i + 1) s1 s2
      ((c, false) :: flagged, s2')
    | some j =>
      let (flagged, s2') := matchFrom distance (i + 1) s1 (s2.set j (c, true))
      ((c, true) :: flagged, s2')

def matched (s : Flagged) : Nat := s.countP (·.2)

/-- `while not s2_matches[k]: k += 1`, or nothing when `k` runs off the end. -/
def nextMatched : Flagged → Option (Char × Flagged)
  | [] => none
  | (c, true) :: rest => some (c, rest)
  | (_, false) :: rest => nextMatched rest

def outOfOrder : Flagged → Flagged → Option Nat
  | [], _ => some 0
  | (_, false) :: s1, s2 => outOfOrder s1 s2
  | (c, true) :: s1, s2 => do
    let (d, rest) ← nextMatched s2
    let n ← outOfOrder s1 rest
    return if c ≠ d then n + 1 else n

def jaro (s1 s2 : Str) : ℚ :=
  if s1 = s2 then 1
  else if s1 = [] ∨ s2 = [] then 0
  else
    let distance := max s1.length s2.length / 2 - 1
    let (flagged1, flagged2) := matchFrom distance 0 s1 (s2.map fun c => (c, false))
    let m : ℚ := matched flagged1
    if m = 0 then 0
    else
      let t : ℚ := ((outOfOrder flagged1 flagged2).getD 0 : Nat) / 2
      (m / s1.length + m / s2.length + (m - t) / m) / 3

def commonPrefix : Str → Str → Nat
  | c :: s1, d :: s2 => if c = d then commonPrefix s1 s2 + 1 else 0
  | _, _ => 0

def jaroWinkler (s1 s2 : Str) : ℚ :=
  let j := jaro s1 s2
  j + (min (commonPrefix s1 s2) 4 : Nat) * (1 / 10) * (1 - j)

/-! The scan for transpositions cannot leave the second string: every match
flags one character on each side. -/

theorem freePartner_free {c : Char} {s2 : Flagged} {start stop j : Nat}
    (found : freePartner c s2 start stop = some j) : s2[j]? = some (c, false) := by
  have := List.find?_some found
  simpa using this

theorem matchFrom_matched (distance i : Nat) (s1 : Str) (s2 : Flagged) :
    matched (matchFrom distance i s1 s2).2 = matched
      (matchFrom distance i s1 s2).1 + matched s2 := by
  induction s1 generalizing i s2 with
  | nil => simp [matchFrom, matched]
  | cons c s1 ih =>
    cases partner : freePartner c s2 (i - distance) (min (i + distance + 1) s2.length) with
    | none =>
      simp only [matchFrom, partner, ih]
      simp [matched]
    | some j =>
      obtain ⟨inside, free⟩ := List.getElem?_eq_some_iff.mp (freePartner_free partner)
      have flagged : matched (s2.set j (c, true)) = matched s2 + 1 := by
        simp [matched, List.countP_set inside, free]
      simp only [matchFrom, partner, ih, flagged]
      simp only [matched, List.countP_cons, if_true]
      omega

theorem nextMatched_some {s : Flagged} (some : 0 < matched s) :
    ∃ c rest, nextMatched s = .some (c, rest) ∧ matched s = matched rest + 1 := by
  induction s with
  | nil => cases some
  | cons x s ih =>
    obtain ⟨c, flag⟩ := x
    cases flag with
    | true => exact ⟨c, s, rfl, by simp [matched]⟩
    | false =>
      have same : matched ((c, false) :: s) = matched s := by simp [matched]
      rw [same] at some ⊢
      exact ih some

theorem outOfOrder_isSome (s1 s2 : Flagged) (enough : matched s1 ≤ matched s2) :
    (outOfOrder s1 s2).isSome := by
  induction s1 generalizing s2 with
  | nil => rfl
  | cons x s1 ih =>
    obtain ⟨c, flag⟩ := x
    cases flag with
    | false => exact ih s2 (by simpa [matched] using enough)
    | true =>
      have step : matched ((c, true) :: s1) = matched s1 + 1 := by simp [matched]
      rw [step] at enough
      obtain ⟨d, rest, next, left⟩ :=
        nextMatched_some (Nat.lt_of_lt_of_le (Nat.succ_pos _) enough)
      obtain ⟨n, found⟩ := Option.isSome_iff_exists.mp (ih rest (by omega))
      simp [outOfOrder, next, found]

theorem jaro_scan_isSome (distance : Nat) (s1 s2 : Str) :
    let flagged := matchFrom distance 0 s1 (s2.map fun c => (c, false))
    (outOfOrder flagged.1 flagged.2).isSome := by
  have balance := matchFrom_matched distance 0 s1 (s2.map fun c => (c, false))
  exact outOfOrder_isSome _ _ (by omega)

@[simp] theorem jaro_self (s : Str) : jaro s s = 1 := by simp [jaro]

/-! `SequenceMatcher.ratio`, without junk. -/

/-- The characters of the second text that the index skips: long texts drop what is frequent. -/
def popular (b : Str) (c : Char) : Bool :=
  200 ≤ b.length && b.length / 100 + 1 < b.count c

/-- The indexed run of equal characters that ends the two texts, given reversed. -/
def runEnding (skip : Char → Bool) : Str → Str → Nat
  | c :: a, d :: b => if c = d && !skip c then runEnding skip a b + 1 else 0
  | _, _ => 0

/-- A block is where it begins in either text and how long it is. -/
abbrev Block := Nat × Nat × Nat

def longestRun (skip : Char → Bool) (a b : Str) : Block :=
  let ends := (List.range a.length).flatMap fun i => (List.range b.length).map fun j => (i, j)
  ends.foldl (fun best (i, j) =>
    let k := runEnding skip (a.take (i + 1)).reverse (b.take (j + 1)).reverse
    if best.2.2 < k then (i + 1 - k, j + 1 - k, k) else best) (0, 0, 0)

/-- `find_longest_match`: the longest indexed run, extended over equal characters either way. -/
def findLongestMatch (skip : Char → Bool) (a b : Str) : Block :=
  let (i, j, k) := longestRun skip a b
  let back := commonPrefix (a.take i).reverse (b.take j).reverse
  let ahead := commonPrefix (a.drop (i + k)) (b.drop (j + k))
  (i - back, j - back, back + k + ahead)

/-- The total size of the matching blocks. Every block shortens the first text
on both of its sides, so its length is fuel enough. -/
def matchedSize (skip : Char → Bool) : Nat → Str → Str → Nat
  | 0, _, _ => 0
  | fuel + 1, a, b =>
    let (i, j, k) := findLongestMatch skip a b
    if k = 0 then 0
    else k + matchedSize skip fuel (a.take i) (b.take j) +
      matchedSize skip fuel (a.drop (i + k)) (b.drop (j + k))

def ratio (s1 s2 : Str) : ℚ :=
  if s1 = [] ∧ s2 = [] then 100
  else if s1 = [] ∨ s2 = [] then 0
  else 2 * matchedSize (popular s2) s1.length s1 s2 / (s1.length + s2.length) * 100

def sortTokens (s : Str) : Str := join [' '] ((split s).insertionSort (· ≤ ·))

def tokenSortRatio (s1 s2 : Str) : ℚ := ratio (sortTokens s1) (sortTokens s2)

end SharpEvPicks.Resolution
