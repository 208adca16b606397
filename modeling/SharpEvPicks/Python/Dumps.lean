import SharpEvPicks.Python.Bytes
import SharpEvPicks.Python.Format

/-! The texts of `json.dumps` with `ensure_ascii=False`. -/
namespace Python

def hexDigit (n : Nat) : Char := "0123456789abcdef".toList.getD n '0'

/-- A character of a string: the quote, the backslash and what is below the blank are escaped. -/
def jsonEscape (c : Char) : Str :=
  if c = '\\' then ['\\', '\\']
  else if c = '"' then ['\\', '"']
  else if c = '\n' then ['\\', 'n']
  else if c = '\r' then ['\\', 'r']
  else if c = '\t' then ['\\', 't']
  else if c.toNat = 8 then ['\\', 'b']
  else if c.toNat = 12 then ['\\', 'f']
  else if c.toNat < 32 then ['\\', 'u', '0', '0', hexDigit (c.toNat / 16), hexDigit (c.toNat % 16)]
  else [c]

def jsonStr (s : Str) : Str := '"' :: s.flatMap jsonEscape ++ ['"']

def jsonInt (n : Int) : Str := if n < 0 then '-' :: natText n.natAbs else natText n.natAbs

theorem length_jsonEscape (c : Char) : (utf8 (jsonEscape c)).length ≤ 6 * c.utf8Size := by
  have one : 1 ≤ c.utf8Size := c.utf8Size_pos
  have ascii : ∀ n : Fin 16, (hexDigit n).utf8Size = 1 := by decide
  unfold jsonEscape
  split
  · exact le_trans (by decide) (Nat.mul_le_mul_left 6 one)
  split
  · exact le_trans (by decide) (Nat.mul_le_mul_left 6 one)
  split
  · exact le_trans (by decide) (Nat.mul_le_mul_left 6 one)
  split
  · exact le_trans (by decide) (Nat.mul_le_mul_left 6 one)
  split
  · exact le_trans (by decide) (Nat.mul_le_mul_left 6 one)
  split
  · exact le_trans (by decide) (Nat.mul_le_mul_left 6 one)
  split
  · exact le_trans (by decide) (Nat.mul_le_mul_left 6 one)
  split
  · rename_i low
    have high := ascii ⟨c.toNat / 16, by omega⟩
    have rest := ascii ⟨c.toNat % 16, by omega⟩
    dsimp only at high rest
    have fixed : (utf8 ['\\', 'u', '0', '0']).length = 4 := by decide
    have parts : utf8 ['\\', 'u', '0', '0', hexDigit (c.toNat / 16), hexDigit (c.toNat % 16)] =
        utf8 ['\\', 'u', '0', '0'] ++ utf8 [hexDigit (c.toNat / 16), hexDigit (c.toNat % 16)] :=
      utf8_append ['\\', 'u', '0', '0'] _
    rw [parts, List.length_append, fixed, length_utf8_cons, length_utf8_cons, high, rest]
    exact Nat.mul_le_mul_left 6 one
  · rw [length_utf8_cons]
    exact Nat.le_mul_of_pos_left _ (by decide)

/-- Escaping makes at most six bytes of one. -/
theorem length_jsonStr (s : Str) : (utf8 (jsonStr s)).length ≤ 6 * (utf8 s).length + 2 := by
  have body : (utf8 (s.flatMap jsonEscape)).length ≤ 6 * (utf8 s).length := by
    induction s with
    | nil => exact le_rfl
    | cons c s ih =>
      have escaped := length_jsonEscape c
      rw [List.flatMap_cons, utf8_append, List.length_append, length_utf8_cons]
      omega
  have quote : (utf8 ['"']).length = 1 := by decide
  have parts : utf8 (jsonStr s) = utf8 ['"'] ++ utf8 (s.flatMap jsonEscape) ++ utf8 ['"'] := by
    rw [← utf8_append, ← utf8_append]
    rfl
  rw [parts, List.length_append, List.length_append, quote]
  omega

theorem length_jsonInt {n : Int} (nonneg : 0 ≤ n) {k : Nat} (some_ : 0 < k) (small : n < 10 ^ k) :
    (utf8 (jsonInt n)).length ≤ k := by
  have digits : ∀ c ∈ natText n.natAbs, isAscii c := by
    intro c inside
    have digit := Nat.isDigit_of_mem_toDigits (by decide) (by decide) inside
    rw [Char.isDigit, Bool.and_eq_true, decide_eq_true_iff, decide_eq_true_iff] at digit
    have bound : c.toNat ≤ 57 := digit.2
    exact decide_eq_true (by omega)
  rw [jsonInt, if_neg (not_lt.mpr nonneg), length_utf8_ascii digits]
  exact (Nat.length_toDigits_le_iff (by decide) some_).mpr (by zify; rwa [abs_of_nonneg nonneg])

end Python
