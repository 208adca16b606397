import SharpEvPicks.Python.Str

/-! Byte strings. -/
namespace Python

abbrev Bytes := List UInt8

/-- The bytes of an ASCII text. -/
def asciiBytes (s : Str) : Bytes := s.map fun c => c.toNat.toUInt8

/-- `s.encode("utf-8")` of a text without surrogates. -/
def utf8 (s : Str) : Bytes := s.flatMap String.utf8EncodeChar

/-- `b.decode()`; `none` is a `UnicodeDecodeError`. -/
def utf8Decode (b : Bytes) : Option Str := b.toByteArray.utf8Decode?.map Array.toList

theorem utf8Decode_utf8 (s : Str) : utf8Decode (utf8 s) = some s := by
  have decoded : (utf8 s).toByteArray.utf8Decode? = some s.toArray := List.utf8Decode?_utf8Encode
  rw [utf8Decode, decoded]
  rfl

@[simp] theorem utf8_append (s t : Str) : utf8 (s ++ t) = utf8 s ++ utf8 t := List.flatMap_append

theorem length_utf8_cons (c : Char) (s : Str) :
    (utf8 (c :: s)).length = c.utf8Size + (utf8 s).length := by
  rw [utf8, List.flatMap_cons, List.length_append, String.length_utf8EncodeChar]
  rfl

/-- On ASCII text a byte is a character. -/
theorem length_utf8_ascii {s : Str} (ascii : ∀ c ∈ s, isAscii c) :
    (utf8 s).length = s.length := by
  induction s with
  | nil => rfl
  | cons c s ih =>
    have one : c.utf8Size = 1 := by
      have small : c.toNat < 128 := of_decide_eq_true (ascii c List.mem_cons_self)
      exact if_pos (Nat.le_of_lt_succ small)
    rw [length_utf8_cons, one, ih fun d inside => ascii d (List.mem_cons_of_mem _ inside),
      List.length_cons, Nat.add_comm]

namespace Bytes

def isSpace (b : UInt8) : Bool := b = 32 || (9 ≤ b && b ≤ 13)

def strip (s : Bytes) : Bytes := ((s.dropWhile isSpace).reverse.dropWhile isSpace).reverse

def lower (s : Bytes) : Bytes := s.map fun b => if 65 ≤ b && b ≤ 90 then b + 32 else b

def isDigit (s : Bytes) : Bool := s ≠ [] && s.all fun b => 48 ≤ b && b ≤ 57

def digitsValue (s : Bytes) : Nat := s.foldl (fun n b => 10 * n + (b.toNat - 48)) 0

def maxStrDigits : Nat := 4300

/-- `int(s)` of digits; `ValueError` on too many. -/
def intOfDigits (s : Bytes) : Option Nat :=
  if maxStrDigits < s.length then none else some (digitsValue s)

end Bytes

end Python
