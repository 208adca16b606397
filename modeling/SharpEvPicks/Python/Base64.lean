import Mathlib.Data.List.Basic
import SharpEvPicks.Python.Bytes

/-! `base64.urlsafe_b64encode` and `urlsafe_b64decode`. The decoder is `binascii.a2b_base64` outside
its strict mode, which skips what is not of the alphabet. -/
namespace Python.Base64

open Python

def alphabet : Str := "ABCDEFGHIJKLMNOPQRSTUVWXYZabcdefghijklmnopqrstuvwxyz0123456789-_".toList

/-- The character of a value below 64. -/
def charOf (n : Nat) : Char := alphabet.getD n 'A'

/-- The value of a character, in the URL-safe or the standard alphabet. -/
def valueOf (c : Char) : Option Nat :=
  if 'A' ≤ c ∧ c ≤ 'Z' then some (c.toNat - 65)
  else if 'a' ≤ c ∧ c ≤ 'z' then some (c.toNat - 71)
  else if '0' ≤ c ∧ c ≤ '9' then some (c.toNat + 4)
  else if c = '-' ∨ c = '+' then some 62
  else if c = '_' ∨ c = '/' then some 63
  else none

def first (a : UInt8) : Char := charOf (a.toNat / 4)

def second (a b : UInt8) : Char := charOf (a.toNat % 4 * 16 + b.toNat / 16)

def third (b c : UInt8) : Char := charOf (b.toNat % 16 * 4 + c.toNat / 64)

def fourth (c : UInt8) : Char := charOf (c.toNat % 64)

def encode : Bytes → Str
  | [] => []
  | [a] => [first a, second a 0, '=', '=']
  | [a, b] => [first a, second a b, third b 0, '=']
  | a :: b :: c :: rest => first a :: second a b :: third b c :: fourth c :: encode rest

/-- The loop of `a2b_base64`: the place in the current four characters, the bits left over and the
padding met since the last character of the alphabet. -/
def decodeFrom (place left pads : Nat) : Str → Option Bytes
  | [] => if place = 0 then some [] else none
  | c :: s =>
    if c = '=' then
      if 2 ≤ place ∧ 4 ≤ place + (pads + 1) then some []
      else decodeFrom place left (if 2 ≤ place then pads + 1 else pads) s
    else
      match valueOf c with
      | none => decodeFrom place left pads s
      | some v =>
        match place with
        | 0 => decodeFrom 1 v 0 s
        | 1 => (decodeFrom 2 (v % 16) 0 s).map ((left * 4 + v / 16).toUInt8 :: ·)
        | 2 => (decodeFrom 3 (v % 4) 0 s).map ((left * 16 + v / 4).toUInt8 :: ·)
        | _ => (decodeFrom 0 0 0 s).map ((left * 64 + v).toUInt8 :: ·)

def decode (s : Str) : Option Bytes := decodeFrom 0 0 0 s

/-! Reading back. -/

theorem charOf_spec {n : Nat} (small : n < 64) :
    valueOf (charOf n) = some n ∧ charOf n ≠ '=' ∧ charOf n ≠ '.' ∧
    isAscii (charOf n) := by
  have all : ∀ n : Fin 64, valueOf (charOf n) = some n.val ∧ charOf n ≠ '=' ∧
      charOf n ≠ '.' ∧ isAscii (charOf n) := by decide +kernel
  exact all ⟨n, small⟩

theorem bits_lt (a b c : UInt8) : a.toNat / 4 < 64 ∧ a.toNat % 4 * 16 + b.toNat / 16 < 64 ∧
    b.toNat % 16 * 4 + c.toNat / 64 < 64 ∧ c.toNat % 64 < 64 := by
  have := a.toNat_lt
  have := b.toNat_lt
  have := c.toNat_lt
  omega

/-- The four characters of three bytes. -/
theorem bits_join (a b c : UInt8) :
    (a.toNat / 4 * 4 + (a.toNat % 4 * 16 + b.toNat / 16) / 16).toUInt8 = a ∧
    ((a.toNat % 4 * 16 + b.toNat / 16) % 16 * 16 + (b.toNat % 16 * 4 + c.toNat / 64) / 4).toUInt8 =
      b ∧
    ((b.toNat % 16 * 4 + c.toNat / 64) % 4 * 64 + c.toNat % 64).toUInt8 = c := by
  have ha := a.toNat_lt
  have hb := b.toNat_lt
  have hc := c.toNat_lt
  have back {x : UInt8} {n : Nat} (same : n = x.toNat) : n.toUInt8 = x := by
    rw [same]
    exact UInt8.ofNat_toNat
  exact ⟨back (by omega), back (by omega), back (by omega)⟩

section Steps
variable {n left pads : Nat}

theorem decodeFrom_zero (small : n < 64) (s : Str) :
    decodeFrom 0 left pads (charOf n :: s) = decodeFrom 1 n 0 s := by
  obtain ⟨value, solid, -⟩ := charOf_spec small
  rw [decodeFrom, if_neg solid, value]
  rfl

theorem decodeFrom_one (small : n < 64) (s : Str) :
    decodeFrom 1 left pads (charOf n :: s) =
    (decodeFrom 2 (n % 16) 0 s).map ((left * 4 + n / 16).toUInt8 :: ·) := by
  obtain ⟨value, solid, -⟩ := charOf_spec small
  rw [decodeFrom, if_neg solid, value]
  rfl

theorem decodeFrom_two (small : n < 64) (s : Str) :
    decodeFrom 2 left pads (charOf n :: s) =
    (decodeFrom 3 (n % 4) 0 s).map ((left * 16 + n / 4).toUInt8 :: ·) := by
  obtain ⟨value, solid, -⟩ := charOf_spec small
  rw [decodeFrom, if_neg solid, value]
  rfl

theorem decodeFrom_three (small : n < 64) (s : Str) :
    decodeFrom 3 left pads (charOf n :: s) =
    (decodeFrom 0 0 0 s).map ((left * 64 + n).toUInt8 :: ·) := by
  obtain ⟨value, solid, -⟩ := charOf_spec small
  rw [decodeFrom, if_neg solid, value]
  rfl

end Steps

theorem decode_encode (raw : Bytes) : decode (encode raw) = some raw := by
  unfold decode
  induction raw using encode.induct with
  | case1 => rfl
  | case2 a =>
    obtain ⟨one, two, -⟩ := bits_lt a 0 0
    obtain ⟨join, -⟩ := bits_join a 0 0
    rw [encode, first, second, decodeFrom_zero one, decodeFrom_one two, join]
    rfl
  | case3 a b =>
    obtain ⟨one, two, three, -⟩ := bits_lt a b 0
    obtain ⟨join, join', -⟩ := bits_join a b 0
    rw [encode, first, second, third, decodeFrom_zero one, decodeFrom_one two, decodeFrom_two three,
      join, join']
    rfl
  | case4 a b c rest ih =>
    obtain ⟨one, two, three, four⟩ := bits_lt a b c
    obtain ⟨join, join', join''⟩ := bits_join a b c
    rw [encode, first, second, third, fourth, decodeFrom_zero one, decodeFrom_one two,
      decodeFrom_two three, decodeFrom_three four, join, join', join'', ih]
    rfl

/-! Without the padding. -/

def stripped (s : Str) : Str := (s.reverse.dropWhile (· = '=')).reverse

/-- A character that the encoder writes. -/
structure Plain (c : Char) : Prop where
  solid : c ≠ '='
  undotted : c ≠ '.'
  ascii : isAscii c

theorem charOf_plain {n : Nat} (small : n < 64) : Plain (charOf n) := by
  obtain ⟨-, solid, undotted, ascii⟩ := charOf_spec small
  exact ⟨solid, undotted, ascii⟩

/-- The text in front of the padding. -/
theorem encode_padded (raw : Bytes) :
    ∃ text pads, encode raw = text ++ List.replicate pads '=' ∧
    (∀ c ∈ text, Plain c) ∧ pads = (4 - text.length % 4) % 4 ∧
      text.length ≤ (4 * raw.length + 2) / 3 := by
  induction raw using encode.induct with
  | case1 => exact ⟨[], 0, rfl, by simp, rfl, by simp⟩
  | case2 a =>
    obtain ⟨one, two, -⟩ := bits_lt a 0 0
    refine ⟨[first a, second a 0], 2, rfl, ?_, rfl, by simp⟩
    simp only [List.forall_mem_cons]
    exact ⟨charOf_plain one, charOf_plain two, by simp⟩
  | case3 a b =>
    obtain ⟨one, two, three, -⟩ := bits_lt a b 0
    refine ⟨[first a, second a b, third b 0], 1, rfl, ?_, rfl, by simp⟩
    simp only [List.forall_mem_cons]
    exact ⟨charOf_plain one, charOf_plain two, charOf_plain three, by simp⟩
  | case4 a b c rest ih =>
    obtain ⟨one, two, three, four⟩ := bits_lt a b c
    obtain ⟨text, pads, padded, plain, count, short⟩ := ih
    refine ⟨first a :: second a b :: third b c :: fourth c :: text, pads, ?_, ?_, ?_, ?_⟩
    · rw [encode, padded]
      rfl
    · simp only [List.forall_mem_cons]
      exact ⟨charOf_plain one, charOf_plain two, charOf_plain three, charOf_plain four, plain⟩
    · simp only [List.length_cons]
      omega
    · simp only [List.length_cons]
      omega

theorem stripped_padded {text : Str} (pads : Nat) (solid : ∀ c ∈ text, c ≠ '=') :
    stripped (text ++ List.replicate pads '=') = text := by
  have pad : ∀ c ∈ List.replicate pads '=', (c = '=' : Bool) = true := by
    intro c inside
    rw [List.eq_of_mem_replicate inside]
    decide
  unfold stripped
  rw [List.reverse_append, List.reverse_replicate, List.dropWhile_append_of_pos pad]
  cases last : text.reverse with
  | nil =>
    rw [List.reverse_eq_nil_iff.mp last]
    rfl
  | cons c rest =>
    have inside : c ∈ text := List.mem_reverse.mp (last ▸ List.mem_cons_self)
    rw [List.dropWhile_cons_of_neg (by simpa using solid c inside), ← last, List.reverse_reverse]

end Python.Base64
