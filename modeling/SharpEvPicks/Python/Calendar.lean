import SharpEvPicks.Python.Format

/-! The calendar of `datetime`: dates as ordinals, and the text of an instant in UTC. -/
namespace Python

def isLeap (y : Nat) : Bool := y % 4 = 0 && (y % 100 ≠ 0 || y % 400 = 0)

def monthLengths (leap : Bool) : List Nat :=
  [31, if leap then 29 else 28, 31, 30, 31, 30, 31, 31, 30, 31, 30, 31]

/-- Days from the first of January of the year 1 to that of the year `y`. -/
def daysBeforeYear (y : Nat) : Nat := (y - 1) * 365 + (y - 1) / 4 - (y - 1) / 100 + (y - 1) / 400

structure Date where
  year : Nat
  month : Nat
  day : Nat

def Date.lengths (d : Date) : List Nat := monthLengths (isLeap d.year)

structure Date.Valid (d : Date) : Prop where
  year : 1 ≤ d.year ∧ d.year ≤ 9999
  month : 1 ≤ d.month ∧ d.month ≤ 12
  day : 1 ≤ d.day ∧ d.day ≤ d.lengths.getD (d.month - 1) 0

def Date.toordinal (d : Date) : Nat :=
  daysBeforeYear d.year + (d.lengths.take (d.month - 1)).sum + d.day

/-- The part of a length that an offset falls in, and the offset within the part. -/
def place : List Nat → Nat → Nat × Nat
  | [], r => (0, r)
  | n :: rest, r =>
    if r < n then (0, r) else ((place rest (r - n)).1 + 1, (place rest (r - n)).2)

theorem place_spec {lengths : List Nat} {r : Nat} (inside : r < lengths.sum) :
    (place lengths r).1 < lengths.length ∧
    (lengths.take (place lengths r).1).sum + (place lengths r).2 = r ∧
      (place lengths r).2 < lengths.getD (place lengths r).1 0 := by
  induction lengths generalizing r with
  | nil => exact absurd inside (Nat.not_lt_zero r)
  | cons n rest ih =>
    unfold place
    rw [List.sum_cons] at inside
    split
    · rename_i first
      exact ⟨Nat.succ_pos _, Nat.zero_add r, first⟩
    · rename_i later
      obtain ⟨index, sum, offset⟩ := ih (by omega : r - n < rest.sum)
      refine ⟨Nat.succ_lt_succ index, ?_, offset⟩
      rw [List.take_succ_cons, List.sum_cons]
      omega

/-- The year of the day `n` days after the first of January of the year 1, and the days before it in
the year. -/
def yearAndDay (n : Nat) : Nat × Nat :=
  let n400 := n / 146097
  let n100 := n % 146097 / 36524
  let n4 := n % 146097 % 36524 / 1461
  let n1 := n % 146097 % 36524 % 1461 / 365
  let year := n400 * 400 + n100 * 100 + n4 * 4 + n1 + 1
  if n1 = 4 ∨ n100 = 4 then (year - 1, 365) else (year, n % 146097 % 36524 % 1461 % 365)

theorem sum_monthLengths (leap : Bool) : (monthLengths leap).sum = if leap then 366 else 365 := by
  cases leap <;> rfl

theorem daysBeforeYear_parts {n400 n100 n4 n1 : Nat} (few : n100 ≤ 3) (few' : n4 ≤ 24)
    (few'' : n1 ≤ 3) :
    daysBeforeYear (n400 * 400 + n100 * 100 + n4 * 4 + n1 + 1) =
      n400 * 146097 + n100 * 36524 + n4 * 1461 + n1 * 365 := by
  have fourths : (n400 * 400 + n100 * 100 + n4 * 4 + n1) / 4 = n400 * 100 + n100 * 25 + n4 := by
    omega
  have hundredths : (n400 * 400 + n100 * 100 + n4 * 4 + n1) / 100 = n400 * 4 + n100 := by omega
  have cycles : (n400 * 400 + n100 * 100 + n4 * 4 + n1) / 400 = n400 := by omega
  rw [daysBeforeYear, Nat.add_sub_cancel, fourths, hundredths, cycles]
  omega

theorem yearAndDay_spec (n : Nat) :
    1 ≤ (yearAndDay n).1 ∧ daysBeforeYear (yearAndDay n).1 + (yearAndDay n).2 = n ∧
    (yearAndDay n).2 < (monthLengths (isLeap (yearAndDay n).1)).sum := by
  obtain ⟨n400, hn400⟩ : ∃ q, q = n / 146097 := ⟨_, rfl⟩
  obtain ⟨n100, hn100⟩ : ∃ q, q = n % 146097 / 36524 := ⟨_, rfl⟩
  obtain ⟨n4, hn4⟩ : ∃ q, q = n % 146097 % 36524 / 1461 := ⟨_, rfl⟩
  obtain ⟨n1, hn1⟩ : ∃ q, q = n % 146097 % 36524 % 1461 / 365 := ⟨_, rfl⟩
  rw [sum_monthLengths]
  simp only [yearAndDay, ← hn400, ← hn100, ← hn4, ← hn1, Nat.add_sub_cancel]
  -- the last day of a leap year is left over by its four years, or by its four centuries
  by_cases last : n1 = 4 ∨ n100 = 4
  · rw [if_pos last]
    dsimp only
    obtain rfl | rfl := last
    · have leap : isLeap (n400 * 400 + n100 * 100 + n4 * 4 + 4) = true := by
        simp only [isLeap, Bool.and_eq_true, Bool.or_eq_true, decide_eq_true_iff]
        omega
      have before := @daysBeforeYear_parts n400 n100 n4 3 (by omega) (by omega) le_rfl
      rw [leap, if_pos rfl]
      refine ⟨by omega, ?_, by decide⟩
      rw [before]
      omega
    · have total : n400 * 146097 + 3 * 36524 + 24 * 1461 + 3 * 365 + 365 = n := by omega
      obtain ⟨rfl, rfl⟩ : n4 = 0 ∧ n1 = 0 := by omega
      have leap : isLeap (n400 * 400 + 4 * 100 + 0 * 4 + 0) = true := by
        simp only [isLeap, Bool.and_eq_true, Bool.or_eq_true, decide_eq_true_iff]
        omega
      have same : n400 * 400 + 4 * 100 + 0 * 4 + 0 = n400 * 400 + 3 * 100 + 24 * 4 + 3 + 1 := rfl
      rw [leap, if_pos rfl]
      refine ⟨by omega, ?_, by decide⟩
      rw [same, daysBeforeYear_parts le_rfl le_rfl le_rfl]
      exact total
  · rw [if_neg last]
    dsimp only
    have before := @daysBeforeYear_parts n400 n100 n4 n1 (by omega) (by omega) (by omega)
    refine ⟨by omega, ?_, ?_⟩
    · rw [before]
      omega
    · split <;> omega

def fromordinal (n : Nat) : Date :=
  let (year, r) := yearAndDay (n - 1)
  let (month, day) := place (monthLengths (isLeap year)) r
  ⟨year, month + 1, day + 1⟩

theorem toordinal_fromordinal {n : Nat} (pos : 1 ≤ n) : (fromordinal n).toordinal = n := by
  obtain ⟨-, whole, inside⟩ := yearAndDay_spec (n - 1)
  obtain ⟨-, parts, -⟩ := place_spec inside
  simp only [fromordinal, Date.toordinal, Date.lengths, Nat.add_sub_cancel]
  omega

theorem fromordinal_valid {n : Nat} (pos : 1 ≤ n) (small : n ≤ 3652059) :
    (fromordinal n).Valid := by
  obtain ⟨year, whole, inside⟩ := yearAndDay_spec (n - 1)
  obtain ⟨month, -, day⟩ := place_spec inside
  refine ⟨⟨year, ?_⟩, ⟨Nat.succ_pos _, month⟩, ⟨Nat.succ_pos _, day⟩⟩
  change (yearAndDay (n - 1)).1 ≤ 9999
  by_contra late
  unfold daysBeforeYear at whole
  omega

/-- The fields of a `datetime` in UTC. -/
structure Moment where
  date : Date
  hour : Nat
  minute : Nat
  second : Nat
  microsecond : Nat

structure Moment.Valid (m : Moment) : Prop where
  date : m.date.Valid
  hour : m.hour < 24
  minute : m.minute < 60
  second : m.second < 60
  microsecond : m.microsecond < 1000000

/-- The ordinal of the day before 1970. -/
def epochOrdinal : Int := 719162

/-- Microseconds since 1970. -/
def Moment.instant (m : Moment) : Int :=
  (m.date.toordinal - 1 - epochOrdinal) * 86400000000 + m.hour * 3600000000 + m.minute * 60000000 +
    m.second * 1000000 + m.microsecond

def momentOf (t : Int) : Moment :=
  let u := (t + epochOrdinal * 86400000000).toNat
  ⟨fromordinal (u / 86400000000 + 1), u / 3600000000 % 24, u / 60000000 % 60, u / 1000000 % 60,
    u % 1000000⟩

/-- `datetime.min` and `datetime.max` in UTC. -/
def InCalendar (t : Int) : Prop := -62135596800000000 ≤ t ∧ t ≤ 253402300799999999

theorem momentOf_valid {t : Int} (inside : InCalendar t) : (momentOf t).Valid := by
  obtain ⟨low, high⟩ := inside
  have small : (t + epochOrdinal * 86400000000).toNat / 86400000000 + 1 ≤ 3652059 := by
    unfold epochOrdinal
    omega
  exact ⟨fromordinal_valid (Nat.succ_pos _) small, Nat.mod_lt _ (by decide),
    Nat.mod_lt _ (by decide), Nat.mod_lt _ (by decide), Nat.mod_lt _ (by decide)⟩

theorem instant_momentOf {t : Int} (low : -62135596800000000 ≤ t) : (momentOf t).instant = t := by
  unfold Moment.instant momentOf epochOrdinal
  dsimp only
  rw [toordinal_fromordinal (Nat.succ_pos _)]
  omega

/-- A number in `width` digits. -/
def padded (width n : Nat) : Str := List.replicate (width - (natText n).length) '0' ++ natText n

def Moment.isoformat (m : Moment) : Str :=
  padded 4 m.date.year ++ '-' :: padded 2 m.date.month ++ '-' :: padded 2 m.date.day ++
    'T' :: padded 2 m.hour ++ ':' :: padded 2 m.minute ++ ':' :: padded 2 m.second ++
    (if m.microsecond = 0 then [] else '.' :: padded 6 m.microsecond) ++ "+00:00".toList

/-- `t.isoformat()` of an instant in UTC. -/
def isoformat (t : Int) : Str := (momentOf t).isoformat

example : isoformat 1735689600250000 = "2025-01-01T00:00:00.250000+00:00".toList := by
  decide +kernel

end Python
