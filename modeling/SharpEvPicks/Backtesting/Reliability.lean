import Mathlib.Algebra.BigOperators.Field
import Mathlib.Algebra.BigOperators.Ring.Finset
import Mathlib.Algebra.Order.BigOperators.Group.Finset
import Mathlib.Algebra.Order.Floor.Ring
import Mathlib.Data.Rat.Floor
import Mathlib.Tactic.FieldSimp
import Mathlib.Tactic.Linarith
import SharpEvPicks.Backtesting.Calibration
import SharpEvPicks.Tally

/-! The calibration report is consistent: its bins partition the observations, and the figures of
the bins add up to those of the whole. -/
namespace SharpEvPicks.Backtesting

open Probabilities Tally

variable {K : Type*} [Field K]

/-! One bin and the bin of a probability. -/

theorem clamp01_bounds [LinearOrder K] [IsStrictOrderedRing K] (p : K) :
    0 < clamp01 p ∧ clamp01 p < 1 := by
  have small : (0 : K) < eps ∧ (eps : K) < 1 := by
    unfold eps
    exact ⟨by positivity, by rw [div_lt_one (by positivity)]; norm_num⟩
  unfold clamp01
  exact ⟨lt_min (by linarith) (lt_max_of_lt_left small.1), min_lt_of_left_lt (by linarith)⟩

section Floor
variable [LinearOrder K] [FloorRing K] {nBins : Nat} {p : K}

theorem binIndex_eq_iff [IsStrictOrderedRing K] (some_ : 0 < nBins) (positive : 0 < p)
    (below : p < 1) (i : Nat) :
    binIndex nBins p = i ↔ i * (1 / (nBins : K)) ≤ p ∧ p < (i + 1) * (1 / (nBins : K)) := by
  have bins : (0 : K) < nBins := by exact_mod_cast some_
  have quotient : p / (1 / (nBins : K)) = p * nBins := by field_simp
  have nonneg : 0 ≤ ⌊p * nBins⌋ := Int.floor_nonneg.mpr (by positivity)
  have few : ⌊p * nBins⌋ < nBins := by
    rw [Int.floor_lt]
    have bound := mul_lt_mul_of_pos_right below bins
    rw [one_mul] at bound
    exact_mod_cast bound
  have bounds : (i * (1 / (nBins : K)) ≤ p ∧ p < (i + 1) * (1 / (nBins : K))) ↔
      (((i : Int) : K) ≤ p * nBins ∧ p * nBins < ((i : Int) : K) + 1) := by
    rw [mul_one_div, mul_one_div, div_le_iff₀ bins, lt_div_iff₀ bins, Int.cast_natCast]
  rw [bounds, ← Int.floor_eq_iff, binIndex, quotient]
  omega

theorem binIndex_lt (some_ : 0 < nBins) (p : K) : binIndex nBins p < nBins := by
  unfold binIndex
  omega

end Floor

def binAt (width : K) (sums : Sums K) (i : Nat) : ReliabilityBin K :=
  if sums.count.getD i 0 = 0 then ⟨i * width, (i + 1) * width, 0, none, none⟩
  else
    { lo := i * width
      hi := (i + 1) * width
      n := sums.count.getD i 0
      meanPred := some (sums.pred.getD i 0 / sums.count.getD i 0)
      observed := some (sums.obs.getD i 0 / sums.count.getD i 0) }

@[simp] theorem binAt_lo (width : K) (sums : Sums K) (i : Nat) :
    (binAt width sums i).lo = i * width := by
  unfold binAt
  split <;> rfl

@[simp] theorem binAt_hi (width : K) (sums : Sums K) (i : Nat) :
    (binAt width sums i).hi = (i + 1) * width := by
  unfold binAt
  split <;> rfl

@[simp] theorem binAt_n (width : K) (sums : Sums K) (i : Nat) :
    (binAt width sums i).n = sums.count.getD i 0 := by
  unfold binAt
  split
  · rename_i empty
    exact empty.symm
  · rfl

/-! The loop. -/

variable [LinearOrder K]

def gapOf (sums : Sums K) (i : Nat) : K :=
  |sums.pred.getD i 0 / sums.count.getD i 0 - sums.obs.getD i 0 / sums.count.getD i 0|

/-- What the loop has after the bins before `k`. -/
structure Scanned (n : Nat) (width : K) (sums : Sums K) (k : Nat) (scan : Scan K) : Prop where
  bins : scan.bins = (List.range k).map (binAt width sums)
  ece : scan.ece = ∑ i ∈ Finset.range k, (sums.count.getD i 0 : K) / n * gapOf sums i
  mce_nonneg : 0 ≤ scan.mce
  mce_max : ∀ i < k, sums.count.getD i 0 ≠ 0 → gapOf sums i ≤ scan.mce
  mce_some : scan.mce = 0 ∨ ∃ i < k, sums.count.getD i 0 ≠ 0 ∧ scan.mce = gapOf sums i

theorem Scanned.step {n : Nat} {width : K} {sums : Sums K} {k : Nat} {scan : Scan K}
    (before : Scanned n width sums k scan) :
      Scanned n width sums (k + 1) (scanBin n width sums scan k) := by
  by_cases empty : sums.count.getD k 0 = 0
  · have bin : binAt width sums k = ⟨k * width, (k + 1) * width, 0, none, none⟩ := if_pos empty
    have next : scanBin n width sums scan k =
        { scan with bins := scan.bins ++ [⟨k * width, (k + 1) * width, 0, none, none⟩] } :=
          if_pos empty
    rw [next]
    refine ⟨?_, ?_, before.mce_nonneg, ?_, ?_⟩
    · rw [List.range_succ, List.map_append, ← before.bins, List.map_singleton, bin]
    · rw [Finset.sum_range_succ, ← before.ece, empty, Nat.cast_zero, zero_div, zero_mul,
        add_zero]
    · intro i below filled
      obtain earlier | rfl := Nat.lt_succ_iff_lt_or_eq.mp below
      · exact before.mce_max i earlier filled
      · exact absurd empty filled
    · obtain zero | ⟨i, below, filled, same⟩ := before.mce_some
      · exact .inl zero
      · exact .inr ⟨i, Nat.lt_succ_of_lt below, filled, same⟩
  · have bin : binAt width sums k = ⟨k * width, (k + 1) * width, sums.count.getD k 0,
        some (sums.pred.getD k 0 / sums.count.getD k 0),
          some (sums.obs.getD k 0 / sums.count.getD k 0)⟩ :=
      if_neg empty
    have next : scanBin n width sums scan k =
        { bins := scan.bins ++ [⟨k * width, (k + 1) * width, sums.count.getD k 0,
            some (sums.pred.getD k 0 / sums.count.getD k 0),
              some (sums.obs.getD k 0 / sums.count.getD k 0)⟩]
          ece := scan.ece + sums.count.getD k 0 / n * gapOf sums k
          mce := max scan.mce (gapOf sums k) } := if_neg empty
    rw [next]
    refine ⟨?_, ?_, le_max_of_le_left before.mce_nonneg, ?_, ?_⟩
    · rw [List.range_succ, List.map_append, ← before.bins, List.map_singleton, bin]
    · rw [Finset.sum_range_succ, ← before.ece]
    · intro i below filled
      obtain earlier | rfl := Nat.lt_succ_iff_lt_or_eq.mp below
      · exact le_max_of_le_left (before.mce_max i earlier filled)
      · exact le_max_right _ _
    · obtain keep | take := max_choice scan.mce (gapOf sums k)
      · dsimp only
        rw [keep]
        obtain zero | ⟨i, below, filled, same⟩ := before.mce_some
        · exact .inl zero
        · exact .inr ⟨i, Nat.lt_succ_of_lt below, filled, same⟩
      · exact .inr ⟨k, Nat.lt_succ_self k, empty, take⟩

theorem scanned_range (n : Nat) (width : K) (sums : Sums K) (k : Nat) :
    Scanned n width sums k ((List.range k).foldl (scanBin n width sums) ⟨[], 0, 0⟩) := by
  induction k with
  | zero => exact ⟨rfl, by
    simp, le_rfl, fun i below => absurd below (Nat.not_lt_zero i), .inl rfl⟩
  | succ k ih =>
    rw [List.range_succ, List.foldl_append]
    exact ih.step

theorem scanned (n nBins : Nat) (sums : Sums K) :
    Scanned n (1 / (nBins : K)) sums nBins (scanBins n nBins sums) :=
  scanned_range n _ sums nBins

/-! The sums of a bin. -/

section Sums
variable [FloorRing K] {nBins : Nat} {xs : List (Scored K)}

def cellOf (nBins : Nat) (x : Scored K) : Nat := binIndex nBins x.2

theorem binSums_eq (nBins : Nat) (xs : List (Scored K)) : binSums nBins xs =
    ⟨accumulate (cellOf nBins) Prod.snd (List.replicate nBins 0) xs,
      accumulate (cellOf nBins) Prod.fst (List.replicate nBins 0) xs,
      accumulate (cellOf nBins) (fun _ => 1) (List.replicate nBins 0) xs⟩ := by
  have run (sums : Sums K) : xs.foldl (fun sums x => sums.add (binIndex nBins x.2) x) sums =
      ⟨accumulate (cellOf nBins) Prod.snd sums.pred xs,
        accumulate (cellOf nBins) Prod.fst sums.obs xs,
        accumulate (cellOf nBins) (fun _ => 1) sums.count xs⟩ := by
    induction xs generalizing sums with
    | nil => rfl
    | cons x xs ih => exact ih (sums.add (binIndex nBins x.2) x)
  exact run (Sums.zero nBins)

def predOf (nBins : Nat) (xs : List (Scored K)) (i : Nat) : K :=
  weighed (cellOf nBins) Prod.snd xs i

def obsOf (nBins : Nat) (xs : List (Scored K)) (i : Nat) : K := weighed (cellOf nBins) Prod.fst xs i

def countOf (nBins : Nat) (xs : List (Scored K)) (i : Nat) : Nat :=
  xs.countP fun x => cellOf nBins x = i

theorem binSums_pred {i : Nat} (inside : i < nBins) :
    (binSums nBins xs).pred.getD i 0 = predOf nBins xs i := by
  rw [binSums_eq]
  exact getD_accumulate _ _ nBins xs inside

theorem binSums_obs {i : Nat} (inside : i < nBins) :
    (binSums nBins xs).obs.getD i 0 = obsOf nBins xs i := by
  rw [binSums_eq]
  exact getD_accumulate _ _ nBins xs inside

theorem binSums_count {i : Nat} (inside : i < nBins) :
    (binSums nBins xs).count.getD i 0 = countOf nBins xs i := by
  rw [binSums_eq]
  exact (getD_accumulate _ _ nBins xs inside).trans (weighed_one _ xs i)

/-- A weight between two bounds on every item of a cell lies between them in the mean. -/
theorem weighed_bounds [IsStrictOrderedRing K] (weight : Scored K → K) {low high : K} {i : Nat}
    (bounds : ∀ x ∈ xs, cellOf nBins x = i → low ≤ weight x ∧ weight x ≤ high) :
    countOf nBins xs i * low ≤ weighed (cellOf nBins) weight xs i ∧
      weighed (cellOf nBins) weight xs i ≤ countOf nBins xs i * high := by
  induction xs with
  | nil => simp [countOf]
  | cons x xs ih =>
    obtain ⟨above, below⟩ := ih fun y later => bounds y (List.mem_cons_of_mem _ later)
    by_cases own : cellOf nBins x = i
    · obtain ⟨least, most⟩ := bounds x List.mem_cons_self own
      have more : countOf nBins (x :: xs) i = countOf nBins xs i + 1 := by simp [countOf, own]
      rw [weighed_cons, if_pos own, more, Nat.cast_succ]
      constructor <;> linarith
    · have same : countOf nBins (x :: xs) i = countOf nBins xs i := by simp [countOf, own]
      rw [weighed_cons, if_neg own, zero_add, same]
      exact ⟨above, below⟩

/-- An empty cell weighs nothing. -/
theorem weighed_empty {weight : Scored K → K} {i : Nat} (empty : countOf nBins xs i = 0) :
    weighed (cellOf nBins) weight xs i = 0 := by
  have none_ : (xs.filter fun x => cellOf nBins x = i) = [] := by
    rw [← List.length_eq_zero_iff, ← List.countP_eq_length_filter]
    exact empty
  rw [weighed, none_]
  rfl

theorem count_mul_mean [IsStrictOrderedRing K] {weight : Scored K → K} (i : Nat) :
    (countOf nBins xs i : K) * (weighed (cellOf nBins) weight xs i / countOf nBins xs i) =
      weighed (cellOf nBins) weight xs i := by
  by_cases empty : countOf nBins xs i = 0
  · rw [weighed_empty empty, zero_div, mul_zero]
  · exact mul_div_cancel₀ _ (Nat.cast_ne_zero.mpr empty)

end Sums

/-! The report. -/

section Report
variable [FloorRing K]

/-- The observation is counted in the bin. -/
def CountedIn (bin : ReliabilityBin K) (o : CalibrationObservation K) : Prop :=
  bin.lo ≤ clamp01 o.fairProb ∧ clamp01 o.fairProb < bin.hi

instance (bin : ReliabilityBin K) (o : CalibrationObservation K) : Decidable (CountedIn bin o) :=
  inferInstanceAs (Decidable (_ ∧ _))

/-- The bins partition the observations. -/
structure Partition (observations : List (CalibrationObservation K))
    (bins : List (ReliabilityBin K)) : Prop where
  placed : ∀ o ∈ observations, ∃! i : Nat, ∃ bin, bins[i]? = some bin ∧ CountedIn bin o
  counted : ∀ bin ∈ bins, bin.n = observations.countP (CountedIn bin ·)
  total : (bins.map (·.n)).sum = observations.length
  filled : ∀ bin ∈ bins, bin.n ≠ 0 → ∃ mp ob, bin.meanPred = some mp ∧
    bin.observed = some ob ∧ bin.lo ≤ mp ∧ mp ≤ bin.hi
  empty : ∀ bin ∈ bins, bin.n = 0 → bin.meanPred = none ∧ bin.observed = none

/-- The figures of the whole against those of the bins. -/
structure Balanced (n : Nat) (bins : List (ReliabilityBin K)) (meanPred baseRate ece mce : K) :
    Prop where
  meanPred_eq : (bins.map fun bin => (bin.n : K) * bin.meanPred.getD 0).sum / n = meanPred
  baseRate_eq : (bins.map fun bin => (bin.n : K) * bin.observed.getD 0).sum / n = baseRate
  gap_le : |meanPred - baseRate| ≤ ece
  ece_le : ece ≤ mce
  mce_le : mce ≤ 1

def Consistent (observations : List (CalibrationObservation K)) (r : CalibrationReport K) : Prop :=
  r.n = observations.length ∧ Partition observations r.bins ∧ ∃ meanPred baseRate ece mce,
    r.meanPred = some meanPred ∧ r.baseRate = some baseRate ∧ r.ece = some ece ∧
    r.mce = some mce ∧
      Balanced r.n r.bins meanPred baseRate ece mce ∧ (ece = 0 → meanPred = baseRate)

variable [IsStrictOrderedRing K] {nBins : Nat} {observations : List (CalibrationObservation K)}

theorem cellOf_scored (some_ : 0 < nBins) (o : CalibrationObservation K) (i : Nat) :
    cellOf nBins (scored o) = i ↔
      CountedIn (binAt (1 / (nBins : K)) (binSums nBins (observations.map scored)) i) o := by
  obtain ⟨positive, below⟩ := clamp01_bounds o.fairProb
  unfold CountedIn
  rw [binAt_lo, binAt_hi]
  exact binIndex_eq_iff some_ positive below i

theorem countOf_scored (some_ : 0 < nBins) (i : Nat) : countOf nBins (observations.map scored) i =
    observations.countP
      (CountedIn (binAt (1 / (nBins : K)) (binSums nBins (observations.map scored)) i) ·) := by
  rw [countOf, List.countP_map]
  refine List.countP_congr fun o _ => ?_
  rw [Function.comp_apply, decide_eq_true_iff, decide_eq_true_iff]
  exact cellOf_scored some_ o i

theorem scored_bounds {x : Scored K} (inside : x ∈ observations.map scored) :
    (0 ≤ x.1 ∧ x.1 ≤ 1) ∧ 0 ≤ x.2 ∧ x.2 ≤ 1 := by
  obtain ⟨o, -, rfl⟩ := List.mem_map.mp inside
  obtain ⟨positive, below⟩ := clamp01_bounds o.fairProb
  refine ⟨?_, positive.le, below.le⟩
  unfold scored
  cases o.won
  · exact ⟨le_rfl, zero_le_one⟩
  · exact ⟨zero_le_one, le_rfl⟩

omit [IsStrictOrderedRing K] in
theorem sum_countOf (some_ : 0 < nBins) (xs : List (Scored K)) :
    ∑ i ∈ Finset.range nBins, countOf nBins xs i = xs.length := by
  have counts (i : Nat) : countOf nBins xs i = weighed (cellOf nBins) (fun _ => 1) xs i :=
    (weighed_one _ xs i).symm
  simp only [counts]
  rw [sum_weighed _ _ fun x _ => binIndex_lt some_ x.2, List.map_const', List.sum_replicate]
  exact Nat.mul_one _

omit [LinearOrder K] [FloorRing K] [IsStrictOrderedRing K] in
theorem sum_bins {f : ReliabilityBin K → K} {width : K} {sums : Sums K} :
    (((List.range nBins).map (binAt width sums)).map f).sum =
      ∑ i ∈ Finset.range nBins, f (binAt width sums i) := by
  rw [List.map_map]
  rfl

/-- The mean of a bin lies in the bin. -/
theorem mean_within (some_ : 0 < nBins) {i : Nat}
    (filled : countOf nBins (observations.map scored) i ≠ 0) :
    i * (1 / (nBins : K)) ≤ predOf nBins (observations.map scored) i / countOf nBins
      (observations.map scored) i ∧
      predOf nBins (observations.map scored) i / countOf nBins (observations.map scored) i ≤
        (i + 1) * (1 / (nBins : K)) := by
  have positive : (0 : K) < countOf nBins (observations.map scored) i := by
    exact_mod_cast Nat.pos_of_ne_zero filled
  have bounds : ∀ x ∈ observations.map scored, cellOf nBins x = i →
      i * (1 / (nBins : K)) ≤ x.2 ∧ x.2 ≤ (i + 1) * (1 / (nBins : K)) := by
    intro x inside own
    obtain ⟨o, -, rfl⟩ := List.mem_map.mp inside
    obtain ⟨pos, below⟩ := clamp01_bounds o.fairProb
    obtain ⟨least, most⟩ := (binIndex_eq_iff some_ pos below i).mp own
    exact ⟨least, most.le⟩
  obtain ⟨low, high⟩ := weighed_bounds Prod.snd bounds
  rw [le_div_iff₀ positive, div_le_iff₀ positive]
  unfold predOf
  constructor <;> linarith

theorem mean_bounds {weight : Scored K → K} {i : Nat}
    (filled : countOf nBins (observations.map scored) i ≠ 0)
    (bounds : ∀ x ∈ observations.map scored, 0 ≤ weight x ∧ weight x ≤ 1) :
    0 ≤ weighed (cellOf nBins) weight (observations.map scored) i / countOf nBins
      (observations.map scored) i ∧
      weighed (cellOf nBins) weight (observations.map scored) i / countOf nBins
        (observations.map scored) i ≤ 1 := by
  have positive : (0 : K) < countOf nBins (observations.map scored) i := by
    exact_mod_cast Nat.pos_of_ne_zero filled
  obtain ⟨low, high⟩ :=
    weighed_bounds weight fun x inside (_ : cellOf nBins x = i) => bounds x inside
  rw [mul_zero] at low
  rw [mul_one] at high
  exact ⟨div_nonneg low positive.le, (div_le_one positive).mpr high⟩

/-- The bins after the loop. -/
theorem partition_scan (some_ : 0 < nBins) : Partition observations
    (scanBins observations.length nBins (binSums nBins (observations.map scored))).bins := by
  rw [(scanned observations.length nBins _).bins]
  have listed {bin : ReliabilityBin K} (inside : bin ∈ (List.range nBins).map
      (binAt (1 / (nBins : K)) (binSums nBins (observations.map scored)))) :
      ∃ i < nBins, binAt (1 / (nBins : K)) (binSums nBins (observations.map scored)) i = bin := by
    obtain ⟨i, below, same⟩ := List.mem_map.mp inside
    exact ⟨i, List.mem_range.mp below, same⟩
  refine ⟨?_, ?_, ?_, ?_, ?_⟩
  · intro o _
    have own : CountedIn (binAt (1 / (nBins : K)) (binSums nBins (observations.map scored))
        (cellOf nBins (scored o))) o := cellOf_scored some_ o (cellOf nBins (scored o)) |>.mp rfl
    have below : cellOf nBins (scored o) < nBins := binIndex_lt some_ _
    refine ⟨cellOf nBins (scored o), ⟨_, ?_, own⟩, ?_⟩
    · rw [List.getElem?_map, List.getElem?_range below, Option.map_some]
    · rintro j ⟨bin, found, inside⟩
      rw [List.getElem?_map, Option.map_eq_some_iff] at found
      obtain ⟨k, at_, rfl⟩ := found
      obtain ⟨bound, rfl⟩ := List.getElem?_eq_some_iff.mp at_
      rw [List.getElem_range] at inside
      exact ((cellOf_scored some_ o j).mpr inside).symm
  · intro bin inside
    obtain ⟨i, below, rfl⟩ := listed inside
    rw [binAt_n, binSums_count below, countOf_scored some_]
  · rw [List.map_map]
    have counts : ((List.range nBins).map ((·.n) ∘
        binAt (1 / (nBins : K)) (binSums nBins (observations.map scored)))).sum =
        ∑ i ∈ Finset.range nBins, countOf nBins (observations.map scored) i := by
      have each : ∀ i ∈ List.range nBins,
          ((·.n) ∘ binAt (1 / (nBins : K)) (binSums nBins (observations.map scored))) i =
          countOf nBins (observations.map scored) i := fun i inside => ?_
      · rw [List.map_congr_left each]
        rfl
      rw [Function.comp_apply, binAt_n, binSums_count (List.mem_range.mp inside)]
    rw [counts, sum_countOf some_, List.length_map]
  · intro bin inside filled
    obtain ⟨i, below, rfl⟩ := listed inside
    rw [binAt_n] at filled
    have filled' : countOf nBins (observations.map scored) i ≠ 0 := by
      rw [← binSums_count below]
      exact filled
    have mean := mean_within some_ filled'
    rw [← binSums_count below, ← binSums_pred below] at mean
    rw [binAt_lo, binAt_hi]
    unfold binAt
    rw [if_neg filled]
    exact ⟨_, _, rfl, rfl, mean⟩
  · intro bin inside none_
    obtain ⟨i, below, rfl⟩ := listed inside
    rw [binAt_n] at none_
    unfold binAt
    rw [if_pos none_]
    exact ⟨rfl, rfl⟩

/-- The figures after the loop. -/
theorem balanced_scan (some_ : 0 < nBins) (nonempty : 0 < observations.length) :
    let xs := observations.map scored
    let scan := scanBins observations.length nBins (binSums nBins xs)
    Balanced observations.length scan.bins ((xs.map Prod.snd).sum / observations.length)
      ((xs.map Prod.fst).sum / observations.length) scan.ece scan.mce := by
  intro xs scan
  have loop : Scanned observations.length (1 / (nBins : K)) (binSums nBins xs) nBins scan :=
    scanned _ _ _
  have positive : (0 : K) < observations.length := by exact_mod_cast nonempty
  have preds : ∑ i ∈ Finset.range nBins, predOf nBins xs i = (xs.map Prod.snd).sum :=
    sum_weighed _ _ fun x _ => binIndex_lt some_ x.2
  have wins : ∑ i ∈ Finset.range nBins, obsOf nBins xs i = (xs.map Prod.fst).sum :=
    sum_weighed _ _ fun x _ => binIndex_lt some_ x.2
  have gaps {i : Nat} (below : i < nBins) : gapOf (binSums nBins xs) i =
      |predOf nBins xs i / countOf nBins xs i - obsOf nBins xs i / countOf nBins xs i| := by
    rw [gapOf, binSums_pred below, binSums_obs below, binSums_count below]
  have ece : scan.ece = (∑ i ∈ Finset.range nBins,
      |predOf nBins xs i - obsOf nBins xs i|) / observations.length := by
    rw [loop.ece, Finset.sum_div]
    refine Finset.sum_congr rfl fun i inside => ?_
    have below := Finset.mem_range.mp inside
    have count : (0 : K) ≤ countOf nBins xs i := Nat.cast_nonneg _
    rw [binSums_count below, gaps below, div_mul_eq_mul_div, ← abs_of_nonneg count, ← abs_mul,
      abs_of_nonneg count, mul_sub, predOf, obsOf, count_mul_mean, count_mul_mean]
  refine ⟨?_, ?_, ?_, ?_, ?_⟩
  · rw [loop.bins, sum_bins, ← preds]
    congr 1
    refine Finset.sum_congr rfl fun i inside => ?_
    have below := Finset.mem_range.mp inside
    rw [binAt_n, binSums_count below, binAt, binSums_count below]
    split
    · rename_i empty
      rw [empty, Nat.cast_zero, zero_mul, predOf, weighed_empty empty]
    · rw [Option.getD_some, binSums_pred below]
      exact count_mul_mean i
  · rw [loop.bins, sum_bins, ← wins]
    congr 1
    refine Finset.sum_congr rfl fun i inside => ?_
    have below := Finset.mem_range.mp inside
    rw [binAt_n, binSums_count below, binAt, binSums_count below]
    split
    · rename_i empty
      rw [empty, Nat.cast_zero, zero_mul, obsOf, weighed_empty empty]
    · rw [Option.getD_some, binSums_obs below]
      exact count_mul_mean i
  · rw [ece, ← sub_div, abs_div,
      abs_of_pos positive, ← preds, ← wins, ← Finset.sum_sub_distrib]
    exact div_le_div_of_nonneg_right (Finset.abs_sum_le_sum_abs _ _) positive.le
  · have each (i : Nat) (inside : i ∈ Finset.range nBins) :
        ((binSums nBins xs).count.getD i 0 : K) / observations.length *
          gapOf (binSums nBins xs) i ≤
          (countOf nBins xs i : K) / observations.length * scan.mce := by
      have below := Finset.mem_range.mp inside
      rw [binSums_count below]
      by_cases empty : countOf nBins xs i = 0
      · rw [empty, Nat.cast_zero, zero_div, zero_mul, zero_mul]
      · refine mul_le_mul_of_nonneg_left (loop.mce_max i below ?_) (by positivity)
        rw [binSums_count below]
        exact empty
    have total : ∑ i ∈ Finset.range nBins, (countOf nBins xs i : K) = observations.length := by
      rw [← Nat.cast_sum, sum_countOf some_, List.length_map]
    calc scan.ece = _ := loop.ece
      _ ≤ ∑ i ∈ Finset.range nBins,
        (countOf nBins xs i : K) / observations.length * scan.mce :=
        Finset.sum_le_sum each
      _ = scan.mce := by
        rw [← Finset.sum_mul, ← Finset.sum_div, total, div_self positive.ne', one_mul]
  · obtain zero | ⟨i, below, filled, same⟩ := loop.mce_some
    · rw [zero]
      exact zero_le_one
    · rw [binSums_count below] at filled
      obtain ⟨predLow, predHigh⟩ := mean_bounds filled fun x inside => (scored_bounds inside).2
      obtain ⟨obsLow, obsHigh⟩ := mean_bounds filled fun x inside => (scored_bounds inside).1
      rw [same, gaps below, predOf, obsOf, abs_le]
      constructor <;> linarith

variable [Numerics K]

/-- With enough observations there is a report, and it is consistent. -/
theorem calibrationReport_consistent (observations : List (CalibrationObservation K))
    (nBins minN : Int) (bins : 1 ≤ nBins) (enough : max minN 1 ≤ observations.length) :
    ∃ r, calibrationReport observations nBins minN = .ok r ∧ Consistent observations r := by
  have some_ : 0 < nBins.toNat := by omega
  have nonempty : 0 < observations.length := by omega
  unfold calibrationReport
  rw [if_neg (by omega)]
  dsimp only
  rw [if_neg (by omega), if_neg (by omega)]
  have balanced := balanced_scan some_ nonempty
  refine ⟨_, rfl, rfl, partition_scan some_, _, _, _, _, rfl, rfl, rfl, rfl, balanced, ?_⟩
  intro zero
  have gap := balanced.gap_le
  rw [zero] at gap
  exact sub_eq_zero.mp (abs_eq_zero.mp (le_antisymm gap (abs_nonneg _)))

end Report

def toss (p : ℚ) (won : Bool) : CalibrationObservation ℚ := ⟨p, won⟩

theorem calibrationReport_consistent_tosses :
    ∃ r, @calibrationReport ℚ _ _ _ Numerics.trivial
      [toss (1 / 4) false, toss (3 / 4) true] 10 1 = .ok r ∧
      Consistent [toss (1 / 4) false, toss (3 / 4) true] r :=
  @calibrationReport_consistent ℚ _ _ _ _ Numerics.trivial _ 10 1 (by decide) (by decide)

end SharpEvPicks.Backtesting
