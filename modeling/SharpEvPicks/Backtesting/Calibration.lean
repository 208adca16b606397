import Mathlib.Algebra.Order.Floor.Defs
import SharpEvPicks.Probabilities.Devig

/-! The calibration report of `app/backtesting/calibration.py`. The arithmetic is exact, over any
ordered field that floors. -/
namespace SharpEvPicks.Backtesting

open Probabilities

structure CalibrationObservation (K : Type*) where
  fairProb : K
  won : Bool

structure ReliabilityBin (K : Type*) where
  lo : K
  hi : K
  n : Nat
  meanPred : Option K
  observed : Option K

structure CalibrationReport (K : Type*) where
  n : Nat
  insufficient : Bool
  logLoss : Option K
  ignorance : Option K
  brier : Option K
  ece : Option K
  mce : Option K
  baseRate : Option K
  meanPred : Option K
  bins : List (ReliabilityBin K)

inductive CalibrationError where
  | nBins | zeroDivision
  deriving DecidableEq, Repr

variable {K : Type*} [Field K] [LinearOrder K]

def eps : K := 1 / ((10 ^ 12 : Nat) : K)

def clamp01 (p : K) : K := min (1 - eps) (max eps p)

/-- `ys` and `ps` zipped. -/
abbrev Scored (K : Type*) := K × K

def scored (o : CalibrationObservation K) : Scored K := (if o.won then 1 else 0, clamp01 o.fairProb)

/-- `bin_pred_sum`, `bin_obs_sum` and `bin_count`. -/
structure Sums (K : Type*) where
  pred : List K
  obs : List K
  count : List Nat

def Sums.add (sums : Sums K) (idx : Nat) (x : Scored K) : Sums K where
  pred := sums.pred.modify idx (· + x.2)
  obs := sums.obs.modify idx (· + x.1)
  count := sums.count.modify idx (· + 1)

def Sums.zero (nBins : Nat) : Sums K :=
  ⟨List.replicate nBins 0, List.replicate nBins 0, List.replicate nBins 0⟩

section Floor
variable [FloorRing K]

/-- `min(n_bins - 1, int(p / width))` of a positive probability. -/
def binIndex (nBins : Nat) (p : K) : Nat := min (nBins - 1) ⌊p / (1 / nBins)⌋.toNat

def binSums (nBins : Nat) (xs : List (Scored K)) : Sums K :=
  xs.foldl (fun sums x => sums.add (binIndex nBins x.2) x) (Sums.zero nBins)

end Floor

/-- The loop over the bins. -/
structure Scan (K : Type*) where
  bins : List (ReliabilityBin K)
  ece : K
  mce : K

def scanBin (n : Nat) (width : K) (sums : Sums K) (acc : Scan K) (i : Nat) : Scan K :=
  let lo := i * width
  let hi := (i + 1) * width
  let cnt := sums.count.getD i 0
  if cnt = 0 then { acc with bins := acc.bins ++ [⟨lo, hi, 0, none, none⟩] }
  else
    let mp := sums.pred.getD i 0 / cnt
    let ob := sums.obs.getD i 0 / cnt
    let gap := |mp - ob|
    { bins := acc.bins ++ [⟨lo, hi, cnt, some mp, some ob⟩]
      ece := acc.ece + cnt / n * gap
      mce := max acc.mce gap }

def scanBins (n nBins : Nat) (sums : Sums K) : Scan K :=
  (List.range nBins).foldl (scanBin n (1 / nBins) sums) ⟨[], 0, 0⟩

variable [FloorRing K] [Numerics K]

def calibrationReport (observations : List (CalibrationObservation K)) (nBins minN : Int) :
    Except CalibrationError (CalibrationReport K) :=
  if nBins < 1 then .error .nBins
  else
    let n := observations.length
    if n < minN then
      .ok
        { n := n
          insufficient := true
          logLoss := none
          ignorance := none
          brier := none
          ece := none
          mce := none
          baseRate := none
          meanPred := none
          bins := [] }
    else if n = 0 then .error .zeroDivision
    else
      let xs := observations.map scored
      let loss (x : Scored K) := x.1 * Numerics.log x.2 + (1 - x.1) * Numerics.log (1 - x.2)
      let logLoss := -(xs.map loss).sum / n
      let scan := scanBins n nBins.toNat (binSums nBins.toNat xs)
      .ok
        { n := n
          insufficient := false
          logLoss := some logLoss
          ignorance := some (logLoss / Numerics.log ((2 : Nat) : K))
          brier := some ((xs.map fun x => (x.2 - x.1) ^ 2).sum / n)
          ece := some scan.ece
          mce := some scan.mce
          baseRate := some ((xs.map Prod.fst).sum / n)
          meanPred := some ((xs.map Prod.snd).sum / n)
          bins := scan.bins }

end SharpEvPicks.Backtesting
