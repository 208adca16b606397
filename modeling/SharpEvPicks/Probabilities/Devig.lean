import Mathlib.Algebra.Order.Field.Basic
import Mathlib.Algebra.BigOperators.Group.List.Basic

/-! Vig-free probabilities of one market, `app/probabilities/devig.py`, over an ordered
field. The functions taken from numpy and scipy are a parameter; sums, products and
comparisons are exact. -/
namespace SharpEvPicks.Probabilities

inductive DevigMethod where
  | multiplicative | additive | power | shin | probit | oddsRatio | logarithmic
  | differentialMargin | goto
  deriving DecidableEq, Repr

inductive DevigFallbackReason where
  | additiveNonPositive | powerSolveFailed | logarithmicSolveFailed | probitSolveFailed
  | differentialMarginNonPositive | differentialMarginOutOfRange | shinUnderround | shinDegenerate
  | shinSolveFailed | gotoNonPositive
  deriving DecidableEq, Repr

inductive SolveError where
  | sameSign | notConverged
  deriving DecidableEq, Repr

inductive DevigError where
  | fewOutcomes | oddsNotAboveOne | notConverged
  deriving DecidableEq, Repr

class Numerics (K : Type*) where
  sqrt : K → K
  power : K → K → K
  exp : K → K
  log : K → K
  ppf : K → K
  cdf : K → K
  brentq : (K → K) → K → K → Except SolveError K

/-- Stand-ins for runs that call none of them. -/
@[reducible] def Numerics.trivial {K : Type*} : Numerics K where
  sqrt x := x
  power x _ := x
  exp x := x
  log x := x
  ppf x := x
  cdf x := x
  brentq _ _ _ := .error .sameSign

variable {K : Type*} [Field K] [LinearOrder K]

def multiplicative (q : List K) : List K := q.map (· / q.sum)

/-- `np.clip` into `[1e-15, 1 - 1e-15]`. -/
def clip (x : K) : K := min (max x (1 / 10 ^ 15)) (1 - 1 / 10 ^ 15)

def isFair (q : List K) : Prop := |q.sum - 1| < 1 / 10 ^ 12

instance (q : List K) : Decidable (isFair q) := inferInstanceAs (Decidable (_ < _))

def additive (q : List K) : List K × Option DevigFallbackReason :=
  let marginShare := (q.sum - 1) / q.length
  let p := q.map (· - marginShare)
  if p.any (· ≤ 0) then (multiplicative q, some .additiveNonPositive) else (p, none)

def differentialMargin (odds q : List K) : List K × Option DevigFallbackReason :=
  let margin := q.sum - 1
  let n : K := odds.length
  if (odds.map fun o => n - margin * o).any (· ≤ 0) then
    (multiplicative q, some .differentialMarginNonPositive)
  else
    let p := odds.map fun o => (n - margin * o) / (n * o)
    if p.any (· ≤ 0) || p.any (1 ≤ ·) then
      (multiplicative q, some .differentialMarginOutOfRange)
    else (p, none)

variable [Numerics K]

/-- Doubling `hi` while the sum stays above one, up to 1024. -/
def bracket (f : K → K) : Nat → K → Option K
  | 0, _ => none
  | steps + 1, hi => if 0 < f hi then bracket f steps (2 * hi) else some hi

def power (q : List K) : List K × Option DevigFallbackReason :=
  if isFair q then (q, none)
  else
    let f := fun k => (q.map (Numerics.power · k)).sum - 1
    match bracket f 11 1 with
    | none => (multiplicative q, some .powerSolveFailed)
    | some hi =>
      match Numerics.brentq f (1 / 1000) hi with
      | .ok k => (q.map (Numerics.power · k), none)
      | .error _ => (multiplicative q, some .powerSolveFailed)

/-- The shift of `_logarithmic` and `_probit`, `none` where both brackets have one sign. -/
def solveShift (f : K → K) : Except DevigError (Option K) :=
  match Numerics.brentq f 0 20 with
  | .ok c => .ok (some c)
  | .error .notConverged => .error .notConverged
  | .error .sameSign =>
    match Numerics.brentq f (-20) 20 with
    | .ok c => .ok (some c)
    | .error .notConverged => .error .notConverged
    | .error .sameSign => .ok none

def sigmoid (x : K) : K := 1 / (1 + Numerics.exp (-x))

/-- A constant shift between `toScale` and `ofScale`, the body of `_logarithmic` and `_probit`. -/
def shifted (toScale ofScale : K → K) (failed : DevigFallbackReason) (q : List K) :
    Except DevigError (List K × Option DevigFallbackReason) :=
  if isFair q then .ok (q, none)
  else
    let z := q.map fun x => toScale (clip x)
    match solveShift fun c => (z.map fun x => ofScale (x - c)).sum - 1 with
    | .error e => .error e
    | .ok none => .ok (multiplicative q, some failed)
    | .ok (some c) => .ok (z.map fun x => ofScale (x - c), none)

def logarithmic (q : List K) : Except DevigError (List K × Option DevigFallbackReason) :=
  shifted (fun x => Numerics.log (x / (1 - x))) sigmoid .logarithmicSolveFailed q

def probit (q : List K) : Except DevigError (List K × Option DevigFallbackReason) :=
  shifted Numerics.ppf Numerics.cdf .probitSolveFailed q

def goto (q : List K) : List K × Option DevigFallbackReason :=
  if isFair q then (q, none)
  else
    let se := q.map fun x => Numerics.sqrt (1 - x)
    let p := q.map fun x => x - (q.sum - 1) / se.sum * Numerics.sqrt (1 - x)
    if p.any (· ≤ 0) then (multiplicative q, some .gotoNonPositive) else (p, none)

def shinProb (booksum z x : K) : K :=
  let inner := z * z + 4 * (1 - z) * (x * x) / booksum
  (Numerics.sqrt (max inner 0) - z) / (2 * (1 - z))

def shin (q : List K) : List K × Option DevigFallbackReason :=
  let booksum := q.sum
  if booksum ≤ 1 + 1 / 10 ^ 12 then
    if isFair q then (q, none) else (multiplicative q, some .shinUnderround)
  else
    match q with
    | [x, y] =>
      let d := x - y
      let denom := booksum * (d * d - 1)
      if |denom| ≤ 1 / 10 ^ 15 then (multiplicative q, some .shinDegenerate)
      else
        let z := (booksum - 1) * (d * d - booksum) / denom
        (q.map (shinProb booksum (min (max z 0) (999 / 1000))), none)
    | _ =>
      let f := fun z => (q.map (shinProb booksum z)).sum - 1
      if 0 < f (999 / 1000) then (multiplicative q, some .shinSolveFailed)
      else
        match Numerics.brentq f 0 (999 / 1000) with
        | .ok z => (q.map (shinProb booksum z), none)
        | .error _ => (multiplicative q, some .shinSolveFailed)

def methodShares (method : DevigMethod) (odds q : List K) :
    Except DevigError (List K × Option DevigFallbackReason) :=
  match method with
  | .multiplicative => .ok (multiplicative q, none)
  | .additive => .ok (additive q)
  | .power => .ok (power q)
  | .shin => .ok (shin q)
  | .probit => probit q
  -- a constant logit shift is the logarithmic method
  | .oddsRatio => logarithmic q
  | .logarithmic => logarithmic q
  | .differentialMargin => .ok (differentialMargin odds q)
  | .goto => .ok (goto q)

/-- `_devig_with_fallback`. -/
def devigWithDiagnostics (odds : List K) (method : DevigMethod) :
    Except DevigError (List K × Option DevigFallbackReason) :=
  if odds.length < 2 then .error .fewOutcomes
  else if odds.any (· ≤ 1) then .error .oddsNotAboveOne
  else
    (methodShares method odds (odds.map fun o => 1 / o)).map fun (p, reason) =>
      (p.map (· / p.sum), reason)

def devigWithProvenance (odds : List K) (method : DevigMethod) :
    Except DevigError (List K × Bool) :=
  (devigWithDiagnostics odds method).map fun (p, reason) => (p, reason.isSome)

def devig (odds : List K) (method : DevigMethod) : Except DevigError (List K) :=
  (devigWithDiagnostics odds method).map Prod.fst

end SharpEvPicks.Probabilities
