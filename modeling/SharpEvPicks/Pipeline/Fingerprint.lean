import SharpEvPicks.Probabilities.Devig
import SharpEvPicks.Python.FixedPoint

/-! The policy regime of a pick as a text, `policy_fingerprint` of `app/pipeline.py`, and which
policies it tells apart. -/
namespace SharpEvPicks.Pipeline

open Python Probabilities

/-- The keyword arguments of `policy_fingerprint`. -/
structure Policy where
  valueMinEdge : PyFloat
  valueVolumeMinEdge : PyFloat
  valueMinOdds : PyFloat
  devigMethod : DevigMethod
  requireSharpAnchor : Bool
  maxEdge : PyFloat
  mlManifestCreatedUtc : Option Str := none
  mlThreshold : Option PyFloat := none

/-- `DevigMethod.value`. -/
def methodText : DevigMethod → Str
  | .multiplicative => "multiplicative".toList
  | .additive => "additive".toList
  | .power => "power".toList
  | .shin => "shin".toList
  | .probit => "probit".toList
  | .oddsRatio => "odds_ratio".toList
  | .logarithmic => "logarithmic".toList
  | .differentialMargin => "differential_margin_weighting".toList
  | .goto => "goto".toList

/-- `math.isinf`. -/
def isInf : PyFloat → Bool
  | .inf _ => true
  | _ => false

def ceilingText (maxEdge : PyFloat) : Str :=
  if isInf maxEdge then "inf".toList else formatFixed 4 maxEdge

namespace Policy

/-- The manifest that is enforced: it takes an identity and an operating point. -/
def manifest (p : Policy) : Option (Str × PyFloat) :=
  p.mlManifestCreatedUtc.bind fun created => p.mlThreshold.map fun threshold => (created, threshold)

def mlText (p : Policy) : Str :=
  p.manifest.elim "off".toList fun m => m.1 ++ '@' :: formatFixed 3 m.2

end Policy

/-- `|name=text`. -/
def field (name : String) (text : Str) : Str := '|' :: name.toList ++ '=' :: text

def policyFingerprint (p : Policy) : Str :=
  "p1".toList ++ field "me" (formatFixed 4 p.valueMinEdge) ++
    field "vme" (formatFixed 4 p.valueVolumeMinEdge) ++
    field "mo" (formatFixed 2 p.valueMinOdds) ++ field "dv" (methodText p.devigMethod) ++
    field "rsa" (if p.requireSharpAnchor then ['1'] else ['0']) ++
      field "mxe" (ceilingText p.maxEdge) ++
    field "ml" p.mlText

/-! What the text keeps of a policy. -/

def SameCeiling (x y : PyFloat) : Prop :=
  (isInf x ∧ isInf y) ∨ (¬ isInf x ∧ ¬ isInf y ∧ SamePrinted 4 x y)

/-- No manifest is enforced, or the same one at the same printed operating point. -/
def SameManifest (m m' : Option (Str × PyFloat)) : Prop :=
  Option.Rel (fun a b => a.1 = b.1 ∧ SamePrinted 3 a.2 b.2) m m'

/-- Two policies that differ by less than is printed of them. -/
structure Policy.SameText (p q : Policy) : Prop where
  minEdge : SamePrinted 4 p.valueMinEdge q.valueMinEdge
  volumeMinEdge : SamePrinted 4 p.valueVolumeMinEdge q.valueVolumeMinEdge
  minOdds : SamePrinted 2 p.valueMinOdds q.valueMinOdds
  method : p.devigMethod = q.devigMethod
  sharpAnchor : p.requireSharpAnchor = q.requireSharpAnchor
  ceiling : SameCeiling p.maxEdge q.maxEdge
  manifest : SameManifest p.manifest q.manifest

theorem methodText_injective {m m' : DevigMethod} (same : methodText m = methodText m') :
    m = m' := by
  cases m <;> cases m' <;> first | rfl | exact absurd same (by decide)

theorem methodText_plain (m : DevigMethod) : '|' ∉ methodText m := by
  cases m <;> decide

theorem field_plain (name : String) {text : Str} (named : '|' ∉ name.toList)
    (plain : '|' ∉ text) : '|' ∉ name.toList ++ '=' :: text := by
  simp [named, plain]

theorem field_inj {name : String} {a b s t : Str} (named : '|' ∉ name.toList)
    (plain : '|' ∉ a) (plain' : '|' ∉ b)
    (same : field name a ++ '|' :: s = field name b ++ '|' :: t) :
      a = b ∧ '|' :: s = '|' :: t := by
  have inner : (name.toList ++ '=' :: a) ++ '|' :: s = (name.toList ++ '=' :: b) ++ '|' :: t :=
    (List.cons.inj same).2
  obtain ⟨front, rest⟩ :=
    cut_first (field_plain name named plain) (field_plain name named plain') inner
  exact ⟨(List.cons.inj (List.append_cancel_left front)).2, congrArg _ rest⟩

theorem ceilingText_eq_iff {x y : PyFloat} : ceilingText x = ceilingText y ↔ SameCeiling x y := by
  have finite (x : PyFloat) (some : isInf x = false) : ceilingText x = formatFixed 4 x := by
    rw [ceilingText, some, if_neg Bool.false_ne_true]
  have infinite (x : PyFloat) (some : isInf x) : ceilingText x = formatFixed 4 (.inf false) := by
    rw [ceilingText, if_pos some]
    rfl
  unfold SameCeiling
  cases one : isInf x with
  | false =>
    cases other : isInf y with
    | false =>
      rw [finite x one, finite y other, formatFixed_eq_iff]
      simp
    | true =>
      rw [finite x one, infinite y other, formatFixed_eq_iff]
      cases x <;> simp_all [SamePrinted, isInf]
  | true =>
    cases other : isInf y with
    | false =>
      rw [infinite x one, finite y other, formatFixed_eq_iff]
      cases y <;> simp_all [SamePrinted, isInf]
    | true =>
      rw [infinite x one, infinite y other]
      simp

theorem ceilingText_plain (x : PyFloat) : '|' ∉ ceilingText x := by
  unfold ceilingText
  split
  · decide
  · exact (formatFixed_plain 4 x).1

theorem mlText_eq_iff {p q : Policy} :
    p.mlText = q.mlText ↔ SameManifest p.manifest q.manifest := by
  have off (m : Str × PyFloat) : "off".toList ≠ m.1 ++ '@' :: formatFixed 3 m.2 := by
    intro same
    have inside : '@' ∈ "off".toList := by
      rw [same]
      simp
    exact absurd inside (by decide)
  unfold Policy.mlText SameManifest
  cases p.manifest with
  | none =>
    cases q.manifest with
    | none => exact iff_of_true rfl .none
    | some m => exact iff_of_false (off m) nofun
  | some m =>
    cases q.manifest with
    | none => exact iff_of_false (off m).symm nofun
    | some m' =>
      rw [Option.rel_some_some, ← formatFixed_eq_iff]
      constructor
      · exact cut_last (formatFixed_plain 3 m.2).2 (formatFixed_plain 3 m'.2).2
      · rintro ⟨created, threshold⟩
        rw [Option.elim_some, Option.elim_some, created, threshold]

theorem policyFingerprint_eq_iff {p q : Policy} : policyFingerprint p = policyFingerprint q ↔
    p.SameText q := by
  have flag (b : Bool) : '|' ∉ (if b then ['1'] else ['0']) := by cases b <;> decide
  constructor
  · intro same
    simp only [policyFingerprint, List.append_assoc] at same
    have tail := List.append_cancel_left same
    obtain ⟨minEdge, tail⟩ :=
      field_inj (by decide) (formatFixed_plain 4 _).1 (formatFixed_plain 4 _).1 tail
    obtain ⟨volumeMinEdge, tail⟩ :=
      field_inj (by decide) (formatFixed_plain 4 _).1 (formatFixed_plain 4 _).1 tail
    obtain ⟨minOdds, tail⟩ :=
      field_inj (by decide) (formatFixed_plain 2 _).1 (formatFixed_plain 2 _).1 tail
    obtain ⟨method, tail⟩ :=
      field_inj (by decide) (methodText_plain _) (methodText_plain _) tail
    obtain ⟨sharpAnchor, tail⟩ := field_inj (by decide) (flag _) (flag _) tail
    obtain ⟨ceiling, tail⟩ :=
      field_inj (by decide) (ceilingText_plain _) (ceilingText_plain _) tail
    have ml : p.mlText = q.mlText :=
      (List.cons.inj (List.append_cancel_left (List.cons.inj tail).2)).2
    have flags : p.requireSharpAnchor = q.requireSharpAnchor := by
      cases one : p.requireSharpAnchor <;> cases other : q.requireSharpAnchor <;> simp_all
    exact ⟨formatFixed_eq_iff.mp minEdge, formatFixed_eq_iff.mp volumeMinEdge,
      formatFixed_eq_iff.mp minOdds,
      methodText_injective method, flags, ceilingText_eq_iff.mp ceiling, mlText_eq_iff.mp ml⟩
  · intro same
    rw [policyFingerprint, policyFingerprint, formatFixed_eq_iff.mpr same.minEdge,
      formatFixed_eq_iff.mpr same.volumeMinEdge, formatFixed_eq_iff.mpr same.minOdds, same.method,
        same.sharpAnchor,
      ceilingText_eq_iff.mpr same.ceiling, mlText_eq_iff.mpr same.manifest]

/-- Two policies are told apart unless they differ by less than is printed of them. -/
theorem regimes_apart_iff (p q : Policy) :
    (policyFingerprint p = policyFingerprint q → p = q) ↔ (p = q ∨ ¬ p.SameText q) := by
  rw [policyFingerprint_eq_iff]
  tauto

def looserPolicy (minEdge : ℚ) : Policy where
  valueMinEdge := .finite minEdge
  valueVolumeMinEdge := .finite (3 / 200)
  valueMinOdds := .finite (13 / 10)
  devigMethod := .power
  requireSharpAnchor := true
  maxEdge := .finite (1 / 5)

/-- A threshold of 1.5 percent and one a hundredth of a basis point above it. -/
theorem regimes_apart_fails :
    ∃ p q : Policy, policyFingerprint p = policyFingerprint q ∧ p ≠ q := by
  refine ⟨looserPolicy (3 / 200), looserPolicy (15001 / 1000000), by
    decide +kernel, fun same => ?_⟩
  have edges : PyFloat.finite (3 / 200) = PyFloat.finite (15001 / 1000000) :=
    congrArg Policy.valueMinEdge same
  exact absurd edges (by decide +kernel)

end SharpEvPicks.Pipeline
