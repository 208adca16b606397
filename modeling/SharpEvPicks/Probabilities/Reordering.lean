import Mathlib.Tactic.Ring
import SharpEvPicks.Probabilities.Devig

/-! A devig gives each outcome a probability that depends on its own price and on the prices of
the market as a whole, never on their order. -/
namespace SharpEvPicks.Probabilities

variable {K : Type*}

/-- What two listings of one market get: the same error, or shares by one function of a price
and the same reason. -/
inductive Reordered {ρ : Type*} (l l' : List K) :
    Except DevigError (List K × ρ) → Except DevigError (List K × ρ) → Prop
  | error (e : DevigError) : Reordered l l' (.error e) (.error e)
  | ok (share : K → K) (reason : ρ) : Reordered l l'
      (.ok (l.map share, reason)) (.ok (l'.map share, reason))

section Shares
variable {q q' : List K}

theorem Reordered.of_map {ρ : Type*} {odds odds' : List K} {f : K → K}
    {r r' : Except DevigError (List K × ρ)} (shares : Reordered (odds.map f) (odds'.map f) r r') :
    Reordered odds odds' r r' := by
  cases shares with
  | error e => exact .error e
  | ok share reason =>
    rw [List.map_map, List.map_map]
    exact .ok _ reason

theorem unchanged_reordered {ρ : Type*} (reason : ρ) :
    Reordered q q' (.ok (q, reason)) (.ok (q', reason)) := by
  have same : Reordered q q' (.ok (q.map id, reason)) (.ok (q'.map id, reason)) := .ok _ _
  simpa only [List.map_id] using same

theorem any_map_perm (perm : q.Perm q') (f : K → K) (p : K → Bool) :
    (q.map f).any p = (q'.map f).any p := (perm.map f).any_eq

variable [Field K]

theorem sum_map_perm (perm : q.Perm q') (f : K → K) : (q.map f).sum = (q'.map f).sum :=
  (perm.map f).sum_eq

theorem Reordered.normalized {ρ σ : Type*} (perm : q.Perm q')
    {r r' : Except DevigError (List K × ρ)} (shares : Reordered q q' r r') (report : ρ → σ) :
    Reordered q q' (r.map fun (p, reason) => (p.map (· / p.sum), report reason))
      (r'.map fun (p, reason) => (p.map (· / p.sum), report reason)) := by
  cases shares with
  | error e => exact .error e
  | ok share reason =>
    simp only [Except.map, List.map_map, (perm.map share).sum_eq]
    exact .ok _ _

theorem multiplicative_reordered (perm : q.Perm q') {ρ : Type*} (reason : ρ) :
    Reordered q q' (.ok (multiplicative q, reason)) (.ok (multiplicative q', reason)) := by
  unfold multiplicative
  rw [perm.sum_eq]
  exact .ok _ reason

variable [LinearOrder K]

theorem isFair_perm (perm : q.Perm q') : isFair q ↔ isFair q' := by
  unfold isFair
  rw [perm.sum_eq]

theorem additive_reordered (perm : q.Perm q') :
    Reordered q q' (.ok (additive q)) (.ok (additive q')) := by
  unfold additive
  simp only [perm.sum_eq, perm.length_eq, any_map_perm perm]
  split
  · exact multiplicative_reordered perm _
  · exact .ok _ _

theorem differentialMargin_reordered {odds odds' : List K} (perm : odds.Perm odds') :
    Reordered odds odds' (.ok (differentialMargin odds (odds.map fun o => 1 / o)))
      (.ok (differentialMargin odds' (odds'.map fun o => 1 / o))) := by
  unfold differentialMargin
  simp only [sum_map_perm perm, perm.length_eq, any_map_perm perm]
  split
  · exact (multiplicative_reordered (perm.map _) _).of_map
  · split
    · exact (multiplicative_reordered (perm.map _) _).of_map
    · exact .ok _ _

variable [Numerics K]

theorem power_reordered (perm : q.Perm q') : Reordered q q' (.ok (power q)) (.ok (power q')) := by
  unfold power
  simp only [isFair_perm perm, sum_map_perm perm]
  split
  · exact unchanged_reordered _
  · split
    · exact multiplicative_reordered perm _
    · split
      · exact .ok _ _
      · exact multiplicative_reordered perm _

theorem shifted_reordered (perm : q.Perm q') (toScale ofScale : K → K)
    (failed : DevigFallbackReason) :
    Reordered q q' (shifted toScale ofScale failed q) (shifted toScale ofScale failed q') := by
  unfold shifted
  simp only [isFair_perm perm, List.map_map, sum_map_perm perm]
  split
  · exact unchanged_reordered _
  · split
    · exact .error _
    · exact multiplicative_reordered perm _
    · exact .ok _ _

theorem logarithmic_reordered (perm : q.Perm q') :
    Reordered q q' (logarithmic q) (logarithmic q') := shifted_reordered perm _ _ _

theorem goto_reordered (perm : q.Perm q') : Reordered q q' (.ok (goto q)) (.ok (goto q')) := by
  unfold goto
  simp only [isFair_perm perm, sum_map_perm perm, any_map_perm perm, perm.sum_eq]
  split
  · exact unchanged_reordered _
  · split
    · exact multiplicative_reordered perm _
    · exact .ok _ _

theorem shin_pair {x y u v : K} (perm : [x, y].Perm [u, v])
    (square : (u - v) * (u - v) = (x - y) * (x - y)) :
    Reordered [x, y] [u, v] (.ok (shin [x, y])) (.ok (shin [u, v])) := by
  unfold shin
  simp only [isFair_perm perm, perm.sum_eq, square]
  split
  · split
    · exact unchanged_reordered _
    · exact multiplicative_reordered perm _
  · split
    · exact multiplicative_reordered perm _
    · exact .ok _ _

theorem shin_many (many : q.length ≠ 2) :
    shin q =
      if q.sum ≤ 1 + 1 / 10 ^ 12 then
        if isFair q then (q, none) else (multiplicative q, some .shinUnderround)
      else if 0 < (q.map (shinProb q.sum (999 / 1000))).sum - 1 then
        (multiplicative q, some .shinSolveFailed)
      else
        match Numerics.brentq (fun z => (q.map (shinProb q.sum z)).sum - 1) 0 (999 / 1000) with
        | .ok z => (q.map (shinProb q.sum z), none)
        | .error _ => (multiplicative q, some .shinSolveFailed) := by
  match q, many with
  | [], _ => rfl
  | [_], _ => rfl
  | [_, _], many => exact absurd rfl many
  | _ :: _ :: _ :: _, _ => rfl

omit [Field K] [LinearOrder K] [Numerics K] in
theorem pair_of_perm {x y u v : K} (perm : [x, y].Perm [u, v]) :
    (u = x ∧ v = y) ∨ (u = y ∧ v = x) := by
  have first := perm.mem_iff.mp (List.mem_cons_self : x ∈ [x, y])
  obtain rfl | rfl : x = u ∨ x = v := by simpa using first
  · have rest := List.perm_cons x |>.mp perm
    exact .inl ⟨rfl, (List.singleton_perm_singleton.mp rest).symm⟩
  · have rest := List.perm_cons x |>.mp (perm.trans (.swap _ _ _))
    exact .inr ⟨(List.singleton_perm_singleton.mp rest).symm, rfl⟩

theorem shin_reordered (perm : q.Perm q') : Reordered q q' (.ok (shin q)) (.ok (shin q')) := by
  by_cases pair : q.length = 2
  · obtain ⟨x, y, rfl⟩ := List.length_eq_two.mp pair
    obtain ⟨u, v, rfl⟩ := List.length_eq_two.mp (perm.length_eq ▸ pair)
    apply shin_pair perm
    obtain ⟨rfl, rfl⟩ | ⟨rfl, rfl⟩ := pair_of_perm perm
    · rfl
    · ring
  · rw [shin_many pair, shin_many (perm.length_eq ▸ pair)]
    simp only [isFair_perm perm, perm.sum_eq, sum_map_perm perm]
    split
    · split
      · exact unchanged_reordered _
      · exact multiplicative_reordered perm _
    · split
      · exact multiplicative_reordered perm _
      · cases Numerics.brentq (fun z => (q'.map (shinProb q'.sum z)).sum - 1) 0 (999 / 1000) with
        | ok z => exact .ok _ _
        | error e => exact multiplicative_reordered perm _

theorem methodShares_reordered (method : DevigMethod) {odds odds' : List K}
    (perm : odds.Perm odds') :
    Reordered odds odds' (methodShares method odds (odds.map fun o => 1 / o))
      (methodShares method odds' (odds'.map fun o => 1 / o)) := by
  have inverses := perm.map fun o : K => 1 / o
  cases method with
  | multiplicative => exact (multiplicative_reordered inverses _).of_map
  | additive => exact (additive_reordered inverses).of_map
  | power => exact (power_reordered inverses).of_map
  | shin => exact (shin_reordered inverses).of_map
  | probit => exact (shifted_reordered inverses _ _ _).of_map
  | oddsRatio => exact (logarithmic_reordered inverses).of_map
  | logarithmic => exact (logarithmic_reordered inverses).of_map
  | differentialMargin => exact differentialMargin_reordered perm
  | goto => exact (goto_reordered inverses).of_map

theorem devigWithDiagnostics_reordered (method : DevigMethod) {odds odds' : List K}
    (perm : odds.Perm odds') :
    Reordered odds odds' (devigWithDiagnostics odds method)
      (devigWithDiagnostics odds' method) := by
  unfold devigWithDiagnostics
  rw [perm.length_eq, perm.any_eq]
  split
  · exact .error _
  · split
    · exact .error _
    · exact (methodShares_reordered method perm).normalized perm id

end Shares
end SharpEvPicks.Probabilities
