import Mathlib.Order.Lattice
import SharpEvPicks.Python.Dict

/-! A gate that remembers the last value of each key and lets only changes through, ahead of the
write of what it let through. -/
namespace Transition.ChangeGate

open Python

variable {κ ν ρ : Type*} [DecidableEq κ] [DecidableEq ν] (key : ρ → κ) (value : ρ → ν)

/-- One row: through if the gate does not hold its value. -/
def offer (state : Dict κ ν × List ρ) (row : ρ) : Dict κ ν × List ρ :=
  if state.1.get? (key row) = some (value row) then state
  else (state.1.set (key row) (value row), state.2 ++ [row])

/-- One key back to its earlier value, `none` where the gate had none. -/
def restoreOne (gate : Dict κ ν) (entry : κ × Option ν) : Dict κ ν :=
  match entry.2 with
  | none => gate.pop entry.1
  | some v => gate.set entry.1 v

def restore (gate : Dict κ ν) (prior : Dict κ (Option ν)) : Dict κ ν :=
  prior.entries.foldl restoreOne gate

/-- What the gate holds, it held before or a row brought. -/
def Brought (before gate : Dict κ ν) (rows : List ρ) : Prop :=
  ∀ k v, gate.get? k = some v → before.get? k = some v ∨ ∃ row ∈ rows, key row = k ∧
    value row = v

variable {key value} {before gate : Dict κ ν} {rows : List ρ}

omit [DecidableEq ν] in
theorem get?_restoreOne (gate : Dict κ ν) (entry : κ × Option ν) (k : κ) :
    (restoreOne gate entry).get? k = if k = entry.1 then entry.2 else gate.get? k := by
  unfold restoreOne
  cases entry.2 with
  | none => exact gate.get?_pop _ _
  | some v => exact gate.get?_set _ _ _

omit [DecidableEq ν] in
theorem get?_restore (gate : Dict κ ν) (prior : Dict κ (Option ν)) (k : κ) :
    (restore gate prior).get? k = (prior.get? k).getD (gate.get? k) := by
  obtain ⟨entries, nodup⟩ := prior
  change (entries.foldl restoreOne gate).get? k = (Dict.find entries k).getD (gate.get? k)
  induction entries generalizing gate with
  | nil => rfl
  | cons e entries ih =>
    obtain ⟨fresh, tail⟩ := List.nodup_cons.mp nodup
    have first : Dict.find (e :: entries) k = if e.1 = k then some e.2 else Dict.find entries k :=
      rfl
    rw [List.foldl_cons, ih _ tail, get?_restoreOne, first]
    by_cases here : e.1 = k
    · have absent : Dict.find entries k = none := by
        by_contra there
        obtain ⟨v, found⟩ := Option.ne_none_iff_exists'.mp there
        exact fresh (List.mem_map.mpr ⟨_, (Dict.find_eq_some_iff tail).mp found, here.symm⟩)
      simp [here, absent]
    · simp [here, Ne.symm here]

omit [DecidableEq ν] in
theorem Brought.refl : Brought key value gate gate rows := fun _ _ held => .inl held

omit [DecidableEq ν] in
/-- Fewer entries, more rows. -/
theorem Brought.mono {gate' : Dict κ ν} {rows' : List ρ}
    (brought : Brought key value before gate rows)
    (fewer : ∀ k v, gate'.get? k = some v → gate.get? k = some v)
    (more : ∀ row ∈ rows, row ∈ rows') : Brought key value before gate' rows' := by
  intro k v held
  obtain old | ⟨row, brought, same⟩ := brought k v (fewer k v held)
  · exact .inl old
  · exact .inr ⟨row, more row brought, same⟩

/-! A step of a gate lets a row through and remembers its value, or does nothing. -/

def Gates (key : ρ → κ) (value : ρ → ν)
    (step : Dict κ ν × List ρ → ρ → Dict κ ν × List ρ) : Prop :=
  ∀ state row, step state row = state ∨
    step state row = (state.1.set (key row) (value row), state.2 ++ [row])

theorem offer_gates : Gates key value (offer key value) := by
  intro state row
  unfold offer
  split
  · exact .inl rfl
  · exact .inr rfl

variable {step : Dict κ ν × List ρ → ρ →
  Dict κ ν × List ρ} {state : Dict κ ν × List ρ}

omit [DecidableEq ν] in
theorem Gates.brought (gates : Gates key value step)
    (brought : Brought key value before state.1 state.2) (row : ρ) :
    Brought key value before (step state row).1 (step state row).2 := by
  obtain same | through := gates state row
  · rw [same]
    exact brought
  · rw [through]
    intro k v held
    rw [Dict.get?_set] at held
    split at held
    · rename_i here
      exact .inr ⟨row, List.mem_append_right _ (List.mem_singleton_self _), here.symm,
        Option.some.inj held⟩
    · exact brought.mono (fun _ _ held => held) (fun _ old => List.mem_append_left _ old) k v held

omit [DecidableEq ν] in
theorem Gates.broughtAll (gates : Gates key value step) (l : List ρ)
    (brought : Brought key value before state.1 state.2) :
    Brought key value before (l.foldl step state).1 (l.foldl step state).2 := by
  induction l generalizing state with
  | nil => exact brought
  | cons row l ih => exact ih (gates.brought brought row)

omit [DecidableEq ν] in
theorem Gates.mem (gates : Gates key value step) (l : List ρ) (state : Dict κ ν × List ρ) :
    (∀ row ∈ state.2, row ∈ (l.foldl step state).2) ∧
      ∀ row ∈ (l.foldl step state).2, row ∈ state.2 ∨ row ∈ l := by
  induction l generalizing state with
  | nil => exact ⟨fun _ inside => inside, fun _ inside => .inl inside⟩
  | cons row l ih =>
    obtain ⟨kept, known⟩ := ih (step state row)
    have grown : (step state row).2 = state.2 ∨ (step state row).2 = state.2 ++ [row] :=
      (gates state row).imp (congrArg Prod.snd) (congrArg Prod.snd)
    constructor
    · intro old inside
      apply kept
      obtain same | same := grown <;> rw [same]
      · exact inside
      · exact List.mem_append_left _ inside
    · intro through inside
      obtain earlier | rest := known through inside
      · obtain same | same := grown <;> rw [same] at earlier
        · exact .inl earlier
        · obtain old | new := List.mem_append.mp earlier
          · exact .inl old
          · exact .inr (List.mem_cons.mpr (.inl (List.mem_singleton.mp new)))
      · exact .inr (List.mem_cons_of_mem _ rest)

omit [DecidableEq ν] in
theorem Brought.trans {after : Dict κ ν} {rows' : List ρ}
    (first : Brought key value before gate rows) (second : Brought key value gate after rows') :
      Brought key value before after (rows ++ rows') := by
  intro k v held
  obtain old | ⟨row, brought, same⟩ := second k v held
  · exact first.mono (fun _ _ held => held) (fun _ inside => List.mem_append_left _ inside) k v old
  · exact .inr ⟨row, List.mem_append_right _ brought, same⟩

/-- The value of each row was held before, or comes through with this row or an equal one. -/
theorem Brought.through_all {l : List ρ}
    (brought : Brought key value before state.1 state.2) {row : ρ} (inside : row ∈ l) :
    before.get? (key row) = some (value row) ∨
      ∃ through ∈ (l.foldl (ChangeGate.offer key value) state).2, key through = key row ∧
        value through = value row := by
  obtain ⟨l₁, l₂, rfl⟩ := List.append_of_mem inside
  rw [List.foldl_append, List.foldl_cons]
  have early := offer_gates.broughtAll l₁ brought
  generalize l₁.foldl (ChangeGate.offer key value) state = middle at early
  by_cases held : middle.1.get? (key row) = some (value row)
  · obtain old | ⟨through, there, same⟩ := early _ _ held
    · exact .inl old
    · have stays : (ChangeGate.offer key value middle row) = middle := by
        unfold ChangeGate.offer
        rw [if_pos held]
      rw [stays]
      exact .inr ⟨through, (offer_gates.mem l₂ middle).1 through there, same⟩
  · have added : row ∈ (ChangeGate.offer key value middle row).2 := by
      unfold ChangeGate.offer
      rw [if_neg held]
      exact List.mem_append_right _ (List.mem_singleton_self _)
    exact .inr ⟨row, (offer_gates.mem l₂ _).1 row added, rfl, rfl⟩

omit [DecidableEq ν] in
/-- Once every key that a row touched is back, the gate holds what it held before. -/
theorem Brought.restored {prior : Dict κ (Option ν)}
    (brought : Brought key value before gate rows)
    (touched : ∀ row ∈ rows, (prior.get? (key row)).isSome)
    (earlier : ∀ k v, prior.get? k = some (some v) → before.get? k = some v) {k : κ} {v : ν}
    (held : (prior.get? k).getD (gate.get? k) = some v) : before.get? k = some v := by
  cases noted : prior.get? k with
  | some old =>
    rw [noted] at held
    exact earlier k v (noted.trans (congrArg some held))
  | none =>
    rw [noted] at held
    obtain old | ⟨row, inside, rfl, -⟩ := brought k v held
    · exact old
    · have there := touched row inside
      rw [noted] at there
      cases there

theorem offerAll_held {l : List ρ}
    (held : ∀ row ∈ l, state.1.get? (key row) = some (value row)) :
      l.foldl (offer key value) state = state := by
  induction l generalizing state with
  | nil => rfl
  | cons row l ih =>
    obtain ⟨first, rest⟩ := List.forall_mem_cons.mp held
    have stays : offer key value state row = state := by
      unfold offer
      rw [if_pos first]
    rw [List.foldl_cons, stays]
    exact ih rest

/-! A gate over versions lets through what is newer than the version that it holds. -/

section
variable {ν : Type*} [LinearOrder ν] (oldest : ν) (key : ρ → κ) (value : ρ → ν)

def offerNewer (state : Dict κ ν × List ρ) (row : ρ) : Dict κ ν × List ρ :=
  if value row ≤ (state.1.get? (key row)).getD oldest then state
  else (state.1.set (key row) (value row), state.2 ++ [row])

variable {oldest key value} {before : Dict κ ν}

theorem offerNewer_gates : Gates key value (offerNewer oldest key value) := by
  intro state row
  unfold offerNewer
  split
  · exact .inl rfl
  · exact .inr rfl

/-- Where versions only rise, each row's version was held before, or comes through. -/
theorem Brought.newer_through {l : List ρ} {row : ρ} (inside : row ∈ l)
    (rises : l.Pairwise fun a b => key a = key b → value a ≤ value b)
    (young : oldest < value row)
    (above : ∀ v, before.get? (key row) = some v → v ≤ value row) :
    before.get? (key row) = some (value row) ∨
      ∃ through ∈ (l.foldl (offerNewer oldest key value) (before, [])).2,
        key through = key row ∧ value through = value row := by
  obtain ⟨l₁, l₂, rfl⟩ := List.append_of_mem inside
  rw [List.foldl_append, List.foldl_cons]
  have start : Brought key value before (before, ([] : List ρ)).1 (before, ([] : List ρ)).2 :=
    .refl
  have early := (@offerNewer_gates κ ρ _ ν _ oldest key value).broughtAll l₁ start
  have known := ((@offerNewer_gates κ ρ _ ν _ oldest key value).mem l₁ (before, [])).2
  generalize l₁.foldl (offerNewer oldest key value) (before, []) = middle at early known
  by_cases old : value row ≤ (middle.1.get? (key row)).getD oldest
  · have stays : offerNewer oldest key value middle row = middle := if_pos old
    cases held : middle.1.get? (key row) with
    | none =>
      rw [held] at old
      exact absurd old (not_le.mpr young)
    | some v =>
      rw [held, Option.getD_some] at old
      obtain first | ⟨through, there, same, rfl⟩ := early _ _ held
      · exact .inl (first.trans (congrArg some (le_antisymm (above v first) old)))
      · have earlier : through ∈ l₁ := (known through there).resolve_left List.not_mem_nil
        have rising := (List.pairwise_append.mp rises).2.2 through earlier row
          List.mem_cons_self same
        rw [stays]
        exact .inr ⟨through, (offerNewer_gates.mem l₂ middle).1 through there, same,
          le_antisymm rising old⟩
  · have added : row ∈ (offerNewer oldest key value middle row).2 := by
      unfold offerNewer
      rw [if_neg old]
      exact List.mem_append_right _ (List.mem_singleton_self _)
    exact .inr ⟨row, (offerNewer_gates.mem l₂ _).1 row added, rfl, rfl⟩

end

end Transition.ChangeGate
