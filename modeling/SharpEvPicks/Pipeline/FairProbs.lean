import SharpEvPicks.Edge.Spreads
import SharpEvPicks.Edge.Value
import SharpEvPicks.Pipeline.Snapshots

/-! Fair probabilities of every market of a cycle, `event_fair_probs` of `app/pipeline.py`. -/
namespace SharpEvPicks.Pipeline

open Python Edge Probabilities

/-- Markets whose outcomes are exclusive and exhaustive. -/
def directMarkets : List Market := [.h2h, .totals, .btts, .dnb, .spreads]

/-- The anchored 1X2 of an event, kept for its double chance. -/
structure ThreeWay where
  book : Str
  fair : Dict Str ℚ
  selections : List Str
  fellBack : Bool

/-- The result of `event_fair_probs`, its `out` parameters and its two locals. -/
structure Fairs where
  fair : Dict MarketKey (Str × Dict Str ℚ) := Dict.empty
  fellBack : Dict MarketKey Bool := Dict.empty
  miss : Dict MarketKey SharpMiss := Dict.empty
  threeWay : Dict Str ThreeWay := Dict.empty
  h2hMiss : Dict Str SharpMiss := Dict.empty

section
variable [Unicode]

def anchorOptions (method : DevigMethod) (policy : ValuePolicy) (liquidity : Dict MarketKey Prices)
    (demoted : List Str) (key : MarketKey) : AnchorOptions where
  devigMethod := devigMethodFor policy key.2.1 key.2.2 method
  consensusLogitPool := policy.consensusLogitPool
  liquidity := liquidity.get? key
  exchangeMinLiquidity := policy.exchangeMinLiquidity
  exchangeDemoted := key.2.1 = .h2h && key.1 ∈ demoted

omit [Unicode] in
def Fairs.record (out : Fairs) (key : MarketKey) (prices : Prices)
    (result : Option Anchored × Option SharpMiss) : Fairs :=
  let out := match result.2 with
    | none => out
    | some miss =>
      { out with
        miss := out.miss.set key miss
        h2hMiss := if key.2.1 = .h2h then out.h2hMiss.set key.1 miss else out.h2hMiss }
  match result.1 with
  | none => out
  | some anchored =>
    { out with
      fair := out.fair.set key (anchored.book, anchored.fair)
      fellBack := out.fellBack.set key anchored.fellBack
      threeWay :=
        if key.2.1 = .h2h ∧ prices.entries.length = 3 then
          out.threeWay.set key.1 ⟨anchored.book, anchored.fair, prices.keys, anchored.fellBack⟩
        else out.threeWay }

variable [Numerics ℚ]

def fairStep (options : MarketKey → AnchorOptions) (out : Fairs) (entry : MarketKey × Group) :
    Except DevigError Fairs :=
  let (key, group) := entry
  if key.2.1 ∉ directMarkets then .ok out
  else if key.2.1 = .spreads ∧ ¬ spreadPairCoherent group.prices.keys then
    .ok { out with miss := out.miss.set key .spreadPairIncoherent }
  else (anchorFairProbs (options key) group.prices).map (out.record key group.prices)

omit [Unicode] [Numerics ℚ] in
/-- One pass of the second loop: a double chance from the event's canonical 1X2. -/
def doubleChanceStep (out : Fairs) (key : MarketKey) : Fairs :=
  if key.2.1 ≠ .doubleChance then out
  else
    match out.threeWay.get? key.1 with
    | none => out
    | some anchored =>
      match anchored.selections with
      | [home, middle, away] =>
        if middle ≠ "Draw".toList then out
        else
          let fair := doubleChanceFair anchored.fair home away
          if fair.entries = [] then out
          else
            { out with
              fair := out.fair.set key (anchored.book, fair)
              fellBack := out.fellBack.set key anchored.fellBack
              miss := match out.h2hMiss.get? key.1 with
                | none => out.miss
                | some miss => out.miss.set key miss }
      | _ => out

def eventFairProbs (grouped : GroupedMarkets) (method : DevigMethod) (policy : ValuePolicy)
    (liquidity : Dict MarketKey Prices) (demoted : List Str) : Except DevigError Fairs :=
  (grouped.entries.foldlM (fairStep (anchorOptions method policy liquidity demoted)) {}).map
    fun out => grouped.keys.foldl doubleChanceStep out

def anchoring (options : MarketKey → AnchorOptions) (key : MarketKey) (group : Group) :
    Except DevigError (Option Anchored) :=
  if key.2.1 ∉ directMarkets then .ok none
  else if key.2.1 = .spreads ∧ ¬ spreadPairCoherent group.prices.keys then .ok none
  else (anchorFairProbs (options key) group.prices).map Prod.fst

omit [Unicode] [Numerics ℚ] in
theorem record_fair (out : Fairs) (key key' : MarketKey) (prices : Prices)
    (result : Option Anchored × Option SharpMiss) :
    (out.record key prices result).fair.get? key' =
        (if key' = key then result.1.map fun a => (a.book, a.fair) else none).or
          (out.fair.get? key') ∧
      (out.record key prices result).fellBack.get? key' =
        (if key' = key then result.1.map Anchored.fellBack else none).or
          (out.fellBack.get? key') := by
  obtain ⟨result, miss⟩ := result
  cases result with
  | none => cases miss <;> simp [Fairs.record]
  | some a =>
    by_cases same : key' = key
    · cases miss <;> simp [Fairs.record, same]
    · cases miss <;> simp [Fairs.record, same, Dict.get?_set_ne _ same]

theorem fairStep_get {options : MarketKey → AnchorOptions} {out out' : Fairs} {key : MarketKey}
    {group : Group} (ran : fairStep options out (key, group) = .ok out') :
    ∃ result, anchoring options key group = .ok result ∧ ∀ key',
      out'.fair.get? key' =
          (if key' = key then result.map fun a => (a.book, a.fair) else none).or
            (out.fair.get? key') ∧
        out'.fellBack.get? key' =
          (if key' = key then result.map Anchored.fellBack else none).or
            (out.fellBack.get? key') := by
  simp only [fairStep] at ran
  split at ran
  · rename_i indirect
    cases ran
    exact ⟨none, by rw [anchoring, if_pos indirect], by simp⟩
  · rename_i direct
    split at ran
    · rename_i incoherent
      cases ran
      exact ⟨none, by rw [anchoring, if_neg direct, if_pos incoherent], by simp⟩
    · rename_i coherent
      cases priced : anchorFairProbs (options key) group.prices with
      | error e =>
        rw [priced] at ran
        cases ran
      | ok result =>
        rw [priced] at ran
        cases ran
        refine ⟨result.1, ?_, fun key' => record_fair out key key' group.prices result⟩
        rw [anchoring, if_neg direct, if_neg coherent, priced]
        rfl

theorem foldlM_fairStep {options : MarketKey → AnchorOptions}
    {entries : List (MarketKey × Group)} (nodup : (entries.map Prod.fst).Nodup)
    {start out : Fairs} (ran : entries.foldlM (fairStep options) start = .ok out) :
    (∀ key ∉ entries.map Prod.fst, out.fair.get? key = start.fair.get? key ∧
        out.fellBack.get? key = start.fellBack.get? key) ∧
      ∀ key group, (key, group) ∈ entries →
        ∃ result, anchoring options key group = .ok result ∧
        out.fair.get? key = (result.map fun a => (a.book, a.fair)).or (start.fair.get? key) ∧
        out.fellBack.get? key = (result.map Anchored.fellBack).or (start.fellBack.get? key) := by
  induction entries generalizing start with
  | nil =>
    cases ran
    simp
  | cons entry rest ih =>
    obtain ⟨first, group₁⟩ := entry
    obtain ⟨fresh, tail⟩ := List.nodup_cons.mp nodup
    rw [List.foldlM_cons] at ran
    cases stepped : fairStep options start (first, group₁) with
    | error e =>
      rw [stepped] at ran
      cases ran
    | ok next =>
      rw [stepped] at ran
      obtain ⟨others, own⟩ := ih tail ran
      obtain ⟨result, anchored, values⟩ := fairStep_get stepped
      constructor
      · intro key outside
        simp only [List.map_cons, List.mem_cons, not_or] at outside
        have unchanged := values key
        simp only [outside.1, if_false, Option.none_or] at unchanged
        rw [(others key outside.2).1, (others key outside.2).2]
        exact unchanged
      · intro key group inside
        obtain ⟨rfl, rfl⟩ | later := by simpa using inside
        · refine ⟨result, anchored, ?_⟩
          have set := values key
          simp only [if_true] at set
          rw [(others key fresh).1, (others key fresh).2]
          exact set
        · obtain ⟨result', anchored', fair, fellBack⟩ := own key group later
          have ne : key ≠ first := by
            rintro rfl
            exact fresh (List.mem_map.mpr ⟨_, later, rfl⟩)
          have unchanged := values key
          simp only [ne, if_false, Option.none_or] at unchanged
          exact ⟨result', anchored', by rw [fair, unchanged.1], by rw [fellBack, unchanged.2]⟩

/-- The 1X2 that a group leaves behind for an event's double chance. -/
def threeWayOf (options : MarketKey → AnchorOptions) (event : Str) (entry : MarketKey × Group) :
    Option ThreeWay :=
  if entry.1.1 = event ∧ entry.1.2.1 = .h2h ∧ entry.2.prices.entries.length = 3 then
    (anchoring options entry.1 entry.2).toOption.join.map fun a =>
      ⟨a.book, a.fair, entry.2.prices.keys, a.fellBack⟩
  else none

omit [Unicode] [Numerics ℚ] in
theorem record_threeWay (out : Fairs) (key : MarketKey) (event : Str) (prices : Prices)
    (result : Option Anchored × Option SharpMiss) :
    (out.record key prices result).threeWay.get? event =
      (if key.1 = event ∧ key.2.1 = .h2h ∧ prices.entries.length = 3 then
        result.1.map fun a => ThreeWay.mk a.book a.fair prices.keys a.fellBack
      else none).or (out.threeWay.get? event) := by
  obtain ⟨result, miss⟩ := result
  cases result with
  | none => cases miss <;> simp [Fairs.record]
  | some a =>
    by_cases canonical : key.2.1 = .h2h ∧ prices.entries.length = 3
    · by_cases same : key.1 = event
      · cases miss <;> simp [Fairs.record, canonical, same]
      · cases miss <;> simp [Fairs.record, canonical, same, Dict.get?_set_ne _ (Ne.symm same)]
    · have other : ¬ (key.1 = event ∧ key.2.1 = .h2h ∧ prices.entries.length = 3) :=
        fun all => canonical all.2
      rw [if_neg other]
      cases miss <;> simp [Fairs.record, canonical]

theorem fairStep_threeWay {options : MarketKey → AnchorOptions} {out out' : Fairs}
    {entry : MarketKey × Group} (ran : fairStep options out entry = .ok out') (event : Str) :
    out'.threeWay.get? event = (threeWayOf options event entry).or (out.threeWay.get? event) := by
  obtain ⟨key, group⟩ := entry
  unfold threeWayOf anchoring
  simp only [fairStep] at ran
  split at ran
  · rename_i indirect
    cases ran
    simp [indirect, Except.toOption]
  · rename_i direct
    split at ran
    · rename_i incoherent
      cases ran
      simp [incoherent]
    · rename_i coherent
      cases priced : anchorFairProbs (options key) group.prices with
      | error e =>
        rw [priced] at ran
        cases ran
      | ok result =>
        rw [priced] at ran
        cases ran
        rw [if_neg direct, if_neg coherent, record_threeWay]
        rfl

theorem foldlM_threeWay {options : MarketKey → AnchorOptions}
    {entries : List (MarketKey × Group)} {start out : Fairs}
    (ran : entries.foldlM (fairStep options) start = .ok out) (event : Str) :
    out.threeWay.get? event =
      (((entries.filter fun entry => (threeWayOf options event entry).isSome).getLast?).bind
        (threeWayOf options event)).or (start.threeWay.get? event) := by
  induction entries generalizing start with
  | nil =>
    cases ran
    rfl
  | cons entry rest ih =>
    rw [List.foldlM_cons] at ran
    cases stepped : fairStep options start entry with
    | error e =>
      rw [stepped] at ran
      cases ran
    | ok next =>
      rw [stepped] at ran
      rw [ih ran, fairStep_threeWay stepped, ← Option.or_assoc]
      congr 1
      cases here : threeWayOf options event entry with
      | none => simp [here]
      | some threeWay =>
        rw [List.filter_cons_of_pos (by rw [here]; rfl), List.getLast?_cons]
        cases last : (rest.filter fun e => (threeWayOf options event e).isSome).getLast? with
        | none => simp [here]
        | some later =>
          have kept := List.mem_of_getLast? last
          obtain ⟨value, found⟩ := Option.isSome_iff_exists.mp (List.mem_filter.mp kept).2
          simp [found]

end
end SharpEvPicks.Pipeline
