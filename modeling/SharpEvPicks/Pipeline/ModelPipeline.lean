import Mathlib.Data.Char
import Mathlib.Data.List.Lex
import SharpEvPicks.Pipeline.ValuePipeline
import SharpEvPicks.Probabilities.Reordering
import SharpEvPicks.Python.Lookups
import SharpEvPicks.Python.Sorting
import SharpEvPicks.Transition.Guarded

/-! The model strategy, `_fair_probabilities` and `run_pick_pipeline` of `app/pipeline.py` up to the
gates. -/
namespace SharpEvPicks.Pipeline

open Python Probabilities Transition

/-- Event, bookmaker, market and line of a book. -/
abbrev BookKey := Str × Str × Market × Option Str

/-- Event, bookmaker, market and selection of a fair probability. -/
abbrev FairKey := Str × Str × Market × Str

def Snapshot.bookKey (s : Snapshot) : BookKey := (s.eventId, s.bookmaker, s.market, s.marketDetail)

def Snapshot.fairKey (s : Snapshot) : FairKey := (s.eventId, s.bookmaker, s.market, s.selection)

def books (snapshots : List Snapshot) : Dict BookKey (List Snapshot) :=
  snapshots.foldl (fun books s => books.modify s.bookKey fun legs => legs.getD [] ++ [s]) Dict.empty

section Fair
variable [Numerics ℚ] {ν : Type*} (store : BookKey → ℚ → ν) (method : DevigMethod)

/-- One pass over the books; `store` is what is kept of a probability. -/
def bookStep (fair : Dict FairKey ν) (book : BookKey × List Snapshot) :
    Except DevigError (Dict FairKey ν) :=
  if book.2.length < 2 then .ok fair
  else (devigWithDiagnostics (book.2.map (·.decimalOdds)) method).map fun devigged =>
    (book.2.zip devigged.1).foldl
      (fun fair leg => fair.set (book.1.1, book.1.2.1, book.1.2.2.1,
        leg.1.selection) (store book.1 leg.2)) fair

def fairLoop (snapshots : List Snapshot) : Except DevigError (Dict FairKey ν) :=
  (books snapshots).entries.foldlM (bookStep store method) Dict.empty

def fairProbabilities (snapshots : List Snapshot) : Except DevigError (Dict FairKey ℚ) :=
  fairLoop (fun _ p => p) method snapshots

/-- The same loop, where each probability comes with the line of the book that it was devigged from.
-/
def fairSources (snapshots : List Snapshot) :
    Except DevigError (Dict FairKey (Option Str × ℚ)) :=
  fairLoop (fun book p => (book.2.2.2, p)) method snapshots

end Fair

structure PredictedProbability where
  market : Market
  selection : Str
  probability : ℚ
  confidence : ℚ

/-- `PickCandidate`; an infinite age is `none`. -/
structure PickCandidate where
  eventId : Str
  market : Str
  selection : Str
  decimalOdds : ℚ
  modelProbability : ℚ
  fairProbability : ℚ
  confidence : ℚ
  oddsAgeSeconds : Option ℚ
  liquidity : ℚ
  bookmaker : Str

/-- A complete cycle of the model strategy, with the kickoffs of its events. -/
structure ModelCycle where
  snapshots : List Snapshot
  kickoffs : Kickoffs
  now : Int
  devigMethod : DevigMethod := .power
  candidateFreshnessBasis : FreshnessBasis := .provider
  predict : Str → List PredictedProbability

namespace ModelCycle
variable (c : ModelCycle)

def priced : List Snapshot := dropPostKickoffSnapshots c.snapshots c.kickoffs

/-- The kickoff is known and still ahead. -/
def actionable (eventId : Str) : Bool := (c.kickoffs.of eventId).any (c.now < ·)

def eventIds : List Str := sortedBy id (c.priced.map (·.eventId)).dedup

def prediction (s : Snapshot) : Option PredictedProbability :=
  (Dict.ofList ((c.predict s.eventId).map fun p => ((p.market, p.selection), p))).get?
    (s.market, s.selection)

def candidate (s : Snapshot) (prediction : PredictedProbability) (fairP : ℚ) : PickCandidate where
  eventId := s.eventId
  market := s.market.value
  selection := s.selection
  decimalOdds := s.decimalOdds
  modelProbability := prediction.probability
  fairProbability := fairP
  confidence := prediction.confidence
  oddsAgeSeconds := candidateAgeSeconds c.now (some (freshnessTime c.candidateFreshnessBasis s))
  liquidity := s.liquidity.getD 0
  bookmaker := s.bookmaker

def evaluateSnapshot (fair : Dict FairKey ℚ) (s : Snapshot) :
    Option (Snapshot × PickCandidate) := do
  let prediction ← c.prediction s
  let fairP ← fair.get? s.fairKey
  pure (s, c.candidate s prediction fairP)

/-- What is handed to `evaluate`, with the snapshot that it is made from. -/
def evaluated [Numerics ℚ] : Except DevigError (List (Snapshot × PickCandidate)) :=
  (fairProbabilities c.devigMethod c.priced).map fun fair =>
    c.eventIds.flatMap fun eventId =>
      if c.actionable eventId then
        (c.priced.filter fun s => s.eventId = eventId).filterMap (c.evaluateSnapshot fair)
      else []

end ModelCycle

/-! What the loop leaves at a key. -/

/-- The legs of a book. -/
def legsOfBook (snapshots : List Snapshot) (key : BookKey) : List Snapshot :=
  snapshots.filter fun s => s.bookKey = key

section Loop
variable [Numerics ℚ] {ν : Type*}
  {store : BookKey → ℚ → ν} {method : DevigMethod} {snapshots : List Snapshot}

/-- The probability of a selection in a book of two legs or more. -/
def bookFair (method : DevigMethod) (legs : List Snapshot) (selection : Str) : Option ℚ :=
  if legs.length < 2 then none
  else
    ((devigWithDiagnostics (legs.map (·.decimalOdds)) method).toOption.bind fun devigged =>
      ((legs.zip devigged.1).filter fun leg => leg.1.selection = selection).getLast?).map Prod.snd

def entryFair (store : BookKey → ℚ → ν) (method : DevigMethod) (key : FairKey)
    (book : BookKey × List Snapshot) : Option ν :=
  if (book.1.1, book.1.2.1, book.1.2.2.1) = (key.1, key.2.1, key.2.2.1) then
    (bookFair method book.2 key.2.2.2).map (store book.1)
  else none

omit [Numerics ℚ] in
theorem get?_foldl_legs (book : BookKey) (legs : List (Snapshot × ℚ)) (fair : Dict FairKey ν)
    (key : FairKey) :
    (legs.foldl (fun fair leg =>
      fair.set (book.1, book.2.1, book.2.2.1, leg.1.selection) (store book leg.2)) fair).get? key =
      (if (book.1, book.2.1, book.2.2.1) = (key.1, key.2.1, key.2.2.1) then
        (((legs.filter fun leg => leg.1.selection = key.2.2.2).getLast?).map Prod.snd).map
        (store book)
      else none).or (fair.get? key) := by
  obtain ⟨event, bookmaker, market, selection⟩ := key
  induction legs generalizing fair with
  | nil => simp
  | cons leg legs ih =>
    rw [List.foldl_cons, ih, Dict.get?_set]
    by_cases own : (book.1, book.2.1, book.2.2.1) = (event, bookmaker, market)
    · obtain ⟨rfl, rfl, rfl⟩ : book.1 = event ∧ book.2.1 = bookmaker ∧
          book.2.2.1 = market := by
        simpa using own
      by_cases named : leg.1.selection = selection
      · subst named
        cases last : (legs.filter fun l => l.1.selection = leg.1.selection).getLast? with
        | none => simp [last, List.getLast?_cons]
        | some l => simp [last, List.getLast?_cons]
      · simp [named, Ne.symm named]
    · have other : ¬ (event, bookmaker, market, selection) =
          (book.1, book.2.1, book.2.2.1, leg.1.selection) := by
        intro same
        simp only [Prod.mk.injEq] at same own
        exact own ⟨same.1.symm, same.2.1.symm, same.2.2.1.symm⟩
      simp only [if_neg own, if_neg other]

theorem get?_bookStep {fair fair' : Dict FairKey ν} {book : BookKey × List Snapshot}
    (ran : bookStep store method fair book = .ok fair') (key : FairKey) :
    fair'.get? key = (entryFair store method key book).or (fair.get? key) := by
  unfold bookStep at ran
  unfold entryFair bookFair
  split at ran
  · rename_i short
    cases ran
    simp [short]
  · rename_i long
    cases devigged : devigWithDiagnostics (book.2.map (·.decimalOdds)) method with
    | error e =>
      rw [devigged] at ran
      cases ran
    | ok shares =>
      rw [devigged] at ran
      cases ran
      rw [if_neg long]
      exact get?_foldl_legs book.1 (book.2.zip shares.1) fair key

/-- The last book that has a probability for the key wins. -/
theorem get?_fairLoop {fair : Dict FairKey ν} (ran : fairLoop store method snapshots = .ok fair)
    (key : FairKey) :
    fair.get? key =
      ((books snapshots).entries.filter fun book =>
        (entryFair store method key book).isSome).getLast?.bind (entryFair store method key) := by
  have law (fair : Dict FairKey ν) (book : BookKey × List Snapshot) (fair' : Dict FairKey ν)
      (step : bookStep store method fair book = .ok fair') :
      fair'.get? key = (entryFair store method key book).or (fair.get? key) :=
        get?_bookStep step key
  have read := look_foldlM law ran
  rw [read, Dict.get?_empty, Option.or_none]

/-! Whether the loop raises does not depend on what it keeps. -/

/-- A book that is left out, or that can be devigged. -/
def Devigs (method : DevigMethod) (book : BookKey × List Snapshot) : Prop :=
  book.2.length < 2 ∨ ∃ devigged,
    devigWithDiagnostics (book.2.map (·.decimalOdds)) method = .ok devigged

theorem bookStep_guarded (store : BookKey → ℚ → ν) (method : DevigMethod) :
    Guarded (bookStep store method) (Devigs method) fun fair book =>
      (bookStep store method fair book).toOption.getD fair where
  ok := by
    intro fair book devigs
    unfold bookStep
    by_cases short : book.2.length < 2
    · rw [if_pos short]
      rfl
    · obtain ⟨devigged, done⟩ := devigs.resolve_left short
      rw [if_neg short, done]
      rfl
  error := by
    intro fair book stuck
    obtain ⟨long, raises⟩ := not_or.mp stuck
    unfold bookStep
    rw [if_neg long]
    cases done : devigWithDiagnostics (book.2.map (·.decimalOdds)) method with
    | error e => exact ⟨e, rfl⟩
    | ok devigged => exact absurd ⟨devigged, done⟩ raises

theorem fairLoop_ok_iff (store : BookKey → ℚ → ν) :
    (∃ fair, fairLoop store method snapshots = .ok fair) ↔
      ∀ book ∈ (books snapshots).entries, Devigs method book := by
  have loop := (bookStep_guarded store method).foldlM
  constructor
  · rintro ⟨fair, ran⟩
    by_contra stuck
    obtain ⟨e, raised⟩ := loop.error Dict.empty (books snapshots).entries stuck
    cases ran.symm.trans raised
  · intro devigs
    exact ⟨_, loop.ok Dict.empty (books snapshots).entries devigs⟩

theorem devig_length {odds : List ℚ} {shares : List ℚ} {reason : Option DevigFallbackReason}
    (done : devigWithDiagnostics odds method = .ok (shares, reason)) :
      shares.length = odds.length := by
  have reordered := devigWithDiagnostics_reordered method (List.Perm.refl odds)
  rw [done] at reordered
  cases reordered
  exact List.length_map _

/-- A book that can be devigged has a probability for what it quotes, if it has two legs. -/
theorem bookFair_isSome {legs : List Snapshot} {key : BookKey}
    (devigs : Devigs method (key, legs)) (selection : Str) :
    (bookFair method legs selection).isSome ↔ 2 ≤ legs.length ∧ ∃ leg ∈ legs,
      leg.selection = selection := by
  unfold bookFair
  by_cases short : legs.length < 2
  · rw [if_pos short]
    exact iff_of_false Bool.false_ne_true fun long => absurd long.1 (not_le.mpr short)
  · obtain ⟨⟨shares, reason⟩, done⟩ := devigs.resolve_left short
    have same : legs.length ≤ shares.length := by
      rw [devig_length done, List.length_map]
    have legs_eq : (legs.zip shares).map Prod.fst = legs := List.map_fst_zip same
    rw [if_neg short, done]
    simp only [Except.toOption, Option.bind_some, Option.isSome_map]
    have quoted : ((legs.zip shares).filter fun leg =>
        leg.1.selection = selection).getLast?.isSome ↔
        ∃ leg ∈ (legs.zip shares).map Prod.fst, leg.selection = selection := by
      rw [List.getLast?_isSome, ne_eq, List.filter_eq_nil_iff]
      simp
    rw [quoted, legs_eq]
    exact ⟨fun named => ⟨not_lt.mp short, named⟩, fun both => both.2⟩

end Loop

/-! The books of a list. -/

theorem books_entry {snapshots : List Snapshot} {book : BookKey × List Snapshot} :
    book ∈ (books snapshots).entries ↔ book.2 = legsOfBook snapshots book.1 ∧
      ∃ s ∈ snapshots, s.bookKey = book.1 := by
  obtain ⟨key, legs⟩ := book
  have read : ((books snapshots).get? key).getD [] = legsOfBook snapshots key := by
    have grouped := Dict.getD_get?_foldl_append Snapshot.bookKey (fun s => s) snapshots key
    rw [List.map_id'] at grouped
    exact grouped
  have quoted : key ∈ (books snapshots).keys ↔ ∃ s ∈ snapshots, s.bookKey = key := by
    have listed := Dict.mem_keys_foldl_modify Snapshot.bookKey
      (fun legs s => legs.getD [] ++ [s]) snapshots Dict.empty key
    exact listed.trans (or_iff_right List.not_mem_nil)
  rw [← Dict.get?_eq_some_iff, ← quoted, Dict.mem_keys_iff]
  constructor
  · intro found
    rw [found] at read
    rw [found]
    exact ⟨read, rfl⟩
  · rintro ⟨own, there⟩
    obtain ⟨legs', found⟩ := Option.isSome_iff_exists.mp there
    rw [found] at read
    rw [found]
    exact congrArg some (read.trans own.symm)

/-- The books come in the order in which the list first quotes them. -/
theorem books_pairwise (snapshots : List Snapshot) :
    (books snapshots).entries.Pairwise fun b b' =>
      firstAt (snapshots.map Snapshot.bookKey) b.1 < firstAt
        (snapshots.map Snapshot.bookKey) b'.1 := by
  have keys : ((books snapshots).entries.map Prod.fst).Pairwise fun k k' =>
      firstAt (snapshots.map Snapshot.bookKey) k < firstAt (snapshots.map Snapshot.bookKey) k' :=
    Dict.keys_foldl_modify_pairwise Snapshot.bookKey (fun legs s => legs.getD [] ++ [s]) snapshots
  rw [List.pairwise_map] at keys
  exact keys

theorem eq_or_of_getLast? {α : Type*} {R : α → α → Prop} {l : List α}
    (sorted : l.Pairwise R) {x y : α} (last : l.getLast? = some y) (inside : x ∈ l) :
      x = y ∨ R x y := by
  obtain ⟨front, rfl⟩ := List.getLast?_eq_some_iff.mp last
  obtain before | here := List.mem_append.mp inside
  · exact .inr ((List.pairwise_append.mp sorted).2.2 x before y (List.mem_singleton_self y))
  · exact .inl (List.mem_singleton.mp here)

/-- The book of `s` has two legs, and no book with two legs that is first quoted later has the
selection too. -/
structure Unshadowed (snapshots : List Snapshot) (s : Snapshot) : Prop where
  paired : 2 ≤ (legsOfBook snapshots s.bookKey).length
  last : ∀ t ∈ snapshots, t.fairKey = s.fairKey →
    2 ≤ (legsOfBook snapshots t.bookKey).length →
    firstAt (snapshots.map Snapshot.bookKey) t.bookKey ≤
      firstAt (snapshots.map Snapshot.bookKey) s.bookKey

section Sources
variable [Numerics ℚ] {ν : Type*}
  {store : BookKey → ℚ → ν} {method : DevigMethod} {snapshots : List Snapshot}
  {s t : Snapshot}

omit [Numerics ℚ] in
theorem fairKey_eq_iff : t.fairKey = s.fairKey ↔
    (t.eventId, t.bookmaker, t.market) = (s.eventId, s.bookmaker, s.market) ∧
    t.selection = s.selection := by
  simp only [Snapshot.fairKey, Prod.mk.injEq, and_assoc]

/-- The books that write the entry of `s`. -/
theorem entryFair_isSome (devigs : ∀ book ∈ (books snapshots).entries, Devigs method book)
    {book : BookKey × List Snapshot} (entry : book ∈ (books snapshots).entries) :
    (entryFair store method s.fairKey book).isSome ↔
      2 ≤ book.2.length ∧ ∃ t ∈ snapshots, t.bookKey = book.1 ∧
        t.fairKey = s.fairKey := by
  obtain ⟨legs, -⟩ := books_entry.mp entry
  unfold entryFair
  by_cases own : (book.1.1, book.1.2.1, book.1.2.2.1) =
    (s.fairKey.1, s.fairKey.2.1, s.fairKey.2.2.1)
  · rw [if_pos own, Option.isSome_map, bookFair_isSome (devigs (book.1, book.2) entry)]
    refine and_congr_right fun _ => ⟨?_, ?_⟩
    · rintro ⟨t, leg, named⟩
      rw [legs] at leg
      obtain ⟨inside, same⟩ := List.mem_filter.mp leg
      have key : t.bookKey = book.1 := of_decide_eq_true same
      refine ⟨t, inside, key, fairKey_eq_iff.mpr ⟨?_, named⟩⟩
      rw [← key] at own
      exact own
    · rintro ⟨t, inside, key, same⟩
      refine ⟨t, ?_, (fairKey_eq_iff.mp same).2⟩
      rw [legs]
      exact List.mem_filter.mpr ⟨inside, decide_eq_true key⟩
  · rw [if_neg own]
    refine iff_of_false Bool.false_ne_true ?_
    rintro ⟨-, t, -, key, same⟩
    refine own ?_
    rw [← key]
    exact (fairKey_eq_iff.mp same).1

/-- The book that the entry of `s` comes from, if there is one. -/
def writer (method : DevigMethod) (snapshots : List Snapshot) (s : Snapshot) :
    Option (BookKey × List Snapshot) :=
  ((books snapshots).entries.filter fun book =>
    (entryFair (fun _ p => p) method s.fairKey book).isSome).getLast?

theorem get?_writer {fair : Dict FairKey ν} (ran : fairLoop store method snapshots = .ok fair)
    (s : Snapshot) :
    fair.get? s.fairKey = (writer method snapshots s).bind (entryFair store method s.fairKey) := by
  rw [get?_fairLoop ran, writer]
  congr 3
  funext book
  unfold entryFair
  split <;> simp

theorem writer_some {book : BookKey × List Snapshot}
    (found : writer method snapshots s = some book) :
    book ∈ (books snapshots).entries ∧
    (entryFair (fun _ p => p) method s.fairKey book).isSome :=
  List.mem_filter.mp (List.mem_of_getLast? found)

theorem writer_exists (devigs : ∀ book ∈ (books snapshots).entries, Devigs method book)
    (listed : t ∈ snapshots) (same : t.fairKey = s.fairKey)
    (paired : 2 ≤ (legsOfBook snapshots t.bookKey).length) :
    ∃ book, writer method snapshots s = some book := by
  have entry := books_entry.mpr (⟨rfl, t, listed, rfl⟩ :
    (t.bookKey, legsOfBook snapshots t.bookKey).2 = _ ∧ _)
  have written : (entryFair (fun _ p => p) method s.fairKey
      (t.bookKey, legsOfBook snapshots t.bookKey)).isSome :=
    (entryFair_isSome devigs entry).mpr ⟨paired, t, listed, rfl, same⟩
  cases last : writer method snapshots s with
  | none =>
    have none_ := List.getLast?_eq_none_iff.mp last
    cases none_ ▸ List.mem_filter.mpr ⟨entry, written⟩
  | some book => exact ⟨book, rfl⟩

/-- The entry of `s` comes from its own book exactly where that book is not shadowed. -/
theorem writer_own_iff (devigs : ∀ book ∈ (books snapshots).entries, Devigs method book)
    (inside : s ∈ snapshots) :
    (∃ legs, writer method snapshots s = some (s.bookKey, legs)) ↔ Unshadowed snapshots s := by
  have order := (books_pairwise snapshots).filter fun book =>
    (entryFair (fun _ p => p) method s.fairKey book).isSome
  have writes {t : Snapshot} (listed : t ∈ snapshots) (same : t.fairKey = s.fairKey)
      (paired : 2 ≤ (legsOfBook snapshots t.bookKey).length) :
      (t.bookKey, legsOfBook snapshots t.bookKey) ∈ (books snapshots).entries.filter fun book =>
        (entryFair (fun _ p => p) method s.fairKey book).isSome := by
    have entry := books_entry.mpr (⟨rfl, t, listed, rfl⟩ :
      (t.bookKey, legsOfBook snapshots t.bookKey).2 = _ ∧ _)
    exact List.mem_filter.mpr ⟨entry,
      (entryFair_isSome devigs entry).mpr ⟨paired, t, listed, rfl, same⟩⟩
  constructor
  · rintro ⟨legs, found⟩
    obtain ⟨entry, written⟩ := writer_some found
    have paired := ((entryFair_isSome devigs entry).mp written).1
    rw [(books_entry.mp entry).1] at paired
    refine ⟨paired, fun t listed same long => ?_⟩
    obtain here | before := eq_or_of_getLast? order found (writes listed same long)
    · exact (congrArg (firstAt (snapshots.map Snapshot.bookKey)) (congrArg Prod.fst here)).le
    · exact before.le
  · intro unshadowed
    have own := writes inside rfl unshadowed.paired
    cases last : writer method snapshots s with
    | none =>
      rw [List.getLast?_eq_none_iff.mp last] at own
      cases own
    | some book =>
      obtain ⟨entry, written⟩ := writer_some last
      obtain ⟨long, t, listed, key, same⟩ := (entryFair_isSome devigs entry).mp written
      obtain here | before := eq_or_of_getLast? order last own
      · exact ⟨_, congrArg some here.symm⟩
      · rw [(books_entry.mp entry).1, ← key] at long
        have later := unshadowed.last t listed same long
        rw [← key] at before
        exact absurd before (not_lt.mpr later)

theorem entryFair_some {key : FairKey} {book : BookKey × List Snapshot} {v : ν}
    (found : entryFair store method key book = some v) :
    (book.1.1, book.1.2.1, book.1.2.2.1) = (key.1, key.2.1, key.2.2.1) ∧
      ∃ p, bookFair method book.2 key.2.2.2 = some p ∧ v = store book.1 p := by
  unfold entryFair at found
  split at found
  · rename_i own
    obtain ⟨p, value, rfl⟩ := Option.map_eq_some_iff.mp found
    exact ⟨own, p, value, rfl⟩
  · cases found

theorem fairSources_ok {fair : Dict FairKey ℚ}
    (ran : fairProbabilities method snapshots = .ok fair) :
    ∃ sources, fairSources method snapshots = .ok sources :=
  (fairLoop_ok_iff _).mpr ((fairLoop_ok_iff _).mp ⟨fair, ran⟩)

end Sources

/-! The snapshots that are evaluated. -/

namespace ModelCycle
variable (c : ModelCycle)

/-- Nothing but the gates is between the snapshot and a pick. -/
structure Evaluable (s : Snapshot) : Prop where
  actionable : c.actionable s.eventId
  predicted : (c.prediction s).isSome
  fair : ∃ t ∈ c.priced, t.fairKey = s.fairKey ∧ 2 ≤ (legsOfBook c.priced t.bookKey).length

variable [Numerics ℚ]

/-- The probability comes from the snapshot's own book, and is what devigging that book gives the
selection. -/
structure FromOwnBook (s : Snapshot) (fairP : ℚ) : Prop where
  source : ∃ sources, fairSources c.devigMethod c.priced = .ok sources ∧
    sources.get? s.fairKey = some (s.marketDetail, fairP)
  value : bookFair c.devigMethod (legsOfBook c.priced s.bookKey) s.selection = some fairP

variable {c} {out : List (Snapshot × PickCandidate)}

theorem mem_evaluated {fair : Dict FairKey ℚ}
    (ran : fairProbabilities c.devigMethod c.priced = .ok fair) (done : c.evaluated = .ok out)
    {s : Snapshot} {candidate : PickCandidate} :
    (s, candidate) ∈ out ↔ s ∈ c.priced ∧ c.actionable s.eventId ∧ ∃ prediction fairP,
      c.prediction s = some prediction ∧ fair.get? s.fairKey = some fairP ∧
        candidate = c.candidate s prediction fairP := by
  rw [evaluated, ran] at done
  cases done
  simp only [List.mem_flatMap, eventIds, mem_sortedBy, List.mem_dedup, List.mem_map]
  constructor
  · rintro ⟨eventId, -, inside⟩
    split at inside
    swap
    · cases inside
    rename_i actionable
    obtain ⟨t, listed, value⟩ := List.mem_filterMap.mp inside
    obtain ⟨priced, own⟩ := List.mem_filter.mp listed
    obtain ⟨prediction, predicted, value⟩ := Option.bind_eq_some_iff.mp value
    obtain ⟨fairP, found, value⟩ := Option.bind_eq_some_iff.mp value
    cases value
    rw [← of_decide_eq_true own] at actionable
    exact ⟨priced, actionable, prediction, fairP, predicted, found, rfl⟩
  · rintro ⟨priced, actionable, prediction, fairP, predicted, found, rfl⟩
    refine ⟨s.eventId, ⟨s, priced, rfl⟩, ?_⟩
    rw [if_pos actionable]
    refine List.mem_filterMap.mpr ⟨s, List.mem_filter.mpr ⟨priced, decide_eq_true rfl⟩, ?_⟩
    rw [evaluateSnapshot, predicted, found]
    rfl

theorem fairs_own_iff (done : c.evaluated = .ok out) :
    (∀ e ∈ out, c.FromOwnBook e.1 e.2.fairProbability) ↔
      ∀ s ∈ c.priced, c.Evaluable s → Unshadowed c.priced s := by
  cases ran : fairProbabilities c.devigMethod c.priced with
  | error e =>
    rw [evaluated, ran] at done
    cases done
  | ok fair =>
    obtain ⟨sources, sourced⟩ := fairSources_ok ran
    have devigs := (fairLoop_ok_iff _).mp ⟨fair, ran⟩
    constructor
    · intro owns s inside evaluable
      obtain ⟨prediction, predicted⟩ := Option.isSome_iff_exists.mp evaluable.predicted
      obtain ⟨t, listed, same, paired⟩ := evaluable.fair
      obtain ⟨book, last⟩ := writer_exists devigs listed same paired
      obtain ⟨fairP, value⟩ := Option.isSome_iff_exists.mp (writer_some last).2
      have found : fair.get? s.fairKey = some fairP := by
        rw [get?_writer ran, last]
        exact value
      have evaluated := (mem_evaluated ran done).mpr
        ⟨inside, evaluable.actionable, prediction, fairP, predicted, found, rfl⟩
      obtain ⟨sources', sourced', read⟩ : ∃ sources,
          fairSources c.devigMethod c.priced = .ok sources ∧
          sources.get? s.fairKey = some (s.marketDetail, fairP) := (owns _ evaluated).source
      cases sourced.symm.trans sourced'
      rw [get?_writer sourced, last, Option.bind_some] at read
      obtain ⟨own, p, -, stored⟩ := entryFair_some read
      have key : book.1 = s.bookKey := by
        simp only [Prod.mk.injEq] at own stored
        exact Prod.ext own.1 (Prod.ext own.2.1 (Prod.ext own.2.2 stored.1.symm))
      exact (writer_own_iff devigs inside).mp ⟨book.2, by rw [last, ← key]⟩
    · intro unshadowed e inside
      obtain ⟨s, candidate⟩ := e
      obtain ⟨priced, actionable, prediction, fairP, predicted, found, rfl⟩ :=
        (mem_evaluated ran done).mp inside
      rw [get?_writer ran] at found
      obtain ⟨book, last, value⟩ := Option.bind_eq_some_iff.mp found
      obtain ⟨entry, written⟩ := writer_some last
      obtain ⟨long, t, listed, key, same⟩ := (entryFair_isSome devigs entry).mp written
      rw [(books_entry.mp entry).1, ← key] at long
      have evaluable : c.Evaluable s :=
        ⟨actionable, Option.isSome_of_eq_some predicted, t, listed, same, long⟩
      obtain ⟨legs, own⟩ := (writer_own_iff devigs priced).mpr (unshadowed s priced evaluable)
      cases last.symm.trans own
      obtain ⟨-, p, devigged, rfl⟩ := entryFair_some value
      refine ⟨⟨sources, sourced, ?_⟩, ?_⟩
      · rw [get?_writer sourced, own]
        have heads : (s.bookKey.1, s.bookKey.2.1, s.bookKey.2.2.1) =
            (s.fairKey.1, s.fairKey.2.1, s.fairKey.2.2.1) := rfl
        rw [Option.bind_some, entryFair, if_pos heads, devigged]
        rfl
      · rw [← (books_entry.mp entry).1]
        exact devigged

end ModelCycle

/-! A total of the match and one of its first half, under one selection. -/

theorem price_gt {odds : ℚ} (range : 1 < odds ∧ odds ≤ 5) :
    1 < odds ∧ odds ≤ maxDecimalOdds := by
  unfold maxDecimalOdds
  exact ⟨range.1, by linarith [range.2]⟩

def totalQuote (selection detail : String) (odds : ℚ) (range : 1 < odds ∧ odds ≤ 5) :
    Snapshot where
  eventId := "e1".toList
  bookmaker := "Bet365".toList
  market := .totals
  selection := selection.toList
  decimalOdds := odds
  capturedAt := 0
  ingestedAt := 0
  marketDetail := some detail.toList
  odds_gt := (price_gt range).1
  odds_le := (price_gt range).2
  liquidity_nonneg := noLiquidity
  not_future := noSkew

theorem even_range : (1 : ℚ) < 2 ∧ (2 : ℚ) ≤ 5 := by norm_num

theorem long_range : (1 : ℚ) < 4 ∧ (4 : ℚ) ≤ 5 := by norm_num

theorem short_range : (1 : ℚ) < 4 / 3 ∧ (4 / 3 : ℚ) ≤ 5 := by norm_num

def fullMatch : List Snapshot :=
  [totalQuote "Over 2.5" "totals_2_5" 2 even_range,
    totalQuote "Under 2.5" "totals_2_5" 2 even_range]

def firstHalf : List Snapshot :=
  [totalQuote "Over 2.5" "1st_half_totals_2_5" 4 long_range,
    totalQuote "Under 2.5" "1st_half_totals_2_5" (4 / 3) short_range]

/-- The model has a price for the over of the match. -/
def overCycle (snapshots : List Snapshot) : ModelCycle where
  snapshots := snapshots
  kickoffs := Dict.ofList [("e1".toList, some 10)]
  now := 1
  devigMethod := .multiplicative
  predict _ := [⟨.totals, "Over 2.5".toList, 6 / 10, 8 / 10⟩]

def fairsOf (c : ModelCycle) : List (Option Str × ℚ) :=
  ((@ModelCycle.evaluated c Numerics.trivial).toOption.getD []).map fun e =>
    (e.1.marketDetail, e.2.fairProbability)

theorem fairs_own_over :
    ∃ out, @ModelCycle.evaluated (overCycle fullMatch) Numerics.trivial = .ok out ∧
      ∀ e ∈ out, @ModelCycle.FromOwnBook
        (overCycle fullMatch) Numerics.trivial e.1 e.2.fairProbability := by
  have some_ : (@ModelCycle.evaluated (overCycle fullMatch) Numerics.trivial).toOption.isSome := by
    decide +kernel
  obtain ⟨out, ran⟩ := Option.isSome_iff_exists.mp some_
  have done := ok_of_toOption ran
  refine ⟨out, done,
    (@ModelCycle.fairs_own_iff (overCycle fullMatch) Numerics.trivial out done).mpr ?_⟩
  have whole : (overCycle fullMatch).priced = fullMatch := rfl
  rw [whole]
  intro s inside _
  obtain rfl | rfl := List.mem_pair.mp inside
  · exact ⟨by decide, by decide⟩
  · exact ⟨by decide, by decide⟩

/-- The over of the match is evaluated at the fair probability of the over of the half. -/
theorem fairs_own_fails :
    (some "totals_2_5".toList, 1 / 4) ∈ fairsOf (overCycle (fullMatch ++ firstHalf)) ∧
      @bookFair Numerics.trivial .multiplicative fullMatch "Over 2.5".toList = some (1 / 2) := by
  decide +kernel

end SharpEvPicks.Pipeline
