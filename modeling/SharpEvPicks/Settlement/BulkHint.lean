import Mathlib.Data.Finset.Insert
import Mathlib.Data.List.ReduceOption
import SharpEvPicks.Settlement.Engine

/-! The bulk query for settled twins, `_prefetch_settled_sibling_candidate_ids` of
`app/settlement/engine.py`, with the rows of its statement and the fingerprints it joins them by. -/
namespace SharpEvPicks.Settlement

open Python Resolution

/-- The pair of a fixture as the set that the source compares. -/
def PairKey.teams (pair : PairKey) : Finset Str := {pair.home, pair.away}

theorem teams_eq_iff (p q : PairKey) : PairKey.teams p = PairKey.teams q ↔ p.Same q := by
  rw [← Finset.coe_inj]
  simp only [PairKey.teams, Finset.coe_insert, Finset.coe_singleton]
  exact Set.pair_eq_pair_iff

/-- `_SettlementFingerprint`. -/
structure Fingerprint where
  sportId : Nat
  market : Market
  marketDetail : Option Str
  modelVersionId : Nat
  selection : Str
  pair : Finset Str
  deriving DecidableEq

namespace Store

/-- A row of the statement. -/
structure SettledRow where
  pickId : Nat
  eventId : Nat
  sportId : Nat
  market : Market
  marketDetail : Option Str
  modelVersionId : Nat
  selection : Str
  startsAt : Int
  homeName : Str
  awayName : Str

def settledRow (pick : Pick) (event : EventRow) (startsAt : Int) : SettledRow where
  pickId := pick.id
  eventId := pick.eventId
  sportId := event.sportId
  market := pick.market
  marketDetail := pick.marketDetail
  modelVersionId := pick.modelVersionId
  selection := pick.selection
  startsAt := startsAt
  homeName := event.homeName
  awayName := event.awayName

/-- The joins of the statement, with `starts_at IS NOT NULL`. -/
def settledRows (store : Store) : List SettledRow :=
  store.results.flatMap fun result =>
    (store.picks.filter fun pick => result.pickId = pick.id).filterMap fun pick =>
      (store.eventOf pick).bind fun event => event.startsAt.map (settledRow pick event)

section
variable [Unicode]

def settlementFingerprint (sportId : Nat) (market : Market) (marketDetail : Option Str)
    (modelVersionId : Nat) (selection : Str) (pair : PairKey) : Fingerprint where
  sportId := sportId
  market := market
  marketDetail := marketDetail
  modelVersionId := modelVersionId
  selection := selectionDedupKey selection
  pair := PairKey.teams pair

def Candidate.window (c : Candidate) : Int × Int :=
  (c.startsAt - dedupTolerance c.event.sportKey, c.startsAt + dedupTolerance c.event.sportKey)

/-- The rows that the filters of one chunk let through. -/
def bulkRows (store : Store) (chunk : List (Candidate × PairKey)) : List SettledRow :=
  let chunk := chunk.map Prod.fst
  let windows := chunk.map Candidate.window
  let marketDetails := chunk.map (·.pick.marketDetail)
  store.settledRows.filter fun row =>
    row.sportId ∈ chunk.map (·.event.sportId) &&
      ((windows.map Prod.fst).min?.any fun first => first ≤ row.startsAt) &&
      ((windows.map Prod.snd).max?.any fun last => row.startsAt ≤ last) &&
      row.market ∈ chunk.map (·.pick.market) &&
      ((row.marketDetail.any fun detail => detail ∈ marketDetails.reduceOption) ||
        (row.marketDetail.isNone && none ∈ marketDetails)) &&
      row.modelVersionId ∈ chunk.map (·.pick.modelVersionId)

def SettledRow.fingerprint (row : SettledRow) : Option Fingerprint :=
  (fixturePairKey row.homeName row.awayName).map fun pair =>
    settlementFingerprint row.sportId row.market row.marketDetail row.modelVersionId
      row.selection pair

def Candidate.fingerprint (c : Candidate) (pair : PairKey) : Fingerprint :=
  settlementFingerprint c.event.sportId c.pick.market c.pick.marketDetail c.pick.modelVersionId
    c.pick.selection pair

def settledByFingerprint (rows : List SettledRow) : Dict Fingerprint (List (Nat × Nat × Int)) :=
  (rows.filterMap fun row => row.fingerprint.map
    (·, (row.pickId, row.eventId, row.startsAt))).foldl
    (fun settled entry => settled.modify entry.1 fun same => same.getD [] ++ [entry.2]) Dict.empty

def bulkChunk (store : Store) (chunk : List (Candidate × PairKey)) : List Nat :=
  let settled := settledByFingerprint (store.bulkRows chunk)
  (chunk.filter fun (c, pair) =>
    ((settled.get? (c.fingerprint pair)).getD []).any fun (pickId, eventId, startsAt) =>
      pickId ≠ c.pick.id && eventId ≠ c.pick.eventId &&
        |startsAt - c.startsAt| ≤ dedupTolerance c.event.sportKey).map (·.1.pick.id)

/-- `_prefetch_settled_sibling_candidate_ids`. -/
def prefetchSettledSiblingCandidateIds (store : Store) (candidates : List Candidate) : List Nat :=
  let eligible := candidates.filterMap fun c => c.pair.map (c, ·)
  (eligible.toChunks prefetchChunkSize).flatMap store.bulkChunk

/-! One chunk. -/

omit [Unicode] in
theorem mem_settledRows {store : Store} {row : SettledRow} :
    row ∈ store.settledRows ↔
      ∃ pick ∈ store.picks, (∃ result ∈ store.results, result.pickId = pick.id) ∧
      ∃ event, store.eventOf pick = some event ∧ ∃ startsAt,
        event.startsAt = some startsAt ∧ settledRow pick event startsAt = row := by
  simp only [settledRows, List.mem_flatMap, List.mem_filterMap, List.mem_filter, decide_eq_true_eq,
    Option.bind_eq_some_iff, Option.map_eq_some_iff]
  constructor
  · rintro ⟨result, settled, pick, ⟨inside, own⟩, event, found, startsAt, starts, made⟩
    exact ⟨pick, inside, ⟨result, settled, own⟩, event, found, startsAt, starts, made⟩
  · rintro ⟨pick, inside, ⟨result, settled, own⟩, event, found, startsAt, starts, made⟩
    exact ⟨result, settled, pick, ⟨inside, own⟩, event, found, startsAt, starts, made⟩

/-- What the statement under the lock asks of a row for one candidate. -/
structure SettledTwin (c : Candidate) (pair : PairKey) (row : SettledRow) : Prop where
  otherPick : row.pickId ≠ c.pick.id
  otherEvent : row.eventId ≠ c.pick.eventId
  near : |row.startsAt - c.startsAt| ≤ dedupTolerance c.event.sportKey
  fingerprint : row.fingerprint = some (c.fingerprint pair)

theorem fingerprint_iff {c : Candidate} {pair : PairKey} {pick : Pick} {event : EventRow}
    {startsAt : Int} :
    (settledRow pick event startsAt).fingerprint = some (c.fingerprint pair) ↔
      event.sportId = c.event.sportId ∧ pick.market = c.pick.market ∧
      pick.marketDetail = c.pick.marketDetail ∧
        pick.modelVersionId = c.pick.modelVersionId ∧
        selectionDedupKey pick.selection = selectionDedupKey c.pick.selection ∧
        ∃ own, fixturePairKey event.homeName event.awayName = some own ∧ own.Same pair := by
  unfold SettledRow.fingerprint Candidate.fingerprint settlementFingerprint
  simp only [settledRow, Option.map_eq_some_iff, Fingerprint.mk.injEq, teams_eq_iff]
  constructor
  · rintro ⟨own, key, sport, market, detail, version, selection, same⟩
    exact ⟨sport, market, detail, version, selection, own, key, same⟩
  · rintro ⟨sport, market, detail, version, selection, own, key, same⟩
    exact ⟨own, key, sport, market, detail, version, selection, same⟩

theorem settledSiblingExists_iff {store : Store} {c : Candidate} {pair : PairKey} :
    store.settledSiblingExists c.pick c.event c.startsAt pair = true ↔
      ∃ row ∈ store.settledRows, SettledTwin c pair row := by
  unfold settledSiblingExists
  rw [List.any_eq_true]
  simp only [Bool.and_eq_true, List.any_eq_true, decide_eq_true_eq, Option.any_eq_true]
  constructor
  · rintro ⟨pick, inside,
      ⟨⟨⟨⟨⟨⟨settled, other⟩, apart⟩, market⟩, detail⟩, version⟩, event, found,
        ⟨⟨sport,
      startsAt, starts, near⟩, selection⟩, own, key, same⟩⟩
    refine ⟨settledRow pick event startsAt,
      mem_settledRows.mpr ⟨pick, inside, settled, event, found, startsAt, starts,
      rfl⟩, other, apart, near, ?_⟩
    exact fingerprint_iff.mpr ⟨sport, market, detail, version, selection, own, key, same⟩
  · rintro ⟨row, inside, twin⟩
    obtain ⟨pick, listed, settled, event, found, startsAt, starts, rfl⟩ :=
      mem_settledRows.mp inside
    obtain ⟨sport, market, detail, version, selection, own, key, same⟩ :=
      fingerprint_iff.mp twin.fingerprint
    exact ⟨pick, listed,
      ⟨⟨⟨⟨⟨⟨settled, twin.otherPick⟩, twin.otherEvent⟩, market⟩, detail⟩,
        version⟩, event, found,
      ⟨⟨sport, startsAt, starts, twin.near⟩, selection⟩, own, key, same⟩⟩

omit [Unicode] in
theorem min?_any_of_mem {l : List Int} {x t : Int} (inside : x ∈ l) (le : x ≤ t) :
    l.min?.any (fun first => first ≤ t) = true := by
  cases least : l.min? with
  | none =>
    rw [List.min?_eq_none_iff.mp least] at inside
    cases inside
  | some first =>
    have below := (List.min?_eq_some_iff.mp least).2 x inside
    exact decide_eq_true (below.trans le)

omit [Unicode] in
theorem max?_any_of_mem {l : List Int} {x t : Int} (inside : x ∈ l) (le : t ≤ x) :
    l.max?.any (fun last => t ≤ last) = true := by
  cases greatest : l.max? with
  | none =>
    rw [List.max?_eq_none_iff.mp greatest] at inside
    cases inside
  | some last =>
    have above := (List.max?_eq_some_iff.mp greatest).2 x inside
    exact decide_eq_true (le.trans above)

/-- The filters of a chunk are as wide as what each of its candidates asks for. -/
theorem mem_bulkRows_of_twin {store : Store} {chunk : List (Candidate × PairKey)} {c : Candidate}
    {pair : PairKey} (inChunk : (c, pair) ∈ chunk) {row : SettledRow}
    (inside : row ∈ store.settledRows) (twin : SettledTwin c pair row) :
    row ∈ store.bulkRows chunk := by
  obtain ⟨pick, listed, settled, event, found, startsAt, starts, rfl⟩ :=
    mem_settledRows.mp inside
  obtain ⟨sport, market, detail, version, -⟩ := fingerprint_iff.mp twin.fingerprint
  obtain ⟨low, high⟩ := abs_le.mp twin.near
  have opened : c.window.1 ≤ startsAt := by
    simp only [settledRow] at low
    unfold Candidate.window
    omega
  have closed : startsAt ≤ c.window.2 := by
    simp only [settledRow] at high
    unfold Candidate.window
    omega
  have own : c ∈ chunk.map Prod.fst := List.mem_map_of_mem inChunk
  have window : c.window ∈ (chunk.map Prod.fst).map Candidate.window := List.mem_map_of_mem own
  unfold bulkRows
  refine List.mem_filter.mpr ⟨inside, ?_⟩
  simp only [Bool.and_eq_true, Bool.or_eq_true, decide_eq_true_eq]
  refine ⟨⟨⟨⟨⟨?_, ?_⟩, ?_⟩, ?_⟩, ?_⟩, ?_⟩
  · exact List.mem_map.mpr ⟨c, own, sport.symm⟩
  · exact min?_any_of_mem (List.mem_map_of_mem window) opened
  · exact max?_any_of_mem (List.mem_map_of_mem window) closed
  · exact List.mem_map.mpr ⟨c, own, market.symm⟩
  · have listed : pick.marketDetail ∈ (chunk.map Prod.fst).map (·.pick.marketDetail) :=
      List.mem_map.mpr ⟨c, own, detail.symm⟩
    cases named : pick.marketDetail with
    | none =>
      right
      rw [named] at listed
      simp only [settledRow, named]
      exact ⟨rfl, listed⟩
    | some text =>
      left
      rw [named] at listed
      simp only [settledRow, named, Option.any_some, decide_eq_true_eq]
      exact List.reduceOption_mem_iff.mpr listed
  · exact List.mem_map.mpr ⟨c, own, version.symm⟩

theorem mem_settledByFingerprint {rows : List SettledRow} {key : Fingerprint}
    {entry : Nat × Nat × Int} :
    entry ∈ ((settledByFingerprint rows).get? key).getD [] ↔
      ∃ row ∈ rows, row.fingerprint = some key ∧
        (row.pickId, row.eventId, row.startsAt) = entry := by
  unfold settledByFingerprint
  rw [Dict.getD_get?_foldl_append Prod.fst Prod.snd, List.mem_map]
  simp only [List.mem_filter, List.mem_filterMap, Option.map_eq_some_iff, decide_eq_true_eq]
  constructor
  · rintro ⟨-, ⟨⟨row, inside, own, keyed, rfl⟩, rfl⟩, rfl⟩
    exact ⟨row, inside, keyed, rfl⟩
  · rintro ⟨row, inside, keyed, rfl⟩
    exact ⟨(key, (row.pickId, row.eventId, row.startsAt)),
      ⟨⟨row, inside, key, keyed, rfl⟩, rfl⟩, rfl⟩

theorem mem_bulkChunk {store : Store} {chunk : List (Candidate × PairKey)} {pickId : Nat} :
    pickId ∈ store.bulkChunk chunk ↔ ∃ c pair, (c, pair) ∈ chunk ∧
      store.settledSiblingExists c.pick c.event c.startsAt pair = true ∧ c.pick.id = pickId := by
  unfold bulkChunk
  rw [List.mem_map]
  simp only [List.mem_filter, List.any_eq_true, Bool.and_eq_true, decide_eq_true_eq,
    settledSiblingExists_iff]
  constructor
  · rintro ⟨⟨c, pair⟩, ⟨inChunk, entry, listed, ⟨other, apart⟩, near⟩, rfl⟩
    obtain ⟨row, inside, keyed, rfl⟩ := mem_settledByFingerprint.mp listed
    exact ⟨c, pair, inChunk, ⟨row, List.mem_of_mem_filter inside, other, apart, near, keyed⟩,
      rfl⟩
  · rintro ⟨c, pair, inChunk, ⟨row, inside, twin⟩, rfl⟩
    refine ⟨(c, pair),
      ⟨inChunk, (row.pickId, row.eventId, row.startsAt), ?_,
        ⟨twin.otherPick, twin.otherEvent⟩,
      twin.near⟩, rfl⟩
    exact mem_settledByFingerprint.mpr ⟨row, mem_bulkRows_of_twin inChunk inside twin,
      twin.fingerprint, rfl⟩

/-- The chunk of the settlement cycle, which reads the same rows without a dictionary. -/
theorem mem_prefetchChunk {store : Store} {chunk : List (Candidate × PairKey)} {pickId : Nat} :
    pickId ∈ store.prefetchChunk chunk ↔ ∃ c pair, (c, pair) ∈ chunk ∧
      store.settledSiblingExists c.pick c.event c.startsAt pair = true ∧ c.pick.id = pickId := by
  unfold prefetchChunk settledSiblingExists
  simp only [List.mem_map, List.mem_filter, List.any_eq_true, List.mem_filterMap,
    Option.bind_eq_some_iff, Bool.and_eq_true, decide_eq_true_eq, Option.any_eq_true, Prod.exists,
      Option.ite_none_right_eq_some,
    Option.map_eq_some_iff, Prod.mk.injEq]
  constructor
  · rintro ⟨c, pair,
      ⟨inChunk, _, _, _, _,
        ⟨sibling, inside, other, found, t, starts,
          ⟨⟨⟨⟨⟨⟨⟨settled, -⟩, -⟩, -⟩, -⟩, -⟩,
      -⟩, own, key, rfl, rfl, rfl, rfl⟩⟩,
      ⟨⟨⟨⟨⟨⟨⟨sport, market⟩, detail⟩, version⟩, selection⟩, same⟩,
        another⟩, apart⟩, near⟩, rfl⟩
    exact ⟨c, pair, inChunk,
      ⟨sibling, inside, ⟨⟨⟨⟨⟨settled, another⟩, apart⟩, market⟩, detail⟩,
        version⟩, other, found,
      ⟨⟨sport, t, starts, near⟩, selection⟩, own, key, same⟩, rfl⟩
  · rintro ⟨c, pair, inChunk,
      ⟨sibling, inside, ⟨⟨⟨⟨⟨settled, another⟩, apart⟩, market⟩, detail⟩,
        version⟩, other, found,
      ⟨⟨sport, t, starts, near⟩, selection⟩, own, key, same⟩, rfl⟩
    obtain ⟨low, high⟩ := abs_le.mp near
    refine ⟨c, pair, ⟨inChunk, sibling, other, t, own,
      ⟨sibling, inside, other, found, t, starts, ⟨⟨⟨⟨⟨⟨⟨settled,
      c, pair, inChunk, sport.symm⟩, _, ⟨c, pair, inChunk, rfl⟩, ?_⟩, _,
      ⟨c, pair, inChunk, rfl⟩, ?_⟩,
      c, pair, inChunk, market.symm⟩, c, pair, inChunk, detail.symm⟩, c, pair, inChunk,
      version.symm⟩, own, key, rfl, rfl,
      rfl, rfl⟩⟩, ⟨⟨⟨⟨⟨⟨⟨sport, market⟩, detail⟩, version⟩, selection⟩,
        same⟩, another⟩, apart⟩, near⟩, rfl⟩
    · omega
    · omega

/-! All chunks. -/

omit [Unicode] in
theorem flatten_toChunks_go {α : Type} (n : Nat) (rest : List α) (chunk : Array α)
    (done : Array (List α)) :
    (List.toChunks.go n rest chunk done).flatten = done.toList.flatten ++
    (chunk.toList ++ rest) := by
  induction rest generalizing chunk done with
  | nil => simp [List.toChunks.go]
  | cons x rest ih =>
    unfold List.toChunks.go
    split
    · rw [ih]
      simp
    · rw [ih]
      simp

omit [Unicode] in
theorem flatten_toChunks {α : Type} (n : Nat) (l : List α) : (l.toChunks n).flatten = l := by
  cases l with
  | nil => rfl
  | cons x l =>
    cases n with
    | zero => simp [List.toChunks]
    | succ n =>
      have started : List.toChunks (n + 1) (x :: l) = List.toChunks.go (n + 1) l #[x] #[] := rfl
      rw [started, flatten_toChunks_go]
      simp

omit [Unicode] in
theorem exists_chunk_iff {α : Type} {n : Nat} {l : List α} {p : α → Prop} :
    (∃ chunk ∈ l.toChunks n, ∃ x ∈ chunk, p x) ↔ ∃ x ∈ l, p x := by
  have all (x : α) : x ∈ l ↔ ∃ chunk ∈ l.toChunks n, x ∈ chunk := by
    rw [← List.mem_flatten, flatten_toChunks]
  simp only [all]
  constructor
  · rintro ⟨chunk, listed, x, inside, holds⟩
    exact ⟨x, ⟨chunk, listed, inside⟩, holds⟩
  · rintro ⟨x, ⟨chunk, listed, inside⟩, holds⟩
    exact ⟨chunk, listed, x, inside, holds⟩

theorem mem_prefetch_iff {store : Store} {candidates : List Candidate} {pickId : Nat} :
    pickId ∈ store.prefetchSettledSiblingCandidateIds candidates ↔
      pickId ∈ store.prefetchSettledSiblingIds candidates := by
  unfold prefetchSettledSiblingCandidateIds prefetchSettledSiblingIds
  simp only [List.mem_flatMap, mem_bulkChunk, mem_prefetchChunk]

/-- The bulk query names exactly the candidates for which the statement under the lock finds a twin.
-/
theorem mem_prefetchSettledSiblingCandidateIds (store : Store) (candidates : List Candidate)
    (pickId : Nat) :
    pickId ∈ store.prefetchSettledSiblingCandidateIds candidates ↔
      ∃ c ∈ candidates, ∃ pair, c.pair = some pair ∧
      store.settledSiblingExists c.pick c.event c.startsAt pair = true ∧ c.pick.id = pickId := by
  unfold prefetchSettledSiblingCandidateIds
  simp only [List.mem_flatMap, mem_bulkChunk]
  have paired := exists_chunk_iff (n := prefetchChunkSize)
    (l := candidates.filterMap fun c => c.pair.map (c, ·))
    (p := fun x => store.settledSiblingExists x.1.pick x.1.event x.1.startsAt x.2 = true ∧
      x.1.pick.id = pickId)
  simp only [Prod.exists] at paired
  rw [paired]
  simp only [List.mem_filterMap, Option.map_eq_some_iff, Prod.mk.injEq]
  constructor
  · rintro ⟨c, pair, ⟨c', inside, pair', own, rfl, rfl⟩, sibling, same⟩
    exact ⟨c', inside, pair', own, sibling, same⟩
  · rintro ⟨c, inside, pair, own, sibling, same⟩
    exact ⟨c, pair, ⟨c, inside, pair, own, rfl, rfl⟩, sibling, same⟩

end
end Store
end SharpEvPicks.Settlement
