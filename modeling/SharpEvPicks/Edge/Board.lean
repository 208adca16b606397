import Mathlib.Data.List.Dedup
import SharpEvPicks.Edge.Anchors
import SharpEvPicks.Probabilities.Reordering
import SharpEvPicks.Python.Reordering

/-! What a market's board quotes, selection by selection and book by book. -/
namespace SharpEvPicks.Edge

open Python Probabilities

def Prices.books (prices : Prices) (selection : Str) : Dict Str ℚ :=
  (prices.get? selection).getD Dict.empty

section
variable [Unicode]

omit [Unicode] in
theorem values_map (p : Prices) : p.values = p.keys.map p.books := p.values_eq Dict.empty

omit [Unicode] in
theorem books_of_not_mem {p : Prices} {s : Str} (absent : s ∉ p.keys) :
    p.books s = Dict.empty := by
  rw [Dict.mem_keys_iff, Bool.not_eq_true, Option.isSome_eq_false_iff,
    Option.isNone_iff_eq_none] at absent
  rw [Prices.books, absent]
  rfl

/-- The quote of the book with this normalized name. -/
def Prices.quote (p : Prices) (s normBook : Str) : Option (Str × ℚ) :=
  (p.books s).entries.find? fun e => norm e.1 = normBook

theorem fullMarket_eq (p : Prices) (pref : Str) :
    fullMarket p pref = p.keys.mapM fun s => (p.quote s pref).map Prod.snd := by
  unfold fullMarket
  rw [p.entries_eq Dict.empty, List.mapM_map]
  rfl

omit [Unicode] in
theorem median_perm {l l' : List ℚ} (perm : l.Perm l') : median l = median l' := by
  unfold median
  rw [sortedBy_perm perm]

omit [Unicode] in
theorem mem_flatten_books (p : Prices) (b : Str) :
    b ∈ (p.values.map Dict.keys).flatten ↔ ∃ s ∈ p.keys, b ∈ (p.books s).keys := by
  rw [values_map]
  simp [List.mem_flatten]

/-! The books that price everything. -/

theorem mem_fullMarketBooks (p : Prices) (k : Str) :
    k ∈ fullMarketBooks p ↔ p.keys ≠ [] ∧ ∀ s ∈ p.keys,
      k ∈ (p.books s).keys.map norm := by
  unfold fullMarketBooks
  rw [values_map]
  cases p.keys with
  | nil => simp
  | cons s rest => simp [List.mem_filter, List.mem_dedup, and_comm]

theorem fullMarketBooks_nodup (p : Prices) : (fullMarketBooks p).Nodup := by
  unfold fullMarketBooks
  split
  · exact List.nodup_nil
  · exact (List.nodup_dedup _).filter _

/-- What the consensus keeps of a book: its net and its gross price. -/
def netQuote (commissions : Commissions) (e : Str × ℚ) : ℚ × ℚ :=
  (effectiveOdds commissions e.1 e.2, e.2)

def keepBest (commissions : Commissions) (members : List Str) (best : Dict Str (ℚ × ℚ))
    (e : Str × ℚ) : Dict Str (ℚ × ℚ) :=
  if norm e.1 ∈ members then
    match best.get? (norm e.1) with
    | none => best.set (norm e.1) (netQuote commissions e)
    | some old =>
      if old.1 < (netQuote commissions e).1 then
        best.set (norm e.1) (netQuote commissions e)
      else best
  else best

theorem bestByNorm_eq (commissions : Commissions) (members : List Str) (books : Dict Str ℚ) :
    bestByNorm commissions members books =
      books.entries.foldl (keepBest commissions members) Dict.empty := rfl

def plausibleVector (opts : AnchorOptions) (p : Prices) (book : Str) : Option (List ℚ) :=
  (bookVector opts (fullMarketBooks p) p book).filter fun gross =>
    opts.sane (overround (gross.map (effectiveOdds opts.commissions book)))

/-! Shares laid along the selections. -/

omit [Unicode] in
theorem get?_zipFair (p : Prices) (f : Str → ℚ) (s : Str) :
    (zipFair p (p.keys.map f)).get? s = if s ∈ p.keys then some (f s) else none := by
  have fold (l : List Str) (d : Dict Str ℚ) :
      ((l.zip (l.map f)).foldl (fun d e => d.set e.1 e.2) d).get? s =
        if s ∈ l then some (f s) else d.get? s := by
    induction l generalizing d with
    | nil => simp
    | cons s' l ih =>
      simp only [List.map_cons, List.zip_cons_cons, List.foldl_cons, ih, Dict.get?_set,
        List.mem_cons]
      by_cases first : s = s'
      · simp [first]
      · simp [first]
  exact fold p.keys Dict.empty

end
end SharpEvPicks.Edge
