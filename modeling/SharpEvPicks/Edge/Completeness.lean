import SharpEvPicks.Edge.Board
import SharpEvPicks.Edge.Value

/-! What the value scan lists: the selections whose best fillable price beats the fair value by
enough, once each, and the numbers of a bet among themselves. -/
namespace SharpEvPicks.Edge

open Python

/-- Rates that leave a winner something. -/
def Fees (commissions : Commissions) : Prop := ∀ e ∈ commissions.entries, 0 ≤ e.2 ∧ e.2 < 1

instance (commissions : Commissions) : Decidable (Fees commissions) :=
  inferInstanceAs (Decidable (∀ e ∈ commissions.entries, 0 ≤ e.2 ∧ e.2 < 1))

section
variable [Unicode]

theorem Fees.one_lt {commissions : Commissions} (fees : Fees commissions) (book : Str) {odds : ℚ}
    (gt : 1 < odds) : 1 < effectiveOdds commissions book odds := by
  have part : (commissions.get? (norm book)).getD 0 < 1 := by
    cases found : commissions.get? (norm book) with
    | none => norm_num
    | some c => exact (fees _ (Dict.get?_eq_some_iff.mp found)).2
  have gain : 0 < (odds - 1) * (1 - (commissions.get? (norm book)).getD 0) :=
    mul_pos (sub_pos.mpr gt) (sub_pos.mpr part)
  unfold effectiveOdds
  linarith

/-- `e` is the best price net of commission among the books that may fill a selection. -/
structure BestNet (commissions : Commissions) (anchorBook : Str) (allowlist : List Str)
    (books : Dict Str ℚ) (e : ℚ) : Prop where
  offered : ∃ book odds, (book, odds) ∈ books.entries ∧
    eligible anchorBook allowlist book odds ∧ effectiveOdds commissions book odds = e
  best : ∀ book odds, (book, odds) ∈ books.entries →
    eligible anchorBook allowlist book odds → effectiveOdds commissions book odds ≤ e

section
variable {commissions : Commissions} {anchorBook : Str} {allowlist : List Str}
  {books : Dict Str ℚ}

theorem mem_quotes {q : Quote} :
    q ∈ quotes commissions anchorBook allowlist books ↔
      ∃ book odds, (book, odds) ∈ books.entries ∧ eligible anchorBook allowlist book odds ∧
        ⟨book, odds, effectiveOdds commissions book odds⟩ = q := by
  simp only [quotes, List.mem_map, List.mem_filter, Prod.exists, and_assoc]

theorem bestNet_of_bestOtherBook {q : Quote}
    (best : bestOtherBook books anchorBook commissions allowlist = some q) :
    BestNet commissions anchorBook allowlist books q.effective := by
  have first := (maxBy_iff _ _ _).mp best
  constructor
  · obtain ⟨book, odds, listed, may, rfl⟩ := mem_quotes.mp first.mem
    exact ⟨book, odds, listed, may, rfl⟩
  · intro book odds listed may
    exact OrderDual.toDual_le_toDual.mp
      (first.le (mem_quotes.mpr ⟨book, odds, listed, may, rfl⟩))

theorem BestNet.unique {e e' : ℚ} (net : BestNet commissions anchorBook allowlist books e)
    (net' : BestNet commissions anchorBook allowlist books e') : e = e' := by
  obtain ⟨book, odds, listed, may, rfl⟩ := net.offered
  obtain ⟨book', odds', listed', may', rfl⟩ := net'.offered
  exact le_antisymm (net'.best book odds listed may) (net.best book' odds' listed' may')

theorem BestNet.exists_quote {e : ℚ} (net : BestNet commissions anchorBook allowlist books e) :
    ∃ q, bestOtherBook books anchorBook commissions allowlist = some q ∧ q.effective = e := by
  obtain ⟨book, odds, listed, may, -⟩ := net.offered
  obtain ⟨q, best⟩ :=
    exists_maxBy Quote.effective (mem_quotes.mpr ⟨book, odds, listed, may, rfl⟩)
  exact ⟨q, best, (bestNet_of_bestOtherBook best).unique net⟩

theorem BestNet.one_lt (fees : Fees commissions) {e : ℚ}
    (net : BestNet commissions anchorBook allowlist books e) : 1 < e := by
  obtain ⟨book, odds, -, may, rfl⟩ := net.offered
  simp only [eligible, Bool.and_eq_true, decide_eq_true_eq] at may
  exact fees.one_lt book may.2

theorem eligible_of_allowlist {book : Str} {odds : ℚ}
    (may : eligible anchorBook allowlist book odds = true) :
    eligible anchorBook [] book odds = true := by
  simp only [eligible, Bool.and_eq_true] at may ⊢
  exact ⟨⟨may.1.1, rfl⟩, may.2⟩

/-- An allowlist takes candidates away, so the price without it is at least as good. -/
theorem BestNet.le_theoretical {e th : ℚ} (net : BestNet commissions anchorBook allowlist books e)
    (free : BestNet commissions anchorBook [] books th) : e ≤ th := by
  obtain ⟨book, odds, listed, may, rfl⟩ := net.offered
  exact free.best book odds listed (eligible_of_allowlist may)

/-- A book that may fill a selection prices the theoretical best too. -/
theorem BestNet.exists_theoretical {e : ℚ}
    (net : BestNet commissions anchorBook allowlist books e) :
    ∃ th, bestOtherBook books anchorBook commissions [] = some th := by
  obtain ⟨book, odds, listed, may, -⟩ := net.offered
  exact exists_maxBy Quote.effective
    (mem_quotes.mpr ⟨book, odds, listed, eligible_of_allowlist may, rfl⟩)

end

/-! One selection. -/

/-- A fair value, and a best fillable price that passes every gate against it. -/
def Qualifies (opts : ScanOptions) (anchorBook : Str) (fair : Dict Str ℚ) (selection : Str)
    (books : Dict Str ℚ) : Prop :=
  ∃ fairP e, fair.get? selection = some fairP ∧
    BestNet opts.commissions anchorBook opts.bookAllowlist books e ∧ opts.minOdds ≤ e ∧
      opts.minEdge ≤ fairP - 1 / e ∧ opts.maxEdge.exceededBy (fairP - 1 / e) = false

/-- The numbers of a bet on the best fillable price. -/
structure Priced (opts : ScanOptions) (anchorBook : Str) (fair : Dict Str ℚ)
    (books : Dict Str ℚ) (v : ValueBet) : Prop where
  fair : fair.get? v.selection = some v.sharpFairProb
  net : BestNet opts.commissions anchorBook opts.bookAllowlist books v.bestOddsEffective
  edge : v.edge = v.sharpFairProb - 1 / v.bestOddsEffective
  ev : v.ev = v.bestOddsEffective * v.edge
  gap : 0 ≤ v.fillGap
  noGap : opts.bookAllowlist = [] → v.fillGap = 0

section
variable {opts : ScanOptions} {anchorBook : Str} {fair : Dict Str ℚ} {selection : Str}
  {books : Dict Str ℚ}

theorem scanSelection_isSome_iff :
    (∃ v, scanSelection opts anchorBook fair selection books = some v) ↔
      Qualifies opts anchorBook fair selection books := by
  constructor
  · rintro ⟨v, listed⟩
    obtain ⟨fairP, theoretical, fill, known, -, best, minOdds, minEdge, maxEdge, -⟩ :=
      scanSelection_iff.mp listed
    exact ⟨fairP, fill.effective, known, bestNet_of_bestOtherBook best, minOdds, minEdge,
      maxEdge⟩
  · rintro ⟨fairP, e, known, net, minOdds, minEdge, maxEdge⟩
    obtain ⟨fill, best, rfl⟩ := net.exists_quote
    obtain ⟨theoretical, free⟩ := net.exists_theoretical
    exact ⟨_, scanSelection_iff.mpr
      ⟨fairP, theoretical, fill, known, free, best, minOdds, minEdge, maxEdge, rfl⟩⟩

theorem scanSelection_selection {v : ValueBet}
    (listed : scanSelection opts anchorBook fair selection books = some v) :
      v.selection = selection := by
  obtain ⟨fairP, theoretical, fill, -, -, -, -, -, -, rfl⟩ := scanSelection_iff.mp listed
  rfl

theorem priced_of_scanSelection (fees : Fees opts.commissions) {v : ValueBet}
    (listed : scanSelection opts anchorBook fair selection books = some v) :
    Priced opts anchorBook fair books v := by
  obtain ⟨fairP, theoretical, fill, known, free, best, -, -, -, rfl⟩ :=
    scanSelection_iff.mp listed
  have net := bestNet_of_bestOtherBook best
  have above := net.le_theoretical (bestNet_of_bestOtherBook free)
  have positive : 0 < fill.effective := by linarith [net.one_lt fees]
  refine ⟨known, net, rfl, ?_, ?_, ?_⟩
  · have whole : fill.effective * (1 / fill.effective) = 1 := mul_one_div_cancel positive.ne'
    change fairP * (fill.effective - 1) - (1 - fairP) =
      fill.effective * (fairP - 1 / fill.effective)
    calc fairP * (fill.effective - 1) - (1 - fairP)
        = fill.effective * fairP - 1 := by ring
      _ = fill.effective * fairP - fill.effective * (1 / fill.effective) := by rw [whole]
      _ = fill.effective * (fairP - 1 / fill.effective) := by ring
  · have less : 1 / theoretical.effective ≤ 1 / fill.effective :=
      one_div_le_one_div_of_le positive above
    change 0 ≤ (fairP - 1 / theoretical.effective) - (fairP - 1 / fill.effective)
    linarith
  · intro empty
    rw [empty, free] at best
    cases best
    exact sub_self _

end

/-! The scan. -/

/-- The list holds the selections that qualify, once each, by falling edge. -/
structure Exact (opts : ScanOptions) (prices : Prices) (fair : Dict Str ℚ) (anchorBook : Str)
    (bets : List ValueBet) : Prop where
  selections : ∀ s, s ∈ bets.map ValueBet.selection ↔
    Qualifies opts anchorBook fair s (Prices.books prices s)
  once : (bets.map ValueBet.selection).Nodup
  falling : bets.Pairwise fun v w => w.edge ≤ v.edge
  priced : ∀ v ∈ bets, Priced opts anchorBook fair (Prices.books prices v.selection) v

omit [Unicode] in
theorem mem_books {prices : Prices} {s : Str} {books : Dict Str ℚ}
    (listed : (s, books) ∈ prices.entries) : Prices.books prices s = books := by
  rw [Prices.books, Dict.get?_eq_some_iff.mpr listed, Option.getD_some]

theorem scan_once (opts : ScanOptions) (anchorBook : Str) (fair : Dict Str ℚ)
    {entries : List (Str × Dict Str ℚ)} (nodup : (entries.map Prod.fst).Nodup) :
    ((entries.filterMap fun e =>
      scanSelection opts anchorBook fair e.1 e.2).map ValueBet.selection).Nodup := by
  have kept : ((entries.filterMap fun e => scanSelection opts anchorBook fair e.1 e.2).map
      ValueBet.selection).Sublist (entries.map Prod.fst) := by
    induction entries with
    | nil => exact .refl _
    | cons e entries ih =>
      have rest := ih (List.nodup_cons.mp nodup).2
      cases bet : scanSelection opts anchorBook fair e.1 e.2 with
      | none => simpa [bet] using rest.cons e.1
      | some v => simpa [bet, scanSelection_selection bet] using rest.cons_cons e.1
  exact kept.nodup nodup

theorem scan_exact (opts : ScanOptions) (prices : Prices) (fair : Dict Str ℚ) (anchorBook : Str)
    (fees : Fees opts.commissions) :
    (anchorDisagrees opts.commissions anchorSwapTolerance prices fair = true ∧
        scanAgainstFair opts prices fair anchorBook = []) ∨
      anchorDisagrees opts.commissions anchorSwapTolerance prices fair = false ∧
        Exact opts prices fair anchorBook (scanAgainstFair opts prices fair anchorBook) := by
  cases guard : anchorDisagrees opts.commissions anchorSwapTolerance prices fair with
  | true => exact .inl ⟨rfl, by rw [scanAgainstFair, if_pos guard]⟩
  | false =>
    refine .inr ⟨rfl, ?_⟩
    have bets (v : ValueBet) : v ∈ scanAgainstFair opts prices fair anchorBook ↔
        ∃ s books, (s, books) ∈ prices.entries ∧
          scanSelection opts anchorBook fair s books = some v := by
      rw [mem_scanAgainstFair, guard]
      simp only [true_and]
    have scanned : scanAgainstFair opts prices fair anchorBook =
        sortedBy (fun v => -v.edge)
          (prices.entries.filterMap fun e => scanSelection opts anchorBook fair e.1 e.2) := by
      rw [scanAgainstFair, guard]
      rfl
    refine ⟨fun s => ?_, ?_, ?_, fun v inside => ?_⟩
    · rw [← scanSelection_isSome_iff, List.mem_map]
      constructor
      · rintro ⟨v, inside, rfl⟩
        obtain ⟨s, books, listed, bet⟩ := (bets v).mp inside
        rw [scanSelection_selection bet, mem_books listed]
        exact ⟨v, bet⟩
      · rintro ⟨v, bet⟩
        have known : ∃ books, (s, books) ∈ prices.entries := by
          obtain ⟨fairP, e, -, net, -⟩ := scanSelection_isSome_iff.mp ⟨v, bet⟩
          obtain ⟨book, odds, offered, -⟩ := net.offered
          unfold Prices.books at offered
          cases found : prices.get? s with
          | none =>
            rw [found] at offered
            cases offered
          | some books => exact ⟨books, Dict.get?_eq_some_iff.mp found⟩
        obtain ⟨books, listed⟩ := known
        rw [mem_books listed] at bet
        exact ⟨v, (bets v).mpr ⟨s, books, listed, bet⟩, scanSelection_selection bet⟩
    · rw [scanned]
      exact ((List.perm_insertionSort _ _).map _).nodup_iff.mpr
        (scan_once opts anchorBook fair prices.nodup)
    · rw [scanned]
      exact (sortedBy_pairwise _ _).imp fun before => neg_le_neg_iff.mp before
    · obtain ⟨s, books, listed, bet⟩ := (bets v).mp inside
      rw [scanSelection_selection bet, mem_books listed]
      exact priced_of_scanSelection fees bet

end

def derbyPrices : Prices :=
  Dict.ofList [("Arsenal".toList,
    Dict.ofList [("Bet365".toList, 22 / 10), ("Smarkets".toList, 24 / 10)]),
    ("Chelsea".toList, Dict.ofList [("Bet365".toList, 18 / 10)])]

def derbyFair : Dict Str ℚ := Dict.ofList [("Arsenal".toList, 5 / 10), ("Chelsea".toList, 5 / 10)]

theorem derby_scan_exact :
    (@anchorDisagrees Unicode.ascii exchangeCommission anchorSwapTolerance derbyPrices derbyFair =
      true ∧ @scanAgainstFair Unicode.ascii {} derbyPrices derbyFair "Pinnacle".toList = []) ∨
      @anchorDisagrees Unicode.ascii exchangeCommission anchorSwapTolerance derbyPrices derbyFair =
        false ∧ @Exact Unicode.ascii {} derbyPrices derbyFair "Pinnacle".toList
          (@scanAgainstFair Unicode.ascii {} derbyPrices derbyFair "Pinnacle".toList) :=
  @scan_exact Unicode.ascii {} derbyPrices derbyFair "Pinnacle".toList (by decide +kernel)

end SharpEvPicks.Edge
