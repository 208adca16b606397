import SharpEvPicks.Edge.RespelledBets
import SharpEvPicks.Probabilities.ClosedForm

/-! A sharp book with two prices under one name: the anchor of `app/edge/value.py` takes the one
that is met first. -/
namespace SharpEvPicks.Edge

open Python Probabilities

/-! A listing that meets a given entry first. -/

theorem lead_nodup {d : Dict Str ℚ} {e : Str × ℚ} (listed : e ∈ d.entries) :
    ((e :: d.entries.erase e).map Prod.fst).Nodup :=
  (((List.perm_cons_erase listed).map Prod.fst).nodup_iff).mp d.nodup

def Prices.lead (p : Prices) (s : Str) (e : Str × ℚ) (listed : e ∈ (p.books s).entries) :
    Prices :=
  p.set s ⟨e :: (p.books s).entries.erase e, lead_nodup listed⟩

section
variable [Unicode] {p : Prices} {s : Str} {e : Str × ℚ} {listed : e ∈ (p.books s).entries}
  {pref : Str}

omit [Unicode] in
theorem lead_books_self :
    (p.lead s e listed).books s = ⟨e :: (p.books s).entries.erase e, lead_nodup listed⟩ := by
  rw [Prices.lead, Prices.books, Dict.get?_set_self]
  rfl

omit [Unicode] in
theorem lead_books_ne {t : Str} (ne : t ≠ s) : (p.lead s e listed).books t = p.books t := by
  rw [Prices.lead, Prices.books, Dict.get?_set_ne _ ne]
  rfl

theorem lead_respelled (quoted : s ∈ p.keys) : Respelled p (p.lead s e listed) := by
  constructor
  · rw [Prices.lead, Dict.keys_set, if_pos quoted]
  · intro t
    by_cases here : t = s
    · subst here
      rw [lead_books_self]
      exact (List.perm_cons_erase listed).symm.map _
    · rw [lead_books_ne here]

theorem lead_own_self (named : norm e.1 = pref) :
    ((p.lead s e listed).own pref s).head? = some e.2 := by
  rw [Prices.own, lead_books_self, List.filter_cons_of_pos (by simpa using named)]
  rfl

theorem lead_own_ne {t : Str} (ne : t ≠ s) : (p.lead s e listed).own pref t = p.own pref t := by
  rw [Prices.own, Prices.own, lead_books_ne ne]

end

/-! A setting that judges no sharp book but one, at a commission of `rate`. -/

theorem isolating_nodup (pref : Str) (rate : ℚ) :
    ((sharpBooks.map fun b => (b, if b = pref then rate else 0)).map Prod.fst).Nodup := by
  rw [List.map_map]
  change (sharpBooks.map id).Nodup
  decide

theorem thinned_nodup (pref : Str) :
    (((sharpBooks.filter (· ≠ pref)).map fun b => (b, (0 : ℚ))).map Prod.fst).Nodup := by
  rw [List.map_map]
  change ((sharpBooks.filter (· ≠ pref)).map id).Nodup
  rw [List.map_id]
  exact List.Nodup.filter _ (by decide)

def isolating (pref : Str) (rate : ℚ) (s : Str) (most : ℚ) : AnchorOptions where
  maxOverround := most
  devigMethod := .multiplicative
  commissions := ⟨sharpBooks.map fun b => (b, if b = pref then rate else 0),
    isolating_nodup pref rate⟩
  liquidity := some (Dict.empty.set s
    ⟨(sharpBooks.filter (· ≠ pref)).map fun b => (b, (0 : ℚ)), thinned_nodup pref⟩)
  exchangeMinLiquidity := 1

section
variable [Unicode] {pref s : Str} {rate most : ℚ} {p : Prices}

omit [Unicode] in
theorem isolating_rate {b : Str} (sharp : b ∈ sharpBooks) :
    (isolating pref rate s most).commissions.get? b = some (if b = pref then rate else 0) :=
  Dict.get?_eq_some_iff.mpr (List.mem_map.mpr ⟨b, sharp, rfl⟩)

omit [Unicode] in
theorem isolating_fees (nonneg : 0 ≤ rate) (part : rate < 1) :
    Fees (isolating pref rate s most).commissions := by
  intro e listed
  obtain ⟨b, -, rfl⟩ := List.mem_map.mp listed
  dsimp only
  split
  · exact ⟨nonneg, part⟩
  · exact ⟨le_rfl, zero_lt_one⟩

theorem lookup_thinned {b : Str} (sharp : b ∈ sharpBooks) :
    lookupBook (⟨(sharpBooks.filter (· ≠ pref)).map fun b => (b, (0 : ℚ)),
      thinned_nodup pref⟩ : Dict Str ℚ) b =
      if b ≠ pref then some 0 else none := by
  unfold lookupBook
  dsimp only
  cases found : ((sharpBooks.filter (· ≠ pref)).map fun b => (b, (0 : ℚ))).find? fun e =>
    norm e.1 = b with
  | none =>
    have own : ¬ b ≠ pref := by
      intro other
      have kept : b ∈ sharpBooks.filter (· ≠ pref) :=
        List.mem_filter.mpr ⟨sharp, decide_eq_true other⟩
      have absent := List.find?_eq_none.mp found (b, 0) (List.mem_map.mpr ⟨b, kept, rfl⟩)
      exact absent (decide_eq_true (norm_sharp sharp))
    rw [if_neg own]
    rfl
  | some e =>
    obtain ⟨b', kept, rfl⟩ := List.mem_map.mp (List.mem_of_find?_eq_some found)
    obtain ⟨sharp', other⟩ := List.mem_filter.mp kept
    have named : norm b' = b := by simpa using List.find?_some found
    rw [norm_sharp sharp'] at named
    rw [← named, if_pos (of_decide_eq_true other)]
    rfl

/-- Every sharp book but `pref` is known to be thin. -/
theorem thin_iff (quoted : s ∈ p.keys) {b : Str} (sharp : b ∈ sharpBooks) :
    knownThin (isolating pref rate s most) p b = true ↔ b ≠ pref := by
  have held (t : Str) :
      (((isolating pref rate s most).liquidity.bind (·.get? t)).bind (lookupBook · (norm b))) =
      if t = s ∧ b ≠ pref then some 0 else none := by
    rw [norm_sharp sharp]
    change ((Dict.empty.set s _).get? t).bind (lookupBook · b) = _
    rw [Dict.get?_set]
    by_cases here : t = s
    · rw [if_pos here, Option.bind_some, lookup_thinned sharp]
      simp only [here, true_and]
    · simp [here]
  unfold knownThin
  simp only [held, List.any_eq_true]
  constructor
  · rintro ⟨t, -, thin⟩
    by_contra own
    simp [own] at thin
  · intro other
    refine ⟨s, quoted, ?_⟩
    rw [if_pos ⟨rfl, other⟩]
    exact decide_eq_true (zero_lt_one (α := ℚ))

theorem judge_other (quoted : s ∈ p.keys) {b : Str} (sharp : b ∈ sharpBooks)
    (other : b ≠ pref) (gross : List ℚ) :
    judge (isolating pref rate s most) p b ≠ .accepted gross := by
  have exchange : ((isolating pref rate s most).commissions.get? (norm b)).isSome = true := by
    rw [norm_sharp sharp, isolating_rate sharp]
    rfl
  unfold judge
  cases fullMarket p b with
  | none => exact fun absurd => by cases absurd
  | some prices =>
    have floor : decide (0 < (isolating pref rate s most).exchangeMinLiquidity) = true :=
      decide_eq_true zero_lt_one
    simp only [exchange, (thin_iff quoted sharp).mpr other, floor, Bool.and_self, if_true]
    exact fun absurd => by cases absurd

theorem judge_own (quoted : s ∈ p.keys) (sharp : pref ∈ sharpBooks) {gross : List ℚ}
    (full : fullMarket p pref = some gross)
    (sane : (isolating pref rate s most).sane (overround (gross.map (net rate)))) :
    judge (isolating pref rate s most) p pref = .accepted gross := by
  have clear : knownThin (isolating pref rate s most) p pref = false :=
    Bool.eq_false_iff.mpr fun thin => (thin_iff quoted sharp).mp thin rfl
  have netted : effectiveOdds (isolating pref rate s most).commissions pref = net rate := by
    funext o
    rw [effectiveOdds_eq, rateOf, norm_sharp sharp, isolating_rate sharp, if_pos rfl,
      Option.getD_some]
  have kept : (isolating pref rate s most).exchangeDemoted = false := rfl
  unfold judge
  rw [full, netted]
  simp only [clear, kept, Bool.and_false, Bool.false_and, Bool.false_eq_true, if_false, if_pos sane]

theorem namedWalk_only {opts : AnchorOptions} {books : List Str} {gross : List ℚ}
    (miss : Option SharpMiss)
    (others : ∀ b ∈ books, b ≠ pref → ∀ gross, judge opts p b ≠ .accepted gross)
    (inside : pref ∈ books) (taken : judge opts p pref = .accepted gross) :
      namedWalk opts p books miss = .ok (rawName p pref, gross) := by
  induction books generalizing miss with
  | nil => cases inside
  | cons b books ih =>
    obtain ⟨first, others⟩ := List.forall_mem_cons.mp others
    unfold namedWalk
    by_cases own : b = pref
    · rw [own, taken]
    · have rest : pref ∈ books := (List.mem_cons.mp inside).resolve_left (Ne.symm own)
      cases judged : judge opts p b with
      | accepted prices => exact absurd judged (first own prices)
      | incomplete => exact ih miss others rest
      | rejected reason => exact ih _ others rest

/-! Net prices of at most two have a margin of zero or more. -/

omit [Unicode] in
theorem implied_sum_bounds {l : List ℚ} (netted : ∀ x ∈ l, 1 < x ∧ x ≤ 2) :
    (l.length : ℚ) / 2 ≤ (l.map fun x => 1 / x).sum ∧
    (l.map fun x => 1 / x).sum ≤ (l.length : ℚ) := by
  induction l with
  | nil => simp
  | cons x l ih =>
    obtain ⟨⟨gt, le⟩, netted⟩ := List.forall_mem_cons.mp netted
    obtain ⟨least, most⟩ := ih netted
    have positive : 0 < x := zero_lt_one.trans gt
    have half : 1 / 2 ≤ 1 / x := one_div_le_one_div_of_le positive le
    have whole : 1 / x ≤ 1 := (div_le_one positive).mpr gt.le
    simp only [List.map_cons, List.sum_cons, List.length_cons]
    push_cast
    constructor
    · linarith
    · linarith

omit [Unicode] in
theorem overround_bounds {l : List ℚ} (netted : ∀ x ∈ l, 1 < x ∧ x ≤ 2)
    (two : 2 ≤ l.length) : 0 ≤ overround l ∧ overround l ≤ (l.length : ℚ) := by
  obtain ⟨least, most⟩ := implied_sum_bounds netted
  have count : (2 : ℚ) ≤ (l.length : ℚ) := by exact_mod_cast two
  unfold overround
  constructor
  · linarith
  · linarith

/-- A commission that takes the prices up to `1 + most` down to two or less. -/
def lifting (most : ℚ) : ℚ := 1 - 1 / (1 + most)

omit [Unicode] in
theorem lifting_rate {most : ℚ} (nonneg : 0 ≤ most) :
    0 ≤ lifting most ∧ lifting most < 1 := by
  have positive : 0 < 1 + most := by linarith
  have part : 0 < 1 / (1 + most) := one_div_pos.mpr positive
  have whole : 1 / (1 + most) ≤ 1 := (div_le_one positive).mpr (by linarith)
  unfold lifting
  constructor
  · linarith
  · linarith

omit [Unicode] in
theorem net_lifting_le {most o : ℚ} (nonneg : 0 ≤ most) (bounded : o ≤ most) :
    net (lifting most) o ≤ 2 := by
  have positive : 0 < 1 + most := by linarith
  have share : (o - 1) / (1 + most) ≤ 1 := (div_le_one positive).mpr (by linarith)
  have laid : net (lifting most) o = 1 + (o - 1) / (1 + most) := by
    unfold net lifting
    ring
  linarith

/-! The fair value at the selection moves with the price that is met first. -/

omit [Unicode] in
theorem share_inj {x y rest : ℚ} (hx : 0 < x) (hy : 0 < y) (others : 0 < rest)
    (same : x / (x + rest) = y / (y + rest)) : x = y := by
  rw [div_eq_div_iff (by linarith) (by linarith)] at same
  have cross : (x - y) * rest = 0 := by linear_combination same
  exact sub_eq_zero.mp ((mul_eq_zero.mp cross).resolve_right others.ne')

variable [Numerics ℚ]

omit [Unicode] in
theorem devig_multiplicative {odds : List ℚ} (two : 2 ≤ odds.length)
    (above : ∀ o ∈ odds, 1 < o) :
    devigWithProvenance odds .multiplicative = .ok (multiplicative (inverses odds), false) := by
  have some : odds ≠ [] := by
    rintro rfl
    cases two
  have normalized := normalized_multiplicative (inverses_sum_pos some above)
  rw [devigWithProvenance, devigWithDiagnostics_eq two above]
  simp only [methodShares, Except.map, normalized, Option.isSome_none]

/-- The isolated book's fair value at `s`, where `price` lays out what is met first. -/
theorem isolated_fair {price : Str → ℚ} (sharp : pref ∈ sharpBooks) (quoted : s ∈ p.keys)
    (two : 2 ≤ p.keys.length) (met : ∀ t ∈ p.keys, (p.own pref t).head? = some (price t))
    (above : ∀ t ∈ p.keys, 1 < price t) {most : ℚ} (nonneg : 0 ≤ most)
    (bounded : ∀ t ∈ p.keys, price t ≤ most) :
    ∃ a miss, anchorFairProbs (isolating pref (lifting most) s p.keys.length) p = .ok
      (some a, miss) ∧ a.fair.get? s = some
        (1 / price s / (1 / price s + ((p.keys.erase s).map fun t => 1 / price t).sum)) := by
  have full : fullMarket p pref = some (p.keys.map price) := by
    rw [fullMarket_own, mapM_some_iff (0 : ℚ)]
    refine ⟨fun t listed => by rw [met t listed]; rfl, ?_⟩
    apply List.map_congr_left
    intro t listed
    rw [met t listed]
    rfl
  have sane : (isolating pref (lifting most) s p.keys.length).sane
      (overround ((p.keys.map price).map (net (lifting most)))) := by
    have netted : ∀ x ∈ (p.keys.map price).map (net (lifting most)), 1 < x ∧ x ≤ 2 := by
      intro x inside
      simp only [List.map_map, List.mem_map, Function.comp_apply] at inside
      obtain ⟨t, listed, rfl⟩ := inside
      exact ⟨one_lt_net (lifting_rate nonneg).2 (above t listed),
        net_lifting_le nonneg (bounded t listed)⟩
    have bounds := overround_bounds netted (by simpa using two)
    rw [List.length_map, List.length_map] at bounds
    exact bounds
  have walked : namedSharpAnchor (isolating pref (lifting most) s p.keys.length) p =
      .ok (rawName p pref, p.keys.map price) :=
    namedWalk_only none (fun b sharp' other gross => judge_other quoted sharp' other gross) sharp
      (judge_own quoted sharp full sane)
  have devigged : devigWithProvenance (p.keys.map price) .multiplicative =
      .ok (multiplicative (inverses (p.keys.map price)), false) :=
    devig_multiplicative (by simpa using two) (by simpa using above)
  refine ⟨⟨rawName p pref, zipFair p (multiplicative (inverses (p.keys.map price))), false⟩,
    none, ?_, ?_⟩
  · rw [anchorFairProbs, if_neg two.not_gt, anchorVector, walked]
    dsimp only
    change (devigWithProvenance (p.keys.map price) .multiplicative).map _ = _
    rw [devigged]
    rfl
  · have total : (inverses (p.keys.map price)).sum =
        1 / price s + ((p.keys.erase s).map fun t => 1 / price t).sum := by
      rw [inverses, List.map_map, ((List.perm_cons_erase quoted).map _).sum_eq, List.map_cons,
        List.sum_cons]
      rfl
    have laid : multiplicative (inverses (p.keys.map price)) =
        p.keys.map fun t => 1 / price t / (inverses (p.keys.map price)).sum := by
      rw [multiplicative]
      conv_lhs => rw [inverses, List.map_map, List.map_map]
      rfl
    rw [laid, get?_zipFair, if_pos quoted, total]

/-- The price of a full-market book that is met first. -/
def firstPrice (p : Prices) (pref t : Str) : ℚ := (p.own pref t).head?.getD 0

omit [Numerics ℚ] in
theorem firstPrice_mem {t : Str} (some : p.own pref t ≠ []) :
    firstPrice p pref t ∈ p.own pref t := by
  unfold firstPrice
  cases quotes : p.own pref t with
  | nil => exact absurd quotes some
  | cons o l => exact List.mem_cons_self

/-- With an entry moved to the front, its price makes the fair value. -/
theorem lead_fair (sharp : pref ∈ sharpBooks) (quoted : s ∈ p.keys)
    (two : 2 ≤ p.keys.length) (complete : ∀ t ∈ p.keys, p.own pref t ≠ [])
    (above : Above p) {most : ℚ} (nonneg : 0 ≤ most)
    (bounded : ∀ t ∈ p.keys, ∀ o ∈ p.own pref t, o ≤ most) {e : Str × ℚ}
    (listed : e ∈ (p.books s).entries) (named : norm e.1 = pref) :
    ∃ a miss, anchorFairProbs (isolating pref (lifting most) s p.keys.length)
      (p.lead s e listed) = .ok (some a, miss) ∧
      a.fair.get? s =
        some (1 / e.2 / (1 / e.2 + ((p.keys.erase s).map fun t =>
          1 / firstPrice p pref t).sum)) := by
  have same : Respelled p (p.lead s e listed) := lead_respelled quoted
  let price (t : Str) : ℚ := if t = s then e.2 else firstPrice p pref t
  have own : e.2 ∈ p.own pref s := mem_own.mpr ⟨e.1, listed, named⟩
  have priced (t : Str) (inside : t ∈ p.keys) : price t ∈ p.own pref t := by
    by_cases here : t = s
    · subst here
      simpa [price] using own
    · simpa [price, here] using firstPrice_mem (complete t inside)
  have met (t : Str) (inside : t ∈ (p.lead s e listed).keys) :
      ((p.lead s e listed).own pref t).head? = some (price t) := by
    rw [same.selections] at inside
    by_cases here : t = s
    · subst here
      rw [lead_own_self named]
      simp [price]
    · rw [lead_own_ne here]
      cases quotes : p.own pref t with
      | nil => exact absurd quotes (complete t inside)
      | cons o l => simp [price, here, firstPrice, quotes]
  obtain ⟨a, miss, anchored, fair⟩ :=
    isolated_fair sharp (same.selections ▸ quoted) (same.selections ▸ two) met
    (fun t inside => above.own (priced t (same.selections ▸ inside))) nonneg
    (fun t inside => bounded t (same.selections ▸
      inside) _ (priced t (same.selections ▸ inside)))
  rw [same.selections] at anchored fair
  refine ⟨a, miss, anchored, ?_⟩
  have others : ((p.keys.erase s).map fun t => 1 / price t) =
      (p.keys.erase s).map fun t => 1 / firstPrice p pref t := by
    apply List.map_congr_left
    intro t inside
    have ne : t ≠ s := (List.Nodup.mem_erase_iff p.nodup).mp inside |>.1
    simp [price, ne]
  rw [fair, others]
  simp [price]

theorem sharpOnePrice_of_ignores (above : Above p) (ignores : Ignores p) : SharpOnePrice p := by
  intro two pref sharp complete s quoted o ho o' ho'
  obtain ⟨b, listed, named⟩ := mem_own.mp ho
  obtain ⟨b', listed', named'⟩ := mem_own.mp ho'
  have priced (t : Str) (x : ℚ) (inside : x ∈ p.own pref t) : 0 < x :=
    zero_lt_one.trans (above.own inside)
  obtain ⟨most, nonneg, bounded⟩ : ∃ most : ℚ, 0 ≤ most ∧ ∀ t ∈ p.keys,
      ∀ x ∈ p.own pref t, x ≤ most := by
    have nonneg : ∀ x ∈ p.keys.flatMap (p.own pref), 0 ≤ x := by
      intro x inside
      obtain ⟨t, -, inside⟩ := List.mem_flatMap.mp inside
      exact (priced t x inside).le
    refine ⟨(p.keys.flatMap (p.own pref)).sum, List.sum_nonneg nonneg,
      fun t listed x inside => ?_⟩
    exact List.single_le_sum nonneg x (List.mem_flatMap.mpr ⟨t, listed, inside⟩)
  obtain ⟨a, miss, anchored, fair⟩ :=
    lead_fair sharp quoted two complete above nonneg bounded listed named
  obtain ⟨a', miss', anchored', fair'⟩ :=
    lead_fair sharp quoted two complete above nonneg bounded listed' named'
  obtain ⟨rate, part⟩ := lifting_rate nonneg
  have first := (ignores (isolating pref (lifting most) s p.keys.length)
    (p.lead s (b, o) listed) rfl (isolating_fees rate part) (lead_respelled quoted)).1
  have second := (ignores (isolating pref (lifting most) s p.keys.length)
    (p.lead s (b', o') listed') rfl (isolating_fees rate part) (lead_respelled quoted)).1
  rw [anchored] at first
  rw [anchored', ← first] at second
  have equal : a'.fair = a.fair := by
    have both : a'.priced = a.priced := Option.some.inj (Option.some.inj second)
    exact congrArg Prod.snd both
  rw [equal, fair] at fair'
  have rest : 0 < ((p.keys.erase s).map fun t => 1 / firstPrice p pref t).sum := by
    apply List.sum_pos
    · intro x inside
      obtain ⟨t, kept, rfl⟩ := List.mem_map.mp inside
      exact one_div_pos.mpr (priced t _ (firstPrice_mem (complete t (List.mem_of_mem_erase kept))))
    · rw [ne_eq, List.map_eq_nil_iff, ← List.length_eq_zero_iff, List.length_erase_of_mem quoted]
      omega
  have shares := share_inj (one_div_pos.mpr (priced s o ho))
    (one_div_pos.mpr (priced s o' ho')) rest (Option.some.inj fair')
  simpa using shares

/-- The results of a market are those of each listing of its quotes, under every setting, exactly
when no sharp book that quotes it all quotes two prices under one name. -/
theorem ignores_iff_sharpOnePrice (above : Above p) : Ignores p ↔ SharpOnePrice p :=
  ⟨sharpOnePrice_of_ignores above, ignores_of_sharpOnePrice above⟩

omit [Numerics ℚ] in
theorem respelled_of_keys {p p' : Prices} (selections : p'.keys = p.keys)
    (books : ∀ s ∈ p.keys, ((p'.books s).entries.map fun e => (norm e.1, e.2)).Perm
      ((p.books s).entries.map fun e => (norm e.1, e.2))) : Respelled p p' := by
  refine ⟨selections, fun s => ?_⟩
  by_cases quoted : s ∈ p.keys
  · exact books s quoted
  · rw [books_of_not_mem quoted, books_of_not_mem (selections ▸ quoted)]

omit [Unicode] [Numerics ℚ] in
theorem above_of_keys {p : Prices}
    (above : ∀ s ∈ p.keys, ∀ e ∈ (p.books s).entries, 1 < e.2) : Above p := by
  intro s e listed
  by_cases quoted : s ∈ p.keys
  · exact above s quoted e listed
  · rw [books_of_not_mem quoted] at listed
    cases listed

end

/-- Two entries of Pinnacle at Arsenal. -/
def twicePinnacle : Prices :=
  Dict.ofList
    [("Arsenal".toList, Dict.ofList [("Pinnacle".toList, 2), ("pinnacle ".toList, 19 / 10)]),
    ("Chelsea".toList, Dict.ofList [("Pinnacle".toList, 19 / 10)])]

def turnedPinnacle : Prices :=
  Dict.ofList
    [("Arsenal".toList, Dict.ofList [("pinnacle ".toList, 19 / 10), ("Pinnacle".toList, 2)]),
    ("Chelsea".toList, Dict.ofList [("Pinnacle".toList, 19 / 10)])]

def oncePinnacle : Prices :=
  Dict.ofList
    [("Arsenal".toList, Dict.ofList [("Pinnacle".toList, 2), ("pinnacle ".toList, 2)]),
    ("Chelsea".toList, Dict.ofList [("Pinnacle".toList, 19 / 10)])]

theorem once_ignores : @Ignores Unicode.ascii Numerics.trivial oncePinnacle :=
  (@ignores_iff_sharpOnePrice Unicode.ascii oncePinnacle Numerics.trivial
    (above_of_keys (by decide +kernel))).mpr (by
      have one : ∀ pref ∈ sharpBooks, ∀ s ∈ oncePinnacle.keys,
          ∀ o ∈ @Prices.own Unicode.ascii oncePinnacle pref s,
          ∀ o' ∈ @Prices.own Unicode.ascii oncePinnacle pref s, o = o' := by decide +kernel
      exact fun _ pref sharp _ => one pref sharp)

theorem twice_not_ignores :
    Above twicePinnacle ∧ @Respelled Unicode.ascii twicePinnacle turnedPinnacle ∧
      ¬ @Ignores Unicode.ascii Numerics.trivial twicePinnacle := by
  have same : @Respelled Unicode.ascii twicePinnacle turnedPinnacle :=
    @respelled_of_keys Unicode.ascii _ _ (by decide +kernel) (by decide +kernel)
  refine ⟨above_of_keys (by decide +kernel), same, fun ignores => ?_⟩
  have anchors := (ignores { devigMethod := .multiplicative } turnedPinnacle rfl (by
    decide +kernel) same).1
  have shown := congrArg (fun r => r.map fun a => a.map fun a => a.2.get? "Arsenal".toList) anchors
  revert shown
  decide +kernel

end SharpEvPicks.Edge
