import SharpEvPicks.Edge.Breakdown
import SharpEvPicks.Edge.Threshold
import SharpEvPicks.Python.Format

/-! The anchor and the value bets of a market under another order and spelling of its bookmaker
entries, `app/edge/value.py`. -/
namespace SharpEvPicks.Edge

open Python Probabilities

theorem max?_perm {l l' : List ℚ} (perm : l.Perm l') : l.max? = l'.max? := by
  apply Option.ext
  intro m
  rw [List.max?_eq_some_iff, List.max?_eq_some_iff]
  simp only [perm.mem_iff]

section
variable [Unicode]

/-- The same entries at each selection, up to their order and the spelling of a book's name. -/
structure Respelled (p p' : Prices) : Prop where
  selections : p'.keys = p.keys
  books : ∀ s, ((p'.books s).entries.map fun e => (norm e.1, e.2)).Perm
    ((p.books s).entries.map fun e => (norm e.1, e.2))

/-- What the spellings of a book quote at a selection. -/
def Prices.own (p : Prices) (k s : Str) : List ℚ :=
  ((p.books s).entries.filter fun e => norm e.1 = k).map Prod.snd

variable {p p' : Prices} {commissions : Commissions}

theorem Respelled.symm (same : Respelled p p') : Respelled p' p :=
  ⟨same.selections.symm, fun s => (same.books s).symm⟩

theorem Respelled.own (same : Respelled p p') (k s : Str) : (p'.own k s).Perm (p.own k s) := by
  have laid (p : Prices) : p.own k s =
      (((p.books s).entries.map fun e => (norm e.1, e.2)).filter fun e =>
        e.1 = k).map Prod.snd := by
    rw [List.filter_map, List.map_map]
    rfl
  rw [laid, laid]
  exact ((same.books s).filter _).map _

theorem mem_own {k s : Str} {o : ℚ} :
    o ∈ p.own k s ↔ ∃ b, (b, o) ∈ (p.books s).entries ∧ norm b = k := by
  simp [Prices.own]

theorem named_iff {k s : Str} : k ∈ (p.books s).keys.map norm ↔ p.own k s ≠ [] := by
  simp only [Prices.own, Dict.keys, List.map_map, List.mem_map, Function.comp_apply, ne_eq,
    List.map_eq_nil_iff, List.filter_eq_nil_iff, decide_eq_true_eq, not_forall, not_not,
      exists_prop]

theorem Respelled.named (same : Respelled p p') {k s : Str} :
    k ∈ (p'.books s).keys.map norm ↔ k ∈ (p.books s).keys.map norm := by
  rw [named_iff, named_iff, ← List.length_pos_iff, ← List.length_pos_iff,
    (same.own k s).length_eq]

theorem Respelled.members (same : Respelled p p') :
    (fullMarketBooks p').Perm (fullMarketBooks p) := by
  rw [List.perm_ext_iff_of_nodup (fullMarketBooks_nodup p') (fullMarketBooks_nodup p)]
  intro k
  simp only [mem_fullMarketBooks, same.named, same.selections]

/-! The best price of a book is the greatest of its spellings. -/

omit [Unicode] in
theorem net_lt_net {rate x y : ℚ} (part : rate < 1) : net rate x < net rate y ↔ x < y := by
  unfold net
  rw [add_lt_add_iff_left, mul_lt_mul_iff_of_pos_right (sub_pos.mpr part), sub_lt_sub_iff_right]

omit [Unicode] in
theorem better_net {rate m o : ℚ} (part : rate < 1) :
    better (some (net rate m, m)) (net rate o, o) = (net rate (max m o), max m o) := by
  simp only [better, net_lt_net part]
  split
  · rename_i up
    rw [max_eq_right up.le]
  · rename_i down
    rw [max_eq_left (not_lt.mp down)]

omit [Unicode] in
theorem foldl_better {rate : ℚ} (part : rate < 1) (l : List ℚ) :
    l.foldl (fun old o => some (better old (net rate o, o))) none = l.max?.map fun m =>
      (net rate m, m) := by
  have from_some (l : List ℚ) (m : ℚ) :
      l.foldl (fun old o => some (better old (net rate o, o))) (some (net rate m, m)) =
        some (net rate (l.foldl max m), l.foldl max m) := by
    induction l generalizing m with
    | nil => rfl
    | cons o l ih => rw [List.foldl_cons, List.foldl_cons, better_net part, ih]
  cases l with
  | nil => rfl
  | cons m l => exact from_some l m

theorem get?_bestByNorm_max (fees : Fees commissions) {members : List Str} {k : Str}
    (member : k ∈ members) (p : Prices) (s : Str) :
    (bestByNorm commissions members (p.books s)).get? k =
      (p.own k s).max?.map fun m => (net ((commissions.get? k).getD 0) m, m) := by
  have part := fees.rate_lt_one k
  have quotes : ((p.books s).entries.filter fun e => norm e.1 = k).map (netQuote commissions) =
      (p.own k s).map fun o => (net ((commissions.get? k).getD 0) o, o) := by
    rw [Prices.own, List.map_map]
    apply List.map_congr_left
    intro e inside
    have named : norm e.1 = k := by simpa using (List.mem_filter.mp inside).2
    rw [Function.comp_apply, netQuote, effectiveOdds_eq, rateOf, named]
  rw [get?_bestByNorm_own commissions member, ← foldl_better part,
    ← List.foldl_map (f := netQuote commissions) (g := fun old n => some (better old n)), quotes,
      List.foldl_map]

theorem Respelled.best (same : Respelled p p') (fees : Fees commissions) (k s : Str) :
    (bestByNorm commissions (fullMarketBooks p') (p'.books s)).get? k =
      (bestByNorm commissions (fullMarketBooks p) (p.books s)).get? k := by
  by_cases member : k ∈ fullMarketBooks p
  · rw [get?_bestByNorm_max fees member,
      get?_bestByNorm_max fees (same.members.mem_iff.mpr member), max?_perm (same.own k s)]
  · rw [get?_bestByNorm_of_not_mem commissions member,
      get?_bestByNorm_of_not_mem commissions (mt same.members.mem_iff.mp member)]

theorem Respelled.bestValues (same : Respelled p p') (fees : Fees commissions) (s : Str) :
    (bestByNorm commissions (fullMarketBooks p') (p'.books s)).values.Perm
      (bestByNorm commissions (fullMarketBooks p) (p.books s)).values :=
  (Dict.entries_perm fun k => same.best fees k s).map Prod.snd

/-! The two consensus anchors. -/

variable {opts : AnchorOptions}

theorem medianConsensus_respelled (same : Respelled p p') (fees : Fees opts.commissions) :
    medianConsensus opts p' = medianConsensus opts p := by
  have medians (part : ℚ × ℚ → ℚ) :
      ((p'.values.map fun books =>
        (bestByNorm opts.commissions (fullMarketBooks p') books).values).map
          fun l => median (l.map part)) =
        (p.values.map fun books =>
          (bestByNorm opts.commissions (fullMarketBooks p) books).values).map
          fun l => median (l.map part) := by
    rw [values_map, values_map, same.selections]
    simp only [List.map_map]
    apply List.map_congr_left
    intro s _
    exact median_perm ((same.bestValues fees s).map part)
  unfold medianConsensus
  simp only [medians, same.members.length_eq]

theorem bookVector_respelled (same : Respelled p p') (fees : Fees opts.commissions) (book : Str) :
    bookVector opts (fullMarketBooks p') p' book = bookVector opts (fullMarketBooks p) p book := by
  unfold bookVector
  rw [values_map, values_map, same.selections, List.mapM_map, List.mapM_map]
  congr 1
  funext s
  exact congrArg (Option.map Prod.snd) (same.best fees book s)

omit [Unicode] in
theorem zipWith_add_right_comm (acc a b : List ℚ) :
    List.zipWith (· + ·) (List.zipWith (· + ·) acc a) b = List.zipWith (· + ·)
      (List.zipWith (· + ·) acc b) a := by
  induction acc generalizing a b with
  | nil => simp
  | cons x acc ih =>
    cases a with
    | nil => simp
    | cons y a =>
      cases b with
      | nil => simp
      | cons z b =>
        simp only [List.zipWith_cons_cons, ih a b]
        rw [add_right_comm]

omit [Unicode] in
/-- A loop that may raise returns the same results in another order. -/
theorem mapM_perm {α β ε : Type*} [Nonempty β] {f : α → Except ε β} {l l' : List α}
    (perm : l.Perm l') {r : List β} (ran : l.mapM f = .ok r) :
      ∃ r', l'.mapM f = .ok r' ∧ r.Perm r' := by
  choose! g own using ok_of_mapM ran
  have laid := mapM_ok own
  rw [ran] at laid
  cases laid
  exact ⟨l'.map g, mapM_ok fun x inside => own x (perm.mem_iff.mpr inside), perm.map g⟩

variable [Numerics ℚ]

theorem plausibleFairs_respelled (same : Respelled p p') (fees : Fees opts.commissions)
    {fairs : List (List ℚ)} (pooled : plausibleFairs opts p = .ok fairs) :
    ∃ fairs', plausibleFairs opts p' = .ok fairs' ∧ fairs.Perm fairs' := by
  have vectors (p : Prices) : plausibleFairs opts p =
      ((fullMarketBooks p).filterMap (plausibleVector opts p)).mapM fun gross =>
        devig gross opts.devigMethod := rfl
  have one : plausibleVector opts p' = plausibleVector opts p := by
    funext book
    rw [plausibleVector, plausibleVector, bookVector_respelled same fees]
  rw [vectors] at pooled
  rw [vectors, one]
  exact mapM_perm (same.members.symm.filterMap _) pooled

theorem logitConsensus_ok (same : Respelled p p') (fees : Fees opts.commissions)
    {v : Option (Str × List ℚ)} (pooled : logitConsensus opts p = .ok v) :
    logitConsensus opts p' = .ok v := by
  unfold logitConsensus at pooled ⊢
  rw [same.members.length_eq]
  split at pooled
  · rename_i few
    rw [if_pos few]
    exact pooled
  · rename_i enough
    rw [if_neg enough]
    cases pooling : plausibleFairs opts p with
    | error e =>
      rw [pooling] at pooled
      cases pooled
    | ok fairs =>
      obtain ⟨fairs', pooling', perm⟩ := plausibleFairs_respelled same fees pooling
      have zeros : (p'.values.map fun _ => (0 : ℚ)) = p.values.map fun _ => (0 : ℚ) := by
        rw [values_map, values_map, same.selections, List.map_map, List.map_map]
        rfl
      have total : (fairs'.map fun fair => fair.map logit).foldl
          (fun acc l => List.zipWith (· + ·) acc l) (p.values.map fun _ => (0 : ℚ)) =
          (fairs.map fun fair => fair.map logit).foldl (fun acc l => List.zipWith (· + ·) acc l)
            (p.values.map fun _ => (0 : ℚ)) :=
        (perm.symm.map _).foldl_eq' (fun a _ b _ acc => zipWith_add_right_comm acc a b) _
      rw [pooling] at pooled
      rw [pooling', zeros]
      simp only [Except.map, total, perm.symm.length_eq] at pooled ⊢
      exact pooled

/-! The named sharp book. -/

/-- The spellings of a book quote one price at each selection. -/
def OnePrice (p : Prices) (pref : Str) : Prop :=
  ∀ s ∈ p.keys, ∀ o ∈ p.own pref s, ∀ o' ∈ p.own pref s, o = o'

omit [Numerics ℚ] in
theorem fullMarket_own (p : Prices) (pref : Str) :
    fullMarket p pref = p.keys.mapM fun s => (p.own pref s).head? := by
  rw [fullMarket_eq]
  congr 1
  funext s
  rw [Prices.quote, Prices.own, List.head?_map, List.head?_filter]

omit [Numerics ℚ] in
theorem fullMarket_isSome_iff {pref : Str} :
    (fullMarket p pref).isSome ↔ ∀ s ∈ p.keys, p.own pref s ≠ [] := by
  rw [fullMarket_own, Option.isSome_iff_exists]
  simp only [mapM_some_iff (0 : ℚ), List.isSome_head?, ne_eq]
  exact ⟨fun ⟨_, all, _⟩ => all, fun all => ⟨_, all, rfl⟩⟩

omit [Numerics ℚ] in
theorem Respelled.own_nil (same : Respelled p p') {k s : Str} :
    p'.own k s = [] ↔ p.own k s = [] := by
  rw [← List.length_eq_zero_iff, ← List.length_eq_zero_iff, (same.own k s).length_eq]

omit [Unicode] [Numerics ℚ] in
theorem mapM_congr_mem {α β : Type*} {f g : α → Option β} {l : List α}
    (same : ∀ x ∈ l, f x = g x) : l.mapM f = l.mapM g := by
  induction l with
  | nil => rfl
  | cons x l ih =>
    rw [List.mapM_cons, List.mapM_cons, same x List.mem_cons_self,
      ih fun y inside => same y (List.mem_cons_of_mem x inside)]

omit [Numerics ℚ] in
theorem fullMarket_respelled (same : Respelled p p') {pref : Str} (one : OnePrice p pref) :
    fullMarket p' pref = fullMarket p pref := by
  rw [fullMarket_own, fullMarket_own, same.selections]
  apply mapM_congr_mem
  intro s quoted
  cases left : p.own pref s with
  | nil => rw [same.own_nil.mpr left]
  | cons o l =>
    cases right : p'.own pref s with
    | nil => cases (same.own_nil.mp right).symm.trans left
    | cons o' l' =>
      have mine : o ∈ p.own pref s := left ▸ List.mem_cons_self
      have theirs : o' ∈ p.own pref s :=
        (same.own pref s).mem_iff.mp (right ▸ List.mem_cons_self)
      rw [List.head?_cons, List.head?_cons, one s quoted o' theirs o mine]

omit [Numerics ℚ] in
theorem knownThin_respelled (same : Respelled p p') (pref : Str) :
    knownThin opts p' pref = knownThin opts p pref := by
  unfold knownThin
  rw [same.selections]

omit [Numerics ℚ] in
theorem judge_respelled (same : Respelled p p') {pref : Str}
    (clear : (fullMarket p pref).isSome → OnePrice p pref) :
      judge opts p' pref = judge opts p pref := by
  have full : fullMarket p' pref = fullMarket p pref := by
    cases complete : fullMarket p pref with
    | some gross => rw [fullMarket_respelled same (clear (by rw [complete]; rfl)), complete]
    | none =>
      have incomplete : ¬ (fullMarket p' pref).isSome := by
        rw [fullMarket_isSome_iff, same.selections]
        simp only [ne_eq, same.own_nil]
        rw [← fullMarket_isSome_iff, complete]
        exact Bool.false_ne_true
      exact Option.not_isSome_iff_eq_none.mp incomplete
  unfold judge
  rw [knownThin_respelled same, full]

omit [Numerics ℚ] in
theorem norm_rawName (some : p.keys ≠ []) {pref : Str} {gross : List ℚ}
    (taken : judge opts p pref = .accepted gross) : norm (rawName p pref) = pref := by
  have complete : (fullMarket p pref).isSome := by
    unfold judge at taken
    split at taken
    · cases taken
    · rename_i full
      rw [full]
      rfl
  obtain ⟨s, quoted⟩ := List.exists_mem_of_ne_nil _ some
  have priced := fullMarket_isSome_iff.mp complete s quoted
  obtain ⟨b, inside, named⟩ := List.mem_map.mp (named_iff.mpr priced)
  unfold rawName
  cases found : ((p.values.map Dict.keys).flatten).find? fun b => norm b = pref with
  | none =>
    have absent := List.find?_eq_none.mp found b
      ((mem_flatten_books p b).mpr ⟨s, quoted, inside⟩)
    exact absurd (decide_eq_true named) absent
  | some b => simpa using List.find?_some found

omit [Numerics ℚ] in
/-- The walk takes the same book, whatever its spelling, and the same prices. -/
theorem namedWalk_respelled (same : Respelled p p') (some : p.keys ≠ []) {books : List Str}
    (clear : ∀ pref ∈ books, (fullMarket p pref).isSome → OnePrice p pref)
    (miss : Option SharpMiss) :
    (namedWalk opts p' books miss).map (Prod.map norm id) = (namedWalk opts p books miss).map
    (Prod.map norm id) := by
  have some' : p'.keys ≠ [] := same.selections ▸ some
  induction books generalizing miss with
  | nil => rfl
  | cons pref rest ih =>
    obtain ⟨first, clear⟩ := List.forall_mem_cons.mp clear
    have judged : judge opts p' pref = judge opts p pref := judge_respelled same first
    unfold namedWalk
    rw [judged]
    cases taken : judge opts p pref with
    | accepted gross =>
      have taken' := judged.trans taken
      simp only [Except.map, Prod.map, norm_rawName some taken, norm_rawName some' taken']
    | incomplete => exact ih clear miss
    | rejected reason => exact ih clear (miss.or (Option.some reason))

theorem logitConsensus_respelled (same : Respelled p p') (fees : Fees opts.commissions) :
    (logitConsensus opts p').toOption = (logitConsensus opts p).toOption := by
  cases pooled : logitConsensus opts p with
  | ok v => rw [logitConsensus_ok same fees pooled]
  | error e =>
    cases pooled' : logitConsensus opts p' with
    | error e' => rfl
    | ok v => cases (logitConsensus_ok same.symm fees pooled').symm.trans pooled

/-- An anchor vector under its book's normalized name. -/
def normed (r : Option (Str × List ℚ) × Option SharpMiss) :
    Option (Str × List ℚ) × Option SharpMiss :=
  (r.1.map (Prod.map norm id), r.2)

theorem anchorVector_respelled (same : Respelled p p') (fees : Fees opts.commissions)
    (some : p.keys ≠ [])
    (clear : ∀ pref ∈ opts.sharpBooks, (fullMarket p pref).isSome → OnePrice p pref) :
    (anchorVector opts p').toOption.map normed = (anchorVector opts p).toOption.map normed := by
  have walked : (namedWalk opts p' opts.sharpBooks none).map (Prod.map norm id) =
      (namedWalk opts p opts.sharpBooks none).map (Prod.map norm id) :=
    namedWalk_respelled same some clear none
  unfold anchorVector namedSharpAnchor
  cases walk : namedWalk opts p opts.sharpBooks none with
  | ok anchor =>
    cases walk' : namedWalk opts p' opts.sharpBooks none with
    | error miss' =>
      rw [walk, walk'] at walked
      cases walked
    | ok anchor' =>
      rw [walk, walk'] at walked
      have equal : Prod.map norm id anchor' = Prod.map norm id anchor := Except.ok.inj walked
      simp only [Except.toOption, Option.map_some, normed, equal]
  | error miss =>
    cases walk' : namedWalk opts p' opts.sharpBooks none with
    | ok anchor' =>
      rw [walk, walk'] at walked
      cases walked
    | error miss' =>
      rw [walk, walk'] at walked
      obtain rfl : miss' = miss := Except.error.inj walked
      dsimp only
      split
      · have pooled := logitConsensus_respelled same fees
        cases pool : logitConsensus opts p with
        | error e =>
          cases pool' : logitConsensus opts p' with
          | error e' => rfl
          | ok v =>
            rw [pool, pool'] at pooled
            cases pooled
        | ok v =>
          cases pool' : logitConsensus opts p' with
          | error e' =>
            rw [pool, pool'] at pooled
            cases pooled
          | ok v' =>
            rw [pool, pool'] at pooled
            cases pooled
            rfl
      · rw [medianConsensus_respelled same fees]

/-- What an anchor says under its book's normalized name. -/
def Anchored.normed (r : Option Anchored × Option SharpMiss) :
    Option (Str × Dict Str ℚ × Bool) × Option SharpMiss :=
  (r.1.map fun a => (norm a.book, a.fair, a.fellBack), r.2)

theorem anchorFairProbs_respelled (same : Respelled p p') (fees : Fees opts.commissions)
    (clear : 2 ≤ p.keys.length → ∀ pref ∈ opts.sharpBooks, (fullMarket p pref).isSome →
      OnePrice p pref) :
    (anchorFairProbs opts p').toOption.map Anchored.normed =
      (anchorFairProbs opts p).toOption.map Anchored.normed := by
  unfold anchorFairProbs
  rw [same.selections]
  split
  · rfl
  · rename_i many
    have some : p.keys ≠ [] := by
      intro empty
      rw [empty] at many
      exact many (by decide)
    have zipped : zipFair p' = zipFair p := by
      funext fair
      rw [zipFair, zipFair, same.selections]
    have vector := anchorVector_respelled same fees some (clear (not_lt.mp many))
    cases chosen : anchorVector opts p with
    | error e =>
      cases chosen' : anchorVector opts p' with
      | error e' => rfl
      | ok r' =>
        rw [chosen, chosen'] at vector
        cases vector
    | ok r =>
      cases chosen' : anchorVector opts p' with
      | error e' =>
        rw [chosen, chosen'] at vector
        cases vector
      | ok r' =>
        rw [chosen, chosen'] at vector
        have equal : normed r' = normed r := Option.some.inj vector
        obtain ⟨anchor, miss⟩ := r
        obtain ⟨anchor', miss'⟩ := r'
        obtain ⟨books, rfl⟩ : anchor'.map (Prod.map norm id) = anchor.map (Prod.map norm id) ∧
            miss' = miss :=
          Prod.mk.inj equal
        cases anchor with
        | none =>
          cases anchor' with
          | none => rfl
          | some a' => cases books
        | some a =>
          cases anchor' with
          | none => cases books
          | some a' =>
            obtain ⟨book, odds⟩ := a
            obtain ⟨book', odds'⟩ := a'
            obtain ⟨named, rfl⟩ : norm book' = norm book ∧ odds' = odds :=
              Prod.mk.inj (Option.some.inj books)
            dsimp only
            cases devigged : devigWithProvenance odds' opts.devigMethod with
            | error e => rfl
            | ok pair =>
              simp only [Except.map, Except.toOption, Option.map_some, Anchored.normed,
                zipped, named]

end

end SharpEvPicks.Edge
