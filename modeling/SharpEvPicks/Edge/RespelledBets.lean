import SharpEvPicks.Edge.Respelling

/-! The value bets of `app/edge/value.py` under another order and spelling of the bookmaker entries.
-/
namespace SharpEvPicks.Edge

open Python Probabilities

section
variable [Unicode] {p p' : Prices} {commissions : Commissions} {anchor anchor' : Str}

/-! The best fillable price. -/

theorem Respelled.entry (same : Respelled p p') {s b : Str} {o : ℚ}
    (listed : (b, o) ∈ (p.books s).entries) :
    ∃ b', (b', o) ∈ (p'.books s).entries ∧ norm b' = norm b := by
  have named : o ∈ p.own (norm b) s := mem_own.mpr ⟨b, listed, rfl⟩
  exact mem_own.mp ((same.own (norm b) s).mem_iff.mpr named)

theorem eligible_norm {b b' : Str} {allowlist : List Str} {o : ℚ}
    (anchored : norm anchor' = norm anchor) (named : norm b' = norm b) :
      eligible anchor' allowlist b' o = eligible anchor allowlist b o := by
  simp only [eligible, anchored, named]

theorem effectiveOdds_norm {b b' : Str} (named : norm b' = norm b) (o : ℚ) :
    effectiveOdds commissions b' o = effectiveOdds commissions b o := by
  rw [effectiveOdds_eq, effectiveOdds_eq, rateOf, rateOf, named]

theorem BestNet.respelled (same : Respelled p p') (anchored : norm anchor' = norm anchor)
    {allowlist : List Str} {s : Str} {e : ℚ}
    (net : BestNet commissions anchor allowlist (p.books s) e) :
    BestNet commissions anchor' allowlist (p'.books s) e := by
  constructor
  · obtain ⟨b, o, listed, may, rfl⟩ := net.offered
    obtain ⟨b', listed', named⟩ := same.entry listed
    exact ⟨b', o, listed', (eligible_norm anchored named).trans may, effectiveOdds_norm named o⟩
  · intro b' o listed' may'
    obtain ⟨b, listed, named⟩ := same.symm.entry listed'
    rw [← effectiveOdds_norm named]
    exact net.best b o listed ((eligible_norm anchored.symm named).trans may')

variable {opts : ScanOptions} {fair : Dict Str ℚ}

theorem Qualifies.respelled (same : Respelled p p') (anchored : norm anchor' = norm anchor)
    {s : Str} (fits : Qualifies opts anchor fair s (p.books s)) :
      Qualifies opts anchor' fair s (p'.books s) := by
  obtain ⟨fairP, e, known, net, gates⟩ := fits
  exact ⟨fairP, e, known, net.respelled same anchored, gates⟩

/-- What is said of a bet: its selection, its price net of commission and its edge. -/
def ValueBet.priced (v : ValueBet) : Str × ℚ × ℚ := (v.selection, v.bestOddsEffective, v.edge)

theorem scanSelection_respelled (same : Respelled p p') (anchored : norm anchor' = norm anchor)
    (fees : Fees opts.commissions) (s : Str) :
    (scanSelection opts anchor' fair s (p'.books s)).map ValueBet.priced =
      (scanSelection opts anchor fair s (p.books s)).map ValueBet.priced := by
  cases bet : scanSelection opts anchor fair s (p.books s) with
  | none =>
    cases bet' : scanSelection opts anchor' fair s (p'.books s) with
    | none => rfl
    | some v' =>
      have fits := (scanSelection_isSome_iff.mp ⟨v', bet'⟩).respelled same.symm anchored.symm
      obtain ⟨v, listed⟩ := scanSelection_isSome_iff.mpr fits
      cases bet.symm.trans listed
  | some v =>
    have fits := (scanSelection_isSome_iff.mp ⟨v, bet⟩).respelled same anchored
    obtain ⟨v', bet'⟩ := scanSelection_isSome_iff.mpr fits
    have mine := priced_of_scanSelection fees bet
    have theirs := priced_of_scanSelection fees bet'
    have named : v'.selection = v.selection :=
      (scanSelection_selection bet').trans (scanSelection_selection bet).symm
    have price : v'.bestOddsEffective = v.bestOddsEffective :=
      theirs.net.unique (mine.net.respelled same anchored)
    have chance : v'.sharpFairProb = v.sharpFairProb := by
      have known := theirs.fair
      rw [named, mine.fair] at known
      exact (Option.some.inj known).symm
    rw [bet', Option.map_some, Option.map_some, ValueBet.priced, ValueBet.priced, mine.edge,
      theirs.edge, named, price, chance]

/-! The swap guard. -/

/-- Every price is above one. -/
def Above (p : Prices) : Prop := ∀ s, ∀ e ∈ (p.books s).entries, 1 < e.2

theorem Above.own (above : Above p) {k s : Str} {o : ℚ} (listed : o ∈ p.own k s) : 1 < o := by
  obtain ⟨b, inside, -⟩ := mem_own.mp listed
  exact above s (b, o) inside

/-- One step of `_consensus_implied`. -/
def keepLeast (commissions : Commissions) (best : Dict Str ℚ) (e : Str × ℚ) : Dict Str ℚ :=
  if e.2 ≤ 1 then best
  else
    match best.get? (norm e.1) with
    | none => best.set (norm e.1) (1 / effectiveOdds commissions e.1 e.2)
    | some old =>
      if 1 / effectiveOdds commissions e.1 e.2 < old then
        best.set (norm e.1) (1 / effectiveOdds commissions e.1 e.2)
      else best

theorem impliedByNorm_eq (commissions : Commissions) (books : Dict Str ℚ) :
    impliedByNorm commissions books = books.entries.foldl (keepLeast commissions) Dict.empty := rfl

def lower (old : Option ℚ) (next : ℚ) : ℚ :=
  match old with
  | none => next
  | some old => if next < old then next else old

def least (commissions : Commissions) (old : Option ℚ) (e : Str × ℚ) : Option ℚ :=
  if e.2 ≤ 1 then old else some (lower old (1 / effectiveOdds commissions e.1 e.2))

theorem get?_keepLeast (best : Dict Str ℚ) (e : Str × ℚ) (k : Str) :
    (keepLeast commissions best e).get? k =
      if norm e.1 = k then least commissions (best.get? k) e else best.get? k := by
  unfold keepLeast least
  by_cases own : norm e.1 = k
  · subst own
    rw [if_pos rfl]
    split
    · rfl
    · split
      · rename_i kept
        rw [Dict.get?_set_self, kept]
        rfl
      · rename_i old kept
        rw [kept]
        dsimp only [lower]
        split
        · exact Dict.get?_set_self ..
        · exact kept
  · rw [if_neg own]
    split
    · rfl
    · split
      · exact Dict.get?_set_ne _ (Ne.symm own) _
      · split
        · exact Dict.get?_set_ne _ (Ne.symm own) _
        · rfl

omit [Unicode] in
theorem lower_net {rate m o : ℚ} (part : rate < 1) (hm : 1 < m) (ho : 1 < o) :
    lower (some (1 / net rate m)) (1 / net rate o) = 1 / net rate (max m o) := by
  have positive (x : ℚ) (gt : 1 < x) : 0 < net rate x := zero_lt_one.trans (one_lt_net part gt)
  simp only [lower, one_div_lt_one_div (positive o ho) (positive m hm), net_lt_net part]
  split
  · rename_i up
    rw [max_eq_right up.le]
  · rename_i down
    rw [max_eq_left (not_lt.mp down)]

omit [Unicode] in
theorem foldl_lower {rate : ℚ} (part : rate < 1) {l : List ℚ} (above : ∀ o ∈ l, 1 < o) :
    l.foldl (fun old o => some (lower old (1 / net rate o))) none = l.max?.map fun m =>
      1 / net rate m := by
  have from_some (l : List ℚ) (m : ℚ) (hm : 1 < m) (above : ∀ o ∈ l, 1 < o) :
      l.foldl (fun old o => some (lower old (1 / net rate o))) (some (1 / net rate m)) =
        some (1 / net rate (l.foldl max m)) := by
    induction l generalizing m with
    | nil => rfl
    | cons o l ih =>
      obtain ⟨ho, above⟩ := List.forall_mem_cons.mp above
      rw [List.foldl_cons, List.foldl_cons, lower_net part hm ho, ih _ (lt_max_of_lt_left hm) above]
  cases l with
  | nil => rfl
  | cons m l =>
    obtain ⟨hm, above⟩ := List.forall_mem_cons.mp above
    exact from_some l m hm above

theorem get?_impliedByNorm (fees : Fees commissions) (above : Above p) (k s : Str) :
    (impliedByNorm commissions (p.books s)).get? k =
      (p.own k s).max?.map fun m => 1 / net ((commissions.get? k).getD 0) m := by
  have law (best : Dict Str ℚ) (e : Str × ℚ) : (keepLeast commissions best e).get? k =
      if norm e.1 = k then least commissions (best.get? k) e else best.get? k :=
        get?_keepLeast best e k
  rw [impliedByNorm_eq, Dict.get?_foldl_own law, Dict.get?_empty,
    ← foldl_lower (fees.rate_lt_one k) fun o listed => above.own listed, Prices.own,
      List.foldl_map]
  apply List.foldl_ext
  intro old e inside
  have named : norm e.1 = k := by simpa using (List.mem_filter.mp inside).2
  rw [least, if_neg (above s e (List.mem_filter.mp inside).1).not_ge, effectiveOdds_eq,
    rateOf, named]

theorem impliedByNorm_respelled (same : Respelled p p') (fees : Fees commissions) (above : Above p)
    (above' : Above p') (s : Str) :
    (impliedByNorm commissions (p'.books s)).values.Perm
    (impliedByNorm commissions (p.books s)).values := by
  refine (Dict.entries_perm fun k => ?_).map Prod.snd
  rw [get?_impliedByNorm fees above', get?_impliedByNorm fees above, max?_perm (same.own k s)]

theorem anchorDisagrees_respelled (same : Respelled p p') (fees : Fees commissions)
    (above : Above p) (above' : Above p') (tolerance : ℚ) (fair : Dict Str ℚ) :
    anchorDisagrees commissions tolerance p' fair =
      anchorDisagrees commissions tolerance p fair := by
  have perm := impliedByNorm_respelled same fees above above'
  have ref : consensusImplied commissions p' fair = consensusImplied commissions p fair := by
    unfold consensusImplied
    congr 1
    apply mapM_congr_mem
    intro s _
    change (if (impliedByNorm commissions (p'.books s)).values.length < minConsensusBooks then none
        else some (s, median (impliedByNorm commissions (p'.books s)).values)) =
      if (impliedByNorm commissions (p.books s)).values.length < minConsensusBooks then none
        else some (s, median (impliedByNorm commissions (p.books s)).values)
    rw [(perm s).length_eq, median_perm (perm s)]
  rw [anchorDisagrees, anchorDisagrees, ref]

theorem Respelled.above (same : Respelled p p') (above : Above p) : Above p' := by
  intro s e listed
  obtain ⟨b, inside, -⟩ := same.symm.entry listed
  exact above s (b, e.2) inside

theorem scanAgainstFair_respelled (same : Respelled p p') (fees : Fees opts.commissions)
    (above : Above p) (anchored : norm anchor' = norm anchor) :
    (scanAgainstFair opts p' fair anchor').map ValueBet.priced =
      (scanAgainstFair opts p fair anchor).map ValueBet.priced := by
  have laid (p : Prices) (anchor : Str)
      (agrees : anchorDisagrees opts.commissions anchorSwapTolerance p fair = false) :
      (scanAgainstFair opts p fair anchor).map ValueBet.priced =
        sortedBy (fun t => -t.2.2)
          (p.keys.filterMap fun s =>
            (scanSelection opts anchor fair s (p.books s)).map ValueBet.priced) := by
    rw [scanAgainstFair, agrees, if_neg Bool.false_ne_true, p.entries_eq Dict.empty,
      List.filterMap_map]
    have sorted (bets : List ValueBet) : (sortedBy (fun v => -v.edge) bets).map ValueBet.priced =
        sortedBy (fun t => -t.2.2) (bets.map ValueBet.priced) :=
          List.map_insertionSort _ _ _ _ fun _ _ _ _ => Iff.rfl
    rw [sorted, List.map_filterMap]
    rfl
  have guard := anchorDisagrees_respelled same fees above (same.above above)
    anchorSwapTolerance fair
  cases disagrees : anchorDisagrees opts.commissions anchorSwapTolerance p fair with
  | true => rw [scanAgainstFair, scanAgainstFair, guard, disagrees, if_pos rfl, if_pos rfl]
  | false =>
    rw [laid p anchor disagrees, laid p' anchor' (guard.trans disagrees), same.selections]
    congr 1
    apply List.filterMap_congr
    intro s _
    exact scanSelection_respelled same anchored fees s

/-! Both results. -/

variable [Numerics ℚ]

/-- The type of an anchor and its fair values. -/
def Anchored.priced (a : Anchored) : AnchorType × Dict Str ℚ := (anchorTypeFor a.book, a.fair)

/-- Under every setting, the anchor and the bets are those of each listing of the same quotes. -/
def Ignores (p : Prices) : Prop :=
  ∀ (opts : AnchorOptions) (p' : Prices), opts.sharpBooks = sharpBooks →
    Fees opts.commissions → Respelled p p' →
    (anchorFairProbs opts p').toOption.map (fun r => r.1.map Anchored.priced) =
        (anchorFairProbs opts p).toOption.map (fun r => r.1.map Anchored.priced) ∧
      ∀ scan : ScanOptions, (findValueBets p' opts scan).toOption.map (List.map ValueBet.priced) =
        (findValueBets p opts scan).toOption.map (List.map ValueBet.priced)

/-- Each sharp book that quotes every selection of a market quotes it at one price. -/
def SharpOnePrice (p : Prices) : Prop :=
  2 ≤ p.keys.length → ∀ pref ∈ sharpBooks, (∀ s ∈ p.keys, p.own pref s ≠ []) →
    OnePrice p pref

omit [Numerics ℚ] in
theorem norm_clean {name : Str} (clean : ∀ c ∈ name, Clean c) (bare : strip name = name) :
    norm name = name := by
  rw [norm, bare, lower_clean clean]

omit [Numerics ℚ] in
theorem norm_sharp {b : Str} (sharp : b ∈ sharpBooks) : norm b = b := by
  have clean : ∀ name ∈ sharpBooks, (∀ c ∈ name, Clean c) ∧ strip name = name := by decide
  exact norm_clean (clean b sharp).1 (clean b sharp).2

omit [Numerics ℚ] in
theorem map_norm_sharpBooks : sharpBooks.map norm = sharpBooks :=
  (List.map_congr_left fun _ sharp => norm_sharp sharp).trans (List.map_id _)

/-- The anchor type of a normalized name. -/
def typeOf (normBook : Str) : AnchorType :=
  if contains "pinnacle".toList normBook then .pinnacle
  else if normBook ∈ sharpBooks then .sharp
  else .consensus

omit [Numerics ℚ] in
/-- The anchor of a consensus is no sharp book under any spelling. -/
theorem anchorTypeFor_eq (book : Str) : anchorTypeFor book = typeOf (norm book) := by
  unfold anchorTypeFor
  rw [map_norm_sharpBooks]
  split
  · rename_i own
    rw [own, norm_clean (by decide) (by decide)]
    rfl
  · rfl

omit [Numerics ℚ] in
theorem priced_of_normed (r : Except DevigError (Option Anchored × Option SharpMiss)) :
    r.toOption.map (fun r => r.1.map Anchored.priced) =
      (r.toOption.map Anchored.normed).map fun n => n.1.map fun a => (typeOf a.1, a.2.1) := by
  cases r with
  | error e => rfl
  | ok r =>
    obtain ⟨a, miss⟩ := r
    cases a with
    | none => rfl
    | some a => simp only [Except.toOption, Option.map_some, Anchored.priced, Anchored.normed,
        anchorTypeFor_eq]

theorem findValueBets_respelled (same : Respelled p p') {opts : AnchorOptions}
    (scan : ScanOptions) (fees : Fees opts.commissions) (above : Above p)
    (anchored : (anchorFairProbs { opts with exchangeDemoted := false } p').toOption.map
      Anchored.normed = (anchorFairProbs { opts with exchangeDemoted := false } p).toOption.map
        Anchored.normed) :
    (findValueBets p' opts scan).toOption.map (List.map ValueBet.priced) =
      (findValueBets p opts scan).toOption.map (List.map ValueBet.priced) := by
  unfold findValueBets
  cases priced : anchorFairProbs { opts with exchangeDemoted := false } p with
  | error e =>
    cases priced' : anchorFairProbs { opts with exchangeDemoted := false } p' with
    | error e' => rfl
    | ok r' =>
      rw [priced, priced'] at anchored
      cases anchored
  | ok r =>
    cases priced' : anchorFairProbs { opts with exchangeDemoted := false } p' with
    | error e' =>
      rw [priced, priced'] at anchored
      cases anchored
    | ok r' =>
      rw [priced, priced'] at anchored
      obtain ⟨a, miss⟩ := r
      obtain ⟨a', miss'⟩ := r'
      have equal := congrArg Prod.fst (Option.some.inj anchored)
      cases a with
      | none =>
        cases a' with
        | none => rfl
        | some a' => cases equal
      | some a =>
        cases a' with
        | none => cases equal
        | some a' =>
          obtain ⟨named, known⟩ : norm a'.book = norm a.book ∧
              (a'.fair, a'.fellBack) = (a.fair, a.fellBack) :=
            Prod.mk.inj (Option.some.inj equal)
          obtain ⟨fair, fellBack⟩ := Prod.mk.inj known
          simp only [Except.map, Except.toOption, Option.map_some, fair, fellBack]
          exact congrArg some (scanAgainstFair_respelled same fees above named)

theorem ignores_of_sharpOnePrice (above : Above p) (one : SharpOnePrice p) : Ignores p := by
  intro opts p' sharp fees same
  have clear (opts : AnchorOptions) (sharp : opts.sharpBooks = sharpBooks)
      (two : 2 ≤ p.keys.length)
      (pref : Str) (listed : pref ∈ opts.sharpBooks) (complete : (fullMarket p pref).isSome) :
        OnePrice p pref :=
    one two pref (sharp ▸ listed) (fullMarket_isSome_iff.mp complete)
  refine ⟨?_, fun scan => findValueBets_respelled same scan fees above ?_⟩
  · rw [priced_of_normed, priced_of_normed, anchorFairProbs_respelled same fees (clear opts sharp)]
  · exact anchorFairProbs_respelled same fees (clear _ sharp)

end

end SharpEvPicks.Edge
