import Mathlib.Algebra.Field.Rat
import Mathlib.Algebra.Order.Ring.Rat
import Mathlib.Data.List.ReduceOption
import SharpEvPicks.Backtesting.WalkForward
import SharpEvPicks.Python.SortedEnds
import SharpEvPicks.Transition.Guarded

/-! The walk-forward run does not look ahead: two runs that differ in what is not known on a date
bet alike up to that date, and a bet's model was fitted on earlier rows. -/
namespace SharpEvPicks.Backtesting

open Python Probabilities Transition

variable {K : Type*}

/-- What is known of a row before it is played. -/
structure Fixture (K : Type*) where
  matchDate : Int
  homeTeam : Str
  awayTeam : Str
  b365 : List (Option K)

def MatchRow.fixture (m : MatchRow K) : Fixture K :=
  ⟨m.matchDate, m.homeTeam, m.awayTeam, m.b365⟩

/-- A bet without its result and its close. -/
def Bet.offer (b : Bet K) : Bet K := { b with won := false, clv := none }

/-- Rows of one fixture, and the same row before `d`. -/
structure Alike (d : Int) (m m' : MatchRow K) : Prop where
  fixture : m.fixture = m'.fixture
  past : m.matchDate < d → m = m'

theorem Alike.matchDate {d : Int} {m m' : MatchRow K} (alike : Alike d m m') :
    m.matchDate = m'.matchDate :=
  congrArg Fixture.matchDate alike.fixture

theorem Alike.b365 {d : Int} {m m' : MatchRow K} (alike : Alike d m m') : m.b365 = m'.b365 :=
  congrArg Fixture.b365 alike.fixture

def betsBefore (d : Int) (bets : List (Bet K)) : List (Bet K) := bets.filter (·.matchDate < d)

def offersUntil (d : Int) (bets : List (Bet K)) : List (Bet K) :=
  (bets.filter (·.matchDate ≤ d)).map Bet.offer

theorem betsBefore_append (d : Int) (bets new : List (Bet K)) :
    betsBefore d (bets ++ new) = betsBefore d bets ++ betsBefore d new := List.filter_append ..

theorem offersUntil_append (d : Int) (bets new : List (Bet K)) :
    offersUntil d (bets ++ new) = offersUntil d bets ++ offersUntil d new := by
  rw [offersUntil, List.filter_append, List.map_append]
  rfl

/-- Loop variables that nobody can tell apart on `d`. -/
structure Walk.Alike (d : Int) (s s' : Walk K) : Prop where
  pricedFn : s.pricedFn = s'.pricedFn
  lastFit : s.lastFit = s'.lastFit
  before : betsBefore d s.report.bets = betsBefore d s'.report.bets
  upTo : offersUntil d s.report.bets = offersUntil d s'.report.bets

theorem refit_congr {settings : Settings} {fitFn : FitFn K} {ordered ordered' : List (MatchRow K)}
    {d : Int} (rows : ∀ start, history ordered start d = history ordered' start d) :
    refit settings fitFn ordered d = refit settings fitFn ordered' d := by
  unfold refit
  simp only [rows]

theorem prepare_alike {settings : Settings} {fitFn : FitFn K}
    {ordered ordered' : List (MatchRow K)} {d : Int} {m m' : MatchRow K} (alike : Alike d m m')
    (rows : ∀ start, history ordered start m.matchDate = history ordered' start m.matchDate)
    {s s' t t' : Walk K} (same : s.Alike d s') (ran : prepare settings fitFn ordered s m = .ok t)
    (ran' : prepare settings fitFn ordered' s' m' = .ok t') : t.Alike d t' := by
  unfold prepare at ran ran'
  rw [← alike.matchDate, ← same.lastFit, ← refit_congr rows] at ran'
  dsimp only at ran ran'
  split at ran
  · rename_i due
    rw [if_pos due] at ran'
    obtain ⟨left, fits, made⟩ := bind_ok.mp ran
    rw [fits] at ran'
    cases made
    cases ran'
    exact ⟨rfl, rfl, same.before, same.upTo⟩
  · rename_i waiting
    rw [if_neg waiting] at ran'
    cases ran
    cases ran'
    exact ⟨same.pricedFn, rfl, same.before, same.upTo⟩

theorem prepare_bets {settings : Settings} {fitFn : FitFn K} {ordered : List (MatchRow K)}
    {s t : Walk K} {m : MatchRow K} (ran : prepare settings fitFn ordered s m = .ok t) :
    t.report.bets = s.report.bets := by
  unfold prepare at ran
  dsimp only at ran
  split at ran
  · obtain ⟨left, -, made⟩ := bind_ok.mp ran
    cases made
    rfl
  · cases ran
    rfl

section Bets
variable [Field K] [LinearOrder K] [Numerics K]

/-- The bet of a selection without its result and its close. -/
def offerOn (f : Fixture K) (priced fair : Triple K) (sel : Outcome) : Option (Bet K) :=
  let odds := (triple f.b365.reduceOption).get sel
  let edge := priced.get sel - fair.get sel
  let ev := priced.get sel * (odds - 1) - (1 - priced.get sel)
  if edge ≤ 0 ∨ ev ≤ 0 then none
  else some ⟨f.matchDate, f.homeTeam, f.awayTeam, sel, priced.get sel, fair.get sel, edge, ev,
    odds, false, none⟩

theorem offer_of_betOn {m : MatchRow K} {priced fair : Triple K} {close : Option (Triple K)}
    {sel : Outcome} {bet : Option (Bet K)}
    (ran : betOn m (triple m.b365.reduceOption) priced fair close sel = .ok bet) :
    bet.map Bet.offer = offerOn m.fixture priced fair sel := by
  unfold betOn at ran
  unfold offerOn
  dsimp only at ran ⊢
  split at ran
  · rename_i worthless
    cases ran
    exact (if_pos worthless).symm
  · rename_i worthwhile
    obtain ⟨clv, -, made⟩ := bind_ok.mp ran
    cases made
    exact (if_neg worthwhile).symm

theorem offers_of_betsOn {m : MatchRow K} {method : DevigMethod} {priced : Triple K}
    {bets : List (Bet K)} (ran : betsOn m method priced = .ok bets) :
      ∃ fair, fairOf m.b365 method = .ok fair ∧ bets.map Bet.offer =
        ([Outcome.home, .draw, .away].map (offerOn m.fixture priced fair)).reduceOption := by
  obtain ⟨fair, shares, rest⟩ := bind_ok.mp ran
  obtain ⟨close, -, rest⟩ := bind_ok.mp rest
  obtain ⟨found, looped, made⟩ := bind_ok.mp rest
  cases made
  refine ⟨fair, shares, ?_⟩
  have offers := map_of_mapM_ok looped fun sel bet one => offer_of_betOn one
  rw [← List.reduceOption_map, offers]

theorem of_mem_betsOn {m : MatchRow K} {method : DevigMethod} {priced : Triple K}
    {bets : List (Bet K)} (ran : betsOn m method priced = .ok bets) {b : Bet K}
    (inside : b ∈ bets) :
    b.matchDate = m.matchDate ∧ b.home = m.homeTeam ∧ b.away = m.awayTeam ∧
    b.modelProb = priced.get b.selection := by
  obtain ⟨fair, -, offers⟩ := offers_of_betsOn ran
  have listed := List.mem_map_of_mem (f := Bet.offer) inside
  rw [offers, List.reduceOption_mem_iff] at listed
  obtain ⟨sel, -, made⟩ := List.mem_map.mp listed
  unfold offerOn at made
  dsimp only at made
  split at made
  · cases made
  · have same := Option.some.inj made
    have selected : sel = b.selection := congrArg Bet.selection same
    subst selected
    exact ⟨(congrArg Bet.matchDate same).symm, (congrArg Bet.home same).symm,
      (congrArg Bet.away same).symm, (congrArg Bet.modelProb same).symm⟩

/-- Bets on rows that look alike on `d`. -/
theorem betsOn_alike {d : Int} {m m' : MatchRow K} (alike : Alike d m m') {method : DevigMethod}
    {priced : Triple K} {bets bets' : List (Bet K)} (ran : betsOn m method priced = .ok bets)
    (ran' : betsOn m' method priced = .ok bets') :
    betsBefore d bets = betsBefore d bets' ∧ offersUntil d bets = offersUntil d bets' := by
  by_cases past : m.matchDate < d
  · rw [← alike.past past, ran] at ran'
    cases ran'
    exact ⟨rfl, rfl⟩
  have late : ∀ b ∈ bets, ¬ b.matchDate < d :=
    fun b inside => by rwa [(of_mem_betsOn ran inside).1]
  have late' : ∀ b ∈ bets', ¬ b.matchDate < d := fun b inside => by
    rwa [(of_mem_betsOn ran' inside).1, ← alike.matchDate]
  constructor
  · rw [betsBefore, betsBefore, List.filter_eq_nil_iff.mpr, List.filter_eq_nil_iff.mpr]
    · exact fun b inside => by rw [decide_eq_true_iff]; exact late' b inside
    · exact fun b inside => by rw [decide_eq_true_iff]; exact late b inside
  · obtain ⟨fair, shares, offers⟩ := offers_of_betsOn ran
    obtain ⟨fair', shares', offers'⟩ := offers_of_betsOn ran'
    rw [← alike.b365, shares] at shares'
    cases shares'
    rw [← alike.fixture, ← offers] at offers'
    have cut (l : List (Bet K)) :
        offersUntil d l = (l.map Bet.offer).filter (·.matchDate ≤ d) := by
      rw [List.filter_map]
      rfl
    rw [cut, cut, offers']

variable {settings : Settings} {fitFn : FitFn K} {ordered ordered' : List (MatchRow K)}

theorem price_alike {d : Int} {m m' : MatchRow K} (alike : Alike d m m') {s s' t t' : Walk K}
    (same : s.Alike d s') (ran : price settings s m = .ok t)
    (ran' : price settings s' m' = .ok t') : t.Alike d t' := by
  have home : m.homeTeam = m'.homeTeam := congrArg Fixture.homeTeam alike.fixture
  have away : m.awayTeam = m'.awayTeam := congrArg Fixture.awayTeam alike.fixture
  unfold price at ran ran'
  rw [← same.pricedFn, ← home, ← away] at ran'
  cases model : s.pricedFn with
  | none =>
    rw [model] at ran ran'
    cases ran
    cases ran'
    exact same
  | some pricedFn =>
    rw [model] at ran ran'
    obtain ⟨priced, asked, rest⟩ := bind_ok.mp ran
    obtain ⟨priced', asked', rest'⟩ := bind_ok.mp ran'
    rw [asked] at asked'
    cases asked'
    cases priced with
    | none =>
      cases rest
      cases rest'
      exact same
    | some priced =>
      obtain ⟨bets, made, done⟩ := bind_ok.mp rest
      obtain ⟨bets', made', done'⟩ := bind_ok.mp rest'
      cases done
      cases done'
      obtain ⟨before, upTo⟩ := betsOn_alike alike made made'
      refine ⟨rfl, same.lastFit, ?_, ?_⟩
      · dsimp only
        rw [betsBefore_append, betsBefore_append, same.before, before]
      · dsimp only
        rw [offersUntil_append, offersUntil_append, same.upTo, upTo]

theorem step_alike {d : Int} {m m' : MatchRow K} (alike : Alike d m m')
    (rows : ∀ start, history ordered start m.matchDate = history ordered' start m.matchDate)
    {s s' t t' : Walk K} (same : s.Alike d s') (ran : step settings fitFn ordered s m = .ok t)
    (ran' : step settings fitFn ordered' s' m' = .ok t') : t.Alike d t' := by
  obtain ⟨u, prepared, rest⟩ := bind_ok.mp ran
  obtain ⟨u', prepared', rest'⟩ := bind_ok.mp ran'
  exact price_alike alike (prepare_alike alike rows same prepared prepared') rest rest'

theorem walk_alike {d : Int} {l l' : List (MatchRow K)} (alike : List.Forall₂ (Alike d) l l')
    (rows : ∀ m ∈ l, ∀ start,
      history ordered start m.matchDate = history ordered' start m.matchDate)
    {s s' t t' : Walk K} (same : s.Alike d s')
    (ran : l.foldlM (step settings fitFn ordered) s = .ok t)
    (ran' : l'.foldlM (step settings fitFn ordered') s' = .ok t') : t.Alike d t' := by
  induction alike generalizing s s' with
  | nil =>
    cases ran
    cases ran'
    exact same
  | cons first _ ih =>
    obtain ⟨here, rest⟩ := List.forall_mem_cons.mp rows
    rw [List.foldlM_cons] at ran ran'
    obtain ⟨u, stepped, ran⟩ := bind_ok.mp ran
    obtain ⟨u', stepped', ran'⟩ := bind_ok.mp ran'
    exact ih rest (step_alike first here same stepped stepped') ran ran'

end Bets

section Later
variable [Field K] [LinearOrder K] [Numerics K] {settings : Settings} {fitFn : FitFn K}
  {ordered : List (MatchRow K)}

/-- A step adds bets on its own match, priced by the model at hand. -/
theorem price_spec {s t : Walk K} {m : MatchRow K} (ran : price settings s m = .ok t) :
    t.pricedFn = s.pricedFn ∧ t.lastFit = s.lastFit ∧ ∃ new,
      t.report.bets = s.report.bets ++ new ∧ ∀ b ∈ new,
      b.matchDate = m.matchDate ∧ ∃ pricedFn priced, s.pricedFn = some pricedFn ∧
        pricedFn b.home b.away = .ok (some priced) ∧ b.modelProb = priced.get b.selection := by
  have kept : s.report.bets = s.report.bets ++ [] := (List.append_nil _).symm
  unfold price at ran
  cases model : s.pricedFn with
  | none =>
    rw [model] at ran
    cases ran
    exact ⟨model, rfl, [], kept, by simp⟩
  | some pricedFn =>
    rw [model] at ran
    obtain ⟨priced, asked, rest⟩ := bind_ok.mp ran
    cases priced with
    | none =>
      cases rest
      exact ⟨model, rfl, [], kept, by simp⟩
    | some priced =>
      obtain ⟨bets, made, done⟩ := bind_ok.mp rest
      cases done
      refine ⟨rfl, rfl, bets, rfl, fun b inside => ?_⟩
      obtain ⟨date, home, away, prob⟩ := of_mem_betsOn made inside
      exact ⟨date, pricedFn, priced, rfl, by rw [home, away, asked], prob⟩

theorem walk_later {d : Int} {l : List (MatchRow K)} (later : ∀ m ∈ l, d < m.matchDate)
    {s t : Walk K} (ran : l.foldlM (step settings fitFn ordered) s = .ok t) :
    betsBefore d t.report.bets = betsBefore d s.report.bets ∧
      offersUntil d t.report.bets = offersUntil d s.report.bets := by
  induction l generalizing s with
  | nil =>
    cases ran
    exact ⟨rfl, rfl⟩
  | cons m l ih =>
    obtain ⟨here, rest⟩ := List.forall_mem_cons.mp later
    rw [List.foldlM_cons] at ran
    obtain ⟨u, stepped, ran⟩ := bind_ok.mp ran
    obtain ⟨v, prepared, priced⟩ := bind_ok.mp stepped
    obtain ⟨-, -, new, bets, each⟩ := price_spec priced
    obtain ⟨before, upTo⟩ := ih rest ran
    have none_before : betsBefore d new = [] := List.filter_eq_nil_iff.mpr fun b inside => by
      rw [decide_eq_true_iff, (each b inside).1]
      exact here.not_gt
    have none_upTo : offersUntil d new = [] := by
      rw [offersUntil, List.map_eq_nil_iff]
      exact List.filter_eq_nil_iff.mpr fun b inside => by
        rw [decide_eq_true_iff, (each b inside).1]
        exact here.not_ge
    rw [before, upTo, bets, betsBefore_append, offersUntil_append, none_before, none_upTo,
      List.append_nil, List.append_nil, prepare_bets prepared]
    exact ⟨rfl, rfl⟩

end Later

/-! Where a bet's model comes from. -/

/-- The date of the last refit of a run that has gone through `seen`. -/
def lastRefit (settings : Settings) (seen : List (MatchRow K)) : Option Int :=
  seen.foldl (fun last m => if refitDue settings last m.matchDate then some m.matchDate
    else last) none

/-- `pricedFn` was fitted at `d` on the window before it. -/
structure FittedAt (settings : Settings) (fitFn : FitFn K) (ordered : List (MatchRow K)) (d : Int)
    (pricedFn : PricedFn K) : Prop where
  enough : 100 ≤ (history ordered (d - settings.trainingWindowDays) d).length
  fitted : fitFn (history ordered (d - settings.trainingWindowDays) d) d = .fitted pricedFn

/-- The bet was priced by the model of the last refit up to its match, the last of `seen`. -/
def PricedAt (settings : Settings) (fitFn : FitFn K) (ordered seen : List (MatchRow K))
    (b : Bet K) : Prop :=
  ∃ d pricedFn priced, lastRefit settings seen = some d ∧ (∃ m ∈ seen, m.matchDate = d) ∧
    FittedAt settings fitFn ordered d pricedFn ∧ pricedFn b.home b.away = .ok (some priced) ∧
      b.modelProb = priced.get b.selection

/-- The loop variables of a run that has gone through `seen`. -/
structure Traced (settings : Settings) (fitFn : FitFn K) (ordered seen : List (MatchRow K))
    (s : Walk K) : Prop where
  lastFit : s.lastFit = lastRefit settings seen
  date : ∀ d, s.lastFit = some d → ∃ m ∈ seen, m.matchDate = d
  model : ∀ pricedFn, s.pricedFn = some pricedFn →
    ∃ d, s.lastFit = some d ∧ FittedAt settings fitFn ordered d pricedFn
  bets : ∀ b ∈ s.report.bets, ∃ before m after, seen = before ++ m :: after ∧
    m.matchDate = b.matchDate ∧ PricedAt settings fitFn ordered (before ++ [m]) b

theorem fittedAt_of_refit {settings : Settings} {fitFn : FitFn K} {ordered : List (MatchRow K)}
    {d : Int} {pricedFn : PricedFn K} {failures : Nat}
    (ran : refit settings fitFn ordered d = .ok (some pricedFn, failures)) :
      FittedAt settings fitFn ordered d pricedFn := by
  unfold refit at ran
  cases window : dateMinus d settings.trainingWindowDays with
  | error raised =>
    rw [window] at ran
    cases ran
  | ok start =>
    unfold dateMinus at window
    split at window
    swap
    · cases window
    cases window
    rename_i inside
    rw [dateMinus, if_pos inside] at ran
    dsimp only at ran
    split at ran
    swap
    · cases ran
    rename_i enough
    split at ran
    · rename_i fitted
      cases ran
      exact ⟨enough, fitted⟩
    · cases ran
    · cases ran

theorem lastRefit_concat (settings : Settings) (seen : List (MatchRow K)) (m : MatchRow K) :
    lastRefit settings (seen ++ [m]) =
    if refitDue settings (lastRefit settings seen) m.matchDate then some m.matchDate
      else lastRefit settings seen := by
  rw [lastRefit, List.foldl_append]
  rfl

section Tracing
variable [Field K] [LinearOrder K] [Numerics K] {settings : Settings} {fitFn : FitFn K}
  {ordered : List (MatchRow K)}

theorem Traced.step {seen : List (MatchRow K)} {s t : Walk K}
    (traced : Traced settings fitFn ordered seen s) {m : MatchRow K}
    (ran : step settings fitFn ordered s m = .ok t) :
    Traced settings fitFn ordered (seen ++ [m]) t := by
  obtain ⟨u, prepared, priced⟩ := bind_ok.mp ran
  have ready : u.lastFit = lastRefit settings (seen ++ [m]) ∧
      (∀ d, u.lastFit = some d → ∃ m' ∈ seen ++ [m], m'.matchDate = d) ∧
        ∀ pricedFn, u.pricedFn = some pricedFn →
          ∃ d, u.lastFit = some d ∧ FittedAt settings fitFn ordered d pricedFn := by
    rw [lastRefit_concat, ← traced.lastFit]
    unfold prepare at prepared
    dsimp only at prepared
    split at prepared
    · rename_i due
      obtain ⟨left, fits, made⟩ := bind_ok.mp prepared
      cases made
      rw [if_pos due]
      refine ⟨rfl, fun d found => ⟨m, by simp, Option.some.inj found⟩,
        fun pricedFn found => ⟨_, rfl, ?_⟩⟩
      obtain ⟨model, failures⟩ := left
      cases found
      exact fittedAt_of_refit fits
    · rename_i waiting
      cases prepared
      rw [if_neg waiting]
      refine ⟨rfl, fun d found => ?_, traced.model⟩
      obtain ⟨m', old, same⟩ := traced.date d found
      exact ⟨m', List.mem_append_left _ old, same⟩
  obtain ⟨lastFit, date, model⟩ := ready
  obtain ⟨sameFn, sameFit, new, bets, each⟩ := price_spec priced
  refine ⟨sameFit.trans lastFit, fun d found => date d (sameFit ▸ found), fun f found => ?_,
    fun b inside => ?_⟩
  · rw [sameFit]
    exact model f (sameFn ▸ found)
  · rw [bets, prepare_bets prepared, List.mem_append] at inside
    obtain old | fresh := inside
    · obtain ⟨before, m', after, shape, same, priced'⟩ := traced.bets b old
      exact ⟨before, m',
        after ++ [m], by rw [shape, List.append_assoc, List.cons_append], same, priced'⟩
    · obtain ⟨same, pricedFn, quote, held, asked, prob⟩ := each b fresh
      obtain ⟨d, fit, fitted⟩ := model pricedFn held
      exact ⟨seen, m, [], rfl, same.symm, d, pricedFn, quote, lastFit ▸ fit, date d fit, fitted,
        asked, prob⟩

theorem Traced.walk {seen l : List (MatchRow K)} {s t : Walk K}
    (traced : Traced settings fitFn ordered seen s)
    (ran : l.foldlM (Backtesting.step settings fitFn ordered) s = .ok t) :
    Traced settings fitFn ordered (seen ++ l) t := by
  induction l generalizing seen s with
  | nil =>
    cases ran
    rwa [List.append_nil]
  | cons m l ih =>
    rw [List.foldlM_cons] at ran
    obtain ⟨u, stepped, ran⟩ := bind_ok.mp ran
    have rest := ih (traced.step stepped) ran
    rwa [List.append_assoc] at rest

end Tracing

/-! Runs. -/

theorem history_congr {d : Int} {rows rows' : List (MatchRow K)}
    (past : rows.filter (·.matchDate < d) = rows'.filter (·.matchDate < d)) {date : Int}
    (upTo : date ≤ d) (start : Int) :
    history (sortedBy MatchRow.matchDate rows) start date = history
      (sortedBy MatchRow.matchDate rows') start date := by
  have cut (l : List (MatchRow K)) : history (sortedBy MatchRow.matchDate l) start date =
      history (sortedBy MatchRow.matchDate (l.filter (·.matchDate < d))) start date := by
    rw [← filter_sortedBy, history, history, List.filter_filter]
    apply List.filter_congr
    intro m _
    rw [Bool.eq_iff_iff, Bool.and_eq_true, decide_eq_true_iff, decide_eq_true_iff]
    omega
  rw [cut rows, past, ← cut rows']

section Runs
variable [Field K] [LinearOrder K]

def eligible (rows : List (MatchRow K)) : List (MatchRow K) :=
  (sortedBy MatchRow.matchDate rows).filter hasB365

/-- The matches that a run prices, past the warm-up. -/
def evaluated (settings : Settings) (rows : List (MatchRow K)) : List (MatchRow K) :=
  (eligible rows).drop settings.warmupMatches.toNat

theorem alike_of_fixtures {d : Int} {l l' : List (MatchRow K)}
    (late : ∀ m ∈ l, ¬ m.matchDate < d)
    (same : l.map MatchRow.fixture = l'.map MatchRow.fixture) :
    List.Forall₂ (Alike d) (l.filter hasB365) (l'.filter hasB365) := by
  induction l generalizing l' with
  | nil =>
    rw [List.map_nil, eq_comm, List.map_eq_nil_iff] at same
    rw [same]
    exact .nil
  | cons m l ih =>
    obtain ⟨m', rest, rfl, first, others⟩ := List.map_eq_cons_iff.mp same.symm
    obtain ⟨here, later⟩ := List.forall_mem_cons.mp late
    have quotes : hasB365 m' = hasB365 m := congrArg quoted (congrArg Fixture.b365 first)
    rw [List.filter_cons, List.filter_cons, quotes]
    split
    · exact .cons ⟨first.symm, fun past => absurd past here⟩ (ih later others.symm)
    · exact ih later others.symm

/-- Up to `d` two lists of matches that agree so far are alike; the others come after. -/
theorem eligible_alike {d : Int} {rows rows' : List (MatchRow K)}
    (past : rows.filter (·.matchDate < d) = rows'.filter (·.matchDate < d))
    (today : (rows.filter (·.matchDate = d)).map MatchRow.fixture =
      (rows'.filter (·.matchDate = d)).map MatchRow.fixture) :
    ∃ upTo upTo' later later', eligible rows = upTo ++ later ∧
      eligible rows' = upTo' ++ later' ∧
      List.Forall₂ (Alike d) upTo upTo' ∧ (∀ m ∈ upTo, m.matchDate ≤ d) ∧
        (∀ m ∈ later, d < m.matchDate) ∧ ∀ m ∈ later', d < m.matchDate := by
  have shape (l : List (MatchRow K)) : eligible l =
      ((sortedBy MatchRow.matchDate (l.filter (·.matchDate < d))).filter hasB365 ++
        (l.filter (·.matchDate = d)).filter hasB365) ++
          ((sortedBy MatchRow.matchDate l).filter (d < ·.matchDate)).filter hasB365 := by
    have today_sorted :
        (sortedBy MatchRow.matchDate l).filter (·.matchDate = d) =
          l.filter (·.matchDate = d) := by
      rw [filter_sortedBy]
      exact sortedBy_alike fun m inside => of_decide_eq_true (List.mem_filter.mp inside).2
    rw [eligible]
    nth_rewrite 1 [sorted_split d (sortedBy_pairwise MatchRow.matchDate l)]
    rw [List.filter_append, List.filter_append, today_sorted, filter_sortedBy, List.append_assoc]
  refine ⟨_, _, _, _, shape rows, shape rows', ?_, ?_, ?_, ?_⟩
  · rw [past]
    refine List.rel_append (List.forall₂_same.mpr fun m _ =>
      ⟨rfl, fun _ => rfl⟩) (alike_of_fixtures ?_ today)
    intro m inside
    rw [of_decide_eq_true (List.mem_filter.mp inside).2]
    exact lt_irrefl d
  · intro m inside
    obtain earlier | today := List.mem_append.mp inside
    · have listed := mem_sortedBy.mp (List.mem_filter.mp earlier).1
      exact (of_decide_eq_true (List.mem_filter.mp listed).2 : m.matchDate < d).le
    · have listed := (List.mem_filter.mp today).1
      exact (of_decide_eq_true (List.mem_filter.mp listed).2 : m.matchDate = d).le
  · exact fun m inside => of_decide_eq_true (List.mem_filter.mp (List.mem_filter.mp inside).1).2
  · exact fun m inside => of_decide_eq_true (List.mem_filter.mp (List.mem_filter.mp inside).1).2

theorem evaluated_sorted (settings : Settings) (rows : List (MatchRow K)) :
    (evaluated settings rows).Pairwise fun m m' => m.matchDate ≤ m'.matchDate :=
  ((sortedBy_pairwise MatchRow.matchDate rows).filter hasB365).drop

variable [Numerics K]

def Walk.start {K : Type*} : Walk K := ⟨none, none, ⟨0, 0, [], 0⟩⟩

theorem walk_eq (settings : Settings) (fitFn : FitFn K) (ordered l : List (MatchRow K)) (i : Nat)
    (s : Walk K) :
    walk settings fitFn ordered i s l =
      (l.drop (settings.warmupMatches - i).toNat).foldlM (step settings fitFn ordered) s := by
  induction l generalizing i s with
  | nil =>
    rw [List.drop_nil]
    rfl
  | cons m l ih =>
    unfold walk
    split
    · have more : (settings.warmupMatches - i).toNat =
        (settings.warmupMatches - (i + 1 : Nat)).toNat + 1 := by omega
      rw [ih, more, List.drop_succ_cons]
    · have over_ : (settings.warmupMatches - i).toNat = 0 := by omega
      rw [over_, List.drop_zero, List.foldlM_cons]
      congr 1
      funext t
      have over' : (settings.warmupMatches - (i + 1 : Nat)).toNat = 0 := by omega
      rw [ih, over', List.drop_zero]

theorem walk_of_run {settings : Settings} {fitFn : FitFn K} {rows : List (MatchRow K)}
    {report : BacktestReport K} (ran : runWalkforward settings fitFn rows = .ok report) :
      ∃ t, t.report = report ∧ (evaluated settings rows).foldlM
      (step settings fitFn (sortedBy MatchRow.matchDate rows)) Walk.start = .ok t := by
  have walked := walk_eq settings fitFn (sortedBy MatchRow.matchDate rows) (eligible rows) 0
    Walk.start
  rw [Nat.cast_zero, sub_zero] at walked
  have shape : runWalkforward settings fitFn rows = ((evaluated settings rows).foldlM
      (step settings fitFn (sortedBy MatchRow.matchDate rows)) Walk.start).map Walk.report :=
    congrArg (Except.map Walk.report) walked
  rw [shape] at ran
  cases done : (evaluated settings rows).foldlM
    (step settings fitFn (sortedBy MatchRow.matchDate rows)) Walk.start with
  | error raised =>
    rw [done] at ran
    cases ran
  | ok t =>
    rw [done] at ran
    exact ⟨t, Except.ok.inj ran, rfl⟩

theorem run_alike {settings : Settings} {fitFn : FitFn K} {d : Int}
    {rows rows' : List (MatchRow K)} {report report' : BacktestReport K}
    (past : rows.filter (·.matchDate < d) = rows'.filter (·.matchDate < d))
    (today : (rows.filter (·.matchDate = d)).map MatchRow.fixture =
      (rows'.filter (·.matchDate = d)).map MatchRow.fixture)
    (ran : runWalkforward settings fitFn rows = .ok report)
    (ran' : runWalkforward settings fitFn rows' = .ok report') :
    betsBefore d report.bets = betsBefore d report'.bets ∧
    offersUntil d report.bets = offersUntil d report'.bets := by
  obtain ⟨t, rfl, walked⟩ := walk_of_run ran
  obtain ⟨t', rfl, walked'⟩ := walk_of_run ran'
  obtain ⟨upTo, upTo', later, later', shape, shape', alike, dated, after, after'⟩ :=
    eligible_alike past today
  rw [evaluated, shape, List.drop_append, List.foldlM_append] at walked
  rw [evaluated, shape', List.drop_append, List.foldlM_append, ← alike.length_eq] at walked'
  obtain ⟨u, first, rest⟩ := bind_ok.mp walked
  obtain ⟨u', first', rest'⟩ := bind_ok.mp walked'
  have rows_alike : ∀ m ∈ upTo.drop settings.warmupMatches.toNat, ∀ start,
      history (sortedBy MatchRow.matchDate rows) start m.matchDate =
        history (sortedBy MatchRow.matchDate rows') start m.matchDate :=
    fun m inside start => history_congr past (dated m (List.mem_of_mem_drop inside)) start
  have same := walk_alike (List.forall₂_drop _ alike) rows_alike
    ⟨rfl, rfl, rfl, rfl⟩ first first'
  obtain ⟨before, until_⟩ :=
    walk_later (fun m inside => after m (List.mem_of_mem_drop inside)) rest
  obtain ⟨before', until'⟩ :=
    walk_later (fun m inside => after' m (List.mem_of_mem_drop inside)) rest'
  rw [before, before', until_, until']
  exact ⟨same.before, same.upTo⟩

theorem pricedAt_of_run {settings : Settings} {fitFn : FitFn K} {rows : List (MatchRow K)}
    {report : BacktestReport K} (ran : runWalkforward settings fitFn rows = .ok report)
    {b : Bet K} (inside : b ∈ report.bets) :
    ∃ before m after, evaluated settings rows = before ++ m :: after ∧
      m.matchDate = b.matchDate ∧
      PricedAt settings fitFn (sortedBy MatchRow.matchDate rows) (before ++ [m]) b := by
  obtain ⟨t, rfl, walked⟩ := walk_of_run ran
  have start : Traced settings fitFn (sortedBy MatchRow.matchDate rows) []
      (Walk.start : Walk K) := by
    refine ⟨rfl, ?_, ?_, ?_⟩
    · intro date found
      cases found
    · intro model found
      cases found
    · intro bet found
      cases found
  exact (start.walk walked).bets b inside

/-- Two runs over matches that agree up to what is known on `d` bet alike up to `d`; and whatever a
run bets was priced by the model that its last refit fitted, on enough matches and earlier ones
only. -/
theorem runWalkforward_blind {settings : Settings} {fitFn : FitFn K} {d : Int}
    {rows rows' : List (MatchRow K)} {report report' : BacktestReport K}
    (past : rows.filter (·.matchDate < d) = rows'.filter (·.matchDate < d))
    (today : (rows.filter (·.matchDate = d)).map MatchRow.fixture =
      (rows'.filter (·.matchDate = d)).map MatchRow.fixture)
    (ran : runWalkforward settings fitFn rows = .ok report)
    (ran' : runWalkforward settings fitFn rows' = .ok report') :
    report.bets.filter (·.matchDate < d) = report'.bets.filter (·.matchDate < d) ∧
      (report.bets.filter (·.matchDate = d)).map Bet.offer =
      (report'.bets.filter (·.matchDate = d)).map Bet.offer ∧
        ∀ b ∈ report.bets, ∃ before m after fitDate pricedFn priced,
          evaluated settings rows = before ++ m :: after ∧ m.matchDate = b.matchDate ∧
          lastRefit settings (before ++ [m]) = some fitDate ∧
          FittedAt settings fitFn (sortedBy MatchRow.matchDate rows) fitDate pricedFn ∧
          (∀ h ∈ history (sortedBy MatchRow.matchDate rows)
            (fitDate - settings.trainingWindowDays) fitDate,
            h.matchDate < b.matchDate) ∧
          pricedFn b.home b.away = .ok (some priced) ∧ b.modelProb = priced.get b.selection := by
  obtain ⟨before, upTo⟩ := run_alike past today ran ran'
  refine ⟨before, ?_, fun b inside => ?_⟩
  · have cut (l : List (Bet K)) : (l.filter (·.matchDate = d)).map Bet.offer =
        (offersUntil d l).filter (·.matchDate = d) := by
      rw [offersUntil, List.filter_map, List.filter_filter]
      congr 1
      apply List.filter_congr
      intro b _
      rw [Bool.eq_iff_iff, Bool.and_eq_true, decide_eq_true_iff, decide_eq_true_iff,
        Function.comp_apply, decide_eq_true_iff]
      exact ⟨fun same => ⟨same, same.le⟩, fun both => both.1⟩
    rw [cut, cut, upTo]
  · obtain ⟨before, m, after, shape, same, fitDate, pricedFn, priced, last,
        ⟨m', seen, dated⟩, fitted, asked, prob⟩ :=
      pricedAt_of_run ran inside
    refine ⟨before, m, after, fitDate, pricedFn, priced, shape, same, last, fitted,
      fun h held => ?_, asked, prob⟩
    have older : h.matchDate < fitDate := (of_decide_eq_true (List.mem_filter.mp held).2).2
    have sorted := evaluated_sorted settings rows
    rw [shape, List.pairwise_append] at sorted
    have upTo_m : fitDate ≤ m.matchDate := by
      rw [← dated]
      obtain early | rfl := (List.mem_append.mp seen).imp_right List.mem_singleton.mp
      · exact sorted.2.2 m' early m List.mem_cons_self
      · exact le_rfl
    rw [← same]
    exact older.trans_le upTo_m

end Runs

/-- A match at Bet365 odds of three each way. -/
def evenMatch (date : Int) (result : Str) (close : Option ℚ) : MatchRow ℚ :=
  ⟨date, "Ajax".toList, "Feyenoord".toList, 1, 0, result, some 3, some 3, some 3, close,
    close, close, none, none, none, none, none, none, none, none, none, none, none, none⟩

/-- A run whose model always favours the home team. -/
def evenRun (rows : List (MatchRow ℚ)) : Except Raised (BacktestReport ℚ) :=
  @runWalkforward ℚ _ _ Numerics.trivial ⟨100, 540, 7, .multiplicative⟩
    (fun _ _ => .fitted fun _ _ => .ok (some ⟨1 / 2, 1 / 4, 1 / 4⟩)) rows

def pastMatches : List (MatchRow ℚ) := List.replicate 100 (evenMatch 730000 "H".toList none)

theorem evenRun_bets {rows : List (MatchRow ℚ)} {n : Nat}
    (count : (evenRun rows).toOption.map (fun report => report.bets.length) = some n) :
    ∃ report, evenRun rows = .ok report ∧ report.bets.length = n := by
  cases ran : evenRun rows with
  | error raised =>
    rw [ran] at count
    cases count
  | ok report =>
    rw [ran] at count
    exact ⟨report, rfl, Option.some.inj count⟩

theorem runWalkforward_blind_even : ∃ report report',
    evenRun (pastMatches ++ [evenMatch 730001 "H".toList none]) = .ok report ∧
    evenRun (evenMatch 730002 "D".toList none :: evenMatch 730001 "A".toList (some 3) ::
      pastMatches) = .ok report' ∧
    report.bets.length = 1 ∧ report'.bets.length = 2 ∧
    (report.bets.filter (·.matchDate = 730001)).map Bet.offer =
    (report'.bets.filter (·.matchDate = 730001)).map Bet.offer := by
  obtain ⟨report, ran, one⟩ := evenRun_bets
    (by decide +kernel : ((evenRun (pastMatches ++ [evenMatch 730001 "H".toList none])).toOption.map
      _) = some 1)
  obtain ⟨report', ran', two⟩ :=
    evenRun_bets (by decide +kernel : ((evenRun (evenMatch 730002 "D".toList none ::
    evenMatch 730001 "A".toList (some 3) :: pastMatches)).toOption.map _) = some 2)
  have blind := @runWalkforward_blind ℚ _ _ Numerics.trivial _ _ 730001 _ _ _ _
    (by simp [pastMatches, evenMatch])
    (by simp [pastMatches, evenMatch, MatchRow.fixture, MatchRow.b365]) ran ran'
  exact ⟨report, report', ran, ran', one, two, blind.2.1⟩

end SharpEvPicks.Backtesting
