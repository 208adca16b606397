import Mathlib.Algebra.Order.BigOperators.Group.List
import Mathlib.Tactic.FieldSimp
import SharpEvPicks.Pipeline.ExposureAccounting
import SharpEvPicks.Pipeline.OnePremium

/-! The settlement basis of a pick against the tranches that it was recommended in, in exact
decimals: the columns round nothing, a stake amount is rounded to cents where the code does it. -/
namespace SharpEvPicks.Settlement

open Python Edge Risk Storage Pipeline

structure Tranche where
  amount : ℚ
  decimalOdds : ℚ
  bookmaker : Str
  deriving DecidableEq

section
variable [Unicode]

/-- The profit of `pick_pnl` before it is rounded to cents. -/
def unroundedPnl (outcome : Outcome) (stake decimalOdds : ℚ) (bookmaker : Option Str) : ℚ :=
  let odds := match bookmaker with
    | some book => effectiveOdds exchangeCommission book decimalOdds
    | none => decimalOdds
  match outcome with
  | .won => stake * (odds - 1)
  | .lost => -stake
  | .halfWon => stake / 2 * (odds - 1)
  | .halfLost => -stake / 2
  | .void | .push => 0

namespace Tranche

def netOdds (t : Tranche) : ℚ := effectiveOdds exchangeCommission t.bookmaker t.decimalOdds

/-- The profit of the tranche, graded at its own odds and book. -/
def pnl (outcome : Outcome) (t : Tranche) : ℚ :=
  unroundedPnl outcome t.amount t.decimalOdds (some t.bookmaker)

end Tranche

/-! The sums that a basis should hold. -/

/-- The basis holds the sums of the tranches, and the book that every positive one used. -/
structure Blends (tranches : List Tranche) (basis : SettlementBasis) : Prop where
  stake : basis.stakeAmount = (tranches.map Tranche.amount).sum
  raw : basis.rawOddsStake = (tranches.map fun t => t.amount * t.decimalOdds).sum
  effective : basis.effectiveOddsStake = (tranches.map fun t => t.amount * t.netOdds).sum
  book : ∀ b, basis.bookmaker = some b ↔
    0 < basis.stakeAmount ∧ ∀ t ∈ tranches, 0 < t.amount → t.bookmaker = b

/-- What the code recommends: no negative amount, and no price of one or less. -/
def Priced (tranches : List Tranche) : Prop :=
  ∀ t ∈ tranches, 0 ≤ t.amount ∧ 1 < t.decimalOdds

omit [Unicode] in
theorem amount_le_sum {tranches : List Tranche} (priced : Priced tranches) {t : Tranche}
    (inside : t ∈ tranches) : t.amount ≤ (tranches.map Tranche.amount).sum := by
  apply List.single_le_sum
  · intro q listed
    obtain ⟨t', inside', rfl⟩ := List.mem_map.mp listed
    exact (priced t' inside').1
  · exact List.mem_map_of_mem inside

omit [Unicode] in
theorem sum_amount_pos_iff {tranches : List Tranche} (priced : Priced tranches) :
    0 < (tranches.map Tranche.amount).sum ↔ ∃ t ∈ tranches, 0 < t.amount := by
  constructor
  · intro pos
    by_contra none_
    push Not at none_
    have nothing : (tranches.map Tranche.amount).sum = 0 := by
      apply List.sum_eq_zero
      intro q listed
      obtain ⟨t, inside, rfl⟩ := List.mem_map.mp listed
      exact le_antisymm (none_ t inside) (priced t inside).1
    rw [nothing] at pos
    exact lt_irrefl 0 pos
  · rintro ⟨t, inside, pos⟩
    exact pos.trans_le (amount_le_sum priced inside)

def trancheOf (pick : PickOut) : Tranche :=
  ⟨pick.recommendedStakeAmount, pick.decimalOdds, pick.bookmaker⟩

theorem blends_fresh (pick : PickOut) :
    Blends [trancheOf pick] (pick.freshBasis .exact pick.terms) where
  stake := (add_zero _).symm
  raw := (add_zero _).symm
  effective := (add_zero _).symm
  book b := by
    change (if 0 < pick.recommendedStakeAmount then some pick.bookmaker else none) = some b ↔
      0 < pick.recommendedStakeAmount ∧ _
    simp only [List.mem_singleton, forall_eq, trancheOf]
    split
    · rename_i pos
      simp [pos]
    · rename_i zero
      simp [zero]

theorem blends_demoted (pick : PickOut) :
    Blends [] ((demoteToVolume pick).freshBasis .exact (demoteToVolume pick).terms) where
  stake := rfl
  raw := zero_mul _
  effective := zero_mul _
  book b := by
    simp [PickOut.freshBasis, demoteToVolume, Numeric.money, Numeric.exact]

theorem Blends.accumulate {tranches : List Tranche} {basis : SettlementBasis}
    (blends : Blends tranches basis) (priced : Priced tranches) (t : Tranche) (pos : 0 < t.amount) :
    Blends (tranches ++ [t])
      (basis.accumulate .exact t.amount t.bookmaker
        (t.amount * t.decimalOdds, t.amount * t.netOdds)) where
  stake := by
    rw [List.map_append, List.sum_append, List.map_singleton, List.sum_singleton, ← blends.stake]
    rfl
  raw := by
    rw [List.map_append, List.sum_append, List.map_singleton, List.sum_singleton, ← blends.raw]
    rfl
  effective := by
    rw [List.map_append, List.sum_append, List.map_singleton,
      List.sum_singleton, ← blends.effective]
    rfl
  book b := by
    have total : (basis.accumulate .exact t.amount t.bookmaker
        (t.amount * t.decimalOdds, t.amount * t.netOdds)).stakeAmount =
        basis.stakeAmount + t.amount := rfl
    have nonneg : 0 ≤ basis.stakeAmount := by
      rw [blends.stake]
      apply List.sum_nonneg
      intro q listed
      obtain ⟨t', inside', rfl⟩ := List.mem_map.mp listed
      exact (priced t' inside').1
    have more : 0 < basis.stakeAmount + t.amount := by linarith
    rw [total]
    change (if basis.stakeAmount ≤ 0 then some t.bookmaker
      else if basis.bookmaker = some t.bookmaker then basis.bookmaker else none) = some b ↔ _
    simp only [List.mem_append, List.mem_singleton, more, true_and]
    split
    · rename_i empty
      constructor
      · intro same t' inside' positive
        rcases inside' with old | rfl
        · have bound := amount_le_sum priced old
          rw [← blends.stake] at bound
          linarith
        · exact Option.some.inj same
      · intro every
        rw [every t (.inr rfl) pos]
    · rename_i positive
      split
      · rename_i same
        rw [blends.book]
        constructor
        · rintro ⟨-, every⟩ t' inside' pos'
          rcases inside' with old | rfl
          · exact every t' old pos'
          · have own := (blends.book b).mpr ⟨not_le.mp positive, every⟩
            rw [same] at own
            exact Option.some.inj own
        · intro every
          exact ⟨not_le.mp positive, fun t' old pos' => every t' (.inl old) pos'⟩
      · rename_i other
        constructor
        · intro absurd
          cases absurd
        · intro every
          have own := (blends.book b).mpr
            ⟨not_le.mp positive, fun t' old pos' => every t' (.inl old) pos'⟩
          rw [every t (.inr rfl) pos] at other
          exact absurd own other

theorem Blends.idle {tranches : List Tranche} {basis : SettlementBasis}
    (blends : Blends tranches basis) (t : Tranche) (zero : t.amount = 0) :
      Blends (tranches ++ [t]) basis where
  stake := by simp [blends.stake, zero]
  raw := by simp [blends.raw, zero]
  effective := by simp [blends.effective, zero]
  book b := by
    rw [blends.book]
    constructor
    · rintro ⟨pos, every⟩
      refine ⟨pos, ?_⟩
      intro t' inside' pos'
      rcases List.mem_append.mp inside' with old | new
      · exact every t' old pos'
      · rw [List.mem_singleton.mp new, zero] at pos'
        exact absurd pos' (lt_irrefl 0)
    · rintro ⟨pos, every⟩
      exact ⟨pos, fun t' old pos' => every t' (List.mem_append_left _ old) pos'⟩

/-! Histories of one key. -/

inductive Attempt (key : Instrument × Nat) where
  | reserve (bankroll : ℚ)
      (bankroll_pos : 0 < bankroll) (ledger : DailyExposureLedger) (target : Target)
    (pick : PickOut) (own : target.key pick = key) (breakdown : StakeBreakdown) (eventId : Str)
      (now : Int)
    (fault : Option Fault)
  | shadow (bankroll : ℚ) (bankroll_pos : 0 < bankroll) (target : Target) (pick : PickOut)
    (own : target.key pick = key) (volume : pick.tier = .volume) (now : Int) (fault : Option Fault)

def exactDeps (bankroll : ℚ) (bankroll_pos : 0 < bankroll) : PersistDeps where
  numeric := .exact
  bankroll := bankroll
  bankroll_pos := bankroll_pos

/-- The table, and the tranches since the key's last insert or upgrade, if it had one. -/
structure Account where
  picks : PickTable
  tranches : Option (List Tranche)

/-- An insert or an upgrade starts anew; a repriced row gets one tranche more, of the exposure
that the ledger granted. -/
def nextTranches (before : Option (List Tranche)) (granted bankroll : ℚ) (r : Persistence) :
    Option (List Tranche) :=
  match r.outcome, r.staked with
  | .inserted, staked | .upgraded, staked => some (staked.toList.map trancheOf)
  | .repriced, some pick =>
    before.map (· ++ [⟨quantizeHalfUp 2 (granted * bankroll), pick.decimalOdds,
      pick.bookmaker⟩])
  | _, _ => before

def Account.record (s : Account) (ledger : DailyExposureLedger) (now : Int) (bankroll : ℚ)
    (r : Persistence) : Account :=
  ⟨r.picks, nextTranches s.tranches (r.ledger.used (dateOf now) - ledger.used (dateOf now))
    bankroll r⟩

def attempt {key : Instrument × Nat} (s : Account) : Attempt key → Account
  | .reserve bankroll pos ledger target pick _ breakdown eventId now fault =>
    s.record ledger now bankroll
      (persistAndReserve (exactDeps bankroll pos) s.picks ledger (some target) pick breakdown
        eventId now fault)
  | .shadow bankroll pos target pick _ _ now fault =>
    let r := maybePersist (exactDeps bankroll pos) s.picks (some target) pick now fault
    ⟨r.2, if r.1 = .inserted then some [trancheOf pick] else s.tranches⟩

/-- The row of the key holds the blend of its tranches. -/
structure Tracked (key : Instrument × Nat) (s : Account) : Prop where
  keyed : s.picks.Keyed
  blends : ∀ tranches, s.tranches = some tranches → Priced tranches ∧
    ∀ row, s.picks.find key = some row → Blends tranches row.basis

omit [Unicode] in
theorem priced_tranche (pick : PickOut) : Priced [trancheOf pick] := by
  intro t inside
  rw [List.mem_singleton.mp inside]
  exact ⟨pick.amount_nonneg, pick.odds_gt⟩

omit [Unicode] in
theorem Priced.snoc {tranches : List Tranche} (priced : Priced tranches) {t : Tranche}
    (nonneg : 0 ≤ t.amount) (gt : 1 < t.decimalOdds) : Priced (tranches ++ [t]) := by
  intro t' inside
  rcases List.mem_append.mp inside with old | new
  · exact priced t' old
  · rw [List.mem_singleton.mp new]
    exact ⟨nonneg, gt⟩

variable {key : Instrument × Nat} {s : Account}

omit [Unicode] in
theorem find_fill_eq {id : Nat} (slot : Slot id key) {row found : PickRow} (ids : row.id = id)
    (keys : row.key = key) (there : (slot.fill row).find key = some found) : found = row := by
  rw [slot.find_fill row ids keys] at there
  exact (Option.some.inj there).symm

theorem blends_of_finalized {deps : PersistDeps} (exact_ : deps.numeric = .exact)
    {row row' : PickRow} {pick : PickOut} {final granted : ℚ} {persisted : Persisted}
    {now : Int} {staked : Option PickOut} (fresh : ¬ isRepriced persisted)
    (finalized : Finalized deps row pick final granted persisted now staked row') :
    Blends (staked.toList.map trancheOf) row'.basis ∧ Priced (staked.toList.map trancheOf) := by
  cases finalized with
  | demoted basis ungranted _ next =>
    rw [exact_] at next ⊢
    simp only [PickOut.nextBasis, settlementBasisTerms_pick, bind, Except.bind, pure, Except.pure,
      Except.ok.injEq] at next
    subst next
    refine ⟨blends_demoted pick, ?_⟩
    intro t inside
    cases inside
  | staked p increment basis granted_ chosen added next =>
    rw [exact_] at next ⊢
    have reset : increment = none := by
      unfold settlementIncrement at added
      rw [if_neg fresh] at added
      cases added
      rfl
    subst reset
    simp only [PickOut.nextBasis, settlementBasisTerms_pick, bind, Except.bind, pure, Except.pure,
      Except.ok.injEq] at next
    subst next
    exact ⟨blends_fresh p, priced_tranche p⟩

/-- The basis of a row that was finalized after a reprice: one tranche more. -/
theorem blends_of_repriced {deps : PersistDeps} (exact_ : deps.numeric = .exact)
    {row row' : PickRow} {pick : PickOut} {final granted previous : ℚ} {now : Int}
    {staked : Option PickOut} {tranches : List Tranche} (nonneg : 0 ≤ granted)
    (priced : Priced tranches) (blends : Blends tranches row.basis)
    (finalized : Finalized deps row pick final granted (.repriced previous) now staked row') :
    ∃ p, staked = some p ∧
      Blends (tranches ++
        [⟨quantizeHalfUp 2 (granted * deps.bankroll), p.decimalOdds, p.bookmaker⟩])
        row'.basis ∧
      Priced (tranches ++
        [⟨quantizeHalfUp 2 (granted * deps.bankroll), p.decimalOdds, p.bookmaker⟩]) := by
  cases finalized with
  | demoted basis ungranted fresh next => exact absurd rfl fresh
  | staked p increment basis granted_ chosen added next =>
    refine ⟨p, rfl, ?_⟩
    have cents : 0 ≤ quantizeHalfUp 2 (granted * deps.bankroll) :=
      quantizeHalfUp_nonneg (mul_nonneg nonneg deps.bankroll_pos.le)
    have amount : increment = some (quantizeHalfUp 2 (granted * deps.bankroll)) := by
      have repriced : isRepriced (.repriced previous) = true := rfl
      unfold settlementIncrement stakeAmount at added
      rw [if_pos repriced, if_neg (not_lt.mpr nonneg)] at added
      cases added
      rfl
    subst amount
    refine ⟨?_, priced.snoc cents p.odds_gt⟩
    rw [exact_] at next ⊢
    simp only [PickOut.nextBasis, if_neg (not_lt.mpr cents)] at next
    split at next
    · rename_i zero
      cases next
      exact blends.idle _ zero
    · rename_i some_
      have pos : 0 < quantizeHalfUp 2 (granted * deps.bankroll) :=
        lt_of_le_of_ne cents (Ne.symm some_)
      simp only [settlementBasisTerms, if_neg (not_lt.mpr cents), bind, Except.bind, pure,
        Except.pure, Except.ok.injEq] at next
      subst next
      exact blends.accumulate priced ⟨_, p.decimalOdds, p.bookmaker⟩ pos

theorem blends_of_filled {id : Nat} (slot : Slot id key) {row : PickRow} (ids : row.id = id)
    (keys : row.key = key) {bankroll : ℚ} {bankroll_pos : 0 < bankroll} {target : Target}
    {pick : PickOut} (own : target.key pick = key) {final granted : ℚ} {persisted : Persisted}
    {now : Int} {staked : Option PickOut} {table : PickTable} (fresh : ¬ isRepriced persisted)
    (finished : finalizeStake (exactDeps bankroll bankroll_pos) (slot.fill row) target pick final
      granted persisted now = .ok (staked, table)) :
    Priced (staked.toList.map trancheOf) ∧
      ∀ found, table.find key = some found →
        Blends (staked.toList.map trancheOf) found.basis := by
  obtain ⟨row', finalized, rfl⟩ := finalizeStake_ok slot ids keys own finished
  obtain ⟨ids', keys', -⟩ := finalized_frame finalized
  obtain ⟨blends, priced⟩ := blends_of_finalized rfl fresh finalized
  refine ⟨priced, ?_⟩
  intro found there
  rw [find_fill_eq slot (ids'.trans ids) (keys'.trans keys) there]
  exact blends

theorem tracked_committed (tracked : Tracked key s) {bankroll : ℚ} {bankroll_pos : 0 < bankroll}
    {target : Target} {pick : PickOut} (own : target.key pick = key)
    {ledger charged : DailyExposureLedger} {persisted : Persisted} {written table : PickTable}
    {final requested granted : ℚ} {eventId : Str} {now : Int} {staked : Option PickOut}
    (found : persistPick .exact s.picks target pick now = .ok (persisted, written))
    (asked : requestedFraction final persisted = some requested)
    (grants : ledger.reserve (dateOf now) requested (some eventId) = .ok (granted, charged))
    (finished : finalizeStake (exactDeps bankroll bankroll_pos) written target pick final granted
      persisted now = .ok (staked, table)) :
    Tracked key (s.record ledger now bankroll
      ⟨outcomeOf persisted, staked, table, charged⟩) := by
  obtain ⟨books, nonneg, -⟩ := charged_of_reserve grants
  obtain ⟨keyed, held⟩ := tracked
  have landing := persistPick_landing Numeric.exact keyed found
  refine ⟨(write_of_finalized keyed asked landing finished).keeps_keyed, ?_⟩
  subst own
  cases landing with
  | inserted absent =>
    intro tranches recorded
    cases recorded
    have fresh : ¬ isRepriced .inserted := Bool.false_ne_true
    have ids : (pick.newRow .exact target pick.terms now s.picks.nextId).id = s.picks.nextId := rfl
    exact blends_of_filled (s.picks.insertSlot keyed (target.key pick) absent pick.tier) ids rfl
      rfl fresh
      finished
  | upgraded old inside own premium shadow live =>
    intro tranches recorded
    cases recorded
    have fresh : ¬ isRepriced .upgraded := Bool.false_ne_true
    have ids : (pick.promote .exact pick.terms now old).id = old.id := rfl
    rw [← own]
    exact blends_of_filled (upgradeSlot s.picks keyed old inside) ids rfl own.symm fresh finished
  | denied old inside own kept unstaked => cases asked
  | held old inside own kept unstaked still => cases asked
  | repriced old inside own unstaked premium tier live moved =>
    have ids : (pick.reprice .exact old).id = old.id := rfl
    have keys : (pick.reprice .exact old).key = old.key := rfl
    obtain ⟨row', finalized, rfl⟩ := finalizeStake_ok
      (repriceSlot s.picks keyed old inside) ids keys own.symm finished
    obtain ⟨ids', keys', -⟩ := finalized_frame finalized
    have grant : charged.used (dateOf now) - ledger.used (dateOf now) = granted := by
      rw [books.used]
      simp [Charge.onDay]
    intro tranches recorded
    cases before : s.tranches with
    | none =>
      simp only [Account.record, outcomeOf, nextTranches, before] at recorded
      cases staked <;> cases recorded
    | some earlier =>
      obtain ⟨priced, blends⟩ := held earlier before
      have current := blends old (own ▸ keyed.find_mem inside)
      have kept : Blends earlier (pick.reprice .exact old).basis :=
        ⟨current.stake, current.raw, current.effective, current.book⟩
      obtain ⟨p, rfl, more, priced'⟩ := blends_of_repriced rfl nonneg priced kept finalized
      simp only [Account.record, outcomeOf, nextTranches, before, grant] at recorded
      cases recorded
      refine ⟨priced', ?_⟩
      intro row there
      rw [← own] at there
      rw [find_fill_eq (repriceSlot s.picks keyed old inside) ids' keys' there]
      exact more

theorem tracked_shadow (tracked : Tracked key s) {target : Target} {pick : PickOut}
    (own : target.key pick = key) (volume : pick.tier = .volume) {persisted : Persisted}
    {written : PickTable} {now : Int}
    (found : persistPick .exact s.picks target pick now = .ok (persisted, written)) :
    Tracked key ⟨written, if outcomeOf persisted = .inserted then some [trancheOf pick]
      else s.tranches⟩ := by
  have landing := persistPick_landing Numeric.exact tracked.keyed found
  have keyed : written.Keyed :=
    (@write_of_landing _ (exactDeps 1 one_pos) _ tracked.keyed _ _ _ _ _ landing).keeps_keyed
  refine ⟨keyed, ?_⟩
  subst own
  cases landing with
  | inserted absent =>
    intro tranches recorded
    cases recorded
    refine ⟨priced_tranche pick, ?_⟩
    intro row there
    rw [find_fill_eq (s.picks.insertSlot tracked.keyed (target.key pick) absent pick.tier) rfl
      rfl there]
    exact blends_fresh pick
  | upgraded old inside own premium shadow live =>
    exact absurd (volume.symm.trans premium) (by decide)
  | repriced old inside own unstaked premium held live moved =>
    exact absurd (volume.symm.trans premium) (by decide)
  | denied old inside own kept unstaked => exact tracked.blends
  | held old inside own kept unstaked still => exact tracked.blends

theorem tracked_attempt (tracked : Tracked key s) (a : Attempt key) :
    Tracked key (attempt s a) := by
  cases a with
  | reserve bankroll bankroll_pos ledger target pick own breakdown eventId now fault =>
    have ran := persistAndReserve_ran (exactDeps bankroll bankroll_pos) s.picks ledger (some target)
      pick breakdown eventId now fault
    simp only [attempt]
    generalize persistAndReserve (exactDeps bankroll bankroll_pos) s.picks ledger (some target) pick
      breakdown eventId now fault = r at ran ⊢
    cases ran with
    | unconfigured off => cases off
    | withheld => exact ⟨tracked.keyed, tracked.blends⟩
    | handedBack asked grants => exact ⟨tracked.keyed, tracked.blends⟩
    | duplicate known found idle =>
      have landing := persistPick_landing Numeric.exact tracked.keyed found
      cases landing with
      | inserted absent => cases idle
      | upgraded old inside own' premium shadow live => cases idle
      | repriced old inside own' staked premium held live moved => cases idle
      | denied old inside own' kept unstaked => exact ⟨tracked.keyed, tracked.blends⟩
      | held old inside own' kept staked still => exact ⟨tracked.keyed, tracked.blends⟩
    | committed known found asked grants finished =>
      cases known
      exact tracked_committed tracked own found asked grants finished
  | shadow bankroll bankroll_pos target pick own volume now fault =>
    simp only [attempt, maybePersist, exactDeps, not_true_eq_false, if_false]
    split
    · exact ⟨tracked.keyed, tracked.blends⟩
    cases found : persistPick .exact s.picks target pick now with
    | error e => exact ⟨tracked.keyed, tracked.blends⟩
    | ok result => exact tracked_shadow tracked own volume found

/-! Grading the row. -/

def settlementPick (row : PickRow) : Pick where
  id := row.id
  eventId := row.instrument.eventId
  modelVersionId := row.modelVersionId
  market := row.instrument.market
  marketDetail := row.instrument.marketDetail
  selection := row.instrument.selection
  bookmaker := row.detection.bookmaker
  decimalOdds := row.detection.decimalOdds
  recommendedStakeAmount := row.detection.recommendedStakeAmount
  settlementStakeAmount := row.basis.stakeAmount
  settlementEffectiveOddsStake := row.basis.effectiveOddsStake
  status := row.status
  createdAt := row.createdAt

def netPnl (outcome : Outcome) (stake effective : ℚ) : ℚ :=
  match outcome with
  | .won => effective - stake
  | .lost => -stake
  | .halfWon => (effective - stake) / 2
  | .halfLost => -stake / 2
  | .void | .push => 0

omit [Unicode] in
theorem netPnl_add (outcome : Outcome) (stake stake' effective effective' : ℚ) :
    netPnl outcome (stake + stake') (effective + effective') =
      netPnl outcome stake effective + netPnl outcome stake' effective' := by
  cases outcome <;> simp only [netPnl] <;> ring

theorem Tranche.pnl_eq (outcome : Outcome) (t : Tranche) :
    t.pnl outcome = netPnl outcome t.amount (t.amount * t.netOdds) := by
  cases outcome <;> simp only [Tranche.pnl, Tranche.netOdds, unroundedPnl, netPnl] <;> ring

theorem sum_pnl (outcome : Outcome) (tranches : List Tranche) :
    (tranches.map (Tranche.pnl outcome)).sum =
      netPnl outcome (tranches.map Tranche.amount).sum
        (tranches.map fun t => t.amount * t.netOdds).sum := by
  induction tranches with
  | nil => cases outcome <;> simp [netPnl]
  | cons t rest ih =>
    simp only [List.map_cons, List.sum_cons]
    rw [netPnl_add, ih, t.pnl_eq]

/-- Commission is charged once: the quotient of the sums is net of it. -/
theorem unroundedPnl_blend (outcome : Outcome) {stake : ℚ} (effective : ℚ) (pos : 0 < stake) :
    unroundedPnl outcome stake (effective / stake) none = netPnl outcome stake effective := by
  have some_ : stake ≠ 0 := ne_of_gt pos
  cases outcome <;> simp only [unroundedPnl, netPnl] <;> field_simp

theorem sum_effective_pos {tranches : List Tranche} (priced : Priced tranches)
    (pos : ∃ t ∈ tranches, 0 < t.amount) :
      0 < (tranches.map fun t => t.amount * t.netOdds).sum := by
  obtain ⟨t, inside, more⟩ := pos
  have net : ∀ t ∈ tranches, 0 < t.netOdds := fun t inside =>
    one_pos.trans (one_lt_effectiveOdds t.bookmaker (priced t inside).2)
  have one : t.amount * t.netOdds ≤ (tranches.map fun t => t.amount * t.netOdds).sum := by
    apply List.single_le_sum
    · intro q listed
      obtain ⟨t', inside', rfl⟩ := List.mem_map.mp listed
      exact mul_nonneg (priced t' inside').1 (net t' inside').le
    · exact List.mem_map_of_mem inside
  exact (mul_pos more (net t inside)).trans_le one

omit [Unicode] in
theorem stakeAndOdds_unlogged {store : Store} {pick : Pick}
    (unlogged : ∀ bet ∈ store.manualBets, bet.pickId ≠ pick.id) :
    store.stakeAndOdds pick = Store.recommendedSettlementBasis pick := by
  have none_ : (store.manualBets.reverse.find? fun bet =>
      bet.pickId = pick.id && bet.betPlaced && bet.actualStake.isSome) = none := by
    apply List.find?_eq_none.mpr
    intro bet inside
    simp [unlogged bet (List.mem_reverse.mp inside)]
  unfold Store.stakeAndOdds
  rw [none_]
  rfl

/-- The row settles as its tranches would: the basis holds their sums, and without a logged bet
the stake and the odds of `_settle_one` give, before rounding, the sum of their profits. -/
structure SettlesByTranche (tranches : List Tranche) (row : PickRow) : Prop where
  basis : Blends tranches row.basis
  pnl : ∀ store : Store, (∀ bet ∈ store.manualBets, bet.pickId ≠ row.id) → ∀ outcome,
    let (stake, odds, book) := store.stakeAndOdds (settlementPick row)
    unroundedPnl outcome stake odds book = (tranches.map (Tranche.pnl outcome)).sum

omit [Unicode] in
theorem basis_fallback {row : PickRow} (nothing : row.basis.stakeAmount = 0) :
    Store.recommendedSettlementBasis (settlementPick row) =
      (row.detection.recommendedStakeAmount, row.detection.decimalOdds,
        some row.detection.bookmaker) := by
  apply if_neg
  rintro ⟨pos, -⟩
  exact absurd nothing (ne_of_gt pos)

theorem settlesByTranche_iff {tranches : List Tranche} {row : PickRow} (priced : Priced tranches)
    (blends : Blends tranches row.basis) :
    SettlesByTranche tranches row ↔
      (∃ t ∈ tranches, 0 < t.amount) ∨ row.detection.recommendedStakeAmount = 0 := by
  by_cases positive : ∃ t ∈ tranches, 0 < t.amount
  · refine iff_of_true ⟨blends, ?_⟩ (.inl positive)
    intro store unlogged outcome
    have pos : 0 < row.basis.stakeAmount :=
      blends.stake ▸ (sum_amount_pos_iff priced).mpr positive
    have effective : 0 < row.basis.effectiveOddsStake :=
      blends.effective ▸ sum_effective_pos priced positive
    have basis : store.stakeAndOdds (settlementPick row) =
        (row.basis.stakeAmount, row.basis.effectiveOddsStake / row.basis.stakeAmount, none) :=
      (stakeAndOdds_unlogged unlogged).trans (if_pos ⟨pos, effective⟩)
    rw [basis, sum_pnl, ← blends.stake, ← blends.effective]
    exact unroundedPnl_blend outcome _ pos
  · have zero : ∀ t ∈ tranches, t.amount = 0 := fun t inside =>
      le_antisymm (not_lt.mp fun more => positive ⟨t, inside, more⟩) (priced t inside).1
    have nothing : row.basis.stakeAmount = 0 := by
      rw [blends.stake]
      apply List.sum_eq_zero
      intro q listed
      obtain ⟨t, inside, rfl⟩ := List.mem_map.mp listed
      exact zero t inside
    have unstaked : ∀ outcome, (tranches.map (Tranche.pnl outcome)).sum = 0 := by
      intro outcome
      apply List.sum_eq_zero
      intro q listed
      obtain ⟨t, inside, rfl⟩ := List.mem_map.mp listed
      rw [t.pnl_eq, zero t inside]
      cases outcome <;> simp [netPnl]
    constructor
    · intro settles
      right
      have lost := settles.pnl ⟨[], [], [], [], [],
        []⟩ (fun bet inside => absurd inside List.not_mem_nil) .lost
      rw [stakeAndOdds_unlogged (fun bet inside => absurd inside List.not_mem_nil),
        basis_fallback nothing, unstaked] at lost
      exact neg_eq_zero.mp lost
    · rintro (some_ | idle)
      · exact absurd some_ positive
      · refine ⟨blends, ?_⟩
        intro store unlogged outcome
        rw [stakeAndOdds_unlogged unlogged, basis_fallback nothing, idle, unstaked]
        cases outcome <;> simp [unroundedPnl]

/-- After any history of the key its row settles as its tranches since the last insert or upgrade
would, unless all of them round to nothing while their sum does not. -/
theorem history_settles {picks : PickTable} (keyed : picks.Keyed) (history : List (Attempt key))
    {tranches : List Tranche} {row : PickRow}
    (since : (Transition.run attempt ⟨picks, none⟩ history).tranches = some tranches)
    (found : (Transition.run attempt ⟨picks, none⟩ history).picks.find key = some row) :
    SettlesByTranche tranches row ↔
      (∃ t ∈ tranches, 0 < t.amount) ∨ row.detection.recommendedStakeAmount = 0 := by
  have fresh : Tracked key ⟨picks, none⟩ := ⟨keyed, fun tranches none_ => by cases none_⟩
  have tracked : Tracked key (Transition.run attempt ⟨picks, none⟩ history) :=
    Transition.invariant (fun _ a tracked => tracked_attempt tracked a) fresh
  obtain ⟨priced, blends⟩ := tracked.blends tranches since
  exact settlesByTranche_iff priced (blends row found)

end

/-! One pick on two days, clipped to what each day's cap leaves. -/

def awayKey : Instrument × Nat := (⟨7, .h2h, none, "Porto".toList⟩, 1)

theorem stakedFraction_nonneg : (0 : ℚ) ≤ 2 / 100 := by norm_num

theorem stakedAmount_nonneg : (0 : ℚ) ≤ 20 := by norm_num

theorem bankroll_pos : (0 : ℚ) < 1000 := by norm_num

def awayPick (odds : ℚ) (gt : 1 < odds) : PickOut where
  market := .h2h
  selection := "Porto".toList
  bookmaker := "Bet365".toList
  decimalOdds := odds
  modelProbability := 2 / 5
  fairProbability := 2 / 5
  edge := 4 / 100
  ev := 4 / 100
  confidence := 2 / 5
  recommendedStakeFraction := 2 / 100
  recommendedStakeAmount := 20
  stakeBreakdown := { rawKelly := 8 / 100, fractional := 2 / 100, capped := false,
                      final := 2 / 100 }
  reasonSummary := []
  odds_gt := gt
  fraction_nonneg := stakedFraction_nonneg
  amount_nonneg := stakedAmount_nonneg

def clippedAttempt (day : Int) (left odds : ℚ) (gt : 1 < odds) : Attempt awayKey :=
  .reserve 1000 bankroll_pos
    { maxDailyFraction := 5 / 100,
      usedByDay := ⟨[(day, 5 / 100 - left)], List.nodup_singleton _⟩ }
    ⟨7, 1⟩ (awayPick odds gt) rfl { rawKelly := 8 / 100, fractional := 2 / 100, capped := false,
                                    final := 2 / 100 }
    "e7".toList (days day) none

theorem two_gt : (1 : ℚ) < 2 := by norm_num

theorem three_gt : (1 : ℚ) < 3 := by norm_num

/-- A bet at 2 of what the first day leaves, repriced to 3 with what the second day leaves. -/
def clippedHistory (left left' : ℚ) : List (Attempt awayKey) :=
  [clippedAttempt 0 left 2 two_gt, clippedAttempt 1 left' 3 three_gt]

def clippedAccount (left left' : ℚ) : Account :=
  @Transition.run _ _ (@attempt Unicode.ascii awayKey)
    ⟨emptyPicks, none⟩ (clippedHistory left left')

theorem clippedAccount_settles :
    ∃ row, (clippedAccount (1 / 100) (1 / 200)).picks.find awayKey = some row ∧
      @SettlesByTranche Unicode.ascii
        [⟨10, 2, "Bet365".toList⟩, ⟨5, 3, "Bet365".toList⟩] row := by
  have since : (clippedAccount (1 / 100) (1 / 200)).tranches =
      some [⟨10, 2, "Bet365".toList⟩, ⟨5, 3, "Bet365".toList⟩] := by decide +kernel
  have there : ((clippedAccount (1 / 100) (1 / 200)).picks.find awayKey).isSome := by decide +kernel
  obtain ⟨row, found⟩ := Option.isSome_iff_exists.mp there
  refine ⟨row, found,
    (@history_settles Unicode.ascii _ _ sound_empty.keyed _ _ _ since found).mpr (.inl ?_)⟩
  exact ⟨_, List.mem_cons_self, by norm_num⟩

/-- Two amounts under half a cent settle as nothing, and the row as the cent that they make. -/
theorem history_settles_fails :
    ∃ row, (clippedAccount (4 / 1000000) (4 / 1000000)).tranches =
        some [⟨0, 2, "Bet365".toList⟩, ⟨0, 3, "Bet365".toList⟩] ∧
      (clippedAccount (4 / 1000000) (4 / 1000000)).picks.find awayKey = some row ∧
      ¬ @SettlesByTranche Unicode.ascii
        [⟨0, 2, "Bet365".toList⟩, ⟨0, 3, "Bet365".toList⟩] row := by
  have since : (clippedAccount (4 / 1000000) (4 / 1000000)).tranches =
      some [⟨0, 2, "Bet365".toList⟩, ⟨0, 3, "Bet365".toList⟩] := by decide +kernel
  have lost : ((clippedAccount (4 / 1000000) (4 / 1000000)).picks.find awayKey).map (fun row =>
      (Store.recommendedSettlementBasis (settlementPick row)).1) = some (1 / 100) := by
        decide +kernel
  obtain ⟨row, found, stake⟩ := Option.map_eq_some_iff.mp lost
  refine ⟨row, since, found, ?_⟩
  intro settles
  have pnl := @SettlesByTranche.pnl Unicode.ascii _ _ settles ⟨[], [], [], [], [], []⟩
    (fun bet inside => absurd inside List.not_mem_nil) .lost
  rw [stakeAndOdds_unlogged (fun bet inside => absurd inside List.not_mem_nil)] at pnl
  have staked : -(Store.recommendedSettlementBasis (settlementPick row)).1 = -0 + (-0 + 0) := pnl
  rw [stake] at staked
  norm_num at staked

end SharpEvPicks.Settlement
