import SharpEvPicks.Edge.Anchors

/-! Whether a close may count as evidence, `app/edge/value.py`. -/
namespace SharpEvPicks.Clv

open Python Edge

def clvTautologyEps : ℚ := 1 / 1000

def clvImplausibleCloseEdge : ℚ := 20 / 100

def clvImplausibleLog : ℚ := 1 / 2

/-- `CLOSE_EXCLUSION_REASONS`, as far as `close_exclusion_reason` returns them. -/
inductive CloseReason where
  | fabricated | circularSelfPriced | staleEcho | tautological | asymmetricDevigFallback
  | noSnapshotClose | trusted
  deriving DecidableEq, Repr

/-- The inputs that the two verdicts on a close share. A stored anchor type that is none of the
three tags answers every comparison as an absent one does. -/
structure Close where
  closeAnchorBook : Str
  fillBook : Str
  pickFair : Option ℚ
  closingFair : ℚ
  mintAnchorBook : Option Str := none
  mintAnchorType : Option AnchorType := none
  closeCapturedAt : Option Int := none
  pickCreatedAt : Option Int := none

section
variable [Unicode]

/-- `close_is_independent_of_fill` without the optional anchors, as both verdicts call it. -/
def closeIsIndependentOfFill (closeAnchorBook fillBook : Str) : Bool :=
  closeAnchorBook = [] || closeAnchorBook = consensusAnchor ||
    norm closeAnchorBook ≠ norm fillBook

omit [Unicode] in
def closeMovedFromPickFair (pickFair : Option ℚ) (closingFair : ℚ) : Bool :=
  pickFair.any fun fair => clvTautologyEps < |closingFair - fair|

omit [Unicode] in
def Close.beforeMint (close : Close) : Bool :=
  match close.closeCapturedAt, close.pickCreatedAt with
  | some captured, some created => captured ≤ created
  | _, _ => false

def closeIsMintEcho (close : Close) : Bool :=
  let mintBook := close.mintAnchorBook.getD []
  close.beforeMint &&
    if close.closeAnchorBook = [] || close.closeAnchorBook = consensusAnchor then
      mintBook = consensusAnchor || (mintBook = [] && close.mintAnchorType = some .consensus)
    else if mintBook ≠ [] && mintBook ≠ consensusAnchor then
      norm mintBook = norm close.closeAnchorBook
    else if close.mintAnchorType = some .pinnacle || close.mintAnchorType = some .sharp then
      some (anchorTypeFor close.closeAnchorBook) = close.mintAnchorType
    else false

def persistedCloseIndependent (close : Close) : Bool :=
  closeIsIndependentOfFill close.closeAnchorBook close.fillBook && !closeIsMintEcho close &&
    closeMovedFromPickFair close.pickFair close.closingFair

omit [Unicode] in
/-- The guard against fairs of different effective methods; an unknown flag is symmetric. -/
def devigFallbackAsymmetric (mint close : Option Bool) : Bool :=
  match mint, close with
  | some mint, some close => mint ≠ close
  | _, _ => false

def closeExclusionReason (close : Close) (fillEff : ℚ)
    (mintDevigFellBack closeDevigFellBack : Option Bool) (clvLogValue : Option ℚ)
    (hasSnapshotClose : Bool) : CloseReason :=
  if 0 < fillEff ∧ 0 < close.closingFair ∧ close.closingFair < 1 ∧
      clvImplausibleCloseEdge < close.closingFair - 1 / fillEff then .fabricated
  else if ¬ closeIsIndependentOfFill close.closeAnchorBook close.fillBook then .circularSelfPriced
  else if ¬ closeMovedFromPickFair close.pickFair close.closingFair then
    if close.beforeMint then .staleEcho else .tautological
  -- the fair moved, but over a second reading of the row that priced the pick
  else if closeIsMintEcho close then .staleEcho
  else if devigFallbackAsymmetric mintDevigFellBack closeDevigFellBack then
    .asymmetricDevigFallback
  else if clvLogValue.any (clvImplausibleLog < |·|) then .fabricated
  else if ¬ hasSnapshotClose then .noSnapshotClose
  else .trusted

/-- The checks that `close_exclusion_reason` makes before it compares the devigs, all passed. -/
structure Close.Comparable (close : Close) (fillEff : ℚ) : Prop where
  credible : ¬ (0 < fillEff ∧ 0 < close.closingFair ∧ close.closingFair < 1 ∧
    clvImplausibleCloseEdge < close.closingFair - 1 / fillEff)
  independent : closeIsIndependentOfFill close.closeAnchorBook close.fillBook
  moved : closeMovedFromPickFair close.pickFair close.closingFair
  observed : closeIsMintEcho close = false

theorem closeExclusionReason_asymmetric_iff {close : Close} {fillEff : ℚ}
    {mintFellBack closeFellBack : Option Bool} {clvLogValue : Option ℚ}
    {hasSnapshotClose : Bool} :
    closeExclusionReason close fillEff mintFellBack closeFellBack clvLogValue hasSnapshotClose =
        .asymmetricDevigFallback ↔
      close.Comparable fillEff ∧ devigFallbackAsymmetric mintFellBack closeFellBack := by
  unfold closeExclusionReason
  constructor
  · intro verdict
    split at verdict
    · cases verdict
    split at verdict
    · cases verdict
    split at verdict
    · split at verdict <;> cases verdict
    split at verdict
    · cases verdict
    rename_i credible independent moved observed
    have comparable : close.Comparable fillEff :=
      { credible := credible
        independent := not_not.mp independent
        moved := not_not.mp moved
        observed := by simpa using observed }
    split at verdict
    · rename_i asymmetric
      exact ⟨comparable, asymmetric⟩
    · split at verdict
      · cases verdict
      · split at verdict <;> cases verdict
  · rintro ⟨comparable, asymmetric⟩
    rw [if_neg comparable.credible, if_neg (not_not.mpr comparable.independent),
      if_neg (not_not.mpr comparable.moved), comparable.observed]
    simp [asymmetric]

/-! The label of a close against the flag stored beside it. -/

theorem persistedCloseIndependent_iff {close : Close} :
    persistedCloseIndependent close = true ↔
      closeIsIndependentOfFill close.closeAnchorBook close.fillBook = true ∧
        closeIsMintEcho close = false ∧
        closeMovedFromPickFair close.pickFair close.closingFair = true := by
  rw [persistedCloseIndependent, Bool.and_eq_true, Bool.and_eq_true, Bool.not_eq_true', and_assoc]

/-- The labels that leave the flag up. -/
theorem closeExclusionReason_of_independent {close : Close} {fillEff : ℚ}
    {mintFellBack closeFellBack : Option Bool} {clvLogValue : Option ℚ} {hasSnapshotClose : Bool}
    (stored : persistedCloseIndependent close = true) :
    closeExclusionReason close fillEff mintFellBack closeFellBack clvLogValue hasSnapshotClose ∈
      [CloseReason.fabricated, .asymmetricDevigFallback, .noSnapshotClose, .trusted] := by
  obtain ⟨independent, observed, moved⟩ := persistedCloseIndependent_iff.mp stored
  unfold closeExclusionReason
  rw [if_neg (not_not.mpr independent), if_neg (not_not.mpr moved), observed,
    if_neg Bool.false_ne_true]
  split
  · simp
  split
  · simp
  split
  · simp
  split <;> simp

/-- The labels that go with a lowered flag: fabrication is judged before the rest. -/
theorem closeExclusionReason_of_dependent {close : Close} {fillEff : ℚ}
    {mintFellBack closeFellBack : Option Bool} {clvLogValue : Option ℚ} {hasSnapshotClose : Bool}
    (stored : persistedCloseIndependent close = false) :
    closeExclusionReason close fillEff mintFellBack closeFellBack clvLogValue hasSnapshotClose ∈
      [CloseReason.fabricated, .circularSelfPriced, .staleEcho, .tautological] := by
  unfold closeExclusionReason
  split
  · simp
  split
  · simp
  rename_i independent
  split
  · split <;> simp
  rename_i moved
  -- priced by another book and moved: only an echo lowers the flag
  have echo : closeIsMintEcho close = true := by
    by_contra observed
    have raised := persistedCloseIndependent_iff.mpr
      ⟨not_not.mp independent, Bool.eq_false_of_not_eq_true observed, not_not.mp moved⟩
    rw [stored] at raised
    cases raised
  simp [echo]

theorem closeVerdicts_agree (close : Close) (fillEff : ℚ)
    (mintFellBack closeFellBack : Option Bool) (clvLogValue : Option ℚ)
    (hasSnapshotClose : Bool) :
    let reason :=
      closeExclusionReason close fillEff mintFellBack closeFellBack clvLogValue hasSnapshotClose
    (reason ∈ [CloseReason.circularSelfPriced, .staleEcho, .tautological] →
        persistedCloseIndependent close = false) ∧
      (persistedCloseIndependent close = false →
        reason ∈ [CloseReason.circularSelfPriced, .staleEcho, .tautological, .fabricated]) ∧
      (reason ∈ [CloseReason.trusted, .noSnapshotClose, .asymmetricDevigFallback] →
        persistedCloseIndependent close = true) := by
  intro reason
  cases stored : persistedCloseIndependent close with
  | true =>
    have label : reason ∈ _ := closeExclusionReason_of_independent stored
    refine ⟨fun tripped => ?_, fun other => (by cases other), fun _ => rfl⟩
    cases verdict : reason <;> simp [verdict] at label tripped
  | false =>
    have label : reason ∈ _ := closeExclusionReason_of_dependent stored
    refine ⟨fun _ => rfl, fun _ => ?_, fun passed => ?_⟩
    · cases verdict : reason <;> simp [verdict] at label ⊢
    · cases verdict : reason <;> simp [verdict] at label passed

end
end SharpEvPicks.Clv
