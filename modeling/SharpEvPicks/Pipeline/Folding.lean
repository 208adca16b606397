import Mathlib.Data.List.Dedup
import SharpEvPicks.Pipeline.Vocabulary
import SharpEvPicks.Python.Format

/-! Which lines `fold_injected_group_details` of `app/pipeline.py` keeps apart. -/
namespace SharpEvPicks.Pipeline

open Python

/-- Digits have no case. -/
class UnicodeDigits extends Unicode where
  lower_digits : ∀ s : Str,
    (∀ c ∈ s, (isAscii c ∧ c.toLower = c) ∨ (decimal c).isSome) → lower s = s

theorem lower_digits_ascii (s : Str)
    (digits : ∀ c ∈ s, (isAscii c ∧ c.toLower = c) ∨ (Unicode.ascii.decimal c).isSome) :
      Unicode.ascii.lower s = s := by
  refine (List.map_congr_left fun c inside => ?_).trans (List.map_id' s)
  obtain ⟨-, lowered⟩ | digit := digits c inside
  · exact lowered
  · by_cases decimal : c.isDigit
    · exact toLower_digit decimal
    · have absent : (if c.isDigit then some (c.toNat - 48) else none : Option Nat).isSome := digit
      rw [if_neg decimal] at absent
      cases absent

@[reducible] def UnicodeDigits.ascii : UnicodeDigits :=
  { Unicode.ascii with lower_digits := lower_digits_ascii }

section Tokens
variable [Unicode]

theorem isLineToken_mem {token : Str} (line : isLineToken token) {c : Char} (inside : c ∈ token) :
    c = '_' ∨ (Unicode.decimal c).isSome := by
  have parts : token.takeWhile (· ≠ '_') ++ token.dropWhile (· ≠ '_') = token :=
    List.takeWhile_append_dropWhile
  unfold isLineToken at line
  cases rest : token.dropWhile (· ≠ '_') with
  | nil =>
    rw [rest] at line
    exact .inr (isDecimals_mem line inside)
  | cons point fraction =>
    have stop : point = '_' := by
      have stops := List.head?_dropWhile_not (fun c : Char => decide (c ≠ '_')) token
      rw [rest] at stops
      simpa using stops
    rw [rest] at line parts
    rw [Bool.and_eq_true] at line
    rw [← parts, List.mem_append, List.mem_cons] at inside
    obtain whole | here | after := inside
    · exact .inr (isDecimals_mem line.1 whole)
    · exact .inl (here.trans stop)
    · exact .inr (isDecimals_mem line.2 after)

theorem decimal_underscore : Unicode.decimal '_' = none := by
  rw [Unicode.decimal_ascii '_' (by decide)]
  rfl

theorem isLineToken_decimals {whole : Str} (digits : isDecimals whole) :
    whole.dropWhile (· ≠ '_') = [] ∧ isLineToken whole := by
  have rest : whole.dropWhile (· ≠ '_') = [] := by
    refine List.dropWhile_eq_nil_iff.mpr fun c inside => decide_eq_true ?_
    rintro rfl
    have digit := isDecimals_mem digits inside
    rw [decimal_underscore] at digit
    cases digit
  refine ⟨rest, ?_⟩
  rw [isLineToken, rest]
  exact digits

theorem intTotals_some {d whole : Str} (found : intTotalsDetail d = some whole) :
    isDecimals whole := by
  unfold intTotalsDetail at found
  obtain ⟨rest, -, found⟩ := Option.bind_eq_some_iff.mp found
  dsimp only at found
  split at found
  · rename_i line
    cases found
    exact (Bool.and_eq_true_iff.mp line).1
  · cases found

theorem ouDetail_some {d token : Str} (found : ouDetail d = some token) : isLineToken token := by
  unfold ouDetail at found
  obtain ⟨rest, -, found⟩ := Option.bind_eq_some_iff.mp found
  dsimp only at found
  split at found
  · rename_i line
    cases found
    exact line
  · cases found

end Tokens

section Canonical
variable [UnicodeDigits]

/-- A totals detail without a trailing zero is canonical. -/
theorem canonical_totalsToken {token : Str} (line : isLineToken token)
    (broken : intTotalsDetail ("totals_".toList ++ token) = none) :
    canonicalMarketDetail (some ("totals_".toList ++ token)) = some
      ("totals_".toList ++ token) := by
  have lower : Unicode.lower ("totals_".toList ++ token) = "totals_".toList ++ token := by
    refine UnicodeDigits.lower_digits _ fun c inside => ?_
    obtain name | digit := List.mem_append.mp inside
    · have letters : ∀ c ∈ "totals_".toList, isAscii c ∧ c.toLower = c := by decide
      exact .inl (letters c name)
    · obtain rfl | decimal := isLineToken_mem line digit
      · exact .inl (by decide)
      · exact .inr decimal
  have lined : "totals_".toList ++ token ∉ linelessDetails := by
    have heads : ∀ d ∈ linelessDetails, d.head? ≠ some 't' := by decide
    exact fun listed => heads _ listed rfl
  have dashed : ouDetail ("totals_".toList ++ token) = none := rfl
  simp only [canonicalMarketDetail, Option.bind_some, lower, if_neg lined, dashed, broken]

theorem intTotals_whole {whole : Str} (digits : isDecimals whole) :
    intTotalsDetail ("totals_".toList ++ whole) = none := by
  have last : beforeFinalNewline whole = whole := by
    refine if_neg fun newline => ?_
    have digit := isDecimals_mem digits (List.mem_of_getLast? newline)
    rw [Unicode.decimal_ascii '\n' (by decide)] at digit
    cases digit
  have prefixed : dropPrefix? "totals_".toList ("totals_".toList ++ whole) = some whole := by
    simp [dropPrefix?]
  rw [intTotalsDetail, prefixed]
  simp only [Option.bind_eq_bind, Option.bind_some, last, (isLineToken_decimals digits).1]
  exact if_neg (by simp)

theorem canonical_idempotent (detail : Option Str) :
    canonicalMarketDetail (canonicalMarketDetail detail) = canonicalMarketDetail detail := by
  have whole {w : Str} (digits : isDecimals w) :
      canonicalMarketDetail (some ("totals_".toList ++ w)) = some ("totals_".toList ++ w) :=
    canonical_totalsToken (isLineToken_decimals digits).2 (intTotals_whole digits)
  cases detail with
  | none => rfl
  | some d =>
    by_cases lined : Unicode.lower d ∈ linelessDetails
    · have none_ : canonicalMarketDetail (some d) = none := by
        simp only [canonicalMarketDetail, Option.bind_some, if_pos lined]
      rw [none_]
      rfl
    · cases dashed : ouDetail (Unicode.lower d) with
      | some token =>
        cases total : intTotalsDetail ("totals_".toList ++ token) with
        | some w =>
          have value : canonicalMarketDetail (some d) = some ("totals_".toList ++ w) := by
            simp only [canonicalMarketDetail, Option.bind_some, if_neg lined, dashed, total]
          rw [value, whole (intTotals_some total)]
        | none =>
          have value : canonicalMarketDetail (some d) = some ("totals_".toList ++ token) := by
            simp only [canonicalMarketDetail, Option.bind_some, if_neg lined, dashed, total]
          rw [value, canonical_totalsToken (ouDetail_some dashed) total]
      | none =>
        cases total : intTotalsDetail (Unicode.lower d) with
        | some w =>
          have value : canonicalMarketDetail (some d) = some ("totals_".toList ++ w) := by
            simp only [canonicalMarketDetail, Option.bind_some, if_neg lined, dashed, total]
          rw [value, whole (intTotals_some total)]
        | none =>
          have value : canonicalMarketDetail (some d) = some d := by
            simp only [canonicalMarketDetail, Option.bind_some, if_neg lined, dashed, total]
          rw [value, value]

end Canonical

/-! The fold, one snapshot at a time. -/

section Fold
variable [Unicode]

/-- What the fold makes of a snapshot of the list. -/
def retold (snapshots : List Snapshot) (s : Snapshot) : Snapshot :=
  match adoptedDetail (snapshots.map canoned) (canoned s) with
  | some native => (canoned s).withDetail native
  | none => canoned s

theorem fold_eq (snapshots : List Snapshot) :
    foldInjectedGroupDetails snapshots = snapshots.map (retold snapshots) := by
  rw [foldInjectedGroupDetails, List.map_map]
  rfl

/-- The full-match spreads group `d` of the event quotes the selection of `a`. -/
structure QuotesLine (a : Snapshot) (d : Str) (n : Snapshot) : Prop where
  event : n.eventId = a.eventId
  selection : n.selection = a.selection
  spreads : n.market = .spreads
  group : canonicalMarketDetail n.marketDetail = some d
  native : ((nativeSpreadDetail d).bind fractionalLine).isSome

/-- An Asian handicap whose selection one native group quotes, and that group's line has its
magnitude. -/
structure Adoptable (snapshots : List Snapshot) (a : Snapshot) (d : Str) : Prop where
  line : ∃ x y, arcadiaLine (canoned a) = some x ∧
    (nativeSpreadDetail d).bind fractionalLine = some y ∧ |y| = |x|
  quoted : ∃ n ∈ snapshots, QuotesLine a d n
  alone : ∀ n ∈ snapshots, ∀ d', QuotesLine a d' n → d' = d

theorem mem_nativeDetails {snapshots : List Snapshot} {a : Snapshot} {detail : Option Str} :
    detail ∈ nativeDetails (snapshots.map canoned) (canoned a) ↔
      ∃ d, detail = some d ∧ ∃ n ∈ snapshots, QuotesLine a d n := by
  simp only [nativeDetails, List.mem_dedup, List.mem_map, List.mem_filter, Bool.and_eq_true,
    decide_eq_true_eq]
  constructor
  · rintro ⟨-, ⟨⟨n, inside, rfl⟩, ⟨event, selection⟩, native⟩, rfl⟩
    have line : nativeLine (canoned n) = if n.market = .spreads then
        ((canonicalMarketDetail n.marketDetail).bind nativeSpreadDetail).bind fractionalLine
          else none := rfl
    rw [line] at native
    split at native
    swap
    · cases native
    rename_i spreads
    cases group : canonicalMarketDetail n.marketDetail with
    | none =>
      rw [group] at native
      cases native
    | some d =>
      rw [group] at native
      exact ⟨d, group, n, inside, event, selection, spreads, group, native⟩
  · rintro ⟨d, rfl, n, inside, quotes⟩
    refine ⟨canoned n, ⟨⟨n, inside, rfl⟩, ⟨quotes.event, quotes.selection⟩, ?_⟩,
      quotes.group⟩
    have line : nativeLine (canoned n) = if n.market = .spreads then
        ((canonicalMarketDetail n.marketDetail).bind nativeSpreadDetail).bind fractionalLine
          else none := rfl
    rw [line, if_pos quotes.spreads, quotes.group]
    exact quotes.native

theorem nativeDetails_single {snapshots : List Snapshot} {a : Snapshot} {d : Str} :
    nativeDetails (snapshots.map canoned) (canoned a) = [some d] ↔
      (∃ n ∈ snapshots, QuotesLine a d n) ∧ ∀ n ∈ snapshots, ∀ d', QuotesLine a d' n →
        d' = d := by
  have nodup : (nativeDetails (snapshots.map canoned) (canoned a)).Nodup := List.nodup_dedup _
  constructor
  · intro single
    constructor
    · obtain ⟨d', same, n, inside, quotes⟩ :=
        mem_nativeDetails.mp (single ▸ List.mem_singleton_self (some d))
      cases same
      exact ⟨n, inside, quotes⟩
    · intro n inside d' quotes
      have listed := mem_nativeDetails.mpr ⟨d', rfl, n, inside, quotes⟩
      rw [single] at listed
      exact Option.some.inj (List.mem_singleton.mp listed)
  · rintro ⟨⟨n, inside, quotes⟩, alone⟩
    have listed := mem_nativeDetails.mpr ⟨d, rfl, n, inside, quotes⟩
    have every : ∀ detail ∈ nativeDetails (snapshots.map canoned) (canoned a),
        detail = some d := by
      intro detail other
      obtain ⟨d', rfl, n', inside', quotes'⟩ := mem_nativeDetails.mp other
      rw [alone n' inside' d' quotes']
    rw [List.eq_replicate_of_mem every] at nodup listed ⊢
    cases size : (nativeDetails (snapshots.map canoned) (canoned a)).length with
    | zero =>
      rw [size] at listed
      cases listed
    | succ k =>
      rw [size] at nodup
      have small := List.nodup_replicate.mp nodup
      rw [Nat.le_zero.mp (Nat.le_of_succ_le_succ small)]
      rfl

theorem adopted_iff {snapshots : List Snapshot} {a : Snapshot} {detail : Option Str} :
    adoptedDetail (snapshots.map canoned) (canoned a) = some detail ↔
      ∃ d, detail = some d ∧ Adoptable snapshots a d := by
  constructor
  · intro adopted
    unfold adoptedDetail at adopted
    obtain ⟨x, line, adopted⟩ := Option.bind_eq_some_iff.mp adopted
    split at adopted
    swap
    · cases adopted
    rename_i single
    obtain ⟨y, group, adopted⟩ := Option.bind_eq_some_iff.mp adopted
    split at adopted
    swap
    · cases adopted
    rename_i magnitude
    cases Option.some.inj adopted
    cases detail with
    | none => cases group
    | some d =>
      obtain ⟨quoted, alone⟩ := nativeDetails_single.mp single
      exact ⟨d, rfl, ⟨x, y, line, group, magnitude⟩, quoted, alone⟩
  · rintro ⟨d, rfl, ⟨x, y, line, group, magnitude⟩, quoted, alone⟩
    have single := nativeDetails_single.mpr ⟨quoted, alone⟩
    unfold adoptedDetail
    rw [line, single]
    simp only [Option.bind_eq_bind, Option.bind_some, group, if_pos magnitude]

theorem retold_adopted {snapshots : List Snapshot} {a : Snapshot} {d : Str}
    (adoptable : Adoptable snapshots a d) : retold snapshots a = a.withDetail (some d) := by
  have adopted := adopted_iff.mpr ⟨d, rfl, adoptable⟩
  rw [retold, adopted]
  rfl

theorem retold_left {snapshots : List Snapshot} {a : Snapshot}
    (left : ∀ d, ¬ Adoptable snapshots a d) : retold snapshots a = canoned a := by
  rw [retold]
  cases adopted : adoptedDetail (snapshots.map canoned) (canoned a) with
  | none => rfl
  | some detail =>
    obtain ⟨d, -, adoptable⟩ := adopted_iff.mp adopted
    exact absurd adoptable (left d)

theorem retold_cases (snapshots : List Snapshot) (a : Snapshot) :
    (∃ d, Adoptable snapshots a d ∧ retold snapshots a = a.withDetail (some d)) ∨
      (∀ d, ¬ Adoptable snapshots a d) ∧ retold snapshots a = canoned a := by
  by_cases adoptable : ∃ d, Adoptable snapshots a d
  · obtain ⟨d, adoptable⟩ := adoptable
    exact .inl ⟨d, adoptable, retold_adopted adoptable⟩
  · have left := not_exists.mp adoptable
    exact .inr ⟨left, retold_left left⟩

/-- A native spread is no Asian handicap. -/
theorem native_not_arcadia {d : Str}
    (native : ((nativeSpreadDetail d).bind fractionalLine).isSome) :
    arcadiaAhDetail d = none := by
  have starts : ∃ rest, d = 's' :: rest := by
    cases d with
    | nil => cases native
    | cons c rest =>
      by_cases first : c = 's'
      · exact ⟨rest, by rw [first]⟩
      · have other : dropPrefix? "spreads_".toList (c :: rest) = none := by
          simp [dropPrefix?, List.isPrefixOf, Ne.symm first]
        rw [nativeSpreadDetail, other] at native
        cases native
  obtain ⟨rest, rfl⟩ := starts
  rfl

theorem Adoptable.canonical {snapshots : List Snapshot} {a : Snapshot} {d : Str}
    (adoptable : Adoptable snapshots a d) :
    ∃ own, canonicalMarketDetail a.marketDetail = some own ∧ (arcadiaAhDetail own).isSome := by
  obtain ⟨x, -, line, -, -⟩ := adoptable.line
  have value : arcadiaLine (canoned a) = if a.market = .spreads then
      ((canonicalMarketDetail a.marketDetail).bind arcadiaAhDetail).bind fractionalLine else none :=
        rfl
  rw [value] at line
  split at line
  · obtain ⟨token, read, -⟩ := Option.bind_eq_some_iff.mp line
    obtain ⟨own, same, found⟩ := Option.bind_eq_some_iff.mp read
    exact ⟨own, same, Option.isSome_of_eq_some found⟩
  · cases line

/-- A row of a native group stays in it. -/
theorem retold_native {snapshots : List Snapshot} {a : Snapshot} {d : Str}
    (own : canonicalMarketDetail a.marketDetail = some d)
    (native : ((nativeSpreadDetail d).bind fractionalLine).isSome) :
      retold snapshots a = canoned a := by
  refine retold_left fun d' adoptable => ?_
  obtain ⟨own', same, arcadia⟩ := adoptable.canonical
  rw [own] at same
  cases same
  rw [native_not_arcadia native] at arcadia
  cases arcadia

/-! The fold depends on what is in the list only. -/

theorem Adoptable.congr {l l' : List Snapshot} {a a' : Snapshot} {d : Str}
    (adoptable : Adoptable l a d) (line : arcadiaLine (canoned a') = arcadiaLine (canoned a))
    (same : ∀ d, (∃ n ∈ l', QuotesLine a' d n) ↔ ∃ n ∈ l, QuotesLine a d n) :
      Adoptable l' a' d where
  line := by
    rw [line]
    exact adoptable.line
  quoted := (same d).mpr adoptable.quoted
  alone := by
    intro n inside d' quotes
    obtain ⟨m, listed, quotes'⟩ := (same d').mp ⟨n, inside, quotes⟩
    exact adoptable.alone m listed d' quotes'

theorem retold_perm {l l' : List Snapshot} (perm : l.Perm l') : retold l = retold l' := by
  funext a
  have same (d : Str) : (∃ n ∈ l', QuotesLine a d n) ↔ ∃ n ∈ l, QuotesLine a d n := by
    simp only [perm.mem_iff]
  obtain ⟨d, adoptable, told⟩ | ⟨left, told⟩ := retold_cases l a
  · rw [told, retold_adopted (adoptable.congr rfl same)]
  · rw [told, retold_left fun d adoptable => left d (adoptable.congr rfl fun d => (same d).symm)]

end Fold

section Idempotent
variable [UnicodeDigits] {snapshots : List Snapshot}

theorem canoned_idempotent (s : Snapshot) : canoned (canoned s) = canoned s := by
  have value : canoned (canoned s) =
    s.withDetail (canonicalMarketDetail (canonicalMarketDetail s.marketDetail)) := rfl
  rw [value, canonical_idempotent]
  rfl

theorem QuotesLine.canonical {a n : Snapshot} {d : Str} (quotes : QuotesLine a d n) :
    canonicalMarketDetail (some d) = some d := by
  rw [← quotes.group, canonical_idempotent]

/-- The native groups of a selection are after the fold what they were. -/
theorem quotes_fold (a : Snapshot) (d : Str) :
    (∃ n ∈ foldInjectedGroupDetails snapshots, QuotesLine a d n) ↔
      ∃ n ∈ snapshots, QuotesLine a d n := by
  rw [fold_eq]
  constructor
  · rintro ⟨n, inside, quotes⟩
    obtain ⟨m, listed, rfl⟩ := List.mem_map.mp inside
    obtain ⟨d', adoptable, told⟩ | ⟨-, told⟩ := retold_cases snapshots m
    · rw [told] at quotes
      obtain ⟨q, found, quoted⟩ := adoptable.quoted
      have group : canonicalMarketDetail (some d') = some d := quotes.group
      rw [quoted.canonical] at group
      cases group
      exact ⟨q, found, quoted.event.trans quotes.event, quoted.selection.trans quotes.selection,
        quoted.spreads, quoted.group, quoted.native⟩
    · rw [told] at quotes
      have group : canonicalMarketDetail (canonicalMarketDetail m.marketDetail) = some d :=
        quotes.group
      rw [canonical_idempotent] at group
      exact ⟨m, listed, quotes.event, quotes.selection, quotes.spreads, group, quotes.native⟩
  · rintro ⟨n, inside, quotes⟩
    refine ⟨retold snapshots n, List.mem_map_of_mem inside, ?_⟩
    rw [retold_native quotes.group quotes.native]
    refine ⟨quotes.event, quotes.selection, quotes.spreads, ?_, quotes.native⟩
    change canonicalMarketDetail (canonicalMarketDetail n.marketDetail) = some d
    rw [canonical_idempotent, quotes.group]

theorem fold_idempotent (snapshots : List Snapshot) :
    foldInjectedGroupDetails
      (foldInjectedGroupDetails snapshots) = foldInjectedGroupDetails snapshots := by
  have again : ∀ a ∈ snapshots,
      retold (foldInjectedGroupDetails snapshots) (retold snapshots a) = retold snapshots a := by
    intro a inside
    obtain ⟨d, adoptable, told⟩ | ⟨left, told⟩ := retold_cases snapshots a
    · obtain ⟨q, -, quoted⟩ := adoptable.quoted
      rw [told, retold_native (a := a.withDetail (some d)) quoted.canonical quoted.native]
      exact congrArg a.withDetail quoted.canonical
    · rw [told, retold_left, canoned_idempotent]
      intro d adoptable
      have line : arcadiaLine (canoned a) = arcadiaLine (canoned (canoned a)) := by
        rw [canoned_idempotent]
      refine left d (adoptable.congr line fun d => ?_)
      rw [quotes_fold]
      exact ⟨fun ⟨n, listed, quotes⟩ => ⟨n, listed, quotes.event, quotes.selection,
          quotes.spreads, quotes.group, quotes.native⟩, fun ⟨n, listed, quotes⟩ =>
        ⟨n, listed, quotes.event, quotes.selection, quotes.spreads,
        quotes.group, quotes.native⟩⟩
  calc foldInjectedGroupDetails (foldInjectedGroupDetails snapshots)
      = (snapshots.map (retold snapshots)).map (retold (foldInjectedGroupDetails snapshots)) := by
        rw [fold_eq (foldInjectedGroupDetails snapshots)]
        exact congrArg _ (fold_eq snapshots)
    _ = snapshots.map (retold snapshots) := by
        rw [List.map_map]
        exact List.map_congr_left again
    _ = foldInjectedGroupDetails snapshots := (fold_eq snapshots).symm

end Idempotent

/-! Lines. -/

/-- The line of a canonical detail: a handicap with its sign, anything else as it is written. -/
inductive LineName where
  | handicap (token : Str) | written (detail : Str)
  deriving DecidableEq

section Lines
variable [Unicode]

def nativeToken (detail : Str) : Option Str :=
  (nativeSpreadDetail detail).map fun token =>
    if "spreads_minus_".toList.isPrefixOf detail then '-' :: token else token

def lineName (detail : Str) : LineName :=
  match (arcadiaAhDetail detail).or (nativeToken detail) with
  | some token => .handicap token
  | none => .written detail

/-- The line that a snapshot's detail names. -/
def lineOf (s : Snapshot) : Option LineName := (canonicalMarketDetail s.marketDetail).map lineName

/-- Two snapshots that one book quotes for one market of an event. -/
structure Alike (a b : Snapshot) : Prop where
  event : a.eventId = b.eventId
  market : a.market = b.market
  bookmaker : a.bookmaker = b.bookmaker

/-- Both details name a line, and not the same. -/
def DifferentLines (a b : Snapshot) : Prop :=
  ∃ x y, lineOf a = some x ∧ lineOf b = some y ∧ x ≠ y

/-- The fold rewrites details only, each snapshot's by what is in the list, and a second fold does
nothing; and no two lines of a book get the same detail. -/
structure FoldsApart (snapshots : List Snapshot) : Prop where
  details : ∀ s, ∃ detail, retold snapshots s = s.withDetail detail
  permuted : ∀ l', snapshots.Perm l' → foldInjectedGroupDetails l' = l'.map (retold snapshots)
  idempotent : foldInjectedGroupDetails (foldInjectedGroupDetails snapshots) =
    foldInjectedGroupDetails snapshots
  apart : ∀ a ∈ snapshots, ∀ b ∈ snapshots, Alike a b → DifferentLines a b →
    (retold snapshots a).marketDetail ≠ (retold snapshots b).marketDetail

/-- An adopted handicap names the line of each row that its book has in the group, by itself or
adopted. -/
def Unmixed (snapshots : List Snapshot) : Prop :=
  ∀ a ∈ snapshots, ∀ b ∈ snapshots, Alike a b → ∀ d, Adoptable snapshots a d →
    Adoptable snapshots b d ∨ canonicalMarketDetail b.marketDetail = some d →
      lineOf a = lineOf b

theorem details_retold (snapshots : List Snapshot) (s : Snapshot) :
    ∃ detail, retold snapshots s = s.withDetail detail := by
  obtain ⟨d, -, told⟩ | ⟨-, told⟩ := retold_cases snapshots s
  · exact ⟨some d, told⟩
  · exact ⟨canonicalMarketDetail s.marketDetail, told⟩

theorem Adoptable.named {snapshots : List Snapshot} {a : Snapshot} {d : Str}
    (adoptable : Adoptable snapshots a d) : ∃ x, lineOf a = some x := by
  obtain ⟨own, same, -⟩ := adoptable.canonical
  exact ⟨lineName own, by rw [lineOf, same]; rfl⟩

/-- Who gets the detail of a native group. -/
theorem retold_detail {snapshots : List Snapshot} {b : Snapshot} {d : Str}
    (native : ((nativeSpreadDetail d).bind fractionalLine).isSome) :
    (retold snapshots b).marketDetail = some d ↔
      Adoptable snapshots b d ∨ canonicalMarketDetail b.marketDetail = some d := by
  constructor
  · intro got
    obtain ⟨d', adoptable, told⟩ | ⟨-, told⟩ := retold_cases snapshots b
    · rw [told] at got
      cases got
      exact .inl adoptable
    · rw [told] at got
      exact .inr got
  · rintro (adoptable | own)
    · rw [retold_adopted adoptable]
      rfl
    · rw [retold_native own native]
      exact own

theorem apart_of_unmixed {snapshots : List Snapshot} (unmixed : Unmixed snapshots)
    {a b : Snapshot} (insideA : a ∈ snapshots) (insideB : b ∈ snapshots) (alike : Alike a b)
    (different : DifferentLines a b) :
    (retold snapshots a).marketDetail ≠ (retold snapshots b).marketDetail := by
  obtain ⟨x, y, nameA, nameB, ne⟩ := different
  have one {a b : Snapshot} (insideA : a ∈ snapshots) (insideB : b ∈ snapshots)
      (alike : Alike a b)
      (ne : lineOf a ≠ lineOf b) {d : Str} (adoptable : Adoptable snapshots a d) :
      (retold snapshots a).marketDetail ≠ (retold snapshots b).marketDetail := by
    intro same
    obtain ⟨n, -, quotes⟩ := adoptable.quoted
    rw [retold_adopted adoptable] at same
    exact ne (unmixed a insideA b insideB alike d adoptable
      ((retold_detail quotes.native).mp same.symm))
  have apart : lineOf a ≠ lineOf b := by
    rw [nameA, nameB]
    exact fun same => ne (Option.some.inj same)
  obtain ⟨d, adoptable, -⟩ | ⟨-, toldA⟩ := retold_cases snapshots a
  · exact one insideA insideB alike apart adoptable
  obtain ⟨d, adoptable, -⟩ | ⟨-, toldB⟩ := retold_cases snapshots b
  · exact (one insideB insideA ⟨alike.event.symm, alike.market.symm,
      alike.bookmaker.symm⟩ apart.symm adoptable).symm
  · rw [toldA, toldB]
    exact fun same => apart (congrArg (Option.map lineName) same)

theorem unmixed_of_apart {snapshots : List Snapshot}
    (apart : ∀ a ∈ snapshots, ∀ b ∈ snapshots, Alike a b → DifferentLines a b →
      (retold snapshots a).marketDetail ≠ (retold snapshots b).marketDetail) :
    Unmixed
      snapshots := by
  intro a insideA b insideB alike d adoptable meets
  by_contra ne
  obtain ⟨n, -, quotes⟩ := adoptable.quoted
  obtain ⟨x, nameA⟩ := adoptable.named
  obtain ⟨y, nameB⟩ : ∃ y, lineOf b = some y := by
    obtain adopted | own := meets
    · exact adopted.named
    · exact ⟨lineName d, by rw [lineOf, own]; rfl⟩
  have different : DifferentLines a b :=
    ⟨x, y, nameA, nameB, fun same => ne (by rw [nameA, nameB, same])⟩
  refine apart a insideA b insideB alike different ?_
  rw [(retold_detail quotes.native).mpr (.inl adoptable), (retold_detail quotes.native).mpr meets]

end Lines

theorem folds_apart_iff [UnicodeDigits] (snapshots : List Snapshot) :
    FoldsApart snapshots ↔ Unmixed snapshots := by
  constructor
  · intro folds
    exact unmixed_of_apart folds.apart
  · intro unmixed
    refine ⟨details_retold snapshots, fun l' perm => ?_, fold_idempotent snapshots,
      fun a insideA b insideB => apart_of_unmixed unmixed insideA insideB⟩
    rw [retold_perm perm, fold_eq]

/-! Books that key a handicap by the line of the selection itself. -/

def handicapQuote (bookmaker selection detail : String) : Snapshot where
  eventId := "e1".toList
  bookmaker := bookmaker.toList
  market := .spreads
  selection := selection.toList
  decimalOdds := 2
  capturedAt := 0
  ingestedAt := 0
  marketDetail := some detail.toList
  odds_gt := even_gt
  odds_le := even_le
  liquidity_nonneg := noLiquidity
  not_future := noSkew

def crossedHandicaps : List Snapshot :=
  [handicapQuote "Bet365" "Ajax -0.25" "spreads_minus_0_25",
    handicapQuote "Bet365" "PSV -0.25" "spreads_minus_0_25",
    handicapQuote "Pinnacle" "Ajax -0.25" "asian_handicap_-0_25",
    handicapQuote "Pinnacle" "PSV -0.25" "asian_handicap_0_25"]

/-- A leg of one market and a leg of the opposite one are put together. -/
theorem folds_apart_fails : ¬ @FoldsApart Unicode.ascii crossedHandicaps := by
  intro folds
  refine @FoldsApart.apart Unicode.ascii _ folds
    (handicapQuote "Pinnacle" "Ajax -0.25" "asian_handicap_-0_25")
    (by simp [crossedHandicaps]) (handicapQuote "Pinnacle" "PSV -0.25" "asian_handicap_0_25")
    (by simp [crossedHandicaps]) ⟨rfl, rfl, rfl⟩
    ⟨.handicap "-0_25".toList, .handicap "0_25".toList, by decide, by decide, by decide⟩ ?_
  decide +kernel

end SharpEvPicks.Pipeline
