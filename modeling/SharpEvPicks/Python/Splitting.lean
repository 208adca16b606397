import SharpEvPicks.Python.Str

/-! Splitting text that was joined, and text with white space around it. -/
namespace Python

/-! White space. -/

theorem split_cons_space {c : Char} (space : isSpace c) (s : Str) : split (c :: s) = split s := by
  have pieces : (c :: s).splitOnP isSpace = [[]] ++ s.splitOnP isSpace :=
    List.splitOnP_append_cons [] s space
  rw [split, pieces, List.filter_append]
  rfl

theorem split_concat_space {c : Char} (space : isSpace c) (s : Str) :
    split (s ++ [c]) = split s := by
  rw [split, List.splitOnP_append_cons s [] space, List.filter_append]
  exact List.append_nil _

theorem split_spaces_append {blank : Str} (space : ∀ c ∈ blank, isSpace c) (s : Str) :
    split (blank ++ s) = split s := by
  induction blank with
  | nil => rfl
  | cons c blank ih =>
    obtain ⟨first, rest⟩ := List.forall_mem_cons.mp space
    rw [List.cons_append, split_cons_space first, ih rest]

theorem split_append_spaces {blank : Str} (space : ∀ c ∈ blank, isSpace c) (s : Str) :
    split (s ++ blank) = split s := by
  induction blank generalizing s with
  | nil => rw [List.append_nil]
  | cons c blank ih =>
    obtain ⟨first, rest⟩ := List.forall_mem_cons.mp space
    rw [List.append_cons, ih rest, split_concat_space first]

/-- A text is what strips to, between white space. -/
theorem strip_between (s : Str) :
    ∃ before after, s = before ++ strip s ++ after ∧ (∀ c ∈ before, isSpace c) ∧
      ∀ c ∈ after, isSpace c := by
  refine ⟨s.takeWhile isSpace, (((s.dropWhile isSpace).reverse).takeWhile isSpace).reverse,
    ?_, ?_, ?_⟩
  · have inner : strip s ++ (((s.dropWhile isSpace).reverse).takeWhile isSpace).reverse =
        s.dropWhile isSpace := by
      rw [strip, ← List.reverse_append, List.takeWhile_append_dropWhile, List.reverse_reverse]
    rw [List.append_assoc, inner, List.takeWhile_append_dropWhile]
  · exact fun c inside => List.mem_takeWhile_imp inside
  · exact fun c inside => List.mem_takeWhile_imp (List.mem_reverse.mp inside)

/-! Pieces and words. -/

theorem mem_splitOnP {p : Char → Bool} {s piece : Str} (part : piece ∈ s.splitOnP p) {c : Char}
    (inside : c ∈ piece) : p c = false ∧ c ∈ s := by
  induction s generalizing piece with
  | nil => simp_all
  | cons d s ih =>
    rw [List.splitOnP_cons_eq_if_modifyHead] at part
    obtain ⟨first, others, parts⟩ := List.exists_cons_of_ne_nil (List.splitOnP_ne_nil p s)
    have later {piece : Str} (listed : piece ∈ s.splitOnP p) (inside : c ∈ piece) :
        p c = false ∧ c ∈ d :: s :=
      (ih listed inside).imp_right (List.mem_cons_of_mem d)
    split at part
    · obtain rfl | listed := List.mem_cons.mp part
      · cases inside
      · exact later listed inside
    · rename_i kept
      rw [parts, List.modifyHead_cons] at part
      obtain rfl | listed := List.mem_cons.mp part
      · obtain rfl | inner := List.mem_cons.mp inside
        · exact ⟨Bool.eq_false_iff.mpr kept, .head _⟩
        · exact later (parts ▸ .head _) inner
      · exact later (parts ▸ .tail _ listed) inside

theorem mem_join {sep piece : Str} {parts : List Str} (inside : piece ∈ parts) {c : Char}
    (here : c ∈ piece) : c ∈ join sep parts := by
  have kept : piece ∈ parts.intersperse sep := by
    induction parts with
    | nil => cases inside
    | cons first parts ih =>
      cases parts with
      | nil => exact inside
      | cons second parts =>
        rw [List.intersperse_cons_cons]
        obtain rfl | later := List.mem_cons.mp inside
        · exact .head _
        · exact .tail _ (.tail _ (ih later))
  exact List.mem_flatten.mpr ⟨piece, kept, here⟩

theorem mem_of_mem_join {sep : Str} {parts : List Str} {c : Char} (inside : c ∈ join sep parts) :
    c ∈ sep ∨ ∃ piece ∈ parts, c ∈ piece := by
  obtain ⟨piece, member, here⟩ := List.mem_flatten.mp inside
  have cases : piece = sep ∨ piece ∈ parts := by
    clear here inside
    induction parts with
    | nil => cases member
    | cons first parts ih =>
      cases parts with
      | nil => exact .inr member
      | cons second parts =>
        rw [List.intersperse_cons_cons] at member
        obtain rfl | member := List.mem_cons.mp member
        · exact .inr (.head _)
        obtain rfl | later := List.mem_cons.mp member
        · exact .inl rfl
        · exact (ih later).imp_right (.tail _)
  obtain rfl | part := cases
  · exact .inl here
  · exact .inr ⟨piece, part, here⟩

/-- What `split` returns, and returns again from the words joined. -/
structure Unspaced (word : Str) : Prop where
  nonempty : word ≠ []
  solid : ∀ c ∈ word, isSpace c = false

theorem unspaced_of_mem_split {s word : Str} (listed : word ∈ split s) : Unspaced word := by
  obtain ⟨part, some⟩ := List.mem_filter.mp listed
  exact ⟨of_decide_eq_true some, fun c inside => (mem_splitOnP part inside).1⟩

theorem mem_of_mem_split {s word : Str} (listed : word ∈ split s) {c : Char}
    (inside : c ∈ word) : c ∈ s :=
  (mem_splitOnP (List.mem_filter.mp listed).1 inside).2

theorem split_join {words : List Str} (each : ∀ w ∈ words, Unspaced w) :
    split (join [' '] words) = words := by
  induction words with
  | nil => rfl
  | cons w words ih =>
    obtain ⟨first, rest⟩ := List.forall_mem_cons.mp each
    have next := ih rest
    cases words with
    | nil =>
      have whole : w.splitOnP isSpace = [w] := List.splitOnP_eq_singleton first.solid
      have single : join [' '] [w] = w := List.append_nil w
      rw [single, split, whole]
      simp [first.nonempty]
    | cons w' words =>
      have laid : join [' '] (w :: w' :: words) = w ++ ' ' :: join [' '] (w' :: words) := rfl
      have parts := List.splitOnP_append_cons_of_forall_mem first.solid ' ' (by decide)
        (join [' '] (w' :: words))
      rw [laid, split, parts, List.filter_cons_of_pos (by simp [first.nonempty])]
      exact congrArg (List.cons w) next

/-! Separators. -/

/-- `s.replace(old, new)`. -/
def replace (old new s : Str) : Str := join new (splitSeq old s)

theorem splitSeqFrom_absent {sep : Str} {s : Str} (absent : ¬ sep <:+: s) (piece : Str) :
    splitSeqFrom sep 0 piece s = [piece.reverse ++ s] := by
  induction s generalizing piece with
  | nil => rw [splitSeqFrom, List.append_nil]
  | cons c cs ih =>
    have here : sep.isPrefixOf (c :: cs) = false :=
      Bool.eq_false_iff.mpr fun starts => absent (List.isPrefixOf_iff_prefix.mp starts).isInfix
    have later : ¬ sep <:+: cs :=
      fun inside => absent (inside.trans (List.suffix_cons c cs).isInfix)
    rw [splitSeqFrom, here, if_neg Bool.false_ne_true, ih later, List.reverse_cons,
      List.append_assoc]
    rfl

theorem splitSeqFrom_skip (sep piece skipped s : Str) :
    splitSeqFrom sep skipped.length piece (skipped ++ s) = splitSeqFrom sep 0 piece s := by
  induction skipped with
  | nil => rfl
  | cons c skipped ih => exact ih

/-- The first separator is the one that was put between. -/
theorem splitSeqFrom_between {c : Char} {sep' before after : Str}
    (first : ∀ tail, tail <:+ before → tail ≠ [] →
      ¬ c :: sep' <+: tail ++ (c :: sep') ++ after)
    (piece : Str) :
    splitSeqFrom (c :: sep') 0 piece (before ++ (c :: sep') ++ after) =
      (piece.reverse ++ before) :: splitSeqFrom (c :: sep') 0 [] after := by
  induction before generalizing piece with
  | nil =>
    have here : (c :: sep').isPrefixOf (c :: (sep' ++ after)) = true :=
      List.isPrefixOf_iff_prefix.mpr (List.prefix_append (c :: sep') after)
    rw [List.nil_append, List.cons_append, splitSeqFrom, here, if_pos rfl, List.append_nil]
    exact congrArg _ (splitSeqFrom_skip (c :: sep') [] sep' after)
  | cons d before ih =>
    have here : (c :: sep').isPrefixOf (d :: (before ++ (c :: sep') ++ after)) = false :=
      Bool.eq_false_iff.mpr fun starts =>
        first (d :: before) List.suffix_rfl (List.cons_ne_nil d before)
          (List.isPrefixOf_iff_prefix.mp starts)
    have later : ∀ tail, tail <:+ before → tail ≠ [] →
        ¬ c :: sep' <+: tail ++ (c :: sep') ++ after :=
      fun tail suffix => first tail (suffix.trans (List.suffix_cons d before))
    rw [List.cons_append, List.cons_append, splitSeqFrom, here, if_neg Bool.false_ne_true, ih later,
      List.reverse_cons, List.append_assoc]
    rfl

end Python
