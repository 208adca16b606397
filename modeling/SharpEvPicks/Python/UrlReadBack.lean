import SharpEvPicks.Python.Urls

/-! An https URL that `geturl` prints reads back, and prints again as it is. -/
namespace Python

section ReadBack
variable {path rest : Str}

theorem lastSegment_append (path : Str) : (lastSegment path).1 ++ (lastSegment path).2 = path := by
  have turned := congrArg List.reverse (cutAt_append (· == '/') path.reverse)
  rw [List.reverse_append, List.reverse_reverse] at turned
  exact turned

theorem lastSegment_clear {c : Char} (inside : c ∈ (lastSegment path).2) : (c == '/') = false :=
  cutAt_clear (p := (· == '/')) (List.mem_reverse.mp inside)

/-- A last segment is the last one of what ends with it. -/
theorem lastSegment_of_clear {name : Str} (clear : ∀ c ∈ name, (c == '/') = false) :
    lastSegment ((lastSegment path).1 ++ name) = ((lastSegment path).1, name) := by
  have again := cutAt_of_stops (fun c inside =>
    clear c (List.mem_reverse.mp inside)) (cutAt_stops (· == '/') path.reverse)
  simp only [lastSegment, List.reverse_append, List.reverse_reverse, again]

theorem splitParams_whole (some_ : (splitParams path).2 ≠ []) :
    withParams (splitParams path).1 (splitParams path).2 = path := by
  have whole := cutAt_append (· == ';') (lastSegment path).2
  rw [withParams, if_pos some_]
  obtain ended | ⟨c, more, shape, semicolon⟩ := cutAt_stops (· == ';') (lastSegment path).2
  · exact absurd (by simp [splitParams, ended]) some_
  · obtain rfl : c = ';' := by simpa using semicolon
    conv_rhs => rw [← lastSegment_append path, ← whole, shape]
    simp [splitParams, shape]

theorem splitParams_again (path : Str) :
    withParams (splitParams (withParams (splitParams path).1 (splitParams path).2)).1
      (splitParams (withParams (splitParams path).1 (splitParams path).2)).2 =
        withParams (splitParams path).1 (splitParams path).2 := by
  have whole := cutAt_append (· == ';') (lastSegment path).2
  have clear := @cutAt_clear (· == ';') (lastSegment path).2
  have slashless := @lastSegment_clear path
  by_cases none : (splitParams path).2 = []
  · have bare : withParams (splitParams path).1 (splitParams path).2 = (lastSegment path).1 ++
        (cutAt (· == ';') (lastSegment path).2).1 := by
      rw [withParams, if_neg (not_not.mpr none)]
      rfl
    have last : lastSegment ((lastSegment path).1 ++ (cutAt (· == ';') (lastSegment path).2).1) =
        _ :=
      lastSegment_of_clear fun c inside => slashless (whole ▸ List.mem_append_left _ inside)
    have uncut := cutAt_of_clear (p := (· == ';')) fun c inside => clear (c := c) inside
    rw [bare]
    simp [splitParams, last, uncut, withParams]
  · rw [splitParams_whole none]
    exact splitParams_whole none

theorem withParams_prefix (path : Str) :
    withParams (splitParams path).1 (splitParams path).2 <+: path := by
  have whole := cutAt_append (· == ';') (lastSegment path).2
  have segments := lastSegment_append path
  refine ⟨if (splitParams path).2 = [] then (cutAt (· == ';') (lastSegment path).2).2
    else [], ?_⟩
  by_cases none : (splitParams path).2 = []
  · conv_rhs => rw [← segments, ← whole]
    rw [withParams, if_neg (not_not.mpr none), if_pos none, ← List.append_assoc]
    rfl
  · rw [if_neg none, List.append_nil]
    exact splitParams_whole none

/-- The path as it is split: it starts at the slash, and ends before the query. -/
structure PathText (path : Str) : Prop where
  starts : StopsAt (· == '/') path
  clear : ∀ c ∈ path, (c == '?') = false ∧ (c == '#') = false

theorem StopsAt.of_prefix {p : Char → Bool} {s t : Str} (stops : StopsAt p t) (front : s <+: t) :
    StopsAt p s := by
  cases s with
  | nil => exact .inl rfl
  | cons c s =>
    obtain ⟨rest, rfl⟩ := front
    obtain none | ⟨d, more, shape, stop⟩ := stops
    · cases none
    · cases shape
      exact .inr ⟨c, s, rfl, stop⟩

theorem PathText.of_prefix {s : Str} (text : PathText path) (front : s <+: path) : PathText s where
  starts := text.starts.of_prefix front
  clear c inside := text.clear c (front.subset inside)

/-! The printed text. -/

theorem splitScheme_https (other : Str) :
    splitScheme ("https".toList ++ ':' :: other) = ("https".toList, other) := by
  have cut : cutAt (· == ':') ("https".toList ++ ':' :: other) = _ :=
    cutAt_of_stops (by decide) (.inr ⟨':', other, rfl, rfl⟩)
  simp only [splitScheme, cut]
  rfl

theorem splitNetloc_of_stops {netloc rest : Str} (clear : ∀ c ∈ netloc, endsNetloc c = false)
    (stops : StopsAt endsNetloc rest) :
    splitNetloc ('/' :: '/' :: (netloc ++ rest)) = (netloc, rest) := by
  have slashes : "//".toList.isPrefixOf ('/' :: '/' :: (netloc ++ rest)) := by simp
  rw [splitNetloc, if_pos slashes]
  exact cutAt_of_stops clear stops

/-- The printed query. -/
def queryText (query : Str) : Str := if query ≠ [] then '?' :: query else []

theorem queryText_stops (query : Str) : StopsAt (· == '?') (queryText query) := by
  unfold queryText
  split
  · exact .inr ⟨'?', query, rfl, rfl⟩
  · exact .inl rfl

theorem queryText_drop (query : Str) : (queryText query).drop 1 = query := by
  unfold queryText
  split
  · rfl
  · rename_i none
    exact (not_not.mp none).symm

theorem mem_queryText {query : Str} {c : Char} (inside : c ∈ queryText query) :
    c = '?' ∨ c ∈ query := by
  unfold queryText at inside
  split at inside
  · exact List.mem_cons.mp inside
  · cases inside

variable [Unicode] [UrlText] {url : Str} {r : SplitResult}

theorem Split.pathText (parts : Split url r) : PathText r.path := by
  have first := cutAt_append (· == '#') parts.tail
  have second := cutAt_append (· == '?') (cutAt (· == '#') parts.tail).1
  have front : r.path <+: parts.tail := by
    rw [parts.path]
    exact ⟨(cutAt (· == '?') (cutAt (· == '#') parts.tail).1).2 ++
        (cutAt (· == '#') parts.tail).2, by
      rw [← List.append_assoc, second, first]⟩
  have clear : ∀ c ∈ r.path, (c == '?') = false ∧ (c == '#') = false := fun c inside => by
    rw [parts.path] at inside
    exact ⟨cutAt_clear (p := (· == '?')) inside,
      cutAt_clear (p := (· == '#')) (second ▸ List.mem_append_left _ inside)⟩
  refine ⟨?_, clear⟩
  obtain none | ⟨c, more, shape, stop⟩ := parts.stops.of_prefix front
  · exact .inl none
  · refine .inr ⟨c, more, shape, ?_⟩
    obtain ⟨question, hash⟩ := clear c (shape ▸ List.mem_cons_self)
    simpa [endsNetloc, question, hash] using stop

theorem Split.query_clear (parts : Split url r) {c : Char} (inside : c ∈ r.query) :
    (c == '#') = false := by
  have second := cutAt_append (· == '?') (cutAt (· == '#') parts.tail).1
  rw [parts.query] at inside
  exact cutAt_clear (p := (· == '#')) (second ▸
    List.mem_append_right _ (List.mem_of_mem_drop inside))

/-- What is split has lost its tabs and newlines. -/
theorem Split.tidy (parts : Split url r) {c : Char} (inside : c ∈ r.netloc ++ r.path ++ r.query) :
    isTabOrNewline c = false := by
  have first := cutAt_append (· == '#') parts.tail
  have second := cutAt_append (· == '?') (cutAt (· == '#') parts.tail).1
  have there : c ∈ scrubbed url := by
    rw [parts.text]
    refine List.mem_append_right _
      (List.mem_cons_of_mem _ (List.mem_cons_of_mem _ (List.mem_cons_of_mem _ ?_)))
    rw [parts.path, parts.query] at inside
    rw [← first, ← second]
    obtain (here | here) | here := by simpa only [List.mem_append] using inside
    · exact List.mem_append_left _ here
    · exact List.mem_append_right _ (List.mem_append_left _ (List.mem_append_left _ here))
    · exact List.mem_append_right _
        (List.mem_append_left _ (List.mem_append_right _ (List.mem_of_mem_drop here)))
  have kept := (List.mem_filter.mp there).2
  simpa using kept

/-- Splitting the printed text of an https URL. -/
theorem urlsplit_text {netloc path query : Str} (clear : ∀ c ∈ netloc, endsNetloc c = false)
    (brackets : checkBrackets netloc) (compatible : checknetloc netloc) (text : PathText path)
    (queried : ∀ c ∈ query, (c == '#') = false)
    (tidy : ∀ c ∈ netloc ++ path ++ query, isTabOrNewline c = false) :
    urlsplit ("https".toList ++ ':' :: '/' :: '/' :: (netloc ++ (path ++ queryText query))) =
      some { scheme := "https".toList, netloc := netloc, path := path, query := query,
             fragment := [] } := by
  have whole : scrubbed ("https".toList ++
      ':' :: '/' :: '/' :: (netloc ++ (path ++ queryText query))) =
      "https".toList ++ ':' :: '/' :: '/' :: (netloc ++ (path ++ queryText query)) := by
    refine List.filter_eq_self.mpr fun c inside => ?_
    have kept : isTabOrNewline c = false := by
      obtain scheme | rest := List.mem_append.mp ((List.dropWhile_suffix _).subset inside)
      · exact (by decide : ∀ c ∈ "https".toList, isTabOrNewline c = false) c scheme
      · simp only [List.mem_cons, List.mem_append] at rest
        obtain rfl | rfl | rfl | here | here | here := rest
        · rfl
        · rfl
        · rfl
        · exact tidy c (by simp [here])
        · exact tidy c (by simp [here])
        · obtain rfl | asked := mem_queryText here
          · rfl
          · exact tidy c (by simp [asked])
    rw [kept]
    rfl
  have tail : StopsAt endsNetloc (path ++ queryText query) := by
    obtain rfl | ⟨c, more, rfl, slash⟩ := text.starts
    · exact (queryText_stops query).mono fun c question => by
        simp [endsNetloc, of_decide_eq_true question]
    · exact .inr ⟨c, more ++ queryText query, rfl, by simp [endsNetloc, eq_of_beq slash]⟩
  have unfragmented :
      cutAt (· == '#') (path ++ queryText query) = (path ++ queryText query, []) := by
    refine cutAt_of_clear fun c inside => ?_
    obtain here | here := List.mem_append.mp inside
    · exact (text.clear c here).2
    · obtain rfl | asked := mem_queryText here
      · rfl
      · exact queried c asked
  have queries : cutAt (· == '?') (path ++ queryText query) = (path, queryText query) :=
    cutAt_of_stops (fun c inside => (text.clear c inside).1) (queryText_stops query)
  simp only [urlsplit, whole, splitScheme_https, splitNetloc_of_stops clear tail, unfragmented,
    queries, queryText_drop]
  simp [brackets, compatible]

/-- The fragment dropped. -/
def ParseResult.bare (parsed : ParseResult) : ParseResult := { parsed with fragment := [] }

omit [Unicode] [UrlText] in
theorem bare_of_fragment {parsed : ParseResult} (none : parsed.fragment = []) :
    parsed.bare = parsed := by
  obtain ⟨⟨scheme, netloc, path, query, fragment⟩, params⟩ := parsed
  cases none
  rfl

/-- The path that `urlparse` leaves, with its parameters. -/
theorem urlparse_path {parsed : ParseResult} (done : urlparse url = some parsed) :
    ∃ r, urlsplit url = some r ∧ parsed.toSplitResult = { r with path := parsed.path } ∧
    withParams parsed.path parsed.params <+: r.path ∧
      ∀ other, urlsplit other = some { r with path := withParams parsed.path parsed.params,
                                              fragment := [] } →
        ∃ again, urlparse other = some again ∧
          withParams again.path again.params = withParams parsed.path parsed.params ∧
          again.toSplitResult = { r with path := again.path, fragment := [] } := by
  obtain ⟨r, first, rfl⟩ := Option.map_eq_some_iff.mp done
  refine ⟨r, first, ?_⟩
  split
  · rename_i split
    obtain ⟨uses, -⟩ := Bool.and_eq_true_iff.mp split
    refine ⟨rfl, withParams_prefix r.path, fun other again => ?_⟩
    rw [urlparse, again]
    refine ⟨_, rfl, ?_⟩
    dsimp only
    split
    · exact ⟨splitParams_again r.path, rfl⟩
    · exact ⟨rfl, rfl⟩
  · rename_i whole
    refine ⟨rfl, List.prefix_rfl, fun other again => ?_⟩
    rw [urlparse, again]
    refine ⟨_, rfl, ?_⟩
    dsimp only [withParams]
    rw [if_neg (not_not.mpr rfl), if_neg whole]
    exact ⟨rfl, rfl⟩

omit [Unicode] [UrlText] in
theorem geturl_text {parsed : ParseResult} (https : parsed.scheme = "https".toList)
    (located : parsed.netloc ≠ []) (text : PathText (withParams parsed.path parsed.params)) :
      parsed.bare.geturl = "https".toList ++ ':' :: '/' :: '/' ::
        (parsed.netloc ++ (withParams parsed.path parsed.params ++ queryText parsed.query)) := by
  have rooted : ¬ (withParams parsed.path parsed.params ≠ [] ∧
      (withParams parsed.path parsed.params).head? ≠ some '/') := by
    rintro ⟨some_, relative⟩
    obtain none | ⟨c, more, shape, slash⟩ := text.starts
    · exact some_ none
    · rw [shape, eq_of_beq slash] at relative
      exact relative rfl
  simp only [ParseResult.geturl, ParseResult.bare, urlunsplit, if_pos located, if_neg rooted, https]
  by_cases asked : parsed.query = []
  · simp [asked, queryText]
  · simp [asked, queryText]

/-- An https URL that is printed without its fragment reads back as what it was, and prints again as
it is. -/
theorem urlparse_geturl {parsed : ParseResult} (done : urlparse url = some parsed)
    (https : parsed.scheme = "https".toList) (located : parsed.netloc ≠ []) :
      ∃ again, urlparse parsed.bare.geturl = some again ∧ again.geturl = parsed.bare.geturl ∧
      again.scheme = "https".toList ∧ again.netloc = parsed.netloc ∧ again.fragment = [] := by
  obtain ⟨r, first, same, front, read⟩ := urlparse_path done
  have scheme : r.scheme = "https".toList := by rw [← https, same]
  have netloc : parsed.netloc = r.netloc := by rw [same]
  have query : parsed.query = r.query := by rw [same]
  obtain ⟨parts⟩ := split_of_urlsplit first (by rw [scheme]; simp) (netloc ▸ located)
  have text := parts.pathText.of_prefix front
  have printed := geturl_text https located text
  rw [netloc, query] at printed
  have tidy : ∀ c ∈ r.netloc ++ withParams parsed.path parsed.params ++ r.query,
      isTabOrNewline c = false := by
    intro c inside
    refine parts.tidy ?_
    simp only [List.mem_append] at inside ⊢
    exact inside.imp_left fun here => here.imp_right fun there => front.subset there
  have back := urlsplit_text parts.clear parts.brackets parts.compatible text
    (fun c => parts.query_clear) tidy
  rw [← printed, ← scheme] at back
  obtain ⟨again, parsed', path, fields⟩ := read _ back
  have scheme' : again.scheme = "https".toList := by rw [fields, ← scheme]
  have netloc' : again.netloc = r.netloc := by rw [fields]
  have query' : again.query = r.query := by rw [fields]
  have fragment' : again.fragment = [] := by rw [fields]
  refine ⟨again, parsed', ?_, scheme', netloc'.trans netloc.symm, fragment'⟩
  rw [printed, ← bare_of_fragment fragment',
    geturl_text scheme' (netloc' ▸ netloc ▸ located) (path ▸ text), path, netloc', query']

end ReadBack
end Python
