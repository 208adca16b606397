import SharpEvPicks.Ingestion.HttpSafety
import SharpEvPicks.Transition.Guarded

/-! What a bounded GET requests and what it holds, whatever the other side answers. -/
namespace SharpEvPicks.Ingestion.HttpSafety

open Python Transition

/-! One origin. -/

section Urls
variable [Unicode] [UrlText] {allowedHosts : List Str} {url : Str}

/-- A URL that stays what it is when it is parsed and printed, on an allowed host, with no
credentials and on the standard port. -/
structure OnOrigin (allowedHosts : List Str) (url : Str) : Prop where
  exists_parsed : ∃ parsed, urlparse url = some parsed ∧ parsed.geturl = url ∧
    parsed.scheme = "https".toList ∧
    normalHost (parsed.hostname.getD []) ∈ allowedHosts.map normalHost ∧
    parsed.username = none ∧ parsed.password = none ∧
      (parsed.port = some none ∨ parsed.port = some (some 443)) ∧ parsed.fragment = []

omit [UrlText] in
theorem normalHost_nil : normalHost [] = [] := by
  rw [normalHost, Unicode.lower_ascii [] fun _ none => by cases none]
  rfl

theorem onOrigin (named : ∀ host ∈ allowedHosts, normalHost host ≠ []) {valid : Str}
    (done : validateHttpsUrl allowedHosts url = .ok valid) : OnOrigin allowedHosts valid := by
  unfold validateHttpsUrl at done
  split at done
  · cases done
  · rename_i parsed first
    split at done
    · cases done
    · rename_i port read
      split at done
      · cases done
      · rename_i policy
        cases done
        obtain ⟨scheme, policy⟩ := not_or.mp policy
        obtain ⟨host, policy⟩ := not_or.mp policy
        obtain ⟨username, policy⟩ := not_or.mp policy
        obtain ⟨password, standard⟩ := not_or.mp policy
        obtain ⟨r, split, same⟩ := urlparse_eq first
        have https : parsed.scheme = "https".toList := by
          have lowered := lower_scheme split
          rw [show r.scheme = parsed.scheme by rw [same], not_not.mp scheme] at lowered
          exact lowered.symm
        have located : parsed.netloc ≠ [] := by
          intro none
          have unnamed : parsed.hostname = .none := by
            simp [SplitResult.hostname, SplitResult.hostinfo, none, rpartition, cutAt]
          rw [unnamed, Option.getD_none, normalHost_nil, not_not] at host
          obtain ⟨allowed, listed, empty⟩ := List.mem_map.mp host
          exact named allowed listed empty
        obtain ⟨again, back, printed, https', netloc, bare⟩ :=
          urlparse_geturl first https located
        have hostinfo : again.hostinfo = parsed.hostinfo := by
          simp only [SplitResult.hostinfo, netloc]
        have hostname : again.hostname = parsed.hostname := by
          simp only [SplitResult.hostname, hostinfo]
        have userinfo : again.userinfo = parsed.userinfo := by
          simp only [SplitResult.userinfo, netloc]
        have port' : again.port = some port := by
          rw [← read]; simp only [SplitResult.port, hostinfo]
        refine ⟨again, back, printed, https', hostname ▸ not_not.mp host, ?_, ?_, ?_, bare⟩
        · rw [SplitResult.username, userinfo]
          exact not_not.mp username
        · rw [SplitResult.password, userinfo]
          exact not_not.mp password
        · rw [port']
          exact (not_not.mp standard).imp (congrArg some) (congrArg some)

end Urls

/-! The sink. -/

/-- What a sink holds after its calls. -/
structure Held (maxBytes : Int) (chunks : List Bytes) (sink : Sink) : Prop where
  size : sink.size = sink.body.length
  bounded : (sink.body.length : Int) ≤ maxBytes
  called : sink.called = !chunks.isEmpty
  whole : sink.exceeded = false → sink.body = chunks.flatten
  within : (chunks.flatten.length : Int) ≤ maxBytes → sink.exceeded = false

theorem held_writes {maxBytes : Int} (room : 0 ≤ maxBytes) (chunks : List Bytes) :
    Held maxBytes chunks (Sink.writes maxBytes chunks) := by
  induction chunks using List.reverseRecOn with
  | nil => exact ⟨rfl, room, rfl, fun _ => rfl, fun _ => rfl⟩
  | append_singleton chunks chunk ih =>
    have step : Sink.writes maxBytes (chunks ++ [chunk]) =
        ((Sink.writes maxBytes chunks).write maxBytes chunk).1 := by
      rw [Sink.writes, List.foldl_append]
      rfl
    rw [step]
    generalize Sink.writes maxBytes chunks = sink at ih ⊢
    have total : (chunks ++ [chunk]).flatten.length = chunks.flatten.length + chunk.length := by
      simp
    have called : (!(chunks ++ [chunk]).isEmpty) = true := by simp
    unfold Sink.write
    split
    · rename_i past
      refine ⟨ih.size, ih.bounded, called.symm, fun exceeded => (by cases exceeded),
        fun small => ?_⟩
      have before := ih.whole (ih.within (by omega))
      rw [ih.size, before] at past
      omega
    · rename_i fits
      have grown : (sink.chunks ++ [chunk]).flatten = sink.body ++ chunk := by simp [Sink.body]
      have size := ih.size
      refine ⟨?_, ?_, called.symm, fun kept => ?_, fun small => ih.within (by omega)⟩
      · change _ = (sink.chunks ++ [chunk]).flatten.length
        rw [grown, List.length_append, ← size]
      · change ((sink.chunks ++ [chunk]).flatten.length : Int) ≤ maxBytes
        rw [grown, List.length_append, ← size]
        push_cast
        omega
      · change (sink.chunks ++ [chunk]).flatten = _
        rw [grown, ih.whole kept, List.flatten_append, List.flatten_singleton]

/-! The bodies that are taken. -/

variable {maxBytes : Int} {response : Response} {body : Bytes}

theorem bodyOf_eq (room : 0 ≤ maxBytes)
    (kept : (Sink.writes maxBytes response.chunks).exceeded = false) :
    bodyOf maxBytes response = if response.chunks = [] then response.content
      else response.chunks.flatten := by
  have held := held_writes room response.chunks
  rw [bodyOf, held.called, held.whole kept]
  cases response.chunks <;> rfl

theorem received_ok {answer : Answer} (room : 0 ≤ maxBytes)
    (done : received maxBytes answer = .ok (response, body)) :
    answer = .answered response ∧ (body.length : Int) ≤ maxBytes ∧
      body = if response.chunks = [] then response.content else response.chunks.flatten := by
  cases answer with
  | raised chunks =>
    simp only [received] at done
    split at done <;> cases done
  | answered given =>
    simp only [received] at done
    split at done
    · cases done
    · rename_i kept
      split at done
      · cases done
      · split at done
        · cases done
        · rename_i small
          cases done
          exact ⟨rfl, not_lt.mp small, bodyOf_eq room (Bool.eq_false_iff.mpr kept)⟩

theorem buffered_eq (chunks : List Bytes) (body : Bytes) (fits : (body.length : Int) ≤ maxBytes) :
    buffered maxBytes body chunks = if maxBytes < (body ++ chunks.flatten).length then .error
      (.upstreamBodyTooLarge maxBytes)
      else .ok (body ++ chunks.flatten) := by
  induction chunks generalizing body with
  | nil =>
    rw [List.flatten_nil, List.append_nil, if_neg (not_lt.mpr fits)]
    rfl
  | cons chunk chunks ih =>
    have total : (body ++ (chunk :: chunks).flatten).length =
        body.length + chunk.length + chunks.flatten.length := by
      simp [Nat.add_assoc]
    unfold buffered
    split
    · rename_i past
      rw [if_pos (by rw [total]; push_cast; omega)]
    · rename_i small
      rw [ih _ (by rw [List.length_append]; push_cast; omega), List.flatten_cons, List.append_assoc]

/-- The two ways to read a streamed body agree. -/
theorem readers_agree (room : 1 ≤ maxBytes) (streamed : response.chunks ≠ []) :
    requestHttpxBounded maxBytes response =
      (received maxBytes (.answered response)).map Prod.snd := by
  have positive : 0 ≤ maxBytes := by omega
  have held := held_writes positive response.chunks
  simp only [requestHttpxBounded, received, if_neg (not_lt.mpr room),
    buffered_eq response.chunks [] positive, List.nil_append]
  by_cases declared : (declaredLength response).any fun declared => maxBytes < declared
  · rw [if_pos declared, if_pos declared]
    split <;> rfl
  · rw [if_neg declared, if_neg declared]
    by_cases past : maxBytes < response.chunks.flatten.length
    · have exceeded : (Sink.writes maxBytes response.chunks).exceeded = true := by
        by_contra kept
        have bounded := held.bounded
        rw [held.whole (Bool.eq_false_iff.mpr kept)] at bounded
        omega
      rw [if_pos past, exceeded]
      rfl
    · have kept := held.within (not_lt.mp past)
      rw [bodyOf_eq positive kept, if_neg streamed, if_neg past, if_neg past, kept]
      rfl

/-- A body of three bytes in two chunks. -/
def twoChunks : Response where
  chunks := [[1, 2], [3]]
  content := []
  contentLength := none
  url := []
  statusCode := 200
  location := none

theorem readers_agree_twoChunks :
    requestHttpxBounded 2 twoChunks = (received 2 (.answered twoChunks)).map Prod.snd :=
  readers_agree (by decide) (by decide)

/-! The redirects. -/

/-- A page that has moved, and the page it has moved to. -/
def movedSession (requested : List Str) : Answer :=
  .answered
    { chunks := [[1, 2], [3]], content := [], contentLength := some 3, url := []
      statusCode := if requested.length = 1 then 302 else 200
      location := if requested.length = 1 then some "/b".toList else none }

def rootedJoin (_ location : Str) : Str := "https://www.oddschecker.com".toList ++ location

def oddscheckerAllowedHosts : List Str := ["www.oddschecker.com".toList]

theorem oddschecker_named :
    ∀ host ∈ oddscheckerAllowedHosts, @normalHost Unicode.ascii host ≠ [] := by decide +kernel

section Following
variable [Unicode] [UrlText] {urljoin : Str → Str → Str}
  {session : List Str → Answer} {allowedHosts : List Str}

/-- One run of the loop. -/
structure Followed (session : List Str → Answer) (allowedHosts : List Str) (maxBytes : Int)
    (redirects : Nat) (before : List Str)
    (result : List Str × Except Failure BoundedHttpResponse) :
      Prop where
  exists_more : ∃ more, result.1 = before ++ more ∧ more.length ≤ redirects + 1 ∧
    ∀ url ∈ more, OnOrigin allowedHosts url
  taken : ∀ got, result.2 = .ok got → session result.1 = .answered got.response ∧
    (got.body.length : Int) ≤ maxBytes ∧
    (got.body = if got.response.chunks = [] then got.response.content
      else got.response.chunks.flatten) ∧
      got.response.statusCode ∉ redirectStatuses ∧ OnOrigin allowedHosts got.finalUrl

theorem fetched_ok (named : ∀ host ∈ allowedHosts, normalHost host ≠ [])
    (room : 0 ≤ maxBytes) {requested : List Str} {current : Str} {got : BoundedHttpResponse}
    (done : fetched session allowedHosts maxBytes requested current = .ok got) :
    session requested = .answered got.response ∧ (got.body.length : Int) ≤ maxBytes ∧
      (got.body = if got.response.chunks = [] then got.response.content
        else got.response.chunks.flatten) ∧
        OnOrigin allowedHosts got.finalUrl := by
  obtain ⟨⟨response, body⟩, first, done⟩ := bind_ok.mp done
  obtain ⟨finalUrl, valid, done⟩ := bind_ok.mp done
  cases done
  obtain ⟨answered, small, whole⟩ := received_ok room first
  exact ⟨answered, small, whole, onOrigin named valid⟩

theorem redirected_ok (named : ∀ host ∈ allowedHosts, normalHost host ≠ [])
    {got : BoundedHttpResponse} {next : Str}
    (done : redirected urljoin allowedHosts got = .ok next) : OnOrigin allowedHosts next := by
  unfold redirected at done
  dsimp only at done
  split at done
  · cases done
  · exact onOrigin named done

theorem follow_spec (named : ∀ host ∈ allowedHosts, normalHost host ≠ [])
    (room : 0 ≤ maxBytes) (redirects : Nat) (before : List Str) {current : Str}
    (valid : OnOrigin allowedHosts current) :
    Followed session allowedHosts maxBytes redirects before
      (follow urljoin session allowedHosts maxBytes redirects before current) := by
  have stopped (redirects : Nat) (before : List Str) {current : Str}
      (valid : OnOrigin allowedHosts current) (failure : Failure) :
      Followed session allowedHosts maxBytes redirects before
        (before ++ [current], .error failure) := by
    refine ⟨⟨[current], rfl, Nat.le_add_left 1 redirects, fun url inside => ?_⟩,
      fun got none => by cases none⟩
    exact List.mem_singleton.mp inside ▸ valid
  have answered (redirects : Nat) (before : List Str) {current : Str}
      (valid : OnOrigin allowedHosts current) {got : BoundedHttpResponse}
        (done : fetched session allowedHosts maxBytes (before ++ [current]) current = .ok got)
      (last : got.response.statusCode ∉ redirectStatuses) :
      Followed session allowedHosts maxBytes redirects before (before ++ [current], .ok got) := by
    obtain ⟨answered, small, whole, final⟩ := fetched_ok named room done
    refine ⟨⟨[current], rfl, Nat.le_add_left 1 redirects, fun url inside => ?_⟩,
      fun got same => ?_⟩
    · exact List.mem_singleton.mp inside ▸ valid
    · cases same
      exact ⟨answered, small, whole, last, final⟩
  induction redirects generalizing before current with
  | zero =>
    unfold follow
    split
    · exact stopped 0 before valid _
    · rename_i got done
      split
      · rename_i last
        exact answered 0 before valid done last
      · exact stopped 0 before valid _
  | succ redirects ih =>
    unfold follow
    split
    · exact stopped _ before valid _
    · rename_i got done
      split
      · rename_i last
        exact answered _ before valid done last
      · dsimp only
        split
        · exact stopped _ before valid _
        · rename_i next moved
          obtain ⟨⟨more, whole, few, clean⟩, taken⟩ :=
            ih (before ++ [current]) (redirected_ok named moved)
          refine ⟨⟨current :: more, ?_, Nat.succ_le_succ few,
            List.forall_mem_cons.mpr ⟨valid, clean⟩⟩, taken⟩
          rw [whole, List.append_assoc]
          rfl

/-- Whatever the session answers and wherever its redirects point, everything that is requested is
on the allowed origin, and there are no more requests than redirects and one. -/
theorem requests_on_origin (urljoin : Str → Str → Str) (session : List Str → Answer)
    {allowedHosts : List Str} (maxBytes : Int) (url : Str) (maxRedirects : Int)
    (named : ∀ host ∈ allowedHosts, normalHost host ≠ []) :
    (∀ requested ∈ (getBounded urljoin session allowedHosts maxBytes url maxRedirects).1,
      OnOrigin allowedHosts requested) ∧
      (getBounded urljoin session allowedHosts maxBytes url maxRedirects).1.length ≤
        maxRedirects.toNat + 1 := by
  unfold getBounded
  split
  · exact ⟨fun _ none => (by cases none), Nat.zero_le _⟩
  · rename_i room
    split
    · exact ⟨fun _ none => (by cases none), Nat.zero_le _⟩
    · split
      · exact ⟨fun _ none => (by cases none), Nat.zero_le _⟩
      · rename_i current done
        have spec : Followed session allowedHosts maxBytes maxRedirects.toNat []
            (follow urljoin session allowedHosts maxBytes maxRedirects.toNat [] current) :=
          follow_spec named (by omega) maxRedirects.toNat [] (onOrigin named done)
        obtain ⟨more, whole, few, clean⟩ := spec.exists_more
        rw [whole, List.nil_append]
        exact ⟨clean, few⟩

omit [UrlText] [Unicode] in
theorem requests_on_origin_moved :
    (∀ requested ∈ (@getBounded Unicode.ascii UrlText.ascii rootedJoin movedSession
      oddscheckerAllowedHosts 10 "https://www.oddschecker.com/a".toList 5).1,
      @OnOrigin Unicode.ascii UrlText.ascii oddscheckerAllowedHosts requested) ∧
        (@getBounded Unicode.ascii UrlText.ascii rootedJoin movedSession oddscheckerAllowedHosts 10
          "https://www.oddschecker.com/a".toList 5).1.length ≤ (5 : Int).toNat + 1 :=
  @requests_on_origin Unicode.ascii UrlText.ascii rootedJoin movedSession oddscheckerAllowedHosts 10
    _ 5 oddschecker_named

/-- A response that is returned answers the last request, is no redirect, comes from the allowed
origin, and its body is whole and within the bound. -/
theorem getBounded_ok {urljoin : Str → Str → Str} {session : List Str → Answer}
    {allowedHosts : List Str} {maxBytes : Int} {url : Str} {maxRedirects : Int}
    {requested : List Str} {got : BoundedHttpResponse}
    (named : ∀ host ∈ allowedHosts, normalHost host ≠ [])
    (done : getBounded urljoin session allowedHosts maxBytes url maxRedirects =
      (requested, .ok got)) :
    session requested = .answered got.response ∧ (got.body.length : Int) ≤ maxBytes ∧
      (got.body = if got.response.chunks = [] then got.response.content
        else got.response.chunks.flatten) ∧
        got.response.statusCode ∉ redirectStatuses ∧ OnOrigin allowedHosts got.finalUrl := by
  unfold getBounded at done
  split at done
  · cases done
  · split at done
    · cases done
    · split at done
      · cases done
      · rename_i current valid
        have spec : Followed session allowedHosts maxBytes maxRedirects.toNat []
            (follow urljoin session allowedHosts maxBytes maxRedirects.toNat [] current) :=
          follow_spec named (by omega) maxRedirects.toNat [] (onOrigin named valid)
        rw [done] at spec
        exact spec.taken got rfl

def movedPage : BoundedHttpResponse where
  response :=
    { chunks := [[1, 2], [3]], content := [], contentLength := some 3, url := [], statusCode := 200,
      location := none }
  body := [1, 2, 3]
  finalUrl := "https://www.oddschecker.com/b".toList

def movedRequests : List Str :=
  ["https://www.oddschecker.com/a".toList, "https://www.oddschecker.com/b".toList]

omit [UrlText] [Unicode] in
theorem getBounded_ok_moved : movedSession movedRequests = .answered movedPage.response ∧
    (movedPage.body.length : Int) ≤ 10 ∧
    (movedPage.body = if movedPage.response.chunks = [] then movedPage.response.content
      else movedPage.response.chunks.flatten) ∧
      movedPage.response.statusCode ∉ redirectStatuses ∧
        @OnOrigin Unicode.ascii UrlText.ascii oddscheckerAllowedHosts movedPage.finalUrl :=
  @getBounded_ok Unicode.ascii UrlText.ascii rootedJoin movedSession oddscheckerAllowedHosts 10
    "https://www.oddschecker.com/a".toList 5 movedRequests movedPage oddschecker_named (by
      decide +kernel)

end Following

end SharpEvPicks.Ingestion.HttpSafety
