import SharpEvPicks.Api.RequestLimits

/-! The body cap is exact: the inner app is called with the whole request when its declared and its
counted length fit, and never otherwise. -/
namespace SharpEvPicks.Api.RequestBodyLimitMiddleware

open Python

/-- The message is the last of its request. -/
def Ends (message : Message) : Prop :=
  message.type = "http.disconnect".toList ∨
    message.type = "http.request".toList ∧ message.moreBody.getD false = false

/-- `read` is `incoming` up to the first message that ends the request. -/
inductive Request : List Message → List Message → Prop where
  | last (message : Message) (rest : List Message) (ends : Ends message) : Request
      (message :: rest) [message]
  | more (message : Message) {rest read : List Message} (goes : ¬ Ends message)
      (later : Request rest read) :
    Request (message :: rest) (message :: read)

def bodyLength (message : Message) : Nat :=
  if message.type = "http.request".toList then (message.body.getD []).length else 0

/-- The body bytes of the `http.request` messages. -/
def bodyBytes (messages : List Message) : Nat := (messages.map bodyLength).sum

/-- No length is declared, or one decimal that fits. -/
def Declared (m : RequestBodyLimitMiddleware) (headers : List (Bytes × Bytes)) : Prop :=
  rawLengths headers = [] ∨ ∃ value, rawLengths headers = [value] ∧
    Bytes.isDigit value = true ∧
    value.length ≤ Bytes.maxStrDigits ∧ Bytes.digitsValue value ≤ m.maxBodyBytes

theorem declared_iff (m : RequestBodyLimitMiddleware) (scope : Scope) :
    m.declaredBodyIsTooLarge scope = false ↔ Declared m scope.headers := by
  unfold declaredBodyIsTooLarge Declared
  split
  · rename_i absent
    exact iff_of_true rfl (.inl absent)
  · rename_i value lengths
    have only : (rawLengths scope.headers = [] ∨ ∃ v, rawLengths scope.headers = [v] ∧
        Bytes.isDigit v = true ∧
        v.length ≤ Bytes.maxStrDigits ∧ Bytes.digitsValue v ≤ m.maxBodyBytes) ↔
        Bytes.isDigit value = true ∧ value.length ≤ Bytes.maxStrDigits ∧
        Bytes.digitsValue value ≤ m.maxBodyBytes := by
      rw [lengths]
      simp
    rw [only]
    cases digits : Bytes.isDigit value with
    | false => simp
    | true =>
      by_cases long : Bytes.maxStrDigits < value.length
      · simp [Bytes.intOfDigits, long]
      · simp [Bytes.intOfDigits, long, not_lt.mp long]
  · rename_i some_ many
    refine iff_of_false (by decide) ?_
    rintro (absent | ⟨value, lengths, -⟩)
    · exact some_ absent
    · exact many value lengths

theorem Request.unique {incoming read other : List Message} (one : Request incoming read)
    (two : Request incoming other) : read = other := by
  induction one generalizing other with
  | last message rest ends =>
    cases two with
    | last => rfl
    | more _ goes _ => exact absurd ends goes
  | more message goes later ih =>
    cases two with
    | last _ _ ends => exact absurd ends goes
    | more _ _ later' => rw [ih later']

/-- The reading loop keeps what it has read within the cap. -/
theorem buffer_complete_iff {cap bytes : Nat} {messages incoming all : List Message}
    (fits : bytes ≤ cap) :
    buffer cap messages bytes incoming = .complete all ↔
      ∃ read, Request incoming read ∧ all = messages ++ read ∧
        bytes + bodyBytes read ≤ cap := by
  induction incoming generalizing messages bytes with
  | nil =>
    refine iff_of_false (fun done => by cases done) ?_
    rintro ⟨read, request, -⟩
    cases request
  | cons message incoming ih =>
    have onlyLast (ends : Ends message) (within : bytes + bodyLength message ≤ cap) :
        Buffered.complete (messages ++ [message]) = .complete all ↔
          ∃ read, Request (message :: incoming) read ∧ all = messages ++ read ∧
            bytes + bodyBytes read ≤ cap := by
      constructor
      · intro done
        cases done
        exact ⟨[message], .last message incoming ends, rfl, by simpa [bodyBytes] using within⟩
      · rintro ⟨read, request, rfl, -⟩
        cases request with
        | last => rfl
        | more _ goes _ => exact absurd ends goes
    have goesOn (goes : ¬ Ends message) (within : bytes + bodyLength message ≤ cap) :
        buffer cap (messages ++ [message]) (bytes + bodyLength message) incoming = .complete all ↔
          ∃ read, Request (message :: incoming) read ∧ all = messages ++ read ∧
            bytes + bodyBytes read ≤ cap := by
      rw [ih within]
      constructor
      · rintro ⟨read, request, rfl, total⟩
        refine ⟨message :: read, .more message goes request, by simp, ?_⟩
        simp only [bodyBytes, List.map_cons, List.sum_cons] at total ⊢
        omega
      · rintro ⟨read, request, rfl, total⟩
        cases request with
        | last _ _ ends => exact absurd ends goes
        | more _ _ later =>
          refine ⟨_, later, by simp, ?_⟩
          simp only [bodyBytes, List.map_cons, List.sum_cons] at total ⊢
          omega
    unfold buffer
    dsimp only
    by_cases gone : message.type = "http.disconnect".toList
    · have silent : bodyLength message = 0 := by
        rw [bodyLength, if_neg]
        rw [gone]
        decide
      rw [if_pos gone]
      exact onlyLast (.inl gone) (by omega)
    · rw [if_neg gone]
      by_cases part : message.type = "http.request".toList
      · have length : bodyLength message = (message.body.getD []).length := if_pos part
        rw [if_neg (not_not.mpr part), ← length]
        by_cases large : cap < bytes + bodyLength message
        · rw [if_pos large]
          refine iff_of_false (fun done => by cases done) ?_
          rintro ⟨read, request, -, total⟩
          cases request with
          | last => simp [bodyBytes] at total; omega
          | more =>
            simp only [bodyBytes, List.map_cons, List.sum_cons] at total
            omega
        · rw [if_neg large]
          cases more : message.moreBody.getD false with
          | false => exact onlyLast (.inr ⟨part, more⟩) (not_lt.mp large)
          | true =>
            refine goesOn ?_ (not_lt.mp large)
            rintro (disconnected | ⟨-, closed⟩)
            · exact gone disconnected
            · rw [more] at closed
              cases closed
      · have silent : bodyLength message = 0 := if_neg part
        have loop := goesOn (by
          rintro (disconnected | ⟨request, -⟩);
            exacts [gone disconnected, part request]) (by omega)
        rw [silent, Nat.add_zero] at loop
        rw [if_pos part]
        exact loop

/-- The loop waits as long as no message ends the request. -/
theorem not_request_of_waiting {cap bytes : Nat} {messages incoming read : List Message}
    (waits : buffer cap messages bytes incoming = .waiting) : ¬ Request incoming read := by
  intro request
  induction request generalizing messages bytes with
  | last message rest ends =>
    unfold buffer at waits
    dsimp only at waits
    obtain gone | ⟨part, closed⟩ := ends
    · rw [if_pos gone] at waits
      cases waits
    · have here : message.type ≠ "http.disconnect".toList := by
        rw [part]
        decide
      rw [if_neg here, if_neg (not_not.mpr part), closed] at waits
      split at waits <;> cases waits
  | more message goes later ih =>
    unfold buffer at waits
    dsimp only at waits
    split at waits
    · cases waits
    · split at waits
      · exact ih waits
      · split at waits
        · cases waits
        · split at waits
          · cases waits
          · exact ih waits

/-! The replay. -/

/-- What the replay returns after its last message. -/
def closing : Message := { type := "http.request".toList, body := some [], moreBody := some false }

theorem received_replay (messages : List Message) (next n : Nat) :
    received n { messages := messages, nextMessage := next } =
      (messages.drop next).take n ++ List.replicate (n - (messages.length - next)) closing := by
  induction n generalizing next with
  | zero => simp [received]
  | succ n ih =>
    by_cases inside : next < messages.length
    · have found : messages[next]? = some messages[next] := List.getElem?_eq_getElem inside
      have left : messages.drop next = messages[next] :: messages.drop (next + 1) :=
        List.drop_eq_getElem_cons inside
      simp only [received, replayReceive, found]
      rw [ih (next + 1), left, List.take_succ_cons, List.cons_append]
      congr 3
      omega
    · have past : messages.length ≤ next := not_lt.mp inside
      have found : messages[next]? = none := List.getElem?_eq_none past
      simp only [received, replayReceive, found]
      rw [ih next, List.drop_eq_nil_of_le past, List.take_nil, List.take_nil, List.nil_append,
        List.nil_append,
        Nat.sub_eq_zero_of_le past, Nat.sub_zero, Nat.sub_zero, List.replicate_succ]
      rfl

/-! The middleware. -/

structure CapExact (m : RequestBodyLimitMiddleware) (headers : List (Bytes × Bytes))
    (incoming : List Message) : Prop where
  /-- The inner app runs iff both lengths fit, on a replay of the request. -/
  called : ∀ receive, (m.call ⟨"http".toList, headers⟩ incoming).inner = some receive ↔
    ∃ read, receive = .replay read ∧ Declared m headers ∧ Request incoming read ∧
      bodyBytes read ≤ m.maxBodyBytes
  /-- Any other request is refused: one response, and the inner app does not run. -/
  refused : ∀ read, Request incoming read →
    ¬ (Declared m headers ∧ bodyBytes read ≤ m.maxBodyBytes) →
    m.call ⟨"http".toList, headers⟩ incoming = { sent := sendTooLarge, inner := none }
  /-- Nothing else is ever sent. -/
  quiet : (m.call ⟨"http".toList, headers⟩ incoming).sent = [] ∨
    m.call ⟨"http".toList, headers⟩ incoming = { sent := sendTooLarge, inner := none }
  /-- The replay loses, adds and reorders nothing; after it come empty bodies. -/
  replayed : ∀ read n,
    received n { messages := read } = read.take n ++ List.replicate (n - read.length) closing

theorem call_of_declared {m : RequestBodyLimitMiddleware} {headers : List (Bytes × Bytes)}
    (declared : Declared m headers) (incoming : List Message) :
    m.call ⟨"http".toList, headers⟩ incoming =
      (buffer m.maxBodyBytes [] 0 incoming).effect := by
  have fits := (declared_iff m ⟨"http".toList, headers⟩).mpr declared
  unfold call
  rw [if_neg (not_not.mpr rfl), fits, if_neg Bool.false_ne_true]

theorem call_of_undeclared {m : RequestBodyLimitMiddleware} {headers : List (Bytes × Bytes)}
    (undeclared : ¬ Declared m headers) (incoming : List Message) :
    m.call ⟨"http".toList, headers⟩ incoming = refusal := by
  have large : m.declaredBodyIsTooLarge ⟨"http".toList, headers⟩ = true := by
    rw [← Bool.not_eq_false, declared_iff]
    exact undeclared
  unfold call
  rw [if_neg (not_not.mpr rfl), if_pos large]

theorem call_capExact (m : RequestBodyLimitMiddleware) (headers : List (Bytes × Bytes))
    (incoming : List Message) : CapExact m headers incoming := by
  have replayed (read : List Message) (n : Nat) :
      received n { messages := read } = read.take n ++
        List.replicate (n - read.length) closing := by
    simpa using received_replay read 0 n
  by_cases declared : Declared m headers
  swap
  · have refused := call_of_undeclared declared incoming
    refine ⟨fun receive => ?_, fun _ _ _ => refused, .inr refused, replayed⟩
    rw [refused]
    exact iff_of_false (fun absent => by cases absent) fun ⟨_, _, fits, _⟩ => declared fits
  have ran := call_of_declared declared incoming
  have complete (all : List Message) : buffer m.maxBodyBytes [] 0 incoming = .complete all ↔
      Request incoming all ∧ bodyBytes all ≤ m.maxBodyBytes := by
    rw [buffer_complete_iff (Nat.zero_le _)]
    simp
  cases result : buffer m.maxBodyBytes [] 0 incoming with
  | waiting =>
    rw [result] at ran
    refine ⟨fun receive => ?_, fun read request => absurd request (not_request_of_waiting result),
      .inl ?_, replayed⟩
    · rw [ran]
      exact iff_of_false (fun absent => by cases absent) fun ⟨_, _, _, request, _⟩ =>
        not_request_of_waiting result request
    · rw [ran]
      rfl
  | tooLarge =>
    rw [result] at ran
    refine ⟨fun receive => ?_, fun _ _ _ => ran, .inr ran, replayed⟩
    rw [ran]
    refine iff_of_false (fun absent => by cases absent) ?_
    rintro ⟨read, -, -, request, within⟩
    have done := (complete read).mpr ⟨request, within⟩
    rw [result] at done
    cases done
  | complete all =>
    rw [result] at ran
    obtain ⟨request, within⟩ := (complete all).mp result
    refine ⟨fun receive => ?_, fun read other over_ => ?_, .inl ?_, replayed⟩
    · rw [ran]
      constructor
      · intro same
        exact ⟨all, (Option.some.inj same).symm, declared, request, within⟩
      · rintro ⟨read, rfl, -, other, -⟩
        rw [request.unique other]
        rfl
    · rw [request.unique other] at within
      exact absurd ⟨declared, within⟩ over_
    · rw [ran]
      rfl

end SharpEvPicks.Api.RequestBodyLimitMiddleware
