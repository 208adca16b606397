import SharpEvPicks.Api.Auth

/-! An issued session verifies inside its lifetime and nowhere else. -/
namespace SharpEvPicks.Api.Auth

open Python

/-! The alphabet of a token. -/

theorem b64e_spec (raw : Bytes) : (∀ c ∈ b64e raw, Base64.Plain c) ∧
    (b64e raw).length ≤ (4 * raw.length + 2) / 3 ∧ b64d (b64e raw) = .ok raw := by
  obtain ⟨text, pads, padded, plain, count, short⟩ := Base64.encode_padded raw
  have bare : b64e raw = text := by
    rw [b64e, padded]
    exact Base64.stripped_padded pads fun c inside => (plain c inside).solid
  rw [bare]
  refine ⟨plain, short, ?_⟩
  unfold b64d
  rw [if_pos fun c inside => (plain c inside).ascii, ← count, ← padded, Base64.decode_encode]
  rfl

theorem b64d_raises {s : Str} {raised : Raised} (failed : b64d s = .error raised) :
    raised = .valueError := by
  unfold b64d at failed
  split at failed
  · cases decoded : Base64.decode (s ++ List.replicate ((4 - s.length % 4) % 4) '=') with
    | none =>
      rw [decoded] at failed
      cases failed
      rfl
    | some raw =>
      rw [decoded] at failed
      cases failed
  · cases failed
    rfl

theorem splitOn_token {body sig : Str} (bodyClear : '.' ∉ body) (sigClear : '.' ∉ sig) :
    (body ++ '.' :: sig).splitOn '.' = [body, sig] := by
  rw [List.splitOn_append_cons_self, List.splitOn_eq_singleton bodyClear,
    List.splitOn_eq_singleton sigClear]
  rfl

theorem utf8_injective {s t : Str} (same : utf8 s = utf8 t) : s = t := by
  have decoded := utf8Decode_utf8 s
  rw [same, utf8Decode_utf8] at decoded
  exact (Option.some.inj decoded).symm

theorem b64e_ascii (raw : Bytes) : (utf8 (b64e raw)).length = (b64e raw).length :=
  length_utf8_ascii fun c inside => ((b64e_spec raw).1 c inside).ascii

theorem b64e_undotted (raw : Bytes) : '.' ∉ b64e raw :=
  fun inside => ((b64e_spec raw).1 '.' inside).undotted rfl

theorem bodyOf_undotted (username : Str) (now exp : Int) : '.' ∉ bodyOf username now exp :=
  b64e_undotted _

/-! Sizes. -/

theorem length_payloadText {username : Str} {now exp : Int}
    (bounded : boundedUtf8 username maxUsernameBytes)
    (issued : (utf8 (jsonInt now)).length ≤ 19) (ends : (utf8 (jsonInt exp)).length ≤ 19) :
    (utf8 (payloadText username now exp)).length ≤ 828 := by
  have name := length_jsonStr username
  have open_ : (utf8 "\x7b\"u\":".toList).length = 5 := by decide
  have iat : (utf8 ",\"iat\":".toList).length = 7 := by decide
  have exp_ : (utf8 ",\"exp\":".toList).length = 7 := by decide
  have close : (utf8 "\x7d".toList).length = 1 := by decide
  have bound : (utf8 username).length ≤ 128 := bounded
  unfold payloadText
  simp only [utf8_append, List.length_append, open_, iat, exp_, close]
  omega

theorem length_bodyOf {username : Str} {now exp : Int}
    (bounded : boundedUtf8 username maxUsernameBytes)
    (issued : (utf8 (jsonInt now)).length ≤ 19) (ends : (utf8 (jsonInt exp)).length ≤ 19) :
    (bodyOf username now exp).length ≤ 1104 := by
  have payload := length_payloadText bounded issued ends
  have encoded := (b64e_spec (utf8 (payloadText username now exp))).2.1
  unfold bodyOf
  omega

section Tokens
variable [Library]

/-- What is assumed of HMAC: under keys no longer than a secret, no two pairs of a key and a message
share a digest, and the digest of a short message is not long. -/
structure Ideal : Prop where
  injective : ∀ {key key' message message' : Bytes}, key.length ≤ maxSessionSecretBytes →
    key'.length ≤ maxSessionSecretBytes →
      Library.hmac key message = Library.hmac key' message' → key = key' ∧ message = message'
  short : ∀ key message : Bytes, key.length ≤ maxSessionSecretBytes →
    message.length ≤ 1104 → (Library.hmac key message).length ≤ 2048

/-- What `sign_session` has checked, and its token. -/
structure Issued (username secret : Str) (ttl now : Int) (token : Str) : Prop where
  nonempty : username ≠ []
  bounded : boundedUtf8 username maxUsernameBytes
  accepted : acceptedSecret secret
  ttl_pos : 1 ≤ ttl
  ttl_le : ttl ≤ maxSessionTtlSeconds
  token_eq : token = bodyOf username now (now + ttl) ++
    '.' :: b64e (signatureOf secret (bodyOf username now (now + ttl)))

theorem issued_of_signed {username secret token : Str} {ttl now : Int}
    (signed : signSession username secret ttl now = .ok token) :
      Issued username secret ttl now token := by
  unfold signSession at signed
  split at signed
  · cases signed
  rename_i name
  split at signed
  · cases signed
  rename_i key
  split at signed
  · cases signed
  rename_i life
  rw [not_or, not_not] at name
  rw [not_not] at key life
  cases signed
  exact ⟨name.1, name.2, key, life.1, life.2, rfl⟩

theorem Issued.signed {username secret token : Str} {ttl now : Int}
    (issued : Issued username secret ttl now token) :
    signSession username secret ttl now = .ok token := by
  unfold signSession
  rw [if_neg (not_or.mpr ⟨issued.nonempty, not_not.mpr issued.bounded⟩),
    if_neg (not_not.mpr issued.accepted),
    if_neg (not_not.mpr ⟨issued.ttl_pos, issued.ttl_le⟩), issued.token_eq]

theorem Issued.length_le (ideal : Ideal) {username secret token : Str} {ttl now : Int}
    (issued : Issued username secret ttl now token) (since : 0 ≤ now) (until_ : now < 2 ^ 63) :
    token.length ≤ maxSessionTokenBytes := by
  have := issued.ttl_pos
  have life : ttl ≤ 604800 := issued.ttl_le
  have ends : now + ttl < 2 ^ 63 + 604800 := by omega
  have body := length_bodyOf issued.bounded
    (length_jsonInt since (by decide) (until_.trans_le (by decide)))
    (length_jsonInt (by omega : 0 ≤ now + ttl) (by decide) (ends.trans_le (by decide)))
  have digest := ideal.short (utf8 secret) (utf8 (bodyOf username now (now + ttl)))
    issued.accepted.2 (by rw [bodyOf, b64e_ascii]; exact body)
  have sig := (b64e_spec (signatureOf secret (bodyOf username now (now + ttl)))).2.1
  have digest' : (signatureOf secret (bodyOf username now (now + ttl))).length ≤ 2048 := digest
  rw [issued.token_eq, List.length_append, List.length_cons, maxSessionTokenBytes]
  omega

/-- Verifying an issued token comes down to the signature and the claims. -/
theorem Issued.verify_eq (ideal : Ideal) {username secret token : Str} {ttl now : Int}
    (issued : Issued username secret ttl now token) (since : 0 ≤ now) (until_ : now < 2 ^ 63)
    {key : Str} (accepted : acceptedSecret key) (t : Int) : verifySession token key t =
      verifyParts (bodyOf username now (now + ttl))
        (b64e (signatureOf secret (bodyOf username now (now + ttl)))) key t := by
  have short := issued.length_le ideal since until_
  unfold verifySession
  rw [if_neg (not_lt.mpr short), if_neg (not_not.mpr accepted), issued.token_eq,
    splitOn_token (bodyOf_undotted username now (now + ttl)) (b64e_undotted _)]

theorem decodeBody_issued {username : Str} {now exp : Int}
    (faithful : Library.loads (payloadText username now exp) = some (payload username now exp)) :
    decodeBody (bodyOf username now exp) = .ok ⟨.str username, .int now, .int exp⟩ := by
  unfold decodeBody bodyOf
  rw [(b64e_spec _).2.2]
  dsimp only [bind, Except.bind]
  rw [utf8Decode_utf8, Option.elim_some]
  dsimp only
  rw [faithful]
  rfl

theorem checkClaims_issued {username secret token : Str} {ttl now : Int}
    (issued : Issued username secret ttl now token) (t : Int) :
    checkClaims ⟨.str username, .int now, .int (now + ttl)⟩ t =
      if now - 60 ≤ t ∧ t < now + ttl then some username else none := by
  have := issued.ttl_pos
  have := issued.ttl_le
  have sound : ¬ (username = [] ∨ ¬ boundedUtf8 username maxUsernameBytes ∨
      now + ttl ≤ now ∨ maxSessionTtlSeconds < now + ttl - now) := by
    rintro (empty | unbounded | backwards | long)
    · exact issued.nonempty empty
    · exact unbounded issued.bounded
    · omega
    · omega
  unfold checkClaims
  dsimp only
  rw [if_neg sound]
  by_cases live : now - 60 ≤ t ∧ t < now + ttl
  · rw [if_pos live, if_neg (by omega)]
  · rw [if_neg live, if_pos (by omega)]

/-- The signature was made of this body under this key, by whoever made it. -/
def Authentic (token key : Str) : Prop :=
  ∃ body sig, token = body ++ '.' :: sig ∧ b64d sig = .ok (signatureOf key body) ∧
    ∀ key' body', acceptedSecret key' → b64d sig = .ok (signatureOf key' body') →
      key' = key ∧ body' = body

theorem verifyParts_answers (body sig key : Str) (t : Int) :
    ∃ answer, verifyParts body sig key t = .ok answer ∧
    ∀ name, answer = some name → b64d sig = .ok (signatureOf key body) := by
  unfold verifyParts
  cases decoded : b64d sig with
  | error raised =>
    cases b64d_raises decoded
    exact ⟨none, rfl, fun name found => by cases found⟩
  | ok got =>
    dsimp only
    by_cases forged : signatureOf key body ≠ got
    · rw [if_pos forged]
      exact ⟨none, rfl, fun name found => by cases found⟩
    · rw [if_neg forged, not_not.mp forged]
      cases decodeBody body with
      | ok claims => exact ⟨_, rfl, fun _ _ => rfl⟩
      | error raised => cases raised <;> exact ⟨none, rfl, fun name found => by cases found⟩

theorem verify_answers (ideal : Ideal) (token key : Str) (t : Int) :
    ∃ answer, verifySession token key t = .ok answer ∧
    ∀ name, answer = some name → Authentic token key := by
  unfold verifySession
  by_cases long : maxSessionTokenBytes < token.length
  · rw [if_pos long]
    exact ⟨none, rfl, fun name found => by cases found⟩
  rw [if_neg long]
  by_cases accepted : acceptedSecret key
  swap
  · rw [if_pos accepted]
    exact ⟨none, rfl, fun name found => by cases found⟩
  rw [if_neg (not_not.mpr accepted)]
  split
  · rename_i body sig parts
    obtain ⟨answer, ran, signed⟩ := verifyParts_answers body sig key t
    refine ⟨answer, ran, fun name found => ⟨body, sig, ?_, signed name found, ?_⟩⟩
    · have whole : ['.'].intercalate (token.splitOn '.') = token := List.intercalate_splitOn '.'
      rw [parts] at whole
      simpa [List.intercalate] using whole.symm
    · intro key' body' accepted' made
      rw [signed name found] at made
      obtain ⟨keys, bodies⟩ := ideal.injective accepted.2 accepted'.2 (Except.ok.inj made)
      exact ⟨(utf8_injective keys).symm, (utf8_injective bodies).symm⟩
  · exact ⟨none, rfl, fun name found => by cases found⟩

/-- A session of `sign_session`, and every other token. -/
theorem session_exact (ideal : Ideal) {username secret token : Str} {ttl now : Int}
    (signed : signSession username secret ttl now = .ok token) (since : 0 ≤ now)
    (until_ : now < 2 ^ 63) (faithful : Library.loads (payloadText username now (now + ttl)) =
      some (payload username now (now + ttl))) :
    (∀ t, verifySession token secret t = .ok (if now - 60 ≤ t ∧ t < now + ttl then
      some username
      else none)) ∧
      (∀ other t, acceptedSecret other → other ≠ secret →
        verifySession token other t = .ok none) ∧
      ∀ any_ key t, ∃ answer, verifySession any_ key t = .ok answer ∧ ∀ name,
        answer = some name → Authentic any_ key := by
  have issued := issued_of_signed signed
  refine ⟨fun t => ?_, fun other t accepted apart => ?_,
    fun any_ key t => verify_answers ideal any_ key t⟩
  · rw [issued.verify_eq ideal since until_ issued.accepted]
    unfold verifyParts
    rw [(b64e_spec _).2.2]
    dsimp only
    rw [if_neg (not_not.mpr rfl), decodeBody_issued faithful]
    exact congrArg Except.ok (checkClaims_issued issued t)
  · rw [issued.verify_eq ideal since until_ accepted]
    unfold verifyParts
    rw [(b64e_spec _).2.2]
    dsimp only
    rw [if_pos]
    intro same
    exact apart (utf8_injective (ideal.injective accepted.2 issued.accepted.2 same).1)

end Tokens

/-- A library whose digest spells out its key and its message, and which reads one text. -/
@[reducible] def Library.spelled (text : Str) (value : Json) : Library where
  hmac key message :=
    UInt8.ofNat (key.length / 256) :: UInt8.ofNat (key.length % 256) :: (key ++ message)
  loads s := if s = text then some value else none

theorem ideal_spelled (text : Str) (value : Json) : @Ideal (Library.spelled text value) := by
  let := Library.spelled text value
  refine ⟨fun {key key' message message'} short short' same => ?_,
    fun key message short brief => ?_⟩
  · obtain ⟨high, rest⟩ := List.cons.inj same
    obtain ⟨low, both⟩ := List.cons.inj rest
    have bound : key.length ≤ 512 := short
    have bound' : key'.length ≤ 512 := short'
    have high' := congrArg UInt8.toNat high
    have low' := congrArg UInt8.toNat low
    rw [UInt8.toNat_ofNat', UInt8.toNat_ofNat'] at high' low'
    exact List.append_inj both (by omega)
  · have spelled : Library.hmac key message =
        UInt8.ofNat (key.length / 256) :: UInt8.ofNat (key.length % 256) :: (key ++ message) := rfl
    have bound : key.length ≤ 512 := short
    rw [spelled, List.length_cons, List.length_cons, List.length_append]
    omega

theorem session_exact_admin :
    letI := Library.spelled (payloadText "admin".toList 1700000000 1700003600)
      (payload "admin".toList 1700000000 1700003600)
    ∃ token, signSession "admin".toList (List.replicate 32 'k') 3600 1700000000 = .ok token ∧
      verifySession token (List.replicate 32 'k') 1700003599 = .ok (some "admin".toList) ∧
        verifySession token (List.replicate 32 'k') 1700003600 = .ok none := by
  let := Library.spelled (payloadText "admin".toList 1700000000 1700003600)
    (payload "admin".toList 1700000000 1700003600)
  have issued : Issued "admin".toList (List.replicate 32 'k') 3600 1700000000 _ :=
    ⟨by decide, by decide, by decide, by decide, by decide, rfl⟩
  have signed := issued.signed
  have exact_ := @session_exact _ (ideal_spelled _ _) _ _ _ _ _ signed (by decide) (by
    decide) (if_pos rfl)
  refine ⟨_, signed, ?_, ?_⟩
  · exact (exact_.1 1700003599).trans (congrArg Except.ok (if_pos (by decide)))
  · exact (exact_.1 1700003600).trans (congrArg Except.ok (if_neg (by decide)))

end SharpEvPicks.Api.Auth
