import SharpEvPicks.Python.Base64
import SharpEvPicks.Python.Dumps
import SharpEvPicks.Python.Json

/-! The signed sessions of `app/api/auth.py`. -/
namespace SharpEvPicks.Api.Auth

open Python

def maxUsernameBytes : Nat := 128

def maxSessionSecretBytes : Nat := 512

def minSessionSecretBytes : Nat := 32

def maxSessionTokenBytes : Nat := 4096

def maxSessionTtlSeconds : Int := 7 * 24 * 60 * 60

/-- `UnicodeDecodeError`, `JSONDecodeError` and `binascii.Error` are `ValueError`s. -/
inductive Raised where
  | valueError | keyError | typeError
  deriving DecidableEq, Repr

/-- The parts of the standard library that are not looked into: HMAC-SHA256 of a key and a message,
and `json.loads`, where `none` is a `ValueError`. -/
class Library where
  hmac : Bytes → Bytes → Bytes
  loads : Str → Option Json

/-- A `str` of code points that UTF-8 encodes. -/
def boundedUtf8 (value : Str) (maximum : Nat) : Prop := (utf8 value).length ≤ maximum

instance (value : Str) (maximum : Nat) : Decidable (boundedUtf8 value maximum) :=
  inferInstanceAs (Decidable (_ ≤ _))

def acceptedSecret (secret : Str) : Prop :=
  minSessionSecretBytes ≤ (utf8 secret).length ∧ (utf8 secret).length ≤ maxSessionSecretBytes

instance (secret : Str) : Decidable (acceptedSecret secret) := inferInstanceAs (Decidable (_ ∧ _))

/-- `_b64e`. -/
def b64e (raw : Bytes) : Str := Base64.stripped (Base64.encode raw)

/-- `_b64d`. -/
def b64d (s : Str) : Except Raised Bytes :=
  if ∀ c ∈ s, isAscii c then
    (Base64.decode (s ++ List.replicate ((4 - s.length % 4) % 4) '=')).elim (.error .valueError) .ok
  else .error .valueError

/-- `json.dumps(payload, separators=(",", ":"), ensure_ascii=False)`. -/
def payloadText (username : Str) (issued exp : Int) : Str :=
  "\x7b\"u\":".toList ++ jsonStr username ++ ",\"iat\":".toList ++ jsonInt issued ++
    ",\"exp\":".toList ++ jsonInt exp ++ "\x7d".toList

def payload (username : Str) (issued exp : Int) : Json :=
  .obj [("u".toList, .str username), ("iat".toList, .int issued), ("exp".toList, .int exp)]

def bodyOf (username : Str) (issued exp : Int) : Str :=
  b64e (utf8 (payloadText username issued exp))

/-- `decoded[name]`. -/
def item (decoded : Json) (name : Str) : Except Raised Json :=
  match decoded with
  | .obj members =>
    match members.reverse.find? fun m => m.1 = name with
    | some member => .ok member.2
    | none => .error .keyError
  | _ => .error .typeError

structure Claims where
  username : Json
  issued : Json
  exp : Json

/-- The checks on the three items, and the clock. -/
def checkClaims (claims : Claims) (current : Int) : Option Str :=
  match claims.username, claims.issued, claims.exp with
  | .str username, .int issued, .int exp =>
    if username = [] ∨ ¬ boundedUtf8 username maxUsernameBytes ∨ exp ≤ issued ∨
        maxSessionTtlSeconds < exp - issued then none
    else if current + 60 < issued ∨ exp ≤ current then none
    else some username
  | _, _, _ => none

variable [Library]

def signatureOf (secret body : Str) : Bytes := Library.hmac (utf8 secret) (utf8 body)

def signSession (username secret : Str) (ttlSeconds now : Int) : Except Raised Str :=
  if username = [] ∨ ¬ boundedUtf8 username maxUsernameBytes then .error .valueError
  else if ¬ acceptedSecret secret then .error .valueError
  else if ¬ (1 ≤ ttlSeconds ∧ ttlSeconds ≤ maxSessionTtlSeconds) then .error .valueError
  else
    let body := bodyOf username now (now + ttlSeconds)
    .ok (body ++ '.' :: b64e (signatureOf secret body))

/-- The second `try` block. -/
def decodeBody (body : Str) : Except Raised Claims := do
  let raw ← b64d body
  let text ← (utf8Decode raw).elim (.error .valueError) .ok
  let decoded ← (Library.loads text).elim (.error .valueError) .ok
  let username ← item decoded "u".toList
  let issued ← item decoded "iat".toList
  let exp ← item decoded "exp".toList
  return ⟨username, issued, exp⟩

def verifyParts (body sigB64 secret : Str) (now : Int) : Except Raised (Option Str) :=
  match b64d sigB64 with
  | .error .valueError => .ok none
  | .error other => .error other
  | .ok got =>
    if signatureOf secret body ≠ got then .ok none
    else
      match decodeBody body with
      | .error .valueError => .ok none
      | .error .keyError => .ok none
      | .error .typeError => .ok none
      | .ok claims => .ok (checkClaims claims now)

def verifySession (token secret : Str) (now : Int) : Except Raised (Option Str) :=
  if maxSessionTokenBytes < token.length then .ok none
  else if ¬ acceptedSecret secret then .ok none
  else
    match token.splitOn '.' with
    | [body, sigB64] => verifyParts body sigB64 secret now
    | _ => .ok none

end SharpEvPicks.Api.Auth
