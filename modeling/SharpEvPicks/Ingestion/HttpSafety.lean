import Mathlib.Data.List.DropRight
import SharpEvPicks.Python.Bytes
import SharpEvPicks.Python.UrlReadBack

/-! Bounded GETs on one HTTPS origin, `app/ingestion/http_safety.py`: what the session answers may
depend on all that was requested, and `urljoin` may be any function. -/
namespace SharpEvPicks.Ingestion.HttpSafety

open Python

inductive Failure where
  | valueError (message : String)
  | unsafeUpstreamUrl (message : String)
  | upstreamBodyTooLarge (maxBytes : Int)
  /-- Whatever the session raises. -/
  | transport
  deriving DecidableEq

def redirectStatuses : List Int := [301, 302, 303, 307, 308]

/-- `s.rstrip(".")`. -/
def rstripDots (s : Str) : Str := s.rdropWhile (· == '.')

section Urls
variable [Unicode] [UrlText]

/-- `host.lower().rstrip(".")`. -/
def normalHost (host : Str) : Str := rstripDots (Unicode.lower host)

def validateHttpsUrl (allowedHosts : List Str) (url : Str) : Except Failure Str :=
  match urlparse (strip url) with
  | none => .error (.unsafeUpstreamUrl "upstream URL is malformed")
  | some parsed =>
    match parsed.port with
    | none => .error (.unsafeUpstreamUrl "upstream URL is malformed")
    | some port =>
      if Unicode.lower parsed.scheme ≠ "https".toList ∨
          normalHost (parsed.hostname.getD []) ∉ allowedHosts.map normalHost ∨
          parsed.username ≠ none ∨ parsed.password ≠ none ∨
            ¬ (port = none ∨ port = some 443) then
        .error (.unsafeUpstreamUrl "upstream URL violates HTTPS origin policy")
      else .ok parsed.bare.geturl

end Urls

/-- `_BoundedBodySink`. -/
structure Sink where
  chunks : List Bytes := []
  size : Nat := 0
  called : Bool := false
  exceeded : Bool := false
  deriving DecidableEq

/-- One call of the sink, with what it returns. -/
def Sink.write (maxBytes : Int) (sink : Sink) (chunk : Bytes) : Sink × Nat :=
  if maxBytes < sink.size + chunk.length then ({ sink with called := true, exceeded := true }, 0)
  else
    ({ sink with called := true, chunks := sink.chunks ++ [chunk],
                 size := sink.size + chunk.length }, chunk.length)

def Sink.body (sink : Sink) : Bytes := sink.chunks.flatten

/-- The calls of a transfer; nothing is assumed of when the client stops. -/
def Sink.writes (maxBytes : Int) (chunks : List Bytes) : Sink :=
  chunks.foldl (fun sink chunk => (sink.write maxBytes chunk).1) {}

structure Response where
  /-- What the transfer hands to the callback. -/
  chunks : List Bytes
  /-- `_fallback_response_body`. -/
  content : Bytes
  /-- `int` of the header, if it has one. -/
  contentLength : Option Int
  url : Str
  statusCode : Int
  location : Option Str
  deriving DecidableEq

inductive Answer where
  | raised (chunks : List Bytes)
  | answered (response : Response)
  deriving DecidableEq

def declaredLength (response : Response) : Option Int :=
  response.contentLength.filter fun value => 0 ≤ value

structure BoundedHttpResponse where
  response : Response
  body : Bytes
  finalUrl : Str
  deriving DecidableEq

/-- `sink.body() if sink.called else _fallback_response_body(response)`. -/
def bodyOf (maxBytes : Int) (response : Response) : Bytes :=
  let sink := Sink.writes maxBytes response.chunks
  if sink.called then sink.body else response.content

/-- The answer to one request, within the bound. -/
def received (maxBytes : Int) : Answer → Except Failure (Response × Bytes)
  | .raised chunks =>
    if (Sink.writes maxBytes chunks).exceeded then .error (.upstreamBodyTooLarge maxBytes)
      else .error .transport
  | .answered response =>
    if (Sink.writes maxBytes response.chunks).exceeded then .error (.upstreamBodyTooLarge maxBytes)
    else if (declaredLength response).any fun declared => maxBytes < declared then
      .error (.upstreamBodyTooLarge maxBytes)
    else if maxBytes < (bodyOf maxBytes response).length then
      .error (.upstreamBodyTooLarge maxBytes)
    else .ok (response, bodyOf maxBytes response)

section Following
variable [Unicode] [UrlText] (urljoin : Str → Str → Str)
  (session : List Str → Answer) (allowedHosts : List Str) (maxBytes : Int)

/-- One request of `get_bounded`. -/
def fetched (requested : List Str) (current : Str) : Except Failure BoundedHttpResponse := do
  let (response, body) ← received maxBytes (session requested)
  let finalUrl ← validateHttpsUrl allowedHosts
    (if response.url ≠ [] then response.url else current)
  pure { response := response, body := body, finalUrl := finalUrl }

/-- Where a redirect goes. -/
def redirected (got : BoundedHttpResponse) : Except Failure Str :=
  let location := got.response.location.getD []
  if location = [] then .error (.unsafeUpstreamUrl "upstream redirect omitted Location")
  else validateHttpsUrl allowedHosts (urljoin got.finalUrl location)

/-- The loop of `get_bounded` with so many redirects left, and all that it has requested. -/
def follow : Nat → List Str → Str → List Str × Except Failure BoundedHttpResponse
  | redirects, requested, current =>
    match fetched session allowedHosts maxBytes (requested ++ [current]) current with
    | .error failure => (requested ++ [current], .error failure)
    | .ok got =>
      if got.response.statusCode ∉ redirectStatuses then (requested ++ [current], .ok got)
      else
        match redirects with
        | 0 => (requested ++ [current],
            .error (.unsafeUpstreamUrl "upstream redirect limit exceeded"))
        | redirects + 1 =>
          match redirected urljoin allowedHosts got with
          | .error failure => (requested ++ [current], .error failure)
          | .ok next => follow redirects (requested ++ [current]) next

/-- `get_bounded`. -/
def getBounded (url : Str) (maxRedirects : Int) : List Str × Except Failure BoundedHttpResponse :=
  if maxBytes < 1 then ([], .error (.valueError "max_bytes must be >= 1"))
  else if maxRedirects < 0 then ([], .error (.valueError "max_redirects must be >= 0"))
  else
    match validateHttpsUrl allowedHosts url with
    | .error failure => ([], .error failure)
    | .ok current => follow urljoin session allowedHosts maxBytes maxRedirects.toNat [] current

end Following

/-- The loop of `request_httpx_bounded` over the chunks of a response. -/
def buffered (maxBytes : Int) : Bytes → List Bytes → Except Failure Bytes
  | body, [] => .ok body
  | body, chunk :: chunks =>
    if maxBytes < body.length + chunk.length then .error (.upstreamBodyTooLarge maxBytes)
    else buffered maxBytes (body ++ chunk) chunks

/-- `request_httpx_bounded`, the body of its response. -/
def requestHttpxBounded (maxBytes : Int) (response : Response) : Except Failure Bytes :=
  if maxBytes < 1 then .error (.valueError "max_bytes must be >= 1")
  else if (declaredLength response).any fun declared => maxBytes < declared then
    .error (.upstreamBodyTooLarge maxBytes)
  else buffered maxBytes [] response.chunks

end SharpEvPicks.Ingestion.HttpSafety
