import SharpEvPicks.Python.Bytes
import SharpEvPicks.Python.Format

/-! The request-body cap of `app/api/request_limits.py`. -/
namespace SharpEvPicks.Api

open Python

/-- An ASGI message; an absent key is `none`. -/
structure Message where
  type : Str
  body : Option Bytes := none
  moreBody : Option Bool := none
  deriving DecidableEq, Repr

inductive Sent where
  | start (status : Nat) (headers : List (Bytes × Bytes))
  | body (body : Bytes)
  deriving DecidableEq, Repr

structure Scope where
  type : Str
  headers : List (Bytes × Bytes) := []

def maxRequestBodyBytes : Nat := 64 * 1024

def requestTooLargeBody : Bytes := asciiBytes "\x7b\"detail\":\"request body too large\"\x7d".toList

/-- The constructor refuses a cap below 1. -/
structure RequestBodyLimitMiddleware where
  maxBodyBytes : Nat := maxRequestBodyBytes
  positive : 1 ≤ maxBodyBytes

namespace RequestBodyLimitMiddleware

/-- `_send_too_large`. -/
def sendTooLarge : List Sent :=
  [.start 413
      [(asciiBytes "content-type".toList, asciiBytes "application/json".toList),
        (asciiBytes "content-length".toList, asciiBytes (natText requestTooLargeBody.length))],
    .body requestTooLargeBody]

def rawLengths (headers : List (Bytes × Bytes)) : List Bytes :=
  (headers.filter fun header => Bytes.lower header.1 = asciiBytes "content-length".toList).map
    fun header => Bytes.strip header.2

def declaredBodyIsTooLarge (m : RequestBodyLimitMiddleware) (scope : Scope) : Bool :=
  match rawLengths scope.headers with
  | [] => false
  | [value] =>
    if !Bytes.isDigit value then true
    else (Bytes.intOfDigits value).elim true fun length => m.maxBodyBytes < length
  | _ => true

inductive Buffered where
  /-- `receive` has not returned the end of the request yet. -/
  | waiting
  | tooLarge
  | complete (messages : List Message)
  deriving DecidableEq, Repr

/-- The reading loop: `messages` are read and hold `bodyBytes`; `incoming` is what `receive` returns
next. -/
def buffer (cap : Nat) (messages : List Message) (bodyBytes : Nat) : List Message → Buffered
  | [] => .waiting
  | message :: incoming =>
    let messages := messages ++ [message]
    if message.type = "http.disconnect".toList then .complete messages
    else if message.type ≠ "http.request".toList then buffer cap messages bodyBytes incoming
    else
      let bodyBytes := bodyBytes + (message.body.getD []).length
      if cap < bodyBytes then .tooLarge
      else if !message.moreBody.getD false then .complete messages
      else buffer cap messages bodyBytes incoming

/-- What the inner app is called with: the server's own `receive` or a replay. -/
inductive Receive where
  | original
  | replay (messages : List Message)
  deriving DecidableEq, Repr

/-- What a request led to so far. -/
structure Effect where
  sent : List Sent := []
  inner : Option Receive := none
  deriving DecidableEq, Repr

def refusal : Effect := { sent := sendTooLarge }

def Buffered.effect : Buffered → Effect
  | .waiting => {}
  | .tooLarge => refusal
  | .complete messages => { inner := some (.replay messages) }

/-- `__call__`. -/
def call (m : RequestBodyLimitMiddleware) (scope : Scope) (incoming : List Message) : Effect :=
  if scope.type ≠ "http".toList then { inner := some .original }
  else if m.declaredBodyIsTooLarge scope then refusal
  else (buffer m.maxBodyBytes [] 0 incoming).effect

/-- The closure `replay_receive`. -/
structure Replay where
  messages : List Message
  nextMessage : Nat := 0

def replayReceive (r : Replay) : Message × Replay :=
  match r.messages[r.nextMessage]? with
  | some message => (message, { r with nextMessage := r.nextMessage + 1 })
  | none => ({ type := "http.request".toList, body := some [], moreBody := some false }, r)

/-- The first `n` messages that the inner app receives. -/
def received : Nat → Replay → List Message
  | 0, _ => []
  | n + 1, r => (replayReceive r).1 :: received n (replayReceive r).2

end RequestBodyLimitMiddleware

end SharpEvPicks.Api
