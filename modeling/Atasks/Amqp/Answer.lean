import Atasks.Router.Handle
/-!
# Answering a request

`atasks/transport/backends/amqp.py:305-333`: `_on_message` of a request consumer. The message
is acknowledged, the router's callback runs, and what it returns is published. Whatever is
raised on the way is logged and goes no further, so an outcome that cannot be encoded is
never heard of: `PickleCodec.encode` returns `None` (`atasks/codecs.py:68-75`), the message
is refused as a body, and the caller waits.

| here | there |
| --- | --- |
| `Request`   | what `_on_message` reads of an incoming message |
| `Response`  | a message published on the response exchange |
| `Channel`   | the world of the handler, and what went out of `_on_message` |
| `publish`   | `_response_exchange.publish`, which raises or not |
-/

namespace Atasks.Amqp.Answer

open Router (Python World Service Item Finished LibraryError Same)
open Trace (AtaskHop FrameId)

structure Request where
  body : Bytes
  replyTo : String
  correlationId : String
deriving DecidableEq, Repr

structure Response where
  routingKey : String
  correlationId : String
  body : Bytes
deriving DecidableEq, Repr

structure Channel (ν ε ω : Type) where
  world : World ν ω
  responses : List Response
  /-- The arguments `_fail_awaiting_requests` was called with. -/
  failedAwaiting : List ε

variable {ν ε ω : Type}

/-- `aio_pika.Message(...)` wants bytes. -/
def message (python : Python ε) (request : Request) : Option Bytes → Except ε Response
  | some body => .ok ⟨request.replyTo, request.correlationId, body⟩
  | none => .error (python.lib .messageBody)

/-- `publish(aio_pika.Message(...))`. -/
def published (python : Python ε) (publish : Response → Except ε Unit) (request : Request)
    (body : Option Bytes) :
    Except ε Response :=
  match message python request body with
  | .error ex => .error ex
  | .ok response =>
    match publish response with
    | .ok () => .ok response
    | .error ex => .error ex

def onMessage (python : Python ε) (publish : Response → Except ε Unit)
    (callback : Option Bytes → EStateM ε (World ν ω) (Option Bytes)) (request : Request) :
    EStateM ε (Channel ν ε ω) Unit := fun s =>
  match callback (some request.body) s.world with
  | .error ex world =>
    if python.isException ex then .ok () { s with world } else .error ex { s with world }
  | .ok body world =>
    match published python publish request body with
    | .ok response => .ok () { s with world, responses := s.responses ++ [response] }
    | .error ex =>
      if python.isException ex then .ok ()
        { s with world, failedAwaiting := s.failedAwaiting ++ [ex] }
      else .error ex { s with world }

/-- The channel afterwards. -/
def after {β : Type} : EStateM.Result ε (Channel ν ε ω) β → Channel ν ε ω
  | .ok _ s => s
  | .error _ s => s

/-- What `_on_message` sends out. -/
theorem responses_onMessage (python : Python ε) (publish : Response → Except ε Unit)
    (callback : Option Bytes → EStateM ε (World ν ω) (Option Bytes)) (request : Request)
    (s : Channel ν ε ω) :
    (after (onMessage python publish callback request s)).responses =
      s.responses ++
        match callback (some request.body) s.world with
        | .ok body _ =>
          match published python publish request body with
          | .ok response => [response]
          | .error _ => []
        | .error _ _ => [] := by
  unfold onMessage
  cases callback (some request.body) s.world with
  | error ex world => cases h : python.isException ex <;> simp [after, h]
  | ok body world =>
    cases hp : published python publish request body with
    | ok response => simp [after, hp]
    | error ex => cases h : python.isException ex <;> simp [after, h, hp]

/-! ## Every finished handler answers its caller -/

/-- Some encoding of this end exists. -/
def Encodable (service : Service ν ε ω) (codec : Codec ν ε) (finished : Finished ν ε) : Prop :=
  ∃ o, Same service.python.toExceptions finished o ∧ ∃ body,
    codec.encode (.response o) = .ok (some body)

/-- Exactly one response has gone out, to the caller, and it decodes to how the handler ended,
or to some error where that cannot be encoded. -/
def Answers (service : Service ν ε ω) (codec : Codec ν ε) (request : Request)
    (finished : Finished ν ε) (s s' : Channel ν ε ω) : Prop :=
  ∃ body o, s'.responses = s.responses ++ [⟨request.replyTo, request.correlationId, body⟩] ∧
    codec.decode (some body) = .ok (some (.response o)) ∧
    (Same service.python.toExceptions finished o ∨ ¬ Encodable service codec finished ∧ ∃ ex,
      o = .raised ex)

/-- The codec turns the outcome into bytes, and these into how the handler ended. -/
def Encodes (service : Service ν ε ω) (codec : Codec ν ε) (context : Trace.Context)
    (finished : Finished ν ε) : Prop :=
  ∃ outcome body o, service.outcome context finished = .ok outcome ∧
    codec.encode (.response outcome) = .ok (some body) ∧
    codec.decode (some body) = .ok (some (.response o)) ∧
      Same service.python.toExceptions finished o

theorem answer_eq_iff {service : Service ν ε ω} {codec : Codec ν ε} {context : Trace.Context}
    {finished : Finished ν ε} {body : Bytes} :
    service.answer codec context finished = .ok (some body) ↔
      ∃ outcome, service.outcome context finished = .ok outcome ∧
      codec.encode (.response outcome) = .ok (some body) := by
  unfold Service.answer
  cases service.outcome context finished with
  | ok o => simp
  | error ex => simp

theorem encodable_of_answer {service : Service ν ε ω} {codec : Codec ν ε} {context : Trace.Context}
    {finished : Finished ν ε} {body : Bytes}
    (h : service.answer codec context finished = .ok (some body)) :
    Encodable service codec finished := by
  obtain ⟨o, ho, hencode⟩ := answer_eq_iff.1 h
  exact ⟨o, Service.outcome_same ho, body, hencode⟩

/-- Without bytes to send the outcome has not been encoded. -/
theorem not_encodes {service : Service ν ε ω} {codec : Codec ν ε} {context : Trace.Context}
    {finished : Finished ν ε}
    (h : ∀ body, service.answer codec context finished ≠ .ok (some body)) :
    ¬ Encodes service codec context finished := by
  rintro ⟨o, body, -, ho, hencode, -⟩
  exact h body (answer_eq_iff.2 ⟨o, ho, hencode⟩)

/-- What goes out for an answer. -/
def sentFor (request : Request) : Except ε (Option Bytes) → List Response
  | .ok (some body) => [⟨request.replyTo, request.correlationId, body⟩]
  | _ => []

/-- Exceptions that accept a trace; `none` is one of the library's. -/
def demoPython : Python (Option LibraryError) :=
  ⟨⟨fun _ => none, fun ex _ => .done ex, fun _ => "", fun _ => .ok ""⟩, fun _ => true, fun _ =>
    false, fun _ _ => rfl, some⟩

/-- `pickle` without closures: the value `true` stands for one. -/
def demoCodec : Codec Bool (Option LibraryError) :=
  PickleCodec
    (fun
      | .call _ _ _ => .ok [0]
      | .response (.returned false) => .ok [1]
      | .response _ => .error none)
    (fun content =>
      if content = some [0] then .ok (some (.call [] .empty []))
      else if content = some [1] then .ok (some (.response (.returned false)))
      else .error none)

/-- An atask that returns `value`. -/
def demoItem (value : Bool) : Item Bool (Option LibraryError) Unit :=
    ⟨⟨0, fun _ _ _ rest => (.returned value, rest)⟩, none⟩

def demoService (value : Bool) : Service Bool (Option LibraryError) Unit :=
  { python := demoPython
    router := ⟨"default", "a", 1000, [], false⟩
    process := ⟨1, "/", fun _ => [], id, fun _ _ => "", fun _ => ""⟩
    codec := some demoCodec
    registries := fun _ => ⟨"default", Dict.empty.set "m.f" (demoItem value)⟩ }

def demoChannel : Channel Bool (Option LibraryError) Unit := ⟨⟨.empty, [], [], ()⟩, [], []⟩

end Atasks.Amqp.Answer
