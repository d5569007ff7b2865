import Atasks.Codec
import Atasks.Lib.Effect
import Atasks.Lib.Signature
import Atasks.Registry
/-!
# Handling a message

`atasks/router.py:323-456`: `_on_request`, `_on_event`, `_on_broadcast` and `_call_coro`. They
run in one task, which is theirs until the coroutine is done, so each is a computation over
the task's context and the rest of the world; what the coroutine does with the latter is up
to it.

| here | there |
| --- | --- |
| `Coroutine`      | a coroutine function; `id` tells which one it is |
| `Python`         | exception objects, and those the code raises itself |
| `Service`        | what the router and its namespace hold |
| `World`          | the task's context and everything else; `invocations` and `logged` are observed only |
| `entered`, `framed` | `try: … finally:` around `trace.enter` and `ENTRY_FRAME.set` |
| `outcome`        | what `_call_coro` makes of the coroutine's end (`:448-456`) |
-/

namespace Atasks.Router

open Trace (AtaskHop Context Exceptions FrameId Process Settings attach formatTrace)

/-- What the code raises on its own account, or lets the language raise. -/
inductive LibraryError
  | noClientTransportRegistered
  | noCodecRegistered
  | jobNotFound (name : String)
  | transportError
  | unknownRequestName (name : String)
  | requestTimeoutError (name : String)
  | ataskStackTooDeep (message : String)
  /-- `argv, kwargs, trace_chain = …` and `success, result = …` of something else. -/
  | unpacking
  /-- `TypeError`: a call of `function` whose arguments do not fit. -/
  | arguments (function : String) (e : Signature.BindError)
  /-- `TypeError`: a message body that is no bytes. -/
  | messageBody
deriving DecidableEq, Repr

structure Python (ε : Type) extends Exceptions ε where
  /-- `isinstance(ex, Exception)`. -/
  isException : ε → Bool
  /-- `isinstance(ex, asyncio.TimeoutError)`. -/
  isTimeout : ε → Bool
  timeout_isException : ∀ ex, isTimeout ex = true → isException ex = true
  lib : LibraryError → ε

/-- How a coroutine ends; an exception comes with its traceback. -/
inductive Finished (ν ε : Type)
  | returned (value : ν)
  | raised (ex : ε) (tb : Option (List (Trace.Frame × Nat)))

structure Coroutine (ν ε ω : Type) where
  id : Nat
  run : Context → List ν → Dict String ν → ω → Finished ν ε × ω

/-- A registered atask, with the `timeout` of its options. -/
structure Item (ν ε ω : Type) where
  coro : Coroutine ν ε ω
  timeout : Option Nat

structure Invocation (ν : Type) where
  coro : Nat
  argv : List ν
  kwargs : Dict String ν

structure World (ν ω : Type) where
  context : Context
  invocations : List (Invocation ν)
  logged : List String
  rest : ω

structure Service (ν ε ω : Type) where
  python : Python ε
  router : Settings
  process : Process
  codec : Option (Codec ν ε)
  registries : Kind → Manager (Item ν ε ω)

variable {ν ε ω β : Type}

/-- Runs a computation that may raise. -/
def lift {σ : Type} : Except ε β → EStateM ε σ β
  | .ok b => pure b
  | .error ex => throw ex

def entered (chain : List AtaskHop) (body : EStateM ε (World ν ω) β) :
    EStateM ε (World ν ω) β := fun w =>
  let (token, context) := Trace.enter w.context chain
  match body { w with context } with
  | .ok b w' => .ok b { w' with context := Trace.leave w'.context token }
  | .error ex w' => .error ex { w' with context := Trace.leave w'.context token }

def framed (frame : FrameId) (body : EStateM ε (World ν ω) β) : EStateM ε (World ν ω) β := fun w =>
  let (token, context) := Trace.enterFrame w.context frame
  match body { w with context } with
  | .ok b w' => .ok b { w' with context := Trace.leaveFrame w'.context token }
  | .error ex w' => .error ex { w' with context := Trace.leaveFrame w'.context token }

namespace Service

variable (service : Service ν ε ω)

/-- Anything but an `Exception` goes through. -/
def outcome (context : Context) : Finished ν ε → Except ε (Outcome ν ε)
  | .returned value => .ok (.returned value)
  | .raised ex tb =>
    if service.python.isException ex then
      match attach service.python.toExceptions ex tb service.router service.process context with
      | .ok ex => .ok (.raised ex)
      | .error ex => .error ex
    else .error ex

def callCoro (frame : FrameId) (coro : Coroutine ν ε ω) (argv : List ν) (kwargs : Dict String ν) :
    EStateM ε (World ν ω) (Outcome ν ε) :=
  framed frame fun w =>
    let (finished, rest) := coro.run w.context argv kwargs w.rest
    let w' : World ν ω := { w with invocations := w.invocations ++ [⟨coro.id, argv, kwargs⟩], rest }
    match service.outcome w.context finished with
    | .ok outcome => .ok outcome w'
    | .error ex => .error ex w'

/-- The head of the three callbacks: the codec, what it decodes, the item of that name. -/
def received (kind : Kind) (name : String) (content : Option Bytes) :
    EStateM ε (World ν ω) (Codec ν ε × Item ν ε ω × List ν × Dict String ν × List AtaskHop) := do
  match service.codec with
  | none => throw (service.python.lib .noCodecRegistered)
  | some codec =>
    match ← lift (codec.decode content) with
    | some (.call argv kwargs traceChain) =>
      match (service.registries kind).get name with
      | some item => return (codec, item, argv, kwargs, traceChain)
      | none => throw (service.python.lib (.jobNotFound name))
    | _ => throw (service.python.lib .unpacking)

def onRequest (frame : FrameId) (name : String) (content : Option Bytes) :
    EStateM ε (World ν ω) (Option Bytes) := do
  let (codec, item, argv, kwargs, traceChain) ← service.received .rpc name content
  let outcome ← entered traceChain (service.callCoro frame item.coro argv kwargs)
  lift (codec.encode (.response outcome))

/-- A failure ends in the log. -/
def onPublished (kind : Kind) (title : String) (frame : FrameId) (name : String)
    (content : Option Bytes) :
    EStateM ε (World ν ω) Unit := do
  let (_, item, argv, kwargs, traceChain) ← service.received kind name content
  match ← entered traceChain (service.callCoro frame item.coro argv kwargs) with
  | .returned _ => pure ()
  | .raised ex =>
    let text ← lift (formatTrace service.python.toExceptions service.process ex)
    modify fun w =>
      { w with logged := w.logged ++ [title ++ " " ++ name ++ " raised an exception:\n" ++ text] }

def onEvent (frame : FrameId) (name : String) (content : Option Bytes) :
    EStateM ε (World ν ω) Unit :=
  service.onPublished .queue "Queue task" frame name content

def onBroadcast (frame : FrameId) (name : String) (content : Option Bytes) :
    EStateM ε (World ν ω) Unit :=
  service.onPublished .broadcast "Broadcast task" frame name content

end Service

/-! ## What a handled message comes to -/

/-- The coroutine's own end, up to the trace put on its exception. -/
def Same (exceptions : Exceptions ε) : Finished ν ε → Outcome ν ε → Prop
  | .returned value, .returned value' => value' = value
  | .raised ex _, .raised ex' => ex' = ex ∨ ∃ trace, exceptions.setTrace ex trace = .done ex'
  | _, _ => False

theorem attach_same {exceptions : Exceptions ε} {ex ex' : ε}
    {tb : Option (List (Trace.Frame × Nat))} {router : Settings} {process : Process}
    {context : Context} (h : attach exceptions ex tb router process context = .ok ex') :
    ex' = ex ∨ ∃ trace, exceptions.setTrace ex trace = .done ex' := by
  unfold attach at h
  split at h
  · cases h; exact Or.inl rfl
  · split at h
    · rename_i heq
      cases h
      exact Or.inr ⟨_, heq⟩
    · cases h; exact Or.inl rfl
    · cases h

/-- The world after a coroutine has run once. -/
def World.ran (w : World ν ω) (coro : Coroutine ν ε ω) (context : Context) (argv : List ν)
    (kwargs : Dict String ν) : World ν ω :=
  { w with
    invocations := w.invocations ++ [⟨coro.id, argv, kwargs⟩]
    rest := (coro.run context argv kwargs w.rest).2 }

namespace Service

variable {service : Service ν ε ω}

theorem outcome_same {context : Context} {finished : Finished ν ε} {o : Outcome ν ε}
    (h : service.outcome context finished = .ok o) :
    Same service.python.toExceptions finished o := by
  cases finished with
  | returned value => cases h; rfl
  | raised ex tb =>
    simp only [outcome] at h
    split at h
    · split at h
      · rename_i hattach
        cases h
        exact attach_same hattach
      · cases h
    · cases h

theorem received_eq {kind : Kind} {name : String} {content : Option Bytes} {codec : Codec ν ε}
    {argv : List ν} {kwargs : Dict String ν} {traceChain : List AtaskHop} {item : Item ν ε ω}
    (hcodec : service.codec = some codec)
    (hdecode : codec.decode content = .ok (some (.call argv kwargs traceChain)))
    (hitem : (service.registries kind).get name = some item) (w : World ν ω) :
    service.received kind name content w = .ok (codec, item, argv, kwargs, traceChain) w := by
  simp only [received, hcodec, hdecode, hitem]
  rfl

/-- The coroutine runs once, in the context that came with the message; the task's own is back
afterwards. -/
theorem entered_callCoro_eq (frame : FrameId) (coro : Coroutine ν ε ω) (argv : List ν)
    (kwargs : Dict String ν) (traceChain : List AtaskHop) (w : World ν ω) :
    entered traceChain (service.callCoro frame coro argv kwargs) w =
      match service.outcome ⟨traceChain, some frame⟩
      (coro.run ⟨traceChain, some frame⟩ argv kwargs w.rest).1 with
      | .ok o => .ok o (w.ran coro ⟨traceChain, some frame⟩ argv kwargs)
      | .error ex => .error ex (w.ran coro ⟨traceChain, some frame⟩ argv kwargs) := by
  simp only [entered, callCoro, framed, Trace.enter, Trace.leave, Trace.enterFrame,
    Trace.leaveFrame]
  cases service.outcome ⟨traceChain, some frame⟩
    (coro.run ⟨traceChain, some frame⟩ argv kwargs w.rest).1 <;> rfl

/-- The response to a request, or what is raised instead. -/
def answer (service : Service ν ε ω) (codec : Codec ν ε) (context : Context)
    (finished : Finished ν ε) :
    Except ε (Option Bytes) :=
  match service.outcome context finished with
  | .ok o => codec.encode (.response o)
  | .error ex => .error ex

theorem onRequest_eq {name : String} {content : Option Bytes} {codec : Codec ν ε} {argv : List ν}
    {kwargs : Dict String ν} {traceChain : List AtaskHop} {item : Item ν ε ω}
    (hcodec : service.codec = some codec)
    (hdecode : codec.decode content = .ok (some (.call argv kwargs traceChain)))
    (hitem : (service.registries .rpc).get name = some item) (frame : FrameId) (w : World ν ω) :
    service.onRequest frame name content w =
      match service.answer codec ⟨traceChain, some frame⟩
      (item.coro.run ⟨traceChain, some frame⟩ argv kwargs w.rest).1 with
      | .ok response => .ok response (w.ran item.coro ⟨traceChain, some frame⟩ argv kwargs)
      | .error ex => .error ex (w.ran item.coro ⟨traceChain, some frame⟩ argv kwargs) := by
  have hentered : entered traceChain (service.callCoro frame item.coro argv kwargs) w = _ :=
    entered_callCoro_eq ..
  rw [onRequest, Effect.bind_of_ok (received_eq hcodec hdecode hitem w), answer]
  cases houtcome : service.outcome ⟨traceChain, some frame⟩
    (item.coro.run ⟨traceChain, some frame⟩ argv kwargs w.rest).1 with
  | error ex =>
    rw [houtcome] at hentered
    exact Effect.bind_of_error hentered
  | ok o =>
    rw [houtcome] at hentered
    simp only [Effect.bind_of_ok hentered]
    cases codec.encode (.response o) <;> rfl

/-- An event or broadcast: the failure is written to the log, if it can be. -/
theorem onPublished_eq {kind : Kind} {title name : String} {content : Option Bytes}
    {codec : Codec ν ε} {argv : List ν} {kwargs : Dict String ν} {traceChain : List AtaskHop}
    {item : Item ν ε ω} (hcodec : service.codec = some codec)
    (hdecode : codec.decode content = .ok (some (.call argv kwargs traceChain)))
    (hitem : (service.registries kind).get name = some item) (frame : FrameId) (w : World ν ω) :
    service.onPublished kind title frame name content w =
      match service.outcome ⟨traceChain, some frame⟩
      (item.coro.run ⟨traceChain, some frame⟩ argv kwargs w.rest).1 with
      | .ok (.returned _) => .ok () (w.ran item.coro ⟨traceChain, some frame⟩ argv kwargs)
      | .ok (.raised ex) =>
        match formatTrace service.python.toExceptions service.process ex with
        | .ok text =>
          .ok () { w.ran item.coro ⟨traceChain, some frame⟩ argv kwargs with
            logged := w.logged ++ [title ++ " " ++ name ++ " raised an exception:\n" ++ text] }
        | .error ex => .error ex (w.ran item.coro ⟨traceChain, some frame⟩ argv kwargs)
      | .error ex => .error ex (w.ran item.coro ⟨traceChain, some frame⟩ argv kwargs) := by
  have hentered : entered traceChain (service.callCoro frame item.coro argv kwargs) w = _ :=
    entered_callCoro_eq ..
  rw [onPublished, Effect.bind_of_ok (received_eq hcodec hdecode hitem w)]
  cases houtcome : service.outcome ⟨traceChain, some frame⟩
    (item.coro.run ⟨traceChain, some frame⟩ argv kwargs w.rest).1 with
  | error ex =>
    rw [houtcome] at hentered
    exact Effect.bind_of_error hentered
  | ok o =>
    rw [houtcome] at hentered
    simp only [Effect.bind_of_ok hentered]
    cases o with
    | returned value => rfl
    | raised ex =>
      cases htext : formatTrace service.python.toExceptions service.process ex <;>
        simp only [lift, htext] <;> rfl

end Service

end Atasks.Router
