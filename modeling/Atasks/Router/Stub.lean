import Atasks.Router.Handle
import Atasks.Router.Settled
/-!
# Calling an atask on the loopback

What a decorator returns (`atasks/router.py:458-557`) and what a lightweight ref yields
(`atasks/refs.py:55-107`), down to the coroutine and back: the hop, `Router.send_…`, the
codec, the namespace's `LoopbackTransport` (`atasks/transport/base.py:313-375`), the router's
callback, the coroutine. User keywords travel in the same `**kwargs` as the stub's own, so
those that are parameter names of `Router.send_…` do not get through.

| here | there |
| --- | --- |
| `Namespace`   | what is registered in the namespace; `waitFor` is `asyncio.wait_for` |
| `Namespace.callback` | the closures of `_activate_request`, `_activate_queue`, `_activate_broadcast` |
| `sendRequestSignature`, `sendPublishedSignature` | the parameter lists of `send_request`; of `send_event` and `send_broadcast` |
| `requestStub`, `eventStub`, `broadcastStub` | the closures `aioref` and `ref`, which differ in where the timeout comes from |
-/

namespace Atasks.Router

open Trace (AtaskHop CallSite Context FrameId pushHop)

structure Namespace (ν ε ω : Type) extends Service ν ε ω where
  transport : Option (Loopback Callback)
  waitFor : Nat → EStateM ε (World ν ω) (Option Bytes) → EStateM ε (World ν ω) (Option Bytes)

def sendRequestSignature : Signature :=
  { positional := ["self", "name"], varArgs := true, keywordOnly := ["timeout", "trace_chain"]
    defaults := ["timeout", "trace_chain"], varKeywords := true }

def sendPublishedSignature : Signature :=
  { positional := ["self", "name"], varArgs := true, keywordOnly := ["trace_chain"], defaults := ["trace_chain"]
    varKeywords := true }

namespace Namespace

variable {ν ε ω : Type} (n : Namespace ν ε ω)

/-! ## The transport -/

def callback (frame : FrameId) (callback : Callback) (content : Option Bytes) :
    EStateM ε (World ν ω) (Option Bytes) :=
  match callback.kind with
  | .rpc => n.onRequest frame callback.name content
  | .queue => do n.onEvent frame callback.name content; return none
  | .broadcast => do n.onBroadcast frame callback.name content; return none

/-- `except asyncio.TimeoutError: raise RequestTimeoutError(name) from None`. -/
def timedOut (name : String) (ex : ε) : ε :=
  if n.python.isTimeout ex then n.python.lib (.requestTimeoutError name) else ex

/-- `LoopbackTransport.send_request`. -/
def loopbackRequest (client : Loopback Callback) (frame : FrameId) (name : String)
    (content : Option Bytes) (timeout : Option Nat) : EStateM ε (World ν ω) (Option Bytes) :=
  match client.requestCallbacks.get? name with
  | none => throw (n.python.lib (.unknownRequestName name))
  | some callback => fun w =>
    let response :=
      match timeout with
      | some timeout => n.waitFor timeout (n.callback frame callback content)
      | none => n.callback frame callback content
    match response w with
    | .ok response w' => .ok response w'
    | .error ex w' => .error (n.timedOut name ex) w'

/-- `LoopbackTransport.publish_event`. -/
def loopbackEvent (client : Loopback Callback) (frame : FrameId) (name : String)
    (content : Option Bytes) :
    EStateM ε (World ν ω) Unit :=
  match client.eventCallbacks.get? name with
  | none => pure ()
  | some callback => do discard (n.callback frame callback content)

/-- `LoopbackTransport.publish_broadcast`. -/
def loopbackBroadcast (client : Loopback Callback) (frame : FrameId) (name : String)
    (content : Option Bytes) :
    EStateM ε (World ν ω) Unit :=
  ((client.broadcastCallbacks.get? name).getD []).forM fun callback =>
    discard (n.callback frame callback content)

/-! ## The router -/

/-- The call `router.send_…(name, *argv, …, **kwargs)` is accepted, or a `TypeError` is raised. -/
def checkArguments (function : String) (sig : Signature) (given : List String) (argv : List ν)
    (kwargs : Dict String ν) :
    EStateM ε (World ν ω) Unit :=
  match sig.bindError (2 + argv.length) (given ++ kwargs.keys) with
  | none => pure ()
  | some e => throw (n.python.lib (.arguments function e))

def client : EStateM ε (World ν ω) (Loopback Callback) :=
  match n.transport with
  | none => throw (n.python.lib .noClientTransportRegistered)
  | some client => pure client

def getCodec : EStateM ε (World ν ω) (Codec ν ε) :=
  match n.codec with
  | none => throw (n.python.lib .noCodecRegistered)
  | some codec => pure codec

/-- What `send_request` makes of a response. -/
def result (codec : Codec ν ε) (response : Option Bytes) : Except ε ν :=
  if response = none ∨ response = some [] then .error (n.python.lib .transportError)
  else
    match codec.decode response with
    | .ok (some (.response (.returned result))) => .ok result
    | .ok (some (.response (.raised result))) => .error result
    | .ok _ => .error (n.python.lib .unpacking)
    | .error ex => .error ex

def sendRequest (frame : FrameId) (name : String) (argv : List ν) (timeout : Option Nat)
    (traceChain : List AtaskHop) (kwargs : Dict String ν) : EStateM ε (World ν ω) ν := do
  n.checkArguments "Router.send_request" sendRequestSignature ["timeout", "trace_chain"] argv kwargs
  let client ← n.client
  let codec ← n.getCodec
  let content ← lift (codec.encode (.call argv kwargs traceChain))
  let response ← n.loopbackRequest client frame name content timeout
  lift (n.result codec response)

/-- `send_event` and `send_broadcast`, which publish in their own way. -/
def sendPublished (function : String)
    (publish : Loopback Callback → Option Bytes → EStateM ε (World ν ω) Unit)
    (argv : List ν) (traceChain : List AtaskHop) (kwargs : Dict String ν) :
    EStateM ε (World ν ω) Unit := do
  n.checkArguments function sendPublishedSignature ["trace_chain"] argv kwargs
  let client ← n.client
  let codec ← n.getCodec
  let content ← lift (codec.encode (.call argv kwargs traceChain))
  publish client content

def sendEvent (frame : FrameId) (name : String) (argv : List ν) (traceChain : List AtaskHop)
    (kwargs : Dict String ν) :
    EStateM ε (World ν ω) Unit :=
  n.sendPublished "Router.send_event" (fun client => n.loopbackEvent client frame name) argv
    traceChain kwargs

def sendBroadcast (frame : FrameId) (name : String) (argv : List ν) (traceChain : List AtaskHop)
    (kwargs : Dict String ν) :
    EStateM ε (World ν ω) Unit :=
  n.sendPublished "Router.send_broadcast" (fun client => n.loopbackBroadcast client frame name) argv
    traceChain kwargs

/-! ## Stubs and refs -/

def hop (site : CallSite) (name : String) (kind : Kind) : EStateM ε (World ν ω) (List AtaskHop) :=
    fun w =>
  match pushHop n.router n.process w.context site name n.router.nspace kind with
  | .ok chain => .ok chain w
  | .error e => .error (n.python.lib (.ataskStackTooDeep e.message)) w

def requestStub (site : CallSite) (frame : FrameId) (name : String) (timeout : Option Nat)
    (argv : List ν) (kwargs : Dict String ν) : EStateM ε (World ν ω) ν := do
  let chain ← n.hop site name .rpc
  n.sendRequest frame name argv timeout chain kwargs

def eventStub (site : CallSite) (frame : FrameId) (name : String) (argv : List ν)
    (kwargs : Dict String ν) :
    EStateM ε (World ν ω) Unit := do
  let chain ← n.hop site name .queue
  n.sendEvent frame name argv chain kwargs

def broadcastStub (site : CallSite) (frame : FrameId) (name : String) (argv : List ν)
    (kwargs : Dict String ν) :
    EStateM ε (World ν ω) Unit := do
  let chain ← n.hop site name .broadcast
  n.sendBroadcast frame name argv chain kwargs

/-- What `@atask` returns; the timeout is an option of the decorator. -/
def atask (site : CallSite) (frame : FrameId) (name : String) (item : Item ν ε ω) (argv : List ν)
    (kwargs : Dict String ν) :
    EStateM ε (World ν ω) ν :=
  n.requestStub site frame name item.timeout argv kwargs

/-- What `ataskref(timeout=…)[name]` is; the timeout is the caller's. -/
def ataskref (site : CallSite) (frame : FrameId) (name : String) (timeout : Option Nat)
    (argv : List ν) (kwargs : Dict String ν) :
    EStateM ε (World ν ω) ν :=
  n.requestStub site frame name timeout argv kwargs

def ataskQueue := n.eventStub

def ataskQref := n.eventStub

def ataskBroadcast := n.broadcastStub

def ataskBref := n.broadcastStub

/-! ## A call that gets through -/

variable {n} {codec : Codec ν ε} {kind : Kind} {name : String} {item : Item ν ε ω} {site : CallSite}
  {frame : FrameId} {argv : List ν} {kwargs : Dict String ν} {w : World ν ω} {chain : List AtaskHop}

/-- The router is active on the namespace's loopback transport, as `activate` leaves it. -/
def Active (n : Namespace ν ε ω) : Prop :=
  ∃ (s : State (Item ν ε ω)) (t : TransportId) (client : Loopback Callback), Settled s ∧
    s.server = some t ∧
    s.transports t = .loopback client ∧ n.transport = some client ∧ n.registries = s.registries

/-- The codec brings this payload back. -/
def RoundTrips (codec : Codec ν ε) (payload : Payload ν ε) : Prop :=
  ∃ content, codec.encode payload = .ok (some content) ∧ codec.decode (some content) = .ok
    (some payload)

/-- A call of a registered atask, and the values the codec meets on its way. -/
structure Ready (n : Namespace ν ε ω) (codec : Codec ν ε) (kind : Kind) (name : String)
    (item : Item ν ε ω) (site : CallSite) (frame : FrameId) (argv : List ν)
    (kwargs : Dict String ν) (w : World ν ω) (chain : List AtaskHop) : Prop where
  active : n.Active
  hcodec : n.codec = some codec
  hitem : (n.registries kind).get name = some item
  depth : pushHop n.router n.process w.context site name n.router.nspace kind = .ok chain
  call : RoundTrips codec (.call argv kwargs chain)
  response : ∀ o, n.outcome ⟨chain, some frame⟩
    (item.coro.run ⟨chain, some frame⟩ argv kwargs w.rest).1 = .ok o →
    RoundTrips codec (.response o)

theorem Active.callbacks (h : n.Active) (hitem : (n.registries kind).get name = some item) :
    ∃ client, n.transport = some client ∧ client.callbacks kind name = [⟨kind, name⟩] := by
  obtain ⟨s, t, client, hsettled, hserver, hclient, htransport, hregistries⟩ := h
  refine ⟨client, htransport, ?_⟩
  simp only [Settled, hserver] at hsettled
  have hname : name ∈ s.names kind := by
    rw [State.names, Manager.mem_names_iff, ← hregistries, hitem]
    rfl
  have hcallbacks := hsettled.2 t kind name
  rwa [hclient, if_pos ⟨rfl, hname⟩] at hcallbacks

/-- Up to the transport: the client that holds the callback, and the message it gets. -/
theorem Ready.message (h : Ready n codec kind name item site frame argv kwargs w chain) :
    ∃ client content, client.callbacks kind name = [⟨kind, name⟩] ∧ n.client w = .ok client w ∧
    n.getCodec w = .ok codec w ∧
      (lift (codec.encode (.call argv kwargs chain)) : EStateM ε (World ν ω) _) w = .ok
        (some content) w ∧
      codec.decode (some content) = .ok (some (.call argv kwargs chain)) := by
  obtain ⟨client, htransport, hcallbacks⟩ := h.active.callbacks h.hitem
  obtain ⟨content, hencode, hdecode⟩ := h.call
  have hclient : n.client w = .ok client w := by simp only [Namespace.client, htransport]; rfl
  have hcodec : n.getCodec w = .ok codec w := by simp only [getCodec, h.hcodec]; rfl
  have hcontent : (lift (codec.encode (.call argv kwargs chain)) : EStateM ε (World ν ω) _) w =
      .ok (some content) w := by
    rw [hencode]; rfl
  exact ⟨client, content, hcallbacks, hclient, hcodec, hcontent, hdecode⟩

theorem hop_eq (h : Ready n codec kind name item site frame argv kwargs w chain) :
    n.hop site name kind w = .ok chain w := by
  simp only [hop, h.depth]

/-- The keywords of a call that get to the coroutine. -/
theorem bindError_request (argv : List ν) (kwargs : Dict String ν) :
    sendRequestSignature.bindError (2 + argv.length) (["timeout", "trace_chain"] ++ kwargs.keys) =
        none ↔
      ∀ k ∈ kwargs.keys, k ∉ ["self", "name", "timeout", "trace_chain"] := by
  have hn : sendRequestSignature.positional.length ≤ 2 + argv.length := Nat.le_add_right 2 _
  rw [Signature.bindError_forward rfl rfl hn (by decide) (by decide) (by decide) kwargs.nodup_keys]
  simp [sendRequestSignature, and_assoc]

theorem bindError_published (argv : List ν) (kwargs : Dict String ν) :
    sendPublishedSignature.bindError (2 + argv.length) (["trace_chain"] ++ kwargs.keys) = none ↔
      ∀ k ∈ kwargs.keys, k ∉ ["self", "name", "trace_chain"] := by
  have hn : sendPublishedSignature.positional.length ≤ 2 + argv.length := Nat.le_add_right 2 _
  rw [Signature.bindError_forward rfl rfl hn (by decide) (by decide) (by decide) kwargs.nodup_keys]
  simp [sendPublishedSignature, and_assoc]

/-- One keyword too many: nothing has happened but the `TypeError`. -/
theorem checkArguments_error {function : String} {sig : Signature} {given : List String}
    {e : Signature.BindError} (h : sig.bindError (2 + argv.length) (given ++ kwargs.keys) = some e)
    (w : World ν ω) :
    n.checkArguments function sig given argv kwargs w = .error
      (n.python.lib (.arguments function e)) w := by
  simp only [checkArguments, h]
  rfl

theorem checkArguments_ok {function : String} {sig : Signature} {given : List String}
    (h : sig.bindError (2 + argv.length) (given ++ kwargs.keys) = none) (w : World ν ω) :
    n.checkArguments function sig given argv kwargs w = .ok () w := by
  simp only [checkArguments, h]
  rfl

theorem loopbackRequest_eq {client : Loopback Callback}
    (h : client.callbacks .rpc name = [⟨.rpc, name⟩]) (content : Option Bytes) (w : World ν ω) :
    n.loopbackRequest client frame name content none w =
      match n.onRequest frame name content w with
      | .ok response w' => .ok response w'
      | .error ex w' => .error (n.timedOut name ex) w' := by
  have hget : client.requestCallbacks.get? name = some ⟨.rpc, name⟩ := by
    simpa [Loopback.callbacks, Option.toList_eq_singleton_iff] using h
  simp only [loopbackRequest, hget, callback]

theorem sendRequest_eq (h : Ready n codec .rpc name item site frame argv kwargs w chain)
    (hbind : sendRequestSignature.bindError (2 + argv.length)
      (["timeout", "trace_chain"] ++ kwargs.keys) = none) :
    n.sendRequest frame name argv none chain kwargs w =
      match n.answer codec ⟨chain, some frame⟩
      (item.coro.run ⟨chain, some frame⟩ argv kwargs w.rest).1 with
      | .error ex => .error (n.timedOut name ex) (w.ran item.coro ⟨chain, some frame⟩ argv kwargs)
      | .ok response =>
        match n.result codec response with
        | .ok v => .ok v (w.ran item.coro ⟨chain, some frame⟩ argv kwargs)
        | .error ex => .error ex (w.ran item.coro ⟨chain, some frame⟩ argv kwargs) := by
  obtain ⟨client, content, hcallbacks, hclient, hcodec, hcontent, hdecode⟩ := h.message
  have hrequest : n.loopbackRequest client frame name (some content) none w = _ :=
    loopbackRequest_eq hcallbacks (some content) w
  rw [Service.onRequest_eq h.hcodec hdecode h.hitem] at hrequest
  rw [sendRequest, Effect.bind_of_ok (checkArguments_ok hbind w), Effect.bind_of_ok hclient,
    Effect.bind_of_ok hcodec,
    Effect.bind_of_ok hcontent]
  cases hanswer : n.answer codec ⟨chain, some frame⟩
    (item.coro.run ⟨chain, some frame⟩ argv kwargs w.rest).1 with
  | error ex =>
    rw [hanswer] at hrequest
    exact Effect.bind_of_error hrequest
  | ok response =>
    rw [hanswer] at hrequest
    rw [Effect.bind_of_ok hrequest]
    cases hresult : n.result codec response <;> simp only [lift, hresult] <;> rfl

/-! ## Transparency -/

/-- The coroutine has run once, with these arguments and in this context. -/
def RanOnce (coro : Coroutine ν ε ω) (context : Context) (argv : List ν) (kwargs : Dict String ν)
    (w w' : World ν ω) : Prop :=
  w'.invocations = w.invocations ++ [⟨coro.id, argv, kwargs⟩] ∧
    w'.rest = (coro.run context argv kwargs w.rest).2

/-- The coroutine has run once, and its result is returned, or its exception raised. -/
def Transparent (n : Namespace ν ε ω) (coro : Coroutine ν ε ω) (context : Context) (argv : List ν)
    (kwargs : Dict String ν) (w : World ν ω) : EStateM.Result ε (World ν ω) ν → Prop
  | .ok v w' => RanOnce coro context argv kwargs w w' ∧
      Same n.python.toExceptions (coro.run context argv kwargs w.rest).1 (.returned v)
  | .error ex w' => RanOnce coro context argv kwargs w w' ∧
      Same n.python.toExceptions (coro.run context argv kwargs w.rest).1 (.raised ex)

/-- The coroutine has run once, and `None` is returned however it ended. -/
def TransparentPublished (coro : Coroutine ν ε ω) (context : Context) (argv : List ν)
    (kwargs : Dict String ν) (w : World ν ω) :
    EStateM.Result ε (World ν ω) Unit → Prop
  | .ok () w' => RanOnce coro context argv kwargs w w'
  | .error _ _ => False

/-- This end of the coroutine gets back to its caller: it is not encoded as the empty string,
which `send_request` takes for no response, and what goes around the codec is the
coroutine's own exception. -/
def Returns (n : Namespace ν ε ω) (codec : Codec ν ε) (name : String) (context : Context)
    (finished : Finished ν ε) : Prop :=
  match n.outcome context finished with
  | .ok o => codec.encode (.response o) = .ok (some []) →
      Same n.python.toExceptions finished (.raised (n.python.lib .transportError))
  | .error ex => Same n.python.toExceptions finished (.raised (n.timedOut name ex))

/-- This end of the coroutine stays with its handler: an exception is one that `_call_coro`
catches, and can be written to the log. -/
def Stays (n : Namespace ν ε ω) (context : Context) (finished : Finished ν ε) : Prop :=
  match n.outcome context finished with
  | .ok (.returned _) => True
  | .ok (.raised ex) => ∃ text, n.python.str ex = .ok text
  | .error _ => False

/-- What a request needs: keywords that `send_request` does not take for its own, and an end that
gets back. -/
def RequestThrough (n : Namespace ν ε ω) (codec : Codec ν ε) (name : String)
    (kwargs : Dict String ν) (context : Context) (finished : Finished ν ε) : Prop :=
  (∀ k ∈ kwargs.keys, k ∉ ["self", "name", "timeout", "trace_chain"]) ∧
    Returns n codec name context finished

/-- What an event or a broadcast needs. -/
def PublishedThrough (n : Namespace ν ε ω) (kwargs : Dict String ν) (context : Context)
    (finished : Finished ν ε) : Prop :=
  (∀ k ∈ kwargs.keys, k ∉ ["self", "name", "trace_chain"]) ∧ Stays n context finished

theorem not_ranOnce_self (coro : Coroutine ν ε ω) (context : Context) (argv : List ν)
    (kwargs : Dict String ν) (w : World ν ω) :
    ¬ RanOnce coro context argv kwargs w w := by
  rintro ⟨h, -⟩
  simp at h

theorem ranOnce_ran (coro : Coroutine ν ε ω) (context : Context) (argv : List ν)
    (kwargs : Dict String ν) (w : World ν ω) :
    RanOnce coro context argv kwargs w (w.ran coro context argv kwargs) := ⟨rfl, rfl⟩

theorem result_of_roundTrips {content : Bytes} {o : Outcome ν ε}
    (hdecode : codec.decode (some content) = .ok (some (.response o))) :
    n.result codec (some content) =
      if content = [] then .error (n.python.lib .transportError)
      else match o with
        | .returned v => .ok v
        | .raised ex => .error ex := by
  simp only [result, hdecode, reduceCtorEq, false_or, Option.some.injEq]
  cases o <;> rfl

/-- **One request.** -/
theorem requestStub_transparent_iff
    (h : Ready n codec .rpc name item site frame argv kwargs w chain) :
    Transparent n item.coro ⟨chain, some frame⟩ argv kwargs w
      (n.requestStub site frame name none argv kwargs w) ↔
      RequestThrough n codec name kwargs ⟨chain, some frame⟩
      (item.coro.run ⟨chain, some frame⟩ argv kwargs w.rest).1 := by
  rw [requestStub, Effect.bind_of_ok (hop_eq h), RequestThrough, ← bindError_request argv kwargs]
  cases hbind : sendRequestSignature.bindError (2 + argv.length)
    (["timeout", "trace_chain"] ++ kwargs.keys) with
  | some e =>
    rw [sendRequest, Effect.bind_of_error (checkArguments_error hbind w)]
    exact iff_of_false (fun ht => not_ranOnce_self _ _ _ _ _ ht.1) (by simp)
  | none =>
    rw [sendRequest_eq h hbind]
    have hran := ranOnce_ran item.coro ⟨chain, some frame⟩ argv kwargs w
    unfold Service.answer Returns
    cases houtcome : n.outcome ⟨chain, some frame⟩
      (item.coro.run ⟨chain, some frame⟩ argv kwargs w.rest).1 with
    | error ex => simp [Transparent, hran]
    | ok o =>
      obtain ⟨content, hencode, hdecode⟩ := h.response o houtcome
      have hsame := Service.outcome_same houtcome
      simp only [hencode, result_of_roundTrips hdecode, Except.ok.injEq,
        Option.some.injEq, true_and]
      by_cases hempty : content = []
      · simp [hempty, Transparent, hran]
      · cases o <;> simp [hempty, Transparent, hran, hsame]

theorem loopbackEvent_eq {client : Loopback Callback}
    (h : client.callbacks .queue name = [⟨.queue, name⟩]) (content : Option Bytes) (w : World ν ω) :
    n.loopbackEvent client frame name content w = n.onEvent frame name content w := by
  have hget : client.eventCallbacks.get? name = some ⟨.queue, name⟩ := by
    simpa [Loopback.callbacks, Option.toList_eq_singleton_iff] using h
  simp only [loopbackEvent, hget, callback]
  cases hevent : n.onEvent frame name content w with
  | ok u w' => exact Effect.bind_of_ok (Effect.bind_of_ok hevent)
  | error ex w' => exact Effect.bind_of_error (Effect.bind_of_error hevent)

theorem loopbackBroadcast_eq {client : Loopback Callback}
    (h : client.callbacks .broadcast name = [⟨.broadcast, name⟩]) (content : Option Bytes)
    (w : World ν ω) :
    n.loopbackBroadcast client frame name content w = n.onBroadcast frame name content w := by
  have hget : (client.broadcastCallbacks.get? name).getD [] = [⟨.broadcast, name⟩] := h
  simp only [loopbackBroadcast, hget, callback]
  cases hevent : n.onBroadcast frame name content w with
  | ok u w' => exact Effect.bind_of_ok (Effect.bind_of_ok (Effect.bind_of_ok hevent))
  | error ex w' => exact Effect.bind_of_error (Effect.bind_of_error (Effect.bind_of_error hevent))

theorem formatTrace_ok_iff (exceptions : Trace.Exceptions ε) (process : Trace.Process) (ex : ε) :
    (∃ text, Trace.formatTrace exceptions process ex = .ok text) ↔ ∃ text,
    exceptions.str ex = .ok text := by
  unfold Trace.formatTrace
  cases exceptions.str ex <;> simp

/-- **One event or broadcast**, whichever way the transport hands it to the router's callback. -/
theorem sendPublished_transparent_iff {title function : String}
    {publish : Loopback Callback → Option Bytes → EStateM ε (World ν ω) Unit}
    (h : Ready n codec kind name item site frame argv kwargs w chain)
    (hpublish : ∀ client : Loopback Callback, client.callbacks kind name = [⟨kind, name⟩] →
      ∀ content, publish client content w = n.onPublished kind title frame name content w) :
    TransparentPublished item.coro ⟨chain, some frame⟩ argv kwargs w
      (n.sendPublished function publish argv chain kwargs w) ↔
      PublishedThrough n kwargs ⟨chain, some frame⟩
      (item.coro.run ⟨chain, some frame⟩ argv kwargs w.rest).1 := by
  rw [PublishedThrough, ← bindError_published argv kwargs]
  cases hbind : sendPublishedSignature.bindError (2 + argv.length) (["trace_chain"] ++ kwargs.keys)
    with
  | some e =>
    rw [sendPublished, Effect.bind_of_error (checkArguments_error hbind w)]
    exact iff_of_false id (by simp)
  | none =>
    obtain ⟨client, content, hcallbacks, hclient, hcodec, hcontent, hdecode⟩ := h.message
    rw [sendPublished, Effect.bind_of_ok (checkArguments_ok hbind w), Effect.bind_of_ok hclient,
      Effect.bind_of_ok hcodec,
      Effect.bind_of_ok hcontent, hpublish client hcallbacks,
        Service.onPublished_eq h.hcodec hdecode h.hitem]
    have hran := ranOnce_ran item.coro ⟨chain, some frame⟩ argv kwargs w
    unfold Stays
    cases n.outcome ⟨chain, some frame⟩ (item.coro.run ⟨chain, some frame⟩ argv kwargs w.rest).1
      with
    | error ex => simp [TransparentPublished]
    | ok o =>
      cases o with
      | returned value => simp [TransparentPublished, hran]
      | raised ex =>
        simp only [← formatTrace_ok_iff n.python.toExceptions n.process ex]
        cases Trace.formatTrace n.python.toExceptions n.process ex with
        | ok text => exact iff_of_true hran ⟨trivial, text, rfl⟩
        | error ex => simp [TransparentPublished]

theorem eventStub_transparent_iff
    (h : Ready n codec .queue name item site frame argv kwargs w chain) :
    TransparentPublished item.coro ⟨chain, some frame⟩ argv kwargs w
      (n.eventStub site frame name argv kwargs w) ↔
      PublishedThrough n kwargs ⟨chain, some frame⟩
      (item.coro.run ⟨chain, some frame⟩ argv kwargs w.rest).1 := by
  rw [eventStub, Effect.bind_of_ok (hop_eq h)]
  exact sendPublished_transparent_iff h fun _ hcallbacks content =>
    loopbackEvent_eq hcallbacks content w

theorem broadcastStub_transparent_iff
    (h : Ready n codec .broadcast name item site frame argv kwargs w chain) :
    TransparentPublished item.coro ⟨chain, some frame⟩ argv kwargs w
      (n.broadcastStub site frame name argv kwargs w) ↔
      PublishedThrough n kwargs ⟨chain, some frame⟩
      (item.coro.run ⟨chain, some frame⟩ argv kwargs w.rest).1 := by
  rw [broadcastStub, Effect.bind_of_ok (hop_eq h)]
  exact sendPublished_transparent_iff h fun _ hcallbacks content =>
    loopbackBroadcast_eq hcallbacks content w

/-- **Transparent stubs.** A decorator's stub and a ref, without a timeout: the coroutine runs
once with the caller's arguments, and its end is the caller's, exactly if no keyword is a
parameter name of `Router.send_request` and the outcome gets back; for queues and broadcasts,
exactly if no keyword is one of `send_event` or `send_broadcast` and the outcome stays. -/
theorem stubs_transparent_iff :
    (Ready n codec .rpc name item site frame argv kwargs w chain → item.timeout = none →
      (Transparent n item.coro ⟨chain, some frame⟩ argv kwargs w
        (n.atask site frame name item argv kwargs w) ↔
          RequestThrough n codec name kwargs ⟨chain, some frame⟩
            (item.coro.run ⟨chain, some frame⟩ argv kwargs w.rest).1) ∧
      (Transparent n item.coro ⟨chain, some frame⟩ argv kwargs w
        (n.ataskref site frame name none argv kwargs w) ↔
          RequestThrough n codec name kwargs ⟨chain, some frame⟩
            (item.coro.run ⟨chain, some frame⟩ argv kwargs w.rest).1)) ∧
    (Ready n codec .queue name item site frame argv kwargs w chain →
      (TransparentPublished item.coro ⟨chain, some frame⟩ argv kwargs w
        (n.ataskQueue site frame name argv kwargs w) ↔
          PublishedThrough n kwargs ⟨chain, some frame⟩
            (item.coro.run ⟨chain, some frame⟩ argv kwargs w.rest).1) ∧
      (TransparentPublished item.coro ⟨chain, some frame⟩ argv kwargs w
        (n.ataskQref site frame name argv kwargs w) ↔
          PublishedThrough n kwargs ⟨chain, some frame⟩
            (item.coro.run ⟨chain, some frame⟩ argv kwargs w.rest).1)) ∧
    (Ready n codec .broadcast name item site frame argv kwargs w chain →
      (TransparentPublished item.coro ⟨chain, some frame⟩ argv kwargs w
        (n.ataskBroadcast site frame name argv kwargs w) ↔
          PublishedThrough n kwargs ⟨chain, some frame⟩
            (item.coro.run ⟨chain, some frame⟩ argv kwargs w.rest).1) ∧
      (TransparentPublished item.coro ⟨chain, some frame⟩ argv kwargs w
        (n.ataskBref site frame name argv kwargs w) ↔
          PublishedThrough n kwargs ⟨chain, some frame⟩
            (item.coro.run ⟨chain, some frame⟩ argv kwargs w.rest).1)) := by
  refine ⟨fun h htimeout => ?_, fun h => ?_, fun h => ?_⟩
  · have hrequest := requestStub_transparent_iff h
    exact ⟨by rw [atask, htimeout]; exact hrequest, hrequest⟩
  · have hevent := eventStub_transparent_iff h
    exact ⟨hevent, hevent⟩
  · have hbroadcast := broadcastStub_transparent_iff h
    exact ⟨hbroadcast, hbroadcast⟩

/-! ## One atask of each kind, by the name `m.f` -/

abbrev DemoError := Option LibraryError

/-- It returns 7. -/
def demoItem : Item UInt8 DemoError Unit := ⟨⟨0, fun _ _ _ rest => (.returned 7, rest)⟩, none⟩

def demoRouter : Trace.Settings := ⟨"default", "a", 1000, [], false⟩

def demoProcess : Trace.Process := ⟨1, "/", fun _ => [], id, fun _ _ => "", fun _ => ""⟩

def demoSite : CallSite := ⟨⟨0, "m.py", 1, "main"⟩, [], "c0", 0⟩

def demoKwargs (key : String) : Dict String UInt8 := Dict.empty.set key 5

def demoChain (kind : Kind) : List AtaskHop :=
    [Trace.newHop demoRouter demoProcess .empty demoSite "m.f" "default" kind]

/-- A codec that knows one call. -/
def demoCodec (kind : Kind) (key : String) : Codec UInt8 DemoError where
  encode
    | .call _ _ _ => .ok (some [1])
    | .response (.returned v) => .ok (some [2, v])
    | .response (.raised _) => .ok none
  decode
    | some [1] => .ok (some (.call [] (demoKwargs key) (demoChain kind)))
    | some [2, v] => .ok (some (.response (.returned v)))
    | _ => .ok none

/-- The router of a namespace, registered and activated. -/
def demoEvents : List (Event (Item UInt8 DemoError Unit)) :=
  [.register .rpc "m.f" demoItem, .register .queue "m.f" demoItem,
    .register .broadcast "m.f" demoItem,
    .start 0 (.activate (some 0)), .completes 0, .completes 0, .completes 0]

def demoState : State (Item UInt8 DemoError Unit) :=
  (Machine.run step (State.init fun _ => .loopback .empty) demoEvents).getD
    (State.init fun _ => .loopback .empty)

theorem demoState_settled : Settled demoState := by
  have hserial : Machine.Along step Serialized (State.init fun _ => .loopback .empty) demoEvents :=
    .cons rfl trivial (.cons rfl trivial
      (.cons rfl trivial (.cons rfl (fun _ => allFinished_of_returned fun _ => .inl rfl)
      (.cons rfl trivial (.cons rfl trivial (.cons rfl trivial trivial))))))
  refine (run_inv (fun _ => Or.inl rfl) hserial (s := demoState) rfl).core.settled
    (allFinished_of_returned fun k => ?_)
  match k with
  | 0 => exact .inr rfl
  | _ + 1 => exact .inl rfl

def demoNamespace (kind : Kind) (key : String) : Namespace UInt8 DemoError Unit :=
  { python := ⟨⟨fun _ => none, fun ex _ => .done ex, fun _ => "", fun _ => .ok ""⟩, fun _ => true, fun _ => false, fun _ _ => rfl, some⟩
    router := demoRouter
    process := demoProcess
    codec := some (demoCodec kind key)
    registries := demoState.registries
    transport :=
      match demoState.transports 0 with
      | .loopback client => some client
      | .amqp _ => none
    waitFor := fun _ body => body }

def demoWorld : World UInt8 Unit := ⟨.empty, [], [], ()⟩

theorem demo_ready (kind : Kind) (key : String) :
    Ready (demoNamespace kind key) (demoCodec kind key) kind "m.f" demoItem demoSite 1 []
    (demoKwargs key) demoWorld
      (demoChain kind) where
  active := ⟨demoState, 0, _, demoState_settled, rfl, rfl, rfl, rfl⟩
  hcodec := rfl
  hitem := by cases kind <;> rfl
  depth := rfl
  call := ⟨[1], rfl, rfl⟩
  response := by
    rintro o ho
    cases ho
    exact ⟨[2, 7], rfl, rfl⟩

/-- A keyword nobody reserves, with each kind of stub and ref. -/
theorem stubs_transparent_demo :
    Transparent (demoNamespace .rpc "x") demoItem.coro ⟨demoChain .rpc, some 1⟩ []
    (demoKwargs "x") demoWorld
      ((demoNamespace .rpc "x").atask demoSite 1 "m.f" demoItem [] (demoKwargs "x") demoWorld) ∧
    TransparentPublished demoItem.coro ⟨demoChain .queue, some 1⟩ [] (demoKwargs "x") demoWorld
      ((demoNamespace .queue "x").ataskQref demoSite 1 "m.f" [] (demoKwargs "x") demoWorld) ∧
    TransparentPublished demoItem.coro ⟨demoChain .broadcast, some 1⟩ [] (demoKwargs "x") demoWorld
      ((demoNamespace .broadcast "x").ataskBref demoSite 1 "m.f" []
        (demoKwargs "x") demoWorld) := by
  have hrequest := (stubs_transparent_iff.1 (demo_ready .rpc "x") rfl).1
  have hevent := (stubs_transparent_iff.2.1 (demo_ready .queue "x")).2
  have hbroadcast := (stubs_transparent_iff.2.2 (demo_ready .broadcast "x")).2
  refine ⟨hrequest.2 ⟨by decide, ?_⟩, hevent.2 ⟨by decide, trivial⟩,
    hbroadcast.2 ⟨by decide, trivial⟩⟩
  intro hempty
  cases hempty

/-- A keyword called `name`: the stub raises `TypeError`, and the coroutine does not run. -/
theorem keyword_name_lost :
    Ready (demoNamespace .rpc "name") (demoCodec .rpc "name") .rpc "m.f" demoItem demoSite 1 []
    (demoKwargs "name") demoWorld
      (demoChain .rpc) ∧
    (demoNamespace .rpc "name").atask demoSite 1 "m.f" demoItem [] (demoKwargs "name") demoWorld =
      .error (some (.arguments "Router.send_request" (.multipleValues "name"))) demoWorld ∧
    ¬ Transparent (demoNamespace .rpc "name") demoItem.coro ⟨demoChain .rpc, some 1⟩ []
    (demoKwargs "name") demoWorld
      ((demoNamespace .rpc "name").atask demoSite 1 "m.f" demoItem []
        (demoKwargs "name") demoWorld) := by
  have hraised : (demoNamespace .rpc "name").atask demoSite 1 "m.f" demoItem []
    (demoKwargs "name") demoWorld =
      .error (some (.arguments "Router.send_request" (.multipleValues "name"))) demoWorld := rfl
  refine ⟨demo_ready .rpc "name", hraised, ?_⟩
  rw [hraised]
  rintro ⟨⟨hinvocations, -⟩, -⟩
  cases hinvocations

end Namespace

end Atasks.Router
