import Atasks.Router.Dispatch
/-!
# A failure on its way to the root

RPC calls nested in each other, each made by the handler of the one before, across any
routers, namespaces and processes. The innermost handler raises; every other one lets what it
receives from its own call propagate. `failure_trace` says what all of them see: one trace,
that of the call that failed.

| here | there |
| --- | --- |
| `Level`        | one call: the router it is made through, the router that handles it, and the two ends of the way between them |
| `Level.send`   | `aioref` (`atasks/router.py:482-487`), `Router.send_request` (`:222-265`), `Router._on_request` (`:323-363`) and `_call_coro` (`:433-456`) |
| `reraised`      | the calls from one level on, down to the handler that raises |

A transport carries request and response as they are.
-/

namespace Atasks.Router

open Trace (AtaskHop AtaskTrace CallSite Context Frame FrameId newHop pushHop raiseFrames)

variable {ν ε ω : Type}

structure Level (ν ε ω : Type) where
  caller : Namespace ν ε ω
  callerCodec : Codec ν ε
  caller_codec : caller.codec = some callerCodec
  handler : Service ν ε ω
  handlerCodec : Codec ν ε
  handler_codec : handler.codec = some handlerCodec
  site : CallSite
  /-- The frame of `_call_coro` that runs the handler. -/
  frame : FrameId
  name : String
  argv : List ν
  kwargs : Dict String ν
  /-- The traceback of what the handler raises. -/
  tb : Option (List (Frame × Nat))

namespace Level

variable (l : Level ν ε ω)

/-- The response to a request, by the router that gets it. -/
def respond (content : Option Bytes) (coro : Context → List ν → Dict String ν → Finished ν ε) :
    Except ε (Option Bytes) :=
  match l.handlerCodec.decode content with
  | .ok (some (.call argv kwargs traceChain)) =>
    l.handler.answer l.handlerCodec ⟨traceChain, some l.frame⟩
      (coro ⟨traceChain, some l.frame⟩ argv kwargs)
  | .ok _ => .error (l.handler.python.lib .unpacking)
  | .error ex => .error ex

/-- What the caller gets of the call, if `coro` is what the handler does. -/
def send (context : Context) (coro : Context → List ν → Dict String ν → Finished ν ε) :
    Except ε ν :=
  match pushHop l.caller.router l.caller.process context l.site l.name l.caller.router.nspace .rpc
    with
  | .error e => .error (l.caller.python.lib (.ataskStackTooDeep e.message))
  | .ok chain =>
    match l.callerCodec.encode (.call l.argv l.kwargs chain) with
    | .error ex => .error ex
    | .ok content =>
      match l.respond content coro with
      | .error ex => .error (l.caller.timedOut l.name ex)
      | .ok response => l.caller.result l.callerCodec response

/-- The hop the call adds. -/
def newHop (context : Context) : AtaskHop :=
  Trace.newHop l.caller.router l.caller.process context l.site l.name l.caller.router.nspace .rpc

/-- What the handler finds in its context variables. -/
def context (context : Context) : Context := ⟨context.current ++ [l.newHop context], some l.frame⟩

end Level

/-- What the handler of a level does: it awaits the next call and lets what it gets propagate. -/
def letsPropagate (l : Level ν ε ω) : Except ε ν → Finished ν ε
  | .ok v => .returned v
  | .error ex => .raised ex l.tb

/-- What the caller of the first level gets when the handler of the last one raises `ex`. -/
def reraised (ex : ε) : List (Level ν ε ω) → Context → Except ε ν
  | [], _ => .error ex
  | l :: rest, context =>
    l.send context fun context _ _ => letsPropagate l (reraised ex rest context)

/-! ## The chain of a call -/

/-- The context of the handler of the last level. -/
def contextOf : List (Level ν ε ω) → Context → Context
  | [], context => context
  | l :: rest, context => contextOf rest (l.context context)

/-- One hop for each call, root first. -/
def hops : List (Level ν ε ω) → Context → List AtaskHop
  | [], _ => []
  | l :: rest, context => l.newHop context :: hops rest (l.context context)

theorem length_hops (levels : List (Level ν ε ω)) (context : Context) :
    (hops levels context).length = levels.length := by
  induction levels generalizing context with
  | nil => rfl
  | cons l rest ih => simp [hops, ih]

theorem contextOf_append (pre post : List (Level ν ε ω)) (context : Context) :
    contextOf (pre ++ post) context = contextOf post (contextOf pre context) := by
  induction pre generalizing context with
  | nil => rfl
  | cons l rest ih => exact ih (l.context context)

theorem current_contextOf (levels : List (Level ν ε ω)) (context : Context) :
    (contextOf levels context).current = context.current ++ hops levels context := by
  induction levels generalizing context with
  | nil => simp [contextOf, hops]
  | cons l rest ih => simp [contextOf, hops, ih, Level.context]

/-! ## What the levels have to be like -/

/-- An exception that is caught, and takes this trace as an attribute. -/
def Accepts (python : Python ε) (ex : ε) (trace : AtaskTrace) : Prop :=
  python.isException ex = true ∧ python.trace ex = none ∧
    ∃ ex', python.setTrace ex trace = .done ex' ∧ python.trace ex' = some trace ∧
      python.isException ex' = true

namespace Level

variable (l : Level ν ε ω)

/-- The call can be made in this context, and its chain arrives. -/
structure Arrives (context : Context) : Prop where
  depth : (context.current.length : Int) < l.caller.router.maxTraceDepth
  carried : ∃ content argv kwargs, l.callerCodec.encode
    (.call l.argv l.kwargs (l.context context).current) = .ok content ∧
    l.handlerCodec.decode content = .ok (some (.call argv kwargs (l.context context).current))

/-- An exception with this trace comes back from the handler's codec through the caller's with
the same trace. -/
def BringsBack (python : Python ε) (trace : AtaskTrace) : Prop :=
  ∀ ex, python.isException ex = true → python.trace ex = some trace → ∃ content ex', content ≠ [] ∧
    l.handlerCodec.encode (.response (.raised ex)) = .ok (some content) ∧
    l.callerCodec.decode (some content) = .ok (some (.response (.raised ex'))) ∧
    python.isException ex' = true ∧ python.trace ex' = some trace

variable {l}

theorem pushHop_eq {context : Context}
    (h : (context.current.length : Int) < l.caller.router.maxTraceDepth) :
    pushHop l.caller.router l.caller.process context l.site l.name l.caller.router.nspace .rpc =
      .ok (l.context context).current := by
  unfold pushHop
  rw [if_neg (by omega)]
  rfl

/-- A handler's exception that has its trace after `attach` gets back to the caller. -/
theorem send_raised {python : Python ε} {trace : AtaskTrace} {context : Context} {ex : ε}
    {coro : Context → List ν → Dict String ν → Finished ν ε} (hback : l.BringsBack python trace)
    (harrives : l.Arrives context) {tb : Option (List (Frame × Nat))}
    (hcoro : ∀ argv kwargs, coro (l.context context) argv kwargs = .raised ex tb) {ex' : ε}
    (hattach : l.handler.outcome (l.context context) (.raised ex tb) = .ok (.raised ex'))
    (hexception : python.isException ex' = true) (htrace : python.trace ex' = some trace) :
    ∃ ex'', l.send context coro = .error ex'' ∧ python.isException ex'' = true ∧
    python.trace ex'' = some trace := by
  obtain ⟨content, argv, kwargs, hencode, hdecode⟩ := harrives.carried
  obtain ⟨response, ex'', hne, hresponse, hresult, hexception'', htrace''⟩ :=
    hback ex' hexception htrace
  refine ⟨ex'', ?_, hexception'', htrace''⟩
  have hrespond : l.respond content coro = .ok (some response) := by
    simp only [respond, hdecode]
    show l.handler.answer l.handlerCodec (l.context context)
      (coro (l.context context) argv kwargs) = _
    rw [hcoro, Service.answer, hattach]
    exact hresponse
  simp only [send, pushHop_eq harrives.depth, hencode, hrespond]
  rw [Namespace.result_of_roundTrips hresult, if_neg hne]

/-! ## One level on the loopback -/

/-- A call through a namespace and its own `LoopbackTransport`. -/
def ofNamespace (n : Namespace ν ε ω) (codec : Codec ν ε) (hcodec : n.codec = some codec)
    (site : CallSite) (frame : FrameId)
    (name : String) (argv : List ν) (kwargs : Dict String ν) : Level ν ε ω :=
  ⟨n, codec, hcodec, n.toService, codec, hcodec, site, frame, name, argv, kwargs, none⟩

/-- How a computation has ended. -/
def ended {σ β : Type} : EStateM.Result ε σ β → Except ε β
  | .ok b _ => .ok b
  | .error ex _ => .error ex

theorem ended_lift {σ β : Type} (r : Except ε β) (s : σ) :
    ended ((lift r : EStateM ε σ β) s) = r := by
  cases r <;> rfl

/-- The response is what `_on_request` returns when the handler is registered. -/
theorem ended_onRequest {item : Item ν ε ω}
    (hitem : (l.handler.registries .rpc).get l.name = some item) (content : Option Bytes)
    (w : World ν ω) : ended (l.handler.onRequest l.frame l.name content w) =
      l.respond content fun context argv kwargs =>
      (item.coro.run context argv kwargs w.rest).1 := by
  unfold respond
  cases hd : l.handlerCodec.decode content with
  | error ex =>
    have hreceived : l.handler.received .rpc l.name content w = .error ex w := by
      simp only [Service.received, l.handler_codec, hd]
      rfl
    rw [Service.onRequest, Effect.bind_of_error hreceived]
    rfl
  | ok payload =>
    cases payload with
    | none =>
      have hreceived : l.handler.received .rpc l.name content w = .error
          (l.handler.python.lib .unpacking) w := by
        simp only [Service.received, l.handler_codec, hd]
        rfl
      rw [Service.onRequest, Effect.bind_of_error hreceived]
      rfl
    | some payload =>
      cases payload with
      | response o =>
        have hreceived : l.handler.received .rpc l.name content w = .error
            (l.handler.python.lib .unpacking) w := by
          simp only [Service.received, l.handler_codec, hd]
          rfl
        rw [Service.onRequest, Effect.bind_of_error hreceived]
        rfl
      | call argv kwargs traceChain =>
        rw [Service.onRequest_eq l.handler_codec hd hitem]
        dsimp only
        cases l.handler.answer l.handlerCodec ⟨traceChain, some l.frame⟩
          (item.coro.run ⟨traceChain, some l.frame⟩ argv kwargs w.rest).1 <;> rfl

/-- **A stub on the loopback does what `send` says.** -/
theorem ended_requestStub {n : Namespace ν ε ω} {codec : Codec ν ε} {item : Item ν ε ω}
    {site : CallSite} {frame : FrameId} {name : String} {argv : List ν} {kwargs : Dict String ν}
    (h : n.Serves codec .rpc name item) (hkeys : ∀ k ∈ kwargs.keys, k ∉ Namespace.reserved .rpc)
    (w : World ν ω) :
    ended (n.requestStub site frame name none argv kwargs w) =
      (ofNamespace n codec h.codec site frame name argv kwargs).send w.context
        fun context argv kwargs => (item.coro.run context argv kwargs w.rest).1 := by
  obtain ⟨client, htransport, hcallbacks⟩ := h.client
  rw [Namespace.requestStub_send]
  unfold send ofNamespace
  dsimp only
  cases hpush : pushHop n.router n.process w.context site name n.router.nspace .rpc with
  | error e =>
    have hhop : n.hop site name .rpc w = .error
        (n.python.lib (.ataskStackTooDeep e.message)) w := by
      simp only [Namespace.hop, hpush]
    rw [Namespace.send, Effect.bind_of_error hhop]
    rfl
  | ok chain =>
    have hsig := (Namespace.bindError_request argv kwargs).2 hkeys
    dsimp only
    cases hencode : codec.encode (.call argv kwargs chain) with
    | error ex =>
      have hhop : n.hop site name .rpc w = .ok chain w := by simp only [Namespace.hop, hpush]
      have hclient : n.client w = .ok client w := by simp only [Namespace.client, htransport]; rfl
      have hget : n.getCodec w = .ok codec w := by simp only [Namespace.getCodec, h.codec]; rfl
      have hlift : (lift (codec.encode (.call argv kwargs chain)) : EStateM ε (World ν ω) _) w =
          .error ex w := by
        rw [hencode]; rfl
      rw [Namespace.send, Effect.bind_of_ok hhop, Effect.bind_of_ok
        (Namespace.checkArguments_ok hsig w),
        Effect.bind_of_ok hclient, Effect.bind_of_ok hget, Effect.bind_of_error hlift]
      rfl
    | ok content =>
      rw [Namespace.send_eq hpush hsig htransport h.codec hencode]
      dsimp only
      have honRequest := ended_onRequest
        (l := ofNamespace n codec h.codec site frame name argv kwargs) h.item content w
      have hrequest : n.loopbackRequest client frame name content none w = _ :=
        Namespace.loopbackRequest_eq hcallbacks content w
      change ended (n.onRequest frame name content w) = _ at honRequest
      unfold ofNamespace at honRequest
      rw [← honRequest]
      cases hon : n.onRequest frame name content w with
      | error ex w' =>
        rw [hon] at hrequest
        rw [Effect.bind_of_error hrequest]
        rfl
      | ok response w' =>
        rw [hon] at hrequest
        rw [Effect.bind_of_ok hrequest]
        exact ended_lift _ w'

end Level

/-! ## The whole way -/

/-- The trace of the call that fails: its chain, and where its handler raised. -/
def failureTrace (above : List (Level ν ε ω)) (last : Level ν ε ω) (root : Context) : AtaskTrace :=
  let context := contextOf (above ++ [last]) root
  ⟨context.current, last.handler.router.hostname, last.handler.process.pid,
    raiseFrames last.tb last.handler.router last.handler.process context⟩

theorem failureTrace_append (pre post : List (Level ν ε ω)) (last : Level ν ε ω) (root : Context) :
    failureTrace (pre ++ post) last root = failureTrace post last (contextOf pre root) := by
  simp only [failureTrace, List.append_assoc, contextOf_append]

/-- The first to catch the exception puts the trace on it. -/
theorem outcome_accepts {python : Python ε} {service : Service ν ε ω} {ex : ε}
    {tb : Option (List (Frame × Nat))} {context : Context}
    (hpython : service.python = python)
    (h : Accepts python ex ⟨context.current, service.router.hostname, service.process.pid,
      raiseFrames tb service.router service.process context⟩) :
    ∃ ex', service.outcome context (.raised ex tb) = .ok (.raised ex') ∧
    python.isException ex' = true ∧
      python.trace ex' = some ⟨context.current, service.router.hostname, service.process.pid,
        raiseFrames tb service.router service.process context⟩ := by
  subst hpython
  obtain ⟨hexception, hnone, ex', hset, htrace, hexception'⟩ := h
  refine ⟨ex', ?_, hexception', htrace⟩
  simp only [Service.outcome, hexception, if_true, Trace.attach, hnone, hset]

/-- Everybody else leaves the exception as it is. -/
theorem outcome_traced {python : Python ε} {service : Service ν ε ω} {ex : ε}
    {tb : Option (List (Frame × Nat))} {context : Context} (hpython : service.python = python)
    (hexception : python.isException ex = true) {trace : AtaskTrace}
    (htrace : python.trace ex = some trace) :
    service.outcome context (.raised ex tb) = .ok (.raised ex) := by
  subst hpython
  simp only [Service.outcome, hexception, if_true, Trace.attach, htrace]

section reraised

variable {python : Python ε} {last : Level ν ε ω} {ex : ε}

/-- What the caller of the first level gets. -/
theorem reraised_traced :
    ∀ (above : List (Level ν ε ω)) (root : Context),
    (∀ l ∈ above ++ [last], l.handler.python = python) →
    (∀ pre l post, above ++ [last] = pre ++ l :: post → l.Arrives (contextOf pre root)) →
    (∀ l ∈ above ++ [last], l.BringsBack python (failureTrace above last root)) →
    Accepts python ex (failureTrace above last root) →
    ∃ ex', reraised ex (above ++ [last]) root = .error ex' ∧ python.isException ex' = true ∧
      python.trace ex' = some (failureTrace above last root)
  | [], root, hpython, harrives, hback, haccepts => by
    obtain ⟨ex', hattach, hexception, htrace⟩ := outcome_accepts (hpython last (by simp)) haccepts
    exact last.send_raised (hback last (by simp)) (harrives [] last [] rfl)
      (fun _ _ => rfl) hattach hexception htrace
  | l :: above, root, hpython, harrives, hback, haccepts => by
    have htail : failureTrace (l :: above) last root = failureTrace above last (l.context root) :=
      failureTrace_append [l] above last root
    rw [htail] at hback haccepts ⊢
    obtain ⟨ex', hraised, hexception, htrace⟩ := reraised_traced above (l.context root)
      (fun m hm => hpython m (List.mem_cons_of_mem _ hm))
      (fun pre m post heq => harrives (l :: pre) m post
        (by rw [List.cons_append, heq, List.cons_append]))
      (fun m hm => hback m (List.mem_cons_of_mem _ hm)) haccepts
    have hattach : l.handler.outcome (l.context root) (.raised ex' l.tb) = .ok (.raised ex') :=
      outcome_traced (hpython l (by simp)) hexception htrace
    refine l.send_raised (hback l (by simp)) (harrives [] l (above ++ [last]) rfl)
      (fun _ _ => ?_) hattach hexception htrace
    show letsPropagate l (reraised ex (above ++ [last]) (l.context root)) = _
    rw [hraised, letsPropagate]

/-- **A failure's trace.** The handler of the innermost of any number of nested calls raises an
exception of its own. All the handlers above and the root caller get one with its trace: the
chain of the call that failed, one hop for each call, and where its handler raised; and no
`attach` on the way changes it. -/
theorem failure_trace (above : List (Level ν ε ω)) (root : Context)
    (hpython : ∀ l ∈ above ++ [last], l.handler.python = python)
    (harrives : ∀ pre l post, above ++ [last] = pre ++ l :: post → l.Arrives (contextOf pre root))
    (hback : ∀ l ∈ above ++ [last], l.BringsBack python (failureTrace above last root))
    (haccepts : Accepts python ex (failureTrace above last root)) :
    ((failureTrace above last root).hops = root.current ++ hops (above ++ [last]) root ∧
      (hops (above ++ [last]) root).length = above.length + 1) ∧
    ∀ pre post, above = pre ++ post → ∃ ex', reraised ex (post ++ [last])
    (contextOf pre root) = .error ex' ∧
      python.trace ex' = some (failureTrace above last root) ∧
      ∀ service tb context, service.python = python →
        (service : Service ν ε ω).outcome context (.raised ex' tb) = .ok (.raised ex') := by
  refine ⟨⟨current_contextOf _ _, by simp [length_hops]⟩, ?_⟩
  rintro pre post rfl
  rw [failureTrace_append] at hback haccepts ⊢
  obtain ⟨ex', hraised, hexception, htrace⟩ := reraised_traced post (contextOf pre root)
    (fun l hl => hpython l (by rw [List.append_assoc]; exact List.mem_append_right _ hl))
    (fun pre' l post' heq => by
      rw [← contextOf_append]
      exact harrives (pre ++ pre') l post' (by rw [List.append_assoc, heq, List.append_assoc]))
    (fun l hl => hback l (by rw [List.append_assoc]; exact List.mem_append_right _ hl)) haccepts
  exact ⟨ex', hraised, htrace, fun service tb context hservice =>
    outcome_traced hservice hexception htrace⟩

end reraised

/-! ## Two calls, over three hosts -/

namespace Level

/-- An exception is its trace. -/
def demoPython : Python (Option AtaskTrace) :=
  ⟨⟨id, fun _ trace => .done (some trace), fun _ => "ValueError", fun _ => .ok ""⟩, fun _ => true,
    fun _ => false, fun _ _ => rfl,
    fun _ => none⟩

/-- A codec that knows one call and one exception. -/
def demoCodec (chain : List AtaskHop) (trace : AtaskTrace) : Codec Unit (Option AtaskTrace) where
  encode
    | .call _ _ _ => .ok (some [0])
    | .response _ => .ok (some [1])
  decode
    | some [0] => .ok (some (.call [] .empty chain))
    | some [1] => .ok (some (.response (.raised (some trace))))
    | _ => .ok none

def demoService (host : String) (codec : Codec Unit (Option AtaskTrace)) : Service Unit
    (Option AtaskTrace) Unit :=
  ⟨demoPython, ⟨"default", host, 1000, [], false⟩, Namespace.demoProcess, some codec, fun _ =>
    .empty "default"⟩

/-- A call from one host to another. -/
def demoLevel (host host' : String) (frame : FrameId) (name : String)
    (codec : Codec Unit (Option AtaskTrace)) :
    Level Unit (Option AtaskTrace) Unit :=
  ⟨⟨demoService host codec, none, fun _ body => body⟩, codec, rfl, demoService host' codec, codec,
    rfl, Namespace.demoSite, frame,
    name, [], .empty, none⟩

def demoHop (host name : String) (context : Context) : AtaskHop :=
  Trace.newHop ⟨"default", host, 1000, [], false⟩ Namespace.demoProcess context Namespace.demoSite
    name "default" .rpc

def demoHops : List AtaskHop :=
  [demoHop "a" "m.f" .empty, demoHop "b" "m.g" ⟨[demoHop "a" "m.f" .empty], some 1⟩]

def demoTrace : AtaskTrace := ⟨demoHops, "c", 1, []⟩

def demoOuter : Level Unit (Option AtaskTrace) Unit :=
    demoLevel "a" "b" 1 "m.f" (demoCodec (demoHops.take 1) demoTrace)

def demoInner : Level Unit (Option AtaskTrace) Unit :=
    demoLevel "b" "c" 2 "m.g" (demoCodec demoHops demoTrace)

/-- The root on `a` calls `m.f` on `b`, that calls `m.g` on `c`, and `m.g` raises. -/
theorem failure_trace_demo :
    ∃ ex, reraised none [demoOuter, demoInner] .empty = .error ex ∧
    demoPython.trace ex = some demoTrace := by
  have harrives : ∀ pre l post, [demoOuter] ++ [demoInner] = pre ++ l :: post →
      l.Arrives (contextOf pre .empty) := by
    intro pre l post heq
    match pre with
    | [] =>
      cases heq
      exact ⟨by decide, some [0], [], .empty, rfl, rfl⟩
    | [_] =>
      cases heq
      exact ⟨by decide, some [0], [], .empty, rfl, rfl⟩
    | _ :: _ :: pre => simp at heq
  have hback : ∀ l ∈ [demoOuter] ++ [demoInner], l.BringsBack demoPython
      (failureTrace [demoOuter] demoInner .empty) := by
    intro l hl ex _ htrace
    rcases List.mem_cons.1 hl with rfl | hl
    · exact ⟨[1], some demoTrace, by simp, rfl, rfl, rfl, rfl⟩
    · obtain rfl := List.mem_singleton.1 hl
      exact ⟨[1], some demoTrace, by simp, rfl, rfl, rfl, rfl⟩
  obtain ⟨ex, hraised, htrace, -⟩ := (failure_trace [demoOuter] .empty
    (by simp [demoOuter, demoInner, demoLevel, demoService])
    harrives hback ⟨rfl, rfl, _, rfl, rfl, rfl⟩).2 [] [demoOuter] rfl
  exact ⟨ex, hraised, htrace⟩

end Level

end Atasks.Router
