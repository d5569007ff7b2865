import Mathlib.Data.List.Induction
import Atasks.Router.Namespaces
/-!
# Dispatch by namespace, kind and name

A call made in a process of many namespaces: what the stub finds when it looks its namespace
up (`namespaceOf`), down to the coroutine. `dispatch` says which coroutine runs: the one
registered under exactly this namespace, kind and name if the router is active on the
transport calls go out on, and none otherwise; and that only what was done to this namespace
matters.

| here | there |
| --- | --- |
| `namespaceOf` | `get_transport(namespace)`, `get_codec(namespace)`, `get_router(namespace)` at the time of the call |
| `Namespace.call` | the stub or ref of the kind |
-/

namespace Atasks.Router

open Machine
open Trace (AtaskHop CallSite Context FrameId pushHop)

variable {ν ε ω : Type}

/-! ## One call -/

namespace Namespace

variable (n : Namespace ν ε ω)

/-- A published call returns `None`. -/
def call (kind : Kind) (site : CallSite) (frame : FrameId) (name : String) (timeout : Option Nat)
    (argv : List ν) (kwargs : Dict String ν) : EStateM ε (World ν ω) (Option ν) :=
  match kind with
  | .rpc => do
    let result ← n.requestStub site frame name timeout argv kwargs
    return some result
  | .queue => do
    n.eventStub site frame name argv kwargs
    return none
  | .broadcast => do
    n.broadcastStub site frame name argv kwargs
    return none

/-- The parameters of `send_request`; of `send_event` and `send_broadcast`. -/
def reserved : Kind → List String
  | .rpc => ["self", "name", "timeout", "trace_chain"]
  | .queue | .broadcast => ["self", "name", "trace_chain"]

/-- The call can be made: there is room for its hop, none of its keywords is a parameter of
`Router.send_…`, and its message is read back as a call, of `argv'` and `kwargs'` after `chain'`. -/
def Sent (codec : Codec ν ε) (kind : Kind) (site : CallSite) (name : String) (argv : List ν)
    (kwargs : Dict String ν)
    (w : World ν ω) (argv' : List ν) (kwargs' : Dict String ν) (chain' : List AtaskHop) : Prop :=
  (∀ k ∈ kwargs.keys, k ∉ reserved kind) ∧
    ∃ chain content, pushHop n.router n.process w.context site name n.router.nspace kind =
      .ok chain ∧
      codec.encode (.call argv kwargs chain) = .ok content ∧ codec.decode content = .ok
        (some (.call argv' kwargs' chain'))

/-- The coroutine has run once, and no other, however the call has ended. -/
def Ran {β : Type} (coro : Coroutine ν ε ω) (context : Context) (argv : List ν)
    (kwargs : Dict String ν) (w : World ν ω) :
    EStateM.Result ε (World ν ω) β → Prop
  | .ok _ w' => RanOnce coro context argv kwargs w w'
  | .error _ w' => RanOnce coro context argv kwargs w w'

/-- Nothing has happened: the call has failed, or was published and dropped. -/
def Lost {β : Type} (kind : Kind) (w : World ν ω) : EStateM.Result ε (World ν ω) β → Prop
  | .ok _ w' => w' = w ∧ kind ≠ .rpc
  | .error _ w' => w' = w

/-- The namespace serves the name: calls go out on the transport that holds its callback. -/
structure Serves (codec : Codec ν ε) (kind : Kind) (name : String) (item : Item ν ε ω) : Prop where
  codec : n.codec = some codec
  client : ∃ client, n.transport = some client ∧ client.callbacks kind name = [⟨kind, name⟩]
  item : (n.registries kind).get name = some item

variable {n} {codec : Codec ν ε} {kind : Kind} {name : String} {item : Item ν ε ω} {site : CallSite}
  {frame : FrameId} {timeout : Option Nat} {argv argv' : List ν} {kwargs kwargs' : Dict String ν}
  {w : World ν ω} {chain' : List AtaskHop}

/-! ## Up to the transport -/

/-- What the stubs have in common: the hop, and `Router.send_…` up to the transport. -/
def send {β : Type} (n : Namespace ν ε ω) (kind : Kind) (function : String) (sig : Signature)
    (given : List String) (site : CallSite)
    (name : String) (argv : List ν) (kwargs : Dict String ν)
    (transmit : Loopback Callback → Codec ν ε → Option Bytes → EStateM ε (World ν ω) β) :
    EStateM ε (World ν ω) β := do
  let chain ← n.hop site name kind
  n.checkArguments function sig given argv kwargs
  let client ← n.client
  let codec ← n.getCodec
  let content ← lift (codec.encode (.call argv kwargs chain))
  transmit client codec content

theorem requestStub_send : n.requestStub site frame name timeout argv kwargs =
    n.send .rpc "Router.send_request" sendRequestSignature
    ["timeout", "trace_chain"] site name argv kwargs
      (fun client codec content => do
        let response ← n.loopbackRequest client frame name content timeout
        lift (n.result codec response)) := rfl

theorem eventStub_send : n.eventStub site frame name argv kwargs =
    n.send .queue "Router.send_event" sendPublishedSignature ["trace_chain"] site name argv kwargs
      fun client _ => n.loopbackEvent client frame name := rfl

theorem broadcastStub_send : n.broadcastStub site frame name argv kwargs =
    n.send .broadcast "Router.send_broadcast" sendPublishedSignature
    ["trace_chain"] site name argv kwargs
      fun client _ => n.loopbackBroadcast client frame name := rfl

section send

variable {β : Type} {function : String} {sig : Signature} {given : List String}
  {client : Loopback Callback} {content : Option Bytes} {chain : List AtaskHop}
  {transmit : Loopback Callback → Codec ν ε → Option Bytes → EStateM ε (World ν ω) β}

theorem send_eq
    (hpush : pushHop n.router n.process w.context site name n.router.nspace kind = .ok chain)
    (hsig : sig.bindError (2 + argv.length) (given ++ kwargs.keys) = none)
    (htransport : n.transport = some client) (hcodec : n.codec = some codec)
    (hencode : codec.encode (.call argv kwargs chain) = .ok content) :
    n.send kind function sig given site name argv kwargs transmit w =
      transmit client codec content w := by
  have hhop : n.hop site name kind w = .ok chain w := by simp only [hop, hpush]
  have hclient : n.client w = .ok client w := by simp only [Namespace.client, htransport]; rfl
  have hget : n.getCodec w = .ok codec w := by simp only [getCodec, hcodec]; rfl
  have hlift : (lift (codec.encode (.call argv kwargs chain)) : EStateM ε (World ν ω) _) w =
      .ok content w := by
    rw [hencode]; rfl
  rw [send, Effect.bind_of_ok hhop, Effect.bind_of_ok (checkArguments_ok hsig w),
    Effect.bind_of_ok hclient,
    Effect.bind_of_ok hget, Effect.bind_of_ok hlift]

/-- A stub fails before it gets to the transport, or it hands its message over. -/
theorem send_cases :
    (∃ ex, n.send kind function sig given site name argv kwargs transmit w = .error ex w) ∨
    ∃ chain client codec content, pushHop n.router n.process w.context site name n.router.nspace
    kind = .ok chain ∧
      sig.bindError (2 + argv.length) (given ++ kwargs.keys) = none ∧ n.transport = some client ∧
      n.codec = some codec ∧
      codec.encode (.call argv kwargs chain) = .ok content ∧
      n.send kind function sig given site name argv kwargs transmit w =
        transmit client codec content w := by
  cases hpush : pushHop n.router n.process w.context site name n.router.nspace kind with
  | error e =>
    have hhop : n.hop site name kind w = .error
        (n.python.lib (.ataskStackTooDeep e.message)) w := by
      simp only [hop, hpush]
    exact Or.inl ⟨_, Effect.bind_of_error hhop⟩
  | ok chain =>
    have hhop : n.hop site name kind w = .ok chain w := by simp only [hop, hpush]
    rw [send, Effect.bind_of_ok hhop]
    cases hsig : sig.bindError (2 + argv.length) (given ++ kwargs.keys) with
    | some e => exact Or.inl ⟨_, Effect.bind_of_error (checkArguments_error hsig w)⟩
    | none =>
      rw [Effect.bind_of_ok (checkArguments_ok hsig w)]
      cases htransport : n.transport with
      | none =>
        have hclient : n.client w = .error (n.python.lib .noClientTransportRegistered) w := by
          simp only [Namespace.client, htransport]; rfl
        exact Or.inl ⟨_, Effect.bind_of_error hclient⟩
      | some client =>
        have hclient : n.client w = .ok client w := by simp only [Namespace.client, htransport]; rfl
        rw [Effect.bind_of_ok hclient]
        cases hcodec : n.codec with
        | none =>
          have hget : n.getCodec w = .error (n.python.lib .noCodecRegistered) w := by
            simp only [getCodec, hcodec]
            rfl
          exact Or.inl ⟨_, Effect.bind_of_error hget⟩
        | some codec =>
          have hget : n.getCodec w = .ok codec w := by simp only [getCodec, hcodec]; rfl
          rw [Effect.bind_of_ok hget]
          cases hencode : codec.encode (.call argv kwargs chain) with
          | error ex => exact Or.inl ⟨ex, rfl⟩
          | ok content =>
            exact Or.inr ⟨chain, client, codec, content, rfl, rfl, rfl, rfl, hencode, rfl⟩

/-- A call that can be made to a served name: the coroutine runs if the message gets there. -/
theorem send_ran (hsig : sig.bindError (2 + argv.length) (given ++ kwargs.keys) = none ↔
      ∀ k ∈ kwargs.keys, k ∉ reserved kind)
    (h : n.Serves codec kind name item) (hsent :
      n.Sent codec kind site name argv kwargs w argv' kwargs' chain')
    (htransmit : ∀ client content, client.callbacks kind name = [⟨kind, name⟩] →
      codec.decode content = .ok (some (.call argv' kwargs' chain')) →
      Ran item.coro ⟨chain', some frame⟩ argv' kwargs' w (transmit client codec content w)) :
    Ran item.coro ⟨chain', some frame⟩ argv' kwargs' w
      (n.send kind function sig given site name argv kwargs transmit w) := by
  obtain ⟨hkeys, chain, content, hpush, hencode, hdecode⟩ := hsent
  obtain ⟨client, htransport, hcallbacks⟩ := h.client
  rw [send_eq hpush (hsig.2 hkeys) htransport h.codec hencode]
  exact htransmit client content hcallbacks hdecode

/-- A call that cannot be made, or whose name is not served: nothing happens if nothing
happens to a message nobody waits for. -/
theorem send_lost (hsig : sig.bindError (2 + argv.length) (given ++ kwargs.keys) = none ↔
      ∀ k ∈ kwargs.keys, k ∉ reserved kind)
    (hclient : ∀ client, n.transport = some client → client.callbacks kind name = [] ∨
      client.callbacks kind name = [⟨kind, name⟩] ∧ ∃ item,
      (n.registries kind).get name = some item)
    (hnot : ¬ ∃ codec item argv' kwargs' chain', n.Serves codec kind name item ∧
      n.Sent codec kind site name argv kwargs w argv' kwargs' chain')
    (habsent : ∀ client codec content, client.callbacks kind name = [] → Lost kind w
      (transmit client codec content w))
    (hnoCall : ∀ client codec content, client.callbacks kind name = [⟨kind, name⟩] →
      n.codec = some codec →
      (∀ argv' kwargs' chain', codec.decode content ≠ .ok (some (.call argv' kwargs' chain'))) →
      Lost kind w (transmit client codec content w)) :
    Lost kind w (n.send kind function sig given site name argv kwargs transmit w) := by
  have hcases : (∃ ex, n.send kind function sig given site name argv kwargs transmit w =
    .error ex w) ∨ _ := send_cases
  rcases hcases with
    ⟨ex, hex⟩ | ⟨chain, client, codec, content, hpush, hkeys, htransport, hcodec, hencode, heq⟩
  · rw [hex]
    rfl
  · rw [heq]
    rcases hclient client htransport with hcallbacks | ⟨hcallbacks, item, hitem⟩
    · exact habsent client codec content hcallbacks
    · refine hnoCall client codec content hcallbacks hcodec fun argv' kwargs' chain' hdecode =>
        hnot ?_
      exact ⟨codec, item, argv', kwargs', chain', ⟨hcodec, ⟨client, htransport, hcallbacks⟩, hitem⟩,
        hsig.1 hkeys, chain, content,
        hpush, hencode, hdecode⟩

end send

/-! ## From the transport on -/

section callback

variable {client : Loopback Callback} {content : Option Bytes}

/-- A message that is no call: nothing of the handler runs. -/
theorem received_error (kind : Kind) (name : String) (w : World ν ω) (hcodec : n.codec = some codec)
    (hdecode : ∀ argv' kwargs' chain', codec.decode content ≠ .ok
      (some (.call argv' kwargs' chain'))) :
    ∃ ex, n.received kind name content w = .error ex w := by
  cases hd : codec.decode content with
  | error ex =>
    refine ⟨ex, ?_⟩
    simp only [Service.received, hcodec, hd]
    rfl
  | ok payload =>
    refine ⟨n.python.lib .unpacking, ?_⟩
    cases payload with
    | none =>
      simp only [Service.received, hcodec, hd]
      rfl
    | some payload =>
      cases payload with
      | call argv' kwargs' chain' => exact absurd hd (hdecode argv' kwargs' chain')
      | response o =>
        simp only [Service.received, hcodec, hd]
        rfl

theorem ran_bind {β γ : Type} {coro : Coroutine ν ε ω} {context : Context}
    {x : EStateM ε (World ν ω) β} (h : Ran coro context argv' kwargs' w (x w))
    {f : β → EStateM ε (World ν ω) γ}
    (hf : ∀ b w', (∃ c, f b w' = .ok c w') ∨ ∃ ex, f b w' = .error ex w') :
    Ran coro context argv' kwargs' w ((x >>= f) w) := by
  cases hx : x w with
  | ok b w' =>
    rw [hx] at h
    rw [Effect.bind_of_ok hx]
    rcases hf b w' with ⟨c, hc⟩ | ⟨ex, hex⟩
    · rw [hc]
      exact h
    · rw [hex]
      exact h
  | error ex w' =>
    rw [hx] at h
    rw [Effect.bind_of_error hx]
    exact h

theorem lost_bind {β γ : Type} {x : EStateM ε (World ν ω) β} (h : Lost kind w (x w))
    {f : β → EStateM ε (World ν ω) γ} (hf : ∀ b w', ∃ c, f b w' = .ok c w') :
    Lost kind w ((x >>= f) w) := by
  cases hx : x w with
  | ok b w' =>
    rw [hx] at h
    obtain ⟨c, hc⟩ := hf b w'
    rw [Effect.bind_of_ok hx, hc]
    exact h
  | error ex w' =>
    rw [hx] at h
    rw [Effect.bind_of_error hx]
    exact h

theorem lift_cases {β : Type} (r : Except ε β) (w : World ν ω) :
    (∃ b, (lift r : EStateM ε (World ν ω) β) w = .ok b w) ∨ ∃ ex,
    (lift r : EStateM ε (World ν ω) β) w = .error ex w := by
  cases r with
  | ok b => exact Or.inl ⟨b, rfl⟩
  | error ex => exact Or.inr ⟨ex, rfl⟩

/-- No timeout elapses: then it makes no difference. -/
theorem loopbackRequest_inTime (htimeout : ∀ T body, timeout = some T →
      n.waitFor T body w = body w) :
    n.loopbackRequest client frame name content timeout w =
      n.loopbackRequest client frame name content none w := by
  cases timeout with
  | none => rfl
  | some T =>
    unfold loopbackRequest
    cases client.requestCallbacks.get? name with
    | none => rfl
    | some callback => simp only [htimeout T _ rfl]

theorem onRequest_ran (h : n.Serves codec .rpc name item)
    (hdecode : codec.decode content = .ok (some (.call argv' kwargs' chain'))) :
    Ran item.coro ⟨chain', some frame⟩ argv' kwargs' w (n.onRequest frame name content w) := by
  rw [Service.onRequest_eq h.codec hdecode h.item]
  cases n.answer codec ⟨chain', some frame⟩
    (item.coro.run ⟨chain', some frame⟩ argv' kwargs' w.rest).1 <;>
    exact ranOnce_ran ..

theorem onPublished_ran {title : String} (h : n.Serves codec kind name item)
    (hdecode : codec.decode content = .ok (some (.call argv' kwargs' chain'))) :
    Ran item.coro ⟨chain', some frame⟩ argv' kwargs' w
      (n.onPublished kind title frame name content w) := by
  rw [Service.onPublished_eq h.codec hdecode h.item]
  cases n.outcome ⟨chain', some frame⟩ (item.coro.run ⟨chain', some frame⟩ argv' kwargs' w.rest).1
    with
  | error ex => exact ranOnce_ran ..
  | ok o =>
    cases o with
    | returned value => exact ranOnce_ran ..
    | raised ex =>
      dsimp only
      cases Trace.formatTrace n.python.toExceptions n.process ex <;> exact ⟨rfl, rfl⟩

end callback

/-! ## The three kinds of call -/

theorem requestStub_ran (h : n.Serves codec .rpc name item)
    (hsent : n.Sent codec .rpc site name argv kwargs w argv' kwargs' chain')
    (htimeout : ∀ T body, timeout = some T → n.waitFor T body w = body w) :
    Ran item.coro ⟨chain', some frame⟩ argv' kwargs' w
      (n.requestStub site frame name timeout argv kwargs w) := by
  rw [requestStub_send]
  refine send_ran (bindError_request argv kwargs) h hsent fun client content hcallbacks hdecode =>
    ?_
  refine ran_bind ?_ fun response w' => ?_
  · rw [loopbackRequest_inTime htimeout, loopbackRequest_eq hcallbacks]
    have hran : Ran item.coro ⟨chain', some frame⟩ argv' kwargs' w
      (n.onRequest frame name content w) := onRequest_ran h hdecode
    cases hrequest : n.onRequest frame name content w <;>
      · rw [hrequest] at hran
        exact hran
  · rcases lift_cases (n.result codec response) w' with ⟨v, hv⟩ | ⟨ex, hex⟩
    · exact Or.inl ⟨v, hv⟩
    · exact Or.inr ⟨ex, hex⟩

theorem requestStub_lost
    (hclient : ∀ client, n.transport = some client → client.callbacks .rpc name = [] ∨
      client.callbacks .rpc name = [⟨.rpc, name⟩] ∧ ∃ item,
      (n.registries .rpc).get name = some item)
    (hnot : ¬ ∃ codec item argv' kwargs' chain', n.Serves codec .rpc name item ∧
      n.Sent codec .rpc site name argv kwargs w argv' kwargs' chain')
    (htimeout : ∀ T body, timeout = some T → n.waitFor T body w = body w) :
    Lost .rpc w (n.requestStub site frame name timeout argv kwargs w) := by
  rw [requestStub_send]
  refine send_lost (bindError_request argv kwargs) hclient hnot
    (fun client codec content hcallbacks => ?_)
    fun client codec content hcallbacks hcodec hnoCall => ?_
  · have hget : client.requestCallbacks.get? name = none := by
      simpa [Loopback.callbacks] using hcallbacks
    have hrequest : n.loopbackRequest client frame name content timeout w =
        .error (n.python.lib (.unknownRequestName name)) w := by
      simp only [loopbackRequest, hget]
      rfl
    rw [Effect.bind_of_error hrequest]
    rfl
  · obtain ⟨ex, hex⟩ := received_error .rpc name w hcodec hnoCall
    have honRequest : n.onRequest frame name content w = .error ex w := Effect.bind_of_error hex
    have hrequest : n.loopbackRequest client frame name content timeout w = .error
        (n.timedOut name ex) w := by
      rw [loopbackRequest_inTime htimeout, loopbackRequest_eq hcallbacks, honRequest]
    rw [Effect.bind_of_error hrequest]
    rfl

section published

variable {title function : String}
  {publish : Loopback Callback → Option Bytes → EStateM ε (World ν ω) Unit}

theorem bindError_reserved (hkind : kind ≠ .rpc) (argv : List ν) (kwargs : Dict String ν) :
    sendPublishedSignature.bindError (2 + argv.length) (["trace_chain"] ++ kwargs.keys) = none ↔
      ∀ k ∈ kwargs.keys, k ∉ reserved kind := by
  cases kind with
  | rpc => exact absurd rfl hkind
  | queue | broadcast => exact bindError_published argv kwargs

theorem published_ran (hkind : kind ≠ .rpc) (h : n.Serves codec kind name item)
    (hsent : n.Sent codec kind site name argv kwargs w argv' kwargs' chain')
    (hpublish : ∀ client content, client.callbacks kind name = [⟨kind, name⟩] →
      publish client content w = n.onPublished kind title frame name content w) :
    Ran item.coro ⟨chain', some frame⟩ argv' kwargs' w
      (n.send kind function sendPublishedSignature ["trace_chain"] site name argv kwargs
        (fun client _ => publish client) w) := by
  refine send_ran (bindError_reserved hkind argv kwargs) h hsent
    fun client content hcallbacks hdecode => ?_
  rw [hpublish client content hcallbacks]
  exact onPublished_ran h hdecode

theorem published_lost (hkind : kind ≠ .rpc)
    (hclient : ∀ client, n.transport = some client → client.callbacks kind name = [] ∨
      client.callbacks kind name = [⟨kind, name⟩] ∧ ∃ item,
      (n.registries kind).get name = some item)
    (hnot : ¬ ∃ codec item argv' kwargs' chain', n.Serves codec kind name item ∧
      n.Sent codec kind site name argv kwargs w argv' kwargs' chain')
    (hpublish : ∀ client content, client.callbacks kind name = [⟨kind, name⟩] →
      publish client content w = n.onPublished kind title frame name content w)
    (habsent : ∀ client content, client.callbacks kind name = [] → publish client content w = .ok
      () w) :
    Lost kind w
      (n.send kind function sendPublishedSignature ["trace_chain"] site name argv kwargs
        (fun client _ => publish client) w) := by
  refine send_lost (bindError_reserved hkind argv kwargs) hclient hnot
    (fun client codec content hcallbacks => ?_)
    fun client codec content hcallbacks hcodec hnoCall => ?_
  · rw [habsent client content hcallbacks]
    exact ⟨rfl, hkind⟩
  · obtain ⟨ex, hex⟩ := received_error kind name w hcodec hnoCall
    have honPublished : n.onPublished kind title frame name content w = .error ex w :=
      Effect.bind_of_error hex
    rw [hpublish client content hcallbacks, honPublished]
    rfl

theorem loopbackEvent_absent {client : Loopback Callback} (h : client.callbacks .queue name = [])
    (content : Option Bytes) :
    n.loopbackEvent client frame name content w = .ok () w := by
  have hget : client.eventCallbacks.get? name = none := by simpa [Loopback.callbacks] using h
  simp only [loopbackEvent, hget]
  rfl

theorem loopbackBroadcast_absent {client : Loopback Callback}
    (h : client.callbacks .broadcast name = []) (content : Option Bytes) :
    n.loopbackBroadcast client frame name content w = .ok () w := by
  have hget : (client.broadcastCallbacks.get? name).getD [] = [] := h
  simp only [loopbackBroadcast, hget]
  rfl

end published

/-- **A served call that can be made.** -/
theorem call_ran (h : n.Serves codec kind name item)
    (hsent : n.Sent codec kind site name argv kwargs w argv' kwargs' chain')
    (htimeout : ∀ T body, timeout = some T → n.waitFor T body w = body w) :
    Ran item.coro ⟨chain', some frame⟩ argv' kwargs' w
      (n.call kind site frame name timeout argv kwargs w) := by
  cases kind with
  | rpc => exact ran_bind (requestStub_ran h hsent htimeout) fun _ _ => Or.inl ⟨_, rfl⟩
  | queue =>
    refine ran_bind ?_ fun _ _ => Or.inl ⟨_, rfl⟩
    rw [eventStub_send]
    exact published_ran (by simp) h hsent fun _ content hcallbacks =>
      loopbackEvent_eq hcallbacks content w
  | broadcast =>
    refine ran_bind ?_ fun _ _ => Or.inl ⟨_, rfl⟩
    rw [broadcastStub_send]
    exact published_ran (by simp) h hsent fun _ content hcallbacks =>
      loopbackBroadcast_eq hcallbacks content w

/-- **Any other call**, where the transport holds nothing but callbacks of registered names. -/
theorem call_lost
    (hclient : ∀ client, n.transport = some client → client.callbacks kind name = [] ∨
      client.callbacks kind name = [⟨kind, name⟩] ∧ ∃ item,
      (n.registries kind).get name = some item)
    (hnot : ¬ ∃ codec item argv' kwargs' chain', n.Serves codec kind name item ∧
      n.Sent codec kind site name argv kwargs w argv' kwargs' chain')
    (htimeout : ∀ T body, timeout = some T → n.waitFor T body w = body w) :
    Lost kind w (n.call kind site frame name timeout argv kwargs w) := by
  cases kind with
  | rpc => exact lost_bind (requestStub_lost hclient hnot htimeout) fun _ _ => ⟨_, rfl⟩
  | queue =>
    refine lost_bind ?_ fun _ _ => ⟨_, rfl⟩
    rw [eventStub_send]
    exact published_lost (by simp) hclient hnot
      (fun _ content hcallbacks => loopbackEvent_eq hcallbacks content w)
      fun _ content hcallbacks => loopbackEvent_absent hcallbacks content
  | broadcast =>
    refine lost_bind ?_ fun _ _ => ⟨_, rfl⟩
    rw [broadcastStub_send]
    exact published_lost (by simp) hclient hnot
      (fun _ content hcallbacks => loopbackBroadcast_eq hcallbacks content w)
      fun _ content hcallbacks => loopbackBroadcast_absent hcallbacks content

end Namespace

/-! ## What has been registered -/

/-- A name is taken by the first registration that finds no server, and for good. -/
theorem get_after_registerTask {α : Type} (s : State α) (kind : Kind) (name : String) (item : α)
    {kind' : Kind} {name' : String} {item' : α} :
    ((after (registerTask kind name item s)).registries kind').get name' = some item' ↔
      (s.registries kind').get name' = some item' ∨
        (kind' = kind ∧ name' = name ∧ item' = item) ∧ s.server = none ∧
        (s.registries kind).get name = none := by
  obtain ⟨registries, server, activated, transports, tasks, received, jobNotFound⟩ := s
  have hget : ∀ s, (get : EStateM Rejection (State α) (State α)) s = .ok s s := fun _ => rfl
  rw [registerTask, Effect.bind_of_ok (hget _)]
  cases server with
  | some t => exact (or_iff_left (by simp)).symm
  | none =>
    dsimp only
    rw [Effect.bind_of_ok (hget _)]
    dsimp only
    cases hname : (registries kind).registry.get? name with
    | some old =>
      have hreg : ∃ e, (registries kind).register name item = .error e := by
        simp [Manager.register, hname]
      obtain ⟨e, he⟩ := hreg
      rw [he]
      exact (or_iff_left (by simp [Manager.get, hname])).symm
    | none =>
      have hreg : (registries kind).register name item =
          .ok { registries kind with registry := (registries kind).registry.set name item } := by
        simp [Manager.register, hname]
      rw [hreg]
      show ((Function.update registries kind _) kind').get name' = some item' ↔ _
      by_cases hkind : kind' = kind
      · subst hkind
        by_cases hn : name' = name
        · subst hn
          simp [Manager.get, hname, eq_comm]
        · simp [Manager.get, Dict.get?_set, hn]
      · simp [hkind]

theorem registries_step {α : Type} {s s' : State α} {e : Event α} (hs : step s e = some s')
    {kind : Kind} {name : String} {item : α} :
    (s'.registries kind).get name = some item ↔ (s.registries kind).get name = some item ∨
      e = .register kind name item ∧ s.server = none ∧ (s.registries kind).get name = none := by
  cases e with
  | register kind' name' item' =>
    cases hs
    rw [get_after_registerTask]
    refine or_congr_right ⟨?_, ?_⟩
    · rintro ⟨⟨rfl, rfl, rfl⟩, hserver, hnew⟩
      exact ⟨rfl, hserver, hnew⟩
    · rintro ⟨heq, hserver, hnew⟩
      cases heq
      exact ⟨⟨rfl, rfl, rfl⟩, hserver, hnew⟩
  | start k op => rw [(start_quiet hs).registries]; simp
  | completes k => rw [(completes_quiet hs).registries]; simp
  | raises k f => rw [(raises_quiet hs).registries]; simp
  | delivered t kind' name' i =>
    simp only [step, delivered] at hs
    split at hs <;> cases hs
    simp
  | looksUp i =>
    simp only [step, looksUp] at hs
    split at hs <;> cases hs
    simp

namespace Globals

/-- In the run, the item was registered under the namespace, kind and name: it was the first
one, and its router not active then. -/
def Registered (es : List (Event ν ε ω)) (name : String) (kind : Kind) (task : String)
    (item : Item ν ε ω) : Prop :=
  ∃ es₁ es₂ g, es = es₁ ++ .on name (.register kind task item) :: es₂ ∧ run step init es₁ = some g ∧
    (g.view name).server = none ∧ ((g.view name).registries kind).get task = none

variable {es : List (Event ν ε ω)} {g : Globals ν ε ω} {name : String} {kind : Kind} {task : String}
  {item : Item ν ε ω}

theorem run_ok (hrun : run step init es = some g) : g.Ok :=
  run_invariant (fun _ _ _ (h : Ok _) (hs : step _ _ = _) => h.step hs) es hrun ok_init

theorem registered_append {e : Event ν ε ω} (hrun : run step init es = some g) :
    Registered (es ++ [e]) name kind task item ↔ Registered es name kind task item ∨
      e = .on name (.register kind task item) ∧ (g.view name).server = none ∧
      ((g.view name).registries kind).get task = none := by
  constructor
  · rintro ⟨es₁, es₂, g₁, heq, hrun₁, hserver, hnew⟩
    rcases List.eq_nil_or_concat es₂ with rfl | ⟨es₂, e', rfl⟩
    · obtain ⟨rfl, he⟩ := List.append_inj' heq rfl
      rw [hrun] at hrun₁
      cases hrun₁
      exact Or.inr ⟨List.singleton_injective he, hserver, hnew⟩
    · rw [List.concat_eq_append, ← List.cons_append, ← List.append_assoc] at heq
      obtain ⟨rfl, -⟩ := List.append_inj' heq rfl
      exact Or.inl ⟨es₁, es₂, g₁, rfl, hrun₁, hserver, hnew⟩
  · rintro (⟨es₁, es₂, g₁, rfl, hrun₁, hserver, hnew⟩ | ⟨rfl, hserver, hnew⟩)
    · exact ⟨es₁, es₂ ++ [e], g₁, by simp, hrun₁, hserver, hnew⟩
    · exact ⟨es, [], g, rfl, hrun, hserver, hnew⟩

/-- What the registries hold is what has been registered. -/
theorem registered_iff (hrun : run step init es = some g) :
    ((g.view name).registries kind).get task = some item ↔ Registered es name kind task item := by
  induction es using List.reverseRecOn generalizing g with
  | nil =>
    cases hrun
    refine iff_of_false (by simp [view, stateOf, init, get, Manager.get, Manager.empty]) ?_
    rintro ⟨es₁, es₂, g, heq, -⟩
    simp at heq
  | append_singleton es e ih =>
    obtain ⟨g₀, hrun₀, hlast⟩ := run_append_eq_some.1 hrun
    rw [run_singleton] at hlast
    rw [registered_append hrun₀, ← ih hrun₀]
    rcases view_step (run_ok hrun₀) hlast with ⟨name', e', rfl, hstep, hsame⟩ | ⟨hnot, hsame⟩
    · by_cases hn : name = name'
      · subst hn
        rw [registries_step hstep]
        simp
      · rw [hsame name hn]
        simp [Ne.symm hn]
    · rw [hsame]
      simp [hnot]

/-! ## Calls in a namespace -/

/-- What the process brings along. -/
structure Environment (ν ε ω : Type) where
  python : Python ε
  process : Trace.Process
  hostname : String
  waitFor : Nat → EStateM ε (World ν ω) (Option Bytes) → EStateM ε (World ν ω) (Option Bytes)

def getTransport (g : Globals ν ε ω) (name : String) : Option Transport :=
    (g.get name).transport.bind (g.transports name)

def namespaceOf (env : Environment ν ε ω) (g : Globals ν ε ω) (name : String) :
    Namespace ν ε ω where
  python := env.python
  router := ((g.get name).router.map RouterObject.settings).getD (defaultSettings env.hostname name)
  process := env.process
  codec := (g.get name).codec
  registries := (g.view name).registries
  transport :=
    match g.getTransport name with
    | some (.loopback client) => some client
    | _ => none
  waitFor := env.waitFor

/-- After the run: the namespace has a codec, its router is active on the transport that
`get_transport` returns, and the item was registered before that activation. -/
structure Served (es : List (Event ν ε ω)) (g : Globals ν ε ω) (name : String) (kind : Kind)
    (task : String) (codec : Codec ν ε) (item : Item ν ε ω) : Prop where
  codec : (g.get name).codec = some codec
  active : ∃ t, (g.view name).server = some t ∧ (g.get name).transport = some t
  registered : Registered es name kind task item

variable {env : Environment ν ε ω}

/-- Calls go out on the namespace's newest transport. -/
theorem client_callbacks (hsound : g.Sound) (hrest : AllFinished (g.view name))
    {client : Loopback Callback} (hclient : (g.namespaceOf env name).transport = some client) :
    ∃ t, (g.get name).transport = some t ∧ ∀ kind task, client.callbacks kind task =
      if (g.view name).server = some t ∧ task ∈ (g.view name).names kind then [⟨kind, task⟩]
      else [] := by
  have hsettled := (hsound.routers name).core.settled hrest
  simp only [namespaceOf, getTransport] at hclient
  cases ht : (g.get name).transport with
  | none => simp [ht] at hclient
  | some t =>
    refine ⟨t, rfl, fun kind task => ?_⟩
    have hheld : (g.view name).transports t = .loopback client := by
      cases htr : g.transports name t with
      | none => simp [ht, htr] at hclient
      | some tr =>
        cases tr with
        | amqp a => simp [ht, htr] at hclient
        | loopback l =>
          simp only [ht, Option.bind_some, htr, Option.some.injEq] at hclient
          simp [view, stateOf, htr, hclient]
    have hcallbacks : client.callbacks kind task =
        ((g.view name).transports t).callbacks kind task := by
      rw [hheld]
      rfl
    rw [hcallbacks]
    unfold Settled at hsettled
    cases hserver : (g.view name).server with
    | none =>
      rw [hserver] at hsettled
      simp [hsettled t kind task]
    | some t₀ =>
      rw [hserver] at hsettled
      simp only [hsettled.2 t kind task, Option.some.injEq, eq_comm]

theorem serves_iff_served {codec : Codec ν ε} (hsound : g.Sound) (hrun : run step init es = some g)
    (hrest : AllFinished (g.view name)) :
    (g.namespaceOf env name).Serves codec kind task item ↔
      Served es g name kind task codec item := by
  constructor
  · rintro ⟨hcodec, ⟨client, hclient, hcallbacks⟩, hitem⟩
    obtain ⟨t, ht, hall⟩ := client_callbacks hsound hrest hclient
    rw [hall] at hcallbacks
    refine ⟨hcodec, ⟨t, ?_, ht⟩, (registered_iff hrun).1 hitem⟩
    by_contra hserver
    simp [hserver] at hcallbacks
  · rintro ⟨hcodec, ⟨t, hserver, ht⟩, hregistered⟩
    have hitem := (registered_iff hrun).2 hregistered
    refine ⟨hcodec, ?_, hitem⟩
    obtain ⟨l, hl⟩ := (hsound.uses name).loopback t
    have hsome := (hsound.uses name).server t hserver
    obtain ⟨tr, htr⟩ := Option.isSome_iff_exists.1 hsome
    have hclient : (g.namespaceOf env name).transport = some l := by
      have htr' : tr = .loopback l := by simpa [view, stateOf, htr] using hl
      simp [namespaceOf, getTransport, ht, htr, htr']
    refine ⟨l, hclient, ?_⟩
    obtain ⟨t', ht', hall⟩ := client_callbacks hsound hrest hclient
    rw [ht] at ht'
    cases ht'
    have hname : task ∈ (g.view name).names kind := by
      rw [State.names, Manager.mem_names_iff, hitem]
      rfl
    rw [hall, if_pos ⟨hserver, hname⟩]

/-- What there is of a namespace is all a call in it depends on. -/
theorem namespaceOf_congr {g' : Globals ν ε ω} (h : g.site name = g'.site name) :
    g.namespaceOf env name = g'.namespaceOf env name := by
  have hview := view_congr h
  obtain ⟨hget, htransports⟩ := Prod.mk.inj h
  simp only [namespaceOf, getTransport, hview, hget, htransports]

/-- It returns 8. -/
def otherItem : Item UInt8 Namespace.DemoError Unit :=
    ⟨⟨1, fun _ _ _ rest => (.returned 8, rest)⟩, none⟩

def demoEnvironment : Environment UInt8 Namespace.DemoError Unit :=
  ⟨(Namespace.demoNamespace .rpc "x").python, Namespace.demoProcess, "a", fun _ body => body⟩

/-- Two namespaces, both with their own `m.f`; only `default` has a codec. -/
def demoEvents : List (Event UInt8 Namespace.DemoError Unit) :=
  [.codec "default" (Namespace.demoCodec .rpc "x"), .router "default" Namespace.demoRouter,
    .router "other" Namespace.demoRouter,
    .on "default" (.register .rpc "m.f" Namespace.demoItem),
      .on "other" (.register .rpc "m.f" otherItem),
    .transport "other" 0, .transport "default" 0, .on "default" (.start 0 (.activate (some 0))),
    .on "other" (.start 0 (.activate (some 0))), .on "default" (.completes 0),
      .on "other" (.completes 0)]

def demoGlobals : Globals UInt8 Namespace.DemoError Unit := (run step init demoEvents).getD init

theorem demo_run : run step init demoEvents = some demoGlobals := rfl

theorem demo_serialized : Along step Serialized init demoEvents :=
  .cons rfl trivial (.cons rfl trivial (.cons rfl trivial
    (.cons rfl trivial (.cons rfl trivial (.cons rfl trivial
    (.cons rfl trivial (.cons rfl (fun _ => allFinished_of_returned fun _ => .inl rfl)
      (.cons rfl (fun _ => allFinished_of_returned fun _ => .inl rfl)
        (.cons rfl trivial (.cons rfl trivial trivial))))))))))

theorem demo_rest (h : name = "default" ∨ name = "other") :
    AllFinished (demoGlobals.view name) := by
  refine allFinished_of_returned fun k => ?_
  rcases h with rfl | rfl
  · match k with
    | 0 => exact .inr rfl
    | _ + 1 => exact .inl rfl
  · match k with
    | 0 => exact .inr rfl
    | _ + 1 => exact .inl rfl

end Globals

end Atasks.Router
