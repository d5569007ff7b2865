import Atasks.Amqp.Broker
/-!
# A response answers its own request

The invariant follows a correlation id around: what is on the wire, queued or being handled
under a request key is the request of some call, with that call's correlation id and body;
what is on its way to a reply queue is the answer to it; and a future holds an answer to its
own call. Correlation ids never repeat, so the answer that `send_request` returns is an
answer to that very call (`rpc_correlation`).
-/

namespace Atasks.Amqp.System

open Machine

def call (s : System) (t : NodeId) (k : CallId) : Option Call := (s.nodes t).inflight.calls k

/-- What `send_request(name, content)` sent under this correlation id. -/
def RequestOf (s : System) (name : String) (cid : Option CorrelationId) (body : Bytes) : Prop :=
  ∃ t k c, s.call t k = some c ∧ c.name = name ∧ cid = some c.correlationId ∧ c.content = some body

/-- What a request callback returned for the request with this correlation id. -/
def AnswerTo (s : System) (cid : Option CorrelationId) (body : Bytes) : Prop :=
  ∃ a ∈ s.answers, a.correlationId = cid ∧ a.value = body

/-- Where a response to it would go. -/
def RepliesTo (s : System) (m : Message) : Prop := ∃ q ∈ s.exclusive, m.replyTo = some q

/-- An exclusive queue bound to its own name. -/
def ReplyQueue (s : System) (q : String) : Prop := q ∈ s.exclusive ∧ ∀ b ∈ s.bindings,
    b.queue = q → b.key = q

inductive PublicationOk (cfg : Config) (s : System) (p : Publication) : Prop
  | request (name : String) (hname : IsTaskName name) (hkey : p.key = cfg.routingKey .rpc name)
      (hreply : s.RepliesTo p.message) (h : s.RequestOf name p.message.correlationId p.message.body)
  | reply (hkey : p.key ∈ s.exclusive) (h : s.AnswerTo p.message.correlationId p.message.body)
  | event (kind : Kind) (hkind : kind ≠ .rpc) (name : String) (hname : IsTaskName name)
      (hkey : p.key = cfg.routingKey kind name)

inductive BindingOk (cfg : Config) (s : System) (b : Binding) : Prop
  | shared (kind : Kind) (name : String) (hname : IsTaskName name)
    (hkey : b.key = cfg.routingKey kind name)
      (hqueue : cfg.queueName kind name = some b.queue)
  | subscriber (name : String) (hname : IsTaskName name)
    (hkey : b.key = cfg.routingKey .broadcast name)
      (hqueue : b.queue ∈ s.exclusive)
  | reply (hkey : b.key = b.queue) (hqueue : b.queue ∈ s.exclusive)

structure QueuedOk (cfg : Config) (s : System) (q : String) (m : Message) : Prop where
  known : cfg.isTaskQueue q = true ∨ q ∈ s.exclusive
  request : ∀ name, IsTaskName name → cfg.queueName .rpc name = some q →
    s.RepliesTo m ∧ s.RequestOf name m.correlationId m.body
  reply : s.ReplyQueue q → s.AnswerTo m.correlationId m.body

def ConsumerOk (cfg : Config) (s : System) (c : Consumer) : Prop :=
  match c.role with
  | .reply => s.ReplyQueue c.queue
  | .handler kind name callback =>
    kind = .rpc → IsTaskName name ∧ cfg.queueName .rpc name = some c.queue ∧
      (c.node, kind, name, callback) ∈ s.registered

structure HandlingOk (s : System) (h : Handling) : Prop where
  reply : s.RepliesTo h.message
  request : s.RequestOf h.name h.message.correlationId h.message.body
  registered : (h.node, .rpc, h.name, h.callback) ∈ s.registered

structure AnswerOk (s : System) (a : Answer) : Prop where
  request : s.RequestOf a.name a.correlationId a.request
  registered : (a.node, .rpc, a.name, a.callback) ∈ s.registered

/-- All calls of all transports. -/
structure CallsOk (s : System) : Prop where
  table : ∀ t, Amqp.Inv (s.nodes t).inflight
  issued : ∀ t k c, s.call t k = some c → c.correlationId ∈ s.issued
  distinct : ∀ t k c t' k' c', s.call t k = some c → s.call t' k' = some c' →
    c.correlationId = c'.correlationId →
    t = t' ∧ k = k'
  result : ∀ t k c r, s.call t k = some c → c.future = .result r ∨ c.phase = .finished
    (.returned r) →
    s.AnswerTo (some c.correlationId) r

structure Inv (cfg : Config) (s : System) : Prop where
  calls : s.CallsOk
  exclusive : ∀ q ∈ s.exclusive, cfg.isTaskKey q = false ∧ cfg.isTaskQueue q = false ∧
    Topic.WildcardFree q
  responseQueue : ∀ t q, (s.nodes t).responseQueue = some q → q ∈ s.exclusive
  wire : ∀ p ∈ s.wire, PublicationOk cfg s p
  bindings : ∀ b ∈ s.bindings, BindingOk cfg s b
  queued : ∀ p ∈ s.queued, QueuedOk cfg s p.1 p.2
  consumers : ∀ c ∈ s.consumers, ConsumerOk cfg s c
  handling : ∀ h ∈ s.handling, HandlingOk s h
  answers : ∀ a ∈ s.answers, AnswerOk s a

/-! ## What an event keeps -/

/-- Nothing that is known about calls, queues and answers is lost; a new binding is for a
queue that is new or not exclusive. -/
structure Extends (s s' : System) : Prop where
  call : ∀ t k c, s.call t k = some c →
    ∃ c', s'.call t k = some c' ∧ c'.name = c.name ∧ c'.content = c.content ∧
      c'.correlationId = c.correlationId
  answers : ∀ a ∈ s.answers, a ∈ s'.answers
  exclusive : ∀ q ∈ s.exclusive, q ∈ s'.exclusive
  registered : ∀ r ∈ s.registered, r ∈ s'.registered
  bindings : ∀ b ∈ s.bindings, b ∈ s'.bindings
  newBinding : ∀ b ∈ s'.bindings, b ∈ s.bindings ∨ b.queue ∉ s.exclusive

variable {cfg : Config} {s s' : System}

theorem RequestOf.mono (hx : Extends s s') {name : String} {cid : Option CorrelationId}
    {body : Bytes} (h : s.RequestOf name cid body) : s'.RequestOf name cid body := by
  obtain ⟨t, k, c, hc, rfl, rfl, hbody⟩ := h
  obtain ⟨c', hc', hname, hcontent, hcid⟩ := hx.call t k c hc
  exact ⟨t, k, c', hc', hname, by rw [hcid], hcontent.trans hbody⟩

theorem AnswerTo.mono (hx : Extends s s') {cid : Option CorrelationId} {body : Bytes}
    (h : s.AnswerTo cid body) :
    s'.AnswerTo cid body := by
  obtain ⟨a, ha, h⟩ := h
  exact ⟨a, hx.answers a ha, h⟩

theorem RepliesTo.mono (hx : Extends s s') {m : Message} (h : s.RepliesTo m) : s'.RepliesTo m := by
  obtain ⟨q, hq, h⟩ := h
  exact ⟨q, hx.exclusive q hq, h⟩

theorem ReplyQueue.mono (hx : Extends s s') {q : String} (h : s.ReplyQueue q) :
    s'.ReplyQueue q := by
  refine ⟨hx.exclusive q h.1, fun b hb hq => ?_⟩
  rcases hx.newBinding b hb with hold | hnew
  · exact h.2 b hold hq
  · exact absurd (hq ▸ h.1) hnew

theorem PublicationOk.mono (hx : Extends s s') {p : Publication} (h : PublicationOk cfg s p) :
    PublicationOk cfg s' p := by
  cases h with
  | request name hname hkey hreply h => exact .request name hname hkey (hreply.mono hx) (h.mono hx)
  | reply hkey h => exact .reply (hx.exclusive _ hkey) (h.mono hx)
  | event kind hkind name hname hkey => exact .event kind hkind name hname hkey

theorem BindingOk.mono (hx : Extends s s') {b : Binding} (h : BindingOk cfg s b) :
    BindingOk cfg s' b := by
  cases h with
  | shared kind name hname hkey hqueue => exact .shared kind name hname hkey hqueue
  | subscriber name hname hkey hqueue => exact .subscriber name hname hkey (hx.exclusive _ hqueue)
  | reply hkey hqueue => exact .reply hkey (hx.exclusive _ hqueue)

/-- What is queued stays what it was: a queue with messages does not become a reply queue. -/
theorem QueuedOk.mono (hx : Extends s s') (hexcl : ∀ q ∈ s'.exclusive, cfg.isTaskQueue q = false)
    {q : String} {m : Message} (h : QueuedOk cfg s q m) : QueuedOk cfg s' q m := by
  refine ⟨h.known.imp_right (hx.exclusive q), fun name hname hq => ?_, fun hq => ?_⟩
  · obtain ⟨hreply, hreq⟩ := h.request name hname hq
    exact ⟨hreply.mono hx, hreq.mono hx⟩
  · rcases h.known with hk | hk
    · rw [hexcl q hq.1] at hk; cases hk
    · exact (h.reply ⟨hk, fun b hb hbq => hq.2 b (hx.bindings b hb) hbq⟩).mono hx

theorem ConsumerOk.mono (hx : Extends s s') {c : Consumer} (h : ConsumerOk cfg s c) :
    ConsumerOk cfg s' c := by
  unfold ConsumerOk at h ⊢
  split
  · rename_i hr
    rw [hr] at h
    exact ReplyQueue.mono hx h
  · rename_i hr
    rw [hr] at h
    intro hk
    obtain ⟨hname, hqueue, hreg⟩ := h hk
    exact ⟨hname, hqueue, hx.registered _ hreg⟩

theorem HandlingOk.mono (hx : Extends s s') {h : Handling} (hh : HandlingOk s h) :
    HandlingOk s' h :=
  ⟨hh.reply.mono hx, hh.request.mono hx, hx.registered _ hh.registered⟩

theorem AnswerOk.mono (hx : Extends s s') {a : Answer} (h : AnswerOk s a) : AnswerOk s' a :=
  ⟨h.request.mono hx, hx.registered _ h.registered⟩

/-- What is in a list that got one element. -/
theorem old_or_new {α : Type*} {P : α → Prop} {x y : α} {l : List α} (hx : P x) (hy : y ∈ x :: l) :
    y ∈ l ∨ P y := by
  rcases List.mem_cons.1 hy with rfl | hold
  · exact Or.inr hx
  · exact Or.inl hold

/-- The invariant, of what an event has left alone and of what is new. -/
theorem Inv.extend (h : Inv cfg s) (hx : Extends s s') (hcalls : s'.CallsOk)
    (hexcl : ∀ q ∈ s'.exclusive, q ∈ s.exclusive ∨
      (cfg.isTaskKey q = false ∧ cfg.isTaskQueue q = false ∧ Topic.WildcardFree q))
    (hresp : ∀ t q, (s'.nodes t).responseQueue = some q → (s.nodes t).responseQueue = some q ∨
      q ∈ s'.exclusive)
    (hwire : ∀ p ∈ s'.wire, p ∈ s.wire ∨ PublicationOk cfg s' p)
    (hbind : ∀ b ∈ s'.bindings, b ∈ s.bindings ∨ BindingOk cfg s' b)
    (hqueued : ∀ p ∈ s'.queued, p ∈ s.queued ∨ QueuedOk cfg s' p.1 p.2)
    (hcons : ∀ c ∈ s'.consumers, c ∈ s.consumers ∨ ConsumerOk cfg s' c)
    (hhand : ∀ x ∈ s'.handling, x ∈ s.handling ∨ HandlingOk s' x)
    (hans : ∀ a ∈ s'.answers, a ∈ s.answers ∨ AnswerOk s' a) : Inv cfg s' := by
  have hexcl' : ∀ q ∈ s'.exclusive, cfg.isTaskKey q = false ∧ cfg.isTaskQueue q = false ∧
      Topic.WildcardFree q :=
    fun q hq => (hexcl q hq).elim (h.exclusive q) id
  exact
    { calls := hcalls
      exclusive := hexcl'
      responseQueue := fun t q hq => (hresp t q hq).elim
        (fun ho => hx.exclusive q (h.responseQueue t q ho)) id
      wire := fun p hp => (hwire p hp).elim (fun ho => (h.wire p ho).mono hx) id
      bindings := fun b hb => (hbind b hb).elim (fun ho => (h.bindings b ho).mono hx) id
      queued := fun p hp => (hqueued p hp).elim
        (fun ho => (h.queued p ho).mono hx fun q hq => (hexcl' q hq).2.1) id
      consumers := fun c hc => (hcons c hc).elim (fun ho => (h.consumers c ho).mono hx) id
      handling := fun x hx' => (hhand x hx').elim (fun ho => (h.handling x ho).mono hx) id
      answers := fun a ha => (hans a ha).elim (fun ho => (h.answers a ho).mono hx) id }

/-! ## Transports -/

/-- The event steps the table of one transport and of no other. -/
structure NodeStep (s s' : System) (t : NodeId) (e : Amqp.Event) : Prop where
  step : Amqp.step (s.nodes t).inflight e = some (s'.nodes t).inflight
  others : ∀ t', t' ≠ t → (s'.nodes t').inflight = (s.nodes t').inflight

theorem NodeStep.of_setNode {t : NodeId} {e : Amqp.Event} {n : Node}
    (h : Amqp.step (s.nodes t).inflight e = some n.inflight)
    (hs : s'.nodes = Function.update s.nodes t n) : NodeStep s s' t e := by
  refine ⟨by rw [hs, Function.update_self]; exact h, fun t' ht => ?_⟩
  rw [hs, Function.update_of_ne ht]

theorem NodeStep.call {t : NodeId} {e : Amqp.Event} (hn : NodeStep s s' t e) (h : s.CallsOk)
    {t' : NodeId} {k : CallId} {c : Call} (hc : s.call t' k = some c) :
    ∃ c', s'.call t' k = some c' ∧ (c' = c ∨ t' = t ∧ CallMove (s.nodes t).inflight e k c c') := by
  by_cases ht : t' = t
  · subst ht
    obtain ⟨c', hc', hm⟩ := step_call (h.table t') hn.step hc
    exact ⟨c', hc', Or.inr ⟨rfl, hm⟩⟩
  · exact ⟨c, by rw [System.call, hn.others t' ht]; exact hc, Or.inl rfl⟩

/-- Every call was there before. -/
theorem NodeStep.back {t : NodeId} {e : Amqp.Event} (hn : NodeStep s s' t e) (h : s.CallsOk)
    (he : ∀ k name content timeout cid, e ≠ .sendRequest k name content timeout cid) {t' : NodeId}
    {k : CallId} {c' : Call} (hc' : s'.call t' k = some c') :
    ∃ c, s.call t' k = some c ∧ (c' = c ∨ t' = t ∧ CallMove (s.nodes t).inflight e k c c') := by
  cases hc : s.call t' k with
  | none =>
    by_cases ht : t' = t
    · subst ht
      rw [System.call, step_none (h.table t') hn.step hc (he k)] at hc'
      cases hc'
    · rw [System.call, hn.others t' ht] at hc'
      rw [System.call, hc'] at hc
      cases hc
  | some c =>
    obtain ⟨d, hd, hm⟩ := hn.call h hc
    rw [hc'] at hd
    cases hd
    exact ⟨c, rfl, hm⟩

/-- A transport's event keeps what is known about all calls, provided a response it handles
is an answer. -/
theorem CallsOk.nodeStep (h : s.CallsOk) {t : NodeId} {e : Amqp.Event} (hn : NodeStep s s' t e)
    (he : ∀ k name content timeout cid, e ≠ .sendRequest k name content timeout cid)
    (hans : ∀ a ∈ s.answers, a ∈ s'.answers) (hissued : ∀ cid ∈ s.issued, cid ∈ s'.issued)
    (hresp : ∀ cid body, e = .response (some cid) body → s.AnswerTo (some cid) body) :
    s'.CallsOk := by
  have lift : ∀ {cid body}, s.AnswerTo cid body → s'.AnswerTo cid body :=
    fun ⟨a, ha, h⟩ => ⟨a, hans a ha, h⟩
  have same : ∀ {t' k c'}, s'.call t' k = some c' → ∃ c, s.call t' k = some c ∧
      c'.correlationId = c.correlationId := by
    intro t' k c' hc'
    obtain ⟨c, hc, rfl | ⟨-, hm⟩⟩ := hn.back h he hc'
    · exact ⟨_, hc, rfl⟩
    · exact ⟨c, hc, hm.correlationId⟩
  refine ⟨fun t' => ?_, fun t' k c' hc' => ?_, fun t₁ k₁ c₁ t₂ k₂ c₂ h₁ h₂ heq => ?_,
    fun t' k c' r hc' hr => ?_⟩
  · by_cases ht : t' = t
    · subst ht; exact (h.table t').step e hn.step
    · rw [hn.others t' ht]; exact h.table t'
  · obtain ⟨c, hc, hcid⟩ := same hc'
    rw [hcid]
    exact hissued _ (h.issued t' k c hc)
  · obtain ⟨d₁, hd₁, e₁⟩ := same h₁
    obtain ⟨d₂, hd₂, e₂⟩ := same h₂
    exact h.distinct t₁ k₁ d₁ t₂ k₂ d₂ hd₁ hd₂ (by rw [← e₁, ← e₂, heq])
  · obtain ⟨c, hc, rfl | ⟨-, hm⟩⟩ := hn.back h he hc'
    · exact lift (h.result t' k _ r hc hr)
    · rw [hm.correlationId]
      have hfuture : c'.future = .result r → s'.AnswerTo (some c.correlationId) r := fun hf => by
        cases hm.future with
        | kept hk => exact lift (h.result t' k c r hc (Or.inl (hk ▸ hf)))
        | answered body hev _ _ hb => rw [hb] at hf; cases hf; exact lift (hresp _ _ hev)
        | failed _ _ _ _ hb => rw [hb] at hf; cases hf
        | abandoned _ _ hb => rw [hb] at hf; cases hf
      rcases hr with hf | hf
      · exact hfuture hf
      · rcases hm.returned r hf with hp | hfut
        · exact lift (h.result t' k c r hc (Or.inr (hp.trans hf)))
        · exact lift (h.result t' k c r hc (Or.inl hfut))

/-- Events of the broker and of handlers do not touch the tables. -/
theorem CallsOk.same (h : s.CallsOk) (hn : s'.nodes = s.nodes)
    (hans : ∀ a ∈ s.answers, a ∈ s'.answers) (hissued : s'.issued = s.issued) : s'.CallsOk := by
  have hcall : ∀ t k, s'.call t k = s.call t k := fun t k => by rw [System.call, hn, System.call]
  refine ⟨fun t => by rw [hn]; exact h.table t, fun t k c hc => ?_, fun t k c t' k' c' hc hc' => ?_,
    fun t k c r hc hr => ?_⟩
  · rw [hissued]; exact h.issued t k c (hcall t k ▸ hc)
  · exact h.distinct t k c t' k' c' (hcall t k ▸ hc) (hcall t' k' ▸ hc')
  · obtain ⟨a, ha, heq⟩ := h.result t k c r (hcall t k ▸ hc) hr
    exact ⟨a, hans a ha, heq⟩

theorem NodeStep.extends {t : NodeId} {e : Amqp.Event} (hn : NodeStep s s' t e) (h : s.CallsOk)
    (hans : s'.answers = s.answers) (hexcl : ∀ q ∈ s.exclusive, q ∈ s'.exclusive)
    (hreg : s'.registered = s.registered) (hbind : ∀ b ∈ s.bindings, b ∈ s'.bindings)
    (hnew : ∀ b ∈ s'.bindings, b ∈ s.bindings ∨ b.queue ∉ s.exclusive) :
    Extends s s' := by
  refine ⟨fun t' k c hc => ?_, by simp [hans], hexcl, by simp [hreg], hbind, hnew⟩
  obtain ⟨c', hc', rfl | ⟨-, hm⟩⟩ := hn.call h hc
  · exact ⟨_, hc', rfl, rfl, rfl⟩
  · exact ⟨c', hc', hm.name, hm.content, hm.correlationId⟩

/-- An event of one transport that nobody else sees. -/
theorem Inv.local (h : Inv cfg s) {t : NodeId} {e : Amqp.Event} (hn : NodeStep s s' t e)
    (he : ∀ k name content timeout cid, e ≠ .sendRequest k name content timeout cid)
    (hresp : ∀ cid body, e = .response (some cid) body → s.AnswerTo (some cid) body)
    (hresq : ∀ t' q, (s'.nodes t').responseQueue = some q → (s.nodes t').responseQueue = some q)
    (hissued : s'.issued = s.issued) (hans : s'.answers = s.answers)
    (hexcl : s'.exclusive = s.exclusive) (hreg : s'.registered = s.registered)
    (hbind : s'.bindings = s.bindings) (hwire : ∀ p ∈ s'.wire, p ∈ s.wire ∨ PublicationOk cfg s' p)
    (hqueued : ∀ p ∈ s'.queued, p ∈ s.queued) (hcons : ∀ c ∈ s'.consumers, c ∈ s.consumers)
    (hhand : ∀ x ∈ s'.handling, x ∈ s.handling) : Inv cfg s' := by
  have hx : Extends s s' := hn.extends h.calls hans (by simp [hexcl]) hreg (by simp [hbind])
    fun b hb => Or.inl (hbind ▸ hb)
  exact h.extend hx (h.calls.nodeStep hn he (by simp [hans]) (by simp [hissued]) hresp)
    (fun q hq => Or.inl (hexcl ▸ hq))
    (fun t' q hq => Or.inl (hresq t' q hq)) hwire (fun b hb => Or.inl (hbind ▸ hb))
      (fun p hp => Or.inl (hqueued p hp))
    (fun c hc => Or.inl (hcons c hc)) (fun x hx => Or.inl (hhand x hx)) fun a ha =>
      Or.inl (hans ▸ ha)

/-- An event that leaves all transports alone. -/
theorem Extends.of_same (hn : s'.nodes = s.nodes) (hans : ∀ a ∈ s.answers, a ∈ s'.answers)
    (hexcl : ∀ q ∈ s.exclusive, q ∈ s'.exclusive) (hreg : ∀ r ∈ s.registered, r ∈ s'.registered)
    (hbind : ∀ b ∈ s.bindings, b ∈ s'.bindings)
    (hnew : ∀ b ∈ s'.bindings, b ∈ s.bindings ∨ b.queue ∉ s.exclusive) :
    Extends s s' :=
  ⟨fun t k c hc => ⟨c, by rw [System.call, hn]; exact hc, rfl, rfl, rfl⟩, hans, hexcl,
    hreg, hbind, hnew⟩

/-- An event that leaves transports, queues and bindings alone. -/
theorem Inv.messages (h : Inv cfg s) (hn : s'.nodes = s.nodes) (hissued : s'.issued = s.issued)
    (hexcl : s'.exclusive = s.exclusive) (hreg : s'.registered = s.registered)
    (hbind : s'.bindings = s.bindings) (hgrow : ∀ a ∈ s.answers, a ∈ s'.answers)
    (hcons : ∀ c ∈ s'.consumers, c ∈ s.consumers)
    (hwire : Extends s s' → ∀ p ∈ s'.wire, p ∈ s.wire ∨ PublicationOk cfg s' p)
    (hqueued : Extends s s' → ∀ p ∈ s'.queued, p ∈ s.queued ∨ QueuedOk cfg s' p.1 p.2)
    (hhand : Extends s s' → ∀ x ∈ s'.handling, x ∈ s.handling ∨ HandlingOk s' x)
    (hans : Extends s s' → ∀ a ∈ s'.answers, a ∈ s.answers ∨ AnswerOk s' a) : Inv cfg s' := by
  have hx : Extends s s' := Extends.of_same hn hgrow (by simp [hexcl]) (by simp [hreg])
    (by simp [hbind])
    fun b hb => Or.inl (hbind ▸ hb)
  exact h.extend hx (h.calls.same hn hgrow hissued) (fun q hq => Or.inl (hexcl ▸ hq))
    (fun t q hq => Or.inl (hn ▸ hq))
    (hwire hx) (fun b hb => Or.inl (hbind ▸ hb)) (hqueued hx) (fun c hc => Or.inl (hcons c hc))
      (hhand hx) (hans hx)

/-! ## The broker -/

/-- **Routing.** The queues a publication reaches are those it is meant for. -/
theorem routes_ok (hcfg : Topic.WildcardFree cfg.keyPrefix) (h : Inv cfg s) {p : Publication}
    (hp : p ∈ s.wire) {x : String × Message} (hx : x ∈ s.routes p) : QueuedOk cfg s x.1 x.2 := by
  obtain ⟨b, hb, rfl⟩ := List.mem_map.1 hx
  obtain ⟨hmem, hmatch⟩ := List.mem_filter.1 hb
  have hb := h.bindings b hmem
  have hp := h.wire p hp
  have taskKey : ∀ {kind name}, IsTaskName name → p.key = cfg.routingKey kind name →
      p.key ∉ s.exclusive := by
    intro kind name hname hkey hq
    have hfalse := (h.exclusive _ hq).1
    rw [hkey, cfg.isTaskKey_routingKey kind hname] at hfalse
    cases hfalse
  have taskQueue : ∀ {name}, IsTaskName name → cfg.queueName .rpc name = some b.queue →
      b.queue ∉ s.exclusive := by
    intro name hname hqueue hq
    have hfalse := (h.exclusive _ hq).2.1
    rw [cfg.isTaskQueue_queueName hname hqueue] at hfalse
    cases hfalse
  have hkey : b.key = p.key := by
    have hfree : Topic.WildcardFree b.key := by
      cases hb with
      | shared kind name hname hkey _ =>
        rw [hkey]; exact cfg.wildcardFree_routingKey hcfg kind hname
      | subscriber name hname hkey _ =>
        rw [hkey]; exact cfg.wildcardFree_routingKey hcfg .broadcast hname
      | reply hkey hq => rw [hkey]; exact (h.exclusive _ hq).2.2
    exact (Topic.keyMatches_iff_eq hfree).1 (Bool.and_eq_true_iff.1 hmatch).2
  refine ⟨?_, fun name hname hq => ?_, fun hq => ?_⟩
  · cases hb with
    | shared kind name hname _ hq => exact Or.inl (cfg.isTaskQueue_queueName hname hq)
    | subscriber _ _ _ hq => exact Or.inr hq
    | reply _ hq => exact Or.inr hq
  · cases hb with
    | shared kind name' hname' hbkey hq' =>
      obtain ⟨rfl, rfl⟩ := cfg.queueName_inj hq' hq
      rw [hbkey] at hkey
      cases hp with
      | request name'' hname'' hpkey hreply hreq =>
        obtain ⟨-, rfl⟩ := cfg.routingKey_inj (hkey.trans hpkey)
        exact ⟨hreply, hreq⟩
      | reply hpkey _ => exact absurd hpkey (taskKey hname' hkey.symm)
      | event kind hkind name'' hname'' hpkey =>
        exact absurd (cfg.routingKey_inj (hkey.trans hpkey)).1.symm hkind
    | subscriber _ _ _ hq' => exact absurd hq' (taskQueue hname hq)
    | reply _ hq' => exact absurd hq' (taskQueue hname hq)
  · have hown : p.key ∈ s.exclusive := by rw [← hkey, hq.2 b hmem rfl]; exact hq.1
    cases hp with
    | request name hname hpkey _ _ => exact absurd hown (taskKey hname hpkey)
    | reply _ h => exact h
    | event kind _ name hname hpkey => exact absurd hown (taskKey hname hpkey)

theorem Inv.accept (hcfg : Topic.WildcardFree cfg.keyPrefix) (h : Inv cfg s) {i : Nat}
    (hs : s.accept i = some s') :
    Inv cfg s' := by
  unfold System.accept at hs
  split at hs
  · cases hs
  · rename_i p hp
    cases hs
    refine h.messages rfl rfl rfl rfl rfl (fun _ h => h) (fun _ h => h)
      (fun _ p hp => Or.inl (List.mem_of_mem_eraseIdx hp))
      (fun hx x hx' => ?_) (fun _ _ h => Or.inl h) fun _ _ h => Or.inl h
    rcases List.mem_append.1 hx' with hold | hnew
    · exact Or.inl hold
    · exact Or.inr ((routes_ok hcfg h (List.mem_of_getElem? hp) hnew).mono hx fun q hq =>
        (h.exclusive q hq).2.1)

theorem taken_subset {i : Nat} {again : Bool} :
    ∀ p ∈ s.taken i again, p ∈ s.queued := fun p hp => by
  unfold taken at hp
  split at hp
  · exact hp
  · exact List.mem_of_mem_eraseIdx hp

@[simp] theorem setInflight_responseQueue (t t' : NodeId) (f : State) :
    ((s.setInflight t f).nodes t').responseQueue = (s.nodes t').responseQueue := by
  simp only [setInflight, setNode, Function.update_apply]
  split <;> simp_all

theorem Inv.deliver (h : Inv cfg s) {i j : Nat} {again : Bool}
    (hs : s.deliver i j again = some s') : Inv cfg s' := by
  unfold System.deliver at hs
  split at hs
  · rename_i q m c hq hc
    have hqueued := h.queued _ (List.mem_of_getElem? hq)
    have hcons := h.consumers _ (List.mem_of_getElem? hc)
    unfold ConsumerOk at hcons
    split at hs
    · rename_i hdel
      split at hs
      · -- `_on_response_message`
        rename_i hrole
        cases hs
        rw [hrole] at hcons
        simp only [hdel.1] at hcons
        refine h.local (t := c.node) (e := .response m.correlationId m.body)
          (NodeStep.of_setNode rfl rfl) (by simp) ?_
          (fun t' q' hq' => setInflight_responseQueue c.node t' _ ▸ hq') rfl rfl rfl rfl rfl
          (fun _ h => Or.inl h) taken_subset (fun _ h => h) fun _ h => h
        intro cid body he
        obtain ⟨hcid, rfl⟩ := Amqp.Event.response.inj he
        exact hcid ▸ hqueued.reply hcons
      · -- `_on_message`
        rename_i name callback hrole
        cases hs
        rw [hrole] at hcons
        obtain ⟨hname, hqueue, hreg⟩ := hcons rfl
        obtain ⟨hreply, hreq⟩ := hqueued.request name hname (hdel.1 ▸ hqueue)
        refine h.messages rfl rfl rfl rfl rfl (fun _ h => h) (fun _ h => h) (fun _ _ h => Or.inl h)
          (fun _ p hp => Or.inl (taken_subset p hp)) (fun hx _ hx' => old_or_new ?_ hx')
            fun _ _ h => Or.inl h
        exact ⟨hreply.mono hx, hreq.mono hx, hreg⟩
      · cases hs
        exact h.messages rfl rfl rfl rfl rfl (fun _ h => h) (fun _ h => h) (fun _ _ h => Or.inl h)
          (fun _ p hp => Or.inl (taken_subset p hp)) (fun _ _ h => Or.inl h) fun _ _ h => Or.inl h
    · cases hs
  · cases hs

/-! ## Clients -/

theorem Inv.internal (h : Inv cfg s) {t : NodeId} {e : Amqp.Event} (hs : s.internal t e = some s') :
    Inv cfg s' := by
  unfold System.internal at hs
  split at hs
  · rename_i hint
    obtain ⟨f, hf, rfl⟩ := Option.map_eq_some_iff.1 hs
    refine h.local (t := t) (e := e) (NodeStep.of_setNode hf rfl)
      (by rintro _ _ _ _ _ rfl; cases hint)
      (by rintro _ _ rfl; cases hint) (fun t' q hq => setInflight_responseQueue t t' f ▸ hq) rfl
        rfl rfl rfl rfl
      (fun _ h => Or.inl h) (fun _ h => h) (fun _ h => h) fun _ h => h
  · cases hs

theorem CallsOk.sendRequest (h : s.CallsOk) {t : NodeId} {k : CallId} {name : String}
    {content : Option Bytes} {timeout : Option Nat} {cid : CorrelationId}
    (hn : NodeStep s s' t (.sendRequest k name content timeout cid)) (hcid : cid ∉ s.issued)
    (hans : s'.answers = s.answers) (hissued : s'.issued = cid :: s.issued) :
    s'.call t k = some (Call.sent name content timeout cid) ∧ s'.CallsOk := by
  have hstep := hn.step
  simp only [Amqp.step, Amqp.sendRequest] at hstep
  split at hstep
  · rename_i hg
    have hcalls : (s'.nodes t).inflight.calls =
        Function.update (s.nodes t).inflight.calls k
          (some (Call.sent name content timeout cid)) := by
      rw [← Option.some.inj hstep]
    have hnew : s'.call t k = some (Call.sent name content timeout cid) := by
      rw [System.call, hcalls, Function.update_self]
    -- every other call is an old one
    have back : ∀ {t' k' c}, s'.call t' k' = some c →
        (t' = t ∧ k' = k ∧ c = Call.sent name content timeout cid) ∨ s.call t' k' = some c := by
      intro t' k' c hc
      by_cases ht : t' = t
      · subst ht
        rw [System.call, hcalls] at hc
        rcases Dict.lookup_update hc with ⟨hk, heq⟩ | ⟨-, hold⟩
        · exact Or.inl ⟨rfl, hk, heq⟩
        · exact Or.inr hold
      · rw [System.call, hn.others t' ht] at hc
        exact Or.inr hc
    refine ⟨hnew, fun t' => ?_, fun t' k' c hc => ?_, fun t₁ k₁ c₁ t₂ k₂ c₂ h₁ h₂ heq => ?_,
      fun t' k' c r hc hr => ?_⟩
    · by_cases ht : t' = t
      · subst ht; exact (h.table t').step _ hn.step
      · rw [hn.others t' ht]; exact h.table t'
    · rw [hissued]
      rcases back hc with ⟨-, -, rfl⟩ | hold
      · exact List.mem_cons_self
      · exact List.mem_cons_of_mem _ (h.issued t' k' c hold)
    · rcases back h₁ with ⟨rfl, rfl, rfl⟩ | o₁ <;> rcases back h₂ with ⟨rfl, rfl, rfl⟩ | o₂
      · exact ⟨rfl, rfl⟩
      · have heq' : cid = c₂.correlationId := heq
        exact absurd (heq' ▸ h.issued t₂ k₂ c₂ o₂) hcid
      · have heq' : c₁.correlationId = cid := heq
        exact absurd (heq' ▸ h.issued t₁ k₁ c₁ o₁) hcid
      · exact h.distinct t₁ k₁ c₁ t₂ k₂ c₂ o₁ o₂ heq
    · rcases back hc with ⟨-, -, rfl⟩ | hold
      · rcases hr with hr | hr <;> cases hr
      · obtain ⟨a, ha, heq⟩ := h.result t' k' c r hold hr
        exact ⟨a, hans ▸ ha, heq⟩
  · cases hstep

theorem Inv.sendRequest (h : Inv cfg s) {t : NodeId} {k : CallId} {name : String}
    {content : Option Bytes} {timeout : Option Nat} {cid : CorrelationId}
    (hs : s.sendRequest cfg t k name content timeout cid = some s') :
    Inv cfg s' := by
  unfold System.sendRequest at hs
  split at hs
  · rename_i hg
    obtain ⟨f, hf, hs'⟩ := Option.map_eq_some_iff.1 hs
    have hn : NodeStep s s' t (.sendRequest k name content timeout cid) :=
      NodeStep.of_setNode (n := { s.nodes t with inflight := f }) hf (by rw [← hs']; rfl)
    obtain ⟨hcall, hcalls⟩ := h.calls.sendRequest hn hg.2 (by rw [← hs']; rfl) (by rw [← hs'])
    subst hs'
    have hx : Extends s _ := hn.extends h.calls rfl (fun _ h => h) rfl (fun _ h => h)
      fun _ h => Or.inl h
    refine h.extend hx hcalls (fun _ h => Or.inl h)
      (fun t' q hq => Or.inl (setInflight_responseQueue t t' f ▸ hq))
      (fun p hp => ?_) (fun _ h => Or.inl h) (fun _ h => Or.inl h) (fun _ h => Or.inl h)
        (fun _ h => Or.inl h)
      fun _ h => Or.inl h
    -- the request that goes out is the new call's
    simp only at hp
    split at hp
    · rename_i body q hq
      exact old_or_new (.request name hg.1 rfl ⟨q, h.responseQueue t q hq, rfl⟩
        ⟨t, k, _, hcall, rfl, rfl, rfl⟩) hp
    · exact Or.inl hp
  · cases hs

theorem PublishKind.kind_ne_rpc (kind : PublishKind) :
    kind.kind ≠ .rpc := by cases kind <;> simp [PublishKind.kind]

theorem Inv.publish (h : Inv cfg s) {t : NodeId} {p : Nat} {kind : PublishKind} {name : String}
    {content : Option Bytes} (hs : s.publish cfg t p kind name content = some s') : Inv cfg s' := by
  unfold System.publish at hs
  split at hs
  · rename_i hname
    obtain ⟨f, hf, rfl⟩ := Option.map_eq_some_iff.1 hs
    refine h.local (t := t) (e := .publish p kind name content)
      (NodeStep.of_setNode (n := { s.nodes t with inflight := f }) hf rfl) (by simp) (by simp)
        (fun t' q hq => setInflight_responseQueue t t' f ▸ hq)
      rfl rfl rfl rfl rfl (fun x hx => ?_) (fun _ h => h) (fun _ h => h) fun _ h => h
    simp only at hx
    split at hx
    · exact old_or_new (.event kind.kind (PublishKind.kind_ne_rpc kind) name hname rfl) hx
    · exact Or.inl hx
  · cases hs

/-! ## Connections -/

theorem freshQueue_spec {q : String} (h : s.freshQueue cfg q = true) :
    q ∉ s.exclusive ∧ cfg.isTaskKey q = false ∧ cfg.isTaskQueue q = false ∧
    Topic.WildcardFree q := by
  simpa [freshQueue, and_assoc] using h

theorem exclusive_of_fresh {q : String} (h : s.freshQueue cfg q = true) : ∀ x ∈ q :: s.exclusive,
    x ∈ s.exclusive ∨ (cfg.isTaskKey x = false ∧ cfg.isTaskQueue x = false ∧
      Topic.WildcardFree x) := by
  intro x hx
  rcases List.mem_cons.1 hx with rfl | hold
  · exact Or.inr (freshQueue_spec h).2
  · exact Or.inl hold

/-- No queue of that name exists yet. -/
theorem Inv.unbound (h : Inv cfg s) {q : String} (hq : s.freshQueue cfg q = true) :
    ∀ b ∈ s.bindings, b.queue ≠ q := by
  rintro b hb rfl
  obtain ⟨hexcl, -, hqueue, -⟩ := freshQueue_spec hq
  cases h.bindings b hb with
  | shared kind name hname _ hq' => rw [cfg.isTaskQueue_queueName hname hq'] at hqueue; cases hqueue
  | subscriber _ _ _ hq' => exact hexcl hq'
  | reply _ hq' => exact hexcl hq'

theorem Inv.connect (h : Inv cfg s) {t : NodeId} {q : String} (hs : s.connect cfg t q = some s') :
    Inv cfg s' := by
  unfold System.connect at hs
  split at hs
  · rename_i hfresh
    have hexcl := (freshQueue_spec hfresh).1
    have hs' := Option.some.inj hs
    have hn : NodeStep s s' t .reconnected :=
      NodeStep.of_setNode (n := ⟨{ (s.nodes t).inflight with closed := false }, some q⟩) rfl
        (by rw [← hs']; rfl)
    have hcalls : s'.CallsOk := h.calls.nodeStep hn (by simp) (by rw [← hs']; exact fun _ h => h)
      (by rw [← hs']; exact fun _ h => h) (by simp)
    subst hs'
    have hx : Extends s _ := hn.extends h.calls rfl (fun _ h => List.mem_cons_of_mem _ h) rfl
      (fun _ h => List.mem_cons_of_mem _ h) fun _ hb =>
        old_or_new (P := fun b => b.queue ∉ s.exclusive) hexcl hb
    refine h.extend hx hcalls (exclusive_of_fresh hfresh) (fun t' x hx' => ?_) (fun _ h => Or.inl h)
      (fun _ hb => old_or_new (.reply rfl List.mem_cons_self) hb) (fun _ h => Or.inl h)
        (fun _ hc => old_or_new ?_ hc)
      (fun _ h => Or.inl h) fun _ h => Or.inl h
    · by_cases ht : t' = t
      · subst ht
        simp only [setNode, Function.update_self, Option.some.injEq] at hx'
        exact Or.inr (hx' ▸ List.mem_cons_self)
      · simp only [setNode, Function.update_of_ne ht] at hx'
        exact Or.inl hx'
    · refine ⟨List.mem_cons_self, fun b hb hbq => ?_⟩
      rcases List.mem_cons.1 hb with rfl | hold
      · rfl
      · exact absurd hbq (h.unbound hfresh b hold)
  · cases hs

theorem Inv.disconnect (h : Inv cfg s) (t : NodeId) : Inv cfg (s.disconnect t) := by
  refine h.local (t := t) (e := .connectionClosed none) (NodeStep.of_setNode rfl rfl) (by simp)
    (by simp) (fun t' q hq => ?_)
    rfl rfl rfl rfl rfl (fun _ h => Or.inl h) (fun _ h => h) (fun _ h => (List.mem_filter.1 h).1)
      fun _ h => h
  by_cases ht : t' = t
  · subst ht; simp [System.disconnect, setNode] at hq
  · simpa [System.disconnect, setNode, Function.update_of_ne ht] using hq

theorem Inv.dropped (h : Inv cfg s) (t : NodeId) (exc : Option Exc) : Inv cfg (s.dropped t exc) :=
  h.local (t := t) (e := .connectionClosed exc) (NodeStep.of_setNode rfl rfl) (by simp) (by simp)
    (fun t' q hq => setInflight_responseQueue t t' _ ▸ hq) rfl rfl rfl rfl rfl (fun _ h => Or.inl h)
    (fun _ h => (List.mem_filter.1 h).1) (fun _ h => h) fun _ h => h

theorem Inv.restored (h : Inv cfg s) (t : NodeId) : Inv cfg (s.restored t) :=
  h.local (t := t) (e := .reconnected) (NodeStep.of_setNode rfl rfl) (by simp) (by simp)
    (fun t' q hq => setInflight_responseQueue t t' _ ▸ hq) rfl rfl rfl rfl rfl (fun _ h => Or.inl h)
      (fun _ h => h)
    (fun _ h => h) fun _ h => h

/-! ## Servers -/

/-- A queue is bound and consumed from, whoever has chosen its name. -/
theorem Inv.subscribed (h : Inv cfg s) {exclusive : List String} {b : Binding} {c : Consumer}
    {r : NodeId × Kind × String × CallbackId}
    (hs : s' =
      { s with exclusive := exclusive, bindings := b :: s.bindings, consumers := c :: s.consumers, registered := r :: s.registered })
    (hgrow : ∀ q ∈ s.exclusive, q ∈ exclusive)
    (hexcl : ∀ q ∈ exclusive, q ∈ s.exclusive ∨
      (cfg.isTaskKey q = false ∧ cfg.isTaskQueue q = false ∧ Topic.WildcardFree q))
    (hnew : b.queue ∉ s.exclusive) (hb : BindingOk cfg s' b) (hc : ConsumerOk cfg s' c) :
    Inv cfg s' := by
  subst hs
  have hx : Extends s { s with
      exclusive := exclusive, bindings := b :: s.bindings, consumers :=
        c :: s.consumers, registered := r :: s.registered } :=
    Extends.of_same rfl (fun _ h => h) hgrow (fun _ h => List.mem_cons_of_mem _ h)
    (fun _ h => List.mem_cons_of_mem _ h) fun _ hb' =>
      old_or_new (P := fun b => b.queue ∉ s.exclusive) hnew hb'
  exact h.extend hx (h.calls.same rfl (fun _ h => h) rfl) hexcl (fun _ _ h => Or.inl h)
    (fun _ h => Or.inl h)
    (fun _ hb' => old_or_new hb hb') (fun _ h => Or.inl h) (fun _ hc' => old_or_new hc hc')
      (fun _ h => Or.inl h)
    fun _ h => Or.inl h

theorem Inv.register (h : Inv cfg s) {t : NodeId} {kind : Kind} {name : String}
    {callback : CallbackId} {q : String} (hs : s.register cfg t kind name callback q = some s') :
    Inv cfg s' := by
  unfold System.register at hs
  split at hs
  · rename_i hname
    -- a queue shared by name, or an exclusive one with a fresh name
    split at hs
    · rename_i queue hqueue
      have hs' := (Option.some.inj hs).symm
      have hnot : queue ∉ s.exclusive := fun hq => by
        have hfalse := (h.exclusive queue hq).2.1
        rw [cfg.isTaskQueue_queueName hname hqueue] at hfalse
        cases hfalse
      refine h.subscribed hs' (fun _ h => h) (fun _ h => Or.inl h) hnot
        (.shared kind name hname rfl hqueue) ?_
      rintro rfl
      exact ⟨hname, hqueue, hs' ▸ List.mem_cons_self⟩
    · rename_i hqueue
      have hkind : kind = .broadcast := by
        cases kind <;> first | rfl | (simp [Config.queueName, Config.queueWord] at hqueue)
      subst hkind
      split at hs
      · rename_i hfresh
        have hs' := (Option.some.inj hs).symm
        exact h.subscribed hs' (fun _ h => List.mem_cons_of_mem _ h) (exclusive_of_fresh hfresh)
          (freshQueue_spec hfresh).1
          (.subscriber name hname rfl (hs' ▸ List.mem_cons_self)) fun hk => by cases hk
      · cases hs
  · cases hs

theorem Inv.unregister (h : Inv cfg s) (t : NodeId) (kind : Kind) (name : String) :
    Inv cfg (s.unregister t kind name) :=
  h.messages rfl rfl rfl rfl rfl (fun _ h => h) (fun _ h => (List.mem_filter.1 h).1)
    (fun _ _ h => Or.inl h)
    (fun _ _ h => Or.inl h) (fun _ _ h => Or.inl h) fun _ _ h => Or.inl h

theorem Inv.handlerReturns (h : Inv cfg s) {i : Nat} {response : Option Bytes}
    (hs : s.handlerReturns cfg i response = some s') : Inv cfg s' := by
  unfold System.handlerReturns at hs
  split at hs
  · rename_i t name callback m hget
    cases hs
    have hh := h.handling _ (List.mem_of_getElem? hget)
    refine h.messages rfl rfl rfl rfl rfl (fun a ha => ?_) (fun _ h => h) (fun hx p hp => ?_)
      (fun _ _ h => Or.inl h)
      (fun hx x hx' => ?_) fun hx a ha => ?_
    · cases response with
      | none => exact ha
      | some value => exact List.mem_cons_of_mem _ ha
    · simp only at hp
      split at hp
      · rename_i value key q hkey hq
        obtain ⟨key', hmem, hkey'⟩ := hh.reply
        rw [hkey] at hkey'
        cases hkey'
        exact old_or_new (.reply hmem ⟨_, List.mem_cons_self, rfl, rfl⟩) hp
      · exact Or.inl hp
    · rcases List.mem_or_eq_of_mem_set hx' with hold | rfl
      · exact Or.inl hold
      · exact Or.inr (HandlingOk.mono hx ⟨hh.reply, hh.request, hh.registered⟩)
    · cases response with
      | none => exact Or.inl ha
      | some value => exact old_or_new (AnswerOk.mono hx ⟨hh.request, hh.registered⟩) ha
  · cases hs

theorem Inv.handlerRaises (h : Inv cfg s) {i : Nat} (hs : s.handlerRaises i = some s') :
    Inv cfg s' := by
  unfold System.handlerRaises at hs
  split at hs
  · cases hs
    exact h.messages rfl rfl rfl rfl rfl (fun _ h => h) (fun _ h => h) (fun _ _ h => Or.inl h)
      (fun _ _ h => Or.inl h)
      (fun _ _ h => Or.inl (List.mem_of_mem_eraseIdx h)) fun _ _ h => Or.inl h
  · cases hs

theorem Inv.replyEnds (h : Inv cfg s) {i : Nat} {o : PublishEnd} (hs : s.replyEnds i o = some s') :
    Inv cfg s' := by
  unfold System.replyEnds at hs
  split at hs
  · rename_i t name callback m response hget
    obtain ⟨f, hf, rfl⟩ := Option.map_eq_some_iff.1 hs
    exact h.local (t := t) (e := .replyEnds response o)
      (NodeStep.of_setNode (n := { s.nodes t with inflight := f }) hf rfl) (by simp) (by simp)
        (fun t' q hq => setInflight_responseQueue t t' f ▸ hq)
      rfl rfl rfl rfl rfl (fun _ h => Or.inl h) (fun _ h => h) (fun _ h => h) fun _ h =>
        List.mem_of_mem_eraseIdx h
  · cases hs

/-- **One step.** -/
theorem Inv.step (hcfg : Topic.WildcardFree cfg.keyPrefix) (h : Inv cfg s) (e : Event)
    (hs : step cfg s e = some s') :
    Inv cfg s' := by
  cases e with
  | sendRequest t k name content timeout cid => exact h.sendRequest hs
  | publish t p kind name content => exact h.publish hs
  | internal t e => exact h.internal hs
  | accept i => exact h.accept hcfg hs
  | deliver i j again => exact h.deliver hs
  | connect t q => exact h.connect hs
  | disconnect t => cases hs; exact h.disconnect t
  | dropped t exc => cases hs; exact h.dropped t exc
  | restored t => cases hs; exact h.restored t
  | register t kind name callback q => exact h.register hs
  | unregister t kind name => cases hs; exact h.unregister t kind name
  | handlerReturns i response => exact h.handlerReturns hs
  | handlerRaises i => exact h.handlerRaises hs
  | replyEnds i o => exact h.replyEnds hs

theorem inv_start (cfg : Config) (cancellingApi : NodeId → Bool) :
    Inv cfg (init cancellingApi) := by
  refine ⟨⟨fun t => inv_init (cancellingApi t), ?_, ?_, ?_⟩, ?_, ?_, ?_, ?_, ?_, ?_, ?_, ?_⟩ <;>
    intros <;> contradiction

/-- **RPC correlation.** In every run of any number of transports, what `send_request(name,
content)` returns is what a request callback registered under that very name returned for
the message of that very call: the answer carries its correlation id, which no other call on
any transport has. -/
theorem rpc_correlation (cfg : Config) (hcfg : Topic.WildcardFree cfg.keyPrefix)
    (cancellingApi : NodeId → Bool) {s : System} (h : Reachable (step cfg) (init cancellingApi) s)
    {t : NodeId} {k : CallId} {c : Call} {r : Bytes} (hc : s.call t k = some c)
    (hr : c.phase = .finished (.returned r)) :
    (∃ a ∈ s.answers, a.correlationId = some c.correlationId ∧ a.value = r ∧ a.name = c.name ∧
      c.content = some a.request ∧ (a.node, .rpc, c.name, a.callback) ∈ s.registered) ∧
    ∀ t' k' c', s.call t' k' = some c' → c'.correlationId = c.correlationId → t' = t ∧ k' = k := by
  have hinv : Inv cfg s := h.invariant (fun _ e _ hi he => hi.step hcfg e he)
    (inv_start cfg cancellingApi)
  refine ⟨?_, fun t' k' c' hc' heq => hinv.calls.distinct t' k' c' t k c hc' hc heq⟩
  obtain ⟨a, ha, hcid, hvalue⟩ := hinv.calls.result t k c r hc (Or.inr hr)
  obtain ⟨⟨t₀, k₀, c₀, hc₀, hname, hcid₀, hcontent⟩, hreg⟩ := hinv.answers a ha
  -- the call whose request was answered has the same correlation id, so it is this one
  have hsame : c₀.correlationId = c.correlationId := Option.some.inj (hcid₀.symm.trans hcid)
  obtain ⟨rfl, rfl⟩ := hinv.calls.distinct t₀ k₀ c₀ t k c hc₀ hc hsame
  rw [hc] at hc₀
  cases hc₀
  exact ⟨a, ha, hcid, hvalue, hname.symm, hcontent, hname ▸ hreg⟩

/-- Transport 0 calls `m.f`, which transport 1 serves; the reply arrives twice. -/
def roundTrip : List Event :=
  [.connect 0 "amq.gen-0", .connect 1 "amq.gen-1", .register 1 .rpc "m.f" 7 "",
    .sendRequest 0 0 "m.f" (some [1]) none 42, .internal 0 (.publishEnds 0 .ok), .accept 0,
      .deliver 0 0 false,
    .handlerReturns 0 (some [2]), .accept 0, .replyEnds 0 .ok, .deliver 0 2 true,
      .internal 0 (.resume 0 .future),
    .deliver 0 2 false]

theorem rpc_correlation_round_trip :
    ∃ (s : System) (c : Call), s.call 0 0 = some c ∧ c.phase = .finished (.returned [2]) ∧
      (∃ a ∈ s.answers, a.correlationId = some c.correlationId ∧ a.value = [2] ∧ a.name = c.name ∧
        c.content = some a.request ∧ (a.node, .rpc, c.name, a.callback) ∈ s.registered) ∧
      ∀ t' k' c', s.call t' k' = some c' → c'.correlationId = c.correlationId → t' = 0 ∧ k' = 0 :=
  ⟨_, _, rfl, rfl, rpc_correlation .default (by decide) (fun _ => true) ⟨roundTrip, rfl⟩ rfl rfl⟩

end Atasks.Amqp.System
