import Atasks.Amqp.Broker
import Atasks.Amqp.Deployments
import Mathlib.Data.List.Dedup
/-!
# What a fleet of transports is sent

Any number of `AMQPTransport` instances on one broker, looked at from the broker: who declared
and bound what, and which registration a message ends up with. Unlike in `Broker`, a name is
any string: the decorators check nothing about it. What a callback answers, and the table its
caller keeps, play no part here.

| here | there |
| --- | --- |
| `Fleet.connect`  | the reply queue of `connect` (`amqp.py:180-183`) and its binding |
| `Fleet.register` | declare, bind and consume of `_register_request_callback` (`:300-303`, `:336`), `_register_event_callback` (`:456-458`, `:468`) and `_register_broadcast_callback` (`:524-525`, `:535`) |
| `Fleet.publish`  | the publishes of `send_request` (`:368-375`), `publish_event` and `publish_broadcast` |
| `Fleet.routed`   | the queues a topic exchange copies a message to, each once |
| `Fleet.deliver`  | one message to one consumer of its queue; `again` keeps a copy of it queued |

`exact_routing_iff`: a message reaches exactly the queues of its own kind and name as long as
no registered name has a wildcard for a word. A name that has one binds a mask. `Traffic` says
the same of the messages that have been handled, masks included.
-/

namespace Atasks.Amqp

open Machine

/-- A callback consuming `queue`. An instance registers a name of a kind once. -/
structure Registration where
  node : NodeId
  kind : Kind
  name : String
  queue : String
deriving DecidableEq, Repr

/-- A published message, with the call that published it. -/
structure Sent where
  node : NodeId
  kind : Kind
  name : String
  exchange : String
  key : String
  body : Bytes
deriving DecidableEq, Repr

structure Fleet where
  bindings : List Binding
  /-- The reply queues of the connected instances. -/
  replies : List (NodeId × String)
  registered : List Registration
  /-- The names of all exclusive queues there ever were. -/
  exclusive : List String
  wire : List Sent
  queued : List (String × Sent)
  handled : List (Sent × Registration)

namespace Config

def bindingOf (cfg : Config) (r : Registration) : Binding :=
    ⟨cfg.exchange r.kind, cfg.routingKey r.kind r.name, r.queue⟩

def replyBinding (cfg : Config) (queue : String) : Binding := ⟨cfg.responseExchange, queue, queue⟩

/-- What `publish` hands to the exchange. -/
def sent (cfg : Config) (t : NodeId) (kind : Kind) (name : String) (body : Bytes) : Sent :=
  ⟨t, kind, name, cfg.exchange kind, cfg.routingKey kind name, body⟩

end Config

namespace Fleet

def init : Fleet := ⟨[], [], [], [], [], [], []⟩

/-- A name the broker may choose for an exclusive queue: not used before, no mask, and not
built on what keys and durable queues are built on. -/
def freeQueue (cfg : Config) (exclusive : List String) (q : String) : Bool :=
  q ∉ exclusive && Topic.WildcardFree q
    && Config.keyMarkers.all (fun m => !Topic.Under (cfg.keyPrefix ++ "." ++ m) q)
    && Config.queueMarkers.all fun m => !Topic.Under (cfg.stem ++ "." ++ m) q

def connect (cfg : Config) (s : Fleet) (t : NodeId) (q : String) : Option Fleet :=
  if freeQueue cfg s.exclusive q then
    some
      { s with
        bindings := cfg.replyBinding q :: s.bindings
        replies := (t, q) :: s.replies
        exclusive := q :: s.exclusive }
  else none

def isRegistered (s : Fleet) (t : NodeId) (kind : Kind) (name : String) : Bool :=
  s.registered.any fun r => r.node == t && r.kind == kind && r.name == name

def add (cfg : Config) (s : Fleet) (r : Registration) : Fleet :=
  { s with bindings := cfg.bindingOf r :: s.bindings, registered := r :: s.registered }

/-- `q` is the name the broker chooses for the exclusive queue of a broadcast subscriber. -/
def register (cfg : Config) (s : Fleet) (t : NodeId) (kind : Kind) (name q : String) :
    Option Fleet :=
  if s.isRegistered t kind name then none
  else
    match cfg.queueName kind name with
    | some queue => some (s.add cfg ⟨t, kind, name, queue⟩)
    | none =>
      if freeQueue cfg s.exclusive q then some { s.add cfg ⟨t, kind, name, q⟩ with
        exclusive := q :: s.exclusive } else none

def publish (cfg : Config) (s : Fleet) (t : NodeId) (kind : Kind) (name : String)
    (body : Bytes) : Fleet :=
  { s with wire := cfg.sent t kind name body :: s.wire }

def routed (s : Fleet) (m : Sent) : List String :=
  ((s.bindings.filter fun b => b.exchange == m.exchange && Topic.keyMatches b.key m.key).map
    Binding.queue).dedup

/-- The broker accepts the `i`-th publication. -/
def accept (s : Fleet) (i : Nat) : Option Fleet :=
  match s.wire[i]? with
  | none => none
  | some m =>
    some { s with
      wire := s.wire.eraseIdx i, queued := s.queued ++ (s.routed m).map fun q => (q, m) }

/-- The `i`-th queued message goes to the `j`-th registration. -/
def deliver (s : Fleet) (i j : Nat) (again : Bool) : Option Fleet :=
  match s.queued[i]?, s.registered[j]? with
  | some (q, m), some r =>
    if r.queue = q then
      some { s with
        queued := if again then s.queued else s.queued.eraseIdx i, handled := (m, r) :: s.handled }
    else none
  | _, _ => none

inductive Event
  | connect (t : NodeId) (q : String)
  | register (t : NodeId) (kind : Kind) (name q : String)
  | publish (t : NodeId) (kind : Kind) (name : String) (body : Bytes)
  | accept (i : Nat)
  | deliver (i j : Nat) (again : Bool)
deriving DecidableEq, Repr

def step (cfg : Config) (s : Fleet) : Event → Option Fleet
  | .connect t q => s.connect cfg t q
  | .register t kind name q => s.register cfg t kind name q
  | .publish t kind name body => some (s.publish cfg t kind name body)
  | .accept i => s.accept i
  | .deliver i j again => s.deliver i j again

/-! ## What one event can do -/

theorem connect_cases {cfg : Config} {s s' : Fleet} {t : NodeId} {q : String}
    (h : s.connect cfg t q = some s') :
    freeQueue cfg s.exclusive q = true ∧
      s' = { s with
        bindings := cfg.replyBinding q :: s.bindings
        replies := (t, q) :: s.replies
        exclusive := q :: s.exclusive } := by
  unfold connect at h
  split at h
  · rename_i hq
    cases h
    exact ⟨hq, rfl⟩
  · cases h

/-- The durable queue of the name, or an exclusive one. -/
theorem register_cases {cfg : Config} {s s' : Fleet} {t : NodeId} {kind : Kind} {name q : String}
    (h : s.register cfg t kind name q = some s') :
    s.isRegistered t kind name = false ∧
      ((∃ queue, cfg.queueName kind name = some queue ∧ s' = s.add cfg ⟨t, kind, name, queue⟩) ∨
       (cfg.queueName kind name = none ∧ freeQueue cfg s.exclusive q = true ∧
          s' = { s.add cfg ⟨t, kind, name, q⟩ with exclusive := q :: s.exclusive })) := by
  unfold register at h
  split at h
  · cases h
  · rename_i hnew
    refine ⟨by simpa using hnew, ?_⟩
    split at h
    · rename_i queue hqueue
      cases h
      exact Or.inl ⟨queue, hqueue, rfl⟩
    · rename_i hqueue
      split at h
      · rename_i hq
        cases h
        exact Or.inr ⟨hqueue, hq, rfl⟩
      · cases h

/-- A name an instance has not registered yet can be registered. -/
theorem register_eq {cfg : Config} {s : Fleet} {t : NodeId} {kind : Kind} {name q : String}
    (hnew : s.isRegistered t kind name = false) (hq : freeQueue cfg s.exclusive q = true) :
    ∃ queue s', s.register cfg t kind name q = some s' ∧ s'.registered = ⟨t, kind, name, queue⟩ ::
    s.registered ∧
      s'.wire = s.wire ∧ s'.queued = s.queued := by
  unfold register
  rw [hnew, if_neg Bool.false_ne_true]
  cases cfg.queueName kind name with
  | some queue => exact ⟨queue, _, rfl, rfl, rfl, rfl⟩
  | none => exact ⟨q, _, if_pos hq, rfl, rfl, rfl⟩

theorem accept_cases {s s' : Fleet} {i : Nat} (h : s.accept i = some s') :
    ∃ m, s.wire[i]? = some m ∧
      s' = { s with
        wire := s.wire.eraseIdx i, queued := s.queued ++ (s.routed m).map fun q => (q, m) } := by
  unfold accept at h
  split at h
  · cases h
  · rename_i m hm
    cases h
    exact ⟨m, hm, rfl⟩

theorem deliver_cases {s s' : Fleet} {i j : Nat} {again : Bool}
    (h : s.deliver i j again = some s') :
    ∃ m r, (r.queue, m) ∈ s.queued ∧ r ∈ s.registered ∧
      s' = { s with
        queued := if again then s.queued else s.queued.eraseIdx i, handled :=
          (m, r) :: s.handled } := by
  unfold deliver at h
  split at h
  · rename_i q m r hq hr
    split at h
    · rename_i hqueue
      cases h
      subst hqueue
      exact ⟨m, r, List.mem_of_getElem? hq, List.mem_of_getElem? hr, rfl⟩
    · cases h
  · cases h

theorem mem_routed {s : Fleet} {m : Sent} {queue : String} :
    queue ∈ s.routed m ↔
      ∃ b ∈ s.bindings, b.exchange = m.exchange ∧ Topic.keyMatches b.key m.key = true ∧
      b.queue = queue := by
  simp [routed, and_assoc]

/-! ## What is declared and bound -/

/-- A queue name the broker chose: neither a mask nor a name that instances build. -/
structure Exclusive (cfg : Config) (q : String) : Prop where
  plain : Topic.WildcardFree q
  notKey : ∀ kind name, cfg.routingKey kind name ≠ q
  notQueue : ∀ kind name, cfg.queueName kind name ≠ some q

theorem freeQueue_spec {cfg : Config} {exclusive : List String} {q : String}
    (h : freeQueue cfg exclusive q = true) :
    q ∉ exclusive ∧ Exclusive cfg q := by
  simp only [freeQueue, Bool.and_eq_true, decide_eq_true_eq, List.all_eq_true, Bool.not_eq_true',
    decide_eq_false_iff_not]
    at h
  obtain ⟨⟨⟨hnew, hplain⟩, hkey⟩, hqueue⟩ := h
  refine ⟨hnew, hplain, ?_, ?_⟩
  · rintro kind name rfl
    exact hkey _ (Config.mem_keyMarkers.2 ⟨kind, rfl⟩) (Topic.under_iff.2 (Or.inr ⟨name, rfl⟩))
  · intro kind name hq
    obtain ⟨m, hm, rfl⟩ := Option.map_eq_some_iff.1 hq
    exact hqueue m (Config.mem_queueMarkers.2 ⟨kind, hm⟩) (Topic.under_iff.2 (Or.inr ⟨name, rfl⟩))

structure Declared (cfg : Config) (s : Fleet) : Prop where
  bindings : ∀ b, b ∈ s.bindings ↔
    (∃ r ∈ s.registered, b = cfg.bindingOf r) ∨ ∃ p ∈ s.replies, b = cfg.replyBinding p.2
  shared : ∀ r ∈ s.registered, r.kind ≠ .broadcast → cfg.queueName r.kind r.name = some r.queue
  own : ∀ r ∈ s.registered, r.kind = .broadcast → r.queue ∈ s.exclusive
  replies : ∀ p ∈ s.replies, p.2 ∈ s.exclusive
  exclusive : ∀ q ∈ s.exclusive, Exclusive cfg q
  distinct : ∀ r ∈ s.registered, ∀ r' ∈ s.registered, r.kind = .broadcast → r'.kind = .broadcast →
    r.queue = r'.queue → r = r'

theorem declared_init (cfg : Config) : Declared cfg init := by
  constructor <;> simp [init]

theorem queueName_eq_none {cfg : Config} {kind : Kind} {name : String} :
    cfg.queueName kind name = none ↔ kind = .broadcast := by
  cases kind <;> simp [Config.queueName, Config.queueWord]

theorem Declared.connect {cfg : Config} {s s' : Fleet} (h : Declared cfg s) {t : NodeId}
    {q : String} (hs : s.connect cfg t q = some s') : Declared cfg s' := by
  obtain ⟨hq, rfl⟩ := connect_cases hs
  obtain ⟨-, hex⟩ := freeQueue_spec hq
  refine ⟨?_, h.shared, ?_, ?_, ?_, h.distinct⟩
  · intro b
    simp only [List.mem_cons, h.bindings b, exists_eq_or_imp]
    exact or_left_comm
  · exact fun r hr hb => List.mem_cons_of_mem _ (h.own r hr hb)
  · intro p hp
    rcases List.mem_cons.1 hp with rfl | hp
    · exact List.mem_cons_self
    · exact List.mem_cons_of_mem _ (h.replies p hp)
  · intro q' hq'
    rcases List.mem_cons.1 hq' with rfl | hq'
    · exact hex
    · exact h.exclusive q' hq'

theorem Declared.register {cfg : Config} {s s' : Fleet} (h : Declared cfg s) {t : NodeId}
    {kind : Kind} {name q : String} (hs : s.register cfg t kind name q = some s') :
    Declared cfg s' := by
  obtain ⟨-, hcase⟩ := register_cases hs
  have bound : ∀ r b, b ∈ cfg.bindingOf r :: s.bindings ↔
      (∃ r' ∈ r :: s.registered, b = cfg.bindingOf r') ∨ ∃ p ∈ s.replies,
        b = cfg.replyBinding p.2 := by
    intro r b
    simp only [List.mem_cons, h.bindings b, exists_eq_or_imp]
    exact or_assoc.symm
  rcases hcase with ⟨queue, hqueue, rfl⟩ | ⟨hnone, hq, rfl⟩
  · have hkind : kind ≠ .broadcast := fun hk => by
      rw [queueName_eq_none.2 hk] at hqueue
      cases hqueue
    refine ⟨bound _, ?_, ?_, h.replies, h.exclusive, ?_⟩
    · intro r hr hb
      rcases List.mem_cons.1 hr with rfl | hr
      · exact hqueue
      · exact h.shared r hr hb
    · intro r hr hb
      rcases List.mem_cons.1 hr with rfl | hr
      · exact absurd hb hkind
      · exact h.own r hr hb
    · intro r hr r' hr' hb hb' heq
      rcases List.mem_cons.1 hr with rfl | hr
      · exact absurd hb hkind
      · rcases List.mem_cons.1 hr' with rfl | hr'
        · exact absurd hb' hkind
        · exact h.distinct r hr r' hr' hb hb' heq
  · have hkind := queueName_eq_none.1 hnone
    obtain ⟨hnew, hex⟩ := freeQueue_spec hq
    have unused : ∀ r ∈ s.registered, r.kind = .broadcast → r.queue ≠ q :=
      fun r hr hb hqueue => hnew (hqueue ▸ h.own r hr hb)
    refine ⟨bound _, ?_, ?_, ?_, ?_, ?_⟩
    · intro r hr hb
      rcases List.mem_cons.1 hr with rfl | hr
      · exact absurd hkind hb
      · exact h.shared r hr hb
    · intro r hr hb
      rcases List.mem_cons.1 hr with rfl | hr
      · exact List.mem_cons_self
      · exact List.mem_cons_of_mem _ (h.own r hr hb)
    · exact fun p hp => List.mem_cons_of_mem _ (h.replies p hp)
    · intro q' hq'
      rcases List.mem_cons.1 hq' with rfl | hq'
      · exact hex
      · exact h.exclusive q' hq'
    · intro r hr r' hr' hb hb' heq
      rcases List.mem_cons.1 hr with rfl | hr
      · rcases List.mem_cons.1 hr' with rfl | hr'
        · rfl
        · exact absurd heq.symm (unused r' hr' hb')
      · rcases List.mem_cons.1 hr' with rfl | hr'
        · exact absurd heq (unused r hr hb)
        · exact h.distinct r hr r' hr' hb hb' heq

theorem Declared.congr {cfg : Config} {s s' : Fleet} (h : Declared cfg s)
    (hb : s'.bindings = s.bindings) (hp : s'.replies = s.replies)
    (hr : s'.registered = s.registered) (he : s'.exclusive = s.exclusive) :
    Declared cfg s' := by
  obtain ⟨h₁, h₂, h₃, h₄, h₅, h₆⟩ := h
  constructor <;> simp only [hb, hp, hr, he] <;> assumption

theorem Declared.step {cfg : Config} {s s' : Fleet} (h : Declared cfg s) (e : Event)
    (hs : step cfg s e = some s') :
    Declared cfg s' := by
  cases e with
  | connect t q => exact h.connect hs
  | register t kind name q => exact h.register hs
  | publish t kind name body => cases hs; exact h.congr rfl rfl rfl rfl
  | accept i => obtain ⟨m, -, rfl⟩ := accept_cases hs; exact h.congr rfl rfl rfl rfl
  | deliver i j again => obtain ⟨m, r, -, -, rfl⟩ := deliver_cases hs; exact h.congr rfl rfl rfl rfl

/-- A queue serves one kind and one name. -/
theorem Declared.owner {cfg : Config} {s : Fleet} (h : Declared cfg s) {r r' : Registration}
    (hr : r ∈ s.registered) (hr' : r' ∈ s.registered) (hq : r.queue = r'.queue) :
    r.kind = r'.kind ∧ r.name = r'.name := by
  by_cases hb : r.kind = .broadcast
  · by_cases hb' : r'.kind = .broadcast
    · rw [h.distinct r hr r' hr' hb hb' hq]
      exact ⟨rfl, rfl⟩
    · exact absurd (hq ▸ h.shared r' hr' hb') ((h.exclusive _ (h.own r hr hb)).notQueue _ _)
  · by_cases hb' : r'.kind = .broadcast
    · exact absurd (hq ▸ h.shared r hr hb) ((h.exclusive _ (h.own r' hr' hb')).notQueue _ _)
    · exact cfg.queueName_inj (h.shared r hr hb) (hq ▸ h.shared r' hr' hb')

end Fleet

/-! ## Routing -/

/-- The keys of a transport start with its prefix and the marker of the kind, which a binding
matches as they are. -/
theorem Config.keyMatches_routingKey {cfg : Config} (hcfg : Topic.WildcardFree cfg.keyPrefix)
    {kind kind' : Kind} {name name' : String} :
    Topic.keyMatches (cfg.routingKey kind name) (cfg.routingKey kind' name') = true ↔
      kind = kind' ∧ Topic.keyMatches name name' = true := by
  have hplain : ∀ w ∈ Topic.words (cfg.keyPrefix ++ "." ++ keyWord kind), w ≠ Topic.star ∧
      w ≠ Topic.hash :=
    Topic.wildcardFree_append_dot.2 ⟨hcfg, by cases kind <;> decide⟩
  rw [Topic.keyMatches, routingKey, routingPrefix, Topic.words_append_dot,
    Topic.matchWords_append hplain]
  simp only [routingKey, routingPrefix, Topic.words_append_dot, words_keyWord, List.append_assoc,
    List.append_cancel_left_eq, List.singleton_append, List.cons.injEq]
  constructor
  · rintro ⟨vs, ⟨hword, rfl⟩, hvs⟩
    refine ⟨?_, hvs⟩
    have := String.toList_injective hword
    cases kind <;> cases kind' <;> simp_all [keyWord]
  · rintro ⟨rfl, h⟩
    exact ⟨_, ⟨rfl, rfl⟩, h⟩

namespace Fleet

/-- **Where a message goes**: to the queues of the registrations whose name, read as a mask,
matches the message's. -/
theorem Declared.mem_routed {cfg : Config} (hcfg : Topic.WildcardFree cfg.keyPrefix) {s : Fleet}
    (h : Declared cfg s)
    {t : NodeId} {kind : Kind} {name : String} {body : Bytes} {queue : String} :
    queue ∈ s.routed (cfg.sent t kind name body) ↔
      ∃ r ∈ s.registered, r.kind = kind ∧ Topic.keyMatches r.name name = true ∧
      r.queue = queue := by
  rw [Fleet.mem_routed]
  constructor
  · rintro ⟨b, hb, -, hkey, rfl⟩
    rcases (h.bindings b).1 hb with ⟨r, hr, rfl⟩ | ⟨p, hp, rfl⟩
    · obtain ⟨hkind, hname⟩ := (Config.keyMatches_routingKey hcfg).1 hkey
      exact ⟨r, hr, hkind, hname, rfl⟩
    · -- a reply queue is bound to its own name, which is no task's key
      have hex := h.exclusive _ (h.replies p hp)
      exact absurd ((Topic.keyMatches_iff_eq hex.plain).1 hkey).symm (hex.notKey kind name)
  · rintro ⟨r, hr, rfl, hname, rfl⟩
    exact ⟨cfg.bindingOf r, (h.bindings _).2 (Or.inl ⟨r, hr, rfl⟩), rfl,
      (Config.keyMatches_routingKey hcfg).2 ⟨rfl, hname⟩, rfl⟩

/-! ## Deliveries -/

/-- The callback was registered for the message: its kind, and its name read as a mask. -/
def Matches (r : Registration) (m : Sent) : Prop :=
    r.kind = m.kind ∧ Topic.keyMatches r.name m.name = true

structure Traffic (cfg : Config) (s : Fleet) : Prop where
  declared : Declared cfg s
  wire : ∀ m ∈ s.wire, m = cfg.sent m.node m.kind m.name m.body
  queued : ∀ q m, (q, m) ∈ s.queued → ∃ r ∈ s.registered, r.queue = q ∧ Matches r m
  handled : ∀ m r, (m, r) ∈ s.handled → r ∈ s.registered ∧ Matches r m

theorem traffic_init (cfg : Config) : Traffic cfg init := by
  refine ⟨declared_init cfg, ?_, ?_, ?_⟩ <;> simp [init]

theorem Declared.mem_routed_of_sent {cfg : Config} (hcfg : Topic.WildcardFree cfg.keyPrefix)
    {s : Fleet} (h : Declared cfg s) {m : Sent} (hm : m = cfg.sent m.node m.kind m.name m.body)
    {queue : String} :
    queue ∈ s.routed m ↔ ∃ r ∈ s.registered, r.queue = queue ∧ Matches r m := by
  rw [hm, h.mem_routed hcfg]
  constructor
  · rintro ⟨r, hr, hkind, hname, hq⟩
    exact ⟨r, hr, hq, hkind, hname⟩
  · rintro ⟨r, hr, hq, hkind, hname⟩
    exact ⟨r, hr, hkind, hname, hq⟩

theorem Traffic.step {cfg : Config} (hcfg : Topic.WildcardFree cfg.keyPrefix) {s s' : Fleet}
    (h : Traffic cfg s) (e : Event) (hs : step cfg s e = some s') : Traffic cfg s' := by
  have hd := h.declared.step e hs
  cases e with
  | connect t q =>
    obtain ⟨-, rfl⟩ := connect_cases hs
    exact ⟨hd, h.wire, h.queued, h.handled⟩
  | register t kind name q =>
    -- a registration adds consumers and takes none away
    have grown : ∀ r, s'.registered = r :: s.registered → s'.wire = s.wire → s'.queued = s.queued →
        s'.handled = s.handled → Traffic cfg s' := by
      intro r hr hw hq hh
      refine ⟨hd, hw ▸ h.wire, ?_, ?_⟩
      · intro q m hin
        obtain ⟨r', hr', hm⟩ := h.queued q m (hq ▸ hin)
        exact ⟨r', hr ▸ List.mem_cons_of_mem r hr', hm⟩
      · intro m r' hin
        obtain ⟨hr', hm⟩ := h.handled m r' (hh ▸ hin)
        exact ⟨hr ▸ List.mem_cons_of_mem r hr', hm⟩
    obtain ⟨-, ⟨queue, -, rfl⟩ | ⟨-, -, rfl⟩⟩ := register_cases hs
    · exact grown _ rfl rfl rfl rfl
    · exact grown _ rfl rfl rfl rfl
  | publish t kind name body =>
    cases hs
    refine ⟨hd, ?_, h.queued, h.handled⟩
    intro m hm
    rcases List.mem_cons.1 hm with rfl | hm
    · rfl
    · exact h.wire m hm
  | accept i =>
    obtain ⟨m, hm, rfl⟩ := accept_cases hs
    refine ⟨hd, fun m' hm' => h.wire m' (List.mem_of_mem_eraseIdx hm'), ?_, h.handled⟩
    intro q m' hin
    rcases List.mem_append.1 hin with hin | hin
    · exact h.queued q m' hin
    · obtain ⟨_, hq, heq⟩ := List.mem_map.1 hin
      cases heq
      exact (h.declared.mem_routed_of_sent hcfg (h.wire _ (List.mem_of_getElem? hm))).1 hq
  | deliver i j again =>
    obtain ⟨m, r, hq, hr, rfl⟩ := deliver_cases hs
    refine ⟨hd, h.wire, ?_, ?_⟩
    · intro q m' hin
      refine h.queued q m' ?_
      cases again with
      | true => exact hin
      | false => exact List.mem_of_mem_eraseIdx hin
    · intro m' r' hin
      rcases List.mem_cons.1 hin with heq | hin
      · cases heq
        -- another registration with the same queue has the same kind and name
        obtain ⟨r₀, hr₀, hq₀, hkind, hname⟩ := h.queued _ _ hq
        obtain ⟨hk, hn⟩ := h.declared.owner hr hr₀ hq₀.symm
        exact ⟨hr, hk.trans hkind, hn ▸ hname⟩
      · exact h.handled m' r' hin

/-! ## Exactness -/

/-- Routing by exactly kind and name. -/
structure ExactRouting (cfg : Config) (s : Fleet) : Prop where
  routed : ∀ t kind name body queue, queue ∈ s.routed (cfg.sent t kind name body) ↔
    ∃ r ∈ s.registered, r.kind = kind ∧ r.name = name ∧ r.queue = queue
  /-- All instances that registered a request or an event share its durable queue. -/
  shared : ∀ r ∈ s.registered, r.kind ≠ .broadcast → cfg.queueName r.kind r.name = some r.queue
  /-- Every subscriber of a broadcast has a queue of its own. -/
  own : ∀ r ∈ s.registered, ∀ r' ∈ s.registered, r.kind = .broadcast → r.queue = r'.queue → r = r'
  /-- What a registration consumes from gets messages of its kind and name only. -/
  receives : ∀ r ∈ s.registered, ∀ t kind name body, r.queue ∈ s.routed
    (cfg.sent t kind name body) →
    r.kind = kind ∧ r.name = name

/-- **Routing is exact if and only if no registered name is a mask.** -/
theorem exact_routing_iff {cfg : Config} (hcfg : Topic.WildcardFree cfg.keyPrefix) {s : Fleet}
    (h : Reachable (step cfg) init s) :
    ExactRouting cfg s ↔ ∀ r ∈ s.registered, Topic.WildcardFree r.name := by
  have hd : Declared cfg s := h.invariant (fun _ e _ hi he => hi.step e he) (declared_init cfg)
  constructor
  · intro hexact r hr
    by_contra hmask
    obtain ⟨name, hne, hmatch⟩ := Topic.exists_matching_ne hmask
    have hrouted : r.queue ∈ s.routed (cfg.sent 0 r.kind name []) :=
      (hd.mem_routed hcfg).2 ⟨r, hr, rfl, hmatch, rfl⟩
    exact hne (hexact.receives r hr _ _ _ _ hrouted).2.symm
  · intro hplain
    have routed : ∀ t kind name body queue, queue ∈ s.routed (cfg.sent t kind name body) ↔
        ∃ r ∈ s.registered, r.kind = kind ∧ r.name = name ∧ r.queue = queue := by
      intro t kind name body queue
      rw [hd.mem_routed hcfg]
      constructor
      · rintro ⟨r, hr, hkind, hname, hq⟩
        exact ⟨r, hr, hkind, (Topic.keyMatches_iff_eq (hplain r hr)).1 hname, hq⟩
      · rintro ⟨r, hr, hkind, hname, hq⟩
        exact ⟨r, hr, hkind, (Topic.keyMatches_iff_eq (hplain r hr)).2 hname, hq⟩
    refine ⟨routed, hd.shared, ?_, ?_⟩
    · intro r hr r' hr' hb hq
      exact hd.distinct r hr r' hr' hb ((hd.owner hr hr' hq).1 ▸ hb) hq
    · intro r hr t kind name body hin
      obtain ⟨r', hr', rfl, rfl, hq⟩ := (routed t kind name body r.queue).1 hin
      exact hd.owner hr hr' hq.symm

/-- One instance serves `jobs.add`, another a request named `jobs.#`. -/
def maskRun : List Event :=
  [.connect 0 "amq.gen-a", .connect 1 "amq.gen-b", .register 0 .rpc "jobs.add" "",
    .register 1 .rpc "jobs.#" ""]

theorem exact_routing_plain :
    ∃ s, run (step .default) init (maskRun.take 3) = some s ∧ ExactRouting .default s :=
  ⟨_, rfl, (exact_routing_iff (by decide) ⟨maskRun.take 3, rfl⟩).2 (by decide)⟩

/-- A request for `jobs.add` is routed to both queues, so two handlers run for it. -/
theorem mask_receives_other_name :
    ∃ s, run (step .default) init maskRun = some s ∧
      s.routed (Config.default.sent 1 .rpc "jobs.add" []) =
        ["atask.atask.r.jobs.#", "atask.atask.r.jobs.add"] ∧
      ¬ ExactRouting .default s := by
  refine ⟨_, rfl, by decide, ?_⟩
  intro h
  have := (h.routed 1 .rpc "jobs.add" [] "atask.atask.r.jobs.#").1 (by decide)
  revert this
  decide

end Fleet

end Atasks.Amqp
