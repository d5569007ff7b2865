import Atasks.Amqp.Config
import Atasks.Amqp.Moves
/-!
# Transports on one broker

Any number of `AMQPTransport` instances with the same parameters, each a client, a server or
both, and the broker between them. A transport's own state is the in-flight table; here it
gets its reply queue, its consumers and the messages it exchanges with the others.

| here | there |
| --- | --- |
| `System.wire`     | publications sent and not yet accepted by the broker, in any order |
| `System.accept`   | the topic exchange: a copy on every queue whose binding key matches |
| `System.deliver`  | one message to one consumer of its queue; `again` keeps a copy of it queued |
| `Role.handler`    | `_on_message` with the `name` and `callback` it closes over (`amqp.py:305-333`), and its event and broadcast counterparts |
| `Role.reply`      | `_on_response_message` (`:190-206`) |
| `Handling`        | one run of `_on_message`, from its ack on |
| `System.answers`  | what request callbacks have returned so far, and for which message |

The broker chooses the names of exclusive queues: unique, and neither a task's routing key
nor a pattern of keys (`freshQueue`). Everything it may do late or not at all is an event
that need not come.
-/

namespace Atasks.Amqp

def PublishKind.kind : PublishKind → Kind
  | .event => .queue
  | .broadcast => .broadcast

abbrev NodeId := Nat

/-- Names one callback given to `_register_request_callback` and its siblings. -/
abbrev CallbackId := Nat

structure Message where
  correlationId : Option CorrelationId
  replyTo : Option String
  body : Bytes
deriving DecidableEq, Repr

structure Publication where
  exchange : String
  key : String
  message : Message
deriving DecidableEq, Repr

structure Binding where
  exchange : String
  key : String
  queue : String
deriving DecidableEq, Repr

inductive Role
  | reply
  | handler (kind : Kind) (name : String) (callback : CallbackId)
deriving DecidableEq, Repr

def Role.isHandler (kind : Kind) (name : String) : Role → Bool
  | .reply => false
  | .handler kind' name' _ => kind' = kind ∧ name' = name

structure Consumer where
  node : NodeId
  queue : String
  role : Role
deriving DecidableEq, Repr

/-- `await callback(request)`, or the publish of what it returned. -/
inductive Stage
  | running
  | replying (response : Option Bytes)
deriving DecidableEq, Repr

structure Handling where
  node : NodeId
  name : String
  callback : CallbackId
  message : Message
  stage : Stage
deriving DecidableEq, Repr

structure Answer where
  node : NodeId
  name : String
  callback : CallbackId
  correlationId : Option CorrelationId
  request : Bytes
  value : Bytes
deriving DecidableEq, Repr

/-- One transport: its table, and `_response_queue.name` while it has that attribute. -/
structure Node where
  inflight : State
  responseQueue : Option String

structure System where
  nodes : NodeId → Node
  wire : List Publication
  bindings : List Binding
  queued : List (String × Message)
  consumers : List Consumer
  /-- The names of all exclusive queues there ever were. -/
  exclusive : List String
  handling : List Handling
  /-- All `uuid4` draws so far, on all hosts. -/
  issued : List CorrelationId
  registered : List (NodeId × Kind × String × CallbackId)
  answers : List Answer

namespace System

/-- No transport has connected; `cancellingApi` is the Python version of each host. -/
def init (cancellingApi : NodeId → Bool) : System :=
  ⟨fun t => ⟨State.init (cancellingApi t), none⟩, [], [], [], [], [], [], [], [], []⟩

def setNode (s : System) (t : NodeId) (n : Node) : System :=
    { s with nodes := Function.update s.nodes t n }

def setInflight (s : System) (t : NodeId) (f : State) : System :=
    s.setNode t { s.nodes t with inflight := f }

/-! ## Clients -/

/-- `send_request` up to its publish: the message goes out if it can be built, which takes a
body and, for `reply_to`, the reply queue. -/
def sendRequest (cfg : Config) (s : System) (t : NodeId) (k : CallId) (name : String)
    (content : Option Bytes) (timeout : Option Nat) (cid : CorrelationId) : Option System :=
  if IsTaskName name ∧ cid ∉ s.issued then
    (Amqp.sendRequest (s.nodes t).inflight k name content timeout cid).map fun f =>
      { s.setInflight t f with
        issued := cid :: s.issued
        wire :=
          match content, (s.nodes t).responseQueue with
          | some body, some q =>
            ⟨cfg.requestExchange, cfg.routingKey .rpc name, ⟨some cid, some q, body⟩⟩ :: s.wire
          | _, _ => s.wire }
  else none

/-- `publish_event` and `publish_broadcast` up to their publish. -/
def publish (cfg : Config) (s : System) (t : NodeId) (p : Nat) (kind : PublishKind) (name : String)
    (content : Option Bytes) : Option System :=
  if IsTaskName name then
    (Amqp.publish (s.nodes t).inflight p kind name content).map fun f =>
      { s.setInflight t f with
        wire :=
          match content with
          | some body =>
            ⟨cfg.exchange kind.kind, cfg.routingKey kind.kind name, ⟨none, none, body⟩⟩ :: s.wire
          | none => s.wire }
  else none

/-- Which events of a transport involve nobody else. -/
def isInternal : Amqp.Event → Bool
  | .publishEnds .. | .resume .. | .timeoutElapses _ | .taskCancelled _ | .futureAbandoned _
    | .publisherCancelled _
  | .publisherEnds .. => true
  | .sendRequest .. | .response .. | .connectionClosed _ | .reconnected | .publish ..
    | .replyEnds .. => false

def internal (s : System) (t : NodeId) (e : Amqp.Event) : Option System :=
  if isInternal e then (Amqp.step (s.nodes t).inflight e).map (s.setInflight t) else none

/-! ## The broker -/

def routes (s : System) (p : Publication) : List (String × Message) :=
  (s.bindings.filter fun b => b.exchange == p.exchange && Topic.keyMatches b.key p.key).map fun b =>
    (b.queue, p.message)

/-- The broker accepts the `i`-th publication. -/
def accept (s : System) (i : Nat) : Option System :=
  match s.wire[i]? with
  | none => none
  | some p => some { s with wire := s.wire.eraseIdx i, queued := s.queued ++ s.routes p }

/-- A name the broker may choose for an exclusive queue. -/
def freshQueue (cfg : Config) (s : System) (q : String) : Bool :=
  q ∉ s.exclusive && !cfg.isTaskKey q && !cfg.isTaskQueue q && Topic.WildcardFree q

/-- What stays queued when the `i`-th message is delivered. -/
def taken (s : System) (i : Nat) (again : Bool) : List (String × Message) :=
  if again then s.queued else s.queued.eraseIdx i

/-- The `i`-th queued message goes to the `j`-th consumer. -/
def deliver (s : System) (i j : Nat) (again : Bool) : Option System :=
  match s.queued[i]?, s.consumers[j]? with
  | some (q, m), some c =>
    if c.queue = q ∧ (s.nodes c.node).inflight.closed = false then
      match c.role with
      | .reply =>
        some
          { s.setInflight c.node (onResponseMessage
              (s.nodes c.node).inflight m.correlationId m.body) with
            queued := s.taken i again }
      | .handler .rpc name callback =>
        some { s with
          queued := s.taken i again, handling :=
            ⟨c.node, name, callback, m, .running⟩ :: s.handling }
      | .handler _ _ _ => some { s with queued := s.taken i again }
    else none
  | _, _ => none

/-! ## Connections -/

/-- `connect`, or a reconnect on which the reply queue gets a new name. -/
def connect (cfg : Config) (s : System) (t : NodeId) (q : String) : Option System :=
  if s.freshQueue cfg q then
    some
      { s.setNode t ⟨{ (s.nodes t).inflight with closed := false }, some q⟩ with
        exclusive := q :: s.exclusive
        bindings := ⟨cfg.responseExchange, q, q⟩ :: s.bindings
        consumers := ⟨t, q, .reply⟩ :: s.consumers }
  else none

/-- `disconnect`: the consumers go with the channel. -/
def disconnect (s : System) (t : NodeId) : System :=
  { s.setNode t ⟨onConnectionClosed (s.nodes t).inflight none, none⟩ with
    consumers := s.consumers.filter fun c => c.node != t }

/-- The connection is lost, and with it what its exclusive queues hold. -/
def dropped (s : System) (t : NodeId) (exc : Option Exc) : System :=
  { s.setInflight t (onConnectionClosed (s.nodes t).inflight exc) with
    queued := s.queued.filter fun p => !(s.consumers.any fun c => c.node == t && c.queue == p.1 &&
      s.exclusive.contains p.1) }

/-- The robust connection is back, everything declared again under its old name. -/
def restored (s : System) (t : NodeId) : System :=
  s.setInflight t { (s.nodes t).inflight with closed := false }

/-! ## Servers -/

/-- `_register_request_callback` and its siblings; `q` is the name the broker chooses for
the exclusive queue of a broadcast subscriber. -/
def register (cfg : Config) (s : System) (t : NodeId) (kind : Kind) (name : String)
    (callback : CallbackId) (q : String) :
    Option System :=
  if IsTaskName name then
    match cfg.queueName kind name with
    | some queue =>
      some
        { s with
          bindings := ⟨cfg.exchange kind, cfg.routingKey kind name, queue⟩ :: s.bindings
          consumers := ⟨t, queue, .handler kind name callback⟩ :: s.consumers
          registered := (t, kind, name, callback) :: s.registered }
    | none =>
      if s.freshQueue cfg q then
        some
          { s with
            exclusive := q :: s.exclusive
            bindings := ⟨cfg.exchange kind, cfg.routingKey kind name, q⟩ :: s.bindings
            consumers := ⟨t, q, .handler kind name callback⟩ :: s.consumers
            registered := (t, kind, name, callback) :: s.registered }
      else none
  else none

/-- `_unregister_request_callback` and its siblings. -/
def unregister (s : System) (t : NodeId) (kind : Kind) (name : String) : System :=
  { s with consumers := s.consumers.filter fun c => !(c.node == t && c.role.isHandler kind name) }

/-- The callback of the `i`-th run returns; its response is published to the request's
`reply_to` if it is bytes and the transport still has its exchange. -/
def handlerReturns (cfg : Config) (s : System) (i : Nat) (response : Option Bytes) :
    Option System :=
  match s.handling[i]? with
  | some ⟨t, name, callback, m, .running⟩ =>
    some
      { s with
        handling := s.handling.set i ⟨t, name, callback, m, .replying response⟩
        answers :=
          match response with
          | some value => ⟨t, name, callback, m.correlationId, m.body, value⟩ :: s.answers
          | none => s.answers
        wire :=
          match response, m.replyTo, (s.nodes t).responseQueue with
          | some value, some key, some _ =>
            ⟨cfg.responseExchange, key, ⟨m.correlationId, none, value⟩⟩ :: s.wire
          | _, _, _ => s.wire }
  | _ => none

/-- The callback raises: nothing is published. -/
def handlerRaises (s : System) (i : Nat) : Option System :=
  match s.handling[i]? with
  | some ⟨_, _, _, _, .running⟩ => some { s with handling := s.handling.eraseIdx i }
  | _ => none

/-- The publish of the `i`-th run's response ends. -/
def replyEnds (s : System) (i : Nat) (o : PublishEnd) : Option System :=
  match s.handling[i]? with
  | some ⟨t, _, _, _, .replying response⟩ =>
    (Amqp.replyEnds (s.nodes t).inflight response o).map fun f =>
      { s.setInflight t f with handling := s.handling.eraseIdx i }
  | _ => none

inductive Event
  | sendRequest (t : NodeId) (k : CallId) (name : String) (content : Option Bytes)
    (timeout : Option Nat)
      (cid : CorrelationId)
  | publish (t : NodeId) (p : Nat) (kind : PublishKind) (name : String) (content : Option Bytes)
  | internal (t : NodeId) (e : Amqp.Event)
  | accept (i : Nat)
  | deliver (i j : Nat) (again : Bool)
  | connect (t : NodeId) (q : String)
  | disconnect (t : NodeId)
  | dropped (t : NodeId) (exc : Option Exc)
  | restored (t : NodeId)
  | register (t : NodeId) (kind : Kind) (name : String) (callback : CallbackId) (q : String)
  | unregister (t : NodeId) (kind : Kind) (name : String)
  | handlerReturns (i : Nat) (response : Option Bytes)
  | handlerRaises (i : Nat)
  | replyEnds (i : Nat) (o : PublishEnd)
deriving DecidableEq, Repr

def step (cfg : Config) (s : System) : Event → Option System
  | .sendRequest t k name content timeout cid => s.sendRequest cfg t k name content timeout cid
  | .publish t p kind name content => s.publish cfg t p kind name content
  | .internal t e => s.internal t e
  | .accept i => s.accept i
  | .deliver i j again => s.deliver i j again
  | .connect t q => s.connect cfg t q
  | .disconnect t => some (s.disconnect t)
  | .dropped t exc => some (s.dropped t exc)
  | .restored t => some (s.restored t)
  | .register t kind name callback q => s.register cfg t kind name callback q
  | .unregister t kind name => some (s.unregister t kind name)
  | .handlerReturns i response => s.handlerReturns cfg i response
  | .handlerRaises i => s.handlerRaises i
  | .replyEnds i o => s.replyEnds i o

end System

end Atasks.Amqp
