import Atasks.Amqp.Consumers
import Atasks.Amqp.Fleet
import Atasks.Amqp.Tasks
import Atasks.Lib.Custody
/-!
# What becomes of a message

A message from the publish on, over connections that break: the client and the broker learn of
it at different times, an ack or a publication may be lost on the way, and the broker hands out
again what it has no ack for. `README.md:530-586` describes this in stages; here they are one
machine, whose messages are in the custody of the broker (`Lib.Custody`).

| here | there |
| --- | --- |
| `State.conns`, `State.alive` | `_connection` and `is_closed`, one for each transport, and what the broker takes for open |
| `State.table`       | `_request_queues`, `_request_consumers` and their siblings (see `Consumers`) |
| `State.robust`      | the consumers that the robust connection declares again |
| `State.register`, `State.unregister` | `_register_request_callback`, `_unregister_request_callback` and their siblings |
| `State.publish`, `State.publishEnds` | `self._request_exchange.publish(...)` (`amqp.py:368-376`) and the two others |
| `Task`              | one run of `_on_message` (`:305-333`), `_on_event_message` (`:460-466`) or `_on_broadcast_message` (`:527-533`) |
| `Config.consumerCode` | its code, from `Tasks`: the ack of `async with message.process()` and what is behind it |
| `TaskEvent.sendAck`, `TaskEvent.ackEnds` | `message.ack()` up to its frame, and what it ends with |
| `Task.calls`        | how often it has called `callback` |

A connection is a number that is not used again. Replies are in `Broker`; what a message says
plays no part. `prefetch_count` bounds how much is handed out at a time; here there is no bound.

What holds in every state is in `DeliveryInv`, what follows for a message in `AtMostOnce`.
-/

namespace Atasks.Amqp

/-- What a consumer runs for a message of a request, an event or a broadcast. -/
def Config.consumerCode (cfg : Config) (kind : Kind) (publication : Nat) : Tasks.Code :=
  match kind with
  | .rpc => Tasks.onMessage cfg publication
  | .queue => Tasks.onEventMessage
  | .broadcast => Tasks.onEventMessage

namespace Delivery

open Machine
open Custody (Store)

abbrev ConnId := Nat

/-- One per message handed out. -/
abbrev DeliveryId := Nat

structure Consumer where
  conn : ConnId
  tag : Tag
  registration : Registration
deriving DecidableEq, Repr

/-- The copy of a publication on one queue. -/
structure Copy where
  publication : Nat
  queue : String
  /-- The queue is. -/
  durable : Bool
  sent : Sent
deriving DecidableEq, Repr

/-- `delivery_mode=PERSISTENT`: events and broadcasts, not requests. -/
def Copy.persistent (k : Copy) : Bool := k.sent.kind != .rpc

inductive Life
  /-- Not there yet. -/
  | transit
  | running (code : Tasks.Code)
  | over

/-- A message handed to a consumer, and the task it is for. -/
structure Task where
  consumer : Consumer
  copy : Copy
  life : Life
  ackSent : Bool
  calls : Nat

/-- A publish. -/
structure Publishing where
  node : NodeId
  conn : Option ConnId
  sent : Sent
  /-- On its way to the broker. -/
  onWire : Bool
  /-- The queues it came to, once the broker has it. -/
  routed : Option (List String)
  ended : Option PublishEnd
deriving DecidableEq, Repr

/-- With publisher confirms and `mandatory`: a publish that returns has been routed, and one that
was not comes back. Any other exception says nothing. -/
def Publishing.mayEnd (u : Publishing) : PublishEnd → Bool
  | .ok => u.routed.any (· ≠ [])
  | .raised .publishError => u.routed = some []
  | .raised _ => true

/-- The broker reads no more of what a connection was sent. -/
def Publishing.unread (u : Publishing) (c : ConnId) : Publishing :=
    if u.conn = some c then { u with onWire := false } else u

/-- A consumer that a robust connection takes with it to the next connection. -/
structure Robust where
  tag : Tag
  kind : Kind
  name : String
deriving DecidableEq, Repr

structure State where
  conns : NodeId → Option ConnId
  alive : List ConnId
  opened : Nat
  table : NodeId → Bookkeeping
  robust : NodeId → List Robust
  tagged : Nat
  durable : List String
  /-- The exclusive queues, each with the connection that declared it. -/
  exclusive : List (String × ConnId)
  bindings : List Binding
  consumers : List Consumer
  store : Store Copy DeliveryId
  tasks : DeliveryId → Option Task
  delivered : Nat
  publishings : Nat → Option Publishing

namespace State

def init : State :=
  ⟨fun _ => none, [], 0, fun _ => .empty, fun _ => [], 0, [], [], [], [], .empty, fun _ => none, 0,
    fun _ => none⟩

def setTask (s : State) (d : DeliveryId) (t : Task) : State :=
    { s with tasks := Function.update s.tasks d (some t) }

def setPublishing (s : State) (p : Nat) (u : Publishing) : State :=
  { s with publishings := Function.update s.publishings p (some u) }

/-! ## Connections and queues -/

/-- `connect`, or a reconnect of the robust connection. -/
def openConnection (s : State) (t : NodeId) : Option State :=
  match s.conns t with
  | some _ => none
  | none =>
    some { s with
      conns := Function.update s.conns t (some s.opened), alive := s.opened :: s.alive, opened :=
        s.opened + 1 }

/-- A queue is declared, bound and consumed with `tag`, which no other consumer of the connection
has. `q` is the name the broker chooses for the exclusive queue of a broadcast subscriber. -/
def consume (cfg : Config) (s : State) (t : NodeId) (kind : Kind) (name q : String) (tag : Tag) :
    Option State :=
  match s.conns t with
  | none => none
  | some c =>
    if c ∈ s.alive ∧ (c, tag) ∉ s.consumers.map (fun x => (x.conn, x.tag)) then
      match cfg.queueName kind name with
      | some queue =>
        if queue ∉ s.exclusive.map Prod.fst then
          some
            { s with
              durable := queue :: s.durable
              bindings := cfg.bindingOf ⟨t, kind, name, queue⟩ :: s.bindings
              consumers := ⟨c, tag, ⟨t, kind, name, queue⟩⟩ :: s.consumers }
        else none
      | none =>
        if q ∉ s.durable ∧ q ∉ s.exclusive.map Prod.fst then
          some
            { s with
              exclusive := (q, c) :: s.exclusive
              bindings := cfg.bindingOf ⟨t, kind, name, q⟩ :: s.bindings
              consumers := ⟨c, tag, ⟨t, kind, name, q⟩⟩ :: s.consumers }
        else none
    else none

/-- What a registration leaves with the transport and its connection. -/
def remember (s : State) (t : NodeId) (kind : Kind) (name : String) : State :=
  { s with
    table := Function.update s.table t ((s.table t).set kind name s.tagged)
    robust := Function.update s.robust t (⟨s.tagged, kind, name⟩ :: s.robust t)
    tagged := s.tagged + 1 }

/-- The consumer of an earlier registration under the same name, if any, stays. -/
def register (cfg : Config) (s : State) (t : NodeId) (kind : Kind) (name q : String) :
    Option State :=
  (s.consume cfg t kind name q s.tagged).map fun s' => s'.remember t kind name

/-- The robust connection declares one of its consumers again, with the tag it had. -/
def restore (cfg : Config) (s : State) (t : NodeId) (r : Robust) (q : String) : Option State :=
  if r ∈ s.robust t then s.consume cfg t r.kind r.name q r.tag else none

/-- Exclusive queues go, and what is ready on none that is left. -/
def deleteQueues (s : State) (queues : List String) : State :=
  let exclusive := s.exclusive.filter fun x => x.1 ∉ queues
  { s with
    exclusive
    bindings := s.bindings.filter fun b => b.queue ∉ queues
    store := s.store.discard fun k => !k.durable && k.queue ∉ exclusive.map Prod.fst }

/-- `_unregister_request_callback` and its siblings: the consumer in the table is cancelled, if
there is a connection to cancel it on. An exclusive queue is an auto-delete one. -/
def unregister (s : State) (t : NodeId) (kind : Kind) (name : String) : State :=
  let entry := (s.table t).entry kind name
  let cancelled : Consumer → Bool := fun c =>
    s.conns t = some c.conn ∧ entry = (some c.tag, some c.tag)
  ({ s with
      table := Function.update s.table t ((s.table t).pop kind name)
      robust := if (s.conns t).isSome then
          Function.update s.robust t ((s.robust t).filter fun r => entry ≠ (some r.tag, some r.tag))
        else s.robust
      consumers := s.consumers.filter fun c => !cancelled c } : State).deleteQueues
    ((s.consumers.filter cancelled).map (fun c => c.registration.queue)
      |>.filter (· ∈ s.exclusive.map Prod.fst))

/-! ## Publishing -/

def publish (cfg : Config) (s : State) (p : Nat) (t : NodeId) (kind : Kind) (name : String)
    (body : Bytes) : Option State :=
  match s.publishings p with
  | some _ => none
  | none =>
    some (s.setPublishing p ⟨t, s.conns t, cfg.sent t kind name body, (s.conns t).isSome, none,
      none⟩)

def routed (s : State) (m : Sent) : List String :=
  ((s.bindings.filter fun b => b.exchange == m.exchange && Topic.keyMatches b.key m.key).map
    Binding.queue).dedup

def copiesOf (s : State) (p : Nat) (m : Sent) : List Copy :=
    (s.routed m).map fun q => ⟨p, q, q ∈ s.durable, m⟩

/-- The broker accepts a publication. -/
def accept (s : State) (p : Nat) : Option State :=
  match s.publishings p with
  | none => none
  | some u =>
    if u.onWire ∧ u.conn.any (· ∈ s.alive) then
      some
        { s.setPublishing p { u with onWire := false, routed := some (s.routed u.sent) } with
          store := s.store.store (s.copiesOf p u.sent) }
    else none

def publishEnds (s : State) (p : Nat) (o : PublishEnd) : Option State :=
  match s.publishings p with
  | none => none
  | some u =>
    if u.ended.isNone ∧ u.mayEnd o then some (s.setPublishing p { u with ended := some o })
      else none

/-! ## Consuming -/

/-- The `i`-th ready message goes to the `j`-th consumer. -/
def deliver (s : State) (i j : Nat) : Option State :=
  match s.store.ready[i]?, s.consumers[j]? with
  | some k, some c =>
    if c.registration.queue = k.queue then
      (s.store.take i s.delivered).map fun store =>
        { s.setTask s.delivered ⟨c, k, .transit, false, 0⟩ with
          store, delivered := s.delivered + 1 }
    else none
  | _, _ => none

/-- The broker has the ack. -/
def settle (s : State) (d : DeliveryId) : Option State :=
  match s.tasks d with
  | none => none
  | some t =>
    if t.ackSent ∧ t.consumer.conn ∈ s.alive then
      some { s with store := s.store.settle (· == d) } else none

end State

inductive TaskEvent
  /-- The message is there; its task starts. -/
  | receive
  /-- The frame of the ack goes out. -/
  | sendAck
  | ackEnds (answer : Tasks.Answer)
  | callbackEnds (ended : Tasks.Ended)
  /-- The publish of the response ends, or the task goes on by itself. -/
  | goOn (answer : Tasks.Answer)
deriving DecidableEq, Repr

namespace Task

/-- On to what comes next, which may be to call the callback. -/
def goto (t : Task) (code : Tasks.Code) : Task :=
  { t with
    life := .running code
    calls := match code with
      | .callback _ => t.calls + 1
      | _ => t.calls }

/-- `connected` says that the connection the message came through is still there. The await of the
ack succeeds only if the frame went out. -/
def step (cfg : Config) (connected : Bool) (t : Task) : TaskEvent → Option Task
  | .receive =>
    match t.life with
    | .transit =>
      if connected then
        some { t with
        life := .running (cfg.consumerCode t.consumer.registration.kind t.copy.publication) } else none
    | _ => none
  | .sendAck =>
    match t.life with
    | .running (.await .ack _) => if connected then some { t with ackSent := true } else none
    | _ => none
  | .ackEnds answer =>
    match t.life with
    | .running (.await .ack next) =>
      if answer = .ok → t.ackSent then some (t.goto (next answer)) else none
    | _ => none
  | .callbackEnds ended =>
    match t.life with
    | .running (.callback next) => some (t.goto (next ended))
    | _ => none
  | .goOn answer =>
    match t.life with
    | .running (.await (.publish _ _) next) => some (t.goto (next answer))
    | .running (.set _ next) => some (t.goto next)
    | .running .done => some { t with life := .over }
    | _ => none

end Task

namespace State

def task (cfg : Config) (s : State) (d : DeliveryId) (e : TaskEvent) : Option State :=
  match s.tasks d with
  | none => none
  | some t =>
    (t.step cfg (s.conns t.consumer.registration.node = some t.consumer.conn) e).map (s.setTask d)

/-! ## What breaks -/

/-- Tasks that do not get to their end. -/
def stop (s : State) (stopped : Task → Bool) : State :=
  { s with tasks := fun d => (s.tasks d).map fun t => if stopped t then { t with
    life := .over } else t }

/-- The broker gives a connection up: what was held through it is ready again, its exclusive queues
are gone, and what it was sent through it is not read any more. -/
def brokerCloses (s : State) (c : ConnId) : State :=
  ({ s with
      alive := s.alive.filter (· ≠ c)
      consumers := s.consumers.filter fun x => x.conn ≠ c
      publishings := fun p => (s.publishings p).map fun u => u.unread c
      store := s.store.lose fun d => (s.tasks d).any fun t => t.consumer.conn = c } :
        State).deleteQueues
    ((s.exclusive.filter fun x => x.2 = c).map Prod.fst)

/-- A transport finds its connection closed, and gets no message of it any more. -/
def clientCloses (s : State) (t : NodeId) : State :=
  ({ s with conns := Function.update s.conns t none } : State).stop fun x =>
    x.consumer.registration.node = t ∧ x.life matches .transit

/-- The dictionaries are cleared, and the connection is not restored any more. -/
def forget (s : State) (t : NodeId) : State :=
  { s with
    table := Function.update s.table t .empty
    robust := Function.update s.robust t [] }

/-- `disconnect`. -/
def disconnect (s : State) (t : NodeId) : State := (s.clientCloses t).forget t

/-- The process ends. -/
def crash (s : State) (t : NodeId) : State :=
  (({ s with conns := Function.update s.conns t none } : State).stop fun x =>
    x.consumer.registration.node = t).forget t

/-- The broker starts again: what is not persistent is gone. -/
def restart (s : State) : Option State :=
  if s.alive =
    [] then some { s with store := s.store.discard fun k => !(k.durable && k.persistent) } else none

end State

inductive Event
  | openConnection (t : NodeId)
  | register (t : NodeId) (kind : Kind) (name q : String)
  | restore (t : NodeId) (r : Robust) (q : String)
  | unregister (t : NodeId) (kind : Kind) (name : String)
  | publish (p : Nat) (t : NodeId) (kind : Kind) (name : String) (body : Bytes)
  | accept (p : Nat)
  | publishEnds (p : Nat) (o : PublishEnd)
  | deliver (i j : Nat)
  | settle (d : DeliveryId)
  | task (d : DeliveryId) (e : TaskEvent)
  | brokerCloses (c : ConnId)
  | clientCloses (t : NodeId)
  | disconnect (t : NodeId)
  | crash (t : NodeId)
  | restart
deriving DecidableEq, Repr

def step (cfg : Config) (s : State) : Event → Option State
  | .openConnection t => s.openConnection t
  | .register t kind name q => s.register cfg t kind name q
  | .restore t r q => s.restore cfg t r q
  | .unregister t kind name => some (s.unregister t kind name)
  | .publish p t kind name body => s.publish cfg p t kind name body
  | .accept p => s.accept p
  | .publishEnds p o => s.publishEnds p o
  | .deliver i j => s.deliver i j
  | .settle d => s.settle d
  | .task d e => s.task cfg d e
  | .brokerCloses c => some (s.brokerCloses c)
  | .clientCloses t => some (s.clientCloses t)
  | .disconnect t => some (s.disconnect t)
  | .crash t => some (s.crash t)
  | .restart => s.restart

end Delivery

end Atasks.Amqp
