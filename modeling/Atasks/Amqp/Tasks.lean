import Atasks.Amqp.Config
import Atasks.Amqp.Consumers
import Atasks.Amqp.InFlight
/-!
# The tasks of one `AMQPTransport`

All that the methods of a transport and its consumer callbacks await, and what they do in
between: one `Code` each, with the lock, the broker, the future of a request and the handler
as the points where a task may be suspended. Tasks of user code call the methods, also from
inside a handler, and start further tasks; aio-pika starts one task for each message it
delivers.

| here | there |
| --- | --- |
| `Code.acquire`, `Code.release` | `await self._lock.acquire()` and `self._lock.release()` (`amqp.py:121-141`, and ten more methods) |
| `Code.await`                   | an await of aio-pika; what the broker does is `perform`, what the task learns of it is `answer` |
| `Code.reply`                   | `await future` (`:403-412`) |
| `Code.callback`                | `await callback(...)` of the consumer callbacks (`:312, 464, 531`) |
| `exit`                         | the `finally` clause that every method with the lock leaves through |
| `Attrs`                        | the attributes that are read and written without an await |
| `enter`, `grant`, `giveUp`     | `asyncio.Lock`: first come, first served, and not reentrant |

Bodies of messages, and what a call ends with, are in `InFlight` and `Broker`; neither decides
who waits. An attribute that is missing raises where it is read; here the broker operation it
is read for answers `failed`. A request's id is drawn when `send_request` is called, and
`uuid4` draws none twice.
-/

namespace Atasks.Amqp.Tasks

abbrev TaskId := Nat

/-- The queues a transport consumes from. -/
inductive Queue
  | response
  | task (kind : Kind) (name : String)
deriving DecidableEq, Repr

inductive Message
  | request (name : String) (cid : CorrelationId)
  | response (cid : CorrelationId)
  | event (name : String)
  | broadcast (name : String)
deriving DecidableEq, Repr

def Message.queue : Message → Queue
  | .request name _ => .task .rpc name
  | .response _ => .response
  | .event name => .task .queue name
  | .broadcast name => .task .broadcast name

/-- The request that the message is part of. -/
def Message.about : Message → Option CorrelationId
  | .request _ cid => some cid
  | .response cid => some cid
  | _ => none

/-- What is asked of aio-pika and the broker. -/
inductive Op
  | connectRobust
  | channel
  | declareExchange (name : String)
  /-- Without a name it is exclusive, and the broker names it. -/
  | declareQueue (name : Option String)
  /-- Without a key it is the queue's own name. -/
  | bind (exchange : String) (key : Option String)
  | setQos (prefetchCount : Nat)
  | consume (queue : Queue) (tag : Tag)
  | cancel (tag : Tag)
  | close
  | publish (exchange : String) (message : Message)
  | ack
deriving DecidableEq, Repr

inductive Answer
  | ok
  | publishError
  /-- A `CancelledError` that is let through: under the lock, a publish keeps back one that
  `_task_was_actually_cancelled` denies. -/
  | cancelled
  /-- Any other exception, or a `CancelledError` that is kept back. -/
  | failed
deriving DecidableEq, Repr

structure Attrs where
  /-- `hasattr(self, '_connection')`. -/
  connection : Bool
  /-- `_connection.is_closed`. -/
  isClosed : Bool
  bookkeeping : Bookkeeping
  /-- The keys of `_awaiting_requests`. -/
  awaitingRequests : List CorrelationId
  /-- The requests whose future is done. -/
  done : List CorrelationId

namespace Attrs

def init : Attrs := ⟨false, false, .empty, [], []⟩

def pop (cid : CorrelationId) (a : Attrs) : Attrs :=
    { a with awaitingRequests := a.awaitingRequests.filter (· != cid) }

/-- `_fail_awaiting_requests`. -/
def failAwaitingRequests (a : Attrs) : Attrs :=
  { a with awaitingRequests := [], done := a.awaitingRequests ++ a.done }

/-- `_on_response_message` after its ack. -/
def resolve (cid : CorrelationId) (a : Attrs) : Attrs :=
  if cid ∈ a.awaitingRequests then { a.pop cid with done := cid :: a.done } else a

end Attrs

/-- How user code comes to its end: `cancelled` is any exception that is no `Exception`. -/
inductive Ended
  | returned
  | raised
  | cancelled
deriving DecidableEq, Repr

inductive Code
  | done
  | acquire (next : Code)
  | release (next : Code)
  | get (next : Attrs → Code)
  | set (f : Attrs → Attrs) (next : Code)
  | await (op : Op) (next : Answer → Code)
  | reply (cid : CorrelationId) (timeout : Option Nat) (next : Code)
  | callback (next : Ended → Code)

/-! ## The methods -/

/-- Leaves a `try: ... finally: self._lock.release()`. -/
def exit : Code := .release .done

/-- One operation after the other; the first that does not succeed leaves the method. -/
def inOrder : List Op → Code → Code
  | [], next => next
  | op :: ops, next => .await op fun
    | .ok => inOrder ops next
    | _ => exit

def disconnect : Code :=
  .acquire <| .get fun a =>
    if a.connection then
      .await .close fun
        | .ok => .set (fun a => { a with connection := false, bookkeeping := .empty }) exit
        | _ => exit
    else exit

def connect (cfg : Config) (tag : Tag) : Code :=
  .acquire <| .get fun a =>
    if a.connection then exit
    else
      .await .connectRobust fun
        | .ok =>
          .set (fun a => { a with connection := true, isClosed := false }) <|
            -- `declared_exchanges` saves declaring a name twice
            let exchanges := [cfg.requestExchange, cfg.responseExchange, cfg.eventExchange,
              cfg.broadcastExchange].eraseDups
            inOrder ([.channel] ++ exchanges.map .declareExchange ++
              [.declareQueue none, .bind cfg.responseExchange none, .setQos 1,
                .consume .response tag]) exit
        | _ => exit

/-- What the three registrations share. -/
def register (cfg : Config) (kind : Kind) (name : String) (tag : Tag) : Code :=
  .acquire <|
    inOrder [.declareQueue (cfg.queueName kind name), .bind (cfg.exchange kind)
      (some (cfg.routingKey kind name)),
        .consume (.task kind name) tag] <|
      .set (fun a => { a with bookkeeping := a.bookkeeping.set kind name tag }) exit

/-- Cancels the consumer that an unregistration found, if there still is a connection. -/
def cancelFound (a : Attrs) : Option Tag × Option Tag → Code
  | (some _, some tag) =>
    if a.connection && !a.isClosed then .await (.cancel tag) fun _ => exit else exit
  | _ => exit

/-- What the three unregistrations share. -/
def unregister (kind : Kind) (name : String) : Code :=
  .acquire <| .get fun a =>
    .set (fun a => { a with bookkeeping := a.bookkeeping.pop kind name }) <| cancelFound a
      (a.bookkeeping.entry kind name)

def registerRequestCallback (cfg : Config) (name : String) (tag : Tag) : Code :=
    register cfg .rpc name tag

def unregisterRequestCallback (name : String) : Code := unregister .rpc name

def registerEventCallback (cfg : Config) (name : String) (tag : Tag) : Code :=
    register cfg .queue name tag

def unregisterEventCallback (name : String) : Code := unregister .queue name

def registerBroadcastCallback (cfg : Config) (name : String) (tag : Tag) : Code :=
    register cfg .broadcast name tag

def unregisterBroadcastCallback (name : String) : Code := unregister .broadcast name

def sendRequest (cfg : Config) (name : String) (timeout : Option Nat) (cid : CorrelationId) :
    Code :=
  let wait : Code := .release (.reply cid timeout (.set (Attrs.pop cid) .done))
  .acquire <| .set (fun a => { a with awaitingRequests := cid :: a.awaitingRequests }) <|
    .await (.publish cfg.requestExchange (.request name cid)) fun
      | .ok => wait
      | .publishError => .set (Attrs.pop cid) exit
      | .cancelled => .set (Attrs.pop cid) exit
      | .failed => .set Attrs.failAwaitingRequests wait

/-- What `publish_event` and `publish_broadcast` share. -/
def publish (exchange : String) (message : Message) : Code :=
  .acquire <| .await (.publish exchange message) fun
    | .failed => .set Attrs.failAwaitingRequests exit
    | _ => exit

def publishEvent (cfg : Config) (name : String) : Code := publish cfg.eventExchange (.event name)

def publishBroadcast (cfg : Config) (name : String) : Code := publish cfg.broadcastExchange
    (.broadcast name)

/-! ## The consumer callbacks

`async with message.process()` acks when its body is through, and lets out what the ack raises. -/

/-- `_on_message`. -/
def onMessage (cfg : Config) (cid : CorrelationId) : Code :=
  .await .ack fun
    | .ok => .callback fun
      | .returned => .await (.publish cfg.responseExchange (.response cid)) fun
        | .ok => .done
        | .cancelled => .done
        | _ => .set Attrs.failAwaitingRequests .done
      | _ => .done
    | _ => .done

/-- `_on_event_message`, and `_on_broadcast_message` word for word. -/
def onEventMessage : Code :=
  .await .ack fun
    | .ok => .callback fun _ => .done
    | _ => .done

def onResponseMessage (cid : CorrelationId) : Code :=
  .await .ack fun
    | .ok => .set (Attrs.resolve cid) .done
    | _ => .done

def Message.code (cfg : Config) : Message → Code
  | .request _ cid => onMessage cfg cid
  | .response cid => onResponseMessage cid
  | .event _ => onEventMessage
  | .broadcast _ => onEventMessage

/-- A call of a method. -/
inductive Method
  | disconnect
  | connect (tag : Tag)
  | registerRequestCallback (name : String) (tag : Tag)
  | unregisterRequestCallback (name : String)
  | sendRequest (name : String) (timeout : Option Nat) (cid : CorrelationId)
  | publishEvent (name : String)
  | registerEventCallback (name : String) (tag : Tag)
  | unregisterEventCallback (name : String)
  | publishBroadcast (name : String)
  | registerBroadcastCallback (name : String) (tag : Tag)
  | unregisterBroadcastCallback (name : String)

def Method.code (cfg : Config) : Method → Code
  | .disconnect => Tasks.disconnect
  | .connect tag => Tasks.connect cfg tag
  | .registerRequestCallback name tag => Tasks.registerRequestCallback cfg name tag
  | .unregisterRequestCallback name => Tasks.unregisterRequestCallback name
  | .sendRequest name timeout cid => Tasks.sendRequest cfg name timeout cid
  | .publishEvent name => Tasks.publishEvent cfg name
  | .registerEventCallback name tag => Tasks.registerEventCallback cfg name tag
  | .unregisterEventCallback name => Tasks.unregisterEventCallback name
  | .publishBroadcast name => Tasks.publishBroadcast cfg name
  | .registerBroadcastCallback name tag => Tasks.registerBroadcastCallback cfg name tag
  | .unregisterBroadcastCallback name => Tasks.unregisterBroadcastCallback name

/-- The id that a call draws. -/
def Method.draws : Method → Option CorrelationId
  | .sendRequest _ _ cid => some cid
  | _ => none

/-! ## Tasks and the broker -/

inductive Control
  | user
  | code (c : Code)

/-- Where a task goes on when what it does now is through. -/
inductive Frame
  | user
  | callback (next : Ended → Code)

structure Task where
  /-- That it was started for. -/
  message : Option Message
  /-- Whose user code started it. -/
  parent : Option TaskId
  control : Control
  below : List Frame
  /-- The broker has done what the task awaits. -/
  performed : Bool

/-- A message the broker has handed out and waits for the ack of. -/
structure Delivery where
  task : TaskId
  tag : Tag
  message : Message

structure State where
  tasks : TaskId → Option Task
  nextTask : TaskId
  lock : Option TaskId
  waiters : List TaskId
  attrs : Attrs
  /-- The request ids drawn so far, here or elsewhere. -/
  issued : List CorrelationId
  /-- The task that drew it, if one of these did. -/
  askedBy : CorrelationId → Option TaskId
  queued : List Message
  consumers : List (Tag × Queue)
  unacked : List Delivery

namespace State

def init : State := ⟨fun _ => none, 0, none, [], .init, [], fun _ => none, [], [], []⟩

def put (s : State) (k : TaskId) (t : Task) : State :=
    { s with tasks := Function.update s.tasks k (some t) }

def remove (s : State) (k : TaskId) : State := { s with tasks := Function.update s.tasks k none }

def enqueue (s : State) (m : Message) : State :=
  { s with queued := s.queued ++ [m], issued := m.about.toList ++ s.issued }

end State

def Task.goto (t : Task) (c : Code) : Task := { t with control := .code c, performed := false }

/-- User code, for `parent` or from outside. -/
def Task.fresh (parent : Option TaskId) : Task := ⟨none, parent, .user, [], false⟩

/-- A program starts a task, or user code does. -/
def start (s : State) (parent : Option TaskId) : Option State :=
  let runs : TaskId → Bool := fun k => (s.tasks k).any fun t => t.control matches .user
  if parent.all runs then some { s.put s.nextTask (.fresh parent) with
    nextTask := s.nextTask + 1 } else none

/-- User code calls a method. -/
def invoke (cfg : Config) (s : State) (k : TaskId) (m : Method) : Option State :=
  match s.tasks k with
  | some ⟨message, parent, .user, below, _⟩ =>
    let s' := s.put k ⟨message, parent, .code (m.code cfg), .user :: below, false⟩
    match m.draws with
    | none => some s'
    | some cid =>
      if cid ∈ s.issued then none
      else some { s' with
        issued := cid :: s.issued, askedBy := Function.update s.askedBy cid (some k) }
  | _ => none

/-- User code ends. -/
def leave (s : State) (k : TaskId) (e : Ended) : Option State :=
  match s.tasks k with
  | some ⟨message, parent, .user, below, _⟩ =>
    match below with
    | [] => some (s.remove k)
    | .callback next :: below => some (s.put k ⟨message, parent, .code (next e), below, false⟩)
    | .user :: _ => none
  | _ => none

/-! ### The lock -/

def enter (s : State) (k : TaskId) : Option State :=
  match s.tasks k with
  | some t =>
    match t.control with
    | .code (.acquire next) =>
      if k ∈ s.waiters then none
      else if s.lock = none ∧ s.waiters = [] then some { s.put k (t.goto next) with lock := some k }
      else some { s with waiters := s.waiters ++ [k] }
    | _ => none
  | none => none

/-- The first in the queue wakes up. -/
def grant (s : State) : Option State :=
  match s.lock, s.waiters with
  | none, k :: rest =>
    match s.tasks k with
    | some t =>
      match t.control with
      | .code (.acquire next) => some { s.put k (t.goto next) with lock := some k, waiters := rest }
      | _ => none
    | none => none
  | _, _ => none

/-- A task is cancelled while it is in the queue. -/
def giveUp (s : State) (k : TaskId) : Option State :=
  match s.tasks k with
  | some t =>
    if k ∈ s.waiters then some { s.put k (t.goto .done) with
      waiters := s.waiters.filter (· != k) } else none
  | none => none

/-! ### Between awaits, and the awaits -/

/-- A method or a consumer callback goes on by itself. -/
def go (s : State) (k : TaskId) : Option State :=
  match s.tasks k with
  | some t =>
    match t.control with
    | .code (.get next) => some (s.put k (t.goto (next s.attrs)))
    | .code (.set f next) => some { s.put k (t.goto next) with attrs := f s.attrs }
    | .code (.release next) => some { s.put k (t.goto next) with lock := none }
    | .code (.callback next) =>
      some (s.put k { t with control := .user, below := .callback next :: t.below })
    | .code .done =>
      match t.below with
      | [] => some (s.remove k)
      | .user :: below => some (s.put k { t with control := .user, below })
      | .callback _ :: _ => none
    | _ => none
  | none => none

/-- What an operation does at the broker. Whether a message gets into a queue of this
transport, the broker decides. -/
def Op.perform (s : State) (k : TaskId) (routed : Bool) : Op → State
  | .publish _ m => if routed then s.enqueue m else s
  | .consume queue tag => { s with consumers := (tag, queue) :: s.consumers }
  | .cancel tag => { s with consumers := s.consumers.filter fun c => c.1 != tag }
  | .ack => { s with unacked := s.unacked.filter fun d => d.task != k }
  | _ => s

def perform (s : State) (k : TaskId) (routed : Bool) : Option State :=
  match s.tasks k with
  | some t =>
    match t.control with
    | .code (.await op _) =>
      if t.performed then none else some ((op.perform s k routed).put k
        { t with performed := true })
    | _ => none
  | none => none

/-- The task gets the answer; a good one, only after the operation. -/
def answer (s : State) (k : TaskId) (a : Answer) : Option State :=
  match s.tasks k with
  | some t =>
    match t.control with
    | .code (.await _ next) =>
      if a = .ok ∧ t.performed = false then none else some (s.put k (t.goto (next a)))
    | _ => none
  | none => none

/-- Whether the await of a future may end this way. -/
def mayWake (a : Attrs) (cid : CorrelationId) (timeout : Option Nat) : Wake → Bool
  | .future => cid ∈ a.done
  | .timeout => timeout.isSome
  | .cancel => true

def wake (s : State) (k : TaskId) (w : Wake) : Option State :=
  match s.tasks k with
  | some t =>
    match t.control with
    | .code (.reply cid timeout next) =>
      if mayWake s.attrs cid timeout w then some (s.put k (t.goto next)) else none
    | _ => none
  | none => none

/-! ### Deliveries -/

variable (cfg : Config) (slotOf : Tag → Nat)

/-- With `prefetch_count=1`, one message at a time for each slot. -/
def deliver (s : State) (m : Message) (tag : Tag) : Option State :=
  if m ∈ s.queued ∧ (tag, m.queue) ∈ s.consumers ∧ ∀ d ∈ s.unacked, slotOf d.tag ≠ slotOf tag then
    some { s.put s.nextTask ⟨some m, none, .code (m.code cfg), [], false⟩ with
      nextTask := s.nextTask + 1, queued := s.queued.erase m, unacked :=
        ⟨s.nextTask, tag, m⟩ :: s.unacked }
  else none

/-- The connection drops: what was not acked goes back to its queue, if the broker keeps it,
and `_on_connection_closed` runs. -/
def lost (s : State) (kept : Message → Bool) (closed : Bool) : State :=
  { s with
    queued := (s.queued ++ s.unacked.map Delivery.message).filter kept
    unacked := []
    consumers := []
    attrs := { s.attrs.failAwaitingRequests with isClosed := closed } }

inductive Event
  | start (parent : Option TaskId)
  | invoke (k : TaskId) (m : Method)
  | leave (k : TaskId) (e : Ended)
  | enter (k : TaskId)
  | grant
  | giveUp (k : TaskId)
  | go (k : TaskId)
  | perform (k : TaskId) (routed : Bool)
  | answer (k : TaskId) (a : Answer)
  | wake (k : TaskId) (w : Wake)
  | deliver (m : Message) (tag : Tag)
  /-- Another transport's message. -/
  | arrives (m : Message)
  /-- Another transport's consumer takes it. -/
  | taken (m : Message)
  | lost (kept : Message → Bool) (closed : Bool)
  /-- The robust connection declares a consumer again. -/
  | restored (tag : Tag) (queue : Queue)

def step (s : State) : Event → Option State
  | .start parent => start s parent
  | .invoke k m => invoke cfg s k m
  | .leave k e => leave s k e
  | .enter k => enter s k
  | .grant => grant s
  | .giveUp k => giveUp s k
  | .go k => go s k
  | .perform k routed => perform s k routed
  | .answer k a => answer s k a
  | .wake k w => wake s k w
  | .deliver m tag => deliver cfg slotOf s m tag
  | .arrives m => some (s.enqueue m)
  | .taken m => some { s with queued := s.queued.erase m }
  | .lost kept closed => some (lost s kept closed)
  | .restored tag queue => some { s with consumers := (tag, queue) :: s.consumers }

/-! ## Who waits for whom -/

/-- The task awaits the future of this request, which is not done. -/
def AwaitsReply (s : State) (k : TaskId) (cid : CorrelationId) : Prop :=
  ∃ t timeout next, s.tasks k = some t ∧ t.control = .code (.reply cid timeout next) ∧
    cid ∉ s.attrs.done

/-- Task `k` cannot go on before the other one does. What a task asked of the broker is not
listed: the broker answers by itself. -/
inductive Waits (s : State) (k : TaskId) : TaskId → Prop
  /-- For the lock. -/
  | holder {k' : TaskId} (hk : k ∈ s.waiters) (hlock : s.lock = some k') : Waits s k k'
  /-- For its turn. -/
  | ahead {k' : TaskId} {before after : List TaskId} (hw : s.waiters = before ++ k :: after)
    (hk' : k' ∈ before) : Waits s k k'
  /-- For a reply: the task runs the request's handler, or has received its response. -/
  | handling {k' : TaskId} {t : Task} {cid : CorrelationId} (hr : AwaitsReply s k cid)
    (ht : s.tasks k' = some t)
      (hm : t.message.bind Message.about = some cid) : Waits s k k'
  /-- For a reply whose request or response is queued behind the message of the other task. -/
  | slot {cid : CorrelationId} {m : Message} {tag : Tag} {d : Delivery} {t : Task}
    (hr : AwaitsReply s k cid)
      (hm : m ∈ s.queued) (hcid : m.about = some cid) (hc : (tag, m.queue) ∈ s.consumers)
        (hd : d ∈ s.unacked)
      (hs : slotOf d.tag = slotOf tag) (ht : s.tasks d.task = some t) : Waits s k d.task
  /-- User code may await the tasks that it has started. -/
  | child {k' : TaskId} {t t' : Task} (ht : s.tasks k = some t) (hu : t.control = .user)
    (ht' : s.tasks k' = some t')
      (hp : t'.parent = some k) : Waits s k k'

end Atasks.Amqp.Tasks
