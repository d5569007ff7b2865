import Atasks.Basic
import Atasks.Lib.Dict
import Atasks.Lib.Machine
/-!
# The in-flight RPC table of `AMQPTransport`

`atasks/transport/backends/amqp.py`. One transport, any number of concurrent `send_request`,
`publish_event` and `publish_broadcast` calls. What runs between two awaits is one step; an
`Event` says which task runs next and how the await it was suspended in ended.

| here | there |
| --- | --- |
| `Exc`                    | what `exchange.publish(aio_pika.Message(...))` may raise |
| `Future`, `Call.complete` | the `asyncio.Future` a call creates (`:364`), `set_result`/`set_exception` |
| `State.awaitingRequests` | `_awaiting_requests`; its values are the futures, named by the call that created them |
| `failAwaitingRequests`   | `_fail_awaiting_requests` (`:210-239`), the table swap included |
| `taskWasActuallyCancelled` | `_task_was_actually_cancelled` (`:241-272`) |
| `onResponseMessage`      | `_on_response_message` (`:190-206`) after its ack |
| `sendRequest`, `publishEnds`, `resume` | `send_request` (`:359-414`) up to its publish, from there to its `await future`, and from there on |
| `publish`, `publisherEnds` | `publish_event` (`:418-450`), `publish_broadcast` (`:488-518`) |
| `replyEnds`              | the reply publish inside `_on_message` (`:318-333`), which takes no lock |

`asyncio.wait_for` differs between the supported Pythons in *when* it cancels the awaited
future: at once (3.12) or when the waiting task next runs (3.10, 3.11). `timeoutElapses` and
`taskCancelled` therefore only mark the call, `futureAbandoned` cancels its future, and
`resume` may follow in any order these versions allow. A correlation id is the number
`uuid4` draws; `issued` records the draws, which never repeat.
-/

namespace Atasks.Amqp

/-- One per activation of `send_request`; it also names the future that activation creates. -/
abbrev CallId := Nat

abbrev CorrelationId := Nat

/-- An exception out of a publish. `connectionError` is any that says the connection is gone,
`other` any further `Exception` (a channel that is not valid), with what `%r` prints and whether
it concerns just the one message (a name that is no string, an oversized key). -/
inductive Exc
  | publishError
  | cancelledError
  | messageBody
  | deliveryError
  | attributeError
  | connectionError (repr : String)
  | other (isLocal : Bool) (repr : String)
deriving DecidableEq, Repr

/-- How the await of a publish ends. -/
inductive PublishEnd
  | ok
  | raised (e : Exc)
deriving DecidableEq, Repr

/-- `publish_event` or `publish_broadcast`. -/
inductive PublishKind
  | event
  | broadcast
deriving DecidableEq, Repr

/-- What the transport raises to its callers. -/
inductive Error
  /-- `ConnectionLostError('AMQP connection lost while awaiting a response [%s]: %r')`. -/
  | connectionLost (correlationId : CorrelationId) (cause : Option Exc)
  /-- `ConnectionLostError('Failed to publish event %s: %r')`, the same for a broadcast. -/
  | publishFailed (kind : PublishKind) (name : String) (cause : Exc)
  | noRoute (name : String)
  | requestTimeout (name : String)
  /-- The `CancelledError` of a cancelled task. -/
  | cancelled
deriving DecidableEq, Repr

inductive Future
  | pending
  | result (body : Bytes)
  | exception (e : Error)
  | cancelled
deriving DecidableEq, Repr

def Future.done : Future → Bool
  | .pending => false
  | _ => true

inductive Outcome
  | returned (body : Bytes)
  | raised (e : Error)
deriving DecidableEq, Repr

/-- Where a `send_request` is suspended. `waiting` carries what has happened to its task or
timer since: the timeout has elapsed, the task has been cancelled. -/
inductive Phase
  | publishing
  | waiting (timedOut cancelled : Bool)
  | finished (o : Outcome)
deriving DecidableEq, Repr

structure Call where
  name : String
  content : Option Bytes
  timeout : Option Nat
  correlationId : CorrelationId
  future : Future
  phase : Phase
  /-- `cancel()` calls made against the task, as `Task.cancelling()` counts them. -/
  cancelling : Nat
  /-- How the publish await ended, once it has. -/
  published : Option PublishEnd
  /-- How often the future was completed: on a done one asyncio raises `InvalidStateError`. -/
  completions : Nat
deriving DecidableEq, Repr

/-- A `publish_event` or `publish_broadcast` task; `outcome` once it is over. -/
structure Publisher where
  kind : PublishKind
  name : String
  content : Option Bytes
  cancelling : Nat
  outcome : Option (Except Error Unit)

inductive Holder
  | call (k : CallId)
  | publisher (p : Nat)
deriving DecidableEq, Repr

structure State where
  /-- `Task.cancelling` exists: Python 3.11 or later. -/
  cancellingApi : Bool
  /-- `_connection.is_closed`. -/
  closed : Bool
  lock : Option Holder
  awaitingRequests : Dict CorrelationId CallId
  calls : CallId → Option Call
  publishers : Nat → Option Publisher
  issued : List CorrelationId

/-- A connected transport nobody has used yet. -/
def State.init (cancellingApi : Bool) : State :=
  ⟨cancellingApi, false, none, .empty, fun _ => none, fun _ => none, []⟩

def State.setCall (s : State) (k : CallId) (c : Call) : State :=
  { s with calls := Function.update s.calls k (some c) }

namespace Call

/-- A call suspended in its publish, its future just created and stored. -/
def sent (name : String) (content : Option Bytes) (timeout : Option Nat) (cid : CorrelationId) :
    Call :=
  ⟨name, content, timeout, cid, .pending, .publishing, 0, none, 0⟩

def finished (c : Call) : Bool :=
  match c.phase with
  | .finished _ => true
  | _ => false

def isWaiting (c : Call) : Bool :=
  match c.phase with
  | .waiting _ _ => true
  | _ => false

/-- `set_result`, `set_exception` or a `cancel` that takes effect. -/
def complete (c : Call) (f : Future) : Call :=
    { c with future := f, completions := c.completions + 1 }

/-- One round of the loop in `_fail_awaiting_requests`. -/
def fail (c : Call) (cid : CorrelationId) (exc : Option Exc) : Call :=
  if !c.future.done then c.complete (.exception (.connectionLost cid exc)) else c

/-- `future.cancel()`, which a done future ignores. -/
def cancelFuture (c : Call) : Call := if !c.future.done then c.complete .cancelled else c

end Call

/-- `_task_was_actually_cancelled` of the task in which `cancelling` is counted. -/
def taskWasActuallyCancelled (s : State) (cancelling : Nat) : Bool :=
  if s.cancellingApi then cancelling != 0 else true

/-- One round of `for correlation_id, future in pending.items()`. -/
def failOne (exc : Option Exc) (calls : CallId → Option Call) (p : CorrelationId × CallId) :
    CallId → Option Call :=
  Function.update calls p.2 ((calls p.2).map fun c => c.fail p.1 exc)

def failAwaitingRequests (s : State) (exc : Option Exc) : State :=
  if s.awaitingRequests.items.isEmpty then s
  else
    { s with
      awaitingRequests := .empty
      calls := s.awaitingRequests.items.foldl (failOne exc) s.calls }

/-- Which ends a publish of `content` can have: `aio_pika.Message` refuses a body that is not
bytes, and it is built once the exchange attribute has been read. -/
def PublishEnd.possible (content : Option Bytes) : PublishEnd → Bool
  | .ok => content.isSome
  | .raised .messageBody => content.isNone
  | .raised .attributeError => true
  | .raised _ => content.isSome

/-! ## `send_request` -/

/-- From the acquired lock to the publish. -/
def sendRequest (s : State) (k : CallId) (name : String) (content : Option Bytes)
    (timeout : Option Nat) (cid : CorrelationId) : Option State :=
  if s.lock = none ∧ s.calls k = none ∧ cid ∉ s.issued then
    some
      { s with
        lock := some (.call k)
        awaitingRequests := s.awaitingRequests.set cid k
        issued := cid :: s.issued
        calls := Function.update s.calls k (some (Call.sent name content timeout cid)) }
  else none

/-- The publish is over and the lock released; the call goes on to await its future. -/
def awaitFuture (s : State) (k : CallId) (o : PublishEnd) : State :=
  { s with
    lock := none
    calls := Function.update s.calls k
      ((s.calls k).map fun c => { c with published := some o, phase := .waiting false false }) }

/-- The call pops its own entry, releases the lock and raises. -/
def raiseFromPublish (s : State) (k : CallId) (c : Call) (o : PublishEnd) (e : Error) : State :=
  { s with
    lock := none
    awaitingRequests := s.awaitingRequests.pop c.correlationId
    calls := Function.update s.calls k (some
      { c with published := some o, phase := .finished (.raised e) }) }

/-- The `try`/`except` ladder around the publish. -/
def publishEnds (s : State) (k : CallId) (o : PublishEnd) : Option State :=
  match s.calls k with
  | none => none
  | some c =>
    if c.phase = .publishing ∧ o.possible c.content then
      match o with
      | .ok => some (awaitFuture s k o)
      | .raised .publishError => some (raiseFromPublish s k c o (.noRoute c.name))
      | .raised .cancelledError =>
        if taskWasActuallyCancelled s c.cancelling then some (raiseFromPublish s k c o .cancelled)
        else some (awaitFuture (failAwaitingRequests s (some .cancelledError)) k o)
      | .raised e => some (awaitFuture (failAwaitingRequests s (some e)) k o)
    else none

/-- How the await of the future ends: with the future's own outcome, or because the timeout
elapsed or the task was cancelled. -/
inductive Wake
  | future
  | timeout
  | cancel
deriving DecidableEq, Repr

/-- What the woken call returns or raises, when it can be woken that way. -/
def Call.wakeOutcome (c : Call) : Wake → Option Outcome
  | .future =>
    match c.future with
    | .result body => some (.returned body)
    | .exception e => some (.raised e)
    | _ => none
  | .timeout =>
    match c.phase with
    | .waiting true _ => some (.raised (.requestTimeout c.name))
    | _ => none
  | .cancel =>
    match c.phase with
    | .waiting _ true => some (.raised .cancelled)
    | _ => none

/-- The rest of `send_request`, its `finally` included. -/
def resume (s : State) (k : CallId) (w : Wake) : Option State :=
  match s.calls k with
  | none => none
  | some c =>
    if c.isWaiting ∧ c.future.done then
      (c.wakeOutcome w).map fun o =>
        { (s.setCall k { c with phase := .finished o }) with
          awaitingRequests := s.awaitingRequests.pop c.correlationId }
    else none

/-! ## The other writers -/

def onResponseMessage (s : State) (cid : Option CorrelationId) (body : Bytes) : State :=
  match cid with
  | none => s
  | some cid =>
    match s.awaitingRequests.get? cid with
    | none => s
    | some k =>
      { s with
        awaitingRequests := s.awaitingRequests.pop cid
        calls := Function.update s.calls k
          ((s.calls k).map fun c => if !c.future.done then c.complete (.result body) else c) }

def onConnectionClosed (s : State) (exc : Option Exc) : State :=
  { (failAwaitingRequests s exc) with closed := true }

def timeoutElapses (s : State) (k : CallId) : Option State :=
  match s.calls k with
  | none => none
  | some c =>
    match c.phase with
    | .waiting _ cancelled =>
      if c.timeout.isSome then some (s.setCall k { c with phase := .waiting true cancelled })
        else none
    | _ => none

/-- `task.cancel()` on the task running the call. -/
def taskCancelled (s : State) (k : CallId) : Option State :=
  match s.calls k with
  | none => none
  | some c =>
    match c.phase with
    | .publishing => some (s.setCall k { c with cancelling := c.cancelling + 1 })
    | .waiting timedOut _ =>
      some (s.setCall k { c with cancelling := c.cancelling + 1, phase := .waiting timedOut true })
    | .finished _ => none

/-- `wait_for`, or the cancelled task itself, cancels the future it was waiting for. -/
def futureAbandoned (s : State) (k : CallId) : Option State :=
  match s.calls k with
  | none => none
  | some c =>
    match c.phase with
    | .waiting timedOut cancelled =>
      if timedOut || cancelled then some (s.setCall k c.cancelFuture) else none
    | _ => none

def publish (s : State) (p : Nat) (kind : PublishKind) (name : String) (content : Option Bytes) :
    Option State :=
  match s.publishers p with
  | some _ => none
  | none =>
    if s.lock = none then
      some
        { s with
          lock := some (.publisher p)
          publishers := Function.update s.publishers p (some ⟨kind, name, content, 0, none⟩) }
    else none

def publisherCancelled (s : State) (p : Nat) : Option State :=
  match s.publishers p with
  | none => none
  | some q =>
    some { s with publishers := Function.update s.publishers p (some { q with
      cancelling := q.cancelling + 1 }) }

/-- The publisher releases the lock and is over. -/
def publisherLeaves (s : State) (p : Nat) (q : Publisher) (r : Except Error Unit) : State :=
  { s with lock := none, publishers := Function.update s.publishers p (some { q with
    outcome := some r }) }

/-- The ladder of `publish_event` and `publish_broadcast`: an unroutable message is dropped. -/
def publisherEnds (s : State) (p : Nat) (o : PublishEnd) : Option State :=
  match s.publishers p with
  | none => none
  | some q =>
    if q.outcome.isNone ∧ o.possible q.content then
      match o with
      | .ok => some (publisherLeaves s p q (.ok ()))
      | .raised .publishError => some (publisherLeaves s p q (.ok ()))
      | .raised .cancelledError =>
        if taskWasActuallyCancelled s q.cancelling then some (publisherLeaves s p q
          (.error .cancelled))
        else
          some (publisherLeaves (failAwaitingRequests s (some .cancelledError)) p q
            (.error (.publishFailed q.kind q.name .cancelledError)))
      | .raised e =>
        some (publisherLeaves (failAwaitingRequests s (some e)) p q
          (.error (.publishFailed q.kind q.name e)))
    else none

/-- A `CancelledError` is no `Exception`: it leaves `_on_message` with nothing failed. -/
def replyEnds (s : State) (content : Option Bytes) (o : PublishEnd) : Option State :=
  if o.possible content then
    match o with
    | .ok => some s
    | .raised .cancelledError => some s
    | .raised e => some (failAwaitingRequests s (some e))
  else none

inductive Event
  | sendRequest (k : CallId) (name : String) (content : Option Bytes) (timeout : Option Nat)
    (cid : CorrelationId)
  | publishEnds (k : CallId) (o : PublishEnd)
  | resume (k : CallId) (w : Wake)
  | response (cid : Option CorrelationId) (body : Bytes)
  | connectionClosed (exc : Option Exc)
  | reconnected
  | timeoutElapses (k : CallId)
  | taskCancelled (k : CallId)
  | futureAbandoned (k : CallId)
  | publish (p : Nat) (kind : PublishKind) (name : String) (content : Option Bytes)
  | publisherCancelled (p : Nat)
  | publisherEnds (p : Nat) (o : PublishEnd)
  | replyEnds (content : Option Bytes) (o : PublishEnd)
deriving DecidableEq, Repr

def step (s : State) : Event → Option State
  | .sendRequest k name content timeout cid => sendRequest s k name content timeout cid
  | .publishEnds k o => publishEnds s k o
  | .resume k w => resume s k w
  | .response cid body => some (onResponseMessage s cid body)
  | .connectionClosed exc => some (onConnectionClosed s exc)
  | .reconnected => some { s with closed := false }
  | .timeoutElapses k => timeoutElapses s k
  | .taskCancelled k => taskCancelled s k
  | .futureAbandoned k => futureAbandoned s k
  | .publish p kind name content => publish s p kind name content
  | .publisherCancelled p => publisherCancelled s p
  | .publisherEnds p o => publisherEnds s p o
  | .replyEnds content o => replyEnds s content o

/-- The exception with which the event calls `_fail_awaiting_requests`, if it does. -/
def Event.failure (s : State) : Event → Option (Option Exc)
  | .connectionClosed exc => some exc
  | .publishEnds k (.raised e) =>
    match s.calls k with
    | some c =>
      if e = .publishError ∨ (e = .cancelledError ∧ taskWasActuallyCancelled s c.cancelling) then
        none else some (some e)
    | none => none
  | .publisherEnds p (.raised e) =>
    match s.publishers p with
    | some q =>
      if e = .publishError ∨ (e = .cancelledError ∧ taskWasActuallyCancelled s q.cancelling) then
        none else some (some e)
    | none => none
  | .replyEnds _ (.raised e) => if e = .cancelledError then none else some (some e)
  | _ => none

end Atasks.Amqp
