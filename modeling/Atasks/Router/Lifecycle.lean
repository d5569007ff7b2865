import Atasks.Lib.Machine
import Atasks.Registry
import Atasks.Router.Subscriptions
/-!
# `Router.activate` and `deactivate`

`atasks/router.py:108-220, 458-557`. One router, the transports it uses, any number of tasks
each running one `activate` or `deactivate`. A task is suspended in a call to a transport; a
step ends that call and runs the task up to the next one, reading `self.server` and
`self._activated` afresh wherever the source does. Tasks may register atasks at any time, and
messages may come in on any subscription.

| here | there |
| --- | --- |
| `registerTask`    | `register_atask`, `register_atask_queue`, `register_atask_broadcast` up to the stub |
| `activateNames`   | the three loops of `activate` (`:162-170`), over the names still to come |
| `enter`           | `activate` from `self.server = server` on (`:152`) |
| `deactivateLoop`  | the three loops of `deactivate` (`:183-188`): the names still to come in the current one, and the kinds after it |
| `leave`           | `deactivate` from its last two assignments on, back to its caller |
-/

namespace Atasks.Router

open Amqp.Consumers (Failure)

abbrev TransportId := Nat

abbrev TaskId := Nat

inductive Op
  | activate (server : Option TransportId)
  | deactivate
deriving DecidableEq, Repr

inductive Error
  /-- `None` has no attribute `_register_request_callback`. -/
  | attributeError
  | transport (f : Failure)
deriving DecidableEq, Repr

inductive Ending
  | returned
  | raised (e : Error)
deriving DecidableEq, Repr

/-- Where a task is suspended: in a call to transport `t` for one name. -/
inductive Task
  | unregistering (t : TransportId) (kind : Kind) (name : String) (rest : List String)
    (kinds : List Kind) (op : Op)
  | registering (t : TransportId) (kind : Kind) (name : String) (rest : Names)
    (names : Kind → List String)
  | finished (o : Ending)

structure State (α : Type) where
  registries : Kind → Manager α
  server : Option TransportId
  activated : Kind → List String
  transports : TransportId → Transport
  tasks : TaskId → Option Task
  /-- Messages handed to a callback that has not looked its name up yet. -/
  received : List Callback
  /-- Some lookup has raised `JobNotFound`. -/
  jobNotFound : Bool

inductive Rejection
  | lateRegistration (name : String)
  | registeringTwice (e : RegisteringTwice)
deriving DecidableEq, Repr

namespace State

variable {α : Type}

/-- A new router, and transports nobody has used. -/
def init (transports : TransportId → Transport) : State α :=
  ⟨fun _ => .empty "default", none, fun _ => [], transports, fun _ => none, [], false⟩

def setTask (s : State α) (k : TaskId) (task : Task) : State α :=
  { s with tasks := Function.update s.tasks k (some task) }

def setTransport (s : State α) (t : TransportId) (tr : Transport) : State α :=
  { s with transports := Function.update s.transports t tr }

/-- The names registered of each kind. -/
def names (s : State α) (kind : Kind) : List String := (s.registries kind).names

end State

variable {α : Type}

/-- `register_atask` and its siblings: each has the registry of its kind. -/
def registerTask (kind : Kind) (name : String) (item : α) : EStateM Rejection (State α) Unit := do
  match (← get).server with
  | some _ => throw (.lateRegistration name)
  | none =>
    match ((← get).registries kind).register name item with
    | .error e => throw (.registeringTwice e)
    | .ok m => modify fun s => { s with registries := Function.update s.registries kind m }

def registerAtask (name : String) (item : α) : EStateM Rejection (State α) Unit :=
    registerTask .rpc name item

def registerAtaskQueue (name : String) (item : α) : EStateM Rejection (State α) Unit :=
    registerTask .queue name item

def registerAtaskBroadcast (name : String) (item : α) : EStateM Rejection (State α) Unit :=
  registerTask .broadcast name item

/-- Kind by kind, in the order of the loops. -/
def todo (names : Kind → List String) : Names :=
  [Kind.rpc, .queue, .broadcast].flatMap fun kind => (names kind).map fun name => (kind, name)

/-! ## `activate` -/

def activateNames (s : State α) (k : TaskId) (names : Kind → List String) : Names → State α
  | [] => { s with activated := names }.setTask k (.finished .returned)
  | (kind, name) :: rest =>
    match s.server with
    | none => s.setTask k (.finished (.raised .attributeError))
    | some t => s.setTask k (.registering t kind name rest names)

def enter (s : State α) (k : TaskId) (server : Option TransportId) : State α :=
  match server with
  | none => { s with server := none }.setTask k (.finished .returned)
  | some t => activateNames { s with server := some t } k s.names (todo s.names)

/-! ## `deactivate` -/

def leave (s : State α) (k : TaskId) (op : Op) : State α :=
  match op with
  | .deactivate =>
    { s with activated := fun _ => [], server := none }.setTask k (.finished .returned)
  | .activate server => enter { s with activated := fun _ => [], server := none } k server

def deactivateLoop (s : State α) (k : TaskId) (op : Op) : Kind → List String → List Kind → State α
  | kind, name :: rest, kinds =>
    match s.server with
    | none => s.setTask k (.finished (.raised .attributeError))
    | some t => s.setTask k (.unregistering t kind name rest kinds op)
  | _, [], kind :: kinds => deactivateLoop s k op kind (s.activated kind) kinds
  | _, [], [] => leave s k op

def deactivateStart (s : State α) (k : TaskId) (op : Op) : State α :=
  deactivateLoop s k op .rpc (s.activated .rpc) [.queue, .broadcast]

/-! ## Steps -/

/-- The call returns at once, having changed nothing. -/
def Op.isNoop (s : State α) : Op → Bool
  | .activate server => s.server = server
  | .deactivate => s.server.isNone

/-- A task starts: up to its first call to a transport. -/
def start (s : State α) (k : TaskId) (op : Op) : Option (State α) :=
  match s.tasks k with
  | some _ => none
  | none =>
    if op.isNoop s then some (s.setTask k (.finished .returned))
    else
      match op, s.server with
      | .activate server, none => some (enter s k server)
      | _, _ => some (deactivateStart s k op)

/-- The transport call of task `k` succeeds. -/
def completes (s : State α) (k : TaskId) : Option (State α) :=
  match s.tasks k with
  | some (.unregistering t kind name rest kinds op) =>
    some (deactivateLoop (s.setTransport t ((s.transports t).unregister kind name)) k op
      kind rest kinds)
  | some (.registering t kind name rest names) =>
    some (activateNames (s.setTransport t ((s.transports t).register kind name)) k names rest)
  | _ => none

/-- The transport call of task `k` raises, and so does the task. -/
def raises (s : State α) (k : TaskId) (f : Failure) : Option (State α) :=
  match s.tasks k with
  | some (.unregistering t kind name _ _ _) =>
    ((s.transports t).unregisterRaises kind name f).map fun tr =>
      (s.setTransport t tr).setTask k (.finished (.raised (.transport f)))
  | some (.registering t kind name _ _) =>
    ((s.transports t).registerRaises kind name f).map fun tr =>
      (s.setTransport t tr).setTask k (.finished (.raised (.transport f)))
  | _ => none

/-- A message for `name` comes in on transport `t`: its `i`-th callback gets it. -/
def delivered (s : State α) (t : TransportId) (kind : Kind) (name : String) (i : Nat) :
    Option (State α) :=
  match ((s.transports t).callbacks kind name)[i]? with
  | none => none
  | some callback => some { s with received := callback :: s.received }

/-- The `i`-th callback has decoded its message and looks its name up. -/
def looksUp (s : State α) (i : Nat) : Option (State α) :=
  match s.received[i]? with
  | none => none
  | some callback =>
    some
      { s with
        received := s.received.eraseIdx i
        jobNotFound := s.jobNotFound || ((s.registries callback.kind).get callback.name).isNone }

inductive Event (α : Type)
  | register (kind : Kind) (name : String) (item : α)
  | start (k : TaskId) (op : Op)
  | completes (k : TaskId)
  | raises (k : TaskId) (f : Failure)
  | delivered (t : TransportId) (kind : Kind) (name : String) (i : Nat)
  | looksUp (i : Nat)

/-- The state a registration leaves, whether it succeeds or raises. -/
def after : EStateM.Result Rejection (State α) Unit → State α
  | .ok _ s => s
  | .error _ s => s

def step (s : State α) : Event α → Option (State α)
  | .register kind name item => some (after (registerTask kind name item s))
  | .start k op => start s k op
  | .completes k => completes s k
  | .raises k f => raises s k f
  | .delivered t kind name i => delivered s t kind name i
  | .looksUp i => looksUp s i

end Atasks.Router
