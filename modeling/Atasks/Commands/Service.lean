import Atasks.Commands.Spec
import Atasks.Lib.Attempt
/-!
# `aiomain`

`atasks/commands/service.py:288-418`: what the service acquires, what it runs and what it
releases, with everything that can raise raising or not as the `World` says. The log of a run
holds the calls that acquire or release something, and the transports constructed, since
`get_transport` returns the one constructed last in a namespace.

| here | there |
| --- | --- |
| `connectNamespaces` | the first loop (`:311-343`) up to its `return False` |
| `getTransport`      | `atasks.transport.base.get_transport` |
| `disconnectConnectedTransports` | `_disconnect_connected_transports` (`:288-300`) |
| `importModules`     | the loop over `options['scenario']` (`:366-377`) |
| `activateServers`   | `:379-380` |
| `serve`             | the inner `try` (`:381-407`) with its `finally` `stopServing` |
| `release`           | the outer `finally` (`:408-413`) |

Codecs, router options and the logger acquire nothing that is released here. The self-watchdog
is a daemon thread whose `start` and `stop` do not raise.
-/

namespace Atasks.Commands

/-- A transport: the one `aiomain` constructs for a namespace, or one of a scenario module. -/
inductive Object
  | own (name : String)
  | scenario (id : Nat)
deriving DecidableEq, Repr

/-- A scenario module constructs a transport in a namespace. -/
structure Constructed where
  namespaceName : String
  id : Nat
deriving DecidableEq, Repr

inductive ConnectEnd
  | ok
  /-- A `CancelledError` is no `Exception`. -/
  | raised (isException : Bool)
deriving DecidableEq, Repr

/-- `_start_health_http` and the runner's `cleanup`: whether they return. -/
structure Health where
  starts : Bool
  stops : Bool
deriving DecidableEq, Repr

/-- `_start_systemd_watchdog` returns; the heartbeat task has ended by raising when it is
awaited. -/
structure Systemd where
  starts : Bool
  fails : Bool
deriving DecidableEq, Repr

/-- What a module does when it is imported; `imports` if that does not raise. -/
structure Module where
  constructs : List Constructed
  imports : Bool
  hasAiomain : Bool
deriving DecidableEq, Repr

/-- What goes on during an await: transports may be constructed, and it may raise. -/
structure Running where
  constructs : List Constructed
  raises : Bool
deriving DecidableEq, Repr

/-- The options of a run, and how every call of it ends. Scenarios leave the service's own
transports connected. -/
structure World where
  namespaces : List NamespaceSpec
  distinct : (namespaces.map NamespaceSpec.name).Nodup
  connect : String → ConnectEnd
  health : Option Health
  selfWatchdog : Bool
  modules : List Module
  activates : String → Bool
  systemd : Option Systemd
  /-- The gathered scenario coroutines. -/
  scenario : Running
  /-- Listening until a signal. -/
  listening : Running
  deactivates : String → Bool
  /-- `is_connected()` when it comes to disconnecting. -/
  isConnected : Object → Bool
  disconnects : Object → Bool

inductive Event
  | constructed (name : String) (o : Object)
  | connected (name : String)
  | activated (name : String)
  | deactivated (name : String)
  | disconnected (o : Object)
deriving DecidableEq, Repr

/-- The transport an event puts into a namespace. -/
def Event.puts (name : String) : Event → Option Object
  | .constructed name' o => if name' = name then some o else none
  | _ => none

def getTransport (log : List Event) (name : String) : Option Object :=
    (log.filterMap (Event.puts name)).getLast?

namespace World

variable (w : World)

open Attempt

/-- `server_namespaces`, once all namespaces are connected. -/
def servers : List NamespaceSpec := w.namespaces.filter NamespaceSpec.serves

/-! ## Connecting -/

def connectNamespaces : List NamespaceSpec → List Event → List Event × ConnectEnd
  | [], log => (log, .ok)
  | ns :: rest, log =>
    let log := log ++ [.constructed ns.name (.own ns.name)]
    match w.connect ns.name with
    | .ok => connectNamespaces rest (log ++ [.connected ns.name])
    | end' => (log, end')

def disconnectConnected (ns : NamespaceSpec) : Attempt Event := fun log =>
  match getTransport log ns.name with
  | none => skip log
  | some o =>
    if w.isConnected o then seq (emit [.disconnected o]) (check (w.disconnects o)) log else skip log

def disconnectConnectedTransports : Attempt Event := each w.disconnectConnected w.namespaces

/-! ## Running -/

def startHealth : Attempt Event :=
  match w.health with
  | none => skip
  | some h => check h.starts

def construct (cs : List Constructed) : Attempt Event :=
  emit (cs.map fun c => .constructed c.namespaceName (.scenario c.id))

def importModule (m : Module) : Attempt Event := seq (construct m.constructs) (check m.imports)

def importModules : Attempt Event := each importModule w.modules

def activate (ns : NamespaceSpec) : Attempt Event := seq (check (w.activates ns.name))
    (emit [.activated ns.name])

def activateServers : Attempt Event := each w.activate w.servers

def startSystemd : Attempt Event :=
  match w.systemd with
  | none => skip
  | some d => check d.starts

def run (r : Running) : Attempt Event := seq (construct r.constructs) (check (!r.raises))

def gather : Attempt Event := if w.modules.any Module.hasAiomain then run w.scenario else skip

def shouldListen : Bool :=
  w.namespaces.any (fun ns => ns.mode = .server) || w.health.isSome || w.selfWatchdog ||
    w.systemd.isSome

def listen : Attempt Event := if w.shouldListen then run w.listening else skip

/-! ## Stopping -/

/-- `systemd_watchdog_task` is cancelled and awaited if it was created; of what the await
raises only a `CancelledError` is caught. -/
def stopSystemd : Attempt Event :=
  match w.systemd with
  | none => skip
  | some d => if d.starts then check (!d.fails) else skip

def deactivate (ns : NamespaceSpec) : Attempt Event := seq (emit [.deactivated ns.name])
    (check (w.deactivates ns.name))

def stopServing : Attempt Event := seq w.stopSystemd (each w.deactivate w.servers)

def serve : Attempt Event := ensure (seq w.startSystemd (seq w.gather w.listen)) w.stopServing

/-- `health_runner` is not `None` once the endpoint has started. -/
def stopHealth : Attempt Event :=
  match w.health with
  | none => skip
  | some h => if h.starts then check h.stops else skip

def release : Attempt Event := seq w.stopHealth w.disconnectConnectedTransports

def runConnected : Attempt Event :=
  ensure (seq w.startHealth (seq w.importModules (seq w.activateServers w.serve))) w.release

end World

inductive Exit
  | returned
  | returnedFalse
  | raised
deriving DecidableEq, Repr

/-- The log of a run and how it exits. -/
def aiomain (w : World) : List Event × Exit :=
  match w.connectNamespaces w.namespaces [] with
  | (log, .ok) =>
    let r := w.runConnected log
    (r.1, if r.2 then .returned else .raised)
  | (log, .raised true) =>
    let r := w.disconnectConnectedTransports log
    (r.1, if r.2 then .returnedFalse else .raised)
  | (log, .raised false) => (log, .raised)

end Atasks.Commands
