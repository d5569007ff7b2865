import Atasks.Basic
import Atasks.Lib.Dict
/-!
# The consumers of an `AMQPTransport`

`_register_request_callback`, `_unregister_request_callback` and their event and broadcast
counterparts (`atasks/transport/backends/amqp.py:288-357, 452-484, 520-550`). They differ in
what they declare and bind; which consumers live at the broker and what the transport
remembers of them is the same for all three.

| here | there |
| --- | --- |
| `Bookkeeping.queues`    | `_request_queues`, `_event_queues`, `_broadcast_queues` |
| `Bookkeeping.consumers` | `_request_consumers`, `_event_consumers`, `_broadcast_consumers` |
| `Consumers.live`        | the consumers at the broker, with the callback each one runs |

A registration is named by a number, which stands for its queue object and its consumer tag
alike. The transport's lock is held throughout, so a call takes effect at one point: when
its broker round trip ends.
-/

namespace Atasks.Amqp

abbrev Tag := Nat

structure Bookkeeping where
  queues : Kind → Dict String Tag
  consumers : Kind → Dict String Tag

namespace Bookkeeping

def empty : Bookkeeping := ⟨fun _ => .empty, fun _ => .empty⟩

def set (b : Bookkeeping) (kind : Kind) (name : String) (tag : Tag) : Bookkeeping :=
  ⟨Function.update b.queues kind ((b.queues kind).set name tag),
    Function.update b.consumers kind ((b.consumers kind).set name tag)⟩

def pop (b : Bookkeeping) (kind : Kind) (name : String) : Bookkeeping :=
  ⟨Function.update b.queues kind ((b.queues kind).pop name),
    Function.update b.consumers kind ((b.consumers kind).pop name)⟩

/-- What both dictionaries hold under `name`. -/
def entry (b : Bookkeeping) (kind : Kind) (name : String) : Option Tag × Option Tag :=
  ((b.queues kind).get? name, (b.consumers kind).get? name)

@[simp] theorem entry_empty (kind : Kind) (name : String) : empty.entry kind name = (none, none) :=
    rfl

theorem entry_set (b : Bookkeeping) (kind : Kind) (name : String) (tag : Tag) (kind' : Kind)
    (name' : String) :
    (b.set kind name tag).entry kind' name' =
      if kind' = kind ∧ name' = name then (some tag, some tag) else b.entry kind' name' := by
  by_cases hk : kind' = kind
  · subst hk
    by_cases hn : name' = name <;> simp [entry, set, Dict.get?_set, hn]
  · simp [entry, set, hk]

theorem entry_pop (b : Bookkeeping) (kind : Kind) (name : String) (kind' : Kind) (name' : String) :
    (b.pop kind name).entry kind' name' = if kind' = kind ∧ name' = name then (none, none)
    else b.entry kind' name' := by
  by_cases hk : kind' = kind
  · subst hk
    by_cases hn : name' = name <;> simp [entry, pop, Dict.get?_pop, hn]
  · simp [entry, pop, hk]

end Bookkeeping

/-- A consumer at the broker. -/
structure Subscriber (γ : Type) where
  tag : Tag
  kind : Kind
  name : String
  callback : γ

structure Consumers (γ : Type) where
  /-- `_connection` is there and open. -/
  connected : Bool
  bookkeeping : Bookkeeping
  live : List (Subscriber γ)
  nextTag : Tag

namespace Consumers

variable {γ : Type}

/-- A connected transport nothing has been registered on. -/
def empty : Consumers γ := ⟨true, .empty, [], 0⟩

/-- `queue.consume(_on_message)` as the broker sees it. -/
def consume (a : Consumers γ) (kind : Kind) (name : String) (callback : γ) : Consumers γ :=
  { a with live := ⟨a.nextTag, kind, name, callback⟩ :: a.live, nextTag := a.nextTag + 1 }

/-- `queue.cancel(tag)` as the broker sees it. -/
def cancel (a : Consumers γ) (tag : Tag) : Consumers γ :=
    { a with live := a.live.filter fun c => c.tag != tag }

/-- A registration that succeeds. -/
def register (a : Consumers γ) (kind : Kind) (name : String) (callback : γ) : Consumers γ :=
  { a.consume kind name callback with bookkeeping := a.bookkeeping.set kind name a.nextTag }

/-- An unregistration that succeeds: nothing is cancelled when there is no entry, or no
connection to cancel on. -/
def unregister (a : Consumers γ) (kind : Kind) (name : String) : Consumers γ :=
  let a' := { a with bookkeeping := a.bookkeeping.pop kind name }
  match a.bookkeeping.entry kind name with
  | (some _, some tag) => if a.connected then a'.cancel tag else a'
  | _ => a'

/-- Where a call raises: before the round trip that creates or cancels the consumer (at the
lock, the declaration or the bind), or out of it. Then the broker has the consumer or not. -/
inductive Failure
  | early
  | late (live : Bool)
deriving DecidableEq, Repr

/-- The broker is left with a consumer the transport has no entry for. -/
def Failure.leaves : Failure → Bool
  | .early => false
  | .late live => live

/-- A registration that raises: the consumer it may have created is not remembered. -/
def registerRaises (a : Consumers γ) (kind : Kind) (name : String) (callback : γ) :
    Failure → Consumers γ
  | .early | .late false => a
  | .late true => a.consume kind name callback

/-- An unregistration that raises out of `queue.cancel` has dropped its entry before. -/
def unregisterRaises (a : Consumers γ) (kind : Kind) (name : String) : Failure → Consumers γ
  | .early => a
  | .late live =>
    let a' := { a with bookkeeping := a.bookkeeping.pop kind name }
    match a.bookkeeping.entry kind name with
    | (some _, some tag) => if live then a' else a'.cancel tag
    | _ => a'

/-- `connect` (`:143-208`) as far as consumers go: none of an earlier connection comes back. -/
def connect (a : Consumers γ) : Consumers γ :=
    if a.connected then a else { a with connected := true }

/-- `disconnect` (`:119-141`): the consumers end with the channel and all six dictionaries are
cleared. -/
def disconnect (a : Consumers γ) : Consumers γ :=
  if a.connected then { a with connected := false, bookkeeping := .empty, live := [] } else a

/-- Who gets a message for `name`. -/
def callbacks (a : Consumers γ) (kind : Kind) (name : String) : List γ :=
  (a.live.filter fun c => c.kind = kind && c.name = name).map Subscriber.callback

end Consumers

end Atasks.Amqp
