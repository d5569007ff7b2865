import Atasks.Basic
import Atasks.Lib.Dict
/-!
# The callbacks of a `LoopbackTransport`

`atasks/transport/base.py:285-403`. A request or event callback replaces the one registered
before under its name, broadcast callbacks accumulate. None of these coroutines ever
suspends or raises.
-/

namespace Atasks

structure Loopback (γ : Type) where
  requestCallbacks : Dict String γ
  eventCallbacks : Dict String γ
  broadcastCallbacks : Dict String (List γ)

namespace Loopback

variable {γ : Type}

def empty : Loopback γ := ⟨.empty, .empty, .empty⟩

/-- `_register_request_callback`, `_register_event_callback`, `_register_broadcast_callback`. -/
def register (l : Loopback γ) (kind : Kind) (name : String) (callback : γ) : Loopback γ :=
  match kind with
  | .rpc => { l with requestCallbacks := l.requestCallbacks.set name callback }
  | .queue => { l with eventCallbacks := l.eventCallbacks.set name callback }
  | .broadcast =>
    { l with
      broadcastCallbacks := l.broadcastCallbacks.set name
        ((l.broadcastCallbacks.get? name).getD [] ++ [callback]) }

/-- `_unregister_request_callback`, `_unregister_event_callback`, `_unregister_broadcast_callback`.
-/
def unregister (l : Loopback γ) (kind : Kind) (name : String) : Loopback γ :=
  match kind with
  | .rpc => { l with requestCallbacks := l.requestCallbacks.pop name }
  | .queue => { l with eventCallbacks := l.eventCallbacks.pop name }
  | .broadcast =>
    match l.broadcastCallbacks.get? name with
    | none => l
    | some _ => { l with broadcastCallbacks := l.broadcastCallbacks.set name [] }

/-- Who gets a message for `name`. -/
def callbacks (l : Loopback γ) (kind : Kind) (name : String) : List γ :=
  match kind with
  | .rpc => (l.requestCallbacks.get? name).toList
  | .queue => (l.eventCallbacks.get? name).toList
  | .broadcast => (l.broadcastCallbacks.get? name).getD []

@[simp] theorem callbacks_empty (kind : Kind) (name : String) :
    (empty : Loopback γ).callbacks kind name = [] := by
  cases kind <;> rfl

theorem callbacks_register (l : Loopback γ) (kind : Kind) {name : String} (callback : γ)
    (h : l.callbacks kind name = []) (kind' : Kind) (name' : String) :
    (l.register kind name callback).callbacks kind' name' =
      if kind' = kind ∧ name' = name then [callback] else l.callbacks kind' name' := by
  by_cases hn : name' = name
  · subst hn
    cases kind <;> cases kind' <;> simp_all [register, callbacks]
  · cases kind <;> cases kind' <;> simp [register, callbacks, Dict.get?_set, hn]

theorem callbacks_unregister (l : Loopback γ) (kind : Kind) (name : String) (kind' : Kind)
    (name' : String) :
    (l.unregister kind name).callbacks kind' name' =
      if kind' = kind ∧ name' = name then [] else l.callbacks kind' name' := by
  cases kind with
  | rpc =>
    cases kind' <;> by_cases hn : name' = name <;> simp [unregister, callbacks, Dict.get?_pop, hn]
  | queue =>
    cases kind' <;> by_cases hn : name' = name <;> simp [unregister, callbacks, Dict.get?_pop, hn]
  | broadcast =>
    simp only [unregister]
    split
    · rename_i hnone
      cases kind' <;> by_cases hn : name' = name <;> simp [callbacks, hn, hnone]
    · cases kind' <;> by_cases hn : name' = name <;> simp [callbacks, Dict.get?_set, hn]

end Loopback

end Atasks
