import Atasks.Lib.Dict
/-!
# Registries

`atasks/registry.py:54-104`, as `Router.__init__` builds its three registries, with
`unite=False` (`atasks/router.py:116-118`): a name is registered once and never given up,
and `get` of an unknown name makes no entry.
-/

namespace Atasks

/-- `RegisteringTwice`, with its message. -/
structure RegisteringTwice where
  message : String
deriving DecidableEq, Repr

/-- A `Manager` of items `α`. -/
structure Manager (α : Type) where
  name : String
  registry : Dict String α

namespace Manager

variable {α : Type}

def empty (name : String) : Manager α := ⟨name, .empty⟩

def register (m : Manager α) (name : String) (item : α) : Except RegisteringTwice (Manager α) :=
  match m.registry.get? name with
  | some _ => .error ⟨"Registering twice in " ++ m.name ++ ": " ++ name⟩
  | none => .ok { m with registry := m.registry.set name item }

/-- Names of all registered items, in registration order. -/
def names (m : Manager α) : List String := m.registry.keys

def get (m : Manager α) (name : String) : Option α := m.registry.get? name

@[simp] theorem names_empty (name : String) : (empty name : Manager α).names = [] := rfl

theorem nodup_names (m : Manager α) : m.names.Nodup := m.registry.nodup_keys

theorem mem_names_iff {m : Manager α} {name : String} :
    name ∈ m.names ↔ (m.get name).isSome := m.registry.mem_keys_iff name

/-- Registering adds a name and takes none away. -/
theorem mem_names_register {m m' : Manager α} {name : String} {item : α}
    (h : m.register name item = .ok m') {name' : String} :
    name' ∈ m'.names ↔ name' = name ∨ name' ∈ m.names := by
  unfold register at h
  split at h
  · cases h
  · cases h
    simp only [mem_names_iff, get, Dict.get?_set]
    by_cases hn : name' = name <;> simp [hn]

end Manager

end Atasks
