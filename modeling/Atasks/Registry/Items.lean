import Mathlib.Data.List.Induction
import Mathlib.Data.List.TakeWhile
import Atasks.Lib.History
import Atasks.Registry
/-!
# Registry items

`atasks/registry.py:18-104` with its objects: an item is shared by all who got it, and
registering under a name that is there updates the item in place (`unite=True`, which is how
`namespaces` is built) or raises (`unite=False`, a router's three registries). So what holds of
a run is about the items handed out: `united_item` and `first_item` say for each of the two
modes who still shares an item after any further calls, and what it shows.

| here | there |
| --- | --- |
| `Ref`, `Manager.items` | the item objects, by the order in which they were made |
| `RegistryItem.update`  | `self.__dict__.update(other.__dict__)` |
| `Manager.read`         | `getattr(item, attr, None)` |
| `Manager.call`         | a call of a method that changes the registry; one that raises changes nothing |

`Registry.Process` has what this makes of a process, where `Router.Namespaces` and `Registry` read
items off without the objects.
-/

namespace Atasks.Registry

variable {ν : Type}

/-- A `RegistryItem`, its `__dict__`. -/
structure RegistryItem (ν : Type) where
  attributes : Dict String ν

/-- `self.__dict__.update(other.__dict__)`. -/
def RegistryItem.update (item other : RegistryItem ν) : RegistryItem ν :=
  ⟨other.attributes.items.foldl (fun d p => d.set p.1 p.2) item.attributes⟩

abbrev Ref := ℕ

structure KeyError where
  key : String
deriving DecidableEq, Repr

structure Manager (ν : Type) where
  name : String
  unite : Bool
  registry : Dict String Ref
  /-- All items made so far. -/
  items : List (RegistryItem ν)
  made : ∀ name r, registry.get? name = some r → r < items.length
  /-- No two names share an item. -/
  apart : ∀ name name' r, registry.get? name = some r → registry.get? name' = some r → name = name'

namespace Manager

def init (name : String) (unite : Bool) : Manager ν := ⟨name, unite, .empty, [], by simp, by simp⟩

variable (m : Manager ν)

/-- `old.update(item)`. -/
def updateItem (r : Ref) (item : RegistryItem ν) : Manager ν where
  __ := m
  items := m.items.modify r fun old => old.update item
  made := by simpa using m.made

/-- `self._registry[name] = item`, for a name that is not there. -/
def insert (name : String) (item : RegistryItem ν) : Manager ν where
  name := m.name
  unite := m.unite
  registry := m.registry.set name m.items.length
  items := m.items ++ [item]
  made := by
    intro name' r h
    rw [List.length_append, List.length_singleton]
    rw [Dict.get?_set] at h
    split at h
    · cases h
      exact Nat.lt_succ_self _
    · exact Nat.lt_succ_of_lt (m.made name' r h)
  apart := by
    intro n n' r h h'
    rw [Dict.get?_set] at h h'
    split at h <;> split at h'
    · rename_i hn hn'
      exact hn.trans hn'.symm
    · cases h
      exact absurd (m.made n' _ h') (Nat.lt_irrefl _)
    · cases h'
      exact absurd (m.made n _ h) (Nat.lt_irrefl _)
    · exact m.apart n n' r h h'

/-- `del self._registry[name]`. -/
def delete (name : String) : Manager ν where
  name := m.name
  unite := m.unite
  registry := m.registry.pop name
  items := m.items
  made := by
    intro name' r h
    rw [Dict.get?_pop] at h
    split at h
    · cases h
    · exact m.made name' r h
  apart := by
    intro n n' r h h'
    rw [Dict.get?_pop] at h h'
    split at h
    · cases h
    · split at h'
      · cases h'
      · exact m.apart n n' r h h'

def register (name : String) (options : Dict String ν) : Except RegisteringTwice (Manager ν) :=
  let item : RegistryItem ν := ⟨options⟩
  match m.registry.get? name with
  | some old =>
    if m.unite then .ok (m.updateItem old item) else .error
      ⟨"Registering twice in " ++ m.name ++ ": " ++ name⟩
  | none => .ok (m.insert name item)

/-- Names of all currently registered items, in registration order. -/
def names : List String := m.registry.keys

def unregister (name : String) : Except KeyError (Manager ν) :=
  match m.registry.get? name with
  | some _ => .ok (m.delete name)
  | none => .error ⟨name⟩

def get (name : String) : Manager ν × Option Ref :=
  match m.registry.get? name with
  | some r => (m, some r)
  | none => if m.unite then (m.insert name ⟨.empty⟩, some m.items.length) else (m, none)

/-- `getattr(item, attr, None)` of an item got before. -/
def read (r : Ref) (attr : String) : Option ν :=
    (m.items[r]?).bind fun item => item.attributes.get? attr

end Manager

inductive Call (ν : Type)
  | register (name : String) (options : Dict String ν)
  | unregister (name : String)
  | get (name : String)

/-- What a call registers under the name. -/
def Call.registers (name : String) : Call ν → Option (Dict String ν)
  | .register name' options => if name' = name then some options else none
  | _ => none

def Call.unregisters (name : String) : Call ν → Bool
  | .unregister name' => name' = name
  | _ => false

/-- What a call gives to an attribute of the name's item. -/
def Call.gives (name attr : String) (c : Call ν) : Option ν :=
    (c.registers name).bind fun options => options.get? attr

def Manager.call (m : Manager ν) : Call ν → Manager ν
  | .register name options => (m.register name options).toOption.getD m
  | .unregister name => (m.unregister name).toOption.getD m
  | .get name => (m.get name).1

def Manager.run (m : Manager ν) (calls : List (Call ν)) : Manager ν := calls.foldl Manager.call m

/-! ## Items -/

theorem get?_foldl_set (l : List (String × ν)) (h : (l.map Prod.fst).Nodup) (d : Dict String ν)
    (k : String) :
    (l.foldl (fun d p => d.set p.1 p.2) d).get? k = ((l.find? fun p => p.1 = k).map Prod.snd).or
    (d.get? k) := by
  induction l generalizing d with
  | nil => rfl
  | cons p l ih =>
    obtain ⟨hp, hl⟩ := List.nodup_cons.1 h
    rw [List.foldl_cons, ih hl, Dict.get?_set]
    by_cases hk : p.1 = k
    · subst hk
      have hnone : l.find? (fun q => q.1 = p.1) = none := by
        apply List.find?_eq_none.2
        intro q hq
        simpa using fun heq : q.1 = p.1 => hp (heq ▸ List.mem_map_of_mem hq)
      simp [hnone]
    · simp [hk, Ne.symm hk]

@[simp] theorem get?_update (item other : RegistryItem ν) (k : String) :
    (item.update other).attributes.get? k = (other.attributes.get? k).or (item.attributes.get? k) :=
  get?_foldl_set other.attributes.items other.attributes.nodup item.attributes k

namespace Manager

variable {m : Manager ν} {name name' attr : String} {r r' : Ref} {item : RegistryItem ν}

theorem read_updateItem (hr : r < m.items.length) :
    (m.updateItem r item).read r' attr =
      if r' = r then (item.attributes.get? attr).or (m.read r attr) else m.read r' attr := by
  simp only [read, updateItem, List.getElem?_modify]
  by_cases h : r = r'
  · subst h
    simp [List.getElem?_eq_getElem hr]
  · simp [h, Ne.symm h]

theorem read_insert (item : RegistryItem ν) (hr : r ≤ m.items.length) :
    (m.insert name item).read r attr = if r = m.items.length then item.attributes.get? attr
    else m.read r attr := by
  by_cases h : r = m.items.length
  · subst h
    simp [read, insert]
  · simp [read, insert, h, List.getElem?_append_left (Nat.lt_of_le_of_ne hr h)]

/-! ## Calls -/

/-- What a call comes to. -/
theorem call_register (m : Manager ν) (name : String) (options : Dict String ν) :
    m.call (.register name options) =
      match m.registry.get? name with
      | some r => if m.unite then m.updateItem r ⟨options⟩ else m
      | none => m.insert name ⟨options⟩ := by
  rw [call, register]
  cases m.registry.get? name with
  | none => rfl
  | some r => cases hu : m.unite <;> rfl

theorem call_unregister (m : Manager ν) (name : String) :
    m.call (.unregister name) =
      match m.registry.get? name with
      | some _ => m.delete name
      | none => m := by
  rw [call, unregister]
  cases m.registry.get? name <;> rfl

theorem call_get (m : Manager ν) (name : String) :
    m.call (.get name) =
      match m.registry.get? name with
      | some _ => m
      | none => if m.unite then m.insert name ⟨.empty⟩ else m := by
  rw [call, get]
  cases m.registry.get? name with
  | some r => rfl
  | none => cases hu : m.unite <;> rfl

/-- What a call can do to a registry. -/
theorem call_cases (m : Manager ν) (c : Call ν) :
    m.call c = m ∨
      (∃ name r item, m.registry.get? name = some r ∧ m.unite = true ∧
        m.call c = m.updateItem r item) ∨
      (∃ name item, m.registry.get? name = none ∧ m.call c = m.insert name item) ∨
      ∃ name, c = .unregister name ∧ m.call c = m.delete name := by
  cases c with
  | register name options =>
    rw [call_register]
    split
    · split
      · exact Or.inr (Or.inl ⟨name, _, _, ‹_›, ‹_›, rfl⟩)
      · exact Or.inl rfl
    · exact Or.inr (Or.inr (Or.inl ⟨name, _, ‹_›, rfl⟩))
  | unregister name =>
    rw [call_unregister]
    split
    · exact Or.inr (Or.inr (Or.inr ⟨name, rfl, rfl⟩))
    · exact Or.inl rfl
  | get name =>
    rw [call_get]
    split
    · exact Or.inl rfl
    · split
      · exact Or.inr (Or.inr (Or.inl ⟨name, _, ‹_›, rfl⟩))
      · exact Or.inl rfl

theorem settings_call (m : Manager ν) (c : Call ν) :
    (m.call c).name = m.name ∧ (m.call c).unite = m.unite := by
  rcases call_cases m c with h | ⟨n, old, item, -, -, h⟩ | ⟨n, item, -, h⟩ | ⟨n, -, h⟩ <;>
    rw [h] <;> exact ⟨rfl, rfl⟩

theorem run_concat (calls : List (Call ν)) (c : Call ν) :
    m.run (calls ++ [c]) = (m.run calls).call c := by
  rw [run, List.foldl_append]
  rfl

theorem settings_run (m : Manager ν) (calls : List (Call ν)) :
    (m.run calls).name = m.name ∧ (m.run calls).unite = m.unite := by
  induction calls using List.reverseRecOn with
  | nil => exact ⟨rfl, rfl⟩
  | append_singleton calls c ih =>
    obtain ⟨hname, hunite⟩ := settings_call (m.run calls) c
    rw [run_concat]
    exact ⟨hname.trans ih.1, hunite.trans ih.2⟩

/-- No item is ever destroyed. -/
theorem length_call (m : Manager ν) (c : Call ν) : m.items.length ≤ (m.call c).items.length := by
  rcases call_cases m c with h | ⟨n, old, item, -, -, h⟩ | ⟨n, item, -, h⟩ | ⟨n, -, h⟩ <;> rw [h]
  · simp [updateItem]
  · simp [insert]
  · exact Nat.le_refl _

theorem length_run (m : Manager ν) (calls : List (Call ν)) :
    m.items.length ≤ (m.run calls).items.length := by
  induction calls generalizing m with
  | nil => exact Nat.le_refl _
  | cons c calls ih => exact Nat.le_trans (length_call m c) (ih (m.call c))

/-! ## Who shares an item -/

/-- An item under a name stays there until that is unregistered. -/
theorem call_kept (h : m.registry.get? name = some r) {c : Call ν}
    (hc : c.unregisters name = false) :
    (m.call c).registry.get? name = some r := by
  rcases call_cases m c with heq | ⟨n, old, item, -, -, heq⟩ | ⟨n, item, hn, heq⟩
    | ⟨n, rfl, heq⟩ <;> rw [heq]
  · exact h
  · exact h
  · have hne : name ≠ n := by
      rintro rfl
      rw [h] at hn
      cases hn
    rw [insert, Dict.get?_set, if_neg hne, h]
  · have hne : name ≠ n := by
      rintro rfl
      simp [Call.unregisters] at hc
    rw [delete, Dict.get?_pop, if_neg hne, h]

/-- An item that was made and is no longer under any name. -/
def Loose (m : Manager ν) (r : Ref) : Prop :=
    r < m.items.length ∧ ∀ name, m.registry.get? name ≠ some r

/-- It never gets a name again, and never changes. -/
theorem loose_call (h : m.Loose r) (c : Call ν) :
    (m.call c).Loose r ∧ ∀ attr, (m.call c).read r attr = m.read r attr := by
  have ⟨hr, hno⟩ := h
  rcases call_cases m c with heq | ⟨n, old, item, hold, -, heq⟩ | ⟨n, item, -, heq⟩
    | ⟨n, -, heq⟩ <;> rw [heq]
  · exact ⟨h, fun _ => rfl⟩
  · have hne : r ≠ old := by
      rintro rfl
      exact hno n hold
    refine ⟨⟨by simpa [updateItem] using hr, hno⟩, fun attr => ?_⟩
    rw [read_updateItem (m.made n old hold), if_neg hne]
  · refine ⟨⟨?_, fun name' => ?_⟩, fun attr => ?_⟩
    · exact Nat.lt_of_lt_of_le hr (by simp [insert])
    · rw [insert, Dict.get?_set]
      split
      · exact fun heq' => Nat.ne_of_gt hr (Option.some.inj heq')
      · exact hno name'
    · rw [read_insert item (Nat.le_of_lt hr), if_neg (Nat.ne_of_lt hr)]
  · refine ⟨⟨hr, fun name' => ?_⟩, fun _ => rfl⟩
    rw [delete, Dict.get?_pop]
    split
    · simp
    · exact hno name'

theorem loose_run (h : m.Loose r) (calls : List (Call ν)) :
    (m.run calls).Loose r ∧ ∀ attr, (m.run calls).read r attr = m.read r attr := by
  induction calls using List.reverseRecOn with
  | nil => exact ⟨h, fun _ => rfl⟩
  | append_singleton calls c ih =>
    obtain ⟨hl, hread⟩ := loose_call ih.1 c
    rw [run_concat]
    exact ⟨hl, fun attr => (hread attr).trans (ih.2 attr)⟩

/-- Unregistering a name leaves its item as it is, under no name. -/
theorem loose_unregister (h : m.registry.get? name = some r) :
    (m.call (.unregister name)).Loose r ∧ ∀ attr,
    (m.call (.unregister name)).read r attr = m.read r attr := by
  rw [call_unregister, h]
  refine ⟨⟨m.made name r h, fun name' heq => ?_⟩, fun _ => rfl⟩
  rw [delete, Dict.get?_pop] at heq
  split at heq
  · cases heq
  · rename_i hne
    exact hne (m.apart name' name r heq h)

theorem run_append (calls calls' : List (Call ν)) :
    m.run (calls ++ calls') = (m.run calls).run calls' :=
  List.foldl_append

theorem run_cons (c : Call ν) (calls : List (Call ν)) :
    m.run (c :: calls) = (m.call c).run calls := rfl

theorem run_kept (h : m.registry.get? name = some r) {calls : List (Call ν)}
    (hcalls : ∀ c ∈ calls, c.unregisters name = false) :
    (m.run calls).registry.get? name = some r := by
  induction calls generalizing m with
  | nil => exact h
  | cons c calls ih =>
    exact ih (call_kept h (hcalls c List.mem_cons_self)) fun c' hc' =>
      hcalls c' (List.mem_cons_of_mem _ hc')

/-- The calls before the first that unregisters the name. -/
def kept (name : String) (calls : List (Call ν)) : List (Call ν) :=
    calls.takeWhile fun c => !c.unregisters name

theorem eq_kept_or (name : String) (calls : List (Call ν)) :
    (calls = kept name calls ∧ ∀ c ∈ calls, c.unregisters name = false) ∨
      ∃ post, calls = kept name calls ++ .unregister name :: post := by
  induction calls with
  | nil => exact Or.inl ⟨rfl, by simp⟩
  | cons c calls ih =>
    cases hc : c.unregisters name with
    | true =>
      refine Or.inr ⟨calls, ?_⟩
      cases c with
      | unregister name' =>
        obtain rfl : name' = name := by simpa [Call.unregisters] using hc
        simp [kept, hc]
      | register name' options => cases hc
      | get name' => cases hc
    | false =>
      have hk : kept name (c :: calls) = c :: kept name calls := by simp [kept, hc]
      rw [hk]
      rcases ih with ⟨heq, hall⟩ | ⟨post, heq⟩
      · refine Or.inl ⟨congrArg _ heq, fun c' hc' => ?_⟩
        rcases List.mem_cons.1 hc' with rfl | hc'
        · exact hc
        · exact hall c' hc'
      · exact Or.inr ⟨post, congrArg (c :: ·) heq⟩

theorem kept_unregisters (calls : List (Call ν)) {c : Call ν} (h : c ∈ kept name calls) :
    c.unregisters name = false := by
  simpa using List.mem_takeWhile_imp h

/-- **An item is shared by those who ask for its name until that is unregistered, and by
nobody who asks for another.** -/
theorem run_shared_iff (h : m.registry.get? name = some r) (calls : List (Call ν)) :
    (m.run calls).registry.get? name' = some r ↔ name' = name ∧ ∀ c ∈ calls,
    c.unregisters name = false := by
  rcases eq_kept_or name calls with ⟨-, hall⟩ | ⟨post, heq⟩
  · have hkept := run_kept h hall
    constructor
    · exact fun h' => ⟨(m.run calls).apart name' name r h' hkept, hall⟩
    · rintro ⟨rfl, -⟩
      exact hkept
  · have hk := run_kept h fun c hc => kept_unregisters calls hc
    have hloose := (loose_run (loose_unregister hk).1 post).1
    rw [heq, run_append, run_cons]
    constructor
    · exact fun h' => absurd h' (hloose.2 name')
    · rintro ⟨-, hall⟩
      have hun : (Call.unregister name : Call ν).unregisters name = false := hall _ (by simp)
      simp [Call.unregisters] at hun

/-- From then on it shows what it did. -/
theorem run_read (h : m.registry.get? name = some r) (calls : List (Call ν)) (attr : String) :
    (m.run calls).read r attr = (m.run (kept name calls)).read r attr := by
  rcases eq_kept_or name calls with ⟨heq, -⟩ | ⟨post, heq⟩
  · rw [← heq]
  · have hk := run_kept h fun c hc => kept_unregisters calls hc
    obtain ⟨hl, hread⟩ := loose_unregister hk
    conv => lhs; rw [heq]
    rw [run_append, run_cons, (loose_run hl post).2, hread]

/-- Asking for a name does not come up with an item that was made for another purpose. -/
theorem get_eq_some_iff (hr : r < m.items.length) :
    (m.get name).2 = some r ↔ m.registry.get? name = some r := by
  unfold get
  split
  · rename_i r' hr'
    rw [hr']
  · rename_i hnone
    split
    · simp [hnone, Nat.ne_of_gt hr]
    · simp [hnone]

/-! ## What an item shows: `unite=True` -/

/-- The attribute of the item under a name. -/
def showing (m : Manager ν) (name attr : String) : Option ν := (m.registry.get? name).bind fun r =>
    m.read r attr

theorem showing_insert (item : RegistryItem ν) :
    (m.insert name' item).showing name attr =
      if name = name' then item.attributes.get? attr else m.showing name attr := by
  simp only [showing]
  rw [insert, Dict.get?_set]
  by_cases h : name = name'
  · simp [h, read]
  · simp only [h, if_false]
    cases hr : m.registry.get? name with
    | none => rfl
    | some r =>
      have hlt := m.made name r hr
      exact (read_insert item (Nat.le_of_lt hlt)).trans (if_neg (Nat.ne_of_lt hlt))

theorem showing_updateItem (hr : m.registry.get? name' = some r) :
    (m.updateItem r item).showing name attr =
      if name = name' then (item.attributes.get? attr).or (m.showing name attr)
      else m.showing name attr := by
  have hreg : (m.updateItem r item).registry = m.registry := rfl
  simp only [showing, hreg]
  by_cases h : name = name'
  · subst h
    simp [hr, read_updateItem (m.made name r hr)]
  · simp only [h, if_false]
    cases hr' : m.registry.get? name with
    | none => rfl
    | some r' =>
      have hne : r' ≠ r := by
        rintro rfl
        exact h (m.apart name name' r' hr' hr)
      simp [read_updateItem (m.made name' r hr), hne]

theorem showing_delete :
    (m.delete name').showing name attr = if name = name' then none else m.showing name attr := by
  have hread : ∀ r, (m.delete name').read r attr = m.read r attr := fun _ => rfl
  simp only [showing, hread]
  rw [delete, Dict.get?_pop]
  split <;> rfl

theorem showing_call (hu : m.unite = true) (c : Call ν) :
    (m.call c).showing name attr = (c.gives name attr).or
    (if c.unregisters name then none else m.showing name attr) := by
  cases c with
  | register n options =>
    rw [call_register]
    cases hr : m.registry.get? n with
    | some r =>
      by_cases hn : name = n
      · subst hn
        simp [hu, showing_updateItem hr, Call.gives, Call.registers, Call.unregisters]
      · simp [hu, showing_updateItem hr, Call.gives, Call.registers, Call.unregisters,
          hn, Ne.symm hn]
    | none =>
      by_cases hn : name = n
      · subst hn
        have hnone : m.showing name attr = none := by simp [showing, hr]
        simp [showing_insert, Call.gives, Call.registers, Call.unregisters, hnone]
      · simp [showing_insert, Call.gives, Call.registers, Call.unregisters, hn, Ne.symm hn]
  | unregister n =>
    rw [call_unregister]
    cases hr : m.registry.get? n with
    | some r =>
      by_cases hn : name = n
      · simp [showing_delete, Call.gives, Call.registers, Call.unregisters, hn]
      · simp [showing_delete, Call.gives, Call.registers, Call.unregisters, hn, Ne.symm hn]
    | none =>
      by_cases hn : name = n
      · subst hn
        simp [showing, hr, Call.gives, Call.registers, Call.unregisters]
      · simp [Call.gives, Call.registers, Call.unregisters, Ne.symm hn]
  | get n =>
    rw [call_get]
    cases hr : m.registry.get? n with
    | some r => simp [Call.gives, Call.registers, Call.unregisters]
    | none =>
      by_cases hn : name = n
      · subst hn
        have hnone : m.showing name attr = none := by simp [showing, hr]
        simp [hu, showing_insert, Call.gives, Call.registers, Call.unregisters, hnone]
      · simp [hu, showing_insert, Call.gives, Call.registers, Call.unregisters, hn]

theorem showing_run_iff {calls : List (Call ν)} {v : ν} {title : String} :
    ((init title true).run calls).showing name attr = some v ↔
      Latest (Call.gives name attr) (fun c => c.unregisters name = true) calls v := by
  induction calls using List.reverseRecOn generalizing v with
  | nil => exact iff_of_false (by simp [showing, run, init]) not_latest_nil
  | append_singleton calls c ih =>
    rw [run_concat, showing_call (settings_run _ calls).2, latest_concat_iff, ← ih,
      Option.or_eq_some_iff]
    cases c.unregisters name <;> simp

theorem get_united (hu : m.unite = true) (name : String) :
    ∃ r, (m.get name).2 = some r ∧ (m.call (.get name)).registry.get? name = some r := by
  rw [call_get, get]
  cases h : m.registry.get? name with
  | some r => exact ⟨r, rfl, h⟩
  | none => exact ⟨m.items.length, by simp [hu], by simp [hu, insert]⟩

/-- **United items.** Whoever has got an item shares it with those who get the name until it
is unregistered, and with nobody else; it shows of each attribute what was registered last, from
before or after it was got, until then. -/
theorem united_item (title name : String) (before after : List (Call ν)) :
    ∃ r, (((init title true).run before).get name).2 = some r ∧
      (∀ name', (((init title true).run (before ++ .get name :: after)).get name').2 = some r ↔
        name' = name ∧ ∀ c ∈ after, c.unregisters name = false) ∧
      ∀ attr v, ((init title true).run (before ++ .get name :: after)).read r attr = some v ↔
        Latest (Call.gives name attr) (fun c => c.unregisters name = true)
        (before ++ .get name :: kept name after) v := by
  have hrun : ∀ calls, (init title true).run (before ++ .get name :: calls) =
      (((init title true).run before).call (.get name)).run calls := by
    intro calls
    rw [run_append, run_cons]
  obtain ⟨r, hget, hr⟩ := get_united (settings_run (init title true : Manager ν) before).2 name
  have hlt : r < ((init title true).run (before ++ .get name :: after)).items.length := by
    rw [hrun]
    exact Nat.lt_of_lt_of_le (made _ name r hr) (length_run _ after)
  refine ⟨r, hget, fun name' => ?_, fun attr v => ?_⟩
  · rw [get_eq_some_iff hlt, hrun, run_shared_iff hr]
  · rw [hrun, run_read hr, ← showing_run_iff, hrun, showing, run_kept hr fun c hc =>
      kept_unregisters after hc]
    rfl

/-! ## What an item shows: `unite=False` -/

/-- The options of the item under a name. -/
def entry (m : Manager ν) (name : String) : Option (Dict String ν) :=
  (m.registry.get? name).bind fun r => (m.items[r]?).map RegistryItem.attributes

theorem entry_insert (item : RegistryItem ν) :
    (m.insert name' item).entry name = if name = name' then some item.attributes
    else m.entry name := by
  simp only [entry]
  rw [insert, Dict.get?_set]
  by_cases h : name = name'
  · simp [h]
  · simp only [h, if_false]
    cases hr : m.registry.get? name with
    | none => rfl
    | some r => simp [List.getElem?_append_left (m.made name r hr)]

theorem entry_delete :
    (m.delete name').entry name = if name = name' then none else m.entry name := by
  have hitems : (m.delete name').items = m.items := rfl
  simp only [entry, hitems]
  rw [delete, Dict.get?_pop]
  split <;> rfl

theorem isSome_entry : (m.entry name).isSome = (m.registry.get? name).isSome := by
  rw [entry]
  cases hr : m.registry.get? name with
  | none => rfl
  | some r => simp [List.getElem?_eq_getElem (m.made name r hr)]

theorem entry_call (hu : m.unite = false) (c : Call ν) :
    (m.call c).entry name = if c.unregisters name then none else (m.entry name).or
    (c.registers name) := by
  cases c with
  | register n options =>
    have hsome : (m.entry n).isSome = (m.registry.get? n).isSome := isSome_entry
    rw [call_register]
    cases hr : m.registry.get? n with
    | some r =>
      rw [hr] at hsome
      obtain ⟨options', ho⟩ := Option.isSome_iff_exists.1 hsome
      by_cases hn : name = n
      · subst hn
        simp [hu, ho, Call.unregisters]
      · simp [hu, Call.registers, Call.unregisters, Ne.symm hn]
    | none =>
      rw [hr] at hsome
      by_cases hn : name = n
      · subst hn
        have hnone : m.entry name = none := by simpa using hsome
        simp [entry_insert, hnone, Call.registers, Call.unregisters]
      · simp [entry_insert, Call.registers, Call.unregisters, hn, Ne.symm hn]
  | unregister n =>
    rw [call_unregister]
    cases hr : m.registry.get? n with
    | some r =>
      by_cases hn : name = n
      · simp [entry_delete, Call.unregisters, hn]
      · simp [entry_delete, Call.registers, Call.unregisters, hn, Ne.symm hn]
    | none =>
      by_cases hn : name = n
      · subst hn
        simp [entry, hr, Call.unregisters]
      · simp [Call.registers, Call.unregisters, Ne.symm hn]
  | get n =>
    rw [call_get, hu]
    cases hr : m.registry.get? n <;> simp [Call.registers, Call.unregisters]

theorem entry_run_iff {calls : List (Call ν)} {options : Dict String ν} {title : String} :
    ((init title false).run calls).entry name = some options ↔
      Earliest (Call.registers name) (fun c => c.unregisters name = true) calls options := by
  have hdisj : ∀ c : Call ν, c.unregisters name = true → c.registers name = none := by
    intro c hc
    cases c with
    | register n options => cases hc
    | unregister n => rfl
    | get n => rfl
  induction calls using List.reverseRecOn generalizing options with
  | nil => exact iff_of_false (by simp [entry, run, init]) not_earliest_nil
  | append_singleton calls c ih =>
    have hnone : ((init title false).run calls).entry name = none ↔
        ∀ options', ¬ Earliest (Call.registers name) (fun c => c.unregisters name = true) calls
          options' := by
      rw [Option.eq_none_iff_forall_ne_some]
      exact forall_congr' fun _ => not_congr ih
    have hsome := propext (@ih options)
    rw [run_concat, entry_call (settings_run _ calls).2,
      earliest_concat_iff hdisj, ← hsome, ← hnone]
    cases c.unregisters name with
    | true => simp
    | false => simp [Option.or_eq_some_iff, and_comm]

/-- Nothing changes an item. -/
theorem items_call (hu : m.unite = false) (hr : r < m.items.length) (c : Call ν) :
    (m.call c).items[r]? = m.items[r]? := by
  rcases call_cases m c with heq | ⟨n, old, item, -, hu', -⟩ | ⟨n, item, -, heq⟩ | ⟨n, -, heq⟩
  · rw [heq]
  · rw [hu] at hu'
    cases hu'
  · rw [heq]
    exact List.getElem?_append_left hr
  · rw [heq]
    rfl

theorem items_run (hu : m.unite = false) (hr : r < m.items.length) (calls : List (Call ν)) :
    (m.run calls).items[r]? = m.items[r]? := by
  induction calls using List.reverseRecOn with
  | nil => rfl
  | append_singleton calls c ih =>
    have hu' : (m.run calls).unite = false := (settings_run m calls).2.trans hu
    rw [run_concat, items_call hu' (Nat.lt_of_lt_of_le hr (length_run m calls)), ih]

/-- A name that is taken refuses further registrations, and the item goes on as it is. -/
theorem taken (hu : m.unite = false) (hr : m.registry.get? name = some r) (after : List (Call ν)) :
    ∃ options, (m.get name).2 = some r ∧ m.entry name = some options ∧
      (∀ options', m.register name options' = .error
        ⟨"Registering twice in " ++ m.name ++ ": " ++ name⟩) ∧
      (∀ attr, (m.run after).read r attr = options.get? attr) ∧
      ∀ name', ((m.run after).get name').2 = some r ↔ name' = name ∧ ∀ c ∈ after,
      c.unregisters name = false := by
  have hlt := m.made name r hr
  have hitem : m.items[r]? = some m.items[r] := List.getElem?_eq_getElem hlt
  refine ⟨(m.items[r]).attributes, by simp [get, hr], by simp [entry, hr, hitem], fun options' =>
    ?_, fun attr => ?_, fun name' => ?_⟩
  · simp [register, hr, hu]
  · rw [read, items_run hu hlt, hitem]
    rfl
  · rw [get_eq_some_iff (Nat.lt_of_lt_of_le hlt (length_run m after)), run_shared_iff hr]

theorem free (hu : m.unite = false) (hr : m.registry.get? name = none) :
    (m.get name).2 = none ∧ m.entry name = none ∧ ∀ options, (m.register name options).isOk := by
  refine ⟨by simp [get, hr, hu], by simp [entry, hr], fun options => ?_⟩
  rw [register, hr]
  rfl

/-- **First items.** In a registry that refuses to register twice, a name is free, or taken by
the first of its registrations that came after the last time it was given up. An item that was
handed out shows what it was registered with for ever. -/
theorem first_item (title name : String) (before after : List (Call ν)) :
    (∃ r options, (((init title false).run before).get name).2 = some r ∧
      Earliest (Call.registers name) (fun c => c.unregisters name = true) before options ∧
      (∀ options', ((init title false).run before).register name options' =
        .error ⟨"Registering twice in " ++ title ++ ": " ++ name⟩) ∧
      (∀ attr, ((init title false).run (before ++ after)).read r attr = options.get? attr) ∧
      ∀ name', (((init title false).run (before ++ after)).get name').2 = some r ↔
        name' = name ∧ ∀ c ∈ after, c.unregisters name = false) ∨
    (((init title false).run before).get name).2 = none ∧
      (∀ options, ¬ Earliest (Call.registers name)
        (fun c => c.unregisters name = true) before options) ∧
      ∀ options, (((init title false).run before).register name options).isOk := by
  obtain ⟨htitle, hu⟩ := settings_run (init title false : Manager ν) before
  rw [run_append]
  cases hr : ((init title false).run before).registry.get? name with
  | none =>
    obtain ⟨hget, hentry, hok⟩ := free hu hr
    refine Or.inr ⟨hget, fun options h => ?_, hok⟩
    rw [← @entry_run_iff _ _ _ _ title, hentry] at h
    cases h
  | some r =>
    obtain ⟨options, hget, hentry, hrest⟩ := taken hu hr after
    rw [htitle] at hrest
    exact Or.inl ⟨r, options, hget, entry_run_iff.1 hentry, hrest⟩

end Manager

end Atasks.Registry
