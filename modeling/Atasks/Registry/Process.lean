import Atasks.Registry.Items
import Atasks.Router.Namespaces
/-!
# The registries of a process

`Router.Namespaces` has the items of `namespaces` by name, and `Registry` those of a router's three
registries; the objects of `Registry.Items` are left out there. They may be: after any run both hold
the same.

| here | there |
| --- | --- |
| `registerAll`       | calls of `register` on a router's registry (`atasks/router.py:479`, `:516`, `:549`), those that raise among them |
| `given`             | what `namespaces.register(...)` is given by a constructor (`:107-119` and its likes) |
| `callsOf`           | the calls of `namespaces.register` in a run |

* `entries_run`, `get_registerAll`: a router's registry keeps what came first;
* `represents_run`, `got_run`: so does `namespaces`, item by item;
* `shown_iff`: `get_codec` and `get_transport` return what was constructed last.
-/

namespace Atasks.Registry

variable {ν : Type}

namespace Manager

variable {m : Manager ν}

/-! ## A registry of a router -/

/-- `m` is what `Atasks.Manager` is a model of, item by item. -/
structure Entries (m : Manager ν) (m₀ : Atasks.Manager (Dict String ν)) : Prop where
  unite : m.unite = false
  name : m.name = m₀.name
  names : m.names = m₀.names
  entry : ∀ name, m.entry name = m₀.get name

theorem entries_init (title : String) :
    Entries (init title false : Manager ν) (.empty title) := ⟨rfl, rfl, rfl, fun _ => rfl⟩

/-- Both register, or both raise the same. -/
theorem register_entries {m₀ : Atasks.Manager (Dict String ν)} (h : Entries m m₀) (name : String)
    (options : Dict String ν) :
    (∃ m' m₀', m.register name options = .ok m' ∧ m₀.register name options = .ok m₀' ∧
      Entries m' m₀') ∨
      ∃ e, m.register name options = .error e ∧ m₀.register name options = .error e := by
  have hsome : (m.registry.get? name).isSome = (m₀.registry.get? name).isSome := by
    rw [← isSome_entry, h.entry]
    rfl
  cases hr : m.registry.get? name with
  | some r =>
    rw [hr] at hsome
    obtain ⟨options', hr₀⟩ := Option.isSome_iff_exists.1 hsome.symm
    refine Or.inr ⟨_, ?_, by rw [Atasks.Manager.register, hr₀]⟩
    simp [register, hr, h.unite, h.name]
  | none =>
    rw [hr] at hsome
    have hr₀ : m₀.registry.get? name = none := by simpa using hsome
    refine Or.inl ⟨m.insert name ⟨options⟩,
      { m₀ with registry := m₀.registry.set name options }, by rw [register, hr],
      by rw [Atasks.Manager.register, hr₀], h.unite, h.name, ?_, fun name' => ?_⟩
    · have hnames : m.registry.keys = m₀.registry.keys := h.names
      simp [names, insert, Atasks.Manager.names, Dict.keys_set, hnames]
    · rw [entry_insert, h.entry]
      exact (Dict.get?_set m₀.registry name name' options).symm

/-- One registration after another; who catches a `RegisteringTwice` goes on. -/
def registerAll (m₀ : Atasks.Manager (Dict String ν))
    (registrations : List (String × Dict String ν)) :
    Atasks.Manager (Dict String ν) :=
  registrations.foldl (fun m₀ r => (m₀.register r.1 r.2).toOption.getD m₀) m₀

def registrationCall (r : String × Dict String ν) : Call ν := .register r.1 r.2

theorem entries_run {m₀ : Atasks.Manager (Dict String ν)} (h : Entries m m₀)
    (registrations : List (String × Dict String ν)) :
    Entries (m.run (registrations.map registrationCall)) (registerAll m₀ registrations) := by
  induction registrations generalizing m m₀ with
  | nil => exact h
  | cons r registrations ih =>
    rw [List.map_cons, run_cons]
    refine ih ?_
    show Entries ((m.register r.1 r.2).toOption.getD m) ((m₀.register r.1 r.2).toOption.getD m₀)
    rcases register_entries h r.1 r.2 with ⟨m', m₀', hm, hm₀, hentries⟩ | ⟨e, hm, hm₀⟩
    · rw [hm, hm₀]
      exact hentries
    · rw [hm, hm₀]
      exact h

/-- **A router's registry keeps what came first.** -/
theorem get_registerAll (title name : String) (registrations : List (String × Dict String ν)) :
    (registerAll (.empty title) registrations).get name =
      registrations.findSome? fun r => if r.1 = name then some r.2 else none := by
  have hentries := entries_run (entries_init title) registrations
  have hclears : ∀ c ∈ registrations.map registrationCall, ¬ c.unregisters name = true := by
    intro c hc
    obtain ⟨r, -, rfl⟩ := List.mem_map.1 hc
    exact Bool.false_ne_true
  refine Option.ext fun options => ?_
  rw [← hentries.entry, entry_run_iff, earliest_iff_findSome? hclears, List.findSome?_map]
  rfl

/-! ## The namespaces of a process -/

section namespaces

open Router (Globals)

variable {κ ε ω : Type}

/-- What the attributes of a namespace's item hold. -/
inductive Value (κ ε ω : Type)
  | codec (codec : Codec κ ε)
  | transport (t : Router.TransportId)
  | router (router : Router.RouterObject)
  | registry (registry : Atasks.Manager (Router.Item κ ε ω))

/-- The attributes under the names that the constructors give them. -/
def attributeOf (item : Router.RegistryItem κ ε ω) (attr : String) : Option (Value κ ε ω) :=
  if attr = "codec" then item.codec.map .codec
  else if attr = "transport" then item.transport.map .transport
  else if attr = "router" then item.router.map .router
  else if attr = "rpc_registry" then item.registries.map fun r => .registry (r .rpc)
  else if attr = "queue_registry" then item.registries.map fun r => .registry (r .queue)
  else if attr = "broadcast_registry" then item.registries.map fun r => .registry (r .broadcast)
  else none

theorem attributeOf_update (item other : Router.RegistryItem κ ε ω) (attr : String) :
    attributeOf (item.update other) attr = (attributeOf other attr).or (attributeOf item attr) := by
  simp only [attributeOf, Router.RegistryItem.update]
  split_ifs <;> simp [Option.map_or]

/-- `g` reads off the items of `m`. -/
structure Represents (m : Manager (Value κ ε ω)) (g : Globals κ ε ω) : Prop where
  unite : m.unite = true
  showing : ∀ name attr, m.showing name attr = attributeOf (g.get name) attr

theorem represents_init (title : String) :
    Represents (init title true) (.init : Globals κ ε ω) := by
  refine ⟨rfl, fun name attr => ?_⟩
  simp [showing, init, Globals.get, Globals.init, attributeOf]

variable {m : Manager (Value κ ε ω)} {g : Globals κ ε ω}

theorem register_represents (h : Represents m g) (name : String)
    {options : Dict String (Value κ ε ω)} {item : Router.RegistryItem κ ε ω}
    (hoptions : ∀ attr, options.get? attr = attributeOf item attr) :
    ∃ m', m.register name options = .ok m' ∧ Represents m' (g.register name item) := by
  obtain ⟨m', hm⟩ : ∃ m', m.register name options = .ok m' := by
    unfold register
    split
    · exact ⟨_, if_pos h.unite⟩
    · exact ⟨_, rfl⟩
  have hcall : m.call (.register name options) = m' := by
    rw [call, hm]
    rfl
  refine ⟨m', hm, ?_, fun name' attr => ?_⟩
  · rw [← hcall, (settings_call m _).2, h.unite]
  · rw [← hcall, showing_call h.unite, Router.Globals.get_register]
    by_cases hn : name' = name
    · subst hn
      simp [Call.gives, Call.registers, Call.unregisters, hoptions, attributeOf_update, h.showing]
    · simp [Call.gives, Call.registers, Call.unregisters, hn, Ne.symm hn, h.showing]

/-- Asking for a namespace leaves all of them as they are; its item has what is read off. -/
theorem get_represents (h : Represents m g) (name : String) :
    ∃ r, (m.get name).2 = some r ∧ Represents (m.get name).1 g ∧
      ∀ attr, (m.get name).1.read r attr = attributeOf (g.get name) attr := by
  obtain ⟨r, hget, hr⟩ := get_united h.unite name
  have hcall : m.call (.get name) = (m.get name).1 := rfl
  have hrep : Represents (m.get name).1 g := by
    refine ⟨?_, fun name' attr => ?_⟩
    · rw [← hcall, (settings_call m _).2, h.unite]
    · rw [← hcall, showing_call h.unite]
      simp [Call.gives, Call.registers, Call.unregisters, h.showing]
  refine ⟨r, hget, hrep, fun attr => ?_⟩
  rw [← hrep.showing, showing, ← hcall, hr]
  rfl

/-! ## Over a run -/

def attributes : List String :=
  ["codec", "transport", "router", "rpc_registry", "queue_registry", "broadcast_registry"]

/-- The keyword arguments that make such an item. -/
def optionsOf (item : Router.RegistryItem κ ε ω) : Dict String (Value κ ε ω) :=
  attributes.foldl (fun d attr => (attributeOf item attr).elim d (d.set attr)) .empty

theorem get?_foldl_attributes (item : Router.RegistryItem κ ε ω) (attr : String) (l : List String)
    (d : Dict String (Value κ ε ω)) :
    (l.foldl (fun d attr => (attributeOf item attr).elim d (d.set attr)) d).get? attr =
      if attr ∈ l then (attributeOf item attr).or (d.get? attr) else d.get? attr := by
  induction l generalizing d with
  | nil => rfl
  | cons a l ih =>
    rw [List.foldl_cons, ih]
    by_cases ha : attr = a
    · subst ha
      cases hv : attributeOf item attr <;> simp
    · have hsame : ((attributeOf item a).elim d (d.set a)).get? attr = d.get? attr := by
        cases attributeOf item a <;> simp [Dict.get?_set, ha]
      simp [hsame, ha]

theorem get?_optionsOf (item : Router.RegistryItem κ ε ω) (attr : String) :
    (optionsOf item).get? attr = attributeOf item attr := by
  rw [optionsOf, get?_foldl_attributes]
  split
  · simp
  · rename_i hattr
    simp only [attributes, List.mem_cons, List.not_mem_nil, or_false, not_or] at hattr
    obtain ⟨h₁, h₂, h₃, h₄, h₅, h₆⟩ := hattr
    simp [attributeOf, h₁, h₂, h₃, h₄, h₅, h₆]

/-- What a constructor registers. A router and its registries are changed in place, which shows in
their attributes at once. -/
def given (g' : Globals κ ε ω) : Globals.Event κ ε ω → Router.RegistryItem κ ε ω
  | .codec _ codec => { codec := some codec }
  | .transport _ t => { transport := some t }
  | .router name settings =>
    { router := some (.new { settings with nspace := name })
      registries := some fun _ => .empty name }
  | .on name _ => { router := (g'.get name).router, registries := (g'.get name).registries }

def callsOf (g : Globals κ ε ω) : List (Globals.Event κ ε ω) → List (Call (Value κ ε ω))
  | [] => []
  | e :: es =>
    match g.step e with
    | some g' => .register e.nspace (optionsOf (given g' e)) :: callsOf g' es
    | none => []

theorem get_step {g' : Globals κ ε ω} {e : Globals.Event κ ε ω} (hs : g.step e = some g')
    (name : String) :
    g'.get name = (g.register e.nspace (given g' e)).get name := by
  cases e with
  | codec name' codec =>
    cases hs
    rfl
  | transport name' t =>
    simp only [Globals.step] at hs
    split at hs
    · cases hs
    · cases hs
      simp only [Globals.newTransport, Globals.get_register, given, Globals.Event.nspace]
      rfl
  | router name' settings =>
    simp only [Globals.step] at hs
    split at hs
    · cases hs
    · cases hs
      rfl
  | on name' e =>
    obtain ⟨router, s, -, -, -, rfl⟩ := Globals.routerStep_cases hs
    rw [Globals.get_register, Globals.get_withState, Globals.Event.nspace]
    split
    · simp [given, Globals.get_withState, Router.RegistryItem.update]
    · rfl

theorem represents_step (h : Represents m g) {g' : Globals κ ε ω} {e : Globals.Event κ ε ω}
    (hs : g.step e = some g') :
    Represents (m.call (.register e.nspace (optionsOf (given g' e)))) g' := by
  obtain ⟨m', hm, hrep⟩ := register_represents h e.nspace (get?_optionsOf (given g' e))
  rw [call, hm]
  exact ⟨hrep.unite, fun name attr => by rw [get_step hs]; exact hrep.showing name attr⟩

/-- In every run the objects show what there is of each namespace. -/
theorem represents_run (h : Represents m g) {g' : Globals κ ε ω} {es : List (Globals.Event κ ε ω)}
    (hrun : Machine.run Globals.step g es = some g') : Represents (m.run (callsOf g es)) g' := by
  induction es generalizing m g with
  | nil =>
    cases hrun
    exact h
  | cons e es ih =>
    obtain ⟨g₁, hs, hrest⟩ := Machine.run_cons_eq_some.1 hrun
    rw [callsOf, hs]
    exact ih (represents_step h hs) hrest

/-- **The objects may be left out.** `namespaces.get(name)` returns an item at any time, with all
the attributes of the namespace. -/
theorem got_run {es : List (Globals.Event κ ε ω)}
    (hrun : Machine.run Globals.step .init es = some g) (name : String) :
    ∃ r, (((init "" true).run (callsOf .init es)).get name).2 = some r ∧
      ∀ attr, (((init "" true).run (callsOf .init es)).get name).1.read r attr =
        attributeOf (g.get name) attr := by
  obtain ⟨r, hget, -, hread⟩ := get_represents
    (represents_run (represents_init "") hrun) name
  exact ⟨r, hget, hread⟩

/-- What the constructors of a namespace give to an attribute. -/
def constructs (name attr : String) (e : Globals.Event κ ε ω) : Option (Value κ ε ω) :=
  if e.nspace = name then attributeOf (given .init e) attr else none

/-- Nobody but the constructors gives a namespace a codec or a transport. -/
theorem forall₂_callsOf {name attr : String} (hattr : attr = "codec" ∨ attr = "transport")
    {g' : Globals κ ε ω} {es : List (Globals.Event κ ε ω)}
    (hrun : Machine.run Globals.step g es = some g') :
    List.Forall₂ (fun c e => Call.gives name attr c = constructs name attr e ∧
      (c.unregisters name = true ↔ False))
      (callsOf g es) es := by
  induction es generalizing g with
  | nil => exact .nil
  | cons e es ih =>
    obtain ⟨g₁, hs, hrest⟩ := Machine.run_cons_eq_some.1 hrun
    rw [callsOf, hs]
    refine .cons ⟨?_, by simp [Call.unregisters]⟩ (ih hrest)
    by_cases hname : e.nspace = name
    · simp only [Call.gives, Call.registers, constructs, hname, if_true, Option.bind_some,
        get?_optionsOf]
      rcases hattr with rfl | rfl <;> cases e <;> rfl
    · simp [Call.gives, Call.registers, constructs, hname]

/-- **What is constructed last is what everybody gets.** The codec and the transport of a namespace
are the last ones constructed in it, whatever its router did meanwhile. -/
theorem shown_iff {name attr : String} (hattr : attr = "codec" ∨ attr = "transport")
    {es : List (Globals.Event κ ε ω)} (hrun : Machine.run Globals.step .init es = some g)
    {v : Value κ ε ω} :
    attributeOf (g.get name) attr = some v ↔ Latest (constructs name attr)
    (fun _ => False) es v := by
  have hrep := represents_run (represents_init "") hrun
  rw [← hrep.showing, showing_run_iff, latest_congr (forall₂_callsOf hattr hrun)]

end namespaces

end Manager

end Atasks.Registry
