import Atasks.Router.Stub
/-!
# Namespaces

One process with any number of namespaces: the map `namespaces` that every constructor
registers in (`atasks/namespaces.py`, `atasks/registry.py:20-26, 54-104` with `unite=True`),
each namespace's router (`atasks/router.py:106-126`) with its calls of `activate` and
`deactivate`, and its `LoopbackTransport`s. What a router does is `Router.step`, on what it
finds under its own namespace's name.

| here | there |
| --- | --- |
| `RegistryItem`      | the attributes `codec`, `transport`, `router` and the three registries of a `RegistryItem` |
| `Globals.register`  | `namespaces.register(namespace, …)`: what is there and not given again stays |
| `Globals.get`       | `namespaces.get(namespace)`; the empty item it may leave behind reads the same as none |
| `newCodec`, `newTransport`, `newRouter` | the constructors; `newRouter` is also what `get_router` does for a namespace without one |
| `routerStep`        | what `get_router(namespace)` does next |
-/

namespace Atasks.Router

open Machine
open Amqp.Consumers (Failure)

/-! ## Transports of one's own -/

section own

variable {α : Type} {own : TransportId → Prop} {s s' : State α} {k : TaskId}

def Op.Within (own : TransportId → Prop) : Op → Prop
  | .activate (some t) => own t
  | _ => True

def Task.Within (own : TransportId → Prop) : Task → Prop
  | .unregistering t _ _ _ _ op => own t ∧ op.Within own
  | .registering t _ _ _ _ => own t
  | .finished _ => True

/-- A router that has been handed loopback transports in `own` only has not touched another. -/
structure Uses (own : TransportId → Prop) (s : State α) : Prop where
  server : ∀ t, s.server = some t → own t
  tasks : ∀ k task, s.tasks k = some task → task.Within own
  loopback : ∀ t, ∃ l, s.transports t = .loopback l
  others : ∀ t, ¬ own t → s.transports t = .loopback .empty

theorem Op.Within.mono {own' : TransportId → Prop} (hown : ∀ t, own t → own' t) {op : Op}
    (h : op.Within own) : op.Within own' := by
  match op with
  | .activate (some t) => exact hown t h
  | .activate none | .deactivate => trivial

theorem Task.Within.mono {own' : TransportId → Prop} (hown : ∀ t, own t → own' t) {task : Task}
    (h : task.Within own) :
    task.Within own' := by
  cases task with
  | unregistering t kind name rest kinds op => exact ⟨hown t h.1, h.2.mono hown⟩
  | registering t kind name rest names => exact hown t h
  | finished o => trivial

theorem Uses.mono {own' : TransportId → Prop} (h : Uses own s) (hown : ∀ t, own t → own' t) :
    Uses own' s :=
  ⟨fun t ht => hown t (h.server t ht), fun k task hk => (h.tasks k task hk).mono hown, h.loopback,
    fun t ht => h.others t fun ho => ht (hown t ho)⟩

theorem Uses.setTask (h : Uses own s) (k : TaskId) {task : Task} (htask : task.Within own) :
    Uses own (s.setTask k task) := by
  refine ⟨h.server, fun k' task' hk => ?_, h.loopback, h.others⟩
  rcases Dict.lookup_update hk with ⟨-, rfl⟩ | ⟨-, hold⟩
  · exact htask
  · exact h.tasks k' task' hold

theorem Uses.setTransport (h : Uses own s) {t : TransportId} (ht : own t) (l : Loopback Callback) :
    Uses own (s.setTransport t (.loopback l)) := by
  refine ⟨h.server, h.tasks, fun t' => ?_, fun t' ht' => ?_⟩
  · by_cases heq : t' = t
    · exact ⟨l, by simp [State.setTransport, heq]⟩
    · obtain ⟨l', hl⟩ := h.loopback t'
      exact ⟨l', by simp [State.setTransport, heq, hl]⟩
  · have heq : t' ≠ t := by
      rintro rfl
      exact ht' ht
    simp [State.setTransport, heq, h.others t' ht']

theorem Uses.activateNames (h : Uses own s) (k : TaskId) (names : Kind → List String)
    (rest : Names) :
    Uses own (activateNames s k names rest) := by
  cases rest with
  | nil =>
    have h' : Uses own { s with activated := names } := ⟨h.server, h.tasks, h.loopback, h.others⟩
    exact h'.setTask k trivial
  | cons p rest =>
    simp only [Router.activateNames]
    cases hserver : s.server with
    | none => exact h.setTask k trivial
    | some t => exact h.setTask k (h.server t hserver)

theorem Uses.enter (h : Uses own s) (k : TaskId) {server : Option TransportId}
    (hop : (Op.activate server).Within own) :
    Uses own (enter s k server) := by
  cases server with
  | none =>
    have h' : Uses own { s with server := none } := ⟨by simp, h.tasks, h.loopback, h.others⟩
    exact h'.setTask k trivial
  | some t =>
    have h' : Uses own { s with server := some t } := by
      refine ⟨fun t' ht' => ?_, h.tasks, h.loopback, h.others⟩
      cases ht'
      exact hop
    exact h'.activateNames k _ _

theorem Uses.leave (h : Uses own s) (k : TaskId) {op : Op} (hop : op.Within own) :
    Uses own (leave s k op) := by
  have h' : Uses own { s with activated := fun _ => [], server := none } :=
    ⟨by simp, h.tasks, h.loopback, h.others⟩
  cases op with
  | deactivate => exact h'.setTask k trivial
  | activate server => exact h'.enter k hop

theorem Uses.deactivateLoop (h : Uses own s) (k : TaskId) {op : Op} (hop : op.Within own) :
    ∀ (kind : Kind) (rest : List String) (kinds : List Kind),
    Uses own (deactivateLoop s k op kind rest kinds)
  | kind, name :: rest, kinds => by
    simp only [Router.deactivateLoop]
    cases hserver : s.server with
    | none => exact h.setTask k trivial
    | some t => exact h.setTask k ⟨h.server t hserver, hop⟩
  | kind, [], kind' :: kinds => Uses.deactivateLoop h k hop kind' (s.activated kind') kinds
  | kind, [], [] => h.leave k hop

theorem Uses.start (h : Uses own s) {op : Op} (hop : op.Within own) (hs : start s k op = some s') :
    Uses own s' := by
  unfold Router.start at hs
  split at hs
  · cases hs
  · split at hs
    · cases hs
      exact h.setTask k trivial
    · split at hs
      · cases hs
        exact h.enter k hop
      · cases hs
        exact h.deactivateLoop k hop _ _ _

theorem Uses.completes (h : Uses own s) (hs : completes s k = some s') : Uses own s' := by
  unfold Router.completes at hs
  split at hs
  · rename_i t kind name rest kinds op hk
    cases hs
    obtain ⟨ht, hop⟩ := h.tasks k _ hk
    obtain ⟨l, hl⟩ := h.loopback t
    rw [hl]
    exact (h.setTransport ht _).deactivateLoop k hop kind rest kinds
  · rename_i t kind name rest names hk
    cases hs
    obtain ⟨l, hl⟩ := h.loopback t
    rw [hl]
    exact (h.setTransport (h.tasks k _ hk) _).activateNames k names rest
  · cases hs

/-- A loopback transport never raises. -/
theorem Uses.raises (h : Uses own s) {f : Failure} (hs : raises s k f = some s') : False := by
  unfold Router.raises at hs
  split at hs
  · rename_i t kind name rest kinds op hk
    obtain ⟨l, hl⟩ := h.loopback t
    rw [hl] at hs
    cases hs
  · rename_i t kind name rest names hk
    obtain ⟨l, hl⟩ := h.loopback t
    rw [hl] at hs
    cases hs
  · cases hs

def Event.Within (own : TransportId → Prop) : Event α → Prop
  | .start _ op => op.Within own
  | _ => True

theorem Uses.step (h : Uses own s) {e : Event α} (he : e.Within own) (hs : step s e = some s') :
    Uses own s' := by
  cases e with
  | register kind name item =>
    cases hs
    rcases registerTask_cases s kind name item with ⟨e, heq⟩ | ⟨-, m, -, heq⟩
    · rw [heq]
      exact h
    · rw [heq]
      exact ⟨h.server, h.tasks, h.loopback, h.others⟩
  | start k op => exact h.start he hs
  | completes k => exact h.completes hs
  | raises k f => exact (h.raises hs).elim
  | delivered t kind name i =>
    simp only [Router.step, delivered] at hs
    split at hs <;> cases hs
    exact ⟨h.server, h.tasks, h.loopback, h.others⟩
  | looksUp i =>
    simp only [Router.step, looksUp] at hs
    split at hs <;> cases hs
    exact ⟨h.server, h.tasks, h.loopback, h.others⟩

end own

/-! ## The namespaces of a process -/

/-- A `Router`, and its calls under way. -/
structure RouterObject where
  settings : Trace.Settings
  server : Option TransportId
  activated : Kind → List String
  tasks : TaskId → Option Task
  received : List Callback
  jobNotFound : Bool

def RouterObject.new (settings : Trace.Settings) : RouterObject :=
    ⟨settings, none, fun _ => [], fun _ => none, [], false⟩

/-- `Router(namespace)`, without further options. -/
def defaultSettings (hostname name : String) : Trace.Settings := ⟨name, hostname, 1000, [], true⟩

structure RegistryItem (ν ε ω : Type) where
  codec : Option (Codec ν ε) := none
  transport : Option TransportId := none
  router : Option RouterObject := none
  registries : Option (Kind → Manager (Item ν ε ω)) := none

/-- `self.__dict__.update(other.__dict__)`. -/
def RegistryItem.update {ν ε ω : Type} (item other : RegistryItem ν ε ω) : RegistryItem ν ε ω :=
  ⟨other.codec.or item.codec, other.transport.or item.transport, other.router.or item.router,
    other.registries.or item.registries⟩

structure Globals (ν ε ω : Type) where
  namespaces : Dict String (RegistryItem ν ε ω)
  /-- The transports constructed in each namespace. -/
  transports : String → TransportId → Option Transport

namespace Globals

variable {ν ε ω : Type}

def init : Globals ν ε ω := ⟨.empty, fun _ _ => none⟩

variable (g : Globals ν ε ω)

def register (name : String) (options : RegistryItem ν ε ω) : Globals ν ε ω :=
  match g.namespaces.get? name with
  | some old => { g with namespaces := g.namespaces.set name (old.update options) }
  | none => { g with namespaces := g.namespaces.set name options }

def get (name : String) : RegistryItem ν ε ω := (g.namespaces.get? name).getD {}

/-- `Codec.__init__`. -/
def newCodec (name : String) (codec : Codec ν ε) : Globals ν ε ω :=
    g.register name { codec := some codec }

/-- `Transport.__init__` and `LoopbackTransport.__init__`. -/
def newTransport (name : String) (t : TransportId) : Globals ν ε ω :=
  { g with
    transports := Function.update g.transports name
      (Function.update (g.transports name) t (some (.loopback .empty))) }.register
    name { transport := some t }

/-- `Router.__init__`. -/
def newRouter (name : String) (settings : Trace.Settings) : Globals ν ε ω :=
  g.register name
    { router := some (.new { settings with
    nspace := name }), registries := some fun _ => .empty name }

/-- What the router of the namespace works on. -/
def stateOf (name : String) (router : RouterObject) : State (Item ν ε ω) where
  registries := (g.get name).registries.getD fun _ => .empty name
  server := router.server
  activated := router.activated
  transports t := (g.transports name t).getD (.loopback .empty)
  tasks := router.tasks
  received := router.received
  jobNotFound := router.jobNotFound

def withState (name : String) (router : RouterObject) (s : State (Item ν ε ω)) : Globals ν ε ω where
  namespaces := g.namespaces.set name
    { g.get name with
      router := some ⟨router.settings, s.server, s.activated, s.tasks, s.received, s.jobNotFound⟩
      registries := some s.registries }
  transports := Function.update g.transports name fun t => (g.transports name t).map fun _ =>
    s.transports t

/-- A router is activated on transports of its own namespace. -/
def allows (name : String) : Router.Event (Item ν ε ω) → Bool
  | .start _ (.activate (some t)) => (g.transports name t).isSome
  | _ => true

def routerStep (name : String) (e : Router.Event (Item ν ε ω)) : Option (Globals ν ε ω) :=
  match (g.get name).router with
  | none => none
  | some router =>
    if g.allows name e then (Router.step (g.stateOf name router) e).map (g.withState name router)
      else none

inductive Event (ν ε ω : Type)
  | codec (name : String) (codec : Codec ν ε)
  | transport (name : String) (t : TransportId)
  | router (name : String) (settings : Trace.Settings)
  | on (name : String) (e : Router.Event (Item ν ε ω))

/-- The namespace an event concerns. -/
def Event.nspace : Event ν ε ω → String
  | .codec name _ | .transport name _ | .router name _ | .on name _ => name

/-- One router a namespace; a new transport is none of those there are. -/
def step : Event ν ε ω → Option (Globals ν ε ω)
  | .codec name codec => some (g.newCodec name codec)
  | .transport name t => if (g.transports name t).isSome then none else some (g.newTransport name t)
  | .router name settings =>
    if (g.get name).router.isSome then none else some (g.newRouter name settings)
  | .on name e => g.routerStep name e

/-- What a router of the namespace has to go by; before there is one, what it will have. -/
def view (name : String) : State (Item ν ε ω) :=
    g.stateOf name ((g.get name).router.getD (.new (defaultSettings "" name)))

/-! ## The map -/

variable {g} {name name' : String}

theorem get_register (options : RegistryItem ν ε ω) :
    (g.register name options).get name' = if name' = name then (g.get name).update options
    else g.get name' := by
  unfold register get
  cases hget : g.namespaces.get? name with
  | some old =>
    by_cases hn : name' = name <;> simp [Dict.get?_set, hn]
  | none =>
    by_cases hn : name' = name <;> simp [Dict.get?_set, hn, RegistryItem.update]

@[simp] theorem transports_register (options : RegistryItem ν ε ω) :
    (g.register name options).transports = g.transports := by
  unfold register
  split <;> rfl

theorem get_withState (router : RouterObject) (s : State (Item ν ε ω)) :
    (g.withState name router s).get name' =
      if name' = name then
        { g.get name with
          router := some ⟨router.settings, s.server, s.activated, s.tasks, s.received,
            s.jobNotFound⟩
          registries := some s.registries }
      else g.get name' := by
  unfold withState get
  by_cases hn : name' = name <;> simp [Dict.get?_set, hn]

/-- What there is of a namespace. -/
def site (g : Globals ν ε ω) (name : String) :
    RegistryItem ν ε ω × (TransportId → Option Transport) :=
  (g.get name, g.transports name)

theorem view_congr {g' : Globals ν ε ω} (h : g.site name = g'.site name) :
    g.view name = g'.view name := by
  obtain ⟨hget, htransports⟩ := Prod.mk.inj h
  simp only [view, stateOf, hget, htransports]

theorem site_newCodec (codec : Codec ν ε) (hne : name' ≠ name) :
    (g.newCodec name codec).site name' = g.site name' := by
  simp [site, newCodec, get_register, hne]

theorem site_newTransport (t : TransportId) (hne : name' ≠ name) :
    (g.newTransport name t).site name' = g.site name' := by
  simp only [site, newTransport, get_register, if_neg hne, transports_register,
    Function.update_of_ne hne]
  rfl

theorem site_newRouter (settings : Trace.Settings) (hne : name' ≠ name) :
    (g.newRouter name settings).site name' = g.site name' := by
  simp [site, newRouter, get_register, hne]

theorem site_withState (router : RouterObject) (s : State (Item ν ε ω)) (hne : name' ≠ name) :
    (g.withState name router s).site name' = g.site name' := by
  rw [site, get_withState, if_neg hne]
  simp only [withState, Function.update_of_ne hne, site]

theorem routerStep_cases {e : Router.Event (Item ν ε ω)} {g' : Globals ν ε ω}
    (hs : g.routerStep name e = some g') :
    ∃ router s, (g.get name).router = some router ∧ g.allows name e = true ∧
      Router.step (g.stateOf name router) e = some s ∧ g' = g.withState name router s := by
  unfold routerStep at hs
  split at hs
  · cases hs
  · rename_i router hrouter
    split at hs
    · rename_i hallows
      obtain ⟨s, hstep, rfl⟩ := Option.map_eq_some_iff.1 hs
      exact ⟨router, s, hrouter, hallows, hstep, rfl⟩
    · cases hs

/-- **Separation.** An event of one namespace leaves the others alone. -/
theorem site_step_of_ne {e : Event ν ε ω} {g' : Globals ν ε ω} (hs : g.step e = some g')
    (hne : name ≠ e.nspace) :
    g'.site name = g.site name := by
  cases e with
  | codec name' codec =>
    cases hs
    exact site_newCodec codec hne
  | transport name' t =>
    simp only [step] at hs
    split at hs
    · cases hs
    · cases hs
      exact site_newTransport t hne
  | router name' settings =>
    simp only [step] at hs
    split at hs
    · cases hs
    · cases hs
      exact site_newRouter settings hne
  | on name' e =>
    obtain ⟨router, s, -, -, -, rfl⟩ := routerStep_cases hs
    exact site_withState router s hne

/-- An event does the same to a namespace wherever the namespace is the same. -/
theorem site_step_congr {e : Event ν ε ω} {h g' h' : Globals ν ε ω}
    (hsite : g.site e.nspace = h.site e.nspace)
    (hg : g.step e = some g') (hh : h.step e = some h') : g'.site e.nspace = h'.site e.nspace := by
  obtain ⟨hget, htransports⟩ := Prod.mk.inj hsite
  cases e with
  | codec name codec =>
    cases hg
    cases hh
    simp only [Event.nspace] at hget htransports ⊢
    simp [site, newCodec, get_register, hget, htransports]
  | transport name t =>
    simp only [Event.nspace] at hget htransports ⊢
    simp only [step] at hg hh
    split at hg
    · cases hg
    · split at hh
      · cases hh
      · cases hg
        cases hh
        simp only [site, newTransport, get_register, if_true, transports_register,
          Function.update_self, htransports]
        exact congrArg (fun item : RegistryItem ν ε ω => (item.update _, _)) hget
  | router name settings =>
    simp only [Event.nspace] at hget htransports ⊢
    simp only [step] at hg hh
    split at hg
    · cases hg
    · split at hh
      · cases hh
      · cases hg
        cases hh
        simp [site, newRouter, get_register, hget, htransports]
  | on name e =>
    simp only [Event.nspace] at hget htransports ⊢
    obtain ⟨router, s, hrouter, -, hstep, rfl⟩ := routerStep_cases hg
    obtain ⟨router', s', hrouter', -, hstep', rfl⟩ := routerStep_cases hh
    obtain rfl : router = router' := by
      rw [hget, hrouter'] at hrouter
      exact (Option.some.inj hrouter).symm
    have hstate : g.stateOf name router = h.stateOf name router := by
      simp only [stateOf, hget, htransports]
    obtain rfl : s = s' := by
      rw [hstate, hstep'] at hstep
      exact (Option.some.inj hstep).symm
    simp only [site, get_withState, if_true, hget]
    simp [withState, htransports]

/-! ## What the router of a namespace does -/

structure Ok (g : Globals ν ε ω) : Prop where
  uses : ∀ name, Uses (fun t => (g.transports name t).isSome) (g.view name)
  /-- `Router.__init__` registers itself and its registries together. -/
  together : ∀ name, (g.get name).router = none → (g.get name).registries = none

theorem ok_init : (init : Globals ν ε ω).Ok where
  uses _ := ⟨by simp [view, stateOf, init, get, RouterObject.new], by simp [view, stateOf, init,
    get, RouterObject.new],
    fun _ => ⟨_, rfl⟩, fun _ _ => rfl⟩
  together _ _ := rfl

theorem view_newCodec (codec : Codec ν ε) (name' : String) :
    (g.newCodec name codec).view name' = g.view name' := by
  by_cases hn : name' = name
  · subst hn
    simp [view, stateOf, newCodec, get_register, RegistryItem.update]
  · exact view_congr (site_newCodec codec hn)

theorem view_newTransport {t : TransportId} (ht : g.transports name t = none) (name' : String) :
    (g.newTransport name t).view name' = g.view name' := by
  by_cases hn : name' = name
  · subst hn
    simp only [view, stateOf, newTransport, get_register, if_true, transports_register,
      Function.update_self]
    have htransports : ∀ t', (Function.update (g.transports name') t
      (some (.loopback .empty)) t').getD (.loopback .empty) =
        (g.transports name' t').getD (.loopback .empty) := by
      intro t'
      by_cases heq : t' = t
      · simp [heq, ht]
      · simp [heq]
    simp only [htransports]
    rfl
  · exact view_congr (site_newTransport t hn)

theorem view_newRouter (hrouter : (g.get name).router = none)
    (hregistries : (g.get name).registries = none) (settings : Trace.Settings) (name' : String) :
    (g.newRouter name settings).view name' = g.view name' := by
  by_cases hn : name' = name
  · subst hn
    simp [view, stateOf, newRouter, get_register, RegistryItem.update, hrouter, hregistries,
      RouterObject.new]
  · exact view_congr (site_newRouter settings hn)

/-- The router works on what there is of its namespace, and leaves it so. -/
theorem routerStep_eq_some {e : Router.Event (Item ν ε ω)} {g' : Globals ν ε ω} (hok : g.Ok)
    (hs : g.routerStep name e = some g') :
    e.Within (fun t => (g.transports name t).isSome) ∧
    Router.step (g.view name) e = some (g'.view name) ∧
      (∀ t, (g'.transports name t).isSome = (g.transports name t).isSome) ∧
      (g'.get name).router ≠ none := by
  obtain ⟨router, s, hrouter, hallows, hstep, rfl⟩ := routerStep_cases hs
  have hview : g.view name = g.stateOf name router := by rw [view, hrouter, Option.getD_some]
  have hwithin : e.Within (fun t => (g.transports name t).isSome) := by
    cases e with
    | start k op =>
      match op with
      | .activate (some t) => exact hallows
      | .activate none | .deactivate => trivial
    | _ => trivial
  have huses := (hok.uses name).step hwithin (hview ▸ hstep)
  refine ⟨hwithin, ?_, fun t => ?_, ?_⟩
  · have htransports : (fun t => ((g.withState name router s).transports name t).getD
        (.loopback .empty)) = s.transports := by
      funext t
      cases ht : g.transports name t with
      | some tr => simp [withState, ht]
      | none => simp [withState, ht, huses.others t (by simp [ht])]
    rw [hview, hstep, view, get_withState, if_pos rfl, Option.getD_some, stateOf, get_withState,
      if_pos rfl, htransports]
    rfl
  · simp [withState]
  · rw [get_withState, if_pos rfl]
    simp

/-- An event either is one of a router, which takes a step, or no router notices. -/
theorem view_step {e : Event ν ε ω} {g' : Globals ν ε ω} (hok : g.Ok) (hs : g.step e = some g') :
    (∃ name e', e = .on name e' ∧ Router.step (g.view name) e' = some (g'.view name) ∧
        ∀ name', name' ≠ name → g'.view name' = g.view name') ∨
      (∀ name e', e ≠ .on name e') ∧ ∀ name, g'.view name = g.view name := by
  cases e with
  | on name e =>
    refine Or.inl ⟨name, e, rfl, (routerStep_eq_some hok hs).2.1, fun name' hne => ?_⟩
    exact view_congr (site_step_of_ne (e := .on name e) hs hne)
  | codec name codec =>
    cases hs
    exact Or.inr ⟨by simp, view_newCodec codec⟩
  | transport name t =>
    simp only [step] at hs
    split at hs
    · cases hs
    · rename_i hnew
      cases hs
      exact Or.inr ⟨by simp, view_newTransport (by simpa using hnew)⟩
  | router name settings =>
    simp only [step] at hs
    split at hs
    · cases hs
    · rename_i hnew
      cases hs
      have hrouter : (g.get name).router = none := by simpa using hnew
      exact Or.inr ⟨by simp, view_newRouter hrouter (hok.together name hrouter) settings⟩

theorem Ok.step {e : Event ν ε ω} {g' : Globals ν ε ω} (hok : g.Ok) (hs : g.step e = some g') :
    g'.Ok := by
  have hgrows : ∀ t, (g.transports e.nspace t).isSome = true →
      (g'.transports e.nspace t).isSome = true := by
    intro t ht
    cases e with
    | codec name codec =>
      cases hs
      simpa [newCodec] using ht
    | transport name t' =>
      simp only [Globals.step] at hs
      split at hs
      · cases hs
      · cases hs
        simp only [Event.nspace] at ht ⊢
        simp only [newTransport, transports_register, Function.update_self]
        by_cases heq : t = t'
        · simp [heq]
        · simpa [heq] using ht
    | router name settings =>
      simp only [Globals.step] at hs
      split at hs
      · cases hs
      · cases hs
        simpa [newRouter] using ht
    | on name e => rwa [Event.nspace, (routerStep_eq_some hok hs).2.2.1]
  have hother : ∀ name, name ≠ e.nspace → g'.site name = g.site name :=
    fun name hne => site_step_of_ne hs hne
  refine ⟨fun name => ?_, fun name hrouter => ?_⟩
  · by_cases hn : name = e.nspace
    · subst hn
      rcases view_step hok hs with ⟨name, e', rfl, hstep, -⟩ | ⟨-, hsame⟩
      · have hwithin := (routerStep_eq_some hok hs).1
        exact ((hok.uses name).step hwithin hstep).mono hgrows
      · rw [hsame]
        exact (hok.uses _).mono hgrows
    · rw [view_congr (hother name hn), (Prod.mk.inj (hother name hn)).2]
      exact hok.uses name
  · by_cases hn : name = e.nspace
    · subst hn
      cases e with
      | codec name codec =>
        cases hs
        simp only [Event.nspace, newCodec, get_register, if_true, RegistryItem.update,
          Option.none_or] at hrouter ⊢
        exact hok.together name hrouter
      | transport name t =>
        simp only [Globals.step] at hs
        split at hs
        · cases hs
        · cases hs
          simp only [Event.nspace, newTransport, get_register, if_true, RegistryItem.update,
            Option.none_or] at hrouter ⊢
          exact hok.together name hrouter
      | router name settings =>
        simp only [Globals.step] at hs
        split at hs
        · cases hs
        · cases hs
          simp [Event.nspace, newRouter, get_register, RegistryItem.update] at hrouter
      | on name e => exact absurd hrouter (routerStep_eq_some hok hs).2.2.2
    · rw [(Prod.mk.inj (hother name hn)).1] at hrouter ⊢
      exact hok.together name hrouter

/-- The calls of `activate` and `deactivate` of each router follow each other. -/
def Serialized (g : Globals ν ε ω) (e : Event ν ε ω) (g' : Globals ν ε ω) : Prop :=
  match e with
  | .on name e => Router.Serialized (g.view name) e (g'.view name)
  | _ => True

/-- Every router is what it would be alone. -/
structure Sound (g : Globals ν ε ω) : Prop extends Ok g where
  routers : ∀ name, Inv (g.view name)

theorem sound_init : (init : Globals ν ε ω).Sound where
  toOk := ok_init
  routers _ :=
    ⟨.rest ⟨fun _ => rfl, fun _ => Transport.Fresh.holds (Or.inl rfl)⟩
      (by simp [view, stateOf, init, get, RouterObject.new]),
      by simp [view, stateOf, init, get, RouterObject.new], rfl⟩

theorem Sound.step {e : Event ν ε ω} {g' : Globals ν ε ω} (h : g.Sound)
    (hserial : Serialized g e g') (hs : g.step e = some g') :
    g'.Sound := by
  refine ⟨h.toOk.step hs, fun name => ?_⟩
  rcases view_step h.toOk hs with ⟨name', e', rfl, hstep, hsame⟩ | ⟨-, hsame⟩
  · by_cases hn : name = name'
    · subst hn
      exact (h.routers name).step hserial hstep
    · rw [hsame name hn]
      exact h.routers name
  · rw [hsame]
    exact h.routers name

theorem run_sound {es : List (Event ν ε ω)} (hserial : Along step Serialized init es)
    (hrun : run step init es = some g) :
    g.Sound :=
  run_invariant_of_along (fun _ _ _ (h : Sound _) hR (hs : step _ _ = _) => h.step hR hs) es hserial
    hrun sound_init

end Globals

end Atasks.Router
