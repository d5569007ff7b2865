import Atasks.Commands.Service
/-!
# What `aiomain` releases

`Released` is what a service owes: every transport it connected is disconnected, every router
it activated is deactivated, and a router before its transport. `released_iff` says exactly
when a run of `aiomain` does that, whatever fails (`Orderly`). It does not when

* an activation fails after another one succeeded: the activations are outside the inner `try`;
* the systemd heartbeat has failed: its exception skips the deactivations;
* a `deactivate` or a `disconnect` raises before the last one: the loops stop there;
* a scenario module has constructed a transport in the namespace of a connected one: the
  transports are looked up by namespace;
* the cleanup of the health endpoint raises, or the connect of a later namespace raises
  something else than an `Exception`: nothing is disconnected at all.
-/

namespace Atasks.Commands

open Attempt

/-- What a run that has logged `log` owes to what it acquired. -/
structure Released (log : List Event) : Prop where
  disconnected : ∀ name, .connected name ∈ log → .disconnected (.own name) ∈ log
  deactivated : ∀ name, .activated name ∈ log → .deactivated name ∈ log
  ordered : ∀ name pre post, log = pre ++ .disconnected (.own name) :: post →
    .activated name ∈ log →
    .deactivated name ∈ pre

namespace World

variable (w : World)

/-! ## How far a run gets -/

def connects : Bool := w.namespaces.all fun ns => w.connect ns.name = .ok

/-- The health endpoint, if there is one, is up. -/
def starts : Bool := w.connects && w.health.all Health.starts

/-- All modules have been imported. -/
def imports : Bool := w.starts && w.modules.all Module.imports

/-- All servers are active: the inner `try` is entered. -/
def serves : Bool := w.imports && w.servers.all fun ns => w.activates ns.name

def imported : List Module := if w.starts then untilRaise Module.imports w.modules else []

def systemdStarts : Bool := w.systemd.all Systemd.starts

def gathers : Bool := w.serves && w.systemdStarts && w.modules.any Module.hasAiomain

def listens : Bool := w.serves && w.systemdStarts && w.shouldListen &&
    !(w.gathers && w.scenario.raises)

/-- The transports that modules and scenarios construct in a run. -/
def constructed : List Constructed :=
  w.imported.flatMap Module.constructs ++ (if w.gathers then w.scenario.constructs else []) ++
    if w.listens then w.listening.constructs else []

/-- The transport of a namespace when it comes to disconnecting. -/
def transportOf (name : String) : Object :=
  (w.constructed.filterMap fun c => if c.namespaceName = name then some (.scenario c.id)
    else none).getLast?.getD (.own name)

/-- The heartbeat task was created and has failed. -/
def heartbeatFails : Bool := w.systemd.any fun d => d.starts && d.fails

/-- **The runs in which everything is released.** -/
structure Orderly : Prop where
  connecting : ∀ pre ns post, w.namespaces = pre ++ ns :: post →
    (∀ p ∈ pre, w.connect p.name = .ok) →
    w.connect ns.name = .raised false → pre = []
  health : w.connects = true → w.health.any (fun h => h.starts && !h.stops) = true →
    w.namespaces = []
  /-- The transport of a connected namespace is still the one that was connected, it has not
  lost its connection, and no disconnect before its own raises. -/
  disconnecting : ∀ pre ns post, w.namespaces = pre ++ ns :: post →
    (∀ p ∈ pre ++ [ns], w.connect p.name = .ok) →
    w.transportOf ns.name = .own ns.name ∧ w.isConnected (.own ns.name) = true ∧
      ∀ p ∈ pre, w.isConnected (w.transportOf p.name) = true →
        w.disconnects (w.transportOf p.name) = true
  activating : w.imports = true → ∀ pre ns post, w.servers = pre ++ ns :: post →
    (∀ p ∈ pre, w.activates p.name = true) → w.activates ns.name = false → pre = []
  heartbeat : w.serves = true → w.heartbeatFails = true → w.servers = []
  deactivating : w.serves = true → ∀ pre ns post, w.servers = pre ++ ns :: post → ∀ p ∈ pre,
    w.deactivates p.name = true

end World

/-! ## The transport of a namespace -/

theorem getTransport_append (log log' : List Event) (name : String) :
    getTransport (log ++ log') name = (getTransport log' name).or (getTransport log name) := by
  rw [getTransport, List.filterMap_append, List.getLast?_append]
  rfl

theorem getTransport_eq_none {log : List Event} {name : String}
    (h : ∀ e ∈ log, e.puts name = none) :
    getTransport log name = none := by
  rw [getTransport, List.filterMap_eq_nil_iff.2 h]
  rfl

/-- What connecting a namespace logs. -/
def acquired (ns : NamespaceSpec) : List Event :=
    [.constructed ns.name (.own ns.name), .connected ns.name]

/-- What constructing transports logs. -/
def constructs (cs : List Constructed) : List Event := cs.map fun c => .constructed c.namespaceName
    (.scenario c.id)

@[simp] theorem constructs_nil : constructs [] = [] := rfl

@[simp] theorem constructs_append (cs cs' : List Constructed) : constructs
    (cs ++ cs') = constructs cs ++ constructs cs' :=
  List.map_append

theorem puts_acquired (ns : NamespaceSpec) (name : String) :
    (acquired ns).filterMap (Event.puts name) = if ns.name = name then [.own ns.name] else [] := by
  by_cases hn : ns.name = name
  · rw [if_pos hn]
    simp only [acquired, List.filterMap_cons, Event.puts, if_pos hn, List.filterMap_nil]
  · rw [if_neg hn]
    simp only [acquired, List.filterMap_cons, Event.puts, if_neg hn, List.filterMap_nil]

theorem getTransport_acquired (l : List NamespaceSpec) (name : String) :
    getTransport (l.flatMap acquired) name = if name ∈
    l.map NamespaceSpec.name then some (.own name) else none := by
  induction l with
  | nil => rfl
  | cons ns l ih =>
    rw [List.flatMap_cons, getTransport_append, ih]
    by_cases hl : name ∈ l.map NamespaceSpec.name
    · simp only [hl, if_true, Option.some_or, List.map_cons, List.mem_cons, or_true]
    · rw [getTransport, puts_acquired]
      by_cases hn : ns.name = name
      · subst hn
        simp [hl]
      · simp [hl, hn, Ne.symm hn]

theorem getTransport_constructs (cs : List Constructed) (name : String) :
    getTransport (constructs cs) name =
      (cs.filterMap fun c => if c.namespaceName = name then some (.scenario c.id)
        else none).getLast? := by
  rw [getTransport, constructs, List.filterMap_map]
  rfl

namespace World

variable {w : World}

/-! ## What each piece logs -/

theorem connectNamespaces_eq (l : List NamespaceSpec) (log : List Event) :
    (∃ pre ns post b, l = pre ++ ns :: post ∧ (∀ p ∈ pre, w.connect p.name = .ok) ∧
      w.connect ns.name = .raised b ∧
        w.connectNamespaces l log =
          (log ++ (pre.flatMap acquired ++ [.constructed ns.name (.own ns.name)]), .raised b)) ∨
      (∀ p ∈ l, w.connect p.name = .ok) ∧
      w.connectNamespaces l log = (log ++ l.flatMap acquired, .ok) := by
  induction l generalizing log with
  | nil => exact Or.inr ⟨by simp, by simp [connectNamespaces]⟩
  | cons ns l ih =>
    rw [connectNamespaces]
    cases hns : w.connect ns.name with
    | raised b => exact Or.inl ⟨[], ns, l, b, rfl, by simp, hns, by simp⟩
    | ok =>
      dsimp only
      rcases ih (log ++ [.constructed ns.name (.own ns.name)] ++ [.connected ns.name]) with
        ⟨pre, f, post, b, rfl, hpre, hf, heq⟩ | ⟨hl, heq⟩
      · refine Or.inl ⟨ns :: pre, f, post, b, rfl, ?_, hf, ?_⟩
        · intro p hp
          rcases List.mem_cons.1 hp with rfl | hp
          · exact hns
          · exact hpre p hp
        · rw [heq]
          simp [acquired]
      · refine Or.inr ⟨?_, ?_⟩
        · intro p hp
          rcases List.mem_cons.1 hp with rfl | hp
          · exact hns
          · exact hl p hp
        · rw [heq]
          simp [acquired]

/-- The disconnecting loop, when `reg` is what `get_transport` returns throughout. -/
theorem disconnecting_emits {reg : String → Option Object} (log : List Event)
    (hreg : ∀ name, getTransport log name = reg name) :
    ∃ evs ok, Emits w.disconnectConnectedTransports log evs ok ∧ ∀ e, e ∈ evs ↔
      ∃ pre ns post o, w.namespaces = pre ++ ns :: post ∧ reg ns.name = some o ∧
      w.isConnected o = true ∧
        e = .disconnected o ∧ ∀ p ∈ pre, ∀ o', reg p.name = some o' → w.isConnected o' = true →
        w.disconnects o' = true := by
  let ok : NamespaceSpec → Bool := fun ns => (reg ns.name).all fun o => !w.isConnected o ||
    w.disconnects o
  let ev : NamespaceSpec → List Event :=
    fun ns => ((reg ns.name).filter w.isConnected).toList.map .disconnected
  have hf : ∀ ns s, (∀ name, getTransport s name = reg name) → Emits (w.disconnectConnected ns) s
      (ev ns) (ok ns) := by
    intro ns s hs
    unfold Emits disconnectConnected
    rw [hs]
    cases hr : reg ns.name with
    | none => simp [skip, ev, ok, hr]
    | some o =>
      cases hc : w.isConnected o with
      | false => simp [skip, ev, ok, hr, hc, Option.filter]
      | true => simp [seq, emit, check, ev, ok, hr, hc, Option.filter]
  have hI : ∀ ns s, (∀ name, getTransport s name = reg name) → ∀ name,
      getTransport (s ++ ev ns) name = reg name := by
    intro ns s hs name
    rw [getTransport_append, hs, getTransport_eq_none, Option.none_or]
    intro e he
    obtain ⟨o, -, rfl⟩ := List.mem_map.1 he
    rfl
  refine ⟨_, _, emits_each hf hI w.namespaces log hreg, fun e => ?_⟩
  have hok : ∀ p : NamespaceSpec, ok p = true ↔ ∀ o', reg p.name = some o' →
      w.isConnected o' = true → w.disconnects o' = true := by
    intro p
    cases hr : reg p.name with
    | none => simp [ok, hr]
    | some o =>
      cases hc : w.isConnected o <;> simp [ok, hr, hc]
  simp only [List.mem_flatMap, mem_untilRaise]
  constructor
  · rintro ⟨ns, ⟨pre, post, hns, hpre⟩, he⟩
    obtain ⟨o, ho, rfl⟩ := List.mem_map.1 he
    obtain ⟨hr, hc⟩ := Option.filter_eq_some_iff.1 (Option.mem_toList.1 ho)
    exact ⟨pre, ns, post, o, hns, hr, hc, rfl, fun p hp => (hok p).1 (hpre p hp)⟩
  · rintro ⟨pre, ns, post, o, hns, hr, hc, rfl, hpre⟩
    refine ⟨ns, ⟨pre, post, hns, fun p hp => (hok p).2 (hpre p hp)⟩, ?_⟩
    simp [ev, hr, hc]

/-! ## What the body logs -/

variable (w)

/-- The activations of a run in which everything has been imported. -/
def activations : List Event :=
  (untilRaise (fun ns => w.activates ns.name) w.servers).flatMap fun ns =>
    if w.activates ns.name then [.activated ns.name] else []

def deactivations : List Event :=
  (untilRaise (fun ns => w.deactivates ns.name) w.servers).map fun ns => .deactivated ns.name

variable {w}

theorem importModules_emits (s : List Event) :
    Emits w.importModules s
      (constructs ((untilRaise Module.imports w.modules).flatMap Module.constructs))
      (w.modules.all Module.imports) := by
  have hf : ∀ (m : Module) (s : List Event), True → Emits (importModule m) s
      (constructs m.constructs) m.imports := by
    intro m s _
    exact emits_emit_check s (constructs m.constructs) m.imports
  have h := emits_each hf (fun _ _ _ => trivial) w.modules s trivial
  rwa [constructs, List.map_flatMap]

theorem activateServers_emits (s : List Event) :
    Emits w.activateServers s w.activations (w.servers.all fun ns => w.activates ns.name) := by
  have hf : ∀ (ns : NamespaceSpec) (s : List Event), True →
      Emits (w.activate ns) s (if w.activates ns.name then [.activated ns.name] else [])
        (w.activates ns.name) := by
    intro ns s _
    have hc := emits_check s (w.activates ns.name)
    cases ha : w.activates ns.name with
    | true =>
      rw [ha] at hc
      simpa [World.activate, ha] using hc.seq (emits_emit _ [.activated ns.name])
    | false =>
      rw [ha] at hc
      simpa [World.activate, ha] using hc.seq_raise (emit [.activated ns.name])
  exact emits_each hf (fun _ _ _ => trivial) w.servers s trivial

theorem deactivating_emits (s : List Event) :
    Emits (each w.deactivate w.servers) s w.deactivations
      (w.servers.all fun ns => w.deactivates ns.name) := by
  have hf : ∀ (ns : NamespaceSpec) (s : List Event), True →
      Emits (w.deactivate ns) s [.deactivated ns.name] (w.deactivates ns.name) := by
    intro ns s _
    exact emits_emit_check s [.deactivated ns.name] _
  have h := emits_each hf (fun _ _ _ => trivial) w.servers s trivial
  rwa [← List.map_eq_flatMap] at h

theorem startHealth_emits (s : List Event) :
    Emits w.startHealth s [] (w.health.all Health.starts) := by
  cases hh : w.health with
  | none => simpa [startHealth, hh] using emits_skip s
  | some h => simpa [startHealth, hh] using emits_check s h.starts

theorem startSystemd_emits (s : List Event) : Emits w.startSystemd s [] w.systemdStarts := by
  cases hd : w.systemd with
  | none => simpa [startSystemd, systemdStarts, hd] using emits_skip s
  | some d => simpa [startSystemd, systemdStarts, hd] using emits_check s d.starts

theorem stopSystemd_emits (s : List Event) : Emits w.stopSystemd s [] (!w.heartbeatFails) := by
  cases hd : w.systemd with
  | none => simpa [stopSystemd, heartbeatFails, hd] using emits_skip s
  | some d =>
    cases hs : d.starts with
    | true => simpa [stopSystemd, heartbeatFails, hd, hs] using emits_check s (!d.fails)
    | false => simpa [stopSystemd, heartbeatFails, hd, hs] using emits_skip s

theorem stopHealth_emits (s : List Event) :
    Emits w.stopHealth s [] (!w.health.any fun h => h.starts && !h.stops) := by
  cases hh : w.health with
  | none => simpa [stopHealth, hh] using emits_skip s
  | some h =>
    cases hs : h.starts with
    | true => simpa [stopHealth, hh, hs] using emits_check s h.stops
    | false => simpa [stopHealth, hh, hs] using emits_skip s

theorem run_emits (r : Running) (s : List Event) :
    Emits (run r) s (constructs r.constructs) (!r.raises) :=
  emits_emit_check s (constructs r.constructs) _

theorem stopServing_emits (s : List Event) :
    ∃ ok, Emits w.stopServing s (if w.heartbeatFails then [] else w.deactivations) ok := by
  have hs := stopSystemd_emits (w := w) s
  cases hb : w.heartbeatFails with
  | true =>
    rw [hb] at hs
    exact ⟨false, hs.seq_raise _⟩
  | false =>
    rw [hb] at hs
    exact ⟨_, hs.seq (deactivating_emits _)⟩

/-- Gathering and listening construct transports and nothing else. -/
theorem serving_emits (h : w.serves = true) (s : List Event) :
    ∃ ok, Emits (seq w.startSystemd (seq w.gather w.listen)) s
      (constructs ((if w.gathers then w.scenario.constructs else []) ++
        if w.listens then w.listening.constructs else []))
      ok := by
  have hstart := startSystemd_emits (w := w) s
  cases hd : w.systemdStarts with
  | false =>
    rw [hd] at hstart
    refine ⟨false, ?_⟩
    simpa [gathers, listens, hd] using hstart.seq_raise (seq w.gather w.listen)
  | true =>
    rw [hd] at hstart
    have hg : Emits w.gather s (constructs (if w.gathers then w.scenario.constructs else []))
        (!(w.gathers && w.scenario.raises)) := by
      cases ha : w.modules.any Module.hasAiomain with
      | true => simpa [gather, gathers, h, hd, ha] using run_emits w.scenario s
      | false => simpa [gather, gathers, h, hd, ha] using emits_skip s
    cases hr : w.gathers && w.scenario.raises with
    | true =>
      rw [hr] at hg
      have := hstart.seq (q := seq w.gather w.listen) (by simpa using hg.seq_raise w.listen)
      exact ⟨false, by simpa [listens, hr] using this⟩
    | false =>
      rw [hr] at hg
      have hl : ∃ ok, Emits w.listen (s ++ constructs
        (if w.gathers then w.scenario.constructs else []))
          (constructs (if w.listens then w.listening.constructs else [])) ok := by
        cases hl : w.shouldListen with
        | true => exact ⟨_, by simpa [listen, listens, h, hd, hl, hr] using run_emits w.listening _⟩
        | false => exact ⟨true, by simpa [listen, listens, h, hd, hl] using emits_skip _⟩
      obtain ⟨ok, hl⟩ := hl
      have := hstart.seq (q := seq w.gather w.listen) (by simpa using hg.seq hl)
      exact ⟨ok, by simpa using this⟩

variable (w)

/-- What a run logs between connecting and releasing. -/
def ran : List Event :=
  constructs (w.imported.flatMap Module.constructs) ++ (if w.imports then w.activations else []) ++
    constructs ((if w.gathers then w.scenario.constructs else []) ++
      if w.listens then w.listening.constructs else []) ++
    if w.serves && !w.heartbeatFails then w.deactivations else []

variable {w}

theorem body_emits (h : w.connects = true) (s : List Event) :
    ∃ ok, Emits (seq w.startHealth (seq w.importModules (seq w.activateServers w.serve))) s
    w.ran ok := by
  have hstart := startHealth_emits (w := w) s
  cases hh : w.health.all Health.starts with
  | false =>
    rw [hh] at hstart
    have hs : w.starts = false := by simp [starts, hh]
    refine ⟨false, ?_⟩
    simpa [ran, imported, imports, serves, gathers, listens, hs] using hstart.seq_raise _
  | true =>
    rw [hh] at hstart
    have hs : w.starts = true := by simp [starts, hh, h]
    have himp := importModules_emits (w := w) (s ++ [])
    cases hm : w.modules.all Module.imports with
    | false =>
      rw [hm] at himp
      have hi : w.imports = false := by simp [imports, hm]
      refine ⟨false, ?_⟩
      simpa [ran, imported, serves, gathers, listens, hs, hi] using hstart.seq (himp.seq_raise _)
    | true =>
      rw [hm] at himp
      have hi : w.imports = true := by simp [imports, hm, hs]
      have hact := activateServers_emits (w := w)
        (s ++ [] ++ constructs ((untilRaise Module.imports w.modules).flatMap Module.constructs))
      cases ha : w.servers.all fun ns => w.activates ns.name with
      | false =>
        rw [ha] at hact
        have hv : w.serves = false := by simp [serves, ha]
        refine ⟨false, ?_⟩
        simpa [ran, imported, gathers, listens, hs, hi, hv] using
          hstart.seq (himp.seq (hact.seq_raise w.serve))
      | true =>
        rw [ha] at hact
        have hv : w.serves = true := by simp [serves, ha, hi]
        obtain ⟨ok, hserve⟩ := serving_emits hv
          (s ++ [] ++ constructs ((untilRaise Module.imports w.modules).flatMap
            Module.constructs) ++ w.activations)
        obtain ⟨ok', hstop⟩ := stopServing_emits (w := w)
          (s ++ [] ++ constructs ((untilRaise Module.imports w.modules).flatMap
            Module.constructs) ++ w.activations ++
            constructs ((if w.gathers then w.scenario.constructs else []) ++
              if w.listens then w.listening.constructs else []))
        have hall := hstart.seq (himp.seq (hact.seq (hserve.ensure hstop)))
        refine ⟨ok && ok', ?_⟩
        have heq : (if w.heartbeatFails then [] else w.deactivations) =
            if w.serves && !w.heartbeatFails then w.deactivations else [] := by
          cases w.heartbeatFails <;> simp [hv]
        rw [heq] at hall
        simpa [ran, serve, imported, hs, hi] using hall

/-- Only constructing puts a transport into a namespace. -/
theorem getTransport_ran (name : String) :
    getTransport w.ran name =
      (w.constructed.filterMap fun c => if c.namespaceName = name then some (.scenario c.id)
        else none).getLast? := by
  have hact : ∀ b : Bool, getTransport (if b then w.activations else []) name = none := by
    intro b
    apply getTransport_eq_none
    intro e he
    cases b with
    | false => simp at he
    | true =>
      obtain ⟨ns, -, he⟩ := List.mem_flatMap.1 he
      split at he
      · obtain rfl := List.mem_singleton.1 he
        rfl
      · simp at he
  have hdeact : ∀ b : Bool, getTransport (if b then w.deactivations else []) name = none := by
    intro b
    apply getTransport_eq_none
    intro e he
    cases b with
    | false => simp at he
    | true =>
      obtain ⟨ns, -, rfl⟩ := List.mem_map.1 he
      rfl
  rw [← getTransport_constructs, ran, getTransport_append, getTransport_append, getTransport_append,
    hact, hdeact,
    Option.none_or, Option.none_or, ← getTransport_append, ← constructs_append, ← List.append_assoc,
      constructed]

theorem own_of_transportOf {name name' : String} (h : w.transportOf name = .own name') :
    name = name' := by
  rw [transportOf] at h
  cases hl : (w.constructed.filterMap fun c => if c.namespaceName =
    name then some (Object.scenario c.id) else none).getLast? with
  | none =>
    rw [hl] at h
    exact Object.own.inj h
  | some o =>
    rw [hl] at h
    obtain ⟨c, -, hc⟩ := List.mem_filterMap.1 (List.mem_of_getLast? hl)
    split at hc
    · obtain rfl := Option.some.inj hc
      cases h
    · cases hc

/-- Of what has been constructed, the transports of the connected namespaces. -/
theorem getTransport_connected {l : List NamespaceSpec} {ns : NamespaceSpec} (h : ns ∈ l) :
    getTransport (l.flatMap acquired ++ w.ran) ns.name = some (w.transportOf ns.name) := by
  rw [getTransport_append, getTransport_ran, getTransport_acquired, if_pos (List.mem_map_of_mem h),
    transportOf]
  cases (w.constructed.filterMap fun c => if c.namespaceName =
    ns.name then some (Object.scenario c.id) else none).getLast? <;>
    rfl

theorem activated_mem_activations {name : String} : .activated name ∈ w.activations ↔
    ∃ ns ∈ untilRaise (fun ns => w.activates ns.name) w.servers, w.activates ns.name = true ∧
    ns.name = name := by
  simp only [activations, List.mem_flatMap]
  constructor
  · rintro ⟨ns, hns, he⟩
    split at he
    · rename_i ha
      exact ⟨ns, hns, ha, (Event.activated.inj (List.mem_singleton.1 he)).symm⟩
    · simp at he
  · rintro ⟨ns, hns, ha, rfl⟩
    exact ⟨ns, hns, by simp [ha]⟩

theorem activated_mem_ran {name : String} : .activated name ∈ w.ran ↔
    w.imports = true ∧ ∃ ns ∈ untilRaise (fun ns => w.activates ns.name) w.servers,
      w.activates ns.name = true ∧ ns.name = name := by
  cases hi : w.imports <;> cases hv : w.serves && !w.heartbeatFails <;>
    simp [ran, hi, hv, constructs, deactivations, activated_mem_activations]

theorem deactivated_mem_ran {name : String} : .deactivated name ∈ w.ran ↔
    w.serves = true ∧ w.heartbeatFails = false ∧
      ∃ ns ∈ untilRaise (fun ns => w.deactivates ns.name) w.servers, ns.name = name := by
  cases hi : w.imports <;> cases hv : w.serves <;> cases hb : w.heartbeatFails <;>
    simp [ran, hi, hv, hb, constructs, activations, deactivations]

theorem connected_notMem_ran {name : String} : .connected name ∉ w.ran := by
  cases hi : w.imports <;> cases hv : w.serves && !w.heartbeatFails <;>
    simp [ran, hi, hv, constructs, activations, deactivations]

theorem disconnected_notMem_ran {o : Object} : .disconnected o ∉ w.ran := by
  cases hi : w.imports <;> cases hv : w.serves && !w.heartbeatFails <;>
    simp [ran, hi, hv, constructs, activations, deactivations]

/-! ## What each part owes -/

theorem name_injective {ns ns' : NamespaceSpec} (h : ns ∈ w.namespaces) (h' : ns' ∈ w.namespaces)
    (heq : ns.name = ns'.name) :
    ns = ns' :=
  List.inj_on_of_nodup_map w.distinct h h' heq

theorem servers_subset {ns : NamespaceSpec} (h : ns ∈ w.servers) : ns ∈ w.namespaces :=
  (List.mem_filter.1 h).1

theorem servers_nodup : w.servers.Nodup :=
  (List.Nodup.of_map _ w.distinct).filter _

theorem servers_activate (h : w.serves = true) :
    w.servers.all (fun ns => w.activates ns.name) = true :=
  (Bool.and_eq_true_iff.1 h).2

/-- Every router of a run that serves has been activated. -/
theorem activated_of_serves (h : w.serves = true) {ns : NamespaceSpec} (hns : ns ∈ w.servers) :
    .activated ns.name ∈ w.ran := by
  have hact := servers_activate h
  refine activated_mem_ran.2 ⟨(Bool.and_eq_true_iff.1 h).1, ns, ?_, List.all_eq_true.1 hact ns hns,
    rfl⟩
  rwa [untilRaise_of_all hact]

theorem deactivated_iff : (∀ name, .activated name ∈ w.ran → .deactivated name ∈ w.ran) ↔
    (w.imports = true → ∀ pre ns post, w.servers = pre ++ ns :: post →
      (∀ p ∈ pre, w.activates p.name = true) →
      w.activates ns.name = false → pre = []) ∧
    (w.serves = true → w.heartbeatFails = true → w.servers = []) ∧
    (w.serves = true → ∀ pre ns post, w.servers = pre ++ ns :: post → ∀ p ∈ pre,
      w.deactivates p.name = true) := by
  constructor
  · intro hall
    refine ⟨?_, ?_, ?_⟩
    · intro hi pre ns post hs hpre hns
      cases pre with
      | nil => rfl
      | cons p pre =>
        have hp : .activated p.name ∈ w.ran := by
          refine activated_mem_ran.2 ⟨hi, p, ?_, hpre p List.mem_cons_self, rfl⟩
          exact mem_untilRaise.2 ⟨[], pre ++ ns :: post, hs, by simp⟩
        have hact := servers_activate (deactivated_mem_ran.1 (hall _ hp)).1
        have := List.all_eq_true.1 hact ns (by simp [hs])
        exact absurd (hns.symm.trans this) Bool.false_ne_true
    · intro hv hb
      refine List.eq_nil_iff_forall_not_mem.2 fun ns hns => ?_
      have := (deactivated_mem_ran.1 (hall _ (activated_of_serves hv hns))).2.1
      exact absurd (this.symm.trans hb) Bool.false_ne_true
    · intro hv
      apply (reached_iff servers_nodup).1
      intro ns hns
      obtain ⟨-, -, ns', hns', hname⟩ := deactivated_mem_ran.1 (hall _ (activated_of_serves hv hns))
      obtain rfl := name_injective (servers_subset (mem_of_mem_untilRaise hns'))
        (servers_subset hns) hname
      exact hns'
  · rintro ⟨hact, hbeat, hdeact⟩ name hname
    obtain ⟨hi, ns, hns, ha, rfl⟩ := activated_mem_ran.1 hname
    have hmem := mem_of_mem_untilRaise hns
    cases hall : w.servers.all fun ns => w.activates ns.name with
    | true =>
      have hv : w.serves = true := by simp [serves, hi, hall]
      refine deactivated_mem_ran.2 ⟨hv, ?_, ns, (reached_iff servers_nodup).2 (hdeact hv) ns hmem,
        rfl⟩
      cases hb : w.heartbeatFails with
      | false => rfl
      | true =>
        rw [hbeat hv hb] at hmem
        cases hmem
    | false =>
      -- the loop stopped at its first router, which is not active
      obtain ⟨pre, a, post, hs, hpre, hfail⟩ := exists_raise hall
      obtain rfl := hact hi pre a post hs hpre hfail
      rw [hs, List.nil_append, untilRaise, if_neg (by simp [hfail])] at hns
      obtain rfl := List.mem_singleton.1 hns
      exact absurd (hfail.symm.trans ha) Bool.false_ne_true

/-- What the disconnecting loop owes to the namespaces `l` that are connected; a transport
found in another one is the namespace's own too. -/
theorem disconnecting_iff {l rest : List NamespaceSpec} (log : List Event)
    (hl : w.namespaces = l ++ rest)
    (hreg : ∀ ns ∈ l, getTransport log ns.name = some (w.transportOf ns.name))
    (hrest : ∀ ns ∈ rest, ∀ o, getTransport log ns.name = some o → o = w.transportOf ns.name) :
    ∃ evs ok, Emits w.disconnectConnectedTransports log evs ok ∧
    (∀ e ∈ evs, ∃ o, e = .disconnected o) ∧
      ((∀ ns ∈ l, .disconnected (.own ns.name) ∈ evs) ↔ ∀ pre ns post, l = pre ++ ns :: post →
        w.transportOf ns.name = .own ns.name ∧ w.isConnected (.own ns.name) = true ∧
          ∀ p ∈ pre, w.isConnected (w.transportOf p.name) = true →
          w.disconnects (w.transportOf p.name) = true) := by
  obtain ⟨evs, ok, hem, hmem⟩ := disconnecting_emits (w := w) log fun _ => rfl
  refine ⟨evs, ok, hem, ?_, ?_⟩
  · intro e he
    obtain ⟨-, -, -, o, -, -, -, rfl, -⟩ := (hmem e).1 he
    exact ⟨o, rfl⟩
  constructor
  · rintro hall pre ns post rfl
    obtain ⟨pre', ns', post', o, hs, ho, hc, heq, hpre⟩ := (hmem _).1 (hall ns (by simp))
    obtain rfl := Event.disconnected.inj heq
    have hns' : .own ns.name = w.transportOf ns'.name := by
      have hin : ns' ∈ pre ++ ns :: post ∨ ns' ∈ rest := by
        rw [← List.mem_append, ← hl, hs]
        simp
      rcases hin with hin | hin
      · exact Option.some.inj (ho.symm.trans (hreg ns' hin))
      · exact hrest ns' hin _ ho
    obtain rfl : ns' = ns := name_injective (w := w) (by simp [hs]) (by simp [hl])
      (own_of_transportOf hns'.symm)
    have hnodup := List.Nodup.of_map _ w.distinct
    rw [hs] at hnodup
    obtain ⟨hnot, hnot'⟩ : ns' ∉ pre' ∧ ns' ∉ post' := by
      simpa using (List.nodup_cons.1 (List.nodup_middle.1 hnodup)).1
    rw [hs, List.append_assoc, List.cons_append] at hl
    obtain ⟨rfl, -, -⟩ := (List.append_cons_inj_of_notMem hnot hnot').1 hl
    refine ⟨hns'.symm, hc, fun p hp => ?_⟩
    exact hpre p hp _ (hreg p (by simp [hp]))
  · intro hall ns hns
    obtain ⟨pre, post, rfl⟩ := List.append_of_mem hns
    obtain ⟨hown, hc, hpre⟩ := hall pre ns post rfl
    refine (hmem _).2 ⟨pre, ns, post ++ rest, _, by rw [hl]; simp, (hreg ns hns).trans
      (by rw [hown]), hc, rfl, ?_⟩
    intro p hp o ho hco
    obtain rfl := Option.some.inj ((hreg p (by simp [hp])).symm.trans ho)
    exact hpre p hp hco

end World

/-- Disconnecting comes last. -/
theorem released_append_iff {log evs : List Event} (hlog : ∀ o, .disconnected o ∉ log)
    (hevs : ∀ e ∈ evs, ∃ o, e = .disconnected o) : Released (log ++ evs) ↔
      (∀ name, .connected name ∈ log → .disconnected (.own name) ∈ evs) ∧
        ∀ name, .activated name ∈ log → .deactivated name ∈ log := by
  have honly : ∀ e, (∀ o, e ≠ .disconnected o) → (e ∈ log ++ evs ↔ e ∈ log) := by
    intro e he
    rw [List.mem_append, or_iff_left]
    intro hin
    obtain ⟨o, rfl⟩ := hevs e hin
    exact he o rfl
  constructor
  · intro h
    refine ⟨fun name hname => ?_, fun name hname => ?_⟩
    · exact (List.mem_append.1 (h.disconnected name (List.mem_append_left _ hname))).resolve_left
        (hlog _)
    · exact (honly _ (by simp)).1 (h.deactivated name (List.mem_append_left _ hname))
  · rintro ⟨hdis, hdeact⟩
    refine ⟨fun name hname => ?_, fun name hname => ?_, fun name pre post heq hname => ?_⟩
    · exact List.mem_append_right _ (hdis name ((honly _ (by simp)).1 hname))
    · exact List.mem_append_left _ (hdeact name ((honly _ (by simp)).1 hname))
    · have hin := hdeact name ((honly _ (by simp)).1 hname)
      rcases List.append_eq_append_iff.1 heq with ⟨as, rfl, -⟩ | ⟨bs, rfl, hbs⟩
      · exact List.mem_append_left _ hin
      · cases bs with
        | nil => simpa using hin
        | cons b bs =>
          obtain ⟨rfl, -⟩ := List.cons_eq_cons.1 hbs
          exact absurd (by simp) (hlog (.own name))

namespace World

variable {w : World}

theorem connected_iff {l : List NamespaceSpec} {name : String} :
    .connected name ∈ l.flatMap acquired ↔ ∃ ns ∈ l, ns.name = name := by
  simp [acquired, eq_comm]

theorem activated_notMem {l : List NamespaceSpec} {name : String} :
    .activated name ∉ l.flatMap acquired := by
  simp [acquired]

theorem disconnected_notMem {l : List NamespaceSpec} {o : Object} :
    .disconnected o ∉ l.flatMap acquired := by
  simp [acquired]

theorem connects_eq_false {ns : NamespaceSpec} {b : Bool} (h : ns ∈ w.namespaces)
    (hns : w.connect ns.name = .raised b) :
    w.connects = false := by
  apply List.all_eq_false.2
  exact ⟨ns, h, by simp [hns]⟩

/-- Nothing but the services' own transports when not everything connects. -/
theorem transportOf_of_not_connects (h : w.connects = false) (name : String) :
    w.transportOf name = .own name := by
  simp [transportOf, constructed, imported, starts, gathers, listens, serves, imports, h]

/-! ### A connect that raises -/

section raised

variable {pre post : List NamespaceSpec} {f : NamespaceSpec} {b : Bool}

/-- The log up to it. -/
def cut (pre : List NamespaceSpec) (f : NamespaceSpec) : List Event :=
    pre.flatMap acquired ++ [.constructed f.name (.own f.name)]

theorem connected_cut_iff {name : String} :
    .connected name ∈ cut pre f ↔ ∃ ns ∈ pre, ns.name = name := by
  simp [cut, acquired, eq_comm]

theorem activated_notMem_cut {name : String} : .activated name ∉ cut pre f := by
  simp [cut, acquired]

theorem disconnected_notMem_cut {o : Object} : .disconnected o ∉ cut pre f := by
  simp [cut, acquired]

theorem getTransport_cut (name : String) :
    getTransport (cut pre f) name =
      if f.name = name then some (.own name) else getTransport (pre.flatMap acquired) name := by
  rw [cut, getTransport_append]
  by_cases hn : f.name = name
  · subst hn
    simp [getTransport, Event.puts]
  · simp [getTransport, Event.puts, hn]

/-- What connects comes before it. -/
theorem connected_before (hs : w.namespaces = pre ++ f :: post) (hf : w.connect f.name = .raised b)
    {pre' post' : List NamespaceSpec} {ns : NamespaceSpec}
    (hs' : w.namespaces = pre' ++ ns :: post') (hok : ∀ p ∈ pre' ++ [ns], w.connect p.name = .ok) :
    ∃ post'', pre = pre' ++ ns :: post'' := by
  apply before_raise (r := fun ns => decide (w.connect ns.name = .ok)) (hs.symm.trans hs')
  · simp [hf]
  · exact fun p hp => decide_eq_true (hok p hp)

/-- There is one first connect that raises. -/
theorem raised_unique (hs : w.namespaces = pre ++ f :: post)
    (hpre : ∀ p ∈ pre, w.connect p.name = .ok) (hf : w.connect f.name = .raised b)
    {pre' post' : List NamespaceSpec} {ns : NamespaceSpec}
    (hs' : w.namespaces = pre' ++ ns :: post') (hok : ∀ p ∈ pre', w.connect p.name = .ok)
    (hns : w.connect ns.name = .raised false) : pre' = pre ∧ ns = f := by
  apply raise_unique (r := fun ns => decide (w.connect ns.name = .ok)) (hs'.symm.trans hs)
  · exact fun p hp => decide_eq_true (hok p hp)
  · simp [hns]
  · exact fun p hp => decide_eq_true (hpre p hp)
  · simp [hf]

/-- Nothing that comes after the connects goes wrong then. -/
theorem later_of_not_connects (h : w.connects = false) : w.imports = false ∧ w.serves = false := by
  simp [imports, serves, starts, h]

end raised

/-! ### All connects succeed -/

theorem disconnected_notMem_log {o : Object} :
    .disconnected o ∉ w.namespaces.flatMap acquired ++ w.ran := by
  intro h
  rcases List.mem_append.1 h with h | h
  · exact disconnected_notMem h
  · exact disconnected_notMem_ran h

theorem connected_log_iff {name : String} :
    .connected name ∈ w.namespaces.flatMap acquired ++ w.ran ↔
      ∃ ns ∈ w.namespaces, ns.name = name := by
  rw [List.mem_append, or_iff_left connected_notMem_ran, connected_iff]

theorem activated_log_iff :
    (∀ name, .activated name ∈ w.namespaces.flatMap acquired ++ w.ran →
      .deactivated name ∈ w.namespaces.flatMap acquired ++ w.ran) ↔
      ∀ name, .activated name ∈ w.ran → .deactivated name ∈ w.ran := by
  have hdeact : ∀ name, .deactivated name ∉ w.namespaces.flatMap acquired := by simp [acquired]
  constructor
  · intro h name hname
    exact (List.mem_append.1 (h name (List.mem_append_right _ hname))).resolve_left (hdeact name)
  · intro h name hname
    exact List.mem_append_right _ (h name ((List.mem_append.1 hname).resolve_left activated_notMem))

theorem connects_of_ok (hok : ∀ ns ∈ w.namespaces, w.connect ns.name = .ok) : w.connects = true :=
  List.all_eq_true.2 fun ns hns => decide_eq_true (hok ns hns)

theorem not_raised_of_ok (hok : ∀ ns ∈ w.namespaces, w.connect ns.name = .ok) :
    ∀ pre ns post, w.namespaces = pre ++ ns :: post → (∀ p ∈ pre, w.connect p.name = .ok) →
      w.connect ns.name = .raised false → pre = [] := by
  intro pre ns post hs _ hns
  have h := hok ns (by simp [hs])
  rw [hns] at h
  cases h

end World

open World

variable {w : World} {pre post : List NamespaceSpec} {f : NamespaceSpec}

/-- A run in which a connect raises what nothing catches, so that nothing is disconnected. -/
theorem released_iff_of_uncaught (hs : w.namespaces = pre ++ f :: post)
    (hpre : ∀ p ∈ pre, w.connect p.name = .ok) (hf : w.connect f.name = .raised false)
    (heq : w.connectNamespaces w.namespaces [] = (cut pre f, .raised false)) :
    Released (aiomain w).1 ↔ w.Orderly := by
  have hc : w.connects = false := connects_eq_false (by simp [hs]) hf
  have hlater := later_of_not_connects hc
  have hrun : (aiomain w).1 = cut pre f ++ [] := by
    simp [aiomain, heq]
  rw [hrun, released_append_iff (fun _ => disconnected_notMem_cut) (by simp)]
  constructor
  · rintro ⟨hdis, -⟩
    obtain rfl : pre = [] := by
      apply List.eq_nil_iff_forall_not_mem.2
      intro ns hns
      exact absurd (hdis ns.name (connected_cut_iff.2 ⟨ns, hns, rfl⟩)) List.not_mem_nil
    refine ⟨?_, by simp [hc], ?_, by simp [hlater], by simp [hlater], by simp [hlater]⟩
    · intro pre' ns post' hs' hok hns
      exact (raised_unique hs hpre hf hs' hok hns).1
    · intro pre' ns post' hs' hok
      obtain ⟨post'', h⟩ := connected_before hs hf hs' hok
      cases pre' <;> cases h
  · intro h
    obtain rfl := h.connecting pre f post hs hpre hf
    refine ⟨fun name hname => ?_, fun name hname => absurd hname activated_notMem_cut⟩
    obtain ⟨ns, hns, -⟩ := connected_cut_iff.1 hname
    cases hns

/-- A run in which a connect raises what leads to the disconnects. -/
theorem released_iff_of_caught (hs : w.namespaces = pre ++ f :: post)
    (hpre : ∀ p ∈ pre, w.connect p.name = .ok) (hf : w.connect f.name = .raised true)
    (heq : w.connectNamespaces w.namespaces [] = (cut pre f, .raised true)) :
    Released (aiomain w).1 ↔ w.Orderly := by
  have hc : w.connects = false := connects_eq_false (by simp [hs]) hf
  have hlater := later_of_not_connects hc
  have hown := transportOf_of_not_connects hc
  have hconnected : ∀ ns ∈ pre, getTransport (cut pre f) ns.name =
      some (w.transportOf ns.name) := by
    intro ns hns
    rw [getTransport_cut, hown, getTransport_acquired, if_pos (List.mem_map_of_mem hns), ite_self]
  have hfound : ∀ ns ∈ f :: post, ∀ o, getTransport (cut pre f) ns.name = some o →
      o = w.transportOf ns.name := by
    intro ns _ o ho
    rw [getTransport_cut, getTransport_acquired] at ho
    rw [hown]
    split at ho
    · exact (Option.some.inj ho).symm
    · split at ho
      · exact (Option.some.inj ho).symm
      · cases ho
  obtain ⟨evs, ok, hem, hevs, hiff⟩ := disconnecting_iff (cut pre f) hs hconnected hfound
  have hrun : (aiomain w).1 = cut pre f ++ evs := by
    rw [aiomain, heq]
    exact congrArg Prod.fst hem
  rw [hrun, released_append_iff (fun _ => disconnected_notMem_cut) hevs]
  constructor
  · rintro ⟨hdis, -⟩
    have hall := hiff.1 fun ns hns => hdis ns.name (connected_cut_iff.2 ⟨ns, hns, rfl⟩)
    refine ⟨?_, by simp [hc], ?_, by simp [hlater], by simp [hlater], by simp [hlater]⟩
    · intro pre' ns post' hs' hok hns
      obtain ⟨-, rfl⟩ := raised_unique hs hpre hf hs' hok hns
      rw [hf] at hns
      cases hns
    · intro pre' ns post' hs' hok
      obtain ⟨post'', rfl⟩ := connected_before hs hf hs' hok
      exact hall pre' ns post'' rfl
  · intro h
    refine ⟨fun name hname => ?_, fun name hname => absurd hname activated_notMem_cut⟩
    obtain ⟨ns, hns, rfl⟩ := connected_cut_iff.1 hname
    refine hiff.2 (fun pre' ns post'' hpre' => ?_) ns hns
    subst hpre'
    refine h.disconnecting pre' ns (post'' ++ f :: post) (by simpa using hs) fun p hp => hpre p ?_
    rw [List.append_cons]
    exact List.mem_append_left _ hp

/-- A run in which the health server cannot be stopped, so that nothing is disconnected. -/
theorem released_iff_of_hung (hok : ∀ ns ∈ w.namespaces, w.connect ns.name = .ok)
    (heq : w.connectNamespaces w.namespaces [] = (w.namespaces.flatMap acquired, .ok))
    (hh : (w.health.any fun h => h.starts && !h.stops) = true) :
    Released (aiomain w).1 ↔ w.Orderly := by
  have hc : w.connects = true := connects_of_ok hok
  obtain ⟨ok, hbody⟩ := body_emits hc (w.namespaces.flatMap acquired)
  have hstop := stopHealth_emits (w := w) (w.namespaces.flatMap acquired ++ w.ran)
  rw [hh] at hstop
  have hrun : (aiomain w).1 = w.namespaces.flatMap acquired ++ w.ran ++ [] := by
    have h := hbody.ensure (hstop.seq_raise w.disconnectConnectedTransports)
    rw [aiomain, heq, List.append_assoc]
    exact congrArg Prod.fst h
  rw [hrun, released_append_iff (fun _ => disconnected_notMem_log) (by simp), activated_log_iff,
    deactivated_iff]
  constructor
  · rintro ⟨hdis, h₁, h₂, h₃⟩
    have hnil : w.namespaces = [] := by
      apply List.eq_nil_iff_forall_not_mem.2
      intro ns hns
      exact absurd (hdis ns.name (connected_log_iff.2 ⟨ns, hns, rfl⟩)) List.not_mem_nil
    exact ⟨not_raised_of_ok hok, fun _ _ => hnil, fun pre ns post hs => by simp [hnil] at hs, h₁,
      h₂, h₃⟩
  · intro h
    refine ⟨fun name hname => ?_, h.activating, h.heartbeat, h.deactivating⟩
    obtain ⟨ns, hns, -⟩ := connected_log_iff.1 hname
    rw [h.health hc hh] at hns
    cases hns

/-- A run that gets to the disconnects. -/
theorem released_iff_of_stopped (hok : ∀ ns ∈ w.namespaces, w.connect ns.name = .ok)
    (heq : w.connectNamespaces w.namespaces [] = (w.namespaces.flatMap acquired, .ok))
    (hh : (w.health.any fun h => h.starts && !h.stops) = false) :
    Released (aiomain w).1 ↔ w.Orderly := by
  have hc : w.connects = true := connects_of_ok hok
  obtain ⟨ok, hbody⟩ := body_emits hc (w.namespaces.flatMap acquired)
  have hstop := stopHealth_emits (w := w) (w.namespaces.flatMap acquired ++ w.ran)
  rw [hh] at hstop
  obtain ⟨evs, ok', hem, hevs, hiff⟩ := disconnecting_iff
    (w.namespaces.flatMap acquired ++ w.ran ++ []) (List.append_nil w.namespaces).symm
    (fun ns hns => by rw [List.append_nil, getTransport_connected hns]) (by simp)
  have hrun : (aiomain w).1 = w.namespaces.flatMap acquired ++ w.ran ++ evs := by
    have h := hbody.ensure (hstop.seq hem)
    rw [aiomain, heq, List.append_assoc]
    exact congrArg Prod.fst h
  rw [hrun, released_append_iff (fun _ => disconnected_notMem_log) hevs, activated_log_iff,
    deactivated_iff]
  constructor
  · rintro ⟨hdis, h₁, h₂, h₃⟩
    have hall := hiff.1 fun ns hns => hdis ns.name (connected_log_iff.2 ⟨ns, hns, rfl⟩)
    exact ⟨not_raised_of_ok hok, fun _ hh' => absurd (hh.symm.trans hh') Bool.false_ne_true,
      fun pre ns post hs _ => hall pre ns post hs, h₁, h₂, h₃⟩
  · intro h
    refine ⟨fun name hname => ?_, h.activating, h.heartbeat, h.deactivating⟩
    obtain ⟨ns, hns, rfl⟩ := connected_log_iff.1 hname
    refine hiff.2 (fun pre ns post hs => ?_) ns hns
    apply h.disconnecting pre ns post hs
    intro p hp
    apply hok
    rw [hs, List.append_cons]
    exact List.mem_append_left _ hp

/-- **`aiomain` releases what it acquired exactly in the orderly runs.** -/
theorem released_iff (w : World) : Released (aiomain w).1 ↔ w.Orderly := by
  rcases connectNamespaces_eq (w := w) w.namespaces [] with ⟨pre, f, post, b, hs, hpre, hf, heq⟩
    | ⟨hok, heq⟩
  · cases b with
    | false => exact released_iff_of_uncaught hs hpre hf heq
    | true => exact released_iff_of_caught hs hpre hf heq
  · cases hh : w.health.any fun h => h.starts && !h.stops with
    | true => exact released_iff_of_hung hok heq hh
    | false => exact released_iff_of_stopped hok heq hh

/-- Two loopback namespaces; the router of the second one cannot be activated. -/
def secondFails : World where
  namespaces := [{ name := "a" }, { name := "b" }]
  distinct := by decide
  connect _ := .ok
  health := none
  selfWatchdog := false
  modules := []
  activates name := name = "a"
  systemd := none
  scenario := ⟨[], false⟩
  listening := ⟨[], false⟩
  deactivates _ := true
  isConnected _ := true
  disconnects _ := true

/-- The router of `a` stays active on a transport that is disconnected. -/
theorem activated_not_released : ¬ ∀ w, Released (aiomain w).1 := by
  intro h
  have := (h secondFails).deactivated "a"
  revert this
  decide

end Atasks.Commands
