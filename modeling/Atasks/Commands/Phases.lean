import Atasks.Commands.Shutdown
import Atasks.Lib.Guarded
/-!
# The phases of `aiomain`

Which of its pieces raise decides how far a run of `aiomain` gets, and `released_iff` says what
it then fails to release. What no failure changes is the order: `Due` gives, for each kind of
event, all that has been done by then, so that namespaces are connected one after another in
the order of the options, routers are activated once all of them are connected, deactivated
once all routers have been activated, and transports disconnected last, each by what
`get_transport` finds at that moment. `aiomain_phased` is for every run; a run that returns has
gone through all phases to their ends.

| here | there |
| --- | --- |
| `Done`       | what has been connected, activated, deactivated and disconnected, in order |
| `Due`        | what is done before a call of `connect`, `activate`, `deactivate` or `disconnect` (`service.py:288-413`) |
| `toDisconnect` | the transports that the loop of `_disconnect_connected_transports` disconnects |
-/

namespace Atasks.Commands

open Attempt

/-- What a log says has been done, each in the order in which it was. -/
structure Done (log : List Event) (connected activated deactivated : List String)
    (disconnected : List Object) : Prop where
  connected : (log.filterMap fun | .connected name => some name | _ => none) = connected
  activated : (log.filterMap fun | .activated name => some name | _ => none) = activated
  deactivated : (log.filterMap fun | .deactivated name => some name | _ => none) = deactivated
  disconnected : (log.filterMap fun | .disconnected o => some o | _ => none) = disconnected

namespace World

variable (w : World)

def names : List String := w.namespaces.map NamespaceSpec.name

def serverNames : List String := w.servers.map NamespaceSpec.name

/-- Of the namespaces `l`, the transports that are there after `log` and are connected. -/
def toDisconnect (log : List Event) (l : List NamespaceSpec) : List Object :=
  l.filterMap fun ns => (getTransport log ns.name).filter w.isConnected

/-- What has been done when an event is logged. -/
def Due (log : List Event) : Event → Prop
  | .constructed name (.own name') =>
    name' = name ∧ ∃ pre post, w.names = pre ++ name :: post ∧ Done log pre [] [] []
  | .constructed _ (.scenario _) => Done log w.names [] [] [] ∨ Done log w.names w.serverNames [] []
  | .connected name => ∃ pre post, w.names = pre ++ name :: post ∧ Done log pre [] [] [] ∧
      log.getLast? = some (.constructed name (.own name))
  | .activated name => ∃ pre post, w.serverNames = pre ++ name :: post ∧ Done log w.names pre [] []
  | .deactivated name =>
    ∃ pre post, w.serverNames = pre ++ name :: post ∧ Done log w.names w.serverNames pre []
  | .disconnected o =>
      ∃ pre ns post, w.namespaces = pre ++ ns :: post ∧ getTransport log ns.name = some o ∧
      w.isConnected o = true ∧ ∃ connected activated deactivated,
        Done log connected activated deactivated (w.toDisconnect log pre)

end World

/-- **A run goes through its phases in order, and returns only after the last one.** -/
structure Phased (w : World) (log : List Event) (exit : Exit) : Prop where
  in_order : ∀ pre e post, log = pre ++ e :: post → w.Due pre e
  returned : exit = .returned →
    Done log w.names w.serverNames w.serverNames (w.toDisconnect log w.namespaces)
  returnedFalse : exit = .returnedFalse → ∃ pre ns post, w.namespaces = pre ++ ns :: post ∧
    w.connect ns.name = .raised true ∧
    Done log (pre.map NamespaceSpec.name) [] [] (w.toDisconnect log w.namespaces)

/-! ## What has been done -/

section done

variable {log evs : List Event} {c c' a a' d d' : List String} {o o' : List Object}

theorem Done.append (h : Done log c a d o) (h' : Done evs c' a' d' o') :
    Done (log ++ evs) (c ++ c') (a ++ a') (d ++ d') (o ++ o') := by
  obtain ⟨rfl, rfl, rfl, rfl⟩ := h
  obtain ⟨rfl, rfl, rfl, rfl⟩ := h'
  exact ⟨List.filterMap_append, List.filterMap_append, List.filterMap_append, List.filterMap_append⟩

theorem Done.construct (h : Done log c a d o) (name : String) (x : Object) :
    Done (log ++ [.constructed name x]) c a d o := by
  have he : Done [.constructed name x] [] [] [] [] := ⟨rfl, rfl, rfl, rfl⟩
  simpa using h.append he

theorem Done.connect (h : Done log c a d o) (name : String) :
    Done (log ++ [.connected name]) (c ++ [name]) a d o := by
  have he : Done [.connected name] [name] [] [] [] := ⟨rfl, rfl, rfl, rfl⟩
  simpa using h.append he

theorem Done.activate (h : Done log c a d o) (name : String) :
    Done (log ++ [.activated name]) c (a ++ [name]) d o := by
  have he : Done [.activated name] [] [name] [] [] := ⟨rfl, rfl, rfl, rfl⟩
  simpa using h.append he

theorem Done.deactivate (h : Done log c a d o) (name : String) :
    Done (log ++ [.deactivated name]) c a (d ++ [name]) o := by
  have he : Done [.deactivated name] [] [] [name] [] := ⟨rfl, rfl, rfl, rfl⟩
  simpa using h.append he

theorem Done.disconnect (h : Done log c a d o) (x : Object) :
    Done (log ++ [.disconnected x]) c a d (o ++ [x]) := by
  have he : Done [.disconnected x] [] [] [] [x] := ⟨rfl, rfl, rfl, rfl⟩
  simpa using h.append he

end done

namespace World

variable {w : World} {log : List Event} {c a d : List String}

theorem getTransport_disconnected (o : Object) (name : String) :
    getTransport (log ++ [.disconnected o]) name = getTransport log name := by
  rw [getTransport_append, getTransport_eq_none, Option.none_or]
  intro e he
  obtain rfl := List.mem_singleton.1 he
  rfl

theorem toDisconnect_disconnected (o : Object) (l : List NamespaceSpec) :
    w.toDisconnect (log ++ [.disconnected o]) l = w.toDisconnect log l := by
  simp only [toDisconnect, getTransport_disconnected]

/-! ## Connecting -/

theorem connectNamespaces_phases {pre l : List NamespaceSpec} (hl : w.namespaces = pre ++ l)
    (h : Done log (pre.map NamespaceSpec.name) [] [] []) :
    ∃ evs, (w.connectNamespaces l log).1 = log ++ evs ∧ Guarded w.Due log evs ∧
      ((w.connectNamespaces l log).2 = .ok → Done (log ++ evs) w.names [] [] []) ∧
      ∀ b, (w.connectNamespaces l log).2 = .raised b → ∃ pre ns post,
      w.namespaces = pre ++ ns :: post ∧
        w.connect ns.name = .raised b ∧ Done (log ++ evs) (pre.map NamespaceSpec.name)
        [] [] [] := by
  induction l generalizing pre log with
  | nil =>
    rw [List.append_nil] at hl
    refine ⟨[], by simp [connectNamespaces], guarded_nil log, fun _ =>
      ?_, by simp [connectNamespaces]⟩
    rwa [List.append_nil, names, hl]
  | cons ns l ih =>
    have hnames : w.names = pre.map NamespaceSpec.name ++ ns.name :: l.map NamespaceSpec.name := by
      rw [names, hl, List.map_append, List.map_cons]
    have hconstructed := h.construct ns.name (.own ns.name)
    have hguard : w.Due log (.constructed ns.name (.own ns.name)) := ⟨rfl, _, _, hnames, h⟩
    rw [connectNamespaces]
    cases hns : w.connect ns.name with
    | raised b =>
      refine ⟨_, rfl, guarded_singleton hguard, by simp, fun b' hb => ?_⟩
      obtain rfl := ConnectEnd.raised.inj hb
      exact ⟨pre, ns, l, hl, hns, hconstructed⟩
    | ok =>
      have hconnected : w.Due (log ++ [.constructed ns.name (.own ns.name)]) (.connected ns.name) :=
        ⟨_, _, hnames, hconstructed, by simp⟩
      have hnext : Done (log ++ [.constructed ns.name (.own ns.name)] ++ [.connected ns.name])
          ((pre ++ [ns]).map NamespaceSpec.name) [] [] [] := by
        simpa using hconstructed.connect ns.name
      obtain ⟨evs, heq, hg, hok, hraised⟩ := ih (by simpa using hl) hnext
      refine ⟨acquired ns ++ evs, by simpa [acquired] using heq, ?_, ?_, ?_⟩
      · have hpair : Guarded w.Due log (acquired ns) :=
          guarded_cons_iff.2 ⟨hguard, guarded_singleton hconnected⟩
        exact hpair.append (by simpa [acquired] using hg)
      · simpa [acquired] using hok
      · simpa [acquired] using hraised

/-! ## Disconnecting -/

/-- The disconnects of the namespaces `pre` are done. -/
theorem meets_disconnectConnected {pre post : List NamespaceSpec} {ns : NamespaceSpec}
    (hs : w.namespaces = pre ++ ns :: post) :
    Meets w.Due (fun log => Done log c a d (w.toDisconnect log pre)) (w.disconnectConnected ns)
      (fun log => Done log c a d (w.toDisconnect log (pre ++ [ns]))) fun _ => True := by
  intro log h
  have hpre : w.toDisconnect log (pre ++ [ns]) =
      w.toDisconnect log pre ++ ((getTransport log ns.name).filter w.isConnected).toList := by
    rw [toDisconnect, List.filterMap_append]
    cases hf : (getTransport log ns.name).filter w.isConnected <;> simp [hf, toDisconnect]
  cases hr : getTransport log ns.name with
  | none =>
    refine ⟨[], true, by simp [Emits, disconnectConnected, hr, skip], guarded_nil log, ?_⟩
    simpa [hpre, hr] using h
  | some o =>
    cases hc : w.isConnected o with
    | false =>
      refine ⟨[], true, by simp [Emits, disconnectConnected, hr, hc, skip], guarded_nil log, ?_⟩
      simpa [hpre, hr, hc, Option.filter] using h
    | true =>
      refine ⟨[.disconnected o], w.disconnects o, ?_, ?_, ?_⟩
      · have hem := emits_emit_check log [.disconnected o] (w.disconnects o)
        simpa [Emits, disconnectConnected, hr, hc] using hem
      · exact guarded_singleton ⟨pre, ns, post, hs, hr, hc, c, a, d, h⟩
      · cases w.disconnects o with
        | false => trivial
        | true =>
          simpa [toDisconnect_disconnected, hpre, hr, hc, Option.filter] using h.disconnect o

theorem meets_disconnect :
    Meets w.Due (fun log => Done log c a d []) w.disconnectConnectedTransports
      (fun log => Done log c a d (w.toDisconnect log w.namespaces)) fun _ => True :=
  Meets.each fun _ _ _ hs => meets_disconnectConnected hs

/-! ## From the first scenario module to the last deactivation -/

/-- Everything is connected, and nothing disconnected yet. -/
def At (w : World) (a d : List String) (log : List Event) : Prop := Done log w.names a d []

/-- How the body of the outer `try` may be left by an exception. -/
def Stopped (w : World) (log : List Event) : Prop := ∃ a d, w.At a d log

theorem At.stopped (log : List Event) (h : w.At a d log) : w.Stopped log := ⟨a, d, h⟩

theorem meets_construct (ha : a = [] ∨ a = w.serverNames) (cs : List Constructed)
    {R : List Event → Prop} :
    Meets w.Due (w.At a []) (construct cs) (w.At a []) R := by
  have hall : ∀ cs log, w.At a [] log → Guarded w.Due log (constructs cs) ∧ w.At a []
      (log ++ constructs cs) := by
    intro cs
    induction cs with
    | nil => exact fun log h => ⟨guarded_nil log, by simpa using h⟩
    | cons x cs ih =>
      intro log h
      have hx : w.Due log (.constructed x.namespaceName (.scenario x.id)) := by
        rcases ha with rfl | rfl
        · exact Or.inl h
        · exact Or.inr h
      obtain ⟨hg, hdone⟩ := ih _ (h.construct x.namespaceName (.scenario x.id))
      refine ⟨guarded_cons_iff.2 ⟨hx, hg⟩, ?_⟩
      simpa [constructs] using hdone
  exact meets_emit (fun log h => (hall cs log h).1) fun log h => (hall cs log h).2

theorem meets_importModules : Meets w.Due (w.At [] []) w.importModules (w.At [] []) w.Stopped := by
  apply @Meets.each _ _ _ _ _ fun _ => w.At [] []
  intro _ m _ _
  exact (meets_construct (Or.inl rfl) m.constructs).seq (meets_check At.stopped m.imports)

/-- The routers of `pre` are active. -/
theorem meets_activate {pre post : List NamespaceSpec} {ns : NamespaceSpec}
    (hs : w.servers = pre ++ ns :: post) :
    Meets w.Due (w.At (pre.map NamespaceSpec.name) []) (w.activate ns)
    (w.At ((pre ++ [ns]).map NamespaceSpec.name) [])
      w.Stopped := by
  refine (meets_check At.stopped _).seq (meets_emit (fun log h => ?_) fun log h => ?_)
  · refine guarded_singleton ⟨pre.map NamespaceSpec.name, post.map NamespaceSpec.name, ?_, h⟩
    rw [serverNames, hs, List.map_append, List.map_cons]
  · simpa [At] using h.activate ns.name

theorem meets_activateServers :
    Meets w.Due (w.At [] []) w.activateServers (w.At w.serverNames []) w.Stopped :=
  Meets.each fun _ _ _ hs => meets_activate hs

/-- The routers of `pre` are no longer active. -/
theorem meets_deactivate {pre post : List NamespaceSpec} {ns : NamespaceSpec}
    (hs : w.servers = pre ++ ns :: post) :
    Meets w.Due (w.At w.serverNames (pre.map NamespaceSpec.name)) (w.deactivate ns)
      (w.At w.serverNames ((pre ++ [ns]).map NamespaceSpec.name)) w.Stopped := by
  refine (meets_emit (fun log h => ?_) fun log h => ?_).seq (meets_check At.stopped _)
  · refine guarded_singleton ⟨pre.map NamespaceSpec.name, post.map NamespaceSpec.name, ?_, h⟩
    rw [serverNames, hs, List.map_append, List.map_cons]
  · simpa [At] using h.deactivate ns.name

/-- Once everything is active, serving changes nothing about it. -/
theorem meets_serving :
    Meets w.Due (w.At w.serverNames []) (seq w.startSystemd (seq w.gather w.listen))
    (w.At w.serverNames []) (w.At w.serverNames []) := by
  have hrun : ∀ r, Meets w.Due (w.At w.serverNames []) (run r) (w.At w.serverNames [])
      (w.At w.serverNames []) :=
    fun r => (meets_construct (Or.inr rfl) r.constructs).seq (meets_check (fun _ => id) _)
  have hstart : Meets w.Due (w.At w.serverNames []) w.startSystemd (w.At w.serverNames [])
      (w.At w.serverNames []) := by
    unfold startSystemd
    split
    · exact meets_skip
    · exact meets_check (fun _ => id) _
  have hgather : Meets w.Due (w.At w.serverNames []) w.gather (w.At w.serverNames [])
      (w.At w.serverNames []) := by
    unfold gather
    split
    · exact hrun _
    · exact meets_skip
  have hlisten : Meets w.Due (w.At w.serverNames []) w.listen (w.At w.serverNames [])
      (w.At w.serverNames []) := by
    unfold listen
    split
    · exact hrun _
    · exact meets_skip
  exact hstart.seq (hgather.seq hlisten)

theorem meets_stopServing :
    Meets w.Due (w.At w.serverNames []) w.stopServing
      (w.At w.serverNames w.serverNames) w.Stopped := by
  have hstop : Meets w.Due (w.At w.serverNames []) w.stopSystemd
      (w.At w.serverNames []) w.Stopped := by
    unfold stopSystemd
    split
    · exact meets_skip
    · split
      · exact meets_check At.stopped _
      · exact meets_skip
  exact hstop.seq (Meets.each fun _ _ _ hs => meets_deactivate hs)

theorem meets_serve :
    Meets w.Due (w.At w.serverNames []) w.serve (w.At w.serverNames w.serverNames) w.Stopped :=
  meets_serving.ensure meets_stopServing
    (meets_stopServing.mono (fun _ => id) At.stopped fun _ => id)

/-! ## The whole -/

theorem meets_release : Meets w.Due (w.At a d) w.release
    (fun log => Done log w.names a d (w.toDisconnect log w.namespaces)) fun _ => True := by
  have hstop : Meets w.Due (w.At a d) w.stopHealth (w.At a d) fun _ => True := by
    unfold stopHealth
    split
    · exact meets_skip
    · split
      · exact meets_check (fun _ _ => trivial) _
      · exact meets_skip
  exact hstop.seq meets_disconnect

theorem meets_runConnected : Meets w.Due (w.At [] []) w.runConnected
    (fun log => Done log w.names w.serverNames w.serverNames (w.toDisconnect log w.namespaces))
    fun _ => True := by
  have hstart : Meets w.Due (w.At [] []) w.startHealth (w.At [] []) w.Stopped := by
    unfold startHealth
    split
    · exact meets_skip
    · exact meets_check At.stopped _
  have hstopped : Meets w.Due w.Stopped w.release (fun _ => True) fun _ => True :=
    Meets.exists fun _ => Meets.exists fun _ => meets_release.mono (fun _ => id)
      (fun _ _ => trivial) fun _ => id
  exact (hstart.seq (meets_importModules.seq (meets_activateServers.seq meets_serve))).ensure
    meets_release hstopped

end World

open World

/-- **Whatever fails, `aiomain` goes through its phases in order.** -/
theorem aiomain_phased (w : World) : Phased w (aiomain w).1 (aiomain w).2 := by
  have hempty : Done [] [] [] [] [] := ⟨rfl, rfl, rfl, rfl⟩
  obtain ⟨evs, hlog, hg, hok, hraised⟩ :=
    w.connectNamespaces_phases (List.nil_append w.namespaces).symm hempty
  have hin : ∀ {evs}, Guarded w.Due [] evs → ∀ pre e post, evs = pre ++ e :: post → w.Due pre e :=
    fun hg pre e post h => by simpa using hg pre e post h
  rw [List.nil_append] at hlog hok hraised
  cases hend : (w.connectNamespaces w.namespaces []).2 with
  | ok =>
    obtain ⟨evs', ok, hem, hg', hpost⟩ := meets_runConnected evs (hok hend)
    have hrun : aiomain w = (evs ++ evs', if ok then .returned else .raised) := by
      have heq : w.connectNamespaces w.namespaces [] = (evs, .ok) := Prod.ext hlog hend
      have hem' : w.runConnected evs = (evs ++ evs', ok) := hem
      simp only [aiomain, heq, hem']
    rw [hrun]
    refine ⟨hin (hg.append (by simpa using hg')), fun hexit => ?_, fun hexit => ?_⟩
    · cases ok with
      | true => exact hpost
      | false => cases hexit
    · cases ok <;> cases hexit
  | raised b =>
    obtain ⟨pre, ns, post, hs, hns, hdone⟩ := hraised b hend
    have heq : w.connectNamespaces w.namespaces [] = (evs, .raised b) := Prod.ext hlog hend
    cases b with
    | false =>
      have hrun : aiomain w = (evs, .raised) := by simp only [aiomain, heq]
      rw [hrun]
      exact ⟨hin hg, by simp, by simp⟩
    | true =>
      obtain ⟨evs', ok, hem, hg', hpost⟩ := meets_disconnect evs hdone
      have hrun : aiomain w = (evs ++ evs', if ok then .returnedFalse else .raised) := by
        have hem' : w.disconnectConnectedTransports evs = (evs ++ evs', ok) := hem
        simp only [aiomain, heq, hem']
      rw [hrun]
      refine ⟨hin (hg.append (by simpa using hg')), fun hexit => ?_, fun hexit =>
        ⟨pre, ns, post, hs, hns, ?_⟩⟩
      · cases ok <;> cases hexit
      · cases ok with
        | true => exact hpost
        | false => cases hexit

end Atasks.Commands
