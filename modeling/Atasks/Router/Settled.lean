import Atasks.Lib.Effect
import Atasks.Router.Lifecycle
/-!
# What a router holds between and during its calls

As long as calls that change the server do not overlap, the router is at every moment at rest
or in one known place of one call: `Core` says so, with the names the transports hold in each
place. From it come the two theorems about whole runs: `lifecycle` about calls one after
another, and `serialized_calls` about concurrent ones.
-/

namespace Atasks.Router

open Machine
open Amqp.Consumers (Failure without mem_without)

variable {α : Type} {s s' : State α} {t : TransportId} {k : TaskId}

/-! ## The names to go through -/

@[simp] theorem mem_todo {names : Kind → List String} {p : Kind × String} : p ∈ todo names ↔
    p.2 ∈ names p.1 := by
  obtain ⟨kind, name⟩ := p
  simp only [todo, List.mem_flatMap, List.mem_map, Prod.mk.injEq]
  constructor
  · rintro ⟨_, -, _, hn, rfl, rfl⟩; exact hn
  · intro h; exact ⟨kind, by cases kind <;> simp, name, h, rfl, rfl⟩

theorem nodup_todo {names : Kind → List String} (h : ∀ kind, (names kind).Nodup) :
    (todo names).Nodup := by
  refine List.nodup_flatMap.2 ⟨fun kind _ => (h kind).map fun _ _ heq => (Prod.mk.inj heq).2, ?_⟩
  have hdisj : ∀ kind kind', kind ≠ kind' →
      List.Disjoint ((names kind).map fun name => (kind, name))
        ((names kind').map fun name => (kind', name)) := by
    intro kind kind' hne p hp hp'
    obtain ⟨_, -, rfl⟩ := List.mem_map.1 hp
    obtain ⟨_, -, heq⟩ := List.mem_map.1 hp'
    exact hne (Prod.mk.inj heq).1.symm
  simp [hdisj]

theorem nodup_todo_names (s : State α) :
    (todo s.names).Nodup := nodup_todo fun kind => (s.registries kind).nodup_names

/-- The next name is none of those that are done. -/
theorem not_mem_done {done rest : Names} {p : Kind × String}
    (htodo : todo s.names = done ++ p :: rest) : p ∉ done :=
  fun hp => (List.nodup_append.1 (htodo ▸ nodup_todo_names s)).2.2 p hp p List.mem_cons_self rfl

theorem names_eq (h : s'.registries = s.registries) : s'.names = s.names := by
  funext kind
  simp only [State.names, h]

/-- What `deactivate` still has to go through, the current loop first. -/
def remaining (s : State α) (kind : Kind) (rest : List String) (kinds : List Kind) : Names :=
  rest.map (fun name => (kind, name)) ++ kinds.flatMap fun kind => (s.activated kind).map
    fun name => (kind, name)

theorem remaining_start (s : State α) :
    remaining s .rpc (s.activated .rpc) [.queue, .broadcast] = todo s.activated := rfl

/-! ## Where the calls are -/

/-- Transport `t` holds `L`, the others nothing. -/
def OnlyHolds (s : State α) (t : TransportId) (L : Names) : Prop :=
  (s.transports t).Holds L [] ∧ ∀ t', t' ≠ t → (s.transports t').Holds [] []

/-- No call is under way. -/
def AtRest (s : State α) : Prop :=
  match s.server with
  | none => (∀ kind, s.activated kind = []) ∧ ∀ t, (s.transports t).Holds [] []
  | some t => s.activated = s.names ∧ OnlyHolds s t (todo s.names)

/-- A call is at this transport call. -/
def TaskOk (s : State α) : Task → Prop
  | .unregistering t kind name rest kinds op =>
    s.server = some t ∧ s.activated = s.names ∧ op ≠ .activate (some t) ∧
      (∃ done, todo s.names = done ++ (kind, name) :: remaining s kind rest kinds) ∧
      OnlyHolds s t ((kind, name) :: remaining s kind rest kinds)
  | .registering t kind name rest names =>
    s.server = some t ∧ (∀ kind, s.activated kind = []) ∧ names = s.names ∧
      ∃ done, todo s.names = done ++ (kind, name) :: rest ∧ OnlyHolds s t done
  | .finished _ => False

/-- All tasks but `k` have returned. -/
def OthersReturned (s : State α) (k : TaskId) : Prop :=
  ∀ k' task, k' ≠ k → s.tasks k' = some task → task = .finished .returned

/-- At most one call is under way, and everything is where it should be. -/
inductive Core (s : State α) : Prop
  | rest (h : AtRest s) (htasks : ∀ k task, s.tasks k = some task → task = .finished .returned)
  | busy (k : TaskId) (task : Task) (hk : s.tasks k = some task) (h : TaskOk s task)
    (hothers : OthersReturned s k)

theorem OnlyHolds.congr {L L' : Names} (h : OnlyHolds s t L) (hL : ∀ p, p ∈ L ↔ p ∈ L') :
    OnlyHolds s t L' :=
  ⟨h.1.congr hL, h.2⟩

theorem OnlyHolds.all (h : OnlyHolds s t []) : ∀ t, (s.transports t).Holds [] [] := fun t' => by
  by_cases ht : t' = t
  · exact ht ▸ h.1
  · exact h.2 t' ht

theorem OnlyHolds.setTransport {L L' : Names} {tr : Transport} (h : OnlyHolds s t L)
    (htr : tr.Holds L' []) :
    OnlyHolds (s.setTransport t tr) t L' := by
  refine ⟨by simp only [State.setTransport, Function.update_self]; exact htr, fun t' ht => ?_⟩
  simp only [State.setTransport, Function.update_of_ne ht]
  exact h.2 t' ht

theorem setTask_returned (h : OthersReturned s k) {s' : State α}
    (hs' : s'.tasks = Function.update s.tasks k (some (.finished .returned))) :
    ∀ k' task, s'.tasks k' = some task → task = .finished .returned := by
  intro k' task ht
  rw [hs'] at ht
  rcases Dict.lookup_update ht with ⟨-, rfl⟩ | ⟨hk, hold⟩
  · rfl
  · exact h k' task hk hold

theorem setTask_others (h : OthersReturned s k) {s' : State α} {o : Option Task}
    (hs' : s'.tasks = Function.update s.tasks k o) : OthersReturned s' k := by
  intro k' task hk ht
  rw [hs', Function.update_of_ne hk] at ht
  exact h k' task hk ht

/-! ## From one transport call to the next -/

theorem activateNames_core (done : Names) {rest : Names} (hserver : s.server = some t)
    (hact : ∀ kind, s.activated kind = []) (htodo : todo s.names = done ++ rest)
    (hholds : OnlyHolds s t done) (hothers : OthersReturned s k) :
    Core (activateNames s k s.names rest) := by
  cases rest with
  | nil =>
    refine .rest ?_ (setTask_returned hothers rfl)
    simp only [activateNames, AtRest, State.setTask, hserver]
    rw [List.append_nil] at htodo
    exact ⟨rfl, htodo ▸ hholds⟩
  | cons p rest =>
    obtain ⟨kind, name⟩ := p
    simp only [activateNames, hserver]
    exact .busy k _ (Function.update_self ..) ⟨hserver, hact, rfl, done, htodo, hholds⟩
      (setTask_others hothers rfl)

theorem enter_core (hact : ∀ kind, s.activated kind = [])
    (hholds : ∀ t, (s.transports t).Holds [] []) (hothers : OthersReturned s k)
    (server : Option TransportId) : Core (enter s k server) := by
  cases server with
  | none => exact .rest ⟨hact, hholds⟩ (setTask_returned hothers rfl)
  | some t =>
    have hs : OnlyHolds { s with server := some t } t [] := ⟨hholds t, fun t' _ => hholds t'⟩
    exact activateNames_core (s := { s with server := some t }) [] rfl hact rfl hs hothers

theorem leave_core (hholds : ∀ t, (s.transports t).Holds [] []) (hothers : OthersReturned s k)
    (op : Op) :
    Core (leave s k op) := by
  cases op with
  | deactivate => exact .rest ⟨fun _ => rfl, hholds⟩ (setTask_returned hothers rfl)
  | activate server =>
    exact enter_core (s := { s with activated := fun _ => [], server := none })
      (fun _ => rfl) hholds hothers server

theorem deactivateLoop_core {op : Op} (hserver : s.server = some t) (hact : s.activated = s.names)
    (hop : op ≠ .activate (some t)) (hothers : OthersReturned s k) :
    ∀ (kind : Kind) (rest : List String) (kinds : List Kind),
      (∃ done, todo s.names = done ++ remaining s kind rest kinds) →
      OnlyHolds s t (remaining s kind rest kinds) →
      Core (deactivateLoop s k op kind rest kinds)
  | kind, name :: rest, kinds, htodo, hholds => by
    simp only [deactivateLoop, hserver]
    exact .busy k _ (Function.update_self ..) ⟨hserver, hact, hop, htodo, hholds⟩
      (setTask_others hothers rfl)
  | kind, [], kind' :: kinds, htodo, hholds =>
    deactivateLoop_core hserver hact hop hothers kind' _ kinds htodo hholds
  | kind, [], [], _, hholds => leave_core hholds.all hothers op

/-! ## Steps -/

theorem Core.start (h : Core s) {op : Op} (hs : start s k op = some s')
    (hserial : op.isNoop s = false → ∀ k task, s.tasks k = some task → ∃ o, task = .finished o) :
    Core s' := by
  unfold Router.start at hs
  split at hs
  · cases hs
  · rename_i hfree
    split at hs
    · -- a call that returns at once may overlap with anything
      cases hs
      cases h with
      | rest h htasks => exact .rest h (setTask_returned (fun k' task _ => htasks k' task) rfl)
      | busy k₀ task hk₀ h hothers =>
        have hne : k₀ ≠ k := by rintro rfl; rw [hfree] at hk₀; cases hk₀
        refine .busy k₀ task ((Function.update_of_ne hne ..).trans hk₀) ?_ fun k' task' hk' ht' =>
          ?_
        · cases task <;> exact h
        · rcases Dict.lookup_update ht' with ⟨-, rfl⟩ | ⟨-, hold⟩
          · rfl
          · exact hothers k' task' hk' hold
    · rename_i hnoop
      cases h with
      | busy k₀ task hk₀ h hothers =>
        obtain ⟨o, rfl⟩ := hserial (by simpa using hnoop) k₀ task hk₀
        exact h.elim
      | rest h htasks =>
        have hothers : OthersReturned s k := fun k' task _ => htasks k' task
        have deactivating : ∀ t, s.server = some t → Core (deactivateStart s k op) := by
          intro t hserver
          simp only [AtRest, hserver] at h
          have hop : op ≠ .activate (some t) := by
            rintro rfl
            simp [Op.isNoop, hserver] at hnoop
          refine deactivateLoop_core hserver h.1 hop hothers _ _ _ ⟨[], ?_⟩ ?_
          · rw [List.nil_append, remaining_start, h.1]
          · rw [remaining_start, h.1]; exact h.2
        cases hserver : s.server with
        | some t =>
          have hs' : deactivateStart s k op = s' := by
            cases op <;> simpa only [hserver, Option.some.injEq] using hs
          exact hs' ▸ deactivating t hserver
        | none =>
          cases op with
          | activate server =>
            simp only [AtRest, hserver] at h
            simp only [hserver, Option.some.injEq] at hs
            exact hs ▸ enter_core h.1 h.2 hothers server
          | deactivate => simp [Op.isNoop, hserver] at hnoop

/-- A task that is in a call is where it should be. -/
theorem Core.ok (h : Core s) {task : Task} (hk : s.tasks k = some task)
    (hnot : ∀ o, task ≠ .finished o) :
    TaskOk s task ∧ OthersReturned s k := by
  cases h with
  | rest _ htasks => exact absurd (htasks k task hk) (hnot _)
  | busy k₀ task₀ hk₀ h hothers =>
    by_cases hkk : k = k₀
    · subst hkk
      rw [hk] at hk₀
      cases hk₀
      exact ⟨h, hothers⟩
    · exact absurd (hothers k task hkk hk) (hnot _)

theorem Core.completes (h : Core s) (hs : completes s k = some s') : Core s' := by
  unfold Router.completes at hs
  split at hs
  · rename_i t kind name rest kinds op hk
    cases hs
    obtain ⟨⟨hserver, hact, hop, ⟨done, htodo⟩, hholds⟩, hothers⟩ := h.ok hk (by simp)
    have hnotin : (kind, name) ∉ remaining s kind rest kinds :=
      (List.nodup_cons.1 (List.nodup_append.1 (htodo ▸ nodup_todo_names s)).2.1).1
    refine deactivateLoop_core (s := s.setTransport t ((s.transports t).unregister kind name))
      hserver hact hop hothers
      kind rest kinds ⟨done ++ [(kind, name)], ?_⟩ ?_
    · rw [List.append_assoc]
      exact htodo
    · refine OnlyHolds.congr (hholds.setTransport (hholds.1.unregister kind name)) fun p => ?_
      simp only [mem_without, List.mem_cons]
      constructor
      · rintro ⟨rfl | hp, hne⟩
        · exact absurd rfl hne
        · exact hp
      · intro hp
        exact ⟨Or.inr hp, by rintro rfl; exact hnotin hp⟩
  · rename_i t kind name rest names hk
    cases hs
    obtain ⟨⟨hserver, hact, rfl, done, htodo, hholds⟩, hothers⟩ := h.ok hk (by simp)
    have hnotin : (kind, name) ∉ done := not_mem_done htodo
    refine activateNames_core (s := s.setTransport t ((s.transports t).register kind name))
      (done ++ [(kind, name)])
      hserver hact (by rw [List.append_assoc]; exact htodo) ?_ hothers
    refine OnlyHolds.congr (hholds.setTransport (hholds.1.register hnotin List.not_mem_nil))
      fun p => ?_
    simp [or_comm]
  · cases hs

/-- A registration succeeds only without a server, and changes nothing otherwise. -/
theorem registerTask_cases (s : State α) (kind : Kind) (name : String) (item : α) :
    (∃ e, registerTask kind name item s = .error e s) ∨
      s.server = none ∧ ∃ m, (s.registries kind).register name item = .ok m ∧
        registerTask kind name item s = .ok ()
        { s with registries := Function.update s.registries kind m } := by
  obtain ⟨registries, server, activated, transports, tasks, received, jobNotFound⟩ := s
  have hget : ∀ s, (get : EStateM Rejection (State α) (State α)) s = .ok s s := fun _ => rfl
  rw [registerTask, Effect.bind_of_ok (hget _)]
  cases server with
  | some t => exact Or.inl ⟨.lateRegistration name, rfl⟩
  | none =>
    dsimp only
    rw [Effect.bind_of_ok (hget _)]
    dsimp only
    cases hm : (registries kind).register name item with
    | error e => exact Or.inl ⟨.registeringTwice e, rfl⟩
    | ok m => exact Or.inr ⟨rfl, m, rfl, rfl⟩

theorem Core.register (h : Core s) (kind : Kind) (name : String) (item : α) :
    Core (after (registerTask kind name item s)) := by
  rcases registerTask_cases s kind name item with ⟨e, he⟩ | ⟨hserver, m, -, hm⟩
  · rw [he]; exact h
  · rw [hm]
    cases h with
    | rest h htasks =>
      refine .rest ?_ htasks
      simp only [AtRest, hserver] at h
      simp only [AtRest, after, hserver]
      exact h
    | busy k task hk h hothers =>
      cases task with
      | finished o => exact h.elim
      | unregistering => rw [h.1] at hserver; cases hserver
      | registering => rw [h.1] at hserver; cases hserver

/-- What the transports hold is registered. -/
theorem Core.callbacks (h : Core s) (t : TransportId) (kind : Kind) (name : String) :
    ∀ callback ∈ (s.transports t).callbacks kind name, callback = ⟨kind, name⟩ ∧
    name ∈ s.names kind := by
  have holds : ∃ L, (s.transports t).Holds L [] ∧ ∀ p ∈ L, p ∈ todo s.names := by
    have only : ∀ {t₀ L}, OnlyHolds s t₀ L → (∀ p ∈ L, p ∈ todo s.names) →
        ∃ L, (s.transports t).Holds L [] ∧ ∀ p ∈ L, p ∈ todo s.names := by
      intro t₀ L h hL
      by_cases ht : t = t₀
      · exact ⟨L, ht ▸ h.1, hL⟩
      · exact ⟨[], h.2 t ht, by simp⟩
    cases h with
    | rest h _ =>
      cases hserver : s.server with
      | none => simp only [AtRest, hserver] at h; exact ⟨[], h.2 t, by simp⟩
      | some t₀ => simp only [AtRest, hserver] at h; exact only h.2 fun _ hp => hp
    | busy k task _ h _ =>
      cases task with
      | finished o => exact h.elim
      | unregistering =>
        obtain ⟨-, -, -, ⟨done, htodo⟩, hholds⟩ := h
        exact only hholds fun p hp => htodo ▸ List.mem_append_right _ hp
      | registering =>
        obtain ⟨-, -, -, done, htodo, hholds⟩ := h
        exact only hholds fun p hp => htodo ▸ List.mem_append_left _ hp
  obtain ⟨L, hL, hsub⟩ := holds
  intro callback hmem
  rw [hL.callbacks] at hmem
  split at hmem
  · rename_i hin
    refine ⟨List.mem_singleton.1 hmem, ?_⟩
    rcases hin with hin | hin
    · exact mem_todo.1 (hsub _ hin)
    · cases hin
  · cases hmem

/-- The whole of what holds along a run. -/
structure Inv (s : State α) : Prop where
  core : Core s
  received : ∀ callback ∈ s.received, callback.name ∈ s.names callback.kind
  found : s.jobNotFound = false

theorem inv_init {transports : TransportId → Transport} (h : ∀ t, (transports t).Fresh) :
    Inv (State.init transports : State α) :=
  ⟨.rest ⟨fun _ => rfl, fun t => (h t).holds⟩ (by simp [State.init]), by simp [State.init], rfl⟩

/-- Steps of the calls read and write neither messages nor registries. -/
structure Quiet (s s' : State α) : Prop where
  registries : s'.registries = s.registries
  received : s'.received = s.received
  jobNotFound : s'.jobNotFound = s.jobNotFound

theorem Quiet.inv (hq : Quiet s s') (h : Inv s) (hcore : Core s') : Inv s' :=
  ⟨hcore, fun c hc => by rw [State.names, hq.registries]; exact h.received c (hq.received ▸ hc),
    hq.jobNotFound.trans h.found⟩

theorem activateNames_quiet (s : State α) (k : TaskId) (names : Kind → List String) (rest : Names) :
    Quiet s (activateNames s k names rest) := by
  cases rest with
  | nil => exact ⟨rfl, rfl, rfl⟩
  | cons p rest => simp only [activateNames]; split <;> exact ⟨rfl, rfl, rfl⟩

theorem enter_quiet (s : State α) (k : TaskId) (server : Option TransportId) :
    Quiet s (enter s k server) := by
  cases server with
  | none => exact ⟨rfl, rfl, rfl⟩
  | some t =>
    obtain ⟨h₁, h₂, h₃⟩ := activateNames_quiet { s with server := some t } k s.names (todo s.names)
    exact ⟨h₁, h₂, h₃⟩

theorem deactivateLoop_quiet (s : State α) (k : TaskId) (op : Op) :
    ∀ (kind : Kind) (rest : List String) (kinds : List Kind),
    Quiet s (deactivateLoop s k op kind rest kinds)
  | kind, name :: rest, kinds => by simp only [deactivateLoop]; split <;> exact ⟨rfl, rfl, rfl⟩
  | kind, [], kind' :: kinds => deactivateLoop_quiet s k op kind' _ kinds
  | kind, [], [] => by
    cases op with
    | deactivate => exact ⟨rfl, rfl, rfl⟩
    | activate server =>
      obtain ⟨h₁, h₂, h₃⟩ := enter_quiet
        { s with activated := fun _ => [], server := none } k server
      exact ⟨h₁, h₂, h₃⟩

theorem start_quiet {op : Op} (hs : start s k op = some s') : Quiet s s' := by
  unfold start at hs
  split at hs
  · cases hs
  · split at hs
    · cases hs; exact ⟨rfl, rfl, rfl⟩
    · split at hs
      · cases hs; exact enter_quiet ..
      · cases hs; exact deactivateLoop_quiet ..

theorem completes_quiet (hs : completes s k = some s') : Quiet s s' := by
  unfold completes at hs
  split at hs
  · rename_i t kind name rest kinds op _
    cases hs
    obtain ⟨h₁, h₂, h₃⟩ := deactivateLoop_quiet
      (s.setTransport t ((s.transports t).unregister kind name)) k op kind rest kinds
    exact ⟨h₁, h₂, h₃⟩
  · rename_i t kind name rest names _
    cases hs
    obtain ⟨h₁, h₂, h₃⟩ := activateNames_quiet
      (s.setTransport t ((s.transports t).register kind name)) k names rest
    exact ⟨h₁, h₂, h₃⟩
  · cases hs

theorem raises_quiet {f : Failure} (hs : raises s k f = some s') : Quiet s s' := by
  unfold raises at hs
  split at hs
  · obtain ⟨tr, -, rfl⟩ := Option.map_eq_some_iff.1 hs; exact ⟨rfl, rfl, rfl⟩
  · obtain ⟨tr, -, rfl⟩ := Option.map_eq_some_iff.1 hs; exact ⟨rfl, rfl, rfl⟩
  · cases hs

/-! ## Runs -/

/-- No transport call fails, and a call that would change the server starts only while no
other call is under way. -/
def Serialized (s : State α) (e : Event α) (_ : State α) : Prop :=
  match e with
  | .start _ op => op.isNoop s = false → ∀ k task, s.tasks k = some task → ∃ o, task = .finished o
  | .raises _ _ => False
  | _ => True

/-- No transport call fails, and calls follow each other. -/
def Sequential (s : State α) (e : Event α) (_ : State α) : Prop :=
  match e with
  | .start _ _ => ∀ k task, s.tasks k = some task → ∃ o, task = .finished o
  | .raises _ _ => False
  | _ => True

theorem Sequential.serialized {e : Event α} (h : Sequential s e s') : Serialized s e s' := by
  cases e with
  | start k op => exact fun _ => h
  | _ => exact h

/-- Messages concern no call. -/
theorem Core.messages (h : Core s) (received : List Callback) (jobNotFound : Bool) :
    Core { s with received := received, jobNotFound := jobNotFound } := by
  cases h with
  | rest h htasks => exact .rest h htasks
  | busy k task hk h hothers => exact .busy k task hk (by cases task <;> exact h) hothers

theorem Inv.register (h : Inv s) (kind : Kind) (name : String) (item : α) :
    Inv (after (registerTask kind name item s)) := by
  have hcore := h.core.register kind name item
  rcases registerTask_cases s kind name item with ⟨e, he⟩ | ⟨-, m, hreg, hm⟩
  · rw [he]; exact h
  · rw [hm] at hcore ⊢
    refine ⟨hcore, fun callback hc => ?_, h.found⟩
    have hold := h.received callback hc
    simp only [State.names, after] at hold ⊢
    by_cases hk : callback.kind = kind
    · subst hk
      rw [Function.update_self]
      exact (Manager.mem_names_register hreg).2 (Or.inr hold)
    · rw [Function.update_of_ne hk]; exact hold

theorem Inv.delivered (h : Inv s) {kind : Kind} {name : String} {i : Nat}
    (hs : delivered s t kind name i = some s') : Inv s' := by
  unfold Router.delivered at hs
  split at hs
  · cases hs
  · rename_i callback hget
    cases hs
    refine ⟨h.core.messages _ s.jobNotFound, fun c hc => ?_, h.found⟩
    rcases List.mem_cons.1 hc with rfl | hc
    · obtain ⟨rfl, hn⟩ := h.core.callbacks t kind name _ (List.mem_of_getElem? hget)
      exact hn
    · exact h.received c hc

theorem Inv.looksUp (h : Inv s) {i : Nat} (hs : looksUp s i = some s') : Inv s' := by
  unfold Router.looksUp at hs
  split at hs
  · cases hs
  · rename_i callback hget
    cases hs
    have hsome := Manager.mem_names_iff.1 (h.received callback (List.mem_of_getElem? hget))
    exact ⟨h.core.messages _ _, fun c hc =>
      h.received c (List.mem_of_mem_eraseIdx hc), by simp [h.found, hsome]⟩

/-- **One step.** -/
theorem Inv.step (h : Inv s) {e : Event α} (hserial : Serialized s e s') (hs : step s e = some s') :
    Inv s' := by
  cases e with
  | register kind name item => cases hs; exact h.register kind name item
  | start k op => exact (start_quiet hs).inv h (h.core.start hs hserial)
  | completes k => exact (completes_quiet hs).inv h (h.core.completes hs)
  | raises k f => exact hserial.elim
  | delivered t kind name i => exact h.delivered hs
  | looksUp i => exact h.looksUp hs

theorem run_inv {transports : TransportId → Transport} (hfresh : ∀ t, (transports t).Fresh)
    {es : List (Event α)} (hserial : Along step Serialized (State.init transports) es)
    (hrun : run step (State.init transports) es = some s) :
    Inv s :=
  run_invariant_of_along (fun _ _ _ (hi : Inv _) hR (hs : step _ _ = _) => hi.step hR hs) es hserial
    hrun (inv_init hfresh)

/-- Every `activate` and `deactivate` started so far has ended. -/
def AllFinished (s : State α) : Prop := ∀ k task, s.tasks k = some task → ∃ o, task = .finished o

theorem allFinished_of_returned (h : ∀ k, s.tasks k = none ∨
      s.tasks k = some (.finished .returned)) : AllFinished s := by
  intro k task hk
  rcases h k with hn | hf
  · rw [hn] at hk; cases hk
  · rw [hf] at hk; cases hk; exact ⟨_, rfl⟩

/-- The server holds one callback for each registered name of each kind, no other transport
holds any, and `_activated` records just that; without a server nobody holds any. -/
def Settled (s : State α) : Prop :=
  match s.server with
  | none => ∀ t kind name, (s.transports t).callbacks kind name = []
  | some t => s.activated = s.names ∧ ∀ t' kind name, (s.transports t').callbacks kind name =
      if t' = t ∧ name ∈ s.names kind then [⟨kind, name⟩] else []

theorem AtRest.settled (h : AtRest s) : Settled s := by
  unfold AtRest at h
  unfold Settled
  split
  · rename_i hserver
    rw [hserver] at h
    intro t kind name
    simp [(h.2 t).callbacks]
  · rename_i t hserver
    rw [hserver] at h
    refine ⟨h.1, fun t' kind name => ?_⟩
    by_cases ht : t' = t
    · subst ht; simp [h.2.1.callbacks]
    · simp [(h.2.2 t' ht).callbacks, ht]

theorem Core.atRest (h : Core s) (hall : AllFinished s) : AtRest s := by
  cases h with
  | rest h _ => exact h
  | busy k task hk h _ =>
    obtain ⟨o, rfl⟩ := hall k task hk
    exact h.elim

theorem Core.settled (h : Core s) (hall : AllFinished s) : Settled s := (h.atRest hall).settled

/-- Nobody has been raised at. -/
theorem Core.returned (h : Core s) (k : TaskId) (o : Ending) (hk : s.tasks k = some (.finished o)) :
    o = .returned := by
  cases h with
  | rest _ htasks => simpa using htasks k _ hk
  | busy k₀ task hk₀ h hothers =>
    by_cases hkk : k = k₀
    · subst hkk
      rw [hk₀] at hk
      cases hk
      exact h.elim
    · simpa using hothers k _ hkk hk

/-- Registries are frozen while there is a server, in any run whatsoever. -/
theorem registries_frozen {e : Event α} (hs : step s e = some s') (hserver : s.server ≠ none) :
    s'.registries = s.registries := by
  cases e with
  | register kind name item =>
    cases hs
    rcases registerTask_cases s kind name item with ⟨e, he⟩ | ⟨hnone, -⟩
    · rw [he]; rfl
    · exact absurd hnone hserver
  | start k op => exact (start_quiet hs).registries
  | completes k => exact (completes_quiet hs).registries
  | raises k f => exact (raises_quiet hs).registries
  | delivered t kind name i =>
    simp only [step, delivered] at hs
    split at hs <;> cases hs
    rfl
  | looksUp i =>
    simp only [step, looksUp] at hs
    split at hs <;> cases hs
    rfl

/-- A rejected registration changes nothing. -/
theorem rejected_unchanged {kind : Kind} {name : String} {item : α} {e : Rejection}
    (h : registerTask kind name item s = .error e s') : s' = s := by
  rcases registerTask_cases s kind name item with ⟨e', he⟩ | ⟨-, m, -, hm⟩
  · rw [he] at h; cases h; rfl
  · rw [hm] at h; cases h

/-- **Lifecycle.** Calls of `activate` and `deactivate` one after another, registrations and
messages at any moment in between, no transport failure. -/
theorem lifecycle {transports : TransportId → Transport} (hfresh : ∀ t, (transports t).Fresh)
    {es : List (Event α)} (hseq : Along step Sequential (State.init transports) es) {s : State α}
    (hrun : run step (State.init transports) es = some s) :
    (AllFinished s → Settled s) ∧
    (∀ e s', s.server ≠ none → step s e = some s' → s'.registries = s.registries) ∧
    (∀ kind name item e s', registerTask kind name item s = .error e s' → s' = s) ∧
    s.jobNotFound = false := by
  have h := run_inv hfresh (hseq.mono fun _ _ _ => Sequential.serialized) hrun
  exact ⟨h.core.settled, fun e s' hserver hs => registries_frozen hs hserver, fun _ _ _ _ _ hr =>
    rejected_unchanged hr, h.found⟩

/-- An activation, a message, and a switch of the transport. -/
theorem lifecycle_demo :
    let es : List (Event Nat) :=
      [.register .rpc "m.f" 7, .start 0 (.activate (some 0)), .completes 0,
        .delivered 0 .rpc "m.f" 0, .looksUp 0,
        .start 1 (.activate (some 1)), .completes 1, .completes 1]
    ∃ s, run step (State.init fun _ => .amqp .empty) es = some s ∧ s.server = some 1 ∧ Settled s ∧
      s.jobNotFound = false := by
  intro es
  have hseq : Along step Sequential (State.init fun _ => .amqp .empty) es := by
    refine .cons rfl trivial (.cons rfl (allFinished_of_returned fun k => .inl rfl)
      (.cons rfl trivial (.cons rfl trivial
      (.cons rfl trivial (.cons rfl (allFinished_of_returned fun k => ?_)
        (.cons rfl trivial (.cons rfl trivial trivial)))))))
    match k with
    | 0 => exact .inr rfl
    | _ + 1 => exact .inl rfl
  have h := lifecycle (fun _ => Or.inr rfl) hseq rfl
  refine ⟨_, rfl, rfl, h.1 (allFinished_of_returned fun k => ?_), h.2.2.2⟩
  match k with
  | 0 | 1 => exact .inr rfl
  | _ + 2 => exact .inl rfl

/-! ## Calls that overlap -/

/-- **Serialized calls.** A call that returns at once may overlap with anything; as long as the
others wait for each other, none of them raises and the last one leaves everything settled. -/
theorem serialized_calls {transports : TransportId → Transport} (hfresh : ∀ t, (transports t).Fresh)
    {es : List (Event α)} (hserial : Along step Serialized (State.init transports) es) {s : State α}
    (hrun : run step (State.init transports) es = some s) :
    (∀ k o, s.tasks k = some (.finished o) → o = .returned) ∧ (AllFinished s → Settled s) := by
  have h := run_inv hfresh hserial hrun
  exact ⟨h.core.returned, h.core.settled⟩

/-- A second `activate` of the same AMQP transport while the first waits for the broker. -/
theorem serialized_calls_demo :
    let es : List (Event Nat) :=
      [.register .rpc "m.f" 7, .start 0 (.activate (some 0)), .start 1 (.activate (some 0)),
        .completes 0]
    ∃ s, run step (State.init fun _ => .amqp .empty) es = some s ∧
      s.tasks 1 = some (.finished .returned) ∧ Settled s := by
  intro es
  have hserial : Along step Serialized (State.init fun _ => .amqp .empty) es := by
    refine .cons rfl trivial (.cons rfl (fun _ => allFinished_of_returned fun k => .inl rfl)
      (.cons rfl (fun hop => ?_)
      (.cons rfl trivial trivial)))
    cases hop
  have h := serialized_calls (fun _ => Or.inr rfl) hserial rfl
  refine ⟨_, rfl, rfl, h.2 (allFinished_of_returned fun k => ?_)⟩
  match k with
  | 0 | 1 => exact .inr rfl
  | _ + 2 => exact .inl rfl

/-- Nothing makes the calls wait for each other: a `deactivate` that starts while an `activate`
waits for the broker ends before it, and the `activate` then finds no server; a switch that starts there
leaves a callback on the old transport. -/
theorem overlapping_calls :
    (¬ ∀ (es : List (Event Nat)) (s : State Nat), (∀ k f, Event.raises k f ∉ es) →
        run step (State.init fun _ => .amqp .empty) es = some s →
        ∀ k o, s.tasks k = some (.finished o) → o = .returned) ∧
    ¬ ∀ (es : List (Event Nat)) (s : State Nat), (∀ k f, Event.raises k f ∉ es) →
        run step (State.init fun _ => .amqp .empty) es = some s → AllFinished s → Settled s := by
  constructor
  · intro h
    have hraised := h [.register .rpc "m.f" 7, .register .rpc "m.g" 8,
      .start 0 (.activate (some 0)), .start 1 .deactivate,
      .completes 0] _ (by simp) rfl 0 (.raised .attributeError) rfl
    cases hraised
  · intro h
    have hsettled := h [.register .rpc "m.f" 7, .start 0 (.activate (some 0)),
      .start 1 (.activate (some 1)), .completes 0,
      .completes 1] _ (by simp) rfl (allFinished_of_returned fun k => by
        match k with
        | 0 | 1 => exact .inr rfl
        | _ + 2 => exact .inl rfl)
    exact absurd (hsettled.2 0 .rpc "m.f") (by decide)

end Atasks.Router
