import Atasks.Amqp.Fleet
import Atasks.Commands.Spec
/-!
# The namespaces of a service on one broker

A service may run several namespaces through `transport=amqp` and one broker url. Each gets
an `AMQPTransport` of its own, told nothing but its namespace and the url
(`NamespaceSpec.amqpTransport`), and a transport does not use its namespace for any name at the
broker. So the namespaces share all keys and queues, and "One namespace is completely
separated from another" (`README.md`) is up to the names that happen to be used in them:
`separated_iff`. Only the routers of serving namespaces are activated (`service.py:343-344`,
`:378-379`), so what a client namespace has coroutines for is never registered at the broker.
-/

namespace Atasks.Commands

open Machine Amqp

/-- What `aiomain` is configured with; the transport of the `t`-th namespace is instance `t`. -/
structure AmqpService where
  namespaces : List NamespaceSpec
  url : String
  distinct : (namespaces.map NamespaceSpec.name).Nodup
  amqp : ∀ ns ∈ namespaces, ns.transport = .amqp ∧ ns.url = some url

/-- The tasks of the service: which names of which kind each namespace has coroutines for, and
which it sends to. -/
structure Tasks where
  registered : List (NodeId × Kind × String)
  sent : List (NodeId × Kind × String)

namespace AmqpService

def namespaceOf (svc : AmqpService) (t : NodeId) : Option String :=
    svc.namespaces[t]?.map NamespaceSpec.name

def config (svc : AmqpService) (t : NodeId) : Option Config :=
    svc.namespaces[t]?.map fun ns => ns.amqpTransport.config

/-- The `t`-th namespace is one whose router `aiomain` activates. -/
def serves (svc : AmqpService) (t : NodeId) : Bool := svc.namespaces[t]?.any NamespaceSpec.serves

/-- The instance that takes part in an event and the names it may use there; the broker acts
for itself. -/
def allows (svc : AmqpService) (tasks : Tasks) : Fleet.Event → Bool
  | .register t kind name _ => svc.serves t && decide ((t, kind, name) ∈ tasks.registered)
  | .publish t kind name _ => (t, kind, name) ∈ tasks.sent
  | .connect .. | .accept _ | .deliver .. => true

/-- One event at the broker, every instance using its own configuration. -/
def step (svc : AmqpService) (tasks : Tasks) (s : Fleet) (e : Fleet.Event) : Option Fleet :=
  if svc.allows tasks e then
    match e with
    | .connect t _ | .register t _ _ _ | .publish t _ _ _ =>
      (svc.config t).bind fun cfg => Fleet.step cfg s e
    | .accept i => s.accept i
    | .deliver i j again => s.deliver i j again
  else none

/-- What is handled in a namespace was sent in it. -/
def Separated (svc : AmqpService) (s : Fleet) : Prop :=
  ∀ m r, (m, r) ∈ s.handled → svc.namespaceOf r.node = svc.namespaceOf m.node

/-- No namespace sends to a name that a registered name of another, serving one matches. -/
def Disjoint (svc : AmqpService) (tasks : Tasks) : Prop :=
  ∀ t kind name t' name', t < svc.namespaces.length → svc.serves t' = true →
    (t, kind, name) ∈ tasks.sent → (t', kind, name') ∈ tasks.registered →
    Topic.keyMatches name' name = true → t' = t

theorem lt_of_serves {svc : AmqpService} {t : NodeId} (h : svc.serves t = true) :
    t < svc.namespaces.length := by
  cases hns : svc.namespaces[t]? with
  | none => simp [serves, hns] at h
  | some ns => exact (List.getElem?_eq_some_iff.1 hns).1

/-- All instances act alike: the configuration of each is the default one. -/
theorem step_cases {svc : AmqpService} {tasks : Tasks} {s s' : Fleet} {e : Fleet.Event}
    (h : svc.step tasks s e = some s') :
    svc.allows tasks e = true ∧ Fleet.step .default s e = some s' ∧
      ((∃ i, e = .accept i) ∨ (∃ i j again, e = .deliver i j again) ∨
        ∃ t < svc.namespaces.length, (∃ q, e = .connect t q) ∨
        (∃ kind name q, e = .register t kind name q) ∨
          ∃ kind name body, e = .publish t kind name body) := by
  unfold step at h
  split at h
  · rename_i ha
    have valid : ∀ {t e}, ((svc.config t).bind fun cfg => Fleet.step cfg s e) = some s' →
        t < svc.namespaces.length ∧ Fleet.step .default s e = some s' := by
      intro t e he
      obtain ⟨cfg, hcfg, he⟩ := Option.bind_eq_some_iff.1 he
      obtain ⟨ns, hns, rfl⟩ := Option.map_eq_some_iff.1 hcfg
      exact ⟨(List.getElem?_eq_some_iff.1 hns).1, he⟩
    refine ⟨ha, ?_⟩
    cases e with
    | connect t q =>
      obtain ⟨ht, he⟩ := valid h
      exact ⟨he, Or.inr (Or.inr ⟨t, ht, Or.inl ⟨q, rfl⟩⟩)⟩
    | register t kind name q =>
      obtain ⟨ht, he⟩ := valid h
      exact ⟨he, Or.inr (Or.inr ⟨t, ht, Or.inr (Or.inl ⟨kind, name, q, rfl⟩)⟩)⟩
    | publish t kind name body =>
      obtain ⟨ht, he⟩ := valid h
      exact ⟨he, Or.inr (Or.inr ⟨t, ht, Or.inr (Or.inr ⟨kind, name, body, rfl⟩)⟩)⟩
    | accept i => exact ⟨h, Or.inl ⟨i, rfl⟩⟩
    | deliver i j again => exact ⟨h, Or.inr (Or.inl ⟨i, j, again, rfl⟩)⟩
  · cases h

/-- `m` is a message the service sends. -/
def Sends (svc : AmqpService) (tasks : Tasks) (m : Sent) : Prop :=
  m.node < svc.namespaces.length ∧ (m.node, m.kind, m.name) ∈ tasks.sent

/-- Everything in the fleet comes from the service. -/
structure Uses (svc : AmqpService) (tasks : Tasks) (s : Fleet) : Prop where
  traffic : Fleet.Traffic .default s
  registered : ∀ r ∈ s.registered, svc.serves r.node = true ∧
    (r.node, r.kind, r.name) ∈ tasks.registered
  wire : ∀ m ∈ s.wire, Sends svc tasks m
  queued : ∀ q m, (q, m) ∈ s.queued → Sends svc tasks m
  handled : ∀ m r, (m, r) ∈ s.handled → Sends svc tasks m

theorem uses_init (svc : AmqpService) (tasks : Tasks) : Uses svc tasks Fleet.init := by
  refine ⟨Fleet.traffic_init _, ?_, ?_, ?_, ?_⟩ <;> simp [Fleet.init]

theorem wildcardFree_default : Topic.WildcardFree Config.default.keyPrefix := by decide

theorem Uses.step {svc : AmqpService} {tasks : Tasks} {s s' : Fleet} (h : Uses svc tasks s)
    (e : Fleet.Event) (hs : svc.step tasks s e = some s') : Uses svc tasks s' := by
  obtain ⟨ha, he, hcase⟩ := step_cases hs
  have ht := h.traffic.step wildcardFree_default e he
  rcases hcase with ⟨i, rfl⟩ | ⟨i, j, again, rfl⟩ |
    ⟨t, hlt, ⟨q, rfl⟩ | ⟨kind, name, q, rfl⟩ | ⟨kind, name, body, rfl⟩⟩
  · obtain ⟨m, hm, rfl⟩ := Fleet.accept_cases he
    refine ⟨ht, h.registered, fun m' hm' => h.wire m' (List.mem_of_mem_eraseIdx hm'), ?_, h.handled⟩
    intro q m' hin
    rcases List.mem_append.1 hin with hin | hin
    · exact h.queued q m' hin
    · obtain ⟨_, -, heq⟩ := List.mem_map.1 hin
      cases heq
      exact h.wire _ (List.mem_of_getElem? hm)
  · obtain ⟨m, r, hq, hr, rfl⟩ := Fleet.deliver_cases he
    refine ⟨ht, h.registered, h.wire, ?_, ?_⟩
    · intro q m' hin
      refine h.queued q m' ?_
      cases again with
      | true => exact hin
      | false => exact List.mem_of_mem_eraseIdx hin
    · intro m' r' hin
      rcases List.mem_cons.1 hin with heq | hin
      · cases heq
        exact h.queued _ _ hq
      · exact h.handled m' r' hin
  · obtain ⟨-, rfl⟩ := Fleet.connect_cases he
    exact ⟨ht, h.registered, h.wire, h.queued, h.handled⟩
  · have registered : ∀ queue, ∀ r ∈ ⟨t, kind, name, queue⟩ :: s.registered,
        svc.serves r.node = true ∧ (r.node, r.kind, r.name) ∈ tasks.registered := by
      intro queue r hr
      rcases List.mem_cons.1 hr with rfl | hr
      · simpa [allows] using ha
      · exact h.registered r hr
    obtain ⟨-, ⟨queue, -, rfl⟩ | ⟨-, -, rfl⟩⟩ := Fleet.register_cases he
    · exact ⟨ht, registered _, h.wire, h.queued, h.handled⟩
    · exact ⟨ht, registered _, h.wire, h.queued, h.handled⟩
  · cases he
    refine ⟨ht, h.registered, ?_, h.queued, h.handled⟩
    intro m hm
    rcases List.mem_cons.1 hm with rfl | hm
    · exact ⟨hlt, by simpa [allows, Config.sent] using ha⟩
    · exact h.wire m hm

theorem reachable_uses {svc : AmqpService} {tasks : Tasks} {s : Fleet}
    (h : Reachable (svc.step tasks) Fleet.init s) :
    Uses svc tasks s :=
  h.invariant (fun _ e _ hi he => hi.step e he) (uses_init svc tasks)

/-- Names tell the namespaces apart. -/
theorem namespaceOf_inj (svc : AmqpService) {t t' : NodeId} (ht : t < svc.namespaces.length)
    (ht' : t' < svc.namespaces.length) (h : svc.namespaceOf t = svc.namespaceOf t') : t = t' := by
  have hname : ∀ {t} (ht : t < svc.namespaces.length),
      svc.namespaceOf t = (svc.namespaces.map NamespaceSpec.name)[t]? := by
    intro t ht
    simp [namespaceOf]
  rw [hname ht, hname ht'] at h
  exact (List.getElem?_inj (by simpa using ht) svc.distinct).1 h

/-- What one namespace sends and another one's registration matches gets there. -/
theorem crosses (svc : AmqpService) (tasks : Tasks) {t t' : NodeId} {kind : Kind}
    {name name' : String} (ht : t < svc.namespaces.length) (hserves : svc.serves t' = true)
    (hsent : (t, kind, name) ∈ tasks.sent) (hreg : (t', kind, name') ∈ tasks.registered)
    (hmatch : Topic.keyMatches name' name = true) :
    ∃ s, Reachable (svc.step tasks) Fleet.init s ∧
      ∃ m r, (m, r) ∈ s.handled ∧ m.node = t ∧ r.node = t' := by
  have ht' := lt_of_serves hserves
  have hcfg : ∀ {t}, t < svc.namespaces.length → svc.config t = some .default := by
    intro t ht
    simp [config, ht, NamespaceSpec.config_amqpTransport]
  -- both connect, one registers its name, the other publishes
  let s₁ : Fleet := { Fleet.init with
    bindings := [Config.default.replyBinding "amq.gen-b", Config.default.replyBinding "amq.gen-a"]
    replies := [(t', "amq.gen-b"), (t, "amq.gen-a")]
    exclusive := ["amq.gen-b", "amq.gen-a"] }
  have hnew : s₁.isRegistered t' kind name' = false := rfl
  have hunused : Fleet.freeQueue .default s₁.exclusive "amq.gen-c" = true :=
    show Fleet.freeQueue .default ["amq.gen-b", "amq.gen-a"] "amq.gen-c" = true by decide
  obtain ⟨queue, s₂, hs₂, hregs, hwire, hqueued⟩ := Fleet.register_eq hnew hunused
  let m := Config.default.sent t kind name []
  let s₃ := s₂.publish .default t kind name []
  have hrun : run (svc.step tasks) Fleet.init [.connect t "amq.gen-a", .connect t' "amq.gen-b",
      .register t' kind name' "amq.gen-c", .publish t kind name []] = some s₃ := by
    have hfree : Fleet.freeQueue .default [] "amq.gen-a" = true := by decide
    have hfree' : Fleet.freeQueue .default ["amq.gen-a"] "amq.gen-b" = true := by decide
    refine run_cons_eq_some.2 ⟨{ Fleet.init with
      bindings := [Config.default.replyBinding "amq.gen-a"]
      replies := [(t, "amq.gen-a")]
      exclusive := ["amq.gen-a"] }, ?_, run_cons_eq_some.2
        ⟨s₁, ?_, run_cons_eq_some.2 ⟨s₂, ?_, run_cons_eq_some.2 ⟨s₃, ?_, rfl⟩⟩⟩⟩
    · simp [step, allows, hcfg ht, Fleet.step, Fleet.connect, hfree, Fleet.init]
    · simp [step, allows, hcfg ht', Fleet.step, Fleet.connect, hfree', Fleet.init, s₁]
    · simpa [step, allows, hserves, hcfg ht', Fleet.step, hreg] using hs₂
    · simp [step, allows, hcfg ht, Fleet.step, hsent, s₃]
  have huses := reachable_uses ⟨_, hrun⟩
  -- the broker routes the message to the queue of the registration
  let s₄ : Fleet :=
    { s₃ with wire := s₃.wire.eraseIdx 0, queued := s₃.queued ++ (s₃.routed m).map fun q => (q, m) }
  have hrouted : queue ∈ s₃.routed m :=
    (huses.traffic.declared.mem_routed_of_sent wildcardFree_default rfl).2
      ⟨⟨t', kind, name', queue⟩, by simp [s₃, Fleet.publish, hregs], rfl, rfl, hmatch⟩
  have hin : (queue, m) ∈ s₄.queued := List.mem_append_right _
    (List.mem_map.2 ⟨queue, hrouted, rfl⟩)
  obtain ⟨i, hi⟩ := List.mem_iff_getElem?.1 hin
  let s₅ : Fleet := { s₄ with
    queued := s₄.queued.eraseIdx i
    handled := (m, ⟨t', kind, name', queue⟩) :: s₄.handled }
  have hlast : run (svc.step tasks) s₃ [.accept 0, .deliver i 0 false] = some s₅ := by
    refine run_cons_eq_some.2 ⟨s₄, ?_, run_cons_eq_some.2 ⟨s₅, ?_, rfl⟩⟩
    · simp [step, allows, Fleet.accept, s₄, s₃, Fleet.publish, m]
    · have hr : s₄.registered[0]? = some ⟨t', kind, name', queue⟩ := by
        simp [s₄, s₃, Fleet.publish, hregs]
      simp [step, allows, Fleet.deliver, hi, hr, s₅]
  exact ⟨s₅, ⟨_, run_append_eq_some.2 ⟨s₃, hrun, hlast⟩⟩, m, _, List.mem_cons_self, rfl, rfl⟩

/-- **When namespaces on one broker stay apart**: over all runs, exactly if nothing one of
them sends matches a name another, serving one has registered. -/
theorem separated_iff (svc : AmqpService) (tasks : Tasks) :
    (∀ s, Reachable (svc.step tasks) Fleet.init s → Separated svc s) ↔ Disjoint svc tasks := by
  constructor
  · intro h t kind name t' name' ht hserves hsent hreg hmatch
    obtain ⟨s, hs, m, r, hin, rfl, rfl⟩ := crosses svc tasks ht hserves hsent hreg hmatch
    exact svc.namespaceOf_inj (lt_of_serves hserves) ht (h s hs m r hin)
  · intro h s hs m r hin
    have huses := reachable_uses hs
    obtain ⟨hlt, hsent⟩ := huses.handled m r hin
    obtain ⟨hr, hkind, hname⟩ := huses.traffic.handled m r hin
    obtain ⟨hserves, hreg⟩ := huses.registered r hr
    rw [h m.node m.kind m.name r.node r.name hlt hserves hsent (hkind ▸ hreg) hname]

/-- Two namespaces, each with its own `tasks.add`. -/
def twoNamespaces : AmqpService :=
  ⟨[{ name := "a", mode := .server, transport := .amqp, url := some "amqp://broker/" },
      { name := "b", mode := .server, transport := .amqp, url := some "amqp://broker/" }],
    "amqp://broker/", by decide, by decide⟩

def sameName : Tasks := ⟨[(0, .rpc, "tasks.add"), (1, .rpc, "tasks.add")], [(0, .rpc, "tasks.add")]⟩

/-- A request sent in namespace `a` is handled in namespace `b`. -/
theorem request_crosses_namespaces :
    ¬ ∀ s, Reachable (twoNamespaces.step sameName) Fleet.init s → Separated twoNamespaces s := by
  intro h
  have hs := h _ ⟨[.connect 0 "amq.gen-a", .connect 1 "amq.gen-b", .register 1 .rpc "tasks.add" "",
    .register 0 .rpc "tasks.add" "", .publish 0 .rpc "tasks.add" [7], .accept 0,
      .deliver 0 1 false], rfl⟩
  have := hs _ _ List.mem_cons_self
  revert this
  decide

end AmqpService

end Atasks.Commands
