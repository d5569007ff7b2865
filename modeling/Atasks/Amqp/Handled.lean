import Atasks.Amqp.AtMostOnce
/-!
# Who handles a message

Queues and keys in the runs of `Delivery`: which consumer a copy can come to, and how many copies
there are. Requests and events compete for one durable queue of their name, broadcasts go to an
exclusive queue for each subscription (`atasks/transport/backends/amqp.py:296-350`, `:452-540`).

| here | there |
| --- | --- |
| `Event.chosen`  | the queue name that the broker makes up for `declare_queue('', exclusive=True, auto_delete=True)` |
| `WellNamed`     | names without wildcard words (see `exact_routing_iff`), and made up names that are new |
| `State.callsFor` | calls of callbacks for a publication, by all instances together |

* `topology_step`, `handling_step`: what queues, consumers, copies and tasks have to do with each
  other, through broken connections and restarts;
* `handled_by_name`: a message is handled under its own kind and name, a request or an event once
  but for lost connections, a broadcast once by each subscription in any case.
-/

namespace Atasks.Amqp.Delivery

open Machine
open Custody (Store)

/-- The name of a queue that the broker makes up in a step. -/
def Event.chosen (cfg : Config) : Event → List String
  | .register _ kind name q => if (cfg.queueName kind name).isNone then [q] else []
  | .restore _ r q => if (cfg.queueName r.kind r.name).isNone then [q] else []
  | _ => []

/-- Registered names are no masks, and the names that the broker makes up are new and no others':
a queue that is declared again once it is gone is another queue. -/
structure WellNamed (cfg : Config) (es : List Event) : Prop where
  plain : ∀ t kind name q, .register t kind name q ∈ es → Topic.WildcardFree name
  fresh : (es.flatMap (Event.chosen cfg)).Nodup
  apart : ∀ q ∈ es.flatMap (Event.chosen cfg), ∀ kind name, cfg.queueName kind name ≠ some q

/-- A broadcast that is handled while its ack is lost, and the subscription again. -/
def lostBroadcast : List Event :=
  [.openConnection 0, .register 0 .broadcast "m.f" "amq_0", .publish 0 0 .broadcast "m.f" [],
    .accept 0, .deliver 0 0, .task 0 .receive, .task 0 .sendAck, .task 0 (.ackEnds .ok),
    .brokerCloses 0, .clientCloses 0, .openConnection 0,
    .restore 0 ⟨0, .broadcast, "m.f"⟩ "amq_1"]

def copyOfBroadcast : Copy := ⟨0, "amq_0", false, Config.default.sent 0 .broadcast "m.f" []⟩

theorem wellNamed_lostBroadcast : WellNamed Config.default lostBroadcast := by
  refine ⟨fun t kind name q h => ?_, by decide, fun q hq kind name => ?_⟩
  · simp only [lostBroadcast, List.mem_cons, Event.register.injEq, reduceCtorEq, false_or, or_false,
      List.not_mem_nil] at h
    obtain ⟨-, -, rfl, -⟩ := h
    decide
  · have hfree : ∀ q ∈ lostBroadcast.flatMap (Event.chosen Config.default),
        Fleet.freeQueue Config.default [] q = true := by
      decide
    exact (Fleet.freeQueue_spec (hfree q hq)).2.notQueue kind name

namespace State

/-- The queue of a registration: a durable one by its name, or one of its own. -/
def OnQueue (cfg : Config) (s : State) (r : Registration) : Prop :=
  cfg.queueName r.kind r.name = some r.queue ∧ r.queue ∈ s.durable ∨ r.kind = .broadcast ∧
    r.queue ∈ s.exclusive.map Prod.fst

/-- Queues, bindings and consumers; `used` are the names that the broker has made up so far. -/
structure Topology (cfg : Config) (used : List String) (s : State) : Prop where
  apart : ∀ q ∈ used, ∀ kind name, cfg.queueName kind name ≠ some q
  exclusive : ∀ x ∈ s.exclusive, x.1 ∈ used
  owned : (s.exclusive.map Prod.fst).Nodup
  durable : ∀ q ∈ s.durable, ∃ kind name, cfg.queueName kind name = some q
  bindings : ∀ b ∈ s.bindings, ∃ r, b = cfg.bindingOf r ∧ Topic.WildcardFree r.name ∧
    s.OnQueue cfg r
  consumers : ∀ c ∈ s.consumers, s.OnQueue cfg c.registration
  owner : ∀ c ∈ s.consumers, c.registration.kind = .broadcast →
    (c.registration.queue, c.conn) ∈ s.exclusive
  /-- What is bound to the queue of a consumer is bound for it. -/
  bound : ∀ b ∈ s.bindings, ∀ c ∈ s.consumers, b.queue = c.registration.queue →
    b = cfg.bindingOf c.registration
  single : ∀ c ∈ s.consumers, ∀ c' ∈ s.consumers, c.registration.queue = c'.registration.queue →
    c.registration.kind = .broadcast → c = c'
  robust : ∀ t, ∀ r ∈ s.robust t, Topic.WildcardFree r.name

section topology

variable {cfg : Config} {used : List String} {s s' : State} {r r' : Registration}

theorem Topology.notMem_durable (h : s.Topology cfg used) {q : String} (hq : q ∈ used) :
    q ∉ s.durable := by
  intro hdurable
  obtain ⟨kind, name, hname⟩ := h.durable q hdurable
  exact h.apart q hq kind name hname

theorem Topology.mem_used (h : s.Topology cfg used) {q : String}
    (hq : q ∈ s.exclusive.map Prod.fst) : q ∈ used := by
  obtain ⟨x, hx, rfl⟩ := List.mem_map.1 hq
  exact h.exclusive x hx

theorem Topology.congr (h : s.Topology cfg used) (hdurable : s'.durable = s.durable)
    (hexclusive : s'.exclusive = s.exclusive) (hbindings : s'.bindings = s.bindings)
    (hconsumers : s'.consumers = s.consumers) (hrobust : ∀ t, s'.robust t ⊆ s.robust t) :
    s'.Topology cfg used := by
  obtain ⟨h₁, h₂, h₃, h₄, h₅, h₆, h₇, h₈, h₉, h₁₀⟩ := h
  refine ⟨h₁, ?_, ?_, ?_, ?_, ?_, ?_, ?_, ?_, fun t r hr => h₁₀ t r (hrobust t hr)⟩ <;>
    simpa only [OnQueue, hdurable, hexclusive, hbindings, hconsumers]

/-- Exclusive queues go away with their bindings, once nobody consumes them any more. -/
theorem Topology.deleteQueues (h : s.Topology cfg used) {queues : List String}
    (hgone : ∀ c ∈ s.consumers, c.registration.kind = .broadcast → c.registration.queue ∉ queues) :
    (s.deleteQueues queues).Topology cfg used := by
  have hkeep : ∀ q, q ∉ queues → q ∈ s.exclusive.map Prod.fst →
      q ∈ (s.deleteQueues queues).exclusive.map Prod.fst := by
    intro q hq hmem
    obtain ⟨x, hx, rfl⟩ := List.mem_map.1 hmem
    exact List.mem_map_of_mem (List.mem_filter.2 ⟨hx, by simpa using hq⟩)
  have honQueue : ∀ r, (r.kind = .broadcast → r.queue ∉ queues) → s.OnQueue cfg r →
      (s.deleteQueues queues).OnQueue cfg r := by
    intro r hr hon
    rcases hon with hshared | ⟨hkind, hmem⟩
    · exact Or.inl hshared
    · exact Or.inr ⟨hkind, hkeep _ (hr hkind) hmem⟩
  have hbinding : ∀ b, b ∈ (s.deleteQueues queues).bindings → b ∈ s.bindings ∧
      b.queue ∉ queues := by
    intro b hb
    obtain ⟨hb, hq⟩ := List.mem_filter.1 hb
    exact ⟨hb, by simpa using hq⟩
  constructor
  · exact h.apart
  · exact fun x hx => h.exclusive x (List.mem_filter.1 hx).1
  · exact h.owned.sublist (List.filter_sublist.map _)
  · exact h.durable
  · intro b hb
    obtain ⟨hb, hq⟩ := hbinding b hb
    obtain ⟨r, rfl, hplain, hon⟩ := h.bindings b hb
    exact ⟨r, rfl, hplain, honQueue r (fun _ => hq) hon⟩
  · exact fun c hc => honQueue _ (hgone c hc) (h.consumers c hc)
  · intro c hc hkind
    exact List.mem_filter.2 ⟨h.owner c hc hkind, by simpa using hgone c hc hkind⟩
  · exact fun b hb c hc => h.bound b (hbinding b hb).1 c hc
  · exact h.single
  · exact h.robust

/-- Consumers may go at any time. -/
theorem Topology.filter (h : s.Topology cfg used) (p : Consumer → Bool) :
    ({ s with consumers := s.consumers.filter p } : State).Topology cfg used := by
  have hmem : ∀ c, c ∈ s.consumers.filter p → c ∈ s.consumers :=
    fun c hc => (List.mem_filter.1 hc).1
  exact ⟨h.apart, h.exclusive, h.owned, h.durable, h.bindings, fun c hc =>
    h.consumers c (hmem c hc), fun c hc => h.owner c (hmem c hc),
    fun b hb c hc => h.bound b hb c (hmem c hc),
    fun c hc c' hc' => h.single c (hmem c hc) c' (hmem c' hc'), h.robust⟩

/-- A new consumer is on a shared queue, or on one of its own. -/
theorem consume_cases {t : NodeId} {kind : Kind} {name q : String} {tag : Tag}
    (h : s.consume cfg t kind name q tag = some s') :
    (∃ c queue, cfg.queueName kind name = some queue ∧
      s' = { s with
        durable := queue :: s.durable
        bindings := cfg.bindingOf ⟨t, kind, name, queue⟩ :: s.bindings
        consumers := ⟨c, tag, ⟨t, kind, name, queue⟩⟩ :: s.consumers }) ∨
      ∃ c, cfg.queueName kind name = none ∧
        s' = { s with
          exclusive := (q, c) :: s.exclusive
          bindings := cfg.bindingOf ⟨t, kind, name, q⟩ :: s.bindings
          consumers := ⟨c, tag, ⟨t, kind, name, q⟩⟩ :: s.consumers } := by
  unfold consume at h
  split at h
  · cases h
  · rename_i c _
    obtain ⟨-, h⟩ := Option.ite_none_right_eq_some.1 h
    split at h
    · rename_i queue hqueue
      obtain ⟨-, h⟩ := Option.ite_none_right_eq_some.1 h
      cases h
      exact Or.inl ⟨c, queue, hqueue, rfl⟩
    · rename_i hqueue
      obtain ⟨-, h⟩ := Option.ite_none_right_eq_some.1 h
      cases h
      exact Or.inr ⟨c, hqueue, rfl⟩

/-- One more consumer of a queue where everybody else is of the same kind and name. -/
theorem Topology.subscribe {used' : List String} (h : s.Topology cfg used) {c : Consumer}
    (hbindings : s'.bindings = cfg.bindingOf c.registration :: s.bindings)
    (hconsumers : s'.consumers = c :: s.consumers) (hrobust : s'.robust = s.robust)
    (hdurable : s.durable ⊆ s'.durable) (hexclusive : s.exclusive ⊆ s'.exclusive)
    (hplain : Topic.WildcardFree c.registration.name) (hnew : s'.OnQueue cfg c.registration)
    (howner : c.registration.kind = .broadcast → (c.registration.queue, c.conn) ∈ s'.exclusive)
    (hsame : ∀ r, s.OnQueue cfg r → r.queue = c.registration.queue →
      cfg.bindingOf r = cfg.bindingOf c.registration ∧ r.kind ≠ .broadcast ∧
        c.registration.kind ≠ .broadcast)
    (hapart : ∀ q ∈ used', ∀ kind name, cfg.queueName kind name ≠ some q)
    (hused : ∀ x ∈ s'.exclusive, x.1 ∈ used') (howned : (s'.exclusive.map Prod.fst).Nodup)
    (hnamed : ∀ q ∈ s'.durable, ∃ kind name, cfg.queueName kind name = some q) :
    s'.Topology cfg used' := by
  have hon : ∀ r, s.OnQueue cfg r → s'.OnQueue cfg r := fun r hr =>
    hr.imp (fun h => ⟨h.1, hdurable h.2⟩) fun h => ⟨h.1, List.map_subset _ hexclusive h.2⟩
  refine ⟨hapart, hused, howned, hnamed, ?_, ?_, ?_, ?_, ?_, hrobust ▸ h.robust⟩
  · rw [hbindings]
    refine List.forall_mem_cons.2 ⟨⟨_, rfl, hplain, hnew⟩, fun b hb => ?_⟩
    obtain ⟨r, hr, hfree, honr⟩ := h.bindings b hb
    exact ⟨r, hr, hfree, hon r honr⟩
  · rw [hconsumers]
    exact List.forall_mem_cons.2 ⟨hnew, fun c' hc' => hon _ (h.consumers c' hc')⟩
  · rw [hconsumers]
    exact List.forall_mem_cons.2 ⟨howner, fun c' hc' hkind => hexclusive (h.owner c' hc' hkind)⟩
  · rw [hbindings, hconsumers]
    refine List.forall_mem_cons.2 ⟨List.forall_mem_cons.2 ⟨fun _ => rfl, fun c' hc' hqueue => ?_⟩,
      fun b hb => ?_⟩
    · exact (hsame _ (h.consumers c' hc') hqueue.symm).1.symm
    · refine List.forall_mem_cons.2 ⟨fun hqueue => ?_, h.bound b hb⟩
      obtain ⟨r, rfl, -, honr⟩ := h.bindings b hb
      exact (hsame r honr hqueue).1
  · rw [hconsumers]
    refine List.forall_mem_cons.2 ⟨List.forall_mem_cons.2 ⟨fun _ _ => rfl,
      fun c' hc' hqueue hbroadcast => ?_⟩, fun c' hc' => ?_⟩
    · exact absurd hbroadcast (hsame _ (h.consumers c' hc') hqueue.symm).2.2
    · refine List.forall_mem_cons.2 ⟨fun hqueue hbroadcast => ?_, h.single c' hc'⟩
      exact absurd hbroadcast (hsame _ (h.consumers c' hc') hqueue).2.1

theorem Topology.consume_shared (h : s.Topology cfg used) {c : ConnId} {tag : Tag} {t : NodeId}
    {kind : Kind} {name queue : String} (hname : cfg.queueName kind name = some queue)
    (hplain : Topic.WildcardFree name) :
    ({ s with
      durable := queue :: s.durable
      bindings := cfg.bindingOf ⟨t, kind, name, queue⟩ :: s.bindings
      consumers := ⟨c, tag, ⟨t, kind, name, queue⟩⟩ :: s.consumers } : State).Topology cfg used := by
  have hkind : kind ≠ .broadcast := by
    rintro rfl
    cases hname
  refine h.subscribe rfl rfl rfl (List.subset_cons_self ..) (List.Subset.refl _) hplain
    (Or.inl ⟨hname, List.mem_cons_self⟩) (fun hbroadcast => absurd hbroadcast hkind) ?_
    h.apart h.exclusive h.owned (List.forall_mem_cons.2 ⟨⟨kind, name, hname⟩, h.durable⟩)
  -- whoever is on the queue has its name
  rintro r (⟨hr, -⟩ | ⟨-, hr⟩) rfl
  · obtain ⟨hkinds, hnames⟩ := cfg.queueName_inj hr hname
    exact ⟨by rw [Config.bindingOf, Config.bindingOf, hkinds, hnames], hkinds ▸ hkind, hkind⟩
  · exact absurd hname (h.apart _ (h.mem_used hr) kind name)

theorem Topology.consume_own (h : s.Topology cfg used) {c : ConnId} {tag : Tag} {t : NodeId}
    {kind : Kind} {name q : String} (hname : cfg.queueName kind name = none)
    (hplain : Topic.WildcardFree name) (hfresh : q ∉ used)
    (hapart : ∀ kind name, cfg.queueName kind name ≠ some q) :
    ({ s with
      exclusive := (q, c) :: s.exclusive
      bindings := cfg.bindingOf ⟨t, kind, name, q⟩ :: s.bindings
      consumers := ⟨c, tag, ⟨t, kind, name, q⟩⟩ :: s.consumers } : State).Topology cfg
        (used ++ [q]) := by
  have hkind : kind = .broadcast := Fleet.queueName_eq_none.1 hname
  refine h.subscribe rfl rfl rfl (List.Subset.refl _) (List.subset_cons_self ..) hplain
    (Or.inr ⟨hkind, List.mem_cons_self⟩) (fun _ => List.mem_cons_self) ?_
    (List.forall_mem_append.2 ⟨h.apart, List.forall_mem_singleton.2 hapart⟩)
    (List.forall_mem_cons.2 ⟨by simp, fun x hx => List.mem_append_left _ (h.exclusive x hx)⟩)
    (List.nodup_cons.2 ⟨fun hq => hfresh (h.mem_used hq), h.owned⟩) h.durable
  -- nobody has been on the queue before
  rintro r (⟨hr, -⟩ | ⟨-, hr⟩) rfl
  · exact absurd hr (hapart _ _)
  · exact absurd (h.mem_used hr) hfresh

/-- `consume` with a plain name. -/
theorem Topology.consume (h : s.Topology cfg used) {t : NodeId} {kind : Kind} {name q : String}
    {tag : Tag} (hs : s.consume cfg t kind name q tag = some s') (hplain : Topic.WildcardFree name)
    {chosen : List String} (hchosen : chosen = if (cfg.queueName kind name).isNone then [q] else [])
    (hfresh : ∀ q ∈ chosen, q ∉ used)
    (hapart : ∀ q ∈ chosen, ∀ kind name, cfg.queueName kind name ≠ some q) :
    s'.Topology cfg (used ++ chosen) := by
  rcases consume_cases hs with ⟨c, queue, hname, rfl⟩ | ⟨c, hname, rfl⟩
  · obtain rfl : chosen = [] := by simp [hchosen, hname]
    rw [List.append_nil]
    exact h.consume_shared hname hplain
  · obtain rfl : chosen = [q] := by simp [hchosen, hname]
    exact h.consume_own hname hplain (hfresh q (List.mem_singleton_self q))
      (hapart q (List.mem_singleton_self q))

theorem Topology.remember (h : s.Topology cfg used) (t : NodeId) (kind : Kind) {name : String}
    (hplain : Topic.WildcardFree name) : (s.remember t kind name).Topology cfg used := by
  obtain ⟨h₁, h₂, h₃, h₄, h₅, h₆, h₇, h₈, h₉, h₁₀⟩ := h
  refine ⟨h₁, h₂, h₃, h₄, h₅, h₆, h₇, h₈, h₉, fun t' r hr => ?_⟩
  by_cases ht : t' = t
  · subst ht
    simp only [State.remember, Function.update_self] at hr
    rcases List.mem_cons.1 hr with rfl | hr
    · exact hplain
    · exact h₁₀ _ r hr
  · simp only [State.remember, Function.update_of_ne ht] at hr
    exact h₁₀ t' r hr

/-- No consumer that is left is on a queue of one that was cancelled. -/
theorem Topology.unregister (h : s.Topology cfg used) (t : NodeId) (kind : Kind) (name : String) :
    (s.unregister t kind name).Topology cfg used := by
  refine Topology.deleteQueues ?_ ?_
  · refine (h.filter _).congr rfl rfl rfl rfl fun t' => ?_
    show (if (s.conns t).isSome then _ else s.robust) t' ⊆ _
    split
    · by_cases ht : t' = t
      · subst ht
        rw [Function.update_self]
        exact fun r hr => (List.mem_filter.1 hr).1
      · rw [Function.update_of_ne ht]
        exact List.Subset.refl _
    · exact List.Subset.refl _
  · intro c hc hbroadcast hqueue
    obtain ⟨hc, hleft⟩ := List.mem_filter.1 hc
    obtain ⟨hqueue, -⟩ := List.mem_filter.1 hqueue
    obtain ⟨c', hc', hsame⟩ := List.mem_map.1 hqueue
    obtain ⟨hc', hcancelled⟩ := List.mem_filter.1 hc'
    obtain rfl := h.single c hc c' hc' hsame.symm hbroadcast
    simp [hcancelled] at hleft

/-- What is forgotten is not declared again. -/
theorem Topology.forget (h : s.Topology cfg used) (t : NodeId) :
    (s.forget t).Topology cfg used := by
  refine h.congr rfl rfl rfl rfl fun t' => ?_
  by_cases ht : t' = t
  · subst ht
    simp only [State.forget, Function.update_self]
    exact List.nil_subset _
  · simp only [State.forget, Function.update_of_ne ht]
    exact List.Subset.refl _

theorem Topology.brokerCloses (h : s.Topology cfg used) (c : ConnId) :
    (s.brokerCloses c).Topology cfg used := by
  refine Topology.deleteQueues ?_ ?_
  · exact (h.filter _).congr rfl rfl rfl rfl fun _ => List.Subset.refl _
  · intro x hx hbroadcast hqueue
    obtain ⟨hx, hleft⟩ := List.mem_filter.1 hx
    obtain ⟨y, hy, hsame⟩ := List.mem_map.1 hqueue
    obtain ⟨hy, hclosed⟩ := List.mem_filter.1 hy
    have hone := List.inj_on_of_nodup_map h.owned hy (h.owner x hx hbroadcast) hsame
    rw [hone] at hclosed
    simp_all

/-- An event that names no queue. -/
theorem Topology.keep (h : s.Topology cfg used) : s.Topology cfg (used ++ []) := by
  rwa [List.append_nil]

theorem Topology.unchanged (h : s.Topology cfg used) (hdurable : s'.durable = s.durable)
    (hexclusive : s'.exclusive = s.exclusive) (hbindings : s'.bindings = s.bindings)
    (hconsumers : s'.consumers = s.consumers) (hrobust : s'.robust = s.robust) :
    s'.Topology cfg (used ++ []) :=
  (h.congr hdurable hexclusive hbindings hconsumers fun t =>
    hrobust ▸ List.Subset.refl (s.robust t)).keep

/-- What a step makes of queues and consumers. -/
theorem topology_step (h : s.Topology cfg used) {e : Event} (hs : step cfg s e = some s')
    (hplain : ∀ t kind name q, e = .register t kind name q → Topic.WildcardFree name)
    (hfresh : ∀ q ∈ e.chosen cfg, q ∉ used)
    (hapart : ∀ q ∈ e.chosen cfg, ∀ kind name, cfg.queueName kind name ≠ some q) :
    s'.Topology cfg (used ++ e.chosen cfg) := by
  cases e with
  | register t kind name q =>
    obtain ⟨s₁, hs₁, rfl⟩ := Option.map_eq_some_iff.1 hs
    have hname := hplain t kind name q rfl
    exact (h.consume hs₁ hname rfl hfresh hapart).remember t kind hname
  | restore t r q =>
    obtain ⟨hr, hs⟩ := Option.ite_none_right_eq_some.1 hs
    exact h.consume hs (h.robust t r hr) rfl hfresh hapart
  | openConnection t =>
    simp only [step, openConnection] at hs
    split at hs <;> cases hs
    exact h.unchanged rfl rfl rfl rfl rfl
  | unregister t kind name =>
    cases hs
    exact Topology.keep <| h.unregister t kind name
  | publish p t kind name body =>
    obtain ⟨-, rfl⟩ := publish_eq_some hs
    exact h.unchanged rfl rfl rfl rfl rfl
  | accept p =>
    obtain ⟨_, -, -, rfl⟩ := accept_eq_some hs
    exact h.unchanged rfl rfl rfl rfl rfl
  | publishEnds p o =>
    obtain ⟨_, -, -, rfl⟩ := publishEnds_eq_some hs
    exact h.unchanged rfl rfl rfl rfl rfl
  | deliver i j =>
    obtain ⟨_, _, _, -, -, -, -, rfl⟩ := deliver_eq_some hs
    exact h.unchanged rfl rfl rfl rfl rfl
  | settle d =>
    obtain ⟨_, -, -, rfl⟩ := settle_eq_some hs
    exact h.unchanged rfl rfl rfl rfl rfl
  | task d e =>
    obtain ⟨_, _, _, -, -, rfl⟩ := task_eq_some hs
    exact h.unchanged rfl rfl rfl rfl rfl
  | brokerCloses c =>
    cases hs
    exact Topology.keep <| h.brokerCloses c
  | clientCloses t =>
    cases hs
    exact h.unchanged rfl rfl rfl rfl rfl
  | disconnect t =>
    cases hs
    refine Topology.keep <| Topology.forget ?_ t
    exact h.congr rfl rfl rfl rfl fun _ => List.Subset.refl _
  | crash t =>
    cases hs
    refine Topology.keep <| Topology.forget ?_ t
    exact h.congr rfl rfl rfl rfl fun _ => List.Subset.refl _
  | restart =>
    obtain ⟨-, hs⟩ := Option.ite_none_right_eq_some.1 hs
    cases hs
    exact h.unchanged rfl rfl rfl rfl rfl

end topology

/-! ## Copies and who has them -/

/-- Where copies and tasks may be. A copy on an exclusive queue is not handed out again. -/
structure Handling (cfg : Config) (used : List String) (s : State) : Prop where
  sent : ∀ p u, s.publishings p = some u → ∃ t kind name body, u.sent = cfg.sent t kind name body
  copies : ∀ k ∈ s.store.stored, k.durable = true ∧
    cfg.queueName k.sent.kind k.sent.name = some k.queue ∨
    k.durable = false ∧ k.sent.kind = .broadcast ∧ k.queue ∈ used
  own : ∀ k ∈ s.store.stored, k.durable = false → ∀ c ∈ s.consumers,
    c.registration.queue = k.queue →
    c.registration.kind = k.sent.kind ∧ c.registration.name = k.sent.name
  tasks : ∀ d t, s.tasks d = some t → t.consumer.registration.kind = t.copy.sent.kind ∧
    t.consumer.registration.name = t.copy.sent.name
  /-- The connection that has the queue holds its copies. -/
  holder : ∀ d t, s.tasks d = some t → t.copy.durable = false → ∀ c,
    (t.copy.queue, c) ∈ s.exclusive → c = t.consumer.conn
  spent : ∀ d t, s.tasks d = some t → t.copy.durable = false → t.copy ∈ s.store.ready →
    t.copy.queue ∉ s.exclusive.map Prod.fst
  unique : ∀ d t d' t', s.tasks d = some t → s.tasks d' = some t' → t.copy = t'.copy →
    t.copy.durable = false → d = d'

theorem handling_init (cfg : Config) : init.Handling cfg [] := by
  constructor <;> simp [init, Store.empty]

section handling

variable {cfg : Config} {used : List String} {s s' : State}

/-- Consumers and queues may go, and copies go back to queues that are not there any more. -/
theorem Handling.of_less (h : s.Handling cfg used) (hstored : s'.store.stored = s.store.stored)
    (hready : ∀ k ∈ s'.store.ready, k ∈ s.store.ready ∨
      (k.durable = false → k.queue ∉ s'.exclusive.map Prod.fst))
    (hexclusive : s'.exclusive ⊆ s.exclusive) (hconsumers : s'.consumers ⊆ s.consumers)
    (hsent : ∀ p u, s'.publishings p = some u → ∃ t kind name body,
      u.sent = cfg.sent t kind name body)
    (htasks : ∀ d t', s'.tasks d = some t' → ∃ t, s.tasks d = some t ∧ t'.consumer = t.consumer ∧
      t'.copy = t.copy) :
    s'.Handling cfg used := by
  constructor
  · exact hsent
  · exact hstored ▸ h.copies
  · rw [hstored]
    exact fun k hk hdurable c hc => h.own k hk hdurable c (hconsumers hc)
  · intro d t' ht'
    obtain ⟨t, ht, hconsumer, hcopy⟩ := htasks d t' ht'
    rw [hconsumer, hcopy]
    exact h.tasks d t ht
  · intro d t' ht'
    obtain ⟨t, ht, hconsumer, hcopy⟩ := htasks d t' ht'
    rw [hconsumer, hcopy]
    exact fun hdurable c hc => h.holder d t ht hdurable c (hexclusive hc)
  · intro d t' ht' hdurable hmem
    obtain ⟨t, ht, -, hcopy⟩ := htasks d t' ht'
    rcases hready _ hmem with hmem | hgone
    · rw [hcopy] at hdurable hmem ⊢
      exact fun hq => h.spent d t ht hdurable hmem (List.map_subset _ hexclusive hq)
    · exact hgone hdurable
  · intro d t₁ d' t₂ ht₁ ht₂ hsame hdurable
    obtain ⟨t, ht, -, hcopy⟩ := htasks d t₁ ht₁
    obtain ⟨t', ht', -, hcopy'⟩ := htasks d' t₂ ht₂
    rw [hcopy] at hdurable
    exact h.unique d t d' t' ht ht' (hcopy ▸ hcopy' ▸ hsame) hdurable

theorem Handling.congr (h : s.Handling cfg used) (hstore : s'.store = s.store)
    (hexclusive : s'.exclusive = s.exclusive) (hconsumers : s'.consumers = s.consumers)
    (hpublishings : s'.publishings = s.publishings) (htasks : s'.tasks = s.tasks) :
    s'.Handling cfg used :=
  h.of_less (congrArg _ hstore) (fun _ hk => Or.inl (hstore ▸ hk)) (hexclusive ▸ List.Subset.refl _)
    (hconsumers ▸ List.Subset.refl _) (hpublishings ▸ h.sent)
    fun _ t ht => ⟨t, htasks ▸ ht, rfl, rfl⟩

theorem Handling.setPublishing (h : s.Handling cfg used) (p : Nat) {u : Publishing}
    (hu : ∃ t kind name body, u.sent = cfg.sent t kind name body) :
    (s.setPublishing p u).Handling cfg used := by
  refine h.of_less rfl (fun k hk => Or.inl hk) (List.Subset.refl _) (List.Subset.refl _)
    (fun p' u' hu' => ?_) fun d t ht => ⟨t, ht, rfl, rfl⟩
  rcases of_setPublishing hu' with ⟨-, rfl⟩ | ⟨-, hu'⟩
  · exact hu
  · exact h.sent p' u' hu'

/-- A copy on an exclusive queue is on one that was made up. -/
theorem Handling.queue_mem (h : s.Handling cfg used) (hinv : s.Inv) {d : DeliveryId} {t : Task}
    (ht : s.tasks d = some t) (hdurable : t.copy.durable = false) :
    t.copy.queue ∈ used := by
  rcases h.copies _ (hinv.stored ht) with ⟨hshared, -⟩ | ⟨-, -, hused⟩
  · rw [hdurable] at hshared
    cases hshared
  · exact hused

theorem Handling.consume (h : s.Handling cfg used) (hinv : s.Inv) (htopology : s.Topology cfg used)
    {t : NodeId} {kind : Kind} {name q : String} {tag : Tag}
    (hs : s.consume cfg t kind name q tag = some s') {chosen : List String}
    (hchosen : chosen = if (cfg.queueName kind name).isNone then [q] else [])
    (hfresh : ∀ q ∈ chosen, q ∉ used) :
    s'.Handling cfg (used ++ chosen) := by
  rcases consume_cases hs with ⟨c, queue, hname, rfl⟩ | ⟨c, hname, rfl⟩
  · obtain rfl : chosen = [] := by simp [hchosen, hname]
    rw [List.append_nil]
    refine ⟨h.sent, h.copies, fun k hk hdurable => ?_, h.tasks, h.holder, h.spent, h.unique⟩
    refine List.forall_mem_cons.2 ⟨fun (hqueue : queue = k.queue) => ?_, h.own k hk hdurable⟩
    rcases h.copies k hk with ⟨hshared, -⟩ | ⟨-, -, hused⟩
    · rw [hdurable] at hshared
      cases hshared
    · exact absurd hname (htopology.apart queue (hqueue ▸ hused) kind name)
  · obtain rfl : chosen = [q] := by simp [hchosen, hname]
    have hnew : q ∉ used := hfresh q (List.mem_singleton_self q)
    refine ⟨h.sent, fun k hk => ?_, fun k hk hdurable => ?_, h.tasks, ?_, ?_, h.unique⟩
    · exact (h.copies k hk).imp id fun hown => ⟨hown.1, hown.2.1, List.mem_append_left _ hown.2.2⟩
    · refine List.forall_mem_cons.2 ⟨fun (hqueue : q = k.queue) => ?_, h.own k hk hdurable⟩
      rcases h.copies k hk with ⟨hshared, -⟩ | ⟨-, -, hused⟩
      · rw [hdurable] at hshared
        cases hshared
      · exact absurd (hqueue ▸ hused) hnew
    · intro d t ht hdurable c' hc'
      rcases List.mem_cons.1 hc' with heq | hc'
      · obtain ⟨rfl, -⟩ := Prod.mk.inj heq
        exact absurd (h.queue_mem hinv ht hdurable) hnew
      · exact h.holder d t ht hdurable c' hc'
    · intro d t ht hdurable hready hmem
      rcases List.mem_cons.1 hmem with (rfl : t.copy.queue = q) | hmem
      · exact hnew (h.queue_mem hinv ht hdurable)
      · exact h.spent d t ht hdurable hready hmem

/-- The queues that a message is routed to are those of its kind and name. -/
theorem Topology.of_mem_routed (h : s.Topology cfg used) (hcfg : Topic.WildcardFree cfg.keyPrefix)
    {t : NodeId} {kind : Kind} {name : String} {body : Bytes} {q : String}
    (hq : q ∈ s.routed (cfg.sent t kind name body)) :
    ∃ r, r.kind = kind ∧ r.name = name ∧ r.queue = q ∧ s.OnQueue cfg r ∧
      ∀ c ∈ s.consumers, c.registration.queue = q → c.registration.kind = kind ∧
      c.registration.name = name := by
  obtain ⟨b, hrouted, rfl⟩ := List.mem_map.1 (List.mem_dedup.1 hq)
  obtain ⟨hb, hmatch⟩ := List.mem_filter.1 hrouted
  obtain ⟨-, hkey⟩ := Bool.and_eq_true_iff.1 hmatch
  obtain ⟨r, rfl, hplain, hon⟩ := h.bindings b hb
  obtain ⟨rfl, hmask⟩ := (Config.keyMatches_routingKey hcfg).1 hkey
  obtain rfl := (Topic.keyMatches_iff_eq hplain).1 hmask
  refine ⟨r, rfl, rfl, rfl, hon, fun c hc hqueue => ?_⟩
  have hbound := congrArg Binding.key (h.bound _ hb c hc hqueue.symm)
  exact cfg.routingKey_inj hbound.symm

theorem Handling.accept (h : s.Handling cfg used) (hinv : s.Inv) (htopology : s.Topology cfg used)
    (hcfg : Topic.WildcardFree cfg.keyPrefix) {p : Nat} (hs : s.accept p = some s') :
    s'.Handling cfg used := by
  obtain ⟨u, hu, hwire, rfl⟩ := accept_eq_some hs
  have hnew := hinv.not_stored hu (hinv.wire p u hu hwire)
  obtain ⟨t₀, kind, name, body, hsent⟩ := h.sent p u hu
  have hqueue : ∀ k ∈ s.copiesOf p u.sent, k.publication = p ∧ k.sent = u.sent ∧
    k.durable = decide (k.queue ∈ s.durable) ∧
      k.queue ∈ s.routed (cfg.sent t₀ kind name body) := by
    intro k hk
    obtain ⟨q, hq, rfl⟩ := List.mem_map.1 hk
    exact ⟨rfl, rfl, rfl, hsent ▸ hq⟩
  constructor
  · intro p' u' hu'
    rcases of_setPublishing hu' with ⟨-, rfl⟩ | ⟨-, hu'⟩
    · exact h.sent p u hu
    · exact h.sent p' u' hu'
  · intro k hk
    rcases List.mem_append.1 hk with hk | hk
    · exact h.copies k hk
    · obtain ⟨-, hsame, hdurable, hrouted⟩ := hqueue k hk
      obtain ⟨r, rfl, rfl, hr, hon, -⟩ := htopology.of_mem_routed hcfg hrouted
      rw [hdurable, hsame, hsent, ← hr]
      rcases hon with ⟨hshared, hmem⟩ | ⟨hbroadcast, hmem⟩
      · exact Or.inl ⟨by simpa using hmem, hshared⟩
      · have hused := htopology.mem_used hmem
        exact Or.inr ⟨by simpa using htopology.notMem_durable hused, hbroadcast, hused⟩
  · intro k hk hdurable c hc hsame
    rcases List.mem_append.1 hk with hk | hk
    · exact h.own k hk hdurable c hc hsame
    · obtain ⟨-, hsame', -, hrouted⟩ := hqueue k hk
      obtain ⟨-, -, -, -, -, hconsumers⟩ := htopology.of_mem_routed hcfg hrouted
      rw [hsame', hsent]
      exact hconsumers c hc hsame
  · exact h.tasks
  · exact h.holder
  · intro d t ht hdurable hready
    rcases List.mem_append.1 hready with hready | hready
    · exact h.spent d t ht hdurable hready
    · exact absurd (hqueue _ hready).1 (hnew _ (hinv.stored ht))
  · exact h.unique

/-- Whoever consumes an exclusive queue owns it. -/
theorem Handling.owner (h : s.Handling cfg used) (htopology : s.Topology cfg used) {k : Copy}
    {c : Consumer} (hk : k ∈ s.store.stored) (hc : c ∈ s.consumers)
    (hqueue : c.registration.queue = k.queue) (hdurable : k.durable = false) :
    (k.queue, c.conn) ∈ s.exclusive := by
  rcases h.copies k hk with ⟨hshared, -⟩ | ⟨-, hbroadcast, -⟩
  · rw [hdurable] at hshared
    cases hshared
  · have hkind := (h.own k hk hdurable c hc hqueue).1
    exact hqueue ▸ htopology.owner c hc (hkind.trans hbroadcast)

/-- Whoever consumes a queue is registered for the messages on it. -/
theorem Handling.same (h : s.Handling cfg used) (htopology : s.Topology cfg used) {k : Copy}
    {c : Consumer} (hk : k ∈ s.store.stored) (hc : c ∈ s.consumers)
    (hqueue : c.registration.queue = k.queue) :
    c.registration.kind = k.sent.kind ∧ c.registration.name = k.sent.name := by
  rcases h.copies k hk with ⟨-, hshared⟩ | ⟨hdurable, -, -⟩
  · rcases htopology.consumers c hc with ⟨hname, -⟩ | ⟨-, hown⟩
    · exact cfg.queueName_inj (hqueue ▸ hname) hshared
    · exact absurd (hqueue ▸ hshared) (htopology.apart _ (htopology.mem_used hown) _ _)
  · exact h.own k hk hdurable c hc hqueue

theorem Handling.deliver (h : s.Handling cfg used) (hinv : s.Inv) (htopology : s.Topology cfg used)
    {i j : Nat} (hs : s.deliver i j = some s') : s'.Handling cfg used := by
  obtain ⟨k, c, store, hk, hc, hqueue, hstore, rfl⟩ := deliver_eq_some hs
  obtain ⟨k', hk', -, rfl⟩ := Store.take_eq_some hstore
  obtain rfl : k = k' := Option.some.inj (hk.symm.trans hk')
  have hready : k ∈ s.store.ready := List.mem_of_getElem? hk
  have hstored : k ∈ s.store.stored := hinv.kept.conserved.mem_iff.1
    (by simp [Store.places, hready])
  have howner : k.durable = false → (k.queue, c.conn) ∈ s.exclusive :=
    h.owner htopology hstored hc hqueue
  have hnobody : k.durable = false → ∀ d t, s.tasks d = some t → t.copy ≠ k := by
    rintro hdurable d t ht rfl
    exact h.spent d t ht hdurable hready (List.mem_map_of_mem (howner hdurable))
  have hsame := h.same htopology hstored hc hqueue
  constructor
  · exact h.sent
  · exact h.copies
  · exact h.own
  · intro d t ht
    rcases of_setTask ht with ⟨-, rfl⟩ | ⟨-, ht⟩
    · exact hsame
    · exact h.tasks d t ht
  · intro d t ht hdurable c' hc'
    rcases of_setTask ht with ⟨-, rfl⟩ | ⟨-, ht⟩
    · exact congrArg Prod.snd (List.inj_on_of_nodup_map htopology.owned hc' (howner hdurable) rfl)
    · exact h.holder d t ht hdurable c' hc'
  · intro d t ht hdurable hmem
    rcases of_setTask ht with ⟨-, rfl⟩ | ⟨-, ht⟩
    · have hcount := Store.count_eraseIdx hk k
      have honce := hinv.kept.count_ready_le k
      have hpos : 0 < (s.store.ready.eraseIdx i).count k := List.count_pos_iff.2 hmem
      rw [List.count_cons_self] at hcount
      omega
    · exact h.spent d t ht hdurable (List.mem_of_mem_eraseIdx hmem)
  · intro d t d' t' ht ht' hcopy hdurable
    rcases of_setTask ht with ⟨rfl, rfl⟩ | ⟨-, ht⟩
    · rcases of_setTask ht' with ⟨rfl, -⟩ | ⟨-, ht'⟩
      · rfl
      · exact absurd hcopy.symm (hnobody hdurable d' t' ht')
    · rcases of_setTask ht' with ⟨-, rfl⟩ | ⟨-, ht'⟩
      · exact absurd hcopy (hnobody ((congrArg Copy.durable hcopy).symm.trans hdurable) d t ht)
      · exact h.unique d t d' t' ht ht' hcopy hdurable

/-- What a lost connection held on a queue of its own goes with the queue. -/
theorem Handling.brokerCloses (h : s.Handling cfg used) (hinv : s.Inv) (c : ConnId) :
    (s.brokerCloses c).Handling cfg used := by
  have hexclusive : ∀ x ∈ (s.brokerCloses c).exclusive, x ∈ s.exclusive ∧
      x.1 ∉ (s.exclusive.filter fun x => x.2 = c).map Prod.fst := by
    intro x hx
    obtain ⟨hx, hkeep⟩ := List.mem_filter.1 hx
    exact ⟨hx, by simpa using hkeep⟩
  refine h.of_less rfl (fun k hk => ?_) (fun x hx => (hexclusive x hx).1)
    (fun x hx => (List.mem_filter.1 hx).1) (fun p u' hu' => ?_)
    fun d t ht => ⟨t, ht, rfl, rfl⟩
  · obtain ⟨hk, -⟩ := List.mem_filter.1 hk
    rcases List.mem_append.1 hk with hlost | hk
    · right
      obtain ⟨⟨d, k⟩, hheld, rfl⟩ := List.mem_map.1 hlost
      obtain ⟨hheld, hconn⟩ := List.mem_filter.1 hheld
      obtain ⟨t, ht, rfl⟩ := (hinv.taken d k).1
        (Store.mem_taken.2 (Or.inl (List.mem_append_left _ hheld)))
      have hconn : t.consumer.conn = c := by simpa [ht] using hconn
      intro hdurable hmem
      obtain ⟨⟨q, c'⟩, hx, rfl⟩ := List.mem_map.1 hmem
      obtain ⟨hx, hkeep⟩ := hexclusive _ hx
      have hc' : c' = c := (h.holder d t ht hdurable c' hx).trans hconn
      exact hkeep (List.mem_map_of_mem (List.mem_filter.2 ⟨hx, by simpa using hc'⟩))
    · exact Or.inl hk
  · obtain ⟨u, hu, rfl⟩ := Option.map_eq_some_iff.1 hu'
    rw [u.unread_sent]
    exact h.sent p u hu

theorem Handling.stop (h : s.Handling cfg used) (stopped : Task → Bool) :
    (s.stop stopped).Handling cfg used := by
  refine h.of_less rfl (fun k hk => Or.inl hk) (List.Subset.refl _) (List.Subset.refl _) h.sent
    fun d t' ht' => ?_
  obtain ⟨t, ht, rfl⟩ := Option.map_eq_some_iff.1 ht'
  refine ⟨t, ht, ?_⟩
  split <;> exact ⟨rfl, rfl⟩

theorem Handling.clientCloses (h : s.Handling cfg used) (t : NodeId) :
    (s.clientCloses t).Handling cfg used := by
  refine Handling.stop ?_ _
  exact h.congr rfl rfl rfl rfl rfl

theorem Handling.keep (h : s.Handling cfg used) : s.Handling cfg (used ++ []) := by
  rwa [List.append_nil]

theorem handling_step (h : s.Handling cfg used) (hinv : s.Inv) (htopology : s.Topology cfg used)
    (hcfg : Topic.WildcardFree cfg.keyPrefix) {e : Event} (hs : step cfg s e = some s')
    (hfresh : ∀ q ∈ e.chosen cfg, q ∉ used) : s'.Handling cfg (used ++ e.chosen cfg) := by
  cases e with
  | register t kind name q =>
    obtain ⟨s₁, hs₁, rfl⟩ := Option.map_eq_some_iff.1 hs
    exact (h.consume hinv htopology hs₁ rfl hfresh).congr rfl rfl rfl rfl rfl
  | restore t r q =>
    exact h.consume hinv htopology (Option.ite_none_right_eq_some.1 hs).2 rfl hfresh
  | openConnection t =>
    simp only [step, openConnection] at hs
    split at hs <;> cases hs
    exact Handling.keep <| h.congr rfl rfl rfl rfl rfl
  | unregister t kind name =>
    cases hs
    refine Handling.keep <| h.of_less rfl (fun k hk => Or.inl (List.mem_filter.1 hk).1)
      (fun x hx => (List.mem_filter.1 hx).1)
      (fun x hx => (List.mem_filter.1 hx).1) h.sent fun d t ht => ⟨t, ht, rfl, rfl⟩
  | publish p t kind name body =>
    obtain ⟨-, rfl⟩ := publish_eq_some hs
    exact Handling.keep <| h.setPublishing p ⟨t, kind, name, body, rfl⟩
  | accept p => exact Handling.keep <| h.accept hinv htopology hcfg hs
  | publishEnds p o =>
    obtain ⟨u, hu, -, rfl⟩ := publishEnds_eq_some hs
    exact Handling.keep <| h.setPublishing p (h.sent p u hu)
  | deliver i j => exact Handling.keep <| h.deliver hinv htopology hs
  | settle d =>
    obtain ⟨_, -, -, rfl⟩ := settle_eq_some hs
    exact Handling.keep <| h.of_less rfl (fun k hk => Or.inl hk) (List.Subset.refl _)
      (List.Subset.refl _) h.sent
      fun d t ht => ⟨t, ht, rfl, rfl⟩
  | task d e =>
    obtain ⟨t, t', _, ht, ht', rfl⟩ := task_eq_some hs
    refine Handling.keep <| h.of_less rfl (fun k hk => Or.inl hk) (List.Subset.refl _)
      (List.Subset.refl _) h.sent
      fun d' t₁ ht₁ => ?_
    rcases of_setTask ht₁ with ⟨rfl, rfl⟩ | ⟨-, ht₁⟩
    · exact ⟨t, ht, (Task.evolves_step ht').consumer, (Task.evolves_step ht').copy⟩
    · exact ⟨t₁, ht₁, rfl, rfl⟩
  | brokerCloses c =>
    cases hs
    exact Handling.keep <| h.brokerCloses hinv c
  | clientCloses t =>
    cases hs
    exact Handling.keep <| h.clientCloses t
  | disconnect t =>
    cases hs
    exact Handling.keep <| (h.clientCloses t).congr rfl rfl rfl rfl rfl
  | crash t =>
    cases hs
    have hclosed : ({ s with conns := Function.update s.conns t none } : State).Handling cfg used :=
      h.congr rfl rfl rfl rfl rfl
    exact Handling.keep <| (hclosed.stop _).congr rfl rfl rfl rfl rfl
  | restart =>
    obtain ⟨-, hs⟩ := Option.ite_none_right_eq_some.1 hs
    cases hs
    exact Handling.keep <| h.of_less rfl (fun k hk => Or.inl (List.mem_filter.1 hk).1)
      (List.Subset.refl _)
      (List.Subset.refl _) h.sent fun d t ht => ⟨t, ht, rfl, rfl⟩

end handling

/-! ## Over a run -/

section run

variable {cfg : Config} {used : List String} {s : State}

theorem topology_init (cfg : Config) : init.Topology cfg [] := by
  constructor <;> simp [init]

theorem handling_run (hcfg : Topic.WildcardFree cfg.keyPrefix) {es : List Event}
    (hs : run (step cfg) init es = some s) (hnames : WellNamed cfg es) :
    s.Topology cfg (es.flatMap (Event.chosen cfg)) ∧
    s.Handling cfg (es.flatMap (Event.chosen cfg)) := by
  induction es using List.reverseRecOn generalizing s with
  | nil =>
    cases hs
    exact ⟨topology_init cfg, handling_init cfg⟩
  | append_singleton es e ih =>
    obtain ⟨m, hm, he⟩ := run_append_eq_some.1 hs
    rw [run_singleton] at he
    have hchosen : (es ++ [e]).flatMap (Event.chosen cfg) = es.flatMap (Event.chosen cfg) ++
        e.chosen cfg := by
      simp
    obtain ⟨hplain, hfresh, hapart⟩ := hnames
    rw [hchosen] at hfresh hapart ⊢
    obtain ⟨hnodup, -, hdisjoint⟩ := List.nodup_append.1 hfresh
    obtain ⟨htopology, hhandling⟩ := ih hm
      ⟨fun t kind name q hq => hplain t kind name q (List.mem_append_left _ hq), hnodup,
      fun q hq => hapart q (List.mem_append_left _ hq)⟩
    have hnew : ∀ q ∈ e.chosen cfg, q ∉ es.flatMap (Event.chosen cfg) :=
      fun q hq hused => hdisjoint q hused q hq rfl
    refine ⟨topology_step htopology he (fun t kind name q heq => hplain t kind name q
      (by simp [heq])) hnew
      fun q hq => hapart q (List.mem_append_right _ hq), ?_⟩
    exact handling_step hhandling (inv_run hm inv_init) htopology hcfg he hnew

/-- Who was handed a message. -/
def deliveriesFor (s : State) (p : Nat) : List DeliveryId :=
  (List.range s.delivered).filter fun d => (s.tasks d).any fun t => t.copy.publication = p

/-- How often callbacks have been called for a message, on all queues together. -/
def callsFor (s : State) (p : Nat) : Nat := (s.deliveriesFor p).foldr (fun d n => s.calls d + n) 0

/-- A request or an event has one copy, on the queue of its name. -/
theorem Handling.same_copy (h : s.Handling cfg used) (hinv : s.Inv) {k k' : Copy}
    (hk : k ∈ s.store.stored) (hk' : k' ∈ s.store.stored) (hkind : k.sent.kind ≠ .broadcast)
    (hp : k.publication = k'.publication) : k = k' := by
  obtain ⟨u, hu, hsent⟩ := hinv.sent k hk
  obtain ⟨u', hu', hsent'⟩ := hinv.sent k' hk'
  obtain rfl : u = u' := Option.some.inj (hu.symm.trans (hp ▸ hu'))
  have hsame : k.sent = k'.sent := hsent.symm.trans hsent'
  rcases h.copies k hk with ⟨hdurable, hqueue⟩ | ⟨-, hbroadcast, -⟩
  · rcases h.copies k' hk' with ⟨hdurable', hqueue'⟩ | ⟨-, hbroadcast, -⟩
    · rw [← hsame, hqueue, Option.some.injEq] at hqueue'
      cases k
      cases k'
      simp_all
    · exact absurd (hsame ▸ hbroadcast) hkind
  · exact absurd hbroadcast hkind

theorem Handling.deliveriesFor_eq (h : s.Handling cfg used) (hinv : s.Inv) {k : Copy}
    (hk : k ∈ s.store.stored) (hkind : k.sent.kind ≠ .broadcast) :
    s.deliveriesFor k.publication = s.deliveriesOf k := by
  refine List.filter_congr fun d _ => ?_
  cases ht : s.tasks d with
  | none => rfl
  | some t =>
    have hiff : t.copy.publication = k.publication ↔ t.copy = k :=
      ⟨fun hp => (h.same_copy hinv hk (hinv.stored ht) hkind hp.symm).symm, congrArg _⟩
    simp [hiff]

/-- A copy on an exclusive queue is handed out once. -/
theorem Handling.length_deliveriesOf_le_one (h : s.Handling cfg used) (hinv : s.Inv) {k : Copy}
    (hkind : k.sent.kind = .broadcast) :
    (s.deliveriesOf k).length ≤ 1 := by
  have hsame : ∀ d ∈ s.deliveriesOf k, ∀ d' ∈ s.deliveriesOf k, d = d' := by
    intro d hd d' hd'
    obtain ⟨t, ht, rfl⟩ := (mem_deliveriesOf hinv).1 hd
    obtain ⟨t', ht', hcopy⟩ := (mem_deliveriesOf hinv).1 hd'
    refine h.unique d t d' t' ht ht' hcopy.symm ?_
    rcases h.copies _ (hinv.stored ht) with ⟨-, hqueue⟩ | ⟨hdurable, -, -⟩
    · rw [hkind] at hqueue
      cases hqueue
    · exact hdurable
  have hnodup := nodup_deliveriesOf s k
  match hds : s.deliveriesOf k with
  | [] => exact Nat.zero_le 1
  | [_] => exact Nat.le_refl 1
  | d :: d' :: ds =>
    rw [hds] at hsame hnodup
    have heq := hsame d List.mem_cons_self d' (List.mem_cons_of_mem _ List.mem_cons_self)
    exact absurd (heq ▸ List.mem_cons_self) (List.nodup_cons.1 hnodup).1

/-- **Who handles a message, and how often.** Whatever breaks, it is only handled under its own
kind and name. The callbacks for a request or an event are called once by all instances together,
and once more for each connection lost; for a broadcast every queue gets one call at most, and no
more when a connection is lost. -/
theorem handled_by_name (hcfg : Topic.WildcardFree cfg.keyPrefix) {es : List Event}
    (hs : run (step cfg) init es = some s) (hnames : WellNamed cfg es) :
    (∀ d t, s.tasks d = some t → t.consumer.registration.kind = t.copy.sent.kind ∧
      t.consumer.registration.name = t.copy.sent.name) ∧
      (∀ p u, s.publishings p = some u → u.sent.kind ≠ .broadcast →
        s.callsFor p ≤ es.countP Event.losesConnection + 1) ∧
      ∀ k : Copy, k.sent.kind = .broadcast → s.callsOf k ≤ 1 := by
  have hinv : s.Inv := inv_run hs inv_init
  obtain ⟨-, hhandling⟩ := handling_run hcfg hs hnames
  refine ⟨hhandling.tasks, fun p u hu hkind => ?_, fun k hkind => ?_⟩
  · cases hds : s.deliveriesFor p with
    | nil => simp [callsFor, hds]
    | cons d ds =>
      have hd : d ∈ s.deliveriesFor p := hds ▸ List.mem_cons_self
      obtain ⟨t, ht, hp⟩ := (Option.any_eq_true _ _).1 (List.mem_filter.1 hd).2
      obtain rfl : t.copy.publication = p := by simpa using hp
      have hstored := hinv.stored ht
      obtain ⟨u', hu', hsent⟩ := hinv.sent _ hstored
      obtain rfl : u = u' := Option.some.inj (hu.symm.trans hu')
      have hcalls : s.callsFor t.copy.publication = s.callsOf t.copy := by
        rw [callsFor, hhandling.deliveriesFor_eq hinv hstored (hsent ▸ hkind), callsOf]
      have hlost := returns_run hs t.copy
      have honce := (callsOf_le_length hinv t.copy).trans (length_deliveriesOf_le hinv t.copy)
      omega
  · exact (callsOf_le_length hinv k).trans (hhandling.length_deliveriesOf_le_one hinv hkind)

theorem handled_by_name_lostBroadcast :
    ∃ s, run (step Config.default) init lostBroadcast = some s ∧ s.callsOf copyOfBroadcast ≤ 1 :=
  ⟨_, rfl, (@handled_by_name Config.default _
    (by decide) lostBroadcast rfl wellNamed_lostBroadcast).2.2 copyOfBroadcast rfl⟩

example : (run (step Config.default) init lostBroadcast).map
    (fun s => (s.callsOf copyOfBroadcast, s.store.ready, s.exclusive)) =
    some (1, [], [("amq_1", 1)]) := by rfl

end run

end State

end Atasks.Amqp.Delivery
