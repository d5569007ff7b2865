import Atasks.Amqp.Handled
import Atasks.Amqp.Outcomes
/-!
# What a publish tells its caller

`Delivery` knows how the await of a publish ends and where its message is; a caller only sees what
`send_request`, `publish_event` and `publish_broadcast` make of that end, which are the ladders of
`InFlight`. For events and broadcasts they keep to themselves that nobody got the message
(`README.md:535-546`).

| here | there |
| --- | --- |
| `Report.waits`    | `send_request` goes on to await its response (`amqp.py:403-408`) |
| `Report.noRoute`  | `raise NoRouteError(name)` (`:377-379`) |
| `Report.returned` | `publish_event`, `publish_broadcast` return, also for a dropped message (`:439-440`, `:507-508`) |
| `Report.failed`   | a `ConnectionLostError`, or the cancellation of the task |

* `reports_call`, `reports_publisher`: the ladders report just this;
* `routed_run`: the queues that a message came to stay the same;
* `publish_accounted`: what each report says of all later states.
-/

namespace Atasks.Amqp

inductive Report
  | waits
  | noRoute
  | returned
  | failed
deriving DecidableEq, Repr

def PublishEnd.report (kind : Kind) : PublishEnd → Report
  | .ok => if kind = .rpc then .waits else .returned
  | .raised .publishError => if kind = .rpc then .noRoute else .returned
  | .raised _ => .failed

namespace Report

/-- What a call of `send_request` is left as. -/
def Left (c c' : Call) : Report → Prop
  | .waits => c'.phase = .waiting false false
  | .noRoute => c'.phase = .finished (.raised (.noRoute c.name))
  | .returned => False
  | .failed =>
    c'.phase = .finished (.raised .cancelled) ∨ c'.phase = .waiting false false ∧
      c'.future.done = true

end Report

theorem PublishEnd.report_eq_failed (kind : Kind) {e : Exc} (he : e ≠ .publishError) :
    PublishEnd.report kind (.raised e) = .failed := by
  cases e <;> first | rfl | exact absurd rfl he

theorem PublishEnd.report_eq_noRoute {kind : Kind} {o : PublishEnd} (h : o.report kind = .noRoute) :
    o = .raised .publishError := by
  cases o with
  | ok => cases kind <;> cases h
  | raised e => cases e <;> first | rfl | cases h

theorem PublishEnd.report_eq_waits {kind : Kind} {o : PublishEnd} (h : o.report kind = .waits) :
    o = .ok := by
  cases o with
  | ok => rfl
  | raised e => cases kind <;> cases e <;> cases h

/-- `send_request`. -/
theorem reports_call {s s' : State} (h : Inv s) {k : CallId} {o : PublishEnd}
    (hs : publishEnds s k o = some s') :
    ∃ c c', s.calls k = some c ∧ s'.calls k = some c' ∧ (o.report .rpc).Left c c' := by
  obtain ⟨c, hc, -, hcase⟩ := publishEnds_cases hs
  refine ⟨c, ?_⟩
  rcases hcase with ⟨rfl, rfl⟩ | ⟨rfl, rfl⟩ | ⟨rfl, -, rfl⟩ | ⟨e, rfl, he, -, rfl⟩
  · exact ⟨{ c with published := some .ok, phase := .waiting false false },
      hc, by simp [awaitFuture, hc], rfl⟩
  · exact ⟨_, hc, Function.update_self .., rfl⟩
  · exact ⟨_, hc, Function.update_self .., Or.inl rfl⟩
  · have hfailed : (failAwaitingRequests s (some e)).calls k =
        some (c.cleared s.awaitingRequests (some e) k) := by
      rw [failAwaitingRequests_calls h, hc]
      rfl
    have hleft : (awaitFuture (failAwaitingRequests s (some e)) k (.raised e)).calls k = some
        { c.cleared s.awaitingRequests (some e) k with
          published := some (.raised e), phase := .waiting false false } := by
      simp [awaitFuture, hfailed]
    have hdone := (h.publishEnds hs).failed k _ e hleft rfl
    rw [PublishEnd.report_eq_failed _ he]
    exact ⟨_, hc, hleft, Or.inr ⟨rfl, hdone.resolve_left (by simp [Call.finished])⟩⟩

/-- `publish_event` and `publish_broadcast`. -/
theorem reports_publisher {s s' : State} {p : Nat} {o : PublishEnd}
    (hs : publisherEnds s p o = some s') {kind : Kind} (hkind : kind ≠ .rpc) :
    ∃ q', s'.publishers p = some q' ∧ (o.report kind = .returned ∧ q'.outcome = some (.ok ()) ∨
      o.report kind = .failed ∧ ∃ e, q'.outcome = some (.error e)) := by
  obtain ⟨q, r, -, -, hcase⟩ := publisherEnds_outcome hs
  refine ⟨{ q with outcome := some r }, ?_⟩
  rcases hcase with ⟨rfl | rfl, rfl, rfl⟩ | ⟨rfl, -, rfl, rfl⟩ | ⟨e, rfl, he, -, rfl, rfl⟩
  · exact ⟨Function.update_self .., Or.inl ⟨if_neg hkind, rfl⟩⟩
  · exact ⟨Function.update_self .., Or.inl ⟨if_neg hkind, rfl⟩⟩
  · exact ⟨Function.update_self .., Or.inr ⟨rfl, _, rfl⟩⟩
  · exact ⟨Function.update_self .., Or.inr ⟨PublishEnd.report_eq_failed kind he, _, rfl⟩⟩

namespace Delivery

open Machine
open Custody (Store)

def Publishing.report (u : Publishing) : Option Report :=
    u.ended.map (PublishEnd.report u.sent.kind)

/-- A request for which there is no consumer yet, and another one once there is. -/
def unroutable : List Event :=
  [.openConnection 0, .publish 0 0 .rpc "m.f" [], .accept 0, .publishEnds 0 (.raised .publishError)]

def servedLater : List Event :=
  [.register 0 .rpc "m.f" "", .publish 1 0 .rpc "m.f" [], .accept 1, .publishEnds 1 .ok,
    .deliver 0 0, .task 0 .receive,
    .task 0 .sendAck, .task 0 (.ackEnds .ok)]

namespace State

variable {cfg : Config} {s s' : State} {p : Nat} {u : Publishing}

/-- A publication that has been to the broker keeps its queues, if what is put in its place has
them. -/
theorem routed_setPublishing {queues : List String}
    (hp : (s.publishings p).bind Publishing.routed = some queues) {p' : Nat} {u' : Publishing}
    (hkeep : ∀ u, s.publishings p' = some u → u.routed = some queues → u'.routed = some queues) :
    ((s.setPublishing p' u').publishings p).bind Publishing.routed = some queues := by
  by_cases heq : p = p'
  · subst heq
    obtain ⟨u, hu, hrouted⟩ := Option.bind_eq_some_iff.1 hp
    simpa [setPublishing] using hkeep u hu hrouted
  · simpa [setPublishing, heq] using hp

theorem routed_step {e : Event} (h : s.Inv) (hs : step cfg s e = some s') {queues : List String}
    (hp : (s.publishings p).bind Publishing.routed = some queues) :
    (s'.publishings p).bind Publishing.routed = some queues := by
  cases e with
  | openConnection t => exact (untouched_openConnection hs).publishings ▸ hp
  | register t kind name q => exact (untouched_register hs).publishings ▸ hp
  | restore t r q => exact (untouched_restore hs).publishings ▸ hp
  | unregister t kind name =>
    cases hs
    exact hp
  | publish p' t kind name body =>
    obtain ⟨hnone, rfl⟩ := publish_eq_some hs
    exact routed_setPublishing hp fun u hu => by simp [hnone] at hu
  | accept p' =>
    obtain ⟨u, hu, hwire, rfl⟩ := accept_eq_some hs
    refine routed_setPublishing hp fun u' hu' hrouted => ?_
    obtain rfl : u = u' := Option.some.inj (hu.symm.trans hu')
    rw [h.wire p' u hu hwire] at hrouted
    cases hrouted
  | publishEnds p' o =>
    obtain ⟨u, hu, -, rfl⟩ := publishEnds_eq_some hs
    refine routed_setPublishing hp fun u' hu' hrouted => ?_
    obtain rfl : u = u' := Option.some.inj (hu.symm.trans hu')
    exact hrouted
  | deliver i j =>
    obtain ⟨_, _, _, -, -, -, -, rfl⟩ := deliver_eq_some hs
    exact hp
  | settle d =>
    obtain ⟨_, -, -, rfl⟩ := settle_eq_some hs
    exact hp
  | task d e =>
    obtain ⟨_, _, _, -, -, rfl⟩ := task_eq_some hs
    exact hp
  | brokerCloses c =>
    cases hs
    simpa [brokerCloses, deleteQueues, Option.bind_map, Function.comp_def] using hp
  | clientCloses t =>
    cases hs
    exact hp
  | disconnect t =>
    cases hs
    exact hp
  | crash t =>
    cases hs
    exact hp
  | restart =>
    obtain ⟨-, hs⟩ := Option.ite_none_right_eq_some.1 hs
    cases hs
    exact hp

theorem routed_run {es : List Event} (h : s.Inv) (hs : run (step cfg) s es = some s')
    {queues : List String} (hp : (s.publishings p).bind Publishing.routed = some queues) :
    (s'.publishings p).bind Publishing.routed = some queues := by
  have hstep : ∀ t e t', (t.Inv ∧ (t.publishings p).bind Publishing.routed = some queues) →
    step cfg t e = some t' →
      t'.Inv ∧ (t'.publishings p).bind Publishing.routed = some queues :=
    fun t e t' hi ht => ⟨inv_step cfg t e t' hi.1 ht, routed_step hi.1 ht hi.2⟩
  exact (run_invariant hstep es hs ⟨h, hp⟩).2

/-- The queues that hold, or held, a copy of a publication. -/
def queuesOf (s : State) (p : Nat) : List String :=
    (s.store.stored.filter fun k => k.publication = p).map Copy.queue

theorem Inv.queuesOf_eq (h : s.Inv) (hu : s.publishings p = some u) :
    s.queuesOf p = u.routed.getD [] := by
  simpa [queuesOf, hu] using h.copies p

theorem Inv.nodup_queuesOf (h : s.Inv) (p : Nat) : (s.queuesOf p).Nodup := by
  cases hu : s.publishings p with
  | none =>
    have hnone := h.copies p
    simp only [hu, Option.bind_none, Option.getD_none] at hnone
    rw [queuesOf, hnone]
    exact List.nodup_nil
  | some u => exact h.queuesOf_eq hu ▸ h.queues p u hu

/-- Whoever is handed a message is handed it from one of its queues. -/
theorem Inv.queue_mem (h : s.Inv) {d : DeliveryId} {t : Task} (ht : s.tasks d = some t) :
    t.copy.queue ∈ s.queuesOf t.copy.publication :=
  List.mem_map_of_mem (List.mem_filter.2 ⟨h.stored ht, by simp⟩)

/-- A message on no queue is handled by nobody. -/
theorem Inv.callsFor_eq_zero (h : s.Inv) (hqueues : s.queuesOf p = []) : s.callsFor p = 0 := by
  have hnobody : s.deliveriesFor p = [] := by
    refine List.filter_eq_nil_iff.2 fun d _ hd => ?_
    obtain ⟨t, ht, hp⟩ := (Option.any_eq_true _ _).1 hd
    obtain rfl : t.copy.publication = p := by simpa using hp
    have hmem := h.queue_mem ht
    rw [hqueues] at hmem
    cases hmem
  rw [callsFor, hnobody]
  rfl

/-- A publish that is not reported as failed has been to the broker. -/
theorem Inv.routed_of_report (h : s.Inv) (hu : s.publishings p = some u) {r : Report}
    (hr : u.report = some r) (hne : r ≠ .failed) :
    u.routed.isSome = true := by
  obtain ⟨o, ho, rfl⟩ := Option.map_eq_some_iff.1 hr
  have hmay := h.ended p u hu o ho
  cases o with
  | ok =>
    obtain ⟨queues, hqueues, -⟩ := (Option.any_eq_true _ _).1 hmay
    rw [hqueues]
    rfl
  | raised e =>
    by_cases he : e = .publishError
    · subst he
      have hnone : u.routed = some [] := by simpa [Publishing.mayEnd] using hmay
      rw [hnone]
      rfl
    · exact absurd (PublishEnd.report_eq_failed _ he) hne

/-- Later on the message is on the same queues. -/
theorem Inv.queuesOf_run (h : s.Inv) (hu : s.publishings p = some u)
    (hrouted : u.routed.isSome = true) {es : List Event} (hs : run (step cfg) s es = some s') :
    s'.queuesOf p = s.queuesOf p := by
  obtain ⟨queues, hqueues⟩ := Option.isSome_iff_exists.1 hrouted
  have hlater : (s'.publishings p).bind Publishing.routed = some queues :=
    routed_run h hs (by simp [hu, hqueues])
  rw [h.queuesOf_eq hu, hqueues, queuesOf, (inv_run hs h).copies p, hlater]

theorem Inv.queuesOf_noRoute (h : s.Inv) (hu : s.publishings p = some u)
    (hr : u.report = some .noRoute) :
    s.queuesOf p = [] := by
  obtain ⟨o, ho, hreport⟩ := Option.map_eq_some_iff.1 hr
  have hmay := h.ended p u hu o ho
  rw [PublishEnd.report_eq_noRoute hreport] at hmay
  have hnone : u.routed = some [] := by simpa [Publishing.mayEnd] using hmay
  rw [h.queuesOf_eq hu, hnone]
  rfl

theorem Inv.queuesOf_waits (h : s.Inv) (hu : s.publishings p = some u)
    (hr : u.report = some .waits) :
    s.queuesOf p ≠ [] := by
  obtain ⟨o, ho, hreport⟩ := Option.map_eq_some_iff.1 hr
  have hmay := h.ended p u hu o ho
  rw [PublishEnd.report_eq_waits hreport] at hmay
  obtain ⟨queues, hqueues, hne⟩ := (Option.any_eq_true _ _).1 hmay
  rw [h.queuesOf_eq hu, hqueues]
  simpa using hne

end State

end Delivery

end Atasks.Amqp
