import Atasks.Amqp.DeliveryInv
/-!
# How often a callback is called

What a run of `Delivery` makes of one copy of a message. The custody of the copies is a run of
the store (`store_refines`), so a copy that was handed out twice was lost once by a connection
that the broker had not got the ack through; and each time it is handed out, the callback is
called at most once, behind the ack.

| here | there |
| --- | --- |
| `State.callsOf` | calls of `callback` for a copy: `await callback(request)` (`amqp.py:312`), `await callback(content)` (`:464`, `:531`) |
| `State.returns` | how often the copy went back to its queue |
| `Event.disturbs` | what the stages of `README.md:530-586` call a failure |
-/

namespace Atasks.Amqp.Delivery

open Machine
open Custody (Store)

/-- An event for `m.f`, from its publish to the end of its callback. -/
def oneEvent : List Event :=
  [.openConnection 0, .register 0 .queue "m.f" "", .publish 0 0 .queue "m.f" [], .accept 0,
    .publishEnds 0 .ok, .deliver 0 0, .task 0 .receive, .task 0 .sendAck, .task 0 (.ackEnds .ok),
    .settle 0, .task 0 (.callbackEnds .returned), .task 0 (.goOn .ok)]

/-- The same, with the ack lost on the way: the message is handed out a second time. -/
def lostAck : List Event :=
  oneEvent.take 9 ++ [.brokerCloses 0, .clientCloses 0, .openConnection 0,
    .restore 0 ⟨0, .queue, "m.f"⟩ "", .deliver 0 0, .task 1 .receive, .task 1 .sendAck,
    .task 1 (.ackEnds .ok), .settle 1]

/-- The process ends, its connection is lost, the broker starts again, and another process consumes
the queue. -/
def aftermath : List Event :=
  [.crash 0, .brokerCloses 0, .restart, .openConnection 0, .register 0 .queue "m.f" "",
    .publish 1 0 .queue "m.f" [], .accept 1, .deliver 0 0]

def copyOfEvent : Copy := ⟨0, "atask.atask.q.m.f", true, Config.default.sent 0 .queue "m.f" []⟩

namespace State

/-- Who was handed a copy. -/
def deliveriesOf (s : State) (k : Copy) : List DeliveryId :=
  (List.range s.delivered).filter fun d => (s.tasks d).any fun t => t.copy = k

/-- How often a delivery has called its callback. -/
def calls (s : State) (d : DeliveryId) : Nat := (s.tasks d).elim 0 Task.calls

def callsOf (s : State) (k : Copy) : Nat := (s.deliveriesOf k).foldr (fun d n => s.calls d + n) 0

def returns (s : State) (k : Copy) : Nat := (s.store.returned.map Prod.snd).count k

end State

/-- The broker takes a connection for lost. -/
def Event.losesConnection : Event → Bool
  | .brokerCloses _ => true
  | _ => false

/-- A connection, a process or the broker breaks, or an ack does not end well. -/
def Event.disturbs : Event → Bool
  | .brokerCloses _ => true
  | .clientCloses _ => true
  | .disconnect _ => true
  | .crash _ => true
  | .restart => true
  | .task _ (.ackEnds answer) => answer ≠ .ok
  | _ => false

namespace State

variable {cfg : Config} {s s' : State} {k : Copy}

/-! ## The broker's part is a run of the store -/

/-- What each event does to the custody of the copies. -/
theorem store_refines (h : s.Inv) {e : Event} (hs : step cfg s e = some s') :
    ∃ ops, run Store.step s.store ops = some s'.store ∧
    ops.countP Custody.Event.loses = if e.losesConnection then 1 else 0 := by
  cases e with
  | openConnection t => exact ⟨[], congrArg some (untouched_openConnection hs).store.symm, rfl⟩
  | register t kind name q => exact ⟨[], congrArg some (untouched_register hs).store.symm, rfl⟩
  | restore t r q => exact ⟨[], congrArg some (untouched_restore hs).store.symm, rfl⟩
  | unregister t kind name =>
    cases hs
    exact ⟨[.discard _], rfl, rfl⟩
  | publish p t kind name body =>
    obtain ⟨-, rfl⟩ := publish_eq_some hs
    exact ⟨[], rfl, rfl⟩
  | accept p =>
    obtain ⟨u, hu, hwire, rfl⟩ := accept_eq_some hs
    refine ⟨[.store (s.copiesOf p u.sent)], ?_, rfl⟩
    rw [run_singleton, Store.step, if_pos (h.nodup_accept hu (h.wire p u hu hwire))]
  | publishEnds p o =>
    obtain ⟨_, -, -, rfl⟩ := publishEnds_eq_some hs
    exact ⟨[], rfl, rfl⟩
  | deliver i j =>
    obtain ⟨_, _, store, -, -, -, hstore, rfl⟩ := deliver_eq_some hs
    exact ⟨[.take i s.delivered], (run_singleton _ _).trans hstore, rfl⟩
  | settle d =>
    obtain ⟨_, -, -, rfl⟩ := settle_eq_some hs
    exact ⟨[.settle (· == d)], rfl, rfl⟩
  | task d e =>
    obtain ⟨_, _, _, -, -, rfl⟩ := task_eq_some hs
    exact ⟨[], rfl, rfl⟩
  | brokerCloses c =>
    cases hs
    exact ⟨[.lose _, .discard _], rfl, rfl⟩
  | clientCloses t =>
    cases hs
    exact ⟨[], rfl, rfl⟩
  | disconnect t =>
    cases hs
    exact ⟨[], rfl, rfl⟩
  | crash t =>
    cases hs
    exact ⟨[], rfl, rfl⟩
  | restart =>
    obtain ⟨-, hs⟩ := Option.ite_none_right_eq_some.1 hs
    cases hs
    exact ⟨[.discard _], rfl, rfl⟩

theorem before_step (h : s.Inv) {e : Event} (hs : step cfg s e = some s') :
    s.store.Before s'.store := by
  obtain ⟨ops, hops, -⟩ := store_refines h hs
  exact Store.before_run hops

theorem before_run (h : s.Inv) {es : List Event} (hs : run (step cfg) s es = some s') :
    s.store.Before s'.store := by
  have hstep : ∀ t e t', (t.Inv ∧ s.store.Before t.store) → step cfg t e = some t' →
      t'.Inv ∧ s.store.Before t'.store :=
    fun t e t' hi ht => ⟨inv_step cfg t e t' hi.1 ht, hi.2.trans (before_step hi.1 ht)⟩
  exact (run_invariant hstep es hs ⟨h, Store.Before.refl _⟩).2

/-- **A message on a queue is not lost.** Once a copy is on a queue it is in exactly one place in
every later state: ready, with a consumer, done with, or dropped with its queue or with a broker
that started again. That last place is not for a persistent message on a durable queue. -/
theorem copy_kept (h : Reachable (step cfg) init s) {es : List Event}
    (hs : run (step cfg) s es = some s') (hk : k ∈ s.store.stored) :
    s'.store.Place k ∧ (k.durable = true → k.persistent = true → k ∉ s'.store.gone) := by
  have hinv := inv_reachable h
  have hinv' := inv_run hs hinv
  exact ⟨hinv'.kept.place ((before_run hinv hs).stored hk), fun hdurable hpersistent hgone =>
    hinv'.lasting k hgone ⟨hdurable, hpersistent⟩⟩

theorem copy_kept_lostAck :
    ∃ s', run (step Config.default) init lostAck = some s' ∧ copyOfEvent ∉ s'.store.gone :=
  ⟨_, rfl, (@copy_kept Config.default _ _ copyOfEvent ⟨lostAck.take 4, rfl⟩ (lostAck.drop 4) rfl
    (by decide)).2 rfl rfl⟩

/-! ## How often a copy is handed out -/

theorem mem_deliveriesOf (h : s.Inv) {d : DeliveryId} :
    d ∈ s.deliveriesOf k ↔ ∃ t, s.tasks d = some t ∧ t.copy = k := by
  simp only [deliveriesOf, List.mem_filter, List.mem_range, Option.any_eq_true, decide_eq_true_eq]
  constructor
  · rintro ⟨-, ht⟩
    exact ht
  · rintro ⟨t, ht, hcopy⟩
    exact ⟨h.delivered d t ht, t, ht, hcopy⟩

theorem nodup_deliveriesOf (s : State) (k : Copy) :
    (s.deliveriesOf k).Nodup := List.nodup_range.filter _

/-- The deliveries are the takings of the store. -/
theorem perm_deliveriesOf (h : s.Inv) (k : Copy) :
    ((s.store.taken.filter fun x => x.2 = k).map Prod.fst).Perm (s.deliveriesOf k) := by
  have htaken : ((s.store.taken.filter fun x => x.2 = k).map Prod.fst).Nodup :=
    h.kept.holders.sublist (List.filter_sublist.map _)
  refine (List.perm_ext_iff_of_nodup htaken (nodup_deliveriesOf s k)).2 fun d => ?_
  rw [mem_deliveriesOf h, ← h.taken d k]
  simp

theorem length_deliveriesOf (h : s.Inv) (k : Copy) :
    (s.deliveriesOf k).length = (s.store.taken.map Prod.snd).count k := by
  rw [← (perm_deliveriesOf h k).length_eq, List.length_map, List.count_eq_countP, List.countP_map,
    List.countP_eq_length_filter]
  congr 2

theorem length_deliveriesOf_le (h : s.Inv) (k : Copy) :
    (s.deliveriesOf k).length ≤ s.returns k + 1 := by
  have hplace := Store.perm_places_iff.1 h.kept.conserved k
  have honce := List.nodup_iff_count_le_one.1 h.kept.once k
  rw [length_deliveriesOf h, returns]
  simp only [Store.taken, List.map_append, List.count_append]
  omega

theorem foldr_calls_le (s : State) {ds : List DeliveryId} (h : ∀ d ∈ ds, s.calls d ≤ 1) :
    ds.foldr (fun d n => s.calls d + n) 0 ≤ ds.length := by
  induction ds with
  | nil => exact Nat.le_refl _
  | cons d ds ih =>
    have hd := h d List.mem_cons_self
    have hds := ih fun d' hd' => h d' (List.mem_cons_of_mem _ hd')
    simp only [List.foldr_cons, List.length_cons]
    omega

theorem calls_le_foldr (s : State) {ds : List DeliveryId} {d : DeliveryId} (h : d ∈ ds) :
    s.calls d ≤ ds.foldr (fun d n => s.calls d + n) 0 := by
  induction ds with
  | nil => cases h
  | cons d' ds ih =>
    simp only [List.foldr_cons]
    rcases List.mem_cons.1 h with rfl | h
    · omega
    · have hle := ih h
      omega

theorem callsOf_le_length (h : s.Inv) (k : Copy) : s.callsOf k ≤ (s.deliveriesOf k).length := by
  refine foldr_calls_le s fun d hd => ?_
  obtain ⟨t, ht, -⟩ := (mem_deliveriesOf h).1 hd
  simpa [calls, ht] using (h.sound d t ht).once

theorem returns_step (h : s.Inv) {e : Event} (hs : step cfg s e = some s') (k : Copy) :
    s'.returns k ≤ s.returns k + if e.losesConnection then 1 else 0 := by
  obtain ⟨ops, hops, hloses⟩ := store_refines h hs
  exact hloses ▸ Store.count_returned_run h.kept hops k

theorem returns_run {es : List Event} (hs : run (step cfg) init es = some s) (k : Copy) :
    s.returns k ≤ es.countP Event.losesConnection := by
  have hreturns := run_measure_le (μ := fun s => s.returns k) (inv_step cfg)
    (fun _ _ _ hi hstep => returns_step hi hstep k) es hs inv_init
  have hinit : init.returns k = 0 := rfl
  omega

/-- **A callback is called once for a message, and once more for each connection lost.** Every
delivery calls it at most once, with the ack sent, and on the queue the message is on. -/
theorem at_most_once {es : List Event} (hs : run (step cfg) init es = some s) (k : Copy) :
    s.callsOf k ≤ s.returns k + 1 ∧ s.returns k ≤ es.countP Event.losesConnection ∧
      ∀ d t, s.tasks d = some t → t.calls ≤ 1 ∧
      (t.calls = 1 → t.ackSent = true ∧ t.consumer.registration.queue = t.copy.queue) := by
  have hinv : s.Inv := inv_run hs inv_init
  refine ⟨(callsOf_le_length hinv k).trans (length_deliveriesOf_le hinv k), returns_run hs k,
    fun d t ht => ?_⟩
  have hsound := hinv.sound d t ht
  exact ⟨hsound.once, fun hcalls => ⟨hsound.acked hcalls, hsound.queue⟩⟩

theorem at_most_once_lostAck :
    ∃ s, run (step Config.default) init lostAck = some s ∧
    s.callsOf copyOfEvent ≤ s.returns copyOfEvent + 1 :=
  ⟨_, rfl, (@at_most_once Config.default _ lostAck rfl copyOfEvent).1⟩

example : (run (step Config.default) init lostAck).map
    (fun s => (s.callsOf copyOfEvent, s.returns copyOfEvent)) = some (2, 1) := by
  rfl

/-! ## Behind the ack -/

theorem taken_of_settled_run (h : s.Inv) {es : List Event} (hs : run (step cfg) s es = some s')
    {d d' : DeliveryId} (hd : (d, k) ∈ s.store.settled) :
    (d', k) ∈ s'.store.taken ↔ (d', k) ∈ s.store.taken := by
  have hstep : ∀ t e t', (t.Inv ∧ (d, k) ∈ t.store.settled ∧
    ((d', k) ∈ t.store.taken ↔ (d', k) ∈ s.store.taken)) →
      step cfg t e = some t' → t'.Inv ∧ (d, k) ∈ t'.store.settled ∧
        ((d', k) ∈ t'.store.taken ↔ (d', k) ∈ s.store.taken) := by
    intro t e t' hi ht
    obtain ⟨ops, hops, -⟩ := store_refines hi.1 ht
    exact ⟨inv_step cfg t e t' hi.1 ht, (Store.before_run hops).settled hi.2.1,
      (hi.1.kept.taken_of_settled_run hops hi.2.1).trans hi.2.2⟩
  exact (run_invariant hstep es hs ⟨h, hd, Iff.rfl⟩).2.2

/-- **Once the broker has the ack, nobody is handed the message again**, whatever becomes of the
handler, its process, the connections and the broker. -/
theorem settled_final (h : Reachable (step cfg) init s) {d : DeliveryId}
    (hd : (d, k) ∈ s.store.settled) {es : List Event} (hs : run (step cfg) s es = some s') :
    (d, k) ∈ s'.store.settled ∧ ∀ d', d' ∈ s'.deliveriesOf k ↔ d' ∈ s.deliveriesOf k := by
  have hinv := inv_reachable h
  have hinv' := inv_run hs hinv
  refine ⟨(before_run hinv hs).settled hd, fun d' => ?_⟩
  rw [mem_deliveriesOf hinv', mem_deliveriesOf hinv, ← hinv'.taken d' k, ← hinv.taken d' k]
  exact taken_of_settled_run hinv hs hd

theorem settled_final_oneEvent :
    ∃ s s', run (step Config.default) init (oneEvent.take 10) = some s ∧
    run (step Config.default) s aftermath = some s' ∧ s.deliveriesOf copyOfEvent = [0] ∧
    ((0, copyOfEvent) ∈ s'.store.settled ∧ ∀ d', d' ∈ s'.deliveriesOf copyOfEvent ↔
      d' ∈ s.deliveriesOf copyOfEvent) :=
  ⟨_, _, rfl, rfl, by decide,
    @settled_final Config.default _ _ copyOfEvent ⟨oneEvent.take 10, rfl⟩ 0
      (by decide) aftermath rfl⟩

end State

/-- The ack is on its way, or has not been sent yet. -/
def Task.acking (t : Task) : Bool :=
  match t.life with
  | .running (.await .ack _) => true
  | _ => false

/-- A task that has not called its callback is at its ack at most. -/
def Task.Underway (t : Task) : Prop := t.calls = 0 → t.life = .transit ∨ t.acking = true

theorem AcksFirst.acking {code : Tasks.Code} (h : AcksFirst code) {t : Task}
    (hlife : t.life = .running code) : t.acking = true := by
  cases code with
  | await op next =>
    cases op with
    | ack => rw [Task.acking, hlife]
    | _ => exact h.elim
  | _ => exact h.elim

/-- Past its ack the callback has been called. -/
theorem Task.Underway.called {t : Task} (h : t.Underway) {code : Tasks.Code}
    (hlife : t.life = .running code) (hpast : t.acking = false) : t.calls ≠ 0 := by
  intro hcalls
  rcases h hcalls with htransit | hacking
  · rw [hlife] at htransit
    cases htransit
  · rw [hpast] at hacking
    cases hacking

theorem Task.underway_step {cfg : Config} {connected : Bool} {t t' : Task} {e : TaskEvent}
    (ht : t.Sound) (h : t.Underway) (he : ∀ answer, e = .ackEnds answer → answer = .ok)
    (hs : t.step cfg connected e = some t') : t'.Underway := by
  cases e with
  | receive =>
    simp only [Task.step] at hs
    split at hs
    · obtain ⟨-, hs⟩ := Option.ite_none_right_eq_some.1 hs
      cases hs
      exact fun _ => Or.inr ((acksFirst_consumerCode cfg _ _).acking rfl)
    · cases hs
  | sendAck =>
    simp only [Task.step] at hs
    split at hs
    · rename_i hlife
      obtain ⟨-, hs⟩ := Option.ite_none_right_eq_some.1 hs
      cases hs
      exact fun _ => Or.inr (by simp [Task.acking, hlife])
    · cases hs
  | ackEnds answer =>
    obtain rfl := he answer rfl
    simp only [Task.step] at hs
    split at hs
    · rename_i next hlife
      obtain ⟨-, hs⟩ := Option.ite_none_right_eq_some.1 hs
      cases hs
      intro hcalls
      rw [Task.calls_goto (Task.acksFirst_of_ack ht hlife).1.1] at hcalls
      omega
    · cases hs
  | callbackEnds ended =>
    simp only [Task.step] at hs
    split at hs
    · rename_i next hlife
      cases hs
      rw [Task.goto_of_spent (Task.spent_of_callback ht hlife ended)]
      exact fun hcalls => absurd hcalls (h.called hlife (by simp [Task.acking, hlife]))
    · cases hs
  | goOn answer =>
    simp only [Task.step] at hs
    split at hs
    · rename_i hlife
      cases hs
      rw [Task.goto_of_spent (Task.spent_of_publish ht hlife answer)]
      exact fun hcalls => absurd hcalls (h.called hlife (by simp [Task.acking, hlife]))
    · rename_i hlife
      cases hs
      rw [Task.goto_of_spent (Task.spent_of_set ht hlife)]
      exact fun hcalls => absurd hcalls (h.called hlife (by simp [Task.acking, hlife]))
    · rename_i hlife
      cases hs
      exact fun hcalls => absurd hcalls (h.called hlife (by simp [Task.acking, hlife]))
    · cases hs

namespace State

variable {cfg : Config} {s s' : State} {k : Copy}

/-! ## When nothing breaks -/

theorem underway_step (h : s.Inv) (hu : ∀ d t, s.tasks d = some t → t.Underway) {e : Event}
    (he : e.disturbs = false) (hs : step cfg s e = some s') :
    ∀ d t, s'.tasks d = some t → t.Underway := by
  cases e with
  | openConnection t => exact (untouched_openConnection hs).tasks ▸ hu
  | register t kind name q => exact (untouched_register hs).tasks ▸ hu
  | restore t r q => exact (untouched_restore hs).tasks ▸ hu
  | unregister t kind name =>
    cases hs
    exact hu
  | publish p t kind name body =>
    obtain ⟨-, rfl⟩ := publish_eq_some hs
    exact hu
  | accept p =>
    obtain ⟨u, -, -, rfl⟩ := accept_eq_some hs
    exact hu
  | publishEnds p o =>
    obtain ⟨_, -, -, rfl⟩ := publishEnds_eq_some hs
    exact hu
  | deliver i j =>
    obtain ⟨k, c, store, -, -, -, -, rfl⟩ := deliver_eq_some hs
    intro d t ht
    rcases of_setTask ht with ⟨-, rfl⟩ | ⟨-, ht⟩
    · exact fun _ => Or.inl rfl
    · exact hu d t ht
  | settle d =>
    obtain ⟨_, -, -, rfl⟩ := settle_eq_some hs
    exact hu
  | task d e =>
    obtain ⟨t, t', _, ht, ht', rfl⟩ := task_eq_some hs
    intro d' t₁ ht₁
    rcases of_setTask ht₁ with ⟨-, rfl⟩ | ⟨-, ht₁⟩
    · refine Task.underway_step (h.sound _ t ht) (hu _ t ht) (fun answer hanswer => ?_) ht'
      subst hanswer
      simpa [Event.disturbs] using he
    · exact hu d' t₁ ht₁
  | brokerCloses c => simp [Event.disturbs] at he
  | clientCloses t => simp [Event.disturbs] at he
  | disconnect t => simp [Event.disturbs] at he
  | crash t => simp [Event.disturbs] at he
  | restart => simp [Event.disturbs] at he

theorem underway_run {es : List Event} (hs : run (step cfg) init es = some s)
    (hes : ∀ e ∈ es, e.disturbs = false) :
    ∀ d t, s.tasks d = some t → t.Underway := by
  induction es using List.reverseRecOn generalizing s with
  | nil =>
    cases hs
    intro d t ht
    cases ht
  | append_singleton es e ih =>
    obtain ⟨m, hm, he⟩ := run_append_eq_some.1 hs
    rw [run_singleton] at he
    exact underway_step (inv_run hm inv_init)
      (ih hm fun e' he' => hes e' (List.mem_append_left _ he')) (hes e (by simp)) he

theorem losesConnection_of_disturbs {e : Event} (h : e.disturbs = false) :
    e.losesConnection = false := by
  cases e <;> first | rfl | exact h

theorem returns_eq_zero {es : List Event} (hs : run (step cfg) init es = some s)
    (hes : ∀ e ∈ es, e.disturbs = false) (k : Copy) :
    s.returns k = 0 := by
  have hnone : es.countP Event.losesConnection = 0 :=
    List.countP_eq_zero.2 fun e he => by simp [losesConnection_of_disturbs (hes e he)]
  have hle := returns_run hs k
  omega

/-- Whoever had its ack accepted has called its callback, or is about to. -/
theorem calls_of_settled (h : s.Inv) (hu : ∀ d t, s.tasks d = some t → t.Underway) {d : DeliveryId}
    (hd : (d, k) ∈ s.store.settled) {t : Task} (ht : s.tasks d = some t)
    (hacking : t.acking = false) : t.calls = 1 := by
  have hsound := h.sound d t ht
  have hsent := h.acked d k hd t ht
  by_contra hcalls
  have honce := hsound.once
  rcases hu d t ht (by omega) with htransit | hat
  · rw [hsound.unsent htransit] at hsent
    cases hsent
  · rw [hacking] at hat
    cases hat

/-- Nothing is ready or held, and no task is still at its ack. -/
structure Quiet (s : State) : Prop where
  ready : s.store.ready = []
  held : s.store.held = []
  acks : ∀ d < s.delivered, (s.tasks d).all fun t => !t.acking

/-- As long as nothing breaks, only what is on an exclusive queue is dropped. -/
theorem gone_step {e : Event} (he : e.disturbs = false) (hs : step cfg s e = some s')
    (h : ∀ k ∈ s.store.gone, k.durable = false) : ∀ k ∈ s'.store.gone, k.durable = false := by
  cases e with
  | openConnection t => exact (untouched_openConnection hs).store ▸ h
  | register t kind name q => exact (untouched_register hs).store ▸ h
  | restore t r q => exact (untouched_restore hs).store ▸ h
  | unregister t kind name =>
    cases hs
    intro k hk
    rcases List.mem_append.1 hk with hk | hk
    · have hdoomed := (List.mem_filter.1 hk).2
      simp only [Bool.and_eq_true, Bool.not_eq_true'] at hdoomed
      exact hdoomed.1
    · exact h k hk
  | publish p t kind name body =>
    obtain ⟨-, rfl⟩ := publish_eq_some hs
    exact h
  | accept p =>
    obtain ⟨_, -, -, rfl⟩ := accept_eq_some hs
    exact h
  | publishEnds p o =>
    obtain ⟨_, -, -, rfl⟩ := publishEnds_eq_some hs
    exact h
  | deliver i j =>
    obtain ⟨_, _, _, -, -, -, hstore, rfl⟩ := deliver_eq_some hs
    obtain ⟨_, -, -, rfl⟩ := Store.take_eq_some hstore
    exact h
  | settle d =>
    obtain ⟨_, -, -, rfl⟩ := settle_eq_some hs
    exact h
  | task d e =>
    obtain ⟨_, _, _, -, -, rfl⟩ := task_eq_some hs
    exact h
  | brokerCloses c => simp [Event.disturbs] at he
  | clientCloses t => simp [Event.disturbs] at he
  | disconnect t => simp [Event.disturbs] at he
  | crash t => simp [Event.disturbs] at he
  | restart => simp [Event.disturbs] at he

theorem gone_run {es : List Event} (hs : run (step cfg) init es = some s)
    (hes : ∀ e ∈ es, e.disturbs = false) : ∀ k ∈ s.store.gone, k.durable = false := by
  induction es using List.reverseRecOn generalizing s with
  | nil =>
    cases hs
    exact fun k hk => absurd hk List.not_mem_nil
  | append_singleton es e ih =>
    obtain ⟨m, hm, he⟩ := run_append_eq_some.1 hs
    rw [run_singleton] at he
    have hgone := ih hm fun e' he' => hes e' (List.mem_append_left _ he')
    exact gone_step (hes e (by simp)) he hgone

/-- **As long as nothing breaks, a callback is called once for each message.** At no time more often;
and when everything is handed out and acked, exactly once for each copy that was not dropped with an
exclusive queue. -/
theorem exactly_once {es : List Event} (hs : run (step cfg) init es = some s)
    (hes : ∀ e ∈ es, e.disturbs = false) (k : Copy) :
    s.callsOf k ≤ 1 ∧ (s.Quiet → k ∈ s.store.stored → s.callsOf k = 1 ∨ k ∈ s.store.gone ∧
      k.durable = false) := by
  have hinv : s.Inv := inv_run hs inv_init
  have hu := underway_run hs hes
  have hle : s.callsOf k ≤ 1 := by
    have honce := (callsOf_le_length hinv k).trans (length_deliveriesOf_le hinv k)
    rwa [returns_eq_zero hs hes k] at honce
  refine ⟨hle, fun hquiet hk => ?_⟩
  cases hinv.kept.place hk with
  | ready hready _ _ _ => simp [hquiet.ready] at hready
  | held _ hheld _ _ => simp [hquiet.held] at hheld
  | settled _ _ hsettled _ =>
    left
    obtain ⟨⟨d, k'⟩, hd, hk'⟩ := List.mem_map.1 hsettled
    obtain rfl : k' = k := hk'
    obtain ⟨t, ht, hcopy⟩ := (hinv.taken d k').1
      (Store.mem_taken.2 (Or.inl (List.mem_append_right _ hd)))
    have hacking : t.acking = false := by simpa [ht] using hquiet.acks d (hinv.delivered d t ht)
    have hcalls := calls_of_settled hinv hu hd ht hacking
    have hmem := (mem_deliveriesOf hinv).2 ⟨t, ht, hcopy⟩
    have hpos : s.calls d ≤ s.callsOf k' := calls_le_foldr s hmem
    rw [calls, ht, Option.elim_some, hcalls] at hpos
    omega
  | gone _ _ _ hgone => exact Or.inr ⟨hgone, gone_run hs hes k hgone⟩

theorem exactly_once_oneEvent :
    ∃ s, run (step Config.default) init oneEvent = some s ∧ s.callsOf copyOfEvent = 1 := by
  have honce := (@exactly_once Config.default _ oneEvent rfl (by decide) copyOfEvent).2
    ⟨rfl, rfl, by decide⟩ (by decide)
  exact ⟨_, rfl, honce.resolve_right (by decide)⟩

end State

end Atasks.Amqp.Delivery
