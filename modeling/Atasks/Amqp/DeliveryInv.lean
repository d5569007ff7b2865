import Atasks.Amqp.Delivery
/-!
# What every step of a delivery keeps

The invariant of `Delivery`. Its part about the broker is that of the store (`Custody.Store.Kept`);
its part about a task is where the code of a consumer stands: it acks first (`AcksFirst`), calls the
callback once (`Calls`) and then neither again (`Spent`).

* `Task.evolves_step`: a step of a task keeps what is known of it, and sees to the one call;
* `State.inv_step`, `State.inv_reachable`: every event keeps the invariant.
-/

namespace Atasks.Amqp.Delivery

open Machine
open Custody (Store)

/-! ## The code of a consumer -/

/-- Code that neither acks nor calls the callback. -/
def Spent : Tasks.Code → Prop
  | .done => True
  | .acquire next => Spent next
  | .release next => Spent next
  | .get next => ∀ a, Spent (next a)
  | .set _ next => Spent next
  | .await op next => op ≠ .ack ∧ ∀ answer, Spent (next answer)
  | .reply _ _ next => Spent next
  | .callback _ => False

/-- Code that calls the callback, once. -/
def Calls : Tasks.Code → Prop
  | .callback next => ∀ ended, Spent (next ended)
  | _ => False

/-- Code that acks first, then calls the callback, and does not without its ack. -/
def AcksFirst : Tasks.Code → Prop
  | .await .ack next => Calls (next .ok) ∧ ∀ answer, answer ≠ .ok → next answer = .done
  | _ => False

theorem acksFirst_onMessage (cfg : Config) (cid : CorrelationId) :
    AcksFirst (Tasks.onMessage cfg cid) := by
  refine ⟨fun ended => ?_, fun answer h => ?_⟩
  · cases ended with
    | returned =>
      refine ⟨by simp, fun answer => ?_⟩
      cases answer <;> trivial
    | raised => trivial
    | cancelled => trivial
  · cases answer <;> first | rfl | exact absurd rfl h

theorem acksFirst_onEventMessage : AcksFirst Tasks.onEventMessage := by
  refine ⟨fun _ => trivial, fun answer h => ?_⟩
  cases answer <;> first | rfl | exact absurd rfl h

theorem acksFirst_consumerCode (cfg : Config) (kind : Kind) (publication : Nat) :
    AcksFirst (cfg.consumerCode kind publication) := by
  cases kind with
  | rpc => exact acksFirst_onMessage cfg publication
  | queue => exact acksFirst_onEventMessage
  | broadcast => exact acksFirst_onEventMessage

/-! ## One task -/

/-- How often a task has called the callback, by where it is. -/
def Life.Fits (calls : Nat) : Life → Prop
  | .transit => calls = 0
  | .running code => AcksFirst code ∧ calls = 0 ∨ Calls code ∧ calls = 1 ∨ Spent code
  | .over => True

structure Task.Sound (t : Task) : Prop where
  queue : t.consumer.registration.queue = t.copy.queue
  once : t.calls ≤ 1
  acked : t.calls = 1 → t.ackSent = true
  unsent : t.life = .transit → t.ackSent = false
  fits : t.life.Fits t.calls

/-- What a step makes of a task. -/
structure Task.Evolves (t t' : Task) : Prop where
  consumer : t'.consumer = t.consumer
  copy : t'.copy = t.copy
  ackSent : t.ackSent = true → t'.ackSent = true
  sound : t.Sound → t'.Sound

theorem Task.evolves_over (t : Task) : t.Evolves { t with life := .over } :=
  ⟨rfl, rfl, id, fun h => ⟨h.queue, h.once, h.acked, nofun, trivial⟩⟩

theorem Task.evolves_running {t : Task} (hlife : t.life = .transit) {code : Tasks.Code}
    (hcode : AcksFirst code) :
    t.Evolves { t with life := .running code } := by
  refine ⟨rfl, rfl, id, fun h => ⟨h.queue, h.once, h.acked, nofun, Or.inl ⟨hcode, ?_⟩⟩⟩
  have hfits := h.fits
  rw [hlife] at hfits
  exact hfits

theorem Task.evolves_acked {t : Task} (hlife : t.life ≠ .transit) :
    t.Evolves { t with ackSent := true } :=
  ⟨rfl, rfl, fun _ => rfl, fun h => ⟨h.queue, h.once, fun _ => rfl, fun htransit =>
    absurd htransit hlife, h.fits⟩⟩

theorem Task.goto_of_spent {t : Task} {code : Tasks.Code} (h : Spent code) :
    t.goto code = { t with life := .running code } := by
  cases code <;> first | rfl | exact h.elim

theorem Task.evolves_goto {t : Task} {code : Tasks.Code} (h : t.Sound → Spent code) :
    t.Evolves (t.goto code) := by
  refine ⟨rfl, rfl, id, fun ht => ?_⟩
  rw [Task.goto_of_spent (h ht)]
  exact ⟨ht.queue, ht.once, ht.acked, nofun, Or.inr (Or.inr (h ht))⟩

theorem Task.acksFirst_of_ack {t : Task} (h : t.Sound) {next : Tasks.Answer → Tasks.Code}
    (hlife : t.life = .running (.await .ack next)) :
    AcksFirst (.await .ack next) ∧ t.calls = 0 := by
  have hfits := h.fits
  rw [hlife] at hfits
  rcases hfits with hfirst | hcall | hspent
  · exact hfirst
  · exact hcall.1.elim
  · exact absurd rfl hspent.1

theorem Task.calls_goto {t : Task} {code : Tasks.Code} (h : Calls code) :
    (t.goto code).calls = t.calls + 1 := by
  cases code <;> first | rfl | exact h.elim

/-- The one step that calls the callback. -/
theorem Task.evolves_ackEnds {t : Task} {next : Tasks.Answer → Tasks.Code}
    (hlife : t.life = .running (.await .ack next)) {answer : Tasks.Answer}
    (hsent : answer = .ok → t.ackSent = true) : t.Evolves (t.goto (next answer)) := by
  refine ⟨rfl, rfl, id, fun h => ?_⟩
  obtain ⟨⟨hcalls, hdone⟩, hzero⟩ := Task.acksFirst_of_ack h hlife
  by_cases hok : answer = .ok
  · subst hok
    have hone : (t.goto (next .ok)).calls = 1 := by rw [Task.calls_goto hcalls, hzero]
    exact ⟨h.queue, hone.le, fun _ => hsent rfl, nofun, Or.inr (Or.inl ⟨hcalls, hone⟩)⟩
  · rw [hdone answer hok]
    exact ⟨h.queue, h.once, h.acked, nofun, Or.inr (Or.inr trivial)⟩

theorem Task.spent_of_callback {t : Task} (h : t.Sound) {next : Tasks.Ended → Tasks.Code}
    (hlife : t.life = .running (.callback next)) (ended : Tasks.Ended) : Spent (next ended) := by
  have hfits := h.fits
  rw [hlife] at hfits
  rcases hfits with hfirst | hcall | hspent
  · exact hfirst.1.elim
  · exact hcall.1 ended
  · exact hspent.elim

theorem Task.spent_of_publish {t : Task} (h : t.Sound) {exchange : String} {message : Tasks.Message}
    {next : Tasks.Answer → Tasks.Code}
    (hlife : t.life = .running (.await (.publish exchange message) next)) (answer : Tasks.Answer) :
    Spent (next answer) := by
  have hfits := h.fits
  rw [hlife] at hfits
  rcases hfits with hfirst | hcall | hspent
  · exact hfirst.1.elim
  · exact hcall.1.elim
  · exact hspent.2 answer

theorem Task.spent_of_set {t : Task} (h : t.Sound) {f : Tasks.Attrs → Tasks.Attrs}
    {next : Tasks.Code} (hlife : t.life = .running (.set f next)) : Spent next := by
  have hfits := h.fits
  rw [hlife] at hfits
  rcases hfits with hfirst | hcall | hspent
  · exact hfirst.1.elim
  · exact hcall.1.elim
  · exact hspent

theorem Task.evolves_step {cfg : Config} {connected : Bool} {t t' : Task} {e : TaskEvent}
    (h : t.step cfg connected e = some t') :
    t.Evolves t' := by
  cases e with
  | receive =>
    simp only [Task.step] at h
    split at h
    · rename_i hlife
      obtain ⟨-, h⟩ := Option.ite_none_right_eq_some.1 h
      cases h
      exact t.evolves_running hlife (acksFirst_consumerCode cfg _ _)
    · cases h
  | sendAck =>
    simp only [Task.step] at h
    split at h
    · rename_i hlife
      obtain ⟨-, h⟩ := Option.ite_none_right_eq_some.1 h
      cases h
      exact Task.evolves_acked (by rw [hlife]; nofun)
    · cases h
  | ackEnds answer =>
    simp only [Task.step] at h
    split at h
    · rename_i hlife
      obtain ⟨hsent, h⟩ := Option.ite_none_right_eq_some.1 h
      cases h
      exact Task.evolves_ackEnds hlife hsent
    · cases h
  | callbackEnds ended =>
    simp only [Task.step] at h
    split at h
    · rename_i hlife
      cases h
      exact Task.evolves_goto fun hsound => Task.spent_of_callback hsound hlife ended
    · cases h
  | goOn answer =>
    simp only [Task.step] at h
    split at h
    · rename_i hlife
      cases h
      exact Task.evolves_goto fun hsound => Task.spent_of_publish hsound hlife answer
    · rename_i hlife
      cases h
      exact Task.evolves_goto fun hsound => Task.spent_of_set hsound hlife
    · cases h
      exact t.evolves_over
    · cases h

/-! ## One publish -/

@[simp] theorem Publishing.unread_routed (u : Publishing) (c : ConnId) : (u.unread c).routed =
    u.routed := by
  unfold unread
  split <;> rfl

@[simp] theorem Publishing.unread_ended (u : Publishing) (c : ConnId) : (u.unread c).ended =
    u.ended := by
  unfold unread
  split <;> rfl

@[simp] theorem Publishing.unread_sent (u : Publishing) (c : ConnId) :
    (u.unread c).sent = u.sent := by
  unfold unread
  split <;> rfl

theorem Publishing.onWire_of_unread (u : Publishing) {c : ConnId} (h : (u.unread c).onWire = true) :
    u.onWire = true := by
  unfold unread at h
  split at h
  · cases h
  · exact h

theorem Publishing.mayEnd_congr {u u' : Publishing} (h : u.routed = u'.routed) (o : PublishEnd) :
    u.mayEnd o = u'.mayEnd o := by
  cases o with
  | ok => simp [mayEnd, h]
  | raised e => cases e <;> simp [mayEnd, h]

/-! ## What every step keeps -/

namespace State

structure Inv (s : State) : Prop where
  kept : s.store.Kept
  lasting : ∀ k ∈ s.store.gone, ¬ (k.durable = true ∧ k.persistent = true)
  sound : ∀ d t, s.tasks d = some t → t.Sound
  delivered : ∀ d t, s.tasks d = some t → d < s.delivered
  taken : ∀ d k, (d, k) ∈ s.store.taken ↔ ∃ t, s.tasks d = some t ∧ t.copy = k
  acked : ∀ d k, (d, k) ∈ s.store.settled → ∀ t, s.tasks d = some t → t.ackSent = true
  wire : ∀ p u, s.publishings p = some u → u.onWire = true → u.routed = none
  ended : ∀ p u, s.publishings p = some u → ∀ o, u.ended = some o → u.mayEnd o = true
  /-- The copies of a publication are on the queues it was routed to, one on each. -/
  copies : ∀ p, (s.store.stored.filter fun k => k.publication = p).map Copy.queue =
    ((s.publishings p).bind Publishing.routed).getD []
  sent : ∀ k ∈ s.store.stored, ∃ u, s.publishings k.publication = some u ∧ u.sent = k.sent
  queues : ∀ p u, s.publishings p = some u → (u.routed.getD []).Nodup

theorem inv_init : init.Inv := by
  refine ⟨Store.kept_empty, ?_, ?_, ?_, ?_, ?_, ?_, ?_, ?_, ?_, ?_⟩ <;>
    simp [init, Store.empty, Store.taken]

/-- Who was handed a copy was handed one that is there. -/
theorem Inv.stored {s : State} (h : s.Inv) {d : DeliveryId} {t : Task} (ht : s.tasks d = some t) :
    t.copy ∈ s.store.stored :=
  h.kept.stored_of_taken ((h.taken d t.copy).2 ⟨t, ht, rfl⟩)

/-- Messages and tasks are as they were. -/
structure Untouched (s s' : State) : Prop where
  store : s'.store = s.store
  tasks : s'.tasks = s.tasks
  delivered : s'.delivered = s.delivered
  publishings : s'.publishings = s.publishings

/-- Connections, queues and consumers are not part of it. -/
theorem Inv.untouched {s s' : State} (h : s.Inv) (hs : s.Untouched s') : s'.Inv := by
  obtain ⟨hstore, htasks, hdelivered, hpublishings⟩ := hs
  constructor
  · exact hstore ▸ h.kept
  · exact hstore ▸ h.lasting
  · exact htasks ▸ h.sound
  · exact hdelivered ▸ htasks ▸ h.delivered
  · exact hstore ▸ htasks ▸ h.taken
  · exact hstore ▸ htasks ▸ h.acked
  · exact hpublishings ▸ h.wire
  · exact hpublishings ▸ h.ended
  · exact hstore ▸ hpublishings ▸ h.copies
  · exact hstore ▸ hpublishings ▸ h.sent
  · exact hpublishings ▸ h.queues

/-- Every task is one that there was, and the other way round. -/
theorem Inv.of_evolves {s s' : State} (h : s.Inv) (hstore : s'.store = s.store)
    (hdelivered : s'.delivered = s.delivered) (hpublishings : s'.publishings = s.publishings)
    (hnone : ∀ d, s.tasks d = none → s'.tasks d = none)
    (hsome : ∀ d t, s.tasks d = some t → ∃ t', s'.tasks d = some t' ∧ t.Evolves t') : s'.Inv := by
  have hback : ∀ d t', s'.tasks d = some t' → ∃ t, s.tasks d = some t ∧ t.Evolves t' := by
    intro d t' ht'
    cases ht : s.tasks d with
    | none => rw [hnone d ht] at ht'; cases ht'
    | some t =>
      obtain ⟨t₁, ht₁, hev⟩ := hsome d t ht
      rw [ht₁] at ht'
      cases ht'
      exact ⟨t, rfl, hev⟩
  constructor
  · exact hstore ▸ h.kept
  · exact hstore ▸ h.lasting
  · intro d t' ht'
    obtain ⟨t, ht, hev⟩ := hback d t' ht'
    exact hev.sound (h.sound d t ht)
  · intro d t' ht'
    obtain ⟨t, ht, -⟩ := hback d t' ht'
    exact hdelivered ▸ h.delivered d t ht
  · intro d k
    rw [hstore, h.taken d k]
    constructor
    · rintro ⟨t, ht, rfl⟩
      obtain ⟨t', ht', hev⟩ := hsome d t ht
      exact ⟨t', ht', hev.copy⟩
    · rintro ⟨t', ht', rfl⟩
      obtain ⟨t, ht, hev⟩ := hback d t' ht'
      exact ⟨t, ht, hev.copy.symm⟩
  · intro d k hk t' ht'
    obtain ⟨t, ht, hev⟩ := hback d t' ht'
    exact hev.ackSent (h.acked d k (hstore ▸ hk) t ht)
  · exact hpublishings ▸ h.wire
  · exact hpublishings ▸ h.ended
  · exact hstore ▸ hpublishings ▸ h.copies
  · exact hstore ▸ hpublishings ▸ h.sent
  · exact hpublishings ▸ h.queues

theorem Inv.setTask {s : State} (h : s.Inv) {d : DeliveryId} {t t' : Task} (ht : s.tasks d = some t)
    (hev : t.Evolves t') :
    (s.setTask d t').Inv := by
  refine h.of_evolves rfl rfl rfl (fun d' hd' => ?_) (fun d' t₁ ht₁ => ?_)
  · have hne : d' ≠ d := by
      rintro rfl
      rw [ht] at hd'
      cases hd'
    simpa [State.setTask, hne] using hd'
  · by_cases hd : d' = d
    · subst hd
      rw [ht] at ht₁
      cases ht₁
      exact ⟨t', by simp [State.setTask], hev⟩
    · exact ⟨t₁, by simpa [State.setTask, hd] using ht₁, ⟨rfl, rfl, id, id⟩⟩

theorem Inv.stop {s : State} (h : s.Inv) (stopped : Task → Bool) : (s.stop stopped).Inv := by
  refine h.of_evolves rfl rfl rfl (fun d hd => ?_) (fun d t ht => ?_)
  · simp [State.stop, hd]
  · by_cases hstopped : stopped t
    · exact ⟨{ t with life := .over }, by simp [State.stop, ht, hstopped], t.evolves_over⟩
    · exact ⟨t, by simp [State.stop, ht, hstopped], ⟨rfl, rfl, id, id⟩⟩

theorem of_setPublishing {s : State} {p p' : Nat} {u u' : Publishing}
    (h : (s.setPublishing p u).publishings p' = some u') :
    p' = p ∧ u' = u ∨ p' ≠ p ∧ s.publishings p' = some u' := by
  by_cases hp : p' = p
  · subst hp
    simp only [State.setPublishing, Function.update_self, Option.some.injEq] at h
    exact Or.inl ⟨rfl, h.symm⟩
  · simp only [State.setPublishing, Function.update_of_ne hp] at h
    exact Or.inr ⟨hp, h⟩

theorem of_setTask {s : State} {d d' : DeliveryId} {t t' : Task}
    (h : (s.setTask d t).tasks d' = some t') :
    d' = d ∧ t' = t ∨ d' ≠ d ∧ s.tasks d' = some t' := by
  by_cases hd : d' = d
  · subst hd
    simp only [State.setTask, Function.update_self, Option.some.injEq] at h
    exact Or.inl ⟨rfl, h.symm⟩
  · simp only [State.setTask, Function.update_of_ne hd] at h
    exact Or.inr ⟨hd, h⟩

theorem Inv.setPublishing {s : State} (h : s.Inv) {p : Nat} {u : Publishing}
    (hwire : u.onWire = true → u.routed = none) (hended : ∀ o, u.ended = some o → u.mayEnd o = true)
    (hrouted : ((s.publishings p).bind Publishing.routed).getD [] = u.routed.getD [])
    (hsent : ∀ u', s.publishings p = some u' → u.sent = u'.sent) : (s.setPublishing p u).Inv := by
  constructor
  · exact h.kept
  · exact h.lasting
  · exact h.sound
  · exact h.delivered
  · exact h.taken
  · exact h.acked
  · intro p' u' hu'
    rcases of_setPublishing hu' with ⟨-, rfl⟩ | ⟨-, hu'⟩
    · exact hwire
    · exact h.wire p' u' hu'
  · intro p' u' hu'
    rcases of_setPublishing hu' with ⟨-, rfl⟩ | ⟨-, hu'⟩
    · exact hended
    · exact h.ended p' u' hu'
  · intro p'
    by_cases hp : p' = p
    · subst hp
      simp only [State.setPublishing, Function.update_self, Option.bind_some]
      exact (h.copies p').trans hrouted
    · simp only [State.setPublishing, Function.update_of_ne hp]
      exact h.copies p'
  · intro k hk
    obtain ⟨u', hu', hsame⟩ := h.sent k hk
    by_cases hp : k.publication = p
    · exact ⟨u, by simp [State.setPublishing, hp], (hsent u' (hp ▸ hu')).trans hsame⟩
    · exact ⟨u', by simpa [State.setPublishing, hp] using hu', hsame⟩
  · intro p' u' hu'
    rcases of_setPublishing hu' with ⟨rfl, rfl⟩ | ⟨-, hu'⟩
    · rw [← hrouted]
      cases hold : s.publishings p' with
      | none => exact List.nodup_nil
      | some u' => exact h.queues p' u' hold
    · exact h.queues p' u' hu'

/-- A change in the custody of messages that have been stored before. -/
theorem Inv.setStore {s : State} (h : s.Inv) {store : Store Copy DeliveryId} (hkept : store.Kept)
    (hstored : store.stored = s.store.stored)
    (hgone : ∀ k ∈ store.gone, k ∈ s.store.gone ∨ ¬ (k.durable = true ∧ k.persistent = true))
    (htaken : ∀ x, x ∈ store.taken ↔ x ∈ s.store.taken)
    (hsettled : ∀ d k, (d, k) ∈ store.settled → (d, k) ∈ s.store.settled ∨ ∀ t, s.tasks d = some t →
      t.ackSent = true) :
    ({ s with store } : State).Inv := by
  constructor
  · exact hkept
  · intro k hk
    exact (hgone k hk).elim (h.lasting k) id
  · exact h.sound
  · exact h.delivered
  · intro d k
    exact (htaken (d, k)).trans (h.taken d k)
  · intro d k hk
    exact (hsettled d k hk).elim (h.acked d k) id
  · exact h.wire
  · exact h.ended
  · exact hstored ▸ h.copies
  · exact hstored ▸ h.sent
  · exact h.queues

theorem untouched_openConnection {s s' : State} {t : NodeId} (hs : s.openConnection t = some s') :
    s.Untouched s' := by
  unfold openConnection at hs
  split at hs
  · cases hs
  · cases hs
    exact ⟨rfl, rfl, rfl, rfl⟩

theorem untouched_consume {cfg : Config} {s s' : State} {t : NodeId} {kind : Kind} {name q : String}
    {tag : Tag} (hs : s.consume cfg t kind name q tag = some s') : s.Untouched s' := by
  unfold consume at hs
  split at hs
  · cases hs
  · obtain ⟨-, hs⟩ := Option.ite_none_right_eq_some.1 hs
    split at hs
    · obtain ⟨-, hs⟩ := Option.ite_none_right_eq_some.1 hs
      cases hs
      exact ⟨rfl, rfl, rfl, rfl⟩
    · obtain ⟨-, hs⟩ := Option.ite_none_right_eq_some.1 hs
      cases hs
      exact ⟨rfl, rfl, rfl, rfl⟩

theorem untouched_register {cfg : Config} {s s' : State} {t : NodeId} {kind : Kind}
    {name q : String} (hs : s.register cfg t kind name q = some s') : s.Untouched s' := by
  obtain ⟨s₁, hs₁, rfl⟩ := Option.map_eq_some_iff.1 hs
  obtain ⟨hstore, htasks, hdelivered, hpublishings⟩ := untouched_consume hs₁
  exact ⟨hstore, htasks, hdelivered, hpublishings⟩

theorem untouched_restore {cfg : Config} {s s' : State} {t : NodeId} {r : Robust} {q : String}
    (hs : s.restore cfg t r q = some s') : s.Untouched s' :=
  untouched_consume (Option.ite_none_right_eq_some.1 hs).2

theorem Inv.deleteQueues {s : State} (h : s.Inv) (queues : List String) :
    (s.deleteQueues queues).Inv := by
  have hkept := h.kept.discard fun k =>
    !k.durable && k.queue ∉ (s.exclusive.filter fun x => x.1 ∉ queues).map Prod.fst
  refine Inv.untouched (h.setStore hkept rfl (fun k hk => ?_) (fun x => Iff.rfl)
    fun d k hk => Or.inl hk) ⟨rfl, rfl, rfl, rfl⟩
  simp only [Store.discard, List.mem_append, List.mem_filter, Bool.and_eq_true, Bool.not_eq_true']
    at hk
  rcases hk with ⟨-, hdurable, -⟩ | hk
  · exact Or.inr fun hboth => by simp [hdurable] at hboth
  · exact Or.inl hk

theorem inv_unregister {s : State} (h : s.Inv) (t : NodeId) (kind : Kind) (name : String) :
    (s.unregister t kind name).Inv := by
  refine Inv.deleteQueues ?_ _
  exact h.untouched ⟨rfl, rfl, rfl, rfl⟩

theorem publish_eq_some {cfg : Config} {s s' : State} {p : Nat} {t : NodeId} {kind : Kind}
    {name : String} {body : Bytes} (hs : s.publish cfg p t kind name body = some s') :
    s.publishings p = none ∧ s' = s.setPublishing p
      ⟨t, s.conns t, cfg.sent t kind name body, (s.conns t).isSome, none, none⟩ := by
  unfold publish at hs
  split at hs
  · cases hs
  · rename_i hnone
    cases hs
    exact ⟨hnone, rfl⟩

theorem inv_publish {cfg : Config} {s s' : State} {p : Nat} {t : NodeId} {kind : Kind}
    {name : String} {body : Bytes} (h : s.Inv) (hs : s.publish cfg p t kind name body = some s') :
    s'.Inv := by
  obtain ⟨hnone, rfl⟩ := publish_eq_some hs
  refine h.setPublishing (fun _ => rfl) (fun o ho => ?_) ?_ fun u hu => ?_
  · cases ho
  · simp [hnone]
  · rw [hnone] at hu
    cases hu

theorem publishEnds_eq_some {s s' : State} {p : Nat} {o : PublishEnd}
    (hs : s.publishEnds p o = some s') :
    ∃ u, s.publishings p = some u ∧ u.mayEnd o = true ∧
    s' = s.setPublishing p { u with ended := some o } := by
  unfold publishEnds at hs
  split at hs
  · cases hs
  · rename_i u hu
    obtain ⟨⟨-, hmay⟩, hs⟩ := Option.ite_none_right_eq_some.1 hs
    cases hs
    exact ⟨u, hu, hmay, rfl⟩

theorem inv_publishEnds {s s' : State} {p : Nat} {o : PublishEnd} (h : s.Inv)
    (hs : s.publishEnds p o = some s') : s'.Inv := by
  obtain ⟨u, hu, hmay, rfl⟩ := publishEnds_eq_some hs
  refine h.setPublishing (h.wire p u hu) (fun o' ho' => ?_) ?_ fun u' hu' => ?_
  · cases ho'
    exact (Publishing.mayEnd_congr rfl o).trans hmay
  · simp [hu]
  · rw [hu] at hu'
    cases hu'
    rfl

theorem accept_eq_some {s s' : State} {p : Nat} (hs : s.accept p = some s') :
    ∃ u, s.publishings p = some u ∧ u.onWire = true ∧
      s' = { s.setPublishing p { u with onWire := false, routed := some (s.routed u.sent) } with
        store := s.store.store (s.copiesOf p u.sent) } := by
  unfold accept at hs
  split at hs
  · cases hs
  · rename_i u hu
    obtain ⟨⟨hwire, -⟩, hs⟩ := Option.ite_none_right_eq_some.1 hs
    cases hs
    exact ⟨u, hu, hwire, rfl⟩

theorem map_queue_copiesOf (s : State) (p : Nat) (m : Sent) :
    (s.copiesOf p m).map Copy.queue = s.routed m := by
  simp [copiesOf, Function.comp_def]

theorem of_mem_copiesOf {s : State} {p : Nat} {m : Sent} {k : Copy} (hk : k ∈ s.copiesOf p m) :
    k.publication = p ∧ k.sent = m := by
  obtain ⟨q, -, rfl⟩ := List.mem_map.1 hk
  exact ⟨rfl, rfl⟩

theorem filter_copiesOf (s : State) (p p' : Nat) (m : Sent) :
    (s.copiesOf p m).filter (fun k => k.publication = p') = if p' = p then s.copiesOf p m
    else [] := by
  split
  · rename_i hp
    refine List.filter_eq_self.2 fun k hk => ?_
    simp [(of_mem_copiesOf hk).1, hp]
  · rename_i hp
    refine List.filter_eq_nil_iff.2 fun k hk => ?_
    simp only [(of_mem_copiesOf hk).1, decide_eq_true_eq]
    exact fun heq => hp heq.symm

/-- What the broker does not have yet has no copies. -/
theorem Inv.not_stored {s : State} (h : s.Inv) {p : Nat} {u : Publishing}
    (hu : s.publishings p = some u) (hnone : u.routed = none) :
    ∀ k ∈ s.store.stored, k.publication ≠ p := by
  intro k hk hp
  have hmem : k.queue ∈ (s.store.stored.filter fun k => k.publication = p).map Copy.queue :=
    List.mem_map_of_mem (List.mem_filter.2 ⟨hk, by simpa using hp⟩)
  rw [h.copies p, hu] at hmem
  simp [hnone] at hmem

theorem Inv.nodup_accept {s : State} (h : s.Inv) {p : Nat} {u : Publishing}
    (hu : s.publishings p = some u) (hnone : u.routed = none) :
    (s.store.stored ++ s.copiesOf p u.sent).Nodup := by
  refine List.nodup_append.2 ⟨h.kept.once, List.Nodup.of_map Copy.queue ?_,
    fun k hk k' hk' heq => ?_⟩
  · rw [map_queue_copiesOf]
    exact List.nodup_dedup _
  · exact h.not_stored hu hnone k hk (heq ▸ (of_mem_copiesOf hk').1)

theorem inv_accept {s s' : State} {p : Nat} (h : s.Inv) (hs : s.accept p = some s') : s'.Inv := by
  obtain ⟨u, hu, hwire, rfl⟩ := accept_eq_some hs
  have hnone := h.wire p u hu hwire
  constructor
  · exact h.kept.store (h.nodup_accept hu hnone)
  · exact h.lasting
  · exact h.sound
  · exact h.delivered
  · exact h.taken
  · exact h.acked
  · intro p' u' hu'
    rcases of_setPublishing hu' with ⟨-, rfl⟩ | ⟨-, hu'⟩
    · exact fun hfalse => by simp at hfalse
    · exact h.wire p' u' hu'
  · intro p' u' hu' o ho
    rcases of_setPublishing hu' with ⟨rfl, rfl⟩ | ⟨-, hu'⟩
    · -- the publish may have ended without knowing
      have hmay := h.ended p' u hu o ho
      cases o with
      | ok => simp [Publishing.mayEnd, hnone] at hmay
      | raised e => cases e <;> simp_all [Publishing.mayEnd]
    · exact h.ended p' u' hu' o ho
  · intro p'
    simp only [Store.store, List.filter_append, List.map_append, h.copies p', filter_copiesOf,
      State.setPublishing]
    by_cases hp : p' = p
    · subst hp
      simp [hu, hnone, map_queue_copiesOf]
    · simp [hp]
  · intro k hk
    rcases List.mem_append.1 hk with hk | hk
    · obtain ⟨u', hu', hsame⟩ := h.sent k hk
      exact ⟨u', by simpa [State.setPublishing, h.not_stored hu hnone k hk] using hu', hsame⟩
    · obtain ⟨hp, hsent⟩ := of_mem_copiesOf hk
      refine ⟨{ u with onWire := false, routed := some (s.routed u.sent) }, ?_, hsent.symm⟩
      simp [State.setPublishing, hp]
  · intro p' u' hu'
    rcases of_setPublishing hu' with ⟨-, rfl⟩ | ⟨-, hu'⟩
    · exact List.nodup_dedup _
    · exact h.queues p' u' hu'

theorem deliver_eq_some {s s' : State} {i j : Nat} (hs : s.deliver i j = some s') :
    ∃ k c store, s.store.ready[i]? = some k ∧ c ∈ s.consumers ∧ c.registration.queue = k.queue ∧
    s.store.take i s.delivered = some store ∧
      s' = { s.setTask s.delivered ⟨c, k, .transit, false, 0⟩ with
        store, delivered := s.delivered + 1 } := by
  unfold deliver at hs
  split at hs
  · rename_i k c hk hc
    obtain ⟨hqueue, hs⟩ := Option.ite_none_right_eq_some.1 hs
    obtain ⟨store, hstore, rfl⟩ := Option.map_eq_some_iff.1 hs
    exact ⟨k, c, store, hk, List.mem_of_getElem? hc, hqueue, hstore, rfl⟩
  · cases hs

theorem Inv.not_delivered {s : State} (h : s.Inv) : s.tasks s.delivered = none := by
  cases ht : s.tasks s.delivered with
  | none => rfl
  | some t => exact absurd (h.delivered _ t ht) (lt_irrefl _)

theorem inv_deliver {s s' : State} {i j : Nat} (h : s.Inv) (hs : s.deliver i j = some s') :
    s'.Inv := by
  obtain ⟨k, c, store, hk, -, hqueue, hstore, rfl⟩ := deliver_eq_some hs
  have hkept := h.kept.take hstore
  obtain ⟨k', hk', -, rfl⟩ := Store.take_eq_some hstore
  obtain rfl : k = k' := Option.some.inj (hk.symm.trans hk')
  have hnone := h.not_delivered
  constructor
  · exact hkept
  · exact h.lasting
  · intro d t ht
    rcases of_setTask ht with ⟨-, rfl⟩ | ⟨-, ht⟩
    · exact ⟨hqueue, Nat.zero_le 1, fun h => absurd h (by simp), fun _ => rfl, rfl⟩
    · exact h.sound d t ht
  · intro d t ht
    rcases of_setTask ht with ⟨rfl, -⟩ | ⟨-, ht⟩
    · exact Nat.lt_succ_self _
    · exact Nat.lt_succ_of_lt (h.delivered d t ht)
  · intro d k'
    have hmem :
      (d, k') ∈
      ({ s.store with
      ready := s.store.ready.eraseIdx i, held := (s.delivered, k) :: s.store.held } :
      Store _ _).taken ↔
        (d, k') = (s.delivered, k) ∨ (d, k') ∈ s.store.taken := by
      simp [Store.taken]
    rw [hmem, h.taken d k']
    by_cases hd : d = s.delivered
    · subst hd
      simp [State.setTask, hnone, eq_comm]
    · simp [State.setTask, hd]
  · intro d k' hk' t ht
    rcases of_setTask ht with ⟨rfl, -⟩ | ⟨-, ht⟩
    · obtain ⟨t', ht', -⟩ := (h.taken s.delivered k').1
        (Store.mem_taken.2 (Or.inl (List.mem_append_right _ hk')))
      rw [hnone] at ht'
      cases ht'
    · exact h.acked d k' hk' t ht
  · exact h.wire
  · exact h.ended
  · exact h.copies
  · exact h.sent
  · exact h.queues

theorem settle_eq_some {s s' : State} {d : DeliveryId} (hs : s.settle d = some s') :
    ∃ t, s.tasks d = some t ∧ t.ackSent = true ∧
    s' = { s with store := s.store.settle (· == d) } := by
  unfold settle at hs
  split at hs
  · cases hs
  · rename_i t ht
    obtain ⟨⟨hsent, -⟩, hs⟩ := Option.ite_none_right_eq_some.1 hs
    cases hs
    exact ⟨t, ht, hsent, rfl⟩

theorem inv_settle {s s' : State} {d : DeliveryId} (h : s.Inv) (hs : s.settle d = some s') :
    s'.Inv := by
  obtain ⟨t, ht, hsent, rfl⟩ := settle_eq_some hs
  refine h.setStore (h.kept.settle _) rfl (fun k hk => Or.inl hk) (fun x => Store.mem_taken_settle)
    fun d' k hk => ?_
  rcases Store.mem_settled_settle.1 hk with ⟨-, hd⟩ | hk
  · refine Or.inr fun t' ht' => ?_
    obtain rfl : d' = d := by simpa using hd
    rw [ht] at ht'
    cases ht'
    exact hsent
  · exact Or.inl hk

theorem task_eq_some {cfg : Config} {s s' : State} {d : DeliveryId} {e : TaskEvent}
    (hs : s.task cfg d e = some s') :
    ∃ t t' connected, s.tasks d = some t ∧ t.step cfg connected e = some t' ∧
    s' = s.setTask d t' := by
  unfold task at hs
  split at hs
  · cases hs
  · rename_i t ht
    obtain ⟨t', ht', rfl⟩ := Option.map_eq_some_iff.1 hs
    exact ⟨t, t', _, ht, ht', rfl⟩

theorem inv_task {cfg : Config} {s s' : State} {d : DeliveryId} {e : TaskEvent} (h : s.Inv)
    (hs : s.task cfg d e = some s') : s'.Inv := by
  obtain ⟨t, t', _, ht, ht', rfl⟩ := task_eq_some hs
  exact h.setTask ht (Task.evolves_step ht')

theorem Inv.unread {s : State} (h : s.Inv) (c : ConnId) :
    ({ s with publishings := fun p => (s.publishings p).map fun u => u.unread c } : State).Inv := by
  constructor
  · exact h.kept
  · exact h.lasting
  · exact h.sound
  · exact h.delivered
  · exact h.taken
  · exact h.acked
  · intro p u' hu' hwire
    obtain ⟨u, hu, rfl⟩ := Option.map_eq_some_iff.1 hu'
    rw [u.unread_routed c]
    exact h.wire p u hu (u.onWire_of_unread hwire)
  · intro p u' hu' o ho
    obtain ⟨u, hu, rfl⟩ := Option.map_eq_some_iff.1 hu'
    rw [u.unread_ended c] at ho
    rw [Publishing.mayEnd_congr (u.unread_routed c)]
    exact h.ended p u hu o ho
  · intro p
    have hsame : (fun u : Publishing => (u.unread c).routed) = Publishing.routed :=
      funext fun u => u.unread_routed c
    simp only [h.copies p, Option.bind_map, Function.comp_def, hsame]
  · intro k hk
    obtain ⟨u, hu, hsent⟩ := h.sent k hk
    exact ⟨u.unread c, Option.map_eq_some_iff.2 ⟨u, hu, rfl⟩, (u.unread_sent c).trans hsent⟩
  · intro p u' hu'
    obtain ⟨u, hu, rfl⟩ := Option.map_eq_some_iff.1 hu'
    rw [u.unread_routed c]
    exact h.queues p u hu

theorem inv_brokerCloses {s : State} (h : s.Inv) (c : ConnId) : (s.brokerCloses c).Inv := by
  have hkept : (s.store.lose fun d => (s.tasks d).any fun t => t.consumer.conn = c).Kept :=
    h.kept.lose _
  have hlost := (h.unread c).setStore hkept rfl (fun k hk => Or.inl hk)
    (fun x => Store.mem_taken_lose) fun d k hk => Or.inl hk
  refine Inv.deleteQueues ?_ _
  exact hlost.untouched ⟨rfl, rfl, rfl, rfl⟩

theorem inv_clientCloses {s : State} (h : s.Inv) (t : NodeId) : (s.clientCloses t).Inv := by
  refine Inv.stop ?_ _
  exact h.untouched ⟨rfl, rfl, rfl, rfl⟩

theorem inv_disconnect {s : State} (h : s.Inv) (t : NodeId) : (s.disconnect t).Inv :=
  (inv_clientCloses h t).untouched ⟨rfl, rfl, rfl, rfl⟩

theorem inv_crash {s : State} (h : s.Inv) (t : NodeId) : (s.crash t).Inv := by
  have hclosed : ({ s with conns := Function.update s.conns t none } : State).Inv :=
    h.untouched ⟨rfl, rfl, rfl, rfl⟩
  exact (hclosed.stop _).untouched ⟨rfl, rfl, rfl, rfl⟩

theorem inv_restart {s s' : State} (h : s.Inv) (hs : s.restart = some s') : s'.Inv := by
  obtain ⟨-, hs⟩ := Option.ite_none_right_eq_some.1 hs
  cases hs
  refine h.setStore (h.kept.discard _) rfl (fun k hk => ?_) (fun x => Iff.rfl)
    fun d k hk => Or.inl hk
  rcases List.mem_append.1 hk with hk | hk
  · refine Or.inr fun hboth => ?_
    have hdoomed := (List.mem_filter.1 hk).2
    simp [hboth] at hdoomed
  · exact Or.inl hk

theorem inv_step (cfg : Config) (s : State) (e : Event) (s' : State) (h : s.Inv)
    (hs : step cfg s e = some s') : s'.Inv := by
  cases e with
  | openConnection t => exact h.untouched (untouched_openConnection hs)
  | register t kind name q => exact h.untouched (untouched_register hs)
  | restore t r q => exact h.untouched (untouched_restore hs)
  | unregister t kind name =>
    cases hs
    exact inv_unregister h t kind name
  | publish p t kind name body => exact inv_publish h hs
  | accept p => exact inv_accept h hs
  | publishEnds p o => exact inv_publishEnds h hs
  | deliver i j => exact inv_deliver h hs
  | settle d => exact inv_settle h hs
  | task d e => exact inv_task h hs
  | brokerCloses c =>
    cases hs
    exact inv_brokerCloses h c
  | clientCloses t =>
    cases hs
    exact inv_clientCloses h t
  | disconnect t =>
    cases hs
    exact inv_disconnect h t
  | crash t =>
    cases hs
    exact inv_crash h t
  | restart => exact inv_restart h hs

theorem inv_run {cfg : Config} {s s' : State} {es : List Event} (h : run (step cfg) s es = some s')
    (hs : s.Inv) : s'.Inv :=
  run_invariant (inv_step cfg) es h hs

theorem inv_reachable {cfg : Config} {s : State} (h : Reachable (step cfg) init s) : s.Inv :=
  h.invariant (inv_step cfg) inv_init

end State

end Atasks.Amqp.Delivery
