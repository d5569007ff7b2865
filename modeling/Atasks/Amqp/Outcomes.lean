import Atasks.Amqp.Moves
/-!
# How the publish paths end

`send_request`, `publish_event` and `publish_broadcast` each carry a ladder of `except` clauses
around their publish. `Documented` lists what may come out of them, with what it takes;
`publish_paths` shows that nothing else does, whatever the publish raises and whatever else
happens meanwhile, and that the lock is given back on every path.

`Task.cancelling` is there (`State.init true`), so a `CancelledError` of aio-pika's own can be
told from a cancellation. A task cancelled while it still waits for the lock never gets as far
as a ladder and holds nothing; it has no `Call` here.
-/

namespace Atasks.Amqp

open Machine

/-! ## The documented outcomes -/

inductive Call.Documented (c : Call) : Outcome → Prop
  | returned (body : Bytes) : c.Documented (.returned body)
  | noRoute : c.Documented (.raised (.noRoute c.name))
  | requestTimeout (h : c.timeout.isSome = true) : c.Documented (.raised (.requestTimeout c.name))
  | connectionLost (exc : Option Exc) : c.Documented (.raised (.connectionLost c.correlationId exc))
  | cancelled (h : c.cancelling ≠ 0) : c.Documented (.raised .cancelled)

inductive Publisher.Documented (q : Publisher) : Except Error Unit → Prop
  | returned : q.Documented (.ok ())
  | connectionLost (cause : Exc) : q.Documented (.error (.publishFailed q.kind q.name cause))
  | cancelled (h : q.cancelling ≠ 0) : q.Documented (.error .cancelled)

/-- What a call ended with stays documented as the task is cancelled further. -/
theorem Call.Documented.mono {c c' : Call} {o : Outcome} (h : c.Documented o)
    (hn : c'.name = c.name) (ht : c'.timeout = c.timeout) (hi : c'.correlationId = c.correlationId)
    (hc : c.cancelling ≤ c'.cancelling) :
    c'.Documented o := by
  cases h with
  | returned body => exact .returned body
  | noRoute => exact hn ▸ .noRoute
  | requestTimeout h => exact hn ▸ .requestTimeout (ht ▸ h)
  | connectionLost exc => exact hi ▸ .connectionLost exc
  | cancelled h => exact .cancelled (by omega)

/-- What one call must satisfy for its end to be a documented one. -/
structure Call.Accounted (c : Call) : Prop where
  future : ∀ e, c.future = .exception e → ∃ exc, e = .connectionLost c.correlationId exc
  timedOut : ∀ d, c.phase = .waiting true d → c.timeout.isSome = true
  cancelled : ∀ t, c.phase = .waiting t true → c.cancelling ≠ 0
  ended : ∀ o, c.phase = .finished o → c.Documented o
  noRoute : (∃ name, c.phase = .finished (.raised (.noRoute name))) ↔
    c.published = some (.raised .publishError)

theorem Call.accounted_sent (name : String) (content : Option Bytes) (timeout : Option Nat)
    (cid : CorrelationId) :
    (Call.sent name content timeout cid).Accounted := by
  constructor <;> simp [Call.sent]

/-- Completing the future with anything but a foreign exception. -/
theorem Call.Accounted.complete {c : Call} (h : c.Accounted) {f : Future}
    (hf : ∀ e, f = .exception e → ∃ exc, e = .connectionLost c.correlationId exc) :
    (c.complete f).Accounted := by
  refine ⟨hf, h.timedOut, h.cancelled, fun o ho => ?_, h.noRoute⟩
  exact (h.ended o ho).mono rfl rfl rfl (Nat.le_refl _)

theorem Call.Accounted.fail {c : Call} (h : c.Accounted) (exc : Option Exc) :
    (c.fail c.correlationId exc).Accounted := by
  unfold Call.fail
  split
  · exact h.complete (by simp)
  · exact h

theorem Call.Accounted.cancelFuture {c : Call} (h : c.Accounted) : c.cancelFuture.Accounted := by
  unfold Call.cancelFuture
  split
  · exact h.complete (by simp)
  · exact h

theorem Call.Accounted.cleared {c : Call} (h : c.Accounted) (T : Dict CorrelationId CallId)
    (exc : Option Exc) (k : CallId) :
    (c.cleared T exc k).Accounted := by
  unfold Call.cleared
  split
  · exact h.fail exc
  · exact h

/-- From its publish a call goes on to wait, whatever but `PublishError` it met. -/
theorem Call.Accounted.awaits {c : Call} (h : c.Accounted) {o : PublishEnd}
    (ho : o ≠ .raised .publishError) :
    Call.Accounted { c with published := some o, phase := .waiting false false } := by
  refine ⟨h.future, ?_, ?_, ?_, ?_⟩ <;> simp [ho]

/-- Waking a waiting call ends it the documented way. -/
theorem Call.Accounted.wakes {c : Call} (h : c.Accounted) {w : Wake} {o : Outcome}
    (ho : c.wakeOutcome w = some o) :
    c.Documented o := by
  cases w with
  | future =>
    cases hf : c.future with
    | result body =>
      simp only [Call.wakeOutcome, hf] at ho
      cases ho
      exact .returned body
    | exception e =>
      simp only [Call.wakeOutcome, hf] at ho
      cases ho
      obtain ⟨exc, rfl⟩ := h.future e hf
      exact .connectionLost exc
    | pending => simp [Call.wakeOutcome, hf] at ho
    | cancelled => simp [Call.wakeOutcome, hf] at ho
  | timeout =>
    simp only [Call.wakeOutcome] at ho
    split at ho
    · rename_i d hp
      cases ho
      exact .requestTimeout (h.timedOut d hp)
    · cases ho
  | cancel =>
    simp only [Call.wakeOutcome] at ho
    split at ho
    · rename_i t hp
      cases ho
      exact .cancelled (h.cancelled t hp)
    · cases ho

/-- No way of waking a call raises `NoRouteError`, so a publish that did not is not blamed. -/
theorem Call.Accounted.finishes {c : Call} (h : c.Accounted) {w : Wake} {o : Outcome}
    (ho : c.wakeOutcome w = some o) {t d : Bool} (hp : c.phase = .waiting t d) :
    Call.Accounted { c with phase := .finished o } := by
  have hne : ∀ name, o ≠ .raised (.noRoute name) := by
    rintro name rfl
    cases w with
    | future =>
      cases hf : c.future with
      | exception e =>
        obtain ⟨exc, rfl⟩ := h.future e hf
        simp [Call.wakeOutcome, hf] at ho
      | pending => simp [Call.wakeOutcome, hf] at ho
      | result body => simp [Call.wakeOutcome, hf] at ho
      | cancelled => simp [Call.wakeOutcome, hf] at ho
    | timeout => simp only [Call.wakeOutcome] at ho; split at ho <;> cases ho
    | cancel => simp only [Call.wakeOutcome] at ho; split at ho <;> cases ho
  have hpub : c.published ≠ some (.raised .publishError) := by
    intro hpub
    obtain ⟨name, hn⟩ := h.noRoute.2 hpub
    rw [hp] at hn
    cases hn
  refine ⟨h.future, by simp, by simp, ?_, ?_⟩
  · rintro _ ⟨⟩
    exact (h.wakes ho).mono rfl rfl rfl (Nat.le_refl _)
  · constructor
    · rintro ⟨name, hn⟩
      exact absurd (Phase.finished.inj hn) (hne name)
    · exact fun hpub' => absurd hpub' hpub

/-- The ladder of a publisher, rung by rung, with what the publisher leaves with. -/
theorem publisherEnds_outcome {s s' : State} {p : Nat} {o : PublishEnd}
    (h : publisherEnds s p o = some s') :
    ∃ q r, s.publishers p = some q ∧ q.outcome = none ∧
      (((o = .ok ∨ o = .raised .publishError) ∧ r = .ok () ∧ s' = publisherLeaves s p q r) ∨
       (o = .raised .cancelledError ∧ taskWasActuallyCancelled s q.cancelling = true ∧
         r = .error .cancelled ∧
          s' = publisherLeaves s p q r) ∨
       ∃ e, o = .raised e ∧ e ≠ .publishError ∧
          (e = .cancelledError → taskWasActuallyCancelled s q.cancelling = false) ∧
          r = .error (.publishFailed q.kind q.name e) ∧
          s' = publisherLeaves (failAwaitingRequests s (some e)) p q r) := by
  unfold publisherEnds at h
  split at h
  · cases h
  · rename_i q hq
    split at h
    · rename_i hp
      have hout : q.outcome = none := Option.isNone_iff_eq_none.1 hp.1
      split at h
      · cases h
        exact ⟨q, _, hq, hout, Or.inl ⟨Or.inl rfl, rfl, rfl⟩⟩
      · cases h
        exact ⟨q, _, hq, hout, Or.inl ⟨Or.inr rfl, rfl, rfl⟩⟩
      · split at h
        · rename_i ht
          cases h
          exact ⟨q, _, hq, hout, Or.inr (Or.inl ⟨rfl, ht, rfl, rfl⟩)⟩
        · rename_i ht
          cases h
          exact ⟨q, _, hq, hout, Or.inr (Or.inr
            ⟨_, rfl, by simp, fun _ => by simpa using ht, rfl, rfl⟩)⟩
      · rename_i e hne hnc
        cases h
        exact ⟨q, _, hq, hout, Or.inr (Or.inr ⟨e, rfl, hne, fun he => absurd he hnc, rfl, rfl⟩)⟩
    · cases h

/-! ## The lock -/

/-- The lock is held by the one call or publisher whose publish is under way. -/
structure LockOk (s : State) : Prop where
  call : ∀ k, s.lock = some (.call k) ↔ (s.calls k).map Call.phase = some .publishing
  publisher : ∀ p, s.lock = some (.publisher p) ↔ (s.publishers p).map Publisher.outcome = some none

theorem lockOk_init (b : Bool) : LockOk (State.init b) := by
  constructor <;> simp [State.init]

/-- Who is publishing did not change, and neither did the lock. -/
theorem LockOk.congr {s s' : State} (h : LockOk s) (hl : s'.lock = s.lock)
    (hc : ∀ k, (s'.calls k).map Call.phase = some .publishing ↔
      (s.calls k).map Call.phase = some .publishing)
    (hp : ∀ p, (s'.publishers p).map Publisher.outcome = (s.publishers p).map Publisher.outcome) :
    LockOk s' := by
  constructor
  · intro k
    rw [hl, hc k]
    exact h.call k
  · intro p
    rw [hl, hp p]
    exact h.publisher p

/-- One call's record changes, and whether it is publishing does not. -/
theorem LockOk.setCall {s s' : State} (h : LockOk s) {k : CallId} {c c' : Call}
    (hc : s.calls k = some c) (hcalls : s'.calls = Function.update s.calls k (some c'))
    (hl : s'.lock = s.lock) (hp : s'.publishers = s.publishers)
    (hphase : c'.phase = .publishing ↔ c.phase = .publishing) : LockOk s' := by
  refine h.congr hl (fun j => ?_) fun p => by rw [hp]
  by_cases hj : j = k
  · subst hj
    simp [hcalls, hc, hphase]
  · simp [hcalls, hj]

theorem LockOk.fail {s : State} (h : LockOk s) (hi : Inv s) (exc : Option Exc) :
    LockOk (failAwaitingRequests s exc) := by
  refine h.congr ?_ (fun k => ?_) fun p => ?_
  · unfold failAwaitingRequests
    split <;> rfl
  · rw [failAwaitingRequests_calls hi]
    cases s.calls k with
    | none => rfl
    | some c =>
      simp only [Option.map_some, Call.cleared]
      split <;> simp
  · unfold failAwaitingRequests
    split <;> rfl

/-- The holder of the lock gives it back and is no longer publishing. -/
theorem LockOk.releaseCall {s s' : State} (h : LockOk s) {k : CallId} {c c' : Call}
    (hc : s.calls k = some c) (hphase : c.phase = .publishing)
    (hcalls : s'.calls = Function.update s.calls k (some c')) (hl : s'.lock = none)
    (hp : s'.publishers = s.publishers) (hphase' : c'.phase ≠ .publishing) : LockOk s' := by
  have hk : s.lock = some (.call k) := (h.call k).2 (by rw [hc]; exact congrArg some hphase)
  constructor
  · intro j
    by_cases hj : j = k
    · subst hj
      simp [hl, hcalls, hphase']
    · have := h.call j
      rw [hk] at this
      simp only [hl, hcalls, Function.update_of_ne hj, ← this]
      simp [Ne.symm hj]
  · intro p
    have := h.publisher p
    rw [hk] at this
    simp only [hl, hp, ← this]
    simp

theorem LockOk.releasePublisher {s : State} (h : LockOk s) {p : Nat} {q : Publisher}
    (hq : s.publishers p = some q) (hout : q.outcome = none) (r : Except Error Unit) :
    LockOk (publisherLeaves s p q r) := by
  have hp : s.lock = some (.publisher p) := (h.publisher p).2 (by rw [hq]; exact congrArg some hout)
  constructor
  · intro k
    have := h.call k
    rw [hp] at this
    simp only [publisherLeaves, ← this]
    simp
  · intro j
    by_cases hj : j = p
    · subst hj
      simp [publisherLeaves]
    · have := h.publisher j
      rw [hp] at this
      simp only [publisherLeaves, Function.update_of_ne hj, ← this]
      simp [Ne.symm hj]

/-! ## Every event -/

structure PathsInv (s : State) : Prop where
  inv : Inv s
  api : s.cancellingApi = true
  accounted : ∀ k c, s.calls k = some c → c.Accounted
  documented : ∀ p q r, s.publishers p = some q → q.outcome = some r → q.Documented r
  lock : LockOk s

theorem pathsInv_init : PathsInv (State.init true) := by
  refine ⟨inv_init true, rfl, ?_, ?_, lockOk_init true⟩ <;> intros <;> contradiction

@[simp] theorem failAwaitingRequests_cancellingApi (s : State) (exc : Option Exc) :
    (failAwaitingRequests s exc).cancellingApi = s.cancellingApi := by
  unfold failAwaitingRequests
  split <;> rfl

@[simp] theorem failAwaitingRequests_publishers (s : State) (exc : Option Exc) :
    (failAwaitingRequests s exc).publishers = s.publishers := by
  unfold failAwaitingRequests
  split <;> rfl

theorem cancelled_iff {s : State} (h : s.cancellingApi = true) (n : Nat) :
    taskWasActuallyCancelled s n = true ↔ n ≠ 0 := by
  simp [taskWasActuallyCancelled, h]

/-- One call's record is replaced by an accounted one. -/
theorem accounted_update {s s' : State} (h : ∀ k c, s.calls k = some c → c.Accounted) {k : CallId}
    {c' : Call} (hcalls : s'.calls = Function.update s.calls k (some c')) (hc' : c'.Accounted) :
    ∀ j c, s'.calls j = some c → c.Accounted := by
  intro j c hj
  rw [hcalls] at hj
  obtain ⟨-, rfl⟩ | ⟨-, hj⟩ := Dict.lookup_update hj
  · exact hc'
  · exact h j c hj

theorem PathsInv.fail {s : State} (h : PathsInv s) (exc : Option Exc) :
    PathsInv (failAwaitingRequests s exc) := by
  refine ⟨h.inv.fail exc, by simpa using h.api, ?_, by simpa using h.documented,
    h.lock.fail h.inv exc⟩
  intro k c hc
  rw [failAwaitingRequests_calls h.inv] at hc
  obtain ⟨d, hd, rfl⟩ := Option.map_eq_some_iff.1 hc
  exact (h.accounted k d hd).cleared _ exc k

/-- One call's record is replaced, the lock and the publishers are left alone. -/
theorem PathsInv.setCall {s s' : State} (h : PathsInv s) (hi : Inv s') {k : CallId} {c c' : Call}
    (hc : s.calls k = some c) (hcalls : s'.calls = Function.update s.calls k (some c'))
    (ha : s'.cancellingApi = s.cancellingApi) (hl : s'.lock = s.lock)
    (hp : s'.publishers = s.publishers) (hphase : c'.phase = .publishing ↔ c.phase = .publishing)
    (hc' : c'.Accounted) : PathsInv s' :=
  ⟨hi, ha.trans h.api, accounted_update h.accounted hcalls hc', hp ▸ h.documented,
    h.lock.setCall hc hcalls hl hp hphase⟩

/-- A call gives the lock back. -/
theorem PathsInv.releaseCall {s s' : State} (h : PathsInv s) (hi : Inv s') {k : CallId}
    {c c' : Call} (hc : s.calls k = some c) (hphase : c.phase = .publishing)
    (hcalls : s'.calls = Function.update s.calls k (some c'))
    (ha : s'.cancellingApi = s.cancellingApi) (hl : s'.lock = none)
    (hp : s'.publishers = s.publishers) (hphase' : c'.phase ≠ .publishing) (hc' : c'.Accounted) :
    PathsInv s' :=
  ⟨hi, ha.trans h.api, accounted_update h.accounted hcalls hc', hp ▸ h.documented,
    h.lock.releaseCall hc hphase hcalls hl hp hphase'⟩

theorem PathsInv.releasePublisher {s : State} (h : PathsInv s) {p : Nat} {q : Publisher}
    (hq : s.publishers p = some q) (hout : q.outcome = none) {r : Except Error Unit}
    (hr : Publisher.Documented { q with outcome := some r } r) :
    PathsInv (publisherLeaves s p q r) := by
  refine ⟨h.inv.publisherLeaves p q r, h.api, h.accounted, ?_, h.lock.releasePublisher hq hout r⟩
  intro j d r' hd hr'
  obtain ⟨-, rfl⟩ | ⟨-, hd⟩ := Dict.lookup_update hd
  · cases hr'
    exact hr
  · exact h.documented j d r' hd hr'

theorem PathsInv.send {s s' : State} (h : PathsInv s) {k : CallId} {name : String}
    {content : Option Bytes} {timeout : Option Nat} {cid : CorrelationId}
    (hs : sendRequest s k name content timeout cid = some s') :
    PathsInv s' := by
  have hi : Inv s' := h.inv.send hs
  unfold sendRequest at hs
  split at hs
  · rename_i hg
    obtain ⟨hl, hk, -⟩ := hg
    cases hs
    refine ⟨hi, h.api, accounted_update h.accounted rfl (Call.accounted_sent ..),
      h.documented, ?_, ?_⟩
    · intro j
      by_cases hj : j = k
      · subst hj
        simp [Call.sent]
      · have := h.lock.call j
        rw [hl] at this
        simp only [Function.update_of_ne hj, ← this]
        simp [Ne.symm hj]
    · intro p
      have := h.lock.publisher p
      rw [hl] at this
      simp only [← this]
      simp
  · cases hs

theorem PathsInv.publish {s s' : State} (h : PathsInv s) {p : Nat} {kind : PublishKind}
    {name : String} {content : Option Bytes} (hs : Amqp.publish s p kind name content = some s') :
    PathsInv s' := by
  unfold Amqp.publish at hs
  split at hs
  · cases hs
  · split at hs
    · rename_i hl
      cases hs
      refine ⟨h.inv.congr rfl rfl rfl, h.api, h.accounted, ?_, ?_, ?_⟩
      · intro j d r hd hr
        obtain ⟨-, rfl⟩ | ⟨-, hd⟩ := Dict.lookup_update hd
        · cases hr
        · exact h.documented j d r hd hr
      · intro k
        have := h.lock.call k
        rw [hl] at this
        simp only [← this]
        simp
      · intro j
        by_cases hj : j = p
        · subst hj
          simp
        · have := h.lock.publisher j
          rw [hl] at this
          simp only [Function.update_of_ne hj, ← this]
          simp [Ne.symm hj]
    · cases hs

theorem PathsInv.awaitFuture {s : State} (h : PathsInv s) {k : CallId} {c : Call} {o : PublishEnd}
    (hc : s.calls k = some c) (hp : c.phase = .publishing) (ho : o ≠ .raised .publishError)
    (hi : Inv (Amqp.awaitFuture s k o)) : PathsInv (Amqp.awaitFuture s k o) := by
  have hc' : Call.Accounted { c with published := some o, phase := .waiting false false } :=
    (h.accounted k c hc).awaits ho
  exact h.releaseCall hi hc hp (by simp [Amqp.awaitFuture, hc]) rfl rfl rfl (by simp) hc'

theorem PathsInv.publishEnds {s s' : State} (h : PathsInv s) {k : CallId} {o : PublishEnd}
    (hs : Amqp.publishEnds s k o = some s') : PathsInv s' := by
  have hi : Inv s' := h.inv.publishEnds hs
  obtain ⟨c, hc, hp, hcase⟩ := publishEnds_cases hs
  have ha := h.accounted k c hc
  rcases hcase with ⟨rfl, rfl⟩ | ⟨rfl, rfl⟩ | ⟨rfl, ht, rfl⟩ | ⟨e, rfl, hne, -, rfl⟩
  · exact h.awaitFuture hc hp (by simp) hi
  · refine h.releaseCall hi hc hp rfl rfl rfl rfl (by simp)
      ⟨ha.future, by simp, by simp, ?_, by simp⟩
    rintro _ ⟨⟩
    exact .noRoute
  · refine h.releaseCall hi hc hp rfl rfl rfl rfl (by simp)
      ⟨ha.future, by simp, by simp, ?_, by simp⟩
    rintro _ ⟨⟩
    exact .cancelled ((cancelled_iff h.api _).1 ht)
  · have hc' : (failAwaitingRequests s (some e)).calls k =
        some (c.cleared s.awaitingRequests (some e) k) := by
      rw [failAwaitingRequests_calls h.inv, hc]
      rfl
    have hp' : (c.cleared s.awaitingRequests (some e) k).phase = .publishing := by
      unfold Call.cleared
      split <;> simp [hp]
    exact (h.fail (some e)).awaitFuture hc' hp' (by simpa using hne) hi

theorem PathsInv.response {s : State} (h : PathsInv s) (cid : Option CorrelationId) (body : Bytes) :
    PathsInv (onResponseMessage s cid body) := by
  have hi := h.inv.response cid body
  unfold onResponseMessage at hi ⊢
  split
  · exact h
  · split
    · exact h
    · rename_i k hget
      obtain ⟨c, hc, -, -⟩ := h.inv.owned _ _ hget
      simp only [hget, hc, Option.map_some] at hi ⊢
      refine h.setCall hi hc rfl rfl rfl rfl ?_ ?_
      · split <;> simp [Call.complete]
      · split
        · exact (h.accounted k c hc).complete (by simp)
        · exact h.accounted k c hc

/-- **Every event keeps the invariant.** -/
theorem PathsInv.step {s s' : State} (h : PathsInv s) (e : Event) (hs : step s e = some s') :
    PathsInv s' := by
  have hi : Inv s' := h.inv.step e hs
  cases e with
  | sendRequest k name content timeout cid => exact h.send hs
  | publishEnds k o => exact h.publishEnds hs
  | resume k w =>
    obtain ⟨c, t, d, o, hc, hp, -, ho, rfl⟩ := resume_cases hs
    exact h.setCall hi hc rfl rfl rfl rfl (by simp [hp]) ((h.accounted k c hc).finishes ho hp)
  | response cid body => cases hs; exact h.response cid body
  | connectionClosed exc =>
    cases hs
    have hf := h.fail exc
    exact ⟨hi, hf.api, hf.accounted, hf.documented, hf.lock.congr rfl (fun _ => Iff.rfl)
      fun _ => rfl⟩
  | reconnected =>
    cases hs
    exact ⟨hi, h.api, h.accounted, h.documented, h.lock.congr rfl (fun _ => Iff.rfl) fun _ => rfl⟩
  | timeoutElapses k =>
    obtain ⟨c, t, d, hc, hp, ht, rfl⟩ := timeoutElapses_cases hs
    have ha := h.accounted k c hc
    refine h.setCall hi hc rfl rfl rfl rfl (by simp [hp])
      ⟨ha.future, fun _ _ => ht, ?_, by simp, ?_⟩
    · rintro _ ⟨⟩
      exact ha.cancelled t hp
    · simpa [hp] using ha.noRoute
  | taskCancelled k =>
    obtain ⟨c, hc, ⟨hp, rfl⟩ | ⟨t, d, hp, rfl⟩⟩ := taskCancelled_cases hs
    · have ha := h.accounted k c hc
      exact h.setCall hi hc rfl rfl rfl rfl Iff.rfl
        ⟨ha.future, ha.timedOut, fun _ _ => Nat.succ_ne_zero _, by simp [hp], ha.noRoute⟩
    · have ha := h.accounted k c hc
      refine h.setCall hi hc rfl rfl rfl rfl (by simp [hp])
        ⟨ha.future, ?_, fun _ _ => Nat.succ_ne_zero _, by simp, ?_⟩
      · rintro _ ⟨⟩
        exact ha.timedOut d hp
      · simpa [hp] using ha.noRoute
  | futureAbandoned k =>
    obtain ⟨c, t, d, hc, hp, -, rfl⟩ := futureAbandoned_cases hs
    refine h.setCall hi hc rfl rfl rfl rfl ?_ (h.accounted k c hc).cancelFuture
    unfold Call.cancelFuture
    split <;> simp [Call.complete]
  | publish p kind name content => exact h.publish hs
  | publisherCancelled p =>
    simp only [Amqp.step, publisherCancelled] at hs
    split at hs
    · cases hs
    · rename_i q hq
      cases hs
      refine ⟨hi, h.api, h.accounted, ?_, h.lock.congr rfl (fun _ => Iff.rfl) fun j => ?_⟩
      · intro j d r hd hr
        obtain ⟨rfl, rfl⟩ | ⟨-, hd⟩ := Dict.lookup_update hd
        · cases h.documented j q r hq hr with
          | returned => exact .returned
          | connectionLost cause => exact .connectionLost cause
          | cancelled hc => exact .cancelled (Nat.succ_ne_zero _)
        · exact h.documented j d r hd hr
      · by_cases hj : j = p
        · subst hj
          simp [hq]
        · simp [hj]
  | publisherEnds p o =>
    obtain ⟨q, r, hq, hout, ⟨-, rfl, rfl⟩ | ⟨-, ht, rfl, rfl⟩ | ⟨e, -, -, -, rfl, rfl⟩⟩ :=
      publisherEnds_outcome hs
    · exact h.releasePublisher hq hout .returned
    · exact h.releasePublisher hq hout (.cancelled ((cancelled_iff h.api _).1 ht))
    · exact (h.fail (some e)).releasePublisher (by simpa using hq) hout (.connectionLost e)
  | replyEnds content o =>
    obtain ⟨-, rfl⟩ | ⟨e, -, -, rfl⟩ := replyEnds_cases hs
    · exact h
    · exact h.fail _

theorem reachable_pathsInv {s : State} (h : Reachable step (State.init true) s) : PathsInv s :=
  h.invariant (fun _ e _ hi he => hi.step e he) pathsInv_init

/-! ## The publish paths -/

/-- A publish ended with `o`: call `c` is now `c'`, the transport in state `s'`. -/
structure CallLeft (c c' : Call) (o : PublishEnd) (s' : State) : Prop where
  released : s'.lock = none
  /-- The `CancelledError` of the publish leaves `send_request` exactly if the task is being
  cancelled. -/
  cancelled : o = .raised .cancelledError →
    (c'.phase = .finished (.raised .cancelled) ↔ c.cancelling ≠ 0)
  noRoute : (∃ name, c'.phase = .finished (.raised (.noRoute name))) ↔ o = .raised .publishError
  /-- What does not leave at once has done the future, which ends the call when it is woken. -/
  ends : ∀ e, o = .raised e → c'.finished = true ∨ c'.future.done = true

structure PublisherLeft (q q' : Publisher) (o : PublishEnd) (s' : State) : Prop where
  released : s'.lock = none
  cancelled : o = .raised .cancelledError →
    (q'.outcome = some (.error .cancelled) ↔ q.cancelling ≠ 0)
  documented : ∃ r, q'.outcome = some r ∧ q'.Documented r

structure PublishPathsOk (s : State) : Prop where
  call : ∀ k c o, s.calls k = some c → c.phase = .finished o → c.Documented o
  noRoute : ∀ k c, s.calls k = some c →
    ((∃ name, c.phase = .finished (.raised (.noRoute name))) ↔
      c.published = some (.raised .publishError))
  publisher : ∀ p q r, s.publishers p = some q → q.outcome = some r → q.Documented r
  /-- Whatever the publish of a call ends with, the call goes on. -/
  callLeaves : ∀ k c o, s.calls k = some c → c.phase = .publishing → o.possible c.content = true →
    ∃ s' c', step s (.publishEnds k o) = some s' ∧ s'.calls k = some c' ∧ CallLeft c c' o s'
  publisherLeaves : ∀ p q o, s.publishers p = some q → q.outcome = none →
    o.possible q.content = true →
    ∃ s' q', step s (.publisherEnds p o) = some s' ∧ s'.publishers p = some q' ∧
      PublisherLeft q q' o s'
  /-- Nobody holds the lock but the one whose publish is under way. -/
  lockOfCall : ∀ k, s.lock = some (.call k) → ∃ c, s.calls k = some c ∧ c.phase = .publishing
  lockOfPublisher : ∀ p, s.lock = some (.publisher p) → ∃ q, s.publishers p = some q ∧
    q.outcome = none

theorem publishEnds_isSome {s : State} {k : CallId} {c : Call} {o : PublishEnd}
    (hc : s.calls k = some c) (hp : c.phase = .publishing) (ho : o.possible c.content = true) :
    ∃ s', publishEnds s k o = some s' := by
  unfold publishEnds
  simp only [hc, hp, ho, and_self, if_true]
  split
  · exact ⟨_, rfl⟩
  · exact ⟨_, rfl⟩
  · split
    · exact ⟨_, rfl⟩
    · exact ⟨_, rfl⟩
  · exact ⟨_, rfl⟩

theorem publisherEnds_isSome {s : State} {p : Nat} {q : Publisher} {o : PublishEnd}
    (hq : s.publishers p = some q) (hout : q.outcome = none) (ho : o.possible q.content = true) :
    ∃ s', publisherEnds s p o = some s' := by
  unfold publisherEnds
  simp only [hq, hout, ho, Option.isNone_none, and_self, if_true]
  split
  · exact ⟨_, rfl⟩
  · exact ⟨_, rfl⟩
  · split
    · exact ⟨_, rfl⟩
    · exact ⟨_, rfl⟩
  · exact ⟨_, rfl⟩

theorem PathsInv.callLeft {s s' : State} (h : PathsInv s) {k : CallId} {c : Call} {o : PublishEnd}
    (hc : s.calls k = some c) (hs : Amqp.publishEnds s k o = some s') :
    ∃ c', s'.calls k = some c' ∧ CallLeft c c' o s' := by
  have h' := h.publishEnds hs
  obtain ⟨c₀, hc₀, -, hcase⟩ := publishEnds_cases hs
  rw [hc] at hc₀
  cases hc₀
  -- what the call is left as, whichever rung it took
  have left : s'.lock = none ∧ ∃ c', s'.calls k = some c' ∧ c'.published = some o ∧
      (o = .raised .cancelledError → (c'.phase = .finished (.raised .cancelled) ↔
        c.cancelling ≠ 0)) := by
    rcases hcase with ⟨rfl, rfl⟩ | ⟨rfl, rfl⟩ | ⟨rfl, ht, rfl⟩ | ⟨e, rfl, -, hnc, rfl⟩
    · exact ⟨rfl,
        { c with published := some .ok, phase := .waiting false false }, by simp [Amqp.awaitFuture,
        hc], rfl, by simp⟩
    · exact ⟨rfl, _, Function.update_self .., rfl, by simp⟩
    · exact ⟨rfl, _, Function.update_self .., rfl,
        fun _ => by simpa using (cancelled_iff h.api _).1 ht⟩
    · have hf : (failAwaitingRequests s (some e)).calls k =
          some (c.cleared s.awaitingRequests (some e) k) := by
        rw [failAwaitingRequests_calls h.inv, hc]
        rfl
      refine ⟨rfl, { c.cleared s.awaitingRequests (some e) k with
        published := some (.raised e), phase := .waiting false false }, by simp [Amqp.awaitFuture,
          hf], rfl, ?_⟩
      rintro ⟨⟩
      have := hnc rfl
      simp only [reduceCtorEq, false_iff]
      rw [← cancelled_iff h.api, this]
      simp
  obtain ⟨hl, c', hc', hpub, hcan⟩ := left
  refine ⟨c', hc', hl, hcan, ?_, ?_⟩
  · rw [(h'.accounted k c' hc').noRoute, hpub, Option.some.injEq]
  · rintro e rfl
    exact h'.inv.failed k c' e hc' hpub

theorem PathsInv.publisherLeft {s s' : State} (h : PathsInv s) {p : Nat} {q : Publisher}
    {o : PublishEnd} (hq : s.publishers p = some q) (hs : publisherEnds s p o = some s') :
    ∃ q', s'.publishers p = some q' ∧ PublisherLeft q q' o s' := by
  have h' : PathsInv s' := h.step (.publisherEnds p o) hs
  obtain ⟨q₀, r, hq₀, -, hcase⟩ := publisherEnds_outcome hs
  rw [hq] at hq₀
  cases hq₀
  have left : s'.lock = none ∧ s'.publishers p = some { q with outcome := some r } ∧
      (o = .raised .cancelledError → (r = .error .cancelled ↔ q.cancelling ≠ 0)) := by
    rcases hcase with ⟨ho, rfl, rfl⟩ | ⟨rfl, ht, rfl, rfl⟩ | ⟨e, rfl, -, hnc, rfl, rfl⟩
    · refine ⟨rfl, Function.update_self .., ?_⟩
      rintro rfl
      simp at ho
    · exact ⟨rfl, Function.update_self .., fun _ => by simpa using (cancelled_iff h.api _).1 ht⟩
    · refine ⟨rfl, Function.update_self .., ?_⟩
      rintro ⟨⟩
      have := hnc rfl
      simp only [Except.error.injEq, reduceCtorEq, false_iff]
      rw [← cancelled_iff h.api, this]
      simp
  obtain ⟨hl, hp, hcan⟩ := left
  refine ⟨_, hp, hl, fun ho => ?_, r, rfl, h'.documented p _ r hp rfl⟩
  rw [Option.some.injEq]
  exact hcan ho

/-- **Only documented outcomes leave the publish paths**, in every interleaving. -/
theorem publish_paths {s : State} (h : Reachable step (State.init true) s) : PublishPathsOk s := by
  have hi := reachable_pathsInv h
  refine ⟨fun k c o hc => (hi.accounted k c hc).ended o, fun k c hc =>
    (hi.accounted k c hc).noRoute, hi.documented,
    ?_, ?_, ?_, ?_⟩
  · intro k c o hc hp ho
    obtain ⟨s', hs⟩ := publishEnds_isSome hc hp ho
    obtain ⟨c', hc', hleft⟩ := hi.callLeft hc hs
    exact ⟨s', c', hs, hc', hleft⟩
  · intro p q o hq hout ho
    obtain ⟨s', hs⟩ := publisherEnds_isSome hq hout ho
    obtain ⟨q', hq', hleft⟩ := hi.publisherLeft hq hs
    exact ⟨s', q', hs, hq', hleft⟩
  · intro k hk
    exact Option.map_eq_some_iff.1 ((hi.lock.call k).1 hk)
  · intro p hp
    exact Option.map_eq_some_iff.1 ((hi.lock.publisher p).1 hp)

/-- aio-pika's own `CancelledError` ends a request, and a real one ends a broadcast. -/
def cancelledRun : List Event :=
  [.sendRequest 0 "m.f" (some [1]) none 10, .publishEnds 0 (.raised .cancelledError),
    .resume 0 .future,
    .publish 0 .broadcast "m.b" (some [2]), .publisherCancelled 0, .publisherEnds 0
      (.raised .cancelledError)]

theorem publish_paths_cancelled :
    ∃ s, run step (State.init true) cancelledRun = some s ∧ PublishPathsOk s :=
  ⟨_, rfl, publish_paths ⟨cancelledRun, rfl⟩⟩

end Atasks.Amqp
