import Atasks.Amqp.Table
/-!
# What one event does to one call

`step_call` reads every event from the side of a single call: its name, content and
correlation id never change, and its future is completed by a response carrying its own
correlation id, by `_fail_awaiting_requests`, or by being abandoned, and by nothing else.
-/

namespace Atasks.Amqp

/-- How the future of call `k` got from `c` to `c'` in one event. -/
inductive FutureMove (s : State) (e : Event) (k : CallId) (c c' : Call) : Prop
  | kept (h : c'.future = c.future)
  | answered (body : Bytes) (he : e = .response (some c.correlationId) body)
      (hget : s.awaitingRequests.get? c.correlationId = some k) (hp : c.future.done = false)
      (h : c'.future = .result body)
  | failed (exc : Option Exc) (he : e.failure s = some exc)
      (hget : s.awaitingRequests.get? c.correlationId = some k) (hp : c.future.done = false)
      (h : c'.future = .exception (.connectionLost c.correlationId exc))
  | abandoned (he : e = .futureAbandoned k) (hp : c.future.done = false)
    (h : c'.future = .cancelled)

/-- Call `k` before and after one event. -/
structure CallMove (s : State) (e : Event) (k : CallId) (c c' : Call) : Prop where
  name : c'.name = c.name
  content : c'.content = c.content
  correlationId : c'.correlationId = c.correlationId
  future : FutureMove s e k c c'
  /-- What the call returns, its future holds. -/
  returned : ∀ body, c'.phase = .finished (.returned body) → c.phase = c'.phase ∨
    c.future = .result body

theorem CallMove.refl (s : State) (e : Event) (k : CallId) (c : Call) : CallMove s e k c c :=
  ⟨rfl, rfl, rfl, .kept rfl, fun _ _ => Or.inl rfl⟩

/-- Events that leave a call's future alone, whatever else they note on it. -/
theorem CallMove.of_kept {s : State} {e : Event} {k : CallId} {c c' : Call} (hn : c'.name = c.name)
    (hc : c'.content = c.content) (hi : c'.correlationId = c.correlationId)
    (hf : c'.future = c.future) (hr : ∀ body, c'.phase ≠ .finished (.returned body)) :
    CallMove s e k c c' :=
  ⟨hn, hc, hi, .kept hf, fun body hb => absurd hb (hr body)⟩

theorem cleared_move {s : State} {e : Event} {exc : Option Exc} (he : e.failure s = some exc)
    (k : CallId) (c : Call) :
    CallMove s e k c (c.cleared s.awaitingRequests exc k) := by
  unfold Call.cleared
  split
  · rename_i hget
    cases hd : c.future.done with
    | true => rw [Call.fail_of_done hd]; exact CallMove.refl s e k c
    | false =>
      refine ⟨?_, ?_, Call.fail_correlationId .., .failed exc he hget hd ?_,
        fun body hb => Or.inl ?_⟩
      · simp [Call.fail, hd, Call.complete]
      · simp [Call.fail, hd, Call.complete]
      · simp [Call.fail, hd, Call.complete]
      · simp
  · exact CallMove.refl s e k c

/-- A failing publish: `_fail_awaiting_requests` first, then one record is put back. -/
theorem CallMove.then_kept {s : State} {e : Event} {k : CallId} {c d c' : Call}
    (h : CallMove s e k c d) (hn : c'.name = d.name) (hc : c'.content = d.content)
    (hi : c'.correlationId = d.correlationId) (hf : c'.future = d.future)
    (hr : ∀ body, c'.phase ≠ .finished (.returned body)) : CallMove s e k c c' := by
  refine ⟨hn.trans h.name, hc.trans h.content, hi.trans h.correlationId, ?_, fun body hb =>
    absurd hb (hr body)⟩
  cases h.future with
  | kept h' => exact .kept (hf.trans h')
  | answered body he hg hp h' => exact .answered body he hg hp (hf.trans h')
  | failed exc he hg hp h' => exact .failed exc he hg hp (hf.trans h')
  | abandoned he hp h' => exact .abandoned he hp (hf.trans h')

/-- Reading one entry of an updated heap. -/
theorem update_calls {calls : CallId → Option Call} {k k₀ : CallId} {c c' : Call} {P : Call → Prop}
    (hc : calls k = some c) (hself : k = k₀ → P c') (hother : P c) :
    ∃ d, Function.update calls k₀ (some c') k = some d ∧ P d := by
  by_cases h : k = k₀
  · subst h; exact ⟨c', Function.update_self .., hself rfl⟩
  · exact ⟨c, by rw [Function.update_of_ne h, hc], hother⟩

/-- One record is replaced: the others do not move. -/
theorem move_of_setCall {s s' : State} {e : Event} {k k₀ : CallId} {c c₀ : Call} (c₀' : Call)
    (hc : s.calls k = some c) (hc₀ : s.calls k₀ = some c₀)
    (hcalls : s'.calls = Function.update s.calls k₀ (some c₀')) (hmove : CallMove s e k₀ c₀ c₀') :
    ∃ c', s'.calls k = some c' ∧ CallMove s e k c c' := by
  rw [hcalls]
  refine update_calls hc (fun hk => ?_) (CallMove.refl s e k c)
  subst hk
  rw [hc] at hc₀
  cases hc₀
  exact hmove

theorem publishEnds_move {s s' : State} (h : Inv s) {k₀ : CallId} {o : PublishEnd}
    (hs : publishEnds s k₀ o = some s') {k : CallId} {c : Call} (hc : s.calls k = some c) :
    ∃ c', s'.calls k = some c' ∧ CallMove s (.publishEnds k₀ o) k c c' := by
  obtain ⟨c₀, hc₀, hp, hcase⟩ := publishEnds_cases hs
  have raised : ∀ e, ∃ c', (raiseFromPublish s k₀ c₀ o e).calls k = some c' ∧
      CallMove s (.publishEnds k₀ o) k c c' := fun e =>
    move_of_setCall _ hc hc₀ rfl (CallMove.of_kept rfl rfl rfl rfl (by simp))
  rcases hcase with ⟨rfl, rfl⟩ | ⟨rfl, rfl⟩ | ⟨rfl, -, rfl⟩ | ⟨e, rfl, hne, hnc, rfl⟩
  · refine move_of_setCall { c₀ with published := some .ok, phase := .waiting false false } hc hc₀ ?_
      (CallMove.of_kept rfl rfl rfl rfl (by simp))
    simp [awaitFuture, hc₀]
  · exact raised _
  · exact raised _
  · have he : Event.failure s (.publishEnds k₀ (.raised e)) = some (some e) := by
      simp only [Event.failure, hc₀, hne, false_or]
      rw [if_neg]
      rintro ⟨rfl, ht⟩
      rw [hnc rfl] at ht
      cases ht
    have hm := cleared_move he k c
    have hk : (failAwaitingRequests s (some e)).calls k =
        some (c.cleared s.awaitingRequests (some e) k) := by
      rw [failAwaitingRequests_calls h, hc]; rfl
    by_cases hkk : k = k₀
    · subst hkk
      refine ⟨{ c.cleared s.awaitingRequests (some e) k with
        published := some (.raised e), phase := .waiting false false }, ?_,
          hm.then_kept rfl rfl rfl rfl (by simp)⟩
      simp [awaitFuture, hk]
    · exact ⟨_, by simp only [awaitFuture, Function.update_of_ne hkk]; exact hk, hm⟩

theorem failed_move {s : State} (h : Inv s) {e : Event} {exc : Option Exc}
    (he : e.failure s = some exc) {k : CallId} {c : Call} (hc : s.calls k = some c) :
    ∃ c', (failAwaitingRequests s exc).calls k = some c' ∧ CallMove s e k c c' :=
  ⟨_, by rw [failAwaitingRequests_calls h, hc]; rfl, cleared_move he k c⟩

theorem response_move {s : State} (h : Inv s) (cid : Option CorrelationId) (body : Bytes)
    {k : CallId} {c : Call} (hc : s.calls k = some c) :
    ∃ c', (onResponseMessage s cid body).calls k = some c' ∧
    CallMove s (.response cid body) k c c' := by
  unfold onResponseMessage
  split
  · exact ⟨c, hc, CallMove.refl ..⟩
  · rename_i cid
    split
    · exact ⟨c, hc, CallMove.refl ..⟩
    · rename_i k₀ hget
      obtain ⟨c₀, hc₀, rfl, hf⟩ := h.owned cid k₀ hget
      cases hd : c₀.future.done with
      | true => exact move_of_setCall c₀ hc hc₀ (by simp [hc₀, hd]) (CallMove.refl ..)
      | false =>
        refine move_of_setCall (c₀.complete (.result body)) hc hc₀ (by simp [hc₀, hd]) ?_
        exact ⟨rfl, rfl, rfl, .answered body rfl hget hd rfl, fun b hb => Or.inl rfl⟩

theorem resume_move {s s' : State} {k₀ : CallId} {w : Wake} (hs : resume s k₀ w = some s')
    {k : CallId} {c : Call} (hc : s.calls k = some c) :
    ∃ c', s'.calls k = some c' ∧ CallMove s (.resume k₀ w) k c c' := by
  obtain ⟨c₀, t, d, o, hc₀, hp, hd, ho, rfl⟩ := resume_cases hs
  refine move_of_setCall { c₀ with phase := .finished o } hc hc₀ rfl ⟨rfl, rfl, rfl, .kept rfl, ?_⟩
  intro body hb
  obtain rfl : o = .returned body := by simpa using hb
  -- only the future's own result is returned
  refine Or.inr ?_
  cases w with
  | future => cases hfu : c₀.future <;> simp [Call.wakeOutcome, hfu] at ho ⊢; exact ho
  | timeout => simp only [Call.wakeOutcome] at ho; split at ho <;> cases ho
  | cancel => simp only [Call.wakeOutcome] at ho; split at ho <;> cases ho

/-- **One event, one call.** -/
theorem step_call {s s' : State} (h : Inv s) {e : Event} (hs : step s e = some s') {k : CallId}
    {c : Call} (hc : s.calls k = some c) : ∃ c', s'.calls k = some c' ∧ CallMove s e k c c' := by
  cases e with
  | sendRequest k₀ name content timeout cid =>
    simp only [step, sendRequest] at hs
    split at hs
    · rename_i hg
      cases hs
      have hk : k ≠ k₀ := by rintro rfl; rw [hg.2.1] at hc; cases hc
      exact ⟨c, (Function.update_of_ne hk ..).trans hc, CallMove.refl ..⟩
    · cases hs
  | publishEnds k₀ o => exact publishEnds_move h hs hc
  | resume k₀ w => exact resume_move hs hc
  | response cid body => cases hs; exact response_move h cid body hc
  | connectionClosed exc => cases hs; exact failed_move h rfl hc
  | reconnected => cases hs; exact ⟨c, hc, CallMove.refl ..⟩
  | timeoutElapses k₀ =>
    obtain ⟨c₀, t, d, hc₀, hp, -, rfl⟩ := timeoutElapses_cases hs
    exact move_of_setCall _ hc hc₀ rfl (CallMove.of_kept rfl rfl rfl rfl (by simp))
  | taskCancelled k₀ =>
    obtain ⟨c₀, hc₀, ⟨hp, rfl⟩ | ⟨t, d, hp, rfl⟩⟩ := taskCancelled_cases hs
    · exact move_of_setCall _ hc hc₀ rfl (CallMove.of_kept rfl rfl rfl rfl (by simp [hp]))
    · exact move_of_setCall _ hc hc₀ rfl (CallMove.of_kept rfl rfl rfl rfl (by simp))
  | futureAbandoned k₀ =>
    obtain ⟨c₀, t, d, hc₀, hp, -, rfl⟩ := futureAbandoned_cases hs
    refine move_of_setCall _ hc hc₀ rfl ?_
    cases hd : c₀.future.done with
    | true => rw [Call.cancelFuture, hd]; exact CallMove.refl ..
    | false =>
      rw [Call.cancelFuture, hd]
      exact ⟨rfl, rfl, rfl, .abandoned rfl hd rfl, fun _ _ => Or.inl rfl⟩
  | publish p kind name content =>
    simp only [step, publish] at hs
    split at hs
    · cases hs
    · split at hs
      · cases hs; exact ⟨c, hc, CallMove.refl ..⟩
      · cases hs
  | publisherCancelled p =>
    simp only [step, publisherCancelled] at hs
    split at hs
    · cases hs
    · cases hs; exact ⟨c, hc, CallMove.refl ..⟩
  | publisherEnds p o =>
    obtain ⟨q, r, -, ⟨-, rfl⟩ | ⟨e, he, -, rfl⟩⟩ := publisherEnds_cases hs
    · exact ⟨c, hc, CallMove.refl ..⟩
    · exact failed_move h he hc
  | replyEnds content o =>
    obtain ⟨-, rfl⟩ | ⟨e, he, -, rfl⟩ := replyEnds_cases hs
    · exact ⟨c, hc, CallMove.refl ..⟩
    · exact failed_move h he hc

/-! ## Where calls come from -/

theorem update_none {calls : CallId → Option Call} {k k₀ : CallId} {c₀ : Call} {o : Option Call}
    (hc₀ : calls k₀ = some c₀) (hk : calls k = none) : Function.update calls k₀ o k = none := by
  have hne : k ≠ k₀ := by rintro rfl; rw [hk] at hc₀; cases hc₀
  rw [Function.update_of_ne hne, hk]

theorem failAwaitingRequests_none {s : State} (h : Inv s) (exc : Option Exc) {k : CallId}
    (hk : s.calls k = none) :
    (failAwaitingRequests s exc).calls k = none := by
  rw [failAwaitingRequests_calls h, hk, Option.map_none]

/-- Only `send_request` starts a call. -/
theorem step_none {s s' : State} (h : Inv s) {e : Event} (hs : step s e = some s') {k : CallId}
    (hk : s.calls k = none)
    (hne : ∀ name content timeout cid, e ≠ .sendRequest k name content timeout cid) :
    s'.calls k = none := by
  cases e with
  | sendRequest k₀ name content timeout cid =>
    simp only [step, sendRequest] at hs
    split at hs
    · cases hs
      have hk₀ : k ≠ k₀ := by rintro rfl; exact hne _ _ _ _ rfl
      exact (Function.update_of_ne hk₀ ..).trans hk
    · cases hs
  | publishEnds k₀ o =>
    obtain ⟨c₀, hc₀, -, ⟨-, rfl⟩ | ⟨-, rfl⟩ | ⟨-, -, rfl⟩ | ⟨e, -, -, -, rfl⟩⟩ :=
      publishEnds_cases hs
    · exact update_none hc₀ hk
    · exact update_none hc₀ hk
    · exact update_none hc₀ hk
    · have hf : (failAwaitingRequests s (some e)).calls k₀ =
          some (c₀.cleared s.awaitingRequests (some e) k₀) := by
        rw [failAwaitingRequests_calls h, hc₀]; rfl
      exact update_none hf (failAwaitingRequests_none h _ hk)
  | resume k₀ w =>
    obtain ⟨c₀, t, d, o, hc₀, -, -, -, rfl⟩ := resume_cases hs; exact update_none hc₀ hk
  | response cid body =>
    cases hs
    unfold onResponseMessage
    split
    · exact hk
    · split
      · exact hk
      · rename_i hget
        obtain ⟨c₀, hc₀, -, -⟩ := h.owned _ _ hget
        exact update_none hc₀ hk
  | connectionClosed exc => cases hs; exact failAwaitingRequests_none h exc hk
  | reconnected => cases hs; exact hk
  | timeoutElapses k₀ =>
    obtain ⟨c₀, t, d, hc₀, -, -, rfl⟩ := timeoutElapses_cases hs; exact update_none hc₀ hk
  | taskCancelled k₀ =>
    obtain ⟨c₀, hc₀, ⟨-, rfl⟩ | ⟨t, d, -, rfl⟩⟩ :=
      taskCancelled_cases hs <;> exact update_none hc₀ hk
  | futureAbandoned k₀ =>
    obtain ⟨c₀, t, d, hc₀, -, -, rfl⟩ := futureAbandoned_cases hs; exact update_none hc₀ hk
  | publish p kind name content =>
    simp only [step, publish] at hs
    split at hs
    · cases hs
    · split at hs
      · cases hs; exact hk
      · cases hs
  | publisherCancelled p =>
    simp only [step, publisherCancelled] at hs
    split at hs
    · cases hs
    · cases hs; exact hk
  | publisherEnds p o =>
    obtain ⟨q, r, -, ⟨-, rfl⟩ | ⟨e, -, -, rfl⟩⟩ := publisherEnds_cases hs
    · exact hk
    · exact failAwaitingRequests_none h _ hk
  | replyEnds content o =>
    obtain ⟨-, rfl⟩ | ⟨e, -, -, rfl⟩ := replyEnds_cases hs
    · exact hk
    · exact failAwaitingRequests_none h _ hk

end Atasks.Amqp
