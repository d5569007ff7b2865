import Atasks.Amqp.InFlight
/-!
# What holds of the in-flight table in every interleaving

The invariant `Inv` ties the three places in which a call leaves a mark: the table, the
future, the phase. It is kept by three kinds of move, and every event is one of them or a
sequence of them:

* `Inv.update`: one call changes, and the table at most loses that call's own entry;
* `Inv.fail`: `_fail_awaiting_requests` swaps the table out and completes what it held;
* `Inv.send`: a new call stores a new future under a new correlation id.

`inflight_table` states the result: an active call with a pending future can be reached
through the table, a finished call is not in it, no future is completed twice, and a call
whose publish failed does not stay waiting.
-/

namespace Atasks.Amqp

open Machine

/-! ## What one event can do -/

/-- The three shapes a publish leaves behind: the call waits, the call raises, or every
request in flight has been failed first. -/
theorem publishEnds_cases {s s' : State} {k : CallId} {o : PublishEnd}
    (h : publishEnds s k o = some s') :
    ∃ c, s.calls k = some c ∧ c.phase = .publishing ∧
      ((o = .ok ∧ s' = awaitFuture s k o) ∨
       (o = .raised .publishError ∧ s' = raiseFromPublish s k c o (.noRoute c.name)) ∨
       (o = .raised .cancelledError ∧ taskWasActuallyCancelled s c.cancelling = true ∧
          s' = raiseFromPublish s k c o .cancelled) ∨
       ∃ e, o = .raised e ∧ e ≠ .publishError ∧
          (e = .cancelledError → taskWasActuallyCancelled s c.cancelling = false) ∧
          s' = awaitFuture (failAwaitingRequests s (some e)) k o) := by
  unfold publishEnds at h
  split at h
  · cases h
  · rename_i c hc
    refine ⟨c, hc, ?_⟩
    split at h
    · rename_i hp
      refine ⟨hp.1, ?_⟩
      split at h
      · cases h; exact Or.inl ⟨rfl, rfl⟩
      · cases h; exact Or.inr (Or.inl ⟨rfl, rfl⟩)
      · split at h
        · rename_i ht
          cases h; exact Or.inr (Or.inr (Or.inl ⟨rfl, ht, rfl⟩))
        · rename_i ht
          cases h
          exact Or.inr (Or.inr (Or.inr ⟨_, rfl, by simp, fun _ => by simpa using ht, rfl⟩))
      · rename_i e hne hnc
        cases h
        exact Or.inr
          (Or.inr (Or.inr ⟨e, rfl, fun he => hne (by rw [he]), fun he => absurd (by rw [he]) hnc,
          rfl⟩))
    · cases h

/-- A publisher leaves, `_fail_awaiting_requests` having run before or not. -/
theorem publisherEnds_cases {s s' : State} {p : Nat} {o : PublishEnd}
    (h : publisherEnds s p o = some s') :
    ∃ q r, s.publishers p = some q ∧
      ((Event.failure s (.publisherEnds p o) = none ∧ s' = publisherLeaves s p q r) ∨
       ∃ e, Event.failure s (.publisherEnds p o) = some (some e) ∧ o = .raised e ∧
        s' = publisherLeaves (failAwaitingRequests s (some e)) p q r) := by
  unfold publisherEnds at h
  split at h
  · cases h
  · rename_i q hq
    split at h
    · split at h
      · cases h; exact ⟨q, _, hq, Or.inl ⟨rfl, rfl⟩⟩
      · cases h; exact ⟨q, _, hq, Or.inl ⟨by simp [Event.failure, hq], rfl⟩⟩
      · split at h
        · rename_i ht
          cases h; exact ⟨q, _, hq, Or.inl ⟨by simp [Event.failure, hq, ht], rfl⟩⟩
        · rename_i ht
          cases h; exact ⟨q, _, hq, Or.inr ⟨_, by simp [Event.failure, hq, ht], rfl, rfl⟩⟩
      · rename_i e hne hnc _
        have hfail : Event.failure s (.publisherEnds p (.raised e)) = some (some e) := by
          simp only [Event.failure, hq]
          exact if_neg fun hor => hor.elim hne fun hc => hnc hc.1
        cases h
        exact ⟨q, _, hq, Or.inr ⟨_, hfail, rfl, rfl⟩⟩
    · cases h

theorem replyEnds_cases {s s' : State} {content : Option Bytes} {o : PublishEnd}
    (h : replyEnds s content o = some s') :
    (Event.failure s (.replyEnds content o) = none ∧ s' = s) ∨
      ∃ e, Event.failure s (.replyEnds content o) = some (some e) ∧ o = .raised e ∧
        s' = failAwaitingRequests s (some e) := by
  unfold replyEnds at h
  split at h
  · split at h
    · cases h; exact Or.inl ⟨rfl, rfl⟩
    · cases h; exact Or.inl ⟨by simp [Event.failure], rfl⟩
    · rename_i hne _
      cases h
      exact Or.inr ⟨_, if_neg hne, rfl, rfl⟩
  · cases h

theorem resume_cases {s s' : State} {k : CallId} {w : Wake} (h : resume s k w = some s') :
    ∃ c t d o, s.calls k = some c ∧ c.phase = .waiting t d ∧ c.future.done = true ∧
    c.wakeOutcome w = some o ∧
      s' = { (s.setCall k { c with phase := .finished o }) with
        awaitingRequests := s.awaitingRequests.pop c.correlationId } := by
  unfold resume at h
  split at h
  · cases h
  · rename_i c hc
    split at h
    · rename_i hw
      obtain ⟨hw, hd⟩ := hw
      unfold Call.isWaiting at hw
      split at hw
      · rename_i t d hp
        obtain ⟨o, ho, rfl⟩ := Option.map_eq_some_iff.1 h
        exact ⟨c, t, d, o, hc, hp, hd, ho, rfl⟩
      · cases hw
    · cases h

/-- Marking a call, by its timer or by `cancel()`, touches only that call's record. -/
theorem timeoutElapses_cases {s s' : State} {k : CallId} (h : timeoutElapses s k = some s') :
    ∃ c t d, s.calls k = some c ∧ c.phase = .waiting t d ∧ c.timeout.isSome = true ∧
      s' = s.setCall k { c with phase := .waiting true d } := by
  unfold timeoutElapses at h
  split at h
  · cases h
  · rename_i c hc
    split at h
    · rename_i t d hp
      split at h
      · rename_i ht
        cases h
        exact ⟨c, t, d, hc, hp, ht, rfl⟩
      · cases h
    · cases h

theorem taskCancelled_cases {s s' : State} {k : CallId} (h : taskCancelled s k = some s') :
    ∃ c, s.calls k = some c ∧
      ((c.phase = .publishing ∧ s' = s.setCall k { c with cancelling := c.cancelling + 1 }) ∨
       ∃ t d, c.phase = .waiting t d ∧
         s' = s.setCall k { c with cancelling := c.cancelling + 1, phase := .waiting t true }) := by
  unfold taskCancelled at h
  split at h
  · cases h
  · rename_i c hc
    refine ⟨c, hc, ?_⟩
    split at h
    · rename_i hp; cases h; exact Or.inl ⟨hp, rfl⟩
    · rename_i t d hp; cases h; exact Or.inr ⟨t, d, hp, rfl⟩
    · cases h

theorem futureAbandoned_cases {s s' : State} {k : CallId} (h : futureAbandoned s k = some s') :
    ∃ c t d, s.calls k = some c ∧ c.phase = .waiting t d ∧ (t || d) = true ∧
    s' = s.setCall k c.cancelFuture := by
  unfold futureAbandoned at h
  split at h
  · cases h
  · rename_i c hc
    split at h
    · rename_i t d hp
      split at h
      · rename_i htd; cases h; exact ⟨c, t, d, hc, hp, htd, rfl⟩
      · cases h
    · cases h

/-! ## `_fail_awaiting_requests` on one call -/

@[simp] theorem Call.fail_correlationId (c : Call) (cid : CorrelationId) (exc : Option Exc) :
    (c.fail cid exc).correlationId = c.correlationId := by
  unfold Call.fail; split <;> rfl

@[simp] theorem Call.fail_phase (c : Call) (cid : CorrelationId) (exc : Option Exc) :
    (c.fail cid exc).phase = c.phase := by
  unfold Call.fail; split <;> rfl

@[simp] theorem Call.fail_done (c : Call) (cid : CorrelationId) (exc : Option Exc) :
    (c.fail cid exc).future.done = true := by
  unfold Call.fail
  split
  · rfl
  · rename_i h; simpa using h

theorem Call.fail_of_done {c : Call} (h : c.future.done = true) (cid : CorrelationId)
    (exc : Option Exc) :
    c.fail cid exc = c := by
  simp [Call.fail, h]

/-- What `_fail_awaiting_requests` makes of call `k`, the table being `T`. -/
def Call.cleared (T : Dict CorrelationId CallId) (exc : Option Exc) (k : CallId)
    (c : Call) : Call :=
  if T.get? c.correlationId = some k then c.fail c.correlationId exc else c

theorem foldl_failOne (exc : Option Exc) (l : List (CorrelationId × CallId))
    (calls : CallId → Option Call) (k : CallId) :
    l.foldl (failOne exc) calls k =
      (calls k).map fun c => l.foldl (fun c p => if p.2 = k then c.fail p.1 exc else c) c := by
  induction l generalizing calls with
  | nil => simp
  | cons p l ih =>
    simp only [List.foldl_cons, ih, failOne]
    by_cases h : p.2 = k
    · subst h; simp [Function.comp_def]
    · simp [h, Function.update_of_ne (Ne.symm h)]

/-- Only the first round that meets a pending future does anything. -/
theorem foldl_fail_of_done (exc : Option Exc) (k : CallId) (l : List (CorrelationId × CallId))
    {c : Call} (h : c.future.done = true) :
    l.foldl (fun c p => if p.2 = k then c.fail p.1 exc else c) c = c := by
  induction l with
  | nil => rfl
  | cons p l ih => by_cases hp : p.2 = k <;> simp [hp, Call.fail_of_done h, ih]

theorem foldl_fail (exc : Option Exc) (k : CallId) (l : List (CorrelationId × CallId)) (c : Call)
    (hl : ∀ p ∈ l, p.2 = k → p.1 = c.correlationId) :
    l.foldl (fun c p => if p.2 = k then c.fail p.1 exc else c) c =
      if (c.correlationId, k) ∈ l then c.fail c.correlationId exc else c := by
  induction l with
  | nil => simp
  | cons p l ih =>
    obtain ⟨cid, k'⟩ := p
    have hl' : ∀ p ∈ l, p.2 = k → p.1 = c.correlationId :=
      fun p hp => hl p (List.mem_cons_of_mem _ hp)
    by_cases h : k' = k
    · subst h
      obtain rfl : cid = c.correlationId := hl (cid, k') (List.mem_cons_self ..) rfl
      simp [foldl_fail_of_done exc k' l (Call.fail_done c c.correlationId exc)]
    · have hne : (c.correlationId, k) ≠ (cid, k') :=
        fun e => h (by simpa using (congrArg Prod.snd e).symm)
      simp only [List.foldl_cons, h, if_false, ih hl', List.mem_cons, hne, false_or]

/-! ## The invariant -/

structure Inv (s : State) : Prop where
  /-- An entry leads to an unfinished call that uses its key. -/
  owned : ∀ cid k, s.awaitingRequests.get? cid = some k →
    ∃ c, s.calls k = some c ∧ c.correlationId = cid ∧ c.finished = false
  /-- An unfinished call with a pending future has its entry. -/
  entry : ∀ k c, s.calls k = some c → c.finished = false → c.future.done = false →
    s.awaitingRequests.get? c.correlationId = some k
  distinct : ∀ k k' c c', s.calls k = some c → s.calls k' = some c' →
    c.correlationId = c'.correlationId → k = k'
  issued : ∀ k c, s.calls k = some c → c.correlationId ∈ s.issued
  once : ∀ k c, s.calls k = some c → c.completions = if c.future.done then 1 else 0
  failed : ∀ k c e, s.calls k = some c → c.published = some (.raised e) → c.finished = true ∨
    c.future.done = true
  unpublished : ∀ k c, s.calls k = some c → c.phase = .publishing → c.published = none
  /-- Only a call that was cancelled or timed out has its future cancelled. -/
  abandoned : ∀ k c, s.calls k = some c → c.future = .cancelled → c.finished = true ∨
    ∃ t d, c.phase = .waiting t d ∧ (t || d) = true

theorem inv_init (b : Bool) : Inv (State.init b) := by
  refine ⟨?_, ?_, ?_, ?_, ?_, ?_, ?_, ?_⟩ <;> intros <;> contradiction

/-- Fields the invariant does not read may change freely. -/
theorem Inv.congr {s s' : State} (h : Inv s) (ht : s'.awaitingRequests = s.awaitingRequests)
    (hc : s'.calls = s.calls) (hi : s'.issued = s.issued) : Inv s' := by
  obtain ⟨h1, h2, h3, h4, h5, h6, h7, h8⟩ := h
  constructor <;> simp only [ht, hc, hi] <;> assumption

/-- A finished call is not in the table. -/
theorem Inv.not_awaiting {s : State} (h : Inv s) {k : CallId} {c : Call} (hc : s.calls k = some c)
    (hf : c.finished = true) : s.awaitingRequests.get? c.correlationId = none := by
  cases hg : s.awaitingRequests.get? c.correlationId with
  | none => rfl
  | some k' =>
    obtain ⟨c', hc', hcid, hf'⟩ := h.owned _ _ hg
    obtain rfl := h.distinct k' k c' c hc' hc hcid
    rw [hc] at hc'
    cases hc'
    rw [hf] at hf'
    cases hf'

/-- What a call must satisfy by itself. -/
structure Call.Ok (c : Call) : Prop where
  once : c.completions = if c.future.done then 1 else 0
  failed : ∀ e, c.published = some (.raised e) → c.finished = true ∨ c.future.done = true
  unpublished : c.phase = .publishing → c.published = none
  abandoned : c.future = .cancelled → c.finished = true ∨ ∃ t d,
    c.phase = .waiting t d ∧ (t || d) = true

theorem Inv.ok {s : State} (h : Inv s) {k : CallId} {c : Call} (hc : s.calls k = some c) : c.Ok :=
  ⟨h.once k c hc, fun e => h.failed k c e hc, h.unpublished k c hc, h.abandoned k c hc⟩

/-- One call changes. Its own entry may be popped, if it is then finished or its future done;
a finished call must have it popped. -/
theorem Inv.update {s s' : State} (h : Inv s) {k : CallId} {c : Call} (c' : Call)
    (hc : s.calls k = some c)
    (hcalls : s'.calls = Function.update s.calls k (some c')) (hi : s'.issued = s.issued)
    (hcid : c'.correlationId = c.correlationId) (hok : c'.Ok)
    (hother : ∀ cid, cid ≠ c.correlationId →
      s'.awaitingRequests.get? cid = s.awaitingRequests.get? cid)
    (hself : (s'.awaitingRequests.get? c.correlationId = none ∧
      (c'.finished = true ∨ c'.future.done = true)) ∨
      (s'.awaitingRequests.get? c.correlationId = s.awaitingRequests.get? c.correlationId ∧
        c.finished = false ∧ c'.finished = false ∧
        (c'.future.done = false → c.future.done = false))) :
    Inv s' := by
  have look : ∀ k' d, s'.calls k' = some d → (k' = k ∧ d = c') ∨
      (k' ≠ k ∧ s.calls k' = some d) := by
    intro k' d hd
    rw [hcalls] at hd
    exact Dict.lookup_update hd
  have each : ∀ k' d, s'.calls k' = some d → d.Ok := by
    intro k' d hd
    rcases look k' d hd with ⟨rfl, rfl⟩ | ⟨_, hd'⟩
    · exact hok
    · exact h.ok hd'
  refine ⟨?_, ?_, ?_, ?_, fun k' d hd => (each k' d hd).once, fun k' d e hd =>
    (each k' d hd).failed e,
    fun k' d hd => (each k' d hd).unpublished, fun k' d hd => (each k' d hd).abandoned⟩
  · intro cid k' hg
    by_cases hck : cid = c.correlationId
    · subst hck
      rcases hself with ⟨hn, _⟩ | ⟨heq, hf, hf', _⟩
      · rw [hn] at hg; cases hg
      · rw [heq] at hg
        obtain ⟨d, hd, hdc, _⟩ := h.owned _ _ hg
        obtain rfl := h.distinct k' k d c hd hc hdc
        exact ⟨c', by rw [hcalls, Function.update_self], hcid, hf'⟩
    · rw [hother cid hck] at hg
      obtain ⟨d, hd, hdc, hdf⟩ := h.owned _ _ hg
      refine ⟨d, ?_, hdc, hdf⟩
      rw [hcalls, Function.update_of_ne ?_]
      · exact hd
      · rintro rfl
        rw [hc] at hd
        cases hd
        exact hck hdc.symm
  · intro k' d hd hdf hdp
    rcases look k' d hd with ⟨rfl, rfl⟩ | ⟨hk, hd'⟩
    · rcases hself with ⟨_, hor⟩ | ⟨heq, hf, _, hp⟩
      · simp [hdf, hdp] at hor
      · rw [hcid, heq]
        exact h.entry _ c hc hf (hp hdp)
    · rw [hother d.correlationId fun e => hk (h.distinct k' k d c hd' hc e)]
      exact h.entry k' d hd' hdf hdp
  · intro k₁ k₂ d₁ d₂ h₁ h₂ he
    rcases look k₁ d₁ h₁ with ⟨rfl, rfl⟩ | ⟨hk₁, h₁'⟩ <;> rcases look k₂ d₂ h₂
      with ⟨rfl, rfl⟩ | ⟨hk₂, h₂'⟩
    · rfl
    · exact h.distinct _ _ c d₂ hc h₂' (hcid ▸ he)
    · exact h.distinct _ _ d₁ c h₁' hc (hcid ▸ he)
    · exact h.distinct _ _ d₁ d₂ h₁' h₂' he
  · intro k' d hd
    rw [hi]
    rcases look k' d hd with ⟨rfl, rfl⟩ | ⟨_, hd'⟩
    · rw [hcid]; exact h.issued _ c hc
    · exact h.issued k' d hd'

/-! ### `_fail_awaiting_requests` -/

@[simp] theorem failAwaitingRequests_issued (s : State) (exc : Option Exc) :
    (failAwaitingRequests s exc).issued = s.issued := by
  unfold failAwaitingRequests; split <;> rfl

/-- The table that `_fail_awaiting_requests` leaves is empty. -/
@[simp] theorem failAwaitingRequests_get? (s : State) (exc : Option Exc) (cid : CorrelationId) :
    (failAwaitingRequests s exc).awaitingRequests.get? cid = none := by
  unfold failAwaitingRequests
  split
  · rename_i h
    have h' : s.awaitingRequests.items = [] := by simpa using h
    simp [Dict.get?, h']
  · rfl

theorem failAwaitingRequests_calls {s : State} (h : Inv s) (exc : Option Exc) (k : CallId) :
    (failAwaitingRequests s exc).calls k = (s.calls k).map
    (Call.cleared s.awaitingRequests exc k) := by
  unfold failAwaitingRequests
  split
  · rename_i he
    have he' : s.awaitingRequests.items = [] := by simpa using he
    have hn : ∀ cid, s.awaitingRequests.get? cid = none := fun cid => by simp [Dict.get?, he']
    cases hc : s.calls k <;> simp [Call.cleared, hn]
  · show s.awaitingRequests.items.foldl (failOne exc) s.calls k = _
    rw [foldl_failOne]
    cases hc : s.calls k with
    | none => rfl
    | some c =>
      have hl : ∀ p ∈ s.awaitingRequests.items, p.2 = k → p.1 = c.correlationId := by
        rintro ⟨cid, k'⟩ hp rfl
        obtain ⟨c', hc', hcid, _⟩ := h.owned cid k' ((Dict.mem_items_iff _ _ _).1 hp)
        rw [hc] at hc'
        cases hc'
        exact hcid.symm
      simp only [Option.map_some, Call.cleared, foldl_fail exc k _ c hl, Dict.mem_items_iff]

theorem Call.Ok.fail {c : Call} (h : c.Ok) (cid : CorrelationId) (exc : Option Exc) :
    (c.fail cid exc).Ok := by
  by_cases hd : c.future.done = true
  · rw [Call.fail_of_done hd]; exact h
  · have hp : c.completions = 0 := by simpa [hd] using h.once
    have he : c.fail cid exc = c.complete (.exception (.connectionLost cid exc)) := by
      simp [Call.fail, hd]
    rw [he]
    refine ⟨by simp [Call.complete, Future.done, hp], fun e _ => Or.inr rfl, h.unpublished,
      fun hc => ?_⟩
    simp [Call.complete] at hc

theorem Inv.fail {s : State} (h : Inv s) (exc : Option Exc) : Inv (failAwaitingRequests s exc) := by
  have look : ∀ k d, (failAwaitingRequests s exc).calls k = some d →
      ∃ c, s.calls k = some c ∧ d = c.cleared s.awaitingRequests exc k := by
    intro k d hd
    rw [failAwaitingRequests_calls h] at hd
    obtain ⟨c, hc, rfl⟩ := Option.map_eq_some_iff.1 hd
    exact ⟨c, hc, rfl⟩
  have cid : ∀ k c, (Call.cleared s.awaitingRequests exc k c).correlationId = c.correlationId := by
    intro k c; unfold Call.cleared; split <;> simp
  have ok : ∀ k d, (failAwaitingRequests s exc).calls k = some d → d.Ok := by
    intro k d hd
    obtain ⟨c, hc, rfl⟩ := look k d hd
    unfold Call.cleared
    split
    · exact (h.ok hc).fail _ _
    · exact h.ok hc
  refine ⟨fun cid k hg => by simp at hg, ?_, ?_, ?_, fun k d hd => (ok k d hd).once,
    fun k d e hd => (ok k d hd).failed e, fun k d hd => (ok k d hd).unpublished, fun k d hd =>
      (ok k d hd).abandoned⟩
  · intro k d hd hf hp
    obtain ⟨c, hc, rfl⟩ := look k d hd
    -- a pending future had its entry, so it has just been failed
    exfalso
    unfold Call.cleared at hf hp
    split at hp
    · simp at hp
    · rename_i hne
      rw [if_neg hne] at hf
      exact hne (h.entry k c hc hf hp)
  · intro k k' d d' hd hd' he
    obtain ⟨c, hc, rfl⟩ := look k d hd
    obtain ⟨c', hc', rfl⟩ := look k' d' hd'
    rw [cid, cid] at he
    exact h.distinct k k' c c' hc hc' he
  · intro k d hd
    obtain ⟨c, hc, rfl⟩ := look k d hd
    rw [cid, failAwaitingRequests_issued]
    exact h.issued k c hc

/-! ### Every event keeps it -/

theorem Inv.send {s s' : State} (h : Inv s) {k : CallId} {name : String} {content : Option Bytes}
    {timeout : Option Nat} {cid : CorrelationId}
    (hs : sendRequest s k name content timeout cid = some s') : Inv s' := by
  unfold sendRequest at hs
  split at hs
  · rename_i hg
    obtain ⟨-, hk, hnew⟩ := hg
    cases hs
    have fresh : ∀ k' d, s.calls k' = some d → d.correlationId ≠ cid := fun k' d hd he =>
      hnew (he ▸ h.issued k' d hd)
    have each : ∀ k' d, Function.update s.calls k (some (Call.sent name content timeout cid)) k' =
      some d →
        d.Ok := by
      intro k' d hd
      rcases Dict.lookup_update hd with ⟨rfl, rfl⟩ | ⟨_, hd'⟩
      · exact ⟨rfl, fun e he => by simp [Call.sent] at he, fun _ => rfl,
          fun he => by simp [Call.sent] at he⟩
      · exact h.ok hd'
    refine ⟨?_, ?_, ?_, ?_, fun k' d hd => (each k' d hd).once, fun k' d e hd =>
      (each k' d hd).failed e,
      fun k' d hd => (each k' d hd).unpublished, fun k' d hd => (each k' d hd).abandoned⟩
    · intro cid' k' hget
      rw [Dict.get?_set] at hget
      split at hget
      · rename_i he
        cases hget
        exact ⟨_, Function.update_self .., he.symm, rfl⟩
      · obtain ⟨d, hd, hdc, hdf⟩ := h.owned cid' k' hget
        refine ⟨d, ?_, hdc, hdf⟩
        show Function.update s.calls k _ k' = _
        rw [Function.update_of_ne]
        · exact hd
        · rintro rfl; rw [hk] at hd; cases hd
    · intro k' d hd hdf hdp
      show (s.awaitingRequests.set cid k).get? _ = _
      rcases Dict.lookup_update hd with ⟨rfl, rfl⟩ | ⟨_, hd'⟩
      · simp [Call.sent]
      · rw [Dict.get?_set, if_neg (fresh k' d hd')]
        exact h.entry k' d hd' hdf hdp
    · intro k₁ k₂ d₁ d₂ h₁ h₂ he
      rcases Dict.lookup_update h₁ with ⟨rfl, rfl⟩ | ⟨_, h₁'⟩ <;> rcases Dict.lookup_update h₂
        with ⟨rfl, rfl⟩ | ⟨_, h₂'⟩
      · rfl
      · exact absurd he.symm (fresh _ d₂ h₂')
      · exact absurd he (fresh _ d₁ h₁')
      · exact h.distinct _ _ d₁ d₂ h₁' h₂' he
    · intro k' d hd
      rcases Dict.lookup_update hd with ⟨rfl, rfl⟩ | ⟨_, hd'⟩
      · exact List.mem_cons_self ..
      · exact List.mem_cons_of_mem _ (h.issued k' d hd')
  · cases hs

/-- The publish over, the call waits; if the publish failed its future is done by now. -/
theorem Inv.awaitFuture {s : State} (h : Inv s) {k : CallId} {c : Call} (hc : s.calls k = some c)
    (hp : c.phase = .publishing) {o : PublishEnd} (ho : o = .ok ∨ c.future.done = true) :
    Inv (awaitFuture s k o) := by
  have hf : c.finished = false := by simp [Call.finished, hp]
  refine h.update { c with published := some o, phase := .waiting false false } hc ?_ rfl rfl ?_
    (fun _ _ => rfl) (Or.inr ⟨rfl, hf, rfl, id⟩)
  · simp [Amqp.awaitFuture, hc]
  · refine ⟨h.once k c hc, fun e he => Or.inr ?_, fun hpub => by simp at hpub, fun hcan => ?_⟩
    · rcases ho with rfl | hd
      · simp at he
      · exact hd
    · rcases h.abandoned k c hc hcan with hfin | ⟨t, d, hw, _⟩
      · rw [hf] at hfin; cases hfin
      · rw [hp] at hw; cases hw

theorem Inv.raiseFromPublish {s : State} (h : Inv s) {k : CallId} {c : Call}
    (hc : s.calls k = some c) (o : PublishEnd) (e : Error) : Inv (raiseFromPublish s k c o e) := by
  refine h.update { c with published := some o, phase := .finished (.raised e) } hc rfl rfl rfl ?_
    (fun cid hcid => by simp [Amqp.raiseFromPublish, Dict.get?_pop, hcid])
    (Or.inl ⟨by simp [Amqp.raiseFromPublish], Or.inl rfl⟩)
  exact ⟨h.once k c hc, fun _ _ => Or.inl rfl, fun hpub => by simp at hpub, fun _ => Or.inl rfl⟩

theorem Inv.publishEnds {s s' : State} (h : Inv s) {k : CallId} {o : PublishEnd}
    (hs : publishEnds s k o = some s') : Inv s' := by
  obtain ⟨c, hc, hp, hcase⟩ := publishEnds_cases hs
  rcases hcase with ⟨ho, rfl⟩ | ⟨-, rfl⟩ | ⟨-, -, rfl⟩ | ⟨e, -, -, -, rfl⟩
  · exact h.awaitFuture hc hp (Or.inl ho)
  · exact h.raiseFromPublish hc _ _
  · exact h.raiseFromPublish hc _ _
  · have hc' : (failAwaitingRequests s (some e)).calls k =
        some (c.cleared s.awaitingRequests (some e) k) := by
      rw [failAwaitingRequests_calls h, hc]; rfl
    refine (h.fail (some e)).awaitFuture hc' ?_ (Or.inr ?_)
    · unfold Call.cleared; split <;> simp [hp]
    · unfold Call.cleared
      split
      · simp
      · rename_i hne
        by_contra hd
        exact hne (h.entry k c hc (by simp [Call.finished, hp]) (by simpa using hd))

theorem Inv.resume {s s' : State} (h : Inv s) {k : CallId} {w : Wake}
    (hs : resume s k w = some s') : Inv s' := by
  obtain ⟨c, t, d, o, hc, hw, hd, -, rfl⟩ := resume_cases hs
  refine h.update { c with phase := .finished o } hc rfl rfl rfl ?_
    (fun cid hcid => by simp [Dict.get?_pop, hcid]) (Or.inl ⟨by simp, Or.inl rfl⟩)
  exact ⟨h.once k c hc, fun _ _ => Or.inl rfl, fun hpub => by simp at hpub, fun _ => Or.inl rfl⟩

theorem Inv.response {s : State} (h : Inv s) (cid : Option CorrelationId) (body : Bytes) :
    Inv (onResponseMessage s cid body) := by
  unfold onResponseMessage
  split
  · exact h
  · rename_i cid
    split
    · exact h
    · rename_i k hget
      obtain ⟨c, hc, rfl, hf⟩ := h.owned cid k hget
      by_cases hd : c.future.done = true
      · -- a response to a call that has already given up
        refine h.update c hc (by simp [hc, hd]) rfl rfl (h.ok hc)
          (fun cid hcid => by simp [Dict.get?_pop, hcid]) (Or.inl ⟨by simp, Or.inr hd⟩)
      · have h0 : c.completions = 0 := by simpa [hd] using h.once k c hc
        refine h.update (c.complete (.result body)) hc (by simp [hc, hd]) rfl rfl ?_
          (fun cid hcid => by simp [Dict.get?_pop, hcid]) (Or.inl ⟨by simp, Or.inr rfl⟩)
        exact ⟨by simp [Call.complete, Future.done, h0], fun _ _ => Or.inr rfl,
          h.unpublished k c hc,
          fun hcan => by simp [Call.complete] at hcan⟩

/-- Marks on a call, as its timer or `cancel()` leave them, concern nothing else. -/
theorem Inv.mark {s : State} (h : Inv s) {k : CallId} {c : Call} (c' : Call)
    (hc : s.calls k = some c)
    (hcid : c'.correlationId = c.correlationId) (hfut : c'.future = c.future)
    (hcomp : c'.completions = c.completions)
    (hpub : c'.published = c.published) (hf : c.finished = false) (hf' : c'.finished = false)
    (hphase : c'.phase = .publishing → c.phase = .publishing)
    (hmark : ∀ t d, c.phase = .waiting t d → (t || d) = true → ∃ t' d', c'.phase = .waiting t' d' ∧
      (t' || d') = true) :
    Inv (s.setCall k c') := by
  refine h.update c' hc rfl rfl hcid ?_ (fun _ _ => rfl)
    (Or.inr ⟨rfl, hf, hf', fun hd => hfut ▸ hd⟩)
  refine ⟨by rw [hcomp, hfut]; exact h.once k c hc, fun e he => ?_, fun hp => ?_, fun hcan => ?_⟩
  · rw [hpub] at he
    rw [hfut]
    exact (h.failed k c e hc he).imp (fun hx => by rw [hf] at hx; cases hx) id
  · rw [hpub]; exact h.unpublished k c hc (hphase hp)
  · rw [hfut] at hcan
    rcases h.abandoned k c hc hcan with hx | ⟨t, d, hw, htd⟩
    · rw [hf] at hx; cases hx
    · exact Or.inr (hmark t d hw htd)

theorem Inv.timeoutElapses {s s' : State} (h : Inv s) {k : CallId}
    (hs : timeoutElapses s k = some s') : Inv s' := by
  obtain ⟨c, t, d, hc, hw, -, rfl⟩ := timeoutElapses_cases hs
  exact h.mark { c with phase := .waiting true d } hc rfl rfl rfl rfl
    (by simp [Call.finished, hw]) rfl
    (fun hp => by simp at hp) (fun _ _ _ _ => ⟨true, d, rfl, rfl⟩)

theorem Inv.taskCancelled {s s' : State} (h : Inv s) {k : CallId}
    (hs : taskCancelled s k = some s') : Inv s' := by
  obtain ⟨c, hc, ⟨hp, rfl⟩ | ⟨t, d, hw, rfl⟩⟩ := taskCancelled_cases hs
  · exact h.mark { c with cancelling := c.cancelling + 1 } hc rfl rfl rfl rfl
      (by simp [Call.finished, hp])
      (by simp [Call.finished, hp]) id (fun t d hw htd => ⟨t, d, hw, htd⟩)
  · exact h.mark { c with cancelling := c.cancelling + 1, phase := .waiting t true } hc rfl rfl rfl rfl
      (by simp [Call.finished, hw]) rfl (fun hp => by simp at hp)
        (fun _ _ _ _ => ⟨t, true, rfl, by simp⟩)

theorem Inv.futureAbandoned {s s' : State} (h : Inv s) {k : CallId}
    (hs : futureAbandoned s k = some s') : Inv s' := by
  obtain ⟨c, t, d, hc, hw, htd, rfl⟩ := futureAbandoned_cases hs
  have hf : c.finished = false := by simp [Call.finished, hw]
  by_cases hd : c.future.done = true
  · have he : c.cancelFuture = c := by simp [Call.cancelFuture, hd]
    rw [he]
    exact h.update _ hc rfl rfl rfl (h.ok hc) (fun _ _ => rfl) (Or.inr ⟨rfl, hf, hf, id⟩)
  · have h0 : c.completions = 0 := by simpa [hd] using h.once k c hc
    have he : c.cancelFuture = c.complete .cancelled := by simp [Call.cancelFuture, hd]
    rw [he]
    refine h.update _ hc rfl rfl rfl ?_ (fun _ _ => rfl)
      (Or.inr ⟨rfl, hf, hf, fun hx => by cases hx⟩)
    exact ⟨by simp [Call.complete, Future.done, h0], fun _ _ => Or.inr rfl, h.unpublished k c hc,
      fun _ => Or.inr ⟨t, d, hw, htd⟩⟩

theorem Inv.publisherLeaves {s : State} (h : Inv s) (p : Nat) (q : Publisher)
    (r : Except Error Unit) :
    Inv (publisherLeaves s p q r) := h.congr rfl rfl rfl

/-- **Every event keeps the invariant.** -/
theorem Inv.step {s s' : State} (h : Inv s) (e : Event) (hs : step s e = some s') : Inv s' := by
  cases e with
  | sendRequest k name content timeout cid => exact h.send hs
  | publishEnds k o => exact h.publishEnds hs
  | resume k w => exact h.resume hs
  | response cid body => cases hs; exact h.response cid body
  | connectionClosed exc => cases hs; exact (h.fail exc).congr rfl rfl rfl
  | reconnected => cases hs; exact h.congr rfl rfl rfl
  | timeoutElapses k => exact h.timeoutElapses hs
  | taskCancelled k => exact h.taskCancelled hs
  | futureAbandoned k => exact h.futureAbandoned hs
  | publish p kind name content =>
    simp only [Amqp.step, publish] at hs
    split at hs
    · cases hs
    · split at hs
      · cases hs; exact h.congr rfl rfl rfl
      · cases hs
  | publisherCancelled p =>
    simp only [Amqp.step, publisherCancelled] at hs
    split at hs
    · cases hs
    · cases hs; exact h.congr rfl rfl rfl
  | publisherEnds p o =>
    obtain ⟨q, r, -, ⟨-, rfl⟩ | ⟨e, -, -, rfl⟩⟩ := publisherEnds_cases hs
    · exact h.publisherLeaves p q r
    · exact (h.fail _).publisherLeaves p q r
  | replyEnds content o =>
    obtain ⟨-, rfl⟩ | ⟨e, -, -, rfl⟩ := replyEnds_cases hs
    · exact h
    · exact h.fail _

theorem reachable_inv {b : Bool} {s : State} (h : Reachable step (State.init b) s) : Inv s :=
  h.invariant (fun _ e _ hi he => hi.step e he) (inv_init b)

/-! ## The table theorem -/

/-- The four things callers rely on. -/
structure TableOk (s : State) : Prop where
  /-- (a) a response or a connection loss can still reach an active call with a pending future -/
  reachable : ∀ k c, s.calls k = some c → c.finished = false → c.future = .pending →
    s.awaitingRequests.get? c.correlationId = some k
  /-- (b) a call that has returned or raised is not in the table -/
  released : ∀ k c, s.calls k = some c → c.finished = true →
    s.awaitingRequests.get? c.correlationId = none
  /-- (c) a future is completed once at most, and exactly when it is done -/
  once : ∀ k c, s.calls k = some c → c.completions ≤ 1 ∧ (c.future.done = true ↔ c.completions = 1)
  /-- (d) a call whose publish raised is over, or its future is done and waking it ends it -/
  failed : ∀ k c e, s.calls k = some c → c.published = some (.raised e) →
    c.finished = true ∨ (c.future.done = true ∧ ∃ w s' c', step s (.resume k w) = some s' ∧
      s'.calls k = some c' ∧
      c'.finished = true)

/-- A waiting call whose future is done can be woken, and is then over. -/
theorem Inv.resumes {s : State} (h : Inv s) {k : CallId} {c : Call} (hc : s.calls k = some c)
    (hw : c.isWaiting = true) (hd : c.future.done = true) :
    ∃ w s' c', Amqp.step s (.resume k w) = some s' ∧ s'.calls k = some c' ∧ c'.finished = true := by
  have woken : ∀ w o, c.wakeOutcome w = some o →
      ∃ w s' c', Amqp.step s (.resume k w) = some s' ∧ s'.calls k = some c' ∧
        c'.finished = true := by
    intro w o ho
    refine ⟨w, { (s.setCall k { c with phase := .finished o }) with
      awaitingRequests := s.awaitingRequests.pop c.correlationId }, { c with phase := .finished o },
        ?_, ?_, rfl⟩
    · simp [Amqp.step, Amqp.resume, hc, hw, hd, ho]
    · simp [State.setCall]
  cases hf : c.future with
  | pending => rw [hf] at hd; cases hd
  | result body => exact woken .future (.returned body) (by simp [Call.wakeOutcome, hf])
  | exception e => exact woken .future (.raised e) (by simp [Call.wakeOutcome, hf])
  | cancelled =>
    rcases h.abandoned k c hc hf with hx | ⟨t, d, hp, htd⟩
    · unfold Call.isWaiting at hw
      unfold Call.finished at hx
      split at hx
      · rename_i hp; simp [hp] at hw
      · cases hx
    · rcases Bool.or_eq_true_iff.1 htd with rfl | rfl
      · exact woken .timeout _ (by simp [Call.wakeOutcome, hp]; rfl)
      · exact woken .cancel _ (by simp [Call.wakeOutcome, hp]; rfl)

/-- **The in-flight table, in every reachable state of every interleaving.** -/
theorem inflight_table {b : Bool} {s : State} (h : Reachable step (State.init b) s) :
    TableOk s := by
  have hi := reachable_inv h
  refine ⟨fun k c hc hf hp => hi.entry k c hc hf (by rw [hp]; rfl), fun k c hc hf =>
    hi.not_awaiting hc hf,
    fun k c hc => ?_, fun k c e hc he => ?_⟩
  · have ho := hi.once k c hc
    cases hd : c.future.done <;> simp [hd] at ho <;> simp [ho]
  · cases hf : c.finished with
    | true => exact Or.inl rfl
    | false =>
      have hd := (hi.failed k c e hc he).resolve_left (by simp [hf])
      refine Or.inr ⟨hd, hi.resumes hc ?_ hd⟩
      cases hp : c.phase with
      | publishing => rw [hi.unpublished k c hc hp] at he; cases he
      | waiting t d => simp [Call.isWaiting, hp]
      | finished o => simp [Call.finished, hp] at hf

/-- Two calls; the second's publish fails once the first has been answered. -/
def demoRun : List Event :=
  [.sendRequest 0 "m.f" (some [1]) none 10, .publishEnds 0 .ok, .sendRequest 1 "m.g"
    (some [2]) (some 5) 11,
    .response (some 10) [7], .publishEnds 1 (.raised (.connectionError "closed")),
      .resume 0 .future]

theorem inflight_table_demo : ∃ s, run step (State.init true) demoRun = some s ∧ TableOk s :=
  ⟨_, rfl, inflight_table ⟨demoRun, rfl⟩⟩

end Atasks.Amqp
