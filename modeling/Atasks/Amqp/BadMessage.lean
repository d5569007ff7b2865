import Atasks.Amqp.Moves
/-!
# One bad message and the other callers

Every publish path ends in the same catch-all: whatever a publish raised, unless its
`except` ladder singles it out, `_fail_awaiting_requests` completes the whole table with
`ConnectionLostError`. That is right when the connection is gone. It is wrong when the
exception concerns just the one message: a body that is no bytes, because
`PickleCodec.encode` answered `None` (`atasks/codecs.py:68-75`), or a message the broker
refused. `ConnectionLostError` documents itself as raised "when the underlying transport
connection to the broker is lost" (`atasks/transport/base.py:56-69`), and the reply path
guards its call with a comment only, "and the connection just died" (`amqp.py:329-333`).

The same catch-all takes what is neither: a channel that is no longer valid, an attribute that
is not there, with the connection as good as before.

`bad_message_iff` says exactly which runs are unharmed: those in which no failure local to one
message reaches the catch-all while another request is in flight, and nothing but the
exceptions of a lost connection reaches it while any is.
-/

namespace Atasks.Amqp

open Machine

/-- Exceptions about the one message: the connection is as good as before. A message the
broker returned as unroutable is one too. -/
def Exc.isLocal : Exc → Bool
  | .messageBody | .deliveryError | .publishError => true
  | .other isLocal _ => isLocal
  | .cancelledError | .attributeError | .connectionError _ => false

/-- Exceptions by which aio-pika reports that the connection itself is gone. A bare
`CancelledError` is one of them: aiormq unblocks with it a write that can never complete
(`amqp.py:244-254`). `ChannelInvalidStateError` is none, a channel can be closed alone. -/
def Exc.ofConnection : Exc → Bool
  | .connectionError _ | .cancelledError => true
  | .messageBody | .deliveryError | .publishError | .attributeError | .other _ _ => false

/-- The exception a publish path got in this event. -/
def Event.publishRaised : Event → Option Exc
  | .publishEnds _ (.raised e) | .publisherEnds _ (.raised e) | .replyEnds _ (.raised e) => some e
  | _ => none

/-- The request whose own publish it is. -/
def Event.own : Event → Option CallId
  | .publishEnds k _ => some k
  | _ => none

/-- Still waiting to be answered. -/
def Call.inFlight (c : Call) : Bool := !c.finished && !c.future.done

/-- The connection is closed, is reported closed, or a publish found it gone. -/
def ConnectionLoss (s : State) (e : Event) : Prop :=
  s.closed = true ∨ (∃ exc, e = .connectionClosed exc) ∨
    ∃ x, e.publishRaised = some x ∧ x.ofConnection = true

/-- A failure local to one message leaves every other request in flight pending and in the
table. -/
def OthersKept (s : State) (e : Event) (s' : State) : Prop :=
  ∀ x, e.publishRaised = some x → x.isLocal = true → s.closed = false →
    ∀ k c, s.calls k = some c → c.inFlight = true → e.own ≠ some k →
      ∃ c', s'.calls k = some c' ∧ c'.future = .pending ∧
        s'.awaitingRequests.get? c'.correlationId = some k

/-- Only a lost connection fails a request with `ConnectionLostError`. -/
def OnlyLossFails (s : State) (e : Event) (s' : State) : Prop :=
  ∀ k c c' cid cause, s.calls k = some c → c.inFlight = true → s'.calls k = some c' →
    c'.future = .exception (.connectionLost cid cause) → ConnectionLoss s e

/-- No exception of the kind `bad` reaches the catch-all on a live connection while one of the
requests `P` is in flight. -/
def Quiet (bad : Exc → Bool) (P : Event → CallId → Prop) (s : State) (e : Event) : Prop :=
  ∀ x, e.publishRaised = some x → bad x = true → s.closed = false → e.failure s = some (some x) →
    ∀ k c, s.calls k = some c → P e k → c.inFlight = false

/-- No failure local to one message while another request is in flight. -/
abbrev QuietForOthers : State → Event → Prop := Quiet Exc.isLocal fun e k => e.own ≠ some k

/-- Nothing but a lost connection while any request is in flight. -/
abbrev QuietForAll : State → Event → Prop := Quiet (fun x => !x.ofConnection) fun _ _ => True

/-- `_fail_awaiting_requests` reaches everything in flight. -/
theorem failure_reaches {s s' : State} (h : Inv s) {e : Event} (hs : step s e = some s') {x : Exc}
    (he : e.failure s = some (some x)) (hx : e.publishRaised = some x) {k : CallId} {c : Call}
    (hc : s.calls k = some c) (hfl : c.inFlight = true) :
    ∃ c', s'.calls k = some c' ∧
    c'.future = .exception (.connectionLost c.correlationId (some x)) := by
  simp only [Call.inFlight, Bool.and_eq_true, Bool.not_eq_true'] at hfl
  have hget := h.entry k c hc hfl.1 hfl.2
  have hcl : c.cleared s.awaitingRequests (some x) k = c.complete
      (.exception (.connectionLost c.correlationId (some x))) := by
    simp [Call.cleared, hget, Call.fail, hfl.2]
  have hk : (failAwaitingRequests s (some x)).calls k =
      some (c.complete (.exception (.connectionLost c.correlationId (some x)))) := by
    rw [failAwaitingRequests_calls h, hc, Option.map_some, hcl]
  cases e with
  | publishEnds k₀ o =>
    obtain ⟨c₀, hc₀, -, ⟨rfl, rfl⟩ | ⟨rfl, rfl⟩ | ⟨rfl, ht, rfl⟩ | ⟨y, rfl, -, -, rfl⟩⟩ :=
      publishEnds_cases hs
    · cases hx
    · simp [Event.failure, hc₀] at he
    · simp [Event.failure, hc₀, ht] at he
    · cases hx
      by_cases hkk : k = k₀
      · subst hkk
        refine ⟨{ c.complete (.exception (.connectionLost c.correlationId (some x))) with
          published := some (.raised x), phase := .waiting false false }, ?_, rfl⟩
        simp only [awaitFuture, Function.update_self, hk, Option.map_some]
      · exact ⟨_, by simp only [awaitFuture, Function.update_of_ne hkk]; exact hk, rfl⟩
  | publisherEnds p o =>
    obtain ⟨q, r, -, ⟨hn, rfl⟩ | ⟨y, hy, -, rfl⟩⟩ := publisherEnds_cases hs
    · rw [hn] at he; cases he
    · rw [hy] at he
      cases he
      exact ⟨_, hk, rfl⟩
  | replyEnds content o =>
    obtain ⟨hn, rfl⟩ | ⟨y, hy, -, rfl⟩ := replyEnds_cases hs
    · rw [hn] at he; cases he
    · rw [hy] at he
      cases he
      exact ⟨_, hk, rfl⟩
  | _ => cases hx

/-- A local exception that the ladder singles out fails nobody. -/
theorem others_of_caught {s s' : State} (h : Inv s) {e : Event} (hs : step s e = some s') {x : Exc}
    (hx : e.publishRaised = some x) (he : e.failure s ≠ some (some x)) {k : CallId} {c : Call}
    (hc : s.calls k = some c) (hfl : c.inFlight = true) (hown : e.own ≠ some k) :
    ∃ c', s'.calls k = some c' ∧ c'.future = .pending ∧
    s'.awaitingRequests.get? c'.correlationId = some k := by
  simp only [Call.inFlight, Bool.and_eq_true, Bool.not_eq_true'] at hfl
  have hget := h.entry k c hc hfl.1 hfl.2
  have hpend : c.future = .pending := by cases hf : c.future <;> simp [hf, Future.done] at hfl ⊢
  cases e with
  | publishEnds k₀ o =>
    have hk : k ≠ k₀ := by rintro rfl; exact hown rfl
    have raised : ∀ c₀ y, s.calls k₀ = some c₀ → ∃ c',
      (raiseFromPublish s k₀ c₀ o y).calls k = some c' ∧
        c'.future = .pending ∧ (raiseFromPublish s k₀ c₀ o y).awaitingRequests.get?
          c'.correlationId = some k := by
      intro c₀ y hc₀
      refine ⟨c, by simp only [raiseFromPublish, Function.update_of_ne hk]; exact hc, hpend, ?_⟩
      simp only [raiseFromPublish, Dict.get?_pop]
      rw [if_neg fun heq => hk (h.distinct k k₀ c c₀ hc hc₀ heq)]
      exact hget
    obtain ⟨c₀, hc₀, -, ⟨rfl, rfl⟩ | ⟨rfl, rfl⟩ | ⟨rfl, ht, rfl⟩ | ⟨y, rfl, hne, hnc, rfl⟩⟩ :=
      publishEnds_cases hs
    · cases hx
    · exact raised c₀ _ hc₀
    · exact raised c₀ _ hc₀
    · cases hx
      refine absurd ?_ he
      simp only [Event.failure, hc₀, hne, false_or]
      exact if_neg fun hct => by rw [hnc hct.1] at hct; simp at hct
  | publisherEnds p o =>
    obtain ⟨q, r, -, ⟨hn, rfl⟩ | ⟨y, hy, rfl, rfl⟩⟩ := publisherEnds_cases hs
    · exact ⟨c, hc, hpend, hget⟩
    · cases hx; exact absurd hy he
  | replyEnds content o =>
    obtain ⟨hn, rfl⟩ | ⟨y, hy, rfl, rfl⟩ := replyEnds_cases hs
    · exact ⟨c, hc, hpend, hget⟩
    · cases hx; exact absurd hy he
  | _ => cases hx

/-- Where a failure with exception `exc` comes from. -/
theorem failure_origin {s : State} {e : Event} {exc : Option Exc} (he : e.failure s = some exc) :
    (∃ x, e = .connectionClosed x) ∨ ∃ x, exc = some x ∧ e.publishRaised = some x := by
  cases e with
  | connectionClosed x => exact Or.inl ⟨x, rfl⟩
  | publishEnds k o =>
    cases o with
    | ok => cases he
    | raised x =>
      simp only [Event.failure] at he
      split at he
      · split at he <;> cases he
        exact Or.inr ⟨x, rfl, rfl⟩
      · cases he
  | publisherEnds p o =>
    cases o with
    | ok => cases he
    | raised x =>
      simp only [Event.failure] at he
      split at he
      · split at he <;> cases he
        exact Or.inr ⟨x, rfl, rfl⟩
      · cases he
  | replyEnds content o =>
    cases o with
    | ok => cases he
    | raised x =>
      simp only [Event.failure] at he
      split at he <;> cases he
      exact Or.inr ⟨x, rfl, rfl⟩
  | _ => cases he

/-- **One step** keeps the others iff it fails locally while no other request is in flight. -/
theorem step_othersKept_iff {s s' : State} (h : Inv s) {e : Event} (hs : step s e = some s') :
    OthersKept s e s' ↔ QuietForOthers s e := by
  constructor
  · intro hkept x hx hloc hopen he k c hc hown
    by_contra hfl
    obtain ⟨c', hc', hf'⟩ := failure_reaches h hs he hx hc (by simpa using hfl)
    obtain ⟨d, hd, hp, -⟩ := hkept x hx hloc hopen k c hc (by simpa using hfl) hown
    rw [hc'] at hd
    cases hd
    rw [hf'] at hp
    cases hp
  · intro hq x hx hloc hopen k c hc hfl hown
    refine others_of_caught h hs hx (fun he => ?_) hc hfl hown
    rw [hq x hx hloc hopen he k c hc hown] at hfl
    cases hfl

/-- **One step** blames the connection rightly iff with a request in flight nothing but a lost
connection reaches the catch-all. -/
theorem step_onlyLossFails_iff {s s' : State} (h : Inv s) {e : Event} (hs : step s e = some s') :
    OnlyLossFails s e s' ↔ QuietForAll s e := by
  constructor
  · intro hlost x hx hbad hopen he k c hc _
    by_contra hfl
    have hfl' : c.inFlight = true := by simpa using hfl
    obtain ⟨c', hc', hf'⟩ := failure_reaches h hs he hx hc hfl'
    rcases hlost k c c' _ _ hc hfl' hc' hf' with hcl | ⟨exc, rfl⟩ | ⟨y, hy, hny⟩
    · rw [hopen] at hcl; cases hcl
    · cases hx
    · rw [hx] at hy
      cases hy
      simp [hny] at hbad
  · intro hq k c c' cid cause hc hfl hc' hf'
    obtain ⟨d, hd, hm⟩ := step_call h hs hc
    rw [hc'] at hd
    cases hd
    have hpend : c.future.done = false := by simp [Call.inFlight] at hfl; exact hfl.2
    cases hm.future with
    | kept h' => rw [h'] at hf'; rw [hf'] at hpend; cases hpend
    | answered body _ _ _ h' => rw [h'] at hf'; cases hf'
    | abandoned _ _ h' => rw [h'] at hf'; cases hf'
    | failed exc he hget _ h' =>
      rcases failure_origin he with ⟨x, rfl⟩ | ⟨x, rfl, hx⟩
      · exact Or.inr (Or.inl ⟨x, rfl⟩)
      · cases hconn : x.ofConnection with
        | true => exact Or.inr (Or.inr ⟨x, hx, hconn⟩)
        | false =>
          refine Or.inl ?_
          by_contra hopen
          have := hq x hx (by simp [hconn]) (by simpa using hopen) he k c hc trivial
          rw [this] at hfl
          cases hfl

/-- **The runs in which one bad message harms nobody else**: they keep the other requests iff
every local failure that reaches the catch-all finds no other request in flight, and they
blame the connection only when it is lost iff whatever else reaches it finds none at all. -/
theorem bad_message_iff (b : Bool) (es : List Event) :
    (Along step OthersKept (State.init b) es ↔
      Along step (fun s e _ => QuietForOthers s e) (State.init b) es) ∧
    (Along step OnlyLossFails (State.init b) es ↔
      Along step (fun s e _ => QuietForAll s e) (State.init b) es) :=
  ⟨along_congr (fun _ e _ (hi : Inv _) _ he => hi.step e he)
      (fun _ _ _ hi hs => step_othersKept_iff hi hs) es (inv_init b),
    along_congr (fun _ e _ (hi : Inv _) _ he => hi.step e he)
      (fun _ _ _ hi hs => step_onlyLossFails_iff hi hs) es (inv_init b)⟩

/-- A request is in flight when another one is sent with the body `None`. -/
def badBodyRun : List Event :=
  [.sendRequest 0 "m.f" (some [1]) none 10, .publishEnds 0 .ok, .sendRequest 1 "m.g" none none 11,
    .publishEnds 1 (.raised .messageBody)]

theorem bad_body_fails_other_request :
    ¬ Along step OthersKept (State.init true) badBodyRun ∧
    ¬ Along step OnlyLossFails (State.init true) badBodyRun := by
  constructor
  · intro h
    obtain ⟨c', hc', hf, -⟩ := ((((h _ rfl).2 _ rfl).2 _ rfl).2 _ rfl).1 .messageBody rfl rfl rfl 0
      _ rfl rfl (by decide)
    cases hc'
    cases hf
  · intro h
    rcases ((((h _ rfl).2 _ rfl).2 _ rfl).2 _ rfl).1 0 _ _ _ _ rfl rfl rfl rfl with hc | ⟨_, he⟩
      | ⟨x, hx, hl⟩
    · cases hc
    · cases he
    · cases hx
      cases hl

end Atasks.Amqp
