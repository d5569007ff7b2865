import Atasks.Loopback
import Atasks.Lib.Machine
/-!
# Messages through a `LoopbackTransport`

Any number of `send_request`, `publish_event` and `publish_broadcast` calls on one transport
(`atasks/transport/base.py:325-403`), in any interleaving with each other and with the
registrations of `Loopback`. A callback suspends where it likes, and may do all of that itself.

| here | there |
| --- | --- |
| `Sending`      | one call; `left` is what `for callback in callbacks` still has before it |
| `Event.call`   | `callback(content)` starts |
| `Event.ends`   | and ends; `timedOut` is what `asyncio.wait_for` does to it |
| `isTimeout`    | `except asyncio.TimeoutError`, which is not told from the callback's own |
| `subscribed`   | who is registered for a name, by the registrations alone |

`sent_to_subscribed`: a message goes to those who were subscribed when it was sent.
-/

namespace Atasks.Loopback

open Machine

/-- How a callback ends. -/
inductive CallbackEnd (ε : Type)
  | returned (response : Bytes)
  | raised (ex : ε)
  | timedOut
deriving DecidableEq, Repr

/-- How a call of the transport ends. A publish returns nothing. -/
inductive SendEnd (ε : Type)
  | returned (response : Option Bytes)
  | unknownRequestName (name : String)
  | requestTimeoutError (name : String)
  | raised (ex : ε)
deriving DecidableEq, Repr

structure Sending (γ ε : Type) where
  kind : Kind
  name : String
  content : Bytes
  /-- A `timeout` is given; only `send_request` takes one. -/
  timed : Bool
  /-- The callbacks that have been called, latest last. -/
  called : List γ
  running : Bool
  left : List γ
  ended : Option (SendEnd ε)
deriving DecidableEq, Repr

structure State (γ ε : Type) where
  connected : Bool
  loopback : Loopback γ
  sendings : Nat → Option (Sending γ ε)

inductive Event (γ ε : Type)
  | connect
  | disconnect
  | register (kind : Kind) (name : String) (callback : γ)
  | unregister (kind : Kind) (name : String)
  | send (i : Nat) (kind : Kind) (name : String) (content : Bytes) (timed : Bool)
  | call (i : Nat)
  | ends (i : Nat) (o : CallbackEnd ε)

variable {γ ε : Type}

namespace Sending

/-- Up to the first callback: the callbacks are those of this moment. -/
def begin (l : Loopback γ) (kind : Kind) (name : String) (content : Bytes) (timed : Bool) :
    Sending γ ε :=
  match l.callbacks kind name with
  | [] =>
    match kind with
    | .rpc => ⟨kind, name, content, timed, [], false, [], some (.unknownRequestName name)⟩
    | _ => ⟨kind, name, content, false, [], false, [], some (.returned none)⟩
  | callbacks => ⟨kind, name, content, timed && kind == .rpc, [], false, callbacks, none⟩

def call (u : Sending γ ε) : Option (Sending γ ε) :=
  match u.ended, u.running, u.left with
  | none, false, callback :: left =>
    some { u with called := u.called ++ [callback], running := true, left }
  | _, _, _ => none

/-- `asyncio.wait_for` may give up, or be cancelled, before the callback has started. -/
def ends (isTimeout : ε → Bool) (u : Sending γ ε) (o : CallbackEnd ε) : Option (Sending γ ε) :=
  match u.ended with
  | some _ => none
  | none =>
    match o with
    | .returned response =>
      if u.running then
        match u.left with
        | [] =>
          some { u with
            running := false, ended := some (.returned
              (if u.kind = .rpc then some response else none)) }
        | _ => some { u with running := false }
      else none
    | .raised ex =>
      if u.running || u.timed then
        some
          { u with
            running := false
            ended := some (if u.kind = .rpc ∧ isTimeout ex then .requestTimeoutError u.name
              else .raised ex) }
      else none
    | .timedOut =>
      if u.timed then
        some { u with running := false, ended := some (.requestTimeoutError u.name) } else none

end Sending

namespace State

def start : State γ ε := ⟨false, .empty, fun _ => none⟩

def setSending (s : State γ ε) (i : Nat) (u : Sending γ ε) : State γ ε :=
    { s with sendings := Function.update s.sendings i (some u) }

/-- A step of the `i`-th call. -/
def go (s : State γ ε) (i : Nat) (f : Sending γ ε → Option (Sending γ ε)) : Option (State γ ε) :=
  (s.sendings i).bind fun u => (f u).map (s.setSending i)

end State

/-- Whether the transport is connected makes no difference. -/
def step (isTimeout : ε → Bool) (s : State γ ε) : Event γ ε → Option (State γ ε)
  | .connect => some { s with connected := true }
  | .disconnect => some { s with connected := false }
  | .register kind name callback =>
    some { s with loopback := s.loopback.register kind name callback }
  | .unregister kind name => some { s with loopback := s.loopback.unregister kind name }
  | .send i kind name content timed =>
    match s.sendings i with
    | some _ => none
    | none => some (s.setSending i (.begin s.loopback kind name content timed))
  | .call i => s.go i Sending.call
  | .ends i o => s.go i fun u => u.ends isTimeout o

/-! ## Who is subscribed -/

/-- What an event makes of the subscribers of a name. -/
def Event.subscribes (kind : Kind) (name : String) (callbacks : List γ) : Event γ ε → List γ
  | .register kind' name' callback =>
    if kind' = kind ∧ name' = name then
      match kind with
      | .broadcast => callbacks ++ [callback]
      | _ => [callback]
    else callbacks
  | .unregister kind' name' => if kind' = kind ∧ name' = name then [] else callbacks
  | _ => callbacks

def subscribed (kind : Kind) (name : String) (es : List (Event γ ε)) : List γ :=
    es.foldl (Event.subscribes kind name) []

variable {isTimeout : ε → Bool} {s s' : State γ ε} {kind : Kind} {name : String}

theorem callbacks_register_eq (l : Loopback γ) (kind kind' : Kind) (name name' : String)
    (callback : γ) :
    (l.register kind' name' callback).callbacks kind name =
      Event.subscribes kind name (l.callbacks kind name)
      (.register kind' name' callback : Event γ ε) := by
  by_cases hname : name' = name
  · subst hname
    cases kind <;> cases kind' <;> simp [register, callbacks, Event.subscribes]
  · have hname' : name ≠ name' := fun h => hname h.symm
    cases kind <;> cases kind' <;> simp [register, callbacks, Event.subscribes, Dict.get?_set,
      hname, hname']

theorem callbacks_unregister_eq (l : Loopback γ) (kind kind' : Kind) (name name' : String) :
    (l.unregister kind' name').callbacks kind name =
      Event.subscribes kind name (l.callbacks kind name) (.unregister kind' name' : Event γ ε) := by
  rw [callbacks_unregister, Event.subscribes]
  exact if_congr (and_congr eq_comm eq_comm) rfl rfl

theorem go_eq_some {i : Nat} {f : Sending γ ε → Option (Sending γ ε)} (h : s.go i f = some s') :
    ∃ u u', s.sendings i = some u ∧ f u = some u' ∧ s' = s.setSending i u' := by
  obtain ⟨u, hu, h⟩ := Option.bind_eq_some_iff.1 h
  obtain ⟨u', hu', rfl⟩ := Option.map_eq_some_iff.1 h
  exact ⟨u, u', hu, hu', rfl⟩

theorem callbacks_step {e : Event γ ε} (h : step isTimeout s e = some s') :
    s'.loopback.callbacks kind name = e.subscribes kind name (s.loopback.callbacks kind name) := by
  cases e with
  | connect =>
    cases h
    rfl
  | disconnect =>
    cases h
    rfl
  | register kind' name' callback =>
    cases h
    exact callbacks_register_eq s.loopback kind kind' name name' callback
  | unregister kind' name' =>
    cases h
    exact callbacks_unregister_eq s.loopback kind kind' name name'
  | send i kind' name' content timed =>
    simp only [step] at h
    split at h <;> cases h
    rfl
  | call i =>
    obtain ⟨_, _, -, -, rfl⟩ := go_eq_some h
    rfl
  | ends i o =>
    obtain ⟨_, _, -, -, rfl⟩ := go_eq_some h
    rfl

/-- The transport holds who is subscribed. -/
theorem callbacks_run {es : List (Event γ ε)} (h : run (step isTimeout) .start es = some s) :
    s.loopback.callbacks kind name = subscribed kind name es := by
  induction es using List.reverseRecOn generalizing s with
  | nil =>
    cases h
    exact callbacks_empty kind name
  | append_singleton es e ih =>
    obtain ⟨m, hm, he⟩ := run_append_eq_some.1 h
    rw [run_singleton] at he
    rw [callbacks_step he, ih hm]
    simp [subscribed]

theorem length_subscribed_le (hkind : kind ≠ .broadcast) (es : List (Event γ ε)) :
    (subscribed kind name es).length ≤ 1 := by
  induction es using List.reverseRecOn with
  | nil => exact Nat.zero_le 1
  | append_singleton es e ih =>
    have hlast : subscribed kind name (es ++ [e]) = e.subscribes kind name
        (subscribed kind name es) := by
      simp [subscribed]
    rw [hlast, Event.subscribes.eq_def]
    split
    · split
      · cases kind with
        | broadcast => exact absurd rfl hkind
        | _ => exact Nat.le_refl 1
      · exact ih
    · split
      · exact Nat.zero_le 1
      · exact ih
    · exact ih

/-! ## One call -/

/-- Where a call for these callbacks may be. -/
structure Sending.Serves (u : Sending γ ε) (kind : Kind) (name : String) (content : Bytes)
    (callbacks : List γ) : Prop where
  sameKind : u.kind = kind
  sameName : u.name = name
  sameContent : u.content = content
  order : u.called ++ u.left = callbacks
  untimed : kind ≠ .rpc → u.timed = false
  returned : ∀ response, u.ended = some (.returned response) → u.left = []
  unknown : ∀ n, u.ended = some (.unknownRequestName n) ↔ n = name ∧ kind = .rpc ∧ callbacks = []
  timeout : ∀ n, u.ended = some (.requestTimeoutError n) → n = name ∧ kind = .rpc

theorem Sending.serves_begin (l : Loopback γ) (kind : Kind) (name : String) (content : Bytes)
    (timed : Bool) :
    (Sending.begin l kind name content timed : Sending γ ε).Serves kind name content
      (l.callbacks kind name) := by
  unfold Sending.begin
  split
  · rename_i hnone
    rw [hnone]
    cases kind with
    | rpc =>
      exact ⟨rfl, rfl, rfl, rfl, fun h => absurd rfl h, fun _ _ => rfl, by simp [eq_comm], by simp⟩
    | queue => exact ⟨rfl, rfl, rfl, rfl, fun _ => rfl, fun _ _ => rfl, by simp, by simp⟩
    | broadcast => exact ⟨rfl, rfl, rfl, rfl, fun _ => rfl, fun _ _ => rfl, by simp, by simp⟩
  · rename_i hsome
    exact ⟨rfl, rfl, rfl, rfl, fun hkind => by simp [hkind], by simp,
      fun n => by simpa using fun _ _ => hsome, by simp⟩

theorem Sending.Serves.call {u u' : Sending γ ε} {content : Bytes} {callbacks : List γ}
    (hu : u.Serves kind name content callbacks) (h : u.call = some u') :
    u'.Serves kind name content callbacks := by
  unfold Sending.call at h
  split at h
  · rename_i callback left hended _ hleft
    cases h
    have hcallbacks := hu.order
    rw [hleft] at hcallbacks
    refine ⟨hu.sameKind, hu.sameName, hu.sameContent, by simpa using hcallbacks, hu.untimed,
      fun _ hreturned => ?_, hu.unknown, hu.timeout⟩
    rw [hended] at hreturned
    cases hreturned
  · cases h

theorem Sending.Serves.ends {u u' : Sending γ ε} {content : Bytes} {callbacks : List γ}
    {o : CallbackEnd ε} (hu : u.Serves kind name content callbacks)
    (h : u.ends isTimeout o = some u') : u'.Serves kind name content callbacks := by
  unfold Sending.ends at h
  split at h
  · cases h
  · rename_i hended
    have hknown : ∀ n, ¬ (n = name ∧ kind = .rpc ∧ callbacks = []) := fun n hn => by
      have hsome := (hu.unknown n).2 hn
      rw [hended] at hsome
      cases hsome
    split at h
    · rename_i response
      obtain ⟨-, h⟩ := Option.ite_none_right_eq_some.1 h
      split at h
      · rename_i hleft
        cases h
        exact ⟨hu.sameKind, hu.sameName, hu.sameContent, hu.order, hu.untimed, fun _ _ => hleft,
          fun n => ⟨fun hn => (by cases hn), fun hn => absurd hn (hknown n)⟩, fun n hn =>
            (by cases hn)⟩
      · cases h
        exact ⟨hu.sameKind, hu.sameName, hu.sameContent, hu.order, hu.untimed, fun _ hreturned =>
          hu.returned _ hreturned, hu.unknown, hu.timeout⟩
    · rename_i ex
      obtain ⟨-, h⟩ := Option.ite_none_right_eq_some.1 h
      cases h
      refine ⟨hu.sameKind, hu.sameName, hu.sameContent, hu.order, hu.untimed, fun r hr => ?_,
        fun n => ⟨fun hn => ?_, fun hn => absurd hn (hknown n)⟩,
        fun n hn => ?_⟩
      · simp only [Option.some.injEq] at hr
        split at hr <;> cases hr
      · simp only [Option.some.injEq] at hn
        split at hn <;> cases hn
      · simp only [Option.some.injEq] at hn
        split at hn
        · rename_i htimeout
          cases hn
          exact ⟨hu.sameName, hu.sameKind ▸ htimeout.1⟩
        · cases hn
    · obtain ⟨htimed, h⟩ := Option.ite_none_right_eq_some.1 h
      cases h
      refine ⟨hu.sameKind, hu.sameName, hu.sameContent, hu.order, hu.untimed, fun r hr =>
        (by cases hr),
        fun n => ⟨fun hn => (by cases hn), fun hn => absurd hn (hknown n)⟩, fun n hn => ?_⟩
      cases hn
      refine ⟨hu.sameName, ?_⟩
      by_contra hkind
      rw [hu.untimed hkind] at htimed
      cases htimed

/-- Registrations do not reach a call that is under way. -/
theorem serves_step {i : Nat} {u : Sending γ ε} {content : Bytes} {callbacks : List γ}
    (hi : s.sendings i = some u) (hu : u.Serves kind name content callbacks) {e : Event γ ε}
    (h : step isTimeout s e = some s') :
    ∃ u', s'.sendings i = some u' ∧ u'.Serves kind name content callbacks := by
  have hset : ∀ j v, (j = i → v.Serves kind name content callbacks) →
      ∃ u', (s.setSending j v).sendings i = some u' ∧ u'.Serves kind name content callbacks := by
    intro j v hv
    by_cases hj : i = j
    · exact ⟨v, by simp [State.setSending, hj], hv hj.symm⟩
    · exact ⟨u, by simpa [State.setSending, hj] using hi, hu⟩
  cases e with
  | connect =>
    cases h
    exact ⟨u, hi, hu⟩
  | disconnect =>
    cases h
    exact ⟨u, hi, hu⟩
  | register kind' name' callback =>
    cases h
    exact ⟨u, hi, hu⟩
  | unregister kind' name' =>
    cases h
    exact ⟨u, hi, hu⟩
  | send j kind' name' content' timed =>
    simp only [step] at h
    split at h
    · cases h
    · rename_i hnone
      cases h
      refine hset j _ ?_
      rintro rfl
      rw [hi] at hnone
      cases hnone
  | call j =>
    obtain ⟨v, v', hv, hcall, rfl⟩ := go_eq_some h
    refine hset j v' ?_
    rintro rfl
    obtain rfl : u = v := Option.some.inj (hi.symm.trans hv)
    exact hu.call hcall
  | ends j o =>
    obtain ⟨v, v', hv, hends, rfl⟩ := go_eq_some h
    refine hset j v' ?_
    rintro rfl
    obtain rfl : u = v := Option.some.inj (hi.symm.trans hv)
    exact hu.ends hends

theorem serves_run {i : Nat} {content : Bytes} {callbacks : List γ} {es : List (Event γ ε)}
    (h : run (step isTimeout) s es = some s')
    (hs : ∃ u, s.sendings i = some u ∧ u.Serves kind name content callbacks) :
    ∃ u, s'.sendings i = some u ∧ u.Serves kind name content callbacks := by
  have hstep : ∀ t e t', (∃ u, t.sendings i = some u ∧ u.Serves kind name content callbacks) →
    step isTimeout t e = some t' →
      ∃ u, t'.sendings i = some u ∧ u.Serves kind name content callbacks := by
    rintro t e t' ⟨u, hi, hu⟩ ht
    exact serves_step hi hu ht
  exact run_invariant hstep es h hs

/-- **A message goes to those who were subscribed when it was sent**, in the order in which they
subscribed: to the first of them, and to all if the call returns. Whoever comes or goes meanwhile
makes no difference. A request is unknown exactly if nobody was there. -/
theorem sent_to_subscribed {before after : List (Event γ ε)} {i : Nat} {content : Bytes}
    {timed : Bool}
    (h : run (step isTimeout) .start (before ++ .send i kind name content timed :: after) =
      some s) :
    ∃ u, s.sendings i = some u ∧ u.content = content ∧ u.called <+: subscribed kind name before ∧
      (∀ response, u.ended = some (.returned response) → u.called = subscribed kind name before) ∧
      (∀ n, u.ended = some (.unknownRequestName n) ↔ n = name ∧ kind = .rpc ∧
        subscribed kind name before = []) ∧
      (∀ n, u.ended = some (.requestTimeoutError n) → n = name ∧ kind = .rpc) ∧
      (kind ≠ .broadcast → u.called.length ≤ 1) := by
  obtain ⟨m, hm, hrest⟩ := run_append_eq_some.1 h
  obtain ⟨m', hsend, hafter⟩ := run_cons_eq_some.1 hrest
  have hbegin : ∃ u, m'.sendings i = some u ∧ u.Serves kind name content
      (subscribed kind name before) := by
    simp only [step] at hsend
    split at hsend <;> cases hsend
    refine ⟨.begin m.loopback kind name content timed, by simp [State.setSending], ?_⟩
    rw [← callbacks_run hm]
    exact Sending.serves_begin m.loopback kind name content timed
  obtain ⟨u, hi, hu⟩ := serves_run hafter hbegin
  have hprefix : u.called <+: subscribed kind name before := ⟨u.left, hu.order⟩
  refine ⟨u, hi, hu.sameContent, hprefix, fun response hended => ?_, hu.unknown, hu.timeout,
    fun hkind => ?_⟩
  · have hcallbacks := hu.order
    rwa [hu.returned response hended, List.append_nil] at hcallbacks
  · exact Nat.le_trans hprefix.length_le (length_subscribed_le hkind before)

/-- Two subscribers that leave, and one that comes, while the first of them runs. -/
def leaving : List (Event Nat Unit) :=
  [.unregister .broadcast "m.f", .register .broadcast "m.f" 2, .ends 0 (.returned []), .call 0,
    .ends 0 (.returned [])]

theorem sent_to_subscribed_leaving : ∃ s u, run (step fun _ => false) .start
    ([.register .broadcast "m.f" 0, .register .broadcast "m.f" 1] ++ .send 0 .broadcast "m.f"
      [] false :: .call 0 :: leaving) = some s ∧
    s.sendings 0 = some u ∧ u.called = [0, 1] := by
  obtain ⟨u, hu, -, -, hreturned, -⟩ := @sent_to_subscribed Nat Unit
    (fun _ => false) _ .broadcast "m.f"
    [.register .broadcast "m.f" 0, .register .broadcast "m.f" 1] (.call 0 :: leaving) 0 [] false rfl
  obtain rfl := Option.some.inj hu
  exact ⟨_, _, rfl, rfl, hreturned none rfl⟩

end Atasks.Loopback
