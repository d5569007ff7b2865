import Atasks.Router.Recovery
/-!
# A router and the connection of its transport

`activate(t)`, `deactivate()` and registrations on a router, `connect()` and `disconnect()` on
its AMQP transport `t`, one after another, with a broker that never fails. The two objects
keep separate records of the subscriptions: `disconnect` forgets the consumers and the router
still takes itself to be active on `t`, so the next `activate(t)` returns at once
(`Router.activate`: `if self.server == server: return`).

A registration on a transport that is not connected raises, since there is no `_channel` to
declare the queue on (`AttributeError`); an unregistration then just drops its entries.

`serves_iff`: activation serves unless it is repeated on a stale server, that is one that was
disconnected, or whose activation failed, since the router took it.
-/

namespace Atasks.Router

open Machine
open Amqp (Consumers)
open Amqp.Consumers (Keeps Failure without mem_without)

variable {α : Type}

structure Linked (α : Type) where
  router : State α
  /-- The `activate` or `deactivate` under way. -/
  current : Option TaskId
  /-- Since the router took its server, that was disconnected or the activation raised. -/
  stale : Bool

namespace Linked

/-- A new router and a transport that has never been connected. -/
def init : Linked α := ⟨.init fun _ => .amqp { Consumers.empty with connected := false }, none,
      false⟩

def online (r : State α) (t : TransportId) : Bool :=
  match r.transports t with
  | .loopback _ => false
  | .amqp a => a.connected

/-- The call of task `k`, if it is not over. -/
def underWay (r : State α) (k : TaskId) : Option TaskId :=
  match r.tasks k with
  | some (.finished _) => none
  | _ => some k

/-- Which transport calls of a router succeed on `t` as it is. -/
def accepts (r : State α) (t : TransportId) (k : TaskId) : Bool :=
  match r.tasks k with
  | some (.registering ..) => online r t
  | _ => true

inductive Event (α : Type)
  | register (kind : Kind) (name : String) (item : α)
  | activate (k : TaskId)
  | deactivate (k : TaskId)
  /-- The transport call of the current call ends. -/
  | completes (k : TaskId)
  /-- It raises the `AttributeError` of a transport that is not connected. -/
  | raises (k : TaskId)
  | connect
  | disconnect

def setConsumers (s : Linked α) (t : TransportId) (f : Consumers Callback → Consumers Callback) :
    Option (State α) :=
  match s.router.transports t with
  | .loopback _ => none
  | .amqp a => some (s.router.setTransport t (.amqp (f a)))

/-- Calls come one after another: everything but their own transport calls waits for them. -/
def step (t : TransportId) (s : Linked α) : Event α → Option (Linked α)
  | .register kind name item =>
    if s.current = none then (Router.step s.router (.register kind name item)).map fun r =>
      { s with router := r } else none
  | .activate k =>
    if s.current = none then
      (Router.step s.router (.start k (.activate (some t)))).map fun r =>
        ⟨r, underWay r k, s.stale && s.router.server = some t⟩
    else none
  | .deactivate k =>
    if s.current = none then
      (Router.step s.router (.start k .deactivate)).map fun r =>
        { s with router := r, current := underWay r k }
    else none
  | .completes k =>
    if s.current = some k ∧ accepts s.router t k then
      (Router.step s.router (.completes k)).map fun r =>
        { s with router := r, current := underWay r k }
    else none
  | .raises k =>
    if s.current = some k ∧ accepts s.router t k = false then
      (Router.step s.router (.raises k .early)).map fun r => ⟨r, underWay r k, true⟩
    else none
  | .connect =>
    if s.current = none then (s.setConsumers t .connect).map fun r =>
      { s with router := r } else none
  | .disconnect =>
    if s.current = none then
      (s.setConsumers t .disconnect).map fun r =>
        { s with router := r, stale := s.stale || online s.router t }
    else none

/-- The task that runs an `activate` in this event, if one does. -/
def activating (s : Linked α) : Event α → Option TaskId
  | .activate k => some k
  | .completes k =>
    match s.router.tasks k with
    | some (.registering ..) => some k
    | some (.unregistering _ _ _ _ _ (.activate _)) => some k
    | _ => none
  | _ => none

/-- An `activate` that returns in this event while `t` is connected leaves a consumer for
every registered name. -/
def Serves (t : TransportId) (s : Linked α) (e : Event α) (s' : Linked α) : Prop :=
  ∀ k, activating s e = some k → s'.router.tasks k = some (.finished .returned) →
    online s'.router t = true →
    Subscribed t s'.router

/-- `activate` is not repeated on a stale server that is connected, with names to serve. -/
def NotStale (t : TransportId) (s : Linked α) (e : Event α) (_ : Linked α) : Prop :=
  ∀ k, e = .activate k → s.router.server = some t → online s.router t = true →
    todo s.router.names ≠ [] →
    s.stale = false

/-! ## What the transport holds, connected or not -/

/-- An entry and a consumer for each name in `L`, which is empty while there is no connection. -/
structure Holding (L : Names) (a : Consumers Callback) : Prop where
  keeps : Keeps L [] { a with connected := true }
  offline : a.connected = false → L = []

theorem online_eq {a : Consumers Callback} (h : a.connected = true) :
    { a with connected := true } = a := by
  rw [← h]

theorem Holding.init :
    Holding [] { Consumers.empty with connected := false } := ⟨Keeps.empty, fun _ => rfl⟩

theorem Holding.holds {L : Names} {a : Consumers Callback} (h : Holding L a)
    (hc : a.connected = true) :
    (Transport.amqp a).Holds L [] := online_eq hc ▸ h.keeps

theorem Holding.connect {L : Names} {a : Consumers Callback} (h : Holding L a) :
    Holding L a.connect := by
  unfold Consumers.connect
  split
  · exact h
  · exact ⟨h.keeps, fun hc => by cases hc⟩

/-- A disconnected transport holds nothing. -/
theorem Holding.disconnect {L : Names} {a : Consumers Callback} (h : Holding L a) :
    Holding [] a.disconnect := by
  unfold Consumers.disconnect
  split
  · refine ⟨⟨rfl, ?_, ?_, ?_, ?_, ?_, ?_, ?_⟩, fun _ => rfl⟩
    all_goals simp [Consumers.consumersOf]
  · rename_i hc
    have hL := h.offline (by simpa using hc)
    subst hL
    exact h

theorem Holding.register {L : Names} {a : Consumers Callback} {kind : Kind} {name : String}
    (h : Holding L a) (hc : a.connected = true) (hL : (kind, name) ∉ L) :
    Holding ((kind, name) :: L) (a.register kind name ⟨kind, name⟩) := by
  have hk := (online_eq hc ▸ h.keeps).register hL List.not_mem_nil
  have hc' : (a.register kind name ⟨kind, name⟩).connected = true := hc
  exact ⟨(online_eq hc').symm ▸ hk, fun hoff => by rw [hc'] at hoff; cases hoff⟩

theorem Holding.unregister {L : Names} {a : Consumers Callback} (h : Holding L a) (kind : Kind)
    (name : String) :
    Holding (without L (kind, name)) (a.unregister kind name) := by
  have hk := h.keeps.unregister kind name
  cases hc : a.connected with
  | true =>
    rw [online_eq hc] at hk
    have hc' := hk.connected
    exact ⟨(online_eq hc').symm ▸ hk, fun hoff => by rw [hc'] at hoff; cases hoff⟩
  | false =>
    -- nothing is recorded, so nothing is cancelled either
    have hL := h.offline hc
    subst hL
    have he := h.keeps.forgotten kind name List.not_mem_nil
    have hun : ∀ b : Bool, ({ a with connected := b } : Consumers Callback).unregister kind name =
        { a with connected := b, bookkeeping := a.bookkeeping.pop kind name } := by
      intro b
      simp only [Consumers.unregister]
      rw [show a.bookkeeping.entry kind name = (none, none) from he]
    rw [hun true] at hk
    have hself := hun a.connected
    refine ⟨?_, fun _ => rfl⟩
    rw [show a.unregister kind name = { a with
      bookkeeping := a.bookkeeping.pop kind name } from hself]
    exact hk

/-! ## The invariant -/

/-- Where the router is with `t`: not on it, on it, or in one transport call of one call. -/
inductive Inv (t : TransportId) (s : Linked α) : Prop
  | unserved (a : Consumers Callback) (ht : s.router.transports t = .amqp a)
    (hcurrent : s.current = none)
      (hserver : s.router.server = none) (h : Holding [] a)
  | served (a : Consumers Callback) (L : Names) (ht : s.router.transports t = .amqp a)
    (hcurrent : s.current = none)
      (hserver : s.router.server = some t) (h : Holding L a)
        (hactivated : ∀ p ∈ L, p ∈ todo s.router.activated)
      (hnames : s.stale = false → ∀ p ∈ todo s.router.names, p ∈ L)
        (hstale : s.stale = true → L = [])
  | leaving (a : Consumers Callback) (L : Names) (k : TaskId) (kind : Kind) (name : String)
    (rest : List String)
      (kinds : List Kind) (ht : s.router.transports t = .amqp a) (hcurrent : s.current = some k)
      (hserver : s.router.server = some t)
      (htask : s.router.tasks k = some (.unregistering t kind name rest kinds .deactivate))
        (h : Holding L a)
      (hL : ∀ p ∈ L, p ∈ (kind, name) :: remaining s.router kind rest kinds)
  | entering (a : Consumers Callback) (done : Names) (k : TaskId) (kind : Kind) (name : String)
    (rest : Names)
      (ht : s.router.transports t = .amqp a) (hcurrent : s.current = some k)
        (hserver : s.router.server = some t)
      (htask : s.router.tasks k = some (.registering t kind name rest s.router.names))
        (h : Holding done a)
      (htodo : todo s.router.names = done ++ (kind, name) :: rest) (hstale : s.stale = false)

theorem inv_init (t : TransportId) : Inv t (init : Linked α) := .unserved _ rfl rfl rfl .init

theorem underWay_finished (r : State α) (k : TaskId) (o : Ending) :
    underWay (r.setTask k (.finished o)) k = none := by
  simp [underWay, State.setTask]

theorem deactivateLoop_inv {t : TransportId} {a : Consumers Callback} {L : Names} {k : TaskId}
    (stale : Bool) {r : State α} (ht : r.transports t = .amqp a) (hserver : r.server = some t)
    (h : Holding L a) :
    ∀ (kind : Kind) (rest : List String) (kinds : List Kind),
    (∀ p ∈ L, p ∈ remaining r kind rest kinds) →
      Inv t ⟨deactivateLoop r k .deactivate kind rest kinds,
        underWay (deactivateLoop r k .deactivate kind rest kinds) k, stale⟩
  | kind, name :: rest, kinds, hL => by
    simp only [deactivateLoop, hserver]
    refine .leaving a L k kind name rest kinds ht ?_ hserver ?_ h hL
    · simp [underWay, State.setTask]
    · simp [State.setTask]
  | kind, [], kind' :: kinds, hL => deactivateLoop_inv stale ht hserver h kind' _ kinds hL
  | kind, [], [], hL => by
    obtain rfl : L = [] := List.eq_nil_iff_forall_not_mem.2 fun p hp => by
      simpa [remaining] using hL p hp
    simp only [deactivateLoop, leave]
    exact .unserved a ht (underWay_finished ..) rfl h

theorem activateNames_inv {t : TransportId} {a : Consumers Callback} {done : Names} {k : TaskId}
    {r : State α} (ht : r.transports t = .amqp a) (hserver : r.server = some t) (h : Holding done a)
    (rest : Names) (htodo : todo r.names = done ++ rest) :
    Inv t ⟨activateNames r k r.names rest, underWay (activateNames r k r.names rest) k, false⟩ := by
  cases rest with
  | nil =>
    rw [List.append_nil] at htodo
    refine .served a done ht (underWay_finished ..) hserver h ?_ ?_ (by simp)
    · exact fun p hp => htodo ▸ hp
    · exact fun _ p hp => htodo ▸ hp
  | cons p rest =>
    obtain ⟨kind, name⟩ := p
    simp only [activateNames, hserver]
    refine .entering a done k kind name rest ht ?_ hserver ?_ h htodo rfl
    · simp [underWay, State.setTask]
    · simp [State.setTask]
      rfl

/-- An `activate` that does not return at once. -/
theorem enter_inv {t : TransportId} {a : Consumers Callback} {k : TaskId} {r : State α}
    (ht : r.transports t = .amqp a) (h : Holding [] a) :
    Inv t ⟨enter r k (some t), underWay (enter r k (some t)) k, false⟩ :=
  activateNames_inv (r := { r with server := some t }) ht rfl h (todo r.names) rfl

theorem Inv.register {t : TransportId} {s s' : Linked α} (h : Inv t s) {kind : Kind} {name : String}
    {item : α} (hs : step t s (.register kind name item) = some s') : Inv t s' := by
  simp only [step] at hs
  split at hs
  · rename_i hcurrent
    obtain ⟨r, hr, rfl⟩ := Option.map_eq_some_iff.1 hs
    cases hr
    rcases registerTask_cases s.router kind name item with ⟨e, he⟩ | ⟨hserver, m, -, hm⟩
    · simp only [he, after]
      exact h
    · simp only [hm, after]
      cases h with
      | unserved a ht _ _ h => exact .unserved a ht hcurrent hserver h
      | served a L _ _ hs => rw [hserver] at hs; cases hs
      | leaving a L k kind name rest kinds _ _ hs => rw [hserver] at hs; cases hs
      | entering a done k kind name rest _ _ hs => rw [hserver] at hs; cases hs
  · cases hs

theorem Inv.activate {t : TransportId} {s s' : Linked α} (h : Inv t s) {k : TaskId}
    (hs : step t s (.activate k) = some s') : Inv t s' := by
  simp only [step] at hs
  split at hs
  · rename_i hcurrent
    obtain ⟨r, hr, rfl⟩ := Option.map_eq_some_iff.1 hs
    simp only [Router.step, start] at hr
    split at hr
    · cases hr
    · cases h with
      | unserved a ht _ hserver h =>
        simp only [Op.isNoop, hserver, reduceCtorEq, decide_false, Bool.false_eq_true, if_false]
          at hr
        cases hr
        simp only [hserver, reduceCtorEq, decide_false, Bool.and_false]
        exact enter_inv ht h
      | served a L ht _ hserver h hact hnames hstale =>
        simp only [Op.isNoop, hserver, decide_true, if_true] at hr
        cases hr
        simp only [hserver, decide_true, Bool.and_true]
        exact .served a L ht (underWay_finished ..) hserver h hact hnames hstale
      | leaving a L k kind name rest kinds _ hc => rw [hcurrent] at hc; cases hc
      | entering a done k kind name rest _ hc => rw [hcurrent] at hc; cases hc
  · cases hs

theorem Inv.deactivate {t : TransportId} {s s' : Linked α} (h : Inv t s) {k : TaskId}
    (hs : step t s (.deactivate k) = some s') : Inv t s' := by
  simp only [step] at hs
  split at hs
  · rename_i hcurrent
    obtain ⟨r, hr, rfl⟩ := Option.map_eq_some_iff.1 hs
    simp only [Router.step, start] at hr
    split at hr
    · cases hr
    · cases h with
      | unserved a ht _ hserver h =>
        simp only [Op.isNoop, hserver, Option.isNone_none, if_true] at hr
        cases hr
        exact .unserved a ht (underWay_finished ..) hserver h
      | served a L ht _ hserver h hact hnames hstale =>
        simp only [Op.isNoop, hserver, Option.isNone_some, Bool.false_eq_true, if_false] at hr
        cases hr
        exact deactivateLoop_inv s.stale ht hserver h .rpc _ _ hact
      | leaving a L k kind name rest kinds _ hc => rw [hcurrent] at hc; cases hc
      | entering a done k kind name rest _ hc => rw [hcurrent] at hc; cases hc
  · cases hs

theorem Inv.completes {t : TransportId} {s s' : Linked α} (h : Inv t s) {k : TaskId}
    (hs : step t s (.completes k) = some s') : Inv t s' := by
  simp only [step] at hs
  split at hs
  · rename_i hg
    obtain ⟨hcurrent, haccepts⟩ := hg
    obtain ⟨r, hr, rfl⟩ := Option.map_eq_some_iff.1 hs
    cases h with
    | unserved a _ hc => rw [hcurrent] at hc; cases hc
    | served a L _ hc => rw [hcurrent] at hc; cases hc
    | leaving a L k₀ kind name rest kinds ht hc hserver htask h hL =>
      rw [hcurrent] at hc
      cases hc
      simp only [Router.step, Router.completes, htask] at hr
      cases hr
      have hserver' : (s.router.setTransport t
        ((s.router.transports t).unregister kind name)).server = some t := hserver
      refine deactivateLoop_inv s.stale (a := a.unregister kind name) ?_ hserver'
        (h.unregister kind name) kind rest kinds ?_
      · simp [State.setTransport, ht, Transport.unregister]
      · intro p hp
        obtain ⟨hp, hne⟩ := mem_without.1 hp
        exact (List.mem_cons.1 (hL p hp)).resolve_left hne
    | entering a done k₀ kind name rest ht hc hserver htask h htodo hstale =>
      rw [hcurrent] at hc
      cases hc
      have hon : a.connected = true := by simpa [accepts, htask, online, ht] using haccepts
      simp only [Router.step, Router.completes, htask] at hr
      cases hr
      have hserver' : (s.router.setTransport t
        ((s.router.transports t).register kind name)).server = some t := hserver
      have hreg := h.register hon (not_mem_done htodo)
      have hdone : Holding (done ++ [(kind, name)]) (a.register kind name ⟨kind, name⟩) :=
        ⟨hreg.keeps.congr (by simp [or_comm]), fun hoff => by cases hon.symm.trans hoff⟩
      rw [hstale]
      refine activateNames_inv (a := a.register kind name ⟨kind, name⟩) ?_ hserver' hdone rest ?_
      · simp [State.setTransport, ht, Transport.register]
      · rw [List.append_assoc]
        exact htodo
  · cases hs

theorem Inv.raises {t : TransportId} {s s' : Linked α} (h : Inv t s) {k : TaskId}
    (hs : step t s (.raises k) = some s') : Inv t s' := by
  simp only [step] at hs
  split at hs
  · rename_i hg
    obtain ⟨hcurrent, haccepts⟩ := hg
    obtain ⟨r, hr, rfl⟩ := Option.map_eq_some_iff.1 hs
    cases h with
    | unserved a _ hc => rw [hcurrent] at hc; cases hc
    | served a L _ hc => rw [hcurrent] at hc; cases hc
    | leaving a L k₀ kind name rest kinds ht hc hserver htask h hL =>
      rw [hcurrent] at hc
      cases hc
      simp [accepts, htask] at haccepts
    | entering a done k₀ kind name rest ht hc hserver htask h htodo hstale =>
      rw [hcurrent] at hc
      cases hc
      have hoff : a.connected = false := by simpa [accepts, htask, online, ht] using haccepts
      obtain rfl := h.offline hoff
      simp only [Router.step, Router.raises, htask, ht, Transport.registerRaises, Option.map_some]
        at hr
      cases hr
      refine .served a [] ?_ (underWay_finished ..) hserver h (by simp) (by simp) (fun _ => rfl)
      simp [State.setTask, State.setTransport, Consumers.registerRaises]
  · cases hs

theorem Inv.connect {t : TransportId} {s s' : Linked α} (h : Inv t s)
    (hs : step t s .connect = some s') : Inv t s' := by
  simp only [step] at hs
  split at hs
  · rename_i hcurrent
    obtain ⟨r, hr, rfl⟩ := Option.map_eq_some_iff.1 hs
    cases h with
    | unserved a ht _ hserver h =>
      simp only [setConsumers, ht, Option.some.injEq] at hr
      cases hr
      exact .unserved a.connect (by simp [State.setTransport]) hcurrent hserver h.connect
    | served a L ht _ hserver h hact hnames hstale =>
      simp only [setConsumers, ht, Option.some.injEq] at hr
      cases hr
      exact .served a.connect L (by simp [State.setTransport]) hcurrent hserver h.connect hact
        hnames hstale
    | leaving a L k kind name rest kinds _ hc => rw [hcurrent] at hc; cases hc
    | entering a done k kind name rest _ hc => rw [hcurrent] at hc; cases hc
  · cases hs

theorem Inv.disconnect {t : TransportId} {s s' : Linked α} (h : Inv t s)
    (hs : step t s .disconnect = some s') :
    Inv t s' := by
  simp only [step] at hs
  split at hs
  · rename_i hcurrent
    obtain ⟨r, hr, rfl⟩ := Option.map_eq_some_iff.1 hs
    cases h with
    | unserved a ht _ hserver h =>
      simp only [setConsumers, ht, Option.some.injEq] at hr
      cases hr
      exact .unserved a.disconnect (by simp [State.setTransport]) hcurrent hserver h.disconnect
    | served a L ht _ hserver h hact hnames hstale =>
      simp only [setConsumers, ht, Option.some.injEq] at hr
      cases hr
      refine .served a.disconnect [] (by simp [State.setTransport]) hcurrent hserver h.disconnect
        (by simp) ?_
        (fun _ => rfl)
      -- not stale afterwards: there was no connection to lose, so nothing was held before
      simp only [Bool.or_eq_false_iff]
      rintro ⟨hfresh, hoff⟩ p hp
      obtain rfl := h.offline (by simpa [online, ht] using hoff)
      exact hnames hfresh p hp
    | leaving a L k kind name rest kinds _ hc => rw [hcurrent] at hc; cases hc
    | entering a done k kind name rest _ hc => rw [hcurrent] at hc; cases hc
  · cases hs

/-- **Every event keeps the invariant.** -/
theorem Inv.step {t : TransportId} {s s' : Linked α} (h : Inv t s) (e : Event α)
    (hs : step t s e = some s') : Inv t s' := by
  cases e with
  | register kind name item => exact h.register hs
  | activate k => exact h.activate hs
  | deactivate k => exact h.deactivate hs
  | completes k => exact h.completes hs
  | raises k => exact h.raises hs
  | connect => exact h.connect hs
  | disconnect => exact h.disconnect hs

/-! ## Which activations serve -/

/-- A connected server that is not stale serves every name, a stale one none. -/
theorem Inv.subscribed_iff {t : TransportId} {s : Linked α} (h : Inv t s)
    (hcurrent : s.current = none) (hserver : s.router.server = some t)
    (hon : online s.router t = true) :
    Subscribed t s.router ↔ todo s.router.names = [] ∨ s.stale = false := by
  cases h with
  | unserved a _ _ hs => rw [hserver] at hs; cases hs
  | leaving a L k kind name rest kinds _ hc => rw [hcurrent] at hc; cases hc
  | entering a done k kind name rest _ hc => rw [hcurrent] at hc; cases hc
  | served a L ht _ _ h _ hnames hstale =>
    have hc : a.connected = true := by simpa [online, ht] using hon
    have hholds : (s.router.transports t).Holds L [] := ht ▸ h.holds hc
    rw [Router.subscribed_iff hholds]
    cases hst : s.stale with
    | false => simpa using hnames hst
    | true =>
      rw [hstale hst]
      simp [List.eq_nil_iff_forall_not_mem]

theorem activateNames_server (r : State α) (k : TaskId) (names : Kind → List String)
    (rest : Names) :
    (activateNames r k names rest).server = r.server := by
  cases rest with
  | nil => rfl
  | cons p rest =>
    cases hs : r.server with
    | none => simp [activateNames, hs, State.setTask]
    | some t => simp [activateNames, hs, State.setTask]

/-- The call of task `k` is over once the task has returned. -/
theorem underWay_returned {r : State α} {k : TaskId} (h : r.tasks k = some (.finished .returned)) :
    underWay r k = none := by
  simp [underWay, h]

/-- An `activate` that has just returned, having gone through all the names, has served them. -/
theorem Inv.served_of_fresh {t : TransportId} {s : Linked α} (h : Inv t s)
    (hcurrent : s.current = none) (hserver : s.router.server = some t) (hstale : s.stale = false)
    (hon : online s.router t = true) :
    Subscribed t s.router :=
  (h.subscribed_iff hcurrent hserver hon).2 (Or.inr hstale)

theorem activate_serves_iff {t : TransportId} {s s' : Linked α} (h : Inv t s) {k : TaskId}
    (hs : step t s (.activate k) = some s') :
    Serves t s (.activate k) s' ↔ NotStale t s (.activate k) s' := by
  have h' := h.activate hs
  simp only [step] at hs
  split at hs
  · rename_i hcurrent
    obtain ⟨r, hr, rfl⟩ := Option.map_eq_some_iff.1 hs
    simp only [Router.step, start] at hr
    split at hr
    · cases hr
    · cases h with
      | unserved a ht _ hserver h =>
        -- the router is on nothing, so it goes through all the names
        simp only [Op.isNoop, hserver, reduceCtorEq, decide_false, Bool.false_eq_true, if_false]
          at hr
        cases hr
        simp only [hserver, reduceCtorEq, decide_false, Bool.and_false] at h'
        constructor
        · intro _ k' _ hk
          rw [hserver] at hk
          cases hk
        · intro _ k' hk hret hon
          cases hk
          exact h'.served_of_fresh (underWay_returned hret) (activateNames_server ..) rfl hon
      | served a L ht _ hserver h hact hnames hstale =>
        -- it returns at once, with the transport as it was
        simp only [Op.isNoop, hserver, decide_true, if_true] at hr
        cases hr
        simp only [hserver, decide_true, Bool.and_true] at h' ⊢
        have hiff := h'.subscribed_iff (underWay_finished ..) hserver
        constructor
        · intro hserves k' _ _ hon hne
          exact (hiff hon).1 (hserves k rfl (by simp [State.setTask]) hon) |>.resolve_left hne
        · intro hfresh k' _ _ hon
          refine (hiff hon).2 (or_iff_not_imp_left.2 fun hne => ?_)
          exact hfresh k rfl hserver hon hne
      | leaving a L k kind name rest kinds _ hc => rw [hcurrent] at hc; cases hc
      | entering a done k kind name rest _ hc => rw [hcurrent] at hc; cases hc
  · cases hs

theorem completes_serves {t : TransportId} {s s' : Linked α} (h : Inv t s) {k : TaskId}
    (hs : step t s (.completes k) = some s') : Serves t s (.completes k) s' := by
  have h' := h.completes hs
  simp only [step] at hs
  split at hs
  · rename_i hg
    obtain ⟨r, hr, rfl⟩ := Option.map_eq_some_iff.1 hs
    intro k' hk hret hon
    cases h with
    | unserved a _ hc => rw [hg.1] at hc; cases hc
    | served a L _ hc => rw [hg.1] at hc; cases hc
    | leaving a L k₀ kind name rest kinds ht hc hserver htask =>
      rw [hg.1] at hc
      cases hc
      simp [activating, htask] at hk
    | entering a done k₀ kind name rest ht hc hserver htask h htodo hstale =>
      rw [hg.1] at hc
      cases hc
      simp only [activating, htask, Option.some.injEq] at hk
      subst hk
      simp only [Router.step, Router.completes, htask] at hr
      cases hr
      exact h'.served_of_fresh (underWay_returned hret)
        ((activateNames_server ..).trans hserver) hstale hon
  · cases hs

theorem step_serves_iff {t : TransportId} {s s' : Linked α} (h : Inv t s) {e : Event α}
    (hs : step t s e = some s') :
    Serves t s e s' ↔ NotStale t s e s' := by
  -- only an `activate` event can fail to serve, and only there the condition asks for something
  have trivially : (∀ k, e ≠ .activate k) → Serves t s e s' →
      (Serves t s e s' ↔ NotStale t s e s') :=
    fun hne hserves => ⟨fun _ k hk => absurd hk (hne k), fun _ => hserves⟩
  cases e with
  | activate k => exact activate_serves_iff h hs
  | completes k => exact trivially (by simp) (completes_serves h hs)
  | register kind name item => exact trivially (by simp) (by simp [Serves, activating])
  | deactivate k => exact trivially (by simp) (by simp [Serves, activating])
  | raises k => exact trivially (by simp) (by simp [Serves, activating])
  | connect => exact trivially (by simp) (by simp [Serves, activating])
  | disconnect => exact trivially (by simp) (by simp [Serves, activating])

/-- **Which runs only have activations that serve**: those that never repeat `activate` on a
stale server that is connected again. -/
theorem serves_iff (t : TransportId) (es : List (Event α)) :
    Along (step t) (Serves t) init es ↔ Along (step t) (NotStale t) init es :=
  along_congr (I := Inv t) (fun _ e _ h _ hs => h.step e hs)
    (fun _ _ _ h hs => step_serves_iff h hs) es (inv_init t)

/-- One RPC name, served, then disconnected, connected again and activated again. -/
def reconnectRun : List (Event Unit) :=
  [.register .rpc "m.f" (), .connect, .activate 0, .completes 0, .disconnect, .connect, .activate 1]

/-- The second activation returns with no consumer at all. -/
theorem reconnect_unserved : ¬ Along (step 0) (Serves 0) init reconnectRun := by
  intro h
  have h₁ := (h _ rfl).2
  have h₂ := (h₁ _ rfl).2
  have h₃ := (h₂ _ rfl).2
  have h₄ := (h₃ _ rfl).2
  have h₅ := (h₄ _ rfl).2
  have h₆ := (h₅ _ rfl).2
  have hserves := (h₆ _ rfl).1 1 rfl rfl rfl
  exact hserves .rpc "m.f" (by decide) rfl

end Linked

end Atasks.Router
