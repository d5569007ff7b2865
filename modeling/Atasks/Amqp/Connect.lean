import Atasks.Amqp.Config
import Atasks.Amqp.Consumers
import Atasks.Lib.Effect
import Atasks.Lib.Machine
/-!
# `AMQPTransport.connect` and `disconnect`

`atasks/transport/backends/amqp.py:115-208`. Both hold the lock from their first await to
their end, so calls on one transport follow each other; what may go wrong in between is how
each await ends.

| here | there |
| --- | --- |
| `Await`        | the awaits of `connect` and `disconnect` |
| `World`        | how each await ends, and what happens to the connection meanwhile |
| `Attr`         | the attributes besides `_connection` that `connect` sets and `disconnect` deletes |
| `getExchange`  | `_get_exchange` (`:173-180`), its cache passed along |
| `isConnected`  | `is_connected` (`:115-117`) |

Only `_connection` is looked at to tell whether the transport is connected. It is the first
attribute to be set, nine awaits before the last one, and nothing takes it back when one of
these raises: `connect_iff` says that this is the one thing that goes wrong.
-/

namespace Atasks.Amqp.Connect

open Effect Machine

inductive Await
  | lock
  | connectRobust
  | channel
  | declareExchange (name : String)
  | declareQueue
  | bind
  | setQos
  | consume
  | close
deriving DecidableEq, Repr

inductive Raised
  | cancelled
  | error (repr : String)
  | attributeError
deriving DecidableEq, Repr

structure World where
  raises : Await → Option Raised
  /-- `_connection.is_closed` after the await, where it has changed. -/
  isClosed : Await → Option Bool

inductive Attr
  | channel
  | requestExchange
  | responseExchange
  | eventExchange
  | broadcastExchange
  | responseQueue
  | responseConsumer
deriving DecidableEq, Repr

/-- The objects these attributes hold. -/
inductive Obj
  | channel (connection : Nat)
  | exchange (name : String)
  | queue (name : String)
  | consumerTag (tag : String)
deriving DecidableEq, Repr

/-- The result of the `number`-th `connect_robust`. -/
structure Connection where
  number : Nat
  isClosed : Bool
deriving DecidableEq, Repr

structure State where
  connection : Option Connection
  attrs : Attr → Option Obj
  bookkeeping : Bookkeeping
  /-- How many connections have been opened. -/
  opened : Nat

/-- What `__init__` leaves. -/
def State.init : State := ⟨none, fun _ => none, .empty, 0⟩

def State.isConnected (s : State) : Bool :=
  match s.connection with
  | some c => !c.isClosed
  | none => false

/-- `_connection.is_closed` changes, or stays what it is. -/
def State.setClosed (b : Option Bool) (s : State) : State :=
  { s with connection := s.connection.map fun c => { c with isClosed := b.getD c.isClosed } }

abbrev M := EStateM Raised State

def raise : Option Raised → M Unit
  | some e => throw e
  | none => pure ()

def await (w : World) (a : Await) : M Unit := do
  modify (State.setClosed (w.isClosed a))
  raise (w.raises a)

def setAttr (a : Attr) (o : Obj) : M Unit :=
  modify fun s => { s with attrs := Function.update s.attrs a (some o) }

/-- `del self._a`. -/
def delAttr (a : Attr) : M Unit := do
  match (← get).attrs a with
  | none => throw .attributeError
  | some _ => modify fun s => { s with attrs := Function.update s.attrs a none }

/-- Declares the exchange unless it has been, and returns the names declared so far. -/
def getExchange (w : World) (declared : List String) (name : String) : M (List String) :=
  if name ∈ declared then pure declared
  else do
    await w (.declareExchange name)
    pure (name :: declared)

/-- `connect` once the connection is open. -/
def setup (cfg : Config) (w : World) (connection : Nat) (replyQueue tag : String) : M Unit := do
  await w .channel
  setAttr .channel (.channel connection)
  let declared ← getExchange w [] cfg.requestExchange
  setAttr .requestExchange (.exchange cfg.requestExchange)
  let declared ← getExchange w declared cfg.responseExchange
  setAttr .responseExchange (.exchange cfg.responseExchange)
  let declared ← getExchange w declared cfg.eventExchange
  setAttr .eventExchange (.exchange cfg.eventExchange)
  let _ ← getExchange w declared cfg.broadcastExchange
  setAttr .broadcastExchange (.exchange cfg.broadcastExchange)
  await w .declareQueue
  setAttr .responseQueue (.queue replyQueue)
  await w .bind
  await w .setQos
  await w .consume
  setAttr .responseConsumer (.consumerTag tag)

/-- The broker chooses the names of the reply queue and of its consumer. -/
def connect (cfg : Config) (w : World) (replyQueue tag : String) : M Unit := do
  await w .lock
  match (← get).connection with
  | some _ => pure ()
  | none =>
    await w .connectRobust
    let number := (← get).opened
    modify fun s => { s with connection := some ⟨number, false⟩, opened := number + 1 }
    setup cfg w number replyQueue tag

/-- `disconnect` once the connection is closed. -/
def teardown : M Unit := do
  modify fun s => { s with connection := none }
  delAttr .channel
  delAttr .requestExchange
  delAttr .responseExchange
  delAttr .eventExchange
  delAttr .broadcastExchange
  delAttr .responseQueue
  delAttr .responseConsumer
  modify fun s => { s with bookkeeping := .empty }

def disconnect (w : World) : M Unit := do
  await w .lock
  match (← get).connection with
  | none => pure ()
  | some _ =>
    await w .close
    teardown

/-- Calls of the two, one after another; between them the connection may be lost or come
back, and names may be registered. -/
inductive Event
  | connect (w : World) (replyQueue tag : String)
  | disconnect (w : World)
  | isClosed (b : Bool)
  | registered (bookkeeping : Bookkeeping)

def Event.run (cfg : Config) : Event → M Unit
  | .connect w replyQueue tag => Connect.connect cfg w replyQueue tag
  | .disconnect w => Connect.disconnect w
  | .isClosed b => modify (State.setClosed (some b))
  | .registered bookkeeping => modify fun s => { s with bookkeeping := bookkeeping }

/-- The state a call leaves, whether it returns or raises. -/
def after : EStateM.Result Raised State Unit → State
  | .ok _ s => s
  | .error _ s => s

def step (cfg : Config) (s : State) (e : Event) : Option State := some (after (e.run cfg s))

/-! ## What one call does -/

/-- Nothing `connect` sets is there. -/
def Empty (s : State) : Prop := s.connection = none ∧ ∀ a, s.attrs a = none

/-- Everything is. -/
def Full (s : State) : Prop := s.connection.isSome ∧ ∀ a, (s.attrs a).isSome

/-- A setup under way: the `n`-th connection and the attributes `as` are there, the last
one is not. -/
def Partial (n : Nat) (as : List Attr) (s : State) : Prop :=
  (s.connection.isSome ∧ s.opened = n) ∧ s.attrs .responseConsumer = none ∧ ∀ a ∈ as,
    (s.attrs a).isSome

/-- A teardown under way: of the attributes, just `as` are gone. -/
def Deleted (as : List Attr) (s : State) : Prop :=
  s.connection = none ∧ (∀ a ∈ as, s.attrs a = none) ∧ ∀ a, a ∉ as → (s.attrs a).isSome

/-- The awaits of `connect` that follow the opening of the connection. -/
def setupAwaits (cfg : Config) : List Await :=
  [.channel, .declareExchange cfg.requestExchange, .declareExchange cfg.responseExchange,
    .declareExchange cfg.eventExchange, .declareExchange cfg.broadcastExchange, .declareQueue,
      .bind, .setQos, .consume]

theorem Empty.setClosed {s : State} (h : Empty s) (b : Option Bool) : Empty (s.setClosed b) :=
  ⟨by simp [State.setClosed, h.1], h.2⟩

theorem Full.setClosed {s : State} (h : Full s) (b : Option Bool) : Full (s.setClosed b) :=
  ⟨by simpa [State.setClosed] using h.1, h.2⟩

theorem Partial.setClosed {n : Nat} {as : List Attr} {s : State} (h : Partial n as s)
    (b : Option Bool) :
    Partial n as (s.setClosed b) :=
  ⟨by simpa [State.setClosed] using h.1, h.2⟩

/-- An await completes or raises as the world says, and touches `is_closed` at most. -/
theorem await_decides {w : World} {a : Await} {P E : State → Prop}
    (hP : ∀ s b, P s → P (s.setClosed b)) (hE : ∀ s, P s → E s) :
    Decides P (await w a) (w.raises a = none) (fun _ => P) (fun _ => E) := by
  refine Decides.bind_true (Decides.modify (Q := fun _ => P) fun s h => hP s _ h) fun _ => ?_
  cases h : w.raises a with
  | none => exact fun s hs => ⟨fun _ => ⟨⟨⟩, s, rfl, hs⟩, fun h => absurd rfl h⟩
  | some e => exact fun s hs => ⟨fun h => (nomatch h), fun _ => ⟨e, s, rfl, hE s hs⟩⟩

theorem await_completes {w : World} {a : Await} {P : State → Prop} {E : Raised → State → Prop}
    (hP : ∀ s b, P s → P (s.setClosed b)) (ha : w.raises a = none) :
    Decides P (await w a) True (fun _ => P) E :=
  ((await_decides hP fun _ h => h).congr (iff_of_true ha trivial)).total

theorem await_raises {w : World} {a : Await} {P : State → Prop}
    (hP : ∀ s b, P s → P (s.setClosed b)) (ha : w.raises a ≠ none) :
    Decides P (await w a) False (fun _ => P) (fun _ => P) :=
  (await_decides hP fun _ h => h).congr (iff_of_false ha id)

theorem setAttr_midway {n : Nat} {as : List Attr} {a : Attr} (ha : a ≠ .responseConsumer) (o : Obj)
    {E : Raised → State → Prop} :
    Decides (Partial n as) (setAttr a o) True (fun _ => Partial n (a :: as)) E := by
  refine Decides.modify fun s hs => ⟨hs.1, ?_, fun b hb => ?_⟩
  · exact (Function.update_of_ne ha.symm ..).trans hs.2.1
  · by_cases hba : b = a
    · subst hba; simp
    · have hmem : b ∈ as := (List.mem_cons.1 hb).resolve_left hba
      simpa [Function.update_of_ne hba] using hs.2.2 b hmem

theorem Partial.forget {n : Nat} {as : List Attr} {s : State} (h : Partial n as s) :
    Partial n [] s :=
  ⟨h.1, h.2.1, fun _ ha => (nomatch ha)⟩

theorem await_midway {w : World} {n : Nat} {as : List Attr} {a : Await} :
    Decides (Partial n as) (await w a) (w.raises a = none) (fun _ => Partial n as)
    (fun _ => Partial n []) :=
  await_decides (fun _ b h => h.setClosed b) fun _ h => h.forget

/-- A name in the cache is one whose declaration has succeeded. -/
theorem getExchange_midway {w : World} {n : Nat} {as : List Attr} {declared : List String}
    (hd : ∀ x ∈ declared, w.raises (.declareExchange x) = none) (name : String) :
    Decides (Partial n as) (getExchange w declared name) (w.raises (.declareExchange name) = none)
      (fun declared s => (∀ x ∈ declared, w.raises (.declareExchange x) = none) ∧ Partial n as s)
      (fun _ => Partial n []) := by
  unfold getExchange
  split
  · rename_i hmem
    exact (Decides.pure fun _ h => ⟨hd, h⟩).congr (iff_of_true trivial (hd name hmem))
  · by_cases hr : w.raises (.declareExchange name) = none
    · have hall : ∀ x ∈ name :: declared, w.raises (.declareExchange x) = none := by
        intro x hx
        rcases List.mem_cons.1 hx with rfl | hx
        · exact hr
        · exact hd x hx
      exact (Decides.bind await_midway fun _ => Decides.pure fun s hs => ⟨hall, hs⟩).congr
        (iff_of_true ⟨hr, trivial⟩ hr)
    · exact (Decides.bind_false (await_midway.congr (iff_of_false hr id))).congr
        (iff_of_false id hr)

theorem setAttr_last {n : Nat} {as : List Attr} (has : ∀ a, a ≠ .responseConsumer → a ∈ as)
    (o : Obj) {E : Raised → State → Prop} :
    Decides (Partial n as) (setAttr .responseConsumer o) True
      (fun _ s => Full s ∧ s.opened = n) E := by
  refine Decides.modify fun s hs => ⟨⟨hs.1.1, fun a => ?_⟩, hs.1.2⟩
  by_cases ha : a = .responseConsumer
  · subst ha; simp
  · simpa only [Function.update_of_ne ha] using hs.2.2 a (has a ha)

/-- The setup completes iff none of its awaits raises, and otherwise stops halfway. -/
theorem setup_decides (cfg : Config) (w : World) (n number : Nat) (replyQueue tag : String) :
    Decides (Partial n []) (setup cfg w number replyQueue tag)
    (∀ a ∈ setupAwaits cfg, w.raises a = none)
      (fun _ s => Full s ∧ s.opened = n) (fun _ => Partial n []) := by
  refine (Decides.bind await_midway fun _ => Decides.bind_true (setAttr_midway (by decide) _)
      fun _ =>
    Decides.bind (getExchange_midway (by simp) _) fun _ => Decides.assuming fun h₁ =>
    Decides.bind_true (setAttr_midway (by decide) _) fun _ =>
    Decides.bind (getExchange_midway h₁ _) fun _ => Decides.assuming fun h₂ =>
    Decides.bind_true (setAttr_midway (by decide) _) fun _ =>
    Decides.bind (getExchange_midway h₂ _) fun _ => Decides.assuming fun h₃ =>
    Decides.bind_true (setAttr_midway (by decide) _) fun _ =>
    Decides.bind (getExchange_midway h₃ _) fun _ => Decides.assuming fun _ =>
    Decides.bind_true (setAttr_midway (by decide) _) fun _ =>
    Decides.bind await_midway fun _ => Decides.bind_true (setAttr_midway (by decide) _) fun _ =>
    Decides.bind await_midway fun _ => Decides.bind await_midway fun _ =>
      Decides.bind await_midway fun _ =>
    setAttr_last (fun a ha => ?_) _).congr ?_
  · cases a <;> first | exact absurd rfl ha | decide
  · simp [setupAwaits]

/-- `connect` on an empty transport, once it has opened the connection. -/
theorem connect_opened (cfg : Config) {w : World} (hlock : w.raises .lock = none)
    (hopen : w.raises .connectRobust = none) (n : Nat) (replyQueue tag : String) :
    Decides (fun s => Empty s ∧ s.opened = n) (connect cfg w replyQueue tag)
    (∀ a ∈ setupAwaits cfg, w.raises a = none)
      (fun _ s => Full s ∧ s.opened = n + 1) (fun _ => Partial (n + 1) []) := by
  have hclosed : ∀ s b, Empty s ∧ s.opened = n → Empty (s.setClosed b) ∧
      (s.setClosed b).opened = n :=
    fun _ b h => ⟨h.1.setClosed b, h.2⟩
  refine Decides.bind_true (await_completes hclosed hlock) fun _ => Decides.get fun s hs => ?_
  rw [hs.1.1]
  refine Decides.consequence (P := fun s => Empty s ∧ s.opened = n) ?_ (by rintro _ rfl; exact hs)
    (fun _ _ h => h)
  refine Decides.bind_true (await_completes hclosed hopen) fun _ => Decides.get fun s hs => ?_
  refine Decides.bind_true (Decides.modify ?_) fun _ => setup_decides cfg w (n + 1) _ replyQueue tag
  rintro _ rfl
  exact ⟨⟨rfl, congrArg (· + 1) hs.2⟩, hs.1.2 _, by simp⟩

/-- `connect` on an empty transport that does not get that far. -/
theorem connect_unopened (cfg : Config) {w : World}
    (h : w.raises .lock = none → w.raises .connectRobust ≠ none) (replyQueue tag : String) :
    Decides Empty (connect cfg w replyQueue tag) False (fun _ => Full) (fun _ => Empty) := by
  by_cases hlock : w.raises .lock = none
  · refine Decides.bind_true (await_completes (fun _ b h => Empty.setClosed h b) hlock) fun _ =>
      Decides.get fun s hs => ?_
    rw [hs.1]
    refine Decides.consequence (P := Empty) ?_ (by rintro _ rfl; exact hs) (fun _ _ h => h)
    exact Decides.bind_false (await_raises (fun _ b h => Empty.setClosed h b) (h hlock))
  · exact Decides.bind_false (await_raises (fun _ b h => Empty.setClosed h b) hlock)

/-- A connected transport: `connect` returns at once. -/
theorem connect_full (cfg : Config) (w : World) (replyQueue tag : String) :
    Decides Full (connect cfg w replyQueue tag) (w.raises .lock = none) (fun _ => Full)
    (fun _ => Full) := by
  refine (Decides.bind (await_decides (fun _ b h => Full.setClosed h b) fun _ h => h) fun _ =>
    Decides.get fun s hs => ?_).congr
    (Iff.of_eq (and_true _))
  obtain ⟨c, hc⟩ := Option.isSome_iff_exists.1 hs.1
  rw [hc]
  refine Decides.pure ?_
  rintro _ rfl
  exact hs

theorem delAttr_deleted {as : List Attr} {a : Attr} (ha : a ∉ as) {E : Raised → State → Prop} :
    Decides (Deleted as) (delAttr a) True (fun _ => Deleted (a :: as)) E := by
  refine Decides.get fun s hs => ?_
  obtain ⟨o, ho⟩ := Option.isSome_iff_exists.1 (hs.2.2 a ha)
  rw [ho]
  refine Decides.modify ?_
  rintro _ rfl
  refine ⟨hs.1, fun b hb => ?_, fun b hb => ?_⟩
  · by_cases hba : b = a
    · subst hba; simp
    · simpa only [Function.update_of_ne hba] using hs.2.1 b ((List.mem_cons.1 hb).resolve_left hba)
  · have hba : b ≠ a := fun h => hb (h ▸ List.mem_cons_self)
    simpa only [Function.update_of_ne hba] using hs.2.2 b fun h => hb (List.mem_cons_of_mem _ h)

theorem teardown_full : Decides Full teardown True (fun _ => Empty) (fun _ => Full) := by
  have start : Decides Full (modify fun s => { s with connection := none } : M Unit) True
    (fun _ => Deleted [])
      (fun _ => Full) := Decides.modify fun s hs => ⟨rfl, by simp, fun a _ => hs.2 a⟩
  refine Decides.bind_true start fun _ =>
    Decides.bind_true (delAttr_deleted (a := .channel) (by decide)) fun _ =>
    Decides.bind_true (delAttr_deleted (a := .requestExchange) (by decide)) fun _ =>
    Decides.bind_true (delAttr_deleted (a := .responseExchange) (by decide)) fun _ =>
    Decides.bind_true (delAttr_deleted (a := .eventExchange) (by decide)) fun _ =>
    Decides.bind_true (delAttr_deleted (a := .broadcastExchange) (by decide)) fun _ =>
    Decides.bind_true (delAttr_deleted (a := .responseQueue) (by decide)) fun _ =>
    Decides.bind_true (delAttr_deleted (a := .responseConsumer) (by decide)) fun _ =>
    Decides.modify fun s hs => ⟨hs.1, fun a => hs.2.1 a ?_⟩
  cases a <;> decide

theorem disconnect_full (w : World) :
    Decides Full (disconnect w) (w.raises .lock = none ∧ w.raises .close = none) (fun _ => Empty)
    (fun _ => Full) := by
  refine Decides.bind (await_decides (fun _ b h => Full.setClosed h b) fun _ h => h) fun _ =>
    Decides.get fun s hs => ?_
  obtain ⟨c, hc⟩ := Option.isSome_iff_exists.1 hs.1
  rw [hc]
  refine Decides.consequence (P := Full) ?_ (by rintro _ rfl; exact hs) (fun _ _ h => h)
  exact (Decides.bind (await_decides (fun _ b h => Full.setClosed h b) fun _ h => h) fun _ =>
    teardown_full).congr
    (Iff.of_eq (and_true _))

theorem disconnect_empty (w : World) :
    Decides Empty (disconnect w) (w.raises .lock = none) (fun _ => Empty) (fun _ => Empty) := by
  refine (Decides.bind (await_decides (fun _ b h => Empty.setClosed h b) fun _ h => h) fun _ =>
    Decides.get fun s hs => ?_).congr
    (Iff.of_eq (and_true _))
  rw [hs.1]
  refine Decides.pure ?_
  rintro _ rfl
  exact hs

/-! ## Runs -/

/-- Between two calls, if all went well. -/
def Settled (s : State) : Prop := Empty s ∨ Full s

/-- What one call owes, `s` before it and `s'` after it: `_connection` is there iff all the
others are; a `connect` that raised out of its setup leaves the transport unconnected and
for the next `connect` to set up; a `disconnect` whose own awaits complete returns and
leaves nothing behind. -/
structure ConnectOk (cfg : Config) (s : State) (e : Event) (s' : State) : Prop where
  allOrNothing : s'.connection.isSome ↔ ∀ a, (s'.attrs a).isSome
  failed : ∀ w q t r, e = .connect w q t → w.raises .lock = none →
    connect cfg w q t s = .error r s' →
    s'.isConnected = false ∧ ∀ w' q' t', w'.raises .lock = none → w'.raises .connectRobust = none →
      (after (connect cfg w' q' t' s')).opened = s'.opened + 1
  disconnected : ∀ w, e = .disconnect w → w.raises .lock = none → w.raises .close = none →
    disconnect w s = .ok () s' ∧ s'.connection = none ∧ ∀ a, s'.attrs a = none

/-- A `connect` that opens the connection completes. -/
def Completes (cfg : Config) (s : State) (e : Event) : Prop :=
  ∀ w q t, e = .connect w q t → s.connection = none → w.raises .lock = none →
    w.raises .connectRobust = none →
    ∀ a ∈ setupAwaits cfg, w.raises a = none

theorem Settled.allOrNothing {s : State} (h : Settled s) :
    s.connection.isSome ↔ ∀ a, (s.attrs a).isSome := by
  rcases h with h | h
  · exact iff_of_false (by simp [h.1]) fun hall => by simpa [h.2] using hall .channel
  · exact iff_of_true h.1 h.2

theorem Partial.not_allOrNothing {n : Nat} {s : State} (h : Partial n [] s) :
    ¬(s.connection.isSome ↔ ∀ a, (s.attrs a).isSome) := fun hiff => by
  have hconsumer := hiff.1 h.1.1 .responseConsumer
  rw [h.2.1] at hconsumer
  cases hconsumer

/-- An empty transport is not connected, and the next `connect` opens a connection. -/
theorem Empty.connect_again (cfg : Config) {s : State} (h : Empty s) :
    s.isConnected = false ∧ ∀ w q t, w.raises .lock = none → w.raises .connectRobust = none →
      (after (connect cfg w q t s)).opened = s.opened + 1 := by
  refine ⟨by simp [State.isConnected, h.1], fun w q t hlock hopen => ?_⟩
  have hd := connect_opened cfg hlock hopen s.opened q t s ⟨h, rfl⟩
  by_cases hall : ∀ a ∈ setupAwaits cfg, w.raises a = none
  · obtain ⟨_, s', hs', -, hn⟩ := hd.1 hall
    rw [hs']
    exact hn
  · obtain ⟨_, s', hs', hp⟩ := hd.2 hall
    rw [hs']
    exact hp.1.2

/-- A `connect` that returns owes no more than a settled transport. -/
theorem ConnectOk.of_returned {cfg : Config} {s m : State} {w : World} {q t : String}
    (hm : connect cfg w q t s = .ok () m) (hset : Settled m) :
    ConnectOk cfg s (.connect w q t) m := by
  refine ⟨hset.allOrNothing, ?_, fun _ he => (nomatch he)⟩
  rintro _ _ _ r ⟨⟩ - herr
  rw [hm] at herr
  cases herr

theorem connect_empty_step (cfg : Config) {s : State} (h : Empty s) (w : World) (q t : String) :
    (ConnectOk cfg s (.connect w q t) (after (connect cfg w q t s)) ↔ Completes cfg s
      (.connect w q t)) ∧
      (Completes cfg s (.connect w q t) → Settled (after (connect cfg w q t s))) := by
  by_cases hopen : w.raises .lock = none ∧ w.raises .connectRobust = none
  · have hd := connect_opened cfg hopen.1 hopen.2 s.opened q t s ⟨h, rfl⟩
    by_cases hall : ∀ a ∈ setupAwaits cfg, w.raises a = none
    · obtain ⟨_, m, hm, hfull, -⟩ := hd.1 hall
      have hc : Completes cfg s (.connect w q t) := by
        rintro _ _ _ ⟨⟩ - - -
        exact hall
      have hset : Settled m := Or.inr hfull
      rw [show after (connect cfg w q t s) = m from congrArg after hm]
      exact ⟨iff_of_true (.of_returned hm hset) hc, fun _ => hset⟩
    · obtain ⟨_, m, hm, hp⟩ := hd.2 hall
      have hnot : ¬Completes cfg s (.connect w q t) :=
        fun hc => hall (hc w q t rfl h.1 hopen.1 hopen.2)
      rw [show after (connect cfg w q t s) = m from congrArg after hm]
      exact ⟨iff_of_false (fun hok => hp.not_allOrNothing hok.allOrNothing) hnot, fun hc =>
        absurd hc hnot⟩
  · obtain ⟨_, m, hm, he⟩ := (connect_unopened cfg (fun h₁ h₂ => hopen ⟨h₁, h₂⟩) q t s h).2 id
    rw [show after (connect cfg w q t s) = m from congrArg after hm]
    refine ⟨iff_of_true ⟨Settled.allOrNothing (Or.inl he), fun _ _ _ _ _ _ _ =>
      he.connect_again cfg,
      fun _ he => (nomatch he)⟩ ?_, fun _ => Or.inl he⟩
    rintro _ _ _ ⟨⟩ - h₁ h₂
    exact absurd ⟨h₁, h₂⟩ hopen

theorem connect_full_step (cfg : Config) {s : State} (h : Full s) (w : World) (q t : String) :
    (ConnectOk cfg s (.connect w q t) (after (connect cfg w q t s)) ↔ Completes cfg s
      (.connect w q t)) ∧
      (Completes cfg s (.connect w q t) → Settled (after (connect cfg w q t s))) := by
  have hc : Completes cfg s (.connect w q t) := by
    intro _ _ _ _ hnone
    have hsome := h.1
    rw [hnone] at hsome
    cases hsome
  have hd := connect_full cfg w q t s h
  by_cases hlock : w.raises .lock = none
  · obtain ⟨_, m, hm, hfull⟩ := hd.1 hlock
    have hset : Settled m := Or.inr hfull
    rw [show after (connect cfg w q t s) = m from congrArg after hm]
    exact ⟨iff_of_true (.of_returned hm hset) hc, fun _ => hset⟩
  · obtain ⟨_, m, hm, hfull⟩ := hd.2 hlock
    rw [show after (connect cfg w q t s) = m from congrArg after hm]
    refine ⟨iff_of_true ⟨Settled.allOrNothing (Or.inr hfull), ?_, fun _ he => (nomatch he)⟩ hc,
      fun _ => Or.inr hfull⟩
    rintro _ _ _ _ ⟨⟩ h₁
    exact absurd h₁ hlock

theorem connect_step (cfg : Config) {s : State} (h : Settled s) (w : World) (q t : String) :
    (ConnectOk cfg s (.connect w q t) (after (connect cfg w q t s)) ↔ Completes cfg s
      (.connect w q t)) ∧
      (Completes cfg s (.connect w q t) → Settled (after (connect cfg w q t s))) := by
  rcases h with h | h
  · exact connect_empty_step cfg h w q t
  · exact connect_full_step cfg h w q t

theorem disconnect_step (cfg : Config) {s : State} (h : Settled s) (w : World) :
    ConnectOk cfg s (.disconnect w) (after (disconnect w s)) ∧
    Settled (after (disconnect w s)) := by
  have conclude : ∀ m, after (disconnect w s) = m → Settled m →
      (w.raises .lock = none → w.raises .close = none → disconnect w s = .ok () m ∧ Empty m) →
      ConnectOk cfg s (.disconnect w) (after (disconnect w s)) ∧
        Settled (after (disconnect w s)) := by
    rintro m rfl hset hok
    refine ⟨⟨hset.allOrNothing, fun _ _ _ _ he => (nomatch he), ?_⟩, hset⟩
    rintro _ ⟨⟩ hlock hclose
    exact hok hlock hclose
  rcases h with h | h
  · have hd := disconnect_empty w s h
    by_cases hlock : w.raises .lock = none
    · obtain ⟨_, m, hm, he⟩ := hd.1 hlock
      exact conclude m (by rw [hm]; rfl) (Or.inl he) fun _ _ => ⟨hm, he⟩
    · obtain ⟨_, m, hm, he⟩ := hd.2 hlock
      exact conclude m (by rw [hm]; rfl) (Or.inl he) fun h₁ => absurd h₁ hlock
  · have hd := disconnect_full w s h
    by_cases hquiet : w.raises .lock = none ∧ w.raises .close = none
    · obtain ⟨_, m, hm, he⟩ := hd.1 hquiet
      exact conclude m (by rw [hm]; rfl) (Or.inl he) fun _ _ => ⟨hm, he⟩
    · obtain ⟨_, m, hm, hf⟩ := hd.2 hquiet
      exact conclude m (by rw [hm]; rfl) (Or.inr hf) fun h₁ h₂ => absurd ⟨h₁, h₂⟩ hquiet

theorem Settled.update {s s' : State} (h : Settled s)
    (hc : s'.connection.isSome = s.connection.isSome) (ha : s'.attrs = s.attrs) : Settled s' := by
  rcases h with h | h
  · exact Or.inl ⟨by simpa [h.1] using hc, by rw [ha]; exact h.2⟩
  · exact Or.inr ⟨by rw [hc]; exact h.1, by rw [ha]; exact h.2⟩

/-- **One call.** From a settled state it does what it owes iff it is no `connect` that
stops halfway, and then it settles again. -/
theorem step_connectOk_iff (cfg : Config) {s s' : State} (h : Settled s) {e : Event}
    (hs : step cfg s e = some s') :
    (ConnectOk cfg s e s' ↔ Completes cfg s e) ∧ (Completes cfg s e → Settled s') := by
  cases hs
  have other : ∀ {m : State}, Settled m → (∀ w q t, e ≠ .connect w q t) → (∀ w, e ≠ .disconnect w) →
      (ConnectOk cfg s e m ↔ Completes cfg s e) ∧ (Completes cfg s e → Settled m) :=
        fun hm hcon hdis =>
    ⟨iff_of_true ⟨hm.allOrNothing, fun w q t _ he => absurd he (hcon w q t), fun w he =>
      absurd he (hdis w)⟩
      fun w q t he => absurd he (hcon w q t), fun _ => hm⟩
  cases e with
  | connect w q t => exact connect_step cfg h w q t
  | disconnect w =>
    obtain ⟨hok, hset⟩ := disconnect_step cfg h w
    exact ⟨iff_of_true hok fun _ _ _ he => (nomatch he), fun _ => hset⟩
  | isClosed b => exact other (h.update (Option.isSome_map) rfl) (by simp) (by simp)
  | registered b => exact other (h.update rfl rfl) (by simp) (by simp)

/-- **The runs in which `connect` is all or nothing** are those in which no `connect` that
opened the connection is stopped at a later await. -/
theorem connect_iff (cfg : Config) (es : List Event) :
    Along (step cfg) (ConnectOk cfg) .init es ↔ Along (step cfg)
    (fun s e _ => Completes cfg s e) .init es :=
  along_congr (I := Settled) (fun _ _ _ hi hc hs => (step_connectOk_iff cfg hi hs).2 hc)
    (fun _ _ _ hi hs => (step_connectOk_iff cfg hi hs).1) es (Or.inl ⟨rfl, fun _ => rfl⟩)

/-- The broker refuses to open the channel. -/
def noChannel : World := ⟨fun a => if a = .channel then some (.error "ChannelClosed") else none,
      fun _ => none⟩

/-- The connection stays behind, `is_connected()` holds, the next `connect` does nothing and
`disconnect` raises. -/
theorem half_connected :
    let s := after (connect Config.default noChannel "amq.gen-1" "ctag1" .init)
    let quiet : World := ⟨fun _ => none, fun _ => none⟩
    ¬ Along (step .default) (ConnectOk .default) .init [.connect noChannel "amq.gen-1" "ctag1"] ∧
      s.isConnected = true ∧ (after (connect .default quiet "amq.gen-2" "ctag2" s)).opened =
        s.opened ∧
      ∃ s', disconnect quiet s = .error .attributeError s' := by
  refine ⟨fun h => ?_, rfl, rfl, _, rfl⟩
  have hconsumer := ((h _ rfl).1.allOrNothing.1 rfl) .responseConsumer
  cases hconsumer

end Atasks.Amqp.Connect
