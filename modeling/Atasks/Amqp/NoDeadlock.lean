import Atasks.Amqp.Tasks
import Atasks.Lib.Waits
/-!
# No deadlock through the transport

The lock is held only from one await of the broker to the next, and a message is acked before
anything else is awaited for it. Both can be read off the code of the methods: `Code.Ok` follows
a code with what its task has so far, and `Inv` says that every task of a run is within such a
code. `no_deadlock` draws the conclusions: a task that has the lock or an unacked message
waits for the broker alone, so waits lead from a caller to tasks that came later, and from
there to one of these.
-/

namespace Atasks.Amqp.Tasks

open Machine

/-! ## What the code may await -/

/-- Fit for a task that has the lock or not, and has acked what it was started for or not: it
takes the lock once, and awaits replies, handlers and the lock without it and after the ack. -/
def Code.Ok (asks : CorrelationId → Prop) : Bool → Bool → Code → Prop
  | held, _, .done => held = false
  | held, acked, .acquire next => held = false ∧ acked = true ∧ next.Ok asks true true
  | held, acked, .release next => held = true ∧ next.Ok asks false acked
  | held, acked, .get next => ∀ a, (next a).Ok asks held acked
  | held, acked, .set _ next => next.Ok asks held acked
  | held, acked, .await op next => ∀ a, (next a).Ok asks held (acked || (op = .ack && a = .ok))
  | held, acked, .reply cid _ next =>
    held = false ∧ acked = true ∧ asks cid ∧ next.Ok asks false true
  | held, acked, .callback next => held = false ∧ acked = true ∧ ∀ e, (next e).Ok asks false true

section code

variable {asks asks' : CorrelationId → Prop}

theorem Code.Ok.mono (h : ∀ cid, asks cid → asks' cid) {c : Code} :
    ∀ {held acked : Bool}, c.Ok asks held acked → c.Ok asks' held acked := by
  induction c with
  | done => exact fun hc => hc
  | acquire next ih => exact fun ⟨hheld, hacked, hnext⟩ => ⟨hheld, hacked, ih hnext⟩
  | release next ih => exact fun ⟨hheld, hnext⟩ => ⟨hheld, ih hnext⟩
  | get next ih => exact fun hnext a => ih a (hnext a)
  | set f next ih => exact fun hnext => ih hnext
  | await op next ih => exact fun hnext a => ih a (hnext a)
  | reply cid timeout next ih =>
    exact fun ⟨hheld, hacked, hcid, hnext⟩ => ⟨hheld, hacked, h cid hcid, ih hnext⟩
  | callback next ih => exact fun ⟨hheld, hacked, hnext⟩ => ⟨hheld, hacked, fun e => ih e (hnext e)⟩

theorem ok_exit : exit.Ok asks true true := ⟨rfl, rfl⟩

theorem ok_inOrder {ops : List Op} {next : Code} (hnext : next.Ok asks true true) :
    (inOrder ops next).Ok asks true true := by
  induction ops with
  | nil => exact hnext
  | cons op ops ih =>
    intro a
    cases a with
    | ok => exact ih
    | publishError => exact ok_exit
    | cancelled => exact ok_exit
    | failed => exact ok_exit

theorem ok_disconnect : disconnect.Ok asks false true := by
  refine ⟨rfl, rfl, fun a => ?_⟩
  dsimp only
  split
  · intro answer
    cases answer <;> exact ok_exit
  · exact ok_exit

theorem ok_connect (cfg : Config) (tag : Tag) : (connect cfg tag).Ok asks false true := by
  refine ⟨rfl, rfl, fun a => ?_⟩
  dsimp only
  split
  · exact ok_exit
  · intro answer
    cases answer with
    | ok => exact ok_inOrder ok_exit
    | publishError => exact ok_exit
    | cancelled => exact ok_exit
    | failed => exact ok_exit

theorem ok_register (cfg : Config) (kind : Kind) (name : String) (tag : Tag) :
    (register cfg kind name tag).Ok asks false true :=
  ⟨rfl, rfl, ok_inOrder ok_exit⟩

theorem ok_cancelFound (a : Attrs) (found : Option Tag × Option Tag) :
    (cancelFound a found).Ok asks true true := by
  unfold cancelFound
  split
  · split
    · exact fun _ => ok_exit
    · exact ok_exit
  · exact ok_exit

theorem ok_unregister (kind : Kind) (name : String) : (unregister kind name).Ok asks false true :=
  ⟨rfl, rfl, fun a => ok_cancelFound a _⟩

theorem ok_sendRequest (cfg : Config) (name : String) (timeout : Option Nat) {cid : CorrelationId}
    (hcid : asks cid) :
    (sendRequest cfg name timeout cid).Ok asks false true := by
  have hwait : Code.Ok asks true true (.release
      (.reply cid timeout (.set (Attrs.pop cid) .done))) :=
    ⟨rfl, rfl, rfl, hcid, rfl⟩
  refine ⟨rfl, rfl, fun a => ?_⟩
  cases a with
  | ok => exact hwait
  | publishError => exact ok_exit
  | cancelled => exact ok_exit
  | failed => exact hwait

theorem ok_publish (exchange : String) (message : Message) :
    (publish exchange message).Ok asks false true := by
  refine ⟨rfl, rfl, fun a => ?_⟩
  cases a <;> exact ok_exit

/-- Every method, called by a task without the lock. -/
theorem ok_method (cfg : Config) {m : Method} (hdraws : ∀ cid, m.draws = some cid → asks cid) :
    (m.code cfg).Ok asks false true := by
  cases m with
  | disconnect => exact ok_disconnect
  | connect tag => exact ok_connect cfg tag
  | registerRequestCallback name tag => exact ok_register cfg .rpc name tag
  | unregisterRequestCallback name => exact ok_unregister .rpc name
  | sendRequest name timeout cid => exact ok_sendRequest cfg name timeout (hdraws cid rfl)
  | publishEvent name => exact ok_publish _ _
  | registerEventCallback name tag => exact ok_register cfg .queue name tag
  | unregisterEventCallback name => exact ok_unregister .queue name
  | publishBroadcast name => exact ok_publish _ _
  | registerBroadcastCallback name tag => exact ok_register cfg .broadcast name tag
  | unregisterBroadcastCallback name => exact ok_unregister .broadcast name

theorem ok_onMessage (cfg : Config) (cid : CorrelationId) :
    (onMessage cfg cid).Ok asks false false := by
  intro a
  cases a with
  | ok =>
    refine ⟨rfl, rfl, fun e => ?_⟩
    cases e with
    | returned =>
      intro a
      cases a <;> rfl
    | raised => rfl
    | cancelled => rfl
  | publishError => rfl
  | cancelled => rfl
  | failed => rfl

theorem ok_onEventMessage : onEventMessage.Ok asks false false := by
  intro a
  cases a with
  | ok => exact ⟨rfl, rfl, fun _ => rfl⟩
  | publishError => rfl
  | cancelled => rfl
  | failed => rfl

theorem ok_onResponseMessage (cid : CorrelationId) :
    (onResponseMessage cid).Ok asks false false := by
  intro a
  cases a <;> rfl

/-- Every consumer callback, for a message that has just been delivered. -/
theorem ok_message (cfg : Config) (m : Message) : (m.code cfg).Ok asks false false := by
  cases m with
  | request name cid => exact ok_onMessage cfg cid
  | response cid => exact ok_onResponseMessage cid
  | event name => exact ok_onEventMessage
  | broadcast name => exact ok_onEventMessage

end code

/-! ## The invariant -/

def State.Asks (s : State) (k : TaskId) (cid : CorrelationId) : Prop := s.askedBy cid = some k

def State.holds (s : State) (k : TaskId) : Bool := s.lock = some k

/-- Nothing is left to ack for the task. -/
def State.Acked (s : State) (k : TaskId) : Prop := ∀ d ∈ s.unacked, d.task ≠ k

/-- While user code runs, the task is without the lock and has acked. -/
def Control.Ok (asks : CorrelationId → Prop) (held acked : Bool) : Control → Prop
  | .user => held = false ∧ acked = true
  | .code c => c.Ok asks held acked

def Frame.Ok (asks : CorrelationId → Prop) : Frame → Prop
  | .user => True
  | .callback next => ∀ e, (next e).Ok asks false true

structure Task.Ok (s : State) (k : TaskId) (t : Task) (acked : Bool) : Prop where
  free : acked = true → s.Acked k
  performed : t.performed = true → ∀ next, t.control = .code (.await .ack next) → s.Acked k
  below : t.below ≠ [] → acked = true
  frames : ∀ frame ∈ t.below, frame.Ok (s.Asks k)
  control : t.control.Ok (s.Asks k) (s.holds k) acked

/-- Whoever may wait for the task came before it. -/
structure Task.Later (s : State) (k : TaskId) (t : Task) : Prop where
  id : k < s.nextTask
  parent : ∀ p, t.parent = some p → p < k
  issued : ∀ cid, t.message.bind Message.about = some cid → cid ∈ s.issued
  asked : ∀ cid, t.message.bind Message.about = some cid → ∀ p, s.askedBy cid = some p → p < k

structure Inv (s : State) : Prop where
  ok : ∀ k t, s.tasks k = some t → ∃ acked, t.Ok s k acked
  later : ∀ k t, s.tasks k = some t → t.Later s k
  holder : ∀ k, s.lock = some k → ∃ t, s.tasks k = some t
  waiters : ∀ k ∈ s.waiters, ∃ t next, s.tasks k = some t ∧ t.control = .code (.acquire next)
  nodup : s.waiters.Nodup
  asked : ∀ cid k, s.askedBy cid = some k → cid ∈ s.issued ∧ k < s.nextTask
  queued : ∀ m ∈ s.queued, ∀ cid, m.about = some cid → cid ∈ s.issued
  unacked : ∀ d ∈ s.unacked, d.task < s.nextTask ∧ ∀ cid, d.message.about = some cid →
    cid ∈ s.issued

variable {s s' : State} {k : TaskId} {t t' : Task}

/-- What happens to one task, as another sees it. -/
structure Beside (s s' : State) (k : TaskId) : Prop where
  tasks : ∀ k', k' ≠ k → s'.tasks k' = s.tasks k'
  nextTask : s.nextTask ≤ s'.nextTask
  lock : ∀ k', k' ≠ k → (s'.lock = some k' ↔ s.lock = some k')
  unacked : ∀ d ∈ s'.unacked, d ∈ s.unacked ∨ d.task = k
  issued : ∀ cid ∈ s.issued, cid ∈ s'.issued
  asked : ∀ cid p, s.askedBy cid = some p → s'.askedBy cid = some p
  drawn : ∀ cid p, s'.askedBy cid = some p → s.askedBy cid = some p ∨ cid ∉ s.issued

/-- No request id is drawn. -/
theorem Beside.update {o : Option Task} (htasks : s'.tasks = Function.update s.tasks k o)
    (hnext : s.nextTask ≤ s'.nextTask)
    (hlock : ∀ k', k' ≠ k → (s'.lock = some k' ↔ s.lock = some k'))
    (hunacked : ∀ d ∈ s'.unacked, d ∈ s.unacked ∨ d.task = k) (hissued : s'.issued = s.issued)
    (hasked : s'.askedBy = s.askedBy) : Beside s s' k where
  tasks k' hne := by rw [htasks, Function.update_of_ne hne]
  nextTask := hnext
  lock := hlock
  unacked := hunacked
  issued cid hcid := hissued ▸ hcid
  asked cid p hp := hasked ▸ hp
  drawn cid p hp := Or.inl (hasked ▸ hp)

theorem Task.Ok.beside (hb : Beside s s' k) {k' : TaskId} (hne : k' ≠ k) {acked : Bool}
    (h : t.Ok s k' acked) :
    t.Ok s' k' acked := by
  have hacked : s.Acked k' → s'.Acked k' := by
    intro hs d hd
    rcases hb.unacked d hd with hold | hnew
    · exact hs d hold
    · rw [hnew]
      exact hne.symm
  have hasks : ∀ cid, s.Asks k' cid → s'.Asks k' cid := fun cid hcid => hb.asked cid k' hcid
  have hholds : s'.holds k' = s.holds k' := by simp only [State.holds, hb.lock k' hne]
  refine ⟨fun ha => hacked (h.free ha), fun hp next hn => hacked (h.performed hp next hn),
    h.below, ?_, ?_⟩
  · intro frame hf
    have hok := h.frames frame hf
    cases frame with
    | user => trivial
    | callback next => exact fun e => (hok e).mono hasks
  · have hok := h.control
    rw [hholds]
    cases hc : t.control with
    | user =>
      rw [hc] at hok
      exact hok
    | code c =>
      rw [hc] at hok
      exact Code.Ok.mono hasks hok

theorem Task.Later.beside (hb : Beside s s' k) {k' : TaskId} (h : t.Later s k') :
    t.Later s' k' := by
  refine ⟨h.id.trans_le hb.nextTask, h.parent, fun cid hcid => hb.issued cid (h.issued cid hcid),
    ?_⟩
  intro cid hcid p hp
  rcases hb.drawn cid p hp with hold | hnew
  · exact h.asked cid hcid p hold
  · exact absurd (h.issued cid hcid) hnew

/-- A step of task `k`, whatever else it changes. -/
theorem Inv.beside (hi : Inv s) (hb : Beside s s' k)
    (htask : ∀ t, s'.tasks k = some t → (∃ acked, t.Ok s' k acked) ∧ t.Later s' k)
    (hholder : s'.lock = some k → ∃ t, s'.tasks k = some t)
    (hwaiters : ∀ k' ∈ s'.waiters,
      (k' ∈ s.waiters ∧ k' ≠ k) ∨ ∃ t next, s'.tasks k' = some t ∧
      t.control = .code (.acquire next))
    (hnodup : s'.waiters.Nodup)
    (hasked : ∀ cid p, s'.askedBy cid = some p → s.askedBy cid = some p ∨
      (cid ∈ s'.issued ∧ p < s'.nextTask))
    (hqueued : ∀ m ∈ s'.queued, m ∈ s.queued ∨ ∀ cid, m.about = some cid → cid ∈ s'.issued)
    (hunacked : ∀ d ∈ s'.unacked, d ∈ s.unacked ∨
      (d.task < s'.nextTask ∧ ∀ cid, d.message.about = some cid → cid ∈ s'.issued)) : Inv s' := by
  constructor
  · intro k' t hk'
    by_cases hne : k' = k
    · exact (htask t (hne ▸ hk')).1.imp fun acked hok => hne ▸ hok
    · rw [hb.tasks k' hne] at hk'
      exact (hi.ok k' t hk').imp fun acked hok => hok.beside hb hne
  · intro k' t hk'
    by_cases hne : k' = k
    · exact hne ▸ (htask t (hne ▸ hk')).2
    · rw [hb.tasks k' hne] at hk'
      exact (hi.later k' t hk').beside hb
  · intro k' hk'
    by_cases hne : k' = k
    · exact hne ▸ hholder (hne ▸ hk')
    · rw [hb.tasks k' hne]
      exact hi.holder k' ((hb.lock k' hne).1 hk')
  · intro k' hk'
    rcases hwaiters k' hk' with ⟨hold, hne⟩ | hnew
    · rw [hb.tasks k' hne]
      exact hi.waiters k' hold
    · exact hnew
  · exact hnodup
  · intro cid p hp
    rcases hasked cid p hp with hold | hnew
    · obtain ⟨hcid, hlt⟩ := hi.asked cid p hold
      exact ⟨hb.issued cid hcid, hlt.trans_le hb.nextTask⟩
    · exact hnew
  · intro m hm cid hcid
    rcases hqueued m hm with hold | hnew
    · exact hb.issued cid (hi.queued m hold cid hcid)
    · exact hnew cid hcid
  · intro d hd
    rcases hunacked d hd with hold | hnew
    · obtain ⟨hlt, hcid⟩ := hi.unacked d hold
      exact ⟨hlt.trans_le hb.nextTask, fun cid h => hb.issued cid (hcid cid h)⟩
    · exact hnew

theorem inv_init : Inv .init := by
  constructor <;> simp [State.init]

/-! ## Every step keeps it -/

variable {acked : Bool}

theorem Task.Ok.congr (h : t.Ok s k acked) (hunacked : s'.unacked = s.unacked)
    (hasked : s'.askedBy = s.askedBy) (hlock : s'.lock = s.lock) : t.Ok s' k acked := by
  have hasks : s'.Asks k = s.Asks k := by
    funext cid
    simp only [State.Asks, hasked]
  have hacked : s'.Acked k = s.Acked k := by simp only [State.Acked, hunacked]
  have hholds : s'.holds k = s.holds k := by simp only [State.holds, hlock]
  constructor
  · rw [hacked]
    exact h.free
  · rw [hacked]
    exact h.performed
  · exact h.below
  · rw [hasks]
    exact h.frames
  · rw [hasks, hholds]
    exact h.control

theorem Task.Later.congr (h : t.Later s k) (hmessage : t'.message = t.message)
    (hparent : t'.parent = t.parent) (hnext : s'.nextTask = s.nextTask)
    (hissued : s'.issued = s.issued) (hasked : s'.askedBy = s.askedBy) :
    t'.Later s' k := by
  constructor
  · rw [hnext]
    exact h.id
  · rw [hparent]
    exact h.parent
  · rw [hmessage, hissued]
    exact h.issued
  · rw [hmessage, hasked]
    exact h.asked

/-- Where a task that is within its code goes next. -/
theorem Task.Ok.goto (h : t.Ok s k acked) {c : Code} (hc : c.Ok (s.Asks k) (s.holds k) acked) :
    (t.goto c).Ok s k acked where
  free := h.free
  performed := by simp [Task.goto]
  below := h.below
  frames := h.frames
  control := hc

theorem Inv.not_waiting (hi : Inv s) (hk : s.tasks k = some t)
    (hc : ∀ next, t.control ≠ .code (.acquire next)) :
    k ∉ s.waiters := by
  intro hmem
  obtain ⟨t', next, hk', hc'⟩ := hi.waiters k hmem
  rw [hk] at hk'
  cases hk'
  exact hc next hc'

/-- A task goes on, with or without the lock and the queue for it. -/
theorem Inv.put (hi : Inv s) (hk : s.tasks k = some t) {lock : Option TaskId}
    {waiters : List TaskId} {attrs : Attrs}
    (hlock : ∀ k', k' ≠ k → (lock = some k' ↔ s.lock = some k'))
    (hwaiters : ∀ k' ∈ waiters, k' ∈ s.waiters ∧ k' ≠ k) (hnodup : waiters.Nodup)
    (hok : t'.Ok { s with lock } k acked) (hmessage : t'.message = t.message)
    (hparent : t'.parent = t.parent) : Inv { s.put k t' with lock, waiters, attrs } := by
  have hb : Beside s { s.put k t' with lock, waiters, attrs } k :=
    .update rfl (Nat.le_refl _) hlock (fun d hd => Or.inl hd) rfl rfl
  have hself : (s.put k t').tasks k = some t' := Function.update_self ..
  refine hi.beside hb (fun t'' ht'' => ?_) (fun _ => ⟨t', hself⟩)
    (fun k' hk' => Or.inl (hwaiters k' hk')) hnodup
    (fun cid p hp => Or.inl hp) (fun m hm => Or.inl hm) (fun d hd => Or.inl hd)
  cases hself.symm.trans ht''
  exact ⟨⟨acked, hok.congr rfl rfl rfl⟩, (hi.later k t hk).congr hmessage hparent rfl rfl rfl⟩

theorem Inv.others_waiting (hi : Inv s) (hk : s.tasks k = some t)
    (hc : ∀ next, t.control ≠ .code (.acquire next)) :
    ∀ k' ∈ s.waiters, k' ∈ s.waiters ∧ k' ≠ k := by
  intro k' hk'
  refine ⟨hk', ?_⟩
  rintro rfl
  exact hi.not_waiting hk hc hk'

/-- The same where neither is touched. -/
theorem Inv.goOn (hi : Inv s) (hk : s.tasks k = some t) {attrs : Attrs}
    (hc : ∀ next, t.control ≠ .code (.acquire next)) (hok : t'.Ok s k acked)
    (hmessage : t'.message = t.message) (hparent : t'.parent = t.parent) :
    Inv { s.put k t' with attrs } :=
  hi.put hk (fun _ _ => Iff.rfl) (hi.others_waiting hk hc) hi.nodup hok hmessage hparent

/-- A task that ends has neither the lock nor a place in the queue. -/
theorem Inv.remove (hi : Inv s) (hk : s.tasks k = some t) (hheld : s.holds k = false)
    (hc : ∀ next, t.control ≠ .code (.acquire next)) : Inv (s.remove k) := by
  have hb : Beside s (s.remove k) k := .update rfl (Nat.le_refl _) (fun _ _ => Iff.rfl)
    (fun d hd => Or.inl hd) rfl rfl
  have hself : (s.remove k).tasks k = none := Function.update_self ..
  refine hi.beside hb (fun t' ht' => ?_) (fun hlock => ?_)
    (fun k' hk' => Or.inl (hi.others_waiting hk hc k' hk')) hi.nodup
    (fun cid p hp => Or.inl hp) (fun m hm => Or.inl hm) (fun d hd => Or.inl hd)
  · rw [hself] at ht'
    cases ht'
  · simp only [State.holds, decide_eq_false_iff_not] at hheld
    exact absurd hlock hheld

theorem holds_eq_true_iff : s.holds k = true ↔ s.lock = some k := by
  simp [State.holds]

/-- Only the lock of one task changes. -/
theorem lock_released (hheld : s.holds k = true) :
    ∀ k', k' ≠ k → ((none : Option TaskId) = some k' ↔ s.lock = some k') := by
  intro k' hne
  rw [holds_eq_true_iff.1 hheld]
  simp [hne.symm]

theorem lock_taken (hfree : s.lock = none) :
    ∀ k', k' ≠ k → (some k = some k' ↔ s.lock = some k') := by
  intro k' hne
  rw [hfree]
  simp [hne.symm]

/-- The task goes on with another hold of the lock. -/
theorem Task.Ok.relock (h : t.Ok s k acked) {lock : Option TaskId} {c : Code}
    (hc : c.Ok (s.Asks k) (State.holds { s with lock } k) acked) :
    (t.goto c).Ok { s with lock } k acked where
  free := h.free
  performed := by simp [Task.goto]
  below := h.below
  frames := h.frames
  control := hc

theorem Inv.go (hi : Inv s) (hs : go s k = some s') : Inv s' := by
  unfold Tasks.go at hs
  split at hs
  · rename_i t hk
    obtain ⟨acked, hok⟩ := hi.ok k t hk
    have hcontrol := hok.control
    split at hs
    · rename_i next hc
      cases hs
      rw [hc] at hcontrol
      exact hi.goOn hk (by simp [hc]) (hok.goto (hcontrol s.attrs)) rfl rfl
    · rename_i f next hc
      cases hs
      rw [hc] at hcontrol
      exact hi.goOn hk (by simp [hc]) (hok.goto hcontrol) rfl rfl
    · rename_i next hc
      cases hs
      rw [hc] at hcontrol
      obtain ⟨hheld, hnext⟩ := hcontrol
      exact hi.put hk (lock_released hheld) (hi.others_waiting hk (by simp [hc])) hi.nodup
        (hok.relock hnext) rfl rfl
    · -- the handler starts
      rename_i next hc
      cases hs
      rw [hc] at hcontrol
      obtain ⟨hheld, hacked, hnext⟩ := hcontrol
      have hframes : ∀ frame ∈ .callback next :: t.below, frame.Ok (s.Asks k) := by
        intro frame hf
        rcases List.mem_cons.1 hf with rfl | hf
        · exact hnext
        · exact hok.frames frame hf
      have hok' :
          Task.Ok s k { t with control := .user, below := .callback next :: t.below } acked :=
        ⟨hok.free, by simp, fun _ => hacked, hframes, hheld, hacked⟩
      exact hi.goOn hk (by simp [hc]) hok' rfl rfl
    · rename_i hc
      rw [hc] at hcontrol
      split at hs
      · cases hs
        exact hi.remove hk hcontrol (by simp [hc])
      · -- a method returns to the user code that called it
        rename_i below hbelow
        cases hs
        have hacked : acked = true := hok.below (by simp [hbelow])
        have hframes : ∀ frame ∈ below, frame.Ok (s.Asks k) :=
          fun frame hf => hok.frames frame (by simp [hbelow, hf])
        have hok' : Task.Ok s k { t with control := .user, below } acked :=
          ⟨hok.free, by simp, fun _ => hacked, hframes, hcontrol, hacked⟩
        exact hi.goOn hk (by simp [hc]) hok' rfl rfl
      · cases hs
    · cases hs
  · cases hs

theorem Inv.answer {a : Answer} (hi : Inv s) (hs : answer s k a = some s') : Inv s' := by
  unfold Tasks.answer at hs
  split at hs
  · rename_i t hk
    obtain ⟨acked, hok⟩ := hi.ok k t hk
    have hcontrol := hok.control
    split at hs
    · rename_i op next hc
      rw [hc] at hcontrol
      split at hs
      · cases hs
      · rename_i hmay
        cases hs
        -- a good answer to an ack comes after the broker has had it
        have hfree : (acked || (op = .ack && a = .ok)) = true → s.Acked k := by
          intro h
          rcases Bool.or_eq_true_iff.1 h with hacked | hack
          · exact hok.free hacked
          · simp only [Bool.and_eq_true, decide_eq_true_eq] at hack
            obtain ⟨rfl, rfl⟩ := hack
            exact hok.performed (by simpa using hmay) next hc
        have hok' : (t.goto (next a)).Ok s k (acked || (op = .ack && a = .ok)) :=
          ⟨hfree, by simp [Task.goto], fun hb => by simp [hok.below hb], hok.frames, hcontrol a⟩
        exact hi.goOn hk (by simp [hc]) hok' rfl rfl
    · cases hs
  · cases hs

theorem Inv.wake {w : Wake} (hi : Inv s) (hs : wake s k w = some s') : Inv s' := by
  unfold Tasks.wake at hs
  split at hs
  · rename_i t hk
    obtain ⟨acked, hok⟩ := hi.ok k t hk
    have hcontrol := hok.control
    split at hs
    · rename_i cid timeout next hc
      rw [hc] at hcontrol
      obtain ⟨hheld, rfl, -, hnext⟩ := hcontrol
      split at hs
      · cases hs
        exact hi.goOn hk (by simp [hc]) (hok.goto (hheld ▸ hnext)) rfl rfl
      · cases hs
    · cases hs
  · cases hs

theorem Inv.leave {e : Ended} (hi : Inv s) (hs : leave s k e = some s') : Inv s' := by
  unfold Tasks.leave at hs
  split at hs
  · rename_i message parent below performed hk
    obtain ⟨acked, hok⟩ := hi.ok k _ hk
    obtain ⟨hheld, hacked⟩ := hok.control
    split at hs
    · cases hs
      exact hi.remove hk hheld (by simp)
    · rename_i next below
      cases hs
      subst hacked
      have hnext : ∀ e, (next e).Ok (s.Asks k) false true := hok.frames _ List.mem_cons_self
      have hok' : Task.Ok s k ⟨message, parent, .code (next e), below, false⟩ true :=
        ⟨hok.free, by simp, fun _ => rfl, fun frame hf => hok.frames frame
          (List.mem_cons_of_mem _ hf), hheld ▸ hnext e⟩
      exact hi.goOn hk (by simp) hok' rfl rfl
    · cases hs
  · cases hs

/-! ### The lock -/

theorem Inv.enter (hi : Inv s) (hs : enter s k = some s') : Inv s' := by
  unfold Tasks.enter at hs
  split at hs
  · rename_i t hk
    obtain ⟨acked, hok⟩ := hi.ok k t hk
    have hcontrol := hok.control
    split at hs
    · rename_i next hc
      rw [hc] at hcontrol
      obtain ⟨hheld, rfl, hnext⟩ := hcontrol
      split at hs
      · cases hs
      · rename_i hnotin
        split at hs
        · rename_i hfree
          cases hs
          have hholds : State.holds { s with lock := some k } k = true := by simp [State.holds]
          exact hi.put hk (lock_taken hfree.1) (by simp [State.put, hfree.2]) hi.nodup
            (hok.relock (hholds ▸ hnext)) rfl rfl
        · cases hs
          have hb : Beside s { s with waiters := s.waiters ++ [k] } k :=
            ⟨fun _ _ => rfl, Nat.le_refl _, fun _ _ => Iff.rfl, fun d hd => Or.inl hd,
              fun cid hcid => hcid,
              fun cid p hp => hp, fun cid p hp => Or.inl hp⟩
          refine hi.beside hb (fun t' ht' => ?_) (fun hlock => hi.holder k hlock)
            (fun k' hk' => ?_) ?_
            (fun cid p hp => Or.inl hp) (fun m hm => Or.inl hm) (fun d hd => Or.inl hd)
          · exact ⟨(hi.ok k t' ht').imp fun _ h => h.congr rfl rfl rfl,
              (hi.later k t' ht').congr rfl rfl rfl rfl rfl⟩
          · rcases List.mem_append.1 hk' with hold | hnew
            · refine Or.inl ⟨hold, ?_⟩
              rintro rfl
              exact hnotin hold
            · cases List.mem_singleton.1 hnew
              exact Or.inr ⟨t, next, hk, hc⟩
          · rw [← List.concat_eq_append]
            exact List.Nodup.concat hnotin hi.nodup
    · cases hs
  · cases hs

theorem Inv.grant (hi : Inv s) (hs : grant s = some s') : Inv s' := by
  unfold Tasks.grant at hs
  split at hs
  · rename_i k rest hfree hwaiters
    split at hs
    · rename_i t hk
      obtain ⟨acked, hok⟩ := hi.ok k t hk
      have hcontrol := hok.control
      split at hs
      · rename_i next hc
        cases hs
        rw [hc] at hcontrol
        obtain ⟨hheld, rfl, hnext⟩ := hcontrol
        have hnodup := hi.nodup
        rw [hwaiters, List.nodup_cons] at hnodup
        have hrest : ∀ k' ∈ rest, k' ∈ s.waiters ∧ k' ≠ k := by
          intro k' hk'
          refine ⟨hwaiters ▸ List.mem_cons_of_mem _ hk', ?_⟩
          rintro rfl
          exact hnodup.1 hk'
        have hholds : State.holds { s with lock := some k } k = true := by simp [State.holds]
        exact hi.put hk (lock_taken hfree) hrest hnodup.2 (hok.relock (hholds ▸ hnext)) rfl rfl
      · cases hs
    · cases hs
  · cases hs

theorem Inv.giveUp (hi : Inv s) (hs : giveUp s k = some s') : Inv s' := by
  unfold Tasks.giveUp at hs
  split at hs
  · rename_i t hk
    split at hs
    · rename_i hwaits
      cases hs
      obtain ⟨acked, hok⟩ := hi.ok k t hk
      obtain ⟨t', next, hk', hc⟩ := hi.waiters k hwaits
      rw [hk] at hk'
      cases hk'
      have hcontrol := hok.control
      rw [hc] at hcontrol
      have hdone : Code.Ok (s.Asks k) (s.holds k) acked .done := hcontrol.1
      have hothers : ∀ k' ∈ s.waiters.filter (· != k), k' ∈ s.waiters ∧ k' ≠ k := by
        intro k' hk'
        simpa using hk'
      exact hi.put hk (fun _ _ => Iff.rfl) hothers (hi.nodup.filter _) (hok.goto hdone) rfl rfl
    · cases hs
  · cases hs

/-! ### Around the tasks -/

theorem Inv.next_free (hi : Inv s) : s.tasks s.nextTask = none := by
  cases h : s.tasks s.nextTask with
  | none => rfl
  | some t => exact absurd (hi.later _ t h).id (lt_irrefl _)

theorem Inv.next_not_waiting (hi : Inv s) : ∀ k ∈ s.waiters, k ∈ s.waiters ∧ k ≠ s.nextTask := by
  intro k hk
  refine ⟨hk, ?_⟩
  rintro rfl
  obtain ⟨t, next, ht, -⟩ := hi.waiters _ hk
  rw [hi.next_free] at ht
  cases ht

/-- A step of no task. -/
theorem Inv.around (hi : Inv s) (htasks : s'.tasks = s.tasks) (hnext : s'.nextTask = s.nextTask)
    (hlock : s'.lock = s.lock) (hwaiters : s'.waiters = s.waiters)
    (hissued : ∀ cid ∈ s.issued, cid ∈ s'.issued)
    (hasked : ∀ cid p, s.askedBy cid = some p → s'.askedBy cid = some p)
    (hdrawn : ∀ cid p, s'.askedBy cid = some p → s.askedBy cid = some p ∨
      (cid ∉ s.issued ∧ cid ∈ s'.issued ∧ p < s'.nextTask))
    (hqueued : ∀ m ∈ s'.queued, m ∈ s.queued ∨ ∀ cid, m.about = some cid → cid ∈ s'.issued)
    (hunacked : ∀ d ∈ s'.unacked, d ∈ s.unacked) : Inv s' := by
  have hb : Beside s s' s.nextTask :=
    ⟨fun k' _ => by rw [htasks], hnext.ge, fun k' _ => by rw [hlock], fun d hd =>
      Or.inl (hunacked d hd), hissued, hasked,
      fun cid p hp => (hdrawn cid p hp).imp_right And.left⟩
  refine hi.beside hb (fun t ht => ?_) (fun hl => ?_)
    (fun k' hk' => Or.inl (hi.next_not_waiting k' (hwaiters ▸ hk')))
    (hwaiters ▸ hi.nodup) (fun cid p hp => (hdrawn cid p hp).imp_right And.right) hqueued
    (fun d hd => Or.inl (hunacked d hd))
  · rw [htasks, hi.next_free] at ht
    cases ht
  · rw [htasks]
    exact hi.holder _ (hlock ▸ hl)

theorem Inv.consumers (hi : Inv s) (consumers : List (Tag × Queue)) : Inv { s with consumers } :=
  hi.around rfl rfl rfl rfl (fun _ h => h) (fun _ _ h => h) (fun _ _ h => Or.inl h)
    (fun _ h => Or.inl h) (fun _ h => h)

theorem Inv.enqueue (hi : Inv s) (m : Message) : Inv (s.enqueue m) := by
  refine hi.around rfl rfl rfl rfl (fun _ h => List.mem_append_right _ h) (fun _ _ h => h)
    (fun _ _ h => Or.inl h)
    (fun m' hm' => ?_) (fun _ h => h)
  rcases List.mem_append.1 hm' with hold | hnew
  · exact Or.inl hold
  · cases List.mem_singleton.1 hnew
    exact Or.inr fun cid hcid => List.mem_append_left _ (by simp [hcid])

theorem Inv.taken (hi : Inv s) (m : Message) : Inv { s with queued := s.queued.erase m } :=
  hi.around rfl rfl rfl rfl (fun _ h => h) (fun _ _ h => h) (fun _ _ h => Or.inl h)
    (fun _ h => Or.inl (List.mem_of_mem_erase h)) (fun _ h => h)

theorem Inv.lost (hi : Inv s) (kept : Message → Bool) (closed : Bool) :
    Inv (lost s kept closed) := by
  refine hi.around rfl rfl rfl rfl (fun _ h => h) (fun _ _ h => h) (fun _ _ h => Or.inl h)
    (fun m hm => ?_)
    (fun d hd => by cases hd)
  rcases List.mem_append.1 (List.mem_filter.1 hm).1 with hold | hback
  · exact Or.inl hold
  · obtain ⟨d, hd, rfl⟩ := List.mem_map.1 hback
    exact Or.inr (hi.unacked d hd).2

theorem Inv.op (hi : Inv s) (op : Op) (routed : Bool) : Inv (op.perform s k routed) := by
  cases op with
  | publish exchange m =>
    cases routed with
    | true => exact hi.enqueue m
    | false => exact hi
  | consume queue tag => exact hi.consumers _
  | cancel tag => exact hi.consumers _
  | ack =>
    exact hi.around rfl rfl rfl rfl (fun _ h => h) (fun _ _ h => h) (fun _ _ h => Or.inl h)
      (fun _ h => Or.inl h)
      (fun _ h => List.mem_of_mem_filter h)
  | _ => exact hi

theorem tasks_perform (op : Op) (routed : Bool) : (op.perform s k routed).tasks = s.tasks := by
  cases op with
  | publish exchange m => cases routed <;> rfl
  | _ => rfl

theorem acked_perform {routed : Bool} : State.Acked (Op.ack.perform s k routed) k := by
  intro d hd
  simpa using (List.mem_filter.1 hd).2

theorem Inv.perform {routed : Bool} (hi : Inv s) (hs : perform s k routed = some s') : Inv s' := by
  unfold Tasks.perform at hs
  split at hs
  · rename_i t hk
    split at hs
    · rename_i op next hc
      split at hs
      · cases hs
      · cases hs
        have hi' : Inv (op.perform s k routed) := hi.op op routed
        have hk' : (op.perform s k routed).tasks k = some t := by rw [tasks_perform, hk]
        obtain ⟨acked, hok⟩ := hi'.ok k t hk'
        have hok' : Task.Ok (op.perform s k routed) k { t with performed := true } acked := by
          refine ⟨hok.free, fun _ next' hack => ?_, hok.below, hok.frames, hok.control⟩
          have hop : op = .ack := by
            have := hc.symm.trans hack
            simp at this
            exact this.1
          rw [hop]
          exact acked_perform
        exact hi'.goOn hk' (by simp [hc]) hok' rfl rfl
    · cases hs
  · cases hs

/-! ### Calls and new tasks -/

/-- The id a call draws is its own from then on. -/
theorem Inv.draw (hi : Inv s) (hk : s.tasks k = some t) {cid : CorrelationId}
    (hnew : cid ∉ s.issued) :
    Inv { s with
      issued := cid :: s.issued, askedBy := Function.update s.askedBy cid (some k) } := by
  refine hi.around rfl rfl rfl rfl (fun _ h => List.mem_cons_of_mem _ h) (fun cid' p hp => ?_)
    (fun cid' p hp => ?_)
    (fun _ h => Or.inl h) (fun _ h => h)
  · have hne : cid' ≠ cid := by
      rintro rfl
      exact hnew (hi.asked _ p hp).1
    simpa [Function.update_of_ne hne] using hp
  · rcases Dict.lookup_update hp with ⟨rfl, hself⟩ | ⟨-, hold⟩
    · exact Or.inr ⟨hnew, List.mem_cons_self, hself ▸ (hi.later k t hk).id⟩
    · exact Or.inl hold

/-- User code goes into a method. -/
theorem Inv.call (cfg : Config) {m : Method} {message : Option Message} {parent : Option TaskId}
    {below : List Frame} {performed : Bool} (hi : Inv s)
    (hk : s.tasks k = some ⟨message, parent, .user, below, performed⟩)
    (hdraws : ∀ cid, m.draws = some cid → s.Asks k cid) :
    Inv (s.put k ⟨message, parent, .code (m.code cfg), .user :: below, false⟩) := by
  obtain ⟨acked, hok⟩ := hi.ok k _ hk
  obtain ⟨hheld, rfl⟩ := hok.control
  have hframes : ∀ frame ∈ .user :: below, frame.Ok (s.Asks k) := by
    intro frame hf
    rcases List.mem_cons.1 hf with rfl | hf
    · trivial
    · exact hok.frames frame hf
  have hok' : Task.Ok s k ⟨message, parent, .code (m.code cfg), .user :: below, false⟩ true :=
    ⟨hok.free, by simp, fun _ => rfl, hframes, hheld ▸ ok_method cfg hdraws⟩
  exact hi.goOn hk (by simp) hok' rfl rfl

theorem Inv.invoke {cfg : Config} {m : Method} (hi : Inv s) (hs : invoke cfg s k m = some s') :
    Inv s' := by
  unfold Tasks.invoke at hs
  split at hs
  · rename_i message parent below performed hk
    dsimp only at hs
    split at hs
    · rename_i hdraws
      cases hs
      exact hi.call cfg hk (by simp [hdraws])
    · rename_i cid hdraws
      split at hs
      · cases hs
      · rename_i hnew
        cases hs
        refine (hi.draw hk hnew).call cfg hk fun cid' hcid' => ?_
        rw [hdraws] at hcid'
        cases hcid'
        exact Function.update_self ..
  · cases hs

/-- A new task. -/
theorem Inv.added (hi : Inv s) (hb : Beside s s' s.nextTask) (hself : s'.tasks s.nextTask = some t)
    (hnext : s'.nextTask = s.nextTask + 1) (hwaiters : s'.waiters = s.waiters)
    (hasked : s'.askedBy = s.askedBy) (hok : t.Ok s' s.nextTask acked)
    (hlater : t.Later s' s.nextTask) (hqueued : ∀ m ∈ s'.queued, m ∈ s.queued)
    (hunacked : ∀ d ∈ s'.unacked, d ∈ s.unacked ∨ (d.task = s.nextTask ∧ d.message ∈ s.queued)) :
    Inv s' := by
  refine hi.beside hb (fun t' ht' => ?_) (fun _ => ⟨t, hself⟩)
    (fun k' hk' => Or.inl (hi.next_not_waiting k' (hwaiters ▸ hk'))) (hwaiters ▸ hi.nodup)
    (fun cid p hp => Or.inl (hasked ▸ hp)) (fun m hm => Or.inl (hqueued m hm)) (fun d hd => ?_)
  · cases hself.symm.trans ht'
    exact ⟨⟨acked, hok⟩, hlater⟩
  · rcases hunacked d hd with hold | ⟨htask, hm⟩
    · exact Or.inl hold
    · refine Or.inr ⟨?_, fun cid hcid => hb.issued cid (hi.queued _ hm cid hcid)⟩
      rw [htask, hnext]
      exact Nat.lt_succ_self _

/-- A number that is not given out yet is nobody's. -/
theorem Inv.next_holds (hi : Inv s) : s.holds s.nextTask = false := by
  rw [Bool.eq_false_iff, Ne, holds_eq_true_iff]
  intro hlock
  obtain ⟨t, ht⟩ := hi.holder _ hlock
  rw [hi.next_free] at ht
  cases ht

theorem Inv.start {parent : Option TaskId} (hi : Inv s) (hs : start s parent = some s') :
    Inv s' := by
  unfold Tasks.start at hs
  dsimp only at hs
  split at hs
  · rename_i hparent
    cases hs
    have hb : Beside s { s.put s.nextTask (.fresh parent) with
        nextTask := s.nextTask + 1 } s.nextTask :=
      .update rfl (Nat.le_succ _) (fun _ _ => Iff.rfl) (fun d hd => Or.inl hd) rfl rfl
    have hok : Task.Ok s s.nextTask (.fresh parent) true :=
      ⟨fun _ d hd => (hi.unacked d hd).1.ne, by simp [Task.fresh], fun _ =>
        rfl, by simp [Task.fresh], hi.next_holds, rfl⟩
    have hearlier : ∀ p, parent = some p → p < s.nextTask := by
      rintro p rfl
      obtain ⟨t, ht, -⟩ := (Option.any_eq_true _ _).1 hparent
      exact (hi.later p t ht).id
    have hlater : Task.Later { s with nextTask := s.nextTask + 1 } s.nextTask (.fresh parent) :=
      ⟨Nat.lt_succ_self _, hearlier, by simp [Task.fresh], by simp [Task.fresh]⟩
    exact hi.added hb (Function.update_self ..) rfl rfl rfl (hok.congr rfl rfl rfl)
      (hlater.congr rfl rfl rfl rfl rfl)
      (fun _ h => h) (fun _ h => Or.inl h)
  · cases hs

theorem Inv.deliver {cfg : Config} {slotOf : Tag → Nat} {m : Message} {tag : Tag} (hi : Inv s)
    (hs : deliver cfg slotOf s m tag = some s') : Inv s' := by
  unfold Tasks.deliver at hs
  split at hs
  · rename_i hmay
    cases hs
    have hb : Beside s { s.put s.nextTask ⟨some m, none, .code (m.code cfg), [], false⟩ with
        nextTask := s.nextTask + 1, queued := s.queued.erase m, unacked :=
          ⟨s.nextTask, tag, m⟩ :: s.unacked }
        s.nextTask := by
      refine .update rfl (Nat.le_succ _) (fun _ _ => Iff.rfl) (fun d hd => ?_) rfl rfl
      rcases List.mem_cons.1 hd with rfl | hold
      · exact Or.inr rfl
      · exact Or.inl hold
    have hok : Task.Ok s s.nextTask ⟨some m, none, .code (m.code cfg), [], false⟩ false :=
      ⟨by simp, by simp, by simp, by simp, hi.next_holds ▸ ok_message cfg m⟩
    have hlater : Task.Later { s with nextTask := s.nextTask + 1 } s.nextTask
        ⟨some m, none, .code (m.code cfg), [], false⟩ :=
      ⟨Nat.lt_succ_self _, by simp, fun cid hcid => hi.queued m hmay.1 cid hcid, fun cid _ p hp =>
        (hi.asked cid p hp).2⟩
    refine hi.added hb (Function.update_self ..) rfl rfl rfl
      ⟨by simp, by simp, by simp, by simp, hok.control⟩
      (hlater.congr rfl rfl rfl rfl rfl) (fun _ h => List.mem_of_mem_erase h) (fun d hd => ?_)
    rcases List.mem_cons.1 hd with rfl | hold
    · exact Or.inr ⟨rfl, hmay.1⟩
    · exact Or.inl hold
  · cases hs

theorem Inv.step {cfg : Config} {slotOf : Tag → Nat} (s : State) (e : Event) (s' : State)
    (hi : Inv s) (hs : step cfg slotOf s e = some s') : Inv s' := by
  cases e with
  | start parent => exact hi.start hs
  | invoke k m => exact hi.invoke hs
  | leave k e => exact hi.leave hs
  | enter k => exact hi.enter hs
  | grant => exact hi.grant hs
  | giveUp k => exact hi.giveUp hs
  | go k => exact hi.go hs
  | perform k routed => exact hi.perform hs
  | answer k a => exact hi.answer hs
  | wake k w => exact hi.wake hs
  | deliver m tag => exact hi.deliver hs
  | arrives m =>
    cases hs
    exact hi.enqueue m
  | taken m =>
    cases hs
    exact hi.taken m
  | lost kept closed =>
    cases hs
    exact hi.lost kept closed
  | restored tag queue =>
    cases hs
    exact hi.consumers _

/-! ## Nobody waits in a circle -/

/-- For the lock, a reply or a handler, or for whatever user code likes to await. -/
def Control.awaitsOthers : Control → Bool
  | .user => true
  | .code (.acquire _) => true
  | .code (.reply _ _ _) => true
  | .code (.callback _) => true
  | _ => false

/-- With the lock, or a message to ack, a task awaits the broker at most. -/
theorem Control.Ok.awaitsOthers {asks : CorrelationId → Prop} {held : Bool} {c : Control}
    (h : c.Ok asks held acked) (hbusy : held = true ∨ acked = false) : c.awaitsOthers = false := by
  have hnot : ¬ (held = false ∧ acked = true) := by
    rintro ⟨rfl, rfl⟩
    simp at hbusy
  cases c with
  | user => exact absurd h hnot
  | code c =>
    cases c with
    | acquire next => exact absurd ⟨h.1, h.2.1⟩ hnot
    | reply cid timeout next => exact absurd ⟨h.1, h.2.1⟩ hnot
    | callback next => exact absurd ⟨h.1, h.2.1⟩ hnot
    | _ => rfl

theorem Inv.holder_awaits (hi : Inv s) (hlock : s.lock = some k) :
    ∃ t, s.tasks k = some t ∧ t.control.awaitsOthers = false := by
  obtain ⟨t, hk⟩ := hi.holder k hlock
  obtain ⟨acked, hok⟩ := hi.ok k t hk
  exact ⟨t, hk, hok.control.awaitsOthers (Or.inl (holds_eq_true_iff.2 hlock))⟩

theorem Inv.unacked_awaits (hi : Inv s) {d : Delivery} (hd : d ∈ s.unacked)
    (ht : s.tasks d.task = some t) :
    t.control.awaitsOthers = false := by
  obtain ⟨acked, hok⟩ := hi.ok _ t ht
  have hacked : acked = false := by
    rw [Bool.eq_false_iff]
    intro h
    exact hok.free h d hd rfl
  exact hok.control.awaitsOthers (Or.inr hacked)

theorem Inv.waiter_awaits (hi : Inv s) (hk : k ∈ s.waiters) :
    ∃ t, s.tasks k = some t ∧ t.control.awaitsOthers = true := by
  obtain ⟨t, next, ht, hc⟩ := hi.waiters k hk
  exact ⟨t, ht, by rw [hc]; rfl⟩

/-- A running handler has acked its message. -/
theorem Inv.handler_acked (hi : Inv s) (hk : s.tasks k = some t) {next : Ended → Code}
    (hrunning : .callback next ∈ t.below) :
    s.Acked k := by
  obtain ⟨acked, hok⟩ := hi.ok k t hk
  exact hok.free (hok.below (List.ne_nil_of_mem hrunning))

/-- The higher, the more may have to happen before the task goes on: those in user code or
with a call out, the oldest first, then the queue for the lock, then all that await nobody. -/
def rank (s : State) (k : TaskId) : Nat :=
  match s.tasks k with
  | some t =>
    match t.control with
    | .user => s.waiters.length + 1 + (s.nextTask - k)
    | .code (.reply _ _ _) => s.waiters.length + 1 + (s.nextTask - k)
    | .code (.acquire _) => if k ∈ s.waiters then s.waiters.idxOf k + 1 else 0
    | _ => 0
  | none => 0

theorem rank_eq_zero (ht : s.tasks k = some t) (h : t.control.awaitsOthers = false) :
    rank s k = 0 := by
  unfold rank
  rw [ht]
  dsimp only
  split
  · rename_i hc
    rw [hc] at h
    cases h
  · rename_i hc
    rw [hc] at h
    cases h
  · rename_i hc
    rw [hc] at h
    cases h
  · rfl

theorem Inv.rank_waiter (hi : Inv s) (hk : k ∈ s.waiters) : rank s k = s.waiters.idxOf k + 1 := by
  obtain ⟨t, next, ht, hc⟩ := hi.waiters k hk
  simp only [rank, ht, hc, if_pos hk]

theorem rank_user (ht : s.tasks k = some t) (hc : t.control = .user) :
    rank s k = s.waiters.length + 1 + (s.nextTask - k) := by
  simp only [rank, ht, hc]

theorem rank_awaitsReply {cid : CorrelationId} (h : AwaitsReply s k cid) :
    rank s k = s.waiters.length + 1 + (s.nextTask - k) := by
  obtain ⟨t, timeout, next, ht, hc, -⟩ := h
  simp only [rank, ht, hc]

/-- A task that came later ranks below one that may await it. -/
theorem Inv.rank_later (hi : Inv s) {k' : TaskId} (ht : s.tasks k' = some t) (hlt : k < k') :
    rank s k' < s.waiters.length + 1 + (s.nextTask - k) := by
  have hid : k' < s.nextTask := (hi.later k' t ht).id
  have hsub : s.nextTask - k' < s.nextTask - k := Nat.sub_lt_sub_left (hlt.trans hid) hlt
  unfold rank
  rw [ht]
  dsimp only
  split
  · exact Nat.add_lt_add_left hsub _
  · exact Nat.add_lt_add_left hsub _
  · split
    · rename_i hmem
      have := List.idxOf_lt_length_of_mem hmem
      omega
    · omega
  · omega

/-- The request that a task awaits the reply to is its own. -/
theorem Inv.asked_of_awaits (hi : Inv s) {cid : CorrelationId} (h : AwaitsReply s k cid) :
    s.askedBy cid = some k := by
  obtain ⟨t, timeout, next, ht, hc, -⟩ := h
  obtain ⟨acked, hok⟩ := hi.ok k t ht
  have hcontrol := hok.control
  rw [hc] at hcontrol
  exact hcontrol.2.2.1

theorem Inv.rank_lt (hi : Inv s) {slotOf : Tag → Nat} {k' : TaskId} (hw : Waits slotOf s k k') :
    rank s k' < rank s k := by
  cases hw with
  | holder hk hlock =>
    obtain ⟨t, ht, hawaits⟩ := hi.holder_awaits hlock
    rw [rank_eq_zero ht hawaits, hi.rank_waiter hk]
    exact Nat.succ_pos _
  | ahead hw hk' =>
    rename_i before after
    have hnodup := hi.nodup
    rw [hw, List.nodup_append] at hnodup
    have hnot : k ∉ before := fun hmem => hnodup.2.2 k hmem k List.mem_cons_self rfl
    have hlt : before.idxOf k' < before.length := List.idxOf_lt_length_of_mem hk'
    have hk : k ∈ s.waiters := by simp [hw]
    have hk'' : k' ∈ s.waiters := by simp [hw, hk']
    rw [hi.rank_waiter hk, hi.rank_waiter hk'', hw, List.idxOf_append_of_mem hk',
      List.idxOf_append_of_notMem hnot,
      List.idxOf_cons_self]
    omega
  | handling hr ht hm =>
    rw [rank_awaitsReply hr]
    exact hi.rank_later ht ((hi.later k' _ ht).asked _ hm k (hi.asked_of_awaits hr))
  | slot hr hm hcid hc hd hs ht =>
    rw [rank_awaitsReply hr, rank_eq_zero ht (hi.unacked_awaits hd ht)]
    omega
  | child ht hu ht' hp =>
    rw [rank_user ht hu]
    exact hi.rank_later ht' ((hi.later k' _ ht').parent k hp)

/-- **No deadlock through the transport's own resources**, in any run, with consumers that
count their unacked messages each for itself or together. -/
theorem no_deadlock (cfg : Config) (slotOf : Tag → Nat) {s : State}
    (hreach : Reachable (step cfg slotOf) .init s) :
    (∀ k, s.lock = some k → ∃ t, s.tasks k = some t ∧ t.control.awaitsOthers = false ∧
      k ∉ s.waiters) ∧
    (∀ k t next, s.tasks k = some t → .callback next ∈ t.below → ∀ d ∈ s.unacked, d.task ≠ k) ∧
    (∀ k, ¬ Relation.TransGen (Waits slotOf s) k k) := by
  have hi : Inv s := hreach.invariant Inv.step inv_init
  refine ⟨fun k hlock => ?_, fun k t next hk hrunning => hi.handler_acked hk hrunning, fun k => ?_⟩
  · obtain ⟨t, ht, hawaits⟩ := hi.holder_awaits hlock
    refine ⟨t, ht, hawaits, fun hk => ?_⟩
    obtain ⟨t', ht', hawaits'⟩ := hi.waiter_awaits hk
    rw [ht] at ht'
    cases ht'
    rw [hawaits] at hawaits'
    cases hawaits'
  · exact Waits.acyclic_of_rank (fun a b h => hi.rank_lt h) k

/-- A handler that calls itself through the broker, one level down. -/
def selfCall : List Event :=
  [.restored 1 (.task .rpc "m.f"), .start none,
    .invoke 0 (.sendRequest "m.f" none 10), .enter 0, .go 0, .perform 0 true, .answer 0 .ok, .go 0,
    .deliver (.request "m.f" 10) 1, .perform 1 true, .answer 1 .ok, .go 1,
    .invoke 1 (.sendRequest "m.f" none 11), .enter 1, .go 1, .perform 1 true, .answer 1 .ok, .go 1,
    .deliver (.request "m.f" 11) 1]

theorem no_deadlock_demo :
    ∃ s, run (step .default id) .init selfCall = some s ∧ Waits id s 0 1 ∧ Waits id s 1 2 ∧
      ∀ k, ¬ Relation.TransGen (Waits id s) k k := by
  refine ⟨_, rfl, ?_, ?_, ?_⟩
  · exact .handling ⟨_, _, _, rfl, rfl, List.not_mem_nil⟩ rfl rfl
  · exact .handling ⟨_, _, _, rfl, rfl, List.not_mem_nil⟩ rfl rfl
  · exact (no_deadlock .default id ⟨selfCall, rfl⟩).2.2

/-- Where waits lead to: from there the lock can be taken, and a message for the reply be
delivered, unless one is still to be acked that nobody is left to ack. -/
theorem waits_end (cfg : Config) (slotOf : Tag → Nat) {s : State}
    (hreach : Reachable (step cfg slotOf) .init s) (k : TaskId) :
    ∃ k', Relation.ReflTransGen (Waits slotOf s) k k' ∧ (k' ∈ s.waiters → (grant s).isSome = true) ∧
      ∀ cid m tag, AwaitsReply s k' cid → m ∈ s.queued → m.about = some cid →
      (tag, m.queue) ∈ s.consumers →
        (deliver cfg slotOf s m tag).isSome = true ∨ ∃ d ∈ s.unacked, s.tasks d.task = none := by
  have hi : Inv s := hreach.invariant Inv.step inv_init
  obtain ⟨k', hchain, hend⟩ := Waits.exists_end_of_rank
    (fun a b (h : Waits slotOf s a b) => hi.rank_lt h) k
  refine ⟨k', hchain, fun hk' => ?_, fun cid m tag hr hm hcid hc => ?_⟩
  · have hfree : s.lock = none := by
      cases hlock : s.lock with
      | none => rfl
      | some h => exact absurd (.holder hk' hlock) (hend h)
    obtain ⟨before, after, hw⟩ := List.append_of_mem hk'
    cases before with
    | cons h before => exact absurd (.ahead hw List.mem_cons_self) (hend h)
    | nil =>
      obtain ⟨t, next, ht, hc⟩ := hi.waiters k' hk'
      simp only [grant, hfree, hw, List.nil_append, ht, hc, Option.isSome_some]
  · by_cases hslot : ∀ d ∈ s.unacked, slotOf d.tag ≠ slotOf tag
    · exact Or.inl (by simp only [deliver, if_pos (And.intro hm (And.intro hc hslot)),
        Option.isSome_some])
    · obtain ⟨d, hd, hs⟩ : ∃ d ∈ s.unacked, slotOf d.tag = slotOf tag := by
        simpa using hslot
      refine Or.inr ⟨d, hd, ?_⟩
      cases ht : s.tasks d.task with
      | none => rfl
      | some t => exact absurd (.slot hr hm hcid hc hd hs ht) (hend d.task)

end Atasks.Amqp.Tasks
