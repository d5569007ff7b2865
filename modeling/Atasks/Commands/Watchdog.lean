import Atasks.Lib.Machine
/-!
# The self-watchdog

`_SelfWatchdog` (`atasks/commands/service.py:111-159`): a thread that has the main loop set a
fresh `threading.Event` once in a while and aborts the process if the loop does not. `stop`
runs on the loop's own thread and blocks it in `join`, so a probe scheduled meanwhile is not
run; and the thread may publish a new acknowledgement at any point of `stop`. What keeps it
from aborting then is the order: `_stop` is set first, and looked at last
(`watchdog_aborts_only`).

An event's `wait` returns `True` only if its flag has been set, and `False` only if it was not
within the time. The steps are the operations on flags, attributes and the loop's queue, in
any order the two threads can take them.

| here | there |
| --- | --- |
| `State.stop`, `State.acknowledgement` | `_stop` and `_acknowledgement` |
| `State.acknowledged`                  | the events created in `_run` whose flags are set |
| `State.ready`, `State.closed`         | the callbacks of the loop (`call_soon_threadsafe`), and its `close` |
| `Thread`                              | where `_run` is (`:134-154`) |
| `Main`                                | where `stop` is (`:126-132`), or that the loop runs |
-/

namespace Atasks.Commands.Watchdog

abbrev EventId := Nat

/-- The watchdog thread. -/
inductive Thread
  /-- In `_stop.wait(self.period)`. -/
  | period
  /-- The period is over: about to create an event. -/
  | probing
  /-- The event is there, `self._acknowledgement` not assigned. -/
  | created (event : EventId)
  /-- About to call `call_soon_threadsafe`. -/
  | published (event : EventId)
  /-- It raised: about to look at `_stop`. -/
  | refused (event : EventId)
  /-- In `acknowledgement.wait(self.timeout)`. -/
  | waiting (event : EventId)
  /-- It returned `True`. -/
  | answered (event : EventId)
  /-- It returned `False`: about to look at `_stop`. -/
  | unanswered (event : EventId)
  /-- `_stop` was not set: about to call `_abort`. -/
  | condemned (event : EventId)
  | aborting
  | ended
deriving DecidableEq, Repr

/-- The main thread, as far as the watchdog is concerned. -/
inductive Main
  | looping
  /-- In `stop`, about to test `self._acknowledgement`. -/
  | testing
  /-- About to read it again. -/
  | reading
  /-- About to set the event it read. -/
  | setting (event : EventId)
  /-- In `join`, which ends with the thread or with its timeout. -/
  | joining
deriving DecidableEq, Repr

structure State where
  thread : Thread := .period
  main : Main := .looping
  stop : Bool := false
  acknowledgement : Option EventId := none
  /-- How many events there are. -/
  events : Nat := 0
  acknowledged : List EventId := []
  ready : List EventId := []
  closed : Bool := false
deriving DecidableEq, Repr

inductive Event
  | stopSeen
  | periodOver
  | create
  | publish
  | schedule
  | answer
  | timeout
  | goOn
  /-- `self._stop.is_set()`, after a refusal or a timeout. -/
  | check
  | abort
  | runAcknowledgement
  | callStop
  | test
  | read
  | set
  | joined
  | close
deriving DecidableEq, Repr

/-- The steps of the watchdog thread. -/
def Event.ofThread : Event → Bool
  | .stopSeen | .periodOver | .create | .publish | .schedule | .answer | .timeout | .goOn | .check
    | .abort => true
  | _ => false

/-- One line of `_run`. -/
def threadStep (s : State) : Event → Option State
  | .stopSeen =>
    match s.thread with
    | .period => if s.stop then some { s with thread := .ended } else none
    | _ => none
  | .periodOver =>
    match s.thread with
    | .period => if s.stop then none else some { s with thread := .probing }
    | _ => none
  | .create =>
    match s.thread with
    | .probing => some { s with thread := .created s.events, events := s.events + 1 }
    | _ => none
  | .publish =>
    match s.thread with
    | .created event => some { s with thread := .published event, acknowledgement := some event }
    | _ => none
  | .schedule =>
    match s.thread with
    | .published event =>
      if s.closed then some { s with thread := .refused event }
      else some { s with thread := .waiting event, ready := s.ready ++ [event] }
    | _ => none
  | .answer =>
    match s.thread with
    | .waiting event =>
      if event ∈ s.acknowledged then some { s with thread := .answered event } else none
    | _ => none
  | .timeout =>
    match s.thread with
    | .waiting event =>
      if event ∈ s.acknowledged then none else some { s with thread := .unanswered event }
    | _ => none
  | .goOn =>
    match s.thread with
    -- `_stop` is only looked at for the log
    | .answered _ => some { s with thread := .period }
    | _ => none
  | .check =>
    match s.thread with
    -- a refusal ends the thread if the process is stopping, a timeout takes it back to the period
    | .refused event => some { s with thread := if s.stop then .ended else .condemned event }
    | .unanswered event => some { s with thread := if s.stop then .period else .condemned event }
    | _ => none
  | .abort =>
    match s.thread with
    | .condemned _ => some { s with thread := .aborting }
    | _ => none
  | _ => none

/-- One step of the main thread: the loop, or a line of `stop`. -/
def mainStep (s : State) : Event → Option State
  | .runAcknowledgement =>
    match s.main, s.ready with
    | .looping, event :: ready =>
      if s.closed then none else some { s with
        ready := ready, acknowledged := event :: s.acknowledged }
    | _, _ => none
  | .callStop =>
    match s.main with
    | .looping => some { s with main := .testing, stop := true }
    | _ => none
  | .test =>
    match s.main with
    | .testing => some { s with main := if s.acknowledgement.isSome then .reading else .joining }
    | _ => none
  | .read =>
    match s.main with
    | .reading => s.acknowledgement.map fun event => { s with main := .setting event }
    | _ => none
  | .set =>
    match s.main with
    | .setting event => some { s with main := .joining, acknowledged := event :: s.acknowledged }
    | _ => none
  | .joined =>
    match s.main with
    | .joining => some { s with main := .looping }
    | _ => none
  | .close =>
    match s.main with
    | .looping => some { s with closed := true }
    | _ => none
  | _ => none

def step (s : State) (e : Event) : Option State :=
    if e.ofThread then threadStep s e else mainStep s e

/-- The thread has been started. -/
def start : State := {}

/-! ## What a step can do -/

/-- The steps of the thread, each with what it takes. -/
inductive Moves (s : State) : Event → State → Prop
  | stopSeen (h : s.thread = .period) (hstop : s.stop = true) :
    Moves s .stopSeen { s with thread := .ended }
  | periodOver (h : s.thread = .period) (hstop : s.stop = false) :
    Moves s .periodOver { s with thread := .probing }
  | create (h : s.thread = .probing) : Moves s .create
    { s with thread := .created s.events, events := s.events + 1 }
  | publish {event : EventId} (h : s.thread = .created event) :
    Moves s .publish { s with thread := .published event, acknowledgement := some event }
  | refuse {event : EventId} (h : s.thread = .published event) (hclosed : s.closed = true) :
    Moves s .schedule { s with thread := .refused event }
  | schedule {event : EventId} (h : s.thread = .published event) (hclosed : s.closed = false) :
    Moves s .schedule { s with thread := .waiting event, ready := s.ready ++ [event] }
  | answer {event : EventId} (h : s.thread = .waiting event) (hset : event ∈ s.acknowledged) :
    Moves s .answer { s with thread := .answered event }
  | timeout {event : EventId} (h : s.thread = .waiting event) (hset : event ∉ s.acknowledged) :
    Moves s .timeout { s with thread := .unanswered event }
  | goOn {event : EventId} (h : s.thread = .answered event) :
    Moves s .goOn { s with thread := .period }
  | leave {event : EventId} (h : s.thread = .refused event) (hstop : s.stop = true) :
    Moves s .check { s with thread := .ended }
  | forgive {event : EventId} (h : s.thread = .unanswered event) (hstop : s.stop = true) :
    Moves s .check { s with thread := .period }
  | condemn {event : EventId} (h : s.thread = .refused event ∨ s.thread = .unanswered event)
    (hstop : s.stop = false) :
    Moves s .check { s with thread := .condemned event }
  | abort {event : EventId} (h : s.thread = .condemned event) :
    Moves s .abort { s with thread := .aborting }

variable {s s' : State} {e : Event} {es : List Event} {event : EventId}

theorem moves_of_threadStep (h : threadStep s e = some s') : Moves s e s' := by
  cases e <;> simp only [threadStep] at h
  case stopSeen =>
    split at h
    · split at h
      · cases h
        exact .stopSeen ‹_› ‹_›
      · cases h
    · cases h
  case periodOver =>
    split at h
    · split at h
      · cases h
      · cases h
        exact .periodOver ‹_› (Bool.eq_false_iff.2 ‹_›)
    · cases h
  case create =>
    split at h
    · cases h
      exact .create ‹_›
    · cases h
  case publish =>
    split at h
    · cases h
      exact .publish ‹_›
    · cases h
  case schedule =>
    split at h
    · split at h
      · cases h
        exact .refuse ‹_› ‹_›
      · cases h
        exact .schedule ‹_› (Bool.eq_false_iff.2 ‹_›)
    · cases h
  case answer =>
    split at h
    · split at h
      · cases h
        exact .answer ‹_› ‹_›
      · cases h
    · cases h
  case timeout =>
    split at h
    · split at h
      · cases h
      · cases h
        exact .timeout ‹_› ‹_›
    · cases h
  case goOn =>
    split at h
    · cases h
      exact .goOn ‹_›
    · cases h
  case check =>
    split at h
    · cases h
      by_cases hstop : s.stop = true
      · rw [if_pos hstop]
        exact .leave ‹_› hstop
      · rw [if_neg hstop]
        exact .condemn (Or.inl ‹_›) (by simpa using hstop)
    · cases h
      by_cases hstop : s.stop = true
      · rw [if_pos hstop]
        exact .forgive ‹_› hstop
      · rw [if_neg hstop]
        exact .condemn (Or.inr ‹_›) (by simpa using hstop)
    · cases h
  case abort =>
    split at h
    · cases h
      exact .abort ‹_›
    · cases h
  all_goals cases h

/-- What the main thread leaves alone. -/
theorem mainStep_frame (h : mainStep s e = some s') :
    s'.thread = s.thread ∧ s'.acknowledgement = s.acknowledgement ∧ s'.events = s.events ∧
      (s.stop = true → s'.stop = true) ∧ (s'.closed = s.closed ∨ e = .close) := by
  cases e <;> simp only [mainStep] at h
  case runAcknowledgement =>
    split at h
    · split at h
      · cases h
      · cases h
        exact ⟨rfl, rfl, rfl, id, Or.inl rfl⟩
    · cases h
  case callStop =>
    split at h
    · cases h
      exact ⟨rfl, rfl, rfl, fun _ => rfl, Or.inl rfl⟩
    · cases h
  case read =>
    split at h
    · obtain ⟨event, -, rfl⟩ := Option.map_eq_some_iff.1 h
      exact ⟨rfl, rfl, rfl, id, Or.inl rfl⟩
    · cases h
  case close =>
    split at h
    · cases h
      exact ⟨rfl, rfl, rfl, id, Or.inr rfl⟩
    · cases h
  case test | set | joined =>
    split at h
    · cases h
      exact ⟨rfl, rfl, rfl, id, Or.inl rfl⟩
    · cases h
  all_goals cases h

/-- A step is one of the thread's or leaves the thread where it is. -/
theorem step_cases (h : step s e = some s') :
    (e.ofThread = true ∧ Moves s e s') ∨ (e.ofThread = false ∧ mainStep s e = some s') := by
  unfold step at h
  split at h
  · rename_i hthread
    exact Or.inl ⟨hthread, moves_of_threadStep h⟩
  · rename_i hmain
    exact Or.inr ⟨by simpa using hmain, h⟩

theorem Moves.stop_eq (h : Moves s e s') : s'.stop = s.stop ∧ s'.closed = s.closed := by
  cases h <;> exact ⟨rfl, rfl⟩

/-- `stop` is for good. -/
theorem step_stop (h : step s e = some s') (hstop : s.stop = true) : s'.stop = true := by
  rcases step_cases h with ⟨-, hmove⟩ | ⟨-, hmain⟩
  · rw [hmove.stop_eq.1, hstop]
  · exact (mainStep_frame hmain).2.2.2.1 hstop

theorem step_outside (s : State) (e : Event) (s' : State) (hout : e.ofThread = false)
    (h : step s e = some s') :
    s'.thread = s.thread := by
  rcases step_cases h with ⟨hin, -⟩ | ⟨-, hmain⟩
  · rw [hout] at hin
    cases hin
  · exact (mainStep_frame hmain).1

/-! ## The probe just issued -/

/-- The event the thread is about. -/
def Thread.probe : Thread → Option EventId
  | .published event | .refused event | .waiting event | .answered event | .unanswered event
    | .condemned event => some event
  | _ => none

/-- The thread is about the event it created last, and that is the acknowledgement `stop` can see.
-/
structure Inv (s : State) : Prop where
  created : ∀ event, s.thread = .created event → s.events = event + 1
  probe : ∀ event, s.thread.probe = some event → s.acknowledgement = some event ∧
    s.events = event + 1

theorem inv_start : Inv start := ⟨fun _ h => (nomatch h), fun _ h => (nomatch h)⟩

theorem step_inv (s : State) (e : Event) (s' : State) (hi : Inv s) (h : step s e = some s') :
    Inv s' := by
  rcases step_cases h with ⟨-, hmove⟩ | ⟨-, hmain⟩
  · cases hmove with
    | stopSeen | periodOver | goOn | leave | forgive | abort =>
      exact ⟨fun _ h => (nomatch h), fun _ h => (nomatch h)⟩
    | create =>
      refine ⟨fun event h => ?_, fun _ h => (nomatch h)⟩
      cases h
      rfl
    | publish hat =>
      refine ⟨fun _ h => (nomatch h), fun event hprobe => ?_⟩
      cases hprobe
      exact ⟨rfl, hi.created _ hat⟩
    | refuse hat | schedule hat | answer hat | timeout hat =>
      exact ⟨fun _ h => (nomatch h), fun event hprobe => hi.probe event (hat ▸ hprobe)⟩
    | condemn hat =>
      refine ⟨fun _ h => (nomatch h), fun event hprobe => hi.probe event ?_⟩
      rcases hat with hat | hat
      · exact hat ▸ hprobe
      · exact hat ▸ hprobe
  · obtain ⟨hthread, hack, hevents, -, -⟩ := mainStep_frame hmain
    exact ⟨by rw [hthread, hevents]; exact hi.created, by rw [hthread, hack, hevents]; exact hi.probe⟩

theorem inv_run (h : Machine.run step start es = some s) :
    Inv s := Machine.run_invariant step_inv es h inv_start

/-! ## How the thread comes to abort -/

section origins

theorem moves_to_aborting (h : Moves s e s') (hthread : s'.thread = .aborting) :
    e = .abort ∧ ∃ event, s.thread = .condemned event := by
  cases h with
  | abort h => exact ⟨rfl, _, h⟩
  | _ => cases hthread

theorem moves_to_condemned (h : Moves s e s') (hthread : s'.thread = .condemned event) :
    e = .check ∧ s.stop = false ∧ (s.thread = .refused event ∨ s.thread = .unanswered event) := by
  cases h with
  | condemn h hstop =>
    cases hthread
    exact ⟨rfl, hstop, h⟩
  | _ => cases hthread

theorem moves_to_unanswered (h : Moves s e s') (hthread : s'.thread = .unanswered event) :
    e = .timeout ∧ s.thread = .waiting event ∧ event ∉ s.acknowledged := by
  cases h with
  | timeout h hset =>
    cases hthread
    exact ⟨rfl, h, hset⟩
  | _ => cases hthread

theorem moves_to_refused (h : Moves s e s') (hthread : s'.thread = .refused event) :
    e = .schedule ∧ s.thread = .published event ∧ s.closed = true := by
  cases h with
  | refuse h hclosed =>
    cases hthread
    exact ⟨rfl, h, hclosed⟩
  | _ => cases hthread

/-- The step of the thread that took it where it is. -/
theorem exists_last_move (h : Machine.run step start es = some s) (hthread : s.thread ≠ .period) :
    ∃ es₁ e es₂ m m', es = es₁ ++ e :: es₂ ∧ (∀ e ∈ es₂, e.ofThread = false) ∧
    Machine.run step start es₁ = some m ∧
      Moves m e m' ∧ m'.thread = s.thread := by
  rcases Machine.run_last_inside State.thread step_outside h with hnone
    | ⟨es₁, e, es₂, m, m', hes, hin, hes₂, hm, hstep, hlast⟩
  · exact absurd hnone hthread
  · rcases step_cases hstep with ⟨-, hmove⟩ | ⟨hout, -⟩
    · exact ⟨es₁, e, es₂, m, m', hes, hes₂, hm, hmove, hlast.symm⟩
    · rw [hin] at hout
      cases hout

end origins

/-- The wait for a probe, or its scheduling, that failed in a state. -/
def Failed (s : State) (e : Event) : Prop :=
  ∃ event, s.acknowledgement = some event ∧ s.events = event + 1 ∧
    ((e = .timeout ∧ s.thread = .waiting event ∧ event ∉ s.acknowledged) ∨
      (e = .schedule ∧ s.thread = .published event ∧ s.closed = true))

/-- A condemned thread comes from a failure and then a check that found `_stop` unset, with nothing of
its own between them or after. -/
theorem exists_failure (h : Machine.run step start es = some s)
    (hthread : s.thread = .condemned event) :
    ∃ es₁ e es₂ es₃ m m', es = es₁ ++ e :: es₂ ++ .check :: es₃ ∧
    (∀ e ∈ es₂ ++ es₃, e.ofThread = false) ∧
      Machine.run step start es₁ = some m ∧ Failed m e ∧
      Machine.run step start (es₁ ++ e :: es₂) = some m' ∧ m'.stop = false := by
  obtain ⟨es', e', es₃, m', n', rfl, hes₃, hm', hmove', hn'⟩ :=
    exists_last_move h (by rw [hthread]; simp)
  obtain ⟨rfl, hstop, hfrom⟩ := moves_to_condemned hmove' (hn'.trans hthread)
  obtain ⟨es₁, e, es₂, m, n, rfl, hes₂, hm, hmove, hn⟩ :=
    exists_last_move hm' (by rcases hfrom with hfrom | hfrom <;> rw [hfrom] <;> simp)
  have hi := inv_run hm
  refine ⟨es₁, e, es₂, es₃, m, m', rfl, List.forall_mem_append.2 ⟨hes₂, hes₃⟩, hm,
    ⟨event, ?_⟩, hm', hstop⟩
  rcases hfrom with hfrom | hfrom
  · obtain ⟨rfl, hpublished, hclosed⟩ := moves_to_refused hmove (hn.trans hfrom)
    obtain ⟨hack, hevents⟩ := hi.probe event (by rw [hpublished]; rfl)
    exact ⟨hack, hevents, Or.inr ⟨rfl, hpublished, hclosed⟩⟩
  · obtain ⟨rfl, hwaiting, hset⟩ := moves_to_unanswered hmove (hn.trans hfrom)
    obtain ⟨hack, hevents⟩ := hi.probe event (by rw [hwaiting]; rfl)
    exact ⟨hack, hevents, Or.inl ⟨rfl, hwaiting, hset⟩⟩

/-! ## A healthy or a stopping process -/

/-- Before `stop` has been called no wait for a probe ends by its timeout, and the loop is not
closed. -/
def Healthy (s : State) (e : Event) (_ : State) : Prop :=
  (e = .timeout → s.stop = true) ∧ (e = .close → s.stop = true)

theorem stop_of_closed (h : Machine.run step start es = some s)
    (halong : Machine.Along step Healthy start es) (hclosed : s.closed = true) : s.stop = true := by
  have hkept : ∀ s e s', (s.closed = true → s.stop = true) → Healthy s e s' → step s e = some s' →
      s'.closed = true → s'.stop = true := by
    intro s e s' hi hhealthy hstep hclosed
    apply step_stop hstep
    rcases step_cases hstep with ⟨-, hmove⟩ | ⟨-, hmain⟩
    · exact hi (hmove.stop_eq.2 ▸ hclosed)
    · rcases (mainStep_frame hmain).2.2.2.2 with hsame | rfl
      · exact hi (hsame ▸ hclosed)
      · exact hhealthy.2 rfl
  exact Machine.run_invariant_of_along hkept es halong h (fun h => (nomatch h)) hclosed

/-- `_stop` is set, and the thread has not yet decided to abort. -/
def Stopping (s : State) : Prop := s.stop = true ∧ s.thread ≠ .aborting ∧ ∀ event,
    s.thread ≠ .condemned event

theorem step_stopping (s : State) (e : Event) (s' : State) (hi : Stopping s)
    (h : step s e = some s') : Stopping s' := by
  obtain ⟨hstop, habort, hcondemned⟩ := hi
  refine ⟨step_stop h hstop, fun hthread => ?_, fun event hthread => ?_⟩
  · rcases step_cases h with ⟨-, hmove⟩ | ⟨-, hmain⟩
    · obtain ⟨-, event, hfrom⟩ := moves_to_aborting hmove hthread
      exact hcondemned event hfrom
    · exact habort ((mainStep_frame hmain).1 ▸ hthread)
  · rcases step_cases h with ⟨-, hmove⟩ | ⟨-, hmain⟩
    · obtain ⟨-, hunset, -⟩ := moves_to_condemned hmove hthread
      rw [hstop] at hunset
      cases hunset
    · exact hcondemned event ((mainStep_frame hmain).1 ▸ hthread)

/-- No failure of a healthy run is followed by a check that finds `_stop` unset. -/
theorem not_condemned_of_healthy (h : Machine.run step start es = some s)
    (halong : Machine.Along step Healthy start es) :
    s.thread ≠ .condemned event := by
  intro hthread
  obtain ⟨es₁, e, es₂, es₃, m, m', rfl, -, hm, ⟨_, -, -, hfailed⟩, hm', hunset⟩ :=
    exists_failure h hthread
  rw [List.append_assoc, List.cons_append] at halong
  obtain ⟨n, hn, hrest⟩ := Machine.run_append_eq_some.1 hm'
  rw [hm] at hn
  cases hn
  obtain ⟨n, hstep, hrest⟩ := Machine.run_cons_eq_some.1 hrest
  have hstop : m.stop = true := by
    rcases hfailed with ⟨rfl, -, -⟩ | ⟨-, -, hclosed⟩
    · exact (halong.step_on_the_way hm hstep).1 rfl
    · exact stop_of_closed hm halong.take hclosed
  -- and `_stop` stays set until the check
  have hstill : m'.stop = true :=
    Machine.run_invariant (fun _ _ _ hstop hstep => step_stop hstep hstop) es₂ hrest
      (step_stop hstep hstop)
  rw [hunset] at hstill
  cases hstill

theorem not_aborting_of_healthy (h : Machine.run step start es = some s)
    (halong : Machine.Along step Healthy start es) :
    s.thread ≠ .aborting := by
  intro hthread
  obtain ⟨es₁, e, es₂, m, m', rfl, -, hm, hmove, hlast⟩ :=
    exists_last_move h (by rw [hthread]; simp)
  obtain ⟨-, event, hcondemned⟩ := moves_to_aborting hmove (hlast.trans hthread)
  exact not_condemned_of_healthy hm halong.take hcondemned

theorem stopping_of_check (hstop : s.stop = true) (h : step s .check = some s') : Stopping s' := by
  refine ⟨step_stop h hstop, fun hthread => ?_, fun event hthread => ?_⟩
  · rcases step_cases h with ⟨-, hmove⟩ | ⟨hout, -⟩
    · cases (moves_to_aborting hmove hthread).1
    · cases hout
  · rcases step_cases h with ⟨-, hmove⟩ | ⟨hout, -⟩
    · have hunset := (moves_to_condemned hmove hthread).2.1
      rw [hstop] at hunset
      cases hunset
    · cases hout

/-- **The watchdog aborts only after a failure and a check that found `_stop` unset**; so it does not
abort a healthy process, nor does a check made once `stop` has set `_stop` lead to an abort. -/
theorem watchdog_aborts_only :
    (∀ es s e s', Machine.run step start es = some s → s.thread ≠ .aborting → step s e = some s' →
      s'.thread = .aborting →
      ∃ es₁ failure es₂ es₃ m m', es = es₁ ++ failure :: es₂ ++ .check :: es₃ ∧
      (∀ e ∈ es₂ ++ es₃, e.ofThread = false) ∧
        Machine.run step start es₁ = some m ∧ Failed m failure ∧
        Machine.run step start (es₁ ++ failure :: es₂) = some m' ∧ m'.stop = false) ∧
    (∀ es s, Machine.run step start es = some s → Machine.Along step Healthy start es →
      s.thread ≠ .aborting) ∧
    (∀ es m m' es' s, Machine.run step start es = some m → m.stop = true → step m .check = some m' →
      Machine.run step m' es' = some s → s.thread ≠ .aborting) := by
  refine ⟨?_, fun es s h halong => not_aborting_of_healthy h halong, ?_⟩
  · intro es s e s' hrun hbefore hstep hafter
    rcases step_cases hstep with ⟨-, hmove⟩ | ⟨-, hmain⟩
    · obtain ⟨-, event, hcondemned⟩ := moves_to_aborting hmove hafter
      exact exists_failure hrun hcondemned
    · exact absurd ((mainStep_frame hmain).1 ▸ hafter) hbefore
  · intro es m m' es' s hm hstop hstep hrun
    exact (Machine.run_invariant step_stopping es' hrun (stopping_of_check hstop hstep)).2.1

/-- `stop` between the period and the probe: the probe is never run, and the thread ends.
Without `stop` the same probe ends the process. -/
example :
    (Machine.run step start [.periodOver, .callStop, .test, .create, .publish, .schedule, .timeout,
      .check, .stopSeen]).map State.thread = some .ended ∧
    (Machine.run step start [.periodOver, .create, .publish, .schedule, .timeout, .check,
      .abort]).map State.thread = some .aborting := by
  decide

end Atasks.Commands.Watchdog
