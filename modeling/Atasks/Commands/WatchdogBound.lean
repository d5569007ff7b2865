import Atasks.Commands.Watchdog
/-!
# How long the watchdog takes

The two promises of `_SelfWatchdog` (`atasks/commands/service.py:111-159`) that are about time. A
loop that hangs is found out: the thread comes to `_abort` by itself, with no help from the main
thread. And a thread that is stopped ends: `stop` waits `period + timeout + 1` seconds for it
(`:132`), and `timeout` seconds are enough.

A wait lasts as long as its argument at most; the other steps of the thread take no time.

* `hang_detected`: within `period` and twice `timeout` of the moment the loop stops running;
* `stop_ends`: within `timeout` of the moment `_stop` is set, whatever else happens.
-/

namespace Atasks.Commands.Watchdog

open Machine

/-- How long the wait may last that a step ends. -/
def Event.waits (period timeout : Nat) : Event → Nat
  | .periodOver => period
  | .answer => timeout
  | .timeout => timeout
  | _ => 0

/-- The thread is where it has nothing more to do. -/
def Thread.atRest : Thread → Bool
  | .aborting => true
  | .ended => true
  | _ => false

variable {s s' : State} {e : Event} {es : List Event} {event : EventId} {period timeout : Nat}

/-- Elsewhere it can go on by itself. -/
theorem exists_move (h : s.thread.atRest = false) :
    ∃ e, e.ofThread = true ∧ (step s e).isSome = true := by
  cases hthread : s.thread with
  | period =>
    cases hstop : s.stop with
    | true => exact ⟨.stopSeen, rfl, by simp [step, Event.ofThread, threadStep, hthread, hstop]⟩
    | false => exact ⟨.periodOver, rfl, by simp [step, Event.ofThread, threadStep, hthread, hstop]⟩
  | probing => exact ⟨.create, rfl, by simp [step, Event.ofThread, threadStep, hthread]⟩
  | created event => exact ⟨.publish, rfl, by simp [step, Event.ofThread, threadStep, hthread]⟩
  | published event =>
    cases hclosed : s.closed with
    | true => exact ⟨.schedule, rfl, by simp [step, Event.ofThread, threadStep, hthread, hclosed]⟩
    | false => exact ⟨.schedule, rfl, by simp [step, Event.ofThread, threadStep, hthread, hclosed]⟩
  | refused event => exact ⟨.check, rfl, by simp [step, Event.ofThread, threadStep, hthread]⟩
  | waiting event =>
    by_cases hset : event ∈ s.acknowledged
    · exact ⟨.answer, rfl, by simp [step, Event.ofThread, threadStep, hthread, hset]⟩
    · exact ⟨.timeout, rfl, by simp [step, Event.ofThread, threadStep, hthread, hset]⟩
  | answered event => exact ⟨.goOn, rfl, by simp [step, Event.ofThread, threadStep, hthread]⟩
  | unanswered event => exact ⟨.check, rfl, by simp [step, Event.ofThread, threadStep, hthread]⟩
  | condemned event => exact ⟨.abort, rfl, by simp [step, Event.ofThread, threadStep, hthread]⟩
  | aborting => simp [hthread, Thread.atRest] at h
  | ended => simp [hthread, Thread.atRest] at h

/-! ## A process that is stopping -/

/-- How many steps the thread has left, at most, once `_stop` is set. -/
def Thread.stepsToEnd : Thread → Nat
  | .probing => 6
  | .created _ => 5
  | .published _ => 4
  | .waiting _ => 3
  | .answered _ | .unanswered _ => 2
  | .period | .refused _ | .condemned _ => 1
  | .aborting | .ended => 0

/-- How long it may still have to wait. -/
def Thread.timeToEnd (timeout : Nat) : Thread → Nat
  | .probing | .created _ | .published _ | .waiting _ => timeout
  | _ => 0

theorem stepsToEnd_step (hstop : s.stop = true) (h : step s e = some s') :
    s'.thread.stepsToEnd + (if e.ofThread then 1 else 0) ≤ s.thread.stepsToEnd := by
  rcases step_cases h with ⟨hin, hmove⟩ | ⟨hout, hmain⟩
  · rw [if_pos hin]
    cases hmove with
    | periodOver _ hunset => rw [hstop] at hunset; cases hunset
    | condemn _ hunset => rw [hstop] at hunset; cases hunset
    | _ => simp_all [Thread.stepsToEnd]
  · rw [(mainStep_frame hmain).1, hout]
    simp

theorem timeToEnd_step (hstop : s.stop = true) (h : step s e = some s') :
    s'.thread.timeToEnd timeout + e.waits period timeout ≤ s.thread.timeToEnd timeout := by
  rcases step_cases h with ⟨-, hmove⟩ | ⟨hout, hmain⟩
  · cases hmove with
    | periodOver _ hunset => rw [hstop] at hunset; cases hunset
    | condemn _ hunset => rw [hstop] at hunset; cases hunset
    | _ => simp_all [Thread.timeToEnd, Event.waits]
  · have hzero : e.waits period timeout = 0 := by
      cases e <;> first | rfl | cases hout
    rw [(mainStep_frame hmain).1, hzero]
    exact Nat.le_refl _

theorem Thread.stepsToEnd_le (t : Thread) : t.stepsToEnd ≤ 6 := by
  cases t <;> simp [Thread.stepsToEnd]

theorem Thread.timeToEnd_le (t : Thread) : t.timeToEnd timeout ≤ timeout := by
  cases t <;> simp [Thread.timeToEnd]

/-- A thread that cannot move is at rest. -/
theorem atRest_of_stuck (h : ∀ e, e.ofThread = true → step s e = none) :
    s.thread = .aborting ∨ s.thread = .ended := by
  cases hrest : s.thread.atRest with
  | false =>
    obtain ⟨e, hin, hmove⟩ := exists_move hrest
    rw [h e hin] at hmove
    cases hmove
  | true =>
    cases hthread : s.thread with
    | aborting => exact Or.inl rfl
    | ended => exact Or.inr rfl
    | _ => simp [hthread, Thread.atRest] at hrest

/-- **A thread that is stopped ends.** Once `_stop` is set the thread takes at most six more steps and
waits `timeout` at most, whatever the main thread does; and where it can take no step it has ended, if it
was not about to abort already. -/
theorem stop_ends (hstop : s.stop = true) (h : run step s es = some s') :
    es.countP Event.ofThread ≤ 6 ∧ cost (Event.waits period timeout) es ≤ timeout ∧
      ((∀ e, e.ofThread = true → step s' e = none) → (∀ event, s.thread ≠ .condemned event) →
        s.thread ≠ .aborting →
        s'.thread = .ended) := by
  have hkeep : ∀ (m : State) (e : Event) (m' : State), m.stop = true → True → step m e = some m' →
      m'.stop = true :=
    fun m e m' hm _ hstep => step_stop hstep hm
  have hsteps := run_cost_le hkeep (fun m e m' hm _ hstep => stepsToEnd_step hm hstep) es
    (fun _ _ => trivial) h hstop
  have htime : s'.thread.timeToEnd timeout + cost (Event.waits period timeout) es ≤
      s.thread.timeToEnd timeout :=
    run_cost_le hkeep (fun m e m' hm _ hstep => timeToEnd_step hm hstep) es
      (fun _ _ => trivial) h hstop
  refine ⟨?_, ?_, fun hstuck hcondemned haborting => ?_⟩
  · have hle := s.thread.stepsToEnd_le
    rw [cost_countP] at hsteps
    omega
  · have hle : s.thread.timeToEnd timeout ≤ timeout := s.thread.timeToEnd_le
    omega
  · have hstopping := run_invariant step_stopping es h ⟨hstop, haborting, hcondemned⟩
    rcases atRest_of_stuck hstuck with hthread | hthread
    · exact absurd hthread hstopping.2.1
    · exact hthread

/-- A probe published behind the back of `stop`. -/
theorem stop_ends_behind :
    ∃ s s' es, run step start [.periodOver, .callStop, .test] = some s ∧ run step s es = some s' ∧
    cost (Event.waits 10 30) es ≤ 30 ∧ s'.thread = .ended := by
  refine ⟨_, _, [.create, .publish, .schedule, .timeout, .check, .stopSeen], rfl, rfl, ?_⟩
  have hends := @stop_ends { main := .joining, thread := .probing, stop := true } _
    [.create, .publish, .schedule, .timeout, .check, .stopSeen] 10 30 rfl rfl
  exact ⟨hends.2.1, rfl⟩

/-! ## A loop that hangs -/

/-- How many steps the thread takes to its abort, at most, if nobody helps it. -/
def State.stepsToAbort (s : State) : Nat :=
  match s.thread with
  | .waiting event => if event ∈ s.acknowledged then 9 else 3
  | .answered _ => 8
  | .period => 7
  | .probing => 6
  | .created _ => 5
  | .published _ => 4
  | .unanswered _ | .refused _ => 2
  | .condemned _ => 1
  | .aborting | .ended => 0

def State.timeToAbort (period timeout : Nat) (s : State) : Nat :=
  match s.thread with
  | .waiting event => if event ∈ s.acknowledged then timeout + (period + timeout) else timeout
  | .answered _ | .period => period + timeout
  | .probing | .created _ | .published _ => timeout
  | _ => 0

/-- Before `stop`: the main thread runs the loop, the thread has not ended, and the event it has just
created is not scheduled, let alone set. -/
structure Unstopped (s : State) : Prop where
  looping : s.main = .looping
  running : s.thread ≠ .ended
  known : ∀ event ∈ s.ready ++ s.acknowledged, event < s.events
  fresh : ∀ event, s.thread = .created event ∨ s.thread = .published event → event ∉ s.ready ++
    s.acknowledged

theorem unstopped_start : Unstopped start := by
  refine ⟨rfl, by simp [start], by simp [start], fun event h => ?_⟩
  simp [start]

theorem Moves.unstopped (hinv : Inv s) (hi : Unstopped s) (hstop : s.stop = false)
    (h : Moves s e s') : Unstopped s' := by
  cases h with
  | stopSeen _ hset => rw [hstop] at hset; cases hset
  | leave _ hset => rw [hstop] at hset; cases hset
  | forgive _ hset => rw [hstop] at hset; cases hset
  | create hat =>
    refine ⟨hi.looping, nofun, fun event hevent => Nat.lt_succ_of_lt (hi.known event hevent), ?_⟩
    rintro event (h | h)
    · cases h
      exact fun hevent => Nat.lt_irrefl _ (hi.known _ hevent)
    · cases h
  | publish hat =>
    refine ⟨hi.looping, nofun, hi.known, ?_⟩
    rintro event (h | h)
    · cases h
    · cases h
      exact hi.fresh _ (Or.inl hat)
  | schedule hat _ =>
    have hevents := (hinv.probe _ (by rw [hat]; rfl)).2
    refine ⟨hi.looping, nofun, fun event hevent => ?_, ?_⟩
    · simp only [List.append_assoc, List.mem_append, List.mem_singleton] at hevent
      rcases hevent with hready | rfl | hset
      · exact hi.known event (List.mem_append_left _ hready)
      · exact hevents ▸ Nat.lt_succ_self _
      · exact hi.known event (List.mem_append_right _ hset)
    · rintro event (h | h) <;> cases h
  | _ =>
    refine ⟨hi.looping, nofun, hi.known, ?_⟩
    rintro event (h | h) <;> cases h

theorem mainStep_unstopped (hi : Unstopped s) (hunset : s'.stop = false)
    (h : mainStep s e = some s') : Unstopped s' := by
  cases e <;> simp only [mainStep, hi.looping] at h
  case runAcknowledgement =>
    split at h
    · rename_i event ready hlooping hready
      split at h
      · cases h
      · cases h
        have hsame : ∀ event', event' ∈ ready ++ event :: s.acknowledged ↔ event' ∈ s.ready ++
            s.acknowledged := by
          intro event'
          simp only [hready, List.mem_append, List.mem_cons]
          tauto
        exact ⟨rfl, hi.running, fun event' h => hi.known event' ((hsame event').1 h),
          fun event' hthread h => hi.fresh event' hthread ((hsame event').1 h)⟩
    · cases h
  case callStop =>
    cases h
    cases hunset
  case close =>
    cases h
    exact ⟨rfl, hi.running, hi.known, hi.fresh⟩
  all_goals cases h

theorem unstopped_reachable (h : Reachable step start s) : s.stop = false → Unstopped s := by
  have hstep : ∀ m e m', (Inv m ∧ (m.stop = false → Unstopped m)) → step m e = some m' →
      Inv m' ∧ (m'.stop = false → Unstopped m') := by
    intro m e m' hi hs
    refine ⟨step_inv m e m' hi.1 hs, fun hunset => ?_⟩
    have hbefore : m.stop = false := by
      by_contra hset
      rw [step_stop hs (by simpa using hset)] at hunset
      cases hunset
    rcases step_cases hs with ⟨-, hmove⟩ | ⟨-, hmain⟩
    · exact hmove.unstopped hi.1 (hi.2 hbefore) hbefore
    · exact mainStep_unstopped (hi.2 hbefore) hunset hmain
  exact (h.invariant hstep ⟨inv_start, fun _ => unstopped_start⟩).2

theorem Moves.stepsToAbort (hi : Unstopped s) (hstop : s.stop = false) (h : Moves s e s') :
    s'.stepsToAbort + 1 ≤ s.stepsToAbort := by
  cases h with
  | stopSeen _ hset => rw [hstop] at hset; cases hset
  | leave _ hset => rw [hstop] at hset; cases hset
  | forgive _ hset => rw [hstop] at hset; cases hset
  | schedule hat _ =>
    have hfresh := hi.fresh _ (Or.inr hat)
    simp_all [State.stepsToAbort]
  | condemn hat _ => rcases hat with hat | hat <;> simp [State.stepsToAbort, hat]
  | _ => simp_all [State.stepsToAbort]

theorem Moves.timeToAbort (hi : Unstopped s) (hstop : s.stop = false) (h : Moves s e s') :
    s'.timeToAbort period timeout + e.waits period timeout ≤ s.timeToAbort period timeout := by
  cases h with
  | stopSeen _ hset => rw [hstop] at hset; cases hset
  | leave _ hset => rw [hstop] at hset; cases hset
  | forgive _ hset => rw [hstop] at hset; cases hset
  | schedule hat _ =>
    have hfresh := hi.fresh _ (Or.inr hat)
    simp_all [State.timeToAbort, Event.waits]
  | condemn hat _ => rcases hat with hat | hat <;> simp [State.timeToAbort, Event.waits, hat]
  | _ =>
    simp_all [State.timeToAbort, Event.waits]
    try omega

theorem State.stepsToAbort_le (s : State) : s.stepsToAbort ≤ 9 := by
  unfold stepsToAbort
  split
  · split <;> omega
  all_goals omega

theorem State.timeToAbort_le (s : State) : s.timeToAbort period timeout ≤ period + 2 * timeout := by
  unfold timeToAbort
  split
  · split <;> omega
  all_goals omega

/-- **A loop that hangs is found out.** From any state before `stop`, if the main thread does nothing
more, the watchdog takes at most nine steps, waits at most one period and two timeouts, and does not rest
before it aborts. -/
theorem hang_detected (hr : Reachable step start s) (hstop : s.stop = false)
    (hes : ∀ e ∈ es, e.ofThread = true) (h : run step s es = some s') :
    es.length ≤ 9 ∧ cost (Event.waits period timeout) es ≤ period + 2 * timeout ∧
      ((∀ e, e.ofThread = true → step s' e = none) → s'.thread = .aborting) := by
  have hmoves : ∀ m e m', e.ofThread = true → step m e = some m' → Moves m e m' := by
    intro m e m' hin hs
    rcases step_cases hs with ⟨-, hmove⟩ | ⟨hout, -⟩
    · exact hmove
    · rw [hin] at hout
      cases hout
  have hkeep : ∀ m e m', (Inv m ∧ Unstopped m ∧ m.stop = false) → e.ofThread = true →
    step m e = some m' →
      Inv m' ∧ Unstopped m' ∧ m'.stop = false := by
    rintro m e m' ⟨hinv, hi, hunset⟩ hin hs
    have hmove := hmoves m e m' hin hs
    exact ⟨step_inv m e m' hinv hs, hmove.unstopped hinv hi hunset, hmove.stop_eq.1.trans hunset⟩
  have hstart : Inv s ∧ Unstopped s ∧ s.stop = false :=
    ⟨hr.invariant step_inv inv_start, unstopped_reachable hr hstop, hstop⟩
  have hsteps := run_cost_le hkeep (fun m e m' hm hin hs =>
    (hmoves m e m' hin hs).stepsToAbort hm.2.1 hm.2.2) es hes h hstart
  have htime : s'.timeToAbort period timeout + cost (Event.waits period timeout) es ≤
      s.timeToAbort period timeout :=
    run_cost_le hkeep (fun m e m' hm hin hs => (hmoves m e m' hin hs).timeToAbort hm.2.1 hm.2.2)
      es hes h hstart
  refine ⟨?_, ?_, fun hstuck => ?_⟩
  · have hle := s.stepsToAbort_le
    rw [cost_one] at hsteps
    omega
  · have hle : s.timeToAbort period timeout ≤ period + 2 * timeout := s.timeToAbort_le
    omega
  · rcases atRest_of_stuck hstuck with hthread | hthread
    · exact hthread
    · have hsafe := run_invariant_of_allowed hkeep es hes h hstart
      exact absurd hthread hsafe.2.1.running

/-- A loop that hangs in the middle of a period. -/
theorem hang_detected_period :
    ∃ s', run step start [.periodOver, .create, .publish, .schedule, .timeout, .check, .abort] =
      some s' ∧
    s'.thread = .aborting := by
  have hhang := @hang_detected start _ [.periodOver, .create, .publish, .schedule, .timeout, .check,
    .abort] 10 30 ⟨[], rfl⟩ rfl
    (by decide) rfl
  exact ⟨_, rfl, hhang.2.2 fun e he => by cases e <;> first | rfl | cases he⟩

end Atasks.Commands.Watchdog
