import Atasks.Router.Settled
/-!
# What a failed call leaves, and what the next one makes of it

`activate` sets `server` before it subscribes anything and `_activated` after it has
subscribed everything (`atasks/router.py:152-170`), so a failure in between leaves a server
with nothing recorded: activating it again is a no-op, and `deactivate` takes nothing back.
`deactivate` keeps both until its last line, so it can be repeated, but the AMQP transport
drops a consumer's entry before it cancels the consumer (`atasks/transport/backends/amqp.py:342-357`).

* `failed_call_cases`: the two kinds of state a failed call leaves;
* `failed_call_iff`: which positions of the failure the next call recovers from.
-/

namespace Atasks.Router

open Machine
open Amqp.Consumers (Failure without mem_without)

variable {α : Type} {s s' s₀ s₁ : State α} {t : TransportId} {k : TaskId} {op : Op} {f : Failure}

/-! ## How far a call is -/

/-- Names `op` subscribes once it has unsubscribed the old ones. -/
def toEnter (s : State α) : Op → Nat
  | .activate (some _) => (todo s.names).length
  | _ => 0

/-- Transport calls still to make, the current one included. -/
def callsLeft (s : State α) : Task → Nat
  | .unregistering _ kind _ rest kinds op => (remaining s kind rest kinds).length + 1 + toEnter s op
  | .registering _ _ _ rest _ => rest.length + 1
  | .finished _ => 0

/-- The task is in a call of `op` that found `server`. -/
def Doing (server : Option TransportId) (op : Op) : Task → Prop
  | .unregistering t _ _ _ _ op' => server = some t ∧ op' = op
  | .registering t _ _ _ _ => op = .activate (some t)
  | .finished _ => True

def Progress (server : Option TransportId) (op : Op) (s : State α) (k : TaskId) (n : Nat) : Prop :=
  ∃ task, s.tasks k = some task ∧ Doing server op task ∧ callsLeft s task = n

theorem activateNames_progress {server : Option TransportId} (hserver : s.server = some t)
    (names : Kind → List String) :
    ∀ rest : Names, Progress server (.activate (some t))
    (activateNames s k names rest) k rest.length
  | [] => ⟨_, Function.update_self .., trivial, rfl⟩
  | (kind, name) :: rest => by
    simp only [activateNames, hserver]
    exact ⟨_, Function.update_self .., rfl, rfl⟩

theorem enter_progress {server : Option TransportId} :
    ∀ target, Progress server (.activate target) (enter s k target) k (toEnter s (.activate target))
  | none => ⟨_, Function.update_self .., trivial, rfl⟩
  | some t => activateNames_progress (s := { s with server := some t }) rfl _ _

theorem leave_progress {server : Option TransportId} :
    ∀ op, Progress server op (leave s k op) k (toEnter s op)
  | .deactivate => ⟨_, Function.update_self .., trivial, rfl⟩
  | .activate target =>
    enter_progress (s := { s with activated := fun _ => [], server := none }) target

theorem deactivateLoop_progress (hserver : s.server = some t) (op : Op) :
    ∀ (kind : Kind) (rest : List String) (kinds : List Kind),
      Progress (some t) op (deactivateLoop s k op kind rest kinds) k
        ((remaining s kind rest kinds).length + toEnter s op)
  | kind, name :: rest, kinds => by
    simp only [deactivateLoop, hserver]
    refine ⟨_, Function.update_self .., ⟨rfl, rfl⟩, ?_⟩
    show (remaining s kind rest kinds).length + 1 + toEnter s op = _
    rfl
  | kind, [], kind' :: kinds => deactivateLoop_progress hserver op kind' _ kinds
  | kind, [], [] => by
    have h : Progress (some t) op (leave s k op) k (toEnter s op) := leave_progress op
    simpa [remaining, deactivateLoop] using h

theorem start_progress (h : AtRest s) (hop : op.isNoop s = false) (hs : start s k op = some s') :
    Progress s.server op s' k ((todo s.activated).length + toEnter s op) := by
  unfold start at hs
  split at hs
  · cases hs
  · rw [hop, if_neg Bool.false_ne_true] at hs
    cases hserver : s.server with
    | some t =>
      have hs' : deactivateStart s k op = s' := by
        cases op <;> simpa only [hserver, Option.some.injEq] using hs
      exact hs' ▸ deactivateLoop_progress hserver op _ _ _
    | none =>
      cases op with
      | deactivate => simp [Op.isNoop, hserver] at hop
      | activate target =>
        simp only [AtRest, hserver] at h
        simp only [hserver, Option.some.injEq] at hs
        have hnone : todo s.activated = [] := List.eq_nil_iff_forall_not_mem.2 fun p hp => by
          rw [mem_todo, h.1] at hp; cases hp
        rw [hnone, List.length_nil, Nat.zero_add]
        exact hs ▸ enter_progress target

theorem completes_progress {server : Option TransportId} {n : Nat} (hcore : Core s)
    (h : Progress server op s k n) (hs : completes s k = some s') :
    ∃ m, n = m + 1 ∧ Progress server op s' k m := by
  obtain ⟨task, hk, hdoing, rfl⟩ := h
  unfold completes at hs
  rw [hk] at hs
  split at hs
  · rename_i t kind name rest kinds op' heq
    cases heq
    cases hs
    obtain ⟨rfl, rfl⟩ := hdoing
    have hserver : s.server = some t := (hcore.ok hk (by simp)).1.1
    exact ⟨_, Nat.add_right_comm .., deactivateLoop_progress
      (s := s.setTransport t _) hserver op' kind rest kinds⟩
  · rename_i t kind name rest names heq
    cases heq
    cases hs
    cases hdoing
    have hserver : s.server = some t := (hcore.ok hk (by simp)).1.1
    exact ⟨_, rfl, activateNames_progress (s := s.setTransport t _) hserver names rest⟩
  · cases hs

/-- A call `p` transport calls later. -/
theorem run_progress {server : Option TransportId} :
    ∀ (p : Nat) {n : Nat} {s s' : State α}, Core s → Progress server op s k n →
      run step s (List.replicate p (.completes k)) = some s' →
      Core s' ∧ s'.registries = s.registries ∧ ∃ m, n = p + m ∧ Progress server op s' k m
  | 0, n, s, s', hcore, h, hs => by cases hs; exact ⟨hcore, rfl, n, (Nat.zero_add n).symm, h⟩
  | p + 1, n, s, s', hcore, h, hs => by
    obtain ⟨mid, hmid, hr⟩ := run_cons_eq_some.1 (List.replicate_succ ▸ hs)
    obtain ⟨m, rfl, hm⟩ := completes_progress hcore h hmid
    obtain ⟨hcore', hreg, m', rfl, hm'⟩ := run_progress p (hcore.completes hmid) hm hr
    exact ⟨hcore', hreg.trans (completes_quiet hmid).registries, m', by omega, hm'⟩

/-! ## What a failed call leaves -/

/-- `t` holds the names in `L` and the forgotten ones in `X`, the others nothing. -/
def Leaves (s : State α) (t : TransportId) (L X : Names) : Prop :=
  (s.transports t).Holds L X ∧ ∀ t', t' ≠ t → (s.transports t').Holds [] []

theorem OnlyHolds.leaves {L L' X : Names} {tr : Transport} (h : OnlyHolds s t L)
    (htr : tr.Holds L' X) (k : TaskId) (task : Task) :
    Leaves ((s.setTransport t tr).setTask k task) t L' X := by
  refine ⟨by simp only [State.setTask, State.setTransport, Function.update_self]; exact htr,
    fun t' ht => ?_⟩
  simp only [State.setTask, State.setTransport, Function.update_of_ne ht]
  exact h.2 t' ht

/-- The call has failed on the way out of `t`, after `p` names: everything is recorded still. -/
structure Leaving (s₀ : State α) (op : Op) (p : Nat) (f : Failure) (t : TransportId)
    (s : State α) : Prop where
  found : s₀.server = some t
  early : p < (todo s₀.activated).length
  notTarget : op ≠ .activate (some t)
  server : s.server = some t
  registries : s.registries = s₀.registries
  recorded : s.activated = s.names
  leaves : ∃ L X, Leaves s t L X ∧ (∀ q ∈ L, q ∈ todo s.names) ∧ (X = [] ↔ f.leaves = false)

/-- The call has failed on the way into `t`, after `done`: nothing is recorded. -/
structure Entering (s₀ : State α) (op : Op) (p : Nat) (f : Failure) (t : TransportId)
    (s : State α) : Prop where
  target : op = .activate (some t)
  server : s.server = some t
  registries : s.registries = s₀.registries
  recorded : ∀ kind, s.activated kind = []
  leaves : ∃ done q rest, todo s₀.names = done ++ q :: rest ∧ p = (todo s₀.activated).length +
    done.length ∧
    Leaves s t done (if f.leaves then [q] else [])

theorem raises_leaving {p m : Nat} (hcore : Core s) (hreg : s.registries = s₀.registries)
    (hprogress : Progress s₀.server op s k m)
    (hm : (todo s₀.activated).length + toEnter s₀ op = p + m) (hs : raises s k f = some s₁) :
    ∃ t, Leaving s₀ op p f t s₁ ∨ Entering s₀ op p f t s₁ := by
  have hnames : s.names = s₀.names := names_eq hreg
  have henter : toEnter s op = toEnter s₀ op := by unfold toEnter; rw [hnames]
  obtain ⟨task, hk, hdoing, rfl⟩ := hprogress
  unfold raises at hs
  rw [hk] at hs
  split at hs
  · rename_i t kind name rest kinds op' heq
    cases heq
    obtain ⟨tr, htr, rfl⟩ := Option.map_eq_some_iff.1 hs
    obtain ⟨hfound, rfl⟩ := hdoing
    obtain ⟨⟨hserver, hact, hop, ⟨done, htodo⟩, hholds⟩, -⟩ := hcore.ok hk (by simp)
    have hleaves := hholds.leaves (hholds.1.unregisterRaises List.mem_cons_self htr) k
      (.finished (.raised (.transport f)))
    refine ⟨t, Or.inl ⟨hfound, ?_, hop, hserver, hreg, hact, _, _, hleaves, ?_, ?_⟩⟩
    · simp only [callsLeft, henter] at hm
      omega
    · intro q hq
      refine htodo ▸ List.mem_append_right done ?_
      split at hq
      · exact hq
      · exact (mem_without.1 hq).1
    · cases f.leaves <;> simp
  · rename_i t kind name rest names heq
    cases heq
    obtain ⟨tr, htr, rfl⟩ := Option.map_eq_some_iff.1 hs
    cases hdoing
    obtain ⟨⟨hserver, hact, -, done, htodo, hholds⟩, -⟩ := hcore.ok hk (by simp)
    have hnotin : (kind, name) ∉ done := not_mem_done htodo
    have hleaves := hholds.leaves (hholds.1.registerRaises hnotin List.not_mem_nil htr) k
      (.finished (.raised (.transport f)))
    refine ⟨t, Or.inr ⟨rfl, hserver, hreg, hact, done, (kind, name), rest, hnames ▸ htodo,
      ?_, hleaves⟩⟩
    simp only [callsLeft, toEnter, ← hnames, htodo, List.length_append, List.length_cons] at hm
    omega
  · cases hs

/-- A call of `op` by task `k` whose transport calls succeed `p` times and then raise. -/
def failing (k : TaskId) (op : Op) (p : Nat) (f : Failure) : List (Event α) :=
  .start k op :: (List.replicate p (.completes k) ++ [.raises k f])

/-- **What a failed call leaves.** -/
theorem failed_call_cases (hcore : Core s₀) (hall : AllFinished s₀) {p : Nat}
    (hrun : run step s₀ (failing k op p f) = some s₁) :
    ∃ t, Leaving s₀ op p f t s₁ ∨ Entering s₀ op p f t s₁ := by
  obtain ⟨s, hs, hr⟩ := run_cons_eq_some.1 hrun
  obtain ⟨s', hp, hf⟩ := run_append_eq_some.1 hr
  rw [run_singleton] at hf
  have hcore' : Core s := hcore.start hs fun _ => hall
  have hreg : s.registries = s₀.registries := (start_quiet hs).registries
  have hop : op.isNoop s₀ = false := by
    by_contra hnoop
    rw [Bool.not_eq_false] at hnoop
    have hfinished : s = s₀.setTask k (.finished .returned) := by
      simp only [step, start] at hs
      split at hs
      · cases hs
      · rw [if_pos hnoop] at hs; exact (Option.some.inj hs).symm
    have hk : s.tasks k = some (.finished .returned) := by
      rw [hfinished]
      exact Function.update_self ..
    cases p with
    | zero => cases hp; simp [step, raises, hk] at hf
    | succ p =>
      obtain ⟨_, hc, -⟩ := run_cons_eq_some.1 (List.replicate_succ ▸ hp)
      simp [step, completes, hk] at hc
  obtain ⟨hcore'', hreg', m, hm, hprogress⟩ :=
    run_progress p hcore' (start_progress (hcore.atRest hall) hop hs) hp
  exact raises_leaving hcore'' (hreg'.trans hreg) hprogress hm hf

/-! ## The next call -/

/-- A call of `op` whose transport calls all succeed ends, and `P` holds then. -/
def Ends (s : State α) (k : TaskId) (op : Op) (P : State α → Prop) : Prop :=
  ∃ q s', run step s (.start k op :: List.replicate q (.completes k)) = some s' ∧
    s'.tasks k = some (.finished .returned) ∧ P s'

theorem completes_finished {o : Ending} (h : s.tasks k = some (.finished o)) :
    step s (.completes k) = none := by
  simp [step, completes, h]

theorem ends_iff {q : Nat}
    (hrun : run step s (.start k op :: List.replicate q (.completes k)) = some s')
    (hk : s'.tasks k = some (.finished .returned)) (P : State α → Prop) : Ends s k op P ↔ P s' := by
  constructor
  · rintro ⟨q', s'', hrun', hk', h⟩
    obtain ⟨m, hm, hr⟩ := run_cons_eq_some.1 hrun
    obtain ⟨m', hm', hr'⟩ := run_cons_eq_some.1 hrun'
    rw [hm] at hm'
    cases hm'
    rwa [run_replicate_unique hr hr' (completes_finished hk) (completes_finished hk')]
  · intro h
    exact ⟨q, s', hrun, hk, h⟩

/-- Unsubscribing goes on to the end: what was recorded is gone, what is forgotten stays. -/
theorem deactivateLoop_run (op : Op) (kind : Kind) (rest : List String) (kinds : List Kind)
    {s : State α} {L X : Names} (hserver : s.server = some t) (hL : (s.transports t).Holds L X) :
    ∃ s', run step (deactivateLoop s k op kind rest kinds)
        (List.replicate (remaining s kind rest kinds).length (.completes k)) =
          some (leave s' k op) ∧
      s'.registries = s.registries ∧ (∀ t', t' ≠ t → s'.transports t' = s.transports t') ∧
      ∃ L', (s'.transports t).Holds L' X ∧ ∀ p, p ∈ L' ↔
        p ∈ L ∧ p ∉ remaining s kind rest kinds := by
  match rest, kinds with
  | [], [] => exact ⟨s, rfl, rfl, fun _ _ => rfl, L, hL, by simp [remaining]⟩
  | [], kind' :: kinds => exact deactivateLoop_run op kind' (s.activated kind') kinds hserver hL
  | name :: rest, kinds =>
    simp only [deactivateLoop, hserver]
    let m := (s.setTask k (.unregistering t kind name rest kinds op)).setTransport t
      ((s.transports t).unregister kind name)
    have hcompletes : step (s.setTask k (.unregistering t kind name rest kinds op)) (.completes k) =
        some (deactivateLoop m k op kind rest kinds) := by
      simp [m, step, completes, State.setTask]
    have hm : (m.transports t).Holds (without L (kind, name)) X := by
      simp only [m, State.setTransport, Function.update_self]
      exact hL.unregister kind name
    obtain ⟨s', hrun, hreg, hothers, L', hL', hmem⟩ :=
      deactivateLoop_run op kind rest kinds (s := m) hserver hm
    refine ⟨s', run_cons_eq_some.2 ⟨_, hcompletes, hrun⟩, hreg, fun t' ht =>
      (hothers t' ht).trans ?_, L', hL', fun p => ?_⟩
    · simp only [m, State.setTransport, Function.update_of_ne ht]
      rfl
    · rw [hmem, mem_without]
      simp only [remaining, List.map_cons, List.cons_append, List.mem_cons, not_or]
      exact and_assoc
termination_by (kinds, rest)

/-- Subscribing goes on to the end. -/
theorem activateNames_run (names : Kind → List String) :
    ∀ (rest : Names) {s : State α} {L : Names}, s.server = some t →
    (s.transports t).Holds L [] → (∀ p ∈ rest, p ∉ L) → rest.Nodup →
    ∃ s', run step (activateNames s k names rest) (List.replicate rest.length (.completes k)) =
      some s' ∧
      s'.tasks k = some (.finished .returned) ∧ s'.registries = s.registries ∧
      ∃ L', (s'.transports t).Holds L' [] ∧ ∀ p, p ∈ L' ↔ p ∈ L ∨ p ∈ rest
  | [], s, L, _, hL, _, _ => ⟨_, rfl, Function.update_self .., rfl, L, hL, by simp⟩
  | (kind, name) :: rest, s, L, hserver, hL, hfree, hnodup => by
    simp only [activateNames, hserver]
    let m := (s.setTask k (.registering t kind name rest names)).setTransport t
      ((s.transports t).register kind name)
    have hcompletes : step (s.setTask k (.registering t kind name rest names)) (.completes k) =
        some (activateNames m k names rest) := by
      simp [m, step, completes, State.setTask]
    have hm : (m.transports t).Holds ((kind, name) :: L) [] := by
      simp only [m, State.setTransport, Function.update_self]
      exact hL.register (hfree _ List.mem_cons_self) List.not_mem_nil
    obtain ⟨hnotin, hnodup⟩ := List.nodup_cons.1 hnodup
    have hfree' : ∀ p ∈ rest, p ∉ (kind, name) :: L := fun p hp hin => by
      rcases List.mem_cons.1 hin with rfl | hin
      · exact hnotin hp
      · exact hfree p (List.mem_cons_of_mem _ hp) hin
    obtain ⟨s', hrun, hk, hreg, L', hL', hmem⟩ :=
      activateNames_run names rest (s := m) hserver hm hfree' hnodup
    refine ⟨s', run_cons_eq_some.2 ⟨_, hcompletes, hrun⟩, hk, hreg, L', hL', fun p => ?_⟩
    simp only [hmem, List.mem_cons]
    tauto

theorem start_deactivates (hserver : s.server = some t) (hfree : s.tasks k = none)
    (hop : op ≠ .activate (some t)) :
    step s (.start k op) = some (deactivateStart s k op) := by
  have hnoop : op.isNoop s = false := by
    cases op with
    | activate server => simpa [Op.isNoop, hserver] using fun heq => hop (by rw [heq])
    | deactivate => simp [Op.isNoop, hserver]
  simp only [step, start, hfree, hnoop, hserver]
  cases op <;> rfl

/-- `deactivate`, whatever is recorded. -/
theorem deactivate_ends {L X : Names} (hserver : s.server = some t) (hfree : s.tasks k = none)
    (hL : (s.transports t).Holds L X) :
    ∃ s', (∀ P, Ends s k .deactivate P ↔ P s') ∧
    (∀ t', t' ≠ t → s'.transports t' = s.transports t') ∧
      ∃ L', (s'.transports t).Holds L' X ∧ ∀ p, p ∈ L' ↔ p ∈ L ∧ p ∉ todo s.activated := by
  obtain ⟨s', hrun, -, hothers, hholds⟩ :=
    deactivateLoop_run (k := k) .deactivate .rpc (s.activated .rpc) [.queue, .broadcast] hserver hL
  refine ⟨leave s' k .deactivate, fun P => ends_iff (run_cons_eq_some.2 ⟨_, ?_, hrun⟩)
    (Function.update_self ..) P,
    hothers, hholds⟩
  exact start_deactivates hserver hfree (by simp)

/-- `activate` of the transport that is the server already. -/
theorem activate_again_ends (hserver : s.server = some t) (hfree : s.tasks k = none)
    (P : State α → Prop) :
    Ends s k (.activate (some t)) P ↔ P (s.setTask k (.finished .returned)) := by
  refine ends_iff (q := 0) (run_cons_eq_some.2 ⟨_, ?_, rfl⟩) (Function.update_self ..) P
  simp [step, start, hfree, Op.isNoop, hserver]

/-- `activate` of a transport nothing is held on, away from another one. -/
theorem activate_ends {t₀ : TransportId} {L X : Names} (hserver : s.server = some t₀) (hne : t ≠ t₀)
    (hfree : s.tasks k = none) (hL : (s.transports t₀).Holds L X)
    (ht : (s.transports t).Holds [] []) :
    ∃ s', (∀ P, Ends s k (.activate (some t)) P ↔ P s') ∧ s'.registries = s.registries ∧
      ∃ L', (s'.transports t).Holds L' [] ∧ ∀ p, p ∈ L' ↔ p ∈ todo s.names := by
  obtain ⟨m, hrun, hreg, hothers, -⟩ :=
    deactivateLoop_run (k := k) (.activate (some t)) .rpc (s.activated .rpc)
      [.queue, .broadcast] hserver hL
  have hm : (m.transports t).Holds [] [] := hothers t hne ▸ ht
  have hnames : m.names = s.names := names_eq hreg
  obtain ⟨s', hrun', hk, hreg', L', hL', hmem⟩ := activateNames_run (k := k) m.names (todo m.names)
    (s := { m with activated := fun _ => [], server := some t }) rfl hm (by simp)
      (nodup_todo_names m)
  refine ⟨s', fun P => ends_iff (q := (todo s.activated).length + (todo m.names).length) ?_ hk P,
    hreg'.trans hreg, L', hL',
    by simp [hmem, hnames]⟩
  refine run_cons_eq_some.2 ⟨_, start_deactivates hserver hfree (by simpa using hne), ?_⟩
  rw [List.replicate_add]
  exact run_append_eq_some.2 ⟨_, hrun, hrun'⟩

/-! ## What it makes of the failure -/

/-- Every registered name has a callback on `t`. -/
def Subscribed (t : TransportId) (s : State α) : Prop :=
  ∀ kind, ∀ name ∈ s.names kind, (s.transports t).callbacks kind name ≠ []

/-- No name has a callback on `t`. -/
def Unsubscribed (t : TransportId) (s : State α) : Prop :=
    ∀ kind name, (s.transports t).callbacks kind name = []

theorem subscribed_iff {L X : Names} (h : (s.transports t).Holds L X) :
    Subscribed t s ↔ ∀ p ∈ todo s.names, p ∈ L ∨ p ∈ X := by
  constructor
  · intro hs p hp
    have hne := hs p.1 p.2 (mem_todo.1 hp)
    rw [h.callbacks] at hne
    by_contra hnot
    exact hne (if_neg hnot)
  · intro hall kind name hn
    rw [h.callbacks, if_pos (hall (kind, name) (mem_todo.2 hn))]
    exact List.cons_ne_nil _ _

theorem unsubscribed_iff {L X : Names} (h : (s.transports t).Holds L X) :
    Unsubscribed t s ↔ L = [] ∧ X = [] := by
  constructor
  · intro hs
    have hnot : ∀ p, ¬(p ∈ L ∨ p ∈ X) := fun p hp => by
      have := hs p.1 p.2
      rw [h.callbacks, if_pos hp] at this
      cases this
    exact ⟨List.eq_nil_iff_forall_not_mem.2 fun p hp => hnot p (Or.inl hp),
      List.eq_nil_iff_forall_not_mem.2 fun p hp => hnot p (Or.inr hp)⟩
  · rintro ⟨rfl, rfl⟩ kind name
    rw [h.callbacks]
    simp

/-- Failed on the way out: the next call starts over, and only a consumer that outlived its
`cancel` is beyond its reach. -/
theorem Leaving.next {p : Nat} (h : Leaving s₀ op p f t s₁) (hfree : s₁.tasks k = none) :
    (Ends s₁ k .deactivate (Unsubscribed t) ↔ f.leaves = false) ∧
    ∀ t', t' ≠ t → Ends s₁ k (.activate (some t')) (Subscribed t') ∧
    Ends s₁ k .deactivate (Unsubscribed t') := by
  obtain ⟨L, X, ⟨hholds, hothers⟩, hsub, hX⟩ := h.leaves
  obtain ⟨s, hends, hsame, L', hL', hmem⟩ := deactivate_ends h.server hfree hholds
  constructor
  · have hnil : L' = [] := List.eq_nil_iff_forall_not_mem.2 fun q hq => by
      obtain ⟨hL, hnot⟩ := (hmem q).1 hq
      exact hnot (h.recorded ▸ hsub q hL)
    rw [hends, unsubscribed_iff hL', ← hX]
    exact and_iff_right hnil
  · intro t' ht
    constructor
    · obtain ⟨s', hends', hreg, L'', hL'', hmem'⟩ :=
        activate_ends h.server ht hfree hholds (hothers t' ht)
      have hnames : s'.names = s₁.names := names_eq hreg
      rw [hends', subscribed_iff hL'', hnames]
      exact fun q hq => Or.inl ((hmem' q).2 hq)
    · have hnone : (s.transports t').Holds [] [] := hsame t' ht ▸ hothers t' ht
      exact (hends _).2 ((unsubscribed_iff hnone).2 ⟨rfl, rfl⟩)

/-- Failed on the way in: `activate` is a no-op, and `deactivate` has nothing to take back. -/
theorem Entering.next {p : Nat} (h : Entering s₀ op p f t s₁) (hfree : s₁.tasks k = none) :
    (Ends s₁ k (.activate (some t)) (Subscribed t) ↔
      p + 1 = (todo s₀.activated).length + (todo s₀.names).length ∧ f.leaves = true) ∧
    (Ends s₁ k .deactivate (Unsubscribed t) ↔ p = (todo s₀.activated).length ∧ f.leaves = false) ∧
    (todo s₀.activated).length ≤ p := by
  obtain ⟨done, q, rest, htodo, rfl, hholds, -⟩ := h.leaves
  have hnames : s₁.names = s₀.names := names_eq h.registries
  have hnodup : (done ++ q :: rest).Nodup := htodo ▸ nodup_todo_names s₀
  refine ⟨?_, ?_, Nat.le_add_right ..⟩
  · rw [activate_again_ends h.server hfree, subscribed_iff (s := s₁.setTask k _) hholds]
    show (∀ p ∈ todo s₁.names, _) ↔ _
    rw [hnames, htodo, List.length_append, List.length_cons]
    constructor
    · intro hall
      have hq : q ∉ done := fun hin => (List.nodup_append.1 hnodup).2.2 _ hin _ List.mem_cons_self rfl
      have hleaves : f.leaves = true := by
        by_contra hf
        have := hall q (by simp)
        simp [hf, hq] at this
      have hrest : rest = [] := List.eq_nil_iff_forall_not_mem.2 fun q' hq' => by
        have hne : q' ≠ q := by
          rintro rfl
          exact (List.nodup_cons.1 (List.nodup_append.1 hnodup).2.1).1 hq'
        have hdone : q' ∉ done := fun hin =>
          (List.nodup_append.1 hnodup).2.2 _ hin _ (List.mem_cons_of_mem _ hq') rfl
        have := hall q' (by simp [hq'])
        simp [hleaves, hne, hdone] at this
      exact ⟨by simp [hrest, Nat.add_assoc], hleaves⟩
    · rintro ⟨hlen, hleaves⟩
      have hrest : rest = [] := List.length_eq_zero_iff.1 (by omega)
      subst hrest
      intro p hp
      simpa [hleaves] using hp
  · obtain ⟨s, hends, -, L', hL', hmem⟩ := deactivate_ends h.server hfree hholds
    have hrecorded : todo s₁.activated = [] := List.eq_nil_iff_forall_not_mem.2 fun p hp => by
      rw [mem_todo, h.recorded] at hp; cases hp
    have hdone : L' = [] ↔ done = [] := by
      simp only [List.eq_nil_iff_forall_not_mem, hmem, hrecorded]
      simp
    rw [hends, unsubscribed_iff hL', hdone]
    cases f.leaves <;> simp

/-- **Recovery.** With `m` names to unsubscribe first and `n` to subscribe, of a call that fails
after `p` of them: after a failed `activate t`, another one subscribes every name exactly if the
failure was among the first `m`, or at the last of all and left its consumer live; `deactivate`
leaves nothing on `t` exactly if the failure was among the first `m`, or at the very next one
and left no consumer. After a failed `deactivate` (or `activate None`), `deactivate` leaves
nothing exactly if the failure left no consumer. -/
theorem failed_call_iff {transports : TransportId → Transport} (hfresh : ∀ t, (transports t).Fresh)
    {es : List (Event α)} (hserial : Along step Serialized (State.init transports) es)
    {s₀ : State α} (hrun : run step (State.init transports) es = some s₀) (hall : AllFinished s₀)
    {k : TaskId} {op : Op} {p : Nat} {f : Failure} {s₁ : State α}
    (hfail : run step s₀ (failing k op p f) = some s₁) (k' : TaskId) (hfree : s₁.tasks k' = none) :
    (∀ t, op = .activate (some t) →
      (Ends s₁ k' (.activate (some t)) (Subscribed t) ↔
        p < (todo s₀.activated).length ∨
          p + 1 = (todo s₀.activated).length + (todo s₀.names).length ∧ f.leaves = true) ∧
      (Ends s₁ k' .deactivate (Unsubscribed t) ↔
        p < (todo s₀.activated).length ∨ p = (todo s₀.activated).length ∧ f.leaves = false)) ∧
    ∀ t, s₀.server = some t → op = .deactivate ∨ op = .activate none →
      (Ends s₁ k' .deactivate (Unsubscribed t) ↔ f.leaves = false) := by
  have hcore : Core s₀ := (run_inv hfresh hserial hrun).core
  obtain ⟨t₁, h | h⟩ := failed_call_cases hcore hall hfail
  · obtain ⟨hsame, hothers⟩ := h.next hfree
    refine ⟨fun t ht => ?_, fun t ht _ => ?_⟩
    · have hne : t ≠ t₁ := by rintro rfl; exact h.notTarget ht
      obtain ⟨hactivate, hdeactivate⟩ := hothers t hne
      exact ⟨iff_of_true hactivate (Or.inl h.early), iff_of_true hdeactivate (Or.inl h.early)⟩
    · have heq : t = t₁ := Option.some.inj (ht.symm.trans h.found)
      exact heq ▸ hsame
  · obtain ⟨hactivate, hdeactivate, hlate⟩ := h.next hfree
    refine ⟨fun t ht => ?_, fun t _ hop => ?_⟩
    · have heq : t = t₁ := by
        rw [h.target] at ht
        simpa using ht.symm
      subst heq
      simp only [Nat.not_lt.2 hlate, false_or]
      exact ⟨hactivate, hdeactivate⟩
    · rw [h.target] at hop
      simp at hop

/-- A switch from transport 0 to 1 whose first unregistration raises is made good by the next
`activate`, though the consumer at 0 lives on. -/
theorem failed_switch_recovers :
    let es : List (Event Nat) := [.register .rpc "m.f" 7, .start 0 (.activate (some 0)),
      .completes 0]
    ∃ s₀ s₁, run step (State.init fun _ => .amqp .empty) es = some s₀ ∧
      run step s₀ (failing 1 (.activate (some 1)) 0 (.late true)) = some s₁ ∧
      Ends s₁ 2 (.activate (some 1)) (Subscribed 1) ∧ Ends s₁ 2 .deactivate (Unsubscribed 1) := by
  intro es
  have hserial : Along step Serialized (State.init fun _ => .amqp .empty) es :=
    .cons rfl trivial (.cons rfl (fun _ => allFinished_of_returned fun _ => .inl rfl)
      (.cons rfl trivial trivial))
  refine ⟨_, _, rfl, rfl, ?_⟩
  obtain ⟨hactivate, hdeactivate⟩ := (failed_call_iff (fun _ => Or.inr rfl) hserial rfl
    (allFinished_of_returned fun k => by
      match k with
      | 0 => exact .inr rfl
      | _ + 1 => exact .inl rfl)
    (k := 1) (p := 0) (f := .late true) rfl 2 rfl).1 1 rfl
  exact ⟨hactivate.2 (Or.inl (by decide)), hdeactivate.2 (Or.inl (by decide))⟩

/-- The second of two registrations raises: `activate` again does nothing, `deactivate` takes
nothing back. And a `cancel` that raises with its consumer alive: `deactivate` again does not
know it any more. -/
theorem half_activated :
    (∃ s₀ s₁ : State Nat,
      run step (State.init fun _ => .amqp .empty) [.register .rpc "m.f" 7, .register .rpc "m.g" 8] =
        some s₀ ∧
      run step s₀ (failing 0 (.activate (some 0)) 1 .early) = some s₁ ∧
      ¬ Ends s₁ 1 (.activate (some 0)) (Subscribed 0) ∧ ¬ Ends s₁ 1 .deactivate (Unsubscribed 0)) ∧
    ∃ s₀ s₁ : State Nat,
      run step (State.init fun _ => .amqp .empty)
        [.register .rpc "m.f" 7, .start 0 (.activate (some 0)), .completes 0] = some s₀ ∧
      run step s₀ (failing 1 .deactivate 0 (.late true)) = some s₁ ∧
      ¬ Ends s₁ 2 .deactivate (Unsubscribed 0) := by
  refine ⟨⟨_, _, rfl, rfl, ?_, ?_⟩, _, _, rfl, rfl, ?_⟩
  · rw [ends_iff (q := 0) rfl rfl]
    exact fun h => h .rpc "m.g" (by decide) rfl
  · rw [ends_iff (q := 0) rfl rfl]
    exact fun h => absurd (h .rpc "m.f") (by decide)
  · rw [ends_iff (q := 1) rfl rfl]
    exact fun h => absurd (h .rpc "m.f") (by decide)

end Atasks.Router
