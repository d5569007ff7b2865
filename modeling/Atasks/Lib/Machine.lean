import Mathlib.Data.List.Basic
import Mathlib.Data.List.Induction
import Mathlib.Logic.Function.Basic
/-!
# Machines: partial step functions and their runs

A machine is a step function `σ → ε → Option σ`: an event says which of the enabled
things happens next, `none` says that it cannot happen in this state. A run executes a
list of events. Everything a development wants to say about *every interleaving* is a
statement about `run` over all event lists, and the rules below turn a fact about one
step into a fact about all of them.

* `run_invariant`: what every step preserves, every run preserves;
* `run_invariant_of_along`: the same for the runs all of whose steps are in a relation `R`;
* `run_measure_le`: what only some events increase is bounded by how many of them there are;
* `run_cost_le`: a potential that pays for every step bounds what a run costs;
* `along_congr`: two conditions on steps that agree wherever an invariant holds are met by
  the same runs;
* `run_agree`: what one part of a machine looks like after a run depends on the events
  inside that part alone;
* `run_last_inside`: and it is as the last of them left it.
-/

namespace Machine

variable {σ ε : Type*}

/-- Executes the events in order; `none` as soon as one of them is not enabled. -/
def run (step : σ → ε → Option σ) : σ → List ε → Option σ
  | s, [] => some s
  | s, e :: es => (step s e).bind fun s' => run step s' es

/-- Some run leads from `s₀` to `s`. -/
def Reachable (step : σ → ε → Option σ) (s₀ s : σ) : Prop := ∃ es, run step s₀ es = some s

/-- Every step the run takes is in `R`. -/
def Along (step : σ → ε → Option σ) (R : σ → ε → σ → Prop) : σ → List ε → Prop
  | _, [] => True
  | s, e :: es => ∀ s', step s e = some s' → R s e s' ∧ Along step R s' es

variable {step : σ → ε → Option σ}

theorem run_cons_eq_some {s s' : σ} {e : ε} {es : List ε} :
    run step s (e :: es) = some s' ↔ ∃ m, step s e = some m ∧ run step m es = some s' := by
  simp [run, Option.bind_eq_some_iff]

theorem run_append (s : σ) (es fs : List ε) :
    run step s (es ++ fs) = (run step s es).bind fun m => run step m fs := by
  induction es generalizing s with
  | nil => rfl
  | cons e es ih =>
    simp only [List.cons_append, run, Option.bind_assoc]
    congr 1
    funext m
    exact ih m

theorem run_append_eq_some {s s' : σ} {es fs : List ε} :
    run step s (es ++ fs) = some s' ↔ ∃ m, run step s es = some m ∧ run step m fs = some s' := by
  simp [run_append, Option.bind_eq_some_iff]

theorem run_singleton (s : σ) (e : ε) : run step s [e] = step s e := by
  simp [run]

/-! ## Invariants -/

/-- From one step to all runs. -/
theorem run_invariant {Inv : σ → Prop} (hstep : ∀ s e s', Inv s → step s e = some s' → Inv s') :
    ∀ {s s' : σ} (es : List ε), run step s es = some s' → Inv s → Inv s'
  | s, s', [], h, hi => by cases h; exact hi
  | s, s', e :: es, h, hi => by
    obtain ⟨m, hm, hr⟩ := run_cons_eq_some.1 h
    exact run_invariant hstep es hr (hstep s e m hi hm)

/-- From one step to all runs whose steps are in `R`. -/
theorem run_invariant_of_along {Inv : σ → Prop} {R : σ → ε → σ → Prop}
    (hstep : ∀ s e s', Inv s → R s e s' → step s e = some s' → Inv s') :
    ∀ {s s' : σ} (es : List ε), Along step R s es → run step s es = some s' → Inv s → Inv s'
  | s, s', [], _, h, hi => by cases h; exact hi
  | s, s', e :: es, hg, h, hi => by
    obtain ⟨m, hm, hr⟩ := run_cons_eq_some.1 h
    obtain ⟨hR, hg'⟩ := hg m hm
    exact run_invariant_of_along hstep es hg' hr (hstep s e m hi hR hm)

/-- From one step to all runs with events of one kind. -/
theorem run_invariant_of_allowed {Inv : σ → Prop} {allowed : ε → Prop}
    (hstep : ∀ s e s', Inv s → allowed e → step s e = some s' → Inv s') :
    ∀ {s s' : σ} (es : List ε), (∀ e ∈ es, allowed e) → run step s es = some s' → Inv s → Inv s'
  | s, s', [], _, h, hi => by cases h; exact hi
  | s, s', e :: es, hes, h, hi => by
    obtain ⟨m, hm, hr⟩ := run_cons_eq_some.1 h
    have hm' := hstep s e m hi (hes e List.mem_cons_self) hm
    exact run_invariant_of_allowed hstep es
      (fun e' he' => hes e' (List.mem_cons_of_mem _ he')) hr hm'

theorem Reachable.invariant {Inv : σ → Prop} {s₀ s : σ} (h : Reachable step s₀ s)
    (hstep : ∀ s e s', Inv s → step s e = some s' → Inv s') (h₀ : Inv s₀) : Inv s := by
  obtain ⟨es, hes⟩ := h
  exact run_invariant hstep es hes h₀

/-- What only some events can increase, and those by one. -/
theorem run_measure_le {Inv : σ → Prop} {μ : σ → ℕ} {counts : ε → Bool}
    (hinv : ∀ s e s', Inv s → step s e = some s' → Inv s')
    (hstep : ∀ s e s', Inv s → step s e = some s' → μ s' ≤ μ s + if counts e then 1 else 0) :
    ∀ {s s' : σ} (es : List ε), run step s es = some s' → Inv s → μ s' ≤ μ s + es.countP counts
  | s, s', [], h, _ => by cases h; exact Nat.le_refl _
  | s, s', e :: es, h, hi => by
    obtain ⟨m, hm, hr⟩ := run_cons_eq_some.1 h
    have hone := hstep s e m hi hm
    have hrest := run_measure_le hinv hstep es hr (hinv s e m hi hm)
    rw [List.countP_cons]
    omega

/-! ## What a run costs -/

/-- What the events of a run cost together. -/
def cost (price : ε → ℕ) : List ε → ℕ
  | [] => 0
  | e :: es => price e + cost price es

theorem cost_one (es : List ε) : cost (fun _ => 1) es = es.length := by
  induction es with
  | nil => rfl
  | cons e es ih =>
    rw [cost, ih, List.length_cons, Nat.add_comm]

theorem cost_countP (counts : ε → Bool) (es : List ε) :
    cost (fun e => if counts e then 1 else 0) es = es.countP counts := by
  induction es with
  | nil => rfl
  | cons e es ih =>
    rw [cost, ih, List.countP_cons, Nat.add_comm]

/-- A potential that pays for every step bounds the cost of the run. -/
theorem run_cost_le {Inv : σ → Prop} {allowed : ε → Prop} {potential : σ → ℕ} {price : ε → ℕ}
    (hinv : ∀ s e s', Inv s → allowed e → step s e = some s' → Inv s')
    (hpays : ∀ s e s', Inv s → allowed e → step s e = some s' → potential s' +
      price e ≤ potential s) :
    ∀ {s s' : σ} (es : List ε), (∀ e ∈ es, allowed e) → run step s es = some s' → Inv s →
      potential s' + cost price es ≤ potential s
  | s, s', [], _, h, _ => by cases h; exact Nat.le_refl _
  | s, s', e :: es, hes, h, hi => by
    obtain ⟨m, hm, hr⟩ := run_cons_eq_some.1 h
    have he := hes e List.mem_cons_self
    have hone := hpays s e m hi he hm
    have hrest := run_cost_le hinv hpays es (fun e' he' => hes e' (List.mem_cons_of_mem _ he')) hr
      (hinv s e m hi he hm)
    rw [cost]
    omega

/-! ## Repeating one event -/

/-- Repeating an event until it is no longer enabled leads to one state only. -/
theorem run_replicate_unique {s a b : σ} {e : ε} {p q : ℕ}
    (hp : run step s (List.replicate p e) = some a) (hq : run step s (List.replicate q e) = some b)
    (ha : step a e = none) (hb : step b e = none) : a = b := by
  have more : ∀ {a b : σ} {p d : ℕ}, run step s (List.replicate p e) = some a →
      run step s (List.replicate (p + d) e) = some b → step a e = none → a = b := by
    intro a b p d hp hq ha
    obtain ⟨m, hm, hr⟩ := run_append_eq_some.1 (List.replicate_add p d e ▸ hq)
    rw [hp] at hm
    cases hm
    cases d with
    | zero => cases hr; rfl
    | succ d =>
      obtain ⟨_, hs, -⟩ := run_cons_eq_some.1 (List.replicate_succ ▸ hr)
      rw [ha] at hs
      cases hs
  rcases Nat.le_total p q with h | h
  · obtain ⟨d, rfl⟩ := Nat.exists_eq_add_of_le h
    exact more hp hq ha
  · obtain ⟨d, rfl⟩ := Nat.exists_eq_add_of_le h
    exact (more hq hp hb).symm

/-! ## Conditions along a run -/

theorem Along.cons {R : σ → ε → σ → Prop} {s m : σ} {e : ε} {es : List ε} (hm : step s e = some m)
    (hR : R s e m) (h : Along step R m es) : Along step R s (e :: es) := by
  intro m' hm'
  rw [hm] at hm'
  cases hm'
  exact ⟨hR, h⟩

theorem Along.mono {R R' : σ → ε → σ → Prop} (hR : ∀ s e s', R s e s' → R' s e s') :
    ∀ {s : σ} {es : List ε}, Along step R s es → Along step R' s es
  | _, [], _ => trivial
  | _, _ :: _, h => fun s' hs => ⟨hR _ _ _ (h s' hs).1, Along.mono hR (h s' hs).2⟩

theorem Along.and {R R' : σ → ε → σ → Prop} :
    ∀ {s : σ} {es : List ε}, Along step R s es → Along step R' s es →
    Along step (fun s e s' => R s e s' ∧ R' s e s') s es
  | _, [], _, _ => trivial
  | _, _ :: _, h, h' => fun s' hs => ⟨⟨(h s' hs).1, (h' s' hs).1⟩, (h s' hs).2.and (h' s' hs).2⟩

/-- A step that a run takes on its way. -/
theorem Along.step_on_the_way {R : σ → ε → σ → Prop} {s m m' : σ} {es₁ es₂ : List ε} {e : ε}
    (h : Along step R s (es₁ ++ e :: es₂)) (hm : run step s es₁ = some m)
    (hstep : step m e = some m') : R m e m' := by
  induction es₁ generalizing s with
  | nil =>
    cases hm
    exact (h m' hstep).1
  | cons e₁ es₁ ih =>
    obtain ⟨n, hn, hrest⟩ := run_cons_eq_some.1 hm
    exact ih (h n hn).2 hrest

theorem Along.take {R : σ → ε → σ → Prop} {s : σ} {es₁ es₂ : List ε}
    (h : Along step R s (es₁ ++ es₂)) : Along step R s es₁ := by
  induction es₁ generalizing s with
  | nil => trivial
  | cons e es₁ ih => exact fun s' hs => ⟨(h s' hs).1, ih (h s' hs).2⟩

/-- Along a run whose steps keep an invariant, every step starts where it holds. -/
theorem Along.from_invariant {I : σ → Prop} {R : σ → ε → σ → Prop}
    (hstep : ∀ s e s', I s → R s e s' → step s e = some s' → I s') :
    ∀ {s : σ} {es : List ε}, I s → Along step R s es →
      Along step (fun s e s' => I s ∧ R s e s' ∧ step s e = some s') s es
  | _, [], _, _ => trivial
  | s, e :: _, hi, h => fun s' hs =>
    ⟨⟨hi, (h s' hs).1, hs⟩, Along.from_invariant hstep (hstep s e s' hi (h s' hs).1 hs) (h s' hs).2⟩

/-- Conditions that agree on every step from a state with the invariant, which the steps
that meet them keep. -/
theorem along_congr {I : σ → Prop} {R R' : σ → ε → σ → Prop}
    (hstep : ∀ s e s', I s → R' s e s' → step s e = some s' → I s')
    (hR : ∀ s e s', I s → step s e = some s' → (R s e s' ↔ R' s e s')) :
    ∀ {s : σ} (es : List ε), I s → (Along step R s es ↔ Along step R' s es)
  | _, [], _ => Iff.rfl
  | s, e :: es, hi => by
    have tail : ∀ s', R' s e s' → step s e = some s' → (Along step R s' es ↔ Along step R' s' es) :=
      fun s' hr hs => along_congr hstep hR es (hstep s e s' hi hr hs)
    constructor
    · intro h s' hs
      have hr := (hR s e s' hi hs).1 (h s' hs).1
      exact ⟨hr, (tail s' hr hs).1 (h s' hs).2⟩
    · intro h s' hs
      obtain ⟨hr, ht⟩ := h s' hs
      exact ⟨(hR s e s' hi hs).2 hr, (tail s' hr hs).2 ht⟩

/-! ## The parts of a machine -/

section parts

variable {τ : Type*} {view : σ → τ} {inside : ε → Bool}

theorem run_outside (hout : ∀ s e s', inside e = false → step s e = some s' → view s' = view s) :
    ∀ {s s' : σ} (es : List ε), (∀ e ∈ es, inside e = false) → run step s es = some s' →
    view s' = view s
  | s, s', [], _, h => by cases h; rfl
  | s, s', e :: es, hes, h => by
    obtain ⟨m, hm, hr⟩ := run_cons_eq_some.1 h
    have htail := run_outside hout es (fun e he => hes e (List.mem_cons_of_mem _ he)) hr
    exact htail.trans (hout s e m (hes e List.mem_cons_self) hm)

/-- Events outside leave the view alone, and an event inside does the same wherever the view is
the same: then so do two runs with the same events inside. -/
theorem run_agree (hout : ∀ s e s', inside e = false → step s e = some s' → view s' = view s)
    (hin : ∀ s t e s' t', inside e = true → view s = view t → step s e = some s' →
      step t e = some t' → view s' = view t') :
    ∀ {s t s' t' : σ} (es fs : List ε), view s = view t → es.filter inside = fs.filter inside →
      run step s es = some s' → run step t fs = some t' → view s' = view t'
  | s, t, s', t', [], fs, hview, hsame, hs, ht => by
    cases hs
    have hfs : ∀ e ∈ fs, inside e = false := by
      simpa using List.filter_eq_nil_iff.1 hsame.symm
    rw [hview, run_outside hout fs hfs ht]
  | s, t, s', t', e :: es, fs, hview, hsame, hs, ht => by
    obtain ⟨m, hm, hr⟩ := run_cons_eq_some.1 hs
    cases he : inside e with
    | false =>
      rw [List.filter_cons_of_neg (by simp [he])] at hsame
      exact run_agree hout hin es fs ((hout s e m he hm).trans hview) hsame hr ht
    | true =>
      rw [List.filter_cons_of_pos he] at hsame
      obtain ⟨fs₁, fs₂, rfl, hfs₁, -, hfs₂⟩ := List.filter_eq_cons_iff.1 hsame.symm
      obtain ⟨t₁, ht₁, ht₂⟩ := run_append_eq_some.1 ht
      obtain ⟨t₂, hstep, hrest⟩ := run_cons_eq_some.1 ht₂
      have hview₁ : view s = view t₁ := hview.trans
        (run_outside hout fs₁ (by simpa using hfs₁) ht₁).symm
      exact run_agree hout hin es fs₂ (hin s t₁ e m t₂ he hview₁ hm hstep) hfs₂.symm hr hrest

/-- After a run, either nothing happened inside, or what is inside is as the last event there left
it. -/
theorem run_last_inside (view : σ → τ)
    (hout : ∀ s e s', inside e = false → step s e = some s' → view s' = view s) {s s' : σ}
    {es : List ε} (h : run step s es = some s') :
    view s' = view s ∨ ∃ es₁ e es₂ m m', es = es₁ ++ e :: es₂ ∧ inside e = true ∧
    (∀ e ∈ es₂, inside e = false) ∧
      run step s es₁ = some m ∧ step m e = some m' ∧ view s' = view m' := by
  induction es using List.reverseRecOn generalizing s' with
  | nil =>
    cases h
    exact Or.inl rfl
  | append_singleton es e ih =>
    obtain ⟨m, hm, he⟩ := run_append_eq_some.1 h
    rw [run_singleton] at he
    cases hin : inside e with
    | true => exact Or.inr ⟨es, e, [], m, s', rfl, hin, by simp, hm, he, rfl⟩
    | false =>
      have hview := hout m e s' hin he
      rcases ih hm with hnone | ⟨es₁, e₀, es₂, n, n', rfl, hin₀, hes₂, hn, hstep, hlast⟩
      · exact Or.inl (hview.trans hnone)
      · refine Or.inr ⟨es₁, e₀, es₂ ++ [e], n, n', by simp, hin₀, ?_, hn, hstep, hview.trans hlast⟩
        exact List.forall_mem_append.2 ⟨hes₂, by simpa using hin⟩

end parts

end Machine
