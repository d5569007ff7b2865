import Atasks.Lib.Attempt
/-!
# A program logic for attempts

`Meets G P p Q R`: from a log in `P` the piece `p` logs only what the guard `G` allows after
all that has been logged by then, and leaves a log in `Q` if it returns and in `R` if it
raises. There is one rule for each way of putting pieces together, and one for weakening;
`Meets.each` is the loop rule, its invariant indexed by the items done.
-/

variable {ε α : Type*}

namespace Attempt

/-- Each event of `evs` is allowed after `s` and those before it. -/
def Guarded (G : List ε → ε → Prop) (s evs : List ε) : Prop :=
  ∀ pre e post, evs = pre ++ e :: post → G (s ++ pre) e

variable {G : List ε → ε → Prop} {s evs evs' : List ε}

theorem guarded_nil (s : List ε) : Guarded G s [] := by
  intro pre e post h
  simp at h

theorem guarded_cons_iff {e : ε} : Guarded G s (e :: evs) ↔ G s e ∧ Guarded G (s ++ [e]) evs := by
  constructor
  · intro h
    refine ⟨by simpa using h [] e evs rfl, fun pre e' post heq => ?_⟩
    simpa using h (e :: pre) e' post (by rw [heq, List.cons_append])
  · rintro ⟨he, h⟩ pre e' post heq
    cases pre with
    | nil =>
      obtain ⟨rfl, -⟩ := List.cons_eq_cons.1 heq
      simpa using he
    | cons a pre =>
      obtain ⟨rfl, rfl⟩ := List.cons_eq_cons.1 heq
      simpa using h pre e' post rfl

theorem guarded_singleton {e : ε} (h : G s e) : Guarded G s [e] :=
  guarded_cons_iff.2 ⟨h, guarded_nil _⟩

theorem Guarded.append (h : Guarded G s evs) (h' : Guarded G (s ++ evs) evs') :
    Guarded G s (evs ++ evs') := by
  induction evs generalizing s with
  | nil => simpa using h'
  | cons e evs ih =>
    obtain ⟨he, h⟩ := guarded_cons_iff.1 h
    exact guarded_cons_iff.2 ⟨he, ih h (by simpa using h')⟩

def Meets (G : List ε → ε → Prop) (P : List ε → Prop) (p : Attempt ε) (Q R : List ε → Prop) :
    Prop :=
  ∀ s, P s → ∃ evs ok, Emits p s evs ok ∧ Guarded G s evs ∧ if ok then Q (s ++ evs)
    else R (s ++ evs)

variable {P P' Q Q' R R' S : List ε → Prop} {p q : Attempt ε}

theorem Meets.mono (h : Meets G P p Q R) (hP : ∀ s, P' s → P s) (hQ : ∀ s, Q s → Q' s)
    (hR : ∀ s, R s → R' s) :
    Meets G P' p Q' R' := by
  intro s hs
  obtain ⟨evs, ok, hem, hg, hpost⟩ := h s (hP s hs)
  refine ⟨evs, ok, hem, hg, ?_⟩
  cases ok with
  | true => exact hQ _ hpost
  | false => exact hR _ hpost

/-- From each of several preconditions. -/
theorem Meets.exists {ι : Type*} {P : ι → List ε → Prop} (h : ∀ i, Meets G (P i) p Q R) :
    Meets G (fun s => ∃ i, P i s) p Q R := by
  rintro s ⟨i, hs⟩
  exact h i s hs

theorem meets_skip : Meets G P skip P R := by
  intro s hs
  exact ⟨[], true, emits_skip s, guarded_nil s, by simpa using hs⟩

theorem meets_check (hR : ∀ s, P s → R s) (ok : Bool) : Meets G P (check ok) P R := by
  intro s hs
  refine ⟨[], ok, emits_check s ok, guarded_nil s, ?_⟩
  rw [List.append_nil]
  cases ok with
  | true => exact hs
  | false => exact hR s hs

theorem meets_emit {evs : List ε} (hg : ∀ s, P s → Guarded G s evs) (hQ : ∀ s, P s → Q (s ++ evs)) :
    Meets G P (emit evs) Q R := by
  intro s hs
  exact ⟨evs, true, emits_emit s evs, hg s hs, hQ s hs⟩

theorem Meets.seq (hp : Meets G P p Q R) (hq : Meets G Q q S R) : Meets G P (seq p q) S R := by
  intro s hs
  obtain ⟨evs, ok, hem, hg, hpost⟩ := hp s hs
  cases ok with
  | false => exact ⟨evs, false, hem.seq_raise q, hg, hpost⟩
  | true =>
    obtain ⟨evs', ok', hem', hg', hpost'⟩ := hq (s ++ evs) hpost
    refine ⟨evs ++ evs', ok', hem.seq hem', hg.append hg', ?_⟩
    rwa [← List.append_assoc]

/-- The cleanup starts from where the body returned or raised, and ends in `R` after a raise
however it ends itself. -/
theorem Meets.ensure {B : List ε → Prop} (hp : Meets G P p Q B) (hq : Meets G Q q S R)
    (hb : Meets G B q R R) :
    Meets G P (ensure p q) S R := by
  intro s hs
  obtain ⟨evs, ok, hem, hg, hpost⟩ := hp s hs
  cases ok with
  | true =>
    obtain ⟨evs', ok', hem', hg', hpost'⟩ := hq (s ++ evs) hpost
    refine ⟨evs ++ evs', true && ok', hem.ensure hem', hg.append hg', ?_⟩
    rwa [← List.append_assoc, Bool.true_and]
  | false =>
    obtain ⟨evs', ok', hem', hg', hpost'⟩ := hb (s ++ evs) hpost
    refine ⟨evs ++ evs', false && ok', hem.ensure hem', hg.append hg', ?_⟩
    rw [← List.append_assoc]
    rw [ite_self] at hpost'
    simpa using hpost'

theorem Meets.each {f : α → Attempt ε} {I : List α → List ε → Prop} {l : List α}
    (hf : ∀ pre a post, l = pre ++ a :: post → Meets G (I pre) (f a) (I (pre ++ [a])) R) :
    Meets G (I []) (Attempt.each f l) (I l) R := by
  -- the loop over what is left, the items before it done
  have hloop : ∀ post pre, l = pre ++ post → Meets G (I pre) (Attempt.each f post) (I l) R := by
    intro post
    induction post with
    | nil =>
      rintro pre rfl
      rw [List.append_nil]
      exact meets_skip
    | cons a post ih =>
      intro pre hl
      exact (hf pre a post hl).seq (ih (pre ++ [a]) (by simpa using hl))
  exact hloop l [] rfl

end Attempt
