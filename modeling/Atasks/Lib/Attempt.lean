import Mathlib.Data.List.Nodup
/-!
# Attempts: code that logs what it does and may raise

Where only the order of a program's effects matters and how it is left, a piece of it is an
`Attempt`: from the log so far to the log after it, and whether it ran to its end. `seq` is
the semicolon, `ensure` is `try: … finally: …`, `each` a loop that an exception ends.

`Emits p s evs ok` says what a piece does in one go: it appends `evs` and returns if `ok`. The
rules below compose such facts along the program, one for each way of putting pieces together.
-/

variable {ε α : Type*}

abbrev Attempt (ε : Type*) := List ε → List ε × Bool

namespace Attempt

def skip : Attempt ε := fun s => (s, true)

/-- Raises unless `ok`. -/
def check (ok : Bool) : Attempt ε := fun s => (s, ok)

def emit (evs : List ε) : Attempt ε := fun s => (s ++ evs, true)

def seq (p q : Attempt ε) : Attempt ε := fun s =>
  match p s with
  | (s', true) => q s'
  | (s', false) => (s', false)

/-- The cleanup runs either way; what it raises replaces what the body raised. -/
def ensure (p cleanup : Attempt ε) : Attempt ε := fun s =>
  let r := p s
  let r' := cleanup r.1
  (r'.1, r.2 && r'.2)

def each (f : α → Attempt ε) : List α → Attempt ε
  | [] => skip
  | a :: l => seq (f a) (each f l)

/-- What a loop gets to: everything up to the first item that raises, and that one. -/
def untilRaise (ok : α → Bool) : List α → List α
  | [] => []
  | a :: l => if ok a then a :: untilRaise ok l else [a]

/-- An item is reached when none of those before it raises. -/
theorem mem_untilRaise {ok : α → Bool} {a : α} {l : List α} :
    a ∈ untilRaise ok l ↔ ∃ pre post, l = pre ++ a :: post ∧ ∀ b ∈ pre, ok b = true := by
  induction l with
  | nil => simp [untilRaise]
  | cons b l ih =>
    rw [untilRaise]
    constructor
    · intro h
      split at h
      · rename_i hb
        rcases List.mem_cons.1 h with rfl | h
        · exact ⟨[], l, rfl, by simp⟩
        · obtain ⟨pre, post, rfl, hpre⟩ := ih.1 h
          refine ⟨b :: pre, post, rfl, fun c hc => ?_⟩
          rcases List.mem_cons.1 hc with rfl | hc
          · exact hb
          · exact hpre c hc
      · obtain rfl := List.mem_singleton.1 h
        exact ⟨[], l, rfl, by simp⟩
    · rintro ⟨pre, post, heq, hpre⟩
      cases pre with
      | nil =>
        obtain ⟨rfl, -⟩ := List.cons_eq_cons.1 heq
        split <;> simp
      | cons c pre =>
        obtain ⟨rfl, rfl⟩ := List.cons_eq_cons.1 heq
        rw [if_pos (hpre b List.mem_cons_self)]
        exact List.mem_cons_of_mem _ (ih.2
          ⟨pre, post, rfl, fun d hd => hpre d (List.mem_cons_of_mem _ hd)⟩)

theorem mem_of_mem_untilRaise {ok : α → Bool} {a : α} {l : List α} (h : a ∈ untilRaise ok l) :
    a ∈ l := by
  obtain ⟨pre, post, rfl, -⟩ := mem_untilRaise.1 h
  simp

/-- Of items that do not repeat, all are reached when only the last one raises, if any. -/
theorem reached_iff {ok : α → Bool} {l : List α} (h : l.Nodup) :
    (∀ a ∈ l, a ∈ untilRaise ok l) ↔ ∀ pre a post, l = pre ++ a :: post → ∀ b ∈ pre,
    ok b = true := by
  constructor
  · rintro hall pre a post rfl
    obtain ⟨pre', post', heq, hpre'⟩ := mem_untilRaise.1 (hall a (by simp))
    obtain ⟨hnot, hnot'⟩ : a ∉ pre ∧ a ∉ post := by
      have := List.nodup_middle.1 h
      simpa using (List.nodup_cons.1 this).1
    obtain ⟨rfl, -, -⟩ := (List.append_cons_inj_of_notMem hnot hnot').1 heq
    exact hpre'
  · intro hpre a ha
    obtain ⟨pre, post, rfl⟩ := List.append_of_mem ha
    exact mem_untilRaise.2 ⟨pre, post, rfl, hpre pre a post rfl⟩

/-- Where a loop stops is determined. -/
theorem raise_unique {r : α → Bool} {pre pre' post post' : List α} {a b : α}
    (heq : pre ++ a :: post = pre' ++ b :: post') (hpre : ∀ c ∈ pre, r c = true) (ha : r a = false)
    (hpre' : ∀ c ∈ pre', r c = true) (hb : r b = false) :
    pre = pre' ∧ a = b := by
  have htake : ∀ (l l' : List α) (c : α), (∀ d ∈ l, r d = true) → r c = false →
      (l ++ c :: l').takeWhile r = l := by
    intro l l' c hl hc
    rw [List.takeWhile_append_of_pos hl, List.takeWhile_cons_of_neg (by simp [hc]), List.append_nil]
  obtain rfl : pre = pre' := by rw [← htake pre post a hpre ha, heq, htake pre' post' b hpre' hb]
  exact ⟨rfl, (List.cons_eq_cons.1 (List.append_cancel_left heq)).1⟩

/-- Items that do not raise, one after another from the first, lie before where the loop stops. -/
theorem before_raise {r : α → Bool} {pre pre' post post' : List α} {a b : α}
    (heq : pre ++ a :: post = pre' ++ b :: post') (ha : r a = false)
    (hpre : ∀ c ∈ pre' ++ [b], r c = true) :
    ∃ post'', pre = pre' ++ b :: post'' := by
  rw [List.append_cons pre'] at heq
  rcases List.append_eq_append_iff.1 heq with ⟨as, hpre', has⟩ | ⟨bs, rfl, -⟩
  · cases as with
    | nil => exact ⟨[], by simpa using hpre'.symm⟩
    | cons c as =>
      obtain ⟨rfl, -⟩ := List.cons_eq_cons.1 has
      exact absurd (hpre a (by simp [hpre'])) (by simp [ha])
  · exact ⟨bs, by simp⟩

/-- A loop that does not go through has an item at which it stops. -/
theorem exists_raise {ok : α → Bool} {l : List α} (h : l.all ok = false) :
    ∃ pre a post, l = pre ++ a :: post ∧ (∀ b ∈ pre, ok b = true) ∧ ok a = false := by
  induction l with
  | nil => simp at h
  | cons b l ih =>
    cases hb : ok b with
    | false => exact ⟨[], b, l, rfl, by simp, hb⟩
    | true =>
      obtain ⟨pre, a, post, rfl, hpre, ha⟩ := ih (by simpa [hb] using h)
      refine ⟨b :: pre, a, post, rfl, fun c hc => ?_, ha⟩
      rcases List.mem_cons.1 hc with rfl | hc
      · exact hb
      · exact hpre c hc

theorem untilRaise_of_all {ok : α → Bool} {l : List α} (h : l.all ok = true) :
    untilRaise ok l = l := by
  induction l with
  | nil => rfl
  | cons a l ih =>
    simp only [List.all_cons, Bool.and_eq_true] at h
    rw [untilRaise, if_pos h.1, ih h.2]

/-! ## What a piece does -/

/-- From log `s`, the piece appends `evs`, and returns if `ok`, else raises. -/
def Emits (p : Attempt ε) (s evs : List ε) (ok : Bool) : Prop := p s = (s ++ evs, ok)

variable {p q : Attempt ε} {s evs evs' : List ε} {ok ok' : Bool}

theorem emits_skip (s : List ε) : Emits skip s [] true := by
  simp [Emits, skip]

theorem emits_check (s : List ε) (ok : Bool) : Emits (check ok) s [] ok := by
  simp [Emits, check]

theorem emits_emit (s evs : List ε) : Emits (emit evs) s evs true := rfl

theorem Emits.seq (hp : Emits p s evs true) (hq : Emits q (s ++ evs) evs' ok) :
    Emits (seq p q) s (evs ++ evs') ok := by
  rw [Emits, Attempt.seq, hp]
  simpa [Emits] using hq

/-- An effect that is over when it raises. -/
theorem emits_emit_check (s evs : List ε) (ok : Bool) :
    Emits (seq (emit evs) (check ok)) s evs ok := by
  have h := (emits_emit s evs).seq (emits_check _ ok)
  rwa [List.append_nil] at h

theorem Emits.seq_raise (hp : Emits p s evs false) (q : Attempt ε) :
    Emits (Attempt.seq p q) s evs false := by
  rw [Emits, Attempt.seq, hp]

theorem Emits.ensure (hp : Emits p s evs ok) (hq : Emits q (s ++ evs) evs' ok') :
    Emits (ensure p q) s (evs ++ evs') (ok && ok') := by
  have hq' : q (s ++ evs) = (s ++ evs ++ evs', ok') := hq
  rw [Emits, Attempt.ensure, hp]
  dsimp only
  rw [hq', List.append_assoc]

/-- A loop whose body does the same from every log in `I`, which it keeps. -/
theorem emits_each {f : α → Attempt ε} {I : List ε → Prop} {ev : α → List ε} {ok : α → Bool}
    (hf : ∀ a s, I s → Emits (f a) s (ev a) (ok a)) (hI : ∀ a s, I s → I (s ++ ev a)) (l : List α) :
    ∀ s, I s → Emits (each f l) s ((untilRaise ok l).flatMap ev) (l.all ok) := by
  induction l with
  | nil => exact fun s _ => emits_skip s
  | cons a l ih =>
    intro s hs
    have ha := hf a s hs
    rw [each, untilRaise, List.all_cons]
    cases hok : ok a with
    | true =>
      rw [hok] at ha
      exact ha.seq (ih _ (hI a s hs))
    | false =>
      rw [hok] at ha
      simpa using ha.seq_raise (each f l)

end Attempt
