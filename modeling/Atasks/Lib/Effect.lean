/-!
# Effects: computations that may raise and keep their state when they do

`EStateM ε σ α` runs from a state to a value or to a raised `ε`, and to the state it leaves
in either case. `Decides P x c Q E` is total correctness with the outcome settled: from a
state in `P` the computation `x` completes in `Q` exactly if the condition `c` holds, and
otherwise raises into `E`. The rules follow the program text: one per statement, and `bind`
conjoins the conditions.
-/

namespace Effect

variable {ε σ α β : Type}

/-- A statement that completes: the rest runs in the state it leaves. -/
theorem bind_of_ok {x : EStateM ε σ α} {f : α → EStateM ε σ β} {s s' : σ} {a : α}
    (h : x s = .ok a s') :
    (x >>= f) s = f a s' := by
  show EStateM.bind x f s = f a s'
  rw [EStateM.bind, h]

/-- A statement that raises: the rest does not run. -/
theorem bind_of_error {x : EStateM ε σ α} {f : α → EStateM ε σ β} {s s' : σ} {e : ε}
    (h : x s = .error e s') :
    (x >>= f) s = .error e s' := by
  show EStateM.bind x f s = .error e s'
  rw [EStateM.bind, h]

def Decides (P : σ → Prop) (x : EStateM ε σ α) (c : Prop) (Q : α → σ → Prop) (E : ε → σ → Prop) :
    Prop :=
  ∀ s, P s → (c → ∃ a s', x s = .ok a s' ∧ Q a s') ∧ (¬c → ∃ e s', x s = .error e s' ∧ E e s')

variable {P P' : σ → Prop} {x : EStateM ε σ α} {c : Prop} {Q Q' : α → σ → Prop} {E : ε → σ → Prop}

theorem Decides.congr {d : Prop} (h : Decides P x c Q E) (hd : c ↔ d) : Decides P x d Q E :=
  fun s hs => ⟨fun hc => (h s hs).1 (hd.2 hc), fun hc => (h s hs).2 fun h' => hc (hd.1 h')⟩

theorem Decides.pure {a : α} (h : ∀ s, P s → Q a s) : Decides P (pure a : EStateM ε σ α) True Q E :=
  fun s hs => ⟨fun _ => ⟨a, s, rfl, h s hs⟩, fun hc => absurd trivial hc⟩

theorem Decides.modify {f : σ → σ} {Q : PUnit → σ → Prop} (h : ∀ s, P s → Q ⟨⟩ (f s)) :
    Decides P (modify f : EStateM ε σ PUnit) True Q E :=
  fun s hs => ⟨fun _ => ⟨⟨⟩, f s, rfl, h s hs⟩, fun hc => absurd trivial hc⟩

theorem Decides.bind {f : α → EStateM ε σ β} {d : Prop} {R : β → σ → Prop} (hx : Decides P x c Q E)
    (hf : ∀ a, Decides (Q a) (f a) d R E) : Decides P (x >>= f) (c ∧ d) R E := by
  intro s hs
  have hbind : (x >>= f) s = EStateM.bind x f s := rfl
  rw [hbind, EStateM.bind]
  by_cases hc : c
  · obtain ⟨a, m, hm, hq⟩ := (hx s hs).1 hc
    rw [hm]
    exact ⟨fun h => (hf a m hq).1 h.2, fun h => (hf a m hq).2 fun hd => h ⟨hc, hd⟩⟩
  · obtain ⟨e, m, hm, he⟩ := (hx s hs).2 hc
    rw [hm]
    exact ⟨fun h => absurd h.1 hc, fun _ => ⟨e, m, rfl, he⟩⟩

/-- After a statement that always completes, the rest decides. -/
theorem Decides.bind_true {f : α → EStateM ε σ β} {d : Prop} {R : β → σ → Prop}
    (hx : Decides P x True Q E) (hf : ∀ a, Decides (Q a) (f a) d R E) :
    Decides P (x >>= f) d R E := by
  intro s hs
  have h := (hx.bind hf) s hs
  exact ⟨fun hd => h.1 ⟨trivial, hd⟩, fun hd => h.2 fun hc => hd hc.2⟩

theorem Decides.consequence (h : Decides P x c Q E) (hP : ∀ s, P' s → P s)
    (hQ : ∀ a s, Q a s → Q' a s) :
    Decides P' x c Q' E := by
  intro s hs
  refine ⟨fun hc => ?_, (h s (hP s hs)).2⟩
  obtain ⟨a, s', hx, hq⟩ := (h s (hP s hs)).1 hc
  exact ⟨a, s', hx, hQ a s' hq⟩

/-- What always completes raises into anything. -/
theorem Decides.total {E' : ε → σ → Prop} (h : Decides P x True Q E) : Decides P x True Q E' :=
  fun s hs => ⟨(h s hs).1, fun hc => absurd trivial hc⟩

theorem Decides.get {f : σ → EStateM ε σ α} (h : ∀ s, P s → Decides (· = s) (f s) c Q E) :
    Decides P (get >>= f : EStateM ε σ α) c Q E :=
  fun s hs => h s hs s rfl

/-- What follows a statement that raises does not run. -/
theorem Decides.bind_false {f : α → EStateM ε σ β} {R : β → σ → Prop} (h : Decides P x False Q E) :
    Decides P (x >>= f) False R E := by
  intro s hs
  obtain ⟨e, m, hm, he⟩ := (h s hs).2 id
  have hbind : (x >>= f) s = EStateM.bind x f s := rfl
  exact ⟨False.elim, fun _ => ⟨e, m, by rw [hbind, EStateM.bind, hm], he⟩⟩

/-- A fact that does not mention the state may be assumed. -/
theorem Decides.assuming {φ : Prop} (h : φ → Decides P x c Q E) :
    Decides (fun s => φ ∧ P s) x c Q E :=
  fun s hs => h hs.1 s hs.2

end Effect
