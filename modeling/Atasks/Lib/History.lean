import Mathlib.Data.List.Basic
/-!
# What a history leaves

A history is a list of events, the oldest first; some of them give a value and some clear
what was given. Two readings: what was given last (`Latest`), and what was given first and
has kept later ones out (`Earliest`). Each is declared over the whole history and comes with
the rule that says what one more event does to it, so that a fold over the history is shown to
compute it by induction.
-/

variable {ε ν : Type*} {gives : ε → Option ν} {clears : ε → Prop} {l : List ε} {e : ε} {v : ν}

/-- An event of a history is its last one or comes before it. -/
theorem split_concat {e' : ε} {pre post : List ε} (h : l ++ [e] = pre ++ e' :: post) :
    (pre = l ∧ e' = e ∧ post = []) ∨ ∃ post', post = post' ++ [e] ∧ l = pre ++ e' :: post' := by
  rcases List.eq_nil_or_concat post with rfl | ⟨post', e₂, rfl⟩
  · obtain ⟨hl, he⟩ := List.append_inj' h rfl
    exact Or.inl ⟨hl.symm, (List.singleton_inj.1 he).symm, rfl⟩
  · rw [List.concat_eq_append, ← List.cons_append, ← List.append_assoc] at h
    obtain ⟨hl, he⟩ := List.append_inj' h rfl
    obtain rfl := List.singleton_inj.1 he
    exact Or.inr ⟨post', List.concat_eq_append, hl⟩

/-- Given by the last event that gives anything, and not cleared since. -/
def Latest (gives : ε → Option ν) (clears : ε → Prop) (l : List ε) (v : ν) : Prop :=
  ∃ pre e post, l = pre ++ e :: post ∧ gives e = some v ∧ ∀ e' ∈ post, gives e' = none ∧ ¬ clears e'

theorem not_latest_nil : ¬ Latest gives clears [] v := by
  rintro ⟨pre, e, post, h, -⟩
  simp at h

theorem latest_concat_iff : Latest gives clears (l ++ [e]) v ↔
    gives e = some v ∨ gives e = none ∧ ¬ clears e ∧ Latest gives clears l v := by
  constructor
  · rintro ⟨pre, e₁, post, heq, hv, hpost⟩
    rcases split_concat heq with ⟨-, rfl, -⟩ | ⟨post', rfl, rfl⟩
    · exact Or.inl hv
    · obtain ⟨hn, hc⟩ := hpost e (by simp)
      exact Or.inr ⟨hn, hc, pre, e₁, post', rfl, hv, fun e' he' => hpost e' (by simp [he'])⟩
  · rintro (hv | ⟨hn, hc, pre, e₁, post, rfl, hv, hpost⟩)
    · exact ⟨l, e, [], rfl, hv, by simp⟩
    · refine ⟨pre, e₁, post ++ [e], by simp, hv, fun e' he' => ?_⟩
      rcases List.mem_append.1 he' with he' | he'
      · exact hpost e' he'
      · obtain rfl := List.mem_singleton.1 he'
        exact ⟨hn, hc⟩

theorem latest_cons_iff : Latest gives clears (e :: l) v ↔
    Latest gives clears l v ∨ gives e = some v ∧ ∀ e' ∈ l, gives e' = none ∧ ¬ clears e' := by
  constructor
  · rintro ⟨pre, e₁, post, heq, hv, hpost⟩
    rcases List.cons_eq_append_iff.1 heq with ⟨rfl, hcons⟩ | ⟨pre', rfl, rfl⟩
    · obtain ⟨rfl, rfl⟩ := List.cons_eq_cons.1 hcons
      exact Or.inr ⟨hv, hpost⟩
    · exact Or.inl ⟨pre', e₁, post, rfl, hv, hpost⟩
  · rintro (⟨pre, e₁, post, rfl, hv, hpost⟩ | ⟨hv, hl⟩)
    · exact ⟨e :: pre, e₁, post, rfl, hv, hpost⟩
    · exact ⟨[], e, l, rfl, hv, hl⟩

/-- Only what the events give and clear counts. -/
theorem latest_congr {ε' : Type*} {gives' : ε' → Option ν} {clears' : ε' → Prop} {l' : List ε'}
    (h : List.Forall₂ (fun e e' => gives e = gives' e' ∧ (clears e ↔ clears' e')) l l') :
    Latest gives clears l v ↔ Latest gives' clears' l' v := by
  have hall : ∀ {l : List ε} {l' : List ε'},
      List.Forall₂ (fun e e' => gives e = gives' e' ∧ (clears e ↔ clears' e')) l l' →
      ((∀ e ∈ l, gives e = none ∧ ¬ clears e) ↔ ∀ e ∈ l', gives' e = none ∧ ¬ clears' e) := by
    intro l l' h
    induction h with
    | nil => simp
    | cons he _ ih => rw [List.forall_mem_cons, List.forall_mem_cons, he.1, he.2, ih]
  induction h with
  | nil => exact iff_of_false not_latest_nil not_latest_nil
  | cons he hl ih =>
    rw [latest_cons_iff, latest_cons_iff, he.1]
    exact or_congr ih (and_congr_right fun _ => hall hl)

/-- Given by an event whose predecessors have given nothing that was not cleared before it, and
not cleared since. -/
def Earliest (gives : ε → Option ν) (clears : ε → Prop) (l : List ε) (v : ν) : Prop :=
  ∃ pre e post, l = pre ++ e :: post ∧ gives e = some v ∧ (∀ e' ∈ post, ¬ clears e') ∧
    ∀ pre' e' post', pre = pre' ++ e' :: post' → gives e' ≠ none → ∃ c ∈ post', clears c

theorem not_earliest_nil : ¬ Earliest gives clears [] v := by
  rintro ⟨pre, e, post, h, -⟩
  simp at h

/-- With nothing cleared, the first that gives anything. -/
theorem earliest_iff_findSome? (h : ∀ e ∈ l, ¬ clears e) :
    Earliest gives clears l v ↔ l.findSome? gives = some v := by
  rw [List.findSome?_eq_some_iff]
  constructor
  · rintro ⟨pre, e, post, rfl, hv, -, hfirst⟩
    refine ⟨pre, e, post, rfl, hv, fun e' he' => ?_⟩
    obtain ⟨pre', post', rfl⟩ := List.append_of_mem he'
    by_contra hgives
    obtain ⟨c, hc, hclears⟩ := hfirst pre' e' post' rfl hgives
    exact h c (by simp [hc]) hclears
  · rintro ⟨pre, e, post, rfl, hv, hnone⟩
    refine ⟨pre, e, post, rfl, hv, fun e' he' => h e' (by simp [he']), fun pre' e' post' heq he' =>
      ?_⟩
    exact absurd (hnone e' (heq ▸ by simp)) he'

/-- Something is left exactly if something has been given and not been cleared since. -/
theorem exists_earliest_iff (hdisj : ∀ e, clears e → gives e = none) :
    (∃ v, Earliest gives clears l v) ↔
      ∃ pre e post, l = pre ++ e :: post ∧ gives e ≠ none ∧ ∀ e' ∈ post, ¬ clears e' := by
  constructor
  · rintro ⟨v, pre, e, post, heq, hv, hpost, -⟩
    exact ⟨pre, e, post, heq, by simp [hv], hpost⟩
  · rintro ⟨pre, e, post, heq, he, hpost⟩
    -- down to the first such event
    induction hn : pre.length using Nat.strongRecOn generalizing pre e post with
    | _ n ih =>
      by_cases hfirst : ∀ pre' e' post', pre = pre' ++ e' :: post' → gives e' ≠ none →
        ∃ c ∈ post', clears c
      · obtain ⟨v, hv⟩ := Option.ne_none_iff_exists'.1 he
        exact ⟨v, pre, e, post, heq, hv, hpost, hfirst⟩
      · push Not at hfirst
        obtain ⟨pre', e', post', rfl, he', hpost'⟩ := hfirst
        refine ih pre'.length ?_ pre' e' (post' ++ e :: post) (by simp [heq]) he' ?_ rfl
        · simp only [List.length_append, List.length_cons] at hn
          omega
        · intro c hc
          rcases List.mem_append.1 hc with hc | hc
          · exact hpost' c hc
          · rcases List.mem_cons.1 hc with rfl | hc
            · exact fun h => he (hdisj c h)
            · exact hpost c hc

theorem earliest_concat_iff (hdisj : ∀ e, clears e → gives e = none) :
    Earliest gives clears (l ++ [e]) v ↔
      ¬ clears e ∧ (Earliest gives clears l v ∨
        gives e = some v ∧ ∀ v', ¬ Earliest gives clears l v') := by
  constructor
  · rintro ⟨pre, e₁, post, heq, hv, hpost, hfirst⟩
    rcases split_concat heq with ⟨rfl, rfl, -⟩ | ⟨post', rfl, rfl⟩
    · refine ⟨fun hc => by simp [hdisj e₁ hc] at hv, Or.inr ⟨hv, fun v' hl => ?_⟩⟩
      obtain ⟨pre', e', post', rfl, he', hpost'⟩ := (exists_earliest_iff hdisj).1 ⟨v', hl⟩
      obtain ⟨c, hc, hclears⟩ := hfirst pre' e' post' rfl he'
      exact hpost' c hc hclears
    · exact ⟨hpost e (by simp), Or.inl ⟨pre, e₁, post', rfl, hv, fun e' he' =>
        hpost e' (by simp [he']), hfirst⟩⟩
  · rintro ⟨hc, ⟨pre, e₁, post, rfl, hv, hpost, hfirst⟩ | ⟨hv, hnone⟩⟩
    · refine ⟨pre, e₁, post ++ [e], by simp, hv, fun e' he' => ?_, hfirst⟩
      rcases List.mem_append.1 he' with he' | he'
      · exact hpost e' he'
      · obtain rfl := List.mem_singleton.1 he'
        exact hc
    · refine ⟨l, e, [], rfl, hv, by simp, fun pre' e' post' heq he' => ?_⟩
      by_contra hall
      push Not at hall
      obtain ⟨v', hl⟩ := (exists_earliest_iff hdisj).2 ⟨pre', e', post', heq, he', hall⟩
      exact hnone v' hl
