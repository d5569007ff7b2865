import Mathlib.Data.List.Forall2
/-!
# Code that may raise

A computation that returns or raises is an `Except`. These are the rules by which a sequence
of such computations returns: each of them does, on what those before it returned.
-/

namespace Raising

universe u

variable {ε : Type*} {α β : Type u}

theorem bind_eq_ok_iff {x : Except ε α} {f : α → Except ε β} {b : β} :
    (x >>= f) = .ok b ↔ ∃ a, x = .ok a ∧ f a = .ok b := by
  cases x with
  | error e =>
    constructor
    · intro h
      cases h
    · rintro ⟨_, h, _⟩
      cases h
  | ok a =>
    constructor
    · intro h
      exact ⟨a, rfl, h⟩
    · rintro ⟨_, ha, hb⟩
      cases ha
      exact hb

theorem bind_eq_error_iff {x : Except ε α} {f : α → Except ε β} {e : ε} :
    (x >>= f) = .error e ↔ x = .error e ∨ ∃ a, x = .ok a ∧ f a = .error e := by
  cases x with
  | error e' =>
    constructor
    · intro h
      cases h
      exact Or.inl rfl
    · rintro (h | ⟨_, h, _⟩)
      · cases h
        rfl
      · cases h
  | ok a =>
    constructor
    · intro h
      exact Or.inr ⟨a, rfl, h⟩
    · rintro (h | ⟨_, ha, h⟩)
      · cases h
      · cases ha
        exact h

/-- A loop goes on from what its first turn left. -/
theorem foldlM_cons_eq_ok_iff {f : β → α → Except ε β} {a : α} {as : List α} {b b' : β} :
    (a :: as).foldlM f b = .ok b' ↔ ∃ m, f b a = .ok m ∧ as.foldlM f m = .ok b' := by
  rw [List.foldlM_cons, bind_eq_ok_iff]

theorem foldlM_cons_eq_error_iff {f : β → α → Except ε β} {a : α} {as : List α} {b : β} {e : ε} :
    (a :: as).foldlM f b = .error e ↔ f b a = .error e ∨ ∃ m,
    f b a = .ok m ∧ as.foldlM f m = .error e := by
  rw [List.foldlM_cons, bind_eq_error_iff]

/-- One result for each element. -/
theorem mapM_eq_ok_iff {f : α → Except ε β} {as : List α} {bs : List β} :
    as.mapM f = .ok bs ↔ List.Forall₂ (fun a b => f a = .ok b) as bs := by
  induction as generalizing bs with
  | nil =>
    rw [List.mapM_nil, List.forall₂_nil_left_iff]
    constructor
    · intro h
      cases h
      rfl
    · rintro rfl
      rfl
  | cons a as ih =>
    rw [List.mapM_cons, bind_eq_ok_iff]
    constructor
    · rintro ⟨b, hb, h⟩
      obtain ⟨bs', hbs, h⟩ := bind_eq_ok_iff.1 h
      cases h
      exact List.Forall₂.cons hb (ih.1 hbs)
    · intro h
      obtain ⟨b, bs', hb, hbs, rfl⟩ := List.forall₂_cons_left_iff.1 h
      exact ⟨b, hb, bind_eq_ok_iff.2 ⟨bs', ih.2 hbs, rfl⟩⟩

/-- A loop ends with what its first turn that raises has raised. -/
theorem foldlM_eq_error_iff {f : β → α → Except ε β} {as : List α} {b : β} {e : ε} :
    as.foldlM f b = .error e ↔
      ∃ pre a post b', as = pre ++ a :: post ∧ pre.foldlM f b = .ok b' ∧ f b' a = .error e := by
  induction as generalizing b with
  | nil =>
    constructor
    · intro h
      cases h
    · rintro ⟨pre, a, post, b', h, -⟩
      simp at h
  | cons a as ih =>
    rw [foldlM_cons_eq_error_iff]
    constructor
    · rintro (h | ⟨m, hm, h⟩)
      · exact ⟨[], a, as, b, rfl, rfl, h⟩
      · obtain ⟨pre, a', post, b', rfl, hpre, he⟩ := ih.1 h
        exact ⟨a :: pre, a', post, b', rfl, foldlM_cons_eq_ok_iff.2 ⟨m, hm, hpre⟩, he⟩
    · rintro ⟨pre, a', post, b', heq, hpre, he⟩
      cases pre with
      | nil =>
        obtain ⟨rfl, -⟩ := List.cons_eq_cons.1 heq
        cases hpre
        exact Or.inl he
      | cons a'' pre =>
        obtain ⟨rfl, rfl⟩ := List.cons_eq_cons.1 heq
        obtain ⟨m, hm, hpre⟩ := foldlM_cons_eq_ok_iff.1 hpre
        exact Or.inr ⟨m, hm, ih.2 ⟨pre, a', post, b', rfl, hpre, he⟩⟩

theorem mapM_eq_error_iff {f : α → Except ε β} {as : List α} {e : ε} :
    as.mapM f = .error e ↔ ∃ pre a post, as = pre ++ a :: post ∧ (∀ a' ∈ pre, ∃ b, f a' = .ok b) ∧
    f a = .error e := by
  induction as with
  | nil =>
    constructor
    · intro h
      cases h
    · rintro ⟨pre, a, post, h, -⟩
      simp at h
  | cons a as ih =>
    rw [List.mapM_cons, bind_eq_error_iff]
    constructor
    · rintro (h | ⟨b, hb, h⟩)
      · exact ⟨[], a, as, rfl, by simp, h⟩
      · rcases bind_eq_error_iff.1 h with h | ⟨bs, -, h⟩
        · obtain ⟨pre, a', post, rfl, hpre, he⟩ := ih.1 h
          exact ⟨a :: pre, a', post, rfl, List.forall_mem_cons.2 ⟨⟨b, hb⟩, hpre⟩, he⟩
        · cases h
    · rintro ⟨pre, a', post, heq, hpre, he⟩
      cases pre with
      | nil =>
        obtain ⟨rfl, -⟩ := List.cons_eq_cons.1 heq
        exact Or.inl he
      | cons a'' pre =>
        obtain ⟨rfl, rfl⟩ := List.cons_eq_cons.1 heq
        obtain ⟨⟨b, hb⟩, hpre⟩ := List.forall_mem_cons.1 hpre
        exact Or.inr ⟨b, hb, bind_eq_error_iff.2 (Or.inl (ih.2 ⟨pre, a', post, rfl, hpre, he⟩))⟩

/-- Two loops, the second over what the first one returned. -/
theorem forall₂_comp_iff {α β γ : Type*} {R : α → β → Prop} {S : β → γ → Prop} {as : List α}
    {cs : List γ} :
    List.Forall₂ (fun a c => ∃ b, R a b ∧ S b c) as cs ↔ ∃ bs, List.Forall₂ R as bs ∧
    List.Forall₂ S bs cs := by
  constructor
  · intro h
    induction h with
    | nil => exact ⟨[], List.Forall₂.nil, List.Forall₂.nil⟩
    | cons hac _ ih =>
      obtain ⟨b, hab, hbc⟩ := hac
      obtain ⟨bs, hR, hS⟩ := ih
      exact ⟨b :: bs, List.Forall₂.cons hab hR, List.Forall₂.cons hbc hS⟩
  · rintro ⟨bs, hR, hS⟩
    induction hR generalizing cs with
    | nil =>
      cases hS
      exact List.Forall₂.nil
    | cons hab _ ih =>
      cases hS with
      | cons hbc hS => exact List.Forall₂.cons ⟨_, hab, hbc⟩ (ih hS)

/-- What each step keeps, the loop keeps. -/
theorem map_eq_of_forall₂ {α β γ : Type*} {R : α → β → Prop} {f : α → γ} {g : β → γ}
    (hfg : ∀ a b, R a b → f a = g b) {as : List α} {bs : List β} (h : List.Forall₂ R as bs) :
    as.map f = bs.map g := by
  induction h with
  | nil => rfl
  | cons hab _ ih => rw [List.map_cons, List.map_cons, hfg _ _ hab, ih]

/-- Two loops over one list relate what they return, item by item, as far as each item has it. -/
theorem forall₂_iff_forall {α β γ : Type*} {R : α → β → Prop} {P : α → Prop} {Q : γ → α → Prop}
    {S : γ → β → Prop} (hiff : ∀ c a b, Q c a → S c b → (R a b ↔ P a)) {as : List α} {bs : List β}
    {cs : List γ} (hQ : List.Forall₂ Q cs as) (hS : List.Forall₂ S cs bs) :
    List.Forall₂ R as bs ↔ ∀ a ∈ as, P a := by
  induction hQ generalizing bs with
  | nil =>
    cases hS
    simp
  | cons hhead _ ih =>
    cases hS with
    | cons hhead' hS => rw [List.forall₂_cons, List.forall_mem_cons, hiff _ _ _ hhead hhead', ih hS]

end Raising
