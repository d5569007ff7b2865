import Mathlib.Logic.Relation
import Mathlib.Order.WellFounded
/-!
# Waiting that cannot go round in circles

A relation `r a b`, read "`a` waits for `b`", over any type, with a rank that is less for the
one waited for. Then nothing waits for itself through others (`acyclic_of_rank`), and every
chain of waits comes to an end (`exists_end_of_rank`).
-/

namespace Waits

variable {α : Type*} {r : α → α → Prop} {rank : α → ℕ}

theorem rank_lt_of_transGen (hrank : ∀ a b, r a b → rank b < rank a) {a b : α}
    (h : Relation.TransGen r a b) :
    rank b < rank a := by
  induction h with
  | single hab => exact hrank _ _ hab
  | tail _ hbc ih => exact (hrank _ _ hbc).trans ih

theorem acyclic_of_rank (hrank : ∀ a b, r a b → rank b < rank a) (a : α) :
    ¬ Relation.TransGen r a a := by
  intro h
  exact lt_irrefl _ (rank_lt_of_transGen hrank h)

/-- From anything, the waits lead to something that waits for nothing. -/
theorem exists_end_of_rank (hrank : ∀ a b, r a b → rank b < rank a) (a : α) :
    ∃ b, Relation.ReflTransGen r a b ∧ ∀ c, ¬ r b c := by
  induction h : rank a using Nat.strong_induction_on generalizing a with
  | _ n ih =>
    by_cases hend : ∀ c, ¬ r a c
    · exact ⟨a, .refl, hend⟩
    · obtain ⟨c, hc⟩ : ∃ c, r a c := by
        simpa using hend
      have hlt : rank c < n := h ▸ hrank a c hc
      obtain ⟨b, hb, hbend⟩ := ih (rank c) hlt c rfl
      exact ⟨b, .head hc hb, hbend⟩

end Waits
