import Mathlib.Data.List.Count
import Mathlib.Data.List.Nodup
/-!
# Signatures: which calls a parameter list accepts

The calling convention of the modelled language. A call has some positional arguments and
some keywords, each keyword written out at the call or unpacked from a mapping; whether they
fit a parameter list depends on their number and names only. The checks come in the
language's order: keywords given twice, then keyword by keyword, then too many positional
arguments, then parameters left without a value.
-/

structure Signature where
  /-- Parameters that take a positional argument or a keyword. -/
  positional : List String
  /-- `*args`. -/
  varArgs : Bool
  keywordOnly : List String
  /-- Parameters with a default. -/
  defaults : List String
  /-- `**kwargs`. -/
  varKeywords : Bool
deriving Repr

namespace Signature

inductive BindError
  | multipleKeyword (keyword : String)
  | multipleValues (parameter : String)
  | unexpectedKeyword (keyword : String)
  | tooManyPositional
  | missing (parameter : String)
deriving DecidableEq, Repr

/-- One keyword of a call with `n` positional arguments. -/
def keywordError (sig : Signature) (n : Nat) (k : String) : Option BindError :=
  if k ∈ sig.positional.take n then some (.multipleValues k)
  else if k ∈ sig.positional ∨ k ∈ sig.keywordOnly ∨ sig.varKeywords = true then none
  else some (.unexpectedKeyword k)

/-- Parameters a call with `n` positional arguments has to give by keyword, unless they have a
default. -/
def unfilled (sig : Signature) (n : Nat) : List String := sig.positional.drop n ++ sig.keywordOnly

def bindError (sig : Signature) (n : Nat) (keywords : List String) : Option BindError :=
  match keywords.find? fun k => 1 < keywords.count k with
  | some k => some (.multipleKeyword k)
  | none =>
    match keywords.findSome? (sig.keywordError n) with
    | some e => some e
    | none =>
      if sig.varArgs = false ∧ sig.positional.length < n then some .tooManyPositional
      else ((sig.unfilled n).find? fun p => p ∉ keywords ∧ p ∉ sig.defaults).map .missing

theorem nodup_iff_find?_count {l : List String} :
    (l.find? fun k => 1 < l.count k) = none ↔ l.Nodup := by
  rw [List.find?_eq_none, List.nodup_iff_count_le_one]
  constructor
  · intro h k
    by_cases hk : k ∈ l
    · simpa using h k hk
    · rw [List.count_eq_zero_of_not_mem hk]; exact Nat.zero_le _
  · intro h k _
    simpa using h k

/-- The calls a parameter list accepts. -/
theorem bindError_eq_none_iff {sig : Signature} {n : Nat} {keywords : List String} :
    sig.bindError n keywords = none ↔
      keywords.Nodup ∧ (∀ k ∈ keywords, sig.keywordError n k = none) ∧
        (sig.varArgs = true ∨ n ≤ sig.positional.length) ∧
        ∀ p ∈ sig.unfilled n, p ∈ keywords ∨ p ∈ sig.defaults := by
  unfold bindError
  cases hdup : keywords.find? fun k => 1 < keywords.count k with
  | some k =>
    refine iff_of_false (by simp) fun h => ?_
    rw [nodup_iff_find?_count.2 h.1] at hdup
    cases hdup
  | none =>
    rw [nodup_iff_find?_count] at hdup
    cases hkey : keywords.findSome? (sig.keywordError n) with
    | some e =>
      refine iff_of_false (by simp) fun h => ?_
      rw [List.findSome?_eq_none_iff.2 h.2.1] at hkey
      cases hkey
    | none =>
      rw [List.findSome?_eq_none_iff] at hkey
      simp only [hdup, true_and]
      split
      · rename_i hmany
        refine iff_of_false (by simp) fun h => ?_
        rcases h.2.1 with hvar | hle
        · rw [hmany.1] at hvar; cases hvar
        · exact absurd hle (Nat.not_le.2 hmany.2)
      · rename_i hfew
        have hroom : sig.varArgs = true ∨ n ≤ sig.positional.length := by
          rcases hvar : sig.varArgs with _ | _
          · exact Or.inr (Nat.not_lt.1 fun hlt => hfew ⟨hvar, hlt⟩)
          · exact Or.inl rfl
        rw [Option.map_eq_none_iff, List.find?_eq_none]
        constructor
        · intro h
          refine ⟨hkey, hroom, fun p hp => ?_⟩
          by_contra hnot
          rw [not_or] at hnot
          exact h p hp (by simpa using hnot)
        · rintro ⟨-, -, h⟩ p hp hc
          simp only [decide_eq_true_eq] at hc
          exact (h p hp).elim hc.1 hc.2

/-- A call that fills the positional parameters, writes the keywords `given` and forwards
arbitrary arguments and keywords is accepted if none of the latter names a parameter
already filled. -/
theorem bindError_forward {sig : Signature} {n : Nat} {given forwarded : List String}
    (hargs : sig.varArgs = true) (hkeywords : sig.varKeywords = true)
    (hn : sig.positional.length ≤ n) (hgiven : given.Nodup)
    (hpositional : ∀ k ∈ given, k ∉ sig.positional) (honly : ∀ p ∈ sig.keywordOnly, p ∈ given)
    (hforwarded : forwarded.Nodup) :
    sig.bindError n (given ++ forwarded) = none ↔ ∀ k ∈ forwarded, k ∉ sig.positional ∧
    k ∉ given := by
  have hkey : ∀ k, sig.keywordError n k = none ↔ k ∉ sig.positional := fun k => by
    simp [keywordError, List.take_of_length_le hn, hkeywords]
  have hunfilled : ∀ p ∈ sig.unfilled n, p ∈ given ++ forwarded ∨ p ∈ sig.defaults := fun p hp => by
    rw [unfilled, List.drop_eq_nil_of_le hn, List.nil_append] at hp
    exact Or.inl (List.mem_append_left _ (honly p hp))
  rw [bindError_eq_none_iff]
  simp only [hkey, hargs, true_or, true_and]
  constructor
  · rintro ⟨hnodup, hnames, -⟩ k hk
    refine ⟨hnames k (List.mem_append_right _ hk), fun hin => ?_⟩
    exact (List.nodup_append.1 hnodup).2.2 k hin k hk rfl
  · intro h
    refine ⟨List.nodup_append.2 ⟨hgiven, hforwarded, ?_⟩, fun k hk => ?_, hunfilled⟩
    · rintro k hk k' hk' rfl
      exact (h k hk').2 hk
    · rcases List.mem_append.1 hk with hk | hk
      · exact hpositional k hk
      · exact (h k hk).1

end Signature
