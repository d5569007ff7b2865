import Mathlib.Data.List.Basic
import Mathlib.Data.List.Nodup
/-!
# Insertion-ordered dictionaries

The dictionary of the modelled language: iteration follows the order in which keys were
first set, setting a present key keeps its place, `pop(k, None)` is total. The key list is
duplicate-free by construction, so a value is reached through exactly one key and nothing
below ever re-proves it.

Every operation is characterised through `get?` (`get?_set`, `get?_pop`, `get?_empty`) and
through `keys`; client proofs use these and never unfold the representation.
-/

/-- Key/value pairs in insertion order, no key twice. -/
structure Dict (κ ν : Type*) where
  items : List (κ × ν)
  nodup : (items.map Prod.fst).Nodup

namespace Dict

variable {κ ν : Type*} [DecidableEq κ]

def empty : Dict κ ν := ⟨[], by simp⟩

def get? (d : Dict κ ν) (k : κ) : Option ν := (d.items.find? fun p => p.1 = k).map Prod.snd

/-- `list(d.keys())`. -/
def keys (d : Dict κ ν) : List κ := d.items.map Prod.fst

/-- Point update of the pair list: a present key keeps its place, a new one goes last. -/
def setItems (k : κ) (v : ν) : List (κ × ν) → List (κ × ν)
  | [] => [(k, v)]
  | (k', v') :: rest => if k' = k then (k, v) :: rest else (k', v') :: setItems k v rest

omit [DecidableEq κ] in
@[ext] theorem ext {d d' : Dict κ ν} (h : d.items = d'.items) : d = d' := by
  cases d; cases d'; cases h; rfl

theorem mem_keys_setItems {k k' : κ} {v : ν} {l : List (κ × ν)} :
    k' ∈ (setItems k v l).map Prod.fst ↔ k' = k ∨ k' ∈ l.map Prod.fst := by
  induction l with
  | nil => simp [setItems]
  | cons p l ih =>
    obtain ⟨k₀, v₀⟩ := p
    by_cases h : k₀ = k
    · subst h; simp [setItems]
    · simp only [setItems, h, if_false, List.map_cons, List.mem_cons, ih]
      constructor
      · rintro (h' | h' | h') <;> simp [h']
      · rintro (h' | h' | h') <;> simp [h']

theorem nodup_setItems (k : κ) (v : ν) :
    ∀ {l : List (κ × ν)}, (l.map Prod.fst).Nodup → ((setItems k v l).map Prod.fst).Nodup
  | [], _ => by simp [setItems]
  | (k₀, v₀) :: l, h => by
    simp only [List.map_cons, List.nodup_cons] at h
    by_cases hk : k₀ = k
    · subst hk
      simpa [setItems] using h
    · simp only [setItems, hk, if_false, List.map_cons, List.nodup_cons]
      exact ⟨fun hm => (mem_keys_setItems.1 hm).elim hk h.1, nodup_setItems k v h.2⟩

/-- `d[k] = v`. -/
def set (d : Dict κ ν) (k : κ) (v : ν) : Dict κ ν :=
    ⟨setItems k v d.items, nodup_setItems k v d.nodup⟩

/-- `d.pop(k, None)`, the dictionary left behind. -/
def pop (d : Dict κ ν) (k : κ) : Dict κ ν :=
  ⟨d.items.filter fun p => p.1 ≠ k, d.nodup.sublist (List.filter_sublist.map _)⟩

/-! ## Lookups -/

@[simp] theorem get?_empty (k : κ) : (empty : Dict κ ν).get? k = none := rfl

omit [DecidableEq κ] in
@[simp] theorem keys_empty : (empty : Dict κ ν).keys = [] := rfl

theorem get?_set (d : Dict κ ν) (k k' : κ) (v : ν) :
    (d.set k v).get? k' = if k' = k then some v else d.get? k' := by
  obtain ⟨l, hl⟩ := d
  simp only [get?, set]
  clear hl
  induction l with
  | nil => by_cases h : k' = k <;> simp [setItems, h, eq_comm]
  | cons p l ih =>
    obtain ⟨k₀, v₀⟩ := p
    by_cases h : k₀ = k
    · subst h
      by_cases h' : k₀ = k'
      · simp [setItems, h']
      · have h'' : k' ≠ k₀ := fun e => h' e.symm
        simp [setItems, h', h'']
    · by_cases h' : k₀ = k'
      · subst h'; simp [setItems, h]
      · simp only [setItems, h, if_false, List.find?_cons, h', decide_false]
        simpa using ih

@[simp] theorem get?_set_self (d : Dict κ ν) (k : κ) (v : ν) : (d.set k v).get? k = some v := by
  simp [get?_set]

theorem get?_pop (d : Dict κ ν) (k k' : κ) :
    (d.pop k).get? k' = if k' = k then none else d.get? k' := by
  obtain ⟨l, hl⟩ := d
  simp only [get?, pop]
  clear hl
  induction l with
  | nil => simp
  | cons p l ih =>
    obtain ⟨k₀, v₀⟩ := p
    by_cases h : k₀ = k
    · subst h
      rw [List.filter_cons_of_neg (by simp), ih, List.find?_cons]
      by_cases h' : k' = k₀
      · simp [h']
      · have h'' : k₀ ≠ k' := fun e => h' e.symm
        simp [h', h'']
    · rw [List.filter_cons_of_pos (by simpa using h), List.find?_cons, List.find?_cons]
      by_cases h' : k₀ = k'
      · subst h'; simp [h]
      · simpa [h'] using ih

@[simp] theorem get?_pop_self (d : Dict κ ν) (k : κ) : (d.pop k).get? k = none := by
  simp [get?_pop]

theorem mem_keys_iff (d : Dict κ ν) (k : κ) : k ∈ d.keys ↔ (d.get? k).isSome := by
  simp only [keys, get?, Option.isSome_map, List.find?_isSome, List.mem_map, decide_eq_true_eq]

/-- The pairs iterated over are exactly the lookups that succeed. -/
theorem mem_items_iff (d : Dict κ ν) (k : κ) (v : ν) : (k, v) ∈ d.items ↔ d.get? k = some v := by
  constructor
  · intro h
    cases hf : d.items.find? fun p => p.1 = k with
    | none => exact absurd (List.find?_eq_none.1 hf (k, v) h) (by simp)
    | some p =>
      have hm := List.mem_of_find?_eq_some hf
      have hk : p.1 = k := by simpa using List.find?_some hf
      have : p = (k, v) := List.inj_on_of_nodup_map d.nodup hm h hk
      simp [get?, hf, this]
  · intro h
    simp only [get?, Option.map_eq_some_iff] at h
    obtain ⟨⟨k', v'⟩, hf, rfl⟩ := h
    have hk : k' = k := by simpa using List.find?_some hf
    exact hk ▸ List.mem_of_find?_eq_some hf

theorem keys_setItems (k : κ) (v : ν) (l : List (κ × ν)) :
    (setItems k v l).map Prod.fst = if k ∈ l.map Prod.fst then l.map Prod.fst
    else l.map Prod.fst ++ [k] := by
  induction l with
  | nil => rfl
  | cons p l ih =>
    obtain ⟨k₀, v₀⟩ := p
    by_cases h : k₀ = k
    · subst h
      simp [setItems]
    · simp only [setItems, h, if_false, List.map_cons, ih, List.mem_cons, Ne.symm h, false_or]
      split <;> simp

/-- A new key goes last. -/
theorem keys_set (d : Dict κ ν) (k : κ) (v : ν) :
    (d.set k v).keys = if k ∈ d.keys then d.keys else d.keys ++ [k] :=
  keys_setItems k v d.items

omit [DecidableEq κ] in
theorem nodup_keys (d : Dict κ ν) : d.keys.Nodup := d.nodup

/-! ## Tables nobody iterates over -/

/-- What a function into `Option` holds after a point update: the new entry, or an old one
under another key. -/
theorem lookup_update {f : κ → Option ν} {k k' : κ} {v d : ν}
    (h : Function.update f k (some v) k' = some d) :
    (k' = k ∧ d = v) ∨ (k' ≠ k ∧ f k' = some d) := by
  by_cases hk : k' = k
  · subst hk
    rw [Function.update_self] at h
    exact Or.inl ⟨rfl, (Option.some.inj h).symm⟩
  · rw [Function.update_of_ne hk] at h
    exact Or.inr ⟨hk, h⟩

end Dict
