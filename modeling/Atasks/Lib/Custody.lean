import Atasks.Lib.Machine
import Mathlib.Data.List.Nodup
import Mathlib.Data.List.Perm.Basic
/-!
# Items that are handed out and given back

A store keeps items `κ` until somebody is done with them. A holder `δ` takes one item and
settles it; what a lost holder held goes back to where it was taken from; what nobody holds may
be discarded. Queues with acknowledgements, job leases and checked-out resources are such
stores.

* `Kept.place`: in every run an item that was stored is in exactly one of four places;
* `Kept.stored_of_taken`: nobody ever took what had not been stored;
* `before_run`: what is settled, given back or gone stays so;
* `Kept.taken_of_settled_run`: what is settled is not taken again;
* `count_returned_run`: an item comes back at most once for each time that holders were lost.
-/

set_option linter.unusedSectionVars false

namespace Custody

open Machine

variable {κ δ : Type*}

structure Store (κ δ : Type*) where
  ready : List κ
  held : List (δ × κ)
  settled : List (δ × κ)
  /-- Who has lost what they held, latest first. -/
  returned : List (δ × κ)
  gone : List κ
  /-- Everything ever stored. -/
  stored : List κ

inductive Event (κ δ : Type*)
  | store (items : List κ)
  | take (i : ℕ) (holder : δ)
  | settle (done : δ → Bool)
  | lose (lost : δ → Bool)
  | discard (doomed : κ → Bool)

def Event.loses : Event κ δ → Bool
  | .lose _ => true
  | _ => false

namespace Store

def empty : Store κ δ := ⟨[], [], [], [], [], []⟩

/-- The four places an item can be in. -/
def places (s : Store κ δ) : List κ := s.ready ++ s.held.map Prod.snd ++ s.settled.map Prod.snd ++
    s.gone

/-- Everyone who ever took something, with what they took. -/
def taken (s : Store κ δ) : List (δ × κ) := s.held ++ s.settled ++ s.returned

def store (s : Store κ δ) (items : List κ) : Store κ δ :=
    { s with ready := s.ready ++ items, stored := s.stored ++ items }

def settle (s : Store κ δ) (done : δ → Bool) : Store κ δ :=
  { s with
    held := s.held.filter fun x => !done x.1
    settled := s.held.filter (fun x => done x.1) ++ s.settled }

/-- What the lost ones held goes in front of what is ready. -/
def lose (s : Store κ δ) (lost : δ → Bool) : Store κ δ :=
  { s with
    ready := (s.held.filter fun x => lost x.1).map Prod.snd ++ s.ready
    held := s.held.filter fun x => !lost x.1
    returned := s.held.filter (fun x => lost x.1) ++ s.returned }

def discard (s : Store κ δ) (doomed : κ → Bool) : Store κ δ :=
  { s with ready := s.ready.filter fun k => !doomed k, gone := s.ready.filter doomed ++ s.gone }

variable [DecidableEq κ] [DecidableEq δ]

/-- The `i`-th ready item goes to a new holder. -/
def take (s : Store κ δ) (i : ℕ) (holder : δ) : Option (Store κ δ) :=
  match s.ready[i]? with
  | none => none
  | some k =>
    if holder ∈ s.taken.map Prod.fst then none
    else some { s with ready := s.ready.eraseIdx i, held := (holder, k) :: s.held }

def step (s : Store κ δ) : Event κ δ → Option (Store κ δ)
  | .store items => if (s.stored ++ items).Nodup then some (s.store items) else none
  | .take i holder => s.take i holder
  | .settle done => some (s.settle done)
  | .lose lost => some (s.lose lost)
  | .discard doomed => some (s.discard doomed)

/-! ## What every run keeps -/

/-- Nothing is lost, nothing is there twice, and nobody takes more than once. -/
structure Kept (s : Store κ δ) : Prop where
  conserved : s.places.Perm s.stored
  once : s.stored.Nodup
  holders : (s.taken.map Prod.fst).Nodup
  returned : ∀ x ∈ s.returned, x.2 ∈ s.stored

theorem take_eq_some {s s' : Store κ δ} {i : ℕ} {holder : δ} (h : s.take i holder = some s') :
    ∃ k, s.ready[i]? = some k ∧ holder ∉ s.taken.map Prod.fst ∧
      s' = { s with ready := s.ready.eraseIdx i, held := (holder, k) :: s.held } := by
  unfold take at h
  split at h
  · cases h
  · rename_i k hk
    split at h
    · cases h
    · rename_i hnew
      cases h
      exact ⟨k, hk, hnew, rfl⟩

theorem count_eraseIdx {l : List κ} {i : ℕ} {k : κ} (h : l[i]? = some k) (a : κ) :
    (k :: l.eraseIdx i).count a = l.count a := by
  obtain ⟨hi, rfl⟩ := List.getElem?_eq_some_iff.1 h
  exact (List.getElem_cons_eraseIdx_perm hi).count_eq a

/-- A list in two parts. -/
theorem count_filter_add {α β : Type*} [DecidableEq β] (l : List α) (p : α → Bool) (f : α → β)
    (a : β) :
    ((l.filter p).map f).count a + ((l.filter fun x => !p x).map f).count a =
      (l.map f).count a := by
  induction l with
  | nil => rfl
  | cons x l ih =>
    cases hp : p x with
    | true =>
      simp only [List.filter_cons, hp, Bool.not_true, if_true, Bool.false_eq_true, if_false,
        List.map_cons, List.count_cons]
      omega
    | false =>
      simp only [List.filter_cons, hp, Bool.not_false, if_true, Bool.false_eq_true, if_false,
        List.map_cons, List.count_cons]
      omega

theorem perm_holders_iff {s t : Store κ δ} : (s.taken.map Prod.fst).Perm (t.taken.map Prod.fst) ↔
    ∀ d, (s.held.map Prod.fst).count d + (s.settled.map Prod.fst).count d +
    (s.returned.map Prod.fst).count d =
      (t.held.map Prod.fst).count d + (t.settled.map Prod.fst).count d +
      (t.returned.map Prod.fst).count d := by
  simp [List.perm_iff_count, taken, Nat.add_assoc]

theorem perm_places_iff {s : Store κ δ} {l : List κ} : s.places.Perm l ↔
    ∀ k, s.ready.count k + (s.held.map Prod.snd).count k + (s.settled.map Prod.snd).count k +
    s.gone.count k = l.count k := by
  simp [List.perm_iff_count, places, Nat.add_assoc]

theorem kept_empty : (empty : Store κ δ).Kept := ⟨.refl _, List.nodup_nil, List.nodup_nil, nofun⟩

theorem mem_taken {s : Store κ δ} {x : δ × κ} :
    x ∈ s.taken ↔ x ∈ s.held ++ s.settled ∨ x ∈ s.returned :=
  List.mem_append

theorem Kept.stored_of_taken {s : Store κ δ} (h : s.Kept) {x : δ × κ} (hx : x ∈ s.taken) :
    x.2 ∈ s.stored := by
  rcases mem_taken.1 hx with hx | hx
  · refine h.conserved.mem_iff.1 ?_
    have hitem := List.mem_map_of_mem (f := Prod.snd) hx
    simp only [places, List.map_append, List.mem_append] at hitem ⊢
    tauto
  · exact h.returned x hx

/-- Moving what is held elsewhere moves no holder. -/
theorem Kept.of_perm {s s' : Store κ δ} (h : s.Kept) (hstored : s'.stored = s.stored)
    (hplaces : ∀ k, s'.ready.count k + (s'.held.map Prod.snd).count k +
      (s'.settled.map Prod.snd).count k + s'.gone.count k = s.ready.count k +
      (s.held.map Prod.snd).count k + (s.settled.map Prod.snd).count k + s.gone.count k)
    (hholders : (s'.taken.map Prod.fst).Perm (s.taken.map Prod.fst))
    (hreturned : ∀ x ∈ s'.returned, x ∈ s.taken) : s'.Kept := by
  refine ⟨?_, hstored ▸ h.once, hholders.nodup_iff.2 h.holders,
    fun x hx => hstored ▸ h.stored_of_taken (hreturned x hx)⟩
  rw [hstored]
  exact perm_places_iff.2 fun k => (hplaces k).trans (perm_places_iff.1 h.conserved k)

theorem Kept.store {s : Store κ δ} (h : s.Kept) {items : List κ}
    (hnew : (s.stored ++ items).Nodup) : (s.store items).Kept := by
  refine ⟨perm_places_iff.2 fun k => ?_, hnew, h.holders,
    fun x hx => List.mem_append_left _ (h.returned x hx)⟩
  have hk := perm_places_iff.1 h.conserved k
  simp only [Store.store, List.count_append]
  omega

theorem Kept.take {s s' : Store κ δ} (h : s.Kept) {i : ℕ} {holder : δ}
    (ht : s.take i holder = some s') : s'.Kept := by
  obtain ⟨k, hk, hnew, rfl⟩ := take_eq_some ht
  refine ⟨perm_places_iff.2 fun a => ?_, h.once, ?_, h.returned⟩
  · have ha := perm_places_iff.1 h.conserved a
    have hsplit := count_eraseIdx hk a
    simp only [List.map_cons, List.count_cons] at hsplit ⊢
    omega
  · simpa [taken] using ⟨by simpa [taken] using hnew, by simpa [taken] using h.holders⟩

theorem Kept.settle {s : Store κ δ} (h : s.Kept) (done : δ → Bool) : (s.settle done).Kept := by
  refine h.of_perm rfl (fun k => ?_) (perm_holders_iff.2 fun d => ?_)
    fun x hx => mem_taken.2 (Or.inr hx)
  · have hk := count_filter_add s.held (fun x => done x.1) Prod.snd k
    simp only [Store.settle, List.map_append, List.count_append]
    omega
  · have hd := count_filter_add s.held (fun x => done x.1) Prod.fst d
    simp only [Store.settle, List.map_append, List.count_append]
    omega

theorem Kept.lose {s : Store κ δ} (h : s.Kept) (lost : δ → Bool) : (s.lose lost).Kept := by
  refine h.of_perm rfl (fun k => ?_) (perm_holders_iff.2 fun d => ?_) fun x hx => ?_
  · have hk := count_filter_add s.held (fun x => lost x.1) Prod.snd k
    simp only [Store.lose, List.count_append]
    omega
  · have hd := count_filter_add s.held (fun x => lost x.1) Prod.fst d
    simp only [Store.lose, List.map_append, List.count_append]
    omega
  · rcases List.mem_append.1 hx with hx | hx
    · exact mem_taken.2 (Or.inl (List.mem_append_left _ (List.mem_filter.1 hx).1))
    · exact mem_taken.2 (Or.inr hx)

theorem Kept.discard {s : Store κ δ} (h : s.Kept) (doomed : κ → Bool) :
    (s.discard doomed).Kept := by
  refine h.of_perm rfl (fun k => ?_) (.refl _) fun x hx => mem_taken.2 (Or.inr hx)
  have hk := count_filter_add s.ready doomed id k
  simp only [List.map_id] at hk
  simp only [Store.discard, List.count_append]
  omega

theorem kept_step (s : Store κ δ) (e : Event κ δ) (s' : Store κ δ) (h : s.Kept)
    (hs : s.step e = some s') : s'.Kept := by
  cases e with
  | store items =>
    obtain ⟨hnew, hs⟩ := Option.ite_none_right_eq_some.1 hs
    cases hs
    exact h.store hnew
  | take i holder => exact h.take hs
  | settle done =>
    cases hs
    exact h.settle done
  | lose lost =>
    cases hs
    exact h.lose lost
  | discard doomed =>
    cases hs
    exact h.discard doomed

/-! ## What that says of one item -/

/-- Exactly one of the four places. -/
inductive Place (s : Store κ δ) (k : κ) : Prop
  | ready (h : k ∈ s.ready) (held : k ∉ s.held.map Prod.snd) (settled : k ∉ s.settled.map Prod.snd)
    (gone : k ∉ s.gone)
  | held (ready : k ∉ s.ready) (h : k ∈ s.held.map Prod.snd) (settled : k ∉ s.settled.map Prod.snd)
    (gone : k ∉ s.gone)
  | settled (ready : k ∉ s.ready) (held : k ∉ s.held.map Prod.snd) (h : k ∈ s.settled.map Prod.snd)
    (gone : k ∉ s.gone)
  | gone (ready : k ∉ s.ready) (held : k ∉ s.held.map Prod.snd)
    (settled : k ∉ s.settled.map Prod.snd) (h : k ∈ s.gone)

theorem Kept.place {s : Store κ δ} (h : s.Kept) {k : κ} (hk : k ∈ s.stored) : s.Place k := by
  have hsum := perm_places_iff.1 h.conserved k
  rw [List.nodup_iff_count_eq_one.1 h.once k hk] at hsum
  have hmem : ∀ {l : List κ}, l.count k = 0 → k ∉ l := fun h => List.count_eq_zero.1 h
  have hpos : ∀ {l : List κ}, l.count k = 1 → k ∈ l :=
    fun h => List.count_pos_iff.1 (h ▸ Nat.one_pos)
  by_cases hready : s.ready.count k = 1
  · exact .ready (hpos hready) (hmem (by omega)) (hmem (by omega)) (hmem (by omega))
  by_cases hheld : (s.held.map Prod.snd).count k = 1
  · exact .held (hmem (by omega)) (hpos hheld) (hmem (by omega)) (hmem (by omega))
  by_cases hsettled : (s.settled.map Prod.snd).count k = 1
  · exact .settled (hmem (by omega)) (hmem (by omega)) (hpos hsettled) (hmem (by omega))
  · exact .gone (hmem (by omega)) (hmem (by omega)) (hmem (by omega)) (hpos (by omega))

@[simp] theorem mem_taken_settle {s : Store κ δ} {done : δ → Bool} {x : δ × κ} :
    x ∈ (s.settle done).taken ↔ x ∈ s.taken := by
  by_cases hdone : done x.1 <;> simp [taken, settle, hdone]

@[simp] theorem mem_taken_lose {s : Store κ δ} {lost : δ → Bool} {x : δ × κ} :
    x ∈ (s.lose lost).taken ↔ x ∈ s.taken := by
  by_cases hlost : lost x.1
  · simp only [taken, lose, hlost, List.mem_append, List.mem_filter, Bool.not_true,
      Bool.false_eq_true, and_false, and_true]
    tauto
  · simp [taken, lose, hlost]

theorem mem_settled_settle {s : Store κ δ} {done : δ → Bool} {x : δ × κ} :
    x ∈ (s.settle done).settled ↔ x ∈ s.held ∧ done x.1 = true ∨ x ∈ s.settled := by
  simp [settle]

/-! ## What a run leaves as it is -/

/-- Later on, nothing of this has been taken back. -/
structure Before (s t : Store κ δ) : Prop where
  settled : s.settled ⊆ t.settled
  returned : s.returned ⊆ t.returned
  gone : s.gone ⊆ t.gone
  stored : s.stored ⊆ t.stored
  taken : s.taken ⊆ t.taken

theorem Before.refl (s : Store κ δ) : s.Before s :=
  ⟨List.Subset.refl _, List.Subset.refl _, List.Subset.refl _, List.Subset.refl _,
    List.Subset.refl _⟩

theorem Before.trans {s t u : Store κ δ} (h : s.Before t) (h' : t.Before u) : s.Before u :=
  ⟨List.Subset.trans h.settled h'.settled, List.Subset.trans h.returned h'.returned,
    List.Subset.trans h.gone h'.gone,
    List.Subset.trans h.stored h'.stored, List.Subset.trans h.taken h'.taken⟩

theorem before_step {s s' : Store κ δ} {e : Event κ δ} (h : s.step e = some s') : s.Before s' := by
  cases e with
  | store items =>
    obtain ⟨-, hs⟩ := Option.ite_none_right_eq_some.1 h
    cases hs
    exact { Before.refl s with stored := List.subset_append_left _ _ }
  | take i holder =>
    obtain ⟨k, -, -, rfl⟩ := take_eq_some h
    exact { Before.refl s with taken := List.subset_cons_self _ _ }
  | settle done =>
    cases h
    exact { Before.refl s with
      settled := List.subset_append_right _ _, taken := fun x hx => mem_taken_settle.2 hx }
  | lose lost =>
    cases h
    exact { Before.refl s with
      returned := List.subset_append_right _ _, taken := fun x hx => mem_taken_lose.2 hx }
  | discard doomed =>
    cases h
    exact { Before.refl s with gone := List.subset_append_right _ _ }

theorem before_run {s s' : Store κ δ} {es : List (Event κ δ)} (h : run step s es = some s') :
    s.Before s' := by
  have hstep : ∀ t e t', s.Before t → step t e = some t' → s.Before t' :=
    fun _ _ _ hb hs => hb.trans (before_step hs)
  exact run_invariant hstep es h (.refl s)

/-! ## An item that is settled -/

/-- Nobody takes it again. -/
theorem Kept.taken_of_settled {s s' : Store κ δ} {e : Event κ δ} (h : s.Kept)
    (hs : s.step e = some s') {d d' : δ} {k : κ} (hd : (d, k) ∈ s.settled) :
    (d', k) ∈ s'.taken ↔ (d', k) ∈ s.taken := by
  cases e with
  | store items =>
    obtain ⟨-, hs⟩ := Option.ite_none_right_eq_some.1 hs
    cases hs
    exact Iff.rfl
  | take i holder =>
    obtain ⟨k', hk', -, rfl⟩ := take_eq_some hs
    have hne : k' ≠ k := by
      rintro rfl
      have hready := List.mem_of_getElem? hk'
      have hsettled : k' ∈ s.settled.map Prod.snd := List.mem_map_of_mem hd
      cases h.place (h.stored_of_taken (mem_taken.2 (Or.inl (List.mem_append_right _ hd)))) with
      | ready _ _ hnot _ => exact hnot hsettled
      | held hnot _ _ _ => exact hnot hready
      | settled hnot _ _ _ => exact hnot hready
      | gone hnot _ _ _ => exact hnot hready
    simp [taken, hne.symm]
  | settle done =>
    cases hs
    exact mem_taken_settle
  | lose lost =>
    cases hs
    exact mem_taken_lose
  | discard doomed =>
    cases hs
    exact Iff.rfl

theorem Kept.taken_of_settled_run {s s' : Store κ δ} {es : List (Event κ δ)} (h : s.Kept)
    (hs : run step s es = some s') {d d' : δ} {k : κ} (hd : (d, k) ∈ s.settled) :
    (d', k) ∈ s'.taken ↔ (d', k) ∈ s.taken := by
  have hstep : ∀ t e t', (t.Kept ∧ (d, k) ∈ t.settled ∧ ((d', k) ∈ t.taken ↔ (d', k) ∈ s.taken)) →
    step t e = some t' →
      t'.Kept ∧ (d, k) ∈ t'.settled ∧ ((d', k) ∈ t'.taken ↔ (d', k) ∈ s.taken) :=
        fun t e t' hi ht =>
    ⟨kept_step t e t' hi.1 ht, (before_step ht).settled hi.2.1,
      (hi.1.taken_of_settled ht hi.2.1).trans hi.2.2⟩
  exact (run_invariant hstep es hs ⟨h, hd, Iff.rfl⟩).2.2

/-! ## How often an item has come back -/

theorem Kept.count_held_le {s : Store κ δ} (h : s.Kept) (k : κ) :
    (s.held.map Prod.snd).count k ≤ 1 := by
  have hsum := perm_places_iff.1 h.conserved k
  have honce := List.nodup_iff_count_le_one.1 h.once k
  omega

theorem Kept.count_ready_le {s : Store κ δ} (h : s.Kept) (k : κ) : s.ready.count k ≤ 1 := by
  have hsum := perm_places_iff.1 h.conserved k
  have honce := List.nodup_iff_count_le_one.1 h.once k
  omega

theorem count_returned_step {s s' : Store κ δ} {e : Event κ δ} (h : s.Kept)
    (hs : s.step e = some s') (k : κ) :
    (s'.returned.map Prod.snd).count k ≤ (s.returned.map Prod.snd).count k +
    if e.loses then 1 else 0 := by
  cases e with
  | store items =>
    obtain ⟨-, hs⟩ := Option.ite_none_right_eq_some.1 hs
    cases hs
    exact Nat.le_refl _
  | take i holder =>
    obtain ⟨_, -, -, rfl⟩ := take_eq_some hs
    exact Nat.le_refl _
  | settle done =>
    cases hs
    exact Nat.le_refl _
  | lose lost =>
    cases hs
    have hpart := count_filter_add s.held (fun x => lost x.1) Prod.snd k
    have hheld := h.count_held_le k
    simp only [Store.lose, Event.loses, List.map_append, List.count_append, if_true]
    omega
  | discard doomed =>
    cases hs
    exact Nat.le_refl _

/-- At most once for each time that holders were lost. -/
theorem count_returned_run {s s' : Store κ δ} {es : List (Event κ δ)} (h : s.Kept)
    (hs : run step s es = some s') (k : κ) :
    (s'.returned.map Prod.snd).count k ≤ (s.returned.map Prod.snd).count k +
    es.countP Event.loses :=
  run_measure_le (μ := fun s => (s.returned.map Prod.snd).count k) kept_step
    (fun _ _ _ hi hstep => count_returned_step hi hstep k) es hs h

end Store

end Custody
