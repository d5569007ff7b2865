import Atasks.Trace.CallPath
import Mathlib.Algebra.BigOperators.Ring.Finset
import Mathlib.Algebra.Order.BigOperators.Group.Finset
import Mathlib.Tactic.Ring
/-!
# How far calls spread

`max_trace_depth` (`atasks/trace.py:333-337`) is the one thing that ends a task that calls itself,
on however many hosts. Here the runs of `CallPath` are counted level by level below each call made
outside any handler: the handlers of one depth, the calls they make, and the handlers of these.

* `Sent.depth_eq`: a call is one deeper than the handler that makes it;
* `rootOf_of_caller`: and below the same root;
* `handlers_bounded`: so many handlers run below one root, and no more.
-/

namespace Atasks.Trace

open Machine

variable {ν ε : Type} {codec : Settings → Codec ν ε} {s s' : State}

/-! ## Depth -/

/-- The call that a handler runs for. -/
def State.callOf (s : State) (h : HandlerId) : Option Call :=
    (s.handlers[h]?).bind fun i => s.calls[i]?

/-- How many calls lead to a handler. -/
def State.depth (s : State) (h : HandlerId) : Nat :=
    (s.callOf h).elim 0 fun call => call.chain.length

theorem handled_step (h : ∀ i ∈ s.handlers, i < s.calls.length) {e : Event ν}
    (hs : step codec s e = some s') :
    ∀ i ∈ s'.handlers, i < s'.calls.length := by
  cases e with
  | begin k =>
    simp only [Trace.step, begin] at hs
    split at hs <;> cases hs
    exact h
  | spawn k k' =>
    simp only [Trace.step, spawn] at hs
    split at hs <;> cases hs
    exact h
  | call k router process site name kind argv kwargs =>
    simp only [Trace.step, call] at hs
    split at hs
    · cases hs
    · split at hs
      · cases hs
        exact h
      · split at hs <;> cases hs
        · intro i hi
          rw [List.length_append]
          exact Nat.lt_add_right _ (h i hi)
        · exact h
  | deliver k j router frame =>
    simp only [Trace.step, deliver] at hs
    split at hs
    · rename_i task call _ hcall
      split at hs
      · cases hs
        obtain ⟨hj, -⟩ := List.getElem?_eq_some_iff.1 hcall
        intro i hi
        rcases List.mem_append.1 hi with hi | hi
        · exact h i hi
        · exact List.mem_singleton.1 hi ▸ hj
      · cases hs
    · cases hs
  | finish k =>
    simp only [Trace.step, finish] at hs
    split at hs <;> cases hs
    exact h

/-- Every handler runs for a call. -/
theorem handled_reachable (hreach : Reachable (step codec) State.init s) :
    ∀ i ∈ s.handlers, i < s.calls.length :=
  hreach.invariant (fun _ _ _ h hs => handled_step h hs) (fun i hi => by cases hi)

theorem Path.length_eq (hi : Inv codec s) {h : HandlerId} {p : List AtaskHop}
    (hp : Path s (some h) p) : p.length = s.depth h := by
  cases hp with
  | handler hhandler hcall hlast hp =>
    obtain ⟨p', hop', hsent⟩ := hi.calls _ (List.mem_of_getElem? hcall)
    obtain rfl := hp.unique hsent.path
    simp [State.depth, State.callOf, hhandler, hcall, hsent.chain]

/-- A call is one deeper than the handler that makes it. -/
theorem Sent.depth_eq (hi : Inv codec s) {call : Call} (hcall : call ∈ s.calls) :
    call.chain.length = (call.caller.elim 0 s.depth) + 1 := by
  obtain ⟨p, hop, hsent⟩ := hi.calls call hcall
  have hpath := hsent.path
  rw [hsent.chain, List.length_append, List.length_singleton]
  cases hcaller : call.caller with
  | none =>
    rw [hcaller] at hpath
    cases hpath
    rfl
  | some h =>
    rw [hcaller] at hpath
    rw [hpath.length_eq hi]
    rfl

/-! ## Roots -/

/-- From a call to the one whose handler made it, and so on, `n` times or as long as there is one.
-/
def State.climb (s : State) : Nat → CallId → CallId
  | 0, i => i
  | n + 1, i =>
    match ((s.calls[i]?).bind Call.caller).bind fun h => s.handlers[h]? with
    | none => i
    | some j => s.climb n j

/-- The call outside any handler that a call comes from. -/
def State.rootOf (s : State) (i : CallId) : CallId :=
    s.climb ((s.calls[i]?).elim 0 fun call => call.chain.length) i

theorem rootOf_of_caller (hi : Inv codec s) {i j : CallId} {call : Call} {h : HandlerId}
    (hc : s.calls[i]? = some call) (hcaller : call.caller = some h) (hh : s.handlers[h]? = some j) :
    s.rootOf i = s.rootOf j := by
  have hdepth := Sent.depth_eq hi (List.mem_of_getElem? hc)
  have hhandler : s.depth h = (s.calls[j]?).elim 0 fun call => call.chain.length := by
    rw [State.depth, State.callOf, hh, Option.bind_some]
  rw [hcaller, Option.elim_some, hhandler] at hdepth
  rw [State.rootOf, State.rootOf, hc, Option.elim_some, hdepth]
  simp only [State.climb, hc, Option.bind_some, hcaller, hh]

theorem rootOf_of_no_caller {i : CallId} {call : Call} (hc : s.calls[i]? = some call)
    (hcaller : call.caller = none) :
    s.rootOf i = i := by
  rw [State.rootOf]
  cases (s.calls[i]?).elim 0 fun call => call.chain.length with
  | zero => rfl
  | succ n => simp only [State.climb, hc, Option.bind_some, hcaller, Option.bind_none]

/-- Every call comes from one made outside any handler. -/
theorem root_of_call (hi : Inv codec s) {n : Nat} {i : CallId} {call : Call}
    (hc : s.calls[i]? = some call) (hn : call.chain.length ≤ n) :
    ∃ root, s.calls[s.rootOf i]? = some root ∧ root.caller = none := by
  induction n generalizing i call with
  | zero =>
    have hdepth := Sent.depth_eq hi (List.mem_of_getElem? hc)
    omega
  | succ n ih =>
    cases hcaller : call.caller with
    | none => exact ⟨call, by rw [rootOf_of_no_caller hc hcaller, hc], hcaller⟩
    | some h =>
      obtain ⟨p, hop, hsent⟩ := hi.calls call (List.mem_of_getElem? hc)
      have hpath := hsent.path
      rw [hcaller] at hpath
      cases hpath with
      | handler hh hc' hlast hp =>
        obtain ⟨p', hop', hsent'⟩ := hi.calls _ (List.mem_of_getElem? hc')
        obtain rfl := hp.unique hsent'.path
        rw [rootOf_of_caller hi hc hcaller hh]
        refine ih hc' ?_
        rw [hsent.chain, List.length_append, List.length_append] at hn
        rw [hsent'.chain, List.length_append]
        simp only [List.length_singleton] at hn ⊢
        omega

/-! ## Counting -/

/-- The places of a list where a property holds. -/
def places {α : Type} (l : List α) (p : α → Bool) : Finset ℕ :=
    (Finset.range l.length).filter fun i => (l[i]?).any p

theorem mem_places {α : Type} {l : List α} {p : α → Bool} {i : ℕ} :
    i ∈ places l p ↔ ∃ a, l[i]? = some a ∧ p a = true := by
  simp only [places, Finset.mem_filter, Finset.mem_range, Option.any_eq_true]
  constructor
  · rintro ⟨-, ha⟩
    exact ha
  · rintro ⟨a, ha, hp⟩
    exact ⟨(List.getElem?_eq_some_iff.1 ha).1, a, ha, hp⟩

theorem card_places {α : Type} (l : List α) (p : α → Bool) : (places l p).card = l.countP p := by
  induction l using List.reverseRecOn with
  | nil => rfl
  | append_singleton l a ih =>
    have hrest : (Finset.range l.length).filter (fun i => ((l ++ [a])[i]?).any p) = places l p := by
      refine Finset.filter_congr fun i hi => ?_
      rw [List.getElem?_append_left (Finset.mem_range.1 hi)]
    have hlast : (l ++ [a])[l.length]? = some a := List.getElem?_concat_length ..
    rw [places, List.length_append, List.length_singleton, Finset.range_add_one,
      Finset.filter_insert, hrest, hlast, List.countP_append]
    by_cases hp : p a = true
    · simp [hp, places, ← ih]
    · simp [hp, ← ih]

/-- The handlers below a root, of a depth. -/
def State.handlersAt (s : State) (root : CallId) (d : Nat) : Finset HandlerId :=
  (places s.handlers fun i => s.rootOf i = root).filter fun h => s.depth h = d

/-- The calls below a root, of a depth. -/
def State.callsAt (s : State) (root : CallId) (d : Nat) : Finset CallId :=
  (places s.calls fun call => call.chain.length = d).filter fun i => s.rootOf i = root

theorem mem_handlersAt {root : CallId} {d : Nat} {h : HandlerId} :
    h ∈ s.handlersAt root d ↔ (∃ i, s.handlers[h]? = some i ∧ s.rootOf i = root) ∧
    s.depth h = d := by
  simp [State.handlersAt, mem_places]

theorem mem_callsAt {root : CallId} {d : Nat} {i : CallId} :
    i ∈ s.callsAt root d ↔ (∃ call, s.calls[i]? = some call ∧ call.chain.length = d) ∧
    s.rootOf i = root := by
  simp [State.callsAt, mem_places]

section levels

variable {b m : Nat} {root : CallId}

/-- Each call is handled a few times. -/
theorem card_handlersAt_le (hm : ∀ i, s.handlers.count i ≤ m) (d : Nat) (hd : d ≠ 0) :
    (s.handlersAt root d).card ≤ m * (s.callsAt root d).card := by
  refine Finset.card_le_mul_card_image_of_maps_to (f := fun h => (s.handlers[h]?).getD 0)
    (fun h hh => ?_) m fun i _ => ?_
  · obtain ⟨⟨i, hi, hroot⟩, hdepth⟩ := mem_handlersAt.1 hh
    rw [hi]
    refine mem_callsAt.2 ⟨?_, hroot⟩
    rw [State.depth, State.callOf, hi, Option.bind_some] at hdepth
    cases hc : s.calls[i]? with
    | none =>
      rw [hc] at hdepth
      exact absurd hdepth.symm hd
    | some call =>
      rw [hc] at hdepth
      exact ⟨call, hc, hdepth⟩
  · have hsubset : (s.handlersAt root d).filter (fun h => (s.handlers[h]?).getD 0 = i) ⊆
        places s.handlers (· == i) := by
      intro h hh
      obtain ⟨hh, hsame⟩ := Finset.mem_filter.1 hh
      obtain ⟨⟨i', hi', -⟩, -⟩ := mem_handlersAt.1 hh
      rw [hi'] at hsame
      exact mem_places.2 ⟨i', hi', by simpa using hsame⟩
    have hle := Finset.card_le_card hsubset
    rw [card_places] at hle
    exact Nat.le_trans hle (hm i)

/-- Each handler makes a few calls. -/
theorem card_callsAt_le (hi : Inv codec s)
    (hb : ∀ h, s.calls.countP (fun call => call.caller = some h) ≤ b) (d : Nat) (hd : d ≠ 0) :
    (s.callsAt root (d + 1)).card ≤ b * (s.handlersAt root d).card := by
  have hcaller : ∀ i ∈ s.callsAt root (d + 1), ∃ call h, s.calls[i]? = some call ∧
      call.caller = some h ∧ h ∈ s.handlersAt root d := by
    intro i hi'
    obtain ⟨⟨call, hc, hlength⟩, hroot⟩ := mem_callsAt.1 hi'
    have hdepth := Sent.depth_eq hi (List.mem_of_getElem? hc)
    cases hh : call.caller with
    | none =>
      rw [hh, Option.elim_none] at hdepth
      omega
    | some h =>
      rw [hh, Option.elim_some] at hdepth
      have hd' : s.depth h = d := by omega
      cases hj : s.handlers[h]? with
      | none =>
        rw [State.depth, State.callOf, hj] at hd'
        exact absurd hd'.symm hd
      | some j =>
        exact ⟨call, h, hc, hh, mem_handlersAt.2
          ⟨⟨j, hj, (rootOf_of_caller hi hc hh hj).symm.trans hroot⟩, hd'⟩⟩
  refine Finset.card_le_mul_card_image_of_maps_to
    (f := fun i => ((s.calls[i]?).bind Call.caller).getD 0) (fun i hi' => ?_) b fun h _ => ?_
  · obtain ⟨call, h, hc, hh, hmem⟩ := hcaller i hi'
    rw [hc, Option.bind_some, hh]
    exact hmem
  · have hsubset : (s.callsAt root (d + 1)).filter
      (fun i => ((s.calls[i]?).bind Call.caller).getD 0 = h) ⊆
        places s.calls fun call => call.caller = some h := by
      intro i hi'
      obtain ⟨hi', hsame⟩ := Finset.mem_filter.1 hi'
      obtain ⟨call, h', hc, hh, -⟩ := hcaller i hi'
      rw [hc, Option.bind_some, hh] at hsame
      exact mem_places.2 ⟨call, hc, by simpa using hh.trans (congrArg some hsame)⟩
    have hle := Finset.card_le_card hsubset
    rw [card_places] at hle
    exact Nat.le_trans hle (hb h)

/-- A root is the only call of its depth. -/
theorem card_callsAt_one (hi : Inv codec s) : (s.callsAt root 1).card ≤ 1 := by
  refine Finset.card_le_one_iff_subset_singleton.2 ⟨root, fun i hi' => ?_⟩
  obtain ⟨⟨call, hc, hlength⟩, hroot⟩ := mem_callsAt.1 hi'
  have hcaller : call.caller = none := by
    cases hh : call.caller with
    | none => rfl
    | some h =>
      have hdepth := Sent.depth_eq hi (List.mem_of_getElem? hc)
      rw [hh, Option.elim_some] at hdepth
      obtain ⟨p, hop, hsent⟩ := hi.calls call (List.mem_of_getElem? hc)
      have hpath := hsent.path
      rw [hh] at hpath
      have hne : p ≠ [] := fun hnil => by simpa using hpath.eq_nil_iff.1 hnil
      have hzero := hpath.length_eq hi
      exact absurd (List.length_eq_zero_iff.1 (by omega)) hne
  rw [rootOf_of_no_caller hc hcaller] at hroot
  exact Finset.mem_singleton.2 hroot

theorem card_level_le (hi : Inv codec s)
    (hb : ∀ h, s.calls.countP (fun call => call.caller = some h) ≤ b)
    (hm : ∀ i, s.handlers.count i ≤ m) (d : Nat) :
    (s.handlersAt root (d + 1)).card ≤ m * (b * m) ^ d := by
  induction d with
  | zero =>
    calc (s.handlersAt root 1).card
        ≤ m * (s.callsAt root 1).card := card_handlersAt_le hm 1 one_ne_zero
      _ ≤ m * 1 := Nat.mul_le_mul_left m (card_callsAt_one hi)
      _ = m * (b * m) ^ 0 := by rw [pow_zero]
  | succ d ih =>
    calc (s.handlersAt root (d + 1 + 1)).card
        ≤ m * (s.callsAt root (d + 1 + 1)).card := card_handlersAt_le hm _ (Nat.succ_ne_zero _)
      _ ≤ m * (b * (s.handlersAt root (d + 1)).card) :=
        Nat.mul_le_mul_left m (card_callsAt_le hi hb _ (Nat.succ_ne_zero d))
      _ ≤ m * (b * (m * (b * m) ^ d)) := Nat.mul_le_mul_left m (Nat.mul_le_mul_left b ih)
      _ = m * (b * m) ^ (d + 1) := by ring

end levels

/-- A handler is at a depth that some router allows. -/
theorem depth_bounds (hi : Inv codec s) (hhandled : ∀ i ∈ s.handlers, i < s.calls.length) {D : Nat}
    (hD : ∀ call ∈ s.calls, call.router.maxTraceDepth ≤ D) {h : HandlerId}
    (hh : h < s.handlers.length) : 0 < s.depth h ∧ s.depth h ≤ D := by
  obtain ⟨i, hi'⟩ : ∃ i, s.handlers[h]? = some i := ⟨_, List.getElem?_eq_getElem hh⟩
  obtain ⟨call, hc⟩ : ∃ call, s.calls[i]? = some call :=
    ⟨_, List.getElem?_eq_getElem (hhandled i (List.mem_of_getElem? hi'))⟩
  have hdepth : s.depth h = call.chain.length := by simp [State.depth, State.callOf, hi', hc]
  have hmem := List.mem_of_getElem? hc
  have hone := Sent.depth_eq hi hmem
  obtain ⟨p, hop, hsent⟩ := hi.calls call hmem
  have hlimit := hsent.depth
  have hD := hD call hmem
  omega

/-- **Calls cannot spread without end.** Every handler runs below one call made outside any handler. If a
handler makes at most `b` calls, a call is handled at most `m` times and no router allows more than `D`
hops, then below each such call there are at most `m + m * (b * m) + ... + m * (b * m) ^ (D - 1)` handlers,
in every interleaving on all hosts. -/
theorem handlers_bounded (hcodec : RoundTrips codec) (hreach : Reachable (step codec) State.init s)
    {b m D : Nat} (hb : ∀ h, s.calls.countP (fun call => call.caller = some h) ≤ b)
    (hm : ∀ i, s.handlers.count i ≤ m) (hD : ∀ call ∈ s.calls, call.router.maxTraceDepth ≤ D) :
    (∀ i ∈ s.handlers, ∃ root, s.calls[s.rootOf i]? = some root ∧ root.caller = none) ∧
      ∀ root, s.handlers.countP (fun i => s.rootOf i = root) ≤ ∑ d ∈ Finset.range D,
      m * (b * m) ^ d := by
  have hi : Inv codec s := hreach.invariant (Inv.step hcodec) inv_init
  have hhandled := handled_reachable hreach
  refine ⟨fun i hmem => ?_, fun root => ?_⟩
  · obtain ⟨call, hc⟩ : ∃ call, s.calls[i]? = some call :=
      ⟨_, List.getElem?_eq_getElem (hhandled i hmem)⟩
    exact root_of_call hi hc (Nat.le_refl _)
  have hdepth : ∀ h ∈ places s.handlers (fun i => s.rootOf i = root), 0 < s.depth h ∧
      s.depth h ≤ D := by
    intro h hh
    obtain ⟨i, hi', -⟩ := mem_places.1 hh
    exact depth_bounds hi hhandled hD (List.getElem?_eq_some_iff.1 hi').1
  have hlevels : ∀ h ∈ places s.handlers (fun i => s.rootOf i = root),
      s.depth h - 1 ∈ Finset.range D := by
    intro h hh
    have hbounds := hdepth h hh
    exact Finset.mem_range.2 (by omega)
  rw [← card_places, Finset.card_eq_sum_card_fiberwise hlevels]
  refine Finset.sum_le_sum fun d _ => ?_
  have hlevel : (places s.handlers fun i => s.rootOf i = root).filter (fun h => s.depth h - 1 = d) =
      s.handlersAt root (d + 1) := by
    refine Finset.filter_congr fun h hh => ?_
    have hbounds := hdepth h hh
    omega
  rw [hlevel]
  exact card_level_le hi hb hm d

/-- A host that allows two hops. -/
def shallowRouter (host : String) : Settings := { demoRouter host with maxTraceDepth := 2 }

/-- The handler of the first call makes two calls, and the handlers of these can make none: three
handlers, as many as there may be. -/
theorem handlers_bounded_demo :
    let es : List (Event Unit) :=
      [.begin 0, .call 0 (shallowRouter "a") demoProcess demoSite "m.f" .rpc [] .empty, .begin 1,
        .deliver 1 0 (shallowRouter "b") 7,
          .call 1 (shallowRouter "b") demoProcess demoSite "m.g" .rpc [] .empty,
        .call 1 (shallowRouter "b") demoProcess demoSite "m.g" .rpc [] .empty, .begin 2,
          .deliver 2 1 (shallowRouter "c") 8,
        .call 2 (shallowRouter "c") demoProcess demoSite "m.f" .rpc [] .empty, .begin 3,
          .deliver 3 2 (shallowRouter "c") 9]
    ∃ s, run (step fun _ => demoCodec) State.init es = some s ∧ s.handlers = [0, 1, 2] ∧
      s.handlers.countP (fun i => s.rootOf i = 0) ≤ ∑ d ∈ Finset.range 2, 1 * (2 * 1) ^ d := by
  intro es
  have hrun : run (step fun _ => demoCodec) State.init es = some _ := rfl
  refine ⟨_, hrun, rfl, (@handlers_bounded _ _ _ _ (knowing_roundTrips _) ⟨es, hrun⟩ 2 1 2
    (fun h => ?_) (fun i => ?_)
    fun call hcall => ?_).2 0⟩
  · have hcallers : List.countP (fun caller => caller = some h) [none, some 0, some 0] ≤ 2 := by
      rw [List.countP_cons_of_neg (by simp)]
      exact List.countP_le_length
    have hcount : ∀ calls : List Call, calls.countP (fun call => call.caller = some h) =
        (calls.map Call.caller).countP fun caller => caller = some h := fun calls => by
          rw [List.countP_map]
          rfl
    rw [hcount]
    exact hcallers
  · exact List.nodup_iff_count_le_one.1 (show [0, 1, 2].Nodup by decide) i
  · have hlimits : ∀ calls : List Call, calls.map
      (fun call => call.router.maxTraceDepth) = [2, 2, 2] →
        ∀ call ∈ calls, call.router.maxTraceDepth ≤ 2 := fun calls hmap call hcall => by
      have hmem : call.router.maxTraceDepth ∈ [2, 2, 2] := hmap ▸ List.mem_map_of_mem hcall
      simp at hmem
      omega
    exact hlimits _ rfl call hcall

end Atasks.Trace
