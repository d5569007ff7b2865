import Atasks.Amqp.Consumers
import Atasks.Loopback
/-!
# What a transport holds for a router

`Router` subscribes one callback per registered name, kind by kind (`atasks/router.py:192-220`).
`Holds L X` says that a transport holds exactly the names in `L`, as the last calls recorded
them, and the names in `X`, whose consumer it has forgotten about. `X` is empty unless a call
has failed.

| here | there |
| --- | --- |
| `Callback`            | the closure `_callback` of `_activate_request`, `_activate_queue`, `_activate_broadcast` |
| `Transport.register`  | `_register_request_callback`, `_register_event_callback`, `_register_broadcast_callback` |
| `Transport.unregister` | their `_unregister_…` counterparts |
-/

namespace Atasks.Router

/-- Which `_on_…` method the closure calls, and the name it closes over. -/
structure Callback where
  kind : Kind
  name : String
deriving DecidableEq, Repr

abbrev Names := List (Kind × String)

end Atasks.Router

namespace Atasks.Amqp.Consumers

open Router

/-- The consumers of one name. -/
def consumersOf (a : Consumers Callback) (kind : Kind) (name : String) : List
    (Subscriber Callback) :=
  a.live.filter fun c => c.kind = kind && c.name = name

/-- `L` with an entry and a consumer each, `X` with a consumer but no entry. -/
structure Keeps (L X : Names) (a : Consumers Callback) : Prop where
  connected : a.connected = true
  fresh : ∀ c ∈ a.live, c.tag < a.nextTag
  distinct : ∀ c ∈ a.live, ∀ c' ∈ a.live, c.tag = c'.tag → c = c'
  kept : ∀ kind name, (kind, name) ∈ L → ∃ tag,
    a.bookkeeping.entry kind name = (some tag, some tag) ∧
    a.consumersOf kind name = [⟨tag, kind, name, ⟨kind, name⟩⟩]
  forgotten : ∀ kind name, (kind, name) ∉ L → a.bookkeeping.entry kind name = (none, none)
  leaked : ∀ kind name, (kind, name) ∈ X → ∃ tag,
    a.consumersOf kind name = [⟨tag, kind, name, ⟨kind, name⟩⟩]
  absent : ∀ kind name, (kind, name) ∉ L → (kind, name) ∉ X → a.consumersOf kind name = []
  disjoint : ∀ p ∈ L, p ∉ X

variable {L X : Names} {a : Consumers Callback} {kind : Kind} {name : String}

theorem Keeps.empty : Keeps [] [] empty :=
  ⟨rfl, by simp [Consumers.empty], by simp [Consumers.empty], by simp, fun _ _ _ => rfl, by simp,
    fun _ _ _ _ => rfl, by simp⟩

theorem Keeps.congr {L' : Names} (h : Keeps L X a) (hL : ∀ p, p ∈ L ↔ p ∈ L') : Keeps L' X a :=
  ⟨h.connected, h.fresh, h.distinct, fun k n hm => h.kept k n ((hL _).2 hm), fun k n hm =>
    h.forgotten k n fun hl => hm ((hL _).1 hl),
    h.leaked, fun k n hm => h.absent k n fun hl => hm ((hL _).1 hl), fun p hp =>
      h.disjoint p ((hL p).2 hp)⟩

theorem consumersOf_consume (a : Consumers Callback) (kind : Kind) (name : String)
    (callback : Callback) (kind' : Kind) (name' : String) :
    (a.consume kind name callback).consumersOf kind' name' =
      if kind' = kind ∧ name' = name then ⟨a.nextTag, kind, name, callback⟩ ::
      a.consumersOf kind' name'
      else a.consumersOf kind' name' := by
  simp only [consumersOf, consume, List.filter_cons]
  by_cases h : kind' = kind ∧ name' = name
  · obtain ⟨rfl, rfl⟩ := h; simp
  · rw [if_neg h, if_neg]
    intro hc
    simp only [Bool.and_eq_true, decide_eq_true_eq] at hc
    exact h ⟨hc.1.symm, hc.2.symm⟩

theorem consumersOf_cancel (tag : Tag) (kind' : Kind) (name' : String) :
    (a.cancel tag).consumersOf kind' name' = (a.consumersOf kind' name').filter fun c =>
    c.tag != tag := by
  simp only [consumersOf, cancel, List.filter_filter, Bool.and_comm]

/-- A new consumer gets a tag no other one has. -/
theorem Keeps.consume_tags (h : Keeps L X a) (kind : Kind) (name : String) (callback : Callback) :
    (∀ c ∈ (a.consume kind name callback).live, c.tag < (a.consume kind name callback).nextTag) ∧
      ∀ c ∈ (a.consume kind name callback).live, ∀ c' ∈ (a.consume kind name callback).live,
      c.tag = c'.tag → c = c' := by
  refine ⟨fun c hc => ?_, fun c hc c' hc' heq => ?_⟩
  · rcases List.mem_cons.1 hc with rfl | hc
    · exact Nat.lt_succ_self _
    · exact Nat.lt_succ_of_lt (h.fresh c hc)
  · rcases List.mem_cons.1 hc with rfl | hc <;> rcases List.mem_cons.1 hc' with rfl | hc'
    · rfl
    · exact absurd heq (Nat.ne_of_gt (h.fresh c' hc'))
    · exact absurd heq (Nat.ne_of_lt (h.fresh c hc))
    · exact h.distinct c hc c' hc' heq

theorem Keeps.register (h : Keeps L X a) (hL : (kind, name) ∉ L) (hX : (kind, name) ∉ X) :
    Keeps ((kind, name) :: L) X (a.register kind name ⟨kind, name⟩) := by
  have hof : ∀ k n, (a.register kind name ⟨kind, name⟩).consumersOf k n =
      if k = kind ∧ n = name then ⟨a.nextTag, kind, name, ⟨kind, name⟩⟩ :: a.consumersOf k n
        else a.consumersOf k n :=
    consumersOf_consume a kind name _
  have hentry : ∀ k n, (a.register kind name ⟨kind, name⟩).bookkeeping.entry k n =
      if k = kind ∧ n = name then (some a.nextTag, some a.nextTag) else a.bookkeeping.entry k n :=
        fun k n =>
    Bookkeeping.entry_set ..
  obtain ⟨hfresh, hdistinct⟩ := h.consume_tags kind name ⟨kind, name⟩
  refine ⟨h.connected, hfresh, hdistinct, fun k n hm => ?_, fun k n hm => ?_, fun k n hm => ?_,
    fun k n hm hx => ?_,
    fun p hp => ?_⟩
  · by_cases hkn : k = kind ∧ n = name
    · obtain ⟨rfl, rfl⟩ := hkn
      exact ⟨a.nextTag, by rw [hentry, if_pos ⟨rfl, rfl⟩], by rw [hof, if_pos ⟨rfl, rfl⟩,
        h.absent k n hL hX]⟩
    · obtain ⟨tag, he, hc⟩ := h.kept k n
        ((List.mem_cons.1 hm).resolve_left fun heq => hkn (Prod.mk.inj heq))
      exact ⟨tag, by rw [hentry, if_neg hkn, he], by rw [hof, if_neg hkn, hc]⟩
  · have hkn : ¬(k = kind ∧ n = name) := by rintro ⟨rfl, rfl⟩; exact hm List.mem_cons_self
    rw [hentry, if_neg hkn]
    exact h.forgotten k n fun hl => hm (List.mem_cons_of_mem _ hl)
  · have hkn : ¬(k = kind ∧ n = name) := by rintro ⟨rfl, rfl⟩; exact hX hm
    rw [hof, if_neg hkn]
    exact h.leaked k n hm
  · have hkn : ¬(k = kind ∧ n = name) := by rintro ⟨rfl, rfl⟩; exact hm List.mem_cons_self
    rw [hof, if_neg hkn]
    exact h.absent k n (fun hl => hm (List.mem_cons_of_mem _ hl)) hx
  · rcases List.mem_cons.1 hp with rfl | hp
    · exact hX
    · exact h.disjoint p hp

/-- A `consume` that raises with the consumer created. -/
theorem Keeps.consume (h : Keeps L X a) (hL : (kind, name) ∉ L) (hX : (kind, name) ∉ X) :
    Keeps L ((kind, name) :: X) (a.consume kind name ⟨kind, name⟩) := by
  have hof := consumersOf_consume a kind name ⟨kind, name⟩
  obtain ⟨hfresh, hdistinct⟩ := h.consume_tags kind name ⟨kind, name⟩
  refine ⟨h.connected, hfresh, hdistinct, fun k n hm => ?_, h.forgotten, fun k n hm => ?_,
    fun k n hm hx => ?_,
    fun p hp hx => ?_⟩
  · have hkn : ¬(k = kind ∧ n = name) := by rintro ⟨rfl, rfl⟩; exact hL hm
    obtain ⟨tag, he, hc⟩ := h.kept k n hm
    exact ⟨tag, he, by rw [hof, if_neg hkn, hc]⟩
  · by_cases hkn : k = kind ∧ n = name
    · obtain ⟨rfl, rfl⟩ := hkn
      exact ⟨a.nextTag, by rw [hof, if_pos ⟨rfl, rfl⟩, h.absent k n hL hX]⟩
    · obtain ⟨tag, hc⟩ := h.leaked k n ((List.mem_cons.1 hm).resolve_left fun heq =>
        hkn (Prod.mk.inj heq))
      exact ⟨tag, by rw [hof, if_neg hkn, hc]⟩
  · have hkn : ¬(k = kind ∧ n = name) := by rintro ⟨rfl, rfl⟩; exact hx List.mem_cons_self
    rw [hof, if_neg hkn]
    exact h.absent k n hm fun hl => hx (List.mem_cons_of_mem _ hl)
  · rcases List.mem_cons.1 hx with rfl | hx
    · exact hL hp
    · exact h.disjoint p hp hx

/-- `L` without one name. -/
def without (L : Names) (p : Kind × String) : Names := L.filter fun q => q ≠ p

@[simp] theorem mem_without {p q : Kind × String} : q ∈ without L p ↔ q ∈ L ∧ q ≠ p := by
  simp [without]

theorem Keeps.cancelled (h : Keeps L X a) {tag : Tag}
    (hof : a.consumersOf kind name = [⟨tag, kind, name, ⟨kind, name⟩⟩]) (k : Kind) (n : String) :
    (a.cancel tag).consumersOf k n = if k = kind ∧ n = name then [] else a.consumersOf k n := by
  rw [consumersOf_cancel]
  split
  · rename_i hkn
    obtain ⟨rfl, rfl⟩ := hkn
    simp [hof]
  · rename_i hkn
    refine List.filter_eq_self.2 fun c hc => ?_
    have hmem : (⟨tag, kind, name, ⟨kind, name⟩⟩ : Subscriber Callback) ∈ a.live :=
      (List.mem_filter.1 (hof ▸ List.mem_singleton_self _)).1
    obtain ⟨hlive, hc⟩ := List.mem_filter.1 hc
    have hne : c.tag ≠ tag := by
      intro heq
      have := h.distinct c hlive _ hmem heq
      subst this
      simp only [Bool.and_eq_true, decide_eq_true_eq] at hc
      exact hkn ⟨hc.1.symm, hc.2.symm⟩
    simpa using hne

/-- The entry of one name goes, and with it the consumer unless that stays behind (`X'`). -/
theorem Keeps.pop (h : Keeps L X a) (hL : (kind, name) ∈ L) (a' : Consumers Callback) (leak : Bool)
    (hconn : a'.connected = true) (htag : a'.nextTag = a.nextTag)
    (hlive : ∀ c ∈ a'.live, c ∈ a.live)
    (hentry : a'.bookkeeping = a.bookkeeping.pop kind name)
    (hof : ∀ k n, a'.consumersOf k n = if k = kind ∧ n = name ∧ leak = false then
      [] else a.consumersOf k n) :
    Keeps (without L (kind, name)) (if leak then (kind, name) :: X else X) a' := by
  have hX : (kind, name) ∉ X := h.disjoint _ hL
  have hentry' : ∀ k n, a'.bookkeeping.entry k n = if k = kind ∧ n = name then (none, none)
      else a.bookkeeping.entry k n :=
    fun k n => by rw [hentry, Bookkeeping.entry_pop]
  have hmemX : ∀ p, p ∈ (if leak then (kind, name) :: X else X) ↔
      p ∈ X ∨ (p = (kind, name) ∧ leak = true) := by
    intro p; cases leak <;> simp [or_comm]
  refine ⟨hconn, fun c hc => htag ▸ h.fresh c (hlive c hc), fun c hc c' hc' =>
    h.distinct c (hlive c hc) c' (hlive c' hc'),
    fun k n hm => ?_, fun k n hm => ?_, fun k n hm => ?_, fun k n hm hx => ?_, fun p hp hx => ?_⟩
  · obtain ⟨hmem, hne⟩ := mem_without.1 hm
    have hkn : ¬(k = kind ∧ n = name) := by rintro ⟨rfl, rfl⟩; exact hne rfl
    obtain ⟨tag, he, hc⟩ := h.kept k n hmem
    exact ⟨tag, by rw [hentry', if_neg hkn, he], by rw [hof, if_neg fun h' =>
      hkn ⟨h'.1, h'.2.1⟩, hc]⟩
  · by_cases hkn : k = kind ∧ n = name
    · rw [hentry', if_pos hkn]
    · rw [hentry', if_neg hkn]
      exact h.forgotten k n fun hl => hm (mem_without.2 ⟨hl, fun heq => hkn (Prod.mk.inj heq)⟩)
  · rcases (hmemX _).1 hm with hold | ⟨heq, hleak⟩
    · have hkn : ¬(k = kind ∧ n = name) := by rintro ⟨rfl, rfl⟩; exact hX hold
      rw [hof, if_neg fun h' => hkn ⟨h'.1, h'.2.1⟩]
      exact h.leaked k n hold
    · cases heq
      obtain ⟨tag, -, hc⟩ := h.kept kind name hL
      exact ⟨tag, by rw [hof, if_neg (by simp [hleak]), hc]⟩
  · by_cases hkn : k = kind ∧ n = name
    · obtain ⟨rfl, rfl⟩ := hkn
      have hleak : leak = false := by
        cases hl : leak with
        | false => rfl
        | true => exact absurd ((hmemX _).2 (Or.inr ⟨rfl, hl⟩)) hx
      rw [hof, if_pos ⟨rfl, rfl, hleak⟩]
    · rw [hof, if_neg fun h' => hkn ⟨h'.1, h'.2.1⟩]
      exact h.absent k n (fun hl => hm (mem_without.2 ⟨hl, fun heq => hkn (Prod.mk.inj heq)⟩))
        fun hx' => hx ((hmemX _).2 (Or.inl hx'))
  · obtain ⟨hmem, hne⟩ := mem_without.1 hp
    rcases (hmemX p).1 hx with hx | ⟨heq, -⟩
    · exact h.disjoint p hmem hx
    · exact hne heq

theorem Keeps.unregister (h : Keeps L X a) (kind : Kind) (name : String) :
    Keeps (without L (kind, name)) X (a.unregister kind name) := by
  by_cases hL : (kind, name) ∈ L
  · obtain ⟨tag, he, hof⟩ := h.kept kind name hL
    have hun : a.unregister kind name =
        { a with bookkeeping := a.bookkeeping.pop kind name, live := (a.cancel tag).live } := by
      simp [Consumers.unregister, he, h.connected, cancel]
    rw [hun]
    refine h.pop hL _ false h.connected rfl (fun c hc => (List.mem_filter.1 hc).1) rfl fun k n => ?_
    exact (h.cancelled hof k n).trans (by simp)
  · have he := h.forgotten kind name hL
    have hun : a.unregister kind name = { a with bookkeeping := a.bookkeeping.pop kind name } := by
      simp [Consumers.unregister, he]
    have hentry : ∀ k n, (a.unregister kind name).bookkeeping.entry k n = a.bookkeeping.entry k n :=
        fun k n => by
      rw [hun, Bookkeeping.entry_pop]
      split
      · rename_i hkn; rw [hkn.1, hkn.2, he]
      · rfl
    have hlive : (a.unregister kind name).live = a.live := by rw [hun]
    have hof : ∀ k n, (a.unregister kind name).consumersOf k n = a.consumersOf k n := fun k n => by
      simp [consumersOf, hlive]
    have hsame : ∀ p, p ∈ L ↔ p ∈ without L (kind, name) := fun p => by
      rw [mem_without]
      exact ⟨fun hp => ⟨hp, by rintro rfl; exact hL hp⟩, And.left⟩
    refine Keeps.congr
      ⟨by rw [hun]; exact h.connected, by rw [hun]; exact h.fresh, by rw [hlive]; exact h.distinct,
      ?_, ?_, ?_,
      ?_, h.disjoint⟩ hsame
    · intro k n hm; rw [hentry, hof]; exact h.kept k n hm
    · intro k n hm; rw [hentry]; exact h.forgotten k n hm
    · intro k n hm; rw [hof]; exact h.leaked k n hm
    · intro k n hm hx; rw [hof]; exact h.absent k n hm hx

theorem Keeps.unregisterRaises (h : Keeps L X a) (hL : (kind, name) ∈ L) (live : Bool) :
    Keeps (without L (kind, name)) (if live then (kind, name) :: X else X)
    (a.unregisterRaises kind name (.late live)) := by
  obtain ⟨tag, he, hof⟩ := h.kept kind name hL
  cases live with
  | true =>
    have hun : a.unregisterRaises kind name (.late true) =
        { a with bookkeeping := a.bookkeeping.pop kind name } := by
      simp [Consumers.unregisterRaises, he]
    rw [hun]
    exact h.pop hL _ true h.connected rfl (fun _ hc => hc) rfl fun k n => by simp [consumersOf]
  | false =>
    have hun : a.unregisterRaises kind name (.late false) =
        { a with bookkeeping := a.bookkeeping.pop kind name, live := (a.cancel tag).live } := by
      simp [Consumers.unregisterRaises, he, cancel]
    rw [hun]
    refine h.pop hL _ false h.connected rfl (fun c hc => (List.mem_filter.1 hc).1) rfl fun k n => ?_
    exact (h.cancelled hof k n).trans (by simp)

end Atasks.Amqp.Consumers

namespace Atasks.Router

open Amqp (Consumers)
open Amqp.Consumers (Failure without)

inductive Transport
  | loopback (l : Loopback Callback)
  | amqp (a : Consumers Callback)

namespace Transport

def register (tr : Transport) (kind : Kind) (name : String) : Transport :=
  match tr with
  | .loopback l => .loopback (l.register kind name ⟨kind, name⟩)
  | .amqp a => .amqp (a.register kind name ⟨kind, name⟩)

def unregister (tr : Transport) (kind : Kind) (name : String) : Transport :=
  match tr with
  | .loopback l => .loopback (l.unregister kind name)
  | .amqp a => .amqp (a.unregister kind name)

/-- The loopback never raises. -/
def registerRaises (tr : Transport) (kind : Kind) (name : String) (f : Failure) :
    Option Transport :=
  match tr with
  | .loopback _ => none
  | .amqp a => some (.amqp (a.registerRaises kind name ⟨kind, name⟩ f))

def unregisterRaises (tr : Transport) (kind : Kind) (name : String) (f : Failure) :
    Option Transport :=
  match tr with
  | .loopback _ => none
  | .amqp a => some (.amqp (a.unregisterRaises kind name f))

/-- Who gets a message for `name`. -/
def callbacks (tr : Transport) (kind : Kind) (name : String) : List Callback :=
  match tr with
  | .loopback l => l.callbacks kind name
  | .amqp a => a.callbacks kind name

/-- A transport nothing has been registered on. -/
def Fresh (tr : Transport) : Prop := tr = .loopback .empty ∨ tr = .amqp .empty

/-- The callbacks of the names in `L`, which a later call can take back, and of those in `X`. -/
def Holds (L X : Names) : Transport → Prop
  | .loopback l =>
    X = [] ∧ ∀ kind name, l.callbacks kind name = if (kind, name) ∈ L then [⟨kind, name⟩] else []
  | .amqp a => a.Keeps L X

variable {tr : Transport} {L X : Names} {kind : Kind} {name : String}

theorem Holds.callbacks (h : tr.Holds L X) (kind : Kind) (name : String) :
    tr.callbacks kind name = if (kind, name) ∈ L ∨ (kind, name) ∈ X then [⟨kind, name⟩]
    else [] := by
  cases tr with
  | loopback l => rw [Transport.callbacks, h.2, h.1]; simp
  | amqp a =>
    show (a.consumersOf kind name).map _ = _
    by_cases hL : (kind, name) ∈ L
    · obtain ⟨tag, -, hc⟩ := h.kept kind name hL
      simp [hc, hL]
    · by_cases hX : (kind, name) ∈ X
      · obtain ⟨tag, hc⟩ := h.leaked kind name hX
        simp [hc, hX]
      · simp [h.absent kind name hL hX, hL, hX]

theorem Fresh.holds (h : tr.Fresh) : tr.Holds [] [] := by
  rcases h with rfl | rfl
  · exact ⟨rfl, by simp⟩
  · exact Amqp.Consumers.Keeps.empty

theorem Holds.congr {L' : Names} (h : tr.Holds L X) (hL : ∀ p, p ∈ L ↔ p ∈ L') : tr.Holds L' X := by
  cases tr with
  | loopback l => exact ⟨h.1, fun kind name => by rw [h.2]; simp only [hL]⟩
  | amqp a => exact Amqp.Consumers.Keeps.congr h hL

theorem Holds.register (h : tr.Holds L X) (hL : (kind, name) ∉ L) (hX : (kind, name) ∉ X) :
    (tr.register kind name).Holds ((kind, name) :: L) X := by
  cases tr with
  | loopback l =>
    refine ⟨h.1, fun k n => ?_⟩
    rw [l.callbacks_register kind _ (by rw [h.2, if_neg hL]), h.2]
    by_cases hkn : k = kind ∧ n = name
    · obtain ⟨rfl, rfl⟩ := hkn; simp
    · have hne : (k, n) ≠ (kind, name) := fun heq => hkn (Prod.mk.inj heq)
      rw [if_neg hkn]
      simp [hne]
  | amqp a => exact Amqp.Consumers.Keeps.register h hL hX

theorem Holds.unregister (h : tr.Holds L X) (kind : Kind) (name : String) :
    (tr.unregister kind name).Holds (without L (kind, name)) X := by
  cases tr with
  | loopback l =>
    refine ⟨h.1, fun k n => ?_⟩
    rw [l.callbacks_unregister, h.2]
    by_cases hkn : k = kind ∧ n = name
    · obtain ⟨rfl, rfl⟩ := hkn; simp
    · have hne : (k, n) ≠ (kind, name) := fun heq => hkn (Prod.mk.inj heq)
      rw [if_neg hkn]
      simp [hne]
  | amqp a => exact Amqp.Consumers.Keeps.unregister h kind name

theorem Holds.registerRaises {tr' : Transport} {f : Failure} (h : tr.Holds L X)
    (hL : (kind, name) ∉ L)
    (hX : (kind, name) ∉ X) (hr : tr.registerRaises kind name f = some tr') :
    tr'.Holds L (if f.leaves then (kind, name) :: X else X) := by
  cases tr with
  | loopback l => cases hr
  | amqp a =>
    cases hr
    match f with
    | .early | .late false => exact h
    | .late true => exact Amqp.Consumers.Keeps.consume h hL hX

theorem Holds.unregisterRaises {tr' : Transport} {f : Failure} (h : tr.Holds L X)
    (hL : (kind, name) ∈ L) (hr : tr.unregisterRaises kind name f = some tr') :
    tr'.Holds (if f = .early then L else without L (kind, name))
    (if f.leaves then (kind, name) :: X else X) := by
  cases tr with
  | loopback l => cases hr
  | amqp a =>
    cases hr
    cases f with
    | early => exact h
    | late live => exact Amqp.Consumers.Keeps.unregisterRaises h hL live

end Transport

end Atasks.Router
