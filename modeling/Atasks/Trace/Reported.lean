import Atasks.Trace.CallPath
/-!
# Whose trace is reported

The machine of `CallPath`, where handlers also fail. An exception is an object that any code
may keep, raise again or hand to another task, so two handlers may well fail with one and the
same. `Router._call_coro` attaches the trace and gives the object back; `_on_request` sends it
to the caller, `_on_event` and `_on_broadcast` log it.

| here | there |
| --- | --- |
| `Object`         | an exception object |
| `fails`          | `except Exception as ex` of `Router._call_coro` (`router.py:450-454`), with `attach` (`trace.py:373-407`) |
| `Report`         | what `_call_coro` returns then; the log of a queue or broadcast task shows its trace (`router.py:394-398`) |
| `reraised`       | the exception an RPC caller gets, decoded from the response (`router.py:252-262`) |
| `copied`         | any other copy that is made of an exception |

`Object.recordedBy` is history: the handler whose failure put the trace there. `attach` takes
a trace that is there already for that of a deeper hop. `reported_iff` says that this guess
decides everything: a report shows its own call exactly if the guess is right.
-/

namespace Atasks.Trace

open Machine

variable {ν ε : Type} {codec : Settings → Codec ν ε}

/-! ## Calls within calls -/

section calls

variable {s s' : State}

/-- The id of the call itself. -/
def Call.lastId (c : Call) : Option String := c.chain.getLast?.map AtaskHop.callId

/-- The id a call is given. -/
def Event.callId : Event ν → Option String
  | .call _ _ _ site _ _ _ _ => some site.callId
  | _ => none

/-- What a step adds to the history. -/
theorem step_history {e : Event ν} (hs : step codec s e = some s') :
    s.handlers <+: s'.handlers ∧
      (s'.calls = s.calls ∨ ∃ c id, e.callId = some id ∧ s'.calls = s.calls ++ [c] ∧
        c.lastId = some id) := by
  cases e with
  | begin k =>
    simp only [step, begin] at hs
    split at hs
    · cases hs
    · cases hs; exact ⟨List.prefix_rfl, Or.inl rfl⟩
  | spawn k k' =>
    simp only [step, spawn] at hs
    split at hs
    · cases hs; exact ⟨List.prefix_rfl, Or.inl rfl⟩
    · cases hs
  | call k router process site name kind argv kwargs =>
    simp only [step, call] at hs
    split at hs
    · cases hs
    · split at hs
      · cases hs; exact ⟨List.prefix_rfl, Or.inl rfl⟩
      · rename_i chain hpush
        split at hs
        · cases hs
          refine ⟨List.prefix_rfl, Or.inr ⟨_, site.callId, rfl, rfl, ?_⟩⟩
          rw [Call.lastId, (pushHop_ok hpush).2]
          simp [newHop]
        · cases hs; exact ⟨List.prefix_rfl, Or.inl rfl⟩
  | deliver k i router frame =>
    simp only [step, deliver] at hs
    split at hs
    · split at hs
      · cases hs; exact ⟨List.prefix_append _ _, Or.inl rfl⟩
      · cases hs
    · cases hs
  | finish k =>
    simp only [step, finish] at hs
    split at hs
    · cases hs; exact ⟨List.prefix_rfl, Or.inl rfl⟩
    · cases hs

theorem extends_of_step {e : Event ν} (hs : step codec s e = some s') : Extends s s' := by
  obtain ⟨hhandlers, hcalls⟩ := step_history hs
  refine ⟨?_, hhandlers⟩
  rcases hcalls with hsame | ⟨c, id, -, hadd, -⟩
  · exact hsame ▸ List.prefix_rfl
  · exact hadd ▸ List.prefix_append _ _

/-- Call `j` is call `i`, or was made by a handler of one within it. -/
inductive Within (s : State) (i : CallId) : CallId → Prop
  | self : Within s i i
  | nested {j m : CallId} {call : Call} {h : HandlerId} (hcall : s.calls[j]? = some call)
    (hcaller : call.caller = some h)
      (hh : s.handlers[h]? = some m) (hw : Within s i m) : Within s i j

/-- The handler runs for this call. -/
def Handles (s : State) (h : HandlerId) (i : CallId) (call : Call) : Prop :=
  s.handlers[h]? = some i ∧ s.calls[i]? = some call

variable {h h' : HandlerId} {i j : CallId} {c c' : Call} {p p' : List AtaskHop}

theorem Handles.mono (he : Extends s s') (hh : Handles s h i c) : Handles s' h i c :=
  ⟨getElem?_of_extends he.2 hh.1, getElem?_of_extends he.1 hh.2⟩

theorem Path.handles (hp : Path s (some h) p) : ∃ i c, Handles s h i c := by
  cases hp with
  | handler hi hcall _ _ => exact ⟨_, _, hi, hcall⟩

/-- The path to a handler is the chain of its call. -/
theorem Handles.path (hinv : Inv codec s) (hh : Handles s h i c) : Path s (some h) c.chain := by
  obtain ⟨p, hop, hsent⟩ := hinv.calls c (List.mem_of_getElem? hh.2)
  rw [hsent.chain]
  refine .handler hh.1 hh.2 ?_ hsent.path
  rw [hsent.chain]
  simp

theorem Handles.chain_eq (hinv : Inv codec s) (hh : Handles s h i c) (hp : Path s (some h) p) :
    p = c.chain :=
  hp.unique (hh.path hinv)

/-- The chain of a call goes on from the one of its caller. -/
theorem chain_prefix_of_caller (hinv : Inv codec s) (hcall : s.calls[j]? = some c')
    (hcaller : c'.caller = some h) (hh : Handles s h i c) : c.chain <+: c'.chain := by
  obtain ⟨p, hop, hsent⟩ := hinv.calls c' (List.mem_of_getElem? hcall)
  have hpath : Path s (some h) p := hcaller ▸ hsent.path
  rw [hsent.chain, hh.chain_eq hinv hpath]
  exact List.prefix_append _ _

theorem Within.chain_prefix (hinv : Inv codec s) (hw : Within s i j) (hi : s.calls[i]? = some c) :
    ∀ {c'}, s.calls[j]? = some c' → c.chain <+: c'.chain := by
  induction hw with
  | self =>
    intro c' hj
    rw [hi] at hj
    cases hj
    exact List.prefix_rfl
  | nested hcall hcaller hh _ ih =>
    intro c' hj
    rw [hcall] at hj
    cases hj
    obtain ⟨p, hop, hsent⟩ := hinv.calls _ (List.mem_of_getElem? hcall)
    have hpath : Path s (some _) p := hcaller ▸ hsent.path
    obtain ⟨m, c'', hhandles⟩ := hpath.handles
    have hm : s.handlers[_]? = some m := hhandles.1
    rw [hh] at hm
    cases hm
    exact (ih hhandles.2).trans (chain_prefix_of_caller hinv hcall hcaller hhandles)

/-- No two calls have one id. -/
def DistinctIds (s : State) : Prop := (s.calls.map Call.lastId).Nodup

theorem DistinctIds.eq (hids : DistinctIds s) (hi : s.calls[i]? = some c)
    (hj : s.calls[j]? = some c') (hlast : c.lastId = c'.lastId) : i = j := by
  have hi' : (s.calls.map Call.lastId)[i]? = some c.lastId := by simp [hi]
  have hj' : (s.calls.map Call.lastId)[j]? = some c.lastId := by simp [hj, hlast]
  obtain ⟨hlt, -⟩ := List.getElem?_eq_some_iff.1 hi'
  exact (List.getElem?_inj hlt hids).1 (hi'.trans hj'.symm)

/-- They stay distinct if every new one is new. -/
theorem DistinctIds.step {e : Event ν} (hids : DistinctIds s)
    (hnew : ∀ id, e.callId = some id → ∀ c ∈ s.calls, ∀ hop ∈ c.chain, hop.callId ≠ id)
    (hs : step codec s e = some s') :
    DistinctIds s' := by
  unfold DistinctIds
  rcases (step_history hs).2 with hsame | ⟨c, id, he, hadd, hlast⟩
  · rw [hsame]
    exact hids
  · have hfresh : c.lastId ∉ s.calls.map Call.lastId := by
      intro hmem
      obtain ⟨c', hc', hsame⟩ := List.mem_map.1 hmem
      rw [hlast, Call.lastId, Option.map_eq_some_iff] at hsame
      obtain ⟨hop, hhop, hid⟩ := hsame
      exact hnew id he c' hc' hop (List.mem_of_getLast? hhop) hid
    rw [hadd, List.map_append, List.map_singleton, ← List.concat_eq_append]
    exact List.Nodup.concat hfresh hids

/-- Then a call whose chain begins with another's is within that one. -/
theorem within_of_chain_prefix (hinv : Inv codec s) (hids : DistinctIds s)
    (hp : Path s (some h') p') (hj : Handles s h' j c') (hi : s.calls[i]? = some c)
    (hpre : c.chain <+: p') : Within s i j := by
  obtain ⟨p, hop, hsent⟩ := hinv.calls c (List.mem_of_getElem? hi)
  have hlast : c.chain.getLast? = some hop := by
    rw [hsent.chain]
    simp
  generalize ho : some h' = o at hp
  induction hp generalizing h' j c' with
  | root => cases ho
  | handler hhandler hcall hlast' hp ih =>
    rename_i h'' j' c'' q hop'
    cases ho
    have hsame : j = j' := by simpa using hj.1.symm.trans hhandler
    subst hsame
    rcases List.prefix_concat_iff.1 hpre with heq | hpre
    · -- the chains are the same, and so are their last hops
      have hhop : hop = hop' := by
        rw [heq] at hlast
        simpa using hlast.symm
      have hij : i = j := hids.eq hi hcall (by rw [Call.lastId, Call.lastId, hlast, hlast', hhop])
      rw [hij]
      exact .self
    · -- the caller is a handler, as its path is not empty
      have hne : q ≠ [] := by
        rintro rfl
        rw [List.prefix_nil, hsent.chain] at hpre
        simp at hpre
      cases hcaller : c''.caller with
      | none =>
        rw [hcaller] at hp
        exact absurd (hp.eq_nil_iff.2 rfl) hne
      | some g =>
        rw [hcaller] at hp ih
        obtain ⟨m, d, hhandles⟩ := hp.handles
        exact .nested hcall hcaller hhandles.1 (ih hhandles hpre rfl)

end calls

/-! ## Handlers that fail -/

namespace Reporting

abbrev ExId := Nat

structure Object (ε : Type) where
  ex : ε
  /-- Says nothing while there is no trace. -/
  recordedBy : Option HandlerId

structure Report (ε : Type) where
  handler : HandlerId
  object : Object ε

structure State (ε : Type) where
  base : Trace.State
  heap : ExId → Option (Object ε)
  reports : List (Report ε)

def State.init : State ε := ⟨.init, fun _ => none, []⟩

def State.put (s : State ε) (x : ExId) (object : Object ε) : State ε :=
  { s with heap := Function.update s.heap x (some object) }

/-- The kind of the call a handler runs for. -/
def kindOf (s : Trace.State) (h : HandlerId) : Option Kind :=
    (s.handlers[h]?.bind fun i => s.calls[i]?).map Call.kind

variable (exceptions : Exceptions ε)

/-- The object after `attach`, which gave back `ex`, for a handler. -/
def Object.attached (object : Object ε) (h : HandlerId) (ex : ε) : Object ε :=
  match exceptions.trace object.ex with
  | some _ => object
  | none => ⟨ex, some h⟩

/-- A copy has the trace of the original, if that survives copying. -/
def Object.Copies (object : Object ε) (ex : ε) : Prop :=
  exceptions.trace ex = none ∨ exceptions.trace ex = exceptions.trace object.ex

instance (object : Object ε) (ex : ε) : Decidable (object.Copies exceptions ex) :=
  inferInstanceAs (Decidable (_ ∨ _))

/-- An exception that nothing has attached a trace to. -/
def created (s : State ε) (x : ExId) (ex : ε) : Option (State ε) :=
  match s.heap x with
  | some _ => none
  | none => if exceptions.trace ex = none then some (s.put x ⟨ex, none⟩) else none

def copied (s : State ε) (x x' : ExId) (ex : ε) : Option (State ε) :=
  match s.heap x, s.heap x' with
  | some object, none =>
    if object.Copies exceptions ex then some (s.put x' ⟨ex, object.recordedBy⟩) else none
  | _, _ => none

/-- The caller of report `n` gets object `x'` of the response. -/
def reraised (s : State ε) (n : Nat) (x' : ExId) (ex : ε) : Option (State ε) :=
  match s.reports[n]?, s.heap x' with
  | some report, none =>
    if kindOf s.base report.handler = some .rpc ∧ report.object.Copies exceptions ex then
      let object : Object ε := ⟨ex, report.object.recordedBy⟩
      some { s.put x' object with reports := s.reports ++ [⟨report.handler, object⟩] }
    else none
  | _, _ => none

/-- The innermost handler of task `k` raises object `x`. What `attach` raises itself is not
caught, and nothing is reported. -/
def fails (s : State ε) (k : TaskId) (x : ExId) (router : Settings) (process : Process)
    (tb : Option (List (Frame × Nat))) :
    Option (State ε) :=
  match s.base.tasks k, s.heap x, finish s.base k with
  | some ⟨context, activation :: _, _⟩, some object, some base =>
    match attach exceptions object.ex tb router process context with
    | .ok ex =>
      let object := object.attached exceptions activation.handler ex
      some { s.put x object with base, reports := s.reports ++ [⟨activation.handler, object⟩] }
    | .error _ => some { s with base }
  | _, _, _ => none

inductive Event (ν ε : Type)
  | base (e : Trace.Event ν)
  | created (x : ExId) (ex : ε)
  | copied (x x' : ExId) (ex : ε)
  | fails (k : TaskId) (x : ExId) (router : Settings) (process : Process)
    (tb : Option (List (Frame × Nat)))
  | reraised (n : Nat) (x' : ExId) (ex : ε)

def step (codec : Settings → Codec ν ε) (s : State ε) : Event ν ε → Option (State ε)
  | .base e => (Trace.step codec s.base e).map fun base => { s with base }
  | .created x ex => created exceptions s x ex
  | .copied x x' ex => copied exceptions s x x' ex
  | .fails k x router process tb => fails exceptions s k x router process tb
  | .reraised n x' ex => reraised exceptions s n x' ex

/-! ## What reports should show, and when they do -/

/-- The trace of a report begins with the chain of the call that reports it. -/
def Report.Good (s : Trace.State) (report : Report ε) : Prop :=
  ∀ t, exceptions.trace report.object.ex = some t → ∃ i c, Handles s report.handler i c ∧
    c.chain <+: t.hops

def Good (s : State ε) : Prop := ∀ report ∈ s.reports, report.Good exceptions s.base

/-- What `attach` takes for granted: a trace that is there already is that of this call or of
one within it. -/
def Object.Own (s : Trace.State) (h : HandlerId) (object : Object ε) : Prop :=
  exceptions.trace object.ex = none ∨
    ∃ h' i j c c', object.recordedBy = some h' ∧ Handles s h i c ∧ Handles s h' j c' ∧ Within s i j

/-- Whenever a handler fails, it fails with such an object. -/
def OwnTrace (s : State ε) (e : Event ν ε) (_ : State ε) : Prop :=
  match e with
  | .fails k x _ _ _ => ∀ context activation stack starter object,
      s.base.tasks k = some ⟨context, activation :: stack, starter⟩ → s.heap x = some object →
      object.Own exceptions s.base activation.handler
  | _ => True

/-- Every call gets an id that no call before it has (`uuid.uuid4`). -/
def NewId (s : State ε) (e : Event ν ε) (_ : State ε) : Prop :=
  match e with
  | .base e => ∀ id, e.callId = some id → ∀ c ∈ s.base.calls, ∀ hop ∈ c.chain, hop.callId ≠ id
  | _ => True

/-- An attribute that was set is there. -/
def KeepsAttribute : Prop := ∀ ex t ex', exceptions.setTrace ex t = .done ex' →
    exceptions.trace ex' = some t

/-! ## The invariant -/

/-- A trace is the path to the handler it was recorded for. -/
def Object.Recorded (s : Trace.State) (object : Object ε) : Prop :=
  ∀ t, exceptions.trace object.ex = some t → ∃ h, object.recordedBy = some h ∧ Path s
    (some h) t.hops

structure Inv (codec : Settings → Codec ν ε) (s : State ε) : Prop where
  base : Trace.Inv codec s.base
  heap : ∀ x object, s.heap x = some object → object.Recorded exceptions s.base
  reports : ∀ report ∈ s.reports, report.object.Recorded exceptions s.base

variable {exceptions} {s s' : State ε} {k : TaskId} {x : ExId} {router : Settings}
  {process : Process} {tb : Option (List (Frame × Nat))} {h : HandlerId} {object : Object ε}

theorem Object.Recorded.mono {b b' : Trace.State} (he : Extends b b')
    (hr : object.Recorded exceptions b) :
    object.Recorded exceptions b' := by
  intro t ht
  obtain ⟨h, hby, hpath⟩ := hr t ht
  exact ⟨h, hby, hpath.mono he⟩

theorem Object.Recorded.copy {b : Trace.State} {ex : ε} (hr : object.Recorded exceptions b)
    (hc : object.Copies exceptions ex) :
    Object.Recorded exceptions b ⟨ex, object.recordedBy⟩ := by
  intro t ht
  rcases hc with hnone | hsame
  · rw [hnone] at ht
    cases ht
  · exact hr t (hsame ▸ ht)

theorem Report.Good.mono {b b' : Trace.State} {report : Report ε} (he : Extends b b')
    (hg : report.Good exceptions b) :
    report.Good exceptions b' := by
  intro t ht
  obtain ⟨i, c, hh, hpre⟩ := hg t ht
  exact ⟨i, c, hh.mono he, hpre⟩

theorem attach_ok (hkeeps : KeepsAttribute exceptions) {ex ex' : ε} {context : Context}
    (ha : attach exceptions ex tb router process context = .ok ex')
    (hnone : exceptions.trace ex = none) {t : AtaskTrace} (ht : exceptions.trace ex' = some t) :
    t.hops = context.current := by
  unfold attach at ha
  rw [hnone] at ha
  simp only at ha
  split at ha
  · rename_i ex'' hset
    cases ha
    rw [hkeeps _ _ _ hset] at ht
    cases ht
    rfl
  · cases ha
    rw [hnone] at ht
    cases ht
  · cases ha

/-- What a failing handler does: it ends, and reports unless `attach` raises. -/
theorem fails_cases (hs : fails exceptions s k x router process tb = some s') :
    ∃ context activation stack starter object base,
    s.base.tasks k = some ⟨context, activation :: stack, starter⟩ ∧
      s.heap x = some object ∧ finish s.base k = some base ∧
      ((∃ ex, attach exceptions object.ex tb router process context = .ok ex ∧
          s' = { s.put x (object.attached exceptions activation.handler ex) with
            base, reports := s.reports ++
              [⟨activation.handler, object.attached exceptions activation.handler ex⟩] }) ∨
        ((∃ ex, attach exceptions object.ex tb router process context = .error ex) ∧
          s' = { s with base })) := by
  unfold fails at hs
  split at hs
  · rename_i context activation stack starter object base hk hx hbase
    refine ⟨context, activation, stack, starter, object, base, hk, hx, hbase, ?_⟩
    split at hs
    · rename_i ex hattach
      exact Or.inl ⟨ex, hattach, (Option.some.inj hs).symm⟩
    · rename_i ex hattach
      exact Or.inr ⟨⟨ex, hattach⟩, (Option.some.inj hs).symm⟩
  · cases hs

theorem finish_history {b b' : Trace.State} (hf : finish b k = some b') :
    Extends b b' ∧ Extends b' b := by
  unfold finish at hf
  split at hf
  · cases hf; exact ⟨Extends.refl b, Extends.refl b⟩
  · cases hf

/-- After `attach` the trace is the path to the handler that recorded it. -/
theorem Object.Recorded.attached (hkeeps : KeepsAttribute exceptions) {b : Trace.State}
    {context : Context} {ex : ε} (hr : object.Recorded exceptions b)
    (hcontext : Path b (some h) context.current)
    (ha : attach exceptions object.ex tb router process context = .ok ex) :
    (object.attached exceptions h ex).Recorded exceptions b := by
  unfold Object.attached
  split
  · exact hr
  · rename_i hnone
    intro t ht
    refine ⟨h, rfl, ?_⟩
    rw [attach_ok hkeeps ha hnone ht]
    exact hcontext

/-- A step that extends the history and adds what is recorded. -/
theorem Inv.keep (hi : Inv exceptions codec s) (hbase : Trace.Inv codec s'.base)
    (he : Extends s.base s'.base)
    (hheap : ∀ x object, s'.heap x = some object → s.heap x = some object ∨
      object.Recorded exceptions s'.base)
    (hreports : ∀ report ∈ s'.reports, report ∈ s.reports ∨
      report.object.Recorded exceptions s'.base) :
    Inv exceptions codec s' := by
  refine ⟨hbase, fun x object hx => ?_, fun report hr => ?_⟩
  · rcases hheap x object hx with hold | hnew
    · exact (hi.heap x object hold).mono he
    · exact hnew
  · rcases hreports report hr with hold | hnew
    · exact (hi.reports report hold).mono he
    · exact hnew

theorem heap_put {object' : Object ε} {x' : ExId} (hx : (s.put x object).heap x' = some object') :
    s.heap x' = some object' ∨ object' = object := by
  rcases Dict.lookup_update hx with ⟨-, rfl⟩ | ⟨-, hold⟩
  · exact Or.inr rfl
  · exact Or.inl hold

theorem mem_concat {α : Type} {l : List α} {a b : α} (hb : b ∈ l ++ [a]) : b ∈ l ∨ b = a := by
  simpa using hb

theorem Inv.fails (hkeeps : KeepsAttribute exceptions) (hcodec : RoundTrips codec)
    (hi : Inv exceptions codec s) (hs : fails exceptions s k x router process tb = some s') :
    Inv exceptions codec s' := by
  obtain ⟨context, activation, stack, starter, object, base, hk, hx, hbase, hcase⟩ := fails_cases hs
  have hbi : Trace.Inv codec base := Trace.Inv.step hcodec s.base (.finish k) base hi.base hbase
  have he : Extends s.base base := (finish_history hbase).1
  rcases hcase with ⟨ex, hattach, rfl⟩ | ⟨-, rfl⟩
  · have hcontext : Path s.base (some activation.handler) context.current := (hi.base.owner hk).path
    have hnew := ((hi.heap x object hx).attached hkeeps hcontext hattach).mono he
    refine hi.keep hbi he (fun x' object' hx' => ?_) (fun report hr => ?_)
    · rcases heap_put hx' with hold | rfl
      · exact Or.inl hold
      · exact Or.inr hnew
    · rcases mem_concat hr with hold | rfl
      · exact Or.inl hold
      · exact Or.inr hnew
  · exact hi.keep hbi he (fun x' object' hx' => Or.inl hx') (fun report hr => Or.inl hr)

theorem created_cases {ex : ε} (hs : created exceptions s x ex = some s') :
    exceptions.trace ex = none ∧ s' = s.put x ⟨ex, none⟩ := by
  unfold created at hs
  split at hs
  · cases hs
  · split at hs
    · rename_i hnone
      exact ⟨hnone, (Option.some.inj hs).symm⟩
    · cases hs

theorem copied_cases {x' : ExId} {ex : ε} (hs : copied exceptions s x x' ex = some s') :
    ∃ object, s.heap x = some object ∧ object.Copies exceptions ex ∧
    s' = s.put x' ⟨ex, object.recordedBy⟩ := by
  unfold copied at hs
  split at hs
  · rename_i object hx _
    split at hs
    · rename_i hcopy
      exact ⟨object, hx, hcopy, (Option.some.inj hs).symm⟩
    · cases hs
  · cases hs

theorem reraised_cases {n : Nat} {ex : ε} (hs : reraised exceptions s n x ex = some s') :
    ∃ report ∈ s.reports, report.object.Copies exceptions ex ∧
      s' = { s.put x ⟨ex, report.object.recordedBy⟩ with
        reports := s.reports ++ [⟨report.handler, ⟨ex, report.object.recordedBy⟩⟩] } := by
  unfold reraised at hs
  split at hs
  · rename_i report hn _
    split at hs
    · rename_i hcond
      exact ⟨report, List.mem_of_getElem? hn, hcond.2, (Option.some.inj hs).symm⟩
    · cases hs
  · cases hs

theorem Inv.step (hkeeps : KeepsAttribute exceptions) (hcodec : RoundTrips codec) {e : Event ν ε}
    (hi : Inv exceptions codec s) (hs : step exceptions codec s e = some s') :
    Inv exceptions codec s' := by
  cases e with
  | base e =>
    obtain ⟨base, hbase, rfl⟩ := Option.map_eq_some_iff.1 hs
    exact hi.keep (Trace.Inv.step hcodec s.base e base hi.base hbase) (extends_of_step hbase)
      (fun _ _ hx => Or.inl hx)
      (fun _ hr => Or.inl hr)
  | created x ex =>
    obtain ⟨hnone, rfl⟩ := created_cases hs
    refine hi.keep hi.base (Extends.refl s.base) (fun x' object' hx' => ?_) (fun _ hr => Or.inl hr)
    rcases heap_put hx' with hold | rfl
    · exact Or.inl hold
    · refine Or.inr fun t ht => ?_
      rw [hnone] at ht
      cases ht
  | copied x x' ex =>
    obtain ⟨object, hx, hcopy, rfl⟩ := copied_cases hs
    refine hi.keep hi.base (Extends.refl s.base) (fun x'' object' hx' => ?_) (fun _ hr => Or.inl hr)
    rcases heap_put hx' with hold | rfl
    · exact Or.inl hold
    · exact Or.inr ((hi.heap x object hx).copy hcopy)
  | fails k x router process tb => exact hi.fails hkeeps hcodec hs
  | reraised n x' ex =>
    obtain ⟨report, hr, hcopy, rfl⟩ := reraised_cases hs
    have hnew := (hi.reports report hr).copy hcopy
    refine hi.keep hi.base (Extends.refl s.base) (fun x'' object' hx' => ?_) (fun report' hr' => ?_)
    · rcases heap_put hx' with hold | rfl
      · exact Or.inl hold
      · exact Or.inr hnew
    · rcases mem_concat hr' with hold | rfl
      · exact Or.inl hold
      · exact Or.inr hnew

/-! ## When a report is good -/

section report

variable {b : Trace.State} {context : Context} {ex : ε}

/-- A trace recorded for this call or one within it begins with this call's chain. -/
theorem good_of_own (hkeeps : KeepsAttribute exceptions) (hb : Trace.Inv codec b)
    (hr : object.Recorded exceptions b) (hcontext : Path b (some h) context.current)
    (ha : attach exceptions object.ex tb router process context = .ok ex)
    (hown : object.Own exceptions b h) :
    Report.Good exceptions b ⟨h, object.attached exceptions h ex⟩ := by
  intro t ht
  unfold Object.attached at ht
  split at ht
  · rename_i t' hsome
    rcases hown with hnone | ⟨h', i, j, c, c', hby, hh, hh', hw⟩
    · rw [hnone] at hsome
      cases hsome
    · obtain ⟨h'', hby', hpath⟩ := hr t ht
      rw [hby] at hby'
      cases hby'
      rw [hh'.chain_eq hb hpath]
      exact ⟨i, c, hh, hw.chain_prefix hb hh.2 hh'.2⟩
  · rename_i hnone
    obtain ⟨i, c, hh⟩ := hcontext.handles
    have hhops : t.hops = c.chain := (attach_ok hkeeps ha hnone ht).trans (hh.chain_eq hb hcontext)
    exact ⟨i, c, hh, hhops ▸ List.prefix_rfl⟩

/-- And it is recorded for one of these if it does. -/
theorem own_of_good (hb : Trace.Inv codec b) (hids : DistinctIds b)
    (hr : object.Recorded exceptions b)
    (hg : Report.Good exceptions b ⟨h, object.attached exceptions h ex⟩) :
    object.Own exceptions b h := by
  cases htrace : exceptions.trace object.ex with
  | none => exact Or.inl htrace
  | some t =>
    have hsame : object.attached exceptions h ex = object := by simp only [Object.attached, htrace]
    rw [hsame] at hg
    obtain ⟨i, c, hh, hpre⟩ := hg t htrace
    obtain ⟨h', hby, hpath⟩ := hr t htrace
    obtain ⟨j, c', hh'⟩ := hpath.handles
    exact Or.inr ⟨h', i, j, c, c', hby, hh, hh', within_of_chain_prefix hb hids hpath hh' hh.2 hpre⟩

end report

theorem Good.keep (hg : Good exceptions s) (he : Extends s.base s'.base)
    (hreports : ∀ report ∈ s'.reports, report ∈ s.reports ∨ report.Good exceptions s'.base) :
    Good exceptions s' := by
  intro report hr
  rcases hreports report hr with hold | hnew
  · exact (hg report hold).mono he
  · exact hnew

/-- **One step**: what it reports is good if the failing handler's object is its own. -/
theorem Good.step (hkeeps : KeepsAttribute exceptions) {e : Event ν ε} (hi : Inv exceptions codec s)
    (hg : Good exceptions s) (hown : OwnTrace exceptions s e s')
    (hs : step exceptions codec s e = some s') : Good exceptions s' := by
  cases e with
  | base e =>
    obtain ⟨base, hbase, rfl⟩ := Option.map_eq_some_iff.1 hs
    exact hg.keep (extends_of_step hbase) fun _ hr => Or.inl hr
  | created x ex =>
    obtain ⟨-, rfl⟩ := created_cases hs
    exact hg
  | copied x x' ex =>
    obtain ⟨object, -, -, rfl⟩ := copied_cases hs
    exact hg
  | fails k x router process tb =>
    obtain ⟨context, activation, stack, starter, object, base, hk, hx, hbase, hcase⟩ :=
      fails_cases hs
    have he : Extends s.base base := (finish_history hbase).1
    rcases hcase with ⟨ex, hattach, rfl⟩ | ⟨-, rfl⟩
    · have hcontext : Path s.base (some activation.handler) context.current :=
        (hi.base.owner hk).path
      have hobject := hown context activation stack starter object hk hx
      have hnew := good_of_own hkeeps hi.base (hi.heap x object hx) hcontext hattach hobject
      refine hg.keep he fun report hr => ?_
      rcases mem_concat hr with hold | rfl
      · exact Or.inl hold
      · exact Or.inr (hnew.mono he)
    · exact hg.keep he fun _ hr => Or.inl hr
  | reraised n x' ex =>
    obtain ⟨report, hr, hcopy, rfl⟩ := reraised_cases hs
    refine hg.keep (Extends.refl s.base) fun report' hr' => ?_
    rcases mem_concat hr' with hold | rfl
    · exact Or.inl hold
    · refine Or.inr fun t ht => ?_
      rcases hcopy with hnone | hsame
      · rw [hnone] at ht
        cases ht
      · exact hg report hr t (hsame ▸ ht)

/-- **One step back**: if what it reports is good, the failing handler's object was its own. -/
theorem ownTrace_of_good {e : Event ν ε} (hi : Inv exceptions codec s) (hids : DistinctIds s.base)
    (hs : step exceptions codec s e = some s') (hg : Good exceptions s') :
    OwnTrace exceptions s e s' := by
  cases e with
  | fails k x router process tb =>
    intro context activation stack starter object hk hx
    obtain ⟨context', activation', stack', starter', object', base, hk', hx', hbase, hcase⟩ :=
      fails_cases hs
    rw [hk] at hk'
    cases hk'
    rw [hx] at hx'
    cases hx'
    rcases hcase with ⟨ex, hattach, rfl⟩ | ⟨⟨ex, hattach⟩, rfl⟩
    · have hnew : Report.Good exceptions base
          ⟨activation.handler, object.attached exceptions activation.handler ex⟩ :=
        hg _ (List.mem_append_right _ List.mem_cons_self)
      exact own_of_good hi.base hids (hi.heap x object hx) (hnew.mono (finish_history hbase).2)
    · -- `attach` raises only where there is no trace
      cases htrace : exceptions.trace object.ex with
      | none => exact Or.inl htrace
      | some t =>
        simp only [attach, htrace] at hattach
        cases hattach
  | base e => trivial
  | created x ex => trivial
  | copied x x' ex => trivial
  | reraised n x' ex => trivial

/-- Any other step than one of the calls' own leaves their history alone. -/
theorem distinctIds_step {e : Event ν ε} (hids : DistinctIds s.base) (hnew : NewId s e s')
    (hs : step exceptions codec s e = some s') : DistinctIds s'.base := by
  cases e with
  | base e =>
    obtain ⟨base, hbase, rfl⟩ := Option.map_eq_some_iff.1 hs
    exact hids.step hnew hbase
  | created x ex =>
    obtain ⟨-, rfl⟩ := created_cases hs
    exact hids
  | copied x x' ex =>
    obtain ⟨object, -, -, rfl⟩ := copied_cases hs
    exact hids
  | fails k x router process tb =>
    obtain ⟨context, activation, stack, starter, object, base, -, -, hbase, hcase⟩ := fails_cases hs
    have hfinish : Trace.step codec s.base (.finish k) = some base := hbase
    have hbids : DistinctIds base := hids.step (fun id he => by cases he) hfinish
    rcases hcase with ⟨ex, -, rfl⟩ | ⟨-, rfl⟩
    · exact hbids
    · exact hbids
  | reraised n x' ex =>
    obtain ⟨report, -, -, rfl⟩ := reraised_cases hs
    exact hids

theorem inv_init : Inv exceptions codec (State.init : State ε) where
  base := Trace.inv_init
  heap x object hx := by cases hx
  reports report hr := by cases hr

theorem good_init : Good exceptions (State.init : State ε) := fun report hr => by cases hr

/-- The reports are good after a step. -/
def GoodAfter (exceptions : Exceptions ε) (_ : State ε) (_ : Event ν ε) (s' : State ε) : Prop :=
    Good exceptions s'

/-- **Reports show their own call** in the runs in which `attach` guesses right, and in no
other where call ids are unique. -/
theorem reported_iff (hkeeps : KeepsAttribute exceptions) (hcodec : RoundTrips codec)
    (es : List (Event ν ε)) :
    (Along (step exceptions codec) (OwnTrace exceptions) .init es →
      Along (step exceptions codec) (GoodAfter exceptions) .init es) ∧
    (Along (step exceptions codec) NewId .init es →
      Along (step exceptions codec) (GoodAfter exceptions) .init es →
      Along (step exceptions codec) (OwnTrace exceptions) .init es) := by
  constructor
  · intro hown
    -- the reports so far are part of the invariant
    have hkeep : ∀ (s : State ε) (e : Event ν ε) (s' : State ε), Inv exceptions codec s ∧
      Good exceptions s →
        OwnTrace exceptions s e s' → step exceptions codec s e = some s' → Inv exceptions codec s' ∧
          Good exceptions s' := by
      rintro s e s' ⟨hi, hg⟩ ho hs
      exact ⟨hi.step hkeeps hcodec hs, hg.step hkeeps hi ho hs⟩
    have halong := Along.from_invariant hkeep ⟨inv_init, good_init⟩ hown
    refine halong.mono fun s e s' h => ?_
    obtain ⟨hI, ho, hs⟩ := h
    exact (hkeep s e s' hI ho hs).2
  · intro hnew hgood
    have hids : DistinctIds (State.init : State ε).base := List.nodup_nil
    have hkeep : ∀ (s : State ε) (e : Event ν ε) (s' : State ε), Inv exceptions codec s ∧
      DistinctIds s.base →
        NewId s e s' ∧ GoodAfter exceptions s e s' → step exceptions codec s e = some s' →
        Inv exceptions codec s' ∧ DistinctIds s'.base := by
      rintro s e s' ⟨hi, hids⟩ ⟨hn, -⟩ hs
      exact ⟨hi.step hkeeps hcodec hs, distinctIds_step hids hn hs⟩
    have halong := Along.from_invariant hkeep ⟨inv_init, hids⟩ (hnew.and hgood)
    refine halong.mono fun s e s' h => ?_
    obtain ⟨⟨hi, hids⟩, ⟨-, hg⟩, hs⟩ := h
    exact ownTrace_of_good hi hids hs hg

/-! ## One exception, two calls -/

/-- An exception that takes any attribute. -/
def demoExceptions : Exceptions (Option AtaskTrace) :=
    ⟨id, fun _ t => .done (some t), fun _ => "ValueError", fun _ => .ok "x"⟩

theorem demoExceptions_keepsAttribute : KeepsAttribute demoExceptions := by
  intro ex t ex' h
  cases h
  rfl

def secondHop : AtaskHop :=
  newHop (demoRouter "a") demoProcess .empty { demoSite with callId := "c1" } "m.g" "default" .rpc

/-- Two calls from outside any handler are all that this codec knows. -/
def pairCodec : Codec Unit (Option AtaskTrace) := knowing [[demoHop], [secondHop]]

/-- Two calls are handled in tasks of their own, and both handlers raise the exception that
the task they share ended with. -/
def sharedException : List (Event Unit (Option AtaskTrace)) :=
  [.base (.begin 0), .base (.call 0 (demoRouter "a") demoProcess demoSite "m.f" .rpc [] .empty),
    .base (.call 0 (demoRouter "a") demoProcess { demoSite with callId := "c1" } "m.g" .rpc
      [] .empty),
    .base (.begin 1), .base (.deliver 1 0 (demoRouter "b") 7), .base (.begin 2),
      .base (.deliver 2 1 (demoRouter "b") 8),
    .created 0 none, .fails 1 0 (demoRouter "b") demoProcess none,
      .fails 2 0 (demoRouter "b") demoProcess none]

/-- The second of them reports the path of the first. -/
theorem shared_exception_misreported :
    KeepsAttribute demoExceptions ∧ RoundTrips (fun _ => pairCodec) ∧
      ∃ s, run (step demoExceptions fun _ => pairCodec) .init sharedException = some s ∧
      ¬ Good demoExceptions s := by
  refine ⟨demoExceptions_keepsAttribute, knowing_roundTrips _, _, rfl, fun hg => ?_⟩
  obtain ⟨i, c, ⟨hi, hc⟩, hpre⟩ := hg _ (List.mem_cons_of_mem _ List.mem_cons_self) _ rfl
  cases hi
  cases hc
  exact absurd hpre (by decide)

/-- Up to there, with one handler that has failed, it is right. -/
theorem reported_iff_demo :
    Along (step demoExceptions fun _ => pairCodec) (GoodAfter demoExceptions) .init
      (sharedException.take 9) := by
  refine (reported_iff demoExceptions_keepsAttribute (knowing_roundTrips _) _).1 ?_
  iterate 8 refine Along.cons rfl trivial ?_
  refine Along.cons rfl ?_ trivial
  intro context activation stack starter object hk hx
  cases hx
  exact Or.inl rfl

end Reporting

end Atasks.Trace
