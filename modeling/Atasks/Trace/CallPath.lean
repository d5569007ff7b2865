import Atasks.Codec
import Atasks.Lib.Machine
/-!
# The trace chain is the call path

Any number of asyncio tasks on any number of hosts call stubs and refs of any kind and run
handlers for the messages sent, in any interleaving. A message may be handled by any task,
any number of times: the caller's own (`LoopbackTransport`), one that was started for it
(`asyncio.wait_for`, a consumer of the broker), and a broadcast in many. A handler ends
whenever it likes, returning, raising or cancelled; `_call_coro` and its caller then put both
context variables back.

| here | there |
| --- | --- |
| `Activation` | one execution of `_on_request`, `_on_event` or `_on_broadcast` from `trace.enter` on, with its two tokens |
| `Task`       | an asyncio task: its context, the handlers it is in, innermost first |
| `call`       | a decorator's stub (`router.py:482-487` and its siblings) or a lightweight ref (`refs.py:55-107`) up to the publication |
| `deliver`    | the callback of a subscription up to `await coro(...)` (`router.py:345-354, 447-449`) |
| `finish`     | the two `finally` clauses (`router.py:357-358, 453-454`) |

`calls` and `handlers` are the history: who made which call, and which call a handler runs
for. `Path` reads the call path off them, without looking at any context.
-/

namespace Atasks.Trace

open Machine

abbrev TaskId := Nat

abbrev CallId := Nat

abbrev HandlerId := Nat

/-- A call that was sent. -/
structure Call where
  caller : Option HandlerId
  router : Settings
  name : String
  kind : Kind
  chain : List AtaskHop
  content : Bytes

structure Activation where
  handler : HandlerId
  token : List AtaskHop
  frameToken : Option FrameId
  /-- The context the handler was entered in. -/
  found : Context

structure Task where
  context : Context
  stack : List Activation
  /-- The handler whose code started this task. -/
  starter : Option HandlerId

structure State where
  tasks : TaskId → Option Task
  calls : List Call
  /-- The call each handler runs for. -/
  handlers : List CallId

/-- The handler whose code runs on top of this stack. -/
def ownerOf (starter : Option HandlerId) : List Activation → Option HandlerId
  | [] => starter
  | activation :: _ => some activation.handler

/-- The handler whose code the task is running. -/
def Task.owner (task : Task) : Option HandlerId := ownerOf task.starter task.stack

def State.init : State := ⟨fun _ => none, [], []⟩

def State.setTask (s : State) (k : TaskId) (task : Task) : State :=
    { s with tasks := Function.update s.tasks k (some task) }

variable {ν ε : Type}

/-- A program starts, or a library's own task, outside any handler. -/
def begin (s : State) (k : TaskId) : Option State :=
  match s.tasks k with
  | some _ => none
  | none => some (s.setTask k ⟨.empty, [], none⟩)

/-- `create_task`: the new task gets a copy of the context. -/
def spawn (s : State) (k k' : TaskId) : Option State :=
  match s.tasks k, s.tasks k' with
  | some task, none => some (s.setTask k' ⟨task.context, [], task.owner⟩)
  | _, _ => none

/-- A stub or a ref is awaited. Nothing is sent when the chain is full or the content cannot be
encoded. -/
def call (codec : Settings → Codec ν ε) (s : State) (k : TaskId) (router : Settings)
    (process : Process) (site : CallSite)
    (name : String) (kind : Kind) (argv : List ν) (kwargs : Dict String ν) : Option State :=
  match s.tasks k with
  | none => none
  | some task =>
    match pushHop router process task.context site name router.nspace kind with
    | .error _ => some s
    | .ok chain =>
      match (codec router).encode (.call argv kwargs chain) with
      | .ok (some content) =>
        some { s with calls := s.calls ++ [⟨task.owner, router, name, kind, chain, content⟩] }
      | _ => some s

/-- Task `k` runs the handler of call `i`, in `_call_coro` frame `frame`. -/
def deliver (codec : Settings → Codec ν ε) (s : State) (k : TaskId) (i : CallId) (router : Settings)
    (frame : FrameId) :
    Option State :=
  match s.tasks k, s.calls[i]? with
  | some task, some call =>
    match (codec router).decode (some call.content) with
    | .ok (some (.call _ _ traceChain)) =>
      let (token, context) := enter task.context traceChain
      let (frameToken, context) := enterFrame context frame
      let activation : Activation := ⟨s.handlers.length, token, frameToken, task.context⟩
      some { s.setTask k { task with context, stack := activation :: task.stack } with
        handlers := s.handlers ++ [i] }
    | _ => none
  | _, _ => none

/-- The innermost handler of task `k` ends. -/
def finish (s : State) (k : TaskId) : Option State :=
  match s.tasks k with
  | some ⟨context, activation :: stack, starter⟩ =>
    some (s.setTask k ⟨leave (leaveFrame context activation.frameToken) activation.token,
      stack, starter⟩)
  | _ => none

inductive Event (ν : Type)
  | begin (k : TaskId)
  | spawn (k k' : TaskId)
  | call (k : TaskId) (router : Settings) (process : Process) (site : CallSite) (name : String)
    (kind : Kind) (argv : List ν)
      (kwargs : Dict String ν)
  | deliver (k : TaskId) (i : CallId) (router : Settings) (frame : FrameId)
  | finish (k : TaskId)

def step (codec : Settings → Codec ν ε) (s : State) : Event ν → Option State
  | .begin k => begin s k
  | .spawn k k' => spawn s k k'
  | .call k router process site name kind argv kwargs =>
    call codec s k router process site name kind argv kwargs
  | .deliver k i router frame => deliver codec s k i router frame
  | .finish k => finish s k

/-! ## Call paths -/

/-- The hops of the calls from the root to a handler (`none`: to code no handler runs). -/
inductive Path (s : State) : Option HandlerId → List AtaskHop → Prop
  | root : Path s none []
  | handler {h : HandlerId} {i : CallId} {call : Call} {p : List AtaskHop} {hop : AtaskHop}
    (hi : s.handlers[h]? = some i)
      (hcall : s.calls[i]? = some call) (hlast : call.chain.getLast? = some hop)
        (hp : Path s call.caller p) :
      Path s (some h) (p ++ [hop])

variable {s s' : State} {k : TaskId} {h : Option HandlerId} {p p' : List AtaskHop}

theorem Path.unique (hp : Path s h p) (hp' : Path s h p') : p = p' := by
  induction hp generalizing p' with
  | root => cases hp'; rfl
  | handler hi hcall hlast _ ih =>
    cases hp' with
    | handler hi' hcall' hlast' hp' =>
      rw [hi] at hi'
      cases hi'
      rw [hcall] at hcall'
      cases hcall'
      rw [hlast] at hlast'
      cases hlast'
      rw [ih hp']

theorem Path.eq_nil_iff (hp : Path s h p) : p = [] ↔ h = none := by
  cases hp <;> simp

/-- The history grows. -/
def Extends (s s' : State) : Prop := s.calls <+: s'.calls ∧ s.handlers <+: s'.handlers

theorem getElem?_of_extends {α : Type} {l l' : List α} {i : Nat} {a : α} (h : l <+: l')
    (ha : l[i]? = some a) :
    l'[i]? = some a := by
  obtain ⟨m, rfl⟩ := h
  obtain ⟨hi, -⟩ := List.getElem?_eq_some_iff.1 ha
  rw [List.getElem?_append_left hi, ha]

theorem Path.mono (he : Extends s s') (hp : Path s h p) : Path s' h p := by
  induction hp with
  | root => exact .root
  | handler hi hcall hlast _ ih =>
    exact .handler (getElem?_of_extends he.2 hi) (getElem?_of_extends he.1 hcall) hlast ih

/-! ## The invariant -/

/-- What a context says while `owner` runs. -/
structure Coherent (s : State) (context : Context) (owner : Option HandlerId) : Prop where
  path : Path s owner context.current
  entry : context.entryFrame = none ↔ owner = none

/-- The context is right, and so is the one each handler will go back to. -/
def StackOk (s : State) (starter : Option HandlerId) : List Activation → Context → Prop
  | [], context => Coherent s context starter
  | activation :: stack, context =>
    Coherent s context (some activation.handler) ∧ activation.token = activation.found.current ∧
      activation.frameToken = activation.found.entryFrame ∧ StackOk s starter stack activation.found

/-- A call goes out with the caller's chain and one hop of its own, within the router's limit. -/
structure Sent (codec : Settings → Codec ν ε) (s : State) (call : Call) (p : List AtaskHop)
    (hop : AtaskHop) : Prop where
  path : Path s call.caller p
  chain : call.chain = p ++ [hop]
  content : ∃ argv kwargs, (codec call.router).encode (.call argv kwargs call.chain) =
    .ok (some call.content)
  depth : (call.chain.length : Int) ≤ call.router.maxTraceDepth
  seq : hop.seq = p.length
  isRoot : hop.isRoot = true ↔ p = []
  task : hop.task = call.name
  nspace : hop.nspace = call.router.nspace
  kind : hop.kind = call.kind

structure Inv (codec : Settings → Codec ν ε) (s : State) : Prop where
  tasks : ∀ k task, s.tasks k = some task → StackOk s task.starter task.stack task.context
  calls : ∀ call ∈ s.calls, ∃ p hop, Sent codec s call p hop

/-- What one side of the wire encodes of a chain, the other side decodes. -/
def RoundTrips (codec : Settings → Codec ν ε) : Prop :=
  ∀ router router' argv kwargs chain content, (codec router).encode (.call argv kwargs chain) = .ok
    (some content) →
    ∃ argv' kwargs', (codec router').decode (some content) = .ok (some (.call argv' kwargs' chain))

variable {codec : Settings → Codec ν ε}

theorem Coherent.mono {context : Context} (he : Extends s s') (hc : Coherent s context h) :
    Coherent s' context h :=
  ⟨hc.path.mono he, hc.entry⟩

theorem StackOk.mono {starter : Option HandlerId} (he : Extends s s') :
    ∀ {stack : List Activation} {context : Context}, StackOk s starter stack context →
    StackOk s' starter stack context
  | [], _, hs => Coherent.mono he hs
  | _ :: _, _, ⟨hc, htoken, hframe, hs⟩ => ⟨hc.mono he, htoken, hframe, hs.mono he⟩

theorem StackOk.coherent {starter : Option HandlerId} :
    ∀ {stack : List Activation} {context : Context}, StackOk s starter stack context →
      Coherent s context (ownerOf starter stack)
  | [], _, hs => hs
  | _ :: _, _, hs => hs.1

theorem Sent.mono {call : Call} {hop : AtaskHop} (he : Extends s s')
    (hs : Sent codec s call p hop) : Sent codec s' call p hop :=
  { hs with path := hs.path.mono he }

theorem Inv.owner (hi : Inv codec s) {task : Task} (hk : s.tasks k = some task) :
    Coherent s task.context task.owner :=
  (hi.tasks k task hk).coherent

/-- A step that extends the history and changes one task, if any. -/
theorem Inv.update (hi : Inv codec s) {k : TaskId} {task : Task} (he : Extends s s')
    (htasks : s'.tasks = Function.update s.tasks k (some task))
    (htask : StackOk s' task.starter task.stack task.context)
    (hcalls : ∀ call ∈ s'.calls, call ∈ s.calls ∨ ∃ p hop, Sent codec s' call p hop) :
    Inv codec s' := by
  refine ⟨fun k' task' hk' => ?_, fun call hc => ?_⟩
  · rw [htasks] at hk'
    rcases Dict.lookup_update hk' with ⟨-, rfl⟩ | ⟨-, hold⟩
    · exact htask
    · exact (hi.tasks k' task' hold).mono he
  · rcases hcalls call hc with hold | hnew
    · obtain ⟨p, hop, hs⟩ := hi.calls call hold
      exact ⟨p, hop, hs.mono he⟩
    · exact hnew

theorem Extends.refl (s : State) : Extends s s := ⟨List.prefix_rfl, List.prefix_rfl⟩

theorem Inv.setTask (hi : Inv codec s) {task : Task}
    (htask : StackOk s task.starter task.stack task.context) :
    Inv codec (s.setTask k task) := by
  have he : Extends s (s.setTask k task) := Extends.refl s
  exact hi.update he rfl (htask.mono he) fun call hc => Or.inl hc

/-- **One call**: the hop is numbered by its caller's chain, and is a root exactly if that is empty.
-/
theorem Inv.call (hi : Inv codec s) {router : Settings} {process : Process} {site : CallSite}
    {name : String} {kind : Kind} {argv : List ν} {kwargs : Dict String ν}
    (hs : call codec s k router process site name kind argv kwargs = some s') :
    Inv codec s' := by
  unfold Trace.call at hs
  split at hs
  · cases hs
  · rename_i task hk
    split at hs
    · cases hs; exact hi
    · rename_i chain hpush
      split at hs
      · rename_i content hencode
        cases hs
        obtain ⟨hpath, hentry⟩ := hi.owner hk
        obtain ⟨hdepth, hchain⟩ := pushHop_ok hpush
        have he :
            Extends s
              { s with calls := s.calls ++ [⟨task.owner, router, name, kind, chain, content⟩] } :=
          ⟨List.prefix_append _ _, List.prefix_rfl⟩
        have hroot : (newHop router process task.context site name router.nspace kind).isRoot =
          true ↔
            task.context.current = [] := by
          rw [hpath.eq_nil_iff, ← hentry]
          simp [newHop]
        have hnew :
          Sent codec
          { s with calls := s.calls ++ [⟨task.owner, router, name, kind, chain, content⟩] }
            ⟨task.owner, router, name, kind, chain, content⟩ task.context.current
            (newHop router process task.context site name router.nspace kind) :=
          ⟨hpath.mono he, hchain, ⟨argv, kwargs, hencode⟩, hdepth, rfl, hroot, rfl, rfl, rfl⟩
        refine ⟨fun k' task' hk' => (hi.tasks k' task' hk').mono he, fun call hc => ?_⟩
        rcases List.mem_append.1 hc with hold | hc
        · obtain ⟨p, hop, hsent⟩ := hi.calls call hold
          exact ⟨p, hop, hsent.mono he⟩
        · cases List.mem_singleton.1 hc
          exact ⟨_, _, hnew⟩
      · cases hs; exact hi

/-- **One delivery**: the chain off the wire is the path to the new handler. -/
theorem Inv.deliver (hi : Inv codec s) (hcodec : RoundTrips codec) {i : CallId} {router : Settings}
    {frame : FrameId} (hs : deliver codec s k i router frame = some s') : Inv codec s' := by
  unfold Trace.deliver at hs
  split at hs
  · rename_i task call hk hcall
    obtain ⟨p, hop, hsent⟩ := hi.calls call (List.mem_of_getElem? hcall)
    obtain ⟨argv, kwargs, hencode⟩ := hsent.content
    obtain ⟨argv', kwargs', hdecode⟩ := hcodec _ router _ _ _ _ hencode
    rw [hdecode] at hs
    cases hs
    have he : ∀ task, Extends s { s.setTask k task with handlers := s.handlers ++ [i] } := fun _ =>
      ⟨List.prefix_rfl, List.prefix_append _ _⟩
    refine hi.update (he _) rfl ⟨⟨?_, ?_⟩, rfl, rfl, (hi.tasks k task hk).mono (he _)⟩
      fun call hc => Or.inl hc
    · show Path _ (some s.handlers.length) call.chain
      rw [hsent.chain]
      refine .handler (i := i) ?_ hcall ?_ (hsent.path.mono (he _))
      · exact List.getElem?_concat_length ..
      · rw [hsent.chain]; simp
    · simp
  · cases hs

/-- **The end of a handler**: the context is the one it was entered in. -/
theorem finish_context (hi : Inv codec s) (hs : finish s k = some s') :
    ∃ context activation stack starter, s.tasks k = some ⟨context, activation :: stack, starter⟩ ∧
      s' = s.setTask k ⟨activation.found, stack, starter⟩ := by
  unfold finish at hs
  split at hs
  · rename_i context activation stack starter hk
    cases hs
    obtain ⟨-, htoken, hframe, -⟩ := hi.tasks k _ hk
    refine ⟨context, activation, stack, starter, hk, ?_⟩
    simp only [leave, leaveFrame, htoken, hframe]
  · cases hs

theorem Inv.step (hcodec : RoundTrips codec) (s : State) (e : Event ν) (s' : State)
    (hi : Inv codec s) (hs : step codec s e = some s') : Inv codec s' := by
  cases e with
  | begin k =>
    simp only [Trace.step, begin] at hs
    split at hs
    · cases hs
    · cases hs
      exact hi.setTask ⟨.root, by simp [Context.empty]⟩
  | spawn k k' =>
    simp only [Trace.step, spawn] at hs
    split at hs
    · rename_i task hk _
      cases hs
      have howner := hi.owner hk
      exact hi.setTask howner
    · cases hs
  | call k router process site name kind argv kwargs => exact hi.call hs
  | deliver k i router frame => exact hi.deliver hcodec hs
  | finish k =>
    obtain ⟨context, activation, stack, starter, hk, rfl⟩ := finish_context hi hs
    exact hi.setTask (hi.tasks k _ hk).2.2.2

theorem inv_init :
    Inv codec State.init := ⟨fun k task hk => by simp [State.init] at hk,
      fun call hc => by cases hc⟩

/-- Hop `i` of a path is number `i`, and a root exactly at 0. -/
theorem Path.numbered (hi : Inv codec s) (hp : Path s h p) :
    ∀ i hop, p[i]? = some hop → hop.seq = i ∧ (hop.isRoot = true ↔ i = 0) := by
  induction hp with
  | root => intro i hop hget; cases hget
  | handler hhandler hcall hlast hp ih =>
    rename_i p hop
    intro i hop' hget
    obtain ⟨p', hop'', hsent⟩ := hi.calls _ (List.mem_of_getElem? hcall)
    cases hp.unique hsent.path
    have heq : hop'' = hop := by
      rw [hsent.chain] at hlast
      simpa using hlast
    subst heq
    rcases Nat.lt_or_ge i p.length with hlt | hge
    · rw [List.getElem?_append_left hlt] at hget
      exact ih i hop' hget
    · rw [List.getElem?_append_right hge] at hget
      obtain ⟨hi0, rfl⟩ : i = p.length ∧ hop'' = hop' := by
        obtain ⟨hlt, hval⟩ := List.getElem?_eq_some_iff.1 hget
        simp only [List.length_singleton, Nat.lt_one_iff] at hlt
        exact ⟨by omega, by simpa [hlt] using hval⟩
      subst hi0
      exact ⟨hsent.seq, hsent.isRoot.trans List.length_eq_zero_iff.symm⟩

/-- What a delivery puts on the stack. -/
theorem deliver_stack {i : CallId} {router : Settings} {frame : FrameId} {task task₁ : Task}
    (hk : s.tasks k = some task) (hs : deliver codec s k i router frame = some s')
    (hk₁ : s'.tasks k = some task₁) :
    ∃ activation, task₁.stack = activation :: task.stack ∧ activation.found = task.context := by
  unfold Trace.deliver at hs
  split at hs
  · rename_i task' call hk' hcall
    rw [hk] at hk'
    cases hk'
    split at hs
    · cases hs
      simp only [State.setTask, Function.update_self, Option.some.injEq] at hk₁
      subst hk₁
      exact ⟨_, rfl, rfl⟩
    · cases hs
  · cases hs

/-- Whatever happens between the entry into a handler and its end, the task is then back in
the context and in the handlers it was in before. -/
theorem finish_restores (hcodec : RoundTrips codec) (hi : Inv codec s) {i : CallId}
    {router : Settings} {frame : FrameId} {es : List (Event ν)} {s₁ s₂ s₃ : State}
    {task task₁ task₂ : Task} (hk : s.tasks k = some task)
    (hdeliver : step codec s (.deliver k i router frame) = some s₁) (hk₁ : s₁.tasks k = some task₁)
    (hrun : run (step codec) s₁ es = some s₂) (hk₂ : s₂.tasks k = some task₂)
    (hstack : task₂.stack = task₁.stack) (hfinish : step codec s₂ (.finish k) = some s₃) :
    ∃ task₃, s₃.tasks k = some task₃ ∧ task₃.context = task.context ∧ task₃.stack = task.stack := by
  have hi₂ : Inv codec s₂ := run_invariant (Inv.step hcodec) es hrun
    (Inv.step hcodec _ _ _ hi hdeliver)
  obtain ⟨activation, hstack₁, hfound⟩ := deliver_stack hk hdeliver hk₁
  obtain ⟨context, activation', stack, starter, hk₂', rfl⟩ := finish_context hi₂ hfinish
  rw [hk₂] at hk₂'
  cases hk₂'
  obtain ⟨rfl, rfl⟩ := List.cons.inj (hstack.trans hstack₁)
  exact ⟨_, Function.update_self .., hfound, rfl⟩

/-- **The trace chain is the call path.** -/
theorem trace_is_call_path (hcodec : RoundTrips codec) {s : State}
    (hreach : Reachable (step codec) State.init s) :
    (∀ k task, s.tasks k = some task → ∀ p, Path s task.owner p ↔ p = task.context.current) ∧
    (∀ h p, Path s h p → ∀ i hop, p[i]? = some hop → hop.seq = i ∧ (hop.isRoot = true ↔ i = 0)) ∧
    (∀ call ∈ s.calls, ∃ p hop, Path s call.caller p ∧ call.chain = p ++ [hop] ∧
      hop.task = call.name ∧ hop.nspace = call.router.nspace ∧ hop.kind = call.kind ∧
      (∃ argv kwargs, (codec call.router).encode (.call argv kwargs call.chain) = .ok
        (some call.content)) ∧
      (call.chain.length : Int) ≤ call.router.maxTraceDepth) ∧
    (∀ k i router frame es s₁ s₂ s₃ task task₁ task₂, s.tasks k = some task →
      step codec s (.deliver k i router frame) = some s₁ → s₁.tasks k = some task₁ →
      run (step codec) s₁ es = some s₂ → s₂.tasks k = some task₂ → task₂.stack = task₁.stack →
      step codec s₂ (.finish k) = some s₃ →
      ∃ task₃, s₃.tasks k = some task₃ ∧ task₃.context = task.context ∧
      task₃.stack = task.stack) := by
  have hi : Inv codec s := hreach.invariant (Inv.step hcodec) inv_init
  refine ⟨fun k task hk p => ?_, fun h p hp => hp.numbered hi, fun call hc => ?_,
    fun k i router frame es s₁ s₂ s₃ task task₁ task₂ hk hd hk₁ hr hk₂ hst hf =>
      finish_restores hcodec hi hk hd hk₁ hr hk₂ hst hf⟩
  · have hpath := (hi.owner hk).path
    exact ⟨fun hp => hp.unique hpath, fun hp => hp ▸ hpath⟩
  · obtain ⟨p, hop, hsent⟩ := hi.calls call hc
    exact ⟨p, hop, hsent.path, hsent.chain, hsent.task, hsent.nspace, hsent.kind,
      hsent.content, hsent.depth⟩

/-- A router on a host of its own, with no traced frames. -/
def demoRouter (host : String) : Settings := ⟨"default", host, 1000, [], false⟩

def demoProcess : Process := ⟨1, "/", fun _ => [], id, fun _ _ => "", fun _ => ""⟩

def demoSite : CallSite := ⟨⟨0, "m.py", 1, "main"⟩, [], "c0", 0⟩

def demoHop : AtaskHop := newHop (demoRouter "a") demoProcess .empty demoSite "m.f" "default" .rpc

/-- The call that the handler of the first one makes on host `b`. -/
def nestedHop : AtaskHop := newHop (demoRouter "b") demoProcess
    ⟨[demoHop], some 7⟩ demoSite "m.g" "default" .rpc

/-- A codec that knows some chains, each by its place among them. -/
def knowing (chains : List (List AtaskHop)) : Codec Unit ε where
  encode
    | .call [] _ chain => .ok ((chains.idxOf? chain).map fun i => List.replicate i 0)
    | _ => .ok none
  decode content := .ok ((content.bind fun content => chains[content.length]?).map
    (.call [] .empty))

theorem knowing_roundTrips (chains : List (List AtaskHop)) :
    RoundTrips fun _ => (knowing chains : Codec Unit ε) := by
  intro router router' argv kwargs chain content h
  cases argv with
  | nil =>
    obtain ⟨i, hi, rfl⟩ := Option.map_eq_some_iff.1 (Except.ok.inj h)
    obtain ⟨hlt, hchain, -⟩ := List.idxOf?_eq_some_iff.1 hi
    refine ⟨[], .empty, ?_⟩
    simp [knowing, List.getElem?_eq_getElem hlt, hchain]
  | cons _ _ => cases h

def demoCodec : Codec Unit Unit := knowing [[demoHop], [demoHop, nestedHop]]

/-- A call from host `a` handled on host `b`, whose handler makes a call that is handled on host `c`;
that handler starts a task and ends. -/
theorem trace_is_call_path_demo :
    let es : List (Event Unit) :=
      [.begin 0, .call 0 (demoRouter "a") demoProcess demoSite "m.f" .rpc [] .empty, .begin 1,
        .deliver 1 0 (demoRouter "b") 7, .call 1 (demoRouter "b") demoProcess demoSite "m.g" .rpc
          [] .empty, .begin 2,
        .deliver 2 1 (demoRouter "c") 8, .spawn 2 3, .finish 2]
    ∃ s task, run (step fun _ => demoCodec) State.init es = some s ∧ s.tasks 3 = some task ∧
      task.context.current = [demoHop, nestedHop] ∧ ∀ p, Path s (some 1) p ↔
        p = task.context.current := by
  intro es
  have hrun : run (step fun _ => demoCodec) State.init es = some _ := rfl
  exact ⟨_, _, hrun, rfl, rfl, (trace_is_call_path (knowing_roundTrips _) ⟨es, hrun⟩).1 3 _ rfl⟩

end Atasks.Trace
