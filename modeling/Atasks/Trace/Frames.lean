import Atasks.Trace.CallPath
import Mathlib.Data.List.TakeWhile
/-!
# The frames of a hop

Which frames `push_hop` takes a hop's call site and `await_frames` from (`atasks/trace.py:219-245,
313-370`), over the runs of `Trace/CallPath.lean`. A call now comes with the stack above the stub:
the frames of the handler's own execution, innermost first; below them, where the task is in the
handler itself, the `_call_coro` frame that `ENTRY_FRAME` was set to (`router.py:447`); and what
lies below that. A task that a handler started with `create_task` or `gather` has no such frame on
its stack: there the event loop comes directly below the handler's code.

| here | there |
| --- | --- |
| `Pushed`     | a hop, with the stack it was pushed on |
| `shown`      | the frames that `_walk_frames_until` keeps |
| `Inside`     | what `ENTRY_FRAME` and `_walk_frames_until` promise (`trace.py:37-45, 219-227`) |
| `Reached`    | when they keep it |

* `pushed_inside_iff`: in every run, a hop pushed by a handler shows frames of that handler alone
  exactly if the stub was awaited by code of the handler, and, in a task that the handler started,
  frames are not collected or everything below that code is filtered out.
* `gathered_outside`: a stub that was passed to `gather` shows the event loop as its caller.
-/

namespace Atasks.Trace.Frames

open Machine

/-- The frames that are kept for `await_frames`. -/
def shown (router : Settings) (process : Process) (context : Context) (site : CallSite) :
    List Frame :=
  if router.collectAwaitFrames then
    (site.outer.takeWhile fun frame => some frame.id != context.entryFrame).filter fun frame =>
      !isFiltered process frame.file router.traceFilterModules
  else []

def snapshot (process : Process) (frame : Frame) : FrameInfo :=
    ⟨frame.file, frame.line, frame.func, process.getline frame.file frame.line⟩

structure Pushed where
  /-- The handler whose code makes the call. -/
  handler : Option HandlerId
  /-- The frames of that code, above the stub. -/
  own : List Frame
  /-- Whether its `_call_coro` frame comes next. -/
  awaited : Bool
  below : List Frame
  router : Settings
  process : Process
  context : Context
  site : CallSite
  hop : AtaskHop

structure State where
  base : Trace.State
  /-- The `_call_coro` frame of each handler. -/
  entered : List Frame
  pushed : List Pushed

inductive Event (ν : Type)
  | begin (k : TaskId)
  | spawn (k k' : TaskId)
  | call (k : TaskId) (router : Settings) (process : Process) (own below : List Frame)
    (callId : String) (ts : Int) (name : String)
      (kind : Kind) (argv : List ν) (kwargs : Dict String ν)
  | deliver (k : TaskId) (i : CallId) (router : Settings) (frame : Frame)
  | finish (k : TaskId)

def State.init : State := ⟨.init, [], []⟩

/-- The `_call_coro` frame on the stack of a task. -/
def State.boundary (s : State) (task : Task) : Option Frame :=
    task.stack.head?.bind fun activation => s.entered[activation.handler]?

/-- Frames on one stack are different, and the one that the context remembers is on no other stack.
-/
def Stands (s : State) (task : Task) (stack : List Frame) : Prop :=
  (stack.map Frame.id).Nodup ∧
    (task.stack.isEmpty = true → ∀ h ∈ task.owner, ∀ frame ∈ s.entered[h]?,
      frame.id ∉ stack.map Frame.id)

instance (s : State) (task : Task) (stack : List Frame) : Decidable (Stands s task stack) :=
  inferInstanceAs (Decidable ((stack.map Frame.id).Nodup ∧
    (task.stack.isEmpty = true → ∀ h ∈ task.owner, ∀ frame ∈ s.entered[h]?,
      frame.id ∉ stack.map Frame.id)))

variable {ν ε : Type}

/-- The hop that is pushed, if there is room for it. -/
def record (task : Task) (router : Settings) (process : Process) (site : CallSite)
    (own below : List Frame) (name : String) (kind : Kind) :
    List Pushed :=
  match pushHop router process task.context site name router.nspace kind with
  | .error _ => []
  | .ok _ => [{
      handler := task.owner
      own := own
      awaited := !task.stack.isEmpty
      below := below
      router := router
      process := process
      context := task.context
      site := site
      hop := newHop router process task.context site name router.nspace kind
    }]

def call (codec : Settings → Codec ν ε) (s : State) (k : TaskId) (router : Settings)
    (process : Process) (own below : List Frame) (callId : String) (ts : Int) (name : String)
    (kind : Kind) (argv : List ν) (kwargs : Dict String ν) : Option State :=
  match s.base.tasks k with
  | none => none
  | some task =>
    match own ++ ((s.boundary task).toList ++ below) with
    | [] => none
    | caller :: outer =>
      if Stands s task (caller :: outer) then
        (Trace.call codec s.base k router process ⟨caller, outer, callId, ts⟩ name kind argv
            kwargs).map fun base =>
          { s with base := base, pushed := s.pushed ++ record task router process ⟨caller, outer, callId, ts⟩ own below name kind }
      else none

def step (codec : Settings → Codec ν ε) (s : State) : Event ν → Option State
  | .begin k => (Trace.begin s.base k).map fun base => { s with base := base }
  | .spawn k k' => (Trace.spawn s.base k k').map fun base => { s with base := base }
  | .call k router process own below callId ts name kind argv kwargs =>
    call codec s k router process own below callId ts name kind argv kwargs
  | .deliver k i router frame =>
    (Trace.deliver codec s.base k i router frame.id).map fun base =>
      { s with base := base, entered := s.entered ++ [frame] }
  | .finish k => (Trace.finish s.base k).map fun base => { s with base := base }

/-! ## What is promised, and when it is kept -/

/-- The call site and every frame kept belong to the handler's own code. -/
structure Inside (pushed : Pushed) : Prop where
  caller : pushed.site.caller ∈ pushed.own
  shown : ∀ frame ∈ shown pushed.router pushed.process pushed.context pushed.site,
    frame ∈ pushed.own

/-- The stub is awaited by code of the handler, and nothing below that code is kept. -/
structure Reached (pushed : Pushed) : Prop where
  own : pushed.own ≠ []
  below : pushed.router.collectAwaitFrames = true → pushed.awaited = true ∨
    ∀ frame ∈ pushed.below, isFiltered pushed.process frame.file pushed.router.traceFilterModules =
      true

/-- What a hop says is what its frames were. -/
structure Describes (pushed : Pushed) : Prop where
  file : pushed.hop.callerFile = pushed.site.caller.file
  line : pushed.hop.callerLine = pushed.site.caller.line
  func : pushed.hop.callerFunc = pushed.site.caller.func
  frames : pushed.hop.awaitFrames =
    ((shown pushed.router pushed.process pushed.context pushed.site).map
      (snapshot pushed.process)).reverse

/-- The stack of a hop, given the `_call_coro` frame its context remembers. -/
structure Standing (pushed : Pushed) (entry : Option Frame) : Prop where
  context : pushed.context.entryFrame = entry.map Frame.id
  handler : pushed.handler.isSome = entry.isSome
  stack : pushed.site.caller :: pushed.site.outer = pushed.own ++
    ((if pushed.awaited then entry else none).toList ++ pushed.below)
  nodup : ((pushed.site.caller :: pushed.site.outer).map Frame.id).Nodup
  elsewhere : pushed.awaited = false → ∀ frame ∈ entry,
    frame.id ∉ (pushed.site.caller :: pushed.site.outer).map Frame.id
  describes : Describes pushed

section standing

variable {pushed : Pushed} {entry : Frame}

theorem filterMap_frameInfo (process : Process) (filterModules : List String)
    (frames : List Frame) :
    frames.filterMap (fun frame => frameInfo process frame frame.line filterModules) =
      (frames.filter fun frame => !isFiltered process frame.file filterModules).map
      (snapshot process) := by
  induction frames with
  | nil => rfl
  | cons frame frames ih =>
    rw [List.filterMap_cons, List.filter_cons, ih]
    by_cases hfiltered : isFiltered process frame.file filterModules = true
    · simp [frameInfo, hfiltered]
    · simp [frameInfo, hfiltered, snapshot]

theorem awaitFrames_newHop (router : Settings) (process : Process) (context : Context)
    (site : CallSite) (name nspace : String) (kind : Kind) :
    (newHop router process context site name nspace kind).awaitFrames =
      ((shown router process context site).map (snapshot process)).reverse := by
  unfold newHop shown
  by_cases hcollect : router.collectAwaitFrames = true
  · simp only [hcollect, if_true, walkFramesUntil, filterMap_frameInfo]
  · simp only [hcollect, if_false, Bool.false_eq_true, List.map_nil, List.reverse_nil]

/-- In the handler's own task the walk ends at its `_call_coro` frame. -/
theorem takeWhile_boundary {own below : List Frame} (h : ∀ frame ∈ own, frame.id ≠ entry.id) :
    (own ++ entry :: below).takeWhile (fun frame => some frame.id != some entry.id) = own := by
  have hown : ∀ frame ∈ own, (some frame.id != some entry.id) = true := by
    intro frame hframe
    simpa using h frame hframe
  rw [List.takeWhile_append_of_pos hown, List.takeWhile_cons_of_neg (by simp), List.append_nil]

/-- In any other task it goes to the top of the stack. -/
theorem takeWhile_elsewhere {frames : List Frame} (h : ∀ frame ∈ frames, frame.id ≠ entry.id) :
    frames.takeWhile (fun frame => some frame.id != some entry.id) = frames := by
  apply List.takeWhile_eq_self_iff.2
  intro frame hframe
  simpa using h frame hframe

/-- A stub driven by the task itself, or by `_call_coro`: the call site is not the handler's. -/
theorem not_inside_of_nil (h : pushed.own = []) : ¬ Inside pushed := by
  intro hinside
  have hcaller := hinside.caller
  rw [h] at hcaller
  cases hcaller

/-- In the handler's own task, what is shown are frames of its code. -/
theorem Standing.inside_of_awaited (h : Standing pushed (some entry)) (hown : pushed.own ≠ [])
    (hawaited : pushed.awaited = true) :
    Inside pushed := by
  obtain ⟨hcontext, -, hstack, hnodup, -, -⟩ := h
  have hcontext : pushed.context.entryFrame = some entry.id := hcontext
  obtain ⟨first, own, hfirst⟩ := List.exists_cons_of_ne_nil hown
  rw [hfirst, hawaited] at hstack
  obtain ⟨hcaller, houter⟩ : pushed.site.caller = first ∧ pushed.site.outer = own ++ entry ::
    pushed.below := List.cons.inj hstack
  have hne : ∀ frame ∈ own, frame.id ≠ entry.id := by
    intro frame hframe heq
    rw [houter, List.map_cons, List.map_append, List.nodup_cons, List.nodup_append] at hnodup
    exact hnodup.2.2.2 _ (List.mem_map_of_mem hframe) entry.id (by simp) heq
  constructor
  · rw [hcaller, hfirst]
    exact List.mem_cons_self
  · intro frame hframe
    unfold shown at hframe
    split at hframe
    · rw [hcontext, houter, takeWhile_boundary hne] at hframe
      rw [hfirst]
      exact List.mem_cons_of_mem _ (List.mem_of_mem_filter hframe)
    · cases hframe

/-- In any other task, so is all of it exactly if everything below that code is filtered out. -/
theorem Standing.inside_iff_elsewhere (h : Standing pushed (some entry)) (hown : pushed.own ≠ [])
    (hawaited : pushed.awaited = false) :
    Inside pushed ↔ (pushed.router.collectAwaitFrames = true →
      ∀ frame ∈ pushed.below, isFiltered pushed.process frame.file
      pushed.router.traceFilterModules = true) := by
  obtain ⟨hcontext, -, hstack, hnodup, helsewhere, -⟩ := h
  have hcontext : pushed.context.entryFrame = some entry.id := hcontext
  obtain ⟨first, own, hfirst⟩ := List.exists_cons_of_ne_nil hown
  rw [hfirst, hawaited] at hstack
  obtain ⟨hcaller, houter⟩ : pushed.site.caller = first ∧ pushed.site.outer = own ++ pushed.below :=
    List.cons.inj hstack
  have hne : ∀ frame ∈ own ++ pushed.below, frame.id ≠ entry.id := by
    intro frame hframe heq
    apply helsewhere hawaited entry rfl
    rw [houter, ← heq]
    exact List.mem_map_of_mem (List.mem_cons_of_mem _ hframe)
  have hwalk : pushed.site.outer.takeWhile
      (fun frame => some frame.id != pushed.context.entryFrame) = own ++ pushed.below := by
    rw [hcontext, houter, takeWhile_elsewhere hne]
  constructor
  · intro hinside hcollect frame hframe
    -- A frame below that is kept would be on the stack twice.
    by_contra hfiltered
    have hshown : frame ∈ shown pushed.router pushed.process pushed.context pushed.site := by
      rw [shown, if_pos hcollect, hwalk]
      exact List.mem_filter.2 ⟨List.mem_append_right _ hframe, by simpa using hfiltered⟩
    have hmem := hinside.shown frame hshown
    rw [hfirst] at hmem
    rw [hcaller, houter, ← List.cons_append, List.map_append, List.nodup_append] at hnodup
    exact hnodup.2.2 _ (List.mem_map_of_mem hmem) _ (List.mem_map_of_mem hframe) rfl
  · intro hfiltered
    refine ⟨?_, fun frame hframe => ?_⟩
    · rw [hcaller, hfirst]
      exact List.mem_cons_self
    · unfold shown at hframe
      split at hframe
      · rename_i hcollect
        rw [hwalk] at hframe
        obtain ⟨hmem, hkept⟩ := List.mem_filter.1 hframe
        rcases List.mem_append.1 hmem with hmem | hmem
        · rw [hfirst]
          exact List.mem_cons_of_mem _ hmem
        · rw [hfiltered hcollect frame hmem] at hkept
          cases hkept
      · cases hframe

/-- **One hop**: it shows the handler's own frames exactly where it is reached from them. -/
theorem Standing.inside_iff (h : Standing pushed (some entry)) :
    Inside pushed ↔ Reached pushed := by
  by_cases hown : pushed.own = []
  · exact iff_of_false (not_inside_of_nil hown) fun hreached => hreached.own hown
  · cases hawaited : pushed.awaited with
    | true => exact iff_of_true (h.inside_of_awaited hown hawaited) ⟨hown, fun _ => Or.inl hawaited⟩
    | false =>
      rw [h.inside_iff_elsewhere hown hawaited]
      constructor
      · intro hfiltered
        exact ⟨hown, fun hcollect => Or.inr (hfiltered hcollect)⟩
      · intro hreached hcollect
        rcases hreached.below hcollect with hawaited' | hfiltered
        · rw [hawaited] at hawaited'
          cases hawaited'
        · exact hfiltered

end standing

/-! ## The invariant -/

/-- A context remembers the `_call_coro` frame of the handler whose code runs. -/
def Entry (entered : List Frame) (owner : Option HandlerId) (entryFrame : Option FrameId) : Prop :=
  ∃ entry, entryFrame = entry.map Frame.id ∧ owner.isSome = entry.isSome ∧ ∀ h ∈ owner,
    entered[h]? = entry

/-- So it does, and so do the contexts that the handlers of a task go back to. -/
def EntriesOk (entered : List Frame) (starter : Option HandlerId) : List Activation →
    Option FrameId → Prop
  | [], entryFrame => Entry entered starter entryFrame
  | activation :: stack, entryFrame =>
    Entry entered (some activation.handler) entryFrame ∧
      EntriesOk entered starter stack activation.frameToken

structure Inv (s : State) : Prop where
  length : s.entered.length = s.base.handlers.length
  tasks : ∀ k task, s.base.tasks k = some task →
    EntriesOk s.entered task.starter task.stack task.context.entryFrame
  pushed : ∀ pushed ∈ s.pushed, ∃ entry, Standing pushed entry

section invariant

variable {codec : Settings → Codec ν ε} {s s' : State} {k : TaskId} {task : Task}
  {entered : List Frame} {owner starter : Option HandlerId} {entryFrame : Option FrameId}

theorem Entry.mono (frame : Frame) (h : Entry entered owner entryFrame) :
    Entry (entered ++ [frame]) owner entryFrame := by
  obtain ⟨entry, hentry, hsome, howner⟩ := h
  refine ⟨entry, hentry, hsome, fun h hmem => ?_⟩
  cases entry with
  | none =>
    rw [hmem] at hsome
    cases hsome
  | some entry => exact getElem?_of_extends (List.prefix_append _ _) (howner h hmem)

theorem EntriesOk.mono (frame : Frame) : ∀ {stack : List Activation} {entryFrame : Option FrameId},
    EntriesOk entered starter stack entryFrame →
    EntriesOk (entered ++ [frame]) starter stack entryFrame
  | [], _, h => Entry.mono frame h
  | _ :: _, _, ⟨h, hstack⟩ => ⟨h.mono frame, hstack.mono frame⟩

theorem EntriesOk.entry : ∀ {stack : List Activation} {entryFrame : Option FrameId},
    EntriesOk entered starter stack entryFrame → Entry entered (ownerOf starter stack) entryFrame
  | [], _, h => h
  | _ :: _, _, ⟨h, _⟩ => h

/-- A step that changes one task. -/
theorem Inv.update (hi : Inv s)
    (htask : EntriesOk s.entered task.starter task.stack task.context.entryFrame) :
    Inv { s with base := s.base.setTask k task } := by
  refine ⟨hi.length, fun k' task' hk' => ?_, hi.pushed⟩
  rcases Dict.lookup_update hk' with ⟨-, rfl⟩ | ⟨-, hold⟩
  · exact htask
  · exact hi.tasks k' task' hold

/-- Every hop is pushed on a stack that fits its context. -/
theorem standing_of_record (hi : Inv s) (hk : s.base.tasks k = some task) {router : Settings}
    {process : Process} {own below : List Frame} {caller : Frame} {outer : List Frame}
    {callId : String} {ts : Int} {name : String} {kind : Kind}
    (hstack : own ++ ((s.boundary task).toList ++ below) = caller :: outer)
    (hstands : Stands s task (caller :: outer)) :
    ∀ pushed ∈ record task router process ⟨caller, outer, callId, ts⟩ own below name kind, ∃ entry,
    Standing pushed entry := by
  obtain ⟨entry, hentry, hsome, hentered⟩ := (hi.tasks k task hk).entry
  intro pushed hpushed
  unfold record at hpushed
  split at hpushed
  · cases hpushed
  · rw [List.mem_singleton] at hpushed
    subst hpushed
    refine ⟨entry, hentry, hsome, ?_, hstands.1, fun hawaited frame hframe => ?_, rfl, rfl, rfl,
      awaitFrames_newHop ..⟩
    · have hboundary : s.boundary task = if (!task.stack.isEmpty) = true then entry else none := by
        unfold State.boundary
        cases hactivations : task.stack with
        | nil => rfl
        | cons activation stack =>
          have howner : activation.handler ∈ ownerOf task.starter task.stack := by
            rw [hactivations]
            rfl
          exact hentered _ howner
      rw [← hboundary]
      exact hstack.symm
    · have hempty : task.stack.isEmpty = true := by simpa using hawaited
      cases howner : task.owner with
      | none =>
        have hnone : (ownerOf task.starter task.stack) = none := howner
        rw [hnone] at hsome
        rw [hframe] at hsome
        cases hsome
      | some h => exact hstands.2 hempty h howner frame ((hentered h howner).trans hframe)

theorem Inv.call (hi : Inv s) {router : Settings} {process : Process} {own below : List Frame}
    {callId : String} {ts : Int} {name : String} {kind : Kind} {argv : List ν}
    {kwargs : Dict String ν}
    (hs : call codec s k router process own below callId ts name kind argv kwargs = some s') :
    Inv s' := by
  unfold Frames.call at hs
  split at hs
  · cases hs
  rename_i task hk
  split at hs
  · cases hs
  rename_i caller outer hstack
  split at hs
  · rename_i hstands
    obtain ⟨base, hbase, rfl⟩ := Option.map_eq_some_iff.1 hs
    have hkept : base.tasks = s.base.tasks ∧ base.handlers = s.base.handlers := by
      unfold Trace.call at hbase
      split at hbase
      · cases hbase
      split at hbase
      · cases hbase
        exact ⟨rfl, rfl⟩
      · split at hbase
        · cases hbase
          exact ⟨rfl, rfl⟩
        · cases hbase
          exact ⟨rfl, rfl⟩
    refine ⟨?_, fun k' task' hk' => ?_, fun pushed hpushed => ?_⟩
    · exact hi.length.trans (congrArg List.length hkept.2).symm
    · have hk' : base.tasks k' = some task' := hk'
      rw [hkept.1] at hk'
      exact hi.tasks k' task' hk'
    · rcases List.mem_append.1 hpushed with hold | hnew
      · exact hi.pushed pushed hold
      · exact standing_of_record hi hk hstack hstands pushed hnew
  · cases hs

/-- A new handler remembers its own frame. -/
theorem Inv.deliver (hi : Inv s) {i : CallId} {router : Settings} {frame : Frame}
    (hs : step codec s (.deliver k i router frame) = some s') : Inv s' := by
  obtain ⟨base, hbase, rfl⟩ := Option.map_eq_some_iff.1 hs
  unfold Trace.deliver at hbase
  split at hbase
  · rename_i task call hk hcall
    split at hbase
    · cases hbase
      refine ⟨?_, fun k' task' hk' => ?_, hi.pushed⟩
      · simp [hi.length]
      · rcases Dict.lookup_update hk' with ⟨-, rfl⟩ | ⟨-, hold⟩
        · refine ⟨⟨some frame, rfl, rfl, fun h hmem => ?_⟩, (hi.tasks k task hk).mono frame⟩
          cases hmem
          rw [← hi.length]
          exact List.getElem?_concat_length ..
        · exact (hi.tasks k' task' hold).mono frame
    · cases hbase
  · cases hbase

theorem Inv.step (s : State) (e : Event ν) (s' : State) (hi : Inv s)
    (hs : step codec s e = some s') : Inv s' := by
  cases e with
  | begin k =>
    obtain ⟨base, hbase, rfl⟩ := Option.map_eq_some_iff.1 hs
    unfold Trace.begin at hbase
    split at hbase
    · cases hbase
    · cases hbase
      exact hi.update ⟨none, rfl, rfl, fun h hmem => by cases hmem⟩
  | spawn k k' =>
    obtain ⟨base, hbase, rfl⟩ := Option.map_eq_some_iff.1 hs
    unfold Trace.spawn at hbase
    split at hbase
    · rename_i task hk _
      cases hbase
      -- The new task starts in a copy of the context.
      have howner : Entry s.entered task.owner task.context.entryFrame := (hi.tasks k task hk).entry
      exact hi.update howner
    · cases hbase
  | call k router process own below callId ts name kind argv kwargs => exact hi.call hs
  | deliver k i router frame => exact hi.deliver hs
  | finish k =>
    obtain ⟨base, hbase, rfl⟩ := Option.map_eq_some_iff.1 hs
    unfold Trace.finish at hbase
    split at hbase
    · rename_i context activation stack starter hk
      cases hbase
      obtain ⟨-, hstack⟩ := hi.tasks k _ hk
      exact hi.update hstack
    · cases hbase

theorem inv_init : Inv State.init := ⟨rfl, fun _ _ h => (nomatch h), fun _ h => (nomatch h)⟩

end invariant

/-- **The frames of a hop stay inside it** in exactly these calls: whenever a handler has pushed a
hop, what the hop shows is the handler's own if and only if the handler's code awaited the stub,
and nothing below that code was kept. -/
theorem pushed_inside_iff {codec : Settings → Codec ν ε} {s : State}
    (hreach : Reachable (step codec) State.init s) :
    ∀ pushed ∈ s.pushed, pushed.handler.isSome = true → Describes pushed ∧
    (Inside pushed ↔ Reached pushed) := by
  have hi : Inv s := hreach.invariant Inv.step inv_init
  intro pushed hpushed hhandler
  obtain ⟨entry, hstanding⟩ := hi.pushed pushed hpushed
  have hsome := hstanding.handler
  rw [hhandler] at hsome
  obtain ⟨entry, rfl⟩ := Option.isSome_iff_exists.1 hsome.symm
  exact ⟨hstanding.describes, hstanding.inside_iff⟩

def mainFrame : Frame := ⟨0, "m.py", 1, "main"⟩

def callCoroFrame : Frame := ⟨1, "atasks/router.py", 449, "_call_coro"⟩

def workFrame : Frame := ⟨2, "m.py", 7, "work"⟩

/-- `asyncio.Handle._run`, from where a task is stepped. -/
def handleFrame : Frame := ⟨3, "asyncio/events.py", 80, "_run"⟩

/-- A call is handled in task 1, under the event loop's own frames. -/
def demoHandled : List (Event Unit) :=
  [.begin 0, .call 0 (demoRouter "a") demoProcess [mainFrame] [] "c0" 0 "m.f" .rpc [] .empty,
    .begin 1,
    .deliver 1 0 (demoRouter "b") callCoroFrame]

/-- The handler awaits another stub. -/
def demoAwaited : List (Event Unit) :=
  demoHandled ++ [.call 1 { demoRouter "b" with collectAwaitFrames := true } demoProcess [workFrame]
    [handleFrame] "c1" 0 "m.g" .rpc [] .empty]

/-- The handler passes the stub to `gather`, which makes a task of it. -/
def demoGathered : List (Event Unit) :=
  demoHandled ++ [.spawn 1 2, .call 2 (demoRouter "b") demoProcess []
    [handleFrame] "c1" 0 "m.g" .rpc [] .empty]

theorem awaited_inside :
    ∃ s pushed, run (step fun _ => demoCodec) State.init demoAwaited = some s ∧ pushed ∈ s.pushed ∧
    pushed.handler = some 0 ∧ pushed.hop.callerFunc = "work" ∧ Inside pushed := by
  have hrun : run (step fun _ => demoCodec) State.init demoAwaited = some _ := rfl
  refine ⟨_, _, hrun, List.mem_cons_of_mem _ List.mem_cons_self, rfl, rfl, ?_⟩
  have hiff := (pushed_inside_iff ⟨demoAwaited, hrun⟩ _
    (List.mem_cons_of_mem _ List.mem_cons_self) rfl).2
  exact hiff.2 ⟨List.cons_ne_nil _ _, fun _ => Or.inl rfl⟩

theorem gathered_outside :
    ∃ s pushed, run (step fun _ => demoCodec) State.init demoGathered = some s ∧ pushed ∈ s.pushed ∧
    pushed.handler = some 0 ∧ pushed.hop.callerFile = "asyncio/events.py" ∧
    pushed.hop.callerFunc = "_run" ∧ ¬ Inside pushed := by
  have hrun : run (step fun _ => demoCodec) State.init demoGathered = some _ := rfl
  exact ⟨_, _, hrun, List.mem_cons_of_mem _ List.mem_cons_self, rfl, rfl, rfl,
    not_inside_of_nil rfl⟩

end Atasks.Trace.Frames
