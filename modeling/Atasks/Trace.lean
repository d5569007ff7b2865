import Atasks.Basic
import Atasks.Lib.Text
/-!
# Call traces

`atasks/trace.py`: the hops that lead to the running code, how a call adds one, and what is
put on an exception where it is first caught.

| here | there |
| --- | --- |
| `Context`                     | `CURRENT` and `ENTRY_FRAME` as one asyncio task sees them |
| `enter`, `leave`              | `enter`, `leave` (`:290-310`); a token is the value to go back to |
| `enterFrame`, `leaveFrame`    | `ENTRY_FRAME.set` and `.reset` of `Router._call_coro` (`router.py:447-454`) |
| `Process`                     | what the host tells: its pid, its modules, the lines of its files |
| `CallSite`                    | the stack above a stub, from the call on, the call's id and its time |
| `pushHop`, `attach`           | `push_hop`, `attach` (`:313-407`) |
| `formatTrace`                 | `format_trace` (`:448-487`) |
-/

namespace Atasks.Trace

abbrev FrameId := Nat

/-- A live frame and the line it is at. -/
structure Frame where
  id : FrameId
  file : String
  line : Nat
  func : String
deriving DecidableEq, Repr

structure FrameInfo where
  file : String
  line : Nat
  func : String
  text : String
deriving DecidableEq, Repr

structure AtaskHop where
  seq : Nat
  callId : String
  task : String
  nspace : String
  kind : Kind
  callerFile : String
  callerLine : Nat
  callerFunc : String
  host : String
  pid : Nat
  /-- Any unit will do. -/
  ts : Int
  awaitFrames : List FrameInfo
  isRoot : Bool
deriving DecidableEq, Repr

structure AtaskTrace where
  hops : List AtaskHop
  raiseHost : String
  raisePid : Nat
  raiseFrames : List FrameInfo
deriving DecidableEq, Repr

/-- The part of a `Router` that tracing reads. -/
structure Settings where
  nspace : String
  hostname : String
  maxTraceDepth : Int
  traceFilterModules : List String
  collectAwaitFrames : Bool
deriving DecidableEq, Repr

structure Process where
  pid : Nat
  sep : String
  /-- `_module_paths`. -/
  modulePaths : String → List String
  normpath : String → String
  /-- A line of a file, stripped. -/
  getline : String → Nat → String
  /-- `_format_ts`. -/
  formatTs : Int → String

structure Context where
  current : List AtaskHop
  entryFrame : Option FrameId
deriving DecidableEq, Repr

structure CallSite where
  caller : Frame
  /-- Innermost first. -/
  outer : List Frame
  callId : String
  ts : Int

structure AtaskStackTooDeep where
  message : String
deriving DecidableEq, Repr

/-- Code that no atask call has reached. -/
def Context.empty : Context := ⟨[], none⟩

/-! ## The context variables -/

def enter (context : Context) (chain : List AtaskHop) : List AtaskHop × Context :=
  (context.current, { context with current := chain })

def leave (context : Context) (token : List AtaskHop) : Context := { context with current := token }

def enterFrame (context : Context) (frame : FrameId) : Option FrameId × Context :=
  (context.entryFrame, { context with entryFrame := some frame })

def leaveFrame (context : Context) (token : Option FrameId) : Context :=
    { context with entryFrame := token }

/-! ## Frames -/

def isFiltered (process : Process) (filename : String) (filterModules : List String) : Bool :=
  if filterModules.isEmpty then false
  else
    let normalized := process.normpath filename
    (filterModules.flatMap process.modulePaths).any fun root =>
      normalized == root || normalized.startsWith (root ++ process.sep)

def frameInfo (process : Process) (frame : Frame) (lineno : Nat) (filterModules : List String) :
    Option FrameInfo :=
  if isFiltered process frame.file filterModules then none
  else some ⟨frame.file, lineno, frame.func, process.getline frame.file lineno⟩

/-- Root first, up to the boundary. -/
def walkFramesUntil (process : Process) (frames : List Frame) (boundary : Option FrameId)
    (filterModules : List String) :
    List FrameInfo :=
  ((frames.takeWhile fun frame => some frame.id != boundary).filterMap fun frame =>
    frameInfo process frame frame.line filterModules).reverse

/-- A traceback lists its frames root first, each with the line it was left at. -/
def walkTracebackAfter (process : Process) (tb : List (Frame × Nat)) (boundary : Option FrameId)
    (filterModules : List String) :
    List FrameInfo :=
  let kept :=
    match boundary with
    | none => tb
    | some boundary => (tb.dropWhile fun (entry : Frame × Nat) => entry.1.id != boundary).drop 1
  kept.filterMap fun (entry : Frame × Nat) => frameInfo process entry.1 entry.2 filterModules

/-! ## A call, and a failure -/

def newHop (router : Settings) (process : Process) (context : Context) (site : CallSite)
    (name nspace : String) (kind : Kind) :
    AtaskHop where
  seq := context.current.length
  callId := site.callId
  task := name
  nspace := nspace
  kind := kind
  callerFile := site.caller.file
  callerLine := site.caller.line
  callerFunc := site.caller.func
  host := router.hostname
  pid := process.pid
  ts := site.ts
  awaitFrames :=
    if router.collectAwaitFrames then
      walkFramesUntil process site.outer context.entryFrame router.traceFilterModules
    else []
  isRoot := context.entryFrame.isNone

def pushHop (router : Settings) (process : Process) (context : Context) (site : CallSite)
    (name nspace : String) (kind : Kind) :
    Except AtaskStackTooDeep (List AtaskHop) :=
  if router.maxTraceDepth ≤ context.current.length then
    .error ⟨"atask call chain exceeded max_trace_depth=" ++ toString router.maxTraceDepth ++
      " calling " ++ nspace ++ "/" ++ name⟩
  else .ok (context.current ++ [newHop router process context site name nspace kind])

/-- `ex.__atask_trace__ = …` of an exception object. -/
inductive SetAttr (ε : Type)
  | done (ex : ε)
  | attributeError
  | raised (ex : ε)

/-- What tracing needs of exception objects. -/
structure Exceptions (ε : Type) where
  /-- `getattr(ex, '__atask_trace__', None)`. -/
  trace : ε → Option AtaskTrace
  setTrace : ε → AtaskTrace → SetAttr ε
  className : ε → String
  /-- `str(ex)`, which may raise. -/
  str : ε → Except ε String

variable {ε : Type}

/-- The frames of the raising side, if they are collected and there is a traceback. -/
def raiseFrames (tb : Option (List (Frame × Nat))) (router : Settings) (process : Process)
    (context : Context) : List FrameInfo :=
  match router.collectAwaitFrames, tb with
  | true, some tb => walkTracebackAfter process tb context.entryFrame router.traceFilterModules
  | _, _ => []

/-- The exception afterwards, or what `attach` raises itself. -/
def attach (exceptions : Exceptions ε) (ex : ε) (tb : Option (List (Frame × Nat)))
    (router : Settings) (process : Process) (context : Context) : Except ε ε :=
  match exceptions.trace ex with
  | some _ => .ok ex
  | none =>
    match exceptions.setTrace ex ⟨context.current, router.hostname, process.pid,
      raiseFrames tb router process context⟩ with
    | .done ex => .ok ex
    | .attributeError => .ok ex
    | .raised ex' => .error ex'

/-! ## Rendering -/

/-- `_KIND_MARKERS`. -/
def kindMarker : Kind → String
  | .rpc => "»RPC«"
  | .queue => "»QUEUE«"
  | .broadcast => "»BROADCAST«"

def formatFrame (frame : FrameInfo) (indent : String) : String :=
  let line := indent ++ "File \"" ++ frame.file ++ "\", line " ++ toString frame.line ++
    ", in " ++ frame.func
  if frame.text = "" then line
  else line ++ "\n" ++ indent ++ "  " ++ String.ofList (Text.strip frame.text.toList)

/-- The lines of one hop: the frames that lead up to the call, then the call. -/
def formatHop (process : Process) (hop : AtaskHop) : List String :=
  (if hop.isRoot && !hop.awaitFrames.isEmpty then ["  -- entry point (no enclosing atask call) --"] else []) ++
    hop.awaitFrames.map (fun frame => formatFrame frame "      ") ++
    [formatFrame ⟨hop.callerFile, hop.callerLine, hop.callerFunc, ""⟩
      ("  " ++ kindMarker hop.kind ++ " "),
      "        task=" ++ hop.task ++ " namespace=" ++ hop.nspace ++ " kind=" ++ kindName hop.kind ++
        " call_id=" ++ hop.callId ++
        " host=" ++ hop.host ++ " pid=" ++ toString hop.pid ++ " ts=" ++ process.formatTs hop.ts]
where
  kindName : Kind → String
    | .rpc => "rpc"
    | .queue => "queue"
    | .broadcast => "broadcast"

def formatTrace (exceptions : Exceptions ε) (process : Process) (ex : ε) : Except ε String :=
  let lines :=
    match exceptions.trace ex with
    | none => ["  <no atask trace attached>"]
    | some info =>
      info.hops.flatMap (formatHop process) ++ info.raiseFrames.map
        (fun frame => formatFrame frame "      ") ++
        ["  (raised on host=" ++ info.raiseHost ++ " pid=" ++ toString info.raisePid ++ ")"]
  match exceptions.str ex with
  | .error ex' => .error ex'
  | .ok text =>
    .ok ("\n".intercalate ("Atask call chain (root -> failure):" :: lines ++
      [exceptions.className ex ++ ": " ++ text]))

/-! ## What a new hop says -/

section pushHop

variable {router : Settings} {process : Process} {context : Context} {site : CallSite}
  {name nspace : String} {kind : Kind} {chain : List AtaskHop}

theorem pushHop_ok (h : pushHop router process context site name nspace kind = .ok chain) :
    (chain.length : Int) ≤ router.maxTraceDepth ∧
      chain = context.current ++ [newHop router process context site name nspace kind] := by
  unfold pushHop at h
  split at h
  · cases h
  · rename_i hdepth
    cases h
    refine ⟨?_, rfl⟩
    simp only [List.length_append, List.length_singleton]
    omega

end pushHop

end Atasks.Trace
