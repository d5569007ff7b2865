import Atasks.Trace
import Atasks.Lib.Text
/-!
# Reading a printed trace

`format_trace` (`atasks/trace.py:448-487`) is for people. What it prints can still be read in one
way only, frames with or without their source line, hops with or without frames, up to what it does
not print: numbers of hops, roots that no frame leads to, and blanks around source lines.

| here | there |
| --- | --- |
| `readFrames`       | the lines of `await_frames` and of `raise_frames` |
| `readCall`         | the two lines of a hop's own |
| `readTrace`        | the whole text |
| `FrameInfo.printed`, `AtaskHop.printed` | what is printed of a frame, of a hop |

`readTrace_formatTrace`: reading gives back what was printed.
-/

namespace Atasks.Trace

open Text (Str after cut rcut named valuesOf)

/-! ## Frames -/

/-- A line behind its indentation, `File "…", line …, in …`. -/
def readFrame (s : Str) : Option FrameInfo := do
  let s ← after "File \"".toList s
  let (file, s) ← rcut '"' s
  let s ← after ", line ".toList s
  let (line, s) ← cut ',' s
  let func ← after " in ".toList s
  some ⟨String.ofList file, Nat.ofDigitChars 10 line 0, String.ofList func, ""⟩

/-- The frames at the beginning of some lines. -/
def readFrames : List Str → List FrameInfo × List Str
  | [] => ([], [])
  | line :: lines =>
    match (after "      ".toList line).bind readFrame with
    | none => ([], line :: lines)
    | some frame =>
      match lines with
      | [] => ([frame], [])
      | next :: rest =>
        match after "        ".toList next with
        | some text =>
          let read := readFrames rest
          ({ frame with text := String.ofList text } :: read.1, read.2)
        | none =>
          let read := readFrames (next :: rest)
          (frame :: read.1, read.2)

/-- A frame with its source line as it is printed. -/
def FrameInfo.printed (frame : FrameInfo) : FrameInfo :=
  { frame with text := String.ofList (Text.strip frame.text.toList) }

/-- Names and lines as they occur: on one line, and no quotes in the name of a function. -/
structure FrameInfo.Plain (frame : FrameInfo) : Prop where
  file : '\n' ∉ frame.file.toList
  func : '\n' ∉ frame.func.toList
  unquoted : '"' ∉ frame.func.toList
  text : '\n' ∉ Text.strip frame.text.toList

/-- The first line of a frame, behind its indentation. -/
def frameLine (frame : FrameInfo) : Str :=
  "File \"".toList ++ (frame.file.toList ++ '"' ::
    (", line ".toList ++ (Nat.toDigits 10 frame.line ++ ',' ::
    (" in ".toList ++ frame.func.toList))))

theorem frameLine_eq (frame : FrameInfo) :
    frameLine frame = "File \"".toList ++ (frame.file.toList ++ '"' ::
    (", line ".toList ++ (Nat.toDigits 10 frame.line ++ ',' ::
      (" in ".toList ++ frame.func.toList)))) := rfl

theorem notMem_toDigits {c : Char} (hc : c.isDigit = false) (n : Nat) : c ∉ Nat.toDigits 10 n := by
  intro hmem
  rw [Text.Numerals.isDigit_of_mem_toDigits hmem] at hc
  cases hc

theorem readFrame_frameLine {frame : FrameInfo} (h : frame.Plain) :
    readFrame (frameLine frame) = some { frame with text := "" } := by
  have hquote : '"' ∉ ", line ".toList ++
      (Nat.toDigits 10 frame.line ++ ',' :: (" in ".toList ++ frame.func.toList)) := by
    simp [h.unquoted, notMem_toDigits]
  have hcomma : ',' ∉ Nat.toDigits 10 frame.line := notMem_toDigits rfl _
  rw [frameLine_eq]
  simp only [readFrame, Text.after_append, Option.bind_eq_bind, Option.bind_some,
    Text.rcut_append hquote, Text.cut_append hcomma,
    Nat.ofDigitChars_ten_toDigits, String.ofList_toList]

theorem newline_notMem_frameLine {frame : FrameInfo} (h : frame.Plain) :
    '\n' ∉ frameLine frame := by
  simp [frameLine_eq, h.file, h.func, notMem_toDigits]

/-- The lines of a frame. -/
def frameLines (indent : String) (frame : FrameInfo) : List Str :=
  (indent.toList ++ frameLine frame) ::
    if frame.text = "" then [] else [indent.toList ++ "  ".toList ++ Text.strip frame.text.toList]

theorem splitOn_formatFrame {frame : FrameInfo} (h : frame.Plain) {indent : String}
    (hindent : '\n' ∉ indent.toList) :
    (formatFrame frame indent).toList.splitOn '\n' = frameLines indent frame := by
  have hline : '\n' ∉ indent.toList ++ frameLine frame := by
    simp [hindent, newline_notMem_frameLine h]
  have hfirst : (indent ++ "File \"" ++ frame.file ++ "\", line " ++ toString frame.line ++
    ", in " ++ frame.func).toList =
      indent.toList ++ frameLine frame := by
    simp [frameLine_eq, String.toList_append]
  unfold formatFrame frameLines
  by_cases htext : frame.text = ""
  · simp only [htext, if_true]
    rw [hfirst]
    exact Text.splitOn_eq_singleton hline
  · have hsecond : '\n' ∉ indent.toList ++ "  ".toList ++ Text.strip frame.text.toList := by
      simp [hindent, h.text]
    simp only [htext, if_false]
    have hboth : (indent ++ "File \"" ++ frame.file ++ "\", line " ++ toString frame.line ++
      ", in " ++ frame.func ++ "\n" ++
        indent ++ "  " ++ String.ofList (Text.strip frame.text.toList)).toList =
          (indent.toList ++ frameLine frame) ++ '\n' ::
            (indent.toList ++ "  ".toList ++ Text.strip frame.text.toList) := by
      rw [← hfirst]
      simp [String.toList_append]
    rw [hboth, Text.splitOn_append_cons, Text.splitOn_eq_singleton hline,
      Text.splitOn_eq_singleton hsecond]
    rfl

/-- What does not go on with the frame before it. -/
def Apart (lines : List Str) : Prop := ∃ line rest, lines = line :: rest ∧
    after "        ".toList line = none

theorem apart_frames (frames : List FrameInfo) {lines : List Str} (h : Apart lines) :
    Apart (frames.flatMap (frameLines "      ") ++ lines) := by
  cases frames with
  | nil => exact h
  | cons frame frames => exact ⟨_, _, rfl, rfl⟩

theorem readFrames_frameLines {frame : FrameInfo} (h : frame.Plain) {lines : List Str}
    (hlines : Apart lines) :
    readFrames (frameLines "      " frame ++ lines) =
      (frame.printed :: (readFrames lines).1, (readFrames lines).2) := by
  have hread : (after "      ".toList ("      ".toList ++ frameLine frame)).bind readFrame =
      some { frame with text := "" } := by
    rw [Text.after_append, Option.bind_some, readFrame_frameLine h]
  obtain ⟨next, rest, rfl, hnext⟩ := hlines
  obtain ⟨file, line, func, text⟩ := frame
  by_cases htext : text = ""
  · subst htext
    simp only [frameLines, if_true, List.cons_append, List.nil_append]
    rw [readFrames, hread]
    simp only [hnext]
    rfl
  · have hafter : after "        ".toList
      ("      ".toList ++ "  ".toList ++ Text.strip text.toList) =
        some (Text.strip text.toList) := Text.after_append _ _
    simp only [frameLines, htext, if_false, List.cons_append, List.nil_append]
    rw [readFrames, hread]
    simp only [hafter, FrameInfo.printed]

theorem readFrames_append {frames : List FrameInfo} (h : ∀ frame ∈ frames, frame.Plain) {line : Str}
    {lines : List Str} (hframe : after "      ".toList line = none)
    (hline : after "        ".toList line = none) :
    readFrames (frames.flatMap (frameLines "      ") ++ line :: lines) =
      (frames.map FrameInfo.printed, line :: lines) := by
  have hapart : Apart (line :: lines) := ⟨line, lines, rfl, hline⟩
  induction frames with
  | nil =>
    rw [List.flatMap_nil, List.nil_append, readFrames, hframe]
    rfl
  | cons frame frames ih =>
    obtain ⟨hfirst, hrest⟩ := List.forall_mem_cons.1 h
    rw [List.flatMap_cons, List.append_assoc, readFrames_frameLines hfirst
      (apart_frames frames hapart), ih hrest,
      List.map_cons]

/-! ## Hops -/

/-- What can be read of a hop. -/
structure PrintedHop where
  /-- The line above the frames of a root. -/
  entry : Bool
  awaitFrames : List FrameInfo
  kind : Kind
  caller : FrameInfo
  task : String
  nspace : String
  callId : String
  host : String
  pid : Nat
  ts : String
deriving DecidableEq, Repr

def AtaskHop.caller (hop : AtaskHop) : FrameInfo :=
    ⟨hop.callerFile, hop.callerLine, hop.callerFunc, ""⟩

def AtaskHop.printed (process : Process) (hop : AtaskHop) : PrintedHop where
  entry := hop.isRoot && !hop.awaitFrames.isEmpty
  awaitFrames := hop.awaitFrames.map FrameInfo.printed
  kind := hop.kind
  caller := hop.caller
  task := hop.task
  nspace := hop.nspace
  callId := hop.callId
  host := hop.host
  pid := hop.pid
  ts := process.formatTs hop.ts

/-- Without blanks and ends of lines. -/
def Word (s : String) : Prop := ' ' ∉ s.toList ∧ '\n' ∉ s.toList

structure AtaskHop.Plain (process : Process) (hop : AtaskHop) : Prop where
  frames : ∀ frame ∈ hop.awaitFrames, frame.Plain
  caller : hop.caller.Plain
  task : Word hop.task
  nspace : Word hop.nspace
  callId : Word hop.callId
  host : Word hop.host
  ts : '\n' ∉ (process.formatTs hop.ts).toList

def entryLine : Str := "  -- entry point (no enclosing atask call) --".toList

def readKind (s : Str) : Option (Kind × Str) :=
  [Kind.rpc, .queue, .broadcast].findSome? fun kind =>
    (after ("  " ++ kindMarker kind ++ " ").toList s).map fun s => (kind, s)

def hopKeys : List Str := ["task", "namespace", "kind", "call_id", "host", "pid", "ts"].map
    String.toList

/-- The two lines of a hop's own at the beginning of some lines. -/
def readCall : List Str → Option (PrintedHop × List Str)
  | marker :: details :: rest => do
    let (kind, s) ← readKind marker
    let caller ← readFrame s
    let details ← after "        ".toList details
    match valuesOf hopKeys details with
    | some [task, nspace, _, callId, host, pid, ts] =>
      some
        (⟨false, [], kind, caller, String.ofList task, String.ofList nspace, String.ofList callId,
          String.ofList host,
          Nat.ofDigitChars 10 pid 0, String.ofList ts⟩, rest)
    | _ => none
  | _ => none

def hopFields (process : Process) (hop : AtaskHop) : List (Str × Str) :=
  [("task".toList, hop.task.toList), ("namespace".toList, hop.nspace.toList),
    ("kind".toList, (formatHop.kindName hop.kind).toList),
    ("call_id".toList, hop.callId.toList), ("host".toList, hop.host.toList),
      ("pid".toList, Nat.toDigits 10 hop.pid),
    ("ts".toList, (process.formatTs hop.ts).toList)]

/-- The two lines of a hop's own. -/
def callLines (process : Process) (hop : AtaskHop) : List Str :=
  [("  " ++ kindMarker hop.kind ++ " ").toList ++ frameLine hop.caller, "        ".toList ++ named
    (hopFields process hop)]

def hopLines (process : Process) (hop : AtaskHop) : List Str :=
  (if hop.isRoot && !hop.awaitFrames.isEmpty then [entryLine] else []) ++ hop.awaitFrames.flatMap
    (frameLines "      ") ++
    callLines process hop

theorem readKind_append (kind : Kind) (s : Str) :
    readKind (("  " ++ kindMarker kind ++ " ").toList ++ s) = some (kind, s) := by
  have hself : after ("  " ++ kindMarker kind ++ " ").toList
    (("  " ++ kindMarker kind ++ " ").toList ++ s) = some s := Text.after_append _ _
  have hother : ∀ kind', kind' ≠ kind → after ("  " ++ kindMarker kind' ++ " ").toList
      (("  " ++ kindMarker kind ++ " ").toList ++ s) = none := by
    intro kind' hne
    cases kind <;> cases kind' <;> first | rfl | exact absurd rfl hne
  cases kind with
  | rpc => simp only [readKind, List.findSome?_cons, hself, Option.map_some]
  | queue =>
    simp only [readKind, List.findSome?_cons, hself, hother .rpc (by decide), Option.map_some,
      Option.map_none]
  | broadcast =>
    simp only [readKind, List.findSome?_cons, hself, hother .rpc (by decide),
      hother .queue (by decide), Option.map_some, Option.map_none]

theorem valuesOf_hopFields {process : Process} {hop : AtaskHop} (h : hop.Plain process) :
    valuesOf hopKeys (named (hopFields process hop)) =
      some ((hopFields process hop).map Prod.snd) := by
  have hkeys : hopKeys = (hopFields process hop).map Prod.fst := rfl
  rw [hkeys]
  refine Text.valuesOf_named (List.cons_ne_nil _ _) fun field hfield => ?_
  have hkind : ' ' ∉ (formatHop.kindName hop.kind).toList := by cases hop.kind <;> decide
  have hpid : ' ' ∉ Nat.toDigits 10 hop.pid := notMem_toDigits rfl _
  simp only [hopFields, List.dropLast, List.mem_cons, List.not_mem_nil, or_false] at hfield
  rcases hfield with rfl | rfl | rfl | rfl | rfl | rfl
  · exact h.task.1
  · exact h.nspace.1
  · exact hkind
  · exact h.callId.1
  · exact h.host.1
  · exact hpid

theorem readCall_callLines {process : Process} {hop : AtaskHop} (h : hop.Plain process)
    (rest : List Str) :
    readCall (callLines process hop ++ rest) =
      some ({ hop.printed process with entry := false, awaitFrames := [] }, rest) := by
  simp only [callLines, List.cons_append, List.nil_append, readCall, readKind_append,
    readFrame_frameLine h.caller, Text.after_append,
    valuesOf_hopFields h, Option.bind_eq_bind, Option.bind_some]
  simp [hopFields, AtaskHop.printed, AtaskHop.caller]

theorem newline_notMem_named {fields : List (Str × Str)}
    (hkeys : ∀ key ∈ fields.map Prod.fst, '\n' ∉ key)
    (hvalues : ∀ value ∈ fields.map Prod.snd, '\n' ∉ value) : '\n' ∉ named fields := by
  intro hmem
  rcases Text.mem_join hmem with heq | ⟨part, hpart, hmem⟩
  · exact absurd heq (by decide)
  · obtain ⟨field, hfield, rfl⟩ := List.mem_map.1 hpart
    have hkey := hkeys _ (List.mem_map_of_mem hfield)
    have hvalue := hvalues _ (List.mem_map_of_mem hfield)
    simp [hkey, hvalue] at hmem

theorem newline_notMem_hopFields {process : Process} {hop : AtaskHop} (h : hop.Plain process) :
    '\n' ∉ named (hopFields process hop) := by
  have hkeys : ∀ key ∈ hopKeys, '\n' ∉ key := by decide
  have hkind : '\n' ∉ (formatHop.kindName hop.kind).toList := by cases hop.kind <;> decide
  have hpid : '\n' ∉ Nat.toDigits 10 hop.pid := notMem_toDigits rfl _
  refine newline_notMem_named hkeys fun value hvalue => ?_
  simp only [hopFields, List.map_cons, List.map_nil, List.mem_cons, List.not_mem_nil, or_false]
    at hvalue
  rcases hvalue with rfl | rfl | rfl | rfl | rfl | rfl | rfl
  · exact h.task.2
  · exact h.nspace.2
  · exact hkind
  · exact h.callId.2
  · exact h.host.2
  · exact hpid
  · exact h.ts

theorem splitOn_formatFrames {frames : List FrameInfo} (h : ∀ frame ∈ frames, frame.Plain) :
    (frames.map fun frame => formatFrame frame "      ").flatMap
    (fun piece => piece.toList.splitOn '\n') =
      frames.flatMap (frameLines "      ") := by
  rw [List.flatMap_map]
  exact List.flatMap_congr fun frame hframe => splitOn_formatFrame (h frame hframe) (by decide)

theorem splitOn_formatHop {process : Process} {hop : AtaskHop} (h : hop.Plain process) :
    (formatHop process hop).flatMap (fun piece => piece.toList.splitOn '\n') =
      hopLines process hop := by
  have hindent : '\n' ∉ ("  " ++ kindMarker hop.kind ++ " ").toList := by cases hop.kind <;> decide
  have hcaller := splitOn_formatFrame h.caller hindent
  have hdetails : ("        task=" ++ hop.task ++ " namespace=" ++ hop.nspace ++ " kind=" ++
      formatHop.kindName hop.kind ++ " call_id=" ++ hop.callId ++
      " host=" ++ hop.host ++ " pid=" ++ toString hop.pid ++ " ts=" ++
      process.formatTs hop.ts).toList = "        ".toList ++ named (hopFields process hop) := by
    simp [named, hopFields, Text.join_cons, String.toList_append]
  have hline : '\n' ∉ "        ".toList ++ named (hopFields process hop) := by
    simp [newline_notMem_hopFields h]
  simp only [formatHop, List.flatMap_append, splitOn_formatFrames h.frames, List.flatMap_cons,
    List.flatMap_nil, List.append_nil]
  rw [hdetails, Text.splitOn_eq_singleton hline]
  have hentry : (if hop.isRoot && !hop.awaitFrames.isEmpty then ["  -- entry point (no enclosing atask call) --"] else []).flatMap
      (fun piece : String => piece.toList.splitOn '\n') = if hop.isRoot &&
        !hop.awaitFrames.isEmpty then [entryLine] else [] := by
    split <;> rfl
  rw [hentry]
  change _ ++ ((formatFrame hop.caller ("  " ++ kindMarker hop.kind ++ " ")).toList.splitOn '\n' ++
    _) = _
  rw [hcaller]
  simp [hopLines, callLines, frameLines, AtaskHop.caller]

/-! ## The whole text -/

/-- What can be read of a trace, and of the exception it is on. -/
structure Printed where
  hops : List PrintedHop
  raiseFrames : List FrameInfo
  raiseHost : String
  raisePid : Nat
  /-- The class of the exception and what it says. -/
  last : String
deriving DecidableEq, Repr

def AtaskTrace.printed (process : Process) (info : AtaskTrace) (last : String) : Printed :=
  ⟨info.hops.map (AtaskHop.printed process), info.raiseFrames.map FrameInfo.printed, info.raiseHost,
    info.raisePid, last⟩

structure AtaskTrace.Plain (process : Process) (info : AtaskTrace) : Prop where
  hops : ∀ hop ∈ info.hops, hop.Plain process
  frames : ∀ frame ∈ info.raiseFrames, frame.Plain
  host : Word info.raiseHost

def raisedKeys : List Str := ["host", "pid"].map String.toList

def readRaised : List Str → Option (String × Nat × String)
  | [] => none
  | line :: lines => do
    let s ← after "  (raised on ".toList line
    let (s, _) ← rcut ')' s
    match valuesOf raisedKeys s with
    | some [host, pid] =>
      some (String.ofList host, Nat.ofDigitChars 10 pid 0, String.ofList (Text.join '\n' lines))
    | _ => none

/-- Frames lead to a hop, or to where the exception was raised. -/
def readBody : Nat → List Str → Option Printed
  | 0, _ => none
  | n + 1, lines =>
    let entry := lines.head? = some entryLine
    let read := readFrames (if entry then lines.tail else lines)
    match readCall read.2 with
    | some (hop, rest) =>
      (readBody n rest).map fun printed =>
        { printed with hops := { hop with entry, awaitFrames := read.1 } :: printed.hops }
    | none =>
      if entry then none
      else (readRaised read.2).map fun (raised : String × Nat × String) =>
        ⟨[], read.1, raised.1, raised.2.1, raised.2.2⟩

def readTrace (text : String) : Option Printed :=
  match text.toList.splitOn '\n' with
  | [] => none
  | header :: lines =>
    if header = "Atask call chain (root -> failure):".toList then readBody lines.length lines
      else none

def raisedFields (info : AtaskTrace) : List (Str × Str) :=
  [("host".toList, info.raiseHost.toList), ("pid".toList, Nat.toDigits 10 info.raisePid)]

def raisedLine (info : AtaskTrace) : Str :=
    "  (raised on ".toList ++ (named (raisedFields info) ++ [')'])

theorem raisedLine_eq (info : AtaskTrace) :
    raisedLine info = "  (raised on ".toList ++ (named (raisedFields info) ++ [')']) := rfl

/-- The lines of a trace, up to what comes of the exception. -/
def bodyLines (process : Process) (hops : List AtaskHop) (info : AtaskTrace) : List Str :=
  hops.flatMap (hopLines process) ++ info.raiseFrames.flatMap (frameLines "      ") ++
    [raisedLine info]

theorem valuesOf_raisedFields {info : AtaskTrace} (h : Word info.raiseHost) :
    valuesOf raisedKeys (named (raisedFields info)) =
      some [info.raiseHost.toList, Nat.toDigits 10 info.raisePid] := by
  have hkeys : raisedKeys = (raisedFields info).map Prod.fst := rfl
  rw [hkeys]
  refine Text.valuesOf_named (List.cons_ne_nil _ _) fun field hfield => ?_
  cases List.mem_singleton.1 hfield
  exact h.1

theorem readRaised_raisedLine {info : AtaskTrace} (h : Word info.raiseHost) (lines : List Str) :
    readRaised (raisedLine info :: lines) = some (info.raiseHost, info.raisePid, String.ofList
      (Text.join '\n' lines)) := by
  have hcut : rcut ')' (named (raisedFields info) ++ [')']) =
    some (named (raisedFields info), []) := Text.rcut_append List.not_mem_nil
  have hafter : after "  (raised on ".toList (raisedLine info) =
    some (named (raisedFields info) ++ [')']) := Text.after_append _ _
  rw [readRaised, hafter]
  simp only [Option.bind_eq_bind, Option.bind_some]
  rw [hcut]
  simp only [Option.bind_some]
  rw [valuesOf_raisedFields h]
  simp

/-- The line after the frames of a hop, or of the exception. -/
structure Closing (line : Str) : Prop where
  frame : after "      ".toList line = none
  text : after "        ".toList line = none
  entry : line ≠ entryLine

theorem closing_of_third {s : Str} {c : Char} (h : s[2]? = some c) (hblank : c ≠ ' ')
    (hdash : c ≠ '-') : Closing s := by
  obtain ⟨a, b, rest, rfl⟩ : ∃ a b rest, s = a :: b :: c :: rest := by
    match s, h with
    | a :: b :: d :: rest, h => exact ⟨a, b, rest, by rw [Option.some.inj h]⟩
  have hafter : ∀ indent : Str, after (' ' :: ' ' :: ' ' :: indent) (a :: b :: c :: rest) =
      none := by
    intro indent
    simp only [after, if_neg hblank.symm, ite_self]
  refine ⟨hafter _, hafter _, fun hentry => ?_⟩
  have hthird : some c = some '-' := congrArg (fun (s : Str) => s[2]?) hentry
  exact hdash (Option.some.inj hthird)

theorem closing_callLine (kind : Kind) (s : Str) :
    Closing (("  " ++ kindMarker kind ++ " ").toList ++ s) := by
  have hthird : (("  " ++ kindMarker kind ++ " ").toList ++ s)[2]? = some '»' := by
    cases kind <;> rfl
  exact closing_of_third hthird (by decide) (by decide)

theorem closing_raisedLine (info : AtaskTrace) : Closing (raisedLine info) := by
  have hthird : (raisedLine info)[2]? = some '(' := rfl
  exact closing_of_third hthird (by decide) (by decide)

theorem readCall_raisedLine (info : AtaskTrace) (lines : List Str) :
    readCall (raisedLine info :: lines) = none := by
  cases lines with
  | nil => rfl
  | cons line lines =>
    have hkind : readKind (raisedLine info) = none := rfl
    rw [readCall, hkind]
    rfl

theorem head_frames (frames : List FrameInfo) {line : Str} (hline : Closing line)
    (lines : List Str) :
    (frames.flatMap (frameLines "      ") ++ line :: lines).head? ≠ some entryLine := by
  cases frames with
  | nil => exact fun h => hline.entry (Option.some.inj h)
  | cons frame frames =>
    intro h
    have hthird : some ' ' = some '-' := congrArg (fun (s : Str) => s[2]?) (Option.some.inj h)
    exact absurd hthird (by decide)

/-- Up to the line after the frames. -/
theorem readBody_frames {frames : List FrameInfo} (h : ∀ frame ∈ frames, frame.Plain) {line : Str}
    (hline : Closing line) (lines : List Str) (entry : Bool) (n : Nat) :
    readBody (n + 1) ((if entry then [entryLine] else []) ++ frames.flatMap (frameLines "      ") ++
      line :: lines) =
      match readCall (line :: lines) with
      | some (hop, rest) =>
        (readBody n rest).map fun printed =>
          { printed with hops :=
            { hop with entry, awaitFrames := frames.map FrameInfo.printed } :: printed.hops }
      | none =>
        if entry then none
        else (readRaised (line :: lines)).map fun (raised : String × Nat × String) =>
          ⟨[], frames.map FrameInfo.printed, raised.1, raised.2.1, raised.2.2⟩ := by
  have hframes : readFrames (frames.flatMap (frameLines "      ") ++ line :: lines) =
      (frames.map FrameInfo.printed, line :: lines) :=
    readFrames_append h hline.frame hline.text
  cases entry with
  | true => simp [readBody, hframes]
  | false =>
    have hhead := head_frames frames hline lines
    simp only [Bool.false_eq_true, if_false, List.nil_append, readBody, if_neg hhead,
      decide_eq_false hhead, hframes]

theorem readBody_bodyLines {process : Process} {info : AtaskTrace}
    (hframes : ∀ frame ∈ info.raiseFrames, frame.Plain) (hhost : Word info.raiseHost)
    (lines : List Str) {hops : List AtaskHop} (hplain : ∀ hop ∈ hops, hop.Plain process) {n : Nat}
    (hn : hops.length < n) :
    readBody n (bodyLines process hops info ++ lines) =
      some ⟨hops.map (AtaskHop.printed process), info.raiseFrames.map FrameInfo.printed,
        info.raiseHost, info.raisePid,
        String.ofList (Text.join '\n' lines)⟩ := by
  induction hops generalizing n with
  | nil =>
    obtain ⟨n, rfl⟩ := Nat.exists_eq_add_one_of_ne_zero (Nat.ne_of_gt hn)
    have hbody := readBody_frames hframes (closing_raisedLine info) lines false n
    rw [readCall_raisedLine, readRaised_raisedLine hhost] at hbody
    simpa [bodyLines] using hbody
  | cons hop hops ih =>
    obtain ⟨n, rfl⟩ := Nat.exists_eq_add_one_of_ne_zero
      (Nat.ne_of_gt (Nat.lt_of_le_of_lt (Nat.zero_le _) hn))
    obtain ⟨hhop, hrest⟩ := List.forall_mem_cons.1 hplain
    have hbody := readBody_frames hhop.frames (closing_callLine hop.kind (frameLine hop.caller))
      (("        ".toList ++ named (hopFields process hop)) ::
        (bodyLines process hops info ++ lines))
      (hop.isRoot && !hop.awaitFrames.isEmpty) n
    have hcall := readCall_callLines hhop (bodyLines process hops info ++ lines)
    rw [callLines, List.cons_append, List.cons_append, List.nil_append] at hcall
    rw [hcall] at hbody
    have hlines : bodyLines process (hop :: hops) info ++ lines =
        (if hop.isRoot && !hop.awaitFrames.isEmpty then [entryLine] else []) ++
          hop.awaitFrames.flatMap (frameLines "      ") ++
          (("  " ++ kindMarker hop.kind ++ " ").toList ++ frameLine hop.caller) ::
            (("        ".toList ++ named (hopFields process hop)) ::
              (bodyLines process hops info ++ lines)) := by
      simp [bodyLines, hopLines, callLines]
    rw [hlines, hbody]
    simp [ih hrest (Nat.lt_of_succ_lt_succ hn), AtaskHop.printed]

theorem length_le_bodyLines (process : Process) (hops : List AtaskHop) (info : AtaskTrace) :
    hops.length < (bodyLines process hops info).length := by
  have hhops : hops.length ≤ (hops.flatMap (hopLines process)).length := by
    induction hops with
    | nil => exact Nat.le_refl 0
    | cons hop hops ih =>
      rw [List.flatMap_cons, List.length_append, List.length_cons]
      have hone : 2 ≤ (hopLines process hop).length := List.length_append ▸ Nat.le_add_left _ _
      omega
  simp only [bodyLines, List.length_append, List.length_singleton]
  omega

theorem splitOn_intercalate_lines {pieces : List String} (hne : pieces ≠ []) :
    ("\n".intercalate pieces).toList.splitOn '\n' = pieces.flatMap fun piece =>
    piece.toList.splitOn '\n' := by
  have hjoin : ("\n".intercalate pieces).toList = Text.join '\n' (pieces.map String.toList) :=
    String.toList_intercalate
  rw [hjoin, Text.splitOn_join_flatMap '\n' (by simpa using hne), List.flatMap_map]

theorem splitOn_raised (info : AtaskTrace) (h : Word info.raiseHost) :
    ("  (raised on host=" ++ info.raiseHost ++ " pid=" ++ toString info.raisePid ++
      ")").toList.splitOn '\n' = [raisedLine info] := by
  have hline : ("  (raised on host=" ++ info.raiseHost ++ " pid=" ++ toString info.raisePid ++
      ")").toList = raisedLine info := by
    rw [raisedLine_eq]
    simp [raisedFields, named, Text.join_cons, String.toList_append]
  have hnewline : '\n' ∉ raisedLine info := by
    have hkeys : ∀ key ∈ raisedKeys, '\n' ∉ key := by decide
    have hnamed : '\n' ∉ named (raisedFields info) := by
      refine newline_notMem_named hkeys fun value hvalue => ?_
      simp only [raisedFields, List.map_cons, List.map_nil, List.mem_cons, List.not_mem_nil,
        or_false] at hvalue
      rcases hvalue with rfl | rfl
      · exact h.2
      · exact notMem_toDigits rfl _
    rw [raisedLine_eq]
    simp [hnamed]
  rw [hline, Text.splitOn_eq_singleton hnewline]

theorem splitOn_bodyLines {process : Process} {info : AtaskTrace} (h : info.Plain process) :
    (info.hops.flatMap (formatHop process) ++ info.raiseFrames.map
      (fun frame => formatFrame frame "      ") ++
        ["  (raised on host=" ++ info.raiseHost ++ " pid=" ++ toString info.raisePid ++
          ")"]).flatMap
      (fun piece => piece.toList.splitOn '\n') = bodyLines process info.hops info := by
  have hhops : info.hops.flatMap (fun hop => (formatHop process hop).flatMap fun piece =>
    piece.toList.splitOn '\n') =
      info.hops.flatMap (hopLines process) :=
    List.flatMap_congr fun hop hhop => splitOn_formatHop (h.hops hop hhop)
  rw [List.flatMap_append, List.flatMap_append, List.flatMap_assoc, hhops,
    splitOn_formatFrames h.frames, List.flatMap_singleton,
    splitOn_raised info h.host]
  rfl

theorem readBody_noTrace (lines : List Str) (n : Nat) :
    readBody n ("  <no atask trace attached>".toList :: lines) = none := by
  cases n with
  | zero => rfl
  | succ n =>
    have hthird : ("  <no atask trace attached>".toList : Str)[2]? = some '<' := rfl
    have hbody := @readBody_frames [] (by simp) _ (closing_of_third hthird (by decide) (by decide))
      lines false n
    have hcall : readCall ("  <no atask trace attached>".toList :: lines) = none := by
      cases lines <;> rfl
    rw [hcall] at hbody
    exact hbody

variable {ε : Type}

/-- **A printed trace can be read.** With names and lines as they occur, whatever the exception says,
everything that `format_trace` prints of a chain and of its frames can be told from the text alone, and
nothing is read where there is no trace. -/
theorem readTrace_formatTrace (exceptions : Exceptions ε) (process : Process) {ex : ε}
    {text : String} (hplain : ∀ info, exceptions.trace ex = some info → info.Plain process)
    (h : formatTrace exceptions process ex = .ok text) :
    ∃ said, exceptions.str ex = .ok said ∧
      readTrace text = (exceptions.trace ex).map fun info => info.printed process
        (exceptions.className ex ++ ": " ++ said) := by
  unfold formatTrace at h
  cases hstr : exceptions.str ex with
  | error ex' =>
    rw [hstr] at h
    cases h
  | ok said =>
    refine ⟨said, rfl, ?_⟩
    rw [hstr] at h
    have hlast : ∀ last : String, String.ofList (Text.join '\n' (last.toList.splitOn '\n')) =
        last := by
      intro last
      rw [Text.join, List.intercalate_splitOn '\n', String.ofList_toList]
    have hheader : "Atask call chain (root -> failure):".toList.splitOn '\n' =
        ["Atask call chain (root -> failure):".toList] :=
      Text.splitOn_eq_singleton (by decide)
    cases htrace : exceptions.trace ex with
    | none =>
      rw [htrace] at h
      cases h
      rw [readTrace, splitOn_intercalate_lines (by simp), List.cons_append, List.flatMap_cons,
        hheader, List.flatMap_append]
      exact readBody_noTrace _ _
    | some info =>
      rw [htrace] at h
      cases h
      have hinfo := hplain info htrace
      rw [readTrace, splitOn_intercalate_lines (by simp), List.cons_append, List.flatMap_cons,
        hheader, List.flatMap_append,
        splitOn_bodyLines hinfo, List.flatMap_singleton]
      have hlength : info.hops.length <
          (bodyLines process info.hops info ++
            (exceptions.className ex ++ ": " ++ said).toList.splitOn '\n').length := by
        rw [List.length_append]
        exact Nat.lt_add_right _ (length_le_bodyLines process info.hops info)
      have hbody := readBody_bodyLines hinfo.frames hinfo.host
        ((exceptions.className ex ++ ": " ++ said).toList.splitOn '\n') hinfo.hops hlength
      rw [hlast] at hbody
      exact hbody

/-- A trace on an object of its own. -/
def traced : Exceptions AtaskTrace := ⟨some, fun _ _ => .attributeError, fun _ => "ValueError",
      fun _ => .ok "bad\nvalue"⟩

def utcProcess : Process := ⟨1, "/", fun _ => [], id, fun _ _ => "", fun _ =>
      "2024-01-01 00:00:00.000Z"⟩

/-- A root with a frame above it, and a second frame without its line. -/
def oneHop : AtaskTrace where
  hops := [⟨0, "c0", "m.f", "default", .queue, "m.py", 7, "main", "a", 1, 0,
    [⟨"app.py", 3, "<module>", "    main()"⟩, ⟨"x.py", 4, "g", ""⟩], true⟩]
  raiseHost := "b"
  raisePid := 2
  raiseFrames := [⟨"m.py", 12, "f", "raise ValueError()"⟩]

theorem plain_oneHop : oneHop.Plain utcProcess := by
  refine ⟨fun hop hhop => ?_, fun frame hframe => ?_, by decide, by decide⟩
  · cases List.mem_singleton.1 hhop
    refine ⟨fun frame hframe => ?_, ⟨by decide, by decide, by decide, by decide⟩,
      ⟨by decide, by decide⟩, ⟨by decide, by decide⟩,
      ⟨by decide, by decide⟩, ⟨by decide, by decide⟩, by decide⟩
    rcases List.mem_cons.1 hframe with rfl | hframe
    · exact ⟨by decide, by decide, by decide, by decide⟩
    · cases List.mem_singleton.1 hframe
      exact ⟨by decide, by decide, by decide, by decide⟩
  · cases List.mem_singleton.1 hframe
    exact ⟨by decide, by decide, by decide, by decide⟩

theorem readTrace_formatTrace_oneHop : ∃ text, formatTrace traced utcProcess oneHop = .ok text ∧
    readTrace text = some (oneHop.printed utcProcess "ValueError: bad\nvalue") := by
  refine ⟨_, rfl, ?_⟩
  obtain ⟨said, hsaid, hread⟩ := @readTrace_formatTrace _ traced utcProcess oneHop _
    (fun info hinfo => by cases hinfo; exact plain_oneHop) rfl
  cases hsaid
  exact hread

end Atasks.Trace
