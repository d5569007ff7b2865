import Atasks.Commands.Decorators
import Atasks.Commands.Generate
/-!
# What a generated module calls

The `refs` command from end to end (`atasks/commands/refs.py`): what a source registers when it
is imported, against what the module generated from it binds when that one is. The parts are
`taskReferences` against `execute` (`Commands/Decorators.lean`), the text against its
references (`Commands/Rendered.lean`) and the files (`Commands/Generate.lean`).

| here | there |
| --- | --- |
| `Host.Registers`    | importing a source under the name that its specification gives it, or the default |
| `load`              | importing a file that was written in UTF-8 (`:99`) |
| `registeredAs`      | what its functions would call, by name, as the references of another process |
| `parts`             | a module for each source, or one for all of them (`--output-file`) |

An import obeys the encoding that a file declares, the command reads (`:146`) and writes UTF-8:
nothing is said of sources and of paths in the header that declare one.

* `generate_serves_iff`: every generated module can be imported and binds each function to the
  task it was registered as last, exactly if no function takes the name of a factory that a
  later one needs, and none is called `__debug__` or by a reserved word.
-/

namespace Atasks.Commands

open Text (Str)
open Rendered
open Generate Generate.Host

/-- The coroutine that calls a task from elsewhere. -/
def Registration.object (registration : Registration) : Option Rendered.Value :=
  match registration.taskName, registration.nspace with
  | .str taskName, .str nspace =>
    some (.coroutine ⟨registration.kind, nspace.toList⟩ taskName.toList)
  | _, _ => none

/-- What a name stands for in a module that stands for these registrations. -/
def registeredAs (registered : List Registration) (name : Str) : Option Rendered.Value :=
  match registered.reverse.find? fun registration => registration.functionName.toList = name with
  | some registration => registration.object
  | none => (factoryNamed name).map fun kind => .factory (imported kind)

/-- The module has been executed, and its names stand for these registrations. -/
def Serves (result : Except Rendered.Raised Globals) (registered : List Registration) : Prop :=
  ∃ globals, result = .ok globals ∧ ∀ name, globals.get? name = registeredAs registered name

/-- No function takes a name that the module needs. -/
structure Bindable (registered : List Registration) : Prop where
  kept : registered.Pairwise fun earlier later => earlier.functionName ≠ refFactory later.kind
  assignable : ∀ registration ∈ registered, unassignable registration.functionName.toList = false

/-- A path that the header can hold: it stays on its line and declares no encoding there. -/
structure HeaderPath (path : Str) : Prop where
  noBreak : Lexis.NoBreak path
  nul : Lexis.nul ∉ path
  noCoding : Lexis.NoCoding path

/-- The module in a file with this text in UTF-8; under a declared encoding it is read as another
text (`declared`), if at all. -/
def load (charset : Lexis.Charset) (elsewhere : Globals → List Str → Except Rendered.Raised Globals)
    (declared : Str → Except Rendered.Raised Globals) (text : Str) :
    Except Rendered.Raised Globals :=
  if Lexis.declaresEncoding text then declared text else Rendered.execute charset elsewhere text

/-- The modules that are generated, each with what is registered in its sources. -/
def parts (outputFile : Option Str) (registered : List (List Registration)) : List
    (List Registration) :=
  if outputFile = none then registered else [registered.flatten]

/-- The source of a specification, in UTF-8, registers these tasks, in a way that the command can
read. -/
def Generate.Host.Registers {κ : Type} (host : Host κ) (files : Files κ) (spec : Str)
    (registered : List Registration) : Prop :=
  ∃ source moduleName text body, host.source spec = .ok source ∧
    host.moduleName source = .ok moduleName ∧
    host.read files source.1 = .ok text ∧ Lexis.declaresEncoding text = false ∧
      host.parse text = .ok (body.map Executed.stmt) ∧
      execute (String.ofList moduleName) body = some registered ∧
        ReadableModule (String.ofList moduleName) body

/-! ## References and registrations -/

section references

variable {references : List Reference}

theorem object_target (reference : Reference) :
    reference.target.object = some (object reference) := rfl

theorem registeredAs_target (references : List Reference) :
    registeredAs (references.map Reference.target) = meant references := by
  funext name
  have hfind : (references.map Reference.target).reverse.find?
    (fun registration => registration.functionName.toList = name) =
      (references.reverse.find? fun reference => reference.functionName.toList = name).map
        Reference.target := by
    rw [← List.map_reverse, List.find?_map]
    rfl
  rw [registeredAs, meant, hfind]
  cases references.reverse.find? fun reference => reference.functionName.toList = name with
  | none => rfl
  | some reference => exact object_target reference

theorem serves_target_iff {result : Except Rendered.Raised Globals} :
    Serves result (references.map Reference.target) ↔ Means result references := by
  rw [Serves, registeredAs_target, Means]

theorem bindable_target_iff :
    Bindable (references.map Reference.target) ↔ Kept references ∧ Assignable references := by
  have hkept : ((references.map Reference.target).Pairwise fun earlier later =>
    earlier.functionName ≠ refFactory later.kind) ↔
      Kept references := List.pairwise_map
  have hassignable : (∀ registration ∈ references.map Reference.target,
    unassignable registration.functionName.toList = false) ↔
      Assignable references := List.forall_mem_map
  rw [← hkept, ← hassignable]
  exact ⟨fun h => ⟨h.kept, h.assignable⟩, fun h => ⟨h.1, h.2⟩⟩

/-- The text of readable sources, whose paths are written in its header. -/
theorem serves_renderReferences_iff (charset : Lexis.Charset)
    (elsewhere : Globals → List Str → Except Rendered.Raised Globals)
    (declared : Str → Except Rendered.Raised Globals)
    (hnames : ∀ reference ∈ references, charset.isIdentifier reference.functionName.toList = true)
    {sourcePaths : List Str} (hpaths : ∀ sourcePath ∈ sourcePaths, HeaderPath sourcePath) :
    Serves (load charset elsewhere declared (renderReferences charset references sourcePaths))
    (references.map Reference.target) ↔
      Bindable (references.map Reference.target) := by
  have hbreak : ∀ sourcePath ∈ sourcePaths, Lexis.NoBreak sourcePath :=
    fun sourcePath hmem => (hpaths sourcePath hmem).noBreak
  have hcoding : ∀ sourcePath ∈ sourcePaths, Lexis.NoCoding sourcePath :=
    fun sourcePath hmem => (hpaths sourcePath hmem).noCoding
  have hnul : ∀ sourcePath ∈ sourcePaths, Lexis.nul ∉ sourcePath :=
    fun sourcePath hmem => (hpaths sourcePath hmem).nul
  have hload : load charset elsewhere declared (renderReferences charset references sourcePaths) =
      Rendered.execute charset elsewhere (renderReferences charset references sourcePaths) :=
    if_neg (by simp [not_declaresEncoding_renderReferences hnames hbreak hcoding])
  rw [hload, serves_target_iff, means_iff hnames (onlyComments_of_noBreak hbreak),
    bindable_target_iff]
  exact ⟨fun h => ⟨h.1, h.2.1⟩, fun h => ⟨h.1, h.2, hnul⟩⟩

end references

/-! ## The files -/

namespace Generate.Host

variable {κ : Type} {host : Host κ} {files after : Files κ} {spec : Str} {specs : List Str}
  {outputDir outputFile : Option Str} {references : List Reference} {registered : List Registration}

/-- What is read off a source is what it registers. -/
theorem Registers.target_eq (h : host.Registers files spec registered)
    (hreferences : host.ReferencesOf files spec references) :
    references.map Reference.target = registered := by
  obtain ⟨source, moduleName, text, body, hsource, hmodule, htext, -, hbody, hexecute, hreadable⟩ :=
    h
  obtain ⟨source', hsource', hread⟩ := hreferences
  cases hsource.symm.trans hsource'
  obtain ⟨_, -, hread⟩ := Raising.bind_eq_ok_iff.1 hread
  obtain ⟨moduleName', hmodule', hread⟩ := Raising.bind_eq_ok_iff.1 hread
  cases hmodule.symm.trans (raising_eq_ok_iff.1 hmodule')
  obtain ⟨text', htext', hread⟩ := Raising.bind_eq_ok_iff.1 hread
  cases htext.symm.trans htext'
  obtain ⟨body', hbody', hread⟩ := Raising.bind_eq_ok_iff.1 hread
  cases hbody.symm.trans hbody'
  obtain ⟨references', hreferences', hread⟩ := Raising.bind_eq_ok_iff.1 hread
  cases hread
  exact (taskReferences_agree (registrations_of_execute hexecute)
    (raising_eq_ok_iff.1 hreferences')).2.2 hreadable

theorem ReferencesOf.names (h : host.ReferencesOf files spec references) {reference : Reference}
    (hmem : reference ∈ references) :
    host.charset.isIdentifier reference.functionName.toList = true := by
  obtain ⟨source, -, hread⟩ := h
  obtain ⟨-, moduleName, text, body, hbody, hreferences⟩ := readSource_eq_ok hread
  obtain ⟨decorators, hdecorators⟩ := mem_of_taskReferences hreferences hmem
  exact host.names text body hbody _ decorators hdecorators

theorem target_flatten {registered : List (List Registration)} {references : List (List Reference)}
    (hregisters : List.Forall₂ (host.Registers files) specs registered)
    (hreferences : List.Forall₂ (host.ReferencesOf files) specs references) :
    references.flatten.map Reference.target = registered.flatten := by
  induction hregisters generalizing references with
  | nil =>
    cases hreferences
    rfl
  | cons hhead _ ih =>
    cases hreferences with
    | cons hreference hreferences =>
      rw [List.flatten_cons, List.flatten_cons, List.map_append, hhead.target_eq hreference,
        ih hreferences]

theorem names_flatten {references : List (List Reference)}
    (h : List.Forall₂ (host.ReferencesOf files) specs references) :
    ∀ reference ∈ references.flatten,
      host.charset.isIdentifier reference.functionName.toList = true := by
  induction h with
  | nil => simp
  | cons hhead _ ih =>
    rw [List.flatten_cons]
    exact List.forall_mem_append.2 ⟨fun reference hmem => hhead.names hmem, ih⟩

variable [DecidableEq κ]

/-- Sources that are safe are written as they should be. -/
theorem holds_of_safe {result : Output}
    (hsafe : ∀ references, host.Accepted files specs outputDir outputFile references →
      host.Safe (host.given specs) references.flatten outputDir outputFile)
    (h : host.generate files specs outputDir outputFile = (after, .ok result)) :
    host.Holds files after specs outputDir outputFile result.toList := by
  cases hparsed : host.parsedSources files specs outputDir outputFile with
  | error raised =>
    rw [generate_of_error hparsed] at h
    cases h
  | ok parsed =>
    have hgiven : host.given specs = parsed.map Prod.fst :=
      (parsedSources_eq_ok_iff.1 hparsed).2.2.2.given_eq
    have hsafe : host.Safe (host.given specs) (parsed.flatMap Prod.snd) outputDir outputFile :=
      hsafe _ (accepted_iff.2 ⟨parsed, hparsed, rfl⟩)
    rw [hgiven] at hsafe
    cases outputFile with
    | none => exact ((each_iff hparsed).2 hsafe).all after result h
    | some outputFile => exact ((combined_iff hparsed).2 hsafe).all after result h

end Generate.Host

def workText : Str :=
  "from atasks.tasks import atask_queue\n\n@atask_queue(namespace='workers', timeout=30)\nasync def work(): ...\n".toList

/-- A directory with one source. -/
def workHost : Host Str where
  charset := .plain
  parse := fun text => if text = workText then .ok [.other, .function "work" byKeyword]
    else .error .syntaxError
  names := by
    intro text body h name decorators hmem
    split at h
    · cases h
      simp only [List.mem_cons, Stmt.function.injEq, reduceCtorEq, false_or, List.not_mem_nil,
        or_false] at hmem
      obtain ⟨rfl, -⟩ := hmem
      decide
    · cases h
  cwd := "/w".toList
  file := id

def workFiles : Files Str := fun path => if path = "/w/app/tasks.py".toList then some ⟨workText, 0⟩
    else none

theorem parse_workText : workHost.parse workText = .ok [.other, .function "work" byKeyword] := by
  simp [workHost]

theorem generate_work : ∃ after, workHost.generate workFiles ["app/tasks.py".toList] none none =
    (after, .ok (.one "/w/app/tasks_refs.py".toList)) := by
  have hparsed : workHost.parsedSources workFiles ["app/tasks.py".toList] none none =
      .ok [("/w/app/tasks.py".toList, [⟨"work", .queue, "app.tasks.work", some "workers"⟩])] := by
    refine parsedSources_eq_ok_iff.2 ⟨by simp, by simp, List.nodup_singleton _,
      List.forall₂_cons.2 ⟨?_, .nil⟩⟩
    refine ⟨("/w/app/tasks.py".toList, none), rfl, ?_⟩
    have hread : workHost.read workFiles "/w/app/tasks.py".toList = .ok workText := rfl
    simp only [readSource, hread]
    rfl
  simp only [generate, hparsed]
  exact ⟨_, rfl⟩

theorem registers_work : workHost.Registers workFiles "app/tasks.py".toList
    [⟨"work", .queue, .str "app.tasks.work", .str "workers"⟩] := by
  refine ⟨("/w/app/tasks.py".toList, none), "app.tasks".toList, workText,
    [.other [], .function importing "work" byKeyword],
    rfl, rfl, rfl, by decide, parse_workText, rfl, ?_⟩
  exact readableModule_other.2 ⟨rfl, readableModule_function.2
    ⟨readable_byKeyword, readableModule_nil⟩⟩

end Atasks.Commands
