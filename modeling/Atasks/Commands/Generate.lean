import Atasks.Commands.Rendered
import Atasks.Lib.Attempt
import Atasks.Lib.Posix
import Mathlib.Data.List.Nodup
/-!
# Generating reference modules

`generate` (`atasks/commands/refs.py:121-171`) with what it calls (`:58-69`, `:94-118`), over
files that change only when they are written.

| here | there |
| --- | --- |
| `Host`                  | what `generate` runs on: `ast.parse`, `os.getcwd()`, and which file a path leads to |
| `readSource`            | the body of the second loop (`:141-147`) |
| `parsedSources`         | `generate` up to its first write, `--output-file` aside |
| `combinedWrite`, `sourceWrite` | what `_write_references` is called with (`:150-159`, `:163-169`) |
| `generate`              | `generate` with a list of specifications |

Links and a second slash in front of a path make several paths lead to one file, so files are
compared by `Host.file`, paths as strings. Directories are not files.

* `generate_allOrNothing_iff`: exactly when an error leaves every file as it was, and a result
  leaves the sources as they were, with each output holding what it should.
* `generate_raises_late`: a source outside the current directory behind one below it.
-/

namespace Atasks.Commands

open Text (Str cut)
open Lexis

namespace Generate

inductive Raised
  | valueError (error : ValueError)
  | syntaxError
  /-- A source that cannot be read. -/
  | osError
  | other
deriving DecidableEq, Repr

/-- A file, and how often it has been written since. -/
structure File where
  text : Str
  writes : Nat
deriving DecidableEq, Repr

abbrev Files (κ : Type) := κ → Option File

/-- What the command runs on. -/
structure Host (κ : Type) where
  charset : Charset
  /-- `ast.parse`. -/
  parse : Str → Except Raised (List Stmt)
  names : ∀ text body, parse text = .ok body → ∀ name decorators,
    Stmt.function name decorators ∈ body → charset.isIdentifier name.toList = true
  cwd : Str
  /-- The file that a path leads to. -/
  file : Str → κ

/-- What is written where. -/
structure Write where
  path : Str
  text : Str

/-- The output path, or the output paths. -/
inductive Output
  | one (outputPath : Str)
  | many (outputPaths : List Str)
deriving DecidableEq, Repr

def Output.toList : Output → List Str
  | .one outputPath => [outputPath]
  | .many outputPaths => outputPaths

def raising {α : Type} : Except ValueError α → Except Raised α := Except.mapError .valueError

/-- `if condition: raise ValueError(message)`. -/
def refuse (condition : Prop) [Decidable condition] (message : String) : Except ValueError Unit :=
  if condition then .error ⟨message⟩ else .ok ()

end Generate

open Generate Generate.Host

/-! ## Specifications and sources -/

def sourceSpecification (spec : Str) : Except ValueError (Str × Option Str) :=
  let parts := (cut '=' spec).map fun (parts : Str × Str) => (parts.1, some parts.2)
  match parts.getD (spec, none) with
  | ([], _) => .error ⟨"source path must not be empty"⟩
  | (_, some []) => .error ⟨"module name must not be empty after ="⟩
  | (sourcePath, moduleName) => .ok (sourcePath, moduleName)

def notBelow : ValueError := ⟨"source must be a Python file below the current directory"⟩

/-- A relative path that leads out of the current directory. -/
def Outside (relativePath : Str) : Prop := "../".toList.isPrefixOf relativePath = true ∨
    relativePath = Posix.pardir

instance (relativePath : Str) : Decidable (Outside relativePath) :=
  inferInstanceAs (Decidable ("../".toList.isPrefixOf relativePath = true ∨
    relativePath = Posix.pardir))

/-- The path without the three characters of its extension, and `_refs.py`. -/
def refsPath (path : Str) : Str := path.take (path.length - 3) ++ "_refs.py".toList

namespace Generate.Host

variable {κ : Type} (host : Host κ)

def relative (sourcePath : Str) : Str := Posix.relpath host.cwd sourcePath host.cwd

def relativeSourcePath (sourcePath : Str) : Except ValueError Str :=
  if Outside (host.relative sourcePath) then .error notBelow else .ok (host.relative sourcePath)

def underivable (sourcePath : Str) : ValueError :=
  ⟨"cannot derive a Python module name from " ++ String.ofList (repr host.charset sourcePath)⟩

def defaultModuleName (sourcePath : Str) : Except ValueError Str :=
  let (stem, extension) := Posix.splitext (host.relative sourcePath)
  if extension ≠ ".py".toList ∨ Outside stem then .error notBelow
  else
    let parts := stem.splitOn '/'
    let parts := if parts.getLast? = some "__init__".toList then parts.dropLast else parts
    if parts = [] ∨ parts.any fun part => !host.charset.isIdentifier part then .error
      (host.underivable sourcePath)
    else .ok (Text.join '.' parts)

/-- `open(source_path).read()`. -/
def read (files : Files κ) (sourcePath : Str) : Except Raised Str :=
  match files (host.file sourcePath) with
  | none => .error .osError
  | some file => .ok file.text

def moduleName (source : Str × Option Str) : Except ValueError Str :=
  match source.2 with
  | some moduleName => .ok moduleName
  | none => host.defaultModuleName source.1

def readSource (files : Files κ) (source : Str × Option Str) : Except Raised
    (Str × List Reference) := do
  raising (refuse (".py".toList.isSuffixOf source.1 = false) "source must have a .py extension")
  let moduleName ← raising (host.moduleName source)
  let text ← host.read files source.1
  let body ← host.parse text
  let references ← raising (taskReferences (String.ofList moduleName) body)
  return (source.1, references)

/-- A specification with its path made absolute. -/
def source (spec : Str) : Except ValueError (Str × Option Str) := do
  let (sourcePath, moduleName) ← sourceSpecification spec
  return (Posix.abspath host.cwd sourcePath, moduleName)

def parsedSources (files : Files κ) (specs : List Str) (outputDir outputFile : Option Str) :
    Except Raised (List (Str × List Reference)) := do
  raising (refuse (specs = []) "at least one source file is required")
  raising (refuse (outputDir.isSome ∧ outputFile.isSome)
    "--output-dir and --output-file cannot be used together")
  let sources ← raising (specs.mapM host.source)
  raising (refuse (¬ (sources.map Prod.fst).Nodup) "each source file may be given only once")
  sources.mapM (host.readSource files)

/-! ## Writing -/

/-- The one file that combines all references. -/
def combinedWrite (parsed : List (Str × List Reference)) (outputFile : Str) :
    Except ValueError Write := do
  let outputPath := Posix.abspath host.cwd outputFile
  refuse (outputPath ∈ parsed.map Prod.fst) "--output-file must not overwrite a source file"
  let references := parsed.flatMap Prod.snd
  refuse (¬ (references.map Reference.functionName).Nodup)
    "--output-file cannot combine references with duplicate function names"
  let descriptions ← parsed.mapM fun source => host.relativeSourcePath source.1
  return ⟨outputPath, renderReferences host.charset references descriptions⟩

/-- The file for one source. -/
def sourceWrite (outputDir : Option Str) (source : Str × List Reference) :
    Except ValueError Write :=
  match outputDir with
  | none => .ok ⟨refsPath source.1, renderReferences host.charset source.2 [source.1]⟩
  | some directory => do
    let relativePath ← host.relativeSourcePath source.1
    return ⟨Posix.join (Posix.abspath host.cwd directory) (refsPath relativePath),
      renderReferences host.charset source.2 [relativePath]⟩

section generate

variable [DecidableEq κ]

/-- `open(output_path, 'w').write(...)`. -/
def write (files : Files κ) (write : Write) : Files κ :=
  Function.update files (host.file write.path)
    (some ⟨write.text, (files (host.file write.path)).elim 0 fun file => file.writes + 1⟩)

/-- The last loop. -/
def writeEach (outputDir : Option Str) (files : Files κ) : List (Str × List Reference) →
    Files κ × Except Raised (List Str)
  | [] => (files, .ok [])
  | source :: parsed =>
    match host.sourceWrite outputDir source with
    | .error error => (files, .error (.valueError error))
    | .ok write =>
      let (files, outputPaths) := writeEach outputDir (host.write files write) parsed
      (files, outputPaths.map (write.path :: ·))

def output : List Str → Output
  | [outputPath] => .one outputPath
  | outputPaths => .many outputPaths

def generate (files : Files κ) (specs : List Str) (outputDir outputFile : Option Str) :
    Files κ × Except Raised Output :=
  match host.parsedSources files specs outputDir outputFile with
  | .error raised => (files, .error raised)
  | .ok parsed =>
    match outputFile with
    | some outputFile =>
      match host.combinedWrite parsed outputFile with
      | .error error => (files, .error (.valueError error))
      | .ok write => (host.write files write, .ok (.one write.path))
    | none =>
      let (files, outputPaths) := host.writeEach outputDir files parsed
      (files, outputPaths.map output)

/-! ## What is promised -/

/-- The absolute paths of the given sources. -/
def given (specs : List Str) : List Str := specs.map fun spec => Posix.abspath host.cwd
    (spec.takeWhile (· ≠ '='))

/-- The references of a source, under the module name its specification gives it. -/
def ReferencesOf (files : Files κ) (spec : Str) (references : List Reference) : Prop :=
  ∃ source, host.source spec = .ok source ∧ host.readSource files source = .ok
    (source.1, references)

def text (files : Files κ) (path : Str) : Option Str := (files (host.file path)).map File.text

/-- What the header says of a source. -/
def description (outputDir outputFile : Option Str) (sourcePath : Str) : Str :=
  if outputDir = none ∧ outputFile = none then sourcePath else host.relative sourcePath

/-- Each output holds the references of its source, or of all sources in order. -/
def Holds (before after : Files κ) (specs : List Str) (outputDir outputFile : Option Str)
    (outputPaths : List Str) : Prop :=
  if outputFile = none then
    List.Forall₂ (fun spec outputPath => ∃ references, host.ReferencesOf before spec references ∧
      host.text after outputPath = some (renderReferences host.charset references
        ((host.given [spec]).map (host.description outputDir outputFile))))
      specs outputPaths
  else
    ∃ outputPath references, outputPaths = [outputPath] ∧
      List.Forall₂ (host.ReferencesOf before) specs references ∧
      host.text after outputPath =
        some (renderReferences host.charset references.flatten
          ((host.given specs).map (host.description outputDir outputFile)))

/-- An error changes no file; a result changes no source, and its outputs are what they should be.
-/
structure AllOrNothing (before : Files κ) (specs : List Str) (outputDir outputFile : Option Str) :
    Prop where
  nothing : ∀ after error, host.generate before specs outputDir outputFile = (after, .error error) →
    (∃ refused, error = .valueError refused) ∨ error = .syntaxError → after = before
  sources : ∀ after result, host.generate before specs outputDir outputFile = (after, .ok result) →
    ∀ sourcePath ∈ host.given specs, after (host.file sourcePath) = before (host.file sourcePath)
  distinct : ∀ after result, host.generate before specs outputDir outputFile = (after, .ok result) →
    result.toList.Nodup
  all : ∀ after result, host.generate before specs outputDir outputFile = (after, .ok result) →
    host.Holds before after specs outputDir outputFile result.toList

/-- Where the references of a source go without `--output-file`. -/
def outputPath (outputDir : Option Str) (sourcePath : Str) : Str :=
  match outputDir with
  | none => refsPath sourcePath
  | some directory =>
    Posix.join (Posix.abspath host.cwd directory) (refsPath (host.relative sourcePath))

/-- Outputs that lead to files of their own. -/
structure Apart (outputPaths sourcePaths : List Str) : Prop where
  outputs : (outputPaths.map host.file).Nodup
  sources : ∀ outputPath ∈ outputPaths, ∀ sourcePath ∈ sourcePaths,
    host.file outputPath ≠ host.file sourcePath

/-- The specifications are accepted, and their sources read, each with its references. -/
structure Accepted (files : Files κ) (specs : List Str) (outputDir outputFile : Option Str)
    (references : List (List Reference)) : Prop where
  nonempty : specs ≠ []
  oneMode : ¬ (outputDir.isSome ∧ outputFile.isSome)
  once : (host.given specs).Nodup
  read : List.Forall₂ (host.ReferencesOf files) specs references

/-- What is asked of sources that are accepted. With `--output-file`, that it leads to none of
their files, or is refused; with `--output-dir`, that all of them lie below the current
directory, or the first one does not; without `--output-file`, that the outputs lead to files of
their own. -/
def Safe (sourcePaths : List Str) (references : List Reference)
    (outputDir outputFile : Option Str) : Prop :=
  match outputFile with
  | some outputFile =>
    Posix.abspath host.cwd outputFile ∈ sourcePaths ∨
      ¬ (references.map Reference.functionName).Nodup ∨
      (∃ sourcePath ∈ sourcePaths, Outside (host.relative sourcePath)) ∨
      ∀ sourcePath ∈ sourcePaths, host.file (Posix.abspath host.cwd outputFile) ≠
        host.file sourcePath
  | none =>
    (outputDir.isSome ∧ ∃ sourcePath ∈ sourcePaths.head?, Outside (host.relative sourcePath)) ∨
      (outputDir.isSome → ∀ sourcePath ∈ sourcePaths, ¬ Outside (host.relative sourcePath)) ∧
        host.Apart (sourcePaths.map (host.outputPath outputDir)) sourcePaths

end generate

/-! ## What is accepted -/

section accepted

variable {host} {files : Files κ} {spec : Str} {specs : List Str}
  {outputDir outputFile : Option Str} {source : Str × Option Str}
  {parsed : List (Str × List Reference)}

/-- Read as `parsedSources` reads them. -/
def Parsed (host : Host κ) (files : Files κ) (specs : List Str)
    (parsed : List (Str × List Reference)) : Prop :=
  List.Forall₂ (fun spec entry => ∃ source, host.source spec = .ok source ∧
    host.readSource files source = .ok entry) specs parsed

theorem raising_eq_ok_iff {α : Type} {x : Except ValueError α} {a : α} :
    raising x = .ok a ↔ x = .ok a := by
  cases x with
  | error e =>
    constructor
    · intro h
      cases h
    · intro h
      cases h
  | ok a' =>
    constructor
    · intro h
      cases h
      rfl
    · intro h
      cases h
      rfl

theorem refuse_eq_ok_iff {condition : Prop} [Decidable condition] {message : String} {u : Unit} :
    refuse condition message = .ok u ↔ ¬ condition := by
  unfold refuse
  split
  · rename_i h
    simp [h]
  · rename_i h
    simp [h]

theorem path_of_sourceSpecification (h : sourceSpecification spec = .ok source) :
    source.1 = spec.takeWhile (· ≠ '=') := by
  have hpath : ((cut '=' spec).map fun (parts : Str × Str) => (parts.1, some parts.2)).getD
    (spec, none) =
      (spec.takeWhile (· ≠ '='), ((cut '=' spec).map Prod.snd)) := by
    cases hcut : cut '=' spec with
    | none =>
      have hmem := Text.cut_eq_none_iff.1 hcut
      have hall : ∀ c ∈ spec, decide (c ≠ '=') = true := fun c hc => decide_eq_true fun heq =>
        hmem (heq ▸ hc)
      simp only [Option.map_none, Option.getD_none, List.takeWhile_eq_self_iff.2 hall]
    | some parts =>
      obtain ⟨hspec, hmem⟩ := Text.cut_eq_some_iff.1 hcut
      simp only [Option.map_some, Option.getD_some]
      rw [hspec, Text.takeWhile_append_self hmem]
  unfold sourceSpecification at h
  simp only [hpath] at h
  split at h
  · cases h
  · cases h
  · rename_i heq
    cases h
    exact (congrArg Prod.fst heq).symm

theorem path_of_source (h : host.source spec = .ok source) :
    source.1 = Posix.abspath host.cwd (spec.takeWhile (· ≠ '=')) := by
  obtain ⟨parts, hparts, h⟩ := Raising.bind_eq_ok_iff.1 h
  cases h
  rw [← path_of_sourceSpecification hparts]

/-- What a source is read to: its path, and the references of its text. -/
theorem readSource_eq_ok {entry : Str × List Reference}
    (h : host.readSource files source = .ok entry) :
    entry.1 = source.1 ∧ ∃ moduleName text body, host.parse text = .ok body ∧
    taskReferences moduleName body = .ok entry.2 := by
  obtain ⟨_, -, h⟩ := Raising.bind_eq_ok_iff.1 h
  obtain ⟨moduleName, -, h⟩ := Raising.bind_eq_ok_iff.1 h
  obtain ⟨text, -, h⟩ := Raising.bind_eq_ok_iff.1 h
  obtain ⟨body, hbody, h⟩ := Raising.bind_eq_ok_iff.1 h
  obtain ⟨references, hreferences, h⟩ := Raising.bind_eq_ok_iff.1 h
  cases h
  exact ⟨rfl, _, text, body, hbody, raising_eq_ok_iff.1 hreferences⟩

theorem parsedSources_eq_ok_iff : host.parsedSources files specs outputDir outputFile = .ok parsed ↔
    specs ≠ [] ∧ ¬ (outputDir.isSome ∧ outputFile.isSome) ∧ (parsed.map Prod.fst).Nodup ∧
    Parsed host files specs parsed := by
  have hpaths : ∀ {sources}, List.Forall₂
    (fun source entry => host.readSource files source = .ok entry) sources parsed →
      sources.map Prod.fst = parsed.map Prod.fst := by
    intro sources hread
    apply Raising.map_eq_of_forall₂ _ hread
    intro source entry hentry
    exact (readSource_eq_ok hentry).1.symm
  constructor
  · intro h
    obtain ⟨_, hnonempty, h⟩ := Raising.bind_eq_ok_iff.1 h
    obtain ⟨_, hmode, h⟩ := Raising.bind_eq_ok_iff.1 h
    obtain ⟨sources, hsources, h⟩ := Raising.bind_eq_ok_iff.1 h
    obtain ⟨_, hunique, h⟩ := Raising.bind_eq_ok_iff.1 h
    have hspecs := Raising.mapM_eq_ok_iff.1 (raising_eq_ok_iff.1 hsources)
    have hread := Raising.mapM_eq_ok_iff.1 h
    have hnodup := not_not.1 (refuse_eq_ok_iff.1 (raising_eq_ok_iff.1 hunique))
    rw [hpaths hread] at hnodup
    exact ⟨refuse_eq_ok_iff.1 (raising_eq_ok_iff.1 hnonempty), refuse_eq_ok_iff.1
      (raising_eq_ok_iff.1 hmode), hnodup,
      Raising.forall₂_comp_iff.2 ⟨sources, hspecs, hread⟩⟩
  · rintro ⟨hnonempty, hmode, hnodup, hparsed⟩
    obtain ⟨sources, hspecs, hread⟩ := Raising.forall₂_comp_iff.1 hparsed
    rw [← hpaths hread] at hnodup
    apply Raising.bind_eq_ok_iff.2 ⟨(), raising_eq_ok_iff.2 (refuse_eq_ok_iff.2 hnonempty), _⟩
    apply Raising.bind_eq_ok_iff.2 ⟨(), raising_eq_ok_iff.2 (refuse_eq_ok_iff.2 hmode), _⟩
    apply Raising.bind_eq_ok_iff.2 ⟨sources, raising_eq_ok_iff.2 (Raising.mapM_eq_ok_iff.2 hspecs),
      _⟩
    apply Raising.bind_eq_ok_iff.2 ⟨(), raising_eq_ok_iff.2 (refuse_eq_ok_iff.2 (not_not.2 hnodup)),
      _⟩
    exact Raising.mapM_eq_ok_iff.2 hread

theorem Parsed.given_eq (h : Parsed host files specs parsed) :
    host.given specs = parsed.map Prod.fst := by
  apply Raising.map_eq_of_forall₂ _ h
  rintro spec entry ⟨source, hsource, hread⟩
  rw [(readSource_eq_ok hread).1, path_of_source hsource]

theorem Parsed.names (h : Parsed host files specs parsed) {entry : Str × List Reference}
    (hentry : entry ∈ parsed) {reference : Reference} (hreference : reference ∈ entry.2) :
    host.charset.isIdentifier reference.functionName.toList = true := by
  induction h with
  | nil => cases hentry
  | cons hhead _ ih =>
    rcases List.mem_cons.1 hentry with rfl | hentry
    · obtain ⟨source, -, hread⟩ := hhead
      obtain ⟨-, moduleName, text, body, hbody, hreferences⟩ := readSource_eq_ok hread
      obtain ⟨decorators, hmem⟩ := mem_of_taskReferences hreferences hreference
      exact host.names text body hbody _ decorators hmem
    · exact ih hentry

/-- A specification has one list of references. -/
theorem ReferencesOf.unique {references references' : List Reference}
    (h : host.ReferencesOf files spec references) (h' : host.ReferencesOf files spec references') :
    references = references' := by
  obtain ⟨source, hsource, hread⟩ := h
  obtain ⟨source', hsource', hread'⟩ := h'
  cases hsource.symm.trans hsource'
  cases hread.symm.trans hread'
  rfl

theorem referencesOf_of_read {entry : Str × List Reference}
    (h : ∃ source, host.source spec = .ok source ∧ host.readSource files source = .ok entry) :
    host.ReferencesOf files spec entry.2 := by
  obtain ⟨source, hsource, hread⟩ := h
  refine ⟨source, hsource, ?_⟩
  rw [hread, ← (readSource_eq_ok hread).1]

theorem Parsed.referencesOf (h : Parsed host files specs parsed) :
    List.Forall₂ (host.ReferencesOf files) specs (parsed.map Prod.snd) := by
  rw [List.forall₂_map_right_iff]
  exact h.imp fun _ _ => referencesOf_of_read

theorem accepted_iff {references : List (List Reference)} :
    host.Accepted files specs outputDir outputFile references ↔
      ∃ parsed, host.parsedSources files specs outputDir outputFile = .ok parsed ∧
        parsed.map Prod.snd = references := by
  constructor
  · rintro ⟨hnonempty, hmode, honce, hread⟩
    obtain ⟨parsed, hparsed, rfl⟩ : ∃ parsed, Parsed host files specs parsed ∧
        parsed.map Prod.snd = references := by
      clear hnonempty honce
      induction hread with
      | nil => exact ⟨[], List.Forall₂.nil, rfl⟩
      | cons hhead _ ih =>
        obtain ⟨source, hsource, hread⟩ := hhead
        obtain ⟨parsed, hparsed, rfl⟩ := ih
        exact ⟨_ :: parsed, List.Forall₂.cons ⟨source, hsource, hread⟩ hparsed, rfl⟩
    rw [hparsed.given_eq] at honce
    exact ⟨parsed, parsedSources_eq_ok_iff.2 ⟨hnonempty, hmode, honce, hparsed⟩, rfl⟩
  · rintro ⟨parsed, h, rfl⟩
    obtain ⟨hnonempty, hmode, hnodup, hparsed⟩ := parsedSources_eq_ok_iff.1 h
    refine ⟨hnonempty, hmode, ?_, hparsed.referencesOf⟩
    rw [hparsed.given_eq]
    exact hnodup

end accepted

/-! ## What is written -/

section written

variable [DecidableEq κ] {host} {files : Files κ} {outputDir : Option Str}
  {entry : Str × List Reference} {parsed : List (Str × List Reference)} {writes : List Write}
  {k : κ}

def writeAll (host : Host κ) (files : Files κ) (writes : List Write) : Files κ :=
    writes.foldl host.write files

/-- How often a file has been written, its creation included. -/
def count (files : Files κ) (k : κ) : Nat := (files k).elim 0 fun file => file.writes + 1

theorem count_write (host : Host κ) (files : Files κ) (w : Write) (k : κ) :
    count (host.write files w) k = count files k + if host.file w.path = k then 1 else 0 := by
  unfold count write
  by_cases hk : host.file w.path = k
  · subst hk
    simp
  · rw [Function.update_of_ne (Ne.symm hk), if_neg hk, Nat.add_zero]

theorem count_writeAll (host : Host κ) (files : Files κ) (writes : List Write) (k : κ) :
    count (writeAll host files writes) k = count files k + writes.countP fun w =>
    host.file w.path = k := by
  induction writes generalizing files with
  | nil => rfl
  | cons w writes ih =>
    have hcons : writeAll host files (w :: writes) = writeAll host (host.write files w) writes :=
      rfl
    rw [hcons, ih, count_write, List.countP_cons]
    by_cases hk : host.file w.path = k
    · simp only [hk, if_true, decide_true]
      omega
    · simp only [hk, if_false, decide_false, Bool.false_eq_true]
      omega

theorem writeAll_of_ne (h : ∀ w ∈ writes, host.file w.path ≠ k) :
    writeAll host files writes k = files k := by
  induction writes generalizing files with
  | nil => rfl
  | cons w writes ih =>
    have hcons : writeAll host files (w :: writes) = writeAll host (host.write files w) writes :=
      rfl
    rw [hcons, ih fun w hw => h w (List.mem_cons_of_mem _ hw), write, Function.update_of_ne
      (Ne.symm (h w List.mem_cons_self))]

/-- A file is what it was exactly if no write leads to it. -/
theorem writeAll_eq_iff :
    writeAll host files writes k = files k ↔ ∀ w ∈ writes, host.file w.path ≠ k := by
  constructor
  · intro h w hw hk
    have hcount := count_writeAll host files writes k
    have hpos : 0 < writes.countP fun w => host.file w.path = k :=
      List.countP_pos_iff.2 ⟨w, hw, by simpa using hk⟩
    have hsame : count (writeAll host files writes) k = count files k := by rw [count, h, count]
    omega
  · exact writeAll_of_ne

/-- A file holds the text of one of the writes that lead to it. -/
theorem exists_text_writeAll (h : ∃ w ∈ writes, host.file w.path = k) :
    ∃ w ∈ writes, host.file w.path = k ∧
    (writeAll host files writes k).map File.text = some w.text := by
  induction writes generalizing files with
  | nil =>
    obtain ⟨_, hmem, -⟩ := h
    cases hmem
  | cons w writes ih =>
    have hcons : writeAll host files (w :: writes) = writeAll host (host.write files w) writes :=
      rfl
    by_cases hlater : ∃ w ∈ writes, host.file w.path = k
    · obtain ⟨w', hw', hk, htext⟩ : ∃ w' ∈ writes, host.file w'.path = k ∧
          (writeAll host (host.write files w) writes k).map File.text = some w'.text := ih hlater
      exact ⟨w', List.mem_cons_of_mem _ hw', hk, htext⟩
    · have hrest : ∀ w ∈ writes, host.file w.path ≠ k := fun w hw hk => hlater ⟨w, hw, hk⟩
      have hk : host.file w.path = k := by
        obtain ⟨w', hw', hk⟩ := h
        rcases List.mem_cons.1 hw' with rfl | hw'
        · exact hk
        · exact absurd hk (hrest w' hw')
      refine ⟨w, List.mem_cons_self, hk, ?_⟩
      rw [hcons, writeAll_of_ne hrest, write, ← hk, Function.update_self]
      rfl

/-- Every file written holds its text exactly if writes to one file have one text. -/
theorem texts_iff : (∀ w ∈ writes, host.text (writeAll host files writes) w.path = some w.text) ↔
    ∀ w ∈ writes, ∀ w' ∈ writes, host.file w.path = host.file w'.path → w.text = w'.text := by
  constructor
  · intro h w hw w' hw' hk
    have htext : host.text (writeAll host files writes) w.path = host.text
        (writeAll host files writes) w'.path := by
      rw [text, hk, text]
    rw [h w hw, h w' hw'] at htext
    exact Option.some.inj htext
  · intro h w hw
    obtain ⟨w', hw', hk, htext⟩ : ∃ w' ∈ writes, host.file w'.path = host.file w.path ∧
      (writeAll host files writes (host.file w.path)).map File.text = some w'.text :=
        exists_text_writeAll ⟨w, hw, rfl⟩
    rw [text, htext, h w hw w' hw' hk.symm]

/-! ### The last loop -/

/-- What is written for a source that may be written. -/
def planned (host : Host κ) (outputDir : Option Str) (entry : Str × List Reference) : Write :=
  ⟨host.outputPath outputDir entry.1, renderReferences host.charset entry.2
    [host.description outputDir none entry.1]⟩

omit [DecidableEq κ] in
theorem sourceWrite_eq : host.sourceWrite outputDir entry =
    if outputDir.isSome ∧ Outside (host.relative entry.1) then .error notBelow
    else .ok (planned host outputDir entry) := by
  cases outputDir with
  | none => rfl
  | some directory =>
    simp only [sourceWrite, relativeSourcePath, Option.isSome_some, true_and]
    split <;> rfl

theorem writeEach_eq_ok (h : outputDir.isSome → ∀ entry ∈ parsed, ¬ Outside
      (host.relative entry.1)) :
    host.writeEach outputDir files parsed =
      (writeAll host files (parsed.map (planned host outputDir)), .ok
        (parsed.map fun entry => host.outputPath outputDir entry.1)) := by
  induction parsed generalizing files with
  | nil => rfl
  | cons entry parsed ih =>
    have hhead : ¬ (outputDir.isSome ∧ Outside (host.relative entry.1)) :=
      fun hout => h hout.1 entry List.mem_cons_self hout.2
    have hrest : host.writeEach outputDir (host.write files (planned host outputDir entry)) parsed =
        _ :=
      ih fun hdir entry hentry => h hdir entry (List.mem_cons_of_mem _ hentry)
    simp only [writeEach, sourceWrite_eq, if_neg hhead, hrest]
    rfl

/-- The loop raises at the first source outside, with what it wrote before. -/
theorem writeEach_eq_error {before after : List (Str × List Reference)} (hdir : outputDir.isSome)
    (hbefore : ∀ entry ∈ before, ¬ Outside (host.relative entry.1))
    (hout : Outside (host.relative entry.1)) :
    host.writeEach outputDir files (before ++ entry :: after) =
      (writeAll host files (before.map (planned host outputDir)), .error
        (.valueError notBelow)) := by
  induction before generalizing files with
  | nil =>
    simp only [List.nil_append, writeEach, sourceWrite_eq, if_pos (And.intro hdir hout), writeAll,
      List.map_nil, List.foldl_nil]
  | cons first before ih =>
    have hhead : ¬ (outputDir.isSome ∧ Outside (host.relative first.1)) :=
      fun hout => hbefore first List.mem_cons_self hout.2
    have hrest : host.writeEach outputDir (host.write files (planned host outputDir first))
        (before ++ entry :: after) = _ :=
      ih fun entry hentry => hbefore entry (List.mem_cons_of_mem _ hentry)
    simp only [List.cons_append, writeEach, sourceWrite_eq, if_neg hhead, hrest]
    rfl

/-! ### What the outputs hold -/

variable {specs : List Str} {outputFile : Str} {after : Files κ}

omit [DecidableEq κ] in
/-- The header tells outputs apart. -/
theorem outputPath_of_description {sourcePath sourcePath' : Str}
    (h : host.description outputDir none sourcePath = host.description outputDir none sourcePath') :
    host.outputPath outputDir sourcePath = host.outputPath outputDir sourcePath' := by
  cases outputDir with
  | none =>
    have hpaths : sourcePath = sourcePath' := h
    rw [hpaths]
  | some directory =>
    have hrelative : host.relative sourcePath = host.relative sourcePath' := h
    rw [outputPath, outputPath, hrelative]

/-- Sources untouched and every output with its own text: exactly if the outputs lead to files of
their own. -/
theorem apart_iff (hnames : ∀ entry ∈ parsed, ∀ reference ∈ entry.2,
      host.charset.isIdentifier reference.functionName.toList = true) :
    ((∀ sourcePath ∈ parsed.map Prod.fst,
        writeAll host files (parsed.map (planned host outputDir)) (host.file sourcePath) =
          files (host.file sourcePath)) ∧
      (parsed.map fun entry => host.outputPath outputDir entry.1).Nodup ∧
      ∀ w ∈ parsed.map (planned host outputDir),
        host.text (writeAll host files (parsed.map (planned host outputDir))) w.path =
          some w.text) ↔
      host.Apart (parsed.map fun entry => host.outputPath outputDir entry.1)
        (parsed.map Prod.fst) := by
  rw [texts_iff]
  constructor
  · rintro ⟨hsources, hnodup, htexts⟩
    refine ⟨hnodup.map_on ?_, ?_⟩
    · intro path hpath path' hpath' hfile
      obtain ⟨entry, hentry, rfl⟩ := List.mem_map.1 hpath
      obtain ⟨entry', hentry', rfl⟩ := List.mem_map.1 hpath'
      have htext := htexts _ (List.mem_map_of_mem hentry) _ (List.mem_map_of_mem hentry') hfile
      exact outputPath_of_description (Rendered.sourcePath_of_renderReferences (hnames entry hentry)
        (hnames entry' hentry') htext)
    · intro path hpath sourcePath hsource
      obtain ⟨entry, hentry, rfl⟩ := List.mem_map.1 hpath
      exact writeAll_eq_iff.1 (hsources sourcePath hsource) _ (List.mem_map_of_mem hentry)
  · rintro ⟨houtputs, hsources⟩
    have hinjective : ∀ entry ∈ parsed, ∀ entry' ∈ parsed,
        host.file (host.outputPath outputDir entry.1) = host.file
          (host.outputPath outputDir entry'.1) → entry = entry' := by
      rw [List.map_map] at houtputs
      intro entry hentry entry' hentry' hfile
      exact List.inj_on_of_nodup_map houtputs hentry hentry' hfile
    refine ⟨fun sourcePath hsource => writeAll_of_ne fun w hw => ?_, houtputs.of_map, ?_⟩
    · obtain ⟨entry, hentry, rfl⟩ := List.mem_map.1 hw
      exact hsources _ (List.mem_map_of_mem hentry) sourcePath hsource
    · intro w hw w' hw' hfile
      obtain ⟨entry, hentry, rfl⟩ := List.mem_map.1 hw
      obtain ⟨entry', hentry', rfl⟩ := List.mem_map.1 hw'
      rw [hinjective entry hentry entry' hentry' hfile]

omit [DecidableEq κ] in
theorem holds_each_iff (h : Parsed host files specs parsed) :
    host.Holds files after specs outputDir none
      (parsed.map fun entry => host.outputPath outputDir entry.1) ↔
      ∀ w ∈ parsed.map (planned host outputDir), host.text after w.path = some w.text := by
  rw [Holds, if_pos rfl]
  induction h with
  | nil => simp
  | @cons spec entry specs parsed hread _ ih =>
    have hpath : host.given [spec] = [entry.1] := by
      obtain ⟨source, hsource, hread⟩ := hread
      rw [(readSource_eq_ok hread).1, path_of_source hsource]
      rfl
    rw [List.map_cons, List.map_cons, List.forall_mem_cons, List.forall₂_cons, ih, hpath]
    refine and_congr_left fun _ => ?_
    constructor
    · rintro ⟨references, hreferences, htext⟩
      rw [hreferences.unique (referencesOf_of_read hread)] at htext
      exact htext
    · intro htext
      exact ⟨entry.2, referencesOf_of_read hread, htext⟩

omit [DecidableEq κ] in
theorem holds_combined_iff (h : Parsed host files specs parsed) {outputPath : Str} :
    host.Holds files after specs outputDir (some outputFile) [outputPath] ↔
      host.text after outputPath =
        some (renderReferences host.charset (parsed.flatMap Prod.snd)
          (parsed.map fun entry => host.relative entry.1)) := by
  have hdescriptions : (host.given specs).map (host.description outputDir (some outputFile)) =
      parsed.map fun entry => host.relative entry.1 := by
    rw [h.given_eq, List.map_map]
    apply List.map_congr_left
    intro entry _
    simp [description]
  rw [Holds, if_neg (by simp), hdescriptions]
  constructor
  · rintro ⟨_, references, hpath, hreferences, htext⟩
    have hsame : references = parsed.map Prod.snd :=
      List.right_unique_forall₂' (fun _ _ _ hone hother => hone.unique hother) hreferences
        h.referencesOf
    cases hpath
    rw [htext, hsame]
    rfl
  · intro htext
    exact ⟨outputPath, _, rfl, h.referencesOf, htext⟩

omit [DecidableEq κ] in
theorem relativeSourcePath_eq_ok_iff {sourcePath relativePath : Str} :
    host.relativeSourcePath sourcePath = .ok relativePath ↔
      ¬ Outside (host.relative sourcePath) ∧ relativePath = host.relative sourcePath := by
  unfold relativeSourcePath
  split
  · rename_i hout
    simp [hout]
  · rename_i hout
    simp [hout, eq_comm]

omit [DecidableEq κ] in
theorem mapM_relativeSourcePath {descriptions : List Str} :
    (parsed.mapM fun entry => host.relativeSourcePath entry.1) = .ok descriptions ↔
      (∀ entry ∈ parsed, ¬ Outside (host.relative entry.1)) ∧ descriptions = parsed.map fun entry =>
      host.relative entry.1 := by
  rw [Raising.mapM_eq_ok_iff]
  induction parsed generalizing descriptions with
  | nil => simp
  | cons entry parsed ih =>
    rw [List.forall₂_cons_left_iff, List.forall_mem_cons, List.map_cons]
    constructor
    · rintro ⟨relativePath, rest, hhead, hrest, rfl⟩
      obtain ⟨hout, rfl⟩ := relativeSourcePath_eq_ok_iff.1 hhead
      obtain ⟨hall, rfl⟩ := ih.1 hrest
      exact ⟨⟨hout, hall⟩, rfl⟩
    · rintro ⟨⟨hout, hall⟩, rfl⟩
      exact ⟨_, _, relativeSourcePath_eq_ok_iff.2 ⟨hout, rfl⟩, ih.2 ⟨hall, rfl⟩, rfl⟩

omit [DecidableEq κ] in
theorem combinedWrite_eq_ok_iff {w : Write} : host.combinedWrite parsed outputFile = .ok w ↔
    (Posix.abspath host.cwd outputFile ∉ parsed.map Prod.fst ∧
      ((parsed.flatMap Prod.snd).map Reference.functionName).Nodup ∧
      ∀ entry ∈ parsed, ¬ Outside (host.relative entry.1)) ∧
      w = ⟨Posix.abspath host.cwd outputFile,
        renderReferences host.charset (parsed.flatMap Prod.snd)
        (parsed.map fun entry => host.relative entry.1)⟩ := by
  constructor
  · intro h
    obtain ⟨_, hpath, h⟩ := Raising.bind_eq_ok_iff.1 h
    obtain ⟨_, hnames, h⟩ := Raising.bind_eq_ok_iff.1 h
    obtain ⟨descriptions, hdescriptions, h⟩ := Raising.bind_eq_ok_iff.1 h
    obtain ⟨hinside, rfl⟩ := mapM_relativeSourcePath.1 hdescriptions
    cases h
    exact ⟨⟨refuse_eq_ok_iff.1 hpath, not_not.1 (refuse_eq_ok_iff.1 hnames), hinside⟩, rfl⟩
  · rintro ⟨⟨hpath, hnames, hinside⟩, rfl⟩
    apply Raising.bind_eq_ok_iff.2 ⟨(), refuse_eq_ok_iff.2 hpath, _⟩
    apply Raising.bind_eq_ok_iff.2 ⟨(), refuse_eq_ok_iff.2 (not_not.2 hnames), _⟩
    exact Raising.bind_eq_ok_iff.2 ⟨_, mapM_relativeSourcePath.2 ⟨hinside, rfl⟩, rfl⟩

end written

section whole

variable [DecidableEq κ] {host} {files : Files κ} {specs : List Str}
  {outputDir outputFile : Option Str} {parsed : List (Str × List Reference)}

theorem generate_of_error {raised : Raised}
    (h : host.parsedSources files specs outputDir outputFile = .error raised) :
    host.generate files specs outputDir outputFile = (files, .error raised) := by
  unfold generate
  rw [h]

theorem AllOrNothing.of_error {error : Raised}
    (h : host.generate files specs outputDir outputFile = (files, .error error)) :
    host.AllOrNothing files specs outputDir outputFile := by
  refine ⟨fun after error' hgenerate _ => ?_, fun after result hgenerate => ?_,
    fun after result hgenerate => ?_,
    fun after result hgenerate => ?_⟩
  · exact (congrArg Prod.fst (h.symm.trans hgenerate)).symm
  all_goals
    rw [h] at hgenerate
    cases hgenerate

theorem AllOrNothing.of_ok_iff {after : Files κ} {result : Output}
    (h : host.generate files specs outputDir outputFile = (after, .ok result)) :
    host.AllOrNothing files specs outputDir outputFile ↔
      (∀ sourcePath ∈ host.given specs, after (host.file sourcePath) = files
        (host.file sourcePath)) ∧ result.toList.Nodup ∧
        host.Holds files after specs outputDir outputFile result.toList := by
  constructor
  · intro hall
    exact ⟨hall.sources after result h, hall.distinct after result h, hall.all after result h⟩
  · rintro ⟨hsources, hnodup, hholds⟩
    refine ⟨fun after' error hgenerate _ => ?_, fun after' result' hgenerate => ?_,
      fun after' result' hgenerate => ?_,
      fun after' result' hgenerate => ?_⟩
    · rw [h] at hgenerate
      cases hgenerate
    all_goals
      rw [h] at hgenerate
      cases hgenerate
      assumption

theorem toList_output (outputPaths : List Str) : (output outputPaths).toList = outputPaths := by
  unfold output
  split <;> rfl

omit [DecidableEq κ] in
theorem safe_combined_iff {references : List Reference} {outputFile : Str} :
    host.Safe (parsed.map Prod.fst) references outputDir (some outputFile) ↔
      Posix.abspath host.cwd outputFile ∈ parsed.map Prod.fst ∨
      ¬ (references.map Reference.functionName).Nodup ∨
        (∃ entry ∈ parsed, Outside (host.relative entry.1)) ∨
        ∀ entry ∈ parsed, host.file (Posix.abspath host.cwd outputFile) ≠ host.file entry.1 := by
  have hexists : (∃ sourcePath ∈ parsed.map Prod.fst, Outside (host.relative sourcePath)) ↔
      ∃ entry ∈ parsed, Outside (host.relative entry.1) := by
    simp only [List.mem_map, exists_exists_and_eq_and]
  simp only [Safe, hexists, List.forall_mem_map]

omit [DecidableEq κ] in
theorem safe_each_iff {references : List Reference} :
    host.Safe (parsed.map Prod.fst) references outputDir none ↔
      (outputDir.isSome ∧ ∃ entry ∈ parsed.head?, Outside (host.relative entry.1)) ∨
        (outputDir.isSome → ∀ entry ∈ parsed, ¬ Outside (host.relative entry.1)) ∧
          host.Apart (parsed.map fun entry => host.outputPath outputDir entry.1)
          (parsed.map Prod.fst) := by
  simp only [Safe, List.forall_mem_map, List.map_map]
  cases parsed <;> simp [Function.comp_def]

/-- With `--output-file`. -/
theorem combined_iff {outputFile : Str}
    (h : host.parsedSources files specs outputDir (some outputFile) = .ok parsed) :
    host.AllOrNothing files specs outputDir (some outputFile) ↔
      host.Safe (parsed.map Prod.fst) (parsed.flatMap Prod.snd) outputDir (some outputFile) := by
  obtain ⟨-, -, -, hparsed⟩ := parsedSources_eq_ok_iff.1 h
  rw [safe_combined_iff]
  cases hcombined : host.combinedWrite parsed outputFile with
  | error error =>
    have hgenerate : host.generate files specs outputDir (some outputFile) =
        (files, .error (.valueError error)) := by
      simp only [generate, h, hcombined]
    refine iff_of_true (.of_error hgenerate) ?_
    by_contra hsafe
    obtain ⟨hpath, hnames, hinside, -⟩ : _ ∧ _ ∧ _ ∧ _ := by
      simpa only [not_or, not_not, not_exists, not_and] using hsafe
    have hok := combinedWrite_eq_ok_iff.2 ⟨⟨hpath, hnames, hinside⟩, rfl⟩
    rw [hcombined] at hok
    cases hok
  | ok w =>
    obtain ⟨⟨hpath, hnames, hinside⟩, rfl⟩ := combinedWrite_eq_ok_iff.1 hcombined
    generalize hw : (⟨Posix.abspath host.cwd outputFile, _⟩ : Write) = w at hcombined
    have hgenerate : host.generate files specs outputDir (some outputFile) =
        (host.write files w, .ok (.one w.path)) := by
      simp only [generate, h, hcombined]
    have htext : host.text (host.write files w) w.path = some w.text := by
      rw [text, write, Function.update_self]
      rfl
    rw [AllOrNothing.of_ok_iff hgenerate, Output.toList, holds_combined_iff hparsed,
      hparsed.given_eq]
    have hsources : ∀ sourcePath, host.write files w (host.file sourcePath) = files
      (host.file sourcePath) ↔
        host.file w.path ≠ host.file sourcePath := by
      intro sourcePath
      have hone : writeAll host files [w] (host.file sourcePath) = files (host.file sourcePath) ↔
        _ := writeAll_eq_iff
      rw [List.forall_mem_singleton] at hone
      exact hone
    subst hw
    constructor
    · rintro ⟨huntouched, -, -⟩
      exact Or.inr (Or.inr (Or.inr fun source hsource => (hsources _).1
        (huntouched _ (List.mem_map_of_mem hsource))))
    · rintro (hrefused | hrefused | ⟨source, hsource, hout⟩ | hapart)
      · exact absurd hrefused hpath
      · exact absurd hnames hrefused
      · exact absurd hout (hinside source hsource)
      · refine ⟨fun sourcePath hmem => ?_, List.nodup_singleton _, htext⟩
        obtain ⟨source, hsource, rfl⟩ := List.mem_map.1 hmem
        exact (hsources _).2 (hapart source hsource)

/-- Without it. -/
theorem each_iff (h : host.parsedSources files specs outputDir none = .ok parsed) :
    host.AllOrNothing files specs outputDir none ↔ host.Safe (parsed.map Prod.fst)
    (parsed.flatMap Prod.snd) outputDir none := by
  obtain ⟨-, -, -, hparsed⟩ := parsedSources_eq_ok_iff.1 h
  rw [safe_each_iff]
  by_cases hinside : outputDir.isSome → ∀ source ∈ parsed, ¬ Outside (host.relative source.1)
  · have hwritten : host.writeEach outputDir files parsed = _ := writeEach_eq_ok hinside
    have hgenerate : host.generate files specs outputDir none =
      (writeAll host files (parsed.map (planned host outputDir)),
        .ok (output (parsed.map fun entry => host.outputPath outputDir entry.1))) := by
      simp only [generate, h, hwritten]
      rfl
    rw [AllOrNothing.of_ok_iff hgenerate, toList_output, holds_each_iff hparsed, hparsed.given_eq,
      apart_iff fun entry hentry reference hreference => hparsed.names hentry hreference]
    constructor
    · intro hapart
      exact Or.inr ⟨hinside, hapart⟩
    · rintro (⟨hdir, source, hfirst, hout⟩ | ⟨-, hapart⟩)
      · exact absurd hout (hinside hdir source (List.mem_of_mem_head? hfirst))
      · exact hapart
  · obtain ⟨hdir, hsome⟩ := Classical.not_imp.1 hinside
    have hall : (parsed.all fun source => !decide (Outside (host.relative source.1))) = false := by
      simpa using hsome
    obtain ⟨before, source, rest, rfl, hbefore, hout⟩ := Attempt.exists_raise hall
    have hbefore : ∀ entry ∈ before, ¬ Outside (host.relative entry.1) := fun entry hentry => by
      simpa using hbefore entry hentry
    have hout : Outside (host.relative source.1) := by simpa using hout
    have hwritten : host.writeEach outputDir files (before ++ source :: rest) = _ :=
      writeEach_eq_error hdir hbefore hout
    have hgenerate : host.generate files specs outputDir none =
        (writeAll host files (before.map (planned host outputDir)),
          .error (.valueError notBelow)) := by
      simp only [generate, h, hwritten]
      rfl
    cases before with
    | nil =>
      refine iff_of_true (.of_error hgenerate) (Or.inl ⟨hdir, source, ?_, hout⟩)
      rfl
    | cons first before =>
      -- The first source has been written, and stays so.
      refine iff_of_false (fun hall => ?_) ?_
      · have hsame := hall.nothing _ _ hgenerate (Or.inl ⟨_, rfl⟩)
        have hkept := writeAll_eq_iff.1 (congrFun hsame
          (host.file (planned host outputDir first).path))
        exact hkept _ (List.mem_map_of_mem List.mem_cons_self) rfl
      · rintro (⟨-, first', hfirst, hout⟩ | ⟨hinside, -⟩)
        · cases hfirst
          exact hbefore first List.mem_cons_self hout
        · exact hinside hdir source (List.mem_append_right _ List.mem_cons_self) hout

end whole

end Generate.Host

/-- **`refs generate` is all-or-nothing and leaves its sources alone** exactly where the sources it
accepts are safe. -/
theorem generate_allOrNothing_iff {κ : Type} [DecidableEq κ] (host : Host κ) (files : Files κ)
    (specs : List Str) (outputDir outputFile : Option Str) :
    host.AllOrNothing files specs outputDir outputFile ↔
      ∀ references, host.Accepted files specs outputDir outputFile references →
        host.Safe (host.given specs) references.flatten outputDir outputFile := by
  cases h : host.parsedSources files specs outputDir outputFile with
  | error raised =>
    refine iff_of_true (.of_error (generate_of_error h)) fun references haccepted => ?_
    obtain ⟨parsed, hparsed, -⟩ := accepted_iff.1 haccepted
    rw [h] at hparsed
    cases hparsed
  | ok parsed =>
    have hiff : host.AllOrNothing files specs outputDir outputFile ↔
        host.Safe (parsed.map Prod.fst) (parsed.flatMap Prod.snd) outputDir outputFile := by
      cases outputFile with
      | none => exact each_iff h
      | some outputFile => exact combined_iff h
    obtain ⟨-, -, -, hparsed⟩ := parsedSources_eq_ok_iff.1 h
    rw [hiff, hparsed.given_eq]
    constructor
    · intro hsafe references haccepted
      obtain ⟨parsed', hparsed', rfl⟩ := accepted_iff.1 haccepted
      cases h.symm.trans hparsed'
      exact hsafe
    · intro hsafe
      exact hsafe _ (accepted_iff.2 ⟨parsed, h, rfl⟩)

/-- Paths without links, and modules without a statement. -/
def bare : Host Str where
  charset := .plain
  parse := fun text => if text = [] then .ok [] else .error .syntaxError
  names := by
    intro text body h name decorators hmem
    split at h
    · cases h
      cases hmem
    · cases h
  cwd := "/w".toList
  file := id

/-- Empty files under some paths. -/
def emptyFiles (paths : List String) : Files Str :=
    fun path => if path ∈ paths.map String.toList then some ⟨[], 0⟩ else none

/-- The second source lies outside the current directory, which is found out when the references
of the first one are written. -/
theorem generate_raises_late :
    ¬ bare.AllOrNothing (emptyFiles ["/w/a.py", "/x/b.py"]) ["a.py".toList, "/x/b.py=b".toList]
    (some "out".toList) none := by
  intro h
  generalize hrun : bare.generate (emptyFiles ["/w/a.py", "/x/b.py"])
    ["a.py".toList, "/x/b.py=b".toList] (some "out".toList) none = run
  have hraised : run.2 = .error (.valueError notBelow) := by
    rw [← hrun]
    rfl
  have hwritten : (run.1 "/w/out/a_refs.py".toList).isSome = true := by
    rw [← hrun]
    rfl
  have hsame : run.1 = emptyFiles ["/w/a.py", "/x/b.py"] :=
    h.nothing _ _ (hrun.trans (Prod.ext rfl hraised)) (Or.inl ⟨_, rfl⟩)
  rw [hsame] at hwritten
  cases hwritten

/-- The references of one source take the place of another source. -/
example : ((bare.generate (emptyFiles ["/w/a.py", "/w/a_refs.py"])
      ["a.py".toList, "a_refs.py".toList] none none).1
    "/w/a_refs.py".toList).map File.writes = some 1 := by decide

end Atasks.Commands
