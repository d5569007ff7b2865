import Atasks.Commands.Refs
import Atasks.Lib.Lexis
/-!
# What a generated module means

`_render_references` (`atasks/commands/refs.py:72-91`), and what executing the text that it
returns binds, with the factories of `atasks/refs.py:36-107`.

| here | there |
| --- | --- |
| `sourceHeader`, `referenceLine`, `renderReferences` | `_render_references` |
| `Ref`, `Ref.call`, `Ref.getItem` | `_Ref`, `__call__`, `__getitem__`; the kind is the subclass |
| `compile`, `run`, `execute` | `exec` of a text in empty globals, `__builtins__` aside |

Of the language `compile` knows the lines that the renderer writes for itself. The first line
that is none of these is left to Python (`elsewhere`), with everything behind it. Function names
are as `ast` has them, normalized: what was no reserved word in the source can be one then.

* `renderReferences_means_iff`: the text binds each function to its last reference, and nothing
  else but the factories, if and only if no function takes the name of a factory that a later
  entry needs, none is called `__debug__` or by a reserved word, and no path contains a NUL; given
  that only comments come of the paths.
* `shadowing_fails`: two functions of which the first is called `ataskref`.
-/

namespace Atasks.Commands

open Text (Str)
open Lexis

/-! ## Rendering -/

def sourceHeader : List Str → List Str
  | [sourcePath] => ["# Generated by atasks refs from ".toList ++ sourcePath ++ ['.']]
  | sourcePaths =>
    "# Generated by atasks refs from these source files:".toList :: sourcePaths.map
      fun sourcePath => "# - ".toList ++ sourcePath

def importLine : Str := "from atasks.refs import atask_bref, atask_qref, ataskref".toList

def notes : List Str :=
  ["# This file contains lightweight references to the tasks declared there.".toList,
    "# Do not edit this file: changes will be overwritten by the next generation.".toList, [],
      importLine, []]

def namespaceArgument (charset : Charset) : Option String → Str
  | none => []
  | some nspace => "(namespace=".toList ++ repr charset nspace.toList ++ [')']

def referenceLine (charset : Charset) (reference : Reference) : Str :=
  reference.functionName.toList ++ " = ".toList ++ (refFactory reference.factory).toList ++
    namespaceArgument charset reference.nspace ++
    ['['] ++ repr charset reference.taskName.toList ++ [']']

def renderReferences (charset : Charset) (references : List Reference) (sourcePaths : List Str) :
    Str :=
  Text.join '\n' (sourceHeader sourcePaths ++ notes ++ references.map (referenceLine charset)) ++
    ['\n']

/-! ## Executing -/

namespace Rendered

structure Ref where
  kind : Kind
  nspace : Str
deriving DecidableEq, Repr

/-- An object bound to a name. -/
inductive Value
  | factory (ref : Ref)
  /-- The coroutine function that indexing a factory builds. -/
  | coroutine (ref : Ref) (name : Str)
  | other
deriving DecidableEq, Repr

def Ref.call (ref : Ref) (nspace : Str) : Ref := { ref with nspace := nspace }

def Ref.getItem (ref : Ref) (name : Str) : Value := .coroutine ref name

/-- `ataskref`, `atask_qref` or `atask_bref` of `atasks.refs`. -/
def imported (kind : Kind) : Ref := ⟨kind, "default".toList⟩

abbrev Globals := Dict Str Value

inductive Raised
  | syntaxError
  | nameError
  | typeError
  | other
deriving DecidableEq, Repr

inductive Statement
  | imports
  | assignment (target : Str) (factory : Kind) (nspace : Option Str) (name : Str)
  | elsewhere (lines : List Str)

/-- What follows an opening. -/
def after (opening text : Str) : Option Str :=
    if opening.isPrefixOf text then some (text.drop opening.length) else none

/-- The factory under a name. -/
def factoryNamed (name : Str) : Option Kind := [Kind.rpc, .queue, .broadcast].find? fun kind =>
    (refFactory kind).toList = name

/-- `['name']`, up to the end of the line. -/
def readIndex (text : Str) : Option Str := do
  let text ← after ['['] text
  let (name, text) ← readLiteral text
  if text = [']'] then some name else none

/-- `(namespace='nspace')`, or nothing. -/
def readNamespace (text : Str) : Option (Option Str × Str) :=
  match after "(namespace=".toList text with
  | none => some (none, text)
  | some text =>
    (readLiteral text).bind fun read => (after [')'] read.2).map fun text => (some read.1, text)

/-- `target = factory['name']` or `target = factory(namespace='nspace')['name']`. -/
def readAssignment (charset : Charset) (line : Str) : Option Statement := do
  let (target, text) := charset.readName line
  let text ← after " = ".toList text
  let (factory, text) := charset.readName text
  let kind ← factoryNamed factory
  let (nspace, text) ← readNamespace text
  let name ← readIndex text
  if charset.isIdentifier target then some (.assignment target kind nspace name) else none

/-- Names that nothing can be assigned to. -/
def unassignable (name : Str) : Bool := name == "__debug__".toList || keywords.contains name

/-- The statements of a text. A target that nothing can be assigned to is refused before any of them
is executed. -/
def compile (charset : Charset) : List Str → Except Raised (List Statement)
  | [] => .ok []
  | line :: rest =>
    if skippable line then compile charset rest
    else if line = importLine then (compile charset rest).map (.imports :: ·)
    else
      match readAssignment charset line with
      | some (.assignment target factory nspace name) =>
        if unassignable target then .error .syntaxError
        else (compile charset rest).map (.assignment target factory nspace name :: ·)
      | _ => .ok [.elsewhere (line :: rest)]

def imports (globals : Globals) : Globals :=
  [Kind.broadcast, .queue, .rpc].foldl (fun globals kind => globals.set (refFactory kind).toList
    (.factory (imported kind))) globals

def step (elsewhere : Globals → List Str → Except Raised Globals) (globals : Globals) : Statement →
    Except Raised Globals
  | .imports => .ok (imports globals)
  | .assignment target factory nspace name =>
    match globals.get? (refFactory factory).toList with
    | none => .error .nameError
    | some (.factory ref) => .ok (globals.set target ((nspace.elim ref ref.call).getItem name))
    -- A function is not subscriptable, nor is what calling it returns.
    | some (.coroutine _ _) => .error .typeError
    -- Nothing is executed behind a text that could have bound it.
    | some .other => .error .typeError
  | .elsewhere lines => elsewhere globals lines

def run (elsewhere : Globals → List Str → Except Raised Globals) (globals : Globals)
    (statements : List Statement) :
    Except Raised Globals :=
  statements.foldlM (step elsewhere) globals

def execute (charset : Charset) (elsewhere : Globals → List Str → Except Raised Globals)
    (text : Str) : Except Raised Globals :=
  if nul ∈ text then .error .syntaxError
  else do
    let statements ← compile charset (lines text)
    run elsewhere Dict.empty statements

/-! ## The reference list -/

/-- What the factory of a reference yields. -/
def object (reference : Reference) : Value :=
    .coroutine ⟨reference.factory, (reference.nspace.getD "default").toList⟩ reference.taskName.toList

/-- The object that a reference list, with the import above it, says a name has. -/
def meant (references : List Reference) (name : Str) : Option Value :=
  match references.reverse.find? fun reference => reference.functionName.toList = name with
  | some reference => some (object reference)
  | none => (factoryNamed name).map fun kind => .factory (imported kind)

def Means (result : Except Raised Globals) (references : List Reference) : Prop :=
  ∃ globals, result = .ok globals ∧ ∀ name, globals.get? name = meant references name

/-- No entry takes the name of the factory of a later one. -/
def Kept (references : List Reference) : Prop :=
  references.Pairwise fun earlier later => earlier.functionName ≠ refFactory later.factory

/-- The language lets every entry be bound. -/
def Assignable (references : List Reference) : Prop :=
  ∀ reference ∈ references, unassignable reference.functionName.toList = false

/-- Of the header there are only comments. -/
def OnlyComments (sourcePaths : List Str) : Prop :=
    ∀ l ∈ sourceHeader sourcePaths, ∀ line ∈ lines l, skippable line = true

instance (references : List Reference) : Decidable (Kept references) :=
  inferInstanceAs (Decidable (references.Pairwise fun earlier later => earlier.functionName ≠
    refFactory later.factory))

instance (references : List Reference) : Decidable (Assignable references) :=
  inferInstanceAs (Decidable (∀ reference ∈ references,
    unassignable reference.functionName.toList = false))

instance (sourcePaths : List Str) : Decidable (OnlyComments sourcePaths) :=
  inferInstanceAs (Decidable (∀ l ∈ sourceHeader sourcePaths, ∀ line ∈ lines l,
    skippable line = true))

/-! ## Reading the text back -/

section text

variable {charset : Charset} {reference : Reference} {references : List Reference}
  {sourcePaths : List Str} {rest : Str}

theorem factoryNamed_refFactory (kind : Kind) :
    factoryNamed (refFactory kind).toList = some kind := by
  cases kind <;> decide

theorem isIdentifier_refFactory (kind : Kind) :
    charset.isIdentifier (refFactory kind).toList = true := by
  have hplain : Ascii (refFactory kind).toList := by cases kind <;> decide
  have hidentifier : Charset.plain.isIdentifier (refFactory kind).toList = true := by
    cases kind <;> decide
  exact Charset.isIdentifier_of_ascii hplain hidentifier

theorem after_append (opening text : Str) : after opening (opening ++ text) = some text := by
  simp [after]

theorem readIndex_repr (name : Str) :
    readIndex (['['] ++ repr charset name ++ [']']) = some name := by
  rw [readIndex, List.append_assoc, after_append]
  simp only [Option.bind_eq_bind, Option.bind_some, readLiteral_repr, if_true]

/-- The statement of an entry. -/
def statement (reference : Reference) : Statement :=
  .assignment reference.functionName.toList reference.factory
    (reference.nspace.map String.toList) reference.taskName.toList

theorem referenceLine_eq (charset : Charset) (reference : Reference) :
    referenceLine charset reference = reference.functionName.toList ++
    (" = ".toList ++ ((refFactory reference.factory).toList ++
      (namespaceArgument charset reference.nspace ++
        (['['] ++ repr charset reference.taskName.toList ++ [']'])))) := by
  unfold referenceLine
  simp only [List.append_assoc]

/-- The factory of an entry is read up to its bracket or parenthesis. -/
theorem readName_refFactory (kind : Kind) {text : Str}
    (htext : text.head? = some '[' ∨ text.head? = some '(') :
    charset.readName ((refFactory kind).toList ++ text) = ((refFactory kind).toList, text) := by
  apply Charset.readName_append (isIdentifier_refFactory kind)
  intro c hc
  rcases htext with htext | htext
  · cases hc.symm.trans htext
    exact charset.idContinue_ascii '[' (by decide)
  · cases hc.symm.trans htext
    exact charset.idContinue_ascii '(' (by decide)

theorem readNamespace_none {text : Str} (h : after "(namespace=".toList text = none) :
    readNamespace text = some (none, text) := by
  unfold readNamespace
  rw [h]

theorem readNamespace_some {text rest : Str} (h : after "(namespace=".toList text = some rest) :
    readNamespace text = (readLiteral rest).bind fun read => (after [')'] read.2).map fun text =>
    (some read.1, text) := by
  unfold readNamespace
  rw [h]

theorem readNamespace_argument (nspace : Option String) (text : Str) :
    readNamespace (namespaceArgument charset nspace ++ '[' :: text) =
      some (nspace.map String.toList, '[' :: text) := by
  cases nspace with
  | none => exact readNamespace_none rfl
  | some nspace =>
    have hargument : namespaceArgument charset (some nspace) ++ '[' :: text =
        "(namespace=".toList ++ (repr charset nspace.toList ++ ([')'] ++ '[' :: text)) := by
      unfold namespaceArgument
      simp only [List.append_assoc]
    rw [hargument, readNamespace_some (after_append _ _), readLiteral_repr, Option.bind_some,
      after_append]
    rfl

theorem head?_namespaceArgument (nspace : Option String) (text : Str) :
    (namespaceArgument charset nspace ++ '[' :: text).head? = some '[' ∨
    (namespaceArgument charset nspace ++ '[' :: text).head? = some '(' := by
  cases nspace with
  | none => exact Or.inl rfl
  | some nspace => exact Or.inr rfl

theorem readAssignment_referenceLine (h : charset.isIdentifier reference.functionName.toList =
      true) :
    readAssignment charset (referenceLine charset reference) = some (statement reference) := by
  have hspace : charset.idContinue ' ' = false := charset.idContinue_ascii ' ' (by decide)
  have htarget : ∀ text, charset.readName
    (reference.functionName.toList ++ (" = ".toList ++ text)) =
      (reference.functionName.toList, " = ".toList ++ text) :=
    fun text => Charset.readName_append h (by simpa using hspace)
  have hindex : readIndex ('[' :: (repr charset reference.taskName.toList ++ [']'])) =
    some reference.taskName.toList := readIndex_repr _
  have hline : referenceLine charset reference = reference.functionName.toList ++
    (" = ".toList ++ ((refFactory reference.factory).toList ++
      (namespaceArgument charset reference.nspace ++ '[' ::
        (repr charset reference.taskName.toList ++ [']'])))) := referenceLine_eq _ _
  simp only [readAssignment, hline, htarget, after_append, readName_refFactory _
    (head?_namespaceArgument _ _), factoryNamed_refFactory,
    readNamespace_argument, hindex, h, statement, Option.bind_eq_bind, Option.bind_some, if_true]

theorem noControl_referenceLine (h : charset.isIdentifier reference.functionName.toList = true) :
    NoControl (referenceLine charset reference) := by
  have hargument : NoControl (namespaceArgument charset reference.nspace) := by
    unfold namespaceArgument
    split
    · exact List.forall_mem_nil _
    · apply NoControl.append _ (by decide)
      exact NoControl.append (by decide) noControl_repr
  have hindex : NoControl (['['] ++ repr charset reference.taskName.toList ++ [']']) := by
    apply NoControl.append _ (by decide)
    exact NoControl.append (by decide) noControl_repr
  have hfactory : charset.isIdentifier (refFactory reference.factory).toList = true :=
    isIdentifier_refFactory _
  rw [referenceLine_eq]
  apply NoControl.append (Charset.noControl_identifier h)
  apply NoControl.append (by decide)
  apply NoControl.append (Charset.noControl_identifier hfactory)
  exact hargument.append hindex

/-- Behind its name an entry has an equals sign, the import the name of a module. -/
theorem referenceLine_ne_importLine (h : charset.isIdentifier reference.functionName.toList =
      true) :
    referenceLine charset reference ≠ importLine := by
  intro heq
  have hfrom : charset.isIdentifier "from".toList = true :=
    Charset.isIdentifier_of_ascii (by decide) (by decide)
  have hspace : charset.idContinue ' ' = false := charset.idContinue_ascii ' ' (by decide)
  have hline : importLine = "from".toList ++ ' ' ::
      "atasks.refs import atask_bref, atask_qref, ataskref".toList := by
    decide
  have himport : (charset.readName importLine).2 = ' ' ::
      "atasks.refs import atask_bref, atask_qref, ataskref".toList := by
    rw [hline, Charset.readName_append hfrom (by simpa using hspace)]
  have hentry : (charset.readName (referenceLine charset reference)).2.take 2 = [' ', '='] := by
    rw [referenceLine_eq, Charset.readName_append h (by simpa using hspace)]
    rfl
  rw [heq, himport] at hentry
  exact absurd hentry (by decide)

theorem compile_skip {before : List Str} (h : ∀ line ∈ before, skippable line = true)
    (rest : List Str) :
    compile charset (before ++ rest) = compile charset rest := by
  induction before with
  | nil => rfl
  | cons line before ih =>
    rw [List.cons_append, compile, if_pos (h line List.mem_cons_self)]
    exact ih fun line hline => h line (List.mem_cons_of_mem _ hline)

theorem skippable_referenceLine (h : charset.isIdentifier reference.functionName.toList = true) :
    skippable (referenceLine charset reference) = false := by
  rw [referenceLine_eq]
  exact Charset.skippable_identifier h _

theorem compile_referenceLine (h : charset.isIdentifier reference.functionName.toList = true)
    (rest : List Str) :
    compile charset (referenceLine charset reference :: rest) =
      if unassignable reference.functionName.toList then .error .syntaxError
      else (compile charset rest).map (statement reference :: ·) := by
  rw [compile, if_neg (by simp [skippable_referenceLine h]), if_neg (referenceLine_ne_importLine h),
    readAssignment_referenceLine h]
  rfl

/-- The entries are compiled each to its own statement. -/
theorem compile_references
    (h : ∀ reference ∈ references, charset.isIdentifier reference.functionName.toList = true)
    (hassignable : Assignable references) :
    compile charset (references.map (referenceLine charset) ++ [[]]) = .ok
      (references.map statement) := by
  induction references with
  | nil => rfl
  | cons reference references ih =>
    rw [List.map_cons, List.cons_append, compile_referenceLine (h reference List.mem_cons_self),
      if_neg (Bool.eq_false_iff.1 (hassignable reference List.mem_cons_self)),
        ih (fun r hr => h r (List.mem_cons_of_mem _ hr))
        (fun r hr => hassignable r (List.mem_cons_of_mem _ hr))]
    rfl

/-- One target that nothing can be assigned to spoils the whole text. -/
theorem compile_unassignable
    (h : ∀ reference ∈ references, charset.isIdentifier reference.functionName.toList = true)
    (hunassignable : ∃ reference ∈ references,
      unassignable reference.functionName.toList = true) :
    compile charset (references.map (referenceLine charset) ++ [[]]) = .error .syntaxError := by
  induction references with
  | nil =>
    obtain ⟨_, hmem, -⟩ := hunassignable
    cases hmem
  | cons reference references ih =>
    rw [List.map_cons, List.cons_append, compile_referenceLine (h reference List.mem_cons_self)]
    split
    · rfl
    · rename_i hne
      have hrest : ∃ r ∈ references, unassignable r.functionName.toList = true := by
        obtain ⟨r, hr, hname⟩ := hunassignable
        rcases List.mem_cons.1 hr with rfl | hr
        · exact absurd hname hne
        · exact ⟨r, hr, hname⟩
      rw [ih (fun r hr => h r (List.mem_cons_of_mem _ hr)) hrest]
      rfl

end text

/-! ## Running it -/

section run

variable {elsewhere : Globals → List Str → Except Raised Globals} {globals : Globals}
  {earlier references : List Reference} {reference : Reference}

theorem meant_concat (name : Str) :
    meant (earlier ++ [reference]) name =
      if reference.functionName.toList = name then some (object reference)
      else meant earlier name := by
  unfold meant
  rw [List.reverse_append, List.reverse_singleton, List.singleton_append, List.find?_cons]
  by_cases hname : reference.functionName.toList = name <;> simp [hname]

/-- The name of a factory means the factory until an entry takes it. -/
theorem meant_refFactory (earlier : List Reference) (kind : Kind) :
    (∃ reference ∈ earlier, reference.functionName = refFactory kind) ∧
        (∃ reference, meant earlier (refFactory kind).toList = some (object reference)) ∨
      (∀ reference ∈ earlier, reference.functionName ≠ refFactory kind) ∧
        meant earlier (refFactory kind).toList = some (.factory (imported kind)) := by
  unfold meant
  cases hfind : earlier.reverse.find? fun reference => reference.functionName.toList =
    (refFactory kind).toList with
  | some reference =>
    have hmem := List.mem_of_find?_eq_some hfind
    have hname := List.find?_some hfind
    rw [decide_eq_true_iff] at hname
    exact Or.inl ⟨⟨reference, List.mem_reverse.1 hmem, String.toList_injective hname⟩,
      reference, rfl⟩
  | none =>
    refine Or.inr ⟨fun reference hmem hname => ?_, ?_⟩
    · have hnone := List.find?_eq_none.1 hfind reference (List.mem_reverse.2 hmem)
      exact hnone (decide_eq_true (congrArg String.toList hname))
    · simp only [factoryNamed_refFactory, Option.map_some]

theorem get?_imports (name : Str) : (imports globals).get? name =
    match factoryNamed name with
    | some kind => some (.factory (imported kind))
    | none => globals.get? name := by
  have hget : (imports globals).get? name =
      if name = (refFactory .rpc).toList then some (.factory (imported .rpc))
      else if name = (refFactory .queue).toList then some (.factory (imported .queue))
      else if name = (refFactory .broadcast).toList then some (.factory (imported .broadcast))
        else globals.get? name := by
    simp only [imports, List.foldl_cons, List.foldl_nil, Dict.get?_set]
  rw [hget]
  split_ifs with hrpc hqueue hbroadcast
  · rw [hrpc, factoryNamed_refFactory]
  · rw [hqueue, factoryNamed_refFactory]
  · rw [hbroadcast, factoryNamed_refFactory]
  · have hnone : factoryNamed name = none := by
      simp [factoryNamed, Ne.symm hrpc, Ne.symm hqueue, Ne.symm hbroadcast]
    rw [hnone]

/-- One entry, executed where each name means what the entries before it say. -/
theorem step_statement (elsewhere : Globals → List Str → Except Raised Globals)
    (reference : Reference) (h : ∀ name, globals.get? name = meant earlier name) :
    (∃ globals', step elsewhere globals (statement reference) = .ok globals' ∧
        ∀ name, globals'.get? name = meant (earlier ++ [reference]) name) ∧
      (∀ other ∈ earlier, other.functionName ≠ refFactory reference.factory) ∨
    (∃ raised, step elsewhere globals (statement reference) = .error raised) ∧
      ∃ other ∈ earlier, other.functionName = refFactory reference.factory := by
  rcases meant_refFactory earlier reference.factory with ⟨htaken, other, hmeant⟩ | ⟨hkept, hmeant⟩
  · refine Or.inr ⟨⟨.typeError, ?_⟩, htaken⟩
    rw [← h] at hmeant
    simp only [statement, step, hmeant, object]
  · refine Or.inl ⟨⟨globals.set reference.functionName.toList (object reference), ?_,
      fun name => ?_⟩, hkept⟩
    · rw [← h] at hmeant
      simp only [statement, step, hmeant]
      cases hnspace : reference.nspace <;> simp [Ref.getItem, Ref.call, object, imported, hnspace]
    · rw [meant_concat, Dict.get?_set, h name]
      by_cases hname : name = reference.functionName.toList
      · simp [hname]
      · simp [hname, Ne.symm hname]

/-- **All entries**: executed to the end, in the sense of the list, exactly if each finds its
factory. -/
theorem run_statements (h : ∀ name, globals.get? name = meant earlier name) :
    Means (run elsewhere globals (references.map statement)) (earlier ++ references) ↔
      (∀ reference ∈ references, ∀ other ∈ earlier,
        other.functionName ≠ refFactory reference.factory) ∧ Kept references := by
  induction references generalizing globals earlier with
  | nil =>
    constructor
    · intro _
      exact ⟨fun _ hmem => absurd hmem List.not_mem_nil, List.Pairwise.nil⟩
    · intro _
      exact ⟨globals, rfl, fun name => by rw [List.append_nil, h name]⟩
  | cons reference references ih =>
    have hrun : run elsewhere globals ((reference :: references).map statement) =
        step elsewhere globals (statement reference) >>= fun globals => run elsewhere globals
          (references.map statement) := rfl
    rw [hrun, Kept, List.pairwise_cons, List.forall_mem_cons]
    rcases step_statement elsewhere reference h with ⟨⟨globals', hstep, hmeant⟩, hkept⟩
      | ⟨⟨raised, hstep⟩, htaken⟩
    · have hrest := ih hmeant
      rw [List.append_assoc, List.singleton_append] at hrest
      rw [hstep]
      refine Iff.trans hrest ?_
      constructor
      · rintro ⟨hafter, hrest⟩
        refine ⟨⟨hkept, fun later hlater other hother => ?_⟩, fun later hlater => ?_, hrest⟩
        · exact hafter later hlater other (List.mem_append_left _ hother)
        · exact hafter later hlater reference (List.mem_append_right _ (List.mem_singleton_self _))
      · rintro ⟨⟨-, hafter⟩, hnext, hrest⟩
        refine ⟨fun later hlater other hother => ?_, hrest⟩
        rcases List.mem_append.1 hother with hother | hother
        · exact hafter later hlater other hother
        · rw [List.mem_singleton.1 hother]
          exact hnext later hlater
    · rw [hstep]
      constructor
      · rintro ⟨_, herror, -⟩
        cases herror
      · rintro ⟨⟨hkept, -⟩, -⟩
        obtain ⟨other, hmem, hname⟩ := htaken
        exact absurd hname (hkept other hmem)

end run

/-! ## The whole text -/

section whole

variable {charset : Charset} {elsewhere : Globals → List Str → Except Raised Globals}
  {references : List Reference} {sourcePaths : List Str}

theorem renderReferences_eq : renderReferences charset references sourcePaths =
    unlines (sourceHeader sourcePaths) ++ unlines
      (notes ++ references.map (referenceLine charset)) := by
  have hne : sourceHeader sourcePaths ++ notes ++ references.map (referenceLine charset) ≠ [] := by
    simp [notes]
  rw [renderReferences, join_newline hne, List.append_assoc, unlines_append]

theorem nul_mem_sourceHeader :
    (∃ l ∈ sourceHeader sourcePaths, nul ∈ l) ↔ ∃ sourcePath ∈ sourcePaths, nul ∈ sourcePath := by
  have hfirst : nul ∉ "# Generated by atasks refs from ".toList := by decide
  have hheading : nul ∉ "# Generated by atasks refs from these source files:".toList := by decide
  have hitem : nul ∉ "# - ".toList := by decide
  have hdot : nul ≠ '.' := by decide
  unfold sourceHeader
  split
  · simp only [List.mem_singleton, exists_eq_left, List.mem_append, hfirst, false_or,
      hdot, or_false]
  · simp only [List.exists_mem_cons_iff, hheading, false_or, List.mem_map, exists_exists_and_eq_and,
      List.mem_append, hitem]

theorem noControl_body
    (h : ∀ reference ∈ references, charset.isIdentifier reference.functionName.toList = true) :
    ∀ l ∈ notes ++ references.map (referenceLine charset), NoControl l := by
  have hnotes : ∀ l ∈ notes, NoControl l := by decide
  refine List.forall_mem_append.2 ⟨hnotes, fun l hl => ?_⟩
  obtain ⟨reference, hmem, rfl⟩ := List.mem_map.1 hl
  exact noControl_referenceLine (h reference hmem)

theorem noBreak_body
    (h : ∀ reference ∈ references, charset.isIdentifier reference.functionName.toList = true) :
    ∀ l ∈ notes ++ references.map (referenceLine charset), NoBreak l :=
  fun l hl => (noControl_body h l hl).noBreak

/-- Nothing but comments comes of paths without line breaks. -/
theorem onlyComments_of_noBreak (h : ∀ sourcePath ∈ sourcePaths, NoBreak sourcePath) :
    OnlyComments sourcePaths := by
  have hcomment : ∀ text, '\r' ∉ text → '\n' ∉ text → text.head? = some '#' → ∀ line ∈ lines text,
      skippable line = true := by
    intro text hcr hlf hhead line hline
    rw [lines_eq_singleton hcr hlf, List.mem_singleton] at hline
    obtain ⟨rest, rfl⟩ := List.head?_eq_some_iff.1 hhead
    rw [hline]
    exact skippable_comment
  intro l hl
  unfold sourceHeader at hl
  split at hl
  · rename_i sourcePath
    obtain ⟨hcr, hlf⟩ := h sourcePath (List.mem_singleton_self _)
    rw [List.mem_singleton] at hl
    subst hl
    apply hcomment
    · simp [hcr]
    · simp [hlf]
    · rfl
  · rcases List.mem_cons.1 hl with rfl | hl
    · exact hcomment _ (by decide) (by decide) rfl
    · obtain ⟨sourcePath, hmem, rfl⟩ := List.mem_map.1 hl
      obtain ⟨hcr, hlf⟩ := h sourcePath hmem
      apply hcomment
      · simp [hcr]
      · simp [hlf]
      · rfl

/-- An encoding is declared in a path only. -/
theorem not_declaresEncoding_renderReferences
    (h : ∀ reference ∈ references, charset.isIdentifier reference.functionName.toList = true)
    (hbreak : ∀ sourcePath ∈ sourcePaths, NoBreak sourcePath)
    (hcoding : ∀ sourcePath ∈ sourcePaths, NoCoding sourcePath) :
    declaresEncoding (renderReferences charset references sourcePaths) = false := by
  have hheader : ∀ l ∈ sourceHeader sourcePaths, NoBreak l ∧ NoCoding l := by
    intro l hl
    unfold sourceHeader at hl
    split at hl
    · rename_i sourcePath
      rw [List.mem_singleton] at hl
      subst hl
      obtain ⟨hcr, hlf⟩ := hbreak sourcePath (List.mem_singleton_self _)
      refine ⟨⟨by simp [hcr], by simp [hlf]⟩, ?_⟩
      exact (hcoding sourcePath (List.mem_singleton_self _)).frame (by decide)
        (by decide) (by decide)
    · rcases List.mem_cons.1 hl with rfl | hl
      · exact ⟨⟨by decide, by decide⟩, by decide⟩
      · obtain ⟨sourcePath, hmem, rfl⟩ := List.mem_map.1 hl
        obtain ⟨hcr, hlf⟩ := hbreak sourcePath hmem
        refine ⟨⟨by simp [hcr], by simp [hlf]⟩, ?_⟩
        rw [← List.append_nil ("# - ".toList ++ sourcePath)]
        exact (hcoding sourcePath hmem).frame (by decide) (by simp) (by simp)
  have hnotes : ∀ l ∈ notes.take 1, ':' ∉ l ∧ '=' ∉ l := by decide
  have hlines : lines (renderReferences charset references sourcePaths) =
      sourceHeader sourcePaths ++ notes.take 1 ++
        (notes.drop 1 ++ references.map (referenceLine charset) ++ [[]]) := by
    rw [renderReferences_eq, ← unlines_append, lines_unlines]
    · simp [notes]
    · exact List.forall_mem_append.2 ⟨fun l hl => (hheader l hl).1, noBreak_body h⟩
  have htwo : 2 ≤ (sourceHeader sourcePaths ++ notes.take 1).length := by
    unfold sourceHeader
    split <;> simp [notes]
  apply not_declaresEncoding
  rw [hlines, List.take_append_of_le_length htwo]
  intro line hline
  rcases List.mem_append.1 (List.mem_of_mem_take hline) with hline | hline
  · exact (hheader line hline).2
  · exact noCoding_of_notMem (hnotes line hline).1 (hnotes line hline).2

/-- A NUL comes from a path only. -/
theorem nul_mem_renderReferences
    (h : ∀ reference ∈ references, charset.isIdentifier reference.functionName.toList = true) :
    nul ∈ renderReferences charset references sourcePaths ↔ ∃ sourcePath ∈ sourcePaths,
    nul ∈ sourcePath := by
  have hbody : ¬ ∃ l ∈ notes ++ references.map (referenceLine charset), nul ∈ l := by
    rintro ⟨l, hl, hnul⟩
    exact (noControl_body h l hl).notMem (by decide) hnul
  rw [renderReferences_eq, List.mem_append, mem_unlines (by decide), mem_unlines (by decide),
    nul_mem_sourceHeader]
  exact or_iff_left hbody

theorem compile_renderReferences
    (h : ∀ reference ∈ references, charset.isIdentifier reference.functionName.toList = true)
    (hcomments : OnlyComments sourcePaths) :
    compile charset (lines (renderReferences charset references sourcePaths)) =
      (compile charset (references.map (referenceLine charset) ++ [[]])).map (.imports :: ·) := by
  obtain ⟨before, hlines, hbefore⟩ := lines_unlines_skippable hcomments
    (unlines (notes ++ references.map (referenceLine charset)))
  have hnotes : notes = notes.take 3 ++ importLine :: [[]] := by decide
  have hcomment : ∀ line ∈ notes.take 3, skippable line = true := by decide
  have himport : skippable importLine = false := by decide
  have hblank : ∀ line ∈ [([] : Str)], skippable line = true := by decide
  rw [renderReferences_eq, hlines, compile_skip hbefore, lines_unlines (noBreak_body h), hnotes,
    List.append_assoc, List.append_assoc,
    compile_skip hcomment, List.cons_append, compile, if_neg (by simp [himport]), if_pos rfl,
      compile_skip hblank]

theorem execute_renderReferences
    (h : ∀ reference ∈ references, charset.isIdentifier reference.functionName.toList = true)
    (hcomments : OnlyComments sourcePaths) (hassignable : Assignable references)
    (hnul : ∀ sourcePath ∈ sourcePaths, nul ∉ sourcePath) :
    execute charset elsewhere (renderReferences charset references sourcePaths) =
      run elsewhere (imports Dict.empty) (references.map statement) := by
  have htext : nul ∉ renderReferences charset references sourcePaths := by
    rw [nul_mem_renderReferences h]
    rintro ⟨sourcePath, hmem, hpath⟩
    exact hnul sourcePath hmem hpath
  rw [execute, if_neg htext, compile_renderReferences h hcomments, compile_references h hassignable]
  rfl

theorem means_iff
    (h : ∀ reference ∈ references, charset.isIdentifier reference.functionName.toList = true)
    (hcomments : OnlyComments sourcePaths) :
    Means (execute charset elsewhere (renderReferences charset references sourcePaths)) references ↔
      Kept references ∧ Assignable references ∧ ∀ sourcePath ∈ sourcePaths, nul ∉ sourcePath := by
  -- After the import, names mean what the empty list says.
  have hempty : ∀ name, (imports Dict.empty).get? name = meant [] name := by
    intro name
    rw [get?_imports]
    unfold meant
    cases factoryNamed name <;> rfl
  have hrun : Means (run elsewhere (imports Dict.empty) (references.map statement)) references ↔
    _ ∧ Kept references := run_statements hempty
  constructor
  · rintro ⟨globals, hexecute, hmeant⟩
    have hnul : nul ∉ renderReferences charset references sourcePaths := by
      intro hmem
      rw [execute, if_pos hmem] at hexecute
      cases hexecute
    have hpaths : ∀ sourcePath ∈ sourcePaths, nul ∉ sourcePath :=
      fun sourcePath hmem hpath => hnul ((nul_mem_renderReferences h).2 ⟨sourcePath, hmem, hpath⟩)
    have hassignable : Assignable references := by
      intro reference hmem
      by_contra hname
      rw [Bool.not_eq_false] at hname
      rw [execute, if_neg hnul, compile_renderReferences h hcomments, compile_unassignable h
        ⟨reference, hmem, hname⟩] at hexecute
      cases hexecute
    rw [execute_renderReferences h hcomments hassignable hpaths] at hexecute
    exact ⟨(hrun.1 ⟨globals, hexecute, hmeant⟩).2, hassignable, hpaths⟩
  · rintro ⟨hkept, hassignable, hpaths⟩
    rw [execute_renderReferences h hcomments hassignable hpaths]
    exact hrun.2 ⟨fun _ _ _ hmem => absurd hmem List.not_mem_nil, hkept⟩

theorem splitOn_renderReferences
    (h : ∀ reference ∈ references, charset.isIdentifier reference.functionName.toList = true)
    (sourcePath : Str) :
    (renderReferences charset references [sourcePath]).splitOn '\n' =
      ("# Generated by atasks refs from ".toList ++ sourcePath ++ ['.']).splitOn '\n' ++
        (notes ++ references.map (referenceLine charset) ++ [[]]) := by
  have hheader : unlines (sourceHeader [sourcePath]) = "# Generated by atasks refs from ".toList ++
      sourcePath ++ ['.'] ++ ['\n'] := by
    simp [unlines, sourceHeader]
  rw [renderReferences_eq, hheader, List.append_assoc _ ['\n'], List.singleton_append,
    List.splitOn_append_cons_self,
    splitOn_unlines (noBreak_body h)]

/-- The text of one source names it. -/
theorem sourcePath_of_renderReferences {references' : List Reference} {sourcePath sourcePath' : Str}
    (h : ∀ reference ∈ references, charset.isIdentifier reference.functionName.toList = true)
    (h' : ∀ reference ∈ references', charset.isIdentifier reference.functionName.toList = true)
    (htext : renderReferences charset references [sourcePath] = renderReferences charset references'
      [sourcePath']) :
    sourcePath = sourcePath' := by
  have hnotes :
      notes = "# This file contains lightweight references to the tasks declared there.".toList ::
      notes.tail := by
    decide
  -- The first note is the last line of its kind.
  have hlast : ∀ {references : List Reference},
    (∀ reference ∈ references, charset.isIdentifier reference.functionName.toList = true) →
      "# This file contains lightweight references to the tasks declared there.".toList ∉
        notes.tail ++ (references.map (referenceLine charset) ++ [[]]) := by
    intro references h hmem
    rcases List.mem_append.1 hmem with hmem | hmem
    · exact absurd hmem (by decide)
    rcases List.mem_append.1 hmem with hmem | hmem
    · obtain ⟨reference, hreference, hline⟩ := List.mem_map.1 hmem
      have hskip := skippable_referenceLine (h reference hreference)
      rw [hline] at hskip
      exact absurd hskip (by decide)
    · exact absurd hmem (by decide)
  have hsplit := congrArg (List.splitOn '\n') htext
  rw [splitOn_renderReferences h, splitOn_renderReferences h', List.append_assoc notes,
    List.append_assoc notes, hnotes] at hsplit
  have hheader := Text.before_last hsplit (hlast h) (hlast h')
  have hjoin := congrArg (List.intercalate ['\n']) hheader
  rw [List.intercalate_splitOn, List.intercalate_splitOn] at hjoin
  exact List.append_cancel_left (List.append_cancel_right hjoin)

end whole

end Rendered

open Rendered in
/-- **A generated module means its reference list** under exactly these conditions, as far as its
paths leave only comments. -/
theorem renderReferences_means_iff (charset : Charset)
    (elsewhere : Globals → List Str → Except Raised Globals) {moduleName : String}
    {body : List Stmt} {references : List Reference} {sourcePaths : List Str}
    (hnames : ∀ name decorators, Stmt.function name decorators ∈ body →
      charset.isIdentifier name.toList = true)
    (hreferences : taskReferences moduleName body = .ok references)
    (hcomments : OnlyComments sourcePaths) :
    Means (Rendered.execute charset elsewhere (renderReferences charset references sourcePaths))
    references ↔
      Kept references ∧ Assignable references ∧ ∀ sourcePath ∈ sourcePaths, nul ∉ sourcePath := by
  have h : ∀ reference ∈ references, charset.isIdentifier reference.functionName.toList = true := by
    intro reference hmem
    obtain ⟨decorators, hbody⟩ := mem_of_taskReferences hreferences hmem
    exact hnames _ decorators hbody
  exact means_iff h hcomments

/-- A queue task in a namespace that needs an escape. -/
def escaped : List Stmt := [.function "work"
      [.call (.name "atask_queue") [] [(some "namespace", .constant (.str "it's"))]]]

/-- Two tasks, the first under the name of the factory of the second. -/
def shadowing : List Stmt := [.function "ataskref" [.name "atask"], .function "work"
      [.name "atask"]]

open Rendered in
theorem escaped_means : Means
    (Rendered.execute .plain (fun _ _ => .error .other)
      (renderReferences .plain [⟨"work", .queue, "app.tasks.work", some "it's"⟩]
        ["app/tasks.py".toList]))
    [⟨"work", .queue, "app.tasks.work", some "it's"⟩] := by
  have hnames : ∀ name decorators, Stmt.function name decorators ∈ escaped →
      Charset.plain.isIdentifier name.toList = true := by
    intro name decorators hmem
    cases List.mem_singleton.1 hmem
    decide
  have hreferences : taskReferences "app.tasks" escaped =
    .ok [⟨"work", .queue, "app.tasks.work", some "it's"⟩] := rfl
  exact (renderReferences_means_iff .plain (fun _ _ => .error .other) hnames hreferences
    (by decide)).2
    ⟨by decide, by decide, by decide⟩

open Rendered in
/-- The second line of the module raises a `TypeError`. -/
theorem shadowing_fails :
    taskReferences "app" shadowing = .ok
      [⟨"ataskref", .rpc, "app.ataskref", none⟩, ⟨"work", .rpc, "app.work", none⟩] ∧
      Rendered.execute .plain (fun _ _ => .error .other)
        (renderReferences .plain [⟨"ataskref", .rpc, "app.ataskref", none⟩,
          ⟨"work", .rpc, "app.work", none⟩] ["app.py".toList]) =
            .error .typeError ∧
      ¬ Means (Rendered.execute .plain (fun _ _ => .error .other)
        (renderReferences .plain [⟨"ataskref", .rpc, "app.ataskref", none⟩,
          ⟨"work", .rpc, "app.work", none⟩] ["app.py".toList]))
        [⟨"ataskref", .rpc, "app.ataskref", none⟩, ⟨"work", .rpc, "app.work", none⟩] := by
  have hexecute : Rendered.execute .plain (fun _ _ => .error .other)
      (renderReferences .plain [⟨"ataskref", .rpc, "app.ataskref", none⟩,
        ⟨"work", .rpc, "app.work", none⟩] ["app.py".toList]) =
          .error .typeError := by
    rw [execute_renderReferences (by decide) (by decide) (by decide) (by decide)]
    rfl
  refine ⟨rfl, hexecute, ?_⟩
  rintro ⟨globals, hok, -⟩
  rw [hexecute] at hok
  cases hok

end Atasks.Commands
