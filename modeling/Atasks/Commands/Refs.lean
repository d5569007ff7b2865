import Atasks.Basic
import Atasks.Lib.Dict
import Atasks.Lib.Raising
/-!
# References read off a module

`_decorator_info` and `_task_references` (`atasks/commands/refs.py:15-55`): what the `refs`
command makes of a module's syntax tree, without executing it. What executing it does is in
`Commands/Decorators.lean`.

| here | there |
| --- | --- |
| `Expr`, `Stmt`           | the nodes of `ast` that are looked at; a module is its `body` |
| `decoratorRefs`, `refFactory` | `_DECORATOR_REFS` (`:8-12`) |
| `decoratorInfo`          | `_decorator_info` |
| `functionReference`      | the inner loop of `_task_references` (`:46-54`), which ends with the first match |
| `taskReferences`         | `_task_references`, after `ast.parse` |
-/

namespace Atasks.Commands

/-- `ast.Constant`. -/
inductive Constant
  | str (value : String)
  | none
  | other
deriving DecidableEq, Repr

/-- An expression; a keyword of a call without a name is a `**`. -/
inductive Expr
  | name (id : String)
  | constant (value : Constant)
  | attribute (value : Expr) (attr : String)
  | starred (value : Expr)
  | call (func : Expr) (args : List Expr) (keywords : List (Option String × Expr))
  /-- Any other expression, as it is written. -/
  | other (source : String)

/-- A statement at the top level. -/
inductive Stmt
  /-- `def` or `async def`, its decorators from top to bottom. -/
  | function (name : String) (decorators : List Expr)
  | other

structure ValueError where
  message : String
deriving DecidableEq, Repr

/-- `(function_name, ref_factory, task_name, namespace)`. -/
structure Reference where
  functionName : String
  factory : Kind
  taskName : String
  nspace : Option String
deriving DecidableEq, Repr

def decoratorName : Kind → String
  | .rpc => "atask"
  | .queue => "atask_queue"
  | .broadcast => "atask_broadcast"

def refFactory : Kind → String
  | .rpc => "ataskref"
  | .queue => "atask_qref"
  | .broadcast => "atask_bref"

/-- `_DECORATOR_REFS.get(decorator_name)`. -/
def decoratorRefs (id : String) : Option Kind := [Kind.rpc, .queue, .broadcast].find? fun kind =>
    decoratorName kind = id

/-- One turn of the loop over the keywords. -/
def addOption (options : Dict String String) : Option String × Expr → Except ValueError
    (Dict String String)
  | (none, _) => .ok options
  | (some arg, value) =>
    if arg = "name" ∨ arg = "namespace" then
      match value with
      | .constant (.str text) => .ok (options.set arg text)
      | _ => .error ⟨arg ++ "= must be a string literal"⟩
    else .ok options

/-- The decorator under a name, with the options of its keywords. -/
def namedInfo (id : String) (keywords : List (Option String × Expr)) : Except ValueError
    (Option (Kind × Dict String String)) :=
  match decoratorRefs id with
  | none => .ok none
  | some kind => do
    let options ← keywords.foldlM addOption Dict.empty
    return some (kind, options)

def decoratorInfo : Expr → Except ValueError (Option (Kind × Dict String String))
  | .name id => namedInfo id []
  | .call (.name id) _ keywords => namedInfo id keywords
  | _ => .ok none

/-- `'%s.%s' % (module_name, name)`. -/
def defaultName (moduleName name : String) : String := moduleName ++ "." ++ name

def functionReference (moduleName name : String) : List Expr → Except ValueError (Option Reference)
  | [] => .ok none
  | decorator :: decorators => do
    match ← decoratorInfo decorator with
    | none => functionReference moduleName name decorators
    | some (factory, options) =>
      return some {
        functionName := name
        factory := factory
        taskName := (options.get? "name").getD (defaultName moduleName name)
        nspace := options.get? "namespace"
      }

def taskReferences (moduleName : String) : List Stmt → Except ValueError (List Reference)
  | [] => .ok []
  | .other :: body => taskReferences moduleName body
  | .function name decorators :: body => do
    let reference ← functionReference moduleName name decorators
    let references ← taskReferences moduleName body
    return reference.toList ++ references

/-! ## What gets read -/

/-- A decorator by its own name, bare or called. -/
inductive Written (kind : Kind) : Expr → List (Option String × Expr) → Prop
  | bare : Written kind (.name (decoratorName kind)) []
  | called (args : List Expr) (keywords : List (Option String × Expr)) :
    Written kind (.call (.name (decoratorName kind)) args keywords) keywords

/-- An option that is not a string literal. -/
def NotLiteral (keywords : List (Option String × Expr)) : Prop :=
  ∃ arg value, (some arg, value) ∈ keywords ∧ (arg = "name" ∨ arg = "namespace") ∧ ∀ text,
    value ≠ .constant (.str text)

theorem decoratorRefs_eq_some_iff {id : String} {kind : Kind} :
    decoratorRefs id = some kind ↔ decoratorName kind = id := by
  constructor
  · intro h
    simpa using List.find?_some h
  · rintro rfl
    cases kind <;> decide

theorem decoratorName_injective : Function.Injective decoratorName := fun _ _ h =>
  Option.some.inj ((decoratorRefs_eq_some_iff.2 rfl).symm.trans
    (decoratorRefs_eq_some_iff.2 h.symm))

section scan

variable {kind : Kind} {decorator : Expr} {keywords : List (Option String × Expr)}
  {options options' : Dict String String}

theorem namedInfo_decoratorName :
    namedInfo (decoratorName kind) keywords = (keywords.foldlM addOption Dict.empty).map
    fun options => some (kind, options) := by
  rw [namedInfo, decoratorRefs_eq_some_iff.2 rfl]
  rfl

theorem Written.decoratorInfo_eq (h : Written kind decorator keywords) :
    decoratorInfo decorator = (keywords.foldlM addOption Dict.empty).map fun options =>
    some (kind, options) := by
  cases h with
  | bare => exact namedInfo_decoratorName
  | called args => exact namedInfo_decoratorName

theorem namedInfo_of_ne {id : String} (h : ∀ kind, id ≠ decoratorName kind) :
    namedInfo id keywords = .ok none := by
  unfold namedInfo
  cases hid : decoratorRefs id with
  | none => rfl
  | some kind => exact absurd (decoratorRefs_eq_some_iff.1 hid).symm (h kind)

theorem decoratorInfo_of_not_written (h : ∀ kind keywords, ¬ Written kind decorator keywords) :
    decoratorInfo decorator = .ok none := by
  unfold decoratorInfo
  split
  · apply namedInfo_of_ne
    rintro kind rfl
    exact h kind [] .bare
  · apply namedInfo_of_ne
    rintro kind rfl
    exact h kind _ (.called _ _)
  · rfl

theorem addOption_eq_ok_iff {arg : String} {value : Expr} :
    addOption options (some arg, value) = .ok options' ↔
      if arg = "name" ∨ arg = "namespace" then ∃ text, value = .constant (.str text) ∧
      options' = options.set arg text
      else options' = options := by
  unfold addOption
  split
  · rename_i heq
    cases heq
  rename_i heq
  cases heq
  split
  · split
    · simp [eq_comm]
    · rename_i hliteral
      constructor
      · intro h
        cases h
      · rintro ⟨text, rfl, -⟩
        exact absurd rfl (hliteral text)
  · simp [eq_comm]

theorem exists_addOption_error_iff {arg : Option String} {value : Expr} :
    (∃ error, addOption options (arg, value) = .error error) ↔
      ∃ known, arg = some known ∧ (known = "name" ∨ known = "namespace") ∧
      ∀ text, value ≠ .constant (.str text) := by
  constructor
  · rintro ⟨error, h⟩
    unfold addOption at h
    split at h
    · cases h
    rename_i heq
    cases heq
    split at h
    · rename_i hknown
      split at h
      · cases h
      · rename_i hliteral
        exact ⟨_, rfl, hknown, hliteral⟩
    · cases h
  · rintro ⟨known, rfl, hknown, hliteral⟩
    cases hadd : addOption options (some known, value) with
    | error error => exact ⟨error, rfl⟩
    | ok options' =>
      rw [addOption_eq_ok_iff, if_pos hknown] at hadd
      obtain ⟨text, htext, -⟩ := hadd
      exact absurd htext (hliteral text)

theorem notLiteral_cons {arg : Option String} {value : Expr} :
    NotLiteral ((arg, value) :: keywords) ↔
      (∃ known, arg = some known ∧ (known = "name" ∨ known = "namespace") ∧ ∀ text,
        value ≠ .constant (.str text)) ∨
        NotLiteral keywords := by
  constructor
  · rintro ⟨known, value', hmem, hknown, hliteral⟩
    rcases List.mem_cons.1 hmem with heq | hmem
    · cases heq
      exact Or.inl ⟨known, rfl, hknown, hliteral⟩
    · exact Or.inr ⟨known, value', hmem, hknown, hliteral⟩
  · rintro (⟨known, rfl, hknown, hliteral⟩ | ⟨known, value', hmem, hknown, hliteral⟩)
    · exact ⟨known, value, List.mem_cons_self, hknown, hliteral⟩
    · exact ⟨known, value', List.mem_cons_of_mem _ hmem, hknown, hliteral⟩

/-- The keywords are refused exactly if one of the two that count is no literal. -/
theorem exists_error_iff :
    (∃ error, keywords.foldlM addOption options = .error error) ↔ NotLiteral keywords := by
  induction keywords generalizing options with
  | nil =>
    constructor
    · rintro ⟨error, h⟩
      cases h
    · rintro ⟨_, _, hmem, -⟩
      simp at hmem
  | cons keyword keywords ih =>
    obtain ⟨arg, value⟩ := keyword
    have hhead : (∃ error, addOption options (arg, value) = .error error) ↔ _ :=
      exists_addOption_error_iff
    simp only [Raising.foldlM_cons_eq_error_iff, notLiteral_cons, ← hhead]
    cases hadd : addOption options (arg, value) with
    | error error => simp
    | ok options' =>
      have hrest : (∃ error, keywords.foldlM addOption options' = .error error) ↔
        NotLiteral keywords := ih
      simpa using hrest

theorem option_of_addOption {arg : Option String} {value : Expr}
    (h : addOption options (arg, value) = .ok options') {other : String} (hne : arg ≠ some other) :
    options'.get? other = options.get? other := by
  cases arg with
  | none =>
    cases h
    rfl
  | some arg =>
    rw [addOption_eq_ok_iff] at h
    split at h
    · obtain ⟨text, -, rfl⟩ := h
      have hother : other ≠ arg := fun heq => hne (congrArg some heq.symm)
      rw [Dict.get?_set, if_neg hother]
    · rw [h]

/-- What an option is afterwards: the literal given for it, or what it was. -/
theorem option_of_foldlM (h : keywords.foldlM addOption options = .ok options') {arg : String}
    (harg : arg = "name" ∨ arg = "namespace") :
    (∃ text, (some arg, .constant (.str text)) ∈ keywords ∧ options'.get? arg = some text) ∨
      (∀ value, (some arg, value) ∉ keywords) ∧ options'.get? arg = options.get? arg := by
  induction keywords generalizing options with
  | nil =>
    cases h
    exact Or.inr ⟨by simp, rfl⟩
  | cons keyword keywords ih =>
    obtain ⟨mid, hkeyword, hrest⟩ := Raising.foldlM_cons_eq_ok_iff.1 h
    rcases ih hrest with ⟨text, hmem, hget⟩ | ⟨hnone, hget⟩
    · exact Or.inl ⟨text, List.mem_cons_of_mem _ hmem, hget⟩
    · obtain ⟨arg', value⟩ := keyword
      by_cases hsame : arg' = some arg
      · subst hsame
        rw [addOption_eq_ok_iff, if_pos harg] at hkeyword
        obtain ⟨text, rfl, rfl⟩ := hkeyword
        exact Or.inl ⟨text, List.mem_cons_self, by rw [hget, Dict.get?_set_self]⟩
      · refine Or.inr ⟨fun value' hmem => ?_, ?_⟩
        · rcases List.mem_cons.1 hmem with heq | hmem
          · cases heq
            exact hsame rfl
          · exact hnone value' hmem
        · rw [hget]
          exact option_of_addOption hkeyword hsame

/-! ### One function -/

variable {moduleName functionName : String} {decorators : List Expr}

theorem functionReference_written (h : Written kind decorator keywords) :
    functionReference moduleName functionName (decorator :: decorators) =
      (keywords.foldlM addOption Dict.empty).map fun options => some {
        functionName := functionName
        factory := kind
        taskName := (options.get? "name").getD (defaultName moduleName functionName)
        nspace := options.get? "namespace"
      } := by
  rw [functionReference, h.decoratorInfo_eq]
  cases keywords.foldlM addOption Dict.empty <;> rfl

theorem functionReference_not_written (h : ∀ kind keywords, ¬ Written kind decorator keywords) :
    functionReference moduleName functionName (decorator :: decorators) =
      functionReference moduleName functionName decorators := by
  rw [functionReference, decoratorInfo_of_not_written h]
  rfl

/-- The first decorator under one of the names has an option that is not a literal. -/
def Refused : List Expr → Prop
  | [] => False
  | decorator :: decorators =>
    (∃ kind keywords, Written kind decorator keywords ∧ NotLiteral keywords) ∨
      (∀ kind keywords, ¬ Written kind decorator keywords) ∧ Refused decorators

theorem Written.unique {kind' : Kind} {keywords' : List (Option String × Expr)}
    (h : Written kind decorator keywords) (h' : Written kind' decorator keywords') :
    kind' = kind ∧ keywords' = keywords := by
  cases h with
  | bare =>
    generalize hsame : Expr.name (decoratorName kind) = other at h'
    cases h' with
    | bare =>
      injection hsame with hname
      exact ⟨decoratorName_injective hname.symm, rfl⟩
    | called => cases hsame
  | called args =>
    generalize hsame : Expr.call (.name (decoratorName kind)) args keywords = other at h'
    cases h' with
    | bare => cases hsame
    | called =>
      injection hsame with hfunc _ hkeywords
      injection hfunc with hname
      exact ⟨decoratorName_injective hname.symm, hkeywords.symm⟩

theorem exists_functionReference_error_iff :
    (∃ error, functionReference moduleName functionName decorators = .error error) ↔
      Refused decorators := by
  induction decorators with
  | nil =>
    constructor
    · rintro ⟨error, h⟩
      cases h
    · exact False.elim
  | cons decorator decorators ih =>
    by_cases hwritten : ∃ kind keywords, Written kind decorator keywords
    · obtain ⟨kind, keywords, hwritten⟩ := hwritten
      have hfold : (∃ error, keywords.foldlM addOption Dict.empty = .error error) ↔
        NotLiteral keywords := exists_error_iff
      rw [functionReference_written hwritten, Refused]
      constructor
      · rintro ⟨error, h⟩
        cases hopt : keywords.foldlM addOption Dict.empty with
        | error error => exact Or.inl ⟨kind, keywords, hwritten, hfold.1 ⟨error, hopt⟩⟩
        | ok options =>
          rw [hopt] at h
          cases h
      · rintro (⟨kind', keywords', hwritten', hliteral⟩ | ⟨hnot, -⟩)
        · obtain ⟨-, rfl⟩ := hwritten.unique hwritten'
          obtain ⟨error, herror⟩ := hfold.2 hliteral
          exact ⟨error, by rw [herror]; rfl⟩
        · exact absurd hwritten (hnot kind keywords)
    · have hnot : ∀ kind keywords, ¬ Written kind decorator keywords :=
        fun kind keywords h => hwritten ⟨kind, keywords, h⟩
      rw [functionReference_not_written hnot, ih, Refused]
      constructor
      · intro h
        exact Or.inr ⟨hnot, h⟩
      · rintro (⟨kind, keywords, h, -⟩ | ⟨-, h⟩)
        · exact absurd h (hnot kind keywords)
        · exact h

/-- A reference bears the name of its function. -/
theorem functionName_of_functionReference {reference : Reference}
    (h : functionReference moduleName functionName decorators = .ok (some reference)) :
    reference.functionName = functionName := by
  induction decorators with
  | nil => cases h
  | cons decorator decorators ih =>
    by_cases hwritten : ∃ kind keywords, Written kind decorator keywords
    · obtain ⟨kind, keywords, hwritten⟩ := hwritten
      rw [functionReference_written hwritten] at h
      cases hopt : keywords.foldlM addOption Dict.empty with
      | error error =>
        rw [hopt] at h
        cases h
      | ok options =>
        rw [hopt] at h
        cases h
        rfl
    · have hnot : ∀ kind keywords, ¬ Written kind decorator keywords :=
        fun kind keywords h => hwritten ⟨kind, keywords, h⟩
      rw [functionReference_not_written hnot] at h
      exact ih h

theorem mem_of_taskReferences {body : List Stmt} {references : List Reference}
    (h : taskReferences moduleName body = .ok references) {reference : Reference}
    (hmem : reference ∈ references) :
    ∃ decorators, Stmt.function reference.functionName decorators ∈ body := by
  induction body generalizing references with
  | nil =>
    cases h
    cases hmem
  | cons stmt body ih =>
    cases stmt with
    | other =>
      obtain ⟨decorators, hbody⟩ := ih h hmem
      exact ⟨decorators, List.mem_cons_of_mem _ hbody⟩
    | function name decorators =>
      obtain ⟨first, hfirst, h⟩ := Raising.bind_eq_ok_iff.1 h
      obtain ⟨rest, hrest, h⟩ := Raising.bind_eq_ok_iff.1 h
      cases h
      rcases List.mem_append.1 hmem with hmem | hmem
      · rw [Option.mem_toList] at hmem
        cases hmem
        rw [functionName_of_functionReference hfirst]
        exact ⟨decorators, List.mem_cons_self⟩
      · obtain ⟨decorators, hbody⟩ := ih hrest hmem
        exact ⟨decorators, List.mem_cons_of_mem _ hbody⟩

end scan

end Atasks.Commands
