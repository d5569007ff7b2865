import Atasks.Commands.Refs
import Atasks.Lib.Signature
/-!
# What decorators register

Executing a module runs its decorators: `atask`, `atask_queue` and `atask_broadcast`
(`atasks/tasks.py:12-127`) register the function below them under a name in a namespace. This
is what `taskReferences` has to foretell from the syntax tree alone.

It does for a decorator under its own name with its options as keywords. It does not see a
decorator that is reached in another way, nor a function below an `if`, a `try` or a class, and
takes the default for what is passed by position or through `**`: `taskReferences_agree_iff` says
exactly which modules are read right.

| here | there |
| --- | --- |
| `Value.decorator`, `Value.configured` | `atask` and its siblings; what they return without a coroutine (`functools.partial`) |
| `callTask`                            | the parameters `coro`, `name`, `namespace` of a call (`tasks.py:12,57,94`) |
| `registration`                        | `name`, unless given, is the module and the name of the function (`:48`, `:85`, `:121`) |
| `aioref`                              | what `Router.register_atask` and its siblings return (`router.py:482-491`) |
| `Registration.Twice`                  | `RegisteringTwice` (`registry.py:64-70`), from a registry for each kind (`router.py:116-118`) |
-/

namespace Atasks.Commands

/-- A function as the decorators see it: `__module__` and `__name__`. -/
structure Function where
  module : String
  name : String
deriving DecidableEq, Repr

/-- Any other decorator; it keeps the function's name. -/
structure Wrapper where
  apply : Function → Function
  keepsName : ∀ function, (apply function).name = function.name

/-- A name or a namespace, as it reaches the router. -/
inductive Label
  | str (value : String)
  /-- Any other value. Whether it can be hashed, without which registering raises, is left open. -/
  | other
deriving DecidableEq, Repr

inductive Value
  | decorator (kind : Kind)
  | configured (kind : Kind) (name : Option Label) (nspace : Label)
  | wrapper (wrapper : Wrapper)
  | str (value : String)
  | none
  | sequence (items : List Value)
  | mapping (items : List (String × Value))
  | other

/-- What expressions are worth where a function is defined. The three decorators are found
under their own names there, and maybe elsewhere. -/
structure Env where
  value : Expr → Value
  decorators : ∀ kind, value (.name (decoratorName kind)) = .decorator kind

def taskSignature : Signature where
  positional := ["coro", "name", "namespace"]
  varArgs := false
  keywordOnly := []
  defaults := ["coro", "name", "namespace"]
  varKeywords := true

/-- The value of a parameter: its place, or its keyword. -/
def passed (args : List Value) (keywords : List (String × Value)) (place : Nat)
    (parameter : String) : Option Value :=
  args[place]?.or (keywords.lookup parameter)

/-- `None`, and nothing, ask for the name of the function. -/
def asName : Option Value → Option Label
  | Option.none => Option.none
  | some .none => Option.none
  | some (.str name) => some (.str name)
  | some _ => some .other

def asNamespace : Option Value → Label
  | Option.none => .str "default"
  | some (.str nspace) => .str nspace
  | some _ => .other

/-- `atask(*args, **keywords)` as a decorator: without a coroutine. Handed one it registers that one and
decorates nothing, which is left out. -/
def callTask (kind : Kind) (args : List Value) (keywords : List (String × Value)) : Option Value :=
  match taskSignature.bindError args.length (keywords.map Prod.fst), passed args keywords 0 "coro"
    with
  | Option.none, Option.none | Option.none, some .none =>
    some (.configured kind (asName (passed args keywords 1 "name"))
      (asNamespace (passed args keywords 2 "namespace")))
  | _, _ => Option.none

def Label.value : Label → Value
  | .str value => .str value
  | .other => .other

/-- The keywords a partial call adds those of its own to. -/
def storedKeywords (name : Option Label) (nspace : Label) (keywords : List (String × Value)) : List
    (String × Value) :=
  [("name", (name.map Label.value).getD .none), ("namespace", nspace.value)].filter fun stored =>
    stored.1 ∉ keywords.map Prod.fst

namespace Env

variable (env : Env)

def argument : Expr → Value
  | .constant (.str text) => .str text
  | .constant .none => .none
  | expr => env.value expr

/-- The positional arguments of a call. -/
def args : List Expr → Option (List Value)
  | [] => some []
  | .starred expr :: exprs =>
    match env.argument expr with
    | .sequence items => (args exprs).map (items ++ ·)
    | _ => Option.none
  | expr :: exprs => (args exprs).map (env.argument expr :: ·)

def keywords : List (Option String × Expr) → Option (List (String × Value))
  | [] => some []
  | (some arg, expr) :: rest => (keywords rest).map ((arg, env.argument expr) :: ·)
  | (Option.none, expr) :: rest =>
    match env.argument expr with
    | .mapping items => (keywords rest).map (items ++ ·)
    | _ => Option.none

/-- The value of a decorator expression; nothing stands for an exception. -/
def eval : Expr → Option Value
  | .call func args keywords =>
    match eval func with
    | some (.decorator kind) =>
      (env.args args).bind fun args => (env.keywords keywords).bind fun keywords =>
        callTask kind args keywords
    | some (.configured kind name nspace) =>
      (env.args args).bind fun args => (env.keywords keywords).bind fun keywords =>
        callTask kind args (keywords ++ storedKeywords name nspace keywords)
    | some _ => some (env.value (.call func args keywords))
    | Option.none => Option.none
  | expr => some (env.argument expr)

end Env

/-! ## Registering -/

/-- A task that a function of the module has been registered as. -/
structure Registration where
  functionName : String
  kind : Kind
  taskName : Label
  nspace : Label
deriving DecidableEq, Repr

def aioref : Function := ⟨"atasks.router", "aioref"⟩

/-- The task a decorator's value registers, if it does. -/
def Value.task : Value → Option (Kind × Option Label × Label)
  | .decorator kind => some (kind, Option.none, .str "default")
  | .configured kind name nspace => some (kind, name, nspace)
  | _ => Option.none

def registration (functionName : String) (function : Function)
    (task : Kind × Option Label × Label) : Registration :=
  ⟨functionName, task.1, task.2.1.getD (.str (function.module ++ "." ++ function.name)), task.2.2⟩

/-- The decorators of a function, applied from the lowest on. -/
def applyDecorators (env : Env) (moduleName functionName : String) : List Expr → Option
    (Function × List Registration)
  | [] => some (⟨moduleName, functionName⟩, [])
  | decorator :: decorators =>
    match env.eval decorator, applyDecorators env moduleName functionName decorators with
    | some value, some (function, registered) =>
      match value.task, value with
      | some task, _ => some (aioref, registered ++ [registration functionName function task])
      | Option.none, .wrapper wrapper => some (wrapper.apply function, registered)
      | Option.none, _ => Option.none
    | _, _ => Option.none

/-- A statement of a module where it is executed: a function with what its names mean there, or
anything else with the tasks that it registers, those of functions below an `if`, a `try` or a class
among them. -/
inductive Executed
  | function (env : Env) (name : String) (decorators : List Expr)
  | other (registered : List Registration)

def Executed.stmt : Executed → Stmt
  | .function _ name decorators => .function name decorators
  | .other _ => .other

/-- What the statements register, one after the other. -/
def registrations (moduleName : String) : List Executed → Option (List Registration)
  | [] => some []
  | .other registered :: body => (registrations moduleName body).map (registered ++ ·)
  | .function env name decorators :: body =>
    match applyDecorators env moduleName name decorators, registrations moduleName body with
    | some (_, registered), some rest => some (registered ++ rest)
    | _, _ => Option.none

/-- Two tasks of one kind under one name in one namespace. Whether labels that are no strings are
equal is left open. -/
def Registration.Twice (registration registration' : Registration) : Prop :=
  registration.kind = registration'.kind ∧ registration.taskName = registration'.taskName ∧
    registration.nspace = registration'.nspace ∧ registration.taskName ≠ .other ∧
      registration.nspace ≠ .other

instance : DecidableRel Registration.Twice := fun _ _ => inferInstanceAs (Decidable (_ ∧ _))

/-- Executes a module; nothing stands for an exception, `RegisteringTwice` among them. -/
def execute (moduleName : String) (body : List Executed) : Option (List Registration) :=
  (registrations moduleName body).filter fun registered =>
    registered.Pairwise fun earlier later => ¬ earlier.Twice later

/-- The task a reference calls. -/
def Reference.target (reference : Reference) : Registration :=
  ⟨reference.functionName, reference.factory, .str reference.taskName,
    .str (reference.nspace.getD "default")⟩

/-! ## What can be read -/

namespace Env

variable (env : Env)

/-- The task a decorator registers the function below it as. -/
def task (decorator : Expr) : Option (Kind × Option Label × Label) :=
    (env.eval decorator).bind Value.task

/-- The function that decorators without a task leave. -/
def wrapped (function : Function) : List Expr → Function
  | [] => function
  | decorator :: decorators =>
    match env.eval decorator with
    | some (.wrapper wrapper) => wrapper.apply (wrapped function decorators)
    | _ => wrapped function decorators

/-- What a parameter is passed by its place or through a `**`. -/
def unseen (args : List Expr) (keywords : List (Option String × Expr)) (place : Nat)
    (parameter : String) : Option Value :=
  passed ((env.args args).getD [])
    ((env.keywords (keywords.filter fun keyword => keyword.1.isNone)).getD []) place parameter

end Env

def Expr.callArgs : Expr → List Expr
  | .call _ args _ => args
  | _ => []

def HasKeyword (keywords : List (Option String × Expr)) (parameter : String) : Prop :=
    ∃ value, (some parameter, value) ∈ keywords

/-- A decorator whose name and namespace are given by keywords, or are what the command takes them
for. -/
structure ReadRight (env : Env) (moduleName functionName : String) (function : Function)
    (decorator : Expr) (keywords : List (Option String × Expr)) : Prop where
  name : HasKeyword keywords "name" ∨ env.unseen decorator.callArgs keywords 1 "name" =
    some (.str (defaultName moduleName functionName)) ∨
    asName (env.unseen decorator.callArgs keywords 1 "name") = Option.none ∧
      function.module = moduleName
  nspace : HasKeyword keywords "namespace" ∨
    asNamespace (env.unseen decorator.callArgs keywords 2 "namespace") = .str "default"

/-- At most one decorator of a function is a task, and that one is read right. -/
def Readable (env : Env) (moduleName functionName : String) : List Expr → Prop
  | [] => True
  | decorator :: decorators =>
    if (env.task decorator).isSome then
      (∃ kind keywords, Written kind decorator keywords ∧
        ReadRight env moduleName functionName (env.wrapped ⟨moduleName, functionName⟩ decorators)
          decorator keywords) ∧
        ∀ other ∈ decorators, env.task other = Option.none
    else Readable env moduleName functionName decorators

section call

variable {env : Env} {moduleName functionName : String} {kind : Kind} {decorator : Expr}
  {keywords : List (Option String × Expr)} {values : List (String × Value)} {args : List Value}

theorem mem_keywords (h : env.keywords keywords = some values) {parameter text : String}
    (hmem : (some parameter, .constant (.str text)) ∈ keywords) :
    (parameter, .str text) ∈ values := by
  induction keywords generalizing values with
  | nil => simp at hmem
  | cons keyword keywords ih =>
    obtain ⟨arg, expr⟩ := keyword
    cases arg with
    | none =>
      have hmem' : (some parameter, .constant (.str text)) ∈ keywords := by simpa using hmem
      rw [Env.keywords] at h
      split at h
      · obtain ⟨rest, hrest, rfl⟩ := Option.map_eq_some_iff.1 h
        exact List.mem_append_right _ (ih hrest hmem')
      · cases h
    | some arg =>
      obtain ⟨rest, hrest, rfl⟩ := Option.map_eq_some_iff.1 h
      rcases List.mem_cons.1 hmem with heq | hmem
      · cases heq
        exact List.mem_cons_self
      · exact List.mem_cons_of_mem _ (ih hrest hmem)

/-- A parameter without a keyword of its own gets what the mappings have for it. -/
theorem exists_mapped (h : env.keywords keywords = some values) :
    ∃ mapped, env.keywords (keywords.filter fun keyword => keyword.1.isNone) = some mapped ∧
      ∀ parameter, ¬ HasKeyword keywords parameter →
      mapped.lookup parameter = values.lookup parameter := by
  induction keywords generalizing values with
  | nil =>
    cases h
    exact ⟨[], rfl, fun _ _ => rfl⟩
  | cons keyword keywords ih =>
    obtain ⟨arg, expr⟩ := keyword
    have later : ∀ {parameter}, ¬ HasKeyword ((arg, expr) :: keywords) parameter →
        ¬ HasKeyword keywords parameter :=
      fun hnone ⟨value, hmem⟩ => hnone ⟨value, List.mem_cons_of_mem _ hmem⟩
    cases arg with
    | none =>
      rw [Env.keywords] at h
      split at h
      · rename_i items hitems
        obtain ⟨rest, hrest, rfl⟩ := Option.map_eq_some_iff.1 h
        obtain ⟨mapped, hmapped, hlookup⟩ := ih hrest
        refine ⟨items ++ mapped, ?_, fun parameter hnone => ?_⟩
        · rw [List.filter_cons_of_pos (by rfl), Env.keywords, hitems, hmapped]
          rfl
        · rw [List.lookup_append, List.lookup_append, hlookup parameter (later hnone)]
      · cases h
    | some arg =>
      obtain ⟨rest, hrest, rfl⟩ := Option.map_eq_some_iff.1 h
      obtain ⟨mapped, hmapped, hlookup⟩ := ih hrest
      refine ⟨mapped, by rw [List.filter_cons_of_neg (by simp), hmapped], fun parameter hnone => ?_⟩
      have hne : parameter ≠ arg := by
        rintro rfl
        exact hnone ⟨expr, List.mem_cons_self⟩
      have hbeq : (parameter == arg) = false := by simpa using hne
      rw [hlookup parameter (later hnone), List.lookup_cons, hbeq]

theorem passed_eq_unseen {exprs : List Expr} (hargs : env.args exprs = some args)
    (h : env.keywords keywords = some values) {parameter : String}
    (hnone : ¬ HasKeyword keywords parameter) (place : Nat) :
    passed args values place parameter = env.unseen exprs keywords place parameter := by
  obtain ⟨mapped, hmapped, hlookup⟩ := exists_mapped h
  simp only [passed, Env.unseen, hargs, hmapped, Option.getD_some, hlookup parameter hnone]

/-- The parameters of a decorator that count, with their places. -/
def IsParameter (place : Nat) (parameter : String) : Prop := place = 1 ∧ parameter = "name" ∨
    place = 2 ∧ parameter = "namespace"

theorem getElem?_eq_none_of_keywordError {place n : Nat} {parameter : String}
    (hparameter : IsParameter place parameter)
    (h : taskSignature.keywordError n parameter = Option.none) : n ≤ place := by
  have hnotin : parameter ∉ taskSignature.positional.take n := by
    intro hin
    simp [Signature.keywordError, hin] at h
  by_contra hlt
  apply hnotin
  rcases hparameter with ⟨rfl, rfl⟩ | ⟨rfl, rfl⟩
  · obtain ⟨m, rfl⟩ := Nat.exists_eq_add_of_le' (show 2 ≤ n by omega)
    simp [taskSignature]
  · obtain ⟨m, rfl⟩ := Nat.exists_eq_add_of_le' (show 3 ≤ n by omega)
    simp [taskSignature]

theorem lookup_of_mem {parameter : String} {value : Value} (hnodup : (values.map Prod.fst).Nodup)
    (hmem : (parameter, value) ∈ values) :
    values.lookup parameter = some value := by
  obtain ⟨before, after, rfl⟩ := List.append_of_mem hmem
  rw [List.lookup_eq_some_iff]
  refine ⟨before, after, rfl, fun other hother => ?_⟩
  rw [List.map_append, List.nodup_append] at hnodup
  have hne := hnodup.2.2 other.1 (List.mem_map_of_mem hother) parameter (by simp)
  simpa using Ne.symm hne

/-- A call that is accepted passes a parameter once. -/
theorem passed_of_mem
    (hbind : taskSignature.bindError args.length (values.map Prod.fst) = Option.none) {place : Nat}
    {parameter : String} (hparameter : IsParameter place parameter) {value : Value}
    (hmem : (parameter, value) ∈ values) :
    passed args values place parameter = some value := by
  obtain ⟨hnodup, hkeyword, -, -⟩ := Signature.bindError_eq_none_iff.1 hbind
  have hplace := getElem?_eq_none_of_keywordError hparameter
    (hkeyword parameter (List.mem_map_of_mem hmem))
  rw [passed, List.getElem?_eq_none hplace, lookup_of_mem hnodup hmem]
  rfl

theorem callTask_eq_some {value : Value} (h : callTask kind args values = some value) :
    taskSignature.bindError args.length (values.map Prod.fst) = Option.none ∧
      value = .configured kind (asName (passed args values 1 "name"))
      (asNamespace (passed args values 2 "namespace")) := by
  unfold callTask at h
  split at h
  · rename_i hbind _
    cases h
    exact ⟨hbind, rfl⟩
  · rename_i hbind _
    cases h
    exact ⟨hbind, rfl⟩
  · cases h

/-- A task that is written under its own name comes from an accepted call. -/
theorem Written.task_eq (h : Written kind decorator keywords) {task : Kind × Option Label × Label}
    (htask : env.task decorator = some task) :
    ∃ args values, env.args decorator.callArgs = some args ∧ env.keywords keywords = some values ∧
      taskSignature.bindError args.length (values.map Prod.fst) = Option.none ∧
      task = (kind, asName (passed args values 1 "name"), asNamespace
        (passed args values 2 "namespace")) := by
  have hown : env.eval (.name (decoratorName kind)) = some (.decorator kind) := by
    simp [Env.eval, Env.argument, env.decorators]
  cases h with
  | bare =>
    rw [Env.task, hown] at htask
    cases htask
    exact ⟨[], [], rfl, rfl, by decide, rfl⟩
  | called exprs =>
    rw [Env.task, Env.eval, hown] at htask
    obtain ⟨value, hvalue, htask⟩ := Option.bind_eq_some_iff.1 htask
    obtain ⟨args, hargs, hvalue⟩ := Option.bind_eq_some_iff.1 hvalue
    obtain ⟨values, hvalues, hvalue⟩ := Option.bind_eq_some_iff.1 hvalue
    obtain ⟨hbind, rfl⟩ := callTask_eq_some hvalue
    cases htask
    exact ⟨args, values, hargs, hvalues, hbind, rfl⟩

/-- A decorator under its own name that does not raise is a task. -/
theorem Written.task_isSome (h : Written kind decorator keywords)
    (hvalue : (env.eval decorator).isSome) :
    (env.task decorator).isSome := by
  have hown : env.eval (.name (decoratorName kind)) = some (.decorator kind) := by
    simp [Env.eval, Env.argument, env.decorators]
  cases h with
  | bare => simp [Env.task, hown, Value.task]
  | called exprs =>
    obtain ⟨value, hvalue⟩ := Option.isSome_iff_exists.1 hvalue
    have hcall := hvalue
    rw [Env.eval, hown] at hcall
    obtain ⟨args, -, hcall⟩ := Option.bind_eq_some_iff.1 hcall
    obtain ⟨values, -, hcall⟩ := Option.bind_eq_some_iff.1 hcall
    obtain ⟨-, rfl⟩ := callTask_eq_some hcall
    simp [Env.task, hvalue, Value.task]

theorem asName_eq_str_iff {value : Option Value} {name : String} :
    asName value = some (.str name) ↔ value = some (.str name) := by
  constructor
  · intro h
    unfold asName at h
    split at h <;> cases h
    rfl
  · rintro rfl
    rfl

theorem defaultName_inj {function : Function} (hname : function.name = functionName) :
    defaultName moduleName functionName = function.module ++ "." ++ function.name ↔
      function.module = moduleName := by
  rw [hname, defaultName]
  constructor
  · intro h
    have hlists := congrArg String.toList h
    simp only [String.toList_append, List.append_assoc] at hlists
    exact String.toList_injective (List.append_cancel_right hlists).symm
  · rintro rfl
    rfl

/-- **The reference is right** exactly if what the command cannot see is what it takes it for. -/
theorem target_eq_registration_iff (h : Written kind decorator keywords)
    {options : Dict String String} (hoptions : keywords.foldlM addOption Dict.empty = .ok options)
    {task : Kind × Option Label × Label} (htask : env.task decorator = some task)
    {function : Function} (hname : function.name = functionName) :
    Reference.target {
      functionName := functionName
      factory := kind
      taskName := (options.get? "name").getD (defaultName moduleName functionName)
      nspace := options.get? "namespace"
    } = registration functionName function task ↔
      ReadRight env moduleName functionName function decorator keywords := by
  obtain ⟨args, values, hargs, hvalues, hbind, rfl⟩ := h.task_eq htask
  have unseen : ∀ place parameter, ¬ HasKeyword keywords parameter →
      passed args values place parameter = env.unseen decorator.callArgs keywords place parameter :=
    fun place parameter hnone => passed_eq_unseen hargs hvalues hnone place
  have hnames : Label.str ((options.get? "name").getD (defaultName moduleName functionName)) =
        (asName (passed args values 1 "name")).getD
          (.str (function.module ++ "." ++ function.name)) ↔
      HasKeyword keywords "name" ∨
        env.unseen decorator.callArgs keywords 1 "name" =
          some (.str (defaultName moduleName functionName)) ∨
        asName (env.unseen decorator.callArgs keywords 1 "name") = Option.none ∧
          function.module = moduleName := by
    rcases option_of_foldlM hoptions (Or.inl rfl) with ⟨text, hmem, hget⟩ | ⟨hnone, hget⟩
    · rw [passed_of_mem hbind (Or.inl ⟨rfl, rfl⟩) (mem_keywords hvalues hmem), hget]
      exact iff_of_true rfl (Or.inl ⟨_, hmem⟩)
    · have hno : ¬ HasKeyword keywords "name" := fun ⟨value, hmem⟩ => hnone value hmem
      rw [unseen 1 "name" hno, hget, Dict.get?_empty, Option.getD_none,
        or_iff_right hno, ← asName_eq_str_iff]
      cases asName (env.unseen decorator.callArgs keywords 1 "name") with
      | none => simp [defaultName_inj hname]
      | some label => simp [eq_comm]
  have hnamespaces : Label.str ((options.get? "namespace").getD "default") = asNamespace
    (passed args values 2 "namespace") ↔
      HasKeyword keywords "namespace" ∨ asNamespace
        (env.unseen decorator.callArgs keywords 2 "namespace") = .str "default" := by
    rcases option_of_foldlM hoptions (Or.inr rfl) with ⟨text, hmem, hget⟩ | ⟨hnone, hget⟩
    · rw [passed_of_mem hbind (Or.inr ⟨rfl, rfl⟩) (mem_keywords hvalues hmem), hget]
      exact iff_of_true rfl (Or.inl ⟨_, hmem⟩)
    · have hno : ¬ HasKeyword keywords "namespace" := fun ⟨value, hmem⟩ => hnone value hmem
      rw [unseen 2 "namespace" hno, hget, Dict.get?_empty, Option.getD_none,
        or_iff_right hno, eq_comm]
  simp only [Reference.target, registration, Registration.mk.injEq, true_and]
  rw [hnames, hnamespaces]
  exact ⟨fun h => ⟨h.1, h.2⟩, fun h => ⟨h.name, h.nspace⟩⟩

end call

/-! ## One function -/

section decorators

variable {env : Env} {moduleName functionName : String} {decorators : List Expr}
  {function : Function} {registered : List Registration}

theorem wrapped_name (hname : function.name = functionName) :
    (env.wrapped function decorators).name = functionName := by
  induction decorators with
  | nil => exact hname
  | cons decorator decorators ih =>
    rw [Env.wrapped]
    split
    · rename_i wrapper _
      rw [wrapper.keepsName, ih]
    · exact ih

theorem applyDecorators_cons {decorator : Expr} {function' : Function}
    {registered' : List Registration}
    (h : applyDecorators env moduleName functionName (decorator :: decorators) =
      some (function', registered')) :
    ∃ function registered, applyDecorators env moduleName functionName decorators =
      some (function, registered) ∧
      (env.eval decorator).isSome ∧
      ((∃ task, env.task decorator = some task ∧ registered' = registered ++
        [registration functionName function task]) ∨
        ∃ wrapper, env.task decorator = Option.none ∧ env.eval decorator = some (.wrapper wrapper) ∧
          function' = wrapper.apply function ∧ registered' = registered) := by
  unfold applyDecorators at h
  split at h
  · rename_i value function registered hvalue hrest
    refine ⟨function, registered, hrest, by simp [hvalue], ?_⟩
    cases value with
    | wrapper wrapper =>
      cases h
      exact Or.inr ⟨wrapper, by simp [Env.task, hvalue, Value.task], hvalue, rfl, rfl⟩
    | decorator kind =>
      cases h
      exact Or.inl ⟨_, by simp [Env.task, hvalue, Value.task], rfl⟩
    | configured kind name nspace =>
      cases h
      exact Or.inl ⟨_, by simp [Env.task, hvalue, Value.task], rfl⟩
    | _ => cases h
  · cases h

theorem length_registered_pos {decorator : Expr}
    (h : applyDecorators env moduleName functionName decorators = some (function, registered))
    (hmem : decorator ∈ decorators) (htask : (env.task decorator).isSome) : registered ≠ [] := by
  induction decorators generalizing function registered with
  | nil => simp at hmem
  | cons d decorators ih =>
    obtain ⟨function₀, registered₀, hrest, -, hcase⟩ := applyDecorators_cons h
    rcases hcase with ⟨task, -, rfl⟩ | ⟨wrapper, hnone, -, -, rfl⟩
    · simp
    · rcases List.mem_cons.1 hmem with rfl | hmem
      · rw [hnone] at htask
        cases htask
      · exact ih hrest hmem

theorem registered_of_no_task
    (h : applyDecorators env moduleName functionName decorators = some (function, registered))
    (hnone : ∀ decorator ∈ decorators, env.task decorator = Option.none) :
    registered = [] ∧ function = env.wrapped ⟨moduleName, functionName⟩ decorators := by
  induction decorators generalizing function registered with
  | nil =>
    cases h
    exact ⟨rfl, rfl⟩
  | cons d decorators ih =>
    obtain ⟨function₀, registered₀, hrest, -, hcase⟩ := applyDecorators_cons h
    obtain ⟨rfl, rfl⟩ := ih hrest fun d hd => hnone d (List.mem_cons_of_mem _ hd)
    rcases hcase with ⟨task, htask, -⟩ | ⟨wrapper, -, hvalue, rfl, rfl⟩
    · rw [hnone d List.mem_cons_self] at htask
      cases htask
    · exact ⟨rfl, by rw [Env.wrapped, hvalue]⟩

/-- A decorator that is read off is what is registered exactly if it is the only task, and read
right. -/
theorem functionReference_agree_written {decorator : Expr} {kind : Kind}
    {keywords : List (Option String × Expr)}
    (hwritten : Written kind decorator keywords) {task : Kind × Option Label × Label}
    (htask : env.task decorator = some task)
    (hrest : applyDecorators env moduleName functionName decorators = some (function, registered))
    {reference : Option Reference}
    (hreference : functionReference moduleName functionName (decorator :: decorators) =
      .ok reference) :
    reference.toList.length = 1 ∧
      (reference.toList.map Reference.target =
          registered ++ [registration functionName function task] ↔
        (∃ kind keywords, Written kind decorator keywords ∧
          ReadRight env moduleName functionName
            (env.wrapped ⟨moduleName, functionName⟩ decorators) decorator keywords) ∧
          ∀ other ∈ decorators, env.task other = Option.none) := by
  rw [functionReference_written hwritten] at hreference
  cases hoptions : keywords.foldlM addOption Dict.empty with
  | error error =>
    rw [hoptions] at hreference
    cases hreference
  | ok options =>
    rw [hoptions] at hreference
    cases hreference
    refine ⟨rfl, ?_⟩
    have hname : (env.wrapped ⟨moduleName, functionName⟩ decorators).name = functionName :=
      wrapped_name rfl
    constructor
    · intro hagree
      simp only [Option.toList_some, List.map_cons, List.map_nil] at hagree
      have hempty : registered = [] := by
        have hlength := congrArg List.length hagree
        simp only [List.length_append, List.length_singleton] at hlength
        exact List.length_eq_zero_iff.1 (by omega)
      have hnone : ∀ other ∈ decorators, env.task other = Option.none := by
        intro other hother
        by_contra hsome
        exact length_registered_pos hrest hother (Option.isSome_iff_ne_none.2 hsome) hempty
      rw [hempty, List.nil_append, List.singleton_inj] at hagree
      obtain ⟨-, rfl⟩ := registered_of_no_task hrest hnone
      exact ⟨⟨kind, keywords, hwritten, (target_eq_registration_iff hwritten hoptions htask hname).1
        hagree⟩, hnone⟩
    · rintro ⟨⟨kind', keywords', hwritten', hread⟩, hnone⟩
      obtain ⟨rfl, rfl⟩ := hwritten.unique hwritten'
      obtain ⟨rfl, rfl⟩ := registered_of_no_task hrest hnone
      have htarget := (target_eq_registration_iff hwritten hoptions htask hname).2 hread
      simp only [Option.toList_some, List.map_cons, List.map_nil, List.nil_append, htarget]

/-- What is read off the decorators of a function: never more than they register, and the same if
and only if they are readable. -/
theorem functionReference_agree {reference : Option Reference}
    (happly : applyDecorators env moduleName functionName decorators = some (function, registered))
    (hreference : functionReference moduleName functionName decorators = .ok reference) :
    (reference.toList.map Reference.target).length ≤ registered.length ∧
      (reference.toList.map Reference.target = registered ↔
        Readable env moduleName functionName decorators) := by
  induction decorators generalizing function registered with
  | nil =>
    cases happly
    cases hreference
    exact ⟨Nat.le_refl _, iff_of_true rfl trivial⟩
  | cons decorator decorators ih =>
    obtain ⟨function₀, registered₀, hrest, hvalue, hcase⟩ := applyDecorators_cons happly
    rw [Readable]
    rcases hcase with ⟨task, htask, rfl⟩ | ⟨wrapper, hnone, -, -, rfl⟩
    · rw [if_pos (by simp [htask])]
      by_cases hwritten : ∃ kind keywords, Written kind decorator keywords
      · obtain ⟨kind, keywords, hwritten⟩ := hwritten
        obtain ⟨hlength, hiff⟩ := functionReference_agree_written hwritten htask hrest hreference
        refine ⟨?_, hiff⟩
        rw [List.length_map, List.length_append, List.length_singleton]
        omega
      · -- a task that is not seen: what is read is one of those below, if any
        have hnot : ∀ kind keywords, ¬ Written kind decorator keywords :=
          fun kind keywords h => hwritten ⟨kind, keywords, h⟩
        rw [functionReference_not_written hnot] at hreference
        obtain ⟨hlength, -⟩ := ih hrest hreference
        refine ⟨by rw [List.length_append, List.length_singleton]; omega, iff_of_false ?_ ?_⟩
        · intro hagree
          have hsame := congrArg List.length hagree
          rw [List.length_append, List.length_singleton] at hsame
          omega
        · rintro ⟨⟨kind, keywords, h, -⟩, -⟩
          exact hnot kind keywords h
    · have hnot : ∀ kind keywords, ¬ Written kind decorator keywords := fun kind keywords h => by
        have := h.task_isSome hvalue
        simp [hnone] at this
      rw [if_neg (by simp [hnone])]
      rw [functionReference_not_written hnot] at hreference
      exact ih hrest hreference

end decorators

/-! ## A module -/

/-- The command refuses the module, or its references call exactly the tasks that were registered.
-/
def Agrees (moduleName : String) (body : List Stmt) (registered : List Registration) : Prop :=
  (∃ error, taskReferences moduleName body = .error error) ∨
    ∃ references, taskReferences moduleName body = .ok references ∧
      references.map Reference.target = registered

def RefusedModule (body : List Stmt) : Prop :=
    ∃ name decorators, Stmt.function name decorators ∈ body ∧ Refused decorators

/-- Every function can be read, and no other statement registers anything. -/
structure ReadableModule (moduleName : String) (body : List Executed) : Prop where
  functions : ∀ env name decorators, .function env name decorators ∈ body →
    Readable env moduleName name decorators
  others : ∀ registered, .other registered ∈ body → registered = []

section modules

variable {moduleName : String} {body : List Executed} {registered : List Registration}

theorem readableModule_nil : ReadableModule moduleName [] := by
  constructor <;> simp

theorem readableModule_function {env : Env} {name : String} {decorators : List Expr} :
    ReadableModule moduleName (.function env name decorators :: body) ↔
      Readable env moduleName name decorators ∧ ReadableModule moduleName body := by
  constructor
  · intro h
    refine ⟨h.functions env name decorators List.mem_cons_self, fun env' name' decorators' hmem =>
      ?_, fun registered hmem => ?_⟩
    · exact h.functions env' name' decorators' (List.mem_cons_of_mem _ hmem)
    · exact h.others registered (List.mem_cons_of_mem _ hmem)
  · rintro ⟨hfirst, h⟩
    refine ⟨fun env' name' decorators' hmem => ?_, fun registered hmem => ?_⟩
    · rcases List.mem_cons.1 hmem with heq | hmem
      · cases heq
        exact hfirst
      · exact h.functions env' name' decorators' hmem
    · rcases List.mem_cons.1 hmem with heq | hmem
      · cases heq
      · exact h.others registered hmem

theorem readableModule_other : ReadableModule moduleName (.other registered :: body) ↔
    registered = [] ∧ ReadableModule moduleName body := by
  constructor
  · intro h
    refine ⟨h.others registered List.mem_cons_self, fun env name decorators hmem => ?_,
      fun registered hmem => ?_⟩
    · exact h.functions env name decorators (List.mem_cons_of_mem _ hmem)
    · exact h.others registered (List.mem_cons_of_mem _ hmem)
  · rintro ⟨rfl, h⟩
    refine ⟨fun env name decorators hmem => ?_, fun registered hmem => ?_⟩
    · rcases List.mem_cons.1 hmem with heq | hmem
      · cases heq
      · exact h.functions env name decorators hmem
    · rcases List.mem_cons.1 hmem with heq | hmem
      · cases heq
        rfl
      · exact h.others registered hmem

theorem exists_taskReferences_error_iff {body : List Stmt} :
    (∃ error, taskReferences moduleName body = .error error) ↔ RefusedModule body := by
  induction body with
  | nil =>
    constructor
    · rintro ⟨error, h⟩
      cases h
    · rintro ⟨_, _, hmem, -⟩
      simp at hmem
  | cons stmt body ih =>
    cases stmt with
    | other =>
      rw [taskReferences, ih]
      simp [RefusedModule]
    | function name decorators =>
      have hfirst : (∃ error, functionReference moduleName name decorators = .error error) ↔
          Refused decorators :=
        exists_functionReference_error_iff
      have hcons : RefusedModule (.function name decorators :: body) ↔ Refused decorators ∨
          RefusedModule body := by
        constructor
        · rintro ⟨name', decorators', hmem, hrefused⟩
          rcases List.mem_cons.1 hmem with heq | hmem
          · cases heq
            exact Or.inl hrefused
          · exact Or.inr ⟨name', decorators', hmem, hrefused⟩
        · rintro (hrefused | ⟨name', decorators', hmem, hrefused⟩)
          · exact ⟨name, decorators, List.mem_cons_self, hrefused⟩
          · exact ⟨name', decorators', List.mem_cons_of_mem _ hmem, hrefused⟩
      rw [hcons, ← hfirst, ← ih]
      simp only [taskReferences]
      cases functionReference moduleName name decorators with
      | error error => exact iff_of_true ⟨error, rfl⟩ (Or.inl ⟨error, rfl⟩)
      | ok reference =>
        cases taskReferences moduleName body with
        | error error => exact iff_of_true ⟨error, rfl⟩ (Or.inr ⟨error, rfl⟩)
        | ok references =>
          refine iff_of_false ?_ ?_
          · rintro ⟨error, h⟩
            cases h
          · rintro (⟨error, h⟩ | ⟨error, h⟩) <;> cases h

/-- What is read off a module: never more than it registers, and the same if and only if it is
readable. -/
theorem taskReferences_agree {references : List Reference}
    (hregistered : registrations moduleName body = some registered)
    (hreferences : taskReferences moduleName (body.map Executed.stmt) = .ok references) :
    (references.map Reference.target).length ≤ registered.length ∧
      (references.map Reference.target = registered ↔ ReadableModule moduleName body) := by
  induction body generalizing registered references with
  | nil =>
    cases hregistered
    cases hreferences
    exact ⟨Nat.le_refl _, iff_of_true rfl readableModule_nil⟩
  | cons stmt body ih =>
    cases stmt with
    | other registered₁ =>
      obtain ⟨registered₂, hrest, rfl⟩ := Option.map_eq_some_iff.1 hregistered
      obtain ⟨hlength, hiff⟩ := ih hrest hreferences
      rw [readableModule_other, ← hiff]
      refine ⟨by simp only [List.length_append]; omega, fun hagree => ?_,
        fun h => by rw [h.1, h.2]; rfl⟩
      -- the references are no more than the rest registers, so the statement itself registers
      -- nothing
      have htotal := congrArg List.length hagree
      simp only [List.length_append] at htotal
      have hempty : registered₁ = [] := List.length_eq_zero_iff.1 (by omega)
      rw [hempty, List.nil_append] at hagree
      exact ⟨hempty, hagree⟩
    | function env name decorators =>
      rw [registrations] at hregistered
      split at hregistered
      · rename_i function registered₁ registered₂ happly hrest
        cases hregistered
        rw [List.map_cons, Executed.stmt, taskReferences] at hreferences
        obtain ⟨reference, hreference, hreferences⟩ := Raising.bind_eq_ok_iff.1 hreferences
        obtain ⟨references₂, hreferences₂, hreferences⟩ := Raising.bind_eq_ok_iff.1 hreferences
        cases hreferences
        obtain ⟨hlength₁, hiff₁⟩ := functionReference_agree happly hreference
        obtain ⟨hlength₂, hiff₂⟩ := ih hrest hreferences₂
        rw [List.map_append, readableModule_function, ← hiff₁, ← hiff₂]
        refine ⟨by simp only [List.length_append]; omega, fun hagree => ?_,
          fun h => by rw [h.1, h.2]⟩
        -- neither part is longer than what it stands for, so the parts agree
        have htotal := congrArg List.length hagree
        simp only [List.length_append] at htotal
        exact List.append_inj hagree (by omega)
      · cases hregistered

theorem registrations_of_execute (h : execute moduleName body = some registered) :
    registrations moduleName body = some registered :=
  (Option.filter_eq_some_iff.1 h).1

end modules

/-! ### Modules that are read right, and wrong -/

/-- The three decorators have been imported, and `atasks.tasks` as `tasks`. -/
def importing : Env where
  value := fun
    | .name id => ((decoratorRefs id).map Value.decorator).getD .other
    | .attribute (.name "tasks") attr => ((decoratorRefs attr).map Value.decorator).getD .other
    | _ => .other
  decorators := fun kind => by cases kind <;> rfl

/-- `@atask_queue(namespace='workers', timeout=30)`. -/
def byKeyword : List Expr :=
  [.call (.name "atask_queue") [] [(some "namespace", .constant (.str "workers")),
    (some "timeout", .other "30")]]

/-- `@atask(None, 'n')`. -/
def byPosition : List Expr := [.call (.name "atask") [.constant .none, .constant (.str "n")] []]

/-- `@tasks.atask`. -/
def byAttribute : List Expr := [.attribute (.name "tasks") "atask"]

theorem readable_byKeyword : Readable importing "app.tasks" "work" byKeyword := by
  have htask : (importing.task (.call (.name "atask_queue") []
      [(some "namespace", .constant (.str "workers")), (some "timeout", .other "30")])).isSome =
        true := by decide
  rw [byKeyword, Readable, if_pos htask]
  refine ⟨⟨.queue, _, .called _ _, ⟨Or.inr (Or.inr ?_), Or.inl ⟨_, List.mem_cons_self⟩⟩⟩, by simp⟩
  exact ⟨rfl, rfl⟩

example : execute "app.tasks" [.function importing "work" byAttribute] =
      some [⟨"work", .rpc, .str "app.tasks.work", .str "default"⟩] ∧
    taskReferences "app.tasks" [.function "work" byAttribute] = .ok [] := by decide

/-- The name of a task is taken: `RegisteringTwice`. -/
example : execute "app.tasks" [.function importing "work" [.name "atask"],
      .function importing "work" [.name "atask"]] =
    none := by decide

end Atasks.Commands
