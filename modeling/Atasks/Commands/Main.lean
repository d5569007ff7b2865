import Atasks.Commands.Options
import Atasks.Commands.Service
/-!
# From the command line to a run

What `main` (`atasks/commands/service.py:429-612`) makes of the `-N`/`--namespace` values it is
given, up to `aiomain`. Values are converted one after another as argparse comes to them; with
none at all there is the namespace `default`; a name given twice is refused, and so are timing
options without `--self-watchdog`.

`main_cases`: either the service runs on what each value says, with names all different, or it
does not start and the message is about the first thing that is at fault.

| here | there |
| --- | --- |
| `UsageError`     | what `parser.error` is called with: by argparse for an `ArgumentTypeError`, or at `:553` and `:564` |
| `isTimingOption` | the condition of `:552` on one argument |
| `seeName`        | the body of the loop (`:562-565`) |
| `Environment`    | the other options, and what will happen during the run |

argparse is taken to accept the other arguments; what it makes of them is in the `Environment`.
The logging set-up decides nothing about the run.
-/

namespace Atasks.Commands

open Text (Str Numerals)

inductive UsageError
  | argument (e : ArgumentTypeError)
  | error (message : String)
deriving DecidableEq, Repr

/-- A `World` but for its namespaces. -/
structure Environment where
  connect : String → ConnectEnd
  health : Option Health
  selfWatchdog : Bool
  modules : List Module
  activates : String → Bool
  systemd : Option Systemd
  scenario : Running
  listening : Running
  deactivates : String → Bool
  isConnected : Object → Bool
  disconnects : Object → Bool

/-- The namespaces of a service. -/
def Namespaces : Type := { options : List NamespaceOptions //
      (options.map fun ns => ns.name).Nodup }

def Environment.world (env : Environment) (namespaces : Namespaces) : World where
  __ := env
  namespaces := namespaces.1.map NamespaceOptions.toNamespaceSpec
  distinct := by
    rw [List.map_map]
    exact namespaces.2

section main

variable (numerals : Numerals) (repr : Str → String)

/-- The conversion of one value. -/
def convert (spec : Str) : Except UsageError NamespaceOptions :=
  match parseNamespaceSpec numerals repr spec with
  | .ok options => .ok options
  | .error e => .error (.argument e)

def seeName (seen : List String) (ns : NamespaceOptions) : Except UsageError (List String) :=
  if ns.name ∈ seen then .error (.error ("namespace " ++ repr ns.name.toList ++
    " given more than once via -N/--namespace"))
  else .ok (ns.name :: seen)

variable {numerals repr}

theorem seeName_eq_ok_iff {seen seen' : List String} {ns : NamespaceOptions} :
    seeName repr seen ns = .ok seen' ↔ ns.name ∉ seen ∧ seen' = ns.name :: seen := by
  unfold seeName
  split
  · rename_i h
    simp [h]
  · rename_i h
    simp [h, eq_comm]

/-- The loop goes through when the names are all different. -/
theorem seeNames_eq_ok_iff {namespaces : List NamespaceOptions} {seen seen' : List String} :
    namespaces.foldlM (seeName repr) seen = .ok seen' ↔
      seen' = (namespaces.map fun ns => ns.name).reverse ++ seen ∧
      (namespaces.map fun ns => ns.name).Nodup ∧
        ∀ ns ∈ namespaces, ns.name ∉ seen := by
  induction namespaces generalizing seen with
  | nil =>
    constructor
    · intro h
      cases h
      simp
    · rintro ⟨rfl, -⟩
      rfl
  | cons ns namespaces ih =>
    rw [Raising.foldlM_cons_eq_ok_iff]
    constructor
    · rintro ⟨m, hm, h⟩
      obtain ⟨hns, rfl⟩ := seeName_eq_ok_iff.1 hm
      obtain ⟨rfl, hnodup, hnew⟩ := ih.1 h
      refine ⟨by simp, List.nodup_cons.2 ⟨fun hmem => ?_, hnodup⟩, List.forall_mem_cons.2
        ⟨hns, fun ns' hns' hmem => ?_⟩⟩
      · obtain ⟨ns', hns', hname⟩ := List.mem_map.1 hmem
        exact hnew ns' hns' (hname ▸ List.mem_cons_self)
      · exact hnew ns' hns' (List.mem_cons_of_mem _ hmem)
    · rintro ⟨rfl, hnodup, hnew⟩
      obtain ⟨hnot, hnodup⟩ := List.nodup_cons.1 hnodup
      obtain ⟨hns, hnew⟩ := List.forall_mem_cons.1 hnew
      refine ⟨_, seeName_eq_ok_iff.2 ⟨hns, rfl⟩, ih.2 ⟨by simp, hnodup, fun ns' hns' hmem => ?_⟩⟩
      rcases List.mem_cons.1 hmem with hname | hmem
      · exact hnot (List.mem_map.2 ⟨ns', hns', hname⟩)
      · exact hnew ns' hns' hmem

variable (numerals repr)

def isTimingOption (arg : Str) : Bool :=
  ["--self-watchdog-period", "--self-watchdog-timeout", "--self-watchdog-kill-after"].any
      fun option =>
    arg == option.toList || (option.toList ++ ['=']).isPrefixOf arg

/-- `options['namespaces']` after the default has been put in (`:558-559`). -/
def orDefault (namespaces : List NamespaceOptions) : Except UsageError (List NamespaceOptions) :=
  match namespaces with
  | [] => do
    let options ← convert numerals repr "name=default".toList
    return [options]
  | namespaces => .ok namespaces

def checkNamespaces (namespaces : List NamespaceOptions) : Except UsageError Namespaces :=
  match h : namespaces.foldlM (seeName repr) [] with
  | .error e => .error e
  | .ok _ => .ok ⟨namespaces, (seeNames_eq_ok_iff.1 h).2.1⟩

/-- `argv` is all the arguments, `specs` those of `-N`/`--namespace`. -/
def main (argv specs : List Str) (env : Environment) : Except UsageError (List Event × Exit) := do
  let namespaces ← specs.mapM (convert numerals repr)
  if !env.selfWatchdog && argv.any isTimingOption then
    throw (.error "self-watchdog timing options require --self-watchdog")
  let namespaces ← orDefault numerals repr namespaces
  let namespaces ← checkNamespaces repr namespaces
  return aiomain (env.world namespaces)

/-! ## How `main` starts -/

/-- The values that are read: those given, or the one of the default namespace. -/
def givenOrDefault (specs : List Str) : List Str :=
    if specs = [] then ["name=default".toList] else specs

/-- The options say what the value says. -/
def Reads (spec : Str) (options : NamespaceOptions) : Prop :=
  WellFormed (items spec) ∧ Describes numerals (given (items spec)) options

variable {numerals repr} {specs argv : List Str} {env : Environment}
  {namespaces : List NamespaceOptions}

theorem convert_eq_ok_iff {spec : Str} {options : NamespaceOptions} :
    convert numerals repr spec = .ok options ↔ Reads numerals spec options := by
  have hiff : parseNamespaceSpec numerals repr spec = .ok options ↔ Reads numerals spec options :=
    parseNamespaceSpec_eq_ok_iff
  rw [← hiff, convert]
  cases parseNamespaceSpec numerals repr spec <;> simp

theorem convert_eq_error {spec : Str} {e : UsageError} (h : convert numerals repr spec = .error e) :
    ∃ e', parseNamespaceSpec numerals repr spec = .error e' ∧ e = .argument e' := by
  unfold convert at h
  cases hp : parseNamespaceSpec numerals repr spec with
  | ok options =>
    rw [hp] at h
    cases h
  | error e' =>
    rw [hp] at h
    cases h
    exact ⟨e', rfl, rfl⟩

theorem convert_default :
    convert numerals repr "name=default".toList = .ok { name := "default" } := rfl

/-- There is always something to run on. -/
theorem orDefault_reads (h : specs.mapM (convert numerals repr) = .ok namespaces) :
    ∃ namespaces', orDefault numerals repr namespaces = .ok namespaces' ∧
      List.Forall₂ (Reads numerals) (givenOrDefault specs) namespaces' := by
  have hall := Raising.mapM_eq_ok_iff.1 h
  cases hall with
  | nil =>
    have hdefault : Reads numerals "name=default".toList { name := "default" } :=
      convert_eq_ok_iff.1 (@convert_default numerals repr)
    exact ⟨[{ name := "default" }], rfl, List.Forall₂.cons hdefault List.Forall₂.nil⟩
  | cons hspec hall =>
    exact ⟨_, rfl, List.Forall₂.cons (convert_eq_ok_iff.1 hspec)
      (hall.imp fun _ _ => convert_eq_ok_iff.1)⟩

/-- The names are all different, or one is that of an earlier namespace. -/
theorem checkNamespaces_cases (namespaces : List NamespaceOptions) :
    (∃ h, checkNamespaces repr namespaces = .ok ⟨namespaces, h⟩) ∨
      ∃ pre ns post, namespaces = pre ++ ns :: post ∧ (pre.map fun ns => ns.name).Nodup ∧
        ns.name ∈ pre.map (fun ns => ns.name) ∧ checkNamespaces repr namespaces =
          .error (.error ("namespace " ++ repr ns.name.toList ++
            " given more than once via -N/--namespace")) := by
  unfold checkNamespaces
  split
  · rename_i e h
    obtain ⟨pre, ns, post, seen, heq, hpre, hns⟩ := Raising.foldlM_eq_error_iff.1 h
    obtain ⟨rfl, hnodup, -⟩ := seeNames_eq_ok_iff.1 hpre
    unfold seeName at hns
    split at hns
    · rename_i hmem
      cases hns
      exact Or.inr ⟨pre, ns, post, heq, hnodup, by simpa using hmem, rfl⟩
    · cases hns
  · rename_i seen h
    exact Or.inl ⟨(seeNames_eq_ok_iff.1 h).2.1, rfl⟩

/-- What is done with values that have been converted. -/
theorem main_eq {given : List NamespaceOptions}
    (hread : specs.mapM (convert numerals repr) = .ok given)
    (hdefault : orDefault numerals repr given = .ok namespaces) :
    main numerals repr argv specs env =
      if !env.selfWatchdog && argv.any isTimingOption then
        .error (.error "self-watchdog timing options require --self-watchdog")
      else (checkNamespaces repr namespaces).map fun namespaces =>
        aiomain (env.world namespaces) := by
  rw [main, hread]
  cases !env.selfWatchdog && argv.any isTimingOption with
  | true => simp [Bind.bind, Except.bind, throw, throwThe, MonadExceptOf.throw]
  | false =>
    simp only [Bind.bind, Except.bind, Bool.false_eq_true, if_false, pure, Except.pure]
    rw [hdefault]
    dsimp only
    cases checkNamespaces repr namespaces <;> rfl

variable (numerals repr specs argv env)

/-- **How `main` starts.** It stops at the first value of a namespace that does not parse; at
timing options without a watchdog; at the first name given again; or it runs on what the values
say. -/
theorem main_cases :
    (∃ pre spec post e, specs = pre ++ spec :: post ∧
      (∀ spec' ∈ pre, ∃ options, Reads numerals spec' options) ∧
      parseNamespaceSpec numerals repr spec = .error e ∧
      main numerals repr argv specs env = .error (.argument e)) ∨
    ∃ namespaces, List.Forall₂ (Reads numerals) (givenOrDefault specs) namespaces ∧
      (env.selfWatchdog = false ∧ argv.any isTimingOption = true ∧
        main numerals repr argv specs env =
          .error (.error "self-watchdog timing options require --self-watchdog") ∨
      (env.selfWatchdog = true ∨ argv.any isTimingOption = false) ∧
        ((∃ h, main numerals repr argv specs env = .ok (aiomain (env.world ⟨namespaces, h⟩))) ∨
        ∃ pre ns post, namespaces = pre ++ ns :: post ∧ (pre.map fun ns => ns.name).Nodup ∧
          ns.name ∈ pre.map (fun ns => ns.name) ∧ main numerals repr argv specs env =
            .error (.error ("namespace " ++ repr ns.name.toList ++
              " given more than once via -N/--namespace")))) := by
  cases hread : specs.mapM (convert numerals repr) with
  | error e =>
    obtain ⟨pre, spec, post, hspecs, hpre, hspec⟩ := Raising.mapM_eq_error_iff.1 hread
    obtain ⟨e', hparse, rfl⟩ := convert_eq_error hspec
    refine Or.inl ⟨pre, spec, post, e', hspecs, fun spec' hspec' => ?_, hparse, ?_⟩
    · obtain ⟨options, hoptions⟩ := hpre spec' hspec'
      exact ⟨options, convert_eq_ok_iff.1 hoptions⟩
    · rw [main, hread]
      rfl
  | ok given =>
    obtain ⟨namespaces, hdefault, hall⟩ := orDefault_reads hread
    refine Or.inr ⟨namespaces, hall, ?_⟩
    have hmain := @main_eq numerals repr specs argv env _ _ hread hdefault
    cases htimed : !env.selfWatchdog && argv.any isTimingOption with
    | true =>
      rw [htimed, if_pos rfl] at hmain
      obtain ⟨hwatchdog, htiming⟩ := Bool.and_eq_true_iff.1 htimed
      exact Or.inl ⟨by simpa using hwatchdog, htiming, hmain⟩
    | false =>
      rw [htimed, if_neg Bool.false_ne_true] at hmain
      have hallowed : env.selfWatchdog = true ∨ argv.any isTimingOption = false := by
        rcases Bool.and_eq_false_iff.1 htimed with h | h
        · exact Or.inl (by simpa using h)
        · exact Or.inr h
      refine Or.inr ⟨hallowed, ?_⟩
      rcases checkNamespaces_cases namespaces with ⟨h, hcheck⟩
        | ⟨pre, ns, post, heq, hnodup, hmem, hcheck⟩
      · exact Or.inl ⟨h, by rw [hmain, hcheck]; rfl⟩
      · exact Or.inr ⟨pre, ns, post, heq, hnodup, hmem, by rw [hmain, hcheck]; rfl⟩

end main

end Atasks.Commands
