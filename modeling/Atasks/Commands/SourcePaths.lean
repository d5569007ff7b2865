import Atasks.Commands.Generate
/-!
# Sources, their names and where their references go

What the paths come to in `_default_module_name`, `_relative_source_path` and `generate`
(`atasks/commands/refs.py:58-69`, `:94-99`, `:161-171`), all of it computed on strings: the
`place` of a path is what is left of it, its components from the root.

| here | there |
| --- | --- |
| `Host.place`   | a path, made absolute |
| `ModuleFile`   | the file that Python's import takes a module from, below an entry of `sys.path` |
| `Host.Mirrors` | the output of a source: under the same directories, from the current one to that of `--output-dir` |

* `defaultModuleName_eq_ok_iff`: a name is derived from exactly the files that are imported
  under it from the current directory;
* `default_names_apart`: the tasks of two sources do not take one name by default, unless the
  sources do not differ for an import;
* `generate_changes`: a run writes nothing but what mirrors its sources, whether it succeeds or not.
-/

namespace Atasks.Commands

open Text (Str)
open Lexis
open Posix (Plain Solid)
open Generate Generate.Host

/-- The file of a module, by its components; the file of a package has a name of its own. -/
inductive ModuleFile : List Str → List Str → Prop
  | module (directories : List Str) {name : Str} (h : name ≠ "__init__".toList) :
    ModuleFile (directories ++ [name]) (directories ++ [name ++ ".py".toList])
  | package {parts : List Str} (h : parts ≠ []) : ModuleFile parts (parts ++ ["__init__.py".toList])

theorem ModuleFile.ne_nil {parts below : List Str} (h : ModuleFile parts below) : parts ≠ [] := by
  cases h with
  | module directories hne => simp
  | package hne => exact hne

namespace Generate.Host

variable {κ : Type} (host : Host κ)

/-- Where a path leads, seen from the root. -/
def place (path : Str) : List Str := Posix.components (Posix.abspath host.cwd path)

/-- A path below the current directory, and the rest of the way. -/
def Below (path : Str) (below : List Str) : Prop := host.place path = host.place host.cwd ++ below

variable {host} {path path' : Str} {below directories : List Str} {base name : Str}

/-! ## Outside and inside -/

theorem relative_below (h : host.Below path below) :
    host.relative path = if below = [] then Posix.curdir else Text.join '/' below :=
  Posix.relpath_below h

theorem pardir_of_outside {cs : List Str} (hsolid : ∀ c ∈ cs, '/' ∉ c)
    (h : Outside (Text.join '/' cs)) : Posix.pardir ∈ cs := by
  have hne : cs ≠ [] := by
    rintro rfl
    rcases h with h | h <;> cases h
  have hsplit : (Text.join '/' cs).splitOn '/' = cs := Text.splitOn_join hsolid hne
  rcases h with h | h
  · obtain ⟨rest, hrest⟩ := List.isPrefixOf_iff_prefix.1 h
    have hfirst : ("../".toList ++ rest).splitOn '/' = Posix.pardir :: rest.splitOn '/' :=
      List.splitOn_append_cons_self_of_not_mem (show '/' ∉ Posix.pardir by decide) rest
    rw [← hsplit, ← hrest, hfirst]
    exact List.mem_cons_self
  · rw [← hsplit, h]
    decide

theorem outside_join_pardir (rest : List Str) : Outside (Text.join '/' (Posix.pardir :: rest)) := by
  cases rest with
  | nil => exact Or.inr rfl
  | cons c rest =>
    rw [Text.join_cons_cons]
    exact Or.inl rfl

theorem plain_place (hcwd : host.cwd.head? = some '/') {c : Str} (hc : c ∈ host.place path) :
    Plain c :=
  Posix.plain_of_mem_abspath hcwd hc

theorem plain_below (hcwd : host.cwd.head? = some '/') (h : host.Below path below) {c : Str}
    (hc : c ∈ below) : Plain c := by
  have hmem : c ∈ host.place path := by
    rw [h]
    exact List.mem_append_right _ hc
  exact plain_place hcwd hmem

/-- The command's test for a path outside of the current directory is right. -/
theorem outside_iff (hcwd : host.cwd.head? = some '/') :
    Outside (host.relative path) ↔ ∀ below, ¬ host.Below path below := by
  constructor
  · intro hout below hbelow
    rw [relative_below hbelow] at hout
    split at hout
    · rcases hout with hout | hout <;> cases hout
    · have hplain : ∀ c ∈ below, Plain c := fun c hc => plain_below hcwd hbelow hc
      have hpardir := pardir_of_outside (fun c hc => (hplain c hc).noSlash) hout
      exact (hplain _ hpardir).ne_pardir rfl
  · intro h
    obtain ⟨rest, -, hrest⟩ := Posix.relpath_beside h
    rw [relative, hrest]
    exact outside_join_pardir rest

/-! ## Derived names -/

theorem defaultModuleName_of_splitext {stem extension : Str}
    (h : Posix.splitext (host.relative path) = (stem, extension))
    (hrefused : extension ≠ ".py".toList ∨ Outside stem) :
    host.defaultModuleName path = .error notBelow := by
  unfold defaultModuleName
  simp only [h, if_pos hrefused]

/-- The parts of a name: a package goes by its directory. -/
def nameParts (directories : List Str) (base : Str) : List Str :=
  if base = "__init__".toList then directories else directories ++ [base]

theorem defaultModuleName_below (hcwd : host.cwd.head? = some '/')
    (h : host.Below path (directories ++ [base ++ ".py".toList]))
    (hbase : base.all (· = '.') = false) :
    host.defaultModuleName path =
      if nameParts directories base = [] ∨ (nameParts directories base).any fun part =>
      !host.charset.isIdentifier part then
        .error (host.underivable path)
      else .ok (Text.join '.' (nameParts directories base)) := by
  have hplain : ∀ c ∈ directories ++ [base ++ ".py".toList], Plain c :=
    fun c hc => plain_below hcwd h hc
  obtain ⟨hdirectories, hfile⟩ := List.forall_mem_append.1 hplain
  have hfile := List.forall_mem_singleton.1 hfile
  have hslash : '/' ∉ base := fun hmem => hfile.noSlash (List.mem_append_left _ hmem)
  have hsolid : ∀ c ∈ directories ++ [base], '/' ∉ c :=
    List.forall_mem_append.2 ⟨fun c hc => (hdirectories c hc).noSlash,
      List.forall_mem_singleton.2 hslash⟩
  have hsplitext : Posix.splitext (host.relative path) =
      (Text.join '/' (directories ++ [base]), ".py".toList) := by
    rw [relative_below h, if_neg (by simp), Posix.splitext_join directories hfile.noSlash]
    have hcut : Text.rcut '.' (base ++ ".py".toList) = some (base, "py".toList) :=
      Text.rcut_append (by decide)
    simp only [hcut, hbase]
    rfl
  have hinside : ¬ Outside (Text.join '/' (directories ++ [base])) := by
    intro hout
    rcases List.mem_append.1 (pardir_of_outside hsolid hout) with hmem | hmem
    · exact (hdirectories _ hmem).ne_pardir rfl
    · rw [← List.mem_singleton.1 hmem] at hbase
      cases hbase
  have hparts : (Text.join '/' (directories ++ [base])).splitOn '/' = directories ++ [base] :=
    Text.splitOn_join hsolid (by simp)
  have hrefused : ¬ (".py".toList ≠ ".py".toList ∨
      Outside (Text.join '/' (directories ++ [base]))) := by
    simp [hinside]
  unfold defaultModuleName nameParts
  simp only [hsplitext, if_neg hrefused, hparts, List.getLast?_concat, Option.some.injEq,
    List.dropLast_concat]

theorem splitext_of_ok (h : host.defaultModuleName path = .ok name) :
    ∃ stem, Posix.splitext (host.relative path) = (stem, ".py".toList) ∧ ¬ Outside stem := by
  obtain ⟨stem, extension, hsplitext⟩ : ∃ stem extension, Posix.splitext
    (host.relative path) = (stem, extension) := ⟨_, _, rfl⟩
  by_cases hrefused : extension ≠ ".py".toList ∨ Outside stem
  · rw [defaultModuleName_of_splitext hsplitext hrefused] at h
    cases h
  · obtain ⟨hextension, hinside⟩ := not_or.1 hrefused
    exact ⟨stem, not_not.1 hextension ▸ hsplitext, hinside⟩

/-- A path beside the current directory is so without its extension. -/
theorem below_of_ok (h : host.defaultModuleName path = .ok name) :
    ∃ below, host.Below path below := by
  obtain ⟨stem, hsplitext, hinside⟩ := splitext_of_ok h
  by_contra hbelow
  have hbeside : ∀ below, host.place path ≠ host.place host.cwd ++ below :=
    fun below heq => hbelow ⟨below, heq⟩
  obtain ⟨rest, hsolid, hrest⟩ := Posix.relpath_beside hbeside
  have hrelative : host.relative path = Text.join '/' (Posix.pardir :: rest) := hrest
  rw [hrelative] at hsplitext
  rcases List.eq_nil_or_concat rest with rfl | ⟨directories, file, rfl⟩
  · cases hsplitext
  · rw [List.concat_eq_append, ← List.cons_append, Posix.splitext_join _
      (hsolid file (by simp)).noSlash] at hsplitext
    split at hsplitext
    · split at hsplitext
      · cases hsplitext
      · cases hsplitext
        exact hinside (outside_join_pardir _)
    · cases hsplitext

/-- What has the extension of a Python file, and more before it than dots. -/
theorem splitext_join_py {directories : List Str} {file stem : Str} (hfile : '/' ∉ file)
    (h : Posix.splitext (Text.join '/' (directories ++ [file])) = (stem, ".py".toList)) :
    ∃ base, file = base ++ ".py".toList ∧ base.all (· = '.') = false := by
  rw [Posix.splitext_join directories hfile] at h
  split at h
  · rename_i base extension hcut
    split at h
    · cases h
    · rename_i hdots
      obtain ⟨-, hextension⟩ := Prod.ext_iff.1 h
      refine ⟨base, ?_, by simpa using hdots⟩
      rw [Text.rcut_eq_some hcut]
      exact congrArg (base ++ ·) hextension
  · cases h

/-- Only a Python file below the current directory gets a name. -/
theorem exists_below_of_ok (h : host.defaultModuleName path = .ok name) :
    ∃ directories base, host.Below path (directories ++ [base ++ ".py".toList]) ∧
    base.all (· = '.') = false := by
  obtain ⟨below, hbelow⟩ := below_of_ok h
  obtain ⟨stem, hsplitext, -⟩ := splitext_of_ok h
  rw [relative_below hbelow] at hsplitext
  rcases List.eq_nil_or_concat below with rfl | ⟨directories, file, rfl⟩
  · -- the current directory itself
    rw [if_pos rfl] at hsplitext
    cases hsplitext
  · rw [List.concat_eq_append] at hbelow hsplitext
    rw [if_neg (by simp)] at hsplitext
    have hmem : file ∈ host.place path := by
      rw [hbelow]
      simp
    obtain ⟨base, rfl, hbase⟩ := splitext_join_py
      (Posix.solid_of_mem_components hmem).noSlash hsplitext
    exact ⟨directories, base, hbelow, hbase⟩

theorem dot_notMem_identifier {charset : Charset} {part : Str}
    (h : charset.isIdentifier part = true) : '.' ∉ part := by
  intro hmem
  have hdot : charset.idContinue '.' = false := charset.idContinue_ascii '.' (by decide)
  rw [Charset.idContinue_of_mem h hmem] at hdot
  cases hdot

theorem all_dots_identifier {part : Str} (h : host.charset.isIdentifier part = true) :
    part.all (· = '.') = false := by
  cases part with
  | nil => cases h
  | cons c part =>
    have hne : c ≠ '.' := fun heq => dot_notMem_identifier h (heq ▸ List.mem_cons_self)
    simp [hne]

theorem isIdentifier_init (charset : Charset) : charset.isIdentifier "__init__".toList = true :=
  Charset.isIdentifier_of_ascii (by decide) (by decide)

/-- A name comes from the file of a module that has it. -/
theorem exists_moduleFile_of_ok (hcwd : host.cwd.head? = some '/')
    (h : host.defaultModuleName path = .ok name) :
    ∃ parts below, ModuleFile parts below ∧ host.Below path below ∧
    (∀ part ∈ parts, host.charset.isIdentifier part = true) ∧
      name = Text.join '.' parts := by
  obtain ⟨directories, base, hbelow, hbase⟩ := exists_below_of_ok h
  rw [defaultModuleName_below hcwd hbelow hbase] at h
  split at h
  · cases h
  rename_i hrefused
  cases h
  obtain ⟨hne, hidentifiers⟩ := not_or.1 hrefused
  have hidentifiers : ∀ part ∈ nameParts directories base,
      host.charset.isIdentifier part = true := by
    simpa using hidentifiers
  by_cases hinit : base = "__init__".toList
  · have hparts : nameParts directories base = directories := if_pos hinit
    rw [hparts] at hne hidentifiers ⊢
    rw [hinit] at hbelow
    exact ⟨directories, _, .package hne, hbelow, hidentifiers, rfl⟩
  · have hparts : nameParts directories base = directories ++ [base] := if_neg hinit
    rw [hparts] at hidentifiers ⊢
    exact ⟨_, _, .module directories hinit, hbelow, hidentifiers, rfl⟩

/-- The file of a module has its name. -/
theorem defaultModuleName_of_moduleFile (hcwd : host.cwd.head? = some '/') {parts : List Str}
    (hfile : ModuleFile parts below) (hbelow : host.Below path below)
    (hidentifiers : ∀ part ∈ parts, host.charset.isIdentifier part = true) :
    host.defaultModuleName path = .ok (Text.join '.' parts) := by
  cases hfile with
  | module directories hne =>
    have hname : host.charset.isIdentifier _ = true :=
      hidentifiers _ (List.mem_append_right _ (List.mem_singleton_self _))
    have hparts : nameParts directories _ = directories ++ [_] := if_neg hne
    rw [defaultModuleName_below hcwd hbelow (all_dots_identifier hname), hparts]
    refine if_neg (not_or.2 ⟨by simp, ?_⟩)
    simpa only [List.any_eq_true, Bool.not_eq_true', not_exists, not_and, Bool.not_eq_false]
      using hidentifiers
  | package hne =>
    have hall : "__init__".toList.all (· = '.') = false :=
      all_dots_identifier (isIdentifier_init host.charset)
    have hparts : nameParts parts "__init__".toList = parts := if_pos rfl
    rw [defaultModuleName_below hcwd hbelow hall, hparts]
    refine if_neg (not_or.2 ⟨hne, ?_⟩)
    simpa only [List.any_eq_true, Bool.not_eq_true', not_exists, not_and, Bool.not_eq_false]
      using hidentifiers

end Generate.Host

/-- **The name derived for a source is the one it is imported under** from the current directory, and
every file that can be imported from there has its name derived. -/
theorem defaultModuleName_eq_ok_iff {κ : Type} (host : Host κ) {path name : Str}
    (hcwd : host.cwd.head? = some '/') :
    host.defaultModuleName path = .ok name ↔ ∃ parts below, ModuleFile parts below ∧
    host.Below path below ∧
      (∀ part ∈ parts, host.charset.isIdentifier part = true) ∧ name = Text.join '.' parts := by
  constructor
  · exact exists_moduleFile_of_ok hcwd
  · rintro ⟨parts, below, hfile, hbelow, hidentifiers, rfl⟩
    exact defaultModuleName_of_moduleFile hcwd hfile hbelow hidentifiers

theorem defaultModuleName_tasks :
    bare.defaultModuleName "/w/app/../app/tasks.py".toList = .ok "app.tasks".toList := by
  refine (defaultModuleName_eq_ok_iff bare rfl).2
    ⟨["app".toList, "tasks".toList], ["app".toList, "tasks.py".toList], ?_, rfl, by decide, rfl⟩
  exact .module ["app".toList] (by decide)

/-- **Tasks of two sources do not take one name by default**, unless an import cannot tell the sources
apart: a function has the name of the other one, and its source is found under the same module. -/
theorem default_names_apart {κ : Type} (host : Host κ) {path path' moduleName moduleName' : Str}
    {function function' : String}
    (hcwd : host.cwd.head? = some '/') (h : host.defaultModuleName path = .ok moduleName)
    (h' : host.defaultModuleName path' = .ok moduleName')
    (hfunction : host.charset.isIdentifier function.toList = true)
    (hfunction' : host.charset.isIdentifier function'.toList = true)
    (hsame : defaultName (String.ofList moduleName) function = defaultName
      (String.ofList moduleName') function') :
    function = function' ∧ ∃ parts below below', ModuleFile parts below ∧ ModuleFile parts below' ∧
    host.Below path below ∧
      host.Below path' below' := by
  obtain ⟨parts, below, hfile, hbelow, hidentifiers, rfl⟩ := exists_moduleFile_of_ok hcwd h
  obtain ⟨parts', below', hfile', hbelow', hidentifiers', rfl⟩ := exists_moduleFile_of_ok hcwd h'
  have hlists : Text.join '.' parts ++ '.' :: function.toList = Text.join '.' parts' ++ '.' ::
      function'.toList := by
    have htoList := congrArg String.toList hsame
    simpa [defaultName, String.toList_append, String.toList_ofList] using htoList
  have hmodule : Text.join '.' parts = Text.join '.' parts' :=
    Text.before_last hlists (dot_notMem_identifier hfunction) (dot_notMem_identifier hfunction')
  rw [hmodule] at hlists
  have hnames : function.toList = function'.toList := by simpa using List.append_cancel_left hlists
  have hparts : parts = parts' := by
    have hsplit := congrArg (List.splitOn '.') hmodule
    rwa [Text.splitOn_join (fun part hpart => dot_notMem_identifier (hidentifiers part hpart))
      hfile.ne_nil,
      Text.splitOn_join (fun part hpart => dot_notMem_identifier (hidentifiers' part hpart))
        hfile'.ne_nil] at hsplit
  subst hparts
  exact ⟨String.toList_injective hnames, parts, below, below', hfile, hfile', hbelow, hbelow'⟩

/-- A module beside a package of its name. -/
theorem default_names_app :
    ∃ parts below below', ModuleFile parts below ∧ ModuleFile parts below' ∧
    bare.Below "/w/app.py".toList below ∧
    bare.Below "/w/app/__init__.py".toList below' :=
  (@default_names_apart _ bare "/w/app.py".toList "/w/app/__init__.py".toList "app".toList
    "app".toList "work" "work" rfl rfl rfl (by decide)
    (by decide) rfl).2

/-! ## Where references go -/

namespace Generate.Host

variable {κ : Type} (host : Host κ)

/-- An output beside its source, or under the directory for the outputs where the source is under
the current one. -/
def Mirrors (outputDir : Option Str) (sourcePath outputPath : Str) : Prop :=
  ∃ directories stem, host.place sourcePath = (outputDir.elim [] fun _ => host.place host.cwd) ++
    directories ++ [stem ++ ".py".toList] ∧
    host.place outputPath = outputDir.elim [] host.place ++ directories ++
      [stem ++ "_refs.py".toList]

variable {host} {files : Files κ} {outputDir outputFile : Option Str} {specs : List Str}
  {sourcePath : Str} {entry : Str × List Reference} {parsed : List (Str × List Reference)} {k : κ}

theorem refsPath_append (path : Str) :
    refsPath (path ++ ".py".toList) = path ++ "_refs.py".toList := by
  have hlength : (path ++ ".py".toList).length - 3 = path.length := by
    have hextension : ".py".toList.length = 3 := by decide
    rw [List.length_append]
    omega
  rw [refsPath, hlength, List.take_left]

theorem plain_refs {stem : Str} (h : '/' ∉ stem) : Plain (stem ++ "_refs.py".toList) := by
  have hlength : 8 ≤ (stem ++ "_refs.py".toList).length := by
    have hsuffix : "_refs.py".toList.length = 8 := by decide
    rw [List.length_append]
    omega
  have hne : ∀ other : Str, other.length < 8 → stem ++ "_refs.py".toList ≠ other := by
    rintro other hother rfl
    omega
  refine ⟨⟨hne _ (by decide), ?_⟩, hne _ (by decide), hne _ (by decide)⟩
  intro hmem
  rcases List.mem_append.1 hmem with hmem | hmem
  · exact h hmem
  · exact absurd hmem (by decide)

theorem solid_source {stem : Str} (h : '/' ∉ stem) : Solid (stem ++ ".py".toList) := by
  refine ⟨by simp, fun hmem => ?_⟩
  rcases List.mem_append.1 hmem with hmem | hmem
  · exact h hmem
  · exact absurd hmem (by decide)

/-- A path is its components once nothing in it is left to normalize. -/
theorem place_eq (hpath : path.head? = some '/') (h : ∀ c ∈ Posix.components path, Plain c) :
    host.place path = Posix.components path :=
  Posix.components_abspath hpath h

theorem place_abspath (hcwd : host.cwd.head? = some '/') (path : Str) :
    host.place (Posix.abspath host.cwd path) = host.place path :=
  place_eq (Posix.head?_abspath hcwd path) fun _ hc => plain_place hcwd hc

/-- A Python file, cut before its name. -/
theorem exists_source (hcwd : host.cwd.head? = some '/') (hgiven : sourcePath ∈ host.given specs)
    (hpy : ".py".toList.isSuffixOf sourcePath = true) :
    ∃ dir stem, sourcePath = dir ++ '/' :: (stem ++ ".py".toList) ∧ '/' ∉ stem ∧
      host.place sourcePath = Posix.components dir ++ [stem ++ ".py".toList] := by
  obtain ⟨spec, -, rfl⟩ := List.mem_map.1 hgiven
  have hhead := Posix.head?_abspath hcwd (spec.takeWhile (· ≠ '='))
  have hplace := place_abspath hcwd (spec.takeWhile (· ≠ '='))
  generalize hpath : Posix.abspath host.cwd (spec.takeWhile (· ≠ '=')) = path at hpy hhead hplace
  obtain ⟨text, rfl⟩ := List.isSuffixOf_iff_suffix.1 hpy
  have hslash : '/' ∈ text := by
    cases text with
    | nil => cases hhead
    | cons c text =>
      cases hhead
      exact List.mem_cons_self
  obtain ⟨dir, stem, rfl, hstem⟩ := Text.exists_last hslash
  refine ⟨dir, stem, by simp, hstem, ?_⟩
  have hcomponents : host.place (spec.takeWhile (· ≠ '=')) = Posix.components
      (dir ++ '/' :: stem ++ ".py".toList) := by
    rw [place, hpath]
  rw [hplace, hcomponents, List.append_assoc, List.cons_append, Posix.components_append_slash,
    Posix.components_solid (solid_source hstem)]

/-- Without a directory for the outputs, an output stands beside its source. -/
theorem place_beside {dir stem : Str} (hplain : ∀ c ∈ Posix.components dir, Plain c)
    (hstem : '/' ∉ stem) (hhead : sourcePath.head? = some '/')
    (hsource : sourcePath = dir ++ '/' :: (stem ++ ".py".toList)) :
    host.place (refsPath sourcePath) = Posix.components dir ++ [stem ++ "_refs.py".toList] := by
  have houtput : refsPath sourcePath = dir ++ '/' :: (stem ++ "_refs.py".toList) := by
    have hcut : sourcePath = (dir ++ '/' :: stem) ++ ".py".toList := by
      rw [hsource, List.append_assoc, List.cons_append]
    rw [hcut, refsPath_append, List.append_assoc, List.cons_append]
  have hcomponents : Posix.components (refsPath sourcePath) = Posix.components dir ++
      [stem ++ "_refs.py".toList] := by
    rw [houtput, Posix.components_append_slash, Posix.components_solid (plain_refs hstem).toSolid]
  have hhead' : (refsPath sourcePath).head? = some '/' := by
    rw [hsource] at hhead
    rw [houtput]
    cases dir with
    | nil => rfl
    | cons c dir => exact hhead
  rw [← hcomponents]
  apply place_eq hhead'
  rw [hcomponents]
  exact List.forall_mem_append.2 ⟨hplain, List.forall_mem_singleton.2 (plain_refs hstem)⟩

/-- With one, it stands under the same directories as its source. -/
theorem place_under (hcwd : host.cwd.head? = some '/') (directory : Str) {stem : Str}
    (hplain : ∀ c ∈ directories, Plain c) (hstem : '/' ∉ stem)
    (hbelow : host.Below sourcePath (directories ++ [stem ++ ".py".toList])) :
    host.place (host.outputPath (some directory) sourcePath) = host.place directory ++
    directories ++ [stem ++ "_refs.py".toList] := by
  have hall : ∀ c ∈ directories ++ [stem ++ "_refs.py".toList], Plain c :=
    List.forall_mem_append.2 ⟨hplain, List.forall_mem_singleton.2 (plain_refs hstem)⟩
  have hsolid : ∀ c ∈ directories ++ [stem ++ "_refs.py".toList], Solid c :=
    fun c hc => (hall c hc).toSolid
  have hrelative : refsPath (host.relative sourcePath) = Text.join '/'
      (directories ++ [stem ++ "_refs.py".toList]) := by
    rw [relative_below hbelow, if_neg (by simp), Text.join_append,
      refsPath_append, ← Text.join_append]
  have hcomponents : Posix.components (host.outputPath (some directory) sourcePath) =
      host.place directory ++ directories ++ [stem ++ "_refs.py".toList] := by
    rw [outputPath, hrelative, Posix.components_join_path (Posix.head?_join_solid hsolid),
      Posix.components_join hsolid, List.append_assoc]
    rfl
  have hhead : (host.outputPath (some directory) sourcePath).head? = some '/' :=
    Posix.head?_join (Posix.head?_abspath hcwd directory)
  rw [← hcomponents]
  apply place_eq hhead
  rw [hcomponents, List.append_assoc]
  exact List.forall_mem_append.2 ⟨fun c hc => plain_place hcwd hc, hall⟩

/-- Where the references of a source go. -/
theorem mirrors_outputPath (hcwd : host.cwd.head? = some '/')
    (hgiven : sourcePath ∈ host.given specs) (hpy : ".py".toList.isSuffixOf sourcePath = true)
    (hfile : host.place sourcePath ≠ host.place host.cwd)
    (hinside : outputDir.isSome → ¬ Outside (host.relative sourcePath)) :
    host.Mirrors outputDir sourcePath (host.outputPath outputDir sourcePath) := by
  obtain ⟨dir, stem, hsource, hstem, hplace⟩ := exists_source hcwd hgiven hpy
  have hplain : ∀ c ∈ Posix.components dir, Plain c := by
    intro c hc
    have hmem : c ∈ host.place sourcePath := by
      rw [hplace]
      exact List.mem_append_left _ hc
    exact plain_place hcwd hmem
  cases outputDir with
  | none =>
    have hhead : sourcePath.head? = some '/' := by
      obtain ⟨spec, -, rfl⟩ := List.mem_map.1 hgiven
      exact Posix.head?_abspath hcwd _
    exact ⟨Posix.components dir, stem, hplace, place_beside hplain hstem hhead hsource⟩
  | some directory =>
    have hbelow : ∃ below, host.Below sourcePath below := by
      by_contra hnone
      exact hinside rfl ((outside_iff hcwd).2 fun below hbelow => hnone ⟨below, hbelow⟩)
    obtain ⟨below, hbelow⟩ := hbelow
    rcases List.eq_nil_or_concat below with rfl | ⟨directories, file, rfl⟩
    · exact absurd (hbelow.trans (List.append_nil _)) hfile
    rw [List.concat_eq_append] at hbelow
    have hsplit : Posix.components dir ++ [stem ++ ".py".toList] =
        (host.place host.cwd ++ directories) ++ [file] := by
      rw [← hplace, hbelow, List.append_assoc]
    obtain ⟨hdir, hfile⟩ := List.append_inj' hsplit rfl
    cases hfile
    have hdirectories : ∀ c ∈ directories, Plain c :=
      fun c hc => hplain c (hdir ▸ List.mem_append_right _ hc)
    exact ⟨directories, stem, by rw [hplace, hdir]; rfl,
      place_under hcwd directory hdirectories hstem hbelow⟩

/-! ### What a run changes -/

theorem isSuffixOf_of_readSource {source : Str × Option Str}
    (h : host.readSource files source = .ok entry) :
    ".py".toList.isSuffixOf source.1 = true := by
  obtain ⟨_, hpy, -⟩ := Raising.bind_eq_ok_iff.1 h
  simpa using refuse_eq_ok_iff.1 (raising_eq_ok_iff.1 hpy)

theorem exists_file_of_readSource {source : Str × Option Str}
    (h : host.readSource files source = .ok entry) :
    (files (host.file source.1)).isSome = true := by
  obtain ⟨_, -, h⟩ := Raising.bind_eq_ok_iff.1 h
  obtain ⟨moduleName, -, h⟩ := Raising.bind_eq_ok_iff.1 h
  obtain ⟨text, htext, -⟩ := Raising.bind_eq_ok_iff.1 h
  unfold read at htext
  split at htext
  · cases htext
  · rename_i hfile
    rw [hfile]
    rfl

theorem exists_read_of_parsed (h : Parsed host files specs parsed) (hentry : entry ∈ parsed) :
    ∃ source, host.readSource files source = .ok entry := by
  induction h with
  | nil => cases hentry
  | cons hhead _ ih =>
    rcases List.mem_cons.1 hentry with rfl | hentry
    · obtain ⟨source, -, hread⟩ := hhead
      exact ⟨source, hread⟩
    · exact ih hentry

/-- The current directory is no file, so a source that is read is not it. -/
theorem place_ne_of_read
    (hdirectory : ∀ path, host.place path = host.place host.cwd → files (host.file path) = none)
    (h : (files (host.file sourcePath)).isSome = true) :
    host.place sourcePath ≠ host.place host.cwd := by
  intro heq
  rw [hdirectory sourcePath heq] at h
  cases h

/-- What a source that was read is written to. -/
theorem mirrors_planned (hcwd : host.cwd.head? = some '/')
    (hdirectory : ∀ path, host.place path = host.place host.cwd → files (host.file path) = none)
    (h : Parsed host files specs parsed) (hentry : entry ∈ parsed) {w : Write}
    (hwrite : host.sourceWrite outputDir entry = .ok w) :
    host.Mirrors outputDir entry.1 w.path := by
  obtain ⟨source, hread⟩ := exists_read_of_parsed h hentry
  have hpath := (readSource_eq_ok hread).1
  have hgiven : entry.1 ∈ host.given specs := by
    rw [h.given_eq]
    exact List.mem_map_of_mem hentry
  rw [sourceWrite_eq] at hwrite
  split at hwrite
  · cases hwrite
  · rename_i hinside
    cases hwrite
    apply mirrors_outputPath hcwd hgiven (hpath ▸ isSuffixOf_of_readSource hread)
    · exact place_ne_of_read hdirectory (hpath ▸ exists_file_of_readSource hread)
    · exact fun hdir hout => hinside ⟨hdir, hout⟩

variable [DecidableEq κ]

theorem write_of_ne {w : Write} (h : host.file w.path ≠ k) : host.write files w k = files k := by
  rw [write, Function.update_of_ne (Ne.symm h)]

/-- The last loop changes what its writes lead to, as far as it comes. -/
theorem exists_write_of_changed (h : (host.writeEach outputDir files parsed).1 k ≠ files k) :
    ∃ entry ∈ parsed, ∃ w, host.sourceWrite outputDir entry = .ok w ∧ host.file w.path = k := by
  induction parsed generalizing files with
  | nil => exact absurd rfl h
  | cons source parsed ih =>
    rw [writeEach] at h
    cases hwrite : host.sourceWrite outputDir source with
    | error error =>
      simp only [hwrite] at h
      exact absurd rfl h
    | ok w =>
      simp only [hwrite] at h
      by_cases hk : host.file w.path = k
      · exact ⟨source, List.mem_cons_self, w, hwrite, hk⟩
      · have hkept : host.write files w k = files k := write_of_ne hk
        rw [← hkept] at h
        obtain ⟨entry, hentry, hrest⟩ := ih h
        exact ⟨entry, List.mem_cons_of_mem _ hentry, hrest⟩

/-- Where a run may write. -/
def Destination (host : Host κ) (specs : List Str) (outputDir outputFile : Option Str)
    (path : Str) : Prop :=
  match outputFile with
  | some outputFile => path = Posix.abspath host.cwd outputFile ∧ path ∉ host.given specs
  | none => ∃ sourcePath ∈ host.given specs, host.Mirrors outputDir sourcePath path

end Generate.Host

/-- **A run writes where its options say**, and nowhere else: to the one file for the output, which is
none of the sources, or under the directory for the outputs as the sources are under the current one. An
error on the way makes no difference. -/
theorem generate_changes {κ : Type} [DecidableEq κ] (host : Host κ) {files : Files κ}
    {specs : List Str} {outputDir outputFile : Option Str} {k : κ}
    (hcwd : host.cwd.head? = some '/')
    (hdirectory : ∀ path, host.place path = host.place host.cwd → files (host.file path) = none)
    (hchanged : (host.generate files specs outputDir outputFile).1 k ≠ files k) :
    ∃ path, host.file path = k ∧ host.Destination specs outputDir outputFile path := by
  cases hparsed : host.parsedSources files specs outputDir outputFile with
  | error raised =>
    rw [generate_of_error hparsed] at hchanged
    exact absurd rfl hchanged
  | ok parsed =>
    obtain ⟨-, -, -, hread⟩ := parsedSources_eq_ok_iff.1 hparsed
    cases outputFile with
    | some outputFile =>
      cases hcombined : host.combinedWrite parsed outputFile with
      | error error =>
        simp only [generate, hparsed, hcombined] at hchanged
        exact absurd rfl hchanged
      | ok w =>
        simp only [generate, hparsed, hcombined] at hchanged
        obtain ⟨⟨hpath, -, -⟩, rfl⟩ := combinedWrite_eq_ok_iff.1 hcombined
        by_cases hk : host.file (Posix.abspath host.cwd outputFile) = k
        · exact ⟨_, hk, rfl, by rwa [hread.given_eq]⟩
        · exact absurd (write_of_ne hk) hchanged
    | none =>
      simp only [generate, hparsed] at hchanged
      obtain ⟨entry, hentry, w, hwrite, hk⟩ := exists_write_of_changed hchanged
      refine ⟨w.path, hk, entry.1, ?_, mirrors_planned hcwd hdirectory hread hentry hwrite⟩
      rw [hread.given_eq]
      exact List.mem_map_of_mem hentry

theorem generate_changes_out : ∃ path, path = "/w/out/a_refs.py".toList ∧
    bare.Destination ["a.py".toList, "/x/b.py=b".toList] (some "out".toList) none path := by
  have hdirectory : ∀ path, bare.place path = bare.place bare.cwd →
      emptyFiles ["/w/a.py", "/x/b.py"] path = none := by
    intro path hplace
    apply if_neg
    intro hmem
    rcases List.mem_cons.1 hmem with rfl | hmem
    · exact absurd hplace (by decide)
    · cases List.mem_singleton.1 hmem
      exact absurd hplace (by decide)
  refine generate_changes bare rfl hdirectory ?_
  have hwritten :
    ((bare.generate (emptyFiles ["/w/a.py", "/x/b.py"]) ["a.py".toList, "/x/b.py=b".toList]
    (some "out".toList) none).1
      "/w/out/a_refs.py".toList).isSome = true := rfl
  intro hsame
  rw [hsame] at hwritten
  cases hwritten

end Atasks.Commands
