import Atasks.Lib.Posix
import Atasks.Trace.Frames
/-!
# What the frame filter leaves out

`_is_filtered` and what it is told by `_module_paths` and `_filter_roots`
(`atasks/trace.py:140-195`), on POSIX paths. It compares strings, a normalized file name with
the normalized paths of the modules to leave out; `isFiltered_iff` says what that comes to:
the files of these modules and whatever lies below their directories, component by component,
so that a neighbour whose name only begins with theirs stays.

| here | there |
| --- | --- |
| `ModuleSpec`  | what `importlib.util.find_spec` returns; `none` also where it raises `ImportError` or `ValueError` |
| `ownPaths`    | the paths that `_module_paths` collects, before they are normalized |
| `Process.posix` | `os.sep` and `os.path.normpath` |
-/

namespace Atasks.Trace

open Posix
open Text (Str)

structure ModuleSpec where
  submoduleSearchLocations : Option (List Str)
  origin : Option Str

def ownPaths (findSpec : String → Option ModuleSpec) (moduleName : String) : List Str :=
  match findSpec moduleName with
  | none => []
  | some spec =>
    spec.submoduleSearchLocations.getD [] ++
      spec.origin.toList.filter fun origin => origin ≠ [] ∧ origin ≠ "built-in".toList ∧
        origin ≠ "frozen".toList

/-- `_module_paths`. -/
def modulePaths (findSpec : String → Option ModuleSpec) (moduleName : String) : List String :=
  (ownPaths findSpec moduleName).map fun path => String.ofList (normpath path)

def Process.posix (process : Process) (findSpec : String → Option ModuleSpec) : Process where
  __ := process
  sep := "/"
  modulePaths := Trace.modulePaths findSpec
  normpath filename := String.ofList (Posix.normpath filename.toList)

/-- The directory or file at `path`, or what lies below it. -/
def AtOrBelow (path filename : Str) : Prop :=
  initialSlashes filename = initialSlashes path ∧ components (Posix.normpath path) <+: components
    (Posix.normpath filename)

instance (path filename : Str) : Decidable (AtOrBelow path filename) :=
  inferInstanceAs (Decidable (initialSlashes filename = initialSlashes path ∧
    components (Posix.normpath path) <+: components (Posix.normpath filename)))

/-- What comparing the normalized strings finds out, for a path from the root and not the root
itself. -/
theorem atOrBelow_iff {path filename : Str} (hpath : path.head? = some '/')
    (hroot : components (Posix.normpath path) ≠ []) :
    Posix.normpath filename = Posix.normpath path ∨ Posix.normpath path ++
    ['/'] <+: Posix.normpath filename ↔
      AtOrBelow path filename := by
  obtain ⟨cs, hcs, hnorm⟩ := normpath_rooted hpath
  have hcomponents : components (Posix.normpath path) = cs := by
    rw [hnorm, components_slashes, components_join fun c hc => (hcs c hc).toSolid]
  by_cases hfile : filename.head? = some '/'
  · obtain ⟨ds, hds, hnorm'⟩ := normpath_rooted hfile
    have hcomponents' : components (Posix.normpath filename) = ds := by
      rw [hnorm', components_slashes, components_join fun d hd => (hds d hd).toSolid]
    rw [AtOrBelow, hcomponents, hcomponents', hnorm, hnorm']
    exact below_iff (fun c hc => (hcs c hc).toSolid) (fun d hd => (hds d hd).toSolid)
      (hcomponents ▸ hroot) _ _
  · have hhead : (Posix.normpath path).head? = some '/' := by
      obtain ⟨n, hn⟩ := Nat.exists_eq_succ_of_ne_zero (Nat.ne_of_gt (initialSlashes_pos hpath))
      rw [hnorm, hn]
      rfl
    have hhead' := head?_normpath hfile
    constructor
    · rintro (heq | ⟨rest, heq⟩)
      · exact absurd (heq ▸ hhead) hhead'
      · refine absurd ?_ hhead'
        rw [← heq, List.append_assoc, List.head?_append, hhead]
        rfl
    · rintro ⟨hslashes, -⟩
      have hpos := initialSlashes_pos hpath
      rw [← hslashes, initialSlashes_eq_zero hfile] at hpos
      exact absurd hpos (Nat.lt_irrefl 0)

/-- **The frames left out are those of files at or below what the modules own.** -/
theorem isFiltered_iff (process : Process) (findSpec : String → Option ModuleSpec)
    (filename : String) {filterModules : List String}
    (habsolute : ∀ m ∈ filterModules, ∀ path ∈ ownPaths findSpec m,
      path.head? = some '/' ∧ components (Posix.normpath path) ≠ []) :
    isFiltered (process.posix findSpec) filename filterModules = true ↔
      ∃ m ∈ filterModules, ∃ path ∈ ownPaths findSpec m, AtOrBelow path filename.toList := by
  have hroot : ∀ path : Str,
      (String.ofList (Posix.normpath filename.toList) == String.ofList (Posix.normpath path) ||
        (String.ofList (Posix.normpath filename.toList)).startsWith
          (String.ofList (Posix.normpath path) ++ "/")) = true ↔
      Posix.normpath filename.toList = Posix.normpath path ∨
        Posix.normpath path ++ ['/'] <+: Posix.normpath filename.toList := by
    intro path
    rw [Bool.or_eq_true, beq_iff_eq, String.ofList_inj, String.startsWith_string_iff]
    simp
  constructor
  · intro h
    unfold isFiltered at h
    split at h
    · cases h
    · obtain ⟨root, hmem, hmatch⟩ := List.any_eq_true.1 h
      obtain ⟨m, hm, hroots⟩ := List.mem_flatMap.1 hmem
      obtain ⟨path, hpath, rfl⟩ := List.mem_map.1 hroots
      obtain ⟨habs, hne⟩ := habsolute m hm path hpath
      exact ⟨m, hm, path, hpath, (atOrBelow_iff habs hne).1 ((hroot path).1 hmatch)⟩
  · rintro ⟨m, hm, path, hpath, hbelow⟩
    obtain ⟨habs, hne⟩ := habsolute m hm path hpath
    have hempty : filterModules.isEmpty = false := by
      cases filterModules with
      | nil => cases hm
      | cons _ _ => rfl
    unfold isFiltered
    rw [hempty]
    refine List.any_eq_true.2 ⟨String.ofList (Posix.normpath path), ?_, (hroot path).2
      ((atOrBelow_iff habs hne).2 hbelow)⟩
    exact List.mem_flatMap.2 ⟨m, hm, List.mem_map_of_mem hpath⟩

/-- A package in `/lib/pkg`. -/
def findPkg (moduleName : String) : Option ModuleSpec :=
  if moduleName = "pkg" then some ⟨some ["/lib/pkg".toList], some "/lib/pkg/__init__.py".toList⟩
    else none

/-- A module of the package is left out, and one of the package beside it is not. -/
theorem isFiltered_iff_findPkg :
    isFiltered (demoProcess.posix findPkg) "/lib/pkg/sub/../mod.py" ["pkg"] = true ∧
      isFiltered (demoProcess.posix findPkg) "/lib/pkgs/mod.py" ["pkg"] = false := by
  have habsolute : ∀ m ∈ ["pkg"], ∀ path ∈ ownPaths findPkg m, path.head? = some '/' ∧
      components (Posix.normpath path) ≠ [] := by
    decide
  refine ⟨(isFiltered_iff demoProcess findPkg _ habsolute).2 (by decide), ?_⟩
  rw [← Bool.not_eq_true, isFiltered_iff demoProcess findPkg _ habsolute]
  decide

end Atasks.Trace
