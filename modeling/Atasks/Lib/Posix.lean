import Atasks.Lib.Text
/-!
# POSIX paths

The functions of `posixpath` on path strings: what they make of a path depends on the string
alone, never on the file system. The working directory is an argument.

A path from the root is known by its `components`, once it is normalized: `abspath` leaves
plain names only, `relpath` is one list of components seen from another, and `splitext` and
`splitOn` take apart what `join` has put together.
-/

namespace Posix

open Text (Str)

def curdir : Str := ['.']
def pardir : Str := ['.', '.']

/-- How many slashes a normalized path keeps in front: two are kept, more count as one. -/
def initialSlashes : Str → Nat
  | '/' :: '/' :: '/' :: _ => 1
  | '/' :: '/' :: _ => 2
  | '/' :: _ => 1
  | _ => 0

/-- One component more, the last one first. -/
def pushComponent (rooted : Bool) (components : List Str) (component : Str) : List Str :=
  if component = [] ∨ component = curdir then components
  else if component ≠ pardir then component :: components
  else
    match components with
    | [] => if rooted then [] else [pardir]
    | last :: rest => if last = pardir then component :: components else rest

def normpath (path : Str) : Str :=
  let slashes := initialSlashes path
  let components := ((path.splitOn '/').foldl (pushComponent (slashes ≠ 0)) []).reverse
  let normal := List.replicate slashes '/' ++ Text.join '/' components
  if normal = [] then curdir else normal

/-- `join` of two paths. -/
def join (a b : Str) : Str :=
  if b.head? = some '/' then b
  else if a = [] ∨ a.getLast? = some '/' then a ++ b
  else a ++ '/' :: b

def abspath (cwd path : Str) : Str := normpath
    (if path.head? = some '/' then path else join cwd path)

/-- The components of a path, without the empty ones. -/
def components (path : Str) : List Str := (path.splitOn '/').filter (· ≠ [])

/-- What is left of two lists behind what they begin with in common. -/
def dropCommon : List Str → List Str → List Str × List Str
  | a :: as, b :: bs => if a = b then dropCommon as bs else (a :: as, b :: bs)
  | as, bs => (as, bs)

/-- `relpath` of a path that is not empty. -/
def relpath (cwd path start : Str) : Str :=
  let (up, down) := dropCommon (components (abspath cwd start)) (components (abspath cwd path))
  match up.map (fun _ => pardir) ++ down with
  | [] => curdir
  | first :: rest => rest.foldl join first

/-- `splitext`: leading dots of the last component begin no extension. -/
def splitext (path : Str) : Str × Str :=
  let name := path.rtakeWhile (· ≠ '/')
  match Text.rcut '.' name with
  | some (stem, extension) =>
    if stem.all (· = '.') then (path, [])
      else (path.take (path.length - extension.length - 1), '.' :: extension)
  | none => (path, [])

/-! ## Components -/

/-- Something between two slashes. -/
structure Solid (component : Str) : Prop where
  nonempty : component ≠ []
  noSlash : '/' ∉ component

/-- The name of something in a directory. -/
structure Plain (component : Str) : Prop extends Solid component where
  ne_curdir : component ≠ curdir
  ne_pardir : component ≠ pardir

section paths

variable {cs ds : List Str} {c path cwd : Str}

theorem solid_pardir : Solid pardir := ⟨by decide, by decide⟩

theorem splitOn_slashes (n : Nat) (path : Str) :
    (List.replicate n '/' ++ path).splitOn '/' = List.replicate n [] ++ path.splitOn '/' := by
  induction n with
  | zero => rfl
  | succ n ih =>
    have hhead : ('/' :: (List.replicate n '/' ++ path)).splitOn '/' = [] ::
        (List.replicate n '/' ++ path).splitOn '/' :=
      List.splitOn_append_cons_self_of_not_mem List.not_mem_nil _
    rw [List.replicate_succ, List.cons_append, hhead, ih]
    rfl

theorem components_slashes (n : Nat) (path : Str) :
    components (List.replicate n '/' ++ path) = components path := by
  have hempty : (List.replicate n ([] : Str)).filter (· ≠ []) = [] := by
    simp
  rw [components, splitOn_slashes, List.filter_append, hempty, List.nil_append, components]

/-- What has been joined is taken apart again. -/
theorem components_join (h : ∀ c ∈ cs, Solid c) : components (Text.join '/' cs) = cs := by
  cases cs with
  | nil => rfl
  | cons c cs =>
    rw [components, Text.splitOn_join (fun d hd => (h d hd).noSlash) (List.cons_ne_nil c cs)]
    exact List.filter_eq_self.2 fun d hd => decide_eq_true (h d hd).nonempty

theorem head?_join_solid (h : ∀ c ∈ cs, Solid c) : (Text.join '/' cs).head? ≠ some '/' := by
  cases cs with
  | nil => simp [Text.join]
  | cons c cs =>
    obtain ⟨hc, -⟩ := List.forall_mem_cons.1 h
    rw [Text.join_cons, List.head?_append_of_ne_nil _ hc.nonempty]
    exact fun hhead => hc.noSlash (List.mem_of_mem_head? hhead)

theorem solid_of_mem_components (h : c ∈ components path) : Solid c := by
  obtain ⟨hmem, hne⟩ := List.mem_filter.1 h
  exact ⟨of_decide_eq_true hne, Text.notMem_of_mem_splitOn hmem⟩

theorem components_append_slash (a b : Str) :
    components (a ++ '/' :: b) = components a ++ components b := by
  rw [components, List.splitOn_append_cons_self, List.filter_append, components, components]

/-! ## Normalizing -/

theorem pushComponent_plain (hsplit : '/' ∉ c) (h : ∀ d ∈ cs, Plain d) :
    ∀ d ∈ pushComponent true cs c, Plain d := by
  unfold pushComponent
  split
  · exact h
  rename_i hname
  rw [not_or] at hname
  split
  · rename_i hpardir
    exact List.forall_mem_cons.2 ⟨⟨⟨hname.1, hsplit⟩, hname.2, hpardir⟩, h⟩
  split
  · exact h
  · rename_i last rest
    split
    · rename_i hlast
      exact absurd hlast (h last List.mem_cons_self).ne_pardir
    · exact fun d hd => h d (List.mem_cons_of_mem _ hd)

theorem foldl_pushComponent_plain (hsplit : ∀ c ∈ ds, '/' ∉ c) (h : ∀ d ∈ cs, Plain d) :
    ∀ d ∈ ds.foldl (pushComponent true) cs, Plain d := by
  induction ds generalizing cs with
  | nil => exact h
  | cons c ds ih =>
    have hc := List.forall_mem_cons.1 hsplit
    exact ih hc.2 (pushComponent_plain hc.1 h)

theorem initialSlashes_pos (h : path.head? = some '/') : 0 < initialSlashes path := by
  obtain ⟨rest, rfl⟩ := List.head?_eq_some_iff.1 h
  unfold initialSlashes
  split <;> simp_all

/-- A normalized path from the root: slashes, and plain names. -/
theorem normpath_rooted (h : path.head? = some '/') :
    ∃ cs, (∀ c ∈ cs, Plain c) ∧ normpath path = List.replicate (initialSlashes path) '/' ++
    Text.join '/' cs := by
  have hpos := initialSlashes_pos h
  have hrooted : decide (initialSlashes path ≠ 0) = true := by
    simp
    omega
  have hplain : ∀ c ∈ ((path.splitOn '/').foldl (pushComponent true) []).reverse, Plain c := by
    intro c hc
    exact foldl_pushComponent_plain (fun _ hmem => Text.notMem_of_mem_splitOn hmem) (by simp) c
      (List.mem_reverse.1 hc)
  refine ⟨_, hplain, ?_⟩
  have hne : List.replicate (initialSlashes path) '/' ++
      Text.join '/' ((path.splitOn '/').foldl (pushComponent true) []).reverse ≠ [] := by
    intro hempty
    rw [List.append_eq_nil_iff, List.replicate_eq_nil_iff] at hempty
    omega
  simp only [normpath, hrooted, if_neg hne]

theorem exists_normpath (h : path.head? = some '/') :
    ∃ slashes cs, 0 < slashes ∧ (∀ c ∈ cs, Plain c) ∧ normpath path = List.replicate slashes '/' ++
    Text.join '/' cs := by
  obtain ⟨cs, hplain, hnorm⟩ := normpath_rooted h
  exact ⟨initialSlashes path, cs, initialSlashes_pos h, hplain, hnorm⟩

theorem head?_join (h : cwd.head? = some '/') : (join cwd path).head? = some '/' := by
  obtain ⟨rest, rfl⟩ := List.head?_eq_some_iff.1 h
  unfold join
  split
  · assumption
  split <;> rfl

theorem exists_abspath (h : cwd.head? = some '/') (path : Str) :
    ∃ slashes cs, 0 < slashes ∧ (∀ c ∈ cs, Plain c) ∧
    abspath cwd path = List.replicate slashes '/' ++ Text.join '/' cs := by
  unfold abspath
  split
  · exact exists_normpath ‹_›
  · exact exists_normpath (head?_join h)

theorem plain_of_mem_abspath (h : cwd.head? = some '/') (hc : c ∈ components (abspath cwd path)) :
    Plain c := by
  obtain ⟨slashes, cs, -, hplain, habspath⟩ := exists_abspath h path
  rw [habspath, components_slashes, components_join fun c hc => (hplain c hc).toSolid] at hc
  exact hplain c hc

theorem components_solid (h : Solid c) : components c = [c] := by
  have hone : components (Text.join '/' [c]) = [c] :=
    components_join (List.forall_mem_singleton.2 h)
  simpa [Text.join] using hone

theorem foldl_pushComponent_of_plain (h : ∀ d ∈ ds, d ≠ [] → Plain d) :
    ds.foldl (pushComponent true) cs = (ds.filter (· ≠ [])).reverse ++ cs := by
  induction ds generalizing cs with
  | nil => rfl
  | cons c ds ih =>
    obtain ⟨hc, hds⟩ := List.forall_mem_cons.1 h
    rw [List.foldl_cons, ih hds]
    by_cases hempty : c = []
    · simp [pushComponent, hempty]
    · have hplain := hc hempty
      have hpush : pushComponent true cs c = c :: cs := by
        unfold pushComponent
        rw [if_neg (not_or.2 ⟨hempty, hplain.ne_curdir⟩), if_pos hplain.ne_pardir]
      rw [hpush, List.filter_cons_of_pos (by simpa using hempty)]
      simp

/-- Plain names are left as they are. -/
theorem components_normpath (hpath : path.head? = some '/') (h : ∀ c ∈ components path, Plain c) :
    components (normpath path) = components path := by
  have hpos := initialSlashes_pos hpath
  have hrooted : decide (initialSlashes path ≠ 0) = true := by
    simp
    omega
  have hfold : (path.splitOn '/').foldl (pushComponent true) [] = (components path).reverse := by
    rw [foldl_pushComponent_of_plain fun d hd hne =>
      h d (List.mem_filter.2 ⟨hd, decide_eq_true hne⟩), List.append_nil]
    rfl
  have hne : List.replicate (initialSlashes path) '/' ++ Text.join '/'
      (components path).reverse.reverse ≠ [] := by
    intro hempty
    rw [List.append_eq_nil_iff, List.replicate_eq_nil_iff] at hempty
    omega
  simp only [normpath, hrooted, hfold, if_neg hne]
  rw [components_slashes, List.reverse_reverse, components_join fun c hc => (h c hc).toSolid]

theorem components_abspath (hpath : path.head? = some '/') (h : ∀ c ∈ components path, Plain c) :
    components (abspath cwd path) = components path := by
  rw [abspath, if_pos hpath, components_normpath hpath h]

theorem head?_abspath (h : cwd.head? = some '/') (path : Str) :
    (abspath cwd path).head? = some '/' := by
  obtain ⟨slashes, cs, hpos, -, habspath⟩ := exists_abspath h path
  obtain ⟨n, rfl⟩ := Nat.exists_eq_add_of_lt hpos
  rw [habspath, Nat.zero_add, List.replicate_succ]
  rfl

/-- Below a directory. -/
theorem components_join_path {a b : Str} (h : b.head? ≠ some '/') :
    components (join a b) = components a ++ components b := by
  rw [join, if_neg h]
  split
  · rename_i hend
    rcases hend with rfl | hend
    · rfl
    · obtain ⟨dir, rfl⟩ := List.getLast?_eq_some_iff.1 hend
      have hempty : components [] = [] := rfl
      rw [List.append_assoc, List.singleton_append, components_append_slash,
        components_append_slash, hempty, List.append_nil]
  · exact components_append_slash a b

/-! ## What lies below a directory -/

theorem takeWhile_slashes {s : Str} (h : s.head? ≠ some '/') (n : Nat) :
    (List.replicate n '/' ++ s).takeWhile (· = '/') = List.replicate n '/' := by
  have hs : s.takeWhile (· = '/') = [] := by
    cases s with
    | nil => rfl
    | cons c s => exact List.takeWhile_cons_of_neg (by simpa using h)
  rw [List.takeWhile_append_of_pos (by simp), hs, List.append_nil]

theorem slashes_inj {s t : Str} {n n' : Nat} (hs : s.head? ≠ some '/') (ht : t.head? ≠ some '/')
    (h : List.replicate n' '/' ++ t = List.replicate n '/' ++ s) : n' = n := by
  have hn := congrArg (List.takeWhile (· = '/')) h
  rw [takeWhile_slashes ht, takeWhile_slashes hs] at hn
  simpa using congrArg List.length hn

/-- A path and all that begins with it and a slash, when both are normalized, are the paths
whose components begin with its components. -/
theorem below_iff (hcs : ∀ c ∈ cs, Solid c) (hds : ∀ d ∈ ds, Solid d) (hne : cs ≠ []) (n n' : Nat) :
    (List.replicate n' '/' ++ Text.join '/' ds = List.replicate n '/' ++ Text.join '/' cs ∨
      List.replicate n '/' ++ Text.join '/' cs ++ ['/'] <+: List.replicate n' '/' ++
      Text.join '/' ds) ↔ n' = n ∧ cs <+: ds := by
  have hhead := head?_join_solid hcs
  have hhead' := head?_join_solid hds
  constructor
  · rintro (heq | ⟨rest, heq⟩)
    · obtain rfl := slashes_inj hhead hhead' heq
      have hcomponents := congrArg components (List.append_cancel_left heq)
      rw [components_join hds, components_join hcs] at hcomponents
      exact ⟨rfl, hcomponents ▸ List.prefix_refl ds⟩
    · have hlong : (Text.join '/' cs ++ '/' :: rest).head? ≠ some '/' := by
        cases cs with
        | nil => exact absurd rfl hne
        | cons c cs =>
          have hc := (hcs c List.mem_cons_self).nonempty
          rw [Text.join_cons, List.append_assoc, List.head?_append_of_ne_nil _ hc]
          rwa [Text.join_cons, List.head?_append_of_ne_nil _ hc] at hhead
      have heq' : List.replicate n' '/' ++ Text.join '/' ds = List.replicate n '/' ++
          (Text.join '/' cs ++ '/' :: rest) := by
        rw [← heq]
        simp
      obtain rfl := slashes_inj hlong hhead' heq'
      refine ⟨rfl, components rest, ?_⟩
      rw [← components_join hds, List.append_cancel_left heq', components_append_slash,
        components_join hcs]
  · rintro ⟨rfl, es, rfl⟩
    cases es with
    | nil => exact Or.inl (by rw [List.append_nil])
    | cons e es =>
      refine Or.inr ⟨Text.join '/' (e :: es), ?_⟩
      cases cs with
      | nil => exact absurd rfl hne
      | cons c cs => simp [Text.join_cons]

theorem foldl_pushComponent_solid (rooted : Bool) (hsplit : ∀ c ∈ ds, '/' ∉ c)
    (h : ∀ d ∈ cs, Solid d) :
    ∀ d ∈ ds.foldl (pushComponent rooted) cs, Solid d := by
  induction ds generalizing cs with
  | nil => exact h
  | cons c ds ih =>
    obtain ⟨hc, hds⟩ := List.forall_mem_cons.1 hsplit
    refine ih hds ?_
    unfold pushComponent
    split
    · exact h
    rename_i hname
    rw [not_or] at hname
    split
    · exact List.forall_mem_cons.2 ⟨⟨hname.1, hc⟩, h⟩
    split
    · split
      · simp
      · exact List.forall_mem_singleton.2 solid_pardir
    · split
      · exact List.forall_mem_cons.2 ⟨⟨hname.1, hc⟩, h⟩
      · exact fun d hd => h d (List.mem_cons_of_mem _ hd)

theorem initialSlashes_eq_zero (h : path.head? ≠ some '/') : initialSlashes path = 0 := by
  unfold initialSlashes
  split <;> simp_all

/-- A path that is not from the root is not from the root when it is normalized. -/
theorem head?_normpath (h : path.head? ≠ some '/') : (normpath path).head? ≠ some '/' := by
  have hzero := initialSlashes_eq_zero h
  have hsolid : ∀ c ∈ ((path.splitOn '/').foldl (pushComponent false) []).reverse, Solid c := by
    intro c hc
    exact foldl_pushComponent_solid false (fun _ hmem => Text.notMem_of_mem_splitOn hmem)
      (by simp) c (List.mem_reverse.1 hc)
  have hjoin := head?_join_solid hsolid
  simp only [normpath, hzero, List.replicate_zero, List.nil_append, ne_eq, not_true_eq_false,
    decide_false]
  split
  · decide
  · exact hjoin

/-! ## Relative paths -/

theorem dropCommon_append (as bs : List Str) : dropCommon as (as ++ bs) = ([], bs) := by
  induction as with
  | nil =>
    cases bs <;> rfl
  | cons a as ih => rw [List.cons_append, dropCommon, if_pos rfl, ih]

theorem dropCommon_eq_nil (as bs : List Str) (h : (dropCommon as bs).1 = []) :
    as ++ (dropCommon as bs).2 = bs := by
  induction as generalizing bs with
  | nil =>
    cases bs <;> rfl
  | cons a as ih =>
    cases bs with
    | nil => cases h
    | cons b bs =>
      rw [dropCommon] at h ⊢
      split at h
      · rename_i hab
        rw [if_pos hab, List.cons_append, ih bs h, hab]
      · cases h

theorem mem_of_mem_dropCommon {as bs : List Str} (h : c ∈ (dropCommon as bs).2) : c ∈ bs := by
  induction as generalizing bs with
  | nil =>
    cases bs <;> exact h
  | cons a as ih =>
    cases bs with
    | nil => exact h
    | cons b bs =>
      rw [dropCommon] at h
      split at h
      · exact List.mem_cons_of_mem _ (ih h)
      · exact h

theorem join_solid {a b : Str} (ha : a ≠ []) (hlast : a.getLast? ≠ some '/') (hb : Solid b) :
    join a b = a ++ '/' :: b := by
  have hhead : b.head? ≠ some '/' := fun h => hb.noSlash (List.mem_of_mem_head? h)
  rw [join, if_neg hhead, if_neg (not_or.2 ⟨ha, hlast⟩)]

theorem foldl_join {a : Str} (ha : a ≠ []) (hlast : a.getLast? ≠ some '/') (h : ∀ c ∈ cs, Solid c) :
    cs.foldl join a = a ++ cs.flatMap ('/' :: ·) := by
  induction cs generalizing a with
  | nil => simp
  | cons c cs ih =>
    obtain ⟨hc, hcs⟩ := List.forall_mem_cons.1 h
    have hend : (a ++ '/' :: c).getLast? ≠ some '/' := by
      obtain ⟨d, rest, rfl⟩ := List.exists_cons_of_ne_nil hc.nonempty
      rw [List.getLast?_append, List.getLast?_cons_cons]
      intro heq
      cases hl : (d :: rest).getLast? with
      | none => simp at hl
      | some e =>
        rw [hl] at heq
        exact hc.noSlash (List.mem_of_mem_getLast? (by simpa [hl] using heq))
    rw [List.foldl_cons, join_solid ha hlast hc, ih (by simp) hend hcs, List.flatMap_cons,
      List.append_assoc]

/-- The way from one list of components to another. -/
def route (as bs : List Str) : List Str := (dropCommon as bs).1.map (fun _ => pardir) ++
    (dropCommon as bs).2

theorem solid_of_mem_route {as bs : List Str} (h : ∀ b ∈ bs, Solid b) (hc : c ∈ route as bs) :
    Solid c := by
  rcases List.mem_append.1 hc with hc | hc
  · obtain ⟨_, -, rfl⟩ := List.mem_map.1 hc
    exact solid_pardir
  · exact h c (mem_of_mem_dropCommon hc)

theorem relpath_eq (cwd path start : Str) :
    relpath cwd path start = if route (components (abspath cwd start))
    (components (abspath cwd path)) = [] then curdir
      else Text.join '/' (route (components (abspath cwd start))
        (components (abspath cwd path))) := by
  have hsolid : ∀ c ∈ route (components (abspath cwd start)) (components (abspath cwd path)),
      Solid c :=
    fun c hc => solid_of_mem_route (fun _ => solid_of_mem_components) hc
  have hunfold : relpath cwd path start = match route (components (abspath cwd start))
      (components (abspath cwd path)) with
      | [] => curdir
      | first :: rest => rest.foldl join first := rfl
  rw [hunfold]
  cases hroute : route (components (abspath cwd start)) (components (abspath cwd path)) with
  | nil => rfl
  | cons first rest =>
    rw [hroute] at hsolid
    obtain ⟨hfirst, hrest⟩ := List.forall_mem_cons.1 hsolid
    have hlast : first.getLast? ≠ some '/' := fun h => hfirst.noSlash (List.mem_of_mem_getLast? h)
    rw [if_neg (by simp), Text.join_cons]
    exact foldl_join hfirst.nonempty hlast hrest

/-- A path below the start is the components that are left. -/
theorem relpath_below {start : Str} {below : List Str}
    (h : components (abspath cwd path) = components (abspath cwd start) ++ below) :
    relpath cwd path start = if below = [] then curdir else Text.join '/' below := by
  have hroute : route (components (abspath cwd start)) (components (abspath cwd path)) = below := by
    rw [h, route, dropCommon_append]
    rfl
  rw [relpath_eq, hroute]

/-- Any other leads up first. -/
theorem relpath_beside {start : Str}
    (h : ∀ below, components (abspath cwd path) ≠ components (abspath cwd start) ++ below) :
    ∃ rest, (∀ c ∈ rest, Solid c) ∧ relpath cwd path start = Text.join '/' (pardir :: rest) := by
  have hsolid : ∀ c ∈ route (components (abspath cwd start)) (components (abspath cwd path)),
      Solid c :=
    fun c hc => solid_of_mem_route (fun _ => solid_of_mem_components) hc
  cases hup : (dropCommon (components (abspath cwd start)) (components (abspath cwd path))).1 with
  | nil => exact absurd (dropCommon_eq_nil _ _ hup).symm (h _)
  | cons up ups =>
    have hroute : route (components (abspath cwd start)) (components (abspath cwd path)) =
        pardir :: (ups.map (fun _ => pardir) ++
          (dropCommon (components (abspath cwd start)) (components (abspath cwd path))).2) := by
      rw [route, hup]
      rfl
    rw [hroute] at hsolid
    refine ⟨_, fun c hc => hsolid c (List.mem_cons_of_mem _ hc), ?_⟩
    rw [relpath_eq, hroute, if_neg (by simp)]

/-! ## Extensions -/

theorem splitext_append {pre name : Str} (hpre : pre = [] ∨ ∃ dir, pre = dir ++ ['/'])
    (hname : '/' ∉ name) :
    splitext (pre ++ name) =
      match Text.rcut '.' name with
      | some (stem, extension) =>
        if stem.all (· = '.') then (pre ++ name, []) else (pre ++ stem, '.' :: extension)
      | none => (pre ++ name, []) := by
  have hlast : (pre ++ name).rtakeWhile (· ≠ '/') = name := by
    rcases hpre with rfl | ⟨dir, rfl⟩
    · rw [List.nil_append, List.rtakeWhile_eq_self_iff]
      intro c hc
      have hne : c ≠ '/' := fun heq => hname (heq ▸ hc)
      simpa using hne
    · rw [List.append_assoc, List.singleton_append, Text.rtakeWhile_append_self hname]
  rw [splitext, hlast]
  cases hcut : Text.rcut '.' name with
  | none => rfl
  | some parts =>
    obtain ⟨stem, extension⟩ := parts
    have htake : (pre ++ name).take ((pre ++ name).length - extension.length - 1) =
        pre ++ stem := by
      have hsplit : pre ++ name = (pre ++ stem) ++ '.' :: extension := by
        rw [Text.rcut_eq_some hcut, List.append_assoc]
      have hlength : (pre ++ name).length - extension.length - 1 = (pre ++ stem).length := by
        rw [hsplit, List.length_append, List.length_cons]
        omega
      rw [hlength, hsplit, List.take_left']
      rfl
    simp only [htake]

theorem splitext_join (dirs : List Str) {name : Str} (hname : '/' ∉ name) :
    splitext (Text.join '/' (dirs ++ [name])) =
      match Text.rcut '.' name with
      | some (stem, extension) =>
        if stem.all (· = '.') then (Text.join '/' (dirs ++ [name]), [])
          else (Text.join '/' (dirs ++ [stem]), '.' :: extension)
      | none => (Text.join '/' (dirs ++ [name]), []) := by
  by_cases hdirs : dirs = []
  · subst hdirs
    have hone : ∀ name : Str, Text.join '/' ([] ++ [name]) = [] ++ name := by simp [Text.join]
    simp only [hone, splitext_append (Or.inl rfl) hname]
  · have hmany : ∀ name : Str, Text.join '/' (dirs ++ [name]) = (Text.join '/' dirs ++ ['/']) ++
        name := by
      intro name
      rw [Text.join_concat '/' hdirs, List.append_assoc]
      rfl
    simp only [hmany, splitext_append (Or.inr ⟨_, rfl⟩) hname]

end paths

end Posix
