import Mathlib.Data.List.DropRight
import Mathlib.Data.List.Basic
/-!
# Python's string operations

A string is the list of its characters. `strip`, `cut` (`str.partition`, and `str.split` with a
limit of one), `rcut` (`str.rsplit` with a limit of one) and `int` are what small parsers are
made of; splitting at every separator is `List.splitOn`, and `List.intercalate` its inverse.

What `int` accepts depends on the interpreter it runs in (`Numerals`), within what the
language promises.
-/

namespace Text

abbrev Str := List Char

/-! ## Blanks -/

/-- `str.isspace` of one character. -/
def isSpace (c : Char) : Bool :=
  let n := c.toNat
  (9 ≤ n && n ≤ 13) || (28 ≤ n && n ≤ 32) || n == 0x85 || n == 0xA0 || n == 0x1680 ||
    (0x2000 ≤ n && n ≤ 0x200A) ||
    n == 0x2028 || n == 0x2029 || n == 0x202F || n == 0x205F || n == 0x3000

def Blank (s : Str) : Prop := ∀ c ∈ s, isSpace c = true

/-- Removes a kind of character from both ends. -/
def stripOf (p : Char → Bool) (s : Str) : Str := (s.dropWhile p).rdropWhile p

/-- `str.strip`. -/
def strip (s : Str) : Str := stripOf isSpace s

/-- Without blanks at its ends. -/
def Trimmed (s : Str) : Prop := strip s = s

instance (s : Str) : Decidable (Blank s) := inferInstanceAs (Decidable (∀ c ∈ s, isSpace c = true))
instance (s : Str) : Decidable (Trimmed s) := inferInstanceAs (Decidable (strip s = s))

section stripOf

variable {p : Char → Bool} {s : Str}

theorem exists_stripOf (p : Char → Bool) (s : Str) :
    ∃ a b, s = a ++ stripOf p s ++ b ∧ (∀ c ∈ a, p c = true) ∧ ∀ c ∈ b, p c = true := by
  refine ⟨s.takeWhile p, (s.dropWhile p).rtakeWhile p, ?_, ?_, ?_⟩
  · rw [stripOf, List.append_assoc, List.rdropWhile_append_rtakeWhile,
      List.takeWhile_append_dropWhile]
  · intro c hc
    exact List.mem_takeWhile_imp hc
  · intro c hc
    exact List.mem_rtakeWhile_imp hc

theorem rdropWhile_append {a b : Str} (hb : ∀ c ∈ b, p c = true) :
    (a ++ b).rdropWhile p = a.rdropWhile p := by
  simp only [List.rdropWhile, List.reverse_append]
  rw [List.dropWhile_append_of_pos (by simpa using hb)]

theorem stripOf_append {a b : Str} (ha : ∀ c ∈ a, p c = true) (hb : ∀ c ∈ b, p c = true) :
    stripOf p (a ++ s ++ b) = stripOf p s := by
  rw [stripOf, List.append_assoc, List.dropWhile_append_of_pos ha, List.dropWhile_append]
  split
  · rename_i hs
    have hblank : ∀ c ∈ s, p c = true := List.dropWhile_eq_nil_iff.1 (List.isEmpty_iff.1 hs)
    rw [stripOf, List.dropWhile_eq_nil_iff.2 hb, List.dropWhile_eq_nil_iff.2 hblank]
  · rw [rdropWhile_append hb, stripOf]

theorem stripOf_eq_self_iff :
    stripOf p s = s ↔ (∀ c ∈ s.head?, p c = false) ∧ ∀ c ∈ s.getLast?, p c = false := by
  constructor
  · intro h
    have hfirst : s.dropWhile p = s := by
      apply (List.dropWhile_suffix p).eq_of_length_le
      calc s.length = (stripOf p s).length := by rw [h]
        _ ≤ (s.dropWhile p).length := (List.rdropWhile_prefix p _).length_le
    have hlast : s.rdropWhile p = s := by rw [stripOf, hfirst] at h; exact h
    refine ⟨fun c hc => ?_, fun c hc => ?_⟩
    · have hd := List.head?_dropWhile_not p s
      rw [hfirst, hc] at hd
      simpa using hd
    · obtain ⟨hne, rfl⟩ := List.mem_getLast?_eq_getLast hc
      simpa using List.rdropWhile_eq_self_iff.1 hlast hne
  · rintro ⟨hhead, hlast⟩
    cases s with
    | nil => rfl
    | cons d s =>
      have hd : p d = false := hhead d rfl
      rw [stripOf, List.dropWhile_cons_of_neg (by simp [hd]), List.rdropWhile_eq_self_iff]
      intro hne
      simp [hlast _ (List.getLast?_eq_getLast_of_ne_nil hne)]

end stripOf

theorem exists_strip (s : Str) :
    ∃ a b, s = a ++ strip s ++ b ∧ Blank a ∧ Blank b := exists_stripOf isSpace s

theorem strip_append {a s b : Str} (ha : Blank a) (hb : Blank b) :
    strip (a ++ s ++ b) = strip s := stripOf_append ha hb

theorem trimmed_iff {s : Str} :
    Trimmed s ↔ (∀ c ∈ s.head?, isSpace c = false) ∧ ∀ c ∈ s.getLast?, isSpace c = false :=
  stripOf_eq_self_iff

theorem strip_eq_nil_iff {s : Str} : strip s = [] ↔ Blank s := by
  constructor
  · intro h
    obtain ⟨a, b, hs, ha, hb⟩ := exists_strip s
    rw [h, List.append_nil] at hs
    rw [hs]
    exact List.forall_mem_append.2 ⟨ha, hb⟩
  · intro h
    have hnil : Blank [] := by simp [Blank]
    calc strip s = strip (s ++ [] ++ []) := by simp
      _ = strip [] := strip_append h hnil
      _ = [] := rfl

/-! ## Cutting in two -/

/-- What stands before and behind the first `c`. -/
def cut (c : Char) : Str → Option (Str × Str)
  | [] => none
  | d :: s =>
    if d = c then some ([], s) else (cut c s).map fun (parts : Str × Str) => (d :: parts.1, parts.2)

/-- What stands before and behind the last `c`. -/
def rcut (c : Char) (s : Str) : Option (Str × Str) :=
  (cut c s.reverse).map fun (parts : Str × Str) => (parts.2.reverse, parts.1.reverse)

section cut

variable {c : Char} {s a b : Str}

theorem cut_append (h : c ∉ a) : cut c (a ++ c :: b) = some (a, b) := by
  induction a with
  | nil => simp [cut]
  | cons d a ih =>
    obtain ⟨hd, ha⟩ := not_or.1 (mt List.mem_cons.2 h)
    simp [cut, Ne.symm hd, ih ha]

theorem cut_eq_none_iff : cut c s = none ↔ c ∉ s := by
  induction s with
  | nil => simp [cut]
  | cons d s ih =>
    by_cases hd : d = c
    · simp [cut, hd]
    · simp [cut, hd, ih, Ne.symm hd]

theorem cut_eq_some_iff : cut c s = some (a, b) ↔ s = a ++ c :: b ∧ c ∉ a := by
  constructor
  · intro h
    have hc : c ∈ s := by
      by_contra hc
      rw [cut_eq_none_iff.2 hc] at h
      cases h
    obtain ⟨a', b', rfl, ha'⟩ := List.eq_append_cons_of_mem hc
    rw [cut_append ha'] at h
    cases h
    exact ⟨rfl, ha'⟩
  · rintro ⟨rfl, ha⟩
    exact cut_append ha

theorem rcut_append (h : c ∉ b) : rcut c (a ++ c :: b) = some (a, b) := by
  have hrev : (a ++ c :: b).reverse = b.reverse ++ c :: a.reverse := by simp
  rw [rcut, hrev, cut_append (by simpa using h)]
  simp

theorem rcut_eq_none_iff : rcut c s = none ↔ c ∉ s := by
  rw [rcut, Option.map_eq_none_iff, cut_eq_none_iff, List.mem_reverse]

theorem rcut_eq_some (h : rcut c s = some (a, b)) : s = a ++ c :: b := by
  obtain ⟨⟨b', a'⟩, hcut, hparts⟩ := Option.map_eq_some_iff.1 h
  cases hparts
  obtain ⟨hs, -⟩ := cut_eq_some_iff.1 hcut
  rw [← List.reverse_inj, hs]
  simp

/-- A text is cut at its last separator. -/
theorem exists_last (h : c ∈ s) : ∃ a b, s = a ++ c :: b ∧ c ∉ b := by
  obtain ⟨b, a, hrev, hb⟩ := List.eq_append_cons_of_mem (List.mem_reverse.2 h)
  refine ⟨a.reverse, b.reverse, ?_, by simpa using hb⟩
  rw [← List.reverse_reverse s, hrev]
  simp

theorem takeWhile_append_self (h : c ∉ a) : (a ++ c :: b).takeWhile (· ≠ c) = a := by
  have hall : ∀ d ∈ a, decide (d ≠ c) = true := by
    intro d hd
    have hne : d ≠ c := fun heq => h (heq ▸ hd)
    simp [hne]
  rw [List.takeWhile_append_of_pos hall]
  simp

theorem dropWhile_append_self (h : c ∉ a) : (a ++ c :: b).dropWhile (· ≠ c) = c :: b := by
  have hall : ∀ d ∈ a, decide (d ≠ c) = true := by
    intro d hd
    have hne : d ≠ c := fun heq => h (heq ▸ hd)
    simp [hne]
  rw [List.dropWhile_append_of_pos hall]
  simp

theorem rtakeWhile_append_self (h : c ∉ b) : (a ++ c :: b).rtakeWhile (· ≠ c) = b := by
  have hrev : (a ++ c :: b).reverse = b.reverse ++ c :: a.reverse := by simp
  rw [List.rtakeWhile, hrev, takeWhile_append_self (by simpa using h), List.reverse_reverse]

theorem cut_of_mem (h : c ∈ s) :
    cut c s = some (s.takeWhile (· ≠ c), (s.dropWhile (· ≠ c)).drop 1) := by
  obtain ⟨a, b, rfl, ha⟩ := List.eq_append_cons_of_mem h
  rw [cut_append ha, takeWhile_append_self ha, dropWhile_append_self ha]
  rfl

/-- Blanks around a string stay with its parts. -/
theorem cut_blanks {x y : Str} (hc : isSpace c = false) (hx : Blank x) (h : cut c s = some (a, b)) :
    cut c (x ++ s ++ y) = some (x ++ a, b ++ y) := by
  obtain ⟨rfl, ha⟩ := cut_eq_some_iff.1 h
  have hcx : c ∉ x := fun hmem => by simp [hx c hmem] at hc
  have heq : x ++ (a ++ c :: b) ++ y = (x ++ a) ++ c :: (b ++ y) := by simp
  rw [heq]
  exact cut_append (by simp [hcx, ha])

end cut

/-- What stands before the last place of an element is determined. -/
theorem before_last {α : Type} [DecidableEq α] {a : α} {pre pre' post post' : List α}
    (h : pre ++ a :: post = pre' ++ a :: post') (hpost : a ∉ post) (hpost' : a ∉ post') :
    pre = pre' := by
  have hdrop : ∀ pre post : List α, a ∉ post → (pre ++ a :: post).reverse.dropWhile (· ≠ a) = a ::
      pre.reverse := by
    intro pre post hpost
    have hreverse : (pre ++ a :: post).reverse = post.reverse ++ a :: pre.reverse := by simp
    have hne : ∀ b ∈ post.reverse, decide (b ≠ a) = true := by
      intro b hb
      exact decide_eq_true fun heq => hpost (heq ▸ List.mem_reverse.1 hb)
    rw [hreverse, List.dropWhile_append_of_pos hne]
    simp
  have heq := hdrop pre post hpost
  rw [h, hdrop pre' post' hpost'] at heq
  exact (List.reverse_injective (List.cons_eq_cons.1 heq).2).symm

/-! ## Splitting at every separator -/

theorem notMem_of_mem_splitOn {c : Char} : ∀ {s part : Str}, part ∈ s.splitOn c → c ∉ part
  | [], part, h => by
    rw [List.splitOn_nil, List.mem_singleton] at h
    simp [h]
  | d :: s, part, h => by
    have ih : ∀ {part : Str}, part ∈ s.splitOn c → c ∉ part := notMem_of_mem_splitOn
    rw [List.splitOn_cons_eq_if_modifyHead] at h
    split at h
    · rcases List.mem_cons.1 h with rfl | h
      · simp
      · exact ih h
    · rename_i hc
      obtain ⟨v, vs, hvs⟩ := List.exists_cons_of_ne_nil (List.splitOn_ne_nil c s)
      rw [hvs] at h ih
      rcases List.mem_cons.1 h with rfl | h
      · have := ih List.mem_cons_self
        simp only [beq_iff_eq] at hc
        simp [this, Ne.symm hc]
      · exact ih (List.mem_cons_of_mem _ h)

/-- Joined by a separator. -/
def join (c : Char) (parts : List Str) : Str := [c].intercalate parts

theorem join_cons_cons (c : Char) (p q : Str) (parts : List Str) :
    join c (p :: q :: parts) = p ++ c :: join c (q :: parts) := by
  simp [join, List.intercalate]

theorem join_cons (c : Char) (p : Str) (parts : List Str) :
    join c (p :: parts) = p ++ parts.flatMap (c :: ·) := by
  induction parts generalizing p with
  | nil => simp [join]
  | cons q parts ih => rw [join_cons_cons, ih, List.flatMap_cons, List.cons_append]

theorem join_concat (c : Char) {parts : List Str} (hne : parts ≠ []) (p : Str) :
    join c (parts ++ [p]) = join c parts ++ c :: p := by
  obtain ⟨q, parts, rfl⟩ := List.exists_cons_of_ne_nil hne
  rw [List.cons_append, join_cons, join_cons, List.flatMap_append, List.append_assoc]
  simp

theorem join_append (c : Char) (parts : List Str) (p s : Str) :
    join c (parts ++ [p ++ s]) = join c (parts ++ [p]) ++ s := by
  by_cases hempty : parts = []
  · simp [hempty, join]
  · rw [join_concat c hempty, join_concat c hempty, List.append_assoc, List.cons_append]

theorem splitOn_join {c : Char} {parts : List Str} (h : ∀ p ∈ parts, c ∉ p) (hne : parts ≠ []) :
    (join c parts).splitOn c = parts :=
  List.splitOn_intercalate c h hne

theorem mem_join {c d : Char} {parts : List Str} (h : d ∈ join c parts) :
    d = c ∨ ∃ p ∈ parts, d ∈ p := by
  induction parts with
  | nil => simp [join] at h
  | cons p parts ih =>
    cases parts with
    | nil => exact Or.inr ⟨p, List.mem_cons_self, by simpa [join] using h⟩
    | cons q parts =>
      rw [join_cons_cons] at h
      rcases List.mem_append.1 h with h | h
      · exact Or.inr ⟨p, List.mem_cons_self, h⟩
      · rcases List.mem_cons.1 h with h | h
        · exact Or.inl h
        · exact (ih h).imp_right fun ⟨p', hp', hd⟩ => ⟨p', List.mem_cons_of_mem _ hp', hd⟩

theorem splitOn_append_cons (c : Char) (a b : Str) :
    (a ++ c :: b).splitOn c = a.splitOn c ++ b.splitOn c :=
  List.splitOnP_append_cons (p := (· == c)) a b (beq_self_eq_true c)

theorem splitOn_eq_singleton {c : Char} {s : Str} (h : c ∉ s) : s.splitOn c = [s] := by
  have hsplit := @splitOn_join c [s] (fun p hp => List.mem_singleton.1 hp ▸ h)
    (List.cons_ne_nil _ _)
  simpa [join] using hsplit

/-- Of parts that have separators of their own. -/
theorem splitOn_join_flatMap (c : Char) {parts : List Str} (hne : parts ≠ []) :
    (join c parts).splitOn c = parts.flatMap (·.splitOn c) := by
  induction parts with
  | nil => exact absurd rfl hne
  | cons p parts ih =>
    cases parts with
    | nil => simp [join]
    | cons q parts =>
      rw [join_cons_cons, splitOn_append_cons, ih (List.cons_ne_nil _ _)]
      rfl

/-! ## Named values -/

/-- What stands behind a beginning. -/
def after : Str → Str → Option Str
  | [], s => some s
  | c :: p, d :: s => if c = d then after p s else none
  | _ :: _, [] => none

@[simp] theorem after_append (p s : Str) : after p (p ++ s) = some s := by
  induction p with
  | nil => rfl
  | cons c p ih => simp [after, ih]

/-- `name=value`, one blank apart. -/
def named (fields : List (Str × Str)) : Str :=
    join ' ' (fields.map fun field => field.1 ++ '=' :: field.2)

/-- The values of these names. The last value goes up to the end. -/
def valuesOf : List Str → Str → Option (List Str)
  | [], _ => none
  | [name], s => (after (name ++ ['=']) s).map fun value => [value]
  | name :: names, s => do
    let s ← after (name ++ ['=']) s
    let (value, s) ← cut ' ' s
    let values ← valuesOf names s
    some (value :: values)

theorem valuesOf_named {fields : List (Str × Str)} (hne : fields ≠ [])
    (h : ∀ field ∈ fields.dropLast, ' ' ∉ field.2) :
    valuesOf (fields.map Prod.fst) (named fields) = some (fields.map Prod.snd) := by
  have hname : ∀ name value : Str, after (name ++ ['=']) (name ++ '=' :: value) = some value := by
    intro name value
    have happend := after_append (name ++ ['=']) value
    rwa [List.append_assoc] at happend
  induction fields with
  | nil => exact absurd rfl hne
  | cons field fields ih =>
    obtain ⟨name, value⟩ := field
    cases fields with
    | nil => simp [valuesOf, named, join, hname]
    | cons field' fields =>
      obtain ⟨hvalue, hrest⟩ := List.forall_mem_cons.1 h
      have hvalues := ih (List.cons_ne_nil _ _) hrest
      have hnamed : named ((name, value) :: field' :: fields) = name ++ '=' ::
          (value ++ ' ' :: named (field' :: fields)) := by
        simp [named, join_cons_cons]
      simp only [List.map_cons] at hvalues ⊢
      simp [valuesOf, hnamed, hname, cut_append hvalue, hvalues]

/-! ## Trimmed from parts -/

/-- Trimmed from where both ends come from. -/
theorem trimmed_append {a b : Str} {c : Char} (ha : Trimmed a) (hne : a ≠ [])
    (hb : Trimmed (c :: b)) : Trimmed (a ++ c :: b) := by
  rw [trimmed_iff] at ha hb ⊢
  rw [List.head?_append_of_ne_nil _ hne, List.getLast?_append_of_ne_nil _ (List.cons_ne_nil c b)]
  exact ⟨ha.1, hb.2⟩

theorem trimmed_cons {a : Str} {c : Char} (hc : isSpace c = false) (ha : Trimmed a) :
    Trimmed (c :: a) := by
  rw [trimmed_iff] at ha ⊢
  refine ⟨by simpa using hc, fun d hd => ?_⟩
  rw [List.getLast?_cons] at hd
  cases h : a.getLast? with
  | none =>
    rw [h] at hd
    cases hd
    exact hc
  | some e =>
    rw [h] at hd
    cases hd
    exact ha.2 e h

theorem trimmed_of_forall {a : Str} (h : ∀ c ∈ a, isSpace c = false) : Trimmed a :=
  trimmed_iff.2 ⟨fun c hc => h c (List.mem_of_mem_head? hc), fun c hc =>
    h c (List.mem_of_mem_getLast? hc)⟩

theorem trimmed_join {c : Char} (hc : isSpace c = false) {parts : List Str}
    (h : ∀ p ∈ parts, Trimmed p ∧ p ≠ []) :
    Trimmed (join c parts) := by
  induction parts with
  | nil => exact trimmed_of_forall (by simp [join])
  | cons p parts ih =>
    obtain ⟨hp, hne⟩ := h p List.mem_cons_self
    cases parts with
    | nil => simpa [join] using hp
    | cons q parts =>
      rw [join_cons_cons]
      exact trimmed_append hp hne (trimmed_cons hc (ih fun p hp => h p (List.mem_cons_of_mem _ hp)))

/-! ## Integers -/

/-- What `int` of a string depends on: the decimal digits of the interpreter's Unicode version, and
`sys.set_int_max_str_digits`, which is off or not below its threshold. -/
structure Numerals where
  decimal : Char → Option Nat
  decimal_ascii : ∀ c, c.toNat < 128 → decimal c = if c.isDigit then some (c.toNat - 48) else none
  maxDigits : Nat
  threshold : maxDigits = 0 ∨ 640 ≤ maxDigits

/-- The blanks that `int` passes over: of the ASCII ones, only those of C. -/
def isIntSpace (c : Char) : Bool := (9 ≤ c.toNat && c.toNat ≤ 13) || c.toNat == 32 ||
    (128 ≤ c.toNat && isSpace c)

namespace Numerals

variable (numerals : Numerals)

/-- Whether that many digits are converted. -/
def Converts (digits : Nat) : Prop := numerals.maxDigits = 0 ∨ digits ≤ numerals.maxDigits

instance (digits : Nat) : Decidable (numerals.Converts digits) :=
  inferInstanceAs (Decidable (numerals.maxDigits = 0 ∨ digits ≤ numerals.maxDigits))

/-- Digits in groups, a single underscore between two groups. -/
def digits (s : Str) : Option Nat :=
  let groups := s.splitOn '_'
  if groups.any List.isEmpty then none
  else
    match groups.flatten.mapM numerals.decimal with
    | none => none
    | some ds =>
      if numerals.Converts ds.length then some (ds.foldl (fun value d => 10 * value + d) 0)
        else none

/-- `int(s)`; nothing stands for a `ValueError`. -/
def int (s : Str) : Option Int :=
  match stripOf isIntSpace s with
  | '+' :: ds => (numerals.digits ds).map Int.ofNat
  | '-' :: ds => (numerals.digits ds).map fun (n : Nat) => -(n : Int)
  | ds => (numerals.digits ds).map Int.ofNat

/-- `str(n)`; nothing stands for the `ValueError` of too many digits. -/
def str (n : Int) : Option Str :=
  let ds := Nat.toDigits 10 n.natAbs
  if numerals.Converts ds.length then some (if n < 0 then '-' :: ds else ds) else none

/-- Of the characters beyond ASCII none is a digit. -/
def plain : Numerals where
  decimal := fun c => if c.isDigit then some (c.toNat - 48) else none
  decimal_ascii := fun _ _ => rfl
  maxDigits := 4300
  threshold := Or.inr (by decide)

theorem converts_of_le {digits : Nat} (h : digits ≤ 640) : numerals.Converts digits :=
  numerals.threshold.imp id fun hlimit => h.trans hlimit

theorem isDigit_bounds {c : Char} (h : c.isDigit = true) : 48 ≤ c.toNat ∧ c.toNat ≤ 57 := by
  simp only [Char.isDigit, Bool.and_eq_true, decide_eq_true_eq, ge_iff_le, UInt32.le_iff_toNat_le]
    at h
  exact h

theorem decimal_of_isDigit {c : Char} (h : c.isDigit = true) :
    numerals.decimal c = some (c.toNat - 48) := by
  have hbounds := isDigit_bounds h
  rw [numerals.decimal_ascii c (by omega), if_pos h]

theorem isSpace_of_isDigit {c : Char} (h : c.isDigit = true) : isSpace c = false := by
  have hbounds := isDigit_bounds h
  simp [isSpace]
  omega

theorem isIntSpace_of_isDigit {c : Char} (h : c.isDigit = true) : isIntSpace c = false := by
  have hbounds := isDigit_bounds h
  simp [isIntSpace]
  omega

theorem mapM_decimal {ds : Str} (h : ∀ c ∈ ds, c.isDigit = true) :
    ds.mapM numerals.decimal = some (ds.map fun c => c.toNat - 48) := by
  induction ds with
  | nil => rfl
  | cons c ds ih =>
    have hc := numerals.decimal_of_isDigit (h c List.mem_cons_self)
    have hds := ih fun c hmem => h c (List.mem_cons_of_mem _ hmem)
    simp [List.mapM_cons, hc, hds]

theorem isDigit_of_mem_toDigits {c : Char} {n : Nat} (h : c ∈ Nat.toDigits 10 n) :
    c.isDigit = true :=
  Nat.isDigit_of_mem_toDigits (by decide) (by decide) h

theorem digits_toDigits (n : Nat) :
    numerals.digits (Nat.toDigits 10 n) =
      if numerals.Converts (Nat.toDigits 10 n).length then some n else none := by
  have hgroups : (Nat.toDigits 10 n).splitOn '_' = [Nat.toDigits 10 n] :=
    List.splitOn_eq_singleton Nat.underscore_not_in_toDigits
  have hne : (Nat.toDigits 10 n).isEmpty = false := by simp [Nat.toDigits_ne_nil]
  have hds := numerals.mapM_decimal fun c hc => isDigit_of_mem_toDigits (n := n) hc
  have hvalue : ((Nat.toDigits 10 n).map fun c => c.toNat - 48).foldl
      (fun value d => 10 * value + d) 0 = n := by
    rw [List.foldl_map]
    exact Nat.ofDigitChars_ten_toDigits
  simp [digits, hgroups, hne, hds, hvalue]

/-- Nothing to strip from a number. -/
theorem stripOf_toDigits (n : Nat) (sign : Str) (hsign : ∀ c ∈ sign, c = '-') :
    stripOf isIntSpace (sign ++ Nat.toDigits 10 n) = sign ++ Nat.toDigits 10 n := by
  have hnospace : ∀ c ∈ sign ++ Nat.toDigits 10 n, isIntSpace c = false := by
    intro c hc
    rcases List.mem_append.1 hc with hc | hc
    · rw [hsign c hc]
      decide
    · exact isIntSpace_of_isDigit (isDigit_of_mem_toDigits hc)
  rw [stripOf_eq_self_iff]
  exact ⟨fun c hc => hnospace c (List.mem_of_mem_head? hc), fun c hc =>
    hnospace c (List.mem_of_mem_getLast? hc)⟩

theorem int_toDigits {n : Nat} (h : numerals.Converts (Nat.toDigits 10 n).length) :
    numerals.int (Nat.toDigits 10 n) = some (n : Int) := by
  obtain ⟨d, ds, hds⟩ := List.exists_cons_of_ne_nil (Nat.toDigits_ne_nil (n := n) (b := 10))
  have hd : d.isDigit = true := isDigit_of_mem_toDigits (n := n) (by simp [hds])
  have hdigits := numerals.digits_toDigits n
  have hstrip := stripOf_toDigits n [] (by simp)
  rw [List.nil_append] at hstrip
  rw [if_pos h] at hdigits
  rw [int, hstrip, hds]
  rw [hds] at hdigits
  split
  · rename_i heq
    cases heq
    exact absurd hd (by decide)
  · rename_i heq
    cases heq
    exact absurd hd (by decide)
  · simp [hdigits]

theorem str_eq_some_iff {n : Int} {s : Str} :
    numerals.str n = some s ↔ numerals.Converts (Nat.toDigits 10 n.natAbs).length ∧
      (if n < 0 then '-' :: Nat.toDigits 10 n.natAbs else Nat.toDigits 10 n.natAbs) = s := by
  simp only [str]
  by_cases h : numerals.Converts (Nat.toDigits 10 n.natAbs).length <;> simp [h]

/-- **What `str` writes, `int` reads.** -/
theorem int_of_str {n : Int} {s : Str} (h : numerals.str n = some s) : numerals.int s = some n := by
  obtain ⟨hconverts, rfl⟩ := numerals.str_eq_some_iff.1 h
  by_cases hneg : n < 0
  · have hstrip := stripOf_toDigits n.natAbs ['-'] (by simp)
    have hvalue : -(n.natAbs : Int) = n := by omega
    rw [List.singleton_append] at hstrip
    rw [if_pos hneg, int, hstrip]
    simp only [digits_toDigits, hconverts, if_true, Option.map_some, hvalue]
  · have hvalue : (n.natAbs : Int) = n := by omega
    rw [if_neg hneg, numerals.int_toDigits hconverts, hvalue]

theorem mem_str {n : Int} {s : Str} (h : numerals.str n = some s) {c : Char} (hc : c ∈ s) :
    c = '-' ∨ c.isDigit = true := by
  obtain ⟨-, rfl⟩ := numerals.str_eq_some_iff.1 h
  split at hc
  · rcases List.mem_cons.1 hc with rfl | hc
    · exact Or.inl rfl
    · exact Or.inr (isDigit_of_mem_toDigits hc)
  · exact Or.inr (isDigit_of_mem_toDigits hc)

end Numerals

end Text
