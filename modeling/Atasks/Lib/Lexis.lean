import Atasks.Lib.Text
import Mathlib.Data.List.Infix
import Mathlib.Tactic.Ring
/-!
# Names, lines and string literals of Python

What a program text is made of, as far as a generator of programs needs it: identifiers,
physical lines, the encoding that they declare, and string literals, written by `repr` and read
back.

Which characters beyond ASCII belong to a name, and which are printed as they are, is in the
interpreter's Unicode tables (`Charset`). `readLiteral` reads the literals of one line without a
prefix, with the escapes of which each stands for one given character; it reads no others
(triple quotes, octal escapes, names of characters).
-/

namespace Lexis

open Text (Str)

/-- The interpreter's Unicode tables. -/
structure Charset where
  idStart : Char → Bool
  idContinue : Char → Bool
  printable : Char → Bool
  idContinue_of_idStart : ∀ c, idStart c = true → idContinue c = true
  idStart_ascii : ∀ c, c.toNat < 128 → idStart c = (c.isAlpha || c == '_')
  idContinue_ascii : ∀ c, c.toNat < 128 → idContinue c = (c.isAlphanum || c == '_')
  printable_ascii : ∀ c, c.toNat < 128 → printable c = decide (32 ≤ c.toNat ∧ c.toNat < 127)

/-- Of the characters beyond ASCII none is in a name or printable. -/
def Charset.plain : Charset where
  idStart := fun c => c.isAlpha || c == '_'
  idContinue := fun c => c.isAlphanum || c == '_'
  printable := fun c => decide (32 ≤ c.toNat ∧ c.toNat < 127)
  idContinue_of_idStart := by
    intro c h
    simp only [Char.isAlphanum, Bool.or_eq_true] at h ⊢
    exact h.imp_left Or.inl
  idStart_ascii := fun _ _ => rfl
  idContinue_ascii := fun _ _ => rfl
  printable_ascii := fun _ _ => rfl

def backslash : Char := Char.ofNat 92
def apostrophe : Char := Char.ofNat 39
def quotation : Char := Char.ofNat 34
def nul : Char := Char.ofNat 0

/-- Without the control characters of ASCII, line breaks among them. -/
def NoControl (s : Str) : Prop := ∀ c ∈ s, 32 ≤ c.toNat

instance (s : Str) : Decidable (NoControl s) := List.decidableBAll _ s

def Ascii (s : Str) : Prop := ∀ c ∈ s, c.toNat < 128

instance (s : Str) : Decidable (Ascii s) := List.decidableBAll _ s

theorem NoControl.append {a b : Str} (ha : NoControl a) (hb : NoControl b) :
    NoControl (a ++ b) := List.forall_mem_append.2 ⟨ha, hb⟩

theorem NoControl.notMem {s : Str} (h : NoControl s) {c : Char} (hc : c.toNat < 32) : c ∉ s := by
  intro hmem
  have := h c hmem
  omega

/-! ## Lines -/

/-- Every line break as a line feed. -/
def universal : Str → Str
  | [] => []
  | c :: rest =>
    if c = '\r' then
      if rest.head? = some '\n' then universal rest else '\n' :: universal rest
    else c :: universal rest

/-- The physical lines. -/
def lines (text : Str) : List Str := (universal text).splitOn '\n'

/-- A line with nothing on it, or a comment only. -/
def skippable (line : Str) : Bool :=
  match line.dropWhile fun c => c = ' ' || c = '\t' || c = Char.ofNat 12 with
  | [] => true
  | c :: _ => c = '#'

section lines

variable {line text : Str}

theorem universal_of_notMem (h : '\r' ∉ text) : universal text = text := by
  induction text with
  | nil => rfl
  | cons c text ih =>
    obtain ⟨hc, htext⟩ := not_or.1 (mt List.mem_cons.2 h)
    simp [universal, Ne.symm hc, ih htext]

/-- A line feed behind a carriage return belongs to it. -/
theorem universal_append_newline (text text' : Str) :
    universal (text ++ '\n' :: text') = universal text ++ '\n' :: universal text' ∨
      universal (text ++ '\n' :: text') = universal text ++ universal text' ∧ ∃ before,
      universal text = before ++ ['\n'] := by
  induction text with
  | nil => exact Or.inl (by simp [universal])
  | cons c text ih =>
    by_cases hc : c = '\r'
    · subst hc
      cases text with
      | nil =>
        refine Or.inr ⟨by simp [universal], [], by simp [universal]⟩
      | cons d text =>
        by_cases hd : d = '\n'
        · have hdrop : ∀ rest, universal ('\r' :: d :: rest) = universal (d :: rest) := by
            intro rest
            simp [universal, hd]
          rw [List.cons_append, List.cons_append, hdrop, hdrop]
          exact ih
        · have hkeep : ∀ rest, universal ('\r' :: d :: rest) = '\n' :: universal (d :: rest) := by
            intro rest
            rw [universal, if_pos rfl, if_neg (by simp [hd])]
          rw [List.cons_append, List.cons_append, hkeep, hkeep]
          rcases ih with ih | ⟨ih, before, hbefore⟩
          · rw [List.cons_append] at ih
            exact Or.inl (by rw [ih]; rfl)
          · rw [List.cons_append] at ih
            exact Or.inr ⟨by rw [ih]; rfl, '\n' :: before, by rw [hbefore]; rfl⟩
    · have hkeep : ∀ rest, universal (c :: rest) = c :: universal rest := by
        intro rest
        simp [universal, hc]
      rw [List.cons_append, hkeep, hkeep]
      rcases ih with ih | ⟨ih, before, hbefore⟩
      · exact Or.inl (by rw [ih]; rfl)
      · exact Or.inr ⟨by rw [ih]; rfl, c :: before, by rw [hbefore]; rfl⟩

/-- The lines of a text up to a line feed, and those behind it; between a carriage return and
its line feed there is no line. -/
theorem lines_append_newline (text text' : Str) :
    ∃ before, lines (text ++ '\n' :: text') = before ++ lines text' ∧ ∀ line ∈ before,
    line ∈ lines text := by
  simp only [lines]
  rcases universal_append_newline text text' with h | ⟨h, before, hbefore⟩
  · rw [h, List.splitOn_append_cons_self]
    exact ⟨_, rfl, fun line hline => hline⟩
  · rw [h, hbefore, List.append_assoc, List.singleton_append, List.splitOn_append_cons_self,
      List.splitOn_append_cons_self]
    exact ⟨_, rfl, fun line hline => List.mem_append_left _ hline⟩

theorem lines_eq_singleton (hcr : '\r' ∉ line) (hlf : '\n' ∉ line) : lines line = [line] := by
  rw [lines, universal_of_notMem hcr, List.splitOn_eq_singleton hlf]

/-- Lines, each with its line feed. -/
def unlines (ls : List Str) : Str := ls.flatMap (· ++ ['\n'])

theorem join_newline {ls : List Str} (h : ls ≠ []) : Text.join '\n' ls ++ ['\n'] = unlines ls := by
  induction ls with
  | nil => exact absurd rfl h
  | cons l ls ih =>
    cases ls with
    | nil => simp [Text.join, unlines]
    | cons l' ls =>
      rw [Text.join_cons_cons, List.append_assoc, List.cons_append, ih (List.cons_ne_nil _ _)]
      simp [unlines]

theorem unlines_append (ls ls' : List Str) :
    unlines (ls ++ ls') = unlines ls ++ unlines ls' := List.flatMap_append

theorem mem_unlines {ls : List Str} {c : Char} (hc : c ≠ '\n') :
    c ∈ unlines ls ↔ ∃ l ∈ ls, c ∈ l := by
  simp [unlines, List.mem_flatMap, hc]

/-- A line without a break in it. -/
def NoBreak (line : Str) : Prop := '\r' ∉ line ∧ '\n' ∉ line

instance (line : Str) : Decidable (NoBreak line) := inferInstanceAs (Decidable (_ ∧ _))

theorem NoControl.noBreak (h : NoControl line) :
    NoBreak line := ⟨h.notMem (by decide), h.notMem (by decide)⟩

theorem splitOn_unlines {ls : List Str} (h : ∀ l ∈ ls, NoBreak l) :
    (unlines ls).splitOn '\n' = ls ++ [[]] := by
  induction ls with
  | nil => rfl
  | cons l ls ih =>
    have hfirst : unlines (l :: ls) = l ++ '\n' :: unlines ls := by simp [unlines]
    rw [hfirst, List.splitOn_append_cons_self_of_not_mem (h l List.mem_cons_self).2,
      ih fun l hl => h l (List.mem_cons_of_mem _ hl)]
    rfl

theorem lines_unlines {ls : List Str} (h : ∀ l ∈ ls, NoBreak l) :
    lines (unlines ls) = ls ++ [[]] := by
  have hcr : '\r' ∉ unlines ls := by
    rw [mem_unlines (by decide)]
    rintro ⟨l, hl, hmem⟩
    exact (h l hl).1 hmem
  rw [lines, universal_of_notMem hcr, splitOn_unlines h]

/-- Nothing comes of lines that hold only comments. -/
theorem lines_unlines_skippable {ls : List Str}
    (h : ∀ l ∈ ls, ∀ line ∈ lines l, skippable line = true) (text : Str) :
    ∃ before, lines (unlines ls ++ text) = before ++ lines text ∧ ∀ line ∈ before,
    skippable line = true := by
  induction ls with
  | nil => exact ⟨[], rfl, by simp⟩
  | cons l ls ih =>
    have hfirst : unlines (l :: ls) ++ text = l ++ '\n' :: (unlines ls ++ text) := by simp [unlines]
    obtain ⟨before, hbefore, hmem⟩ := lines_append_newline l (unlines ls ++ text)
    obtain ⟨rest, hrest, hskip⟩ := ih fun l hl => h l (List.mem_cons_of_mem _ hl)
    refine ⟨before ++ rest, ?_, fun line hline => ?_⟩
    · rw [hfirst, hbefore, hrest, List.append_assoc]
    · rcases List.mem_append.1 hline with hline | hline
      · exact h l List.mem_cons_self line (hmem line hline)
      · exact hskip line hline

theorem skippable_comment : skippable ('#' :: line) = true := rfl

end lines

/-! ## The encoding of a file -/

/-- The name of an encoding consists of these. -/
def inEncoding (c : Char) : Bool := c.isAlphanum || c = '-' || c = '_' || c = '.'

/-- What declares an encoding: `coding`, a colon or an equals sign, and the name. -/
def declaration (text : Str) : Bool :=
  ("coding:".toList.isPrefixOf text || "coding=".toList.isPrefixOf text) &&
    ((text.drop 7).dropWhile fun c => c = ' ' || c = '\t').head?.any inEncoding

/-- A comment in one of the first two lines declares an encoding; in the second only behind a
comment or a blank line. -/
def declaresEncoding (text : Str) : Bool :=
  (((lines text).takeWhile skippable).take 2).any fun line => line.tails.any declaration

/-- Nothing that could begin a declaration. -/
def NoCoding (text : Str) : Prop := ¬ "coding:".toList <:+: text ∧ ¬ "coding=".toList <:+: text

instance (text : Str) : Decidable (NoCoding text) := inferInstanceAs (Decidable (_ ∧ _))

section encoding

variable {text : Str}

theorem infix_of_append_left {α : Type*} {c : α} {word before text : List α}
    (hhead : word.head? = some c) (hc : c ∉ before) (h : word <:+: before ++ text) :
    word <:+: text := by
  obtain ⟨rest, rfl⟩ := List.head?_eq_some_iff.1 hhead
  induction before with
  | nil => exact h
  | cons d before ih =>
    obtain ⟨hne, hbefore⟩ := not_or.1 (mt List.mem_cons.2 hc)
    rcases List.infix_cons_iff.1 h with hprefix | hwithin
    · exact absurd (List.cons_prefix_cons.1 hprefix).1 hne
    · exact ih hbefore hwithin

theorem infix_of_append_right {α : Type*} {c : α} {word text behind : List α}
    (hlast : word.getLast? = some c) (hc : c ∉ behind) (h : word <:+: text ++ behind) :
    word <:+: text := by
  rw [← List.reverse_infix] at h ⊢
  rw [List.reverse_append] at h
  exact infix_of_append_left (by simpa using hlast) (by simpa using hc) h

theorem noCoding_of_notMem (hcolon : ':' ∉ text) (hequals : '=' ∉ text) : NoCoding text :=
  ⟨fun hwithin => hcolon (hwithin.subset (by decide)), fun hwithin =>
    hequals (hwithin.subset (by decide))⟩

/-- A frame that begins and ends no such word leaves it to the text inside. -/
theorem NoCoding.frame (h : NoCoding text) {before behind : Str} (hbefore : 'c' ∉ before)
    (hcolon : ':' ∉ behind) (hequals : '=' ∉ behind) : NoCoding (before ++ text ++ behind) := by
  refine ⟨fun hwithin => h.1 ?_, fun hwithin => h.2 ?_⟩
  · exact infix_of_append_left (by decide) hbefore (infix_of_append_right (by decide) hcolon hwithin)
  · exact infix_of_append_left (by decide) hbefore
      (infix_of_append_right (by decide) hequals hwithin)

theorem no_declaration (h : NoCoding text) : text.tails.any declaration = false := by
  rw [List.any_eq_false]
  intro tail htail hdeclares
  have hsuffix := (List.mem_tails tail text).1 htail
  rcases Bool.or_eq_true_iff.1 (Bool.and_eq_true_iff.1 hdeclares).1 with hprefix | hprefix
  · exact h.1 ((List.isPrefixOf_iff_prefix.1 hprefix).isInfix.trans hsuffix.isInfix)
  · exact h.2 ((List.isPrefixOf_iff_prefix.1 hprefix).isInfix.trans hsuffix.isInfix)

theorem not_declaresEncoding (h : ∀ line ∈ (lines text).take 2, NoCoding line) :
    declaresEncoding text = false := by
  rw [declaresEncoding, List.any_eq_false]
  intro line hline
  rw [no_declaration (h line ?_)]
  · decide
  · exact ((List.takeWhile_prefix skippable).take 2).subset hline

end encoding

/-! ## Names -/

/-- `keyword.kwlist`. -/
def keywords : List Str :=
  ["False", "None", "True", "and", "as", "assert", "async", "await", "break", "class", "continue",
    "def", "del", "elif", "else",
    "except", "finally", "for", "from", "global", "if", "import", "in", "is", "lambda", "nonlocal",
      "not", "or", "pass", "raise",
    "return", "try", "while", "with", "yield"].map String.toList

namespace Charset

variable (charset : Charset)

/-- `str.isidentifier`. -/
def isIdentifier : Str → Bool
  | [] => false
  | c :: rest => charset.idStart c && rest.all charset.idContinue

/-- The name a text begins with, and what stands behind it. -/
def readName (text : Str) : Str × Str :=
    (text.takeWhile charset.idContinue, text.dropWhile charset.idContinue)

variable {charset} {name : Str}

theorem idContinue_of_mem (h : charset.isIdentifier name = true) {c : Char} (hc : c ∈ name) :
    charset.idContinue c = true := by
  cases name with
  | nil => cases hc
  | cons d rest =>
    obtain ⟨hd, hrest⟩ := Bool.and_eq_true_iff.1 h
    rcases List.mem_cons.1 hc with rfl | hc
    · exact charset.idContinue_of_idStart c hd
    · exact List.all_eq_true.1 hrest c hc

/-- On ASCII the tables agree. -/
theorem isIdentifier_of_ascii (hascii : Ascii name) (h : plain.isIdentifier name = true) :
    charset.isIdentifier name = true := by
  cases name with
  | nil => exact h
  | cons c rest =>
    obtain ⟨hc, hrest⟩ := Bool.and_eq_true_iff.1 h
    rw [isIdentifier, Bool.and_eq_true_iff, charset.idStart_ascii c (hascii c List.mem_cons_self)]
    refine ⟨hc, List.all_eq_true.2 fun d hd => ?_⟩
    rw [charset.idContinue_ascii d (hascii d (List.mem_cons_of_mem c hd))]
    exact List.all_eq_true.1 hrest d hd

theorem not_control_of_isAlphanum {c : Char} (h : (c.isAlphanum || c == '_') = true) :
    32 ≤ c.toNat := by
  by_contra hcontrol
  have hcodes : ∀ n < 32, ((Char.ofNat n).isAlphanum || Char.ofNat n == '_') = false := by decide
  have hc := hcodes c.toNat (by omega)
  rw [Char.ofNat_toNat, h] at hc
  cases hc

theorem noControl_identifier (h : charset.isIdentifier name = true) : NoControl name := by
  intro c hc
  by_contra hcontrol
  have hcontinue := idContinue_of_mem h hc
  rw [charset.idContinue_ascii c (by omega)] at hcontinue
  exact hcontrol (not_control_of_isAlphanum hcontinue)

/-- A line that begins with a name holds more than a comment. -/
theorem skippable_identifier (h : charset.isIdentifier name = true) (text : Str) :
    skippable (name ++ text) = false := by
  cases name with
  | nil => cases h
  | cons c rest =>
    obtain ⟨hc, -⟩ := Bool.and_eq_true_iff.1 h
    have hne : ∀ d : Char, d.toNat < 128 → (d.isAlpha || d == '_') = false → c ≠ d := by
      rintro d hascii hd rfl
      rw [charset.idStart_ascii c hascii, hd] at hc
      cases hc
    have hspace : c ≠ ' ' := hne _ (by decide) (by decide)
    have htab : c ≠ '\t' := hne _ (by decide) (by decide)
    have hfeed : c ≠ Char.ofNat 12 := hne _ (by decide) (by decide)
    have hcomment : c ≠ '#' := hne _ (by decide) (by decide)
    simp [skippable, hspace, htab, hfeed, hcomment]

theorem readName_append (h : charset.isIdentifier name = true) {text : Str}
    (htext : ∀ c ∈ text.head?, charset.idContinue c = false) :
    charset.readName (name ++ text) = (name, text) := by
  rw [readName, List.takeWhile_append_of_pos fun d hd => idContinue_of_mem h hd,
    List.dropWhile_append_of_pos fun d hd => idContinue_of_mem h hd]
  cases text with
  | nil => simp
  | cons c rest => simp [htext c rfl]

end Charset

/-! ## String literals -/

def hexDigit (d : Nat) : Char := if d < 10 then Char.ofNat (48 + d) else Char.ofNat (87 + d)

/-- A number below `16 ^ width`, in that many digits. -/
def hexDigits : Nat → Nat → Str
  | 0, _ => []
  | width + 1, n => hexDigit (n / 16 ^ width) :: hexDigits width (n % 16 ^ width)

def hexValue (c : Char) : Option Nat :=
  if '0' ≤ c ∧ c ≤ '9' then some (c.toNat - 48)
  else if 'a' ≤ c ∧ c ≤ 'f' then some (c.toNat - 87)
  else if 'A' ≤ c ∧ c ≤ 'F' then some (c.toNat - 55)
  else none

/-- The escapes of one letter, with the characters they stand for. -/
def escapes : List (Char × Char) :=
  [(backslash, backslash), (apostrophe, apostrophe), (quotation, quotation), ('n', '\n'),
    ('r', '\r'), ('t', '\t'),
    ('a', Char.ofNat 7), ('b', Char.ofNat 8), ('f', Char.ofNat 12), ('v', Char.ofNat 11)]

/-- One character between the quotes of `repr`. -/
def escape (charset : Charset) (quote c : Char) : Str :=
  if c = quote ∨ c = backslash then [backslash, c]
  else if c = '\t' then [backslash, 't']
  else if c = '\n' then [backslash, 'n']
  else if c = '\r' then [backslash, 'r']
  else if charset.printable c then [c]
  else if c.toNat < 256 then backslash :: 'x' :: hexDigits 2 c.toNat
  else if c.toNat < 65536 then backslash :: 'u' :: hexDigits 4 c.toNat
  else backslash :: 'U' :: hexDigits 8 c.toNat

/-- Apostrophes, unless there is one to print and no quotation mark. -/
def quoteOf (s : Str) : Char := if apostrophe ∈ s ∧ quotation ∉ s then quotation else apostrophe

/-- `repr` of a string. -/
def repr (charset : Charset) (s : Str) : Str :=
    quoteOf s :: s.flatMap (escape charset (quoteOf s)) ++ [quoteOf s]

/-- Where a reader stands in a literal: before a character, behind a backslash, or before the
last `left + 1` digits of a code. -/
inductive Mode
  | character
  | escape
  | code (left value : Nat)

def push (c : Char) : Option (Str × Str) → Option (Str × Str) :=
    Option.map fun (read : Str × Str) => (c :: read.1, read.2)

/-- A literal up to its closing quote, with what stands behind it. -/
def readBody (quote : Char) : Mode → Str → Option (Str × Str)
  | _, [] => none
  | .character, c :: rest =>
    if c = quote then some ([], rest)
    else if c = '\n' ∨ c = '\r' then none
    else if c = backslash then readBody quote .escape rest
    else push c (readBody quote .character rest)
  | .escape, c :: rest =>
    if c = 'x' then readBody quote (.code 1 0) rest
    else if c = 'u' then readBody quote (.code 3 0) rest
    else if c = 'U' then readBody quote (.code 7 0) rest
    else
      match escapes.lookup c with
      | some d => push d (readBody quote .character rest)
      | none => none
  | .code left value, c :: rest =>
    match hexValue c with
    | none => none
    | some d =>
      match left with
      | 0 =>
        if (16 * value + d).isValidChar then push (Char.ofNat (16 * value + d))
          (readBody quote .character rest) else none
      | left + 1 => readBody quote (.code left (16 * value + d)) rest

def readLiteral : Str → Option (Str × Str)
  | [] => none
  | c :: rest => if c = apostrophe ∨ c = quotation then readBody c .character rest else none

section literal

variable {charset : Charset} {quote c : Char} {s rest : Str}

theorem hexValue_hexDigit : ∀ d, d < 16 → hexValue (hexDigit d) = some d := by decide

/-- A code is read to its end: with the digits read before, it is the character's. -/
theorem readBody_hexDigits {left value n : Nat} (hn : n < 16 ^ (left + 1))
    (hc : value * 16 ^ (left + 1) + n = c.toNat) :
    readBody quote (.code left value) (hexDigits (left + 1) n ++ rest) =
      push c (readBody quote .character rest) := by
  induction left generalizing value n with
  | zero =>
    rw [zero_add, pow_one] at hn hc
    have hvalid : c.toNat.isValidChar := c.valid
    have hcode : 16 * value + n = c.toNat := by omega
    simp [hexDigits, readBody, hexValue_hexDigit n hn, hcode, hvalid]
  | succ left ih =>
    have hpos : 0 < 16 ^ (left + 1) := Nat.pow_pos (by decide)
    have hdiv : n / 16 ^ (left + 1) < 16 := by
      rw [Nat.div_lt_iff_lt_mul hpos, mul_comm, ← pow_succ]
      exact hn
    have hcode : (16 * value + n / 16 ^ (left + 1)) * 16 ^ (left + 1) + n % 16 ^ (left + 1) =
        c.toNat := by
      calc (16 * value + n / 16 ^ (left + 1)) * 16 ^ (left + 1) + n % 16 ^ (left + 1)
          = value * 16 ^ (left + 1 + 1) +
              (16 ^ (left + 1) * (n / 16 ^ (left + 1)) + n % 16 ^ (left + 1)) := by
            ring
        _ = value * 16 ^ (left + 1 + 1) + n := by rw [Nat.div_add_mod]
        _ = c.toNat := hc
    simp only [hexDigits, List.cons_append, readBody, hexValue_hexDigit _ hdiv]
    exact ih (Nat.mod_lt _ hpos) hcode

theorem toNat_lt (c : Char) : c.toNat < 16 ^ 8 := c.val.toNat_lt

theorem lookup_escapes {d : Char} (h : escapes.lookup c = some d) (hx : c ≠ 'x') (hu : c ≠ 'u')
    (hU : c ≠ 'U') :
    readBody quote .escape (c :: rest) = push d (readBody quote .character rest) := by
  simp [readBody, hx, hu, hU, h]

/-- Any of the three codes. -/
theorem readBody_code {letter : Char} {left : Nat}
    (hletter : (letter, left) ∈ [('x', 1), ('u', 3), ('U', 7)]) (hc : c.toNat < 16 ^ (left + 1)) :
    readBody quote .escape (letter :: hexDigits (left + 1) c.toNat ++ rest) =
      push c (readBody quote .character rest) := by
  have hread : readBody quote (.code left 0) (hexDigits (left + 1) c.toNat ++ rest) = push c
      (readBody quote .character rest) :=
    readBody_hexDigits hc (by simp)
  simp only [List.mem_cons, Prod.mk.injEq, List.not_mem_nil, or_false] at hletter
  rcases hletter with ⟨rfl, rfl⟩ | ⟨rfl, rfl⟩ | ⟨rfl, rfl⟩ <;> simpa [readBody] using hread

theorem readBody_escape (hquote : quote = apostrophe ∨ quote = quotation) :
    readBody quote .character (escape charset quote c ++ rest) =
      push c (readBody quote .character rest) := by
  have hslash : ∀ text, readBody quote .character (backslash :: text) =
      readBody quote .escape text := by
    intro text
    rcases hquote with rfl | rfl <;> rfl
  unfold escape
  split_ifs with hself ht hn hr hprintable hbyte hplane
  · have hlookup : escapes.lookup c = some c ∧ c ≠ 'x' ∧ c ≠ 'u' ∧ c ≠ 'U' := by
      rcases hself with rfl | rfl
      · rcases hquote with rfl | rfl <;> decide
      · decide
    rw [List.cons_append, hslash]
    exact lookup_escapes hlookup.1 hlookup.2.1 hlookup.2.2.1 hlookup.2.2.2
  · rw [List.cons_append, hslash, ht]
    exact lookup_escapes (by decide) (by decide) (by decide) (by decide)
  · rw [List.cons_append, hslash, hn]
    exact lookup_escapes (by decide) (by decide) (by decide) (by decide)
  · rw [List.cons_append, hslash, hr]
    exact lookup_escapes (by decide) (by decide) (by decide) (by decide)
  · obtain ⟨hq, hb⟩ := not_or.1 hself
    simp [readBody, hq, hb, hn, hr]
  · rw [List.cons_append, hslash]
    exact readBody_code (by simp) (by simpa using hbyte)
  · rw [List.cons_append, hslash]
    exact readBody_code (by simp) (by simpa using hplane)
  · rw [List.cons_append, hslash]
    exact readBody_code (by simp) (toNat_lt c)

theorem readBody_flatMap (hquote : quote = apostrophe ∨ quote = quotation) :
    readBody quote .character (s.flatMap (escape charset quote) ++ quote :: rest) =
      some (s, rest) := by
  induction s with
  | nil => simp [readBody]
  | cons c s ih =>
    rw [List.flatMap_cons, List.append_assoc, readBody_escape hquote, ih]
    rfl

theorem quoteOf_eq (s : Str) : quoteOf s = apostrophe ∨ quoteOf s = quotation := by
  unfold quoteOf
  split
  · exact Or.inr rfl
  · exact Or.inl rfl

/-- **`repr` of a string evaluates back to it.** -/
theorem readLiteral_repr : readLiteral (repr charset s ++ rest) = some (s, rest) := by
  rw [repr, List.cons_append, List.cons_append, readLiteral, if_pos (quoteOf_eq s),
    List.append_assoc]
  exact readBody_flatMap (quoteOf_eq s)

/-! ### What is printed -/

theorem printable_of_bounds {d : Char} (hlow : 32 ≤ d.toNat) (hhigh : d.toNat < 127) :
    charset.printable d = true := by
  rw [charset.printable_ascii d (by omega)]
  exact decide_eq_true ⟨hlow, hhigh⟩

theorem hexDigit_bounds :
    ∀ d, d < 16 → 32 ≤ (hexDigit d).toNat ∧ (hexDigit d).toNat < 127 := by decide

theorem printable_of_mem_hexDigits {width n : Nat} (hn : n < 16 ^ width) {d : Char}
    (hd : d ∈ hexDigits width n) :
    charset.printable d = true := by
  induction width generalizing n with
  | zero => cases hd
  | succ width ih =>
    have hpos : 0 < 16 ^ width := Nat.pow_pos (by decide)
    rcases List.mem_cons.1 hd with rfl | hd
    · have hdigit : n / 16 ^ width < 16 := by
        rw [Nat.div_lt_iff_lt_mul hpos, mul_comm, ← pow_succ]
        exact hn
      obtain ⟨hlow, hhigh⟩ := hexDigit_bounds _ hdigit
      exact printable_of_bounds hlow hhigh
    · exact ih (Nat.mod_lt _ hpos) hd

theorem printable_quote (hquote : quote = apostrophe ∨ quote = quotation) :
    charset.printable quote = true := by
  rcases hquote with rfl | rfl
  · exact printable_of_bounds (by decide) (by decide)
  · exact printable_of_bounds (by decide) (by decide)

theorem printable_backslash :
    charset.printable backslash = true := printable_of_bounds (by decide) (by decide)

theorem printable_of_mem_escape (hquote : quote = apostrophe ∨ quote = quotation) {d : Char}
    (hd : d ∈ escape charset quote c) :
    charset.printable d = true := by
  have hletter : ∀ letter ∈ ['t', 'n', 'r', 'x', 'u', 'U'], charset.printable letter = true := by
    intro letter hletter
    simp only [List.mem_cons, List.not_mem_nil, or_false] at hletter
    rcases hletter with rfl | rfl | rfl | rfl | rfl | rfl <;> exact printable_of_bounds
      (by decide) (by decide)
  unfold escape at hd
  split_ifs at hd with hself ht hn hr hprintable hbyte hplane
  · rcases hself with rfl | rfl
    · rcases List.mem_pair.1 hd with rfl | rfl
      · exact printable_backslash
      · exact printable_quote hquote
    · rcases List.mem_pair.1 hd with rfl | rfl <;> exact printable_backslash
  · rcases List.mem_pair.1 hd with rfl | rfl
    · exact printable_backslash
    · exact hletter _ (by simp)
  · rcases List.mem_pair.1 hd with rfl | rfl
    · exact printable_backslash
    · exact hletter _ (by simp)
  · rcases List.mem_pair.1 hd with rfl | rfl
    · exact printable_backslash
    · exact hletter _ (by simp)
  · rw [List.mem_singleton] at hd
    rw [hd]
    exact hprintable
  · rcases List.mem_cons.1 hd with rfl | hd
    · exact printable_backslash
    rcases List.mem_cons.1 hd with rfl | hd
    · exact hletter _ (by simp)
    · exact printable_of_mem_hexDigits (by simpa using hbyte) hd
  · rcases List.mem_cons.1 hd with rfl | hd
    · exact printable_backslash
    rcases List.mem_cons.1 hd with rfl | hd
    · exact hletter _ (by simp)
    · exact printable_of_mem_hexDigits (by simpa using hplane) hd
  · rcases List.mem_cons.1 hd with rfl | hd
    · exact printable_backslash
    rcases List.mem_cons.1 hd with rfl | hd
    · exact hletter _ (by simp)
    · exact printable_of_mem_hexDigits (toNat_lt c) hd

theorem printable_of_mem_repr {d : Char} (hd : d ∈ repr charset s) :
    charset.printable d = true := by
  have hquote : charset.printable (quoteOf s) = true := printable_quote (quoteOf_eq s)
  rw [repr] at hd
  rcases List.mem_append.1 hd with hd | hd
  · rcases List.mem_cons.1 hd with rfl | hd
    · exact hquote
    · obtain ⟨c, -, hd⟩ := List.mem_flatMap.1 hd
      exact printable_of_mem_escape (quoteOf_eq s) hd
  · rw [List.mem_singleton] at hd
    rw [hd]
    exact hquote

theorem noControl_repr : NoControl (repr charset s) := by
  intro d hd
  by_contra hcontrol
  have hprintable := printable_of_mem_repr hd
  rw [charset.printable_ascii d (by omega), decide_eq_true_iff] at hprintable
  omega

end literal

end Lexis
