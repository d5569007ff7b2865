import Atasks.Lib.Text
/-!
# Topic keys

A topic exchange compares a binding key with a routing key word by word, the words being
what stands between the dots: `*` in the binding key stands for any one word, `#` for any
number of them. A binding key without either matches itself and nothing else
(`keyMatches_iff_eq`); a binding key with one matches another key too
(`exists_matching_ne`).

Keys are built by joining names with dots. `Under s t` is when `t` could have been built on
top of `s`, and `join_clash_iff` says which bases with a marker word behind them can grow
into the same key.
-/

namespace Topic

abbrev Word := List Char

def words (s : String) : List Word := s.toList.splitOn '.'

def star : Word := ['*']

def hash : Word := ['#']

/-- The words of a binding key against those of a routing key. -/
def matchWords : List Word → List Word → Bool
  | [], ws => ws.isEmpty
  | p :: ps, ws =>
    if p = hash then ws.tails.any (matchWords ps)
    else
      match ws with
      | [] => false
      | w :: ws => (p = star || p = w) && matchWords ps ws

def keyMatches (binding key : String) : Bool := matchWords (words binding) (words key)

/-- No word of it is `*` or `#`. -/
def WildcardFree (s : String) : Prop := ∀ w ∈ words s, w ≠ star ∧ w ≠ hash

instance (s : String) : Decidable (WildcardFree s) :=
    inferInstanceAs (Decidable (∀ w ∈ words s, w ≠ star ∧ w ≠ hash))

theorem words_injective {s t : String} (h : words s = words t) : s = t := by
  have join : ∀ s : String, ['.'].intercalate (s.toList.splitOn '.') = s.toList :=
    fun s => List.intercalate_splitOn '.'
  exact String.toList_injective (by rw [← join s, ← join t]; exact congrArg _ h)

theorem words_append_dot (s t : String) : words (s ++ "." ++ t) = words s ++ words t := by
  have hdot : ".".toList = ['.'] := by decide
  simp only [words, List.splitOn, String.toList_append, hdot, List.append_assoc,
    List.singleton_append]
  exact List.splitOnP_append_cons (p := (· == '.')) s.toList t.toList rfl

theorem matchWords_iff_eq :
    ∀ {ps ws : List Word}, (∀ p ∈ ps, p ≠ star ∧ p ≠ hash) → (matchWords ps ws = true ↔ ps = ws)
  | [], ws, _ => by cases ws <;> simp [matchWords]
  | p :: ps, ws, h => by
    obtain ⟨hstar, hhash⟩ := h p List.mem_cons_self
    have ih : ∀ {ws}, matchWords ps ws = true ↔ ps = ws :=
      matchWords_iff_eq fun q hq => h q (List.mem_cons_of_mem _ hq)
    cases ws with
    | nil => simp [matchWords, hhash]
    | cons w ws => simp [matchWords, hstar, hhash, ih]

/-- **A binding key without wildcards is exact.** -/
theorem keyMatches_iff_eq {binding key : String} (h : WildcardFree binding) :
    keyMatches binding key = true ↔ binding = key := by
  rw [keyMatches, matchWords_iff_eq h]
  exact ⟨words_injective, congrArg words⟩

theorem wildcardFree_append_dot {s t : String} :
    WildcardFree (s ++ "." ++ t) ↔ WildcardFree s ∧ WildcardFree t := by
  rw [WildcardFree, words_append_dot]
  exact List.forall_mem_append

/-! ## Keys from words -/

theorem words_ne_nil (s : String) : words s ≠ [] := List.splitOn_ne_nil '.' s.toList

theorem dot_notMem_of_mem_words {s : String} {w : Word} (h : w ∈ words s) :
    '.' ∉ w := Text.notMem_of_mem_splitOn h

/-- Any words without dots are those of some key. -/
theorem exists_words {ws : List Word} (hne : ws ≠ []) (h : ∀ w ∈ ws, '.' ∉ w) :
    ∃ s, words s = ws := by
  refine ⟨String.ofList (['.'].intercalate ws), ?_⟩
  rw [words, String.toList_ofList]
  exact List.splitOn_intercalate '.' h hne

/-- `t` is `s`, or starts with `s` and a dot. -/
def Under (s t : String) : Prop := words s <+: words t

instance (s t : String) : Decidable (Under s t) := inferInstanceAs (Decidable (words s <+: words t))

theorem under_iff {s t : String} : Under s t ↔ t = s ∨ ∃ r, t = s ++ "." ++ r := by
  constructor
  · rintro ⟨rest, hrest⟩
    cases rest with
    | nil => exact Or.inl (words_injective (by rw [← hrest, List.append_nil]))
    | cons w ws =>
      have hdot : ∀ v ∈ w :: ws, '.' ∉ v := fun v hv =>
        dot_notMem_of_mem_words (s := t) (by rw [← hrest]; exact List.mem_append_right _ hv)
      obtain ⟨r, hr⟩ := exists_words (List.cons_ne_nil w ws) hdot
      exact Or.inr ⟨r, words_injective (by rw [words_append_dot, hr, hrest])⟩
  · rintro (rfl | ⟨r, rfl⟩)
    · exact List.prefix_refl _
    · exact ⟨words r, (words_append_dot s r).symm⟩

/-- Two bases, each followed by one of the marker words and a name, grow into the same key for
some names exactly if they are equal or one of them goes on from the other with a marker. -/
theorem join_clash_iff {s t : String} {markers : List String}
    (hmarkers : ∀ m ∈ markers, words m = [m.toList]) (hne : markers ≠ []) :
    (∃ m ∈ markers, ∃ m' ∈ markers, ∃ n n',
        s ++ "." ++ m ++ "." ++ n = t ++ "." ++ m' ++ "." ++ n') ↔
      s = t ∨ (∃ m ∈ markers, Under (s ++ "." ++ m) t) ∨
        ∃ m ∈ markers, Under (t ++ "." ++ m) s := by
  -- what lies between the shorter base and the longer one starts with the marker of the shorter
  have grown : ∀ {s t m n : String} {rest : List Word}, m ∈ markers → words t = words s ++ rest →
      rest <+: m.toList :: words n → s = t ∨ Under (s ++ "." ++ m) t := by
    intro s t m n rest hm ht hrest
    cases rest with
    | nil => exact Or.inl (words_injective (by rw [ht, List.append_nil]))
    | cons w ws =>
      obtain ⟨rfl, -⟩ := List.cons_prefix_cons.1 hrest
      exact Or.inr ⟨ws, by rw [words_append_dot, hmarkers m hm, List.append_assoc, ht]; rfl⟩
  -- and a base that goes on from the other with a marker grows into what the other can reach
  have reach : ∀ {s t m : String}, m ∈ markers → Under (s ++ "." ++ m) t →
      ∃ n n', s ++ "." ++ m ++ "." ++ n = t ++ "." ++ m ++ "." ++ n' := by
    intro s t m hm h
    rcases under_iff.1 h with rfl | ⟨r, rfl⟩
    · exact ⟨m ++ "." ++ "", "", by simp only [String.append_assoc]⟩
    · exact ⟨r ++ "." ++ m ++ "." ++ "", "", by simp only [String.append_assoc]⟩
  constructor
  · rintro ⟨m, hm, m', hm', n, n', h⟩
    have hw := congrArg words h
    simp only [words_append_dot, hmarkers m hm, hmarkers m' hm', List.append_assoc,
      List.singleton_append] at hw
    rcases List.append_eq_append_iff.1 hw with ⟨rest, ht, hrest⟩ | ⟨rest, hs, hrest⟩
    · exact (grown hm ht ⟨_, hrest.symm⟩).imp_right fun h => Or.inl ⟨m, hm, h⟩
    · exact (grown hm' hs ⟨_, hrest.symm⟩).elim (fun h => Or.inl h.symm) fun h =>
        Or.inr (Or.inr ⟨m', hm', h⟩)
  · rintro (rfl | ⟨m, hm, h⟩ | ⟨m, hm, h⟩)
    · obtain ⟨m, ms, rfl⟩ := List.exists_cons_of_ne_nil hne
      exact ⟨m, List.mem_cons_self, m, List.mem_cons_self, "", "", rfl⟩
    · obtain ⟨n, n', hn⟩ := reach hm h
      exact ⟨m, hm, m, hm, n, n', hn⟩
    · obtain ⟨n, n', hn⟩ := reach hm h
      exact ⟨m, hm, m, hm, n', n, hn.symm⟩

/-! ## Masks -/

/-- The words of a mask, with a plain word in place of every wildcard. -/
def plain (w : Word) : Word := if w = star ∨ w = hash then ['x'] else w

theorem plain_notWildcard (w : Word) : plain w ≠ star ∧ plain w ≠ hash := by
  unfold plain
  split
  · decide
  · rename_i h
    exact not_or.1 h

theorem matchWords_plain (ps : List Word) : matchWords ps (ps.map plain) = true := by
  induction ps with
  | nil => rfl
  | cons p ps ih =>
    rw [List.map_cons, matchWords]
    split
    · exact List.any_eq_true.2 ⟨ps.map plain, by cases ps <;> simp [List.tails], ih⟩
    · rename_i hp
      by_cases hs : p = star <;> simp [ih, plain, hs, hp]

/-- A base without wildcards must be there as it is. -/
theorem matchWords_append {base ps ws : List Word} (h : ∀ p ∈ base, p ≠ star ∧ p ≠ hash) :
    matchWords (base ++ ps) ws = true ↔ ∃ vs, ws = base ++ vs ∧ matchWords ps vs = true := by
  induction base generalizing ws with
  | nil => simp
  | cons p base ih =>
    obtain ⟨hstar, hhash⟩ := h p List.mem_cons_self
    have ih' : ∀ {ws}, matchWords (base ++ ps) ws = true ↔ ∃ vs, ws = base ++ vs ∧
        matchWords ps vs = true :=
      ih fun q hq => h q (List.mem_cons_of_mem _ hq)
    cases ws with
    | nil => simp [matchWords, hhash]
    | cons w ws =>
      simp only [List.cons_append, matchWords, hhash, if_false, hstar, decide_false, Bool.false_or,
        Bool.and_eq_true,
        decide_eq_true_eq, ih', List.cons.injEq]
      constructor
      · rintro ⟨rfl, vs, rfl, hvs⟩
        exact ⟨vs, ⟨rfl, rfl⟩, hvs⟩
      · rintro ⟨vs, ⟨rfl, rfl⟩, hvs⟩
        exact ⟨rfl, vs, rfl, hvs⟩

/-- A mask matches some key besides itself. -/
theorem exists_matching_ne {s : String} (h : ¬ WildcardFree s) :
    ∃ t, t ≠ s ∧ keyMatches s t = true := by
  have hdot : ∀ w ∈ (words s).map plain, '.' ∉ w := by
    intro w hw
    obtain ⟨v, hv, rfl⟩ := List.mem_map.1 hw
    unfold plain
    split
    · decide
    · exact dot_notMem_of_mem_words hv
  obtain ⟨t, ht⟩ := exists_words (by simpa using words_ne_nil s) hdot
  refine ⟨t, ?_, ?_⟩
  · rintro rfl
    apply h
    intro w hw
    rw [ht] at hw
    obtain ⟨v, -, rfl⟩ := List.mem_map.1 hw
    exact plain_notWildcard v
  · rw [keyMatches, ht]
    exact matchWords_plain _

end Topic
