import Atasks.Commands.Spec
import Atasks.Lib.Text
/-!
# The health endpoint binding

`_parse_health_http` (`atasks/commands/service.py:31-70`), which reads the value of
`--health-http`. A colon may be part of a host (then in brackets), stand before the port, or
be part of the path; a bracket may stand in the path; and a slash ends the host wherever it
stands. `renderHealth` writes a binding, and `parseHealthHttp_correct` says that reading gives
it back, that nothing read is malformed, and that a host with colons needs its brackets.

| here | there |
| --- | --- |
| `parseHealthHttp` | `_parse_health_http` |
| `hostAndPort`     | the branches on `address` (`:41-58`) |
-/

namespace Atasks.Commands

open Text (Str Numerals strip cut rcut isSpace Trimmed)

/-- The host of an address, and the text of its port. -/
def hostAndPort (address : Str) : Except ArgumentTypeError (Str × Str) :=
  match address with
  | '[' :: bracketed =>
    match cut ']' bracketed with
    | none => .error ⟨"IPv6 health HTTP host must end with ]"⟩
    | some (host, []) => .ok (host, ['8', '0'])
    | some (host, ':' :: portValue) => .ok (host, portValue)
    | some _ => .error ⟨"invalid IPv6 health HTTP address"⟩
  | _ =>
    if address.count ':' ≤ 1 then
      match rcut ':' address with
      | some (host, portValue) => .ok (host, portValue)
      | none => .ok (address, ['8', '0'])
    else .error ⟨"IPv6 health HTTP host must be enclosed in []"⟩

/-- The address before the first slash, and the path. -/
def addressAndPath (value : Str) : Str × Str :=
  match cut '/' value with
  | some (address, suffix) => (address, '/' :: suffix)
  | none => (value, ['/'])

def parseHealthHttp (numerals : Numerals) (value : Str) : Except ArgumentTypeError
    (Str × Int × Str) :=
  let value := strip value
  if value = [] ∨ '?' ∈ value ∨ '#' ∈ value ∨ '@' ∈ value then
    .error ⟨"health HTTP address must be HOST[:PORT][/PATH]"⟩
  else
    let (address, path) := addressAndPath value
    if address = [] then .error ⟨"health HTTP address must include a host"⟩
    else
      match hostAndPort address with
      | .error error => .error error
      | .ok (host, portValue) =>
        if host = [] then .error ⟨"health HTTP address must include a host"⟩
        else
          match numerals.int portValue with
          | none => .error ⟨"health HTTP port must be an integer"⟩
          | some port =>
            if 1 ≤ port ∧ port ≤ 65535 then .ok (host, port, path)
            else .error ⟨"health HTTP port must be between 1 and 65535"⟩

/-! ## Writing a binding -/

structure HostText (host : Str) : Prop where
  nonempty : host ≠ []
  noBlank : ∀ c ∈ host, isSpace c = false
  noSeparator : ∀ c ∈ host, c ∉ ['/', '?', '#', '@', '[', ']']

structure SuffixText (suffix : Str) : Prop where
  noSeparator : ∀ c ∈ suffix, c ∉ ['?', '#', '@']
  noBlankEnd : ∀ c ∈ suffix.getLast?, isSpace c = false

instance (host : Str) : Decidable (HostText host) :=
  have : Decidable (∀ c ∈ host, isSpace c = false) := List.decidableBAll _ host
  have : Decidable (∀ c ∈ host, c ∉ ['/', '?', '#', '@', '[', ']']) := List.decidableBAll _ host
  decidable_of_iff (host ≠ [] ∧ (∀ c ∈ host, isSpace c = false) ∧ ∀ c ∈ host,
    c ∉ ['/', '?', '#', '@', '[', ']'])
    ⟨fun h => ⟨h.1, h.2.1, h.2.2⟩, fun h => ⟨h.1, h.2, h.3⟩⟩

instance (suffix : Str) : Decidable (SuffixText suffix) :=
  have : Decidable (∀ c ∈ suffix, c ∉ ['?', '#', '@']) := List.decidableBAll _ suffix
  have : Decidable (∀ c ∈ suffix.getLast?, isSpace c = false) := Option.decidableForallMem _
  decidable_of_iff ((∀ c ∈ suffix, c ∉ ['?', '#', '@']) ∧ ∀ c ∈ suffix.getLast?, isSpace c = false)
    ⟨fun h => ⟨h.1, h.2⟩, fun h => ⟨h.1, h.2⟩⟩

def renderHost (host : Str) : Str := if ':' ∈ host then '[' :: (host ++ [']']) else host

def renderPort : Option Nat → Str
  | none => []
  | some port => ':' :: Nat.toDigits 10 port

def renderSuffix : Option Str → Str
  | none => []
  | some suffix => '/' :: suffix

/-- `HOST[:PORT][/PATH]`, the host in brackets if it has a colon. -/
def renderHealth (host : Str) (port : Option Nat) (suffix : Option Str) : Str :=
  renderHost host ++ renderPort port ++ renderSuffix suffix

/-- The text of the port that gets read. -/
def portText : Option Nat → Str
  | none => ['8', '0']
  | some port => Nat.toDigits 10 port

section address

variable {host : Str} {port : Option Nat}

theorem mem_renderHost (h : HostText host) {c : Char} (hc : c ∈ renderHost host) :
    isSpace c = false ∧ c ∉ ['/', '?', '#', '@'] := by
  have inside : ∀ c ∈ host, isSpace c = false ∧ c ∉ ['/', '?', '#', '@'] := fun c hc =>
    ⟨h.noBlank c hc, fun hmem => h.noSeparator c hc (List.mem_append_left ['[', ']'] hmem)⟩
  unfold renderHost at hc
  split at hc
  · rcases List.mem_cons.1 hc with rfl | hc
    · decide
    · rcases List.mem_append.1 hc with hc | hc
      · exact inside c hc
      · rw [List.mem_singleton.1 hc]
        decide
  · exact inside c hc

theorem mem_renderPort {c : Char} (hc : c ∈ renderPort port) :
    isSpace c = false ∧ c ∉ ['/', '?', '#', '@'] := by
  cases port with
  | none => simp [renderPort] at hc
  | some p =>
    rcases List.mem_cons.1 hc with rfl | hc
    · decide
    · have hdigit := Numerals.isDigit_of_mem_toDigits hc
      refine ⟨Numerals.isSpace_of_isDigit hdigit, fun hmem => ?_⟩
      simp only [List.mem_cons, List.not_mem_nil, or_false] at hmem
      rcases hmem with rfl | rfl | rfl | rfl <;> exact absurd hdigit (by decide)

/-- Nothing in an address ends the host or is cut off at an end. -/
theorem mem_address (h : HostText host) {c : Char} (hc : c ∈ renderHost host ++ renderPort port) :
    isSpace c = false ∧ c ∉ ['/', '?', '#', '@'] :=
  (List.mem_append.1 hc).elim (mem_renderHost h) mem_renderPort

theorem colon_notMem_toDigits (n : Nat) : ':' ∉ Nat.toDigits 10 n := fun h =>
  absurd (Numerals.isDigit_of_mem_toDigits h) (by decide)

theorem hostAndPort_plain {address : Str} (h : address.head? ≠ some '[') :
    hostAndPort address =
      if address.count ':' ≤ 1 then
        match rcut ':' address with
        | some (host, portValue) => .ok (host, portValue)
        | none => .ok (address, ['8', '0'])
      else .error ⟨"IPv6 health HTTP host must be enclosed in []"⟩ := by
  unfold hostAndPort
  split
  · exact absurd rfl h
  · rfl

theorem hostAndPort_render (h : HostText host) :
    hostAndPort (renderHost host ++ renderPort port) = .ok (host, portText port) := by
  by_cases hcolon : ':' ∈ host
  · have hbracket : ']' ∉ host := fun hmem => h.noSeparator _ hmem (by decide)
    have haddress : renderHost host ++ renderPort port = '[' ::
        (host ++ ']' :: renderPort port) := by
      simp [renderHost, hcolon]
    rw [haddress, hostAndPort, Text.cut_append hbracket]
    cases port <;> rfl
  · have hplain : (host ++ renderPort port).head? ≠ some '[' := by
      obtain ⟨c, rest, rfl⟩ := List.exists_cons_of_ne_nil h.nonempty
      intro hhead
      cases hhead
      exact h.noSeparator '[' List.mem_cons_self (by decide)
    have hcount : host.count ':' = 0 := List.count_eq_zero.2 hcolon
    rw [renderHost, if_neg hcolon, hostAndPort_plain hplain]
    cases port with
    | none => simp [renderPort, portText, hcount, Text.rcut_eq_none_iff.2 hcolon]
    | some p =>
      have hdigits : (Nat.toDigits 10 p).count ':' = 0 :=
        List.count_eq_zero.2 (colon_notMem_toDigits p)
      simp [renderPort, portText, hcount, hdigits, Text.rcut_append (colon_notMem_toDigits p)]

theorem addressAndPath_render {address : Str} (h : '/' ∉ address) (suffix : Option Str) :
    addressAndPath (address ++ renderSuffix suffix) = (address, '/' :: suffix.getD []) := by
  cases suffix with
  | none => simp [addressAndPath, renderSuffix, Text.cut_eq_none_iff.2 h]
  | some suffix => simp [addressAndPath, renderSuffix, Text.cut_append h]

theorem address_ne_nil (h : HostText host) : renderHost host ++ renderPort port ≠ [] := by
  have hne := h.nonempty
  by_cases hcolon : ':' ∈ host <;> simp [renderHost, hcolon, hne]

theorem trimmed_render (h : HostText host) {suffix : Option Str}
    (hsuffix : ∀ s ∈ suffix, SuffixText s) :
    Trimmed (renderHealth host port suffix) := by
  have haddress : renderHost host ++ renderPort port ≠ [] := address_ne_nil h
  rw [Text.trimmed_iff, renderHealth]
  constructor
  · intro c hc
    rw [List.head?_append_of_ne_nil _ haddress] at hc
    exact (mem_address h (List.mem_of_mem_head? hc)).1
  · intro c hc
    cases suffix with
    | none =>
      rw [renderSuffix, List.append_nil] at hc
      exact (mem_address h (List.mem_of_mem_getLast? hc)).1
    | some s =>
      rw [renderSuffix, List.getLast?_append_of_ne_nil _ (List.cons_ne_nil _ _), List.getLast?_cons]
        at hc
      cases hs : s.getLast? with
      | none =>
        rw [hs] at hc
        cases hc
        decide
      | some d =>
        rw [hs] at hc
        cases hc
        exact (hsuffix s rfl).noBlankEnd d hs

theorem query_notMem_render (h : HostText host) {suffix : Option Str}
    (hsuffix : ∀ s ∈ suffix, SuffixText s) {c : Char} (hc : c ∈ ['?', '#', '@']) :
    c ∉ renderHealth host port suffix := by
  intro hmem
  rcases List.mem_append.1 hmem with hmem | hmem
  · exact (mem_address h hmem).2 (List.mem_cons_of_mem _ hc)
  · cases suffix with
    | none => simp [renderSuffix] at hmem
    | some s =>
      rcases List.mem_cons.1 hmem with rfl | hmem
      · exact absurd hc (by decide)
      · exact (hsuffix s rfl).noSeparator c hmem hc

end address

/-! ## Reading a binding -/

variable (numerals : Numerals)

/-- What a binding is like that gets read. -/
structure HealthReads (value host : Str) (port : Int) (path : Str) : Prop where
  noQuery : strip value ≠ [] ∧ '?' ∉ strip value ∧ '#' ∉ strip value ∧ '@' ∉ strip value
  hasAddress : (addressAndPath (strip value)).1 ≠ []
  pathFrom : (addressAndPath (strip value)).2 = path
  hasHost : host ≠ []
  portFrom : ∃ portValue, hostAndPort (addressAndPath (strip value)).1 = .ok (host, portValue) ∧
    numerals.int portValue = some port
  inRange : 1 ≤ port ∧ port ≤ 65535

variable {numerals} {value host path : Str} {port : Int}

theorem HealthReads.parse (h : HealthReads numerals value host port path) :
    parseHealthHttp numerals value = .ok (host, port, path) := by
  obtain ⟨portValue, hparts, hint⟩ := h.portFrom
  have hguard : ¬(strip value = [] ∨ '?' ∈ strip value ∨ '#' ∈ strip value ∨
      '@' ∈ strip value) := by
    simpa only [not_or] using h.noQuery
  simp only [parseHealthHttp, if_neg hguard, if_neg h.hasAddress, hparts, if_neg h.hasHost, hint,
    if_pos h.inRange,
    h.pathFrom]

theorem healthReads_of_parse (h : parseHealthHttp numerals value = .ok (host, port, path)) :
    HealthReads numerals value host port path := by
  simp only [parseHealthHttp] at h
  split at h
  · cases h
  rename_i hguard
  split at h
  · cases h
  rename_i haddress
  split at h
  · cases h
  rename_i host' portValue hparts
  split at h
  · cases h
  rename_i hhost
  split at h
  · cases h
  rename_i port' hint
  split at h
  · rename_i hrange
    cases h
    exact ⟨by simpa only [not_or] using hguard, haddress, rfl, hhost, ⟨portValue, hparts, hint⟩,
      hrange⟩
  · cases h

theorem int_portText {port : Option Nat} (hport : ∀ p ∈ port, 1 ≤ p ∧ p ≤ 65535) :
    numerals.int (portText port) = some ((port.getD 80 : Nat) : Int) := by
  have short : ∀ p : Nat, p ≤ 65535 → numerals.Converts (Nat.toDigits 10 p).length := by
    intro p hp
    have hlength : (Nat.toDigits 10 p).length ≤ 5 :=
      (Nat.length_toDigits_le_iff (by decide) (by decide)).2 (by omega)
    exact numerals.converts_of_le (by omega)
  cases port with
  | none => exact numerals.int_toDigits (n := 80) (short 80 (by decide))
  | some p => exact numerals.int_toDigits (short p (hport p rfl).2)

theorem healthReads_render (h : HostText host) {port : Option Nat}
    (hport : ∀ p ∈ port, 1 ≤ p ∧ p ≤ 65535) {suffix : Option Str}
    (hsuffix : ∀ s ∈ suffix, SuffixText s) :
    HealthReads numerals (renderHealth host port suffix) host (port.getD 80 : Nat)
    ('/' :: suffix.getD []) := by
  have hstrip : strip (renderHealth host port suffix) = renderHealth host port suffix :=
    trimmed_render h hsuffix
  have hslash : '/' ∉ renderHost host ++ renderPort port :=
    fun hmem => (mem_address h hmem).2 (by decide)
  have hparts : addressAndPath (renderHealth host port suffix) =
      (renderHost host ++ renderPort port, '/' :: suffix.getD []) :=
    addressAndPath_render hslash suffix
  have haddress : renderHost host ++ renderPort port ≠ [] := address_ne_nil h
  constructor
  · rw [hstrip]
    refine ⟨?_, query_notMem_render h hsuffix (by decide),
      query_notMem_render h hsuffix (by decide),
      query_notMem_render h hsuffix (by decide)⟩
    exact List.append_ne_nil_of_left_ne_nil haddress _
  · rw [hstrip, hparts]
    exact haddress
  · rw [hstrip, hparts]
  · exact h.nonempty
  · rw [hstrip, hparts]
    exact ⟨portText port, hostAndPort_render h, int_portText hport⟩
  · cases port with
    | none => decide
    | some p =>
      have := hport p rfl
      simp only [Option.getD_some]
      omega

theorem takeWhile_slash (value : Str) : (addressAndPath value).1 = value.takeWhile (· ≠ '/') := by
  unfold addressAndPath
  by_cases hslash : '/' ∈ value
  · rw [Text.cut_of_mem hslash]
  · rw [Text.cut_eq_none_iff.2 hslash, List.takeWhile_eq_self_iff.2]
    intro c hc
    have hne : c ≠ '/' := fun heq => hslash (heq ▸ hc)
    simp [hne]

theorem slash_notMem_address (value : Str) : '/' ∉ (addressAndPath value).1 := by
  rw [takeWhile_slash]
  intro h
  simpa using List.mem_takeWhile_imp h

theorem path_eq_cons (value : Str) :
    ∃ suffix, (addressAndPath value).2 = '/' :: suffix ∧ ∀ c ∈ suffix, c ∈ value := by
  unfold addressAndPath
  cases hcut : cut '/' value with
  | none => exact ⟨[], rfl, by simp⟩
  | some parts =>
    obtain ⟨rfl, -⟩ := Text.cut_eq_some_iff.1 hcut
    exact ⟨parts.2, rfl, fun c hc => by simp [hc]⟩

/-- The host is part of what stands before the first slash. -/
theorem mem_host {address host portValue : Str} (h : hostAndPort address = .ok (host, portValue))
    {c : Char} (hc : c ∈ host) :
    c ∈ address := by
  unfold hostAndPort at h
  split at h
  · split at h
    · cases h
    all_goals
      rename_i hcut
      cases h
    · obtain ⟨rfl, -⟩ := Text.cut_eq_some_iff.1 hcut
      simp [hc]
    · obtain ⟨rfl, -⟩ := Text.cut_eq_some_iff.1 hcut
      simp [hc]
  · split at h
    · split at h
      · rename_i hcut
        cases h
        rw [Text.rcut_eq_some hcut]
        exact List.mem_append_left _ hc
      · cases h
        exact hc
    · cases h

/-- **The parser of health bindings inverts rendering and is sound.** -/
theorem parseHealthHttp_correct (numerals : Numerals) :
    (∀ host port suffix, HostText host → (∀ p ∈ port, 1 ≤ p ∧ p ≤ 65535) →
      (∀ s ∈ suffix, SuffixText s) →
      parseHealthHttp numerals (renderHealth host port suffix) = .ok
        (host, ((port.getD 80 : Nat) : Int), '/' :: suffix.getD [])) ∧
    (∀ value host port path, parseHealthHttp numerals value = .ok (host, port, path) →
      (host ≠ [] ∧ '/' ∉ host) ∧ (1 ≤ port ∧ port ≤ 65535) ∧
        path.head? = some '/' ∧ ∀ c ∈ path, c ∉ ['?', '#', '@']) ∧
    (∀ value, (strip value).head? ≠ some '[' → 2 ≤ ((strip value).takeWhile (· ≠ '/')).count ':' →
      ∃ error, parseHealthHttp numerals value = .error error) := by
  refine ⟨fun host port suffix h hport hsuffix => (healthReads_render h hport hsuffix).parse, ?_,
    ?_⟩
  · intro value host port path hparse
    have h := healthReads_of_parse hparse
    obtain ⟨portValue, hparts, -⟩ := h.portFrom
    obtain ⟨-, hquestion, hhash, hat⟩ := h.noQuery
    obtain ⟨suffix, hpath, hsuffix⟩ := path_eq_cons (strip value)
    refine ⟨⟨h.hasHost, fun hslash => slash_notMem_address _ (mem_host hparts hslash)⟩,
      h.inRange, ?_, ?_⟩
    · rw [← h.pathFrom, hpath]
      rfl
    · rw [← h.pathFrom, hpath]
      intro c hc hmem
      simp only [List.mem_cons, List.not_mem_nil, or_false] at hmem
      rcases List.mem_cons.1 hc with rfl | hc
      · simp at hmem
      · have hvalue := hsuffix c hc
        rcases hmem with rfl | rfl | rfl
        · exact hquestion hvalue
        · exact hhash hvalue
        · exact hat hvalue
  · intro value hbracket hcolons
    cases hparse : parseHealthHttp numerals value with
    | error error => exact ⟨error, rfl⟩
    | ok result =>
      obtain ⟨host, port, path⟩ := result
      obtain ⟨portValue, hparts, -⟩ := (healthReads_of_parse hparse).portFrom
      have hplain : ((strip value).takeWhile (· ≠ '/')).head? ≠ some '[' := by
        rw [List.head?_takeWhile]
        intro hhead
        exact hbracket (Option.filter_eq_some_iff.1 hhead).1
      rw [takeWhile_slash, hostAndPort_plain hplain, if_neg (by omega)] at hparts
      cases hparts

example : parseHealthHttp .plain " [::1]:9000/live".toList = .ok
    ("::1".toList, 9000, "/live".toList) := by
  decide

end Atasks.Commands
