import Atasks.Lib.Dict
import Atasks.Lib.Raising
import Atasks.Lib.Text
import Atasks.Commands.Spec
/-!
# Namespace options

`_parse_namespace_spec` (`atasks/commands/service.py:188-285`), which reads the value of one
`-N`/`--namespace`: items separated by commas, each a key and a value around the first `=`,
then the four values that are more than a string. `parseNamespaceSpec_correct` says which
values are accepted and what is read from them, that order, blanks and empty items do not
count, and that what `renderSpec` writes is read back.

| here | there |
| --- | --- |
| `Key`                | `_NAMESPACE_SPEC_KEYS` (`:25-28`) |
| `NamespaceOptions`   | the dictionary that is returned (`:276-285`) |
| `addItem`            | the body of the loop (`:225-239`); `raw` is the dictionary so far |
| `readOptions`        | what follows the loop (`:241-274`) |
-/

namespace Atasks.Commands

open Text (Str Numerals strip cut isSpace Blank Trimmed)

inductive Key
  | name
  | mode
  | transport
  | url
  | hostname
  | maxTraceDepth
  | traceFilterModules
  | collectAwaitFrames
deriving DecidableEq, Repr

namespace Key

def text : Key → Str
  | name => "name".toList
  | mode => "mode".toList
  | transport => "transport".toList
  | url => "url".toList
  | hostname => "hostname".toList
  | maxTraceDepth => "max-trace-depth".toList
  | traceFilterModules => "trace-filter-modules".toList
  | collectAwaitFrames => "collect-await-frames".toList

def all : List Key := [name, mode, transport, url, hostname, maxTraceDepth, traceFilterModules,
      collectAwaitFrames]

/-- The key a text names, if it is one of `_NAMESPACE_SPEC_KEYS`. -/
def ofText (text : Str) : Option Key := all.find? fun key => key.text = text

theorem ofText_text (key : Key) : ofText key.text = some key := by
  cases key <;> decide

theorem text_injective : Function.Injective text := fun key key' h =>
  Option.some.inj ((ofText_text key).symm.trans ((congrArg ofText h).trans (ofText_text key')))

theorem ofText_eq_some_iff {text : Str} {key : Key} : ofText text = some key ↔ key.text = text := by
  constructor
  · intro h
    simpa using List.find?_some h
  · rintro rfl
    exact ofText_text key

end Key

def Mode.text : Mode → Str
  | .client => "client".toList
  | .server => "server".toList
  | .loopback => "loopback".toList

def TransportName.text : TransportName → Str
  | .loopback => "loopback".toList
  | .amqp => "amqp".toList

theorem Mode.text_injective : Function.Injective Mode.text := by
  intro mode mode' h
  cases mode <;> cases mode' <;> first | rfl | exact absurd h (by decide)

theorem TransportName.text_injective : Function.Injective TransportName.text := by
  intro transport transport' h
  cases transport <;> cases transport' <;> first | rfl | exact absurd h (by decide)

structure NamespaceOptions extends NamespaceSpec where
  hostname : Option String := none
  maxTraceDepth : Option Int := none
  traceFilterModules : Option (List String) := none
  collectAwaitFrames : Option Bool := none
deriving DecidableEq, Repr

/-! ## The parser -/

section parser

variable (numerals : Numerals) (repr : Str → String)

/-- `raw[key] = value`, if the key is known and new (`:231-239`). -/
def setKey (spec : Str) (raw : Dict Key Str) (key value : Str) : Except ArgumentTypeError
    (Dict Key Str) :=
  match Key.ofText key with
  | none =>
    .error ⟨"unknown key " ++ repr key ++ " in " ++ repr spec ++ ", expected one of: " ++
      "collect-await-frames, hostname, max-trace-depth, mode, name, trace-filter-modules, transport, url"⟩
  | some known =>
    if (raw.get? known).isSome then .error ⟨"key " ++ repr key ++ " given twice in " ++ repr spec⟩
    else .ok (raw.set known value)

/-- One turn of the loop. -/
def addItem (spec : Str) (raw : Dict Key Str) (item : Str) : Except ArgumentTypeError
    (Dict Key Str) :=
  let item := strip item
  if item = [] then .ok raw
  else
    match cut '=' item with
    | none => .error ⟨"expected key=value, got " ++ repr item ++ " in " ++ repr spec⟩
    | some (key, value) => setKey repr spec raw (strip key) (strip value)

def readMode (spec text : Str) : Except ArgumentTypeError Mode :=
  if text = "client".toList then .ok .client
  else if text = "server".toList then .ok .server
  else if text = "loopback".toList then .ok .loopback
  else .error ⟨"mode must be 'client', 'server', or 'loopback', got " ++ repr text ++
    " in " ++ repr spec⟩

def readTransport (spec text : Str) : Except ArgumentTypeError TransportName :=
  if text = "loopback".toList then .ok .loopback
  else if text = "amqp".toList then .ok .amqp
  else .error ⟨"transport must be 'loopback' or 'amqp', got " ++ repr text ++ " in " ++ repr spec⟩

def readDepth (spec : Str) : Option Str → Except ArgumentTypeError (Option Int)
  | none => .ok none
  | some text =>
    match numerals.int text with
    | some depth => .ok (some depth)
    | none =>
      .error ⟨"max-trace-depth must be an integer, got " ++ repr text ++ " in " ++ repr spec⟩

def readModules (text : Str) : List String := ((text.splitOn ':').filter (· ≠ [])).map String.ofList

/-- `lowered in ('true', 'yes', '1')`, after `lower()`. No character beyond ASCII has a letter of these words
for its lower case. -/
def isTrue (text : Str) : Bool := ["true".toList, "yes".toList, "1".toList].any
    (text.map Char.toLower = ·)

def isFalse (text : Str) : Bool := ["false".toList, "no".toList, "0".toList].any
    (text.map Char.toLower = ·)

def readFrames (spec : Str) : Option Str → Except ArgumentTypeError (Option Bool)
  | none => .ok none
  | some text =>
    if isTrue text then .ok (some true)
    else if isFalse text then .ok (some false)
    else .error ⟨"collect-await-frames must be true/false, got " ++ repr text ++
      " in " ++ repr spec⟩

def readOptions (spec : Str) (raw : Dict Key Str) : Except ArgumentTypeError NamespaceOptions := do
  let name := (raw.get? .name).getD "default".toList
  let mode ← readMode repr spec ((raw.get? .mode).getD "loopback".toList)
  let transport ← readTransport repr spec ((raw.get? .transport).getD "loopback".toList)
  let maxTraceDepth ← readDepth numerals repr spec (raw.get? .maxTraceDepth)
  let traceFilterModules := (raw.get? .traceFilterModules).map readModules
  let collectAwaitFrames ← readFrames repr spec (raw.get? .collectAwaitFrames)
  return {
    name := String.ofList name
    mode := mode
    transport := transport
    url := (raw.get? .url).map String.ofList
    hostname := (raw.get? .hostname).map String.ofList
    maxTraceDepth := maxTraceDepth
    traceFilterModules := traceFilterModules
    collectAwaitFrames := collectAwaitFrames
  }

def parseNamespaceSpec (spec : Str) : Except ArgumentTypeError NamespaceOptions := do
  let raw ← (spec.splitOn ',').foldlM (addItem repr spec) Dict.empty
  readOptions numerals repr spec raw

end parser

/-! ## What a value says -/

/-- Trimmed, the empty ones left out. -/
def trimItems (parts : List Str) : List Str := (parts.map strip).filter (· ≠ [])

def items (spec : Str) : List Str := trimItems (spec.splitOn ',')

/-- The trimmed text before the first `=`. -/
def keyOf (item : Str) : Str := strip (item.takeWhile (· ≠ '='))

/-- The trimmed text behind the first `=`. -/
def valueOf (item : Str) : Str := strip ((item.dropWhile (· ≠ '=')).drop 1)

structure WellFormed (items : List Str) : Prop where
  hasEquals : ∀ item ∈ items, '=' ∈ item
  known : ∀ item ∈ items, ∃ key : Key, key.text = keyOf item
  once : (items.map keyOf).Nodup

/-- The value given for a key. -/
def given (items : List Str) (key : Key) : Option Str :=
    (items.find? fun item => keyOf item = key.text).map valueOf

section values

variable (numerals : Numerals)

/-- The values a key admits. -/
def Admissible : Key → Str → Prop
  | .mode, value => value ∈ ["client".toList, "server".toList, "loopback".toList]
  | .transport, value => value ∈ ["loopback".toList, "amqp".toList]
  | .maxTraceDepth, value => (numerals.int value).isSome
  | .collectAwaitFrames, value => isTrue value ∨ isFalse value
  | _, _ => True

/-- What the options hold for a key that was given with a value. -/
def Holds (options : NamespaceOptions) : Key → Str → Prop
  | .name, value => options.name = String.ofList value
  | .mode, value => options.mode.text = value
  | .transport, value => options.transport.text = value
  | .url, value => options.url = some (String.ofList value)
  | .hostname, value => options.hostname = some (String.ofList value)
  | .maxTraceDepth, value =>
    options.maxTraceDepth.isSome ∧ options.maxTraceDepth = numerals.int value
  | .traceFilterModules, value => options.traceFilterModules = some (readModules value)
  | .collectAwaitFrames, value =>
    isTrue value ∧ options.collectAwaitFrames = some true ∨
      isFalse value ∧ options.collectAwaitFrames = some false

/-- What the options hold for a key that was not given. -/
def HoldsDefault (options : NamespaceOptions) : Key → Prop
  | .name => options.name = "default"
  | .mode => options.mode = .loopback
  | .transport => options.transport = .loopback
  | .url => options.url = none
  | .hostname => options.hostname = none
  | .maxTraceDepth => options.maxTraceDepth = none
  | .traceFilterModules => options.traceFilterModules = none
  | .collectAwaitFrames => options.collectAwaitFrames = none

/-- The options say of each key what was given for it, or its default. -/
def Describes (values : Key → Option Str) (options : NamespaceOptions) : Prop :=
  ∀ key, (∀ value, values key = some value → Holds numerals options key value) ∧
    (values key = none → HoldsDefault options key)

end values

/-! ## Reading the values -/

section readOptions

variable {numerals : Numerals} {repr : Str → String} {spec text : Str}

theorem readMode_eq_ok_iff {mode : Mode} :
    readMode repr spec text = .ok mode ↔ mode.text = text := by
  unfold readMode
  constructor
  · intro h
    split at h
    · rename_i heq
      cases h
      exact heq.symm
    · split at h
      · rename_i heq
        cases h
        exact heq.symm
      · split at h
        · rename_i heq
          cases h
          exact heq.symm
        · cases h
  · rintro rfl
    cases mode <;> rfl

theorem readTransport_eq_ok_iff {transport : TransportName} :
    readTransport repr spec text = .ok transport ↔ transport.text = text := by
  unfold readTransport
  constructor
  · intro h
    split at h
    · rename_i heq
      cases h
      exact heq.symm
    · split at h
      · rename_i heq
        cases h
        exact heq.symm
      · cases h
  · rintro rfl
    cases transport <;> rfl

theorem readDepth_eq_ok_iff {value : Option Str} {depth : Option Int} :
    readDepth numerals repr spec value = .ok depth ↔
      (∀ text, value = some text → depth.isSome ∧ depth = numerals.int text) ∧
      (value = none → depth = none) := by
  cases value with
  | none =>
    constructor
    · intro h
      cases h
      exact ⟨fun _ h => (nomatch h), fun _ => rfl⟩
    · rintro ⟨-, hdepth⟩
      rw [hdepth rfl]
      rfl
  | some text =>
    constructor
    · intro h
      refine ⟨?_, fun h => (nomatch h)⟩
      rintro _ ⟨⟩
      cases hint : numerals.int text with
      | none => simp [readDepth, hint] at h
      | some n =>
        simp only [readDepth, hint] at h
        cases h
        exact ⟨rfl, rfl⟩
    · rintro ⟨hvalue, -⟩
      obtain ⟨hsome, hdepth⟩ := hvalue text rfl
      obtain ⟨n, rfl⟩ := Option.isSome_iff_exists.1 hsome
      simp [readDepth, ← hdepth]

theorem isFalse_of_isTrue (h : isTrue text = true) : isFalse text = false := by
  simp only [isTrue, List.any_cons, List.any_nil, Bool.or_eq_true, decide_eq_true_eq,
    Bool.false_eq_true, or_false] at h
  simp only [isFalse]
  rcases h with h | h | h <;> rw [h] <;> decide

theorem readFrames_eq_ok_iff {value : Option Str} {frames : Option Bool} :
    readFrames repr spec value = .ok frames ↔
      (∀ text, value = some text → isTrue text ∧ frames = some true ∨
        isFalse text ∧ frames = some false) ∧
        (value = none → frames = none) := by
  cases value with
  | none =>
    constructor
    · intro h
      cases h
      exact ⟨fun _ h => (nomatch h), fun _ => rfl⟩
    · rintro ⟨-, hframes⟩
      rw [hframes rfl]
      rfl
  | some text =>
    constructor
    · intro h
      refine ⟨?_, fun h => (nomatch h)⟩
      rintro _ ⟨⟩
      simp only [readFrames] at h
      split at h
      · rename_i htrue
        cases h
        exact Or.inl ⟨htrue, rfl⟩
      · split at h
        · rename_i hfalse
          cases h
          exact Or.inr ⟨hfalse, rfl⟩
        · cases h
    · rintro ⟨hvalue, -⟩
      rcases hvalue text rfl with ⟨htrue, rfl⟩ | ⟨hfalse, rfl⟩
      · simp [readFrames, htrue]
      · have htrue : isTrue text = false := by
          by_contra h
          simp [isFalse_of_isTrue (by simpa using h)] at hfalse
        simp [readFrames, htrue, hfalse]

/-- A value that was given, or the default. -/
theorem getD_iff {α : Type} {value : Option Str} {f : Str → α} {a d : α} {text : Str}
    (hd : f text = d) :
    f (value.getD text) = a ↔ (∀ text, value = some text → a = f text) ∧
    (value = none → a = d) := by
  cases value <;> simp [← hd, eq_comm]

theorem map_iff {α : Type} {value : Option Str} {f : Str → α} {a : Option α} :
    value.map f = a ↔ (∀ text, value = some text → a = some (f text)) ∧
    (value = none → a = none) := by
  cases value <;> simp [eq_comm]

theorem text_iff {α : Type} {value : Option Str} {f : α → Str} (hf : Function.Injective f)
    {a d : α} :
    f a = value.getD (f d) ↔ (∀ text, value = some text → f a = text) ∧ (value = none → a = d) := by
  cases value <;> simp [hf.eq_iff]

/-- **What follows the loop** returns the options that the values describe. -/
theorem readOptions_eq_ok_iff {raw : Dict Key Str} {options : NamespaceOptions} :
    readOptions numerals repr spec raw = .ok options ↔ Describes numerals raw.get? options := by
  unfold readOptions
  simp only [Raising.bind_eq_ok_iff, readMode_eq_ok_iff, readTransport_eq_ok_iff,
    readDepth_eq_ok_iff, readFrames_eq_ok_iff]
  constructor
  · rintro ⟨mode, hm, transport, ht, depth, hd, frames, hf, h⟩
    cases h
    intro key
    cases key with
    | name => exact (getD_iff rfl).1 rfl
    | mode => exact (text_iff Mode.text_injective (d := .loopback)).1 hm
    | transport => exact (text_iff TransportName.text_injective (d := .loopback)).1 ht
    | url => exact map_iff.1 rfl
    | hostname => exact map_iff.1 rfl
    | maxTraceDepth => exact hd
    | traceFilterModules => exact map_iff.1 rfl
    | collectAwaitFrames => exact hf
  · intro h
    have hmode := (text_iff Mode.text_injective (d := .loopback)).2 (h .mode)
    have htransport := (text_iff TransportName.text_injective (d := .loopback)).2 (h .transport)
    refine ⟨options.mode, hmode, options.transport, htransport, options.maxTraceDepth,
      h .maxTraceDepth,
      options.collectAwaitFrames, h .collectAwaitFrames, ?_⟩
    have hname : String.ofList ((raw.get? .name).getD "default".toList) = options.name :=
      (getD_iff rfl).2 (h .name)
    have hurl : (raw.get? .url).map String.ofList = options.url := map_iff.2 (h .url)
    have hhostname : (raw.get? .hostname).map String.ofList = options.hostname :=
      map_iff.2 (h .hostname)
    have hmodules : (raw.get? .traceFilterModules).map readModules = options.traceFilterModules :=
      map_iff.2 (h .traceFilterModules)
    rw [hname, hurl, hhostname, hmodules]
    rfl

end readOptions

/-! ## The loop -/

section loop

variable {repr : Str → String} {spec item : Str} {parts : List Str} {raw raw' : Dict Key Str}

theorem setKey_eq_ok_iff {key value : Str} :
    setKey repr spec raw key value = .ok raw' ↔
      ∃ known : Key, known.text = key ∧ raw.get? known = none ∧ raw' = raw.set known value := by
  unfold setKey
  cases hkey : Key.ofText key with
  | none =>
    constructor
    · intro h
      cases h
    · rintro ⟨known, rfl, -⟩
      rw [Key.ofText_text] at hkey
      cases hkey
  | some known =>
    have htext := Key.ofText_eq_some_iff.1 hkey
    constructor
    · intro h
      simp only at h
      split at h
      · cases h
      · rename_i hnew
        cases h
        exact ⟨known, htext, by simpa using hnew, rfl⟩
    · rintro ⟨known', htext', hnew, rfl⟩
      obtain rfl := Key.text_injective (htext'.trans htext.symm)
      simp [hnew]

/-- What one turn does. -/
theorem addItem_eq_ok_iff :
    addItem repr spec raw item = .ok raw' ↔
      strip item = [] ∧ raw' = raw ∨
        strip item ≠ [] ∧ '=' ∈ strip item ∧ ∃ key : Key, key.text = keyOf (strip item) ∧
        raw.get? key = none ∧
          raw' = raw.set key (valueOf (strip item)) := by
  simp only [addItem]
  by_cases hempty : strip item = []
  · simp [hempty, eq_comm]
  by_cases hequals : '=' ∈ strip item
  · rw [if_neg hempty, Text.cut_of_mem hequals]
    refine setKey_eq_ok_iff.trans ⟨fun h => Or.inr ⟨hempty, hequals, h⟩, fun h => ?_⟩
    exact (h.resolve_left fun hskip => hempty hskip.1).2.2
  · simp [hempty, hequals, Text.cut_eq_none_iff.2 hequals]

theorem wellFormed_cons {items : List Str} :
    WellFormed (item :: items) ↔
      ('=' ∈ item ∧ (∃ key : Key, key.text = keyOf item) ∧ keyOf item ∉ items.map keyOf) ∧
      WellFormed items := by
  constructor
  · intro h
    obtain ⟨hnew, honce⟩ := List.nodup_cons.1 h.once
    exact ⟨⟨h.hasEquals item List.mem_cons_self, h.known item List.mem_cons_self, hnew⟩,
      fun i hi => h.hasEquals i (List.mem_cons_of_mem _ hi), fun i hi =>
        h.known i (List.mem_cons_of_mem _ hi), honce⟩
  · rintro ⟨⟨hequals, hknown, hnew⟩, h⟩
    exact ⟨List.forall_mem_cons.2 ⟨hequals, h.hasEquals⟩, List.forall_mem_cons.2 ⟨hknown, h.known⟩,
      List.nodup_cons.2 ⟨hnew, h.once⟩⟩

theorem given_cons {items : List Str} {key : Key} :
    given (item :: items) key = if keyOf item = key.text then some (valueOf item)
    else given items key := by
  by_cases h : keyOf item = key.text <;> simp [given, h]

theorem trimItems_cons :
    trimItems (item :: parts) = if strip item = [] then trimItems parts else strip item ::
    trimItems parts := by
  by_cases h : strip item = [] <;> simp [trimItems, h]

theorem given_eq_none_iff {items : List Str} {key : Key} :
    given items key = none ↔ key.text ∉ items.map keyOf := by
  simp [given, List.find?_eq_none]

theorem keyOf_ne {key key' : Key} (htext : key.text = keyOf item) (hne : key' ≠ key) :
    keyOf item ≠ key'.text := fun h =>
  hne (Key.text_injective (h.symm.trans htext.symm))

/-- **What the loop collects** from well-formed items, none of them for a key that is already there.
-/
theorem foldlM_addItem (h : parts.foldlM (addItem repr spec) raw = .ok raw') :
    WellFormed (trimItems parts) ∧ (∀ key, (raw.get? key).isSome → given
      (trimItems parts) key = none) ∧
      ∀ key, raw'.get? key = (given (trimItems parts) key).or (raw.get? key) := by
  induction parts generalizing raw with
  | nil =>
    cases h
    exact ⟨⟨by simp [trimItems], by simp [trimItems], by simp [trimItems]⟩, fun _ _ => rfl,
      fun _ => rfl⟩
  | cons item parts ih =>
    obtain ⟨mid, hitem, hrest⟩ := Raising.foldlM_cons_eq_ok_iff.1 h
    obtain ⟨hwf, hnew, hget⟩ := ih hrest
    rw [trimItems_cons]
    rcases addItem_eq_ok_iff.1 hitem with ⟨hempty, rfl⟩ | ⟨hne, hequals, key, htext, hkey, rfl⟩
    · rw [if_pos hempty]
      exact ⟨hwf, hnew, hget⟩
    · rw [if_neg hne]
      have hfresh : given (trimItems parts) key = none := hnew key (by simp)
      refine ⟨wellFormed_cons.2 ⟨⟨hequals, ⟨key, htext⟩, ?_⟩, hwf⟩, ?_, ?_⟩
      · rw [← htext]
        exact given_eq_none_iff.1 hfresh
      · intro key' hkey'
        have hne' : key' ≠ key := by
          rintro rfl
          rw [hkey] at hkey'
          cases hkey'
        rw [given_cons, if_neg (keyOf_ne htext hne')]
        exact hnew key' (by rw [Dict.get?_set, if_neg hne']; exact hkey')
      · intro key'
        rw [hget, given_cons, Dict.get?_set]
        by_cases heq : key' = key
        · subst heq
          simp [htext, hfresh]
        · rw [if_neg heq, if_neg (keyOf_ne htext heq)]

theorem exists_foldlM_addItem (hwf : WellFormed (trimItems parts))
    (hnew : ∀ key, (raw.get? key).isSome → given (trimItems parts) key = none) :
    ∃ raw', parts.foldlM (addItem repr spec) raw = .ok raw' := by
  induction parts generalizing raw with
  | nil => exact ⟨raw, rfl⟩
  | cons item parts ih =>
    rw [trimItems_cons] at hwf hnew
    by_cases hempty : strip item = []
    · rw [if_pos hempty] at hwf hnew
      obtain ⟨raw', hraw'⟩ := ih hwf hnew
      exact ⟨raw', Raising.foldlM_cons_eq_ok_iff.2
        ⟨raw, addItem_eq_ok_iff.2 (Or.inl ⟨hempty, rfl⟩), hraw'⟩⟩
    · rw [if_neg hempty] at hwf hnew
      obtain ⟨⟨hequals, ⟨key, htext⟩, hfresh⟩, hwf⟩ := wellFormed_cons.1 hwf
      have hkey : raw.get? key = none := by
        by_contra hsome
        have := hnew key (Option.isSome_iff_ne_none.2 hsome)
        simp [given_cons, htext] at this
      have hset : addItem repr spec raw item = .ok (raw.set key (valueOf (strip item))) :=
        addItem_eq_ok_iff.2 (Or.inr ⟨hempty, hequals, key, htext, hkey, rfl⟩)
      have hnew' : ∀ key', ((raw.set key (valueOf (strip item))).get? key').isSome →
          given (trimItems parts) key' = none := by
        intro key' hkey'
        by_cases heq : key' = key
        · rw [heq, given_eq_none_iff, htext]
          exact hfresh
        · rw [Dict.get?_set, if_neg heq] at hkey'
          have hgiven := hnew key' hkey'
          rwa [given_cons, if_neg (keyOf_ne htext heq)] at hgiven
      obtain ⟨raw', hraw'⟩ := ih hwf hnew'
      exact ⟨raw', Raising.foldlM_cons_eq_ok_iff.2 ⟨_, hset, hraw'⟩⟩

end loop

section parse

variable {numerals : Numerals} {repr : Str → String} {spec : Str} {options : NamespaceOptions}

theorem parseNamespaceSpec_eq_ok_iff :
    parseNamespaceSpec numerals repr spec = .ok options ↔
      WellFormed (items spec) ∧ Describes numerals (given (items spec)) options := by
  have collected : ∀ {raw}, (spec.splitOn ',').foldlM (addItem repr spec) Dict.empty = .ok raw →
      WellFormed (items spec) ∧ raw.get? = given (items spec) := by
    intro raw hraw
    obtain ⟨hwf, -, hget⟩ := foldlM_addItem hraw
    exact ⟨hwf, funext fun key => by simpa [items] using hget key⟩
  unfold parseNamespaceSpec
  constructor
  · intro h
    obtain ⟨raw, hraw, hread⟩ := Raising.bind_eq_ok_iff.1 h
    obtain ⟨hwf, hget⟩ := collected hraw
    rw [readOptions_eq_ok_iff, hget] at hread
    exact ⟨hwf, hread⟩
  · rintro ⟨hwf, hdescribes⟩
    obtain ⟨raw, hraw⟩ : ∃ raw, (spec.splitOn ',').foldlM (addItem repr spec) Dict.empty =
        .ok raw :=
      exists_foldlM_addItem hwf fun key h => by simp at h
    obtain ⟨-, hget⟩ := collected hraw
    rw [Raising.bind_eq_ok_iff]
    exact ⟨raw, hraw, readOptions_eq_ok_iff.2 (hget ▸ hdescribes)⟩

theorem Holds.admissible {key : Key} {value : Str} (h : Holds numerals options key value) :
    Admissible numerals key value := by
  cases key with
  | mode =>
    obtain rfl : options.mode.text = value := h
    show options.mode.text ∈ _
    cases options.mode <;> decide
  | transport =>
    obtain rfl : options.transport.text = value := h
    show options.transport.text ∈ _
    cases options.transport <;> decide
  | maxTraceDepth =>
    obtain ⟨hsome, hint⟩ : options.maxTraceDepth.isSome ∧
      options.maxTraceDepth = numerals.int value := h
    rw [hint] at hsome
    exact hsome
  | collectAwaitFrames => exact h.imp And.left And.left
  | _ => trivial

/-- A value for what was given, the default otherwise. -/
theorem exists_value {α : Type} {given : Option Str} {P : Str → α → Prop} {d : α}
    (h : ∀ text, given = some text → ∃ a, P text a) :
    ∃ a, (∀ text, given = some text → P text a) ∧ (given = none → a = d) := by
  cases given with
  | none => exact ⟨d, fun _ h => (nomatch h), fun _ => rfl⟩
  | some text =>
    obtain ⟨a, ha⟩ := h text rfl
    exact ⟨a, fun _ heq => Option.some.inj heq ▸ ha, fun h => (nomatch h)⟩

/-- Admissible values describe some options. -/
theorem exists_describes {values : Key → Option Str}
    (h : ∀ key value, values key = some value → Admissible numerals key value) :
    ∃ options, Describes numerals values options := by
  have mode : ∀ text, values .mode = some text → ∃ mode : Mode, mode.text = text := by
    intro text hv
    have hadm : text ∈ ["client".toList, "server".toList, "loopback".toList] := h .mode text hv
    simp only [List.mem_cons, List.not_mem_nil, or_false] at hadm
    rcases hadm with rfl | rfl | rfl
    · exact ⟨.client, rfl⟩
    · exact ⟨.server, rfl⟩
    · exact ⟨.loopback, rfl⟩
  have transport : ∀ text, values .transport = some text → ∃ transport : TransportName,
      transport.text = text := by
    intro text hv
    have hadm : text ∈ ["loopback".toList, "amqp".toList] := h .transport text hv
    simp only [List.mem_cons, List.not_mem_nil, or_false] at hadm
    rcases hadm with rfl | rfl
    · exact ⟨.loopback, rfl⟩
    · exact ⟨.amqp, rfl⟩
  have depth : ∀ text, values .maxTraceDepth = some text → ∃ depth : Option Int, depth.isSome ∧
      depth = numerals.int text :=
    fun text hv => ⟨numerals.int text, h .maxTraceDepth text hv, rfl⟩
  have frames : ∀ text, values .collectAwaitFrames = some text →
      ∃ frames : Option Bool, isTrue text ∧ frames = some true ∨
        isFalse text ∧ frames = some false := by
    intro text hv
    rcases h .collectAwaitFrames text hv with htrue | hfalse
    · exact ⟨some true, Or.inl ⟨htrue, rfl⟩⟩
    · exact ⟨some false, Or.inr ⟨hfalse, rfl⟩⟩
  obtain ⟨mode, hmode⟩ := exists_value (d := Mode.loopback) mode
  obtain ⟨transport, htransport⟩ := exists_value (d := TransportName.loopback) transport
  obtain ⟨depth, hdepth⟩ := exists_value (d := none) depth
  obtain ⟨frames, hframes⟩ := exists_value (d := none) frames
  refine ⟨{ name := String.ofList ((values .name).getD "default".toList), mode := mode, transport := transport,
            url := (values .url).map String.ofList, hostname :=
              (values .hostname).map String.ofList,
            maxTraceDepth := depth, traceFilterModules :=
              (values .traceFilterModules).map readModules,
            collectAwaitFrames := frames }, fun key => ?_⟩
  cases key with
  | name => exact (getD_iff rfl).1 rfl
  | mode => exact hmode
  | transport => exact htransport
  | url => exact map_iff.1 rfl
  | hostname => exact map_iff.1 rfl
  | maxTraceDepth => exact hdepth
  | traceFilterModules => exact map_iff.1 rfl
  | collectAwaitFrames => exact hframes

end parse

/-! ## What does not count -/

/-- What is read of an item. -/
def view (item : Str) : Prop × Str × Str := ('=' ∈ item, keyOf item, valueOf item)

section views

variable {l l' : List Str}

theorem WellFormed.of_views (hw : WellFormed l) (h : (l.map view).Perm (l'.map view)) :
    WellFormed l' := by
  have same : ∀ item ∈ l', ∃ other ∈ l, view other = view item := fun item hitem =>
    List.mem_map.1 (h.mem_iff.2 (List.mem_map_of_mem hitem))
  refine ⟨fun item hitem => ?_, fun item hitem => ?_, ?_⟩
  · obtain ⟨other, hother, hview⟩ := same item hitem
    exact (congrArg Prod.fst hview).mp (hw.hasEquals other hother)
  · obtain ⟨other, hother, hview⟩ := same item hitem
    obtain ⟨key, hkey⟩ := hw.known other hother
    exact ⟨key, hkey.trans (congrArg (fun v => v.2.1) hview)⟩
  · have hkeys := h.map fun v => v.2.1
    simp only [List.map_map] at hkeys
    exact hkeys.nodup_iff.1 hw.once

theorem WellFormed.given_eq_some_iff (hw : WellFormed l) {key : Key} {value : Str} :
    given l key = some value ↔ (True, key.text, value) ∈ l.map view := by
  constructor
  · intro h
    obtain ⟨item, hfind, rfl⟩ := Option.map_eq_some_iff.1 h
    have hitem := List.mem_of_find?_eq_some hfind
    have hkey : keyOf item = key.text := by simpa using List.find?_some hfind
    exact List.mem_map.2 ⟨item, hitem, by simp [view, hw.hasEquals item hitem, hkey]⟩
  · intro h
    obtain ⟨item, hitem, hview⟩ := List.mem_map.1 h
    obtain ⟨hkey, rfl⟩ : keyOf item = key.text ∧ valueOf item = value := by
      simpa [view, hw.hasEquals item hitem] using hview
    have hsome : (l.find? fun item => keyOf item = key.text).isSome := by
      rw [List.find?_isSome]
      exact ⟨item, hitem, by simp [hkey]⟩
    obtain ⟨other, hother⟩ := Option.isSome_iff_exists.1 hsome
    have hkey' : keyOf other = key.text := by simpa using List.find?_some hother
    have heq : other = item :=
      List.inj_on_of_nodup_map hw.once (List.mem_of_find?_eq_some hother) hitem
        (hkey'.trans hkey.symm)
    rw [given, hother, heq]
    rfl

theorem WellFormed.given_eq (hw : WellFormed l) (h : (l.map view).Perm (l'.map view)) :
    given l = given l' := by
  funext key
  apply Option.ext
  intro value
  rw [hw.given_eq_some_iff, (hw.of_views h).given_eq_some_iff, h.mem_iff]

end views

section invariance

variable (numerals : Numerals) (repr : Str → String)

/-- What parsing gives, if it gives anything; the texts of errors have the whole value in them. -/
def parsed (spec : Str) : Option NamespaceOptions :=
    (parseNamespaceSpec numerals repr spec).toOption

variable {numerals repr}

theorem parsed_eq_some_iff {spec : Str} {options : NamespaceOptions} :
    parsed numerals repr spec = some options ↔
      parseNamespaceSpec numerals repr spec = .ok options := by
  unfold parsed
  cases parseNamespaceSpec numerals repr spec <;> simp [Except.toOption]

/-- Only what is read of the items counts, in any order. -/
theorem parsed_congr {spec spec' : Str} (h : ((items spec).map view).Perm
      ((items spec').map view)) :
    parsed numerals repr spec = parsed numerals repr spec' := by
  have oneWay : ∀ {spec spec' : Str} {options}, ((items spec).map view).Perm
    ((items spec').map view) →
      parseNamespaceSpec numerals repr spec = .ok options →
        parseNamespaceSpec numerals repr spec' = .ok options := by
    intro spec spec' options h hparse
    obtain ⟨hwf, hdescribes⟩ := parseNamespaceSpec_eq_ok_iff.1 hparse
    exact parseNamespaceSpec_eq_ok_iff.2 ⟨hwf.of_views h, hwf.given_eq h ▸ hdescribes⟩
  apply Option.ext
  intro options
  rw [parsed_eq_some_iff, parsed_eq_some_iff]
  exact ⟨oneWay h, oneWay h.symm⟩

theorem items_join {parts : List Str} (h : ∀ part ∈ parts, ',' ∉ part) :
    items (Text.join ',' parts) = trimItems parts := by
  cases parts with
  | nil => rfl
  | cons part parts => rw [items, Text.splitOn_join h (List.cons_ne_nil _ _)]

theorem trimItems_append {l l' : List Str} : trimItems (l ++ l') = trimItems l ++ trimItems l' := by
  simp [trimItems]

/-- An item as its key and its value. -/
theorem view_strip {key : Str} (value : Str) (h : '=' ∉ key) :
    strip (key ++ '=' :: value) ≠ [] ∧
    view (strip (key ++ '=' :: value)) = (True, strip key, strip value) := by
  obtain ⟨a, b, hs, ha, hb⟩ := Text.exists_strip (key ++ '=' :: value)
  have hequals : '=' ∈ strip (key ++ '=' :: value) := by
    have hmem : '=' ∈ a ++ strip (key ++ '=' :: value) ++ b := hs ▸ (by simp)
    rcases List.mem_append.1 hmem with hmem | hmem
    · rcases List.mem_append.1 hmem with hmem | hmem
      · exact absurd (ha _ hmem) (by decide)
      · exact hmem
    · exact absurd (hb _ hmem) (by decide)
  -- the parts of the item are those of the trimmed one, with the blanks
  have hparts := Text.cut_blanks (y := b) (by decide) ha (Text.cut_of_mem hequals)
  rw [← hs, Text.cut_append h, Option.some.injEq, Prod.mk.injEq] at hparts
  obtain ⟨hkey, hvalue⟩ := hparts
  refine ⟨fun hnil => ?_, ?_⟩
  · rw [hnil] at hequals
    simp at hequals
  · have hk := Text.strip_append (s := (strip (key ++ '=' :: value)).takeWhile (· ≠ '='))
      (b := []) ha (by simp [Blank])
    have hv := Text.strip_append (a := [])
      (s := ((strip (key ++ '=' :: value)).dropWhile (· ≠ '=')).drop 1) (by simp [Blank]) hb
    rw [List.append_nil, ← hkey] at hk
    rw [List.nil_append, ← hvalue] at hv
    simp only [view, keyOf, valueOf, hequals, ← hk, ← hv]

theorem parsed_join_congr {parts parts' : List Str} (h : ∀ part ∈ parts, ',' ∉ part)
    (h' : ∀ part ∈ parts', ',' ∉ part)
    (hviews : ((trimItems parts).map view).Perm ((trimItems parts').map view)) :
    parsed numerals repr (Text.join ',' parts) = parsed numerals repr (Text.join ',' parts') := by
  apply parsed_congr
  rwa [items_join h, items_join h']

theorem parsed_perm {parts parts' : List Str} (h : ∀ part ∈ parts, ',' ∉ part)
    (hperm : parts.Perm parts') :
    parsed numerals repr (Text.join ',' parts) = parsed numerals repr (Text.join ',' parts') :=
  parsed_join_congr h (fun part hpart => h part (hperm.mem_iff.2 hpart))
    (((hperm.map strip).filter _).map view)

/-- Parts in the middle, replaced by others that say the same. -/
theorem parsed_replace {before after : List Str} (middle middle' : List Str)
    (h : ∀ part ∈ before ++ middle ++ after, ',' ∉ part) (h' : ∀ part ∈ middle', ',' ∉ part)
    (hviews : (trimItems middle').map view = (trimItems middle).map view) :
    parsed numerals repr (Text.join ',' (before ++ middle' ++ after)) =
      parsed numerals repr (Text.join ',' (before ++ middle ++ after)) := by
  have hbefore : ∀ part ∈ before, ',' ∉ part := fun part hpart =>
    h part (List.mem_append_left _ (List.mem_append_left _ hpart))
  have hafter : ∀ part ∈ after, ',' ∉ part :=
    fun part hpart => h part (List.mem_append_right _ hpart)
  refine parsed_join_congr ?_ h (List.Perm.of_eq ?_)
  · exact List.forall_mem_append.2 ⟨List.forall_mem_append.2 ⟨hbefore, h'⟩, hafter⟩
  · simp only [trimItems_append, List.map_append, hviews]

theorem comma_notMem_blank {a : Str} (h : Blank a) :
    ',' ∉ a := fun hc => absurd (h _ hc) (by decide)

theorem parsed_blanks {before after : List Str} {item a b : Str}
    (h : ∀ part ∈ before ++ item :: after, ',' ∉ part) (ha : Blank a) (hb : Blank b) :
    parsed numerals repr (Text.join ',' (before ++ (a ++ item ++ b) :: after)) =
      parsed numerals repr (Text.join ',' (before ++ item :: after)) := by
  have hitem : ',' ∉ item := h item (by simp)
  have hviews : (trimItems [a ++ item ++ b]).map view = (trimItems [item]).map view := by
    rw [trimItems_cons, trimItems_cons, Text.strip_append ha hb]
  simpa using parsed_replace [item] [a ++ item ++ b] (by simpa using h)
    (by simp [comma_notMem_blank ha, comma_notMem_blank hb, hitem]) hviews

theorem parsed_keyBlanks {before after : List Str} {key value a b c d : Str}
    (h : ∀ part ∈ before ++ (key ++ '=' :: value) :: after, ',' ∉ part) (hkey : '=' ∉ key)
    (ha : Blank a) (hb : Blank b) (hc : Blank c) (hd : Blank d) :
    parsed numerals repr (Text.join ',' (before ++ (a ++ key ++ b ++ '=' :: (c ++ value ++ d)) ::
      after)) =
        parsed numerals repr (Text.join ',' (before ++ (key ++ '=' :: value) :: after)) := by
  have hitem : ',' ∉ key ++ '=' :: value := h _ (by simp)
  have hequals : ∀ {x : Str}, Blank x → '=' ∉ x := fun hx hmem => absurd (hx _ hmem) (by decide)
  obtain ⟨hne, hview⟩ := view_strip value hkey
  have hkey' : '=' ∉ a ++ key ++ b := by simp [hequals ha, hequals hb, hkey]
  obtain ⟨hne', hview'⟩ := view_strip (c ++ value ++ d) hkey'
  rw [Text.strip_append ha hb, Text.strip_append hc hd] at hview'
  have hviews : (trimItems [a ++ key ++ b ++ '=' :: (c ++ value ++ d)]).map view =
      (trimItems [key ++ '=' :: value]).map view := by
    rw [trimItems_cons, trimItems_cons, if_neg hne, if_neg hne', List.map_cons, List.map_cons,
      hview, hview']
  have hcomma : ',' ∉ a ++ key ++ b ++ '=' :: (c ++ value ++ d) := by
    simpa [comma_notMem_blank ha, comma_notMem_blank hb, comma_notMem_blank hc,
      comma_notMem_blank hd] using hitem
  simpa using parsed_replace [key ++ '=' :: value] [a ++ key ++ b ++ '=' :: (c ++ value ++ d)]
    (by simpa using h)
    (by simpa using hcomma) hviews

theorem parsed_empty {before after : List Str} {a : Str} (h : ∀ part ∈ before ++ after, ',' ∉ part)
    (ha : Blank a) :
    parsed numerals repr (Text.join ',' (before ++ a :: after)) =
      parsed numerals repr (Text.join ',' (before ++ after)) := by
  have hviews : (trimItems [a]).map view = (trimItems []).map view := by
    rw [trimItems_cons, if_pos (Text.strip_eq_nil_iff.2 ha)]
  simpa using parsed_replace [] [a] (by simpa using h) (by simp [comma_notMem_blank ha]) hviews

end invariance

/-! ## Writing options -/

/-- A string that can be the value of an item. -/
structure PlainText (text : String) : Prop where
  trimmed : Trimmed text.toList
  noComma : ',' ∉ text.toList

structure PlainOptions (options : NamespaceOptions) : Prop where
  name : PlainText options.name
  url : ∀ url ∈ options.url, PlainText url
  hostname : ∀ hostname ∈ options.hostname, PlainText hostname
  modules : ∀ modules ∈ options.traceFilterModules, ∀ module ∈ modules, PlainText module ∧
    module ≠ "" ∧ ':' ∉ module.toList

section render

variable (numerals : Numerals)

/-- The text of an option's value, if it has one. -/
def valueText (options : NamespaceOptions) : Key → Option Str
  | .name => some options.name.toList
  | .mode => some options.mode.text
  | .transport => some options.transport.text
  | .url => options.url.map String.toList
  | .hostname => options.hostname.map String.toList
  | .maxTraceDepth => options.maxTraceDepth.bind numerals.str
  | .traceFilterModules =>
    options.traceFilterModules.map fun modules => Text.join ':' (modules.map String.toList)
  | .collectAwaitFrames =>
    options.collectAwaitFrames.map fun frames => if frames then "true".toList else "false".toList

def renderItem (key : Key) (value : Str) : Str := key.text ++ '=' :: value

/-- The items of some keys, in their order. -/
def renderSpec (options : NamespaceOptions) (keys : List Key) : Str :=
  Text.join ',' (keys.map fun key => renderItem key ((valueText numerals options key).getD []))

/-- An order of keys that have something to write, and of all that are not at their defaults. -/
structure Writes (options : NamespaceOptions) (keys : List Key) : Prop where
  nodup : keys.Nodup
  written : ∀ key ∈ keys, (valueText numerals options key).isSome
  defaults : ∀ key, key ∉ keys → HoldsDefault options key

variable {numerals} {options : NamespaceOptions} {key : Key} {value : Str} {keys : List Key}

theorem Key.trimmed_text (key : Key) : Trimmed key.text := by
  cases key <;> decide

theorem Key.noSeparator (key : Key) : key.text ≠ [] ∧ ',' ∉ key.text ∧ '=' ∉ key.text := by
  cases key <;> decide

theorem readModules_join {modules : List String}
    (h : ∀ module ∈ modules, module ≠ "" ∧ ':' ∉ module.toList) :
    readModules (Text.join ':' (modules.map String.toList)) = modules := by
  have hback : (modules.map String.toList).map String.ofList = modules := by
    simp [List.map_map, Function.comp_def]
  cases modules with
  | nil => rfl
  | cons module modules =>
    have hcolon : ∀ part ∈ (module :: modules).map String.toList, ':' ∉ part := by
      intro part hpart
      obtain ⟨m, hm, rfl⟩ := List.mem_map.1 hpart
      exact (h m hm).2
    rw [readModules, Text.splitOn_join hcolon (by simp), List.filter_eq_self.2, hback]
    intro part hpart
    obtain ⟨m, hm, rfl⟩ := List.mem_map.1 hpart
    simpa using (h m hm).1

/-- The text of a value is itself one, and the option holds it. -/
theorem valueText_spec (hplain : PlainOptions options)
    (h : valueText numerals options key = some value) :
    Trimmed value ∧ ',' ∉ value ∧ Holds numerals options key value := by
  cases key with
  | name =>
    cases h
    exact ⟨hplain.name.trimmed, hplain.name.noComma, by simp [Holds]⟩
  | mode =>
    cases h
    refine ⟨?_, ?_, rfl⟩ <;> cases options.mode <;> decide
  | transport =>
    cases h
    refine ⟨?_, ?_, rfl⟩ <;> cases options.transport <;> decide
  | url =>
    obtain ⟨url, hurl, rfl⟩ := Option.map_eq_some_iff.1 h
    exact ⟨(hplain.url url hurl).trimmed, (hplain.url url hurl).noComma, by simp [Holds, hurl]⟩
  | hostname =>
    obtain ⟨hostname, hhostname, rfl⟩ := Option.map_eq_some_iff.1 h
    exact ⟨(hplain.hostname hostname hhostname).trimmed,
      (hplain.hostname hostname hhostname).noComma, by simp [Holds, hhostname]⟩
  | maxTraceDepth =>
    obtain ⟨depth, hdepth, hstr⟩ := Option.bind_eq_some_iff.1 h
    refine ⟨Text.trimmed_of_forall fun c hc => ?_, fun hc =>
      ?_, by simp [Holds, hdepth, numerals.int_of_str hstr]⟩
    · rcases numerals.mem_str hstr hc with rfl | hdigit
      · decide
      · exact Numerals.isSpace_of_isDigit hdigit
    · rcases numerals.mem_str hstr hc with hc | hdigit
      · exact absurd hc (by decide)
      · exact absurd hdigit (by decide)
  | traceFilterModules =>
    obtain ⟨modules, hmodules, rfl⟩ := Option.map_eq_some_iff.1 h
    have hall := hplain.modules modules hmodules
    refine ⟨Text.trimmed_join (by decide) fun part hpart => ?_, fun hc => ?_, ?_⟩
    · obtain ⟨m, hm, rfl⟩ := List.mem_map.1 hpart
      exact ⟨(hall m hm).1.trimmed, by simpa using (hall m hm).2.1⟩
    · rcases Text.mem_join hc with hc | ⟨part, hpart, hc⟩
      · exact absurd hc (by decide)
      · obtain ⟨m, hm, rfl⟩ := List.mem_map.1 hpart
        exact (hall m hm).1.noComma hc
    · have hread := readModules_join fun m hm => (hall m hm).2
      simp [Holds, hmodules, hread]
  | collectAwaitFrames =>
    obtain ⟨frames, hframes, rfl⟩ := Option.map_eq_some_iff.1 h
    cases frames with
    | true => exact ⟨by decide, by decide, Or.inl ⟨by decide, hframes⟩⟩
    | false => exact ⟨by decide, by decide, Or.inr ⟨by decide, hframes⟩⟩

theorem trimmed_renderItem (h : Trimmed value) : Trimmed (renderItem key value) :=
  Text.trimmed_append key.trimmed_text key.noSeparator.1 (Text.trimmed_cons (by decide) h)

theorem view_renderItem (h : Trimmed value) :
    view (renderItem key value) = (True, key.text, value) := by
  have hview := (view_strip value key.noSeparator.2.2).2
  have hitem : strip (key.text ++ '=' :: value) = renderItem key value := trimmed_renderItem h
  have hkey : strip key.text = key.text := key.trimmed_text
  have hvalue : strip value = value := h
  rwa [hitem, hkey, hvalue] at hview

theorem trimItems_eq_self {parts : List Str} (h : ∀ part ∈ parts, Trimmed part ∧ part ≠ []) :
    trimItems parts = parts := by
  have hstrip : parts.map strip = parts :=
    (List.map_congr_left fun part hpart => (h part hpart).1).trans (List.map_id parts)
  rw [trimItems, hstrip, List.filter_eq_self]
  intro part hpart
  simpa using (h part hpart).2

/-- **What was written is read back.** -/
theorem parse_renderSpec {repr : Str → String} (hplain : PlainOptions options)
    (h : Writes numerals options keys) :
    parseNamespaceSpec numerals repr (renderSpec numerals options keys) = .ok options := by
  have text : ∀ key ∈ keys, ∃ value, valueText numerals options key = some value ∧ Trimmed value ∧
    ',' ∉ value ∧
      Holds numerals options key value := by
    intro key hkey
    obtain ⟨value, hvalue⟩ := Option.isSome_iff_exists.1 (h.written key hkey)
    exact ⟨value, hvalue, valueText_spec hplain hvalue⟩
  let item := fun key => renderItem key ((valueText numerals options key).getD [])
  have hitem : ∀ key ∈ keys, ',' ∉ item key ∧ Trimmed (item key) ∧ '=' ∈ item key ∧
      view (item key) = (True, key.text, (valueText numerals options key).getD []) := by
    intro key hkey
    obtain ⟨value, hvalue, htrim, hcomma, -⟩ := text key hkey
    have hkeytext := key.noSeparator
    simp only [item, hvalue, Option.getD_some]
    exact ⟨by simp [renderItem, hkeytext, hcomma], trimmed_renderItem htrim, by simp [renderItem],
      view_renderItem htrim⟩
  have hitems : items (renderSpec numerals options keys) = keys.map item := by
    rw [renderSpec, items_join, trimItems_eq_self]
    · intro part hpart
      obtain ⟨key, hkey, rfl⟩ := List.mem_map.1 hpart
      exact ⟨(hitem key hkey).2.1, List.ne_nil_of_mem (hitem key hkey).2.2.1⟩
    · intro part hpart
      obtain ⟨key, hkey, rfl⟩ := List.mem_map.1 hpart
      exact (hitem key hkey).1
  have hkeys : (keys.map item).map keyOf = keys.map Key.text := by
    rw [List.map_map]
    exact List.map_congr_left fun key hkey => congrArg (fun v => v.2.1) (hitem key hkey).2.2.2
  have hwf : WellFormed (keys.map item) := by
    refine ⟨List.forall_mem_map.2 fun key hkey => (hitem key hkey).2.2.1, List.forall_mem_map.2
      fun key hkey => ⟨key, ?_⟩, ?_⟩
    · exact (congrArg (fun v => v.2.1) (hitem key hkey).2.2.2).symm
    · rw [hkeys]
      exact h.nodup.map Key.text_injective
  rw [parseNamespaceSpec_eq_ok_iff, hitems]
  refine ⟨hwf, fun key => ?_⟩
  by_cases hkey : key ∈ keys
  · obtain ⟨value, hvalue, -, -, hholds⟩ := text key hkey
    have hgiven : given (keys.map item) key = some value := by
      rw [hwf.given_eq_some_iff, List.map_map]
      exact List.mem_map.2 ⟨key, hkey, by simp [(hitem key hkey).2.2.2, hvalue]⟩
    rw [hgiven]
    exact ⟨fun _ heq => Option.some.inj heq ▸ hholds, fun hnone => (nomatch hnone)⟩
  · have hgiven : given (keys.map item) key = none := by
      rw [given_eq_none_iff, hkeys]
      intro hmem
      obtain ⟨key', hkey', htext⟩ := List.mem_map.1 hmem
      exact hkey (Key.text_injective htext ▸ hkey')
    rw [hgiven]
    exact ⟨fun _ heq => (nomatch heq), fun _ => h.defaults key hkey⟩

end render

/-- **The parser of namespace options accepts exactly its grammar and inverts rendering.** -/
theorem parseNamespaceSpec_correct (numerals : Numerals) (repr : Str → String) :
    (∀ spec, (∃ options, parseNamespaceSpec numerals repr spec = .ok options) ↔
      WellFormed (items spec) ∧ ∀ key value, given (items spec) key = some value →
      Admissible numerals key value) ∧
    (∀ spec options, parseNamespaceSpec numerals repr spec = .ok options → Describes numerals
      (given (items spec)) options) ∧
    (∀ parts parts', parts.Perm parts' → (∀ part ∈ parts, ',' ∉ part) →
      parsed numerals repr (Text.join ',' parts) = parsed numerals repr (Text.join ',' parts')) ∧
    (∀ before after item a b, (∀ part ∈ before ++ item :: after, ',' ∉ part) → Blank a → Blank b →
      parsed numerals repr (Text.join ',' (before ++ (a ++ item ++ b) :: after)) =
        parsed numerals repr (Text.join ',' (before ++ item :: after))) ∧
    (∀ before after key value a b c d, (∀ part ∈ before ++ (key ++ '=' :: value) :: after,
      ',' ∉ part) → '=' ∉ key →
      Blank a → Blank b → Blank c → Blank d →
      parsed numerals repr (Text.join ','
        (before ++ (a ++ key ++ b ++ '=' :: (c ++ value ++ d)) :: after)) =
          parsed numerals repr (Text.join ',' (before ++ (key ++ '=' :: value) :: after))) ∧
    (∀ before after a, (∀ part ∈ before ++ after, ',' ∉ part) → Blank a →
      parsed numerals repr (Text.join ',' (before ++ a :: after)) =
        parsed numerals repr (Text.join ',' (before ++ after))) ∧
    ∀ options keys, PlainOptions options → Writes numerals options keys →
      parseNamespaceSpec numerals repr (renderSpec numerals options keys) = .ok options := by
  refine ⟨fun spec => ?_, fun spec options h => (parseNamespaceSpec_eq_ok_iff.1 h).2,
    fun _ _ hperm h => parsed_perm h hperm,
    fun _ _ _ _ _ h ha hb => parsed_blanks h ha hb, fun _ _ _ _ _ _ _ _ h hkey ha hb hc hd =>
      parsed_keyBlanks h hkey ha hb hc hd,
    fun _ _ _ h ha => parsed_empty h ha, fun _ _ hplain h => parse_renderSpec hplain h⟩
  simp only [parseNamespaceSpec_eq_ok_iff]
  constructor
  · rintro ⟨options, hwf, hdescribes⟩
    exact ⟨hwf, fun key value hvalue => ((hdescribes key).1 value hvalue).admissible⟩
  · rintro ⟨hwf, hadmissible⟩
    obtain ⟨options, hdescribes⟩ := exists_describes hadmissible
    exact ⟨options, hwf, hdescribes⟩

example : parsed .plain
    (fun _ => "") " url = amqp://h/?a=b ,,mode=server,max-trace-depth=-1_0".toList =
    some { mode := .server, url := some "amqp://h/?a=b", maxTraceDepth := some (-10) } := by decide

end Atasks.Commands
