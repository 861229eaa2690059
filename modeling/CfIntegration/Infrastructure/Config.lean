import CfIntegration.Infrastructure.Checkout
import CfIntegration.Mcp.EventStream

/-! # The environment and the file that supplements it

A value of the process wins over the `.env` file, and in the file the first valid
assignment of a variable wins over later ones. What is neither an assignment, a
comment nor blank is reported.
-/

namespace CfIntegration.Infrastructure.Config

open Checkout (OsString OsUnit PathBuf ErrorPart InfrastructureError)
open Mcp.Protocol (isWhitespace)
open Text

inductive ValueOrigin where
  | process
  | dotenv
  | default
  deriving DecidableEq, Repr

structure SourcedValue where
  value : OsString
  origin : ValueOrigin
  deriving DecidableEq

/-- The values supplied by the process. -/
abbrev Environment := OsString → Option OsString

structure LoadedEnvironment where
  values : OsString → Option SourcedValue
  warnings : List (List Char)

def osText (text : List Char) : OsString := text.map OsUnit.char

/-- Texts are told apart by their units. -/
theorem osText_injective : Function.Injective osText :=
  List.map_injective_iff.mpr fun _ _ hsame => OsUnit.char.inj hsame

/-- What reading a file as text meets; text that is not UTF-8 is a failure too. -/
inductive ReadError where
  | notFound
  | other (text : String)
  deriving DecidableEq, Repr

def isAsciiAlphabetic (char : Char) : Bool :=
  ('A' ≤ char && char ≤ 'Z') || ('a' ≤ char && char ≤ 'z')

def isAsciiDigit (char : Char) : Bool := '0' ≤ char && char ≤ '9'

def isValidKey : List Char → Bool
  | [] => false
  | first :: rest => (isAsciiAlphabetic first || first == '_') &&
      rest.all fun char => isAsciiAlphabetic char || isAsciiDigit char || char == '_'

def stripOuterQuotes (value : List Char) : List Char :=
  if 2 ≤ value.length ∧ (value.head? = some '\'' ∧ value.getLast? = some '\'' ∨
      value.head? = some '"' ∧ value.getLast? = some '"') then value.tail.dropLast
  else value

/-- A line without the white space before it. -/
def trimStart (line : List Char) : List Char := line.dropWhile isWhitespace

/-- A line that is blank or a comment. -/
def Skipped (line : List Char) : Prop := trimStart line = [] ∨ (trimStart line).head? = some '#'

instance (line : List Char) : Decidable (Skipped line) := inferInstanceAs (Decidable (_ ∨ _))

def LoadedEnvironment.warn (loaded : LoadedEnvironment) (text : List Char) : LoadedEnvironment :=
  { loaded with warnings := loaded.warnings ++ [text] }

def LoadedEnvironment.insert (loaded : LoadedEnvironment) (key value : List Char) :
    LoadedEnvironment :=
  { loaded with
    values := Function.update loaded.values (osText key) (some ⟨osText value, .dotenv⟩) }

/-- One line of the file. -/
def loadLine (loaded : LoadedEnvironment) (indexed : List Char × Nat) : LoadedEnvironment :=
  let lineNumber := indexed.2 + 1
  let line := trimStart indexed.1
  if Skipped indexed.1 then loaded
  else
    let assignment := (stripPrefix "export ".toList line).getD line
    match splitOnce ['='] assignment with
    | none => loaded.warn s!"invalid .env line {lineNumber}: expected KEY=value".toList
    | some (key, value) =>
        if isValidKey key = false then
          loaded.warn (s!"invalid .env key on line {lineNumber}: ".toList ++ key)
        else if (loaded.values (osText key)).isSome then loaded
        else loaded.insert key (stripOuterQuotes value)

/-- The values of the process alone. -/
def LoadedEnvironment.ofProcess (process : Environment) : LoadedEnvironment where
  values key := (process key).map fun value => ⟨value, .process⟩
  warnings := []

/-- The values after some lines of the file. -/
def loadLines (process : Environment) (lines : List (List Char)) : LoadedEnvironment :=
  lines.zipIdx.foldl loadLine (.ofProcess process)

/-- `dotenv` is what reading the file as text gives. -/
def loadEnvironment (root : PathBuf) (dotenv : Except ReadError (List Char))
    (process : Environment) : Except InfrastructureError LoadedEnvironment :=
  match dotenv with
  | .ok contents => .ok (loadLines process (lines contents))
  | .error .notFound => .ok (.ofProcess process)
  | .error (.other text) =>
      .error [[.text "failed to read dotenv file ",
        .path (root ++ [.normal (osText ".env".toList)])], [.text text]]

/-- A line assigns a value to a variable, with or without the word `export`. -/
inductive Assigns (line : List Char) : List Char → List Char → Prop where
  | plain {key value : List Char} (hkey : isValidKey key = true)
      (hline : trimStart line = key ++ '=' :: value) : Assigns line key (stripOuterQuotes value)
  | exported {key value : List Char} (hkey : isValidKey key = true)
      (hline : trimStart line = "export ".toList ++ (key ++ '=' :: value)) :
      Assigns line key (stripOuterQuotes value)

/-- A key as it is read from a line, which need not be valid. -/
def readKey (line : List Char) : Option (List Char × List Char) :=
  splitOnce ['='] ((stripPrefix "export ".toList (trimStart line)).getD (trimStart line))

section Key

variable {key : List Char}

theorem toNat_of_isWhitespace {char : Char} (hspace : isWhitespace char = true) :
    char.toNat ≤ 0x20 ∨ 0x85 ≤ char.toNat := by
  simp only [isWhitespace, Bool.or_eq_true, Bool.and_eq_true, decide_eq_true_eq, Char.le_def,
    UInt32.le_iff_toNat_le] at hspace
  rcases hspace with (⟨-, hupper⟩ | hmem) | ⟨hlower, -⟩
  · exact .inl (hupper.trans (by decide))
  · have hall : ∀ other ∈ [' ', '\u0085', '\u00a0', '\u1680', '\u2028', '\u2029',
      '\u202f', '\u205f', '\u3000'], other.toNat ≤ 0x20 ∨ 0x85 ≤ other.toNat := by simp
    exact hall char hmem
  · exact .inr (le_trans (by decide) hlower)

theorem toNat_of_isAssignable {char : Char}
    (hkey : (isAsciiAlphabetic char || isAsciiDigit char || char == '_') = true) :
    0x20 < char.toNat ∧ char.toNat < 0x85 := by
  simp only [isAsciiAlphabetic, isAsciiDigit, Bool.or_eq_true, Bool.and_eq_true,
    decide_eq_true_eq, beq_iff_eq, Char.le_def, UInt32.le_iff_toNat_le] at hkey
  rcases hkey with ((⟨hlower, hupper⟩ | ⟨hlower, hupper⟩) | ⟨hlower, hupper⟩) | rfl
  · exact ⟨lt_of_lt_of_le (by decide) hlower, lt_of_le_of_lt hupper (by decide)⟩
  · exact ⟨lt_of_lt_of_le (by decide) hlower, lt_of_le_of_lt hupper (by decide)⟩
  · exact ⟨lt_of_lt_of_le (by decide) hlower, lt_of_le_of_lt hupper (by decide)⟩
  · decide

theorem isAssignable_of_mem (hkey : isValidKey key = true) {char : Char} (hmem : char ∈ key) :
    (isAsciiAlphabetic char || isAsciiDigit char || char == '_') = true := by
  cases key with
  | nil => cases hmem
  | cons first rest =>
      simp only [isValidKey, Bool.and_eq_true, List.all_eq_true] at hkey
      rcases List.mem_cons.mp hmem with rfl | hmem
      · rcases (Bool.or_eq_true _ _).mp hkey.1 with hfirst | hfirst <;> simp [hfirst]
      · exact hkey.2 char hmem

theorem notMem_of_isValidKey (hkey : isValidKey key = true) {char : Char}
    (hother : (isAsciiAlphabetic char || isAsciiDigit char || char == '_') = false) :
    char ∉ key := fun hmem => by
  rw [isAssignable_of_mem hkey hmem] at hother
  cases hother

/-- An assignment without the word does not begin with it. -/
theorem stripPrefix_export (hkey : isValidKey key = true) (value : List Char) :
    stripPrefix "export ".toList (key ++ '=' :: value) = none := by
  cases hstrip : stripPrefix "export ".toList (key ++ '=' :: value) with
  | none => rfl
  | some rest =>
      have hspace : ' ' ∉ key := notMem_of_isValidKey hkey (by decide)
      rcases List.append_eq_append_iff.mp (stripPrefix_eq_some.mp hstrip) with
        ⟨between, hword, hrest⟩ | ⟨between, hword, -⟩
      · cases between with
        | nil =>
            rw [List.append_nil] at hword
            exact absurd (hword ▸ by decide) hspace
        | cons char between =>
            obtain ⟨rfl, -⟩ := List.cons.inj hrest
            have hmem : '=' ∈ "export ".toList := by simp [hword]
            exact absurd hmem (by decide)
      · exact absurd (hword ▸ List.mem_append_left _ (by decide)) hspace

end Key

/-- What a line assigns is what is read from it, if the key is valid. -/
theorem assigns_iff {line key value : List Char} :
    Assigns line key value ↔ isValidKey key = true ∧
      ∃ raw, readKey line = some (key, raw) ∧ value = stripOuterQuotes raw := by
  constructor
  · intro hassigns
    cases hassigns with
    | @plain raw hkey hline =>
        refine ⟨hkey, raw, ?_, rfl⟩
        rw [readKey, hline, stripPrefix_export hkey, Option.getD_none, splitOnce_eq_some]
        exact ⟨rfl, notMem_of_isValidKey hkey (by decide)⟩
    | @exported raw hkey hline =>
        refine ⟨hkey, raw, ?_, rfl⟩
        rw [readKey, hline, stripPrefix_eq_some.mpr rfl, Option.getD_some, splitOnce_eq_some]
        exact ⟨rfl, notMem_of_isValidKey hkey (by decide)⟩
  · rintro ⟨hkey, raw, hread, rfl⟩
    unfold readKey at hread
    cases hstrip : stripPrefix "export ".toList (trimStart line) with
    | none =>
        rw [hstrip, Option.getD_none] at hread
        exact .plain hkey (splitOnce_eq_some.mp hread).1
    | some rest =>
        rw [hstrip, Option.getD_some] at hread
        exact .exported hkey (by rw [stripPrefix_eq_some.mp hstrip, (splitOnce_eq_some.mp hread).1])

/-- A line assigns at most one value, to one variable. -/
theorem Assigns.unique {line first second firstValue secondValue : List Char}
    (hfirst : Assigns line first firstValue) (hsecond : Assigns line second secondValue) :
    first = second ∧ firstValue = secondValue := by
  obtain ⟨-, raw, hread, rfl⟩ := assigns_iff.mp hfirst
  obtain ⟨-, otherRaw, hother, rfl⟩ := assigns_iff.mp hsecond
  obtain ⟨rfl, rfl⟩ := Prod.mk.inj (Option.some.inj (hread.symm.trans hother))
  exact ⟨rfl, rfl⟩

/-- A line that assigns is not skipped. -/
theorem Assigns.not_skipped {line key value : List Char} (hassigns : Assigns line key value) :
    ¬ Skipped line := by
  have hstart : ∀ {key rest : List Char}, isValidKey key = true →
      ¬ (key ++ rest = [] ∨ (key ++ rest).head? = some '#') := by
    intro key rest hkey hskipped
    cases key with
    | nil => cases hkey
    | cons first others =>
        rcases hskipped with hnil | hhead
        · cases hnil
        · cases hhead
          exact notMem_of_isValidKey hkey (by decide) List.mem_cons_self
  cases hassigns with
  | plain hkey hline =>
      rw [Skipped, hline]
      exact hstart hkey
  | exported hkey hline =>
      rw [Skipped, hline]
      rintro (hnil | hhead)
      · cases hnil
      · cases hhead

inductive Contribution where
  | assignment
  | shadowed
  | warning
  deriving DecidableEq, Repr

/-- A warning about a line names its number. -/
inductive WarnsOf (number : Nat) : List Char → Prop where
  | line : WarnsOf number s!"invalid .env line {number}: expected KEY=value".toList
  | key (key : List Char) : WarnsOf number (s!"invalid .env key on line {number}: ".toList ++ key)

/-- How a line changes what was loaded before it. -/
inductive Contributes (prior : LoadedEnvironment) (number : Nat) (line : List Char) :
    Contribution → LoadedEnvironment → Prop where
  | assignment {key value : List Char} (hassigns : Assigns line key value)
      (hfree : prior.values (osText key) = none) :
      Contributes prior number line .assignment (prior.insert key value)
  | shadowed {key value : List Char} (hassigns : Assigns line key value)
      (htaken : (prior.values (osText key)).isSome) :
      Contributes prior number line .shadowed prior
  | warning {text : List Char} (hinvalid : ∀ key value, ¬ Assigns line key value)
      (htext : WarnsOf number text) : Contributes prior number line .warning (prior.warn text)

/-- A line contributes in one way only. -/
theorem Contributes.unique {prior next otherNext : LoadedEnvironment} {number : Nat}
    {line : List Char} {contribution other : Contribution}
    (hfirst : Contributes prior number line contribution next)
    (hsecond : Contributes prior number line other otherNext) : contribution = other := by
  cases hfirst with
  | assignment hassigns hfree =>
      cases hsecond with
      | assignment => rfl
      | shadowed hother htaken =>
          obtain ⟨rfl, -⟩ := hassigns.unique hother
          rw [hfree] at htaken
          cases htaken
      | warning hinvalid => exact absurd hassigns (hinvalid _ _)
  | shadowed hassigns htaken =>
      cases hsecond with
      | assignment hother hfree =>
          obtain ⟨rfl, -⟩ := hassigns.unique hother
          rw [hfree] at htaken
          cases htaken
      | shadowed => rfl
      | warning hinvalid => exact absurd hassigns (hinvalid _ _)
  | warning hinvalid =>
      cases hsecond with
      | assignment hassigns => exact absurd hassigns (hinvalid _ _)
      | shadowed hassigns => exact absurd hassigns (hinvalid _ _)
      | warning => rfl

theorem loadLine_skipped {line : List Char} (hskipped : Skipped line) (loaded : LoadedEnvironment)
    (index : Nat) : loadLine loaded (line, index) = loaded := if_pos hskipped

/-- Every line that is not skipped contributes in one of the ways there are. -/
theorem loadLine_contributes {line : List Char} (hkept : ¬ Skipped line)
    (loaded : LoadedEnvironment) (index : Nat) :
    ∃ contribution,
      Contributes loaded (index + 1) line contribution (loadLine loaded (line, index)) := by
  simp only [loadLine, if_neg hkept]
  change ∃ contribution, Contributes _ _ _ contribution (match readKey line with
    | none => _
    | some (key, value) => _)
  cases hread : readKey line with
  | none =>
      refine ⟨.warning, .warning (fun key value hassigns => ?_) .line⟩
      obtain ⟨-, raw, hraw, -⟩ := assigns_iff.mp hassigns
      rw [hread] at hraw
      cases hraw
  | some halves =>
      obtain ⟨key, raw⟩ := halves
      dsimp only
      by_cases hkey : isValidKey key = true
      · have hassigns : Assigns line key (stripOuterQuotes raw) :=
          assigns_iff.mpr ⟨hkey, raw, hread, rfl⟩
        rw [if_neg (by simp [hkey])]
        by_cases htaken : (loaded.values (osText key)).isSome
        · rw [if_pos htaken]
          exact ⟨.shadowed, .shadowed hassigns htaken⟩
        · rw [if_neg htaken]
          exact ⟨.assignment, .assignment hassigns (by simpa using htaken)⟩
      · rw [if_pos (by simpa using hkey)]
        refine ⟨.warning, .warning (fun other value hassigns => ?_) (.key key)⟩
        obtain ⟨hother, otherRaw, hraw, -⟩ := assigns_iff.mp hassigns
        rw [hread] at hraw
        cases hraw
        exact hkey hother

/-- What a line assigns to one variable. -/
def assignedTo (key : OsString) (line : List Char) : Option OsString :=
  match readKey line with
  | some (name, raw) =>
      if isValidKey name = true ∧ osText name = key then some (osText (stripOuterQuotes raw))
      else none
  | none => none

theorem assignedTo_eq_some {key value : OsString} {line : List Char} :
    assignedTo key line = some value ↔
      ∃ name text, key = osText name ∧ value = osText text ∧ Assigns line name text := by
  unfold assignedTo
  constructor
  · intro hassigned
    cases hread : readKey line with
    | none =>
        rw [hread] at hassigned
        cases hassigned
    | some halves =>
        rw [hread] at hassigned
        obtain ⟨⟨hkey, hname⟩, hvalue⟩ := Option.ite_none_right_eq_some.mp hassigned
        cases hvalue
        exact ⟨halves.1, _, hname.symm, rfl, assigns_iff.mpr ⟨hkey, _, hread, rfl⟩⟩
  · rintro ⟨name, text, rfl, rfl, hassigns⟩
    obtain ⟨hkey, raw, hread, rfl⟩ := assigns_iff.mp hassigns
    rw [hread]
    exact if_pos ⟨hkey, rfl⟩

theorem assignedTo_of_assigns {key : OsString} {line name value : List Char}
    (hassigns : Assigns line name value) :
    assignedTo key line = if key = osText name then some (osText value) else none := by
  split
  next hkey => exact assignedTo_eq_some.mpr ⟨name, value, hkey, rfl, hassigns⟩
  next hkey =>
    refine Option.eq_none_iff_forall_ne_some.mpr fun other hother => hkey ?_
    obtain ⟨otherName, text, rfl, -, hassigned⟩ := assignedTo_eq_some.mp hother
    rw [(hassigned.unique hassigns).1]

theorem assignedTo_of_not_assigns {key : OsString} {line : List Char}
    (hinvalid : ∀ name value, ¬ Assigns line name value) : assignedTo key line = none :=
  Option.eq_none_iff_forall_ne_some.mpr fun _ hassigned => by
    obtain ⟨name, text, -, -, hassigns⟩ := assignedTo_eq_some.mp hassigned
    exact hinvalid name text hassigns

/-- A line adds its value only where the key has none. -/
theorem loadLine_values (loaded : LoadedEnvironment) (line : List Char) (index : Nat)
    (key : OsString) : (loadLine loaded (line, index)).values key =
      (loaded.values key).or ((assignedTo key line).map fun value => ⟨value, .dotenv⟩) := by
  by_cases hskipped : Skipped line
  · rw [loadLine_skipped hskipped,
      assignedTo_of_not_assigns fun _ _ hassigns => hassigns.not_skipped hskipped]
    simp
  obtain ⟨contribution, hcontributes⟩ := loadLine_contributes hskipped loaded index
  generalize loadLine loaded (line, index) = next at hcontributes
  cases hcontributes with
  | @assignment name value hassigns hfree =>
      rw [assignedTo_of_assigns hassigns, LoadedEnvironment.insert]
      by_cases hkey : key = osText name
      · simp [hkey, hfree]
      · simp [hkey]
  | @shadowed name value hassigns htaken =>
      rw [assignedTo_of_assigns hassigns]
      by_cases hkey : key = osText name
      · obtain ⟨sourced, hsourced⟩ := Option.isSome_iff_exists.mp htaken
        simp [hkey, hsourced]
      · simp [hkey]
  | warning hinvalid =>
      rw [assignedTo_of_not_assigns hinvalid, LoadedEnvironment.warn]
      simp

theorem loadLines_concat (process : Environment) (before : List (List Char)) (line : List Char) :
    loadLines process (before ++ [line]) =
      loadLine (loadLines process before) (line, before.length) := by
  simp [loadLines, List.zipIdx_append]

/-- A value of the process wins; otherwise the first line that assigns one. -/
theorem loadLines_values (process : Environment) (lines : List (List Char)) (key : OsString) :
    (loadLines process lines).values key =
      ((process key).map fun value => ⟨value, .process⟩).or
        ((lines.findSome? (assignedTo key)).map fun value => ⟨value, .dotenv⟩) := by
  induction lines using List.reverseRecOn with
  | nil => simp [loadLines, LoadedEnvironment.ofProcess]
  | append_singleton before line ih =>
      rw [loadLines_concat, loadLine_values, ih, List.findSome?_append, Option.or_assoc]
      cases List.findSome? (assignedTo key) before <;> simp

/-- The first line that assigns to a variable, and what it assigns. -/
def FirstAssignment (lines : List (List Char)) (name value : List Char) : Prop :=
  ∃ before line after, lines = before ++ line :: after ∧ Assigns line name value ∧
    ∀ other ∈ before, ∀ earlier, ¬ Assigns other name earlier

/-- The first line that assigns a key gives its value. -/
theorem findSome?_assignedTo {lines : List (List Char)} {key value : OsString} :
    lines.findSome? (assignedTo key) = some value ↔
      ∃ name text, key = osText name ∧ value = osText text ∧ FirstAssignment lines name text := by
  rw [List.findSome?_eq_some_iff]
  constructor
  · rintro ⟨before, line, after, rfl, hline, hbefore⟩
    obtain ⟨name, text, rfl, rfl, hassigns⟩ := assignedTo_eq_some.mp hline
    refine ⟨name, text, rfl, rfl, before, line, after, rfl, hassigns,
      fun other hother earlier hearlier => ?_⟩
    have hnone := hbefore other hother
    rw [assignedTo_eq_some.mpr ⟨name, earlier, rfl, rfl, hearlier⟩] at hnone
    cases hnone
  · rintro ⟨name, text, rfl, rfl, before, line, after, rfl, hassigns, hbefore⟩
    refine ⟨before, line, after, rfl,
      assignedTo_eq_some.mpr ⟨name, text, rfl, rfl, hassigns⟩, fun other hother => ?_⟩
    refine Option.eq_none_iff_forall_ne_some.mpr fun value hvalue => ?_
    obtain ⟨otherName, otherText, hname, -, hassigned⟩ := assignedTo_eq_some.mp hvalue
    cases osText_injective hname
    exact hbefore other hother _ hassigned

/-- One line `KEY='value'` for each entry. -/
def renderDotenv (entries : List (List Char × List Char)) : List Char :=
  entries.flatMap fun entry => entry.1 ++ '=' :: ('\'' :: entry.2 ++ ['\'']) ++ ['\n']

/-- A finite map from valid names to values on one line. -/
structure Writable (entries : List (List Char × List Char)) : Prop where
  nodup : (entries.map Prod.fst).Nodup
  key : ∀ entry ∈ entries, isValidKey entry.1 = true
  value : ∀ entry ∈ entries, '\n' ∉ entry.2

def writtenLine (entry : List Char × List Char) : List Char :=
  entry.1 ++ '=' :: ('\'' :: entry.2 ++ ['\''])

theorem getLast?_quoted (value : List Char) :
    ('\'' :: value ++ ['\'']).getLast? = some '\'' := List.getLast?_concat

theorem stripOuterQuotes_quoted (value : List Char) :
    stripOuterQuotes ('\'' :: value ++ ['\'']) = value := by
  rw [stripOuterQuotes, if_pos ⟨by simp, .inl ⟨rfl, getLast?_quoted value⟩⟩]
  simp

theorem trimStart_of_isValidKey {key : List Char} (hkey : isValidKey key = true)
    (rest : List Char) : trimStart (key ++ rest) = key ++ rest := by
  cases key with
  | nil => cases hkey
  | cons first others =>
      refine List.dropWhile_cons_of_neg fun hspace => ?_
      have hlower := toNat_of_isWhitespace hspace
      have hupper := toNat_of_isAssignable (isAssignable_of_mem hkey List.mem_cons_self)
      omega

/-- A written line assigns what was written. -/
theorem assigns_writtenLine {entry : List Char × List Char} (hkey : isValidKey entry.1 = true) :
    Assigns (writtenLine entry) entry.1 entry.2 := by
  have hassigns : Assigns (writtenLine entry) entry.1
      (stripOuterQuotes ('\'' :: entry.2 ++ ['\''])) :=
    .plain hkey (trimStart_of_isValidKey hkey _)
  rwa [stripOuterQuotes_quoted] at hassigns

theorem Writable.tail {entry : List Char × List Char} {entries : List (List Char × List Char)}
    (hwritable : Writable (entry :: entries)) : Writable entries where
  nodup := (List.nodup_cons.mp hwritable.nodup).2
  key other hother := hwritable.key other (List.mem_cons_of_mem _ hother)
  value other hother := hwritable.value other (List.mem_cons_of_mem _ hother)

/-- The lines of a rendered file are its entries. -/
theorem lines_renderDotenv {entries : List (List Char × List Char)}
    (hwritable : Writable entries) : lines (renderDotenv entries) = entries.map writtenLine := by
  induction entries with
  | nil => rfl
  | cons entry entries ih =>
      have hkey := hwritable.key entry List.mem_cons_self
      have hvalue := hwritable.value entry List.mem_cons_self
      have hfeed : '\n' ∉ writtenLine entry := by
        simpa [writtenLine, hvalue] using notMem_of_isValidKey hkey (by decide)
      have hlast : (writtenLine entry).getLast? ≠ some '\r' := by
        rw [writtenLine, List.getLast?_append, List.getLast?_cons, getLast?_quoted]
        simp
      rw [renderDotenv, List.flatMap_cons, List.map_cons, ← ih hwritable.tail]
      exact (congrArg lines (by simp [writtenLine, renderDotenv])).trans
        (lines_append_of_getLast? hfeed hlast (renderDotenv entries))

/-- The first assignment of a written variable is the one written for it. -/
theorem firstAssignment_written {entries : List (List Char × List Char)}
    (hwritable : Writable entries) (name value : List Char) :
    FirstAssignment (entries.map writtenLine) name value ↔ (name, value) ∈ entries := by
  constructor
  · rintro ⟨before, line, after, hlines, hassigns, -⟩
    obtain ⟨entry, hentry, rfl⟩ := List.mem_map.mp
      (hlines ▸ List.mem_append_right before List.mem_cons_self)
    obtain ⟨rfl, rfl⟩ := (assigns_writtenLine (hwritable.key entry hentry)).unique hassigns
    exact hentry
  · intro hmem
    obtain ⟨before, after, rfl⟩ := List.append_of_mem hmem
    refine ⟨before.map writtenLine, writtenLine (name, value), after.map writtenLine, by simp,
      assigns_writtenLine (hwritable.key _ hmem), fun other hother earlier hearlier => ?_⟩
    obtain ⟨entry, hentry, rfl⟩ := List.mem_map.mp hother
    have hassigns := assigns_writtenLine
      (hwritable.key entry (List.mem_append_left _ hentry))
    have hname : name ∉ before.map Prod.fst := by
      have hnodup := hwritable.nodup
      rw [List.map_append, List.nodup_append] at hnodup
      exact fun hbefore => hnodup.2.2 name hbefore name (by simp) rfl
    exact hname ((hassigns.unique hearlier).1 ▸ List.mem_map_of_mem hentry)

/-- The value of a key after the lines of a file: the process wins over the file, and
the first assignment over later ones. -/
def ValueOf (process : Environment) (lines : List (List Char)) (key : OsString)
    (sourced : SourcedValue) : Prop :=
  process key = some sourced.value ∧ sourced.origin = .process ∨
    process key = none ∧ sourced.origin = .dotenv ∧ ∃ name value,
      key = osText name ∧ sourced.value = osText value ∧ FirstAssignment lines name value

theorem loadLines_values_iff {process : Environment} {lines : List (List Char)} {key : OsString}
    {sourced : SourcedValue} : (loadLines process lines).values key = some sourced ↔
      ValueOf process lines key sourced := by
  rw [loadLines_values, ValueOf]
  cases process key with
  | some value =>
      cases sourced
      simp [eq_comm]
  | none =>
      cases sourced
      simp only [Option.map_none, Option.none_or, Option.map_eq_some_iff, findSome?_assignedTo,
        SourcedValue.mk.injEq]
      constructor
      · rintro ⟨value, ⟨name, text, hkey, rfl, hfirst⟩, rfl, rfl⟩
        exact .inr ⟨trivial, rfl, name, text, hkey, rfl, hfirst⟩
      · rintro (⟨hvalue, -⟩ | ⟨-, rfl, name, text, hkey, rfl, hfirst⟩)
        · cases hvalue
        · exact ⟨_, ⟨name, text, hkey, rfl, hfirst⟩, rfl, rfl⟩

/-- Every file loads, and what is loaded follows its lines. -/
theorem loadEnvironment_faithful (root : PathBuf) (process : Environment) :
    (∀ contents, ∃ loaded, loadEnvironment root (.ok contents) process = .ok loaded ∧
      loaded = loadLines process (lines contents) ∧
      (∀ key sourced, loaded.values key = some sourced ↔
        ValueOf process (lines contents) key sourced) ∧
      ∀ before line after, lines contents = before ++ line :: after →
        (Skipped line → loadLines process (before ++ [line]) = loadLines process before) ∧
        (¬ Skipped line → ∃! contribution, Contributes (loadLines process before)
          (before.length + 1) line contribution (loadLines process (before ++ [line])))) ∧
    ∀ entries, Writable entries →
      ∃ loaded, loadEnvironment root (.ok (renderDotenv entries)) process = .ok loaded ∧
        ∀ key, process key = none → ∀ sourced, loaded.values key = some sourced ↔
          ∃ entry ∈ entries, key = osText entry.1 ∧ sourced = ⟨osText entry.2, .dotenv⟩ := by
  constructor
  · refine fun contents => ⟨_, rfl, rfl, fun key sourced => loadLines_values_iff, ?_⟩
    intro before line after _
    rw [loadLines_concat]
    refine ⟨fun hskipped => loadLine_skipped hskipped _ _, fun hkept => ?_⟩
    obtain ⟨contribution, hcontributes⟩ := loadLine_contributes hkept _ _
    exact ⟨contribution, hcontributes, fun _ hother => hother.unique hcontributes⟩
  · refine fun entries hwritable => ⟨_, rfl, fun key hprocess sourced => ?_⟩
    rw [lines_renderDotenv hwritable, loadLines_values_iff, ValueOf]
    cases sourced
    simp only [hprocess, firstAssignment_written hwritable]
    constructor
    · rintro (⟨hnone, -⟩ | ⟨-, rfl, name, value, hkey, rfl, hmem⟩)
      · cases hnone
      · exact ⟨(name, value), hmem, hkey, rfl⟩
    · rintro ⟨entry, hmem, hkey, heq⟩
      cases heq
      exact .inr ⟨trivial, rfl, entry.1, entry.2, hkey, rfl, hmem⟩

end CfIntegration.Infrastructure.Config
