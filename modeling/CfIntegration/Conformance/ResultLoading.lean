import Mathlib.Data.List.Infix
import Mathlib.Data.List.Lex
import Mathlib.Data.List.Perm.Basic
import CfIntegration.Foundation.DirectoryTree
import CfIntegration.Foundation.Fallible
import CfIntegration.Foundation.FileName
import CfIntegration.Conformance.Results

/-! # Loading official result directories

Result directories are named `<prefix><scenario>-<timestamp>` and hold one
`checks.json`. Loading walks real directories only, in file-name order, and
refuses two results for one scenario. Directory names are UTF-8 text that the
source slices by byte offset, so a slice that is not on a character boundary is
an outcome of its own.
-/

namespace CfIntegration.Conformance

abbrev Bytes := List UInt8

def utf8Bytes (text : List Char) : Bytes := text.flatMap String.utf8EncodeChar

def byteLen (text : List Char) : Nat := (utf8Bytes text).length

/-- Split text at a byte offset; `none` where the offset is outside the text or
inside a character, which is where slicing panics. -/
def splitAtByte : List Char → Nat → Option (List Char × List Char)
  | text, 0 => some ([], text)
  | [], _ + 1 => none
  | head :: tail, offset + 1 =>
      if offset + 1 < head.utf8Size then none
      else (splitAtByte tail (offset + 1 - head.utf8Size)).map fun (before, after) =>
        (head :: before, after)

theorem byteLen_cons (head : Char) (tail : List Char) :
    byteLen (head :: tail) = head.utf8Size + byteLen tail := by
  simp [byteLen, utf8Bytes]

/-- The encoded lengths of the parts add up. -/
theorem byteLen_append (before after : List Char) :
    byteLen (before ++ after) = byteLen before + byteLen after := by
  simp [byteLen, utf8Bytes]

/-- The bytes of the parts follow each other. -/
theorem utf8Bytes_append (before after : List Char) :
    utf8Bytes (before ++ after) = utf8Bytes before ++ utf8Bytes after :=
  List.flatMap_append

/-- A slice taken where one part of the text ends is never inside a character. -/
theorem splitAtByte_append (before after : List Char) :
    splitAtByte (before ++ after) (byteLen before) = some (before, after) := by
  induction before with
  | nil => cases after <;> rfl
  | cons head tail ih =>
      obtain ⟨offset, hoffset⟩ : ∃ offset, byteLen (head :: tail) = offset + 1 :=
        Nat.exists_eq_succ_of_ne_zero (by
          have := head.utf8Size_pos
          rw [byteLen_cons]
          omega)
      have hrest : offset + 1 - head.utf8Size = byteLen tail := by
        rw [← hoffset, byteLen_cons]
        omega
      rw [hoffset, List.cons_append, splitAtByte, if_neg, hrest, ih]
      · rfl
      · rw [← hoffset, byteLen_cons]
        omega

/-- Why a result directory name gave no scenario. -/
inductive NameFailure where
  | rejected (message : String)
  | panicked
  deriving DecidableEq, Repr

def isNormalizedIsoTimestamp (value : List Char) : Bool :=
  let bytes := utf8Bytes value
  if bytes.length ≠ 24 || !bytes.all (· < 128) then false
  else if [(4, '-'), (7, '-'), (10, 'T'), (13, '-'), (16, '-'), (19, '-'), (23, 'Z')].any
      fun (index, expected) => bytes[index]? ≠ some expected.toUInt8 then false
  else
    bytes.zipIdx.all fun (byte, index) =>
      [4, 7, 10, 13, 16, 19, 23].contains index || ('0'.toUInt8 ≤ byte && byte ≤ '9'.toUInt8)

def isAsciiAlphanumeric (character : Char) : Bool :=
  ('0' ≤ character && character ≤ '9') || ('a' ≤ character && character ≤ 'z')
    || ('A' ≤ character && character ≤ 'Z')

def validateScenarioName (scenario : List Char) : Except String Unit :=
  if scenario = [] then
    .error "scenario name is empty"
  else if ['.', '.'] <:+: scenario then
    .error "scenario name contains a parent-directory segment"
  else if (scenario.head?.any (['-', '.', '/', '_'].contains ·))
      || (scenario.getLast?.any (['-', '.', '/', '_'].contains ·))
      || decide (['/', '/'] <:+: scenario) then
    .error "scenario name has an invalid boundary or path segment"
  else if !scenario.all fun character =>
      isAsciiAlphanumeric character || ['-', '_', '.', '/'].contains character then
    .error "scenario name contains unsupported characters"
  else
    .ok ()

/-- The scenario a result directory was written for. -/
def scenarioFromResultDirectory (directory : List Char) (directoryPrefix : Option (List Char)) :
    Except NameFailure (List Char) := do
  let rest ← match directoryPrefix with
    | some expected =>
        if expected <+: directory then .ok (directory.drop expected.length)
        else .error (.rejected s!"official result directory must begin with {
          String.ofList expected}")
    | none => .ok directory
  bailIf (byteLen rest ≤ 25) (.rejected s!"official result directory {
    (String.ofList directory).quote} has no scenario or timestamp")
  let split := byteLen rest - 25
  bailIf ((utf8Bytes rest)[split]? ≠ some '-'.toUInt8) (.rejected s!"official result directory {
    (String.ofList directory).quote} has an invalid timestamp separator")
  let some (scenario, _) := splitAtByte rest split | .error .panicked
  let some (_, timestamp) := splitAtByte rest (split + 1) | .error .panicked
  bailIf (isNormalizedIsoTimestamp timestamp = false) (.rejected s!"official result directory {
    (String.ofList directory).quote} has an invalid normalized timestamp")
  match validateScenarioName scenario with
  | .error message =>
      .error (.rejected s!"invalid scenario in official result directory {
        (String.ofList directory).quote}: {message}")
  | .ok () => .ok scenario

/-- A valid scenario name is not empty. -/
theorem ne_nil_of_validateScenarioName {scenario : List Char}
    (hvalid : validateScenarioName scenario = .ok ()) : scenario ≠ [] := by
  rintro rfl
  simp [validateScenarioName] at hvalid

/-- A normalised timestamp takes 24 bytes. -/
theorem byteLen_of_isNormalizedIsoTimestamp {timestamp : List Char}
    (htimestamp : isNormalizedIsoTimestamp timestamp = true) : byteLen timestamp = 24 := by
  by_contra hlen
  have hlen : (utf8Bytes timestamp).length ≠ 24 := hlen
  simp [isNormalizedIsoTimestamp, hlen] at htimestamp

/-- The name of the directory one official result is written to. -/
def resultDirectoryName (directoryPrefix scenario timestamp : List Char) : List Char :=
  directoryPrefix ++ (scenario ++ '-' :: timestamp)

/-- A written directory name decodes to the scenario it was written for. -/
theorem scenarioFromResultDirectory_written (directoryPrefix : List Char)
    {scenario timestamp : List Char} (hvalid : validateScenarioName scenario = .ok ())
    (htimestamp : isNormalizedIsoTimestamp timestamp = true) :
    scenarioFromResultDirectory (resultDirectoryName directoryPrefix scenario timestamp)
      (some directoryPrefix) = .ok scenario := by
  have hlen : byteLen (scenario ++ '-' :: timestamp) = byteLen scenario + 25 := by
    rw [byteLen_append, byteLen_cons, byteLen_of_isNormalizedIsoTimestamp htimestamp]
    rfl
  have hpos : 0 < byteLen scenario := by
    obtain ⟨head, tail, rfl⟩ := List.exists_cons_of_ne_nil (ne_nil_of_validateScenarioName hvalid)
    have := head.utf8Size_pos
    rw [byteLen_cons]
    omega
  have hseparator : (utf8Bytes (scenario ++ '-' :: timestamp))[byteLen scenario]? =
      some '-'.toUInt8 := by
    rw [utf8Bytes_append, byteLen, List.getElem?_append_right le_rfl, Nat.sub_self]
    rfl
  have hafter : splitAtByte (scenario ++ '-' :: timestamp) (byteLen scenario + 1) =
      some (scenario ++ ['-'], timestamp) := by
    have := splitAtByte_append (scenario ++ ['-']) timestamp
    rw [byteLen_append, List.append_assoc] at this
    exact this
  unfold scenarioFromResultDirectory resultDirectoryName
  simp only [List.prefix_append, if_true, List.drop_left, hlen, Nat.add_sub_cancel, hseparator,
    splitAtByte_append, hafter, htimestamp, hvalid, bind, Except.bind,
    show ¬ byteLen scenario + 25 ≤ 25 by omega, ne_eq, not_true_eq_false, Bool.true_eq_false,
    bailIf_false]

/-- One directory entry's `checks.json` files, before the listing is put in name order. -/
abbrev CheckFile (ν : Type := String) := List ν × Bytes

section Names

variable {ν : Type} [LinearOrder ν]

/-- Sort a directory listing by file name. -/
def sortByName {γ : Type} (entries : List (ν × γ)) : List (ν × γ) :=
  entries.insertionSort fun left right => left.1 ≤ right.1

variable [FileName ν]

mutual

/-- Every `checks.json` below a directory; links and special files are skipped. -/
def collectCheckFiles (directory : List ν) : Tree Bytes ν → List (CheckFile ν)
  | .directory entries =>
      (sortByName (collectEntries directory entries)).flatMap Prod.snd
  | _ => []

def collectEntries (directory : List ν) :
    List (ν × Tree Bytes ν) → List (ν × List (CheckFile ν))
  | [] => []
  | (name, tree) :: rest =>
      (name, match tree with
        | .symlink | .special => []
        | .directory _ => collectCheckFiles (directory ++ [name]) tree
        | .file content =>
            if name = FileName.ofText "checks.json" then [(directory ++ [name], content)]
            else []) ::
      collectEntries directory rest

end

def maxChecksFileBytes : Nat := 8 * 1024 * 1024

/-- The scenarios loaded so far, extended by one `checks.json` file. -/
def loadCheckFile (parseChecks : Bytes → Except String (List ConformanceCheck))
    (rootName : Option ν) (directoryPrefix : Option String)
    (scenarios : OrderedMap String (ConformanceScenarioResult ν)) (checkFile : CheckFile ν) :
    Except String (OrderedMap String (ConformanceScenarioResult ν)) := do
  let (path, content) := checkFile
  let parent := path.dropLast
  let some directoryName :=
      (if parent = [] then rootName else parent.getLast?).bind FileName.toStr
    | .error "official result directory name is not valid UTF-8"
  if directoryPrefix.any fun expected => !(expected.toList <+: directoryName.toList) then
    .ok scenarios
  else do
  let scenario ← match scenarioFromResultDirectory directoryName.toList
      (directoryPrefix.map String.toList) with
    | .ok scenario => .ok (String.ofList scenario)
    | .error (.rejected message) => .error message
    | .error .panicked => .error "byte index is not a char boundary"
  bailIf (content.length > maxChecksFileBytes)
    s!"official result file {path.map FileName.display} exceeds the {
      maxChecksFileBytes} byte safety limit"
  let checks ← parseChecks content
  bailIf ((scenarios.find? scenario).isSome)
    s!"duplicate official result for scenario {scenario.quote}"
  return scenarios.insert scenario { scenario, checks, source := path }

/-- Load every official result below a canonical root with the given file name. -/
def loadResults (parseChecks : Bytes → Except String (List ConformanceCheck))
    (rootName : Option ν) (root : Option (Tree Bytes ν)) (directoryPrefix : Option String) :
    Except String (ConformanceResults ν) := do
  let some tree := root | .error "failed to resolve conformance results root"
  let .directory entries := tree | .error "conformance results root is not a directory"
  let checkFiles := (collectCheckFiles [] (.directory entries)).insertionSort fun left right =>
    left.1 ≤ right.1
  let scenarios ← checkFiles.foldlM (loadCheckFile parseChecks rootName directoryPrefix)
    OrderedMap.empty
  return { scenarios }

end Names

section Written

variable (parseChecks : Bytes → Except String (List ConformanceCheck)) (rootName : Option String)
  (directoryPrefix timestamp : String) (content : Bytes)

def writtenDirectoryName (scenario : String) : String :=
  String.ofList (resultDirectoryName directoryPrefix.toList scenario.toList timestamp.toList)

/-- One directory for each scenario, all with the same `checks.json`. -/
def writtenResults (scenarios : List String) : Tree Bytes :=
  .directory (scenarios.map fun scenario =>
    (writtenDirectoryName directoryPrefix timestamp scenario,
      .directory [("checks.json", .file content)]))

def writtenCheckFile (scenario : String) : CheckFile :=
  ([writtenDirectoryName directoryPrefix timestamp scenario, "checks.json"], content)

/-- The collected files are those that were written. -/
theorem collectCheckFiles_written (scenarios : List String) :
    (collectCheckFiles [] (writtenResults directoryPrefix timestamp content scenarios)).Perm
      (scenarios.map (writtenCheckFile directoryPrefix timestamp content)) := by
  rw [writtenResults, collectCheckFiles]
  refine ((List.perm_insertionSort _ _).flatMap_right _).trans (List.Perm.of_eq ?_)
  induction scenarios with
  | nil => rfl
  | cons scenario rest ih =>
      rw [List.map_cons, collectEntries, List.flatMap_cons, ih, List.map_cons]
      rfl

variable {parseChecks timestamp content} {checks : List ConformanceCheck}
  (hparse : parseChecks content = .ok checks) (hsize : content.length ≤ maxChecksFileBytes)
  (htimestamp : isNormalizedIsoTimestamp timestamp.toList = true)

include hparse hsize htimestamp

/-- A written checks file loads under its scenario. -/
theorem loadCheckFile_written {scenario : String}
    (hvalid : validateScenarioName scenario.toList = .ok ())
    {scenarios : OrderedMap String ConformanceScenarioResult}
    (hfresh : scenario ∉ scenarios.keys) :
    loadCheckFile parseChecks rootName (some directoryPrefix) scenarios
        (writtenCheckFile directoryPrefix timestamp content scenario) =
      .ok (scenarios.insert scenario
        ⟨scenario, checks, (writtenCheckFile directoryPrefix timestamp content scenario).1⟩) := by
  have hnone : scenarios.find? scenario = none := OrderedMap.find?_eq_none_iff.mpr hfresh
  have hbegins : directoryPrefix.toList <+:
      (writtenDirectoryName directoryPrefix timestamp scenario).toList := by
    rw [writtenDirectoryName, String.toList_ofList]
    exact List.prefix_append _ _
  have hdecode := scenarioFromResultDirectory_written directoryPrefix.toList hvalid htimestamp
  have hname : scenarioFromResultDirectory
      (writtenDirectoryName directoryPrefix timestamp scenario).toList
      (some directoryPrefix.toList) = .ok scenario.toList := by
    rw [writtenDirectoryName, String.toList_ofList, hdecode]
  simp [loadCheckFile, writtenCheckFile, hbegins, hname, hparse, hnone, hsize.not_gt, bind,
    Except.bind, pure, Except.pure]

/-- Written checks files of different scenarios all load. -/
theorem foldlM_loadCheckFile_written {list : List String}
    (hvalid : ∀ scenario ∈ list, validateScenarioName scenario.toList = .ok ())
    (hnodup : list.Nodup) {start : OrderedMap String ConformanceScenarioResult}
    (hfresh : ∀ scenario ∈ list, scenario ∉ start.keys) :
    ∃ final, (list.map (writtenCheckFile directoryPrefix timestamp content)).foldlM
        (loadCheckFile parseChecks rootName (some directoryPrefix)) start = .ok final ∧
      (∀ key, key ∈ final.keys ↔ key ∈ list ∨ key ∈ start.keys) ∧
      ∀ entry ∈ final.entries, entry.2.checks = checks ∨ entry ∈ start.entries := by
  induction list generalizing start with
  | nil => exact ⟨start, rfl, by simp, fun entry hentry => Or.inr hentry⟩
  | cons scenario rest ih =>
      obtain ⟨hhead, hrest⟩ := List.nodup_cons.mp hnodup
      have hstep := loadCheckFile_written rootName directoryPrefix hparse hsize htimestamp
        (hvalid scenario List.mem_cons_self) (hfresh scenario List.mem_cons_self)
      have hfresh : ∀ other ∈ rest, other ∉ (start.insert scenario
          ⟨scenario, checks,
            (writtenCheckFile directoryPrefix timestamp content scenario).1⟩).keys := by
        intro other hother
        rw [OrderedMap.mem_keys_insert, not_or]
        exact ⟨fun heq => hhead (heq ▸ hother), hfresh other (List.mem_cons_of_mem _ hother)⟩
      obtain ⟨final, hfold, hkeys, hchecks⟩ := ih
        (fun other hother => hvalid other (List.mem_cons_of_mem _ hother)) hrest hfresh
      refine ⟨final, ?_, ?_, ?_⟩
      · rw [List.map_cons, List.foldlM_cons, hstep]
        exact hfold
      · intro key
        rw [hkeys, OrderedMap.mem_keys_insert, List.mem_cons]
        tauto
      · intro entry hentry
        rcases hchecks entry hentry with hentry | hentry
        · exact Or.inl hentry
        · exact (OrderedMap.mem_insertEntry hentry).imp_left (fun heq => by rw [heq])

/-- Results written for distinct valid scenarios load back, one for each. -/
theorem loadResults_written {scenarios : List String}
    (hvalid : ∀ scenario ∈ scenarios, validateScenarioName scenario.toList = .ok ())
    (hnodup : scenarios.Nodup) :
    ∃ results, loadResults parseChecks rootName
        (some (writtenResults directoryPrefix timestamp content scenarios))
        (some directoryPrefix) = .ok results ∧
      results.scenarios.keys = OrderedSet.ofList scenarios ∧
      ∀ entry ∈ results.scenarios.entries, entry.2.checks = checks := by
  have hperm := (List.perm_insertionSort (fun left right : CheckFile => left.1 ≤ right.1) _).trans
    (collectCheckFiles_written directoryPrefix timestamp content scenarios)
  obtain ⟨list, hlist, hscenarios⟩ :=
    (congrFun₂ (List.eq_map_comp_perm (writtenCheckFile directoryPrefix timestamp content)) _ _).mpr
      hperm
  have hfresh : ∀ scenario ∈ list,
      scenario ∉ (OrderedMap.empty : OrderedMap String ConformanceScenarioResult).keys :=
    fun _ _ => List.not_mem_nil
  obtain ⟨final, hfold, hkeys, hchecks⟩ := foldlM_loadCheckFile_written
    rootName directoryPrefix hparse hsize htimestamp
    (fun scenario hmem => hvalid scenario (hscenarios.mem_iff.mp hmem))
    (hscenarios.nodup_iff.mpr hnodup) hfresh
  refine ⟨⟨final⟩, ?_, ?_, ?_⟩
  · rw [writtenResults] at hlist
    simp only [loadResults, writtenResults, bind, Except.bind, hlist, hfold, pure, Except.pure]
  · refine OrderedSet.ext_mem fun key => ?_
    rw [OrderedSet.mem_ofList, hkeys, hscenarios.mem_iff]
    exact ⟨fun h => h.resolve_right List.not_mem_nil, Or.inl⟩
  · intro entry hentry
    exact (hchecks entry hentry).resolve_right List.not_mem_nil

end Written

end CfIntegration.Conformance
