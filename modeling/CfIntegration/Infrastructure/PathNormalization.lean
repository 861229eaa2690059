import CfIntegration.Foundation.Text
import CfIntegration.Infrastructure.Checkout

/-! # Lexical normalization

A path is resolved without the file system by a stack of names over its beginning, the
root or so many parent directories. `normalize_path` computes the path of the resolution,
and containment compares resolutions.
-/

namespace CfIntegration.Infrastructure.Checkout

open FileSystem

universe u

/-- Where a path begins: at the root, or so many directories above the current one. -/
inductive Base where
  | root
  | above (count : Nat)
  deriving DecidableEq

/-- The parent of the root is the root. -/
def Base.parent : Base → Base
  | .root => .root
  | .above count => .above (count + 1)

/-- A beginning and the names below it, the last one on top. -/
structure Resolution (ν : Type u) where
  base : Base
  names : List ν

namespace Resolution

variable {ν : Type u}

def step (resolution : Resolution ν) : Component ν → Resolution ν
  | .rootDir => ⟨.root, []⟩
  | .curDir => resolution
  | .normal name => { resolution with names := name :: resolution.names }
  | .parentDir => match resolution.names with
      | _ :: names => { resolution with names := names }
      | [] => { resolution with base := resolution.base.parent }

/-- The resolution of a path from the current directory. -/
def resolve (path : Path ν) : Resolution ν := path.foldl step ⟨.above 0, []⟩

end Resolution

def Base.toPath {ν : Type u} : Base → Path ν
  | .root => [.rootDir]
  | .above count => List.replicate count .parentDir

def Resolution.toPath {ν : Type u} (resolution : Resolution ν) : Path ν :=
  resolution.base.toPath ++ resolution.names.reverse.map .normal

namespace Resolution

variable {ν : Type u}

theorem toPath_push (base : Base) (name : ν) (names : List ν) :
    (⟨base, name :: names⟩ : Resolution ν).toPath =
      (⟨base, names⟩ : Resolution ν).toPath ++ [.normal name] := by
  simp [toPath]

/-- A path is resolved from left to right. -/
theorem resolve_append (front back : Path ν) :
    resolve (front ++ back) = back.foldl step (resolve front) :=
  List.foldl_append

theorem foldl_normal (resolution : Resolution ν) (names : List ν) :
    (names.map Component.normal).foldl step resolution =
      { resolution with names := names.reverse ++ resolution.names } := by
  induction names generalizing resolution with
  | nil => rfl
  | cons name names ih =>
      rw [List.map_cons, List.foldl_cons, ih]
      simp [step]

theorem resolve_replicate (count : Nat) :
    resolve (List.replicate count (.parentDir : Component ν)) = ⟨.above count, []⟩ := by
  induction count with
  | zero => rfl
  | succ count ih =>
      rw [List.replicate_succ', resolve_append, ih]
      rfl

/-- A resolution is that of its path. -/
theorem resolve_toPath (resolution : Resolution ν) : resolve resolution.toPath = resolution := by
  have hbase : resolve (resolution.base.toPath : Path ν) = ⟨resolution.base, []⟩ := by
    cases resolution.base with
    | root => rfl
    | above count => exact resolve_replicate count
  rw [toPath, resolve_append, hbase, foldl_normal, List.reverse_reverse, List.append_nil]

/-- Different resolutions are written as different paths. -/
theorem toPath_injective : Function.Injective (toPath : Resolution ν → Path ν) :=
  Function.LeftInverse.injective resolve_toPath

/-- A resolution is written without dots. -/
theorem curDir_notMem_toPath (resolution : Resolution ν) : .curDir ∉ resolution.toPath := by
  intro hmem
  rcases List.mem_append.mp hmem with hbase | hname
  · cases hshape : resolution.base with
    | root => simp [hshape, Base.toPath] at hbase
    | above count => simp [hshape, Base.toPath] at hbase
  · simp at hname

end Resolution

open Resolution (resolve)

/-- A step of the source is a step of the resolution. -/
theorem normalizeStep_toPath (resolution : Resolution OsString) (component : Component OsString) :
    normalizeStep resolution.toPath component = (resolution.step component).toPath := by
  obtain ⟨base, names⟩ := resolution
  cases component with
  | rootDir => rfl
  | curDir => rfl
  | normal name => exact (Resolution.toPath_push base name names).symm
  | parentDir =>
      cases names with
      | cons name names =>
          rw [Resolution.toPath_push]
          simp [normalizeStep, Resolution.step]
      | nil =>
          cases base with
          | root => rfl
          | above count =>
              -- Another parent directory follows those at the beginning.
              cases count with
              | zero => rfl
              | succ count =>
                  simp [normalizeStep, Resolution.step, Resolution.toPath, Base.toPath, Base.parent,
                    List.replicate_succ']

/-- The computed path is that of the resolution. -/
theorem normalizePath_eq (path : PathBuf) : normalizePath path = (resolve path).toPath := by
  have hrun : ∀ resolution : Resolution OsString,
      path.foldl normalizeStep resolution.toPath =
        (path.foldl Resolution.step resolution).toPath := by
    induction path with
    | nil => exact fun _ => rfl
    | cons component path ih =>
        intro resolution
        rw [List.foldl_cons, List.foldl_cons, normalizeStep_toPath, ih]
  exact hrun ⟨.above 0, []⟩

/-- Paths are equal once normalized exactly where they resolve alike. -/
theorem normalizedPathsEqual_iff (first second : PathBuf) :
    normalizedPathsEqual first second = true ↔ resolve first = resolve second := by
  rw [normalizedPathsEqual, decide_eq_true_eq, normalizePath_eq, normalizePath_eq]
  exact Resolution.toPath_injective.eq_iff

/-- A normalized path is left as it is. -/
theorem normalizePath_idem (path : PathBuf) :
    normalizePath (normalizePath path) = normalizePath path := by
  rw [normalizePath_eq, normalizePath_eq path, Resolution.resolve_toPath]

/-- Names that follow a path follow its resolution. -/
theorem normalizePath_names (path : PathBuf) (names : List OsString) :
    normalizePath (path ++ names.map .normal) = normalizePath path ++ names.map .normal := by
  rw [normalizePath_eq, normalizePath_eq, Resolution.resolve_append, Resolution.foldl_normal]
  simp [Resolution.toPath]

/-- A path lies within another exactly where it extends it, both normalized. -/
theorem isPathWithin_iff (child parent : PathBuf) :
    isPathWithin child parent = true ↔
      ∃ extra, extra ≠ [] ∧ normalizePath child = normalizePath parent ++ extra := by
  rw [isPathWithin, Bool.and_eq_true, List.isPrefixOf_iff_prefix]
  constructor
  · intro hwithin
    obtain ⟨hne, extra, heq⟩ := hwithin
    refine ⟨extra, ?_, heq.symm⟩
    rintro rfl
    simp [← heq] at hne
  · intro hextra
    obtain ⟨extra, hextra, heq⟩ := hextra
    refine ⟨?_, extra, heq.symm⟩
    simpa [heq] using hextra

theorem isPathWithin_irrefl (path : PathBuf) : isPathWithin path path = false := by
  simp [isPathWithin]

theorem isPathWithin_trans {first second third : PathBuf}
    (hfirst : isPathWithin first second = true) (hsecond : isPathWithin second third = true) :
    isPathWithin first third = true := by
  rw [isPathWithin_iff] at hfirst hsecond ⊢
  obtain ⟨inner, hinner, hfirst⟩ := hfirst
  obtain ⟨outer, -, hsecond⟩ := hsecond
  exact ⟨outer ++ inner, by simp [hinner], by rw [hfirst, hsecond, List.append_assoc]⟩

/-- What is below one name is not below another one, whatever characters they share. -/
theorem isPathWithin_sibling (path : PathBuf) {first second : OsString} (hne : first ≠ second)
    (names : List OsString) :
    isPathWithin (path ++ (second :: names).map .normal) (path ++ [.normal first]) = false := by
  rw [← Bool.not_eq_true, isPathWithin_iff]
  intro hextra
  obtain ⟨extra, -, heq⟩ := hextra
  rw [normalizePath_names, ← List.map_singleton, normalizePath_names, List.append_assoc] at heq
  have hnames := List.append_cancel_left heq
  simp at hnames
  exact hne hnames.1.symm

def isSeparator (unit : OsUnit) : Bool := unit = .char '/'

def componentOf (name : OsString) : Component OsString :=
  if name = osString ".." then .parentDir else .normal name

/-- `Path::components`. -/
def components (text : OsString) : PathBuf :=
  let names := Text.words isSeparator text
  let start := if text.head?.any isSeparator then [.rootDir]
    else if names.head? = some (osString ".") then [.curDir] else []
  start ++ (names.filter (· ≠ osString ".")).map componentOf

/-- A name that a text can hold between separators. -/
structure ValidName (name : OsString) : Prop where
  nonempty : name ≠ []
  unbroken : ∀ unit ∈ name, isSeparator unit = false
  notCurrent : name ≠ osString "."
  notParent : name ≠ osString ".."

/-- A component that can stand after the beginning of a path. -/
def IsInner : Component OsString → Prop
  | .parentDir => True
  | .normal name => ValidName name
  | .rootDir | .curDir => False

/-- The text of a component. -/
def componentText : Component OsString → OsString
  | .rootDir => osString "/"
  | .curDir => osString "."
  | .parentDir => osString ".."
  | .normal name => name

theorem pathText_cons {component : Component OsString} (hinner : IsInner component)
    (rest : PathBuf) : pathText (component :: rest) =
      if rest = [] then componentText component
      else componentText component ++ osString "/" ++ pathText rest := by
  cases component with
  | rootDir => exact hinner.elim
  | curDir => exact hinner.elim
  | parentDir => rfl
  | normal name => rfl

theorem componentText_inner {component : Component OsString} (hinner : IsInner component) :
    componentText component ≠ [] ∧ (∀ unit ∈ componentText component, isSeparator unit = false) ∧
      componentText component ≠ osString "." ∧
      componentOf (componentText component) = component := by
  cases component with
  | rootDir => exact hinner.elim
  | curDir => exact hinner.elim
  | parentDir => decide
  | normal name => exact ⟨hinner.nonempty, hinner.unbroken, hinner.notCurrent,
      if_neg hinner.notParent⟩

/-- The text of a path splits into its components. -/
theorem words_pathText {path : PathBuf} (hpath : ∀ component ∈ path, IsInner component) :
    Text.words isSeparator (pathText path) = path.map componentText := by
  induction path with
  | nil => rfl
  | cons component rest ih =>
      have hinner := hpath component (List.mem_cons_self ..)
      obtain ⟨hne, hunbroken, -, -⟩ := componentText_inner hinner
      have hrest := ih fun other hother => hpath other (List.mem_cons_of_mem _ hother)
      rw [pathText_cons hinner]
      split
      next hlast =>
        subst hlast
        have hword := Text.wordsFrom_append hunbroken [] []
        rw [List.append_nil, List.nil_append] at hword
        rw [Text.words, hword, Text.wordsFrom, if_neg hne]
        rfl
      next =>
        rw [List.append_assoc, Text.words, Text.wordsFrom_append hunbroken, List.nil_append,
          List.map_cons, ← hrest]
        exact (if_pos rfl).trans (if_neg hne)

theorem components_words {path : PathBuf} (hpath : ∀ component ∈ path, IsInner component) :
    ((path.map componentText).filter (· ≠ osString ".")).map componentOf = path := by
  have hkept : (path.map componentText).filter (· ≠ osString ".") = path.map componentText := by
    rw [List.filter_eq_self]
    intro name hname
    obtain ⟨component, hcomponent, rfl⟩ := List.mem_map.mp hname
    simpa using (componentText_inner (hpath component hcomponent)).2.2.1
  rw [hkept, List.map_map]
  apply (List.map_congr_left _).trans (List.map_id path)
  intro component hcomponent
  exact (componentText_inner (hpath component hcomponent)).2.2.2

/-- The text of inner components is read as these. -/
theorem components_inner {path : PathBuf} (hpath : ∀ component ∈ path, IsInner component) :
    components (pathText path) = path := by
  have hwords := words_pathText hpath
  have hinner := components_words hpath
  cases path with
  | nil => rfl
  | cons component rest =>
      obtain ⟨hne, hunbroken, hcurrent, -⟩ :=
        componentText_inner (hpath component (List.mem_cons_self ..))
      obtain ⟨unit, units, htext⟩ := List.exists_cons_of_ne_nil hne
      have hunit : isSeparator unit = false := by
        apply hunbroken
        rw [htext]
        exact List.mem_cons_self ..
      have hhead : (pathText (component :: rest)).head? = some unit := by
        rw [pathText_cons (hpath component (List.mem_cons_self ..)), htext]
        split
        · rfl
        · rfl
      rw [components, hwords, hinner, hhead, Option.any_some, if_neg (by simp [hunit]),
        if_neg (by simpa using hcurrent)]
      rfl

/-- The text of an absolute path reads back as its components. -/
theorem components_root {path : PathBuf} (hpath : ∀ component ∈ path, IsInner component) :
    components (pathText (.rootDir :: path)) = .rootDir :: path := by
  have hwords : Text.words isSeparator (pathText (.rootDir :: path)) = path.map componentText := by
    rw [← words_pathText hpath]
    rfl
  rw [components, hwords, components_words hpath]
  rfl

theorem words_valid {current text name : OsString}
    (hcurrent : ∀ unit ∈ current, isSeparator unit = false)
    (hname : name ∈ Text.wordsFrom isSeparator current text) :
    name ≠ [] ∧ ∀ unit ∈ name, isSeparator unit = false := by
  induction text generalizing current with
  | nil =>
      rw [Text.wordsFrom] at hname
      split at hname
      next => cases hname
      next hne =>
        obtain rfl := List.mem_singleton.mp hname
        exact ⟨hne, hcurrent⟩
  | cons unit text ih =>
      have hnone : ∀ unit ∈ ([] : OsString), isSeparator unit = false := by simp
      rw [Text.wordsFrom] at hname
      split at hname
      next =>
        split at hname
        next => exact ih hnone hname
        next hne =>
          rcases List.mem_cons.mp hname with rfl | hname
          · exact ⟨hne, hcurrent⟩
          · exact ih hnone hname
      next hunit =>
        apply ih _ hname
        intro other hother
        rcases List.mem_append.mp hother with hother | hother
        · exact hcurrent other hother
        · rw [List.mem_singleton.mp hother]
          simpa using hunit

/-- The names that a text is read as can be written again. -/
theorem validName_of_mem_components {text name : OsString}
    (hname : .normal name ∈ components text) : ValidName name := by
  rcases List.mem_append.mp hname with hstart | hname
  · split_ifs at hstart
    · simp at hstart
    · simp at hstart
    · cases hstart
  · obtain ⟨word, hword, hcomponent⟩ := List.mem_map.mp hname
    obtain ⟨hword, hcurrent⟩ := List.mem_filter.mp hword
    rw [componentOf] at hcomponent
    split at hcomponent
    next => cases hcomponent
    next hparent =>
      cases hcomponent
      obtain ⟨hne, hunbroken⟩ := words_valid (by simp) hword
      exact ⟨hne, hunbroken, by simpa using hcurrent, hparent⟩

/-- The names of a resolution are those of the path. -/
theorem mem_of_mem_resolve {path : PathBuf} {name : OsString}
    (hname : name ∈ (resolve path).names) : .normal name ∈ path := by
  induction path using List.reverseRecOn with
  | nil => simp [resolve] at hname
  | append_singleton path component ih =>
      rw [Resolution.resolve_append, List.foldl_cons, List.foldl_nil] at hname
      apply List.mem_append.mpr
      cases component with
      | rootDir => simp [Resolution.step] at hname
      | curDir => exact Or.inl (ih hname)
      | normal other =>
          rcases List.mem_cons.mp hname with rfl | hname
          · exact Or.inr (List.mem_singleton.mpr rfl)
          · exact Or.inl (ih hname)
      | parentDir =>
          left
          rw [Resolution.step] at hname
          split at hname
          next top names hnames =>
            apply ih
            rw [hnames]
            exact List.mem_cons_of_mem _ hname
          next => exact ih hname

/-- A normalized path is read back from its text. -/
theorem components_pathText (text : OsString) :
    components (pathText (normalizePath (components text))) = normalizePath (components text) := by
  rw [normalizePath_eq]
  have hnames : ∀ component ∈ (resolve (components text)).names.reverse.map Component.normal,
      IsInner component := by
    intro component hcomponent
    obtain ⟨name, hname, rfl⟩ := List.mem_map.mp hcomponent
    exact validName_of_mem_components (mem_of_mem_resolve (List.mem_reverse.mp hname))
  unfold Resolution.toPath
  cases (resolve (components text)).base with
  | root => exact components_root hnames
  | above count =>
      apply components_inner
      intro component hcomponent
      rcases List.mem_append.mp hcomponent with hcomponent | hcomponent
      · rw [List.eq_of_mem_replicate hcomponent]
        trivial
      · exact hnames component hcomponent

/-- Normalization resolves every path with a stack, and containment says that the
resolved components of one path strictly extend those of the other. -/
theorem normalizePath_correct :
    (∀ path, normalizePath path = (resolve path).toPath ∧ .curDir ∉ normalizePath path ∧
      normalizePath (normalizePath path) = normalizePath path) ∧
    (∀ text, components (pathText (normalizePath (components text))) =
      normalizePath (components text)) ∧
    (∀ child parent, isPathWithin child parent = true ↔
      ∃ extra, extra ≠ [] ∧ normalizePath child = normalizePath parent ++ extra) ∧
    (∀ first second, normalizedPathsEqual first second = true ↔ resolve first = resolve second) ∧
    (∀ path, isPathWithin path path = false) ∧
    (∀ first second third, isPathWithin first second = true → isPathWithin second third = true →
      isPathWithin first third = true) ∧
    ∀ path first second names, first ≠ second →
      isPathWithin (path ++ (second :: names).map .normal) (path ++ [.normal first]) = false := by
  refine ⟨?_, components_pathText, isPathWithin_iff, normalizedPathsEqual_iff,
    isPathWithin_irrefl, ?_, ?_⟩
  · intro path
    refine ⟨normalizePath_eq path, ?_, normalizePath_idem path⟩
    rw [normalizePath_eq]
    exact Resolution.curDir_notMem_toPath _
  · intro first second third hfirst hsecond
    exact isPathWithin_trans hfirst hsecond
  · intro path first second names hne
    exact isPathWithin_sibling path hne names

example : normalizePath (components (osString "/a/../../b/./c//../d")) =
    components (osString "/b/d") := by decide

end CfIntegration.Infrastructure.Checkout
