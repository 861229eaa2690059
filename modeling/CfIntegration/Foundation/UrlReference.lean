import CfIntegration.Foundation.Url

/-! # Rooted references

A reference that begins with one slash takes the place of the path of an HTTP URL. What was
pasted into it without encoding is read as any other part of a path: separators split it, dots
climb, and a question mark or a number sign ends it.
-/

namespace CfIntegration

/-- What is cut off at both ends of a reference. -/
def isControlOrSpace (char : Char) : Bool := char.toNat ≤ 0x20

/-- The ASCII characters that are encoded in a path. The percent sign is not one of them. -/
def encodedInPath (char : Char) : Bool :=
  char.toNat < 0x20 || char.toNat = 0x7f ||
    char ∈ [' ', '"', '#', '<', '>', '?', '^', '\x60', '\x7b', '\x7d']

def encodePathChar (char : Char) : List Char :=
  if char.toNat < 0x80 ∧ encodedInPath char = false then [char]
  else (String.utf8EncodeChar char).flatMap percentByte

/-- The path after a segment. It ends in a slash before, and after all segments but the last. -/
def addSegment (path segment : List Char) (isLast : Bool) : List Char :=
  let encoded := segment.flatMap encodePathChar
  if isDoubleDot encoded then shortenPath path
  else if isSingleDot encoded then path
  else path ++ encoded ++ if isLast then [] else ['/']

def addSegments (path : List Char) : List (List Char) → List Char
  | [] => path
  | segment :: rest => addSegments (addSegment path segment rest.isEmpty) rest

/-- The segments that a reference is split into. A backslash separates as a slash does. -/
def referenceSegments (reference : List Char) : List (List Char) :=
  let kept := (Text.trim isControlOrSpace reference).filter fun char => !isTabOrNewline char
  let path := (kept.takeWhile fun char => char ∉ ['?', '#']).map fun char =>
    if char = '\\' then '/' else char
  path.tail.splitOn '/'

/-- The path of an HTTP URL onto which the reference was joined. -/
def joinedPath (reference : List Char) : List Char :=
  addSegments ['/'] (referenceSegments reference)

/-- The bytes that the segments of a path stand for. -/
def pathNames : List Char → Option (List (List UInt8))
  | '/' :: rest => some ((rest.splitOn '/').map percentDecode)
  | _ => none

/-- The path leads to the item of a collection. -/
def addresses (path : List Char) (collection : List String) (id : String) : Bool :=
  id ≠ "" && pathNames path = some ((collection ++ [id]).map fun name => utf8 name.toList)

/-- A path leads to one item of a collection at most. -/
theorem addresses_inj {path : List Char} {collection other : List String} {id otherId : String}
    (hfirst : addresses path collection id = true) (hsecond : addresses path other otherId = true) :
    collection = other ∧ id = otherId := by
  rw [addresses, Bool.and_eq_true, decide_eq_true_iff, decide_eq_true_iff] at hfirst hsecond
  have hnames := Option.some.inj (hfirst.2.symm.trans hsecond.2)
  have hinjective : Function.Injective fun name : String => utf8 name.toList :=
    fun _ _ hbytes => String.toList_inj.mp (utf8_injective hbytes)
  exact List.concat_inj.mp (by simpa using hinjective.list_map hnames)

def isPlain (char : Char) : Bool := char.isAlphanum || char = '-' || char = '_'

/-- A name that a path has as it is. -/
structure PlainName (name : List Char) : Prop where
  nonempty : name ≠ []
  plain : ∀ char ∈ name, isPlain char = true

theorem PlainName.of_all {name : List Char} (hname : (!name.isEmpty && name.all isPlain) = true) :
    PlainName name := by
  rw [Bool.and_eq_true, List.all_eq_true] at hname
  refine ⟨fun hempty => ?_, hname.2⟩
  simp [hempty] at hname

/-- The characters that are special in a reference or in a path. -/
def special : List Char :=
  [' ', '"', '#', '<', '>', '?', '^', '\x60', '\x7b', '\x7d', '/', '\\', '%', '.', '\t', '\n', '\r']

/-- Plain characters are not special. -/
theorem notMem_special {char : Char} (hplain : isPlain char = true) : char ∉ special := by
  have hspecial : special.all (fun other => !isPlain other) = true := rfl
  intro hmem
  have hnot := List.all_eq_true.mp hspecial char hmem
  rw [hplain] at hnot
  cases hnot

/-- Plain characters are printable ASCII. -/
theorem isPlain_code {char : Char} (hplain : isPlain char = true) :
    0x20 < char.toNat ∧ char.toNat < 0x7f := by
  simp only [isPlain, Bool.or_eq_true, decide_eq_true_eq] at hplain
  rcases hplain with (halnum | rfl) | rfl
  · have hcode := Text.isAlphanum_code halnum
    omega
  · decide
  · decide

theorem encodePathChar_of_isPlain {char : Char} (hplain : isPlain char = true) :
    encodePathChar char = [char] := by
  have hcode := isPlain_code hplain
  have hother := notMem_special hplain
  simp only [special, List.mem_cons, List.not_mem_nil, or_false, not_or] at hother
  refine if_pos ⟨by omega, ?_⟩
  simp only [encodedInPath, List.mem_cons, List.not_mem_nil, or_false, hother, decide_false,
    Bool.or_false, Bool.or_eq_false_iff, decide_eq_false_iff_not]
  omega

/-- A plain name is not encoded. -/
theorem PlainName.encoded {name : List Char} (hname : PlainName name) :
    name.flatMap encodePathChar = name := by
  have hchars : ∀ text : List Char, (∀ char ∈ text, isPlain char = true) →
      text.flatMap encodePathChar = text := by
    intro text htext
    induction text with
    | nil => rfl
    | cons char rest ih =>
        obtain ⟨hchar, hrest⟩ := List.forall_mem_cons.mp htext
        rw [List.flatMap_cons, encodePathChar_of_isPlain hchar, ih hrest, List.singleton_append]
  exact hchars name hname.plain

/-- A plain name is decoded to its bytes. -/
theorem PlainName.decoded {name : List Char} (hname : PlainName name) :
    percentDecode name = utf8 name := by
  have hchars : ∀ text : List Char, (∀ char ∈ text, isPlain char = true) →
      percentDecode text = utf8 text := by
    intro text htext
    induction text with
    | nil => rfl
    | cons char rest ih =>
        obtain ⟨hchar, hrest⟩ := List.forall_mem_cons.mp htext
        have hpercent : char ≠ '%' := fun heq => notMem_special hchar (by simp [special, heq])
        rw [percentDecode, ih hrest]
        · rfl
        · rintro _ _ _ rfl
          exact absurd rfl hpercent
  exact hchars name hname.plain

/-- A plain name is no dot segment. -/
theorem PlainName.notDot {name : List Char} (hname : PlainName name) :
    isSingleDot name = false ∧ isDoubleDot name = false := by
  have hnone : ∀ char ∈ ['.', '%'], char ∉ name := fun char hchar hmem =>
    notMem_special (hname.plain char hmem) (by
      simp only [List.mem_cons, List.not_mem_nil, or_false] at hchar
      rcases hchar with rfl | rfl <;> decide)
  simp only [isSingleDot, isDoubleDot, decide_eq_false_iff_not]
  refine ⟨fun hmem => ?_, fun hmem => ?_⟩
  · simp only [List.mem_cons, List.not_mem_nil, or_false] at hmem
    rcases hmem with rfl | rfl | rfl <;> simp at hnone
  · simp only [List.mem_cons, List.not_mem_nil, or_false] at hmem
    rcases hmem with rfl | rfl | rfl | rfl | rfl | rfl | rfl | rfl | rfl <;> simp at hnone

section
variable {names : List (List Char)}

/-- Plain names become segments one after the other. -/
theorem addSegments_of_plain (hnames : ∀ name ∈ names, PlainName name) (path : List Char) :
    addSegments path names = path ++ ['/'].intercalate names := by
  induction names generalizing path with
  | nil => exact (List.append_nil path).symm
  | cons name rest ih =>
      obtain ⟨hname, hrest⟩ := List.forall_mem_cons.mp hnames
      obtain ⟨hsingle, hdouble⟩ := hname.notDot
      rw [addSegments, ih hrest, addSegment]
      simp only [hname.encoded, hsingle, hdouble, Bool.false_eq_true, if_false]
      cases rest with
      | nil => simp
      | cons next others => simp [List.intercalate_cons_cons]

/-- A reference of plain names is split into these names. -/
theorem referenceSegments_of_plain (hne : names ≠ []) (hnames : ∀ name ∈ names, PlainName name) :
    referenceSegments ('/' :: ['/'].intercalate names) = names := by
  have hchars : ∀ char ∈ '/' :: ['/'].intercalate names,
      isControlOrSpace char = false ∧ isTabOrNewline char = false ∧ char ∉ ['?', '#'] ∧
        char ≠ '\\' := by
    intro char hchar
    have hplace : char = '/' ∨ ∃ name ∈ names, char ∈ name :=
      (List.mem_cons.mp hchar).elim .inl fun hchar =>
        (Text.mem_intercalate hchar).imp_left List.mem_singleton.mp
    rcases hplace with rfl | ⟨name, hname, hmem⟩
    · decide
    · have hplain := (hnames name hname).plain char hmem
      have hcode := isPlain_code hplain
      have hother := notMem_special hplain
      simp only [special, List.mem_cons, List.not_mem_nil, or_false, not_or] at hother
      simp [isControlOrSpace, isTabOrNewline, hother, hcode.1]
  generalize htext : '/' :: ['/'].intercalate names = text at hchars
  have htrim : Text.trim isControlOrSpace text = text := by
    have hdrop : text.dropWhile isControlOrSpace = text := by
      rw [List.dropWhile_eq_self_iff]
      intro hlength
      rw [(hchars _ (List.getElem_mem hlength)).1]
      exact Bool.false_ne_true
    rw [Text.trim, hdrop, List.rdropWhile_eq_self_iff]
    intro hnonempty
    rw [(hchars _ (List.getLast_mem hnonempty)).1]
    exact Bool.false_ne_true
  have hkept : (text.filter fun char => !isTabOrNewline char) = text :=
    List.filter_eq_self.mpr fun char hchar => by rw [(hchars char hchar).2.1]; rfl
  have htaken : (text.takeWhile fun char => char ∉ ['?', '#']) = text :=
    List.takeWhile_eq_self_iff.mpr fun char hchar => decide_eq_true (hchars char hchar).2.2.1
  have hmapped : (text.map fun char => if char = '\\' then '/' else char) = text := by
    refine (List.map_congr_left fun char hchar => ?_).trans (List.map_id text)
    rw [if_neg (hchars char hchar).2.2.2]
    rfl
  rw [referenceSegments]
  rw [htrim, hkept, htaken, hmapped, ← htext, List.tail_cons]
  refine List.splitOn_intercalate '/' (fun name hname hslash => ?_) hne
  exact notMem_special ((hnames name hname).plain _ hslash) (by decide)

/-- A server reads the plain names that were joined. -/
theorem pathNames_of_plain (hne : names ≠ []) (hnames : ∀ name ∈ names, PlainName name) :
    pathNames (joinedPath ('/' :: ['/'].intercalate names)) = some (names.map utf8) := by
  rw [joinedPath, referenceSegments_of_plain hne hnames, addSegments_of_plain hnames,
    List.singleton_append, pathNames, List.splitOn_intercalate '/' (fun name hname hslash =>
      notMem_special ((hnames name hname).plain _ hslash) (by decide)) hne]
  exact congrArg some (List.map_congr_left fun name hname => (hnames name hname).decoded)

end

/-- An item whose name and whose collection's names are plain is reached by its reference. -/
theorem addresses_joinedPath {collection : List String} {id : String}
    (hcollection : ∀ name ∈ collection, PlainName name.toList) (hid : PlainName id.toList) :
    addresses (joinedPath ('/' :: ['/'].intercalate ((collection ++ [id]).map String.toList)))
      collection id = true := by
  have hnames : ∀ name ∈ (collection ++ [id]).map String.toList, PlainName name := by
    simpa [or_imp, forall_and] using ⟨hcollection, hid⟩
  have hne : id ≠ "" := by
    rintro rfl
    exact hid.nonempty rfl
  rw [addresses, pathNames_of_plain (by simp) hnames, List.map_map]
  exact Bool.and_eq_true_iff.mpr ⟨decide_eq_true hne, decide_eq_true rfl⟩

end CfIntegration
