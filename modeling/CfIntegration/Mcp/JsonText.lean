import CfIntegration.Foundation.JsonString
import CfIntegration.Mcp.Json

/-! # The text of a JSON value

How the JSON library writes a value, without blanks. The text tells the values apart.
-/

namespace CfIntegration.Mcp

open JsonString

mutual
def Value.same : Value → Value → Bool
  | .null, .null => true
  | .bool first, .bool second => first == second
  | .number first, .number second => first == second
  | .string first, .string second => first == second
  | .array first, .array second => sameItems first second
  | .object first, .object second => sameEntries first second
  | _, _ => false

def sameItems : List Value → List Value → Bool
  | [], [] => true
  | first :: firsts, second :: seconds => first.same second && sameItems firsts seconds
  | _, _ => false

def sameEntries : List (String × Value) → List (String × Value) → Bool
  | [], [] => true
  | (name, first) :: firsts, (other, second) :: seconds =>
      name == other && (first.same second && sameEntries firsts seconds)
  | _, _ => false
end

mutual
theorem Value.same_iff (first second : Value) : first.same second = true ↔ first = second := by
  cases first with
  | null => cases second <;> simp [Value.same]
  | bool value => cases second <;> simp [Value.same]
  | number value => cases second <;> simp [Value.same]
  | string value => cases second <;> simp [Value.same]
  | array items =>
      cases second with
      | array others => simp [Value.same, sameItems_iff items others]
      | _ => simp [Value.same]
  | object entries =>
      cases second with
      | object others => simp [Value.same, sameEntries_iff entries others]
      | _ => simp [Value.same]

theorem sameItems_iff (firsts seconds : List Value) :
    sameItems firsts seconds = true ↔ firsts = seconds := by
  cases firsts with
  | nil => cases seconds <;> simp [sameItems]
  | cons first rest =>
      cases seconds with
      | nil => simp [sameItems]
      | cons second others =>
          simp [sameItems, Value.same_iff first second, sameItems_iff rest others]

theorem sameEntries_iff (firsts seconds : List (String × Value)) :
    sameEntries firsts seconds = true ↔ firsts = seconds := by
  cases firsts with
  | nil => cases seconds <;> simp [sameEntries]
  | cons entry rest =>
      obtain ⟨name, first⟩ := entry
      cases seconds with
      | nil => simp [sameEntries]
      | cons entry others =>
          obtain ⟨other, second⟩ := entry
          simp [sameEntries, Value.same_iff first second, sameEntries_iff rest others, and_assoc]
end

instance : DecidableEq Value := fun first second => decidable_of_iff _ (Value.same_iff first second)

def writeNumber : Number → List Char
  | .unsigned value => Nat.toDigits 10 value.toNat
  | .negative value => '-' :: Nat.toDigits 10 value.toInt.natAbs
  | .float text => text.toList

/-- The comma before an item that is not the first. -/
def comma (isFirst : Bool) : List Char := if isFirst then [] else [',']

mutual
def writeValue : Value → List Char
  | .null => "null".toList
  | .bool true => "true".toList
  | .bool false => "false".toList
  | .number value => writeNumber value
  | .string value => writeString value.toList
  | .array items => '[' :: writeItems true items
  | .object entries => '\x7b' :: writeEntries true entries

def writeItems (isFirst : Bool) : List Value → List Char
  | [] => [']']
  | item :: rest => comma isFirst ++ (writeValue item ++ writeItems false rest)

def writeEntries (isFirst : Bool) : List (String × Value) → List Char
  | [] => ['\x7d']
  | (name, value) :: rest =>
      comma isFirst ++ (writeString name.toList ++ (':' :: (writeValue value ++
        writeEntries false rest)))
end

example : writeValue (.object [("id", .string "a"), ("ok", .array [.bool true, .null])]) =
    "\x7b\"id\":\"a\",\"ok\":[true,null]\x7d".toList := by decide

/-- What the text of a number is made of. -/
def isNumeric (char : Char) : Bool := char.isDigit || char ∈ ['-', '+', '.', 'e']

/-- A number as the library holds it: a negative integer is below zero, and a float is kept by
its text, which has a fraction or an exponent. -/
def Number.Written : Number → Prop
  | .unsigned _ => True
  | .negative value => value < 0
  | .float text => (∀ char ∈ text.toList, isNumeric char = true) ∧
      ∃ char ∈ text.toList, char = '.' ∨ char = 'e'

theorem toDigits_injective {first second : Nat}
    (heq : Nat.toDigits 10 first = Nat.toDigits 10 second) : first = second := by
  have hread := congrArg (fun digits => Nat.ofDigitChars 10 digits 0) heq
  simpa [Nat.ofDigitChars_toDigits (b := 10) (by decide) (by decide)] using hread

theorem isDigit_toDigits {value : Nat} {char : Char} (hchar : char ∈ Nat.toDigits 10 value) :
    char.isDigit = true :=
  Nat.isDigit_of_mem_toDigits (by decide) (by decide) hchar

theorem toDigits_ne_minus {value : Nat} {rest : List Char} :
    Nat.toDigits 10 value ≠ '-' :: rest := by
  intro heq
  have hminus : '-'.isDigit = true := isDigit_toDigits (heq ▸ List.mem_cons_self)
  cases hminus

theorem isNumeric_writeNumber {number : Number} (hwritten : number.Written) {char : Char}
    (hchar : char ∈ writeNumber number) : isNumeric char = true := by
  cases number with
  | unsigned value => simp [isNumeric, isDigit_toDigits hchar]
  | negative value =>
      rcases List.mem_cons.mp hchar with rfl | hdigit
      · rfl
      · simp [isNumeric, isDigit_toDigits hdigit]
  | float text => exact hwritten.1 char hchar

/-- An integer has neither a fraction nor an exponent. -/
theorem float_ne_integer {text : String} (hwritten : (Number.float text).Written)
    {digits : List Char} (hdigits : ∀ char ∈ digits, char.isDigit = true ∨ char = '-') :
    text.toList ≠ digits := by
  intro heq
  obtain ⟨char, hchar, hmark⟩ := hwritten.2
  rcases hdigits char (heq ▸ hchar) with hdigit | rfl
  · rcases hmark with rfl | rfl <;> cases hdigit
  · rcases hmark with hmark | hmark <;> cases hmark

/-- A written number is read in one way. -/
theorem writeNumber_injective {first second : Number} (hfirst : first.Written)
    (hsecond : second.Written) (heq : writeNumber first = writeNumber second) : first = second := by
  have hplain {value : Nat} : ∀ char ∈ Nat.toDigits 10 value, char.isDigit = true ∨ char = '-' :=
    fun char hchar => .inl (isDigit_toDigits hchar)
  have hsigned {value : Nat} :
      ∀ char ∈ '-' :: Nat.toDigits 10 value, char.isDigit = true ∨ char = '-' := fun char hchar =>
    (List.mem_cons.mp hchar).elim .inr (hplain char)
  cases first with
  | unsigned value =>
      cases second with
      | unsigned other =>
          rw [UInt64.toNat_inj.mp (toDigits_injective heq)]
      | negative other => exact absurd heq toDigits_ne_minus
      | float other => exact absurd heq.symm (float_ne_integer hsecond hplain)
  | negative value =>
      cases second with
      | unsigned other => exact absurd heq.symm toDigits_ne_minus
      | negative other =>
          have habs := toDigits_injective (List.cons.inj heq).2
          have hvalue := Int64.lt_iff_toInt_lt.mp hfirst
          have hother := Int64.lt_iff_toInt_lt.mp hsecond
          rw [Int64.toInt_zero] at hvalue hother
          rw [Int64.toInt_inj.mp (by omega : value.toInt = other.toInt)]
      | float other => exact absurd heq.symm (float_ne_integer hsecond hsigned)
  | float text =>
      cases second with
      | unsigned other => exact absurd heq (float_ne_integer hfirst hplain)
      | negative other => exact absurd heq (float_ne_integer hfirst hsigned)
      | float other => rw [String.toList_inj.mp heq]

/-- All numbers of a value are written as the library holds them. -/
inductive Value.Written : Value → Prop
  | null : Written .null
  | bool (value : Bool) : Written (.bool value)
  | number {value : Number} (hnumber : value.Written) : Written (.number value)
  | string (value : String) : Written (.string value)
  | array {items : List Value} (hitems : ∀ item ∈ items, Written item) : Written (.array items)
  | object {entries : List (String × Value)} (hentries : ∀ entry ∈ entries, Written entry.2) :
      Written (.object entries)

/-- What follows a value does not continue a number. -/
def EndsNumber (text : List Char) : Prop :=
  ∀ char rest, text = char :: rest → isNumeric char = false

theorem endsNumber_nil : EndsNumber [] := nofun

/-- A character that belongs to no number ends one. -/
theorem endsNumber_cons {char : Char} {rest : List Char} (hchar : isNumeric char = false) :
    EndsNumber (char :: rest) := by
  rintro _ _ ⟨⟩
  exact hchar

theorem endsNumber_writeItems (items : List Value) (rest : List Char) :
    EndsNumber (writeItems false items ++ rest) := by
  cases items <;> exact endsNumber_cons rfl

theorem endsNumber_writeEntries (entries : List (String × Value)) (rest : List Char) :
    EndsNumber (writeEntries false entries ++ rest) := by
  cases entries with
  | nil => exact endsNumber_cons rfl
  | cons entry entries => exact endsNumber_cons rfl

/-- What a text can be the beginning of. -/
inductive Opening where
  | null
  | bool
  | number
  | string
  | array
  | object
  | closing
  deriving DecidableEq

def openingOf (char : Char) : Opening :=
  if char = 'n' then .null
  else if char = 't' ∨ char = 'f' then .bool
  else if char = '"' then .string
  else if char = '[' then .array
  else if char = '\x7b' then .object
  else if isNumeric char then .number
  else .closing

def Value.opening : Value → Opening
  | .null => .null
  | .bool _ => .bool
  | .number _ => .number
  | .string _ => .string
  | .array _ => .array
  | .object _ => .object

/-- A value that opens with a numeric character is a number. -/
theorem openingOf_of_isNumeric {char : Char} (hnumeric : isNumeric char = true) :
    openingOf char = .number := by
  have hne {other : Char} (hother : isNumeric other = false) : char ≠ other := by
    rintro rfl
    rw [hother] at hnumeric
    cases hnumeric
  rw [openingOf, if_neg (hne (by decide)), if_neg (not_or.mpr ⟨hne (by decide), hne (by decide)⟩),
    if_neg (hne (by decide)), if_neg (hne (by decide)), if_neg (hne (by decide)),
    if_pos hnumeric]

theorem writeNumber_ne_nil {number : Number} (hwritten : number.Written) :
    writeNumber number ≠ [] := by
  cases number with
  | unsigned value => exact Nat.toDigits_ne_nil
  | negative value => exact List.cons_ne_nil _ _
  | float text =>
      obtain ⟨char, hchar, -⟩ := hwritten.2
      exact List.ne_nil_of_mem hchar

/-- The first character of a written value tells what it is. -/
theorem exists_writeValue {value : Value} (hwritten : value.Written) :
    ∃ char rest, writeValue value = char :: rest ∧ openingOf char = value.opening := by
  cases hwritten with
  | null => exact ⟨_, _, rfl, rfl⟩
  | bool value => cases value <;> exact ⟨_, _, rfl, rfl⟩
  | @number value hnumber =>
      obtain ⟨char, rest, hvalue⟩ := List.exists_cons_of_ne_nil (writeNumber_ne_nil hnumber)
      have hchar : char ∈ writeNumber value := by
        rw [hvalue]
        exact List.mem_cons_self
      exact ⟨char, rest, hvalue, openingOf_of_isNumeric (isNumeric_writeNumber hnumber hchar)⟩
  | string value => exact ⟨_, _, rfl, rfl⟩
  | array hitems => exact ⟨_, _, rfl, rfl⟩
  | object hentries => exact ⟨_, _, rfl, rfl⟩

/-- Values that are written alike are of one kind. -/
theorem opening_eq_of_append {first second : Value} (hfirst : first.Written)
    (hsecond : second.Written) {front back : List Char}
    (heq : writeValue first ++ front = writeValue second ++ back) :
    first.opening = second.opening := by
  obtain ⟨char, rest, hwrite, hopens⟩ := exists_writeValue hfirst
  obtain ⟨other, others, hother, hotherOpens⟩ := exists_writeValue hsecond
  rw [hwrite, hother] at heq
  rw [← hopens, ← hotherOpens, (List.cons.inj heq).1]

/-- A number ends where its characters do. -/
theorem takeWhile_append_of_endsNumber {digits rest : List Char}
    (hdigits : ∀ char ∈ digits, isNumeric char = true) (hrest : EndsNumber rest) :
    (digits ++ rest).takeWhile isNumeric = digits := by
  rw [List.takeWhile_append_of_pos hdigits]
  cases rest with
  | nil => rw [List.takeWhile_nil, List.append_nil]
  | cons char rest =>
      rw [List.takeWhile_cons_of_neg (by simp [hrest char rest rfl]), List.append_nil]

/-- A written number tells where it ends. -/
theorem writeNumber_append_inj {first second : Number} (hfirst : first.Written)
    (hsecond : second.Written) {front back : List Char} (hfront : EndsNumber front)
    (hback : EndsNumber back) (heq : writeNumber first ++ front = writeNumber second ++ back) :
    first = second ∧ front = back := by
  have hdigits := congrArg (List.takeWhile isNumeric) heq
  rw [takeWhile_append_of_endsNumber (fun _ => isNumeric_writeNumber hfirst) hfront,
    takeWhile_append_of_endsNumber (fun _ => isNumeric_writeNumber hsecond) hback] at hdigits
  have hsame := writeNumber_injective hfirst hsecond hdigits
  subst hsame
  exact ⟨rfl, List.append_cancel_left heq⟩

theorem bracket_ne_writeItem {value : Value} (hwritten : value.Written) {isFirst : Bool}
    {front rest : List Char} : ']' :: front ≠ comma isFirst ++ (writeValue value ++ rest) := by
  obtain ⟨char, others, hvalue, hopens⟩ := exists_writeValue hwritten
  cases isFirst with
  | false => exact fun heq => absurd (List.cons.inj heq).1 (by decide)
  | true =>
      rw [hvalue]
      rintro ⟨⟩
      cases value <;> cases hopens

theorem brace_ne_writeEntry {name : String} {isFirst : Bool} {front rest : List Char} :
    '\x7d' :: front ≠ comma isFirst ++ (writeString name.toList ++ rest) := by
  cases isFirst <;> exact fun heq => absurd (List.cons.inj heq).1 (by decide)

mutual
/-- A written value can be read back from the front of whatever it is part of. -/
theorem writeValue_append_inj (first second : Value) (hfirst : first.Written)
    (hsecond : second.Written) {front back : List Char} (hfront : EndsNumber front)
    (hback : EndsNumber back) (heq : writeValue first ++ front = writeValue second ++ back) :
    first = second ∧ front = back := by
  have hopens := opening_eq_of_append hfirst hsecond heq
  cases first with
  | null =>
      cases second with
      | null => exact ⟨rfl, List.append_cancel_left heq⟩
      | _ => cases hopens
  | bool value =>
      cases second with
      | bool other =>
          cases value <;> cases other <;>
            first | exact ⟨rfl, List.append_cancel_left heq⟩ | cases (List.cons.inj heq).1
      | _ => cases hopens
  | number value =>
      cases second with
      | number other =>
          cases hfirst with | number hvalue =>
          cases hsecond with | number hother =>
          obtain ⟨rfl, hrest⟩ := writeNumber_append_inj hvalue hother hfront hback heq
          exact ⟨rfl, hrest⟩
      | _ => cases hopens
  | string value =>
      cases second with
      | string other =>
          obtain ⟨hvalue, hrest⟩ := writeString_append_inj heq
          exact ⟨congrArg _ (String.toList_inj.mp hvalue), hrest⟩
      | _ => cases hopens
  | array items =>
      cases second with
      | array others =>
          cases hfirst with | array hitems =>
          cases hsecond with | array hothers =>
          obtain ⟨rfl, hrest⟩ := writeItems_append_inj items others true hitems hothers
            (List.cons.inj heq).2
          exact ⟨rfl, hrest⟩
      | _ => cases hopens
  | object entries =>
      cases second with
      | object others =>
          cases hfirst with | object hentries =>
          cases hsecond with | object hothers =>
          obtain ⟨rfl, hrest⟩ := writeEntries_append_inj entries others true hentries hothers
            (List.cons.inj heq).2
          exact ⟨rfl, hrest⟩
      | _ => cases hopens

/-- Written items tell where they end. -/
theorem writeItems_append_inj (items others : List Value) (isFirst : Bool)
    (hitems : ∀ item ∈ items, item.Written) (hothers : ∀ item ∈ others, item.Written)
    {front back : List Char}
    (heq : writeItems isFirst items ++ front = writeItems isFirst others ++ back) :
    items = others ∧ front = back := by
  cases items with
  | nil =>
      cases others with
      | nil => exact ⟨rfl, List.append_cancel_left heq⟩
      | cons other others =>
          rw [writeItems, writeItems, List.append_assoc, List.append_assoc] at heq
          exact absurd heq (bracket_ne_writeItem (hothers other List.mem_cons_self))
  | cons item rest =>
      cases others with
      | nil =>
          rw [writeItems, writeItems, List.append_assoc, List.append_assoc] at heq
          exact absurd heq.symm (bracket_ne_writeItem (hitems item List.mem_cons_self))
      | cons other others =>
          simp only [writeItems, List.append_assoc] at heq
          obtain ⟨hitem, hrest⟩ := List.forall_mem_cons.mp hitems
          obtain ⟨hother, hmore⟩ := List.forall_mem_cons.mp hothers
          obtain ⟨rfl, htail⟩ := writeValue_append_inj item other hitem hother
            (endsNumber_writeItems rest front) (endsNumber_writeItems others back)
            (List.append_cancel_left heq)
          obtain ⟨rfl, hend⟩ := writeItems_append_inj rest others false hrest hmore htail
          exact ⟨rfl, hend⟩

/-- Written entries tell where they end. -/
theorem writeEntries_append_inj (entries others : List (String × Value)) (isFirst : Bool)
    (hentries : ∀ entry ∈ entries, entry.2.Written) (hothers : ∀ entry ∈ others, entry.2.Written)
    {front back : List Char}
    (heq : writeEntries isFirst entries ++ front = writeEntries isFirst others ++ back) :
    entries = others ∧ front = back := by
  cases entries with
  | nil =>
      cases others with
      | nil => exact ⟨rfl, List.append_cancel_left heq⟩
      | cons other others =>
          rw [writeEntries, writeEntries, List.append_assoc, List.append_assoc] at heq
          exact absurd heq brace_ne_writeEntry
  | cons entry rest =>
      obtain ⟨name, value⟩ := entry
      cases others with
      | nil =>
          rw [writeEntries, writeEntries, List.append_assoc, List.append_assoc] at heq
          exact absurd heq.symm brace_ne_writeEntry
      | cons other others =>
          obtain ⟨otherName, otherValue⟩ := other
          simp only [writeEntries, List.append_assoc, List.cons_append] at heq
          obtain ⟨hvalue, hrest⟩ := List.forall_mem_cons.mp hentries
          obtain ⟨hother, hmore⟩ := List.forall_mem_cons.mp hothers
          obtain ⟨hname, heq⟩ := writeString_append_inj (List.append_cancel_left heq)
          obtain ⟨rfl, htail⟩ := writeValue_append_inj value otherValue hvalue hother
            (endsNumber_writeEntries rest front) (endsNumber_writeEntries others back)
            (List.cons.inj heq).2
          obtain ⟨rfl, hend⟩ := writeEntries_append_inj rest others false hrest hmore htail
          cases String.toList_inj.mp hname
          exact ⟨rfl, hend⟩
end

/-- Values that are written alike are equal. -/
theorem writeValue_injective {first second : Value} (hfirst : first.Written)
    (hsecond : second.Written) (heq : writeValue first = writeValue second) : first = second :=
  (writeValue_append_inj first second hfirst hsecond endsNumber_nil endsNumber_nil
    (congrArg (· ++ []) heq)).1

/-- A value that the library wrote or read. -/
abbrev JsonValue := { value : Value // value.Written }

/-- The parser on the texts of the given values. -/
def JsonParser.ofValues (values : List Value) : JsonParser where
  parse text :=
    let text := Text.trim isJsonWhitespace text
    if text = [] then none else values.find? (writeValue · = text)
  trimmed text := by simp only [Text.trim_trim]
  empty := rfl

end CfIntegration.Mcp
