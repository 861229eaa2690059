import CfIntegration.Conformance.ResultNames
import CfIntegration.Foundation.Text

/-! # Run times of a load test

The command line and the settings each scan the bytes of a Locust duration. The
scanners cut the text at byte offsets; they never cut inside a character, and both
accept the same grammar.
-/

namespace CfIntegration.Performance

open scoped Text
open Conformance (utf8Bytes byteLen splitAtByte splitAtByte_append byteLen_append utf8Bytes_append
  utf8EncodeChar_of_ascii)

/-- Why no run time is returned. -/
inductive RunTimeError where
  | message (text : String)
  | panicked
  deriving DecidableEq

/-- `u8::is_ascii_digit`. -/
def isAsciiDigit (byte : UInt8) : Bool := '0'.toUInt8 ≤ byte && byte ≤ '9'.toUInt8

/-- `str::parse::<u64>`. -/
def parseU64 (text : List Char) : Option Nat :=
  let digits := match text with
    | '+' :: digits => digits
    | digits => digits
  if digits ≠ [] ∧ digits.all Char.isDigit ∧ Nat.ofDigitChars 10 digits 0 < 2 ^ 64 then
    some (Nat.ofDigitChars 10 digits 0)
  else none

/-- The text between two byte offsets; none if an offset is not at the end of a character. -/
def slice (text : List Char) (start stop : Nat) : Option (List Char) := do
  let (before, _) ← splitAtByte text stop
  let (_, between) ← splitAtByte before start
  some between

/-- Where the digits that begin at a position end. -/
def digitsEnd (bytes : List UInt8) (position : Nat) : Nat :=
  if h : position < bytes.length then
    if isAsciiDigit bytes[position] then digitsEnd bytes (position + 1) else position
  else position
termination_by bytes.length - position

theorem le_digitsEnd (bytes : List UInt8) (position : Nat) :
    position ≤ digitsEnd bytes position := by
  fun_induction digitsEnd bytes position with
  | case1 position _ _ ih => omega
  | case2 => exact le_refl _
  | case3 => exact le_refl _

theorem scan_advances {bytes : List UInt8} {position : Nat} (hposition : position < bytes.length) :
    bytes.length - (digitsEnd bytes position + 1) < bytes.length - position := by
  have hstop := le_digitsEnd bytes position
  omega

/-- The rank of the unit that a byte names. -/
def unitRank : Option UInt8 → Option Nat
  | some byte =>
      if byte = 'h'.toUInt8 then some 0
      else if byte = 'm'.toUInt8 then some 1
      else if byte = 's'.toUInt8 then some 2
      else none
  | none => none

def cliRunTimeError : String :=
  "must be a positive Locust duration using h, m, and s at most once in that order"

/-- The loop of `parse_run_time`, from a position on. -/
def parseGroups (value : List Char) (position : Nat) (previousUnit : Option Nat) :
    Except RunTimeError Unit :=
  if _ : position < (utf8Bytes value).length then
    let stop := digitsEnd (utf8Bytes value) position
    if position = stop then .error (.message cliRunTimeError)
    else match slice value position stop with
      | none => .error .panicked
      | some text => match parseU64 text with
        | none => .error (.message cliRunTimeError)
        | some amount =>
            if amount = 0 then .error (.message cliRunTimeError)
            else match unitRank (utf8Bytes value)[stop]? with
              | none => .error (.message cliRunTimeError)
              | some unit =>
                  if previousUnit.any (unit ≤ ·) then .error (.message cliRunTimeError)
                  else parseGroups value (stop + 1) (some unit)
  else .ok ()
termination_by (utf8Bytes value).length - position
decreasing_by exact scan_advances ‹_›

def parseRunTime (value : String) : Except RunTimeError String := do
  if utf8Bytes value.toList = [] then throw (.message cliRunTimeError)
  parseGroups value.toList 0 none
  return value

def settingsRunTimeError : String :=
  "LOCUST_RUN_TIME must be a positive Locust duration using h, m, and s at most once in that order"

/-- The loop of `validate_locust_run_time`, from a position on. -/
def validateGroups (value : List Char) (position : Nat) (previousUnit : Option Nat) :
    Except RunTimeError Unit :=
  if _ : position < (utf8Bytes value).length then
    let stop := digitsEnd (utf8Bytes value) position
    -- The slice is not taken where the first operand of the disjunction holds.
    let refused := if position = stop then some true
      else (slice value position stop).map fun text => (parseU64 text).all (· = 0)
    match refused with
    | none => .error .panicked
    | some true => .error (.message settingsRunTimeError)
    | some false => match unitRank (utf8Bytes value)[stop]? with
      | none => .error (.message settingsRunTimeError)
      | some unit =>
          if previousUnit.any (unit ≤ ·) then .error (.message settingsRunTimeError)
          else validateGroups value (stop + 1) (some unit)
  else .ok ()
termination_by (utf8Bytes value).length - position
decreasing_by exact scan_advances ‹_›

def validateLocustRunTime (value : String) : Except RunTimeError Unit := do
  if utf8Bytes value.toList = [] then throw (.message settingsRunTimeError)
  validateGroups value.toList 0 none

/-- A count and its unit. -/
def IsGroup (unit : Char) (text : List Char) : Prop :=
  ∃ digits, text = digits ++ [unit] ∧ digits ≠ [] ∧ digits.all Char.isDigit = true ∧
    0 < Nat.ofDigitChars 10 digits 0 ∧ Nat.ofDigitChars 10 digits 0 < 2 ^ 64

/-- Groups of the units in their order, each at most once. -/
def IsSequence : List Char → List Char → Prop
  | [], text => text = []
  | unit :: units, text => ∃ group rest, text = group ++ rest ∧
      (group = [] ∨ IsGroup unit group) ∧ IsSequence units rest

/-- What a run time is. -/
def IsRunTime (text : List Char) : Prop := text ≠ [] ∧ IsSequence ['h', 'm', 's'] text

theorem isSequence_nil (units : List Char) : IsSequence units [] := by
  induction units with
  | nil => rfl
  | cons unit units ih => exact ⟨[], [], rfl, Or.inl rfl, ih⟩

theorem exists_digits (text : List Char) : ∃ digits tail, text = digits ++ tail ∧
    digits.all Char.isDigit = true ∧ tail.head?.all (!·.isDigit) = true := by
  refine ⟨text.takeWhile Char.isDigit, text.dropWhile Char.isDigit,
    List.takeWhile_append_dropWhile.symm, List.all_takeWhile, ?_⟩
  have hhead := List.head?_dropWhile_not Char.isDigit text
  cases hdrop : (text.dropWhile Char.isDigit).head? with
  | none => rfl
  | some char => simpa [hdrop] using hhead

/-- The digits at the beginning of a text and the rest are determined by it. -/
theorem digits_unique {digits count tail rest : List Char} {unit : Char}
    (hdigits : digits.all Char.isDigit = true) (hcount : count.all Char.isDigit = true)
    (htail : tail.head?.all (!·.isDigit) = true) (hunit : unit.isDigit = false)
    (heq : digits ++ tail = count ++ unit :: rest) : digits = count ∧ tail = unit :: rest := by
  have htake : ∀ {front back : List Char}, front.all Char.isDigit = true →
      back.head?.all (!·.isDigit) = true → (front ++ back).takeWhile Char.isDigit = front := by
    intro front back hfront hback
    rw [List.takeWhile_append_of_pos (List.all_eq_true.mp hfront)]
    cases back with
    | nil => simp
    | cons char back => simp_all
  have hsame : digits = count := by
    rw [← htake hdigits htail, heq, htake hcount (by simpa using hunit)]
  subst hsame
  exact ⟨rfl, List.append_cancel_left heq⟩

/-- Digits and what follows them begin a sequence if a unit follows them that was not
used, with a positive count, and a sequence of the later units follows that. -/
theorem isSequence_digits {units digits tail : List Char}
    (hunits : ∀ unit ∈ units, unit.isDigit = false) (hne : digits ≠ [])
    (hdigits : digits.all Char.isDigit = true) (htail : (tail.head?.all (!·.isDigit)) = true) :
    IsSequence units (digits ++ tail) ↔ ∃ index unit more, units[index]? = some unit ∧
      tail = unit :: more ∧ IsGroup unit (digits ++ [unit]) ∧
      IsSequence (units.drop (index + 1)) more := by
  induction units with
  | nil => simp [IsSequence, hne]
  | cons unit units ih =>
      have hunit := hunits unit (List.mem_cons_self ..)
      have hrest := ih fun other hother => hunits other (List.mem_cons_of_mem _ hother)
      constructor
      · intro hsequence
        obtain ⟨group, rest, heq, hgroup, hsequence⟩ := hsequence
        rcases hgroup with rfl | hgroup
        · -- The unit is skipped.
          rw [List.nil_append] at heq
          obtain ⟨index, other, more, hindex, hmore, hother, hsequence⟩ :=
            hrest.mp (heq ▸ hsequence)
          exact ⟨index + 1, other, more, hindex, hmore, hother, hsequence⟩
        · obtain ⟨count, rfl, hcount⟩ := hgroup
          obtain ⟨rfl, rfl⟩ := digits_unique hdigits hcount.2.1 htail hunit
            (by rw [heq, List.append_assoc]; rfl)
          exact ⟨0, unit, rest, rfl, rfl, ⟨digits, rfl, hcount⟩, hsequence⟩
      · intro hsplit
        obtain ⟨index, other, more, hindex, rfl, hgroup, hsequence⟩ := hsplit
        cases index with
        | zero =>
            obtain rfl : unit = other := by simpa using hindex
            refine ⟨digits ++ [unit], more, by simp, Or.inr hgroup, hsequence⟩
        | succ index =>
            exact ⟨[], digits ++ other :: more, rfl, Or.inl rfl,
              hrest.mpr ⟨index, other, more, hindex, rfl, hgroup, hsequence⟩⟩

theorem IsSequence.head {units rest : List Char} {char : Char}
    (hsequence : IsSequence units (char :: rest)) : char.isDigit = true := by
  induction units with
  | nil => exact absurd hsequence (List.cons_ne_nil _ _)
  | cons unit units ih =>
      obtain ⟨group, tail, heq, hgroup, hsequence⟩ := hsequence
      rcases hgroup with rfl | hgroup
      · rw [List.nil_append] at heq
        exact ih (heq ▸ hsequence)
      · obtain ⟨digits, rfl, hne, hdigits, -⟩ := hgroup
        cases digits with
        | nil => exact absurd rfl hne
        | cons digit digits =>
            obtain rfl : char = digit := by simpa using congrArg List.head? heq
            exact (Bool.and_eq_true_iff.mp hdigits).1

theorem isGroup_digits {digits : List Char} {unit : Char} (hne : digits ≠ [])
    (hdigits : digits.all Char.isDigit = true) :
    IsGroup unit (digits ++ [unit]) ↔
      ¬ (Nat.ofDigitChars 10 digits 0 = 0 ∨ 2 ^ 64 ≤ Nat.ofDigitChars 10 digits 0) := by
  rw [not_or, ← ne_eq, ← Nat.pos_iff_ne_zero, Nat.not_le]
  constructor
  · intro hgroup
    obtain ⟨count, heq, -, -, hcount⟩ := hgroup
    obtain rfl := List.append_cancel_right heq
    exact hcount
  · intro hcount
    exact ⟨digits, rfl, hne, hdigits, hcount⟩

/-- The byte where a character begins names the character if it is an ASCII one. -/
theorem encode_eq_of_ascii {char : Char} {byte : UInt8}
    (hhead : (String.utf8EncodeChar char).head? = some byte) (hascii : byte < 0x80) :
    char.toNat = byte.toNat :=
  (utf8EncodeChar_of_ascii (List.mem_of_mem_head? hhead) hascii).2

theorem head?_encode (char : Char) : ∃ byte, (String.utf8EncodeChar char).head? = some byte := by
  cases hbytes : String.utf8EncodeChar char with
  | nil =>
      have hlength := String.length_utf8EncodeChar char
      rw [hbytes, List.length_nil] at hlength
      exact absurd hlength.symm (Nat.ne_of_gt char.utf8Size_pos)
  | cons byte bytes => exact ⟨byte, rfl⟩

theorem getElem?_utf8Bytes (front : List Char) (char : Char) (rest : List Char) :
    (utf8Bytes (front ++ char :: rest))[byteLen front]? =
      (String.utf8EncodeChar char).head? := by
  obtain ⟨byte, hhead⟩ := head?_encode char
  rw [utf8Bytes_append, byteLen, List.getElem?_append_right (le_refl _), Nat.sub_self]
  obtain ⟨bytes, hbytes⟩ := List.head?_eq_some_iff.mp hhead
  simp [utf8Bytes, hbytes]

theorem getElem?_utf8Bytes_end (front : List Char) :
    (utf8Bytes front)[byteLen front]? = none :=
  List.getElem?_eq_none (le_refl _)

/-- An ASCII code is the first byte of the character with this code and of no other. -/
theorem toNat_eq_iff {char : Char} {byte : UInt8} {code : Nat} (hcode : code < 128)
    (hhead : (String.utf8EncodeChar char).head? = some byte) :
    byte.toNat = code ↔ char.toNat = code := by
  constructor
  · intro hbyte
    rw [← hbyte]
    apply encode_eq_of_ascii hhead
    rw [UInt8.lt_iff_toNat_lt, hbyte]
    exact hcode
  · intro hchar
    have hsize : char.utf8Size = 1 := by
      rw [Char.utf8Size_eq_one_iff, UInt32.le_iff_toNat_le]
      exact hchar.trans_le (Nat.le_of_lt_succ hcode)
    rw [String.utf8EncodeChar_eq_singleton hsize, List.head?_cons, Option.some.injEq] at hhead
    have hvalue : char.val.toNat = code := hchar
    rw [← hhead, UInt32.toNat_toUInt8, hvalue, Nat.mod_eq_of_lt (by omega)]

/-- The first byte of a character is a digit's if the character is a digit. -/
theorem isAsciiDigit_encode {char : Char} {byte : UInt8}
    (hhead : (String.utf8EncodeChar char).head? = some byte) :
    isAsciiDigit byte = char.isDigit := by
  have hbyte : isAsciiDigit byte = true ↔ ∃ code, 48 ≤ code ∧ code ≤ 57 ∧ byte.toNat = code := by
    simp only [isAsciiDigit, Bool.and_eq_true, decide_eq_true_eq, UInt8.le_iff_toNat_le,
      exists_eq_right', ← and_assoc]
    rfl
  have hchar : char.isDigit = true ↔ ∃ code, 48 ≤ code ∧ code ≤ 57 ∧ char.toNat = code := by
    simp [Char.isDigit, UInt32.le_iff_toNat_le]
  rw [Bool.eq_iff_iff, hbyte, hchar]
  apply exists_congr
  intro code
  apply and_congr_right
  intro _
  apply and_congr_right
  intro hcode
  exact toNat_eq_iff (by omega) hhead

/-- The first byte of a character names the unit that the character is. -/
theorem unitRank_encode {char : Char} {byte : UInt8}
    (hhead : (String.utf8EncodeChar char).head? = some byte) :
    unitRank (some byte) = ['h', 'm', 's'].idxOf? char := by
  have hunit : ∀ {unit : Char}, unit.toNat < 128 → (byte = unit.toUInt8 ↔ unit = char) := by
    intro unit hunit
    have hcode : unit.toUInt8.toNat = unit.toNat :=
      Nat.mod_eq_of_lt (hunit.trans (by decide : 128 < 256))
    rw [← UInt8.toNat_inj, hcode, toNat_eq_iff hunit hhead, Char.toNat_inj, eq_comm]
  simp only [unitRank, hunit (show 'h'.toNat < 128 by decide),
    hunit (show 'm'.toNat < 128 by decide), hunit (show 's'.toNat < 128 by decide),
    List.idxOf?_cons, beq_iff_eq, List.idxOf?_nil]
  split_ifs <;> rfl

theorem getElem?_front {front rest : List Char} {byte : UInt8}
    (hbyte : (utf8Bytes (front ++ rest))[byteLen front]? = some byte) :
    ∃ char more, rest = char :: more ∧ (String.utf8EncodeChar char).head? = some byte := by
  cases rest with
  | nil => simp [byteLen] at hbyte
  | cons char more => exact ⟨char, more, rfl, by rw [← getElem?_utf8Bytes, hbyte]⟩

theorem byteLen_ascii {char : Char} (hascii : char.toNat < 128) (front : List Char) :
    byteLen (front ++ [char]) = byteLen front + 1 := by
  have hsize : char.utf8Size = 1 := by
    rw [Char.utf8Size_eq_one_iff, UInt32.le_iff_toNat_le]
    exact Nat.le_of_lt_succ hascii
  rw [byteLen_append, Conformance.byteLen_cons, hsize]
  rfl

theorem isDigit_ascii {char : Char} (hdigit : char.isDigit = true) : char.toNat < 128 := by
  have hlast : char.toNat ≤ 57 := by
    simpa [Char.isDigit, UInt32.le_iff_toNat_le] using (Bool.and_eq_true_iff.mp hdigit).2
  omega

/-- The digits end where the text has no further one. -/
theorem digitsEnd_eq (front : List Char) {digits tail : List Char}
    (hdigits : digits.all Char.isDigit = true) (htail : tail.head?.all (!·.isDigit) = true) :
    digitsEnd (utf8Bytes (front ++ (digits ++ tail))) (byteLen front) =
      byteLen (front ++ digits) := by
  induction digits generalizing front with
  | nil =>
      rw [digitsEnd, List.append_nil]
      split
      next hinside =>
        obtain ⟨char, more, heq, hhead⟩ := getElem?_front (List.getElem?_eq_getElem hinside)
        rw [List.nil_append] at heq
        rw [isAsciiDigit_encode hhead]
        subst heq
        rw [if_neg (by simpa using htail)]
      next => rfl
  | cons digit digits ih =>
      rw [List.all_cons, Bool.and_eq_true] at hdigits
      obtain ⟨byte, hhead⟩ := head?_encode digit
      have hbyte := (getElem?_utf8Bytes front digit (digits ++ tail)).trans hhead
      obtain ⟨hinside, hbyte⟩ := List.getElem?_eq_some_iff.mp hbyte
      have hnext := ih (front ++ [digit]) hdigits.2
      rw [byteLen_ascii (isDigit_ascii hdigits.1), List.append_assoc, List.append_assoc] at hnext
      rw [List.cons_append, digitsEnd, dif_pos hinside, hbyte, isAsciiDigit_encode hhead,
        if_pos hdigits.1]
      exact hnext

/-- The digits are cut out of the text; no end of a character is missed. -/
theorem slice_append (front digits tail : List Char) :
    slice (front ++ (digits ++ tail)) (byteLen front) (byteLen (front ++ digits)) =
      some digits := by
  have hbefore := splitAtByte_append (front ++ digits) tail
  rw [List.append_assoc] at hbefore
  simp [slice, hbefore, splitAtByte_append]

theorem parseU64_digits {digits : List Char} (hne : digits ≠ [])
    (hdigits : digits.all Char.isDigit = true) :
    parseU64 digits = if Nat.ofDigitChars 10 digits 0 < 2 ^ 64 then
      some (Nat.ofDigitChars 10 digits 0) else none := by
  have hplain : ∀ rest, digits ≠ '+' :: rest := by
    intro rest heq
    rw [heq] at hdigits
    simp at hdigits
  cases digits with
  | nil => exact absurd rfl hne
  | cons digit digits =>
      unfold parseU64
      split
      next rest heq => exact absurd heq (hplain _)
      next => simp [hdigits]

theorem unitRank_getElem? (front tail : List Char) :
    unitRank (utf8Bytes (front ++ tail))[byteLen front]? =
      tail.head?.bind (['h', 'm', 's'].idxOf? ·) := by
  cases tail with
  | nil => rw [List.append_nil, getElem?_utf8Bytes_end]; rfl
  | cons char more =>
      obtain ⟨byte, hhead⟩ := head?_encode char
      rw [getElem?_utf8Bytes, hhead]
      exact unitRank_encode hhead

/-- The scanner of the settings fails where the other one does, with its own message. -/
def asSettingsError : RunTimeError → RunTimeError
  | .message _ => .message settingsRunTimeError
  | .panicked => .panicked

/-- The loops take the same turns. -/
theorem validateGroups_eq (value : List Char) (position : Nat) (previousUnit : Option Nat) :
    validateGroups value position previousUnit =
      (parseGroups value position previousUnit).mapError asSettingsError := by
  fun_induction parseGroups value position previousUnit with
  | case1 position previousUnit hinside stop hempty =>
      rw [validateGroups, dif_pos hinside]
      simp [stop, ← hempty, Except.mapError, asSettingsError]
  | case2 position previousUnit hinside stop hne hslice =>
      rw [validateGroups, dif_pos hinside]
      simp [stop, hne, hslice, Except.mapError, asSettingsError]
  | case3 position previousUnit hinside stop hne text hslice hparse =>
      rw [validateGroups, dif_pos hinside]
      simp [stop, hne, hslice, hparse, Except.mapError, asSettingsError]
  | case4 position previousUnit hinside stop hne text hslice hparse =>
      rw [validateGroups, dif_pos hinside]
      simp [stop, hne, hslice, hparse, Except.mapError, asSettingsError]
  | case5 position previousUnit hinside stop hne text hslice amount hparse hzero hunit =>
      rw [validateGroups, dif_pos hinside]
      simp [stop, hne, hslice, hparse, hzero, hunit, Except.mapError, asSettingsError]
  | case6 position previousUnit hinside stop hne text hslice amount hparse hzero unit hunit
      hlater =>
      rw [validateGroups, dif_pos hinside]
      simp [stop, hne, hslice, hparse, hzero, hunit, hlater, Except.mapError, asSettingsError]
  | case7 position previousUnit hinside stop hne text hslice amount hparse hzero unit hunit hlater
      ih =>
      rw [validateGroups, dif_pos hinside]
      simp [stop, hne, hslice, hparse, hzero, hunit, hlater, ih]
  | case8 position previousUnit hinside =>
      rw [validateGroups, dif_neg hinside]
      rfl

/-- The units that may follow the previous one. -/
def laterUnits (previousUnit : Option Nat) : List Char :=
  ['h', 'm', 's'].drop (previousUnit.elim 0 (· + 1))

theorem isDigit_laterUnits {previousUnit : Option Nat} :
    ∀ unit ∈ laterUnits previousUnit, unit.isDigit = false := by
  intro unit hunit
  have hall : ∀ unit ∈ ['h', 'm', 's'], unit.isDigit = false := by decide
  exact hall unit (List.mem_of_mem_drop hunit)

/-- The place of a unit among the later ones, by its rank. -/
theorem getElem?_laterUnits {previousUnit : Option Nat} {index : Nat} {char : Char} :
    (laterUnits previousUnit)[index]? = some char ↔
      ['h', 'm', 's'].idxOf? char = some (previousUnit.elim 0 (· + 1) + index) := by
  rw [laterUnits, List.getElem?_drop, List.idxOf?_eq_some_iff]
  constructor
  · intro hget
    obtain ⟨hlt, hchar⟩ := List.getElem?_eq_some_iff.mp hget
    refine ⟨hlt, hchar, ?_⟩
    intro earlier hearlier heq
    have hnodup : ['h', 'm', 's'].Nodup := by decide
    exact hearlier.ne ((hnodup.getElem_inj_iff).mp (heq.trans hchar.symm))
  · intro hfirst
    obtain ⟨hlt, hchar, -⟩ := hfirst
    exact List.getElem?_eq_some_iff.mpr ⟨hlt, hchar⟩

theorem drop_laterUnits (previousUnit : Option Nat) (index : Nat) :
    (laterUnits previousUnit).drop (index + 1) =
      laterUnits (some (previousUnit.elim 0 (· + 1) + index)) := by
  rw [laterUnits, laterUnits, List.drop_drop]
  rfl

/-- A turn of the loop of the command line at digits and what follows them. -/
theorem parseGroups_turn (front : List Char) {digits tail : List Char} (hne : digits ≠ [])
    (hdigits : digits.all Char.isDigit = true) (htail : tail.head?.all (!·.isDigit) = true)
    (previousUnit : Option Nat) :
    parseGroups (front ++ (digits ++ tail)) (byteLen front) previousUnit =
      if Nat.ofDigitChars 10 digits 0 = 0 ∨ 2 ^ 64 ≤ Nat.ofDigitChars 10 digits 0 then
        .error (.message cliRunTimeError)
      else match tail.head?.bind (['h', 'm', 's'].idxOf? ·) with
        | none => .error (.message cliRunTimeError)
        | some unit =>
            if previousUnit.any (unit ≤ ·) then .error (.message cliRunTimeError)
            else parseGroups (front ++ (digits ++ tail)) (byteLen (front ++ digits) + 1)
              (some unit) := by
  have hcount : 0 < byteLen digits := by
    cases digits with
    | nil => exact absurd rfl hne
    | cons digit digits =>
        rw [Conformance.byteLen_cons]
        exact Nat.add_pos_left digit.utf8Size_pos _
  have hlonger : byteLen front < byteLen (front ++ digits) := by
    rw [byteLen_append]
    omega
  have hinside : byteLen front < (utf8Bytes (front ++ (digits ++ tail))).length := by
    change _ < byteLen _
    rw [byteLen_append, byteLen_append]
    omega
  have hunit := unitRank_getElem? (front ++ digits) tail
  rw [List.append_assoc] at hunit
  conv_lhs => rw [parseGroups]
  rw [dif_pos hinside]
  simp only [digitsEnd_eq front hdigits htail, if_neg hlonger.ne, slice_append,
    parseU64_digits hne hdigits, hunit]
  by_cases hfits : Nat.ofDigitChars 10 digits 0 < 2 ^ 64
  · simp only [if_pos hfits, Nat.not_le.mpr hfits, or_false]
  · simp only [if_neg hfits, Nat.not_lt.mp hfits, or_true, if_true]

/-- What a turn does to the grammar: a sequence goes on after a unit that was not used. -/
theorem isSequence_turn {digits more : List Char} {char : Char} {unit : Nat}
    {previousUnit : Option Nat} (hne : digits ≠ []) (hdigits : digits.all Char.isDigit = true)
    (hchar : char.isDigit = false) (hunit : ['h', 'm', 's'].idxOf? char = some unit) :
    IsSequence (laterUnits previousUnit) (digits ++ char :: more) ↔
      previousUnit.any (unit ≤ ·) = false ∧ IsGroup char (digits ++ [char]) ∧
        IsSequence (laterUnits (some unit)) more := by
  rw [isSequence_digits isDigit_laterUnits hne hdigits (by simpa using hchar)]
  have hlater : previousUnit.any (unit ≤ ·) = false ↔ previousUnit.elim 0 (· + 1) ≤ unit := by
    cases previousUnit with
    | none => simp
    | some previous =>
        rw [Option.any_some, decide_eq_false_iff_not, Nat.not_le]
        exact Iff.rfl
  rw [hlater]
  constructor
  · intro hsplit
    obtain ⟨index, other, rest, hindex, heq, hgroup, hsequence⟩ := hsplit
    obtain ⟨rfl, rfl⟩ := List.cons_eq_cons.mp heq
    rw [getElem?_laterUnits, hunit, Option.some.injEq] at hindex
    rw [drop_laterUnits, ← hindex] at hsequence
    exact ⟨by omega, hgroup, hsequence⟩
  · intro hparts
    obtain ⟨hle, hgroup, hsequence⟩ := hparts
    have hindex : previousUnit.elim 0 (· + 1) + (unit - previousUnit.elim 0 (· + 1)) = unit := by
      omega
    refine ⟨unit - previousUnit.elim 0 (· + 1), char, more, ?_, rfl, hgroup, ?_⟩
    · rw [getElem?_laterUnits, hindex, hunit]
    · rwa [drop_laterUnits, hindex]

theorem toNat_lt_of_unit {char : Char} {unit : Nat}
    (hunit : ['h', 'm', 's'].idxOf? char = some unit) : char.toNat < 128 := by
  have hall : ∀ unit ∈ ['h', 'm', 's'], unit.toNat < 128 := by decide
  apply hall
  by_contra hmem
  rw [List.idxOf?_eq_none_iff.mpr hmem] at hunit
  exact absurd hunit (Option.some_ne_none _).symm

/-- The loop of the command line accepts what is a sequence of the later units, and
refuses everything else with its message. -/
theorem parseGroups_iff (front rest : List Char) (previousUnit : Option Nat) :
    (parseGroups (front ++ rest) (byteLen front) previousUnit = .ok () ∧
        IsSequence (laterUnits previousUnit) rest) ∨
      (parseGroups (front ++ rest) (byteLen front) previousUnit =
          .error (.message cliRunTimeError) ∧
        ¬ IsSequence (laterUnits previousUnit) rest) := by
  induction hlength : rest.length using Nat.strong_induction_on
    generalizing front rest previousUnit with
  | _ length ih =>
      obtain ⟨digits, tail, rfl, hdigits, htail⟩ := exists_digits rest
      by_cases hne : digits = []
      · subst hne
        cases tail with
        | nil =>
            left
            have houtside : ¬ byteLen front < (utf8Bytes front).length := Nat.lt_irrefl _
            rw [List.nil_append, List.append_nil, parseGroups, dif_neg houtside]
            exact ⟨rfl, isSequence_nil _⟩
        | cons char more =>
            -- The loop finds no digit, and no group begins here.
            right
            obtain ⟨byte, hhead⟩ := head?_encode char
            have hbyte := (getElem?_utf8Bytes front char more).trans hhead
            obtain ⟨hinside, -⟩ := List.getElem?_eq_some_iff.mp hbyte
            have hstop := digitsEnd_eq front hdigits htail
            rw [List.append_nil] at hstop
            rw [List.nil_append] at hstop ⊢
            constructor
            · rw [parseGroups, dif_pos hinside]
              simp only [hstop, if_true]
            · intro hsequence
              have hdigit := hsequence.head
              simp [hdigit] at htail
      · rw [parseGroups_turn front hne hdigits htail]
        split
        next hcount =>
          right
          refine ⟨rfl, ?_⟩
          intro hsequence
          obtain ⟨_, _, _, _, _, hgroup, _⟩ :=
            (isSequence_digits isDigit_laterUnits hne hdigits htail).mp hsequence
          exact (isGroup_digits hne hdigits).mp hgroup hcount
        next hcount =>
          cases tail with
          | nil =>
              right
              refine ⟨rfl, ?_⟩
              intro hsequence
              obtain ⟨_, _, _, _, heq, _⟩ :=
                (isSequence_digits isDigit_laterUnits hne hdigits htail).mp hsequence
              exact absurd heq (List.cons_ne_nil _ _).symm
          | cons char more =>
              have hchar : char.isDigit = false := by simpa using htail
              rw [List.head?_cons, Option.bind_some]
              cases hunit : ['h', 'm', 's'].idxOf? char with
              | none =>
                  right
                  refine ⟨rfl, ?_⟩
                  intro hsequence
                  obtain ⟨index, unit, rest, hindex, heq, -⟩ :=
                    (isSequence_digits isDigit_laterUnits hne hdigits htail).mp hsequence
                  obtain ⟨rfl, rfl⟩ := List.cons_eq_cons.mp heq
                  rw [getElem?_laterUnits, hunit] at hindex
                  exact absurd hindex (Option.some_ne_none _).symm
              | some unit =>
                  rw [isSequence_turn hne hdigits hchar hunit, isGroup_digits hne hdigits]
                  have hascii := toNat_lt_of_unit hunit
                  have hnext := ih more.length (by simp at hlength; omega)
                    (front ++ digits ++ [char]) more (some unit) rfl
                  rw [byteLen_ascii hascii] at hnext
                  dsimp only
                  cases hlater : previousUnit.any (unit ≤ ·) with
                  | true => right; simp
                  | false =>
                      simp only [hcount, not_false_eq_true, true_and]
                      simpa using hnext

theorem utf8Bytes_eq_nil {text : List Char} : utf8Bytes text = [] ↔ text = [] := by
  constructor
  · intro hempty
    cases text with
    | nil => rfl
    | cons char text =>
        obtain ⟨byte, hhead⟩ := head?_encode char
        obtain ⟨bytes, hbytes⟩ := List.head?_eq_some_iff.mp hhead
        simp [utf8Bytes, hbytes] at hempty
  · intro hempty
    rw [hempty]
    rfl

/-- What the command line accepts, and its only error. -/
theorem parseRunTime_cases (value : String) :
    (parseRunTime value = .ok value ∧ IsRunTime value.toList) ∨
      (parseRunTime value = .error (.message cliRunTimeError) ∧ ¬ IsRunTime value.toList) := by
  by_cases hempty : value.toList = []
  · right
    constructor
    · rw [parseRunTime, if_pos (utf8Bytes_eq_nil.mpr hempty)]
      rfl
    · intro hvalue
      exact hvalue.1 hempty
  · have hloop := parseGroups_iff [] value.toList none
    rw [List.nil_append] at hloop
    have hrun : parseRunTime value =
        (parseGroups value.toList 0 none).map fun _ => value := by
      rw [parseRunTime, if_neg (mt utf8Bytes_eq_nil.mp hempty)]
      cases parseGroups value.toList 0 none <;> rfl
    rw [hrun]
    rcases hloop with ⟨hloop, hsequence⟩ | ⟨hloop, hsequence⟩
    · left
      exact ⟨congrArg (Except.map _) hloop, hempty, hsequence⟩
    · right
      exact ⟨congrArg (Except.map _) hloop, fun hvalue => hsequence hvalue.2⟩

/-- The settings accept and refuse what the command line does. -/
theorem validateLocustRunTime_eq (value : String) :
    validateLocustRunTime value =
      ((parseRunTime value).map fun _ => ()).mapError asSettingsError := by
  rw [validateLocustRunTime, parseRunTime]
  split
  · rfl
  · rw [validateGroups_eq]
    cases parseGroups value.toList 0 none <;> rfl

/-- Both scanners accept the sequences of hours, minutes and seconds in this order, each
at most once, with a positive count of 64 bits, and refuse everything else without a
panic. -/
theorem run_times_agree (value : String) :
    parseRunTime value ≠ .error .panicked ∧ validateLocustRunTime value ≠ .error .panicked ∧
      (parseRunTime value = .ok value ↔ IsRunTime value.toList) ∧
      (validateLocustRunTime value = .ok () ↔ IsRunTime value.toList) ∧
      ((∃ accepted, parseRunTime value = .ok accepted) ↔ validateLocustRunTime value = .ok ()) := by
  rw [validateLocustRunTime_eq]
  rcases parseRunTime_cases value with ⟨hparse, hvalue⟩ | ⟨hparse, hvalue⟩
  · simp [hparse, hvalue, Except.map, Except.mapError]
  · simp [hparse, hvalue, Except.map, Except.mapError, asSettingsError]

example : IsRunTime "2h30m".toList := by
  refine ⟨by decide, "2h".toList, "30m".toList, by decide, Or.inr ⟨['2'], ?_⟩,
    "30m".toList, [], by decide, Or.inr ⟨['3', '0'], ?_⟩, isSequence_nil _⟩
  all_goals decide

end CfIntegration.Performance
