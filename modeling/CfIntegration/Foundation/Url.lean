import Mathlib.Data.List.Basic
import Mathlib.Data.List.DropRight
import Mathlib.Tactic.IntervalCases
import CfIntegration.Foundation.Text

/-! # Percent-encoding and URL paths

Texts encoded into the segments of a URL path, and the operations by which a path
is changed a segment at a time. A URL is the text before its path, as it is
serialised, with what can be read off it, its path, its query and its fragment.
-/

namespace CfIntegration

def utf8 (text : List Char) : List UInt8 := text.flatMap String.utf8EncodeChar

/-- A text is determined by its bytes. -/
theorem utf8_injective : Function.Injective utf8 := by
  intro first second hbytes
  have hencode : first.utf8Encode = second.utf8Encode := congrArg List.toByteArray hbytes
  have hdecode := congrArg ByteArray.utf8Decode? hencode
  rw [List.utf8Decode?_utf8Encode, List.utf8Decode?_utf8Encode, Option.some.injEq] at hdecode
  simpa using congrArg Array.toList hdecode

theorem utf8_ne_nil {text : List Char} (htext : text ≠ []) : utf8 text ≠ [] := fun hbytes =>
  htext (utf8_injective hbytes)

/-- The ASCII characters that are encoded in a path segment: separators and the
percent sign are among them, letters, digits and dots are not. -/
structure SegmentSet where
  encodes : Char → Bool
  percent : encodes '%' = true
  slash : encodes '/' = true
  dot : encodes '.' = false
  alphanumeric : ∀ char : Char, char.isAlphanum → encodes char = false

def hexDigit (digit : Nat) : Char := Char.ofNat (if digit < 10 then 0x30 + digit else 0x37 + digit)

def hexValue (char : Char) : Option Nat :=
  if '0' ≤ char ∧ char ≤ '9' then some (char.toNat - 0x30)
  else if 'A' ≤ char ∧ char ≤ 'F' then some (char.toNat - 0x37)
  else if 'a' ≤ char ∧ char ≤ 'f' then some (char.toNat - 0x57)
  else none

def percentByte (byte : UInt8) : List Char :=
  ['%', hexDigit (byte.toNat / 16), hexDigit (byte.toNat % 16)]

def encodeChar (set : SegmentSet) (char : Char) : List Char :=
  if char.toNat < 0x80 ∧ set.encodes char = false then [char]
  else (String.utf8EncodeChar char).flatMap percentByte

def percentEncode (set : SegmentSet) (text : List Char) : List Char := text.flatMap (encodeChar set)

/-- A percent sign without two hexadecimal digits stands for itself. -/
def percentDecode : List Char → List UInt8
  | '%' :: high :: low :: rest =>
      match hexValue high, hexValue low with
      | some high, some low => UInt8.ofNat (16 * high + low) :: percentDecode rest
      | _, _ => 0x25 :: percentDecode (high :: low :: rest)
  | char :: rest => String.utf8EncodeChar char ++ percentDecode rest
  | [] => []

theorem hexValue_hexDigit {digit : Nat} (hdigit : digit < 16) :
    hexValue (hexDigit digit) = some digit := by
  interval_cases digit <;> rfl

theorem hexDigit_ne_slash {digit : Nat} (hdigit : digit < 16) : hexDigit digit ≠ '/' := by
  interval_cases digit <;> decide

/-- An encoded byte is decoded to itself. -/
theorem percentDecode_percentByte (byte : UInt8) (rest : List Char) :
    percentDecode (percentByte byte ++ rest) = byte :: percentDecode rest := by
  have hbyte : byte.toNat < 256 := byte.toNat_lt
  rw [percentByte, List.cons_append, List.cons_append, List.cons_append, List.nil_append,
    percentDecode, hexValue_hexDigit (by omega), hexValue_hexDigit (by omega)]
  simp only
  rw [Nat.div_add_mod, UInt8.ofNat_toNat]

theorem percentDecode_flatMap (bytes : List UInt8) (rest : List Char) :
    percentDecode (bytes.flatMap percentByte ++ rest) = bytes ++ percentDecode rest := by
  induction bytes with
  | nil => rfl
  | cons byte others ih =>
      rw [List.flatMap_cons, List.append_assoc, percentDecode_percentByte, ih, List.cons_append]

/-- An encoded character is decoded to its bytes. -/
theorem percentDecode_encodeChar (set : SegmentSet) (char : Char) (rest : List Char) :
    percentDecode (encodeChar set char ++ rest) =
      String.utf8EncodeChar char ++ percentDecode rest := by
  unfold encodeChar
  split
  next hkept =>
    have hpercent : char ≠ '%' := by
      rintro rfl
      rw [set.percent] at hkept
      exact absurd hkept.2 (by decide)
    rw [List.singleton_append, percentDecode]
    rintro _ _ _ rfl
    exact absurd rfl hpercent
  · exact percentDecode_flatMap _ _

/-- A decoder gets back what was encoded. -/
theorem percentDecode_percentEncode (set : SegmentSet) (text : List Char) :
    percentDecode (percentEncode set text) = utf8 text := by
  induction text with
  | nil => rw [percentEncode, List.flatMap_nil, percentDecode]; rfl
  | cons char rest ih =>
      have hcons : percentEncode set (char :: rest) =
          encodeChar set char ++ percentEncode set rest := List.flatMap_cons
      rw [hcons, percentDecode_encodeChar, ih]
      exact List.flatMap_cons.symm

theorem percentEncode_ne_nil (set : SegmentSet) {text : List Char} (htext : text ≠ []) :
    percentEncode set text ≠ [] := fun hempty => by
  have hdecode := percentDecode_percentEncode set text
  rw [hempty] at hdecode
  exact utf8_ne_nil htext hdecode.symm

/-- An encoded segment has no slash. -/
theorem slash_notMem_percentEncode (set : SegmentSet) (text : List Char) :
    '/' ∉ percentEncode set text := by
  intro hslash
  obtain ⟨char, -, hchar⟩ := List.mem_flatMap.mp hslash
  unfold encodeChar at hchar
  split at hchar
  next hkept =>
    rw [List.mem_singleton] at hchar
    rw [← hchar, set.slash] at hkept
    exact absurd hkept.2 (by decide)
  next =>
    obtain ⟨byte, -, hbyte⟩ := List.mem_flatMap.mp hchar
    have hlt : byte.toNat < 256 := byte.toNat_lt
    simp only [percentByte, List.mem_cons, List.not_mem_nil, or_false] at hbyte
    rcases hbyte with hpercent | hhigh | hlow
    · exact absurd hpercent (by decide)
    · exact hexDigit_ne_slash (by omega) hhigh.symm
    · exact hexDigit_ne_slash (by omega) hlow.symm

def isTabOrNewline (char : Char) : Bool := char ∈ ['\t', '\n', '\r']

def isSingleDot (segment : List Char) : Bool :=
  segment ∈ [".".toList, "%2e".toList, "%2E".toList]

def isDoubleDot (segment : List Char) : Bool :=
  segment ∈ ["..".toList, "%2e%2e".toList, "%2e%2E".toList, "%2E%2e".toList, "%2E%2E".toList,
    "%2e.".toList, "%2E.".toList, ".%2e".toList, ".%2E".toList]

def isDriveLetter : List Char → Bool
  | [letter, colon] => letter.isAlpha && (colon == ':' || colon == '|')
  | _ => false

/-- A path that ends in a slash, without its last segment. The root keeps its slash, and
a drive letter stays. -/
def shortenPath (path : List Char) : List Char :=
  if '/' ∈ path.dropLast ∧ ¬ isDriveLetter (path.dropLast.rtakeWhile (· ≠ '/')) then
    path.dropLast.rdropWhile (· ≠ '/')
  else path

/-- Where the next segment of a path begins: after a slash, the root's or a further one. -/
def startSegment (path : List Char) : List Char :=
  if path.length = 1 then path else path ++ ['/']

/-- Append a segment. Single and double dots are skipped; tabs and newlines are left out, and
what then reads as dots counts as dots in a path. -/
def pushSegment (set : SegmentSet) (path segment : List Char) : List Char :=
  if segment = ".".toList ∨ segment = "..".toList then path
  else
    let start := startSegment path
    let encoded := percentEncode set (segment.filter fun char => !isTabOrNewline char)
    if isDoubleDot encoded then shortenPath start
    else if isSingleDot encoded then start
    else start ++ encoded

/-- A trailing slash is removed, the root's excepted. -/
def popIfEmpty (path : List Char) : List Char :=
  if path.length ≤ 1 then path else if path.getLast? = some '/' then path.dropLast else path

theorem encodeChar_of_isAlphanum (set : SegmentSet) {char : Char} (hchar : char.isAlphanum) :
    encodeChar set char = [char] := by
  refine if_pos ⟨?_, set.alphanumeric char hchar⟩
  have hcode := Text.isAlphanum_code hchar
  change char.toNat < 0x80
  omega

/-- Letters and digits are not encoded. -/
theorem percentEncode_of_isAlphanum (set : SegmentSet) {text : List Char}
    (htext : ∀ char ∈ text, char.isAlphanum) : percentEncode set text = text := by
  induction text with
  | nil => rfl
  | cons char rest ih =>
      rw [List.forall_mem_cons] at htext
      have hcons : percentEncode set (char :: rest) =
          encodeChar set char ++ percentEncode set rest := List.flatMap_cons
      rw [hcons, encodeChar_of_isAlphanum set htext.1, ih htext.2, List.singleton_append]

/-- What counts as a single dot is decoded to one. -/
theorem percentDecode_of_singleDot {segment : List Char} (hdot : isSingleDot segment) :
    percentDecode segment = utf8 ".".toList := by
  simp only [isSingleDot, List.mem_cons, List.not_mem_nil, or_false, decide_eq_true_eq] at hdot
  rcases hdot with rfl | rfl | rfl <;> decide

/-- What counts as two dots is decoded to them. -/
theorem percentDecode_of_doubleDot {segment : List Char} (hdot : isDoubleDot segment) :
    percentDecode segment = utf8 "..".toList := by
  simp only [isDoubleDot, List.mem_cons, List.not_mem_nil, or_false, decide_eq_true_eq] at hdot
  rcases hdot with rfl | rfl | rfl | rfl | rfl | rfl | rfl | rfl | rfl <;> decide

/-- A segment that a path keeps as it is, but for its encoding. -/
structure PlainSegment (segment : List Char) : Prop where
  singleDot : segment ≠ ".".toList
  doubleDot : segment ≠ "..".toList
  noTabOrNewline : ∀ char ∈ segment, isTabOrNewline char = false

/-- A plain segment is pushed encoded, after a slash. -/
theorem pushSegment_of_plain (set : SegmentSet) (path : List Char) {segment : List Char}
    (hplain : PlainSegment segment) :
    pushSegment set path segment = startSegment path ++ percentEncode set segment := by
  have hkept : (segment.filter fun char => !isTabOrNewline char) = segment :=
    List.filter_eq_self.mpr fun char hchar => by rw [hplain.noTabOrNewline char hchar]; rfl
  have hdecode := percentDecode_percentEncode set segment
  have hdouble : ¬ isDoubleDot (percentEncode set segment) := fun hdot =>
    hplain.doubleDot (utf8_injective (hdecode.symm.trans (percentDecode_of_doubleDot hdot)))
  have hsingle : ¬ isSingleDot (percentEncode set segment) := fun hdot =>
    hplain.singleDot (utf8_injective (hdecode.symm.trans (percentDecode_of_singleDot hdot)))
  unfold pushSegment
  rw [if_neg (not_or.mpr ⟨hplain.singleDot, hplain.doubleDot⟩)]
  simp only [hkept, if_neg hdouble, if_neg hsingle]

/-- A plain segment of letters and digits is appended as it is. -/
theorem pushSegment_of_isAlphanum (set : SegmentSet) (path : List Char) {segment : List Char}
    (hplain : PlainSegment segment) (hsegment : ∀ char ∈ segment, char.isAlphanum) :
    pushSegment set path segment = startSegment path ++ segment := by
  rw [pushSegment_of_plain set path hplain, percentEncode_of_isAlphanum set hsegment]

theorem startSegment_ne_nil (path : List Char) : startSegment path ≠ [] := by
  unfold startSegment
  split
  next hlength => exact List.ne_nil_of_length_pos (by omega)
  next => simp

structure Url where
  /-- The text before the path. -/
  before : List Char
  scheme : String
  username : String
  password : Option String
  hasHost : Bool
  cannotBeABase : Bool
  path : List Char
  query : Option (List Char)
  fragment : Option (List Char)

namespace Url

def asStr (url : Url) : List Char :=
  url.before ++ url.path ++ (url.query.elim [] ('?' :: ·)) ++ (url.fragment.elim [] ('#' :: ·))

def pathSegments (url : Url) : Option (List (List Char)) :=
  match url.path with
  | '/' :: rest => some (rest.splitOn '/')
  | _ => none

end Url

/-- A URL parser. The path of an HTTP URL starts with a slash. -/
structure UrlParser where
  parse : List Char → Option Url
  rooted : ∀ text url, parse text = some url → url.scheme = "http" ∨ url.scheme = "https" →
    ∃ rest, url.path = '/' :: rest

end CfIntegration
