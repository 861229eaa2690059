import Mathlib.Data.List.Basic
import Mathlib.Tactic.Common
import Mathlib.Tactic.IntervalCases

/-! # JSON strings

How a JSON writer quotes a text. A quoted text can be read back from the front of
whatever it is part of.
-/

namespace CfIntegration.JsonString

/-- The characters with a short escape. -/
def shortEscapes : List (Char × Char) :=
  [('"', '"'), ('\\', '\\'), ('\x08', 'b'), ('\x0c', 'f'), ('\n', 'n'), ('\r', 'r'), ('\t', 't')]

def writeChar (char : Char) : List Char :=
  match shortEscapes.lookup char with
  | some short => ['\\', short]
  | none =>
      if char.toNat < 0x20 then
        ['\\', 'u', '0', '0', Nat.digitChar (char.toNat / 16), Nat.digitChar (char.toNat % 16)]
      else [char]

def writeString (text : List Char) : List Char := '"' :: (text.flatMap writeChar ++ ['"'])

def hexValue (digit : Char) : Nat :=
  if digit.isDigit then digit.toNat - 48 else digit.toNat - 87

/-- The first character of a quoted text, and the rest. -/
def readChar : List Char → Option (Char × List Char)
  | '\\' :: 'u' :: _ :: _ :: high :: low :: rest =>
      some (Char.ofNat (16 * hexValue high + hexValue low), rest)
  | '\\' :: short :: rest =>
      ((shortEscapes.find? fun escape => escape.2 = short).map fun escape => (escape.1, rest))
  | char :: rest => some (char, rest)
  | [] => none

/-- The escape of a control character is read as the character. -/
theorem readChar_control {code : Nat} (hcode : code < 0x20) (rest : List Char) :
    readChar (['\\', 'u', '0', '0', Nat.digitChar (code / 16), Nat.digitChar (code % 16)] ++ rest) =
      some (Char.ofNat code, rest) := by
  interval_cases code <;> rfl

/-- A short escape is read as its character. -/
theorem readChar_short {char short : Char} (hescape : (char, short) ∈ shortEscapes)
    (rest : List Char) : readChar ('\\' :: short :: rest) = some (char, rest) := by
  simp only [shortEscapes, List.mem_cons, Prod.mk.injEq, List.not_mem_nil, or_false] at hescape
  rcases hescape with ⟨rfl, rfl⟩ | ⟨rfl, rfl⟩ | ⟨rfl, rfl⟩ | ⟨rfl, rfl⟩ | ⟨rfl, rfl⟩ | ⟨rfl, rfl⟩ |
    ⟨rfl, rfl⟩ <;> rfl

theorem readChar_plain {char : Char} (hchar : char ≠ '\\') (rest : List Char) :
    readChar (char :: rest) = some (char, rest) := by
  rw [readChar]
  · intro _ _ _ _ _ hescape _
    exact hchar hescape
  · intro _ _ hescape _
    exact hchar hescape

/-- A character that was written is read back. -/
theorem readChar_writeChar (char : Char) (rest : List Char) :
    readChar (writeChar char ++ rest) = some (char, rest) := by
  rw [writeChar]
  split
  · next short hshort =>
    obtain ⟨before, after, hescapes, -⟩ := List.lookup_eq_some_iff.mp hshort
    refine readChar_short ?_ rest
    rw [hescapes]
    exact List.mem_append_cons_self
  · next hlookup =>
    split
    · next hcontrol => rw [readChar_control hcontrol, Char.ofNat_toNat]
    · refine readChar_plain (fun hchar => ?_) rest
      subst hchar
      cases hlookup

/-- What is written of a character tells it apart and where it ends. -/
theorem writeChar_append_inj {first second : Char} {front back : List Char}
    (heq : writeChar first ++ front = writeChar second ++ back) :
    first = second ∧ front = back := by
  have hread := congrArg readChar heq
  rw [readChar_writeChar, readChar_writeChar, Option.some.injEq, Prod.mk.injEq] at hread
  exact hread

/-- No escape starts as the closing quote does. -/
theorem quote_ne_writeChar {char : Char} {front back : List Char} :
    '"' :: front ≠ writeChar char ++ back := by
  intro heq
  have hread := congrArg readChar heq
  rw [readChar_plain (by decide), readChar_writeChar, Option.some.injEq, Prod.mk.injEq] at hread
  obtain ⟨rfl, -⟩ := hread
  exact absurd (List.cons.inj heq).1 (by decide)

/-- What is written of a string tells it apart and where it ends. -/
theorem writeString_append_inj {first second front back : List Char}
    (heq : writeString first ++ front = writeString second ++ back) :
    first = second ∧ front = back := by
  simp only [writeString, List.cons_append, List.append_assoc, List.cons.injEq, true_and] at heq
  induction first generalizing second with
  | nil =>
      cases second with
      | nil => exact ⟨rfl, by simpa using heq⟩
      | cons char rest =>
          rw [List.flatMap_cons, List.append_assoc] at heq
          exact absurd heq quote_ne_writeChar
  | cons head tail ih =>
      cases second with
      | nil =>
          rw [List.flatMap_cons, List.append_assoc] at heq
          exact absurd heq.symm quote_ne_writeChar
      | cons char rest =>
          simp only [List.flatMap_cons, List.append_assoc] at heq
          obtain ⟨rfl, htail⟩ := writeChar_append_inj heq
          obtain ⟨rfl, rfl⟩ := ih htail
          exact ⟨rfl, rfl⟩

end CfIntegration.JsonString
