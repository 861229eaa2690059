import Mathlib.Data.List.Basic

/-! # Extended regular expressions

POSIX extended syntax. A text is cut into tokens, and the tokens are read with a stack of
the groups that are open. What POSIX leaves undefined, a backslash before an ordinary
character or a repetition of nothing, is refused, and so are classes inside brackets.
-/

namespace CfIntegration.ExtendedRegex

/-- The characters that one position accepts. -/
inductive CharSet where
  | literal (char : Char)
  | any
  | bracket (negated : Bool) (ranges : List (Char × Char))
  deriving DecidableEq

def CharSet.contains : CharSet → Char → Bool
  | .literal char, other => char = other
  | .any, _ => true
  | .bracket negated ranges, other =>
      negated != ranges.any fun (low, high) => low ≤ other && other ≤ high

inductive Regex where
  | empty
  | lineStart
  | lineEnd
  | one (set : CharSet)
  | seq (first second : Regex)
  | alt (first second : Regex)
  | repeated (regex : Regex) (least : Nat) (most : Option Nat)

/-- A text is cut into so many pieces that match one after the other. -/
def Times (piece : List Char → List Char → List Char → Prop) :
    Nat → List Char → List Char → List Char → Prop
  | 0, _, matched, _ => matched = []
  | count + 1, before, matched, after => ∃ first rest, matched = first ++ rest ∧
      piece before first (rest ++ after) ∧ Times piece count (before ++ first) rest after

/-- An expression matches a text that stands between two others. -/
def Regex.Matches : Regex → List Char → List Char → List Char → Prop
  | .empty, _, matched, _ => matched = []
  | .lineStart, before, matched, _ => before = [] ∧ matched = []
  | .lineEnd, _, matched, after => matched = [] ∧ after = []
  | .one set, _, matched, _ => ∃ char, matched = [char] ∧ set.contains char = true
  | .seq first second, before, matched, after => ∃ front back, matched = front ++ back ∧
      first.Matches before front (back ++ after) ∧ second.Matches (before ++ front) back after
  | .alt first second, before, matched, after =>
      first.Matches before matched after ∨ second.Matches before matched after
  | .repeated regex least most, before, matched, after => ∃ count, least ≤ count ∧
      most.all (count ≤ ·) = true ∧ Times regex.Matches count before matched after

/-- An expression matches somewhere in a text. -/
def Regex.Found (regex : Regex) (text : List Char) : Prop :=
  ∃ before matched after, text = before ++ matched ++ after ∧ regex.Matches before matched after

inductive Token where
  | set (set : CharSet)
  | lineStart
  | lineEnd
  | openGroup
  | closeGroup
  | alternation
  | repetition (least : Nat) (most : Option Nat)
  deriving DecidableEq

/-- The characters that do not stand for themselves. -/
def metacharacters : List Char :=
  ['.', '^', '$', '*', '+', '?', '(', ')', '[', '\x7b', '|', '\\']

/-- The characters that stand for themselves after a backslash. -/
def quotable : List Char := metacharacters ++ [']', '\x7d']

/-- What a character stands for that begins nothing longer. -/
def plainToken (char : Char) : Token :=
  if char = '.' then .set .any
  else if char = '^' then .lineStart
  else if char = '$' then .lineEnd
  else if char = '*' then .repetition 0 none
  else if char = '+' then .repetition 1 none
  else if char = '?' then .repetition 0 (some 1)
  else if char = '(' then .openGroup
  else if char = ')' then .closeGroup
  else if char = '|' then .alternation
  else .set (.literal char)

def bracketRanges : List Char → Option (List (Char × Char))
  | [] => some []
  | '[' :: _ => none
  | low :: '-' :: high :: rest =>
      if low ≤ high then (bracketRanges rest).map ((low, high) :: ·) else none
  | char :: rest => (bracketRanges rest).map ((char, char) :: ·)

def bracketSet : List Char → Option CharSet
  | '^' :: rest => (bracketRanges rest).map (.bracket true)
  | text => (bracketRanges text).map (.bracket false)

def number (digits : List Char) : Option Nat :=
  if digits ≠ [] ∧ digits.all Char.isDigit ∧ Nat.ofDigitChars 10 digits 0 ≤ 255 then
    some (Nat.ofDigitChars 10 digits 0)
  else none

/-- The text between braces. -/
def bounds (text : List Char) : Option (Nat × Option Nat) :=
  match text.splitOn ',' with
  | [exactly] => (number exactly).map fun count => (count, some count)
  | [least, []] => (number least).map fun least => (least, none)
  | [least, most] => do
      let least ← number least
      let most ← number most
      if least ≤ most then some (least, some most) else none
  | _ => none

/-- What the characters read so far have begun. -/
inductive Mode where
  | plain
  | escaped
  | bracket (taken : List Char)
  | bound (taken : List Char)

def tokens : Mode → List Char → Option (List Token)
  | .plain, [] => some []
  | _, [] => none
  | .plain, char :: rest =>
      if char = '\\' then tokens .escaped rest
      else if char = '[' then tokens (.bracket []) rest
      else if char = '\x7b' then tokens (.bound []) rest
      else (tokens .plain rest).map (plainToken char :: ·)
  | .escaped, char :: rest =>
      if char ∈ quotable then (tokens .plain rest).map (.set (.literal char) :: ·) else none
  | .bracket taken, char :: rest =>
      -- A bracket that comes first is one of the characters in the brackets.
      if char = ']' ∧ taken ≠ [] ∧ taken ≠ ['^'] then do
        let set ← bracketSet taken
        (tokens .plain rest).map (.set set :: ·)
      else tokens (.bracket (taken ++ [char])) rest
  | .bound taken, char :: rest =>
      if char = '\x7d' then do
        let (least, most) ← bounds taken
        (tokens .plain rest).map (.repetition least most :: ·)
      else tokens (.bound (taken ++ [char])) rest

/-- The branches of a group that are read and the pieces of the current one, last first. -/
structure Level where
  branches : List Regex
  pieces : List Regex

def Level.branch (level : Level) : Regex :=
  level.pieces.foldl (fun regex piece => .seq piece regex) .empty

def Level.regex (level : Level) : Regex :=
  level.branches.foldl (fun regex branch => .alt branch regex) level.branch

def Level.push (level : Level) (piece : Regex) : Level :=
  { level with pieces := piece :: level.pieces }

def read : List Level → Level → List Token → Option Regex
  | [], level, [] => some level.regex
  | _ :: _, _, [] => none
  | outer, level, .set set :: rest => read outer (level.push (.one set)) rest
  | outer, level, .lineStart :: rest => read outer (level.push .lineStart) rest
  | outer, level, .lineEnd :: rest => read outer (level.push .lineEnd) rest
  | outer, level, .openGroup :: rest => read (level :: outer) ⟨[], []⟩ rest
  | enclosing :: outer, level, .closeGroup :: rest => read outer (enclosing.push level.regex) rest
  | [], _, .closeGroup :: _ => none
  | outer, level, .alternation :: rest => read outer ⟨level.branch :: level.branches, []⟩ rest
  | outer, level, .repetition least most :: rest =>
      match level.pieces with
      | [] | .lineStart :: _ => none
      | piece :: pieces =>
          read outer { level with pieces := .repeated piece least most :: pieces } rest

/-- `regcomp` with extended syntax. -/
def compile (pattern : List Char) : Option Regex :=
  (tokens .plain pattern).bind (read [] ⟨[], []⟩)

/-- A backslash before the characters that a set names. -/
def quote (special : List Char) (char : Char) : List Char :=
  if char ∈ special then ['\\', char] else [char]

section
variable {special : List Char}

/-- A text is read as its characters if all that do not stand for themselves are quoted,
and no others than those that a backslash leaves as they are. -/
theorem tokens_quote (hmeta : metacharacters ⊆ special) (hquotable : special ⊆ quotable)
    (text rest : List Char) :
    tokens .plain (text.flatMap (quote special) ++ rest) =
      (tokens .plain rest).map (text.map (fun char => .set (.literal char)) ++ ·) := by
  induction text with
  | nil => simp
  | cons char text ih =>
      have hchar : tokens .plain (quote special char ++ (text.flatMap (quote special) ++ rest)) =
          (tokens .plain (text.flatMap (quote special) ++ rest)).map
            (.set (.literal char) :: ·) := by
        unfold quote
        split
        next hspecial =>
          rw [List.cons_append, tokens, if_pos rfl, List.singleton_append, tokens,
            if_pos (hquotable hspecial)]
        next hplain =>
          have hnot : char ∉ metacharacters := fun hmem => hplain (hmeta hmem)
          simp only [metacharacters, List.mem_cons, List.not_mem_nil, or_false, not_or] at hnot
          simp [tokens, plainToken, hnot]
      rw [List.flatMap_cons, List.append_assoc, hchar, ih, Option.map_map]
      rfl

/-- Literal characters and an expression after them. -/
def Regex.literals (text : List Char) (rest : Regex) : Regex :=
  text.foldr (fun char regex => .seq (.one (.literal char)) regex) rest

/-- Literal characters are read into the branch at hand. -/
theorem read_literals (outer : List Level) (level : Level) (text : List Char)
    (rest : List Token) :
    read outer level (text.map (fun char => .set (.literal char)) ++ rest) =
      read outer
        { level with
          pieces := (text.map fun char => .one (.literal char)).reverse ++ level.pieces } rest := by
  induction text generalizing level with
  | nil => rfl
  | cons char text ih =>
      rw [List.map_cons, List.cons_append, read, ih]
      simp [Level.push]

/-- A literal text matches itself, followed by what the rest matches. -/
theorem matches_literals {text : List Char} {rest : Regex} {before matched after : List Char} :
    (Regex.literals text rest).Matches before matched after ↔
      ∃ back, matched = text ++ back ∧ rest.Matches (before ++ text) back after := by
  induction text generalizing before matched with
  | nil => simp [Regex.literals]
  | cons char text ih =>
      change (Regex.seq (.one (.literal char)) (Regex.literals text rest)).Matches _ _ _ ↔ _
      simp only [Regex.Matches, CharSet.contains, ih, decide_eq_true_eq]
      constructor
      · intro hmatches
        obtain ⟨_, _, rfl, ⟨_, rfl, rfl⟩, back, rfl, hrest⟩ := hmatches
        exact ⟨back, rfl, by simpa using hrest⟩
      · intro hmatches
        obtain ⟨back, rfl, hrest⟩ := hmatches
        exact ⟨[char], text ++ back, rfl, ⟨char, rfl, rfl⟩, back, rfl, by simpa using hrest⟩

/-- The anchored pattern of a quoted text. -/
theorem compile_anchored (hmeta : metacharacters ⊆ special) (hquotable : special ⊆ quotable)
    (text : List Char) :
    compile ('^' :: text.flatMap (quote special) ++ ['$']) =
      some (.seq .lineStart (.literals text (.seq .lineEnd .empty))) := by
  have hend : tokens .plain ['$'] = some [.lineEnd] := by decide
  have htokens : tokens .plain ('^' :: text.flatMap (quote special) ++ ['$']) =
      some (.lineStart :: text.map (fun char => .set (.literal char)) ++ [.lineEnd]) := by
    rw [List.cons_append, tokens]
    simp [tokens_quote hmeta hquotable, hend, plainToken]
  rw [compile, htokens, Option.bind_some, List.cons_append, read, read_literals, read, read]
  simp only [Level.regex, Level.branch, Level.push, Regex.literals, List.foldl_nil,
    List.foldl_cons, List.foldl_append, List.foldl_reverse, List.foldr_map]

/-- It is found in this text and in no other. -/
theorem found_anchored {text other : List Char} :
    (Regex.seq .lineStart (.literals text (.seq .lineEnd .empty))).Found other ↔
      other = text := by
  simp only [Regex.Found, Regex.Matches, matches_literals]
  constructor
  · intro hfound
    obtain ⟨before, matched, after, rfl, front, back, rfl, ⟨rfl, rfl⟩, rest, rfl, hend⟩ := hfound
    obtain ⟨stop, tail, rfl, ⟨rfl, hafter⟩, rfl⟩ := hend
    rw [List.nil_append] at hafter
    simp [hafter]
  · intro hother
    subst hother
    exact ⟨[], other, [], by simp, [], other, rfl, ⟨rfl, rfl⟩, [], by simp, [], [], rfl,
      ⟨rfl, rfl⟩, rfl⟩

end

end CfIntegration.ExtendedRegex
