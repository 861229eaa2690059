import Mathlib.Data.List.TakeWhile
import CfIntegration.Foundation.Markdown

/-! # Inline links of Markdown

A text is read from the left for its inline links. A backslash takes the next character
literally, a code span hides what it encloses, and a closing bracket makes a link if an
opening one is left for it and a target in parentheses follows directly. Raw HTML is
read as text, since it could only hide a link.
-/

namespace CfIntegration.Markdown

/-- The punctuation that a backslash escapes. -/
def isPunctuation (char : Char) : Bool :=
  (0x21 ≤ char.val && char.val ≤ 0x2f) || (0x3a ≤ char.val && char.val ≤ 0x40) ||
    (0x5b ≤ char.val && char.val ≤ 0x60) || (0x7b ≤ char.val && char.val ≤ 0x7e)

def isControl (char : Char) : Bool := char.val < 0x20 || char.val = 0x7f

def isBlank (char : Char) : Bool := char = ' ' || char = '\t'

def depthBehind (depth : Nat) (char : Char) : Nat :=
  if char = '(' then depth + 1 else if char = ')' then depth - 1 else depth

/-- A destination without angle brackets, and the text behind it. It ends at a blank,
and at a parenthesis that closes none of its own. -/
def bareDestination (escaped : Bool) (depth : Nat) :
    List Char → Option (List Char × List Char)
  | [] => if depth = 0 then some ([], []) else none
  | char :: rest =>
    if escaped && isPunctuation char then
      (bareDestination false depth rest).map fun found => (char :: found.1, found.2)
    else if char = ' ' || isControl char then
      if depth = 0 then some ([], char :: rest) else none
    else if char = ')' && depth = 0 then some ([], char :: rest)
    else
      (bareDestination (char = '\\') (depthBehind depth char) rest).map fun found =>
        (char :: found.1, found.2)

/-- A destination behind its opening angle bracket. -/
def angleDestination (escaped : Bool) : List Char → Option (List Char × List Char)
  | [] => none
  | char :: rest =>
    if !escaped && char = '>' then some ([], rest)
    else if !escaped && char = '<' then none
    else
      (angleDestination (!escaped && char = '\\') rest).map fun found =>
        (char :: found.1, found.2)

def destination : List Char → Option (List Char × List Char)
  | '<' :: rest => angleDestination false rest
  | text => bareDestination false 0 text

/-- The text behind a title, which its closing character ends. -/
def afterTitle (close : Char) (escaped : Bool) : List Char → Option (List Char)
  | [] => none
  | char :: rest =>
    if escaped then afterTitle close false rest
    else if char = '\\' then afterTitle close true rest
    else if char = close then some rest
    else if close = ')' && char = '(' then none
    else afterTitle close false rest

def afterClose (text : List Char) : Option (List Char) :=
  match text.dropWhile isBlank with
  | ')' :: rest => some rest
  | _ => none

/-- The text behind the target, given what follows the destination: a title has to stand
apart from it. -/
def afterTarget (text : List Char) : Option (List Char) :=
  match text.dropWhile isBlank with
  | ')' :: rest => some rest
  | quote :: rest =>
    if text.head?.any isBlank && quote ∈ ['"', '\'', '('] then
      (afterTitle (if quote = '(' then ')' else quote) false rest).bind afterClose
    else none
  | [] => none

/-- The destination of a target in parentheses, and the text behind the target. -/
def inlineTarget : List Char → Option (List Char × List Char)
  | '(' :: rest =>
    (destination (rest.dropWhile isBlank)).bind fun found =>
      (afterTarget found.2).map fun behind => (found.1, behind)
  | _ => none

inductive Opener where
  | link
  | image
  /-- The brackets around a link cannot make another link. -/
  | inactive
  deriving DecidableEq, Repr

/-- The brackets that are left to close behind a link. -/
def deactivate : List Opener → List Opener :=
  List.map fun opener => if opener = .link then .inactive else opener

/-- How many characters a code span takes behind its opening run of `size` backticks,
with the length of the run of backticks read last. -/
def codeSpan (size run : Nat) : List Char → Option Nat
  | [] => if run = size then some 0 else none
  | char :: rest =>
    if char = '\x60' then (codeSpan size (run + 1) rest).map (· + 1)
    else if run = size then some 0
    else (codeSpan size 0 rest).map (· + 1)

/-- How many characters behind a backtick belong to its run or to its code span. -/
def tickSkip (rest : List Char) : Nat :=
  let run := (rest.takeWhile (· = '\x60')).length
  run + (codeSpan (run + 1) 0 (rest.drop run)).getD 0

/-- The destinations of the links, with the number of characters that are read already
and the brackets that are left to close, the last one first. -/
def scanLinks : Nat → List Opener → List Char → List (List Char)
  | _, _, [] => []
  | skip + 1, openers, _ :: rest => scanLinks skip openers rest
  | 0, openers, char :: rest =>
    if char = '\\' then scanLinks 1 openers rest
    else if char = '\x60' then scanLinks (tickSkip rest) openers rest
    else if char = '!' && rest.head? = some '[' then scanLinks 1 (.image :: openers) rest
    else if char = '[' then scanLinks 0 (.link :: openers) rest
    else if char = ']' then
      match openers, inlineTarget rest with
      | .link :: others, some (found, behind) =>
        found :: scanLinks (rest.length - behind.length) (deactivate others) rest
      | .image :: others, some (_, behind) =>
        scanLinks (rest.length - behind.length) others rest
      | _, _ => scanLinks 0 openers.tail rest
    else scanLinks 0 openers rest

def linkDestinations (text : List Char) : List (List Char) := scanLinks 0 [] text

/-- The texts that are read for links on their own: the cells of a row, and every other
line. -/
def inlineTexts (text : List Char) : List (List Char) :=
  (physicalLines text).flatMap fun line =>
    if line.head? = some '|' then cells line else [line]

example : linkDestinations "[a [b](c\\)) `](x` ](d) ![e](f)".toList = ["c\\)".toList] := by
  decide +kernel

/-- A bare destination is what the text begins with. -/
theorem bareDestination_append {escaped : Bool} {depth : Nat} {text found behind : List Char}
    (hbare : bareDestination escaped depth text = some (found, behind)) :
    text = found ++ behind := by
  fun_induction bareDestination escaped depth text generalizing found with
  | case1 => simp_all
  | case2 => cases hbare
  | case3 escaped depth char rest hescaped ih =>
      obtain ⟨inner, hinner, heq⟩ := Option.map_eq_some_iff.mp hbare
      cases heq
      rw [ih hinner, List.cons_append]
  | case4 => simp_all
  | case5 => cases hbare
  | case6 => simp_all
  | case7 escaped depth char rest _ _ _ ih =>
      obtain ⟨inner, hinner, heq⟩ := Option.map_eq_some_iff.mp hbare
      cases heq
      rw [ih hinner, List.cons_append]

/-- What is behind a destination in angle brackets is an end of the text. -/
theorem angleDestination_suffix {escaped : Bool} {text found behind : List Char}
    (hangle : angleDestination escaped text = some (found, behind)) : behind <:+ text := by
  fun_induction angleDestination escaped text generalizing found with
  | case1 => cases hangle
  | case2 escaped char rest =>
      cases hangle
      exact List.suffix_cons _ _
  | case3 => cases hangle
  | case4 escaped char rest _ _ ih =>
      obtain ⟨inner, hinner, heq⟩ := Option.map_eq_some_iff.mp hangle
      cases heq
      exact (ih hinner).trans (List.suffix_cons _ _)

/-- What is behind a destination is an end of the text. -/
theorem destination_suffix {text found behind : List Char}
    (hfound : destination text = some (found, behind)) : behind <:+ text := by
  unfold destination at hfound
  split at hfound
  next rest => exact (angleDestination_suffix hfound).trans (List.suffix_cons _ _)
  next =>
    rw [bareDestination_append hfound]
    exact List.suffix_append _ _

theorem afterTitle_suffix {close : Char} {escaped : Bool} {text behind : List Char}
    (htitle : afterTitle close escaped text = some behind) : behind <:+ text := by
  fun_induction afterTitle close escaped text with
  | case1 => cases htitle
  | case2 rest char ih => exact (ih htitle).trans (List.suffix_cons _ _)
  | case3 escaped rest _ ih => exact (ih htitle).trans (List.suffix_cons _ _)
  | case4 escaped rest _ _ =>
      cases htitle
      exact List.suffix_cons _ _
  | case5 => cases htitle
  | case6 escaped char rest _ _ _ _ ih => exact (ih htitle).trans (List.suffix_cons _ _)

theorem mem_of_afterClose {text behind : List Char} (hclose : afterClose text = some behind) :
    ')' ∈ text := by
  unfold afterClose at hclose
  split at hclose
  next rest hdrop =>
    apply (List.dropWhile_sublist isBlank).subset
    rw [hdrop]
    exact List.mem_cons_self
  next => cases hclose

theorem mem_of_afterTarget {text behind : List Char} (htarget : afterTarget text = some behind) :
    ')' ∈ text := by
  have hblank := (List.dropWhile_sublist isBlank (l := text)).subset
  unfold afterTarget at htarget
  split at htarget
  next rest hdrop =>
    apply hblank
    rw [hdrop]
    exact List.mem_cons_self
  next quote rest _ hdrop =>
    split at htarget
    next hquote =>
      obtain ⟨tail, htail, hclose⟩ := Option.bind_eq_some_iff.mp htarget
      apply hblank
      rw [hdrop]
      apply List.mem_cons_of_mem
      exact (afterTitle_suffix htail).subset (mem_of_afterClose hclose)
    next => cases htarget
  next => cases htarget

/-- A target begins and ends with a parenthesis. -/
theorem inlineTarget_parentheses {text found behind : List Char}
    (htarget : inlineTarget text = some (found, behind)) :
    ∃ rest, text = '(' :: rest ∧ ')' ∈ rest := by
  unfold inlineTarget at htarget
  split at htarget
  next rest =>
    obtain ⟨inner, hinner, hmap⟩ := Option.bind_eq_some_iff.mp htarget
    obtain ⟨tail, htail, -⟩ := Option.map_eq_some_iff.mp hmap
    refine ⟨rest, rfl, ?_⟩
    apply (List.dropWhile_sublist isBlank).subset
    exact (destination_suffix hinner).subset (mem_of_afterTarget htail)
  next => cases htarget

/-- What a link needs in a text: an opening bracket, and behind it a closing one before
a target. -/
def LinkAt (openers : List Opener) (text found : List Char) : Prop :=
  ∃ before after behind, text = before ++ ']' :: after ∧
    inlineTarget after = some (found, behind) ∧ (.link ∈ openers ∨ '[' ∈ before)

theorem LinkAt.cons {openers : List Opener} {text found : List Char}
    (hlink : LinkAt openers text found) (char : Char) : LinkAt openers (char :: text) found := by
  obtain ⟨before, after, behind, rfl, htarget, hopener⟩ := hlink
  refine ⟨char :: before, after, behind, rfl, htarget, ?_⟩
  exact hopener.imp_right (List.mem_cons_of_mem char)

/-- A link needs an opener that is still open. -/
theorem LinkAt.mono {openers fewer : List Opener} {text found : List Char}
    (hlink : LinkAt fewer text found) (hfewer : .link ∈ fewer → .link ∈ openers) :
    LinkAt openers text found := by
  obtain ⟨before, after, behind, hsplit, htarget, hopener⟩ := hlink
  exact ⟨before, after, behind, hsplit, htarget, hopener.imp_left hfewer⟩

/-- A destination that the scan finds is that of a link in the text. -/
theorem linkAt_of_mem_scanLinks {skip : Nat} {openers : List Opener} {text found : List Char}
    (hfound : found ∈ scanLinks skip openers text) : LinkAt openers text found := by
  fun_induction scanLinks skip openers text with
  | case1 => cases hfound
  | case2 skip openers char rest ih => exact (ih hfound).cons char
  | case3 openers rest ih => exact (ih hfound).cons _
  | case4 openers rest _ ih => exact (ih hfound).cons _
  | case5 openers char rest _ _ _ ih =>
      apply (ih hfound).mono (by simp) |>.cons
  | case6 openers rest _ _ _ ih =>
      obtain ⟨before, after, behind, rfl, htarget, -⟩ := ih hfound
      exact ⟨'[' :: before, after, behind, rfl, htarget, .inr List.mem_cons_self⟩
  | case7 rest others found' behind htarget _ _ _ _ ih =>
      obtain rfl | hlater := List.mem_cons.mp hfound
      · exact ⟨[], rest, behind, rfl, htarget, .inl List.mem_cons_self⟩
      · exact ((ih hlater).mono fun _ => List.mem_cons_self).cons _
  | case8 rest others found' behind htarget _ _ _ _ ih =>
      exact ((ih hfound).mono (List.mem_cons_of_mem _)).cons _
  | case9 openers rest _ _ _ _ _ _ ih =>
      exact ((ih hfound).mono List.mem_of_mem_tail).cons _
  | case10 openers char rest _ _ _ _ _ ih => exact (ih hfound).cons _

/-- A link has its target right after a closing bracket. -/
theorem linkAt_of_mem_linkDestinations {text found : List Char}
    (hfound : found ∈ linkDestinations text) :
    ∃ before after behind, text = before ++ ']' :: after ∧
      inlineTarget after = some (found, behind) ∧ '[' ∈ before := by
  obtain ⟨before, after, behind, hsplit, htarget, hopener⟩ := linkAt_of_mem_scanLinks hfound
  exact ⟨before, after, behind, hsplit, htarget, hopener.resolve_left (by simp)⟩

/-- Every target in the text, from its opening parenthesis on, has the property. -/
def Targets (good : List Char → Prop) (text : List Char) : Prop :=
  ∀ before after, text = before ++ ']' :: '(' :: after → good after

/-- A text without targets. -/
def NoTarget (text : List Char) : Prop := ¬[']', '('] <:+: text

instance (text : List Char) : Decidable (NoTarget text) :=
  inferInstanceAs (Decidable ¬_)

variable {good : List Char → Prop}

theorem NoTarget.targets {text : List Char} (htext : NoTarget text) : Targets good text := by
  intro before after hsplit
  refine absurd ⟨before, after, ?_⟩ htext
  simp [hsplit]

/-- What is asked of the targets may be weakened. -/
theorem Targets.mono {better : List Char → Prop} {text : List Char} (htext : Targets good text)
    (hgood : ∀ after, good after → better after) : Targets better text :=
  fun before after hsplit => hgood after (htext before after hsplit)

/-- Targets of a text in two parts, where no target lies across the parts. -/
theorem Targets.append {front back : List Char}
    (hfront : Targets (fun after => good (after ++ back)) front) (hback : Targets good back)
    (hedge : front.getLast? = some ']' → back.head? ≠ some '(') :
    Targets good (front ++ back) := by
  intro before after hsplit
  obtain ⟨middle, hleft, hright⟩ | ⟨middle, hleft, hright⟩ := List.append_eq_append_iff.mp hsplit
  · exact hback middle after hright
  · cases middle with
    | nil => exact hback [] after hright.symm
    | cons first middle =>
        rw [List.cons_append, List.cons.injEq] at hright
        obtain ⟨rfl, hright⟩ := hright
        cases middle with
        | nil =>
            rw [List.nil_append] at hright
            exact absurd (by simp [← hright]) (hedge (by simp [hleft]))
        | cons second middle =>
            rw [List.cons_append, List.cons.injEq] at hright
            obtain ⟨rfl, rfl⟩ := hright
            exact hfront before middle hleft

/-- Texts without targets stay so side by side, unless a link is closed at the edge. -/
theorem NoTarget.append {front back : List Char} (hfront : NoTarget front)
    (hback : NoTarget back) (hedge : front.getLast? = some ']' → back.head? ≠ some '(') :
    NoTarget (front ++ back) := by
  have htargets : Targets (fun _ => False) (front ++ back) :=
    hfront.targets.append hback.targets hedge
  rintro ⟨before, after, hsplit⟩
  exact htargets before after (by simp [← hsplit])

/-- Nothing is a link in a text without targets. -/
theorem linkDestinations_of_noTarget {text : List Char} (htext : NoTarget text) :
    linkDestinations text = [] := by
  rw [List.eq_nil_iff_forall_not_mem]
  intro found hfound
  obtain ⟨before, after, behind, rfl, htarget, -⟩ := linkAt_of_mem_linkDestinations hfound
  obtain ⟨rest, rfl, -⟩ := inlineTarget_parentheses htarget
  exact htext ⟨before, rest, by simp⟩

/-- A text without a closing bracket has no target. -/
theorem noTarget_of_not_mem {text : List Char} (htext : ']' ∉ text) : NoTarget text := by
  intro hwithin
  exact htext (hwithin.subset List.mem_cons_self)

/-- A rendering of characters that neither makes nor hides a target. -/
structure KeepsTargets (render : Char → List Char) : Prop where
  bracket : render ']' = [']']
  paren : render '(' = ['(']
  bracket_only : ∀ char, ']' ∈ render char → char = ']'
  paren_only : ∀ char, '(' ∈ render char → char = '('

theorem KeepsTargets.split_paren {render : Char → List Char} (hrender : KeepsTargets render)
    {text : List Char} (hshown : ∀ char ∈ text, render char ≠ []) {after : List Char}
    (hsplit : text.flatMap render = '(' :: after) :
    ∃ back, text = '(' :: back ∧ after = back.flatMap render := by
  cases text with
  | nil => simp at hsplit
  | cons char rest =>
      rw [List.flatMap_cons] at hsplit
      have hne := hshown char List.mem_cons_self
      cases hchar : render char with
      | nil => exact absurd hchar hne
      | cons first more =>
          rw [hchar, List.cons_append, List.cons.injEq] at hsplit
          obtain ⟨rfl, rfl⟩ := hsplit
          obtain rfl := hrender.paren_only char (by simp [hchar])
          rw [hrender.paren, List.cons.injEq] at hchar
          exact ⟨rest, rfl, by simp [← hchar.2]⟩

/-- A target in the rendered text is one of the text itself. -/
theorem KeepsTargets.split {render : Char → List Char} (hrender : KeepsTargets render)
    {text : List Char} (hshown : ∀ char ∈ text, render char ≠ []) {before after : List Char}
    (hsplit : text.flatMap render = before ++ ']' :: '(' :: after) :
    ∃ front back, text = front ++ ']' :: '(' :: back ∧
      before = front.flatMap render ∧ after = back.flatMap render := by
  induction text generalizing before with
  | nil => simp at hsplit
  | cons char rest ih =>
      have ih := @ih fun other hother => hshown other (List.mem_cons_of_mem _ hother)
      rw [List.flatMap_cons] at hsplit
      obtain ⟨middle, rfl, hright⟩ | ⟨middle, hleft, hright⟩ :=
        List.append_eq_append_iff.mp hsplit
      · obtain ⟨front, back, rfl, rfl, rfl⟩ := ih hright
        exact ⟨char :: front, back, rfl, rfl, rfl⟩
      · cases middle with
        | nil =>
            rw [List.append_nil] at hleft
            obtain ⟨front, back, rfl, hfront, rfl⟩ := @ih [] hright.symm
            refine ⟨char :: front, back, rfl, ?_, rfl⟩
            rw [List.flatMap_cons, ← hfront, hleft, List.append_nil]
        | cons first middle =>
            rw [List.cons_append, List.cons.injEq] at hright
            obtain ⟨rfl, hright⟩ := hright
            -- The bracket comes from a bracket, and the parenthesis from what follows it.
            obtain rfl := hrender.bracket_only char (by simp [hleft])
            rw [hrender.bracket] at hleft
            obtain rfl : before = [] := by
              cases before with
              | nil => rfl
              | cons other before => simp at hleft
            obtain rfl : middle = [] := by simpa using hleft
            obtain ⟨back, rfl, rfl⟩ := hrender.split_paren
              (fun other hother => hshown other (List.mem_cons_of_mem _ hother)) hright.symm
            exact ⟨[], back, rfl, rfl, rfl⟩

/-- The backslash that ends the part before the first space takes the next character. -/
def leavesEscape (escaped : Bool) : List Char → Bool
  | [] => escaped
  | char :: rest =>
    if char = ' ' then false else leavesEscape (!escaped && char = '\\') rest

/-- A destination without parentheses and open escapes ends at its closing parenthesis. -/
theorem bareDestination_of_closed {escaped : Bool} {url : List Char} (tail : List Char)
    (hurl : ∀ char ∈ url, isControl char = false ∧ char ≠ '(' ∧ char ≠ ')')
    (hclosed : leavesEscape escaped url = false) :
    bareDestination escaped 0 (url ++ ')' :: tail) =
      some (url.takeWhile (· ≠ ' '), url.dropWhile (· ≠ ' ') ++ ')' :: tail) := by
  induction url generalizing escaped with
  | nil =>
      rw [leavesEscape] at hclosed
      subst hclosed
      simp [bareDestination, isControl]
  | cons char rest ih =>
      obtain ⟨hcontrol, hopen, hclose⟩ := hurl char List.mem_cons_self
      rw [List.cons_append, bareDestination]
      -- A space ends the destination.
      by_cases hspace : char = ' '
      · subst hspace
        have hpunctuation : isPunctuation ' ' = false := by decide
        simp [hpunctuation]
      · rw [leavesEscape, if_neg hspace] at hclosed
        have hrest := ih (fun other hother => hurl other (List.mem_cons_of_mem _ hother)) hclosed
        have hkeep : (char :: rest).takeWhile (· ≠ ' ') = char :: rest.takeWhile (· ≠ ' ') ∧
            (char :: rest).dropWhile (· ≠ ' ') = rest.dropWhile (· ≠ ' ') := by simp [hspace]
        rw [hkeep.1, hkeep.2]
        -- Escaped or not, no parenthesis of the target changes the depth.
        by_cases hescaped : (escaped && isPunctuation char) = true
        · have hstate : (!escaped && decide (char = '\\')) = false := by
            rw [Bool.and_eq_true] at hescaped
            simp [hescaped.1]
          rw [hstate] at hrest
          rw [if_pos hescaped, hrest, Option.map_some]
        · have hstate : (!escaped && decide (char = '\\')) = decide (char = '\\') := by
            cases escaped with
            | false => rfl
            | true =>
                have hslash : char ≠ '\\' := by
                  rintro rfl
                  exact hescaped (by decide)
                simp [hslash]
          have hdepth : depthBehind 0 char = 0 := by simp [depthBehind, hopen, hclose]
          rw [hstate] at hrest
          rw [if_neg hescaped, if_neg (by simp [hspace, hcontrol]), if_neg (by simp [hclose]),
            hdepth, hrest, Option.map_some]

/-- A target that does not begin with an angle bracket has a bare destination. -/
theorem inlineTarget_eq {text : List Char}
    (hfirst : ∀ first ∈ text.head?, first ≠ '<' ∧ isBlank first = false) :
    inlineTarget ('(' :: text) = (bareDestination false 0 text).bind fun found =>
      (afterTarget found.2).map fun behind => (found.1, behind) := by
  cases text with
  | nil => rfl
  | cons first rest =>
      obtain ⟨hangle, hblank⟩ := hfirst first rfl
      have hdestination :
          destination (first :: rest) = bareDestination false 0 (first :: rest) := by
        unfold destination
        split
        next heq =>
          cases heq
          exact absurd rfl hangle
        next => rfl
      have hstart : (first :: rest).dropWhile isBlank = first :: rest := by simp [hblank]
      rw [inlineTarget, hstart, hdestination]

/-- A URL with its closing parenthesis is a target up to its first space. -/
theorem destination_of_inlineTarget {url tail found behind : List Char}
    (hfirst : ∀ first ∈ url.head?, first ≠ '<' ∧ isBlank first = false)
    (hurl : ∀ char ∈ url, isControl char = false ∧ char ≠ '(' ∧ char ≠ ')')
    (hclosed : leavesEscape false url = false)
    (htarget : inlineTarget ('(' :: (url ++ ')' :: tail)) = some (found, behind)) :
    found = url.takeWhile (· ≠ ' ') := by
  have hhead : ∀ first ∈ (url ++ ')' :: tail).head?, first ≠ '<' ∧ isBlank first = false := by
    cases url with
    | nil => simp [isBlank]
    | cons first rest => exact hfirst
  rw [inlineTarget_eq hhead, bareDestination_of_closed tail hurl hclosed] at htarget
  obtain ⟨inner, hinner, hmap⟩ := Option.bind_eq_some_iff.mp htarget
  obtain ⟨rest, -, heq⟩ := Option.map_eq_some_iff.mp hmap
  cases hinner
  cases heq
  rfl

/-- A text without backslashes leaves no escape. -/
theorem leavesEscape_of_not_mem {url : List Char} (hurl : '\\' ∉ url) :
    leavesEscape false url = false := by
  induction url with
  | nil => rfl
  | cons char rest ih =>
      simp only [List.mem_cons, not_or] at hurl
      have hslash : char ≠ '\\' := Ne.symm hurl.1
      rw [leavesEscape]
      split_ifs
      · rfl
      · simpa [hslash] using ih hurl.2

/-- Characters that mean nothing to a destination are all of it. -/
theorem inlineTarget_of_forall {url : List Char} (tail : List Char)
    (hurl : ∀ char ∈ url, isControl char = false ∧ char ∉ ['(', ')', '\\', '<', ' ']) :
    inlineTarget ('(' :: (url ++ ')' :: tail)) = some (url, tail) := by
  have hchars : ∀ char ∈ url, isControl char = false ∧ char ≠ '(' ∧ char ≠ ')' := by
    intro char hchar
    obtain ⟨hcontrol, hother⟩ := hurl char hchar
    simp only [List.mem_cons, not_or] at hother
    exact ⟨hcontrol, hother.1, hother.2.1⟩
  have hspace : ∀ char ∈ url, decide (char ≠ ' ') = true := by
    intro char hchar
    simpa using fun heq => (hurl char hchar).2 (by simp [heq])
  have hhead : ∀ first ∈ (url ++ ')' :: tail).head?, first ≠ '<' ∧ isBlank first = false := by
    cases url with
    | nil => simp [isBlank]
    | cons first rest =>
        obtain ⟨hcontrol, hother⟩ := hurl first List.mem_cons_self
        have htab : first ≠ '\t' := by
          rintro rfl
          cases hcontrol
        simp_all [isBlank]
  have hclosed := leavesEscape_of_not_mem fun hslash => (hurl '\\' hslash).2 (by decide)
  rw [inlineTarget_eq hhead, bareDestination_of_closed tail hchars hclosed,
    List.takeWhile_eq_self_iff.mpr hspace, List.dropWhile_eq_nil_iff.mpr hspace]
  rfl

theorem scanLinks_skip (openers : List Opener) (front rest : List Char) :
    scanLinks front.length openers (front ++ rest) = scanLinks 0 openers rest := by
  induction front with
  | nil => rfl
  | cons char front ih => exact ih

/-- No character of the text means anything to the scan. -/
theorem scanLinks_ordinary {front : List Char}
    (hfront : ∀ char ∈ front, char ∉ ['\\', '\x60', '!', '[', ']'])
    (openers : List Opener) (rest : List Char) :
    scanLinks 0 openers (front ++ rest) = scanLinks 0 openers rest := by
  induction front with
  | nil => rfl
  | cons char front ih =>
      have hchar := hfront char List.mem_cons_self
      simp only [List.mem_cons, List.not_mem_nil, or_false, not_or] at hchar
      obtain ⟨hslash, htick, hmark, hopen, hclose⟩ := hchar
      rw [List.cons_append]
      conv_lhs => unfold scanLinks
      simp only [hslash, htick, hmark, hopen, hclose, if_false, decide_false, Bool.false_and,
        Bool.false_eq_true]
      exact ih fun other hother => hfront other (List.mem_cons_of_mem _ hother)

theorem scanLinks_open (openers : List Opener) (rest : List Char) :
    scanLinks 0 openers ('[' :: rest) = scanLinks 0 (.link :: openers) rest := by
  conv_lhs => unfold scanLinks
  simp

/-- A bracket that closes an opening one before a target makes a link. -/
theorem mem_scanLinks_close {rest found behind : List Char}
    (htarget : inlineTarget rest = some (found, behind)) (openers : List Opener) :
    found ∈ scanLinks 0 (.link :: openers) (']' :: rest) := by
  unfold scanLinks
  simp [htarget]

/-- A code span goes on over a text without backticks. -/
theorem codeSpan_append {size : Nat} (hsize : 0 < size) {body : List Char}
    (hbody : '\x60' ∉ body) (rest : List Char) :
    codeSpan size 0 (body ++ rest) = (codeSpan size 0 rest).map (· + body.length) := by
  induction body with
  | nil => simp
  | cons char body ih =>
      simp only [List.mem_cons, not_or] at hbody
      rw [List.cons_append, codeSpan, if_neg (Ne.symm hbody.1), if_neg (Nat.ne_of_lt hsize),
        ih hbody.2]
      cases codeSpan size 0 rest <;> simp [Nat.add_assoc]

/-- A code span hides its text from the scan. -/
theorem scanLinks_code {body rest : List Char} (hne : body ≠ []) (hbody : '\x60' ∉ body)
    (hrest : rest.head? ≠ some '\x60') (openers : List Opener) :
    scanLinks 0 openers ('\x60' :: body ++ '\x60' :: rest) = scanLinks 0 openers rest := by
  have hrun : (body ++ '\x60' :: rest).takeWhile (· = '\x60') = [] := by
    cases body with
    | nil => exact absurd rfl hne
    | cons char body => simp_all [eq_comm]
  have hclose : codeSpan 1 0 ('\x60' :: rest) = some 1 := by
    cases rest with
    | nil => rfl
    | cons char rest =>
        have hchar : char ≠ '\x60' := by simpa using hrest
        simp [codeSpan, hchar]
  have hskip : tickSkip (body ++ '\x60' :: rest) = (body ++ ['\x60']).length := by
    simp [tickSkip, hrun, codeSpan_append Nat.one_pos hbody, hclose, Nat.add_comm]
  have hsplit : body ++ '\x60' :: rest = (body ++ ['\x60']) ++ rest := by simp
  rw [List.cons_append]
  conv_lhs => unfold scanLinks
  simp only [Char.reduceEq, if_false, if_true]
  rw [hskip, hsplit]
  exact scanLinks_skip openers _ rest

/-- A run of two backticks that nothing closes. -/
theorem scanLinks_emptyCode {rest : List Char} (hrest : rest.head? ≠ some '\x60')
    (hopen : codeSpan 2 0 rest = none) (openers : List Opener) :
    scanLinks 0 openers ('\x60' :: '\x60' :: rest) = scanLinks 0 openers rest := by
  have hrun : ('\x60' :: rest).takeWhile (· = '\x60') = ['\x60'] := by
    cases rest with
    | nil => rfl
    | cons char rest =>
        have hchar : char ≠ '\x60' := by simpa using hrest
        simp [hchar]
  have hskip : tickSkip ('\x60' :: rest) = 1 := by simp [tickSkip, hrun, hopen]
  conv_lhs => unfold scanLinks
  simp only [Char.reduceEq, if_false, if_true]
  rw [hskip]
  rfl

/-- A cell has characters of its text only. -/
theorem mem_of_mem_cells {text cell : List Char} (hcell : cell ∈ cells text) :
    ∀ char ∈ cell, char ∈ text := by
  have hjoin : ∀ {front : List Char} {others : List (List Char)} {rest : List Char},
      (∀ other ∈ others, ∀ char ∈ other, char ∈ rest) →
        ∀ part ∈ joinFirst front others, ∀ char ∈ part, char ∈ front ++ rest := by
    intro front others rest hothers part hpart char hchar
    cases others with
    | nil =>
        rw [joinFirst, List.mem_singleton] at hpart
        exact List.mem_append_left _ (hpart ▸ hchar)
    | cons first others =>
        rw [joinFirst, List.mem_cons] at hpart
        obtain rfl | hpart := hpart
        · obtain hfront | hfirst := List.mem_append.mp hchar
          · exact List.mem_append_left _ hfront
          · exact List.mem_append_right _ (hothers first List.mem_cons_self char hfirst)
        · exact List.mem_append_right _ (hothers part (List.mem_cons_of_mem _ hpart) char hchar)
  fun_induction cells text generalizing cell with
  | case1 => simp_all
  | case2 char rest ih => exact hjoin (fun other hother => ih hother) cell hcell
  | case3 rest ih =>
      intro char hchar
      obtain rfl | hcell := List.mem_cons.mp hcell
      · cases hchar
      · exact List.mem_cons_of_mem _ (ih hcell char hchar)
  | case4 char rest _ _ ih => exact hjoin (fun other hother => ih hother) cell hcell

/-- Where no bracket closes, no text has a link. -/
theorem noTarget_of_inlineTexts {lines : List (List Char)} (hlines : ∀ line ∈ lines, ']' ∉ line) :
    ∀ text ∈ lines.flatMap (fun line => if line.head? = some '|' then cells line else [line]),
      NoTarget text := by
  intro text htext
  obtain ⟨line, hline, hin⟩ := List.mem_flatMap.mp htext
  apply noTarget_of_not_mem
  intro hbracket
  apply hlines line hline
  split_ifs at hin with hpipe
  · exact mem_of_mem_cells hin ']' hbracket
  · exact List.mem_singleton.mp hin ▸ hbracket

end CfIntegration.Markdown
