import CfIntegration.Foundation.MarkdownLinks
import CfIntegration.Conformance.Comparison

/-! # Links of the comparison report

The brackets of an untrusted text are not escaped, so a text can spell a link of its own
or take over the brackets around it, and the code span around a text ends at the first
backtick of that text.
-/

namespace CfIntegration.Conformance

open CfIntegration.Markdown

/-- The text as a cell shows it; carriage returns are dropped. -/
def shownText (value : String) : List Char := value.toList.filter (· ≠ '\r')

/-- A text that has everything an inline link needs. -/
def SpellsLink (value : String) : Prop :=
  ∃ before after, shownText value = before ++ ']' :: '(' :: after ∧ '[' ∈ before ∧ ')' ∈ after

/-- What the texts of a report have to be for its own links to be the only ones. -/
structure KeepsLinks (report : ComparisonReport) : Prop where
  names : ∀ scenario ∈ report.scenarios, ¬SpellsLink scenario.scenario
  ids : ∀ scenario ∈ report.scenarios, ∀ reference ∈ scenario.specReferences,
    NoTarget (shownText reference.id)
  urls : ∀ scenario ∈ report.scenarios, ∀ reference ∈ scenario.specReferences,
    ∀ url ∈ reference.url, isSafeMarkdownUrl url.toList = true →
      leavesEscape false url.toList = false
  clientVersion : '\x60' ∉ report.clientVersion.toList ∨ NoTarget report.clientVersion.toList
  suite : '\x60' ∉ report.suite.toList ∨ NoTarget report.suite.toList
  /-- A backtick in the first text of a line also opens the span around the second. -/
  fixture : ('\x60' ∉ report.fixture.repository.toList ∧
      ('\x60' ∉ report.fixture.revision.toList ∨ NoTarget report.fixture.revision.toList)) ∨
    (NoTarget report.fixture.repository.toList ∧ NoTarget report.fixture.revision.toList)

/-! ## Escaping keeps targets -/

def isBracket (char : Char) : Bool := char ∈ ['[', ']', '(', ')']

/-- An escape that stands for other characters has no brackets. -/
theorem keepsTargets_of_escape {render : Char → List Char}
    (hrender : ∀ char, render char = [char] ∨
      (isBracket char = false ∧ (render char).all (!isBracket ·) = true)) :
    KeepsTargets render ∧ ∀ char shown, isBracket shown = true → shown ∈ render char →
      char = shown := by
  have honly : ∀ char shown, isBracket shown = true → shown ∈ render char → char = shown := by
    intro char shown hbracket hshown
    obtain hsame | ⟨-, hnone⟩ := hrender char
    · rw [hsame] at hshown
      exact (List.mem_singleton.mp hshown).symm
    · have hfalse := List.all_eq_true.mp hnone shown hshown
      simp [hbracket] at hfalse
  refine ⟨?_, honly⟩
  constructor
  · exact (hrender ']').resolve_right fun hescape => by cases hescape.1
  · exact (hrender '(').resolve_right fun hescape => by cases hescape.1
  · exact fun char hchar => honly char ']' rfl hchar
  · exact fun char hchar => honly char '(' rfl hchar

/-- A character is kept, or its escape has no bracket. -/
theorem cellChar_escape (char : Char) : cellChar char = [char] ∨
    (isBracket char = false ∧ (cellChar char).all (!isBracket ·) = true) := by
  unfold cellChar
  split_ifs
  any_goals subst_vars; exact .inr ⟨rfl, rfl⟩
  exact .inl rfl

/-- What a code span shows for one character of its text. -/
def codeChar (char : Char) : List Char :=
  if char = '\x60' then "\\`".toList
  else if char = '\r' ∨ char = '\n' then [' ']
  else [char]

/-- A code span is escaped character by character. -/
theorem markdownCode_eq (value : List Char) : markdownCode value = value.flatMap codeChar := by
  simp only [markdownCode, replaceChar, List.map_flatMap]
  apply congrArg (value.flatMap ·)
  funext char
  unfold codeChar
  split_ifs with htick hend
  · rfl
  · simp [hend]
  · simp [hend]

/-- A character of a code span is kept, or its escape has no bracket. -/
theorem codeChar_escape (char : Char) : codeChar char = [char] ∨
    (isBracket char = false ∧ (codeChar char).all (!isBracket ·) = true) := by
  unfold codeChar
  split_ifs with htick hend
  · subst htick
    exact .inr ⟨rfl, rfl⟩
  · obtain rfl | rfl := hend <;> exact .inr ⟨rfl, rfl⟩
  · exact .inl rfl

/-- A code span adds no link target. -/
theorem noTarget_markdownCode {value : List Char} (hvalue : NoTarget value) :
    NoTarget (markdownCode value) := by
  rintro ⟨before, after, hsplit⟩
  have hshown : ∀ char ∈ value, codeChar char ≠ [] := by
    intro char _
    unfold codeChar
    split_ifs <;> simp
  rw [markdownCode_eq, List.append_assoc] at hsplit
  obtain ⟨front, back, rfl, -, -⟩ :=
    (keepsTargets_of_escape codeChar_escape).1.split hshown hsplit.symm
  exact hvalue ⟨front, back, by simp⟩

/-- A cell shows its text with the line endings normalised. -/
theorem markdownCell_shownText (value : String) :
    markdownCell value.toList = (shownText value).flatMap cellChar := by
  rw [markdownCell_eq, shownText]
  induction value.toList with
  | nil => rfl
  | cons char rest ih =>
      by_cases hreturn : char = '\r'
      · subst hreturn
        simpa [cellChar] using ih
      · simp [hreturn, ih]

theorem cellChar_ne_nil {value : String} : ∀ char ∈ shownText value, cellChar char ≠ [] := by
  intro char hchar
  have hreturn : char ≠ '\r' := by simpa using (List.mem_filter.mp hchar).2
  unfold cellChar
  split_ifs <;> simp

/-- An escaped cell has a link target only where its text has one. -/
theorem noTarget_markdownCell {value : String} (hvalue : NoTarget (shownText value)) :
    NoTarget (markdownCell value.toList) := by
  rintro ⟨before, after, hsplit⟩
  rw [markdownCell_shownText, List.append_assoc] at hsplit
  obtain ⟨front, back, hshown, -, -⟩ :=
    (keepsTargets_of_escape cellChar_escape).1.split cellChar_ne_nil hsplit.symm
  exact hvalue ⟨front, back, by simp [hshown]⟩

/-- The parts of a padded text around a link, without the padding. -/
theorem spellsLink_of_padded {value : String} {front back : List Char}
    (htext : ' ' :: shownText value ++ [' '] = front ++ ']' :: '(' :: back)
    (hopen : '[' ∈ front) (hclose : ')' ∈ back) : SpellsLink value := by
  cases front with
  | nil => cases hopen
  | cons first front =>
      rw [List.cons_append, List.cons_append, List.cons.injEq] at htext
      obtain ⟨rfl, htext⟩ := htext
      obtain rfl | ⟨body, last, rfl⟩ := List.eq_nil_or_concat back
      · cases hclose
      · rw [List.concat_eq_append] at htext hclose
        rw [← List.cons_append, ← List.cons_append, ← List.append_assoc] at htext
        obtain ⟨hshown, hlast⟩ := List.append_inj' htext rfl
        obtain rfl : ' ' = last := by simpa using hlast
        exact ⟨front, body, hshown, by simpa using hopen, by simpa using hclose⟩

/-- A name that spells no link makes none in its cell. -/
theorem linkDestinations_nameCell {value : String} (hvalue : ¬SpellsLink value) :
    linkDestinations (' ' :: markdownCell value.toList ++ [' ']) = [] := by
  rw [List.eq_nil_iff_forall_not_mem]
  intro found hfound
  obtain ⟨before, after, behind, hsplit, htarget, hopener⟩ :=
    linkAt_of_mem_linkDestinations hfound
  obtain ⟨rest, rfl, hclose⟩ := inlineTarget_parentheses htarget
  obtain ⟨hkeeps, honly⟩ := keepsTargets_of_escape cellChar_escape
  -- The spaces around the text are rendered as themselves.
  have hcell : (' ' :: shownText value ++ [' ']).flatMap cellChar =
      before ++ ']' :: '(' :: rest := by
    rw [← hsplit, markdownCell_shownText, List.flatMap_append]
    rfl
  have hshown : ∀ char ∈ ' ' :: shownText value ++ [' '], cellChar char ≠ [] := by
    intro char hchar
    simp only [List.mem_cons, List.mem_append, List.not_mem_nil, or_false] at hchar
    obtain (rfl | hchar) | rfl := hchar
    · exact List.cons_ne_nil _ _
    · exact cellChar_ne_nil char hchar
    · exact List.cons_ne_nil _ _
  obtain ⟨front, back, htext, rfl, rfl⟩ := hkeeps.split hshown hcell
  apply hvalue (spellsLink_of_padded htext ?_ ?_)
  · obtain ⟨char, hchar, hin⟩ := List.mem_flatMap.mp hopener
    exact honly char '[' rfl hin ▸ hchar
  · obtain ⟨char, hchar, hin⟩ := List.mem_flatMap.mp hclose
    exact honly char ')' rfl hin ▸ hchar

/-! ## References -/

/-- What follows a target of the report itself: an accepted URL and its parenthesis. -/
def AcceptedTarget (after : List Char) : Prop :=
  ∃ url tail, after = url ++ ')' :: tail ∧ isSafeMarkdownUrl url = true ∧
    leavesEscape false url = false

theorem AcceptedTarget.append {after : List Char} (hafter : AcceptedTarget after)
    (back : List Char) : AcceptedTarget (after ++ back) := by
  obtain ⟨url, tail, rfl, hsafe, hclosed⟩ := hafter
  exact ⟨url, tail ++ back, by simp, hsafe, hclosed⟩

/-- Accepted targets stay accepted side by side, unless a link is closed at the edge. -/
theorem targets_append {front back : List Char} (hfront : Targets AcceptedTarget front)
    (hback : Targets AcceptedTarget back)
    (hedge : front.getLast? = some ']' → back.head? ≠ some '(') :
    Targets AcceptedTarget (front ++ back) :=
  (hfront.mono fun _ hafter => hafter.append back).append hback hedge

/-- The part of an accepted URL before its first space is accepted too. -/
theorem isSafeMarkdownUrl_takeWhile {url : List Char} (hurl : isSafeMarkdownUrl url = true) :
    isSafeMarkdownUrl (url.takeWhile (· ≠ ' ')) = true := by
  have hbegin : ∀ scheme : List Char, (∀ char ∈ scheme, char ≠ ' ') →
      scheme.isPrefixOf url = true → scheme.isPrefixOf (url.takeWhile (· ≠ ' ')) = true := by
    intro scheme hscheme hbegins
    obtain ⟨rest, rfl⟩ := List.isPrefixOf_iff_prefix.mp hbegins
    rw [List.isPrefixOf_iff_prefix, List.takeWhile_append_of_pos (by simpa using hscheme)]
    exact List.prefix_append _ _
  simp only [isSafeMarkdownUrl, Bool.and_eq_true, Bool.or_eq_true, Bool.not_eq_true',
    List.any_eq_false] at hurl ⊢
  constructor
  · exact hurl.1.imp (hbegin _ (by simp)) (hbegin _ (by simp))
  · exact fun char hchar => hurl.2 char (List.takeWhile_sublist _ |>.subset hchar)

/-- The target that the report writes has an accepted destination. -/
theorem AcceptedTarget.safe {after found behind : List Char} (hafter : AcceptedTarget after)
    (htarget : inlineTarget ('(' :: after) = some (found, behind)) :
    isSafeMarkdownUrl found = true := by
  obtain ⟨url, tail, rfl, hsafe, hclosed⟩ := hafter
  have hchars : ∀ char ∈ url, isControl char = false ∧ char ≠ '(' ∧ char ≠ ')' := by
    intro char hchar
    obtain ⟨hcontrol, hother⟩ := not_mem_of_isSafeMarkdownUrl hsafe hchar
    simp only [List.mem_cons, not_or] at hother
    exact ⟨hcontrol, hother.2.2.1, hother.2.2.2.1⟩
  have hfirst : ∀ first ∈ url.head?, first ≠ '<' ∧ isBlank first = false := by
    intro first hfirst
    have hscheme : first = 'h' := by
      simp only [isSafeMarkdownUrl, Bool.and_eq_true, Bool.or_eq_true] at hsafe
      obtain hbegins | hbegins := hsafe.1
      all_goals
        obtain ⟨rest, rfl⟩ := List.isPrefixOf_iff_prefix.mp hbegins
        simpa [eq_comm] using hfirst
    subst hscheme
    decide
  rw [destination_of_inlineTarget hfirst hchars hclosed htarget]
  exact isSafeMarkdownUrl_takeWhile hsafe

/-- The only target of a rendered URL is the one in front of it. -/
theorem targets_target {url : List Char} (hsafe : isSafeMarkdownUrl url = true)
    (hclosed : leavesEscape false url = false) :
    Targets AcceptedTarget ([']', '('] ++ (url ++ [')'])) := by
  intro before after hsplit
  cases before with
  | nil =>
      simp only [List.cons_append, List.nil_append, List.cons.injEq, true_and] at hsplit
      exact ⟨url, [], hsplit.symm, hsafe, hclosed⟩
  | cons first before =>
      cases before with
      | nil => simp at hsplit
      | cons second before =>
          simp only [List.cons_append, List.nil_append, List.cons.injEq] at hsplit
          have hparen : '(' ∈ url ++ [')'] := by simp [hsplit.2.2]
          obtain hin | hin := List.mem_append.mp hparen
          · exact absurd (by decide) (not_mem_of_isSafeMarkdownUrl hsafe hin).2
          · cases List.mem_singleton.mp hin

/-- A rendered reference has accepted targets if its id has none and its URL leaves no escape. -/
theorem targets_renderReference {reference : SpecReference}
    (hid : NoTarget (shownText reference.id))
    (hurl : ∀ url ∈ reference.url, isSafeMarkdownUrl url.toList = true →
      leavesEscape false url.toList = false) :
    Targets AcceptedTarget (renderReference reference) := by
  have hcell := noTarget_markdownCell hid
  unfold renderReference
  split
  next url heq =>
    split
    next hsafe =>
      have hopen : Targets AcceptedTarget (['['] ++ markdownCell reference.id.toList) := by
        apply targets_append
        · exact (noTarget_of_not_mem (by decide)).targets
        · exact hcell.targets
        · exact fun hlast => by cases hlast
      have htarget := targets_target hsafe (hurl url heq hsafe)
      rw [List.append_assoc, List.append_assoc]
      exact targets_append hopen htarget fun _ hhead => by cases hhead
    next =>
      apply targets_append hcell.targets
      · exact (noTarget_of_not_mem (by decide)).targets
      · exact fun _ => by decide
  next => exact hcell.targets

theorem targets_intercalate {parts : List (List Char)}
    (hparts : ∀ part ∈ parts, Targets AcceptedTarget part) :
    Targets AcceptedTarget ("<br>".toList.intercalate parts) := by
  have hbreak : Targets AcceptedTarget "<br>".toList := (noTarget_of_not_mem (by decide)).targets
  induction parts with
  | nil => exact (noTarget_of_not_mem List.not_mem_nil).targets
  | cons part rest ih =>
      have hpart := hparts part List.mem_cons_self
      have hrest := ih fun other hother => hparts other (List.mem_cons_of_mem _ hother)
      cases rest with
      | nil => simpa using hpart
      | cons next rest =>
          rw [List.intercalate_cons_cons]
          apply targets_append ?_ hrest
          · intro hlast
            simp at hlast
          · exact targets_append hpart hbreak fun _ hhead => by cases hhead

/-- References rendered side by side have accepted targets if each has. -/
theorem targets_renderReferences {references : List SpecReference}
    (hreferences : ∀ reference ∈ references,
      Targets AcceptedTarget (renderReference reference)) :
    Targets AcceptedTarget (' ' :: renderReferences references ++ [' ']) := by
  have hspace : Targets AcceptedTarget [' '] := (noTarget_of_not_mem (by decide)).targets
  have hbody : Targets AcceptedTarget (renderReferences references) := by
    unfold renderReferences
    split
    · exact (noTarget_of_not_mem (by decide)).targets
    · apply targets_intercalate
      intro part hpart
      obtain ⟨reference, hin, rfl⟩ := List.mem_map.mp hpart
      exact hreferences reference hin
  apply targets_append ?_ hspace
  · exact fun _ hhead => by cases hhead
  · exact targets_append hspace hbody fun hlast => by cases hlast

/-- Every link of a text whose targets are the report's own is accepted. -/
theorem safe_of_targets {text : List Char} (htext : Targets AcceptedTarget text) :
    ∀ found ∈ linkDestinations text, isSafeMarkdownUrl found = true := by
  intro found hfound
  obtain ⟨before, after, behind, rfl, htarget, -⟩ := linkAt_of_mem_linkDestinations hfound
  obtain ⟨rest, rfl, -⟩ := inlineTarget_parentheses htarget
  exact (htext before rest rfl).safe htarget

/-! ## Code spans -/

/-- Escaping adds no backtick to a code span. -/
theorem tick_not_mem_markdownCode {value : List Char} (hvalue : '\x60' ∉ value) :
    '\x60' ∉ markdownCode value := by
  rw [markdownCode_eq]
  intro htick
  obtain ⟨char, hchar, hin⟩ := List.mem_flatMap.mp htick
  unfold codeChar at hin
  split_ifs at hin with hsame
  · exact hvalue (hsame ▸ hchar)
  · simp at hin
  · exact hvalue (List.mem_singleton.mp hin ▸ hchar)

/-- A code span after a text without brackets has no link target. -/
theorem noTarget_code {front value : List Char} (hfront : ']' ∉ front)
    (hvalue : NoTarget (markdownCode value)) :
    NoTarget (front ++ '\x60' :: markdownCode value ++ ['\x60']) := by
  have hopen : NoTarget (front ++ ['\x60']) := noTarget_of_not_mem (by simpa using hfront)
  rw [← List.singleton_append, ← List.append_assoc]
  apply (hopen.append hvalue ?_).append
  · exact noTarget_of_not_mem (by decide)
  · exact fun _ hhead => by cases hhead
  · intro hlast
    simp at hlast

/-- A code span at the end of a line hides its text, if no backtick of the text ends it. -/
theorem linkDestinations_code {front value : List Char}
    (hfront : ∀ char ∈ front, char ∉ ['\\', '\x60', '!', '[', ']'])
    (hvalue : '\x60' ∉ value ∨ NoTarget value) :
    linkDestinations (front ++ '\x60' :: markdownCode value ++ ['\x60']) = [] := by
  have hbracket : ']' ∉ front := fun hin => hfront ']' hin (by decide)
  by_cases hempty : markdownCode value = []
  · apply linkDestinations_of_noTarget
    apply noTarget_code hbracket
    rw [hempty]
    exact noTarget_of_not_mem List.not_mem_nil
  · obtain htick | hvalue := hvalue
    · rw [linkDestinations, List.append_assoc, scanLinks_ordinary hfront]
      exact scanLinks_code hempty (tick_not_mem_markdownCode htick) (by simp) []
    · exact linkDestinations_of_noTarget (noTarget_code hbracket (noTarget_markdownCode hvalue))

/-- Two backticks do not close a span that ends with one. -/
theorem codeSpan_two {front body : List Char} (hfront : '\x60' ∉ front) (hne : body ≠ [])
    (hbody : '\x60' ∉ body) : codeSpan 2 0 (front ++ '\x60' :: body ++ ['\x60']) = none := by
  rw [List.append_assoc, codeSpan_append Nat.two_pos hfront]
  cases body with
  | nil => exact absurd rfl hne
  | cons char body =>
      simp only [List.mem_cons, not_or] at hbody
      have hrest : codeSpan 2 0 (body ++ ['\x60']) = none := by
        rw [codeSpan_append Nat.two_pos hbody.2]
        rfl
      simp [codeSpan, hrest, Ne.symm hbody.1]

/-- The line about the fixture has no links. -/
theorem linkDestinations_fixture {front value revision : List Char}
    (hfront : ∀ char ∈ front, char ∉ ['\\', '\x60', '!', '[', ']'])
    (hvalues : ('\x60' ∉ value ∧ ('\x60' ∉ revision ∨ NoTarget revision)) ∨
      (NoTarget value ∧ NoTarget revision)) :
    linkDestinations (front ++ '\x60' :: markdownCode value ++
      '\x60' :: (" at ".toList ++ '\x60' :: markdownCode revision ++ ['\x60'])) = [] := by
  have hat : ∀ char ∈ " at ".toList, char ∉ ['\\', '\x60', '!', '[', ']'] := by simp
  have hnone : NoTarget (markdownCode value) → NoTarget (markdownCode revision) →
      linkDestinations (front ++ '\x60' :: markdownCode value ++
        '\x60' :: (" at ".toList ++ '\x60' :: markdownCode revision ++ ['\x60'])) = [] := by
    intro hvalue hrevision
    have hbracket : ']' ∉ front := fun hin => hfront ']' hin (by decide)
    apply linkDestinations_of_noTarget
    rw [List.append_cons _ '\x60']
    apply (noTarget_code hbracket hvalue).append (noTarget_code (by decide) hrevision)
    exact fun _ => by simp
  obtain ⟨htick, hrevision⟩ | ⟨hvalue, hrevision⟩ := hvalues
  · have hcode := tick_not_mem_markdownCode htick
    by_cases hempty : markdownCode value = []
    · obtain hshort | ⟨hlong, hticks⟩ : NoTarget (markdownCode revision) ∨
          (markdownCode revision ≠ [] ∧ '\x60' ∉ markdownCode revision) := by
        by_cases hlong : markdownCode revision = []
        · rw [hlong]
          exact .inl (noTarget_of_not_mem List.not_mem_nil)
        · exact hrevision.symm.imp noTarget_markdownCode
            fun hticks => ⟨hlong, tick_not_mem_markdownCode hticks⟩
      · apply hnone _ hshort
        rw [hempty]
        exact noTarget_of_not_mem List.not_mem_nil
      · -- The backticks around nothing are one run, which nothing closes.
        have hopen := @codeSpan_two " at ".toList _ (by decide) hlong hticks
        rw [hempty, linkDestinations, List.append_assoc, scanLinks_ordinary hfront,
          List.singleton_append, scanLinks_emptyCode (by simp) hopen]
        exact linkDestinations_code hat hrevision
    · rw [linkDestinations, List.append_assoc, scanLinks_ordinary hfront,
        scanLinks_code hempty hcode (by simp)]
      exact linkDestinations_code hat hrevision
  · exact hnone (noTarget_markdownCode hvalue) (noTarget_markdownCode hrevision)

/-! ## The report -/

/-- The lines of the title have no links. -/
theorem links_titleLines {report : ComparisonReport} (hreport : KeepsLinks report) :
    ∀ line ∈ titleLines report, line.head? ≠ some '|' ∧ linkDestinations line = [] := by
  have hnone : ∀ text : List Char, ']' ∉ text → linkDestinations text = [] := fun text htext =>
    linkDestinations_of_noTarget (noTarget_of_not_mem htext)
  have hversion := @linkDestinations_code "- Client specification: ".toList _ (by simp)
    hreport.clientVersion
  have hsuite := @linkDestinations_code "- Suite: ".toList _ (by simp) hreport.suite
  have hfixture := @linkDestinations_fixture "- Fixture source: ".toList _ _ (by simp)
    hreport.fixture
  have hera : ']' ∉ report.serverEra.label.toList := by cases report.serverEra <;> decide
  simp only [titleLines, List.forall_mem_cons]
  refine ⟨⟨?_, ?_⟩, ⟨?_, ?_⟩, ⟨?_, ?_⟩, ⟨?_, ?_⟩, ⟨?_, ?_⟩, ⟨?_, ?_⟩, ⟨?_, ?_⟩, ⟨?_, ?_⟩, ?_⟩
  · simp
  · apply hnone
    simp
  · simp
  · rfl
  · simp
  · apply hnone
    simp [officialConformancePackage]
  · simp
  · simpa using hversion
  · simp
  · apply hnone
    simpa using hera
  · simp
  · simpa using hsuite
  · simp
  · simpa using hfixture
  · simp
  · rfl
  · simp

/-- A row of cells without brackets has none. -/
theorem bracket_not_mem_tableRow {parts : List (List Char)} (hparts : ∀ part ∈ parts, ']' ∉ part) :
    ']' ∉ tableRow parts := by
  intro hin
  simp only [tableRow, List.mem_cons, List.mem_flatMap, List.mem_append, Char.reduceEq,
    List.not_mem_nil, false_or, or_false] at hin
  obtain ⟨part, hpart, hbracket⟩ := hin
  exact hparts part hpart hbracket

theorem bracket_not_mem_digits (count : Nat) : ']' ∉ Nat.toDigits 10 count := fun hin => by
  have hdigit := Nat.isDigit_of_mem_toDigits (by decide) (by decide) hin
  cases hdigit

/-- Only the title and the scenarios show texts that come with the results. -/
theorem reportLines_cases {report : ComparisonReport} {line : List Char}
    (hline : line ∈ reportLines report) :
    line ∈ titleLines report ∨ ']' ∉ line ∨
      ∃ scenario ∈ report.scenarios, line = scenarioRow scenario := by
  have hclassification : ∀ classification : ComparisonClassification,
      ']' ∉ classification.label.toList := by
    intro classification
    cases classification <;> decide
  have hconstant : ∀ lines : List (List Char), lines.all (·.all (· != ']')) = true →
      ∀ line ∈ lines, ']' ∉ line := by
    intro lines hlines line hline hin
    simpa using List.all_eq_true.mp (List.all_eq_true.mp hlines line hline) ']' hin
  simp only [reportLines, summaryLines, List.mem_append, List.mem_cons, List.mem_map] at hline
  obtain (((((htitle | htarget) | ⟨summary, hsummary, rfl⟩) | hheading) | ⟨count, -, rfl⟩) |
    hscenarios) | hheader | hrule | ⟨scenario, hscenario, rfl⟩ := hline
  · exact .inl htitle
  · exact .inr (.inl (hconstant targetHeading (by decide +kernel) line htarget))
  · obtain ⟨target, htarget, rfl⟩ := List.mem_map.mp hsummary
    have hlabel := hconstant (targetOutcomes.map (·.label.toList)) (by decide +kernel) _
      (List.mem_map_of_mem htarget)
    refine .inr (.inl (bracket_not_mem_tableRow ?_))
    simp [ComparisonReport.targetSummary, hlabel, bracket_not_mem_digits]
  · exact .inr (.inl (hconstant summaryHeading (by decide +kernel) line hheading))
  · refine .inr (.inl (bracket_not_mem_tableRow ?_))
    simp [hclassification, bracket_not_mem_digits]
  · refine .inr (.inl ?_)
    obtain rfl | rfl | rfl | hnone := hscenarios
    · exact List.not_mem_nil
    · decide
    · exact List.not_mem_nil
    · cases hnone
  · rw [hheader]
    exact .inr (.inl (by decide +kernel))
  · rw [hrule]
    exact .inr (.inl (by decide +kernel))
  · exact .inr (.inr ⟨scenario, (List.mem_insertionSort _).mp hscenario, rfl⟩)

/-- The links in a scenario's row are those of its references. -/
theorem links_scenarioRow {report : ComparisonReport} (hreport : KeepsLinks report)
    {scenario : ScenarioComparison} (hscenario : scenario ∈ report.scenarios) :
    ∀ cell ∈ cells (scenarioRow scenario), ∀ found ∈ linkDestinations cell,
      isSafeMarkdownUrl found = true := by
  have hplain : ∀ text : List Char, ']' ∉ text → ∀ found ∈ linkDestinations (' ' :: text ++ [' ']),
      isSafeMarkdownUrl found = true := by
    intro text htext found hfound
    rw [linkDestinations_of_noTarget (noTarget_of_not_mem (by simpa using htext))] at hfound
    cases hfound
  have houtcome : ∀ outcome : ScenarioOutcome, ']' ∉ outcome.label.toList := by
    intro outcome
    cases outcome <;> decide
  have hclassification : ']' ∉ scenario.classification.label.toList := by
    cases scenario.classification <;> decide
  have hreferences : Targets AcceptedTarget
      (' ' :: renderReferences scenario.specReferences ++ [' ']) := by
    apply targets_renderReferences
    intro reference hreference
    exact targets_renderReference (hreport.ids scenario hscenario reference hreference)
      (hreport.urls scenario hscenario reference hreference)
  have hparts := fitsCell_scenarioParts scenario
  intro cell hcell
  rw [scenarioRow, cells_tableRow fun part hpart => (hparts part hpart).plain] at hcell
  simp only [scenarioParts, List.map_cons, List.map_nil, List.cons_append, List.nil_append,
    List.mem_cons, List.not_mem_nil, or_false] at hcell
  obtain rfl | rfl | rfl | rfl | rfl | rfl | rfl | rfl := hcell
  · exact fun found hfound => by cases hfound
  · have hname := linkDestinations_nameCell (hreport.names scenario hscenario)
    intro found hfound
    rw [← List.cons_append, hname] at hfound
    cases hfound
  · exact hplain _ (houtcome _)
  · exact hplain _ (houtcome _)
  · exact hplain _ (houtcome _)
  · exact hplain _ hclassification
  · exact safe_of_targets hreferences
  · exact fun found hfound => by cases hfound

/-- Every link of the rendered report leads to an accepted URL. -/
def LinksSafe (report : ComparisonReport) : Prop :=
  ∀ text ∈ inlineTexts (renderComparisonMarkdown report).toList,
    ∀ found ∈ linkDestinations text, isSafeMarkdownUrl found = true

/-- The links of a report are those of its lines and cells. -/
theorem linksSafe_iff {report : ComparisonReport} : LinksSafe report ↔
    ∀ line ∈ reportLines report ++ [[]],
      ∀ text ∈ if line.head? = some '|' then cells line else [line],
        ∀ found ∈ linkDestinations text, isSafeMarkdownUrl found = true := by
  simp only [LinksSafe, inlineTexts, physicalLines_renderComparisonMarkdown, List.mem_flatMap]
  grind

instance (report : ComparisonReport) : Decidable (LinksSafe report) :=
  decidable_of_iff _ linksSafe_iff.symm

/-- Only the lines of the title and of the scenarios have links that could be unsafe. -/
theorem linksSafe_of_rows {report : ComparisonReport}
    (htitle : ∀ line ∈ titleLines report, line.head? ≠ some '|' ∧ linkDestinations line = [])
    (hrows : ∀ scenario ∈ report.scenarios, ∀ cell ∈ cells (scenarioRow scenario),
      ∀ found ∈ linkDestinations cell, isSafeMarkdownUrl found = true) : LinksSafe report := by
  rw [linksSafe_iff]
  intro line hline text hin
  obtain hline | hline := List.mem_append.mp hline
  · obtain hshown | hbracket | ⟨scenario, hscenario, rfl⟩ := reportLines_cases hline
    · obtain ⟨hpipe, hnone⟩ := htitle line hshown
      rw [if_neg hpipe, List.mem_singleton] at hin
      subst hin
      intro found hfound
      rw [hnone] at hfound
      cases hfound
    · have hnone := @noTarget_of_inlineTexts [line] (by simpa using hbracket) text
        (by simpa using hin)
      intro found hfound
      rw [linkDestinations_of_noTarget hnone] at hfound
      cases hfound
    · exact hrows scenario hscenario text hin
  · -- Nothing follows the last line feed.
    rw [List.mem_singleton] at hline
    subst hline
    rw [if_neg (by simp), List.mem_singleton] at hin
    subst hin
    exact fun found hfound => by cases hfound

/-- A report whose texts spell no link has safe links only. -/
theorem linksSafe_of_keepsLinks {report : ComparisonReport} (hreport : KeepsLinks report) :
    LinksSafe report :=
  linksSafe_of_rows (links_titleLines hreport) fun _ hscenario =>
    links_scenarioRow hreport hscenario

/-! ## Names that spell a link -/

/-- Characters that a cell shows as they are and that end neither a label nor a
destination. -/
def isOrdinary (char : Char) : Bool :=
  !isControl char && char ∉ ['\\', '|', '<', '>', '[', ']', '(', ')', '!', '\x60', ' ']

theorem cellChar_of_isOrdinary {char : Char} (hchar : isOrdinary char = true) :
    cellChar char = [char] := by
  simp only [isOrdinary, Bool.and_eq_true, Bool.not_eq_true', decide_eq_true_eq, List.mem_cons,
    not_or] at hchar
  obtain ⟨hcontrol, hslash, hpipe, hless, hgreater, -⟩ := hchar
  have hreturn : char ≠ '\r' := by
    rintro rfl
    cases hcontrol
  have hfeed : char ≠ '\n' := by
    rintro rfl
    cases hcontrol
  simp [cellChar, hslash, hpipe, hreturn, hfeed, hless, hgreater]

theorem markdownCell_of_isOrdinary {text : List Char} (htext : text.all isOrdinary = true) :
    markdownCell text = text := by
  rw [markdownCell_eq]
  induction text with
  | nil => rfl
  | cons char rest ih =>
      rw [List.all_cons, Bool.and_eq_true] at htext
      rw [List.flatMap_cons, cellChar_of_isOrdinary htext.1, ih htext.2, List.singleton_append]

def linkName (label destination : List Char) : String :=
  String.ofList ('[' :: label ++ ']' :: '(' :: destination ++ [')'])

/-- The escape of a text is that of its parts, side by side. -/
theorem markdownCell_append (front back : List Char) :
    markdownCell (front ++ back) = markdownCell front ++ markdownCell back := by
  simp [markdownCell_eq]

/-- A name can spell a link to any destination. -/
theorem mem_linkDestinations_linkName {label destination : List Char}
    (hlabel : label.all isOrdinary = true) (hdestination : destination.all isOrdinary = true) :
    destination ∈ linkDestinations
      (' ' :: markdownCell (linkName label destination).toList ++ [' ']) := by
  have hcell : markdownCell (linkName label destination).toList =
      '[' :: (label ++ ']' :: '(' :: (destination ++ [')'])) := by
    have hsplit : (linkName label destination).toList =
        ['['] ++ label ++ [']', '('] ++ destination ++ [')'] := by simp [linkName]
    rw [hsplit]
    simp only [markdownCell_append, markdownCell_of_isOrdinary hlabel,
      markdownCell_of_isOrdinary hdestination]
    simp [markdownCell_eq, cellChar]
  have hspecial : ∀ char ∈ label, char ∉ ['\\', '\x60', '!', '[', ']'] := by
    intro char hchar
    have hordinary := List.all_eq_true.mp hlabel char hchar
    simp_all [isOrdinary]
  have hchars : ∀ char ∈ destination,
      isControl char = false ∧ char ∉ ['(', ')', '\\', '<', ' '] := by
    intro char hchar
    have hordinary := List.all_eq_true.mp hdestination char hchar
    simp_all [isOrdinary]
  have htarget := inlineTarget_of_forall [' '] hchars
  have hline : ' ' :: '[' :: (label ++ ']' :: '(' :: (destination ++ [')'])) ++ [' '] =
      [' '] ++ '[' :: (label ++ ']' :: '(' :: (destination ++ ')' :: [' '])) := by simp
  rw [hcell, linkDestinations, hline, scanLinks_ordinary (by simp), scanLinks_open,
    scanLinks_ordinary hspecial]
  exact mem_scanLinks_close htarget []

theorem nameCell_mem_inlineTexts {report : ComparisonReport} {scenario : ScenarioComparison}
    (hscenario : scenario ∈ report.scenarios) :
    ' ' :: markdownCell scenario.scenario.toList ++ [' '] ∈
      inlineTexts (renderComparisonMarkdown report).toList := by
  have hline : scenarioRow scenario ∈ reportLines report := by
    have hsorted : scenario ∈ report.sortedScenarios := (List.mem_insertionSort _).mpr hscenario
    simp only [reportLines, List.mem_append, List.mem_cons]
    exact .inr (.inr (.inr (List.mem_map_of_mem hsorted)))
  have hparts := fitsCell_scenarioParts scenario
  rw [inlineTexts, physicalLines_renderComparisonMarkdown, List.mem_flatMap]
  refine ⟨scenarioRow scenario, List.mem_append_left _ hline, ?_⟩
  have hpipe : (scenarioRow scenario).head? = some '|' := rfl
  rw [if_pos hpipe, scenarioRow, cells_tableRow fun part hpart => (hparts part hpart).plain]
  simp [scenarioParts]

/-- Every link of the report leads to an accepted URL, if no text of its names and
references spells a target, no accepted URL ends in a backslash that escapes its closing
parenthesis, and no text of the title ends its code span in front of a target. A name
that spells a link takes the report wherever it says. -/
theorem renderComparisonMarkdown_links (report : ComparisonReport) :
    (KeepsLinks report → LinksSafe report) ∧
      ∀ scenario ∈ report.scenarios, ∀ label destination : List Char,
        label.all isOrdinary = true → destination.all isOrdinary = true →
        scenario.scenario = linkName label destination →
        LinksSafe report → isSafeMarkdownUrl destination = true := by
  constructor
  · exact linksSafe_of_keepsLinks
  · intro scenario hscenario label destination hlabel hdestination hname hsafe
    have hlink := mem_linkDestinations_linkName hlabel hdestination
    rw [← hname] at hlink
    exact hsafe _ (nameCell_mem_inlineTexts hscenario) destination hlink

/-- A report on one scenario. -/
def sampleReport (scenario : String) (references : List SpecReference) : ComparisonReport where
  clientVersion := defaultMcpSpecVersion
  serverEra := .modern
  suite := defaultConformanceSuite
  fixture := officialFixture
  scenarios := [{
    scenario := scenario
    fixture := .compliant
    fixtureFailedChecks := 0
    builtInDataPlane := .compliant
    builtInDataPlaneFailedChecks := 0
    externalDataPlane := .compliant
    externalDataPlaneFailedChecks := 0
    classification := .allCompliant
    specReferences := references }]

theorem not_spellsLink_of_noTarget {value : String} (hvalue : NoTarget (shownText value)) :
    ¬SpellsLink value := by
  rintro ⟨before, after, hsplit, -⟩
  exact hvalue ⟨before, after, by simp [hsplit]⟩

theorem renderComparisonMarkdown_links_sample :
    LinksSafe (sampleReport "server-tools" [⟨"MCP", some "https://a.example/[x]", .empty⟩]) ∧
      isSafeMarkdownUrl "https://a.example".toList = true := by
  constructor
  · apply (renderComparisonMarkdown_links _).1
    constructor
    · simp only [sampleReport, List.forall_mem_singleton]
      exact not_spellsLink_of_noTarget (by decide +kernel)
    · simp only [sampleReport, List.forall_mem_singleton]
      decide +kernel
    · simp only [sampleReport, List.forall_mem_singleton, Option.mem_some_iff, forall_eq']
      decide +kernel
    · decide +kernel
    · decide +kernel
    · decide +kernel
  · apply (renderComparisonMarkdown_links
      (sampleReport (linkName ['x'] "https://a.example".toList) [])).2 _ List.mem_cons_self ['x']
    · rfl
    · decide +kernel
    · rfl
    · apply linksSafe_of_rows
      · decide +kernel
      · simp only [sampleReport, List.forall_mem_singleton]
        decide +kernel

theorem renderComparisonMarkdown_links_forged :
    ¬LinksSafe (sampleReport "[x](javascript:alert(1))" []) := by
  intro hsafe
  have hlink : "javascript:alert(1)".toList ∈
      linkDestinations (' ' :: markdownCell "[x](javascript:alert(1))".toList ++ [' ']) := by
    decide +kernel
  have haccepted := hsafe _ (nameCell_mem_inlineTexts List.mem_cons_self) _ hlink
  exact absurd haccepted (by decide +kernel)

/-- The backslash at the end of the URL escapes the parenthesis behind it. -/
example : linkDestinations
    (renderReferences [⟨"a", some "https://a\\", .empty⟩, ⟨")", none, .empty⟩]) =
      ["https://a\\)<br>".toList] := by
  decide +kernel

/-- The backslash before a backtick does not keep a code span open. -/
example : linkDestinations ('\x60' :: markdownCode "` [x](javascript:1) `".toList ++ ['\x60']) =
    ["javascript:1".toList] := by
  decide +kernel

end CfIntegration.Conformance
