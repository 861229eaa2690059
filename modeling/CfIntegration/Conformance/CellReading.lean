import CfIntegration.Conformance.Comparison

/-! # Reading a cell back

What a reader sees in a cell of the report. The entities of a text are not escaped, and
the break put in for a line feed is escaped once more, so some texts are shown as
others.
-/

namespace CfIntegration.Conformance

/-- The text of a cell: a backslash before a backslash or a pipe goes, the entities are
decoded, and a break is a line feed. -/
def readCell : List Char → List Char
  | [] => []
  | '\\' :: '\\' :: rest => '\\' :: readCell rest
  | '\\' :: '|' :: rest => '|' :: readCell rest
  | '&' :: 'l' :: 't' :: ';' :: rest => '<' :: readCell rest
  | '&' :: 'g' :: 't' :: ';' :: rest => '>' :: readCell rest
  | '<' :: 'b' :: 'r' :: '>' :: rest => '\n' :: readCell rest
  | char :: rest => char :: readCell rest

/-- A text that no character and no entity of it makes look like another. -/
structure Faithful (text : List Char) : Prop where
  lineFeed : '\n' ∉ text
  lessThan : ¬"&lt;".toList <:+: text
  greaterThan : ¬"&gt;".toList <:+: text

theorem markdownCell_cons (char : Char) (rest : List Char) :
    markdownCell (char :: rest) = cellChar char ++ markdownCell rest := by
  rw [markdownCell_eq, markdownCell_eq, List.flatMap_cons]

/-- The text begins with an entity. -/
def beginsEntity (text : List Char) : Prop :=
  "&lt;".toList <+: text ∨ "&gt;".toList <+: text

/-- A text is faithful if its first character is no line feed and begins no entity, and the rest
is. -/
theorem faithful_cons {char : Char} {rest : List Char} :
    Faithful (char :: rest) ↔ char ≠ '\n' ∧ ¬beginsEntity (char :: rest) ∧ Faithful rest := by
  constructor
  · intro hfaithful
    refine ⟨?_, ?_, ?_, ?_, ?_⟩
    · exact fun heq => hfaithful.lineFeed (by simp [heq])
    · intro hbegins
      obtain hless | hgreater := hbegins
      · exact hfaithful.lessThan hless.isInfix
      · exact hfaithful.greaterThan hgreater.isInfix
    · exact fun hin => hfaithful.lineFeed (List.mem_cons_of_mem _ hin)
    · exact fun hin => hfaithful.lessThan (hin.trans (List.suffix_cons _ _).isInfix)
    · exact fun hin => hfaithful.greaterThan (hin.trans (List.suffix_cons _ _).isInfix)
  · intro ⟨hchar, hbegins, hrest⟩
    constructor
    · simp only [List.mem_cons, not_or]
      exact ⟨Ne.symm hchar, hrest.lineFeed⟩
    · intro hin
      obtain hstart | hlater := List.infix_cons_iff.mp hin
      · exact hbegins (.inl hstart)
      · exact hrest.lessThan hlater
    · intro hin
      obtain hstart | hlater := List.infix_cons_iff.mp hin
      · exact hbegins (.inr hstart)
      · exact hrest.greaterThan hlater

/-- What a character is escaped to begins with a backslash or an entity. -/
theorem cellChar_cases (char : Char) : char = '\r' ∨ cellChar char = [char] ∨
    ∃ first others, cellChar char = first :: others ∧ (first = '\\' ∨ first = '&') := by
  unfold cellChar
  split_ifs with hslash hpipe hreturn
  · exact .inr (.inr ⟨_, _, rfl, .inl rfl⟩)
  · exact .inr (.inr ⟨_, _, rfl, .inl rfl⟩)
  · exact .inl hreturn
  · exact .inr (.inr ⟨_, _, rfl, .inr rfl⟩)
  · exact .inr (.inr ⟨_, _, rfl, .inr rfl⟩)
  · exact .inr (.inr ⟨_, _, rfl, .inr rfl⟩)
  · exact .inr (.inl rfl)

/-- Letters of an entity are shown as they are, and nothing else is shown as one. -/
theorem markdownCell_eq_cons {shown : Char} (hshown : shown ∈ ['l', 'g', 't', ';'])
    {text more : List Char} (htext : '\r' ∉ text) (hcell : markdownCell text = shown :: more) :
    ∃ rest, text = shown :: rest ∧ more = markdownCell rest := by
  cases text with
  | nil => cases hcell
  | cons char rest =>
      have hreturn : char ≠ '\r' := fun heq => htext (by simp [heq])
      rw [markdownCell_cons] at hcell
      obtain hdropped | hsame | ⟨first, others, hescape, hfirst⟩ := cellChar_cases char
      · exact absurd hdropped hreturn
      · rw [hsame] at hcell
        cases hcell
        exact ⟨rest, rfl, rfl⟩
      · rw [hescape, List.cons_append, List.cons.injEq] at hcell
        obtain ⟨rfl, -⟩ := hcell
        obtain rfl | rfl := hfirst
        · exact absurd hshown (by decide)
        · exact absurd hshown (by decide)

/-- The rest of an entity is in the cell exactly when it is in the text. -/
theorem entity_of_markdownCell {first : Char} (hfirst : first ∈ ['l', 'g', 't', ';'])
    {text more : List Char} (htext : '\r' ∉ text)
    (hcell : markdownCell text = first :: 't' :: ';' :: more) :
    ∃ rest, text = first :: 't' :: ';' :: rest := by
  obtain ⟨second, rfl, hsecond⟩ := markdownCell_eq_cons hfirst htext hcell
  simp only [List.mem_cons, not_or] at htext
  obtain ⟨third, rfl, hthird⟩ := markdownCell_eq_cons (by decide) htext.2 hsecond.symm
  simp only [List.mem_cons, not_or] at htext
  obtain ⟨rest, rfl, -⟩ := markdownCell_eq_cons (by decide) htext.2.2 hthird.symm
  exact ⟨rest, rfl⟩

/-- A character without a meaning of its own is read as itself. -/
theorem readCell_cons {char : Char} (hslash : char ≠ '\\') (hentity : char ≠ '&')
    (hbreak : char ≠ '<') (rest : List Char) : readCell (char :: rest) = char :: readCell rest := by
  rw [readCell.eq_7]
  · exact fun _ heq _ => hslash heq
  · exact fun _ heq _ => hslash heq
  · exact fun _ heq _ => hentity heq
  · exact fun _ heq _ => hentity heq
  · exact fun _ heq _ => hbreak heq

/-- A character that begins nothing special is read back as itself. -/
theorem readCell_markdownCell_cons {char : Char} {rest : List Char}
    (htext : '\r' ∉ char :: rest) (hfeed : char ≠ '\n')
    (hentity : ¬beginsEntity (char :: rest)) :
    readCell (markdownCell (char :: rest)) = char :: readCell (markdownCell rest) := by
  simp only [List.mem_cons, not_or] at htext
  rw [markdownCell_cons]
  unfold cellChar
  split_ifs with hslash hpipe hreturn hless hgreater
  · subst hslash
    rfl
  · subst hpipe
    rfl
  · exact absurd hreturn (Ne.symm htext.1)
  · subst hless
    rfl
  · subst hgreater
    rfl
  · by_cases hamp : char = '&'
    · subst hamp
      rw [List.singleton_append, readCell.eq_7]
      · exact fun _ heq _ => by cases heq
      · exact fun _ heq _ => by cases heq
      · intro more _ hcell
        apply hentity
        obtain ⟨rest, rfl⟩ := entity_of_markdownCell (by decide) htext.2 hcell
        exact .inl ⟨rest, rfl⟩
      · intro more _ hcell
        apply hentity
        obtain ⟨rest, rfl⟩ := entity_of_markdownCell (by decide) htext.2 hcell
        exact .inr ⟨rest, rfl⟩
      · exact fun _ heq _ => by cases heq
    · exact readCell_cons hslash hamp hless _

/-- A line feed and the beginning of an entity are read back as something else. -/
theorem head_readCell_ne {char : Char} {rest : List Char}
    (hchar : char = '\n' ∨ beginsEntity (char :: rest)) :
    (readCell (markdownCell (char :: rest))).head? ≠ some char := by
  obtain rfl | ⟨more, hless⟩ | ⟨more, hgreater⟩ := hchar
  · intro hhead
    rw [markdownCell_cons] at hhead
    cases hhead
  · cases hless
    intro hhead
    simp only [markdownCell_cons] at hhead
    cases hhead
  · cases hgreater
    intro hhead
    simp only [markdownCell_cons] at hhead
    cases hhead

/-- A text without carriage returns is read back from its cell if and only if it has no
line feed and no entity; no two such texts look the same. -/
theorem readCell_markdownCell (text : List Char) (htext : '\r' ∉ text) :
    (readCell (markdownCell text) = text ↔ Faithful text) ∧
      (Faithful text → ∀ other, '\r' ∉ other → Faithful other →
        readCell (markdownCell text) = readCell (markdownCell other) → text = other) := by
  have hread : ∀ text : List Char, '\r' ∉ text →
      (readCell (markdownCell text) = text ↔ Faithful text) := by
    intro text htext
    induction text with
    | nil =>
        constructor
        · exact fun _ => ⟨by simp, by decide, by decide⟩
        · exact fun _ => rfl
    | cons char rest ih =>
        have hrest := ih fun hin => htext (List.mem_cons_of_mem _ hin)
        rw [faithful_cons, ← hrest]
        by_cases hspecial : char = '\n' ∨ beginsEntity (char :: rest)
        · have hne := head_readCell_ne hspecial
          constructor
          · intro heq
            rw [heq] at hne
            exact absurd rfl hne
          · intro ⟨hfeed, hentity, _⟩
            exact absurd hspecial (not_or.mpr ⟨hfeed, hentity⟩)
        · rw [not_or] at hspecial
          rw [readCell_markdownCell_cons htext hspecial.1 hspecial.2, List.cons.injEq]
          simp [hspecial]
  constructor
  · exact hread text htext
  · intro hfaithful other hother hsame heq
    rwa [(hread text htext).mpr hfaithful, (hread other hother).mpr hsame] at heq

theorem readCell_markdownCell_plain :
    (readCell (markdownCell "a\\|<b>".toList) = "a\\|<b>".toList ↔ Faithful "a\\|<b>".toList) ∧
      (Faithful "a\\|<b>".toList → ∀ other, '\r' ∉ other → Faithful other →
        readCell (markdownCell "a\\|<b>".toList) = readCell (markdownCell other) →
          "a\\|<b>".toList = other) :=
  readCell_markdownCell _ (by decide)

/-- A line feed is shown as the text of a break, and an entity as what it stands for. -/
theorem readCell_markdownCell_collision :
    ¬∀ text : List Char, '\r' ∉ text → readCell (markdownCell text) = text := by
  intro hall
  have hfeed := hall "a\nb".toList (by decide)
  revert hfeed
  decide

example : markdownCell "a\nb".toList = "a&lt;br&gt;b".toList ∧
    readCell (markdownCell "a\nb".toList) = readCell (markdownCell "a<br>b".toList) ∧
    readCell (markdownCell "&lt;".toList) = readCell (markdownCell "<".toList) := by
  decide

end CfIntegration.Conformance
