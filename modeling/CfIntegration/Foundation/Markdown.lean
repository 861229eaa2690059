import Mathlib.Data.List.Basic

/-! # Lines and table cells of Markdown

A Markdown text is read a line at a time, and a line of a table a cell at a time. A
backslash takes its meaning from the character behind it, so a pipe behind one does
not end a cell.
-/

namespace CfIntegration.Markdown

def isLineEnd (char : Char) : Bool := char = '\n' || char = '\r'

def physicalLines (text : List Char) : List (List Char) := text.splitOnP isLineEnd

/-- A text that does not end its line. -/
def OneLine (text : List Char) : Prop := ∀ char ∈ text, isLineEnd char = false

theorem OneLine.of_all {text : List Char} (htext : text.all (!isLineEnd ·) = true) :
    OneLine text := by
  intro char hchar
  simpa using List.all_eq_true.mp htext char hchar

/-- Texts on one line stay there side by side. -/
theorem OneLine.append {front back : List Char} (hfront : OneLine front)
    (hback : OneLine back) : OneLine (front ++ back) := by
  intro char hchar
  obtain hin | hin := List.mem_append.mp hchar
  · exact hfront char hin
  · exact hback char hin

/-- Lines that each end with a line feed. -/
def unlines (lines : List (List Char)) : List Char := lines.flatMap (· ++ ['\n'])

/-- Lines without line ends are the physical lines of their text. -/
theorem physicalLines_unlines {lines : List (List Char)}
    (hlines : ∀ line ∈ lines, OneLine line) :
    physicalLines (unlines lines) = lines ++ [[]] := by
  induction lines with
  | nil => rfl
  | cons line rest ih =>
      have hline := hlines line List.mem_cons_self
      have hrest := ih fun other hother => hlines other (List.mem_cons_of_mem _ hother)
      rw [unlines, List.flatMap_cons, List.append_assoc, List.singleton_append]
      rw [physicalLines, List.splitOnP_append_cons_of_forall_mem hline '\n' rfl]
      exact congrArg (line :: ·) hrest

/-- Put a text in front of the first cell. -/
def joinFirst (front : List Char) : List (List Char) → List (List Char)
  | [] => [front]
  | first :: others => (front ++ first) :: others

/-- The texts between the pipes that no backslash escapes. -/
def cells : List Char → List (List Char)
  | [] => [[]]
  | '\\' :: char :: rest => joinFirst ['\\', char] (cells rest)
  | '|' :: rest => [] :: cells rest
  | char :: rest => joinFirst [char] (cells rest)

theorem joinFirst_append (front back : List Char) (others : List (List Char)) :
    joinFirst (front ++ back) others = joinFirst front (joinFirst back others) := by
  cases others <;> simp [joinFirst]

/-- Every text has a cell. -/
theorem cells_ne_nil (text : List Char) : cells text ≠ [] := by
  fun_induction cells text with
  | case1 => simp
  | case2 char rest ih => cases hcells : cells rest <;> simp [joinFirst]
  | case3 rest ih => simp
  | case4 char rest _ _ ih => cases hcells : cells rest <;> simp [joinFirst]

/-- A text that neither ends a cell nor takes the meaning of what follows it. -/
def Plain (text : List Char) : Prop := ∀ rest, cells (text ++ rest) = joinFirst text (cells rest)

theorem plain_nil : Plain [] := by
  intro rest
  have hne := cells_ne_nil rest
  cases hcells : cells rest with
  | nil => exact absurd hcells hne
  | cons => simp [joinFirst, hcells]

/-- Plain texts stay plain side by side. -/
theorem Plain.append {front back : List Char} (hfront : Plain front) (hback : Plain back) :
    Plain (front ++ back) := by
  intro rest
  rw [List.append_assoc, hfront, hback, joinFirst_append]

/-- A text rendered from plain parts is plain. -/
theorem plain_flatMap {α : Type} {items : List α} {render : α → List Char}
    (hitems : ∀ item ∈ items, Plain (render item)) : Plain (items.flatMap render) := by
  induction items with
  | nil => exact plain_nil
  | cons item rest ih =>
      rw [List.flatMap_cons]
      apply (hitems item List.mem_cons_self).append
      exact ih fun other hother => hitems other (List.mem_cons_of_mem _ hother)

theorem plain_singleton {char : Char} (hbackslash : char ≠ '\\') (hpipe : char ≠ '|') :
    Plain [char] := by
  intro rest
  rw [List.singleton_append, cells.eq_4]
  · exact fun _ _ hchar _ => hbackslash hchar
  · exact hpipe

/-- An escaped character is plain. -/
theorem plain_escaped (char : Char) : Plain ['\\', char] := fun _ => rfl

/-- A text without backslashes and pipes. -/
theorem plain_of_forall {text : List Char}
    (htext : ∀ char ∈ text, char ≠ '\\' ∧ char ≠ '|') : Plain text := by
  have hflat : text = text.flatMap ([·]) := by simp
  rw [hflat]
  exact plain_flatMap fun char hchar => plain_singleton (htext char hchar).1 (htext char hchar).2

/-- A last character that is no pipe takes the meaning of a backslash before it. -/
theorem plain_concat {text : List Char} (htext : '|' ∉ text) {last : Char}
    (hbackslash : last ≠ '\\') (hpipe : last ≠ '|') : Plain (text ++ [last]) := by
  fun_induction cells text with
  | case1 => exact plain_singleton hbackslash hpipe
  | case2 char rest ih =>
      simp only [List.mem_cons, not_or] at htext
      exact (plain_escaped char).append (ih htext.2.2)
  | case3 rest ih => simp at htext
  | case4 char rest hescape hchar ih =>
      simp only [List.mem_cons, not_or] at htext
      by_cases hslash : char = '\\'
      · subst hslash
        -- A backslash that begins no pair is the last character of the text.
        cases rest with
        | nil => exact plain_escaped last
        | cons next rest => exact absurd rfl (hescape next rest rfl)
      · exact (plain_singleton hslash hchar).append (ih htext.2)

/-- One row of a table, a pipe at both ends. -/
def tableRow (parts : List (List Char)) : List Char :=
  '|' :: parts.flatMap fun part => ' ' :: part ++ [' ', '|']

/-- A row of plain parts is read as these parts, between two empty cells. -/
theorem cells_tableRow {parts : List (List Char)} (hparts : ∀ part ∈ parts, Plain part) :
    cells (tableRow parts) = [] :: parts.map (fun part => ' ' :: part ++ [' ']) ++ [[]] := by
  have hbody : cells (parts.flatMap fun part => ' ' :: part ++ [' ', '|']) =
      parts.map (fun part => ' ' :: part ++ [' ']) ++ [[]] := by
    induction parts with
    | nil => rfl
    | cons part rest ih =>
        have hspace : Plain [' '] := plain_singleton (by decide) (by decide)
        have hpart := (hspace.append (hparts part List.mem_cons_self)).append hspace
        have hrest := ih fun other hother => hparts other (List.mem_cons_of_mem _ hother)
        have hsplit : (part :: rest).flatMap (fun part => ' ' :: part ++ [' ', '|']) =
            ([' '] ++ part ++ [' ']) ++ '|' ::
              rest.flatMap fun part => ' ' :: part ++ [' ', '|'] := by simp
        rw [hsplit, hpart, cells.eq_3, hrest]
        simp [joinFirst]
  rw [tableRow, cells.eq_3, hbody]
  rfl

/-- A row has two cells more than its parts. -/
theorem length_cells_tableRow {parts : List (List Char)} (hparts : ∀ part ∈ parts, Plain part) :
    (cells (tableRow parts)).length = parts.length + 2 := by
  simp [cells_tableRow hparts]

/-- Nothing but the parts decides whether a row is one line. -/
theorem oneLine_tableRow {parts : List (List Char)} (hparts : ∀ part ∈ parts, OneLine part) :
    OneLine (tableRow parts) := by
  intro char hchar
  simp only [tableRow, List.mem_cons, List.mem_flatMap, List.mem_append] at hchar
  obtain rfl | ⟨part, hpart, (rfl | hin) | rfl | rfl | hnone⟩ := hchar
  · rfl
  · rfl
  · exact hparts part hpart char hin
  · rfl
  · rfl
  · cases hnone

end CfIntegration.Markdown
