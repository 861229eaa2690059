import Mathlib.Data.List.Dedup
import Mathlib.Data.List.DropRight

/-! # Lines and trimmed texts

Texts as lists of characters, split into lines in the two ways the programs do it:
at line feeds only, a carriage return before one belonging to it, or at every
character that Unicode counts as a line boundary. The last accepted item of a list
only depends on where each item stands for the last time.
-/

namespace CfIntegration.Text

/-- A test of the items of a list runs over the list, also where the type is finite. -/
scoped instance (priority := high) decidableForallMem {α : Type} (p : α → Prop)
    [DecidablePred p] (items : List α) : Decidable (∀ item ∈ items, p item) :=
  List.decidableBAll p items

section Trim

variable (space : Char → Bool)

def trim (text : List Char) : List Char := (text.dropWhile space).rdropWhile space

@[simp] theorem trim_nil : trim space [] = [] := rfl

/-- Trimming depends on the characters of the text only. -/
theorem trim_congr {space other : Char → Bool} {text : List Char}
    (hsame : ∀ char ∈ text, space char = other char) : trim space text = trim other text := by
  have hdrop : ∀ part : List Char, (∀ char ∈ part, space char = other char) →
      part.dropWhile space = part.dropWhile other := by
    intro part hpart
    induction part with
    | nil => rfl
    | cons char part ih =>
        rw [List.dropWhile_cons, List.dropWhile_cons, hpart char List.mem_cons_self,
          ih fun later hlater => hpart later (List.mem_cons_of_mem char hlater)]
  unfold trim List.rdropWhile
  rw [hdrop text hsame, hdrop _ fun char hchar =>
    hsame char ((List.dropWhile_sublist other).subset (List.mem_reverse.mp hchar))]

variable {space}

/-- A blank at the end is trimmed. -/
theorem trim_concat {char : Char} (hspace : space char = true) (text : List Char) :
    trim space (text ++ [char]) = trim space text := by
  unfold trim
  rw [List.dropWhile_append]
  split
  next hempty =>
    rw [List.isEmpty_iff] at hempty
    simp [hempty, hspace]
  next => exact List.rdropWhile_concat_pos _ _ _ hspace

/-- Trimming again changes nothing. -/
theorem trim_trim (text : List Char) : trim space (trim space text) = trim space text := by
  have hdrop : (trim space text).dropWhile space = trim space text := by
    rw [List.dropWhile_eq_self_iff]
    intro hlength
    obtain ⟨tail, htail⟩ := List.rdropWhile_prefix (text.dropWhile space) (p := space)
    have hhead : (text.dropWhile space)[0]? = some (trim space text)[0] := by
      rw [← htail]
      change (trim space text ++ tail)[0]? = _
      rw [List.getElem?_append_left hlength]
      exact List.getElem?_eq_getElem hlength
    obtain ⟨hbound, hget⟩ := List.getElem?_eq_some_iff.mp hhead
    have hstart := List.dropWhile_get_zero_not space text hbound
    simpa [← hget] using hstart
  rw [trim, hdrop]
  exact List.rdropWhile_idempotent _ _

end Trim

def stripPrefix (start line : List Char) : Option (List Char) :=
  if start.isPrefixOf line then some (line.drop start.length) else none

/-- A prefix is stripped where the text begins with it. -/
theorem stripPrefix_eq_some {start line rest : List Char} :
    stripPrefix start line = some rest ↔ line = start ++ rest := by
  unfold stripPrefix
  split
  next hbegins =>
    obtain ⟨tail, rfl⟩ := List.isPrefixOf_iff_prefix.mp hbegins
    simp
  next hbegins =>
    refine ⟨nofun, fun hline => absurd ?_ hbegins⟩
    exact List.isPrefixOf_iff_prefix.mpr ⟨rest, hline.symm⟩

/-- A line without the carriage return that belongs to its line feed. -/
def stripCarriageReturn (line : List Char) : List Char :=
  if line.getLast? = some '\r' then line.dropLast else line

/-- A line without carriage returns stays as it is. -/
theorem stripCarriageReturn_of_not_mem {line : List Char} (hline : '\r' ∉ line) :
    stripCarriageReturn line = line :=
  if_neg fun hlast => hline (List.mem_of_getLast? hlast)

/-- `str::lines`, with the line read so far. -/
def linesFrom (current : List Char) : List Char → List (List Char)
  | [] => if current = [] then [] else [current]
  | char :: rest =>
      if char = '\n' then stripCarriageReturn current :: linesFrom [] rest
      else linesFrom (current ++ [char]) rest

/-- The lines of Rust's `str::lines`. -/
def lines (text : List Char) : List (List Char) := linesFrom [] text

/-- A text without line feeds goes on with the line. -/
theorem linesFrom_append {line : List Char} (hline : '\n' ∉ line) (current rest : List Char) :
    linesFrom current (line ++ rest) = linesFrom (current ++ line) rest := by
  induction line generalizing current with
  | nil => rw [List.nil_append, List.append_nil]
  | cons char others ih =>
      rw [List.mem_cons, not_or] at hline
      rw [List.cons_append, linesFrom, if_neg fun hfeed => hline.1 hfeed.symm, ih hline.2]
      simp

/-- A text without line feeds is one line. -/
theorem lines_single {line : List Char} (hline : '\n' ∉ line) (hne : line ≠ []) :
    lines line = [line] := by
  have hfrom := linesFrom_append hline [] []
  rw [List.append_nil, List.nil_append] at hfrom
  rw [lines, hfrom, linesFrom, if_neg hne]

/-- A line that does not end in a carriage return is kept as it is. -/
theorem lines_append_of_getLast? {line : List Char} (hfeed : '\n' ∉ line)
    (hlast : line.getLast? ≠ some '\r') (rest : List Char) :
    lines (line ++ '\n' :: rest) = line :: lines rest := by
  rw [lines, linesFrom_append hfeed, List.nil_append, linesFrom, if_pos rfl,
    stripCarriageReturn, if_neg hlast]
  rfl

/-- A line that ends in a line feed, and the rest. -/
theorem lines_append {line : List Char} (hfeed : '\n' ∉ line) (hreturn : '\r' ∉ line)
    (rest : List Char) : lines (line ++ '\n' :: rest) = line :: lines rest :=
  lines_append_of_getLast? hfeed (fun hlast => hreturn (List.mem_of_getLast? hlast)) rest

/-- The characters at which Python ends a line. -/
def isLineBoundary (char : Char) : Bool :=
  char ∈ ['\n', '\r', '\x0b', '\x0c', '\x1c', '\x1d', '\x1e', '\u0085', '\u2028', '\u2029']

/-- `str.splitlines`, with the line read so far. -/
def splitlinesFrom (current : List Char) : List Char → List (List Char)
  | [] => if current = [] then [] else [current]
  | '\r' :: '\n' :: rest => current :: splitlinesFrom [] rest
  | char :: rest =>
      if isLineBoundary char then current :: splitlinesFrom [] rest
      else splitlinesFrom (current ++ [char]) rest

/-- The lines of Python's `str.splitlines`. -/
def splitlines (text : List Char) : List (List Char) := splitlinesFrom [] text

/-- The only line boundaries are line feeds, with or without a carriage return before
them, and a carriage return at the very end. -/
def CommonBoundaries : List Char → Prop
  | [] => True
  | ['\r'] => True
  | '\r' :: '\n' :: rest => CommonBoundaries rest
  | char :: rest => (char = '\n' ∨ isLineBoundary char = false) ∧ CommonBoundaries rest

/-- Where the lines of both programs begin to differ: not at all, or in a carriage
return at the end of the last line. -/
def SameLines (first second : List (List Char)) : Prop :=
  first = second ∨ ∃ front last, first = front ++ [last ++ ['\r']] ∧ second = front ++ [last]

/-- The same first line keeps the lines the same. -/
theorem SameLines.cons {first second : List (List Char)} (hsame : SameLines first second)
    (line : List Char) : SameLines (line :: first) (line :: second) := by
  rcases hsame with rfl | ⟨front, last, rfl, rfl⟩
  · exact .inl rfl
  · exact .inr ⟨line :: front, last, rfl, rfl⟩

theorem stripCarriageReturn_concat (line : List Char) :
    stripCarriageReturn (line ++ ['\r']) = line := by
  simp [stripCarriageReturn]

/-- With the common boundaries only, both functions find the same lines. -/
theorem sameLines_from {text : List Char} (hcommon : CommonBoundaries text)
    {current : List Char} (hcurrent : '\r' ∉ current) :
    SameLines (linesFrom current text) (splitlinesFrom current text) := by
  induction text using CommonBoundaries.induct generalizing current with
  | case1 => exact .inl rfl
  | case2 => exact .inr ⟨[], current, by simp [linesFrom], rfl⟩
  | case3 rest ih =>
      have hlines : linesFrom current ('\r' :: '\n' :: rest) = current :: linesFrom [] rest := by
        simp [linesFrom, stripCarriageReturn_concat]
      rw [hlines, splitlinesFrom]
      exact (ih hcommon List.not_mem_nil).cons current
  | case4 char rest hlone hpair ih =>
      rw [CommonBoundaries] at hcommon
      · obtain ⟨hchar, hrest⟩ := hcommon
        rw [linesFrom, splitlinesFrom]
        · rcases hchar with rfl | hinner
          · rw [if_pos rfl, if_pos (by decide), stripCarriageReturn_of_not_mem hcurrent]
            exact (ih hrest List.not_mem_nil).cons current
          · have hfeed : char ≠ '\n' := by
              rintro rfl
              exact absurd hinner (by decide)
            have hreturn : '\r' ≠ char := by
              rintro rfl
              exact absurd hinner (by decide)
            rw [if_neg hfeed, if_neg (by simp [hinner])]
            exact ih hrest (by simp [hcurrent, hreturn])
        · exact hpair
      · exact hlone
      · exact hpair

/-- Where only the common boundaries occur both programs see the same lines. -/
theorem sameLines_of_common {text : List Char} (hcommon : CommonBoundaries text) :
    SameLines (lines text) (splitlines text) :=
  sameLines_from hcommon List.not_mem_nil

section LastAccepted

variable {α β : Type} (accept : α → Option β)

def lastAccepted (items : List α) : Option β := (items.filterMap accept).getLast?

theorem lastAccepted_cons (item : α) (items : List α) :
    lastAccepted accept (item :: items) = (lastAccepted accept items).or (accept item) := by
  unfold lastAccepted
  cases hitem : accept item with
  | none => rw [List.filterMap_cons_none hitem, Option.or_none]
  | some value =>
      rw [List.filterMap_cons_some hitem, List.getLast?_cons]
      cases (items.filterMap accept).getLast? <;> rfl

theorem lastAccepted_isSome {items : List α} {item : α} (hmem : item ∈ items)
    (haccept : (accept item).isSome) : (lastAccepted accept items).isSome := by
  obtain ⟨value, hvalue⟩ := Option.isSome_iff_exists.mp haccept
  have hne : items.filterMap accept ≠ [] :=
    List.ne_nil_of_mem (List.mem_filterMap.mpr ⟨item, hmem, hvalue⟩)
  rw [lastAccepted, List.getLast?_eq_some_getLast hne, Option.isSome_some]

/-- Repeated items do not change which one is accepted last. -/
theorem lastAccepted_dedup [DecidableEq α] (items : List α) :
    lastAccepted accept items.dedup = lastAccepted accept items := by
  induction items with
  | nil => rfl
  | cons item rest ih =>
      rw [List.dedup_cons, lastAccepted_cons]
      split
      next hmem =>
        rw [ih]
        cases hitem : accept item with
        | none => rw [Option.or_none]
        | some value =>
            have hsome := lastAccepted_isSome accept hmem (by rw [hitem, Option.isSome_some])
            obtain ⟨last, hlast⟩ := Option.isSome_iff_exists.mp hsome
            rw [hlast, Option.some_or]
      next => rw [lastAccepted_cons, ih]

end LastAccepted

section Words

variable {α : Type} (space : α → Bool)

def wordsFrom (current : List α) : List α → List (List α)
  | [] => if current = [] then [] else [current]
  | letter :: rest =>
      if space letter then
        if current = [] then wordsFrom [] rest else current :: wordsFrom [] rest
      else wordsFrom (current ++ [letter]) rest

/-- The maximal parts without a space. -/
def words (text : List α) : List (List α) := wordsFrom space [] text

variable {space}

/-- Characters that are no blanks go on with the word. -/
theorem wordsFrom_append {word : List α} (hword : ∀ letter ∈ word, space letter = false)
    (current rest : List α) :
    wordsFrom space current (word ++ rest) = wordsFrom space (current ++ word) rest := by
  induction word generalizing current with
  | nil => rw [List.nil_append, List.append_nil]
  | cons letter word ih =>
      have hletter : ¬ space letter = true := by simp [hword letter List.mem_cons_self]
      rw [List.cons_append, wordsFrom, if_neg hletter,
        ih fun other hother => hword other (List.mem_cons_of_mem letter hother)]
      simp

end Words

section SplitOnce

variable {α : Type} [DecidableEq α] (separator : List α)

/-- The texts before and after the first occurrence. -/
def splitOnce : List α → Option (List α × List α)
  | [] => if separator = [] then some ([], []) else none
  | letter :: rest =>
      if separator.isPrefixOf (letter :: rest) then
        some ([], (letter :: rest).drop separator.length)
      else (splitOnce rest).map fun halves => (letter :: halves.1, halves.2)

/-- What lies before the first occurrence, or everything if there is none. -/
def upTo (text : List α) : List α := ((splitOnce separator text).map Prod.fst).getD text

@[simp] theorem upTo_nil : upTo separator [] = [] := by
  unfold upTo splitOnce
  split <;> rfl

variable {separator}

/-- Nothing comes before a separator at the beginning. -/
theorem upTo_of_begins {letter : α} {rest : List α} (hbegins : separator <+: letter :: rest) :
    upTo separator (letter :: rest) = [] := by
  rw [upTo, splitOnce, if_pos (List.isPrefixOf_iff_prefix.mpr hbegins)]
  rfl

/-- A letter where no separator begins is kept. -/
theorem upTo_cons {letter : α} {rest : List α} (hbegins : ¬ separator <+: letter :: rest) :
    upTo separator (letter :: rest) = letter :: upTo separator rest := by
  rw [upTo, upTo, splitOnce, if_neg (by rwa [List.isPrefixOf_iff_prefix])]
  cases splitOnce separator rest <;> rfl

/-- A text without the separator's first letter is passed over. -/
theorem upTo_append {first : α} {others before : List α} (hfirst : first ∉ before)
    (rest : List α) :
    upTo (first :: others) (before ++ rest) = before ++ upTo (first :: others) rest := by
  induction before with
  | nil => rfl
  | cons letter before ih =>
      rw [List.mem_cons, not_or] at hfirst
      rw [List.cons_append, upTo_cons, ih hfirst.2, List.cons_append]
      exact fun hbegins => hfirst.1 (List.cons_prefix_cons.mp hbegins).1

/-- A text is split at the first letter that is the separator. -/
theorem splitOnce_eq_some {letter : α} {text before after : List α} :
    splitOnce [letter] text = some (before, after) ↔
      text = before ++ letter :: after ∧ letter ∉ before := by
  induction text generalizing before with
  | nil => simp [splitOnce]
  | cons first rest ih =>
      rw [splitOnce]
      by_cases hfirst : first = letter
      · subst hfirst
        rw [if_pos (by simp)]
        cases before with
        | nil => simp
        | cons other before =>
            simp only [List.cons_append, List.cons.injEq, List.mem_cons, not_or]
            exact ⟨nofun, fun ⟨⟨hsame, _⟩, hother, _⟩ => absurd hsame hother⟩
      · rw [if_neg (by simpa using fun hsame => hfirst hsame.symm), Option.map_eq_some_iff]
        cases before with
        | nil => simpa using fun hsame => absurd hsame hfirst
        | cons other before =>
            constructor
            · rintro ⟨⟨others, tail⟩, hsplit, heq⟩
              cases heq
              obtain ⟨rfl, hnot⟩ := ih.mp hsplit
              exact ⟨rfl, List.not_mem_cons_of_ne_of_not_mem (Ne.symm hfirst) hnot⟩
            · rintro ⟨heq, hnot⟩
              obtain ⟨rfl, rfl⟩ := List.cons.inj heq
              exact ⟨(before, after), ih.mpr ⟨rfl, fun hmem => hnot (List.mem_cons_of_mem _ hmem)⟩,
                rfl⟩

end SplitOnce

/-- The codes of letters and digits. -/
theorem isAlphanum_code {char : Char} (hchar : char.isAlphanum = true) :
    (65 ≤ char.toNat ∧ char.toNat ≤ 90 ∨ 97 ≤ char.toNat ∧ char.toNat ≤ 122) ∨
      48 ≤ char.toNat ∧ char.toNat ≤ 57 := by
  have hcodes : ((decide (char.val ≥ 65 ∧ char.val ≤ 90) ||
      (decide (char.val ≥ 97) && decide (char.val ≤ 122))) ||
        (decide (char.val ≥ 48) && decide (char.val ≤ 57))) = true := hchar
  simpa [UInt32.le_iff_toNat_le] using hcodes

/-- Two lists without repetition in which every choice of items has the same last one
are the same. -/
theorem eq_of_getLast?_filter {α : Type} [DecidableEq α] {first second : List α}
    (hfirst : first.Nodup) (hsecond : second.Nodup)
    (hsame : ∀ chosen : α → Bool,
      (first.filter chosen).getLast? = (second.filter chosen).getLast?) : first = second := by
  induction first using List.reverseRecOn generalizing second with
  | nil =>
      have hall := hsame fun _ => true
      simpa using hall.symm
  | append_singleton front last ih =>
      have hall := hsame fun _ => true
      simp only [List.filter_true, List.getLast?_concat] at hall
      obtain ⟨other, rfl⟩ := List.getLast?_eq_some_iff.mp hall.symm
      rw [List.nodup_append] at hfirst hsecond
      refine congrArg (· ++ [last]) (ih hfirst.1 hsecond.1 fun chosen => ?_)
      have hothers := hsame fun item => chosen item && item != last
      have hwithout : ∀ items : List α, (∀ item ∈ items, ∀ other ∈ [last], item ≠ other) →
          (items ++ [last]).filter (fun item => chosen item && item != last) =
            items.filter chosen := by
        intro items hitems
        rw [List.filter_append, List.filter_singleton]
        simp only [bne_self_eq_false, Bool.and_false, cond_false, List.append_nil]
        refine List.filter_congr fun item hitem => ?_
        rw [bne_iff_ne.mpr (hitems item hitem last (List.mem_singleton_self last)), Bool.and_true]
      rwa [hwithout front hfirst.2.2, hwithout other hsecond.2.2] at hothers

/-- Every letter comes from the separator or from a text. -/
theorem mem_intercalate {α : Type} {separator : List α} {texts : List (List α)} {letter : α}
    (hletter : letter ∈ separator.intercalate texts) :
    letter ∈ separator ∨ ∃ text ∈ texts, letter ∈ text := by
  induction texts with
  | nil => cases hletter
  | cons text texts ih =>
      cases texts with
      | nil => exact .inr ⟨text, List.mem_singleton_self text, by simpa using hletter⟩
      | cons next texts =>
          rw [List.intercalate_cons_cons, List.mem_append, List.mem_append] at hletter
          rcases hletter with (hletter | hletter) | hletter
          · exact .inr ⟨text, List.mem_cons_self, hletter⟩
          · exact .inl hletter
          · exact (ih hletter).imp_right fun ⟨found, hfound, hmem⟩ =>
              ⟨found, List.mem_cons_of_mem text hfound, hmem⟩

end CfIntegration.Text
