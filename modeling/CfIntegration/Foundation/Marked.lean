import CfIntegration.Foundation.Overlap
import CfIntegration.Foundation.Text
import CfIntegration.Foundation.Url
import CfIntegration.Foundation.Utf8

/-! # Texts with a word left open

A form is a text in which some letters stand for a word that is not known, or for its
beginning. What a program makes of the filled form is worked out on the form itself:
cutting, decoding, spacing and replacing all leave the open places where they are, as
long as the word is nothing but a word to them.
-/

namespace CfIntegration.Marked

open Overlap Text

universe u

/-- A letter, or as many letters of the word as the length says. -/
inductive Letter (α : Type u) where
  | plain (letter : α)
  | part (length : Nat)
  deriving DecidableEq, Repr

abbrev Form (α : Type u) := List (Letter α)

section Forms

variable {α : Type} {word other : List α}

def Letter.fill (word : List α) : Letter α → List α
  | .plain letter => [letter]
  | .part length => word.take length

def fill (word : List α) (form : Form α) : List α := form.flatMap (Letter.fill word)

@[simp] theorem fill_nil : fill word [] = [] := rfl

@[simp] theorem fill_cons (letter : Letter α) (form : Form α) :
    fill word (letter :: form) = letter.fill word ++ fill word form := List.flatMap_cons

@[simp] theorem fill_append (first second : Form α) :
    fill word (first ++ second) = fill word first ++ fill word second := List.flatMap_append

/-- A form without parts of the word is its text. -/
@[simp] theorem fill_plain (text : List α) : fill word (text.map Letter.plain) = text := by
  induction text with
  | nil => rfl
  | cons letter text ih => rw [List.map_cons, fill_cons, ih]; rfl

/-- The parts are not empty, and not longer than the word. -/
def Within (length : Nat) (form : Form α) : Prop :=
  ∀ part, .part part ∈ form → 0 < part ∧ part ≤ length

theorem Within.tail {length : Nat} {letter : Letter α} {form : Form α}
    (hwithin : Within length (letter :: form)) : Within length form :=
  fun part hpart => hwithin part (List.mem_cons_of_mem letter hpart)

theorem Within.head {length part : Nat} {form : Form α}
    (hwithin : Within length (.part part :: form)) : 0 < part ∧ part ≤ length :=
  hwithin part List.mem_cons_self

theorem Within.append {length : Nat} {first second : Form α} (hfirst : Within length first)
    (hsecond : Within length second) : Within length (first ++ second) := fun part hpart =>
  (List.mem_append.mp hpart).elim (hfirst part) (hsecond part)

/-- A plain form has no parts. -/
theorem within_plain (length : Nat) (text : List α) : Within length (text.map Letter.plain) := by
  intro part hpart
  obtain ⟨_, _, heq⟩ := List.mem_map.mp hpart
  cases heq

theorem fill_part_ne_nil {part : Nat} (hpart : 0 < part ∧ part ≤ word.length) :
    word.take part ≠ [] := by
  rw [← List.length_pos_iff, List.length_take]
  omega

/-- A form is filled to nothing only where it is empty. -/
theorem fill_eq_nil {form : Form α} (hwithin : Within word.length form) :
    fill word form = [] ↔ form = [] := by
  cases form with
  | nil => simp
  | cons letter form =>
      cases letter with
      | plain letter => simp [Letter.fill]
      | part part => simp [Letter.fill, fill_part_ne_nil hwithin.head]

/-- A text in which `none` stands for the whole word, for words of one length. -/
def opened (length : Nat) (template : List (Option α)) : Form α :=
  template.map fun place => place.elim (.part length) .plain

theorem within_opened {length : Nat} (hlength : 0 < length) (template : List (Option α)) :
    Within length (opened length template) := by
  intro part hpart
  obtain ⟨place, _, heq⟩ := List.mem_map.mp hpart
  cases place with
  | none => cases heq; exact ⟨hlength, le_refl _⟩
  | some letter => cases heq

def Letter.width : Letter α → Nat
  | .plain _ => 1
  | .part length => length

def width (form : Form α) : Nat := (form.map Letter.width).sum

theorem Letter.length_fill {letter : Letter α} (hletter : Within word.length [letter]) :
    (letter.fill word).length = letter.width := by
  cases letter with
  | plain letter => rfl
  | part part => rw [Letter.fill, List.length_take, Nat.min_eq_left hletter.head.2]; rfl

theorem Within.single {length : Nat} {letter : Letter α} {form : Form α}
    (hwithin : Within length (letter :: form)) : Within length [letter] := fun part hpart =>
  hwithin part (List.mem_cons.mpr (.inl (List.mem_singleton.mp hpart)))

/-- A filled form is as long as the form is wide. -/
theorem length_fill {form : Form α} (hwithin : Within word.length form) :
    (fill word form).length = width form := by
  induction form with
  | nil => rfl
  | cons letter form ih =>
      rw [fill_cons, List.length_append, ih hwithin.tail, Letter.length_fill hwithin.single]
      rfl

/-- The beginning of a form; of a word that the limit falls inside, a part is left. -/
def cut : Form α → Nat → Form α
  | [], _ => []
  | _ :: _, 0 => []
  | .plain letter :: rest, limit + 1 => .plain letter :: cut rest limit
  | .part length :: rest, limit + 1 =>
      if limit + 1 < length then [.part (limit + 1)]
      else .part length :: cut rest (limit + 1 - length)

/-- Cutting a form cuts what it is filled to. -/
theorem fill_cut {form : Form α} (hwithin : Within word.length form) (limit : Nat) :
    fill word (cut form limit) = (fill word form).take limit := by
  induction form generalizing limit with
  | nil => simp [cut]
  | cons letter form ih =>
      cases limit with
      | zero => simp [cut]
      | succ limit =>
          cases letter with
          | plain letter => simp [cut, Letter.fill, ih hwithin.tail]
          | part part =>
              have hpart := hwithin.head
              have hlength : (word.take part).length = part := by
                rw [List.length_take, Nat.min_eq_left hpart.2]
              rw [cut, fill_cons, Letter.fill, List.take_append, hlength, List.take_take]
              split
              next hinside =>
                rw [Nat.min_eq_left hinside.le, Nat.sub_eq_zero_of_le hinside.le]
                simp [Letter.fill]
              next houtside =>
                rw [Nat.min_eq_right (Nat.le_of_not_lt houtside), fill_cons, ih hwithin.tail]
                rfl

/-- A cut form keeps to the word. -/
theorem within_cut {length : Nat} {form : Form α} (hwithin : Within length form) (limit : Nat) :
    Within length (cut form limit) := by
  induction form generalizing limit with
  | nil => simpa [cut] using hwithin
  | cons letter form ih =>
      cases limit with
      | zero => simp [cut, Within]
      | succ limit =>
          cases letter with
          | plain letter =>
              intro part hpart
              rcases List.mem_cons.mp hpart with heq | hpart
              · cases heq
              · exact ih hwithin.tail limit part hpart
          | part part =>
              have hhead := hwithin.head
              rw [cut]
              split
              next hinside =>
                intro only honly
                cases List.mem_singleton.mp honly
                omega
              next =>
                intro later hlater
                rcases List.mem_cons.mp hlater with heq | hlater
                · cases heq
                  exact hhead
                · exact ih hwithin.tail _ later hlater

theorem cut_of_width_le {form : Form α} {limit : Nat} (hwidth : width form ≤ limit) :
    (∀ part, .part part ∈ form → 0 < part) → cut form limit = form := by
  intro hparts
  induction form generalizing limit with
  | nil => rfl
  | cons letter form ih =>
      have htail := fun part hpart => hparts part (List.mem_cons_of_mem letter hpart)
      rw [width, List.map_cons, List.sum_cons] at hwidth
      cases letter with
      | plain letter =>
          rw [Letter.width] at hwidth
          obtain ⟨limit, rfl⟩ : ∃ less, limit = less + 1 := ⟨limit - 1, by omega⟩
          rw [cut, ih (by rw [width]; omega) htail]
      | part part =>
          have hpart := hparts part List.mem_cons_self
          rw [Letter.width] at hwidth
          obtain ⟨limit, rfl⟩ : ∃ less, limit = less + 1 := ⟨limit - 1, by omega⟩
          rw [cut, if_neg (by omega), ih (by rw [width]; omega) htail]

theorem cut_plain_append {text : List α} {limit : Nat} (htext : text.length ≤ limit)
    (form : Form α) :
    cut (text.map .plain ++ form) limit = text.map .plain ++ cut form (limit - text.length) := by
  induction text generalizing limit with
  | nil => rfl
  | cons letter text ih =>
      rw [List.length_cons] at htext
      obtain ⟨limit, rfl⟩ : ∃ less, limit = less + 1 := ⟨limit - 1, by omega⟩
      rw [List.map_cons, List.cons_append, cut, ih (by omega), List.length_cons,
        Nat.add_sub_add_right]
      rfl

/-- Two fillings by words of one length agree exactly when they agree in every part. -/
theorem flatMap_eq_iff {first second : Letter α → List α} {form : Form α}
    (hlength : ∀ letter ∈ form, (first letter).length = (second letter).length) :
    form.flatMap first = form.flatMap second ↔ ∀ letter ∈ form, first letter = second letter := by
  constructor
  · intro hsame
    induction form with
    | nil => nofun
    | cons letter form ih =>
        rw [List.flatMap_cons, List.flatMap_cons] at hsame
        have hparts := List.append_inj hsame (hlength letter List.mem_cons_self)
        intro other hother
        rcases List.mem_cons.mp hother with rfl | hother
        · exact hparts.1
        · exact ih (fun item hitem => hlength item (List.mem_cons_of_mem letter hitem))
            hparts.2 other hother
  · exact List.flatMap_congr

def Letter.map (change : α → α) : Letter α → Letter α
  | .plain letter => .plain (change letter)
  | .part length => .part length

/-- A change that spares the word commutes with filling. -/
theorem fill_map {change : α → α} (hword : ∀ letter ∈ word, change letter = letter)
    (form : Form α) : fill word (form.map (Letter.map change)) = (fill word form).map change := by
  induction form with
  | nil => rfl
  | cons letter form ih =>
      rw [List.map_cons, fill_cons, fill_cons, List.map_append, ih]
      cases letter with
      | plain letter => rfl
      | part part =>
          have hpart : (word.take part).map change = (word.take part).map id :=
            List.map_congr_left fun letter hletter => hword letter (List.mem_of_mem_take hletter)
          rw [List.map_id] at hpart
          rw [Letter.map, Letter.fill, hpart]

theorem within_map {length : Nat} (change : α → α) {form : Form α} (hwithin : Within length form) :
    Within length (form.map (Letter.map change)) := by
  intro part hpart
  obtain ⟨letter, hletter, heq⟩ := List.mem_map.mp hpart
  cases letter with
  | plain letter => cases heq
  | part later => cases heq; exact hwithin part hletter

def Letter.isSpace (space : α → Bool) : Letter α → Bool
  | .plain letter => space letter
  | .part _ => false

/-- Words that were begun are read around the parts. -/
theorem wordsFrom_fill {space : α → Bool} (hword : ∀ letter ∈ word, space letter = false)
    {current form : Form α} (hcurrent : Within word.length current)
    (hform : Within word.length form) :
    wordsFrom space (fill word current) (fill word form) =
      (wordsFrom (Letter.isSpace space) current form).map (fill word) := by
  induction form generalizing current with
  | nil =>
      simp only [fill_nil, wordsFrom, fill_eq_nil hcurrent]
      split <;> rfl
  | cons letter form ih =>
      cases letter with
      | plain letter =>
          rw [fill_cons, Letter.fill, List.singleton_append, wordsFrom, wordsFrom]
          by_cases hspace : space letter = true
          · have hrest := ih (within_plain _ []) hform.tail
            rw [List.map_nil, fill_nil] at hrest
            have hletter : Letter.isSpace space (.plain letter) = true := hspace
            rw [if_pos hspace, if_pos hletter, hrest]
            simp only [fill_eq_nil hcurrent]
            split <;> rfl
          · have hrest := ih (hcurrent.append (within_plain _ [letter])) hform.tail
            have hletter : ¬ Letter.isSpace space (.plain letter) = true := hspace
            rw [fill_append, fill_plain, List.map_singleton] at hrest
            rw [if_neg hspace, if_neg hletter, hrest]
      | part part =>
          have hpart : ∀ letter ∈ word.take part, space letter = false :=
            fun letter hletter => hword letter (List.mem_of_mem_take hletter)
          have hrest := ih (hcurrent.append hform.single) hform.tail
          rw [fill_append] at hrest
          rw [fill_cons, Letter.fill, wordsFrom_append hpart, wordsFrom]
          simpa [Letter.isSpace, Letter.fill] using hrest

/-- The words of a filled form are the filled words of the form. -/
theorem fill_words {space : α → Bool} (hword : ∀ letter ∈ word, space letter = false)
    {form : Form α} (hform : Within word.length form) :
    words space (fill word form) = (words (Letter.isSpace space) form).map (fill word) :=
  wordsFrom_fill hword (within_plain _ []) hform

/-- Joined forms are filled one by one. -/
theorem fill_intercalate (separator : List α) (forms : List (Form α)) :
    fill word ((separator.map Letter.plain).intercalate forms) =
      separator.intercalate (forms.map (fill word)) := by
  induction forms with
  | nil => rfl
  | cons form forms ih =>
      cases forms with
      | nil => simp
      | cons next forms =>
          rw [List.map_cons] at ih
          rw [List.intercalate_cons_cons, fill_append, fill_append, fill_plain, ih,
            List.map_cons, List.map_cons, List.intercalate_cons_cons]

theorem mem_wordsFrom {space : α → Bool} {current text found : List α} {letter : α}
    (hfound : found ∈ wordsFrom space current text) (hletter : letter ∈ found) :
    letter ∈ current ∨ letter ∈ text := by
  induction text generalizing current with
  | nil =>
      rw [wordsFrom] at hfound
      split at hfound
      · cases hfound
      · cases List.mem_singleton.mp hfound
        exact .inl hletter
  | cons head text ih =>
      have hrest : ∀ {start}, found ∈ wordsFrom space start text →
          letter ∈ start ∨ letter ∈ text := fun hmem => ih hmem
      rw [wordsFrom] at hfound
      split at hfound
      · split at hfound
        · exact .inr (List.mem_cons_of_mem head ((hrest hfound).resolve_left List.not_mem_nil))
        · rcases List.mem_cons.mp hfound with rfl | hfound
          · exact .inl hletter
          · exact .inr (List.mem_cons_of_mem head ((hrest hfound).resolve_left List.not_mem_nil))
      · rcases hrest hfound with hcurrent | htext
        · rcases List.mem_append.mp hcurrent with hcurrent | hhead
          · exact .inl hcurrent
          · exact .inr (List.mem_cons.mpr (.inl (List.mem_singleton.mp hhead)))
        · exact .inr (List.mem_cons_of_mem head htext)

section Separator

variable [DecidableEq α]

/-- What comes before a separator begins the text. -/
theorem upTo_begins (separator text : List α) : upTo separator text <+: text := by
  induction text with
  | nil => simp
  | cons letter text ih =>
      by_cases hbegins : separator <+: letter :: text
      · rw [upTo_of_begins hbegins]
        exact List.nil_prefix
      · rw [upTo_cons hbegins]
        exact List.cons_prefix_cons.mpr ⟨rfl, ih⟩

/-- Where a letter of the filled form begins the separator, the form itself has it. -/
def Shows (word separator : List α) : Form α → Prop
  | [] => True
  | letter :: rest =>
      (separator <+: fill word (letter :: rest) → separator.map .plain <+: letter :: rest) ∧
        Shows word separator rest

instance decidableShows (separator : List α) : DecidablePred (Shows word separator)
  | [] => inferInstanceAs (Decidable True)
  | letter :: rest =>
      have := decidableShows separator rest
      inferInstanceAs (Decidable
        ((separator <+: fill word (letter :: rest) → separator.map .plain <+: letter :: rest) ∧
          Shows word separator rest))

omit [DecidableEq α] in
/-- A separator whose first letter is in neither the word nor the form is not shown. -/
theorem shows_of_not_mem {first : α} {others : List α} (hfirst : first ∉ word) {form : Form α}
    (hwithin : Within word.length form) (hplain : .plain first ∉ form) :
    Shows word (first :: others) form := by
  induction form with
  | nil => exact trivial
  | cons letter form ih =>
      rw [List.mem_cons, not_or] at hplain
      refine ⟨fun hbegins => ?_, ih hwithin.tail hplain.2⟩
      cases letter with
      | plain letter =>
          exact absurd (congrArg Letter.plain (List.cons_prefix_cons.mp hbegins).1) hplain.1
      | part part =>
          obtain ⟨head, rest, hpart⟩ := List.exists_cons_of_ne_nil (fill_part_ne_nil hwithin.head)
          rw [fill_cons, Letter.fill, hpart] at hbegins
          have hhead : head ∈ word :=
            List.mem_of_mem_take (hpart ▸ List.mem_cons_self : head ∈ word.take part)
          exact absurd ((List.cons_prefix_cons.mp hbegins).1 ▸ hhead) hfirst

/-- What comes before a separator is filled as it stands. -/
theorem fill_upTo {first : α} {others : List α} (hfirst : first ∉ word) {form : Form α}
    (hwithin : Within word.length form) (hshows : Shows word (first :: others) form) :
    fill word (upTo ((first :: others).map .plain) form) =
      upTo (first :: others) (fill word form) := by
  induction form with
  | nil => simp
  | cons letter form ih =>
      have hrest := ih hwithin.tail hshows.2
      cases letter with
      | plain letter =>
          by_cases hform : (first :: others).map Letter.plain <+: .plain letter :: form
          · have hfilled : first :: others <+: letter :: fill word form := by
              obtain ⟨after, hafter⟩ := hform
              refine ⟨fill word after, ?_⟩
              have hfill := congrArg (fill word) hafter
              rwa [fill_append, fill_plain] at hfill
            rw [upTo_of_begins hform]
            exact (upTo_of_begins hfilled).symm
          · have hfilled : ¬ first :: others <+: letter :: fill word form := fun hbegins =>
              hform (hshows.1 hbegins)
            rw [upTo_cons hform, fill_cons, hrest]
            exact (upTo_cons hfilled).symm
      | part part =>
          have hform : ¬ (first :: others).map Letter.plain <+: .part part :: form := by
            rintro ⟨after, hafter⟩
            cases hafter
          have hpart : first ∉ word.take part := fun hmem => hfirst (List.mem_of_mem_take hmem)
          rw [upTo_cons hform, fill_cons, hrest, fill_cons, Letter.fill, upTo_append hpart]

end Separator

section Replacing

variable [DecidableEq α]

/-- The word begins nowhere but in its places. -/
def Free (word : List α) : Form α → Prop
  | [] => True
  | letter :: rest =>
      (letter ≠ .part word.length → ∀ skipped < (letter.fill word).length,
        ¬ word <+: (fill word (letter :: rest)).drop skipped) ∧ Free word rest

instance decidableFree : DecidablePred (Free word)
  | [] => inferInstanceAs (Decidable True)
  | letter :: rest =>
      have := decidableFree rest
      inferInstanceAs (Decidable
        ((letter ≠ .part word.length → ∀ skipped < (letter.fill word).length,
          ¬ word <+: (fill word (letter :: rest)).drop skipped) ∧ Free word rest))

omit [DecidableEq α] in
/-- The word does not begin what is filled to begin otherwise. -/
theorem not_prefix_fill {first : α} {others text : List α} (hfirst : first ∉ others)
    {form : Form α} (hwithin : Within (first :: others).length form)
    (hplain : ∀ letter ∈ first :: others, .plain letter ∉ form) (hne : text ≠ [])
    (htext : ∀ letter ∈ text, letter ∈ others) : ¬ text <+: fill (first :: others) form := by
  obtain ⟨head, text, rfl⟩ := List.exists_cons_of_ne_nil hne
  have hhead := htext head List.mem_cons_self
  intro hbegins
  cases form with
  | nil => simp at hbegins
  | cons letter form =>
      cases letter with
      | plain letter =>
          have hletter := (List.cons_prefix_cons.mp hbegins).1
          exact hplain head (List.mem_cons_of_mem first hhead)
            (hletter ▸ List.mem_cons_self)
      | part part =>
          obtain ⟨length, rfl⟩ : ∃ less, part = less + 1 :=
            ⟨part - 1, by have := hwithin.head; omega⟩
          have hletter := (List.cons_prefix_cons.mp hbegins).1
          exact hfirst (hletter ▸ hhead)

omit [DecidableEq α] in
/-- The form has no letter of the word, and the word has its first letter only once. -/
theorem free_of_not_mem {first : α} {others : List α} (hfirst : first ∉ others) {form : Form α}
    (hwithin : Within (first :: others).length form)
    (hplain : ∀ letter ∈ first :: others, .plain letter ∉ form) :
    Free (first :: others) form := by
  induction form with
  | nil => exact trivial
  | cons letter form ih =>
      have htail := fun other hother hmem => hplain other hother (List.mem_cons_of_mem letter hmem)
      refine ⟨fun hpart skipped hskipped hbegins => ?_, ih hwithin.tail htail⟩
      cases letter with
      | plain letter =>
          obtain rfl : skipped = 0 := Nat.lt_one_iff.mp hskipped
          have hletter := (List.cons_prefix_cons.mp hbegins).1
          exact hplain first List.mem_cons_self (by rw [hletter]; exact List.mem_cons_self)
      | part part =>
          have hlength := hwithin.head
          have hshort : part < (first :: others).length :=
            lt_of_le_of_ne hlength.2 fun heq => hpart (congrArg Letter.part heq)
          rw [Letter.fill, List.length_take, Nat.min_eq_left hlength.2] at hskipped
          obtain ⟨length, rfl⟩ : ∃ less, part = less + 1 := ⟨part - 1, by omega⟩
          rw [fill_cons, Letter.fill, List.take_succ_cons, List.cons_append] at hbegins
          rw [List.length_cons] at hshort
          cases skipped with
          | zero =>
              -- What the part leaves of the word would have to follow it.
              have hothers : others.take length ++ others.drop length <+:
                  others.take length ++ fill (first :: others) form := by
                rw [List.take_append_drop]
                exact (List.cons_prefix_cons.mp hbegins).2
              rw [List.prefix_append_right_inj] at hothers
              exact not_prefix_fill hfirst hwithin.tail htail
                (List.drop_eq_nil_iff.not.mpr (by omega)) (fun _ => List.mem_of_mem_drop) hothers
          | succ skipped =>
              rw [List.drop_succ_cons, List.drop_append_of_le_length
                (by rw [List.length_take]; omega)] at hbegins
              have hne : (others.take length).drop skipped ≠ [] :=
                List.drop_eq_nil_iff.not.mpr (by rw [List.length_take]; omega)
              obtain ⟨head, rest, hrest⟩ := List.exists_cons_of_ne_nil hne
              have hhead : head ∈ others := List.mem_of_mem_take
                (List.mem_of_mem_drop (hrest ▸ List.mem_cons_self :
                  head ∈ (others.take length).drop skipped))
              rw [hrest] at hbegins
              exact hfirst ((List.cons_prefix_cons.mp hbegins).1 ▸ hhead)

/-- What is shown of a letter when the word is replaced. -/
def Letter.shown (marker word : List α) : Letter α → List α
  | .plain letter => [letter]
  | .part length => if length = word.length then marker else word.take length

/-- In a free form the whole words are replaced and the parts stay. -/
theorem replaceAll_fill (hword : word ≠ []) (marker : List α) {form : Form α}
    (hfree : Free word form) :
    replaceAll word marker (fill word form) = form.flatMap (Letter.shown marker word) := by
  induction form with
  | nil => rfl
  | cons letter form ih =>
      have hrest := ih hfree.2
      by_cases hwhole : letter = .part word.length
      · rw [hwhole, fill_cons, Letter.fill, List.take_length, replaceAll_pattern hword, hrest,
          List.flatMap_cons, Letter.shown, if_pos rfl]
      · have hshown : letter.shown marker word = letter.fill word := by
          cases letter with
          | plain letter => rfl
          | part part => exact if_neg fun heq => hwhole (congrArg Letter.part heq)
        rw [fill_cons, replaceAll_append, hrest, List.flatMap_cons, hshown]
        intro a b heq
        have hbegins : a <+: letter.fill word ++ fill word form := ⟨word ++ b, heq.symm⟩
        refine List.prefix_of_prefix_length_le (List.prefix_append _ _) hbegins ?_
        by_contra hshorter
        refine hfree.1 hwhole a.length (Nat.lt_of_not_le hshorter) ⟨b, ?_⟩
        rw [fill_cons, heq, List.drop_left]

omit [DecidableEq α] in
/-- With the word replaced, two words of one length show the same exactly when the parts
that are left of them are the same. -/
theorem shown_eq_iff (marker : List α) (hlength : word.length = other.length) {form : Form α}
    (hwithin : Within word.length form) :
    form.flatMap (Letter.shown marker word) = form.flatMap (Letter.shown marker other) ↔
      ∀ part < word.length, .part part ∈ form → word.take part = other.take part := by
  have hsame : ∀ part, part < word.length → ∀ first : List α, first.length = word.length →
      Letter.shown marker first (.part part) = first.take part := fun part hpart first hfirst =>
    if_neg (by omega)
  rw [flatMap_eq_iff]
  · constructor
    · intro hletters part hpart hmem
      have hletter := hletters _ hmem
      rwa [hsame part hpart word rfl, hsame part hpart other hlength.symm] at hletter
    · rintro hparts (letter | part) hmem
      · rfl
      · rw [Letter.shown, Letter.shown, ← hlength]
        split
        · rfl
        next hpart => exact hparts part (lt_of_le_of_ne (hwithin part hmem).2 hpart) hmem
  · rintro (letter | part) hmem
    · rfl
    · rw [Letter.shown, Letter.shown, ← hlength]
      split
      · rfl
      · rw [List.length_take, List.length_take, hlength]

end Replacing

end Forms

section Decoding

open Utf8

variable {word : List Char}

def byteOf (char : Char) : UInt8 := UInt8.ofNat char.toNat

/-- An ASCII text has one byte for each character. -/
theorem utf8_ascii {text : List Char} (htext : ∀ char ∈ text, char.toNat < 0x80) :
    utf8 text = text.map byteOf := by
  induction text with
  | nil => rfl
  | cons char text ih =>
      have hchar : String.utf8EncodeChar char = [byteOf char] := by
        have hvalue : char.val.toNat ≤ 0x7f := Nat.le_of_lt_succ (htext char List.mem_cons_self)
        unfold String.utf8EncodeChar
        simp only [hvalue, if_true]
        rfl
      rw [utf8, List.flatMap_cons, hchar, List.map_cons, ← ih fun other hother =>
        htext other (List.mem_cons_of_mem char hother)]
      rfl

/-- An ASCII text is decoded as itself, whatever follows. -/
theorem decode_utf8_append {text : List Char} (htext : ∀ char ∈ text, char.toNat < 0x80)
    (rest : List UInt8) : decode (utf8 text ++ rest) = text.map some ++ decode rest := by
  rw [utf8_ascii htext]
  induction text with
  | nil => rfl
  | cons char text ih =>
      have hchar := htext char List.mem_cons_self
      have hnat : (byteOf char).toNat = char.toNat := by
        rw [byteOf, UInt8.toNat_ofNat', Nat.mod_eq_of_lt (by omega)]
      have hascii : byteOf char < 0x80 := by
        rw [UInt8.lt_iff_toNat_lt, hnat]
        exact hchar
      rw [List.map_cons, List.cons_append, decode_ascii hascii, hnat, Char.ofNat_toNat,
        ih fun other hother => htext other (List.mem_cons_of_mem char hother)]
      rfl

/-- A text in ASCII is decoded apart from what surrounds it. -/
theorem fromUtf8Lossy_append {text : List Char} (htext : ∀ char ∈ text, char.toNat < 0x80)
    (hne : text ≠ []) (bytes rest : List UInt8) :
    fromUtf8Lossy (bytes ++ (utf8 text ++ rest)) =
      fromUtf8Lossy bytes ++ (text ++ fromUtf8Lossy rest) := by
  have hwhole := decode_utf8_append htext rest
  obtain ⟨char, others, rfl⟩ := List.exists_cons_of_ne_nil hne
  have hbytes := utf8_ascii htext
  have hchar := htext char List.mem_cons_self
  have hascii : byteOf char < 0x80 := by
    rw [UInt8.lt_iff_toNat_lt, byteOf, UInt8.toNat_ofNat', Nat.mod_eq_of_lt (by omega)]
    exact hchar
  rw [hbytes, List.map_cons, List.cons_append] at hwhole ⊢
  rw [fromUtf8Lossy, decode_append_ascii hascii, hwhole, List.map_append, List.map_append,
    List.map_map]
  simp [fromUtf8Lossy, Function.comp_def]

/-- The form of the text that the bytes of a form are decoded to. -/
def decodeFrom (pending : List UInt8) : Form UInt8 → Form Char
  | [] => (fromUtf8Lossy pending).map .plain
  | .plain byte :: rest => decodeFrom (pending ++ [byte]) rest
  | .part length :: rest =>
      (fromUtf8Lossy pending).map .plain ++ .part length :: decodeFrom [] rest

/-- Decoding a form commutes with filling it by an ASCII word. -/
theorem fill_decodeFrom (hword : ∀ char ∈ word, char.toNat < 0x80) {form : Form UInt8}
    (hwithin : Within word.length form) (pending : List UInt8) :
    fill word (decodeFrom pending form) = fromUtf8Lossy (pending ++ fill (utf8 word) form) := by
  induction form generalizing pending with
  | nil => rw [decodeFrom, fill_plain, fill_nil, List.append_nil]
  | cons letter form ih =>
      cases letter with
      | plain byte =>
          rw [decodeFrom, ih hwithin.tail, fill_cons, Letter.fill, List.append_assoc]
      | part part =>
          have hpart : ∀ char ∈ word.take part, char.toNat < 0x80 := fun char hchar =>
            hword char (List.mem_of_mem_take hchar)
          have hbytes : (utf8 word).take part = utf8 (word.take part) := by
            rw [utf8_ascii hword, utf8_ascii hpart, List.map_take]
          rw [decodeFrom, fill_append, fill_plain, fill_cons, fill_cons, ih hwithin.tail,
            Letter.fill, Letter.fill, hbytes,
            fromUtf8Lossy_append hpart (fill_part_ne_nil hwithin.head), List.nil_append]

theorem decodeFrom_plain_append (pending bytes : List UInt8) (form : Form UInt8) :
    decodeFrom pending (bytes.map .plain ++ form) = decodeFrom (pending ++ bytes) form := by
  induction bytes generalizing pending with
  | nil => rw [List.append_nil]; rfl
  | cons byte bytes ih =>
      rw [List.map_cons, List.cons_append, decodeFrom, ih, List.append_assoc]
      rfl

/-- A decoded form keeps to the word. -/
theorem within_decodeFrom {length : Nat} {form : Form UInt8} (hwithin : Within length form)
    (pending : List UInt8) : Within length (decodeFrom pending form) := by
  induction form generalizing pending with
  | nil => exact within_plain length _
  | cons letter form ih =>
      cases letter with
      | plain byte => exact ih hwithin.tail _
      | part part =>
          refine (within_plain length _).append fun later hlater => ?_
          rcases List.mem_cons.mp hlater with heq | hlater
          · cases heq
            exact hwithin.head
          · exact ih hwithin.tail [] later hlater

end Decoding

end CfIntegration.Marked
