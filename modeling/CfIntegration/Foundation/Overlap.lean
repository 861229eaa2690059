import Mathlib.Data.List.Infix

/-! # Words that never overlap

Two words are apart when no text holds occurrences of both that share a place, unless
the two occurrences are the same. Replacing a word that is apart from every other part
of a text replaces exactly the parts that are that word.
-/

namespace CfIntegration.Overlap

universe u v

variable {α : Type u}

/-- Neither word lies properly inside the other, and no end of one begins the other. -/
structure Apart (x y : List α) : Prop where
  inside : x <:+: y → x = y
  around : y <:+: x → x = y
  after : ∀ w, w <:+ x → w <+: y → w = [] ∨ (w = x ∧ w = y)
  before : ∀ w, w <+: x → w <:+ y → w = [] ∨ (w = x ∧ w = y)

/-- Being apart goes both ways. -/
theorem Apart.symm {x y : List α} (hxy : Apart x y) : Apart y x where
  inside := fun hcontained => (hxy.around hcontained).symm
  around := fun hcontained => (hxy.inside hcontained).symm
  after := fun w hsuffix hbegins => (hxy.before w hbegins hsuffix).imp_right And.symm
  before := fun w hbegins hsuffix => (hxy.after w hsuffix hbegins).imp_right And.symm

/-- No proper end of the word is a beginning of it. -/
def Unbordered (x : List α) : Prop := ∀ w, w <:+ x → w <+: x → w = [] ∨ w = x

/-- An unbordered word is apart from itself. -/
theorem Unbordered.apart {x : List α} (hx : Unbordered x) : Apart x x where
  inside := fun _ => rfl
  around := fun _ => rfl
  after := fun w hsuffix hbegins => (hx w hsuffix hbegins).imp_right fun h => ⟨h, h⟩
  before := fun w hbegins hsuffix => (hx w hsuffix hbegins).imp_right fun h => ⟨h, h⟩

/-- The first occurrence is not to the right of the second one. -/
theorem Apart.occurrences_left {x y b d e : List α} (hxy : Apart x y)
    (heq : x ++ b = e ++ (y ++ d)) : (e = [] ∧ x = y) ∨ x <+: e := by
  rcases List.append_eq_append_iff.mp heq with ⟨f, he, _⟩ | ⟨f, hx, hrest⟩
  · exact .inr ⟨f, he.symm⟩
  · subst hx
    rcases List.append_eq_append_iff.mp hrest with ⟨g, hf, _⟩ | ⟨g, hy, _⟩
    · subst hf
      have hsame := hxy.around ⟨e, g, by simp⟩
      have hlength := congrArg List.length hsame
      simp only [List.length_append] at hlength
      exact .inl ⟨List.length_eq_zero_iff.mp (by omega), hsame⟩
    · rcases hxy.after f ⟨e, rfl⟩ ⟨g, hy.symm⟩ with rfl | ⟨hfx, hfy⟩
      · exact .inr ⟨[], by simp⟩
      · exact .inl ⟨by simpa using hfx.symm, by rw [← hfx, hfy]⟩

/-- Occurrences in one text are the same, or one ends before the other begins. -/
theorem Apart.occurrences {x y a b c d : List α} (hxy : Apart x y)
    (heq : a ++ (x ++ b) = c ++ (y ++ d)) :
    (a = c ∧ x = y) ∨ a ++ x <+: c ∨ c ++ y <+: a := by
  rcases List.append_eq_append_iff.mp heq with ⟨e, rfl, hrest⟩ | ⟨e, rfl, hrest⟩
  · rcases hxy.occurrences_left hrest with ⟨rfl, hsame⟩ | hbefore
    · exact .inl ⟨(List.append_nil a).symm, hsame⟩
    · exact .inr (.inl ((List.prefix_append_right_inj a).mpr hbefore))
  · rcases hxy.symm.occurrences_left hrest with ⟨rfl, hsame⟩ | hbefore
    · exact .inl ⟨List.append_nil c, hsame.symm⟩
    · exact .inr (.inr ((List.prefix_append_right_inj c).mpr hbefore))

/-- A word occurs in a text around another one exactly as that one, or beside it. -/
theorem Apart.infix_around {x y c d : List α} (hxy : Apart x y)
    (hcontained : x <:+: c ++ (y ++ d)) :
    x = y ∨ x <:+: c ∨ x <:+: d := by
  obtain ⟨a, b, heq⟩ := hcontained
  rw [List.append_assoc] at heq
  rcases hxy.occurrences heq with ⟨_, hsame⟩ | ⟨e, rfl⟩ | ⟨e, rfl⟩
  · exact .inl hsame
  · exact .inr (.inl ⟨a, e, rfl⟩)
  · refine .inr (.inr ⟨e, b, ?_⟩)
    simpa using heq

section Replace

variable [DecidableEq α]

/-- Replace the occurrences of a nonempty pattern from left to right, after skipping
the places that the last occurrence still covers. -/
def replaceFrom (pattern replacement : List α) : Nat → List α → List α
  | _, [] => []
  | 0, first :: rest =>
      if pattern ≠ [] ∧ pattern.isPrefixOf (first :: rest) then
        replacement ++ replaceFrom pattern replacement (pattern.length - 1) rest
      else first :: replaceFrom pattern replacement 0 rest
  | skipped + 1, _ :: rest => replaceFrom pattern replacement skipped rest

def replaceAll (pattern replacement text : List α) : List α :=
  replaceFrom pattern replacement 0 text

/-- What a match has covered is skipped. -/
theorem replaceFrom_skip (pattern replacement covered rest : List α) :
    replaceFrom pattern replacement covered.length (covered ++ rest) =
      replaceAll pattern replacement rest := by
  induction covered with
  | nil => rfl
  | cons first covered ih => exact ih

@[simp] theorem replaceAll_nil (pattern replacement : List α) :
    replaceAll pattern replacement [] = [] := rfl

/-- A text that begins with the pattern has its first match there. -/
theorem replaceAll_pattern {pattern : List α} (hpattern : pattern ≠ [])
    (replacement rest : List α) :
    replaceAll pattern replacement (pattern ++ rest) =
      replacement ++ replaceAll pattern replacement rest := by
  cases pattern with
  | nil => exact absurd rfl hpattern
  | cons first others =>
      have hbegins : (first :: others).isPrefixOf (first :: (others ++ rest)) = true :=
        List.isPrefixOf_iff_prefix.mpr ⟨rest, rfl⟩
      rw [replaceAll, List.cons_append, replaceFrom, if_pos ⟨hpattern, hbegins⟩]
      exact congrArg (replacement ++ ·) (replaceFrom_skip _ _ others rest)

/-- A character where no match begins stays. -/
theorem replaceAll_cons {pattern : List α} {first : α} {rest : List α}
    (hbegins : ¬ pattern <+: first :: rest) (replacement : List α) :
    replaceAll pattern replacement (first :: rest) =
      first :: replaceAll pattern replacement rest := by
  rw [replaceAll, replaceFrom, if_neg fun hmatch =>
    hbegins (List.isPrefixOf_iff_prefix.mp hmatch.2)]
  rfl

/-- What lies before the first occurrence stays. -/
theorem replaceAll_append {pattern before rest : List α}
    (hfirst : ∀ a b, before ++ rest = a ++ (pattern ++ b) → before <+: a)
    (replacement : List α) :
    replaceAll pattern replacement (before ++ rest) =
      before ++ replaceAll pattern replacement rest := by
  induction before with
  | nil => rfl
  | cons first others ih =>
      rw [List.cons_append, replaceAll_cons, ih, List.cons_append]
      · intro a b heq
        have hcover := hfirst (first :: a) b (by rw [List.cons_append, heq, List.cons_append])
        exact (List.cons_prefix_cons.mp hcover).2
      · rintro ⟨b, heq⟩
        have hcover := hfirst [] b heq.symm
        simp at hcover

/-- A text without the pattern stays as it is. -/
theorem replaceAll_of_absent {pattern text : List α} (hcontained : ¬ pattern <:+: text)
    (replacement : List α) : replaceAll pattern replacement text = text := by
  have hfirst : ∀ a b, text ++ [] = a ++ (pattern ++ b) → text <+: a := fun a b heq =>
    absurd ⟨a, b, by rw [List.append_assoc, ← heq, List.append_nil]⟩ hcontained
  have hall := replaceAll_append hfirst replacement
  rwa [List.append_nil, replaceAll_nil, List.append_nil] at hall

/-- A text with an occurrence is split at its first one. -/
theorem exists_first_occurrence {pattern text : List α} (hpattern : pattern ≠ [])
    (hcontained : pattern <:+: text) (replacement : List α) :
    ∃ before rest, text = before ++ (pattern ++ rest) ∧
      replaceAll pattern replacement text =
        before ++ (replacement ++ replaceAll pattern replacement rest) := by
  induction text with
  | nil => exact absurd (List.infix_nil.mp hcontained) hpattern
  | cons first others ih =>
      by_cases hbegins : pattern <+: first :: others
      · obtain ⟨rest, hrest⟩ := hbegins
        refine ⟨[], rest, hrest.symm, ?_⟩
        rw [← hrest, replaceAll_pattern hpattern, List.nil_append]
      · have hlater : pattern <:+: others := by
          rcases List.infix_cons_iff.mp hcontained with hbegins' | hlater
          · exact absurd hbegins' hbegins
          · exact hlater
        obtain ⟨before, rest, hothers, hreplaced⟩ := ih hlater
        refine ⟨first :: before, rest, by rw [hothers, List.cons_append], ?_⟩
        rw [replaceAll_cons hbegins, hreplaced, List.cons_append]

/-- A word that is apart from itself is replaced where it stands alone. -/
theorem replaceAll_single {pattern a b : List α} (hpattern : pattern ≠ [])
    (hapart : Apart pattern pattern) (ha : ¬ pattern <:+: a) (hb : ¬ pattern <:+: b)
    (replacement : List α) :
    replaceAll pattern replacement (a ++ (pattern ++ b)) = a ++ (replacement ++ b) := by
  rw [replaceAll_append, replaceAll_pattern hpattern, replaceAll_of_absent hb]
  intro before rest heq
  rcases hapart.occurrences heq.symm with ⟨rfl, _⟩ | ⟨e, rfl⟩ | ⟨e, rfl⟩
  · exact List.prefix_refl before
  · exact absurd ⟨before, e, rfl⟩ ha
  · exact ⟨pattern ++ e, by simp⟩

/-- A replacement that is not empty leaves something. -/
theorem replaceAll_ne_nil {pattern replacement text : List α} (hpattern : pattern ≠ [])
    (hreplacement : replacement ≠ []) (htext : text ≠ []) :
    replaceAll pattern replacement text ≠ [] := by
  by_cases hcontained : pattern <:+: text
  · obtain ⟨before, rest, _, hreplaced⟩ := exists_first_occurrence hpattern hcontained replacement
    rw [hreplaced]
    simp [hreplacement]
  · rwa [replaceAll_of_absent hcontained]

/-- Where the pattern occurs the replacement does afterwards, and something besides it
unless the text was the pattern. -/
theorem replaceAll_grows {pattern replacement text : List α} (hpattern : pattern ≠ [])
    (hreplacement : replacement ≠ []) (hcontained : pattern <:+: text) :
    replacement <:+: replaceAll pattern replacement text ∧
      (text = pattern ∨ replacement.length < (replaceAll pattern replacement text).length) := by
  obtain ⟨before, rest, htext, hreplaced⟩ :=
    exists_first_occurrence hpattern hcontained replacement
  refine ⟨⟨before, _, by rw [hreplaced, List.append_assoc]⟩, ?_⟩
  by_cases hwhole : before = [] ∧ rest = []
  · rw [htext, hwhole.1, hwhole.2]
    simp
  · refine .inr ?_
    have hmore : 0 < before.length + (replaceAll pattern replacement rest).length := by
      by_contra hzero
      refine hwhole ⟨List.length_eq_zero_iff.mp (by omega), ?_⟩
      by_contra hrest
      have := List.length_pos_iff.mpr (replaceAll_ne_nil hpattern hreplacement hrest)
      omega
    rw [hreplaced]
    simp only [List.length_append]
    omega

/-- Every element comes from the replacement or from the text. -/
theorem mem_replaceFrom {pattern replacement text : List α} {element : α} {skipped : Nat}
    (hmem : element ∈ replaceFrom pattern replacement skipped text) :
    element ∈ replacement ∨ element ∈ text := by
  induction text generalizing skipped with
  | nil => simp [replaceFrom] at hmem
  | cons first rest ih =>
      cases skipped with
      | zero =>
          rw [replaceFrom] at hmem
          split at hmem
          · exact (List.mem_append.mp hmem).elim .inl
              fun hrest => (ih hrest).imp_right (List.mem_cons_of_mem first)
          · rcases List.mem_cons.mp hmem with rfl | hrest
            · exact .inr List.mem_cons_self
            · exact (ih hrest).imp_right (List.mem_cons_of_mem first)
      | succ skipped => exact (ih hmem).imp_right (List.mem_cons_of_mem first)

/-- The places at which the word occurs in the text. -/
def occurrences (word : List α) : List α → Nat
  | [] => 0
  | first :: rest =>
      (if word.isPrefixOf (first :: rest) then 1 else 0) + occurrences word rest

/-- The occurrences in two parts are occurrences in the whole. -/
theorem occurrences_append_le (word first second : List α) :
    occurrences word first + occurrences word second ≤ occurrences word (first ++ second) := by
  induction first with
  | nil => simp [occurrences]
  | cons head rest ih =>
      have hbegins : word.isPrefixOf (head :: rest) = true →
          word.isPrefixOf (head :: (rest ++ second)) = true := by
        simp only [List.isPrefixOf_iff_prefix]
        exact fun hbegin => hbegin.trans ⟨second, rfl⟩
      rw [List.cons_append, occurrences, occurrences]
      by_cases hbegin : word.isPrefixOf (head :: rest) = true
      · rw [if_pos hbegin, if_pos (hbegins hbegin)]
        omega
      · rw [if_neg hbegin]
        omega

/-- A word that is contained occurs. -/
theorem occurrences_pos {word text : List α} (hword : word ≠ []) (hcontained : word <:+: text) :
    0 < occurrences word text := by
  induction text with
  | nil => exact absurd (List.infix_nil.mp hcontained) hword
  | cons first rest ih =>
      rw [occurrences]
      rcases List.infix_cons_iff.mp hcontained with hbegins | hrest
      · rw [if_pos (List.isPrefixOf_iff_prefix.mpr hbegins)]
        omega
      · have := ih hrest
        omega

section Around

variable {x z : List α} (hapart : Apart x z) (hne : x ≠ z) (hx : x ≠ [])

include hapart hne hx

/-- No occurrence of a word begins inside another one that it is apart from. -/
theorem occurrences_inside {d e : List α} (hz : z = d ++ e) (b : List α) :
    occurrences x (e ++ b) ≤ occurrences x b := by
  induction e generalizing d with
  | nil => exact le_refl _
  | cons first rest ih =>
      have hnot : ¬ x.isPrefixOf (first :: (rest ++ b)) = true := by
        rw [List.isPrefixOf_iff_prefix]
        rintro ⟨others, hothers⟩
        have heq : d ++ (x ++ others) = [] ++ (z ++ b) := by
          rw [hothers, hz]
          simp
        rcases hapart.occurrences heq with ⟨_, hsame⟩ | hempty | ⟨back, hback⟩
        · exact hne hsame
        · exact hx (List.append_eq_nil_iff.mp (List.prefix_nil.mp hempty)).2
        · have hlength := congrArg List.length hback
          rw [hz] at hlength
          simp only [List.nil_append, List.length_append, List.length_cons] at hlength
          omega
      have hnext : z = (d ++ [first]) ++ rest := by
        rw [hz, List.append_assoc, List.singleton_append]
      rw [List.cons_append, occurrences, if_neg hnot, Nat.zero_add]
      exact ih hnext

theorem occurrences_around (a b : List α) :
    occurrences x (a ++ (z ++ b)) ≤ occurrences x a + occurrences x b := by
  induction a with
  | nil =>
      rw [List.nil_append, occurrences, Nat.zero_add]
      exact occurrences_inside hapart hne hx (List.nil_append z).symm b
  | cons first rest ih =>
      have hbegins : x.isPrefixOf (first :: (rest ++ (z ++ b))) = true →
          x.isPrefixOf (first :: rest) = true := by
        simp only [List.isPrefixOf_iff_prefix]
        rintro ⟨others, hothers⟩
        have heq : [] ++ (x ++ others) = (first :: rest) ++ (z ++ b) := hothers
        rcases hapart.occurrences heq with ⟨hnil, _⟩ | hbegin | hempty
        · cases hnil
        · exact hbegin
        · cases List.prefix_nil.mp hempty
      rw [List.cons_append, occurrences, occurrences]
      by_cases hbegin : x.isPrefixOf (first :: (rest ++ (z ++ b))) = true
      · rw [if_pos hbegin, if_pos (hbegins hbegin)]
        omega
      · rw [if_neg hbegin]
        omega

/-- Replacing one word keeps the occurrences of another and adds those of the
replacement. -/
theorem occurrences_replaceAll (hz : z ≠ []) (replacement text : List α) :
    occurrences x text ≤ occurrences x (replaceAll z replacement text) ∧
      (z <:+: text → occurrences x text + occurrences x replacement ≤
        occurrences x (replaceAll z replacement text)) := by
  induction hlength : text.length using Nat.strong_induction_on generalizing text with
  | _ length ih =>
      by_cases hcontained : z <:+: text
      · obtain ⟨before, rest, rfl, hreplaced⟩ := exists_first_occurrence hz hcontained replacement
        have hpos := List.length_pos_iff.mpr hz
        simp only [List.length_append] at hlength
        have hrest := (ih rest.length (by omega) rest rfl).1
        have haround := occurrences_around hapart hne hx before rest
        have houter := occurrences_append_le x before
          (replacement ++ replaceAll z replacement rest)
        have hinner := occurrences_append_le x replacement (replaceAll z replacement rest)
        rw [hreplaced]
        exact ⟨by omega, fun _ => by omega⟩
      · rw [replaceAll_of_absent hcontained]
        exact ⟨le_refl _, fun hoccurs => absurd hoccurs hcontained⟩

end Around

end Replace

/-- A text with labelled holes. -/
inductive Template (α : Type u) (ι : Type v) where
  | plain (text : List α)
  | hole (text : List α) (label : ι) (rest : Template α ι)

namespace Template

variable {ι : Type v} {κ : Type v}

def fill (value : ι → List α) : Template α ι → List α
  | plain text => text
  | hole text label rest => text ++ (value label ++ rest.fill value)

/-- The texts between the holes. -/
def texts : Template α ι → List (List α)
  | plain text => [text]
  | hole text _ rest => text :: rest.texts

def labels : Template α ι → List ι
  | plain _ => []
  | hole _ label rest => label :: rest.labels

/-- None of the words occurs between the holes. -/
def Avoids (words : List (List α)) (template : Template α ι) : Prop :=
  ∀ text ∈ template.texts, ∀ word ∈ words, ¬ word <:+: text

def map (relabel : ι → κ) : Template α ι → Template α κ
  | plain text => plain text
  | hole text label rest => hole text (relabel label) (rest.map relabel)

/-- Relabelled holes are filled with the values of their new labels. -/
theorem fill_map (relabel : ι → κ) (value : κ → List α) (template : Template α ι) :
    (template.map relabel).fill value = template.fill (value ∘ relabel) := by
  induction template with
  | plain text => rfl
  | hole text label rest ih => rw [map, fill, fill, ih]; rfl

@[simp] theorem texts_map (relabel : ι → κ) (template : Template α ι) :
    (template.map relabel).texts = template.texts := by
  induction template with
  | plain text => rfl
  | hole text label rest ih => rw [map, texts, texts, ih]

/-- A filled template depends on the values of its labels only. -/
theorem fill_congr {value other : ι → List α} {template : Template α ι}
    (hsame : ∀ label ∈ template.labels, value label = other label) :
    template.fill value = template.fill other := by
  induction template with
  | plain text => rfl
  | hole text label rest ih =>
      rw [fill, fill, hsame label List.mem_cons_self,
        ih fun other hother => hsame other (List.mem_cons_of_mem label hother)]

theorem length_le_fill (value : ι → List α) {text : List α} {template : Template α ι}
    (htext : text ∈ template.texts) : text.length ≤ (template.fill value).length := by
  induction template with
  | plain only => rw [List.mem_singleton.mp htext, fill]
  | hole first label rest ih =>
      rw [fill, List.length_append, List.length_append]
      rcases List.mem_cons.mp htext with rfl | htext
      · omega
      · have := ih htext
        omega

/-- A template, a further hole, and another template. -/
def join : Template α ι → ι → Template α ι → Template α ι
  | plain text, label, second => hole text label second
  | hole text inner rest, label, second => hole text inner (rest.join label second)

/-- Joined templates are filled side by side. -/
theorem fill_join (value : ι → List α) (label : ι) (first second : Template α ι) :
    (first.join label second).fill value =
      first.fill value ++ (value label ++ second.fill value) := by
  induction first with
  | plain text => rfl
  | hole text inner rest ih => rw [join, fill, fill, ih]; simp

theorem texts_join (label : ι) (first second : Template α ι) :
    (first.join label second).texts = first.texts ++ second.texts := by
  induction first with
  | plain text => rfl
  | hole text inner rest ih => rw [join, texts, texts, ih, List.cons_append]

theorem labels_join (label : ι) (first second : Template α ι) :
    (first.join label second).labels = first.labels ++ label :: second.labels := by
  induction first with
  | plain text => rfl
  | hole text inner rest ih => rw [join, labels, labels, ih, List.cons_append]

/-- Every text can be read with marked words, so that no word is left unmarked. -/
theorem exists_parse {words : List (List α)} (hwords : ∀ word ∈ words, word ≠ [])
    (text : List α) : ∃ template : Template α (List α), template.Avoids words ∧
      (∀ label ∈ template.labels, label ∈ words) ∧ template.fill id = text := by
  induction hlength : text.length using Nat.strong_induction_on generalizing text with
  | _ length ih =>
      by_cases hcontained : ∃ word ∈ words, word <:+: text
      · obtain ⟨word, hword, before, rest, rfl⟩ := hcontained
        have hpos := List.length_pos_iff.mpr (hwords word hword)
        simp only [List.length_append] at hlength
        obtain ⟨first, hfirst, hfirstLabels, rfl⟩ := ih _ (by omega) before rfl
        obtain ⟨second, hsecond, hsecondLabels, rfl⟩ := ih _ (by omega) rest rfl
        refine ⟨first.join word second, ?_, ?_, ?_⟩
        · intro text htext
          rw [texts_join, List.mem_append] at htext
          exact htext.elim (hfirst text) (hsecond text)
        · intro label hlabel
          rw [labels_join, List.mem_append, List.mem_cons] at hlabel
          rcases hlabel with hlabel | rfl | hlabel
          · exact hfirstLabels label hlabel
          · exact hword
          · exact hsecondLabels label hlabel
        · rw [fill_join, id, List.append_assoc]
      · refine ⟨plain text, ?_, nofun, rfl⟩
        intro only honly word hword hoccurs
        rw [List.mem_singleton.mp honly] at hoccurs
        exact hcontained ⟨word, hword, hoccurs⟩

/-- Where nothing is left, nothing was there. -/
theorem fill_eq_nil {value other : ι → List α} {template : Template α ι}
    (hvalue : ∀ label, value label ≠ []) (hempty : template.fill value = []) :
    template.fill other = [] := by
  cases template with
  | plain text => exact hempty
  | hole text label rest =>
      rw [fill, List.append_eq_nil_iff, List.append_eq_nil_iff] at hempty
      exact absurd hempty.2.1 (hvalue label)

variable [DecidableEq α]

/-- Replacing a word that is apart from every marked one, and that does not occur
between them, replaces the marks of that word. -/
theorem replaceAll_fill {pattern : List α} (hpattern : pattern ≠ []) (replacement : List α)
    {template : Template α ι} {value : ι → List α}
    (htexts : ∀ text ∈ template.texts, ¬ pattern <:+: text)
    (hapart : ∀ label ∈ template.labels, Apart pattern (value label)) :
    replaceAll pattern replacement (template.fill value) =
      template.fill fun label => if value label = pattern then replacement else value label := by
  induction template with
  | plain text => exact replaceAll_of_absent (htexts text (List.mem_singleton_self text)) _
  | hole text label rest ih =>
      have hlabel : Apart pattern (value label) := hapart label List.mem_cons_self
      have hrest := ih (fun other hother => htexts other (List.mem_cons_of_mem text hother))
        fun other hother => hapart other (List.mem_cons_of_mem label hother)
      rw [fill, fill, ← hrest, replaceAll_append]
      · split
        next hsame => rw [hsame, replaceAll_pattern hpattern]
        next hother =>
          rw [replaceAll_append]
          intro a b heq
          rcases hlabel.occurrences (c := []) heq.symm with ⟨_, hsame⟩ | hempty | hbefore
          · exact absurd hsame.symm hother
          · exact absurd (List.append_eq_nil_iff.mp (List.prefix_nil.mp hempty)).2 hpattern
          · exact hbefore
      · intro a b heq
        rcases hlabel.occurrences heq.symm with ⟨rfl, _⟩ | ⟨e, rfl⟩ | ⟨e, rfl⟩
        · exact List.prefix_refl a
        · exact absurd ⟨a, e, rfl⟩ (htexts _ List.mem_cons_self)
        · exact ⟨value label ++ e, by simp⟩

end Template

end CfIntegration.Overlap
