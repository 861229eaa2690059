import CfIntegration.Foundation.Redaction

/-! # What redaction hides

Secrets that are hidden wherever they occur are independent. Two readings of one text
are shown alike, which keeps secrets from overlapping one another. A secret that
overlaps the marker would be replaced a second time, in a text that holds the marker
of the first one.
-/

namespace CfIntegration.Redaction

open Overlap

universe u

variable {α : Type u}

/-! ## Secrets that meet the marker -/

/-- How a secret that is not inside the marker overlaps it: the text of both is the
marker between `a` and `b`, and the secret between `c` and `d`. -/
inductive Straddle (marker y : List α) : List α → List α → List α → List α → Prop
  | right {c w b : List α} (hmarker : marker = c ++ w) (hy : y = w ++ b) (hc : c ≠ [])
      (hw : w ≠ []) (hb : b ≠ []) : Straddle marker y [] b c []
  | left {a w d : List α} (hy : y = a ++ w) (hmarker : marker = w ++ d) (ha : a ≠ [])
      (hw : w ≠ []) (hd : d ≠ []) : Straddle marker y a [] [] d
  | around {a b : List α} (hy : y = a ++ (marker ++ b)) (hmore : a ≠ [] ∨ b ≠ []) :
      Straddle marker y a b [] []

/-- A word that is not inside the marker is apart from it or straddles it. -/
theorem exists_straddle {marker y : List α} (hinside : ¬ y <:+: marker)
    (hapart : ¬ Apart y marker) : ∃ a b c d, Straddle marker y a b c d := by
  by_contra hnone
  have haround : ∀ a b, y = a ++ (marker ++ b) → a = [] ∧ b = [] := by
    intro a b hy
    by_contra hmore
    rw [not_and_or] at hmore
    exact hnone ⟨a, b, [], [], .around hy hmore⟩
  refine hapart ⟨fun hcontained => absurd hcontained hinside, ?_, ?_, ?_⟩
  · rintro ⟨a, b, hy⟩
    obtain ⟨rfl, rfl⟩ := haround a b (by rw [← hy, List.append_assoc])
    simpa using hy.symm
  · rintro w ⟨a, rfl⟩ ⟨d, hmarker⟩
    by_cases hw : w = []
    · exact .inl hw
    by_cases ha : a = []
    · rw [ha, List.nil_append] at hinside
      exact absurd ⟨[], d, hmarker⟩ hinside
    by_cases hd : d = []
    · rw [hd, List.append_nil] at hmarker
      exact absurd (haround a [] (by rw [hmarker, List.append_nil])).1 ha
    · exact absurd ⟨a, [], [], d, .left rfl hmarker.symm ha hw hd⟩ hnone
  · rintro w ⟨b, rfl⟩ ⟨c, hmarker⟩
    by_cases hw : w = []
    · exact .inl hw
    by_cases hb : b = []
    · rw [hb, List.append_nil] at hinside
      exact absurd ⟨c, [], by rw [List.append_nil, hmarker]⟩ hinside
    by_cases hc : c = []
    · rw [hc, List.nil_append] at hmarker
      exact absurd (haround [] b (by rw [hmarker, List.nil_append])).2 hb
    · exact absurd ⟨[], b, c, [], .right hmarker.symm rfl hc hw hb⟩ hnone

namespace Straddle

variable {marker core y a b c d : List α} {opening closing : α} {escape : α → List α}

/-- Both readings of a straddled marker are the same text. -/
theorem text (h : Straddle marker y a b c d) : a ++ (marker ++ b) = c ++ (y ++ d) := by
  cases h with
  | right hmarker hy => rw [hmarker, hy]; simp
  | left hy hmarker => rw [hmarker, hy]; simp
  | around hy => rw [hy]; simp

/-- The texts beside the marker are proper parts of the secret. -/
theorem parts (h : Straddle marker y a b c d) (hne : marker ≠ []) :
    (a <:+: y ∧ a ≠ y) ∧ (b <:+: y ∧ b ≠ y) := by
  have hproper : ∀ {part : List α}, part.length < y.length → part ≠ y :=
    fun hlength heq => absurd (congrArg List.length heq) (by omega)
  have hpos := List.length_pos_iff.mpr hne
  cases h with
  | right hmarker hy hc hw hb =>
      have hwPos := List.length_pos_iff.mpr hw
      have hbPos := List.length_pos_iff.mpr hb
      refine ⟨⟨List.nil_infix, hproper ?_⟩, ⟨⟨_, [], by rw [hy, List.append_nil]⟩, hproper ?_⟩⟩ <;>
        simp only [hy, List.length_append, List.length_nil] <;> omega
  | left hy hmarker ha hw hd =>
      have hwPos := List.length_pos_iff.mpr hw
      have haPos := List.length_pos_iff.mpr ha
      refine ⟨⟨⟨[], _, by rw [hy, List.nil_append]⟩, hproper ?_⟩, ⟨List.nil_infix, hproper ?_⟩⟩ <;>
        simp only [hy, List.length_append, List.length_nil] <;> omega
  | around hy =>
      refine ⟨⟨⟨[], _, by rw [hy, List.nil_append]⟩, hproper ?_⟩,
        ⟨⟨a ++ marker, [], by rw [hy]; simp⟩, hproper ?_⟩⟩ <;>
        simp only [hy, List.length_append] <;> omega

/-- The texts beside the secret are proper parts of the marker. -/
theorem beside (h : Straddle marker y a b c d) (hne : marker ≠ []) :
    (c <:+: marker ∧ c.length < marker.length) ∧ (d <:+: marker ∧ d.length < marker.length) := by
  have hpos := List.length_pos_iff.mpr hne
  cases h with
  | right hmarker hy hc hw =>
      have hwPos := List.length_pos_iff.mpr hw
      refine ⟨⟨⟨[], _, by rw [hmarker, List.nil_append]⟩, ?_⟩, ⟨List.nil_infix, hpos⟩⟩
      rw [hmarker, List.length_append]
      omega
  | left hy hmarker ha hw =>
      have hwPos := List.length_pos_iff.mpr hw
      refine ⟨⟨List.nil_infix, hpos⟩, ⟨_, [], by rw [hmarker, List.append_nil]⟩, ?_⟩
      rw [hmarker, List.length_append]
      omega
  | around => exact ⟨⟨List.nil_infix, hpos⟩, ⟨List.nil_infix, hpos⟩⟩

/-- A bracket that lies inside the secret lies at an end of the text it is replaced in. -/
theorem not_contained (h : Straddle marker y a b c d)
    (hbracketed : Bracketed marker opening core closing) (hy : ¬ y <:+: marker) :
    ¬ y <:+: c ++ (marker ++ d) := by
  rintro ⟨before, rest, heq⟩
  cases h with
  | @right _ w _ hmarker hsecret hc hw hb =>
      -- What the secret and the marker share ends with the closing letter of the marker.
      obtain ⟨w', rfl⟩ : ∃ w', w = w' ++ [closing] := by
        obtain ⟨w', last, hlast⟩ := (List.eq_nil_or_concat w).resolve_left hw
        rw [List.concat_eq_append] at hlast
        refine ⟨w', ?_⟩
        have hends := hbracketed.eq
        rw [hmarker, hlast, ← List.append_assoc, ← List.cons_append] at hends
        rw [hlast, (List.append_inj' hends rfl).2]
      have hfront := hbracketed.eq
      rw [hmarker, ← List.append_assoc, ← List.cons_append] at hfront
      have hinner := (List.append_inj' hfront rfl).1
      have hclosing := hbracketed.closing_notMem
      rw [← hinner] at hclosing
      simp only [hmarker, hsecret, List.append_assoc, List.append_nil] at heq
      have htexts : (before ++ w') ++ (closing :: (b ++ rest)) =
          (c ++ (c ++ w')) ++ [closing] := by simpa using heq
      rcases List.append_eq_append_iff.mp htexts with ⟨e, he, hrest⟩ | ⟨e, he, hrest⟩
      · cases e with
        | nil =>
            have hempty : b = [] ∧ rest = [] := by simpa using hrest
            exact hb hempty.1
        | cons head e =>
            obtain ⟨rfl, _⟩ := List.cons_eq_cons.mp hrest
            refine hclosing ?_
            have hmem : closing ∈ c ++ (c ++ w') := by rw [he]; simp
            rcases List.mem_append.mp hmem with hmem | hmem
            · exact List.mem_append_left w' hmem
            · exact hmem
      · have hlength := congrArg List.length hrest
        simp only [List.length_append, List.length_cons, List.length_nil] at hlength
        have hbPos := List.length_pos_iff.mpr hb
        omega
  | @left _ w _ hsecret hmarker ha hw hd =>
      -- Here it begins with the opening letter.
      obtain ⟨w', rfl⟩ : ∃ w', w = opening :: w' := by
        obtain ⟨first, w', hfirst⟩ := List.exists_cons_of_ne_nil hw
        refine ⟨w', ?_⟩
        have hends := hbracketed.eq
        rw [hmarker, hfirst, List.cons_append] at hends
        rw [hfirst, (List.cons_eq_cons.mp hends).1]
      have hback := hbracketed.eq
      rw [hmarker, List.cons_append] at hback
      have hinner := (List.cons_eq_cons.mp hback).2
      have hopening := hbracketed.opening_notMem
      rw [← hinner] at hopening
      simp only [hmarker, hsecret, List.nil_append] at heq
      have htexts : (before ++ a) ++ (opening :: (w' ++ rest)) =
          [opening] ++ (w' ++ (d ++ d)) := by simpa using heq
      rcases List.append_eq_append_iff.mp htexts with ⟨e, he, hrest⟩ | ⟨e, he, hrest⟩
      · have hlength := congrArg List.length he
        simp only [List.length_append, List.length_cons, List.length_nil] at hlength
        have haPos := List.length_pos_iff.mpr ha
        cases e with
        | nil =>
            rw [List.nil_append] at hrest
            refine hopening ?_
            have hmem : opening ∈ w' ++ (d ++ d) := by rw [← hrest]; exact List.mem_cons_self
            simpa using hmem
        | cons head e =>
            simp only [List.length_cons] at hlength
            omega
      · refine hopening ?_
        have hmem : opening ∈ w' ++ (d ++ d) := by rw [hrest]; simp
        simpa using hmem
  | around hsecret hmore =>
      rw [List.nil_append, List.append_nil] at heq
      exact hy ⟨before, rest, heq⟩

/-- Showing the marker for the secret, or the secret around the marker, differs. -/
theorem shown_ne (h : Straddle marker y a b c d)
    (hbracketed : Bracketed marker opening core closing)
    (hescape : Escaping marker opening escape) :
    a.flatMap escape ++ (marker ++ b.flatMap escape) ≠ c ++ (marker ++ d) := by
  intro heq
  have hbeside := h.beside hbracketed.ne_nil
  cases h with
  | right hmarker hsecret hc hw hb =>
      rw [List.flatMap_nil, List.nil_append, List.append_nil] at heq
      rcases shift_unbordered hbracketed.unbordered heq with hnil | ⟨v, hv, _⟩
      · exact hc hnil
      · have hlength := congrArg List.length hv
        rw [List.length_append] at hlength
        omega
  | left hsecret hmarker ha hw hd =>
      rw [List.flatMap_nil, List.nil_append, List.append_nil] at heq
      rcases shift_unbordered hbracketed.unbordered heq.symm with hnil | ⟨v, _, hv⟩
      · exact ha (hescape.flatMap_eq_nil.mp hnil)
      · have hlength := congrArg List.length hv
        rw [List.length_append] at hlength
        omega
  | around hsecret hmore =>
      have hlength := congrArg List.length heq
      simp only [List.length_append, List.length_nil] at hlength
      rcases hmore with ha | hb
      · exact ha (hescape.flatMap_eq_nil.mp (List.length_eq_zero_iff.mp (by omega)))
      · exact hb (hescape.flatMap_eq_nil.mp (List.length_eq_zero_iff.mp (by omega)))

end Straddle

/-! ## Only independent secrets are redacted as marked -/

section Indexed

variable {secrets : List (List α)}

/-- Marked secrets have places in the list of secrets. -/
theorem exists_indexed (marker : List α) (template : Template α (List α))
    (hlabels : ∀ label ∈ template.labels, label ∈ secrets) :
    ∃ indexed : Template α (Fin secrets.length), indexed.texts = template.texts ∧
      indexed.fill secrets.get = template.fill id ∧
      (indexed.fill fun _ => marker) = template.fill fun _ => marker := by
  induction template with
  | plain text => exact ⟨.plain text, rfl, rfl, rfl⟩
  | hole text label rest ih =>
      obtain ⟨indexed, htexts, hfill, hshown⟩ :=
        ih fun other hother => hlabels other (List.mem_cons_of_mem label hother)
      obtain ⟨index, hindex⟩ := List.mem_iff_get.mp (hlabels label List.mem_cons_self)
      refine ⟨.hole text index indexed, ?_, ?_, ?_⟩
      · rw [Template.texts, Template.texts, htexts]
      · rw [Template.fill, Template.fill, hfill, hindex, id]
      · rw [Template.fill, Template.fill, hshown]

/-- The first member of a list without a property. -/
theorem exists_first_not {β : Type u} {P : β → Prop} {list : List β}
    (hnot : ¬ ∀ y ∈ list, P y) : ∃ before y after, list = before ++ y :: after ∧
      (∀ z ∈ before, P z) ∧ ¬ P y := by
  induction list with
  | nil => exact absurd nofun hnot
  | cons head rest ih =>
      by_cases hhead : P head
      · rw [List.forall_mem_cons, and_iff_right hhead] at hnot
        obtain ⟨before, y, after, rfl, hbefore, hy⟩ := ih hnot
        exact ⟨head :: before, y, after, rfl, List.forall_mem_cons.mpr ⟨hhead, hbefore⟩, hy⟩
      · exact ⟨[], head, rest, rfl, nofun, hhead⟩

/-- No secret occurs in the text. -/
def Free (secrets : List (List α)) (text : List α) : Prop := ∀ x ∈ secrets, ¬ x <:+: text

end Indexed

variable [DecidableEq α] {marker core : List α} {opening closing : α} {escape : α → List α}
  {secrets : List (List α)}

/-- Secrets that are hidden wherever they occur, with what the marker and the escapes
must be like. -/
structure Hidden (marker : List α) (opening : α) (core : List α) (closing : α)
    (escape : α → List α) (secrets : List (List α)) : Prop where
  bracketed : Bracketed marker opening core closing
  escaping : Escaping marker opening escape
  nonempty : ∀ x ∈ secrets, x ≠ []
  nonInterfering : NonInterfering marker escape secrets

namespace Hidden

variable {x y : List α}

/-- The marker shows as itself. -/
theorem flatMap_marker (h : Hidden marker opening core closing escape secrets) :
    marker.flatMap escape = marker :=
  h.escaping.flatMap_marker fun _ hc => hc

theorem free_nil (h : Hidden marker opening core closing escape secrets) : Free secrets [] :=
  fun x hx hcontained => h.nonempty x hx (List.infix_nil.mp hcontained)

/-- Templates with the same texts show the same, whatever secrets fill them. -/
theorem values (h : Hidden marker opening core closing escape secrets)
    {template : Template α (List α)} (havoids : template.Avoids secrets)
    (hlabels : ∀ label ∈ template.labels, label ∈ secrets) :
    (redactAll marker secrets (template.fill id)).flatMap escape =
      (template.fill fun _ => marker).flatMap escape := by
  obtain ⟨indexed, htexts, hfill, hshown⟩ := exists_indexed marker template hlabels
  rw [← hfill, ← hshown]
  exact h.nonInterfering indexed (by rwa [Template.Avoids, htexts])

/-- One secret between texts without secrets. -/
theorem single (h : Hidden marker opening core closing escape secrets) {a b : List α}
    (hx : x ∈ secrets) (ha : Free secrets a) (hb : Free secrets b) :
    (redactAll marker secrets (a ++ (x ++ b))).flatMap escape =
      a.flatMap escape ++ (marker ++ b.flatMap escape) := by
  have havoids : (Template.hole a x (.plain b)).Avoids secrets := by
    intro text htext
    rcases List.mem_cons.mp htext with rfl | htext
    · exact ha
    · rw [List.mem_singleton.mp htext]
      exact hb
  have hvalues := h.values havoids fun label hlabel => List.mem_singleton.mp hlabel ▸ hx
  rw [Template.fill, Template.fill, Template.fill, Template.fill, List.flatMap_append,
    List.flatMap_append, h.flatMap_marker] at hvalues
  exact hvalues

/-- No secret lies properly inside another one. -/
theorem inside (h : Hidden marker opening core closing escape secrets) (hx : x ∈ secrets)
    (hy : y ∈ secrets) (hcontained : x <:+: y) : x = y := by
  obtain ⟨before, rest, rfl⟩ := hcontained
  obtain ⟨first, hfirst, hfirstLabels, rfl⟩ := Template.exists_parse h.nonempty before
  obtain ⟨second, hsecond, hsecondLabels, rfl⟩ := Template.exists_parse h.nonempty rest
  -- The outer secret can also be read as the inner one with texts around it.
  have havoids : (first.join x second).Avoids secrets := by
    intro text htext
    rw [Template.texts_join, List.mem_append] at htext
    exact htext.elim (hfirst text) (hsecond text)
  have hread := h.values havoids fun label hlabel => by
    rw [Template.labels_join, List.mem_append, List.mem_cons] at hlabel
    rcases hlabel with hlabel | rfl | hlabel
    · exact hfirstLabels label hlabel
    · exact hx
    · exact hsecondLabels label hlabel
  have hwhole := h.single hy h.free_nil h.free_nil
  rw [List.nil_append, List.append_nil, List.append_assoc] at hwhole
  rw [Template.fill_join, id, Template.fill_join, hwhole, List.flatMap_append, List.flatMap_append,
    h.flatMap_marker] at hread
  have hlength := congrArg List.length hread
  simp only [List.flatMap_nil, List.nil_append, List.append_nil, List.length_append] at hlength
  have hempty : ∀ template : Template α (List α),
      ((template.fill fun _ => marker).flatMap escape).length = 0 → template.fill id = [] :=
    fun template hzero => Template.fill_eq_nil (fun _ => h.bracketed.ne_nil)
      (h.escaping.flatMap_eq_nil.mp (List.length_eq_zero_iff.mp hzero))
  rw [hempty first (by omega), hempty second (by omega)]
  simp

/-- Nor does any secret occur in a proper part of one. -/
theorem free (h : Hidden marker opening core closing escape secrets) {part : List α}
    (hy : y ∈ secrets) (hpart : part <:+: y) (hproper : part ≠ y) : Free secrets part := by
  intro x hx hcontained
  have hsame := h.inside hx hy (hcontained.trans hpart)
  subst hsame
  exact hproper (List.infix_antisymm hpart hcontained)

/-- Two readings of one text show the same. -/
theorem readings (h : Hidden marker opening core closing escape secrets) {a b c d : List α}
    (hx : x ∈ secrets) (hy : y ∈ secrets) (ha : Free secrets a) (hb : Free secrets b)
    (hc : Free secrets c) (hd : Free secrets d) (heq : a ++ (x ++ b) = c ++ (y ++ d)) :
    a.flatMap escape ++ (marker ++ b.flatMap escape) =
      c.flatMap escape ++ (marker ++ d.flatMap escape) := by
  rw [← h.single hx ha hb, ← h.single hy hc hd, heq]

/-- A proper end that begins the word again is not the half of it or less. -/
theorem not_border_of_le (h : Hidden marker opening core closing escape secrets) {r m : List α}
    (hr : r ≠ []) (hx : r ++ (m ++ r) ∈ secrets) : False := by
  have hpos := List.length_pos_iff.mpr hr
  have hproper : ∀ {part : List α}, part.length < (r ++ (m ++ r)).length →
      part <:+: r ++ (m ++ r) → Free secrets part := by
    intro part hlength hpart
    exact h.free hx hpart fun heq => by rw [heq] at hlength; omega
  have hfront : Free secrets (r ++ m) :=
    hproper (by simp only [List.length_append]; omega) ⟨[], r, by simp⟩
  have hback : Free secrets (m ++ r) :=
    hproper (by simp only [List.length_append]; omega) ⟨r, [], by simp⟩
  have hmiddle : Free secrets m :=
    hproper (by simp only [List.length_append]; omega) ⟨r, r, by simp⟩
  -- Once with the middle shown between two secrets, once hidden in one secret.
  have havoids : (Template.hole [] (r ++ (m ++ r))
      (.hole m (r ++ (m ++ r)) (.plain []))).Avoids secrets := by
    intro text htext
    rcases List.mem_cons.mp htext with rfl | htext
    · exact h.free_nil
    rcases List.mem_cons.mp htext with rfl | htext
    · exact hmiddle
    · rw [List.mem_singleton.mp htext]
      exact h.free_nil
  have htwo := h.values havoids fun label hlabel => by
    rcases List.mem_cons.mp hlabel with rfl | hlabel
    · exact hx
    · rw [List.mem_singleton.mp hlabel]
      exact hx
  have hone := h.single hx hfront hback
  have hfill : (Template.hole [] (r ++ (m ++ r)) (.hole m (r ++ (m ++ r)) (.plain []))).fill id =
      (r ++ m) ++ ((r ++ (m ++ r)) ++ (m ++ r)) := by
    simp [Template.fill]
  rw [hfill, hone] at htwo
  have hlength := congrArg List.length htwo
  simp only [Template.fill, List.flatMap_append, h.flatMap_marker, List.length_append,
    List.flatMap_nil, List.length_nil] at hlength
  have hshift := h.readings hx hx h.free_nil hback hfront h.free_nil
    (by simp : [] ++ ((r ++ (m ++ r)) ++ (m ++ r)) = (r ++ m) ++ ((r ++ (m ++ r)) ++ []))
  rw [List.flatMap_nil, List.nil_append, List.append_nil] at hshift
  have hshown : r.flatMap escape ≠ [] := fun hnil => hr (h.escaping.flatMap_eq_nil.mp hnil)
  have hshownPos := List.length_pos_iff.mpr hshown
  rcases shift_unbordered h.bracketed.unbordered hshift with hnil | ⟨w, hw, _⟩
  · rw [List.flatMap_append] at hnil
    exact hshown (List.append_eq_nil_iff.mp hnil).1
  · have hwLength := congrArg List.length hw
    simp only [List.flatMap_append, List.length_append] at hwLength
    omega

/-- No proper end of a secret begins it. -/
theorem unbordered (h : Hidden marker opening core closing escape secrets) (hx : x ∈ secrets) :
    Unbordered x := by
  intro w hsuffix hbegins
  by_contra hproper
  rw [not_or] at hproper
  induction hlength : w.length using Nat.strong_induction_on generalizing w with
  | _ length ih =>
      obtain ⟨p, hp⟩ := hsuffix
      have hxLength := congrArg List.length hp
      rw [List.length_append] at hxLength
      by_cases hle : w.length ≤ p.length
      · obtain ⟨m, rfl⟩ := List.prefix_of_prefix_length_le hbegins ⟨w, hp⟩ hle
        rw [List.append_assoc] at hp
        exact h.not_border_of_le hproper.1 (hp ▸ hx)
      · -- The border overlaps itself, and what overlaps is a shorter border.
        obtain ⟨w', hw⟩ := List.prefix_of_prefix_length_le ⟨w, hp⟩ hbegins (by omega)
        obtain ⟨q, hq⟩ := hbegins
        have hwLength := congrArg List.length hw
        rw [List.length_append] at hwLength
        have hpNil : p.length ≠ 0 := by
          intro hzero
          rw [List.length_eq_zero_iff.mp hzero, List.nil_append] at hp
          exact hproper.2 hp
        refine ih w'.length (by omega) w' ⟨p ++ p, ?_⟩ ⟨q ++ q, ?_⟩ ⟨?_, ?_⟩ rfl
        · rw [List.append_assoc, hw, hp]
        · have hinner : w' ++ q = w := by
            rw [← hw, List.append_assoc] at hq
            have hp' := hp
            rw [← hq] at hp'
            exact (List.append_cancel_left hp').symm
          rw [← List.append_assoc, hinner, hq]
        · intro hnil
          rw [hnil, List.length_nil] at hwLength
          omega
        · intro hsame
          rw [hsame] at hwLength
          omega

/-- An end of one secret begins another only where both are that end. -/
theorem after (h : Hidden marker opening core closing escape secrets) (hx : x ∈ secrets)
    (hy : y ∈ secrets) {w : List α} (hsuffix : w <:+ x) (hbegins : w <+: y) :
    w = [] ∨ (w = x ∧ w = y) := by
  by_contra hproper
  rw [not_or] at hproper
  obtain ⟨hw, hproper⟩ := hproper
  have hwx : w ≠ x := fun heq => hproper ⟨heq, by
    rw [heq]
    exact h.inside hx hy (heq ▸ hbegins.isInfix)⟩
  have hwy : w ≠ y := fun heq => hproper ⟨by
    rw [heq]
    exact h.inside hy hx (heq ▸ hsuffix.isInfix), heq⟩
  obtain ⟨p, rfl⟩ := hsuffix
  obtain ⟨q, rfl⟩ := hbegins
  have hpos := List.length_pos_iff.mpr hw
  have hp : p ≠ [] := fun hnil => hwx (by rw [hnil, List.nil_append])
  have hq : q ≠ [] := fun hnil => hwy (by rw [hnil, List.append_nil])
  have hpFree : Free secrets p := h.free hx ⟨[], w, rfl⟩ fun heq => hw (by simpa using heq)
  have hqFree : Free secrets q := h.free hy ⟨w, [], by simp⟩ fun heq => hw (by simpa using heq)
  have hfirst := h.readings hx hy h.free_nil hqFree hpFree h.free_nil
    (by simp : [] ++ ((p ++ w) ++ q) = p ++ ((w ++ q) ++ []))
  rw [List.flatMap_nil, List.nil_append, List.append_nil] at hfirst
  rcases shift_unbordered h.bracketed.unbordered hfirst with hnil | ⟨shown, hpShown, hqShown⟩
  · exact hp (h.escaping.flatMap_eq_nil.mp hnil)
  · -- The first secret begins with the marker and the second one ends with it.
    obtain ⟨p', rfl, _⟩ := h.escaping.of_prefix (fun _ hc => hc) hpShown
    obtain ⟨q', rfl, _⟩ := h.escaping.of_suffix h.bracketed List.prefix_rfl hqShown
    have hmarker := List.length_pos_iff.mpr h.bracketed.ne_nil
    have hback : Free secrets (p' ++ w) := by
      refine h.free hx ⟨marker, [], by simp⟩ fun heq => ?_
      have hlength := congrArg List.length heq
      simp only [List.length_append] at hlength
      omega
    have hfront : Free secrets (w ++ q') := by
      refine h.free hy ⟨[], marker, by simp⟩ fun heq => ?_
      have hlength := congrArg List.length heq
      simp only [List.length_append] at hlength
      omega
    have hsecond := h.readings hy hx h.free_nil hback hfront h.free_nil
      (by simp : [] ++ ((w ++ (q' ++ marker)) ++ (p' ++ w)) =
        (w ++ q') ++ (((marker ++ p') ++ w) ++ []))
    rw [List.flatMap_nil, List.nil_append, List.append_nil] at hsecond
    rcases shift_unbordered h.bracketed.unbordered hsecond with hnil | ⟨_, _, hshown⟩
    · exact hw (List.append_eq_nil_iff.mp (h.escaping.flatMap_eq_nil.mp hnil)).1
    · obtain ⟨v, hv, _⟩ := h.escaping.of_suffix h.bracketed List.prefix_rfl hshown
      rcases h.unbordered hx marker ⟨marker ++ v, by rw [List.append_assoc, ← hv]; simp⟩
        ⟨p' ++ w, by simp⟩ with hnil | heq
      · exact h.bracketed.ne_nil hnil
      · have hlength := congrArg List.length heq
        simp only [List.length_append] at hlength
        omega

/-- Any two secrets are apart. -/
theorem apart (h : Hidden marker opening core closing escape secrets) (hx : x ∈ secrets)
    (hy : y ∈ secrets) : Apart x y where
  inside := h.inside hx hy
  around := fun hcontained => (h.inside hy hx hcontained).symm
  after := fun _ hsuffix hbegins => h.after hx hy hsuffix hbegins
  before := fun _ hbegins hsuffix => (h.after hy hx hsuffix hbegins).imp_right And.symm

/-- Secrets after the first one do not lie inside the marker. -/
theorem infix_marker {pending : List (List α)}
    (h : Hidden marker opening core closing escape (x :: pending)) (hy : y ∈ pending)
    (hcontained : y <:+: marker) : y = marker := by
  by_contra hproper
  have hx : x ∈ x :: pending := List.mem_cons_self
  have hwhole := h.single hx h.free_nil h.free_nil
  have hreplaced := replaceAll_pattern (h.nonempty x hx) marker []
  simp only [List.append_nil, replaceAll_nil] at hreplaced
  rw [List.nil_append, List.append_nil, redactAll, List.foldl_cons, hreplaced,
    List.flatMap_nil, List.nil_append, List.append_nil] at hwhole
  have hgrows := redactAll_marker_grows
    (fun z hz => h.nonempty z (List.mem_cons_of_mem x hz)) hy hcontained hproper
    fun z hz => h.inside (List.mem_cons_of_mem x hy) (List.mem_cons_of_mem x hz)
  have hlonger := h.escaping.length_le_flatMap (redactAll marker pending marker)
  rw [redactAll, hwhole] at hlonger
  exact absurd hgrows (not_lt.mpr hlonger)

/-! ### The first secret and a straddled marker -/

/-- Secrets after the first one do not lie inside a proper part of the marker. -/
theorem not_infix_part {pending : List (List α)}
    (h : Hidden marker opening core closing escape (x :: pending)) {z part : List α}
    (hz : z ∈ pending) (hpart : part <:+: marker) (hlength : part.length < marker.length) :
    ¬ z <:+: part := by
  intro hcontained
  rw [h.infix_marker hz (hcontained.trans hpart)] at hcontained
  exact absurd hcontained.length_le (by omega)

/-- The first secret gives way to the marker before any other. -/
theorem redactAll_first {pending : List (List α)}
    (h : Hidden marker opening core closing escape (x :: pending)) {front back : List α}
    (hfront : ¬ x <:+: front) (hback : ¬ x <:+: back) :
    redactAll marker (x :: pending) (front ++ (x ++ back)) =
      redactAll marker pending (front ++ (marker ++ back)) := by
  have hx : x ∈ x :: pending := List.mem_cons_self
  rw [redactAll, List.foldl_cons, replaceAll_single (h.nonempty x hx) (h.apart hx hx) hfront hback]
  rfl

/-- Secrets are replaced in their order. -/
theorem redactAll_split {before after : List (List α)} {y : List α} (text : List α) :
    redactAll marker (before ++ y :: after) text =
      redactAll marker after (replaceAll y marker (redactAll marker before text)) := by
  rw [redactAll, List.foldl_append, List.foldl_cons]
  rfl

section Straddled

variable {before after : List (List α)} {y a b c d : List α}

/-- The straddling secret takes the place of the marker in the text that it shares with it:
nothing else occurs there before its turn. -/
theorem redactAll_straddle (h : Hidden marker opening core closing escape
      (x :: (before ++ y :: after))) (hstraddle : Straddle marker y a b c d)
    (hbefore : ∀ z ∈ before, Apart z marker) (hy : ¬ Apart y marker) :
    redactAll marker (before ++ y :: after) (c ++ (y ++ d)) =
      redactAll marker after (c ++ (marker ++ d)) := by
  obtain ⟨⟨hcInside, hcLength⟩, hdInside, hdLength⟩ := hstraddle.beside h.bracketed.ne_nil
  have hyMem : y ∈ before ++ y :: after := List.mem_append_right before List.mem_cons_self
  have hmem : ∀ {z}, z ∈ before ++ y :: after → z ∈ x :: (before ++ y :: after) :=
    List.mem_cons_of_mem x
  have hkept : redactAll marker before (c ++ (y ++ d)) = c ++ (y ++ d) := by
    refine redactAll_of_free fun z hz hcontained => ?_
    have hzMem : z ∈ before ++ y :: after := List.mem_append_left _ hz
    rcases (h.apart (hmem hzMem) (hmem hyMem)).infix_around hcontained with
      rfl | hcontained | hcontained
    · exact hy (hbefore z hz)
    · exact h.not_infix_part hzMem hcInside hcLength hcontained
    · exact h.not_infix_part hzMem hdInside hdLength hcontained
  rw [redactAll_split, hkept, replaceAll_single (h.nonempty y (hmem hyMem))
    (h.apart (hmem hyMem) (hmem hyMem)) (h.not_infix_part hyMem hcInside hcLength)
    (h.not_infix_part hyMem hdInside hdLength)]

/-- What is shown of the first secret between the parts of the straddling one. -/
theorem shown_straddle (h : Hidden marker opening core closing escape
      (x :: (before ++ y :: after))) (hstraddle : Straddle marker y a b c d)
    (hbefore : ∀ z ∈ before, Apart z marker) (hy : ¬ Apart y marker) :
    (redactAll marker after (c ++ (marker ++ d))).flatMap escape =
      a.flatMap escape ++ (marker ++ b.flatMap escape) := by
  obtain ⟨⟨haPart, haProper⟩, hbPart, hbProper⟩ := hstraddle.parts h.bracketed.ne_nil
  have hx : x ∈ x :: (before ++ y :: after) := List.mem_cons_self
  have hyMem : y ∈ x :: (before ++ y :: after) :=
    List.mem_cons_of_mem x (List.mem_append_right before List.mem_cons_self)
  have haFree := h.free hyMem haPart haProper
  have hbFree := h.free hyMem hbPart hbProper
  have hshown := h.single hx haFree hbFree
  rw [h.redactAll_first (haFree x hx) (hbFree x hx), hstraddle.text,
    h.redactAll_straddle hstraddle hbefore hy] at hshown
  exact hshown

/-- A first secret inside the marker would occur more often in what is shown than there is room
for: later secrets only add occurrences. -/
theorem not_inside_of_straddle (h : Hidden marker opening core closing escape
      (x :: (before ++ y :: after))) (hstraddle : Straddle marker y a b c d)
    (hbefore : ∀ z ∈ before, Apart z marker) (hy : ¬ Apart y marker) : ¬ x <:+: marker := by
  intro hxInside
  obtain ⟨⟨hcInside, hcLength⟩, hdInside, hdLength⟩ := hstraddle.beside h.bracketed.ne_nil
  have hx : x ∈ x :: (before ++ y :: after) := List.mem_cons_self
  have hyMem : y ∈ before ++ y :: after := List.mem_append_right before List.mem_cons_self
  have hmem : ∀ {z}, z ∈ before ++ y :: after → z ∈ x :: (before ++ y :: after) :=
    List.mem_cons_of_mem x
  have hxMarker : x ≠ marker := fun heq => hy (heq ▸ h.apart (hmem hyMem) hx)
  have hothers : ∀ z ∈ before ++ y :: after, z ≠ [] ∧ Apart x z ∧ x ≠ z := by
    refine fun z hz => ⟨h.nonempty z (hmem hz), h.apart hx (hmem hz), ?_⟩
    rintro rfl
    exact hxMarker (h.infix_marker hz hxInside)
  have hshown := h.shown_straddle hstraddle hbefore hy
  have hplain : ∀ element ∈ redactAll marker after (c ++ (marker ++ d)), element ∈ marker := by
    intro element helement
    rcases mem_redactAll helement with helement | helement
    · exact helement
    · rw [List.mem_append, List.mem_append] at helement
      rcases helement with helement | helement | helement
      · exact hcInside.subset helement
      · exact helement
      · exact hdInside.subset helement
  have hsame : a ++ (marker ++ b) = redactAll marker after (c ++ (marker ++ d)) := by
    refine h.escaping.eq_of_flatMap hplain ?_
    rw [List.flatMap_append, List.flatMap_append, h.flatMap_marker, ← hshown,
      h.escaping.flatMap_marker hplain]
  have hafter := occurrences_redactAll (h.nonempty x hx)
    (fun z hz => hothers z (List.mem_append_right before (List.mem_cons_of_mem y hz)))
    marker (c ++ (marker ++ d))
  obtain ⟨hyNe, hyOther, hyDiffers⟩ := hothers y hyMem
  have hmore := (occurrences_replaceAll hyOther hyDiffers (h.nonempty x hx) hyNe marker
    (c ++ (y ++ d))).2 ⟨c, d, List.append_assoc c y d⟩
  have hpos := occurrences_pos (h.nonempty x hx) hxInside
  rw [replaceAll_single hyNe (h.apart (hmem hyMem) (hmem hyMem))
    (h.not_infix_part hyMem hcInside hcLength) (h.not_infix_part hyMem hdInside hdLength)] at hmore
  rw [← hsame, hstraddle.text] at hafter
  omega

/-- A first secret outside the marker is not told from another text, which has no secret. -/
theorem inside_of_straddle (h : Hidden marker opening core closing escape
      (x :: (before ++ y :: after))) (hstraddle : Straddle marker y a b c d)
    (hbefore : ∀ z ∈ before, Apart z marker) (hy : ¬ Apart y marker)
    (hyInside : ¬ y <:+: marker) : x <:+: marker := by
  by_contra hxInside
  obtain ⟨⟨hcInside, hcLength⟩, hdInside, hdLength⟩ := hstraddle.beside h.bracketed.ne_nil
  have hx : x ∈ x :: (before ++ y :: after) := List.mem_cons_self
  have hfree : ∀ {part : List α}, part <:+: marker → part.length < marker.length →
      Free (x :: (before ++ y :: after)) part := by
    intro part hinside hlength z hz
    rcases List.mem_cons.mp hz with rfl | hz
    · exact fun hcontained => hxInside (hcontained.trans hinside)
    · exact h.not_infix_part hz hinside hlength
  have hcFree := hfree hcInside hcLength
  have hdFree := hfree hdInside hdLength
  have hmarked : redactAll marker before (c ++ (marker ++ d)) = c ++ (marker ++ d) := by
    refine redactAll_of_apart_marker hbefore fun z hz => ?_
    have hzMem : z ∈ x :: (before ++ y :: after) :=
      List.mem_cons_of_mem x (List.mem_append_left _ hz)
    exact ⟨h.nonempty z hzMem, hcFree z hzMem, hdFree z hzMem⟩
  have hother := h.single hx hcFree hdFree
  rw [h.redactAll_first (hcFree x hx) (hdFree x hx), redactAll_split, hmarked,
    replaceAll_of_absent (hstraddle.not_contained h.bracketed hyInside),
    h.shown_straddle hstraddle hbefore hy,
    h.escaping.flatMap_marker fun _ hc => hcInside.subset hc,
    h.escaping.flatMap_marker fun _ hd => hdInside.subset hd] at hother
  exact hstraddle.shown_ne h.bracketed h.escaping hother

end Straddled

/-- Every secret after the first one is apart from the marker. -/
theorem apart_marker {pending : List (List α)}
    (h : Hidden marker opening core closing escape (x :: pending)) :
    ∀ y ∈ pending, Apart y marker := by
  by_contra hfirst
  obtain ⟨before, y, after, rfl, hbefore, hy⟩ := exists_first_not hfirst
  have hyInside : ¬ y <:+: marker := fun hcontained => hy (by
    rw [h.infix_marker (List.mem_append_right before List.mem_cons_self) hcontained]
    exact h.bracketed.unbordered.apart)
  obtain ⟨a, b, c, d, hstraddle⟩ := exists_straddle hyInside hy
  exact h.not_inside_of_straddle hstraddle hbefore hy
    (h.inside_of_straddle hstraddle hbefore hy hyInside)

/-- Secrets that stay hidden are independent of each other and of the marker. -/
theorem independent (h : Hidden marker opening core closing escape secrets) :
    Independent marker secrets where
  apart := fun _ hx _ hy => h.apart hx hy
  apart_marker := by
    cases secrets with
    | nil => nofun
    | cons x pending => exact h.apart_marker

end Hidden

/-- Secrets are hidden wherever they occur exactly when they are independent. -/
theorem nonInterfering_iff (hbracketed : Bracketed marker opening core closing)
    (hescape : Escaping marker opening escape) (hne : ∀ x ∈ secrets, x ≠ []) :
    NonInterfering marker escape secrets ↔ Independent marker secrets :=
  ⟨fun hni => Hidden.independent ⟨hbracketed, hescape, hne, hni⟩,
    fun hindependent => hindependent.nonInterfering escape hne⟩

/-! ## Two runs -/

/-- Runs with these secrets cannot be told from runs with other, independent ones in
the same places. -/
def Indistinguishable (marker : List α) (escape : α → List α) (secrets : List (List α)) : Prop :=
  ∀ (others : List (List α)) (hlength : secrets.length = others.length), (∀ x ∈ others, x ≠ []) →
    Independent marker others →
    ∀ template : Template α (Fin secrets.length), template.Avoids secrets →
      template.Avoids others →
      (redactAll marker secrets (template.fill secrets.get)).flatMap escape =
        (redactAll marker others
          (template.fill fun place => others.get (place.cast hlength))).flatMap escape

omit [DecidableEq α] in
/-- There are independent secrets, as many and as long as is asked for. -/
theorem exists_independent {first other : α} (hmarkerNe : marker ≠ []) (hne : first ≠ other)
    (hfirst : first ∉ marker) (hother : other ∉ marker) (count length : Nat) :
    ∃ others : List (List α), others.length = count ∧ (∀ x ∈ others, length < x.length) ∧
      Independent marker others := by
  let word := first :: List.replicate length other
  have hforeign : ∀ c ∈ word, c ∉ marker := by
    intro c hc
    rcases List.mem_cons.mp hc with rfl | hc
    · exact hfirst
    · rwa [List.eq_of_mem_replicate hc]
  -- Its first letter occurs in the word only once.
  have hword : Apart word word := by
    refine Unbordered.apart ?_
    rintro w ⟨front, hfront⟩ ⟨back, hback⟩
    cases w with
    | nil => exact .inl rfl
    | cons head w =>
        obtain ⟨rfl, _⟩ := List.cons_eq_cons.mp hback
        cases front with
        | nil => exact .inr hfront
        | cons _ front =>
            obtain ⟨_, hrest⟩ := List.cons_eq_cons.mp hfront
            have hmem : head ∈ List.replicate length other := by rw [← hrest]; simp
            exact absurd (List.eq_of_mem_replicate hmem) hne
  -- The word and the marker have no letter in common.
  have hmarker : Apart word marker := by
    have hnone : ∀ w, w ⊆ word → w ⊆ marker → w = [] := by
      intro w hwWord hwMarker
      refine List.eq_nil_iff_forall_not_mem.mpr fun c hc => ?_
      exact hforeign c (hwWord hc) (hwMarker hc)
    refine ⟨fun hcontained => ?_, fun hcontained => ?_, fun w hsuffix hbegins => ?_,
      fun w hbegins hsuffix => ?_⟩
    · exact absurd (hcontained.subset List.mem_cons_self) hfirst
    · exact absurd (hnone marker hcontained.subset (List.Subset.refl marker)) hmarkerNe
    · exact .inl (hnone w hsuffix.subset hbegins.subset)
    · exact .inl (hnone w hbegins.subset hsuffix.subset)
  refine ⟨List.replicate count word, List.length_replicate, ?_, ?_, ?_⟩
  · intro x hx
    rw [List.eq_of_mem_replicate hx]
    simp [word]
  · intro x hx y hy
    rw [List.eq_of_mem_replicate hx, List.eq_of_mem_replicate hy]
    exact hword
  · intro x hx
    rw [List.eq_of_mem_replicate (List.mem_of_mem_tail hx)]
    exact hmarker

/-- Runs cannot be told apart by the secrets exactly when these are independent. -/
theorem indistinguishable_iff (hbracketed : Bracketed marker opening core closing)
    (hescape : Escaping marker opening escape) (hne : ∀ x ∈ secrets, x ≠ []) {first other : α}
    (hletters : first ≠ other) (hfirst : first ∉ marker) (hother : other ∉ marker) :
    Indistinguishable marker escape secrets ↔ Independent marker secrets := by
  have hhidden := nonInterfering_iff hbracketed hescape hne
  constructor
  · intro hsame
    refine hhidden.mp fun template havoids => ?_
    obtain ⟨others, hlength, hlong, hindependent⟩ := exists_independent hbracketed.ne_nil
      hletters hfirst hother secrets.length (template.fill secrets.get).length
    have hothersNe : ∀ x ∈ others, x ≠ [] := by
      rintro x hx rfl
      exact absurd (hlong [] hx) (Nat.not_lt_zero _)
    have havoidsOthers : template.Avoids others := by
      intro text htext x hx hcontained
      have hbound := template.length_le_fill secrets.get htext
      have hinside := hcontained.length_le
      have hlonger := hlong x hx
      omega
    rw [hsame others hlength.symm hothersNe hindependent template havoids havoidsOthers,
      hindependent.redactAll_fill hothersNe havoidsOthers fun place _ => List.get_mem others _]
  · intro hindependent others hlength hothersNe hothers template havoids havoidsOthers
    rw [hindependent.redactAll_fill hne havoids fun place _ => List.get_mem secrets place,
      hothers.redactAll_fill hothersNe havoidsOthers fun place _ => List.get_mem others _]

end CfIntegration.Redaction
