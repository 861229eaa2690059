import CfIntegration.Foundation.Overlap

/-! # Redaction of several secrets

Secrets are replaced by one marker, one secret after the other, and the result is
escaped character by character. What is shown does not depend on the secrets exactly
when they are independent: apart from one another, and, after the first one, apart
from the marker that earlier replacements have put into the text.
-/

namespace CfIntegration.Redaction

open Overlap

universe u v

variable {α : Type u}

/-- Secrets that cannot be mistaken for one another or for the marker. -/
structure Independent (marker : List α) (secrets : List (List α)) : Prop where
  apart : ∀ x ∈ secrets, ∀ y ∈ secrets, Apart x y
  apart_marker : ∀ x ∈ secrets.tail, Apart x marker

/-- The marker has brackets that occur nowhere else in it. -/
structure Bracketed (marker : List α) (opening : α) (core : List α) (closing : α) : Prop where
  eq : marker = opening :: (core ++ [closing])
  opening_notMem : opening ∉ core ++ [closing]
  closing_notMem : closing ∉ opening :: core

/-- Characters of the marker are shown as they are. An escape begins with a character
foreign to the marker, and the opening bracket is not inside it. -/
structure Escaping (marker : List α) (opening : α) (escape : α → List α) : Prop where
  plain : ∀ c ∈ marker, escape c = [c]
  other : ∀ c, escape c = [c] ∨
    ∃ first rest, escape c = first :: rest ∧ first ∉ marker ∧ opening ∉ rest

section Marker

variable {marker core : List α} {opening closing : α}

theorem Bracketed.ne_nil (hmarker : Bracketed marker opening core closing) : marker ≠ [] := by
  rw [hmarker.eq]
  exact List.cons_ne_nil _ _

/-- A bracketed marker has no border. -/
theorem Bracketed.unbordered (hmarker : Bracketed marker opening core closing) :
    Unbordered marker := by
  rintro w ⟨front, hfront⟩ ⟨back, hback⟩
  cases w with
  | nil => exact .inl rfl
  | cons first rest =>
      rw [hmarker.eq] at hback
      obtain ⟨rfl, _⟩ := List.cons_eq_cons.mp hback
      cases front with
      | nil => exact .inr hfront
      | cons head front =>
          rw [hmarker.eq] at hfront
          obtain ⟨_, hrest⟩ := List.cons_eq_cons.mp hfront
          refine absurd ?_ hmarker.opening_notMem
          rw [← hrest]
          simp

/-- Shifted by less than its length, the marker does not meet itself. -/
theorem shift_unbordered (hunbordered : Unbordered marker) {u v : List α}
    (heq : marker ++ v = u ++ marker) : u = [] ∨ ∃ w, u = marker ++ w ∧ v = w ++ marker := by
  rcases List.append_eq_append_iff.mp heq with ⟨w, hu, hv⟩ | ⟨w, hmarker, hmarker'⟩
  · exact .inr ⟨w, hu, hv⟩
  · rcases hunbordered w ⟨u, hmarker.symm⟩ ⟨v, hmarker'.symm⟩ with rfl | rfl
    · exact .inr ⟨[], by simpa using hmarker.symm, by simpa using hmarker'.symm⟩
    · exact .inl (List.append_left_eq_self.mp hmarker.symm)

end Marker

section Escaped

variable {marker core : List α} {opening closing : α} {escape : α → List α}

theorem Escaping.ne_nil (hescape : Escaping marker opening escape) (c : α) : escape c ≠ [] := by
  rcases hescape.other c with hplain | ⟨_, _, hescaped, _⟩ <;> simp [*]

/-- Nothing but the empty text shows as nothing. -/
theorem Escaping.flatMap_eq_nil (hescape : Escaping marker opening escape) {text : List α} :
    text.flatMap escape = [] ↔ text = [] := by
  rw [List.flatMap_eq_nil_iff, List.eq_nil_iff_forall_not_mem]
  exact forall₂_congr fun c _ => iff_false_intro (hescape.ne_nil c)

/-- Escaping never shortens a text. -/
theorem Escaping.length_le_flatMap (hescape : Escaping marker opening escape) (text : List α) :
    text.length ≤ (text.flatMap escape).length := by
  induction text with
  | nil => exact le_refl _
  | cons c rest ih =>
      have hpos := List.length_pos_iff.mpr (hescape.ne_nil c)
      rw [List.flatMap_cons, List.length_append, List.length_cons]
      omega

/-- A text of the marker's characters shows as itself. -/
theorem Escaping.flatMap_marker (hescape : Escaping marker opening escape) {text : List α}
    (htext : ∀ c ∈ text, c ∈ marker) : text.flatMap escape = text := by
  induction text with
  | nil => rfl
  | cons c rest ih =>
      rw [List.forall_mem_cons] at htext
      rw [List.flatMap_cons, hescape.plain c htext.1, ih htext.2, List.singleton_append]

/-- What is shown as characters of the marker begins with these characters. -/
theorem Escaping.of_prefix (hescape : Escaping marker opening escape) {shown rest text : List α}
    (hshown : ∀ c ∈ shown, c ∈ marker) (heq : text.flatMap escape = shown ++ rest) :
    ∃ others, text = shown ++ others ∧ others.flatMap escape = rest := by
  induction shown generalizing text with
  | nil => exact ⟨text, rfl, heq⟩
  | cons c shown ih =>
      rw [List.forall_mem_cons] at hshown
      cases text with
      | nil => cases heq
      | cons d text =>
          rw [List.flatMap_cons, List.cons_append] at heq
          rcases hescape.other d with hplain | ⟨first, others, hescaped, hforeign, _⟩
          · rw [hplain, List.singleton_append] at heq
            obtain ⟨rfl, hrest⟩ := List.cons_eq_cons.mp heq
            obtain ⟨others, rfl, hothers⟩ := ih hshown.2 hrest
            exact ⟨others, rfl, hothers⟩
          · rw [hescaped, List.cons_append] at heq
            obtain ⟨rfl, _⟩ := List.cons_eq_cons.mp heq
            exact absurd hshown.1 hforeign

/-- A text shown as characters of the marker is that text. -/
theorem Escaping.eq_of_flatMap (hescape : Escaping marker opening escape) {shown text : List α}
    (hshown : ∀ c ∈ shown, c ∈ marker) (heq : text.flatMap escape = shown) : text = shown := by
  have hwhole : text.flatMap escape = shown ++ [] := by rw [heq, List.append_nil]
  obtain ⟨others, rfl, hothers⟩ := hescape.of_prefix hshown hwhole
  rw [hescape.flatMap_eq_nil.mp hothers, List.append_nil]

/-- What is shown with the marker at its end ends with the marker. -/
theorem Escaping.of_suffix (hmarker : Bracketed marker opening core closing)
    (hescape : Escaping marker opening escape) {shown rest text : List α}
    (hshown : shown <+: marker) (heq : text.flatMap escape = rest ++ shown) :
    ∃ others, text = others ++ shown ∧ others.flatMap escape = rest := by
  induction shown using List.reverseRecOn generalizing text with
  | nil => exact ⟨text, (List.append_nil text).symm, by simpa using heq⟩
  | append_singleton shown c ih =>
      have hbegins : shown <+: marker := (List.prefix_append shown [c]).trans hshown
      rcases List.eq_nil_or_concat text with rfl | ⟨text, d, rfl⟩
      · simp at heq
      rw [List.concat_eq_append] at heq ⊢
      rw [List.flatMap_append, List.flatMap_singleton] at heq
      rcases hescape.other d with hplain | ⟨first, others, hescaped, hforeign, hopening⟩
      · rw [hplain, ← List.append_assoc] at heq
        obtain ⟨heq, hlast⟩ := List.append_inj' heq rfl
        obtain ⟨others, rfl, hothers⟩ := ih hbegins heq
        exact ⟨others, by rw [hlast, List.append_assoc], hothers⟩
      · rw [hescaped] at heq
        rcases List.append_eq_append_iff.mp heq with ⟨e, _, hrest⟩ | ⟨e, _, hrest⟩
        · cases e with
          | nil =>
              refine absurd (hshown.subset ?_) hforeign
              rw [List.nil_append] at hrest
              rw [← hrest]
              exact List.mem_cons_self
          | cons _ e =>
              -- The shown text lies inside the escape, and begins with the bracket.
              obtain ⟨_, hothers⟩ := List.cons_eq_cons.mp hrest
              refine absurd ?_ hopening
              rw [hothers]
              obtain ⟨back, hback⟩ := hshown
              have hfirst : opening ∈ (shown ++ [c]).head? := by
                have hhead := congrArg List.head? hback
                rw [hmarker.eq] at hhead
                cases hlist : shown ++ [c] with
                | nil => simp at hlist
                | cons head tail =>
                    rw [hlist] at hhead
                    simpa using hhead
              exact List.mem_append_right e (List.mem_of_head? hfirst)
        · refine absurd (hshown.subset ?_) hforeign
          rw [hrest]
          simp

end Escaped

section Redact

variable [DecidableEq α]

def redactAll (marker : List α) (secrets : List (List α)) (text : List α) : List α :=
  secrets.foldl (fun text secret => replaceAll secret marker text) text

variable {ι : Type v} {marker : List α} {secrets : List (List α)}

/-- The secrets still to be replaced are apart from the marker and from each other, and
every hole holds one of them or the marker. -/
theorem redactAll_fill_of_apart {pending : List (List α)} (hne : ∀ x ∈ pending, x ≠ [])
    (hapart : ∀ x ∈ pending, ∀ y ∈ pending, Apart x y) (hmarker : ∀ x ∈ pending, Apart x marker)
    {template : Template α ι} (havoids : template.Avoids pending) {value : ι → List α}
    (hvalue : ∀ label ∈ template.labels, value label = marker ∨ value label ∈ pending) :
    redactAll marker pending (template.fill value) = template.fill fun _ => marker := by
  induction pending generalizing value with
  | nil =>
      refine Template.fill_congr fun label hlabel => ?_
      simpa using hvalue label hlabel
  | cons secret pending ih =>
      have hstep := Template.replaceAll_fill (hne secret List.mem_cons_self) marker
        (fun text htext => havoids text htext secret List.mem_cons_self)
        (fun label hlabel => show Apart secret (value label) by
          rcases hvalue label hlabel with heq | hmem
          · exact heq ▸ hmarker secret List.mem_cons_self
          · exact hapart secret List.mem_cons_self _ hmem)
      rw [redactAll, List.foldl_cons, hstep]
      refine ih (fun x hx => hne x (List.mem_cons_of_mem secret hx))
        (fun x hx y hy => hapart x (List.mem_cons_of_mem secret hx) y
          (List.mem_cons_of_mem secret hy))
        (fun x hx => hmarker x (List.mem_cons_of_mem secret hx))
        (fun text htext x hx => havoids text htext x (List.mem_cons_of_mem secret hx)) ?_
      intro label hlabel
      split
      · exact .inl rfl
      next hother =>
        refine (hvalue label hlabel).imp_right fun hmem => ?_
        exact (List.mem_cons.mp hmem).resolve_left hother

/-- A text without secrets stays as it is. -/
theorem redactAll_of_free {text : List α} (hfree : ∀ x ∈ secrets, ¬ x <:+: text) :
    redactAll marker secrets text = text := by
  induction secrets with
  | nil => rfl
  | cons secret pending ih =>
      rw [List.forall_mem_cons] at hfree
      rw [redactAll, List.foldl_cons, replaceAll_of_absent hfree.1]
      exact ih hfree.2

/-- Every element comes from the marker or from the text. -/
theorem mem_redactAll {text : List α} {element : α}
    (hmem : element ∈ redactAll marker secrets text) : element ∈ marker ∨ element ∈ text := by
  induction secrets generalizing text with
  | nil => exact .inr hmem
  | cons secret pending ih => exact (ih hmem).elim .inl mem_replaceFrom

/-- Replacing words that are apart from another one never removes an occurrence of it. -/
theorem occurrences_redactAll {x : List α} (hx : x ≠ [])
    (hpending : ∀ z ∈ secrets, z ≠ [] ∧ Apart x z ∧ x ≠ z) (marker text : List α) :
    occurrences x text ≤ occurrences x (redactAll marker secrets text) := by
  induction secrets generalizing text with
  | nil => exact le_refl _
  | cons secret pending ih =>
      rw [List.forall_mem_cons] at hpending
      obtain ⟨⟨hsecret, hapart, hne⟩, hpending⟩ := hpending
      exact (occurrences_replaceAll hapart hne hx hsecret marker text).1.trans (ih hpending _)

/-- Once it holds the marker and more, a text goes on doing so, unless a secret could
swallow the marker. -/
theorem redactAll_grows (hpending : ∀ z ∈ secrets, z ≠ [] ∧ ¬ marker <:+: z) {text : List α}
    (hmarker : marker <:+: text) (hmore : marker.length < text.length) :
    marker.length < (redactAll marker secrets text).length := by
  induction secrets generalizing text with
  | nil => exact hmore
  | cons secret pending ih =>
      rw [List.forall_mem_cons] at hpending
      obtain ⟨⟨hsecret, hswallow⟩, hpending⟩ := hpending
      rw [redactAll, List.foldl_cons]
      have hne : marker ≠ [] := fun hnil => hswallow (hnil ▸ List.nil_infix)
      by_cases hcontained : secret <:+: text
      · obtain ⟨hoccurs, rfl | hlength⟩ := replaceAll_grows hsecret hne hcontained
        · exact absurd hmarker hswallow
        · exact ih hpending hoccurs hlength
      · rw [replaceAll_of_absent hcontained]
        exact ih hpending hmarker hmore

/-- A secret inside the marker makes the marker grow. -/
theorem redactAll_marker_grows {y : List α} (hne : ∀ z ∈ secrets, z ≠ []) (hy : y ∈ secrets)
    (hcontained : y <:+: marker) (hproper : y ≠ marker)
    (hinside : ∀ z ∈ secrets, y <:+: z → y = z) :
    marker.length < (redactAll marker secrets marker).length := by
  have hswallow : ∀ z ∈ secrets, z ≠ [] ∧ ¬ marker <:+: z := by
    refine fun z hz => ⟨hne z hz, fun hmarker => ?_⟩
    have hsame := hinside z hz (hcontained.trans hmarker)
    exact hproper (List.infix_antisymm hcontained (hsame ▸ hmarker))
  clear hinside
  induction secrets with
  | nil => cases hy
  | cons secret pending ih =>
      rw [List.forall_mem_cons] at hne hswallow
      rw [redactAll, List.foldl_cons]
      by_cases hsecret : secret <:+: marker ∧ secret ≠ marker
      · have hmarkerNe : marker ≠ [] := fun hnil => hswallow.1.2 (hnil ▸ List.nil_infix)
        obtain ⟨hoccurs, hsame | hlength⟩ := replaceAll_grows hne.1 hmarkerNe hsecret.1
        · exact absurd hsame.symm hsecret.2
        · exact redactAll_grows hswallow.2 hoccurs hlength
      · have hkept : replaceAll secret marker marker = marker := by
          by_cases hsame : secret = marker
          · have hwhole := replaceAll_pattern hne.1 marker []
            rw [List.append_nil, replaceAll_nil, List.append_nil] at hwhole
            rwa [hsame] at hwhole ⊢
          · exact replaceAll_of_absent (fun hoccurs => hsecret ⟨hoccurs, hsame⟩) marker
        rw [hkept]
        refine ih hne.2 ((List.mem_cons.mp hy).resolve_left ?_) hswallow.2
        rintro rfl
        exact hsecret ⟨hcontained, hproper⟩

/-- Secrets apart from the marker leave it alone. -/
theorem redactAll_of_apart_marker {c d : List α} (hapart : ∀ z ∈ secrets, Apart z marker)
    (hfree : ∀ z ∈ secrets, z ≠ [] ∧ ¬ z <:+: c ∧ ¬ z <:+: d) :
    redactAll marker secrets (c ++ (marker ++ d)) = c ++ (marker ++ d) := by
  induction secrets with
  | nil => rfl
  | cons secret pending ih =>
      rw [List.forall_mem_cons] at hapart hfree
      obtain ⟨⟨hsecret, hc, hd⟩, hpending⟩ := hfree
      have hkept : replaceAll secret marker (c ++ (marker ++ d)) = c ++ (marker ++ d) := by
        by_cases hsame : secret = marker
        · subst hsame
          exact replaceAll_single hsecret hapart.1 hc hd secret
        · refine replaceAll_of_absent (fun hcontained => ?_) marker
          rcases hapart.1.infix_around hcontained with heq | hcontained | hcontained
          · exact hsame heq
          · exact hc hcontained
          · exact hd hcontained
      rw [redactAll, List.foldl_cons, hkept]
      exact ih hapart.2 hpending

/-- Redaction of independent secrets leaves the marker exactly where they were. -/
theorem Independent.redactAll_fill (hindependent : Independent marker secrets)
    (hne : ∀ x ∈ secrets, x ≠ []) {template : Template α ι} (havoids : template.Avoids secrets)
    {value : ι → List α} (hvalue : ∀ label ∈ template.labels, value label ∈ secrets) :
    redactAll marker secrets (template.fill value) = template.fill fun _ => marker := by
  cases secrets with
  | nil =>
      refine Template.fill_congr fun label hlabel => ?_
      exact absurd (hvalue label hlabel) List.not_mem_nil
  | cons secret pending =>
      have hstep := Template.replaceAll_fill (hne secret List.mem_cons_self) marker
        (fun text htext => havoids text htext secret List.mem_cons_self)
        (fun label hlabel => hindependent.apart secret List.mem_cons_self _ (hvalue label hlabel))
      rw [redactAll, List.foldl_cons, hstep]
      refine redactAll_fill_of_apart (fun x hx => hne x (List.mem_cons_of_mem secret hx))
        (fun x hx y hy => hindependent.apart x (List.mem_cons_of_mem secret hx) y
          (List.mem_cons_of_mem secret hy)) hindependent.apart_marker
        (fun text htext x hx => havoids text htext x (List.mem_cons_of_mem secret hx)) ?_
      intro label hlabel
      split
      · exact .inl rfl
      next hother => exact .inr ((List.mem_cons.mp (hvalue label hlabel)).resolve_left hother)

/-- Whatever the secrets in the holes are, the text is shown with the marker there. -/
def NonInterfering (marker : List α) (escape : α → List α) (secrets : List (List α)) : Prop :=
  ∀ template : Template α (Fin secrets.length), template.Avoids secrets →
    (redactAll marker secrets (template.fill secrets.get)).flatMap escape =
      (template.fill fun _ => marker).flatMap escape

/-- Independent secrets do not show in each other's redaction. -/
theorem Independent.nonInterfering (escape : α → List α)
    (hindependent : Independent marker secrets) (hne : ∀ x ∈ secrets, x ≠ []) :
    NonInterfering marker escape secrets := by
  intro template havoids
  rw [hindependent.redactAll_fill hne havoids fun label _ => List.get_mem secrets label]

end Redact

end CfIntegration.Redaction
