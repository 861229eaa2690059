import CfIntegration.Mcp.Gateway

/-! # What captured texts tell about the secrets

Captured texts never hold a control character. They tell nothing about the secrets in
them exactly when the secrets are independent: no secret is part of another or begins
where another ends, and only the first one may overlap the marker.
-/

namespace CfIntegration.Mcp.Gateway

open Overlap Redaction
open scoped Text

theorem redacted_bracketed : Bracketed redacted '<' "redacted".toList '>' where
  eq := by decide
  opening_notMem := by decide
  closing_notMem := by decide

theorem isControl_iff {char : Char} :
    isControl char = true ↔ char.toNat < 32 ∨ (127 ≤ char.toNat ∧ char.toNat < 160) := by
  unfold isControl
  rw [Bool.or_eq_true, Bool.and_eq_true, decide_eq_true_iff, decide_eq_true_iff,
    decide_eq_true_iff, UInt32.lt_iff_toNat_lt, UInt32.le_iff_toNat_le, UInt32.lt_iff_toNat_lt]
  rfl

/-- The digits of an escape. -/
def escapeDigits (code : Nat) : List Char := (Nat.toDigits 16 code).leftpad 4 '0'

theorem escapeDigits_plain : ∀ code < 160, ∀ digit ∈ escapeDigits code,
    digit ≠ '<' ∧ isControl digit = false := by
  decide +kernel

/-- A character is kept or escaped. -/
theorem sanitizeChar_cases (char : Char) :
    (sanitizeChar char = [char] ∧ isControl char = false) ∨
      ∃ rest, sanitizeChar char = '\\' :: rest ∧
        ∀ digit ∈ rest, digit ≠ '<' ∧ isControl digit = false := by
  unfold sanitizeChar
  split
  · exact .inr ⟨['n'], rfl, by decide⟩
  split
  · exact .inr ⟨['r'], rfl, by decide⟩
  split
  · exact .inr ⟨['t'], rfl, by decide⟩
  split
  next hcontrol =>
    refine .inr ⟨'u' :: '{' :: (escapeDigits char.toNat ++ ['}']), rfl, ?_⟩
    have hcode : char.toNat < 160 := by
      rcases isControl_iff.mp hcontrol with hcode | hcode <;> omega
    intro digit hdigit
    rcases List.mem_cons.mp hdigit with rfl | hdigit
    · decide
    rcases List.mem_cons.mp hdigit with rfl | hdigit
    · decide
    rcases List.mem_append.mp hdigit with hdigit | hdigit
    · exact escapeDigits_plain _ hcode digit hdigit
    · rw [List.mem_singleton.mp hdigit]
      decide
  next hcontrol => exact .inl ⟨rfl, by simpa using hcontrol⟩

theorem sanitizeChar_escaping : Escaping redacted '<' sanitizeChar where
  plain := by decide
  other := by
    intro char
    rcases sanitizeChar_cases char with ⟨hplain, _⟩ | ⟨rest, hescape, hrest⟩
    · exact .inl hplain
    · refine .inr ⟨'\\', rest, hescape, by decide, fun hopening => ?_⟩
      exact (hrest '<' hopening).1 rfl

/-- No control character is kept. -/
theorem redactAndSanitizeSecrets_printable (value : List Char) (secrets : List (List Char)) :
    ∀ char ∈ redactAndSanitizeSecrets value secrets, isControl char = false := by
  intro char hchar
  obtain ⟨source, _, hshown⟩ := List.mem_flatMap.mp hchar
  rcases sanitizeChar_cases source with ⟨hplain, hcontrol⟩ | ⟨rest, hescape, hrest⟩
  · rw [hplain, List.mem_singleton] at hshown
    rw [hshown, hcontrol]
  · rw [hescape] at hshown
    rcases List.mem_cons.mp hshown with rfl | hshown
    · decide
    · exact (hrest char hshown).2

/-- An empty secret is none. -/
theorem configured_ne_nil (secrets : List (List Char)) : ∀ secret ∈ configured secrets,
    secret ≠ [] := by
  intro secret hsecret
  simpa using (List.mem_filter.mp hsecret).2

/-- A run with these secrets and one with other, independent secrets in the same places
of a text have the same output. -/
def HidesSecrets (secrets : List (List Char)) : Prop :=
  ∀ (others : List (List Char)) (hlength : (configured secrets).length =
      (configured others).length), Independent redacted (configured others) →
    ∀ template : Template Char (Fin (configured secrets).length),
      template.Avoids (configured secrets) → template.Avoids (configured others) →
      redactAndSanitizeSecrets (template.fill (configured secrets).get) secrets =
        redactAndSanitizeSecrets
          (template.fill fun place => (configured others).get (place.cast hlength)) others

/-- Secrets are hidden exactly where runs with other secrets cannot be told apart. -/
theorem hidesSecrets_iff_indistinguishable {secrets : List (List Char)} :
    HidesSecrets secrets ↔ Indistinguishable redacted sanitizeChar (configured secrets) := by
  constructor
  · intro hhides others hlength hne hindependent template havoids hothers
    have hsame : configured others = others :=
      List.filter_eq_self.mpr fun other hother => by simpa using hne other hother
    have hrun := hhides others (by rw [hsame, hlength]) (by rwa [hsame]) template havoids
      (by rwa [hsame])
    have hfill : ∀ (list : List (List Char)) (hlist : list = others)
        (hplaces : (configured secrets).length = list.length),
        (template.fill fun place => list.get (place.cast hplaces)) =
          template.fill fun place => others.get (place.cast hlength) := by
      rintro list rfl hplaces
      rfl
    rw [redactAndSanitizeSecrets, redactAndSanitizeSecrets, hfill _ hsame, hsame] at hrun
    exact hrun
  · intro hsame others hlength hindependent template havoids hothers
    exact hsame (configured others) hlength (configured_ne_nil others) hindependent template
      havoids hothers

/-- Captured texts are printable, and tell nothing of the secrets exactly when these are
independent. -/
theorem redactAndSanitizeSecrets_hides_iff (secrets : List (List Char)) :
    (HidesSecrets secrets ∧ ∀ value, ∀ char ∈ redactAndSanitizeSecrets value secrets,
        isControl char = false) ↔
      Independent redacted (configured secrets) := by
  have hprintable := fun value => redactAndSanitizeSecrets_printable value secrets
  rw [and_iff_left hprintable, hidesSecrets_iff_indistinguishable]
  exact indistinguishable_iff redacted_bracketed sanitizeChar_escaping
    (configured_ne_nil secrets) (by decide : 'A' ≠ 'B') (by decide) (by decide)

/-- The end of a session that begins with the token is shown. -/
theorem redactAndSanitizeSecrets_shows_rest :
    let template : Template Char (Fin 2) := .hole "id=".toList 1 (.plain [])
    let secrets := ["tok".toList, "tok-7".toList]
    let others := ["tok".toList, "s-105".toList]
    template.Avoids secrets ∧ template.Avoids others ∧
      redactAndSanitizeSecrets (template.fill secrets.get) secrets = "id=<redacted>-7".toList ∧
      redactAndSanitizeSecrets (template.fill others.get) others = "id=<redacted>".toList := by
  refine ⟨?_, ?_, by decide, by decide⟩ <;> unfold Template.Avoids <;> decide

end CfIntegration.Mcp.Gateway
