import Mathlib.Data.List.Basic

/-! # Histories

A history grows by one entry at a time. What an entry has to be may depend on the
entries before it, and the newest value that the entries hand out is the current one.
-/

namespace CfIntegration.History

variable {α β : Type}

/-- Each entry fits the entries before it. -/
def Fits (fits : List α → α → Prop) (entries : List α) : Prop :=
  ∀ before entry after, entries = before ++ entry :: after → fits before entry

theorem fits_nil (fits : List α → α → Prop) : Fits fits [] := by
  intro before entry after hsplit
  exact absurd hsplit.symm
    (List.append_ne_nil_of_right_ne_nil before (List.cons_ne_nil entry after))

/-- A history stays fitting if its new entry fits what was before. -/
theorem Fits.concat {fits : List α → α → Prop} {entries : List α} {entry : α}
    (hentries : Fits fits entries) (hentry : fits entries entry) :
    Fits fits (entries ++ [entry]) := by
  intro before other after hsplit
  rcases List.eq_nil_or_concat after with rfl | ⟨rest, last, rfl⟩
  · obtain ⟨rfl, hlast⟩ := List.append_inj' hsplit rfl
    cases List.singleton_inj.mp hlast
    exact hentry
  · rw [List.concat_eq_append, ← List.cons_append, ← List.append_assoc] at hsplit
    obtain ⟨rfl, -⟩ := List.append_inj' hsplit rfl
    exact hentries before other rest rfl

theorem Fits.cons {fits : List α → α → Prop} {entries : List α} {entry : α}
    (hentry : fits [] entry) (hentries : Fits (fun before => fits (entry :: before)) entries) :
    Fits fits (entry :: entries) := by
  intro before other after hsplit
  cases before with
  | nil =>
      cases hsplit
      exact hentry
  | cons first before =>
      cases hsplit
      exact hentries before other after rfl

/-- What each entry fits may be weakened. -/
theorem Fits.mono {fits weaker : List α → α → Prop} {entries : List α}
    (hentries : Fits fits entries) (hweaker : ∀ before entry, fits before entry →
      weaker before entry) : Fits weaker entries :=
  fun before entry after hsplit => hweaker before entry (hentries before entry after hsplit)

/-- The newest value that the entries hand out. -/
def latest (handed : α → Option β) (entries : List α) : Option β :=
  (entries.filterMap handed).getLast?

/-- The latest value is that of the new entry, where it hands one on. -/
theorem latest_concat (handed : α → Option β) (entries : List α) (entry : α) :
    latest handed (entries ++ [entry]) = (handed entry).or (latest handed entries) := by
  unfold latest
  rw [List.filterMap_append, List.getLast?_append]
  cases hhanded : handed entry with
  | none => simp [hhanded]
  | some value => simp [hhanded]

end CfIntegration.History
