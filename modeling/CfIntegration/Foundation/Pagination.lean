import Mathlib.Data.List.Nodup
import Mathlib.Data.List.Perm.Subperm

/-! # Collecting pages

A source answers a key with a page, and the page names the key of the next one. A
collector follows the keys, remembers them, and gives up when one comes back.
-/

namespace CfIntegration.Pagination

inductive Next (κ : Type) where
  | done
  | key (value : κ)
  | invalid
  deriving DecidableEq, Repr

structure Page (κ α : Type) where
  items : List α
  next : Next κ

variable {σ ε κ α : Type}

abbrev Source (σ ε κ α : Type) := σ → Option κ → Except ε (Page κ α) × σ

section Collect

variable [DecidableEq κ]

/-- Collect the items of the pages. Nothing is returned where the fuel does not last. -/
def collect (source : Source σ ε κ α) (refused : ε) :
    Nat → σ → Option κ → List κ → List α → Option (Except ε (List α) × σ)
  | 0, _, _, _, _ => none
  | fuel + 1, state, key, seen, items =>
      match source state key with
      | (.error error, state) => some (.error error, state)
      | (.ok page, state) =>
          match page.next with
          | .done => some (.ok (items ++ page.items), state)
          | .invalid => some (.error refused, state)
          | .key next =>
              if next ∈ seen then some (.error refused, state)
              else collect source refused fuel state (some next) (seen ++ [next])
                (items ++ page.items)

end Collect

/-- The pages received by following the keys from a state, the keys they name, and where
the next page is asked for. -/
inductive Follows (source : Source σ ε κ α) (start : σ) (first : Option κ) :
    List (Page κ α) → List κ → σ → Option κ → Prop where
  | start : Follows source start first [] [] start first
  | next {pages : List (Page κ α)} {keys : List κ} {state after : σ} {key : Option κ}
      {page : Page κ α} {named : κ} (hfollows : Follows source start first pages keys state key)
      (hpage : source state key = (.ok page, after)) (hnext : page.next = .key named) :
      Follows source start first (pages ++ [page]) (keys ++ [named]) after (some named)

/-- The keys lead to a page that names no other, before one of them comes back. -/
def Completes (source : Source σ ε κ α) (start : σ) (first : Option κ) (pages : List (Page κ α))
    (final : σ) : Prop :=
  ∃ before keys state key page, Follows source start first before keys state key ∧
    source state key = (.ok page, final) ∧ page.next = .done ∧ keys.Nodup ∧
    pages = before ++ [page]

/-- Every page but the first was asked for by a key. -/
theorem Follows.length_keys {source : Source σ ε κ α} {start : σ} {first : Option κ}
    {pages : List (Page κ α)} {keys : List κ} {state : σ} {key : Option κ}
    (hfollows : Follows source start first pages keys state key) :
    keys.length = pages.length := by
  induction hfollows with
  | start => rfl
  | next _ _ _ ih => rw [List.length_append, List.length_append, ih]; rfl

section Run

variable [DecidableEq κ] {source : Source σ ε κ α} (refused : ε) {start : σ} {first : Option κ}

/-- The collector stands where following the keys leads to, if none came back. -/
theorem collect_follows {pages : List (Page κ α)} {keys : List κ} {state : σ} {key : Option κ}
    (hfollows : Follows source start first pages keys state key) (hnodup : keys.Nodup)
    (fuel : Nat) : collect source refused (pages.length + fuel) start first [] [] =
      collect source refused fuel state key keys (pages.flatMap Page.items) := by
  induction hfollows generalizing fuel with
  | start => rw [List.length_nil, Nat.zero_add]; rfl
  | @next pages keys state after key page named _ hpage hnext ih =>
      rw [List.nodup_append] at hnodup
      have hnew : named ∉ keys := fun hmem => hnodup.2.2 named hmem named (by simp) rfl
      rw [List.length_append, List.length_singleton, Nat.add_assoc, Nat.add_comm 1 fuel,
        ih hnodup.1, collect, hpage]
      simp [hnext, hnew]

variable (source)

/-- One page ends the collection, or names a new key. -/
theorem collect_step (state : σ) (key : Option κ) (seen : List κ) (items : List α) :
    (∃ outcome, ∀ fuel, collect source refused (fuel + 1) state key seen items = some outcome ∧
      ∀ collected, outcome.1 = .ok collected → ∃ page, source state key = (.ok page, outcome.2) ∧
        page.next = .done ∧ collected = items ++ page.items) ∨
    ∃ page named after, source state key = (.ok page, after) ∧ page.next = .key named ∧
      named ∉ seen := by
  cases hpage : source state key with
  | mk result after =>
      cases result with
      | error error =>
          refine .inl ⟨(.error error, after), fun fuel => ⟨by simp [collect, hpage], nofun⟩⟩
      | ok page =>
          cases hnext : page.next with
          | done =>
              refine .inl ⟨(.ok (items ++ page.items), after), fun fuel =>
                ⟨by simp [collect, hpage, hnext], fun collected hok => ?_⟩⟩
              cases hok
              exact ⟨page, rfl, hnext, rfl⟩
          | invalid =>
              exact .inl ⟨(.error refused, after), fun fuel =>
                ⟨by simp [collect, hpage, hnext], nofun⟩⟩
          | key named =>
              by_cases hseen : named ∈ seen
              · exact .inl ⟨(.error refused, after), fun fuel =>
                  ⟨by simp [collect, hpage, hnext, hseen], nofun⟩⟩
              · exact .inr ⟨page, named, after, rfl, hnext, hseen⟩

variable (start first)

/-- The collector has followed as many keys as it had fuel, or has ended before; it ends
well only where the keys are complete. -/
theorem collect_cases (fuel : Nat) :
    (∃ pages keys state key, Follows source start first pages keys state key ∧ keys.Nodup ∧
      pages.length = fuel) ∨
    ∃ outcome, (∀ more, collect source refused (fuel + more) start first [] [] = some outcome) ∧
      ∀ items, outcome.1 = .ok items → ∃ pages, Completes source start first pages outcome.2 ∧
        items = pages.flatMap Page.items := by
  induction fuel with
  | zero => exact .inl ⟨[], [], start, first, .start, List.nodup_nil, rfl⟩
  | succ fuel ih =>
      rcases ih with ⟨pages, keys, state, key, hfollows, hnodup, rfl⟩ | ⟨outcome, hended, hok⟩
      · rcases collect_step source refused state key keys
          (pages.flatMap Page.items) with
          ⟨outcome, hended⟩ | ⟨page, named, after, hpage, hnext, hnew⟩
        · refine .inr ⟨outcome, fun more => ?_, fun items hitems => ?_⟩
          · rw [Nat.add_assoc, Nat.add_comm 1 more, collect_follows refused hfollows hnodup]
            exact (hended more).1
          · obtain ⟨page, hpage, hdone, rfl⟩ := (hended 0).2 items hitems
            exact ⟨pages ++ [page],
              ⟨pages, keys, state, key, page, hfollows, hpage, hdone, hnodup, rfl⟩, by simp⟩
        · refine .inl ⟨_, _, _, _, hfollows.next hpage hnext, ?_, by simp⟩
          rw [List.nodup_append]
          refine ⟨hnodup, List.nodup_singleton named, fun other hother last hlast => ?_⟩
          rw [List.mem_singleton.mp hlast]
          exact fun hsame => hnew (hsame ▸ hother)
      · refine .inr ⟨outcome, fun more => ?_, hok⟩
        rw [Nat.add_assoc]
        exact hended (1 + more)

variable {source refused start first}

/-- Fuel beyond what is needed changes nothing. -/
theorem collect_eq_of_le {fuel more : Nat} {outcome : Except ε (List α) × σ}
    (hended : collect source refused fuel start first [] [] = some outcome) (hle : fuel ≤ more) :
    collect source refused more start first [] [] = some outcome := by
  obtain ⟨rest, rfl⟩ := Nat.exists_eq_add_of_le hle
  rcases collect_cases source refused start first fuel with
    ⟨pages, keys, state, key, hfollows, hnodup, rfl⟩ | ⟨other, hother, -⟩
  · have hzero := collect_follows refused hfollows hnodup 0
    rw [Nat.add_zero, hended] at hzero
    cases hzero
  · rw [hother rest, ← hended]
    exact (hother 0).symm

/-- Finitely many keys are followed through. -/
theorem collect_ends {known : List κ} (hknown : ∀ pages keys state key,
      Follows source start first pages keys state key → keys ⊆ known) :
    ∃ outcome, ∀ fuel, known.length < fuel →
      collect source refused fuel start first [] [] = some outcome := by
  rcases collect_cases source refused start first (known.length + 1) with
    ⟨pages, keys, state, key, hfollows, hnodup, hlength⟩ | ⟨outcome, hended, -⟩
  · have hle := (List.subperm_of_subset hnodup (hknown _ _ _ _ hfollows)).length_le
    rw [hfollows.length_keys] at hle
    omega
  · exact ⟨outcome, fun fuel hfuel => collect_eq_of_le (hended 0) hfuel⟩

/-- A complete chain of pages is collected. -/
theorem collect_of_completes {fuel : Nat} {outcome : Except ε (List α) × σ}
    (hended : collect source refused fuel start first [] [] = some outcome)
    {pages : List (Page κ α)} {final : σ} (hcompletes : Completes source start first pages final) :
    outcome = (.ok (pages.flatMap Page.items), final) := by
  obtain ⟨before, keys, state, key, page, hfollows, hpage, hdone, hnodup, rfl⟩ := hcompletes
  have hcollect := collect_follows refused hfollows hnodup (fuel + 1)
  rw [collect_eq_of_le hended (by omega), collect, hpage] at hcollect
  simp only [hdone] at hcollect
  rw [Option.some.inj hcollect]
  simp

/-- What is collected are the items of a complete chain of pages. -/
theorem collect_ok_iff {fuel : Nat} {outcome : Except ε (List α) × σ}
    (hended : collect source refused fuel start first [] [] = some outcome) (items : List α) :
    outcome.1 = .ok items ↔ ∃ pages final, Completes source start first pages final ∧
      items = pages.flatMap Page.items := by
  constructor
  · rcases collect_cases source refused start first fuel with
      ⟨pages, keys, state, key, hfollows, hnodup, rfl⟩ | ⟨other, hother, hok⟩
    · have hzero := collect_follows refused hfollows hnodup 0
      rw [Nat.add_zero, hended] at hzero
      cases hzero
    · have hsame := hother 0
      rw [Nat.add_zero, hended] at hsame
      cases hsame
      exact fun hitems => (hok items hitems).imp fun pages h => ⟨outcome.2, h⟩
  · rintro ⟨pages, final, hcompletes, rfl⟩
    rw [collect_of_completes hended hcompletes]

end Run

end CfIntegration.Pagination
