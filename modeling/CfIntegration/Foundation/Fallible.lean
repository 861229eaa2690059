import Mathlib.Data.List.Forall2

/-! # Computations that stop at the first error

What a successful sequence, traversal or fold in `Except` says about its steps.
Proofs about fallible code take a success apart with these lemmas and never
unfold the monad.
-/

namespace CfIntegration

universe u v w

variable {ε : Type u} {α β : Type v}

/-- A sequence succeeds if both parts do. -/
theorem except_bind_eq_ok {first : Except ε α} {next : α → Except ε β} {result : β} :
    (first >>= next) = .ok result ↔ ∃ value, first = .ok value ∧ next value = .ok result := by
  cases first <;> simp [bind, Except.bind]

/-- A mapped result succeeds if the result does. -/
theorem except_map_eq_ok {first : Except ε α} {f : α → β} {result : β} :
    (f <$> first) = .ok result ↔ ∃ value, first = .ok value ∧ f value = result := by
  cases first <;> simp [Functor.map, Except.map]

/-- Stop with a message when the condition holds. -/
def bailIf (condition : Prop) [Decidable condition] (message : ε) : Except ε PUnit :=
  if condition then .error message else .ok ⟨⟩

/-- A guard passes where its condition is false. -/
@[simp] theorem bailIf_eq_ok {condition : Prop} [Decidable condition] {message : ε}
    {result : PUnit} : bailIf condition message = .ok result ↔ ¬ condition := by
  unfold bailIf
  split <;> simp_all

@[simp] theorem bailIf_false {message : ε} : bailIf False message = .ok ⟨⟩ := if_neg not_false

/-- The value, or the error when there is none. -/
def okOr (value : Option α) (error : ε) : Except ε α :=
  match value with
  | some value => .ok value
  | none => .error error

/-- An optional value succeeds if it is there. -/
@[simp] theorem okOr_eq_ok {value : Option α} {error : ε} {result : α} :
    okOr value error = .ok result ↔ value = some result := by
  cases value <;> simp [okOr]

variable {γ : Type w}

/-- A traversal succeeds if every step does. -/
theorem except_mapM_eq_ok {step : γ → Except ε α} {inputs : List γ} {outputs : List α} :
    inputs.mapM step = .ok outputs ↔
      List.Forall₂ (fun input output => step input = .ok output) inputs outputs := by
  induction inputs generalizing outputs with
  | nil => cases outputs <;> simp [pure, Except.pure]
  | cons input rest ih =>
      rw [List.mapM_cons, except_bind_eq_ok]
      constructor
      · rintro ⟨output, hstep, hrest⟩
        obtain ⟨others, hothers, heq⟩ := except_bind_eq_ok.mp hrest
        cases heq
        exact List.Forall₂.cons hstep (ih.mp hothers)
      · intro hall
        cases hall with
        | cons hstep hrest =>
            exact ⟨_, hstep, except_bind_eq_ok.mpr ⟨_, ih.mpr hrest, rfl⟩⟩

/-- A traversal succeeds when every step does. -/
theorem except_mapM_of_forall {step : γ → Except ε α} {inputs : List γ}
    (hsteps : ∀ input ∈ inputs, ∃ output, step input = .ok output) :
    ∃ outputs, inputs.mapM step = .ok outputs := by
  induction inputs with
  | nil => exact ⟨[], rfl⟩
  | cons input rest ih =>
      obtain ⟨output, houtput⟩ := hsteps input List.mem_cons_self
      obtain ⟨outputs, houtputs⟩ :=
        ih fun other hother => hsteps other (List.mem_cons_of_mem _ hother)
      refine ⟨output :: outputs, ?_⟩
      rw [List.mapM_cons, except_bind_eq_ok]
      exact ⟨output, houtput, except_bind_eq_ok.mpr ⟨outputs, houtputs, rfl⟩⟩

/-- Every input of a successful `mapM`, or of any related lists, has its output. -/
theorem forall₂_mem_left {α β : Type} {related : α → β → Prop} {inputs : List α}
    {outputs : List β} (hrelated : List.Forall₂ related inputs outputs) {input : α}
    (hinput : input ∈ inputs) : ∃ output ∈ outputs, related input output := by
  obtain ⟨index, hindex, rfl⟩ := List.getElem_of_mem hinput
  have hbound : index < outputs.length := hrelated.length_eq ▸ hindex
  exact ⟨_, List.getElem_mem hbound, hrelated.get hindex hbound⟩

theorem forall₂_mem_right {α β : Type} {related : α → β → Prop} {inputs : List α}
    {outputs : List β} (hrelated : List.Forall₂ related inputs outputs) {output : β}
    (houtput : output ∈ outputs) : ∃ input ∈ inputs, related input output := by
  obtain ⟨index, hindex, rfl⟩ := List.getElem_of_mem houtput
  have hbound : index < inputs.length := hrelated.length_eq ▸ hindex
  exact ⟨_, List.getElem_mem hbound, hrelated.get hbound hindex⟩

/-- An invariant of every successful step is an invariant of the whole fold. -/
theorem except_foldlM_invariant {step : α → γ → Except ε α} (invariant : α → Prop)
    {inputs : List γ}
    (hstep : ∀ state input next, input ∈ inputs → invariant state →
      step state input = .ok next → invariant next)
    {start final : α} (hstart : invariant start) (hfold : inputs.foldlM step start = .ok final) :
    invariant final := by
  induction inputs generalizing start with
  | nil =>
      cases hfold
      exact hstart
  | cons input rest ih =>
      rw [List.foldlM_cons, except_bind_eq_ok] at hfold
      obtain ⟨middle, hmiddle, hfold⟩ := hfold
      exact ih
        (fun state other next hother => hstep state other next (List.mem_cons_of_mem _ hother))
        (hstep start input middle List.mem_cons_self hstart hmiddle) hfold

/-- What every successful step establishes about its input holds of every input
of a successful fold. -/
theorem except_foldlM_forall {step : α → γ → Except ε α} {property : γ → Prop}
    (hstep : ∀ state input next, step state input = .ok next → property input)
    {inputs : List γ} {start final : α} (hfold : inputs.foldlM step start = .ok final) :
    ∀ input ∈ inputs, property input := by
  induction inputs generalizing start with
  | nil => simp
  | cons input rest ih =>
      rw [List.foldlM_cons, except_bind_eq_ok] at hfold
      obtain ⟨middle, hmiddle, hfold⟩ := hfold
      rw [List.forall_mem_cons]
      exact ⟨hstep start input middle hmiddle, ih hfold⟩

end CfIntegration
