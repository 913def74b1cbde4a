import Mathlib.Data.List.Induction

/-!
# Runs that are folds

A run of operations that may fail is a `foldlM` in `Option`. What is to hold of every run is shown
along its beginnings.
-/

namespace LeafReader

variable {A S : Type*} {step : S → A → Option S} {s₀ s : S}

/-- The last operation of a run comes after a run of the others. -/
theorem foldlM_concat {as : List A} {a : A} (h : (as ++ [a]).foldlM step s₀ = some s) :
    ∃ s', as.foldlM step s₀ = some s' ∧ step s' a = some s := by
  rw [List.foldlM_append] at h
  obtain ⟨s', hrun, h⟩ := Option.bind_eq_some_iff.1 h
  rw [List.foldlM_cons] at h
  obtain ⟨s'', hstep, hnil⟩ := Option.bind_eq_some_iff.1 h
  cases hnil
  exact ⟨s', hrun, hstep⟩

/-- What holds at first, and after every operation of a run that has come so far, holds at its end. -/
theorem foldlM_induction {P : List A → S → Prop} (hinit : P [] s₀)
    (hstep : ∀ as a s s', as.foldlM step s₀ = some s → (as ++ [a]).foldlM step s₀ = some s' →
      step s a = some s' →
      P as s → P (as ++ [a]) s')
    {as : List A} (hrun : as.foldlM step s₀ = some s) : P as s := by
  induction as using List.reverseRecOn generalizing s with
  | nil =>
    cases hrun
    exact hinit
  | append_singleton as a ih =>
    obtain ⟨s', h₁, h₂⟩ := foldlM_concat hrun
    exact hstep as a s' s h₁ hrun h₂ (ih h₁)

end LeafReader
