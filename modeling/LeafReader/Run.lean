import Mathlib.Logic.Relation

/-!
# Runs of partial and of iterated step functions

`Along` and `Guarded` speak about every state of the run of a list of actions, where an action can
fail. `exec` and `Throughout` are for the interleavings of several tasks, where an action is a step of
one of them and may not be enabled. `iterate` runs a loop body that either goes on from a new state or
stops with a result; `Returns` says that the loop stops, and with what.
-/

namespace LeafReader

section Actions

variable {A S E : Type} (step : A → S → Except E S)

/-- No action of the run of `as` from `s` fails, and `P` holds before and after each of them. -/
def Along (P : S → Prop) : List A → S → Prop
  | [], s => P s
  | a :: as, s => P s ∧ ∃ s', step a s = .ok s' ∧ Along P as s'

/-- Every action of the run of `as` from `s` meets `C` in the state it starts from. -/
def Guarded (C : A → S → Prop) : List A → S → Prop
  | [], _ => True
  | a :: as, s => C a s ∧ ∀ s', step a s = .ok s' → Guarded C as s'

variable {step}

/-- The induction rule for runs: an invariant that guarded actions keep holds along a guarded run. -/
theorem Along.of_guarded {P I : S → Prop} {C : A → S → Prop} (hP : ∀ s, I s → P s)
    (hstep : ∀ a s, C a s → I s → ∃ s', step a s = .ok s' ∧ I s') :
    ∀ (as : List A) (s : S), I s → Guarded step C as s → Along step P as s := by
  intro as
  induction as with
  | nil =>
    intro s hi _
    exact hP s hi
  | cons a as ih =>
    intro s hi ⟨hc, hrest⟩
    obtain ⟨s', hs', hi'⟩ := hstep a s hc hi
    exact ⟨hP s hi, s', hs', ih s' hi' (hrest s' hs')⟩

end Actions

section Interleavings

variable {A S : Type} (step : A → S → Option S)

/-- The state after the actions `as`; `none` when one of them is taken where it is not enabled. -/
def exec : List A → S → Option S
  | [], s => some s
  | a :: as, s => (step a s).bind (exec as)

/-- Every action of the run of `as` from `s` meets `C` in the state it is taken in. -/
def Throughout (C : A → S → Prop) : List A → S → Prop
  | [], _ => True
  | a :: as, s => C a s ∧ ∀ s', step a s = some s' → Throughout C as s'

variable {step}

/-- The induction rule for interleavings. -/
theorem exec_invariant {I : S → Prop} {C : A → S → Prop}
    (hstep : ∀ a s s', C a s → I s → step a s = some s' → I s') :
    ∀ (as : List A) (s s' : S), I s → Throughout step C as s → exec step as s = some s' → I s' := by
  intro as
  induction as with
  | nil =>
    intro s s' hi _ h
    cases h
    exact hi
  | cons a as ih =>
    intro s s' hi hc h
    obtain ⟨s₁, hs₁, h⟩ := Option.bind_eq_some_iff.1 h
    exact ih s₁ s' (hstep a s s₁ hc.1 hi hs₁) (hc.2 s₁ hs₁) h

/-- The same rule, where an action that meets `C` is enabled. -/
theorem Throughout.exec_some {I : S → Prop} {C : A → S → Prop}
    (hstep : ∀ a s, C a s → I s → ∃ s', step a s = some s' ∧ I s') :
    ∀ (as : List A) (s : S), I s → Throughout step C as s → ∃ s', exec step as s = some s' ∧ I s' := by
  intro as
  induction as with
  | nil =>
    intro s hi _
    exact ⟨s, rfl, hi⟩
  | cons a as ih =>
    intro s hi hc
    obtain ⟨s₁, hs₁, hi₁⟩ := hstep a s hc.1 hi
    obtain ⟨s', hs', hi'⟩ := ih s₁ hi₁ (hc.2 s₁ hs₁)
    refine ⟨s', ?_, hi'⟩
    rw [exec, hs₁]
    exact hs'

theorem exec_append (as bs : List A) (s : S) : exec step (as ++ bs) s = (exec step as s).bind (exec step bs) := by
  induction as generalizing s with
  | nil => rfl
  | cons a as ih =>
    show (step a s).bind (exec step (as ++ bs)) = ((step a s).bind (exec step as)).bind (exec step bs)
    cases step a s with
    | none => rfl
    | some s₁ => exact ih s₁

theorem Throughout.of_append {C : A → S → Prop} {as bs : List A} {s : S} (h : Throughout step C (as ++ bs) s) :
    Throughout step C as s ∧ ∀ s', exec step as s = some s' → Throughout step C bs s' := by
  induction as generalizing s with
  | nil =>
    refine ⟨trivial, fun s' hs' => ?_⟩
    cases hs'
    exact h
  | cons a as ih =>
    refine ⟨⟨h.1, fun s₁ hs₁ => (ih (h.2 s₁ hs₁)).1⟩, fun s' hs' => ?_⟩
    obtain ⟨s₁, hs₁, hs'⟩ := Option.bind_eq_some_iff.1 hs'
    exact (ih (h.2 s₁ hs₁)).2 s' hs'

/-- A run can be checked by taking it. -/
instance decidableThroughout {C : A → S → Prop} [∀ a s, Decidable (C a s)] :
    ∀ (as : List A) (s : S), Decidable (Throughout step C as s)
  | [], _ => .isTrue trivial
  | a :: as, s =>
    match hs : step a s with
    | none => decidable_of_iff (C a s) ⟨fun hc => ⟨hc, fun s' hs' => by rw [hs] at hs'; cases hs'⟩, And.left⟩
    | some s₁ =>
      have : Decidable (Throughout step C as s₁) := decidableThroughout as s₁
      decidable_of_iff (C a s ∧ Throughout step C as s₁)
        ⟨fun h => ⟨h.1, fun s' hs' => by rw [hs] at hs'; cases hs'; exact h.2⟩, fun h => ⟨h.1, h.2 s₁ hs⟩⟩

theorem Throughout.cons {C : A → S → Prop} {a : A} {as : List A} {s s' : S} (hs : step a s = some s')
    (hc : C a s) (h : Throughout step C as s') : Throughout step C (a :: as) s := by
  refine ⟨hc, fun s'' hs'' => ?_⟩
  rw [hs] at hs''
  cases hs''
  exact h

theorem throughout_true (as : List A) (s : S) : Throughout step (fun _ _ => True) as s := by
  induction as generalizing s with
  | nil => trivial
  | cons a as ih => exact ⟨trivial, fun s' _ => ih s'⟩

/-- An invariant that every action keeps holds in every state that is reached. -/
theorem exec_always {I : S → Prop} (hstep : ∀ a s s', I s → step a s = some s' → I s')
    {as : List A} {s s' : S} (hi : I s) (h : exec step as s = some s') : I s' :=
  exec_invariant (fun a s s' _ => hstep a s s') as s s' hi (throughout_true as s) h

/-- When a step outside `C` breaks `P` at once, the runs within `C` are those with `P` in all states. -/
theorem throughout_iff {I P : S → Prop} {C : A → S → Prop} (hIP : ∀ s, I s → P s)
    (htotal : ∀ a s, (step a s).isSome)
    (hkeep : ∀ a s s', I s → step a s = some s' → C a s → I s')
    (hbreak : ∀ a s s', I s → step a s = some s' → ¬ C a s → ¬ P s') :
    ∀ (as : List A) (s : S), I s →
      (Throughout step C as s ↔ ∀ bs s', bs <+: as → exec step bs s = some s' → P s') := by
  intro as
  induction as with
  | nil =>
    intro s hi
    constructor
    · intro _ bs s' hbs hs'
      obtain rfl := List.prefix_nil.1 hbs
      cases hs'
      exact hIP s hi
    · intro _
      trivial
  | cons a as ih =>
    intro s hi
    obtain ⟨s₁, hs₁⟩ := Option.isSome_iff_exists.1 (htotal a s)
    constructor
    · intro ⟨hc, hrest⟩ bs s' hbs hs'
      rcases List.prefix_cons_iff.1 hbs with rfl | ⟨cs, rfl, hcs⟩
      · cases hs'
        exact hIP s hi
      · rw [exec, hs₁] at hs'
        exact (ih s₁ (hkeep a s s₁ hi hs₁ hc)).1 (hrest s₁ hs₁) cs s' hcs hs'
    · intro hP
      have hc : C a s := by
        refine Classical.byContradiction fun hc => hbreak a s s₁ hi hs₁ hc (hP [a] s₁ (by simp) ?_)
        rw [exec, hs₁]
        rfl
      refine .cons hs₁ hc ((ih s₁ (hkeep a s s₁ hi hs₁ hc)).2 ?_)
      intro cs s' hcs hs'
      refine hP (a :: cs) s' (List.prefix_cons_inj a |>.2 hcs) ?_
      rw [exec, hs₁]
      exact hs'

end Interleavings

section Loops

variable {S R : Type} (step : S → S ⊕ R)

/-- At most `n` iterations of the loop body `step` from `s`. -/
def iterate : Nat → S → Option R
  | 0, _ => none
  | n + 1, s =>
    match step s with
    | .inl s' => iterate n s'
    | .inr r => some r

/-- The loop started in `s` stops, with result `r`. -/
def Returns (s : S) (r : R) : Prop := ∃ n, iterate step n s = some r

/-- The loop started in `s` comes to `s'`. -/
def Reaches : S → S → Prop := Relation.ReflTransGen fun s s' => step s = .inl s'

variable {step}

theorem Returns.done {s : S} {r : R} (h : step s = .inr r) : Returns step s r :=
  ⟨1, by simp [iterate, h]⟩

theorem Returns.next {s s' : S} {r : R} (h : step s = .inl s') (hr : Returns step s' r) :
    Returns step s r := by
  obtain ⟨n, hn⟩ := hr
  exact ⟨n + 1, by simp [iterate, h, hn]⟩

theorem Returns.unique {s : S} {r r' : R} (h : Returns step s r) (h' : Returns step s r') : r = r' := by
  obtain ⟨n, hn⟩ := h
  obtain ⟨m, hm⟩ := h'
  induction n generalizing s m with
  | zero => simp [iterate] at hn
  | succ n ih =>
    cases m with
    | zero => simp [iterate] at hm
    | succ m =>
      simp only [iterate] at hn hm
      cases hs : step s with
      | inl s' => rw [hs] at hn hm; exact ih hn m hm
      | inr r'' => rw [hs] at hn hm; simp_all

theorem Returns.reaches {s : S} {r : R} (h : Returns step s r) :
    ∃ s', Reaches step s s' ∧ step s' = .inr r := by
  obtain ⟨n, hn⟩ := h
  induction n generalizing s with
  | zero => cases hn
  | succ n ih =>
    rw [iterate] at hn
    cases hs : step s with
    | inl s' =>
      rw [hs] at hn
      obtain ⟨s'', hreach, hend⟩ := ih hn
      exact ⟨s'', .head hs hreach, hend⟩
    | inr r' =>
      rw [hs] at hn
      cases hn
      exact ⟨s, .refl, hs⟩

/-- The induction rule for loops: what the body keeps holds wherever the loop comes. -/
theorem Reaches.invariant {I : S → Prop} (hI : ∀ s s', I s → step s = .inl s' → I s') {s s' : S}
    (hs : I s) (h : Reaches step s s') : I s' := by
  induction h with
  | refl => exact hs
  | tail _ hstep ih => exact hI _ _ ih hstep

/-- A loop in which a bounded measure rises stops. -/
theorem exists_returns {I : S → Prop} (m : S → Nat) (bound : Nat) (hle : ∀ s, I s → m s ≤ bound)
    (hstep : ∀ s s', I s → step s = .inl s' → I s' ∧ m s < m s') {s : S} (hs : I s) :
    ∃ r, Returns step s r := by
  induction hn : bound - m s using Nat.strongRecOn generalizing s with
  | ind n ih =>
    cases hnext : step s with
    | inr r => exact ⟨r, .done hnext⟩
    | inl s' =>
      obtain ⟨hs', hrise⟩ := hstep s s' hs hnext
      have hbound := hle s' hs'
      obtain ⟨r, hr⟩ := ih (bound - m s') (by omega) hs' rfl
      exact ⟨r, hr.next hnext⟩

variable (step)

/-- The loop started in `s` stops with result `r`, and `P` holds in every state on the way. -/
inductive Completes (P : S → Prop) : S → R → Prop
  | done {s : S} {r : R} : P s → step s = .inr r → Completes P s r
  | next {s s' : S} {r : R} : P s → step s = .inl s' → Completes P s' r → Completes P s r

variable {step}

theorem Completes.returns {P : S → Prop} {s : S} {r : R} (h : Completes step P s r) :
    Returns step s r := by
  induction h with
  | done _ h => exact .done h
  | next _ h _ ih => exact ih.next h

theorem Completes.always {P : S → Prop} {s s' : S} {r : R} (h : Completes step P s r)
    (hr : Reaches step s s') : P s' := by
  induction h with
  | done hp h =>
    rcases Relation.ReflTransGen.cases_head hr with rfl | ⟨b, hb, -⟩
    · exact hp
    · rw [h] at hb
      cases hb
  | next hp h _ ih =>
    rcases Relation.ReflTransGen.cases_head hr with rfl | ⟨b, hb, hr⟩
    · exact hp
    · rw [h] at hb
      cases hb
      exact ih hr

end Loops

end LeafReader
