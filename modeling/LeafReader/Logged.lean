import Mathlib.Data.List.Basic

/-!
# Computations that keep a log

A computation that logs events and may fault. Its value is that of the computation without the log; a fault
keeps the events logged before it. `Sat` is the rule of what all events satisfy and what holds of the result.
-/

namespace LeafReader

variable {ε φ α β : Type}

structure Logged (ε φ α : Type) where
  events : List ε
  val : Except φ α

namespace Logged

instance : Monad (Logged ε φ) where
  pure a := ⟨[], .ok a⟩
  bind x f :=
    match x.val with
    | .error e => ⟨x.events, .error e⟩
    | .ok a => ⟨x.events ++ (f a).events, (f a).val⟩

def log (e : ε) : Logged ε φ Unit := ⟨[e], .ok ()⟩

/-- A computation that logs nothing. -/
def lift (x : Except φ α) : Logged ε φ α := ⟨[], x⟩

@[simp] theorem val_pure (a : α) : (pure a : Logged ε φ α).val = pure a := rfl

@[simp] theorem val_log (e : ε) : (log e : Logged ε φ Unit).val = pure () := rfl

@[simp] theorem val_lift (x : Except φ α) : (lift x : Logged ε φ α).val = x := rfl

@[simp] theorem val_bind (x : Logged ε φ α) (f : α → Logged ε φ β) :
    (x >>= f).val = x.val >>= fun a => (f a).val := by
  obtain ⟨es, v⟩ := x
  cases v <;> rfl

@[simp] theorem val_ite {p : Prop} [Decidable p] (x y : Logged ε φ α) :
    (if p then x else y).val = if p then x.val else y.val := by
  split <;> rfl

/-- Every event satisfies `P`, and a result satisfies `Q`. -/
def Sat (P : ε → Prop) (Q : α → Prop) (x : Logged ε φ α) : Prop :=
  (∀ e ∈ x.events, P e) ∧ ∀ a, x.val = .ok a → Q a

variable {P : ε → Prop} {Q Q' : α → Prop} {R : β → Prop}

namespace Sat

theorem pure {a : α} (h : Q a) : Sat P Q (Pure.pure a : Logged ε φ α) := by
  refine ⟨fun e he => ?_, fun b hb => ?_⟩
  · cases he
  · cases hb
    exact h

theorem log {e : ε} (h : P e) : Sat P (fun _ => True) (Logged.log e : Logged ε φ Unit) :=
  ⟨fun _ he => List.mem_singleton.mp he ▸ h, fun _ _ => trivial⟩

theorem lift {x : Except φ α} (h : ∀ a, x = .ok a → Q a) : Sat P Q (Logged.lift x : Logged ε φ α) :=
  ⟨fun _ he => absurd he List.not_mem_nil, h⟩

theorem bind {x : Logged ε φ α} {f : α → Logged ε φ β} (hx : Sat P Q x) (hf : ∀ a, Q a → Sat P R (f a)) :
    Sat P R (x >>= f) := by
  obtain ⟨es, v⟩ := x
  cases v with
  | error e =>
    refine ⟨hx.1, fun b hb => ?_⟩
    cases hb
  | ok a =>
    have hfa := hf a (hx.2 a rfl)
    refine ⟨fun e he => ?_, hfa.2⟩
    rcases List.mem_append.mp he with he | he
    · exact hx.1 e he
    · exact hfa.1 e he

theorem mono {x : Logged ε φ α} (hx : Sat P Q x) (h : ∀ a, Q a → Q' a) : Sat P Q' x :=
  ⟨hx.1, fun a ha => h a (hx.2 a ha)⟩

theorem ite {p : Prop} [Decidable p] {x y : Logged ε φ α} (hx : p → Sat P Q x) (hy : ¬ p → Sat P Q y) :
    Sat P Q (if p then x else y) := by
  by_cases h : p
  · rw [if_pos h]
    exact hx h
  · rw [if_neg h]
    exact hy h

end Sat

end Logged

end LeafReader
