import Mathlib.Logic.Basic

/-!
# A relational Hoare logic for state monads

`Sim R A m n`: started in states that `R` relates, `m` and `n` end in such states, with
results that `A` relates. With the same computation on both sides it says what a run can
know of its state.

## Key results

- `Sim.bind`: the rule of composition
- `Sim.get`: both sides read their own state
- `Sim.ite`: both sides take the same branch
-/

namespace StateM

variable {σ τ : Type} {α β γ δ : Type}

/-- From related states both computations give related results and related states. -/
def Sim (R : σ → τ → Prop) (A : α → β → Prop) (m : StateM σ α) (n : StateM τ β) : Prop :=
  ∀ s t, R s t → A (m s).1 (n t).1 ∧ R (m s).2 (n t).2

namespace Sim

variable {R : σ → τ → Prop} {A : α → β → Prop} {B : γ → δ → Prop} {m : StateM σ α} {n : StateM τ β}

/-- Related values. -/
theorem pure {a : α} {b : β} (h : A a b) :
    Sim R A (Pure.pure a : StateM σ α) (Pure.pure b : StateM τ β) :=
  fun _ _ hR => ⟨h, hR⟩

/-- Related computations, one after the other. -/
theorem bind {f : α → StateM σ γ} {g : β → StateM τ δ} (hm : Sim R A m n)
    (hf : ∀ a b, A a b → Sim R B (f a) (g b)) : Sim R B (m >>= f) (n >>= g) := by
  intro s t hR
  obtain ⟨hA, hR'⟩ := hm s t hR
  exact hf _ _ hA _ _ hR'

/-- First computations with the same result. -/
theorem seq {n : StateM τ α} {f : α → StateM σ γ} {g : α → StateM τ δ} (hm : Sim R Eq m n)
    (hf : ∀ a, Sim R B (f a) (g a)) : Sim R B (m >>= f) (n >>= g) := by
  apply hm.bind
  intro a b hab
  subst hab
  exact hf a

/-- The rest of the computation may depend on the states as they were. -/
theorem get {f : σ → StateM σ γ} {g : τ → StateM τ δ} (h : ∀ s t, R s t → Sim R B (f s) (g t)) :
    Sim R B (MonadState.get >>= f) (MonadState.get >>= g) :=
  fun s t hR => h s t hR s t hR

section

variable {m' : StateM σ α} {n' : StateM τ β} {c : Prop} [Decidable c]

/-- Both take the same branch. -/
theorem ite (h₁ : c → Sim R A m n) (h₂ : ¬c → Sim R A m' n') :
    Sim R A (if c then m else m') (if c then n else n') := by
  split
  · exact h₁ ‹_›
  · exact h₂ ‹_›

/-- A conditional that the rest of the computation follows. -/
theorem iteBind {f : α → StateM σ γ} {g : β → StateM τ δ} (h₁ : c → Sim R A m n)
    (h₂ : ¬c → Sim R A m' n') (hf : ∀ a b, A a b → Sim R B (f a) (g b)) :
    Sim R B (if c then m >>= f else m' >>= f) (if c then n >>= g else n' >>= g) :=
  ite (fun hc => (h₁ hc).bind hf) fun hc => (h₂ hc).bind hf

end

end Sim

end StateM
