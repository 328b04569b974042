import Mathlib.Order.Defs.Unbundled

/-!
# A Hoare logic for state monads that tracks how the state moves

`Within R P m Q`: from a state in `P`, the computation `m` moves the state along the
preorder `R` and ends with a result and a state in `Q`. With an equivalence-like `R`
it is a frame rule, with the steps of a transition system it is a simulation.
`Keeps R m Q` is the common case without a precondition, where `Q` is about the
result only.
-/

namespace StateM

variable {σ : Type} {α β : Type} {R : σ → σ → Prop} {P : σ → Prop}

/-- From states in `P`, the computation moves along `R` and ends with `Q`. -/
def Within (R : σ → σ → Prop) (P : σ → Prop) (m : StateM σ α) (Q : α → σ → Prop) : Prop :=
  ∀ s, P s → R s (m s).2 ∧ Q (m s).1 (m s).2

namespace Within

variable {m : StateM σ α} {f : α → StateM σ β} {Q : α → σ → Prop} {S : β → σ → Prop}

/-- Nothing happens. -/
theorem pure [Std.Refl R] {a : α} (h : ∀ s, P s → Q a s) :
    Within R P (Pure.pure a : StateM σ α) Q :=
  fun s hs => ⟨Std.Refl.refl s, h s hs⟩

/-- The post condition of the first is the precondition of the second. -/
theorem bind [IsTrans σ R] (hm : Within R P m Q) (hf : ∀ a, Within R (Q a) (f a) S) :
    Within R P (m >>= f) S := fun s hs =>
  have ⟨h₁, hQ⟩ := hm s hs
  have ⟨h₂, hS⟩ := hf (m s).1 (m s).2 hQ
  ⟨IsTrans.trans _ _ _ h₁ h₂, hS⟩

/-- Reading the state. -/
theorem get [Std.Refl R] :
    Within R P (MonadState.get : StateM σ σ) (fun a s => a = s ∧ P s) :=
  fun s hs => ⟨Std.Refl.refl s, rfl, hs⟩

/-- The rule of consequence. -/
theorem weaken {P' : σ → Prop} {Q' : α → σ → Prop} (h : Within R P m Q)
    (hP : ∀ s, P' s → P s) (hQ : ∀ a s, Q a s → Q' a s) : Within R P' m Q' := fun s hs =>
  have ⟨h₁, h₂⟩ := h s (hP s hs)
  ⟨h₁, hQ _ _ h₂⟩

end Within

/-- `Within` from all states. -/
def Keeps (R : σ → σ → Prop) (m : StateM σ α) (Q : α → Prop) : Prop :=
  Within R (fun _ => True) m fun a _ => Q a

namespace Keeps

variable {m m₁ m₂ : StateM σ α} {f : α → StateM σ β} {Q Q' : α → Prop} {S : β → Prop}
  {c : Prop} [Decidable c]

/-- The states before and after are related. -/
theorem rel (h : Keeps R m Q) (s : σ) : R s (m s).2 := (h s trivial).1

/-- The result satisfies the post condition. -/
theorem post (h : Keeps R m Q) (s : σ) : Q (m s).1 := (h s trivial).2

/-- Nothing happens. -/
theorem pure [Std.Refl R] {a : α} (h : Q a) : Keeps R (Pure.pure a : StateM σ α) Q :=
  Within.pure fun _ _ => h

/-- One computation after the other. -/
theorem bind [IsTrans σ R] (hm : Keeps R m Q) (hf : ∀ a, Q a → Keeps R (f a) S) :
    Keeps R (m >>= f) S :=
  Within.bind (Q := fun a _ => Q a) hm fun a _ ha => hf a ha _ trivial

/-- A first computation whose result does not matter. -/
theorem seq [IsTrans σ R] (hm : Keeps R m fun _ => True) (hf : ∀ a, Keeps R (f a) S) :
    Keeps R (m >>= f) S :=
  bind hm fun a _ => hf a

theorem weaken (h : Keeps R m Q) (hQ : ∀ a, Q a → Q' a) : Keeps R m Q' :=
  Within.weaken h (fun _ => id) fun a _ => hQ a

/-- A coarser preorder. -/
theorem mono {R' : σ → σ → Prop} (h : Keeps R m Q) (hR : ∀ s s', R s s' → R' s s') :
    Keeps R' m Q :=
  fun s hs => ⟨hR _ _ (h s hs).1, (h s hs).2⟩

/-- The two branches of a test. -/
theorem ite (h₁ : c → Keeps R m₁ Q) (h₂ : ¬c → Keeps R m₂ Q) :
    Keeps R (if c then m₁ else m₂) Q := by
  split
  · exact h₁ ‹_›
  · exact h₂ ‹_›

/-- A conditional that the rest of the computation follows. -/
theorem iteBind [IsTrans σ R] (h₁ : c → Keeps R m₁ Q) (h₂ : ¬c → Keeps R m₂ Q)
    (hf : ∀ a, Q a → Keeps R (f a) S) : Keeps R (if c then m₁ >>= f else m₂ >>= f) S :=
  ite (fun hc => bind (h₁ hc) hf) fun hc => bind (h₂ hc) hf

end Keeps

end StateM
