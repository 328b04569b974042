import Mathlib.Algebra.Order.Group.Multiset
import Mathlib.Tactic.Abel

/-!
# Ownership of resources

Who is responsible for what a program allocates. A *ledger* reads off a log of events
which resources are held: an event gains some and loses some, and the log is solvent if
no event ever loses what was not held, so that nothing is given back twice. On top of it,
a logic for state monads: `Transfers held Ok a m b Q` says that `m` takes the resources
`a` over and hands the resources `b x` back with its result `x`, while whatever else is
held stays held. As in separation logic, the frame is part of the meaning.

## Key results

- `Transfers.bind`: what the first computation hands back, the second one takes over
- `Transfers.frame`: resources that a computation does not know of
- `Transfers.give`: hand over a part and keep the rest for what follows
-/

namespace Ownership

/-! ## Ledgers -/

section Ledger

variable {ε ι : Type*} [DecidableEq ι] (gain loss : ε → Multiset ι)

/-- What is held after the events, of which the newest comes first. -/
def balance : List ε → Multiset ι
  | [] => 0
  | e :: log => balance log - loss e + gain e

/-- No event loses what is not held. -/
def Solvent : List ε → Prop
  | [] => True
  | e :: log => loss e ≤ balance gain loss log ∧ Solvent log

/-- An event that has nothing to do with the resources. -/
theorem balance_idle {e : ε} (hgain : gain e = 0) (hloss : loss e = 0) (log : List ε) :
    balance gain loss (e :: log) = balance gain loss log := by
  simp [balance, hgain, hloss]

/-- An event that costs nothing needs no balance. -/
theorem solvent_idle {e : ε} (hloss : loss e = 0) (log : List ε) :
    Solvent gain loss (e :: log) ↔ Solvent gain loss log := by
  show loss e ≤ _ ∧ _ ↔ _
  rw [hloss]
  exact ⟨And.right, fun h => ⟨Multiset.zero_le _, h⟩⟩

end Ledger

/-! ## Computations -/

section Logic

variable {σ : Type} {M : Type*} [AddCommMonoid M] {α β : Type}

/-- Started in a state that is `Ok` and holds `a` among other things, `m` ends with an `Ok`
    state that holds `b` of its result in place of `a`, and the result satisfies `Q`. -/
def Transfers (held : σ → M) (Ok : σ → Prop) (a : M) (m : StateM σ α) (b : α → M)
    (Q : α → Prop) : Prop :=
  ∀ s rest, Ok s → held s = a + rest →
    Ok (m s).2 ∧ held (m s).2 = b (m s).1 + rest ∧ Q (m s).1

namespace Transfers

variable {held : σ → M} {Ok : σ → Prop} {a a' r : M} {m m₁ m₂ : StateM σ α}
  {f : α → StateM σ β} {b b' : α → M} {c : β → M} {Q Q' : α → Prop} {S : β → Prop}

/-- Nothing happens. -/
theorem pure {x : α} (hb : a = b x) (hQ : Q x) : Transfers held Ok a (Pure.pure x) b Q := by
  intro s rest hok hheld
  exact ⟨hok, hb ▸ hheld, hQ⟩

/-- Nothing changes that the logic talks about. -/
theorem idle (h : ∀ s, Ok s → Ok (m s).2 ∧ held (m s).2 = held s) :
    Transfers held Ok 0 m (fun _ => 0) fun _ => True := by
  intro s rest hok hheld
  obtain ⟨hok', hsame⟩ := h s hok
  exact ⟨hok', hsame.trans hheld, trivial⟩

/-- One computation after the other. -/
theorem bind (hm : Transfers held Ok a m b Q) (hf : ∀ x, Q x → Transfers held Ok (b x) (f x) c S) :
    Transfers held Ok a (m >>= f) c S := by
  intro s rest hok hheld
  obtain ⟨hok', hheld', hQ⟩ := hm s rest hok hheld
  exact hf _ hQ _ rest hok' hheld'

/-- What else is held stays. -/
theorem frame (hm : Transfers held Ok a m b Q) (r : M) :
    Transfers held Ok (a + r) m (fun x => b x + r) Q := by
  intro s rest hok hheld
  rw [add_assoc] at hheld
  obtain ⟨hok', hheld', hQ⟩ := hm s (r + rest) hok hheld
  exact ⟨hok', by rw [hheld', add_assoc], hQ⟩

/-- Amounts and results may be rewritten. -/
theorem weaken (hm : Transfers held Ok a m b Q) (ha : a' = a) (hb : ∀ x, Q x → b x = b' x)
    (hQ : ∀ x, Q x → Q' x) : Transfers held Ok a' m b' Q' := by
  intro s rest hok hheld
  obtain ⟨hok', hheld', hres⟩ := hm s rest hok (ha ▸ hheld)
  exact ⟨hok', hb _ hres ▸ hheld', hQ _ hres⟩

/-- Hand over `a` and keep `r` for what follows. -/
theorem give (hm : Transfers held Ok a m b Q) (ha : a' = a + r)
    (hf : ∀ x, Q x → Transfers held Ok (b x + r) (f x) c S) :
    Transfers held Ok a' (m >>= f) c S :=
  ha ▸ (hm.frame r).bind hf

/-- A first computation that has nothing to do with the resources. -/
theorem skip (hm : Transfers held Ok 0 m (fun _ => 0) Q)
    (hf : ∀ x, Q x → Transfers held Ok a (f x) c S) : Transfers held Ok a (m >>= f) c S :=
  hm.give (zero_add a).symm fun x hx => (hf x hx).weaken (zero_add a) (fun _ _ => rfl) fun _ => id

/-- The same for a computation whose place in the program is not a bind. -/
theorem keep (hm : Transfers held Ok 0 m (fun _ => 0) Q) :
    Transfers held Ok a m (fun _ => a) Q :=
  (hm.frame a).weaken (zero_add a).symm (fun _ _ => zero_add a) fun _ => id

/-- The two branches of a test. -/
theorem ite {p : Prop} [Decidable p] (h₁ : p → Transfers held Ok a m₁ b Q)
    (h₂ : ¬p → Transfers held Ok a m₂ b Q) : Transfers held Ok a (if p then m₁ else m₂) b Q := by
  split
  · exact h₁ ‹_›
  · exact h₂ ‹_›

/-- A conditional that the rest of the computation follows. -/
theorem iteBind {p : Prop} [Decidable p] (h₁ : p → Transfers held Ok a m₁ b Q)
    (h₂ : ¬p → Transfers held Ok a m₂ b Q) (hf : ∀ x, Q x → Transfers held Ok (b x) (f x) c S) :
    Transfers held Ok a (if p then m₁ >>= f else m₂ >>= f) c S :=
  ite (fun hp => (h₁ hp).bind hf) fun hp => (h₂ hp).bind hf

end Transfers

end Logic

end Ownership
