import Mathlib.Data.List.Chain
import Mathlib.Data.List.Perm.Subperm
import Mathlib.Logic.Relation

/-!
# Dependency graphs

`dep a b` says that `a` depends on `b`, and `missing a` that something `a` depends on does
not exist. What can be started in rounds, each thing after everything it depends on, is
what depends on nothing missing and on no cycle.

## Key results

- `Buildable.grounded`: what is built after its dependencies is grounded
- `Grounded.round`: the round rule, by the length of the longest chain
- `Grounded.shallow`: chains are shorter than the number of things
-/

namespace DepGraph

open Relation (ReflTransGen TransGen)

variable {α : Type*} (dep : α → α → Prop) (missing : α → Prop)

/-- Whatever `a` depends on, however indirectly, exists and is on no cycle. -/
structure Grounded (a : α) : Prop where
  complete : ∀ b, ReflTransGen dep a b → ¬missing b
  acyclic : ∀ b, ReflTransGen dep a b → ¬TransGen dep b b

/-- What can be built if each thing has to be built after everything it depends on. -/
inductive Buildable : α → Prop
  | intro (a : α) (hmissing : ¬missing a) (hdep : ∀ b, dep a b → Buildable b) : Buildable a

/-- The longest chain of dependencies from `a` has fewer than `n` edges. -/
def Shallow (n : Nat) (a : α) : Prop := ∀ p, List.IsChain dep (a :: p) → p.length < n

variable {dep missing} {a b : α} {n : Nat}

/-- Nothing has a depth below zero. -/
theorem Shallow.pos (h : Shallow dep n a) : 0 < n := h [] (.singleton a)

/-- A bound on the depth may be raised. -/
theorem Shallow.mono {m : Nat} (h : Shallow dep n a) (hm : n ≤ m) : Shallow dep m a :=
  fun p hp => Nat.lt_of_lt_of_le (h p hp) hm

/-- A dependency is less deep. -/
theorem Shallow.of_dep (h : Shallow dep (n + 1) a) (hab : dep a b) : Shallow dep n b := by
  intro p hp
  have hlt := h (b :: p) (List.isChain_cons_cons.mpr ⟨hab, hp⟩)
  rw [List.length_cons] at hlt
  omega

/-! ## Safety -/

/-- By induction on the order in which things are built. -/
theorem Buildable.grounded (h : Buildable dep missing a) : Grounded dep missing a := by
  induction h with
  | intro a hmissing hdep ih =>
    constructor
    · intro b hab
      rcases hab.cases_head with rfl | ⟨c, hac, hcb⟩
      · exact hmissing
      · exact (ih c hac).complete b hcb
    · intro b hab hbb
      rcases hab.cases_head with rfl | ⟨c, hac, hcb⟩
      · -- the cycle goes on from `a` to something built before
        obtain ⟨c, hac, hca⟩ := TransGen.head'_iff.mp hbb
        exact (ih c hac).acyclic a hca hbb
      · exact (ih c hac).acyclic b hcb hbb

/-! ## Progress -/

namespace Grounded

/-- What a grounded node depends on is grounded. -/
theorem of_dep (h : Grounded dep missing a) (hab : dep a b) : Grounded dep missing b :=
  ⟨fun c hbc => h.complete c (.head hab hbc), fun c hbc => h.acyclic c (.head hab hbc)⟩

/-- The round rule. If a round builds everything whose dependencies were built before it, and
    before it everything with chains shorter than `n` was built, then after it everything
    with chains shorter than `n + 1` is. -/
theorem round {R R' : α → Prop}
    (hround : ∀ a, Grounded dep missing a → (∀ b, dep a b → R b) → R' a)
    (hR : ∀ a, Grounded dep missing a → Shallow dep n a → R a) (h : Grounded dep missing a)
    (hn : Shallow dep (n + 1) a) : R' a :=
  hround a h fun b hab => hR b (h.of_dep hab) (hn.of_dep hab)

/-- Everything on a chain is reached from its head. -/
theorem reaches_of_mem {p : List α} (hp : List.IsChain dep (a :: p)) (hb : b ∈ a :: p) :
    ReflTransGen dep a b := by
  have htrans : List.IsChain (ReflTransGen dep) (a :: p) := hp.imp fun _ _ => .single
  rcases List.mem_cons.mp hb with rfl | hb
  · exact .refl
  · exact htrans.rel_cons hb

/-- No chain comes back to something it has passed. -/
theorem nodup (h : Grounded dep missing a) {p : List α} (hp : List.IsChain dep (a :: p)) :
    (a :: p).Nodup := by
  induction p generalizing a with
  | nil => simp
  | cons b p ih =>
    obtain ⟨hab, hbp⟩ := List.isChain_cons_cons.mp hp
    apply List.nodup_cons.mpr
    refine ⟨fun hmem => ?_, ih (h.of_dep hab) hbp⟩
    exact h.acyclic a .refl (.head' hab (reaches_of_mem hbp hmem))

/-- If all of it is in a list, the chains are shorter than the list. -/
theorem shallow (h : Grounded dep missing a) {l : List α} (ha : a ∈ l)
    (hl : ∀ b c, dep b c → c ∈ l) : Shallow dep l.length a := by
  intro p hp
  have hsub : a :: p ⊆ l := by
    intro b hb
    rcases (reaches_of_mem hp hb).cases_tail with rfl | ⟨c, -, hcb⟩
    · exact ha
    · exact hl c b hcb
  have hle := ((h.nodup hp).subperm hsub).length_le
  rw [List.length_cons] at hle
  omega

end Grounded

end DepGraph
