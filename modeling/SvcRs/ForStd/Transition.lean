import Mathlib.Logic.Relation

/-!
# Runs and traced transition systems

Two views of a system that takes step after step. A *run* folds an input list
through a step function; `Along` says that every step of a run satisfies a
condition on the state it is taken in. A *traced* relation appends events to a log
(newest first) with every step; `since` is what a stretch of steps added.

## Key results

- `run_invariant`: an invariant of the steps that satisfy the condition holds after a run
- `along_iff`: a property holds after every step exactly when every step is harmless
- `each_cons`: a property of all entries of a log, entry by entry
- `log_of_steps`: a closure of traced steps only adds to the log
- `Latches.of_steps`: what holds until an event of some kind is logged
-/

namespace Transition

section Runs

variable {σ ι : Type*} (exec : ι → σ → σ)

/-- The state after the inputs, taken in order. -/
def run : List ι → σ → σ
  | [], s => s
  | i :: is, s => run is (exec i s)

/-- Every step of the run satisfies `P`, in the state in which it is taken. -/
def Along (P : σ → ι → Prop) : List ι → σ → Prop
  | [], _ => True
  | i :: is, s => P s i ∧ Along P is (exec i s)

instance Along.decidable (P : σ → ι → Prop) [∀ s i, Decidable (P s i)] :
    ∀ (is : List ι) (s : σ), Decidable (Along exec P is s)
  | [], _ => inferInstanceAs (Decidable True)
  | i :: is, s =>
    have := Along.decidable P is (exec i s)
    inferInstanceAs (Decidable (P s i ∧ Along exec P is (exec i s)))

variable {exec}

/-- The empty run. -/
@[simp] theorem run_nil (s : σ) : run exec [] s = s := rfl

/-- The first step, and the rest of the run. -/
@[simp] theorem run_cons (i : ι) (is : List ι) (s : σ) :
    run exec (i :: is) s = run exec is (exec i s) := rfl

/-- One run after another. -/
theorem run_append (is js : List ι) (s : σ) :
    run exec (is ++ js) s = run exec js (run exec is s) := by
  induction is generalizing s with
  | nil => rfl
  | cons i is ih => exact ih (exec i s)

/-- A condition along a run holds along both parts. -/
theorem along_append {P : σ → ι → Prop} (is js : List ι) (s : σ) :
    Along exec P (is ++ js) s ↔ Along exec P is s ∧ Along exec P js (run exec is s) := by
  induction is generalizing s with
  | nil => simp [Along]
  | cons i is ih => simp only [List.cons_append, Along, ih, run_cons, and_assoc]

/-- The trivial condition. -/
theorem along_true (is : List ι) (s : σ) : Along exec (fun _ _ => True) is s := by
  induction is generalizing s with
  | nil => trivial
  | cons i is ih => exact ⟨trivial, ih _⟩

/-- The condition may be weakened. -/
theorem Along.mono {P Q : σ → ι → Prop} (hPQ : ∀ s i, P s i → Q s i) {is : List ι} {s : σ}
    (h : Along exec P is s) : Along exec Q is s := by
  induction is generalizing s with
  | nil => trivial
  | cons i is ih => exact ⟨hPQ s i h.1, ih h.2⟩

/-- Two conditions at once. -/
theorem Along.and {P Q : σ → ι → Prop} {is : List ι} {s : σ} (h : Along exec P is s)
    (h' : Along exec Q is s) : Along exec (fun s i => P s i ∧ Q s i) is s := by
  induction is generalizing s with
  | nil => trivial
  | cons i is ih => exact ⟨⟨h.1, h'.1⟩, ih h.2 h'.2⟩

/-- The run rule: what the steps under `P` preserve, a run under `P` preserves. -/
theorem run_invariant {P : σ → ι → Prop} {I : σ → Prop}
    (hstep : ∀ s i, I s → P s i → I (exec i s)) {is : List ι} {s : σ}
    (h : I s) (hP : Along exec P is s) : I (run exec is s) := by
  induction is generalizing s with
  | nil => exact h
  | cons i is ih => exact ih (hstep s i h hP.1) hP.2

/-- The exact run rule: if, under an invariant, a step keeps `J` exactly when it satisfies `P`,
    then `J` holds after every step of a run exactly when all its steps satisfy `P`. -/
theorem along_iff {P : σ → ι → Prop} {I J : σ → Prop} (hinv : ∀ s i, I s → I (exec i s))
    (hstep : ∀ s i, I s → J s → (J (exec i s) ↔ P s i)) {s : σ} (hI : I s) (hJ : J s)
    (is : List ι) : Along exec (fun s i => J (exec i s)) is s ↔ Along exec P is s := by
  induction is generalizing s with
  | nil => exact Iff.rfl
  | cons i is ih =>
    have hone := hstep s i hI hJ
    simp only [Along]
    -- the equivalence of one step, with the invariant carried along
    constructor
    · intro h
      exact ⟨hone.mp h.1, (ih (hinv s i hI) h.1).mp h.2⟩
    · intro h
      have hnext := hone.mpr h.1
      exact ⟨hnext, (ih (hinv s i hI) hnext).mpr h.2⟩

end Runs

section Traced

variable {σ ε : Type*} {step : σ → σ → Prop} (log : σ → List ε)

/-- The events that the later of two logs has on top of the earlier. -/
def since (old new : List ε) : List ε := new.take (new.length - old.length)

/-- What was put on top of a log. -/
@[simp] theorem since_append (evs old : List ε) : since old (evs ++ old) = evs := by
  simp [since]

/-- Nothing has happened since. -/
@[simp] theorem since_self (l : List ε) : since l l = [] := by simp [since]

/-- Every entry of a log satisfies `P`, together with the entries before it. -/
def Each (P : ε → List ε → Prop) (l : List ε) : Prop :=
  ∀ newer e older, l = newer ++ e :: older → P e older

/-- The empty log. -/
theorem each_nil (P : ε → List ε → Prop) : Each P [] := by simp [Each]

/-- The newest entry, and the others. -/
theorem each_cons {P : ε → List ε → Prop} {e : ε} {l : List ε} :
    Each P (e :: l) ↔ P e l ∧ Each P l := by
  constructor
  · intro h
    exact ⟨h [] e l rfl, fun newer e' older hl => h (e :: newer) e' older (by rw [hl]; rfl)⟩
  · rintro ⟨he, hl⟩ (_ | ⟨e', newer⟩) e'' older heq
    · obtain ⟨rfl, rfl⟩ := List.cons.inj heq
      exact he
    · obtain ⟨-, hrest⟩ := List.cons.inj heq
      exact hl newer e'' older hrest

/-- If every step only adds to the log, so does a sequence of steps. -/
theorem log_of_steps (hlog : ∀ a b, step a b → ∃ evs, log b = evs ++ log a)
    {a b : σ} (h : Relation.ReflTransGen step a b) : ∃ evs, log b = evs ++ log a := by
  induction h with
  | refl => exact ⟨[], rfl⟩
  | tail _ hbc ih =>
    obtain ⟨evs, h₁⟩ := ih
    obtain ⟨evs', h₂⟩ := hlog _ _ hbc
    exact ⟨evs' ++ evs, by rw [h₂, h₁, List.append_assoc]⟩

/-- The events from `a` to `b` are on top of the log of `a`. If the way ends in `G`, begins
    in `L` and logs no event in `Release`, it ends in `L` and logs no event in `Bad`. -/
structure Latches (G L : σ → Prop) (Release Bad : ε → Prop) (a b : σ) : Prop where
  back : G b → G a
  events : ∃ evs, log b = evs ++ log a ∧
    (G b → L a → (∀ e ∈ evs, ¬Release e) → L b ∧ ∀ e ∈ evs, ¬Bad e)

namespace Latches

variable {log} {G L : σ → Prop} {Release Bad : ε → Prop} {a b c : σ}

/-- No step. -/
theorem refl (a : σ) : Latches log G L Release Bad a a :=
  ⟨id, [], rfl, fun _ hL _ => ⟨hL, by simp⟩⟩

/-- One way after the other. -/
theorem trans (h : Latches log G L Release Bad a b) (h' : Latches log G L Release Bad b c) :
    Latches log G L Release Bad a c := by
  obtain ⟨hback, early, hearly, hL⟩ := h
  obtain ⟨hback', late, hlate, hL'⟩ := h'
  refine ⟨fun hG => hback (hback' hG), late ++ early, ?_, fun hG ha hrel => ?_⟩
  · rw [hlate, hearly, List.append_assoc]
  · obtain ⟨hb, hgood⟩ := hL (hback' hG) ha fun e he => hrel e (List.mem_append_right _ he)
    obtain ⟨hc, hgood'⟩ := hL' hG hb fun e he => hrel e (List.mem_append_left _ he)
    exact ⟨hc, fun e he => (List.mem_append.mp he).elim (hgood' e) (hgood e)⟩

/-- The latch rule: what every step latches, a sequence of steps latches. -/
theorem of_steps (hstep : ∀ a b, step a b → Latches log G L Release Bad a b)
    (h : Relation.ReflTransGen step a b) : Latches log G L Release Bad a b := by
  induction h with
  | refl => exact refl a
  | tail _ hbc ih => exact ih.trans (hstep _ _ hbc)

/-- What a latch says of the events since `a`. -/
theorem since (h : Latches log G L Release Bad a b) (hG : G b) (hL : L a)
    (hrel : ∀ e ∈ since (log a) (log b), ¬Release e) :
    L b ∧ ∀ e ∈ Transition.since (log a) (log b), ¬Bad e := by
  obtain ⟨-, evs, hevs, hL'⟩ := h
  rw [hevs, since_append] at hrel ⊢
  exact hL' hG hL hrel

end Latches

end Traced

end Transition
