import Mathlib.Logic.Relation

/-!
# Monitors

A monitor reads a log of events, oldest first, and moves from phase to phase; an event that
is not allowed in a phase stops it. Logs have their newest event in front, as in
`Transition`. A system follows the protocol that a monitor stands for if the monitor gets
through every log of the system.

## Key results

- `replay_append`: the later part of a log is read from the phase after the earlier part
- `replay_filter`: events that no phase looks at can be left out
- `follows_of_steps`: a system follows the protocol if each of its steps does
- `replay_count`: how often two kinds of events occur, read off the last phase
-/

namespace Monitor

variable {φ ε σ : Type*} (next : φ → ε → Option φ)

/-- The phase after a log, from `start` on; `none` if some event was not allowed. -/
def replay (start : φ) : List ε → Option φ
  | [] => some start
  | e :: log => (replay start log).bind fun p => next p e

variable {next}

/-- An empty log leaves the monitor at its start. -/
@[simp] theorem replay_nil (start : φ) : replay next start [] = some start := rfl

/-- The newest event comes last. -/
@[simp] theorem replay_cons (start : φ) (e : ε) (log : List ε) :
    replay next start (e :: log) = (replay next start log).bind fun p => next p e := rfl

/-- The older events first, then the newer ones. -/
theorem replay_append (start : φ) (new old : List ε) :
    replay next start (new ++ old) = (replay next start old).bind fun p => replay next p new := by
  induction new with
  | nil => simp
  | cons e new ih =>
    rw [List.cons_append, replay_cons, ih, Option.bind_assoc]
    rfl

/-- The events that are left out change no phase. -/
theorem replay_filter {keep : ε → Bool} (h : ∀ p e, keep e = false → next p e = some p)
    (start : φ) (log : List ε) : replay next start (log.filter keep) = replay next start log := by
  induction log with
  | nil => rfl
  | cons e log ih =>
    cases hkeep : keep e with
    | true => rw [List.filter_cons_of_pos hkeep, replay_cons, replay_cons, ih]
    | false =>
      have hidle : (fun p => next p e) = some := funext fun p => h p e hkeep
      rw [List.filter_cons_of_neg (by simp [hkeep]), replay_cons, ih, hidle, Option.bind_fun_some]

section Systems

variable (log : σ → List ε) (view : σ → φ) {step : σ → σ → Prop} {I : σ → Prop} {start : φ}

/-- The protocol rule: every step, taken in a state with the invariant, logs events that lead
    the monitor from the view of one state to the view of the next. -/
theorem follows_of_steps (hinv : ∀ a b, step a b → I a → I b)
    (hstep : ∀ a b, step a b → I a →
      ∃ evs, log b = evs ++ log a ∧ replay next (view a) evs = some (view b))
    {a b : σ} (h : Relation.ReflTransGen step a b) (ha : I a)
    (hstart : replay next start (log a) = some (view a)) :
    replay next start (log b) = some (view b) := by
  -- the invariant goes along with what the monitor has read
  have hboth : I b ∧ replay next start (log b) = some (view b) := by
    induction h with
    | refl => exact ⟨ha, hstart⟩
    | tail _ hbc ih =>
      obtain ⟨hI, hview⟩ := ih
      obtain ⟨evs, hevs, hread⟩ := hstep _ _ hbc hI
      refine ⟨hinv _ _ hbc hI, ?_⟩
      rw [hevs, replay_append, hview]
      exact hread
  exact hboth.2

end Systems

/-- If every phase has a value that some events raise by one and others lower by one, the
    difference of their numbers is the difference of the values. -/
theorem replay_count {up down : ε → Bool} {value : φ → Nat}
    (h : ∀ p e q, next p e = some q → value q + (down e).toNat = value p + (up e).toNat)
    {start p : φ} {log : List ε} (hlog : replay next start log = some p) :
    value p + log.countP down = value start + log.countP up := by
  induction log generalizing p with
  | nil =>
    obtain rfl : start = p := by simpa using hlog
    rfl
  | cons e log ih =>
    obtain ⟨q, hq, hnext⟩ := Option.bind_eq_some_iff.mp hlog
    have hvalue := h q e p hnext
    have hrest := ih hq
    rw [List.countP_cons, List.countP_cons]
    -- one event moves both counts as it moves the value
    cases hdown : down e <;> cases hup : up e <;> simp [hdown, hup] at hvalue ⊢ <;> omega

end Monitor
