import Mathlib.Data.List.Basic
import SvcRs.ForStd.Transition

/-!
# Rotating logs

A log that is written in pieces. As soon as its current file is longer than a limit, the
file is archived under a name, and an empty one takes its place. Names and bytes are arbitrary
types.

## Key results

- `all_run`: the archives and the current file are what was written, in order
- `Within.add`: how long the files get
-/

/-- The file that is written, and the archived ones with their names, newest first. -/
structure RotatingLog (N B : Type*) where
  current : List B
  archives : List (N × List B)

namespace RotatingLog

open Transition (run)

variable {N B : Type*} {limit width : Nat}

/-- Everything in the log, oldest first. -/
def all (l : RotatingLog N B) : List B := l.archives.reverse.flatMap Prod.snd ++ l.current

/-- One piece, and the name for the file if this is one piece too many. -/
def add (limit : Nat) (x : N × List B) (l : RotatingLog N B) : RotatingLog N B :=
  if limit < (l.current ++ x.2).length then ⟨[], (x.1, l.current ++ x.2) :: l.archives⟩
  else ⟨l.current ++ x.2, l.archives⟩

/-- An entry that fits is appended. -/
theorem add_fits {l : RotatingLog N B} {x : N × List B}
    (h : (l.current ++ x.2).length ≤ limit) : l.add limit x = ⟨l.current ++ x.2, l.archives⟩ :=
  if_neg (Nat.not_lt.mpr h)

/-- An entry that exceeds the limit is appended too, and then the log becomes an archive. -/
theorem add_exceeds {l : RotatingLog N B} {x : N × List B}
    (h : limit < (l.current ++ x.2).length) :
    l.add limit x = ⟨[], (x.1, l.current ++ x.2) :: l.archives⟩ := if_pos h

/-- A rotation moves bytes, and loses none. -/
theorem all_add (l : RotatingLog N B) (x : N × List B) : (l.add limit x).all = l.all ++ x.2 := by
  unfold add
  split <;> simp [all]

/-- Nothing is lost: current log and archives together hold every entry. -/
theorem all_run (xs : List (N × List B)) (l : RotatingLog N B) :
    (run (add limit) xs l).all = l.all ++ xs.flatMap Prod.snd := by
  induction xs generalizing l with
  | nil => simp
  | cons x xs ih => rw [Transition.run_cons, ih, all_add, List.flatMap_cons, List.append_assoc]

/-- The current file is within the limit, an archive exceeds it by less than one piece. -/
structure Within (limit width : Nat) (l : RotatingLog N B) : Prop where
  current : l.current.length ≤ limit
  archives : ∀ a ∈ l.archives, limit < a.2.length ∧ a.2.length ≤ limit + width

/-- An entry of bounded width keeps the bound. -/
theorem Within.add {l : RotatingLog N B} (h : l.Within limit width) {x : N × List B}
    (hx : x.2.length ≤ width) : (l.add limit x).Within limit width := by
  have hlen : (l.current ++ x.2).length = l.current.length + x.2.length := List.length_append
  have hcur := h.current
  -- the entry fits, or it is the last one of an archive
  by_cases hfits : (l.current ++ x.2).length ≤ limit
  · rw [add_fits hfits]
    exact ⟨hfits, h.archives⟩
  · rw [add_exceeds (Nat.not_le.mp hfits)]
    refine ⟨Nat.zero_le _, fun a ha => ?_⟩
    cases List.mem_cons.mp ha with
    | inl he =>
      subst he
      show limit < (l.current ++ x.2).length ∧ (l.current ++ x.2).length ≤ limit + width
      omega
    | inr hold => exact h.archives a hold

end RotatingLog
