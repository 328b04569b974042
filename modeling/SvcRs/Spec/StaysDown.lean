import SvcRs.Spec.Processes

/-!
# Services that wait for ever

An exit under `stopping` or `once`, and an exit that trips the circuit breaker, leave
`restart_at = i64::MAX`. Scans clear `stopping`, and commands set other flags, but nothing
except `start` and `up` writes that field again while the record lasts.

## Key results

- `exit_waits`: the three kinds of exit that leave a record waiting for ever
- `LifeStep.down`: one step of the life cycle keeps it waiting
- `latched_stays_down`: no run forks a main process before the latch is released
-/

namespace SvcRs

open Transition (run Latches)

/-! ## The exit -/

/-- The exit of the main process at time `t` is the last one: the service was stopped, it
    was to run once, or the breaker trips. -/
def Core.Last (c : Core) (t : Int) : Prop := c.stopping = true ∨ c.once = true ∨ c.Trips t

instance (c : Core) (t : Int) : Decidable (c.Last t) := inferInstanceAs (Decidable (_ ∨ _))

/-- After such an exit the record has no process and waits for ever. -/
theorem Core.exit_waits {c : Core} {t : Int} (h : c.Last t) (status : Int) :
    (c.exit status t).pid = -1 ∧ (c.exit status t).restartAt = i64Max := by
  have hpid : (c.exit status t).pid = -1 := by simp
  refine ⟨hpid, ?_⟩
  cases hfinal : c.stopping || c.once with
  | true => rw [exit_final hfinal]
  | false =>
    obtain ⟨hstop, honce⟩ := Bool.or_eq_false_iff.mp hfinal
    have htrips : c.Trips t := by simpa [Core.Last, hstop, honce] using h
    rw [exit_trips hstop honce status htrips]

/-! ## One step -/

/-- What lets a latched service run again: `start` or `up` for it, or a new record in its
    slot. -/
def unlatches (i : Nat) : Event → Bool
  | .accepted cmd j => j = i && (cmd = .start || cmd = .up)
  | .added j => j = i
  | _ => false

/-- The record in slot `i` waits for ever, or it has been given up. -/
structure Life.Down (i : Nat) (a : Life) : Prop where
  tracked : a.Tracked
  waits : (a.core i).active = true → (a.core i).pid ≤ 0 ∧ (a.core i).restartAt = i64Max

section

variable {S : Kind → Prop} {a b : Life} {i : Nat}

/-- A step that changes the record of slot `j`. -/
theorem Life.Down.put (h : a.Down i) (ht : b.Tracked) {j : Nat} {c : Core}
    (hcore : b.core = (a.put j c).core)
    (hwaits : j = i → c.active = true → c.pid ≤ 0 ∧ c.restartAt = i64Max) : b.Down i := by
  refine ⟨ht, fun hact => ?_⟩
  rw [hcore, Life.put_core] at hact ⊢
  split at hact
  · next he =>
    rw [if_pos he]
    exact hwaits he.symm hact
  · next he =>
    rw [if_neg he]
    exact h.waits hact

/-- A step that changes neither the process nor the time of the next start. -/
theorem Life.Down.keep (h : a.Down i) (ht : b.Tracked) {j : Nat} {c : Core}
    (hcore : b.core = (a.put j c).core) (hact : c.active = true → (a.core j).active = true)
    (hpid : c.pid = (a.core j).pid) (hat : j = i → c.restartAt = (a.core j).restartAt) :
    b.Down i := by
  apply h.put ht hcore
  intro he hc
  have hold := h.waits (he ▸ hact hc)
  rw [hpid, hat he, he]
  exact hold

/-- A step that changes no record. -/
theorem Life.Down.frame (h : a.Down i) (ht : b.Tracked) (hcore : b.core = a.core) : b.Down i :=
  ⟨ht, hcore ▸ h.waits⟩

/-- A service that is due is another one. -/
theorem Life.Down.other (h : a.Down i) (hclock : a.clock < i64Max) {j : Nat}
    (hdue : (a.core j).Due a.clock) : j ≠ i := by
  intro he
  subst he
  have hat := (h.waits hdue.active).2
  have helapsed := hdue.elapsed
  omega

/-- A service whose process is reaped is another one. -/
theorem Life.Down.other_reaped (h : a.Down i) {j : Nat} (hact : (a.core j).active = true)
    (hmem : ∃ d ∈ a.children, d.pid = (a.core j).pid) : j ≠ i := by
  intro he
  subst he
  obtain ⟨d, hd, hdpid⟩ := hmem
  have habove := h.tracked.above d hd
  have hidle := (h.waits hact).1
  omega

/-- One step keeps the service down until it is released. -/
theorem LifeStep.down (hstep : LifeStep S a b) :
    Latches Life.log (fun a => a.clock < i64Max) (Life.Down i) (fun e => unlatches i e)
      (Starts i) a b := by
  have hle := hstep.clock_le
  have htracked := fun h : a.Down i => hstep.tracked h.tracked
  refine ⟨fun hb => Int.lt_of_le_of_lt hle hb, ?_⟩
  cases hstep with
  | tick t ht => exact ⟨[], rfl, fun _ h _ => ⟨h.frame (htracked h) rfl, by simp⟩⟩
  | forkFinish | reapOther | signalMain | signalLogger | raiseHup =>
    exact ⟨[_], rfl, fun _ h _ => ⟨h.frame (htracked h) rfl, by simp [Starts]⟩⟩
  | runCheck => exact ⟨[_, _], rfl, fun _ h _ => ⟨h.frame (htracked h) rfl, by simp [Starts]⟩⟩
  | reapLogger j c hc status hmem hact =>
    subst hc
    exact ⟨[_], rfl, fun _ h _ => ⟨h.keep (htracked h) rfl id rfl fun _ => rfl, by simp [Starts]⟩⟩
  | reapMain j c hc status t before hbefore hmem hact hlog ht hmax =>
    subst hc
    refine ⟨[_, _], rfl, fun _ h _ => ⟨?_, by simp [Starts]⟩⟩
    have hne := h.other_reaped hact hmem
    exact h.put (htracked h) rfl fun he => absurd he hne
  | tell j c hc hpid =>
    subst hc
    refine ⟨[_], rfl, fun _ h _ => ⟨?_, by simp [Starts]⟩⟩
    exact h.keep (c := (a.core j).told) (htracked h) rfl id rfl fun _ => rfl
  | unmark j c hc =>
    subst hc
    exact ⟨[], rfl, fun _ h _ => ⟨h.keep (htracked h) rfl id rfl fun _ => rfl, by simp⟩⟩
  | found j c hc hS =>
    subst hc
    refine ⟨[_], rfl, fun _ h _ => ⟨?_, by simp [Starts]⟩⟩
    -- a scan clears `stopping`, which the latch does not rest on
    exact h.keep (c := { a.core j with present := true, stopping := false }) (htracked h) rfl id
      rfl fun _ => rfl
  | add j c hi hact hnew =>
    refine ⟨[_], rfl, fun _ h hrel => ⟨?_, by simp [Starts]⟩⟩
    have hne : j ≠ i := fun he => hrel _ List.mem_cons_self (by simp [unlatches, he])
    exact h.put (htracked h) rfl fun he => absurd he hne
  | remove j c hc hpid hlog =>
    subst hc
    refine ⟨[_], rfl, fun _ h _ => ⟨?_, by simp [Starts]⟩⟩
    apply h.put (c := { a.core j with active := false, state := .down }) (htracked h) rfl
    intro _ hact
    cases hact
  | retry j c hc hS t hdue ht =>
    subst hc
    refine ⟨[], rfl, fun hb h _ => ⟨?_, by simp⟩⟩
    have hne := h.other (Int.lt_of_le_of_lt hle hb) hdue
    exact h.put (htracked h) rfl fun he => absurd he hne
  | forkLogger j c hc hS pid hdue hpid =>
    subst hc
    exact ⟨[_], rfl, fun _ h _ => ⟨h.keep (htracked h) rfl id rfl fun _ => rfl, by simp [Starts]⟩⟩
  | start j c hc hS pid t hdue hpid ht =>
    subst hc
    refine ⟨[_, _], rfl, fun hb h _ => ?_⟩
    have hne := h.other (Int.lt_of_le_of_lt hle hb) hdue
    refine ⟨h.put (c := (a.core j).start pid t) (htracked h) rfl fun he => absurd he hne, ?_⟩
    simp [Starts, hne]
  | startFail j c hc hS pid t hdue hpid ht =>
    subst hc
    refine ⟨[], rfl, fun hb h _ => ⟨?_, by simp⟩⟩
    have hne := h.other (Int.lt_of_le_of_lt hle hb) hdue
    exact h.put (htracked h) rfl fun he => absurd he hne
  | command j c hc cmd t ht =>
    subst hc
    refine ⟨[_], rfl, fun _ h hrel => ⟨?_, by simp [Starts]⟩⟩
    have hcmd : j = i → cmd ≠ .start ∧ cmd ≠ .up := by
      intro hj
      have hrel' := hrel _ List.mem_cons_self
      cases cmd <;> simp [unlatches, hj] at hrel' ⊢
    apply h.keep (c := (a.core j).command t cmd) (htracked h) rfl
    · simp
    · simp
    · exact fun hj => (a.core j).command_restartAt t cmd (hcmd hj)

/-! ## Runs -/

/-- A run keeps the service down. -/
theorem run_down (w : World) (ops : List Op) :
    Latches Life.log (fun a => a.clock < i64Max) (Life.Down i) (fun e => unlatches i e)
      (Starts i) w.life (run exec ops w).life :=
  .of_steps (fun _ _ => LifeStep.down) (Performs.steps ⟨ops, rfl⟩)

end

/-- Once the last exit has been handled, the record waits for ever, and no run forks a main
    process for it before the latch is released. -/
theorem latched_stays_down {w : World} {i : Nat} {pid status : Int} {ops : List Op}
    (hw : Reachable w) (hmem : ⟨pid, .main i⟩ ∈ w.k.children)
    (hlast : (w.svc i).core.Last (w.k.reapTime pid status))
    (hclock : (run exec (.reapChild pid status :: ops) w).k.clock < i64Max)
    (hrel : ∀ e ∈ logged ops (exec (.reapChild pid status) w), ¬unlatches i e) :
    ((exec (.reapChild pid status) w).svc i).pid = -1 ∧
      ((exec (.reapChild pid status) w).svc i).restartAt = i64Max ∧
      ∀ p, .fork (.main i) p ∉ logged ops (exec (.reapChild pid status) w) := by
  obtain ⟨hcore, -⟩ := reapChild_main hw.accounted.tracked hmem status
  obtain ⟨hpid, hat⟩ := Core.exit_waits hlast status
  have hpid' : ((exec (.reapChild pid status) w).svc i).pid = -1 :=
    (congrArg Core.pid hcore).trans hpid
  have hat' : ((exec (.reapChild pid status) w).svc i).restartAt = i64Max :=
    (congrArg Core.restartAt hcore).trans hat
  refine ⟨hpid', hat', ?_⟩
  -- the record waits after the exit, and the run keeps it so
  have hnext : Reachable (exec (.reapChild pid status) w) := hw.performs (.op _ w)
  have hdown : (exec (.reapChild pid status) w).life.Down i := by
    refine ⟨hnext.accounted.tracked, fun _ => ⟨?_, hat'⟩⟩
    show ((exec (.reapChild pid status) w).svc i).pid ≤ 0
    rw [hpid']
    decide
  obtain ⟨-, hno⟩ := (run_down _ ops).since hclock hdown hrel
  intro p hfork
  exact hno _ hfork ⟨p, rfl⟩

/-- `stop`, the exit, a scan, `restart` and a start pass. -/
theorem stopped_stays_down :
    ((exec (.reapChild 116 15) (exec (.request (bytesOf "stop a")) plainStarted)).svc 0).pid = -1 ∧
      ((exec (.reapChild 116 15)
        (exec (.request (bytesOf "stop a")) plainStarted)).svc 0).restartAt = i64Max ∧
      ∀ p, .fork (.main 0) p ∉
        logged [.scanEntry (bytesOf "a"), .request (bytesOf "restart a"), .start 5 0]
          (exec (.reapChild 116 15) (exec (.request (bytesOf "stop a")) plainStarted)) := by
  have hw : Reachable (exec (.request (bytesOf "stop a")) plainStarted) :=
    plainStarted_reachable.performs (.op _ _)
  -- stopped, reaped, met by a scan and restarted: nothing is forked
  apply latched_stays_down hw
  · decide +kernel
  · decide +kernel
  · decide +kernel
  · decide +kernel

end SvcRs
