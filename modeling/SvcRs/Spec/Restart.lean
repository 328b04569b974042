import SvcRs.Spec.Commands
import SvcRs.Spec.Processes

/-!
# The `restart` command

`restart` stops the service and sets `manual_start`. Whether it comes back is decided
when its exit is reaped, by the flag `stopping`: if that is still set, the service waits
for ever. If not, a start pass that finds the service due while a hard dependency is
down moves `restart_at` once more.

## Key results

- `LifeStep.manual`: the record keeps `pid` and `manual_start` until the process is reaped
- `run_waits`: from the exit to the first start, `restart_at` is the time of the next attempt
- `restart_iff`: when a service comes back after `restart`
- `restart_ignored`: without a scan in between it does not
-/

namespace SvcRs

open Transition (run Along Latches since)

/-! ## Until the process is reaped -/

/-- Slot `i` has the main process `pid`, and a manual start has been asked for. -/
structure Life.Manual (i : Nat) (pid : Int) (a : Life) : Prop where
  tracked : a.Tracked
  positive : 0 < pid
  pid : (a.core i).pid = pid
  manualStart : (a.core i).manualStart = true

/-- `waitpid` has returned `pid`. -/
def reaps (pid : Int) : Event → Bool
  | .reaped p _ => p = pid
  | _ => false

section

variable {S : Kind → Prop} {a b : Life} {i : Nat} {pid : Int}

/-- A record is replaced; in slot `i` the process and the request stay. -/
theorem Life.Manual.put (h : a.Manual i pid) (ht : b.Tracked) {j : Nat} {c : Core}
    (hcore : b.core = (a.put j c).core) (hpid : j = i → c.pid = (a.core j).pid)
    (hmanual : j = i → (a.core j).manualStart = true → c.manualStart = true) :
    b.Manual i pid := by
  refine ⟨ht, h.positive, ?_, ?_⟩ <;> rw [hcore, Life.put_core] <;> split
  · next he => subst he; exact (hpid rfl).trans h.pid
  · exact h.pid
  · next he => subst he; exact hmanual rfl h.manualStart
  · exact h.manualStart

/-- Only the records matter. -/
theorem Life.Manual.frame (h : a.Manual i pid) (ht : b.Tracked) (hcore : b.core = a.core) :
    b.Manual i pid :=
  ⟨ht, h.positive, hcore ▸ h.pid, hcore ▸ h.manualStart⟩

/-- A record without a process is another one. -/
theorem Life.Manual.other (h : a.Manual i pid) {j : Nat} (hidle : (a.core j).pid ≤ 0) : j ≠ i := by
  rintro rfl
  have hpos := h.positive
  have hpid := h.pid
  omega

/-- One step keeps the process and the wish for a manual start, unless it reaps the process. -/
theorem LifeStep.manual (hstep : LifeStep S a b) :
    Latches Life.log (fun _ => True) (Life.Manual i pid) (fun e => reaps pid e)
      (fun _ => False) a b := by
  refine ⟨fun _ => trivial, ?_⟩
  obtain ⟨evs, hevs⟩ := hstep.log_extends
  refine ⟨evs, hevs, fun _ h hrel => ⟨?_, fun _ _ => id⟩⟩
  have ht := hstep.tracked h.tracked
  cases hstep with
  | tick | forkFinish | runCheck | reapOther | signalMain | signalLogger | raiseHup =>
    exact h.frame ht rfl
  | reapLogger j c hc | unmark j c hc | forkLogger j c hc =>
    subst hc
    exact h.put ht rfl (fun _ => rfl) fun _ => id
  | found j c hc =>
    subst hc
    exact h.put (c := { a.core j with present := true, stopping := false }) ht rfl (fun _ => rfl)
      fun _ => id
  | tell j c hc =>
    subst hc
    exact h.put (c := (a.core j).told) ht rfl (fun _ => rfl) fun _ => id
  -- the exit of another main process, because this one has not been reaped
  | reapMain j c hc status t before hbefore hmem hact hlog ht' hmax =>
    subst hc
    have hne : j ≠ i := by
      rintro rfl
      obtain rfl : evs = [.exited j t before, .reaped (a.core j).pid status] :=
        List.append_cancel_right hevs.symm
      exact hrel (.reaped (a.core j).pid status) (by simp) (by simp [reaps, h.pid])
    exact h.put ht rfl (fun he => absurd he hne) fun he => absurd he hne
  | add j c hi hact hnew =>
    -- another slot, since slot `i` has a process
    have hne := h.other ((h.tracked.sound j).inactive hact).1
    exact h.put ht rfl (fun he => absurd he hne) fun he => absurd he hne
  | remove j c hc hpid =>
    subst hc
    have hne := h.other hpid
    exact h.put ht rfl (fun he => absurd he hne) fun he => absurd he hne
  | retry j c hc hS t hdue | startFail j c hc hS p t hdue =>
    subst hc
    have hne := h.other hdue.idle
    exact h.put ht rfl (fun he => absurd he hne) fun he => absurd he hne
  | start j c hc hS p t hdue =>
    subst hc
    have hne := h.other hdue.idle
    exact h.put (c := (a.core j).start p t) ht rfl (fun he => absurd he hne) fun he => absurd he hne
  | command j c hc cmd t =>
    subst hc
    refine h.put (c := (a.core j).command t cmd) ht rfl (fun _ => (a.core j).command_pid t cmd)
      fun _ hmanual => (a.core j).command_manualStart t cmd hmanual

/-- Until the process is reaped. -/
theorem run_manual (w : World) (ops : List Op) :
    Latches Life.log (fun _ => True) (Life.Manual i pid) (fun e => reaps pid e)
      (fun _ => False) w.life (run exec ops w).life :=
  .of_steps (fun _ _ => LifeStep.manual) (Performs.steps ⟨ops, rfl⟩)

end

/-! ## The exit -/

/-- The reaper counts an exit at time `t` and schedules a restart. -/
structure Core.Schedules (c : Core) (t : Int) : Prop where
  notStopping : c.stopping = false
  notOnce : c.once = false
  holds : ¬c.Trips t
  finite : i64 (t + backoffDelay (c.nextRestarts t)) ≠ i64Max

/-- When an exit leaves a record that is not stopping and does not wait for ever. -/
theorem Core.exit_schedules (c : Core) (status t : Int) :
    (c.exit status t).stopping = false ∧ (c.exit status t).restartAt ≠ i64Max ↔ c.Schedules t := by
  -- the branches of `account_exit`, in its order
  cases hstop : c.stopping with
  | true =>
    refine ⟨fun h => absurd (h.1.symm.trans ((c.exit_stopping status t).trans hstop)) (by decide),
      fun h => absurd (h.notStopping.symm.trans hstop) (by decide)⟩
  | false =>
    cases honce : c.once with
    | true =>
      rw [exit_final (by simp [honce])]
      exact ⟨fun h => absurd rfl h.2, fun h => absurd (h.notOnce.symm.trans honce) (by decide)⟩
    | false =>
      by_cases htrips : c.Trips t
      · rw [exit_trips hstop honce status htrips]
        exact ⟨fun h => absurd rfl h.2, fun h => absurd htrips h.holds⟩
      · rw [exit_restarts hstop honce status htrips]
        exact ⟨fun h => ⟨hstop, honce, htrips, h.2⟩, fun h => ⟨hstop, h.finite⟩⟩

/-- The start pass gets past the guard of `start_service` as soon as the time has come. -/
structure ComesBack (s : Service) : Prop where
  notStopping : s.stopping = false
  finite : s.restartAt ≠ i64Max
  due : s.present = true → ∀ t, s.restartAt ≤ t → startDue t s = true

/-- For a service that is wanted, the rest follows from `stopping` and `restart_at`. -/
theorem comesBack_iff {s : Service} (hact : s.active = true) (hpid : s.pid ≤ 0)
    (hwant : s.manualStart = true ∨ s.autoStart = true ∧ s.once = false) :
    ComesBack s ↔ s.stopping = false ∧ s.restartAt ≠ i64Max := by
  refine ⟨fun h => ⟨h.notStopping, h.finite⟩, fun ⟨hstop, hfinite⟩ => ⟨hstop, hfinite, ?_⟩⟩
  intro hpresent t ht
  simp [startDue, hact, hpresent, hstop, hpid, ht, hwant]

/-- After `restart` the process is running and a manual start is pending. -/
theorem request_manual {w : World} {line : Bytes} {i : Nat} (hw : Reachable w)
    (hacc : Accepts w line .restart i) (hpid : 0 < (w.svc i).pid) :
    (exec (.request line) w).life.Manual i (w.svc i).pid := by
  have hnext : Reachable (exec (.request line) w) := hw.performs (.op _ w)
  obtain ⟨t, hcore⟩ := request_core hacc
  exact ⟨hnext.accounted.tracked, hpid, congrArg Core.pid hcore, congrArg Core.manualStart hcore⟩

/-! ## The runs after the exit -/

/-- A further command for service `i`, or another service in its slot. -/
def disturbs (i : Nat) : Event → Bool
  | .accepted _ j | .added j => j = i
  | _ => false

/-- The time of the next attempt to start service `i`, which is `due` before the run. -/
def nextTry (i : Nat) : List Op → World → (due : Int) → Int
  | [], _, due => due
  | op :: ops, w, due =>
    nextTry i ops (exec op w) (if op.PutsOff i w then i64 ((monoNow w.k).1 + 1) else due)

/-- Service `i` has no process and is wanted, and waits for the time `due`. -/
structure Life.Waits (i : Nat) (due : Int) (a : Life) : Prop where
  tracked : a.Tracked
  idle : (a.core i).pid ≤ 0
  notStopping : (a.core i).stopping = false
  manualStart : (a.core i).manualStart = true
  due : (a.core i).restartAt = due

section

variable {S : Kind → Prop} {a b : Life} {i : Nat} {due : Int}

/-- A step that changes the record of slot `j`, but nothing that the service waits on. -/
theorem Life.Waits.put (h : a.Waits i due) (ht : b.Tracked) {j : Nat} {c : Core}
    (hcore : b.core = (a.put j c).core)
    (hkeep : j = i → c.pid = (a.core j).pid ∧ c.stopping = false ∧
      c.manualStart = (a.core j).manualStart ∧ c.restartAt = (a.core j).restartAt) :
    b.Waits i due := by
  -- the record itself keeps what it waits for, the others do not matter
  by_cases he : j = i
  · have hb : b.core i = c := by rw [hcore, Life.put_core, if_pos he.symm]
    obtain ⟨hpid, hstop, hmanual, hat⟩ := hkeep he
    subst he
    exact ⟨ht, by rw [hb, hpid]; exact h.idle, by rw [hb, hstop],
      by rw [hb, hmanual]; exact h.manualStart, by rw [hb, hat]; exact h.due⟩
  · have hb : b.core i = a.core i := by rw [hcore, Life.put_core, if_neg (Ne.symm he)]
    exact ⟨ht, hb ▸ h.idle, hb ▸ h.notStopping, hb ▸ h.manualStart, hb ▸ h.due⟩

/-- A step that changes no record. -/
theorem Life.Waits.frame (h : a.Waits i due) (ht : b.Tracked) (hcore : b.core = a.core) :
    b.Waits i due :=
  ⟨ht, hcore ▸ h.idle, hcore ▸ h.notStopping, hcore ▸ h.manualStart, hcore ▸ h.due⟩

/-- A service whose process is told to stop is another one. -/
theorem Life.Waits.other (h : a.Waits i due) {j : Nat} (hpid : 0 < (a.core j).pid) : j ≠ i := by
  intro he
  subst he
  have hidle := h.idle
  omega

/-- A service whose process is reaped is another one. -/
theorem Life.Waits.other_reaped (h : a.Waits i due) {j : Nat}
    (hmem : ∃ d ∈ a.children, d.pid = (a.core j).pid) : j ≠ i := by
  obtain ⟨d, hd, hdpid⟩ := hmem
  have habove := h.tracked.above d hd
  exact h.other (by omega)

/-- One step, other than the start pass at slot `i`, keeps the service waiting. -/
theorem LifeStep.waits (hS : ¬S (.start i)) (hstep : LifeStep S a b) :
    Latches Life.log (fun _ => True) (Life.Waits i due) (fun e => disturbs i e)
      (fun _ => False) a b := by
  refine ⟨fun _ => trivial, ?_⟩
  obtain ⟨evs, hevs⟩ := hstep.log_extends
  refine ⟨evs, hevs, fun _ h hquiet => ⟨?_, fun _ _ => id⟩⟩
  have ht := hstep.tracked h.tracked
  cases hstep with
  | tick | forkFinish | runCheck | reapOther | signalMain | signalLogger | raiseHup =>
    exact h.frame ht rfl
  | reapLogger j c hc | unmark j c hc | remove j c hc =>
    subst hc
    exact h.put ht rfl fun he => ⟨rfl, he ▸ h.notStopping, rfl, rfl⟩
  | found j c hc =>
    subst hc
    -- a scan clears `stopping`, which is clear already
    exact h.put (c := { a.core j with present := true, stopping := false }) ht rfl
      fun _ => ⟨rfl, rfl, rfl, rfl⟩
  | tell j c hc hpid =>
    subst hc
    exact h.put ht rfl fun he => absurd he (h.other hpid)
  | reapMain j c hc status t before hbefore hmem =>
    subst hc
    exact h.put ht rfl fun he => absurd he (h.other_reaped hmem)
  | add j c hi hact hnew =>
    obtain rfl : evs = [.added j] := List.append_cancel_right hevs.symm
    have hne : j ≠ i := fun he => hquiet _ List.mem_cons_self (by simp [disturbs, he])
    exact h.put ht rfl fun he => absurd he hne
  | command j c hc cmd t =>
    obtain rfl : evs = [.accepted cmd j] := List.append_cancel_right hevs.symm
    have hne : j ≠ i := fun he => hquiet _ List.mem_cons_self (by simp [disturbs, he])
    exact h.put ht rfl fun he => absurd he hne
  | retry j c hc hj | forkLogger j c hc hj | start j c hc hj | startFail j c hc hj =>
    -- only a start pass at slot `j` takes these steps
    have hne : j ≠ i := fun he => hS (he ▸ hj)
    exact h.put ht rfl fun he => absurd he hne

/-- One operation keeps the service waiting until it is started; a start pass may put it off. -/
theorem exec_waits {op : Op} {w : World} (h : w.life.Waits i due)
    (hquiet : ∀ e ∈ logged [op] w, ¬disturbs i e) (hfirst : ¬op.StartsAt i w) :
    (exec op w).life.Waits i (if op.PutsOff i w then i64 ((monoNow w.k).1 + 1) else due) := by
  by_cases hkinds : op.kinds w (.start i)
  · -- the start pass at slot `i`
    cases op with
    | start t j =>
      obtain rfl : i = j := hkinds
      have htracked := (exec_steps (.start t i) w).invariant (fun _ _ => LifeStep.tracked) h.tracked
      by_cases hdue : startDue (min t w.k.clock) (w.svc i) = true
      · have hdeps : depsSatisfied w (w.svc i) = false := by
          cases hdeps : depsSatisfied w (w.svc i) with
          | false => rfl
          | true => exact absurd ⟨rfl, hdue, hdeps⟩ hfirst
        have hoff : (Op.start t i).PutsOff i w := ⟨rfl, hdue, hdeps⟩
        have hexec : exec (.start t i) w = (onSlot i retryLater w).2 := by
          show (startSlot (min t w.k.clock) i w).2 = _
          rw [startSlot, Sup.get_bind, Sup.ite_apply, if_pos hdue, Sup.ite_apply,
            if_pos (by simp [hdeps])]
        have hcore : (exec (.start t i) w).life.core i =
            { (w.svc i).core with restartAt := i64 ((monoNow w.k).1 + 1) } := by
          show ((exec (.start t i) w).svc i).core = _
          rw [hexec, onSlot_svc, if_pos rfl]
          rfl
        rw [if_pos hoff]
        exact ⟨htracked, by rw [hcore]; exact h.idle, by rw [hcore]; exact h.notStopping,
          by rw [hcore]; exact h.manualStart, by rw [hcore]⟩
      · have hexec : exec (.start t i) w = w := by
          show (startSlot (min t w.k.clock) i w).2 = _
          rw [startSlot, Sup.get_bind, Sup.ite_apply, if_neg hdue]
          rfl
        have hoff : ¬(Op.start t i).PutsOff i w := fun hoff => hdue hoff.2.1
        rw [hexec, if_neg hoff]
        exact h
    | _ => cases hkinds
  · have hoff : ¬op.PutsOff i w := by
      intro hoff
      cases op with
      | start t j => exact hkinds hoff.1.symm
      | _ => exact hoff
    rw [if_neg hoff]
    have hlatch := Latches.of_steps (fun _ _ => @LifeStep.waits _ _ _ i due hkinds) (exec_steps op w)
    exact (hlatch.since trivial h hquiet).1

/-- Until the service is started it waits, and `restart_at` is the time of the next attempt. -/
theorem run_waits {w : World} {later : List Op} (h : w.life.Waits i due)
    (hquiet : ∀ e ∈ logged later w, ¬disturbs i e)
    (hfirst : Along exec (fun w op => ¬op.StartsAt i w) later w) :
    (run exec later w).life.Waits i (nextTry i later w due) := by
  -- by induction on the run, with the time of the attempt generalised
  induction later generalizing w due with
  | nil => exact h
  | cons op ops ih =>
    have hsplit : logged (op :: ops) w = logged ops (exec op w) ++ logged [op] w :=
      logged_append [op] ops w
    rw [hsplit] at hquiet
    have hnext := exec_waits h (fun e he => hquiet e (List.mem_append_right _ he)) hfirst.1
    exact ih hnext (fun e he => hquiet e (List.mem_append_left _ he)) hfirst.2

end

/-- The service comes back after the exit that led to `w`: it is not stopping, it does not wait
    for ever, and the start pass at time `t` in the later state `w'` calls `start_service` if
    the time has come and the hard dependencies are running. -/
structure Returns (i : Nat) (w w' : World) (t : Int) : Prop where
  notStopping : (w.svc i).stopping = false
  finite : (w.svc i).restartAt ≠ i64Max
  starts : (w.svc i).restartAt ≤ min t w'.k.clock → depsSatisfied w' (w'.svc i) = true →
    (Op.start t i).StartsAt i w'

instance {c : Core} {t : Int} : Decidable (c.Schedules t) :=
  decidable_of_iff (c.stopping = false ∧ c.once = false ∧ ¬c.Trips t ∧
      i64 (t + backoffDelay (c.nextRestarts t)) ≠ i64Max)
    ⟨fun ⟨h₁, h₂, h₃, h₄⟩ => ⟨h₁, h₂, h₃, h₄⟩,
      fun h => ⟨h.notStopping, h.notOnce, h.holds, h.finite⟩⟩

/-- A start pass at time `t`, after the run `later` from `w`, is not too early: with the hard
    dependencies running, the service is still there, and its next attempt is not put off
    beyond `t`. -/
def InTime (i : Nat) (later : List Op) (w : World) (due t : Int) : Prop :=
  due ≤ min t (run exec later w).k.clock →
    depsSatisfied (run exec later w) ((run exec later w).svc i) = true →
      ((run exec later w).svc i).active = true ∧ ((run exec later w).svc i).present = true ∧
        nextTry i later w due ≤ min t (run exec later w).k.clock

instance (i : Nat) (later : List Op) (w : World) (due t : Int) :
    Decidable (InTime i later w due t) :=
  inferInstanceAs (Decidable (_ → _ → _))

/-- What decides about the start pass, when the service waits. -/
theorem Life.Waits.startDue_iff {i : Nat} {due t : Int} {w : World} (h : w.life.Waits i due) :
    startDue t (w.svc i) = true ↔
      (w.svc i).active = true ∧ (w.svc i).present = true ∧ due ≤ t := by
  have hstop : (w.svc i).stopping = false := h.notStopping
  have hidle : (w.svc i).pid ≤ 0 := h.idle
  have hmanual : (w.svc i).manualStart = true := h.manualStart
  have hat : (w.svc i).restartAt = due := h.due
  simp [startDue, hstop, hidle, hmanual, hat, and_assoc]

/-- After `restart` any operations follow that do not reap the process yet. Then its exit is
    reaped, and after that come any operations in which no command names the service and no
    start pass starts it: the start pass at time `t` is the first that may. -/
theorem restart_iff {w : World} {line : Bytes} {i : Nat} {ops later : List Op} {t : Int}
    (hw : Reachable w) (hacc : Accepts w line .restart i) (hpid : 0 < (w.svc i).pid)
    (hlive : ∀ e ∈ logged ops (exec (.request line) w), ¬reaps (w.svc i).pid e) (status : Int)
    {w₁ w₂ : World} (hw₁ : run exec (.request line :: ops) w = w₁)
    (hw₂ : exec (.reapChild (w.svc i).pid status) w₁ = w₂)
    (hquiet : ∀ e ∈ logged later w₂, ¬disturbs i e)
    (hfirst : Along exec (fun w op => ¬op.StartsAt i w) later w₂) :
    Returns i w₂ (run exec later w₂) t ↔
      (w₁.svc i).core.Schedules (w₁.k.reapTime (w.svc i).pid status) ∧
        InTime i later w₂ (i64 (w₁.k.reapTime (w.svc i).pid status +
          backoffDelay ((w₁.svc i).core.nextRestarts (w₁.k.reapTime (w.svc i).pid status)))) t := by
  obtain ⟨hmanual, -⟩ := (run_manual _ ops).since trivial (request_manual hw hacc hpid) hlive
  rw [← Transition.run_cons, hw₁] at hmanual
  obtain ⟨htracked, -, hpid', hstart⟩ := hmanual
  have hmem : ⟨(w.svc i).pid, .main i⟩ ∈ w₁.k.children :=
    hpid' ▸ htracked.main_mem (i := i) (hpid' ▸ hpid)
  obtain ⟨hcore, -⟩ := reapChild_main htracked hmem status
  have hexit : (w₂.svc i).core =
      (w₁.svc i).core.exit status (w₁.k.reapTime (w.svc i).pid status) := hw₂ ▸ hcore
  have htracked₂ : w₂.life.Tracked := by
    rw [← hw₂]
    exact (exec_steps _ w₁).invariant (fun _ _ => LifeStep.tracked) htracked
  generalize w₁.k.reapTime (w.svc i).pid status = t₁ at hexit ⊢
  have hschedules : (w₂.svc i).stopping = false ∧ (w₂.svc i).restartAt ≠ i64Max ↔
      (w₁.svc i).core.Schedules t₁ := by
    rw [← Core.exit_schedules _ status, ← hexit]
    rfl
  -- once the restart is scheduled, the record waits for the time that the reaper computed
  have hdue : (w₁.svc i).core.Schedules t₁ → (w₂.svc i).restartAt =
        i64 (t₁ + backoffDelay ((w₁.svc i).core.nextRestarts t₁)) := by
    intro h
    rw [Core.exit_restarts h.notStopping h.notOnce status h.holds] at hexit
    exact congrArg Core.restartAt hexit
  have hstarts : (w₁.svc i).core.Schedules t₁ → ((Op.start t i).StartsAt i (run exec later w₂) ↔
      (((run exec later w₂).svc i).active = true ∧ ((run exec later w₂).svc i).present = true ∧
        nextTry i later w₂ (i64 (t₁ + backoffDelay ((w₁.svc i).core.nextRestarts t₁))) ≤
          min t (run exec later w₂).k.clock) ∧
        depsSatisfied (run exec later w₂) ((run exec later w₂).svc i) = true) := by
    intro h
    have hwaits : w₂.life.Waits i
        (i64 (t₁ + backoffDelay ((w₁.svc i).core.nextRestarts t₁))) := by
      refine ⟨htracked₂, ?_, (hschedules.mpr h).1, ?_, hdue h⟩
      · show (w₂.svc i).core.pid ≤ 0
        rw [hexit, Core.exit_pid]
        decide
      · show (w₂.svc i).core.manualStart = true
        rw [hexit, Core.exit_manualStart]
        exact hstart
    rw [← (run_waits hwaits hquiet hfirst).startDue_iff]
    simp [Op.StartsAt, Op.Finds]
  constructor
  · intro h
    have hsched := hschedules.mp ⟨h.notStopping, h.finite⟩
    refine ⟨hsched, fun hcome hdeps => ?_⟩
    exact ((hstarts hsched).mp (h.starts (hdue hsched ▸ hcome) hdeps)).1
  · intro ⟨hsched, htime⟩
    obtain ⟨hstop, hfinite⟩ := hschedules.mpr hsched
    refine ⟨hstop, hfinite, fun hcome hdeps => ?_⟩
    exact (hstarts hsched).mpr ⟨htime (hdue hsched ▸ hcome) hdeps, hdeps⟩

/-- After the first scan `restart b`, and another scan that meets `b`. -/
def restartAsked : World :=
  run exec [.request (bytesOf "restart b"), .scanEntry (bytesOf "b")] chainStarted

/-- The exit of `b` has been reaped. -/
def restartReaped : World := exec (.reapChild 135 15) restartAsked

/-- `a`, which `b` needs, crashes a second later. When `b` is due, `a` is down; then an operator
    starts `a`, and another second passes. -/
def putOff : List Op :=
  [.wait 1 [], .reapChild 126 256, .wait 1 [], .start 2 0, .start 2 1,
    .request (bytesOf "start a"), .start 2 0, .wait 1 []]

/-- A start pass in the same second passes `b` over, although `a` is running again; the next
    one starts it. -/
theorem restart_iff_put_off : ¬Returns 1 restartReaped (run exec putOff restartReaped) 2 ∧
    Returns 1 restartReaped (run exec putOff restartReaped) 3 := by
  have hw : Reachable chainStarted := chainStarted_reachable
  have hacc : Accepts chainStarted (bytesOf "restart b") .restart 1 :=
    ⟨by decide +kernel, by decide +kernel, by decide +kernel⟩
  have hpid : (chainStarted.svc 1).pid = 135 := by decide +kernel
  -- the facts about the concrete run, each evaluated on its own
  have hlive : ∀ e ∈ logged [.scanEntry (bytesOf "b")] (exec (.request (bytesOf "restart b"))
      chainStarted), ¬reaps 135 e := by decide +kernel
  have hw₁ : run exec [.request (bytesOf "restart b"), .scanEntry (bytesOf "b")] chainStarted =
      restartAsked := rfl
  have hw₂ : exec (.reapChild 135 15) restartAsked = restartReaped := rfl
  have hquiet : ∀ e ∈ logged putOff restartReaped, ¬disturbs 1 e := by decide +kernel
  have hfirst : Along exec (fun w op => ¬op.StartsAt 1 w) putOff restartReaped := by decide +kernel
  have hsched : (restartAsked.svc 1).core.Schedules (restartAsked.k.reapTime 135 15) := by
    decide +kernel
  have hdue : i64 (restartAsked.k.reapTime 135 15 + backoffDelay
      ((restartAsked.svc 1).core.nextRestarts (restartAsked.k.reapTime 135 15))) = 2 := by
    decide +kernel
  have hlate : ¬InTime 1 putOff restartReaped 2 2 := by decide +kernel
  have htime : InTime 1 putOff restartReaped 2 3 := by decide +kernel
  -- from here on only these facts are used
  generalize chainStarted = w at hw hacc hpid hlive hw₁
  generalize restartAsked = w₁ at hw₁ hw₂ hsched hdue
  generalize restartReaped = w₂ at hw₂ hquiet hfirst hlate htime ⊢
  rw [← hpid] at hlive hw₂ hsched hdue
  have hlive₁ : 0 < (w.svc 1).pid := by omega
  constructor
  · intro h
    have hboth := (restart_iff hw hacc hlive₁ hlive 15 hw₁ hw₂ hquiet hfirst).mp h
    rw [hdue] at hboth
    exact hlate hboth.2
  · apply (restart_iff hw hacc hlive₁ hlive 15 hw₁ hw₂ hquiet hfirst).mpr
    rw [hdue]
    exact ⟨hsched, htime⟩

/-- `restart`, and the exit of the process. -/
def restartExit : List Pass :=
  [{ listing := some [bytesOf "a"], poll := { control := some (bytesOf "restart a") } },
   { exits := [(116, 15)] }]

/-- The record is stopping and waits for ever: no start pass is going to start it. -/
theorem restart_ignored :
    .accepted .restart 0 ∈ (mainLoop restartExit (bootOn plainFiles)).world.k.log ∧
      .reaped 116 15 ∈ (mainLoop restartExit (bootOn plainFiles)).world.k.log ∧
      ((mainLoop restartExit (bootOn plainFiles)).world.svc 0).active = true ∧
      ((mainLoop restartExit (bootOn plainFiles)).world.svc 0).present = true ∧
      ∀ w' t, ¬Returns 0 (mainLoop restartExit (bootOn plainFiles)).world w' t := by
  refine ⟨by decide +kernel, by decide +kernel, by decide +kernel, by decide +kernel, ?_⟩
  intro w' t h
  have hstop : ((mainLoop restartExit (bootOn plainFiles)).world.svc 0).stopping = true := by
    decide +kernel
  exact absurd (h.notStopping.symm.trans hstop) (by decide)

end SvcRs
