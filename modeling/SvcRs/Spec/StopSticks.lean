import SvcRs.Spec.Commands
import SvcRs.Spec.Processes

/-!
# An operator's stop

A service that was stopped stays down until a command releases it, as long as no scan
meets its directory while the stop is remembered in `stopping` alone: the scan clears
that flag.

## Key results

- `LifeStep.stopped`: one step of the life cycle keeps a stopped service stopped
- `stop_sticks`: no run starts the service before it is released
- `stop_forgotten`: a scan between `stop` and the exit brings the service back
-/

namespace SvcRs

open Transition (run Along Latches since)

/-! ## Records that nothing starts -/

namespace Core

/-- Nothing starts the service, even if `stopping` is cleared: it waits for ever, or its
    exit will make it wait for ever, or it is not wanted. -/
def Latched (c : Core) : Prop :=
  c.pid ≤ 0 ∧ c.restartAt = i64Max ∨ 0 < c.pid ∧ c.once = true ∨
    c.manualStart = false ∧ (c.autoStart = false ∨ c.once = true)

/-- Nothing starts the service while `stopping` is left alone. -/
def Held (c : Core) : Prop := c.stopping = true ∨ c.Latched

instance (c : Core) : Decidable c.Latched := inferInstanceAs (Decidable (_ ∨ _))

variable {c : Core} {t : Int}

/-- A service that is held is not started. -/
theorem Held.not_due (h : c.Held) (ht : t < i64Max) : ¬c.Due t := by
  intro hdue
  have hidle := hdue.idle
  have helapsed := hdue.elapsed
  rcases h with hstop | ⟨-, hnever⟩ | ⟨hpid, -⟩ | ⟨hmanual, hauto⟩
  · exact absurd (hdue.notStopping.symm.trans hstop) (by decide)
  · omega
  · omega
  · rcases hdue.wanted with hwant | hwant
    · simp [hmanual] at hwant
    · rcases hauto with hauto | hauto <;> simp [hauto] at hwant

/-- The exit of a stopped service: it waits for ever. -/
theorem Held.exit (h : c.Held) (hpid : 0 < c.pid) (status : Int) : (c.exit status t).Latched := by
  by_cases hstop : (c.stopping || c.once) = true
  · rw [exit_final hstop]
    exact .inl ⟨by simp, rfl⟩
  · simp only [Bool.or_eq_true, not_or, Bool.not_eq_true] at hstop
    rcases h with hs | ⟨hno, -⟩ | ⟨-, honce⟩ | ⟨hmanual, hauto | honce⟩
    · simp [hstop.1] at hs
    · omega
    · simp [hstop.2] at honce
    · exact .inr (.inr ⟨by simpa using hmanual, .inl (by simpa using hauto)⟩)
    · simp [hstop.2] at honce

/-- `stop`, `down` and `once` start nothing either. -/
theorem Latched.command (h : c.Latched) {cmd : SvcCmd}
    (hcmd : cmd = .stop ∨ cmd = .down ∨ cmd = .once) : (c.command t cmd).Latched := by
  -- none of the three undoes what latched the service
  rcases hcmd with rfl | rfl | rfl
  · exact h
  -- `down` also clears `auto_start`
  · by_cases hpid : 0 < c.pid
    · simp only [Core.command, if_pos hpid]
      rcases h with h | h | ⟨hmanual, -⟩
      · exact .inl h
      · exact .inr (.inl h)
      · exact .inr (.inr ⟨hmanual, .inl rfl⟩)
    · simp only [Core.command, if_neg hpid]
      rcases h with h | h | ⟨hmanual, -⟩
      · exact .inl h
      · exact .inr (.inl h)
      · exact .inr (.inr ⟨hmanual, .inl rfl⟩)
  · rcases h with h | ⟨hpid, -⟩ | ⟨hmanual, -⟩
    · exact .inl h
    · exact .inr (.inl ⟨hpid, rfl⟩)
    · exact .inr (.inr ⟨hmanual, .inr rfl⟩)

/-- Stopping it again holds it. -/
theorem Held.command (h : c.Held) {cmd : SvcCmd}
    (hcmd : cmd = .stop ∨ cmd = .down ∨ cmd = .once) : (c.command t cmd).Held := by
  rcases h with hstop | h
  · refine .inl ?_
    rcases hcmd with rfl | rfl | rfl
    · rfl
    · by_cases hpid : 0 < c.pid
      · simp only [Core.command, if_pos hpid, told]
      · simp only [Core.command, if_neg hpid, hstop]
    · exact hstop
  · exact .inr (h.command hcmd)

end Core

/-! ## One step -/

/-- What releases a stopped service: `start`, `restart` or `up`, or the removal of its record. -/
def releases (i : Nat) : Event → Bool
  | .accepted cmd j => j = i && (cmd = .start || cmd = .restart || cmd = .up)
  | .removed j => j = i
  | _ => false

/-- The service in slot `i` is stopped, also for the scans that `S` allows. -/
structure Life.Stopped (S : Kind → Prop) (i : Nat) (a : Life) : Prop where
  tracked : a.Tracked
  active : (a.core i).active = true
  held : (a.core i).Held
  scans : S (.found i) → (a.core i).Latched

section

variable {S : Kind → Prop} {a b : Life} {i : Nat}

/-- A step that changes the record of slot `j`. -/
theorem Life.Stopped.put (h : a.Stopped S i) (ht : b.Tracked) {j : Nat} {c : Core}
    (hcore : b.core = (a.put j c).core) (hact : c.active = (a.core j).active)
    (hheld : j = i → (a.core j).Held → c.Held)
    (hscans : j = i → (a.core j).Latched → c.Latched) : b.Stopped S i := by
  refine ⟨ht, ?_, ?_, fun hS => ?_⟩ <;> rw [hcore, Life.put_core] <;> split
  · next he => subst he; exact hact.trans h.active
  · exact h.active
  · next he => subst he; exact hheld rfl h.held
  · exact h.held
  · next he => subst he; exact hscans rfl (h.scans hS)
  · exact h.scans hS

/-- A step that changes nothing the stop depends on. -/
theorem Life.Stopped.frame (h : a.Stopped S i) (ht : b.Tracked) (hcore : b.core = a.core) :
    b.Stopped S i :=
  ⟨ht, hcore ▸ h.active, hcore ▸ h.held, hcore ▸ h.scans⟩

/-- A stopped service is not due. -/
theorem Life.Stopped.other (h : a.Stopped S i) (hclock : a.clock < i64Max) {j : Nat}
    (hdue : (a.core j).Due a.clock) : j ≠ i := by
  rintro rfl
  exact h.held.not_due hclock hdue

/-- One step keeps a stopped service stopped until it is released. -/
theorem LifeStep.stopped (hstep : LifeStep S a b) :
    Latches Life.log (fun a => a.clock < i64Max) (Life.Stopped S i) (fun e => releases i e)
      (Starts i) a b := by
  have hle := hstep.clock_le
  have htracked := fun h : a.Stopped S i => hstep.tracked h.tracked
  refine ⟨fun hb => Int.lt_of_le_of_lt hle hb, ?_⟩
  cases hstep with
  | tick t ht => exact ⟨[], rfl, fun _ h _ => ⟨h.frame (htracked h) rfl, by simp⟩⟩
  | forkFinish | runCheck | reapOther | signalMain | signalLogger | raiseHup =>
    first
      | exact ⟨[_], rfl, fun _ h _ => ⟨h.frame (htracked h) rfl, by simp [Starts]⟩⟩
      | exact ⟨[_, _], rfl, fun _ h _ => ⟨h.frame (htracked h) rfl, by simp [Starts]⟩⟩
  | reapLogger j c hc status hmem hact =>
    subst hc
    exact ⟨[_], rfl, fun _ h _ => ⟨h.put (htracked h) rfl rfl (fun _ => id) fun _ => id,
      by simp [Starts]⟩⟩
  | reapMain j c hc status t before hbefore hmem hact hlog ht hmax =>
    subst hc
    refine ⟨[_, _], rfl, fun _ h _ => ⟨?_, by simp [Starts]⟩⟩
    have hpid : 0 < (a.core j).pid := by
      obtain ⟨d, hd, he⟩ := hmem
      have := h.tracked.above d hd
      omega
    exact h.put (htracked h) rfl (by simp) (fun _ hh => .inr (hh.exit hpid status))
      fun _ hl => Core.Held.exit (.inr hl) hpid status
  | tell j c hc hpid =>
    subst hc
    exact ⟨[_], rfl, fun _ h _ => ⟨h.put (c := (a.core j).told) (htracked h) rfl rfl
      (fun _ _ => .inl rfl) fun _ => id, by simp [Starts]⟩⟩
  | unmark j c hc =>
    subst hc
    exact ⟨[], rfl, fun _ h _ => ⟨h.put (htracked h) rfl rfl (fun _ => id) fun _ => id, by simp⟩⟩
  | found j c hc hS =>
    subst hc
    refine ⟨[_], rfl, fun _ h _ => ⟨?_, by simp [Starts]⟩⟩
    -- the flag is cleared, so the service has to be latched
    exact h.put (c := { a.core j with present := true, stopping := false }) (htracked h) rfl rfl
      (fun hj _ => .inr (hj ▸ h.scans (hj ▸ hS))) fun _ => id
  | add j c hi hact hnew =>
    refine ⟨[_], rfl, fun _ h _ => ⟨?_, by simp [Starts]⟩⟩
    have hne : i ≠ j := by
      rintro rfl
      exact absurd (h.active.symm.trans hact) (by decide)
    refine ⟨htracked h, ?_, ?_, fun hS => ?_⟩ <;> rw [Life.put_core, if_neg hne]
    · exact h.active
    · exact h.held
    · exact h.scans hS
  | remove j c hc hpid hlog =>
    subst hc
    refine ⟨[_], rfl, fun _ h hrel => ⟨?_, by simp [Starts]⟩⟩
    have hne : i ≠ j := fun he => hrel _ List.mem_cons_self (by simp [releases, he])
    refine ⟨htracked h, ?_, ?_, fun hS => ?_⟩ <;> rw [Life.put_core, if_neg hne]
    · exact h.active
    · exact h.held
    · exact h.scans hS
  | retry j c hc hS t hdue ht =>
    subst hc
    refine ⟨[], rfl, fun hb h _ => ⟨?_, by simp⟩⟩
    have hne := h.other (Int.lt_of_le_of_lt hle hb) hdue
    exact h.put (htracked h) rfl rfl (fun he => absurd he hne) fun he => absurd he hne
  | forkLogger j c hc hS pid hdue hpid =>
    subst hc
    exact ⟨[_], rfl, fun _ h _ => ⟨h.put (htracked h) rfl rfl (fun _ => id) fun _ => id,
      by simp [Starts]⟩⟩
  | start j c hc hS pid t hdue hpid ht =>
    subst hc
    refine ⟨[_, _], rfl, fun hb h _ => ?_⟩
    have hne := h.other (Int.lt_of_le_of_lt hle hb) hdue
    refine ⟨h.put (c := (a.core j).start pid t) (htracked h) rfl rfl (fun he => absurd he hne)
      fun he => absurd he hne, ?_⟩
    simp [Starts, hne]
  | startFail j c hc hS pid t hdue hpid ht =>
    subst hc
    refine ⟨[], rfl, fun hb h _ => ⟨?_, by simp⟩⟩
    have hne := h.other (Int.lt_of_le_of_lt hle hb) hdue
    exact h.put (htracked h) rfl rfl (fun he => absurd he hne) fun he => absurd he hne
  | command j c hc cmd t ht =>
    subst hc
    refine ⟨[_], rfl, fun _ h hrel => ⟨?_, by simp [Starts]⟩⟩
    have hcmd : j = i → cmd = .stop ∨ cmd = .down ∨ cmd = .once := by
      intro hj
      have := hrel _ List.mem_cons_self
      cases cmd <;> simp [releases, hj] at this ⊢
    exact h.put (htracked h) rfl ((a.core j).command_active t cmd) (fun hj hh => hh.command (hcmd hj))
      fun hj hl => hl.command (hcmd hj)

end

/-! ## Runs -/

/-- If the operation is a scan that meets the directory of slot `i`, the service is latched. -/
def ScanKeepsStop (i : Nat) (w : World) (op : Op) : Prop :=
  op.kinds w (.found i) → (w.svc i).core.Latched

/-- The command leaves the service held. `down` forgets a pending `manual_start`. -/
def StopHolds (s : Service) (cmd : SvcCmd) : Prop :=
  cmd = .down → 0 < s.pid ∨ s.stopping = true ∨ s.restartAt = i64Max ∨ s.manualStart = false

/-- One operation keeps a stopped service stopped. -/
theorem exec_stopped {w : World} {op : Op} {i : Nat} (hscan : ScanKeepsStop i w op) :
    Latches Life.log (fun a => a.clock < i64Max) (Life.Stopped (fun _ => False) i)
      (fun e => releases i e) (Starts i) w.life (exec op w).life := by
  have h := Latches.of_steps (fun _ _ => LifeStep.stopped (i := i)) (exec_steps op w)
  obtain ⟨hback, evs, hevs, hL⟩ := h
  refine ⟨hback, evs, hevs, fun hG hL' hrel => ?_⟩
  obtain ⟨hb, hgood⟩ := hL hG ⟨hL'.tracked, hL'.active, hL'.held, hscan⟩ hrel
  exact ⟨⟨hb.tracked, hb.active, hb.held, False.elim⟩, hgood⟩

/-- A run keeps a stopped service stopped. -/
theorem run_stopped {w : World} {ops : List Op} {i : Nat} (h : Along exec (ScanKeepsStop i) ops w) :
    Latches Life.log (fun a => a.clock < i64Max) (Life.Stopped (fun _ => False) i)
      (fun e => releases i e) (Starts i) w.life (run exec ops w).life := by
  induction ops generalizing w with
  | nil => exact .refl _
  | cons op ops ih => exact (exec_stopped h.1).trans (ih h.2)

/-- After the answer the service is stopped. -/
theorem request_stopped {w : World} {line : Bytes} {cmd : SvcCmd} {i : Nat} (hw : Reachable w)
    (hacc : Accepts w line cmd i) (hcmd : cmd = .stop ∨ cmd = .down)
    (hholds : StopHolds (w.svc i) cmd) :
    (exec (.request line) w).life.Stopped (fun _ => False) i := by
  have hnext : Reachable (exec (.request line) w) := hw.performs (.op _ w)
  obtain ⟨t, hcore⟩ := request_core hacc
  have hbefore := (beforeCmd_tells cmd w).core i
  have hactive : ((beforeCmd cmd w).svc i).core.active = true := by
    rcases hbefore with he | ⟨-, -, he⟩ <;> rw [he] <;> exact hacc.active
  refine ⟨hnext.accounted.tracked, ?_, ?_, False.elim⟩
  · exact (congrArg Core.active hcore).trans ((Core.command_active _ t cmd).trans hactive)
  · refine Eq.mpr (congrArg Core.Held hcore) ?_
    rcases hcmd with rfl | rfl
    · exact .inl rfl
    · -- `down` does not look at the dependents first
      by_cases hpid : 0 < (w.svc i).pid
      · exact .inl (congrArg Core.stopping (if_pos hpid))
      · have hdown : (w.svc i).core.command t .down = { (w.svc i).core with autoStart := false } :=
          if_neg hpid
        rw [show beforeCmd .down w = w from rfl, hdown]
        rcases hholds rfl with h | h | h | h
        · exact absurd h hpid
        · exact .inl h
        · exact .inr (.inl ⟨Int.not_lt.mp hpid, h⟩)
        · exact .inr (.inr (.inr ⟨h, .inl rfl⟩))

/-- After an accepted `stop` or `down` that holds, no main process of the service is forked in a
    later run whose scans keep the stop, unless an event releases the service. -/
theorem stop_sticks {w : World} {line : Bytes} {cmd : SvcCmd} {i : Nat} {ops : List Op}
    (hw : Reachable w) (hacc : Accepts w line cmd i) (hcmd : cmd = .stop ∨ cmd = .down)
    (hholds : StopHolds (w.svc i) cmd)
    (hscan : Along exec (ScanKeepsStop i) ops (exec (.request line) w))
    (hclock : (run exec (.request line :: ops) w).k.clock < i64Max)
    (hrel : ∀ e ∈ logged ops (exec (.request line) w), ¬releases i e) (pid : Int) :
    .fork (.main i) pid ∉ logged ops (exec (.request line) w) := by
  intro hmem
  have hstop := request_stopped hw hacc hcmd hholds
  obtain ⟨-, hno⟩ := (run_stopped hscan).since hclock hstop hrel
  exact hno _ hmem ⟨pid, rfl⟩

/-- The exit is reaped before the next scan. -/
theorem stop_sticks_after_exit : .fork (.main 0) 120 ∉
    logged [.reapChild 116 15, .scanEntry (bytesOf "a"), .start 5 0]
      (exec (.request (bytesOf "stop a")) plainStarted) := by
  have hacc : Accepts plainStarted (bytesOf "stop a") .stop 0 :=
    ⟨by decide +kernel, by decide +kernel, by decide +kernel⟩
  have hscan : Along exec (ScanKeepsStop 0)
      [.reapChild 116 15, .scanEntry (bytesOf "a"), .start 5 0]
      (exec (.request (bytesOf "stop a")) plainStarted) :=
    ⟨False.elim, fun _ => by decide +kernel, False.elim, trivial⟩
  exact stop_sticks plainStarted_reachable hacc (.inl rfl) nofun hscan
    (by decide +kernel) (by decide +kernel) 120

/-- `stop`, then a scan, then the exit: the start pass brings the service back. -/
def stopRescan : List Pass :=
  [{ listing := some [bytesOf "a"], elapsed := 1, poll := { control := some (bytesOf "stop a") } },
   { elapsed := 14 }, { listing := some [bytesOf "a"] }, { exits := [(116, 15)], elapsed := 5 }, {}]

/-- The log since the answer has a start and nothing that asked for it. -/
theorem stop_forgotten : ∃ late early,
    (mainLoop stopRescan (bootOn plainFiles)).world.k.log = late ++ .accepted .stop 0 :: early ∧
      (∃ pid, .fork (.main 0) pid ∈ late) ∧ ∀ e ∈ late, ¬releases 0 e := by
  have hanswer : (mainLoop stopRescan (bootOn plainFiles)).world.k.log[6]? =
      some (.accepted .stop 0) := by decide +kernel
  obtain ⟨hlen, he⟩ := List.getElem?_eq_some_iff.mp hanswer
  have hsplit : (mainLoop stopRescan (bootOn plainFiles)).world.k.log =
      (mainLoop stopRescan (bootOn plainFiles)).world.k.log.take 6 ++ .accepted .stop 0 ::
        (mainLoop stopRescan (bootOn plainFiles)).world.k.log.drop 7 := by
    rw [← he, List.getElem_cons_drop hlen, List.take_append_drop]
  exact ⟨_, _, hsplit, ⟨138, by decide +kernel⟩, by decide +kernel⟩

end SvcRs
