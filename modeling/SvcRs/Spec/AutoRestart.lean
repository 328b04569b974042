import SvcRs.Spec.Restart

/-!
# Automatic restarts

The reaper does not know who set `stopping`. An operator's stop, the stop of a dependent
service and the stop after the death of a logger all end in `restart_at = i64::MAX`, unless
a scan has cleared the flag before the exit is reaped.

## Key results

- `auto_restart_iff`: when a service comes back after an exit
- `dependent_lost`: a service that was stopped because its dependency crashed does not
-/

namespace SvcRs

/-- The service is started and restarted without being asked for. -/
structure AutoRestarted (s : Service) : Prop where
  auto : s.autoStart = true
  notOnce : s.once = false

/-- An exit does not set `once`. -/
theorem Core.exit_once {c : Core} (h : c.once = false) (status t : Int) :
    (c.exit status t).once = false := by
  cases hstop : c.stopping with
  | true => rw [exit_final (by simp [hstop])]
  | false =>
    by_cases htrips : c.Trips t
    · rw [exit_trips hstop h status htrips]
      exact h
    · rw [exit_restarts hstop h status htrips]
      exact h

/-- The exit of a main process whose breaker does not trip. -/
theorem auto_restart_iff {w : World} {i : Nat} {pid status : Int} (hw : Reachable w)
    (hmem : ⟨pid, .main i⟩ ∈ w.k.children) (hauto : AutoRestarted (w.svc i))
    (htrips : ¬(w.svc i).core.Trips (w.k.reapTime pid status)) :
    ComesBack ((exec (.reapChild pid status) w).svc i) ↔ (w.svc i).stopping = false ∧
      i64 (w.k.reapTime pid status +
        backoffDelay ((w.svc i).core.nextRestarts (w.k.reapTime pid status))) ≠ i64Max := by
  obtain ⟨hcore, -⟩ := reapChild_main hw.accounted.tracked hmem status
  have hnext : ((exec (.reapChild pid status) w).svc i).core =
      (w.svc i).core.exit status (w.k.reapTime pid status) := hcore
  generalize exec (.reapChild pid status) w = w' at hnext ⊢
  generalize w.k.reapTime pid status = t at hnext htrips ⊢
  have hact : (w'.svc i).active = true := by
    have hold : (w.svc i).active = true := ((hw.accounted.tracked.main i _).mp hmem).1
    exact (congrArg Core.active hnext).trans ((Core.exit_active _ status t).trans hold)
  have hpid : (w'.svc i).pid = -1 := (congrArg Core.pid hnext).trans (Core.exit_pid _ status t)
  have hwant : (w'.svc i).autoStart = true ∧ (w'.svc i).once = false :=
    ⟨(congrArg Core.autoStart hnext).trans ((Core.exit_autoStart _ status t).trans hauto.auto),
      (congrArg Core.once hnext).trans (Core.exit_once hauto.notOnce status t)⟩
  have hcomes : ComesBack (w'.svc i) ↔ (w.svc i).core.Schedules t := by
    rw [comesBack_iff hact (by rw [hpid]; decide) (.inr hwant), ← Core.exit_schedules _ status]
    show (w'.svc i).core.stopping = false ∧ (w'.svc i).core.restartAt ≠ i64Max ↔ _
    rw [hnext]
  rw [hcomes]
  -- `once` and the breaker are excluded, which leaves the flag and the clock
  constructor
  · intro h
    exact ⟨h.notStopping, h.finite⟩
  · intro h
    exact ⟨h.1, hauto.notOnce, htrips, h.2⟩

/-- A service that crashes on its own. -/
theorem auto_restart_crash : ComesBack ((exec (.reapChild 116 256) plainStarted).svc 0) ↔
    (plainStarted.svc 0).stopping = false ∧
      i64 (plainStarted.k.reapTime 116 256 + backoffDelay
        ((plainStarted.svc 0).core.nextRestarts (plainStarted.k.reapTime 116 256))) ≠ i64Max := by
  apply auto_restart_iff plainStarted_reachable
  · decide +kernel
  · exact ⟨by decide +kernel, by decide +kernel⟩
  · decide +kernel

/-- The exit of `a`, the exit of `b` that this causes, and the restart of `a`. -/
def crashPasses : List Pass :=
  [{ listing := some [bytesOf "a", bytesOf "b"], elapsed := 1 },
   { exits := [(126, 256)], elapsed := 1 }, { exits := [(135, 15)], elapsed := 5 }, {}]

/-- A command was accepted. -/
def Event.isAccepted : Event → Bool
  | .accepted .. => true
  | _ => false

/-- Nobody has asked for anything, `b` was neither `once` nor near the breaker, and its
    dependency is running again, but `b` waits for ever. -/
theorem dependent_lost :
    let before := (mainLoop (crashPasses.take 2) (bootOn chainFiles)).world
    let after := (mainLoop crashPasses (bootOn chainFiles)).world
    (∀ e ∈ after.k.log, e.isAccepted = false) ∧ .reaped 135 15 ∈ after.k.log ∧
      AutoRestarted (before.svc 1) ∧ (before.svc 1).pid = 135 ∧ (before.svc 1).restarts = 0 ∧
      (before.svc 1).active = true ∧ (before.svc 1).present = true ∧
      depsSatisfied after (after.svc 1) = true ∧ (after.svc 1).restarts = 0 ∧
      (after.svc 1).state = .signaled ∧ (after.svc 1).restartAt = i64Max := by
  intro before after
  refine ⟨?_, ?_, ⟨?_, ?_⟩, ?_, ?_, ?_, ?_, ?_, ?_, ?_, ?_⟩ <;> decide +kernel

end SvcRs
