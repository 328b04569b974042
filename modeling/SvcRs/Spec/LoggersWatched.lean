import SvcRs.Spec.Polling
import SvcRs.Spec.Startup
import SvcRs.Spec.Updates

/-!
# A running service has its logger

The main process of a service with a `log` directory writes into a pipe that only its logger
reads. `reap_children` stops such a service if its logger has exited, and no other function lets
one run without a logger, so outside of `reap_children` none does.

## Key results

- `Update.guarded`: no update takes the logger away from a running service
- `finishReap_guarded`: after `kill_main_on_log_death` no service runs without its logger
- `loggers_watched`: every service that `poll` finds running has a live logger
-/

namespace SvcRs

/-- A service that runs has its logger, if there is to be one. -/
def Service.Guarded (s : Service) : Prop :=
  s.active = true → s.hasLog = true → s.state = .running → 0 < s.logPid

/-- Every record in the table. -/
def Guarded (w : World) : Prop := ∀ i, (w.svc i).Guarded

/-! ## One record at a time -/

section

variable {s s' : Service}

/-- Only a running service is asked about. -/
theorem Service.guarded_of_state (h : s.state ≠ .running) : s.Guarded :=
  fun _ _ hrun => absurd hrun h

/-- It depends on the life cycle and on whether there is a logger at all. -/
theorem Service.Guarded.of_core (hs : s.Guarded) (hcore : s'.core = s.core)
    (hlog : s'.hasLog = s.hasLog) : s'.Guarded := by
  intro hact hhas hrun
  have hpid : s'.logPid = s.logPid := congrArg Core.logPid hcore
  rw [hpid]
  exact hs ((congrArg Core.active hcore).symm.trans hact) (hlog.symm.trans hhas)
    ((congrArg Core.state hcore).symm.trans hrun)

/-- A service that has been told to stop is not running. -/
theorem signalStopStatus_guarded (k : Kernel) : (signalStopStatus s k).1.Guarded :=
  Service.guarded_of_state (show SvcState.stopping ≠ .running by decide)

/-- The stop at the shutdown. -/
theorem stopOrdered_guarded (hs : s.Guarded) (k : Kernel) : (stopOrdered s k).1.Guarded := by
  have hlogger : ∀ (s : Service) k, s.Guarded →
      ((if s.logPid > 0 && !s.logStopping then signalLogger s else pure s) k).1.Guarded := by
    intro s k hs
    split
    · exact hs
    · exact hs
  unfold stopOrdered
  split
  · exact hlogger _ _ (signalStopStatus_guarded k)
  · exact hlogger s k hs

/-- The stop of a service that had no place in the order. -/
theorem stopRemaining_guarded (hs : s.Guarded) (k : Kernel) : (stopRemaining s k).1.Guarded := by
  have hlogger : ∀ (s : Service) k, s.Guarded → ((if s.active && s.logPid > 0 && !s.logStopping
      then signalLogger s else pure s) k).1.Guarded := by
    intro s k hs
    split
    · exact hs
    · exact hs
  unfold stopRemaining
  split
  · exact hlogger _ _ (signalStopStatus_guarded k)
  · exact hlogger s k hs

/-- A known directory. -/
theorem foundService_guarded (i : Nat) (hs : s.Guarded) (k : Kernel) :
    (foundService i s k).1.Guarded := by
  have hguarded : ({ s with present := true, stopping := false } : Service).Guarded := hs
  exact hguarded.of_core (foundService_core i s k) (foundService_hasLog i s k)

/-- A new record is down. -/
theorem newService_guarded (i : Nat) (name : Bytes) (dir : CStrBuf) (k : Kernel) :
    (newService i name dir k).1.Guarded := by
  have hnew : (newService i name dir k).1.core.New := (buildService_built name dir k).new
  have hstate : (newService i name dir k).1.state = .down := hnew.state
  exact Service.guarded_of_state (by simp [hstate])

/-- A record that is given up, or kept. -/
theorem releaseMissing_guarded (i : Nat) (hs : s.Guarded) (k : Kernel) :
    (releaseMissing i s k).1.Guarded := by
  have hslot : ∀ (s : Service) k, s.Guarded →
      ((if s.pid ≤ 0 && s.logPid ≤ 0 then releaseSlot i s else pure s) k).1.Guarded := by
    intro s k hs
    split
    · exact Service.guarded_of_state (show SvcState.down ≠ .running by decide)
    · exact hs
  unfold releaseMissing
  split
  · exact hslot _ _ hs
  · exact hslot s k hs

/-- A start runs a service only after its logger. -/
theorem startService_guarded {t : Int} (i : Nat) (hdue : startDue t s = true) (k : Kernel) :
    (startService i s k).1.Guarded :=
  fun _ hhas _ => (startService_logger hdue k).2 hhas

/-- No command makes a service run. -/
theorem command_running {c : Core} {t : Int} {cmd : SvcCmd}
    (h : (c.command t cmd).state = .running) : c.state = .running := by
  cases cmd with
  | start | up | once => exact h
  | stop | restart => cases h
  | down =>
    simp only [Core.command] at h
    split at h
    · cases h
    · exact h

/-- A command for the service. -/
theorem acceptCmd_guarded (cmd : SvcCmd) (i : Nat) (hs : s.Guarded) (k : Kernel) :
    (acceptCmd cmd i s k).1.Guarded := by
  have hcore := acceptCmd_core cmd i s k
  have hsame := acceptCmd_sameFds cmd i s k
  intro hact hhas hrun
  -- no command makes a service RUNNING
  have hrun' : s.state = .running :=
    command_running ((congrArg Core.state hcore).symm.trans hrun)
  -- nor does any touch the logger's pid
  have hpid : (acceptCmd cmd i s k).1.logPid = s.logPid := by
    obtain ⟨_, _, _, _, _, _, he⟩ :=
      s.core.command_frame (upReading s (emit (.accepted cmd i) k).2) cmd
    exact congrArg Core.logPid (hcore.trans he)
  rw [hpid]
  exact hs (hsame.active.symm.trans hact) (hsame.hasLog.symm.trans hhas) hrun'

/-- Reading the output of the service. -/
theorem drainStream_guarded (err : Bool) (reads : List ReadResult) (hs : s.Guarded) (k : Kernel) :
    (drainStream err reads s k).1.Guarded := by
  obtain ⟨st, -, hrecord⟩ := drainStream_streamOnly err reads s k
  rw [hrecord]
  cases err <;> exact hs

end

/-! ## The table -/

section

variable {w w' : World}

/-- A function on one record. -/
theorem Guarded.onSlot (h : Guarded w) {i : Nat} {f : Service → Sys Service}
    (hf : (f (w.svc i) w.k).1.Guarded) : Guarded (onSlot i f w).2 := by
  intro j
  rw [onSlot_svc]
  split
  · exact hf
  · exact h j

/-- One update of the table. -/
theorem Update.guarded (hupdate : Update w w') (h : Guarded w) : Guarded w' := by
  cases hupdate with
  | calls k hk => exact h
  | stopStatus i hpid => exact h.onSlot (signalStopStatus_guarded w.k)
  | stop i hpid => exact h.onSlot (signalStopStatus_guarded w.k)
  | stopOrdered i => exact h.onSlot (stopOrdered_guarded (h i) w.k)
  | stopRemaining i => exact h.onSlot (stopRemaining_guarded (h i) w.k)
  | unmark i hact => exact h.onSlot (h i)
  | found i hact => exact h.onSlot (foundService_guarded i (h i) w.k)
  | add i name dir hi hact => exact h.onSlot (newService_guarded i name dir w.k)
  | release i => exact h.onSlot (releaseMissing_guarded i (h i) w.k)
  | retry t i hdue => exact h.onSlot (h i)
  | start t i hdue hdeps => exact h.onSlot (startService_guarded i hdue w.k)
  | command cmd i hact => exact h.onSlot (acceptCmd_guarded cmd i (h i) w.k)
  | drain i err reads hact => exact h.onSlot (drainStream_guarded err reads (h i) w.k)

/-- Any number of them. -/
theorem Updates.guarded (hupdates : Updates w w') (h : Guarded w) : Guarded w' := by
  induction hupdates with
  | refl => exact h
  | tail _ hlast ih => exact hlast.guarded ih

/-- `kill_main_on_log_death` has still to look at the slots `is`. -/
theorem killLoop_guarded {is : List Nat}
    (h : ∀ i, (w.svc i).Guarded ∨ i ∈ is ∧ (w.svc i).core.Sound) :
    Guarded (forSlots killOnLogDeath is w).2 := by
  induction is generalizing w with
  | nil => exact fun i => (h i).resolve_right fun hmem => nomatch hmem.1
  | cons j is ih =>
    show Guarded (forSlots killOnLogDeath is (killOnLogDeath j w).2).2
    apply ih
    intro i
    by_cases hij : i = j
    · subst hij
      refine .inl ?_
      unfold killOnLogDeath
      rw [Sup.get_bind, Sup.ite_apply]
      split
      · rw [onSlot_svc, if_pos rfl]
        exact signalStopStatus_guarded w.k
      · next hkept =>
        show (w.svc i).Guarded
        rcases h i with hguarded | ⟨-, hsound⟩
        · exact hguarded
        intro hact hhas hrun
        -- a sound record that runs has a process and is not stopping
        obtain ⟨hpid, hstop⟩ := hsound.running hrun
        have hpid' : (w.svc i).pid > 0 := hpid
        have hstop' : (w.svc i).stopping = false := hstop
        simp only [lostLogger, hact, hhas, hrun, hpid', hstop', Bool.not_false, Bool.and_true,
          Bool.true_and, decide_true, decide_eq_true_eq] at hkept
        omega
    · have hother : (killOnLogDeath j w).2.svc i = w.svc i := by
        unfold killOnLogDeath
        rw [Sup.get_bind, Sup.ite_apply]
        split
        · exact if_neg hij
        · rfl
      rw [hother]
      refine (h i).imp_right fun hmem => ⟨?_, hmem.2⟩
      exact (List.mem_cons.mp hmem.1).resolve_left hij

/-- After the children are reaped, services without their logger are stopped. -/
theorem finishReap_guarded (ht : w.life.Tracked) (need : Bool) :
    Guarded (finishReap need w).2 := by
  have hkill : ∀ w : World, w.life.Tracked → Guarded (killMainOnLogDeath w).2 := by
    intro w ht
    apply killLoop_guarded
    intro i
    cases hact : (w.svc i).active with
    | true => exact .inr ⟨List.mem_range.mpr (ht.inTable i hact), ht.sound i⟩
    | false => exact .inl fun hactive => absurd (hact.symm.trans hactive) (by decide)
  cases need with
  | false => exact hkill w ht
  | true => exact hkill _ ((stopTransitiveDeps_follows.steps (S := anyKind) w).tracked ht)

/-- The exits in between do not matter. -/
theorem reapChildren_guarded (ht : w.life.Tracked) (exits : List (Int × Int)) :
    Guarded (reapChildren exits w).2 :=
  finishReap_guarded (reapLoop_tracked exits false ht) _

end

/-! ## The main loop -/

/-- The service in slot `i` is stopping, or its logger is a child that has not been reaped. -/
def Watched (w : World) (i : Nat) : Prop :=
  (w.svc i).state = .stopping ∨
    0 < (w.svc i).logPid ∧ ⟨(w.svc i).logPid, .logger i⟩ ∈ w.k.children

/-- The logger of a service with a process is there, or the service is being stopped. -/
theorem Guarded.watched {w : World} (h : Guarded w) (ht : w.life.Tracked) {i : Nat}
    (hhas : (w.svc i).hasLog = true) (hpid : 0 < (w.svc i).pid) : Watched w i := by
  have hact : (w.svc i).active = true := (ht.sound i).active_of_pid hpid
  cases (ht.sound i).alive hpid with
  | inl hrun =>
    have hlogger := h i hact hhas hrun
    exact .inr ⟨hlogger, ht.logger i hlogger⟩
  | inr hstop => exact .inl hstop

/-- Main processes whose output goes to a logger have one, or have been told to stop. -/
def LoggersWatched (w : World) : Prop :=
  ∀ i, (w.svc i).hasLog = true → 0 < (w.svc i).pid → Watched w i

/-- In every turn of the main loop, every main process whose output goes to a logger has a live
    logger, or it has been told to stop; when `poll` is called, and when the turn is over. -/
theorem loggers_watched (root : CStrBuf) (oracle : Nat → Answer) (fds : List Int)
    (ps : List Pass) (p : Pass) :
    let m := mainLoop ps (boot root oracle fds)
    LoggersWatched (loopTop p m).world ∧ LoggersWatched (mainPass p m).world := by
  intro m
  have hm : Reachable m.world := ⟨root, oracle, fds, mainLoop_performs ps _⟩
  -- the exits of a turn end with the loggers being looked at
  have hreap : Guarded (reapChildren p.exits m.world).2 :=
    reapChildren_guarded hm.accounted.tracked p.exits
  have htop : Guarded (loopTop p m).world := (loopTop_updates p m).guarded hreap
  have hpass : Guarded (mainPass p m).world := (mainPass_updates p m).guarded htop
  have htracked : ∀ {w}, Performs m.world w → w.life.Tracked := fun h =>
    (hm.performs h).accounted.tracked
  constructor
  · exact fun i => htop.watched (htracked (loopTop_performs p m))
  · exact fun i => hpass.watched (htracked (mainPass_performs p m))

end SvcRs
