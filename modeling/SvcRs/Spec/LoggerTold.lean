import SvcRs.Spec.DependencyClosure
import SvcRs.Spec.Events
import SvcRs.Spec.Loggers
import SvcRs.Spec.Restart

/-!
# The loggers of services that stay down

`reap_children` decides whether to stop the logger of a service before it decides
whether the service is started again, and it goes by the decoded wait status, which is
never FAILED at that point. So a `once` service and one that has just tripped the
breaker keep a logger that nobody has told to stop.

## Key results

- `reapLoop_fate`: what the `waitpid` loop does to one record
- `loggers_told_iff`: when every service that stays down has its logger told to stop
- `once_logger_untold`: a `once` service and its logger
-/

namespace SvcRs

/-! ## Being told to stop -/

/-- The logger `pid` of slot `i` has been sent SIGTERM since it was forked. -/
def TermSent (i : Nat) (pid : Int) (k : Kernel) : Prop :=
  ∃ newer older, k.trace = newer ++ .kill pid sigterm :: older ∧
    ∀ e ∈ newer, ∀ p, e ≠ .fork (.logger i) p

/-- The logger of slot `i` has been told to stop, and the record says so. -/
structure LoggerTold (i : Nat) (w : World) : Prop where
  stopping : (w.svc i).logStopping = true
  sent : TermSent i (w.svc i).logPid w.k

/-- The event neither forks a logger for slot `i` nor sends SIGTERM to the one it has. -/
structure Event.Spares (i : Nat) (pid : Int) (e : Event) : Prop where
  noFork : ∀ p, e ≠ .fork (.logger i) p
  noKill : 0 < pid → e ≠ .kill pid sigterm

/-- Events of files are not about a logger. -/
theorem Event.spares_file {i : Nat} {pid : Int} (e : Event) (h : e.isFile = true) :
    e.Spares i pid := by
  constructor
  · intro p he
    rw [he] at h
    cases h
  · intro _ he
    rw [he] at h
    cases h

/-- Nothing has been sent to the logger in between. -/
theorem termSent_iff {i : Nat} {pid : Int} {k k' : Kernel} (h : Emits (Event.Spares i pid) k k')
    (hpid : 0 < pid) : TermSent i pid k' ↔ TermSent i pid k := by
  obtain ⟨evs, hevs, hspares⟩ := h
  constructor
  · rintro ⟨newer, older, htrace, hnewer⟩
    rw [hevs] at htrace
    -- the signal is none of the events in between
    rcases List.append_eq_append_iff.mp htrace with ⟨mid, rfl, hold⟩ | ⟨mid, rfl, hmid⟩
    · exact ⟨mid, older, hold, fun e he => hnewer e (List.mem_append_right _ he)⟩
    · cases mid with
      | nil => exact ⟨[], older, hmid.symm, by simp⟩
      | cons e mid =>
        have he : Event.kill pid sigterm = e := (List.cons.inj hmid).1
        exact absurd he.symm ((hspares e (by simp)).noKill hpid)
  · rintro ⟨newer, older, htrace, hnewer⟩
    refine ⟨evs ++ newer, older, by rw [hevs, htrace, List.append_assoc], fun e he => ?_⟩
    rcases List.mem_append.mp he with hnew | hold
    · exact (hspares e hnew).noFork
    · exact hnewer e hold

/-- The slot is as it was, and its logger has been spared. -/
structure Undisturbed (i : Nat) (w w' : World) : Prop where
  svc : w'.svc i = w.svc i
  emits : Emits (Event.Spares i (w.svc i).logPid) w.k w'.k

section

variable {w w₁ w' : World} {i : Nat}

/-- Nothing happens. -/
theorem Undisturbed.refl (i : Nat) (w : World) : Undisturbed i w w := ⟨rfl, Std.Refl.refl _⟩

/-- One after the other. -/
theorem Undisturbed.trans (h : Undisturbed i w w₁) (h' : Undisturbed i w₁ w') :
    Undisturbed i w w' := by
  have hemits := h'.emits
  rw [h.svc] at hemits
  exact ⟨h'.svc.trans h.svc, IsTrans.trans _ _ _ h.emits hemits⟩

/-- Whether a logger was told depends on its record and on the signals sent to it. -/
theorem loggerTold_iff (hstop : (w'.svc i).logStopping = (w.svc i).logStopping)
    (hlogPid : (w'.svc i).logPid = (w.svc i).logPid) (hpid : 0 < (w.svc i).logPid)
    (h : Emits (Event.Spares i (w.svc i).logPid) w.k w'.k) : LoggerTold i w' ↔ LoggerTold i w := by
  have hsent := termSent_iff h hpid
  constructor
  · intro ht
    exact ⟨hstop.symm.trans ht.stopping, hsent.mp (hlogPid ▸ ht.sent)⟩
  · intro ht
    exact ⟨hstop.trans ht.stopping, hlogPid ▸ hsent.mpr ht.sent⟩

/-- What is undisturbed tells no logger. -/
theorem Undisturbed.told_iff (h : Undisturbed i w w') (hpid : 0 < (w.svc i).logPid) :
    LoggerTold i w' ↔ LoggerTold i w :=
  loggerTold_iff (by rw [h.svc]) (by rw [h.svc]) hpid h.emits

end

/-! ## One exit -/

/-- The test that `reap_children` makes before it decides about a restart. -/
structure TellsLogger (s : Service) (status : Int) : Prop where
  logger : 0 < s.logPid
  down : s.stopping = true ∨ status % 128 = 127

section

variable {s : Service} {status : Int} {P : Event → Prop}

/-- The test of the code after an exit. -/
theorem stopExitedLogger_test :
    ((s.exited status).logPid > 0 && ((s.exited status).stopping ||
      (s.exited status).state = .failed || (s.exited status).state = .down)) = true ↔
      TellsLogger s status := by
  have hstate : (s.exited status).state = (decodeWaitStatus status).1 := rfl
  -- `decode_wait_status` never answers FAILED
  have hfailed : (decodeWaitStatus status).1 ≠ .failed := by
    unfold decodeWaitStatus
    split
    · simp
    · split <;> simp
  -- status % 128 = 127 is neither an exit nor a death by a signal
  have hdown : (decodeWaitStatus status).1 = .down ↔ status % 128 = 127 := by
    unfold decodeWaitStatus
    split
    · simp only [reduceCtorEq, false_iff]
      omega
    · split <;> simp_all
  simp only [hstate, hfailed, Bool.and_eq_true, Bool.or_eq_true, decide_eq_true_eq, hdown]
  constructor
  · intro h
    exact ⟨h.1, h.2.imp (fun h => h.resolve_right (by simp)) id⟩
  · intro h
    exact ⟨h.logger, h.down.imp .inl id⟩

/-- A finish script is forked, or nothing happens. -/
theorem runFinish_allEvents (hfork : ∀ pid, P (.fork .finish pid)) (s : Service) :
    AllEvents P (runFinish s) := by
  have haccess : AllEvents P (access (joinPath s.dir "/finish") .exec) :=
    allEvents_silent fun _ => rfl
  apply haccess.seq
  intro ok
  have hrun : AllEvents P (prepareServiceEnv s >>= fun _ => fork .finish >>= fun _ => pure ()) :=
    (prepareServiceEnv_allEvents s).seq fun _ => (fork_allEvents hfork).seq fun _ => .pure trivial
  exact .ite (fun _ => .pure trivial) fun _ => hrun

/-- The record and the kernel when the logger is dealt with. -/
theorem reapMain_apply (slot : Nat) (t : Int) (k : Kernel) :
    let k₂ := (runFinish (s.exited status) (emit (.exited slot t s) k).2).2
    let r := stopExitedLogger (s.exited status) k₂
    reapMain slot status t s k =
      (accountExit r.1 t, (writeStatusFile (accountExit r.1 t) r.2).2) := rfl

/-- The accounting of an exit does not concern the logger. -/
theorem accountExit_frame (s : Service) (t : Int) :
    (accountExit s t).logPid = s.logPid ∧ (accountExit s t).logStopping = s.logStopping := by
  unfold accountExit
  split
  · exact ⟨rfl, rfl⟩
  · dsimp only
    split <;> exact ⟨rfl, rfl⟩

variable (slot i : Nat) (t : Int) (k : Kernel)

/-- The logger is told to stop. -/
theorem reapMain_tells (h : TellsLogger s status) :
    (reapMain slot status t s k).1.logStopping = true ∧
      TermSent i s.logPid (reapMain slot status t s k).2 := by
  rw [reapMain_apply]
  generalize (runFinish (s.exited status) (emit (.exited slot t s) k).2).2 = k₂
  simp only [stopExitedLogger, if_pos (stopExitedLogger_test.mpr h)]
  refine ⟨(accountExit_frame _ t).2, ?_⟩
  -- the status file is written after the signal
  have hfile : ∀ e : Event, e.isFile = true → e.Spares i 0 := Event.spares_file
  have hstatus : AllEvents (fun e => ∀ p, e ≠ .fork (.logger i) p)
      (writeStatusFile (accountExit { s.exited status with logStopping := true } t)) :=
    writeStatusFile_allEvents (fun e he => (hfile e he).noFork) _
  obtain ⟨evs, hevs, hno⟩ := hstatus.rel (emit (.kill s.logPid sigterm) k₂).2
  exact ⟨evs, k₂.trace, hevs, hno⟩

/-- The logger is not told to stop. -/
theorem reapMain_untold (h : ¬TellsLogger s status) :
    (reapMain slot status t s k).1.logStopping = s.logStopping ∧
      Emits (Event.Spares i s.logPid) k (reapMain slot status t s k).2 := by
  have hexit : AllEvents (Event.Spares i s.logPid) (emit (.exited slot t s)) :=
    emit_allEvents ⟨by simp, by simp⟩
  have hfinish : AllEvents (Event.Spares i s.logPid) (runFinish (s.exited status)) :=
    runFinish_allEvents (fun _ => ⟨by simp, by simp⟩) _
  have hbefore := IsTrans.trans _ _ _ (hexit.rel k) (hfinish.rel (emit (.exited slot t s) k).2)
  rw [reapMain_apply]
  generalize (runFinish (s.exited status) (emit (.exited slot t s) k).2).2 = k₂ at hbefore
  -- the test fails, so the logger is not told
  simp only [stopExitedLogger, if_neg (mt stopExitedLogger_test.mp h)]
  refine ⟨(accountExit_frame _ t).2, IsTrans.trans _ _ _ hbefore ?_⟩
  exact (writeStatusFile_allEvents Event.spares_file _).rel k₂

/-- A logger is told to stop, and it is not the one of slot `i`. -/
theorem reapMain_spares {pid : Int} (h : 0 < s.logPid → 0 < pid → s.logPid ≠ pid) :
    Emits (Event.Spares i pid) k (reapMain slot status t s k).2 := by
  have hexit : AllEvents (Event.Spares i pid) (emit (.exited slot t s)) :=
    emit_allEvents ⟨by simp, by simp⟩
  have hfinish : AllEvents (Event.Spares i pid) (runFinish (s.exited status)) :=
    runFinish_allEvents (fun _ => ⟨by simp, by simp⟩) _
  -- if another logger is told, its pid is not this one
  have hlogger : AllEvents (Event.Spares i pid) (stopExitedLogger (s.exited status)) := by
    refine .ite (fun htest => ?_) fun _ => .pure trivial
    have htells := stopExitedLogger_test.mp htest
    have hkill : Event.Spares i pid (.kill s.logPid sigterm) :=
      ⟨by simp, fun hpos he => h htells.logger hpos (Event.kill.inj he).1⟩
    exact (emit_allEvents hkill).seq fun _ => .pure trivial
  have hall : AllEvents (Event.Spares i pid) (reapMain slot status t s) :=
    hexit.seq fun _ => hfinish.seq fun _ => hlogger.seq fun _ =>
      (writeStatusFile_allEvents Event.spares_file _).seq fun _ => .pure trivial
  exact hall.rel k

end

/-! ## One turn of the reaper -/

/-- What the `waitpid` loop is told: each child with its status and the reading of the clock
    that follows. -/
def waitResults : List (Int × Int) → World → List (Int × Int × Int)
  | [], _ => []
  | (pid, status) :: exits, w =>
    if ∃ c ∈ w.k.children, c.pid = pid then
      (pid, status, w.k.reapTime pid status) :: waitResults exits (reapChild pid status w).2
    else []

/-- The main process of slot `i` has exited, and its logger has not. -/
structure ExitedAt (i : Nat) (status t : Int) (w w' : World) : Prop where
  core : (w'.svc i).core = (w.svc i).core.exit status t
  told : 0 < (w.svc i).logPid →
    (LoggerTold i w' ↔ TellsLogger (w.svc i) status ∨ LoggerTold i w)

section

variable {w w₁ w' : World} {i : Nat} {pid status t : Int}

/-- The reaper's clock is not an event, and the reaped child is neither a fork nor a signal. -/
theorem afterWait_spares (h : ∃ c ∈ w.k.children, c.pid = pid) (status p : Int) :
    Emits (Event.Spares i p) w.k (w.k.afterWait pid status) :=
  ⟨[_], Kernel.afterWait_trace h, by
    intro e he
    rw [List.mem_singleton.mp he]
    exact ⟨by simp, by simp⟩⟩

/-- The exit of a logger is found under its slot. -/
theorem Life.Tracked.reap_logger (ht : w.life.Tracked) (hpid : 0 < (w.svc i).logPid) :
    w.loggerSlot (w.svc i).logPid = some i := by
  have hmem := ht.logger i hpid
  have hact : (w.svc i).active = true := (ht.sound i).active_of_logPid hpid
  cases hl : w.loggerSlot (w.svc i).logPid with
  | none => exact absurd rfl (loggerSlot_none hl i (ht.inTable i hact) hact)
  | some j =>
    obtain ⟨-, -, hj⟩ := loggerSlot_some hl
    have hposj : 0 < (w.svc j).logPid := by
      rw [hj]
      exact hpid
    have hmemj := ht.logger j hposj
    have hjpid : (w.life.core j).logPid = (w.life.core i).logPid := hj
    rw [hjpid] at hmemj
    -- two loggers with one pid are the same child
    have hrole := ht.role_eq hmemj hmem
    simpa using hrole

/-- The logger of slot `i` is reaped. -/
theorem reapChild_logger (ht : w.life.Tracked) (hlogPid : pid = (w.svc i).logPid)
    (h : ∃ c ∈ w.k.children, c.pid = pid) (status : Int) :
    ((reapChild pid status w).2.svc i).logPid = -1 := by
  obtain ⟨c, hc, hpid⟩ := h
  -- the pids of children are positive
  have hpos : 0 < (w.svc i).logPid := by
    have := ht.above c hc
    omega
  have hslot := ht.reap_logger hpos
  rw [reapChild_child ⟨c, hc, hpid⟩]
  rw [← hlogPid] at hslot
  generalize w.k.afterWait pid status = k
  have hslot' : ({ w with k } : World).loggerSlot pid = some i := hslot
  simp only [reapRecord, Sup.get_bind, hslot']
  show ((onSlot i reapLogger { w with k }).2.svc i).logPid = -1
  rw [onSlot_svc, if_pos rfl]
  rfl

/-- The main process of slot `i` is reaped. -/
theorem reapChild_exits (ht : w.life.Tracked) (hmem : ⟨pid, .main i⟩ ∈ w.k.children) :
    ExitedAt i status (w.k.reapTime pid status) w (reapChild pid status w).2 := by
  refine ⟨(reapChild_main ht hmem status).1, fun hpos => ?_⟩
  -- the pid is that of a child, so the reaper finds the record
  have hchild : ∃ c ∈ w.k.children, c.pid = pid := ⟨_, hmem, rfl⟩
  obtain ⟨hlog, hmain⟩ := ht.reap_main hmem
  have hspares := afterWait_spares (i := i) hchild status (w.svc i).logPid
  rw [reapChild_child hchild]
  generalize w.k.afterWait pid status = k at hspares
  have hlog' : ({ w with k } : World).loggerSlot pid = none := hlog
  have hmain' : ({ w with k } : World).mainSlot pid = some i := hmain
  simp only [reapRecord, Sup.get_bind, hlog', hmain']
  have hcore := reapMain_core i status k.clock (w.svc i) k
  show LoggerTold i (onSlot i (reapMain i status k.clock) { w with k }).2 ↔ _
  generalize hw' : (onSlot i (reapMain i status k.clock) { w with k }).2 = w'
  have hsvc : w'.svc i = (reapMain i status k.clock (w.svc i) k).1 := by
    rw [← hw', onSlot_svc, if_pos rfl]
  have hk : w'.k = (reapMain i status k.clock (w.svc i) k).2 := by rw [← hw']; rfl
  have hlogPid : (w'.svc i).logPid = (w.svc i).logPid := by
    rw [hsvc]
    exact (congrArg Core.logPid hcore).trans (Core.exit_logPid _ status k.clock)
  -- either this exit tells the logger, or the record is told only if it was before
  by_cases htells : TellsLogger (w.svc i) status
  · have hsent := reapMain_tells i i k.clock k htells
    have htold : LoggerTold i w' := ⟨hsvc ▸ hsent.1, by rw [hlogPid, hk]; exact hsent.2⟩
    simp only [htold, htells, true_or]
  · obtain ⟨hstop, hemits⟩ := reapMain_untold i i k.clock k htells
    have hall : Emits (Event.Spares i (w.svc i).logPid) w.k w'.k := by
      rw [hk]
      exact IsTrans.trans _ _ _ hspares hemits
    simp only [htells, false_or]
    exact loggerTold_iff (by rw [hsvc]; exact hstop) hlogPid hpos hall

/-- A child is reaped that is none of slot `i`. -/
theorem reapChild_other (ht : w.life.Tracked) (hpid : pid ≠ (w.svc i).pid)
    (hlogPid : pid ≠ (w.svc i).logPid) (status : Int) :
    Undisturbed i w (reapChild pid status w).2 := by
  by_cases hchild : ∃ c ∈ w.k.children, c.pid = pid
  · have hspares := afterWait_spares (i := i) hchild status (w.svc i).logPid
    rw [reapChild_child hchild]
    generalize w.k.afterWait pid status = k at hspares
    simp only [reapRecord, Sup.get_bind]
    have hlogger : ({ w with k } : World).loggerSlot pid = w.loggerSlot pid := rfl
    have hmain : ({ w with k } : World).mainSlot pid = w.mainSlot pid := rfl
    rw [hlogger]
    cases hl : w.loggerSlot pid with
    | some j =>
      have hne : i ≠ j := fun hj => hlogPid (hj ▸ (loggerSlot_some hl).2.2.symm)
      exact ⟨if_neg hne, hspares⟩
    | none =>
      dsimp only
      rw [hmain]
      cases hm : w.mainSlot pid with
      | none => exact ⟨rfl, hspares⟩
      | some j =>
        have hne : i ≠ j := fun hj => hpid (hj ▸ (mainSlot_some hm).2.2.symm)
        refine ⟨if_neg hne, IsTrans.trans _ _ _ hspares (reapMain_spares j i k.clock k ?_)⟩
        intro hj hi he
        -- two loggers have two pids
        have hmemj := ht.logger j hj
        have hpids : (w.life.core j).logPid = (w.life.core i).logPid := he
        rw [hpids] at hmemj
        have hrole := ht.role_eq (ht.logger i hi) hmemj
        exact hne (by simpa using hrole)
  · rw [reapChild_none hchild]
    exact .refl i w

/-- The main process is gone. -/
theorem ExitedAt.pid_eq (h : ExitedAt i status t w w') : (w'.svc i).pid = -1 :=
  (congrArg Core.pid h.core).trans (Core.exit_pid _ status t)

/-- The logger is still there. -/
theorem ExitedAt.logPid_eq (h : ExitedAt i status t w w') : (w'.svc i).logPid = (w.svc i).logPid :=
  (congrArg Core.logPid h.core).trans (Core.exit_logPid _ status t)

/-- What comes after the exit leaves it as it is. -/
theorem ExitedAt.undisturbed (h : ExitedAt i status t w w₁) (h' : Undisturbed i w₁ w') :
    ExitedAt i status t w w' := by
  refine ⟨by rw [h'.svc, h.core], fun hpos => ?_⟩
  exact (h'.told_iff (h.logPid_eq ▸ hpos)).trans (h.told hpos)

/-- And so does what comes before. -/
theorem Undisturbed.exitedAt (h : Undisturbed i w w₁) (h' : ExitedAt i status t w₁ w') :
    ExitedAt i status t w w' := by
  refine ⟨by rw [h'.core, h.svc], fun hpos => ?_⟩
  have htold := h'.told (h.svc ▸ hpos)
  rw [h.svc, h.told_iff hpos] at htold
  exact htold

end

/-! ## The batch -/

/-- The results of `waitpid` are pids. -/
theorem waitResults_pos {w : World} (ht : w.life.Tracked) (exits : List (Int × Int)) :
    ∀ r ∈ waitResults exits w, 1 < r.1 := by
  -- by induction on the exits; each pid is that of a child
  induction exits generalizing w with
  | nil => simp [waitResults]
  | cons e exits ih =>
    intro r hr
    simp only [waitResults] at hr
    split at hr
    · next hchild =>
      obtain ⟨c, hc, hpid⟩ := hchild
      rcases List.mem_cons.mp hr with rfl | hrest
      · exact hpid ▸ ht.above c hc
      · exact ih (((reapChild_follows (S := anyKind) e.1 e.2).steps w).tracked ht) r hrest
    · cases hr

/-- What the loop does to slot `i`, by what `waitpid` returned. -/
inductive Fate (i : Nat) (results : List (Int × Int × Int)) (w w' : World) : Prop
  | loggerGone (hlogger : ∃ r ∈ results, r.1 = (w.svc i).logPid) (gone : (w'.svc i).logPid ≤ 0)
  | exited (status t : Int)
      (first : results.find? (fun r => r.1 = (w.svc i).pid) = some ((w.svc i).pid, status, t))
      (lives : ∀ r ∈ results, r.1 ≠ (w.svc i).logPid) (exit : ExitedAt i status t w w')
  | kept (runs : ∀ r ∈ results, r.1 ≠ (w.svc i).pid)
      (lives : ∀ r ∈ results, r.1 ≠ (w.svc i).logPid) (same : Undisturbed i w w')

section

variable {i : Nat} {results : List (Int × Int × Int)} {w w₁ w' : World} {pid status t : Int}

/-- A logger that is gone stays gone. -/
theorem Fate.logPid_le (h : Fate i results w w') (hgone : (w.svc i).logPid ≤ 0) :
    (w'.svc i).logPid ≤ 0 := by
  cases h with
  | loggerGone _ gone => exact gone
  | exited status t _ _ exit =>
    have := exit.logPid_eq
    omega
  | kept _ _ same => rw [same.svc]; exact hgone

/-! The first child of the batch may be the logger of the slot, its main process, or neither. -/

/-- The logger exits first. -/
theorem Fate.after_logger (hpid : pid = (w.svc i).logPid) (hgone : (w₁.svc i).logPid ≤ 0)
    (h : Fate i results w₁ w') : Fate i ((pid, status, t) :: results) w w' :=
  .loggerGone ⟨_, List.mem_cons_self, hpid⟩ (h.logPid_le hgone)

/-- The main process exits first. -/
theorem Fate.after_exit (hpid : pid = (w.svc i).pid) (hlogger : pid ≠ (w.svc i).logPid)
    (hexit : ExitedAt i status t w w₁) (hpos : ∀ r ∈ results, 1 < r.1) (h : Fate i results w₁ w') :
    Fate i ((pid, status, t) :: results) w w' := by
  have hpid₁ := hexit.pid_eq
  have hlogPid₁ := hexit.logPid_eq
  cases h with
  | loggerGone hl gone =>
    obtain ⟨r, hr, he⟩ := hl
    exact .loggerGone ⟨r, List.mem_cons_of_mem _ hr, he.trans hlogPid₁⟩ gone
  | exited status' t' first _ _ =>
    -- the record has no main process any more
    have hmem := List.mem_of_find?_eq_some first
    have habove := hpos _ hmem
    dsimp only at habove
    omega
  | kept _ lives same =>
    have hlives : ∀ r ∈ (pid, status, t) :: results, r.1 ≠ (w.svc i).logPid := by
      simp only [List.mem_cons, forall_eq_or_imp]
      exact ⟨hlogger, fun r hr => hlogPid₁ ▸ lives r hr⟩
    have hfirst : ((pid, status, t) :: results).find? (fun r => r.1 = (w.svc i).pid) =
        some ((w.svc i).pid, status, t) := by
      simp [hpid]
    exact .exited status t hfirst hlives (hexit.undisturbed same)

/-- Some other child exits first. -/
theorem Fate.after_other (hpid : pid ≠ (w.svc i).pid) (hlogger : pid ≠ (w.svc i).logPid)
    (hsame : Undisturbed i w w₁) (h : Fate i results w₁ w') :
    Fate i ((pid, status, t) :: results) w w' := by
  -- the exit of another process leaves the logger among those that live on
  have hcons : (∀ r ∈ results, r.1 ≠ (w₁.svc i).logPid) →
      ∀ r ∈ (pid, status, t) :: results, r.1 ≠ (w.svc i).logPid := by
    intro lives
    rw [hsame.svc] at lives
    simp only [List.mem_cons, forall_eq_or_imp]
    exact ⟨hlogger, lives⟩
  -- one case for each of the three fates in the rest of the batch
  cases h with
  | loggerGone hl gone =>
    obtain ⟨r, hr, he⟩ := hl
    exact .loggerGone ⟨r, List.mem_cons_of_mem _ hr, by rw [he, hsame.svc]⟩ gone
  | exited status' t' first lives exit =>
    rw [hsame.svc] at first
    refine .exited status' t' ?_ (hcons lives) (hsame.exitedAt exit)
    simpa [List.find?_cons, hpid] using first
  | kept runs lives same =>
    rw [hsame.svc] at runs
    refine .kept ?_ (hcons lives) (hsame.trans same)
    simp only [List.mem_cons, forall_eq_or_imp]
    exact ⟨hpid, runs⟩

end

/-- The loop, child by child. -/
theorem reapLoop_fate {w : World} (ht : w.life.Tracked) (exits : List (Int × Int)) (need : Bool)
    (i : Nat) : Fate i (waitResults exits w) w (reapLoop exits need w).2 := by
  induction exits generalizing need w with
  | nil => exact .kept (by simp [waitResults]) (by simp [waitResults]) (.refl i w)
  | cons e exits ih =>
    obtain ⟨pid, status⟩ := e
    rw [reapLoop_cons, waitResults]
    by_cases hchild : ∃ c ∈ w.k.children, c.pid = pid
    swap
    · -- `waitpid` returns nothing, and the loop ends
      rw [reapChild_none hchild, if_neg hchild]
      exact .kept (by simp) (by simp) (.refl i w)
    have hsome : ∃ need', (reapChild pid status w).1 = some need' := by
      rw [reapChild_child hchild]
      exact ⟨_, rfl⟩
    obtain ⟨need', hneed⟩ := hsome
    rw [if_pos hchild, hneed]
    have ht₁ : (reapChild pid status w).2.life.Tracked :=
      ((reapChild_follows (S := anyKind) pid status).steps w).tracked ht
    have hrest := ih ht₁ (need || need')
    by_cases hlogPid : pid = (w.svc i).logPid
    · have hgone := reapChild_logger ht hlogPid hchild status
      exact hrest.after_logger hlogPid (by omega)
    by_cases hpid : pid = (w.svc i).pid
    · obtain ⟨c, hc, hcpid⟩ := hchild
      have hpos : 0 < (w.svc i).pid := by
        have := ht.above c hc
        omega
      have hmem : ⟨pid, .main i⟩ ∈ w.k.children := hpid ▸ ht.main_mem hpos
      exact hrest.after_exit hpid hlogPid (reapChild_exits ht hmem) (waitResults_pos ht₁ exits)
    · exact hrest.after_other hpid hlogPid (reapChild_other ht hpid hlogPid status)

/-! ## The end of `reap_children` -/

/-- What every stop keeps, the end of `reap_children` keeps. -/
theorem finishReap_rule {R : World → World → Prop} [Std.Refl R] [IsTrans World R]
    (hdep : ∀ j, StateM.Keeps R (stopDependent j) fun _ => True)
    (hkill : ∀ w j, lostLogger (w.svc j) = true → R w (onSlot j signalStopStatus w).2)
    (need : Bool) : StateM.Keeps R (finishReap need) fun _ => True := by
  -- the sweep, if one is needed, and then the loggers that have died
  have hdeath : ∀ j, StateM.Keeps R (killOnLogDeath j) fun _ => True := by
    refine fun j w _ => ⟨?_, trivial⟩
    simp only [killOnLogDeath, Sup.get_bind, Sup.ite_apply]
    split
    · next h => exact hkill w j h
    · exact Std.Refl.refl w
  have hend : StateM.Keeps R killMainOnLogDeath fun _ => True :=
    fun w _ => forSlots_keeps hdeath w.slots w trivial
  cases need with
  | false => exact hend
  | true => exact (stopTransitiveDeps_keeps hdep).seq fun _ => hend

section

variable {w : World} {i : Nat}

/-- Stopping another service leaves a slot without a main process alone. -/
theorem signalStop_undisturbed {j : Nat} (hj : 0 < (w.svc j).pid) (hi : (w.svc i).pid ≤ 0) :
    Undisturbed i w (onSlot j signalStopStatus w).2 := by
  have hne : i ≠ j := by
    intro he
    subst he
    omega
  refine ⟨if_neg hne, ?_⟩
  have hall : AllEvents (Event.Spares i (w.svc i).logPid) (signalStopStatus (w.svc j)) := by
    -- a process group is signalled, not a logger
    have hkill : Event.Spares i (w.svc i).logPid (.kill (-(w.svc j).pid) sigterm) := by
      refine ⟨by simp, fun hpos he => ?_⟩
      have := (Event.kill.inj he).1
      omega
    exact ((emit_allEvents hkill).seq fun _ => .pure trivial).seq fun _ =>
      (writeStatusFile_allEvents Event.spares_file _).seq fun _ => .pure trivial
  exact hall.rel w.k

/-- If the slot has no main process, it is undisturbed. -/
def IdleUndisturbed (i : Nat) (w w' : World) : Prop := (w.svc i).pid ≤ 0 → Undisturbed i w w'

instance (i : Nat) : Std.Refl (IdleUndisturbed i) := ⟨fun w _ => .refl i w⟩

instance (i : Nat) : IsTrans World (IdleUndisturbed i) where
  trans w₁ w₂ w₃ h₁ h₂ hidle := by
    have hfirst := h₁ hidle
    exact hfirst.trans (h₂ (hfirst.svc ▸ hidle))

/-- After the exits, a service without a main process is left alone. -/
theorem finishReap_undisturbed (need : Bool) (hidle : (w.svc i).pid ≤ 0) :
    Undisturbed i w (finishReap need w).2 := by
  have hdep : ∀ j, StateM.Keeps (IdleUndisturbed i) (stopDependent j) fun _ => True := by
    refine fun j w _ => ⟨fun hi => ?_, trivial⟩
    rcases stopDependent_cases j w with ⟨h, he⟩ | ⟨-, he⟩ <;> rw [he]
    · exact signalStop_undisturbed h.pid hi
    · exact .refl i w
  refine (finishReap_rule hdep (fun w j h hi => ?_) need).rel w hidle
  simp only [lostLogger, Bool.and_eq_true, decide_eq_true_eq] at h
  exact signalStop_undisturbed h.1.1.2 hi

/-- No process is reaped or forked after the loop. -/
theorem finishReap_tells (need : Bool) : StateM.Keeps Tells (finishReap need) fun _ => True := by
  refine finishReap_rule stopDependent_tells (fun w j h => ?_) need
  simp only [lostLogger, Bool.and_eq_true, decide_eq_true_eq] at h
  exact signalStop_tells h.2 h.1.1.2

/-- Telling services to stop changes no logger. -/
theorem Tells.logPid {w w' : World} (h : Tells w w') (i : Nat) :
    (w'.svc i).logPid = (w.svc i).logPid := by
  rcases h.core i with he | ⟨-, -, he⟩ <;> exact congrArg Core.logPid he

end

/-! ## Services that stay down -/

/-- The main process of the service has been reaped, nothing is scheduled, and the logger runs. -/
structure LeftWithLogger (exits : List (Int × Int)) (i : Nat) (w : World) : Prop where
  running : 0 < (w.svc i).pid
  active : ((reapChildren exits w).2.svc i).active = true
  reaped : ((reapChildren exits w).2.svc i).pid ≤ 0
  final : ((reapChildren exits w).2.svc i).restartAt = i64Max
  logger : 0 < ((reapChildren exits w).2.svc i).logPid

/-- Each service that the batch leaves down for good has its logger told to stop. -/
def LoggersTold (exits : List (Int × Int)) (w : World) : Prop :=
  ∀ i, LeftWithLogger exits i w → LoggerTold i (reapChildren exits w).2

/-- `waitpid` returns the main process of slot `i`, when the clock reads `t`, and it does not
    return the logger, which is running. -/
structure ExitsAlone (exits : List (Int × Int)) (w : World) (i : Nat) (status t : Int) : Prop where
  running : 0 < (w.svc i).pid
  logger : 0 < (w.svc i).logPid
  exit : (waitResults exits w).find? (fun r => r.1 = (w.svc i).pid) =
    some ((w.svc i).pid, status, t)
  lives : ∀ r ∈ waitResults exits w, r.1 ≠ (w.svc i).logPid

/-- What the batch leaves behind in a slot whose main process has exited. -/
theorem ExitsAlone.exitedAt {exits : List (Int × Int)} {w : World} {i : Nat} {status t : Int}
    (h : ExitsAlone exits w i status t) (ht : w.life.Tracked) :
    ExitedAt i status t w (reapChildren exits w).2 := by
  have hfate := reapLoop_fate ht exits false i
  simp only [reapChildren, Sup.bind_apply]
  generalize (reapLoop exits false w).1 = need
  generalize (reapLoop exits false w).2 = w₁ at hfate ⊢
  -- its own exit is among the batch, and its logger's is not
  cases hfate with
  | loggerGone hlogger _ =>
    obtain ⟨r, hr, he⟩ := hlogger
    exact absurd he (h.lives r hr)
  | exited status' t' first _ exit =>
    rw [h.exit] at first
    obtain ⟨rfl, rfl⟩ : status = status' ∧ t = t' := by simpa using first
    have hpid := exit.pid_eq
    -- the sweep at the end of the batch does not touch a service without a process
    exact exit.undisturbed (finishReap_undisturbed need (by omega))
  | kept runs _ _ =>
    have hmem := List.mem_of_find?_eq_some h.exit
    exact absurd rfl (runs _ hmem)

/-- A service that is left with its logger had its main process reaped in this batch, and not its
    logger. -/
theorem LeftWithLogger.exitsAlone {exits : List (Int × Int)} {w : World} {i : Nat}
    (h : LeftWithLogger exits i w) (ht : w.life.Tracked) :
    ∃ status t, ExitsAlone exits w i status t := by
  have hfate := reapLoop_fate ht exits false i
  have htells := (finishReap_tells (reapLoop exits false w).1).rel (reapLoop exits false w).2
  have hlogger : 0 < ((reapLoop exits false w).2.svc i).logPid := htells.logPid i ▸ h.logger
  have hreaped : ((reapLoop exits false w).2.svc i).pid ≤ 0 := htells.pid i ▸ h.reaped
  generalize (reapLoop exits false w).2 = w₁ at hfate hlogger hreaped
  -- of the three fates only one leaves it without a process but with a logger
  cases hfate with
  | loggerGone _ gone => omega
  | exited status t first lives exit =>
    exact ⟨status, t, h.running, exit.logPid_eq ▸ hlogger, first, lives⟩
  | kept _ _ same =>
    have hrunning := h.running
    rw [same.svc] at hreaped
    omega

/-- A service is not restarted if it was stopped, or if the exit schedules nothing. -/
theorem Core.exit_restartAt (c : Core) (status t : Int) :
    (c.exit status t).restartAt = i64Max ↔ c.stopping = true ∨ ¬c.Schedules t := by
  have hschedules := c.exit_schedules status t
  rw [c.exit_stopping status t] at hschedules
  constructor
  · intro hmax
    exact .inr fun hs => (hschedules.mpr hs).2 hmax
  · rintro (hstop | hno)
    · rw [exit_final (by simp [hstop])]
    · cases hstop : c.stopping with
      | true => rw [exit_final (by simp [hstop])]
      | false => exact Decidable.byContradiction fun hne => hno (hschedules.mp ⟨hstop, hne⟩)

/-- The loggers of the services that stay down are told to stop if and only if each service
    that exits in the batch and leaves a logger behind is started again, was stopping, has a
    wait status that is neither an exit nor a signal, or had its logger told before. -/
theorem loggers_told_iff {w : World} (hw : Reachable w) (exits : List (Int × Int)) :
    LoggersTold exits w ↔ ∀ i status t, ExitsAlone exits w i status t →
      (w.svc i).core.Schedules t ∨ (w.svc i).stopping = true ∨ status % 128 = 127 ∨
        LoggerTold i w := by
  have ht := hw.accounted.tracked
  constructor
  · intro h i status t halone
    have hexit := halone.exitedAt ht
    -- a service that is restarted keeps its logger
    by_cases hs : (w.svc i).core.Schedules t
    · exact .inl hs
    right
    have hleft : LeftWithLogger exits i w := by
      refine ⟨halone.running, ?_, ?_, ?_, ?_⟩
      · have hact : (w.svc i).active = true := (ht.sound i).active_of_pid halone.running
        exact (congrArg Core.active hexit.core).trans ((Core.exit_active _ status t).trans hact)
      · have hpid := hexit.pid_eq
        omega
      · exact (congrArg Core.restartAt hexit.core).trans
          ((Core.exit_restartAt _ status t).mpr (.inr hs))
      · rw [hexit.logPid_eq]
        exact halone.logger
    -- it was told by this exit, or before
    rcases (hexit.told halone.logger).mp (h i hleft) with htells | htold
    · exact htells.down.imp id .inl
    · exact .inr (.inr htold)
  · intro h i hleft
    obtain ⟨status, t, halone⟩ := hleft.exitsAlone ht
    have hexit := halone.exitedAt ht
    apply (hexit.told halone.logger).mpr
    -- no restart is scheduled, so the first alternative means that the service was stopped
    have hfinal : ((w.svc i).core.exit status t).restartAt = i64Max :=
      (congrArg Core.restartAt hexit.core).symm.trans hleft.final
    have hstays := (Core.exit_restartAt _ status t).mp hfinal
    rcases h i status t halone with hs | hstop | hstatus | htold
    · have hstop : (w.svc i).stopping = true := hstays.resolve_right fun hno => hno hs
      exact .inl ⟨halone.logger, .inl hstop⟩
    · exact .inl ⟨halone.logger, .inl hstop⟩
    · exact .inl ⟨halone.logger, .inr hstatus⟩
    · exact .inr htold

/-- A running service with a logger is asked to stop. -/
def loggedStopped : World :=
  (mainLoop [{ listing := some [bytesOf "a"], poll := { control := some (bytesOf "stop a") } }]
    (bootOn loggedFiles)).world

/-- A running service with a logger is asked to run once. -/
def loggedOnce : World :=
  (mainLoop [{ listing := some [bytesOf "a"], poll := { control := some (bytesOf "once a\n") } }]
    (bootOn loggedFiles)).world

/-- Both exit and leave their loggers behind; the one that was stopped has its logger told. -/
theorem loggers_told_logged : LeftWithLogger [(118, 15)] 0 loggedStopped ∧
    LoggersTold [(118, 15)] loggedStopped ∧ ¬LoggersTold [(118, 0)] loggedOnce := by
  have hstopped : Reachable loggedStopped := ⟨_, _, _, mainLoop_performs _ _⟩
  have hleft : LeftWithLogger [(118, 15)] 0 loggedStopped :=
    ⟨by decide +kernel, by decide +kernel, by decide +kernel, by decide +kernel, by decide +kernel⟩
  have hroles : loggedStopped.k.children.map Child.role = [.main 0, .logger 0] := by
    decide +kernel
  have hstop : (loggedStopped.svc 0).stopping = true := by decide +kernel
  have honce : Reachable loggedOnce := ⟨_, _, _, mainLoop_performs _ _⟩
  have halone : ExitsAlone [(118, 0)] loggedOnce 0 0 0 :=
    ⟨by decide +kernel, by decide +kernel, by decide +kernel, by decide +kernel⟩
  have hflags : (loggedOnce.svc 0).once = true ∧ (loggedOnce.svc 0).stopping = false ∧
      (loggedOnce.svc 0).logStopping = false := by decide +kernel
  generalize loggedStopped = w at hstopped hleft hroles hstop ⊢
  generalize loggedOnce = w' at honce halone hflags ⊢
  refine ⟨hleft, (loggers_told_iff hstopped _).mpr fun i status t hexit => ?_, fun h => ?_⟩
  · -- the only main process is the one of slot 0
    have hmem : ⟨(w.svc i).pid, .main i⟩ ∈ w.k.children :=
      hstopped.accounted.tracked.main_mem hexit.running
    have hrole : Role.main i ∈ w.k.children.map Child.role := List.mem_map_of_mem hmem
    rw [hroles] at hrole
    obtain rfl : i = 0 := by simpa using hrole
    exact .inr (.inl hstop)
  · obtain ⟨hflag, hstop', hlog⟩ := hflags
    rcases (loggers_told_iff honce _).mp h 0 0 0 halone with hs | hs | hs | hs
    · exact absurd (hs.notOnce.symm.trans hflag) (by decide)
    · exact absurd (hs.symm.trans hstop') (by decide)
    · exact absurd hs (by decide)
    · exact absurd (hs.stopping.symm.trans hlog) (by decide)

/-- The service exits with code 0 and stays down. Its logger runs on, and nobody has sent it
    anything. -/
theorem once_logger_untold : Reachable loggedOnce ∧ ¬LoggersTold [(118, 0)] loggedOnce ∧
    LeftWithLogger [(118, 0)] 0 loggedOnce ∧
    ∀ e ∈ (reapChildren [(118, 0)] loggedOnce).2.k.trace, e.killed = none := by
  have hleft : LeftWithLogger [(118, 0)] 0 loggedOnce :=
    ⟨by decide +kernel, by decide +kernel, by decide +kernel, by decide +kernel, by decide +kernel⟩
  have hflag : ((reapChildren [(118, 0)] loggedOnce).2.svc 0).logStopping = false := by
    decide +kernel
  refine ⟨⟨_, _, _, mainLoop_performs _ _⟩, fun h => ?_, hleft, ?_⟩
  · have htold := (h 0 hleft).stopping
    rw [hflag] at htold
    cases htold
  · decide +kernel

end SvcRs
