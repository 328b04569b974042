import SvcRs.Spec.Isolation
import SvcRs.Spec.LoggerTold

/-!
# The exits of other processes

What `reap_children` does to a service none of whose processes has exited. It is left alone, and
its processes get no signal, unless one of its hard dependencies does not run any more or it runs
without its logger.

## Key results

- `finishReap_order`: the end of `reap_children` tells services to stop, each with a reason
- `exits_isolated`: the exits of other processes change nothing else
-/

namespace SvcRs

open Transition (run Along along_append)

/-! ## Reasons to stop -/

/-- One of the two tests at the end of `reap_children`. -/
def Condemned (w : World) (i : Nat) : Prop := Stranded w i ∨ lostLogger (w.svc i) = true

section

variable {w : World} {i j : Nat}

/-- A condemned service is not stopping yet. -/
theorem Condemned.notStopping (h : Condemned w i) : (w.svc i).stopping = false := by
  cases h with
  | inl hstranded => exact hstranded.notStopping
  | inr hlost =>
    simp only [lostLogger, Bool.and_eq_true, Bool.not_eq_true'] at hlost
    exact hlost.1.2

/-- The loop over dead loggers tells condemned services, one after the other. -/
theorem killLoop_order (is : List Nat) (w : World) :
    ∃ order, (forSlots killOnLogDeath is w).2 = run tell order w ∧
      Along tell Condemned order w := by
  induction is generalizing w with
  | nil => exact ⟨[], rfl, trivial⟩
  | cons i is ih =>
    show ∃ order, (forSlots killOnLogDeath is (killOnLogDeath i w).2).2 = run tell order w ∧ _
    unfold killOnLogDeath
    rw [Sup.get_bind, Sup.ite_apply]
    -- a service that lost its logger is told, any other one is passed over
    split
    · next hlost =>
      obtain ⟨order, hrun, halong⟩ := ih (tell i w)
      exact ⟨i :: order, hrun, .inr hlost, halong⟩
    · exact ih w

/-- The services that are told to stop at the end of `reap_children`, each with a reason when its
    turn comes. -/
theorem finishReap_order (need : Bool) (w : World) :
    ∃ order, (finishReap need w).2 = run tell order w ∧ Along tell Condemned order w := by
  cases need with
  | false => exact killLoop_order w.slots w
  | true =>
    -- the sweep comes first, and the loggers are looked at afterwards
    obtain ⟨early, hearly, halong, -⟩ := stopTransitiveDeps_order w
    obtain ⟨late, hlate, halong'⟩ := killLoop_order w.slots (run tell early w)
    have hsize : (stopTransitiveDeps w).2.slots = w.slots := by
      rw [hearly, World.slots, run_tell_size]
      rfl
    refine ⟨early ++ late, ?_, (along_append early late w).mpr ⟨?_, halong'⟩⟩
    · show (forSlots killOnLogDeath (stopTransitiveDeps w).2.slots (stopTransitiveDeps w).2).2 = _
      rw [hsize, hearly, hlate, Transition.run_append]
    · exact halong.mono fun w i h => .inl h.2

/-- No service starts to run by being told to stop. -/
theorem run_tell_isRunning {order : List Nat} {name : Bytes}
    (h : (run tell order w).isRunning name = true) : w.isRunning name = true := by
  obtain ⟨j, hfind, hstate⟩ := isRunning_iff.mp h
  -- lookups only see names
  have hname : findServiceByName (run tell order w) name = findServiceByName w name := by
    unfold findServiceByName World.findSlot World.slots
    rw [run_tell_size]
    simp only [(run_tell_frame order w _).1, (run_tell_frame order w _).2.1]
  rw [hname] at hfind
  have hold : ¬((run tell order w).svc j).state ≠ .running := not_not.mpr hstate
  rw [run_tell_state, not_or, not_not] at hold
  exact isRunning_iff.mpr ⟨j, hfind, hold.1⟩

/-- Whoever has been told to stop had a reason, and still has. -/
theorem told_reason {order : List Nat} (halong : Along tell Condemned order w)
    (hj : j ∈ order) : lostLogger (w.svc j) = true ∨
      ∃ dep ∈ (w.svc j).deps, dep.soft = false ∧
        (run tell order w).isRunning dep.name = false := by
  obtain ⟨early, late, rfl⟩ := List.append_of_mem hj
  have hturn := ((along_append early (j :: late) w).mp halong).2.1
  -- it had not been told before
  have hsame : (run tell early w).svc j = w.svc j := by
    have hstop := hturn.notStopping
    rw [run_tell_svc] at hstop ⊢
    split at hstop
    · cases hstop
    · next hnot => rw [if_neg hnot]
  cases hturn with
  | inr hlost => exact .inl (hsame ▸ hlost)
  | inl hstranded =>
    obtain ⟨dep, hdep, hhard, hdown⟩ := hstranded.dep
    refine .inr ⟨dep, hsame ▸ hdep, hhard, Bool.eq_false_iff.mpr fun hup => ?_⟩
    rw [Transition.run_append] at hup
    exact absurd (hdown.symm.trans (run_tell_isRunning hup)) (by decide)

end

/-! ## The loop over the children -/

/-- No signal goes to this process group. -/
def Event.SparesGroup (pid : Int) (e : Event) : Prop := ∀ sig, e ≠ .kill (-pid) sig

/-- The service in slot `j` is as it was, and its process group has got no signal. -/
structure Untouched (j : Nat) (w w' : World) : Prop where
  svc : w'.svc j = w.svc j
  spared : 0 < (w.svc j).pid → Emits (Event.SparesGroup (w.svc j).pid) w.k w'.k

/-- One stretch after another. -/
theorem Untouched.trans {j : Nat} {w w₁ w' : World} (h : Untouched j w w₁)
    (h' : Untouched j w₁ w') : Untouched j w w' := by
  refine ⟨h'.svc.trans h.svc, fun hpid => ?_⟩
  have hlate := h'.spared (h.svc.symm ▸ hpid)
  rw [h.svc] at hlate
  exact IsTrans.trans _ _ _ (h.spared hpid) hlate

section

variable {w : World} {j : Nat} {pid status : Int}

/-- A call about a file sends no signal. -/
theorem Event.sparesGroup_file (e : Event) (h : e.isFile = true) : e.SparesGroup pid := by
  rintro sig rfl
  cases h

/-- The reaper only signals loggers. -/
theorem reapMain_sparesGroup (hpid : 0 < pid) (slot : Nat) (status t : Int) (s : Service) :
    AllEvents (Event.SparesGroup pid) (reapMain slot status t s) := by
  have hexit : AllEvents (Event.SparesGroup pid) (emit (.exited slot t s)) :=
    emit_allEvents nofun
  have hlogger : ∀ s, AllEvents (Event.SparesGroup pid) (stopExitedLogger s) := by
    intro s
    refine .ite (fun htest => ?_) fun _ => .pure trivial
    simp only [Bool.and_eq_true, decide_eq_true_eq] at htest
    -- a logger's pid is positive, so the signal goes to no group
    have hkill : Event.SparesGroup pid (.kill s.logPid sigterm) := by
      intro sig he
      have htarget := (Event.kill.inj he).1
      omega
    exact (emit_allEvents hkill).seq fun _ => .pure trivial
  exact hexit.seq fun _ => (runFinish_allEvents (fun _ => nofun) _).seq fun _ =>
    (hlogger _).seq fun _ => (writeStatusFile_allEvents Event.sparesGroup_file _).seq fun _ =>
      .pure trivial

/-- Reaping a child sends no signal to the group of a main process. -/
theorem reapChild_sparesGroup (hpid : 0 < pid) (child status : Int) (w : World) :
    Emits (Event.SparesGroup pid) w.k (reapChild child status w).2.k := by
  by_cases hchild : ∃ c ∈ w.k.children, c.pid = child
  · have hwait : Emits (Event.SparesGroup pid) w.k (w.k.afterWait child status) :=
      ⟨[.reaped child status], Kernel.afterWait_trace hchild, by simp [Event.SparesGroup]⟩
    rw [reapChild_child hchild]
    generalize w.k.afterWait child status = k at hwait
    simp only [reapRecord, Sup.get_bind]
    -- a logger's exit sends nothing; a main process's goes to its own record
    cases ({ w with k } : World).loggerSlot child with
    | some i => exact hwait
    | none =>
      dsimp only
      cases ({ w with k } : World).mainSlot child with
      | none => exact hwait
      | some i =>
        exact IsTrans.trans _ _ _ hwait ((reapMain_sparesGroup hpid i status k.clock _).rel k)
  · rw [reapChild_none hchild]
    exact Std.Refl.refl w.k

/-- The reaper leaves alone whose processes are not in the batch. -/
theorem reapLoop_untouched (ht : w.life.Tracked) (exits : List (Int × Int)) (need : Bool)
    (hown : ∀ e ∈ exits, e.1 ≠ (w.svc j).pid ∧ e.1 ≠ (w.svc j).logPid) :
    Untouched j w (reapLoop exits need w).2 := by
  -- by induction on the exits; the record stays the same, so the next exit is not its own either
  induction exits generalizing need w with
  | nil => exact ⟨rfl, fun _ => Std.Refl.refl w.k⟩
  | cons e exits ih =>
    obtain ⟨hpid, hlogPid⟩ := hown e List.mem_cons_self
    have hsvc := (reapChild_other ht hpid hlogPid e.2).svc
    have hone : Untouched j w (reapChild e.1 e.2 w).2 :=
      ⟨hsvc, fun hpos => reapChild_sparesGroup hpos e.1 e.2 w⟩
    have ht₁ : (reapChild e.1 e.2 w).2.life.Tracked :=
      ((reapChild_follows (S := anyKind) e.1 e.2).steps w).tracked ht
    rw [reapLoop_cons]
    cases (reapChild e.1 e.2 w).1 with
    | none => exact hone
    | some need' =>
      apply hone.trans
      apply ih ht₁
      rw [hsvc]
      exact fun e he => hown e (List.mem_cons_of_mem _ he)

end

/-! ## The batch -/

/-- The service in slot `j` has been told to stop because of its dependencies or its logger. -/
structure StoppedFor (j : Nat) (w w' : World) : Prop where
  told : w'.svc j = (w.svc j).told
  reason : lostLogger (w.svc j) = true ∨
    ∃ dep ∈ (w.svc j).deps, dep.soft = false ∧ w'.isRunning dep.name = false

/-- At the end the record is untouched, or the service is stopped for a reason. -/
theorem finishReap_isolated {w : World} (ht : w.life.Tracked) (need : Bool) (j : Nat) :
    Untouched j w (finishReap need w).2 ∨ StoppedFor j w (finishReap need w).2 := by
  obtain ⟨order, hrun, halong⟩ := finishReap_order need w
  rw [hrun]
  by_cases hj : j ∈ order
  · refine .inr ⟨?_, told_reason halong hj⟩
    rw [run_tell_svc, if_pos hj]
  · refine .inl ⟨?_, fun hpid => ?_⟩
    · rw [run_tell_svc, if_neg hj]
    · apply run_tell_emits Event.sparesGroup_file
      intro i hi sig he
      -- the processes of two services have two pids
      have htarget := (Event.kill.inj he).1
      have hpids : (w.svc i).pid = (w.svc j).pid := by omega
      have hposi : 0 < (w.svc i).pid := by omega
      have hmemi : ⟨(w.svc i).pid, .main i⟩ ∈ w.k.children := ht.main_mem hposi
      rw [hpids] at hmemi
      have hrole := ht.role_eq (ht.main_mem hpid) hmemi
      have hij : j = i := by simpa using hrole
      exact hj (hij.symm ▸ hi)

/-- In every reachable state and for every batch of exits: a service whose main process and whose
    logger are not in the batch is left alone, unless it runs without its logger or with a hard
    dependency that is not RUNNING any more; then it is told to stop, and nothing else. -/
theorem exits_isolated {w : World} (hw : Reachable w) (exits : List (Int × Int)) {j : Nat}
    (hown : ∀ e ∈ exits, e.1 ≠ (w.svc j).pid ∧ e.1 ≠ (w.svc j).logPid) :
    Untouched j w (reapChildren exits w).2 ∨ StoppedFor j w (reapChildren exits w).2 := by
  have ht := hw.accounted.tracked
  have hloop := reapLoop_untouched ht exits false hown
  have hend := finishReap_isolated (reapLoop_tracked exits false ht) (reapLoop exits false w).1 j
  show Untouched j w (finishReap _ (reapLoop exits false w).2).2 ∨
    StoppedFor j w (finishReap _ (reapLoop exits false w).2).2
  -- what the batch left alone may still be stopped at its end
  cases hend with
  | inl hsame => exact .inl (hloop.trans hsame)
  | inr hstopped =>
    refine .inr ⟨hloop.svc ▸ hstopped.told, ?_⟩
    have hreason := hstopped.reason
    rw [hloop.svc] at hreason
    exact hreason

/-- When `a` exits, `b`, which depends on it, is stopped. -/
theorem exits_isolated_b :
    StoppedFor 1 chainStarted (reapChildren [(126, 256)] chainStarted).2 := by
  have hown : ∀ e ∈ [((126 : Int), (256 : Int))],
      e.1 ≠ (chainStarted.svc 1).pid ∧ e.1 ≠ (chainStarted.svc 1).logPid := by decide +kernel
  have hstate : ((reapChildren [(126, 256)] chainStarted).2.svc 1).state ≠
      (chainStarted.svc 1).state := by decide +kernel
  have h := exits_isolated chainStarted_reachable [(126, 256)] hown
  exact h.resolve_left fun hsame => hstate (congrArg Service.state hsame.svc)

end SvcRs
