import SvcRs.Spec.Dependencies
import SvcRs.Spec.Pipes
import SvcRs.Spec.ScanEntry

/-!
# Which services a startup reaches

The services and their hard dependencies make up a graph, which nothing but adding and
removing services changes. A service becomes RUNNING only in the start pass, and only when
all its hard dependencies are RUNNING, so a service that hard-depends on a missing name or
on a cycle never does. Conversely one start pass reaches every service whose hard
dependencies are RUNNING, so `k` passes reach everything with shorter chains than `k`.

## Key results

- `exec_running`: a service becomes RUNNING only if its hard dependencies are
- `run_grounded`: what runs depends on nothing missing and on no cycle
- `turn_starts`: one start pass starts everything whose hard dependencies are up
- `loopTop_turn`: the main loop makes such turns
- `startup_reaches_grounded`: both directions, over all runs
-/

namespace SvcRs

open Relation (ReflTransGen TransGen)
open Transition (run Along Latches)
open DepGraph (Buildable Shallow)

/-! ## A fixed set of services -/

/-- The part of a record that the graph is made of. -/
def Core.node (c : Core) : Bool × Bytes × List Dependency := (c.active, c.name, c.deps)

/-- An exit changes neither the name nor the dependencies. -/
@[simp] theorem Core.exit_node (c : Core) (status t : Int) : (c.exit status t).node = c.node := by
  simp [node]

/-- Nor does a command. -/
@[simp] theorem Core.command_node (c : Core) (t : Int) (cmd : SvcCmd) :
    (c.command t cmd).node = c.node := by
  obtain ⟨_, _, _, _, _, _, he⟩ := c.command_frame t cmd
  rw [he]
  rfl

/-- The same services, with the same names and dependencies. -/
structure Life.SameServices (a b : Life) : Prop where
  size : b.size = a.size
  node : ∀ i, (b.core i).node = (a.core i).node

/-- The same services as before, and as before that. -/
theorem Life.SameServices.trans {a b c : Life} (h : a.SameServices b) (h' : b.SameServices c) :
    a.SameServices c :=
  ⟨h'.size.trans h.size, fun i => (h'.node i).trans (h.node i)⟩

/-- What changes the set of services. -/
def Event.reshapes : Event → Bool
  | .added _ | .removed _ => true
  | _ => false

section

variable {S : Kind → Prop} {a b c : Life} {i : Nat}

/-- Only the records matter. -/
theorem Life.SameServices.frame (h : a.SameServices b) (hsize : c.size = b.size)
    (hcore : c.core = b.core) : a.SameServices c :=
  ⟨hsize.trans h.size, fun i => hcore ▸ h.node i⟩

/-- A step that changes the record of slot `j`. -/
theorem Life.SameServices.put (h : a.SameServices b) {j : Nat} {d : Core}
    (hsize : c.size = b.size) (hcore : c.core = (b.put j d).core)
    (hd : d.node = (b.core j).node) : a.SameServices c := by
  refine ⟨hsize.trans h.size, fun i => ?_⟩
  rw [hcore, Life.put_core]
  split
  · next he => rw [hd, he, h.node]
  · exact h.node i

/-- Only adding and removing change the graph. -/
theorem LifeStep.sameServices (hstep : LifeStep S b c) :
    Latches Life.log (fun _ => True) a.SameServices (fun e => e.reshapes) (fun _ => False) b c := by
  refine ⟨id, ?_⟩
  -- everything but adding and removing leaves names and dependencies alone
  cases hstep with
  | tick => exact ⟨[], rfl, fun _ h _ => ⟨h.frame rfl rfl, by simp⟩⟩
  | forkFinish | reapOther | signalMain | signalLogger | raiseHup =>
    exact ⟨[_], rfl, fun _ h _ => ⟨h.frame rfl rfl, by simp⟩⟩
  | runCheck => exact ⟨[_, _], rfl, fun _ h _ => ⟨h.frame rfl rfl, by simp⟩⟩
  | unmark j d hd | retry j d hd | startFail j d hd =>
    subst hd
    exact ⟨[], rfl, fun _ h _ => ⟨h.put rfl rfl rfl, by simp⟩⟩
  | reapLogger j d hd | found j d hd | forkLogger j d hd =>
    subst hd
    exact ⟨[_], rfl, fun _ h _ => ⟨h.put rfl rfl rfl, by simp⟩⟩
  | tell j d hd =>
    subst hd
    exact ⟨[_], rfl, fun _ h _ => ⟨h.put (d := (b.core j).told) rfl rfl rfl, by simp⟩⟩
  | start j d hd hS pid t =>
    subst hd
    exact ⟨[_, _], rfl, fun _ h _ => ⟨h.put (d := (b.core j).start pid t) rfl rfl rfl, by simp⟩⟩
  | reapMain j d hd status t =>
    subst hd
    exact ⟨[_, _], rfl, fun _ h _ => ⟨h.put rfl rfl (Core.exit_node _ status t), by simp⟩⟩
  | command j d hd cmd t =>
    subst hd
    exact ⟨[_], rfl, fun _ h _ => ⟨h.put rfl rfl (Core.command_node _ t cmd), by simp⟩⟩
  -- these two log that the services have changed
  | add j | remove j =>
    refine ⟨[_], rfl, fun _ _ hrel => ?_⟩
    exact absurd rfl (hrel _ List.mem_cons_self)

/-- No command makes a service RUNNING. -/
theorem Core.running_of_command {c : Core} {t : Int} {cmd : SvcCmd}
    (h : (c.command t cmd).state = .running) : c.state = .running := by
  cases cmd with
  | start | up | once => exact h
  | stop | restart => cases h
  | down =>
    by_cases hpid : 0 < c.pid
    · rw [command, if_pos hpid] at h
      cases h
    · rwa [command, if_neg hpid] at h

/-- A step that changes the record of slot `j`. -/
theorem Life.running_of_put {j : Nat} {d : Core} (h : (c.core i).state = .running)
    (hcore : c.core = (b.put j d).core)
    (hd : d.state = .running → (b.core j).state = .running) : (b.core i).state = .running := by
  rw [hcore, Life.put_core] at h
  split at h
  · next he => exact he ▸ hd h
  · exact h

/-- Only a start makes a service RUNNING. -/
theorem LifeStep.running (hstep : LifeStep S b c) (h : (c.core i).state = .running) :
    (b.core i).state = .running ∨ S (.start i) := by
  cases hstep with
  | tick | forkFinish | reapOther | signalMain | signalLogger | raiseHup | runCheck => exact .inl h
  | reapLogger j d hd | unmark j d hd | found j d hd | retry j d hd | forkLogger j d hd =>
    subst hd
    exact .inl (Life.running_of_put h rfl id)
  -- a service that is stopped, removed or new is not RUNNING
  | tell j d hd =>
    exact .inl (Life.running_of_put (d := d.told) h rfl nofun)
  | remove j d hd | startFail j d hd =>
    exact .inl (Life.running_of_put h rfl nofun)
  | add j d hi hact hnew =>
    exact .inl (Life.running_of_put h rfl fun hrun => absurd (hnew.state.symm.trans hrun) nofun)
  | reapMain j d hd status t =>
    exact .inl (Life.running_of_put h rfl fun hrun => absurd hrun (d.exit_state status t).1)
  | command j d hd cmd t =>
    subst hd
    exact .inl (Life.running_of_put h rfl Core.running_of_command)
  -- only a start makes a service RUNNING, and only its own
  | start j d hd hS pid t =>
    by_cases hj : i = j
    · exact .inr (hj ▸ hS)
    · left
      rwa [Life.put_core, if_neg hj] at h

/-- A service that runs has been running, or it has been started. -/
theorem LifeSteps.running (hsteps : LifeSteps S b c) (h : (c.core i).state = .running) :
    (b.core i).state = .running ∨ S (.start i) := by
  induction hsteps with
  | refl => exact .inl h
  | tail _ hstep ih => exact (hstep.running h).elim ih .inr

end

/-! ## Safety -/

/-- Steps that add and remove nothing. -/
theorem Steps.sameServices {S : Kind → Prop} {w₀ w w' : World} (hsteps : Steps S w w')
    (h : w₀.life.SameServices w.life)
    (hset : ∀ e ∈ Transition.since w.k.log w'.k.log, e.reshapes = false) :
    w₀.life.SameServices w'.life := by
  have hlatch := Latches.of_steps (fun _ _ => LifeStep.sameServices (a := w₀.life)) hsteps
  exact (hlatch.since trivial h fun e he => by simp [hset e he]).1

/-- A service becomes RUNNING only in the start pass, when its hard dependencies are. -/
theorem exec_running {op : Op} {w : World} {i : Nat}
    (h : ((exec op w).svc i).state = .running) :
    (w.svc i).state = .running ∨ depsSatisfied w (w.svc i) = true := by
  rcases LifeSteps.running (exec_steps op w) h with hrun | hkind
  · exact .inl hrun
  -- of all operations, only a start of this slot may make it RUNNING
  · cases op with
    | start t j =>
      obtain rfl : i = j := hkind
      cases hdeps : depsSatisfied w (w.svc i) with
      | true => exact .inr rfl
      | false =>
        left
        simp only [exec, startSlot, Sup.get_bind, Sup.ite_apply, hdeps] at h
        split at h
        · simpa [retryLater] using h
        · exact h
    | _ => cases hkind

section

variable {w₀ w : World} (h : w₀.life.SameServices w.life)

include h

/-- The same slots are in use. -/
theorem Life.SameServices.active (i : Nat) : (w.svc i).active = (w₀.svc i).active :=
  congrArg Prod.fst (h.node i)

/-- With the same names. -/
theorem Life.SameServices.name (i : Nat) : (w.svc i).name = (w₀.svc i).name :=
  congrArg (fun n => n.2.1) (h.node i)

/-- And the same dependencies. -/
theorem Life.SameServices.deps (i : Nat) : (w.svc i).deps = (w₀.svc i).deps :=
  congrArg (fun n => n.2.2) (h.node i)

/-- The graph is the same. -/
theorem Life.SameServices.hardDep : HardDep w = HardDep w₀ := by
  have hsize : w.size = w₀.size := h.size
  funext i j
  simp only [HardDep, hsize, h.active, h.name, h.deps]

/-- The same dependencies are missing. -/
theorem Life.SameServices.missingDep : MissingDep w = MissingDep w₀ := by
  have hsize : w.size = w₀.size := h.size
  funext i
  simp only [MissingDep, hsize, h.active, h.name, h.deps]

/-- The names are still different. -/
theorem Life.SameServices.distinctNames (hnames : DistinctNames w₀) : DistinctNames w := by
  have hsize : w.size = w₀.size := h.size
  simpa only [DistinctNames, hsize, h.active, h.name] using hnames

end

/-- The services are those of `w₀`, and what runs was started after everything it
    hard-depends on. -/
structure World.RunsOver (w₀ w : World) : Prop where
  same : w₀.life.SameServices w.life
  built : ∀ i < w₀.size, (w₀.svc i).active = true → (w.svc i).state = .running →
    Buildable (HardDep w₀) (MissingDep w₀) i

/-- One operation. -/
theorem World.RunsOver.exec {w₀ w : World} (hnames : DistinctNames w₀) (h : w₀.RunsOver w) {op : Op}
    (hset : ∀ e ∈ logged [op] w, e.reshapes = false) : w₀.RunsOver (SvcRs.exec op w) := by
  refine ⟨(exec_steps op w).sameServices h.same hset, fun i hi hact hrun => ?_⟩
  rcases exec_running hrun with hrun | hdeps
  · exact h.built i hi hact hrun
  -- it was started, so its dependencies were running, and so were theirs
  · obtain ⟨hmissing, hdep⟩ := depsSatisfied_running (h.same.distinctNames hnames) hdeps
    rw [h.same.missingDep] at hmissing
    rw [h.same.hardDep] at hdep
    apply Buildable.intro i hmissing
    intro j hj
    have hrunj := hdep j hj
    obtain ⟨hlt, hactj, -⟩ := hj
    exact h.built j hlt hactj hrunj

/-- In a run over a fixed set of services that begins with nothing running, what runs
    hard-depends on nothing missing and on no cycle. -/
theorem run_grounded {w : World} (hnames : DistinctNames w)
    (hnone : ∀ i < w.size, (w.svc i).active = true → (w.svc i).state ≠ .running) {ops : List Op}
    (hset : ∀ e ∈ logged ops w, e.reshapes = false) {i : Nat} (hi : i < w.size)
    (hact : (w.svc i).active = true) (hrun : ((run SvcRs.exec ops w).svc i).state = .running) :
    Grounded w i := by
  have hinit : w.RunsOver w := ⟨⟨rfl, fun _ => rfl⟩, fun i hi hact hrun => absurd hrun (hnone i hi hact)⟩
  have hend : w.RunsOver (run SvcRs.exec ops w) :=
    Transition.run_invariant (fun _ _ h hset => h.exec hnames hset) hinit (along_logged hset)
  exact (hend.built i hi hact hrun).grounded

/-! ## One start -/

/-- What `start_service` leaves alone when it forks the main process. -/
structure KeptByStart (s s' : Service) : Prop where
  node : s'.core.node = s.core.node
  hasLog : s'.hasLog = s.hasLog
  logPid : s'.logPid = s.logPid

/-- The streams are attached, and nothing is said of the logger. -/
theorem attachStreams_hasLog (s : Service) (fds : StartFds) (k : Kernel) :
    (attachStreams s fds k).1.hasLog = s.hasLog := by
  unfold attachStreams
  split
  · rfl
  · exact (openLog_logOnly true _ _).hasLog.trans (openLog_logOnly false _ _).hasLog

/-- A start that fails. -/
theorem startFailed_kept (s : Service) (k : Kernel) : KeptByStart s (startFailed s k).1 :=
  ⟨rfl, rfl, rfl⟩

/-- The fork of the main process. -/
theorem forkMain_kept (slot : Nat) (s : Service) (fds : StartFds) (k : Kernel) :
    KeptByStart s (forkMain slot s fds k).1 := by
  simp only [forkMain, Sys.bind_apply]
  generalize (fork (.main slot) k).1 = pid
  generalize (closeChildEnds s fds (fork (.main slot) k).2).2 = k₁
  -- the child's start is written down, or its failure
  split
  · have hcore : (mainStarted slot s fds pid k₁).1.core = (s.started pid k₁.reading).core :=
      (attachStatus_calm (s.started pid k₁.reading) fds).post _
    have hlog : (mainStarted slot s fds pid k₁).1.hasLog = s.hasLog :=
      attachStreams_hasLog (s.started pid k₁.reading) fds _
    exact ⟨(congrArg Core.node hcore).trans rfl, hlog, congrArg Core.logPid hcore⟩
  · simp only [mainForkFailed]
    split <;> exact ⟨rfl, rfl, rfl⟩

/-- The part of a start after the logger. -/
theorem startMain_kept (slot : Nat) (s : Service) (out0 : Int) (k : Kernel) :
    KeptByStart s (startMain slot s out0 k).1 := by
  unfold startMain
  split
  · exact forkMain_kept slot s _ k
  · rw [Sys.bind_apply]
    cases (openPipes k).1 with
    | none => exact startFailed_kept s _
    | some fds => exact forkMain_kept slot s fds _

/-- A service that has a logger after the first part of a start has just got it. -/
theorem startLogger_logger (slot : Nat) (s : Service) (k : Kernel) :
    (startLogger slot s k).1.1.core.node = s.core.node ∧
      ((startLogger slot s k).1.1.hasLog = true → 0 < (startLogger slot s k).1.1.logPid) := by
  unfold startLogger
  split
  -- no logger is wanted
  · next hlog =>
    refine ⟨rfl, fun h => ?_⟩
    have hlog' : s.hasLog = true := h
    simp [hlog'] at hlog
  rw [Sys.bind_apply]
  split
  -- without `run`, pipe or child the record forgets about a logger
  · exact ⟨rfl, nofun⟩
  rw [Sys.bind_apply]
  cases (newPipe (access (joinPath s.dir "/log/run") .exec k).2).1 with
  | none => exact ⟨rfl, nofun⟩
  | some ends =>
    dsimp only
    rw [Sys.bind_apply]
    split
    -- the logger is there, and the record has its pid
    · next hpid => exact ⟨rfl, fun _ => hpid⟩
    · exact ⟨rfl, nofun⟩

/-- The guard of `start_service` lets a service pass that is due. -/
theorem startService_eq {slot : Nat} {s : Service} {t : Int} (hdue : startDue t s = true)
    (k : Kernel) : startService slot s k = (do
      let s ← prepareServiceEnv s
      let s ← closeReadEnds s
      let (s, out0) ← startLogger slot s
      startMain slot s out0 : Sys Service) k := by
  have hgo : (!s.active || !s.present || s.stopping || s.pid > 0) = false := by
    simp only [startDue, Bool.and_eq_true, Bool.not_eq_true', decide_eq_true_eq] at hdue
    simp [hdue.1.1.1.1.1, hdue.1.1.1.1.2, hdue.1.1.1.2, hdue.1.1.2]
  simp only [startService, hgo, Bool.false_eq_true, if_false]

/-- After a start, the service has the name and the dependencies it had, and its logger if it
    has one. -/
theorem startService_logger {slot : Nat} {s : Service} {t : Int} (hdue : startDue t s = true)
    (k : Kernel) :
    (startService slot s k).1.core.node = s.core.node ∧
      ((startService slot s k).1.hasLog = true → 0 < (startService slot s k).1.logPid) := by
  rw [startService_eq hdue]
  simp only [Sys.bind_apply]
  have hcore := ((closeReadEnds_calm _).post (prepareServiceEnv s k).2).trans
    ((prepareServiceEnv_calm s).post k)
  -- the calls before the logger leave the record's core alone
  generalize closeReadEnds (prepareServiceEnv s k).1 (prepareServiceEnv s k).2 = r at hcore ⊢
  obtain ⟨s₁, k₁⟩ := r
  obtain ⟨hnode, hlogger⟩ := startLogger_logger slot s₁ k₁
  generalize startLogger slot s₁ k₁ = r at hnode hlogger ⊢
  obtain ⟨⟨s₂, out0⟩, k₂⟩ := r
  obtain ⟨hnode', hlog', hpid'⟩ := startMain_kept slot s₂ out0 k₂
  refine ⟨hnode'.trans (hnode.trans (congrArg Core.node hcore)), ?_⟩
  rw [hlog', hpid']
  exact hlogger

/-! ## One pass -/

/-- The service is RUNNING, with its logger if it has one. -/
structure Service.Up (s : Service) : Prop where
  running : s.state = .running
  logger : s.hasLog = true → 0 < s.logPid

/-- The service waits for a start pass at time `t`. -/
structure Service.Waits (t : Int) (s : Service) : Prop where
  notStopping : s.stopping = false
  idle : s.pid ≤ 0
  elapsed : s.restartAt ≤ t
  autoStart : s.autoStart = true
  notOnce : s.once = false

/-- The service is up, or it waits. -/
def Service.Settled (t : Int) (s : Service) : Prop := s.Up ∨ s.Waits t

/-- A service that waits goes on waiting. -/
theorem Service.Settled.mono {s : Service} {t t' : Int} (h : s.Settled t) (ht : t ≤ t') :
    s.Settled t' :=
  h.imp_right fun hw => { hw with elapsed := Int.le_trans hw.elapsed ht }

/-- If the start pass calls `start_service` for slot `i`, the call succeeds. -/
def StartSucceeds (t : Int) (w : World) (i : Nat) : Prop :=
  startDue t (w.svc i) = true → depsSatisfied w (w.svc i) = true →
    ((startSlot t i w).2.svc i).state = .running

section

variable {t : Int} {i j : Nat} {w : World}

instance (t : Int) (w : World) (i : Nat) : Decidable (StartSucceeds t w i) :=
  inferInstanceAs (Decidable (_ → _ → _))

/-- What the start pass does at one slot. -/
theorem startSlot_cases (hok : StartSucceeds t w i) :
    (startDue t (w.svc i) = false ∧ (startSlot t i w).2 = w) ∨
      (startDue t (w.svc i) = true ∧ depsSatisfied w (w.svc i) = false ∧
        (startSlot t i w).2 = (onSlot i retryLater w).2) ∨
      (startDue t (w.svc i) = true ∧ depsSatisfied w (w.svc i) = true ∧
        (startSlot t i w).2 = (onSlot i (startService i) w).2 ∧
        ((startSlot t i w).2.svc i).Up) := by
  -- not due, waiting for a dependency, or started
  cases hdue : startDue t (w.svc i) with
  | false =>
    refine .inl ⟨rfl, ?_⟩
    simp only [startSlot, Sup.get_bind, hdue]
    rfl
  | true =>
    right
    cases hdeps : depsSatisfied w (w.svc i) with
    | false =>
      refine .inl ⟨rfl, rfl, ?_⟩
      simp only [startSlot, Sup.get_bind, hdue, hdeps]
      rfl
    | true =>
      have hstart : (startSlot t i w).2 = (onSlot i (startService i) w).2 := by
        simp only [startSlot, Sup.get_bind, hdue, hdeps]
        rfl
      refine .inr ⟨rfl, rfl, hstart, hok hdue hdeps, ?_⟩
      rw [hstart, onSlot_svc, if_pos rfl]
      exact (startService_logger hdue w.k).2

/-- A start pass at one slot leaves the other records alone. -/
theorem startSlot_other (h : j ≠ i) : (startSlot t i w).2.svc j = w.svc j := by
  simp only [startSlot, Sup.get_bind, Sup.ite_apply]
  split
  · split
    · exact if_neg h
    · exact if_neg h
  · rfl

/-- It adds and removes nothing. -/
theorem startSlot_sameServices (t : Int) (i : Nat) (w : World) :
    w.life.SameServices (startSlot t i w).2.life := by
  -- neither the retry nor the start writes name, activity or dependencies
  have hnode : ((startSlot t i w).2.svc i).core.node = (w.svc i).core.node := by
    simp only [startSlot, Sup.get_bind, Sup.ite_apply]
    split
    · next hdue =>
      split
      · rw [onSlot_svc, if_pos rfl]
        rfl
      · rw [onSlot_svc, if_pos rfl]
        exact (startService_logger hdue w.k).1
    · rfl
  constructor
  · show (startSlot t i w).2.size = w.size
    simp only [startSlot, Sup.get_bind, Sup.ite_apply]
    split
    · split <;> rfl
    · rfl
  -- every other slot is as it was
  · intro j
    by_cases hj : j = i
    · exact hj ▸ hnode
    · exact congrArg (fun s : Service => s.core.node) (startSlot_other hj)

/-- What is up stays up. -/
theorem startSlot_up (hok : StartSucceeds t w i) (h : (w.svc j).Up) :
    ((startSlot t i w).2.svc j).Up := by
  by_cases hj : j = i
  · subst hj
    rcases startSlot_cases hok with ⟨-, he⟩ | ⟨-, -, he⟩ | ⟨-, -, -, hup⟩
    · rw [he]
      exact h
    · rw [he, onSlot_svc, if_pos rfl]
      exact ⟨h.running, h.logger⟩
    · exact hup
  · rw [startSlot_other hj]
    exact h

/-- A service that cannot be started yet is retried a second later. -/
theorem startSlot_settled (ht : t ≤ w.k.clock) (hok : StartSucceeds t w i)
    (h : (w.svc j).Settled (w.k.clock + 1)) :
    ((startSlot t i w).2.svc j).Settled ((startSlot t i w).2.k.clock + 1) := by
  have hclock : w.k.clock ≤ (startSlot t i w).2.k.clock :=
    (startSlot_steps (S := anyKind) trivial w ht).clock_le
  -- it is up, or it waits for a time that has come by the next second
  rcases h with hup | hwaits
  · exact .inl (startSlot_up hok hup)
  have hlater : w.k.clock + 1 ≤ (startSlot t i w).2.k.clock + 1 := by omega
  by_cases hj : j = i
  · subst hj
    rcases startSlot_cases hok with ⟨-, he⟩ | ⟨-, -, he⟩ | ⟨-, -, -, hup⟩
    · rw [he]
      exact .inr hwaits
    · rw [he, onSlot_svc, if_pos rfl]
      -- `mono_now() + 1` does not wrap, as the clock stays below the largest i64
      have hretry : i64 (w.k.reading + 1) ≤ w.k.reading + 1 := by
        have hnonneg := (monoNow w.k).2.clockNonneg
        rw [monoNow_clock] at hnonneg
        simp only [i64]
        omega
      exact .inr { hwaits with elapsed := hretry }
    · exact .inl hup
  · rw [startSlot_other hj]
    exact .inr { hwaits with elapsed := Int.le_trans hwaits.elapsed hlater }

/-- The start pass at time `t` can start the service in slot `i`: it waits, and all its hard
    dependencies are up. -/
structure Startable (t : Int) (w : World) (i : Nat) : Prop where
  active : (w.svc i).active = true
  present : (w.svc i).present = true
  waits : (w.svc i).Waits t
  complete : ¬MissingDep w i
  dep : ∀ j, HardDep w i j → (w.svc j).Up

/-- A service that can be started is due. -/
theorem Startable.startDue (h : Startable t w i) : startDue t (w.svc i) = true := by
  have hw := h.waits
  simp [SvcRs.startDue, h.active, h.present, hw.notStopping, hw.idle, hw.elapsed, hw.autoStart,
    hw.notOnce]

/-- If the start succeeds, the service is up. -/
theorem Startable.started (h : Startable t w i) (hok : StartSucceeds t w i) :
    ((startSlot t i w).2.svc i).Up := by
  have hdeps := depsSatisfied_of_running h.complete fun j hj => (h.dep j hj).running
  rcases startSlot_cases hok with ⟨hdue, -⟩ | ⟨-, hno, -⟩ | ⟨-, -, -, hup⟩
  · exact absurd h.startDue (by simp [hdue])
  · exact absurd hdeps (by simp [hno])
  · exact hup

/-- It stays so until the pass gets to it. -/
theorem Startable.other (h : Startable t w i) (hok : StartSucceeds t w j) (hne : i ≠ j) :
    Startable t (startSlot t j w).2 i := by
  have hsame := startSlot_sameServices t j w
  have hsvc := startSlot_other (t := t) (w := w) hne
  refine ⟨hsvc ▸ h.active, hsvc ▸ h.present, hsvc ▸ h.waits, hsame.missingDep ▸ h.complete, ?_⟩
  rw [hsame.hardDep]
  exact fun l hl => startSlot_up hok (h.dep l hl)

/-! The pass goes through the slots. -/

/-- A loop over slots as a run. -/
theorem forSlots_run (body : Nat → Sup Unit) (is : List Nat) (w : World) :
    (forSlots body is w).2 = run (fun i w => (body i w).2) is w := by
  induction is generalizing w with
  | nil => rfl
  | cons i is ih => exact ih (body i w).2

/-- All calls of `start_service` in a pass over `is` succeed. -/
abbrev PassSucceeds (t : Int) : List Nat → World → Prop :=
  Along (fun i w => (startSlot t i w).2) (StartSucceeds t)

/-- A service that is up stays up. -/
theorem pass_up {is : List Nat} (hok : PassSucceeds t is w) (h : (w.svc j).Up) :
    ((forSlots (startSlot t) is w).2.svc j).Up := by
  rw [forSlots_run]
  exact Transition.run_invariant (I := fun w => (w.svc j).Up)
    (fun _ _ h hok => startSlot_up hok h) h hok

/-- A service that can be started at the beginning of the pass is up at its end. -/
theorem pass_starts {is : List Nat} (hok : PassSucceeds t is w) (hi : i ∈ is)
    (h : Startable t w i) : ((forSlots (startSlot t) is w).2.svc i).Up := by
  induction is generalizing w with
  | nil => cases hi
  | cons j is ih =>
    obtain ⟨hslot, hrest⟩ := hok
    have hrest : PassSucceeds t is (startSlot t j w).2 := hrest
    by_cases hj : i = j
    · subst hj
      exact pass_up (w := (startSlot t i w).2) hrest (h.started hslot)
    · have hmem : i ∈ is := (List.mem_cons.mp hi).resolve_left hj
      exact ih hrest hmem (h.other hslot hj)

/-- After a pass everything is up or waits for the next one. -/
theorem pass_settled {is : List Nat} (ht : t ≤ w.k.clock) (hok : PassSucceeds t is w)
    (h : (w.svc j).Settled t) :
    ((forSlots (startSlot t) is w).2.svc j).Settled ((forSlots (startSlot t) is w).2.k.clock + 1) := by
  rw [forSlots_run]
  have hinit : t ≤ w.k.clock ∧ (w.svc j).Settled (w.k.clock + 1) := ⟨ht, h.mono (by omega)⟩
  refine (Transition.run_invariant
    (I := fun w => t ≤ w.k.clock ∧ (w.svc j).Settled (w.k.clock + 1)) ?_ hinit hok).2
  intro w i h hok
  have hclock := (startSlot_steps (S := anyKind) (i := i) trivial w h.1).clock_le
  exact ⟨Int.le_trans h.1 hclock, startSlot_settled h.1 hok h.2⟩

/-- A whole pass adds and removes nothing. -/
theorem pass_sameServices (t : Int) (is : List Nat) (w : World) :
    w.life.SameServices (forSlots (startSlot t) is w).2.life := by
  induction is generalizing w with
  | nil => exact ⟨rfl, fun _ => rfl⟩
  | cons i is ih => exact (startSlot_sameServices t i w).trans (ih (startSlot t i w).2)

end

/-! ## Between two passes -/

/-- What the supervisor does between two start passes while nothing exits, no command arrives
    and the scans meet every service. -/
def Op.Idle (w : World) : Op → Prop
  | .logDeath _ | .readClock | .unmark _ | .scanEntry _ | .signals _ | .output .. | .wait .. => True
  | .missing i => (w.svc i).active = true → (w.svc i).present = true
  | _ => False

instance Op.Idle.decidable (w : World) : (op : Op) → Decidable (op.Idle w)
  | .logDeath _ | .readClock | .unmark _ | .scanEntry _ | .signals _ | .output .. | .wait .. =>
    isTrue trivial
  | .missing _ => inferInstanceAs (Decidable (_ → _))
  | .reapChild .. | .stopDeps | .start .. | .request _ | .stopAll | .killRemaining _ =>
    isFalse id

/-- Only what a scan does has happened to the record. -/
structure Service.Scanned (s s' : Service) : Prop where
  core : ∃ present stopping, s'.core = { s.core with present, stopping } ∧
    (stopping = s.stopping ∨ stopping = false)
  hasLog : s'.hasLog = s.hasLog

namespace Service

variable {s s' : Service}

/-- Nothing happens. -/
theorem Scanned.refl (s : Service) : s.Scanned s := ⟨⟨s.present, s.stopping, rfl, .inl rfl⟩, rfl⟩

/-- The life cycle and the logger are what matters. -/
theorem Scanned.of_core (hcore : s'.core = s.core) (hlog : s'.hasLog = s.hasLog) : s.Scanned s' :=
  ⟨⟨s.present, s.stopping, hcore, .inl rfl⟩, hlog⟩

/-- A scan changes no state. -/
theorem Scanned.state (h : s.Scanned s') : s'.state = s.state := by
  obtain ⟨⟨present, stopping, hcore, -⟩, -⟩ := h
  exact congrArg Core.state hcore

/-- A service that is up is found up. -/
theorem Scanned.up (h : s.Scanned s') (hup : s.Up) : s'.Up := by
  have hstate := h.state
  obtain ⟨⟨present, stopping, hcore, -⟩, hlog⟩ := h
  constructor
  · exact hstate.trans hup.running
  · intro hlogger
    have hpid : s'.logPid = s.logPid := congrArg Core.logPid hcore
    exact hpid ▸ hup.logger (hlog ▸ hlogger)

/-- A service that waits is found waiting. -/
theorem Scanned.waits {t : Int} (h : s.Scanned s') (hw : s.Waits t) : s'.Waits t := by
  obtain ⟨⟨present, stopping, hcore, hstop⟩, -⟩ := h
  have hstopping : s'.stopping = stopping := congrArg Core.stopping hcore
  have hpid : s'.pid = s.pid := congrArg Core.pid hcore
  have hat : s'.restartAt = s.restartAt := congrArg Core.restartAt hcore
  constructor
  -- a scan sets `stopping` to false, or leaves it
  · rcases hstop with he | he
    · exact hstopping.trans (he.trans hw.notStopping)
    · exact hstopping.trans he
  · exact hpid ▸ hw.idle
  · exact hat ▸ hw.elapsed
  · exact (congrArg Core.autoStart hcore).trans hw.autoStart
  · exact (congrArg Core.once hcore).trans hw.notOnce

/-- A service that is settled is found settled. -/
theorem Scanned.settled {t : Int} (h : s.Scanned s') (hs : s.Settled t) : s'.Settled t :=
  hs.imp h.up h.waits

/-- A settled service has not lost its logger. -/
theorem Settled.not_lost {t : Int} (h : s.Settled t) : lostLogger s = false := by
  rcases h with hup | hw
  · cases hlog : s.hasLog with
    | false => simp [lostLogger, hlog]
    | true => simp [lostLogger, hup.logger hlog]
  · simp [lostLogger, Int.not_lt.mpr hw.idle]

end Service

/-- Calm computations that leave `has_log` alone. -/
abbrev KeepsHasLog (s : Service) (m : Sys Service) : Prop := Calm m fun s' => s'.hasLog = s.hasLog

/-- Reading the output says nothing of the logger. -/
theorem drainStream_hasLog (err : Bool) (reads : List ReadResult) (s : Service) :
    KeepsHasLog s (drainStream err reads s) := by
  induction reads generalizing s with
  | nil => exact .pure rfl
  | cons r reads ih =>
    unfold drainStream
    apply StateM.Keeps.ite
    · exact fun _ => .pure rfl
    intro _
    -- end of file and errors close the read end alike
    have hclose : KeepsHasLog s (do
        closeFd (s.stream err).readFd
        return s.setStream err { s.stream err with readFd := -1 }) :=
      (closeFd_calm _).seq fun _ => .pure (by cases err <;> rfl)
    cases r with
    | eof | error => exact hclose
    | eintr => exact ih s
    | eagain => exact .pure rfl
    | data b =>
      cases b with
      | nil => exact hclose
      | cons c rest =>
        have hwrite : KeepsHasLog s (writeLog err ((c :: rest).take ioBuf) s) := fun k _ =>
          ⟨(writeLog_calm err _ s).rel k, (writeLog_logOnly err _ s k).hasLog⟩
        apply StateM.Keeps.iteBind (Q := fun s₁ => s₁.hasLog = s.hasLog) (fun _ => .pure rfl)
          fun _ => hwrite
        intro s₁ h₁
        exact .ite (fun _ => .pure h₁) fun _ => (ih s₁).weaken fun _ h => h.trans h₁

/-- A scan does not look for a logger again. -/
theorem foundService_hasLog (slot : Nat) (s : Service) (k : Kernel) :
    (foundService slot s k).1.hasLog = s.hasLog := by
  -- neither user and group nor the environment touch `has_log`
  have huser : ∀ s : Service, KeepsHasLog s (parseUserGroup s) := by
    intro s
    apply (parseIdFile_calm _ resolveUid_calm).seq
    intro uid
    apply (parseIdFile_calm _ resolveGid_calm).seq
    intro gid
    apply StateM.Keeps.pure
    cases uid <;> cases gid <;> rfl
  have henv : ∀ s : Service, KeepsHasLog s (readEnv s) := by
    intro s
    apply (readFileToBuf_calm _ envBuf).seq
    intro data
    rcases data with _ | _ | ⟨c, rest⟩ <;> exact .pure rfl
  have hprepare : ∀ s : Service, KeepsHasLog s (prepareServiceEnv s) := fun s =>
    (henv s).bind fun _ h => (access_calm _ _).seq fun _ => .pure h
  exact ((hprepare _).post _).trans ((huser { s with present := true, stopping := false }).post _)

/-- The record in an active slot after one entry of a listing. -/
theorem scanEntry_svc (name : Bytes) (w : World) {j : Nat} (hact : (w.svc j).active = true) :
    (scanEntry name w).2.svc j = w.svc j ∨
      ∃ k, (scanEntry name w).2.svc j = (foundService j (w.svc j) k).1 := by
  unfold scanEntry
  split
  · exact .inl rfl
  simp only [Sup.get_bind]
  rw [Sup.bind_apply]
  split
  · cases findServiceByDir w (serviceDir w.root name) with
    | some i =>
      dsimp only
      rw [onSlot_svc]
      split
      · next he => exact .inr (he ▸ ⟨_, rfl⟩)
      · exact .inl rfl
    | none =>
      left
      simp only [addService, Sup.get_bind]
      cases hfree : (liftSys (access (joinPath (serviceDir w.root name).bytes "/run") .exec)
          w).2.findSlot fun s => !s.active with
      | none => rfl
      | some i =>
        -- the free slot is not the one of an active service
        have hfound : (!(w.svc i).active) = true := (World.findSlot_some hfree).2
        have hidle : (w.svc i).active = false := by simpa using hfound
        have hne : j ≠ i := fun he => by simp [he, hidle] at hact
        dsimp only
        rw [onSlot_svc, if_neg hne]
        rfl
  · exact .inl rfl

/-- Between two passes a service is at most scanned. -/
theorem Op.Idle.scanned {op : Op} {w : World} (hop : op.Idle w) {j : Nat}
    (hlost : op = .logDeath j → lostLogger (w.svc j) = false) (hact : (w.svc j).active = true) :
    (w.svc j).Scanned ((exec op w).svc j) := by
  -- a function on some record concerns this one or another one
  have hslot : ∀ {i : Nat} {f : Service → Sys Service},
      (j = i → (w.svc j).Scanned (f (w.svc j) w.k).1) →
        (w.svc j).Scanned ((onSlot i f w).2.svc j) := by
    intro i f h
    rw [onSlot_svc]
    split
    · next he => exact he ▸ h he
    · exact .refl _
  cases op with
  | readClock | signals | wait => exact .refl _
  | logDeath i =>
    simp only [exec, killOnLogDeath, Sup.get_bind, Sup.ite_apply]
    split
    · next hlogger =>
      refine hslot fun he => ?_
      have hkept := hlost (by rw [he])
      rw [he, hlogger] at hkept
      cases hkept
    · exact .refl _
  | unmark i =>
    simp only [exec, unmarkPresent, Sup.get_bind, Sup.ite_apply]
    split
    · exact hslot fun _ => ⟨⟨false, (w.svc j).stopping, rfl, .inl rfl⟩, rfl⟩
    · exact .refl _
  | output i err reads =>
    simp only [exec, drainOutput, Sup.get_bind, Sup.ite_apply]
    split
    · exact hslot fun _ => .of_core ((drainStream_calm err reads _).post w.k)
        ((drainStream_hasLog err reads _).post w.k)
    · exact .refl _
  | missing i =>
    -- no directory is missing
    have hstays : (missingSlot i w).2 = w := by
      simp only [missingSlot, Sup.get_bind, Sup.ite_apply]
      rw [if_neg]
      · rfl
      · intro h
        simp only [Bool.and_eq_true, Bool.not_eq_true'] at h
        exact absurd (hop h.1) (by simp [h.2])
    simp only [exec, hstays]
    exact .refl _
  | scanEntry name =>
    simp only [exec]
    rcases scanEntry_svc name w hact with he | ⟨k, he⟩
    · rw [he]
      exact .refl _
    · rw [he]
      exact ⟨⟨true, false, foundService_core j _ k, .inr rfl⟩, foundService_hasLog j _ k⟩
  | reapChild | stopDeps | start | request | stopAll | killRemaining => cases hop

/-! ## Turns -/

/-- What the supervisor does up to the end of one start pass: the operations since the pass
    before, and the clock reading of this one. -/
structure Turn where
  between : List Op
  t : Int

/-- The state at the beginning of the start pass. -/
def Turn.before (p : Turn) (w : World) : World := run exec p.between w

/-- A turn of the loop: what happens before the start pass, and the pass. -/
def turn (p : Turn) (w : World) : World := (startPass p.t (p.before w)).2

/-- Nothing exits and no command arrives, the scans meet the services that there are and no
    others, the pass begins at `earliest` or later, and every start succeeds. -/
structure Turn.Smooth (earliest : Int) (p : Turn) (w : World) : Prop where
  idle : Along exec (fun w op => op.Idle w) p.between w
  same : ∀ e ∈ logged p.between w, e.reshapes = false
  present : ∀ i < w.size, (w.svc i).active = true → ((p.before w).svc i).present = true
  elapsed : earliest ≤ p.t
  reading : p.t ≤ (p.before w).k.clock
  succeeds : PassSucceeds p.t (p.before w).slots (p.before w)

/-- Smooth turns, each of which begins its start pass at least one second after the one before
    has ended. -/
def Spaced (earliest : Int) : List Turn → World → Prop
  | [], _ => True
  | p :: ps, w => p.Smooth earliest w ∧ Spaced ((turn p w).k.clock + 1) ps (turn p w)

instance (earliest : Int) (p : Turn) (w : World) : Decidable (p.Smooth earliest w) :=
  decidable_of_iff
    (Along exec (fun w op => op.Idle w) p.between w ∧
      (∀ e ∈ logged p.between w, e.reshapes = false) ∧
      (∀ i < w.size, (w.svc i).active = true → ((p.before w).svc i).present = true) ∧
      earliest ≤ p.t ∧ p.t ≤ (p.before w).k.clock ∧
      PassSucceeds p.t (p.before w).slots (p.before w))
    ⟨fun ⟨h₁, h₂, h₃, h₄, h₅, h₆⟩ => ⟨h₁, h₂, h₃, h₄, h₅, h₆⟩,
      fun ⟨h₁, h₂, h₃, h₄, h₅, h₆⟩ => ⟨h₁, h₂, h₃, h₄, h₅, h₆⟩⟩

instance Spaced.decidable (earliest : Int) :
    (turns : List Turn) → (w : World) → Decidable (Spaced earliest turns w)
  | [], _ => isTrue trivial
  | p :: ps, w =>
    have := Spaced.decidable ((turn p w).k.clock + 1) ps (turn p w)
    inferInstanceAs (Decidable (_ ∧ _))

/-- Every service is up or waits for a start pass at time `t`. -/
def World.Settled (t : Int) (w : World) : Prop :=
  ∀ i < w.size, (w.svc i).active = true → (w.svc i).Settled t

section

variable {w : World} {p : Turn} {t : Int}

/-- What the operations between two passes preserve. -/
structure Held (t : Int) (w₀ w : World) : Prop where
  same : w₀.life.SameServices w.life
  settled : w.Settled t
  up : ∀ i < w₀.size, (w₀.svc i).active = true → (w₀.svc i).Up → (w.svc i).Up

/-- One operation that is idle. -/
theorem Held.exec {w₀ w : World} (h : Held t w₀ w) {op : Op} (hop : op.Idle w)
    (hset : ∀ e ∈ logged [op] w, e.reshapes = false) : Held t w₀ (SvcRs.exec op w) := by
  have hsize : w.size = w₀.size := h.same.size
  have hsame := (exec_steps op w).sameServices h.same hset
  have hsize' : (SvcRs.exec op w).size = w₀.size := hsame.size
  -- each record has only been scanned, if anything
  have hscanned : ∀ i < w₀.size, (w₀.svc i).active = true →
      (w.svc i).Scanned ((SvcRs.exec op w).svc i) := by
    intro i hi hact
    have hact' : (w.svc i).active = true := (h.same.active i).trans hact
    exact hop.scanned (fun _ => (h.settled i (hsize ▸ hi) hact').not_lost) hact'
  refine ⟨hsame, fun i hi hact => ?_, fun i hi hact hup => ?_⟩
  · rw [hsize'] at hi
    rw [hsame.active] at hact
    have hold := h.settled i (hsize ▸ hi) ((h.same.active i).trans hact)
    exact (hscanned i hi hact).settled hold
  · exact (hscanned i hi hact).up (h.up i hi hact hup)

/-- What happens before the start pass of a smooth turn. -/
theorem Turn.Smooth.held (h : p.Smooth t w) (hsettled : w.Settled t) :
    Held t w (p.before w) := by
  have hinit : Held t w w := ⟨⟨rfl, fun _ => rfl⟩, hsettled, fun _ _ _ hup => hup⟩
  exact Transition.run_invariant (fun _ _ h hop => h.exec hop.1 hop.2) hinit
    (h.idle.and (along_logged h.same))

/-- After a smooth turn everything is up or waits for the next pass. -/
theorem turn_settled (h : p.Smooth t w) (hsettled : w.Settled t) :
    (turn p w).Settled ((turn p w).k.clock + 1) := by
  have hheld := h.held hsettled
  intro i hi hact
  have hsame := pass_sameServices p.t (p.before w).slots (p.before w)
  have hsize : (turn p w).size = (p.before w).size := hsame.size
  have hold := hheld.settled i (hsize ▸ hi) ((hsame.active i).symm.trans hact)
  exact pass_settled h.reading h.succeeds (hold.mono h.elapsed)

/-- A smooth turn adds and removes nothing. -/
theorem turn_sameServices (h : p.Smooth t w) (hsettled : w.Settled t) :
    w.life.SameServices (turn p w).life :=
  (h.held hsettled).same.trans (pass_sameServices p.t (p.before w).slots (p.before w))

/-- The start pass of a smooth turn starts every service whose hard dependencies are up. -/
theorem turn_starts (h : p.Smooth t w) (hsettled : w.Settled t) {i : Nat} (hi : i < w.size)
    (hact : (w.svc i).active = true) (hcomplete : ¬MissingDep w i)
    (hdep : ∀ j, HardDep w i j → (w.svc j).Up) : ((turn p w).svc i).Up := by
  have hheld := h.held hsettled
  have hsize : (p.before w).size = w.size := hheld.same.size
  have hact' : ((p.before w).svc i).active = true := (hheld.same.active i).trans hact
  have hmem : i ∈ (p.before w).slots := List.mem_range.mpr (hsize.symm ▸ hi)
  -- it was up before the pass, or it waits and the pass starts it
  rcases hheld.settled i (hsize.symm ▸ hi) hact' with hup | hwaits
  · exact pass_up h.succeeds hup
  · apply pass_starts h.succeeds hmem
    refine ⟨hact', h.present i hi hact, { hwaits with elapsed := Int.le_trans hwaits.elapsed h.elapsed },
      hheld.same.missingDep ▸ hcomplete, ?_⟩
    rw [hheld.same.hardDep]
    -- its dependencies were up already, and nothing stops them
    intro j hj
    have hupj := hdep j hj
    obtain ⟨hlt, hactj, -⟩ := hj
    exact hheld.up j hlt hactj hupj

/-- By induction on the turns: if every service with shorter chains than `n` is up, then after
    `k` turns every service with shorter chains than `n + k` is. -/
theorem spaced_starts {turns : List Turn} {n : Nat} (hspaced : Spaced t turns w)
    (hsettled : w.Settled t)
    (hup : ∀ i, Grounded w i → Shallow (HardDep w) n i → i < w.size → (w.svc i).active = true →
      (w.svc i).Up) {i : Nat} (hgrounded : Grounded w i)
    (hshallow : Shallow (HardDep w) (n + turns.length) i) (hi : i < w.size)
    (hact : (w.svc i).active = true) : ((run turn turns w).svc i).Up := by
  induction turns generalizing t w n with
  | nil => exact hup i hgrounded hshallow hi hact
  | cons p ps ih =>
    obtain ⟨hsmooth, hrest⟩ := hspaced
    have hsame := turn_sameServices hsmooth hsettled
    have hsize : (turn p w).size = w.size := hsame.size
    have hlen : n + (p :: ps).length = n + 1 + ps.length := by
      rw [List.length_cons]
      omega
    rw [hlen] at hshallow
    apply ih hrest (turn_settled hsmooth hsettled)
    · simp only [Grounded, hsame.hardDep, hsame.missingDep, hsame.active, hsize]
      intro j hj hjs
      -- the start pass is one round
      have hround : ∀ j, Grounded w j →
          (∀ l, HardDep w j l → l < w.size → (w.svc l).active = true → (w.svc l).Up) →
          j < w.size → (w.svc j).active = true → ((turn p w).svc j).Up := by
        intro j hj hdep hlt hactj
        apply turn_starts hsmooth hsettled hlt hactj (hj.complete j .refl)
        intro l hl
        have hupl := hdep l hl
        obtain ⟨hltl, hactl, -⟩ := hl
        exact hupl hltl hactl
      exact DepGraph.Grounded.round hround hup hj hjs
    · simpa only [Grounded, hsame.hardDep, hsame.missingDep] using hgrounded
    · simpa only [hsame.hardDep] using hshallow
    · exact hsize.symm ▸ hi
    · exact (hsame.active i).trans hact

end

/-! ## The main loop makes turns -/

/-- The table keeps its size. -/
theorem run_size (ops : List Op) (w : World) : (run exec ops w).size = w.size :=
  LifeSteps.invariant (I := fun a => a.size = w.size) (fun a b hstep ha => by cases hstep <;> exact ha)
    (Performs.steps ⟨ops, rfl⟩) rfl

/-- A loop whose body is an operation is a run. -/
theorem forSlots_exec {body : Nat → Sup Unit} (op : Nat → Op)
    (h : ∀ i w, (body i w).2 = exec (op i) w) (is : List Nat) (w : World) :
    (forSlots body is w).2 = run exec (is.map op) w := by
  induction is generalizing w with
  | nil => rfl
  | cons i is ih =>
    show (forSlots body is (body i w).2).2 = run exec (is.map op) (exec (op i) w)
    rw [h, ih]

/-- The `readdir` loop as operations. -/
theorem scanEntries_exec (names : List Bytes) (w : World) :
    (scanEntries names w).2 = run exec (names.map .scanEntry) w := by
  induction names generalizing w with
  | nil => rfl
  | cons name names ih => exact ih (scanEntry name w).2

/-- The operations of a scan of a table with `size` slots. -/
def scanOps (size : Nat) : Option (List Bytes) → List Op
  | none => []
  | some names =>
    (List.range size).map .unmark ++ names.map .scanEntry ++ (List.range size).map .missing

/-- A scan as operations. -/
theorem rescan_exec (listing : Option (List Bytes)) (w : World) :
    (rescan listing w).2 = run exec (scanOps w.size listing) w := by
  cases listing with
  | none => rfl
  | some names =>
    -- the scan marks all slots as missing, then meets the entries
    have hunmark : (forSlots unmarkPresent w.slots w).2 = run exec (w.slots.map .unmark) w :=
      forSlots_exec .unmark (fun _ _ => rfl) w.slots w
    have hscan : (scanServices names w).2 =
        run exec (w.slots.map .unmark ++ names.map .scanEntry) w := by
      rw [Transition.run_append, ← hunmark, ← scanEntries_exec]
      rfl
    have hmissing : (handleMissingServices (scanServices names w).2).2 =
        run exec ((scanServices names w).2.slots.map .missing) (scanServices names w).2 :=
      forSlots_exec .missing (fun _ _ => rfl) _ _
    -- the number of slots does not change meanwhile
    have hslots : (scanServices names w).2.slots = List.range w.size := by
      rw [hscan, World.slots, run_size]
    rw [hslots, hscan] at hmissing
    rw [scanOps, Transition.run_append]
    rw [World.slots] at hscan hmissing
    rw [← hmissing, ← hscan]
    rfl

/-- The table when the reaper has reaped and, if need be, told the dependents. -/
def afterReap (exits : List (Int × Int)) (w : World) : World :=
  let r := reapLoop exits false w
  if r.1 then (stopTransitiveDeps r.2).2 else r.2

/-- Then the main loop looks for lost loggers and reads the clock. -/
def lookOps (w : World) : List Op := w.slots.map .logDeath ++ [.readClock]

/-- After that it may scan, and it makes a start pass with the clock reading. -/
def loopTurn (p : Pass) (m : MainState) : Turn :=
  let w := afterReap p.exits m.world
  let t := (run exec (lookOps w) w).k.clock
  { between :=
      lookOps w ++ if t ≥ m.nextScan || m.reloadNeeded then scanOps w.size p.listing else []
    t }

/-- The second half of the reaper as operations. -/
theorem reapChildren_exec (exits : List (Int × Int)) (w : World) :
    (reapChildren exits w).2 =
      run exec ((afterReap exits w).slots.map .logDeath) (afterReap exits w) := by
  have hlook : ∀ is w, (forSlots killOnLogDeath is w).2 = run exec (is.map .logDeath) w :=
    forSlots_exec .logDeath fun _ _ => rfl
  rw [← hlook]
  simp only [reapChildren, finishReap, Sup.bind_apply, afterReap]
  generalize reapLoop exits false w = r
  obtain ⟨need, w₁⟩ := r
  cases need <;> rfl

/-- The first half of a pass of the main loop is a turn. -/
theorem loopTop_turn (p : Pass) (m : MainState) :
    (loopTop p m).world = turn (loopTurn p m) (afterReap p.exits m.world) := by
  have hclock : (liftSys monoNow (reapChildren p.exits m.world).2).2 =
      run exec (lookOps (afterReap p.exits m.world)) (afterReap p.exits m.world) := by
    rw [lookOps, Transition.run_append, ← reapChildren_exec]
    rfl
  have hreading : (liftSys monoNow (reapChildren p.exits m.world).2).1 =
      (liftSys monoNow (reapChildren p.exits m.world).2).2.k.clock := rfl
  simp only [loopTop, turn, Turn.before, loopTurn, hreading, hclock]
  split
  · rw [rescan_exec, run_size, Transition.run_append _ (scanOps _ p.listing)]
  · rw [List.append_nil]

/-- The clock reading is not ahead of the clock. -/
theorem loopTurn_reading (p : Pass) (m : MainState) :
    (loopTurn p m).t ≤ ((loopTurn p m).before (afterReap p.exits m.world)).k.clock := by
  simp only [Turn.before, loopTurn]
  rw [Transition.run_append (lookOps _)]
  exact Steps.clock_le (Performs.steps ⟨_, rfl⟩)

/-- A chain has fewer edges than there are services. -/
theorem Grounded.shallow {w : World} {i : Nat} (h : Grounded w i) (hi : i < w.size)
    (hact : (w.svc i).active = true) :
    Shallow (HardDep w) (w.slots.countP fun i => (w.svc i).active) i := by
  rw [List.countP_eq_length_filter]
  apply DepGraph.Grounded.shallow h
  · exact List.mem_filter.mpr ⟨List.mem_range.mpr hi, hact⟩
  · rintro j l ⟨hlt, hactl, -⟩
    exact List.mem_filter.mpr ⟨List.mem_range.mpr hlt, hactl⟩

/-- A startup reaches exactly the services whose hard dependencies all exist and are on no
    cycle: `k` smooth turns start those whose longest chain of hard dependencies has fewer than
    `k` edges, as many turns as there are services start them all, and no run over the same
    services that begins with nothing running ever starts another one. -/
theorem startup_reaches_grounded {w : World} (hnames : DistinctNames w) :
    (∀ t turns, (∀ i < w.size, (w.svc i).active = true → (w.svc i).Waits t) → Spaced t turns w →
      ∀ i < w.size, (w.svc i).active = true → Grounded w i →
        (Shallow (HardDep w) turns.length i → ((run turn turns w).svc i).state = .running) ∧
        ((w.slots.countP fun i => (w.svc i).active) ≤ turns.length →
          ((run turn turns w).svc i).state = .running)) ∧
    (∀ ops, (∀ i < w.size, (w.svc i).active = true → (w.svc i).state ≠ .running) →
      (∀ e ∈ logged ops w, e.reshapes = false) →
      ∀ i < w.size, (w.svc i).active = true →
        (∃ j, ReflTransGen (HardDep w) i j ∧ (MissingDep w j ∨ TransGen (HardDep w) j j)) →
        ((run exec ops w).svc i).state ≠ .running) := by
  constructor
  -- progress: each turn starts what has become startable
  · intro t turns hwaits hspaced i hi hact hgrounded
    have hstarts : Shallow (HardDep w) turns.length i → ((run turn turns w).svc i).Up := by
      intro hshallow
      apply spaced_starts (n := 0) hspaced
      · exact fun j hj hactj => .inr (hwaits j hj hactj)
      · exact fun j _ hnone => absurd hnone.pos (Nat.lt_irrefl 0)
      · exact hgrounded
      · rwa [Nat.zero_add]
      · exact hi
      · exact hact
    exact ⟨fun h => (hstarts h).running,
      fun h => (hstarts ((Grounded.shallow hgrounded hi hact).mono h)).running⟩
  -- safety: what has been started is grounded
  · rintro ops hnone hset i hi hact ⟨j, hij, hbad⟩ hrun
    have hgrounded := run_grounded hnames hnone hset hi hact hrun
    rcases hbad with hmissing | hcycle
    · exact hgrounded.complete j hij hmissing
    · exact hgrounded.acyclic j hij hcycle

/-- Services `a`, `b` and `c`; `b` hard-depends on `a`, and `c` on itself. -/
def loopFiles : FileSys where
  access path _ := path = bytesOf "/s/a/run" || path = bytesOf "/s/b/run" || path = bytesOf "/s/c/run"
  read path :=
    if path = bytesOf "/s/b/depends" then some (bytesOf "a")
    else if path = bytesOf "/s/c/depends" then some (bytesOf "c")
    else none

/-- After a scan that met `b` before `a`. -/
def loopScanned : World :=
  (rescan (some [bytesOf "b", bytesOf "a", bytesOf "c"]) (bootOn loopFiles).world).2

/-- One turn a second. -/
def loopTurns : List Turn := [⟨[], 0⟩, ⟨[.wait 1 []], 1⟩, ⟨[.wait 1 []], 2⟩]

/-- The three services, each waiting for its first start. -/
theorem loopScanned_services :
    (∀ i < loopScanned.size, (loopScanned.svc i).active = true → i ≤ 2) ∧
      (∀ i ≤ 2, ∀ j ≤ 2, (loopScanned.svc i).name = (loopScanned.svc j).name → i = j) ∧
      ∀ i ≤ 2, i < loopScanned.size ∧ (loopScanned.svc i).active = true ∧
        (loopScanned.svc i).stopping = false ∧ (loopScanned.svc i).pid ≤ 0 ∧
        (loopScanned.svc i).restartAt ≤ 0 ∧ (loopScanned.svc i).autoStart = true ∧
        (loopScanned.svc i).once = false ∧ (loopScanned.svc i).state ≠ .running := by
  decide +kernel

/-- `b` depends on `a` only, `a` on nothing, and `c` on itself. -/
theorem loopScanned_graph :
    (∀ j < loopScanned.size, HardDep loopScanned 0 j → j = 1) ∧
      (∀ j < loopScanned.size, ¬HardDep loopScanned 1 j) ∧
      ¬MissingDep loopScanned 0 ∧ ¬MissingDep loopScanned 1 ∧ HardDep loopScanned 2 2 := by
  decide +kernel

/-- The names of the example are different. -/
theorem loopScanned_names : DistinctNames loopScanned := by
  intro i hi j hj hacti hactj hname
  obtain ⟨hle, hnames, -⟩ := loopScanned_services
  exact hnames i (hle i hi hacti) j (hle j hj hactj) hname

/-- `b` comes up although it is scanned first; `c` does not, whatever is asked. -/
theorem startup_reaches_b :
    ((run turn loopTurns loopScanned).svc 0).state = .running ∧
      ((run exec [.start 0 2, .request (bytesOf "start c"), .start 0 2] loopScanned).svc 2).state ≠
        .running := by
  obtain ⟨hprogress, hsafety⟩ := startup_reaches_grounded loopScanned_names
  obtain ⟨hle, -, hservice⟩ := loopScanned_services
  obtain ⟨hb, ha, hbm, ham, hc⟩ := loopScanned_graph
  constructor
  -- `b` needs `a`, which needs nothing
  · have hbuilt : Buildable (HardDep loopScanned) (MissingDep loopScanned) 0 := by
      apply Buildable.intro 0 hbm
      intro j hj
      obtain rfl := hb j hj.1 hj
      exact .intro 1 ham fun l hl => absurd hl (ha l hl.1)
    obtain ⟨hsize, hact, -⟩ := hservice 0 (by decide)
    refine (hprogress 0 loopTurns ?_ ?_ 0 hsize hact hbuilt.grounded).2 ?_
    · intro i hi hact
      obtain ⟨-, -, hstop, hpid, hat, hauto, honce, -⟩ := hservice i (hle i hi hact)
      exact ⟨hstop, hpid, hat, hauto, honce⟩
    · decide +kernel
    · decide +kernel
  -- `c` is in a cycle with itself, so nothing starts it, not even a command
  · obtain ⟨hsize, hact, -⟩ := hservice 2 (by decide)
    refine hsafety _ ?_ ?_ 2 hsize hact ⟨2, .refl, .inr (.single hc)⟩
    · intro i hi hact
      obtain ⟨-, -, -, -, -, -, -, hdown⟩ := hservice i (hle i hi hact)
      exact hdown
    · decide +kernel

end SvcRs
