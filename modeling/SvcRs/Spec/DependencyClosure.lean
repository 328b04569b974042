import Mathlib.Data.Finset.Card
import SvcRs.Spec.Commands
import SvcRs.Spec.Processes
import SvcRs.Spec.Startup

/-!
# RUNNING services have RUNNING dependencies

`stop_transitive_deps` establishes that every RUNNING service has, for each of its hard
dependencies, a RUNNING service of that name. The reaper calls it after an exit, and the
start pass respects it. `stop` and the removal of a directory call it before they change
the state of the service, and `restart`, `down` and the loss of a logger do not call it.

## Key results

- `stopTransitiveDeps_ends`: the sweeps come to an end
- `stopTransitiveDeps_settles`: no RUNNING service is left with a dependency that is not
- `Op.Spares.depsRunning`: an operation that hits no service another one rests on keeps this
- `Op.spares_of_depsRunning`: with distinct names, no other loss of a logger, removal or
  command keeps it
- `dependencies_running`: it holds whenever the main loop calls `poll`
-/

namespace SvcRs

open Transition (run Along)

/-! ## The closure -/

/-- Some active service of this name is RUNNING. -/
def SomeRuns (w : World) (name : Bytes) : Prop :=
  ∃ j < w.size, (w.svc j).active = true ∧ (w.svc j).name = name ∧ (w.svc j).state = .running

/-- Every RUNNING service has, for each of its hard dependencies, a RUNNING service of that
    name. -/
def DepsRunning (w : World) : Prop :=
  ∀ i < w.size, (w.svc i).active = true → (w.svc i).state = .running →
    ∀ dep ∈ (w.svc i).deps, dep.soft = false → SomeRuns w dep.name

instance (w : World) (name : Bytes) : Decidable (SomeRuns w name) :=
  inferInstanceAs (Decidable (∃ _ < _, _ ∧ _ ∧ _))

instance (w : World) : Decidable (DepsRunning w) :=
  inferInstanceAs (Decidable (∀ _ < _, _ → _ → ∀ _ ∈ _, _ → _))

/-- The service in slot `i` is RUNNING, and another RUNNING service hard-depends on it. -/
def Carries (w : World) (i : Nat) : Prop :=
  (w.svc i).state = .running ∧
    ∃ j < w.size, j ≠ i ∧ (w.svc j).active = true ∧ (w.svc j).state = .running ∧ HardDep w j i

instance (w : World) (i : Nat) : Decidable (Carries w i) :=
  inferInstanceAs (Decidable (_ ∧ ∃ _ < _, _ ∧ _ ∧ _ ∧ _))

section

variable {w w' : World} {i : Nat}

/-- A RUNNING record is in the table and active. -/
theorem Life.Tracked.running (h : w.life.Tracked) (hrun : (w.svc i).state = .running) :
    i < w.size ∧ (w.svc i).active = true := by
  have hsound : (w.svc i).core.Sound := h.sound i
  have hact : (w.svc i).active = true := hsound.active_of_pid (hsound.running hrun).1
  exact ⟨h.inTable i hact, hact⟩

/-- Nothing has become RUNNING, and what is RUNNING has the name and the dependencies it had. -/
def OnlyStops (w w' : World) : Prop :=
  ∀ i, (w'.svc i).state = .running →
    (w.svc i).state = .running ∧ (w'.svc i).core.node = (w.svc i).core.node

/-- The closure survives if nothing stops that another service rests on. -/
theorem DepsRunning.of_onlyStops (h : DepsRunning w) (ht : w.life.Tracked) (ht' : w'.life.Tracked)
    (hstops : OnlyStops w w')
    (hspared : ∀ j, (w.svc j).state = .running → (w'.svc j).state = .running ∨ ¬Carries w j) :
    DepsRunning w' := by
  intro i _ _ hrun dep hdep hhard
  obtain ⟨hold, hnode⟩ := hstops i hrun
  obtain ⟨hi, hact⟩ := ht.running hold
  have hdeps : (w'.svc i).deps = (w.svc i).deps := congrArg (fun n => n.2.2) hnode
  obtain ⟨j, hj, hactj, hname, hrunj⟩ := h i hi hact hold dep (hdeps ▸ hdep) hhard
  have hkept : (w'.svc j).state = .running := by
    rcases hspared j hrunj with hkept | hcarries
    -- a dependency that stopped was carried by nothing but the service itself
    · exact hkept
    · by_cases hij : i = j
      · exact hij ▸ hrun
      · refine absurd ⟨hrunj, i, hi, hij, hact, hold, ?_⟩ hcarries
        exact ⟨hj, hactj, dep, hdeps ▸ hdep, hhard, hname.symm⟩
  obtain ⟨hj', hactj'⟩ := ht'.running hkept
  have hname' : (w'.svc j).name = (w.svc j).name := congrArg (fun n => n.2.1) (hstops j hkept).2
  exact ⟨j, hj', hactj', hname'.trans hname, hkept⟩

end

/-! ## What stops and what does not -/

section

variable {S : Kind → Prop} {a b : Life} {i : Nat}

/-- A step that changes the record of slot `j`. -/
theorem Life.node_of_put {j : Nat} {d : Core} (h : (b.core i).state = .running)
    (hcore : b.core = (a.put j d).core) (hd : d.state = .running → d.node = (a.core j).node) :
    (b.core i).node = (a.core i).node := by
  rw [hcore, Life.put_core] at h ⊢
  split at h
  · next he => rw [if_pos he, hd h, he]
  · next he => rw [if_neg he]

/-- A step gives no RUNNING service another name or other dependencies. -/
theorem LifeStep.node (hstep : LifeStep S a b) (h : (b.core i).state = .running) :
    (b.core i).node = (a.core i).node := by
  cases hstep with
  -- only the records that a step touches need a look
  | tick | forkFinish | reapOther | signalMain | signalLogger | raiseHup | runCheck => rfl
  | reapLogger j d hd | unmark j d hd | found j d hd | retry j d hd | forkLogger j d hd
    | startFail j d hd =>
    subst hd
    exact Life.node_of_put h rfl fun _ => rfl
  | tell j d hd =>
    subst hd
    exact Life.node_of_put (d := (a.core j).told) h rfl fun _ => rfl
  | start j d hd hS pid t =>
    subst hd
    exact Life.node_of_put (d := (a.core j).start pid t) h rfl fun _ => rfl
  -- a slot that is emptied or filled is not RUNNING afterwards
  | remove j d hd => exact Life.node_of_put h rfl nofun
  | add j d hi hact hnew =>
    exact Life.node_of_put h rfl fun hrun => absurd (hnew.state.symm.trans hrun) nofun
  | reapMain j d hd status t =>
    subst hd
    exact Life.node_of_put h rfl fun _ => Core.exit_node _ status t
  | command j d hd cmd t =>
    subst hd
    exact Life.node_of_put h rfl fun _ => Core.command_node _ t cmd

/-- Without a start, what is RUNNING afterwards was so before. -/
theorem LifeSteps.onlyStops (hsteps : LifeSteps S a b) (hS : ¬S (.start i))
    (h : (b.core i).state = .running) :
    (a.core i).state = .running ∧ (b.core i).node = (a.core i).node := by
  induction hsteps with
  | refl => exact ⟨h, rfl⟩
  | tail _ hstep ih =>
    have hbefore := (hstep.running h).resolve_right hS
    obtain ⟨hrun, hnode⟩ := ih hbefore
    exact ⟨hrun, (hstep.node h).trans hnode⟩

/-- The same for the supervisor. -/
theorem Steps.onlyStops {w w' : World} (h : Steps noStart w w') : OnlyStops w w' :=
  fun _ hrun => LifeSteps.onlyStops h id hrun

/-- The processes stay recorded. -/
theorem Steps.tracked {w w' : World} (h : Steps S w w') (ht : w.life.Tracked) :
    w'.life.Tracked :=
  LifeSteps.invariant (fun _ _ => LifeStep.tracked) h ht

end

/-! ## The fixpoint -/

/-- The slots of the RUNNING services. -/
def runningSlots (w : World) : Finset Nat :=
  (Finset.range w.size).filter fun i => (w.svc i).state = .running

/-- Stopping services puts none into RUNNING. -/
theorem Tells.running {w w' : World} (h : Tells w w') {i : Nat}
    (hrun : (w'.svc i).state = .running) : (w.svc i).state = .running := by
  rcases h.core i with he | ⟨hold, -, -⟩
  · exact (congrArg Core.state he).symm.trans hrun
  · exact hold

/-- A sweep only stops services. -/
theorem stopSweep_tells (is : List Nat) (w : World) : Tells w (stopSweep is w).2 :=
  (stopSweep_keeps stopDependent_tells is).rel w

/-- A sweep reports a change if and only if it stops a service; if it does not, it has tested
    all services on the same table. -/
theorem stopSweep_cases (is : List Nat) (w : World) :
    ((stopSweep is w).1 = true ∧ ∃ i ∈ is, Stranded w i ∧
      ((stopSweep is w).2.svc i).state ≠ .running) ∨
    ((stopSweep is w).1 = false ∧ (stopSweep is w).2 = w ∧ ∀ i ∈ is, ¬Stranded w i) := by
  induction is generalizing w with
  | nil => exact .inr ⟨rfl, rfl, by simp⟩
  | cons i is ih =>
    simp only [stopSweep, Sup.bind_apply, Sup.pure_apply]
    rcases stopDependent_cases i w with ⟨hstranded, he⟩ | ⟨hno, he⟩
    · simp only [he, Bool.true_or]
      refine .inl ⟨trivial, i, List.mem_cons_self, hstranded, fun hrun => ?_⟩
      -- it has been told to stop, and no later slot of the sweep makes it RUNNING
      have htold := (stopSweep_tells is (onSlot i signalStopStatus w).2).running hrun
      rw [onSlot_svc, if_pos rfl] at htold
      cases htold
    · simp only [he, Bool.false_or]
      rcases ih w with ⟨hchanged, j, hj, hstranded, hstopped⟩ | ⟨hsame, hw, hrest⟩
      · exact .inl ⟨hchanged, j, List.mem_cons_of_mem i hj, hstranded, hstopped⟩
      · refine .inr ⟨hsame, hw, fun j hj => ?_⟩
        rcases List.mem_cons.mp hj with rfl | hj
        · exact hno
        · exact hrest j hj

/-- One turn of the loop: a sweep, and again if it has changed something. -/
theorem stopLoop_succ (fuel : Nat) (w : World) :
    stopLoop (fuel + 1) w = if (stopSweep w.slots w).1 = true
      then stopLoop fuel (stopSweep w.slots w).2 else ((), (stopSweep w.slots w).2) := by
  show (if (stopSweep w.slots w).1 = true then stopLoop fuel else pure ()) _ = _
  exact Sup.ite_apply ..

/-- `while changed { .. }` without a bound: it ends with the first sweep that changes nothing. -/
inductive SweepsEnd : World → World → Prop
  | done (w : World) (h : (stopSweep w.slots w).1 = false) : SweepsEnd w (stopSweep w.slots w).2
  | again (w w' : World) (h : (stopSweep w.slots w).1 = true)
      (hrest : SweepsEnd (stopSweep w.slots w).2 w') : SweepsEnd w w'

/-- A sweep that changes something leaves fewer RUNNING services. -/
theorem stopSweep_fewer {w : World} (h : (stopSweep w.slots w).1 = true) :
    (runningSlots (stopSweep w.slots w).2).card < (runningSlots w).card := by
  rcases stopSweep_cases w.slots w with ⟨-, i, hi, hstranded, hstopped⟩ | ⟨hsame, -, -⟩
  -- nothing starts in a sweep, and the service it met has stopped
  · have htells := stopSweep_tells w.slots w
    apply Finset.card_lt_card
    apply Finset.ssubset_iff_subset_ne.mpr
    constructor
    · intro j hj
      simp only [runningSlots, Finset.mem_filter, Finset.mem_range, htells.size] at hj ⊢
      exact ⟨hj.1, htells.running hj.2⟩
    · intro heq
      have hmem : i ∈ runningSlots w :=
        Finset.mem_filter.mpr ⟨Finset.mem_range.mpr (List.mem_range.mp hi), hstranded.running⟩
      rw [← heq] at hmem
      exact hstopped (Finset.mem_filter.mp hmem).2
  · rw [hsame] at h
    cases h

/-- By induction on the number of RUNNING services. -/
theorem stopLoop_ends (fuel : Nat) (w : World) (hfuel : (runningSlots w).card < fuel) :
    SweepsEnd w (stopLoop fuel w).2 := by
  induction fuel generalizing w with
  | zero => exact absurd hfuel (Nat.not_lt_zero _)
  | succ fuel ih =>
    rw [stopLoop_succ]
    cases hchanged : (stopSweep w.slots w).1 with
    | true =>
      have hfewer := stopSweep_fewer hchanged
      exact .again w _ hchanged (ih (stopSweep w.slots w).2 (by omega))
    | false => exact .done w hchanged

/-- `stop_transitive_deps` terminates, and the bound on its sweeps cuts nothing off. -/
theorem stopTransitiveDeps_ends (w : World) : SweepsEnd w (stopTransitiveDeps w).2 := by
  apply stopLoop_ends (w.size + 1) w
  have hle := Finset.card_filter_le (Finset.range w.size) fun i => (w.svc i).state = .running
  rw [Finset.card_range] at hle
  exact Nat.lt_succ_of_le hle

/-- When a sweep changes nothing, no service is stranded. -/
theorem SweepsEnd.settles {w w' : World} (h : SweepsEnd w w') : ∀ i < w.size, ¬Stranded w' i := by
  induction h with
  | done w hsame =>
    rcases stopSweep_cases w.slots w with ⟨hchanged, -⟩ | ⟨-, he, hnone⟩
    · rw [hchanged] at hsame
      cases hsame
    · rw [he]
      exact fun i hi => hnone i (List.mem_range.mpr hi)
  | again w w' hchanged hrest ih =>
    rw [(stopSweep_tells w.slots w).size] at ih
    exact ih

/-- After `stop_transitive_deps` no service is RUNNING without its hard dependencies. -/
theorem stopTransitiveDeps_settles (w : World) :
    ∀ i < w.size, ¬Stranded (stopTransitiveDeps w).2 i := (stopTransitiveDeps_ends w).settles

/-- After `stop_transitive_deps` every running service has its dependencies. -/
theorem stopTransitiveDeps_depsRunning {w : World} (ht : w.life.Tracked) :
    DepsRunning (stopTransitiveDeps w).2 := by
  have ht' := (stopTransitiveDeps_follows.steps (S := anyKind) w).tracked ht
  have hsize := (stopTransitiveDeps_tells.rel w).size
  intro i hi hact hrun dep hdep hhard
  have hsound : ((stopTransitiveDeps w).2.svc i).core.Sound := ht'.sound i
  -- a dependency that is down would leave the service stranded, which the loop rules out
  cases hdown : (stopTransitiveDeps w).2.isRunning dep.name with
  | false =>
    obtain ⟨hpid, hstop⟩ := hsound.running hrun
    exact absurd ⟨hact, hstop, hpid, hrun, dep, hdep, hhard, hdown⟩
      (stopTransitiveDeps_settles w i (hsize ▸ hi))
  | true =>
    obtain ⟨j, hfind, hrunj⟩ := isRunning_iff.mp hdown
    obtain ⟨hj, hactj, hname⟩ := findServiceByName_some hfind
    exact ⟨j, hj, hactj, hname, hrunj⟩

/-! ## Operations -/

/-- The operation stops no service on which another one rests, without telling the other one:
    no loss of a logger, no removal and no `stop`, `restart` or `down` hits such a service. -/
def Op.Spares (w : World) : Op → Prop
  | .logDeath i => lostLogger (w.svc i) = true → ¬Carries w i
  | .missing i => (w.svc i).active = true → (w.svc i).present = false → ¬Carries w i
  | .request line => ∀ cmd i, Accepts w line cmd i →
      cmd = .stop ∨ cmd = .restart ∨ cmd = .down → ¬Carries w i
  | _ => True

instance (w : World) (line : Bytes) (cmd : SvcCmd) (i : Nat) : Decidable (Accepts w line cmd i) :=
  decidable_of_iff (parseRequest (splitCmd line).1 = .svc cmd ∧ (splitCmd line).2 ≠ [] ∧
      findServiceByName w (splitCmd line).2 = some i)
    ⟨fun ⟨h₁, h₂, h₃⟩ => ⟨h₁, h₂, h₃⟩, fun ⟨h₁, h₂, h₃⟩ => ⟨h₁, h₂, h₃⟩⟩

instance Op.Spares.decidable (w : World) : (op : Op) → Decidable (op.Spares w)
  | .logDeath _ => inferInstanceAs (Decidable (_ → ¬_))
  | .missing _ => inferInstanceAs (Decidable (_ → _ → ¬_))
  | .request line =>
    decidable_of_iff (∀ cmd ∈ [SvcCmd.stop, .restart, .down],
        ∀ i ∈ (findServiceByName w (splitCmd line).2).toList, Accepts w line cmd i → ¬Carries w i)
      ⟨fun h cmd i hcmd hstops => h cmd (by simpa using hstops) i (by simp [hcmd.found]) hcmd,
        fun h cmd hstops i _ hcmd => h cmd i hcmd (by simpa using hstops)⟩
  | .reapChild .. | .stopDeps | .readClock | .unmark _ | .scanEntry _ | .start .. | .signals _
  | .output .. | .wait .. | .stopAll | .killRemaining _ => isTrue trivial

section

variable {w w' : World} {i : Nat}

/-- `stop_transitive_deps` makes no service carry another one. -/
theorem Carries.of_tells (htells : Tells w w') (h : Carries w' i) : Carries w i := by
  obtain ⟨hrun, j, hj, hne, hact, hrunj, hi, hacti, dep, hdep, hhard, hname⟩ := h
  -- being told changes neither activity nor name nor dependencies
  have hcore : ∀ i, (w'.svc i).core.node = (w.svc i).core.node := by
    intro i
    rcases htells.core i with he | ⟨-, -, he⟩
    · rw [he]
    · rw [he]
      rfl
  have hactive : ∀ i, (w'.svc i).active = (w.svc i).active := fun i => congrArg Prod.fst (hcore i)
  have hnames : (w'.svc i).name = (w.svc i).name := congrArg (fun n => n.2.1) (hcore i)
  have hdeps : (w'.svc j).deps = (w.svc j).deps := congrArg (fun n => n.2.2) (hcore j)
  rw [htells.size] at hj hi
  rw [hactive] at hact hacti
  rw [hdeps] at hdep
  rw [hnames] at hname
  exact ⟨htells.running hrun, j, hj, hne, hact, htells.running hrunj, hi, hacti, dep, hdep, hhard, hname⟩

/-- What happens to one record keeps the closure if the service goes on, or carries nobody. -/
theorem DepsRunning.of_slot (h : DepsRunning w) (ht : w.life.Tracked) (hsteps : Steps noStart w w')
    (hother : ∀ j, j ≠ i → w'.svc j = w.svc j)
    (hi : (w.svc i).state = .running → (w'.svc i).state = .running ∨ ¬Carries w i) :
    DepsRunning w' := by
  apply h.of_onlyStops ht (hsteps.tracked ht) hsteps.onlyStops
  intro j hrun
  by_cases hj : j = i
  · exact hj ▸ hi (hj ▸ hrun)
  · exact .inl (hother j hj ▸ hrun)

/-- The loss of a logger. -/
theorem depsRunning_logDeath (h : DepsRunning w) (ht : w.life.Tracked)
    (hop : (Op.logDeath i).Spares w) : DepsRunning (exec (.logDeath i) w) := by
  have hsteps : Steps noStart w (exec (.logDeath i) w) := exec_starts_nothing (by simp) w
  cases hlost : lostLogger (w.svc i) with
  | false =>
    have hsame : exec (.logDeath i) w = w := by
      simp only [exec, killOnLogDeath, Sup.get_bind, hlost]
      rfl
    exact hsame.symm ▸ h
  | true =>
    have htold : exec (.logDeath i) w = (onSlot i signalStopStatus w).2 := by
      simp only [exec, killOnLogDeath, Sup.get_bind, hlost]
      rfl
    apply h.of_slot ht hsteps
    · intro j hj
      rw [htold, onSlot_svc, if_neg hj]
    -- the condition spares every service that carries another one
    · exact fun _ => .inr (hop hlost)

/-- The first half of a removal tells the dependents, and then the service itself. -/
theorem depsRunning_stopMissing (h : DepsRunning w) (ht : w.life.Tracked) (hcarries : ¬Carries w i) :
    DepsRunning (stopMissing i w).2 ∧ ((stopMissing i w).2.svc i).state ≠ .running := by
  simp only [stopMissing, Sup.get_bind, Sup.ite_apply]
  split
  · next hlive =>
    simp only [Bool.and_eq_true, Bool.not_eq_true', decide_eq_true_eq] at hlive
    simp only [Sup.bind_apply]
    -- its dependents are stopped before the service itself is
    have htells := stopTransitiveDeps_tells.rel w
    have ht₁ := (stopTransitiveDeps_follows.steps (S := noStart) w).tracked ht
    have hsettled := stopTransitiveDeps_depsRunning ht
    have hpid : 0 < ((stopTransitiveDeps w).2.svc i).pid := by
      have := htells.pid i
      omega
    have hcarries₁ : ¬Carries (stopTransitiveDeps w).2 i := fun hc => hcarries (.of_tells htells hc)
    generalize (stopTransitiveDeps w).2 = w₁ at ht₁ hsettled hpid hcarries₁
    constructor
    · apply hsettled.of_slot ht₁ (onSlot_steps (signalStop_moves hpid))
      · intro j hj
        rw [onSlot_svc, if_neg hj]
      · exact fun _ => .inr hcarries₁
    · rw [onSlot_svc, if_pos rfl]
      exact nofun
  · next hidle =>
    -- there is no process to stop, and then the record is not RUNNING either
    refine ⟨h, fun hrun => hidle ?_⟩
    have hsound : (w.svc i).core.Sound := ht.sound i
    obtain ⟨hpid, hstop⟩ := hsound.running hrun
    simpa using ⟨hpid, hstop⟩

/-- The removal of a directory. -/
theorem depsRunning_missing (h : DepsRunning w) (ht : w.life.Tracked)
    (hop : (Op.missing i).Spares w) : DepsRunning (exec (.missing i) w) := by
  simp only [exec, missingSlot, Sup.get_bind, Sup.ite_apply]
  split
  · next hmissing =>
    simp only [Bool.and_eq_true, Bool.not_eq_true'] at hmissing
    obtain ⟨h₁, hdown⟩ := depsRunning_stopMissing h ht (hop hmissing.1 hmissing.2)
    have ht₁ := ((stopMissing_follows i).steps (S := noStart) w).tracked ht
    simp only [Sup.bind_apply]
    generalize (stopMissing i w).2 = w₁ at h₁ hdown ht₁
    apply h₁.of_slot ht₁ (onSlot_steps releaseMissing_moves)
    · intro j hj
      rw [onSlot_svc, if_neg hj]
    -- giving the slot up stops nothing that was still running
    · exact fun hrun => absurd hrun hdown
  · exact h

/-- An action that changes no record leaves the table alone. -/
theorem withService_svc {usage : String} {arg : Bytes} {act : Nat → Sup Bytes}
    (h : ∀ i, arg ≠ [] → findServiceByName w arg = some i → (act i w).2.svc = w.svc) :
    (withService usage arg act w).2.svc = w.svc := by
  unfold withService
  split
  · rfl
  · next harg =>
    simp only [Sup.get_bind]
    cases hfind : findServiceByName w arg with
    | none => rfl
    | some i => exact h i harg hfind

/-- A signal changes no record. -/
theorem sendSignal_svc (i : Nat) (sig : Int) (w : World) : (sendSignal i sig w).2.svc = w.svc := by
  simp only [sendSignal, Sup.get_bind, Sup.ite_apply]
  split <;> rfl

/-- A request that is no command for a service changes no record. -/
theorem respond_svc {line : Bytes} (h : ∀ cmd i, ¬Accepts w line cmd i) :
    (respond line w).2.svc = w.svc := by
  -- no service is named, so only the requests without a state change are left
  have haccepts : ∀ cmd i, parseRequest (splitCmd line).1 = .svc cmd → (splitCmd line).2 ≠ [] →
      findServiceByName w (splitCmd line).2 = some i → False :=
    fun cmd i hrequest harg hfind => h cmd i ⟨hrequest, harg, hfind⟩
  unfold respond
  generalize splitCmd line = r at haccepts
  obtain ⟨cmd, arg⟩ := r
  dsimp only at haccepts ⊢
  cases hrequest : parseRequest cmd with
  | list | reload | unknown => rfl
  | status | check => exact withService_svc fun _ _ _ => rfl
  | svc c => exact withService_svc fun i harg hfind => (haccepts c i hrequest harg hfind).elim
  | shortcut sig => exact withService_svc fun i _ _ => sendSignal_svc i sig w
  | signal =>
    dsimp only
    unfold signalCommand
    generalize splitCmd arg = r
    obtain ⟨svcName, sigNumPart⟩ := r
    dsimp only
    -- without a signal number the reply is an error
    split
    · rfl
    · cases parseSignum sigNumPart with
      | none => rfl
      | some signum => exact withService_svc fun i _ _ => sendSignal_svc i signum w

/-- The commands that leave the state alone. -/
theorem Core.command_state {c : Core} {t : Int} {cmd : SvcCmd}
    (h : ¬(cmd = .stop ∨ cmd = .restart ∨ cmd = .down)) : (c.command t cmd).state = c.state := by
  cases cmd with
  | start | up | once => rfl
  | stop | restart | down => simp at h

/-- The commands that stop a service. -/
theorem Core.command_stops {c : Core} {t : Int} {cmd : SvcCmd}
    (h : cmd = .stop ∨ cmd = .restart ∨ cmd = .down) (hpid : 0 < c.pid) :
    (c.command t cmd).state = .stopping := by
  rcases h with rfl | rfl | rfl
  · rfl
  · rfl
  · rw [command, if_pos hpid]
    rfl

/-- A request that spares the dependents keeps the dependencies running. -/
theorem depsRunning_request {line : Bytes} (h : DepsRunning w) (ht : w.life.Tracked)
    (hop : (Op.request line).Spares w) : DepsRunning (exec (.request line) w) := by
  have hsteps : Steps noStart w (exec (.request line) w) := exec_starts_nothing (by simp) w
  by_cases haccepts : ∃ cmd i, Accepts w line cmd i
  · obtain ⟨cmd, i, hcmd⟩ := haccepts
    -- the sweeps first, and then the record of the service
    have htells := beforeCmd_tells cmd w
    have hbefore : Steps noStart w (beforeCmd cmd w) := by
      unfold beforeCmd
      split
      · exact stopTransitiveDeps_follows.steps w
      · exact .refl
    have h₁ : DepsRunning (beforeCmd cmd w) := by
      unfold beforeCmd
      split
      · exact stopTransitiveDeps_depsRunning ht
      · exact h
    obtain ⟨t, hcore⟩ := request_core hcmd
    have hrun : exec (.request line) w =
        (liftSys (reply (respond line w).1) (onSlot i (acceptCmd cmd i) (beforeCmd cmd w)).2).2 := by
      simp only [exec, handleControlCommand, Sup.bind_apply, request_svc hcmd]
    have hrest : Steps noStart (beforeCmd cmd w) (exec (.request line) w) := by
      rw [hrun]
      exact (onSlot_steps (acceptCmd_moves cmd trivial)).trans ((reply_calm _).liftSys.steps _)
    apply h₁.of_slot (hbefore.tracked ht) hrest
    · intro j hj
      rw [hrun]
      exact if_neg hj
    · intro hrunning
      by_cases hstops : cmd = .stop ∨ cmd = .restart ∨ cmd = .down
      · exact .inr fun hc => hop cmd i hcmd hstops (.of_tells htells hc)
      -- the other commands do not change the state
      · have hstate := (congrArg Core.state hcore).trans (Core.command_state hstops)
        exact .inl (hstate.trans hrunning)
  · have hsame : (exec (.request line) w).svc = w.svc :=
      respond_svc fun cmd i hc => haccepts ⟨cmd, i, hc⟩
    apply h.of_onlyStops ht (hsteps.tracked ht) hsteps.onlyStops
    intro j hrunning
    exact .inl (hsame ▸ hrunning)

/-- The start pass starts a service only over RUNNING dependencies. -/
theorem depsRunning_start {t : Int} (h : DepsRunning w) (ht : w.life.Tracked) :
    DepsRunning (exec (.start t i) w) := by
  have hsame := startSlot_sameServices (min t w.k.clock) i w
  have ht' := (exec_steps (.start t i) w).tracked ht
  -- what is RUNNING is not due
  have hkept : ∀ j, (w.svc j).state = .running → ((exec (.start t i) w).svc j).state = .running := by
    intro j hrun
    by_cases hj : j = i
    · subst hj
      have hsound : (w.svc j).core.Sound := ht.sound j
      have hpid : 0 < (w.svc j).pid := (hsound.running hrun).1
      have hdue : startDue (min t w.k.clock) (w.svc j) = false := by
        simp [startDue, Int.not_le.mpr hpid]
      simp only [exec, startSlot, Sup.get_bind, hdue]
      exact hrun
    · simp only [exec]
      rw [startSlot_other hj]
      exact hrun
  intro j _ _ hrun dep hdep hhard
  have hdeps : ((exec (.start t i) w).svc j).deps = (w.svc j).deps := hsame.deps j
  rw [hdeps] at hdep
  have hold : SomeRuns w dep.name := by
    rcases exec_running hrun with hrunning | hsatisfied
    · obtain ⟨hj, hact⟩ := ht.running hrunning
      exact h j hj hact hrunning dep hdep hhard
    · obtain ⟨l, hfind, hrunl⟩ := isRunning_iff.mp (depsSatisfied_iff.mp hsatisfied dep hdep hhard)
      obtain ⟨hl, hactl, hname⟩ := findServiceByName_some hfind
      exact ⟨l, hl, hactl, hname, hrunl⟩
  obtain ⟨l, -, -, hname, hrunl⟩ := hold
  obtain ⟨hl, hactl⟩ := ht'.running (hkept l hrunl)
  have hname' : ((exec (.start t i) w).svc l).name = (w.svc l).name := hsame.name l
  exact ⟨l, hl, hactl, hname'.trans hname, hkept l hrunl⟩

/-- The other operations between two calls of the reaper. -/
theorem depsRunning_idle {op : Op} (h : DepsRunning w) (ht : w.life.Tracked) (hop : op.Idle w)
    (hlog : ∀ i, op ≠ .logDeath i) : DepsRunning (exec op w) := by
  have hsteps : Steps noStart w (exec op w) := by
    apply exec_starts_nothing
    rintro t i rfl
    exact hop
  apply h.of_onlyStops ht (hsteps.tracked ht) hsteps.onlyStops
  intro j hrun
  have hact := (ht.running hrun).2
  exact .inl ((hop.scanned (fun he => absurd he (hlog j)) hact).state.trans hrun)

end

/-- The operations of the main loop, without those of the reaper's loop. -/
def Op.inLoop : Op → Bool
  | .reapChild .. | .stopAll | .killRemaining _ => false
  | _ => true

/-- They keep the closure if they stop no service that another one rests on. -/
theorem Op.Spares.depsRunning {op : Op} {w : World} (hop : op.Spares w) (h : DepsRunning w)
    (ht : w.life.Tracked) (hloop : op.inLoop = true) : DepsRunning (exec op w) := by
  cases op with
  | reapChild | stopAll | killRemaining => cases hloop
  | stopDeps => exact stopTransitiveDeps_depsRunning ht
  | logDeath i => exact depsRunning_logDeath h ht hop
  | missing i => exact depsRunning_missing h ht hop
  | request line => exact depsRunning_request h ht hop
  | start t i => exact depsRunning_start h ht
  | readClock | unmark | scanEntry | signals | output | wait =>
    exact depsRunning_idle h ht trivial nofun

/-! ### The condition is exact -/

section

variable {w w' : World} {i : Nat}

/-- With distinct names, `stop_transitive_deps` has nothing to do while the closure holds. -/
theorem stopTransitiveDeps_idle (hnames : DistinctNames w) (h : DepsRunning w) :
    (stopTransitiveDeps w).2 = w := by
  -- every dependency is running, and with distinct names that is what the lookup finds
  have hnone : ∀ i ∈ w.slots, ¬Stranded w i := by
    rintro i hi ⟨hact, -, -, hrun, dep, hdep, hhard, hdown⟩
    obtain ⟨j, hj, hactj, hname, hrunj⟩ := h i (List.mem_range.mp hi) hact hrun dep hdep hhard
    have hfind := hnames.find hj hactj
    rw [hname] at hfind
    exact absurd (isRunning_iff.mpr ⟨j, hfind, hrunj⟩) (by simp [hdown])
  show (stopLoop (w.size + 1) w).2 = w
  rw [stopLoop_succ]
  rcases stopSweep_cases w.slots w with ⟨-, i, hi, hstranded, -⟩ | ⟨hsame, he, -⟩
  · exact absurd hstranded (hnone i hi)
  · rw [if_neg (by simp [hsame]), he]

/-- With distinct names, the closure breaks if a service stops that another one rests on. -/
theorem Carries.breaks (hc : Carries w i) (hnames : DistinctNames w) (ht : w.life.Tracked)
    (hsteps : Steps noStart w w') (hstopped : (w'.svc i).state ≠ .running)
    (hother : ∀ j, j ≠ i → w'.svc j = w.svc j) : ¬DepsRunning w' := by
  obtain ⟨-, j, hj, hne, hact, hrun, hi, hacti, dep, hdep, hhard, hname⟩ := hc
  have hsvc := hother j hne
  intro h
  have hj' : j < w'.size := ((hsteps.tracked ht).running (hsvc ▸ hrun)).1
  rw [← hsvc] at hact hrun hdep
  obtain ⟨l, -, -, hnamel, hrunl⟩ := h j hj' hact hrun dep hdep hhard
  obtain ⟨hold, hnode⟩ := hsteps.onlyStops l hrunl
  obtain ⟨hl, hactl⟩ := ht.running hold
  -- the service that runs under this name is the one that was stopped
  have hnamew : (w.svc l).name = (w.svc i).name := by
    have hsame : (w'.svc l).name = (w.svc l).name := congrArg (fun n => n.2.1) hnode
    rw [← hsame, hnamel, hname]
  exact hstopped (hnames l hl i hi hactl hacti hnamew ▸ hrunl)

/-- A loss of a logger, a removal or a request that keeps the closure hits no service that
    another one rests on. -/
theorem Op.spares_of_depsRunning {op : Op} (hnames : DistinctNames w) (h : DepsRunning w)
    (ht : w.life.Tracked) (h' : DepsRunning (exec op w)) : op.Spares w := by
  have hidle := stopTransitiveDeps_idle hnames h
  cases op with
  | reapChild | stopDeps | readClock | unmark | scanEntry | start | signals | output | wait
  | stopAll | killRemaining => trivial
  -- in each of the three cases the operation would stop a service that others need
  | logDeath i =>
    intro hlost hc
    have htold : exec (.logDeath i) w = (onSlot i signalStopStatus w).2 := by
      simp only [exec, killOnLogDeath, Sup.get_bind, hlost]
      rfl
    apply hc.breaks hnames ht (exec_starts_nothing (by simp) w) ?_ ?_ h'
    · rw [htold, onSlot_svc, if_pos rfl]
      intro hrun
      cases hrun
    · intro j hj
      rw [htold, onSlot_svc, if_neg hj]
  | missing i =>
    intro hact habsent hc
    have hsound : (w.svc i).core.Sound := ht.sound i
    obtain ⟨hpid, hstop⟩ := hsound.running hc.1
    have hpid' : decide ((w.svc i).pid > 0) = true := decide_eq_true hpid
    have hstop' : (w.svc i).stopping = false := hstop
    -- the sweeps before the stop find nothing, because the dependencies run
    have hfirst : (stopMissing i w).2 = (onSlot i signalStop w).2 := by
      simp only [stopMissing, Sup.get_bind, Sup.ite_apply]
      rw [if_pos (by simp [hpid', hstop'])]
      show (onSlot i signalStop (stopTransitiveDeps w).2).2 = _
      rw [hidle]
    have hrun : exec (.missing i) w =
        (onSlot i (releaseMissing i) (onSlot i signalStop w).2).2 := by
      simp only [exec, missingSlot, Sup.get_bind, Sup.ite_apply]
      rw [if_pos (by simp [hact, habsent])]
      show (onSlot i (releaseMissing i) (stopMissing i w).2).2 = _
      rw [hfirst]
    apply hc.breaks hnames ht (exec_starts_nothing (by simp) w) ?_ ?_ h'
    · rw [hrun]
      intro hrunning
      have hsecond : Steps noStart (onSlot i signalStop w).2
          (onSlot i (releaseMissing i) (onSlot i signalStop w).2).2 := onSlot_steps releaseMissing_moves
      have hfirst := (hsecond.onlyStops i hrunning).1
      rw [onSlot_svc, if_pos rfl] at hfirst
      cases hfirst
    · intro j hj
      rw [hrun, onSlot_svc, if_neg hj, onSlot_svc, if_neg hj]
  | request line =>
    intro cmd i hcmd hstops hc
    -- here, too, the sweeps find nothing
    have hbefore : beforeCmd cmd w = w := by
      unfold beforeCmd
      split
      · exact hidle
      · rfl
    obtain ⟨t, hcore⟩ := request_core hcmd
    rw [hbefore] at hcore
    have hrun : exec (.request line) w =
        (liftSys (reply (respond line w).1) (onSlot i (acceptCmd cmd i) w).2).2 := by
      simp only [exec, handleControlCommand, Sup.bind_apply, request_svc hcmd, hbefore]
    apply hc.breaks hnames ht (exec_starts_nothing (by simp) w) ?_ ?_ h'
    · have hstate : ((exec (.request line) w).svc i).state = ((w.svc i).core.command t cmd).state :=
        congrArg Core.state hcore
      have hsound : (w.svc i).core.Sound := ht.sound i
      rw [hstate, Core.command_stops hstops (hsound.running hc.1).1]
      intro hrun
      cases hrun
    · intro j hj
      rw [hrun]
      exact if_neg hj

end

/-! ## The reaper -/

section

variable {w : World}

/-- Either the exit makes the reaper tell the dependents, or nothing RUNNING has exited. -/
theorem reapChild_depsRunning (h : DepsRunning w) (ht : w.life.Tracked) (pid status : Int) :
    (reapChild pid status w).1 = some true ∨ DepsRunning (reapChild pid status w).2 := by
  have hsteps : Steps noStart w (exec (.reapChild pid status) w) := exec_starts_nothing (by simp) w
  -- an exit can only stop services: it is enough that none that others need is lost
  have hkeeps : (∀ j, (w.svc j).state = .running → ((reapChild pid status w).2.svc j).state = .running) →
      DepsRunning (reapChild pid status w).2 := fun hkept =>
    h.of_onlyStops ht (hsteps.tracked ht) hsteps.onlyStops fun j hrun => .inl (hkept j hrun)
  -- no child, a logger, a main process, or a child of no record
  rcases reapChild_cases pid status w with ⟨-, he⟩ | ⟨k, -, ⟨i, -, he⟩ | ⟨i, -, -, he⟩ | ⟨-, -, he⟩⟩
  · exact .inr (he ▸ h)
  · refine .inr (hkeeps fun j hrun => ?_)
    rw [he, onSlot_svc]
    split
    · next hj => exact hj ▸ hrun
    · exact hrun
  · rw [he]
    cases hneed : exitStopsDeps (w.svc i) status with
    | true => exact .inl rfl
    | false =>
      -- the reaper skips the sweep for a service that was stopping, and that was not RUNNING
      right
      have hstopping : (w.svc i).stopping = true := by
        simpa [exitStopsDeps, (Core.decodeWaitStatus_ne status).1] using hneed
      have hdown : (w.svc i).state ≠ .running := by
        intro hrun
        have hsound : (w.svc i).core.Sound := ht.sound i
        exact absurd ((hsound.running hrun).2.symm.trans hstopping) nofun
      rw [he] at hkeeps
      apply hkeeps
      intro j hrun
      have hne : j ≠ i := fun hj => hdown (hj ▸ hrun)
      rw [onSlot_svc, if_neg hne]
      exact hrun
  · exact .inr (hkeeps fun j hrun => by rw [he]; exact hrun)

/-- One turn of the `waitpid` loop. -/
theorem reapLoop_cons (pid status : Int) (exits : List (Int × Int)) (need : Bool) (w : World) :
    reapLoop ((pid, status) :: exits) need w =
      match (reapChild pid status w).1 with
      | none => (need, (reapChild pid status w).2)
      | some need' => reapLoop exits (need || need') (reapChild pid status w).2 := by
  simp only [reapLoop, Sup.bind_apply]
  cases (reapChild pid status w).1 <;> rfl

/-- `need_stop_deps` stays set. -/
theorem reapLoop_need (exits : List (Int × Int)) (w : World) : (reapLoop exits true w).1 = true := by
  induction exits generalizing w with
  | nil => rfl
  | cons e exits ih =>
    rw [reapLoop_cons]
    cases (reapChild e.1 e.2 w).1 with
    | none => rfl
    | some need => exact ih _

/-- A batch that sets no flag has taken no dependency away. -/
theorem reapLoop_depsRunning (exits : List (Int × Int)) (need : Bool) (h : DepsRunning w)
    (ht : w.life.Tracked) (hno : (reapLoop exits need w).1 = false) :
    DepsRunning (reapLoop exits need w).2 := by
  -- by induction on the exits; `need` only grows
  induction exits generalizing need w with
  | nil => exact h
  | cons e exits ih =>
    have hchild := reapChild_depsRunning h ht e.1 e.2
    have ht₁ := (exec_steps (.reapChild e.1 e.2) w).tracked ht
    rw [reapLoop_cons] at hno ⊢
    cases hr : (reapChild e.1 e.2 w).1 with
    | none => exact hchild.resolve_left (by simp [hr])
    | some need' =>
      rw [hr] at hno
      cases need' with
      | true =>
        dsimp only at hno
        rw [Bool.or_true, reapLoop_need] at hno
        cases hno
      | false => exact ih _ (hchild.resolve_left (by simp [hr])) ht₁ hno

/-- The processes stay recorded. -/
theorem reapLoop_tracked (exits : List (Int × Int)) (need : Bool) (ht : w.life.Tracked) :
    (reapLoop exits need w).2.life.Tracked :=
  Steps.tracked ((reapLoop_keeps steps_respects exits need).rel w) ht

/-- After the end of `reap_children` the dependencies are running. -/
theorem afterReap_depsRunning (exits : List (Int × Int)) (h : DepsRunning w) (ht : w.life.Tracked) :
    DepsRunning (afterReap exits w) := by
  simp only [afterReap]
  split
  · exact stopTransitiveDeps_depsRunning (reapLoop_tracked exits false ht)
  · next hno => exact reapLoop_depsRunning exits false h ht (by simpa using hno)

/-- The processes stay recorded. -/
theorem afterReap_tracked (exits : List (Int × Int)) (ht : w.life.Tracked) :
    (afterReap exits w).life.Tracked := by
  have ht₁ := reapLoop_tracked exits false ht
  simp only [afterReap]
  split
  · exact (stopTransitiveDeps_follows.steps (S := anyKind) _).tracked ht₁
  · exact ht₁

end

/-! ## The main loop -/

/-- The table when the request of a client is handled. -/
def beforeRequest (p : Pass) (m : MainState) : World :=
  (dispatchSignals p.poll.signals { loopTop p m with
    world := pollWait p.elapsed p.arrivals (loopTop p m).world }).world

/-- Up to `poll`, no loss of a logger and no removal hits a service that another one rests on. -/
def Pass.SparesTop (p : Pass) (m : MainState) : Prop :=
  Along exec (fun w op => op.Spares w) (loopTurn p m).between (afterReap p.exits m.world)

/-- In the whole pass, no command does either. -/
structure Pass.Spares (p : Pass) (m : MainState) : Prop where
  top : p.SparesTop m
  request : ∀ line, p.poll.control = some line →
    (Op.request (line.take cmdBuf)).Spares (beforeRequest p m)

instance (p : Pass) (m : MainState) : Decidable (p.SparesTop m) :=
  inferInstanceAs (Decidable (Along _ _ _ _))

instance (p : Pass) (m : MainState) : Decidable (p.Spares m) :=
  decidable_of_iff (p.SparesTop m ∧ ∀ line ∈ p.poll.control,
      (Op.request (line.take cmdBuf)).Spares (beforeRequest p m))
    ⟨fun ⟨h₁, h₂⟩ => ⟨h₁, h₂⟩, fun ⟨h₁, h₂⟩ => ⟨h₁, h₂⟩⟩

section

variable {w : World} {p : Pass} {m : MainState}

/-- A run of operations. -/
theorem run_depsRunning {ops : List Op} (h : DepsRunning w) (ht : w.life.Tracked)
    (hops : Along exec (fun w op => op.Spares w) ops w)
    (hloop : ∀ op ∈ ops, op.inLoop = true) :
    DepsRunning (run exec ops w) ∧ (run exec ops w).life.Tracked := by
  induction ops generalizing w with
  | nil => exact ⟨h, ht⟩
  | cons op ops ih =>
    have hone := hops.1.depsRunning h ht (hloop op List.mem_cons_self)
    exact ih hone ((exec_steps op w).tracked ht) hops.2
      fun op hop => hloop op (List.mem_cons_of_mem _ hop)

/-- Only operations of the loop stand between the reaper and the poll. -/
theorem loopTurn_inLoop (p : Pass) (m : MainState) :
    ∀ op ∈ (loopTurn p m).between, op.inLoop = true := by
  intro op hop
  simp only [loopTurn, List.mem_append] at hop
  rcases hop with hlook | hscan
  · simp only [lookOps, List.mem_append, List.mem_map, List.mem_singleton] at hlook
    rcases hlook with ⟨i, -, rfl⟩ | rfl <;> rfl
  -- a scan unmarks, meets entries and handles what is missing
  · split at hscan
    · unfold scanOps at hscan
      cases hlist : p.listing with
      | none => simp [hlist] at hscan
      | some names =>
        simp only [hlist, List.mem_append, List.mem_map] at hscan
        rcases hscan with (⟨i, -, rfl⟩ | ⟨name, -, rfl⟩) | ⟨i, -, rfl⟩ <;> rfl
    · cases hscan

/-- The operations of the branches for the control socket and the output pipes. -/
def requestOps (r : PollResult) : List Op :=
  (match r.control with
    | none | some [] => []
    | some line => [.request (line.take cmdBuf)]) ++
  r.outputs.map fun o => .output o.1 o.2.1 o.2.2

/-- The same for what comes after the poll. -/
theorem requestOps_inLoop (r : PollResult) : ∀ op ∈ requestOps r, op.inLoop = true := by
  intro op hop
  rcases List.mem_append.mp hop with hrequest | houtput
  · split at hrequest
    · cases hrequest
    · cases hrequest
    · obtain rfl := List.mem_singleton.mp hrequest
      rfl
  · obtain ⟨o, -, rfl⟩ := List.mem_map.mp houtput
    rfl

/-- The branches after the poll are a run. -/
theorem dispatchRequests_exec (r : PollResult) (w : World) :
    (dispatchRequests r w).2 = run exec (requestOps r) w := by
  have houtputs : ∀ (os : List (Nat × Bool × List ReadResult)) (w : World),
      (drainOutputs os w).2 = run exec (os.map fun o => Op.output o.1 o.2.1 o.2.2) w := by
    intro os
    induction os with
    | nil => exact fun _ => rfl
    | cons o os ih => exact fun w => ih (drainOutput o.1 o.2.1 o.2.2 w).2
  simp only [dispatchRequests, Sup.bind_apply, requestOps, Transition.run_append, houtputs]
  rcases r.control with _ | _ | ⟨c, line⟩ <;> rfl

/-- A request may stop a service; draining an output does not. -/
theorem requestOps_spares (r : PollResult) (w : World)
    (h : ∀ line, r.control = some line → (Op.request (line.take cmdBuf)).Spares w) :
    Along exec (fun w op => op.Spares w) (requestOps r) w := by
  -- draining output stops nothing
  have houtputs : ∀ (os : List (Nat × Bool × List ReadResult)) (w : World),
      Along exec (fun w op => op.Spares w) (os.map fun o => Op.output o.1 o.2.1 o.2.2) w := by
    intro os
    induction os with
    | nil => exact fun _ => trivial
    | cons o os ih => exact fun w => ⟨trivial, ih _⟩
  apply (Transition.along_append _ _ w).mpr
  refine ⟨?_, houtputs r.outputs _⟩
  split
  · trivial
  · trivial
  · next line _ hcontrol => exact ⟨h line hcontrol, trivial⟩

/-- The start pass starts nothing whose dependencies are down. -/
theorem startPass_depsRunning {t : Int} (h : DepsRunning w) (ht : w.life.Tracked)
    (hle : t ≤ w.k.clock) :
    DepsRunning (startPass t w).2 ∧ (startPass t w).2.life.Tracked := by
  -- by induction on the slots
  have hloop : ∀ is (w : World), DepsRunning w → w.life.Tracked → t ≤ w.k.clock →
      DepsRunning (forSlots (startSlot t) is w).2 ∧ (forSlots (startSlot t) is w).2.life.Tracked := by
    intro is
    induction is with
    | nil => exact fun w h ht _ => ⟨h, ht⟩
    | cons i is ih =>
      intro w h ht hle
      have hop : exec (.start t i) w = (startSlot t i w).2 := by
        simp only [exec, Int.min_eq_left hle]
      have hsteps := exec_steps (.start t i) w
      have h₁ := depsRunning_start (i := i) (t := t) h ht
      rw [hop] at hsteps h₁
      exact ih _ h₁ (hsteps.tracked ht) (Int.le_trans hle hsteps.clock_le)
  exact hloop w.slots w h ht hle

/-- The dependencies are running when the loop gets to `poll`. -/
theorem loopTop_depsRunning (h : DepsRunning m.world) (ht : m.world.life.Tracked)
    (hspares : p.SparesTop m) :
    DepsRunning (loopTop p m).world ∧ (loopTop p m).world.life.Tracked := by
  have hrun := run_depsRunning (afterReap_depsRunning p.exits h ht) (afterReap_tracked p.exits ht)
    hspares (loopTurn_inLoop p m)
  rw [loopTop_turn]
  exact startPass_depsRunning hrun.1 hrun.2 (loopTurn_reading p m)

/-- One turn of the main loop. -/
theorem mainPass_depsRunning (h : DepsRunning m.world) (ht : m.world.life.Tracked)
    (hspares : p.Spares m) :
    DepsRunning (mainPass p m).world ∧ (mainPass p m).world.life.Tracked := by
  -- scan, start pass and sweep first, then the wait, the signals and the request
  obtain ⟨htop, httop⟩ := loopTop_depsRunning h ht hspares.top
  have hwait : DepsRunning (run exec [.wait p.elapsed p.arrivals] (loopTop p m).world) ∧
      (run exec [.wait p.elapsed p.arrivals] (loopTop p m).world).life.Tracked :=
    run_depsRunning htop httop ⟨trivial, trivial⟩ (by simp [Op.inLoop])
  have hsignals : DepsRunning (beforeRequest p m) ∧ (beforeRequest p m).life.Tracked := by
    unfold beforeRequest dispatchSignals
    cases p.poll.signals with
    | none => exact hwait
    | some reads =>
      rw [handleSignal_world]
      have hreads : Along exec (fun w op => op.Spares w) [.signals reads]
          (run exec [.wait p.elapsed p.arrivals] (loopTop p m).world) := ⟨trivial, trivial⟩
      exact run_depsRunning hwait.1 hwait.2 hreads (by simp [Op.inLoop])
  simp only [mainPass, dispatch]
  split
  -- a signal that ends the loop leaves no request to serve
  · exact hsignals
  · have hrequests : (dispatchRequests p.poll (beforeRequest p m)).2 =
        run exec (requestOps p.poll) (beforeRequest p m) := dispatchRequests_exec _ _
    show DepsRunning (dispatchRequests p.poll (beforeRequest p m)).2 ∧
      (dispatchRequests p.poll (beforeRequest p m)).2.life.Tracked
    rw [hrequests]
    exact run_depsRunning hsignals.1 hsignals.2 (requestOps_spares p.poll _ hspares.request)
      (requestOps_inLoop p.poll)

end

/-- As long as no loss of a logger, no removal and no `stop`, `restart` or `down` hits a RUNNING
    service that another RUNNING service hard-depends on, every RUNNING service has RUNNING
    dependencies whenever the main loop calls `poll`. -/
theorem dependencies_running (root : CStrBuf) (oracle : Nat → Answer) (fds : List Int)
    (ps : List Pass) (p : Pass)
    (hps : Along mainPass (fun m p => p.Spares m) ps (boot root oracle fds))
    (hp : p.SparesTop (run mainPass ps (boot root oracle fds))) :
    DepsRunning (loopTop p (run mainPass ps (boot root oracle fds))).world := by
  have hboot : DepsRunning (boot root oracle fds).world ∧ (boot root oracle fds).world.life.Tracked := by
    refine ⟨fun i _ hact => ?_, (boot_initial root oracle fds).tracked⟩
    cases hact
  have hend := Transition.run_invariant (I := fun m => DepsRunning m.world ∧ m.world.life.Tracked)
    (fun m p h hspares => mainPass_depsRunning h.1 h.2 hspares) hboot hps
  exact (loopTop_depsRunning hend.1 hend.2 hp).1

/-- The first scan starts `a` as process 126 and `b`, which hard-depends on `a`, as process 135. -/
def chainUp : Pass := { listing := some [bytesOf "a", bytesOf "b"] }

/-- `a` crashes: the reaper tells `b` to stop before the next `poll`. -/
theorem dependencies_running_crash :
    DepsRunning (loopTop { exits := [(126, 256)] }
      (run mainPass [chainUp] (bootOn chainFiles))).world := by
  apply dependencies_running
  · decide +kernel
  · decide +kernel

/-- `stop a`: at the next `poll` `a` is STOPPING and `b` is still RUNNING, and has not been told
    to stop. -/
theorem dependent_left_running :
    let w := (loopTop {} (run mainPass
      [{ chainUp with poll := { control := some (bytesOf "stop a") } }] (bootOn chainFiles))).world
    ¬DepsRunning w ∧ (w.svc 0).state = .stopping ∧ (w.svc 1).state = .running ∧
      (w.svc 1).stopping = false := by
  decide +kernel

end SvcRs
