import SvcRs.Spec.Processes
import SvcRs.Spec.Startup

/-!
# When a main process is forked

Every fork of a main process is the start pass at work, and the pass checks the record and the
hard dependencies first. So nothing is started for a record that is missing, stopping, waiting or
unwanted, and never before what it depends on.

## Key results

- `forks_by_startSlot`: only the start pass forks main processes
- `starts_find_dependencies`: every fork finds a record that is due, and its hard dependencies up
-/

namespace SvcRs

open Transition (run)

/-! ## Who forks -/

section

variable {S : Kind → Prop} {a b : Life} (i : Nat) (pid : Int)

/-- One step: the fork is that of a `start` step. -/
theorem LifeStep.forks (h : LifeStep S a b) :
    ∃ evs, b.log = evs ++ a.log ∧ (.fork (.main i) pid ∈ evs → S (.start i)) := by
  cases h with
  | start j c hc hS p t hdue hpid ht =>
    refine ⟨[.started j t, .fork (.main j) p], rfl, fun hmem => ?_⟩
    have hij : i = j ∧ pid = p := by simpa using hmem
    exact hij.1 ▸ hS
  | tick | unmark | retry | startFail => exact ⟨[], rfl, nofun⟩
  | reapLogger | reapOther => exact ⟨[.reaped ..], rfl, by simp⟩
  | reapMain => exact ⟨[.exited .., .reaped ..], rfl, by simp⟩
  | runCheck => exact ⟨[.reaped .., .fork .check _], rfl, by simp⟩
  | _ => exact ⟨[_], rfl, by simp⟩

/-- A main process is forked only by a start that is allowed. -/
theorem LifeSteps.forks (h : LifeSteps S a b) :
    ∃ evs, b.log = evs ++ a.log ∧ (.fork (.main i) pid ∈ evs → S (.start i)) := by
  induction h with
  | refl => exact ⟨[], rfl, nofun⟩
  | tail _ hlast ih =>
    obtain ⟨early, hearly, hS⟩ := ih
    obtain ⟨late, hlate, hS'⟩ := hlast.forks i pid
    refine ⟨late ++ early, by rw [hlate, hearly, List.append_assoc], fun hmem => ?_⟩
    exact (List.mem_append.mp hmem).elim hS' hS

end

section

variable {w : World} {i : Nat} {pid : Int}

/-- A main process is forked by the start pass, for a record that is due and whose hard
    dependencies are satisfied. -/
theorem forks_by_startSlot {op : Op} (h : .fork (.main i) pid ∈ logged [op] w) :
    ∃ t, op = .start t i ∧ startDue (min t w.k.clock) (w.svc i) = true ∧
      depsSatisfied w (w.svc i) = true := by
  have hstart : op.kinds w (.start i) := by
    obtain ⟨evs, hevs, hS⟩ := LifeSteps.forks i pid (exec_steps op w)
    apply hS
    have hlog : (exec op w).k.log = evs ++ w.k.log := hevs
    simpa [logged, hlog] using h
  cases op with
  | start t j =>
    have hij : i = j := hstart
    subst hij
    refine ⟨t, rfl, ?_⟩
    -- otherwise nothing is logged
    have hlogs : (exec (.start t i) w).k.log ≠ w.k.log := by
      intro hsame
      simp [logged, hsame] at h
    simp only [exec, startSlot, Sup.get_bind, Sup.ite_apply] at hlogs
    cases hdue : startDue (min t w.k.clock) (w.svc i) with
    | false =>
      rw [hdue] at hlogs
      exact absurd rfl hlogs
    | true =>
      cases hdeps : depsSatisfied w (w.svc i) with
      | true => exact ⟨rfl, rfl⟩
      | false =>
        rw [hdue, hdeps] at hlogs
        exact absurd rfl hlogs
  | _ => exact absurd hstart id

end

/-! ## What the fork finds -/

/-- The service `dep` runs before and after, with the same record and the same process. -/
def DependencyRuns (w w' : World) (dep : Dependency) : Prop :=
  ∃ j, findServiceByName w dep.name = some j ∧ (w.svc j).state = .running ∧
    w'.svc j = w.svc j ∧ ⟨(w.svc j).pid, .main j⟩ ∈ w'.k.children

/-- A service that is due stays due. -/
theorem startDue_later {t t' : Int} {s : Service} (h : startDue t s = true) (hle : t ≤ t') :
    startDue t' s = true := by
  simp only [startDue, Bool.and_eq_true, decide_eq_true_eq] at h ⊢
  obtain ⟨⟨hidle, hrestart⟩, hwanted⟩ := h
  exact ⟨⟨hidle, by omega⟩, hwanted⟩

/-- In every run, when a main process is forked: its record is active, present and not stopping,
    has no process, is not told to wait any longer, and is wanted; and each of its hard
    dependencies runs, before and after. -/
theorem starts_find_dependencies {w : World} (hw : Reachable w) {op : Op} {i : Nat} {pid : Int}
    (hfork : .fork (.main i) pid ∈ logged [op] w) :
    startDue w.k.clock (w.svc i) = true ∧
      ∀ dep ∈ (w.svc i).deps, dep.soft = false → DependencyRuns w (exec op w) dep := by
  obtain ⟨t, rfl, hdue, hdeps⟩ := forks_by_startSlot hfork
  have hidle : (w.svc i).pid ≤ 0 := by
    simp only [startDue, Bool.and_eq_true, decide_eq_true_eq] at hdue
    exact hdue.1.1.2
  refine ⟨startDue_later hdue (by omega), fun dep hdep hhard => ?_⟩
  obtain ⟨j, hfind, hrun⟩ := isRunning_iff.mp (depsSatisfied_iff.mp hdeps dep hdep hhard)
  -- a service that runs is not the one that is started
  have hpid : 0 < (w.svc j).pid := ((hw.accounted.tracked.sound j).running hrun).1
  have hne : j ≠ i := by
    rintro rfl
    omega
  have hsame : (exec (.start t i) w).svc j = w.svc j := startSlot_other hne
  have ht : (exec (.start t i) w).life.Tracked := (hw.performs (.op _ w)).accounted.tracked
  have hpid' : 0 < ((exec (.start t i) w).svc j).pid := by
    rw [hsame]
    exact hpid
  have hmem : ⟨((exec (.start t i) w).svc j).pid, .main j⟩ ∈ (exec (.start t i) w).k.children :=
    ht.main_mem hpid'
  rw [hsame] at hmem
  exact ⟨j, hfind, hrun, hsame, hmem⟩

/-- When `b` is started, `a`, on which it depends, runs. -/
def aStarted : World := run exec [.scanEntry (bytesOf "a"), .scanEntry (bytesOf "b"), .start 0 0]
  (bootOn chainFiles).world

/-- `b` is started after `a`. -/
theorem starts_find_dependencies_b :
    startDue aStarted.k.clock (aStarted.svc 1) = true ∧
      ∀ dep ∈ (aStarted.svc 1).deps, dep.soft = false →
        DependencyRuns aStarted (exec (.start 0 1) aStarted) dep := by
  have hw : Reachable aStarted := ⟨_, _, _, _, rfl⟩
  have hfork : .fork (.main 1) 134 ∈ logged [.start 0 1] aStarted := by decide +kernel
  exact starts_find_dependencies hw hfork

end SvcRs
