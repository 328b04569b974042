import SvcRs.Spec.DescriptorTable
import SvcRs.Spec.Loggers
import SvcRs.Spec.Shutdown
import SvcRs.Spec.StatusFile

/-!
# What the shutdown leaves behind

The state in which `main` returns: the records, the descriptors, the children that were not
reaped in time and the status files.

## Key results

- `cleanup_clears`: every active record is as one that never ran
- `leftover_killed`: whatever is not reaped has been sent SIGKILL
- `cleanup_shows`: the status files say that the services are down
- `shutdown_leaves_nothing`: the whole program
-/

namespace SvcRs

open Transition (run since)

/-! ## The records -/

/-- No processes and no descriptors. -/
structure Service.Cleared (s : Service) : Prop where
  pid : s.pid = -1
  logPid : s.logPid = -1
  state : s.state = .down
  logState : s.logState = .down
  reads : ∀ err, (s.stream err).readFd = -1
  logs : ∀ err, (s.stream err).logFd = -1

/-- What the final cleanup makes of a record. -/
def Service.cleared (s : Service) : Service :=
  { s with
    out := { s.out with readFd := -1, logFd := -1 }
    err := { s.err with readFd := -1, logFd := -1 }
    pid := -1, logPid := -1, state := .down, logState := .down }

/-- A cleared record has no process. -/
theorem Service.cleared_cleared (s : Service) : s.cleared.Cleared where
  pid := rfl
  logPid := rfl
  state := rfl
  logState := rfl
  reads err := by cases err <;> rfl
  logs err := by cases err <;> rfl

/-- The record after the cleanup. -/
theorem cleanupService_record (s : Service) (k : Kernel) :
    (cleanupService s k).1 = s.cleared := rfl

/-- The records after the cleanup of one slot. -/
theorem cleanupSlot_svc (i j : Nat) (w : World) : (cleanupSlot i w).2.svc j =
    if j = i ∧ (w.svc i).active = true then (w.svc i).cleared else w.svc j := by
  unfold cleanupSlot
  rw [Sup.get_bind, Sup.ite_apply]
  by_cases hact : (w.svc i).active = true
  · simp only [hact, if_true, and_true]
    rw [onSlot_svc, cleanupService_record]
  · simp [hact]

/-- The cleanup forks and reaps nothing. -/
theorem cleanup_children (is : List Nat) (w : World) :
    (forSlots cleanupSlot is w).2.k.children = w.k.children := by
  -- cleaning up neither forks nor reaps
  induction is generalizing w with
  | nil => rfl
  | cons i is ih =>
    have hslot : (cleanupSlot i w).2.k.children = w.k.children := by
      unfold cleanupSlot
      rw [Sup.get_bind, Sup.ite_apply]
      split
      · have hclose := (closeServiceFds_calm (w.svc i)).rel w.k
        exact ((writeStatusFile_calm _).rel _).children.trans hclose.children
      · rfl
    exact (ih (cleanupSlot i w).2).trans hslot

/-- After the loop over some slots, a record is untouched or cleared. -/
theorem cleanup_svc (is : List Nat) (w : World) (i : Nat) :
    (forSlots cleanupSlot is w).2.svc i =
      if i ∈ is ∧ (w.svc i).active = true then (w.svc i).cleared else w.svc i := by
  induction is generalizing w with
  | nil => simp [forSlots]
  | cons j is ih =>
    show (forSlots cleanupSlot is (cleanupSlot j w).2).2.svc i = _
    rw [ih, cleanupSlot_svc]
    by_cases hact : (w.svc i).active = true
    · by_cases hij : i = j
      · -- clearing a record twice is the same as clearing it once
        subst hij
        have hcleared : (w.svc i).cleared.active = true := hact
        simp only [hact, hcleared, if_true, List.mem_cons, true_or, and_true]
        split <;> rfl
      · simp [hij, hact]
    · by_cases hij : i = j
      · subst hij
        simp [hact]
      · simp [hij, hact]

/-- All records in use are cleared. -/
theorem cleanup_clears {w : World} {i : Nat} (hi : i < w.size)
    (hact : ((cleanupServices w).2.svc i).active = true) :
    ((cleanupServices w).2.svc i).Cleared := by
  have hslot : i ∈ w.slots := List.mem_range.mpr hi
  have hsvc : (cleanupServices w).2.svc i = _ := cleanup_svc w.slots w i
  rw [hsvc] at hact ⊢
  by_cases hwas : (w.svc i).active = true
  · rw [if_pos ⟨hslot, hwas⟩]
    exact (w.svc i).cleared_cleared
  · rw [if_neg fun h => hwas h.2] at hact
    exact absurd hact hwas

/-! ## The children that are left -/

/-- The main processes and the loggers. -/
def Role.ofService : Role → Bool
  | .main _ | .logger _ => true
  | .finish | .check => false

/-- Nobody of a service joins the children any more. -/
theorem LifeStep.noneJoins {a b : Life} (h : LifeStep noStart a b) {c : Child}
    (hc : c ∈ b.children) (hrole : c.role.ofService = true) : c ∈ a.children := by
  cases h with
  | retry _ _ _ hS | forkLogger _ _ _ hS | start _ _ _ hS | startFail _ _ _ hS => exact hS.elim
  | forkFinish pid hpid =>
    cases List.mem_cons.mp hc with
    | inl he =>
      subst he
      cases hrole
    | inr hold => exact hold
  | reapOther | reapLogger | reapMain => exact (Life.Tracked.mem_without.mp hc).1
  | _ => exact hc

/-- Without starts, services get no new children. -/
theorem Steps.noneJoins {w w' : World} (h : Steps noStart w w') {c : Child}
    (hc : c ∈ w'.k.children) (hrole : c.role.ofService = true) : c ∈ w.k.children := by
  have hlife : ∀ {a b : Life}, LifeSteps noStart a b → c ∈ b.children → c ∈ a.children := by
    intro a b h
    induction h with
    | refl => exact id
    | tail _ hstep ih => exact fun hc => ih (hstep.noneJoins hc hrole)
  exact hlife h hc

/-- Nothing is started between the first deadline and the return of `main`. -/
theorem afterDeadline_steps (first second : List Round) (w : World) :
    Steps noStart (afterDeadline first w) (shutdownServices first second w).2 := by
  obtain ⟨deadline, hrun⟩ := shutdownServices_eq first second w
  have hkill := (killLoop_keeps steps_respects (afterDeadline first w).slots).rel
    (afterDeadline first w)
  have hclock := (readClock_keeps steps_respects).rel
    (forSlots killRemaining (afterDeadline first w).slots (afterDeadline first w)).2
  have hwait := (waitLoop_keeps steps_respects deadline second).rel (liftSys monoNow
    (forSlots killRemaining (afterDeadline first w).slots (afterDeadline first w)).2).2
  rw [hrun]
  exact hkill.trans (hclock.trans hwait)

/-- Nothing is started before the first deadline either. -/
theorem toDeadline_steps (first : List Round) (w : World) :
    Steps noStart w (afterDeadline first w) := by
  have hstop : Steps noStart w (exec .stopAll w) :=
    exec_starts_nothing (fun _ _ => Op.noConfusion) w
  have hclock := (readClock_keeps steps_respects).rel (stopAllInOrder w).2
  exact (hstop.trans hclock).trans ((waitLoop_keeps steps_respects _ first).rel _)

/-- And loggers stay recorded. -/
theorem Steps.loggersKept {w w' : World} (h : Steps noStart w w') (ht : w.life.Tracked)
    (hkept : w.life.LoggersKept) : w'.life.LoggersKept := by
  have hboth := LifeSteps.invariant (I := fun a => a.Tracked ∧ a.LoggersKept)
    (fun _ _ hstep ha => ⟨hstep.tracked ha.1, hstep.loggersKept ha.1 ha.2⟩) h ⟨ht, hkept⟩
  exact hboth.2

section

variable {w : World} (hw : Reachable w) (first second : List Round)

include hw

/-- Whoever is left has been sent SIGKILL. -/
theorem leftover_killed {c : Child} (hc : c ∈ (shutdownEnd first second w).k.children) :
    (∀ i, c.role = .main i →
      (-c.pid, sigkill) ∈ signals (afterDeadline first w) (shutdownEnd first second w)) ∧
    (w.LoggersRecorded → ∀ i, c.role = .logger i →
      (c.pid, sigkill) ∈ signals (afterDeadline first w) (shutdownEnd first second w)) := by
  have htracked := (hw.performs (afterDeadline_performs first w)).accounted.tracked
  obtain ⟨-, -, -, hkills⟩ := shutdown_misses_nothing hw first second
  have hsteps := afterDeadline_steps first second w
  have hchildren : (shutdownEnd first second w).k.children = _ := cleanup_children _ _
  rw [hchildren] at hc
  obtain ⟨pid, role⟩ := c
  constructor
  · rintro i rfl
    -- it was there at the first deadline, so its record names it
    have hmem := hsteps.noneJoins hc rfl
    obtain ⟨hact, hpos, hpid⟩ := (htracked.main i pid).mp hmem
    have hpid : ((afterDeadline first w).svc i).pid = pid := hpid
    have hkill := (hkills i hact).1
    rw [hpid] at hkill
    exact hkill hpos
  · rintro hrec i rfl
    have hmem := hsteps.noneJoins hc rfl
    have hkept := (toDeadline_steps first w).loggersKept hw.accounted.tracked
      ((loggersRecorded_iff hw.accounted.tracked).mp hrec)
    obtain ⟨hact, hpid⟩ := hkept i pid hmem
    have habove : 1 < pid := htracked.above _ hmem
    have hpid : ((afterDeadline first w).svc i).logPid = pid := hpid
    have hkill := (hkills i hact).2
    rw [hpid] at hkill
    exact hkill (by omega)

end

/-! ## The status files -/

/-- The last attempt to write this status file failed, or it wrote the status of a cleared
    record. -/
def SaysDown (path : Bytes) (k : Kernel) : Prop :=
  ∃ s : Service, s.Cleared ∧ statusPath s = path ∧ Shows s k

/-- The cleanup writes the status. -/
theorem cleanupService_reports (s : Service) : Reports s.dir (cleanupService s) :=
  .after (closeServiceFds_keepsStatus s) fun s₁ h₁ => h₁.dir ▸
    reports_status { s₁ with pid := -1, logPid := -1, state := .down, logState := .down }

/-- The status file of the slot says so, and those that said so before still do. -/
theorem cleanupSlot_shows (i : Nat) (w : World) :
    ((w.svc i).active = true → SaysDown (statusPath (w.svc i)) (cleanupSlot i w).2.k) ∧
      ∀ path, SaysDown path w.k → SaysDown path (cleanupSlot i w).2.k := by
  unfold cleanupSlot
  rw [Sup.get_bind, Sup.ite_apply]
  split
  · have hclean : (onSlot i cleanupService w).2.k = (cleanupService (w.svc i) w.k).2 := rfl
    rw [hclean]
    obtain ⟨hemits, hdir, hshows⟩ := cleanupService_reports (w.svc i) w.k trivial
    rw [cleanupService_record] at hshows
    have hdown : SaysDown (statusPath (w.svc i)) (cleanupService (w.svc i) w.k).2 :=
      ⟨(w.svc i).cleared, (w.svc i).cleared_cleared, rfl, hshows⟩
    refine ⟨fun _ => hdown, ?_⟩
    rintro path ⟨s, hs, hpath, hold⟩
    by_cases hsame : statusPath (w.svc i) = path
    · exact hsame ▸ hdown
    · -- the file of another service is not touched
      subst hpath
      exact ⟨s, hs, rfl, hold.same (.refl s) (hemits.mono fun _ he => he.reportOn hsame)⟩
  · next hact => exact ⟨fun h => absurd h hact, fun _ h => h⟩

/-- Every status file says `down`, by induction over the slots. -/
theorem cleanup_shows (is : List Nat) (w : World) :
    (∀ i ∈ is, (w.svc i).active = true →
      SaysDown (statusPath (w.svc i)) (forSlots cleanupSlot is w).2.k) ∧
      ∀ path, SaysDown path w.k → SaysDown path (forSlots cleanupSlot is w).2.k := by
  -- by induction on the slots
  induction is generalizing w with
  | nil => exact ⟨fun i hi => absurd hi List.not_mem_nil, fun _ h => h⟩
  | cons j is ih =>
    obtain ⟨hone, hkeeps⟩ := cleanupSlot_shows j w
    obtain ⟨hrest, hkeeps'⟩ := ih (cleanupSlot j w).2
    refine ⟨fun i hi hact => ?_, fun path h => hkeeps' path (hkeeps path h)⟩
    by_cases hij : i = j
    · subst hij
      -- a status that says DOWN is not written again
      exact hkeeps' _ (hone hact)
    · have hsame : (cleanupSlot j w).2.svc i = w.svc i := by
        rw [cleanupSlot_svc, if_neg fun h => hij h.1]
      have hmem := (List.mem_cons.mp hi).resolve_left hij
      have hdown := hrest i hmem
      rw [hsame] at hdown
      exact hdown hact

/-! ## The whole program -/

/-- What is left of the state `w` after the shutdown; `fds` were open before the main loop. -/
structure LeavesNothing (fds : List Int) (first second : List Round) (w : World) : Prop where
  records : ∀ i, ((shutdownEnd first second w).svc i).active = true →
    ((shutdownEnd first second w).svc i).Cleared
  descriptors : ((shutdownEnd first second w).k.fds : Multiset Int) = (fds : Multiset Int)
  /-- A process that has not been reaped was sent SIGKILL. -/
  mains : ∀ c ∈ (shutdownEnd first second w).k.children, ∀ i, c.role = .main i →
    (-c.pid, sigkill) ∈ signals w (shutdownEnd first second w)
  loggers : w.LoggersRecorded → ∀ c ∈ (shutdownEnd first second w).k.children, ∀ i,
    c.role = .logger i → (c.pid, sigkill) ∈ signals w (shutdownEnd first second w)
  files : ∀ i, ((shutdownEnd first second w).svc i).active = true →
    SaysDown (statusPath ((shutdownEnd first second w).svc i)) (shutdownEnd first second w).k

/-- The signals of the second half are among those of the whole. -/
theorem signals_later {w₁ w₂ w₃ : World} {evs evs' : List Event}
    (h : w₂.k.log = evs ++ w₁.k.log) (h' : w₃.k.log = evs' ++ w₂.k.log) {target sig : Int}
    (hmem : (target, sig) ∈ signals w₂ w₃) : (target, sig) ∈ signals w₁ w₃ := by
  have hall : w₃.k.log = (evs' ++ evs) ++ w₁.k.log := by rw [h', h, List.append_assoc]
  apply (mem_signals hall).mpr
  exact List.mem_append_left _ ((mem_signals h').mp hmem)

/-- From every state that the main loop can be in when it breaks. -/
theorem shutdown_leaves_nothing (root : CStrBuf) (oracle : Nat → Answer) {fds : List Int}
    (hfds : fds.Nodup) (ops : List Op) (first second : List Round) :
    LeavesNothing fds first second (run exec ops (boot root oracle fds).world) := by
  have hw : Reachable (run exec ops (boot root oracle fds).world) := ⟨root, oracle, fds, ops, rfl⟩
  have hbooks := run_accounted root oracle hfds
  generalize hrun : run exec ops (boot root oracle fds).world = w at hw
  have hperf := (shutdownServices_isRun first second).rel w
  have htracked := (hw.performs hperf).accounted.tracked
  have hend : (shutdownServices first second w).2.Accounted { base := fds } := by
    obtain ⟨ops', hops'⟩ := hperf
    have hall := hbooks (ops ++ ops')
    rw [Transition.run_append, hrun, hops'] at hall
    exact hall
  -- a record that is active after the cleanup was active before it
  have hactive : ∀ i, ((shutdownEnd first second w).svc i).active = true →
      ((shutdownServices first second w).2.svc i).active = true := by
    intro i hact
    have hsvc : (shutdownEnd first second w).svc i = _ := cleanup_svc _ _ i
    rw [hsvc] at hact
    split at hact
    · next h => exact h.2
    · exact hact
  obtain ⟨evs, hearly⟩ := (afterDeadline_performs first w).log_extends
  obtain ⟨evs', hlate⟩ := LifeSteps.log_extends (afterDeadline_steps first second w)
  have hlate : (shutdownEnd first second w).k.log = evs' ++ (afterDeadline first w).k.log :=
    (cleanupServices_log _).trans hlate
  refine ⟨fun i hact => ?_, cleanup_closes hend, fun c hc i hi => ?_, fun hrec c hc i hi => ?_,
    fun i hact => ?_⟩
  · exact cleanup_clears (htracked.inTable i (hactive i hact)) hact
  · exact signals_later hearly hlate ((leftover_killed hw first second hc).1 i hi)
  · exact signals_later hearly hlate ((leftover_killed hw first second hc).2 hrec i hi)
  · have hwas := hactive i hact
    have hslot : i ∈ (shutdownServices first second w).2.slots :=
      List.mem_range.mpr (htracked.inTable i hwas)
    have hpath : statusPath ((shutdownEnd first second w).svc i) =
        statusPath ((shutdownServices first second w).2.svc i) := by
      have hsvc : (shutdownEnd first second w).svc i = _ := cleanup_svc _ _ i
      rw [hsvc, if_pos ⟨hslot, hwas⟩]
      rfl
    rw [hpath]
    exact (cleanup_shows _ _).1 i hslot hwas

/-- A service that runs when SIGTERM comes, and no time to wait for it. -/
theorem shutdown_leaves_nothing_started :
    let w := run exec [.scanEntry (bytesOf "a"), .start 0 0] (openingOn plainFiles).world
    0 < (w.svc 0).pid ∧ w.k.fds.length = 7 ∧ LeavesNothing [0, 1, 2] [] [] w := by
  have hpid : 0 < ((run exec [.scanEntry (bytesOf "a"), .start 0 0]
      (openingOn plainFiles).world).svc 0).pid := by decide +kernel
  have hlength : (run exec [.scanEntry (bytesOf "a"), .start 0 0]
      (openingOn plainFiles).world).k.fds.length = 7 := by decide +kernel
  have hfds : ([0, 1, 2] : List Int).Nodup := by decide
  have h := shutdown_leaves_nothing (CStrBuf.fromBytes (bytesOf "/s")) (opening plainFiles) hfds
    [.scanEntry (bytesOf "a"), .start 0 0] [] []
  rw [openingOn] at hpid hlength ⊢
  -- the run itself is not looked at any more
  generalize run exec _ _ = w at hpid hlength h
  exact ⟨hpid, hlength, h⟩

end SvcRs
