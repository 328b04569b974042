import SvcRs.Spec.PartialScan

/-!
# How services are removed

`handle_missing_services` tells the processes of a missing service to stop and gives its slot up
once they are gone. After a scan every missing service is being waited for, so that a second look
at the missing services does nothing.

## Key results

- `missingLoop_settles`: after the loop every missing service is being waited for
- `rescan_removes`: which services a scan keeps, waits for and gives up
- `missing_idempotent`: after a scan there is nothing left to do
-/

namespace SvcRs

/-! ## One slot -/

/-- What may happen to the record of slot `i` while the missing services are looked at. -/
structure Fades (i : Nat) (w w' : World) : Prop where
  pid : (w'.svc i).pid = (w.svc i).pid
  logPid : (w'.svc i).logPid = (w.svc i).logPid
  present : (w'.svc i).present = (w.svc i).present
  stays : (w.svc i).active = true →
    (w.svc i).present = true ∨ 0 < (w.svc i).pid ∨ 0 < (w.svc i).logPid →
    (w'.svc i).active = true
  rests : (w.svc i).Rests → (w'.svc i).Rests

section

variable {w w₁ w' : World} {i j : Nat}

/-- Nothing happens. -/
theorem Fades.of_eq (h : w'.svc i = w.svc i) : Fades i w w' := by
  constructor <;> rw [h]
  · exact fun hact _ => hact
  · exact id

/-- One after the other. -/
theorem Fades.trans (h : Fades i w w₁) (h' : Fades i w₁ w') : Fades i w w' where
  pid := h'.pid.trans h.pid
  logPid := h'.logPid.trans h.logPid
  present := h'.present.trans h.present
  stays hact hneeded := by
    apply h'.stays (h.stays hact hneeded)
    rw [h.pid, h.logPid, h.present]
    exact hneeded
  rests hrests := h'.rests (h.rests hrests)

/-- A service that is told to stop rests if it did. -/
theorem Fades.told (h : w'.svc i = (w.svc i).told) : Fades i w w' := by
  constructor <;> rw [h]
  · rfl
  · rfl
  · rfl
  · exact fun hact _ => hact
  · intro hrests hact hmissing
    obtain ⟨-, hlogger, halive⟩ := hrests hact hmissing
    exact ⟨fun _ => rfl, hlogger, halive⟩

/-- Stopping dependents keeps the processes on record. -/
theorem stopTransitiveDeps_fades (i : Nat) (w : World) : Fades i w (stopTransitiveDeps w).2 := by
  obtain ⟨order, hrun, -⟩ := stopTransitiveDeps_order w
  have hsvc : (stopTransitiveDeps w).2.svc i = if i ∈ order then (w.svc i).told else w.svc i := by
    rw [hrun, run_tell_svc]
  split at hsvc
  · exact .told hsvc
  · exact .of_eq hsvc

/-- Stopping a missing service does, too. -/
theorem stopMissing_fades (i j : Nat) (w : World) : Fades i w (stopMissing j w).2 := by
  simp only [stopMissing, Sup.get_bind, Sup.ite_apply]
  split
  · apply (stopTransitiveDeps_fades i w).trans
    by_cases hij : i = j
    · subst hij
      exact .told (if_pos rfl)
    · exact .of_eq (if_neg hij)
  · exact .of_eq rfl

/-- A main process that is left has been told to stop. -/
theorem stopMissing_told (hpid : 0 < (w.svc i).pid) :
    ((stopMissing i w).2.svc i).stopping = true := by
  simp only [stopMissing, Sup.get_bind, Sup.ite_apply]
  split
  · rw [Sup.bind_apply, onSlot_svc, if_pos rfl]
    rfl
  · next hskip =>
    simp only [Bool.and_eq_true, decide_eq_true_eq, Bool.not_eq_true', not_and,
      Bool.not_eq_false] at hskip
    exact hskip hpid

/-- The processes of the record, and what it says about the main process. -/
structure Service.SameProcesses (s s' : Service) : Prop where
  pid : s'.pid = s.pid
  logPid : s'.logPid = s.logPid
  present : s'.present = s.present
  stopping : s'.stopping = s.stopping

/-- A logger that is left has been told to stop. -/
theorem releaseMissing_told (slot : Nat) (s : Service) (k : Kernel) :
    s.SameProcesses (releaseMissing slot s k).1 ∧
      (0 < s.logPid → (releaseMissing slot s k).1.logStopping = true) := by
  -- giving the slot up changes `active` and `state` only
  have hslot : ∀ (s : Service) k, s.SameProcesses ((if s.pid ≤ 0 && s.logPid ≤ 0
      then releaseSlot slot s else pure s : Sys Service) k).1 ∧
        ((if s.pid ≤ 0 && s.logPid ≤ 0 then releaseSlot slot s else pure s : Sys Service)
          k).1.logStopping = s.logStopping := by
    intro s k
    split <;> exact ⟨⟨rfl, rfl, rfl, rfl⟩, rfl⟩
  rw [releaseMissing_apply]
  by_cases htell : (s.logPid > 0 && !s.logStopping) = true
  · rw [if_pos htell]
    obtain ⟨hsame, htold⟩ := hslot (signalLogger s k).1 (signalLogger s k).2
    exact ⟨⟨hsame.pid, hsame.logPid, hsame.present, hsame.stopping⟩, fun _ => htold⟩
  -- there is no logger, or it has been told already
  · rw [if_neg htell]
    obtain ⟨hsame, htold⟩ := hslot s k
    refine ⟨hsame, fun hpos => ?_⟩
    simp only [Bool.and_eq_true, decide_eq_true_eq, Bool.not_eq_true', not_and,
      Bool.not_eq_false] at htell
    exact htold.trans (htell hpos)

/-- The second half of the loop body, for a service that is not present. -/
theorem releaseMissing_fades (hmissing : (w.svc j).present = false) :
    Fades i w (onSlot j (releaseMissing j) w).2 := by
  by_cases hij : i = j
  · subst hij
    obtain ⟨hsame, htold⟩ := releaseMissing_told i (w.svc i) w.k
    have hactive := releaseMissing_active i (w.svc i) w.k
    constructor <;> rw [onSlot_svc, if_pos rfl]
    · exact hsame.pid
    · exact hsame.logPid
    · exact hsame.present
    · intro hact hneeded
      rw [hactive, hact]
      have halive : 0 < (w.svc i).pid ∨ 0 < (w.svc i).logPid := by
        simpa [hmissing] using hneeded
      simp only [Bool.true_and, Bool.not_eq_true', Bool.and_eq_false_iff,
        decide_eq_false_iff_not]
      omega
    · intro hrests hact _
      -- the record is still in use, so it was before
      rw [hactive, Bool.and_eq_true] at hact
      obtain ⟨hmain, -, halive⟩ := hrests hact.1 hmissing
      refine ⟨?_, ?_, ?_⟩
      · rw [hsame.pid, hsame.stopping]
        exact hmain
      · rw [hsame.logPid]
        exact htold
      · rw [hsame.pid, hsame.logPid]
        exact halive
  · exact .of_eq (if_neg hij)

/-- One slot of the loop. -/
theorem missingSlot_fades (i j : Nat) (w : World) : Fades i w (missingSlot j w).2 := by
  simp only [missingSlot, Sup.get_bind, Sup.ite_apply]
  split
  · next h =>
    simp only [Bool.and_eq_true, Bool.not_eq_true'] at h
    have hmissing := (stopMissing_fades j j w).present.trans h.2
    exact (stopMissing_fades i j w).trans (releaseMissing_fades hmissing)
  · exact .of_eq rfl

/-- Afterwards there is nothing more to do for the slot. -/
theorem missingSlot_settles (i : Nat) (w : World) : ((missingSlot i w).2.svc i).Rests := by
  simp only [missingSlot, Sup.get_bind, Sup.ite_apply]
  split
  -- active and missing: the service is stopped, and its slot given up if nothing runs
  · intro hact hmissing
    let w₁ := (stopMissing i w).2
    obtain ⟨hsame, htold⟩ := releaseMissing_told i (w₁.svc i) w₁.k
    have hactive := releaseMissing_active i (w₁.svc i) w₁.k
    have hstop := stopMissing_fades i i w
    rw [Sup.bind_apply, onSlot_svc, if_pos rfl] at hact ⊢
    rw [hactive, Bool.and_eq_true, Bool.not_eq_true', Bool.and_eq_false_iff] at hact
    simp only [decide_eq_false_iff_not] at hact
    -- main process, logger, and the two together
    refine ⟨?_, ?_, ?_⟩
    · rw [hsame.pid, hsame.stopping, hstop.pid]
      exact stopMissing_told
    · rw [hsame.logPid]
      exact htold
    · rw [hsame.pid, hsame.logPid]
      omega
  -- the slot is passed over, so it is not active or not missing
  · next hskip =>
    show (w.svc i).Rests
    intro hact hmissing
    simp [hact, hmissing] at hskip

/-! ## The loop -/

/-- The loop over the slots. -/
theorem missingLoop_fades (is : List Nat) (i : Nat) (w : World) :
    Fades i w (forSlots missingSlot is w).2 := by
  induction is generalizing w with
  | nil => exact .of_eq rfl
  | cons j is ih => exact (missingSlot_fades i j w).trans (ih (missingSlot j w).2)

/-- Afterwards there is nothing more to do for any of them. -/
theorem missingLoop_settles {is : List Nat} (hi : i ∈ is) (w : World) :
    ((forSlots missingSlot is w).2.svc i).Rests := by
  induction is generalizing w with
  | nil => cases hi
  | cons j is ih =>
    show ((forSlots missingSlot is (missingSlot j w).2).2.svc i).Rests
    cases List.mem_cons.mp hi with
    | inl hij =>
      subst hij
      exact (missingLoop_fades is i _).rests (missingSlot_settles i w)
    | inr hrest => exact ih hrest _

end

/-! ## The scan -/

section

variable {w : World} {names : List Bytes} {i : Nat}

/-- After a scan every missing service is being waited for. -/
theorem rescan_settles (ht : w.life.Tracked) (names : List Bytes) (i : Nat) :
    ((rescan (some names) w).2.svc i).Rests := by
  intro hact hmissing
  have hact₁ : ((scan names w).svc i).active = true := missingLoop_active _ hact
  have hmissing₁ : ((scan names w).svc i).present = false :=
    (missingLoop_fades _ i (scan names w)).present.symm.trans hmissing
  have hslot : i ∈ (scan names w).slots := by
    simp only [World.slots, List.mem_range, scan_size]
    exact ht.inTable i (scan_missing names hact₁ hmissing₁)
  exact missingLoop_settles hslot (scan names w) hact hmissing

/-- After a scan there is nothing left to do for `handle_missing_services`. -/
theorem missing_idempotent (hw : Reachable w) (names : List Bytes) :
    (handleMissingServices (rescan (some names) w).2).2 = (rescan (some names) w).2 :=
  missingLoop_rests _ fun i _ => rescan_settles hw.accounted.tracked names i

/-- A service that was active before a scan stays if its directory is met. Otherwise it is missing:
    its slot is given up if and only if both its processes are gone, and if not, then those that
    are left have been told to stop. -/
theorem rescan_removes (hw : Reachable w) (names : List Bytes) (hact : (w.svc i).active = true) :
    let w' := (rescan (some names) w).2
    (w'.svc i).pid = (w.svc i).pid ∧ (w'.svc i).logPid = (w.svc i).logPid ∧
    (MetBy i names (unmarked w) → (w'.svc i).active = true ∧ (w'.svc i).present = true) ∧
    (¬MetBy i names (unmarked w) → (w'.svc i).present = false ∧
      ((w'.svc i).active = true ↔ 0 < (w.svc i).pid ∨ 0 < (w.svc i).logPid) ∧
      ((w'.svc i).active = true → (w'.svc i).AwaitsExit)) := by
  intro w'
  have ht := hw.accounted.tracked
  obtain ⟨⟨hrefreshes, -⟩, hmet, hunmet⟩ := scan_slot ht names hact
  -- the scan first, and then the loop over the missing services
  have hfades : Fades i (scan names w) w' := missingLoop_fades _ i (scan names w)
  have hrests : (w'.svc i).Rests := rescan_settles ht names i
  have hact₁ : ((scan names w).svc i).active = true := by
    rw [hrefreshes]
    exact hact
  have hpid : ((scan names w).svc i).pid = (w.svc i).pid := by rw [hrefreshes]
  have hlogPid : ((scan names w).svc i).logPid = (w.svc i).logPid := by rw [hrefreshes]
  refine ⟨hfades.pid.trans hpid, hfades.logPid.trans hlogPid, fun hm => ?_, fun hm => ?_⟩
  -- the directory was met
  · have hpresent := hmet hm
    exact ⟨hfades.stays hact₁ (.inl hpresent), hfades.present.trans hpresent⟩
  -- it was not, and the record waits for its processes
  · have hmissing : (w'.svc i).present = false := by
      rw [hfades.present, hunmet hm]
    refine ⟨hmissing, ⟨fun hactive => ?_, fun halive => ?_⟩, fun hactive => hrests hactive hmissing⟩
    · have halive := (hrests hactive hmissing).alive
      rw [hfades.pid, hfades.logPid, hpid, hlogPid] at halive
      exact halive
    · apply hfades.stays hact₁
      rw [hpid, hlogPid]
      exact .inr halive

/-- The directory of the running service `a` is gone. -/
theorem rescan_removes_a :
    let w' := (rescan (some []) plainStarted).2
    (w'.svc 0).present = false ∧ (w'.svc 0).AwaitsExit := by
  have hact : (plainStarted.svc 0).active = true := by decide +kernel
  have hpid : 0 < (plainStarted.svc 0).pid := by decide +kernel
  obtain ⟨-, -, -, hgone⟩ := rescan_removes plainStarted_reachable [] hact
  obtain ⟨hmissing, hactive, hwaits⟩ := hgone id
  exact ⟨hmissing, hwaits (hactive.mpr (.inl hpid))⟩

end

end SvcRs
