import SvcRs.Spec.ScanSync
import SvcRs.Spec.StopClosure

/-!
# Directory reads that fail

`scan_services` says so when `opendir` fails, and the main loop then leaves the services
alone. `readdir` returns NULL at the end of the directory and when it fails, and the scan
takes both for the end: the services whose entries come later are missing.

## Key results

- `scanEntries_slot`: a scan changes the records that its entries meet, and no other
- `missingLoop_spares`: when the treatment of the missing services touches nobody
- `partial_read_iff`: when an incomplete read stops nothing
- `partial_read_stops`: a read that fails at once stops a running service
-/

namespace SvcRs

/-! ## Reading a directory -/

/-- A read of the directory that does not get to its end: `opendir` fails, or `readdir` fails
    after it has returned some entries. -/
inductive FailedRead where
  | opendir
  | readdir (entries : List Bytes)

/-- What the code makes of it. It does not look at `errno`, so the entries are the listing. -/
def FailedRead.listing : FailedRead → Option (List Bytes)
  | .opendir => none
  | .readdir entries => some entries

/-- No service has been marked missing, signalled, stopped or given up. -/
structure StopsNothing (w w' : World) : Prop where
  unmarked : ∀ i, (w.svc i).active = true → (w.svc i).present = true → (w'.svc i).present = true
  unsignalled : Kills [] w.k w'.k
  running : ∀ i, (w.svc i).active = true →
    ((w'.svc i).stopping = true → (w.svc i).stopping = true) ∧ (w'.svc i).state = (w.svc i).state
  loggers : ∀ i, (w.svc i).active = true → (w'.svc i).logStopping = (w.svc i).logStopping
  active : ∀ i, (w.svc i).active = true → (w'.svc i).active = true

/-- One of the entries, when it is read, is the directory of slot `i`. -/
def MetBy (i : Nat) : List Bytes → World → Prop
  | [], _ => False
  | name :: names, w => FoundAt w name i ∨ MetBy i names (scanEntry name w).2

/-- A missing service that is being waited for: what it still has has been told to stop. -/
structure Service.AwaitsExit (s : Service) : Prop where
  main : 0 < s.pid → s.stopping = true
  logger : 0 < s.logPid → s.logStopping = true
  alive : 0 < s.pid ∨ 0 < s.logPid

/-! ## Signals -/

section

variable {k k' : Kernel} {targets targets' : List Int}

/-- The trace tells who was signalled. -/
theorem Kills.unique (h : Kills targets k k') (h' : Kills targets' k k') : targets = targets' := by
  obtain ⟨evs, hevs, htargets⟩ := h
  obtain ⟨evs', hevs', htargets'⟩ := h'
  obtain rfl : evs = evs' := List.append_cancel_right (hevs.symm.trans hevs')
  have hmaps := htargets.symm.trans htargets'
  exact List.map_injective_iff.mpr (fun a b hab => (Prod.mk.inj hab).1) hmaps

/-- An event that is no signal. -/
theorem emit_kills {e : Event} (he : e.isLife = true) (hkill : e.killed = none) (k : Kernel) :
    Kills [] k (emit e k).2 :=
  ⟨[e], emit_log he k, by simp [hkill]⟩

end

/-! ## The entries of a listing -/

/-- The record has been met again, or nothing has happened to it. -/
structure Service.Kept (s s' : Service) : Prop where
  refreshes : s.Refreshes s'
  stopping : s'.stopping = true → s.stopping = true
  present : s.present = true → s'.present = true

/-- Nothing happens. -/
theorem Service.Kept.refl (s : Service) : s.Kept s := ⟨.refl s, id, id⟩

/-- One after the other. -/
theorem Service.Kept.trans {s s' s'' : Service} (h : s.Kept s') (h' : s'.Kept s'') : s.Kept s'' :=
  ⟨h.refreshes.trans h'.refreshes, h.stopping ∘ h'.stopping, h'.present ∘ h.present⟩

/-- A kept record is in use if it was. -/
theorem Service.Kept.active {s s' : Service} (h : s.Kept s') : s'.active = s.active := by
  have href := h.refreshes
  unfold Service.Refreshes at href
  rw [href]

section

variable {w : World} {i : Nat}

/-- An active record after one entry. -/
theorem scanEntry_slot (name : Bytes) (hact : (w.svc i).active = true) :
    (FoundAt w name i ∧ (w.svc i).Kept ((scanEntry name w).2.svc i) ∧
        ((scanEntry name w).2.svc i).present = true) ∨
      (¬FoundAt w name i ∧ (scanEntry name w).2.svc i = w.svc i) := by
  -- the entry is a known service, a new one, or none
  rcases scanEntry_outcome w name with ⟨j, hfound⟩ | ⟨j, hadds⟩ | ⟨hfound, hadds⟩
  · have hsvc : (scanEntry name w).2.svc i =
        if i = j then (foundService j (w.svc j) (probed name w).k).1 else w.svc i := by
      rw [scanEntry_found hfound, onSlot_svc]
      rfl
    by_cases hij : i = j
    · subst hij
      rw [if_pos rfl] at hsvc
      obtain ⟨href, hpresent⟩ := foundService_refreshes i (w.svc i) (probed name w).k
      -- `foundService` clears `stopping`
      have hstop : (foundService i (w.svc i) (probed name w).k).1.stopping = false :=
        congrArg Core.stopping (foundService_core i (w.svc i) (probed name w).k)
      rw [hsvc]
      refine .inl ⟨hfound, ⟨href, fun h => ?_, fun _ => hpresent⟩, hpresent⟩
      rw [hstop] at h
      cases h
    · rw [if_neg hij] at hsvc
      refine .inr ⟨fun h => hij ?_, hsvc⟩
      exact Option.some.inj (h.find.symm.trans hfound.find)
  -- a new service goes into a slot that was not active
  · have hidle : (w.svc j).active = false := by
      have := (World.findSlot_some hadds.2.2).2
      simpa using this
    have hij : i ≠ j := by
      intro he
      rw [he, hidle] at hact
      cases hact
    refine .inr ⟨fun h => ?_, ?_⟩
    · have hnone := hadds.2.1
      rw [h.find] at hnone
      cases hnone
    · rw [scanEntry_adds hadds, onSlot_svc, if_neg hij]
      rfl
  · obtain ⟨k, he⟩ := scanEntry_skips hfound hadds
    rw [he]
    exact .inr ⟨hfound i, rfl⟩

/-- A new record is present. -/
theorem scanEntry_new (name : Bytes) (hnew : (w.svc i).active = true → (w.svc i).present = true)
    (hact : ((scanEntry name w).2.svc i).active = true) :
    ((scanEntry name w).2.svc i).present = true := by
  -- a record that was active is still present; a new one is active only since this entry
  cases hold : (w.svc i).active with
  | true =>
    rcases scanEntry_slot name hold with ⟨-, hkept, -⟩ | ⟨-, he⟩
    · exact hkept.present (hnew hold)
    · rw [he]
      exact hnew hold
  | false =>
    rcases scanEntry_outcome w name with ⟨j, hfound⟩ | ⟨j, hadds⟩ | ⟨hfound, hadds⟩
    -- a known service has another slot than this free one
    · obtain ⟨-, hactj⟩ := World.findSlot_some hfound.find
      have hij : i ≠ j := by
        intro he
        rw [he] at hold
        simp [hold] at hactj
      rw [scanEntry_found hfound, onSlot_svc, if_neg hij] at hact
      have hact' : (w.svc i).active = true := hact
      rw [hold] at hact'
      cases hact'
    · rw [scanEntry_adds hadds, onSlot_svc] at hact ⊢
      split at hact
      -- `new_service` marks the record as present
      · next hij =>
        rw [if_pos hij]
        exact buildService_present name (serviceDir w.root name) _
      · have hact' : (w.svc i).active = true := hact
        rw [hold] at hact'
        cases hact'
    · obtain ⟨k, he⟩ := scanEntry_skips hfound hadds
      rw [he] at hact ⊢
      exact hnew hact

/-- An entry signals nobody. -/
theorem scanEntry_kills (name : Bytes) (w : World) : Kills [] w.k (scanEntry name w).2.k := by
  have hcalm := access_calm (joinPath (serviceDir w.root name).bytes "/run") .exec
  have hprobe : Kills [] w.k (probed name w).k := (hcalm.rel w.k).kills
  -- reading the files of a service sends no signal
  rcases scanEntry_outcome w name with ⟨j, hfound⟩ | ⟨j, hadds⟩ | ⟨hfound, hadds⟩
  · rw [scanEntry_found hfound]
    have hrest : Calm (do
        let s ← parseUserGroup { (probed name w).svc j with present := true, stopping := false }
        prepareServiceEnv s) fun _ => True :=
      ((parseUserGroup_calm _).weaken fun _ _ => trivial).seq fun s =>
        (prepareServiceEnv_calm s).weaken fun _ _ => trivial
    exact hprobe.trans ((emit_kills rfl rfl _).trans (hrest.rel _).kills)
  · rw [scanEntry_adds hadds]
    have hbuild := (buildService_calm name (serviceDir w.root name)).rel (probed name w).k
    exact hprobe.trans (hbuild.kills.trans (emit_kills rfl rfl _))
  · rcases scanEntry_leaves hfound hadds with he | he <;> rw [he]
    · exact (Quiet.refl w.k).kills
    · exact hprobe

/-! The whole listing. -/

/-- Nor does the `readdir` loop. -/
theorem scanEntries_kills (names : List Bytes) (w : World) :
    Kills [] w.k (scanEntries names w).2.k := by
  induction names generalizing w with
  | nil => exact (Quiet.refl w.k).kills
  | cons name names ih => exact (scanEntry_kills name w).trans (ih (scanEntry name w).2)

/-- A record added by the loop is marked. -/
theorem scanEntries_new (names : List Bytes)
    (hnew : (w.svc i).active = true → (w.svc i).present = true)
    (hact : ((scanEntries names w).2.svc i).active = true) :
    ((scanEntries names w).2.svc i).present = true := by
  induction names generalizing w with
  | nil => exact hnew hact
  | cons name names ih => exact ih (scanEntry_new name hnew) hact

/-- An active record changes if and only if one of the entries is its directory. -/
theorem scanEntries_slot (names : List Bytes) (hact : (w.svc i).active = true) :
    (w.svc i).Kept ((scanEntries names w).2.svc i) ∧
      (MetBy i names w → ((scanEntries names w).2.svc i).present = true) ∧
      (¬MetBy i names w → (scanEntries names w).2.svc i = w.svc i) := by
  induction names generalizing w with
  | nil => exact ⟨.refl _, fun h => h.elim, fun _ => rfl⟩
  | cons name names ih =>
    -- once an entry has met the service it stays present
    rcases scanEntry_slot name hact with ⟨hfound, hkept, hpresent⟩ | ⟨hnot, he⟩
    · obtain ⟨hrest, -, -⟩ := ih (hkept.active.trans hact)
      refine ⟨hkept.trans hrest, fun _ => hrest.present hpresent, fun h => ?_⟩
      exact absurd (.inl hfound) h
    · obtain ⟨hrest, hmet, hunmet⟩ := ih (he ▸ hact)
      rw [he] at hrest hunmet
      refine ⟨hrest, fun h => hmet (h.resolve_left hnot), fun h => ?_⟩
      exact hunmet fun hlater => h (.inr hlater)

end

/-! ## The missing services -/

/-- `handle_missing_services` has nothing to do for the record. -/
def Service.Rests (s : Service) : Prop := s.active = true → s.present = false → s.AwaitsExit

section

variable {w : World} {i : Nat}

/-- A function that does nothing. -/
theorem onSlot_stays {f : Service → Sys Service} (h : f (w.svc i) w.k = (w.svc i, w.k)) :
    (onSlot i f w).2 = w := by
  simp only [onSlot, h, World.setSvc]
  congr 1
  funext j
  split
  · next hj => rw [hj]
  · rfl

/-- The sweeps signal somebody, or nobody. -/
theorem stopTransitiveDeps_kills (w : World) :
    ∃ targets, Kills targets w.k (stopTransitiveDeps w).2.k := by
  obtain ⟨order, hrun, -⟩ := stopTransitiveDeps_order w
  rw [hrun]
  exact ⟨_, run_tell_kills order w⟩

/-- A missing service with a process is signalled, unless it was before. -/
theorem stopMissing_kills (i : Nat) (w : World) :
    ∃ targets, Kills targets w.k (stopMissing i w).2.k ∧
      (0 < (w.svc i).pid → (w.svc i).stopping = false → targets ≠ []) := by
  simp only [stopMissing, Sup.get_bind, Sup.ite_apply]
  split
  · obtain ⟨targets, hdeps⟩ := stopTransitiveDeps_kills w
    have hkill := kill_kills (-((stopTransitiveDeps w).2.svc i).pid) (stopTransitiveDeps w).2.k
    exact ⟨_, hdeps.trans hkill, by simp⟩
  · next hno =>
    refine ⟨[], (Quiet.refl w.k).kills, fun hpid hstop => ?_⟩
    simp [hpid, hstop] at hno

/-- First the logger, then the slot. -/
theorem releaseMissing_apply (slot : Nat) (s : Service) (k : Kernel) :
    let r := (if s.logPid > 0 && !s.logStopping then signalLogger s else pure s : Sys Service) k
    releaseMissing slot s k = (if r.1.pid ≤ 0 && r.1.logPid ≤ 0 then releaseSlot slot r.1
      else pure r.1 : Sys Service) r.2 := by
  unfold releaseMissing
  split <;> rfl

/-- A missing service that is released tells its logger to stop. -/
theorem releaseMissing_kills (slot : Nat) (s : Service) (k : Kernel) :
    Kills (if s.logPid > 0 && !s.logStopping then [s.logPid] else []) k
      (releaseMissing slot s k).2 := by
  -- giving the slot up sends no signal
  have hrelease : ∀ s k, Kills [] k
      ((if s.pid ≤ 0 && s.logPid ≤ 0 then releaseSlot slot s else pure s : Sys Service) k).2 := by
    intro s k
    split
    · have hclose := (closeServiceFds_calm s).rel k
      generalize hr : closeServiceFds s k = r at hclose
      have hwrite := (writeStatusFile_calm { r.1 with active := false, state := .down }).rel r.2
      simp only [releaseSlot, Sys.bind_apply, hr]
      exact (hclose.trans hwrite).kills.trans (emit_kills rfl rfl _)
    · exact (Quiet.refl k).kills
  -- the logger is told first, if it was not told before
  have hlogger := signalLogger_kills (c := s.logPid > 0 && !s.logStopping) (s := s) k
  rw [releaseMissing_apply]
  generalize (if s.logPid > 0 && !s.logStopping then signalLogger s else pure s : Sys Service) k = r
    at hlogger
  have hall := hlogger.trans (hrelease r.1 r.2)
  rw [List.append_nil] at hall
  exact hall

/-- Both together. -/
theorem missingSlot_kills (i : Nat) (w : World) :
    ∃ targets, Kills targets w.k (missingSlot i w).2.k := by
  simp only [missingSlot, Sup.get_bind, Sup.ite_apply]
  split
  · obtain ⟨targets, hstop, -⟩ := stopMissing_kills i w
    exact ⟨_, hstop.trans (releaseMissing_kills i _ _)⟩
  · exact ⟨[], (Quiet.refl w.k).kills⟩

/-- The main process is gone or has been told to stop. -/
theorem stopMissing_idle (h : 0 < (w.svc i).pid → (w.svc i).stopping = true) :
    stopMissing i w = ((), w) := by
  simp only [stopMissing, Sup.get_bind, Sup.ite_apply]
  rw [if_neg]
  · rfl
  · simp only [Bool.and_eq_true, Bool.not_eq_true', decide_eq_true_eq, not_and, Bool.not_eq_false]
    exact h

/-- Stopping a service frees no slot. -/
theorem stopMissing_active (i j : Nat) (w : World) :
    ((stopMissing j w).2.svc i).active = (w.svc i).active := by
  simp only [stopMissing, Sup.get_bind, Sup.ite_apply]
  split
  · have hdeps := (stopTransitiveDeps_tells.rel w).active i
    rw [Sup.bind_apply, onSlot_svc]
    split
    · next hij => exact hij ▸ hdeps
    · exact hdeps
  · rfl

/-- The slot is given up once both processes are gone. -/
theorem releaseMissing_active (slot : Nat) (s : Service) (k : Kernel) :
    (releaseMissing slot s k).1.active = (s.active && !(s.pid ≤ 0 && s.logPid ≤ 0)) := by
  -- the slot is given up only when neither process is left
  have hrelease : ∀ s k, ((if s.pid ≤ 0 && s.logPid ≤ 0 then releaseSlot slot s
      else pure s : Sys Service) k).1.active = (s.active && !(s.pid ≤ 0 && s.logPid ≤ 0)) := by
    intro s k
    split
    · next h =>
      rw [h, Bool.not_true, Bool.and_false]
      rfl
    · next h =>
      rw [Bool.not_eq_true] at h
      rw [h, Bool.not_false, Bool.and_true]
      rfl
  rw [releaseMissing_apply, hrelease]
  split <;> rfl

/-- Nothing happens. -/
theorem missingSlot_rests (h : (w.svc i).Rests) : (missingSlot i w).2 = w := by
  simp only [missingSlot, Sup.get_bind, Sup.ite_apply]
  split
  · next hmissing =>
    simp only [Bool.and_eq_true, Bool.not_eq_true'] at hmissing
    obtain ⟨hmain, hlogger, halive⟩ := h hmissing.1 hmissing.2
    rw [Sup.bind_apply, stopMissing_idle hmain]
    apply onSlot_stays
    -- the logger is gone or has been told
    have hsignal : ((w.svc i).logPid > 0 && !(w.svc i).logStopping) = false := by
      simp only [Bool.and_eq_false_iff, decide_eq_false_iff_not, Bool.not_eq_false']
      exact Decidable.or_iff_not_imp_left.mpr fun hpos => hlogger (Decidable.not_not.mp hpos)
    -- something is still alive, so the slot is kept
    have hgone : ((w.svc i).pid ≤ 0 && (w.svc i).logPid ≤ 0) = false := by
      simp only [Bool.and_eq_false_iff, decide_eq_false_iff_not]
      omega
    rw [releaseMissing_apply]
    simp only [hsignal, Bool.false_eq_true, if_false, Sys.pure_apply, hgone]
  · rfl

/-- No slot is taken. -/
theorem missingSlot_active (j : Nat) (hact : ((missingSlot j w).2.svc i).active = true) :
    (w.svc i).active = true := by
  simp only [missingSlot, Sup.get_bind, Sup.ite_apply] at hact
  split at hact
  · rw [← stopMissing_active i j w]
    rw [Sup.bind_apply, onSlot_svc] at hact
    split at hact
    · next hij =>
      rw [releaseMissing_active, Bool.and_eq_true] at hact
      exact hij ▸ hact.1
    · exact hact
  · exact hact

/-- A record that does not rest has one of its processes signalled, or is given up. -/
theorem missingSlot_acts (h : ¬(w.svc i).Rests) :
    (∃ targets, targets ≠ [] ∧ Kills targets w.k (missingSlot i w).2.k) ∨
      ((missingSlot i w).2.svc i).active = false := by
  simp only [Service.Rests, Classical.not_imp] at h
  obtain ⟨hact, hmissing, hbusy⟩ := h
  have hgo : (missingSlot i w).2 = (onSlot i (releaseMissing i) (stopMissing i w).2).2 := by
    simp only [missingSlot, Sup.get_bind, Sup.ite_apply, hact, hmissing]
    rfl
  have hrelease := releaseMissing_kills i ((stopMissing i w).2.svc i) (stopMissing i w).2.k
  rw [hgo]
  by_cases hmain : 0 < (w.svc i).pid → (w.svc i).stopping = true
  · rw [stopMissing_idle hmain] at hrelease ⊢
    by_cases hlogger : 0 < (w.svc i).logPid → (w.svc i).logStopping = true
    · -- neither process has to be told, so both are gone
      right
      have hgone : (w.svc i).pid ≤ 0 ∧ (w.svc i).logPid ≤ 0 := by
        by_contra halive
        exact hbusy ⟨hmain, hlogger, by omega⟩
      rw [onSlot_svc, if_pos rfl, releaseMissing_active]
      simp [hgone]
    · left
      simp only [Classical.not_imp, Bool.not_eq_true] at hlogger
      refine ⟨[(w.svc i).logPid], by simp, ?_⟩
      simp only [hlogger.1, hlogger.2] at hrelease
      exact hrelease
  · left
    simp only [Classical.not_imp, Bool.not_eq_true] at hmain
    obtain ⟨targets, hstop, hne⟩ := stopMissing_kills i w
    refine ⟨_, ?_, hstop.trans hrelease⟩
    intro hnil
    exact hne hmain.1 hmain.2 (List.append_eq_nil_iff.mp hnil).1

/-- The loop over the slots. -/
theorem missingLoop_kills (is : List Nat) (w : World) :
    ∃ targets, Kills targets w.k (forSlots missingSlot is w).2.k := by
  induction is generalizing w with
  | nil => exact ⟨[], (Quiet.refl w.k).kills⟩
  | cons j is ih =>
    obtain ⟨first, hfirst⟩ := missingSlot_kills j w
    obtain ⟨rest, hrest⟩ := ih (missingSlot j w).2
    exact ⟨_, hfirst.trans hrest⟩

/-- It adds nothing. -/
theorem missingLoop_active (is : List Nat)
    (hact : ((forSlots missingSlot is w).2.svc i).active = true) : (w.svc i).active = true := by
  induction is generalizing w with
  | nil => exact hact
  | cons j is ih => exact missingSlot_active j (ih hact)

/-- If no service is missing, it does nothing. -/
theorem missingLoop_rests (is : List Nat) (h : ∀ i ∈ is, (w.svc i).Rests) :
    (forSlots missingSlot is w).2 = w := by
  induction is with
  | nil => rfl
  | cons j is ih =>
    have hfirst := missingSlot_rests (h j List.mem_cons_self)
    show (forSlots missingSlot is (missingSlot j w).2).2 = w
    rw [hfirst]
    exact ih fun i hi => h i (List.mem_cons_of_mem j hi)

/-- If nobody is signalled and no slot is given up, every record rests. -/
theorem missingLoop_spares (is : List Nat) (hkills : Kills [] w.k (forSlots missingSlot is w).2.k)
    (hact : ∀ i, (w.svc i).active = true → (w.svc i).present = false →
      ((forSlots missingSlot is w).2.svc i).active = true) :
    ∀ i ∈ is, (w.svc i).Rests := by
  -- by induction on the slots: the first that does not rest would send a signal or vanish
  induction is generalizing w with
  | nil => simp
  | cons j is ih =>
    by_cases hj : (w.svc j).Rests
    · have hfirst : (forSlots missingSlot (j :: is) w).2 = (forSlots missingSlot is w).2 := by
        show (forSlots missingSlot is (missingSlot j w).2).2 = _
        rw [missingSlot_rests hj]
      rw [hfirst] at hkills hact
      simp only [List.mem_cons, forall_eq_or_imp]
      exact ⟨hj, ih hkills hact⟩
    · exfalso
      obtain ⟨hactj, hmissing, -⟩ : (w.svc j).active = true ∧ (w.svc j).present = false ∧
          ¬(w.svc j).AwaitsExit := by
        simpa only [Service.Rests, Classical.not_imp] using hj
      rcases missingSlot_acts hj with ⟨first, hne, hfirst⟩ | hidle
      · obtain ⟨rest, hrest⟩ := missingLoop_kills is (missingSlot j w).2
        have hsum := (hfirst.trans hrest).unique hkills
        -- a signal that was sent stays among those of the whole loop
        exact hne (List.append_eq_nil_iff.mp hsum).1
      -- a slot that was given up is not active at the end of the loop either
      · have hstill : ((missingSlot j w).2.svc j).active = true :=
          missingLoop_active is (hact j hactj hmissing)
        rw [hidle] at hstill
        cases hstill

end

/-! ## Failed reads -/

/-- Every active service is met by the entries that were read, or it was missing before and
    there is nothing left to tell it. -/
def FailedRead.Harmless (w : World) : FailedRead → Prop
  | .opendir => True
  | .readdir entries => ∀ i, (w.svc i).active = true →
      MetBy i entries (unmarked w) ∨ (w.svc i).present = false ∧ (w.svc i).AwaitsExit

section

variable {w : World}

/-- A scan without the loop over the missing services signals nobody. -/
theorem scan_kills (entries : List Bytes) (w : World) : Kills [] w.k (scan entries w).k := by
  have hunmark : (unmarked w).k = w.k := (unmarkAll_frame w.slots w).1
  have hentries := scanEntries_kills entries (unmarked w)
  rw [hunmark] at hentries
  exact hentries

/-- The table keeps its size. -/
theorem scan_size (entries : List Bytes) (w : World) : (scan entries w).size = w.size := by
  have hentries : ∀ (names : List Bytes) (w : World), (scanEntries names w).2.size = w.size := by
    intro names
    induction names with
    | nil => exact fun _ => rfl
    | cons name names ih => exact fun w => (ih (scanEntry name w).2).trans (scanEntry_size name w)
  exact (hentries entries (unmarked w)).trans (unmarkAll_frame w.slots w).2.2

/-- A record that was active, after the scan. -/
theorem scan_slot (ht : w.life.Tracked) (entries : List Bytes) {i : Nat}
    (hact : (w.svc i).active = true) :
    ((w.svc i).Refreshes ((scan entries w).svc i) ∧
        (((scan entries w).svc i).stopping = true → (w.svc i).stopping = true)) ∧
      (MetBy i entries (unmarked w) → ((scan entries w).svc i).present = true) ∧
      (¬MetBy i entries (unmarked w) →
        (scan entries w).svc i = { w.svc i with present := false }) := by
  have hi : i < w.size := ht.inTable i hact
  -- the scan begins by unmarking the record
  have hunmark : (unmarked w).svc i = { w.svc i with present := false } := by
    rw [unmarked_svc, if_pos hi, Service.unmark_of_active hact]
  have hact₁ : ((unmarked w).svc i).active = true := (unmarked_active i).trans hact
  obtain ⟨hkept, hmet, hunmet⟩ := scanEntries_slot entries hact₁
  refine ⟨⟨(unmarked_refreshes i).trans hkept.refreshes, fun h => ?_⟩, hmet, fun h => ?_⟩
  · have hstop := hkept.stopping h
    rw [hunmark] at hstop
    exact hstop
  · exact (hunmet h).trans hunmark

/-- A record that is active and not present after the scan was active before. -/
theorem scan_missing (entries : List Bytes) {i : Nat}
    (hact : ((scan entries w).svc i).active = true)
    (hmissing : ((scan entries w).svc i).present = false) : (w.svc i).active = true := by
  by_contra hidle
  have hnew : ((unmarked w).svc i).active = true → ((unmarked w).svc i).present = true := by
    intro h
    exact absurd ((unmarked_active i).symm.trans h) hidle
  have hpresent := scanEntries_new entries hnew hact
  rw [scan_eq, hpresent] at hmissing
  cases hmissing

/-- The records that the scan leaves all rest. -/
theorem FailedRead.Harmless.rests {entries : List Bytes} (ht : w.life.Tracked)
    (h : (FailedRead.readdir entries).Harmless w) (i : Nat) : ((scan entries w).svc i).Rests := by
  intro hact hmissing
  have hact₀ := scan_missing entries hact hmissing
  obtain ⟨-, hmet, hunmet⟩ := scan_slot ht entries hact₀
  -- either an entry met the service, or it was stopped before
  rcases h i hact₀ with hm | ⟨-, hwaits⟩
  · rw [hmet hm] at hmissing
    cases hmissing
  · by_cases hm : MetBy i entries (unmarked w)
    · rw [hmet hm] at hmissing
      cases hmissing
    · rw [hunmet hm]
      exact ⟨hwaits.main, hwaits.logger, hwaits.alive⟩

/-- A scan whose read of the directory fails stops nothing if and only if it is `opendir` that
    fails, or the entries that were read are all the services there are: each active one is
    met, or was missing already and has been told to stop. -/
theorem partial_read_iff (hw : Reachable w) (d : FailedRead) :
    StopsNothing w (rescan d.listing w).2 ↔ d.Harmless w := by
  have ht := hw.accounted.tracked
  cases d with
  | opendir =>
    refine iff_of_true ⟨fun _ _ => id, (Quiet.refl w.k).kills, ?_, ?_, fun _ => id⟩ trivial
    · exact fun _ _ => ⟨id, rfl⟩
    · exact fun _ _ => rfl
  | readdir entries =>
    have hrun : (rescan (FailedRead.readdir entries).listing w).2 =
        (forSlots missingSlot (scan entries w).slots (scan entries w)).2 := rfl
    rw [hrun]
    constructor
    · intro h i hact
      obtain ⟨targets, hloop⟩ :=
        missingLoop_kills (scan entries w).slots (scan entries w)
      have hnone := ((scan_kills entries w).trans hloop).unique h.unsignalled
      rw [List.nil_append] at hnone
      rw [hnone] at hloop
      have hrests := missingLoop_spares _ hloop fun j hactj hmissing =>
        h.active j (scan_missing entries hactj hmissing)
      have hstays := missingLoop_rests _ hrests
      rw [hstays] at h
      -- nothing happens after the scan, so the record is as the scan left it
      obtain ⟨-, -, hunmet⟩ := scan_slot ht entries hact
      by_cases hm : MetBy i entries (unmarked w)
      · exact .inl hm
      · right
        have hsvc := hunmet hm
        have hmissing : (w.svc i).present = false := by
          by_contra hpresent
          have hstill := h.unmarked i hact (by simpa using hpresent)
          rw [hsvc] at hstill
          cases hstill
        have hslot : i ∈ (scan entries w).slots := by
          simp only [World.slots, List.mem_range, scan_size]
          exact ht.inTable i hact
        have hwaits := hrests i hslot (by rw [hsvc]; exact hact) (by rw [hsvc])
        rw [hsvc] at hwaits
        exact ⟨hmissing, hwaits.main, hwaits.logger, hwaits.alive⟩
    · intro h
      have hstays := missingLoop_rests (scan entries w).slots fun i _ => h.rests ht i
      rw [hstays]
      have hrefreshes : ∀ i, (w.svc i).active = true →
          (w.svc i).Refreshes ((scan entries w).svc i) :=
        fun i hact => (scan_slot ht entries hact).1.1
      refine ⟨fun i hact hpresent => ?_, scan_kills entries w, fun i hact => ⟨?_, ?_⟩,
        fun i hact => ?_, fun i hact => ?_⟩
      · -- it was present, so it has been met
        have hmet := (h i hact).resolve_right fun hwaits => by simp [hpresent] at hwaits
        exact (scan_slot ht entries hact).2.1 hmet
      · exact (scan_slot ht entries hact).1.2
      · rw [hrefreshes i hact]
      · rw [hrefreshes i hact]
      · rw [hrefreshes i hact]
        exact hact

end

/-- With `a` and `b` running, `readdir` fails after it has returned `.` and `a`, or after all
    three. -/
theorem partial_read_chain :
    ¬StopsNothing chainStarted
        (rescan (FailedRead.readdir [bytesOf ".", bytesOf "a"]).listing chainStarted).2 ∧
      StopsNothing chainStarted
        (rescan (FailedRead.readdir [bytesOf ".", bytesOf "a", bytesOf "b"]).listing
          chainStarted).2 := by
  have hboth : (chainStarted.svc 1).active = true ∧ (chainStarted.svc 1).present = true := by
    decide +kernel
  have honly : ∀ i < chainStarted.size, (chainStarted.svc i).active = true → i = 0 ∨ i = 1 := by
    decide +kernel
  have hmiss : ¬FoundAt (unmarked chainStarted) (bytesOf ".") 1 ∧
      ¬FoundAt (scanEntry (bytesOf ".") (unmarked chainStarted)).2 (bytesOf "a") 1 := by
    unfold FoundAt
    decide +kernel
  have hmeet : FoundAt (scanEntry (bytesOf ".") (unmarked chainStarted)).2 (bytesOf "a") 0 ∧
      FoundAt (scanEntry (bytesOf "a") (scanEntry (bytesOf ".") (unmarked chainStarted)).2).2
        (bytesOf "b") 1 := by
    unfold FoundAt
    decide +kernel
  have hw : Reachable chainStarted := chainStarted_reachable
  generalize chainStarted = w at hboth honly hmiss hmeet hw ⊢
  constructor
  · -- the service in slot 1 has not been met
    intro h
    rcases (partial_read_iff hw _).mp h 1 hboth.1 with (hmet | hmet | hmet) | ⟨hmissing, -⟩
    · exact hmiss.1 hmet
    · exact hmiss.2 hmet
    · exact hmet
    · exact absurd (hmissing.symm.trans hboth.2) (by decide)
  · refine (partial_read_iff hw _).mpr fun i hact => .inl ?_
    rcases honly i (hw.accounted.tracked.inTable i hact) hact with rfl | rfl
    · exact .inr (.inl hmeet.1)
    · exact .inr (.inr (.inl hmeet.2))

/-- `readdir` fails at once: the running service is told to stop. -/
theorem partial_read_stops :
    let after := (rescan (FailedRead.readdir []).listing plainStarted).2
    Reachable plainStarted ∧ ¬StopsNothing plainStarted after ∧
      (plainStarted.svc 0).state = .running ∧ (plainStarted.svc 0).present = true ∧
      (after.svc 0).state = .stopping ∧ (after.svc 0).present = false ∧
      .kill (-116) sigterm ∈ after.k.trace := by
  intro after
  have hstate : (plainStarted.svc 0).state = .running ∧ (plainStarted.svc 0).present = true ∧
      (after.svc 0).state = .stopping ∧ (after.svc 0).present = false ∧
      .kill (-116) sigterm ∈ after.k.trace := by decide +kernel
  refine ⟨plainStarted_reachable, fun h => ?_, hstate⟩
  -- the service was running before, and is stopping now
  have hsame := (h.running 0 (by decide +kernel)).2
  rw [hstate.1, hstate.2.2.1] at hsame
  cases hsame

end SvcRs
