import Mathlib.Algebra.BigOperators.Group.Finset.Basic
import SvcRs.Spec.Descriptors

/-!
# Descriptors of the whole table

The accounts of single records (`Spec/Descriptors.lean`) put together: between two
operations, the descriptors that the supervisor holds for its services are those in the
streams of the active records, each of them once.

## Key results

- `exec_accounted`: every operation keeps the accounts
- `descriptors_recorded`: they are right in every run, and in the final cleanup
- `cleanup_closes`: in the end no descriptor of a service is open
-/

namespace SvcRs

open Ownership (Solvent Transfers)
open Transition (run)

/-- The descriptors in the streams of the active records. -/
def World.recorded (w : World) : Multiset Int := ∑ i ∈ Finset.range w.size, (w.svc i).recorded

/-- The descriptors of the other records. -/
def World.others (w : World) (i : Nat) : Multiset Int :=
  ∑ j ∈ (Finset.range w.size).erase i, (w.svc j).recorded

/-- The ledger agrees with the table. -/
structure World.Accounted (books : Books) (w : World) : Prop where
  kernel : w.k.Accounted books
  held : w.k.held = w.recorded
  inTable : ∀ i, (w.svc i).active = true → i < w.size

/-- What keeps the accounts right without taking anything from an active record. -/
def KeepsAccounts (books : Books) (w w' : World) : Prop :=
  w.Accounted books →
    w'.Accounted books ∧ ∀ i, (w.svc i).active = true → SameFds (w.svc i) (w'.svc i)

instance (books : Books) : Std.Refl (KeepsAccounts books) :=
  ⟨fun w hw => ⟨hw, fun i _ => .refl (w.svc i)⟩⟩

instance (books : Books) : IsTrans World (KeepsAccounts books) where
  trans _ _ _ h h' hw := by
    obtain ⟨hw₁, hsame⟩ := h hw
    obtain ⟨hw₂, hsame'⟩ := h' hw₁
    refine ⟨hw₂, fun i hi => (hsame i hi).trans (hsame' i ?_)⟩
    exact (hsame i hi).active.trans hi

/-- Every execution keeps the books in order. -/
abbrev Accounts {α : Type} (books : Books) (m : Sup α) : Prop :=
  StateM.Keeps (KeepsAccounts books) m fun _ => True

section

variable {books : Books} {α : Type}

/-- A computation that begins by reading the state. -/
theorem Accounts.get {f : World → Sup α}
    (h : ∀ w, KeepsAccounts books w (f w w).2) : Accounts books (MonadState.get >>= f) :=
  fun w _ => ⟨h w, trivial⟩

/-! ## One record, one call -/

/-- What is held is what may be freed and what is spared. -/
theorem Kernel.Accounted.held_eq {k : Kernel} (h : k.Accounted books) :
    k.held = k.free books + books.spared := (Multiset.sub_add_cancel h.kept).symm

/-- A system call that leaves the descriptors alone. -/
theorem liftSys_accounts {m : Sys α} (h : NoFds books m) : Accounts books (liftSys m) := by
  refine fun w _ => ⟨fun hw => ?_, trivial⟩
  obtain ⟨hok, hfree, -⟩ := h w.k (w.k.free books) hw.kernel (zero_add _).symm
  have hheld : (m w.k).2.held = w.k.held := by
    rw [hok.held_eq, hw.kernel.held_eq, hfree, zero_add]
  exact ⟨⟨hok, hheld.trans hw.held, hw.inTable⟩, fun i _ => .refl (w.svc i)⟩

/-- The sum over the table, and the same after one record has been replaced. -/
theorem World.recorded_setSvc (w : World) {i : Nat} (hi : i < w.size) (s : Service) :
    w.recorded = (w.svc i).recorded + w.others i ∧
      (w.setSvc i s).recorded = s.recorded + w.others i := by
  have hmem : i ∈ Finset.range w.size := Finset.mem_range.mpr hi
  refine ⟨(Finset.add_sum_erase _ _ hmem).symm, ?_⟩
  have hself : (w.setSvc i s).svc i = s := if_pos rfl
  -- the sum over the other slots does not see the new record
  have hothers : (w.setSvc i s).others i = w.others i := by
    apply Finset.sum_congr rfl
    intro j hj
    have hother : (w.setSvc i s).svc j = w.svc j := if_neg (Finset.ne_of_mem_erase hj)
    rw [hother]
  rw [← hothers, ← congrArg Service.recorded hself]
  exact (Finset.add_sum_erase _ _ hmem).symm

/-- A function that takes over a part `a` of what one record has. -/
theorem World.Accounted.part {w : World} {i : Nat} {f : Service → Sys Service} {a r : Multiset Int}
    {b : Service → Multiset Int} {Q : Service → Prop} (hw : w.Accounted books) (hi : i < w.size)
    (hrec : (w.svc i).recorded = a + r) (hspared : books.spared ≤ r + w.others i)
    (h : Hands books a (f (w.svc i)) b Q) (hb : ∀ s, Q s → s.recorded = b s + r) :
    (onSlot i f w).2.Accounted books ∧ Q (f (w.svc i) w.k).1 := by
  obtain ⟨hbefore, hafter⟩ := w.recorded_setSvc hi (f (w.svc i) w.k).1
  have hfree : w.k.free books = a + (r + w.others i - books.spared) := by
    rw [Kernel.free, hw.held, hbefore, hrec, add_assoc, Multiset.add_sub_assoc hspared]
  obtain ⟨hok, hfree', hQ⟩ := h w.k _ hw.kernel hfree
  -- what is held is what the record owns now, and the rest as before
  refine ⟨⟨hok, ?_, ?_⟩, hQ⟩
  · show (f (w.svc i) w.k).2.held = (w.setSvc i (f (w.svc i) w.k).1).recorded
    rw [hok.held_eq, hfree', hafter, hb _ hQ, add_assoc, add_assoc, Multiset.sub_add_cancel hspared]
  · intro j hj
    by_cases hji : j = i
    · exact hji ▸ hi
    · have hsame : ((onSlot i f w).2.svc j) = w.svc j := if_neg hji
      exact hw.inTable j (hsame ▸ hj)

/-- A function that takes over all of what one record has. -/
theorem World.Accounted.slot {w : World} {i : Nat} {f : Service → Sys Service}
    (hw : w.Accounted books) (hi : i < w.size) (hspared : books.spared ≤ w.others i)
    (h : Hands books (w.svc i).recorded (f (w.svc i)) Service.recorded fun _ => True) :
    (onSlot i f w).2.Accounted books :=
  (hw.part hi (add_zero _).symm ((zero_add (w.others i)).symm ▸ hspared) h
    fun _ _ => (add_zero _).symm).1

/-- The descriptors of an active record are handed through. -/
theorem KeepsFds.slot {s : Service} {m : Sys Service} (hact : s.active = true)
    (h : KeepsFds books s m) : Hands books s.recorded m Service.recorded fun _ => True := by
  apply h.weaken (if_pos hact)
  · intro s' hs'
    exact (if_pos (hs'.trans hact)).symm
  · exact fun _ _ => trivial

/-- A function that leaves the streams alone may be used on any record. -/
theorem onSlot_keepsAccounts {w : World} {i : Nat} {f : Service → Sys Service}
    (h : LeavesFds books (w.svc i) (f (w.svc i))) : KeepsAccounts books w (onSlot i f w).2 := by
  intro hw
  obtain ⟨hok, hfree, hsame⟩ := h w.k (w.k.free books) hw.kernel (zero_add _).symm
  -- only slot `i` is written, and its streams stay as they are
  have hsames : ∀ j, SameFds (w.svc j) ((onSlot i f w).2.svc j) := by
    intro j
    rw [onSlot_svc]
    split
    · next hji => exact hji ▸ hsame
    · exact .refl _
  have hrec : ∀ j, (((onSlot i f w).2.svc j)).recorded = (w.svc j).recorded := by
    intro j
    rw [Service.recorded, Service.recorded, (hsames j).fds, (hsames j).active]
  refine ⟨⟨hok, ?_, ?_⟩, fun j _ => hsames j⟩
  -- nothing is free before or after, so nothing new is held
  · have hheld : (f (w.svc i) w.k).2.held = w.k.held := by
      rw [hok.held_eq, hw.kernel.held_eq, hfree, zero_add]
    exact (hheld.trans hw.held).trans (Finset.sum_congr rfl fun j _ => (hrec j).symm)
  · intro j hj
    exact hw.inTable j ((hsames j).active.symm.trans hj)

/-- A function that leaves the descriptors of the record alone. -/
theorem onSlot_accounts (i : Nat) {f : Service → Sys Service} (h : ∀ s, LeavesFds books s (f s)) :
    Accounts books (onSlot i f) :=
  fun w _ => ⟨onSlot_keepsAccounts (h (w.svc i)), trivial⟩

/-! ## The operations -/

/-- Reaping a child opens and closes nothing. -/
theorem reapChild_accounts (pid status : Int) : Accounts books (reapChild pid status) := by
  have hrecord : ∀ t, Accounts books (reapRecord pid status t) := by
    intro t
    apply Accounts.get
    intro w
    -- a logger's record comes first, then a main process's, as in the reaper
    cases w.loggerSlot pid with
    | some i => exact onSlot_keepsAccounts (SameFds.leaves ⟨⟨rfl, rfl, rfl⟩, rfl⟩)
    | none =>
      dsimp only
      cases w.mainSlot pid with
      | some i => exact onSlot_keepsAccounts (reapMain_leavesFds i status t _)
      | none => exact Std.Refl.refl w
  apply (liftSys_accounts (waitpid_noFds pid status)).seq
  intro reaped
  apply StateM.Keeps.ite
  · exact fun _ => .pure trivial
  · exact fun _ => (liftSys_accounts monoNow_noFds).seq fun t => (hrecord t).seq fun _ =>
      .pure trivial

/-- Stopping dependents opens and closes nothing for good: the status file is closed again. -/
theorem stopTransitiveDeps_accounts : Accounts books stopTransitiveDeps := by
  apply stopTransitiveDeps_keeps
  refine fun i w _ => ⟨?_, trivial⟩
  cases stopDependent_cases i w with
  | inl h =>
    rw [h.2]
    exact onSlot_keepsAccounts (signalStopStatus_leavesFds _)
  | inr h =>
    rw [h.2]
    exact Std.Refl.refl w

/-- A function on a record, under a condition on the table. -/
theorem Accounts.when {i : Nat} {f : Service → Sys Service} {c : World → Prop} [∀ w, Decidable (c w)]
    (h : ∀ s, LeavesFds books s (f s)) :
    Accounts books (do let w ← MonadState.get; if c w then onSlot i f) := by
  apply Accounts.get
  intro w
  rw [Sup.ite_apply]
  split
  · exact onSlot_keepsAccounts (h (w.svc i))
  · exact Std.Refl.refl w

/-- The same for a service without its logger. -/
theorem killOnLogDeath_accounts (i : Nat) : Accounts books (killOnLogDeath i) :=
  .when signalStopStatus_leavesFds

/-- The marks are not descriptors. -/
theorem unmarkPresent_accounts (i : Nat) : Accounts books (unmarkPresent i) :=
  .when fun _ => SameFds.leaves ⟨⟨rfl, rfl, rfl⟩, rfl⟩

/-- The slot that `add_service` takes is inactive, so nothing in it counts. -/
theorem addService_accounts (name : Bytes) (dir : CStrBuf) :
    Accounts books (addService name dir) := by
  apply Accounts.get
  intro w
  cases hfree : w.findSlot fun s => !s.active with
  -- the table is full, and the directory is passed over
  | none => exact Std.Refl.refl w
  | some i =>
    obtain ⟨hi, hact⟩ := w.findSlot_some hfree
    have hact : ¬(w.svc i).active = true := by simpa using hact
    -- a free slot records nothing yet
    have hnone : (w.svc i).recorded = 0 := if_neg hact
    intro hw
    have hspared : books.spared ≤ w.others i := by
      have hall := (w.recorded_setSvc hi (w.svc i)).1
      rw [hnone, zero_add] at hall
      exact hall ▸ hw.held ▸ hw.kernel.kept
    refine ⟨hw.slot hi hspared ?_, ?_⟩
    · rw [hnone]
      exact newService_hands i name dir
    · intro j hj
      have hji : j ≠ i := fun he => hact (he ▸ hj)
      rw [onSlot_svc, if_neg hji]
      exact .refl _

/-- A new record begins without descriptors. -/
theorem scanEntry_accounts (name : Bytes) : Accounts books (scanEntry name) := by
  apply StateM.Keeps.ite
  · exact fun _ => .pure trivial
  intro _
  apply Accounts.get
  intro w
  apply StateM.Keeps.rel
  apply (liftSys_accounts (access_noFds _ _)).seq
  intro ok
  apply StateM.Keeps.ite
  · intro _
    -- a known directory keeps its descriptors, a new one begins without any
    cases findServiceByDir w (serviceDir w.root name) with
    | some i => exact onSlot_accounts i (foundService_leavesFds i)
    | none => exact addService_accounts name _
  · exact fun _ => .pure trivial

/-- SIGTERM may be sent to the process, and nothing else. -/
theorem stopMissing_core (i : Nat) (w : World) :
    ((stopMissing i w).2.svc i).core = (w.svc i).core ∨
      ((stopMissing i w).2.svc i).core = (w.svc i).core.told := by
  unfold stopMissing
  rw [Sup.get_bind, Sup.ite_apply]
  split
  · rw [Sup.bind_apply, onSlot_svc, if_pos rfl]
    apply Or.inr
    -- the sweep may have told this service already; telling it twice is telling it once
    show ((stopTransitiveDeps w).2.svc i).core.told = _
    cases (stopTransitiveDeps_tells.rel w).core i with
    | inl he => rw [he]
    | inr he =>
      rw [he.2.2]
      rfl
  · exact .inl rfl

/-- A field that SIGTERM does not change. -/
theorem stopMissing_field {α : Type} (field : Core → α) (hfield : ∀ c, field c.told = field c)
    (i : Nat) (w : World) :
    field ((stopMissing i w).2.svc i).core = field (w.svc i).core := by
  cases stopMissing_core i w with
  | inl he => rw [he]
  | inr he => rw [he, hfield]

/-- The operations that hand a record to a function that may close what it has: a start, the
    release of a missing service, and the reading of a pipe. -/
def Op.Handles (w : World) : Op → Nat → Prop
  | .start t j, i => i = j ∧ startDue (min t w.k.clock) (w.svc i) ∧ depsSatisfied w (w.svc i)
  | .missing j, i =>
    i = j ∧ (w.svc i).active ∧ !(w.svc i).present ∧ (w.svc i).pid ≤ 0 ∧ (w.svc i).logPid ≤ 0
  | .output j _ _, i => i = j ∧ (w.svc i).active
  | _, _ => False

/-- The accounts are right, and nothing was taken from the active records that are not
    handled. -/
def KeepsRest (books : Books) (handled : Nat → Prop) (w w' : World) : Prop :=
  w'.Accounted books ∧
    ∀ j, ¬handled j → (w.svc j).active = true → SameFds (w.svc j) (w'.svc j)

/-- An operation that handles no record leaves them all alone. -/
theorem KeepsAccounts.rest {w w' : World} (h : KeepsAccounts books w w') (hw : w.Accounted books)
    (handled : Nat → Prop) : KeepsRest books handled w w' :=
  ⟨(h hw).1, fun j _ => (h hw).2 j⟩

/-- An operation that handles one record leaves the others alone. -/
theorem World.Accounted.handled {w : World} {i : Nat} {f : Service → Sys Service}
    {handled : Nat → Prop} (hw : w.Accounted books) (hact : (w.svc i).active = true)
    (hi : handled i) (hspared : ∀ j, handled j → books.spared ≤ w.others j)
    (h : Hands books (w.svc i).fds (f (w.svc i)) Service.recorded fun _ => True) :
    KeepsRest books handled w (onSlot i f w).2 := by
  refine ⟨hw.slot (hw.inTable i hact) (hspared i hi) ?_, ?_⟩
  · rw [Service.recorded, if_pos hact]
    exact h
  · intro j hj _
    have hji : j ≠ i := fun he => hj (he ▸ hi)
    rw [onSlot_svc, if_neg hji]
    exact .refl _

/-- The release of a missing service closes the descriptors of its record, and no others. -/
theorem missingSlot_keepsRest {w : World} {i : Nat} (hw : w.Accounted books)
    (hspared : ∀ j, (Op.missing i).Handles w j → books.spared ≤ w.others j) :
    KeepsRest books ((Op.missing i).Handles w) w (missingSlot i w).2 := by
  have hstop : Accounts books (stopMissing i) := by
    apply Accounts.get
    intro w
    rw [Sup.ite_apply]
    split
    · exact (stopTransitiveDeps_accounts.seq fun _ =>
        onSlot_accounts i signalStop_leavesFds).rel w
    · exact Std.Refl.refl w
  unfold missingSlot
  rw [Sup.get_bind, Sup.ite_apply]
  split
  · next h =>
    obtain ⟨hact, hgone⟩ := Bool.and_eq_true_iff.mp h
    rw [Sup.bind_apply]
    by_cases hidle : (w.svc i).pid ≤ 0 ∧ (w.svc i).logPid ≤ 0
    · -- there is nothing to stop
      have hnone : (stopMissing i w).2 = w := by
        have hpid : ¬(w.svc i).pid > 0 := Int.not_lt.mpr hidle.1
        unfold stopMissing
        rw [Sup.get_bind, Sup.ite_apply, if_neg (by simp [hpid])]
        rfl
      rw [hnone]
      exact hw.handled hact ⟨rfl, hact, hgone, hidle⟩ hspared (releaseMissing_hands i _ hact)
    -- a process is left, so the slot is not released in this scan
    · have hpid := stopMissing_field Core.pid (fun _ => rfl) i w
      have hlog := stopMissing_field Core.logPid (fun _ => rfl) i w
      have hbusy : ¬(((stopMissing i w).2.svc i).pid ≤ 0 ∧ ((stopMissing i w).2.svc i).logPid ≤ 0) := by
        intro hidle'
        exact hidle ⟨hpid.symm.trans_le hidle'.1, hlog.symm.trans_le hidle'.2⟩
      have hrelease : KeepsAccounts books (stopMissing i w).2 _ :=
        onSlot_keepsAccounts (releaseMissing_leavesFds i _ hbusy)
      exact KeepsAccounts.rest (IsTrans.trans _ _ _ (hstop.rel w) hrelease) hw _
  -- the directory was found, or the slot is free
  · exact (Std.Refl.refl w : KeepsAccounts books w w).rest hw _

/-- A start opens and closes descriptors of its own record only. -/
theorem startSlot_keepsRest {w : World} {t : Int} {i : Nat} (hw : w.Accounted books)
    (hspared : ∀ j, (Op.start t i).Handles w j → books.spared ≤ w.others j) :
    KeepsRest books ((Op.start t i).Handles w) w (startSlot (min t w.k.clock) i w).2 := by
  unfold startSlot
  rw [Sup.get_bind, Sup.ite_apply]
  split
  · next hdue =>
    have hact : (w.svc i).active = true := (startDue_due hdue (Int.le_refl _)).active
    rw [Sup.ite_apply]
    split
    -- a service that waits for its dependencies keeps its streams
    · have hretry : LeavesFds books (w.svc i) (retryLater (w.svc i)) :=
        monoNow_noFds.skip fun _ _ => SameFds.leaves ⟨⟨rfl, rfl, rfl⟩, rfl⟩
      exact (onSlot_keepsAccounts hretry).rest hw _
    · next hdeps =>
      have hdeps : depsSatisfied w (w.svc i) = true := by simpa using hdeps
      apply hw.handled hact ⟨rfl, hdue, hdeps⟩ hspared
      exact (startService_hands i _).weaken rfl (fun s hs => (if_pos (hs.trans hact)).symm)
        fun _ _ => trivial
  · exact (Std.Refl.refl w : KeepsAccounts books w w).rest hw _

/-- A command that finds its service first. -/
theorem withService_accounts {usage : String} {arg : Bytes} {act : Nat → Sup Bytes}
    (h : ∀ i, Accounts books (act i)) : Accounts books (withService usage arg act) := by
  apply StateM.Keeps.ite
  · exact fun _ => .pure trivial
  intro _
  apply Accounts.get
  intro w
  cases findServiceByName w arg with
  | none => exact Std.Refl.refl w
  | some i => exact (h i).rel w

/-- A command opens and closes nothing for good. -/
theorem svcCommand_accounts (cmd : SvcCmd) (arg : Bytes) : Accounts books (svcCommand cmd arg) := by
  apply withService_accounts
  intro i
  have haccept : Accounts books (do
      onSlot i (acceptCmd cmd i)
      return formatOk (svcCmdDone cmd)) :=
    (onSlot_accounts i (acceptCmd_leavesFds cmd i)).seq fun _ => .pure trivial
  exact .ite (fun _ => stopTransitiveDeps_accounts.seq fun _ => haccept) fun _ => haccept

/-- Neither does a signal. -/
theorem sendSignal_accounts (i : Nat) (sig : Int) : Accounts books (sendSignal i sig) := by
  apply Accounts.get
  intro w
  rw [Sup.ite_apply]
  split
  · exact Std.Refl.refl w
  · exact (liftSys_accounts (emit_noFds rfl rfl)).rel w

/-- Nor a signal to itself. -/
theorem raiseHup_noFds : NoFds books raiseHup := by
  apply (emit_noFds rfl rfl).skip
  intro _ _
  exact noFds_of fun _ => ⟨rfl, rfl⟩

/-- Nor any request. -/
theorem respond_accounts (line : Bytes) : Accounts books (respond line) := by
  unfold respond
  generalize splitCmd line = r
  obtain ⟨cmd, arg⟩ := r
  dsimp only
  have hclock : Accounts books (liftSys monoNow) := liftSys_accounts monoNow_noFds
  cases parseRequest cmd with
  | list => exact hclock.seq fun now => Accounts.get fun w => Std.Refl.refl w
  | status => exact withService_accounts fun i => hclock.seq fun now =>
      Accounts.get fun w => Std.Refl.refl w
  | svc c => exact svcCommand_accounts c arg
  | check =>
    apply withService_accounts
    intro i
    exact .get fun w => (liftSys_accounts (runCheck_noFds (w.svc i))).rel w
  | reload => exact (liftSys_accounts raiseHup_noFds).seq fun _ => .pure trivial
  | shortcut sig => exact withService_accounts fun i => sendSignal_accounts i sig
  -- of the requests only these start or signal anything, and none opens a file for good
  | signal =>
    unfold signalCommand
    generalize splitCmd arg = r
    obtain ⟨svcName, sigNumPart⟩ := r
    apply StateM.Keeps.ite
    · exact fun _ => .pure trivial
    intro _
    cases parseSignum sigNumPart with
    | none => exact .pure trivial
    | some signum => exact withService_accounts fun i => sendSignal_accounts i signum
  | unknown => exact .pure trivial

/-- The reply goes to the client's socket, which the model leaves out. -/
theorem handleControlCommand_accounts (line : Bytes) : Accounts books (handleControlCommand line) :=
  (respond_accounts line).seq fun _ => liftSys_accounts (emit_noFds rfl rfl)

/-- The self-pipe stays open. -/
theorem drainSignalPipe_noFds (reads : List Nat) : NoFds books (drainSignalPipe reads) := by
  induction reads with
  | nil => exact .pure rfl trivial
  | cons n reads ih =>
    -- reading the self-pipe opens and closes nothing
    have hread : NoFds books (readSigPipe n) := by
      apply Transfers.idle
      intro k hk
      exact hk.event (e := .sigRead (k.sigPipe.take (min n 64))) rfl rfl rfl rfl
    apply hread.skip
    intro chunk _
    apply Transfers.ite
    · exact fun _ => .pure rfl trivial
    intro _
    cases chunk.find? isLoopSignal with
    | some sig => exact .pure rfl trivial
    | none => exact ih

/-- Reading a pipe touches the descriptors of one record. -/
theorem drainOutput_keepsRest {w : World} {i : Nat} {err : Bool} {reads : List ReadResult}
    (hw : w.Accounted books)
    (hspared : ∀ j, (Op.output i err reads).Handles w j → books.spared ≤ w.others j) :
    KeepsRest books ((Op.output i err reads).Handles w) w (drainOutput i err reads w).2 := by
  unfold drainOutput
  rw [Sup.get_bind, Sup.ite_apply]
  split
  · next hact =>
    apply hw.handled hact ⟨rfl, hact⟩ hspared
    exact (drainStream_hands err reads _).weaken rfl (fun s hs => (if_pos (hs.trans hact)).symm)
      fun _ _ => trivial
  · exact (Std.Refl.refl w : KeepsAccounts books w w).rest hw _

/-- The SIGTERMs of the shutdown leave the descriptors alone. -/
theorem stopAllInOrder_accounts : Accounts books stopAllInOrder := by
  apply Accounts.get
  intro w
  have hordered := forSlots_keeps (R := KeepsAccounts books)
    (fun i => onSlot_accounts i stopOrdered_leavesFds) (stopPlan w).order
  have hremaining := forSlots_keeps (R := KeepsAccounts books)
    (fun i => onSlot_accounts i stopRemaining_leavesFds) (w.slots.filter (stopPlan w).remaining)
  exact (hordered.seq fun _ => hremaining).rel w

/-- So do the SIGKILLs. -/
theorem killRemaining_accounts (i : Nat) : Accounts books (killRemaining i) := by
  apply Accounts.get
  intro w
  have hkill : ∀ target sig, NoFds books (kill target sig) := fun _ _ => emit_noFds rfl rfl
  have hlogger : NoFds books
      (if (w.svc i).active && (w.svc i).logPid > 0 then kill (w.svc i).logPid sigkill
        else pure ()) :=
    .ite (fun _ => hkill _ _) fun _ => .pure rfl trivial
  -- signals touch no descriptor
  have hkills : NoFds books (killProcesses (w.svc i)) := by
    apply Transfers.ite
    · exact fun _ => (hkill _ _).skip fun _ _ => hlogger
    · exact fun _ => hlogger
  exact (liftSys_accounts hkills).rel w

/-- One operation: what is to be left alone must not be in the records that it handles. -/
theorem exec_keepsRest (op : Op) {w : World} (hw : w.Accounted books)
    (hspared : ∀ j, op.Handles w j → books.spared ≤ w.others j) :
    KeepsRest books (op.Handles w) w (exec op w) := by
  -- waiting changes the clock and the self-pipe only
  have hwait : ∀ elapsed arrivals, KeepsAccounts books w (pollWait elapsed arrivals w) := by
    intro elapsed arrivals hw
    have hsame : (pollWait elapsed arrivals w).k.Accounted books ∧ _ := hw.kernel.same rfl rfl
    exact ⟨⟨hsame.1, hw.held, hw.inTable⟩, fun i _ => .refl (w.svc i)⟩
  cases op with
  -- three operations handle a slot's own descriptors, the others leave all of them alone
  | missing i => exact missingSlot_keepsRest hw hspared
  | start t i => exact startSlot_keepsRest hw hspared
  | output i err reads => exact drainOutput_keepsRest hw hspared
  | reapChild pid status => exact ((reapChild_accounts pid status).rel w).rest hw _
  | stopDeps => exact (stopTransitiveDeps_accounts.rel w).rest hw _
  | logDeath i => exact ((killOnLogDeath_accounts i).rel w).rest hw _
  | readClock => exact ((liftSys_accounts monoNow_noFds).rel w).rest hw _
  | unmark i => exact ((unmarkPresent_accounts i).rel w).rest hw _
  | scanEntry name => exact ((scanEntry_accounts name).rel w).rest hw _
  | request line => exact ((handleControlCommand_accounts line).rel w).rest hw _
  | signals reads => exact ((liftSys_accounts (drainSignalPipe_noFds reads)).rel w).rest hw _
  | wait elapsed arrivals => exact (hwait elapsed arrivals).rest hw _
  | stopAll => exact (stopAllInOrder_accounts.rel w).rest hw _
  | killRemaining i => exact ((killRemaining_accounts i).rel w).rest hw _

/-- The books of a whole run. -/
theorem exec_accounted {base : List Int} (op : Op) {w : World} (hw : w.Accounted { base }) :
    (exec op w).Accounted { base } :=
  (exec_keepsRest op hw fun _ _ => Multiset.zero_le _).1

/-! ## The final cleanup -/

/-- The final cleanup of a slot closes what its record has. -/
theorem cleanupSlot_accounted {base : List Int} (i : Nat) {w : World}
    (hw : w.Accounted { base }) : (cleanupSlot i w).2.Accounted { base } := by
  unfold cleanupSlot
  rw [Sup.get_bind, Sup.ite_apply]
  split
  · next hact =>
    exact hw.slot (hw.inTable i hact) (Multiset.zero_le _)
      (KeepsFds.slot hact (cleanupService_hands _))
  · exact hw

/-- The final cleanup, slot by slot. -/
theorem cleanup_accounted {base : List Int} (is : List Nat) {w : World}
    (hw : w.Accounted { base }) : (forSlots cleanupSlot is w).2.Accounted { base } := by
  induction is generalizing w with
  | nil => exact hw
  | cons i is ih => exact ih (cleanupSlot_accounted i hw)

/-! ## Whole runs -/

/-- At the beginning there is nothing in the books. -/
theorem boot_accounted (root : CStrBuf) (oracle : Nat → Answer) {fds : List Int}
    (hfds : fds.Nodup) : (boot root oracle fds).world.Accounted { base := fds } := by
  have hnone : (boot root oracle fds).world.recorded = 0 := Finset.sum_eq_zero fun _ _ => rfl
  have hsame : (fds : Multiset Int) = 0 + (fds : Multiset Int) := (zero_add _).symm
  exact ⟨⟨hsame, hfds, trivial, Multiset.zero_le _, [], rfl, fun _ he => absurd he List.not_mem_nil⟩,
    hnone.symm, fun i hi => absurd hi Bool.false_ne_true⟩

/-- The books of every run from the start of the main loop. -/
theorem run_accounted (root : CStrBuf) (oracle : Nat → Answer) {fds : List Int}
    (hfds : fds.Nodup) (ops : List Op) :
    (run exec ops (boot root oracle fds).world).Accounted { base := fds } := by
  have hstep : ∀ (w : World) op, w.Accounted { base := fds } → True →
      (exec op w).Accounted { base := fds } := fun _ op hw _ => exec_accounted op hw
  exact Transition.run_invariant hstep (boot_accounted root oracle hfds)
    (Transition.along_true ops _)

/-- In every run, and in the final cleanup after any number of records, the descriptors that
    are open are those from before the main loop and those in the streams of the active
    records, each of them once; and everything that was closed was an open descriptor of a
    service. -/
theorem descriptors_recorded (root : CStrBuf) (oracle : Nat → Answer) {fds : List Int}
    (hfds : fds.Nodup) (ops : List Op) (is : List Nat) :
    let w := (forSlots cleanupSlot is (run exec ops (boot root oracle fds).world)).2
    (w.k.fds : Multiset Int) = w.recorded + (fds : Multiset Int) ∧ w.k.fds.Nodup ∧
      Solvent Event.opens Event.closes w.k.trace := by
  have hrun : (run exec ops (boot root oracle fds).world).Accounted { base := fds } := by
    generalize hw : (boot root oracle fds).world = w
    have h : w.Accounted { base := fds } := hw ▸ boot_accounted root oracle hfds
    clear hw
    -- by induction on the operations
    induction ops generalizing w with
    | nil => exact h
    | cons op ops ih => exact ih _ (exec_accounted op h)
  have hclean := cleanup_accounted is hrun
  exact ⟨hclean.held ▸ hclean.kernel.fds, hclean.kernel.nodup, hclean.kernel.solvent⟩

/-- A scan that finds `a`, and its first start: two read ends and two log files. -/
theorem descriptors_recorded_started :
    let w := run exec [.scanEntry (bytesOf "a"), .start 0 0] (openingOn plainFiles).world
    w.k.fds.length = 7 ∧ (w.k.fds : Multiset Int) = w.recorded + ([0, 1, 2] : List Int) := by
  have hlength : (run exec [.scanEntry (bytesOf "a"), .start 0 0]
      (openingOn plainFiles).world).k.fds.length = 7 := by decide +kernel
  have hfds : ([0, 1, 2] : List Int).Nodup := by decide
  have h := descriptors_recorded (CStrBuf.fromBytes (bytesOf "/s")) (opening plainFiles) hfds
    [.scanEntry (bytesOf "a"), .start 0 0] []
  rw [openingOn] at hlength ⊢
  generalize run exec _ _ = w at h hlength
  exact ⟨hlength, h.1⟩

/-! ## The end of the program -/

/-- After its cleanup the slot has no descriptors on record. -/
theorem cleanupSlot_recorded (i j : Nat) (w : World) :
    ((cleanupSlot i w).2.svc j).recorded = if j = i then 0 else (w.svc j).recorded := by
  unfold cleanupSlot
  rw [Sup.get_bind, Sup.ite_apply]
  split
  -- an active slot records nothing any more, any other one never did
  · rw [onSlot_svc]
    split
    · unfold Service.recorded
      split <;> rfl
    · rfl
  · next hact =>
    split
    · next hji => exact hji ▸ if_neg hact
    · rfl

/-- The table keeps its size. -/
@[simp] theorem cleanupSlot_size (i : Nat) (w : World) : (cleanupSlot i w).2.size = w.size := by
  unfold cleanupSlot
  rw [Sup.get_bind, Sup.ite_apply]
  split <;> rfl

/-- The cleanup of some slots. -/
theorem cleanup_recorded (is : List Nat) (w : World) :
    (forSlots cleanupSlot is w).2.size = w.size ∧
      ∀ j ∈ is, ((forSlots cleanupSlot is w).2.svc j).recorded = 0 := by
  -- a record that is clean stays clean in later rounds
  have hstays : ∀ is (w : World) j, (w.svc j).recorded = 0 →
      ((forSlots cleanupSlot is w).2.svc j).recorded = 0 := by
    intro is
    induction is with
    | nil => exact fun _ _ h => h
    | cons i is ih =>
      intro w j h
      have hone : ((cleanupSlot i w).2.svc j).recorded = 0 := by
        rw [cleanupSlot_recorded, h]
        exact ite_self 0
      exact ih (cleanupSlot i w).2 j hone
  -- by induction on the slots that are cleaned up
  induction is generalizing w with
  | nil => exact ⟨rfl, fun j hj => absurd hj List.not_mem_nil⟩
  | cons i is ih =>
    obtain ⟨hsize, hdone⟩ := ih (cleanupSlot i w).2
    refine ⟨hsize.trans (cleanupSlot_size i w), fun j hj => ?_⟩
    cases List.mem_cons.mp hj with
    | inl hji =>
      have hone : ((cleanupSlot i w).2.svc j).recorded = 0 := by
        rw [cleanupSlot_recorded, if_pos hji]
      exact hstays is (cleanupSlot i w).2 j hone
    | inr hj => exact hdone j hj

/-- After the cleanup of the whole table, no descriptor of a service is open. -/
theorem cleanup_closes {base : List Int} {w : World} (hw : w.Accounted { base }) :
    ((cleanupServices w).2.k.fds : Multiset Int) = (base : Multiset Int) := by
  have hclean := cleanup_accounted w.slots hw
  obtain ⟨hsize, hdone⟩ := cleanup_recorded w.slots w
  have hnone : (forSlots cleanupSlot w.slots w).2.recorded = 0 := by
    apply Finset.sum_eq_zero
    intro j hj
    rw [hsize] at hj
    exact hdone j (List.mem_range.mpr (Finset.mem_range.mp hj))
  have hfds := hclean.kernel.fds
  rw [hclean.held, hnone, zero_add] at hfds
  exact hfds

end

end SvcRs
