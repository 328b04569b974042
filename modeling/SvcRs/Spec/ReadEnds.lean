import SvcRs.Spec.Output
import SvcRs.Spec.Removal
import SvcRs.Spec.Wiring

/-!
# The read ends of the supervisor

The read end in a record is the only end of its pipe that the supervisor has, in every state that
it reaches: no write end was kept, so the end of the output is seen when the last writer is gone,
and no second read end was kept, so a writer whose reader is closed is told so.

## Key results

- `SoleReads.step`: every operation keeps it
- `read_ends_sole`: every reachable state
-/

namespace SvcRs

open Transition (run)

/-- The descriptor is a read end, and the only end of its pipe. -/
def SoleEnd (base : List Int) (k : Kernel) (fd : Int) : Prop :=
  ∃ pipe, Ends (filesAfter base k.trace) pipe {fd} ∅

/-- Every open read end of the record is the only end of its pipe. -/
def Service.SoleReads (base : List Int) (k : Kernel) (s : Service) : Prop :=
  ∀ err, 0 ≤ (s.stream err).readFd → SoleEnd base k (s.stream err).readFd

/-- Those of all services. -/
def World.SoleReads (base : List Int) (w : World) : Prop :=
  ∀ i, (w.svc i).active = true → (w.svc i).SoleReads base w.k

/-! ## One descriptor -/

section

variable {base : List Int} {k k' : Kernel} {fd : Int}

/-- Only a pipe that has been made has ends. -/
theorem Ends.made {evs : List Event} {pipe : Nat} {r w : Set Int}
    (h : Ends (filesAfter base evs) pipe r w) (hfd : fd ∈ r) : pipe < evs.length := by
  by_contra hlate
  have hfresh := ends_fresh base evs (Nat.le_of_not_lt hlate)
  rw [← h.read, hfresh.read] at hfd
  exact hfd

/-- Nothing happens to the pipe of a spared descriptor. -/
theorem SoleEnd.spared {books : Books} (h : SoleEnd base k fd) (hstart : books.start = k.trace)
    (hmem : fd ∈ books.spared) (hk : k'.Accounted books) : SoleEnd base k' fd := by
  obtain ⟨pipe, hends⟩ := h
  have hends' := hends.spared (hends.made rfl) hstart (by simpa using hmem) hk
  exact ⟨pipe, hends'⟩

/-- A record without read ends. -/
theorem Service.NoReads.sole {s : Service} (h : s.NoReads) : s.SoleReads base k := by
  intro err hfd
  have hnone : (s.stream err).readFd = -1 := by
    cases err with
    | false => exact h.1
    | true => exact h.2
  omega

/-- An open read end of a service is recorded. -/
theorem mem_recorded_read {s : Service} {err : Bool} (hact : s.active = true)
    (hfd : 0 ≤ (s.stream err).readFd) : (s.stream err).readFd ∈ s.recorded := by
  rw [Service.recorded, if_pos hact, s.fds_stream err]
  exact Multiset.mem_add.mpr (.inl (Stream.mem_fds hfd))

end

/-! ## Starting -/

section

variable {base : List Int} {slot : Nat} {s : Service} {k : Kernel}

/-- A start with a logger keeps no read end. -/
theorem mainStarted_noReads {sf : StartFds} (h : s.hasLog = true) (pid : Int) :
    (mainStarted slot s sf pid k).1.NoReads := by
  have hrun : (mainStarted slot s sf pid k).1 =
      (attachStreams (s.started pid (monoNow k).1) sf _).1 := rfl
  rw [hrun]
  unfold attachStreams
  rw [if_pos (show (s.started pid (monoNow k).1).hasLog = true from h)]
  exact ⟨rfl, rfl⟩

/-- Nor does a start whose fork fails. -/
theorem mainForkFailed_noReads {sf : StartFds} (h : s.NoReads) :
    (mainForkFailed s sf k).1.NoReads := by
  unfold mainForkFailed
  split <;> exact h

/-- Only a main process without a logger gives the record read ends. -/
theorem forkMain_noReads {sf : StartFds} (h : s.NoReads)
    (hno : s.hasLog = true ∨ (fork (.main slot) k).1 ≤ 0) : (forkMain slot s sf k).1.NoReads := by
  unfold forkMain
  rw [Sys.bind_apply, Sys.bind_apply]
  split
  · next hpid => exact mainStarted_noReads (hno.resolve_right (Int.not_le.mpr hpid)) _
  · exact mainForkFailed_noReads h

/-- Up to the fork of the main process the record has no read ends. -/
theorem OnBooks.beforeMain_noReads (h : OnBooks base s k) : (beforeMain slot s k).1.1.NoReads := by
  obtain ⟨hready, hnone⟩ := h.readsClosed
  obtain ⟨-, -, hsame⟩ := hready.hands (startLogger_hands slot _)
  rw [beforeMain_record]
  exact ⟨(congrArg Stream.readFd hsame.out).trans hnone.1,
    (congrArg Stream.readFd hsame.err).trans hnone.2⟩

/-- After a start, whatever its outcome. -/
theorem startService_soleReads (h : OnBooks base s k) (hgo : PassesGuard s) :
    (startService slot s k).1.SoleReads base (startService slot s k).2 := by
  have hnone : (beforeMain slot s k).1.1.NoReads := h.beforeMain_noReads
  have hrun : startService slot s k = _ := startService_beforeMain hgo k
  cases hmain : beforeMain slot s k with
  | mk started k₁ =>
    obtain ⟨s₁, sf⟩ := started
    rw [hmain] at hnone hrun
    cases sf with
    | none =>
      -- `pipe` has failed
      rw [hrun]
      exact Service.NoReads.sole hnone
    | some sf =>
      by_cases hup : s₁.hasLog = false ∧ 0 < (fork (.main slot) k₁).1
      · -- the only start after which the record has read ends
        obtain ⟨out, err, -, -, hout, herr⟩ := startService_piped h hgo hmain hup.1 hup.2
        intro e _
        cases e with
        | false => exact ⟨out, hout⟩
        | true => exact ⟨err, herr⟩
      · rw [hrun]
        apply Service.NoReads.sole
        apply forkMain_noReads hnone
        by_cases hlog : s₁.hasLog = true
        · exact .inl hlog
        · exact .inr (Int.not_lt.mp fun hpid => hup ⟨by simpa using hlog, hpid⟩)

end

/-! ## Reading -/

/-- The read end is closed, or else nothing happens to what is spared. -/
theorem drainStream_read {books : Books} {err : Bool} (reads : List ReadResult) {s : Service}
    {k : Kernel} {rest : Multiset Int} (hok : k.Accounted books)
    (hfree : k.free books = ownFd (s.stream err).logFd + rest) :
    ((drainStream err reads s k).1.stream err).readFd < 0 ∨
      (drainStream err reads s k).2.Accounted books ∧
        ((drainStream err reads s k).1.stream err).readFd = (s.stream err).readFd := by
  have hclosed : ∀ (s : Service) (st : Stream),
      ((s.setStream err { st with readFd := -1 }).stream err).readFd < 0 := by
    intro s st
    rw [Service.stream_setStream]
    show (-1 : Int) < 0
    omega
  -- the record changes with every rotation of the log, its read end does not
  induction reads generalizing s k rest with
  | nil => exact .inr ⟨hok, rfl⟩
  | cons read reads ih =>
    unfold drainStream
    split
    · exact .inr ⟨hok, rfl⟩
    cases read with
    | eof | error => exact .inl (hclosed s _)
    | eintr => exact ih hok hfree
    | eagain => exact .inr ⟨hok, rfl⟩
    | data b =>
      cases b with
      | nil => exact .inl (hclosed s _)
      | cons c b =>
        -- what is read next finds the same read end in the record
        have hnext : ∀ {s₁ : Service} {k₁ : Kernel}, k₁.Accounted books →
            k₁.free books = ownFd (s₁.stream err).logFd + rest → LogOnly err s s₁ →
            let r := (if ((c :: b).take ioBuf).length < ioBuf then pure s₁
              else drainStream err reads s₁ : Sys Service) k₁
            (r.1.stream err).readFd < 0 ∨
              r.2.Accounted books ∧ (r.1.stream err).readFd = (s.stream err).readFd := by
          intro s₁ k₁ hok₁ hfree₁ hlog
          have hread : (s₁.stream err).readFd = (s.stream err).readFd := hlog.readFd
          dsimp only
          split
          · exact .inr ⟨hok₁, hread⟩
          · rw [← hread]
            exact ih hok₁ hfree₁
        dsimp only
        split
        · exact hnext hok hfree (.refl err s)
        · obtain ⟨hok₁, hfree₁, hlog⟩ := writeLog_handsLog err ((c :: b).take ioBuf) s k rest hok hfree
          exact hnext hok₁ hfree₁ hlog

section

variable {base : List Int} {w : World} {i : Nat}

/-- What one record has is recorded. -/
theorem World.Accounted.mem_recorded (hw : w.Accounted { base }) (hact : (w.svc i).active = true)
    {fd : Int} (hfd : fd ∈ (w.svc i).recorded) : fd ∈ w.recorded :=
  Multiset.mem_sum.mpr ⟨i, Finset.mem_range.mpr (hw.inTable i hact), hfd⟩

/-- The books that spare the read end of a stream. -/
theorem World.Accounted.sparingRead (hw : w.Accounted { base }) {err : Bool}
    (hact : (w.svc i).active = true) (hfd : 0 ≤ ((w.svc i).stream err).readFd) :
    w.Accounted (w.booksOf base {((w.svc i).stream err).readFd}) :=
  hw.sparing (Multiset.singleton_le.mpr (hw.mem_recorded hact (mem_recorded_read hact hfd)))

/-- Reading one stream of a service. -/
theorem World.SoleReads.output (h : w.SoleReads base) (hw : w.Accounted { base }) (err : Bool)
    (reads : List ReadResult) (hact : (w.svc i).active = true) :
    (drainStream err reads (w.svc i) w.k).1.SoleReads base (drainStream err reads (w.svc i) w.k).2 := by
  have hall : w.recorded = (w.svc i).fds + w.others i := by
    rw [(w.recorded_setSvc (hw.inTable i hact) (w.svc i)).1, Service.recorded, if_pos hact]
  have hfree : w.k.free { base } = ((w.svc i).stream err).fds +
      (((w.svc i).stream !err).fds + w.others i) := by
    rw [Kernel.free, hw.held, hall, (w.svc i).fds_stream err, add_assoc]
    exact tsub_zero _
  obtain ⟨-, -, st, hst, hafter⟩ := drainStream_handsStream err reads _ w.k _ hw.kernel hfree
  intro e hfd
  by_cases he : e = err
  · subst he
    have hread : 0 ≤ ((w.svc i).stream e).readFd := by
      rw [hafter, Service.stream_setStream] at hfd
      omega
    -- of this stream only the log is handed over
    have hspared : w.k.free (w.booksOf base {((w.svc i).stream e).readFd}) =
        ownFd ((w.svc i).stream e).logFd + (((w.svc i).stream !e).fds + w.others i) := by
      rw [Kernel.free, hw.held, hall, (w.svc i).fds_stream e, ownFd_open hread, add_assoc, add_assoc]
      exact add_tsub_cancel_left _ _
    cases drainStream_read reads (hw.sparingRead hact hread).kernel hspared with
    | inl hclosed => omega
    | inr hkept =>
      rw [hkept.2]
      exact (h i hact e hread).spared rfl (Multiset.mem_singleton_self _) hkept.1
  · obtain rfl : e = !err := by
      cases e <;> cases err <;> first | rfl | exact absurd rfl he
    have hsame : (drainStream err reads (w.svc i) w.k).1.stream (!err) = (w.svc i).stream !err := by
      rw [hafter, Service.stream_setStream_not]
    rw [hsame] at hfd ⊢
    -- the other stream is not touched
    have hspared : w.k.free (w.booksOf base {((w.svc i).stream !err).readFd}) =
        ((w.svc i).stream err).fds + (ownFd ((w.svc i).stream !err).logFd + w.others i) := by
      have hsum : w.recorded = {((w.svc i).stream !err).readFd} + (((w.svc i).stream err).fds +
          (ownFd ((w.svc i).stream !err).logFd + w.others i)) := by
        rw [hall, (w.svc i).fds_stream err]
        show _ + (ownFd _ + ownFd _) + _ = _
        rw [ownFd_open hfd, Stream.fds]
        abel
      rw [Kernel.free, hw.held, hsum]
      exact add_tsub_cancel_left _ _
    obtain ⟨hok, -, -⟩ := drainStream_handsStream err reads _ w.k _
      (hw.sparingRead hact hfd).kernel hspared
    exact (h i hact _ hfd).spared rfl (Multiset.mem_singleton_self _) hok

/-! ## One operation -/

/-- A record that the operation does not handle. -/
theorem World.SoleReads.unhandled (h : w.SoleReads base) (hw : w.Accounted { base }) (op : Op)
    (hact : (w.svc i).active = true) (hi : ¬op.Handles w i) :
    ((exec op w).svc i).SoleReads base (exec op w).k := by
  have hsame := (exec_keepsRest op hw fun _ _ => Multiset.zero_le _).2 i hi hact
  intro err hfd
  have hread : (((exec op w).svc i).stream err).readFd = ((w.svc i).stream err).readFd := by
    cases err with
    | false => exact congrArg Stream.readFd hsame.out
    | true => exact congrArg Stream.readFd hsame.err
  rw [hread] at hfd ⊢
  -- the read end is not in a record that the operation handles
  have hothers : ∀ j, op.Handles w j → {((w.svc i).stream err).readFd} ≤ w.others j := by
    intro j hj
    have hne : i ≠ j := fun he => hi (he ▸ hj)
    apply Multiset.singleton_le.mpr
    apply Multiset.mem_sum.mpr
    exact ⟨i, Finset.mem_erase.mpr ⟨hne, Finset.mem_range.mpr (hw.inTable i hact)⟩,
      mem_recorded_read hact hfd⟩
  have hkept := (exec_keepsRest op (hw.sparingRead hact hfd) hothers).1
  exact (h i hact err hfd).spared rfl (Multiset.mem_singleton_self _) hkept.kernel

/-- A record that it does handle. -/
theorem World.SoleReads.handled (h : w.SoleReads base) (hw : w.Accounted { base })
    (htraced : Traced base w.k) (hstd : ∀ fd, 0 ≤ fd → fd ≤ 2 → fd ∈ base) {op : Op}
    (hi : op.Handles w i) (hact : (w.svc i).active = true)
    (hstill : ((exec op w).svc i).active = true) :
    ((exec op w).svc i).SoleReads base (exec op w).k := by
  cases op with
  | start t j =>
    obtain ⟨rfl, hdue, hdeps⟩ := hi
    rw [exec_start hdue hdeps, onSlot_svc, if_pos rfl]
    exact startService_soleReads (hw.onBooks htraced hstd hact) (startDue_passes hdue)
  | missing j =>
    -- a record that is handled here is given up
    obtain ⟨rfl, -, hmissing, hpid, hlogger⟩ := hi
    have hfades := missingSlot_fades i i w
    have hpresent : (w.svc i).present = false := by simpa using hmissing
    have halive := (missingSlot_settles i w hstill (hfades.present.trans hpresent)).alive
    rw [hfades.pid, hfades.logPid] at halive
    omega
  | output j err reads =>
    obtain ⟨rfl, -⟩ := hi
    have hdrain : exec (.output i err reads) w = (onSlot i (drainStream err reads) w).2 :=
      congrArg Prod.snd (drainOutput_active hact err reads)
    rw [hdrain, onSlot_svc, if_pos rfl]
    exact h.output hw err reads hact
  | _ => exact False.elim hi

/-- A new record has no read end. -/
theorem newService_noReads {k : Kernel} (hk : k.Accounted { base }) (name : Bytes) (dir : CStrBuf) :
    (newService i name dir k).1.NoReads := by
  have hrun : (newService i name dir k).1 = (buildService name dir k).1 := rfl
  have hbuilt := (buildService_hands name dir k (k.free { base }) hk (zero_add _).symm).2.2
  rw [hrun]
  exact ⟨congrArg Stream.readFd hbuilt.out, congrArg Stream.readFd hbuilt.err⟩

/-- A record that was not there before. -/
theorem exec_added_noReads {op : Op} (hw : w.Accounted { base }) (hnew : (w.svc i).active = false)
    (hact : ((exec op w).svc i).active = true) : ((exec op w).svc i).NoReads := by
  by_cases hadds : ∃ name j, op = .scanEntry name ∧ AddsAt w name j
  · -- a scan has put a new record into a free slot
    obtain ⟨name, j, rfl, hadd⟩ := hadds
    have hexec : exec (.scanEntry name) w =
        (onSlot j (fun _ => newService j name (serviceDir w.root name)) (probed name w)).2 :=
      scanEntry_adds hadd
    rw [hexec, onSlot_svc] at hact ⊢
    split at hact
    · next hij =>
      rw [if_pos hij]
      have hprobed : (probed name w).k.Accounted { base } ∧ _ := hw.kernel.same rfl rfl
      exact newService_noReads hprobed.1 _ _
    · exact absurd hact (by simp [hnew])
  · -- nothing else makes a record active
    have hkept : w.life.KeysKept (exec op w).life :=
      keysKept_op fun name j he hadd => hadds ⟨name, j, he, hadd⟩
    have hbefore : (w.svc i).active = true := (hkept.core i hact).1
    exact absurd hbefore (by simp [hnew])

/-- Every operation keeps it. -/
theorem World.SoleReads.step (h : w.SoleReads base) (hw : w.Accounted { base })
    (htraced : Traced base w.k) (hstd : ∀ fd, 0 ≤ fd → fd ≤ 2 → fd ∈ base) (op : Op) :
    (exec op w).SoleReads base := by
  intro i hact
  cases hbefore : (w.svc i).active with
  | false => exact (exec_added_noReads hw hbefore hact).sole
  | true =>
    by_cases hi : op.Handles w i
    · exact h.handled hw htraced hstd hi hbefore hact
    · exact h.unhandled hw op hbefore hi

end

/-! ## Whole runs -/

/-- In every reachable state, the read end of a stream of a service is a read end of a pipe, and
    there is no other end of this pipe in the supervisor. -/
theorem read_ends_sole (root : CStrBuf) (oracle : Nat → Answer) {fds : List Int} (hfds : fds.Nodup)
    (hstd : ∀ fd, 0 ≤ fd → fd ≤ 2 → fd ∈ fds) {w : World}
    (hw : Performs (boot root oracle fds).world w) {i : Nat} (hact : (w.svc i).active = true)
    {err : Bool} (hfd : 0 ≤ ((w.svc i).stream err).readFd) :
    ∃ pipe, Ends (filesAfter fds w.k.trace) pipe {((w.svc i).stream err).readFd} ∅ := by
  obtain ⟨ops, rfl⟩ := hw
  -- the three invariants go together
  have hstep : ∀ (w : World) op,
      w.SoleReads fds ∧ w.Accounted { base := fds } ∧ Traced fds w.k → True →
      (exec op w).SoleReads fds ∧ (exec op w).Accounted { base := fds } ∧ Traced fds (exec op w).k := by
    intro w op ⟨h, hw, htraced⟩ _
    exact ⟨h.step hw htraced hstd op, exec_accounted op hw, htraced.calls (exec_calls op w)⟩
  have hboot : (boot root oracle fds).world.SoleReads fds ∧
      (boot root oracle fds).world.Accounted { base := fds } ∧
      Traced fds (boot root oracle fds).world.k :=
    ⟨fun _ hact => absurd hact Bool.false_ne_true, boot_accounted root oracle hfds,
      boot_traced root oracle hfds⟩
  exact (Transition.run_invariant hstep hboot (Transition.along_true ops _)).1 i hact err hfd

/-- After `a` has been started, which has no logger. -/
theorem read_ends_sole_a :
    let w := run exec [.scanEntry (bytesOf "a"), .start 0 0] (openingOn plainFiles).world
    ∃ pipe, Ends (filesAfter [0, 1, 2] w.k.trace) pipe {(w.svc 0).out.readFd} ∅ := by
  intro w
  have hact : (w.svc 0).active = true := by decide +kernel
  have hread : 0 ≤ ((w.svc 0).stream false).readFd := by decide +kernel
  have hw : Performs (boot (CStrBuf.fromBytes (bytesOf "/s")) (opening plainFiles) [0, 1, 2]).world w :=
    ⟨_, rfl⟩
  show ∃ pipe, Ends (filesAfter [0, 1, 2] w.k.trace) pipe {((w.svc 0).stream false).readFd} ∅
  generalize w = w' at hact hread hw ⊢
  exact read_ends_sole _ _ (by decide) mem_std hw hact hread

end SvcRs
