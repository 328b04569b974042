import SvcRs.ForStd.Ownership
import SvcRs.Spec.Run

/-!
# Descriptors of the supervisor

Every descriptor that the supervisor opens for a service is recorded in a stream of an
active record, exactly once, and closed exactly once: by whoever takes it out of the
record. The proof is a logic of ownership: each function takes over the descriptors of the
record it is given and hands back those of the record it returns.

## Key results

- `startService_hands`, `drainStream_hands`, `releaseMissing_hands`: the functions that
  open and close descriptors
- `exec_accounted`: every operation keeps the accounts of the table
- `descriptors_recorded`: in every reachable state, the final cleanup included
-/

namespace SvcRs

open Ownership (balance Solvent Transfers)

/-! ## The ledger of descriptors -/

/-- The descriptors that a call has opened. -/
def Event.opens : Event → Multiset Int
  | .opened _ _ fd => {fd}
  | .piped readFd writeFd => {readFd} + {writeFd}
  | _ => 0

/-- The descriptor that a call has closed. -/
def Event.closes : Event → Multiset Int
  | .closed fd => {fd}
  | _ => 0

/-- The descriptors that were opened since the start of the main loop and not closed. -/
def Kernel.held (k : Kernel) : Multiset Int := balance Event.opens Event.closes k.trace

/-- What the accounts of a stretch of a run are kept against: the descriptors that were open
    before the main loop, descriptors that are to be left alone, and the trace so far. -/
structure Books where
  base : List Int
  spared : Multiset Int := 0
  start : List Event := []

/-- The table of descriptors is what was open in the beginning and what the ledger says,
    every close was one of an open descriptor, and the spared descriptors are still open,
    because nothing has happened to them. -/
structure Kernel.Accounted (books : Books) (k : Kernel) : Prop where
  fds : (k.fds : Multiset Int) = k.held + (books.base : Multiset Int)
  nodup : k.fds.Nodup
  solvent : Solvent Event.opens Event.closes k.trace
  kept : books.spared ≤ k.held
  events : ∃ evs, k.trace = evs ++ books.start ∧
    ∀ e ∈ evs, ∀ fd ∈ books.spared, fd ∉ e.opens ∧ fd ∉ e.closes

/-- What is held apart from the spared descriptors. -/
def Kernel.free (books : Books) (k : Kernel) : Multiset Int := k.held - books.spared

section

variable {α β : Type} {books : Books} {k k' : Kernel} {m : Sys α}

/-- `m` takes the descriptors `a` over and hands `b` of its result back. -/
abbrev Hands (books : Books) (a : Multiset Int) (m : Sys α) (b : α → Multiset Int)
    (Q : α → Prop) : Prop :=
  Transfers (Kernel.free books) (Kernel.Accounted books) a m b Q

/-- A computation that has nothing to do with descriptors. -/
abbrev NoFds (books : Books) (m : Sys α) : Prop := Hands books 0 m (fun _ => 0) fun _ => True

/-- The descriptors and the ledger stay the same. -/
theorem Kernel.Accounted.same (h : k.Accounted books) (hfds : k'.fds = k.fds)
    (htrace : k'.trace = k.trace) : k'.Accounted books ∧ k'.free books = k.free books := by
  have hheld : k'.held = k.held := by
    unfold Kernel.held
    rw [htrace]
  refine ⟨⟨by rw [hfds, hheld, h.fds], hfds ▸ h.nodup, htrace ▸ h.solvent, hheld ▸ h.kept,
    htrace ▸ h.events⟩, ?_⟩
  unfold Kernel.free
  rw [hheld]

/-- The spared descriptors after one more event. -/
theorem Kernel.Accounted.moreEvents {e : Event} (h : k.Accounted books)
    (htrace : k'.trace = e :: k.trace)
    (hspares : ∀ fd ∈ books.spared, fd ∉ e.opens ∧ fd ∉ e.closes) :
    ∃ evs, k'.trace = evs ++ books.start ∧
      ∀ e ∈ evs, ∀ fd ∈ books.spared, fd ∉ e.opens ∧ fd ∉ e.closes := by
  obtain ⟨evs, hevs, hall⟩ := h.events
  refine ⟨e :: evs, by rw [htrace, hevs]; rfl, fun e' he' => ?_⟩
  cases List.mem_cons.mp he' with
  | inl heq => exact heq ▸ hspares
  | inr hold => exact hall e' hold

/-- An event that is not about descriptors. -/
theorem Kernel.Accounted.event {e : Event} (h : k.Accounted books) (hopens : e.opens = 0)
    (hcloses : e.closes = 0) (hfds : k'.fds = k.fds) (htrace : k'.trace = e :: k.trace) :
    k'.Accounted books ∧ k'.free books = k.free books := by
  have hheld : k'.held = k.held := by
    unfold Kernel.held
    rw [htrace, Ownership.balance_idle _ _ hopens hcloses]
  have hsolvent : Solvent Event.opens Event.closes k'.trace := by
    rw [htrace]
    exact (Ownership.solvent_idle _ _ hcloses _).mpr h.solvent
  -- the event opens and closes nothing, so the spared ones are safe
  have hspares : ∀ fd ∈ books.spared, fd ∉ e.opens ∧ fd ∉ e.closes := by
    intro fd _
    rw [hopens, hcloses]
    exact ⟨Multiset.notMem_zero fd, Multiset.notMem_zero fd⟩
  refine ⟨⟨by rw [hfds, hheld, h.fds], hfds ▸ h.nodup, hsolvent, hheld ▸ h.kept,
    h.moreEvents htrace hspares⟩, ?_⟩
  unfold Kernel.free
  rw [hheld]

/-- A call that changes neither the table nor the trace. -/
theorem noFds_of (h : ∀ k, (m k).2.fds = k.fds ∧ (m k).2.trace = k.trace) : NoFds books m :=
  .idle fun k hk => hk.same (h k).1 (h k).2

theorem call_noFds : NoFds books call := noFds_of fun _ => ⟨rfl, rfl⟩

theorem monoNow_noFds : NoFds books monoNow := noFds_of fun _ => ⟨rfl, rfl⟩

/-- An event that opens and closes nothing. -/
theorem emit_noFds {e : Event} (hopens : e.opens = 0) (hcloses : e.closes = 0) :
    NoFds books (emit e) :=
  .idle fun _ hk => hk.event hopens hcloses rfl rfl

theorem fork_noFds (role : Role) : NoFds books (fork role) := by
  apply call_noFds.skip
  intro a _
  apply Transfers.idle
  intro k hk
  split
  · exact hk.event (e := .fork role a.fork) rfl rfl rfl rfl
  · exact ⟨hk, rfl⟩

theorem waitpid_noFds (pid status : Int) : NoFds books (waitpid pid status) := by
  apply Transfers.idle
  intro k hk
  unfold waitpid
  split
  · exact hk.event (e := .reaped pid status) rfl rfl rfl rfl
  · exact ⟨hk, rfl⟩

/-! ## Opening and closing -/

/-- A descriptor that is recorded in a field, if it is one. -/
def ownFd (fd : Int) : Multiset Int := if 0 ≤ fd then {fd} else 0

/-- `-1` is no descriptor. -/
@[simp] theorem ownFd_none : ownFd (-1) = 0 := rfl

/-- A number that is not negative is one. -/
theorem ownFd_open {fd : Int} (h : 0 ≤ fd) : ownFd fd = {fd} := if_pos h

/-- What is held is open. -/
theorem Kernel.Accounted.mem_fds (h : k.Accounted books) {fd : Int} (hfd : fd ∈ k.held) :
    fd ∈ k.fds := by
  rw [← Multiset.mem_coe, h.fds]
  exact Multiset.mem_add.mpr (.inl hfd)

/-- A new descriptor is not an open one. -/
theorem Kernel.Accounted.open {e : Event} {fds : List Int} {rest : Multiset Int}
    (h : k.Accounted books) (hrest : k.free books = 0 + rest) (hopens : e.opens = fds)
    (hcloses : e.closes = 0) (hnodup : (fds ++ k.fds).Nodup)
    (hfds : k'.fds = fds ++ k.fds) (htrace : k'.trace = e :: k.trace) :
    k'.Accounted books ∧ k'.free books = fds + rest ∧ True := by
  -- what the event opens is added to what is held, and all of it is free
  have hheld : k'.held = fds + k.held := by
    unfold Kernel.held
    rw [htrace, balance, hopens, hcloses, Multiset.sub_zero, add_comm]
  have hfree : k'.free books = fds + rest := by
    unfold Kernel.free at hrest ⊢
    rw [hheld, Multiset.add_sub_assoc h.kept, hrest, zero_add]
  have hsolvent : Solvent Event.opens Event.closes k'.trace := by
    rw [htrace]
    exact (Ownership.solvent_idle _ _ hcloses _).mpr h.solvent
  -- the spared descriptors are open already, so they are not among the new ones
  have hspares : ∀ fd ∈ books.spared, fd ∉ e.opens ∧ fd ∉ e.closes := by
    intro fd hfd
    rw [hopens, hcloses]
    have hopen := h.mem_fds (Multiset.mem_of_le h.kept hfd)
    exact ⟨fun hnew => List.disjoint_of_nodup_append hnodup hnew hopen, Multiset.notMem_zero fd⟩
  have hkept : books.spared ≤ k'.held := hheld ▸ h.kept.trans (Multiset.le_add_left _ _)
  refine ⟨⟨?_, hfds ▸ hnodup, hsolvent, hkept, h.moreEvents htrace hspares⟩, hfree, trivial⟩
  rw [hfds, hheld, ← Multiset.coe_add, h.fds, add_assoc]

/-- The caller gets the new descriptor. -/
theorem openFile_hands (path : Bytes) (mode : OpenMode) :
    Hands books 0 (openFile path mode) ownFd fun _ => True := by
  apply call_noFds.skip
  intro a _ k rest hk hfree
  dsimp only
  split
  · next h =>
    rw [ownFd_open h.1]
    exact hk.open (e := .opened path mode a.fd) hfree rfl rfl
      (List.nodup_cons.mpr ⟨h.2, hk.nodup⟩) rfl rfl
  · exact ⟨hk, hfree, trivial⟩

/-- The caller gets both ends. -/
theorem newPipe_hands : Hands books 0 newPipe
    (fun ends => match ends with
      | none => 0
      | some (readFd, writeFd) => ownFd readFd + ownFd writeFd) fun _ => True := by
  apply call_noFds.skip
  intro a _ k rest hk hfree
  dsimp only
  -- `pipe` may fail, or answer with descriptors that are in use
  split
  · next r w _ =>
    split
    · next h =>
      have hnodup : (r :: w :: k.fds).Nodup := by
        simp only [List.nodup_cons, List.mem_cons, not_or]
        exact ⟨⟨h.2.2.1, h.2.2.2.1⟩, h.2.2.2.2, hk.nodup⟩
      dsimp only
      rw [ownFd_open h.1, ownFd_open h.2.1]
      exact hk.open (e := .piped r w) hfree rfl rfl hnodup rfl rfl
    · exact ⟨hk, hfree, trivial⟩
  · exact ⟨hk, hfree, trivial⟩

/-- Closing takes a descriptor over and hands nothing back. -/
theorem closeFd_hands (fd : Int) : Hands books (ownFd fd) (closeFd fd) (fun _ => 0) fun _ => True := by
  intro k rest hk hfree
  unfold closeFd
  split
  · next h =>
    rw [ownFd_open h, Kernel.free] at hfree
    have hheld : k.held = {fd} + (rest + books.spared) := by
      rw [← add_assoc, ← hfree, Multiset.sub_add_cancel hk.kept]
    have hmem : fd ∈ k.held := by
      rw [hheld]
      exact Multiset.mem_add.mpr (.inl (Multiset.mem_singleton_self fd))
    have hloss : ({fd} : Multiset Int) ≤ k.held := Multiset.singleton_le.mpr hmem
    have hafter : balance Event.opens Event.closes (.closed fd :: k.trace) =
        rest + books.spared := by
      show k.held - {fd} + 0 = _
      rw [hheld, add_zero, add_comm, Multiset.add_sub_cancel_right]
    -- the descriptor is none of those that are to be left alone
    have hother : fd ∉ books.spared := by
      intro hspared
      have hnodup : ({fd} + (rest + books.spared) + (books.base : Multiset Int)).Nodup := by
        rw [← hheld, ← hk.fds]
        exact Multiset.coe_nodup.mpr hk.nodup
      rw [add_assoc, Multiset.singleton_add, Multiset.nodup_cons] at hnodup
      exact hnodup.1 (Multiset.mem_add.mpr (.inl (Multiset.mem_add.mpr (.inr hspared))))
    have hspares : ∀ fd' ∈ books.spared, fd' ∉ (Event.closed fd).opens ∧
        fd' ∉ (Event.closed fd).closes := by
      intro fd' hfd'
      refine ⟨Multiset.notMem_zero fd', fun heq => hother ?_⟩
      exact Multiset.mem_singleton.mp heq ▸ hfd'
    have hkept : books.spared ≤ balance Event.opens Event.closes (.closed fd :: k.trace) :=
      hafter ▸ Multiset.le_add_left _ _
    refine ⟨⟨?_, hk.nodup.erase fd, ⟨hloss, hk.solvent⟩, hkept, hk.moreEvents rfl hspares⟩, ?_,
      trivial⟩
    · show ((k.fds.erase fd : List Int) : Multiset Int) = balance _ _ (.closed fd :: k.trace) + _
      rw [hafter, ← Multiset.coe_erase, hk.fds, hheld, add_assoc, Multiset.singleton_add,
        Multiset.erase_cons_head]
    · show balance _ _ (.closed fd :: k.trace) - books.spared = 0 + rest
      rw [hafter, Multiset.add_sub_cancel_right, zero_add]
  · next h =>
    rw [ownFd, if_neg h] at hfree
    exact ⟨hk, hfree, trivial⟩

variable {a r : Multiset Int} {c : β → Multiset Int} {S : β → Prop}

/-- A descriptor is given up. -/
theorem Hands.close {f : Unit → Sys β} {fd : Int} (ha : a = ownFd fd + r)
    (hf : Hands books r (f ()) c S) : Hands books a (closeFd fd >>= f) c S :=
  (closeFd_hands fd).give ha fun _ _ => hf.weaken (zero_add r) (fun _ _ => rfl) fun _ => id

/-- A descriptor is taken over from `open`. -/
theorem Hands.open {f : Int → Sys β} {path : Bytes} {mode : OpenMode}
    (hf : ∀ fd, Hands books (ownFd fd + a) (f fd) c S) :
    Hands books a (openFile path mode >>= f) c S :=
  (openFile_hands path mode).give (zero_add a).symm fun fd _ => hf fd

/-- Two descriptors are taken over from `pipe`. -/
theorem Hands.pipe {f : Option (Int × Int) → Sys β} (hnone : Hands books a (f none) c S)
    (hsome : ∀ readFd writeFd, Hands books (ownFd readFd + ownFd writeFd + a)
      (f (some (readFd, writeFd))) c S) : Hands books a (newPipe >>= f) c S := by
  apply newPipe_hands.give (zero_add a).symm
  intro ends _
  match ends with
  | none => exact hnone.weaken (zero_add a) (fun _ _ => rfl) fun _ => id
  | some (readFd, writeFd) => exact hsome readFd writeFd

end

/-! ## The descriptors of a record -/

/-- The descriptors of a stream. -/
def Stream.fds (st : Stream) : Multiset Int := ownFd st.readFd + ownFd st.logFd

/-- The descriptors of both streams. -/
def Service.fds (s : Service) : Multiset Int := s.out.fds + s.err.fds

/-- One stream and the other. -/
theorem Service.fds_stream (s : Service) (err : Bool) :
    s.fds = ownFd (s.stream err).readFd + ownFd (s.stream err).logFd + (s.stream !err).fds := by
  cases err with
  | false => rfl
  | true => exact add_comm _ _

/-- A stream is replaced. -/
theorem Service.fds_setStream (s : Service) (err : Bool) (st : Stream) :
    (s.setStream err st).fds = ownFd st.readFd + ownFd st.logFd + (s.stream !err).fds := by
  cases err with
  | false => rfl
  | true => exact add_comm _ _

/-- A stream is no part of the life cycle. -/
@[simp] theorem Service.active_setStream (s : Service) (err : Bool) (st : Stream) :
    (s.setStream err st).active = s.active := by
  cases err <;> rfl

/-- `m` hands the descriptors of the record that it returns back, and does not (de)activate
    the record. -/
abbrev HandsTo (books : Books) (act : Bool) (a : Multiset Int) (m : Sys Service) : Prop :=
  Hands books a m Service.fds fun s => s.active = act

/-- The descriptors of the record go in, those of the new record come out. -/
abbrev KeepsFds (books : Books) (s : Service) (m : Sys Service) : Prop :=
  HandsTo books s.active s.fds m

section

variable {books : Books}

/-! ### Functions that change no stream -/

/-- The fields that say which descriptors a record has are the same. -/
structure SameStreams (s s' : Service) : Prop where
  out : s'.out = s.out
  err : s'.err = s.err
  active : s'.active = s.active

/-- The fields that matter here are the same. -/
structure SameFds (s s' : Service) : Prop extends SameStreams s s' where
  hasLog : s'.hasLog = s.hasLog

/-- Nothing changes. -/
theorem SameFds.refl (s : Service) : SameFds s s := ⟨⟨rfl, rfl, rfl⟩, rfl⟩

/-- The same streams have the same descriptors. -/
theorem SameStreams.fds {s s' : Service} (h : SameStreams s s') : s'.fds = s.fds := by
  unfold Service.fds
  rw [h.out, h.err]

/-- A record with the same streams takes over the descriptors. -/
theorem SameFds.hands {s s' : Service} {act : Bool} (h : SameFds s s') (hact : s.active = act) :
    HandsTo books act s.fds (pure s') :=
  .pure h.fds.symm (h.active.trans hact)

/-- What does not touch a stream, as a computation on records. -/
abbrev LeavesFds (books : Books) (s : Service) (m : Sys Service) : Prop :=
  Hands books 0 m (fun _ => 0) (SameFds s)

/-- What leaves the descriptors alone keeps them. -/
theorem LeavesFds.keeps {s : Service} {m : Sys Service} (h : LeavesFds books s m) :
    KeepsFds books s m := by
  have hframe := h.frame s.fds
  apply hframe.weaken (zero_add _).symm
  · intro s' hs'
    rw [zero_add]
    exact hs'.fds.symm
  · exact fun _ hs' => hs'.active

/-- One after the other. -/
theorem SameStreams.trans {s₁ s₂ s₃ : Service} (h : SameStreams s₁ s₂) (h' : SameStreams s₂ s₃) :
    SameStreams s₁ s₃ :=
  ⟨h'.out.trans h.out, h'.err.trans h.err, h'.active.trans h.active⟩

/-- One after the other. -/
theorem SameFds.trans {s₁ s₂ s₃ : Service} (h : SameFds s₁ s₂) (h' : SameFds s₂ s₃) :
    SameFds s₁ s₃ :=
  ⟨h.toSameStreams.trans h'.toSameStreams, h'.hasLog.trans h.hasLog⟩

theorem readFileToBuf_noFds (path : Bytes) (n : Nat) : NoFds books (readFileToBuf path n) :=
  call_noFds.skip fun _ _ => .pure rfl trivial

theorem wallNow_noFds : NoFds books wallNow := call_noFds.skip fun _ _ => .pure rfl trivial

theorem access_noFds (path : Bytes) (mode : AccessMode) : NoFds books (access path mode) :=
  call_noFds.skip fun _ _ => .pure rfl trivial

/-- The files with ids are closed again. -/
theorem parseIdFile_noFds (path : Bytes) {resolve : Bytes → Sys (Option UInt32)}
    (h : ∀ b, NoFds books (resolve b)) : NoFds books (parseIdFile path resolve) := by
  apply (readFileToBuf_noFds path nameBuf).skip
  intro data _
  match data with
  | none => exact .pure rfl trivial
  | some [] => exact .pure rfl trivial
  | some (c :: rest) =>
    dsimp only
    cases parseNumericOrName (c :: rest) with
    | none => exact h _
    | some id => exact .pure rfl trivial

theorem resolveUid_noFds (name : Bytes) : NoFds books (resolveUid name) := by
  unfold resolveUid
  cases cleanName name with
  | none => exact .pure rfl trivial
  | some clean => exact call_noFds.skip fun _ _ => .pure rfl trivial

theorem resolveGid_noFds (name : Bytes) : NoFds books (resolveGid name) := by
  unfold resolveGid
  cases cleanName name with
  | none => exact .pure rfl trivial
  | some clean => exact call_noFds.skip fun _ _ => .pure rfl trivial

theorem parseUserGroup_leavesFds (s : Service) : LeavesFds books s (parseUserGroup s) := by
  apply (parseIdFile_noFds _ resolveUid_noFds).skip
  intro uid _
  apply (parseIdFile_noFds _ resolveGid_noFds).skip
  intro gid _
  refine .pure rfl ?_
  cases uid <;> cases gid <;> exact ⟨⟨rfl, rfl, rfl⟩, rfl⟩

theorem prepareServiceEnv_leavesFds (s : Service) : LeavesFds books s (prepareServiceEnv s) := by
  -- whatever the file holds, only the environment changes
  have henv : LeavesFds books s (readEnv s) := by
    apply (readFileToBuf_noFds _ envBuf).skip
    intro data _
    match data with
    | none => exact .pure rfl ⟨⟨rfl, rfl, rfl⟩, rfl⟩
    | some [] => exact .pure rfl ⟨⟨rfl, rfl, rfl⟩, rfl⟩
    | some (c :: rest) => exact .pure rfl ⟨⟨rfl, rfl, rfl⟩, rfl⟩
  apply henv.skip
  intro s₁ h₁
  apply (access_noFds _ _).skip
  intro enabled _
  exact .pure rfl (h₁.trans ⟨⟨rfl, rfl, rfl⟩, rfl⟩)

/-- Writing opens nothing. -/
theorem writeAll_noFds (fd : Int) (data : Bytes) : NoFds books (writeAll fd data) := by
  apply call_noFds.skip
  intro a _
  exact (emit_noFds rfl rfl).skip fun _ _ => .pure rfl trivial

/-- `write_status_file` closes what it has opened. -/
theorem writeStatusFile_noFds (s : Service) : NoFds books (writeStatusFile s) := by
  apply Hands.open
  intro fd
  rw [add_zero]
  -- the file could not be opened, or it is written and closed
  apply Transfers.ite
  · intro hneg
    rw [ownFd, if_neg (by omega)]
    exact emit_noFds rfl rfl
  · intro _
    apply monoNow_noFds.skip
    intro now _
    apply (writeAll_noFds fd _).skip
    intro written _
    exact Hands.close (add_zero _).symm (emit_noFds rfl rfl)

/-- The file is closed again. -/
theorem touchFile_noFds (path : Bytes) : NoFds books (touchFile path) :=
  .open fun fd => by
    rw [add_zero]
    exact closeFd_hands fd

/-- The last two lines of most functions on a record. -/
theorem writeStatus_hands {s s' : Service} {act : Bool} (h : SameFds s s') (hact : s.active = act) :
    HandsTo books act s.fds (do writeStatusFile s'; return s') :=
  (writeStatusFile_noFds s').skip fun _ _ => h.hands hact

/-! ### Logs -/

/-- Only the log of one stream is different. -/
def LogOnly (err : Bool) (s s' : Service) : Prop :=
  ∃ st : Stream, st.readFd = (s.stream err).readFd ∧ s' = s.setStream err st

/-- The stream that was set. -/
@[simp] theorem Service.stream_setStream (s : Service) (err : Bool) (st : Stream) :
    (s.setStream err st).stream err = st := by
  cases err <;> rfl

/-- The other stream. -/
@[simp] theorem Service.stream_setStream_not (s : Service) (err : Bool) (st : Stream) :
    (s.setStream err st).stream (!err) = s.stream !err := by
  cases err <;> rfl

/-- The later value stays. -/
@[simp] theorem Service.setStream_setStream (s : Service) (err : Bool) (st st' : Stream) :
    (s.setStream err st).setStream err st' = s.setStream err st' := by
  cases err <;> rfl

/-- Nothing is changed. -/
theorem Service.setStream_stream (s : Service) (err : Bool) : s.setStream err (s.stream err) = s := by
  cases err <;> rfl

/-- Nothing changes. -/
theorem LogOnly.refl (err : Bool) (s : Service) : LogOnly err s s :=
  ⟨s.stream err, rfl, (s.setStream_stream err).symm⟩

/-- One after the other. -/
theorem LogOnly.trans {err : Bool} {s₁ s₂ s₃ : Service} (h : LogOnly err s₁ s₂)
    (h' : LogOnly err s₂ s₃) : LogOnly err s₁ s₃ := by
  obtain ⟨st, hread, rfl⟩ := h
  obtain ⟨st', hread', rfl⟩ := h'
  rw [Service.stream_setStream] at hread'
  exact ⟨st', hread'.trans hread, s₁.setStream_setStream err st st'⟩

/-- `m` takes over the descriptor of one log only. -/
abbrev HandsLog (books : Books) (err : Bool) (s : Service) (m : Sys Service) : Prop :=
  Hands books (ownFd (s.stream err).logFd) m (fun s' => ownFd (s'.stream err).logFd) (LogOnly err s)

/-- The old log descriptor is closed, the new one is recorded. -/
theorem openLog_handsLog (err : Bool) (s : Service) : HandsLog books err s (openLog err s) := by
  apply Hands.close (add_zero _).symm
  apply (emit_noFds rfl rfl).skip
  intro _ _
  apply Hands.open
  intro fd
  rw [add_zero]
  -- the length of the file does not matter
  have hdone : ∀ logLen, Hands books (ownFd fd)
      (pure (s.setStream err { s.stream err with logFd := fd, logLen }))
      (fun s' => ownFd (s'.stream err).logFd) (LogOnly err s) := by
    intro logLen
    let st := { s.stream err with logFd := fd, logLen }
    apply Transfers.pure
    · rw [Service.stream_setStream]
    · exact ⟨st, rfl, rfl⟩
  apply Transfers.iteBind (Q := fun _ => True)
  · exact fun _ => Transfers.keep (call_noFds.skip fun a _ =>
      (emit_noFds rfl rfl).skip fun _ _ => .pure rfl trivial)
  · exact fun _ => .pure rfl trivial
  · exact fun logLen _ => hdone logLen

/-- So it is when the log is rotated. -/
theorem rotateLog_handsLog (err : Bool) (s : Service) : HandsLog books err s (rotateLog err s) := by
  let st := { s.stream err with logFd := -1, rotations := (s.stream err).rotations + 1 }
  apply Hands.close (add_zero _).symm
  apply wallNow_noFds.skip
  intro ts _
  apply (emit_noFds rfl rfl).skip
  intro _ _
  -- the old log is closed and the new one takes its place
  have hopen : HandsLog books err (s.setStream err st) (openLog err (s.setStream err st)) :=
    openLog_handsLog err _
  have hnone : 0 = ownFd ((s.setStream err st).stream err).logFd := by
    rw [Service.stream_setStream]
    rfl
  exact hopen.weaken hnone (fun _ _ => rfl) fun _ h => LogOnly.trans ⟨st, rfl, rfl⟩ h

/-- Appending leaves the descriptor open. -/
theorem appendLog_handsLog (err : Bool) (data : Bytes) (s : Service) :
    HandsLog books err s (appendLog err data s) := by
  apply (writeAll_noFds _ data).skip
  intro ok _
  apply Transfers.ite
  · intro _
    let st := { s.stream err with logLen := i64 ((s.stream err).logLen + data.length) }
    apply Transfers.pure
    · rw [Service.stream_setStream]
    · exact ⟨st, rfl, rfl⟩
  · intro _
    -- the log is given up
    let st := { s.stream err with logFd := -1 }
    apply Hands.close (add_zero _).symm
    apply Transfers.pure
    · rw [Service.stream_setStream]
      rfl
    · exact ⟨st, rfl, rfl⟩

/-- A write may open or rotate the log, and records what it has opened. -/
theorem writeLog_handsLog (err : Bool) (data : Bytes) (s : Service) :
    HandsLog books err s (writeLog err data s) := by
  apply Transfers.iteBind (b := fun s₁ => ownFd (s₁.stream err).logFd) (Q := LogOnly err s)
  · exact fun _ => openLog_handsLog err s
  · exact fun _ => .pure rfl (LogOnly.refl err s)
  intro s₁ h₁
  apply Transfers.ite
  -- opening, rotating and writing may each leave the record without a log
  · exact fun _ => .pure rfl h₁
  intro _
  apply Transfers.iteBind (b := fun s₂ => ownFd (s₂.stream err).logFd) (Q := LogOnly err s)
  · exact fun _ => (rotateLog_handsLog err s₁).weaken rfl (fun _ _ => rfl) fun _ => h₁.trans
  · exact fun _ => .pure rfl h₁
  intro s₂ h₂
  apply Transfers.ite
  · exact fun _ => .pure rfl h₂
  · exact fun _ => (appendLog_handsLog err data s₂).weaken rfl (fun _ _ => rfl) fun _ => h₂.trans

/-- Only one stream is different, and it has no new read end. -/
def StreamOnly (err : Bool) (s s' : Service) : Prop :=
  ∃ st : Stream, (st.readFd = (s.stream err).readFd ∨ st.readFd = -1) ∧ s' = s.setStream err st

/-- A change of the log is one of the stream. -/
theorem LogOnly.streamOnly {err : Bool} {s s' : Service} (h : LogOnly err s s') :
    StreamOnly err s s' := by
  obtain ⟨st, hread, he⟩ := h
  exact ⟨st, .inl hread, he⟩

/-- First the log, then the stream. -/
theorem LogOnly.andThen {err : Bool} {s₁ s₂ s₃ : Service} (h : LogOnly err s₁ s₂)
    (h' : StreamOnly err s₂ s₃) : StreamOnly err s₁ s₃ := by
  obtain ⟨st, hread, rfl⟩ := h
  obtain ⟨st', hread', rfl⟩ := h'
  rw [Service.stream_setStream, hread] at hread'
  exact ⟨st', hread', s₁.setStream_setStream err st st'⟩

/-- `m` takes over the descriptors of one stream only. -/
abbrev HandsStream (books : Books) (err : Bool) (s : Service) (m : Sys Service) : Prop :=
  Hands books (s.stream err).fds m (fun s' => (s'.stream err).fds) (StreamOnly err s)

/-- The descriptors of a stream through a function that is about its log. -/
theorem HandsLog.stream {err : Bool} {s : Service} {m : Sys Service} (h : HandsLog books err s m) :
    Hands books (s.stream err).fds m (fun s' => (s'.stream err).fds) (LogOnly err s) := by
  apply (h.frame (ownFd (s.stream err).readFd)).weaken (add_comm _ _)
  · intro s' hs'
    obtain ⟨st, hread, rfl⟩ := hs'
    rw [Service.stream_setStream, ← hread]
    exact add_comm _ _
  · exact fun _ => id

/-- The descriptors of a record through a function that is about one stream. -/
theorem HandsStream.keeps {err : Bool} {s : Service} {m : Sys Service}
    (h : HandsStream books err s m) : KeepsFds books s m := by
  apply (h.frame (s.stream !err).fds).weaken (s.fds_stream err)
  · intro s' hs'
    obtain ⟨st, -, rfl⟩ := hs'
    rw [Service.stream_setStream]
    exact (s.fds_setStream err st).symm
  · intro s' hs'
    obtain ⟨st, -, rfl⟩ := hs'
    exact s.active_setStream err st

/-- `open_log`, for the whole record. -/
theorem openLog_hands (err : Bool) (s : Service) : KeepsFds books s (openLog err s) :=
  HandsStream.keeps ((openLog_handsLog err s).stream.weaken rfl (fun _ _ => rfl)
    fun _ => LogOnly.streamOnly)

/-- The read end is closed at the end of the file, and on an error. -/
theorem closeRead_handsStream (err : Bool) (s : Service) : HandsStream books err s (do
    closeFd (s.stream err).readFd
    return s.setStream err { s.stream err with readFd := -1 }) := by
  apply Hands.close rfl
  apply Transfers.pure
  · rw [Service.stream_setStream, Stream.fds, ownFd_none, zero_add]
  · exact ⟨_, .inr rfl, rfl⟩

/-- `drain_stream` closes the read end at the end of the file, and records that. -/
theorem drainStream_handsStream (err : Bool) (reads : List ReadResult) (s : Service) :
    HandsStream books err s (drainStream err reads s) := by
  have hnothing : ∀ s, HandsStream books err s (pure s) :=
    fun s => .pure rfl (LogOnly.refl err s).streamOnly
  -- by induction on the results of `read`
  induction reads generalizing s with
  | nil => exact hnothing s
  | cons r reads ih =>
    unfold drainStream
    apply Transfers.ite
    · exact fun _ => hnothing s
    intro _
    cases r with
    -- only the end of the stream and an error close the read end
    | eof | error => exact closeRead_handsStream err s
    | eintr => exact ih s
    | eagain => exact hnothing s
    | data b =>
      cases b with
      | nil => exact closeRead_handsStream err s
      | cons c rest =>
        apply Transfers.iteBind (b := fun s₁ => (s₁.stream err).fds) (Q := LogOnly err s)
        · exact fun _ => .pure rfl (LogOnly.refl err s)
        · exact fun _ => (writeLog_handsLog err _ s).stream
        -- after a line that could not be written the loop stops
        intro s₁ h₁
        apply Transfers.ite
        · exact fun _ => .pure rfl h₁.streamOnly
        · exact fun _ => (ih s₁).weaken rfl (fun _ _ => rfl) fun _ => h₁.andThen

/-- `drain_stream`, for the whole record. -/
theorem drainStream_hands (err : Bool) (reads : List ReadResult) (s : Service) :
    KeepsFds books s (drainStream err reads s) := (drainStream_handsStream err reads s).keeps

/-- Afterwards the record holds nothing. -/
theorem closeServiceFds_hands (s : Service) :
    Hands books s.fds (closeServiceFds s) (fun _ => 0)
      fun s' => s'.active = s.active ∧ s'.fds = 0 := by
  have hall : s.fds = ownFd s.out.readFd + (ownFd s.out.logFd + (ownFd s.err.readFd +
      (ownFd s.err.logFd + 0))) := by
    unfold Service.fds Stream.fds
    abel
  apply Hands.close hall
  apply Hands.close rfl
  apply Hands.close rfl
  apply Hands.close rfl
  exact .pure rfl ⟨rfl, rfl⟩

/-! ### Starting -/

/-- The read ends of the record are closed. -/
def Service.NoReads (s : Service) : Prop := s.out.readFd = -1 ∧ s.err.readFd = -1

/-- The old read ends are closed and forgotten. -/
theorem closeReadEnds_hands (s : Service) : Hands books s.fds (closeReadEnds s) Service.fds
    fun s' => s'.active = s.active ∧ s'.NoReads := by
  have hall : s.fds = ownFd s.out.readFd + (ownFd s.err.readFd +
      (ownFd s.out.logFd + ownFd s.err.logFd)) := by
    unfold Service.fds Stream.fds
    abel
  apply Hands.close hall
  apply Hands.close rfl
  apply Transfers.pure
  · unfold Service.fds Stream.fds
    simp only [ownFd_none, zero_add]
  · exact ⟨rfl, rfl, rfl⟩

/-- The write end of the logger's pipe is handed back next to the record. -/
theorem startLogger_hands (slot : Nat) (s : Service) :
    Hands books s.fds (startLogger slot s)
      (fun r => r.1.fds + if r.1.hasLog then ownFd r.2 else 0) fun r => SameStreams s r.1 := by
  -- without a logger no pipe end is handed on
  have hnone : Hands books s.fds (pure ({ s with hasLog := false }, -1) : Sys (Service × Int))
      (fun r => r.1.fds + if r.1.hasLog then ownFd r.2 else 0) fun r => SameStreams s r.1 :=
    .pure (add_zero _).symm ⟨rfl, rfl, rfl⟩
  unfold startLogger
  apply Transfers.ite
  · intro hlog
    refine .pure ?_ ⟨rfl, rfl, rfl⟩
    have hlog : s.hasLog = false := by simpa using hlog
    simp [hlog]
  intro hlog
  apply (access_noFds _ _).skip
  intro ok _
  apply Transfers.ite
  · exact fun _ => hnone
  intro _
  apply Hands.pipe hnone
  intro pipeRead pipeWrite
  apply (fork_noFds _).skip
  intro pid _
  apply Transfers.ite
  · intro _
    apply monoNow_noFds.skip
    intro now _
    -- the parent keeps the write end for the main process
    have hread : ownFd pipeRead + ownFd pipeWrite + s.fds =
        ownFd pipeRead + (ownFd pipeWrite + s.fds) := add_assoc _ _ _
    apply Hands.close hread
    refine .pure ?_ ⟨rfl, rfl, rfl⟩
    have hlog : s.hasLog = true := by simpa using hlog
    simp only [hlog, if_true]
    exact add_comm _ _
  -- `fork` failed: both ends are closed again
  · intro _
    have hboth : ownFd pipeRead + ownFd pipeWrite + s.fds =
        ownFd pipeWrite + (ownFd pipeRead + s.fds) := by abel
    apply Hands.close hboth
    exact Hands.close rfl hnone

/-- The ends of the two pipes. -/
def StartFds.fds (sf : StartFds) : Multiset Int :=
  ownFd sf.out0 + ownFd sf.out1 + ownFd sf.err0 + ownFd sf.err1

/-- Two pipes, or none: a first pipe without a second is closed. -/
theorem openPipes_hands : Hands books 0 openPipes
    (fun ends => match ends with
      | none => 0
      | some sf => sf.fds) fun _ => True := by
  apply Hands.pipe
  · exact .pure rfl trivial
  intro outRead outWrite
  apply Hands.pipe
  -- the second `pipe` failed: the first one is closed again
  · have hout : ownFd outRead + ownFd outWrite + 0 = ownFd outRead + (ownFd outWrite + 0) :=
      add_assoc _ _ _
    apply Hands.close hout
    apply Hands.close rfl
    exact .pure rfl trivial
  · intro errRead errWrite
    refine .pure ?_ trivial
    simp only [StartFds.fds, add_zero]
    abel

/-- When a start fails, the record keeps what it has. -/
theorem startFailed_keepsFds (s : Service) : KeepsFds books s (startFailed s) := by
  apply monoNow_noFds.skip
  intro now _
  exact writeStatus_hands ⟨⟨rfl, rfl, rfl⟩, rfl⟩ rfl

/-- The ends that the parent keeps: none with a logger, else the two read ends. -/
def StartFds.kept (sf : StartFds) (hasLog : Bool) : Multiset Int :=
  if hasLog then 0 else ownFd sf.out0 + ownFd sf.err0

/-- What `start_service` holds for the main process: the write end of the logger's pipe, or
    both pipes. -/
def StartFds.given (sf : StartFds) (hasLog : Bool) : Multiset Int :=
  if hasLog then ownFd sf.out0 else sf.fds

/-- The parent closes the ends that belong to the child. -/
theorem closeChildEnds_hands (s : Service) (sf : StartFds) :
    Hands books (sf.given s.hasLog) (closeChildEnds s sf) (fun _ => sf.kept s.hasLog)
      fun _ => True := by
  unfold closeChildEnds StartFds.given StartFds.kept
  cases s.hasLog with
  | true => exact closeFd_hands sf.out0
  | false =>
    -- the child's two ends are closed, and the read ends are kept
    have hout : sf.fds = ownFd sf.out1 + (ownFd sf.err1 + (ownFd sf.out0 + ownFd sf.err0)) := by
      unfold StartFds.fds
      abel
    apply Hands.close hout
    apply ((closeFd_hands sf.err1).frame _).weaken rfl
    · exact fun _ _ => zero_add _
    · exact fun _ => id

/-- The read ends get into the record. -/
theorem attachStreams_hands (s : Service) (sf : StartFds) (h : s.NoReads) :
    HandsTo books s.active (sf.kept s.hasLog + s.fds) (attachStreams s sf) := by
  unfold StartFds.kept
  apply Transfers.ite
  -- with a logger the output goes there, and the record has no read ends
  · intro hlog
    refine .pure ?_ rfl
    rw [if_pos hlog, zero_add, Service.fds, Stream.fds, h.1, Stream.fds, h.2]
    rfl
  · intro hlog
    rw [if_neg hlog]
    -- otherwise the two read ends move into the record
    have hreads : ownFd sf.out0 + ownFd sf.err0 + s.fds =
        { s with
          out := { s.out with readFd := sf.out0 }
          err := { s.err with readFd := sf.err0 } : Service }.fds := by
      simp only [Service.fds, Stream.fds, h.1, h.2, ownFd_none, zero_add]
      abel
    rw [hreads]
    apply (openLog_hands false _).bind
    intro s₁ h₁
    exact (openLog_hands true s₁).weaken rfl (fun _ _ => rfl) fun _ h => h.trans h₁

/-- The read ends go into the record, whether the fork succeeds or not. -/
theorem forkMain_hands (slot : Nat) (s : Service) (sf : StartFds) (h : s.NoReads) :
    HandsTo books s.active (sf.given s.hasLog + s.fds) (forkMain slot s sf) := by
  apply (fork_noFds _).skip
  intro pid _
  -- the child's ends are closed in the parent, whether `fork` worked or not
  apply (closeChildEnds_hands s sf).give rfl
  intro _ _
  apply Transfers.ite
  · intro _
    apply monoNow_noFds.skip
    intro now _
    apply (emit_noFds rfl rfl).skip
    intro _ _
    apply (attachStreams_hands (s.started pid now) sf h).bind
    intro s₁ h₁
    exact writeStatus_hands ⟨⟨rfl, rfl, rfl⟩, rfl⟩ h₁
  -- after a failed `fork` the parent's own ends are closed too
  · intro _
    have hfailed : KeepsFds books s (startFailed { s with pid := -1 }) :=
      startFailed_keepsFds { s with pid := -1 }
    unfold mainForkFailed StartFds.kept
    cases hlog : s.hasLog with
    | true => exact hfailed.weaken (zero_add _) (fun _ _ => rfl) fun _ => id
    | false =>
      have hout : ownFd sf.out0 + ownFd sf.err0 + s.fds =
          ownFd sf.out0 + (ownFd sf.err0 + s.fds) := add_assoc _ _ _
      apply Hands.close hout
      exact Hands.close rfl hfailed

/-- The pipes and the main process. -/
theorem startMain_hands (slot : Nat) (s : Service) (out0 : Int) (h : s.NoReads) :
    HandsTo books s.active ((if s.hasLog then ownFd out0 else 0) + s.fds)
      (startMain slot s out0) := by
  unfold startMain
  cases hlog : s.hasLog with
  -- the logger's pipe serves as the output of the main process
  | true =>
    have hfork : HandsTo books s.active _ _ := forkMain_hands slot s { out0 } h
    rw [StartFds.given, hlog] at hfork
    exact hfork
  | false =>
    simp only [Bool.false_eq_true, if_false]
    apply openPipes_hands.give rfl
    intro ends _
    -- two fresh pipes, of which the second may fail
    match ends with
    | none => exact (startFailed_keepsFds s).weaken (zero_add _) (fun _ _ => rfl) fun _ => id
    | some sf =>
      have hfork : HandsTo books s.active _ _ := forkMain_hands slot s sf h
      rw [StartFds.given, hlog] at hfork
      exact hfork

/-- A start leaves no descriptor unrecorded. -/
theorem startService_hands (slot : Nat) (s : Service) : KeepsFds books s (startService slot s) := by
  apply Transfers.ite
  · exact fun _ => .pure rfl rfl
  intro _
  apply (prepareServiceEnv_leavesFds s).keeps.bind
  intro s₁ h₁
  apply (closeReadEnds_hands s₁).bind
  intro s₂ h₂
  apply (startLogger_hands slot s₂).bind
  intro r hr
  -- no read end is left from an earlier start
  have hreads : r.1.NoReads := ⟨hr.out.symm ▸ h₂.2.1, hr.err.symm ▸ h₂.2.2⟩
  have hact : r.1.active = s.active := hr.active.trans (h₂.1.trans h₁)
  exact (startMain_hands slot r.1 r.2 hreads).weaken (add_comm _ _) (fun _ _ => rfl)
    fun _ h => h.trans hact

/-! ### Exits, signals and commands -/

/-- `finish` is forked without a pipe. -/
theorem runFinish_noFds (s : Service) : NoFds books (runFinish s) := by
  apply (access_noFds _ _).skip
  intro ok _
  apply Transfers.ite
  · exact fun _ => .pure rfl trivial
  · intro _
    have henv : NoFds books (prepareServiceEnv s) :=
      (prepareServiceEnv_leavesFds s).weaken rfl (fun _ _ => rfl) fun _ _ => trivial
    exact henv.skip fun _ _ => (fork_noFds _).skip fun _ _ => .pure rfl trivial

/-- Only other fields change. -/
theorem SameFds.leaves {s s' : Service} (h : SameFds s s') : LeavesFds books s (pure s') :=
  .pure rfl h

/-- Other fields change and the status file is written. -/
theorem SameFds.writeStatus {s s' : Service} (h : SameFds s s') :
    LeavesFds books s (do writeStatusFile s'; return s') :=
  (writeStatusFile_noFds s').skip fun _ _ => h.leaves

theorem signalLogger_leavesFds (s : Service) : LeavesFds books s (signalLogger s) :=
  (emit_noFds rfl rfl).skip fun _ _ => SameFds.leaves ⟨⟨rfl, rfl, rfl⟩, rfl⟩

theorem signalStop_leavesFds (s : Service) : LeavesFds books s (signalStop s) :=
  (emit_noFds rfl rfl).skip fun _ _ => SameFds.leaves ⟨⟨rfl, rfl, rfl⟩, rfl⟩

theorem signalStopStatus_leavesFds (s : Service) : LeavesFds books s (signalStopStatus s) :=
  (signalStop_leavesFds s).skip fun _ h => h.writeStatus

theorem reapMain_leavesFds (slot : Nat) (status t : Int) (s : Service) :
    LeavesFds books s (reapMain slot status t s) := by
  apply (emit_noFds rfl rfl).skip
  intro _ _
  apply (runFinish_noFds _).skip
  intro _ _
  -- the reaper writes the exit down, but touches no stream
  have hexited : SameFds s (s.exited status) := ⟨⟨rfl, rfl, rfl⟩, rfl⟩
  have hlogger : LeavesFds books s (stopExitedLogger (s.exited status)) := by
    apply Transfers.ite
    · exact fun _ => (signalLogger_leavesFds _).weaken rfl (fun _ _ => rfl) fun _ => hexited.trans
    · exact fun _ => hexited.leaves
  apply hlogger.skip
  intro s₁ h₁
  apply SameFds.writeStatus
  apply h₁.trans
  unfold accountExit
  -- stopping, once and failed exits differ in the time of the restart only
  split
  · exact ⟨⟨rfl, rfl, rfl⟩, rfl⟩
  · dsimp only
    split <;> exact ⟨⟨rfl, rfl, rfl⟩, rfl⟩

/-- One function after another. -/
theorem LeavesFds.bind {s : Service} {m : Sys Service} {f : Service → Sys Service}
    (h : LeavesFds books s m) (hf : ∀ s₁, LeavesFds books s₁ (f s₁)) : LeavesFds books s (m >>= f) :=
  h.skip fun s₁ h₁ => (hf s₁).weaken rfl (fun _ _ => rfl) fun _ => h₁.trans

/-- A function that is called under a condition. -/
theorem LeavesFds.when {s : Service} {m : Sys Service} {c : Prop} [Decidable c]
    (h : LeavesFds books s m) : LeavesFds books s (if c then m else pure s) :=
  .ite (fun _ => h) fun _ => SameFds.leaves ⟨⟨rfl, rfl, rfl⟩, rfl⟩

/-- A function that is called only sometimes. -/
theorem LeavesFds.whenBind {s : Service} {m : Sys Service} {f : Service → Sys Service} {c : Prop}
    [Decidable c] (h : LeavesFds books s m) (hf : ∀ s₁, LeavesFds books s₁ (f s₁)) :
    LeavesFds books s (if c then m >>= f else pure s >>= f) :=
  .ite (fun _ => h.bind hf) fun _ => hf s

theorem stopOrdered_leavesFds (s : Service) : LeavesFds books s (stopOrdered s) :=
  (signalStopStatus_leavesFds s).whenBind fun s₁ => (signalLogger_leavesFds s₁).when

theorem stopRemaining_leavesFds (s : Service) : LeavesFds books s (stopRemaining s) :=
  (signalStop_leavesFds s).whenBind fun s₁ => (signalLogger_leavesFds s₁).when

theorem stopSignals_leavesFds (s : Service) : LeavesFds books s (stopSignals s) := by
  have hlogger : LeavesFds books s (if s.logPid > 0 then signalLogger s else return s) :=
    (signalLogger_leavesFds s).when
  apply Transfers.ite
  · exact fun _ => (emit_noFds rfl rfl).skip fun _ _ => hlogger
  · exact fun _ => hlogger

/-- `stopSignals` on a record whose streams are those of `s`. -/
theorem SameFds.stopSignals {s s' : Service} (h : SameFds s s') :
    LeavesFds books s (do
      let s ← SvcRs.stopSignals s'
      writeStatusFile s
      return s) :=
  Transfers.skip ((stopSignals_leavesFds s').weaken rfl (fun _ _ => rfl) fun _ => h.trans)
    fun _ h₁ => h₁.writeStatus

theorem downCmd_leavesFds (s : Service) : LeavesFds books s (downCmd s) := by
  apply (touchFile_noFds _).skip
  intro _ _
  have hdown : SameFds s { s with autoStart := false } := ⟨⟨rfl, rfl, rfl⟩, rfl⟩
  apply Transfers.ite
  · intro _
    exact SameFds.stopSignals ⟨⟨rfl, rfl, rfl⟩, rfl⟩
  · exact fun _ => hdown.writeStatus

theorem runSvcCmd_leavesFds (cmd : SvcCmd) (s : Service) : LeavesFds books s (runSvcCmd cmd s) := by
  cases cmd with
  -- no command opens anything for the record
  | start => exact SameFds.leaves ⟨⟨rfl, rfl, rfl⟩, rfl⟩
  | stop => exact SameFds.stopSignals ⟨⟨rfl, rfl, rfl⟩, rfl⟩
  | restart => exact SameFds.stopSignals ⟨⟨rfl, rfl, rfl⟩, rfl⟩
  | down => exact downCmd_leavesFds s
  | up =>
    apply (emit_noFds rfl rfl).skip
    intro _ _
    apply monoNow_noFds.skip
    intro now _
    exact SameFds.writeStatus ⟨⟨rfl, rfl, rfl⟩, rfl⟩
  | once =>
    apply (touchFile_noFds _).skip
    intro _ _
    exact SameFds.writeStatus ⟨⟨rfl, rfl, rfl⟩, rfl⟩

theorem acceptCmd_leavesFds (cmd : SvcCmd) (slot : Nat) (s : Service) :
    LeavesFds books s (acceptCmd cmd slot s) :=
  (emit_noFds rfl rfl).skip fun _ _ => runSvcCmd_leavesFds cmd s

theorem runCheck_noFds (s : Service) : NoFds books (runCheck s) := by
  have henv : NoFds books (prepareServiceEnv s) :=
    (prepareServiceEnv_leavesFds s).weaken rfl (fun _ _ => rfl) fun _ _ => trivial
  apply henv.skip
  intro _ _
  apply (access_noFds _ _).skip
  intro ok _
  apply Transfers.ite
  · exact fun _ => .pure rfl trivial
  -- what the check opens belongs to the child
  intro _
  apply (fork_noFds _).skip
  intro pid _
  apply Transfers.ite
  · intro _
    apply call_noFds.skip
    intro a _
    exact (waitpid_noFds _ _).skip fun _ _ => .pure rfl trivial
  · exact fun _ => .pure rfl trivial

/-! ### Scanning -/

theorem foundService_leavesFds (slot : Nat) (s : Service) :
    LeavesFds books s (foundService slot s) := by
  apply (emit_noFds rfl rfl).skip
  intro _ _
  have huser : LeavesFds books s (parseUserGroup { s with present := true, stopping := false }) :=
    (parseUserGroup_leavesFds _).weaken rfl (fun _ _ => rfl) fun _ =>
      SameFds.trans ⟨⟨rfl, rfl, rfl⟩, rfl⟩
  exact huser.bind fun s₁ => prepareServiceEnv_leavesFds s₁

/-- What an inactive record has in its fields does not count. -/
def Service.recorded (s : Service) : Multiset Int := if s.active then s.fds else 0

/-- A new record has no descriptors. -/
theorem buildService_hands (name : Bytes) (dir : CStrBuf) :
    Hands books 0 (buildService name dir) (fun _ => 0)
      (SameStreams { Service.empty with active := true }) := by
  -- the files of the service are opened and closed again one by one
  apply (access_noFds _ _).skip
  intro down _
  apply (access_noFds _ _).skip
  intro once _
  apply (readFileToBuf_noFds _ _).skip
  intro data _
  apply (access_noFds _ _).skip
  intro log _
  apply (LeavesFds.bind (parseUserGroup_leavesFds _) fun s₁ =>
    (prepareServiceEnv_leavesFds s₁).bind fun s₂ =>
      SameFds.writeStatus ⟨⟨rfl, rfl, rfl⟩, rfl⟩).weaken rfl
  · exact fun _ _ => rfl
  · intro s hs
    refine SameStreams.trans ?_ hs.toSameStreams
    cases down <;> cases once <;> cases data <;> cases log <;> exact ⟨rfl, rfl, rfl⟩

/-- A new record has no descriptors. -/
theorem newService_hands (slot : Nat) (name : Bytes) (dir : CStrBuf) :
    Hands books 0 (newService slot name dir) Service.recorded fun _ => True := by
  apply (buildService_hands name dir).skip
  intro s hs
  apply (emit_noFds rfl rfl).skip
  intro _ _
  refine .pure ?_ trivial
  unfold Service.recorded Service.fds
  rw [hs.out, hs.err, if_pos hs.active]
  rfl

/-- All descriptors of the record are closed. -/
theorem releaseSlot_hands (slot : Nat) (s : Service) :
    Hands books s.fds (releaseSlot slot s) Service.recorded fun _ => True := by
  apply (closeServiceFds_hands s).bind
  intro s₁ h₁
  apply (writeStatusFile_noFds _).skip
  intro _ _
  apply (emit_noFds rfl rfl).skip
  intro _ _
  exact .pure rfl trivial

/-- A missing record keeps its descriptors or gives all of them up. -/
theorem releaseMissing_hands (slot : Nat) (s : Service) (hact : s.active = true) :
    Hands books s.fds (releaseMissing slot s) Service.recorded fun _ => True := by
  have hlogger : KeepsFds books s (signalLogger s) := (signalLogger_leavesFds s).keeps
  apply Transfers.iteBind (b := Service.fds) (Q := fun s₁ => s₁.active = s.active)
  · exact fun _ => hlogger
  · exact fun _ => .pure rfl rfl
  intro s₁ h₁
  apply Transfers.ite
  · exact fun _ => releaseSlot_hands slot s₁
  · intro _
    refine .pure ?_ trivial
    rw [Service.recorded, if_pos (h₁.trans hact)]

/-- Nothing is released while one of the two processes is there. -/
theorem releaseMissing_leavesFds (slot : Nat) (s : Service) (h : ¬(s.pid ≤ 0 ∧ s.logPid ≤ 0)) :
    LeavesFds books s (releaseMissing slot s) := by
  have hlogger : Hands books 0 (signalLogger s) (fun _ => 0)
      fun s₁ => SameFds s s₁ ∧ s₁.pid = s.pid ∧ s₁.logPid = s.logPid :=
    (emit_noFds rfl rfl).skip fun _ _ => .pure rfl ⟨⟨⟨rfl, rfl, rfl⟩, rfl⟩, rfl, rfl⟩
  apply Transfers.iteBind (fun _ => hlogger) fun _ => .pure rfl ⟨.refl s, rfl, rfl⟩
  intro s₁ h₁
  dsimp only
  rw [h₁.2.1, h₁.2.2, if_neg (by simpa using h)]
  exact h₁.1.leaves

/-- The end of `main`: the descriptors of a record are closed, whoever is still alive. -/
theorem cleanupService_hands (s : Service) : KeepsFds books s (cleanupService s) := by
  apply (closeServiceFds_hands s).bind
  intro s₁ h₁
  apply (writeStatusFile_noFds _).skip
  intro _ _
  exact .pure h₁.2.symm h₁.1

end

end SvcRs
