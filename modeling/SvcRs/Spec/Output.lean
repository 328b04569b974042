import Mathlib.Algebra.Order.BigOperators.Group.Finset
import SvcRs.Spec.Draining
import SvcRs.Spec.Pipes

/-!
# Output between pipe and log

What the processes of a service write either is in its log or can still be read from an
open pipe, in a run in which no pipe is closed with something in it. A start closes the pipes
of the previous run, and the release of a missing service closes its pipes, both without
reading what is left.

## Key results

- `exec_conserves`: an operation loses nothing, unless it closes a pipe that is not empty
- `output_conserved`: whole runs
- `readEnd_closed_at_end`: a read end is closed after the end of the file or an error, unless a
  start or a removal finds it open
- `output_dropped`: the last line of a service that was removed
-/

namespace SvcRs

open Transition (run Along since)

/-! ## The supervisor and its pipes -/

/-- The processes of slot `i` write to a pipe of the supervisor. -/
def World.Piped (w : World) (i : Nat) (err : Bool) : Prop :=
  (w.svc i).active = true ∧ (w.svc i).hasLog = false ∧ 0 ≤ ((w.svc i).stream err).readFd

instance (w : World) (i : Nat) (err : Bool) : Decidable (w.Piped i err) :=
  inferInstanceAs (Decidable (_ ∧ _))

/-- What can still be read from the stream. -/
def World.left (w : World) (q : Int → Bytes) (i : Nat) (err : Bool) : Bytes :=
  if w.Piped i err then q ((w.svc i).stream err).readFd else []

/-- The supervisor, the contents of the pipes by read end, and for every stream what was
    written to it and what was appended to its log. -/
structure Plumbing where
  world : World
  queue : Int → Bytes := fun _ => []
  written : Nat → Bool → Bytes := fun _ _ => []
  logged : Nat → Bool → Bytes := fun _ _ => []

/-- What can still be read from the stream now. -/
def Plumbing.left (p : Plumbing) (i : Nat) (err : Bool) : Bytes := p.world.left p.queue i err

/-- A write of a process of slot `i`, or an operation of the supervisor. -/
inductive Act where
  | write (i : Nat) (err : Bool) (data : Bytes)
  | op (op : Op)

/-- The queues after what the operation reads. -/
def Op.readQueue (w : World) (q : Int → Bytes) : Op → Int → Bytes
  | .output i err reads =>
    let fd := ((w.svc i).stream err).readFd
    if w.Piped i err then Function.update q fd ((drainQueue reads (q fd)).getD (q fd)) else q
  | _ => q

/-- What the operation, with the events `evs`, appends to the log of a stream. -/
def Op.appends (w : World) (evs : List Event) : Op → Nat → Bool → Bytes
  | .output i err _, j, e => if w.Piped i err ∧ j = i ∧ e = err then wroteBytes evs else []
  | _, _, _ => []

/-- The state after a write or an operation. -/
def act : Act → Plumbing → Plumbing
  | .write i err data, p =>
    let fd := ((p.world.svc i).stream err).readFd
    -- what is written to a stream without a read end reaches nobody
    if p.world.Piped i err then
      { p with
        queue := Function.update p.queue fd (p.queue fd ++ data)
        written := fun j e => p.written j e ++ if j = i ∧ e = err then data else [] }
    else p
  | .op op, p =>
    let w := exec op p.world
    let evs := since p.world.k.trace w.k.trace
    -- the operation reads first, and what it closes has no queue any more
    { world := w
      queue := queueAfter (op.readQueue p.world p.queue) evs
      written := p.written
      logged := fun i err => p.logged i err ++ op.appends p.world evs i err }

/-! ## Conditions on a run -/

/-- The reads are those of a pipe with these contents, and opening and writing the log
    works. -/
def Plumbing.Works (p : Plumbing) : Act → Prop
  | .op (.output i err reads) => p.world.Piped i err →
    (drainQueue reads (p.left i err)).isSome ∧ LogsWork err reads (p.world.svc i) p.world.k
  | _ => True

/-- An operation that closes the pipes of the record, whatever is in them. -/
def Op.Closes (w : World) (op : Op) (i : Nat) : Prop :=
  op.Handles w i ∧ ∀ j err reads, op ≠ .output j err reads

/-- Nothing is left in the pipes that a start or a removal closes. -/
def Plumbing.Drained (p : Plumbing) : Act → Prop
  | .op op => ∀ i, op.Closes p.world i → ∀ err, p.left i err = []
  | .write .. => True

/-! ## Read ends -/

/-- If something is left, there is a pipe with it. -/
theorem World.left_ne_nil {w : World} {q : Int → Bytes} {i : Nat} {err : Bool}
    (h : w.left q i err ≠ []) : w.Piped i err ∧ w.left q i err = q ((w.svc i).stream err).readFd := by
  unfold World.left at h ⊢
  split at h
  · next hpiped => exact ⟨hpiped, if_pos hpiped⟩
  · exact absurd rfl h

/-- An open read end is a descriptor of the stream. -/
theorem Stream.mem_fds {st : Stream} (h : 0 ≤ st.readFd) : st.readFd ∈ st.fds := by
  rw [Stream.fds, ownFd_open h]
  exact Multiset.mem_add.mpr (.inl (Multiset.mem_singleton_self _))

section

variable {books : Books} {w w' : World} {q : Int → Bytes}

/-- The read end of a pipe is recorded. -/
theorem World.Piped.mem_recorded {i : Nat} {err : Bool} (h : w.Piped i err) :
    ((w.svc i).stream err).readFd ∈ (w.svc i).recorded := by
  rw [Service.recorded, if_pos h.1, Service.fds_stream _ err]
  exact Multiset.mem_add.mpr (.inl (Stream.mem_fds h.2.2))

/-- The read end of another service is among the descriptors of the others. -/
theorem World.Accounted.mem_others (hw : w.Accounted books) {i j : Nat} {err : Bool}
    (h : w.Piped j err) (hji : j ≠ i) : ((w.svc j).stream err).readFd ∈ w.others i := by
  apply Multiset.mem_sum.mpr
  exact ⟨j, Finset.mem_erase.mpr ⟨hji, Finset.mem_range.mpr (hw.inTable j h.1)⟩, h.mem_recorded⟩

/-- No descriptor is recorded twice. -/
theorem World.Accounted.recorded_nodup (hw : w.Accounted books) : w.recorded.Nodup := by
  rw [← hw.held]
  have hall : (w.k.held + (books.base : Multiset Int)).Nodup := by
    rw [← hw.kernel.fds]
    exact Multiset.coe_nodup.mpr hw.kernel.nodup
  exact Multiset.nodup_of_le (Multiset.le_add_right _ _) hall

/-- A read end belongs to one stream. -/
theorem World.Accounted.readFd_inj (hw : w.Accounted books) {i j : Nat} {err e : Bool}
    (hi : w.Piped i err) (hj : w.Piped j e)
    (h : ((w.svc i).stream err).readFd = ((w.svc j).stream e).readFd) : i = j ∧ err = e := by
  -- no descriptor is recorded twice, neither within a record nor in two of them
  have hnodup := hw.recorded_nodup
  rw [(w.recorded_setSvc (hw.inTable i hi.1) (w.svc i)).1, Multiset.nodup_add] at hnodup
  obtain ⟨hself, -, hdisjoint⟩ := hnodup
  by_cases hij : i = j
  · subst hij
    refine ⟨rfl, ?_⟩
    by_contra hne
    -- the same slot: then the streams differ, but not their read ends
    have he : e = !err := by
      cases err <;> cases e <;> first | rfl | exact absurd rfl hne
    subst he
    rw [Service.recorded, if_pos hi.1, Service.fds_stream _ err, ownFd_open hi.2.2, add_assoc,
      Multiset.singleton_add, Multiset.nodup_cons] at hself
    apply hself.1
    rw [h]
    exact Multiset.mem_add.mpr (.inr (Stream.mem_fds hj.2.2))
  -- two slots: the read end would be recorded in both
  · have hmem : ((w.svc i).stream err).readFd ∈ w.others i := by
      rw [h]
      exact hw.mem_others hj (Ne.symm hij)
    exact absurd hmem (Multiset.disjoint_left.mp hdisjoint hi.mem_recorded)

/-- Only the pipes of services have something in them. -/
def Owned (w : World) (q : Int → Bytes) : Prop :=
  ∀ fd, q fd ≠ [] → ∃ i err, w.Piped i err ∧ ((w.svc i).stream err).readFd = fd

/-- What is left stays in the streams whose read ends are spared. -/
theorem left_kept {evs : List Event} (howned : Owned w q) (hw' : w'.Accounted books)
    (hevs : ∀ e ∈ evs, ∀ fd ∈ books.spared, fd ∉ e.opens ∧ fd ∉ e.closes)
    (hkept : ∀ i err, w.left q i err ≠ [] → w'.Piped i err ∧
      ((w'.svc i).stream err).readFd = ((w.svc i).stream err).readFd ∧
      ((w.svc i).stream err).readFd ∈ books.spared) :
    (∀ i err, w'.left (queueAfter q evs) i err = w.left q i err) ∧
      Owned w' (queueAfter q evs) := by
  have hspared : ∀ fd ∈ books.spared, queueAfter q evs fd = q fd :=
    fun fd hfd => queueAfter_spared (fun e he => hevs e he fd hfd) q
  -- what is not empty now was not empty before, and its stream has kept it
  have hback : ∀ fd, queueAfter q evs fd ≠ [] →
      ∃ i err, w'.Piped i err ∧ ((w'.svc i).stream err).readFd = fd ∧ w.left q i err ≠ [] := by
    intro fd hfd
    have hq : q fd ≠ [] := ((queueAfter_cases q evs fd).resolve_left hfd) ▸ hfd
    obtain ⟨i, err, hpiped, hread⟩ := howned fd hq
    have hleft : w.left q i err ≠ [] := by
      rw [World.left, if_pos hpiped, hread]
      exact hq
    obtain ⟨hpiped', hread', -⟩ := hkept i err hleft
    exact ⟨i, err, hpiped', hread'.trans hread, hleft⟩
  refine ⟨fun i err => ?_, fun fd hfd => ?_⟩
  · by_cases hleft : w.left q i err = []
    · rw [hleft]
      by_contra hnew
      obtain ⟨hpiped, heq⟩ := World.left_ne_nil hnew
      obtain ⟨j, e, hpiped', hread, hleft'⟩ := hback _ (heq ▸ hnew)
      obtain ⟨rfl, rfl⟩ := hw'.readFd_inj hpiped' hpiped hread
      exact hleft' hleft
    · obtain ⟨hpiped', hread, hmem⟩ := hkept i err hleft
      rw [World.left, if_pos hpiped', hread, hspared _ hmem, (World.left_ne_nil hleft).2]
  · obtain ⟨i, err, hpiped, hread, -⟩ := hback fd hfd
    exact ⟨i, err, hpiped, hread⟩

end

/-! ## Conservation -/

/-- Nothing that was written is lost. -/
structure Plumbing.Conserves (base : List Int) (p : Plumbing) : Prop where
  accounted : p.world.Accounted { base }
  owned : Owned p.world p.queue
  conserved : ∀ i err, p.written i err = p.logged i err ++ p.left i err

/-- The books for one operation. -/
def World.booksOf (w : World) (base : List Int) (spared : Multiset Int) : Books :=
  { base, spared, start := w.k.trace }

/-- The accounts, kept so that some recorded descriptors are to be left alone. -/
theorem World.Accounted.sparing {base : List Int} {w : World} (hw : w.Accounted { base })
    {spared : Multiset Int} (h : spared ≤ w.recorded) :
    w.Accounted (w.booksOf base spared) where
  kernel :=
    { fds := hw.kernel.fds
      nodup := hw.kernel.nodup
      solvent := hw.kernel.solvent
      kept := hw.held.symm ▸ h
      events := ⟨[], rfl, fun _ he => absurd he List.not_mem_nil⟩ }
  held := hw.held
  inTable := hw.inTable

/-- Nothing needs to be left alone any more. -/
theorem World.Accounted.settle {books : Books} {w : World} (hw : w.Accounted books) :
    w.Accounted { base := books.base } where
  kernel :=
    { fds := hw.kernel.fds
      nodup := hw.kernel.nodup
      solvent := hw.kernel.solvent
      kept := Multiset.zero_le _
      events := ⟨w.k.trace, (List.append_nil _).symm, fun _ _ fd hfd =>
        absurd hfd (Multiset.notMem_zero fd)⟩ }
  held := hw.held
  inTable := hw.inTable

section

variable {base : List Int} {p : Plumbing}

/-- What a process writes goes into its pipe. -/
theorem write_conserves (h : p.Conserves base) (i : Nat) (err : Bool) (data : Bytes) :
    (act (.write i err data) p).Conserves base := by
  unfold act
  dsimp only
  split
  -- what nobody reads is not queued, so only a piped stream changes
  · next hpiped =>
    refine ⟨h.accounted, ?_, ?_⟩
    · intro fd hfd
      dsimp only at hfd
      by_cases heq : fd = ((p.world.svc i).stream err).readFd
      · exact ⟨i, err, hpiped, heq.symm⟩
      · rw [Function.update_of_ne heq] at hfd
        exact h.owned fd hfd
    · intro j e
      have hold := h.conserved j e
      unfold Plumbing.left World.left at hold ⊢
      dsimp only
      -- the data is added to both sides of the law for this stream
      by_cases hje : j = i ∧ e = err
      · obtain ⟨rfl, rfl⟩ := hje
        rw [if_pos hpiped] at hold ⊢
        rw [if_pos ⟨rfl, rfl⟩, Function.update_self, hold, List.append_assoc]
      · rw [if_neg hje, List.append_nil, hold]
        -- another stream has another read end, whose queue stays as it was
        split
        · next hpiped' =>
          have hother : ((p.world.svc j).stream e).readFd ≠ ((p.world.svc i).stream err).readFd :=
            fun heq => hje (h.accounted.readFd_inj hpiped' hpiped heq)
          rw [Function.update_of_ne hother]
        · rfl
  · exact h

/-- Reading puts nothing into a pipe. -/
theorem owned_readQueue (h : p.Conserves base) (op : Op) :
    Owned p.world (op.readQueue p.world p.queue) := by
  intro fd hfd
  -- a drain takes bytes from the queue of its own read end
  cases op with
  | output i err reads =>
    unfold Op.readQueue at hfd
    dsimp only at hfd
    split at hfd
    · next hpiped =>
      by_cases heq : fd = ((p.world.svc i).stream err).readFd
      · exact ⟨i, err, hpiped, heq.symm⟩
      · rw [Function.update_of_ne heq] at hfd
        exact h.owned fd hfd
    · exact h.owned fd hfd
  | _ => exact h.owned fd hfd

/-- An operation conserves what is written if it spares the read ends of the pipes in which
    it leaves something. -/
theorem Plumbing.Conserves.op (h : p.Conserves base) (op : Op) {spared : Multiset Int}
    (hw' : (exec op p.world).Accounted (p.world.booksOf base spared))
    (hkept : ∀ i err, p.world.left (op.readQueue p.world p.queue) i err ≠ [] →
      (exec op p.world).Piped i err ∧
      (((exec op p.world).svc i).stream err).readFd = ((p.world.svc i).stream err).readFd ∧
      ((p.world.svc i).stream err).readFd ∈ spared)
    (hread : ∀ evs, (exec op p.world).k.trace = evs ++ p.world.k.trace → ∀ i err,
      p.left i err = op.appends p.world evs i err ++
        p.world.left (op.readQueue p.world p.queue) i err) :
    (act (.op op) p).Conserves base := by
  -- what the operation closes is none of the spared descriptors
  obtain ⟨evs, hevs, hspared⟩ := hw'.kernel.events
  have hsince : since p.world.k.trace (exec op p.world).k.trace = evs := by
    rw [hevs]
    exact Transition.since_append evs _
  obtain ⟨hleft, howned⟩ := left_kept (owned_readQueue h op) hw' hspared hkept
  refine ⟨hw'.settle, ?_, ?_⟩
  · show Owned (exec op p.world) (queueAfter _ (since _ _))
    rw [hsince]
    exact howned
  -- what was written is what was logged, what is logged now, and what is still queued
  · intro i err
    show p.written i err = (p.logged i err ++ op.appends p.world (since _ _) i err) ++
      (exec op p.world).left (queueAfter _ (since _ _)) i err
    rw [hsince, hleft, h.conserved, hread evs hevs, List.append_assoc]

/-- An operation that handles no record with something left in its pipes. -/
theorem Plumbing.Conserves.unhandled (h : p.Conserves base) (op : Op)
    (hidle : ∀ i, op.Handles p.world i → ∀ err, p.left i err = [])
    (hsame : op.readQueue p.world p.queue = p.queue)
    (hnone : ∀ evs i err, op.appends p.world evs i err = []) :
    (act (.op op) p).Conserves base := by
  classical
  -- everything is spared but the slots that the operation handles
  let spared : Multiset Int := ∑ j ∈ (Finset.range p.world.size).filter fun j =>
    ¬op.Handles p.world j, (p.world.svc j).recorded
  have hall : spared ≤ p.world.recorded :=
    Finset.sum_le_sum_of_subset (Finset.filter_subset _ _)
  have hothers : ∀ j, op.Handles p.world j → spared ≤ p.world.others j := by
    intro j hj
    apply Finset.sum_le_sum_of_subset
    intro x hx
    obtain ⟨hx, hnot⟩ := Finset.mem_filter.mp hx
    exact Finset.mem_erase.mpr ⟨fun he => hnot (he ▸ hj), hx⟩
  obtain ⟨hw', hrest⟩ := exec_keepsRest op (h.accounted.sparing hall) hothers
  apply h.op op hw'
  -- a stream with bytes left belongs to a slot that is not handled
  · intro i err hleft
    rw [hsame] at hleft
    have hpiped := (World.left_ne_nil hleft).1
    have hnot : ¬op.Handles p.world i := fun hi => hleft (hidle i hi err)
    have hfds := hrest i hnot hpiped.1
    have hread : (((exec op p.world).svc i).stream err).readFd =
        ((p.world.svc i).stream err).readFd := by
      cases err with
      | false => exact congrArg Stream.readFd hfds.out
      | true => exact congrArg Stream.readFd hfds.err
    refine ⟨⟨hfds.active.trans hpiped.1, hfds.hasLog.trans hpiped.2.1, hread ▸ hpiped.2.2⟩, hread,
      Multiset.mem_sum.mpr ⟨i, ?_, hpiped.mem_recorded⟩⟩
    exact Finset.mem_filter.mpr
      ⟨Finset.mem_range.mpr (h.accounted.inTable i hpiped.1), hnot⟩
  · intro evs _ i err
    -- nothing is read from any queue
    rw [hnone, hsame]
    rfl

/-! ### Reading a pipe -/

variable {i : Nat} {err : Bool} {reads : List ReadResult}

/-- What the reads leave in the pipe. -/
theorem left_readQueue {w : World} {q : Int → Bytes} (hpiped : w.Piped i err) :
    w.left ((Op.output i err reads).readQueue w q) i err =
      (drainQueue reads (w.left q i err)).getD (w.left q i err) := by
  have hq : w.left q i err = q ((w.svc i).stream err).readFd := if_pos hpiped
  rw [hq, World.left, if_pos hpiped]
  unfold Op.readQueue
  dsimp only
  rw [if_pos hpiped, Function.update_self]

/-- What an operation reads from a pipe, it appends to the log. -/
theorem output_appends (h : p.Conserves base) (hworks : p.Works (.op (.output i err reads)))
    {evs : List Event}
    (hevs : (exec (.output i err reads) p.world).k.trace = evs ++ p.world.k.trace) (j : Nat)
    (e : Bool) :
    p.left j e = (Op.output i err reads).appends p.world evs j e ++
      p.world.left ((Op.output i err reads).readQueue p.world p.queue) j e := by
  unfold Op.appends
  dsimp only
  by_cases hpiped : p.world.Piped i err
  · by_cases hje : j = i ∧ e = err
    · obtain ⟨rfl, rfl⟩ := hje
      -- what is read is written, and the rest stays
      obtain ⟨hreads, hlog⟩ := hworks hpiped
      obtain ⟨left, hq⟩ := Option.isSome_iff_exists.mp hreads
      obtain ⟨data, hdata, hwrote⟩ := drainStream_writes hpiped.2.1 hpiped.2.2 hq hlog
      have hdrain : exec (.output j e reads) p.world =
          (onSlot j (drainStream e reads) p.world).2 :=
        congrArg Prod.snd (drainOutput_active hpiped.1 e reads)
      have hbytes : wroteBytes evs = data := by
        rw [hdrain] at hevs
        have hall : wroteBytes (evs ++ p.world.k.trace) = wroteBytes p.world.k.trace ++ data :=
          hevs ▸ hwrote
        rw [wroteBytes_append] at hall
        exact List.append_cancel_left hall
      have hleft : p.world.left _ j e = left :=
        (left_readQueue hpiped).trans (congrArg (Option.getD · _) hq)
      rw [if_pos ⟨hpiped, rfl, rfl⟩, hbytes, hleft, hdata]
    · rw [if_neg fun hall => hje hall.2, List.nil_append]
      -- other streams have other read ends
      unfold Plumbing.left World.left Op.readQueue
      dsimp only
      rw [if_pos hpiped]
      split
      · next hpiped' =>
        have hother : ((p.world.svc j).stream e).readFd ≠ ((p.world.svc i).stream err).readFd :=
          fun heq => hje (h.accounted.readFd_inj hpiped' hpiped heq)
        rw [Function.update_of_ne hother]
      · rfl
  · unfold Op.readQueue
    dsimp only
    rw [if_neg hpiped, if_neg fun hall => hpiped hall.1]
    rfl

/-- The stream that is read may lose its read end, all the others stay as they are. -/
theorem drain_piped {w : World} (honly : StreamOnly err (w.svc i)
      (drainStream err reads (w.svc i) w.k).1) {j : Nat} {e : Bool} (hpiped : w.Piped j e)
    (hne : ¬(j = i ∧ e = err)) :
    (onSlot i (drainStream err reads) w).2.Piped j e ∧
      (((onSlot i (drainStream err reads) w).2.svc j).stream e).readFd =
        ((w.svc j).stream e).readFd := by
  obtain ⟨st, -, hs⟩ := honly
  unfold World.Piped
  rw [onSlot_svc]
  -- another slot is not written, and of this one only the other stream is asked about
  split
  · next hji =>
    subst hji
    have he : e = !err := by
      cases e <;> cases err <;> first | rfl | exact absurd ⟨rfl, rfl⟩ hne
    have hlog : ((w.svc j).setStream err st).hasLog = (w.svc j).hasLog := by
      cases err <;> rfl
    subst he
    rw [hs, Service.active_setStream, hlog, Service.stream_setStream_not]
    exact ⟨hpiped, rfl⟩
  · exact ⟨hpiped, rfl⟩

/-- While the read end is kept, the stream stays what it was. -/
theorem drain_pipedSelf {w : World} (honly : LogOnly err (w.svc i)
      (drainStream err reads (w.svc i) w.k).1) (hpiped : w.Piped i err) :
    (onSlot i (drainStream err reads) w).2.Piped i err ∧
      (((onSlot i (drainStream err reads) w).2.svc i).stream err).readFd =
        ((w.svc i).stream err).readFd := by
  have hactive : (drainStream err reads (w.svc i) w.k).1.active = (w.svc i).active := by
    obtain ⟨st, -, hs⟩ := honly
    rw [hs, Service.active_setStream]
  unfold World.Piped
  rw [onSlot_svc, if_pos rfl, hactive, honly.hasLog, honly.readFd]
  exact ⟨hpiped, rfl⟩

/-- The reading of a pipe takes over the part `a` of the record and leaves the part `r` alone. -/
theorem output_spares (h : p.Conserves base) (hact : (p.world.svc i).active = true)
    (hworks : p.Works (.op (.output i err reads))) {a r : Multiset Int}
    {b : Service → Multiset Int} {Q : Service → Prop} (hrec : (p.world.svc i).fds = a + r)
    (hother : ((p.world.svc i).stream !err).fds ≤ r)
    (hhands : ∀ books, Hands books a (drainStream err reads (p.world.svc i)) b Q)
    (hb : ∀ s, Q s → s.fds = b s + r) (honly : ∀ s, Q s → StreamOnly err (p.world.svc i) s)
    (hself : p.world.left ((Op.output i err reads).readQueue p.world p.queue) i err ≠ [] →
      ((p.world.svc i).stream err).readFd ∈ r ∧ ∀ s, Q s → LogOnly err (p.world.svc i) s) :
    (act (.op (.output i err reads)) p).Conserves base := by
  have hi := h.accounted.inTable i hact
  have hrec : (p.world.svc i).recorded = a + r := (if_pos hact).trans hrec
  have hall : r + p.world.others i ≤ p.world.recorded := by
    rw [(p.world.recorded_setSvc hi (p.world.svc i)).1, hrec, add_assoc]
    exact Multiset.le_add_left _ _
  have hdrain : exec (.output i err reads) p.world =
      (onSlot i (drainStream err reads) p.world).2 :=
    congrArg Prod.snd (drainOutput_active hact err reads)
  have hafter : ∀ s, Q s → s.recorded = b s + r := by
    intro s hs
    have hactive : s.active = true := by
      obtain ⟨st, -, rfl⟩ := honly s hs
      exact (Service.active_setStream _ err st).trans hact
    exact (if_pos hactive).trans (hb s hs)
  obtain ⟨hw', hQ⟩ := (h.accounted.sparing hall).part hi hrec (le_refl _) (hhands _) hafter
  rw [← hdrain] at hw'
  apply h.op _ hw'
  -- the stream itself, the other stream of the record, and the other records
  · intro j e hne
    obtain ⟨hpiped, -⟩ := World.left_ne_nil hne
    rw [hdrain]
    by_cases hje : j = i ∧ e = err
    · obtain ⟨rfl, rfl⟩ := hje
      obtain ⟨hmem, hlog⟩ := hself hne
      obtain ⟨hpiped', hread⟩ := drain_pipedSelf (hlog _ hQ) hpiped
      exact ⟨hpiped', hread, Multiset.mem_add.mpr (.inl hmem)⟩
    · obtain ⟨hpiped', hread⟩ := drain_piped (honly _ hQ) hpiped hje
      refine ⟨hpiped', hread, ?_⟩
      by_cases hji : j = i
      · subst hji
        have he : e = !err := by
          cases e <;> cases err <;> first | rfl | exact absurd ⟨rfl, rfl⟩ hje
        subst he
        exact Multiset.mem_add.mpr (.inl (Multiset.mem_of_le hother (Stream.mem_fds hpiped.2.2)))
      · exact Multiset.mem_add.mpr (.inr (h.accounted.mem_others hpiped hji))
  · exact fun evs hevs => output_appends h hworks hevs

/-- Reading a pipe moves bytes to the log. The read end may be closed only if the pipe is empty. -/
theorem output_conserves (h : p.Conserves base) (hworks : p.Works (.op (.output i err reads))) :
    (act (.op (.output i err reads)) p).Conserves base := by
  let s := p.world.svc i
  by_cases hact : s.active = true
  · by_cases hleft :
        p.world.left ((Op.output i err reads).readQueue p.world p.queue) i err = []
    · -- the read end may be closed
      apply output_spares h hact hworks (s.fds_stream err) (le_refl _)
        (fun books => drainStream_handsStream err reads s)
      · intro s' hs'
        obtain ⟨st, -, rfl⟩ := hs'
        rw [Service.fds_setStream, Service.stream_setStream]
        rfl
      · exact fun _ => id
      · exact fun hne => absurd hleft hne
    -- something is left in the pipe, so the read end is spared as well
    · have hpiped := (World.left_ne_nil hleft).1
      obtain ⟨left, hq⟩ := Option.isSome_iff_exists.mp (hworks hpiped).1
      have hne : left ≠ [] := by
        intro hnil
        apply hleft
        rw [left_readQueue hpiped]
        show (drainQueue reads (p.left i err)).getD _ = []
        rw [hq, hnil]
        rfl
      have hfds : s.fds = ownFd (s.stream err).logFd +
          (ownFd (s.stream err).readFd + (s.stream !err).fds) := by
        rw [s.fds_stream err]
        abel
      apply output_spares h hact hworks hfds (Multiset.le_add_left _ _)
        (fun books => drainStream_handsLog hq hne)
      · intro s' hs'
        obtain ⟨st, hread, rfl⟩ := hs'
        rw [Service.fds_setStream, Service.stream_setStream, hread]
        abel
      · exact fun _ => LogOnly.streamOnly
      · intro _
        rw [ownFd_open hpiped.2.2]
        exact ⟨Multiset.mem_add.mpr (.inl (Multiset.mem_singleton_self _)), fun _ => id⟩
  -- a slot that is not in use
  · have hidle : ¬p.world.Piped i err := fun hpiped => hact hpiped.1
    apply h.unhandled
    · exact fun j hj => absurd hj.2 (hj.1 ▸ hact)
    · exact if_neg hidle
    · exact fun _ _ _ => if_neg fun hall => hidle hall.1

/-! ## Whole runs -/

/-- The step lemma. -/
theorem act_conserves {a : Act} (h : p.Conserves base) (hworks : p.Works a) (hdrained : p.Drained a) :
    (act a p).Conserves base := by
  cases a with
  | write i err data => exact write_conserves h i err data
  | op op =>
    cases op with
    | output i err reads => exact output_conserves h hworks
    | _ =>
      apply h.unhandled _ _ rfl fun _ _ _ => rfl
      exact fun i hi => hdrained i ⟨hi, nofun⟩

end

/-- Before the first pass of the main loop. -/
def plumbed (m : MainState) : Plumbing := { world := m.world }

/-- At the beginning nothing has been written. -/
theorem boot_conserves (root : CStrBuf) (oracle : Nat → Answer) {fds : List Int} (h : fds.Nodup) :
    (plumbed (boot root oracle fds)).Conserves fds where
  accounted := boot_accounted root oracle h
  owned := fun _ hne => absurd rfl hne
  conserved := by
    intro i err
    have hinactive : ¬(boot root oracle fds).world.Piped i err :=
      fun hpiped => absurd hpiped.1 Bool.false_ne_true
    have hnone : (boot root oracle fds).world.left (fun _ => []) i err = [] := if_neg hinactive
    show [] = [] ++ (boot root oracle fds).world.left (fun _ => []) i err
    rw [hnone]
    rfl

/-- In every run in which the reads are those of the pipes, opening and writing the logs
    works, and no start and no removal closes a pipe with something in it: what the
    processes of a service without a logger have written to a stream is what was appended to
    its log and, behind that, what is still in its open pipe. -/
theorem output_conserved (root : CStrBuf) (oracle : Nat → Answer) {fds : List Int}
    (hfds : fds.Nodup) {acts : List Act}
    (h : Along act (fun p a => p.Works a ∧ p.Drained a) acts (plumbed (boot root oracle fds)))
    (i : Nat) (err : Bool) :
    let p := run act acts (plumbed (boot root oracle fds))
    p.written i err = p.logged i err ++ p.left i err := by
  have hstep : ∀ (p : Plumbing) a, p.Conserves fds → p.Works a ∧ p.Drained a →
      (act a p).Conserves fds := fun p a hp ha => act_conserves hp ha.1 ha.2
  exact (Transition.run_invariant hstep (boot_conserves root oracle hfds) h).conserved i err

/-- A start, a line that is read, and a character that is not read yet. -/
def helloActs : List Act :=
  [.op (.scanEntry (bytesOf "a")), .op (.start 0 0), .write 0 false (bytesOf "hi"),
    .op (.output 0 false [.data (bytesOf "hi")]), .write 0 false (bytesOf "!")]

/-- As long as nothing has been written, no pipe has anything in it. -/
theorem drained_of_empty {p : Plumbing} (h : p.queue = fun _ => []) (a : Act) : p.Drained a := by
  cases a with
  | write i err data => trivial
  | op op =>
    intro i _ err
    unfold Plumbing.left World.left
    rw [h]
    exact ite_self []

/-- The run of the example fulfils the conditions, because its start finds no pipe. -/
theorem hello_drained {p : Plumbing} (h : p.queue = fun _ => [])
    (hscanned : (act (.op (.scanEntry (bytesOf "a"))) p).queue = fun _ => [])
    (hreads : (run act (helloActs.take 3) p).Works
      (.op (.output 0 false [.data (bytesOf "hi")]))) :
    Along act (fun p a => p.Works a ∧ p.Drained a) helloActs p :=
  have hread : ∀ p : Plumbing, p.Drained (.op (.output 0 false [.data (bytesOf "hi")])) :=
    fun _ _ hi => absurd rfl (hi.2 0 false [.data (bytesOf "hi")])
  ⟨⟨trivial, drained_of_empty h _⟩, ⟨trivial, drained_of_empty hscanned _⟩, ⟨trivial, trivial⟩,
    ⟨hreads, hread _⟩, ⟨trivial, trivial⟩, trivial⟩

/-- A line that is in the log, and a character behind it that is in the pipe. -/
theorem output_conserved_hello :
    let p := run act helloActs (plumbed (openingOn plainFiles))
    p.written 0 false = p.logged 0 false ++ p.left 0 false ∧
      p.written 0 false = bytesOf "hi!" ∧ p.left 0 false = bytesOf "!" := by
  -- before the start nothing is queued
  have hscanned : (act (.op (.scanEntry (bytesOf "a"))) (plumbed (openingOn plainFiles))).queue =
      fun _ => [] := by
    funext fd
    exact (queueAfter_cases (fun _ => []) _ fd).elim id id
  have hreads : (run act (helloActs.take 3) (plumbed (openingOn plainFiles))).Works
      (.op (.output 0 false [.data (bytesOf "hi")])) :=
    fun _ => ⟨by decide +kernel, by decide +kernel, .inl (by decide)⟩
  have hrun := hello_drained rfl hscanned hreads
  have hfds : ([0, 1, 2] : List Int).Nodup := by decide
  refine ⟨?_, by decide +kernel, by decide +kernel⟩
  rw [openingOn] at hrun ⊢
  exact output_conserved (CStrBuf.fromBytes (bytesOf "/s")) (opening plainFiles) hfds hrun 0 false

/-- `poll` has timed out for a rescan. Then `a`, process 117, writes its last line and exits,
    and its directory is gone. -/
def lastWords : List Act :=
  [.op (.scanEntry (bytesOf "a")), .op (.start 0 0), .op (.wait 15 []),
    .write 0 false (bytesOf "bye"), .op (.reapChild 117 0), .op (.unmark 0), .op (.missing 0)]

/-- The line is neither in the log nor in a pipe. -/
theorem output_dropped :
    let p := run act lastWords (plumbed (openingOn plainFiles))
    Along act Plumbing.Works lastWords (plumbed (openingOn plainFiles)) ∧
      p.written 0 false = bytesOf "bye" ∧ p.logged 0 false ++ p.left 0 false = [] :=
  ⟨⟨trivial, trivial, trivial, trivial, trivial, trivial, trivial, trivial⟩, by decide +kernel,
    by decide +kernel⟩

/-! ## Closing a read end -/

section

variable {base : List Int} {w : World} {i : Nat} {err : Bool}

/-- The starts and the removals find no read end in the records that they close. -/
def World.NoEnds (w : World) (op : Op) : Prop :=
  ∀ i, op.Closes w i → ∀ err, ((w.svc i).stream err).readFd < 0

/-- Where no read end is found, none is closed with something in its pipe. -/
theorem drained_of_noEnds {p : Plumbing} {op : Op} (h : p.world.NoEnds op) : p.Drained (.op op) := by
  intro i hi err
  have hnone : ¬p.world.Piped i err := fun hpiped => by
    have hfd := h i hi err
    have hopen := hpiped.2.2
    omega
  exact if_neg hnone

/-- What the books spare is not closed. -/
theorem World.Accounted.notClosed {w' : World} {spared : Multiset Int} {fd : Int}
    (h : w'.Accounted (w.booksOf base spared)) (hfd : fd ∈ spared) : NotClosed fd w.k w'.k := by
  obtain ⟨evs, hevs, hspared⟩ := h.kernel.events
  refine ⟨evs, hevs, fun e he heq => ?_⟩
  apply (hspared e he fd hfd).2
  rw [heq]
  exact Multiset.mem_singleton_self fd

/-- Reads that are not the end of the file and no error leave the read end open. -/
theorem drainStream_notClosed {r : Int} {s : Service} {k : Kernel} {reads : List ReadResult}
    (hlog : s.hasLog = false) (hread : (s.stream err).readFd = r) (hr : 0 ≤ r)
    (hapart : Apart err r s k) (hends : (readsUpTo reads).any ReadResult.ends = false) :
    NotClosed r k (drainStream err reads s k).2 := by
  induction reads generalizing s k with
  | nil => exact Std.Refl.refl k
  | cons read reads ih =>
    unfold drainStream
    rw [hread, if_neg (Int.not_lt.mpr hr)]
    cases read with
    | eof | error => exact absurd hends (by simp [readsUpTo, ReadResult.goesOn, ReadResult.ends])
    | eagain => exact Std.Refl.refl k
    | eintr => exact ih hlog hread hapart hends
    | data b =>
      cases b with
      | nil => exact absurd hends (by simp [readsUpTo, ReadResult.goesOn, ReadResult.ends, ioBuf])
      | cons c rest =>
        obtain ⟨hapart', hkept⟩ := writeLog_apart hr hapart ((c :: rest).take ioBuf)
        have honly := writeLog_logOnly err ((c :: rest).take ioBuf) s k
        simp only [hlog, Bool.false_eq_true, if_false]
        rw [Sys.bind_apply]
        split
        · -- a short read is the last one
          exact hkept
        · next hlong =>
          have hgoes : (ReadResult.data (c :: rest)).goesOn = true := by
            simp only [ReadResult.goesOn, decide_eq_true_eq]
            rw [List.length_take] at hlong
            omega
          rw [readsUpTo, if_pos hgoes, List.any_cons, Bool.or_eq_false_iff] at hends
          have hrest := ih (honly.hasLog.trans hlog) (honly.readFd.trans hread) hapart' hends.2
          exact IsTrans.trans _ _ _ hkept hrest

/-- The books that leave one read end alone. -/
theorem World.Accounted.sparingPipe (hw : w.Accounted { base }) (hpiped : w.Piped i err) :
    w.Accounted (w.booksOf base {((w.svc i).stream err).readFd}) := by
  apply hw.sparing
  rw [(w.recorded_setSvc (hw.inTable i hpiped.1) (w.svc i)).1]
  exact Multiset.singleton_le.mpr (Multiset.mem_add.mpr (.inl hpiped.mem_recorded))

/-- An operation that does not handle the record. -/
theorem readEnd_unhandled (hw : w.Accounted { base }) (hpiped : w.Piped i err) {op : Op}
    (hi : ¬op.Handles w i) : NotClosed ((w.svc i).stream err).readFd w.k (exec op w).k := by
  have hothers : ∀ j, op.Handles w j → {((w.svc i).stream err).readFd} ≤ w.others j := by
    intro j hj
    have hij : i ≠ j := fun he => hi (he ▸ hj)
    exact Multiset.singleton_le.mpr (hw.mem_others hpiped hij)
  have hkept := (exec_keepsRest op (hw.sparingPipe hpiped) hothers).1
  exact hkept.notClosed (Multiset.mem_singleton_self _)

/-- Reading the other stream. -/
theorem readEnd_other (hw : w.Accounted { base }) (hpiped : w.Piped i err)
    (reads : List ReadResult) :
    NotClosed ((w.svc i).stream err).readFd w.k (exec (.output i (!err) reads) w).k := by
  have hi := hw.inTable i hpiped.1
  have hdrain : exec (.output i (!err) reads) w = (onSlot i (drainStream (!err) reads) w).2 :=
    congrArg Prod.snd (drainOutput_active hpiped.1 (!err) reads)
  -- the record's descriptors are those of the two streams
  have hrec : (w.svc i).recorded =
      ((w.svc i).stream !err).fds + ((w.svc i).stream err).fds := by
    rw [Service.recorded, if_pos hpiped.1, (w.svc i).fds_stream !err, Bool.not_not]
    rfl
  have hspared : {((w.svc i).stream err).readFd} ≤ ((w.svc i).stream err).fds + w.others i :=
    Multiset.singleton_le.mpr (Multiset.mem_add.mpr (.inl (Stream.mem_fds hpiped.2.2)))
  -- reading the other stream leaves this one's descriptors in the record
  have hafter : ∀ s, StreamOnly (!err) (w.svc i) s →
      s.recorded = (s.stream !err).fds + ((w.svc i).stream err).fds := by
    rintro s ⟨st, -, rfl⟩
    have hactive := (Service.active_setStream (w.svc i) (!err) st).trans hpiped.1
    rw [Service.recorded, if_pos hactive, Service.fds_setStream, Service.stream_setStream,
      Bool.not_not]
    rfl
  have hdone := (hw.sparingPipe hpiped).part hi hrec hspared
    (drainStream_handsStream (!err) reads (w.svc i)) hafter
  rw [hdrain]
  exact hdone.1.notClosed (Multiset.mem_singleton_self _)

/-- Reading the stream itself. -/
theorem readEnd_drained (hw : w.Accounted { base }) (hpiped : w.Piped i err)
    {reads : List ReadResult} (hends : (readsUpTo reads).any ReadResult.ends = false) :
    NotClosed ((w.svc i).stream err).readFd w.k (exec (.output i err reads) w).k := by
  have hdrain : exec (.output i err reads) w = (onSlot i (drainStream err reads) w).2 :=
    congrArg Prod.snd (drainOutput_active hpiped.1 err reads)
  -- a recorded read end is open
  have hmem : ((w.svc i).stream err).readFd ∈ w.k.fds := by
    have hfds := hw.kernel.fds
    rw [hw.held, (w.recorded_setSvc (hw.inTable i hpiped.1) (w.svc i)).1] at hfds
    apply Multiset.mem_coe.mp
    rw [hfds]
    exact Multiset.mem_add.mpr (.inl (Multiset.mem_add.mpr (.inl hpiped.mem_recorded)))
  -- and it is recorded only once, so the log has another number
  have hne : ((w.svc i).stream err).readFd ≠ ((w.svc i).stream err).logFd := by
    intro heq
    have hnodup := hw.recorded_nodup
    rw [(w.recorded_setSvc (hw.inTable i hpiped.1) (w.svc i)).1, Service.recorded, if_pos hpiped.1,
      (w.svc i).fds_stream err, Stream.fds, ← heq, ownFd_open hpiped.2.2, add_assoc, add_assoc,
      Multiset.singleton_add, Multiset.nodup_cons] at hnodup
    exact hnodup.1 (Multiset.mem_add.mpr (.inl (Multiset.mem_singleton_self _)))
  rw [hdrain]
  exact drainStream_notClosed hpiped.2.1 rfl hpiped.2.2 ⟨hmem, hne⟩ hends

end

/-- In every reachable state: an operation that finds no read end where it would close one
    closes the read end of a stream only when it has read the end of the file or an error from
    it. -/
theorem readEnd_closed_at_end (root : CStrBuf) (oracle : Nat → Answer) {fds : List Int}
    (hfds : fds.Nodup) (ops : List Op) {op : Op} {i : Nat} {err : Bool} :
    let w := run exec ops (boot root oracle fds).world
    w.NoEnds op → w.Piped i err →
      ¬NotClosed ((w.svc i).stream err).readFd w.k (exec op w).k →
      ∃ reads, op = .output i err reads ∧ (readsUpTo reads).any ReadResult.ends = true := by
  intro w hno hpiped hclosed
  have hw : w.Accounted { base := fds } := run_accounted root oracle hfds ops
  -- only an operation that handles the slot may close a descriptor of it
  have hi : op.Handles w i := by
    by_contra hi
    exact hclosed (readEnd_unhandled hw hpiped hi)
  have hcloses : ¬op.Closes w i := by
    intro hcloses
    have hfd := hno i hcloses err
    have hopen := hpiped.2.2
    omega
  -- starts, removals and cleanup find no read end, so a drain is left
  obtain ⟨j, e, reads, rfl⟩ : ∃ j e reads, op = .output j e reads := by
    by_contra hother
    exact hcloses ⟨hi, fun j e reads he => hother ⟨j, e, reads, he⟩⟩
  obtain rfl : i = j := hi.1
  -- a drain of this stream has met its end; one of the other leaves it alone
  by_cases he : e = err
  · subst he
    refine ⟨reads, rfl, ?_⟩
    by_contra hends
    exact hclosed (readEnd_drained hw hpiped (Bool.eq_false_iff.mpr hends))
  · obtain rfl : e = !err := by
      cases e <;> cases err <;> first | rfl | exact absurd rfl he
    exact absurd (readEnd_other hw hpiped reads) hclosed

end SvcRs
