import SvcRs.Spec.Run

/-!
# Operations as sequences of updates

An operation does one thing after the other, to one record at a time, or makes calls that are
about no record. `Update` and `Reap` list all of these with the conditions under which the
program does them. A relation between tables that both respect is respected by every run.

## Key results

- `exec_updates`: every operation but the reaping of a child is a sequence of updates
- `Performs.happens`: every run is a sequence of updates and exits
-/

namespace SvcRs

open Relation (ReflTransGen)

/-! ## Calls that are about no record -/

/-- What is written down about a record: that it is new, a start, an exit, and the script that
    runs after an exit. -/
def Event.isEntry : Event → Bool
  | .added _ | .started .. | .exited .. | .fork .finish _ => true
  | _ => false

/-- No entries are made, and the clock does not go back. -/
structure Uneventful (k k' : Kernel) : Prop where
  log : ∃ evs, k'.log = evs ++ k.log ∧ ∀ e ∈ evs, e.isEntry = false
  clock : k.clock ≤ k'.clock

instance : Std.Refl Uneventful := ⟨fun _ => ⟨⟨[], rfl, by simp⟩, Int.le_refl _⟩⟩

instance : IsTrans Kernel Uneventful where
  trans k₁ k₂ k₃ h h' := by
    obtain ⟨evs, hevs, hnone⟩ := h.log
    obtain ⟨evs', hevs', hnone'⟩ := h'.log
    refine ⟨⟨evs' ++ evs, by rw [hevs', hevs, List.append_assoc], fun e he => ?_⟩,
      Int.le_trans h.clock h'.clock⟩
    exact (List.mem_append.mp he).elim (hnone' e) (hnone e)

/-- Only calls without entries, and a result that satisfies `Q`. -/
abbrev Dull {α : Type} (m : Sys α) (Q : α → Prop) : Prop := StateM.Keeps Uneventful m Q

section

variable {α : Type} {k k' : Kernel}

/-- What is quiet has no entry. -/
theorem Quiet.uneventful (h : Quiet k k') : Uneventful k k' := ⟨⟨[], h.log, by simp⟩, h.clock⟩

/-- A call outside the life cycle. -/
theorem Calm.dull {m : Sys α} {Q : α → Prop} (h : Calm m Q) : Dull m Q :=
  h.mono fun _ _ => Quiet.uneventful

/-- One event that is not an entry. -/
theorem uneventful_of {e : Event} (he : e.isEntry = false) (hlog : k'.log = e :: k.log)
    (hclock : k'.clock = k.clock) : Uneventful k k' :=
  ⟨⟨[e], hlog, by simpa using he⟩, Int.le_of_eq hclock.symm⟩

/-- An event that is no entry. -/
theorem emit_dull {e : Event} (he : e.isEntry = false) : Dull (emit e) fun _ => True := by
  intro k _
  refine ⟨?_, trivial⟩
  cases hlife : e.isLife with
  | true => exact uneventful_of he (emit_log hlife k) rfl
  | false => exact ((emit_calm hlife).rel k).uneventful

theorem kill_dull (target sig : Int) : Dull (kill target sig) fun _ => True := emit_dull rfl

theorem fork_dull (role : Role) (h : role ≠ .finish) : Dull (fork role) fun _ => True := by
  intro k _
  refine ⟨?_, trivial⟩
  cases fork_cases role k with
  | inl hfailed => exact hfailed.2.uneventful
  | inr hforked =>
    obtain ⟨-, -, -, hlog, hclock⟩ := hforked
    have he : (Event.fork role (fork role k).1).isEntry = false := by
      cases role with
      | finish => exact absurd rfl h
      | _ => rfl
    exact uneventful_of he hlog hclock

theorem waitpid_dull (pid status : Int) : Dull (waitpid pid status) fun _ => True := by
  intro k _
  refine ⟨?_, trivial⟩
  by_cases h : ∃ c ∈ k.children, c.pid = pid
  · obtain ⟨k', hrun, -, hlog, hclock⟩ := waitpid_mem status h
    rw [hrun]
    exact uneventful_of rfl hlog hclock
  · rw [waitpid_not_mem status h]
    exact Std.Refl.refl k

/-- The exit of a child is entered elsewhere. -/
theorem Reaps.uneventful {pid status : Int} (h : Reaps k k' pid status) : Uneventful k k' :=
  ⟨⟨[.reaped pid status], h.log, by simp [Event.isEntry]⟩, h.clock⟩

theorem raiseHup_dull : Dull raiseHup fun _ => True := by
  apply (emit_dull rfl).seq
  intro _ k _
  exact ⟨Quiet.uneventful ⟨rfl, rfl, Int.le_refl _⟩, trivial⟩

theorem forkCheck_dull : Dull forkCheck fun _ => True := by
  apply (fork_dull .check (by simp)).seq
  intro pid
  apply StateM.Keeps.ite
  · intro _
    apply call_calm.dull.seq
    intro a
    exact (waitpid_dull pid a.status).seq fun _ => .pure trivial
  · exact fun _ => .pure trivial

theorem runCheck_dull (s : Service) : Dull (runCheck s) fun _ => True := by
  apply (prepareServiceEnv_calm s).dull.bind
  intro _ _
  apply (access_calm _ _).dull.seq
  intro ok
  exact .ite (fun _ => .pure trivial) fun _ => forkCheck_dull

theorem killProcesses_dull (s : Service) : Dull (killProcesses s) fun _ => True := by
  have hlogger : Dull (if s.active && s.logPid > 0 then kill s.logPid sigkill else pure ())
      fun _ => True :=
    .ite (fun _ => kill_dull _ _) fun _ => .pure trivial
  exact .ite (fun _ => (kill_dull _ _).seq fun _ => hlogger) fun _ => hlogger

end

/-! ## Updates -/

/-- One thing that the supervisor does to the table, with what it has checked before. -/
inductive Update (w : World) : World → Prop
  | calls (k : Kernel) (hk : Uneventful w.k k) : Update w { w with k }
  /-- A dependent, or a service whose logger has exited, is stopped. -/
  | stopStatus (i : Nat) (hpid : 0 < (w.svc i).pid) : Update w (onSlot i signalStopStatus w).2
  /-- A service whose directory has gone is stopped. -/
  | stop (i : Nat) (hpid : 0 < (w.svc i).pid) : Update w (onSlot i signalStop w).2
  | stopOrdered (i : Nat) : Update w (onSlot i stopOrdered w).2
  | stopRemaining (i : Nat) : Update w (onSlot i stopRemaining w).2
  | unmark (i : Nat) (hact : (w.svc i).active = true) :
    Update w (onSlot i (fun s => pure { s with present := false }) w).2
  | found (i : Nat) (hact : (w.svc i).active = true) : Update w (onSlot i (foundService i) w).2
  | add (i : Nat) (name : Bytes) (dir : CStrBuf) (hi : i < w.size)
    (hact : (w.svc i).active = false) :
    Update w (onSlot i (fun _ => newService i name dir) w).2
  | release (i : Nat) : Update w (onSlot i (releaseMissing i) w).2
  | retry (t : Int) (i : Nat) (hdue : startDue t (w.svc i) = true) :
    Update w (onSlot i retryLater w).2
  | start (t : Int) (i : Nat) (hdue : startDue t (w.svc i) = true)
    (hdeps : depsSatisfied w (w.svc i) = true) : Update w (onSlot i (startService i) w).2
  | command (cmd : SvcCmd) (i : Nat) (hact : (w.svc i).active = true) :
    Update w (onSlot i (acceptCmd cmd i) w).2
  | drain (i : Nat) (err : Bool) (reads : List ReadResult) (hact : (w.svc i).active = true) :
    Update w (onSlot i (drainStream err reads) w).2

/-- A process of some record exits. -/
inductive Reap (w : World) : World → Prop
  | logger (pid status : Int) (k : Kernel) (i : Nat) (hk : Reaps w.k k pid status)
    (hi : w.loggerSlot pid = some i) : Reap w (onSlot i reapLogger { w with k }).2
  | main (pid status : Int) (k : Kernel) (i : Nat) (hk : Reaps w.k k pid status)
    (hlog : w.loggerSlot pid = none) (hi : w.mainSlot pid = some i) :
    Reap w (onSlot i (reapMain i status k.clock) { w with k }).2

/-- Any number of updates. -/
abbrev Updates : World → World → Prop := ReflTransGen Update

instance : Std.Refl Updates := ⟨fun _ => .refl⟩

instance : IsTrans World Updates := ⟨fun _ _ _ => ReflTransGen.trans⟩

/-- Every execution of `m` is a sequence of updates. -/
abbrev Updating {α : Type} (m : Sup α) : Prop := StateM.Keeps Updates m fun _ => True

section

variable {α : Type}

/-- From each state. -/
theorem Updating.of {m : Sup α} (h : ∀ w, Updates w (m w).2) : Updating m :=
  fun w _ => ⟨h w, trivial⟩

/-- A computation that begins by reading the state. -/
theorem Updating.get {f : World → Sup α} (h : ∀ w, Updates w (f w w).2) :
    Updating (MonadState.get >>= f) :=
  .of h

/-- A system call. -/
theorem Dull.updating {m : Sys α} {Q : α → Prop} (h : Dull m Q) : Updating (liftSys m) :=
  .of fun w => .single (.calls _ (h.rel w.k))

/-- Both branches of a test. -/
theorem Updates.ite {w : World} {c : Prop} [Decidable c] {m₁ m₂ : Sup α}
    (h₁ : c → Updates w (m₁ w).2) (h₂ : ¬c → Updates w (m₂ w).2) :
    Updates w ((if c then m₁ else m₂) w).2 := by
  split
  · exact h₁ ‹_›
  · exact h₂ ‹_›

end

/-! ## Stopping -/

theorem stopTransitiveDeps_updates (w : World) : Updates w (stopTransitiveDeps w).2 := by
  have hone : ∀ i, Updating (stopDependent i) := by
    refine fun i => .of fun w => ?_
    cases stopDependent_cases i w with
    | inl h =>
      rw [h.2]
      exact .single (.stopStatus i h.1.pid)
    | inr h => rw [h.2]
  exact (stopTransitiveDeps_keeps hone).rel w

theorem killOnLogDeath_updates (i : Nat) (w : World) : Updates w (killOnLogDeath i w).2 := by
  refine Updates.ite (fun h => ?_) fun _ => .refl
  simp only [lostLogger, Bool.and_eq_true, decide_eq_true_eq] at h
  exact .single (.stopStatus i h.1.1.2)

theorem stopAllInOrder_updates (w : World) : Updates w (stopAllInOrder w).2 := by
  have hordered : ∀ is, Updating (forSlots (fun i => onSlot i stopOrdered) is) :=
    forSlots_keeps fun i => Updating.of fun _ => .single (.stopOrdered i)
  have hremaining : ∀ is, Updating (forSlots (fun i => onSlot i stopRemaining) is) :=
    forSlots_keeps fun i => Updating.of fun _ => .single (.stopRemaining i)
  exact ((hordered (stopPlan w).order).seq fun _ => hremaining _).rel w

/-! ## Scanning -/

theorem unmarkPresent_updates (i : Nat) (w : World) : Updates w (unmarkPresent i w).2 :=
  Updates.ite (fun hact => .single (.unmark i hact)) fun _ => .refl

theorem addService_updates (name : Bytes) (dir : CStrBuf) (w : World) :
    Updates w (addService name dir w).2 := by
  unfold addService
  rw [Sup.get_bind]
  cases hfree : w.findSlot fun s => !s.active with
  | none => exact .refl
  | some i =>
    obtain ⟨hi, hact⟩ := w.findSlot_some hfree
    exact .single (.add i name dir hi (by simpa using hact))

theorem scanEntry_updates (name : Bytes) (w : World) : Updates w (scanEntry name w).2 := by
  unfold scanEntry
  refine Updates.ite (fun _ => .refl) fun _ => ?_
  rw [Sup.get_bind, Sup.bind_apply]
  let path := joinPath (serviceDir w.root name).bytes "/run"
  have haccess := ((access_calm path .exec).dull.updating).rel w
  apply haccess.trans
  refine Updates.ite (fun _ => ?_) fun _ => .refl
  -- the table is still that of `w`
  cases hfind : findServiceByDir w (serviceDir w.root name) with
  | some i =>
    have hact : (w.svc i).active = true := by
      have hfound := (w.findSlot_some hfind).2
      simp only [Bool.and_eq_true] at hfound
      exact hfound.1
    exact .single (.found i hact)
  | none => exact addService_updates name _ _

theorem stopMissing_updates (i : Nat) (w : World) : Updates w (stopMissing i w).2 := by
  refine Updates.ite (fun h => ?_) fun _ => .refl
  simp only [Bool.and_eq_true, decide_eq_true_eq] at h
  -- stopping the dependents leaves the pid alone
  have hsame := (stopTransitiveDeps_tells.rel w).pid i
  have hpid : 0 < ((stopTransitiveDeps w).2.svc i).pid := by omega
  exact (stopTransitiveDeps_updates w).tail (.stop i hpid)

theorem missingSlot_updates (i : Nat) (w : World) : Updates w (missingSlot i w).2 :=
  Updates.ite (fun _ => (stopMissing_updates i w).tail (.release i)) fun _ => .refl

theorem startSlot_updates (t : Int) (i : Nat) (w : World) : Updates w (startSlot t i w).2 := by
  refine Updates.ite (fun hdue => ?_) fun _ => .refl
  refine Updates.ite (fun _ => .single (.retry t i hdue)) fun hdeps => ?_
  exact .single (.start t i hdue (by simpa using hdeps))

/-! ## Requests -/

theorem withService_updates {usage : String} {arg : Bytes} {act : Nat → Sup Bytes} (w : World)
    (h : ∀ i, (w.svc i).active = true → Updates w (act i w).2) :
    Updates w (withService usage arg act w).2 := by
  refine Updates.ite (fun _ => .refl) fun _ => ?_
  rw [Sup.get_bind]
  cases hfind : findServiceByName w arg with
  | none => exact .refl
  | some i =>
    have hfound := (w.findSlot_some hfind).2
    simp only [Bool.and_eq_true] at hfound
    exact h i hfound.1

theorem svcCommand_updates (cmd : SvcCmd) (arg : Bytes) (w : World) :
    Updates w (svcCommand cmd arg w).2 := by
  apply withService_updates
  intro i hact
  refine Updates.ite (fun _ => ?_) fun _ => .single (.command cmd i hact)
  have hstill : ((stopTransitiveDeps w).2.svc i).active = true :=
    ((stopTransitiveDeps_tells.rel w).active i).trans hact
  exact (stopTransitiveDeps_updates w).tail (.command cmd i hstill)

theorem sendSignal_updates (i : Nat) (sig : Int) (w : World) : Updates w (sendSignal i sig w).2 :=
  Updates.ite (fun _ => .refl) fun _ => (kill_dull _ sig).updating.rel w

theorem signalCommand_updates (arg : Bytes) (w : World) : Updates w (signalCommand arg w).2 := by
  unfold signalCommand
  generalize splitCmd arg = r
  obtain ⟨svcName, sigNumPart⟩ := r
  refine Updates.ite (fun _ => .refl) fun _ => ?_
  cases parseSignum sigNumPart with
  | none => exact .refl
  | some signum => exact withService_updates w fun i _ => sendSignal_updates i signum w

theorem respond_updates (line : Bytes) (w : World) : Updates w (respond line w).2 := by
  have hclock : Updates w (liftSys monoNow w).2 := monoNow_calm.dull.updating.rel w
  unfold respond
  generalize splitCmd line = r
  obtain ⟨word, arg⟩ := r
  dsimp only
  -- only the service commands and the signals do more than read
  cases parseRequest word with
  | list => exact hclock
  | status => exact withService_updates w fun _ _ => hclock
  | svc cmd => exact svcCommand_updates cmd arg w
  | check => exact withService_updates w fun i _ => (runCheck_dull (w.svc i)).updating.rel w
  | reload => exact raiseHup_dull.updating.rel w
  | shortcut sig => exact withService_updates w fun i _ => sendSignal_updates i sig w
  | signal => exact signalCommand_updates arg w
  | unknown => exact .refl

theorem handleControlCommand_updates (line : Bytes) (w : World) :
    Updates w (handleControlCommand line w).2 :=
  (respond_updates line w).trans ((reply_calm _).dull.updating.rel _)

/-! ## Operations -/

theorem drainSignals_updates (reads : List Nat) (w : World) :
    Updates w (liftSys (drainSignalPipe reads) w).2 :=
  (drainSignalPipe_calm reads).dull.updating.rel w

/-- Every operation is a sequence of updates, unless a child is reaped. -/
theorem exec_updates (op : Op) (h : ∀ pid status, op ≠ .reapChild pid status) (w : World) :
    Updates w (exec op w) := by
  cases op with
  | reapChild pid status => exact absurd rfl (h pid status)
  | stopDeps => exact stopTransitiveDeps_updates w
  | logDeath i => exact killOnLogDeath_updates i w
  | readClock => exact monoNow_calm.dull.updating.rel w
  | unmark i => exact unmarkPresent_updates i w
  | scanEntry name => exact scanEntry_updates name w
  | missing i => exact missingSlot_updates i w
  | start t i => exact startSlot_updates _ i w
  | request line => exact handleControlCommand_updates line w
  | signals reads => exact drainSignals_updates reads w
  | output i err reads =>
    exact Updates.ite (fun hact => .single (.drain i err reads hact)) fun _ => .refl
  | wait elapsed arrivals =>
    -- waiting moves the clock forward
    have hle : w.k.clock ≤ (pollWait elapsed arrivals w).k.clock :=
      (pollWait_steps (S := anyKind) elapsed arrivals w).clock_le
    exact .single (.calls _ (Quiet.uneventful ⟨rfl, rfl, hle⟩))
  | stopAll => exact stopAllInOrder_updates w
  | killRemaining i => exact (killProcesses_dull (w.svc i)).updating.rel w

/-! ## Parts of the main loop -/

theorem rescan_updates (listing : Option (List Bytes)) (w : World) :
    Updates w (rescan listing w).2 := by
  cases listing with
  | none => exact .refl
  | some names =>
    have hunmark : ∀ is, Updating (forSlots unmarkPresent is) :=
      forSlots_keeps fun i => Updating.of (unmarkPresent_updates i)
    have hmissing : ∀ is, Updating (forSlots missingSlot is) :=
      forSlots_keeps fun i => Updating.of (missingSlot_updates i)
    -- by induction on the entries
    have hentries : Updating (scanEntries names) := by
      induction names with
      | nil => exact .pure trivial
      | cons name names ih => exact (Updating.of (scanEntry_updates name)).seq fun _ => ih
    have hscan : Updating (scanServices names) :=
      .get fun w => ((hunmark w.slots).seq fun _ => hentries).rel w
    exact (hscan.seq fun _ => Updating.get fun w => (hmissing w.slots).rel w).rel w

theorem startPass_updates (t : Int) (w : World) : Updates w (startPass t w).2 := by
  have hslots : Updating (forSlots (startSlot t) w.slots) :=
    forSlots_keeps (fun i => Updating.of (startSlot_updates t i)) w.slots
  exact hslots.rel w

/-- What the main loop does between `reap_children` and `poll`. -/
theorem loopTop_updates (p : Pass) (m : MainState) :
    Updates (reapChildren p.exits m.world).2 (loopTop p m).world := by
  have hclock : Updates (reapChildren p.exits m.world).2 _ :=
    monoNow_calm.dull.updating.rel (reapChildren p.exits m.world).2
  unfold loopTop
  dsimp only
  split
  · exact (hclock.trans (rescan_updates _ _)).trans (startPass_updates _ _)
  · exact hclock.trans (startPass_updates _ _)

theorem dispatchRequests_updates (r : PollResult) (w : World) :
    Updates w (dispatchRequests r w).2 := by
  have hcontrol : ∀ request, Updating (dispatchControl request) := by
    intro request
    rcases request with _ | _ | ⟨c, line⟩
    · exact .pure trivial
    · exact .pure trivial
    · exact .of (handleControlCommand_updates _)
  -- by induction on the streams that are ready
  have houtputs : ∀ outputs, Updating (drainOutputs outputs) := by
    intro outputs
    induction outputs with
    | nil => exact .pure trivial
    | cons o outputs ih =>
      have hone : Updating (drainOutput o.1 o.2.1 o.2.2) :=
        .of (exec_updates (.output o.1 o.2.1 o.2.2) nofun)
      exact hone.seq fun _ => ih
  exact ((hcontrol r.control).seq fun _ => houtputs r.outputs).rel w

/-- What the main loop does in the rest of a turn. -/
theorem mainPass_updates (p : Pass) (m : MainState) :
    Updates (loopTop p m).world (mainPass p m).world := by
  -- the wait, then the signals, then the requests
  have hwait : Updates (loopTop p m).world _ :=
    exec_updates (.wait p.elapsed p.arrivals) nofun _
  have hsignals : ∀ m : MainState, Updates m.world (dispatchSignals p.poll.signals m).world := by
    intro m
    cases p.poll.signals with
    | none => exact .refl
    | some reads =>
      simp only [dispatchSignals, handleSignal_world]
      exact drainSignals_updates reads m.world
  let m₁ : MainState := { loopTop p m with world := pollWait p.elapsed p.arrivals (loopTop p m).world }
  have hfirst : Updates (loopTop p m).world (dispatchSignals p.poll.signals m₁).world :=
    hwait.trans (hsignals m₁)
  show Updates _ (dispatch p.poll m₁).world
  unfold dispatch
  dsimp only
  -- after a signal that ends the loop no request is served
  split
  · exact hfirst
  · exact hfirst.trans (dispatchRequests_updates p.poll _)

/-! ## Runs -/

/-- An update, or the exit of a process. -/
abbrev Happens (w w' : World) : Prop := Update w w' ∨ Reap w w'

/-- An update is something that happens. -/
theorem Updates.happen {w w' : World} (h : Updates w w') : ReflTransGen Happens w w' :=
  ReflTransGen.mono (fun _ _ => Or.inl) w w' h

/-- A reaped child. -/
theorem reapChild_happens (pid status : Int) (w : World) :
    ReflTransGen Happens w (reapChild pid status w).2 := by
  rcases reapChild_cases pid status w with ⟨-, he⟩ | ⟨k, hk, hcases⟩
  · rw [he]
  · rcases hcases with ⟨i, hi, he⟩ | ⟨i, hlog, hi, he⟩ | ⟨-, -, he⟩ <;> rw [he]
    · exact .single (.inr (.logger pid status k i hk hi))
    · exact .single (.inr (.main pid status k i hk hlog hi))
    · exact .single (.inl (.calls k hk.uneventful))

/-- Every operation is a sequence of what can happen. -/
theorem exec_happens (op : Op) (w : World) : ReflTransGen Happens w (exec op w) := by
  cases op with
  | reapChild pid status => exact reapChild_happens pid status w
  | _ => exact (exec_updates _ (by simp) w).happen

/-- Every run is a sequence of updates and exits. -/
theorem Performs.happens {w w' : World} (h : Performs w w') : ReflTransGen Happens w w' := by
  obtain ⟨ops, rfl⟩ := h
  induction ops generalizing w with
  | nil => exact .refl
  | cons op ops ih => exact (exec_happens op w).trans (ih (w := exec op w))

end SvcRs
