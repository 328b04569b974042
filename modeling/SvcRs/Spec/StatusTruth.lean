import SvcRs.Spec.Isolation
import SvcRs.Spec.PathBuilder
import SvcRs.Spec.ScanEntry
import SvcRs.Spec.StatusFile

/-!
# Does the status file tell the truth?

Two places change what a status file shows and do not write it: `handle_missing_services` sets
STOPPING, and a scan that meets a known service reads its ids anew. In a run in which neither
makes a difference, the last text that `write_status_file` put into the file of an active
service is always that of its record.

## Key results

- `statusPath_injective`: two services never share a status file
- `exec_truthful`: one operation
- `status_truthful`: every run without the two
- `status_stale`: both do occur
-/

namespace SvcRs

open Transition (run Along)

/-! ## Paths -/

/-- Entry names have no slash, so the directory can be read off the path of the status file, even
    if that was cut. -/
theorem statusPath_injective {root : CStrBuf} {name name' : Bytes} (h : 47 ∉ name)
    (h' : 47 ∉ name') (he : joinPath (serviceDir root name).bytes "/status" =
      joinPath (serviceDir root name').bytes "/status") :
    (serviceDir root name).bytes = (serviceDir root name').bytes := by
  have hdir : ∀ name, (serviceDir root name).bytes =
      (joinPath root.bytes "/" ++ withoutNul name).take (pathBuf - 1) := fun name =>
    CStrBuf.push_bytes _ name
  have hpath : ∀ name, joinPath (serviceDir root name).bytes "/status" =
      (joinPath root.bytes "/" ++ (withoutNul name ++ bytesOf "/status")).take (pathBuf - 1) := by
    intro name
    have hnoNul : withoutNul (serviceDir root name).bytes = (serviceDir root name).bytes :=
      withoutNul_eq_self (serviceDir root name).noNul
    have hstatus : withoutNul (bytesOf "/status") = bytesOf "/status" := by decide
    rw [joinPath_eq, hnoNul, hstatus, hdir, List.take_take_append, List.append_assoc]
  -- the slash of `/status` is the first one behind the root
  have hbefore : ∀ name : Bytes, 47 ∉ name → ∀ n,
      ((withoutNul name ++ bytesOf "/status").take n).takeWhile (fun c => decide (c ≠ 47)) =
        (withoutNul name).take n := by
    intro name hname n
    apply List.takeWhile_take_append
    · intro c hc
      have hmem : c ∈ name := List.mem_of_mem_filter hc
      have hne : c ≠ 47 := fun he => hname (he ▸ hmem)
      simpa using hne
    · rfl
  have hsplit : ∀ b : Bytes, (joinPath root.bytes "/" ++ b).take (pathBuf - 1) =
      (joinPath root.bytes "/").take (pathBuf - 1) ++
        b.take (pathBuf - 1 - (joinPath root.bytes "/").length) := fun _ => List.take_append
  rw [hpath, hpath, hsplit, hsplit] at he
  have hcut := congrArg (List.takeWhile fun c => decide (c ≠ 47)) (List.append_cancel_left he)
  rw [hbefore name h, hbefore name' h'] at hcut
  rw [hdir, hdir, hsplit, hsplit, hcut]

/-! ## The table -/

/-- The directories of active services are different entries of the root, and the status file of
    each shows its record. -/
structure Truthful (root : CStrBuf) (w : World) : Prop where
  atRoot : w.root = root
  inTable : ∀ i, (w.svc i).active = true → i < w.size
  entry : ∀ i, (w.svc i).active = true →
    ∃ name, 47 ∉ name ∧ (w.svc i).dir = (serviceDir root name).bytes
  distinct : ∀ i j, (w.svc i).active = true → (w.svc j).active = true →
    (w.svc i).dir = (w.svc j).dir → i = j
  shows : ∀ i, (w.svc i).active = true → Shows (w.svc i) w.k

section

variable {root : CStrBuf} {w w' : World} {i j : Nat}

/-- Different services have different status files. -/
theorem Truthful.path_ne (h : Truthful root w) (hi : (w.svc i).active = true)
    (hj : (w.svc j).active = true) (hne : i ≠ j) : statusPath (w.svc i) ≠ statusPath (w.svc j) := by
  obtain ⟨name, hname, hdir⟩ := h.entry i hi
  obtain ⟨name', hname', hdir'⟩ := h.entry j hj
  intro he
  unfold statusPath at he
  rw [hdir, hdir'] at he
  have hsame := statusPath_injective hname hname' he
  rw [← hdir, ← hdir'] at hsame
  exact hne (h.distinct i j hi hj hsame)

/-- A part that changes no record and writes no status file. -/
theorem Truthful.silent (h : Truthful root w) (hroot : w'.root = w.root) (hsize : w'.size = w.size)
    (hsvc : w'.svc = w.svc) (hemits : Emits (fun e => e.isStatus = false) w.k w'.k) :
    Truthful root w' := by
  obtain ⟨hr, hin, hentry, hdistinct, hshows⟩ := h
  refine ⟨hroot.trans hr, ?_, ?_, ?_, ?_⟩
  -- the records are the same, and nothing was reported
  · rw [hsvc, hsize]
    exact hin
  · rw [hsvc]
    exact hentry
  · rw [hsvc]
    exact hdistinct
  · intro i hi
    rw [hsvc] at hi ⊢
    exact (hshows i hi).same (.refl _) (hemits.mono fun _ he => Event.reportOn_of he _)

/-- Calls that change no record and no file. -/
theorem Truthful.calls {α : Type} {m : Sys α} (h : Truthful root w) (hm : Silent m fun _ => True) :
    Truthful root (liftSys m w).2 :=
  h.silent rfl rfl rfl (hm.rel w.k)

/-- An active record is changed, and only its status file may be written. -/
theorem Truthful.put (h : Truthful root w) (hact : (w.svc i).active = true) {f : Service → Sys Service}
    (hf : Emits (Event.ReportsOnly (statusPath (w.svc i))) w.k (f (w.svc i) w.k).2 ∧
      (f (w.svc i) w.k).1.dir = (w.svc i).dir ∧
      Shows (f (w.svc i) w.k).1 (f (w.svc i) w.k).2) : Truthful root (onSlot i f w).2 := by
  obtain ⟨hemits, hdir, hshows⟩ := hf
  have hold : ∀ j, ((onSlot i f w).2.svc j).active = true →
      (w.svc j).active = true ∧ ((onSlot i f w).2.svc j).dir = (w.svc j).dir := by
    intro j hj
    rw [onSlot_svc] at hj ⊢
    split at hj
    · next he =>
      rw [if_pos he, he]
      exact ⟨hact, hdir⟩
    · next he =>
      rw [if_neg he]
      exact ⟨hj, rfl⟩
  refine ⟨h.atRoot, fun j hj => h.inTable j (hold j hj).1, ?_, ?_, ?_⟩
  · intro j hj
    rw [(hold j hj).2]
    exact h.entry j (hold j hj).1
  · intro j l hj hl he
    rw [(hold j hj).2, (hold l hl).2] at he
    exact h.distinct j l (hold j hj).1 (hold l hl).1 he
  · intro j hj
    have hactj := (hold j hj).1
    rw [onSlot_svc] at hj ⊢
    split
    · exact hshows
    · next hne =>
      -- the file of another service is not touched
      have hpath := h.path_ne hact hactj fun he => hne he.symm
      exact (h.shows j hactj).same (.refl _) (hemits.mono fun _ he => he.reportOn hpath)

/-- A function that writes what it has changed. -/
theorem Truthful.honest (h : Truthful root w) (hact : (w.svc i).active = true)
    {f : Service → Sys Service} (hf : Honest (w.svc i) (f (w.svc i))) :
    Truthful root (onSlot i f w).2 :=
  h.put hact (hf w.k (h.shows i hact))

/-- A service is added, under a new directory. -/
theorem Truthful.add (h : Truthful root w) (hi : i < w.size) {name : Bytes}
    (hname : 47 ∉ name) (hnew : findServiceByDir w (serviceDir root name) = none)
    {f : Service → Sys Service} (hf : Reports (serviceDir root name).bytes (f (w.svc i))) :
    Truthful root (onSlot i f w).2 := by
  obtain ⟨hemits, hdir, hshows⟩ := hf w.k trivial
  have hother : ∀ j, j ≠ i → (onSlot i f w).2.svc j = w.svc j := by
    intro j hj
    rw [onSlot_svc, if_neg hj]
  have hself : (onSlot i f w).2.svc i = (f (w.svc i) w.k).1 := if_pos rfl
  -- the directory is that of no service yet
  have hfresh : ∀ j, (w.svc j).active = true → (w.svc j).dir ≠ (serviceDir root name).bytes :=
    fun j hj => findServiceByDir_none hnew j (h.inTable j hj) hj
  refine ⟨h.atRoot, ?_, ?_, ?_, ?_⟩
  · intro j hj
    by_cases hji : j = i
    · rw [hji]
      exact hi
    · rw [hother j hji] at hj
      exact h.inTable j hj
  · intro j hj
    by_cases hji : j = i
    · rw [hji, hself]
      exact ⟨name, hname, hdir⟩
    · rw [hother j hji] at hj ⊢
      exact h.entry j hj
  · intro j l hj hl he
    by_cases hji : j = i <;> by_cases hli : l = i
    · rw [hji, hli]
    · rw [hother l hli] at hl he
      rw [hji, hself, hdir] at he
      exact absurd he.symm (hfresh l hl)
    · rw [hother j hji] at hj he
      rw [hli, hself, hdir] at he
      exact absurd he (hfresh j hj)
    · rw [hother j hji] at hj he
      rw [hother l hli] at hl he
      exact h.distinct j l hj hl he
  · intro j hj
    by_cases hji : j = i
    · rw [hji, hself]
      exact hshows
    · rw [hother j hji] at hj ⊢
      -- so the new status file is that of no other service
      have hpath : joinPath (serviceDir root name).bytes "/status" ≠ statusPath (w.svc j) := by
        obtain ⟨name', hname', hdir'⟩ := h.entry j hj
        intro he
        unfold statusPath at he
        rw [hdir'] at he
        exact hfresh j hj (hdir'.trans (statusPath_injective hname hname' he).symm)
      exact (h.shows j hj).same (.refl _) (hemits.mono fun _ he => he.reportOn hpath)

/-! ## Stopping the dependents -/

/-- `stop_transitive_deps` stops the service: it runs, and a hard dependency does not, or is
    stopped in the same way. -/
inductive Falls (w : World) : Nat → Prop
  | stranded {i : Nat} (hi : i < w.size) (h : Stranded w i) : Falls w i
  | chain {i j : Nat} {dep : Dependency} (hi : Eligible w i) (hdep : dep ∈ (w.svc i).deps)
    (hhard : dep.soft = false) (hfind : findServiceByName w dep.name = some j) (hj : Falls w j) :
    Falls w i

/-- Telling services to stop, each in its turn. -/
theorem Truthful.told {order : List Nat} (h : Truthful root w) (halong : Along tell Meets order w) :
    Truthful root (run tell order w) :=
  Transition.run_invariant (I := Truthful root) (fun w i h hmeets =>
    h.honest hmeets.2.active (signalStopStatus_reports (w.svc i)).honest) h halong

/-- Stopping dependents writes their status. -/
theorem Truthful.sweeps (h : Truthful root w) :
    Truthful root (stopTransitiveDeps w).2 := by
  obtain ⟨order, hrun, halong, -⟩ := stopTransitiveDeps_order w
  rw [hrun]
  exact h.told halong

/-- A service that must fall is stopping after the sweeps. -/
theorem Falls.told (h : Falls w i) : ((stopTransitiveDeps w).2.svc i).state = .stopping := by
  obtain ⟨order, hrun, -, hsettled⟩ := stopTransitiveDeps_order w
  -- lookups only see names
  have hname : ∀ name, findServiceByName (run tell order w) name = findServiceByName w name := by
    intro name
    unfold findServiceByName World.findSlot World.slots
    rw [run_tell_size]
    simp only [(run_tell_frame order w _).1, (run_tell_frame order w _).2.1]
  -- what would be stranded in the end has been told
  have hdown : ∀ i, Eligible w i → (∃ dep ∈ (w.svc i).deps, dep.soft = false ∧
      (run tell order w).isRunning dep.name = false) → i ∈ order := by
    intro i helig hdep
    by_contra hout
    have hsame : (run tell order w).svc i = w.svc i := by
      rw [run_tell_svc, if_neg hout]
    apply hsettled i helig.inTable
    obtain ⟨-, hact, hstate, hstop, hpid⟩ := helig
    constructor <;> rwa [hsame]
  have hmem : i ∈ order := by
    induction h with
    | stranded hi h =>
      obtain ⟨dep, hdep, hhard, hnot⟩ := h.dep
      refine hdown _ ⟨hi, h.active, h.running, h.notStopping, h.pid⟩ ⟨dep, hdep, hhard, ?_⟩
      -- a service that did not run does not run later
      apply Bool.eq_false_iff.mpr
      intro hup
      obtain ⟨j, hfind, hstate⟩ := isRunning_iff.mp hup
      rw [hname] at hfind
      have hold : ¬((run tell order w).svc j).state ≠ .running := not_not.mpr hstate
      rw [run_tell_state, not_or, not_not] at hold
      rw [isRunning_iff.mpr ⟨j, hfind, hold.1⟩] at hnot
      cases hnot
    | chain hi hdep hhard hfind _ ih =>
      refine hdown _ hi ⟨_, hdep, hhard, ?_⟩
      apply Bool.eq_false_iff.mpr
      intro hup
      obtain ⟨j', hfind', hstate⟩ := isRunning_iff.mp hup
      rw [hname, hfind, Option.some_inj] at hfind'
      exact (run_tell_state order w _).mpr (.inr ih) (hfind' ▸ hstate)
  rw [hrun, run_tell_svc, if_pos hmem]
  rfl

/-! ## Operations -/

/-- The operation changes nothing that a status file shows without writing it: a scan that meets a
    known service reads the ids that are in the record, and a service whose directory is gone does
    not run any more, or is told to stop by `stop_transitive_deps`, or was STOPPING before. After
    `stop_all_in_order` there is no `poll`. -/
def Op.Rewrites (w : World) : Op → Prop
  | .scanEntry name => ∀ i, FoundAt w name i →
      readIds (w.svc i).dir (emit (.found i) (probed name w).k).2 = (w.svc i).shownIds
  | .missing i => (w.svc i).active = true → (w.svc i).present = false → 0 < (w.svc i).pid →
      (w.svc i).stopping = false → (w.svc i).state = .stopping ∨ Falls w i
  | .stopAll => False
  | _ => True

/-- A directory found by a scan. -/
theorem Truthful.scan (h : Truthful root w) {name : Bytes} (hname : 47 ∉ name)
    (hop : (Op.scanEntry name).Rewrites w) : Truthful root (scanEntry name w).2 := by
  have hprobed : Truthful root (probed name w) := h.calls (access_silent _ _)
  -- a known service reports its new ids, a new one its first status
  rcases scanEntry_outcome w name with ⟨i, hfound⟩ | ⟨i, hadds⟩ | ⟨hfound, hadds⟩
  · rw [scanEntry_found hfound]
    obtain ⟨hi, hact, -⟩ := findServiceByDir_some hfound.find
    exact hprobed.put hact (foundService_honest (hprobed.shows i hact) (hop i hfound))
  · rw [scanEntry_adds hadds]
    obtain ⟨-, hnew, hslot⟩ := hadds
    obtain ⟨hi, -⟩ := w.findSlot_some hslot
    have hroot : w.root = root := h.atRoot
    subst hroot
    exact hprobed.add hi hname hnew (newService_reports i name _)
  · rcases scanEntry_leaves hfound hadds with he | he <;> rw [he]
    · exact h
    · exact hprobed

/-- A reaped child. -/
theorem Truthful.reap (h : Truthful root w) (pid status : Int) :
    Truthful root (reapChild pid status w).2 := by
  have hwait : Silent (waitpid pid status) fun _ => True := waitpid_allEvents rfl
  unfold reapChild
  rw [Sup.bind_apply, Sup.ite_apply]
  have hwaited : Truthful root (liftSys (waitpid pid status) w).2 := h.calls hwait
  -- no child was found, or one exit is written down
  split
  · exact hwaited
  · have hclock : Truthful root
        (liftSys monoNow (liftSys (waitpid pid status) w).2).2 :=
      hwaited.calls monoNow_silent
    rw [Sup.bind_apply, Sup.bind_apply]
    generalize (liftSys monoNow (liftSys (waitpid pid status) w).2).1 = t
    generalize (liftSys monoNow (liftSys (waitpid pid status) w).2).2 = w₁ at hclock
    show Truthful root (reapRecord pid status t w₁).2
    unfold reapRecord
    rw [Sup.get_bind]
    cases hlogger : w₁.loggerSlot pid with
    | some i =>
      obtain ⟨-, hact, -⟩ := loggerSlot_some hlogger
      exact hclock.honest hact (reapLogger_keepsStatus _).honest
    | none =>
      -- a logger's exit changes nothing that is reported; a main process's is reported at once
      dsimp only
      cases hmain : w₁.mainSlot pid with
      | some i =>
        obtain ⟨-, hact, -⟩ := mainSlot_some hmain
        exact hclock.honest hact (reapMain_reports i status t _).honest
      | none => exact hclock

/-- STOPPING is in the file already, or there is nothing to stop. -/
theorem Truthful.missing (h : Truthful root w) (hop : (Op.missing i).Rewrites w) :
    Truthful root (missingSlot i w).2 := by
  unfold missingSlot
  rw [Sup.get_bind, Sup.ite_apply]
  split
  · next hgone =>
    obtain ⟨hact, hpresent⟩ : (w.svc i).active = true ∧ (w.svc i).present = false := by
      simpa using hgone
    have hstop : Truthful root (stopMissing i w).2 ∧ ((stopMissing i w).2.svc i).active = true := by
      unfold stopMissing
      rw [Sup.get_bind, Sup.ite_apply]
      split
      · next hlive =>
        obtain ⟨hpid, hstop⟩ : 0 < (w.svc i).pid ∧ (w.svc i).stopping = false := by
          simpa using hlive
        -- the sweeps come before the stop
        have hdeps := h.sweeps
        have htells := stopTransitiveDeps_tells.rel w
        have hact' : ((stopTransitiveDeps w).2.svc i).active = true := (htells.active i).trans hact
        have hstate : ((stopTransitiveDeps w).2.svc i).state = .stopping := by
          rcases hop hact hpresent hpid hstop with hstate | hfalls
          · -- who was STOPPING is not told again
            rcases htells.core i with hcore | ⟨-, -, hcore⟩
            · exact (congrArg Core.state hcore).trans hstate
            · exact congrArg Core.state hcore
          · exact hfalls.told
        rw [Sup.bind_apply]
        refine ⟨hdeps.honest hact' (signalStop_keepsStatus hstate).honest, ?_⟩
        rw [onSlot_svc, if_pos rfl]
        exact hact'
      · exact ⟨h, hact⟩
    rw [Sup.bind_apply]
    -- then the release, which writes the status
    exact hstop.1.honest hstop.2 (releaseMissing_honest i _)
  · exact h

/-- A start pass. -/
theorem Truthful.starts (h : Truthful root w) (t : Int) (i : Nat) :
    Truthful root (startSlot t i w).2 := by
  unfold startSlot
  rw [Sup.get_bind, Sup.ite_apply]
  split
  · next hdue =>
    have hact : (w.svc i).active = true := (startDue_due hdue (Int.le_refl _)).active
    rw [Sup.ite_apply]
    -- the time of the next attempt is not reported
    split
    · have hretry : KeepsStatus (w.svc i) (retryLater (w.svc i)) :=
        monoNow_silent.seq fun _ => .pure ⟨rfl, fun _ => rfl⟩
      exact h.honest hact hretry.honest
    · exact h.honest hact (startService_honest i _)
  · exact h

/-- Only the commands write status files. -/
theorem respond_silent {line : Bytes} (h : ∀ cmd, parseRequest (splitCmd line).1 ≠ .svc cmd) :
    OnlyCalls (fun e => e.isStatus = false) w (respond line w).2 := by
  -- requests that only read, signals, and the two that touch neither
  have hreader : parseRequest (splitCmd line).1 = .list ∨ parseRequest (splitCmd line).1 = .status ∨
      parseRequest (splitCmd line).1 = .check →
      OnlyCalls (fun e => e.isStatus = false) w (respond line w).2 :=
    reader_onlyCalls (fun _ => rfl) fun _ _ => rfl
  have hsignal : parseRequest (splitCmd line).1 = .signal ∨
      (∃ sig, parseRequest (splitCmd line).1 = .shortcut sig) →
      OnlyCalls (fun e => e.isStatus = false) w (respond line w).2 := by
    intro hrequest
    rcases respond_signal hrequest w with ⟨msg, he⟩ | ⟨i, sig, -, -, he⟩ <;> rw [he]
    · exact .refl _ w
    · exact ⟨_, rfl, [.kill (-(w.svc i).pid) sig], rfl, by simp [Event.isStatus]⟩
  cases hrequest : parseRequest (splitCmd line).1 with
  | list => exact hreader (.inl hrequest)
  | status => exact hreader (.inr (.inl hrequest))
  | check => exact hreader (.inr (.inr hrequest))
  | svc cmd => exact absurd hrequest (h cmd)
  | signal => exact hsignal (.inl hrequest)
  | shortcut sig => exact hsignal (.inr ⟨sig, hrequest⟩)
  | reload =>
    rw [respond_reload hrequest]
    exact ⟨_, rfl, [.killSelf sighup], rfl, by simp [Event.isStatus]⟩
  | unknown =>
    rw [respond_unknown hrequest]
    exact .refl _ w

/-- A request of a client. -/
theorem Truthful.request (h : Truthful root w) (line : Bytes) :
    Truthful root (handleControlCommand line w).2 := by
  have hreply : ∀ text, Silent (reply text) fun _ => True := fun _ => emit_silent rfl
  by_cases hcmd : ∃ cmd, parseRequest (splitCmd line).1 = .svc cmd
  · obtain ⟨cmd, hcmd⟩ := hcmd
    -- a command that is refused changes nothing; an accepted one reports what it did
    rcases respond_svcCmd hcmd w with ⟨msg, he⟩ | ⟨i, haccepts⟩
    · have hsame : Truthful root (respond line w).2 := by
        rw [he]
        exact h
      exact hsame.calls (hreply _)
    -- the dependents are stopped and reported first
    · have hbefore : Truthful root (beforeCmd cmd w) := by
        unfold beforeCmd
        split
        · exact h.sweeps
        · exact h
      have hact : ((beforeCmd cmd w).svc i).active = true :=
        ((beforeCmd_tells cmd w).active i).trans haccepts.active
      have hrun : (handleControlCommand line w).2 = (liftSys (reply (respond line w).1)
          (onSlot i (acceptCmd cmd i) (beforeCmd cmd w)).2).2 := request_exec haccepts
      rw [hrun]
      exact (hbefore.honest hact (acceptCmd_honest cmd i _)).calls (hreply _)
  -- no other request writes a status
  · obtain ⟨k, hk, hsilent⟩ := respond_silent (w := w) (not_exists.mp hcmd)
    have hsame : Truthful root (respond line w).2 := by
      rw [hk]
      exact h.silent rfl rfl rfl hsilent
    exact hsame.calls (hreply _)

/-- A conditional change of one record. -/
theorem Truthful.when (h : Truthful root w) {c : Prop} [Decidable c] {f : Service → Sys Service}
    (hact : c → (w.svc i).active = true) (hf : Honest (w.svc i) (f (w.svc i))) :
    Truthful root ((if c then onSlot i f else pure ()) w).2 := by
  split
  · next hc => exact h.honest (hact hc) hf
  · exact h

theorem drainSignalPipe_silent (reads : List Nat) : Silent (drainSignalPipe reads) fun _ => True := by
  induction reads with
  | nil => exact .pure trivial
  | cons n reads ih =>
    -- reading the self-pipe reports nothing
    have hread : Silent (readSigPipe n) fun _ => True := fun k _ =>
      ⟨⟨[.sigRead (k.sigPipe.take (min n 64))], rfl, by simp [Event.isStatus]⟩, trivial⟩
    apply hread.seq
    intro chunk
    apply StateM.Keeps.ite
    · exact fun _ => .pure trivial
    · intro _
      cases chunk.find? isLoopSignal with
      | some sig => exact .pure trivial
      | none => exact ih

theorem killProcesses_silent (s : Service) : Silent (killProcesses s) fun _ => True := by
  have hlogger : Silent (if s.active && s.logPid > 0 then kill s.logPid sigkill else pure ())
      fun _ => True := .ite (fun _ => emit_silent rfl) fun _ => .pure trivial
  exact .ite (fun _ => (emit_silent rfl).seq fun _ => hlogger) fun _ => hlogger

/-- One operation. -/
theorem exec_truthful (h : Truthful root w) {op : Op} (hname : ∀ name, op = .scanEntry name → 47 ∉ name)
    (hop : op.Rewrites w) : Truthful root (exec op w) := by
  cases op with
  | reapChild pid status => exact h.reap pid status
  | stopDeps => exact h.sweeps
  | logDeath i =>
    -- only an active service can lose its logger
    apply h.when
    · intro hlost
      simp only [lostLogger, Bool.and_eq_true] at hlost
      exact hlost.1.1.1.1.1
    · exact (signalStopStatus_reports _).honest
  | readClock => exact h.calls monoNow_silent
  | unmark i =>
    -- `present` is not reported
    have hunmark : KeepsStatus (w.svc i) (pure { w.svc i with present := false }) :=
      .pure ⟨rfl, fun _ => rfl⟩
    exact h.when id hunmark.honest
  | scanEntry name => exact h.scan (hname name rfl) hop
  | missing i => exact h.missing hop
  | start t i => exact h.starts _ i
  | request line => exact h.request line
  | signals reads => exact h.calls (drainSignalPipe_silent reads)
  | output i err reads => exact h.when id (drainStream_keepsStatus err reads _).honest
  | wait elapsed arrivals => exact h.silent rfl rfl rfl ⟨[], rfl, by simp⟩
  -- at the end of the program the condition excludes this step
  | stopAll => exact hop.elim
  | killRemaining i => exact h.calls (killProcesses_silent _)

end

/-! ## Runs -/

/-- At the beginning there is no service. -/
theorem boot_truthful (root : CStrBuf) (oracle : Nat → Answer) (fds : List Int) :
    Truthful root (boot root oracle fds).world := by
  have hidle : ∀ i, ((boot root oracle fds).world.svc i).active = false := fun _ => rfl
  have hnone : ∀ i, ¬((boot root oracle fds).world.svc i).active = true := by simp [hidle]
  exact ⟨rfl, fun i hi => absurd hi (hnone i), fun i hi => absurd hi (hnone i),
    fun i _ hi => absurd hi (hnone i), fun i hi => absurd hi (hnone i)⟩

/-- Whole runs, by induction over the operations. -/
theorem run_truthful {root : CStrBuf} {ops : List Op} {w : World} (h : Truthful root w)
    (hnames : ∀ name, Op.scanEntry name ∈ ops → 47 ∉ name)
    (hrun : Along exec (fun w op => op.Rewrites w) ops w) : Truthful root (run exec ops w) := by
  induction ops generalizing w with
  | nil => exact h
  | cons op ops ih =>
    apply ih
    · exact exec_truthful h (fun name he => hnames name (he ▸ List.mem_cons_self)) hrun.1
    · exact fun name hmem => hnames name (List.mem_cons_of_mem op hmem)
    · exact hrun.2

/-- The status file tells the truth: if no write of a status file fails, and no operation changes
    what is shown without writing it, then in every state of a run the last text that
    `write_status_file` put into the file of an active service is the status of its record. -/
theorem status_truthful (root : CStrBuf) (oracle : Nat → Answer) (fds : List Int) {ops : List Op}
    (hnames : ∀ name, Op.scanEntry name ∈ ops → 47 ∉ name)
    (hrun : Along exec (fun w op => op.Rewrites w) ops (boot root oracle fds).world)
    (hwritten : ∀ e ∈ (run exec ops (boot root oracle fds).world).k.trace, e.isFailure = false)
    (i : Nat)
    (hact : ((run exec ops (boot root oracle fds).world).svc i).active = true) :
    ∃ now, (run exec ops (boot root oracle fds).world).k.lastReport
        (statusPath ((run exec ops (boot root oracle fds).world).svc i)) =
      some (some (statusText ((run exec ops (boot root oracle fds).world).svc i) now).bytes) :=
  ((run_truthful (boot_truthful root oracle fds) hnames hrun).shows i hact).written hwritten

/-- `a` is added and started, and a client stops it. -/
def stopRequested : List Op :=
  [.scanEntry (bytesOf "a"), .start 0 0, .request (bytesOf "stop a")]

/-- The table then. -/
def toldByClient : World := run exec stopRequested (openingOn plainFiles).world

/-- A service that a client has stopped. -/
theorem status_truthful_stopped : (toldByClient.svc 0).state = .stopping ∧
    ∃ now, toldByClient.k.lastReport (statusPath (toldByClient.svc 0)) =
      some (some (statusText (toldByClient.svc 0) now).bytes) := by
  have hnames : ∀ name, Op.scanEntry name ∈ stopRequested → 47 ∉ name := by
    intro name hmem
    obtain rfl : name = bytesOf "a" := by simpa [stopRequested] using hmem
    decide
  -- the directory is new
  have hnew : findServiceByDir (openingOn plainFiles).world
      (serviceDir (openingOn plainFiles).world.root (bytesOf "a")) = none := by decide +kernel
  have hrun : Along exec (fun w op => op.Rewrites w) stopRequested (openingOn plainFiles).world := by
    refine ⟨fun i hfound => ?_, trivial, trivial, trivial⟩
    cases hnew.symm.trans hfound.find
  obtain ⟨hact, hstate, hwritten⟩ : (toldByClient.svc 0).active = true ∧
      (toldByClient.svc 0).state = .stopping ∧
      ∀ e ∈ toldByClient.k.trace, e.isFailure = false := by decide +kernel
  refine ⟨hstate, ?_⟩
  unfold toldByClient openingOn at hwritten hact
  have htruth := status_truthful (CStrBuf.fromBytes (bytesOf "/s")) (opening plainFiles) [0, 1, 2]
    hnames hrun hwritten 0 hact
  unfold toldByClient openingOn
  exact htruth

/-! ## Stale files -/

/-- No write failed, and yet the file does not show the record, whatever the time. -/
structure Stale (w : World) (i : Nat) : Prop where
  active : (w.svc i).active = true
  written : ∀ e ∈ w.k.trace, e.isFailure = false
  differs : ∀ now, w.k.lastReport (statusPath (w.svc i)) ≠
    some (some (statusText (w.svc i) now).bytes)

/-- While a service is not RUNNING, its status does not depend on the time. -/
theorem statusText_idle {s : Service} (h : s.state ≠ .running) (now : Int) :
    statusText s now = statusText s 0 := by
  have huptime : ∀ now, s.uptimeSeconds now = 0 := fun now => if_neg fun hrun => h hrun.1
  simp only [statusText, huptime]

/-- The directory of `a` is gone while `a` runs: the table before the second `poll`. -/
def vanished : World :=
  (loopTop { listing := some [] }
    (mainLoop [{ listing := some [bytesOf "a"], elapsed := 15 }] (openingOn plainFiles))).world

/-- A service `a` that is down, with this `user` file. -/
def ownedFiles (user : String) : FileSys where
  access path _ := path = bytesOf "/s/a/run" || path = bytesOf "/s/a/down"
  read path := if path = bytesOf "/s/a/user" then some (bytesOf user) else none

/-- The `user` file changes between two scans: the table before the second `poll`. -/
def reowned : World :=
  (loopTop { listing := some [bytesOf "a"] }
    (mainLoop [{ listing := some [bytesOf "a"], elapsed := 15 }]
      (boot (CStrBuf.fromBytes (bytesOf "/s"))
        (fun n => opening (ownedFiles (if n < 16 then "1000" else "1001")) n) [0, 1, 2]))).world

/-- `a` is STOPPING and its file says `running`; `a` has the uid 1001 and its file says 1000. -/
theorem status_stale : (Reachable vanished ∧ Stale vanished 0) ∧
    Reachable reowned ∧ Stale reowned 0 := by
  have hloop : ∀ (p : Pass) (ps : List Pass) (root : CStrBuf) (oracle : Nat → Answer) (fds : List Int),
      Reachable (loopTop p (mainLoop ps (boot root oracle fds))).world := fun p ps root oracle fds =>
    ⟨root, oracle, fds, (mainLoop_performs ps _).trans (loopTop_performs p _)⟩
  have hstale : ∀ w : World, ((w.svc 0).active = true ∧ (w.svc 0).state ≠ .running ∧
      (∀ e ∈ w.k.trace, e.isFailure = false) ∧
      w.k.lastReport (statusPath (w.svc 0)) ≠ some (some (statusText (w.svc 0) 0).bytes)) →
      Stale w 0 := by
    rintro w ⟨hact, hidle, hwritten, hne⟩
    refine ⟨hact, hwritten, fun now => ?_⟩
    rw [statusText_idle hidle]
    exact hne
  -- a record that is not RUNNING has the same text at any time
  refine ⟨⟨hloop _ _ _ _ _, hstale vanished ?_⟩, hloop _ _ _ _ _, hstale reowned ?_⟩
  · decide +kernel
  · decide +kernel

end SvcRs
