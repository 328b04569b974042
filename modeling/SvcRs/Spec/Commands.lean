import SvcRs.Spec.Run

/-!
# Requests that name a service

What a request does to the record it names: the core of the record after each of the
six commands, and the request as an operation of a run.

## Key results

- `acceptCmd_core`: the core record after a command
- `request_svc`: a request that names an active service is answered OK
- `request_core`: what the request leaves in the record
-/

namespace SvcRs

/-! ## The record after a command -/

/-- The signals leave the record's core alone. -/
theorem stopSignals_core (s : Service) (k : Kernel) : (stopSignals s k).1.core = s.core :=
  (stopSignals_drifts (S := anyKind) (w := ⟨CStrBuf.new, 0, fun _ => s, k⟩) (i := 0) s).post k

/-- So does the status file after them. -/
theorem stopStatus_core (s : Service) (k : Kernel) :
    ((do
      let s ← stopSignals s
      writeStatusFile s
      return s) k).1.core = s.core := stopSignals_core s k

/-- The clock reading of `up`. -/
def upReading (s : Service) (k : Kernel) : Int :=
  (emit (.unlinked (joinPath s.dir "/down")) k).2.reading

/-- The core after a command. -/
theorem acceptCmd_core (cmd : SvcCmd) (i : Nat) (s : Service) (k : Kernel) :
    (acceptCmd cmd i s k).1.core =
      s.core.command (upReading s (emit (.accepted cmd i) k).2) cmd := by
  cases cmd with
  | start | up | once => rfl
  | stop | restart => exact stopStatus_core _ _
  | down =>
    simp only [acceptCmd, runSvcCmd, downCmd, Sys.bind_apply, Core.command]
    -- `down` stops the process, if there is one
    by_cases hpid : 0 < s.pid
    · rw [if_pos hpid, if_pos (show 0 < s.core.pid from hpid)]
      exact stopStatus_core _ _
    · rw [if_neg hpid, if_neg (show ¬0 < s.core.pid from hpid)]
      rfl

/-! ## The request -/

/-- The table when the command gets to its record: `stop` has looked at the dependents. -/
def beforeCmd (cmd : SvcCmd) (w : World) : World :=
  if cmd = .stop then (stopTransitiveDeps w).2 else w

/-- What happens before a command is carried out only stops services. -/
theorem beforeCmd_tells (cmd : SvcCmd) (w : World) : Tells w (beforeCmd cmd w) := by
  unfold beforeCmd
  split
  · exact stopTransitiveDeps_tells.rel w
  · exact Std.Refl.refl w

/-- A request that names an active service is answered OK. -/
theorem request_svc {w : World} {line : Bytes} {cmd : SvcCmd} {i : Nat}
    (h : Accepts w line cmd i) :
    respond line w = (formatOk (svcCmdDone cmd),
      (onSlot i (acceptCmd cmd i) (beforeCmd cmd w)).2) := by
  obtain ⟨hrequest, harg, hfound⟩ := h
  unfold respond
  generalize splitCmd line = r at hrequest harg hfound ⊢
  obtain ⟨word, arg⟩ := r
  simp only at hrequest harg hfound
  simp only [hrequest, svcCommand, withService, if_neg harg, Sup.get_bind, hfound, beforeCmd]
  -- only `stop` stops the dependents before it changes the record
  by_cases hstop : cmd = .stop
  · subst hstop
    rfl
  · rw [if_neg hstop, if_neg hstop]
    rfl

/-- The request as an operation of a run. -/
theorem request_exec {w : World} {line : Bytes} {cmd : SvcCmd} {i : Nat}
    (h : Accepts w line cmd i) : exec (.request line) w =
      (liftSys (reply (respond line w).1) (onSlot i (acceptCmd cmd i) (beforeCmd cmd w)).2).2 := by
  simp only [exec, handleControlCommand, Sup.bind_apply, request_svc h]

/-- The request changes no other record after that. -/
theorem request_other {w : World} {line : Bytes} {cmd : SvcCmd} {i j : Nat}
    (h : Accepts w line cmd i) (hj : j ≠ i) :
    (exec (.request line) w).svc j = (beforeCmd cmd w).svc j := by
  rw [request_exec h]
  show ((onSlot i (acceptCmd cmd i) (beforeCmd cmd w)).2).svc j = _
  rw [onSlot_svc, if_neg hj]

/-- The record that the request named, as an operation of a run leaves it. -/
theorem request_core {w : World} {line : Bytes} {cmd : SvcCmd} {i : Nat}
    (h : Accepts w line cmd i) : ∃ t,
    ((exec (.request line) w).svc i).core = ((beforeCmd cmd w).svc i).core.command t cmd := by
  rw [request_exec h]
  show ∃ t, (((onSlot i (acceptCmd cmd i) (beforeCmd cmd w)).2).svc i).core = _
  rw [onSlot_svc, if_pos rfl]
  exact ⟨_, acceptCmd_core cmd i _ _⟩

/-- An accepted request names a slot of the table. -/
theorem Accepts.inTable {w : World} {line : Bytes} {cmd : SvcCmd} {i : Nat}
    (h : Accepts w line cmd i) : i < w.size := (w.findSlot_some h.found).1

/-- An accepted request names an active service. -/
theorem Accepts.active {w : World} {line : Bytes} {cmd : SvcCmd} {i : Nat}
    (h : Accepts w line cmd i) : (w.svc i).active = true := by
  have hfound := (w.findSlot_some h.found).2
  simp only [Bool.and_eq_true] at hfound
  exact hfound.1

end SvcRs
