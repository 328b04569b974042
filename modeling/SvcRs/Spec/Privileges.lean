import SvcRs.Spec.PreExec
import SvcRs.Spec.Run

/-!
# User and group of the children

The three children that drop privileges check the real uid afterwards, but not the group;
they set the group only together with a uid; and `log/run` does not drop anything.

## Key results

- `dropped_ids`: the ids that `dropPrivileges` leaves
- `privileges_dropped_iff`: when a child gets to `execve` only with the ids of its service
- `logger_keeps_root`: configurations in which it does not
-/

namespace SvcRs

/-- The process has the ids that the `user` and `group` files resolved to. -/
structure HasIds (s : Service) (c : Creds) : Prop where
  uid : s.hasUid = true → c.ruid = s.uid
  gid : s.gid ≠ 0 → c.rgid = s.gid ∧ c.egid = s.gid

/-- The child gets to `execve` only with these ids. -/
def PrivilegesDropped (s : Service) (kind : ChildKind) (p : Proc) : Prop :=
  ∀ q, Execs (child s kind) p q → HasIds s q.creds

/-- The group is the service's own: because `setgid` was called and worked, or from the
    beginning. -/
def GroupReached (s : Service) (p : Proc) : Prop :=
  let c := if s.hasUid && p.env.setgid then p.creds.setgid s.gid else p.creds
  c.rgid = s.gid ∧ c.egid = s.gid

/-! ## The ids after each call -/

/-- `setgroups` leaves the group ids alone. -/
theorem Creds.setgroups_gids (c : Creds) (gid : UInt32) :
    (c.setgroups gid).rgid = c.rgid ∧ (c.setgroups gid).egid = c.egid := by
  unfold Creds.setgroups
  split <;> exact ⟨rfl, rfl⟩

/-- So does `setuid`. -/
theorem Creds.setuid_gids (c : Creds) (uid : UInt32) :
    (c.setuid uid).rgid = c.rgid ∧ (c.setuid uid).egid = c.egid := by
  unfold Creds.setuid
  split
  · exact ⟨rfl, rfl⟩
  · split
    · exact ⟨rfl, rfl⟩
    · split <;> exact ⟨rfl, rfl⟩

section

variable {s : Service} {p : Proc}

/-- `setgroups` comes between `setgid` and `setuid`, and neither of the two later calls
    changes the group. -/
theorem dropped_gids (hgid : s.gid ≠ 0) :
    (dropped s p).rgid = (if s.hasUid && p.env.setgid then p.creds.setgid s.gid else p.creds).rgid ∧
      (dropped s p).egid =
        (if s.hasUid && p.env.setgid then p.creds.setgid s.gid else p.creds).egid := by
  -- a group is set only together with a user
  unfold dropped
  cases s.hasUid with
  | false => exact ⟨rfl, rfl⟩
  | true =>
    simp only [Bool.true_and, if_true, grouped, if_neg hgid]
    generalize (if p.env.setgid = true then p.creds.setgid s.gid else p.creds) = c
    have hgroups := c.setgroups_gids s.gid
    have huid := (c.setgroups s.gid).setuid_gids s.uid
    have huid' := c.setuid_gids s.uid
    -- `setgroups` and `setuid` leave the group ids alone, whether they are called or not
    split <;> split
    · exact ⟨huid.1.trans hgroups.1, huid.2.trans hgroups.2⟩
    · exact huid'
    · exact hgroups
    · exact ⟨rfl, rfl⟩

/-- After the check of the uid, only the group is open. -/
theorem dropped_ids (huid : s.hasUid = true → (dropped s p).ruid = s.uid) :
    HasIds s (dropped s p) ↔ (s.gid ≠ 0 → GroupReached s p) := by
  constructor
  · intro h hgid
    have hids := h.gid hgid
    rw [(dropped_gids hgid).1, (dropped_gids hgid).2] at hids
    exact hids
  · intro h
    refine ⟨huid, fun hgid => ?_⟩
    rw [(dropped_gids hgid).1, (dropped_gids hgid).2]
    exact h hgid

end

/-- Of the children that get to `execve`, `log/run` has the right ids only if the supervisor
    has, and the others only if the group is reached. -/
theorem privileges_dropped_iff (s : Service) (kind : ChildKind) (p : Proc) :
    PrivilegesDropped s kind p ↔
      (Admitted s kind p →
        if kind.drops then s.gid ≠ 0 → GroupReached s p else HasIds s p.creds) := by
  have hcreds : (atExec s p kind).creds = if kind.drops then dropped s p else p.creds := by
    cases kind with
    | logRun => simp [atExec, ChildKind.drops]
    | run | finish | check => rfl
  -- only a child that is admitted gets as far as `execve`
  have honly : PrivilegesDropped s kind p ↔
      (Admitted s kind p → HasIds s (if kind.drops then dropped s p else p.creds)) := by
    unfold PrivilegesDropped
    rw [← hcreds]
    constructor
    · intro h hadmitted
      exact h _ ((execs_child kind).mpr ⟨hadmitted, rfl⟩)
    · intro h q hexecs
      obtain ⟨hadmitted, hq⟩ := (execs_child kind).mp hexecs
      rw [hq]
      exact h hadmitted
  rw [honly]
  cases hdrops : kind.drops with
  -- a logger keeps the ids of the supervisor
  | false => exact Iff.rfl
  | true =>
    simp only [if_true]
    constructor
    · intro h hadmitted
      exact (dropped_ids (hadmitted.uid hdrops)).mp (h hadmitted)
    · intro h hadmitted
      exact (dropped_ids (hadmitted.uid hdrops)).mpr (h hadmitted)

/-- A child of a supervisor that runs as root, on a system where no call fails. -/
def rootProc : Proc := { env := {}, creds := {}, fds := [], limit := fun _ => 1024 }

/-- A service `a` with `log/run`, the user 1000 and the group 100, and a service `b` with the
    group 100 only. -/
def idFiles : FileSys where
  access path _ := path = bytesOf "/s/a/run" || path = bytesOf "/s/a/log/run" ||
    path = bytesOf "/s/b/run"
  read path :=
    if path = bytesOf "/s/a/user" then some (bytesOf "1000\n")
    else if path = bytesOf "/s/a/group" || path = bytesOf "/s/b/group" then some (bytesOf "100\n")
    else none

/-- After the first scan. -/
def idStarted : World :=
  (mainLoop [{ listing := some [bytesOf "a", bytesOf "b"] }] (bootOn idFiles)).world

/-- `log/run` of `a` is executed as root, `run` of `b` in the group of root, and so is
    `finish` of `a` when `setgid` fails. -/
theorem logger_keeps_root :
    ((idStarted.svc 0).hasUid = true ∧ (idStarted.svc 0).uid = 1000 ∧ (idStarted.svc 0).gid = 100 ∧
      (∀ r w, ¬PrivilegesDropped (idStarted.svc 0) (.logRun r w) rootProc) ∧
      ¬PrivilegesDropped (idStarted.svc 0) .finish { rootProc with env := { setgid := false } }) ∧
    ((idStarted.svc 1).hasUid = false ∧ (idStarted.svc 1).gid = 100 ∧
      ∀ sf, ¬PrivilegesDropped (idStarted.svc 1) (.run sf) rootProc) := by
  have huser : (idStarted.svc 0).hasUid = true ∧ (idStarted.svc 0).uid = 1000 ∧
      (idStarted.svc 0).gid = 100 := by decide +kernel
  have hgroup : (idStarted.svc 1).hasUid = false ∧ (idStarted.svc 1).gid = 100 := by
    decide +kernel
  generalize idStarted.svc 0 = a at huser ⊢
  generalize idStarted.svc 1 = b at hgroup ⊢
  refine ⟨⟨huser.1, huser.2.1, huser.2.2, fun r w h => ?_, fun h => ?_⟩,
    ⟨hgroup.1, hgroup.2, fun sf h => ?_⟩⟩
  -- the logger's child makes no such call at all
  · have hadmitted : Admitted a (.logRun r w) rootProc := ⟨fun _ => rfl, nofun, rfl⟩
    have hids := h _ ((execs_child _).mpr ⟨hadmitted, rfl⟩)
    have huid := hids.uid huser.1
    simp [atExec, rootProc, huser.2.1] at huid
  -- `setgid` fails, and nothing checks it afterwards
  · have hadmitted : Admitted a .finish { rootProc with env := { setgid := false } } := by
      refine ⟨fun _ => rfl, fun _ _ => ?_, rfl⟩
      simp only [dropped, huser.1, huser.2.1, huser.2.2, grouped]
      decide
    have hids := h _ ((execs_child _).mpr ⟨hadmitted, rfl⟩)
    have hgid := (hids.gid (by rw [huser.2.2]; decide)).1
    simp only [atExec, dropped, huser.1, huser.2.1, huser.2.2, grouped] at hgid
    exact absurd hgid (by decide)
  -- a group without a user is never set
  · have hadmitted : Admitted b (.run sf) rootProc :=
      ⟨fun _ => rfl, fun _ hno => absurd (hgroup.1.symm.trans hno) (by decide), rfl⟩
    have hids := h _ ((execs_child _).mpr ⟨hadmitted, rfl⟩)
    have hgid := (hids.gid (by rw [hgroup.2]; decide)).1
    simp [atExec, dropped, hgroup.1, hgroup.2, rootProc] at hgid

end SvcRs
