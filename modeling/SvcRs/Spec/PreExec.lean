import SvcRs.Native.Child

/-!
# Children that reach `execve`

`Execs m p q`: run in `p`, the child gets to `execve` and is in `q` there. The lemmas
below say what each part of the pre-exec code needs for that and what it leaves behind,
so that each child comes down to one equivalence.

## Key results

- `execs_child`: when each of the four children reaches `execve`, and in which state
-/

namespace SvcRs

/-- The second part runs if the first goes on. -/
theorem PreExec.bind_apply {α β : Type} (m : PreExec α) (g : α → PreExec β) (p : Proc) :
    (m >>= g) p = match m p with
      | (.ok a, p') => g a p'
      | (.error e, p') => (.error e, p') := by
  show (ExceptT.bindCont g (m p).1 : StateM Proc _) (m p).2 = _
  rcases m p with ⟨_ | a, p'⟩ <;> rfl

/-- The child gets as far as `execve`, in the state `q`. -/
def Execs (m : PreExec Unit) (p q : Proc) : Prop := ∃ path args, m p = (.error (.exec path args), q)

/-! ## Parts that always go on -/

/-- `m` goes on, in the state `f p`. -/
def GoesOn (m : PreExec Unit) (f : Proc → Proc) : Prop := ∀ p, m p = (.ok (), f p)

section

variable {m m' : PreExec Unit} {f f' : Proc → Proc} {p q : Proc}

/-- What follows begins in the state after it. -/
theorem GoesOn.bind_apply (h : GoesOn m f) (g : Unit → PreExec Unit) (p : Proc) :
    (m >>= g) p = g () (f p) := by
  rw [PreExec.bind_apply, h p]

/-- One after the other. -/
theorem GoesOn.seq (h : GoesOn m f) (h' : GoesOn m' f') :
    GoesOn (do m; m') fun p => f' (f p) := by
  intro p
  rw [h.bind_apply]
  exact h' (f p)

/-- What follows decides. -/
theorem GoesOn.execs (h : GoesOn m f) (g : Unit → PreExec Unit) :
    Execs (m >>= g) p q ↔ Execs (g ()) (f p) q := by
  unfold Execs
  rw [h.bind_apply]

end

/-- The limits after `set_rlimit!`, and nothing else. -/
def limited (s : Service) (r : Rlimit) (p : Proc) : Proc :=
  match readRlimitValue p.env s r with
  | none => p
  | some val =>
    if p.env.setrlimit r then { p with limit := fun q => if q = r then val else p.limit q } else p

/-- The process after its nice value has been set. -/
def reniced (s : Service) (p : Proc) : Proc :=
  match readNiceValue p.env s with
  | none => p
  | some n => if p.env.nice then { p with niceness := p.niceness + n } else p

/-- After `apply_security_restrictions`. -/
def secured (s : Service) (p : Proc) : Proc :=
  reniced s (limited s .core (limited s .nproc (limited s .fsize (limited s .nofile
    (limited s .as (limited s .cpu p))))))

/-- Limits and nice value do not stop the child, whether they can be set or not. -/
theorem applySecurityRestrictions_goesOn (s : Service) :
    GoesOn (applySecurityRestrictions s) (secured s) := fun _ => rfl

/-- What a limit leaves alone. -/
theorem limited_frame (s : Service) (r : Rlimit) (p : Proc) :
    (limited s r p).env = p.env ∧ (limited s r p).creds = p.creds ∧
      (limited s r p).fds = p.fds ∧ ∀ q, q ≠ r → (limited s r p).limit q = p.limit q := by
  unfold limited
  split
  · exact ⟨rfl, rfl, rfl, fun _ _ => rfl⟩
  · split
    · exact ⟨rfl, rfl, rfl, fun _ hq => if_neg hq⟩
    · exact ⟨rfl, rfl, rfl, fun _ _ => rfl⟩

/-- The nice value is all that changes. -/
theorem reniced_frame (s : Service) (p : Proc) :
    (reniced s p).env = p.env ∧ (reniced s p).creds = p.creds ∧
      (reniced s p).fds = p.fds ∧ (reniced s p).limit = p.limit := by
  unfold reniced
  split
  · exact ⟨rfl, rfl, rfl, rfl⟩
  · split <;> exact ⟨rfl, rfl, rfl, rfl⟩

section

variable (s : Service) (p : Proc)

@[simp] theorem limited_env (r : Rlimit) : (limited s r p).env = p.env := (limited_frame s r p).1
@[simp] theorem limited_creds (r : Rlimit) : (limited s r p).creds = p.creds :=
  (limited_frame s r p).2.1
@[simp] theorem limited_fds (r : Rlimit) : (limited s r p).fds = p.fds :=
  (limited_frame s r p).2.2.1
@[simp] theorem reniced_env : (reniced s p).env = p.env := (reniced_frame s p).1
@[simp] theorem reniced_creds : (reniced s p).creds = p.creds := (reniced_frame s p).2.1
@[simp] theorem reniced_fds : (reniced s p).fds = p.fds := (reniced_frame s p).2.2.1

@[simp] theorem secured_env : (secured s p).env = p.env := by simp [secured]
@[simp] theorem secured_creds : (secured s p).creds = p.creds := by simp [secured]
@[simp] theorem secured_fds : (secured s p).fds = p.fds := by simp [secured]

/-- The limit on descriptors that is in force after `apply_security_restrictions`. -/
def nofileLimit : Nat :=
  match readRlimitValue p.env s .nofile with
  | none => p.limit .nofile
  | some val => if p.env.setrlimit .nofile then val else p.limit .nofile

/-- Only one of the restrictions is about descriptors. -/
theorem secured_nofile : (secured s p).limit .nofile = nofileLimit s p := by
  have hother : ∀ r, Rlimit.nofile ≠ r → ∀ p, (limited s r p).limit .nofile = p.limit .nofile :=
    fun r hr p => (limited_frame s r p).2.2.2 _ hr
  unfold secured
  rw [(reniced_frame s _).2.2.2, hother _ (by decide), hother _ (by decide), hother _ (by decide)]
  -- the other limits and the priority leave this one alone
  have hbefore : (limited s .as (limited s .cpu p)).limit .nofile = p.limit .nofile := by
    rw [hother _ (by decide), hother _ (by decide)]
  have henv : (limited s .as (limited s .cpu p)).env = p.env := by simp
  generalize limited s .as (limited s .cpu p) = p' at hbefore henv
  unfold limited nofileLimit
  rw [henv]
  split
  · exact hbefore
  · split
    · simp
    · exact hbefore

end

/-! ## Root directory and credentials -/

/-- `chroot` succeeds, or is not asked for. -/
def RootEntered (s : Service) (p : Proc) : Prop := s.chrootEnabled = true → p.env.chroot = true

/-- The ids after `setgid` and `setgroups`. -/
def grouped (gid : UInt32) (p : Proc) : Creds :=
  if gid = 0 then p.creds
  else
    let c := if p.env.setgid then p.creds.setgid gid else p.creds
    if p.env.setgroups then c.setgroups gid else c

/-- The ids after `setuid`, too. -/
def dropped (s : Service) (p : Proc) : Creds :=
  if s.hasUid then
    if p.env.setuid then (grouped s.gid p).setuid s.uid else grouped s.gid p
  else p.creds

section

variable {s : Service} {p q : Proc}

/-- A part that may end the child with `_exit`. -/
theorem exits_execs {m : PreExec Unit} {c : Prop} [Decidable c] {code : Int} {f : Proc → Proc}
    (h : m p = if c then (.error (.exit code), f p) else (.ok (), f p)) (g : Unit → PreExec Unit) :
    Execs (m >>= g) p q ↔ ¬c ∧ Execs (g ()) (f p) q := by
  unfold Execs
  -- the child ends here, or goes on with what it has
  rw [PreExec.bind_apply, h]
  by_cases hc : c
  · rw [if_pos hc]
    constructor
    · intro ⟨_, _, he⟩
      cases he
    · intro ⟨hno, _⟩
      exact absurd hc hno
  · rw [if_neg hc]
    exact ⟨fun he => ⟨hc, he⟩, And.right⟩

/-- The child goes on only from inside its root directory. -/
theorem enterRoot_execs (g : Unit → PreExec Unit) :
    Execs (enterRoot s >>= g) p q ↔ RootEntered s p ∧ Execs (g ()) p q := by
  have h : enterRoot s p =
      if (s.chrootEnabled && !p.env.chroot) = true then (.error (.exit 126), p) else (.ok (), p) :=
    rfl
  rw [exits_execs (f := id) h]
  have hroot : RootEntered s p ↔ ¬(s.chrootEnabled && !p.env.chroot) = true := by
    simp [RootEntered]
  rw [hroot]
  rfl

/-- `setgid` may fail; the child goes on. -/
theorem setgid_goesOn (gid : UInt32) : GoesOn (setgid gid) fun p =>
    { p with creds := if p.env.setgid then p.creds.setgid gid else p.creds } := by
  intro p
  show (Except.ok (), _) = _
  cases hcall : p.env.setgid <;> simp [hcall]

/-- So does it after `setgroups`. -/
theorem setgroups_goesOn (gid : UInt32) : GoesOn (setgroups gid) fun p =>
    { p with creds := if p.env.setgroups then p.creds.setgroups gid else p.creds } := by
  intro p
  show (Except.ok (), _) = _
  cases hcall : p.env.setgroups <;> simp [hcall]

/-- And after `setuid`. -/
theorem setuid_goesOn (uid : UInt32) : GoesOn (setuid uid) fun p =>
    { p with creds := if p.env.setuid then p.creds.setuid uid else p.creds } := by
  intro p
  show (Except.ok (), _) = _
  cases hcall : p.env.setuid <;> simp [hcall]

/-- Both calls for the group. -/
theorem setGroup_goesOn (gid : UInt32) :
    GoesOn (setGroup gid) fun p => { p with creds := grouped gid p } := by
  by_cases hgid : gid = 0
  · subst hgid
    exact fun _ => rfl
  · have hcalls : setGroup gid = (do setgid gid; setgroups gid) := if_pos hgid
    rw [hcalls]
    intro p
    rw [((setgid_goesOn gid).seq (setgroups_goesOn gid)) p]
    simp only [grouped, if_neg hgid]

/-- The child goes on if its real uid is the one that it was to get. -/
theorem dropPrivileges_execs (g : Unit → PreExec Unit) :
    Execs (dropPrivileges s >>= g) p q ↔ (s.hasUid = true → (dropped s p).ruid = s.uid) ∧
      Execs (g ()) { p with creds := dropped s p } q := by
  -- what the three calls and the check come to: exit 125, or the new ids
  have hrun : dropPrivileges s p = if s.hasUid = true ∧ (dropped s p).ruid ≠ s.uid then
      (.error (.exit 125), { p with creds := dropped s p })
      else (.ok (), { p with creds := dropped s p }) := by
    cases huid : s.hasUid with
    | false =>
      -- without a user nothing is called and nothing is checked
      have hskip : dropPrivileges s = pure () := by simp only [dropPrivileges, huid]; rfl
      rw [hskip, dropped, huid, if_neg (by simp)]
      rfl
    | true =>
      have hcalls : dropPrivileges s = (do setGroup s.gid; setuid s.uid; checkUid s.uid) := by
        simp only [dropPrivileges, huid, if_true]
      rw [hcalls, (setGroup_goesOn s.gid).bind_apply, (setuid_goesOn s.uid).bind_apply]
      simp only [checkUid, dropped, huid, if_true, true_and]
      rfl
  rw [exits_execs (f := fun p => { p with creds := dropped s p }) hrun]
  simp only [not_and, ne_eq, Decidable.not_not]

/-- The child executes the file, or exits. -/
theorem execOrExit_execs (path : Bytes) (args : List Bytes) (code : Int) :
    Execs (execOrExit path args code) p q ↔ p.env.execve = true ∧ q = p := by
  -- `execve` failed, and the child ends with its code
  unfold Execs execOrExit
  cases p.env.execve with
  | false =>
    constructor
    · intro ⟨_, _, he⟩
      cases he
    · intro ⟨hno, _⟩
      cases hno
  | true =>
    constructor
    · intro ⟨_, _, he⟩
      cases he
      exact ⟨rfl, rfl⟩
    · intro ⟨_, he⟩
      exact ⟨path, args, by rw [he]; rfl⟩

end

/-! ## Descriptors -/

/-- The descriptors after the redirection of `stdin`. -/
def stdinFds (env : ChildEnv) (fds : List Fd) : List Fd :=
  let null := env.openNull
  if 0 ≤ null && !isOpen fds null then
    let fds := ⟨null, false⟩ :: fds
    let fds := if env.dup2 0 then dupNum null 0 fds else fds
    if null ≠ 0 then closeNum null fds else fds
  else fds

/-- Closing a descriptor. -/
theorem closeChildFd_goesOn (num : Int) :
    GoesOn (closeChildFd num) fun p => { p with fds := closeNum num p.fds } := fun _ => rfl

/-- Duplicating one. -/
theorem dup2_goesOn (old new : Int) : GoesOn (dup2 old new) fun p =>
    { p with fds := if p.env.dup2 new then dupNum old new p.fds else p.fds } := by
  intro p
  show (Except.ok (), _) = _
  cases hcall : p.env.dup2 new <;> simp [hcall]

/-- The standard input. -/
theorem redirectStdin_goesOn : GoesOn redirectStdin fun p => { p with fds := stdinFds p.env p.fds } := by
  intro p
  unfold redirectStdin stdinFds
  rw [PreExec.bind_apply]
  by_cases hopen : (0 ≤ p.env.openNull && !isOpen p.fds p.env.openNull) = true
  · have hnull : 0 ≤ p.env.openNull := by simpa using (Bool.and_eq_true_iff.mp hopen).1
    simp only [openNull, if_pos hopen, ge_iff_le, if_pos hnull]
    -- if `open` answered 0, input is `/dev/null` already
    rw [(dup2_goesOn _ _).bind_apply]
    by_cases hzero : p.env.openNull = 0
    · rw [if_neg (not_not_intro hzero), if_neg (not_not_intro hzero)]
      rfl
    · rw [if_pos hzero, if_pos hzero]
      rfl
  · simp only [openNull, if_neg hopen]
    rfl

/-- The descriptors after the redirection of `stdout` and `stderr`. -/
def outputFds (s : Service) (sf : StartFds) (env : ChildEnv) (fds : List Fd) : List Fd :=
  let dupIf := fun old new fds => if env.dup2 new then dupNum old new fds else fds
  if s.hasLog then closeNum sf.out0 (dupIf sf.out0 2 (dupIf sf.out0 1 fds))
  else
    closeNum sf.err1 (closeNum sf.out1 (closeNum sf.err0 (closeNum sf.out0
      (dupIf sf.err1 2 (dupIf sf.out1 1 fds)))))

/-- The standard output and the standard error. -/
theorem redirectOutput_goesOn (s : Service) (sf : StartFds) :
    GoesOn (redirectOutput s sf) fun p => { p with fds := outputFds s sf p.env p.fds } := by
  intro p
  -- one end with a logger, two and two without
  unfold redirectOutput outputFds
  cases s.hasLog with
  | true =>
    simp only [if_true]
    rw [(dup2_goesOn _ _).bind_apply, (dup2_goesOn _ _).bind_apply]
    rfl
  | false =>
    simp only [Bool.false_eq_true, if_false]
    rw [(dup2_goesOn _ _).bind_apply, (dup2_goesOn _ _).bind_apply,
      (closeChildFd_goesOn _).bind_apply, (closeChildFd_goesOn _).bind_apply,
      (closeChildFd_goesOn _).bind_apply]
    rfl

/-- The descriptors that `close_from(min)` leaves under this limit. -/
def closedFrom (min : Int) (nofile : Nat) (fds : List Fd) : List Fd :=
  closeLoop (closeBound nofile - min).toNat min fds

/-- Closing all descriptors from one on. -/
theorem closeFrom_goesOn (min : Int) : GoesOn (closeFrom min) fun p =>
    { p with fds := closedFrom min (p.limit .nofile) p.fds } := fun _ => rfl

/-! ## The four children -/

/-- Every child but `log/run` goes through `dropPrivileges`. -/
def ChildKind.drops : ChildKind → Bool
  | .logRun .. => false
  | _ => true

/-- None of the results that the child looks at keeps it from `execve`. -/
structure Admitted (s : Service) (kind : ChildKind) (p : Proc) : Prop where
  root : RootEntered s p
  uid : kind.drops = true → s.hasUid = true → (dropped s p).ruid = s.uid
  execve : p.env.execve = true

/-- The state in which the child gets to `execve`. -/
def atExec (s : Service) (p : Proc) : ChildKind → Proc
  | .run sf => { secured s p with
      creds := dropped s p
      fds := closedFrom 3 (nofileLimit s p) (outputFds s sf p.env (stdinFds p.env p.fds)) }
  | .logRun pipeRead pipeWrite => secured s { p with
      fds := closedFrom 3 (p.limit .nofile) (closeNum pipeWrite (closeNum pipeRead
        (if p.env.dup2 0 then dupNum pipeRead 0 p.fds else p.fds))) }
  | .finish | .check => { secured s p with creds := dropped s p }

section

variable {s : Service} {p q : Proc}

/-- Limits do not matter for the root directory. -/
theorem rootEntered_secured : RootEntered s (secured s p) ↔ RootEntered s p := by
  unfold RootEntered
  rw [secured_env]

/-- Nor for the ids. -/
theorem dropped_secured : dropped s (secured s p) = dropped s p := by
  unfold dropped grouped
  rw [secured_env, secured_creds]

/-- `finish` and `check` differ in what they execute only. -/
theorem execs_script (path : Bytes) (args : List Bytes) (code : Int) :
    Execs (do
        applySecurityRestrictions s
        enterRoot s
        dropPrivileges s
        execOrExit path args code) p q ↔
      (RootEntered s p ∧ (s.hasUid = true → (dropped s p).ruid = s.uid) ∧ p.env.execve = true) ∧
        q = { secured s p with creds := dropped s p } := by
  rw [(applySecurityRestrictions_goesOn s).execs, enterRoot_execs, dropPrivileges_execs,
    execOrExit_execs, rootEntered_secured, dropped_secured]
  simp only [secured_env, and_assoc]

/-- When the main process is executed, and how. -/
theorem execs_mainChild (sf : StartFds) : Execs (mainChild s sf) p q ↔
    (RootEntered s p ∧ (s.hasUid = true → (dropped s p).ruid = s.uid) ∧ p.env.execve = true) ∧
      q = atExec s p (.run sf) := by
  unfold mainChild
  rw [(applySecurityRestrictions_goesOn s).execs, enterRoot_execs, dropPrivileges_execs,
    redirectStdin_goesOn.execs, (redirectOutput_goesOn s sf).execs, (closeFrom_goesOn 3).execs,
    execOrExit_execs, rootEntered_secured, dropped_secured]
  simp only [secured_env, secured_fds, secured_nofile, and_assoc, atExec]

/-- When the logger is executed, and how. -/
theorem execs_loggerChild (pipeRead pipeWrite : Int) :
    Execs (loggerChild s pipeRead pipeWrite) p q ↔
      (RootEntered s p ∧ p.env.execve = true) ∧ q = atExec s p (.logRun pipeRead pipeWrite) := by
  unfold loggerChild
  rw [(dup2_goesOn _ _).execs, (closeChildFd_goesOn _).execs, (closeChildFd_goesOn _).execs,
    (closeFrom_goesOn 3).execs, (applySecurityRestrictions_goesOn s).execs, enterRoot_execs,
    execOrExit_execs, rootEntered_secured]
  unfold RootEntered
  simp only [secured_env, and_assoc, atExec]

/-- Any kind of child. -/
theorem execs_child (kind : ChildKind) :
    Execs (child s kind) p q ↔ Admitted s kind p ∧ q = atExec s p kind := by
  have hadmitted : Admitted s kind p ↔ RootEntered s p ∧
      (kind.drops = true → s.hasUid = true → (dropped s p).ruid = s.uid) ∧ p.env.execve = true :=
    ⟨fun h => ⟨h.root, h.uid, h.execve⟩, fun ⟨hroot, huid, hexec⟩ => ⟨hroot, huid, hexec⟩⟩
  -- `finish` and `check` run the same script code
  rw [hadmitted]
  cases kind with
  | run sf =>
    apply (execs_mainChild sf).trans
    simp only [ChildKind.drops, forall_const]
  | logRun pipeRead pipeWrite =>
    apply (execs_loggerChild pipeRead pipeWrite).trans
    simp only [ChildKind.drops, Bool.false_eq_true, false_implies, true_and]
  | finish | check =>
    apply (execs_script _ _ _).trans
    simp only [ChildKind.drops, forall_const, atExec]

end

end SvcRs
