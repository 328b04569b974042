import SvcRs.Spec.Privileges

/-!
# Descriptors that a child inherits

The log files are opened without `O_CLOEXEC`. `run` and `log/run` close what they inherit
with `close_from(3)`, but the bound of its loop is the current limit on descriptors, which
`run` has lowered by then if the service asks for it; `finish` and `check` close nothing.

## Key results

- `mem_closedFrom`: what `close_from` leaves
- `mem_atExec_fds`: the descriptors above 2 that are open when a child gets to `execve`
- `no_leak_iff`: when no descriptor of the supervisor gets into the new program
- `log_file_leaks`: a reachable state and the children that keep a log file open
-/

namespace SvcRs

/-- The child gets to `execve` only if every descriptor above 2 that it started with is
    closed by then or closed by `execve`. -/
def NoLeak (s : Service) (kind : ChildKind) (p : Proc) : Prop :=
  ∀ q, Execs (child s kind) p q → ∀ f ∈ p.fds, 2 < f.num → f ∈ q.fds → f.cloexec = true

/-! ## Closing and copying -/

/-- What is left after a close. -/
theorem mem_closeNum {num : Int} {fds : List Fd} {f : Fd} :
    f ∈ closeNum num fds ↔ f ∈ fds ∧ f.num ≠ num := by
  simp [closeNum]

/-- `close_from` closes an interval. -/
theorem mem_closeLoop (count : Nat) (fd : Int) (fds : List Fd) (f : Fd) :
    f ∈ closeLoop count fd fds ↔ f ∈ fds ∧ ¬(fd ≤ f.num ∧ f.num < fd + count) := by
  -- by induction on the number of descriptors to close
  induction count generalizing fd fds with
  | zero =>
    have hempty : ¬(fd ≤ f.num ∧ f.num < fd + (0 : Nat)) := by omega
    unfold closeLoop
    exact ⟨fun h => ⟨h, hempty⟩, And.left⟩
  | succ count ih =>
    unfold closeLoop
    rw [ih, mem_closeNum, and_assoc]
    apply and_congr_right
    intro _
    omega

/-- `close_from` spares what is beyond its bound. -/
theorem mem_closedFrom {min : Int} {nofile : Nat} {fds : List Fd} {f : Fd} (h : min ≤ f.num) :
    f ∈ closedFrom min nofile fds ↔ f ∈ fds ∧ closeBound nofile ≤ f.num := by
  unfold closedFrom
  rw [mem_closeLoop]
  apply and_congr_right
  intro _
  omega

/-- A copy to a standard descriptor changes nothing above it. -/
theorem mem_dupNum {old new : Int} {fds : List Fd} {f : Fd} (hnew : new ≤ 2) (h : 2 < f.num) :
    f ∈ dupNum old new fds ↔ f ∈ fds := by
  have hne : f.num ≠ new := by omega
  unfold dupNum
  split
  · have hcopy : f ≠ ⟨new, false⟩ := fun he => hne (congrArg Fd.num he)
    simp [mem_closeNum, hcopy, hne]
  · exact Iff.rfl

section

variable {f : Fd} (h : 2 < f.num)
include h

/-- Redirecting a standard stream leaves the other descriptors alone. -/
theorem mem_dupIf {c : Prop} [Decidable c] {old new : Int} {fds : List Fd} (hnew : new ≤ 2) :
    f ∈ (if c then dupNum old new fds else fds) ↔ f ∈ fds := by
  split
  · exact mem_dupNum hnew h
  · exact Iff.rfl

/-- `/dev/null` is not left open. -/
theorem mem_stdinFds {env : ChildEnv} {fds : List Fd} : f ∈ stdinFds env fds ↔ f ∈ fds := by
  unfold stdinFds
  dsimp only
  split
  case isFalse => exact Iff.rfl
  case isTrue hnull =>
    by_cases hzero : env.openNull = 0
    · have hcopy : f ≠ ⟨env.openNull, false⟩ := fun he => by
        have := congrArg Fd.num he
        simp only at this
        omega
      rw [if_neg (not_not_intro hzero), mem_dupIf h (by omega)]
      simp [hcopy]
    · rw [if_pos hzero, mem_closeNum, mem_dupIf h (by omega), List.mem_cons]
      -- the number of `/dev/null` was free
      have hfree : f ∈ fds → f.num ≠ env.openNull := by
        intro hf he
        have hopen : isOpen fds env.openNull = true :=
          List.any_eq_true.mpr ⟨f, hf, decide_eq_true he⟩
        simp [hopen] at hnull
      constructor
      · intro ⟨hmem, hne⟩
        cases hmem with
        | inl he => exact absurd (congrArg Fd.num he) hne
        | inr hf => exact hf
      · intro hf
        exact ⟨.inr hf, hfree hf⟩

/-- The pipe ends that the main process closes itself. -/
def StartFds.ends (s : Service) (sf : StartFds) : List Int :=
  if s.hasLog then [sf.out0] else [sf.out0, sf.err0, sf.out1, sf.err1]

/-- What a main process has open after its redirections, beyond the standard streams. -/
theorem mem_outputFds {s : Service} {sf : StartFds} {env : ChildEnv} {fds : List Fd} :
    f ∈ outputFds s sf env fds ↔ f ∈ fds ∧ f.num ∉ sf.ends s := by
  unfold outputFds StartFds.ends
  -- with a logger there is one end to close, without one there are four
  cases s.hasLog with
  | true =>
    simp only [if_true]
    rw [mem_closeNum, mem_dupIf h (by omega), mem_dupIf h (by omega)]
    simp
  | false =>
    simp only [Bool.false_eq_true, if_false]
    rw [mem_closeNum, mem_closeNum, mem_closeNum, mem_closeNum, mem_dupIf h (by omega),
      mem_dupIf h (by omega)]
    simp only [List.mem_cons, List.not_mem_nil, or_false, not_or, and_assoc]

end

/-! ## The four children -/

/-- The child closes this descriptor before `execve`: below the bound of `close_from` under
    the limit that is in force then, or one of its own pipe ends. -/
def ChildKind.Closes (s : Service) (p : Proc) (num : Int) : ChildKind → Prop
  | .run sf => num < closeBound (nofileLimit s p) ∨ num ∈ sf.ends s
  | .logRun pipeRead pipeWrite =>
    num < closeBound (p.limit .nofile) ∨ num = pipeRead ∨ num = pipeWrite
  | .finish | .check => False

/-- What is open beyond the standard streams when the child calls `execve`. -/
theorem mem_atExec_fds {s : Service} {p : Proc} {kind : ChildKind} {f : Fd} (h : 2 < f.num) :
    f ∈ (atExec s p kind).fds ↔ f ∈ p.fds ∧ ¬kind.Closes s p f.num := by
  have hmin : (3 : Int) ≤ f.num := by omega
  -- descriptors above 2 are not touched by the copies onto 0, 1 and 2
  cases kind with
  | run sf =>
    simp only [atExec, ChildKind.Closes, not_or, Int.not_lt]
    rw [mem_closedFrom hmin, mem_outputFds h, mem_stdinFds h]
    rw [and_assoc, and_comm (a := f.num ∉ sf.ends s)]
  | logRun pipeRead pipeWrite =>
    simp only [atExec, secured_fds, ChildKind.Closes, not_or, Int.not_lt]
    rw [mem_closedFrom hmin, mem_closeNum, mem_closeNum, mem_dupIf h (by omega)]
    rw [and_assoc, and_assoc, ← and_assoc (a := f.num ≠ pipeRead), and_comm (b := closeBound _ ≤ _)]
  | finish | check => simp only [atExec, secured_fds, ChildKind.Closes, not_false_eq_true, and_true]

/-- No descriptor gets into the new program if and only if the child does not get that far,
    or closes everything above 2 that it inherits without `FD_CLOEXEC`. -/
theorem no_leak_iff (s : Service) (kind : ChildKind) (p : Proc) :
    NoLeak s kind p ↔
      (Admitted s kind p → ∀ f ∈ p.fds, 2 < f.num → f.cloexec = false → kind.Closes s p f.num) := by
  unfold NoLeak
  constructor
  · intro h hadmitted f hf hnum hcloexec
    -- what is open and was not closed before `execve` has to carry the flag
    by_cases hcloses : kind.Closes s p f.num
    · exact hcloses
    · have hexecs := (execs_child kind).mpr ⟨hadmitted, rfl⟩
      have hleft := h _ hexecs f hf hnum ((mem_atExec_fds hnum).mpr ⟨hf, hcloses⟩)
      exact absurd (hcloexec.symm.trans hleft) (by decide)
  · intro h q hexecs f hf hnum hleft
    obtain ⟨hadmitted, hq⟩ := (execs_child kind).mp hexecs
    rw [hq] at hleft
    cases hcloexec : f.cloexec with
    | true => rfl
    | false =>
      exact absurd (h hadmitted f hf hnum hcloexec) ((mem_atExec_fds hnum).mp hleft).2

/-- A service `a` that limits its main process to 16 descriptors. -/
def limitFiles : FileSys where
  access path _ := path = bytesOf "/s/a/run"
  read path := if path = bytesOf "/s/a/rlimit_nofile" then some (bytesOf "16\n") else none

/-- After the first scan, with the log files 30 and 32. -/
def limitStarted : World :=
  (mainLoop [{ listing := some [bytesOf "a"] }]
    (openingOn limitFiles)).world

/-- The run that leads there. -/
theorem limitStarted_reachable : Reachable limitStarted := ⟨_, _, _, mainLoop_performs _ _⟩

/-- A child that is forked in this state. -/
def limitProc : Proc :=
  { rootProc with env := { read := limitFiles.read }, fds := limitStarted.k.fdTable }

/-- `finish` and `check` keep the log file of the service open, and so does `run` when the
    service is started again: its limit is 16 by the time of `close_from(3)`. -/
theorem log_file_leaks :
    (Reachable limitStarted ∧ (limitStarted.svc 0).out.logFd = 30 ∧
      ∀ fd ∈ limitStarted.k.fds, fd < 65536) ∧
    ¬NoLeak (limitStarted.svc 0) .finish limitProc ∧
    ¬NoLeak (limitStarted.svc 0) .check limitProc ∧
    ∀ sf : StartFds, 30 ∉ sf.ends (limitStarted.svc 0) →
      ¬NoLeak (limitStarted.svc 0) (.run sf) limitProc := by
  have hfds : ∀ fd ∈ limitStarted.k.fds, fd < 65536 := by decide +kernel
  have hlog : (limitStarted.svc 0).out.logFd = 30 := by decide +kernel
  have huid : (limitStarted.svc 0).hasUid = false := by decide +kernel
  have hopen : (⟨30, false⟩ : Fd) ∈ limitProc.fds := by decide +kernel
  have hlimit : closeBound (nofileLimit (limitStarted.svc 0) limitProc) = 16 := by decide +kernel
  have hcalls : limitProc.env.chroot = true ∧ limitProc.env.execve = true := ⟨rfl, rfl⟩
  -- descriptor 30 lies beyond the limit of 16 that the service asked for
  refine ⟨⟨limitStarted_reachable, hlog, hfds⟩, ?_⟩
  generalize limitStarted.svc 0 = a at huid hlimit ⊢
  generalize limitProc = p at hopen hlimit hcalls ⊢
  have hadmitted : ∀ kind, Admitted a kind p := fun kind =>
    ⟨fun _ => hcalls.1, fun _ hhas => absurd (huid.symm.trans hhas) (by decide), hcalls.2⟩
  refine ⟨fun h => ?_, fun h => ?_, fun sf hsf h => ?_⟩
  · exact (no_leak_iff ..).mp h (hadmitted _) _ hopen (by decide) rfl
  · exact (no_leak_iff ..).mp h (hadmitted _) _ hopen (by decide) rfl
  · cases (no_leak_iff ..).mp h (hadmitted _) _ hopen (by decide) rfl with
    | inl hbound =>
      rw [hlimit] at hbound
      exact absurd hbound (by decide)
    | inr hends => exact hsf hends

end SvcRs
