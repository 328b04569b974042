import SvcRs.Native.Files
import SvcRs.Spec.Inherited

/-!
# Children and what their descriptors refer to

The table with names of open files (`Native/Files.lean`) refines the list of open descriptors
that a child has (`Native/Child.lean`): the same descriptors are open in both after every call. What
the executed program has is then read off for the two children of a start, under the
assumption that the calls for its standard streams succeed.

## Key results

- `child_agrees`: the two descriptions of a child say the same at `execve`
- `mainProgram_logged`, `mainProgram_piped`, `loggerProgram`: the standard streams of the programs
-/

namespace SvcRs

open Handles

/-! ## Which descriptors are open -/

/-- The same descriptors are open. -/
def Agrees (fds : List Fd) (t : Files) : Prop := ∀ n, isOpen fds n = (t n).isSome

/-- Some entry has the number. -/
theorem isOpen_iff {fds : List Fd} {n : Int} : isOpen fds n = true ↔ ∃ f ∈ fds, f.num = n := by
  simp [isOpen]

section

variable {fds : List Fd} {t : Files} {n old new : Int}

/-- What is open after a close. -/
theorem isOpen_closeNum (num : Int) :
    isOpen (closeNum num fds) n = (isOpen fds n && decide (n ≠ num)) := by
  rw [Bool.eq_iff_iff, Bool.and_eq_true, isOpen_iff, isOpen_iff, decide_eq_true_eq]
  constructor
  · intro ⟨f, hf, hn⟩
    obtain ⟨hmem, hne⟩ := mem_closeNum.mp hf
    exact ⟨⟨f, hmem, hn⟩, hn ▸ hne⟩
  · intro ⟨⟨f, hf, hn⟩, hne⟩
    exact ⟨f, mem_closeNum.mpr ⟨hf, hn.symm ▸ hne⟩, hn⟩

/-- What is open after `dup2`. -/
theorem isOpen_dupNum :
    isOpen (dupNum old new fds) n = (isOpen fds n || isOpen fds old && decide (n = new)) := by
  unfold dupNum
  cases hold : isOpen fds old with
  | false => simp
  | true =>
    by_cases hsame : old = new
    · subst hsame
      -- a descriptor that is copied onto itself is open already
      by_cases hn : n = old <;> simp [hn, hold]
    · by_cases hn : n = new
      · simp [hsame, hn, isOpen]
      · have hcons : isOpen (⟨new, false⟩ :: closeNum new fds) n = isOpen (closeNum new fds) n := by
          simp [isOpen, Ne.symm hn]
        simp [hsame, hn, hcons, isOpen_closeNum]

/-- Both tables close the descriptor. -/
theorem Agrees.close (h : Agrees fds t) (num : Int) : Agrees (closeNum num fds) (t.close num) := by
  intro n
  rw [isOpen_closeNum, h n]
  by_cases hn : n = num <;> simp [Table.close, hn]

/-- Both tables copy it. -/
theorem Agrees.dup (h : Agrees fds t) (old new : Int) :
    Agrees (dupNum old new fds) (t.dup old new) := by
  intro n
  rw [isOpen_dupNum, h n, h old]
  unfold Table.dup
  cases hold : t old with
  | none => simp
  | some x => by_cases hn : n = new <;> simp [hn]

/-- Both copy it, or neither does. -/
theorem Agrees.dupIf (h : Agrees fds t) (old new : Int) (c : Bool) :
    Agrees (if c then dupNum old new fds else fds) (if c then t.dup old new else t) := by
  cases c with
  | false => exact h
  | true => exact h.dup old new

/-- Both tables get a new descriptor. -/
theorem Agrees.install (h : Agrees fds t) (num : Int) (cloexec : Bool) (x : OpenFile) :
    Agrees (⟨num, cloexec⟩ :: fds) (t.install num x) := by
  intro n
  by_cases hn : n = num
  · simp [isOpen, Table.install, hn]
  · have hcons : isOpen (⟨num, cloexec⟩ :: fds) n = isOpen fds n := by simp [isOpen, Ne.symm hn]
    simp [hcons, h n, Table.install, hn]

/-- Both close everything from 3 up to the bound. -/
theorem Agrees.closeFrom (h : Agrees fds t) (nofile : Nat) :
    Agrees (closedFrom 3 nofile fds) (closeFromFiles 3 nofile t) := by
  intro n
  -- the bound is a machine integer, and below 3 nothing is closed at all
  have hcount : 3 ≤ n ∧ n < 3 + ((closeBound nofile - 3).toNat : Int) ↔
      3 ≤ n ∧ n < closeBound nofile := by omega
  -- what is open afterwards was open and lies outside the closed range
  have hmem : isOpen (closedFrom 3 nofile fds) n = true ↔
      isOpen fds n = true ∧ ¬(3 ≤ n ∧ n < closeBound nofile) := by
    rw [isOpen_iff, isOpen_iff]
    constructor
    · intro ⟨f, hf, hn⟩
      rw [closedFrom, mem_closeLoop, hn, hcount] at hf
      exact ⟨⟨f, hf.1, hn⟩, hf.2⟩
    · intro ⟨⟨f, hf, hn⟩, hkeep⟩
      refine ⟨f, ?_, hn⟩
      rw [closedFrom, mem_closeLoop, hn, hcount]
      exact ⟨hf, hkeep⟩
  rw [Bool.eq_iff_iff, hmem, h n]
  show _ ↔ (if ¬(3 ≤ n ∧ n < closeBound nofile) then t n else none).isSome = true
  split <;> simp [*]

/-- Standard input of the child in both tables. -/
theorem Agrees.stdin (h : Agrees fds t) (env : ChildEnv) :
    Agrees (stdinFds env fds) (stdinFiles env t) := by
  unfold stdinFds stdinFiles
  dsimp only
  rw [h env.openNull]
  split
  · have hdup := (h.install env.openNull false .null).dupIf env.openNull 0 (env.dup2 0)
    split
    · exact hdup.close _
    · exact hdup
  · exact h

/-- Its outputs in both tables. -/
theorem Agrees.output (h : Agrees fds t) (s : Service) (sf : StartFds) (env : ChildEnv) :
    Agrees (outputFds s sf env fds) (outputFiles s sf env t) := by
  unfold outputFds outputFiles
  split
  · exact ((h.dupIf sf.out0 1 (env.dup2 1)).dupIf sf.out0 2 (env.dup2 2)).close _
  · have hdup := (h.dupIf sf.out1 1 (env.dup2 1)).dupIf sf.err1 2 (env.dup2 2)
    exact (((hdup.close _).close _).close _).close _

end

/-! ## The children of a start -/

/-- What the descriptors of a child refer to when it gets to `execve`. -/
def childFiles (s : Service) (p : Proc) (t : Files) : ChildKind → Files
  | .run sf => mainFiles s sf p.env (nofileLimit s p) t
  | .logRun pipeRead pipeWrite => loggerFiles pipeRead pipeWrite p.env (p.limit .nofile) t
  | .finish | .check => t

/-- The whole code of a child. -/
theorem child_agrees {s : Service} {p q : Proc} {t : Files} {kind : ChildKind}
    (h : Agrees p.fds t) (hexec : Execs (child s kind) p q) : Agrees q.fds (childFiles s p t kind) := by
  obtain ⟨-, rfl⟩ := (execs_child kind).mp hexec
  -- only the first two kinds move descriptors before `execve`
  cases kind with
  | run sf =>
    have hdone := ((h.stdin p.env).output s sf p.env).closeFrom (nofileLimit s p)
    simpa only [atExec, childFiles, mainFiles] using hdone
  | logRun pipeRead pipeWrite =>
    have hdup := h.dupIf pipeRead 0 (p.env.dup2 0)
    have hdone := ((hdup.close pipeRead).close pipeWrite).closeFrom (p.limit .nofile)
    simpa only [atExec, secured_fds, childFiles, loggerFiles] using hdone
  | finish | check =>
    simp only [atExec, secured_fds]
    exact h

/-- What the descriptors of the executed program refer to: `execve` closes those with
    `FD_CLOEXEC`. -/
def programFiles (s : Service) (p : Proc) (t : Files) (kind : ChildKind) : Files :=
  (childFiles s p t kind).restrict fun n => ⟨n, false⟩ ∈ (atExec s p kind).fds

/-! ## The ends of a pipe -/

/-- Which descriptors are read ends of the pipe, and which are write ends. -/
structure Ends (t : Files) (pipe : Nat) (reads writes : Set Int) : Prop where
  read : t.holders (.readEnd pipe) = reads
  write : t.holders (.writeEnd pipe) = writes

namespace Ends

variable {t : Files} {pipe pipe' : Nat} {r w r' w' : Set Int} {old new : Int}

/-- The sets of ends may be rewritten. -/
theorem congr (h : Ends t pipe r w) (hr : r = r') (hw : w = w') : Ends t pipe r' w' :=
  hr ▸ hw ▸ h

/-- A closed descriptor is no end. -/
theorem close (h : Ends t pipe r w) (fd : Int) : Ends (t.close fd) pipe (r \ {fd}) (w \ {fd}) :=
  ⟨by rw [Table.holders_close, h.read], by rw [Table.holders_close, h.write]⟩

/-- Only the ends that are kept. -/
theorem restrict (h : Ends t pipe r w) (keep : Int → Prop) [DecidablePred keep] :
    Ends (t.restrict keep) pipe { n ∈ r | keep n } { n ∈ w | keep n } :=
  ⟨by rw [Table.holders_restrict, h.read], by rw [Table.holders_restrict, h.write]⟩

/-- A copy of a read end is one. -/
theorem dup_read (h : Ends t pipe r w) (hold : old ∈ r) :
    Ends (t.dup old new) pipe (insert new r) (w \ {new}) := by
  have hmem : old ∈ t.holders (.readEnd pipe) := h.read ▸ hold
  exact ⟨by rw [Table.holders_dup hmem, h.read], by
    rw [Table.holders_dup_ne hmem (by simp), h.write]⟩

/-- A copy of a write end is one. -/
theorem dup_write (h : Ends t pipe r w) (hold : old ∈ w) :
    Ends (t.dup old new) pipe (r \ {new}) (insert new w) := by
  have hmem : old ∈ t.holders (.writeEnd pipe) := h.write ▸ hold
  exact ⟨by rw [Table.holders_dup_ne hmem (by simp), h.read], by
    rw [Table.holders_dup hmem, h.write]⟩

/-- The copy of an end of another pipe. -/
theorem dup_other (h : Ends t pipe r w) (h' : Ends t pipe' r' w') (hold : old ∈ w')
    (hne : pipe' ≠ pipe) : Ends (t.dup old new) pipe (r \ {new}) (w \ {new}) := by
  have hmem : old ∈ t.holders (.writeEnd pipe') := h'.write ▸ hold
  exact ⟨by rw [Table.holders_dup_ne hmem (by simp), h.read], by
    rw [Table.holders_dup_ne hmem (by simpa using hne), h.write]⟩

/-- All ends are kept. -/
theorem restrict_all (h : Ends t pipe r w) {keep : Int → Prop} [DecidablePred keep]
    (hr : ∀ n ∈ r, keep n) (hw : ∀ n ∈ w, keep n) : Ends (t.restrict keep) pipe r w :=
  (h.restrict keep).congr (Set.sep_eq_self_iff_mem_true.mpr hr) (Set.sep_eq_self_iff_mem_true.mpr hw)

/-- One descriptor is one end of one pipe. -/
theorem read_ne_write (h : Ends t pipe r w) (h' : Ends t pipe' r' w') {a b : Int} (ha : a ∈ r)
    (hb : b ∈ w') : a ≠ b := by
  intro hab
  subst hab
  rw [← h.read] at ha
  rw [← h'.write] at hb
  have hsame : some (OpenFile.readEnd pipe) = some (.writeEnd pipe') := ha.symm.trans hb
  simp at hsame

/-- The redirection of `stdin` is about other descriptors. -/
theorem stdin (h : Ends t pipe r w) (env : ChildEnv) (hr : 0 ∉ r) (hw : 0 ∉ w) :
    Ends (stdinFiles env t) pipe r w := by
  unfold stdinFiles
  split
  · next hopen =>
    simp only [Bool.and_eq_true, decide_eq_true_eq, Bool.not_eq_true', Option.isSome_eq_false_iff,
      Option.isNone_iff_eq_none] at hopen
    -- `open` answers with a number that is free
    have hfresh : ∀ x, env.openNull ∉ t.holders x := by
      intro x hmem
      exact absurd (hopen.2.symm.trans hmem) (by simp)
    have hinstall : Ends (t.install env.openNull .null) pipe r w :=
      ⟨by rw [Table.holders_install_ne (by simp), Set.sdiff_singleton_eq_self (hfresh _), h.read], by
        rw [Table.holders_install_ne (by simp), Set.sdiff_singleton_eq_self (hfresh _), h.write]⟩
    have hnull : env.openNull ∈ (t.install env.openNull .null).holders .null := by simp
    -- `/dev/null` is copied onto 0, which is neither end of the pipe
    have hdup : Ends ((t.install env.openNull .null).dup env.openNull 0) pipe r w :=
      ⟨by rw [Table.holders_dup_ne hnull (by simp), hinstall.read, Set.sdiff_singleton_eq_self hr], by
        rw [Table.holders_dup_ne hnull (by simp), hinstall.write, Set.sdiff_singleton_eq_self hw]⟩
    -- `dup2` may fail, and the ends stay where they are in both cases
    have hcopied : Ends (if env.dup2 0 then (t.install env.openNull .null).dup env.openNull 0
        else t.install env.openNull .null) pipe r w := by
      split
      · exact hdup
      · exact hinstall
    dsimp only
    split
    · have hr' : env.openNull ∉ r := h.read ▸ hfresh _
      have hw' : env.openNull ∉ w := h.write ▸ hfresh _
      exact (hcopied.close _).congr (Set.sdiff_singleton_eq_self hr') (Set.sdiff_singleton_eq_self hw')
    · exact hcopied
  · exact h

end Ends

/-! ## Standard streams -/

/-- The calls for the standard streams succeed. -/
structure StreamCalls (p : Proc) : Prop where
  dup2 : ∀ fd, 0 ≤ fd → fd ≤ 2 → p.env.dup2 fd = true
  null : 0 ≤ p.env.openNull ∧ isOpen p.fds p.env.openNull = false

section

variable {fds : List Fd} {f : Fd} {old new : Int}

/-- The copy is there, without close-on-exec. -/
theorem mem_dupNum_new (hold : isOpen fds old = true) (hne : old ≠ new) :
    ⟨new, false⟩ ∈ dupNum old new fds := by
  simp [dupNum, hold, hne]

/-- Other descriptors stay. -/
theorem mem_dupNum_of_ne (hf : f ∈ fds) (hne : f.num ≠ new) : f ∈ dupNum old new fds := by
  unfold dupNum
  split
  · exact List.mem_cons_of_mem _ (mem_closeNum.mpr ⟨hf, hne⟩)
  · exact hf

/-- `close_from(3)` spares the standard streams. -/
theorem mem_closedFrom_std {nofile : Nat} (h : f.num ≤ 2) : f ∈ closedFrom 3 nofile fds ↔ f ∈ fds := by
  have hlow : ¬(3 ≤ f.num ∧ f.num < 3 + ((closeBound nofile - 3).toNat : Int)) := by omega
  rw [closedFrom, mem_closeLoop]
  simp only [hlow, not_false_eq_true, and_true]

/-- `stdin` is open in the executed program. -/
theorem mem_stdinFds_zero {p : Proc} (hcalls : StreamCalls p) :
    ⟨0, false⟩ ∈ stdinFds p.env p.fds := by
  have hopen : (0 ≤ p.env.openNull && !isOpen p.fds p.env.openNull) = true := by
    simp [hcalls.null.1, hcalls.null.2]
  have hdup : p.env.dup2 0 = true := hcalls.dup2 0 (by omega) (by omega)
  unfold stdinFds
  simp only [hopen, if_true, hdup]
  have hnull : isOpen (⟨p.env.openNull, false⟩ :: p.fds) p.env.openNull = true := by simp [isOpen]
  split
  · next hne => exact mem_closeNum.mpr ⟨mem_dupNum_new hnull hne, Ne.symm hne⟩
  · next hzero =>
    -- `/dev/null` was opened as descriptor 0
    have hzero : p.env.openNull = 0 := by simpa using hzero
    simp [dupNum, hzero]

variable {s : Service} {sf : StartFds}

/-- The descriptor that becomes `stdout`. -/
def StartFds.outEnd (sf : StartFds) (s : Service) : Int := if s.hasLog then sf.out0 else sf.out1

/-- The descriptor that becomes `stderr`. -/
def StartFds.errEnd (sf : StartFds) (s : Service) : Int := if s.hasLog then sf.out0 else sf.err1

/-- What the child has open when its outputs are in place. -/
theorem mem_outputFds_iff {env : ChildEnv} (h1 : env.dup2 1 = true) (h2 : env.dup2 2 = true) :
    f ∈ outputFds s sf env fds ↔
      f ∈ dupNum (sf.errEnd s) 2 (dupNum (sf.outEnd s) 1 fds) ∧ f.num ∉ sf.ends s := by
  unfold outputFds StartFds.errEnd StartFds.outEnd StartFds.ends
  cases s.hasLog <;> simp [h1, h2, mem_closeNum, and_assoc, and_comm, and_left_comm]

/-- The standard streams are open in the program of a service. -/
theorem mem_mainFds {p : Proc} (hcalls : StreamCalls p)
    (hends : ∀ fd ∈ sf.ends s, 2 < fd ∧ isOpen p.fds fd = true) {n : Int} (h0 : 0 ≤ n) (h2 : n ≤ 2) :
    ⟨n, false⟩ ∈ (atExec s p (.run sf)).fds := by
  have hout : sf.outEnd s ∈ sf.ends s := by
    unfold StartFds.outEnd StartFds.ends
    cases s.hasLog <;> simp
  have herr : sf.errEnd s ∈ sf.ends s := by
    unfold StartFds.errEnd StartFds.ends
    cases s.hasLog <;> simp
  -- the redirection of `stdin` does not close them
  have hkept : ∀ fd ∈ sf.ends s, isOpen (stdinFds p.env p.fds) fd = true := by
    intro fd hfd
    obtain ⟨hlow, hopen⟩ := hends fd hfd
    obtain ⟨f, hf, rfl⟩ := isOpen_iff.mp hopen
    exact isOpen_iff.mpr ⟨f, (mem_stdinFds hlow).mpr hf, rfl⟩
  have hfirst : ⟨1, false⟩ ∈ dupNum (sf.outEnd s) 1 (stdinFds p.env p.fds) :=
    mem_dupNum_new (hkept _ hout) (by have := (hends _ hout).1; omega)
  simp only [atExec]
  rw [mem_closedFrom_std h2, mem_outputFds_iff (hcalls.dup2 1 (by omega) (by omega))
    (hcalls.dup2 2 (by omega) (by omega))]
  constructor
  · obtain rfl | rfl | rfl : n = 0 ∨ n = 1 ∨ n = 2 := by omega
    · have hzero : ⟨0, false⟩ ∈ dupNum (sf.outEnd s) 1 (stdinFds p.env p.fds) :=
        mem_dupNum_of_ne (mem_stdinFds_zero hcalls) (by simp)
      exact mem_dupNum_of_ne hzero (by simp)
    · exact mem_dupNum_of_ne hfirst (by simp)
    · apply mem_dupNum_new
      · rw [isOpen_dupNum, hkept _ herr, Bool.true_or]
      · have := (hends _ herr).1
        omega
  · intro hmem
    have := (hends n hmem).1
    omega

end

/-! ## The programs of a start -/

section

variable {s : Service} {p : Proc} {t : Files}

/-- A copy becomes `stdin`, and `/dev/null` itself is closed. -/
theorem stdinFiles_zero (ha : Agrees p.fds t) (hcalls : StreamCalls p) :
    stdinFiles p.env t 0 = some .null := by
  have hopen : (0 ≤ p.env.openNull && !(t p.env.openNull).isSome) = true := by
    rw [← ha]
    simp [hcalls.null.1, hcalls.null.2]
  have hnull : p.env.openNull ∈ (t.install p.env.openNull .null).holders .null := by simp
  have hdup : p.env.dup2 0 = true := hcalls.dup2 0 (by omega) (by omega)
  unfold stdinFiles
  simp only [hopen, hdup, if_true]
  split
  · next hne => rw [Table.close_of_ne (Ne.symm hne), Table.dup_new hnull]
  · exact Table.dup_new hnull

/-- The redirection of the output leaves `stdin` alone. -/
theorem outputFiles_zero {sf : StartFds} {env : ChildEnv} (hends : ∀ fd ∈ sf.ends s, 2 < fd) :
    outputFiles s sf env t 0 = t 0 := by
  -- every end of a pipe has a number above 2
  have hne : ∀ fd ∈ sf.ends s, (0 : Int) ≠ fd := by
    intro fd hfd
    have := hends fd hfd
    omega
  -- the two copies go to 1 and 2
  have hdup : ∀ (c : Bool) (old new : Int) (t : Files), 0 < new →
      (if c then t.dup old new else t) 0 = t 0 := by
    intro c old new t hnew
    split
    · exact Table.dup_of_ne (by omega)
    · rfl
  unfold StartFds.ends at hne
  unfold outputFiles
  -- with a logger there is one end to close, without one there are four
  cases hlog : s.hasLog with
  | true =>
    simp only [hlog, if_true, List.mem_singleton, forall_eq] at hne ⊢
    rw [Table.close_of_ne hne, hdup _ _ _ _ (by omega), hdup _ _ _ _ (by omega)]
  | false =>
    simp only [hlog, Bool.false_eq_true, if_false, List.forall_mem_cons] at hne ⊢
    rw [Table.close_of_ne hne.2.2.2.1, Table.close_of_ne hne.2.2.1, Table.close_of_ne hne.2.1,
      Table.close_of_ne hne.1, hdup _ _ _ _ (by omega), hdup _ _ _ _ (by omega)]

variable {sf : StartFds} {pipe : Nat}

/-- The standard streams survive `execve`. -/
theorem mainFds_std (ha : Agrees p.fds t) (hcalls : StreamCalls p)
    (hends : ∀ fd ∈ sf.ends s, 2 < fd ∧ (t fd).isSome = true) {n : Int} (h0 : 0 ≤ n) (h2 : n ≤ 2) :
    ⟨n, false⟩ ∈ (atExec s p (.run sf)).fds := by
  apply mem_mainFds hcalls _ h0 h2
  intro fd hfd
  rw [ha fd]
  exact hends fd hfd

/-- The new program reads `/dev/null`. -/
theorem mainProgram_stdin (ha : Agrees p.fds t) (hcalls : StreamCalls p)
    (hends : ∀ fd ∈ sf.ends s, 2 < fd ∧ (t fd).isSome = true) :
    programFiles s p t (.run sf) 0 = some .null := by
  have hflag := mainFds_std ha hcalls hends (Int.le_refl 0) (by omega)
  apply (Table.restrict_of (p := fun n => ⟨n, false⟩ ∈ (atExec s p (.run sf)).fds) hflag _).trans
  show mainFiles s sf p.env (nofileLimit s p) t 0 = _
  unfold mainFiles closeFromFiles
  rw [Table.restrict_of (by omega), outputFiles_zero fun fd hfd => (hends fd hfd).1,
    stdinFiles_zero ha hcalls]

/-- What is redirected survives `close_from(3)` and `execve`. -/
theorem mainProgram_ends (ha : Agrees p.fds t) (hcalls : StreamCalls p)
    (hends : ∀ fd ∈ sf.ends s, 2 < fd ∧ (t fd).isSome = true) {w : Set Int}
    (h : Ends (outputFiles s sf p.env (stdinFiles p.env t)) pipe ∅ w) (hw : ∀ n ∈ w, 0 ≤ n ∧ n ≤ 2) :
    Ends (programFiles s p t (.run sf)) pipe ∅ w := by
  have hkept : Ends (mainFiles s sf p.env (nofileLimit s p) t) pipe ∅ w := by
    apply h.restrict_all (by simp)
    intro n hn
    have := hw n hn
    omega
  exact hkept.restrict_all (by simp) fun n hn => mainFds_std ha hcalls hends (hw n hn).1 (hw n hn).2

/-- Both kinds of ends are open. -/
theorem Ends.isSome {r w : Set Int} (h : Ends t pipe r w) {fd : Int} (hfd : fd ∈ r ∨ fd ∈ w) :
    (t fd).isSome = true := by
  rw [← h.read, ← h.write] at hfd
  cases hfd with
  | inl hread => exact Option.isSome_iff_exists.mpr ⟨_, hread⟩
  | inr hwrite => exact Option.isSome_iff_exists.mpr ⟨_, hwrite⟩

/-- A service with a logger writes both of its streams to the logger's pipe. -/
theorem mainProgram_logged (ha : Agrees p.fds t) (hcalls : StreamCalls p) (hlog : s.hasLog = true)
    (hout : 2 < sf.out0) (h : Ends t pipe ∅ {sf.out0}) :
    programFiles s p t (.run sf) 0 = some .null ∧
      Ends (programFiles s p t (.run sf)) pipe ∅ {1, 2} := by
  have hends : ∀ fd ∈ sf.ends s, 2 < fd ∧ (t fd).isSome = true := by
    simp only [StartFds.ends, hlog, if_true, List.mem_singleton, forall_eq]
    exact ⟨hout, h.isSome (.inr rfl)⟩
  refine ⟨mainProgram_stdin ha hcalls hends, mainProgram_ends ha hcalls hends ?_ ?_⟩
  -- the write end is copied to 1 and 2, and then closed under its own number
  · have hstdin := h.stdin p.env (by simp) (by rw [Set.mem_singleton_iff]; omega)
    have hfirst : Ends ((stdinFiles p.env t).dup sf.out0 1) _ _ _ := hstdin.dup_write rfl
    have hsecond : Ends (((stdinFiles p.env t).dup sf.out0 1).dup sf.out0 2) _ _ _ :=
      hfirst.dup_write (by simp)
    unfold outputFiles
    simp only [hlog, if_true, hcalls.dup2 1 (by omega) (by omega), hcalls.dup2 2 (by omega) (by omega)]
    apply (hsecond.close sf.out0).congr
    · simp
    · ext n
      simp only [Set.mem_sdiff, Set.mem_insert_iff, Set.mem_singleton_iff]
      omega
  -- 1 and 2 are no ends that `close_from` could reach
  · intro n hn
    simp only [Set.mem_insert_iff, Set.mem_singleton_iff] at hn
    omega

/-- A service without a logger writes each stream to a pipe of its own. -/
theorem mainProgram_piped (ha : Agrees p.fds t) (hcalls : StreamCalls p) (hlog : s.hasLog = false)
    (hlow : ∀ fd ∈ sf.ends s, 2 < fd) {out err : Nat} (hne : out ≠ err)
    (hout : Ends t out {sf.out0} {sf.out1}) (herr : Ends t err {sf.err0} {sf.err1}) :
    programFiles s p t (.run sf) 0 = some .null ∧
      Ends (programFiles s p t (.run sf)) out ∅ {1} ∧
      Ends (programFiles s p t (.run sf)) err ∅ {2} := by
  have hsome : ∀ fd ∈ sf.ends s, (t fd).isSome = true := by
    simp only [StartFds.ends, hlog, Bool.false_eq_true, if_false, List.forall_mem_cons]
    exact ⟨hout.isSome (.inl rfl), herr.isSome (.inl rfl), hout.isSome (.inr rfl),
      herr.isSome (.inr rfl), by simp⟩
  have hends : ∀ fd ∈ sf.ends s, 2 < fd ∧ (t fd).isSome = true :=
    fun fd hfd => ⟨hlow fd hfd, hsome fd hfd⟩
  simp only [StartFds.ends, hlog, Bool.false_eq_true, if_false, List.forall_mem_cons] at hlow
  obtain ⟨hout0, herr0, hout1, herr1, -⟩ := hlow
  have hzero : ∀ fd : Int, 2 < fd → (0 : Int) ∉ ({fd} : Set Int) := by
    intro fd hfd hmem
    have : (0 : Int) = fd := hmem
    omega
  -- one copy after the other, each from a pipe that the other stream has nothing to do with
  have hout' := hout.stdin p.env (hzero _ hout0) (hzero _ hout1)
  have herr' := herr.stdin p.env (hzero _ herr0) (hzero _ herr1)
  have hmem : sf.err1 ∈ ({sf.err1} : Set Int) \ {1} := by
    simp only [Set.mem_sdiff, Set.mem_singleton_iff, true_and]
    omega
  have hout₁ : Ends ((stdinFiles p.env t).dup sf.out1 1) out _ _ := hout'.dup_write rfl
  have herr₁ : Ends ((stdinFiles p.env t).dup sf.out1 1) err _ _ := herr'.dup_other hout' rfl hne
  have houts : Ends (((stdinFiles p.env t).dup sf.out1 1).dup sf.err1 2) out _ _ :=
    hout₁.dup_other herr₁ hmem (Ne.symm hne)
  have herrs : Ends (((stdinFiles p.env t).dup sf.out1 1).dup sf.err1 2) err _ _ :=
    herr₁.dup_write hmem
  have hfour : ∀ {pipe : Nat} {r w : Set Int} (_ : Ends (Table.dup sf.err1 2 (Table.dup sf.out1 1
      (stdinFiles p.env t))) pipe r w), Ends (outputFiles s sf p.env (stdinFiles p.env t)) pipe
        ((((r \ {sf.out0}) \ {sf.err0}) \ {sf.out1}) \ {sf.err1})
        ((((w \ {sf.out0}) \ {sf.err0}) \ {sf.out1}) \ {sf.err1}) := by
    intro pipe r w h
    unfold outputFiles
    simp only [hlog, Bool.false_eq_true, if_false, if_true, hcalls.dup2 1 (by omega) (by omega),
      hcalls.dup2 2 (by omega) (by omega)]
    exact (((h.close _).close _).close _).close _
  refine ⟨mainProgram_stdin ha hcalls hends, mainProgram_ends ha hcalls hends ?_ ?_,
    mainProgram_ends ha hcalls hends ?_ ?_⟩
  · apply (hfour houts).congr <;>
      · ext n
        simp only [Set.mem_sdiff, Set.mem_insert_iff, Set.mem_singleton_iff,
          Set.mem_empty_iff_false, iff_false]
        omega
  · intro n hn
    have : n = 1 := hn
    omega
  · apply (hfour herrs).congr <;>
      · ext n
        simp only [Set.mem_sdiff, Set.mem_insert_iff, Set.mem_singleton_iff,
          Set.mem_empty_iff_false, iff_false]
        omega
  · intro n hn
    have : n = 2 := hn
    omega

/-- A logger reads its pipe, and does not keep it open for writing. -/
theorem loggerProgram (ha : Agrees p.fds t) (hcalls : StreamCalls p) {pipeRead pipeWrite : Int}
    (hread : 2 < pipeRead) (hwrite : 2 < pipeWrite) (h : Ends t pipe {pipeRead} {pipeWrite}) :
    Ends (programFiles s p t (.logRun pipeRead pipeWrite)) pipe {0} ∅ := by
  -- the read end has become descriptor 0, without the close-on-exec flag
  have hflag : ⟨0, false⟩ ∈ (atExec s p (.logRun pipeRead pipeWrite)).fds := by
    have hopen : isOpen p.fds pipeRead = true := by
      rw [ha]
      exact h.isSome (.inl rfl)
    simp only [atExec, secured_fds]
    rw [mem_closedFrom_std (by simp), mem_closeNum, mem_closeNum,
      if_pos (hcalls.dup2 0 (by omega) (by omega))]
    have hzero : ∀ fd : Int, 2 < fd → (⟨0, false⟩ : Fd).num ≠ fd := by
      intro fd hfd
      show (0 : Int) ≠ fd
      omega
    exact ⟨⟨mem_dupNum_new hopen (by omega), hzero _ hread⟩, hzero _ hwrite⟩
  have hfirst : Ends (t.dup pipeRead 0) pipe _ _ := h.dup_read rfl
  -- both of the pipe's own numbers are closed
  have hdup := (hfirst.close pipeRead).close pipeWrite
  have hchild : Ends (childFiles s p t (.logRun pipeRead pipeWrite)) pipe {0} ∅ := by
    unfold childFiles loggerFiles
    simp only [hcalls.dup2 0 (by omega) (by omega), if_true]
    apply (hdup.restrict _).congr <;>
      · ext n
        simp only [Set.mem_sdiff, Set.mem_insert_iff, Set.mem_singleton_iff, Set.mem_empty_iff_false,
          Set.mem_ofPred_eq, iff_false]
        omega
  -- `execve` leaves 0 open
  apply hchild.restrict_all
  · intro n hn
    have : n = 0 := hn
    exact this ▸ hflag
  · simp

end

end SvcRs
