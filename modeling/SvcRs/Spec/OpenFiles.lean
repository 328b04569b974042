import SvcRs.Spec.Calls
import SvcRs.Spec.DescriptorTable
import SvcRs.Spec.Files

/-!
# The supervisor's table of open files

The descriptors that the supervisor holds, with their close-on-exec flags, are those that its
trace has opened and not closed, and the trace also tells what each of them refers to. What no
system call can break holds in every run; so a child starts with the table that the trace of its
parent gives at the time of the fork.

## Key results

- `Traced.step`: every system call keeps the table and the trace in step
- `descriptors_traced`: the table of the supervisor in every run
- `Ends.since`: what later events do to the ends of a pipe
- `pipes_not_leaked`: a program gets no pipe but for its standard streams
-/

namespace SvcRs

open Handles
open Transition (run)

/-! ## Flags -/

/-- Whether the descriptor is closed by `execve`. -/
def OpenFile.cloexec : OpenFile → Bool
  | .atStart fd => 2 < fd
  | .readEnd _ | .writeEnd _ => true
  | .file .. | .null => false

/-- The table and the trace agree. -/
structure Traced (base : List Int) (k : Kernel) : Prop where
  nodup : k.fds.Nodup
  inherits : k.inheritable.Nodup
  isOpen : ∀ fd, fd ∈ k.fds ↔ (filesAfter base k.trace fd).isSome = true
  flag : ∀ fd, fd ∈ k.inheritable ↔ ∃ x, filesAfter base k.trace fd = some x ∧ x.cloexec = false

section

variable {base : List Int} {k k' : Kernel}

/-- Notes change no descriptor. -/
theorem Event.onFiles_note {e : Event} (h : e.isNote = true) (n : Nat) (t : Files) :
    e.onFiles n t = t := by
  cases e with
  | piped | opened | closed => cases h
  | _ => rfl

/-- The table and the trace stay the same, as far as files are concerned. -/
theorem Traced.same (h : Traced base k) (hfds : k'.fds = k.fds)
    (hinherit : k'.inheritable = k.inheritable)
    (htrace : filesAfter base k'.trace = filesAfter base k.trace) : Traced base k' :=
  ⟨hfds ▸ h.nodup, hinherit ▸ h.inherits, by rw [hfds, htrace]; exact h.isOpen, by
    rw [hinherit, htrace]; exact h.flag⟩

/-- One system call. -/
theorem Traced.step (h : Traced base k) (hcall : SysCall k k') : Traced base k' := by
  cases hcall with
  | answer | tick | signals => exact h.same rfl rfl rfl
  | note e he => exact h.same rfl rfl (Event.onFiles_note he _ _)
  | fork | reap | readSignals => exact h.same rfl rfl rfl
  | openFile path mode fd hfd =>
    -- without `O_CLOEXEC`
    have hfiles : filesAfter base (.opened path mode fd :: k.trace) =
        (filesAfter base k.trace).install fd (.file path k.trace.length) := rfl
    have hnot : fd ∉ k.inheritable := by
      intro hmem
      obtain ⟨x, hx, -⟩ := (h.flag fd).mp hmem
      exact hfd.2 ((h.isOpen fd).mpr (by rw [hx]; rfl))
    refine ⟨h.nodup.cons hfd.2, h.inherits.cons hnot, fun n => ?_, fun n => ?_⟩
    · show n ∈ fd :: k.fds ↔ (filesAfter base (.opened path mode fd :: k.trace) n).isSome = true
      rw [hfiles]
      by_cases hn : n = fd
      · simp [Table.install, hn]
      · simp [Table.install, hn, h.isOpen n]
    · show n ∈ fd :: k.inheritable ↔ ∃ x,
        filesAfter base (.opened path mode fd :: k.trace) n = some x ∧ _
      rw [hfiles]
      by_cases hn : n = fd
      · simp [Table.install, hn, OpenFile.cloexec]
      · simp [Table.install, hn, h.flag n]
  | newPipe r w hfds =>
    -- both ends are close-on-exec, so the inheritable ones are the same as before
    obtain ⟨-, -, hrw, hr, hw⟩ := hfds
    have hfiles : filesAfter base (.piped r w :: k.trace) =
        ((filesAfter base k.trace).install r (.readEnd k.trace.length)).install w
          (.writeEnd k.trace.length) := rfl
    refine ⟨(h.nodup.cons hw).cons (by simp [hrw, hr]), h.inherits, fun n => ?_, fun n => ?_⟩
    · show n ∈ r :: w :: k.fds ↔ (filesAfter base (.piped r w :: k.trace) n).isSome = true
      rw [hfiles]
      by_cases hnw : n = w
      · simp [Table.install, hnw]
      · by_cases hnr : n = r
        · simp [Table.install, hnr, hrw]
        · simp [Table.install, hnw, hnr, h.isOpen n]
    · show n ∈ k.inheritable ↔ ∃ x, filesAfter base (.piped r w :: k.trace) n = some x ∧ _
      rw [hfiles]
      have hclosed : ∀ fd, fd ∉ k.fds → fd ∉ k.inheritable := by
        intro fd hfd hmem
        obtain ⟨x, hx, -⟩ := (h.flag fd).mp hmem
        exact hfd ((h.isOpen fd).mpr (by rw [hx]; rfl))
      by_cases hnw : n = w
      · simp [Table.install, hnw, hclosed w hw, OpenFile.cloexec]
      · by_cases hnr : n = r
        · simp [Table.install, hnr, hrw, hclosed r hr, OpenFile.cloexec]
        · simp [Table.install, hnw, hnr, h.flag n]
  | closeFd fd hfd =>
    have hfiles : filesAfter base (.closed fd :: k.trace) = (filesAfter base k.trace).close fd := rfl
    refine ⟨h.nodup.erase fd, h.inherits.erase fd, fun n => ?_, fun n => ?_⟩
    · show n ∈ k.fds.erase fd ↔ (filesAfter base (.closed fd :: k.trace) n).isSome = true
      rw [hfiles, h.nodup.mem_erase_iff]
      by_cases hn : n = fd
      · simp [Table.close, hn]
      · simp [Table.close, hn, h.isOpen n]
    · show n ∈ k.inheritable.erase fd ↔ ∃ x, filesAfter base (.closed fd :: k.trace) n = some x ∧ _
      rw [hfiles, h.inherits.mem_erase_iff]
      by_cases hn : n = fd
      · simp [Table.close, hn]
      · simp [Table.close, hn, h.flag n]

/-- Any number of them. -/
theorem Traced.calls (h : Traced base k) (hcalls : Calls k k') : Traced base k' := by
  induction hcalls with
  | refl => exact h
  | tail _ hlast ih => exact ih.step hlast

/-- Nothing has happened at the beginning. -/
theorem boot_traced (root : CStrBuf) (oracle : Nat → Answer) {fds : List Int} (hfds : fds.Nodup) :
    Traced fds (boot root oracle fds).world.k := by
  have hnone : filesAfter fds [] = fun fd => if fd ∈ fds then some (.atStart fd) else none := rfl
  refine ⟨hfds, hfds.filter _, fun fd => ?_, fun fd => ?_⟩
  · show fd ∈ fds ↔ (filesAfter fds [] fd).isSome = true
    rw [hnone]
    by_cases hfd : fd ∈ fds <;> simp [hfd]
  · show fd ∈ fds.filter (fun fd => fd ≤ 2) ↔ ∃ x, filesAfter fds [] fd = some x ∧ x.cloexec = false
    rw [hnone, List.mem_filter]
    by_cases hfd : fd ∈ fds <;> simp [hfd, OpenFile.cloexec]

/-- The table that a child starts with. -/
theorem Traced.mem_fdTable (h : Traced base k) (fd : Int) (cloexec : Bool) :
    ⟨fd, cloexec⟩ ∈ k.fdTable ↔ ∃ x, filesAfter base k.trace fd = some x ∧ x.cloexec = cloexec := by
  -- the flag in the table is what the list of inheritable descriptors says
  have hmem : ⟨fd, cloexec⟩ ∈ k.fdTable ↔ fd ∈ k.fds ∧ cloexec = !k.inheritable.contains fd := by
    unfold Kernel.fdTable
    simp only [List.mem_map, Fd.mk.injEq]
    constructor
    · intro ⟨n, hn, hfd, hflag⟩
      subst hfd
      exact ⟨hn, hflag.symm⟩
    · intro ⟨hn, hflag⟩
      exact ⟨fd, hn, rfl, hflag.symm⟩
  rw [hmem, h.isOpen fd]
  -- the trace knows of each open descriptor whether it is inheritable
  have hflag := h.flag fd
  cases hx : filesAfter base k.trace fd with
  | none => simp
  | some x =>
    rw [hx] at hflag
    have hcontains : k.inheritable.contains fd = !x.cloexec := by
      rw [Bool.eq_iff_iff, List.contains_iff_mem, hflag]
      simp
    rw [hcontains]
    simp [eq_comm]

/-- The table of descriptors agrees with the trace. -/
theorem Traced.agrees (h : Traced base k) : Agrees k.fdTable (filesAfter base k.trace) := by
  intro n
  rw [Bool.eq_iff_iff, isOpen_iff, ← h.isOpen n]
  unfold Kernel.fdTable
  simp

end

/-! ## Pipes -/

section

variable {base : List Int} {evs : List Event} {pipe : Nat} {r w : Set Int}

/-- Another file takes the place of a descriptor. -/
theorem Ends.install {t : Files} (h : Ends t pipe r w) (fd : Int) {x : OpenFile}
    (hread : x ≠ .readEnd pipe) (hwrite : x ≠ .writeEnd pipe) :
    Ends (t.install fd x) pipe (r \ {fd}) (w \ {fd}) :=
  ⟨by rw [Table.holders_install_ne hread, h.read], by rw [Table.holders_install_ne hwrite, h.write]⟩

/-- The descriptors that an event opens or closes. -/
def Event.touches (e : Event) : Set Int := { fd | fd ∈ e.opens ∨ fd ∈ e.closes }

/-- A close touches its descriptor. -/
@[simp] theorem Event.touches_closed (fd : Int) : (Event.closed fd).touches = {fd} := by
  ext n
  simp [touches, opens, closes]

/-- A fork touches none. -/
@[simp] theorem Event.touches_fork (role : Role) (pid : Int) : (Event.fork role pid).touches = ∅ := by
  ext n
  simp [touches, opens, closes]

/-- Every event but the making of the pipe can only take ends away from it. -/
theorem Ends.event (h : Ends (filesAfter base evs) pipe r w) (e : Event) (hne : pipe ≠ evs.length) :
    Ends (filesAfter base (e :: evs)) pipe (r \ e.touches) (w \ e.touches) := by
  show Ends (e.onFiles evs.length (filesAfter base evs)) _ _ _
  -- only the opening and the closing of descriptors moves an end
  cases e with
  | piped a b =>
    have hinstall := (h.install a (x := .readEnd evs.length) (by simp [Ne.symm hne]) (by simp)).install b
      (x := .writeEnd evs.length) (by simp) (by simp [Ne.symm hne])
    have htouches : (Event.piped a b).touches = {a} ∪ {b} := by
      ext n
      simp [Event.touches, Event.opens, Event.closes, or_comm]
    rw [htouches, ← Set.sdiff_sdiff, ← Set.sdiff_sdiff]
    exact hinstall
  | opened path mode fd =>
    have htouches : (Event.opened path mode fd).touches = {fd} := by
      ext n
      simp [Event.touches, Event.opens, Event.closes]
    rw [htouches]
    exact h.install fd (by simp) (by simp)
  | closed fd =>
    rw [Event.touches_closed]
    exact h.close fd
  -- all other events touch no descriptor
  | _ =>
    apply h.congr <;>
      · ext n
        simp [Event.touches, Event.opens, Event.closes]

/-- Before it is made a pipe has no ends. -/
theorem ends_fresh (base : List Int) (evs : List Event) {pipe : Nat} (h : evs.length ≤ pipe) :
    Ends (filesAfter base evs) pipe ∅ ∅ := by
  -- by induction on the events: the pipe is not made before its number comes
  induction evs with
  | nil =>
    have hnone : ∀ x, (∀ fd, x ≠ .atStart fd) → (filesAfter base []).holders x = ∅ := by
      intro x hx
      ext n
      show (if n ∈ base then some (OpenFile.atStart n) else none) = some x ↔ n ∈ (∅ : Set Int)
      split
      · simp [Ne.symm (hx n)]
      · simp
    exact ⟨hnone _ (by simp), hnone _ (by simp)⟩
  | cons e evs ih =>
    have hlength : evs.length < pipe := h
    exact ((ih (by omega)).event e (by omega)).congr (Set.empty_sdiff _) (Set.empty_sdiff _)

/-- A new pipe has its two ends. -/
theorem ends_piped (base : List Int) (evs : List Event) {a b : Int} (h : a ≠ b) :
    Ends (filesAfter base (.piped a b :: evs)) evs.length {a} {b} := by
  have hfresh := ends_fresh base evs (Nat.le_refl _)
  have hread : ∀ {t : Files} {fd : Int} {r w : Set Int}, Ends t evs.length r w →
      Ends (t.install fd (.readEnd evs.length)) evs.length (insert fd r) (w \ {fd}) := fun h =>
    ⟨by rw [Table.holders_install, h.read], by rw [Table.holders_install_ne (by simp), h.write]⟩
  have hwrite : ∀ {t : Files} {fd : Int} {r w : Set Int}, Ends t evs.length r w →
      Ends (t.install fd (.writeEnd evs.length)) evs.length (r \ {fd}) (insert fd w) := fun h =>
    ⟨by rw [Table.holders_install_ne (by simp), h.read], by rw [Table.holders_install, h.write]⟩
  apply (hwrite (hread hfresh)).congr
  · simp [Set.sdiff_singleton_eq_self, Ne.symm h]
  · simp

/-- Ends that no later event touches stay what they are. -/
theorem Ends.since (h : Ends (filesAfter base evs) pipe r w) (hmade : pipe < evs.length)
    {later : List Event}
    (hspared : ∀ e ∈ later, ∀ fd, fd ∈ r ∨ fd ∈ w → fd ∉ e.opens ∧ fd ∉ e.closes) :
    Ends (filesAfter base (later ++ evs)) pipe r w := by
  induction later with
  | nil => exact h
  | cons e later ih =>
    -- the newest event is the first
    have hrest := ih fun e' he' => hspared e' (List.mem_cons_of_mem _ he')
    have hdisjoint : ∀ ends : Set Int, (∀ fd ∈ ends, fd ∈ r ∨ fd ∈ w) → ends \ e.touches = ends := by
      intro ends hends
      apply sdiff_eq_left.mpr
      rw [Set.disjoint_left]
      intro fd hfd htouched
      have hboth := hspared e List.mem_cons_self fd (hends fd hfd)
      exact htouched.elim hboth.1 hboth.2
    have hlength : pipe ≠ (later ++ evs).length := by
      rw [List.length_append]
      omega
    exact (hrest.event e hlength).congr (hdisjoint r fun _ => .inl) (hdisjoint w fun _ => .inr)

/-- Nothing happens to a pipe whose ends are spared. -/
theorem Ends.spared {k k' : Kernel} {books : Books} (h : Ends (filesAfter base k.trace) pipe r w)
    (hmade : pipe < k.trace.length) (hstart : books.start = k.trace)
    (hmem : ∀ fd, fd ∈ r ∨ fd ∈ w → fd ∈ books.spared) (hk : k'.Accounted books) :
    Ends (filesAfter base k'.trace) pipe r w := by
  obtain ⟨evs, hevs, hspared⟩ := hk.events
  rw [hevs, hstart]
  exact h.since hmade fun e he fd hfd => hspared e he fd (hmem fd hfd)

/-- The trace only grows. -/
theorem Calls.trace {k k' : Kernel} (h : Calls k k') : ∃ evs, k'.trace = evs ++ k.trace := by
  induction h with
  | refl => exact ⟨[], rfl⟩
  | tail _ hlast ih =>
    obtain ⟨evs, hevs⟩ := ih
    cases hlast with
    | answer | tick | signals => exact ⟨evs, hevs⟩
    | _ => exact ⟨_ :: evs, congrArg _ hevs⟩

/-- Nobody gets an end of a pipe again after the last one has been closed. -/
theorem Ends.calls {k k' : Kernel} (h : Ends (filesAfter base k.trace) pipe ∅ ∅)
    (hmade : pipe < k.trace.length) (hcalls : Calls k k') :
    Ends (filesAfter base k'.trace) pipe ∅ ∅ := by
  obtain ⟨evs, hevs⟩ := hcalls.trace
  rw [hevs]
  exact h.since hmade (by simp)

end

/-! ## Whole runs -/

/-- In every run, the descriptors that a child would start with, and their close-on-exec flags, are
    those that the trace says are open. -/
theorem descriptors_traced (root : CStrBuf) (oracle : Nat → Answer) {fds : List Int}
    (hfds : fds.Nodup) {w : World} (hw : Performs (boot root oracle fds).world w) (fd : Int)
    (cloexec : Bool) :
    ⟨fd, cloexec⟩ ∈ w.k.fdTable ↔
      ∃ x, filesAfter fds w.k.trace fd = some x ∧ x.cloexec = cloexec :=
  ((boot_traced root oracle hfds).calls hw.calls).mem_fdTable fd cloexec

/-! ## What a program gets -/

section

variable {s : Service} {p : Proc} {t t' : Files}

/-- `/dev/null` is not left open above the standard streams. -/
theorem stdinFiles_less (env : ChildEnv) (t : Files) : t.LessOn (2 < ·) (stdinFiles env t) := by
  intro n hn
  unfold stdinFiles
  split
  · dsimp only
    -- the number that `open` returned is closed again
    by_cases hnull : n = env.openNull
    · have hpos : env.openNull ≠ 0 := by omega
      rw [if_pos hpos, hnull]
      exact .inl (Function.update_self ..)
    -- every other number above 2 keeps what it had
    · apply Or.inr
      have hinstall : t.install env.openNull .null n = t n := Function.update_of_ne hnull ..
      have hcopied : (if env.dup2 0 then (t.install env.openNull .null).dup env.openNull 0
          else t.install env.openNull .null) n = t n := by
        split
        · rw [Table.dup_of_ne (by omega), hinstall]
        · exact hinstall
      split
      · rw [Table.close_of_ne hnull, hcopied]
      · exact hcopied
  · exact .inr rfl

/-- The redirections of the child install nothing above 2. -/
theorem outputFiles_less (h : t.LessOn (2 < ·) t') (s : Service) (sf : StartFds) (env : ChildEnv) :
    t.LessOn (2 < ·) (outputFiles s sf env t') := by
  unfold outputFiles
  split
  · have hcopied := (h.dupIf sf.out0 1 (env.dup2 1) (by simp)).dupIf sf.out0 2 (env.dup2 2) (by simp)
    exact hcopied.close _
  · have hcopied := (h.dupIf sf.out1 1 (env.dup2 1) (by simp)).dupIf sf.err1 2 (env.dup2 2) (by simp)
    exact (((hcopied.close _).close _).close _).close _

/-- A child opens nothing above the standard streams that is still open at `execve`. -/
theorem childFiles_less (s : Service) (p : Proc) (t : Files) (kind : ChildKind) :
    t.LessOn (2 < ·) (childFiles s p t kind) := by
  cases kind with
  | run sf => exact (outputFiles_less (stdinFiles_less p.env t) s sf p.env).restrict _
  | logRun pipeRead pipeWrite =>
    have hcopied := (Table.LessOn.refl t).dupIf (p := (2 < ·)) pipeRead 0 (p.env.dup2 0) (by simp)
    exact ((hcopied.close pipeRead).close pipeWrite).restrict _
  | finish | check => exact .refl t

/-- What a program has above the standard streams, the supervisor has opened without
    `O_CLOEXEC`. -/
theorem Traced.program_cloexec {base : List Int} {k : Kernel} (h : Traced base k)
    (hp : p.fds = k.fdTable) (kind : ChildKind) {fd : Int} (hfd : 2 < fd) {x : OpenFile}
    (hx : programFiles s p (filesAfter base k.trace) kind fd = some x) : x.cloexec = false := by
  unfold programFiles Table.restrict at hx
  split at hx
  · next hkept =>
    -- what is kept until `execve`, the child has started with
    have hmem : ⟨fd, false⟩ ∈ p.fds := ((mem_atExec_fds hfd).mp hkept).1
    rw [hp, h.mem_fdTable] at hmem
    obtain ⟨y, hy, hflag⟩ := hmem
    cases childFiles_less s p (filesAfter base k.trace) kind fd hfd with
    | inl hnone =>
      rw [hnone] at hx
      cases hx
    | inr hsame =>
      rw [hsame, hy] at hx
      cases hx
      exact hflag
  · cases hx

end

/-- Whatever the supervisor has done up to the fork, and whatever fails in the child: of its pipes
    a program gets an end at most as one of its standard streams. -/
theorem pipes_not_leaked (root : CStrBuf) (oracle : Nat → Answer) {fds : List Int}
    (hfds : fds.Nodup) {k : Kernel} (hk : Calls (boot root oracle fds).world.k k) (s : Service)
    {p : Proc} (hp : p.fds = k.fdTable) (kind : ChildKind) (pipe : Nat) {fd : Int} (hfd : 2 < fd) :
    programFiles s p (filesAfter fds k.trace) kind fd ≠ some (.readEnd pipe) ∧
      programFiles s p (filesAfter fds k.trace) kind fd ≠ some (.writeEnd pipe) := by
  have htraced : Traced fds k := (boot_traced root oracle hfds).calls hk
  constructor
  -- above 2, both ends of a pipe carry the flag, so `execve` closes them
  · intro hread
    have hflag := htraced.program_cloexec hp kind hfd hread
    simp [OpenFile.cloexec] at hflag
  · intro hwrite
    have hflag := htraced.program_cloexec hp kind hfd hwrite
    simp [OpenFile.cloexec] at hflag

/-- After `a` has been started the supervisor has the read ends of two pipes; `finish` does not
    get the first of them. -/
theorem pipes_not_leaked_a :
    let w := run exec [.scanEntry (bytesOf "a"), .start 0 0] (openingOn plainFiles).world
    let p : Proc := { rootProc with fds := w.k.fdTable }
    programFiles (w.svc 0) p (filesAfter [0, 1, 2] w.k.trace) .finish (w.svc 0).out.readFd ≠
      some (.readEnd 1) := by
  intro w p
  have hread : 2 < (w.svc 0).out.readFd := by decide +kernel
  have hw : Performs (boot (CStrBuf.fromBytes (bytesOf "/s")) (opening plainFiles) [0, 1, 2]).world w :=
    ⟨_, rfl⟩
  have hp : p.fds = w.k.fdTable := rfl
  generalize w = w' at hread hw hp ⊢
  exact (pipes_not_leaked _ _ (by decide) hw.calls (w'.svc 0) hp .finish 1 hread).1

end SvcRs
