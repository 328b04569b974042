import SvcRs.Spec.Quiet

/-!
# The events of a computation

What all events of a computation have in common. The lemmas are about the functions that work on
one record.

## Key results

- `writeStatusFile_allEvents`, `touchFile_allEvents`: only files are written
-/

namespace SvcRs

/-- All events between the two states satisfy `P`. -/
def Emits (P : Event → Prop) (k k' : Kernel) : Prop :=
  ∃ evs, k'.trace = evs ++ k.trace ∧ ∀ e ∈ evs, P e

instance (P : Event → Prop) : Std.Refl (Emits P) := ⟨fun _ => ⟨[], rfl, by simp⟩⟩

instance (P : Event → Prop) : IsTrans Kernel (Emits P) where
  trans := by
    rintro k₁ k₂ k₃ ⟨early, hearly, hP⟩ ⟨late, hlate, hP'⟩
    refine ⟨late ++ early, by rw [hlate, hearly, List.append_assoc], fun e he => ?_⟩
    exact (List.mem_append.mp he).elim (hP' e) (hP e)

/-- A computation all of whose events satisfy `P`. -/
abbrev AllEvents {α : Type} (P : Event → Prop) (m : Sys α) : Prop :=
  StateM.Keeps (Emits P) m fun _ => True

section

variable {P : Event → Prop} {k k' : Kernel}

/-- A weaker condition on the events. -/
theorem Emits.mono {Q : Event → Prop} (h : Emits P k k') (hPQ : ∀ e, P e → Q e) : Emits Q k k' := by
  obtain ⟨evs, hevs, hP⟩ := h
  exact ⟨evs, hevs, fun e he => hPQ e (hP e he)⟩

/-- No event at all. -/
theorem allEvents_silent {α : Type} {m : Sys α} (h : ∀ k, (m k).2.trace = k.trace) :
    AllEvents P m :=
  fun k _ => ⟨⟨[], h k, by simp⟩, trivial⟩

/-- A single event. -/
theorem emit_allEvents {e : Event} (h : P e) : AllEvents P (emit e) :=
  fun _ _ => ⟨⟨[e], rfl, by simpa using h⟩, trivial⟩

/-- `open` leaves one event if it succeeds. -/
theorem openFile_allEvents {path : Bytes} {mode : OpenMode} (h : ∀ fd, P (.opened path mode fd)) :
    AllEvents P (openFile path mode) := by
  intro k _
  simp only [openFile, Sys.bind_apply]
  split
  · exact ⟨⟨[_], rfl, by simpa using h _⟩, trivial⟩
  · exact ⟨⟨[], rfl, by simp⟩, trivial⟩

/-- `close` leaves one event. -/
theorem closeFd_allEvents {fd : Int} (h : P (.closed fd)) : AllEvents P (closeFd fd) := by
  intro k _
  simp only [closeFd]
  split
  · exact ⟨⟨[_], rfl, by simpa using h⟩, trivial⟩
  · exact ⟨⟨[], rfl, by simp⟩, trivial⟩

/-- `fork` leaves one event if it succeeds. -/
theorem fork_allEvents {role : Role} (h : ∀ pid, P (.fork role pid)) : AllEvents P (fork role) := by
  intro k _
  simp only [fork, Sys.bind_apply]
  split
  · exact ⟨⟨[_], rfl, by simpa using h _⟩, trivial⟩
  · exact ⟨⟨[], rfl, by simp⟩, trivial⟩

/-- `waitpid` leaves one event if it finds a child. -/
theorem waitpid_allEvents {pid status : Int} (h : P (.reaped pid status)) :
    AllEvents P (waitpid pid status) := by
  intro k _
  simp only [waitpid]
  split
  · exact ⟨⟨[_], rfl, by simpa using h⟩, trivial⟩
  · exact ⟨⟨[], rfl, by simp⟩, trivial⟩

/-- Reading the environment file leaves no event. -/
theorem prepareServiceEnv_allEvents (s : Service) : AllEvents P (prepareServiceEnv s) := by
  have henv : AllEvents P (readEnv s) := by
    apply allEvents_silent
    intro k
    unfold readEnv
    rw [Sys.bind_apply]
    rcases (readFileToBuf (joinPath s.dir "/env") envBuf k).1 with _ | _ | ⟨c, rest⟩ <;> rfl
  exact henv.seq fun _ => allEvents_silent fun _ => rfl

/-- `check` forks a child and reaps it. -/
theorem runCheck_allEvents (hfork : ∀ pid, P (.fork .check pid))
    (hreaped : ∀ pid status, P (.reaped pid status)) (s : Service) : AllEvents P (runCheck s) := by
  apply (prepareServiceEnv_allEvents s).seq
  intro _
  have haccess : AllEvents P (access (joinPath s.dir "/check") .exec) := allEvents_silent fun _ => rfl
  apply haccess.seq
  intro ok
  have hcall : AllEvents P call := allEvents_silent fun _ => rfl
  -- the check is forked, and waited for if there is a child
  have hrun : AllEvents P forkCheck := by
    apply (fork_allEvents hfork).seq
    intro pid
    refine StateM.Keeps.ite (fun _ => ?_) fun _ => .pure trivial
    exact hcall.seq fun _ => (waitpid_allEvents (hreaped _ _)).seq fun _ => .pure trivial
  exact StateM.Keeps.ite (fun _ => .pure trivial) fun _ => hrun

/-- Files are written, and nobody is signalled. -/
def Event.isFile : Event → Bool
  | .opened .. | .closed .. | .wrote .. | .unlinked .. | .status .. => true
  | _ => false

/-- The file is opened, written and closed, and `Event.status` sums it up. -/
theorem writeStatusFile_reports (s : Service)
    (hfile : ∀ e : Event, e.isFile = true → (∀ path text, e ≠ .status path text) → P e)
    (hstatus : ∀ text, P (.status (joinPath s.dir "/status") text)) :
    AllEvents P (writeStatusFile s) := by
  unfold writeStatusFile
  apply (openFile_allEvents fun _ => hfile _ rfl (by simp)).seq
  intro fd
  refine StateM.Keeps.ite (fun _ => emit_allEvents (hstatus none)) fun _ => ?_
  have hclock : AllEvents P monoNow := allEvents_silent fun _ => rfl
  apply hclock.seq
  intro now
  -- writing all of the text is an event of the file
  have hwrite : AllEvents P (writeAll fd (statusText s now).bytes) := by
    have hcall : AllEvents P call := allEvents_silent fun _ => rfl
    exact hcall.seq fun _ => (emit_allEvents (hfile _ rfl (by simp))).seq fun _ => .pure trivial
  apply hwrite.seq
  intro written
  exact (closeFd_allEvents (hfile _ rfl (by simp))).seq fun _ => emit_allEvents (hstatus _)

variable (hfile : ∀ e : Event, e.isFile = true → P e)
include hfile

/-- The status file leaves events about files only. -/
theorem writeStatusFile_allEvents (s : Service) : AllEvents P (writeStatusFile s) :=
  writeStatusFile_reports s (fun e he _ => hfile e he) fun _ => hfile _ rfl

/-- So does an empty file. -/
theorem touchFile_allEvents (path : Bytes) : AllEvents P (touchFile path) :=
  (openFile_allEvents fun _ => hfile _ rfl).seq fun _ => closeFd_allEvents (hfile _ rfl)

end

end SvcRs
