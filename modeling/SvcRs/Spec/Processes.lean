import Mathlib.Data.List.Nodup
import SvcRs.Spec.Run

/-!
# Processes and records

Which children belong to which records, in every reachable state.

## Key results

- `LifeStep.tracked`: the bookkeeping of pids is an invariant of the life cycle
- `mains_recorded`: no main process is lost, duplicated or recorded wrongly
- `kills_own_children`: only unreaped main processes and loggers are signalled
-/

namespace SvcRs

open Transition (run)

/-! ## The invariant -/

/-- What a record says of its own processes. -/
structure Core.Sound (c : Core) : Prop where
  inactive : c.active = false → c.pid ≤ 0 ∧ c.logPid ≤ 0
  alive : 0 < c.pid → c.state = .running ∨ c.state = .stopping
  running : c.state = .running → 0 < c.pid ∧ c.stopping = false

/-- A record with a process is in use. -/
theorem Core.Sound.active_of_pid {c : Core} (h : c.Sound) (hpid : 0 < c.pid) :
    c.active = true := by
  cases hact : c.active with
  | true => rfl
  | false => exact absurd (h.inactive hact).1 (Int.not_le.mpr hpid)

/-- A record with a logger is in use. -/
theorem Core.Sound.active_of_logPid {c : Core} (h : c.Sound) (hpid : 0 < c.logPid) :
    c.active = true := by
  cases hact : c.active with
  | true => rfl
  | false => exact absurd (h.inactive hact).2 (Int.not_le.mpr hpid)

namespace Life

/-- The children and the records agree. The record of a logger may have been
    overwritten, so for loggers there is only one direction. -/
structure Tracked (a : Life) : Prop where
  nodup : (a.children.map Child.pid).Nodup
  above : ∀ c ∈ a.children, 1 < c.pid
  main : ∀ i pid, ⟨pid, .main i⟩ ∈ a.children ↔
    (a.core i).active = true ∧ 0 < pid ∧ (a.core i).pid = pid
  logger : ∀ i, 0 < (a.core i).logPid → ⟨(a.core i).logPid, .logger i⟩ ∈ a.children
  sound : ∀ i, (a.core i).Sound
  inTable : ∀ i, (a.core i).active = true → i < a.size

namespace Tracked

variable {a : Life} {i : Nat} {c d : Core}

/-- A pid names one child. -/
theorem role_eq (h : a.Tracked) {pid : Int} {r r' : Role} (hr : ⟨pid, r⟩ ∈ a.children)
    (hr' : ⟨pid, r'⟩ ∈ a.children) : r = r' := by
  have := List.inj_on_of_nodup_map h.nodup hr hr' rfl
  simpa using this

/-- A record with a process has it among the children. -/
theorem main_mem (h : a.Tracked) (hpid : 0 < (a.core i).pid) :
    ⟨(a.core i).pid, .main i⟩ ∈ a.children :=
  (h.main i _).mpr ⟨(h.sound i).active_of_pid hpid, hpid, rfl⟩

/-- The clock and the log do not matter. -/
theorem withLog (h : a.Tracked) (clock : Int) (log : List Event) :
    ({ a with clock, log } : Life).Tracked :=
  ⟨h.nodup, h.above, h.main, h.logger, h.sound, h.inTable⟩

/-- A record may change as long as its processes stay the same. -/
theorem put (h : a.Tracked) (hact : d.active = (a.core i).active)
    (hpid : d.pid = (a.core i).pid ∨ d.pid ≤ 0 ∧ (a.core i).pid ≤ 0)
    (hlogPid : d.logPid = (a.core i).logPid) (hsound : d.Sound) : (a.put i d).Tracked where
  nodup := h.nodup
  above := h.above
  main j pid := by
    rw [put_children, h.main j pid, put_core]
    split
    · next hj =>
      subst hj
      rw [hact]
      -- the pid is the same, or there was none and is none
      rcases hpid with hpid | ⟨hpid, hpid'⟩
      · rw [hpid]
      · constructor <;> rintro ⟨-, hpos, rfl⟩ <;> omega
    · rfl
  logger j := by
    rw [put_core]
    split
    · next hj => rw [hlogPid, hj]; exact h.logger i
    · exact h.logger j
  sound j := by
    rw [put_core]
    split
    · exact hsound
    · exact h.sound j
  inTable j := by
    rw [put_core]
    split
    · next hj => rw [hact, hj]; exact h.inTable i
    · exact h.inTable j

section

variable {pid : Int}

/-! ## Forks -/

/-- The pid of a new child is new. -/
theorem fork_nodup (h : a.Tracked) (hfresh : a.Fresh pid) (role : Role) :
    ((⟨pid, role⟩ :: a.children).map Child.pid).Nodup := by
  rw [List.map_cons, List.nodup_cons]
  refine ⟨fun hmem => ?_, h.nodup⟩
  obtain ⟨d, hd, he⟩ := List.mem_map.mp hmem
  exact hfresh.2 d hd he

/-- It is not that of `init`. -/
theorem fork_above (h : a.Tracked) (hfresh : a.Fresh pid) (role : Role) :
    ∀ d ∈ ⟨pid, role⟩ :: a.children, 1 < d.pid := by
  simp only [List.mem_cons, forall_eq_or_imp]
  exact ⟨hfresh.1, h.above⟩

/-- A child that no record keeps track of. -/
theorem forkFinish (h : a.Tracked) (hfresh : a.Fresh pid) (log : List Event) :
    ({ a with children := ⟨pid, .finish⟩ :: a.children, log } : Life).Tracked where
  nodup := h.fork_nodup hfresh _
  above := h.fork_above hfresh _
  main j p := by simp [h.main j p]
  logger j hj := List.mem_cons_of_mem _ (h.logger j hj)
  sound := h.sound
  inTable := h.inTable

/-- A logger is started. -/
theorem forkLogger (h : a.Tracked) (hfresh : a.Fresh pid) (hact : (a.core i).active = true)
    (log : List Event) :
    ({ a.put i { a.core i with logPid := pid } with
      children := ⟨pid, .logger i⟩ :: a.children, log } : Life).Tracked where
  nodup := h.fork_nodup hfresh _
  above := h.fork_above hfresh _
  main j p := by
    -- a logger is no main process
    simp only [List.mem_cons, Child.mk.injEq, reduceCtorEq, and_false, false_or, h.main j p,
      put_core]
    split
    · next hj => rw [hj]
    · rfl
  -- the new logger is the first child, every other one is further down
  logger j hj := by
    simp only [put_core] at hj ⊢
    split
    · next he => rw [he]; exact List.mem_cons_self
    · next he => rw [if_neg he] at hj; exact List.mem_cons_of_mem _ (h.logger j hj)
  sound j := by
    simp only [put_core]
    -- the slot was active, so the invariant asks nothing new of it
    split
    · have hs := h.sound i
      exact ⟨fun hna => absurd (hact.symm.trans hna) (by decide), hs.alive, hs.running⟩
    · exact h.sound j
  inTable j hj := by
    simp only [put_core] at hj
    split at hj
    · next he => exact he ▸ h.inTable i hact
    · exact h.inTable j hj

/-- A main process is started. There was none before, because the service was due. -/
theorem start (h : a.Tracked) (hfresh : a.Fresh pid) {t : Int} (hdue : (a.core i).Due a.clock)
    (clock : Int) (log : List Event) :
    ({ a.put i ((a.core i).start pid t) with
      children := ⟨pid, .main i⟩ :: a.children, clock, log } : Life).Tracked where
  nodup := h.fork_nodup hfresh _
  above := h.fork_above hfresh _
  main j p := by
    have hpos := hfresh.1
    simp only [List.mem_cons, Child.mk.injEq, Role.main.injEq, h.main j p, put_core]
    split
    · next he =>
      subst he
      -- slot `i` had no main process
      have hidle := hdue.idle
      simp only [Core.start, hdue.active]
      constructor
      · rintro (⟨rfl, -⟩ | ⟨-, hp, he⟩)
        · exact ⟨trivial, by omega, rfl⟩
        · omega
      · rintro ⟨-, -, rfl⟩
        exact .inl ⟨rfl, trivial⟩
    · next he => simp [he]
  logger j hj := by
    simp only [put_core] at hj ⊢
    split
    · next he =>
      subst he
      rw [if_pos rfl] at hj
      exact List.mem_cons_of_mem _ (h.logger j hj)
    · next he => rw [if_neg he] at hj; exact List.mem_cons_of_mem _ (h.logger j hj)
  sound j := by
    have hpos := hfresh.1
    simp only [put_core]
    split
    · exact ⟨fun hna => absurd (hdue.active.symm.trans hna) (by decide), fun _ => .inl rfl,
        fun _ => ⟨by simp only [Core.start]; omega, hdue.notStopping⟩⟩
    · exact h.sound j
  inTable j hj := by
    simp only [put_core] at hj
    split at hj
    · next he => exact he ▸ h.inTable i hdue.active
    · exact h.inTable j hj

/-! ## Exits -/

/-- The other children. -/
theorem mem_without {d : Child} : d ∈ a.without pid ↔ d ∈ a.children ∧ d.pid ≠ pid := by
  simp [Life.without]

/-- They still have different pids. -/
theorem without_nodup (h : a.Tracked) : ((a.without pid).map Child.pid).Nodup :=
  h.nodup.sublist (List.filter_sublist.map Child.pid)

/-- None of them is `init`. -/
theorem without_above (h : a.Tracked) : ∀ d ∈ a.without pid, 1 < d.pid :=
  fun d hd => h.above d (mem_without.mp hd).1

/-- A child of no record is reaped. -/
theorem reapOther (h : a.Tracked)
    (hlog : ∀ i < a.size, (a.core i).active = true → (a.core i).logPid ≠ pid)
    (hmain : ∀ i < a.size, (a.core i).active = true → (a.core i).pid ≠ pid) (log : List Event) :
    ({ a with children := a.without pid, log } : Life).Tracked where
  nodup := h.without_nodup
  above := h.without_above
  -- no record had this process
  main j p := by
    rw [mem_without, h.main j p]
    constructor
    · exact And.left
    · intro hj
      exact ⟨hj, fun he => hmain j (h.inTable j hj.1) hj.1 (hj.2.2.trans he)⟩
  logger j hj := by
    have hact := (h.sound j).active_of_logPid hj
    exact mem_without.mpr ⟨h.logger j hj, hlog j (h.inTable j hact) hact⟩
  sound := h.sound
  inTable := h.inTable

/-- The logger of a record is reaped. -/
theorem reapLogger (h : a.Tracked) (hmem : ∃ d ∈ a.children, d.pid = (a.core i).logPid)
    (log : List Event) :
    ({ a.put i { a.core i with logPid := -1 } with
      children := a.without (a.core i).logPid, log } : Life).Tracked := by
  obtain ⟨d, hd, hdpid⟩ := hmem
  have hpos : 0 < (a.core i).logPid := by
    have := h.above d hd
    omega
  have hown := h.logger i hpos
  have hsound := h.sound i
  refine ⟨h.without_nodup, h.without_above, fun j p => ?_, fun j hj => ?_, fun j => ?_,
    fun j hj => ?_⟩
  · rw [mem_without, h.main j p, put_core]
    -- the logger is no main process
    have hother : (a.core j).active = true ∧ 0 < p ∧ (a.core j).pid = p → p ≠ (a.core i).logPid := by
      rintro hj rfl
      exact absurd (h.role_eq ((h.main j _).mpr hj) hown) (by simp)
    split
    · next he => subst he; exact ⟨And.left, fun hj => ⟨hj, hother hj⟩⟩
    · exact ⟨And.left, fun hj => ⟨hj, hother hj⟩⟩
  · simp only [put_core] at hj ⊢
    split at hj
    · simp at hj
    · next he =>
      rw [if_neg he]
      refine mem_without.mpr ⟨h.logger j hj, fun hsame => he ?_⟩
      have hj' := h.logger j hj
      rw [show (a.core j).logPid = (a.core i).logPid from hsame] at hj'
      simpa using h.role_eq hj' hown
  · simp only [put_core]
    split
    · exact ⟨fun hna => ⟨(hsound.inactive hna).1, by simp⟩, hsound.alive, hsound.running⟩
    · exact h.sound j
  · simp only [put_core] at hj
    split at hj
    · next he => exact he ▸ h.inTable i hj
    · exact h.inTable j hj

/-- The main process of a record is reaped. -/
theorem reapMain (h : a.Tracked) (hmem : ∃ d ∈ a.children, d.pid = (a.core i).pid)
    (status t clock : Int) (log : List Event) :
    ({ a.put i ((a.core i).exit status t) with
      children := a.without (a.core i).pid, clock, log } : Life).Tracked := by
  obtain ⟨d, hd, hdpid⟩ := hmem
  have hpos : 0 < (a.core i).pid := by
    have := h.above d hd
    omega
  have hown := h.main_mem hpos
  have hsound := h.sound i
  obtain ⟨_, _, state, _, hexit, hrun, -⟩ := (a.core i).exit_frame status t
  rw [hexit]
  refine ⟨h.without_nodup, h.without_above, fun j p => ?_, fun j hj => ?_, fun j => ?_,
    fun j hj => ?_⟩
  -- the main processes, without this one
  · rw [mem_without, h.main j p, put_core]
    split
    · next he =>
      subst he
      simp only
      constructor
      · rintro ⟨⟨-, -, rfl⟩, hne⟩
        exact absurd rfl hne
      · rintro ⟨-, hp, rfl⟩
        omega
    · next he =>
      refine ⟨And.left, fun hj => ⟨hj, ?_⟩⟩
      rintro rfl
      exact he (by simpa using h.role_eq ((h.main j _).mpr hj) hown)
  -- the loggers: none of them has this pid
  · have hlogPid : 0 < (a.core j).logPid := by
      simp only [put_core] at hj
      split at hj
      · next he => exact he ▸ hj
      · exact hj
    have hmem := h.logger j hlogPid
    have hne : (a.core j).logPid ≠ (a.core i).pid := fun hsame => by
      rw [hsame] at hmem
      exact absurd (h.role_eq hmem hown) (by simp)
    simp only [put_core]
    split
    · next he => subst he; exact mem_without.mpr ⟨hmem, hne⟩
    · exact mem_without.mpr ⟨hmem, hne⟩
  · simp only [put_core]
    split
    · exact ⟨fun hna => ⟨by simp, (hsound.inactive hna).2⟩, fun hp => absurd hp (by simp),
        fun hst => absurd hst hrun⟩
    · exact h.sound j
  · simp only [put_core] at hj
    split at hj
    · next he => exact he ▸ h.inTable i hj
    · exact h.inTable j hj

/-! ## Slots -/

/-- A slot gets another record that, like the old one, has no processes. -/
theorem idle (h : a.Tracked) (hpid : (a.core i).pid ≤ 0) (hlog : (a.core i).logPid ≤ 0)
    (hpid' : d.pid ≤ 0) (hlog' : d.logPid ≤ 0) (hrun : d.state ≠ .running)
    (hi : d.active = true → i < a.size) : (a.put i d).Tracked where
  nodup := h.nodup
  above := h.above
  main j p := by
    rw [put_children, h.main j p, put_core]
    split
    · next he =>
      subst he
      -- no child belongs to a record without a process
      constructor
      · rintro ⟨-, hp, rfl⟩; omega
      · rintro ⟨-, hp, rfl⟩; omega
    · rfl
  logger j hj := by
    simp only [put_core] at hj ⊢
    split at hj
    · omega
    · next he => rw [if_neg he]; exact h.logger j hj
  sound j := by
    simp only [put_core]
    split
    · exact ⟨fun _ => ⟨hpid', hlog'⟩, fun hp => absurd hp (by omega), fun hr => absurd hr hrun⟩
    · exact h.sound j
  inTable j hj := by
    simp only [put_core] at hj
    split at hj
    · next he => exact he ▸ hi hj
    · exact h.inTable j hj

/-- A record without processes is put into a free slot. -/
theorem add (h : a.Tracked) (hi : i < a.size) (hact : (a.core i).active = false)
    (hnew : d.New) : (a.put i d).Tracked := by
  have hold := (h.sound i).inactive hact
  exact h.idle hold.1 hold.2 (by simp [hnew.pid]) (by simp [hnew.logPid]) (by simp [hnew.state])
    fun _ => hi

/-- A slot is freed after both of its processes have gone. -/
theorem remove (h : a.Tracked) (hpid : (a.core i).pid ≤ 0) (hlog : (a.core i).logPid ≤ 0) :
    (a.put i { a.core i with active := false, state := .down }).Tracked :=
  h.idle hpid hlog hpid hlog (by simp) (by simp)

end

end Tracked

end Life

/-- A command changes no pid. -/
theorem Core.Sound.command {c : Core} (h : c.Sound) (t : Int) (cmd : SvcCmd) :
    (c.command t cmd).Sound := by
  cases cmd with
  | start => exact ⟨h.inactive, h.alive, fun hr => ⟨(h.running hr).1, rfl⟩⟩
  -- `stop` and `restart` leave the process alone until its exit
  | stop | restart => exact ⟨h.inactive, fun _ => .inr rfl, by simp [Core.command, Core.told]⟩
  | down =>
    by_cases hpid : 0 < c.pid
    · simp only [Core.command, if_pos hpid]
      exact ⟨h.inactive, fun _ => .inr rfl, by simp [Core.told]⟩
    · simp only [Core.command, if_neg hpid]
      exact ⟨h.inactive, h.alive, h.running⟩
  | once => exact ⟨h.inactive, h.alive, h.running⟩
  | up => exact ⟨h.inactive, h.alive, fun hr => ⟨(h.running hr).1, rfl⟩⟩

/-- The bookkeeping of pids is an invariant of the life cycle. -/
theorem LifeStep.tracked {S : Kind → Prop} {a b : Life} (hstep : LifeStep S a b) (h : a.Tracked) :
    b.Tracked := by
  cases hstep with
  -- steps that change no record
  | tick t ht => exact h.withLog t a.log
  | forkFinish pid hpid => exact h.forkFinish hpid _
  | runCheck pid status hpid => exact h.withLog a.clock _
  | reapOther pid status hmem hlog hmain => exact h.reapOther hlog hmain _
  | reapLogger i c hc status hmem hact => subst hc; exact h.reapLogger hmem _
  | reapMain i c hc status t before hbefore hmem hact hlog ht hmax =>
    subst hc
    exact h.reapMain hmem status t t _
  | signalMain i c hc sig hpid => exact h.withLog a.clock _
  | signalLogger i c hc sig hpid => exact h.withLog a.clock _
  | raiseHup => exact h.withLog a.clock _
  -- a record changes, but not its processes
  | tell i c hc hpid =>
    subst hc
    exact (h.put (d := (a.core i).told) rfl (.inl rfl) rfl
      ⟨(h.sound i).inactive, fun _ => .inr rfl, by simp [Core.told]⟩).withLog _ _
  | unmark i c hc =>
    subst hc
    exact h.put rfl (.inl rfl) rfl { h.sound i with }
  | found i c hc hS =>
    subst hc
    have hs := h.sound i
    exact (h.put (d := { a.core i with present := true, stopping := false }) rfl (.inl rfl) rfl
      ⟨hs.inactive, hs.alive, fun hr => ⟨(hs.running hr).1, rfl⟩⟩).withLog _ _
  | add i c hi hact hnew => exact (h.add hi hact hnew).withLog _ _
  | remove i c hc hpid hlog => subst hc; exact (h.remove hpid hlog).withLog _ _
  | retry i c hc hS t hdue ht =>
    subst hc
    exact (h.put (d := { a.core i with restartAt := i64 (t + 1) }) rfl (.inl rfl) rfl
      { h.sound i with }).withLog _ _
  -- the forks
  | forkLogger i c hc hS pid hdue hpid => subst hc; exact h.forkLogger hpid hdue.active _
  | start i c hc hS pid t hdue hpid ht => subst hc; exact h.start hpid hdue _ _
  | startFail i c hc hS pid t hdue hpid ht =>
    subst hc
    have hidle := hdue.idle
    have hpid' : pid ≤ 0 := by omega
    exact (h.put (d := { a.core i with
        pid, state := .failed, restartAt := i64 (t + backoffShort) }) rfl (.inr ⟨hpid', hidle⟩) rfl
      ⟨fun hna => ⟨hpid', ((h.sound i).inactive hna).2⟩, fun hp => absurd hp (by simpa using hpid'),
        by simp⟩).withLog _ _
  | command i c hc cmd t ht =>
    subst hc
    exact (h.put ((a.core i).command_active t cmd) (.inl ((a.core i).command_pid t cmd))
      ((a.core i).command_logPid t cmd) ((h.sound i).command t cmd)).withLog _ _

/-! ## Processes in the trace -/

/-- The children that have been forked and not reaped, read off the trace. -/
def unreaped : List Event → List Child
  | [] => []
  | .fork role pid :: trace => ⟨pid, role⟩ :: unreaped trace
  | .reaped pid _ :: trace => (unreaped trace).filter fun c => c.pid ≠ pid
  | _ :: trace => unreaped trace

/-- `kill(target, ..)` signals the process group of the main process `c`, or the logger `c`. -/
def Child.SignalledBy (c : Child) (target : Int) : Prop :=
  (∃ i, c.role = .main i ∧ target = -c.pid) ∨ ∃ i, c.role = .logger i ∧ target = c.pid

/-- Every `kill` in the trace went to a child that had not been reaped at that point. -/
def KillsOwnChildren (trace : List Event) : Prop :=
  ∀ newer older target sig, trace = newer ++ .kill target sig :: older →
    ∃ c ∈ unreaped older, 0 < c.pid ∧ c.SignalledBy target ∧
      target ≠ 0 ∧ target ≠ 1 ∧ target ≠ -1

/-- The log has all forks and exits of the trace. -/
theorem unreaped_log (k : Kernel) : unreaped k.log = unreaped k.trace := by
  unfold Kernel.log
  induction k.trace with
  | nil => rfl
  | cons e trace ih => cases e <;> simp [List.filter_cons, Event.isLife, unreaped, ih]

/-- One more event. -/
theorem KillsOwnChildren.cons {trace : List Event} {e : Event} (h : KillsOwnChildren trace)
    (he : ∀ target sig, e = .kill target sig → ∃ c ∈ unreaped trace, 0 < c.pid ∧
      c.SignalledBy target ∧ target ≠ 0 ∧ target ≠ 1 ∧ target ≠ -1) :
    KillsOwnChildren (e :: trace) := by
  intro newer older target sig heq
  cases newer with
  | nil =>
    obtain ⟨rfl, rfl⟩ := List.cons.inj heq
    exact he target sig rfl
  | cons e' newer =>
    obtain ⟨-, hrest⟩ := List.cons.inj heq
    exact h newer older target sig hrest

/-- It has all its signals as well. -/
theorem KillsOwnChildren.of_log {k : Kernel} (h : KillsOwnChildren k.log) :
    KillsOwnChildren k.trace := by
  intro newer older target sig heq
  have hlog : k.log = newer.filter Event.isLife ++ .kill target sig :: older.filter Event.isLife := by
    rw [Kernel.log, heq, List.filter_append, List.filter_cons_of_pos rfl]
  obtain ⟨c, hc, hrest⟩ := h _ _ target sig hlog
  have := unreaped_log { k with trace := older }
  exact ⟨c, this ▸ hc, hrest⟩

/-- The trace tells which children there are, and nobody else was signalled. -/
structure Life.Accounted (a : Life) : Prop where
  tracked : a.Tracked
  children : a.children = unreaped a.log
  kills : KillsOwnChildren a.log

/-- A pid that is not in use is that of no child. -/
theorem Life.Fresh.without {a : Life} {pid : Int} (h : a.Fresh pid) : a.without pid = a.children :=
  List.filter_eq_self.mpr fun c hc => by simpa using h.2 c hc

/-- After each step, the children are those that the log says. -/
theorem LifeStep.children_unreaped {S : Kind → Prop} {a b : Life} (hstep : LifeStep S a b)
    (h : a.children = unreaped a.log) : b.children = unreaped b.log := by
  cases hstep with
  | runCheck pid status hpid =>
    have hfilter := List.filter_cons_of_neg (p := fun c : Child => c.pid ≠ pid)
      (a := ⟨pid, .check⟩) (l := a.children) (by simp)
    simp only [unreaped, ← h]
    exact (hfilter.trans hpid.without).symm
  | _ => simp only [Life.put_children, Life.put_log, unreaped, h, Life.without]

/-- The main process of a record may be signalled. -/
theorem Life.Tracked.signal_main {a : Life} (h : a.Tracked) {i : Nat} (hpid : 0 < (a.core i).pid) :
    ∃ c ∈ a.children, 0 < c.pid ∧ c.SignalledBy (-(a.core i).pid) ∧
      -(a.core i).pid ≠ 0 ∧ -(a.core i).pid ≠ 1 ∧ -(a.core i).pid ≠ -1 := by
  have hmem := h.main_mem hpid
  have habove : 1 < (a.core i).pid := h.above _ hmem
  exact ⟨_, hmem, hpid, .inl ⟨i, rfl, rfl⟩, by omega, by omega, by omega⟩

/-- The logger of a record may be signalled. -/
theorem Life.Tracked.signal_logger {a : Life} (h : a.Tracked) {i : Nat}
    (hpid : 0 < (a.core i).logPid) :
    ∃ c ∈ a.children, 0 < c.pid ∧ c.SignalledBy (a.core i).logPid ∧
      (a.core i).logPid ≠ 0 ∧ (a.core i).logPid ≠ 1 ∧ (a.core i).logPid ≠ -1 := by
  have hmem := h.logger i hpid
  have habove : 1 < (a.core i).logPid := h.above _ hmem
  exact ⟨_, hmem, hpid, .inr ⟨i, rfl, rfl⟩, by omega, by omega, by omega⟩

/-- Each step signals only what it may. -/
theorem LifeStep.accounted {S : Kind → Prop} {a b : Life} (hstep : LifeStep S a b) (h : a.Accounted) :
    b.Accounted := by
  refine ⟨hstep.tracked h.tracked, hstep.children_unreaped h.children, ?_⟩
  -- an event that is no `kill` says nothing new
  have hother : ∀ {log e}, KillsOwnChildren log → (∀ target sig, e ≠ .kill target sig) →
      KillsOwnChildren (e :: log) :=
    fun hl he => hl.cons fun target sig heq => absurd heq (he target sig)
  cases hstep with
  | tick | unmark | retry | startFail => exact h.kills
  | runCheck | reapMain | start => exact hother (hother h.kills (by simp)) (by simp)
  | signalMain i c hc sig hpid | tell i c hc hpid =>
    subst hc
    refine h.kills.cons fun target sig heq => ?_
    obtain ⟨rfl, -⟩ := Event.kill.inj heq
    exact h.children ▸ h.tracked.signal_main hpid
  | signalLogger i c hc sig hpid =>
    subst hc
    refine h.kills.cons fun target sig heq => ?_
    obtain ⟨rfl, -⟩ := Event.kill.inj heq
    exact h.children ▸ h.tracked.signal_logger hpid
  | _ => exact hother h.kills (by simp)

/-- An unused slot. -/
theorem zeroed_sound : Service.zeroed.core.Sound :=
  ⟨fun _ => ⟨Int.le_refl _, Int.le_refl _⟩, fun h => absurd h (by decide), fun h => by cases h⟩

/-- At the beginning there is no child and no record. -/
theorem Life.Initial.tracked {a : Life} (h : a.Initial) : a.Tracked where
  nodup := by simp [h.children]
  above := by simp [h.children]
  main i pid := by simp [h.children, h.core, Service.core, Service.zeroed]
  logger i hi := by simp [h.core, Service.core, Service.zeroed] at hi
  sound i := h.core ▸ zeroed_sound
  inTable i hi := by simp [h.core, Service.core, Service.zeroed] at hi

/-- And nobody has been signalled. -/
theorem Life.Initial.accounted {a : Life} (h : a.Initial) : a.Accounted :=
  ⟨h.tracked, by simp [h.children, h.log, unreaped], by simp [h.log, KillsOwnChildren]⟩

/-- Every reachable state. -/
theorem Reachable.accounted {w : World} (hw : Reachable w) : w.life.Accounted :=
  hw.invariant (fun _ => Life.Initial.accounted) fun _ _ => LifeStep.accounted

/-! ## Main processes -/

/-- No main process is lost, duplicated or recorded wrongly. -/
structure World.MainsRecorded (w : World) : Prop where
  /-- The process table holds what was forked and not reaped. -/
  children : w.k.children = unreaped w.k.trace
  /-- An unreaped main process is the `pid` of one active service, the one it was forked for. -/
  recorded : ∀ c ∈ w.k.children, ∀ i, c.role = .main i →
    i < w.size ∧ (w.svc i).active = true ∧ (w.svc i).pid = c.pid ∧
      ∀ j, (w.svc j).active = true → (w.svc j).pid = c.pid → j = i
  /-- Every `pid` of an active service is such a process. -/
  forked : ∀ i, (w.svc i).active = true → 0 < (w.svc i).pid →
    ⟨(w.svc i).pid, .main i⟩ ∈ w.k.children
  /-- A service never has two main processes. -/
  single : ∀ c ∈ w.k.children, ∀ c' ∈ w.k.children, ∀ i,
    c.role = .main i → c'.role = .main i → c = c'
  /-- A slot that is not active owns no unreaped main process. -/
  inactive : ∀ i, (w.svc i).active = false → ∀ c ∈ w.k.children, c.role ≠ .main i
  -- a process that lives is RUNNING or about to stop
  alive : ∀ i, (w.svc i).active = true → 0 < (w.svc i).pid →
    (w.svc i).state = .running ∨ (w.svc i).state = .stopping
  running : ∀ i, (w.svc i).active = true → (w.svc i).state = .running →
    0 < (w.svc i).pid ∧ (w.svc i).stopping = false
  /-- Reaping a main process updates one record, its own. -/
  updates : ∀ c ∈ w.k.children, ∀ i, c.role = .main i → ∀ status j,
    (reapChild c.pid status w).2.svc j ≠ w.svc j ↔ j = i

/-- The record after the exit of its main process. -/
theorem reapMain_core (slot : Nat) (status t : Int) (s : Service) (k : Kernel) :
    (reapMain slot status t s k).1.core = s.core.exit status t :=
  (reapMain_drifts (S := anyKind) (w := ⟨CStrBuf.new, 0, fun _ => s, k⟩) slot status t s).post
    (emit (.exited slot t s) k).2

/-- The reaper finds the record of a main process, and no logger's. -/
theorem Life.Tracked.reap_main {w : World} (h : w.life.Tracked) {pid : Int} {i : Nat}
    (hmem : ⟨pid, .main i⟩ ∈ w.k.children) :
    w.loggerSlot pid = none ∧ w.mainSlot pid = some i := by
  obtain ⟨hact, hpos, hpid⟩ := (h.main i pid).mp hmem
  constructor
  -- no logger has the pid of a main process
  · cases hl : w.loggerSlot pid with
    | none => rfl
    | some j =>
      obtain ⟨-, -, rfl⟩ := loggerSlot_some hl
      have hlogger := h.logger j hpos
      exact absurd (h.role_eq hmem hlogger) (by simp)
  -- and no other record has it either
  · cases hm : w.mainSlot pid with
    | none => exact absurd hpid (mainSlot_none hm i (h.inTable i hact) hact)
    | some j =>
      obtain ⟨-, hactj, hpidj⟩ := mainSlot_some hm
      have hj := (h.main j pid).mpr ⟨hactj, hpos, hpidj⟩
      simpa using h.role_eq hj hmem

/-- Reaping a main process changes its record and no other. -/
theorem reapChild_main {w : World} (h : w.life.Tracked) {pid : Int} {i : Nat}
    (hmem : ⟨pid, .main i⟩ ∈ w.k.children) (status : Int) :
    ((reapChild pid status w).2.svc i).core =
        (w.svc i).core.exit status (w.k.reapTime pid status) ∧
      ∀ j, j ≠ i → (reapChild pid status w).2.svc j = w.svc j := by
  obtain ⟨hlog, hmain⟩ := h.reap_main hmem
  rcases reapChild_cases pid status w with
    ⟨hno, -⟩ | ⟨k, hk, ⟨_, hl, -⟩ | ⟨i', -, hm, he⟩ | ⟨-, hm, -⟩⟩
  -- the pid is a child's, no logger's, and the one of slot `i`
  · exact absurd ⟨_, hmem, rfl⟩ hno
  · simp [hlog] at hl
  · obtain rfl : i = i' := by simpa [hmain] using hm
    rw [he]
    refine ⟨?_, fun j hj => by rw [onSlot_svc, if_neg hj]⟩
    rw [onSlot_svc, if_pos rfl, reapMain_core, hk.now]
  · simp [hmain] at hm

/-- The exit of a main process is recorded in its own slot and nowhere else. -/
theorem reapChild_updates {w : World} (h : w.life.Tracked) {pid : Int} {i : Nat}
    (hmem : ⟨pid, .main i⟩ ∈ w.k.children) (status : Int) (j : Nat) :
    (reapChild pid status w).2.svc j ≠ w.svc j ↔ j = i := by
  obtain ⟨hcore, hothers⟩ := reapChild_main h hmem status
  obtain ⟨-, hpos, hpid⟩ := (h.main i pid).mp hmem
  refine ⟨fun hne => Decidable.byContradiction fun hj => hne (hothers j hj), ?_⟩
  rintro rfl hsame
  have hreaped : ((reapChild pid status w).2.svc j).pid = -1 :=
    (congrArg Core.pid hcore).trans (by simp)
  have hold : (w.svc j).pid = pid := hpid
  rw [hsame] at hreaped
  omega

/-- In every reachable state, the unreaped main processes are those of the records. -/
theorem mains_recorded (root : CStrBuf) (oracle : Nat → Answer) (fds : List Int) (ops : List Op) :
    (run exec ops (boot root oracle fds).world).MainsRecorded := by
  have hw : Reachable (run exec ops (boot root oracle fds).world) := ⟨root, oracle, fds, ops, rfl⟩
  generalize run exec ops (boot root oracle fds).world = w at hw
  have hacc := hw.accounted
  have h := hacc.tracked
  -- children and records name each other
  have hmem : ∀ c ∈ w.k.children, ∀ i, c.role = .main i → ⟨c.pid, .main i⟩ ∈ w.k.children := by
    rintro ⟨pid, role⟩ hc i rfl
    exact hc
  have hown : ∀ c ∈ w.k.children, ∀ i, c.role = .main i →
      (w.svc i).active = true ∧ 0 < c.pid ∧ (w.svc i).pid = c.pid :=
    fun c hc i hi => (h.main i c.pid).mp (hmem c hc i hi)
  refine ⟨?_, ?_, ?_, ?_, ?_, ?_, ?_, ?_⟩
  · exact hacc.children.trans (unreaped_log w.k)
  · intro c hc i hi
    obtain ⟨hact, hpos, hpid⟩ := hown c hc i hi
    refine ⟨h.inTable i hact, hact, hpid, fun j hactj hpidj => ?_⟩
    have hj := (h.main j c.pid).mpr ⟨hactj, hpos, hpidj⟩
    simpa using h.role_eq hj (hmem c hc i hi)
  · exact fun i _ hpos => h.main_mem hpos
  · rintro ⟨pid, role⟩ hc ⟨pid', role'⟩ hc' i rfl rfl
    have hpid : pid = pid' := (hown _ hc i rfl).2.2.symm.trans (hown _ hc' i rfl).2.2
    rw [hpid]
  · intro i hact c hc hi
    exact absurd (hact.symm.trans (hown c hc i hi).1) (by decide)
  · exact fun i _ hpos => (h.sound i).alive hpos
  · exact fun i _ hrun => (h.sound i).running hrun
  · exact fun c hc i hi status j => reapChild_updates h (hmem c hc i hi) status j

/-- In every run, each signal was for an unreaped main process or logger. -/
theorem kills_own_children (root : CStrBuf) (oracle : Nat → Answer) (fds : List Int)
    (ops : List Op) : KillsOwnChildren (run exec ops (boot root oracle fds).world).k.trace := by
  have hw : Reachable (run exec ops (boot root oracle fds).world) := ⟨root, oracle, fds, ops, rfl⟩
  exact hw.accounted.kills.of_log

end SvcRs
