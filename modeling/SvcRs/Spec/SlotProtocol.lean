import SvcRs.ForStd.Monitor
import SvcRs.Spec.Processes

/-!
# The protocol of a slot

The life of a slot of the service table as a protocol over the events of a run: a record is
added to a free slot, its main process is forked, waited for and accounted for, in this
order and again and again, and the slot is given up while there is no process. The monitor
of this protocol knows nothing of the table; that it never stops, and always agrees with the
record, is the refinement.

## Key results

- `LifeStep.complies`: every step of the life cycle follows the protocol
- `slot_protocol`: so does every run, and the last phase is that of the record
- `starts_balance_exits`: starts minus exits is the number of live processes
-/

namespace SvcRs

open Transition (run)
open Monitor (replay)

/-! ## The protocol -/

/-- What a slot is in use for. -/
inductive Phase where
  /-- There is no record. -/
  | free
  /-- A record without a main process. -/
  | idle
  | live (pid : Int)
  /-- `waitpid` has returned the main process; its exit has not been accounted for. -/
  | gone (pid : Int)
  deriving DecidableEq, Repr

/-- The events that slot `i` allows in each phase, and the phase after them. -/
def Phase.next (i : Nat) : Phase → Event → Option Phase
  | .free, e =>
    match e with
    | .added j => some (if j = i then .idle else .free)
    | .fork (.main j) _ | .started j _ | .exited j _ _ => if j = i then none else some .free
    | _ => some .free
  | .idle, e =>
    match e with
    | .removed j => some (if j = i then .free else .idle)
    | .fork (.main j) pid => some (if j = i then .live pid else .idle)
    | .added j | .started j _ | .exited j _ _ => if j = i then none else some .idle
    | _ => some .idle
  | .live pid, e =>
    match e with
    | .reaped q _ => some (if q = pid then .gone pid else .live pid)
    | .added j | .removed j | .fork (.main j) _ | .exited j _ _ =>
      if j = i then none else some (.live pid)
    | _ => some (.live pid)
  | .gone pid, e =>
    match e with
    -- nothing may come between `waitpid` and the accounting
    | .exited j _ before => if j = i ∧ before.pid = pid then some .idle else none
    | e => if e.isLife then none else some (.gone pid)

/-- The phase that a record stands for. -/
def Core.phase (c : Core) : Phase :=
  if c.active then if 0 < c.pid then .live c.pid else .idle else .free

/-- Events that the life cycle does not log are of no interest. -/
theorem Phase.next_idle (i : Nat) (p : Phase) (e : Event) (h : e.isLife = false) :
    p.next i e = some p := by
  cases e <;> cases p <;> first
    | rfl
    | exact absurd h (by simp [Event.isLife])

/-! ## Steps -/

section

variable {S : Kind → Prop} {a b : Life} {i : Nat}

/-- The process of a record is not the logger of any record. -/
theorem Life.Tracked.main_ne_logger (h : a.Tracked) (hpid : 0 < (a.core i).pid) (j : Nat) :
    (a.core j).logPid ≠ (a.core i).pid := by
  intro heq
  have hlogger := h.logger j (heq ▸ hpid)
  have hrole := h.role_eq (heq ▸ hlogger) (h.main_mem hpid)
  cases hrole

/-- A main process belongs to one slot. -/
theorem Life.Tracked.main_inj (h : a.Tracked) (hpid : 0 < (a.core i).pid) {j : Nat}
    (heq : (a.core j).pid = (a.core i).pid) : j = i := by
  have hmain := h.main_mem (i := j) (heq ▸ hpid)
  have hrole := h.role_eq (heq ▸ hmain) (h.main_mem hpid)
  exact Role.main.inj hrole

/-- A service with a process. -/
theorem Core.phase_live {c : Core} (hact : c.active = true) (hpid : 0 < c.pid) :
    c.phase = .live c.pid := by
  rw [phase, if_pos hact, if_pos hpid]

/-- A service without one. -/
theorem Core.phase_idle {c : Core} (hact : c.active = true) (hpid : c.pid ≤ 0) :
    c.phase = .idle := by
  rw [phase, if_pos hact, if_neg (by omega)]

/-- A free slot. -/
theorem Core.phase_free {c : Core} (hact : c.active = false) : c.phase = .free := by
  rw [phase, if_neg (by simp [hact])]

/-- The phase depends on two fields. -/
theorem Core.phase_congr {c d : Core} (hact : d.active = c.active) (hpid : d.pid = c.pid) :
    d.phase = c.phase := by
  rw [phase, phase, hact, hpid]

/-- A child that is not the main process of slot `i` may be reaped. -/
theorem Core.next_reaped {c : Core} {pid status : Int} (hother : 0 < c.pid → pid ≠ c.pid) :
    c.phase.next i (.reaped pid status) = some c.phase := by
  -- free, live or idle: another pid is no event of the slot in any phase
  cases hact : c.active with
  | false =>
    rw [phase_free hact]
    rfl
  | true =>
    by_cases hpid : 0 < c.pid
    · rw [phase_live hact hpid]
      show some (if pid = c.pid then _ else _) = _
      rw [if_neg (hother hpid)]
    · rw [phase_idle hact (by omega)]
      rfl

/-- An event that is allowed in every phase of a record and changes none. -/
theorem Core.next_other (c : Core) {e : Event} (hfree : Phase.free.next i e = some .free)
    (hidle : Phase.idle.next i e = some .idle)
    (hlive : ∀ pid, (Phase.live pid).next i e = some (.live pid)) :
    c.phase.next i e = some c.phase := by
  cases hact : c.active with
  | false => rw [phase_free hact, hfree]
  | true =>
    by_cases hpid : 0 < c.pid
    · rw [phase_live hact hpid, hlive]
    · rw [phase_idle hact (by omega), hidle]

/-- A record is replaced by one in the same phase. -/
theorem Life.put_phase {j : Nat} {d : Core} (h : d.phase = (a.core j).phase) :
    ((a.put j d).core i).phase = (a.core i).phase := by
  rw [put_core]
  split
  · next hij => rw [h, hij]
  · rfl

/-- The monitor goes from the phase of slot `i` in `a` to its phase in `b`. -/
def Complies (i : Nat) (a b : Life) : Prop :=
  ∃ evs, b.log = evs ++ a.log ∧ replay (Phase.next i) (a.core i).phase evs = some (b.core i).phase

/-- A step without events, in which no record changes its phase. -/
theorem Complies.silent (hlog : b.log = a.log) (hphase : (b.core i).phase = (a.core i).phase) :
    Complies i a b :=
  ⟨[], hlog, by rw [hphase]; rfl⟩

/-- A step with one event. -/
theorem Complies.one {e : Event} (hlog : b.log = e :: a.log)
    (hnext : (a.core i).phase.next i e = some (b.core i).phase) : Complies i a b :=
  ⟨[e], hlog, by simpa using hnext⟩

/-- A step with one event, in which no record changes its phase. -/
theorem Complies.same {e : Event} (hlog : b.log = e :: a.log)
    (hphase : (b.core i).phase = (a.core i).phase)
    (hnext : (a.core i).phase.next i e = some (a.core i).phase) : Complies i a b :=
  .one hlog (hphase ▸ hnext)

/-- A step with two events, the later one in front. -/
theorem Complies.two {e e' : Event} {p : Phase} (hlog : b.log = e' :: e :: a.log)
    (hfirst : (a.core i).phase.next i e = some p)
    (hnext : p.next i e' = some (b.core i).phase) : Complies i a b :=
  ⟨[e', e], hlog, by simp [hfirst, hnext]⟩

/-- The exit of the main process of slot `j`. -/
theorem LifeStep.reapMain_complies (h : a.Tracked) {j : Nat} (status t : Int) {before : Service}
    (hbefore : before.core = a.core j) (hmem : ∃ d ∈ a.children, d.pid = (a.core j).pid)
    (hact : (a.core j).active = true) :
    Complies i a { a.put j ((a.core j).exit status t) with
      children := a.without (a.core j).pid, clock := t
      log := .exited j t before :: .reaped (a.core j).pid status :: a.log } := by
  obtain ⟨d, hd, hdpid⟩ := hmem
  -- the pids of children are positive
  have hpid : 0 < (a.core j).pid := by
    have habove := h.above d hd
    omega
  -- of this slot the monitor sees the wait and the exit, of others nothing
  by_cases hij : i = j
  · subst hij
    apply Complies.two (p := .gone (a.core i).pid) rfl
    · rw [Core.phase_live hact hpid]
      show some (if (a.core i).pid = (a.core i).pid then _ else _) = _
      rw [if_pos rfl]
    · have hsame : before.pid = (a.core i).pid := congrArg Core.pid hbefore
      show (if i = i ∧ before.pid = (a.core i).pid then some Phase.idle else none) = _
      rw [if_pos ⟨rfl, hsame⟩]
      show _ = some (((a.put i ((a.core i).exit status t)).core i).phase)
      rw [Life.put_core, if_pos rfl, Core.phase_idle (by simpa using hact) (by simp)]
  · apply Complies.two (p := (a.core i).phase) rfl
    -- the pid that was reaped is not this slot's
    · apply Core.next_reaped
      intro hpos heq
      exact hij (h.main_inj hpos heq).symm
    · have hother : (a.core i).phase.next i (.exited j t before) = some (a.core i).phase :=
        Core.next_other _ (if_neg (Ne.symm hij)) (if_neg (Ne.symm hij)) fun _ => if_neg (Ne.symm hij)
      rw [hother]
      show _ = some (((a.put j ((a.core j).exit status t)).core i).phase)
      rw [Life.put_core, if_neg hij]

/-- The start of slot `j`. -/
theorem LifeStep.start_complies {j : Nat} (hdue : (a.core j).Due a.clock) {pid : Int}
    (hpid : 1 < pid) (t : Int) :
    Complies i a { a.put j ((a.core j).start pid t) with
      children := ⟨pid, .main j⟩ :: a.children, clock := t
      log := .started j t :: .fork (.main j) pid :: a.log } := by
  -- a start of this slot is a fork from idle to live
  by_cases hij : i = j
  · subst hij
    apply Complies.two (p := .live pid) rfl
    · rw [Core.phase_idle hdue.active hdue.idle]
      show some (if i = i then Phase.live pid else .idle) = _
      rw [if_pos rfl]
    · show some (Phase.live pid) = some (((a.put i ((a.core i).start pid t)).core i).phase)
      have hlive : ((a.core i).start pid t).phase = .live pid :=
        Core.phase_live (c := (a.core i).start pid t) hdue.active (show 0 < pid by omega)
      rw [Life.put_core, if_pos rfl, hlive]
  -- a start of another slot changes neither monitor nor record
  · have hji : j ≠ i := Ne.symm hij
    apply Complies.two (p := (a.core i).phase) rfl
    · exact Core.next_other _ (if_neg hji) (congrArg some (if_neg hji)) fun _ => if_neg hji
    · have hother : (a.core i).phase.next i (.started j t) = some (a.core i).phase :=
        Core.next_other _ (if_neg hji) (if_neg hji) fun _ => rfl
      rw [hother]
      show _ = some (((a.put j ((a.core j).start pid t)).core i).phase)
      rw [Life.put_core, if_neg hij]

/-- A new record in slot `j`. -/
theorem LifeStep.add_complies {j : Nat} {c : Core} (hact : (a.core j).active = false)
    (hnew : c.New) : Complies i a { a.put j c with log := .added j :: a.log } := by
  by_cases hij : i = j
  · subst hij
    apply Complies.one rfl
    -- a free slot becomes idle, as a new record has no process
    rw [Core.phase_free hact]
    show some (if i = i then Phase.idle else .free) = some (((a.put i c).core i).phase)
    rw [if_pos rfl, Life.put_core, if_pos rfl, Core.phase_idle hnew.active (by rw [hnew.pid]; decide)]
  · have hji : j ≠ i := Ne.symm hij
    apply Complies.one rfl
    show _ = some (((a.put j c).core i).phase)
    rw [Life.put_core, if_neg hij]
    exact Core.next_other _ (congrArg some (if_neg hji)) (if_neg hji) fun _ => if_neg hji

/-- Slot `j` is given up. -/
theorem LifeStep.remove_complies {j : Nat} (hpid : (a.core j).pid ≤ 0) :
    Complies i a { a.put j { a.core j with active := false, state := .down } with
      log := .removed j :: a.log } := by
  by_cases hij : i = j
  · subst hij
    apply Complies.one rfl
    -- the slot is free again, whether it was active or not
    have hfree : ((a.put i { a.core i with active := false, state := .down }).core i).phase =
        .free := by
      rw [Life.put_core, if_pos rfl]
      rfl
    show _ = some ((a.put i { a.core i with active := false, state := .down }).core i).phase
    rw [hfree]
    cases hact : (a.core i).active with
    | false =>
      rw [Core.phase_free hact]
      rfl
    | true =>
      rw [Core.phase_idle hact hpid]
      show some (if i = i then Phase.free else .idle) = _
      rw [if_pos rfl]
  -- another slot's removal is no event of this one
  · have hji : j ≠ i := Ne.symm hij
    apply Complies.one rfl
    show _ = some (((a.put j { a.core j with active := false, state := .down }).core i).phase)
    rw [Life.put_core, if_neg hij]
    exact Core.next_other _ rfl (congrArg some (if_neg hji)) fun _ => if_neg hji

/-- Every step of the life cycle follows the protocol of every slot. -/
theorem LifeStep.complies (hstep : LifeStep S a b) (h : a.Tracked) : Complies i a b := by
  -- an event that no phase of a record looks at
  have hother : ∀ {e : Event}, (Phase.free.next i e = some .free ∧ Phase.idle.next i e = some .idle ∧
      ∀ pid, (Phase.live pid).next i e = some (.live pid)) →
      (a.core i).phase.next i e = some (a.core i).phase :=
    fun he => Core.next_other _ he.1 he.2.1 he.2.2
  cases hstep with
  | tick t ht => exact .silent rfl rfl
  | forkFinish pid hpid => exact .one rfl (hother ⟨rfl, rfl, fun _ => rfl⟩)
  | runCheck pid status hpid =>
    apply Complies.two rfl (hother ⟨rfl, rfl, fun _ => rfl⟩)
    apply Core.next_reaped
    intro hpos heq
    exact hpid.2 _ (h.main_mem hpos) heq.symm
  | reapOther pid status hmem hlog hmain =>
    apply Complies.one rfl
    apply Core.next_reaped
    intro hpos heq
    have hact := (h.sound i).active_of_pid hpos
    exact hmain i (h.inTable i hact) hact heq.symm
  | reapLogger j c hc status hmem hact =>
    subst hc
    exact .same rfl (Life.put_phase (Core.phase_congr rfl rfl))
      (Core.next_reaped fun hpos => h.main_ne_logger hpos j)
  | reapMain j c hc status t before hbefore hmem hact hlog ht hmax =>
    subst hc
    exact reapMain_complies h status t hbefore hmem hact
  | signalMain j c hc sig hpid | signalLogger j c hc sig hpid =>
    exact .one rfl (hother ⟨rfl, rfl, fun _ => rfl⟩)
  | raiseHup => exact .one rfl (hother ⟨rfl, rfl, fun _ => rfl⟩)
  | tell j c hc hpid =>
    subst hc
    exact .same rfl (Life.put_phase (Core.phase_congr rfl rfl)) (hother ⟨rfl, rfl, fun _ => rfl⟩)
  | unmark j c hc =>
    subst hc
    exact .silent rfl (Life.put_phase (Core.phase_congr rfl rfl))
  | found j c hc hS =>
    subst hc
    exact .same rfl (Life.put_phase (Core.phase_congr rfl rfl)) (hother ⟨rfl, rfl, fun _ => rfl⟩)
  | add j c hj hact hnew hS => exact add_complies hact hnew
  | remove j c hc hpid hlog =>
    subst hc
    exact remove_complies hpid
  | retry j c hc hS t hdue ht =>
    subst hc
    exact .silent rfl (Life.put_phase (Core.phase_congr rfl rfl))
  | forkLogger j c hc hS pid hdue hpid =>
    subst hc
    exact .same rfl (Life.put_phase (Core.phase_congr rfl rfl)) (hother ⟨rfl, rfl, fun _ => rfl⟩)
  | start j c hc hS pid t hdue hpid ht =>
    subst hc
    exact start_complies hdue hpid.1 t
  | startFail j c hc hS pid t hdue hpid ht =>
    subst hc
    have hidle : pid ≤ 0 := by
      have hpid' := hdue.idle
      omega
    refine .silent rfl (Life.put_phase ?_)
    rw [Core.phase_idle hdue.active hdue.idle]
    exact Core.phase_idle hdue.active hidle
  | command j c hc cmd t ht hS =>
    subst hc
    have hsame := Core.phase_congr (Core.command_active (a.core j) t cmd) (Core.command_pid ..)
    exact .same rfl (Life.put_phase hsame) (hother ⟨rfl, rfl, fun _ => rfl⟩)

end

/-! ## Runs -/

/-- In every run, the events follow the protocol of each slot, and the phase that the monitor
    is in at the end is the one that the record stands for. -/
theorem slot_protocol (root : CStrBuf) (oracle : Nat → Answer) (fds : List Int) (ops : List Op)
    (i : Nat) :
    let w := run exec ops (boot root oracle fds).world
    replay (Phase.next i) .free w.k.trace = some (w.svc i).core.phase := by
  intro w
  have hinit := boot_initial root oracle fds
  have hsteps : Steps anyKind (boot root oracle fds).world w := Performs.steps ⟨ops, rfl⟩
  have hcomplies : ∀ a b, LifeStep anyKind a b → a.Tracked → Complies i a b :=
    fun _ _ hstep htracked => hstep.complies htracked
  -- the monitor follows the life cycle, whose log leaves out what it ignores
  have hlog : replay (Phase.next i) .free w.life.log = some (w.life.core i).phase :=
    Monitor.follows_of_steps Life.log (fun a => (a.core i).phase)
      (fun _ _ hstep => hstep.tracked) hcomplies hsteps hinit.tracked rfl
  show _ = some (w.life.core i).phase
  rw [← hlog]
  exact (Monitor.replay_filter (Phase.next_idle i) .free w.k.trace).symm

/-- `start_service` forks the main process of slot `i`. -/
def Event.isStart (i : Nat) : Event → Bool
  | .fork (.main j) _ => j = i
  | _ => false

/-- The exit of a main process is accounted for in slot `i`. -/
def Event.isExit (i : Nat) : Event → Bool
  | .exited j _ _ => j = i
  | _ => false

/-- The number of processes that a slot has in a phase. -/
def Phase.processes : Phase → Nat
  | .free | .idle => 0
  | .live _ | .gone _ => 1

/-- A start makes one process more, and an exit one less. -/
theorem Phase.next_processes (i : Nat) (p : Phase) (e : Event) (q : Phase)
    (h : p.next i e = some q) :
    q.processes + (e.isExit i).toNat = p.processes + (e.isStart i).toNat := by
  cases p with
  | free | idle | live =>
    cases e with
    | fork role pid =>
      cases role with
      | main j =>
        simp only [next, Event.isExit, Event.isStart] at h ⊢
        grind [processes]
      | logger | finish | check =>
        simp only [next, Option.some.injEq] at h
        subst h
        rfl
    | _ =>
      simp only [next, Event.isExit, Event.isStart] at h ⊢
      grind [processes]
  | gone pid =>
    cases e with
    | exited j t before =>
      -- the one event that is allowed: the slot is the right one
      simp only [next, Event.isExit, Event.isStart] at h ⊢
      grind [processes]
    | _ =>
      simp only [next, Event.isLife, Event.isExit] at h ⊢
      grind [processes, Event.isStart]

/-- In every run, a slot has had one start more than exits while its process runs, and as many
    starts as exits otherwise, over all the records that have been in it. -/
theorem starts_balance_exits (root : CStrBuf) (oracle : Nat → Answer) (fds : List Int)
    (ops : List Op) (i : Nat) :
    let w := run exec ops (boot root oracle fds).world
    w.k.trace.countP (Event.isStart i) =
      w.k.trace.countP (Event.isExit i) + if 0 < (w.svc i).pid then 1 else 0 := by
  have hreach : Reachable (run exec ops (boot root oracle fds).world) := ⟨_, _, _, ops, rfl⟩
  have hsound := hreach.accounted.tracked.sound i
  have hprotocol := slot_protocol root oracle fds ops i
  intro w
  -- starts and exits balance up to the process that lives now
  have hcount : (w.svc i).core.phase.processes + w.k.trace.countP (Event.isExit i) =
      0 + w.k.trace.countP (Event.isStart i) :=
    Monitor.replay_count (Phase.next_processes i) hprotocol
  have hvalue : (w.svc i).core.phase.processes = if 0 < (w.svc i).pid then 1 else 0 := by
    by_cases hpid : 0 < (w.svc i).pid
    · have hlive : (w.svc i).core.phase = .live (w.svc i).pid :=
        Core.phase_live (hsound.active_of_pid hpid) hpid
      rw [if_pos hpid, hlive]
      rfl
    · rw [if_neg hpid]
      cases hact : (w.svc i).core.active with
      | false =>
        rw [Core.phase_free hact]
        rfl
      | true =>
        rw [Core.phase_idle hact (Int.not_lt.mp hpid)]
        rfl
  omega

end SvcRs
