import SvcRs.ForStd.List
import SvcRs.Spec.Processes

/-!
# The circuit breaker

The log says when the counted runs of a service began and ended. The counter `restarts`
is the number of short runs at the end of that history; the circuit breaker was meant
to look at the exits of the last 60 seconds.

## Key results

- `LifeStep.history`: what `restarts` and `started_at` say of the history
- `breaker_iff`: when the decision at an exit is the one of the sliding window
- `slow_loop_fails`: six short runs trip the breaker however far apart they end
-/

namespace SvcRs

open Transition (run)

/-! ## The history of a service -/

/-- A run of a main process, with the `started_at` of its record and the reaper's reading. -/
structure ProcRun where
  startedAt : Int
  exitedAt : Int
  deriving DecidableEq, Repr

/-- The reaper found neither `stopping` nor `once`. -/
def Service.counts (s : Service) : Bool := !s.stopping && !s.once

/-- The runs of slot `i` whose exits were counted, newest first, since its record was added. -/
def countedRuns (i : Nat) : List Event → List ProcRun
  | [] => []
  | .exited j t s :: log =>
    if j = i ∧ s.counts = true then ⟨s.startedAt, t⟩ :: countedRuns i log else countedRuns i log
  | .added j :: log => if j = i then [] else countedRuns i log
  | _ :: log => countedRuns i log

/-- The run lasted no longer than the window. -/
def ProcRun.short (r : ProcRun) : Bool := r.exitedAt - r.startedAt ≤ restartWindowS

/-- The run ended in the window up to `t`. -/
def ProcRun.recent (t : Int) (r : ProcRun) : Bool := t - r.exitedAt ≤ restartWindowS

/-- The number of short runs since the last long one. -/
def streak (runs : List ProcRun) : Nat := (runs.takeWhile ProcRun.short).length

/-- The number of exits in the window up to `t`. -/
def exitsInWindow (t : Int) (runs : List ProcRun) : Nat := runs.countP (ProcRun.recent t)

/-- Each run began after the one before it ended, and all ended before `t`. -/
structure Ordered (runs : List ProcRun) (t : Int) : Prop where
  apart : runs.Pairwise fun r r' => r'.exitedAt ≤ r.startedAt
  forward : ∀ r ∈ runs, r.startedAt ≤ r.exitedAt
  past : ∀ r ∈ runs, r.exitedAt ≤ t

namespace Ordered

variable {runs : List ProcRun} {t t' : Int}

/-- The bound on the times may be raised. -/
theorem mono (h : Ordered runs t) (ht : t ≤ t') : Ordered runs t' :=
  { h with past := fun r hr => Int.le_trans (h.past r hr) ht }

/-- One more run. -/
theorem cons (h : Ordered runs t) (ht : t ≤ t') : Ordered (⟨t, t'⟩ :: runs) t' where
  apart := List.pairwise_cons.mpr ⟨h.past, h.apart⟩
  forward := by simpa using ⟨ht, h.forward⟩
  past := by simpa using fun r hr => Int.le_trans (h.past r hr) ht

/-- If a run ended in the window, so did those after it. -/
theorem recent (h : Ordered runs t) :
    runs.Pairwise fun r r' => r'.recent t = true → r.recent t = true := by
  refine List.Pairwise.imp_of_mem (fun {r r'} hr _ hrr' => ?_) h.apart
  have := h.forward r hr
  simp only [ProcRun.recent, decide_eq_true_eq]
  omega

/-- The runs after one that ended in the window are short. -/
theorem short_of_recent (h : Ordered runs t) {k n : Nat} {r r' : ProcRun} (hk : k < n)
    (hr : runs[k]? = some r) (hr' : runs[n]? = some r') (hrecent : r'.recent t = true) :
    r.short = true := by
  obtain ⟨hk', rfl⟩ := List.getElem?_eq_some_iff.mp hr
  obtain ⟨hn', rfl⟩ := List.getElem?_eq_some_iff.mp hr'
  have hapart := List.pairwise_iff_getElem.mp h.apart k n hk' hn' hk
  have hpast := h.past _ (List.getElem_mem hk')
  simp only [ProcRun.recent, ProcRun.short, decide_eq_true_eq] at hrecent ⊢
  omega

end Ordered

/-! ## The counter -/

/-- A short run makes the streak longer, a long one ends it. -/
theorem streak_cons (r : ProcRun) (runs : List ProcRun) :
    streak (r :: runs) = if r.short then streak runs + 1 else 0 := by
  simp only [streak, List.takeWhile_cons]
  split <;> rfl

/-- What the record of slot `i` says of the history. -/
structure Life.History (i : Nat) (a : Life) : Prop where
  restarts : (a.core i).restarts = UInt32.ofNat (streak (countedRuns i a.log))
  past : Ordered (countedRuns i a.log) a.clock
  running : 0 < (a.core i).pid → Ordered (countedRuns i a.log) (a.core i).startedAt
  started : 0 ≤ (a.core i).startedAt ∧ (a.core i).startedAt ≤ a.clock

section

variable {S : Kind → Prop} {a b : Life} {i : Nat}

/-- A step that changes nothing that the history is about. -/
theorem Life.History.put (h : a.History i) (hclock : a.clock ≤ b.clock) {j : Nat} {c : Core}
    (hcore : b.core = (a.put j c).core) (hruns : countedRuns i b.log = countedRuns i a.log)
    (hrestarts : c.restarts = (a.core j).restarts) (hstarted : c.startedAt = (a.core j).startedAt)
    (hpid : 0 < c.pid → 0 < (a.core j).pid) : b.History i := by
  -- what the history speaks of is the same in every slot
  have hsame : (b.core i).restarts = (a.core i).restarts ∧
      (b.core i).startedAt = (a.core i).startedAt ∧ (0 < (b.core i).pid → 0 < (a.core i).pid) := by
    rw [hcore, Life.put_core]
    split
    · next he => subst he; exact ⟨hrestarts, hstarted, hpid⟩
    · exact ⟨rfl, rfl, id⟩
  obtain ⟨hr, hs, hp⟩ := hsame
  -- counter, order of the runs, the current start, and its place before the clock
  refine ⟨?_, ?_, fun hpos => ?_, ?_⟩
  · rw [hr, hruns, h.restarts]
  · rw [hruns]
    exact h.past.mono hclock
  · rw [hs, hruns]
    exact h.running (hp hpos)
  · rw [hs]
    exact ⟨h.started.1, Int.le_trans h.started.2 hclock⟩

/-- A step that neither changes the record nor ends a run. -/
theorem Life.History.frame (h : a.History i) (hclock : a.clock ≤ b.clock)
    (hcore : b.core = a.core) (hruns : countedRuns i b.log = countedRuns i a.log) :
    b.History i := by
  have hself : b.core = (a.put i (a.core i)).core := by
    rw [hcore]
    funext j
    rw [Life.put_core]
    split
    · next he => rw [he]
    · rfl
  exact h.put hclock hself hruns rfl rfl id

/-- The counter after a counted exit. -/
theorem Life.History.nextRestarts (h : a.History i) {t : Int} (ht : a.clock ≤ t)
    (hmax : t ≤ i64Max) : (a.core i).nextRestarts t =
      UInt32.ofNat (streak (⟨(a.core i).startedAt, t⟩ :: countedRuns i a.log)) := by
  have hstarted := h.started
  -- neither time leaves the i64 range, so the subtraction does not wrap
  have hexact : i64 (t - (a.core i).startedAt) = t - (a.core i).startedAt := by
    refine i64_eq_self ?_ ?_ <;> omega
  rw [Core.nextRestarts, hexact, streak_cons, h.restarts]
  -- a run of more than 60 s starts a new streak, as the reaper resets the counter
  by_cases hlong : t - (a.core i).startedAt > restartWindowS
  · have hshort : ¬ProcRun.short ⟨(a.core i).startedAt, t⟩ = true := by
      simp only [ProcRun.short, decide_eq_true_eq]
      omega
    rw [if_pos hlong, if_neg hshort]
    rfl
  · have hshort : ProcRun.short ⟨(a.core i).startedAt, t⟩ = true := by
      simp only [ProcRun.short, decide_eq_true_eq]
      omega
    rw [if_neg hlong, if_pos hshort, UInt32.ofNat_add]
    rfl

/-- The exit of the main process of slot `i`. -/
theorem Life.History.exit (h : a.History i) (hpid : 0 < (a.core i).pid) {status t : Int}
    {before : Service} (hbefore : before.core = a.core i) (ht : a.clock ≤ t) (hmax : t ≤ i64Max)
    (hb : b.core i = (a.core i).exit status t) (hclock : b.clock = t)
    (hlog : ∃ e log, b.log = .exited i t before :: e :: log ∧ countedRuns i (e :: log) =
      countedRuns i a.log) : b.History i := by
  obtain ⟨e, log, hlog, hold⟩ := hlog
  have hstop : before.stopping = (a.core i).stopping := congrArg Core.stopping hbefore
  have honce : before.once = (a.core i).once := congrArg Core.once hbefore
  have hstarted : before.startedAt = (a.core i).startedAt := congrArg Core.startedAt hbefore
  have hpid' : ¬0 < (b.core i).pid := by rw [hb, Core.exit_pid]; decide
  have hle : (b.core i).startedAt ≤ b.clock := by
    rw [hb, Core.exit_startedAt, hclock]
    exact Int.le_trans h.started.2 ht
  have hnonneg : 0 ≤ (b.core i).startedAt := by
    rw [hb, Core.exit_startedAt]
    exact h.started.1
  cases hcounts : before.counts with
  -- the run does not count, and the counter stays
  | false =>
    have hruns : countedRuns i b.log = countedRuns i a.log := by
      rw [hlog, ← hold]
      simp [countedRuns, hcounts]
    have hfinal : ((a.core i).stopping || (a.core i).once) = true := by
      simp only [Service.counts, hstop, honce] at hcounts
      cases hs : (a.core i).stopping <;> cases ho : (a.core i).once <;> simp [hs, ho] at hcounts ⊢
    refine ⟨?_, ?_, fun hpos => absurd hpos hpid', hnonneg, hle⟩
    · rw [hb, hruns, Core.exit_final hfinal]
      exact h.restarts
    · rw [hruns, hclock]
      exact h.past.mono ht
  | true =>
    -- the run is put in front of the others
    have hruns : countedRuns i b.log = ⟨(a.core i).startedAt, t⟩ :: countedRuns i a.log := by
      rw [hlog, ← hold, ← hstarted]
      simp [countedRuns, hcounts]
    obtain ⟨hns, hno⟩ : (a.core i).stopping = false ∧ (a.core i).once = false := by
      simpa [Service.counts, hstop, honce] using hcounts
    refine ⟨?_, ?_, fun hpos => absurd hpos hpid', hnonneg, hle⟩
    · rw [hb, hruns, ← h.nextRestarts ht hmax]
      by_cases htrips : (a.core i).Trips t
      · rw [Core.exit_trips hns hno status htrips]
      · rw [Core.exit_restarts hns hno status htrips]
    · rw [hruns, hclock]
      exact (h.running hpid).cons (Int.le_trans h.started.2 ht)

/-- One step keeps the record in agreement with the history. -/
theorem LifeStep.history (hstep : LifeStep S a b) (htracked : a.Tracked) (h : a.History i) :
    b.History i := by
  have hclock := hstep.clock_le
  cases hstep with
  -- no record changes
  | tick | forkFinish | runCheck | reapOther | signalMain | signalLogger | raiseHup =>
    exact h.frame hclock rfl rfl
  -- neither `restarts` nor `started_at` changes
  | reapLogger j c hc | unmark j c hc | forkLogger j c hc =>
    subst hc
    exact h.put hclock rfl rfl rfl rfl id
  | retry j c hc =>
    subst hc
    exact h.put hclock rfl rfl rfl rfl id
  | found j c hc =>
    subst hc
    exact h.put (c := { a.core j with present := true, stopping := false }) hclock rfl rfl rfl rfl id
  | tell j c hc =>
    subst hc
    exact h.put (c := (a.core j).told) hclock rfl rfl rfl rfl id
  | remove j c hc =>
    subst hc
    exact h.put (c := { a.core j with active := false, state := .down }) hclock rfl rfl rfl rfl id
  | startFail j c hc hS pid t hdue hpid =>
    subst hc
    have hidle := hdue.idle
    exact h.put hclock rfl rfl rfl rfl fun hpos => absurd (show 0 < pid from hpos) (by omega)
  | command j c hc cmd t =>
    subst hc
    exact h.put (c := (a.core j).command t cmd) hclock rfl rfl ((a.core j).command_restarts t cmd)
      ((a.core j).command_startedAt t cmd) (by rw [Core.command_pid]; exact id)
  -- a new service has no runs yet
  | add j c hi hact hnew =>
    by_cases hj : j = i
    · subst hj
      have hruns : countedRuns j (.added j :: a.log) = [] := if_pos rfl
      have hempty : ∀ t, Ordered [] t := fun t => ⟨.nil, by simp, by simp⟩
      refine ⟨?_, ?_, fun _ => ?_, ?_⟩ <;> simp only [Life.put_core, if_true, Life.put_clock]
      · rw [hruns, hnew.restarts]
        rfl
      · rw [hruns]
        exact hempty _
      · rw [hruns]
        exact hempty _
      · rw [hnew.startedAt]
        exact ⟨Int.le_refl 0, Int.le_trans h.started.1 h.started.2⟩
    · have hruns : countedRuns i (.added j :: a.log) = countedRuns i a.log := if_neg hj
      have hcore : (a.put j c).core i = a.core i := if_neg fun he => hj he.symm
      refine ⟨?_, ?_, fun hpos => ?_, ?_⟩
      · rw [hruns, hcore]
        exact h.restarts
      · rw [hruns]
        exact h.past
      · rw [hruns, hcore]
        exact h.running (hcore ▸ hpos)
      · rw [hcore]
        exact h.started
  -- the run that begins is not counted yet
  | start j c hc hS pid t hdue hpid ht =>
    subst hc
    by_cases hj : j = i
    · subst hj
      have hnonneg : 0 ≤ t := Int.le_trans h.started.1 (Int.le_trans h.started.2 ht)
      refine ⟨?_, ?_, fun _ => ?_, ?_⟩ <;>
        simp only [Life.put_core, if_true, Core.start, countedRuns]
      · exact h.restarts
      · exact h.past.mono ht
      · exact h.past.mono ht
      · exact ⟨hnonneg, Int.le_refl t⟩
    · have hcore : (a.put j ((a.core j).start pid t)).core i = a.core i :=
        if_neg fun he => hj he.symm
      refine ⟨?_, h.past.mono ht, fun hpos => ?_, ?_, ?_⟩ <;> rw [hcore]
      · exact h.restarts
      · exact h.running (hcore ▸ hpos)
      · exact h.started.1
      · exact Int.le_trans h.started.2 ht
  -- a run has ended
  | reapMain j c hc status t before hbefore hmem hact hlog ht hmax =>
    subst hc
    by_cases hj : j = i
    · subst hj
      have hpid : 0 < (a.core j).pid := by
        obtain ⟨d, hd, he⟩ := hmem
        have := htracked.above d hd
        omega
      exact h.exit hpid hbefore ht hmax (if_pos rfl) rfl ⟨_, _, rfl, rfl⟩
    · have hruns : countedRuns i (.exited j t before :: .reaped (a.core j).pid status :: a.log) =
          countedRuns i a.log := by
        simp [countedRuns, hj]
      have hcore : (a.put j ((a.core j).exit status t)).core i = a.core i :=
        if_neg fun he => hj he.symm
      refine ⟨?_, ?_, fun hpos => ?_, ?_, ?_⟩
      · rw [hruns, hcore]
        exact h.restarts
      · rw [hruns]
        exact h.past.mono ht
      · rw [hruns, hcore]
        exact h.running (hcore ▸ hpos)
      · rw [hcore]
        exact h.started.1
      · rw [hcore]
        exact Int.le_trans h.started.2 ht

end

/-- In every reachable state the counter is read off the logged runs. -/
theorem Reachable.history {w : World} (hw : Reachable w) (i : Nat) : w.life.History i := by
  refine (hw.invariant (I := fun a => a.Tracked ∧ a.History i) (fun a h => ⟨h.tracked, ?_⟩)
    fun a b hstep h => ⟨hstep.tracked h.1, hstep.history h.1 h.2⟩).2
  -- at boot there is no run, and no record has been started
  have hruns : countedRuns i a.log = [] := by rw [h.log]; rfl
  have hempty : ∀ t, Ordered [] t := fun t => ⟨.nil, by simp, by simp⟩
  refine ⟨?_, ?_, fun _ => ?_, ?_⟩
  · rw [hruns, h.core]
    rfl
  · rw [hruns]
    exact hempty _
  · rw [hruns]
    exact hempty _
  · rw [h.core]
    exact ⟨Int.le_refl 0, h.clock.1⟩

/-! ## The decision -/

/-- What a breaker that saw `n` exits in its window leaves in the record at time `t`. -/
def SlidingWindow (s : Service) (t : Int) (n : Nat) : Prop :=
  if maxRestartsInWindow.toNat < n then s.state = .failed ∧ s.restartAt = i64Max
  else s.state ≠ .failed ∧ s.restartAt = i64 (t + backoffDelay s.restarts)

section

variable (t : Int) (runs : List ProcRun)

/-- Six or more short runs in a row, and the sixth exit from the end is out of the window:
    the breaker trips too early. (The counter has 32 bits.) -/
def SlowLoop : Prop :=
  5 < streak runs % UInt32.size ∧ ∀ r, runs[5]? = some r → r.recent t = false

/-- The sixth exit from the end is in the window, and that run was a long one: the breaker
    trips too late. -/
def LongThenFast : Prop := ∃ r, runs[5]? = some r ∧ r.recent t = true ∧ r.short = false

/-- The sixth exit from the end is in the window, and the streak of short runs has gone past
    the end of the 32-bit counter to a small value. -/
def Wrapped : Prop :=
  5 < streak runs ∧ streak runs % UInt32.size ≤ 5 ∧ ∃ r, runs[5]? = some r ∧ r.recent t = true

end

/-- The counter and the window agree except in three situations. -/
theorem streak_iff_window {t : Int} {runs : List ProcRun} (h : Ordered runs t) :
    (5 < streak runs % UInt32.size ↔ 5 < exitsInWindow t runs) ↔
      ¬SlowLoop t runs ∧ ¬LongThenFast t runs ∧ ¬Wrapped t runs := by
  rw [exitsInWindow, List.lt_countP_iff_getElem? h.recent]
  have hstreak : 5 < streak runs ↔ ∀ k ≤ 5, ∃ r, runs[k]? = some r ∧ r.short = true :=
    List.lt_length_takeWhile_iff
  have hmod : streak runs % UInt32.size ≤ streak runs := Nat.mod_le _ _
  constructor
  -- each exception is a run of exits that the equivalence does not allow
  · intro hiff
    refine ⟨?_, ?_, ?_⟩
    · rintro ⟨hcount, hold⟩
      obtain ⟨r, hr, hrecent⟩ := hiff.mp hcount
      exact absurd (hrecent.symm.trans (hold r hr)) (by decide)
    · rintro ⟨r, hr, hrecent, hlong⟩
      have hcount := hiff.mpr ⟨r, hr, hrecent⟩
      obtain ⟨r', hr', hshort⟩ := hstreak.mp (by omega) 5 (Nat.le_refl 5)
      obtain rfl : r = r' := Option.some.inj (hr.symm.trans hr')
      exact absurd (hshort.symm.trans hlong) (by decide)
    · rintro ⟨-, hsmall, hwindow⟩
      have := hiff.mpr hwindow
      omega
  · rintro ⟨hslow, hlong, hwrap⟩
    constructor
    -- six short runs: the sixth is recent, or they are slow
    · intro hcount
      obtain ⟨r, hr, -⟩ := hstreak.mp (by omega) 5 (Nat.le_refl 5)
      refine ⟨r, hr, Decidable.byContradiction fun hrecent => hslow ⟨hcount, fun r' hr' => ?_⟩⟩
      obtain rfl : r = r' := Option.some.inj (hr.symm.trans hr')
      simpa using hrecent
    -- six recent exits: all runs between them are short, or one is long
    · rintro ⟨r, hr, hrecent⟩
      have hshort : r.short = true := by
        cases hs : r.short with
        | true => rfl
        | false => exact absurd ⟨r, hr, hrecent, hs⟩ hlong
      have hall : 5 < streak runs := by
        refine hstreak.mpr fun k hk => ?_
        rcases Nat.lt_or_eq_of_le hk with hlt | rfl
        · have hlen : 5 < runs.length := (List.getElem?_eq_some_iff.mp hr).1
          refine ⟨runs[k], List.getElem?_eq_getElem (by omega), ?_⟩
          exact h.short_of_recent hlt (List.getElem?_eq_getElem (by omega)) hr hrecent
        · exact ⟨r, hr, hshort⟩
      refine Nat.lt_of_not_le fun hsmall => hwrap ⟨hall, hsmall, r, hr, hrecent⟩

/-- No wait status is decoded as FAILED. -/
theorem decodeWaitStatus_ne_failed (status : Int) : (decodeWaitStatus status).1 ≠ .failed := by
  unfold decodeWaitStatus
  split
  · simp
  · split <;> simp

/-- The record after a counted exit is the one of the sliding window if the breaker trips
    exactly when the window says so. -/
theorem slidingWindow_iff {s : Service} {c : Core} {status t : Int} {n : Nat}
    (hs : s.core = c.exit status t) (hstop : c.stopping = false) (honce : c.once = false) :
    SlidingWindow s t n ↔ (c.Trips t ↔ 5 < n) := by
  have hstate : s.state = (c.exit status t).state := congrArg Core.state hs
  have hrestartAt : s.restartAt = (c.exit status t).restartAt := congrArg Core.restartAt hs
  have hrestarts : s.restarts = (c.exit status t).restarts := congrArg Core.restarts hs
  have hfive : maxRestartsInWindow.toNat = 5 := rfl
  rw [SlidingWindow, hfive, hstate, hrestartAt, hrestarts]
  -- tripped or not, the record and the window are compared with the same bound
  by_cases htrips : c.Trips t
  · rw [Core.exit_trips hstop honce status htrips]
    by_cases hn : 5 < n <;> simp [htrips, hn]
  · rw [Core.exit_restarts hstop honce status htrips]
    by_cases hn : 5 < n <;> simp [htrips, hn, decodeWaitStatus_ne_failed]

/-- The exit of a main process that is counted. The history has the run that ends with it. -/
theorem breaker_iff {w : World} {i : Nat} {pid : Int} (hw : Reachable w)
    (hmem : ⟨pid, .main i⟩ ∈ w.k.children) (hcounts : (w.svc i).counts = true) (status : Int) :
    let t := w.k.reapTime pid status
    let runs := ⟨(w.svc i).startedAt, t⟩ :: countedRuns i w.k.log
    SlidingWindow ((exec (.reapChild pid status) w).svc i) t (exitsInWindow t runs) ↔
      ¬SlowLoop t runs ∧ ¬LongThenFast t runs ∧ ¬Wrapped t runs := by
  intro t runs
  have htracked := hw.accounted.tracked
  have hhistory := hw.history i
  obtain ⟨hcore, -⟩ := reapChild_main htracked hmem status
  obtain ⟨hstop, honce⟩ : (w.svc i).stopping = false ∧ (w.svc i).once = false := by
    simpa [Service.counts] using hcounts
  -- a counted exit is one of a process that the record knows
  have hpid : 0 < (w.svc i).pid := by
    obtain ⟨-, hpos, he⟩ := (htracked.main i pid).mp hmem
    rw [show (w.svc i).pid = pid from he]
    exact hpos
  have hclock : w.k.clock ≤ t := w.k.clock_le_reapTime pid status
  have hordered : Ordered runs t :=
    (hhistory.running hpid).cons (Int.le_trans hhistory.started.2 hclock)
  -- the reaper compares a 32-bit counter, so the streak counts modulo 2^32
  have htrips : (w.svc i).core.Trips t ↔ 5 < streak runs % UInt32.size := by
    have hnext := hhistory.nextRestarts hclock (Kernel.reading_le _)
    rw [Core.Trips, show (w.svc i).core.nextRestarts t = _ from hnext, gt_iff_lt,
      UInt32.lt_iff_toNat_lt, UInt32.toNat_ofNat']
    exact Iff.rfl
  refine (slidingWindow_iff hcore hstop honce).trans ?_
  rw [htrips]
  exact streak_iff_window hordered

/-- A record that the counter has put into FAILED where the window would not. -/
theorem not_slidingWindow {s : Service} {t : Int} {n : Nat} (hn : n ≤ maxRestartsInWindow.toNat)
    (hs : s.state = .failed) : ¬SlidingWindow s t n := by
  rw [SlidingWindow, if_neg (Nat.not_lt.mpr hn)]
  exact fun h => h.1 hs

/-- Six times: the service runs for 15 seconds, exits with code 1 and is started again 10
    seconds later. -/
def slowLoop : List Pass := (List.range 6).flatMap fun n =>
  [{ listing := some [bytesOf "a"], elapsed := 15 },
   { exits := [(116 + 14 * n, 256)], elapsed := 10 }]

/-- After `n` exits, and 15 seconds after the next start. -/
def slowRun (n : Nat) : World := (mainLoop (slowLoop.take (2 * n + 1)) (bootOn plainFiles)).world

/-- At the third exit the breaker does what a sliding window does; at the sixth it does not. Both
    times there are three exits in the window. -/
theorem breaker_iff_slow : SlidingWindow ((exec (.reapChild 144 256) (slowRun 2)).svc 0) 65 3 ∧
    ¬SlidingWindow ((exec (.reapChild 186 256) (slowRun 5)).svc 0) 140 3 := by
  have hreach : ∀ n, Reachable (slowRun n) := fun n => ⟨_, _, _, mainLoop_performs _ _⟩
  have hthird := @breaker_iff _ 0 144 (hreach 2) (by decide +kernel) (by decide +kernel) 256
  have hsixth := @breaker_iff _ 0 186 (hreach 5) (by decide +kernel) (by decide +kernel) 256
  have htime : (slowRun 2).k.reapTime 144 256 = 65 ∧ (slowRun 5).k.reapTime 186 256 = 140 := by
    decide +kernel
  have hruns : (⟨((slowRun 2).svc 0).startedAt, 65⟩ : ProcRun) :: countedRuns 0 (slowRun 2).k.log =
      [⟨50, 65⟩, ⟨25, 40⟩, ⟨0, 15⟩] := by decide +kernel
  have hruns' : (⟨((slowRun 5).svc 0).startedAt, 140⟩ : ProcRun) ::
      countedRuns 0 (slowRun 5).k.log =
      [⟨125, 140⟩, ⟨100, 115⟩, ⟨75, 90⟩, ⟨50, 65⟩, ⟨25, 40⟩, ⟨0, 15⟩] := by decide +kernel
  dsimp only at hthird hsixth
  rw [htime.1, hruns] at hthird
  rw [htime.2, hruns'] at hsixth
  constructor
  · apply hthird.mpr
    refine ⟨fun h => ?_, fun ⟨r, hr, _⟩ => by simp at hr, fun ⟨_, _, r, hr, _⟩ => by simp at hr⟩
    exact absurd h.1 (by decide)
  · intro h
    -- six short runs, the first of which is out of the window
    have hslow : SlowLoop 140 [⟨125, 140⟩, ⟨100, 115⟩, ⟨75, 90⟩, ⟨50, 65⟩, ⟨25, 40⟩, ⟨0, 15⟩] :=
      ⟨by decide, fun r hr => by
        obtain rfl : (⟨0, 15⟩ : ProcRun) = r := by simpa using hr
        decide⟩
    exact (hsixth.mp h).1 hslow

/-- The sixth exit, at time 140, is the third of its window, and the service has failed. -/
theorem slow_loop_fails :
    exitsInWindow 140 (countedRuns 0 (mainLoop slowLoop (bootOn plainFiles)).world.k.log) = 3 ∧
      ¬SlidingWindow ((mainLoop slowLoop (bootOn plainFiles)).world.svc 0) 140
        (exitsInWindow 140
          (countedRuns 0 (mainLoop slowLoop (bootOn plainFiles)).world.k.log)) := by
  have hcount : exitsInWindow 140
      (countedRuns 0 (mainLoop slowLoop (bootOn plainFiles)).world.k.log) = 3 := by decide +kernel
  have hfailed : ((mainLoop slowLoop (bootOn plainFiles)).world.svc 0).state = .failed := by
    decide +kernel
  exact ⟨hcount, not_slidingWindow (by rw [hcount]; decide) hfailed⟩

end SvcRs
