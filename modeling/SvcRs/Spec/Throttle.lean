import SvcRs.Spec.Processes

/-!
# Crash loops

How soon a service that exited is started again, and how often it may crash in a row,
as long as nobody asks for a start and its record is not removed. The clock must leave
room for the restart delay below `i64::MAX`, and the 32-bit counter must not wrap.

## Key results

- `LifeStep.throttle`: one step keeps what the record says of the log
- `crash_loops_throttled`: the delay before a restart and the limit on short runs
-/

namespace SvcRs

open Transition (run Each each_nil each_cons)

/-! ## What the log says -/

/-- What ends a stretch of the log: `start`, `up` or the removal of the record. -/
def endsStretch (i : Nat) : Event → Bool
  | .accepted cmd j => j = i && (cmd = .start || cmd = .up)
  | .removed j => j = i
  | _ => false

/-- The starts of slot `i`. -/
def isStart (i : Nat) : Event → Bool
  | .started j _ => j = i
  | _ => false

/-- The exit of slot `i` that no start and no end of the stretch has followed. -/
def waiting (i : Nat) : List Event → Option (Int × Service)
  | [] => none
  | .exited j t s :: log => if j = i then some (t, s) else waiting i log
  | .started j _ :: log => if j = i then none else waiting i log
  | .removed j :: log => if j = i then none else waiting i log
  | .accepted cmd j :: log =>
    if endsStretch i (.accepted cmd j) then none else waiting i log
  | _ :: log => waiting i log

/-- The run that ended with the exit was a long one. -/
def Service.ranLong (s : Service) (t : Int) : Prop := restartWindowS < i64 (t - s.startedAt)

/-- One more short run makes the counter 0. -/
def Service.aboutToWrap (s : Service) : Prop := s.restarts = 4294967295

instance (s : Service) (t : Int) : Decidable (s.ranLong t) := inferInstanceAs (Decidable (_ < _))

instance (s : Service) : Decidable s.aboutToWrap := inferInstanceAs (Decidable (_ = _))

/-- The starts of slot `i` in this stretch since the last long run. -/
def shortStarts (i : Nat) : List Event → Nat
  | [] => 0
  | .exited j t s :: log =>
    if j = i ∧ (s.ranLong t ∨ s.aboutToWrap) then 0 else shortStarts i log
  | .started j _ :: log => if j = i then shortStarts i log + 1 else shortStarts i log
  | .removed j :: log => if j = i then 0 else shortStarts i log
  | .accepted cmd j :: log =>
    if endsStretch i (.accepted cmd j) then 0 else shortStarts i log
  | _ :: log => shortStarts i log

/-- The earliest time of a start after the exit at time `t`. -/
def earliestStart (t : Int) (s : Service) : Int :=
  t + if (accountExit s t).restarts = 5 then backoffMed else backoffShort

/-- What an entry says of the entries before it: a start comes after the delay and is at
    most the sixth of its kind, and only a service that was started exits. -/
def Timely (i : Nat) : Event → List Event → Prop
  | .started j t', log => j = i →
    (∀ t s, waiting i log = some (t, s) → earliestStart t s ≤ t') ∧ shortStarts i log ≤ 5
  | .exited j _ _, log => j = i → waiting i log = none
  | _, _ => True

/-- The entry says nothing about the starts and exits of slot `i`. -/
def Neutral (i : Nat) : Event → Prop
  | .started j _ | .exited j _ _ | .removed j => j ≠ i
  | .accepted cmd j => endsStretch i (.accepted cmd j) = false
  | _ => True

namespace Neutral

variable {i : Nat} {e : Event} {log : List Event}

theorem waiting (h : Neutral i e) : waiting i (e :: log) = SvcRs.waiting i log := by
  cases e <;> simp_all [Neutral, SvcRs.waiting]

theorem shortStarts (h : Neutral i e) : shortStarts i (e :: log) = SvcRs.shortStarts i log := by
  cases e <;> simp_all [Neutral, SvcRs.shortStarts]

/-- It comes in time. -/
theorem timely (h : Neutral i e) : Timely i e log := by
  cases e <;> simp_all [Neutral, Timely]

end Neutral

/-- The later log has only neutral entries on top of the earlier one. -/
structure SameHistory (i : Nat) (old new : List Event) : Prop where
  waiting : waiting i new = waiting i old
  shortStarts : shortStarts i new = shortStarts i old
  timely : Each (Timely i) old → Each (Timely i) new

/-- Nothing happens. -/
theorem SameHistory.refl (i : Nat) (log : List Event) : SameHistory i log log := ⟨rfl, rfl, id⟩

/-- One more event that does not matter. -/
theorem SameHistory.cons {i : Nat} {old new : List Event} {e : Event} (h : SameHistory i old new)
    (he : Neutral i e) : SameHistory i old (e :: new) :=
  ⟨he.waiting.trans h.waiting, he.shortStarts.trans h.shortStarts,
    fun hold => each_cons.mpr ⟨he.timely, h.timely hold⟩⟩

/-- Two entries. -/
theorem SameHistory.cons₂ {i : Nat} {old new : List Event} {e e' : Event}
    (h : SameHistory i old new) (he : Neutral i e) (he' : Neutral i e') :
    SameHistory i old (e' :: e :: new) :=
  (h.cons he).cons he'

/-! ## The invariant -/

/-- What the record of slot `i` says of the log. -/
structure Life.Throttle (i : Nat) (a : Life) : Prop where
  inactive : (a.core i).active = false → waiting i a.log = none ∧ shortStarts i a.log = 0
  delayed : ∀ t s, waiting i a.log = some (t, s) → (a.core i).pid ≤ 0 ∧
    (earliestStart t s ≤ (a.core i).restartAt ∨ earliestStart t s ≤ a.clock)
  idle : (a.core i).pid ≤ 0 → shortStarts i a.log = 0 ∨ (a.core i).restartAt = i64Max ∨
    shortStarts i a.log ≤ (a.core i).restarts.toNat ∧ (a.core i).restarts.toNat ≤ 5
  running : 0 < (a.core i).pid →
    shortStarts i a.log ≤ (a.core i).restarts.toNat + 1 ∧ shortStarts i a.log ≤ 6
  timely : Each (Timely i) a.log

/-- The fields that the invariant is about are the same. -/
structure Core.SameTiming (c c' : Core) : Prop where
  active : c'.active = c.active
  pid : c'.pid = c.pid
  restartAt : c'.restartAt = c.restartAt
  restarts : c'.restarts = c.restarts

/-- Nothing changes. -/
theorem Core.SameTiming.refl (c : Core) : c.SameTiming c := ⟨rfl, rfl, rfl, rfl⟩

namespace Life.Throttle

variable {S : Kind → Prop} {a b : Life} {i : Nat}

/-- A step that leaves the record and the log alone as far as the invariant can see. -/
theorem keep (h : a.Throttle i) (hclock : a.clock ≤ b.clock)
    (hcore : (a.core i).SameTiming (b.core i)) (hlog : SameHistory i a.log b.log) :
    b.Throttle i := by
  -- each field of the invariant by what stays the same
  refine ⟨?_, fun t s hw => ?_, ?_, ?_, hlog.timely h.timely⟩
  · rw [hcore.active, hlog.waiting, hlog.shortStarts]
    exact h.inactive
  · rw [hlog.waiting] at hw
    obtain ⟨hidle, hlate⟩ := h.delayed t s hw
    rw [hcore.pid, hcore.restartAt]
    exact ⟨hidle, hlate.imp_right fun hle => Int.le_trans hle hclock⟩
  · rw [hcore.pid, hcore.restartAt, hcore.restarts, hlog.shortStarts]
    exact h.idle
  · rw [hcore.pid, hcore.restarts, hlog.shortStarts]
    exact h.running

/-- A step that changes the record of slot `j`. -/
theorem put (h : a.Throttle i) (hclock : a.clock ≤ b.clock) {j : Nat} {c : Core}
    (hb : b.core = (a.put j c).core) (hcore : j = i → (a.core j).SameTiming c)
    (hlog : SameHistory i a.log b.log) : b.Throttle i := by
  refine h.keep hclock ?_ hlog
  rw [hb, Life.put_core]
  split
  · next he => exact he ▸ hcore he.symm
  · exact .refl _

/-- A start that did not happen: the service was due, and is put off or given up. -/
theorem postponed (h : a.Throttle i) (hmax : a.clock < i64Max) (hclock : a.clock ≤ b.clock)
    (hlog : b.log = a.log) (hdue : (a.core i).Due a.clock) {c : Core} (hb : b.core i = c)
    (hact : c.active = (a.core i).active) (hpid : c.pid ≤ 0)
    (hrestarts : c.restarts = (a.core i).restarts) : b.Throttle i := by
  subst hb
  have helapsed := hdue.elapsed
  refine ⟨?_, fun t s hw => ⟨hpid, .inr ?_⟩, fun _ => ?_, fun hpos => by omega, ?_⟩
  · rw [hact, hlog]
    exact h.inactive
  -- the delay after the last exit is over, since the service was due
  · rw [hlog] at hw
    rcases (h.delayed t s hw).2 with hle | hle <;> omega
  -- a service that waits for ever is not due
  · rw [hlog, hrestarts]
    rcases h.idle hdue.idle with hzero | hnever | hfew
    · exact .inl hzero
    · omega
    · exact .inr (.inr hfew)
  · rw [hlog]
    exact h.timely

/-- A successful start. -/
theorem start (h : a.Throttle i) (hmax : a.clock < i64Max) (hdue : (a.core i).Due a.clock)
    {pid t : Int} (hpid : 1 < pid) (ht : a.clock ≤ t) (hb : b.core i = (a.core i).start pid t)
    (hlog : b.log = .started i t :: .fork (.main i) pid :: a.log) : b.Throttle i := by
  have helapsed := hdue.elapsed
  have hold : SameHistory i a.log (.fork (.main i) pid :: a.log) := (SameHistory.refl i _).cons trivial
  -- the start is due, so the counter has not stopped the service
  have hfew : shortStarts i a.log = 0 ∨
      shortStarts i a.log ≤ (a.core i).restarts.toNat ∧ (a.core i).restarts.toNat ≤ 5 := by
    rcases h.idle hdue.idle with hzero | hnever | hfew
    · exact .inl hzero
    · omega
    · exact .inr hfew
  have hwaiting : waiting i b.log = none := by rw [hlog]; exact if_pos rfl
  have hshort : shortStarts i b.log = shortStarts i a.log + 1 := by
    rw [hlog, ← hold.shortStarts]
    exact if_pos rfl
  refine ⟨?_, ?_, ?_, ?_, ?_⟩
  · rw [hb]
    intro hact
    exact absurd (hdue.active.symm.trans hact) (by decide)
  · simp [hwaiting]
  · rw [hb]
    intro hidle
    simp only [Core.start] at hidle
    omega
  · rw [hb, hshort]
    intro _
    simp only [Core.start]
    omega
  · rw [hlog]
    refine each_cons.mpr ⟨fun _ => ⟨fun t' s hw => ?_, ?_⟩, hold.timely h.timely⟩
    · rw [hold.waiting] at hw
      rcases (h.delayed t' s hw).2 with hle | hle <;> omega
    · rw [hold.shortStarts]
      omega

end Life.Throttle

/-! ## Exits -/

/-- The counter after the exit, as the source computes it. -/
theorem accountExit_restarts (s : Service) (status t : Int) :
    (accountExit s t).restarts = (s.core.exit status t).restarts := by
  have h : (accountExit s t).restarts = (s.core.account t).restarts :=
    congrArg Core.restarts (accountExit_core s t)
  rw [h]
  -- final, tripped or scheduled: the counter is the same in both accounts
  cases hfinal : s.core.stopping || s.core.once with
  | true =>
    rw [Core.exit_final hfinal, Core.account, if_pos hfinal]
  | false =>
    obtain ⟨hstop, honce⟩ := Bool.or_eq_false_iff.mp hfinal
    rw [Core.account, if_neg (by simp [hfinal])]
    by_cases htrips : s.core.Trips t
    · rw [Core.exit_trips hstop honce status htrips, if_pos htrips]
    · rw [Core.exit_restarts hstop honce status htrips, if_neg htrips]

/-- After an exit the next start is late enough. -/
theorem earliestStart_le {s : Service} {status t : Int} (ht : 0 ≤ t)
    (hmax : t + backoffMed ≤ i64Max) :
    earliestStart t s ≤ (s.core.exit status t).restartAt := by
  have hle : earliestStart t s ≤ t + backoffMed := by
    simp only [earliestStart, backoffMed, backoffShort]
    split <;> omega
  cases hfinal : s.core.stopping || s.core.once with
  | true =>
    -- no restart at all
    rw [Core.exit_final hfinal]
    exact Int.le_trans hle hmax
  | false =>
    obtain ⟨hstop, honce⟩ := Bool.or_eq_false_iff.mp hfinal
    by_cases htrips : s.core.Trips t
    -- nor after too many restarts
    · rw [Core.exit_trips hstop honce status htrips]
      exact Int.le_trans hle hmax
    · have hrestarts : (s.core.exit status t).restarts = s.core.nextRestarts t := by
        rw [Core.exit_restarts hstop honce status htrips]
      rw [earliestStart, accountExit_restarts s status t, hrestarts,
        Core.exit_restarts hstop honce status htrips]
      have hfew : s.core.nextRestarts t ≤ 5 := UInt32.not_lt.mp htrips
      generalize s.core.nextRestarts t = n at hfew
      have hexact : ∀ d, 0 ≤ d → d ≤ backoffMed → i64 (t + d) = t + d := by
        intro d hd hd'
        refine i64_eq_self ?_ ?_ <;> omega
      -- up to five restarts, of which the fifth has the longer delay
      rcases UInt32.le_iff_lt_or_eq.mp hfew with hlt | rfl
      · apply Int.le_of_eq
        rw [if_neg (UInt32.ne_of_lt hlt), backoffDelay, if_pos hlt, hexact _ (by decide) (by decide)]
      · apply Int.le_of_eq
        rw [if_pos rfl, show backoffDelay 5 = backoffMed from rfl,
          hexact _ (by decide) (Int.le_refl _)]

/-- One more short run, unless the counter wraps. -/
theorem nextRestarts_toNat {c : Core} {t : Int} (hshort : ¬i64 (t - c.startedAt) > restartWindowS)
    (hwrap : c.restarts ≠ 4294967295) : (c.nextRestarts t).toNat = c.restarts.toNat + 1 := by
  have hne : c.restarts.toNat ≠ 4294967295 := fun h => hwrap (UInt32.toNat_inj.mp h)
  have hlt := c.restarts.toNat_lt
  rw [Core.nextRestarts, if_neg hshort, UInt32.toNat_add]
  simp only [UInt32.reduceToNat]
  omega

/-- The exit of the main process. -/
theorem Life.Throttle.exit {a b : Life} {i : Nat} (h : a.Throttle i) (hact : (a.core i).active = true)
    (hpid : 0 < (a.core i).pid) {status t p : Int} {before : Service}
    (hbefore : before.core = a.core i) (ht : 0 ≤ t) (hmax : t + backoffMed ≤ i64Max)
    (hb : b.core i = (a.core i).exit status t)
    (hlog : b.log = .exited i t before :: .reaped p status :: a.log) : b.Throttle i := by
  have hold : SameHistory i a.log (.reaped p status :: a.log) := (SameHistory.refl i _).cons trivial
  -- no exit waits for its start, because the service runs
  have hnone : waiting i a.log = none := by
    cases hw : waiting i a.log with
    | none => rfl
    | some r => exact absurd (h.delayed r.1 r.2 hw).1 (Int.not_le.mpr hpid)
  have hwaiting : waiting i b.log = some (t, before) := by rw [hlog]; exact if_pos rfl
  have hshort : shortStarts i b.log =
      if before.ranLong t ∨ before.aboutToWrap then 0 else shortStarts i a.log := by
    rw [hlog, ← hold.shortStarts]
    simp only [shortStarts, true_and]
  refine ⟨?_, fun t' s hw => ?_, fun _ => ?_, ?_, ?_⟩
  · rw [hb, Core.exit_active]
    exact fun hna => absurd (hact.symm.trans hna) (by decide)
  · obtain ⟨rfl, rfl⟩ : t' = t ∧ s = before := by simpa [hwaiting, eq_comm] using hw
    rw [hb, Core.exit_pid, ← hbefore]
    exact ⟨by decide, .inl (earliestStart_le ht hmax)⟩
  · rw [hb, hshort]
    -- a long run starts the count anew
    by_cases hlong : before.ranLong t ∨ before.aboutToWrap
    · exact .inl (if_pos hlong)
    · rw [if_neg hlong]
      obtain ⟨hnotLong, hwrap⟩ := not_or.mp hlong
      right
      -- the service is not restarted, or its counter is the number of short runs
      cases hfinal : (a.core i).stopping || (a.core i).once with
      | true =>
        rw [Core.exit_final hfinal]
        exact .inl rfl
      | false =>
        obtain ⟨hstop, honce⟩ := Bool.or_eq_false_iff.mp hfinal
        by_cases htrips : (a.core i).Trips t
        · rw [Core.exit_trips hstop honce status htrips]
          exact .inl rfl
        · have hstarted : before.startedAt = (a.core i).startedAt := congrArg Core.startedAt hbefore
          have hrestarts : before.restarts = (a.core i).restarts := congrArg Core.restarts hbefore
          rw [Service.ranLong, hstarted] at hnotLong
          rw [Service.aboutToWrap, hrestarts] at hwrap
          have hnext := nextRestarts_toNat hnotLong hwrap
          have hfew : ((a.core i).nextRestarts t).toNat ≤ 5 := UInt32.not_lt.mp htrips
          have hrun := (h.running hpid).1
          rw [Core.exit_restarts hstop honce status htrips]
          exact .inr ⟨by simp only; omega, hfew⟩
  · rw [hb, Core.exit_pid]
    intro hpos
    omega
  · rw [hlog]
    exact each_cons.mpr ⟨fun _ => hold.waiting.trans hnone, hold.timely h.timely⟩

/-! ## One step -/

/-- One step keeps what the record says of the log. -/
theorem LifeStep.throttle {S : Kind → Prop} {a b : Life} {i : Nat} (hstep : LifeStep S a b)
    (htracked : a.Tracked) (hnonneg : 0 ≤ a.clock) (hmax : b.clock + backoffMed ≤ i64Max)
    (h : a.Throttle i) : b.Throttle i := by
  have hclock := hstep.clock_le
  have hnow : a.clock < i64Max := by
    simp only [backoffMed] at hmax
    omega
  have hsame := SameHistory.refl i a.log
  cases hstep with
  -- nothing that the history looks at
  | tick | unmark j c hc =>
    first
      | exact h.keep hclock (.refl _) hsame
      | subst hc; exact h.put hclock rfl (fun _ => ⟨rfl, rfl, rfl, rfl⟩) hsame
  | forkFinish | reapOther | signalMain | signalLogger | raiseHup =>
    refine h.keep hclock (.refl _) (hsame.cons ?_)
    trivial
  | runCheck => exact h.keep hclock (.refl _) (hsame.cons₂ trivial trivial)
  | reapLogger j c hc | forkLogger j c hc =>
    subst hc
    exact h.put hclock rfl (fun _ => ⟨rfl, rfl, rfl, rfl⟩) (hsame.cons trivial)
  | found j c hc =>
    subst hc
    exact h.put (c := { a.core j with present := true, stopping := false }) hclock rfl
      (fun _ => ⟨rfl, rfl, rfl, rfl⟩) (hsame.cons trivial)
  | tell j c hc =>
    subst hc
    exact h.put (c := (a.core j).told) hclock rfl (fun _ => ⟨rfl, rfl, rfl, rfl⟩)
      (hsame.cons trivial)
  -- a new service begins without a history
  | add j c hi hact hnew =>
    by_cases hj : j = i
    · subst hj
      obtain ⟨hwaiting, hshort⟩ := h.inactive hact
      have hcore : (a.put j c).core j = c := if_pos rfl
      refine ⟨fun hna => ?_, fun t s hw => ?_, fun _ => .inl hshort, fun hpos => ?_,
        each_cons.mpr ⟨trivial, h.timely⟩⟩
      · exact absurd (hnew.active.symm.trans (hcore ▸ hna)) (by decide)
      · exact absurd (hwaiting.symm.trans hw) (by simp)
      · have : 0 < c.pid := hcore ▸ hpos
        rw [hnew.pid] at this
        omega
    · exact h.put hclock rfl (fun he => absurd he hj) (hsame.cons trivial)
  -- a removal ends the history
  | remove j c hc hpid =>
    subst hc
    by_cases hj : j = i
    · subst hj
      have hwaiting : waiting j (.removed j :: a.log) = none := if_pos rfl
      have hshort : shortStarts j (.removed j :: a.log) = 0 := if_pos rfl
      have hcore : (a.put j { a.core j with active := false, state := .down }).core j =
          { a.core j with active := false, state := .down } := if_pos rfl
      refine ⟨fun _ => ⟨hwaiting, hshort⟩, fun t s hw => absurd (hwaiting.symm.trans hw) (by simp),
        fun _ => .inl hshort, fun hpos => ?_, each_cons.mpr ⟨trivial, h.timely⟩⟩
      have : 0 < (a.core j).pid := by simpa only [hcore] using hpos
      omega
    · exact h.put (c := { a.core j with active := false, state := .down }) hclock rfl
        (fun he => absurd he hj) (hsame.cons hj)
  -- a start that is put off, or fails, only moves `restart_at` on
  | retry j c hc hS t hdue =>
    subst hc
    by_cases hj : j = i
    · subst hj
      exact h.postponed hnow hclock rfl hdue (if_pos rfl) rfl hdue.idle rfl
    · exact h.put hclock rfl (fun he => absurd he hj) hsame
  | startFail j c hc hS p t hdue hpid =>
    subst hc
    by_cases hj : j = i
    · subst hj
      have hidle := hdue.idle
      have hpid' : p ≤ 0 := by omega
      exact h.postponed hnow hclock rfl hdue (if_pos rfl) rfl hpid' rfl
    · exact h.put hclock rfl (fun he => absurd he hj) hsame
  -- the steps that count, in slot `i` or in another one
  | start j c hc hS p t hdue hpid ht =>
    subst hc
    by_cases hj : j = i
    · subst hj
      exact h.start hnow hdue hpid.1 ht (if_pos rfl) rfl
    · exact h.put (c := (a.core j).start p t) hclock rfl (fun he => absurd he hj)
        (hsame.cons₂ trivial hj)
  | reapMain j c hc status t before hbefore hmem hact hlog ht htmax =>
    subst hc
    by_cases hj : j = i
    · subst hj
      have hpid : 0 < (a.core j).pid := by
        obtain ⟨d, hd, he⟩ := hmem
        have := htracked.above d hd
        omega
      exact h.exit hact hpid hbefore (Int.le_trans hnonneg ht) hmax (if_pos rfl) rfl
    · exact h.put hclock rfl (fun he => absurd he hj) (hsame.cons₂ trivial hj)
  | command j c hc cmd t =>
    subst hc
    -- `start` and `up` end the stretch, the other commands leave the timing alone
    cases hends : endsStretch i (.accepted cmd j) with
    | true =>
      have hwaiting : waiting i (.accepted cmd j :: a.log) = none := if_pos hends
      have hshort : shortStarts i (.accepted cmd j :: a.log) = 0 := if_pos hends
      refine ⟨fun _ => ⟨hwaiting, hshort⟩, fun t s hw => absurd (hwaiting.symm.trans hw) (by simp),
        fun _ => .inl hshort, fun _ => ?_, each_cons.mpr ⟨trivial, h.timely⟩⟩
      exact ⟨Nat.le_trans (Nat.le_of_eq hshort) (Nat.zero_le _),
        Nat.le_trans (Nat.le_of_eq hshort) (Nat.zero_le _)⟩
    | false =>
      refine h.put (c := (a.core j).command t cmd) hclock rfl (fun hj => ?_) (hsame.cons hends)
      have hcmd : cmd ≠ .start ∧ cmd ≠ .up := by
        cases cmd <;> simp [endsStretch, hj] at hends ⊢
      exact ⟨(a.core j).command_active t cmd, (a.core j).command_pid t cmd,
        (a.core j).command_restartAt t cmd hcmd, (a.core j).command_restarts t cmd⟩

/-- As long as the clock leaves room for the longest delay that is used. -/
theorem Reachable.throttle {w : World} (hw : Reachable w)
    (hclock : w.k.clock + backoffMed ≤ i64Max) (i : Nat) : w.life.Throttle i := by
  refine (hw.invariant (I := fun a => a.Tracked ∧ 0 ≤ a.clock ∧
    (a.clock + backoffMed ≤ i64Max → a.Throttle i)) (fun a h => ⟨h.tracked, h.clock.1, fun _ => ?_⟩)
    fun a b hstep h => ⟨hstep.tracked h.1, Int.le_trans h.2.1 hstep.clock_le, fun hb => ?_⟩).2.2 hclock
  -- nothing has happened at boot
  · have hwaiting : waiting i a.log = none := by rw [h.log]; rfl
    have hshort : shortStarts i a.log = 0 := by rw [h.log]; rfl
    refine ⟨fun _ => ⟨hwaiting, hshort⟩, by simp [hwaiting], fun _ => .inl hshort, fun hpos => ?_, ?_⟩
    · rw [hshort]
      exact ⟨Nat.zero_le _, Nat.zero_le _⟩
    · rw [h.log]
      exact each_nil _
  · have hclock := hstep.clock_le
    exact hstep.throttle h.1 h.2.1 hb (h.2.2 (by omega))

/-! ## Stretches of the log -/

/-- Restarts are delayed, and six short runs in a row are not followed by a seventh start. -/
structure CrashLoopsThrottled (i : Nat) (log : List Event) : Prop where
  /-- The next start after an exit, in one stretch. -/
  delay : ∀ later mid early t s t',
    log = later ++ .started i t' :: (mid ++ .exited i t s :: early) →
    (∀ e ∈ mid, endsStretch i e = false ∧ isStart i e = false) →
    t + backoffShort ≤ t' ∧ ((accountExit s t).restarts = 5 → t + backoffMed ≤ t')
  /-- Seven starts in one stretch. -/
  limit : ∀ later mid early t₁ t₇,
    log = later ++ .started i t₇ :: (mid ++ .started i t₁ :: early) →
    (∀ e ∈ mid, endsStretch i e = false) → mid.countP (isStart i) = 5 →
    ∃ t s, .exited i t s ∈ mid ∧ (s.ranLong t ∨ s.aboutToWrap)

/-- Between an exit and the next start the service is waiting. -/
theorem waiting_append {i : Nat} {mid early : List Event} {t : Int} {s : Service}
    (hmid : ∀ e ∈ mid, endsStretch i e = false ∧ isStart i e = false)
    (htimely : Each (Timely i) (mid ++ .exited i t s :: early)) :
    waiting i (mid ++ .exited i t s :: early) = some (t, s) := by
  induction mid with
  | nil => exact if_pos rfl
  | cons e mid ih =>
    obtain ⟨hfirst, hrest⟩ := each_cons.mp htimely
    have hw := ih (fun e' he' => hmid e' (List.mem_cons_of_mem _ he')) hrest
    obtain ⟨hends, hstart⟩ := hmid e List.mem_cons_self
    -- an exit would have found another one waiting
    have hneutral : Neutral i e := by
      cases e with
      | exited j t' s' =>
        rintro rfl
        exact absurd (hw.symm.trans (hfirst rfl)) (by simp)
      | _ => simp_all [Neutral, endsStretch, isStart]
    exact hneutral.waiting.trans hw

/-- In a stretch without long runs every start counts. -/
theorem shortStarts_append {i : Nat} {mid older : List Event}
    (hmid : ∀ e ∈ mid, endsStretch i e = false)
    (hshort : ∀ t s, .exited i t s ∈ mid → ¬(s.ranLong t ∨ s.aboutToWrap)) :
    shortStarts i (mid ++ older) = mid.countP (isStart i) + shortStarts i older := by
  -- by induction on the events between the two starts
  induction mid with
  | nil => simp
  | cons e mid ih =>
    have hrest := ih (fun e' he' => hmid e' (List.mem_cons_of_mem _ he'))
      fun t s he' => hshort t s (List.mem_cons_of_mem _ he')
    have hends := hmid e List.mem_cons_self
    have hexit : ∀ t s, e = .exited i t s → ¬(s.ranLong t ∨ s.aboutToWrap) :=
      fun t s he => hshort t s (he ▸ List.mem_cons_self)
    rw [List.cons_append, List.countP_cons]
    cases e with
    -- an exit counts, since the run was short and the counter does not wrap
    | exited j t s =>
      have hskip : ¬(j = i ∧ (s.ranLong t ∨ s.aboutToWrap)) := fun ⟨hj, hlong⟩ =>
        hexit t s (by rw [hj]) hlong
      rw [shortStarts, if_neg hskip, hrest]
      simp [isStart]
    -- a start of this service is one more on both sides
    | started j t =>
      rw [shortStarts, hrest]
      by_cases hj : j = i
      · simp only [hj, if_true, isStart, decide_true]
        omega
      · simp [hj, isStart]
    | accepted cmd j =>
      rw [shortStarts, if_neg (by simp [hends]), hrest]
      simp [isStart]
    | removed j =>
      have hj : j ≠ i := by simpa [endsStretch] using hends
      rw [shortStarts, if_neg hj, hrest]
      simp [isStart]
    | _ => simpa [shortStarts, isStart] using hrest

/-- The fields of the record account for the stretch of the log. -/
theorem Life.Throttle.crashLoops {a : Life} {i : Nat} (h : a.Throttle i) :
    CrashLoopsThrottled i a.log := by
  constructor
  -- the delay before a start, by the exit that it follows
  · intro later mid early t s t' hlog hmid
    have hstart := h.timely later _ _ hlog
    have hrest : Each (Timely i) (mid ++ .exited i t s :: early) := fun newer e older hold =>
      h.timely (later ++ .started i t' :: newer) e older (by rw [hlog, hold]; simp)
    have hle := (hstart rfl).1 t s (waiting_append hmid hrest)
    simp only [earliestStart, backoffMed, backoffShort] at hle ⊢
    split at hle
    · next hfive => exact ⟨by omega, fun _ => hle⟩
    · next hfive => exact ⟨hle, fun he => absurd he hfive⟩
  -- at most five starts precede this one in its stretch
  · intro later mid early t₁ t₇ hlog hmid hcount
    have hfew := (h.timely later _ _ hlog rfl).2
    refine Classical.byContradiction fun hno => ?_
    have hshort : ∀ t s, .exited i t s ∈ mid → ¬(s.ranLong t ∨ s.aboutToWrap) :=
      fun t s hmem hlong => hno ⟨t, s, hmem, hlong⟩
    rw [shortStarts_append hmid hshort, hcount, shortStarts, if_pos rfl] at hfew
    omega

/-- In every run: after an exit the next start is delayed, and six short runs in a row are not
    followed by a seventh start. -/
theorem crash_loops_throttled (root : CStrBuf) (oracle : Nat → Answer) (fds : List Int)
    (ops : List Op) (i : Nat)
    (hclock : (run exec ops (boot root oracle fds).world).k.clock + backoffMed ≤ i64Max) :
    CrashLoopsThrottled i (run exec ops (boot root oracle fds).world).k.log := by
  have hw : Reachable (run exec ops (boot root oracle fds).world) := ⟨root, oracle, fds, ops, rfl⟩
  exact (hw.throttle hclock i).crashLoops

/-- A start, an exit and another start. -/
theorem crash_loops_throttled_once : CrashLoopsThrottled 0
    (run exec [.scanEntry (bytesOf "a"), .start 0 0, .reapChild 115 256, .wait 2 [], .start 2 0]
      (bootOn plainFiles).world).k.log :=
  crash_loops_throttled _ _ _ _ 0 (by decide +kernel)

/-- The service exits one second before the end of time. -/
def endOfTime : List Pass :=
  [{ listing := some [bytesOf "a"], elapsed := 9223372036854775806 }, { exits := [(116, 256)] }]

/-- The slot and the time of an exit. -/
def exitOf : Event → Option (Nat × Int)
  | .exited j t _ => some (j, t)
  | _ => none

/-- The delay overflows, and the service is started again at once. -/
theorem delay_overflows : (mainLoop endOfTime (bootOn plainFiles)).world.k.clock < i64Max ∧
    ¬CrashLoopsThrottled 0 (mainLoop endOfTime (bootOn plainFiles)).world.k.log := by
  refine ⟨by decide +kernel, fun h => ?_⟩
  -- the last three events: an exit, a fork and a start in the same second
  have hstart : (mainLoop endOfTime (bootOn plainFiles)).world.k.log[0]? =
      some (.started 0 9223372036854775806) := by decide +kernel
  have hfork : (mainLoop endOfTime (bootOn plainFiles)).world.k.log[1]? =
      some (.fork (.main 0) 129) := by decide +kernel
  have hexit : (mainLoop endOfTime (bootOn plainFiles)).world.k.log[2]?.bind exitOf =
      some (0, 9223372036854775806) := by decide +kernel
  have hdelay := h.delay
  generalize (mainLoop endOfTime (bootOn plainFiles)).world.k.log = log at *
  match log, hstart, hfork, hexit with
  -- the delay would have to end after the largest i64
  | e₀ :: e₁ :: .exited j t s :: early, hstart, hfork, hexit =>
    obtain rfl : e₀ = .started 0 9223372036854775806 := by simpa using hstart
    obtain rfl : e₁ = .fork (.main 0) 129 := by simpa using hfork
    obtain ⟨rfl, rfl⟩ : j = 0 ∧ t = 9223372036854775806 := by simpa [exitOf] using hexit
    have hle := (hdelay [] [.fork (.main 0) 129] early _ s _ rfl
      (by simp [endsStretch, isStart])).1
    simp only [backoffShort] at hle
    omega

end SvcRs
