import SvcRs.Spec.Records

/-!
# What the records say is what has happened

The fields that a record keeps about its main processes are worked out a second time, from the
log of the run alone, and the two agree in every reachable state. What the fields say about one
another follows from the same changes of the register.

## Key results

- `tally_recorded`: the fields are those that the log gives
- `records_consistent`: state, codes, times and logger fit together, and no uptime is negative
- `finish_follows_exit`: the `finish` script runs after an exit, and only then
-/

namespace SvcRs

open Transition (run)

/-! ## The tally of a log -/

/-- The status that `waitpid` returned last. -/
def lastReaped : List Event → Int
  | [] => 0
  | .reaped _ status :: _ => status
  | _ :: log => lastReaped log

/-- The tally of slot `i` after the events of a log, newest first. -/
def tallyOf (i : Nat) : List Event → Tally
  | [] => {}
  | .added j :: log => if j = i then {} else tallyOf i log
  | .started j t :: log => if j = i then (tallyOf i log).start t else tallyOf i log
  | .exited j t before :: log =>
    if j = i then (tallyOf i log).exit (lastReaped log) t (before.stopping || before.once)
    else tallyOf i log
  | _ :: log => tallyOf i log

/-- The register says of every slot what the log says. -/
def Register.Recorded (r : Register) : Prop := ∀ i, (r.vitals i).tally = tallyOf i r.log

section

variable {r r' : Register}

/-- Other events do not count. -/
theorem tallyOf_other {e : Event} (he : e.isEntry = false) (i : Nat) (log : List Event) :
    tallyOf i (e :: log) = tallyOf i log := by
  cases e with
  | added | started | exited => cases he
  | _ => rfl

/-- Only the process log matters. -/
theorem lastReaped_filter (log : List Event) :
    lastReaped (log.filter Event.isLife) = lastReaped log := by
  induction log with
  | nil => rfl
  | cons e log ih => cases e <;> first | rfl | exact ih

/-- The process log has all events that count. -/
theorem tallyOf_filter (i : Nat) (log : List Event) :
    tallyOf i (log.filter Event.isLife) = tallyOf i log := by
  induction log with
  | nil => rfl
  | cons e log ih =>
    -- only these three events count, and all of them are kept by the filter
    cases e with
    | added j =>
      show (if j = i then {} else tallyOf i (log.filter Event.isLife)) = _
      rw [ih]
      rfl
    | started j t =>
      show (if j = i then (tallyOf i (log.filter Event.isLife)).start t
        else tallyOf i (log.filter Event.isLife)) = _
      rw [ih]
      rfl
    | exited j t before =>
      show (if j = i then (tallyOf i (log.filter Event.isLife)).exit
          (lastReaped (log.filter Event.isLife)) t (before.stopping || before.once)
        else tallyOf i (log.filter Event.isLife)) = _
      rw [ih, lastReaped_filter]
      rfl
    | _ => exact ih

/-- An entry is replaced, and the log is extended by what it says. -/
theorem Register.Recorded.put (h : r.Recorded) {j : Nat} {v : Vitals} {e : Event}
    (hsame : tallyOf j (e :: r.log) = v.tally)
    (hother : ∀ i, i ≠ j → tallyOf i (e :: r.log) = tallyOf i r.log) :
    Register.Recorded { r.put j v with log := e :: r.log } := by
  intro i
  show (if i = j then v else r.vitals i).tally = tallyOf i (e :: r.log)
  by_cases hij : i = j
  · rw [if_pos hij, hij, hsame]
  · rw [if_neg hij, hother i hij]
    exact h i

/-- A change that leaves the tally and the log alone. -/
theorem Register.Recorded.keep (h : r.Recorded) {j : Nat} {v : Vitals}
    (hv : v.tally = (r.vitals j).tally) : (r.put j v).Recorded := by
  intro i
  show (if i = j then v else r.vitals i).tally = tallyOf i r.log
  split
  · next hij =>
    subst hij
    rw [hv]
    exact h i
  · exact h i

/-- One step of the registers. -/
theorem Change.recorded (hchange : Change r r') (h : r.Recorded) : r'.Recorded := by
  cases hchange with
  | tick t ht => exact h
  | note e he =>
    intro i
    rw [tallyOf_other he]
    exact h i
  | finish pid hexit => exact h
  -- a history begins, or grows by the event of the change
  | add j => exact h.put (if_pos rfl) fun i hij => if_neg (Ne.symm hij)
  | start j v hv =>
    subst hv
    apply h.put
    · show (if j = j then _ else _) = _
      rw [if_pos rfl, ← h j]
    · exact fun i hij => if_neg (Ne.symm hij)
  | exit j v hv status t before state hwait hstate =>
    subst hv
    apply h.put
    · -- the status is the one that has just been returned
      obtain ⟨rest, hlog⟩ := hwait
      have hlast : lastReaped r.log = status := by
        rw [hlog]
        rfl
      show (if j = j then _ else _) = _
      rw [if_pos rfl, ← h j, hlast]
    · exact fun i hij => if_neg (Ne.symm hij)
  | quit j v hv | startLogger j v hv | tellLogger j v hv | loseLogger j v hv =>
    subst hv
    exact h.keep rfl

end

/-- In every run, the start time, the restart counter and the codes of every record are those
    that the events of its slot give, over all the records that have been in it. -/
theorem tally_recorded (root : CStrBuf) (oracle : Nat → Answer) (fds : List Int) (ops : List Op)
    (i : Nat) :
    let w := run exec ops (boot root oracle fds).world
    (w.svc i).tally = tallyOf i w.k.trace := by
  intro w
  have hchanges : Changes (boot root oracle fds).world.register w.register :=
    Performs.changes ⟨ops, rfl⟩
  have hinit : (boot root oracle fds).world.register.Recorded := fun _ => rfl
  -- the tallies agree after every change, starting with no events
  have hall : ∀ r, Changes (boot root oracle fds).world.register r → r.Recorded := by
    intro r hr
    induction hr with
    | refl => exact hinit
    | tail _ hlast ih => exact hlast.recorded ih
  rw [← tallyOf_filter]
  exact hall w.register hchanges i

/-! ## What the fields say about one another -/

/-- An exit code and a signal that one status can give. -/
def ValidCodes (exitCode termSignal : Int) : Prop :=
  0 ≤ exitCode ∧ exitCode ≤ 255 ∧ 0 ≤ termSignal ∧ termSignal ≤ 126 ∧
    (exitCode = 0 ∨ termSignal = 0)

/-- The entry of one slot at the time `clock`. -/
structure Vitals.Consistent (v : Vitals) (clock : Int) : Prop where
  running : v.state = .running → v.tally.exitCode = 0 ∧ v.tally.termSignal = 0
  ended : v.state = .exited ∨ v.state = .signaled →
    (v.state, v.tally.exitCode, v.tally.termSignal) = decodeWaitStatus v.tally.lastStatus
  codes : ValidCodes v.tally.exitCode v.tally.termSignal
  startedAt : 0 ≤ v.tally.startedAt ∧ v.tally.startedAt ≤ clock
  logger : v.logState = if 0 < v.logPid then .running else .down
  logStartedAt : 0 ≤ v.logStartedAt ∧ v.logStartedAt ≤ clock
  told : v.logStopping = true → 0 < v.logPid

section

variable {v : Vitals} {clock : Int}

/-- A service that never exited. -/
theorem validCodes_zero : ValidCodes 0 0 := by
  unfold ValidCodes
  decide

/-- The codes are in range, and one of them is zero. -/
theorem decodeWaitStatus_codes (status : Int) :
    ValidCodes (decodeWaitStatus status).2.1 (decodeWaitStatus status).2.2 := by
  unfold decodeWaitStatus
  split
  · -- `WEXITSTATUS` has eight bits
    show 0 ≤ status / 256 % 256 ∧ status / 256 % 256 ≤ 255 ∧ (0 : Int) ≤ 0 ∧ (0 : Int) ≤ 126 ∧
      (status / 256 % 256 = 0 ∨ (0 : Int) = 0)
    omega
  · split
    · exact validCodes_zero
    · show (0 : Int) ≤ 0 ∧ (0 : Int) ≤ 255 ∧ 0 ≤ status % 128 ∧ status % 128 ≤ 126 ∧
        ((0 : Int) = 0 ∨ status % 128 = 0)
      omega

/-- Time passes. -/
theorem Vitals.Consistent.later (h : v.Consistent clock) {t : Int} (ht : clock ≤ t) :
    v.Consistent t :=
  { h with
    startedAt := ⟨h.startedAt.1, Int.le_trans h.startedAt.2 ht⟩
    logStartedAt := ⟨h.logStartedAt.1, Int.le_trans h.logStartedAt.2 ht⟩ }

/-- A new record. -/
theorem vitals_consistent_new (hclock : 0 ≤ clock) : ({} : Vitals).Consistent clock where
  running := nofun
  ended := nofun
  codes := validCodes_zero
  startedAt := ⟨Int.le_refl 0, hclock⟩
  logger := rfl
  logStartedAt := ⟨Int.le_refl 0, hclock⟩
  told := nofun

/-- A start resets the codes. -/
theorem Vitals.Consistent.start (h : v.Consistent clock) (hclock : 0 ≤ clock) :
    Vitals.Consistent { v with tally := v.tally.start clock, state := .running } clock :=
  { h with
    running := fun _ => ⟨rfl, rfl⟩
    ended := nofun
    codes := validCodes_zero
    startedAt := ⟨hclock, Int.le_refl clock⟩ }

/-- An exit sets them to what the status says. -/
theorem Vitals.Consistent.exit (h : v.Consistent clock) (status t : Int) (expected : Bool)
    {state : SvcState} (hstate : state = (decodeWaitStatus status).1 ∨ state = .failed) :
    Vitals.Consistent { v with tally := v.tally.exit status t expected, state } clock := by
  have hcodes := decodeWaitStatus_codes status
  have hne := (Core.decodeWaitStatus_ne status).1
  refine { h with running := fun hrun => ?_, ended := fun hend => ?_, codes := hcodes }
  -- neither the decoded state nor FAILED is RUNNING
  · cases hstate with
    | inl he => exact absurd (he.symm.trans hrun) hne
    | inr he => cases he.symm.trans hrun
  · cases hstate with
    | inl he =>
      show (state, _) = decodeWaitStatus status
      rw [he]
      rfl
    | inr he =>
      subst he
      exact absurd hend (by simp)

/-- A change of the state alone. -/
theorem Vitals.Consistent.quit (h : v.Consistent clock) {state : SvcState}
    (hstate : state = .stopping ∨ state = .failed ∨ state = .down) :
    Vitals.Consistent { v with state } clock := by
  refine { h with running := fun hrun => ?_, ended := fun hend => ?_ }
  · rcases hstate with rfl | rfl | rfl <;> cases hrun
  · rcases hstate with rfl | rfl | rfl <;> rcases hend with hend | hend <;> cases hend

/-- A logger is forked. -/
theorem Vitals.Consistent.startLogger (h : v.Consistent clock) (hclock : 0 ≤ clock) {pid : Int}
    (hpid : 0 < pid) : Vitals.Consistent { v with
      logPid := pid, logState := .running, logStartedAt := clock, logStopping := false } clock :=
  { h with
    logger := (if_pos hpid).symm
    logStartedAt := ⟨hclock, Int.le_refl clock⟩
    told := nofun }

/-- A logger is gone. -/
theorem Vitals.Consistent.loseLogger (h : v.Consistent clock) : Vitals.Consistent { v with
    logPid := -1, logState := .down, logStopping := false } clock :=
  { h with logger := rfl, told := nofun }

end

/-- Every entry is consistent. -/
structure Register.Consistent (r : Register) : Prop where
  clock : 0 ≤ r.clock
  entries : ∀ i, (r.vitals i).Consistent r.clock

/-- One slot gets consistent fields. -/
theorem Register.Consistent.put {r : Register} (h : r.Consistent) {j : Nat} {v : Vitals}
    (hv : v.Consistent r.clock) : (r.put j v).Consistent := by
  refine ⟨h.clock, fun i => ?_⟩
  show (if i = j then v else r.vitals i).Consistent r.clock
  split
  · exact hv
  · exact h.entries i

/-- One step of the registers. -/
theorem Change.consistent {r r' : Register} (hchange : Change r r') (h : r.Consistent) :
    r'.Consistent := by
  -- the log plays no part
  have hlog : ∀ {r : Register} (log : List Event), r.Consistent → { r with log }.Consistent :=
    fun _ h => ⟨h.clock, h.entries⟩
  cases hchange with
  | tick t ht => exact ⟨Int.le_trans h.clock ht, fun i => (h.entries i).later ht⟩
  | note e he => exact hlog _ h
  | finish pid hexit => exact hlog _ h
  | add j => exact hlog _ (h.put (vitals_consistent_new h.clock))
  | start j v hv =>
    subst hv
    exact hlog _ (h.put ((h.entries j).start h.clock))
  | exit j v hv status t before state hwait hstate =>
    subst hv
    exact hlog _ (h.put ((h.entries j).exit status t _ hstate))
  | quit j v hv state hstate =>
    subst hv
    exact h.put ((h.entries j).quit hstate)
  | startLogger j v hv pid hpid =>
    subst hv
    exact h.put ((h.entries j).startLogger h.clock hpid)
  | tellLogger j v hv hpid =>
    subst hv
    exact h.put { h.entries j with told := fun _ => hpid }
  | loseLogger j v hv =>
    subst hv
    exact h.put (h.entries j).loseLogger

/-- Time since the start, at any later time. -/
theorem uptime_bounds {s : Service} {clock now : Int} (h : s.vitals.Consistent clock)
    (hnow : clock ≤ now) (hmax : now ≤ i64Max) :
    (0 ≤ s.uptimeSeconds now ∧ s.uptimeSeconds now ≤ now) ∧
      0 ≤ s.logUptimeSeconds now ∧ s.logUptimeSeconds now ≤ now := by
  have hstart : 0 ≤ s.startedAt ∧ s.startedAt ≤ clock := h.startedAt
  have hlog : 0 ≤ s.logStartedAt ∧ s.logStartedAt ≤ clock := h.logStartedAt
  -- no subtraction overflows
  have hexact : ∀ t, 0 ≤ t → t ≤ clock → i64 (now - t) = now - t := by
    intro t hpos hle
    exact i64_eq_self (by omega) (by omega)
  have hone := hexact _ hstart.1 hstart.2
  have htwo := hexact _ hlog.1 hlog.2
  unfold Service.uptimeSeconds Service.logUptimeSeconds
  rw [hone, htwo]
  constructor <;> split <;> omega

/-- In every reachable state: a running service shows no exit code, one that has exited shows
    what `waitpid` returned, the logger is shown as running exactly if there is one, and no
    uptime that is shown from now on is negative. -/
theorem records_consistent {w : World} (hw : Reachable w) (i : Nat) :
    (w.svc i).vitals.Consistent w.k.clock ∧ ∀ now, w.k.clock ≤ now → now ≤ i64Max →
      (0 ≤ (w.svc i).uptimeSeconds now ∧ (w.svc i).uptimeSeconds now ≤ now) ∧
        0 ≤ (w.svc i).logUptimeSeconds now ∧ (w.svc i).logUptimeSeconds now ≤ now := by
  obtain ⟨root, oracle, fds, hperf⟩ := hw
  have hclock : 0 ≤ (boot root oracle fds).world.register.clock :=
    (boot root oracle fds).world.k.clockNonneg
  have hzeroed : Service.zeroed.vitals.Consistent (boot root oracle fds).world.register.clock :=
    -- a fresh record is consistent with any clock
    { vitals_consistent_new hclock with logger := rfl, told := nofun }
  have hall : ∀ r, Changes (boot root oracle fds).world.register r → r.Consistent := by
    intro r hr
    induction hr with
    | refl => exact ⟨hclock, fun _ => hzeroed⟩
    | tail _ hlast ih => exact hlast.consistent ih
  have hone := (hall w.register hperf.changes).entries i
  exact ⟨hone, fun now hnow hmax => uptime_bounds hone hnow hmax⟩

/-- The record of a running service. -/
theorem records_consistent_started : (plainStarted.svc 0).state = .running ∧
    (plainStarted.svc 0).vitals.Consistent plainStarted.k.clock := by
  have hstate : (plainStarted.svc 0).state = .running := by decide +kernel
  have h := (records_consistent plainStarted_reachable 0).1
  exact ⟨hstate, h⟩

/-! ## The `finish` script -/

/-- Every fork of `finish` comes right after an exit. -/
def FinishesInOrder (log : List Event) : Prop :=
  ∀ post pid pre, log = post ++ .fork .finish pid :: pre → EndsInExit pre

/-- One more event. -/
theorem FinishesInOrder.cons {log : List Event} (h : FinishesInOrder log) {e : Event}
    (he : ∀ pid, e = .fork .finish pid → EndsInExit log) : FinishesInOrder (e :: log) := by
  intro post pid pre heq
  cases post with
  | nil =>
    obtain ⟨rfl, rfl⟩ := List.cons.inj heq
    exact he pid rfl
  | cons e' post =>
    obtain ⟨-, hrest⟩ := List.cons.inj heq
    exact h post pid pre hrest

/-- One step of the registers. -/
theorem Change.finishesInOrder {r r' : Register} (hchange : Change r r')
    (h : FinishesInOrder r.log) : FinishesInOrder r'.log := by
  cases hchange with
  | tick | quit | startLogger | tellLogger | loseLogger => exact h
  | note e he =>
    apply h.cons
    rintro pid rfl
    cases he
  | add | start | exit => exact h.cons fun pid he => nomatch he
  | finish pid hexit => exact h.cons fun _ _ => hexit

/-- In the process log of every reachable state, the event before the fork of a `finish` script
    is the exit of a main process, and the one before that is the `waitpid` that returned this
    process. So `finish` runs at most once for each exit, and after nothing else. -/
theorem finish_follows_exit {w : World} (hw : Reachable w) {post pre : List Event} {pid : Int}
    (hlog : w.k.log = post ++ .fork .finish pid :: pre) :
    ∃ i t before status rest,
      pre = .exited i t before :: .reaped before.pid status :: rest := by
  obtain ⟨root, oracle, fds, hperf⟩ := hw
  -- no `finish` has been forked at boot, and each later one follows its exit
  have hall : ∀ r, Changes (boot root oracle fds).world.register r → FinishesInOrder r.log := by
    intro r hr
    induction hr with
    | refl =>
      intro post pid pre he
      have hnone : [] = post ++ .fork .finish pid :: pre := he
      simp at hnone
    | tail _ hlast ih => exact hlast.finishesInOrder ih
  obtain ⟨i, t, before, status, rest, hexit, rest', hwait⟩ :=
    hall w.register hperf.changes post pid pre hlog
  exact ⟨i, t, before, status, rest', by rw [hexit, hwait]⟩

/-- A service `a` with a `finish` script. -/
def finishFiles : FileSys where
  access path _ := path = bytesOf "/s/a/run" || path = bytesOf "/s/a/finish"

/-- `a` is started as process 115, and exits with code 1. -/
def finishExit : List Op := [.scanEntry (bytesOf "a"), .start 0 0, .reapChild 115 256]

/-- A service with `finish` exits. -/
theorem finish_follows_exit_a :
    let w := run exec finishExit (bootOn finishFiles).world
    ∃ post pid pre, w.k.log = post ++ .fork .finish pid :: pre ∧
      ∃ i t before status rest,
        pre = .exited i t before :: .reaped before.pid status :: rest := by
  intro w
  have hw : Reachable w := ⟨_, _, _, finishExit, rfl⟩
  have hforked : ∃ pid, w.k.log = [] ++ .fork .finish pid :: w.k.log.tail :=
    ⟨_, rfl⟩
  obtain ⟨pid, hlog⟩ := hforked
  exact ⟨[], pid, w.k.log.tail, hlog, finish_follows_exit hw hlog⟩

end SvcRs
