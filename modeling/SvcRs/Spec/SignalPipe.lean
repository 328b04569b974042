import SvcRs.Spec.Run

/-!
# Signals

What becomes of the bytes that the signal handler writes into the self-pipe. A call of
`drain_signal_pipe` acts on one byte; what follows that byte in the chunk is gone.

## Key results

- `drainChunks_append`: the chunks of a call are what it takes from the pipe
- `mainLoop_shutdown_iff`: when the main loop ends
- `signals_honoured_iff`: when no request for a shutdown or a reload is lost
-/

namespace SvcRs

/-! ## One call -/

/-- The chunks that `drain_signal_pipe` reads. -/
def drainChunks : List Nat → Bytes → List Bytes
  | [], _ => []
  | n :: reads, pipe =>
    if pipe.take (min n 64) = [] then []
    else if ((pipe.take (min n 64)).find? isLoopSignal).isSome then [pipe.take (min n 64)]
    else pipe.take (min n 64) :: drainChunks reads (pipe.drop (min n 64))

/-- The byte that stands for the chunk. -/
def firstSignal (chunk : Bytes) : Option UInt8 := chunk.find? isLoopSignal

/-- A call of `drain_signal_pipe`, chunk by chunk. -/
theorem drainSignalPipe_eq (reads : List Nat) (k : Kernel) :
    (drainSignalPipe reads k).1 = (drainChunks reads k.sigPipe).findSome? firstSignal ∧
      (drainChunks reads k.sigPipe).flatten ++ (drainSignalPipe reads k).2.sigPipe =
        k.sigPipe := by
  -- by induction on the reads, with the kernel generalised
  induction reads generalizing k with
  | nil => exact ⟨rfl, rfl⟩
  | cons n reads ih =>
    have hread : readSigPipe n k = (k.sigPipe.take (min n 64), (readSigPipe n k).2) := rfl
    have hrest : (readSigPipe n k).2.sigPipe = k.sigPipe.drop (min n 64) := rfl
    have hsplit := List.take_append_drop (min n 64) k.sigPipe
    simp only [drainSignalPipe, Sys.bind_apply, drainChunks]
    rw [hread]
    generalize hchunk : k.sigPipe.take (min n 64) = chunk at hsplit ⊢
    -- an empty pipe, a signal that ends the loop, or another read
    by_cases hempty : chunk = []
    · simp only [hempty, if_true, Sys.pure_apply, List.findSome?_nil, List.flatten_nil,
        List.nil_append, true_and]
      rw [hrest]
      simpa [hempty] using hsplit
    · simp only [if_neg hempty]
      cases hsig : chunk.find? isLoopSignal with
      | some sig =>
        simp only [Option.isSome_some, if_true, Sys.pure_apply, List.flatten_singleton]
        refine ⟨?_, by rw [hrest]; exact hsplit⟩
        simp [firstSignal, hsig]
      | none =>
        obtain ⟨hresult, hpipe⟩ := ih (readSigPipe n k).2
        rw [hrest] at hresult hpipe
        simp only [Option.isSome_none, Bool.false_eq_true, if_false, List.flatten_cons,
          List.append_assoc]
        -- what is read now and what is read later are together what was in the pipe
        refine ⟨?_, by rw [hpipe]; exact hsplit⟩
        rw [hresult, List.findSome?_cons]
        simp [firstSignal, hsig]

/-- Only the last chunk of a call has a byte that is acted on. -/
theorem findSome?_drainChunks {reads : List Nat} {pipe : Bytes} {b : UInt8} :
    (drainChunks reads pipe).findSome? firstSignal = some b ↔
      ∃ c ∈ drainChunks reads pipe, firstSignal c = some b := by
  induction reads generalizing pipe with
  | nil => simp [drainChunks]
  | cons n reads ih =>
    simp only [drainChunks]
    generalize pipe.take (min n 64) = chunk
    -- an empty chunk ends the reads, and so does one with a loop signal
    by_cases hempty : chunk = []
    · simp [hempty]
    · simp only [if_neg hempty]
      cases hsig : chunk.find? isLoopSignal with
      | some sig => simp [firstSignal, hsig]
      | none =>
        have hnone : firstSignal chunk = none := hsig
        simp only [Option.isSome_none, Bool.false_eq_true, if_false, List.findSome?_cons, hnone,
          ih, List.mem_cons, exists_eq_or_imp, reduceCtorEq, false_or]

/-! ## One turn of the loop -/

/-- SIGTERM or SIGINT. -/
def isStopSignal (b : UInt8) : Bool := b = 15 || b = 2

/-- The first byte of the chunk that the drain looks for asks for a shutdown. -/
def stopsFirst (chunk : Bytes) : Bool := (firstSignal chunk).any isStopSignal

/-- The chunks that the call of one turn reads. -/
def passChunks (p : Pass) (m : MainState) : List Bytes :=
  match p.poll.signals with
  | none => []
  | some reads =>
    drainChunks reads (pollWait p.elapsed p.arrivals (loopTop p m).world).k.sigPipe

/-- The first half of a pass reads no signal. -/
theorem loopTop_shutdown (p : Pass) (m : MainState) : (loopTop p m).shutdown = m.shutdown := by
  simp only [loopTop]
  split <;> rfl

/-- Which signals end the loop. -/
theorem handleSignal_shutdown (sig : Option UInt8) (m : MainState) :
    (handleSignal sig m).shutdown = (m.shutdown || sig.any isStopSignal) := by
  cases sig with
  | none => simp [handleSignal]
  | some b =>
    simp only [handleSignal, isStopSignal, Option.any_some]
    cases hstop : (b = 15 || b = 2 : Bool) with
    | true => simp
    | false =>
      simp only [Bool.false_eq_true, if_false, Bool.or_false]
      split <;> rfl

/-- Only the signal pipe sets the flags. -/
theorem dispatch_flags (r : PollResult) (m : MainState) :
    (dispatch r m).shutdown = (dispatchSignals r.signals m).shutdown ∧
      (dispatch r m).reloadNeeded = (dispatchSignals r.signals m).reloadNeeded := by
  simp only [dispatch]
  split <;> exact ⟨rfl, rfl⟩

/-- SIGHUP asks for a scan. -/
theorem handleSignal_reload (m : MainState) : (handleSignal (some 1) m).reloadNeeded = true := rfl

/-- What the call of one turn does to the flags. -/
theorem mainPass_shutdown (p : Pass) (m : MainState) : (mainPass p m).shutdown =
    (m.shutdown || ((passChunks p m).findSome? firstSignal).any isStopSignal) := by
  rw [mainPass, (dispatch_flags _ _).1]
  unfold passChunks dispatchSignals
  cases p.poll.signals with
  | none => simp [loopTop_shutdown]
  | some reads =>
    simp only [liftSys]
    rw [handleSignal_shutdown, (drainSignalPipe_eq reads _).1, ← loopTop_shutdown p m]

/-- And the pass keeps that in mind. -/
theorem mainPass_reload {p : Pass} {m : MainState}
    (h : (passChunks p m).findSome? firstSignal = some 1) :
    (mainPass p m).reloadNeeded = true := by
  rw [mainPass, (dispatch_flags _ _).2]
  unfold passChunks at h
  unfold dispatchSignals
  cases hsignals : p.poll.signals with
  | none => simp [hsignals] at h
  | some reads =>
    rw [hsignals] at h
    simp only [liftSys]
    rw [(drainSignalPipe_eq reads _).1, h, handleSignal_reload]

/-- Which signal a pass handles. -/
theorem findSome?_passChunks {p : Pass} {m : MainState} {b : UInt8} :
    (passChunks p m).findSome? firstSignal = some b ↔
      ∃ c ∈ passChunks p m, firstSignal c = some b := by
  unfold passChunks
  cases p.poll.signals with
  | none => simp
  | some reads => exact findSome?_drainChunks

/-- One turn ends the loop if a chunk has SIGTERM or SIGINT in front. -/
theorem mainPass_shutdown_iff (p : Pass) {m : MainState} (h : m.shutdown = false) :
    (mainPass p m).shutdown = true ↔ ∃ c ∈ passChunks p m, stopsFirst c = true := by
  rw [mainPass_shutdown, h, Bool.false_or, Option.any_eq_true]
  simp only [findSome?_passChunks, stopsFirst, Option.any_eq_true]
  constructor
  · rintro ⟨b, ⟨c, hc, hb⟩, hstop⟩
    exact ⟨c, hc, b, hb, hstop⟩
  · rintro ⟨c, hc, b, hb, hstop⟩
    exact ⟨b, ⟨c, hc, hb⟩, hstop⟩

/-! ## Runs -/

/-- The chunks that all calls of a run read. -/
def runChunks : List Pass → MainState → List Bytes
  | [], _ => []
  | p :: ps, m =>
    passChunks p m ++ if (mainPass p m).shutdown then [] else runChunks ps (mainPass p m)

/-- The main loop ends if a chunk has SIGTERM or SIGINT in front. -/
theorem mainLoop_shutdown_iff {ps : List Pass} {m : MainState} (h : m.shutdown = false) :
    (mainLoop ps m).shutdown = true ↔ ∃ c ∈ runChunks ps m, stopsFirst c = true := by
  -- by induction on the passes; the loop ends at the first that shuts down
  induction ps generalizing m with
  | nil => simp [mainLoop, runChunks, h]
  | cons p ps ih =>
    have hpass := mainPass_shutdown_iff p h
    simp only [mainLoop, runChunks]
    cases hm : (mainPass p m).shutdown with
    | true =>
      rw [hm] at hpass
      simp only [if_true, List.append_nil, hm, true_iff]
      exact hpass.mp rfl
    | false =>
      rw [hm] at hpass
      simp only [Bool.false_eq_true, if_false, List.mem_append, or_and_right, exists_or]
      rw [ih hm]
      constructor
      · exact .inr
      -- a later chunk counts only if this pass has not ended the loop
      · rintro (hnow | hlater)
        · exact absurd (hpass.mpr hnow) (by decide)
        · exact hlater

/-- A shutdown that was asked for happens, and a reload that was asked for is scheduled. -/
structure SignalsHonoured (ps : List Pass) (m : MainState) : Prop where
  stops : (∃ c ∈ runChunks ps m, ∃ b ∈ c, isStopSignal b = true) →
    (mainLoop ps m).shutdown = true
  reloads : ∀ qs p rest, ps = qs ++ p :: rest → (mainLoop qs m).shutdown = false →
    (∃ c ∈ passChunks p (mainLoop qs m), 1 ∈ c) →
    (mainPass p (mainLoop qs m)).reloadNeeded = true ∨
      (mainPass p (mainLoop qs m)).shutdown = true

/-- SIGHUP is in front, and behind it there is a SIGTERM or SIGINT. -/
def hidesStop (chunk : Bytes) : Bool := firstSignal chunk = some 1 && chunk.any isStopSignal

/-- A signal that comes first is handled; what comes behind it in the chunk is not. -/
theorem firstSignal_cases {chunk : Bytes} {b : UInt8} (hb : b ∈ chunk) (hloop : isLoopSignal b = true) :
    stopsFirst chunk = true ∨ firstSignal chunk = some 1 := by
  cases hfirst : firstSignal chunk with
  | none => exact absurd hloop (List.find?_eq_none.mp hfirst b hb)
  | some sig =>
    have hsig : isLoopSignal sig = true := List.find?_some hfirst
    simp only [isLoopSignal, Bool.or_eq_true, decide_eq_true_eq] at hsig
    rw [stopsFirst, hfirst]
    rcases hsig with (rfl | rfl) | rfl
    · exact .inl rfl
    · exact .inl rfl
    · exact .inr rfl

/-- A reload is never lost: what hides a SIGHUP is a shutdown, or another SIGHUP. -/
theorem reload_or_shutdown {p : Pass} {m : MainState} (h : m.shutdown = false)
    (hhup : ∃ c ∈ passChunks p m, 1 ∈ c) :
    (mainPass p m).reloadNeeded = true ∨ (mainPass p m).shutdown = true := by
  obtain ⟨c, hc, hone⟩ := hhup
  rcases firstSignal_cases hone rfl with hstop | hfirst
  · exact .inr ((mainPass_shutdown_iff p h).mpr ⟨c, hc, hstop⟩)
  · exact .inl (mainPass_reload (findSome?_passChunks.mpr ⟨c, hc, hfirst⟩))

/-- For every sequence of passes from the beginning: the signals are honoured if and only if there
    is a chunk whose first signal stops the loop, in case some chunk hides such a signal behind
    SIGHUP. -/
theorem signals_honoured_iff (root : CStrBuf) (oracle : Nat → Answer) (fds : List Int)
    (ps : List Pass) : SignalsHonoured ps (boot root oracle fds) ↔
      ((∃ c ∈ runChunks ps (boot root oracle fds), hidesStop c = true) →
        ∃ c ∈ runChunks ps (boot root oracle fds), stopsFirst c = true) := by
  have hboot : (boot root oracle fds).shutdown = false := rfl
  generalize boot root oracle fds = m at hboot
  constructor
  -- a stop signal behind another loop signal in its chunk is the hidden one
  · rintro h ⟨c, hc, hhides⟩
    obtain ⟨-, hany⟩ := Bool.and_eq_true_iff.mp hhides
    obtain ⟨b, hb, hstop⟩ := List.any_eq_true.mp hany
    exact (mainLoop_shutdown_iff hboot).mp (h.stops ⟨c, hc, b, hb, hstop⟩)
  · intro h
    refine ⟨?_, fun qs p rest _ hqs hhup => reload_or_shutdown hqs hhup⟩
    rintro ⟨c, hc, b, hb, hstop⟩
    rw [mainLoop_shutdown_iff hboot]
    have hloop : isLoopSignal b = true := by
      simp only [isStopSignal, isLoopSignal, Bool.or_eq_true, decide_eq_true_eq] at hstop ⊢
      exact .inl hstop
    -- either the stop signal comes first in its chunk, or it is hidden by another
    rcases firstSignal_cases hb hloop with hfirst | hfirst
    · exact ⟨c, hc, hfirst⟩
    · exact h ⟨c, hc, by simpa [hidesStop, hfirst] using ⟨b, hb, hstop⟩⟩

/-- SIGHUP and SIGTERM arrive together, and the next call finds the pipe empty. -/
def hupTerm : List Pass :=
  [{ arrivals := [1, 15], poll := { signals := some [64] } }, { poll := { signals := some [64] } }]

/-- SIGTERM behind SIGHUP. -/
theorem shutdown_lost : ¬SignalsHonoured hupTerm (bootOn {}) := by
  intro h
  have hread : runChunks hupTerm (bootOn {}) = [[1, 15]] := by decide +kernel
  have hlost : (mainLoop hupTerm (bootOn {})).shutdown = false := by decide +kernel
  have hstops := h.stops ⟨[1, 15], by simp [hread], 15, by decide, rfl⟩
  exact absurd (hstops.symm.trans hlost) (by decide)

end SvcRs
