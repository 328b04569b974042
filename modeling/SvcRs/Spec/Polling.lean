import SvcRs.Native.Poll
import SvcRs.Spec.Isolation
import SvcRs.Spec.Output
import SvcRs.Spec.Shutdown

/-!
# The loop over the poll array

The main loop finds the pipes to read by the index into the array that it handed to `poll`,
after it may have handled a request and other pipes. Here this loop is shown to be the
`dispatch` that the rest of the development is about: a request leaves every read end as it
was, and reading one stream leaves the other streams alone.

## Key results

- `pollLoop_dispatch`: the loop over the array is `dispatch`
- `pollLoop_coherent`: an entry that is read is still the stream it was made for
- `pollingLoop_mainLoop`: turns with a poll array are passes of the main loop
- `pollTable_covers`: every open read end is polled exactly once, and the array is large enough
-/

namespace SvcRs

open Transition (run)

/-! ## Requests leave the streams alone -/

/-- Signals change no descriptor. -/
theorem stopSignals_sameFds (s : Service) (k : Kernel) : SameFds s (stopSignals s k).1 := by
  have hlogger : ∀ k, SameFds s ((if s.logPid > 0 then signalLogger s else return s) k).1 := by
    intro k
    split
    · exact ⟨⟨rfl, rfl, rfl⟩, rfl⟩
    · exact .refl s
  unfold stopSignals
  split
  · exact hlogger _
  · exact hlogger k

/-- Nor does a command. -/
theorem acceptCmd_sameFds (cmd : SvcCmd) (i : Nat) (s : Service) (k : Kernel) :
    SameFds s (acceptCmd cmd i s k).1 := by
  have htold : ∀ (s' : Service) k, SameFds s s' → SameFds s (stopSignals s' k).1 :=
    fun s' k h => h.trans (stopSignals_sameFds s' k)
  -- no command but those that stop touches a process, and none a stream
  cases cmd with
  | start | up | once => exact ⟨⟨rfl, rfl, rfl⟩, rfl⟩
  | stop => exact htold { s with stopping := true, state := .stopping } _ ⟨⟨rfl, rfl, rfl⟩, rfl⟩
  | restart =>
    exact htold { s with stopping := true, state := .stopping, manualStart := true } _
      ⟨⟨rfl, rfl, rfl⟩, rfl⟩
  | down =>
    show SameFds s (downCmd s _).1
    simp only [downCmd, Sys.bind_apply]
    split
    · exact htold { s with autoStart := false, stopping := true, state := .stopping } _
        ⟨⟨rfl, rfl, rfl⟩, rfl⟩
    · exact ⟨⟨rfl, rfl, rfl⟩, rfl⟩

/-- Nor does stopping dependents. -/
theorem stopTransitiveDeps_sameFds (w : World) (j : Nat) :
    SameFds (w.svc j) ((stopTransitiveDeps w).2.svc j) := by
  obtain ⟨order, hrun, -, -⟩ := stopTransitiveDeps_order w
  rw [hrun, run_tell_svc]
  split
  · exact ⟨⟨rfl, rfl, rfl⟩, rfl⟩
  · exact .refl _

/-- No request opens or closes a pipe of a service, or gives a slot up. -/
theorem handleControlCommand_sameFds (line : Bytes) (w : World) (j : Nat) :
    SameFds (w.svc j) ((handleControlCommand line w).2.svc j) := by
  have hisolated := commands_isolated line w
  by_cases hcmd : ∃ cmd, parseRequest (splitCmd line).1 = .svc cmd
  · obtain ⟨cmd, hcmd⟩ := hcmd
    -- the command is refused, or carried out on one slot
    cases respond_svcCmd hcmd w with
    | inl herror =>
      obtain ⟨msg, he⟩ := herror
      have hsame : (handleControlCommand line w).2.svc = w.svc := by
        simp only [handleControlCommand, Sup.bind_apply, he]
        rfl
      rw [hsame]
      exact .refl _
    | inr haccepts =>
      obtain ⟨i, haccepts⟩ := haccepts
      -- `stop` and `down` stop the dependents first, which moves no descriptor
      have hbefore : ∀ j, SameFds (w.svc j) ((beforeCmd cmd w).svc j) := by
        intro j
        unfold beforeCmd
        split
        · exact stopTransitiveDeps_sameFds w j
        · exact .refl _
      have hrun := request_exec haccepts
      simp only [exec] at hrun
      rw [hrun]
      show SameFds (w.svc j) ((onSlot i (acceptCmd cmd i) (beforeCmd cmd w)).2.svc j)
      rw [onSlot_svc]
      split
      · next hji =>
        subst hji
        exact (hbefore j).trans (acceptCmd_sameFds cmd j _ _)
      · exact hbefore j
  -- all other requests leave the records as they are
  · have hsame := hisolated.readers fun cmd h => hcmd ⟨cmd, h⟩
    rw [hsame]
    exact .refl _

/-- A request changes no descriptor of a service. -/
theorem dispatchControl_sameFds (request : Option Bytes) (w : World) (j : Nat) :
    SameFds (w.svc j) ((dispatchControl request w).2.svc j) := by
  rcases request with _ | _ | ⟨c, line⟩
  · exact .refl _
  · exact .refl _
  · exact handleControlCommand_sameFds _ w j

/-! ## Draining one stream -/

/-- Reading a stream changes this stream only. -/
theorem drainStream_streamOnly (err : Bool) (reads : List ReadResult) (s : Service) (k : Kernel) :
    StreamOnly err s (drainStream err reads s k).1 := by
  have hsame : ∀ s, StreamOnly err s s := fun s => (LogOnly.refl err s).streamOnly
  induction reads generalizing s k with
  | nil => exact hsame s
  | cons r reads ih =>
    unfold drainStream
    split
    · exact hsame s
    cases r with
    | eof | error => exact ⟨_, .inr rfl, rfl⟩
    | eintr => exact ih s k
    | eagain => exact hsame s
    | data b =>
      cases b with
      | nil => exact ⟨_, .inr rfl, rfl⟩
      | cons c rest =>
        -- the log first, then the rest of the reads
        have hlog : ∀ k, LogOnly err s ((if s.hasLog then pure s
            else writeLog err ((c :: rest).take ioBuf) s : Sys Service) k).1 := by
          intro k
          split
          · exact .refl err s
          · exact writeLog_logOnly err _ s k
        have hrest : ∀ s₁ k, LogOnly err s s₁ → StreamOnly err s
            ((if ((c :: rest).take ioBuf).length < ioBuf then pure s₁
              else drainStream err reads s₁ : Sys Service) k).1 := by
          intro s₁ k h
          split
          · exact h.streamOnly
          · exact h.andThen (ih s₁ k)
        dsimp only
        split
        · next hhas =>
          have h := hlog k
          rw [if_pos hhas] at h
          exact hrest s k h
        · next hhas =>
          have h := hlog k
          rw [if_neg hhas] at h
          exact hrest _ _ h

/-! ## The array -/

/-- The entry of one stream, if its pipe is open. -/
def streamEntries (i : Nat) (s : Service) (err : Bool) : List PollEntry :=
  if (s.stream err).readFd ≥ 0 then
    [{ fd := (s.stream err).readFd, service := i, stream := err }]
  else []

/-- The entries for the streams of one slot. -/
def slotEntries (w : World) (i : Nat) : List PollEntry :=
  if (w.svc i).active then
    streamEntries i (w.svc i) false ++ streamEntries i (w.svc i) true
  else []

/-- The entry of the self-pipe, or of the control socket. -/
def headEntries (fd : Int) : List PollEntry := if fd ≥ 0 then [{ fd }] else []

/-- The entries of the services. -/
def outputEntries (w : World) : List PollEntry := w.slots.flatMap (slotEntries w)

/-- A stream adds its entry. -/
theorem addStream_entries (t : PollTable) (i : Nat) (s : Service) (err : Bool) :
    t.addStream i s err = { t with entries := t.entries ++ streamEntries i s err } := by
  unfold PollTable.addStream streamEntries
  split
  · rfl
  · rw [List.append_nil]

/-- A slot adds its entries. -/
theorem addSlot_entries (w : World) (t : PollTable) (i : Nat) :
    t.addSlot w i = { t with entries := t.entries ++ slotEntries w i } := by
  unfold PollTable.addSlot slotEntries
  split
  · rw [addStream_entries, addStream_entries, List.append_assoc]
  · rw [List.append_nil]

/-- The table is the list of all entries. -/
theorem buildPollTable_eq (sigFd ctrlFd : Int) (w : World) :
    buildPollTable sigFd ctrlFd w =
      { entries := headEntries sigFd ++ headEntries ctrlFd ++ outputEntries w
        sigIdx := if sigFd ≥ 0 then some 0 else none
        ctrlIdx := if ctrlFd ≥ 0 then some (headEntries sigFd).length else none } := by
  have hslots : ∀ (is : List Nat) (t : PollTable), is.foldl (PollTable.addSlot w) t =
      { t with entries := t.entries ++ is.flatMap (slotEntries w) } := by
    intro is
    -- by induction on the slots, with the table so far generalised
    induction is with
    | nil => simp
    | cons i is ih =>
      intro t
      rw [List.foldl_cons, addSlot_entries, ih, List.flatMap_cons, List.append_assoc]
  unfold buildPollTable
  rw [hslots]
  unfold PollTable.addSignals PollTable.addControl headEntries outputEntries
  by_cases hsig : sigFd ≥ 0 <;> by_cases hctrl : ctrlFd ≥ 0 <;>
    simp [hsig, hctrl, PollTable.add, PollTable.n]

/-! ### Indices -/

namespace PollTable

/-- The entry is the one of a stream. -/
def IsOutput (t : PollTable) (j : Nat) : Prop := t.sigIdx ≠ some j ∧ t.ctrlIdx ≠ some j

instance (t : PollTable) (j : Nat) : Decidable (t.IsOutput j) :=
  inferInstanceAs (Decidable (_ ∧ _))

/-- The indices of the streams. -/
def outputIdx (t : PollTable) : List Nat := (List.range t.n).filter fun j => t.IsOutput j

end PollTable

section

variable (sigFd ctrlFd : Int) (w : World)

/-- The number of entries in front of those of the services. -/
def headCount : Nat := (headEntries sigFd ++ headEntries ctrlFd).length

/-- How many there are. -/
theorem buildPollTable_n :
    (buildPollTable sigFd ctrlFd w).n = headCount sigFd ctrlFd + (outputEntries w).length := by
  unfold PollTable.n headCount
  rw [buildPollTable_eq, List.length_append]

/-- Those after the head stand for streams. -/
theorem isOutput_iff (j : Nat) :
    (buildPollTable sigFd ctrlFd w).IsOutput j ↔ headCount sigFd ctrlFd ≤ j := by
  unfold PollTable.IsOutput headCount
  rw [buildPollTable_eq]
  unfold headEntries
  by_cases hsig : sigFd ≥ 0 <;> by_cases hctrl : ctrlFd ≥ 0 <;> simp [hsig, hctrl] <;> omega

/-- The loop meets the self-pipe first, then the control socket, then the streams. -/
theorem range_indices :
    let t := buildPollTable sigFd ctrlFd w
    List.range t.n = t.sigIdx.toList ++ t.ctrlIdx.toList ++ t.outputIdx := by
  -- the table begins with the entries of the pipe and of the socket, if there are any
  have hhead : ∀ t : PollTable, t.sigIdx = (buildPollTable sigFd ctrlFd w).sigIdx →
      t.ctrlIdx = (buildPollTable sigFd ctrlFd w).ctrlIdx →
      List.range (headCount sigFd ctrlFd) = t.sigIdx.toList ++ t.ctrlIdx.toList := by
    intro t hs hc
    rw [hs, hc, buildPollTable_eq]
    unfold headCount headEntries
    by_cases hsig : sigFd ≥ 0 <;> by_cases hctrl : ctrlFd ≥ 0 <;>
      simp [hsig, hctrl, List.range_succ]
  intro t
  -- those are not output entries, and all the others are
  have hskip : (List.range (headCount sigFd ctrlFd)).filter (fun j => t.IsOutput j) = [] := by
    apply List.filter_eq_nil_iff.mpr
    intro j hj
    have hlt := List.mem_range.mp hj
    have hout := (isOutput_iff sigFd ctrlFd w j).not.mpr (by omega)
    simpa using hout
  have hkeep : ((List.range (outputEntries w).length).map (headCount sigFd ctrlFd + ·)).filter
      (fun j => t.IsOutput j) =
        (List.range (outputEntries w).length).map (headCount sigFd ctrlFd + ·) := by
    apply List.filter_eq_self.mpr
    intro j hj
    obtain ⟨k, -, rfl⟩ := List.mem_map.mp hj
    exact decide_eq_true ((isOutput_iff sigFd ctrlFd w _).mpr (by omega))
  rw [← hhead t rfl rfl, PollTable.outputIdx, buildPollTable_n, List.range_add, List.filter_append,
    hskip, hkeep, List.nil_append]

/-- The entries behind the head are those of the services. -/
theorem entries_output {j : Nat} (hj : (buildPollTable sigFd ctrlFd w).IsOutput j) :
    (buildPollTable sigFd ctrlFd w).entries[j]? =
      (outputEntries w)[j - headCount sigFd ctrlFd]? := by
  have hle := (isOutput_iff sigFd ctrlFd w j).mp hj
  rw [buildPollTable_eq]
  exact List.getElem?_append_right hle

end

/-! ### No stream has two entries -/

/-- The stream that an entry stands for. -/
def PollEntry.key (e : PollEntry) : Nat × Bool := (e.service, e.stream)

/-- There is one for each open read end. -/
theorem mem_slotEntries {w : World} {i : Nat} {e : PollEntry} :
    e ∈ slotEntries w i ↔ (w.svc i).active = true ∧ e.service = i ∧
      e.fd = ((w.svc i).stream e.stream).readFd ∧ 0 ≤ e.fd := by
  -- one stream has at most one entry
  have hstream : ∀ err, e ∈ streamEntries i (w.svc i) err ↔ e.stream = err ∧ e.service = i ∧
      e.fd = ((w.svc i).stream err).readFd ∧ 0 ≤ e.fd := by
    intro err
    obtain ⟨fd, service, stream⟩ := e
    unfold streamEntries
    split
    · next hopen =>
      simp only [List.mem_singleton, PollEntry.mk.injEq]
      constructor
      · rintro ⟨rfl, rfl, rfl⟩
        exact ⟨rfl, rfl, rfl, hopen⟩
      · rintro ⟨rfl, rfl, rfl, -⟩
        exact ⟨rfl, rfl, rfl⟩
    · next hclosed =>
      simp only [List.not_mem_nil, false_iff]
      rintro ⟨rfl, rfl, rfl, hopen⟩
      exact hclosed hopen
  unfold slotEntries
  split
  · next hact =>
    rw [List.mem_append, hstream, hstream]
    constructor
    · rintro (⟨herr, hi, hfd, hopen⟩ | ⟨herr, hi, hfd, hopen⟩) <;> rw [herr] <;>
        exact ⟨hact, hi, hfd, hopen⟩
    · rintro ⟨-, hi, hfd, hopen⟩
      cases herr : e.stream with
      | false => exact .inl ⟨rfl, hi, herr ▸ hfd, hopen⟩
      | true => exact .inr ⟨rfl, hi, herr ▸ hfd, hopen⟩
  · next hact => simp [hact]

/-- No stream of the slot twice. -/
theorem slotEntries_nodup (w : World) (i : Nat) :
    ((slotEntries w i).map PollEntry.key).Nodup := by
  unfold slotEntries streamEntries
  split
  · split <;> split <;> simp [PollEntry.key]
  · simp

/-- No stream twice. -/
theorem outputEntries_nodup (w : World) : ((outputEntries w).map PollEntry.key).Nodup := by
  unfold outputEntries
  rw [List.map_flatMap, List.nodup_flatMap]
  refine ⟨fun i _ => slotEntries_nodup w i, ?_⟩
  have hslots : w.slots.Pairwise (· ≠ ·) := List.nodup_range
  apply hslots.imp
  intro i j hij key hi hj
  -- the slot is part of the key
  obtain ⟨e, he, rfl⟩ := List.mem_map.mp hi
  obtain ⟨e', he', hkey⟩ := List.mem_map.mp hj
  have hservice : e'.service = e.service := congrArg Prod.fst hkey
  rw [(mem_slotEntries.mp he).2.1, (mem_slotEntries.mp he').2.1] at hservice
  exact hij hservice.symm

/-- Two entries for the same stream are the same entry. -/
theorem output_inj {sigFd ctrlFd : Int} {w : World} {j j' : Nat} {e e' : PollEntry}
    (hj : (buildPollTable sigFd ctrlFd w).IsOutput j)
    (hj' : (buildPollTable sigFd ctrlFd w).IsOutput j')
    (he : (buildPollTable sigFd ctrlFd w).entries[j]? = some e)
    (he' : (buildPollTable sigFd ctrlFd w).entries[j']? = some e') (hkey : e.key = e'.key) :
    j = j' := by
  have hle := (isOutput_iff sigFd ctrlFd w j).mp hj
  have hle' := (isOutput_iff sigFd ctrlFd w j').mp hj'
  rw [entries_output sigFd ctrlFd w hj] at he
  rw [entries_output sigFd ctrlFd w hj'] at he'
  have hlt : j - headCount sigFd ctrlFd < ((outputEntries w).map PollEntry.key).length := by
    rw [List.length_map]
    exact (List.getElem?_eq_some_iff.mp he).1
  -- behind the head, the keys of the entries are those of the output streams
  have hsame : ((outputEntries w).map PollEntry.key)[j - headCount sigFd ctrlFd]? =
      ((outputEntries w).map PollEntry.key)[j' - headCount sigFd ctrlFd]? := by
    rw [List.getElem?_map, List.getElem?_map, he, he', Option.map_some, Option.map_some, hkey]
  have hindex := (List.getElem?_inj hlt (outputEntries_nodup w)).mp hsame
  omega

/-! ## The entries while the loop runs -/

/-- The entry stands for an open stream of an active record. -/
structure PollEntry.Reads (e : PollEntry) (w : World) : Prop where
  active : (w.svc e.service).active = true
  readFd : ((w.svc e.service).stream e.stream).readFd = e.fd
  isOpen : 0 ≤ e.fd

/-- An entry stays good while the descriptors of its service do. -/
theorem PollEntry.Reads.of_sameFds {e : PollEntry} {w w' : World} (h : e.Reads w)
    (hsame : SameFds (w.svc e.service) (w'.svc e.service)) : e.Reads w' := by
  refine ⟨hsame.active.trans h.active, ?_, h.isOpen⟩
  rw [← h.readFd]
  cases e.stream with
  | false => exact congrArg Stream.readFd hsame.out
  | true => exact congrArg Stream.readFd hsame.err

/-- Draining another stream does not matter. -/
theorem PollEntry.Reads.drain {e e' : PollEntry} {w : World} (h : e.Reads w) (hne : e.key ≠ e'.key)
    (reads : List ReadResult) :
    e.Reads (onSlot e'.service (drainStream e'.stream reads) w).2 := by
  obtain ⟨hact, hread, hopen⟩ := h
  by_cases hslot : e.service = e'.service
  -- the same slot: the entry is for the other stream
  · have hstream : e.stream ≠ e'.stream := fun hs => hne (by unfold PollEntry.key; rw [hslot, hs])
    have hnot : e.stream = !e'.stream := by
      cases h₁ : e.stream <;> cases h₂ : e'.stream <;> simp_all
    obtain ⟨st, -, hs⟩ :=
      drainStream_streamOnly e'.stream reads (w.svc e'.service) w.k
    refine ⟨?_, ?_, hopen⟩
    · rw [onSlot_svc, if_pos hslot, hs, Service.active_setStream, ← hslot]
      exact hact
    · rw [onSlot_svc, if_pos hslot, hs, hnot, Service.stream_setStream_not, ← hslot, ← hnot]
      exact hread
  · exact ⟨by rw [onSlot_svc, if_neg hslot, hact], by rw [onSlot_svc, if_neg hslot, hread], hopen⟩

/-- All stream entries among `js` are up to date. -/
def PollTable.Current (t : PollTable) (js : List Nat) (w : World) : Prop :=
  ∀ j ∈ js, t.IsOutput j → ∃ e, t.entries[j]? = some e ∧ e.Reads w

section

variable {sigFd ctrlFd : Int} {w₀ : World}

/-- When the array is built. -/
theorem buildPollTable_current :
    let t := buildPollTable sigFd ctrlFd w₀
    t.Current (List.range t.n) w₀ := by
  intro t j hj hout
  have hlt := List.mem_range.mp hj
  have hget : (buildPollTable sigFd ctrlFd w₀).entries[j]? =
      some (buildPollTable sigFd ctrlFd w₀).entries[j] := List.getElem?_eq_getElem hlt
  refine ⟨_, hget, ?_⟩
  rw [entries_output sigFd ctrlFd w₀ hout] at hget
  obtain ⟨i, -, hmem⟩ := List.mem_flatMap.mp (List.mem_of_getElem? hget)
  obtain ⟨hact, hservice, hfd, hopen⟩ := mem_slotEntries.mp hmem
  exact ⟨hservice ▸ hact, by rw [hservice]; exact hfd.symm, hopen⟩

variable {t : PollTable} {r : PollReport} {js : List Nat} {m : MainState}

/-- The branch of one entry leaves the later entries up to date. -/
theorem pollBranch_current {j : Nat} (ht : t = buildPollTable sigFd ctrlFd w₀)
    (h : t.Current (j :: js) m.world) (hj : j ∉ js) :
    t.Current js (pollBranch t r j m).world := by
  intro j' hj' hout
  obtain ⟨e, he, hreads⟩ := h j' (List.mem_cons_of_mem j hj') hout
  refine ⟨e, he, ?_⟩
  unfold pollBranch
  split
  · -- the self-pipe is no part of the table
    have hsame : (dispatchSignals (some r.signalReads) m).world.svc = m.world.svc := by
      simp only [dispatchSignals, handleSignal_world]
      rfl
    exact hreads.of_sameFds (hsame ▸ .refl _)
  · next hsig =>
    split
    · exact hreads.of_sameFds (dispatchControl_sameFds r.request m.world e.service)
    · next hctrl =>
      cases hentry : t.entries[j]? with
      | none => exact hreads
      | some e' =>
        apply hreads.drain
        intro hkey
        have hjout : t.IsOutput j := ⟨hsig, hctrl⟩
        rw [ht] at hout hjout he hentry
        have hsame : j' = j := output_inj hout hjout he hentry hkey
        exact hj (hsame ▸ hj')

/-- One entry, and the rest unless the loop has been left. -/
theorem pollLoop_cons (j : Nat) (js : List Nat) (m : MainState) : pollLoop t r (j :: js) m =
    if (if r.ready j then pollBranch t r j m else m).shutdown then
      if r.ready j then pollBranch t r j m else m
    else pollLoop t r js (if r.ready j then pollBranch t r j m else m) := rfl

/-- So does the loop over some entries, whether it breaks or not. -/
theorem pollLoop_current {done rest : List Nat} (ht : t = buildPollTable sigFd ctrlFd w₀)
    (h : t.Current (done ++ rest) m.world) (hnodup : (done ++ rest).Nodup) :
    t.Current rest (pollLoop t r done m).world := by
  induction done generalizing m with
  | nil => exact h
  | cons j done ih =>
    obtain ⟨hj, hnodup⟩ := List.nodup_cons.mp hnodup
    -- serving one entry leaves those of the rest of the table current
    have hnext : t.Current (done ++ rest) (if r.ready j then pollBranch t r j m else m).world := by
      split
      · exact pollBranch_current ht h hj
      · exact fun j' hj' => h j' (List.mem_cons_of_mem j hj')
    rw [pollLoop_cons]
    generalize (if r.ready j then pollBranch t r j m else m) = m₁ at hnext ⊢
    split
    · exact fun j' hj' => hnext j' (List.mem_append_right done hj')
    · exact ih hnext hnodup

/-! ## The loop is the dispatch -/

/-- The streams that are drained, in the order of their entries. -/
def PollReport.outputs (r : PollReport) (t : PollTable) (js : List Nat) :
    List (Nat × Bool × List ReadResult) :=
  (js.filter r.ready).filterMap fun j =>
    t.entries[j]?.map fun e => (e.service, e.stream, r.reads j)

/-- The report with the entries told apart. -/
def PollReport.result (r : PollReport) (t : PollTable) : PollResult where
  signals := (t.sigIdx.filter r.ready).map fun _ => r.signalReads
  control := (t.ctrlIdx.filter r.ready).bind fun _ => r.request
  outputs := r.outputs t t.outputIdx

/-- Some entries, and the rest unless the loop has been left. -/
theorem pollLoop_append (done rest : List Nat) (hm : m.shutdown = false) :
    pollLoop t r (done ++ rest) m =
      if (pollLoop t r done m).shutdown then pollLoop t r done m
      else pollLoop t r rest (pollLoop t r done m) := by
  induction done generalizing m with
  | nil =>
    have hnone : pollLoop t r [] m = m := rfl
    rw [hnone, hm]
    rfl
  | cons j done ih =>
    rw [List.cons_append, pollLoop_cons, pollLoop_cons]
    generalize (if r.ready j then pollBranch t r j m else m) = m₁
    -- after a shutdown neither side goes on
    by_cases hshut : m₁.shutdown = true
    · rw [if_pos hshut, if_pos hshut, if_pos hshut]
    · rw [if_neg hshut, if_neg hshut]
      exact ih (Bool.eq_false_iff.mpr hshut)

/-- A loop over one entry. -/
theorem pollLoop_single (j : Nat) :
    pollLoop t r [j] m = if r.ready j then pollBranch t r j m else m := by
  rw [pollLoop_cons]
  exact ite_self _

/-- The entry of the signal pipe. -/
theorem pollLoop_signals :
    pollLoop t r t.sigIdx.toList m = dispatchSignals (r.result t).signals m := by
  unfold PollReport.result
  cases hsig : t.sigIdx with
  | none => rfl
  | some j =>
    rw [Option.toList_some, pollLoop_single]
    unfold pollBranch
    rw [if_pos hsig, Option.filter_some]
    split <;> rfl

/-- The entry of the control socket. -/
theorem pollLoop_control (h : ∀ j, t.ctrlIdx = some j → t.sigIdx ≠ some j) :
    pollLoop t r t.ctrlIdx.toList m =
      { m with world := (dispatchControl (r.result t).control m.world).2 } := by
  unfold PollReport.result
  cases hctrl : t.ctrlIdx with
  | none => rfl
  | some j =>
    rw [Option.toList_some, pollLoop_single]
    unfold pollBranch
    rw [if_neg (h j hctrl), if_pos hctrl, Option.filter_some]
    split <;> rfl

/-- The entries of the streams, by induction over them. -/
theorem pollLoop_outputs (ht : t = buildPollTable sigFd ctrlFd w₀) (hm : m.shutdown = false)
    (hout : ∀ j ∈ js, t.IsOutput j) (hcurrent : t.Current js m.world) (hnodup : js.Nodup) :
    pollLoop t r js m = { m with world := (drainOutputs (r.outputs t js) m.world).2 } := by
  induction js generalizing m with
  | nil => rfl
  | cons j js ih =>
    obtain ⟨hj, hnodup⟩ := List.nodup_cons.mp hnodup
    have hjout := hout j List.mem_cons_self
    obtain ⟨e, he, hreads⟩ := hcurrent j List.mem_cons_self hjout
    have hlater : ∀ j' ∈ js, t.IsOutput j' := fun j' hj' => hout j' (List.mem_cons_of_mem j hj')
    have hgoes : ∀ w, ¬({ m with world := w } : MainState).shutdown = true := by
      intro w
      simp [hm]
    rw [pollLoop_cons]
    by_cases hready : r.ready j = true
    · -- the record is active, so the model drains it, too
      have hbranch : pollBranch t r j m = { m with
          world := (onSlot e.service (drainStream e.stream (r.reads j)) m.world).2 } := by
        unfold pollBranch
        rw [if_neg hjout.1, if_neg hjout.2, he]
      have hnext := pollBranch_current ht hcurrent hj (r := r)
      rw [hbranch] at hnext
      have houtputs : r.outputs t (j :: js) =
          (e.service, e.stream, r.reads j) :: r.outputs t js := by
        unfold PollReport.outputs
        rw [List.filter_cons_of_pos hready, List.filterMap_cons, he]
        rfl
      rw [if_pos hready, hbranch, if_neg (hgoes _)]
      have hrest := ih (m := { m with
        world := (onSlot e.service (drainStream e.stream (r.reads j)) m.world).2 }) hm hlater hnext
        hnodup
      rw [hrest, houtputs, drainOutputs, Sup.bind_apply, drainOutput_active hreads.active]
    -- an entry that is not ready is passed over in both loops
    · have houtputs : r.outputs t (j :: js) = r.outputs t js := by
        unfold PollReport.outputs
        rw [List.filter_cons_of_neg hready]
      rw [if_neg hready, if_neg (hgoes m.world), houtputs]
      exact ih hm hlater (fun j' hj' => hcurrent j' (List.mem_cons_of_mem j hj')) hnodup

/-- The loop over the array is `dispatch`, whatever `poll` reports. -/
theorem pollLoop_dispatch (hm : m.shutdown = false) (hsvc : m.world.svc = w₀.svc) :
    let t := buildPollTable sigFd ctrlFd w₀
    pollLoop t r (List.range t.n) m = dispatch (r.result t) m := by
  intro t
  -- before the first entry is served, every entry still stands for its stream
  have hcurrent : t.Current (List.range t.n) m.world := by
    intro j hj hout
    obtain ⟨e, he, hreads⟩ := buildPollTable_current j hj hout
    exact ⟨e, he, hreads.of_sameFds (hsvc ▸ .refl _)⟩
  have hnodup : (List.range t.n).Nodup := List.nodup_range
  rw [range_indices, List.append_assoc] at hcurrent hnodup ⊢
  -- the signal pipe and the socket have different entries
  have hheads : ∀ j, t.ctrlIdx = some j → t.sigIdx ≠ some j := by
    intro j hctrl hsig
    have hmem : j ∈ t.sigIdx.toList := Option.mem_toList.mpr hsig
    have hmem' : j ∈ t.ctrlIdx.toList := Option.mem_toList.mpr hctrl
    exact (List.nodup_append.mp hnodup).2.2 j hmem j (List.mem_append_left _ hmem') rfl
  -- signals first, as in the loop over `pfds`
  rw [pollLoop_append _ _ hm, pollLoop_signals]
  have hcurrent₁ := pollLoop_current (r := r) rfl hcurrent hnodup
  rw [pollLoop_signals] at hcurrent₁
  unfold dispatch
  dsimp only
  generalize dispatchSignals (r.result t).signals m = m₁ at hcurrent₁ ⊢
  -- a signal that ends the loop is the `break`
  by_cases hshut : m₁.shutdown = true
  · rw [if_pos hshut, if_pos hshut]
  · have hm₁ := Bool.eq_false_iff.mpr hshut
    have hnodup₁ := (List.nodup_append.mp hnodup).2.1
    have hcurrent₂ := pollLoop_current (r := r) rfl hcurrent₁ hnodup₁
    rw [pollLoop_control hheads] at hcurrent₂
    -- then the control socket, and then the output of the services
    rw [if_neg hshut, if_neg hshut, pollLoop_append _ _ hm₁, pollLoop_control hheads]
    rw [if_neg (show ¬m₁.shutdown = true from hshut)]
    have houtputs : ∀ j ∈ t.outputIdx, t.IsOutput j := by
      intro j hj
      simpa using (List.mem_filter.mp hj).2
    exact pollLoop_outputs (m := { m₁ with world := _ }) rfl hm₁ houtputs hcurrent₂
      (List.nodup_append.mp hnodup₁).2.1

end

/-- Whenever the loop gets to the entry of a stream, the entry still stands for that stream:
    the record is active, and the descriptor that `poll` reported is its open read end. -/
theorem pollLoop_coherent {sigFd ctrlFd : Int} {w : World} {r : PollReport} {m : MainState}
    (hsvc : m.world.svc = w.svc) {done later : List Nat} {j : Nat}
    (hsplit : List.range (buildPollTable sigFd ctrlFd w).n = done ++ j :: later)
    (hout : (buildPollTable sigFd ctrlFd w).IsOutput j) :
    ∃ e, (buildPollTable sigFd ctrlFd w).entries[j]? = some e ∧
      e.Reads (pollLoop (buildPollTable sigFd ctrlFd w) r done m).world := by
  have hcurrent : (buildPollTable sigFd ctrlFd w).Current (done ++ j :: later) m.world := by
    intro j hj hout
    obtain ⟨e, he, hreads⟩ := buildPollTable_current j (hsplit ▸ hj) hout
    exact ⟨e, he, hreads.of_sameFds (hsvc ▸ .refl _)⟩
  have hnodup : (done ++ j :: later).Nodup := hsplit ▸ List.nodup_range
  exact pollLoop_current rfl hcurrent hnodup j List.mem_cons_self hout

/-- Service `a` runs with two pipes, and nothing else is polled. -/
def aPolled : World := run exec [.scanEntry (bytesOf "a"), .start 0 0] (openingOn plainFiles).world

/-- Its output is at the end, and its errors are read after that. -/
theorem pollLoop_coherent_a :
    ∃ e, (buildPollTable (-1) (-1) aPolled).entries[1]? = some e ∧
      e.Reads (pollLoop (buildPollTable (-1) (-1) aPolled)
        { revents := fun _ => 1, reads := fun _ => [.eof] } [0]
        { world := aPolled, nextScan := 0 }).world := by
  have htable : List.range (buildPollTable (-1) (-1) aPolled).n = [0] ++ 1 :: [] ∧
      (buildPollTable (-1) (-1) aPolled).IsOutput 1 := by decide +kernel
  generalize aPolled = w at htable ⊢
  have hsvc : ({ world := w, nextScan := 0 } : MainState).world.svc = w.svc := rfl
  exact pollLoop_coherent hsvc htable.1 htable.2

/-! ## The main loop -/

/-- The pass of the model that a turn is. -/
def LoopTurn.pass (sigFd ctrlFd : Int) (p : LoopTurn) (m : MainState) : Pass where
  exits := p.exits
  listing := p.listing
  elapsed := p.elapsed
  arrivals := p.arrivals
  poll :=
    match p.report with
    | none => {}
    | some r => r.result (buildPollTable sigFd ctrlFd
        (loopTop { exits := p.exits, listing := p.listing } m).world)

/-- The passes of a row of turns. -/
def passes (sigFd ctrlFd : Int) : List LoopTurn → MainState → List Pass
  | [], _ => []
  | p :: ps, m => p.pass sigFd ctrlFd m :: passes sigFd ctrlFd ps (mainTurn sigFd ctrlFd p m)

/-- The first half of a turn does not end the loop. -/
theorem loopTop_goesOn (p : Pass) (m : MainState) : (loopTop p m).shutdown = m.shutdown := by
  unfold loopTop
  dsimp only
  split <;> rfl

/-- One turn is one pass. -/
theorem mainTurn_mainPass (sigFd ctrlFd : Int) (p : LoopTurn) {m : MainState}
    (hm : m.shutdown = false) :
    mainTurn sigFd ctrlFd p m = mainPass (p.pass sigFd ctrlFd m) m := by
  have htop : loopTop (p.pass sigFd ctrlFd m) m =
      loopTop { exits := p.exits, listing := p.listing } m := rfl
  have hgoes := (loopTop_goesOn { exits := p.exits, listing := p.listing } m).trans hm
  unfold mainTurn mainPass
  dsimp only
  rw [htop]
  unfold LoopTurn.pass
  cases p.report with
  | none =>
    -- nothing is ready
    have hnothing : ∀ m : MainState, m.shutdown = false → dispatch {} m = m := by
      intro m hm
      show (if m.shutdown then m else m) = m
      exact ite_self m
    exact (hnothing { loopTop { exits := p.exits, listing := p.listing } m with
      world := pollWait p.elapsed p.arrivals _ } hgoes).symm
  | some r => exact pollLoop_dispatch hgoes rfl

/-- The main loop with its poll array is the main loop of the model, so all that is proved of
    the runs and the reachable states of the model holds of it. -/
theorem pollingLoop_mainLoop (root : CStrBuf) (oracle : Nat → Answer) (fds : List Int)
    (sigFd ctrlFd : Int) (turns : List LoopTurn) :
    pollingLoop sigFd ctrlFd turns (boot root oracle fds) =
      mainLoop (passes sigFd ctrlFd turns (boot root oracle fds)) (boot root oracle fds) := by
  -- by induction on the turns, as long as the loop goes on
  have hloop : ∀ (turns : List LoopTurn) (m : MainState), m.shutdown = false →
      pollingLoop sigFd ctrlFd turns m = mainLoop (passes sigFd ctrlFd turns m) m := by
    intro turns
    induction turns with
    | nil => exact fun _ _ => rfl
    | cons p turns ih =>
      intro m hm
      have hturn := mainTurn_mainPass sigFd ctrlFd p hm
      simp only [pollingLoop, passes, mainLoop]
      rw [← hturn]
      split
      · rfl
      · next hgoes => exact ih _ (Bool.eq_false_iff.mpr hgoes)
  exact hloop turns _ rfl

/-! ## What is polled -/

/-- The self-pipe and the control socket, if they could be opened, among the descriptors that
    are open before the main loop. -/
structure Endpoints (fds : List Int) (sigFd ctrlFd : Int) : Prop where
  nodup : fds.Nodup
  sig : 0 ≤ sigFd → sigFd ∈ fds
  ctrl : 0 ≤ ctrlFd → ctrlFd ∈ fds
  apart : 0 ≤ sigFd → sigFd ≠ ctrlFd

/-- The descriptor of a stream. -/
theorem streamEntries_fds (i : Nat) (s : Service) (err : Bool) :
    ((streamEntries i s err).map PollEntry.fd : Multiset Int) = ownFd (s.stream err).readFd := by
  unfold streamEntries ownFd
  by_cases hopen : 0 ≤ (s.stream err).readFd
  · rw [if_pos hopen, if_pos hopen]
    rfl
  · rw [if_neg hopen, if_neg hopen]
    rfl

/-- The descriptors of a slot are recorded. -/
theorem slotEntries_fds (w : World) (i : Nat) :
    ((slotEntries w i).map PollEntry.fd : Multiset Int) ≤ (w.svc i).recorded := by
  unfold slotEntries Service.recorded
  split
  · rw [List.map_append, ← Multiset.coe_add, streamEntries_fds, streamEntries_fds]
    exact add_le_add (Multiset.le_add_right _ _) (Multiset.le_add_right _ _)
  · exact Multiset.zero_le _

/-- The read ends that are polled are some of the recorded descriptors. -/
theorem outputEntries_fds (w : World) :
    ((outputEntries w).map PollEntry.fd : Multiset Int) ≤ w.recorded := by
  have hslots : ∀ n, (((List.range n).flatMap (slotEntries w)).map PollEntry.fd : Multiset Int) ≤
      ∑ i ∈ Finset.range n, (w.svc i).recorded := by
    intro n
    induction n with
    | zero => exact Multiset.zero_le _
    | succ n ih =>
      rw [List.range_succ, List.flatMap_append, List.map_append, ← Multiset.coe_add,
        Finset.sum_range_succ, List.flatMap_singleton]
      exact add_le_add ih (slotEntries_fds w n)
  exact hslots w.size

/-- The head of the table has descriptors from before the loop. -/
theorem Endpoints.heads {fds : List Int} {sigFd ctrlFd : Int} (h : Endpoints fds sigFd ctrlFd) :
    ((headEntries sigFd ++ headEntries ctrlFd).map PollEntry.fd : Multiset Int) ≤ fds := by
  obtain ⟨-, hsig, hctrl, hapart⟩ := h
  unfold headEntries
  -- either of the two may be missing
  by_cases hs : 0 ≤ sigFd <;> by_cases hc : 0 ≤ ctrlFd
  · rw [Multiset.le_iff_subset (by simp [hs, hc, hapart hs])]
    intro fd hfd
    have hcases : fd = sigFd ∨ fd = ctrlFd := by simpa [hs, hc] using hfd
    cases hcases with
    | inl heq => exact Multiset.mem_coe.mpr (heq ▸ hsig hs)
    | inr heq => exact Multiset.mem_coe.mpr (heq ▸ hctrl hc)
  · simpa [hs, hc] using hsig hs
  · simpa [hs, hc] using hctrl hc
  · simp [hs, hc]

/-- Two streams for each slot. -/
theorem outputEntries_length (w : World) : (outputEntries w).length ≤ 2 * w.size := by
  have hslots : ∀ is : List Nat, (is.flatMap (slotEntries w)).length ≤ 2 * is.length := by
    intro is
    induction is with
    | nil => exact Nat.le_refl 0
    | cons i is ih =>
      -- at most two streams for each slot
      have hslot : (slotEntries w i).length ≤ 2 := by
        unfold slotEntries streamEntries
        split
        · split <;> split <;> simp
        · simp
      rw [List.flatMap_cons, List.length_append, List.length_cons]
      omega
  have h := hslots w.slots
  rwa [World.slots, List.length_range] at h

/-- In every reachable state: the poll array is large enough, no descriptor is in it twice, all
    of them are open, and every open read end of an active record has exactly one entry. -/
theorem pollTable_covers (root : CStrBuf) (oracle : Nat → Answer) {fds : List Int}
    {sigFd ctrlFd : Int} (h : Endpoints fds sigFd ctrlFd) (ops : List Op) :
    let w := run exec ops (boot root oracle fds).world
    let t := buildPollTable sigFd ctrlFd w
    t.n ≤ maxPollFds ∧ (t.entries.map PollEntry.fd).Nodup ∧ (∀ e ∈ t.entries, e.fd ∈ w.k.fds) ∧
      ∀ i err, (w.svc i).active = true → 0 ≤ ((w.svc i).stream err).readFd →
        ∃! j, t.IsOutput j ∧ t.entries[j]? =
          some { fd := ((w.svc i).stream err).readFd, service := i, stream := err } := by
  have hbooks := run_accounted root oracle h.nodup ops
  have hreach : Reachable (run exec ops (boot root oracle fds).world) := ⟨_, _, _, ops, rfl⟩
  intro w t
  have hsize : w.size = maxServices := hreach.size
  have hentries : t.entries = headEntries sigFd ++ headEntries ctrlFd ++ outputEntries w := by
    show (buildPollTable sigFd ctrlFd w).entries = _
    rw [buildPollTable_eq]
  -- what is polled is part of what is open
  have hpolled : (t.entries.map PollEntry.fd : Multiset Int) ≤ w.k.fds := by
    rw [hbooks.kernel.fds, hbooks.held, add_comm, hentries, List.map_append, ← Multiset.coe_add]
    exact add_le_add h.heads (outputEntries_fds w)
  refine ⟨?_, ?_, ?_, ?_⟩
  · have hheads : (headEntries sigFd ++ headEntries ctrlFd).length ≤ 2 := by
      unfold headEntries
      split <;> split <;> simp
    have hlen := outputEntries_length w
    show t.entries.length ≤ maxPollFds
    rw [hentries, List.length_append]
    unfold maxPollFds
    omega
  · exact Multiset.coe_nodup.mp (Multiset.nodup_of_le hpolled
      (Multiset.coe_nodup.mpr hbooks.kernel.nodup))
  · intro e he
    have hmem : e.fd ∈ (t.entries.map PollEntry.fd : Multiset Int) :=
      Multiset.mem_coe.mpr (List.mem_map_of_mem he)
    exact Multiset.mem_coe.mp (Multiset.mem_of_le hpolled hmem)
  · intro i err hact hopen
    have hmem : ({ fd := ((w.svc i).stream err).readFd, service := i, stream := err } : PollEntry) ∈
        outputEntries w := by
      apply List.mem_flatMap.mpr
      exact ⟨i, List.mem_range.mpr (hbooks.inTable i hact), mem_slotEntries.mpr
        ⟨hact, rfl, rfl, hopen⟩⟩
    obtain ⟨k, hk⟩ := List.mem_iff_getElem?.mp hmem
    have hout : t.IsOutput (headCount sigFd ctrlFd + k) :=
      (isOutput_iff sigFd ctrlFd w _).mpr (by omega)
    have hget := entries_output sigFd ctrlFd w hout
    rw [Nat.add_sub_cancel_left, hk] at hget
    refine ⟨headCount sigFd ctrlFd + k, ⟨hout, hget⟩, ?_⟩
    rintro j ⟨hjout, hj⟩
    exact output_inj hjout hout hj hget rfl

/-- The table with one running service. -/
theorem pollTable_covers_a :
    let w := run exec [.scanEntry (bytesOf "a"), .start 0 0]
      (boot (CStrBuf.fromBytes (bytesOf "/s")) (opening plainFiles) [0, 1, 2, 3, 4]).world
    let t := buildPollTable 3 4 w
    t.n ≤ maxPollFds ∧ (t.entries.map PollEntry.fd).Nodup ∧ (∀ e ∈ t.entries, e.fd ∈ w.k.fds) ∧
      ∀ i err, (w.svc i).active = true → 0 ≤ ((w.svc i).stream err).readFd →
        ∃! j, t.IsOutput j ∧ t.entries[j]? =
          some { fd := ((w.svc i).stream err).readFd, service := i, stream := err } :=
  have hends : Endpoints [0, 1, 2, 3, 4] 3 4 := ⟨by decide, by decide, by decide, by decide⟩
  pollTable_covers (CStrBuf.fromBytes (bytesOf "/s")) (opening plainFiles) hends
    [.scanEntry (bytesOf "a"), .start 0 0]

end SvcRs
