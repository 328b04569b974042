import SvcRs.Spec.Events
import SvcRs.Spec.StopClosure

/-!
# Requests are isolated

A request that is answered with an error has no effect. Any other request changes no record
but the one it names and, for `stop`, those that `stop_transitive_deps` stops, and sends
signals to nobody else.

## Key results

- `respond_error`: what an error reply says about the table and the trace
- `respond_signals`: whom a request sends signals to
- `commands_isolated`: both, and the records that change, for every request and every table
-/

namespace SvcRs

open Transition (run Along)

/-! ## The events of a command -/

section

variable {P : Event → Prop}

/-- The signals of `stop`, `restart` and `down` go to the group of the main process and to the
    logger. -/
theorem stopSignals_allEvents (s : Service) (hmain : 0 < s.pid → P (.kill (-s.pid) sigterm))
    (hlogger : 0 < s.logPid → P (.kill s.logPid sigterm)) :
    AllEvents P (stopSignals s) := by
  have hrest : AllEvents P (if s.logPid > 0 then signalLogger s else pure s) :=
    StateM.Keeps.ite (fun hpid => (emit_allEvents (hlogger hpid)).seq fun _ => .pure trivial)
      fun _ => .pure trivial
  unfold stopSignals
  exact StateM.Keeps.ite (fun hpid => (emit_allEvents (hmain hpid)).seq fun _ => hrest)
    fun _ => hrest

variable (hfile : ∀ e : Event, e.isFile = true → P e)
include hfile

/-- A command to the record that it names. -/
theorem acceptCmd_allEvents (cmd : SvcCmd) (i : Nat) (s : Service) (haccepted : P (.accepted cmd i))
    (hmain : 0 < s.pid → P (.kill (-s.pid) sigterm))
    (hlogger : 0 < s.logPid → P (.kill s.logPid sigterm)) :
    AllEvents P (acceptCmd cmd i s) := by
  have hclock : AllEvents P monoNow := allEvents_silent fun _ => rfl
  have hstatus : ∀ s : Service, AllEvents P (do writeStatusFile s; return s) := fun s =>
    (writeStatusFile_allEvents hfile s).seq fun _ => .pure trivial
  -- the commands change neither pid before they send their signals
  have hsignals : ∀ s' : Service, s'.pid = s.pid → s'.logPid = s.logPid →
      AllEvents P (do let s ← stopSignals s'; writeStatusFile s; return s) := by
    intro s' hpid hlogPid
    apply StateM.Keeps.seq _ hstatus
    apply stopSignals_allEvents
    · rwa [hpid]
    · rwa [hlogPid]
  apply (emit_allEvents haccepted).seq
  intro _
  cases cmd with
  | start => exact .pure trivial
  | stop | restart => exact hsignals _ rfl rfl
  | down =>
    apply (touchFile_allEvents hfile _).seq
    intro _
    exact StateM.Keeps.ite (fun _ => hsignals _ rfl rfl) fun _ => hstatus _
  | up => exact (emit_allEvents (hfile _ rfl)).seq fun _ => hclock.seq fun _ => hstatus _
  | once => exact (touchFile_allEvents hfile _).seq fun _ => hstatus _

/-- One SIGTERM for each service that is told to stop. -/
theorem run_tell_emits (order : List Nat) (w : World)
    (hkill : ∀ i ∈ order, P (.kill (-(w.svc i).pid) sigterm)) :
    Emits P w.k (run tell order w).k := by
  -- by induction on the order in which the services are told
  induction order generalizing w with
  | nil => exact Std.Refl.refl w.k
  | cons i order ih =>
    have hone : AllEvents P (signalStopStatus (w.svc i)) :=
      (emit_allEvents (hkill i List.mem_cons_self)).seq fun _ =>
        (writeStatusFile_allEvents hfile _).seq fun _ => .pure trivial
    -- telling a service leaves every pid as it is
    have hpid : ∀ j, ((tell i w).svc j).pid = (w.svc j).pid := by
      intro j
      rw [tell_svc]
      split
      · next he => rw [he, Service.told]
      · rfl
    refine IsTrans.trans _ _ _ (hone.rel w.k) (ih (tell i w) fun j hj => ?_)
    rw [hpid]
    exact hkill j (List.mem_cons_of_mem i hj)

end

/-! ## The branches of a request -/

/-- Signals, and files that are created or removed. -/
def Event.Acts : Event → Prop
  | .kill .. | .killSelf .. | .opened .. | .unlinked .. => True
  | _ => False

/-- The first active service of this name. -/
structure FirstNamed (w : World) (name : Bytes) (i : Nat) : Prop where
  inTable : i < w.size
  active : (w.svc i).active = true
  named : (w.svc i).name = name
  first : ∀ j < i, (w.svc j).active = true → (w.svc j).name ≠ name

/-- The name that a request gives: `signal` has the number behind it. -/
def givenName (line : Bytes) : Bytes :=
  if parseRequest (splitCmd line).1 = .signal then (splitCmd (splitCmd line).2).1
  else (splitCmd line).2

/-- The services that `stop_transitive_deps` stops. -/
def DependentStopped (w : World) (j : Nat) : Prop :=
  (w.svc j).state = .running ∧ (stopTransitiveDeps w).2.svc j = (w.svc j).told

section

variable {w : World}

/-- The search finds the first slot with the name. -/
theorem findServiceByName_first {name : Bytes} {i : Nat} (h : findServiceByName w name = some i) :
    FirstNamed w name i := by
  obtain ⟨hi, hact, hname⟩ := findServiceByName_some h
  refine ⟨hi, hact, hname, fun j hj hactj hnamej => ?_⟩
  have hskipped := List.find?_range_eq_some.mp h
  simpa [hactj, hnamej] using hskipped.2.2 j hj

/-- An error, or the action on the service with the name. -/
theorem withService_cases (usage : String) (arg : Bytes) (act : Nat → Sup Bytes) (w : World) :
    (∃ msg, withService usage arg act w = (formatError msg, w)) ∨
      ∃ i, findServiceByName w arg = some i ∧ withService usage arg act w = act i w := by
  unfold withService
  split
  · exact .inl ⟨_, rfl⟩
  · rw [Sup.get_bind]
    cases hfind : findServiceByName w arg with
    | none => exact .inl ⟨_, rfl⟩
    | some i => exact .inr ⟨i, rfl, rfl⟩

/-- An error, or one signal to the process group. -/
theorem sendSignal_cases (i : Nat) (sig : Int) (w : World) :
    (∃ msg, sendSignal i sig w = (formatError msg, w)) ∨
      0 < (w.svc i).pid ∧ sendSignal i sig w = (formatOk "signal sent\n",
        { w with k := (kill (-(w.svc i).pid) sig w.k).2 }) := by
  unfold sendSignal
  rw [Sup.get_bind, Sup.ite_apply]
  split
  · exact .inl ⟨_, rfl⟩
  · next hpid => exact .inr ⟨Int.not_le.mp hpid, rfl⟩

/-- An error, or the signal to the service with the name. -/
theorem signalCommand_cases (arg : Bytes) (w : World) :
    (∃ msg, signalCommand arg w = (formatError msg, w)) ∨
      ∃ i signum, findServiceByName w (splitCmd arg).1 = some i ∧
        signalCommand arg w = sendSignal i signum w := by
  unfold signalCommand
  generalize splitCmd arg = r
  obtain ⟨svcName, sigNumPart⟩ := r
  dsimp only
  split
  · exact .inl ⟨_, rfl⟩
  -- the number is parsed before the name is looked up
  · cases parseSignum sigNumPart with
    | none => exact .inl ⟨_, rfl⟩
    | some signum =>
      rcases withService_cases "usage: signal <name> <signum>\n" svcName
        (fun i => sendSignal i signum) w with ⟨msg, he⟩ | ⟨i, hfind, he⟩
      · exact .inl ⟨msg, he⟩
      · exact .inr ⟨i, signum, hfind, he⟩

/-- A request that sends a signal to a service: an error without any effect, or one `kill`. -/
theorem respond_signal {line : Bytes} (h : parseRequest (splitCmd line).1 = .signal ∨
      ∃ sig, parseRequest (splitCmd line).1 = .shortcut sig) (w : World) :
    (∃ msg, respond line w = (formatError msg, w)) ∨
      ∃ i sig, findServiceByName w (givenName line) = some i ∧ 0 < (w.svc i).pid ∧
        respond line w = (formatOk "signal sent\n",
          { w with k := (kill (-(w.svc i).pid) sig w.k).2 }) := by
  unfold respond givenName
  generalize splitCmd line = r at h
  obtain ⟨word, arg⟩ := r
  dsimp only at h ⊢
  -- `signal` looks for the signal number first, the shortcuts have it already
  rcases h with hrequest | ⟨sig, hrequest⟩
  · rw [hrequest, if_pos rfl]
    rcases signalCommand_cases arg w with ⟨msg, he⟩ | ⟨i, signum, hfind, he⟩
    · exact .inl ⟨msg, he⟩
    · rcases sendSignal_cases i signum w with ⟨msg, hs⟩ | ⟨hpid, hs⟩
      · exact .inl ⟨msg, he.trans hs⟩
      · exact .inr ⟨i, signum, hfind, hpid, he.trans hs⟩
  · rw [hrequest, if_neg (by simp)]
    rcases withService_cases "usage: <signal> <name>\n" arg (fun i => sendSignal i sig) w with
      ⟨msg, he⟩ | ⟨i, hfind, he⟩
    · exact .inl ⟨msg, he⟩
    · rcases sendSignal_cases i sig w with ⟨msg, hs⟩ | ⟨hpid, hs⟩
      · exact .inl ⟨msg, he.trans hs⟩
      · exact .inr ⟨i, sig, hfind, hpid, he.trans hs⟩

/-- A request for one of the six commands: an error without any effect, or the command. -/
theorem respond_svcCmd {line : Bytes} {cmd : SvcCmd} (h : parseRequest (splitCmd line).1 = .svc cmd)
    (w : World) :
    (∃ msg, respond line w = (formatError msg, w)) ∨ ∃ i, Accepts w line cmd i := by
  unfold respond
  -- no name given, an unknown name, or a service
  by_cases harg : (splitCmd line).2 = []
  · refine .inl ⟨svcCmdUsage cmd, ?_⟩
    generalize splitCmd line = r at h harg
    obtain ⟨word, arg⟩ := r
    dsimp only at h harg ⊢
    rw [h]
    simp only [svcCommand, withService, if_pos harg]
    rfl
  · cases hfind : findServiceByName w (splitCmd line).2 with
    | some i => exact .inr ⟨i, h, harg, hfind⟩
    | none =>
      refine .inl ⟨"service not found\n", ?_⟩
      generalize splitCmd line = r at h harg hfind
      obtain ⟨word, arg⟩ := r
      dsimp only at h harg hfind ⊢
      rw [h]
      simp only [svcCommand, withService, if_neg harg, Sup.get_bind, hfind]
      rfl

/-- The services that are told to stop are RUNNING before the first sweep. -/
theorem met_running {order : List Nat} (h : Along tell Meets order w) :
    ∀ j ∈ order, (w.svc j).state = .running ∧ 0 < (w.svc j).pid := by
  induction order generalizing w with
  | nil => simp
  | cons i order ih =>
    obtain ⟨hmeets, hrest⟩ := h
    intro j hj
    rcases List.mem_cons.mp hj with rfl | hj
    · exact ⟨hmeets.2.running, hmeets.2.pid⟩
    · have hlater := ih hrest j hj
      rw [tell_svc] at hlater
      split at hlater
      · -- told already
        cases hlater.1
      · exact hlater

/-- The other records before the command: `stop` has looked at the dependents. -/
theorem beforeCmd_svc (cmd : SvcCmd) (w : World) (j : Nat) :
    (beforeCmd cmd w).svc j = w.svc j ∨
      cmd = .stop ∧ DependentStopped w j ∧ (beforeCmd cmd w).svc j = (w.svc j).told := by
  unfold beforeCmd
  split
  -- `stop` sweeps the dependents first
  · next hstop =>
    obtain ⟨order, hrun, halong, -⟩ := stopTransitiveDeps_order w
    have hsvc : (stopTransitiveDeps w).2.svc j = if j ∈ order then (w.svc j).told else w.svc j := by
      rw [hrun, run_tell_svc]
    by_cases hj : j ∈ order
    · rw [if_pos hj] at hsvc
      exact .inr ⟨hstop, ⟨(met_running halong j hj).1, hsvc⟩, hsvc⟩
    · rw [if_neg hj] at hsvc
      exact .inl hsvc
  · exact .inl rfl

/-- What happens before the command is carried out: only `stop` signals others. -/
theorem beforeCmd_emits {P : Event → Prop} (hfile : ∀ e : Event, e.isFile = true → P e) (cmd : SvcCmd)
    (hkill : cmd = .stop → ∀ j, DependentStopped w j → 0 < (w.svc j).pid →
      P (.kill (-(w.svc j).pid) sigterm)) : Emits P w.k (beforeCmd cmd w).k := by
  unfold beforeCmd
  split
  · next hstop =>
    obtain ⟨order, hrun, halong, -⟩ := stopTransitiveDeps_order w
    rw [hrun]
    -- each of them is told once
    apply run_tell_emits hfile
    intro j hj
    obtain ⟨hrunning, hpid⟩ := met_running halong j hj
    have htold : (stopTransitiveDeps w).2.svc j = (w.svc j).told := by
      rw [hrun, run_tell_svc, if_pos hj]
    exact hkill hstop j ⟨hrunning, htold⟩ hpid
  · exact Std.Refl.refl w.k

end

/-! ## Isolation -/

/-- The reply begins with `ERROR:`. -/
def Fails (w : World) (line : Bytes) : Prop := bytesOf "ERROR:" <+: (respond line w).1

/-- Whom a request may send which signal: any to the group of the service it names, SIGTERM to
    the logger of that service, and SIGTERM to the services that `stop_transitive_deps` stops. -/
def MaySignal (w : World) (line : Bytes) (target sig : Int) : Prop :=
  (∃ i, FirstNamed w (givenName line) i ∧ (0 < (w.svc i).pid ∧ target = -(w.svc i).pid ∨
      0 < (w.svc i).logPid ∧ target = (w.svc i).logPid ∧ sig = sigterm)) ∨
    parseRequest (splitCmd line).1 = .svc .stop ∧
      ∃ j, DependentStopped w j ∧ 0 < (w.svc j).pid ∧ target = -(w.svc j).pid ∧ sig = sigterm

/-- Only `reload` signals the supervisor. -/
def Event.Permitted (w : World) (line : Bytes) : Event → Prop
  | .kill target sig => MaySignal w line target sig
  | .killSelf sig => parseRequest (splitCmd line).1 = .reload ∧ sig = sighup
  | _ => True

/-- What a request may do to the table and to processes. -/
structure Isolated (line : Bytes) (w w' : World) : Prop where
  failed : Fails w line → w'.svc = w.svc ∧ Emits (fun e => ¬e.Acts) w.k w'.k
  readers : (∀ cmd, parseRequest (splitCmd line).1 ≠ .svc cmd) → w'.svc = w.svc
  commands : ¬Fails w line → ∀ cmd, parseRequest (splitCmd line).1 = .svc cmd →
    ∃ i, FirstNamed w (givenName line) i ∧ ∀ j, j ≠ i → w'.svc j = w.svc j ∨
      cmd = .stop ∧ DependentStopped w j ∧ w'.svc j = (w.svc j).told
  signals : Emits (Event.Permitted w line) w.k w'.k

section

variable {w : World} {line : Bytes}

/-- What does not act on anybody is permitted. -/
theorem Event.Permitted.of_harmless {e : Event} (h : ¬e.Acts) : e.Permitted w line := by
  cases e with
  | kill | killSelf => exact absurd trivial h
  | _ => trivial

/-- A call about a file is. -/
theorem Event.Permitted.of_file {e : Event} (h : e.isFile = true) : e.Permitted w line := by
  cases e with
  | kill | killSelf => cases h
  | _ => trivial

/-- `OK: ` is not `ERROR:`. -/
theorem formatOk_not_error (msg : String) (rest : Bytes) :
    ¬bytesOf "ERROR:" <+: formatOk msg ++ rest := by
  rintro ⟨t, ht⟩
  cases congrArg List.head? ht

/-- Nothing but the reply. -/
theorem isolated_of_error {msg : String} (h : respond line w = (formatError msg, w)) :
    Isolated line w (handleControlCommand line w).2 := by
  have hrun : (handleControlCommand line w).2 = (liftSys (reply (formatError msg)) w).2 := by
    simp only [handleControlCommand, Sup.bind_apply, h]
  have hreply : Emits (fun e => ¬e.Acts) w.k (handleControlCommand line w).2.k := by
    rw [hrun]
    exact ⟨[_], rfl, by simp [Event.Acts]⟩
  have hsvc : (handleControlCommand line w).2.svc = w.svc := by
    rw [hrun]
    rfl
  have hfails : Fails w line := by
    unfold Fails
    rw [h]
    -- the prefix is shorter than the response buffer
    refine ⟨(bytesOf " " ++ bytesOf msg).take (respBuf - 6), ?_⟩
    show bytesOf "ERROR:" ++ (bytesOf " " ++ bytesOf msg).take (respBuf - 6) =
      (bytesOf "ERROR:" ++ (bytesOf " " ++ bytesOf msg)).take respBuf
    rw [List.take_append]
    rfl
  exact ⟨fun _ => ⟨hsvc, hreply⟩, fun _ => hsvc, fun hok => absurd hfails hok,
    hreply.mono fun _ => .of_harmless⟩

/-- A request that changes no record, signals nobody and opens no file, whatever it replies. -/
theorem isolated_of_harmless (hsvc : (respond line w).2.svc = w.svc)
    (hevents : Emits (fun e => ¬e.Acts) w.k (respond line w).2.k)
    (hother : ∀ cmd, parseRequest (splitCmd line).1 ≠ .svc cmd) :
    Isolated line w (handleControlCommand line w).2 := by
  have hreply : Emits (fun e => ¬e.Acts) w.k (handleControlCommand line w).2.k :=
    IsTrans.trans _ _ _ hevents ⟨[_], rfl, by simp [Event.Acts]⟩
  exact ⟨fun _ => ⟨hsvc, hreply⟩, fun _ => hsvc, fun _ cmd hcmd => absurd hcmd (hother cmd),
    hreply.mono fun _ => .of_harmless⟩

/-- Nothing but system calls with these events. -/
def OnlyCalls (P : Event → Prop) (w w' : World) : Prop := ∃ k, w' = { w with k } ∧ Emits P w.k k

/-- Nothing happens. -/
theorem OnlyCalls.refl (P : Event → Prop) (w : World) : OnlyCalls P w w :=
  ⟨w.k, rfl, Std.Refl.refl w.k⟩

/-- System calls change no record. -/
theorem liftSys_onlyCalls {P : Event → Prop} {α : Type} {m : Sys α} (h : AllEvents P m) (w : World) :
    OnlyCalls P w (liftSys m w).2 := ⟨_, rfl, h.rel w.k⟩

/-- Neither does a command that only makes calls. -/
theorem withService_onlyCalls {P : Event → Prop} {usage : String} {arg : Bytes}
    {act : Nat → Sup Bytes} (h : ∀ i, OnlyCalls P w (act i w).2) :
    OnlyCalls P w (withService usage arg act w).2 := by
  rcases withService_cases usage arg act w with ⟨msg, he⟩ | ⟨i, -, he⟩ <;> rw [he]
  · exact .refl P w
  · exact h i

/-- The requests that only read the table, but for the child of `check`. -/
theorem reader_onlyCalls {P : Event → Prop} (hfork : ∀ pid, P (.fork .check pid))
    (hreaped : ∀ pid status, P (.reaped pid status)) (h : parseRequest (splitCmd line).1 = .list ∨
      parseRequest (splitCmd line).1 = .status ∨ parseRequest (splitCmd line).1 = .check) :
    OnlyCalls P w (respond line w).2 := by
  have hclock : OnlyCalls P w (liftSys monoNow w).2 :=
    liftSys_onlyCalls (allEvents_silent fun _ => rfl) w
  unfold respond
  generalize splitCmd line = r at h
  obtain ⟨word, arg⟩ := r
  dsimp only at h ⊢
  -- they read the clock, or run the check of a service
  rcases h with hrequest | hrequest | hrequest <;> rw [hrequest]
  · exact hclock
  · exact withService_onlyCalls fun _ => hclock
  · exact withService_onlyCalls fun i => liftSys_onlyCalls (runCheck_allEvents hfork hreaped (w.svc i)) w

/-- `reload` is a signal to the supervisor itself. -/
theorem respond_reload (h : parseRequest (splitCmd line).1 = .reload) :
    respond line w = (formatOk "reload scheduled\n", (liftSys raiseHup w).2) := by
  unfold respond
  generalize splitCmd line = r at h
  obtain ⟨word, arg⟩ := r
  dsimp only at h ⊢
  rw [h]
  rfl

/-- Another word changes nothing. -/
theorem respond_unknown (h : parseRequest (splitCmd line).1 = .unknown) :
    respond line w = (formatError unknownCommand, w) := by
  unfold respond
  generalize splitCmd line = r at h
  obtain ⟨word, arg⟩ := r
  dsimp only at h ⊢
  rw [h]
  rfl

/-- The requests that only read. -/
theorem isolated_reader (h : parseRequest (splitCmd line).1 = .list ∨
      parseRequest (splitCmd line).1 = .status ∨ parseRequest (splitCmd line).1 = .check) :
    Isolated line w (handleControlCommand line w).2 := by
  have hother : ∀ cmd, parseRequest (splitCmd line).1 ≠ .svc cmd := by
    intro cmd hcmd
    rw [hcmd] at h
    simp at h
  obtain ⟨k, hk, hevents⟩ : OnlyCalls (fun e => ¬e.Acts) w (respond line w).2 :=
    reader_onlyCalls (fun _ => id) (fun _ _ => id) h
  apply isolated_of_harmless _ _ hother <;> rw [hk]
  exact hevents

/-- A signal to the group of the service that is named. -/
theorem isolated_signal (h : parseRequest (splitCmd line).1 = .signal ∨
      ∃ sig, parseRequest (splitCmd line).1 = .shortcut sig) :
    Isolated line w (handleControlCommand line w).2 := by
  -- either the reply is an error, or one signal is sent and no record changes
  rcases respond_signal h w with ⟨msg, he⟩ | ⟨i, sig, hfind, hpid, he⟩
  · exact isolated_of_error he
  · have hrun : (handleControlCommand line w).2 = (liftSys (reply (formatOk "signal sent\n"))
        { w with k := (kill (-(w.svc i).pid) sig w.k).2 }).2 := by
      simp only [handleControlCommand, Sup.bind_apply, he]
    have hsvc : (handleControlCommand line w).2.svc = w.svc := by
      rw [hrun]
      rfl
    constructor
    · intro hfails
      unfold Fails at hfails
      rw [he] at hfails
      exact absurd hfails (by simpa using formatOk_not_error "signal sent\n" [])
    · exact fun _ => hsvc
    · intro _ cmd hcmd
      rw [hcmd] at h
      simp at h
    · rw [hrun]
      refine ⟨[.reply (formatOk "signal sent\n"), .kill (-(w.svc i).pid) sig], rfl, ?_⟩
      -- the signal goes to the process group of the named service
      have hmay : MaySignal w line (-(w.svc i).pid) sig :=
        .inl ⟨i, findServiceByName_first hfind, .inl ⟨hpid, rfl⟩⟩
      simpa [Event.Permitted] using hmay

/-- `reload`. -/
theorem isolated_reload (h : parseRequest (splitCmd line).1 = .reload) :
    Isolated line w (handleControlCommand line w).2 := by
  have hrespond := respond_reload (w := w) h
  have hrun : (handleControlCommand line w).2 =
      (liftSys (reply (formatOk "reload scheduled\n")) (liftSys raiseHup w).2).2 := by
    simp only [handleControlCommand, Sup.bind_apply, hrespond]
  have hsvc : (handleControlCommand line w).2.svc = w.svc := by
    rw [hrun]
    rfl
  -- the request does not fail, changes no record, is no service command, and signals only itself
  constructor
  · intro hfails
    unfold Fails at hfails
    rw [hrespond] at hfails
    exact absurd hfails (by simpa using formatOk_not_error "reload scheduled\n" [])
  · exact fun _ => hsvc
  · intro _ cmd hcmd
    rw [h] at hcmd
    cases hcmd
  · rw [hrun]
    exact ⟨[.reply (formatOk "reload scheduled\n"), .killSelf sighup], rfl, by
      simp [Event.Permitted, h]⟩

/-- One of the six commands. -/
theorem isolated_svcCmd {cmd : SvcCmd} (h : parseRequest (splitCmd line).1 = .svc cmd) :
    Isolated line w (handleControlCommand line w).2 := by
  rcases respond_svcCmd h w with ⟨msg, he⟩ | ⟨i, hcmd⟩
  · exact isolated_of_error he
  · have hgiven : givenName line = (splitCmd line).2 := by
      unfold givenName
      rw [h, if_neg (by simp)]
    have hfirst : FirstNamed w (givenName line) i := by
      rw [hgiven]
      exact findServiceByName_first hcmd.found
    constructor
    · intro hfails
      unfold Fails at hfails
      rw [request_svc hcmd] at hfails
      exact absurd hfails (by simpa using formatOk_not_error (svcCmdDone cmd) [])
    · exact fun hother => absurd h (hother cmd)
    -- the sweeps of `stop` may tell others, and the command changes no other record
    · intro _ cmd' hcmd'
      obtain rfl : cmd = cmd' := Request.svc.inj (h.symm.trans hcmd')
      refine ⟨i, hfirst, fun j hj => ?_⟩
      have hothers : (handleControlCommand line w).2.svc j = (beforeCmd cmd w).svc j :=
        request_other hcmd hj
      rw [hothers]
      exact beforeCmd_svc cmd w j
    -- the signals of the sweeps, and then those of the command
    · have hbefore := beforeCmd_tells cmd w
      have hpid : ((beforeCmd cmd w).svc i).pid = (w.svc i).pid := hbefore.pid i
      have hlogPid : ((beforeCmd cmd w).svc i).logPid = (w.svc i).logPid := by
        rcases beforeCmd_svc cmd w i with he | ⟨-, -, he⟩ <;> rw [he]
        rfl
      have hdeps : Emits (Event.Permitted w line) w.k (beforeCmd cmd w).k := by
        apply beforeCmd_emits fun _ => .of_file
        rintro rfl j hstopped hpos
        exact .inr ⟨h, j, hstopped, hpos, rfl, rfl⟩
      have haccept : AllEvents (Event.Permitted w line)
          (acceptCmd cmd i ((beforeCmd cmd w).svc i)) := by
        apply acceptCmd_allEvents (fun _ => .of_file) cmd i _ trivial
        · intro hpos
          rw [hpid] at hpos ⊢
          exact .inl ⟨i, hfirst, .inl ⟨hpos, rfl⟩⟩
        · intro hpos
          rw [hlogPid] at hpos ⊢
          exact .inl ⟨i, hfirst, .inr ⟨hpos, rfl, rfl⟩⟩
      have hrun : (handleControlCommand line w).2 = (liftSys (reply (respond line w).1)
          (onSlot i (acceptCmd cmd i) (beforeCmd cmd w)).2).2 := request_exec hcmd
      rw [hrun]
      refine IsTrans.trans _ _ _ hdeps (IsTrans.trans _ _ _ (haccept.rel _) ?_)
      exact ⟨[_], rfl, by simp [Event.Permitted]⟩

end

/-- Control commands are isolated, and atomic on error: for every request line and every table. -/
theorem commands_isolated (line : Bytes) (w : World) :
    Isolated line w (handleControlCommand line w).2 := by
  cases h : parseRequest (splitCmd line).1 with
  | list => exact isolated_reader (.inl h)
  | status => exact isolated_reader (.inr (.inl h))
  | check => exact isolated_reader (.inr (.inr h))
  | svc cmd => exact isolated_svcCmd h
  | reload => exact isolated_reload h
  | shortcut sig => exact isolated_signal (.inr ⟨sig, h⟩)
  | signal => exact isolated_signal (.inl h)
  | unknown => exact isolated_of_error (respond_unknown h)

end SvcRs
