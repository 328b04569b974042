import SvcRs.Native.Main

/-!
# The poll array

The part of the loop in `main.rs` around `poll`: the array of descriptors with its two maps,
and the loop over the entries that `poll` reports. `PollResult` in `Native/Main` is the same
report with the entries already told apart; `Spec/Polling.lean` derives it from this loop.
-/

namespace SvcRs

/-- `MAX_POLL_FDS`. -/
def maxPollFds : Nat := maxServices * 2 + 2

/-- `pfds[j].fd`, `map_service[j]` and `map_stream[j]`. All entries ask for `POLLIN`. -/
structure PollEntry where
  fd : Int
  service : Nat := 0
  stream : Bool := false
  deriving DecidableEq, Repr

/-- The first `n` entries; `sig_idx` and `ctrl_idx` are `none` for `usize::MAX`. -/
structure PollTable where
  entries : List PollEntry := []
  sigIdx : Option Nat := none
  ctrlIdx : Option Nat := none

namespace PollTable

/-- `n`. -/
def n (t : PollTable) : Nat := t.entries.length

/-- The next entry of `pfds`. -/
def add (t : PollTable) (e : PollEntry) : PollTable := { t with entries := t.entries ++ [e] }

/-- The self-pipe, if there is one. -/
def addSignals (t : PollTable) (sigFd : Int) : PollTable :=
  if sigFd ≥ 0 then { t.add { fd := sigFd } with sigIdx := some t.n } else t

/-- The control socket, if there is one. -/
def addControl (t : PollTable) (ctrlFd : Int) : PollTable :=
  if ctrlFd ≥ 0 then { t.add { fd := ctrlFd } with ctrlIdx := some t.n } else t

/-- One stream of the service in slot `i`. -/
def addStream (t : PollTable) (i : Nat) (s : Service) (err : Bool) : PollTable :=
  if (s.stream err).readFd ≥ 0 then
    t.add { fd := (s.stream err).readFd, service := i, stream := err }
  else t

/-- The body of the loop over the slots. -/
def addSlot (w : World) (t : PollTable) (i : Nat) : PollTable :=
  if (w.svc i).active then (t.addStream i (w.svc i) false).addStream i (w.svc i) true else t

end PollTable

/-- The array that one turn of the loop hands to `poll`. -/
def buildPollTable (sigFd ctrlFd : Int) (w : World) : PollTable :=
  w.slots.foldl (PollTable.addSlot w)
    ((({} : PollTable).addSignals sigFd).addControl ctrlFd)

/-! ## After poll -/

/-- `POLLIN | POLLHUP | POLLERR`. -/
def pollMask : UInt16 := 1 ||| 16 ||| 8

/-- What `poll` wrote into `revents`, and what the calls after it return: the sizes of the reads
    from the self-pipe, what `accept` and `read` get from a client (if anything), and for each
    entry the results of the reads from its descriptor. -/
structure PollReport where
  revents : Nat → UInt16 := fun _ => 0
  signalReads : List Nat := []
  request : Option Bytes := none
  reads : Nat → List ReadResult := fun _ => []

/-- `revents` has `POLLIN`, `POLLHUP` or `POLLERR`. -/
def PollReport.ready (r : PollReport) (j : Nat) : Bool := r.revents j &&& pollMask ≠ 0

/-- The body of the loop over the entries, for an entry that is ready. -/
def pollBranch (t : PollTable) (r : PollReport) (j : Nat) (m : MainState) : MainState :=
  if t.sigIdx = some j then dispatchSignals (some r.signalReads) m
  else if t.ctrlIdx = some j then { m with world := (dispatchControl r.request m.world).2 }
  else
    match t.entries[j]? with
    | none => m
    | some e =>
      { m with world := (onSlot e.service (drainStream e.stream (r.reads j)) m.world).2 }

/-- `for j in 0..n`, from the entries `js` on; it breaks when a shutdown is asked for. -/
def pollLoop (t : PollTable) (r : PollReport) : (js : List Nat) → MainState → MainState
  | [], m => m
  | j :: js, m =>
    let m := if r.ready j then pollBranch t r j m else m
    if m.shutdown then m else pollLoop t r js m

/-- The environment's part in one turn; `report` is `none` if `poll` fails, be it with `EINTR`
    or after the pause that follows any other error. -/
structure LoopTurn where
  exits : List (Int × Int) := []
  listing : Option (List Bytes) := none
  elapsed : Nat := 0
  arrivals : Bytes := []
  report : Option PollReport := none

/-- One turn of the main loop, with the poll array. -/
def mainTurn (sigFd ctrlFd : Int) (p : LoopTurn) (m : MainState) : MainState :=
  let m := loopTop { exits := p.exits, listing := p.listing } m
  let t := buildPollTable sigFd ctrlFd m.world
  let m := { m with world := pollWait p.elapsed p.arrivals m.world }
  match p.report with
  | none => m
  | some r => pollLoop t r (List.range t.n) m

/-- `loop` in `main`, until it breaks or the turns run out. -/
def pollingLoop (sigFd ctrlFd : Int) : List LoopTurn → MainState → MainState
  | [], m => m
  | p :: ps, m =>
    let m := mainTurn sigFd ctrlFd p m
    if m.shutdown then m else pollingLoop sigFd ctrlFd ps m

end SvcRs
