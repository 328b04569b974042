import SvcRs.Native.Service

/-!
# Scanning the service directory

`scan.rs`. A listing is the sequence of names that `readdir` returned.
-/

namespace SvcRs

/-! ## The depends file -/

/-- One line of `depends` without the blanks around it; only spaces are skipped in front. -/
def cleanDepLine (line : Bytes) : Bytes := trimEnd isBlank (line.dropWhile (· = 32))

/-- A token of the depends file: a question mark makes the dependency soft. -/
def parseDep (clean : Bytes) : Dependency :=
  match clean with
  | 63 :: name => { name := name.take (nameBuf - 1), soft := true }
  | name => { name := name.take (nameBuf - 1), soft := false }

/-- The line loop of the depends parser. Every line consumes at least one byte, so
    `data.length` is enough fuel. -/
def parseDepsLoop : (fuel : Nat) → (data : Bytes) → List Dependency → List Dependency
  | 0, _, deps => deps
  | fuel + 1, data, deps =>
    if data.length = 0 ∨ deps.length ≥ maxDependencies then deps
    else
      let line := data.takeWhile fun c => !isNewline c
      let clean := cleanDepLine line
      let deps := if clean.length = 0 then deps else deps ++ [parseDep clean]
      parseDepsLoop fuel ((data.drop (line.length + 1)).dropWhile isNewline) deps

/-- `parse_deps`, on what was read of the file. -/
def parseDeps (data : Bytes) : List Dependency := parseDepsLoop data.length data []

/-! ## Adding and finding services -/

/-- The record that `add_service` builds in a free slot. -/
def buildService (name : Bytes) (dir : CStrBuf) : Sys Service := do
  let s := ({ Service.empty with active := true, present := true }.setDir dir).setName name
  let s := if ← access (joinPath dir.bytes "/down") .exists then { s with autoStart := false } else s
  let s := if ← access (joinPath dir.bytes "/once") .exists then { s with once := true } else s
  let s := match ← readFileToBuf (joinPath dir.bytes "/depends") depFileBuf with
    | some data => { s with deps := parseDeps data }
    | none => s
  let s := if ← access (joinPath dir.bytes "/log/run") .exec then { s with hasLog := true } else s
  let s ← parseUserGroup s
  let s ← prepareServiceEnv s
  writeStatusFile s
  return s

/-- The effect of `add_service` on the free slot. -/
def newService (slot : Nat) (name : Bytes) (dir : CStrBuf) : Sys Service := do
  let s ← buildService name dir
  emit (.added slot)
  return s

/-- `add_service` takes the first inactive slot, and drops the service if there is none. -/
def addService (name : Bytes) (dir : CStrBuf) : Sup Unit := do
  let w ← get
  match w.findSlot fun s => !s.active with
  -- all slots are taken
  | none => return ()
  | some i => onSlot i fun _ => newService i name dir

/-- What a scan does with a record whose directory it meets again. -/
def foundService (slot : Nat) (s : Service) : Sys Service := do
  emit (.found slot)
  -- the user, the group and the environment are read again, and nothing else
  let s ← parseUserGroup { s with present := true, stopping := false }
  prepareServiceEnv s

/-- The path of a service directory. -/
def serviceDir (root : CStrBuf) (name : Bytes) : CStrBuf :=
  ((CStrBuf.fromBytes root.bytes).lit "/").push name

/-- One entry of the listing. -/
def scanEntry (name : Bytes) : Sup Unit := do
  if name = [] || name = bytesOf "." || name = bytesOf ".." then return ()
  let w ← get
  let dir := serviceDir w.root name
  if ← liftSys (access (joinPath dir.bytes "/run") .exec) then
    match findServiceByDir w dir with
    | some i => onSlot i (foundService i)
    | none => addService name dir

/-- The `readdir` loop. -/
def scanEntries : List Bytes → Sup Unit
  | [] => return ()
  | name :: names => do
    scanEntry name
    scanEntries names

/-- `s.present = false` for an active record. -/
def unmarkPresent (i : Nat) : Sup Unit := do
  let w ← get
  if (w.svc i).active then onSlot i fun s => return { s with present := false }

/-- `scan_services` once `opendir` has succeeded. -/
def scanServices (listing : List Bytes) : Sup Unit := do
  let w ← get
  forSlots unmarkPresent w.slots
  scanEntries listing

/-! ## Removal -/

/-- The first half of the loop body of `handle_missing_services`. -/
def stopMissing (i : Nat) : Sup Unit := do
  let w ← get
  -- the dependents are looked for while the service still counts as running
  if (w.svc i).pid > 0 && !(w.svc i).stopping then
    stopTransitiveDeps
    onSlot i signalStop

/-- The slot is given up. -/
def releaseSlot (slot : Nat) (s : Service) : Sys Service := do
  let s ← closeServiceFds s
  let s := { s with active := false, state := .down }
  writeStatusFile s
  emit (.removed slot)
  return s

/-- The second half: the logger, and the slot itself once both processes are gone. -/
def releaseMissing (slot : Nat) (s : Service) : Sys Service := do
  let s ← if s.logPid > 0 && !s.logStopping then signalLogger s else pure s
  -- otherwise the next scan comes back to it
  if s.pid ≤ 0 && s.logPid ≤ 0 then releaseSlot slot s else return s

/-- The body of the loop in `handle_missing_services`. -/
def missingSlot (i : Nat) : Sup Unit := do
  let w ← get
  if (w.svc i).active && !(w.svc i).present then
    stopMissing i
    onSlot i (releaseMissing i)

/-- `handle_missing_services`: what the scan has not met is stopped and released. -/
def handleMissingServices : Sup Unit := do
  let w ← get
  forSlots missingSlot w.slots

end SvcRs
