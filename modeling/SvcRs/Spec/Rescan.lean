import SvcRs.Spec.Dependencies
import SvcRs.Spec.EnvFile
import SvcRs.Spec.ScanEntry

/-!
# Scanning a known directory again

A scan that meets a known directory reads `user`, `group`, `env` and `root` again. It does not
read `depends` and does not look at `log/run`, so the record agrees with a fresh one only if
these two still say what the record says.

## Key results

- `foundService_reads`, `buildService_reads`: the two records in terms of the file system
- `rescan_agrees_iff`: when they agree
- `rescan_keeps_stale`: an edited `depends` file, and a logger that could not be started once
-/

namespace SvcRs

/-! ## Calls go on -/

/-- The oracle is the same, and some of its answers are used up. -/
structure Later (k k' : Kernel) : Prop where
  oracle : k'.oracle = k.oracle
  calls : k.calls ≤ k'.calls

instance : Std.Refl Later := ⟨fun _ => ⟨rfl, Nat.le_refl _⟩⟩

instance : IsTrans Kernel Later := ⟨fun _ _ _ h h' =>
  ⟨h'.oracle.trans h.oracle, Nat.le_trans h.calls h'.calls⟩⟩

/-- No answer of the system is used twice. -/
abbrev Proceeds {α : Type} (m : Sys α) : Prop := StateM.Keeps Later m fun _ => True

theorem call_proceeds : Proceeds call := fun _ _ => ⟨⟨rfl, Nat.le_succ _⟩, trivial⟩

theorem emit_proceeds (e : Event) : Proceeds (emit e) := fun _ _ => ⟨⟨rfl, Nat.le_refl _⟩, trivial⟩

theorem monoNow_proceeds : Proceeds monoNow := fun _ _ => ⟨⟨rfl, Nat.le_succ _⟩, trivial⟩

theorem access_proceeds (path : Bytes) (mode : AccessMode) : Proceeds (access path mode) :=
  call_proceeds.seq fun _ => .pure trivial

theorem readFileToBuf_proceeds (path : Bytes) (n : Nat) : Proceeds (readFileToBuf path n) :=
  call_proceeds.seq fun _ => .pure trivial

theorem openFile_proceeds (path : Bytes) (mode : OpenMode) : Proceeds (openFile path mode) := by
  intro k _
  simp only [openFile, Sys.bind_apply]
  split <;> exact ⟨⟨rfl, Nat.le_succ _⟩, trivial⟩

theorem closeFd_proceeds (fd : Int) : Proceeds (closeFd fd) := by
  intro k _
  unfold closeFd
  split <;> exact ⟨⟨rfl, Nat.le_refl _⟩, trivial⟩

theorem writeAll_proceeds (fd : Int) (data : Bytes) : Proceeds (writeAll fd data) :=
  call_proceeds.seq fun _ => (emit_proceeds _).seq fun _ => .pure trivial

theorem writeStatusFile_proceeds (s : Service) : Proceeds (writeStatusFile s) :=
  (openFile_proceeds _ _).seq fun _ => .ite (fun _ => emit_proceeds _) fun _ =>
    monoNow_proceeds.seq fun _ => (writeAll_proceeds _ _).seq fun _ =>
      (closeFd_proceeds _).seq fun _ => emit_proceeds _

/-- Reading an id, by number or by name. -/
theorem parseIdFile_proceeds {path : Bytes} {resolve : Bytes → Sys (Option UInt32)}
    (h : ∀ name, Proceeds (resolve name)) : Proceeds (parseIdFile path resolve) := by
  apply (readFileToBuf_proceeds path nameBuf).seq
  intro data
  cases data with
  | none => exact .pure trivial
  | some data =>
    cases data with
    | nil => exact .pure trivial
    | cons c rest =>
      dsimp only
      cases parseNumericOrName (c :: rest) with
      | some id => exact .pure trivial
      | none => exact h _

theorem resolveUid_proceeds (name : Bytes) : Proceeds (resolveUid name) := by
  unfold resolveUid
  cases cleanName name with
  | none => exact .pure trivial
  | some clean => exact call_proceeds.seq fun _ => .pure trivial

theorem resolveGid_proceeds (name : Bytes) : Proceeds (resolveGid name) := by
  unfold resolveGid
  cases cleanName name with
  | none => exact .pure trivial
  | some clean => exact call_proceeds.seq fun _ => .pure trivial

theorem parseUserGroup_proceeds (s : Service) : Proceeds (parseUserGroup s) :=
  (parseIdFile_proceeds resolveUid_proceeds).seq fun _ =>
    (parseIdFile_proceeds resolveGid_proceeds).seq fun _ => .pure trivial

theorem readEnv_proceeds (s : Service) : Proceeds (readEnv s) := by
  apply (readFileToBuf_proceeds _ _).seq
  intro data
  rcases data with _ | _ | ⟨c, rest⟩ <;> exact .pure trivial

theorem prepareServiceEnv_proceeds (s : Service) : Proceeds (prepareServiceEnv s) :=
  (readEnv_proceeds s).seq fun _ => (access_proceeds _ _).seq fun _ => .pure trivial

theorem foundService_proceeds (slot : Nat) (s : Service) : Proceeds (foundService slot s) :=
  (emit_proceeds _).seq fun _ => (parseUserGroup_proceeds _).seq prepareServiceEnv_proceeds

theorem newService_proceeds (slot : Nat) (name : Bytes) (dir : CStrBuf) :
    Proceeds (newService slot name dir) := by
  have hbuild : Proceeds (buildService name dir) :=
    (access_proceeds _ _).seq fun _ => (access_proceeds _ _).seq fun _ =>
      (readFileToBuf_proceeds _ _).seq fun _ => (access_proceeds _ _).seq fun _ =>
        (parseUserGroup_proceeds _).seq fun s => (prepareServiceEnv_proceeds s).seq fun s =>
          (writeStatusFile_proceeds s).seq fun _ => .pure trivial
  exact hbuild.seq fun _ => (emit_proceeds _).seq fun _ => .pure trivial

/-- All calls from now on see a file system with this property. -/
def Sees (V : FileSys → Prop) (k : Kernel) : Prop := ∀ n, k.calls ≤ n → V (k.oracle n).fs

/-- What is seen from now on is seen from later on. -/
theorem Sees.later {V : FileSys → Prop} {k k' : Kernel} (h : Sees V k) (hlater : Later k k') :
    Sees V k' := by
  intro n hn
  rw [hlater.oracle]
  exact h n (Nat.le_trans hlater.calls hn)

/-! ## Reading a file system that does not change -/

/-- All calls from now on see the file system `fs`. -/
abbrev SeesOnly (fs : FileSys) : Kernel → Prop := Sees fun fs' => fs' = fs

/-- On such a system the result of `m` satisfies `Q`. -/
def Reads {α : Type} (fs : FileSys) (m : Sys α) (Q : α → Prop) : Prop :=
  ∀ k, SeesOnly fs k → Q (m k).1 ∧ SeesOnly fs (m k).2

section

variable {α β : Type} {fs : FileSys} {m : Sys α} {Q : α → Prop}

/-- One reading after the other. -/
theorem Reads.bind {f : α → Sys β} {P : β → Prop} (h : Reads fs m Q)
    (hf : ∀ a, Q a → Reads fs (f a) P) : Reads fs (m >>= f) P := by
  intro k hk
  obtain ⟨hQ, hk'⟩ := h k hk
  exact hf (m k).1 hQ (m k).2 hk'

/-- Nothing is read. -/
theorem Reads.pure {a : α} (h : Q a) : Reads fs (Pure.pure a) Q := fun _ hk => ⟨h, hk⟩

/-- A call that answers with something about the file system. -/
theorem reads_call {f : Answer → α} {a : α} (hf : ∀ ans, ans.fs = fs → f ans = a) :
    Reads fs (call >>= fun ans => Pure.pure (f ans)) (· = a) :=
  fun k hk => ⟨hf _ (hk k.calls (Nat.le_refl _)), hk.later (call_proceeds.rel k)⟩

/-- A computation that may make any calls. -/
theorem Proceeds.reads (h : Proceeds m) : Reads fs m fun _ => True :=
  fun k hk => ⟨trivial, hk.later (h.rel k)⟩

/-- Whether there is a file. -/
theorem access_reads (path : Bytes) (mode : AccessMode) :
    Reads fs (access path mode) (· = fs.access path mode) := reads_call fun _ h => by rw [h]

/-- The beginning of the file. -/
theorem readFileToBuf_reads (path : Bytes) (n : Nat) :
    Reads fs (readFileToBuf path n) (· = (fs.read path).map (List.take n)) :=
  reads_call fun _ h => by rw [h]

/-- The user database. -/
theorem resolveUid_reads (name : Bytes) :
    Reads fs (resolveUid name) (· = (cleanName name).bind fs.uidOf) := by
  unfold resolveUid
  cases cleanName name with
  | none => exact .pure rfl
  | some clean => exact reads_call fun _ h => by rw [h]; rfl

/-- The group database. -/
theorem resolveGid_reads (name : Bytes) :
    Reads fs (resolveGid name) (· = (cleanName name).bind fs.gidOf) := by
  unfold resolveGid
  cases cleanName name with
  | none => exact .pure rfl
  | some clean => exact reads_call fun _ h => by rw [h]; rfl

/-! ## What a directory says -/

/-- The id in a `user` or `group` file. -/
def idIn (fs : FileSys) (path : Bytes) (lookup : Bytes → Option UInt32) : Option UInt32 :=
  ((fs.read path).map (List.take nameBuf)).bind fun seen =>
    if seen = [] then none
    else (parseNumericOrName seen).or ((cleanName seen).bind lookup)

/-- The dependencies in a `depends` file. -/
def depsIn (fs : FileSys) (dir : Bytes) : List Dependency :=
  (((fs.read (joinPath dir "/depends")).map (List.take depFileBuf)).map parseDeps).getD []

/-- The strings that the environment of the service consists of. -/
noncomputable def envIn (fs : FileSys) (dir : Bytes) : List (Option Bytes) :=
  (storedLines (((fs.read (joinPath dir "/env")).getD []).take envBuf)).map fun line => some (cut line)

/-- User, group, environment and chroot are those of the directory. -/
structure Service.Refreshed (fs : FileSys) (dir : Bytes) (s : Service) : Prop where
  uid : s.uid = (idIn fs (joinPath dir "/user") fs.uidOf).getD 0
  hasUid : s.hasUid = (idIn fs (joinPath dir "/user") fs.uidOf).isSome
  gid : s.gid = (idIn fs (joinPath dir "/group") fs.gidOf).getD 0
  env : s.env.strings = envIn fs dir
  chroot : s.chrootEnabled = fs.access (joinPath dir "/root") .exists

/-- The id that the file denotes. -/
theorem parseIdFile_reads {path : Bytes} {resolve : Bytes → Sys (Option UInt32)}
    {lookup : Bytes → Option UInt32}
    (h : ∀ name, Reads fs (resolve name) (· = (cleanName name).bind lookup)) :
    Reads fs (parseIdFile path resolve) (· = idIn fs path lookup) := by
  unfold parseIdFile
  apply (readFileToBuf_reads path nameBuf).bind
  rintro _ rfl
  unfold idIn
  -- no file, an empty file, a number, or a name to look up
  cases (fs.read path).map (List.take nameBuf) with
  | none => exact .pure rfl
  | some data =>
    cases data with
    | nil => exact .pure rfl
    | cons c rest =>
      rw [Option.bind_some, if_neg (by simp)]
      dsimp only
      cases parseNumericOrName (c :: rest) with
      | some id => exact .pure rfl
      | none => exact h _

/-- The fields that are not read again. -/
def Service.others (s : Service) : Bytes × List Dependency × Bool := (s.dir, s.deps, s.hasLog)

/-- The user and the group of the service. -/
theorem parseUserGroup_reads (s : Service) : Reads fs (parseUserGroup s) fun s' =>
    s'.uid = (idIn fs (joinPath s.dir "/user") fs.uidOf).getD 0 ∧
    s'.hasUid = (idIn fs (joinPath s.dir "/user") fs.uidOf).isSome ∧
    s'.gid = (idIn fs (joinPath s.dir "/group") fs.gidOf).getD 0 ∧
    s'.env = s.env ∧ s'.others = s.others := by
  unfold parseUserGroup
  apply (parseIdFile_reads resolveUid_reads).bind
  rintro _ rfl
  have hgroup : Reads fs (parseIdFile (joinPath s.dir "/group") resolveGid)
      (· = idIn fs (joinPath s.dir "/group") fs.gidOf) := parseIdFile_reads resolveGid_reads
  cases idIn fs (joinPath s.dir "/user") fs.uidOf <;>
  · apply hgroup.bind
    rintro _ rfl
    cases idIn fs (joinPath s.dir "/group") fs.gidOf <;>
      exact .pure ⟨rfl, rfl, rfl, rfl, rfl⟩

/-- The environment of the service. -/
theorem readEnv_reads {s : Service} (h : s.env.Sized) : Reads fs (readEnv s) fun s' =>
    s'.env.strings = envIn fs s.dir ∧ s' = { s with env := s'.env } := by
  intro k hk
  have hfs : (k.oracle k.calls).fs = fs := hk k.calls (Nat.le_refl _)
  obtain ⟨env, pos, hholds, hresult, -⟩ := readEnv_holds h k
  have hstrings := hholds.terminated.2.1
  -- the part of the file that fits into the buffer
  have hseen : seenEnv s k = ((fs.read (joinPath s.dir "/env")).getD []).take envBuf := by
    unfold seenEnv
    rw [hfs]
  rw [hseen] at hstrings
  refine ⟨?_, hk.later ((readEnv_proceeds s).rel k)⟩
  rw [hresult]
  exact ⟨hstrings, rfl⟩

/-- The end of both ways to load a directory. -/
theorem refresh_reads {s : Service} (h : s.env.Sized) :
    Reads fs (parseUserGroup s >>= prepareServiceEnv) fun s' =>
      s'.Refreshed fs s.dir ∧ s'.others = s.others := by
  apply (parseUserGroup_reads s).bind
  rintro s₁ ⟨huid, hhas, hgid, henv, hothers⟩
  -- reading the ids changes neither directory nor environment
  have hdir : s₁.dir = s.dir := congrArg Prod.fst hothers
  have hsized : s₁.env.Sized := henv.symm ▸ h
  apply (readEnv_reads hsized).bind
  rintro s₂ ⟨hstrings, hs₂⟩
  apply (access_reads _ _).bind
  rintro _ rfl
  rw [hs₂]
  refine .pure ⟨⟨huid, hhas, hgid, ?_, ?_⟩, hothers⟩
  · rw [← hdir]
    exact hstrings
  · rw [← hdir]

/-- A rescan. -/
theorem foundService_reads {slot : Nat} {s : Service} (h : s.env.Sized) :
    Reads fs (foundService slot s) fun s' => s'.Refreshed fs s.dir ∧ s'.others = s.others := by
  apply (emit_proceeds (.found slot)).reads.bind
  intro _ _
  exact refresh_reads (s := { s with present := true, stopping := false }) h

/-- The record of `add_service` before it reads user, group and environment. -/
def looked (name : Bytes) (dir : CStrBuf) (down once : Bool) (data : Option Bytes) (log : Bool) :
    Service :=
  let s := ({ Service.empty with active := true, present := true }.setDir dir).setName name
  let s := if down then { s with autoStart := false } else s
  let s := if once then { s with once := true } else s
  let s := match data with
    | some data => { s with deps := parseDeps data }
    | none => s
  if log then { s with hasLog := true } else s

/-- The rest of a new record is still empty. -/
theorem looked_frame (name : Bytes) (dir : CStrBuf) (down once : Bool) (data : Option Bytes)
    (log : Bool) :
    (looked name dir down once data log).env = Service.empty.env ∧
    (looked name dir down once data log).dir = dir.bytes ∧
    (looked name dir down once data log).deps = (data.map parseDeps).getD [] ∧
    (looked name dir down once data log).hasLog = log := by
  unfold looked
  cases down <;> cases once <;> cases data <;> cases log <;> exact ⟨rfl, rfl, rfl, rfl⟩

/-- The rest of `add_service`. -/
def loadRest (s : Service) : Sys Service := do
  let s ← parseUserGroup s
  let s ← prepareServiceEnv s
  writeStatusFile s
  return s

/-- A new record is first looked at and then loaded. -/
theorem buildService_eq (name : Bytes) (dir : CStrBuf) : buildService name dir = (do
    let down ← access (joinPath dir.bytes "/down") .exists
    let once ← access (joinPath dir.bytes "/once") .exists
    let data ← readFileToBuf (joinPath dir.bytes "/depends") depFileBuf
    let log ← access (joinPath dir.bytes "/log/run") .exec
    loadRest (looked name dir down once data log)) := rfl

/-- What is loaded is what the files say. -/
theorem loadRest_reads {s : Service} (h : s.env.Sized) :
    Reads fs (loadRest s) fun s' => s'.Refreshed fs s.dir ∧ s'.others = s.others := by
  intro k hk
  obtain ⟨hloaded, hk'⟩ := refresh_reads h k hk
  exact ⟨hloaded, hk'.later ((writeStatusFile_proceeds _).rel _)⟩

/-- A fresh record. -/
theorem buildService_reads (name : Bytes) (dir : CStrBuf) :
    Reads fs (buildService name dir) fun s => s.Refreshed fs dir.bytes ∧
      s.deps = depsIn fs dir.bytes ∧ s.hasLog = fs.access (joinPath dir.bytes "/log/run") .exec := by
  -- the files are read in the order of the source
  rw [buildService_eq]
  apply (access_reads _ _).bind
  intro down _
  apply (access_reads _ _).bind
  intro once _
  apply (readFileToBuf_reads _ _).bind
  intro data hdata
  apply (access_reads _ _).bind
  intro log hlog
  -- the record that the rest is loaded into
  obtain ⟨henv, hdir, hdeps, hhas⟩ := looked_frame name dir down once data log
  have hsized : (looked name dir down once data log).env.Sized := by
    rw [henv]
    exact ⟨List.length_replicate, List.length_replicate⟩
  intro k hk
  obtain ⟨⟨hfresh, hsame⟩, hk'⟩ := loadRest_reads hsized k hk
  rw [hdir] at hfresh
  have hsdeps := congrArg (fun o => o.2.1) hsame
  have hslog := congrArg (fun o => o.2.2) hsame
  -- the dependencies and the logger are settled before the rest
  refine ⟨⟨hfresh, ?_, ?_⟩, hk'⟩
  · refine hsdeps.trans (hdeps.trans ?_)
    rw [hdata]
    rfl
  · exact hslog.trans (hhas.trans hlog)

end

/-! ## Agreement -/

/-- The configuration in the two records is the same; the environment is compared as the
    strings that the service gets. -/
structure Service.Agrees (s t : Service) : Prop where
  deps : s.deps = t.deps
  hasLog : s.hasLog = t.hasLog
  uid : s.uid = t.uid
  gid : s.gid = t.gid
  hasUid : s.hasUid = t.hasUid
  env : s.env.strings = t.env.strings
  chroot : s.chrootEnabled = t.chrootEnabled

/-- After a scan has met the directory of a known service again, the record agrees with the one
    that `add_service` builds from the same directory if and only if before the scan the record
    had the dependencies that `depends` denotes, and `has_log` said whether `log/run` is
    executable. -/
theorem rescan_agrees_iff {w : World} {name : Bytes} {i : Nat} {fs : FileSys}
    (hfound : FoundAt w name i) (hfs : SeesOnly fs w.k) (hsized : (w.svc i).env.Sized) :
    (∀ k, SeesOnly fs k → ((exec (.scanEntry name) w).svc i).Agrees
      (buildService name (serviceDir w.root name) k).1) ↔
    (w.svc i).deps = depsIn fs (w.svc i).dir ∧
      (w.svc i).hasLog = fs.access (joinPath (w.svc i).dir "/log/run") .exec := by
  obtain ⟨-, -, hdir⟩ := findServiceByDir_some hfound.find
  -- what the scan reads again, and what it leaves alone
  have hafter : ((exec (.scanEntry name) w).svc i).Refreshed fs (w.svc i).dir ∧
      ((exec (.scanEntry name) w).svc i).others = (w.svc i).others := by
    have hrec : (exec (.scanEntry name) w).svc i =
        (foundService i ((probed name w).svc i) (probed name w).k).1 := by
      show (scanEntry name w).2.svc i = _
      rw [scanEntry_found hfound, onSlot_svc, if_pos rfl]
    rw [hrec]
    have hprobed : SeesOnly fs (probed name w).k :=
      (access_reads (joinPath (serviceDir w.root name).bytes "/run") .exec w.k hfs).2
    exact (foundService_reads hsized _ hprobed).1
  obtain ⟨hnow, hsame⟩ := hafter
  have hdeps : ((exec (.scanEntry name) w).svc i).deps = (w.svc i).deps :=
    congrArg (fun o => o.2.1) hsame
  have hlog : ((exec (.scanEntry name) w).svc i).hasLog = (w.svc i).hasLog :=
    congrArg (fun o => o.2.2) hsame
  constructor
  · intro hagrees
    obtain ⟨-, hfdeps, hflog⟩ := (buildService_reads name (serviceDir w.root name) w.k hfs).1
    have h := hagrees w.k hfs
    rw [hdir]
    exact ⟨hdeps.symm.trans (h.deps.trans hfdeps), hlog.symm.trans (h.hasLog.trans hflog)⟩
  · rintro ⟨hdeps', hlog'⟩ k hk
    obtain ⟨hfresh, hfdeps, hflog⟩ := (buildService_reads name (serviceDir w.root name) k hk).1
    rw [← hdir] at hfresh hfdeps hflog
    exact ⟨hdeps.trans (hdeps'.trans hfdeps.symm), hlog.trans (hlog'.trans hflog.symm),
      hnow.uid.trans hfresh.uid.symm, hnow.gid.trans hfresh.gid.symm,
      hnow.hasUid.trans hfresh.hasUid.symm, hnow.env.trans hfresh.env.symm,
      hnow.chroot.trans hfresh.chroot.symm⟩

/-! ## Stale configurations -/

/-- A service `a` with a logger and one dependency. -/
def dependFiles (dep : String) : FileSys where
  access path _ := path = bytesOf "/s/a/run" || path = bytesOf "/s/a/log/run"
  read path := if path = bytesOf "/s/a/depends" then some (bytesOf dep) else none

/-- The service was added. -/
def known : World := exec (.scanEntry (bytesOf "a")) (bootOn (dependFiles "b")).world

/-- The first scan after that changes nothing. -/
theorem rescan_agrees_known : ((exec (.scanEntry (bytesOf "a")) known).svc 0).Agrees
    (buildService (bytesOf "a") (serviceDir known.root (bytesOf "a")) known.k).1 := by
  have hfound : FoundAt known (bytesOf "a") 0 := by decide +kernel
  have hfs : SeesOnly (dependFiles "b") known.k := fun _ _ => rfl
  have hsized : (known.svc 0).env.Sized := ⟨by decide +kernel, by decide +kernel⟩
  have hsame : (known.svc 0).deps = depsIn (dependFiles "b") (known.svc 0).dir ∧
      (known.svc 0).hasLog = (dependFiles "b").access (joinPath (known.svc 0).dir "/log/run") .exec := by
    decide +kernel
  exact (rescan_agrees_iff hfound hfs hsized).mpr hsame known.k hfs

/-- `depends` is edited behind the scan that adds `a`, whose last call is the tenth. -/
def editing : Nat → Answer := fun n => obliging (dependFiles (if n < 11 then "b" else "c")) n

/-- The service before its files are edited. -/
def edited : World :=
  exec (.scanEntry (bytesOf "a")) (boot (CStrBuf.fromBytes (bytesOf "/s")) editing [0, 1, 2]).world

/-- No pipe can be made when `a` is started for the first time. -/
def pipeless : Nat → Answer := fun n =>
  let answer := obliging (dependFiles "?b") n
  { answer with pipe := if n < 18 then none else answer.pipe }

/-- The service after a start that failed. -/
def transient : World :=
  exec (.start 0 0) (exec (.scanEntry (bytesOf "a"))
    (boot (CStrBuf.fromBytes (bytesOf "/s")) pipeless [0, 1, 2]).world)

/-- After the next scan the one record still has the dependency that was edited away, and the
    other still has no logger. -/
theorem rescan_keeps_stale :
    (Reachable edited ∧ FoundAt edited (bytesOf "a") 0 ∧ SeesOnly (dependFiles "c") edited.k ∧
      ¬((exec (.scanEntry (bytesOf "a")) edited).svc 0).Agrees
        (buildService (bytesOf "a") (serviceDir edited.root (bytesOf "a")) edited.k).1) ∧
    Reachable transient ∧ FoundAt transient (bytesOf "a") 0 ∧
      SeesOnly (dependFiles "?b") transient.k ∧
      ¬((exec (.scanEntry (bytesOf "a")) transient).svc 0).Agrees
        (buildService (bytesOf "a") (serviceDir transient.root (bytesOf "a")) transient.k).1 := by
  have hboot : ∀ oracle, Reachable (boot (CStrBuf.fromBytes (bytesOf "/s")) oracle [0, 1, 2]).world :=
    fun oracle => ⟨_, oracle, _, [], rfl⟩
  -- the `depends` of one was edited, the other lost its logger to a failing `pipe`
  refine ⟨⟨(hboot editing).run [.scanEntry (bytesOf "a")], by decide +kernel, ?_, ?_⟩,
    (hboot pipeless).run [.scanEntry (bytesOf "a"), .start 0 0], by decide +kernel, ?_, ?_⟩
  · intro n hn
    -- the first eleven calls of the scan still see the old file
    have hcalls : edited.k.calls = 11 := by decide +kernel
    rw [hcalls] at hn
    show dependFiles (if n < 11 then "b" else "c") = _
    rw [if_neg (Nat.not_lt.mpr hn)]
  -- `deps` is not read again
  · intro hagrees
    have hdeps : ((exec (.scanEntry (bytesOf "a")) edited).svc 0).deps ≠
        (buildService (bytesOf "a") (serviceDir edited.root (bytesOf "a")) edited.k).1.deps := by
      decide +kernel
    exact hdeps hagrees.deps
  · exact fun _ _ => rfl
  -- nor is `has_log` set again
  · intro hagrees
    have hlog : ((exec (.scanEntry (bytesOf "a")) transient).svc 0).hasLog ≠
        (buildService (bytesOf "a") (serviceDir transient.root (bytesOf "a")) transient.k).1.hasLog := by
      decide +kernel
    exact hlog hagrees.hasLog

end SvcRs
