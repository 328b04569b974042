import SvcRs.Native.Child
import SvcRs.Spec.Dependencies
import SvcRs.Spec.LogFiles
import SvcRs.Spec.ScanEntry
import SvcRs.Spec.StatusFile

/-!
# Paths in a service directory

All paths of a service are put together in a `CStrBuf` from its directory, which was itself put
together in one from the root and the name of the entry. Each is the full path cut at
`PATH_BUF - 1` bytes.

## Key results

- `DerivedPath.path_eq`: what is left of a path
- `scanEntry_dir`: the directory in the record of an entry that was accepted
- `derived_paths_exact_iff`: when nothing is cut off
-/

namespace SvcRs

/-- The paths that the supervisor and its children use in the directory of a service. -/
inductive DerivedPath where
  | run | down | once | depends | user | group | env | root | logRun | finish | check | status | nice
  | rlimit (r : Rlimit)
  | logDir
  | log (err : Bool)
  | rotated (err : Bool)
  | archive (err : Bool) (ts : UInt64) (rotations : UInt32)

namespace DerivedPath

/-- The path as it reaches the system. -/
def path (s : Service) : DerivedPath → Bytes
  | run => joinPath s.dir "/run"
  | down => joinPath s.dir "/down"
  | once => joinPath s.dir "/once"
  | depends => joinPath s.dir "/depends"
  | user => joinPath s.dir "/user"
  | group => joinPath s.dir "/group"
  | env => joinPath s.dir "/env"
  | root => joinPath s.dir "/root"
  | logRun => joinPath s.dir "/log/run"
  | finish => joinPath s.dir "/finish"
  | check => joinPath s.dir "/check"
  | status => joinPath s.dir "/status"
  | nice => joinPath s.dir "/nice"
  | rlimit r => joinPath s.dir (rlimitFile r)
  -- the two levels of the log: its directory, the file in it
  | logDir => joinPath s.dir "/log"
  | log err => logPath s err
  -- `rotate_log` names the file in the service directory, without `/log`
  | rotated err => renamedPath s err
  | archive err ts rotations => archivePath s err ts.toNat rotations

/-- What stands behind the directory. -/
def suffix : DerivedPath → Bytes
  | run => bytesOf "/run"
  | down => bytesOf "/down"
  | once => bytesOf "/once"
  | depends => bytesOf "/depends"
  | user => bytesOf "/user"
  | group => bytesOf "/group"
  | env => bytesOf "/env"
  | root => bytesOf "/root"
  | logRun => bytesOf "/log/run"
  | finish => bytesOf "/finish"
  | check => bytesOf "/check"
  | status => bytesOf "/status"
  | nice => bytesOf "/nice"
  | rlimit r => bytesOf (rlimitFile r)
  | logDir => bytesOf "/log"
  | log err => bytesOf "/log" ++ bytesOf (streamSuffix err)
  | rotated err => bytesOf (streamSuffix err)
  | archive err ts rotations => bytesOf (streamSuffix err) ++ [46] ++ Decimal.ofNat ts.toNat ++ [46] ++
      Decimal.ofNat rotations.toNat

/-- The end of a path that is `dir` and one literal. -/
theorem joinPath_cut {dir : Bytes} {suffix : String} (hdir : 0 ∉ dir) (hsuffix : 0 ∉ bytesOf suffix) :
    joinPath dir suffix = (dir ++ bytesOf suffix).take (pathBuf - 1) := by
  rw [joinPath_eq, withoutNul_eq_self hdir, withoutNul_eq_self hsuffix]

/-- There is no NUL in a suffix. -/
theorem suffix_noNul (p : DerivedPath) : 0 ∉ p.suffix := by
  have hlog : ∀ err, 0 ∉ bytesOf (streamSuffix err) := by decide +kernel
  cases p with
  | rlimit r => cases r <;> decide +kernel
  | log err =>
    intro h
    cases List.mem_append.mp h with
    | inl h => exact absurd h (by decide +kernel)
    | inr h => exact hlog err h
  | rotated err => exact hlog err
  | archive err ts rotations =>
    -- digits and dots are no NUL
    simp only [suffix, List.mem_append, List.mem_singleton, not_or]
    exact ⟨⟨⟨⟨hlog err, by decide⟩, Decimal.zero_not_mem_ofNat _⟩, by decide⟩,
      Decimal.zero_not_mem_ofNat _⟩
  | _ => decide +kernel

/-- Every path is the full path, cut at the end. -/
theorem path_eq (p : DerivedPath) {s : Service} (hdir : 0 ∉ s.dir) :
    p.path s = (s.dir ++ p.suffix).take (pathBuf - 1) := by
  have hsuffix := p.suffix_noNul
  cases p with
  | log err =>
    have hlog : 0 ∉ bytesOf "/log" := fun h => hsuffix (List.mem_append_left _ h)
    have hcurrent : 0 ∉ bytesOf (streamSuffix err) := fun h => hsuffix (List.mem_append_right _ h)
    have hlogDir : 0 ∉ joinPath s.dir "/log" := by
      rw [joinPath_cut hdir hlog]
      intro h
      cases List.mem_append.mp (List.mem_of_mem_take h) with
      | inl h => exact hdir h
      | inr h => exact hlog h
    -- the directory `log` has been cut before
    show joinPath (joinPath s.dir "/log") (streamSuffix err) = _
    rw [joinPath_cut hlogDir hcurrent, joinPath_cut hdir hlog, List.take_take_append,
      List.append_assoc]
    rfl
  | archive err ts rotations =>
    have hts : ts.toNat < 10 ^ 20 := by
      have hlt := ts.toNat_lt
      omega
    have hrotations : rotations.toNat < 10 ^ 20 := by
      have hlt := rotations.toNat_lt
      omega
    have hholds := ((((CStrBuf.Holds.new.push s.dir).push (bytesOf (streamSuffix err))).pushByte 46
      |>.pushU64 hts).pushByte 46).pushU64 hrotations
    have hfull : withoutNul (s.dir ++ (archive err ts rotations).suffix) =
        s.dir ++ (archive err ts rotations).suffix := by
      apply withoutNul_eq_self
      intro h
      cases List.mem_append.mp h with
      | inl h => exact hdir h
      | inr h => exact hsuffix h
    have hbytes : archivePath s err ts.toNat rotations =
        (withoutNul ([] ++ s.dir ++ bytesOf (streamSuffix err) ++ [46] ++ Decimal.ofNat ts.toNat ++
          [46] ++ Decimal.ofNat rotations.toNat)).take (pathBuf - 1) := hholds
    show archivePath s err ts.toNat rotations = _
    rw [hbytes, ← hfull]
    simp only [suffix, List.nil_append, List.append_assoc]
  | _ => exact joinPath_cut hdir hsuffix

end DerivedPath

/-! ## The directory -/

section

variable {w : World} {name : Bytes} {i : Nat}

/-- The directory itself is cut as well. -/
theorem serviceDir_bytes (root : CStrBuf) (hname : 0 ∉ name) :
    (serviceDir root name).bytes = (root.bytes ++ bytesOf "/" ++ name).take (pathBuf - 1) := by
  -- nothing is dropped but what does not fit
  have hslash : withoutNul (bytesOf "/") = bytesOf "/" := by decide
  have hholds := ((CStrBuf.Holds.new.push root.bytes).lit "/").push name
  have hbytes : (serviceDir root name).bytes =
      (withoutNul ([] ++ root.bytes ++ bytesOf "/" ++ name)).take (pathBuf - 1) := hholds
  rw [hbytes, withoutNul_eq_self]
  · rfl
  · intro h
    simp only [List.nil_append, List.mem_append] at h
    rcases h with (h | h) | h
    · exact root.noNul h
    · exact absurd h (by decide)
    · exact hname h

/-- The scan accepts the entry: it becomes the service in slot `i`, or is that already. -/
def AcceptedAt (w : World) (name : Bytes) (i : Nat) : Prop := FoundAt w name i ∨ AddsAt w name i

instance : Decidable (AcceptedAt w name i) := inferInstanceAs (Decidable (_ ∨ _))

/-- The directory of a new record is the path of its entry. -/
theorem scanEntry_dir (h : AcceptedAt w name i) :
    ((scanEntry name w).2.svc i).dir = (serviceDir w.root name).bytes := by
  cases h with
  | inl h =>
    have hcore := foundService_core i ((probed name w).svc i) (probed name w).k
    have hfound := (findServiceByDir_some h.find).2.2
    rw [scanEntry_found h, onSlot_svc, if_pos rfl]
    exact (congrArg Core.dir hcore).trans hfound
  | inr h =>
    rw [scanEntry_adds h, onSlot_svc, if_pos rfl]
    exact (buildService_built name (serviceDir w.root name) (probed name w).k).dir

/-- A path is the directory of the entry with the full suffix if and only if both fit in the
    buffer. -/
theorem derived_paths_exact_iff (hname : 0 ∉ name) (haccepted : AcceptedAt w name i)
    (p : DerivedPath) :
    p.path ((scanEntry name w).2.svc i) = w.root.bytes ++ bytesOf "/" ++ name ++ p.suffix ↔
      (w.root.bytes ++ bytesOf "/" ++ name ++ p.suffix).length ≤ pathBuf - 1 := by
  have hdir := scanEntry_dir haccepted
  have hnul : 0 ∉ ((scanEntry name w).2.svc i).dir := by
    rw [hdir]
    exact (serviceDir w.root name).noNul
  rw [p.path_eq hnul, hdir, serviceDir_bytes w.root hname, List.take_take_append]
  -- cut or not, the path is as long as its buffer allows
  constructor
  · intro hexact
    rw [← hexact]
    exact List.length_take_le _ _
  · exact List.take_of_length_le

/-- A new service gets a status file. -/
theorem scanEntry_writes_status (h : AddsAt w name i) : ∃ text,
    Event.status (joinPath (serviceDir w.root name).bytes "/status") text ∈
      (scanEntry name w).2.k.trace := by
  obtain ⟨-, hdir, outcome, hlast, -⟩ :=
    newService_reports i name (serviceDir w.root name) (probed name w).k trivial
  obtain ⟨e, he, hreport⟩ := List.exists_of_findSome?_eq_some hlast
  rw [statusPath, hdir] at hreport
  rw [scanEntry_adds h]
  -- the last report of the scan is the one of the new service
  cases e with
  | status path text =>
    have hpath : path = joinPath (serviceDir w.root name).bytes "/status" := by
      by_contra hne
      simp [Event.reportOn, hne] at hreport
    exact ⟨text, hpath ▸ he⟩
  | _ => cases hreport

end

/-! ## Near the limit -/

/-- A root of 800 bytes, two hundred directories deep. -/
def deepRoot : Bytes := (List.replicate 100 (bytesOf "/nest/ed")).flatten

/-- The path of this entry has 1018 bytes. -/
def deepName : Bytes := List.replicate 217 110

/-- The supervisor on this directory, where `access` finds everything it asks for. -/
def deepBoot : World :=
  (boot (CStrBuf.fromBytes deepRoot) (opening { access := fun _ _ => true }) [0, 1, 2]).world

/-- It is a C string. -/
theorem deepRoot_noNul : 0 ∉ deepRoot := by
  intro h
  obtain ⟨dir, hdir, hmem⟩ := List.mem_flatten.mp h
  rw [List.eq_of_mem_replicate hdir] at hmem
  exact absurd hmem (by decide)

/-- Its length. -/
theorem deepRoot_length : deepRoot.length = 800 := by
  unfold deepRoot
  rw [List.length_flatten, List.map_replicate, List.sum_replicate_nat]
  rfl

/-- The supervisor is given the whole root. -/
theorem deepBoot_root : deepBoot.root.bytes = deepRoot := by
  have hkeep := withoutNul_eq_self deepRoot_noNul
  have hlen := deepRoot_length
  show (CStrBuf.fromBytes deepRoot).bytes = deepRoot
  unfold CStrBuf.fromBytes
  rw [CStrBuf.push_bytes, hkeep]
  have hfits : deepRoot.length ≤ pathBuf - 1 := by
    rw [hlen]
    decide
  exact List.take_of_length_le hfits

/-- Every entry gets slot 0. -/
theorem deepBoot_adds (name : Bytes) (hname : name ≠ [] ∧ name ≠ bytesOf "." ∧ name ≠ bytesOf "..") :
    AddsAt deepBoot name 0 := by
  have hactive : ∀ i, (deepBoot.svc i).active = false := fun _ => rfl
  have hnone : findServiceByDir deepBoot (serviceDir deepBoot.root name) = none := by
    unfold findServiceByDir World.findSlot
    exact List.find?_eq_none.mpr fun i _ => by simp [hactive]
  exact ⟨⟨hname.1, hname.2.1, hname.2.2, rfl⟩, hnone, by decide +kernel⟩

/-- The status file of a service with a short name is in its directory. -/
theorem derived_paths_exact_short :
    DerivedPath.status.path ((scanEntry (bytesOf "n") deepBoot).2.svc 0) =
      deepRoot ++ bytesOf "/n/status" := by
  have hadds := deepBoot_adds (bytesOf "n") (by decide)
  have hroot := deepBoot_root
  have hlen := deepRoot_length
  have hname : deepRoot ++ bytesOf "/" ++ bytesOf "n" ++ DerivedPath.status.suffix =
      deepRoot ++ bytesOf "/n/status" := by
    rw [List.append_assoc, List.append_assoc]
    rfl
  have hfits : (deepRoot ++ bytesOf "/n/status").length ≤ pathBuf - 1 := by
    rw [List.length_append, hlen]
    decide
  have hexact := (derived_paths_exact_iff (by decide) (.inr hadds) .status).mpr
  rw [hroot, hname] at hexact
  exact hexact hfits

/-- The path of `run` fits and the entry is accepted, but the status is written to `stat`. -/
theorem derived_path_cut :
    (0 ∉ deepName ∧ AcceptedAt deepBoot deepName 0 ∧ deepBoot.root.bytes = deepRoot ∧
      DerivedPath.run.path ((scanEntry deepName deepBoot).2.svc 0) =
        deepRoot ++ bytesOf "/" ++ deepName ++ DerivedPath.run.suffix) ∧
    DerivedPath.status.path ((scanEntry deepName deepBoot).2.svc 0) =
      deepRoot ++ bytesOf "/" ++ deepName ++ bytesOf "/stat" ∧
    DerivedPath.status.path ((scanEntry deepName deepBoot).2.svc 0) ≠
      deepRoot ++ bytesOf "/" ++ deepName ++ DerivedPath.status.suffix ∧
    ∃ text, Event.status (deepRoot ++ bytesOf "/" ++ deepName ++ bytesOf "/stat") text ∈
      (scanEntry deepName deepBoot).2.k.trace := by
  have hnul : 0 ∉ deepName := fun h => absurd (List.eq_of_mem_replicate h) (by decide)
  have hadds := deepBoot_adds deepName ⟨nofun, nofun, nofun⟩
  have hroot := deepBoot_root
  have hdirlen : (deepRoot ++ bytesOf "/" ++ deepName).length = 1018 := by
    rw [List.length_append, List.length_append, deepRoot_length]
    unfold deepName
    rw [List.length_replicate]
    rfl
  have hdir := scanEntry_dir (.inr hadds)
  have hbytes := serviceDir_bytes deepBoot.root hnul
  have hdirnul : 0 ∉ ((scanEntry deepName deepBoot).2.svc 0).dir := by
    rw [hdir]
    exact (serviceDir deepBoot.root deepName).noNul
  -- five of the seven bytes of the suffix are left
  have hcut : ∀ p : DerivedPath, p.path ((scanEntry deepName deepBoot).2.svc 0) =
      deepRoot ++ bytesOf "/" ++ deepName ++ p.suffix.take 5 := by
    intro p
    rw [p.path_eq hdirnul, hdir, hbytes, hroot, List.take_take_append, List.take_append, hdirlen,
      List.take_of_length_le (by rw [hdirlen]; decide)]
    rfl
  obtain ⟨text, htext⟩ := scanEntry_writes_status hadds
  have hstatus : joinPath (serviceDir deepBoot.root deepName).bytes "/status" =
      deepRoot ++ bytesOf "/" ++ deepName ++ bytesOf "/stat" := by
    have hpath := hcut .status
    rw [DerivedPath.path, hdir] at hpath
    exact hpath
  refine ⟨⟨hnul, .inr hadds, hroot, hcut .run⟩, hcut .status, fun he => ?_, text, hstatus ▸ htext⟩
  have hsuffix := List.append_cancel_left ((hcut .status).symm.trans he)
  exact absurd hsuffix (by decide)

end SvcRs
