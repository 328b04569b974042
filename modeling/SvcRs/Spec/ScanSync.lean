import SvcRs.ForStd.SlotTable
import SvcRs.Spec.Addressing
import SvcRs.Spec.PathBuilder
import SvcRs.Spec.Rescan

/-!
# A scan synchronises the table with the directory

For the directories of the active services, a scan is a sequence of insertions into a table
of slots. The records that were there keep everything that does not come from the directory.

## Key results

- `scanEntry_synced`, `scanEntries_synced`: one entry, and a listing
- `scan_synchronises`: the table after a scan, after a second one, and after a scan of the
  listing in another order
-/

namespace SvcRs

/-! ## What a listing asks for -/

/-- An entry that the scan looks into. -/
def IsEntry (name : Bytes) : Prop := name ≠ [] ∧ name ≠ bytesOf "." ∧ name ≠ bytesOf ".."

instance (name : Bytes) : Decidable (IsEntry name) := inferInstanceAs (Decidable (_ ∧ _ ∧ _))

/-- An entry with an executable `run`, where `exe` says which have one. -/
def Target (exe : Bytes → Bool) (name : Bytes) : Prop := IsEntry name ∧ exe name = true

instance (exe : Bytes → Bool) (name : Bytes) : Decidable (Target exe name) :=
  inferInstanceAs (Decidable (_ ∧ _))

/-- The path of an entry. -/
def entryDir (root : CStrBuf) (name : Bytes) : Bytes := root.bytes ++ bytesOf "/" ++ name

/-- The path of `run` fits in a `CStrBuf`. -/
structure Fits (root : CStrBuf) (name : Bytes) : Prop where
  noNul : 0 ∉ name
  fits : (entryDir root name ++ bytesOf "/run").length ≤ pathBuf - 1

/-- In all the calls from `w` to `w'`, the entries with an executable `run` are those that `exe`
    names. -/
def RunsAre (exe : Bytes → Bool) (names : List Bytes) (w w' : World) : Prop :=
  ∀ n, w.k.calls ≤ n → n < w'.k.calls → ∀ name ∈ names,
    (w.k.oracle n).fs.access (entryDir w.root name ++ bytesOf "/run") .exec = exe name

/-- The directories that `scan_services` takes these entries to be. -/
def targetDirs (exe : Bytes → Bool) (root : CStrBuf) (names : List Bytes) : List Bytes :=
  (names.filter fun name => decide (Target exe name)).map fun name => (serviceDir root name).bytes

/-- The directories of the active services. -/
def World.dirTable (w : World) : SlotTable Bytes where
  size := w.size
  slot i := if (w.svc i).active then some (w.svc i).dir else none

/-- Only what comes from the directory or from the listing has changed. -/
def Service.Refreshes (s s' : Service) : Prop :=
  s' = { s with
    present := s'.present, stopping := s'.stopping
    uid := s'.uid, gid := s'.gid, hasUid := s'.hasUid
    env := s'.env, chrootEnabled := s'.chrootEnabled }

section

variable {w w' w'' : World} {exe : Bytes → Bool} {name : Bytes} {names names' : List Bytes} {i : Nat}

/-! ## The table of directories -/

/-- The slots of the table are the records in use. -/
theorem dirTable_some {dir : Bytes} :
    w.dirTable.slot i = some dir ↔ (w.svc i).active = true ∧ (w.svc i).dir = dir := by
  simp only [World.dirTable]
  cases (w.svc i).active <;> simp

/-- A directory is in the table if a record has it. -/
theorem dirTable_has {dir : Bytes} :
    w.dirTable.Has dir ↔ ∃ i < w.size, (w.svc i).active = true ∧ (w.svc i).dir = dir := by
  simp only [SlotTable.Has, dirTable_some]
  rfl

/-- No two records have the same directory. -/
theorem distinctDirs_iff : DistinctDirs w ↔ w.dirTable.Distinct := by
  constructor
  · intro h i hi j hj dir hdiri hdirj
    obtain ⟨hacti, hdiri⟩ := dirTable_some.mp hdiri
    obtain ⟨hactj, hdirj⟩ := dirTable_some.mp hdirj
    exact h i hi j hj hacti hactj (hdiri.trans hdirj.symm)
  · intro h i hi j hj hacti hactj hdir
    exact h i hi j hj _ (dirTable_some.mpr ⟨hacti, hdir⟩) (dirTable_some.mpr ⟨hactj, rfl⟩)

/-- The first free slot. -/
theorem findSlot_free : (w.findSlot fun s => !s.active) = w.dirTable.find none := by
  unfold World.findSlot SlotTable.find
  congr 1
  funext i
  cases h : (w.svc i).active <;> simp [World.dirTable, h]

/-! ## One record -/

/-- Nothing is read again. -/
theorem Service.Refreshes.refl (s : Service) : s.Refreshes s := rfl

/-- Read again after having been read again. -/
theorem Service.Refreshes.trans {s s' s'' : Service} (h : s.Refreshes s') (h' : s'.Refreshes s'') :
    s.Refreshes s'' := by
  unfold Service.Refreshes at *
  rw [h] at h'
  exact h'

/-- The user and the group are read again. -/
theorem parseUserGroup_refreshes (s : Service) (k : Kernel) :
    (parseUserGroup s k).1 = { s with
      uid := (parseUserGroup s k).1.uid, gid := (parseUserGroup s k).1.gid
      hasUid := (parseUserGroup s k).1.hasUid } := by
  unfold parseUserGroup
  simp only [Sys.bind_apply, Sys.pure_apply]
  cases (parseIdFile (joinPath s.dir "/user") resolveUid k).1 <;>
  · dsimp only
    split <;> rfl

/-- A known record is refreshed and marked. -/
theorem foundService_refreshes (slot : Nat) (s : Service) (k : Kernel) :
    s.Refreshes (foundService slot s k).1 ∧ (foundService slot s k).1.present = true := by
  have hgroup := parseUserGroup_refreshes { s with present := true, stopping := false }
    (emit (.found slot) k).2
  -- user and group first, then the environment, as in the source
  have hfound : (foundService slot s k).1 =
      (prepareServiceEnv (parseUserGroup { s with present := true, stopping := false }
        (emit (.found slot) k).2).1 (parseUserGroup { s with present := true, stopping := false }
        (emit (.found slot) k).2).2).1 := rfl
  generalize parseUserGroup { s with present := true, stopping := false } (emit (.found slot) k).2 = r
    at hgroup hfound
  -- reading the environment writes two fields
  have henv : ∀ (s : Service) (k : Kernel), (prepareServiceEnv s k).1 = { s with
      env := (prepareServiceEnv s k).1.env
      chrootEnabled := (prepareServiceEnv s k).1.chrootEnabled } := by
    intro s k
    unfold prepareServiceEnv readEnv
    simp only [Sys.bind_apply, Sys.pure_apply]
    rcases (readFileToBuf (joinPath s.dir "/env") envBuf k).1 with _ | _ | ⟨c, rest⟩ <;> rfl
  rw [hfound, henv, hgroup]
  exact ⟨rfl, rfl⟩

/-! ## Entries -/

/-- A name that fits is not cut. -/
theorem Fits.dir {root : CStrBuf} (h : Fits root name) :
    (serviceDir root name).bytes = entryDir root name := by
  have hlen := h.fits
  rw [List.length_append] at hlen
  exact serviceDir_fits h.noNul (Nat.le_trans (Nat.le_add_right _ _) hlen)

/-- And its run script is looked for where it is. -/
theorem Fits.run {root : CStrBuf} (h : Fits root name) :
    joinPath (serviceDir root name).bytes "/run" = entryDir root name ++ bytesOf "/run" := by
  have hclean : 0 ∉ entryDir root name := by
    rw [← h.dir]
    exact (serviceDir root name).noNul
  rw [h.dir]
  exact joinPath_fits hclean (by decide) h.fits

/-- The listing in two parts. -/
theorem targetDirs_append (root : CStrBuf) :
    targetDirs exe root (names ++ names') = targetDirs exe root names ++ targetDirs exe root names' := by
  simp [targetDirs]

/-- The directories of the targets. -/
theorem mem_targetDirs {root : CStrBuf} {dir : Bytes} : dir ∈ targetDirs exe root names ↔
    ∃ name ∈ names, Target exe name ∧ (serviceDir root name).bytes = dir := by
  simp only [targetDirs, List.mem_map, List.mem_filter, decide_eq_true_eq, and_assoc]

/-- What the entries `names` do to the table `w`. -/
structure Synced (exe : Bytes → Bool) (names : List Bytes) (w w' : World) : Prop where
  root : w'.root = w.root
  table : w'.dirTable = w.dirTable.insertAll (targetDirs exe w.root names)
  kept : ∀ i, (w.svc i).active = true →
    (w'.svc i).active = true ∧ (w.svc i).Refreshes (w'.svc i)
  /-- A record is present if it was or if an entry is its directory. -/
  marks : ∀ i < w.size, (w'.svc i).active = true → ((w'.svc i).present = true ↔
    ((w.svc i).active = true ∧ (w.svc i).present = true) ∨
      (w'.svc i).dir ∈ targetDirs exe w.root names)
  added : ∀ i < w.size, (w.svc i).active = false → (w'.svc i).active = true → (w'.svc i).present = true

/-- The table has as many slots as before. -/
theorem Synced.size (h : Synced exe names w w') : w'.size = w.size := by
  have hsize : (w.dirTable.insertAll (targetDirs exe w.root names)).size = w.dirTable.size :=
    SlotTable.insertAll_size _ _
  exact (congrArg SlotTable.size h.table).trans hsize

/-- And different directories. -/
theorem Synced.distinct (h : Synced exe names w w') (hd : DistinctDirs w) : DistinctDirs w' := by
  rw [distinctDirs_iff, h.table]
  exact (distinctDirs_iff.mp hd).insertAll _

/-- An empty listing. -/
theorem Synced.refl (w : World) : Synced exe [] w w where
  root := rfl
  table := rfl
  kept _ hact := ⟨hact, .refl _⟩
  marks i _ hact := by simp [hact, targetDirs]
  added i _ hidle hact := by
    rw [hidle] at hact
    cases hact

/-- One entry after the other. -/
theorem Synced.trans (h : Synced exe names w w') (h' : Synced exe names' w' w'') :
    Synced exe (names ++ names') w w'' where
  root := h'.root.trans h.root
  table := by
    rw [h'.table, h.table, h.root, targetDirs_append]
    simp only [SlotTable.insertAll, List.foldl_append]
  kept i hact := by
    obtain ⟨hact', href⟩ := h.kept i hact
    obtain ⟨hact'', href'⟩ := h'.kept i hact'
    exact ⟨hact'', href.trans href'⟩
  marks i hi hact'' := by
    have hmark' := h'.marks i (h.size ▸ hi) hact''
    rw [h.root] at hmark'
    rw [targetDirs_append, List.mem_append]
    cases hact' : (w'.svc i).active with
    | true =>
      have hdir : (w''.svc i).dir = (w'.svc i).dir := by
        have href := (h'.kept i hact').2
        unfold Service.Refreshes at href
        rw [href]
      rw [hmark', h.marks i hi hact', hdir]
      simp only [hact', true_and, or_assoc]
    | false =>
      -- the record has come with the later entries
      have hpresent := h'.added i (h.size ▸ hi) hact' hact''
      have hlate := hmark'.mp hpresent
      simp only [hact', Bool.false_eq_true, false_and, false_or] at hlate
      exact iff_of_true hpresent (.inr (.inr hlate))
  added i hi hidle hact'' := by
    cases hact' : (w'.svc i).active with
    | true =>
      have hpresent := h.added i hi hidle hact'
      exact (h'.marks i (h.size ▸ hi) hact'').mpr (.inl ⟨hact', hpresent⟩)
    | false => exact h'.added i (h.size ▸ hi) hact' hact''

/-! ## One entry -/

/-- A new record is marked. -/
theorem buildService_present (name : Bytes) (dir : CStrBuf) (k : Kernel) :
    (buildService name dir k).1.present = true := by
  -- what is read after the record was set up leaves `present` alone
  have hrest : ∀ s, Calm (loadRest s) fun s' => s'.core = s.core := by
    intro s
    apply (parseUserGroup_calm s).bind
    intro s₁ h₁
    apply (prepareServiceEnv_calm s₁).bind
    intro s₂ h₂
    exact (writeStatusFile_calm s₂).seq fun _ => .pure (h₂.trans h₁)
  have hlooked : ∀ down once data log,
      (looked name dir down once data log).core.present = true := by
    intro down once data log
    unfold looked
    cases down <;> cases once <;> cases data <;> cases log <;> rfl
  rw [buildService_eq]
  exact (congrArg Core.present ((hrest _).post _)).trans (hlooked _ _ _ _)

/-- The first call looks at `run`. -/
theorem scanEntry_probes (hentry : IsEntry name) (w : World) :
    Later (probed name w).k (scanEntry name w).2.k := by
  obtain ⟨hne, hdot, hdots⟩ := hentry
  unfold scanEntry
  -- the name is none of those that `readdir` returns for no service
  rw [if_neg (by simp [hne, hdot, hdots])]
  simp only [Sup.get_bind]
  rw [Sup.bind_apply, Sup.ite_apply]
  split
  -- a known directory, a new one with a slot to spare, or a full table
  · cases findServiceByDir w (serviceDir w.root name) with
    | some i => exact (foundService_proceeds i (w.svc i)).rel _
    | none =>
      show Later (probed name w).k (addService name (serviceDir w.root name) (probed name w)).2.k
      unfold addService
      rw [Sup.get_bind]
      cases (probed name w).findSlot fun s => !s.active with
      | some i => exact (newService_proceeds i name _).rel _
      | none => exact Std.Refl.refl _
  · exact Std.Refl.refl _

/-- Looking at an entry takes a call. -/
theorem scanEntry_calls (hentry : IsEntry name) (w : World) :
    w.k.calls < (scanEntry name w).2.k.calls :=
  (scanEntry_probes hentry w).calls

/-- No answer is used twice. -/
theorem scanEntry_later (name : Bytes) (w : World) : Later w.k (scanEntry name w).2.k := by
  by_cases hentry : IsEntry name
  · have hprobe : Later w.k (probed name w).k :=
      (access_proceeds (joinPath (serviceDir w.root name).bytes "/run") .exec).rel w.k
    exact IsTrans.trans _ _ _ hprobe (scanEntry_probes hentry w)
  -- "." and ".." are skipped before any call is made
  · have hskip : (scanEntry name w).2 = w := by
      unfold scanEntry
      rw [if_pos]
      · rfl
      · simp only [IsEntry] at hentry
        simp only [Bool.or_eq_true, decide_eq_true_eq]
        tauto
    rw [hskip]
    exact Std.Refl.refl w.k

/-- The record in slot `i`, and only that, has become `s`, a record of the directory `dir`. -/
structure Placed (i : Nat) (s : Service) (w w' : World) : Prop where
  root : w'.root = w.root
  size : w'.size = w.size
  svc : ∀ j, w'.svc j = if j = i then s else w.svc j
  active : s.active = true
  present : s.present = true

/-- A known service has been met again. -/
theorem Placed.found {s : Service} (h : Placed i s w w') (hi : i < w.size)
    (hact : (w.svc i).active = true) (href : (w.svc i).Refreshes s)
    (htarget : targetDirs exe w.root [name] = [(w.svc i).dir]) (hd : DistinctDirs w) :
    Synced exe [name] w w' := by
  have hdir : s.dir = (w.svc i).dir := by
    unfold Service.Refreshes at href
    rw [href]
  have hactive : ∀ j, (w'.svc j).active = (w.svc j).active := by
    intro j
    rw [h.svc]
    split
    · next hj => rw [hj, h.active, hact]
    · rfl
  have hdirs : ∀ j, (w'.svc j).dir = (w.svc j).dir := by
    intro j
    rw [h.svc]
    split
    · next hj => rw [hj, hdir]
    · rfl
  refine ⟨h.root, ?_, ?_, ?_, ?_⟩
  · -- the directory is in the table
    have hhas : w.dirTable.Has (w.svc i).dir := dirTable_has.mpr ⟨i, hi, hact, rfl⟩
    rw [htarget, SlotTable.insertAll_of_has fun d hd => List.mem_singleton.mp hd ▸ hhas]
    unfold World.dirTable
    simp only [hactive, hdirs, h.size]
  · intro j hactj
    rw [hactive, h.svc]
    refine ⟨hactj, ?_⟩
    split
    · next hj => exact hj ▸ href
    · exact .refl _
  · intro j hj hactj
    rw [hactive] at hactj
    rw [htarget, List.mem_singleton, hdirs]
    -- two records do not share a directory
    by_cases hji : j = i
    · rw [h.svc, if_pos hji, hji]
      simp [h.present]
    · have hother : (w.svc j).dir ≠ (w.svc i).dir := fun he => hji (hd j hj i hi hactj hact he)
      rw [h.svc, if_neg hji]
      simp [hactj, hother]
  · intro j _ hidle hactj
    rw [hactive, hidle] at hactj
    cases hactj

/-- A service has been added. -/
theorem Placed.added {s : Service} (h : Placed i s w w') (hi : i < w.size)
    (hidle : (w.svc i).active = false) (hfree : w.dirTable.find none = some i)
    (htarget : targetDirs exe w.root [name] = [s.dir]) (hnew : ¬w.dirTable.Has s.dir) :
    Synced exe [name] w w' := by
  refine ⟨h.root, ?_, ?_, ?_, ?_⟩
  -- a new key goes into the first empty slot
  · have hinsert : w.dirTable.insert s.dir = w.dirTable.set i s.dir := by
      unfold SlotTable.insert
      rw [if_neg hnew, hfree]
    rw [htarget]
    show w'.dirTable = w.dirTable.insert s.dir
    rw [hinsert]
    unfold World.dirTable SlotTable.set
    simp only [h.size, h.svc]
    congr 1
    funext j
    split
    · next hj => simp [h.active]
    · rfl
  -- the other records stay, and this one is the only new one
  · intro j hactj
    have hji : j ≠ i := by
      rintro rfl
      rw [hidle] at hactj
      cases hactj
    rw [h.svc, if_neg hji]
    exact ⟨hactj, .refl _⟩
  · intro j hj hactj
    rw [htarget, List.mem_singleton]
    by_cases hji : j = i
    · rw [h.svc, if_pos hji]
      simp [h.present]
    · rw [h.svc, if_neg hji] at hactj ⊢
      -- the directory of another record is not the one that was met
      have hother : (w.svc j).dir ≠ s.dir := fun he => hnew (dirTable_has.mpr ⟨j, hj, hactj, he⟩)
      simp [hactj, hother]
  · intro j _ hidlej hactj
    rw [h.svc] at hactj ⊢
    split at hactj
    · next hji =>
      rw [if_pos hji]
      exact h.present
    · rw [hidlej] at hactj
      cases hactj

/-- The table is as it was. -/
theorem Synced.idle {k : Kernel} (htarget : Target exe name →
    ¬w.dirTable.Has (serviceDir w.root name).bytes ∧ w.dirTable.find none = none) :
    Synced exe [name] w { w with k } := by
  -- a full table takes no new key
  have hinsert : Target exe name →
      w.dirTable.insert (serviceDir w.root name).bytes = w.dirTable := by
    intro h
    obtain ⟨hnew, hfull⟩ := htarget h
    unfold SlotTable.insert
    rw [if_neg hnew, hfull]
  refine ⟨rfl, ?_, fun i hact => ⟨hact, .refl _⟩, ?_, ?_⟩
  · show w.dirTable = _
    -- a name that is no target adds no key at all
    by_cases h : Target exe name
    · have hone : targetDirs exe w.root [name] = [(serviceDir w.root name).bytes] := by
        simp [targetDirs, h]
      rw [hone]
      exact (hinsert h).symm
    · have hnone : targetDirs exe w.root [name] = [] := by simp [targetDirs, h]
      rw [hnone]
      rfl
  -- no record is marked, since none has this directory
  · intro i hi hact
    have hnot : (w.svc i).dir ∉ targetDirs exe w.root [name] := by
      intro hmem
      obtain ⟨name', hname', ht, hdir⟩ := mem_targetDirs.mp hmem
      obtain rfl := List.mem_singleton.mp hname'
      exact (htarget ht).1 (dirTable_has.mpr ⟨i, hi, hact, hdir.symm⟩)
    show (w.svc i).present = true ↔ _
    have hact' : (w.svc i).active = true := hact
    simp [hact', hnot]
  · intro i _ hidle hact
    have hact' : (w.svc i).active = true := hact
    rw [hidle] at hact'
    cases hact'

/-- The three outcomes of `scanEntry`. -/
theorem scanEntry_synced (hd : DistinctDirs w) (hexe : IsEntry name →
      (w.k.oracle w.k.calls).fs.access (joinPath (serviceDir w.root name).bytes "/run") .exec =
        exe name) : Synced exe [name] w (scanEntry name w).2 := by
  have hlisted : Listed w name ↔ Target exe name := by
    constructor
    · rintro ⟨hne, hdot, hdots, hok⟩
      exact ⟨⟨hne, hdot, hdots⟩, (hexe ⟨hne, hdot, hdots⟩).symm.trans hok⟩
    · rintro ⟨hentry, hok⟩
      exact ⟨hentry.1, hentry.2.1, hentry.2.2, (hexe hentry).trans hok⟩
  have hdirs : Target exe name → targetDirs exe w.root [name] = [(serviceDir w.root name).bytes] := by
    intro htarget
    simp [targetDirs, htarget]
  rcases scanEntry_outcome w name with ⟨i, h⟩ | ⟨i, h⟩ | ⟨hfound, hadds⟩
  -- a known directory
  · have hmine := hdirs (hlisted.mp h.listed)
    obtain ⟨hi, hact, hdir⟩ := findServiceByDir_some h.find
    obtain ⟨href, hpresent⟩ := foundService_refreshes i (w.svc i) (probed name w).k
    have hact' : (foundService i (w.svc i) (probed name w).k).1.active = true := by
      unfold Service.Refreshes at href
      rw [href]
      exact hact
    rw [scanEntry_found h]
    have hplaced : Placed i (foundService i (w.svc i) (probed name w).k).1 w
        (onSlot i (foundService i) (probed name w)).2 := ⟨rfl, rfl, fun j => rfl, hact', hpresent⟩
    exact hplaced.found hi hact href (hdir ▸ hmine) hd
  -- a new one, and a free slot
  · have hmine := hdirs (hlisted.mp h.1)
    obtain ⟨hi, hidle⟩ := w.findSlot_some h.2.2
    have hbuilt := buildService_built name (serviceDir w.root name) (probed name w).k
    have hnew := findServiceByDir_none h.2.1
    rw [scanEntry_adds h]
    have hplaced : Placed i (buildService name (serviceDir w.root name) (probed name w).k).1 w
        (onSlot i (fun _ => newService i name (serviceDir w.root name)) (probed name w)).2 :=
      ⟨rfl, rfl, fun j => rfl, hbuilt.new.active, buildService_present _ _ _⟩
    apply hplaced.added hi (by simpa using hidle) (findSlot_free ▸ h.2.2)
    · rw [hbuilt.dir]
      exact hmine
    · rw [hbuilt.dir]
      rintro hhas
      obtain ⟨j, hj, hact, hdir⟩ := dirTable_has.mp hhas
      exact hnew j hj hact hdir
  -- no service, or no slot
  · obtain ⟨k, hk⟩ := scanEntry_skips hfound hadds
    rw [hk]
    apply Synced.idle
    intro htarget
    have hin := hlisted.mpr htarget
    have hnone : findServiceByDir w (serviceDir w.root name) = none := by
      cases hfind : findServiceByDir w (serviceDir w.root name) with
      | none => rfl
      | some i =>
        obtain ⟨hne, hdot, hdots, hok⟩ := hin
        exact absurd ⟨hne, hdot, hdots, hok, hfind⟩ (hfound i)
    constructor
    · intro hhas
      obtain ⟨j, hj, hact, hdir⟩ := dirTable_has.mp hhas
      exact findServiceByDir_none hnone j hj hact hdir
    · rw [← findSlot_free]
      cases hfree : w.findSlot fun s => !s.active with
      | none => rfl
      | some i => exact absurd ⟨hin, hnone, hfree⟩ (hadds i)

/-! ## A listing -/

/-- Nor in the `readdir` loop. -/
theorem scanEntries_later (names : List Bytes) (w : World) :
    Later w.k (scanEntries names w).2.k := by
  induction names generalizing w with
  | nil => exact Std.Refl.refl w.k
  | cons name names ih => exact IsTrans.trans _ _ _ (scanEntry_later name w) (ih _)

/-- The `readdir` loop, by induction over the names. -/
theorem scanEntries_synced (hd : DistinctDirs w) (hfits : ∀ name ∈ names, Fits w.root name)
    (hexe : RunsAre exe names w (scanEntries names w).2) :
    Synced exe names w (scanEntries names w).2 := by
  -- by induction on the entries
  induction names generalizing w with
  | nil => exact .refl w
  | cons name names ih =>
    have hlater := scanEntry_later name w
    have hrest := scanEntries_later names (scanEntry name w).2
    have hone : Synced exe [name] w (scanEntry name w).2 := by
      apply scanEntry_synced hd
      -- what the probe of `run` finds is what the listing says
      intro hentry
      have hprobe := scanEntry_calls hentry w
      rw [(hfits name List.mem_cons_self).run]
      exact hexe w.k.calls (Nat.le_refl _) (Nat.lt_of_lt_of_le hprobe hrest.calls) name
        List.mem_cons_self
    refine hone.trans (ih (hone.distinct hd) ?_ ?_)
    · intro name' hname'
      rw [hone.root]
      exact hfits name' (List.mem_cons_of_mem _ hname')
    -- the later probes come after this one
    · intro n hlo hhi name' hname'
      rw [hlater.oracle, hone.root]
      exact hexe n (Nat.le_trans hlater.calls hlo) hhi name' (List.mem_cons_of_mem _ hname')

/-! ## A scan -/

/-- What the first loop does to a record. -/
def Service.unmark (s : Service) : Service := { s with present := s.present && !s.active }

/-- A free slot has no mark. -/
theorem Service.unmark_of_idle {s : Service} (h : s.active = false) : s.unmark = s := by
  have hpresent : (s.present && !s.active) = s.present := by simp [h]
  unfold Service.unmark
  rw [hpresent]

/-- The mark is taken from a record in use. -/
theorem Service.unmark_of_active {s : Service} (h : s.active = true) :
    s.unmark = { s with present := false } := by
  simp [Service.unmark, h]

/-- Taking it away again does nothing. -/
theorem Service.unmark_unmark (s : Service) : s.unmark.unmark = s.unmark := by
  simp [Service.unmark]

/-- The records after one slot. -/
theorem unmarkPresent_svc (i j : Nat) (w : World) :
    (unmarkPresent j w).2.svc i = if i = j then (w.svc i).unmark else w.svc i := by
  simp only [unmarkPresent, Sup.get_bind, Sup.ite_apply]
  -- only active records are unmarked; for others it makes no difference
  cases hact : (w.svc j).active with
  | true =>
    rw [if_pos rfl, onSlot_svc]
    split
    · next hij =>
      rw [hij, Service.unmark_of_active hact]
      rfl
    · rfl
  | false =>
    rw [if_neg (by simp)]
    split
    · next hij =>
      rw [hij, Service.unmark_of_idle hact]
      rfl
    · rfl

/-- The records after several slots. -/
theorem unmarkAll_svc (is : List Nat) (i : Nat) (w : World) :
    (forSlots unmarkPresent is w).2.svc i = if i ∈ is then (w.svc i).unmark else w.svc i := by
  induction is generalizing w with
  | nil => rfl
  | cons j is ih =>
    show (forSlots unmarkPresent is (unmarkPresent j w).2).2.svc i = _
    rw [ih, unmarkPresent_svc]
    by_cases hij : i = j <;> by_cases hmem : i ∈ is <;> simp [hij, hmem, Service.unmark_unmark]

/-- Nothing else happens. -/
theorem unmarkAll_frame (is : List Nat) (w : World) :
    (forSlots unmarkPresent is w).2.k = w.k ∧ (forSlots unmarkPresent is w).2.root = w.root ∧
      (forSlots unmarkPresent is w).2.size = w.size := by
  induction is generalizing w with
  | nil => exact ⟨rfl, rfl, rfl⟩
  | cons j is ih =>
    have hone : (unmarkPresent j w).2.k = w.k ∧ (unmarkPresent j w).2.root = w.root ∧
        (unmarkPresent j w).2.size = w.size := by
      simp only [unmarkPresent, Sup.get_bind, Sup.ite_apply]
      split <;> exact ⟨rfl, rfl, rfl⟩
    obtain ⟨hk, hroot, hsize⟩ := ih (unmarkPresent j w).2
    exact ⟨hk.trans hone.1, hroot.trans hone.2.1, hsize.trans hone.2.2⟩

/-- The table between the two halves of a scan. -/
def unmarked (w : World) : World := (forSlots unmarkPresent w.slots w).2

/-- The records before the `readdir` loop. -/
theorem unmarked_svc (i : Nat) :
    (unmarked w).svc i = if i < w.size then (w.svc i).unmark else w.svc i := by
  unfold unmarked
  rw [unmarkAll_svc]
  simp only [World.slots, List.mem_range]

/-- The same slots are in use. -/
theorem unmarked_active (i : Nat) : ((unmarked w).svc i).active = (w.svc i).active := by
  rw [unmarked_svc]
  split <;> rfl

/-- The marks apart, the records are what they were. -/
theorem unmarked_refreshes (i : Nat) : (w.svc i).Refreshes ((unmarked w).svc i) := by
  rw [unmarked_svc]
  split <;> rfl

/-- The table of directories is the same. -/
theorem unmarked_dirTable (w : World) : (unmarked w).dirTable = w.dirTable := by
  obtain ⟨-, -, hsize⟩ := unmarkAll_frame w.slots w
  have hdir : ∀ i, ((unmarked w).svc i).dir = (w.svc i).dir := by
    intro i
    rw [unmarked_svc]
    split <;> rfl
  unfold World.dirTable
  simp only [unmarked_active, hdir]
  congr 1

/-- A scan of the listing. -/
def scan (names : List Bytes) (w : World) : World := (scanServices names w).2

/-- A scan takes the marks away, and then looks at the entries. -/
theorem scan_eq (names : List Bytes) (w : World) : scan names w = (scanEntries names (unmarked w)).2 :=
  rfl

/-- What a scan has done. -/
theorem scan_synced (hd : DistinctDirs w) (hfits : ∀ name ∈ names, Fits w.root name)
    (hexe : RunsAre exe names w (scan names w)) :
    Synced exe names (unmarked w) (scan names w) := by
  obtain ⟨hk, hroot, -⟩ := unmarkAll_frame w.slots w
  rw [scan_eq]
  -- unmarking touches neither the directories nor the file system
  apply scanEntries_synced
  · rw [distinctDirs_iff, unmarked_dirTable]
    exact distinctDirs_iff.mp hd
  · intro name hname
    unfold unmarked
    rw [hroot]
    exact hfits name hname
  · intro n hlo hhi name hname
    have hlo' : w.k.calls ≤ n := by
      unfold unmarked at hlo
      rw [hk] at hlo
      exact hlo
    unfold unmarked
    rw [hk, hroot]
    exact hexe n hlo' hhi name hname

/-- What a scan leaves. -/
structure InStep (exe : Bytes → Bool) (names : List Bytes) (w w' : World) : Prop where
  /-- Exactly one active record has the directory, and it is present. -/
  listed : ∀ name ∈ names, Target exe name → ∃ i < w'.size, (w'.svc i).active = true ∧
    (w'.svc i).dir = entryDir w.root name ∧ (w'.svc i).present = true ∧
    ∀ j < w'.size, (w'.svc j).active = true → (w'.svc j).dir = entryDir w.root name → j = i
  others : ∀ i < w'.size, (w'.svc i).active = true →
    (∀ name ∈ names, Target exe name → (w'.svc i).dir ≠ entryDir w.root name) →
    (w'.svc i).present = false
  kept : ∀ i, (w.svc i).active = true →
    (w'.svc i).active = true ∧ (w.svc i).Refreshes (w'.svc i)

/-- There is room for the entries that are new. -/
def Room (exe : Bytes → Bool) (names : List Bytes) (w : World) : Prop :=
  names.countP (fun name => decide (Target exe name ∧
      ∀ i < w.size, (w.svc i).active = true → (w.svc i).dir ≠ entryDir w.root name)) ≤
    (List.range w.size).countP fun i => !(w.svc i).active

/-- If all names fit, the directories are those of the targets, in order. -/
theorem targetDirs_fits {root : CStrBuf} (hfits : ∀ name ∈ names, Fits root name) :
    targetDirs exe root names =
      (names.filter fun name => decide (Target exe name)).map (entryDir root) := by
  apply List.map_congr_left
  intro name hname
  exact (hfits name (List.mem_of_mem_filter hname)).dir

/-- There is room for the directories that are missing. -/
theorem Room.missing (h : Room exe names w) (hfits : ∀ name ∈ names, Fits w.root name) :
    w.dirTable.missing (targetDirs exe w.root names) ≤ w.dirTable.free := by
  -- the free slots of the table are those that are not active
  have hfree : w.dirTable.free = (List.range w.size).countP fun i => !(w.svc i).active := by
    unfold SlotTable.free
    apply List.countP_congr
    intro i _
    cases hact : (w.svc i).active <;> simp [World.dirTable, hact]
  -- the keys to come are the targets whose directory no record has
  have hmissing : w.dirTable.missing (targetDirs exe w.root names) =
      names.countP fun name => decide (Target exe name ∧
        ∀ i < w.size, (w.svc i).active = true → (w.svc i).dir ≠ entryDir w.root name) := by
    rw [targetDirs_fits hfits]
    unfold SlotTable.missing
    rw [List.countP_map, List.countP_filter]
    apply List.countP_congr
    intro name _
    have hnot : ¬w.dirTable.Has (entryDir w.root name) ↔
        ∀ i < w.size, (w.svc i).active = true → (w.svc i).dir ≠ entryDir w.root name := by
      rw [dirTable_has]
      simp only [not_exists, not_and]
    simp [hnot, and_comm]
  rw [hmissing, hfree]
  exact h

/-- The directories of the active services. -/
def activeDirs (w : World) : Set Bytes :=
  { dir | ∃ i < w.size, (w.svc i).active = true ∧ (w.svc i).dir = dir }

/-- The directories of the records are those in the table. -/
theorem mem_activeDirs {dir : Bytes} : dir ∈ activeDirs w ↔ w.dirTable.Has dir := dirTable_has.symm

/-- The same, for names that fit. -/
theorem mem_targetDirs_fits {root : CStrBuf} (hfits : ∀ name ∈ names, Fits root name) {dir : Bytes} :
    dir ∈ targetDirs exe root names ↔ ∃ name ∈ names, Target exe name ∧ entryDir root name = dir := by
  simp only [targetDirs_fits hfits, List.mem_map, List.mem_filter, decide_eq_true_eq, and_assoc]

/-- A scan inserts the directories of the targets into the table. -/
theorem scan_table (hd : DistinctDirs w) (hfits : ∀ name ∈ names, Fits w.root name)
    (hexe : RunsAre exe names w (scan names w)) :
    (scan names w).dirTable = w.dirTable.insertAll (targetDirs exe w.root names) := by
  have htable := (scan_synced hd hfits hexe).table
  rw [unmarked_dirTable] at htable
  have hroot : (unmarked w).root = w.root := (unmarkAll_frame w.slots w).2.1
  rw [hroot] at htable
  exact htable

/-- No directory is there twice afterwards. -/
theorem scan_distinct (hd : DistinctDirs w) (hfits : ∀ name ∈ names, Fits w.root name)
    (hexe : RunsAre exe names w (scan names w)) : DistinctDirs (scan names w) := by
  rw [distinctDirs_iff, scan_table hd hfits hexe]
  exact (distinctDirs_iff.mp hd).insertAll _

/-- The directories after a scan that has room. -/
theorem scan_activeDirs (hd : DistinctDirs w) (hfits : ∀ name ∈ names, Fits w.root name)
    (hroom : Room exe names w) (hexe : RunsAre exe names w (scan names w)) {dir : Bytes} :
    dir ∈ activeDirs (scan names w) ↔
      (∃ name ∈ names, Target exe name ∧ entryDir w.root name = dir) ∨ dir ∈ activeDirs w := by
  rw [mem_activeDirs, mem_activeDirs, scan_table hd hfits hexe,
    SlotTable.has_insertAll (hroom.missing hfits), mem_targetDirs_fits hfits]

/-- With room enough, the records in use and the targets agree. -/
theorem scan_inStep (hd : DistinctDirs w) (hfits : ∀ name ∈ names, Fits w.root name)
    (hroom : Room exe names w) (hexe : RunsAre exe names w (scan names w)) :
    InStep exe names w (scan names w) := by
  have hsync := scan_synced hd hfits hexe
  obtain ⟨-, hroot, hunmarked⟩ := unmarkAll_frame w.slots w
  have hsize : (scan names w).size = w.size := hsync.size.trans hunmarked
  -- a record is present if and only if its directory is listed
  have hmarks : ∀ i < (scan names w).size, ((scan names w).svc i).active = true →
      (((scan names w).svc i).present = true ↔
        ∃ name ∈ names, Target exe name ∧ entryDir w.root name = ((scan names w).svc i).dir) := by
    intro i hi hact
    rw [hsize] at hi
    have hmark := hsync.marks i (hunmarked.symm ▸ hi) hact
    have hgone : ¬(((unmarked w).svc i).active = true ∧ ((unmarked w).svc i).present = true) := by
      rintro ⟨hact', hpresent⟩
      rw [unmarked_active] at hact'
      rw [unmarked_svc, if_pos hi, Service.unmark_of_active hact'] at hpresent
      cases hpresent
    have hfits' : ∀ name ∈ names, Fits (unmarked w).root name := by
      unfold unmarked
      rw [hroot]
      exact hfits
    rw [hmark, mem_targetDirs_fits hfits', or_iff_right hgone]
    unfold unmarked
    rw [hroot]
  constructor
  · intro name hname htarget
    have hmem : entryDir w.root name ∈ activeDirs (scan names w) :=
      (scan_activeDirs hd hfits hroom hexe).mpr (.inl ⟨name, hname, htarget, rfl⟩)
    obtain ⟨i, hi, hact, hdir⟩ := hmem
    refine ⟨i, hi, hact, hdir, (hmarks i hi hact).mpr ⟨name, hname, htarget, hdir.symm⟩, ?_⟩
    intro j hj hactj hdirj
    exact scan_distinct hd hfits hexe j hj i hi hactj hact (hdirj.trans hdir.symm)
  · intro i hi hact hnone
    cases hpresent : ((scan names w).svc i).present with
    | false => rfl
    | true =>
      obtain ⟨name, hname, htarget, hdir⟩ := (hmarks i hi hact).mp hpresent
      exact absurd hdir.symm (hnone name hname htarget)
  · intro i hact
    obtain ⟨hact', href⟩ := hsync.kept i ((unmarked_active i).trans hact)
    exact ⟨hact', (unmarked_refreshes i).trans href⟩

/-- A scan of a listing whose paths fit, with room for the new entries: it brings the table in
    step with the directory, a second scan of the listing adds nothing, and the order of the
    listing does not matter to the set of active directories. -/
theorem scan_synchronises (hw : Reachable w) (hfits : ∀ name ∈ names, Fits w.root name)
    (hroom : Room exe names w) (hexe : RunsAre exe names w (scan names w)) :
    InStep exe names w (scan names w) ∧
    (RunsAre exe names (scan names w) (scan names (scan names w)) →
      ∀ i, ((scan names (scan names w)).svc i).active = ((scan names w).svc i).active) ∧
    ∀ names', names'.Perm names → RunsAre exe names' w (scan names' w) →
      activeDirs (scan names' w) = activeDirs (scan names w) := by
  have hd := hw.keyed.dirs
  have hsync := scan_synced hd hfits hexe
  have hroot : (scan names w).root = w.root := hsync.root.trans (unmarkAll_frame w.slots w).2.1
  refine ⟨scan_inStep hd hfits hroom hexe, ?_, ?_⟩
  -- the second scan finds all directories in the table
  · intro hexe' i
    have hfits' : ∀ name ∈ names, Fits (scan names w).root name := by
      rw [hroot]
      exact hfits
    have htable := scan_table (scan_distinct hd hfits hexe) hfits' hexe'
    rw [SlotTable.insertAll_of_has] at htable
    · have hslot := congrArg (fun t => (t.slot i).isSome) htable
      simp only [World.dirTable] at hslot
      cases hact : ((scan names w).svc i).active <;>
        cases hact' : ((scan names (scan names w)).svc i).active <;> simp_all
    · intro dir hdir
      obtain ⟨name, hname, htarget, hdir⟩ := (mem_targetDirs_fits hfits').mp hdir
      rw [hroot] at hdir
      exact mem_activeDirs.mp
        ((scan_activeDirs hd hfits hroom hexe).mpr (.inl ⟨name, hname, htarget, hdir⟩))
  -- membership does not depend on the order
  · intro names' hperm hexe'
    have hmem : ∀ name, name ∈ names' ↔ name ∈ names := fun _ => hperm.mem_iff
    have hfits' : ∀ name ∈ names', Fits w.root name := fun name h => hfits name ((hmem name).mp h)
    have hroom' : Room exe names' w := by
      unfold Room
      rw [hperm.countP_eq]
      exact hroom
    ext dir
    rw [scan_activeDirs hd hfits' hroom' hexe', scan_activeDirs hd hfits hroom hexe]
    simp only [hmem]

end

/-- The executable `run` files, and the entries when the directory of `a` is gone. -/
def chainRuns (name : Bytes) : Bool := name = bytesOf "a" || name = bytesOf "b"

/-- The listing without `a`. -/
def chainEntries : List Bytes := [bytesOf ".", bytesOf "b", bytesOf "lib"]

/-- With `a` and `b` running, a scan leaves `b` present and `a` missing, and another scan of the
    same directory changes nothing more. -/
theorem scan_synchronises_chain :
    InStep chainRuns chainEntries chainStarted (scan chainEntries chainStarted) ∧
      (∀ i, ((scan chainEntries (scan chainEntries chainStarted)).svc i).active =
        ((scan chainEntries chainStarted).svc i).active) ∧
      ((scan chainEntries chainStarted).svc 0).active = true ∧
      ((scan chainEntries chainStarted).svc 0).present = false ∧
      ((scan chainEntries chainStarted).svc 1).present = true := by
  have hw : Reachable chainStarted := chainStarted_reachable
  have hfits : ∀ name ∈ chainEntries, Fits chainStarted.root name := by
    have hshort : ∀ name ∈ chainEntries, 0 ∉ name ∧
        (entryDir chainStarted.root name ++ bytesOf "/run").length ≤ pathBuf - 1 := by
      decide +kernel
    exact fun name hname => ⟨(hshort name hname).1, (hshort name hname).2⟩
  have hroom : Room chainRuns chainEntries chainStarted := by
    unfold Room
    decide +kernel
  have hrecords : ((scan chainEntries chainStarted).svc 0).active = true ∧
      ((scan chainEntries chainStarted).svc 0).present = false ∧
      ((scan chainEntries chainStarted).svc 1).present = true := by decide +kernel
  -- neither scan makes more than 300 calls, and their answers agree
  have hcalls : (scan chainEntries chainStarted).k.calls ≤ 300 ∧
      (scan chainEntries (scan chainEntries chainStarted)).k.calls ≤ 300 := by decide +kernel
  have hanswers : ∀ n < 300, ∀ name ∈ chainEntries, (chainStarted.k.oracle n).fs.access
      (entryDir chainStarted.root name ++ bytesOf "/run") .exec = chainRuns name := by
    decide +kernel
  have hanswers' : ∀ n < 300, ∀ name ∈ chainEntries,
      ((scan chainEntries chainStarted).k.oracle n).fs.access
        (entryDir (scan chainEntries chainStarted).root name ++ bytesOf "/run") .exec =
          chainRuns name := by decide +kernel
  generalize chainStarted = w at hw hfits hroom hrecords hcalls hanswers hanswers' ⊢
  have hexe : RunsAre chainRuns chainEntries w (scan chainEntries w) :=
    fun n _ hn => hanswers n (Nat.lt_of_lt_of_le hn hcalls.1)
  have hexe' : RunsAre chainRuns chainEntries (scan chainEntries w)
      (scan chainEntries (scan chainEntries w)) :=
    fun n _ hn => hanswers' n (Nat.lt_of_lt_of_le hn hcalls.2)
  obtain ⟨hstep, hagain, -⟩ := scan_synchronises hw hfits hroom hexe
  exact ⟨hstep, hagain hexe', hrecords⟩

end SvcRs
