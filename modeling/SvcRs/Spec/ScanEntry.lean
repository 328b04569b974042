import SvcRs.Spec.Run

/-!
# One entry of a listing

A scan does one of three things with an entry: it meets the directory of an active service
again, it adds a service in the first free slot, or it leaves the table alone.

## Key results

- `scanEntry_found`, `scanEntry_adds`, `scanEntry_skips`: the three outcomes as equations
- `scanEntry_outcome`: there is no fourth
- `buildService_built`: what is in a new record
-/

namespace SvcRs

instance (w : World) (name : Bytes) : Decidable (Listed w name) :=
  inferInstanceAs (Decidable (_ ∧ _ ∧ _ ∧ _))

/-- The table when `run` has been looked at. -/
def probed (name : Bytes) (w : World) : World :=
  (liftSys (access (joinPath (serviceDir w.root name).bytes "/run") .exec) w).2

section

variable {w : World} {name : Bytes} {i : Nat}

/-- Looking for the run script changes no record. -/
@[simp] theorem probed_svc : (probed name w).svc = w.svc := rfl

@[simp] theorem probed_size : (probed name w).size = w.size := rfl

@[simp] theorem probed_root : (probed name w).root = w.root := rfl

/-- A known directory is listed. -/
theorem FoundAt.listed (h : FoundAt w name i) : Listed w name :=
  ⟨h.1, h.2.1, h.2.2.1, h.2.2.2.1⟩

/-- The slot that the code finds. -/
theorem FoundAt.find (h : FoundAt w name i) :
    findServiceByDir w (serviceDir w.root name) = some i := h.2.2.2.2

instance : Decidable (FoundAt w name i) := inferInstanceAs (Decidable (_ ∧ _ ∧ _ ∧ _ ∧ _))

instance : Decidable (AddsAt w name i) := inferInstanceAs (Decidable (_ ∧ _ ∧ _))

/-- An entry that is no service. -/
theorem scanEntry_unlisted (h : ¬Listed w name) :
    (scanEntry name w).2 = w ∨ (scanEntry name w).2 = probed name w := by
  unfold scanEntry
  split
  · exact .inl rfl
  · next hname =>
    simp only [Bool.or_eq_true, decide_eq_true_eq, not_or] at hname
    simp only [Sup.get_bind]
    rw [Sup.bind_apply, Sup.ite_apply, if_neg]
    · exact .inr rfl
    · exact fun hok => h ⟨hname.1.1, hname.1.2, hname.2, hok⟩

/-- An entry that is one: known, or new. -/
theorem scanEntry_listed (h : Listed w name) : (scanEntry name w).2 =
    (match findServiceByDir w (serviceDir w.root name) with
      | some i => onSlot i (foundService i) (probed name w)
      | none => addService name (serviceDir w.root name) (probed name w)).2 := by
  obtain ⟨hne, hdot, hdots, hok⟩ := h
  unfold scanEntry
  rw [if_neg (by simp [hne, hdot, hdots])]
  simp only [Sup.get_bind]
  have hok' : (liftSys (access (joinPath (serviceDir w.root name).bytes "/run") .exec) w).1 = true :=
    hok
  rw [Sup.bind_apply, Sup.ite_apply, if_pos hok']
  cases findServiceByDir w (serviceDir w.root name) <;> rfl

/-- A known service. -/
theorem scanEntry_found (h : FoundAt w name i) :
    (scanEntry name w).2 = (onSlot i (foundService i) (probed name w)).2 := by
  rw [scanEntry_listed h.listed, h.find]

/-- A new one. -/
theorem scanEntry_adds (h : AddsAt w name i) : (scanEntry name w).2 =
    (onSlot i (fun _ => newService i name (serviceDir w.root name)) (probed name w)).2 := by
  obtain ⟨hlisted, hnone, hfree⟩ := h
  rw [scanEntry_listed hlisted, hnone]
  show (addService name (serviceDir w.root name) (probed name w)).2 = _
  unfold addService
  rw [Sup.get_bind]
  have hfree' : ((probed name w).findSlot fun s => !s.active) = some i := hfree
  rw [hfree']

/-- Neither. -/
theorem scanEntry_leaves (hfound : ∀ i, ¬FoundAt w name i) (hadds : ∀ i, ¬AddsAt w name i) :
    (scanEntry name w).2 = w ∨ (scanEntry name w).2 = probed name w := by
  -- a listed directory that is neither known nor new finds the table full
  by_cases h : Listed w name
  · rw [scanEntry_listed h]
    cases hdir : findServiceByDir w (serviceDir w.root name) with
    | some i =>
      obtain ⟨hne, hdot, hdots, hok⟩ := h
      exact absurd ⟨hne, hdot, hdots, hok, hdir⟩ (hfound i)
    | none =>
      apply Or.inr
      show (addService name (serviceDir w.root name) (probed name w)).2 = _
      unfold addService
      rw [Sup.get_bind]
      cases hfree : (probed name w).findSlot fun s => !s.active with
      | some i => exact absurd ⟨h, hdir, hfree⟩ (hadds i)
      | none => rfl
  · exact scanEntry_unlisted h

/-- Nothing is found, and nothing can be added. -/
theorem scanEntry_skips (hfound : ∀ i, ¬FoundAt w name i) (hadds : ∀ i, ¬AddsAt w name i) :
    ∃ k, (scanEntry name w).2 = { w with k } := by
  rcases scanEntry_leaves hfound hadds with he | he <;> exact ⟨_, he⟩

/-- There is no fourth outcome. -/
theorem scanEntry_outcome (w : World) (name : Bytes) :
    (∃ i, FoundAt w name i) ∨ (∃ i, AddsAt w name i) ∨
      (∀ i, ¬FoundAt w name i) ∧ ∀ i, ¬AddsAt w name i := by
  by_cases hfound : ∃ i, FoundAt w name i
  · exact .inl hfound
  · by_cases hadds : ∃ i, AddsAt w name i
    · exact .inr (.inl hadds)
    · exact .inr (.inr ⟨not_exists.mp hfound, not_exists.mp hadds⟩)

/-- What `add_service` puts into a record: the name cut to `NAME_BUF - 1` bytes, the path, and
    the dependencies in the first `DEP_FILE_BUF` bytes of `depends`. -/
structure Service.Built (name : Bytes) (dir : CStrBuf) (s : Service) : Prop where
  new : s.core.New
  name : s.name = name.take (nameBuf - 1)
  dir : s.dir = dir.bytes
  deps : s.deps = [] ∨ ∃ data, data.length ≤ depFileBuf ∧ s.deps = parseDeps data

/-- A new record has its name and its directory. -/
theorem buildService_built (name : Bytes) (dir : CStrBuf) (k : Kernel) :
    (buildService name dir k).1.Built name dir := by
  -- one step for each file that `build_service` looks at
  have hall : Calm (buildService name dir) fun s => s.Built name dir := by
    apply (access_calm _ _).seq
    intro down
    apply (access_calm _ _).seq
    intro once
    -- `depends` is cut at the size of the buffer
    have hread : Calm (readFileToBuf (joinPath dir.bytes "/depends") depFileBuf) fun data =>
        ∀ b, data = some b → b.length ≤ depFileBuf := by
      intro k _
      refine ⟨(readFileToBuf_calm _ _).rel k, fun b hb => ?_⟩
      obtain ⟨file, -, rfl⟩ := Option.map_eq_some_iff.mp hb
      rw [List.length_take]
      omega
    apply hread.bind
    intro data hdata
    apply (access_calm _ _).seq
    intro log
    apply (parseUserGroup_calm _).bind
    intro s₁ h₁
    apply (prepareServiceEnv_calm s₁).bind
    intro s₂ h₂
    apply (writeStatusFile_calm s₂).seq
    intro _
    apply StateM.Keeps.pure
    have hcore := h₂.trans h₁
    refine ⟨?_, ?_, ?_, ?_⟩
    · rw [hcore]
      cases down <;> cases once <;> cases data <;> cases log <;>
        exact ⟨rfl, rfl, rfl, rfl, rfl, rfl, rfl, rfl, rfl⟩
    · have hname := congrArg Core.name hcore
      refine hname.trans ?_
      cases down <;> cases once <;> cases data <;> cases log <;> rfl
    · have hdir := congrArg Core.dir hcore
      refine hdir.trans ?_
      cases down <;> cases once <;> cases data <;> cases log <;> rfl
    -- without a `depends` file there are no dependencies
    · have hdeps : s₂.deps = match data with
          | some b => parseDeps b
          | none => [] := by
        refine (congrArg Core.deps hcore).trans ?_
        cases down <;> cases once <;> cases data <;> cases log <;> rfl
      cases data with
      | none => exact .inl hdeps
      | some b => exact .inr ⟨b, hdata b rfl, hdeps⟩
  exact hall.post k

/-- What the scan leaves in the core of a record that it meets again. -/
theorem foundService_core (slot : Nat) (s : Service) (k : Kernel) :
    (foundService slot s k).1.core = { s.core with present := true, stopping := false } :=
  ((prepareServiceEnv_calm _).post _).trans ((parseUserGroup_calm _).post _)

/-- The table keeps its size. -/
theorem scanEntry_size (name : Bytes) (w : World) : (scanEntry name w).2.size = w.size := by
  rcases scanEntry_outcome w name with ⟨i, h⟩ | ⟨i, h⟩ | ⟨hfound, hadds⟩
  · rw [scanEntry_found h]
    rfl
  · rw [scanEntry_adds h]
    rfl
  · obtain ⟨k, he⟩ := scanEntry_skips hfound hadds
    rw [he]

end

end SvcRs
