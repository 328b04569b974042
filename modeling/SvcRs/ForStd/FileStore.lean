import Mathlib.Logic.Function.Basic

/-!
# A file system as a map from paths to contents

Paths, descriptors and bytes are arbitrary types. A descriptor that is open is open on the
file of some path; a rename moves the file together with the descriptors that are open
on it, and does nothing if there is no file at its source.

## Key results

- `content_append`: a write through a descriptor appends to its file
- `content_rename`: a rename concerns its source and its target only
- `content_rename_moves`: what is at the source goes to the target
-/

namespace FileStore

/-- Files by their paths, and the paths that descriptors are open on. -/
structure Store (P D B : Type*) where
  files : P → Option (List B)
  /-- The file that a descriptor is open on. -/
  openOn : D → Option P

namespace Store

variable {P D B : Type*} (d : Store P D B)

/-- The bytes of a file; a file that does not exist has none. -/
def content (path : P) : List B := (d.files path).getD []

/-- The length that seeking to the end of the file reports. -/
def length (fd : D) : Nat :=
  match d.openOn fd with
  | none => 0
  | some path => (d.content path).length

/-- The length behind a descriptor is that of its file. -/
theorem length_of_openOn {fd : D} {path : P} (h : d.openOn fd = some path) :
    d.length fd = (d.content path).length := by
  unfold length
  rw [h]

/-! ## Opening and closing -/

section

variable [DecidableEq D]

/-- The descriptor is closed, the file stays. -/
def close (fd : D) : Store P D B := { d with openOn := Function.update d.openOn fd none }

/-- Closing leaves every file alone. -/
@[simp] theorem content_close (fd : D) (path : P) :
    (d.close fd).content path = d.content path := rfl

variable [DecidableEq P]

/-- Open for appending; the file is created if it does not exist. -/
def openAppend (path : P) (fd : D) : Store P D B where
  files := Function.update d.files path (some (d.content path))
  openOn := Function.update d.openOn fd (some path)

/-- Open and empty the file. -/
def openTrunc (path : P) (fd : D) : Store P D B where
  files := Function.update d.files path (some [])
  openOn := Function.update d.openOn fd (some path)

/-- Opening for appending leaves every content alone. -/
@[simp] theorem content_openAppend (path path' : P) (fd : D) :
    (d.openAppend path fd).content path' = d.content path' := by
  unfold openAppend content
  dsimp only
  by_cases h : path' = path
  · rw [h, Function.update_self]
    rfl
  · rw [Function.update_of_ne h]

/-- The descriptor is open on the path afterwards. -/
@[simp] theorem openOn_openAppend (path : P) (fd : D) :
    (d.openAppend path fd).openOn fd = some path := Function.update_self ..

end

/-! ## Writing and renaming -/

section

variable [DecidableEq P]

/-- A write through a descriptor that is open for appending. -/
def append (fd : D) (data : List B) : Store P D B :=
  match d.openOn fd with
  | none => d
  | some path => { d with files := Function.update d.files path (some (d.content path ++ data)) }

/-- The file moves to the target, whose old content is lost; open descriptors follow it. -/
def rename (source target : P) : Store P D B :=
  if source = target then d
  else match d.files source with
    | none => d
    | some bytes =>
      { files := Function.update (Function.update d.files target (some bytes)) source none
        openOn := fun fd =>
          if d.openOn fd = some source then some target
          else if d.openOn fd = some target then none
          else d.openOn fd }

/-- The file is gone, and so are the descriptors on it. -/
def unlink (path : P) : Store P D B where
  files := Function.update d.files path none
  openOn := fun fd => if d.openOn fd = some path then none else d.openOn fd

/-- What is written goes to the end of the file behind the descriptor. -/
theorem content_append {fd : D} {path : P} (h : d.openOn fd = some path) (data : List B) :
    (d.append fd data).content path = d.content path ++ data := by
  unfold append
  rw [h]
  unfold content
  dsimp only
  rw [Function.update_self]
  rfl

/-- Writing leaves the descriptors alone. -/
@[simp] theorem openOn_append (fd : D) (data : List B) :
    (d.append fd data).openOn = d.openOn := by
  unfold append
  split <;> rfl

/-- Other paths keep their content. -/
theorem content_rename {source target path : P} (hsource : path ≠ source ∨ source = target)
    (htarget : path ≠ target ∨ source = target) :
    (d.rename source target).content path = d.content path := by
  unfold rename
  split
  · rfl
  -- the path is neither the name that goes nor the one that comes
  · next hne =>
    have hs : path ≠ source := hsource.resolve_right hne
    have ht : path ≠ target := htarget.resolve_right hne
    split
    · rfl
    · unfold content
      dsimp only
      rw [Function.update_of_ne hs, Function.update_of_ne ht]

/-- The file is found under its new name, and nothing is left under the old one. -/
theorem content_rename_moves {source target : P} {data : List B} (h : d.files source = some data)
    (hne : source ≠ target) : (d.rename source target).content target = data ∧
      (d.rename source target).content source = [] := by
  unfold rename
  rw [if_neg hne, h]
  unfold content
  dsimp only
  constructor
  · rw [Function.update_of_ne hne.symm, Function.update_self]
    rfl
  · rw [Function.update_self]
    rfl

/-- The file exists after a write. -/
theorem files_append {fd : D} {path : P} (h : d.openOn fd = some path) (data : List B) :
    (d.append fd data).files path = some (d.content path ++ data) := by
  unfold append
  rw [h]
  exact Function.update_self ..

/-- Other files keep their content. -/
theorem content_append_other {fd : D} {path other : P} (h : d.openOn fd = some path)
    (hne : other ≠ path) (data : List B) : (d.append fd data).content other = d.content other := by
  unfold append
  rw [h]
  unfold content
  dsimp only
  rw [Function.update_of_ne hne]

end

/-! ## The longest file -/

/-- No file is longer than `n`. -/
def Bounded (n : Nat) : Prop := ∀ path, (d.content path).length ≤ n

section

variable [DecidableEq P] {d} {n : Nat}

/-- A file with the bytes `data` instead. -/
theorem Bounded.update {data : List B} (h : d.Bounded n) (hdata : data.length ≤ n) (path : P) :
    ({ d with files := Function.update d.files path (some data) } : Store P D B).Bounded n := by
  intro path'
  show ((Function.update d.files path (some data) path').getD []).length ≤ n
  by_cases he : path' = path
  · rw [he, Function.update_self]
    exact hdata
  · rw [Function.update_of_ne he]
    exact h path'

/-- Truncation keeps a bound on the lengths. -/
theorem Bounded.openTrunc [DecidableEq D] (h : d.Bounded n) (path : P) (fd : D) :
    (d.openTrunc path fd).Bounded n := by
  have hnil : ([] : List B).length ≤ n := Nat.zero_le n
  exact h.update hnil path

/-- A write raises the bound by its length. -/
theorem Bounded.append (h : d.Bounded n) (fd : D) (data : List B) :
    (d.append fd data).Bounded (n + data.length) := by
  have hmono : d.Bounded (n + data.length) := fun path => Nat.le_trans (h path) (by omega)
  unfold Store.append
  split
  · exact hmono
  · next path _ =>
    apply hmono.update
    have hpath := h path
    rw [List.length_append]
    omega

/-- Removing a file keeps the bound. -/
theorem Bounded.remove (h : d.Bounded n) (path : P) (openOn : D → Option P) :
    ({ files := Function.update d.files path none, openOn } : Store P D B).Bounded n := by
  intro path'
  show ((Function.update d.files path none path').getD []).length ≤ n
  by_cases he : path' = path
  · rw [he, Function.update_self]
    exact Nat.zero_le n
  · rw [Function.update_of_ne he]
    exact h path'

/-- Renaming keeps the bound. -/
theorem Bounded.rename (h : d.Bounded n) (source target : P) :
    (d.rename source target).Bounded n := by
  unfold Store.rename
  split
  · exact h
  · split
    · exact h
    -- the content that moves was bounded under its old name
    · next bytes hbytes =>
      have hmoved : bytes.length ≤ n := by
        have hsource := h source
        unfold content at hsource
        rw [hbytes] at hsource
        exact hsource
      exact (h.update hmoved target).remove source _

end

end Store

end FileStore
