import Mathlib.Logic.Function.Basic
import Mathlib.Data.Option.Basic

/-! Files that are written under one name and renamed when they are complete -/

namespace files

/-- Which opening was the last to truncate the file, and what it holds. Until
it is closed nothing is known of that, as any part of what was printed may
still be in a buffer. -/
structure File (Content : Type) where
  opening : Nat
  content : Option Content

structure Handle where
  file : Nat
  opening : Nat

/-- The files have numbers. A file keeps its number when it is renamed, and a
handle goes on writing to it. -/
structure Directory (Name Content : Type) where
  entries : Name → Option Nat
  file : Nat → File Content
  created : Nat
  openings : Nat
  entries_lt : ∀ {name file}, entries name = some file → file < created
  entries_injective : ∀ {name other file}, entries name = some file → entries other = some file → name = other

variable {Name Content : Type}

def Directory.empty : Directory Name Content where
  entries _ := none
  file _ := ⟨0, none⟩
  created := 0
  openings := 0
  entries_lt h := by cases h
  entries_injective h := by cases h

/-- The file of this name, or the one that would be created. -/
def Directory.file_of (directory : Directory Name Content) (name : Name) : Nat :=
  (directory.entries name).getD directory.created

/-- What is found in the file of this name. -/
def Directory.read (directory : Directory Name Content) (name : Name) : Option Content :=
  (directory.entries name).bind fun file => (directory.file file).content

/-- No two names lead to the file of a name. -/
theorem Directory.name_of_file_of {directory : Directory Name Content} {name other : Name}
    (h : directory.entries other = some (directory.file_of name)) : other = name := by
  unfold Directory.file_of at h
  cases hentry : directory.entries name with
  | none =>
    rw [hentry] at h
    exact absurd (directory.entries_lt h) (Nat.lt_irrefl _)
  | some file =>
    rw [hentry] at h
    exact directory.entries_injective h hentry

def Directory.set_content (directory : Directory Name Content) (file : Nat) (content : Option Content) :
    Directory Name Content :=
  { directory with
    file := Function.update directory.file file { directory.file file with content := content } }

/-- Printing: some of what the handle has been given may reach the file. -/
def Directory.write (directory : Directory Name Content) (handle : Handle) : Directory Name Content :=
  directory.set_content handle.file none

/-- Closing puts the rest into the file. What comes of that is known only if
the file has not been opened through another handle in the meantime. -/
def Directory.close (directory : Directory Name Content) (handle : Handle) (content : Option Content) :
    Directory Name Content :=
  directory.set_content handle.file
    (if (directory.file handle.file).opening = handle.opening then content else none)

/-- The handle is the last one that opened the file of this name. -/
structure Directory.Opened (directory : Directory Name Content) (name : Name) (handle : Handle) : Prop where
  entry : directory.entries name = some handle.file
  opening : (directory.file handle.file).opening = handle.opening

variable {directory directory' : Directory Name Content} {name other : Name} {handle : Handle}

theorem Directory.Opened.set_content (h : directory.Opened name handle) (content : Option Content) :
    (directory.set_content handle.file content).Opened name handle where
  entry := h.entry
  opening := by simp [Directory.set_content, h.opening]

theorem Directory.Opened.set_content_read_self (h : directory.Opened name handle) (content : Option Content) :
    (directory.set_content handle.file content).read name = content := by
  simp [Directory.read, Directory.set_content, h.entry]

/-- Writing to a file that was opened changes no file under another name. -/
theorem Directory.Opened.set_content_read_of_ne (h : directory.Opened name handle) (hne : other ≠ name)
    (content : Option Content) : (directory.set_content handle.file content).read other = directory.read other := by
  have hsame : (directory.set_content handle.file content).entries other = directory.entries other := rfl
  rw [Directory.read, Directory.read, hsame]
  cases hentry : directory.entries other with
  | none => rfl
  | some file =>
    have hfile : file ≠ handle.file := by
      rintro rfl
      exact hne (directory.entries_injective hentry h.entry)
    simp [Directory.set_content, Function.update_of_ne hfile]

/-- What a handle closes is in the file. -/
theorem Directory.Opened.close_read_self (h : directory.Opened name handle) (content : Option Content) :
    (directory.close handle content).read name = content := by
  rw [Directory.close, if_pos h.opening, h.set_content_read_self]

variable [DecidableEq Name]

/-- Opening for writing creates the file, or truncates it. -/
def Directory.truncate (directory : Directory Name Content) (name : Name) : Handle × Directory Name Content :=
  (⟨directory.file_of name, directory.openings⟩,
    { entries := Function.update directory.entries name (some (directory.file_of name))
      file := Function.update directory.file (directory.file_of name) ⟨directory.openings, none⟩
      created := max directory.created (directory.file_of name + 1)
      openings := directory.openings + 1
      entries_lt := by
        intro other file h
        rw [Function.update_apply] at h
        split at h
        · obtain rfl := Option.some.inj h
          exact Nat.lt_of_lt_of_le (Nat.lt_succ_self _) (Nat.le_max_right _ _)
        · exact Nat.lt_of_lt_of_le (directory.entries_lt h) (Nat.le_max_left _ _)
      entries_injective := by
        intro first second file hfirst hsecond
        rw [Function.update_apply] at hfirst hsecond
        split at hfirst <;> split at hsecond
        · rename_i h h'
          exact h.trans h'.symm
        · rename_i h _
          obtain rfl := Option.some.inj hfirst
          exact h.trans (directory.name_of_file_of hsecond).symm
        · rename_i _ h
          obtain rfl := Option.some.inj hsecond
          exact (directory.name_of_file_of hfirst).trans h.symm
        · exact directory.entries_injective hfirst hsecond })

/-- A file that has the new name is replaced. -/
def Directory.rename (directory : Directory Name Content) (old new : Name) : Option (Directory Name Content) :=
  match hold : directory.entries old with
  | none => none
  | some file => some
    { directory with
      entries := fun name => if name = new then some file else if name = old then none else directory.entries name
      entries_lt := by
        intro name other h
        split at h
        · obtain rfl := Option.some.inj h
          exact directory.entries_lt hold
        · split at h
          · cases h
          · exact directory.entries_lt h
      entries_injective := by
        have hother {name : Name} (hname : name ≠ old) (h : directory.entries name = some file) : False :=
          hname (directory.entries_injective h hold)
        intro first second other hfirst hsecond
        split at hfirst <;> split at hsecond
        · rename_i h h'
          exact h.trans h'.symm
        · split at hsecond
          · cases hsecond
          · rename_i hne
            exact (hother hne (hsecond.trans hfirst.symm)).elim
        · split at hfirst
          · cases hfirst
          · rename_i hne
            exact (hother hne (hfirst.trans hsecond.symm)).elim
        · split at hfirst
          · cases hfirst
          · split at hsecond
            · cases hsecond
            · exact directory.entries_injective hfirst hsecond }

theorem truncate_opened (directory : Directory Name Content) (name : Name) :
    (directory.truncate name).2.Opened name (directory.truncate name).1 where
  entry := Function.update_self _ _ _
  opening := by simp [Directory.truncate]

theorem truncate_entries_of_ne (h : other ≠ name) :
    (directory.truncate name).2.entries other = directory.entries other :=
  Function.update_of_ne h _ _

/-- Opening a file for writing changes no file under another name. -/
theorem truncate_read_of_ne (h : other ≠ name) : (directory.truncate name).2.read other = directory.read other := by
  rw [Directory.read, Directory.read, truncate_entries_of_ne h]
  cases hentry : directory.entries other with
  | none => rfl
  | some file =>
    have hfile : file ≠ directory.file_of name := by
      rintro rfl
      exact h (directory.name_of_file_of hentry)
    simp [Directory.truncate, Function.update_of_ne hfile]

/-- A file that exists gets the new name and loses the old one. -/
theorem rename_eq_some_iff {old new : Name} :
    directory.rename old new = some directory' ↔ ∃ file, directory.entries old = some file ∧
      directory'.entries = (fun name =>
        if name = new then some file else if name = old then none else directory.entries name) ∧
      directory'.file = directory.file ∧ directory'.created = directory.created ∧
      directory'.openings = directory.openings := by
  unfold Directory.rename
  constructor
  · intro h
    split at h
    · cases h
    · rename_i file hold
      obtain rfl := Option.some.inj h
      exact ⟨file, hold, rfl, rfl, rfl, rfl⟩
  · rintro ⟨file, hold, hentries, hfile, hcreated, hopenings⟩
    split
    · rename_i hnone
      rw [hold] at hnone
      cases hnone
    · rename_i file' hold'
      obtain rfl : file' = file := Option.some.inj (hold'.symm.trans hold)
      obtain ⟨entries, file_at, created, openings, _, _⟩ := directory'
      simp only at hentries hfile hcreated hopenings
      subst hentries hfile hcreated hopenings
      rfl

theorem rename_eq_none {old : Name} (h : directory.entries old = none) (new : Name) :
    directory.rename old new = none := by
  unfold Directory.rename
  split
  · rfl
  · rename_i hold
    rw [h] at hold
    cases hold

theorem rename_isSome {old : Name} (h : directory.entries old ≠ none) (new : Name) :
    (directory.rename old new).isSome := by
  unfold Directory.rename
  split
  · contradiction
  · rfl

theorem rename_entries_old {old new : Name} (h : directory.rename old new = some directory') (hne : old ≠ new) :
    directory'.entries old = none := by
  obtain ⟨_, _, hentries, _⟩ := rename_eq_some_iff.mp h
  rw [hentries]
  simp [hne]

theorem rename_entries_of_ne {old new : Name} (h : directory.rename old new = some directory') (hnew : other ≠ new)
    (hold : other ≠ old) : directory'.entries other = directory.entries other := by
  obtain ⟨_, _, hentries, _⟩ := rename_eq_some_iff.mp h
  rw [hentries]
  simp [hnew, hold]

/-- Files under other names stay what they are. -/
theorem rename_read_of_ne {old new : Name} (h : directory.rename old new = some directory') (hnew : other ≠ new)
    (hold : other ≠ old) : directory'.read other = directory.read other := by
  obtain ⟨_, _, _, hfiles, _⟩ := rename_eq_some_iff.mp h
  rw [Directory.read, Directory.read, rename_entries_of_ne h hnew hold, hfiles]

/-- The file is found under the new name as it was under the old one. -/
theorem rename_read_new {old new : Name} (h : directory.rename old new = some directory') :
    directory'.read new = directory.read old := by
  obtain ⟨file, hold, hentries, hfiles, _⟩ := rename_eq_some_iff.mp h
  rw [Directory.read, Directory.read, hentries, hold, hfiles]
  simp

end files
