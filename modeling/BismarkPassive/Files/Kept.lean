import BismarkPassive.Files.Directory

namespace files

variable {Name Content : Type} {kept : Name → Prop} {directory directory' directory'' : Directory Name Content}
  {handle : Handle}

/-! Files that are left alone -/

/-- The files of these names are still there, or still missing, and hold what they held. -/
structure Directory.Keeps (kept : Name → Prop) (directory directory' : Directory Name Content) : Prop where
  entries : ∀ name, kept name → directory'.entries name = directory.entries name
  read : ∀ name, kept name → directory'.read name = directory.read name

/-- The handle writes to none of the files of these names. -/
def Handle.Apart (handle : Handle) (kept : Name → Prop) (directory : Directory Name Content) : Prop :=
  ∀ name, kept name → directory.entries name ≠ some handle.file

theorem Directory.Keeps.refl (directory : Directory Name Content) : directory.Keeps kept directory :=
  ⟨fun _ _ => rfl, fun _ _ => rfl⟩

theorem Directory.Keeps.trans (h : directory.Keeps kept directory') (h' : directory'.Keeps kept directory'') :
    directory.Keeps kept directory'' where
  entries name hname := (h'.entries name hname).trans (h.entries name hname)
  read name hname := (h'.read name hname).trans (h.read name hname)

theorem Handle.Apart.of_keeps (h : handle.Apart kept directory) (hkeeps : directory.Keeps kept directory') :
    handle.Apart kept directory' := by
  intro name hname
  rw [hkeeps.entries name hname]
  exact h name hname

theorem Handle.Apart.set_content (h : handle.Apart kept directory) (content : Option Content) :
    directory.Keeps kept (directory.set_content handle.file content) where
  entries _ _ := rfl
  read name hname := by
    have hsame : (directory.set_content handle.file content).entries name = directory.entries name := rfl
    rw [Directory.read, Directory.read, hsame]
    cases hentry : directory.entries name with
    | none => rfl
    | some file =>
      have hfile : file ≠ handle.file := by
        rintro rfl
        exact h name hname hentry
      simp [Directory.set_content, Function.update_of_ne hfile]

theorem Handle.Apart.write (h : handle.Apart kept directory) : directory.Keeps kept (directory.write handle) :=
  h.set_content none

theorem Handle.Apart.close (h : handle.Apart kept directory) (content : Option Content) :
    directory.Keeps kept (directory.close handle content) :=
  h.set_content _

variable [DecidableEq Name] {name old new : Name}

theorem truncate_keeps (h : ¬ kept name) : directory.Keeps kept (directory.truncate name).2 where
  entries _ hother := truncate_entries_of_ne fun heq => h (heq ▸ hother)
  read _ hother := truncate_read_of_ne fun heq => h (heq ▸ hother)

/-- A file that is opened under another name is another file. -/
theorem truncate_apart (h : ¬ kept name) : (directory.truncate name).1.Apart kept (directory.truncate name).2 := by
  intro other hother hentry
  obtain rfl := (directory.truncate name).2.entries_injective hentry (truncate_opened directory name).entry
  exact h hother

theorem rename_keeps (h : directory.rename old new = some directory') (hold : ¬ kept old) (hnew : ¬ kept new) :
    directory.Keeps kept directory' where
  entries _ hother := rename_entries_of_ne h (fun heq => hnew (heq ▸ hother)) fun heq => hold (heq ▸ hother)
  read _ hother := rename_read_of_ne h (fun heq => hnew (heq ▸ hother)) fun heq => hold (heq ▸ hother)

end files
