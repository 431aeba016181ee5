import InstanceInventory.Proofs.Session
import InstanceInventory.Store

/-! # Where files cannot be used

* `Store.Denies`: the files refuse a step of an edit, which ends with a fault.
* `Store.Bars`: the lock cannot be had, since the files refuse it or another process holds it.
-/

namespace InstanceInventory.Store
set_option autoImplicit false
variable {st : Store} {s : Session} {f : Fault}

/-- The files refuse a step of an edit, which ends with a fault. Where they refuse nothing of this
kind no edit ends so. -/
inductive Denies (st : Store) (s : Session) : Fault → Prop
  /-- It cannot be told whether the document is there. -/
  | unseen {e : FileFault} (h : st.isPresent s = .error e) : Denies st s (.file e)
  /-- The document is there, and cannot be read. -/
  | unread {e : FileFault} (hpresent : st.isPresent s = .ok true)
    (h : s.files.readText (s.locate st.path) = .error e) :
    Denies st s (.plain .general ("Failed to read " ++ st.path.text))
  /-- A directory cannot be made. -/
  | unmade {p : Files.Path} {e : FileFault}
    (hp : p = st.path.parent ∨ p = st.lockPath.parent ∨ p = st.backupDirectory)
    (h : s.files.makeDirectories (s.locate p) = .error e) : Denies st s (.file e)
  /-- The directory of the document is there, with no room for the file that takes its place. -/
  | unstaged {e : FileFault} (hdir : s.files.hasDirectory (s.site st.path.parent) = true)
    (h : s.files.place (s.locate st.stagingPath) = .error e) : Denies st s (.file e)
  /-- The directory of the document is there, and the document cannot be replaced. -/
  | unwritten {text : String} {e : FileFault}
    (hdir : s.files.hasDirectory (s.site st.path.parent) = true)
    (h : replace s.files (s.locate st.path) text = .error e) :
    Denies st s (.plain .general ("Failed to write " ++ st.path.text))
  /-- No free name is found for a copy. -/
  | unnamed {e : FileFault} (h : freeName (st.backupBase s.moment) s = .error e) :
    Denies st s (.file e)
  /-- The document and the directory of the copies are there, and the document cannot be copied under
  the name that was found. -/
  | uncopied {copy : Files.Path} {e : FileFault} (hpresent : st.isPresent s = .ok true)
    (hdir : s.files.hasDirectory (s.site st.backupDirectory) = true)
    (hcopy : freeName (st.backupBase s.moment) s = .ok copy)
    (h : s.files.copyFile (s.locate st.path) (s.locate copy) = .error e) : Denies st s (.file e)
  /-- The directory of the lock is there, and the file of the lock cannot be written. -/
  | unlocked {bytes : ByteArray} {e : FileFault}
    (hdir : s.files.hasDirectory (s.site st.lockPath.parent) = true)
    (h : s.files.writeBytes (s.locate st.lockPath) bytes = .error e) : Denies st s (.file e)

/-- The lock cannot be had: the files refuse it, or another process holds it. -/
def Bars (st : Store) (s : Session) (f : Fault) : Prop :=
  st.Denies s f ∨ s.isLockedElsewhere = true ∧ ∃ wording, f = .plain .lockTimeout wording

theorem Denies.of_copyFile {copy : Files.Path} {e : FileFault} (hpresent : st.isPresent s = .ok true)
    (hdir : s.files.hasDirectory (s.site st.backupDirectory) = true)
    (hcopy : freeName (st.backupBase s.moment) s = .ok copy)
    (h : (s.files.copyFile (s.locate st.path) (s.locate copy)).map Prod.fst = .error e) :
    st.Denies s (.file e) := by
  cases hcopied : s.files.copyFile (s.locate st.path) (s.locate copy) with
  | ok result =>
    rw [hcopied] at h
    cases h
  | error e' =>
    rw [hcopied] at h
    cases h
    exact .uncopied hpresent hdir hcopy hcopied

theorem Denies.isAccess (h : st.Denies s f) : f.IsAccess := by
  cases h with
  | _ => trivial

/-- Who gives the lock back finds the files as they are. -/
theorem Denies.released (h : st.Denies s f) : st.Denies { s with holdsLock := false } f := by
  cases h with
  | unseen h => exact .unseen h
  | unread hpresent h => exact .unread hpresent h
  | unmade hp h => exact .unmade hp h
  | unstaged hdir h => exact .unstaged hdir h
  | unwritten hdir h => exact .unwritten hdir h
  | unnamed h => exact .unnamed h
  | uncopied hpresent hdir hcopy h => exact .uncopied hpresent hdir hcopy h
  | unlocked hdir h => exact .unlocked hdir h

end InstanceInventory.Store
