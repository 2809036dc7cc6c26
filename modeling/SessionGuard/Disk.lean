import SessionGuard.Disk.Mode
import SessionGuard.Disk.Path
import SessionGuard.Error

/-!
# Files and directories

A `Disk` is what the program can see of the file system: files with their bytes and permissions,
directories, the directory that relative paths start from, and what the system grants.  An entry is
there only where directories lead to it (`find?`).  Looking up a path fails as the system says it
does, and a file is read only by those who may read it.
-/

namespace SessionGuard

inductive Entry
  | file (content : ByteArray) (mode : Mode)
  | directory

/-- Files are the same if their bytes and their permissions are. -/
instance : DecidableEq Entry
  | .file ⟨bytes⟩ mode, .file ⟨bytes'⟩ mode' =>
    decidable_of_iff (bytes = bytes' ∧ mode = mode') (by simp)
  | .directory, .directory => isTrue rfl
  | .file _ _, .directory => isFalse nofun
  | .directory, .file _ _ => isFalse nofun

/-- The names of the directories from the root to an entry, and its own. -/
abbrev Location := List String

/-- What the system grants to the user of the program. -/
structure System where
  /-- The user is root, to whom no permissions apply. -/
  isRoot : Bool := false
  /-- The permissions that a new file is not given. -/
  umask : Nat := 0o022
  /-- Whether nothing can be made in a directory. -/
  closed : Location → Bool := fun _ => false
  /-- How many bytes the file at a location can take, if there is a limit. -/
  room : Location → Option Nat := fun _ => none

namespace System

def mayRead (s : System) (m : Mode) : Bool := s.isRoot || m.isReadable

def mayWrite (s : System) (m : Mode) : Bool := s.isRoot || m.isWritable

/-- Permissions are changed by the owner. -/
def mayChange (s : System) (m : Mode) : Bool := s.isRoot || m.user == .owner

/-- The permissions of a new file that is to have some. -/
def fresh (s : System) (bits : Nat) : Mode := ⟨bits &&& (0o777 ^^^ s.umask), .owner⟩

@[simp] theorem mayRead_ownerOnly (s : System) : s.mayRead .ownerOnly = true := by
  rw [mayRead, show Mode.ownerOnly.isReadable = true by decide, Bool.or_true]

@[simp] theorem mayWrite_ownerOnly (s : System) : s.mayWrite .ownerOnly = true := by
  rw [mayWrite, show Mode.ownerOnly.isWritable = true by decide, Bool.or_true]

@[simp] theorem mayChange_ownerOnly (s : System) : s.mayChange .ownerOnly = true := by
  rw [mayChange, show (Mode.ownerOnly.user == .owner) = true by decide, Bool.or_true]

@[simp] theorem mayChange_fresh (s : System) (bits : Nat) : s.mayChange (s.fresh bits) = true := by
  simp [mayChange, fresh]

end System

structure Disk where
  entries : List (Location × Entry)
  current : Location
  system : System := {}

namespace Disk

/-- What is recorded at a location; the root is always a directory. -/
def recorded? (d : Disk) (l : Location) : Option Entry :=
  if l.isEmpty then some .directory else (d.entries.find? fun e => e.1 == l).map (·.2)

/-- The entry at a location, if directories lead to it. -/
def find? (d : Disk) (l : Location) : Option Entry :=
  if (List.range l.length).all fun n => d.recorded? (l.take n) == some .directory then
    d.recorded? l
  else none

/-- A disk without the entry at a location and without all that is below it. -/
def remove (d : Disk) (l : Location) : Disk :=
  { d with entries := d.entries.filter fun x => !l.isPrefixOf x.1 }

/-- A disk with an entry put at a location, in place of the one there. -/
def put (d : Disk) (l : Location) (e : Entry) : Disk :=
  { d with entries := (d.remove l).entries ++ [(l, e)] }

/-! ## Looking up -/

/-- The directory that a part leads to. -/
def enter (d : Disk) (l : Location) (part : String) : Except FileError Location :=
  if part = "." then .ok l
  else if part = ".." then .ok l.dropLast
  else
    match d.find? (l ++ [part]) with
    | some .directory => .ok (l ++ [part])
    | some (.file ..) => .error .notDirectory
    | none => .error .missing

/-- Where a path leads: a location, and whether the path says that it is a directory. -/
structure Target where
  location : Location
  asDirectory : Bool

/-- The parts of a path that a look-up follows. -/
def steps (path : String) : List String :=
  ((Path.parts path).filter fun p => !p.isEmpty).map String.ofList

/-- Where a path starts. -/
def start (d : Disk) (path : String) : Location := if Path.isAbsolute path then [] else d.current

/-- Where a path leads.  It starts in a directory, and all parts but the last have to be
directories. -/
def locate (d : Disk) (path : String) : Except FileError Target :=
  if path.isEmpty || d.find? (d.start path) != some .directory then .error .missing
  else
    let steps := steps path
    match steps.getLast? with
    | none => .ok ⟨d.start path, true⟩
    | some last => do
      let l ← steps.dropLast.foldlM d.enter (d.start path)
      if last = "." then .ok ⟨l, true⟩
      else if last = ".." then .ok ⟨l.dropLast, true⟩
      else .ok ⟨l ++ [last], path.toList.getLast? == some '/'⟩

/-- The entry at a path. -/
def entry (d : Disk) (path : String) : Except FileError Entry := do
  let t ← d.locate path
  match d.find? t.location with
  | none => .error .missing
  | some (.file content mode) =>
    if t.asDirectory then .error .notDirectory else .ok (.file content mode)
  | some .directory => .ok .directory

def pathExists (d : Disk) (path : String) : Bool := (d.entry path).isOk

def isDirectory (d : Disk) (path : String) : Bool :=
  match d.entry path with
  | .ok .directory => true
  | _ => false

/-- The text of a file that the user may read. -/
def readText (d : Disk) (path : String) : Except FileError String := do
  match ← d.entry path with
  | .directory => .error .isDirectory
  | .file content mode =>
    if d.system.mayRead mode then
      match String.fromUTF8? content with
      | some text => .ok text
      | none => .error .notText
    else .error .denied

end Disk

end SessionGuard
