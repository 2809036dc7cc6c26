import SessionGuard.Disk

/-!
# Writing

Directories are made on the way to a file, and the file is opened, written and given to its owner
only.  A file that is opened is emptied or made; what fails after that leaves it so, or with a part
of its text.  A call that fails says what it has left (`Failed`).
-/

namespace SessionGuard

/-- A call has failed for a cause, and has left things in some state. -/
structure Failed (ε σ : Type) where
  cause : ε
  left : σ

namespace Disk

/-! ## Directories -/

/-- One more directory. -/
def makeDirectory (d : Disk) (path : String) : Except FileError Disk := do
  let t ← d.locate path
  match d.find? t.location with
  | some _ => .error .alreadyExists
  | none =>
    if d.system.closed t.location.dropLast then .error .denied
    else .ok (d.put t.location .directory)

/-- A directory with all that lead to it, going up at most `fuel` times.  Nothing is wrong with one
that is there. -/
def makeDirectoriesWithin : Nat → Disk → String → Except FileError Disk
  | 0, _, _ => .error .missing
  | fuel + 1, d, path =>
    if path.isEmpty then .ok d
    else
      match d.makeDirectory path with
      | .ok d => .ok d
      | .error .missing =>
        match Path.parent? path with
        | none => .error (.other "failed to create whole tree")
        | some up => do
          let d ← makeDirectoriesWithin fuel d up
          match d.makeDirectory path with
          | .ok d => .ok d
          | .error e => if d.isDirectory path then .ok d else .error e
      | .error e => if d.isDirectory path then .ok d else .error e

/-- A directory with all that lead to it. -/
def makeDirectories (d : Disk) (path : String) : Except FileError Disk :=
  makeDirectoriesWithin (path.length + 1) d path

/-- The directories that lead to a path. -/
def makeParents (d : Disk) (path : String) : Except FileError Disk :=
  match Path.parent? path with
  | some up => d.makeDirectories up
  | none => .ok d

/-- The disk as a directory that cannot be made leaves it: some of those that lead to it have been
made. -/
def leftByDirectories : Nat → Disk → String → Disk
  | 0, d, _ => d
  | fuel + 1, d, path =>
    match d.makeDirectory path, Path.parent? path with
    | .error .missing, some up =>
      match makeDirectoriesWithin fuel d up with
      | .ok d => d
      | .error _ => leftByDirectories fuel d up
    | _, _ => d

/-- The disk as directories that lead to a path and cannot all be made leave it. -/
def leftByParents (d : Disk) (path : String) : Disk :=
  match Path.parent? path with
  | some up => leftByDirectories (up.length + 1) d up
  | none => d

/-! ## Files -/

/-- A file that is open for writing, on the disk that it has been opened on. -/
structure OpenFile where
  disk : Disk
  location : Location
  content : ByteArray
  mode : Mode

namespace OpenFile

/-- The disk with the file as it is now. -/
def settled (f : OpenFile) : Disk := f.disk.put f.location (.file f.content f.mode)

/-- Gives the file to its owner only. -/
def restrict (f : OpenFile) : Except (Failed FileError Disk) OpenFile :=
  if f.disk.system.mayChange f.mode then .ok { f with mode := .ownerOnly }
  else .error ⟨.notPermitted, f.settled⟩

/-- Writes a text to the file, from its beginning; a text that is too long is cut off. -/
def write (text : String) (f : OpenFile) : Except (Failed FileError Disk) OpenFile :=
  match f.disk.system.room f.location with
  | none => .ok { f with content := text.toUTF8 }
  | some size =>
    if text.utf8ByteSize ≤ size then .ok { f with content := text.toUTF8 }
    else .error ⟨.noSpace, OpenFile.settled { f with content := text.toUTF8.extract 0 size }⟩

end OpenFile

/-- Opens the file at a path for writing.  A file that is there is emptied, which takes the
permission to write it; a missing one is made with some permissions. -/
def openFile (d : Disk) (path : String) (bits : Nat) : Except FileError OpenFile := do
  let t ← d.locate path
  match d.find? t.location with
  | some .directory => .error .isDirectory
  | some (.file _ mode) =>
    if t.asDirectory then .error .notDirectory
    else if d.system.mayWrite mode then .ok ⟨d, t.location, .empty, mode⟩
    else .error .denied
  | none =>
    if t.asDirectory then .error .isDirectory
    else if d.system.closed t.location.dropLast then .error .denied
    else .ok ⟨d, t.location, .empty, d.system.fresh bits⟩

/-- How a file comes to be for its owner only. -/
inductive Care
  /-- It is made so, and given to its owner before anything is written. -/
  | before
  /-- It is written first. -/
  | after
  deriving DecidableEq

/-- The permissions that a new file is made with. -/
def Care.bits : Care → Nat
  | before => 0o600
  | after => 0o666

/-- Writes a text to a file that is open, and gives the file to its owner only. -/
def OpenFile.finish (f : OpenFile) (text : String) : Care → Except (Failed FileError Disk) OpenFile
  | .before => do
    let f ← f.restrict
    f.write text
  | .after => do
    let f ← f.write text
    f.restrict

/-- A file with a text in place of the one at a path, for its owner only. -/
def writeText (d : Disk) (care : Care) (path text : String) :
    Except (Failed FileError Disk) Disk :=
  match d.openFile path care.bits with
  | .error e => .error ⟨e, d⟩
  | .ok f => do
    let f ← f.finish text care
    .ok f.settled

/-- A file for its owner only, with the directories that lead to it. -/
def save (d : Disk) (care : Care) (path text : String) : Except (Failed FileError Disk) Disk :=
  match d.makeParents path with
  | .error e => .error ⟨e, d.leftByParents path⟩
  | .ok d => d.writeText care path text

/-- An entry in place of another one at a path, with the directories that lead to it.  A directory
that is there already stays as it is. -/
def place (d : Disk) (path : String) (e : Entry) : Except FileError Disk := do
  let d ← d.makeParents path
  let t ← d.locate path
  match e, d.find? t.location with
  | .directory, some .directory => .ok d
  | _, _ => .ok (d.put t.location e)

end Disk

end SessionGuard
