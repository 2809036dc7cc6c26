import SessionGuard.Credentials
import SessionGuard.Disk.Writing
import SessionGuard.Store.SessionFile

/-!
# The token store

A store keeps at most one token, in memory or in the session file.  `get?` never fails: a file
that cannot be read holds no token.  `set` may fail, and says then how it has left the store; `clear`
leaves it so without a word.
-/

namespace SessionGuard

open SessionFile (Entries tokenKey)

/-- A token kept in memory, or in the file at a path. -/
inductive Store
  | memory (token : Option Token)
  | file (path : String) (disk : Disk)

namespace Store

/-! ## In a file -/

/-- The entries of the session file; a missing file has none, and an unreadable one no answer. -/
def entries? (disk : Disk) (path : String) : Option Entries :=
  if disk.pathExists path then
    match disk.readText path with
    | .ok text => SessionFile.decode? text
    | .error _ => none
  else some []

/-- The token among entries: a text that is not empty. -/
def tokenOf? (entries : Entries) : Option Token :=
  match Sorted.get? tokenKey entries with
  | some (.string text) => if text.isEmpty then none else some ⟨text⟩
  | _ => none

/-- The disk with entries in the session file. -/
def save (disk : Disk) (path : String) (entries : Entries) : Except (Failed StoreError Disk) Disk :=
  match disk.makeParents path with
  | .error e => .error ⟨.file path e, disk.leftByParents path⟩
  | .ok disk =>
    match SessionFile.encode entries with
    | .error reason => .error ⟨.encoding reason, disk⟩
    | .ok text =>
      match disk.writeText .before path text with
      | .error f => .error ⟨.file path f.cause, f.left⟩
      | .ok disk => .ok disk

/-- The disk with a token in the session file; a file that cannot be read is replaced. -/
def setFile (disk : Disk) (path : String) (token : Token) : Except (Failed StoreError Disk) Disk :=
  let entries := (entries? disk path).getD []
  save disk path (Sorted.insert tokenKey (.string token.text) entries)

/-- The disk without a token in the session file.  A file without the key stays as it is, and one
that cannot be read is emptied; where that fails, the disk is as the failure leaves it. -/
def clearFile (disk : Disk) (path : String) : Disk :=
  let kept? :=
    match entries? disk path with
    | some entries =>
      match Sorted.get? tokenKey entries with
      | some _ => some (Sorted.erase tokenKey entries)
      | none => none
    | none => some []
  match kept? with
  | none => disk
  | some entries =>
    match save disk path entries with
    | .ok disk => disk
    | .error f => f.left

/-! ## In either place -/

/-- The token in the store. -/
def get? : Store → Option Token
  | memory token => token
  | file path disk => (entries? disk path).bind tokenOf?

/-- The store with a token. -/
def set (token : Token) : Store → Except (Failed StoreError Store) Store
  | memory _ => .ok (memory (some token))
  | file path disk =>
    match setFile disk path token with
    | .ok disk => .ok (file path disk)
    | .error f => .error ⟨f.cause, file path f.left⟩

/-- The store without a token. -/
def clear : Store → Store
  | memory _ => memory none
  | file path disk => file path (clearFile disk path)

/-- The disk of a store that has one. -/
def disk? : Store → Option Disk
  | memory _ => none
  | file _ disk => some disk

/-- The store with its disk changed. -/
def mapDisk (f : Disk → Disk) : Store → Store
  | memory token => memory token
  | file path disk => file path (f disk)

/-- The store with an entry where its file is; one in memory has no file. -/
def placeFile (entry : Entry) : Store → Store
  | memory token => memory token
  | file path disk => file path ((disk.place path entry).toOption.getD disk)

@[simp] theorem get?_memory (t : Option Token) : (memory t).get? = t := rfl

@[simp] theorem clear_memory (t : Option Token) : (memory t).clear = memory none := rfl

@[simp] theorem set_memory (t : Option Token) (token : Token) :
    (memory t).set token = .ok (memory (some token)) := rfl

/-- Only in a file a token cannot be set. -/
theorem set_eq_error {s : Store} {token : Token} {f : Failed StoreError Store}
    (h : s.set token = .error f) :
    ∃ path disk left, s = .file path disk ∧ setFile disk path token = .error ⟨f.cause, left⟩ ∧
      f.left = .file path left := by
  cases s with
  | memory held => cases h
  | file path disk =>
    simp only [set] at h
    cases hs : setFile disk path token with
    | ok disk' => rw [hs] at h; cases h
    | error e =>
      rw [hs] at h
      cases h
      exact ⟨path, disk, e.left, rfl, hs, rfl⟩

end Store

end SessionGuard
