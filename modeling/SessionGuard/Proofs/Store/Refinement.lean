import Mathlib.Data.List.Induction
import SessionGuard.Proofs.Store.Fields
import SessionGuard.Proofs.Store.Written

/-!
# The file store behaves like the memory store

Whatever is set and cleared, a store in a file holds the token that a store in memory holds
(`file_refines_memory`), and its file is all it remembers.  Only an empty token makes a difference:
in a file it counts for none.
-/

namespace SessionGuard

namespace Store

open SessionFile (Entries tokenKey)

/-- What is done to a store. -/
inductive Write
  | set (token : Token)
  | clear
  deriving DecidableEq

/-- The token that is held after a write. -/
def Write.token? : Write → Option Token
  | set token => some token
  | clear => none

def write (s : Store) : Write → Except (Failed StoreError Store) Store
  | .set token => s.set token
  | .clear => .ok s.clear

/-- The store after writes, one after the other. -/
def writes (s : Store) (ws : List Write) : Except (Failed StoreError Store) Store :=
  ws.foldlM write s

/-- The token of the last write. -/
def lastToken? (ws : List Write) : Option Token := ws.getLast?.bind Write.token?

theorem lastToken?_concat (ws : List Write) (w : Write) : lastToken? (ws ++ [w]) = w.token? := by
  simp [lastToken?]

theorem writes_append {s s' : Store} {before after : List Write} (h : s.writes before = .ok s') :
    s.writes (before ++ after) = s'.writes after := by
  unfold writes at h ⊢
  rw [List.foldlM_append, h]
  rfl

theorem writes_singleton (s : Store) (w : Write) : s.writes [w] = s.write w := by
  simp [writes]

/-! ## In memory -/

theorem write_memory (held : Option Token) (w : Write) :
    (memory held).write w = .ok (memory w.token?) := by
  cases w <;> rfl

/-- A store in memory holds the token of the last write. -/
theorem writes_memory (ws : List Write) :
    (memory none).writes ws = .ok (memory (lastToken? ws)) := by
  induction ws using List.reverseRecOn with
  | nil => rfl
  | append_singleton ws w ih =>
    rw [writes_append ih, writes_singleton, write_memory, lastToken?_concat]

/-! ## In a file -/

/-- The entries of a file that keeps nothing but a token. -/
def entriesOf : Option Token → Entries
  | some token => [(tokenKey, .string token.text)]
  | none => []

theorem insert_entriesOf (old : Option Token) (new : Token) :
    Sorted.insert tokenKey (.string new.text) (entriesOf old) = entriesOf (some new) := by
  cases old <;> rfl

theorem erase_entriesOf (old : Option Token) :
    Sorted.erase tokenKey (entriesOf old) = entriesOf none := by
  cases old <;> rfl

theorem get?_entriesOf (old : Option Token) :
    Sorted.get? tokenKey (entriesOf old) = old.map fun t => .string t.text := by
  cases old <;> rfl

theorem encode_entriesOf (token : Option Token) :
    SessionFile.encode (entriesOf token) = .ok (Yaml.render (entriesOf token)) := by
  cases token <;> rfl

/-- The text of the entries stands for them, whatever the token is. -/
theorem decode?_render_entriesOf (token : Option Token) :
    SessionFile.decode? (Yaml.render (entriesOf token)) = some (entriesOf token) := by
  cases token with
  | none => exact decode?_render_nil
  | some token => exact SessionFile.decode?_render_token token.text

/-- A file that can be written and keeps nothing but a token. -/
structure KeepsOnly (disk : Disk) (path : String) (token : Option Token) : Prop where
  writable : disk.Writable path
  entries : entries? disk path = some (entriesOf token)

variable {disk : Disk} {path : String} {token : Option Token}

/-- A missing file keeps nothing. -/
theorem keepsOnly_none (hmissing : disk.pathExists path = false) (hw : disk.Writable path) :
    KeepsOnly disk path none :=
  ⟨hw, by simp [entries?, hmissing, entriesOf]⟩

/-- The file that is written for a token keeps nothing but it. -/
theorem exists_keepsOnly_save (hw : disk.Writable path) (token : Option Token) :
    ∃ d, save disk path (entriesOf token) = .ok d ∧ KeepsOnly d path token := by
  obtain ⟨d, hd⟩ := hw .before (Yaml.render (entriesOf token))
  have hs : save disk path (entriesOf token) = .ok d :=
    save_eq_ok_iff.2 ⟨_, encode_entriesOf token, hd⟩
  exact ⟨d, hs, hw.save hd, (entries?_save hs).trans (decode?_render_entriesOf token)⟩

namespace KeepsOnly

/-- An empty token in a file counts for none. -/
theorem get? (h : KeepsOnly disk path token) :
    (file path disk).get? = token.filter fun t => t.text ≠ "" := by
  simp only [Store.get?, h.entries, Option.bind_some]
  cases token with
  | none => rfl
  | some token =>
    by_cases ht : token.text = "" <;>
      simp [tokenOf?, get?_entriesOf, Option.filter, ht]

/-- A write leaves nothing but its own token in a file. -/
theorem write (h : KeepsOnly disk path token) (w : Write) :
    ∃ d, (file path disk).write w = .ok (file path d) ∧ KeepsOnly d path w.token? := by
  obtain ⟨d, hd, hk⟩ := exists_keepsOnly_save h.writable w.token?
  cases w with
  | set new =>
    refine ⟨d, ?_, hk⟩
    simp only [Write.token?] at hd
    simp only [Store.write, set, setFile, h.entries, Option.getD_some, insert_entriesOf, hd]
  | clear =>
    simp only [Write.token?] at hd
    cases token with
    | none =>
      -- nothing is written where there is no token
      exact ⟨disk, by simp [Store.write, clear, clearFile, h.entries, get?_entriesOf], h⟩
    | some old =>
      refine ⟨d, ?_, hk⟩
      simp only [Store.write, clear, clearFile, h.entries, get?_entriesOf, Option.map_some,
        erase_entriesOf, hd]

/-- Writes leave nothing but the token of the last one in a file. -/
theorem writes (h : KeepsOnly disk path none) (ws : List Write) :
    ∃ d, (file path disk).writes ws = .ok (file path d) ∧ KeepsOnly d path (lastToken? ws) := by
  induction ws using List.reverseRecOn with
  | nil => exact ⟨disk, rfl, h⟩
  | append_singleton ws w ih =>
    obtain ⟨d, hd, hk⟩ := ih
    obtain ⟨d', hd', hk'⟩ := hk.write w
    refine ⟨d', ?_, by rwa [lastToken?_concat]⟩
    rw [writes_append hd, writes_singleton, hd']

end KeepsOnly

/-! ## One behaves like the other -/

/-- Whatever is set and cleared, a store that starts without its file holds what a store in memory
holds, except that it holds no empty token; and it can be opened anew at any time. -/
theorem file_refines_memory (hmissing : disk.pathExists path = false)
    (hwritable : disk.Writable path) (ws : List Write) :
    (memory none).writes ws = .ok (memory (lastToken? ws)) ∧
      ∃ d, (file path disk).writes ws = .ok (file path d) ∧
        (file path d).get? = (memory (lastToken? ws)).get?.filter (fun t => t.text ≠ "") ∧
        ∀ before after, ws = before ++ after →
          ∃ d', (file path disk).writes before = .ok (file path d') ∧
            (file path d').writes after = .ok (file path d) := by
  have hstart := keepsOnly_none hmissing hwritable
  obtain ⟨d, hd, hk⟩ := hstart.writes ws
  refine ⟨writes_memory ws, d, hd, hk.get?, ?_⟩
  rintro before after rfl
  obtain ⟨d', hd', -⟩ := hstart.writes before
  exact ⟨d', hd', by rw [← writes_append hd', hd]⟩

/-- On a disk with nothing on it, a file can be written. -/
theorem writable_session : ({ entries := [], current := [] } : Disk).Writable "session.yaml" :=
  (Disk.whole_of_owned rfl (List.forall_mem_nil _)).writable (by rfl)
    (.new (l := ["session.yaml"]) (by rfl) (by rfl) rfl)

/-- A token with blanks and a line break at its ends is there behind one that reads like null, though
the store is opened anew in between. -/
theorem file_refines_memory_for_awkward_tokens :
    let disk : Disk := { entries := [], current := [] }
    let ws : List Write := [.set ⟨"null"⟩, .clear, .set ⟨" a: '#\n"⟩]
    disk.pathExists "session.yaml" = false ∧ disk.Writable "session.yaml" ∧
      ∃ d d', (file "session.yaml" disk).writes (ws.take 1) = .ok (file "session.yaml" d') ∧
        (file "session.yaml" d').writes (ws.drop 1) = .ok (file "session.yaml" d) ∧
        (file "session.yaml" d).get? = some ⟨" a: '#\n"⟩ := by
  intro disk ws
  have hmissing : disk.pathExists "session.yaml" = false := by decide +kernel
  obtain ⟨-, d, -, hget, hreopen⟩ := file_refines_memory hmissing writable_session ws
  obtain ⟨d', hbefore, hafter⟩ := hreopen (ws.take 1) (ws.drop 1) (List.take_append_drop 1 ws).symm
  have hlast : (memory (lastToken? ws)).get?.filter (fun t => t.text ≠ "") =
      some ⟨" a: '#\n"⟩ := by decide +kernel
  exact ⟨hmissing, writable_session, d, d', hbefore, hafter, hget.trans hlast⟩

/-- A store in a file does not hold an empty token that a store in memory holds. -/
theorem empty_token_fails_refinement :
    let disk : Disk := { entries := [], current := [] }
    disk.pathExists "session.yaml" = false ∧ disk.Writable "session.yaml" ∧
      ((memory none).writes [.set ⟨""⟩]).map Store.get? = .ok (some ⟨""⟩) ∧
      ((file "session.yaml" disk).writes [.set ⟨""⟩]).map Store.get? = .ok none := by
  intro disk
  have hmissing : disk.pathExists "session.yaml" = false := by decide +kernel
  obtain ⟨d, hd, hk⟩ := (keepsOnly_none hmissing writable_session).writes [.set ⟨""⟩]
  have hget : (file "session.yaml" d).get? = none := hk.get?.trans (by decide +kernel)
  exact ⟨hmissing, writable_session, rfl, by rw [hd, Except.map, hget]⟩

end Store

end SessionGuard
