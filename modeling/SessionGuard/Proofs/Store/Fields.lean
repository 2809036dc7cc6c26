import SessionGuard.Proofs.Yaml.Contents
import SessionGuard.Store.SessionFile

/-!
# Session files of names

A session file whose entries are names with scalars and blocks of names is read again
(`decode?_render`).  So is a file with nothing but a token, whatever its text is
(`decode?_render_token`).
-/

namespace SessionGuard.SessionFile

open Yaml

variable {fs : List Field}

theorem isBlank_of_isKeyChar {d : Char} (h : isKeyChar d = true) : Text.isBlank d = false := by
  simp only [isKeyChar, Bool.or_eq_true, Bool.and_eq_true, decide_eq_true_eq] at h
  rcases h with ⟨ha, hz⟩ | rfl
  · have ha : 97 ≤ d.toNat := ha
    have hz : d.toNat ≤ 122 := hz
    simp only [Text.isBlank, Bool.or_eq_false_iff, Bool.and_eq_false_iff, decide_eq_false_iff_not,
      beq_eq_false_iff_ne]
    omega
  · rfl

theorem trim_ne_empty {text : String} {d : Char} {ds : List Char} (h : text.toList = d :: ds)
    (hd : Text.isBlank d = false) : Text.trim text ≠ "" := by
  intro ht
  have hdrop : (d :: ds).dropWhile Text.isBlank = d :: ds := by simp [hd]
  rw [Text.trim, h, hdrop, String.ofList_eq_empty_iff, Text.dropTrailing_eq_nil] at ht
  simp [hd] at ht

/-- The text of a document of names is no blank text. -/
theorem trim_render_ne_empty (hne : fs ≠ []) (hheight : Field.height fs < maxWriteDepth) :
    Text.trim (render (fs.map Field.value)) ≠ "" := by
  have htext := Field.toList_render hne hheight
  obtain ⟨f, fs, rfl⟩ := List.exists_cons_of_ne_nil hne
  obtain ⟨d, ds, hds⟩ := List.exists_cons_of_ne_nil f.isName.isKey.ne_nil
  have hd := f.isName.isKey.chars d (by simp [hds])
  rw [List.flatMap_cons, Field.lines, hds] at htext
  exact trim_ne_empty htext (isBlank_of_isKeyChar hd)

/-- A document of names has their values. -/
theorem run_entriesOf (hheight : Field.height fs < Document.maxDepth)
    (hasc : Sorted.Ascending (fs.map Field.value)) {d : Document}
    (hroot : d.root = some (.mapping .empty (fs.map Field.node))) :
    Document.run (entriesOf d) = some (fs.map Field.value) := by
  have hentries : d.rootEntries = pure (fs.map Field.node) := by
    rw [Document.rootEntries, hroot]
    rfl
  have hread : ((fs.map Field.node).mapM fun f => do
      let k ← d.text f.1
      let v ← d.value (Document.maxDepth - 1) false f.2
      pure (k, v)) = (pure (fs.map Field.value) : Document.Reader _) :=
    Field.mapM_node fun f hf => by
      have hle := Nat.le_sub_one_of_lt (Nat.lt_of_le_of_lt (Field.height_of_mem hf) hheight)
      have hvalue : d.value (Document.maxDepth - 1) false f.node.2 = pure f.content.value :=
        f.content.reads d hle
      simp [Field.text_node, hvalue, Field.value]
  simp only [entriesOf, hentries, pure_bind, hread, Sorted.ofList_of_ascending hasc]
  rfl

/-- A session file of names is read again. -/
theorem decode?_render (hne : fs ≠ []) (hheight : Field.height fs < Document.maxDepth)
    (hasc : Sorted.Ascending (fs.map Field.value)) :
    decode? (render (fs.map Field.value)) = some (fs.map Field.value) := by
  have hwrite : Field.height fs < maxWriteDepth := Nat.lt_trans hheight (by decide)
  obtain ⟨limit, hdoc⟩ := Field.ofString?_render hne hwrite
  rw [decode?, if_neg (trim_render_ne_empty hne hwrite), hdoc, Option.bind_eq_bind, Option.bind_some,
    run_entriesOf hheight hasc rfl]

theorem isName_tokenKey : IsName tokenKey := by decide +kernel

/-- The token as an entry of a document. -/
def tokenField (s : String) : Field := ⟨tokenKey, isName_tokenKey, .text s⟩

/-- A session file with nothing but a token is read again, whatever the token is. -/
theorem decode?_render_token (s : String) :
    decode? (render [(tokenKey, .string s)]) = some [(tokenKey, .string s)] := by
  have hvalues : [tokenField s].map Field.value = [(tokenKey, .string s)] := rfl
  have hheight : Field.height [tokenField s] < Document.maxDepth := Nat.zero_lt_succ 127
  have hasc : Sorted.Ascending ([tokenField s].map Field.value) := List.pairwise_singleton _ _
  rw [← hvalues]
  exact decode?_render (List.cons_ne_nil _ _) hheight hasc

end SessionGuard.SessionFile
