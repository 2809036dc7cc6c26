import Mathlib.Data.List.Nodup
import SessionGuard.Proofs.Yaml.Contents

/-!
# Values that are read again

An outline is null, a boolean, an integer of 64 bits, a text, or a mapping from names to outlines.  Each
is a content (`Content.exists_of_isOutline`), and so it is read again behind a name.
-/

namespace SessionGuard.Yaml

namespace Value

/-- Whether a key is a name that stands before a colon as it is. -/
def isName : Value → Bool
  | string s => decide (IsName s)
  | _ => false

theorem exists_of_isName {k : Value} (h : k.isName = true) :
    ∃ name, k = .string name ∧ IsName name := by
  cases k with
  | string name => exact ⟨name, rfl, of_decide_eq_true h⟩
  | _ => cases h

/-- Whether a value is a scalar, reals apart, or a mapping from names to such values, with at most
`depth` mappings in each other. -/
def isOutline : Nat → Value → Bool
  | _, null => true
  | _, bool _ => true
  | _, int n => -(Nat.pow 2 63 : Int) ≤ n && n < UInt64.size
  | _, string _ => true
  | depth + 1, mapping entries =>
    !entries.isEmpty && decide (entries.map Prod.fst).Nodup &&
      entries.all fun e => e.1.isName && isOutline depth e.2
  | _, _ => false

end Value

/-- Values that are each written in a field are written in fields together. -/
theorem Field.exists_map_eq {β : Type} {out : Field → β} {n : Nat} {bs : List β}
    (h : ∀ b ∈ bs, ∃ f : Field, f.content.height ≤ n ∧ out f = b) :
    ∃ fs : List Field, height fs ≤ n ∧ fs.map out = bs := by
  induction bs with
  | nil => exact ⟨[], Nat.zero_le n, rfl⟩
  | cons b bs ih =>
    obtain ⟨f, hf, rfl⟩ := h b (by simp)
    obtain ⟨fs, hfs, rfl⟩ := ih fun b hb => h b (by simp [hb])
    exact ⟨f :: fs, Nat.max_le.2 ⟨hf, hfs⟩, rfl⟩

namespace Content

def null : Content :=
  .scalar .null "null" .plain rfl (shows_word (by decide) (by decide)) rfl

/-- An outline is a content. -/
theorem exists_of_isOutline {depth : Nat} {v : Value} (h : v.isOutline depth = true) :
    ∃ c : Content, c.value = v ∧ c.height ≤ depth := by
  fun_induction Value.isOutline depth v with
  | case1 depth => exact ⟨null, rfl, Nat.zero_le depth⟩
  | case2 depth b => exact ⟨flag b, rfl, Nat.zero_le depth⟩
  | case3 depth n =>
    simp only [Bool.and_eq_true, decide_eq_true_eq] at h
    exact ⟨integer n h.1 h.2, rfl, Nat.zero_le depth⟩
  | case4 depth s => exact ⟨text s, rfl, Nat.zero_le depth⟩
  | case5 depth entries ih =>
    simp only [Bool.and_eq_true, decide_eq_true_eq, List.all_eq_true] at h
    obtain ⟨⟨hne, hnodup⟩, hentries⟩ := h
    have hpairs : ∀ e ∈ entries, ∃ f : Field, f.content.height ≤ depth ∧ f.pair = e := by
      rintro ⟨k, v⟩ he
      obtain ⟨hkey, hv⟩ := hentries (k, v) he
      obtain ⟨name, rfl, hname⟩ := Value.exists_of_isName hkey
      obtain ⟨c, rfl, hc⟩ := ih (_, v) hv
      exact ⟨⟨name, hname, c⟩, hc, rfl⟩
    obtain ⟨fs, hheight, rfl⟩ := Field.exists_map_eq hpairs
    have hnames : (fs.map Field.name).Nodup := by
      refine List.Nodup.of_map Value.string ?_
      rw [List.map_map] at hnodup ⊢
      exact hnodup
    exact ⟨block fs (by simpa using hne) hnames, rfl, Nat.succ_le_succ hheight⟩
  | case6 => cases h

end Content

end SessionGuard.Yaml
