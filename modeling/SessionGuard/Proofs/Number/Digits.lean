import SessionGuard.Json.Numeral

/-!
# The digits of a number

No number but zero starts with the digit zero (`head?_toDigits`), and the digits of a number spell it
(`digitsValue_toDigits`); no other digits do that without a zero in front (`toDigits_digitsValue`).
-/

namespace SessionGuard.Number

theorem ne_of_isDigit {d e : Char} (h : d.isDigit = true) (he : e.isDigit = false) : d ≠ e := by
  rintro rfl
  rw [h] at he
  cases he

/-- No number but zero starts with the digit zero. -/
theorem head?_toDigits {n : Nat} (hn : 0 < n) : (Nat.toDigits 10 n).head? ≠ some '0' := by
  induction n using Nat.strongRecOn with
  | ind n ih =>
    by_cases hten : n < 10
    · rw [Nat.toDigits_of_lt_base hten]
      have hdigit : ∀ k < 10, 0 < k → [Nat.digitChar k].head? ≠ some '0' := by decide
      exact hdigit n hten hn
    · have hfirst := ih (n / 10) (by omega) (by omega)
      obtain ⟨d, ds, hds⟩ := List.exists_cons_of_ne_nil (Nat.toDigits_ne_nil (n := n / 10) (b := 10))
      rw [Nat.toDigits_of_base_le (by decide) (by omega), hds]
      rw [hds] at hfirst
      simpa using hfirst

open Json.Numeral (digitsValue)

/-- The digits of a number spell it. -/
theorem digitsValue_toDigits (n : Nat) : digitsValue (Nat.toDigits 10 n) = n := by
  have hdigit : ∀ k < 10, (Nat.digitChar k).toNat - 48 = k := by decide
  induction n using Nat.strongRecOn with
  | ind n ih =>
    by_cases hten : n < 10
    · rw [Nat.toDigits_of_lt_base hten]
      simpa [digitsValue] using hdigit n hten
    · have hfirst := ih (n / 10) (by omega)
      unfold digitsValue at hfirst ⊢
      rw [Nat.toDigits_of_base_le (by decide) (by omega), List.foldl_append, hfirst, List.foldl_cons,
        List.foldl_nil, hdigit _ (Nat.mod_lt n (by decide))]
      omega

theorem digitChar_of_isDigit {d : Char} (h : d.isDigit = true) :
    d.toNat - 48 < 10 ∧ Nat.digitChar (d.toNat - 48) = d := by
  have hrange : 48 ≤ d.toNat ∧ d.toNat ≤ 57 := by simpa [Char.isDigit, UInt32.le_iff_toNat_le] using h
  have hall : ∀ k < 10, Nat.digitChar k = Char.ofNat (k + 48) := by decide
  refine ⟨by omega, ?_⟩
  rw [hall _ (by omega), Nat.sub_add_cancel hrange.1, Char.ofNat_toNat]

/-- Digits behind a number above zero are those of a larger one. -/
theorem toDigits_append {acc : Nat} {ds : List Char} (hacc : 0 < acc)
    (h : ∀ d ∈ ds, d.isDigit = true) :
    Nat.toDigits 10 acc ++ ds =
      Nat.toDigits 10 (ds.foldl (fun n d => 10 * n + (d.toNat - 48)) acc) := by
  induction ds generalizing acc with
  | nil => simp
  | cons d ds ih =>
    obtain ⟨hk, hd⟩ := digitChar_of_isDigit (h d (by simp))
    have hpos : 0 < 10 * acc + (d.toNat - 48) := by omega
    have hrest := ih hpos fun c hc => h c (by simp [hc])
    have hone := Nat.toDigits_append_toDigits (b := 10) (by decide) hacc hk
    rw [Nat.toDigits_of_lt_base hk, hd] at hone
    rw [List.foldl_cons, ← hrest, ← hone, List.append_assoc, List.singleton_append]

/-- Digits without zeros in front are those of the number they spell. -/
theorem toDigits_digitsValue {ds : List Char} (hne : ds ≠ []) (h : ∀ d ∈ ds, d.isDigit = true)
    (hzero : ds.head? = some '0' → ds = ['0']) : Nat.toDigits 10 (digitsValue ds) = ds := by
  obtain ⟨d, ds, rfl⟩ := List.exists_cons_of_ne_nil hne
  obtain ⟨hk, hd⟩ := digitChar_of_isDigit (h d (by simp))
  by_cases hpos : 0 < d.toNat - 48
  · have hall := toDigits_append hpos fun c hc => h c (List.mem_cons_of_mem d hc)
    rw [Nat.toDigits_of_lt_base hk, hd] at hall
    simpa [digitsValue] using hall.symm
  · have hchar : d = '0' := by
      rw [← hd, Nat.eq_zero_of_not_pos hpos]
      rfl
    subst hchar
    rw [hzero rfl]
    decide

end SessionGuard.Number
