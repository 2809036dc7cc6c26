import SessionGuard.Proofs.Text.Trim
import SessionGuard.Text.Base64

/-!
# The digits of bytes

Bytes are written in digits alone (`exists_digit`), none of which is the sign that pads them
(`dropTrailing_padding`) or a dot (`dot_not_mem_encode`).  No other digits are read as bytes
(`eq_encode_of_decode?`).
-/

namespace SessionGuard.Text.Base64

/-- What stands for bytes is digits. -/
theorem exists_digit {bytes : List UInt8} {c : Char} (h : c ∈ encode bytes) :
    ∃ n < 64, c = digit n := by
  fun_induction encode bytes with
  | case1 => cases h
  | case2 a =>
    have ha := a.toNat_lt
    simp only [List.mem_cons, List.not_mem_nil, or_false] at h
    rcases h with rfl | rfl <;> exact ⟨_, by omega, rfl⟩
  | case3 a b =>
    have ha := a.toNat_lt
    have hb := b.toNat_lt
    simp only [List.mem_cons, List.not_mem_nil, or_false] at h
    rcases h with rfl | rfl | rfl <;> exact ⟨_, by omega, rfl⟩
  | case4 a b c rest ih =>
    have ha := a.toNat_lt
    have hb := b.toNat_lt
    have hc := c.toNat_lt
    simp only [List.mem_cons] at h
    rcases h with rfl | rfl | rfl | rfl | h
    · exact ⟨_, by omega, rfl⟩
    · exact ⟨_, by omega, rfl⟩
    · exact ⟨_, by omega, rfl⟩
    · exact ⟨_, by omega, rfl⟩
    · exact ih h

theorem dot_not_mem_encode (bytes : List UInt8) : '.' ∉ encode bytes := by
  intro h
  obtain ⟨n, hn, hdot⟩ := exists_digit h
  have hdigit : ∀ n < 64, digit n ≠ '.' := by decide
  exact hdigit n hn hdot.symm

theorem dot_not_mem_padded (bytes : List UInt8) (n : Nat) :
    '.' ∉ encode bytes ++ List.replicate n '=' := by
  simp [dot_not_mem_encode, List.mem_replicate]

/-- Padding behind the digits is dropped, and nothing else is. -/
theorem dropTrailing_padding (bytes : List UInt8) (n : Nat) :
    dropTrailing (· == '=') (encode bytes ++ List.replicate n '=') = encode bytes := by
  have hdigit : ∀ n < 64, (digit n == '=') = false := by decide
  have hlast : ∀ c, (encode bytes).getLast? = some c → (c == '=') = false := by
    intro c hc
    obtain ⟨n, hn, rfl⟩ := exists_digit (List.mem_of_getLast? hc)
    exact hdigit n hn
  rw [dropTrailing_append_run fun c hc => by simp [List.eq_of_mem_replicate hc],
    dropTrailing_eq_self hlast]

/-! ## Reading -/

/-- A digit is read as its number. -/
theorem digit_of_value? {c : Char} {n : Nat} (h : value? c = some n) : n < 64 ∧ digit n = c := by
  have hback (k : Nat) (hk : k = c.toNat) : Char.ofNat k = c := by rw [hk, Char.ofNat_toNat]
  unfold value? at h
  simp only [Bool.and_eq_true, decide_eq_true_eq, Char.le_def, UInt32.le_iff_toNat_le] at h
  have hnat : c.val.toNat = c.toNat := rfl
  rw [hnat] at h
  unfold digit
  split at h
  · next hc =>
    have hrange : 65 ≤ c.toNat ∧ c.toNat ≤ 90 := hc
    obtain rfl := Option.some.inj h
    exact ⟨by omega, by rw [if_pos (by omega), hback _ (by omega)]⟩
  split at h
  · next hc =>
    have hrange : 97 ≤ c.toNat ∧ c.toNat ≤ 122 := hc
    obtain rfl := Option.some.inj h
    exact ⟨by omega, by rw [if_neg (by omega), if_pos (by omega), hback _ (by omega)]⟩
  split at h
  · next hc =>
    have hrange : 48 ≤ c.toNat ∧ c.toNat ≤ 57 := hc
    obtain rfl := Option.some.inj h
    exact ⟨by omega, by
      rw [if_neg (by omega), if_neg (by omega), if_pos (by omega), hback _ (by omega)]⟩
  split at h
  · next hc =>
    obtain rfl := Option.some.inj h
    exact ⟨by decide, hc.symm⟩
  split at h
  · next hc =>
    obtain rfl := Option.some.inj h
    exact ⟨by decide, hc.symm⟩
  · cases h

/-- Only what stands for bytes is read: no bit is left over. -/
theorem eq_encode_of_decode? {cs : List Char} {bytes : List UInt8} (h : decode? cs = some bytes) :
    cs = encode bytes := by
  have byte (n : Nat) (h : n < 256) : (UInt8.ofNat n).toNat = n := by
    simp only [UInt8.toNat_ofNat']
    omega
  fun_induction decode? cs generalizing bytes with
  | case1 =>
    obtain rfl := Option.some.inj h
    rfl
  | case2 => cases h
  | case3 a b =>
    simp only [Option.bind_eq_bind, Option.bind_eq_some_iff] at h
    obtain ⟨m, ha, n, hb, h⟩ := h
    obtain ⟨hm, rfl⟩ := digit_of_value? ha
    obtain ⟨hn, rfl⟩ := digit_of_value? hb
    split at h
    · obtain rfl := Option.some.inj h
      rw [encode, byte _ (by omega)]
      have hfirst : (m * 4 + n / 16) / 4 = m := by omega
      have hsecond : (m * 4 + n / 16) % 4 * 16 = n := by omega
      rw [hfirst, hsecond]
    · cases h
  | case4 a b c =>
    simp only [Option.bind_eq_bind, Option.bind_eq_some_iff] at h
    obtain ⟨m, ha, n, hb, k, hc, h⟩ := h
    obtain ⟨hm, rfl⟩ := digit_of_value? ha
    obtain ⟨hn, rfl⟩ := digit_of_value? hb
    obtain ⟨hk, rfl⟩ := digit_of_value? hc
    split at h
    · obtain rfl := Option.some.inj h
      rw [encode, byte _ (by omega), byte _ (by omega)]
      have hfirst : (m * 4 + n / 16) / 4 = m := by omega
      have hsecond : (m * 4 + n / 16) % 4 * 16 + (n % 16 * 16 + k / 4) / 16 = n := by omega
      have hthird : (n % 16 * 16 + k / 4) % 16 * 4 = k := by omega
      rw [hfirst, hsecond, hthird]
    · cases h
  | case5 a b c d rest ih =>
    simp only [Option.bind_eq_bind, Option.bind_eq_some_iff] at h
    obtain ⟨m, ha, n, hb, k, hc, l, hd, bytes, hrest, h⟩ := h
    obtain ⟨hm, rfl⟩ := digit_of_value? ha
    obtain ⟨hn, rfl⟩ := digit_of_value? hb
    obtain ⟨hk, rfl⟩ := digit_of_value? hc
    obtain ⟨hl, rfl⟩ := digit_of_value? hd
    obtain rfl := Option.some.inj h
    rw [encode, byte _ (by omega), byte _ (by omega), byte _ (by omega), ← ih hrest]
    have hfirst : (m * 4 + n / 16) / 4 = m := by omega
    have hsecond : (m * 4 + n / 16) % 4 * 16 + (n % 16 * 16 + k / 4) / 16 = n := by omega
    have hthird : (n % 16 * 16 + k / 4) % 16 * 4 + (k % 4 * 64 + l) / 64 = k := by omega
    have hfourth : (k % 4 * 64 + l) % 64 = l := by omega
    rw [hfirst, hsecond, hthird, hfourth]

end SessionGuard.Text.Base64
