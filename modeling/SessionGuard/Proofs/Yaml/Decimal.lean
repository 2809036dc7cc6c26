import SessionGuard.Proofs.Number.Digits
import SessionGuard.Proofs.Yaml.Written

/-!
# Numbers are read again

The digits of a number are its plain form (`shows_toDigits`), and are read as the number
(`natural?_toDigits`).  So are integers of 64 bits, with a minus sign or without one (`int?_toString`).
-/

namespace SessionGuard.Yaml

open Number (ne_of_isDigit head?_toDigits)

theorem isShown_of_isDigit {d : Char} (h : d.isDigit = true) : isShown d = true := by
  simp only [Char.isDigit, Bool.and_eq_true, decide_eq_true_eq] at h
  have hlow : 48 ≤ d.toNat := h.1
  have hhigh : d.toNat ≤ 57 := h.2
  simp only [isShown, Bool.or_eq_true, Bool.and_eq_true, beq_iff_eq, bne_iff_ne, decide_eq_true_eq]
  omega

theorem hasIndicator_eq_false {cs : List Char} (h : ∀ d ∈ cs, d ≠ ':' ∧ d ≠ '#') (afterGap : Bool) :
    hasIndicator afterGap cs = false := by
  induction cs generalizing afterGap with
  | nil => rfl
  | cons d cs ih =>
    obtain ⟨hcolon, hnumber⟩ := h d (by simp)
    simp [hasIndicator, hcolon, hnumber, ih fun e he => h e (by simp [he])]

/-- Digits are shown as they are. -/
theorem shows_digits {cs : List Char} (hne : cs ≠ []) (h : ∀ d ∈ cs, d.isDigit = true) :
    Style.plain.Shows cs := by
  have hsign (e : Char) (he : e.isDigit = false) : ∀ d ∈ cs, d ≠ e :=
    fun d hd => ne_of_isDigit (h d hd) he
  refine ⟨hne, ⟨fun d hd => isShown_of_isDigit (h d hd), fun d hd => ?_, fun hd => ?_, fun hd => ?_,
    hasIndicator_eq_false (fun d hd => ⟨hsign ':' rfl d hd, hsign '#' rfl d hd⟩) true⟩, ?_⟩
  · simp [isBreak, hsign '\n' rfl d hd, hsign '\r' rfl d hd, hsign '\u0085' rfl d hd,
      hsign '\u2028' rfl d hd, hsign '\u2029' rfl d hd]
  · exact hsign ' ' rfl ' ' (List.mem_of_mem_head? hd) rfl
  · exact hsign ' ' rfl ' ' (List.mem_of_getLast? hd) rfl
  · obtain ⟨d, ds, rfl⟩ := List.exists_cons_of_ne_nil hne
    have hd := h d (by simp)
    have hopening : isOpening d = false := by
      have hsigns : ['#', ',', '[', ']', '\x7b', '\x7d', '&', '*', '!', '|', '>', '\'', '"', '%', '@',
          '\x60'].any Char.isDigit = false := rfl
      rw [List.any_eq_false] at hsigns
      simp only [isOpening, decide_eq_false_iff_not]
      exact fun hmem => hsigns d hmem hd
    simp [opensOtherwise, hopening, ne_of_isDigit hd (e := '-') rfl, ne_of_isDigit hd (e := '.') rfl,
      ne_of_isDigit hd (e := '?') rfl, ne_of_isDigit hd (e := ':') rfl]

/-- Digits behind a minus sign are shown as they are. -/
theorem shows_negative {cs : List Char} (hne : cs ≠ []) (h : ∀ d ∈ cs, d.isDigit = true) :
    Style.plain.Shows ('-' :: cs) := by
  obtain ⟨-, hplain, -⟩ := shows_digits hne h
  obtain ⟨d, ds, rfl⟩ := List.exists_cons_of_ne_nil hne
  have hd := h d (by simp)
  have hgap : isGap d = false := hplain.noGapFirst d rfl
  have hind : hasIndicator false (d :: ds) = false := hasIndicator_eq_false
    (fun e he => ⟨ne_of_isDigit (h e he) rfl, ne_of_isDigit (h e he) rfl⟩) false
  refine ⟨List.cons_ne_nil _ _, ⟨?_, ?_, by simp, ?_, ?_⟩, ?_⟩
  · exact List.forall_mem_cons.2 ⟨rfl, hplain.isShown⟩
  · exact List.forall_mem_cons.2 ⟨rfl, hplain.isBreak⟩
  · rw [List.getLast?_cons_cons]
    exact hplain.last
  · simpa [hasIndicator, isGap, isSpace, isBreak] using hind
  · simp [opensOtherwise, isOpening, gapFirst, hgap, ne_of_isDigit hd (e := '-') rfl]

/-- The digits of a number are its plain form. -/
theorem shows_toDigits (n : Nat) : Style.plain.Shows (Nat.toDigits 10 n) :=
  shows_digits Nat.toDigits_ne_nil fun _ hd =>
    Nat.isDigit_of_mem_toDigits (by decide) (by decide) hd

/-! ## Reading -/

theorem hexValue?_digitChar : ∀ n < 10, Cursor.hexValue? (Nat.digitChar n) = some n := by decide

theorem digits?_toDigits (n : Nat) : Plain.digits? 10 (Nat.toDigits 10 n) = some n := by
  induction n using Nat.strongRecOn with
  | ind n ih =>
    have hempty (n : Nat) : ¬ (Nat.toDigits 10 n).isEmpty = true := by simp [Nat.toDigits_ne_nil]
    unfold Plain.digits? at ih ⊢
    rw [if_neg (hempty n)]
    by_cases hn : n < 10
    · simp [Nat.toDigits_of_lt_base hn, hexValue?_digitChar n hn, hn]
    · have hmod : n % 10 < 10 := Nat.mod_lt n (by decide)
      have hfirst := ih (n / 10) (by omega)
      rw [if_neg (hempty (n / 10))] at hfirst
      rw [Nat.toDigits_of_base_le (by decide) (by omega), List.foldlM_append, hfirst]
      simp only [List.foldlM_cons, List.foldlM_nil, Option.bind_eq_bind, Option.bind_some,
        hexValue?_digitChar _ hmod, if_pos hmod, Option.pure_def, Option.some.injEq]
      omega

/-- The digits of a number are read as the number. -/
theorem natural?_toDigits (n : Nat) : Plain.natural? (Nat.toDigits 10 n) = some n := by
  have hread := digits?_toDigits n
  rcases Nat.eq_zero_or_pos n with rfl | hn
  · rfl
  · have hhead := head?_toDigits hn
    have hdigit : ∀ d ∈ Nat.toDigits 10 n, d.isDigit = true := fun _ hd =>
      Nat.isDigit_of_mem_toDigits (by decide) (by decide) hd
    obtain ⟨d, ds, hds⟩ := List.exists_cons_of_ne_nil (Nat.toDigits_ne_nil (n := n) (b := 10))
    rw [hds] at hread hhead hdigit ⊢
    have hd := hdigit d (by simp)
    have hzero : d ≠ '0' := by simpa using hhead
    have hplus := ne_of_isDigit hd (e := '+') rfl
    have hleading : Plain.hasLeadingZero (d :: ds) = false := by
      simp [Plain.hasLeadingZero, hzero, hplus, ne_of_isDigit hd (e := '-') rfl]
    unfold Plain.natural?
    simp [hplus, hzero, hleading, hread]

/-- A text of an integer that fits in 64 bits says it: the other words are no integers. -/
theorem ofText_of_int? {s : String} {n : Int} (h : Plain.int? s.toList = some (n, true)) :
    Plain.ofText s = .int n := by
  have hword (t : String) (ht : Plain.int? t.toList = none) : s ≠ t := by
    rintro rfl
    rw [h] at ht
    cases ht
  simp [Plain.ofText, Plain.isNull, Plain.bool?, h, hword "" rfl, hword "null" rfl,
    hword "Null" rfl, hword "NULL" rfl, hword "~" rfl, hword "true" rfl, hword "True" rfl,
    hword "TRUE" rfl, hword "false" rfl, hword "False" rfl, hword "FALSE" rfl]

theorem int?_toDigits {n : Nat} (hn : n < UInt64.size) :
    Plain.int? (Nat.toDigits 10 n) = some ((n : Int), true) := by
  have hwide : n < Nat.pow 2 128 := Nat.lt_trans hn (by decide)
  simp [Plain.int?, natural?_toDigits, hwide, hn]

theorem negative?_toDigits {n : Nat} (hn : 0 < n) :
    Plain.natural? ('-' :: Nat.toDigits 10 n) = none ∧
      Plain.negative? ('-' :: Nat.toDigits 10 n) = some n := by
  have hread := digits?_toDigits n
  have hhead := head?_toDigits hn
  obtain ⟨d, ds, hds⟩ := List.exists_cons_of_ne_nil (Nat.toDigits_ne_nil (n := n) (b := 10))
  have hd : d.isDigit = true :=
    Nat.isDigit_of_mem_toDigits (n := n) (b := 10) (by decide) (by decide) (by simp [hds])
  rw [hds] at hread hhead ⊢
  have hzero : d ≠ '0' := by simpa using hhead
  have hminus := ne_of_isDigit hd (e := '-') rfl
  have hplus := ne_of_isDigit hd (e := '+') rfl
  have hsign : Plain.digits? 10 ('-' :: d :: ds) = none := rfl
  have hleading : Plain.hasLeadingZero (d :: ds) = false := by
    simp [Plain.hasLeadingZero, hzero, hplus, hminus]
  constructor
  · simp [Plain.natural?, hsign]
  · simp [Plain.negative?, hzero, hleading, hread]

theorem int?_negative {n : Nat} (hpos : 0 < n) (hn : n ≤ Nat.pow 2 63) :
    Plain.int? ('-' :: Nat.toDigits 10 n) = some (-(n : Int), true) := by
  obtain ⟨hnatural, hnegative⟩ := negative?_toDigits hpos
  have hwide : n ≤ Nat.pow 2 127 := Nat.le_trans hn (by decide)
  simp [Plain.int?, hnatural, hnegative, hwide, hn]

/-! ## Integers -/

theorem toList_toString (n : Nat) : (toString (n : Int)).toList = Nat.toDigits 10 n := by
  show (toString n).toList = _
  rw [Nat.toString_eq_ofList_toDigits, String.toList_ofList]

theorem toList_toString_negSucc (n : Nat) :
    (toString (Int.negSucc n)).toList = '-' :: Nat.toDigits 10 (n + 1) := by
  show ("-" ++ toString (n + 1)).toList = _
  simp only [String.toList_append, Nat.toString_eq_ofList_toDigits, String.toList_ofList]
  rfl

/-- The digits of an integer are its plain form, behind a minus sign if there is one. -/
theorem shows_toString (n : Int) : Style.plain.Shows (toString n).toList := by
  cases n with
  | ofNat n =>
    rw [Int.ofNat_eq_natCast, toList_toString]
    exact shows_toDigits n
  | negSucc n =>
    rw [toList_toString_negSucc]
    exact shows_negative Nat.toDigits_ne_nil fun _ hd =>
      Nat.isDigit_of_mem_toDigits (by decide) (by decide) hd

/-- An integer of 64 bits, with a sign or without one, is read as it. -/
theorem int?_toString {n : Int} (hlow : -(Nat.pow 2 63 : Int) ≤ n) (hhigh : n < UInt64.size) :
    Plain.int? (toString n).toList = some (n, true) := by
  cases n with
  | ofNat n =>
    rw [Int.ofNat_eq_natCast] at hhigh ⊢
    rw [toList_toString]
    exact int?_toDigits (Int.ofNat_lt.1 hhigh)
  | negSucc n =>
    rw [toList_toString_negSucc]
    exact int?_negative (Nat.succ_pos n) (by omega)

end SessionGuard.Yaml
