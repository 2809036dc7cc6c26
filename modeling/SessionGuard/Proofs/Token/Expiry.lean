import SessionGuard.Expiry
import SessionGuard.Proofs.Json.Members
import SessionGuard.Proofs.Text.Base64
import SessionGuard.Proofs.Text.Octets
import SessionGuard.Proofs.Text.Pieces

/-!
# The expiry of a token is read exactly

An issuer writes the claims of a token as it likes: with any members around the moment of expiry, in
any order and spelling, and with any padding behind the Base64 (`issued`).  The moment is read from all
of them, and a token is expired from thirty seconds before it on (`expiry_read_exactly`).
-/

namespace SessionGuard.Token

open Json (Denotes IsGap Named Numeral Raw Spells Writes)
open Text (Received)

variable {header claims signature : String} {exp : Int} {ms : List (Received × Raw)}

/-! ## Tokens as issued -/

/-- Of the members of an object one is named `exp`, and holds an integer. -/
def NameExpiry (ms : List (Received × Raw)) (exp : Int) : Prop :=
  ∃ before key after, ms = before ++ (key, .number (.ofInt exp)) :: after ∧ Denotes key "exp" ∧
    ∀ m ∈ before ++ after, ∃ name, Denotes m.1 name ∧ name ≠ "exp"

/-- A text is an object that names the moment of expiry. -/
def Claims (text : String) (exp : Int) : Prop :=
  ∃ gap ms cs gap', IsGap gap ∧ Spells (.value (.object ms)) cs ∧ IsGap gap' ∧
    text.toList = gap ++ (cs ++ gap') ∧ NameExpiry ms exp

/-- The token of three parts: header, claims in Base64 with padding, and signature. -/
def issued (header claims signature : String) (padding : Nat) : Token :=
  ⟨header ++ "." ++
    String.ofList (Text.Base64.encode (Text.Octets.ofString claims) ++ List.replicate padding '=') ++
    "." ++ signature⟩

/-! ## Reading the claims -/

/-- Members of other names are named, and none is the expiry. -/
theorem exists_named (h : ∀ m ∈ ms, ∃ name, Denotes m.1 name ∧ name ≠ "exp") :
    ∃ named, Named ms named ∧ named.filter (fun m => m.1 == "exp") = [] := by
  induction ms with
  | nil => exact ⟨[], .nil, rfl⟩
  | cons m ms ih =>
    obtain ⟨name, hname, hne⟩ := h m (by simp)
    obtain ⟨named, hnamed, hnone⟩ := ih fun m hm => h m (by simp [hm])
    exact ⟨(name, m.2) :: named, .cons ⟨hname, rfl⟩ hnamed, by simp [hne, hnone]⟩

/-- The record of the claims has the integer in its field. -/
theorem fields?_of_nameExpiry (h : NameExpiry ms exp) :
    (Raw.object ms).fields? ["exp"] = some [some (.number (.ofInt exp))] := by
  obtain ⟨before, key, after, rfl, hkey, hothers⟩ := h
  simp only [List.mem_append] at hothers
  obtain ⟨named, hnamed, hnone⟩ := exists_named fun m hm => hothers m (.inl hm)
  obtain ⟨named', hnamed', hnone'⟩ := exists_named fun m hm => hothers m (.inr hm)
  have hall : Named (before ++ (key, .number (.ofInt exp)) :: after)
      (named ++ ("exp", .number (.ofInt exp)) :: named') :=
    List.rel_append hnamed (.cons ⟨hkey, rfl⟩ hnamed')
  simp [Raw.fields?, Raw.named?_of_named hall, Raw.field?, List.filter_append, hnone, hnone']

/-- A moment is read where it has a date. -/
theorem expiryOf?_of_nameExpiry (h : NameExpiry ms exp) :
    expiryOf? (.object ms) = if Time.first ≤ exp ∧ exp ≤ Time.last then some exp else none := by
  have hdates : Time.first = -8334601228800 ∧ Time.last = 8210266876799 := ⟨rfl, rfl⟩
  rw [expiryOf?, fields?_of_nameExpiry h]
  simp only [Option.bind_eq_bind, Option.bind_some, Raw.required, Raw.int64?, Numeral.int64?_ofInt]
  by_cases hfits : -0x8000000000000000 ≤ exp ∧ exp < 0x8000000000000000
  · simp [hfits]
  · have hout : ¬ (Time.first ≤ exp ∧ exp ≤ Time.last) := by omega
    simp [hfits, hout]

/-! ## Finding the claims -/

/-- The claims of a token are what stands between its only two dots. -/
theorem claimsPart?_eq_some_iff {token : Token} {part : List Char} :
    token.claimsPart? = some part ↔
      ∃ header signature : String, '.' ∉ header.toList ∧ '.' ∉ part ∧ '.' ∉ signature.toList ∧
        token = ⟨header ++ "." ++ String.ofList part ++ "." ++ signature⟩ := by
  constructor
  · intro h
    unfold claimsPart? at h
    split at h
    · next header claims signature hsplit =>
      cases h
      have hnone {piece : List Char} (hp : piece ∈ [header, part, signature]) : '.' ∉ piece :=
        Text.not_mem_of_mem_splitAt (hsplit ▸ hp)
      have htext := Text.intercalate_splitAt '.' token.text.toList
      rw [hsplit] at htext
      refine ⟨String.ofList header, String.ofList signature, by simpa using hnone (by simp),
        hnone (by simp), by simpa using hnone (by simp), ?_⟩
      rw [Token.mk.injEq, ← String.toList_inj, ← htext]
      simp [List.intercalate, List.intersperse]
    · cases h
  · rintro ⟨header, signature, hheader, hpart, hsignature, rfl⟩
    have htext : (header ++ "." ++ String.ofList part ++ "." ++ signature).toList =
        header.toList ++ '.' :: (part ++ '.' :: signature.toList) := by
      simp
    rw [claimsPart?, htext, Text.splitAt_append_sep, Text.splitAt_append_sep,
      Text.splitAt_of_not_mem hheader, Text.splitAt_of_not_mem hpart,
      Text.splitAt_of_not_mem hsignature]
    rfl

theorem claimsPart?_issued (hheader : '.' ∉ header.toList) (hsignature : '.' ∉ signature.toList)
    (padding : Nat) : (issued header claims signature padding).claimsPart? =
      some (Text.Base64.encode (Text.Octets.ofString claims) ++ List.replicate padding '=') :=
  claimsPart?_eq_some_iff.2
    ⟨header, signature, hheader, Text.Base64.dot_not_mem_padded _ _, hsignature, rfl⟩

/-- The expiry of a token as issued is the moment its claims name, if it has a date. -/
theorem expiry?_issued (hheader : '.' ∉ header.toList) (hsignature : '.' ∉ signature.toList)
    (hclaims : Claims claims exp) (padding : Nat) :
    (issued header claims signature padding).expiry? =
      if Time.first ≤ exp ∧ exp ≤ Time.last then some exp else none := by
  obtain ⟨gap, ms, cs, gap', hgap, hspells, hgap', htext, hms⟩ := hclaims
  have hread : Raw.read? (Text.Octets.read (Text.Octets.ofString claims)) = some (.object ms) := by
    rw [Text.Octets.read_ofString, Received.ofString, htext]
    exact Raw.read?_of_spells hgap hspells hgap'
  have hfound : (issued header claims signature padding).claims? = some (.object ms) := by
    rw [claims?, claimsPart?_issued hheader hsignature, Option.bind_eq_bind, Option.bind_some,
      Text.Base64.dropTrailing_padding, Text.Base64.decode?_encode]
    exact hread
  rw [expiry?, hfound, Option.bind_some, expiryOf?_of_nameExpiry hms]

/-- A token that is not of three parts says nothing. -/
theorem expiry?_of_count_ne {token : Token} (h : token.text.toList.count '.' ≠ 2) :
    token.expiry? = none := by
  have hpart : token.claimsPart? = none := by
    unfold claimsPart?
    split
    · next hsplit =>
      have hlength := Text.length_splitAt '.' token.text.toList
      rw [hsplit] at hlength
      simp only [List.length_cons, List.length_nil] at hlength
      omega
    · rfl
  simp [expiry?, claims?, hpart]

theorem isExpired_of_none {token : Token} (h : token.expiry? = none) (now : Int) :
    token.isExpired now = false := by
  rw [isExpired, h]

/-- The expiry that claims name as an integer is read from a token however its claims are written
and padded, if the moment has a date: then the token is expired exactly from thirty seconds before
that moment on, and passes from the one to the other at a single moment.  A moment without a date and
a token that has not three parts leave the judgement to the backend. -/
theorem expiry_read_exactly :
    (∀ (header claims signature : String) (exp : Int) (padding : Nat),
      '.' ∉ header.toList → '.' ∉ signature.toList → Claims claims exp →
      let token := issued header claims signature padding
      (Time.first ≤ exp ∧ exp ≤ Time.last →
        token.expiry? = some exp ∧
        (∀ now, token.isExpired now = true ↔ exp ≤ now + 30) ∧
        (∀ now later, now ≤ later → token.isExpired now = true → token.isExpired later = true) ∧
        ∀ now, (token.isExpired (now - 1) = false ∧ token.isExpired now = true) ↔
          now = exp - 30) ∧
      (¬ (Time.first ≤ exp ∧ exp ≤ Time.last) →
        token.expiry? = none ∧ ∀ now, token.isExpired now = false)) ∧
    ∀ token : Token, token.text.toList.count '.' ≠ 2 →
      token.expiry? = none ∧ ∀ now, token.isExpired now = false := by
  refine ⟨fun header claims signature exp padding hheader hsignature hclaims => ?_,
    fun token hcount => ?_⟩
  · intro token
    have hexpiry : token.expiry? = _ := expiry?_issued hheader hsignature hclaims padding
    refine ⟨fun hdate => ?_, fun hdate => ?_⟩
    · rw [if_pos hdate] at hexpiry
      have hexpired (now : Int) : token.isExpired now = decide (exp ≤ now + 30) := by
        rw [isExpired, hexpiry]
        rfl
      refine ⟨hexpiry, fun now => ?_, fun now later hle h => ?_, fun now => ?_⟩
      · rw [hexpired, decide_eq_true_eq]
      · rw [hexpired, decide_eq_true_eq] at h ⊢
        omega
      · rw [hexpired, hexpired, decide_eq_true_eq, decide_eq_false_iff_not]
        omega
    · rw [if_neg hdate] at hexpiry
      exact ⟨hexpiry, isExpired_of_none hexpiry⟩
  · have hexpiry := expiry?_of_count_ne hcount
    exact ⟨hexpiry, isExpired_of_none hexpiry⟩

theorem expiry_read_exactly_behind_subject :
    ('.' ∉ "h".toList ∧ '.' ∉ "s".toList ∧
      Claims "\x7b\"sub\":\"u1\",\"\\u0065xp\": 1700000000\x7d" 1700000000) ∧
    (issued "h" "\x7b\"sub\":\"u1\",\"\\u0065xp\": 1700000000\x7d" "s" 2).expiry? =
      some 1700000000 := by
  have plain {c : Char} (h : 32 ≤ c.toNat ∧ c ≠ '"' ∧ c ≠ '\\') : Json.IsPlain c :=
    ⟨h.1, h.2.1, h.2.2⟩
  have hletter : Json.Hex4 '0' '0' '6' '5' 'e'.toNat :=
    ⟨0, 0, 6, 5, .inl rfl, .inl rfl, .inl rfl, .inl rfl, rfl⟩
  have hsub : Writes "sub".toList ['s', 'u', 'b'] :=
    .plain (plain (by decide)) (.plain (plain (by decide)) (.plain (plain (by decide)) .nil))
  have hexp : Writes "exp".toList ['\\', 'u', '0', '0', '6', '5', 'x', 'p'] :=
    .number hletter (.plain (plain (by decide)) (.plain (plain (by decide)) .nil))
  have huser : Spells (.value (.string (['u', '1'].map some))) _ :=
    .string (.plain (plain (by decide)) (.plain (plain (by decide)) .nil))
  have hlast : Spells (.members [(_, .number (.ofInt 1700000000))]) _ :=
    .member Json.isGap_nil hexp.inside Json.isGap_nil Json.isGap_blank
      (.number (Numeral.spells_ofInt 1700000000)) (.endMembers Json.isGap_nil)
  have hall := Spells.object (.member Json.isGap_nil hsub.inside Json.isGap_nil Json.isGap_nil huser
    (.nextMember Json.isGap_nil (by simp) hlast))
  have hclaims : Claims "\x7b\"sub\":\"u1\",\"\\u0065xp\": 1700000000\x7d" 1700000000 :=
    ⟨[], _, _, [], Json.isGap_nil, hall, Json.isGap_nil, by decide,
      [_], _, [], rfl, ⟨_, rfl, hexp⟩, by
        simpa using ⟨"sub", ⟨_, rfl, hsub⟩, by decide⟩⟩
  exact ⟨⟨by decide, by decide, hclaims⟩,
    ((expiry_read_exactly.1 "h" _ "s" 1700000000 2 (by decide) (by decide) hclaims).1 (by decide)).1⟩

end SessionGuard.Token
