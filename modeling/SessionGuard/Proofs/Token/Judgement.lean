import SessionGuard.Proofs.Session.Verdict
import SessionGuard.Proofs.Token.Expiry

/-!
# Which tokens are judged without the backend

A token names the moment of its expiry if its claims are a text that is an object with such a member
(`Token.Names`), and it is left to the backend if nothing is read from it (`Token.LeftToBackend`).
Tokens of two more kinds are read: those whose claims are an array of a moment alone, and those whose
claims are bytes that are no text (`Token.Misread`).  Every other token is left to the backend
(`expiry_named_or_left_iff`).
-/

namespace SessionGuard.Token

open Json (Denotes IsGap Named Numeral Raw Spells)
open Text (Received)

variable {token : Token} {bytes bytes' : List UInt8} {exp : Int} {ms : List (Received × Raw)}

/-! ## Kinds of tokens -/

/-- A token of three parts has these bytes as its claims, in Base64 with padding. -/
def Carries (token : Token) (bytes : List UInt8) : Prop :=
  ∃ (header signature : String) (padding : Nat), '.' ∉ header.toList ∧ '.' ∉ signature.toList ∧
    token = ⟨header ++ "." ++
      String.ofList (Text.Base64.encode bytes ++ List.replicate padding '=') ++ "." ++ signature⟩

/-- The claims of a token are a text that is an object and names the moment of expiry. -/
def Names (token : Token) (exp : Int) : Prop :=
  ∃ claims, token.Carries (Text.Octets.ofString claims) ∧ Claims claims exp

/-- A text is an array that holds a moment and nothing else. -/
def IsLone (text : String) (exp : Int) : Prop :=
  ∃ gap cs gap', IsGap gap ∧ Spells (.value (.array [.number (.ofInt exp)])) cs ∧ IsGap gap' ∧
    text.toList = gap ++ (cs ++ gap')

/-- A moment is read from claims that do not name it: they hold it alone, or they are bytes of which
some belong to no character, in a part of them that is not looked at. -/
inductive Misread (token : Token) (exp : Int) : Prop
  | lone {text : String} (h : token.Carries (Text.Octets.ofString text)) (hlone : IsLone text exp)
      (hdate : Time.first ≤ exp ∧ exp ≤ Time.last)
  | garbled {bytes : List UInt8} (h : token.Carries bytes)
      (hbytes : ∀ text, bytes ≠ Text.Octets.ofString text)
      (hread : (Raw.read? (Text.Octets.read bytes)).bind expiryOf? = some exp)

/-- Nothing is read from a token, it is never expired, and a validation asks the backend about it. -/
structure LeftToBackend (token : Token) : Prop where
  unread : token.expiry? = none
  current : ∀ now, token.isExpired now = false
  asked : ∀ (settings : Settings) (now : Int) (a : App), a.session.validating = false →
    a.store.get? = some token → ∃ b : App,
      a.start settings now .restore = (b, .waiting (.validating (a.session.generation + 1) token)) ∧
      b.store = a.store ∧ b.calls = a.calls ++ [.currentUser token]

/-- A moment is read from a token, and from thirty seconds before it on a validation clears the token
and does not ask the backend. -/
structure JudgedHere (token : Token) (exp : Int) : Prop where
  read : token.expiry? = some exp
  expired : ∀ now, exp ≤ now + leeway → token.isExpired now = true
  cleared : ∀ (settings : Settings) (now : Int) (a : App), a.session.validating = false →
    a.store.get? = some token → settings.checkExpiry = true → exp ≤ now + leeway → ∃ b : App,
      a.start settings now .restore = (b, .finished .done) ∧
      b.store = a.store.clear ∧ b.calls = a.calls

/-! ## The claims of a token -/

theorem carries_iff : token.Carries bytes ↔
    (token.claimsPart?.bind fun part =>
      Text.Base64.decode? (Text.dropTrailing (· == '=') part)) = some bytes := by
  rw [Option.bind_eq_some_iff]
  constructor
  · rintro ⟨header, signature, padding, hheader, hsignature, rfl⟩
    refine ⟨_, claimsPart?_eq_some_iff.2
      ⟨header, signature, hheader, Text.Base64.dot_not_mem_padded _ _, hsignature, rfl⟩, ?_⟩
    rw [Text.Base64.dropTrailing_padding, Text.Base64.decode?_encode]
  · rintro ⟨part, hpart, hbytes⟩
    obtain ⟨header, signature, hheader, -, hsignature, htoken⟩ := claimsPart?_eq_some_iff.1 hpart
    obtain ⟨padding, hpadding, hall⟩ := Text.dropTrailing_append (· == '=') part
    have hreplicate : padding = List.replicate padding.length '=' :=
      List.eq_replicate_of_mem fun c hc => by simpa using hall c hc
    refine ⟨header, signature, padding.length, hheader, hsignature, ?_⟩
    rw [htoken, ← hreplicate, ← Text.Base64.eq_encode_of_decode? hbytes, ← hpadding]

theorem Carries.unique (h : token.Carries bytes) (h' : token.Carries bytes') : bytes = bytes' :=
  Option.some.inj ((carries_iff.1 h).symm.trans (carries_iff.1 h'))

/-- A moment is read from the claims that a token carries. -/
theorem expiry?_eq_some_iff : token.expiry? = some exp ↔
    ∃ bytes, token.Carries bytes ∧
      (Raw.read? (Text.Octets.read bytes)).bind expiryOf? = some exp := by
  have hclaims : token.claims? = (token.claimsPart?.bind fun part =>
      Text.Base64.decode? (Text.dropTrailing (· == '=') part)).bind fun bytes =>
        Raw.read? (Text.Octets.read bytes) := by
    rw [claims?, Option.bind_assoc]
    rfl
  simp only [carries_iff]
  rw [expiry?, hclaims, Option.bind_assoc, Option.bind_eq_some_iff]

/-! ## The moment in the claims -/

theorem expiryOf?_eq_some_iff {raw : Raw} : expiryOf? raw = some exp ↔
    ∃ v, raw.fields? ["exp"] = some [some v] ∧ v.int64? = some exp ∧
      Time.first ≤ exp ∧ exp ≤ Time.last := by
  unfold expiryOf?
  constructor
  · intro h
    obtain ⟨fields, hfields, h⟩ := Option.bind_eq_some_iff.1 h
    split at h
    · next field =>
      obtain ⟨moment, hmoment, h⟩ := Option.bind_eq_some_iff.1 h
      split at h
      · next hdate =>
        cases h
        simp only [Bool.and_eq_true, decide_eq_true_eq] at hdate
        cases field with
        | none => cases hmoment
        | some v => exact ⟨v, hfields, hmoment, hdate⟩
      · cases h
    · cases h
  · rintro ⟨v, hfields, hmoment, hdate⟩
    simp [hfields, Raw.required, hmoment, hdate]

/-- Without the name of the expiry all members have other names. -/
theorem others_of_filter_eq_nil {named : List (String × Raw)} (h : Named ms named)
    (hnone : named.filter (fun m => m.1 == "exp") = []) :
    ∀ m ∈ ms, ∃ name, Denotes m.1 name ∧ name ≠ "exp" := by
  induction h with
  | nil => simp
  | @cons m n ms rest hm _ ih =>
    simp only [List.filter_cons, beq_iff_eq] at hnone
    split at hnone
    · cases hnone
    · next hne =>
      intro m' hm'
      rcases List.mem_cons.1 hm' with rfl | hm'
      · exact ⟨n.1, hm.1, hne⟩
      · exact ih hnone m' hm'

/-- With it once, one member has it and all others have other names. -/
theorem exists_of_filter_eq_singleton {named : List (String × Raw)} {name : String} {v : Raw}
    (h : Named ms named) (hone : named.filter (fun m => m.1 == "exp") = [(name, v)]) :
    ∃ before key after, ms = before ++ (key, v) :: after ∧ Denotes key "exp" ∧
      ∀ m ∈ before ++ after, ∃ name, Denotes m.1 name ∧ name ≠ "exp" := by
  induction h with
  | nil => cases hone
  | @cons m n ms rest hm hrest ih =>
    simp only [List.filter_cons, beq_iff_eq] at hone
    split at hone
    · next heq =>
      obtain ⟨rfl, hnone⟩ := List.cons.inj hone
      obtain ⟨key, value⟩ := m
      obtain ⟨hname, rfl⟩ := hm
      exact ⟨[], key, ms, rfl, heq ▸ hname, others_of_filter_eq_nil hrest hnone⟩
    · next hne =>
      obtain ⟨before, key, after, rfl, hkey, hothers⟩ := ih hone
      refine ⟨m :: before, key, after, rfl, hkey, fun m' hm' => ?_⟩
      rcases List.mem_cons.1 hm' with rfl | hm'
      · exact ⟨n.1, hm.1, hne⟩
      · exact hothers m' hm'

/-- The record of an object has a field if one member has its name. -/
theorem filter_of_fields? {v : Raw} (h : (Raw.object ms).fields? ["exp"] = some [some v]) :
    ∃ named name, Raw.named? ms = some named ∧
      named.filter (fun m => m.1 == "exp") = [(name, v)] := by
  simp only [Raw.fields?, Option.bind_eq_bind, Option.bind_eq_some_iff, List.mapM_cons,
    List.mapM_nil, Option.pure_def, Option.some.injEq, List.cons.injEq] at h
  obtain ⟨named, hnamed, field, hfield, rest, rfl, rfl, -⟩ := h
  unfold Raw.field? at hfield
  split at hfield
  · cases hfield
  · next name v' hone =>
    cases hfield
    exact ⟨named, name, hnamed, hone⟩
  · cases hfield

/-- The record of an array has a field if that is its only item. -/
theorem eq_singleton_of_fields? {vs : List Raw} {v : Raw}
    (h : (Raw.array vs).fields? ["exp"] = some [some v]) : vs = [v] := by
  rcases vs with _ | ⟨w, _ | ⟨w', vs⟩⟩ <;> simp_all [Raw.fields?]

/-- A text from which a moment is read names it or holds it alone. -/
theorem claims_or_isLone {text : String}
    (h : (Raw.read? (Text.Octets.read (Text.Octets.ofString text))).bind expiryOf? = some exp) :
    (Claims text exp ∨ IsLone text exp) ∧ Time.first ≤ exp ∧ exp ≤ Time.last := by
  rw [Text.Octets.read_ofString, Received.ofString] at h
  obtain ⟨raw, hraw, hexp⟩ := Option.bind_eq_some_iff.1 h
  obtain ⟨v, hfields, hmoment, hdate⟩ := expiryOf?_eq_some_iff.1 hexp
  obtain ⟨gap, cs, gap', hgap, hspells, hgap', htext⟩ := Raw.exists_spells_of_read? hraw
  have hnumber {ds : List Char} (hv : Spells (.value v) ds) : v = .number (.ofInt exp) := by
    cases hv with
    | number hn => rw [Numeral.eq_ofInt_of_int64? hn hmoment]
    | _ => cases hmoment
  refine ⟨?_, hdate⟩
  cases raw with
  | object ms =>
    cases hspells with
    | object hmembers =>
      obtain ⟨named, name, hnamed, hone⟩ := filter_of_fields? hfields
      have hparts := Raw.spells_of_mem_members hmembers
      obtain ⟨before, key, after, rfl, hkey, hothers⟩ :=
        exists_of_filter_eq_singleton (Raw.named_of_spells (.object hmembers) hnamed) hone
      obtain ⟨ds, hds⟩ := (hparts (key, v) (by simp [Raw.membersOf])).2
      obtain rfl := hnumber hds
      exact .inl ⟨gap, _, _, gap', hgap, .object hmembers, hgap', htext, before, key, after, rfl,
        hkey, hothers⟩
  | array vs =>
    cases hspells with
    | array hitems =>
      obtain rfl := eq_singleton_of_fields? hfields
      obtain ⟨ds, hds⟩ := Raw.spells_of_mem_items hitems v (by simp [Raw.itemsOf])
      obtain rfl := hnumber hds
      exact .inr ⟨gap, _, gap', hgap, .array hitems, hgap', htext⟩
  | _ => cases hfields

/-! ## What is read and what is left -/

/-- A moment that stands alone in the claims is read like one that they name. -/
theorem expiryOf?_of_isLone {text : String} (h : IsLone text exp)
    (hdate : Time.first ≤ exp ∧ exp ≤ Time.last) :
    (Raw.read? (Text.Octets.read (Text.Octets.ofString text))).bind expiryOf? = some exp := by
  obtain ⟨gap, cs, gap', hgap, hspells, hgap', htext⟩ := h
  have hdates : Time.first = -8334601228800 ∧ Time.last = 8210266876799 := ⟨rfl, rfl⟩
  have hfits : -0x8000000000000000 ≤ exp ∧ exp < 0x8000000000000000 := by omega
  rw [Text.Octets.read_ofString, Received.ofString, htext, Raw.read?_of_spells hgap hspells hgap',
    Option.bind_some]
  refine expiryOf?_eq_some_iff.2 ⟨.number (.ofInt exp), rfl, ?_, hdate⟩
  rw [Raw.int64?, Numeral.int64?_ofInt, if_pos hfits]

/-- A moment is read exactly from the tokens that name one with a date, and from those that are
misread. -/
theorem expiry?_iff_names_or_misread : token.expiry? = some exp ↔
    token.Names exp ∧ Time.first ≤ exp ∧ exp ≤ Time.last ∨ token.Misread exp := by
  constructor
  · intro h
    obtain ⟨bytes, hbytes, hread⟩ := expiry?_eq_some_iff.1 h
    by_cases htext : ∃ text, bytes = Text.Octets.ofString text
    · obtain ⟨text, rfl⟩ := htext
      obtain ⟨hclaims | hlone, hdate⟩ := claims_or_isLone hread
      · exact .inl ⟨⟨text, hbytes, hclaims⟩, hdate⟩
      · exact .inr (.lone hbytes hlone hdate)
    · exact .inr (.garbled hbytes (fun text ht => htext ⟨text, ht⟩) hread)
  · rintro (⟨⟨claims, ⟨header, signature, padding, hheader, hsignature, rfl⟩, hclaims⟩, hdate⟩ | h)
    · have hexpiry := expiry?_issued hheader hsignature hclaims padding
      rwa [if_pos hdate] at hexpiry
    · cases h with
      | lone h hlone hdate =>
        exact expiry?_eq_some_iff.2 ⟨_, h, expiryOf?_of_isLone hlone hdate⟩
      | garbled h _ hread => exact expiry?_eq_some_iff.2 ⟨_, h, hread⟩

/-- A token that is misread does not name a moment. -/
theorem Misread.not_names {exp' : Int} (h : token.Misread exp) : ¬ token.Names exp' := by
  rintro ⟨claims, hclaims, gap, ms, cs, gap', hgap, hspells, hgap', htext, -⟩
  cases h with
  | lone h hlone =>
    obtain ⟨lead, ds, trail, hlead, hds, htrail, hlone⟩ := hlone
    obtain rfl := Text.Octets.ofString_inj.1 (h.unique hclaims)
    have hobject := Raw.read?_of_spells hgap hspells hgap'
    have harray := Raw.read?_of_spells hlead hds htrail
    rw [← htext, hlone, harray] at hobject
    cases hobject
  | garbled h hbytes => exact hbytes claims (h.unique hclaims)

theorem leftToBackend_of_none (h : token.expiry? = none) : token.LeftToBackend where
  unread := h
  current := isExpired_of_none h
  asked _ now a hf ht :=
    ⟨_, a.startValidation_of_holds hf ⟨ht, .inr (isExpired_of_none h now)⟩, rfl, rfl⟩

theorem judgedHere_of_some (h : token.expiry? = some exp) : token.JudgedHere exp := by
  have hexpired (now : Int) (hnow : exp ≤ now + leeway) : token.isExpired now = true :=
    isExpired_iff.2 ⟨exp, h, hnow⟩
  refine ⟨h, hexpired, fun settings now a hf ht hc hnow => ?_⟩
  refine ⟨(a.beginValidation.settle (a.session.generation + 1) .unauthenticated true).endValidation,
    ?_, ?_, ?_⟩
  · simp [App.start, App.startValidation, hf, ht, hc, hexpired now hnow, App.finishValidation,
      App.beginValidation]
  · simp [App.settle, App.beginValidation, App.endValidation]
  · simp [App.settle, App.beginValidation, App.endValidation]

/-- A moment is read from a token exactly if its claims name one that has a date, or are of one of two
other kinds: an array that holds a moment alone, and bytes that are no text.  A token of neither of these
two kinds is judged by the moment it names or else left to the backend, and no other token is. -/
theorem expiry_named_or_left_iff (token : Token) :
    (∀ exp, token.expiry? = some exp ↔
      token.Names exp ∧ Time.first ≤ exp ∧ exp ≤ Time.last ∨ token.Misread exp) ∧
    (((∀ exp, token.expiry? = some exp → token.Names exp) ∧
        ((∀ exp, ¬ token.Names exp) → token.LeftToBackend)) ↔ ∀ exp, ¬ token.Misread exp) := by
  refine ⟨fun exp => expiry?_iff_names_or_misread, ?_, fun h => ?_⟩
  · rintro ⟨hnames, -⟩ exp hmisread
    exact hmisread.not_names (hnames exp (expiry?_iff_names_or_misread.2 (.inr hmisread)))
  · have hnames : ∀ exp, token.expiry? = some exp → token.Names exp := by
      intro exp hexp
      rcases expiry?_iff_names_or_misread.1 hexp with hnamed | hmisread
      · exact hnamed.1
      · exact absurd hmisread (h exp)
    refine ⟨hnames, fun hnone => leftToBackend_of_none ?_⟩
    cases hexp : token.expiry? with
    | none => rfl
    | some exp => exact absurd (hnames exp hexp) (hnone exp)

/-- A moment that is named further inside is left to the backend. -/
theorem nested_moment_is_left :
    let token : Token := ⟨"h.eyJhIjp7ImV4cCI6MX19.s"⟩
    (∀ exp, ¬ token.Misread exp) ∧ (∀ exp, ¬ token.Names exp) ∧ token.LeftToBackend := by
  intro token
  have hunread : token.expiry? = none := by decide +kernel
  have hmisread : ∀ exp, ¬ token.Misread exp := by
    intro exp h
    rw [((expiry_named_or_left_iff token).1 exp).2 (.inr h)] at hunread
    cases hunread
  have hnames : ∀ exp, ¬ token.Names exp := by
    rintro exp ⟨claims, hclaims, gap, ms, cs, gap', hgap, hspells, hgap', htext, hms⟩
    have hcarries : token.Carries (Text.Octets.ofString "\x7b\"a\":\x7b\"exp\":1\x7d\x7d") :=
      carries_iff.2 (by decide +kernel)
    obtain rfl := Text.Octets.ofString_inj.1 (hcarries.unique hclaims)
    have hread := Raw.read?_of_spells hgap hspells hgap'
    rw [← htext] at hread
    have hfields : ((Raw.read? ("\x7b\"a\":\x7b\"exp\":1\x7d\x7d".toList.map some)).bind
        fun raw => (raw.fields? ["exp"]).map (·.map Option.isSome)) = some [false] := by
      decide +kernel
    rw [hread, Option.bind_some, fields?_of_nameExpiry hms] at hfields
    cases hfields
  exact ⟨hmisread, hnames, ((expiry_named_or_left_iff token).2.2 hmisread).2 hnames⟩

/-- The claims `[1700000000]` name nothing, and neither do claims that are no text for a byte in a
member beside the expiry; but both tokens are judged, and cleared without the backend. -/
theorem unnamed_moments_are_judged :
    ((∀ exp, ¬ (Token.mk "h.WzE3MDAwMDAwMDBd.s").Names exp) ∧
      (Token.mk "h.WzE3MDAwMDAwMDBd.s").JudgedHere 1700000000) ∧
    (∀ exp, ¬ (Token.mk "h.eyJhIjoi_yIsImV4cCI6MTcwMDAwMDAwMH0.s").Names exp) ∧
      (Token.mk "h.eyJhIjoi_yIsImV4cCI6MTcwMDAwMDAwMH0.s").JudgedHere 1700000000 := by
  have hlone : (Token.mk "h.WzE3MDAwMDAwMDBd.s").Misread 1700000000 := by
    have hcarries : (Token.mk "h.WzE3MDAwMDAwMDBd.s").Carries
        (Text.Octets.ofString "[1700000000]") := carries_iff.2 (by decide +kernel)
    refine .lone hcarries ?_ (by decide)
    exact ⟨[], _, [], Json.isGap_nil, .array (.item Json.isGap_nil
      (.number (Numeral.spells_ofInt 1700000000)) (.endItems Json.isGap_nil)), Json.isGap_nil,
      by decide⟩
  have hgarbled : (Token.mk "h.eyJhIjoi_yIsImV4cCI6MTcwMDAwMDAwMH0.s").Misread 1700000000 := by
    have hcarries : (Token.mk "h.eyJhIjoi_yIsImV4cCI6MTcwMDAwMDAwMH0.s").Carries
        (Text.Octets.ofString "\x7b\"a\":\"" ++ 0xFF ::
          Text.Octets.ofString "\",\"exp\":1700000000\x7d") := carries_iff.2 (by decide +kernel)
    refine .garbled hcarries (fun text htext => ?_) (by decide +kernel)
    have hread := Text.Octets.text?_read_ofString text
    rw [← htext] at hread
    exact absurd hread (by rw [show Received.text? _ = none by decide +kernel]; simp)
  exact ⟨⟨fun _ => hlone.not_names, judgedHere_of_some (expiry?_iff_names_or_misread.2 (.inr hlone))⟩,
    fun _ => hgarbled.not_names,
    judgedHere_of_some (expiry?_iff_names_or_misread.2 (.inr hgarbled))⟩

end SessionGuard.Token
