import SessionGuard.Json.Numeral
import SessionGuard.Proofs.Text.Trim
import SessionGuard.Url.Parser

/-!
# Addresses at an origin

An origin is a scheme of the web, the name of a host and perhaps a port.  Whatever path stands behind
it, the address is read part by part (`ofText?_origin`); slashes alone are dropped before a path is put
there (`Origin.dropSlashes_setting`).
-/

namespace SessionGuard.Url

/-! ## Origins -/

/-- Where an address on the web begins: a scheme, the name of a host and, if it is said, the digits of
a port. -/
structure Origin where
  scheme : String
  name : List Char
  port : Option (List Char)

namespace Origin

/-- The port of an origin as it stands behind the name. -/
def portText (o : Origin) : List Char := (o.port.map fun digits => ':' :: digits).getD []

/-- An origin as text. -/
def text (o : Origin) : List Char := o.scheme.toList ++ (':' :: '/' :: '/' :: (o.name ++ o.portText))

/-- The signs that end or part an authority, or are left out of an address. -/
def signs : List Char := "/\\?#@\t\n\r".toList

/-- A name that an authority does not part: one without colons, or an address between brackets. -/
inductive IsName : List Char → Prop
  | bare {cs : List Char} (h : ∀ c ∈ cs, c ∉ signs ∧ c ≠ ':' ∧ c ≠ '[' ∧ c ≠ ']') : IsName cs
  | bracketed {cs : List Char} (h : ∀ c ∈ cs, c ∉ signs ∧ c ≠ '[' ∧ c ≠ ']') :
      IsName ('[' :: (cs ++ [']']))

/-- An origin has the form `http(s)://name` or `http(s)://name:port`, and the name is that of a host. -/
structure Names (o : Origin) (host : Host) : Prop where
  scheme : o.scheme = "http" ∨ o.scheme = "https"
  whole : IsName o.name
  host : Host.ofText? o.name = .ok host
  digits : ∀ ds, o.port = some ds → ds ≠ [] ∧ ∀ d ∈ ds, d.isDigit = true
  bound : ∀ ds, o.port = some ds → Json.Numeral.digitsValue ds ≤ 65535

/-- The port of an origin, if it is not the usual one of the scheme. -/
def port? (o : Origin) : Option Nat :=
  (o.port.map Json.Numeral.digitsValue).filter fun n => usualPort? o.scheme ≠ some n

theorem IsName.not_mem_signs {cs : List Char} (h : IsName cs) {c : Char} (hc : c ∈ cs) :
    c ∉ signs := by
  cases h with
  | bare h => exact (h c hc).1
  | bracketed h =>
    simp only [List.mem_cons, List.mem_append, List.not_mem_nil, or_false] at hc
    rcases hc with rfl | hc | rfl
    · decide
    · exact (h c hc).1
    · decide

end Origin

variable {o : Origin} {host : Host} {path : List Char}

/-- A host is named by something. -/
theorem isEmpty_of_ofText? {cs : List Char} (h : Host.ofText? cs = .ok host) :
    host.isEmpty = false := by
  unfold Host.ofText? at h
  split at h
  · split at h
    · cases h; rfl
    · cases h
  · simp only at h
    split at h
    · cases h
    · cases h
    · next domain hne _ =>
      split at h
      · split at h
        · cases h; rfl
        · cases h
      · cases h
        have hdomain : domain ≠ [] := fun hnil => hne (by simp [hnil])
        simpa [Host.isEmpty] using hdomain

theorem ne_nil_of_names (h : o.Names host) : o.name ≠ [] := by
  intro hnil
  have hhost := h.host
  rw [hnil] at hhost
  cases hhost

/-! ## Reading -/

/-- A path that can stand behind an origin as it is. -/
structure IsPath (path : List Char) : Prop where
  slash : path.head? = some '/'
  shown : ∀ c ∈ path, ' ' < c ∧ c ≠ '?' ∧ c ≠ '#'

theorem IsPath.exists_cons (h : IsPath path) : ∃ rest, path = '/' :: rest := by
  cases path with
  | nil => exact absurd h.slash (by simp)
  | cons c rest => exact ⟨rest, by simpa using h.slash⟩

/-- No sign stands in an origin behind the scheme. -/
theorem not_mem_authority (h : o.Names host) {c : Char} (hc : c ∈ Origin.signs) :
    c ∉ o.name ++ o.portText := by
  intro hmem
  rcases List.mem_append.1 hmem with hname | hport
  · exact h.whole.not_mem_signs hname hc
  · cases hp : o.port with
    | none => simp [Origin.portText, hp] at hport
    | some ds =>
      simp only [Origin.portText, hp, Option.map_some, Option.getD_some, List.mem_cons] at hport
      rcases hport with rfl | hport
      · exact absurd hc (by decide)
      · have hdigit := (h.digits ds hp).2 c hport
        have hall : ∀ c ∈ Origin.signs, c.isDigit = false := Text.forall_mem_of_all (by decide)
        rw [hall c hc] at hdigit
        cases hdigit

/-- Nothing is cleaned away from an address at an origin. -/
theorem cleaned_origin (h : o.Names host) (hpath : IsPath path) :
    cleaned (String.ofList (o.text ++ path)) = o.text ++ path := by
  obtain ⟨rest, hrest⟩ := hpath.exists_cons
  have hhead : (o.text ++ path).dropWhile (· ≤ ' ') = o.text ++ path := by
    rcases h.scheme with hs | hs <;> simp [Origin.text, hs]
  have hlast : ∀ c, (o.text ++ path).getLast? = some c → decide (c ≤ ' ') = false := by
    intro c hc
    have hmem : c ∈ path := by
      rw [List.getLast?_append, hrest, List.getLast?_cons, Option.some_or] at hc
      exact hrest ▸ List.mem_of_getLast? (List.getLast?_cons.trans hc)
    exact decide_eq_false (Char.not_le.2 (hpath.shown c hmem).1)
  have hkept : ∀ c ∈ o.text ++ path, (c ≠ '\t' && c ≠ '\n' && c ≠ '\r') = true := by
    have hsep {c : Char} (hc : c = '\t' ∨ c = '\n' ∨ c = '\r') : c ∉ o.text ++ path := by
      have hsign : c ∈ Origin.signs ∧ c ∉ "http://".toList ∧ c ∉ "https://".toList ∧ ¬ ' ' < c := by
        rcases hc with rfl | rfl | rfl <;> decide
      obtain ⟨hmem, hhttp, hhttps, hblank⟩ := hsign
      have hauthority := not_mem_authority h hmem
      intro hin
      rcases List.mem_append.1 hin with hin | hin
      · rcases h.scheme with hs | hs <;> simp_all [Origin.text]
      · exact hblank (hpath.shown c hin).1
    intro c hc
    simp only [ne_eq, Bool.and_eq_true, decide_eq_true_eq]
    exact ⟨⟨fun he => hsep (.inl he) hc, fun he => hsep (.inr (.inl he)) hc⟩,
      fun he => hsep (.inr (.inr he)) hc⟩
  rw [cleaned, String.toList_ofList, hhead, Text.dropTrailing_eq_self hlast, List.filter_eq_self.2 hkept]

theorem scheme?_origin (h : o.Names host) (path : List Char) :
    scheme? (o.text ++ path) =
      some (o.scheme, '/' :: '/' :: (o.name ++ (o.portText ++ path))) := by
  have hletters : ('h'.isAlphanum = true ∧ 't'.isAlphanum = true ∧ 'p'.isAlphanum = true ∧
      's'.isAlphanum = true) ∧ ':'.isAlphanum = false ∧ 'h'.isAlpha = true := by decide
  rcases h.scheme with hs | hs <;> simp [scheme?, Origin.text, hs, hletters]

/-- Between brackets an authority is not parted. -/
theorem splitHost_bracketed {cs rest name after : List Char} (h : ∀ c ∈ cs, c ≠ '[' ∧ c ≠ ']')
    (hrest : splitHost false rest = (name, after)) :
    splitHost true (cs ++ ']' :: rest) = (cs ++ ']' :: name, after) := by
  induction cs with
  | nil => simp [splitHost, hrest]
  | cons c cs ih =>
    have hc := h c (by simp)
    simp [splitHost, hc, ih fun d hd => h d (by simp [hd])]

/-- The host of an authority ends in front of its port. -/
theorem splitHost_origin (h : o.Names host) : splitHost false (o.name ++ o.portText) =
    (o.name, o.portText) := by
  have hport : splitHost false o.portText = ([], o.portText) := by
    cases hp : o.port <;> simp [Origin.portText, hp, splitHost]
  have hwhole := h.whole
  generalize o.name = name at hwhole
  cases hwhole with
  | bare hbare =>
    induction name with
    | nil => exact hport
    | cons c name ih =>
      obtain ⟨-, hne⟩ := hbare c (by simp)
      simp [splitHost, hne, ih fun d hd => hbare d (by simp [hd])]
  | bracketed hinside =>
    have hbracketed := splitHost_bracketed (fun c hc => (hinside c hc).2) hport
    simp [splitHost, hbracketed]

/-- Where all characters are in a class, the run of the class is the whole. -/
theorem span_of_forall {p : Char → Bool} {cs : List Char} (h : ∀ c ∈ cs, p c = true) :
    cs.takeWhile p = cs ∧ cs.dropWhile p = [] :=
  ⟨by simpa using @List.takeWhile_append_of_pos _ p cs [] h,
    by simpa using @List.dropWhile_append_of_pos _ p cs [] h⟩

theorem splitUser?_of_not_mem {cs : List Char} (h : '@' ∉ cs) : splitUser? cs = none := by
  have hall : ∀ c ∈ cs.reverse, decide (c ≠ '@') = true := by
    intro c hc
    exact decide_eq_true fun he => h (he ▸ List.mem_reverse.1 hc)
  rw [splitUser?, (span_of_forall hall).1, List.reverse_reverse, if_pos rfl]

/-- The port of an authority is read to its end. -/
theorem port?_origin (h : o.Names host) {ds : List Char} (hp : o.port = some ds) :
    port? (usualPort? o.scheme) ds = .ok (o.port?, []) := by
  obtain ⟨hne, hdigits⟩ := h.digits ds hp
  obtain ⟨htake, hdrop⟩ := span_of_forall hdigits
  have hempty : ds.isEmpty = false := by simpa using hne
  have hbound : ¬ 65535 < ds.foldl (fun n c => 10 * n + (c.toNat - 48)) 0 :=
    Nat.not_lt.2 (h.bound ds hp)
  simp only [port?, htake, hdrop, hempty, hbound, Origin.port?, hp, Json.Numeral.digitsValue,
    Option.map_some, Option.filter_some]
  split <;> simp_all

/-- A path ends with the text it stands in. -/
theorem IsPath.span_endsPath (h : IsPath path) : path.takeWhile (fun c => !endsPath c) = path ∧
    path.dropWhile (fun c => !endsPath c) = [] := by
  have hends : ∀ c ∈ path, (!endsPath c) = true := by
    intro c hc
    obtain ⟨-, hquery, hfragment⟩ := h.shown c hc
    simp [endsPath, hquery, hfragment]
  exact span_of_forall hends

/-- The authority begins right behind the slashes. -/
theorem dropWhile_slashes (h : o.Names host) (path : List Char) :
    ('/' :: '/' :: (o.name ++ (o.portText ++ path))).dropWhile (fun c => c = '/' || c = '\\') =
      (o.name ++ o.portText) ++ path := by
  obtain ⟨c, name, hc⟩ := List.exists_cons_of_ne_nil (ne_nil_of_names h)
  have hsign := h.whole.not_mem_signs (c := c) (by simp [hc])
  have hne : c ≠ '/' ∧ c ≠ '\\' := by
    refine ⟨?_, ?_⟩ <;> rintro rfl <;> exact hsign (by decide)
  simp [hc, hne]

/-- The path begins where the authority ends. -/
theorem span_endsAuthority (h : o.Names host) (hpath : IsPath path) :
    ((o.name ++ o.portText) ++ path).takeWhile (fun c => !endsAuthority true c) =
        o.name ++ o.portText ∧
      ((o.name ++ o.portText) ++ path).dropWhile (fun c => !endsAuthority true c) = path := by
  obtain ⟨rest, hrest⟩ := hpath.exists_cons
  have hinside : ∀ c ∈ o.name ++ o.portText, (!endsAuthority true c) = true := by
    intro c hc
    have hne {d : Char} (hd : d ∈ Origin.signs) : c ≠ d :=
      fun he => not_mem_authority h hd (he ▸ hc)
    simp [endsAuthority, hne (d := '/') (by decide), hne (d := '?') (by decide),
      hne (d := '#') (by decide), hne (d := '\\') (by decide)]
  rw [List.takeWhile_append_of_pos hinside, List.dropWhile_append_of_pos hinside, hrest]
  simp [endsAuthority]

/-- An address at an origin is read part by part. -/
theorem ofText?_origin (h : o.Names host) (hpath : IsPath path) :
    ofText? (String.ofList (o.text ++ path)) =
      .ok ⟨o.scheme, "", none, some host, o.port?, .segments (segmentsOf true path), none, none⟩ := by
  have hspecial : isSpecial o.scheme = true ∧ o.scheme ≠ "file" := by
    rcases h.scheme with hs | hs <;> rw [hs] <;> decide
  obtain ⟨hauthority, hafter⟩ := span_endsAuthority h hpath
  obtain ⟨htake, hdrop⟩ := hpath.span_endsPath
  have hname := List.isEmpty_eq_false_iff.2 (ne_nil_of_names h)
  have huser := splitUser?_of_not_mem (not_mem_authority h (c := '@') (by decide))
  rw [ofText?, cleaned_origin h hpath, scheme?_origin h]
  simp only [hspecial.1, hspecial.2, if_false, if_true, dropWhile_slashes h]
  unfold withAuthority
  simp only [hspecial.1, hauthority, hafter, huser, Option.map_none, Option.getD_none,
    Option.isSome_none, Bool.false_and, splitHost_origin h, hname, h.host]
  cases hp : o.port with
  | none =>
    simp [Origin.portText, Origin.port?, hp, bind, Except.bind, htake, hdrop, queryOf]
  | some ds =>
    simp [Origin.portText, hp, port?_origin h hp, bind, Except.bind, htake, hdrop, queryOf]

/-! ## Slashes behind an origin -/

namespace Origin

/-- An origin as it is set, with slashes behind it. -/
def setting (o : Origin) (slashes : Nat) : String :=
  String.ofList (o.text ++ List.replicate slashes '/')

/-- The slashes behind an origin are dropped, and nothing else is. -/
theorem dropSlashes_setting (h : o.Names host) (slashes : Nat) :
    Text.dropSlashes (o.setting slashes) = String.ofList o.text := by
  have hslashes : ∀ c ∈ List.replicate slashes '/', (c == '/') = true := by
    intro c hc
    rw [List.eq_of_mem_replicate hc]
    rfl
  have hlast : ∀ c, o.text.getLast? = some c → (c == '/') = false := by
    intro c hc
    have hne : o.name ++ o.portText ≠ [] := by simp [ne_nil_of_names h]
    obtain ⟨init, d, hd⟩ := (List.eq_nil_or_concat _).resolve_left hne
    obtain rfl : d = c := by simpa [text, hd, List.getLast?_cons] using hc
    have hmem : d ∈ o.name ++ o.portText := by simp [hd]
    simp only [beq_eq_false_iff_ne]
    rintro rfl
    exact not_mem_authority h (by decide) hmem
  rw [Text.dropSlashes, setting, String.toList_ofList, Text.dropTrailing_append_run hslashes,
    Text.dropTrailing_eq_self hlast]

end Origin

end SessionGuard.Url
