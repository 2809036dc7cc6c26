import SessionGuard.Proofs.Json.Reading

/-!
# What is written is JSON

A text in quotes stands for the text (`writes_escape`), and a value is a text of the grammar that holds
it, over several lines (`spells_pretty`) as on one (`spells_compact`).  So the members of an object of
texts are read as they were written (`texts?_text`).
-/

namespace SessionGuard.Json

open SessionGuard.Text (Received)

variable {v : Json} {raw : Raw}

/-! ## Strings -/

theorem hexDigit_hexDigit : ∀ n < 16, "0123456789abcdef".toList[n]? = some (hexDigit n) := by decide

/-- A character inside quotes stands for itself. -/
theorem writes_escape {text cs : List Char} (c : Char) (h : Writes text cs) :
    Writes (c :: text) (escape c ++ cs) := by
  have short {e d : Char} (he : (e, d) ∈ shortEscapes) (hc : c = d) :
      Writes (c :: text) (['\\', e] ++ cs) := hc ▸ .short he h
  unfold escape
  split
  · exact short (by decide) ‹c = '"'›
  split
  · exact short (by decide) ‹c = '\\'›
  split
  · exact short (by decide) ‹c = '\n'›
  split
  · exact short (by decide) ‹c = '\r'›
  split
  · exact short (by decide) ‹c = '\t'›
  split
  · exact short (by decide) ‹c = '\x08'›
  split
  · exact short (by decide) ‹c = '\x0c'›
  split
  · refine .number ⟨0, 0, c.toNat / 16, c.toNat % 16, .inl rfl, .inl rfl,
      .inl (hexDigit_hexDigit _ (by omega)), .inl (hexDigit_hexDigit _ (by omega)), by omega⟩ h
  · next hquote hbackslash _ _ _ _ _ hsmall =>
    exact .plain ⟨Nat.not_lt.1 hsmall, hquote, hbackslash⟩ h

/-- The inside of the quotes around a text. -/
def escaped (s : String) : List Char := s.toList.flatMap escape

theorem quote_eq (s : String) : quote s = '"' :: (escaped s ++ ['"']) := rfl

theorem writes_escaped (s : String) : Writes s.toList (escaped s) := by
  unfold escaped
  induction s.toList with
  | nil => exact .nil
  | cons c cs ih => exact writes_escape c ih

/-! ## Values -/

mutual

/-- A value as it is written; doubles are left out, since nothing that is written holds one. -/
def Raw.ofJson? : Json → Option Raw
  | .null => some .null
  | .bool b => some (.bool b)
  | .number (.int n) => some (.number (.ofInt n))
  | .number (.float _) => none
  | .string s => some (.string ((escaped s).map some))
  | .array items => (Raw.ofItems? items).map .array
  | .object members => (Raw.ofMembers? members).map .object

def Raw.ofItems? : List Json → Option (List Raw)
  | [] => some []
  | v :: rest => do
    let v ← Raw.ofJson? v
    let vs ← Raw.ofItems? rest
    some (v :: vs)

def Raw.ofMembers? : List (String × Json) → Option (List (Received × Raw))
  | [] => some []
  | (k, v) :: rest => do
    let v ← Raw.ofJson? v
    let ms ← Raw.ofMembers? rest
    some (((escaped k).map some, v) :: ms)

end

/-- A value has a text that holds it. -/
def IsExact (v : Json) : Prop := (Raw.ofJson? v).isSome = true

@[simp] theorem isExact_null : IsExact .null := rfl

@[simp] theorem isExact_bool (b : Bool) : IsExact (.bool b) := rfl

@[simp] theorem isExact_int (n : Int) : IsExact (.int n) := rfl

@[simp] theorem isExact_string (s : String) : IsExact (.string s) := rfl

@[simp] theorem isExact_array {items : List Json} :
    IsExact (.array items) ↔ ∀ v ∈ items, IsExact v := by
  simp only [IsExact, Raw.ofJson?, Option.isSome_map]
  induction items with
  | nil => simp [Raw.ofItems?]
  | cons v rest ih =>
    rw [List.forall_mem_cons, ← ih, Raw.ofItems?]
    cases Raw.ofJson? v <;> cases Raw.ofItems? rest <;> simp

@[simp] theorem isExact_object {members : List (String × Json)} :
    IsExact (.object members) ↔ ∀ m ∈ members, IsExact m.2 := by
  simp only [IsExact, Raw.ofJson?, Option.isSome_map]
  induction members with
  | nil => simp [Raw.ofMembers?]
  | cons m rest ih =>
    rw [List.forall_mem_cons, ← ih, Raw.ofMembers?]
    cases Raw.ofJson? m.2 <;> cases Raw.ofMembers? rest <;> simp

theorem isGap_newline (level : Nat) : IsGap (newline level) := by
  intro c hc
  rcases List.mem_cons.1 hc with rfl | hc
  · simp
  · exact .inl (List.eq_of_mem_replicate hc)

mutual

/-- A value over several lines is a text of the grammar. -/
theorem spells_spread (level : Nat) (v : Json) {raw : Raw} (h : Raw.ofJson? v = some raw) :
    Spells (.value raw) (v.spread level) := by
  cases v with
  | null => cases h; exact .null
  | bool b =>
    cases h
    cases b
    · exact .false
    · exact .true
  | number n =>
    cases n with
    | int n => cases h; exact .number (Numeral.spells_ofInt n)
    | float x => cases h
  | string s => cases h; exact .string (writes_escaped s).inside
  | array items =>
    simp only [Raw.ofJson?, Option.map_eq_some_iff] at h
    obtain ⟨vs, hvs, rfl⟩ := h
    cases items with
    | nil => cases hvs; exact .array (.noItem isGap_nil)
    | cons v rest =>
      simp only [Raw.ofItems?, Option.bind_eq_bind, Option.bind_eq_some_iff] at hvs
      obtain ⟨first, hfirst, vs, hvs, ⟨⟩⟩ := hvs
      have hitems := Spells.item (isGap_newline (level + 1)) (spells_spread (level + 1) v hfirst)
        (spells_spreadItems (level + 1) rest hvs (isGap_newline level))
      simpa [spread] using Spells.array hitems
  | object members =>
    simp only [Raw.ofJson?, Option.map_eq_some_iff] at h
    obtain ⟨ms, hms, rfl⟩ := h
    cases members with
    | nil => cases hms; exact .object (.noMember isGap_nil)
    | cons m rest =>
      simp only [Raw.ofMembers?, Option.bind_eq_bind, Option.bind_eq_some_iff] at hms
      obtain ⟨first, hfirst, ms, hms, ⟨⟩⟩ := hms
      have hmembers := Spells.member (isGap_newline (level + 1)) (writes_escaped m.1).inside
        isGap_nil isGap_blank (spells_spread (level + 1) m.2 hfirst)
        (spells_spreadMembers (level + 1) rest hms (isGap_newline level))
      simpa [spread, quote_eq] using Spells.object hmembers

theorem spells_spreadItems (level : Nat) (items : List Json) {vs : List Raw} {gap : List Char}
    (h : Raw.ofItems? items = some vs) (hgap : IsGap gap) :
    Spells (.moreItems vs) (spreadItems level items ++ (gap ++ [']'])) := by
  cases items with
  | nil => cases h; exact .endItems hgap
  | cons v rest =>
    simp only [Raw.ofItems?, Option.bind_eq_bind, Option.bind_eq_some_iff] at h
    obtain ⟨first, hfirst, vs, hvs, ⟨⟩⟩ := h
    have hitems := Spells.item (isGap_newline level) (spells_spread level v hfirst)
      (spells_spreadItems level rest hvs hgap)
    simpa [spreadItems] using Spells.nextItem isGap_nil (by simp) hitems

theorem spells_spreadMembers (level : Nat) (members : List (String × Json))
    {ms : List (Received × Raw)} {gap : List Char} (h : Raw.ofMembers? members = some ms)
    (hgap : IsGap gap) :
    Spells (.moreMembers ms) (spreadMembers level members ++ (gap ++ ['\x7d'])) := by
  cases members with
  | nil => cases h; exact .endMembers hgap
  | cons m rest =>
    simp only [Raw.ofMembers?, Option.bind_eq_bind, Option.bind_eq_some_iff] at h
    obtain ⟨first, hfirst, ms, hms, ⟨⟩⟩ := h
    have hmembers := Spells.member (isGap_newline level) (writes_escaped m.1).inside
      isGap_nil isGap_blank (spells_spread level m.2 hfirst)
      (spells_spreadMembers level rest hms hgap)
    simpa [spreadMembers, quote_eq] using Spells.nextMember isGap_nil (by simp) hmembers

end

theorem spells_pretty (h : Raw.ofJson? v = some raw) : Spells (.value raw) v.pretty.toList := by
  rw [pretty, String.toList_ofList]
  exact spells_spread 0 v h

mutual

/-- A value on one line is a text of the grammar. -/
theorem spells_compact (v : Json) {raw : Raw} (h : Raw.ofJson? v = some raw) :
    Spells (.value raw) v.compact := by
  cases v with
  | null => cases h; exact .null
  | bool b =>
    cases h
    cases b
    · exact .false
    · exact .true
  | number n =>
    cases n with
    | int n => cases h; exact .number (Numeral.spells_ofInt n)
    | float x => cases h
  | string s => cases h; exact .string (writes_escaped s).inside
  | array items =>
    simp only [Raw.ofJson?, Option.map_eq_some_iff] at h
    obtain ⟨vs, hvs, rfl⟩ := h
    exact .array (spells_compactItems items hvs)
  | object members =>
    simp only [Raw.ofJson?, Option.map_eq_some_iff] at h
    obtain ⟨ms, hms, rfl⟩ := h
    exact .object (spells_compactMembers members hms)

theorem spells_compactItems (items : List Json) {vs : List Raw} (h : Raw.ofItems? items = some vs) :
    Spells (.items vs) (compactItems items) := by
  cases items with
  | nil => cases h; exact .noItem isGap_nil
  | cons v rest =>
    simp only [Raw.ofItems?, Option.bind_eq_bind, Option.bind_eq_some_iff] at h
    obtain ⟨first, hfirst, vs, hvs, ⟨⟩⟩ := h
    have hv := spells_compact v hfirst
    cases rest with
    | nil => cases hvs; exact .item isGap_nil hv (.endItems isGap_nil)
    | cons w rest =>
      have hmore := spells_compactItems (w :: rest) hvs
      have hne : vs ≠ [] := by
        rintro rfl
        simp [Raw.ofItems?, Option.bind_eq_some_iff] at hvs
      exact .item isGap_nil hv (.nextItem isGap_nil hne hmore)

theorem spells_compactMembers (members : List (String × Json)) {ms : List (Received × Raw)}
    (h : Raw.ofMembers? members = some ms) : Spells (.members ms) (compactMembers members) := by
  cases members with
  | nil => cases h; exact .noMember isGap_nil
  | cons m rest =>
    simp only [Raw.ofMembers?, Option.bind_eq_bind, Option.bind_eq_some_iff] at h
    obtain ⟨first, hfirst, ms, hms, ⟨⟩⟩ := h
    have hv := spells_compact m.2 hfirst
    have hkey := (writes_escaped m.1).inside
    cases rest with
    | nil =>
      cases hms
      have hlast := Spells.member isGap_nil hkey isGap_nil isGap_nil hv (.endMembers isGap_nil)
      simpa [compactMembers, quote_eq] using hlast
    | cons m' rest =>
      have hmore := spells_compactMembers (m' :: rest) hms
      have hne : ms ≠ [] := by
        rintro rfl
        simp [Raw.ofMembers?, Option.bind_eq_some_iff] at hms
      have hall := Spells.member isGap_nil hkey isGap_nil isGap_nil hv (.nextMember isGap_nil hne hmore)
      simpa [compactMembers, quote_eq] using hall

end

/-- A value is read again from the line it is written on. -/
theorem read?_text (h : Raw.ofJson? v = some raw) :
    Raw.read? (Received.ofString v.text) = some raw := by
  have hread := Raw.read?_of_spells isGap_nil (spells_compact v h) isGap_nil
  simpa [Received.ofString, text] using hread

/-! ## Objects of texts -/

/-- The object with texts as its members. -/
def ofTexts (fields : List (String × String)) : Json :=
  .object (fields.map fun f => (f.1, .string f.2))

/-- A member of an object whose value is a text. -/
def Raw.textMember? (m : Received × Raw) : Option (String × String) := do
  some (← Raw.decode? m.1, ← m.2.text?)

/-- The members of an object as they stand, if all of them are texts. -/
def Raw.texts? : Raw → Option (List (String × String))
  | .object members => members.mapM Raw.textMember?
  | _ => none

/-- The members of an object of texts as they are written. -/
def Raw.ofTexts (fields : List (String × String)) : List (Received × Raw) :=
  fields.map fun f => ((escaped f.1).map some, .string ((escaped f.2).map some))

theorem ofJson?_ofTexts (fields : List (String × String)) :
    Raw.ofJson? (ofTexts fields) = some (.object (Raw.ofTexts fields)) := by
  have hmembers : Raw.ofMembers? (fields.map fun f => (f.1, Json.string f.2)) =
      some (Raw.ofTexts fields) := by
    induction fields with
    | nil => rfl
    | cons f rest ih => simp [Raw.ofMembers?, Raw.ofJson?, ih, Raw.ofTexts]
  rw [ofTexts, Raw.ofJson?, hmembers, Option.map_some]

theorem texts?_ofTexts (fields : List (String × String)) :
    (Raw.object (Raw.ofTexts fields)).texts? = some fields := by
  have hdecode (s : String) : Raw.decode? ((escaped s).map some) = some s :=
    Raw.decode?_of_denotes ⟨_, rfl, writes_escaped s⟩
  have hmember : (Raw.textMember? ∘ fun f : String × String =>
      ((escaped f.1).map some, Raw.string ((escaped f.2).map some))) = fun f => pure f := by
    funext f
    simp [Raw.textMember?, Raw.text?, hdecode]
  show (Raw.ofTexts fields).mapM Raw.textMember? = some fields
  rw [Raw.ofTexts, List.mapM_map, hmember, List.mapM_pure, List.map_id']
  rfl

/-- The members of an object of texts are read as they were written: no text changes, adds or hides
another. -/
theorem texts?_text (fields : List (String × String)) :
    (Raw.read? (Received.ofString (ofTexts fields).text)).bind Raw.texts? = some fields := by
  rw [read?_text (ofJson?_ofTexts fields)]
  exact texts?_ofTexts fields

end SessionGuard.Json
