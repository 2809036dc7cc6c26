import SessionGuard.Http.Response
import SessionGuard.Json.Models
import SessionGuard.Proofs.Json.Members
import SessionGuard.Proofs.Json.Writing
import SessionGuard.Proofs.Text.Octets

/-!
# Profiles in JSON

A profile is made up by the members of an object (`Describes`): each of its fields is what one member
says, or what a missing member stands for.  Objects that say the same in another way (`Restates`) make
up the same profile, and a text that a profile is written as tells that profile
(`decoding_ignores_presentation`).
-/

namespace SessionGuard.UserProfile

open Json (Denotes IsObject Raw escaped)
open Text (Received)

variable {user : UserProfile} {text : String} {named named' : List (String × Raw)}
  {name : String} {v w : Raw}

/-! ## What an object says -/

/-- The profile in a text. -/
def ofText? (text : String) : Option UserProfile :=
  (Raw.read? (Received.ofString text)).bind ofRaw?

/-- The names of the members that a profile is read from. -/
def memberNames : List String := ["id", "email", "full_name", "is_active", "is_superuser"]

/-- A value is of the type that a member of a name has. -/
def OfType (name : String) : Raw → Prop
  | .string _ => name ∈ ["id", "email", "full_name"]
  | .null => name = "full_name"
  | .bool _ => name ∈ ["is_active", "is_superuser"]
  | _ => False

/-- The values that a missing member of a name stands for. -/
inductive IsDefault : String → Raw → Prop
  | noName : IsDefault "full_name" .null
  | active : IsDefault "is_active" (.bool true)
  | ordinary : IsDefault "is_superuser" (.bool false)

/-- Members that say the same as others: these in another order, with one more of an unknown name and
any value, without one that has its default value, or with a string written in another way. -/
inductive Restates : List (String × Raw) → List (String × Raw) → Prop
  | permuted {named named' : List (String × Raw)} (h : named.Perm named') : Restates named named'
  | added {named : List (String × Raw)} {name : String} {v : Raw} (h : name ∉ memberNames) :
      Restates named ((name, v) :: named)
  | omitted {named : List (String × Raw)} {name : String} {v : Raw} (h : IsDefault name v) :
      Restates ((name, v) :: named) named
  | respelled {named : List (String × Raw)} {name text : String} {written written' : Received}
      (h : Denotes written text) (h' : Denotes written' text) :
      Restates ((name, .string written) :: named) ((name, .string written') :: named)
  | trans {named named' named'' : List (String × Raw)} (h : Restates named named')
      (h' : Restates named' named'') : Restates named named''

/-- Members make up a profile. -/
structure Describes (named : List (String × Raw)) (user : UserProfile) : Prop where
  id : (Raw.field? named "id").bind (Raw.required Raw.text?) = some user.id
  email : (Raw.field? named "email").bind (Raw.required Raw.text?) = some user.email
  fullName : (Raw.field? named "full_name").bind (Raw.defaulted none Raw.nullableText?) =
    some user.fullName
  isActive : (Raw.field? named "is_active").bind (Raw.defaulted true Raw.bool?) =
    some user.isActive
  isSuperuser : (Raw.field? named "is_superuser").bind (Raw.defaulted false Raw.bool?) =
    some user.isSuperuser

/-! ## Reading an object -/

theorem ofRaw?_object {ms : List (Received × Raw)} (h : Raw.named? ms = some named) :
    ofRaw? (.object ms) = some user ↔ Describes named user := by
  constructor
  · intro hread
    simp only [ofRaw?, Raw.fields?, h, List.mapM_cons, List.mapM_nil, Option.bind_eq_bind,
      Option.pure_def, Option.bind_some, Option.bind_eq_some_iff, Option.some.injEq] at hread
    obtain ⟨_, ⟨id, hid, _, ⟨email, hemail, _, ⟨name, hname, _, ⟨active, hactive, _,
      ⟨superuser, hsuperuser, rfl⟩, rfl⟩, rfl⟩, rfl⟩, rfl⟩, hread⟩ := hread
    simp only [Option.bind_eq_some_iff, Option.some.injEq] at hread
    obtain ⟨_, hid', _, hemail', _, hname', _, hactive', _, hsuperuser', rfl⟩ := hread
    exact
      { id := Option.bind_eq_some_iff.2 ⟨_, hid, hid'⟩
        email := Option.bind_eq_some_iff.2 ⟨_, hemail, hemail'⟩
        fullName := Option.bind_eq_some_iff.2 ⟨_, hname, hname'⟩
        isActive := Option.bind_eq_some_iff.2 ⟨_, hactive, hactive'⟩
        isSuperuser := Option.bind_eq_some_iff.2 ⟨_, hsuperuser, hsuperuser'⟩ }
  · intro hd
    obtain ⟨id, hid, hid'⟩ := Option.bind_eq_some_iff.1 hd.id
    obtain ⟨email, hemail, hemail'⟩ := Option.bind_eq_some_iff.1 hd.email
    obtain ⟨name, hname, hname'⟩ := Option.bind_eq_some_iff.1 hd.fullName
    obtain ⟨active, hactive, hactive'⟩ := Option.bind_eq_some_iff.1 hd.isActive
    obtain ⟨superuser, hsuperuser, hsuperuser'⟩ := Option.bind_eq_some_iff.1 hd.isSuperuser
    have hfields : (Raw.object ms).fields? memberNames =
        some [id, email, name, active, superuser] := by
      simp [Raw.fields?, memberNames, h, hid, hemail, hname, hactive, hsuperuser]
    rw [memberNames] at hfields
    simp [ofRaw?, hfields, hid', hemail', hname', hactive', hsuperuser']

theorem ofText?_eq_some_iff (h : IsObject text named) :
    ofText? text = some user ↔ Describes named user := by
  obtain ⟨ms, hread, hnamed⟩ := Json.isObject_iff.1 h
  rw [ofText?, hread, Option.bind_some, ofRaw?_object hnamed]

/-- Every object that tells a profile is one of named members. -/
theorem exists_isObject {ms : List (Received × Raw)}
    (hread : Raw.read? (Received.ofString text) = some (.object ms))
    (h : ofText? text = some user) : ∃ named, IsObject text named := by
  rw [ofText?, hread, Option.bind_some, ofRaw?, Raw.fields?] at h
  cases hnamed : Raw.named? ms with
  | none => simp [hnamed] at h
  | some named => exact ⟨named, Json.isObject_iff.2 ⟨ms, hread, hnamed⟩⟩

/-! ## Objects that say the same -/

theorem Describes.of_field? (h : Describes named user)
    (hsame : ∀ name ∈ memberNames, Raw.field? named' name = Raw.field? named name) :
    Describes named' user where
  id := (hsame "id" (by decide)) ▸ h.id
  email := (hsame "email" (by decide)) ▸ h.email
  fullName := (hsame "full_name" (by decide)) ▸ h.fullName
  isActive := (hsame "is_active" (by decide)) ▸ h.isActive
  isSuperuser := (hsame "is_superuser" (by decide)) ▸ h.isSuperuser

/-- A default that is left out is read all the same. -/
theorem bind_field?_of_default {α : Type} {read : Raw → Option α} {value found : α}
    (hv : read v = some value)
    (h : (Raw.field? ((name, v) :: named) name).bind (Raw.defaulted value read) = some found) :
    (Raw.field? named name).bind (Raw.defaulted value read) = some found := by
  rw [Raw.field?_cons_self] at h
  cases hfield : Raw.field? named name with
  | none => simp [hfield] at h
  | some other =>
    cases other with
    | some w => simp [hfield] at h
    | none => simpa [hfield, Raw.defaulted, hv] using h

/-- Values that are read alike can stand for each other. -/
theorem bind_field?_cons_congr {α : Type} {read : Option Raw → Option α}
    (h : read (some v) = read (some w)) (name' : String) :
    (Raw.field? ((name, v) :: named) name').bind read =
      (Raw.field? ((name, w) :: named) name').bind read := by
  by_cases hname : name = name'
  · subst hname
    rw [Raw.field?_cons_self, Raw.field?_cons_self]
    cases Raw.field? named name with
    | none => rfl
    | some other =>
      cases other with
      | some => rfl
      | none => simpa using h
  · rw [Raw.field?_cons_of_ne hname, Raw.field?_cons_of_ne hname]

theorem Describes.omitted (h : Describes ((name, v) :: named) user) (hv : IsDefault name v) :
    Describes named user := by
  have other {name' : String} (hne : name ≠ name') :
      Raw.field? named name' = Raw.field? ((name, v) :: named) name' :=
    (Raw.field?_cons_of_ne hne).symm
  refine ⟨?_, ?_, ?_, ?_, ?_⟩
  · rw [other (by cases hv <;> decide)]
    exact h.id
  · rw [other (by cases hv <;> decide)]
    exact h.email
  · cases hv with
    | noName => exact bind_field?_of_default rfl h.fullName
    | active | ordinary =>
      rw [other (by decide)]
      exact h.fullName
  · cases hv with
    | active => exact bind_field?_of_default rfl h.isActive
    | noName | ordinary =>
      rw [other (by decide)]
      exact h.isActive
  · cases hv with
    | ordinary => exact bind_field?_of_default rfl h.isSuperuser
    | noName | active =>
      rw [other (by decide)]
      exact h.isSuperuser

theorem Describes.respelled {written written' : Received} (hw : Denotes written text)
    (hw' : Denotes written' text) (h : Describes ((name, .string written) :: named) user) :
    Describes ((name, .string written') :: named) user := by
  have hsame : Raw.decode? written' = Raw.decode? written := by
    rw [Raw.decode?_of_denotes hw, Raw.decode?_of_denotes hw']
  have htext : Raw.required Raw.text? (some (.string written')) =
      Raw.required Raw.text? (some (.string written)) := hsame
  have hname : Raw.defaulted none Raw.nullableText? (some (.string written')) =
      Raw.defaulted none Raw.nullableText? (some (.string written)) :=
    congrArg (Option.map some) hsame
  have hflag (value : Bool) : Raw.defaulted value Raw.bool? (some (.string written')) =
      Raw.defaulted value Raw.bool? (some (.string written)) := rfl
  exact
    { id := (bind_field?_cons_congr htext _).trans h.id
      email := (bind_field?_cons_congr htext _).trans h.email
      fullName := (bind_field?_cons_congr hname _).trans h.fullName
      isActive := (bind_field?_cons_congr (hflag true) _).trans h.isActive
      isSuperuser := (bind_field?_cons_congr (hflag false) _).trans h.isSuperuser }

theorem Describes.restates (h : Describes named user) (hr : Restates named named') :
    Describes named' user := by
  induction hr with
  | permuted hperm => exact h.of_field? fun name _ => (Raw.field?_perm hperm name).symm
  | added hname =>
    refine h.of_field? fun name' hname' => Raw.field?_cons_of_ne ?_
    rintro rfl
    exact hname hname'
  | omitted hv => exact h.omitted hv
  | respelled hw hw' => exact h.respelled hw hw'
  | trans _ _ ih ih' => exact ih' (ih h)

/-! ## Objects that tell nothing -/

theorem exists_ofType_of_bind {α : Type} {read : Option Raw → Option α} {value : α}
    (h : (Raw.field? named name).bind read = some value)
    (htype : ∀ v, read (some v) = some value → OfType name v) :
    ∃ found, Raw.field? named name = some found ∧ ∀ v, found = some v → OfType name v := by
  obtain ⟨found, hfound, hread⟩ := Option.bind_eq_some_iff.1 h
  refine ⟨found, hfound, ?_⟩
  rintro v rfl
  exact htype v hread

/-- A member that a profile is read from is there once at most, and its value is of its type. -/
theorem Describes.ofType (h : Describes named user) (hname : name ∈ memberNames) :
    ∃ found, Raw.field? named name = some found ∧ ∀ v, found = some v → OfType name v := by
  have text {name s : String} (hn : name ∈ ["id", "email", "full_name"]) (v : Raw)
      (hv : Raw.text? v = some s) : OfType name v := by
    cases v with
    | string => exact hn
    | _ => cases hv
  have flag {name : String} {b : Bool} (hn : name ∈ ["is_active", "is_superuser"]) (v : Raw)
      (hv : Raw.bool? v = some b) : OfType name v := by
    cases v with
    | bool => exact hn
    | _ => cases hv
  have nullable {s : Option String} (v : Raw) (hv : Raw.nullableText? v = some s) :
      OfType "full_name" v := by
    cases v with
    | null => rfl
    | string => exact List.mem_of_elem_eq_true rfl
    | _ => cases hv
  simp only [memberNames, List.mem_cons, List.not_mem_nil, or_false] at hname
  rcases hname with rfl | rfl | rfl | rfl | rfl
  · exact exists_ofType_of_bind h.id (text (by decide))
  · exact exists_ofType_of_bind h.email (text (by decide))
  · exact exists_ofType_of_bind h.fullName nullable
  · exact exists_ofType_of_bind h.isActive (flag (by decide))
  · exact exists_ofType_of_bind h.isSuperuser (flag (by decide))

/-- A member that a profile is read from is not there again. -/
theorem ofText?_of_repeated (h : IsObject text named) (hname : name ∈ memberNames)
    (hagain : 1 < (named.map Prod.fst).count name) : ofText? text = none := by
  refine Option.eq_none_iff_forall_ne_some.2 fun user huser => ?_
  obtain ⟨found, hfound, -⟩ := ((ofText?_eq_some_iff h).1 huser).ofType hname
  rw [Raw.field?_eq_none_iff.2 hagain] at hfound
  cases hfound

/-- A member that a profile is read from has no value of another type. -/
theorem ofText?_of_mistyped (h : IsObject text named) (hname : name ∈ memberNames)
    (hm : (name, v) ∈ named) (htype : ¬ OfType name v) : ofText? text = none := by
  refine Option.eq_none_iff_forall_ne_some.2 fun user huser => ?_
  obtain ⟨found, hfound, hall⟩ := ((ofText?_eq_some_iff h).1 huser).ofType hname
  exact htype (hall v (Raw.eq_of_mem_of_field? hm hfound))

/-! ## Texts that are written -/

theorem ofRaw?_ofJson? (user : UserProfile) : (Raw.ofJson? user.toJson).bind ofRaw? = some user := by
  have hdecode (s : String) : Raw.decode? ((escaped s).map some) = some s :=
    Raw.decode?_of_denotes ⟨_, rfl, Json.writes_escaped s⟩
  obtain ⟨id, email, fullName, isActive, isSuperuser⟩ := user
  cases fullName with
  | none =>
    simp [toJson, Raw.ofJson?, Raw.ofMembers?, ofRaw?, Raw.fields?, Raw.named?, hdecode, Raw.field?,
      Raw.required, Raw.defaulted, Raw.text?, Raw.bool?, Raw.nullableText?]
  | some name =>
    simp [toJson, Raw.ofJson?, Raw.ofMembers?, ofRaw?, Raw.fields?, Raw.named?, hdecode, Raw.field?,
      Raw.required, Raw.defaulted, Raw.text?, Raw.bool?, Raw.nullableText?]

/-- A profile is read from the texts that it is written as. -/
theorem ofText?_written (user : UserProfile) :
    ofText? user.toJson.text = some user ∧ ofText? user.toJson.pretty = some user := by
  obtain ⟨raw, hraw, hread⟩ := Option.bind_eq_some_iff.1 (ofRaw?_ofJson? user)
  constructor
  · rw [ofText?, Json.read?_text hraw]
    exact hread
  · have hpretty := Raw.read?_of_spells Json.isGap_nil (Json.spells_pretty hraw) Json.isGap_nil
    simp only [List.nil_append, List.append_nil] at hpretty
    rw [ofText?, Received.ofString, hpretty]
    exact hread

/-- What a response brings is the profile in the text of its body. -/
theorem decode_eq_ok_iff {response : Http.Response} (hstatus : Http.isSuccess response.status = true)
    (hbody : response.body = some (Text.Octets.ofString text)) :
    response.decode ofRaw? = .ok user ↔ ofText? text = some user := by
  rw [Http.Response.decode, if_pos hstatus, hbody, Option.bind_some, Text.Octets.read_ofString]
  rw [← ofText?]
  cases ofText? text <;> simp

/-- A profile is read again from its text.  Whatever object a profile is read from, each object that
says the same in another way gives the same profile; and an object gives none if a member that a
profile is read from is there again or has a value of another type.  So it is with the body of a
response. -/
theorem decoding_ignores_presentation :
    (∀ user : UserProfile,
      ofText? user.toJson.text = some user ∧ ofText? user.toJson.pretty = some user) ∧
    (∀ text ms user, Raw.read? (Received.ofString text) = some (.object ms) →
      ofText? text = some user → ∃ named, IsObject text named) ∧
    (∀ text named, IsObject text named →
      (∀ text' named' user, IsObject text' named' → Restates named named' →
        ofText? text = some user → ofText? text' = some user) ∧
      (∀ name ∈ memberNames, 1 < (named.map Prod.fst).count name → ofText? text = none) ∧
      ∀ name ∈ memberNames, ∀ v, (name, v) ∈ named → ¬ OfType name v → ofText? text = none) ∧
    ∀ (response : Http.Response) (text : String) (user : UserProfile),
      Http.isSuccess response.status = true →
      response.body = some (Text.Octets.ofString text) →
      (response.decode ofRaw? = .ok user ↔ ofText? text = some user) := by
  refine ⟨ofText?_written, fun text ms user => exists_isObject, fun text named h => ⟨?_, ?_, ?_⟩,
    fun response text user => decode_eq_ok_iff⟩
  · intro text' named' user h' hr huser
    exact (ofText?_eq_some_iff h').2 (((ofText?_eq_some_iff h).1 huser).restates hr)
  · exact fun name hname => ofText?_of_repeated h hname
  · exact fun name hname v => ofText?_of_mistyped h hname

theorem decoding_ignores_presentation_of_member :
    let user : UserProfile := ⟨"u1", "a@b.com", none, true, false⟩
    ofText? user.toJson.text = some user ∧
    ofText? "\x7b\"org\":\x7b\"id\":7\x7d,\"is_active\":true,\"email\":\"a@b.com\",\"id\":\"u1\"\x7d" =
      some user ∧
    ofText? "\x7b\"id\":\"u1\",\"id\":\"u1\",\"email\":\"a@b.com\"\x7d" = none ∧
    ofText? "\x7b\"id\":7,\"email\":\"a@b.com\"\x7d" = none ∧
    Http.Response.decode ofRaw? ⟨200, some (Text.Octets.ofString user.toJson.text)⟩ = .ok user := by
  intro user
  obtain ⟨hwritten, -, hobject, hresponse⟩ := decoding_ignores_presentation
  let id : Raw := .string ((escaped "u1").map some)
  let email : Raw := .string ((escaped "a@b.com").map some)
  let org : Raw := .object [((escaped "id").map some, .number (.ofInt 7))]
  let full := [("id", id), ("email", email), ("is_active", .bool true), ("is_superuser", .bool false)]
  have hfull : IsObject user.toJson.text full :=
    Json.isObject_text [("id", .string "u1"), ("email", .string "a@b.com"), ("is_active", .bool true),
      ("is_superuser", .bool false)] rfl
  have hshort : IsObject _ [("org", org), ("is_active", .bool true), ("email", email), ("id", id)] :=
    Json.isObject_text [("org", .object [("id", .int 7)]), ("is_active", .bool true),
      ("email", .string "a@b.com"), ("id", .string "u1")] rfl
  have htwice : IsObject _ [("id", id), ("id", id), ("email", email)] :=
    Json.isObject_text [("id", .string "u1"), ("id", .string "u1"), ("email", .string "a@b.com")] rfl
  have hnumber : IsObject _ [("id", .number (.ofInt 7)), ("email", email)] :=
    Json.isObject_text [("id", .int 7), ("email", .string "a@b.com")] rfl
  have hreversed : Restates full [("is_superuser", .bool false), ("is_active", .bool true),
      ("email", email), ("id", id)] := .permuted (List.reverse_perm full).symm
  have hadded : Restates [("is_active", .bool true), ("email", email), ("id", id)]
      [("org", org), ("is_active", .bool true), ("email", email), ("id", id)] := .added (by decide)
  have hrestates := (hreversed.trans (.omitted .ordinary)).trans hadded
  exact ⟨(hwritten user).1, (hobject _ _ hfull).1 _ _ user hshort hrestates (hwritten user).1,
    (hobject _ _ htwice).2.1 "id" (by decide) (by decide),
    (hobject _ _ hnumber).2.2 "id" (by decide) _ (.head _) (fun h => h),
    (hresponse _ _ user rfl rfl).2 (hwritten user).1⟩

end SessionGuard.UserProfile
