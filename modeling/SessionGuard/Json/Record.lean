import SessionGuard.Json.Numeral
import SessionGuard.Sorted

/-!
# Reading values and records

`Raw.value?` reads a whole value, at most 127 levels deep, a repeated member counting once with
its last value.  `Raw.fields?` reads a record: an object whose other members are ignored, or an
array with the fields in their order.
-/

namespace SessionGuard.Json

open SessionGuard.Text (Received)

namespace Raw

mutual

/-- The value of a text, its members sorted by name. -/
def valueAt? : Nat → Raw → Option Json
  | _, null => some .null
  | _, bool b => some (.bool b)
  | _, number n => n.value?.map .number
  | _, string s => (decode? s).map .string
  | 0, array _ => none
  | depth + 1, array items =>
    if depth = 0 then none else (itemsAt? depth items).map .array
  | 0, object _ => none
  | depth + 1, object members =>
    if depth = 0 then none else (membersAt? depth members []).map .object

def itemsAt? : Nat → List Raw → Option (List Json)
  | _, [] => some []
  | depth, v :: rest => do
    let v ← valueAt? depth v
    let vs ← itemsAt? depth rest
    some (v :: vs)

def membersAt? : Nat → List (Received × Raw) → List (String × Json) →
    Option (List (String × Json))
  | _, [], known => some known
  | depth, (k, v) :: rest, known => do
    let k ← decode? k
    let v ← valueAt? depth v
    membersAt? depth rest (Sorted.insert k v known)

end

/-- The value of a text, at most 127 levels deep. -/
def value? (v : Raw) : Option Json := valueAt? 128 v

/-! ## Records -/

/-- The values of a name among members: one at most. -/
def field? (members : List (String × Raw)) (name : String) : Option (Option Raw) :=
  match members.filter fun m => m.1 == name with
  | [] => some none
  | [(_, v)] => some (some v)
  | _ => none

/-- The members of an object with their names decoded. -/
def named? (members : List (Received × Raw)) : Option (List (String × Raw)) :=
  members.mapM fun (k, v) => (decode? k).map fun k => (k, v)

/-- The values of the named fields of a record, in the order of the names. -/
def fields? (names : List String) : Raw → Option (List (Option Raw))
  | object members => do
    let members ← named? members
    names.mapM (field? members)
  | array items =>
    if items.length ≤ names.length then
      some (items.map some ++ List.replicate (names.length - items.length) none)
    else none
  | _ => none

/-- The text of a string. -/
def text? : Raw → Option String
  | string s => decode? s
  | _ => none

/-- The text of a string, or none for null. -/
def nullableText? : Raw → Option (Option String)
  | null => some none
  | string s => (decode? s).map some
  | _ => none

def bool? : Raw → Option Bool
  | bool b => some b
  | _ => none

/-- The integer of a number, if it fits in 64 bits with a sign. -/
def int64? : Raw → Option Int
  | number n => n.int64?
  | _ => none

/-- A field that must be there. -/
def required {α : Type} (read : Raw → Option α) : Option Raw → Option α
  | some v => read v
  | none => none

/-- A field that has a value of its own when it is missing. -/
def defaulted {α : Type} (value : α) (read : Raw → Option α) : Option Raw → Option α
  | some v => read v
  | none => some value

end Raw

/-- The value of a text. -/
def ofString? (s : String) : Option Json :=
  (Raw.read? (Text.Received.ofString s)).bind Raw.value?

end SessionGuard.Json
