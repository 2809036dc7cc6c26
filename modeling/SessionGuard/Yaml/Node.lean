import SessionGuard.Yaml.Token

/-!
# The nodes of a YAML document

A node is a scalar, a sequence, a mapping or an alias.  A document has at most one root; the empty
text has none.  `Node.ofTokens?` builds it from the tokens of a text with one document.
-/

namespace SessionGuard.Yaml

/-- The name of a node for its aliases, and its tag. -/
structure Props (α : Type) where
  anchor : Option α
  tag : Option (List Char)

def Props.empty {α : Type} : Props α := ⟨none, none⟩

/-- A node whose anchors are named by `α`. -/
inductive Node (α : Type)
  | scalar (props : Props α) (text : List Char) (style : Style)
  | sequence (props : Props α) (items : List (Node α))
  | mapping (props : Props α) (entries : List (Node α × Node α))
  | reference (name : α)

namespace Node

/-- What stands where nothing is written. -/
def missing {α : Type} : Node α := scalar .empty [] .plain

/-! ## From tokens -/

/-- The handles of tags and what they stand for. -/
abbrev Handles := List (List Char × List Char)

/-- The handles every document has. -/
def commonHandles : Handles :=
  [(['!'], ['!']), (['!', '!'], "tag:yaml.org,2002:".toList)]

/-- The tag that a handle and a suffix make. -/
def resolveTag? (handles : Handles) (handle suffix : List Char) : Option (List Char) :=
  if handle.isEmpty then some suffix
  else (handles.find? fun h => h.1 == handle).map fun h => h.2 ++ suffix

/-- The anchor and the tag in front, in either order. -/
def takeProps? (handles : Handles) : List Token → Option (Props (List Char) × List Token)
  | .anchor name :: .tag h s :: rest => do
    let tag ← resolveTag? handles h s
    some (⟨some name, some tag⟩, rest)
  | .anchor name :: rest => some (⟨some name, none⟩, rest)
  | .tag h s :: .anchor name :: rest => do
    let tag ← resolveTag? handles h s
    some (⟨some name, some tag⟩, rest)
  | .tag h s :: rest => do
    let tag ← resolveTag? handles h s
    some (⟨none, some tag⟩, rest)
  | rest => some (.empty, rest)

/-- Whether an entry of a block collection is empty before a token. -/
def endsEntry : List Token → Bool
  | .key :: _ => true
  | .value :: _ => true
  | .blockEnd :: _ => true
  | _ => false

mutual

/-- A node in front.  Block collections may stand where `block` holds, and in the value of a
block mapping a sequence that is not indented (`flat`). -/
def take? (handles : Handles) : Nat → Bool → Bool → List Token →
    Option (Node (List Char) × List Token)
  | 0, _, _, _ => none
  | _ + 1, _, _, .reference name :: rest => some (.reference name, rest)
  | fuel + 1, block, flat, ts => do
    let (props, ts) ← takeProps? handles ts
    match ts with
    | .entry :: _ =>
      if flat then
        let (items, ts) ← takeFlat? handles fuel ts
        some (.sequence props items, ts)
      else takeNone? props ts
    | .scalar text style :: ts =>
      let props := if props.tag == some ['!'] then { props with tag := none } else props
      some (.scalar props text style, ts)
    | .flowSequence :: ts =>
      let (items, ts) ← takeFlowItems? handles fuel true ts
      some (.sequence props items, ts)
    | .flowMapping :: ts =>
      let (entries, ts) ← takeFlowEntries? handles fuel true ts
      some (.mapping props entries, ts)
    | .blockSequence :: ts' =>
      if block then
        let (items, ts) ← takeItems? handles fuel ts'
        some (.sequence props items, ts)
      else takeNone? props ts
    | .blockMapping :: ts' =>
      if block then
        let (entries, ts) ← takeEntries? handles fuel ts'
        some (.mapping props entries, ts)
      else takeNone? props ts
    | ts => takeNone? props ts

/-- No content: allowed behind an anchor or a tag. -/
def takeNone? (props : Props (List Char)) (ts : List Token) :
    Option (Node (List Char) × List Token) :=
  if props.anchor.isSome || props.tag.isSome then some (.scalar props [] .plain, ts) else none

/-- The items of an indented sequence. -/
def takeItems? (handles : Handles) : Nat → List Token →
    Option (List (Node (List Char)) × List Token)
  | 0, _ => none
  | fuel + 1, .entry :: ts => do
    let (item, ts) ←
      match ts with
      | .entry :: _ => some (missing, ts)
      | .blockEnd :: _ => some (missing, ts)
      | ts => take? handles fuel true false ts
    let (items, ts) ← takeItems? handles fuel ts
    some (item :: items, ts)
  | _ + 1, .blockEnd :: ts => some ([], ts)
  | _ + 1, _ => none

/-- The items of a sequence that is not indented. -/
def takeFlat? (handles : Handles) : Nat → List Token →
    Option (List (Node (List Char)) × List Token)
  | 0, _ => none
  | fuel + 1, .entry :: ts => do
    let (item, ts) ←
      match ts with
      | .entry :: _ => some (missing, ts)
      | ts => if endsEntry ts then some (missing, ts) else take? handles fuel true false ts
    let (items, ts) ← takeFlat? handles fuel ts
    some (item :: items, ts)
  | _ + 1, ts => some ([], ts)

/-- The entries of a block mapping. -/
def takeEntries? (handles : Handles) : Nat → List Token →
    Option (List (Node (List Char) × Node (List Char)) × List Token)
  | 0, _ => none
  | fuel + 1, .key :: ts => do
    let (key, ts) ←
      if endsEntry ts then some (missing, ts) else take? handles fuel true true ts
    let (value, ts) ← takeValue? handles fuel ts
    let (entries, ts) ← takeEntries? handles fuel ts
    some ((key, value) :: entries, ts)
  | _ + 1, .blockEnd :: ts => some ([], ts)
  | _ + 1, _ => none

/-- The value of an entry of a block mapping. -/
def takeValue? (handles : Handles) : Nat → List Token →
    Option (Node (List Char) × List Token)
  | 0, _ => none
  | fuel + 1, .value :: ts =>
    if endsEntry ts then some (missing, ts) else take? handles fuel true true ts
  | _ + 1, ts => some (missing, ts)

/-- The items of a flow sequence; a key in front of an item makes it a mapping of one entry. -/
def takeFlowItems? (handles : Handles) : Nat → Bool → List Token →
    Option (List (Node (List Char)) × List Token)
  | 0, _, _ => none
  | _ + 1, _, .flowSequenceEnd :: ts => some ([], ts)
  | fuel + 1, first, ts => do
    let ts ←
      match first, ts with
      | true, ts => some ts
      | false, .comma :: ts => some ts
      | false, _ => none
    match ts with
    | .flowSequenceEnd :: ts => some ([], ts)
    | .key :: ts =>
      let (key, ts) ←
        match ts with
        | .value :: ts => some (missing, ts)
        | .comma :: ts => some (missing, ts)
        | .flowSequenceEnd :: ts => some (missing, ts)
        | ts => take? handles fuel false false ts
      let (value, ts) ← takeFlowValue? handles fuel ts
      let (items, ts) ← takeFlowItems? handles fuel false ts
      some (.mapping .empty [(key, value)] :: items, ts)
    | ts =>
      let (item, ts) ← take? handles fuel false false ts
      let (items, ts) ← takeFlowItems? handles fuel false ts
      some (item :: items, ts)

/-- The value of an entry of a flow collection. -/
def takeFlowValue? (handles : Handles) : Nat → List Token →
    Option (Node (List Char) × List Token)
  | 0, _ => none
  | fuel + 1, .value :: ts =>
    match ts with
    | .comma :: _ => some (missing, ts)
    | .flowSequenceEnd :: _ => some (missing, ts)
    | .flowMappingEnd :: _ => some (missing, ts)
    | ts => take? handles fuel false false ts
  | _ + 1, ts => some (missing, ts)

/-- The entries of a flow mapping. -/
def takeFlowEntries? (handles : Handles) : Nat → Bool → List Token →
    Option (List (Node (List Char) × Node (List Char)) × List Token)
  | 0, _, _ => none
  | _ + 1, _, .flowMappingEnd :: ts => some ([], ts)
  | fuel + 1, first, ts => do
    let ts ←
      match first, ts with
      | true, ts => some ts
      | false, .comma :: ts => some ts
      | false, _ => none
    match ts with
    | .flowMappingEnd :: ts => some ([], ts)
    | .key :: ts =>
      let (key, ts) ←
        match ts with
        | .value :: _ => some (missing, ts)
        | .comma :: _ => some (missing, ts)
        | .flowMappingEnd :: _ => some (missing, ts)
        | ts => take? handles fuel false false ts
      let (value, ts) ← takeFlowValue? handles fuel ts
      let (entries, ts) ← takeFlowEntries? handles fuel false ts
      some ((key, value) :: entries, ts)
    | ts =>
      let (key, ts) ← take? handles fuel false false ts
      let (entries, ts) ← takeFlowEntries? handles fuel false ts
      some ((key, missing) :: entries, ts)

end

/-! ## Documents -/

/-- The directives in front: the handles they declare, each once, and at most one version, 1.1 or
1.2. -/
def takeDirectives? : Bool → Handles → List Token → Option (Handles × List Token)
  | versioned, declared, .version major minor :: ts =>
    if versioned || major != 1 || (minor != 1 && minor != 2) then none
    else takeDirectives? true declared ts
  | versioned, declared, .handle h uri :: ts =>
    if declared.any fun d => d.1 == h then none
    else takeDirectives? versioned (declared ++ [(h, uri)]) ts
  | _, declared, ts => some (declared, ts)

/-- The root of a document that starts with its marker, and what follows. -/
def takeContent? (handles : Handles) (ts : List Token) :
    Option (Node (List Char) × List Token) :=
  match ts with
  | .documentStart :: _ => some (missing, ts)
  | .documentEnd :: _ => some (missing, ts)
  | .streamEnd :: _ => some (missing, ts)
  | .version .. :: _ => some (missing, ts)
  | .handle .. :: _ => some (missing, ts)
  | ts => take? handles (4 * ts.length + 4) true false ts

/-- Whether nothing but document ends is left. -/
def isDone : List Token → Bool
  | .documentEnd :: ts => isDone ts
  | [.streamEnd] => true
  | _ => false

/-- The root of a document whose directives and marker are in front, and what follows. -/
def takeExplicit? (ts : List Token) : Option (Node (List Char) × List Token) := do
  let (declared, ts) ← takeDirectives? false [] ts
  match ts with
  | .documentStart :: ts => takeContent? (declared ++ commonHandles) ts
  | _ => none

/-- The root of the only document of a text; `some none` where there is no document. -/
def ofTokens? (ts : List Token) : Option (Option (Node (List Char))) := do
  let (root, ts) ←
    match ts with
    | [.streamEnd] => return none
    | .documentStart :: _ => takeExplicit? ts
    | .version .. :: _ => takeExplicit? ts
    | .handle .. :: _ => takeExplicit? ts
    | ts => take? commonHandles (4 * ts.length + 4) true false ts
  if isDone ts then some (some root) else none

end Node

end SessionGuard.Yaml
