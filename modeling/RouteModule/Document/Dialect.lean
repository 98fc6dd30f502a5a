import RouteModule.Document
import RouteModule.Table

/-!
How nodes are read as data. The formats differ in what they take for a text, whether a record may be
written as a sequence of its fields, and what they complain about first; `Dialect` names the
differences, and the functions in its namespace read one kind of data each. All of them look at the
node in the order of the text and stop at the first complaint.

A `depth` is the number of containers that may still be entered; with none left a container is
malformed.
-/

namespace RouteModule

inductive Format where
  | json
  | yaml
  | toml
  deriving DecidableEq, Repr

/-- Where nodes stand when they are read. -/
inductive Stage where
  /-- In a text, which is read up to the first complaint. -/
  | text
  /-- In memory, set aside until it is known what they are for. -/
  | held
  /-- In memory, as a value that is complete. -/
  | value
  deriving DecidableEq, Repr

/-- The rules for reading nodes, and the nodes that references stand for. -/
structure Dialect where
  format : Format
  stage : Stage
  targets : Array Node
  deriving Repr

namespace Dialect

def ofDocument (format : Format) (document : Document) : Dialect :=
  ⟨format, .text, document.targets⟩

def held (d : Dialect) : Dialect := { d with stage := .held }

/-- The node itself, or the one that a reference stands for. References in memory have been followed
before. -/
def follow (d : Dialect) : Node → Reading Node
  | .reference id => do
    if d.stage = .text then Reading.jump
    return d.targets.getD id .broken
  | node => pure node

/-- Scalars of a YAML text are read by their source, whatever they would stand for. -/
def isLoose (d : Dialect) : Bool := d.format = .yaml ∧ d.stage = .text

/-- Records may be written as the sequence of their fields. -/
def listsRecords (d : Dialect) : Bool :=
  match d.stage with
  | .text => d.format = .json
  | .held => true
  | .value => true

/-- The number of containers that a document of the format may nest. -/
def limit (d : Dialect) : Nat :=
  match d.format with
  | .json => 127
  | .yaml => 128
  | .toml => 128

def refuseAtom (d : Dialect) (expected : String) (source : Text) (value : Atom) : Fault :=
  match value with
  | .mistagged wanted => .invalidValue (.text source) wanted
  | .null => .invalidType (if d.format = .json then .null else .unit) expected
  | .bool b => .invalidType (.bool b) expected
  | .number (.integer i) => .invalidType (.integer i) expected
  | .number (.real x) =>
    .invalidType (.real (if d.format = .json then x.text else x.positional)) expected
  | .text t => .invalidType (.text t) expected
  | .notFinite name => .invalidType (.real name.toList) expected
  | .wide i type => .invalidType (.wide i type) expected

def refuse (d : Dialect) (expected : String) : Node → Fault
  | .atom source value => d.refuseAtom expected source value
  | .cast source _ _ value => d.refuseAtom expected source value
  | .sequence _ => .invalidType .sequence expected
  | .mapping _ => .invalidType .mapping expected
  | .tagged _ node => d.refuse expected node
  | .reference _ => .malformed
  | .unreadable => .malformed
  | .broken => .malformed

def text? (d : Dialect) (node : Node) : Option Text :=
  if d.isLoose then
    match node.untagged with
    | .atom source _ => some source
    | _ => none
  else
    match node with
    | .atom _ (.text t) => some t
    | .cast _ _ _ (.text t) => some t
    | _ => none

def text (d : Dialect) (expected : String) (node : Node) : Reading Text := do
  let node ← d.follow node
  match d.text? node with
  | some t => return t
  | none => throw (d.refuse expected node)

/-- The scalar that a node is where one of a certain type is wanted. -/
def atom? (d : Dialect) (node : Node) : Option (Text × Atom) :=
  match if d.isLoose then node.untagged else node with
  | .atom source value => some (source, value)
  | .cast source _ _ value => some (source, value)
  | _ => none

def bool (d : Dialect) (node : Node) : Reading Bool := do
  let node ← d.follow node
  match d.atom? node with
  | some (_, .bool b) => return b
  | _ => throw (d.refuse "a boolean" node)

def natural16 (d : Dialect) (node : Node) : Reading Nat := do
  let node ← d.follow node
  match d.atom? node with
  | some (source, .number (.integer i)) =>
    if d.isLoose ∧ source.head? = some '-' then throw (d.refuse "u16" node)
    else if 0 ≤ i ∧ i < 65536 then return i.toNat
    else throw (.invalidValue (.integer i) "u16")
  | _ => throw (d.refuse "u16" node)

/-- Reads what may be absent and is absent if it is null. In a text, a tag hides what is null, unless
it is the tag for that. -/
def optional (d : Dialect) (read : Node → Reading α) (node : Node) : Reading (Option α) := do
  match ← d.follow node with
  | .atom _ .null => return none
  | .cast source absentable direct value =>
    match absentable || !d.isLoose, value with
    | true, .null => return none
    | true, .mistagged "null" => throw (.invalidValue (.text source) "null")
    | _, _ => return some (← read (.cast source absentable direct value))
  | node => return some (← read node)

/-- The node is a scalar without text, which in a YAML text stands for any empty container. -/
def isEmpty (d : Dialect) (node : Node) : Bool :=
  d.isLoose &&
    match node.untagged with
    | .atom [] .null => true
    | _ => false

/-- The node without its tag, where the rules look through tags. -/
def container (d : Dialect) (node : Node) : Node :=
  if d.isLoose then node.untagged else node

def list (d : Dialect) (depth : Nat) (read : Nat → Node → Reading α) (node : Node) :
    Reading (List α) := do
  let node ← d.follow node
  match d.container node, depth with
  | .sequence items, depth + 1 => items.mapM (read depth)
  | .sequence _, 0 => throw .malformed
  | _, _ => if d.isEmpty node then return [] else throw (d.refuse "a sequence" node)

def entryName (d : Dialect) (expected : String) (key : Node) : Reading Text := do
  let key ← d.follow key
  match d.text? key with
  | some t => return t
  | none =>
    if d.format = .json ∧ d.stage = .text then throw .malformed
    else throw (d.refuse expected key)

def entries (d : Dialect) (read : Node → Reading α) :
    List (Node × Node) → Reading (List (Text × α))
  | [] => return []
  | (key, value) :: rest => do
    let name ← d.entryName "a string" key
    let value ← read value
    return (name, value) :: (← d.entries read rest)

def table (d : Dialect) (depth : Nat) (read : Nat → Node → Reading α) (node : Node) :
    Reading (Table α) := do
  let node ← d.follow node
  match d.container node, depth with
  | .mapping es, depth + 1 => return Table.ofList (← d.entries (read depth) es)
  | .mapping _, 0 => throw .malformed
  | _, _ => if d.isEmpty node then return [] else throw (d.refuse "a map" node)

mutual

/-- Whether the text does not break off inside the node. -/
def intact : Node → Bool
  | .sequence items => intactItems items
  | .mapping es => intactEntries es
  | .tagged _ node => intact node
  | .broken => false
  | _ => true

def intactItems : List Node → Bool
  | [] => true
  | node :: rest => intact node && intactItems rest

def intactEntries : List (Node × Node) → Bool
  | [] => true
  | (key, value) :: rest => intact key && intact value && intactEntries rest

end

/-- Passes over a node. References in it are not followed. -/
def skip (node : Node) : Reading Unit :=
  if intact node then pure () else throw .malformed

def pick (known : List (String × α)) (name : Text) : Reading α :=
  match known.find? fun k => k.1.toList = name with
  | some k => pure k.2
  | none => throw (.unknownVariant name (known.map (·.1)))

/-- Reads a name out of those that are known, as the tag of a mapping. -/
def tagName (d : Dialect) (known : List (String × α)) (node : Node) : Reading α := do
  pick known (← d.text "variant identifier" node)

def noData (d : Dialect) (node : Node) : Reading Unit :=
  match node.untagged with
  | .atom _ .null => pure ()
  | .atom source _ =>
    if d.isLoose then throw (.invalidValue (.text source) "null")
    else throw (d.refuse "unit" node)
  | _ => throw (d.refuse "unit" node)

/-- Reads one of the known names. In JSON and TOML a name may also be the only entry of a mapping,
without data; in YAML it may be a tag. -/
def variant (d : Dialect) (depth : Nat) (known : List (String × α)) (node : Node) :
    Reading α := do
  match d.format, ← d.follow node with
  | .json, .mapping es =>
    if d.stage = .value then
      match es with
      | [(key, value)] =>
        let v ← d.tagName known key
        d.noData value
        return v
      | _ => throw (.invalidValue .mapping "map with a single key")
    else
      match depth, es with
      | _ + 1, (key, value) :: rest =>
        let v ← d.tagName known key
        d.noData value
        if rest.isEmpty then return v else throw .malformed
      | _, _ => throw .malformed
  | .json, .atom _ (.text t) => pick known t
  | .json, node =>
    if d.stage = .value then throw (d.refuse "string or map" node) else throw .malformed
  | .yaml, .tagged tag node =>
    let v ← pick known tag
    d.noData node
    return v
  | .yaml, .atom source _ => pick known source
  | .yaml, .cast source _ _ _ => pick known source
  | .yaml, node => throw (d.refuse "a YAML tag starting with '!'" node)
  | .toml, .atom _ (.text t) => pick known t
  | .toml, .mapping [(key, value)] =>
    let v ← d.tagName known key
    match value with
    | .sequence [] => return v
    | .mapping [] => return v
    | _ => throw .malformed
  | .toml, _ => throw .malformed

def jsonOfAtom (d : Dialect) (source : Text) : Atom → Reading Json
  | .null => return .null
  | .bool b => return .bool b
  | .number n => return .number n
  | .text t => return .text t
  | .notFinite _ => return .null
  | .wide _ _ => throw .malformed
  | .mistagged wanted => throw (d.refuseAtom "any valid JSON value" source (.mistagged wanted))

def json (d : Dialect) (depth : Nat) (node : Node) : Reading Json := do
  match ← d.follow node, depth with
  | .atom source value, _ => d.jsonOfAtom source value
  | .cast source _ _ value, _ => d.jsonOfAtom source value
  | .sequence items, depth + 1 => return .array (← items.mapM (d.json depth))
  | .mapping [], _ + 1 => return .object []
  | .mapping ((key, value) :: rest), depth + 1 =>
    let name ← d.entryName "a string key" key
    let value ← d.json depth value
    return .ofMembers ((name, value) :: (← d.entries (d.json depth) rest))
  | .tagged _ _, _ => throw (.invalidType .enumeration "any valid JSON value")
  | _, _ => throw .malformed

def holdAtom (d : Dialect) (expected : String) (source : Text) : Atom → Reading Unit
  | .wide i type => throw (.invalidType (.wide i type) expected)
  | .mistagged wanted => throw (d.refuseAtom expected source (.mistagged wanted))
  | _ => pure ()

/-- Whether a node can be set aside until it is known what it is for; the complaint about a scalar
says what was expected. -/
def hold (d : Dialect) (expected : String) (depth : Nat) (node : Node) : Reading Unit := do
  match ← d.follow node, depth with
  | .atom source value, _ => d.holdAtom expected source value
  | .cast source _ _ value, _ => d.holdAtom expected source value
  | .sequence items, depth + 1 => items.forM (d.hold "any value" depth)
  | .mapping es, depth + 1 => es.forM fun e => do
    if d.format = .json ∧ (d.text? e.1).isNone then throw .malformed
    d.hold "any value" depth e.1
    d.hold "any value" depth e.2
  | _, _ => throw .malformed

/-- What reads the parts of a container, if one may be entered at a depth. -/
def below (depth : Nat) (read : Nat → α) : Option α :=
  match depth with
  | 0 => none
  | depth + 1 => some (read depth)

/-- The number of a field or entry that a key is. A minus in front makes it none, even of zero. -/
def ordinal? : Node → Option Nat
  | .atom source (.number (.integer (.ofNat i)))
  | .cast source _ _ (.number (.integer (.ofNat i))) =>
    if source.head? = some '-' then none else some i
  | _ => none

section Records

variable {ι : Type} [Fields ι] [DecidableEq ι]

abbrev Readers (ι : Type) [Fields ι] := (i : ι) → Node → Reading (Fields.Value i)

/-- The field that an entry is for; a record has no field for some names. -/
def field? (d : Dialect) (key : Node) : Reading (Option ι) := do
  let key ← d.follow key
  match d.text? key with
  | some name => return Fields.named? name
  | none =>
    match d.stage, ordinal? key with
    | .held, some i => return Fields.all[i]?
    | _, _ =>
      let _ ← d.entryName "field identifier" key
      return none

def fill (d : Dialect) (read : Readers ι) : List (Node × Node) → Draft ι → Reading (Draft ι)
  | [], draft => return draft
  | (key, value) :: rest, draft => do
    match ← d.field? key with
    | none =>
      skip value
      d.fill read rest draft
    | some i =>
      if (draft i).isSome then throw (.duplicateField (Fields.name i))
      else d.fill read rest (draft.put i (← read i value))

/-- Reads items into the fields in their order, as far as both reach, and gives the items left. -/
def fillInOrder (read : Readers ι) :
    List ι → List Node → Draft ι → Reading (Draft ι × List Node)
  | i :: fields, node :: rest, draft => do
    fillInOrder read fields rest (draft.put i (← read i node))
  | _, rest, draft => return (draft, rest)

def elements (n : Nat) : String :=
  toString n ++ if n = 1 then " element" else " elements"

def tooLong (d : Dialect) (fields left : Nat) : Fault :=
  match d.stage with
  | .text => .malformed
  | .held => .invalidLength (fields + left) (elements fields ++ " in sequence")
  | .value => .invalidLength (fields + left) "fewer elements in array"

/-- Reads a record: its entries in any order or, where the rules allow it, its fields in their
order. `finish` makes the record from the draft, knowing what the absence of a field means. -/
def record (d : Dialect) (expected : String) (read : Option (Readers ι))
    (finish : Draft ι → (ι → Fault) → Except Fault α) (node : Node) : Reading α := do
  let node ← d.follow node
  match d.container node, read with
  | .mapping es, some read =>
    finish (← d.fill read es Draft.empty) fun i => .missingField (Fields.name i)
  | .sequence items, some read =>
    if d.listsRecords then
      let fields : List ι := Fields.all
      let (draft, left) ← fillInOrder read fields items Draft.empty
      let value ← finish draft fun i =>
        .invalidLength (Fields.index i) (expected ++ " with " ++ elements fields.length)
      if left.isEmpty then return value else throw (d.tooLong fields.length left.length)
    else throw (d.refuse expected node)
  | .mapping _, none => throw .malformed
  | .sequence _, none =>
    if d.listsRecords then throw .malformed else throw (d.refuse expected node)
  | _, _ =>
    if d.isEmpty node then finish Draft.empty fun i => .missingField (Fields.name i)
    else throw (d.refuse expected node)

end Records

end Dialect

end RouteModule
