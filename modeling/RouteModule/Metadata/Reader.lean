import RouteModule.Document.Dialect
import RouteModule.Json.Reader
import RouteModule.Metadata
import RouteModule.Yaml.Tree

/-!
Metadata out of documents. Each record lists its fields and how to read them; what may be left out
is said where the record is finished.

A text is JSON or YAML. One that is refused as JSON for any reason is read as YAML from its start, so
that YAML's looser rules apply to it as a whole.
-/

namespace RouteModule

inductive TypeSchema.Field where
  | dataType
  | ref
  | array
  | enums
  deriving DecidableEq

instance TypeSchema.fields : Fields TypeSchema.Field where
  Value
    | .dataType => Text
    | .ref => Option Text
    | .array => Option TypeSchema
    | .enums => Option (List Json)
  all := [.dataType, .ref, .array, .enums]
  name
    | .dataType => "dataType"
    | .ref => "ref"
    | .array => "array"
    | .enums => "enums"

namespace TypeSchema

/-- A type needs only its kind. -/
def finish (draft : Draft Field) (absent : Field → Fault) : Except Fault TypeSchema := do
  let dataType ← draft.require absent .dataType
  return ⟨dataType, (draft .ref).getD none, (draft .array).getD none, (draft .enums).getD none⟩

/-- How the fields of a type are read, given how a type inside it is. -/
def readers (d : Dialect) (depth : Nat) (element : Node → Reading TypeSchema) :
    Dialect.Readers Field
  | .dataType => d.text "a string"
  | .ref => d.optional (d.text "a string")
  | .array => d.optional element
  | .enums => d.optional (d.list depth d.json)

def read (d : Dialect) : Nat → Node → Reading TypeSchema
  | 0 => d.record "struct TypeSchema" none finish
  | depth + 1 =>
    d.record "struct TypeSchema" (some (readers d depth (read d depth))) finish

end TypeSchema

inductive Parameter.Field where
  | parameterName
  | name
  | origin
  | required
  | type
  deriving DecidableEq

instance Parameter.fields : Fields Parameter.Field where
  Value
    | .parameterName => Text
    | .name => Text
    | .origin => Origin
    | .required => Bool
    | .type => TypeSchema
  all := [.parameterName, .name, .origin, .required, .type]
  name
    | .parameterName => "parameterName"
    | .name => "name"
    | .origin => "in"
    | .required => "required"
    | .type => "type"

namespace Parameter

/-- A parameter is optional unless it says otherwise. -/
def finish (draft : Draft Field) (absent : Field → Fault) : Except Fault Parameter := do
  let parameterName ← draft.require absent .parameterName
  let name ← draft.require absent .name
  let origin ← draft.require absent .origin
  let type ← draft.require absent .type
  return ⟨parameterName, name, origin, (draft .required).getD false, type⟩

def readers (d : Dialect) (depth : Nat) : Dialect.Readers Field
  | .parameterName => d.text "a string"
  | .name => d.text "a string"
  | .origin => d.variant depth Origin.names
  | .required => d.bool
  | .type => TypeSchema.read d depth

def read (d : Dialect) (depth : Nat) : Node → Reading Parameter :=
  d.record "struct Parameter" (Dialect.below depth (readers d)) finish

end Parameter

inductive Method.Field where
  | name
  | verb
  | path
  | parameters
  | successStatus
  | security
  deriving DecidableEq

instance Method.fields : Fields Method.Field where
  Value
    | .name => Text
    | .verb => Verb
    | .path => Text
    | .parameters => List Parameter
    | .successStatus => Option Nat
    | .security => List Requirement
  all := [.name, .verb, .path, .parameters, .successStatus, .security]
  name
    | .name => "name"
    | .verb => "method"
    | .path => "path"
    | .parameters => "parameters"
    | .successStatus => "successStatus"
    | .security => "security"

namespace Method

/-- A method needs only its name and its verb. -/
def finish (draft : Draft Field) (absent : Field → Fault) : Except Fault Method := do
  let name ← draft.require absent .name
  let verb ← draft.require absent .verb
  return ⟨name, verb, (draft .path).getD [], (draft .parameters).getD [],
    (draft .successStatus).getD none, (draft .security).getD []⟩

def readRequirement (d : Dialect) (depth : Nat) : Node → Reading Requirement :=
  d.table depth fun depth => d.list depth fun _ => d.text "a string"

def readers (d : Dialect) (depth : Nat) : Dialect.Readers Field
  | .name => d.text "a string"
  | .verb => d.variant depth Verb.names
  | .path => d.text "a string"
  | .parameters => d.list depth (Parameter.read d)
  | .successStatus => d.optional d.natural16
  | .security => d.list depth (readRequirement d)

def read (d : Dialect) (depth : Nat) : Node → Reading Method :=
  d.record "struct Method" (Dialect.below depth (readers d)) finish

end Method

inductive Controller.Field where
  | name
  | location
  | path
  | methods
  deriving DecidableEq

instance Controller.fields : Fields Controller.Field where
  Value
    | .name => Text
    | .location => Text
    | .path => Text
    | .methods => List Method
  all := [.name, .location, .path, .methods]
  name
    | .name => "name"
    | .location => "location"
    | .path => "path"
    | .methods => "methods"

namespace Controller

def finish (draft : Draft Field) (absent : Field → Fault) : Except Fault Controller := do
  let name ← draft.require absent .name
  let location ← draft.require absent .location
  return ⟨name, location, (draft .path).getD [], (draft .methods).getD []⟩

def readers (d : Dialect) (depth : Nat) : Dialect.Readers Field
  | .name => d.text "a string"
  | .location => d.text "a string"
  | .path => d.text "a string"
  | .methods => d.list depth (Method.read d)

def read (d : Dialect) (depth : Nat) : Node → Reading Controller :=
  d.record "struct Controller" (Dialect.below depth (readers d)) finish

end Controller

namespace Property

/-- Takes the own field of a property out of its entries, and keeps the others in their order. -/
def split (d : Dialect) :
    List (Node × Node) → Option Bool → Reading (Option Bool × List (Node × Node))
  | [], required => return (required, [])
  | (key, value) :: rest, required => do
    let key ← d.follow key
    if d.text? key = some "required".toList then
      if required.isSome then throw (.duplicateField "required")
      else split d rest (some (← d.bool value))
    else
      if (Dialect.ordinal? key).isNone then
        let _ ← d.entryName "field identifier" key
      let (required, others) ← split d rest required
      return (required, (key, value) :: others)

/-- Reads a property, whose entries are those of its type and its own. Entries under keys that are
not texts belong to neither. -/
def read (d : Dialect) (depth : Nat) (node : Node) : Reading Property := do
  match ← d.follow node with
  | .mapping es =>
    let (required, others) ← split d es none
    let typed := others.filter fun e => (d.text? e.1).isSome
    let schema ← TypeSchema.read d depth (.mapping typed)
    return ⟨schema, required.getD false⟩
  | node => throw (d.refuse "struct PropertySchema" node)

end Property

namespace ReferenceType

inductive ObjectField where
  | properties
  | additionalProperties
  deriving DecidableEq

instance objectFields : Fields ObjectField where
  Value
    | .properties => Table Property
    | .additionalProperties => Option Json
  all := [.properties, .additionalProperties]
  name
    | .properties => "properties"
    | .additionalProperties => "additionalProperties"

inductive EnumField where
  | enums
  deriving DecidableEq

instance enumFields : Fields EnumField where
  Value
    | .enums => List Json
  all := [.enums]
  name
    | .enums => "enums"

inductive AliasField where
  | type
  deriving DecidableEq

instance aliasFields : Fields AliasField where
  Value
    | .type => TypeSchema
  all := [.type]
  name
    | .type => "type"

/-- A model may leave out both of its fields. -/
def finishObject (draft : Draft ObjectField) (_ : ObjectField → Fault) :
    Except Fault ReferenceType :=
  .ok (.object ((draft .properties).getD []) ((draft .additionalProperties).getD none))

def finishEnum (draft : Draft EnumField) (absent : EnumField → Fault) :
    Except Fault ReferenceType := do
  let values ← draft.require absent .enums
  return .enumeration values

def finishAlias (draft : Draft AliasField) (absent : AliasField → Fault) :
    Except Fault ReferenceType := do
  let type ← draft.require absent .type
  return .alias type

/-- Reads what is beside the kind of a named type, once it was set aside. -/
def readKind (d : Dialect) (depth : Nat) (content : Node) : Kind → Reading ReferenceType
  | .object =>
    let readers : Dialect.Readers ObjectField := fun
      | .properties => d.table depth (Property.read d)
      | .additionalProperties => d.optional (d.json depth)
    d.record "struct variant ReferenceType::Object" (some readers) finishObject content
  | .enumeration =>
    let readers : Dialect.Readers EnumField := fun
      | .enums => d.list depth d.json
    d.record "struct variant ReferenceType::Enum" (some readers) finishEnum content
  | .alias =>
    let readers : Dialect.Readers AliasField := fun
      | .type => TypeSchema.read d depth
    d.record "struct variant ReferenceType::Alias" (some readers) finishAlias content

def isKindKey : Node → Bool
  | .atom _ (.text t) => t = kindKey.toList
  | .cast _ _ _ (.text t) => t = kindKey.toList
  | _ => false

/-- Reads the kind out of the entries, setting the other entries aside in their order. -/
def findKind (d : Dialect) (depth : Nat) :
    List (Node × Node) → Option Kind → Reading (Option Kind × List (Node × Node))
  | [], kind => return (kind, [])
  | (key, value) :: rest, kind => do
    let key ← d.follow key
    if isKindKey key then
      if kind.isSome then throw (.duplicateField kindKey)
      else findKind d depth rest (some (← d.tagName Kind.names value))
    else
      if d.format = .json ∧ (d.text? key).isNone then throw .malformed
      d.hold "a type tag `dataType` or any other value" depth key
      d.hold "any value" depth value
      let (kind, others) ← findKind d depth rest kind
      return (kind, (key, value) :: others)

/-- Reads a named type: a mapping that says its kind under a key of its own, or a sequence that
begins with the kind. -/
def read (d : Dialect) (depth : Nat) (node : Node) : Reading ReferenceType := do
  match ← d.follow node, depth with
  | .mapping es, depth + 1 =>
    match ← findKind d depth es none with
    | (some kind, others) => readKind d.held depth (.mapping others) kind
    | (none, _) => throw (.missingField kindKey)
  | .sequence (first :: rest), depth + 1 =>
    let kind ← d.tagName Kind.names first
    rest.forM (d.hold "any value" depth)
    readKind d.held depth (.sequence rest) kind
  | .sequence [], _ + 1 => throw (.missingField kindKey)
  | .mapping _, 0 => throw .malformed
  | .sequence _, 0 => throw .malformed
  | .tagged _ _, _ => throw (.invalidType .enumeration "internally tagged enum ReferenceType")
  | node, _ => throw (d.refuse "internally tagged enum ReferenceType" node)

end ReferenceType

inductive Metadata.Field where
  | controllers
  | referenceTypes
  deriving DecidableEq

instance Metadata.fields : Fields Metadata.Field where
  Value
    | .controllers => List Controller
    | .referenceTypes => Table ReferenceType
  all := [.controllers, .referenceTypes]
  name
    | .controllers => "controllers"
    | .referenceTypes => "referenceTypes"

namespace Metadata

def finish (draft : Draft Field) (absent : Field → Fault) : Except Fault Metadata := do
  let controllers ← draft.require absent .controllers
  return ⟨controllers, (draft .referenceTypes).getD []⟩

def readers (d : Dialect) (depth : Nat) : Dialect.Readers Field
  | .controllers => d.list depth (Controller.read d)
  | .referenceTypes => d.table depth (ReferenceType.read d)

def read (d : Dialect) (depth : Nat) : Node → Reading Metadata :=
  d.record "struct Metadata" (Dialect.below depth (readers d)) finish

def ofDocument (format : Format) (document : Document) : Except Fault Metadata :=
  let d := Dialect.ofDocument format document
  document.read (read d d.limit)

end Metadata

end RouteModule

namespace RouteModule.Metadata

structure Refusal where
  json : Fault
  yaml : Fault
  deriving DecidableEq, Repr

/-- The wording of a refusal: what the JSON reader says about the data, or else what the YAML reader
says. -/
def Refusal.message? (r : Refusal) : Option Text := r.json.message? <|> r.yaml.message?

def ofJson (t : Text) : Except Fault Metadata := ofDocument .json (Json.document t)

def ofYaml (t : Text) : Except Fault Metadata := ofDocument .yaml (Yaml.document t)

/-- Reads a text as JSON, or else as YAML. -/
def ofText (t : Text) : Except Refusal Metadata :=
  match ofJson t with
  | .ok m => .ok m
  | .error json =>
    match ofYaml t with
    | .ok m => .ok m
    | .error yaml => .error ⟨json, yaml⟩

theorem ofText_of_ofJson {t : Text} {m : Metadata} (h : ofJson t = .ok m) : ofText t = .ok m := by
  simp [ofText, h]

theorem ofText_of_refused {t : Text} {f : Fault} (h : ofJson t = .error f) :
    ofText t = (ofYaml t).mapError fun g => ⟨f, g⟩ := by
  simp only [ofText, h]
  cases ofYaml t <;> rfl

end RouteModule.Metadata
