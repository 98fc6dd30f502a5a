import RouteModule.Json

/-!
What is known about the controllers of an application: their methods with the parameters and the
security of each, and the named types that parameters and properties refer to. As a JSON value it
leaves out what is absent of a type, and has `null` for the status of a method and for what a model
says about further properties.
-/

namespace RouteModule

inductive Verb where
  | get
  | post
  | put
  | patch
  | delete
  | head
  | options
  deriving DecidableEq, Repr

def Verb.names : List (String × Verb) :=
  [("get", .get), ("post", .post), ("put", .put), ("patch", .patch), ("delete", .delete),
    ("head", .head), ("options", .options)]

def Verb.name : Verb → String
  | get => "get"
  | post => "post"
  | put => "put"
  | patch => "patch"
  | delete => "delete"
  | head => "head"
  | options => "options"

inductive Origin where
  | path
  | query
  | header
  | body
  | bodyProp
  | formData
  | request
  deriving DecidableEq, Repr

def Origin.names : List (String × Origin) :=
  [("path", .path), ("query", .query), ("header", .header), ("body", .body),
    ("body-prop", .bodyProp), ("formData", .formData), ("request", .request)]

def Origin.name : Origin → String
  | path => "path"
  | query => "query"
  | header => "header"
  | body => "body"
  | bodyProp => "body-prop"
  | formData => "formData"
  | request => "request"

/-- The type of a parameter or a property: its kind, the model it refers to, the type of the
elements if it is an array, and the values it is limited to. -/
structure TypeSchema where
  dataType : Text
  ref : Option Text
  array : Option TypeSchema
  enums : Option (List Json)
  deriving Repr, BEq

/-- An argument of a handler: its name there, its name in the request, and where it is found. -/
structure Parameter where
  parameterName : Text
  name : Text
  origin : Origin
  required : Bool
  type : TypeSchema
  deriving Repr, BEq

/-- One way to satisfy a method's security: the scopes asked for under each scheme. -/
abbrev Requirement := Table (List Text)

structure Method where
  name : Text
  verb : Verb
  path : Text
  parameters : List Parameter
  successStatus : Option Nat
  security : List Requirement
  deriving Repr, BEq

/-- A controller: its class, the file that declares it, and the path in front of its methods. -/
structure Controller where
  name : Text
  location : Text
  path : Text
  methods : List Method
  deriving Repr, BEq

structure Property where
  schema : TypeSchema
  required : Bool
  deriving Repr, BEq

/-- A named type. -/
inductive ReferenceType where
  /-- A model with properties, and what it says about properties it does not name. -/
  | object (properties : Table Property) (additionalProperties : Option Json)
  | enumeration (values : List Json)
  | alias (type : TypeSchema)
  deriving Repr, BEq

namespace ReferenceType

inductive Kind where
  | object
  | enumeration
  | alias
  deriving DecidableEq

def Kind.names : List (String × Kind) :=
  [("refObject", .object), ("refEnum", .enumeration), ("refAlias", .alias)]

def Kind.name : Kind → String
  | .object => "refObject"
  | .enumeration => "refEnum"
  | .alias => "refAlias"

def kind : ReferenceType → Kind
  | .object _ _ => .object
  | .enumeration _ => .enumeration
  | .alias _ => .alias

def kindKey : String := "dataType"

end ReferenceType

structure Metadata where
  controllers : List Controller
  referenceTypes : Table ReferenceType
  deriving Repr, BEq

namespace Metadata

def methodCount (m : Metadata) : Nat := (m.controllers.flatMap (·.methods)).length

def verbs (m : Metadata) : List Verb := m.controllers.flatMap fun c => c.methods.map (·.verb)

end Metadata

/-- The members of a record: those that are there, under their names. -/
def Json.present (members : List (String × Option Json)) : List (Text × Json) :=
  members.filterMap fun m => m.2.map fun v => (m.1.toList, v)

def TypeSchema.members : TypeSchema → List (Text × Json)
  | ⟨dataType, ref, array, enums⟩ =>
    Json.present [
      ("dataType", some (.text dataType)),
      ("ref", ref.map .text),
      ("array", match array with
        | some element => some (.ofMembers element.members)
        | none => none),
      ("enums", enums.map .array)]

def TypeSchema.toJson (t : TypeSchema) : Json := .ofMembers t.members

def Parameter.toJson (p : Parameter) : Json :=
  .record [
    ("parameterName", .text p.parameterName),
    ("name", .text p.name),
    ("in", .literal p.origin.name),
    ("required", .bool p.required),
    ("type", p.type.toJson)]

def Requirement.toJson (r : Requirement) : Json :=
  .object (r.map fun e => (e.1, .array (e.2.map .text)))

def Method.toJson (m : Method) : Json :=
  .record [
    ("name", .text m.name),
    ("method", .literal m.verb.name),
    ("path", .text m.path),
    ("parameters", .array (m.parameters.map Parameter.toJson)),
    ("successStatus", .orNull (m.successStatus.map .natural)),
    ("security", .array (m.security.map Requirement.toJson))]

def Controller.toJson (c : Controller) : Json :=
  .record [
    ("name", .text c.name),
    ("location", .text c.location),
    ("path", .text c.path),
    ("methods", .array (c.methods.map Method.toJson))]

/-- A property as a JSON value: the members of its type and its own. -/
def Property.toJson (p : Property) : Json :=
  .ofMembers (p.schema.members ++ [("required".toList, .bool p.required)])

/-- A named type as a JSON value, with its kind among the members. -/
def ReferenceType.toJson (r : ReferenceType) : Json :=
  .record ((kindKey, .literal r.kind.name) ::
    match r with
    | .object properties additional => [
      ("properties", .object (properties.map fun e => (e.1, e.2.toJson))),
      ("additionalProperties", .orNull additional)]
    | .enumeration values => [("enums", .array values)]
    | .alias type => [("type", type.toJson)])

def ReferenceType.tableToJson (types : Table ReferenceType) : Json :=
  .object (types.map fun e => (e.1, e.2.toJson))

def Metadata.toJson (m : Metadata) : Json :=
  .record [
    ("controllers", .array (m.controllers.map Controller.toJson)),
    ("referenceTypes", ReferenceType.tableToJson m.referenceTypes)]

end RouteModule
