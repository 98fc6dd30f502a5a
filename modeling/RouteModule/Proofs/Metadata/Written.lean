import RouteModule.Proofs.Document.Reading

/-!
Metadata as they are written. The text of metadata has the members of a record in the order in which
the record declares its fields, while a JSON value has them in the order of their names; an
arrangement stands for either order, or any other.
-/

namespace RouteModule

/-- An order for the members of records. -/
structure Arrangement where
  order : List (Text × Json) → List (Text × Json)
  /-- Members of different names are only put in order. -/
  perm : ∀ {members}, (members.map Prod.fst).Nodup → (order members).Perm members

namespace Arrangement

/-- The order in which a record declares its fields. -/
def declared : Arrangement := ⟨id, fun _ => .refl _⟩

/-- The order of the names. -/
def ascending : Arrangement := ⟨Table.ofList, Table.ofList_perm⟩

/-- A record with all of its fields. -/
def record {ι : Type} [Fields ι] (a : Arrangement) (value : ι → Json) : Json :=
  .object (a.order (Json.present (Fields.all.map fun i => (Fields.name i, some (value i)))))

/-- In an arranged object as little is nested as the depth below allows. -/
theorem exists_depth (a : Arrangement) {members : List (Text × Json)} {depth : Nat}
    (hnodup : (members.map Prod.fst).Nodup)
    (h : (Json.object (a.order members)).nesting ≤ depth) :
    ∃ below, depth = below + 1 ∧ ∀ m ∈ members, m.2.nesting ≤ below := by
  cases depth with
  | zero => simp [Json.nesting] at h
  | succ below =>
    rw [Json.nesting_object_le_iff] at h
    exact ⟨below, rfl, fun m hm => h m ((a.perm hnodup).symm.subset hm)⟩

end Arrangement

variable (a : Arrangement)

/-- The members of a type. -/
def TypeSchema.writtenMembers : TypeSchema → List (Text × Json)
  | ⟨dataType, ref, array, enums⟩ =>
    Json.present [
      ("dataType", some (.text dataType)),
      ("ref", ref.map .text),
      ("array", match array with
        | some element => some (.object (a.order element.writtenMembers))
        | none => none),
      ("enums", enums.map .array)]

/-- A type as it is written. -/
def TypeSchema.written (t : TypeSchema) : Json := .object (a.order (t.writtenMembers a))

/-- The fields of a parameter as they are written. -/
def Parameter.value (p : Parameter) : Field → Json
  | .parameterName => .text p.parameterName
  | .name => .text p.name
  | .origin => .literal p.origin.name
  | .required => .bool p.required
  | .type => p.type.written a

/-- A parameter as it is written. -/
def Parameter.written (p : Parameter) : Json := a.record (p.value a)

/-- The fields of a method as they are written. -/
def Method.value (m : Method) : Field → Json
  | .name => .text m.name
  | .verb => .literal m.verb.name
  | .path => .text m.path
  | .parameters => .array (m.parameters.map fun p => p.written a)
  | .successStatus => .orNull (m.successStatus.map .natural)
  | .security => .array (m.security.map Requirement.toJson)

/-- A method as it is written. -/
def Method.written (m : Method) : Json := a.record (m.value a)

/-- The fields of a controller as they are written. -/
def Controller.value (c : Controller) : Field → Json
  | .name => .text c.name
  | .location => .text c.location
  | .path => .text c.path
  | .methods => .array (c.methods.map fun m => m.written a)

/-- A controller as it is written. -/
def Controller.written (c : Controller) : Json := a.record (c.value a)

/-- The members of a property: those of its type, and its own. -/
def Property.writtenMembers (p : Property) : List (Text × Json) :=
  p.schema.writtenMembers a ++ [("required".toList, .bool p.required)]

/-- A property as it is written. -/
def Property.written (p : Property) : Json := .object (a.order (p.writtenMembers a))

namespace ReferenceType

/-- The fields of a model as they are written. -/
def objectValue (properties : Table Property) (additional : Option Json) : ObjectField → Json
  | .properties => .object (properties.map fun e => (e.1, e.2.written a))
  | .additionalProperties => .orNull additional

/-- The field of an enumeration as it is written. -/
def enumValue (values : List Json) : EnumField → Json
  | .enums => .array values

/-- The field of an alias as it is written. -/
def aliasValue (type : TypeSchema) : AliasField → Json
  | .type => type.written a

/-- What is written beside the kind of a named type. -/
def contentMembers : ReferenceType → List (Text × Json)
  | .object properties additional =>
    Json.present (Fields.all.map fun i =>
      (Fields.name i, some (objectValue a properties additional i)))
  | .enumeration values =>
    Json.present (Fields.all.map fun i => (Fields.name i, some (enumValue values i)))
  | .alias type => Json.present (Fields.all.map fun i => (Fields.name i, some (aliasValue a type i)))

/-- The members of a named type: its kind, and what is written beside it. -/
def writtenMembers (r : ReferenceType) : List (Text × Json) :=
  (kindKey.toList, .literal r.kind.name) :: r.contentMembers a

/-- A named type as it is written. -/
def written (r : ReferenceType) : Json := .object (a.order (r.writtenMembers a))

end ReferenceType

/-- The fields of metadata as they are written. -/
def Metadata.value (m : Metadata) : Field → Json
  | .controllers => .array (m.controllers.map fun c => c.written a)
  | .referenceTypes => .object (m.referenceTypes.map fun e => (e.1, e.2.written a))

/-- Metadata as they are written. -/
def Metadata.written (m : Metadata) : Json := a.record (m.value a)

section Values

theorem TypeSchema.writtenMembers_ascending :
    (t : TypeSchema) → t.writtenMembers .ascending = t.members
  | ⟨_, _, none, _⟩ => rfl
  | ⟨_, _, some element, _⟩ => by
    rw [writtenMembers, members, writtenMembers_ascending element]
    rfl

theorem TypeSchema.written_ascending (t : TypeSchema) : t.written .ascending = t.toJson := by
  rw [written, writtenMembers_ascending]
  rfl

theorem Parameter.written_ascending (p : Parameter) : p.written .ascending = p.toJson := by
  rw [toJson, ← TypeSchema.written_ascending]
  rfl

theorem Method.written_ascending (m : Method) : m.written .ascending = m.toJson := by
  have hparameters : (fun p : Parameter => p.written .ascending) = Parameter.toJson :=
    funext Parameter.written_ascending
  rw [toJson, ← hparameters]
  rfl

theorem Controller.written_ascending (c : Controller) : c.written .ascending = c.toJson := by
  have hmethods : (fun m : Method => m.written .ascending) = Method.toJson :=
    funext Method.written_ascending
  rw [toJson, ← hmethods]
  rfl

theorem Property.written_ascending (p : Property) : p.written .ascending = p.toJson := by
  rw [written, writtenMembers, TypeSchema.writtenMembers_ascending]
  rfl

theorem ReferenceType.written_ascending (r : ReferenceType) :
    r.written .ascending = r.toJson := by
  cases r with
  | object properties additional =>
    simp only [toJson, ← Property.written_ascending]
    rfl
  | enumeration values => rfl
  | «alias» type =>
    simp only [toJson, ← TypeSchema.written_ascending]
    rfl

/-- The JSON value of metadata is what is written in the order of the names. -/
theorem Metadata.written_ascending (m : Metadata) : m.written .ascending = m.toJson := by
  have hcontrollers : (fun c : Controller => c.written .ascending) = Controller.toJson :=
    funext Controller.written_ascending
  have htypes : m.referenceTypes.map (fun e => (e.1, e.2.toJson)) =
      m.referenceTypes.map fun e => (e.1, e.2.written .ascending) := by
    simp only [ReferenceType.written_ascending]
  rw [toJson, ← hcontrollers, ReferenceType.tableToJson, htypes]
  rfl

end Values

end RouteModule
