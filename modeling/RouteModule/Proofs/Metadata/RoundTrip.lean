import RouteModule.Metadata.Reader
import RouteModule.Proofs.Json.Render
import RouteModule.Proofs.Metadata.Sift
import RouteModule.Proofs.Metadata.Written

/-!
Metadata are read back from their text. Each record is read from its members in whatever order they
were written; a property shares them with its type, and a named type has its kind among them, so that
both are taken apart before the rest is read.
-/

namespace RouteModule

section WellFormed

/-- The values in a type are ordered. -/
def TypeSchema.WellFormed : TypeSchema → Prop
  | ⟨_, _, array, enums⟩ =>
    (match array with
      | some element => element.WellFormed
      | none => True) ∧
    ∀ values ∈ enums, ∀ v ∈ values, v.Ordered

/-- The parts of a method are well-formed, its tables ascend, and its status has 16 bits. -/
structure Method.WellFormed (m : Method) : Prop where
  parameters : ∀ p ∈ m.parameters, p.type.WellFormed
  successStatus : ∀ status ∈ m.successStatus, status < 65536
  security : ∀ r ∈ m.security, Table.Sorted r

/-- The table of a named type ascends, and its values are ordered. -/
def ReferenceType.WellFormed : ReferenceType → Prop
  | .object properties additional =>
    properties.Sorted ∧ (∀ e ∈ properties, e.2.schema.WellFormed) ∧ ∀ v ∈ additional, v.Ordered
  | .enumeration values => ∀ v ∈ values, v.Ordered
  | .alias type => type.WellFormed

/-- All tables in metadata ascend, and all statuses have 16 bits. -/
structure Metadata.WellFormed (m : Metadata) : Prop where
  methods : ∀ c ∈ m.controllers, ∀ h ∈ c.methods, h.WellFormed
  sorted : m.referenceTypes.Sorted
  types : ∀ e ∈ m.referenceTypes, e.2.WellFormed

/-- No model says `null` about further properties, which would be read as saying nothing. -/
def Metadata.SaysNoNull (m : Metadata) : Prop :=
  ∀ e ∈ m.referenceTypes, ∀ properties, e.2 ≠ .object properties (some .null)

end WellFormed

section Fields

theorem TypeSchema.fields_lawful : Fields.Lawful TypeSchema.Field where
  named i := by cases i <;> rfl
  nodup := by decide

theorem Parameter.fields_lawful : Fields.Lawful Parameter.Field where
  named i := by cases i <;> rfl
  nodup := by decide

theorem Method.fields_lawful : Fields.Lawful Method.Field where
  named i := by cases i <;> rfl
  nodup := by decide

theorem Controller.fields_lawful : Fields.Lawful Controller.Field where
  named i := by cases i <;> rfl
  nodup := by decide

theorem ReferenceType.objectFields_lawful : Fields.Lawful ReferenceType.ObjectField where
  named i := by cases i <;> rfl
  nodup := by decide

theorem ReferenceType.enumFields_lawful : Fields.Lawful ReferenceType.EnumField where
  named i := by cases i; rfl
  nodup := by decide

theorem ReferenceType.aliasFields_lawful : Fields.Lawful ReferenceType.AliasField where
  named i := by cases i; rfl
  nodup := by decide

theorem Metadata.fields_lawful : Fields.Lawful Metadata.Field where
  named i := by cases i <;> rfl
  nodup := by decide

end Fields

variable {a : Arrangement} {d : Dialect}

section Types

open Dialect (Holds)

/-- The fields of a type as they are written. -/
def TypeSchema.value (a : Arrangement) : TypeSchema → Field → Option Json
  | ⟨dataType, _, _, _⟩, .dataType => some (.text dataType)
  | ⟨_, ref, _, _⟩, .ref => ref.map .text
  | ⟨_, _, array, _⟩, .array => array.map fun element => element.written a
  | ⟨_, _, _, enums⟩, .enums => enums.map .array

/-- The fields of a type. -/
def TypeSchema.draft : TypeSchema → Draft TypeSchema.Field
  | ⟨dataType, _, _, _⟩, .dataType => some dataType
  | ⟨_, ref, _, _⟩, .ref => ref.map some
  | ⟨_, _, array, _⟩, .array => array.map some
  | ⟨_, _, _, enums⟩, .enums => enums.map some

theorem TypeSchema.writtenMembers_eq (t : TypeSchema) :
    t.writtenMembers a =
      Json.present ((Fields.all : List Field).map fun i => (Fields.name i, t.value a i)) := by
  obtain ⟨dataType, ref, array, enums⟩ := t
  cases array with
  | none => rfl
  | some element => rfl

theorem TypeSchema.finish_draft (t : TypeSchema) (absent : Field → Fault) :
    finish t.draft absent = .ok t := by
  obtain ⟨dataType, ref, array, enums⟩ := t
  cases ref <;> cases array <;> cases enums <;> rfl

theorem TypeSchema.nodup_writtenMembers (t : TypeSchema) :
    ((t.writtenMembers a).map Prod.fst).Nodup := by
  rw [writtenMembers_eq]
  exact Dialect.nodup_present fields_lawful _

theorem TypeSchema.holds_draft {dataType : Text} {ref : Option Text} {array : Option TypeSchema}
    {enums : Option (List Json)} {depth : Nat}
    (hdepth : ∀ m ∈ (TypeSchema.mk dataType ref array enums).writtenMembers a,
      m.2.nesting ≤ depth)
    (harray : ∀ element ∈ array, read d depth (element.written a).node = pure element)
    (henums : ∀ values ∈ enums, ∀ v ∈ values, v.Ordered) :
    Holds Json.node (readers d depth (read d depth))
      ((TypeSchema.mk dataType ref array enums).writtenMembers a)
      (TypeSchema.mk dataType ref array enums).draft := by
  rw [writtenMembers_eq] at hdepth ⊢
  refine Dialect.holds_present fields_lawful fun i => ?_
  cases i with
  | dataType => exact .inr ⟨_, _, rfl, rfl, Dialect.text_node _ dataType⟩
  | ref =>
    cases ref with
    | none => exact .inl ⟨rfl, rfl⟩
    | some name =>
      exact .inr ⟨_, _, rfl, rfl, Dialect.optional_node (by simp) (Dialect.text_node _ name)⟩
  | array =>
    cases array with
    | none => exact .inl ⟨rfl, rfl⟩
    | some element =>
      exact .inr ⟨_, _, rfl, rfl,
        Dialect.optional_node (by simp [written]) (harray element rfl)⟩
  | enums =>
    cases enums with
    | none => exact .inl ⟨rfl, rfl⟩
    | some values =>
      have hvalues := hdepth _ ((Dialect.mem_present_iff fields_lawful _ _).2 ⟨.enums, _, rfl, rfl⟩)
      exact .inr ⟨_, _, rfl, rfl, Dialect.optional_node (by simp)
        (Dialect.list_json hvalues (henums values rfl))⟩

/-- A type is read back from its members. -/
theorem TypeSchema.read_entries : (t : TypeSchema) → t.WellFormed →
    (depth : Nat) → (∀ m ∈ t.writtenMembers a, m.2.nesting ≤ depth) →
    (ms : List (Text × Json)) → ms.Perm (t.writtenMembers a) →
    TypeSchema.read d (depth + 1) (.mapping (Json.entries ms)) = pure t
  | ⟨dataType, ref, none, enums⟩, h, depth, hdepth, ms, hms => by
    have hholds := holds_draft (d := d) hdepth (by simp) h.2
    exact Dialect.record_entries (hholds.perm hms) (finish_draft _) _
  | ⟨dataType, ref, some element, enums⟩, h, depth, hdepth, ms, hms => by
    have helement : (element.written a).nesting ≤ depth := by
      rw [writtenMembers_eq] at hdepth
      exact hdepth _ ((Dialect.mem_present_iff fields_lawful _ _).2 ⟨.array, _, rfl, rfl⟩)
    obtain ⟨below, rfl, hbelow⟩ := a.exists_depth element.nodup_writtenMembers helement
    have hread : read d (below + 1) (element.written a).node = pure element :=
      read_entries element h.1 below hbelow _ (a.perm element.nodup_writtenMembers)
    have hholds := holds_draft hdepth (by simpa using hread) h.2
    exact Dialect.record_entries (hholds.perm hms) (finish_draft _) _

/-- A type is read back. -/
theorem TypeSchema.read_written {t : TypeSchema} (h : t.WellFormed) {depth : Nat}
    (hdepth : (t.written a).nesting ≤ depth) : read d depth (t.written a).node = pure t := by
  obtain ⟨below, rfl, hbelow⟩ := a.exists_depth t.nodup_writtenMembers hdepth
  exact read_entries t h below hbelow _ (a.perm t.nodup_writtenMembers)

end Types

section Records

/-- A record with all of its fields is read back. -/
theorem Arrangement.read_record {ι : Type} [Fields ι] [DecidableEq ι]
    (hlawful : Fields.Lawful ι) {value : ι → Json} {values : (i : ι) → Fields.Value i}
    {readers : Nat → Dialect.Readers ι} {finish : Draft ι → (ι → Fault) → Except Fault α} {x : α}
    {depth : Nat} (hdepth : (a.record value).nesting ≤ depth)
    (hfinish : ∀ absent, finish (fun i => some (values i)) absent = .ok x)
    (hread : ∀ depth i, (value i).nesting ≤ depth →
      readers depth i (value i).node = pure (values i)) (expected : String) :
    d.record expected (Dialect.below depth readers) finish (a.record value).node = pure x := by
  have hnodup := Dialect.nodup_present hlawful fun i => some (value i)
  obtain ⟨below, rfl, hbelow⟩ := a.exists_depth hnodup hdepth
  exact Dialect.record_all hlawful hbelow (a.perm hnodup) hfinish (hread below) expected

/-- The fields of a parameter. -/
def Parameter.get (p : Parameter) : (i : Field) → Fields.Value i
  | .parameterName => p.parameterName
  | .name => p.name
  | .origin => p.origin
  | .required => p.required
  | .type => p.type

theorem Origin.find?_name (o : Origin) :
    Origin.names.find? (fun k => k.1.toList = o.name.toList) = some (o.name, o) := by
  cases o <;> rfl

/-- A parameter is read back. -/
theorem Parameter.read_written {p : Parameter} (h : p.type.WellFormed) {depth : Nat}
    (hdepth : (p.written a).nesting ≤ depth) : read d depth (p.written a).node = pure p := by
  have hfinish : ∀ absent, finish (fun i => some (p.get i)) absent = .ok p := fun _ => rfl
  refine Arrangement.read_record fields_lawful hdepth hfinish ?_ _
  intro depth i hi
  cases i with
  | parameterName => exact Dialect.text_node _ p.parameterName
  | name => exact Dialect.text_node _ p.name
  | origin => exact Dialect.variant_node depth p.origin.name p.origin.find?_name
  | required => exact Dialect.bool_node p.required
  | type => exact TypeSchema.read_written h hi

/-- The fields of a method. -/
def Method.get (m : Method) : (i : Field) → Fields.Value i
  | .name => m.name
  | .verb => m.verb
  | .path => m.path
  | .parameters => m.parameters
  | .successStatus => m.successStatus
  | .security => m.security

theorem Verb.find?_name (v : Verb) :
    Verb.names.find? (fun k => k.1.toList = v.name.toList) = some (v.name, v) := by
  cases v <;> rfl

/-- The status of a method is read back, be it absent. -/
theorem Method.successStatus_node {status : Option Nat} (h : ∀ n ∈ status, n < 65536) :
    d.optional d.natural16 (Json.orNull (status.map Json.natural)).node = pure status := by
  cases status with
  | none => exact Dialect.optional_null _
  | some n =>
    exact Dialect.optional_node Json.noConfusion (Dialect.natural16_node (h n rfl))

/-- One way to satisfy the security of a method is read back. -/
theorem Method.requirement_node {r : Requirement} (h : Table.Sorted r) {depth : Nat}
    (hdepth : r.toJson.nesting ≤ depth) : readRequirement d depth r.toJson.node = pure r := by
  let write (scopes : List Text) : Json := .array (scopes.map .text)
  have hscopes : ∀ depth, ∀ e ∈ r, (write e.2).nesting ≤ depth →
      d.list depth (fun _ => d.text "a string") (write e.2).node = pure e.2 :=
    fun _ _ _ hscopes => Dialect.list_node hscopes fun _ t _ _ => Dialect.text_node _ t
  exact Dialect.table_node h hdepth hscopes

/-- A method is read back. -/
theorem Method.read_written {m : Method} (h : m.WellFormed) {depth : Nat}
    (hdepth : (m.written a).nesting ≤ depth) : read d depth (m.written a).node = pure m := by
  have hfinish : ∀ absent, finish (fun i => some (m.get i)) absent = .ok m := fun _ => rfl
  refine Arrangement.read_record fields_lawful hdepth hfinish ?_ _
  intro depth i hi
  cases i with
  | name => exact Dialect.text_node _ m.name
  | verb => exact Dialect.variant_node depth m.verb.name m.verb.find?_name
  | path => exact Dialect.text_node _ m.path
  | parameters =>
    exact Dialect.list_node hi fun _ p hp => Parameter.read_written (h.parameters p hp)
  | successStatus => exact successStatus_node h.successStatus
  | security => exact Dialect.list_node hi fun _ r hr => requirement_node (h.security r hr)

/-- The fields of a controller. -/
def Controller.get (c : Controller) : (i : Field) → Fields.Value i
  | .name => c.name
  | .location => c.location
  | .path => c.path
  | .methods => c.methods

/-- A controller is read back. -/
theorem Controller.read_written {c : Controller} (h : ∀ m ∈ c.methods, m.WellFormed) {depth : Nat}
    (hdepth : (c.written a).nesting ≤ depth) : read d depth (c.written a).node = pure c := by
  have hfinish : ∀ absent, finish (fun i => some (c.get i)) absent = .ok c := fun _ => rfl
  refine Arrangement.read_record fields_lawful hdepth hfinish ?_ _
  intro depth i hi
  cases i with
  | name => exact Dialect.text_node _ c.name
  | location => exact Dialect.text_node _ c.location
  | path => exact Dialect.text_node _ c.path
  | methods => exact Dialect.list_node hi fun _ m hm => Method.read_written (h m hm)

end Records

section Properties

/-- A property has no member twice. -/
theorem Property.nodup_members (p : Property) :
    ((("required".toList, Json.bool p.required) :: p.schema.writtenMembers a).map
      Prod.fst).Nodup := by
  rw [List.map_cons, TypeSchema.writtenMembers_eq]
  exact List.nodup_cons.2 ⟨Dialect.fresh_present TypeSchema.fields_lawful _ rfl,
    Dialect.nodup_present TypeSchema.fields_lawful _⟩

/-- A property is read back. -/
theorem Property.read_written {p : Property} (h : p.schema.WellFormed) {depth : Nat}
    (hdepth : (p.written a).nesting ≤ depth) : read d depth (p.written a).node = pure p := by
  have hmembers := List.perm_append_singleton ("required".toList, Json.bool p.required)
    (p.schema.writtenMembers a)
  have hnodup : ((p.writtenMembers a).map Prod.fst).Nodup :=
    (hmembers.map Prod.fst).nodup_iff.2 p.nodup_members
  obtain ⟨below, rfl, hbelow⟩ := a.exists_depth hnodup hdepth
  obtain ⟨rest, hrest, hsift⟩ := Json.sift_entries (.duplicateField "required") (passEntry d)
    p.nodup_members ((a.perm hnodup).trans hmembers) (Dialect.bool_node (d := d) p.required)
    fun n _ => passEntry_name n.1 n.2.node
  have hfollow : d.follow (p.written a).node = pure (p.written a).node := Dialect.follow_node d _
  have hschema : TypeSchema.read d (below + 1) (.mapping (Json.entries rest)) = pure p.schema :=
    TypeSchema.read_entries p.schema h below
      (fun m hm => hbelow m (List.mem_append_left _ hm)) _ hrest
  have hnamed : ∀ e ∈ Json.entries rest, ∃ name, e.1 = .atom name (.text name) := by
    rw [Json.entries_eq_map, List.forall_mem_map]
    exact fun m _ => ⟨m.1, rfl⟩
  rw [read, hfollow, pure_bind, written, Json.node]
  dsimp only
  rw [split_eq_sift (Json.isKey_entries _), hsift, pure_bind, filter_named hnamed, hschema]
  rfl

end Properties

section ReferenceTypes

namespace ReferenceType

variable {ms : List (Text × Json)} {depth : Nat}

/-- A named type has no member twice. -/
theorem nodup_writtenMembers (r : ReferenceType) : ((r.writtenMembers a).map Prod.fst).Nodup := by
  cases r with
  | object properties additional =>
    exact List.nodup_cons.2 ⟨Dialect.fresh_present objectFields_lawful _ rfl,
      Dialect.nodup_present objectFields_lawful _⟩
  | enumeration values =>
    exact List.nodup_cons.2 ⟨Dialect.fresh_present enumFields_lawful _ rfl,
      Dialect.nodup_present enumFields_lawful _⟩
  | «alias» type =>
    exact List.nodup_cons.2 ⟨Dialect.fresh_present aliasFields_lawful _ rfl,
      Dialect.nodup_present aliasFields_lawful _⟩

theorem Kind.find?_name (k : Kind) :
    Kind.names.find? (fun n => n.1.toList = k.name.toList) = some (k.name, k) := by
  cases k <;> rfl

/-- The fields of a model. -/
def getObject (properties : Table Property) (additional : Option Json) :
    (i : ObjectField) → Fields.Value i
  | .properties => properties
  | .additionalProperties => additional

/-- The field of an enumeration. -/
def getEnum (values : List Json) : (i : EnumField) → Fields.Value i
  | .enums => values

/-- The field of an alias. -/
def getAlias (type : TypeSchema) : (i : AliasField) → Fields.Value i
  | .type => type

/-- What a model says about further properties is read back, unless it is `null`. -/
theorem additional_node {additional : Option Json} (h : ∀ v ∈ additional, v.Ordered)
    (hnull : additional ≠ some .null) (hdepth : (Json.orNull additional).nesting ≤ depth) :
    d.optional (d.json depth) (Json.orNull additional).node = pure additional := by
  cases additional with
  | none => exact Dialect.optional_null _
  | some v =>
    have hv : v ≠ .null := fun hv => hnull (by rw [hv])
    exact Dialect.optional_node hv (Dialect.json_node v (h v rfl) depth hdepth)

/-- What is beside the kind of a named type is read back. -/
theorem readKind_entries {r : ReferenceType} (h : r.WellFormed)
    (hnull : ∀ properties, r ≠ .object properties (some .null))
    (hdepth : ∀ m ∈ r.contentMembers a, m.2.nesting ≤ depth)
    (hms : ms.Perm (r.contentMembers a)) :
    readKind d depth (.mapping (Json.entries ms)) r.kind = pure r := by
  cases r with
  | object properties additional =>
    have hfinish : ∀ absent,
        finishObject (fun i => some (getObject properties additional i)) absent =
          .ok (.object properties additional) := fun _ => rfl
    refine Dialect.record_all objectFields_lawful hdepth hms hfinish ?_ _
    intro i hi
    cases i with
    | properties =>
      exact Dialect.table_node h.1 hi fun _ e he => Property.read_written (h.2.1 e he)
    | additionalProperties =>
      exact additional_node h.2.2 (fun hv => hnull properties (by rw [hv])) hi
  | enumeration values =>
    have hfinish : ∀ absent, finishEnum (fun i => some (getEnum values i)) absent =
        .ok (.enumeration values) := fun _ => rfl
    refine Dialect.record_all enumFields_lawful hdepth hms hfinish ?_ _
    intro i hi
    cases i with
    | enums => exact Dialect.list_json hi h
  | «alias» type =>
    have hfinish : ∀ absent, finishAlias (fun i => some (getAlias type i)) absent =
        .ok (.alias type) := fun _ => rfl
    refine Dialect.record_all aliasFields_lawful hdepth hms hfinish ?_ _
    intro i hi
    cases i with
    | type => exact TypeSchema.read_written h hi

/-- A named type is read back. -/
theorem read_written {r : ReferenceType} (h : r.WellFormed)
    (hnull : ∀ properties, r ≠ .object properties (some .null))
    (hdepth : (r.written a).nesting ≤ depth) : read d depth (r.written a).node = pure r := by
  obtain ⟨below, rfl, hbelow⟩ := a.exists_depth r.nodup_writtenMembers hdepth
  have hcontent : ∀ m ∈ r.contentMembers a, m.2.nesting ≤ below :=
    fun m hm => hbelow m (List.mem_cons_of_mem _ hm)
  obtain ⟨rest, hrest, hsift⟩ := Json.sift_entries (.duplicateField kindKey)
    (d.holdEntry "a type tag `dataType` or any other value" below) r.nodup_writtenMembers
    (a.perm r.nodup_writtenMembers)
    (Dialect.tagName_node (d := d) r.kind.name r.kind.find?_name) fun n hn => by
      rw [Dialect.holdEntry_name, Dialect.hold_node n.2 _ below (hcontent n hn)]
  have hfollow : d.follow (r.written a).node = pure (r.written a).node := Dialect.follow_node d _
  have hread : readKind d.held below (.mapping (Json.entries rest)) r.kind = pure r :=
    readKind_entries h hnull hcontent hrest
  rw [read, hfollow, pure_bind, written, writtenMembers, Json.node]
  dsimp only
  rw [findKind_eq_sift (Json.isKey_entries _), hsift, pure_bind]
  exact hread

end ReferenceType

end ReferenceTypes

section Text

namespace Metadata

/-- The fields of metadata. -/
def get (m : Metadata) : (i : Field) → Fields.Value i
  | .controllers => m.controllers
  | .referenceTypes => m.referenceTypes

/-- Metadata are read back. -/
theorem read_written {m : Metadata} (h : m.WellFormed) (hnull : m.SaysNoNull) {depth : Nat}
    (hdepth : (m.written a).nesting ≤ depth) : read d depth (m.written a).node = pure m := by
  have hfinish : ∀ absent, finish (fun i => some (m.get i)) absent = .ok m := fun _ => rfl
  refine Arrangement.read_record fields_lawful hdepth hfinish ?_ _
  intro depth i hi
  cases i with
  | controllers =>
    exact Dialect.list_node hi fun _ c hc => Controller.read_written (h.methods c hc)
  | referenceTypes =>
    exact Dialect.table_node h.sorted hi fun _ e he =>
      ReferenceType.read_written (h.types e he) (hnull e he)

/-- The text of a value is read as what the value is read as. -/
theorem ofText_render {v : Json} {m : Metadata} (hnumbers : ∀ n ∈ v.numbers, n.ReadsBack)
    (hread : ∀ d : Dialect, d.format = .json → read d d.limit v.node = pure m) :
    ofText v.render = .ok m := by
  have hdocument := Json.document_render v
  rw [Json.spelt_of_readsBack v hnumbers] at hdocument
  apply ofText_of_ofJson
  rw [ofJson, hdocument, ofDocument, Document.read]
  dsimp only
  rw [hread _ rfl]
  rfl

/-- Metadata are read back from their JSON text as they were, in whatever order the members of the
records have been written, if their numbers are read back. -/
theorem ofText_render_written (a : Arrangement) {m : Metadata} (h : m.WellFormed)
    (hnull : m.SaysNoNull) (hnumbers : ∀ n ∈ (m.written a).numbers, n.ReadsBack)
    (hdepth : (m.written a).nesting ≤ 127) : ofText (m.written a).render = .ok m := by
  refine ofText_render hnumbers fun d hd => read_written h hnull ?_
  rwa [Dialect.limit, hd]

/-- The metadata of an issue tracker: a controller, and a named type of each kind. -/
def tracker : Metadata where
  controllers := [
    ⟨"Issues".toList, "src/issues.ts".toList, "issues".toList, [
      ⟨"list".toList, .get, "".toList, [
        ⟨"weights".toList, "weight".toList, .query, false,
          ⟨"array".toList, none, some
            ⟨"enum".toList, none, none, some [.number (.real ⟨false, 1022 * Nat.pow 2 52⟩), .natural 1]⟩,
            none⟩⟩],
        some 200, [[("key".toList, []), ("oauth".toList, ["read".toList])]]⟩,
      ⟨"clear".toList, .delete, "".toList, [], none, []⟩]⟩]
  referenceTypes := [
    ("Issue".toList, .object
      [("title".toList, ⟨⟨"string".toList, none, none, none⟩, true⟩)] (some (.bool false))),
    ("Issues".toList, .alias
      ⟨"array".toList, none, some ⟨"refObject".toList, some "Issue".toList, none, none⟩, none⟩),
    ("State".toList, .enumeration [.literal "open", .null])]

theorem ofText_render_written_tracker :
    tracker.WellFormed ∧ tracker.SaysNoNull ∧
      (∀ n ∈ (tracker.written .declared).numbers, n.ReadsBack) ∧
      (tracker.written .declared).nesting ≤ 127 ∧
      ofText (tracker.written .declared).render = .ok tracker := by
  have hwell : tracker.WellFormed := by
    refine ⟨?_, ?_, ?_⟩
    · intro c hc h hh
      simp only [tracker, List.mem_cons, List.not_mem_nil, or_false] at hc
      subst hc
      simp only [List.mem_cons, List.not_mem_nil, or_false] at hh
      rcases hh with rfl | rfl
      · refine ⟨?_, ?_, ?_⟩
        · simp [TypeSchema.WellFormed, Json.Ordered, Json.natural]
        · simp
        · simp only [List.mem_cons, List.not_mem_nil, or_false, forall_eq, Table.Sorted]
          decide
      · refine ⟨?_, ?_, ?_⟩ <;> simp
    · simp only [tracker, Table.Sorted]
      decide
    · simp only [tracker, List.mem_cons, List.not_mem_nil, or_false, forall_eq_or_imp, forall_eq]
      refine ⟨⟨?_, ?_⟩, ?_, ?_⟩
      · simp [Table.Sorted]
      · simp [TypeSchema.WellFormed, Json.Ordered]
      · simp [ReferenceType.WellFormed, TypeSchema.WellFormed]
      · simp [ReferenceType.WellFormed, Json.Ordered, Json.literal]
  have hnull : tracker.SaysNoNull := by
    simp [tracker, SaysNoNull]
  have hnumbers : ∀ n ∈ (tracker.written .declared).numbers, n.ReadsBack := by
    have hall : (tracker.written .declared).numbers =
        [.real ⟨false, 1022 * Nat.pow 2 52⟩, .integer 1, .integer 200] := rfl
    rw [hall]
    decide +kernel
  have hdepth : (tracker.written .declared).nesting ≤ 127 := by decide +kernel
  exact ⟨hwell, hnull, hnumbers, hdepth, ofText_render_written .declared hwell hnull hnumbers hdepth⟩

/-- Metadata are read back from the text of their JSON value as well. -/
theorem ofText_render_toJson {m : Metadata} (h : m.WellFormed) (hnull : m.SaysNoNull)
    (hnumbers : ∀ n ∈ m.toJson.numbers, n.ReadsBack) (hdepth : m.toJson.nesting ≤ 127) :
    ofText m.toJson.render = .ok m := by
  refine ofText_render hnumbers fun d hd => ?_
  rw [← written_ascending] at hdepth ⊢
  refine read_written h hnull ?_
  rwa [Dialect.limit, hd]

end Metadata

end Text

end RouteModule
