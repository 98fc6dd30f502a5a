import RouteModule.Proofs.Layout.Content
import RouteModule.Proofs.Text.Encoding

/-!
The named types of a module: one entry for each, in the order of the bytes of the names, that depends
on the name, on the type, and on what is done about properties that a model does not declare.
-/

namespace RouteModule

/-- The values that scripts take for false. -/
def Json.IsFalsy (v : Json) : Prop :=
  v = .null ∨ v = .bool false ∨ v = .number (.integer 0) ∨
    (∃ negative, v = .number (.real ⟨negative, 0⟩)) ∨ v = .text []

theorem Json.isTruthy_eq_false_iff (v : Json) : v.isTruthy = false ↔ v.IsFalsy := by
  cases v with
  | null => simp [isTruthy, IsFalsy]
  | bool b => simp [isTruthy, IsFalsy]
  | number n =>
    cases n with
    | integer i => simp [isTruthy, IsFalsy, Number.isZero]
    | real x =>
      obtain ⟨negative, magnitude⟩ := x
      simp [isTruthy, IsFalsy, Number.isZero, Binary64.isZero]
  | text t => simp [isTruthy, IsFalsy]
  | array items => simp [isTruthy, IsFalsy]
  | object members => simp [isTruthy, IsFalsy]

namespace Layout

/-- What the entry of a named type has to say. For a model, what it declares about further properties
counts if scripts take it for true, and otherwise the policy does. -/
def SaysModel (policy : Policy) (name t : Text) : ReferenceType → Prop
  | .object properties additional => ∃ extras,
      t = paragraph ["", "    \""] ++ name ++
        paragraph ["\": \x7b", "        \"dataType\": \"refObject\",", "        \"properties\": "] ++
        (Json.object (properties.map fun e => (e.1, e.2.toJson))).render ++
        paragraph [",", "        \"additionalProperties\": "] ++ extras ++
        paragraph [",", "    \x7d,"] ∧
      (∀ v, additional = some v → ¬ v.IsFalsy → extras = v.render) ∧
      ((∀ v, additional = some v → v.IsFalsy) →
        extras = if policy = .ignore then "true".toList else "false".toList)
  | .enumeration values =>
      t = paragraph ["", "    \""] ++ name ++
        paragraph ["\": \x7b", "        \"dataType\": \"refEnum\",", "        \"enums\": "] ++
        (Json.array values).render ++ paragraph [",", "    \x7d,"]
  | .alias type =>
      t = paragraph ["", "    \""] ++ name ++
        paragraph ["\": \x7b", "        \"dataType\": \"refAlias\",", "        \"type\": "] ++
        type.toJson.render ++ paragraph [",", "        \"validators\": \x7b\x7d,", "    \x7d,"]

section Entries

variable (policy : Policy) (name : Text)

theorem additionalProps_of_truthy {additional : Option Json} {v : Json} (h : additional = some v)
    (hv : ¬ v.IsFalsy) : Template.additionalProps policy (.orNull additional) = v.render := by
  rw [← Json.isTruthy_eq_false_iff, Bool.not_eq_false] at hv
  rw [h, Json.orNull, Template.additionalProps, if_pos hv]

theorem additionalProps_of_falsy {additional : Option Json}
    (h : ∀ v, additional = some v → v.IsFalsy) :
    Template.additionalProps policy (.orNull additional) =
      if policy = .ignore then "true".toList else "false".toList := by
  have hfalse : (Json.orNull additional).isTruthy = false := by
    cases additional with
    | none => rfl
    | some v => exact (Json.isTruthy_eq_false_iff v).2 (h v rfl)
  rw [Template.additionalProps, if_neg (by simp [hfalse])]
  cases policy with
  | silentlyRemoveExtras => decide
  | throwOnExtras => decide
  | ignore => decide

/-- The entry of a named type says what it has to. -/
theorem saysModel_modelEntry (r : ReferenceType) :
    SaysModel policy name (modelEntry policy name r) r := by
  cases r with
  | object properties additional =>
    refine ⟨Template.additionalProps policy (.orNull additional), ?_, ?_, ?_⟩
    · have hkind : paragraph ["\": \x7b", "        \"dataType\": \""] ++ "refObject".toList ++
          "\",".toList ++ paragraph ["", "        \"properties\": "] = paragraph
            ["\": \x7b", "        \"dataType\": \"refObject\",", "        \"properties\": "] := by
        decide +kernel
      have hend : ",".toList ++ paragraph ["", "    \x7d,"] = paragraph [",", "    \x7d,"] := by
        decide
      rw [← hkind, ← hend]
      simp only [modelEntry, modelBody, ReferenceType.kind, ReferenceType.Kind.name,
        List.append_assoc]
    · exact fun v h hv => additionalProps_of_truthy policy h hv
    · exact additionalProps_of_falsy policy
  | enumeration values =>
    have hkind : paragraph ["\": \x7b", "        \"dataType\": \""] ++ "refEnum".toList ++
        "\",".toList ++ paragraph ["", "        \"enums\": "] = paragraph
          ["\": \x7b", "        \"dataType\": \"refEnum\",", "        \"enums\": "] := by
      decide +kernel
    have hend : ",".toList ++ paragraph ["", "    \x7d,"] = paragraph [",", "    \x7d,"] := by
      decide
    unfold SaysModel
    rw [← hkind, ← hend]
    simp only [modelEntry, modelBody, ReferenceType.kind, ReferenceType.Kind.name,
      List.append_assoc]
  | «alias» type =>
    have hkind : paragraph ["\": \x7b", "        \"dataType\": \""] ++ "refAlias".toList ++
        "\",".toList ++ paragraph ["", "        \"type\": "] = paragraph
          ["\": \x7b", "        \"dataType\": \"refAlias\",", "        \"type\": "] := by
      decide +kernel
    have hend : paragraph [",", "        \"validators\": \x7b\x7d,"] ++ paragraph ["", "    \x7d,"] =
        paragraph [",", "        \"validators\": \x7b\x7d,", "    \x7d,"] := by
      decide +kernel
    unfold SaysModel
    rw [← hkind, ← hend]
    simp only [modelEntry, modelBody, ReferenceType.kind, ReferenceType.Kind.name,
      List.append_assoc]

end Entries

end Layout

/-- The names of a table stand in the order of their bytes. -/
theorem Table.Sorted.toBytes {t : Table α} (h : t.Sorted) :
    (t.map Prod.fst).Pairwise fun a b => Text.toBytes a < Text.toBytes b := by
  rw [List.pairwise_map]
  exact List.Pairwise.imp (fun hab => Text.before_iff_toBytes.1 hab) h

namespace Generator

open Layout

/-- The generator with other named types. -/
def withTypes (g : Generator) (types : Table ReferenceType) : Generator :=
  { g with metadata := { g.metadata with referenceTypes := types } }

/-- The table of the named types in a module. -/
def modelsTable (policy : Policy) (types : Table ReferenceType) : Text :=
  paragraph ["", "const models: TsoaRoute.Models = \x7b"] ++
    (types.flatMap fun e => modelEntry policy e.1 e.2) ++ paragraph ["", "\x7d;", ""]

/-- Whatever the named types are, they change nothing in a module but the table of them. -/
theorem content_withTypes (g : Generator) (cwd : Text) (f : Framework) :
    ∃ before behind, ∀ types, (g.withTypes types).content cwd f.template =
      .ok (before ++ modelsTable g.options.noImplicitAdditionalProperties types ++ behind) := by
  refine ⟨head f.wording ++
      ((g.context cwd).controllers.flatMap fun k => importLine k.name k.modulePath) ++
      settings f.wording (g.context cwd),
    "const templateService = new ".toList ++ f.wording.service ++
      "TemplateService(models, ".toList ++ (g.context cwd).minimalSwaggerConfig.render ++
      f.wording.serviceArguments ++ ");".toList ++ registration f.wording ++
      ((g.context cwd).controllers.flatMap fun k => k.actions.flatMap fun a =>
        block f.wording k.name (given (g.context cwd).iocModule) a) ++
      ending f.wording (g.context cwd), fun types => ?_⟩
  have hcontext : (g.withTypes types).context cwd = { g.context cwd with models := types } := rfl
  have hend : paragraph ["", "\x7d;", "const templateService = new "] =
      paragraph ["", "\x7d;", ""] ++ "const templateService = new ".toList := by
    decide +kernel
  rw [content_eq_text, hcontext, text, preamble, models, hend, modelsTable]
  simp only [List.append_assoc]
  rfl

/-- The module has one entry for each named type, in the order of the bytes of the names; each says
what its type has to say, and neither an entry nor the rest of the module depends on other types. -/
theorem content_models (g : Generator) (cwd : Text) (f : Framework)
    (hsorted : g.metadata.referenceTypes.Sorted) :
    ((g.metadata.referenceTypes.map Prod.fst).Pairwise fun a b =>
        Text.toBytes a < Text.toBytes b) ∧
      (∀ e ∈ g.metadata.referenceTypes, SaysModel g.options.noImplicitAdditionalProperties e.1
        (modelEntry g.options.noImplicitAdditionalProperties e.1 e.2) e.2) ∧
      ∃ before behind,
        g.content cwd f.template = .ok (before ++
          modelsTable g.options.noImplicitAdditionalProperties g.metadata.referenceTypes ++
          behind) ∧
        ∀ types, (g.withTypes types).content cwd f.template =
          .ok (before ++ modelsTable g.options.noImplicitAdditionalProperties types ++ behind) := by
  obtain ⟨before, behind, hcontent⟩ := g.content_withTypes cwd f
  refine ⟨hsorted.toBytes, ?_, before, behind, hcontent g.metadata.referenceTypes, hcontent⟩
  exact fun e _ => saysModel_modelEntry _ e.1 e.2

/-- A generator with one named type of each kind; what the model declares about further properties is
false for scripts. -/
def shopGenerator : Generator :=
  ⟨⟨[], [
    ("Color".toList, .enumeration [.literal "red", .null]),
    ("Item".toList, .object
      [("id".toList, ⟨⟨"string".toList, none, none, none⟩, true⟩)] (some (.natural 0))),
    ("Items".toList, .alias
      ⟨"array".toList, none, some ⟨"refObject".toList, some "Item".toList, none, none⟩, none⟩)]⟩,
    { Options.ofRoutesDir "src".toList with noImplicitAdditionalProperties := .throwOnExtras }⟩

theorem content_models_shop :
    shopGenerator.metadata.referenceTypes.Sorted ∧
      ((shopGenerator.metadata.referenceTypes.map Prod.fst).Pairwise fun a b =>
        Text.toBytes a < Text.toBytes b) ∧
      ∃ before behind, shopGenerator.content [] Framework.hapi.template =
        .ok (before ++ modelsTable .throwOnExtras shopGenerator.metadata.referenceTypes ++ behind) := by
  have hsorted : shopGenerator.metadata.referenceTypes.Sorted := by
    simp only [shopGenerator, Table.Sorted]
    decide
  obtain ⟨hbytes, -, before, behind, hcontent, -⟩ :=
    content_models shopGenerator [] .hapi hsorted
  exact ⟨hsorted, hbytes, before, behind, hcontent⟩

end Generator

end RouteModule
