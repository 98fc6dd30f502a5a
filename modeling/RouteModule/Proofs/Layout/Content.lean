import RouteModule.Generation
import RouteModule.Proofs.Layout.Scope
import RouteModule.Proofs.Template.Prints

/-!
The content of a generated module: whatever the application and the options are, the template of a
framework gives the text of the framework's layout. The loops are taken from the inside to the
outside; each gives the texts of its items, since the round of an item knows all that its text says.
-/

namespace RouteModule

namespace Layout

open Template

variable {policy : Policy} {s : Scope}

theorem prints_import (s : Scope) (k : ControllerRoutes) (i n : Nat) :
    Prints policy (s.enter (controllerRound k i n)) importNodes (importLine k.name k.modulePath) := by
  have hname : (member "controller" "name").value? policy (s.enter (controllerRound k i n)) =
      some (.text k.name) :=
    value?_controller policy s k i n (isName_ofList (by decide)) (Path.part?_record _ _)
  have hpath : (member "controller" "modulePath").value? policy (s.enter (controllerRound k i n)) =
      some (.text k.modulePath) :=
    value?_controller policy s k i n (isName_ofList (by decide)) (Path.part?_record _ _)
  unfold Prints importNodes importLine
  simp only [outputs_text, outputs_print hname, outputs_print hpath, outputs_nil, behind_some,
    printed_text, List.append_assoc, List.append_nil]

section Routes

variable {controller : Text} {contained : Bool} {a : Action}

theorem prints_authentication (w : Wording) (h : KnowsRoute policy s controller contained a) :
    Prints policy s (if !a.security.isEmpty then authenticationNodes w else [])
      (authentication w a) := by
  have hsecurity := value?_asJson_member h.security
  unfold authentication authenticationNodes Prints
  cases a.security.isEmpty with
  | true => exact outputs_nil
  | false =>
    simp only [Bool.not_false, if_true, outputs_text, outputs_print hsecurity, outputs_nil,
      behind_some, printed_text, List.append_assoc, List.append_nil, Bool.false_eq_true, if_false]

theorem prints_controllerInstance (w : Wording)
    (h : KnowsRoute policy s controller contained a) :
    Prints policy s (if contained then containedNodes w else constructedNodes w)
      (controllerInstance w controller contained) := by
  unfold controllerInstance containedNodes constructedNodes Prints
  cases contained with
  | true =>
    simp only [if_true, outputs_text, outputs_print h.controller, outputs_nil, behind_some,
      printed_text, List.append_assoc, List.append_nil]
  | false =>
    simp only [Bool.false_eq_true, if_false, outputs_text, outputs_print h.controller, outputs_nil,
      behind_some, printed_text, List.append_assoc, List.append_nil]

/-- Where a route and its controller are known, the block of the route comes out. -/
theorem prints_block (w : Wording) (h : KnowsRoute policy s controller contained a) :
    Prints policy s (blockNodes w) (block w controller contained a) := by
  have hparameters := value?_asJson_member h.parameters
  have hsecured : isSecured.truth? policy s = some (!a.security.isEmpty) := by
    rw [truth?_isSecured h.security, List.isEmpty_map]
  unfold Prints blockNodes
  simp only [outputs_text, outputs_print h.controller, outputs_print h.name,
    outputs_print hparameters, outputs_print h.verb, outputs_print h.fullPath,
    outputs_print h.successStatus, outputs_cons (.cond hsecured (prints_authentication w h)),
    outputs_cons (.cond h.contained (prints_controllerInstance w h)), outputs_nil, behind_some,
    printed_text, printed_literal]
  unfold block argumentsConstant argumentsName opening middlewares handler
  simp only [List.append_assoc, List.append_nil]

end Routes

section Models

variable (policy) (s) (name : Text) (i n : Nat)

theorem prints_object (properties : Table Property) (additional : Option Json) :
    Prints policy (s.enter (modelRound name (.object properties additional) i n)) objectNodes
      (modelBody policy (.object properties additional)) := by
  have hproperties := value?_asJson_member (value?_model policy s name
    (.object properties additional) i n "properties" (isName_ofList (by decide))
    (Path.part?_record _ _))
  have hadditional := value?_additionalProps (value?_model policy s name
    (.object properties additional) i n "additionalProperties" (isName_ofList (by decide))
    (Path.part?_record _ _))
  unfold Prints objectNodes modelBody
  simp only [outputs_text, outputs_print hproperties, outputs_print hadditional, outputs_nil,
    behind_some, printed_text, List.append_assoc, List.append_nil]

theorem prints_enumeration (values : List Json) :
    Prints policy (s.enter (modelRound name (.enumeration values) i n)) enumerationNodes
      (modelBody policy (.enumeration values)) := by
  have hvalues := value?_asJson_member (value?_model policy s name
    (.enumeration values) i n "enums" (isName_ofList (by decide)) (Path.part?_record _ _))
  unfold Prints enumerationNodes modelBody
  simp only [outputs_text, outputs_print hvalues, outputs_nil, behind_some, printed_text,
    List.append_assoc, List.append_nil]

theorem prints_alias (type : TypeSchema) :
    Prints policy (s.enter (modelRound name (.alias type) i n)) aliasNodes
      (modelBody policy (.alias type)) := by
  have htype := value?_asJson_member (value?_model policy s name
    (.alias type) i n "type" (isName_ofList (by decide)) (Path.part?_record _ _))
  unfold Prints aliasNodes modelBody
  simp only [outputs_text, outputs_print htype, outputs_nil, behind_some, printed_text,
    List.append_assoc, List.append_nil]

/-- The condition on the kind of a named type picks what is said about that kind. -/
theorem prints_modelBody (r : ReferenceType) :
    Prints policy (s.enter (modelRound name r i n))
      [.cond (isKind .object) objectNodes
        [.cond (isKind .enumeration) enumerationNodes aliasNodes]] (modelBody policy r) := by
  have hkind := value?_modelKind policy s name r i n
  have hobject := truth?_isKind .object hkind
  have henum := truth?_isKind .enumeration hkind
  cases r with
  | object properties additional =>
    exact Prints.cond hobject (prints_object policy s name i n properties additional)
  | enumeration values =>
    exact Prints.cond hobject (Prints.cond henum (prints_enumeration policy s name i n values))
  | «alias» type =>
    exact Prints.cond hobject (Prints.cond henum (prints_alias policy s name i n type))

/-- In the round of a named type, the entry of the type comes out. -/
theorem prints_model (r : ReferenceType) :
    Prints policy (s.enter (modelRound name r i n)) modelNodes (modelEntry policy name r) := by
  have hname := value?_modelName policy s name r i n
  have hkind := value?_modelKind policy s name r i n
  have hbody := prints_modelBody policy s name i n r
  unfold Prints modelNodes modelEntry
  simp only [outputs_text, outputs_print hname, outputs_print hkind, outputs_cons hbody,
    outputs_nil, behind_some, printed_text, printed_literal, List.append_assoc, List.append_nil]

end Models

section Parts

variable {c : RouteContext}

/-- The function that authenticates requests is imported where it is used and given. -/
theorem prints_authenticationImport (w : Wording) (h : Knows policy s c) :
    Prints policy s [.cond authenticates (authenticationImportNodes w) []]
      (if c.useSecurity && given c.authenticationModule then
        authenticationImport w (c.authenticationModule.getD []) else []) := by
  refine .cond h.truth?_authenticates ?_
  cases hb : c.useSecurity && given c.authenticationModule with
  | false => exact outputs_nil
  | true =>
    cases hm : c.authenticationModule with
    | none => simp [hm, given] at hb
    | some path =>
      have hpath : (named "authenticationModule").value? policy s = some (.text path) := by
        rw [h.authenticationModule, hm]
        rfl
      unfold Prints authenticationImportNodes authenticationImport
      simp only [if_true, outputs_text, outputs_print hpath, outputs_nil, behind_some,
        printed_text, Option.getD_some, List.append_assoc, List.append_nil]

/-- The container is imported where it is given. -/
theorem prints_containerImport (h : Knows policy s c) :
    Prints policy s [.cond (named "iocModule") containerImportNodes []]
      (if given c.iocModule then containerImport (c.iocModule.getD []) else []) := by
  refine .cond h.truth?_iocModule ?_
  cases hb : given c.iocModule with
  | false => exact outputs_nil
  | true =>
    cases hm : c.iocModule with
    | none => simp [hm, given] at hb
    | some path =>
      have hpath : (named "iocModule").value? policy s = some (.text path) := by
        rw [h.iocModule, hm]
        rfl
      unfold Prints containerImportNodes containerImport
      simp only [if_true, outputs_text, outputs_print hpath, outputs_nil, behind_some,
        printed_text, Option.getD_some, List.append_assoc, List.append_nil]

theorem prints_types (w : Wording) (h : Knows policy s c) :
    Prints policy s (typesNodes w)
      (w.types ++ (if c.useSecurity && given c.authenticationModule then w.recast.getD [] else []) ++
        paragraph ["", "const models: TsoaRoute.Models = \x7b"]) := by
  unfold typesNodes
  cases w.recast with
  | none =>
    unfold Prints
    simp only [outputs_text, outputs_nil, behind_some, Option.getD_none, ite_self, List.append_nil]
  | some t =>
    have hrecast : Prints policy s [.cond authenticates [.text t] []]
        (if c.useSecurity && given c.authenticationModule then t else []) := by
      refine .cond h.truth?_authenticates ?_
      cases c.useSecurity && given c.authenticationModule with
      | false => exact outputs_nil
      | true => simp [Prints]
    unfold Prints
    simp only [outputs_text, outputs_cons hrecast, outputs_nil, behind_some, Option.getD_some,
      List.append_assoc, List.append_nil]

/-- The imports of the controllers come out in their order. -/
theorem prints_imports (h : Knows policy s c) :
    Prints policy s [.loop none "controller".toList (named "controllers") importNodes []]
      (c.controllers.flatMap fun k => importLine k.name k.modulePath) := by
  refine .loop (fun k => ([], k.toJson)) rfl h.controllers ?_ ?_
  · simp only [roundsOf?, List.map_map]
    rfl
  · intro i n k _
    exact prints_import s k i n

/-- The named types come out in their order. -/
theorem prints_models (h : Knows policy s c) :
    Prints policy s [.loop (some "name".toList) "model".toList (named "models") modelNodes []]
      (c.models.flatMap fun e => modelEntry policy e.1 e.2) := by
  refine .loop (fun e => (e.1, e.2.toJson)) rfl h.models rfl ?_
  intro i n e _
  exact prints_model policy s e.1 i n e.2

/-- The blocks of a controller come out in the order of its routes, and those of all controllers in
the order of the controllers. -/
theorem prints_routes (w : Wording) (h : Knows policy s c) :
    Prints policy s
      [.loop none "controller".toList (named "controllers")
        [.loop none "action".toList (member "controller" "actions") (blockNodes w) []] []]
      (c.controllers.flatMap fun k => k.actions.flatMap fun a =>
        block w k.name (given c.iocModule) a) := by
  refine .loop (fun k => ([], k.toJson)) rfl h.controllers ?_ ?_
  · simp only [roundsOf?, List.map_map]
    rfl
  · intro i n k _
    have hactions : (member "controller" "actions").value? policy
        (s.enter (controllerRound k i n)) = some (.array (k.actions.map Action.toJson)) :=
      value?_controller policy s k i n (isName_ofList (by decide)) (Path.part?_record _ _)
    refine .loop (fun a => ([], a.toJson)) rfl hactions ?_ ?_
    · simp only [roundsOf?, List.map_map]
      rfl
    · intro j m a _
      exact prints_block w (h.route k a i n j m)

/-- What a try is depends on whether there is a function that authenticates requests. -/
theorem prints_attempt (w : Wording) (h : Knows policy s c) :
    Prints policy s
      [.cond (named "authenticationModule") [.text w.attempt] [.text missingModule]]
      (if given c.authenticationModule then w.attempt else missingModule) := by
  refine .cond h.truth?_authenticationModule ?_
  cases given c.authenticationModule with
  | true => simp [Prints]
  | false => simp [Prints]

theorem prints_attempts (w : Wording) (h : Knows policy s c) :
    Prints policy s [.cond (named "useSecurity") (attemptNodes w) []] (attempts w c) := by
  refine .cond h.truth?_useSecurity ?_
  unfold attempts
  cases c.useSecurity with
  | false => exact outputs_nil
  | true =>
    unfold Prints attemptNodes
    simp only [if_true, outputs_text, outputs_cons (prints_attempt w h), outputs_nil, behind_some,
      List.append_assoc, List.append_nil]

/-- In the scope of a context, the tree gives the text of the layout. -/
theorem prints_tree (w : Wording) (h : Knows c.noImplicitAdditionalProperties s c) :
    Prints c.noImplicitAdditionalProperties s (tree w) (text w c) := by
  have hsettings := value?_asJson_named h.minimalSwaggerConfig
  unfold Prints tree
  simp only [List.cons_append, List.nil_append, outputs_text, outputs_cons (prints_imports h),
    outputs_cons (prints_authenticationImport w h), outputs_cons (prints_containerImport h),
    outputs_append (prints_types w h), outputs_cons (prints_models h), outputs_print hsettings,
    outputs_cons (prints_routes w h), outputs_cons (prints_attempts w h), outputs_nil, behind_some,
    printed_text]
  unfold text preamble head settings models registration ending
  simp only [List.append_assoc, List.append_nil]

end Parts

/-- Rendering the template of a framework with a context gives the text of the layout. -/
theorem render_template (f : Framework) (c : RouteContext) :
    render c.noImplicitAdditionalProperties f.template c.toJson = .ok (text f.wording c) :=
  render_of_prints (ofText?_template f) (prints_tree f.wording (knows_contextScope _ c))

end Layout

namespace Generator

open Layout

/-- The route of a method as the options ask for it. -/
def route (g : Generator) (c : Controller) (m : Method) : Action :=
  Action.ofMethod g.strategy.pathStyle (RoutePath.rooted g.options.basePath)
    (g.strategy.pathStyle.transform (RoutePath.segment c.path)) m

/-- A generator makes the text of the layout out of the template of any framework. -/
theorem content_eq_text (g : Generator) (cwd : Text) (f : Framework) :
    g.content cwd f.template = .ok (text f.wording (g.context cwd)) :=
  render_template f (g.context cwd)

/-- The imports of the controllers, in the order of the metadata. -/
theorem imports_context (g : Generator) (cwd : Text) :
    ((g.context cwd).controllers.flatMap fun k => importLine k.name k.modulePath) =
      g.metadata.controllers.flatMap fun c =>
        importLine c.name
          (ImportPath.specifier cwd g.options.routesDir c.location g.options.esm) := by
  have hcontrollers : (g.context cwd).controllers = g.metadata.controllers.map
      (ControllerRoutes.ofController g.strategy.pathStyle cwd (RoutePath.rooted g.options.basePath)
        g.options) := rfl
  rw [hcontrollers, List.flatMap_map]
  rfl

/-- The block of a method. -/
def methodBlock (g : Generator) (w : Wording) (c : Controller) (m : Method) : Text :=
  block w c.name (given g.options.iocModule) (g.route c m)

/-- The blocks of the routes, in the order of the metadata. -/
theorem blocks_context (g : Generator) (cwd : Text) (w : Wording) :
    ((g.context cwd).controllers.flatMap fun k => k.actions.flatMap fun a =>
        block w k.name (given (g.context cwd).iocModule) a) =
      g.metadata.controllers.flatMap fun c => c.methods.flatMap (g.methodBlock w c) := by
  have hcontrollers : (g.context cwd).controllers = g.metadata.controllers.map
      (ControllerRoutes.ofController g.strategy.pathStyle cwd (RoutePath.rooted g.options.basePath)
        g.options) := rfl
  rw [hcontrollers, List.flatMap_map]
  congr 1
  funext c
  exact List.flatMap_map _ _ _

/-- The block of a method stands behind those of all methods before it. -/
theorem content_methodBlock (g : Generator) (cwd : Text) (f : Framework)
    {cs ds : List Controller} {c : Controller} {ms ns : List Method} {m : Method}
    (hc : g.metadata.controllers = cs ++ c :: ds) (hm : c.methods = ms ++ m :: ns) :
    ∃ tail, g.content cwd f.template = .ok (
      preamble f.wording (g.context cwd) ++
      (cs.flatMap fun c => c.methods.flatMap (g.methodBlock f.wording c)) ++
      ms.flatMap (g.methodBlock f.wording c) ++ g.methodBlock f.wording c m ++ tail) := by
  refine ⟨ns.flatMap (g.methodBlock f.wording c) ++
    ((ds.flatMap fun c => c.methods.flatMap (g.methodBlock f.wording c)) ++
      ending f.wording (g.context cwd)), ?_⟩
  rw [content_eq_text, text, blocks_context, hc]
  simp only [List.flatMap_append, List.flatMap_cons, hm, List.append_assoc]

/-- The module of a framework imports each controller once, in order, and registers each method of
each controller once, in order, by a block that depends on the framework, the name of the
controller, the route of the method, and whether there is a container. -/
theorem content_eq_blocks (g : Generator) (cwd : Text) (f : Framework) :
    g.content cwd f.template = .ok (
      head f.wording ++
      (g.metadata.controllers.flatMap fun c =>
        importLine c.name
          (ImportPath.specifier cwd g.options.routesDir c.location g.options.esm)) ++
      settings f.wording (g.context cwd) ++
      models f.wording (g.context cwd) ++
      registration f.wording ++
      (g.metadata.controllers.flatMap fun c => c.methods.flatMap fun m =>
        block f.wording c.name (given g.options.iocModule) (g.route c m)) ++
      ending f.wording (g.context cwd)) := by
  rw [content_eq_text, text, preamble, imports_context, blocks_context]
  rfl

/-- Whatever the application and the options are, the templates of the frameworks give a module. -/
theorem content_template_isOk (g : Generator) (cwd : Text) (f : Framework) :
    ∃ t, g.content cwd f.template = .ok t :=
  ⟨_, g.content_eq_text cwd f⟩

end Generator

end RouteModule
