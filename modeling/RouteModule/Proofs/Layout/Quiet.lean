import RouteModule.Proofs.Layout.Tree
import RouteModule.Proofs.Text.Occurrences

/-!
Where the modules speak of the function that authenticates requests. The texts that a module says of
its own are quiet about it, but for the call in front of a route's middlewares and the head of the
function itself; what a module takes over from an application stands between such texts, so that nothing
comes up where they meet.
-/

namespace RouteModule.Layout

open Text (Quiet Fixed)

/-- The name of the function that the routes of a module are guarded by. -/
def gate : Text := "authenticateMiddleware".toList

theorem gate_ne_nil : gate ≠ [] := by decide

section Wordings

/-- The texts of a wording that stand alone or in front of what an application says. -/
def leadingTexts (w : Wording) : List Text := [
  w.types, w.recast.getD [], w.serviceArguments, w.beforeVerb, w.beforeMiddlewares,
  w.beforeHandler, w.beforeContainer, w.beforeConstructor, w.beforeName]

/-- The texts of a wording that stand behind what an application says. -/
def trailingTexts (w : Wording) : List Text := [
  w.beforePath, w.behindPath, w.signature, w.behindArguments, w.beforeStatus, w.behindStatus]

/-- The texts of a wording that stand between others of the module. -/
def innerTexts (w : Wording) : List Text := [w.service, w.authentication, w.router]

set_option maxRecDepth 100000 in
/-- But for the call of the gate and the gate itself, a wording says nothing of it. -/
theorem wording_quiet (f : Framework) :
    ((leadingTexts f.wording).all fun t => decide (Quiet gate t)) &&
      ((trailingTexts f.wording).all fun t => decide (Fixed gate t)) &&
      ((innerTexts f.wording).all fun t => decide (¬ gate <:+: t)) := by
  unfold Framework.wording
  cases f
  all_goals
    dsimp only [Wording.express, Wording.koa, Wording.hapi]
    unfold leadingTexts trailingTexts innerTexts gate
    -- The literals are taken apart here, since the evaluation below is slow at it.
    simp (disch := exact rfl) only [paragraph_cons, paragraph_singleton, String.toList_append,
      toList_literal, -String.reduceToList, -String.reduceAppend]
    decide +kernel

variable (f : Framework) {t : Text}

theorem quiet_leading (h : t ∈ leadingTexts f.wording) : Quiet gate t := by
  have hw := wording_quiet f
  simp only [Bool.and_eq_true, List.all_eq_true, decide_eq_true_eq] at hw
  exact hw.1.1 t h

theorem fixed_trailing (h : t ∈ trailingTexts f.wording) : Fixed gate t := by
  have hw := wording_quiet f
  simp only [Bool.and_eq_true, List.all_eq_true, decide_eq_true_eq] at hw
  exact hw.1.2 t h

theorem absent_inner (h : t ∈ innerTexts f.wording) : ¬ gate <:+: t := by
  have hw := wording_quiet f
  simp only [Bool.and_eq_true, List.all_eq_true, decide_eq_true_eq] at hw
  exact hw.2 t h

end Wordings

/-- The texts that a route takes over from an application. -/
def actionTexts (a : Action) : List Text :=
  [a.name, a.fullPath, a.parametersJson.render, a.securityJson.render]

/-- The texts that the entry of a named type takes over from an application. -/
def modelTexts (policy : Policy) (name : Text) : ReferenceType → List Text
  | .object properties additional => [
    name, (Json.object (properties.map fun e => (e.1, e.2.toJson))).render,
    Template.additionalProps policy (.orNull additional)]
  | .enumeration values => [name, (Json.array values).render]
  | .alias type => [name, type.toJson.render]

/-- The texts that a module takes over from an application. -/
def applicationTexts (c : RouteContext) : List Text :=
  (c.controllers.flatMap fun k => k.name :: k.modulePath :: k.actions.flatMap actionTexts) ++
  (c.models.flatMap fun e => modelTexts c.noImplicitAdditionalProperties e.1 e.2) ++
  c.iocModule.toList ++ c.authenticationModule.toList

section Imports

variable (f : Framework) {c : RouteContext} {name modulePath : Text}

set_option maxRecDepth 4000 in
theorem quiet_head : Quiet gate (head f.wording) := by
  have hservice : ¬ gate <:+: f.wording.service := absent_inner f (by simp [innerTexts])
  exact .around (by decide) hservice (by decide)

theorem quiet_importLine (hname : ¬ gate <:+: name) (hpath : ¬ gate <:+: modulePath) :
    Quiet gate (importLine name modulePath) := by
  have hstart : Quiet gate "import \x7b ".toList := by decide
  exact (hstart.around hname (by decide)).around hpath (by decide)

theorem quiet_authenticationImport (hpath : ¬ gate <:+: modulePath) :
    Quiet gate (authenticationImport f.wording modulePath) := by
  have hname : ¬ gate <:+: f.wording.authentication := absent_inner f (by simp [innerTexts])
  exact quiet_importLine hname hpath

set_option maxRecDepth 4000 in
theorem quiet_containerImport (hpath : ¬ gate <:+: modulePath) :
    Quiet gate (containerImport modulePath) :=
  .around (by decide) hpath (by decide)

theorem quiet_settings (h : ∀ t ∈ applicationTexts c, ¬ gate <:+: t) :
    Quiet gate (settings f.wording c) := by
  have hauthentication : Quiet gate
      (if c.useSecurity && given c.authenticationModule then
        authenticationImport f.wording (c.authenticationModule.getD []) else []) := by
    split
    · apply quiet_authenticationImport
      cases hm : c.authenticationModule with
      | none => decide
      | some path => exact h path (by simp [applicationTexts, hm])
    · exact .nil gate_ne_nil
  have hcontainer : Quiet gate
      (if given c.iocModule then containerImport (c.iocModule.getD []) else []) := by
    split
    · apply quiet_containerImport
      cases hm : c.iocModule with
      | none => decide
      | some path => exact h path (by simp [applicationTexts, hm])
    · exact .nil gate_ne_nil
  have htypes : Quiet gate f.wording.types := quiet_leading f (by simp [leadingTexts])
  have hrecast : Quiet gate
      (if c.useSecurity && given c.authenticationModule then f.wording.recast.getD [] else []) := by
    split
    · exact quiet_leading f (by simp [leadingTexts])
    · exact .nil gate_ne_nil
  exact ((hauthentication.append hcontainer).append htypes).append hrecast

end Imports

section Models

variable (f : Framework) {c : RouteContext} {policy : Policy} {name : Text}

theorem quiet_modelBody {r : ReferenceType} (h : ∀ t ∈ modelTexts policy name r, ¬ gate <:+: t) :
    Quiet gate (modelBody policy r) := by
  cases r with
  | object properties additional =>
    have hstart : Quiet gate (paragraph ["", "        \"properties\": "]) := by decide
    have hproperties := h (Json.object (properties.map fun e => (e.1, e.2.toJson))).render
      (by simp [modelTexts])
    have hadditional := h (Template.additionalProps policy (.orNull additional))
      (by simp [modelTexts])
    have hmiddle : Fixed gate (paragraph [",", "        \"additionalProperties\": "]) := by decide
    exact (hstart.around hproperties hmiddle).around hadditional (by decide)
  | enumeration values => exact .around (by decide) (h _ (by simp [modelTexts])) (by decide)
  | «alias» type => exact .around (by decide) (h _ (by simp [modelTexts])) (by decide)

theorem quiet_modelEntry {r : ReferenceType} (h : ∀ t ∈ modelTexts policy name r, ¬ gate <:+: t) :
    Quiet gate (modelEntry policy name r) := by
  have hstart : Quiet gate (paragraph ["", "    \""]) := by decide
  have hname : ¬ gate <:+: name := by
    cases r with
    | object properties additional => exact h name (by simp [modelTexts])
    | enumeration values => exact h name (by simp [modelTexts])
    | «alias» type => exact h name (by simp [modelTexts])
  have hkind : ¬ gate <:+: r.kind.name.toList := by
    have hkinds : ∀ k : ReferenceType.Kind, ¬ gate <:+: k.name.toList := by
      intro k
      cases k <;> decide
    exact hkinds r.kind
  have hmiddle : Fixed gate (paragraph ["\": \x7b", "        \"dataType\": \""]) := by decide
  have hbehind : Fixed gate "\",".toList := by decide
  have hentry := (hstart.around hname hmiddle).around hkind hbehind
  exact (hentry.append (quiet_modelBody h)).append (by decide)

theorem quiet_models (h : ∀ t ∈ applicationTexts c, ¬ gate <:+: t) :
    Quiet gate (models f.wording c) := by
  have hstart : Quiet gate (paragraph ["", "const models: TsoaRoute.Models = \x7b"]) := by decide
  have hentries : Quiet gate
      (c.models.flatMap fun e => modelEntry c.noImplicitAdditionalProperties e.1 e.2) := by
    refine .flatMap gate_ne_nil fun e he => quiet_modelEntry fun t ht => h t ?_
    simp only [applicationTexts, List.mem_append, List.mem_flatMap]
    exact .inl (.inl (.inr ⟨e, he, ht⟩))
  have hend : Quiet gate (paragraph ["", "\x7d;", "const templateService = new "]) := by decide
  have hservice : ¬ gate <:+: f.wording.service := absent_inner f (by simp [innerTexts])
  have hconfig : Quiet gate c.minimalSwaggerConfig.render := by
    unfold RouteContext.minimalSwaggerConfig
    cases c.noImplicitAdditionalProperties with
    | silentlyRemoveExtras => decide
    | throwOnExtras => decide
    | ignore => decide
  have harguments : Quiet gate f.wording.serviceArguments := quiet_leading f (by simp [leadingTexts])
  have hobject := ((hstart.append hentries).append hend).around hservice
    (by decide : Fixed gate "TemplateService(models, ".toList)
  exact ((hobject.append hconfig).append harguments).append (by decide)

end Models

section Routes

variable (f : Framework) {controller : Text} {contained : Bool} {a : Action}
  (hcontroller : ¬ gate <:+: controller) (ha : ∀ t ∈ actionTexts a, ¬ gate <:+: t)
  (hstatus : ¬ gate <:+: a.successStatus)

include ha in
theorem absent_name : ¬ gate <:+: a.name := ha a.name (by simp [actionTexts])

include hcontroller ha in
theorem quiet_argumentsConstant : Quiet gate (argumentsConstant controller a) := by
  have hstart : Quiet gate (paragraph ["", "", "    const args"]) := by decide
  have hnames := (hstart.around hcontroller (by decide : Fixed gate "_".toList)).around
    (absent_name ha) (by decide : Fixed gate ": Record<string, TsoaRoute.ParameterSchema> = ".toList)
  exact hnames.around (ha _ (by simp [actionTexts])) (by decide)

include ha in
theorem quiet_opening : Quiet gate (opening f.wording a) := by
  have hstart : Quiet gate f.wording.beforeVerb := quiet_leading f (by simp [leadingTexts])
  have hpath : Fixed gate f.wording.beforePath := fixed_trailing f (by simp [trailingTexts])
  have hend : Fixed gate f.wording.behindPath := fixed_trailing f (by simp [trailingTexts])
  have hverb : ¬ gate <:+: a.verb.name.toList := by cases a.verb <;> decide
  exact (hstart.around hverb hpath).around (ha _ (by simp [actionTexts])) hend

include hcontroller ha in
theorem quiet_middlewares : Quiet gate (middlewares f.wording controller a) := by
  have hstart : Quiet gate f.wording.beforeMiddlewares := quiet_leading f (by simp [leadingTexts])
  have hend : Fixed gate ")),".toList := by decide
  have hfirst := (hstart.around hcontroller hend).append hstart
  exact (hfirst.around hcontroller (by decide)).around (absent_name ha) hend

include hcontroller in
theorem quiet_controllerInstance :
    Quiet gate (controllerInstance f.wording controller contained) := by
  unfold controllerInstance
  split
  · have hstart : Quiet gate f.wording.beforeContainer := quiet_leading f (by simp [leadingTexts])
    exact (hstart.around hcontroller (by decide)).around hcontroller (by decide)
  · have hstart : Quiet gate f.wording.beforeConstructor :=
      quiet_leading f (by simp [leadingTexts])
    exact hstart.around hcontroller (by decide)

include hcontroller ha hstatus in
theorem quiet_handler : Quiet gate (handler f.wording controller contained a) := by
  have hstart : Quiet gate f.wording.beforeHandler := quiet_leading f (by simp [leadingTexts])
  have hunderscore : Fixed gate "_".toList := by decide
  have hsignature : Fixed gate f.wording.signature := fixed_trailing f (by simp [trailingTexts])
  have harguments : Fixed gate f.wording.behindArguments :=
    fixed_trailing f (by simp [trailingTexts])
  have hcall : Quiet gate f.wording.beforeName := quiet_leading f (by simp [leadingTexts])
  have hbefore : Fixed gate f.wording.beforeStatus := fixed_trailing f (by simp [trailingTexts])
  have hbehind : Fixed gate f.wording.behindStatus := fixed_trailing f (by simp [trailingTexts])
  have hname := absent_name ha
  have hhead := (hstart.around hcontroller hunderscore).around hname hsignature
  have hvalidated := (hhead.around hcontroller hunderscore).around hname harguments
  have hinstance : Quiet gate (controllerInstance f.wording controller contained) :=
    quiet_controllerInstance f hcontroller
  have hbody := (hvalidated.append hinstance).append hcall
  exact (hbody.around hname hbefore).around hstatus hbehind

end Routes

section Whole

variable (f : Framework) {c : RouteContext}

theorem quiet_registration : Quiet gate (registration f.wording) := by
  have hrouter : ¬ gate <:+: f.wording.router := absent_inner f (by simp [innerTexts])
  exact .around (by decide) hrouter (by decide)

/-- In front of the routes nothing is said of the gate. -/
theorem quiet_preamble (h : ∀ t ∈ applicationTexts c, ¬ gate <:+: t) :
    Quiet gate (preamble f.wording c) := by
  have himports : Quiet gate (c.controllers.flatMap fun k => importLine k.name k.modulePath) := by
    refine .flatMap gate_ne_nil fun k hk => quiet_importLine (h k.name ?_) (h k.modulePath ?_)
    · simp only [applicationTexts, List.mem_append, List.mem_flatMap]
      exact .inl (.inl (.inl ⟨k, hk, by simp⟩))
    · simp only [applicationTexts, List.mem_append, List.mem_flatMap]
      exact .inl (.inl (.inl ⟨k, hk, by simp⟩))
  have hsettings := (quiet_head f).append himports |>.append (quiet_settings f h)
  exact (hsettings.append (quiet_models f h)).append (quiet_registration f)

end Whole

end RouteModule.Layout
