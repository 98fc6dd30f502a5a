import RouteModule.Proofs.Layout.Module
import RouteModule.Template.Bundled
import RouteModule.Template.Node

/-!
The templates of the frameworks as trees. All of them are read as one and the same tree, but for the
wording of the framework.
-/

namespace RouteModule.Layout

open Template

/-- A variable. -/
def named (name : String) : Expr := .variable name.toList

/-- A member of a variable. -/
def member (root key : String) : Expr := .variable (root.toList ++ '.' :: key.toList)

/-- The JSON text of a value. -/
def asJson (e : Expr) : Expr := .filter e "json".toList []

/-- Some route asks for authentication, and there is a module for it. -/
def authenticates : Expr := .and (named "useSecurity") (named "authenticationModule")

/-- The import of a controller. -/
def importNodes : List Template.Node := [
  .text "import \x7b ".toList,
  .print (member "controller" "name"),
  .text " \x7d from '".toList,
  .print (member "controller" "modulePath"),
  .text (paragraph ["';", ""])]

/-- The import of the function that authenticates requests. -/
def authenticationImportNodes (w : Wording) : List Template.Node := [
  .text ("import \x7b ".toList ++ w.authentication ++ " \x7d from '".toList),
  .print (named "authenticationModule"),
  .text (paragraph ["';", ""])]

/-- The imports for the container of the controllers. -/
def containerImportNodes : List Template.Node := [
  .text "import \x7b iocContainer \x7d from '".toList,
  .print (named "iocModule"),
  .text (paragraph [
    "';", "import type \x7b IocContainer, IocContainerFactory \x7d from '@tsoa/runtime';", ""])]

/-- The imports of the framework's own types, up to the first named type. -/
def typesNodes (w : Wording) : List Template.Node :=
  let start := paragraph ["", "const models: TsoaRoute.Models = \x7b"]
  match w.recast with
  | some t => [.text w.types, .cond authenticates [.text t] [], .text start]
  | none => [.text (w.types ++ start)]

/-- A named type is of a kind. -/
def isKind (kind : ReferenceType.Kind) : Expr :=
  .compare .equal (member "model" "dataType") (.text kind.name.toList)

/-- What is said about a model with properties. -/
def objectNodes : List Template.Node := [
  .text (paragraph ["", "        \"properties\": "]),
  .print (asJson (member "model" "properties")),
  .text (paragraph [",", "        \"additionalProperties\": "]),
  .print (.call "additional_props".toList
    [("schema".toList, member "model" "additionalProperties")]),
  .text ",".toList]

/-- What is said about an enumeration. -/
def enumerationNodes : List Template.Node := [
  .text (paragraph ["", "        \"enums\": "]),
  .print (asJson (member "model" "enums")),
  .text ",".toList]

/-- What is said about another name of a type. -/
def aliasNodes : List Template.Node := [
  .text (paragraph ["", "        \"type\": "]),
  .print (asJson (member "model" "type")),
  .text (paragraph [",", "        \"validators\": \x7b\x7d,"])]

/-- The entry of a named type. -/
def modelNodes : List Template.Node := [
  .text (paragraph ["", "    \""]),
  .print (named "name"),
  .text (paragraph ["\": \x7b", "        \"dataType\": \""]),
  .print (member "model" "dataType"),
  .text "\",".toList,
  .cond (isKind .object) objectNodes [.cond (isKind .enumeration) enumerationNodes aliasNodes],
  .text (paragraph ["", "    \x7d,"])]

/-- The security of a route is not empty. -/
def isSecured : Expr :=
  .compare .greater (.filter (member "action" "security") "length".toList []) (.number (.integer 0))

/-- The authentication that a route asks for. -/
def authenticationNodes (w : Wording) : List Template.Node := [
  .text w.beforeSecurity,
  .print (asJson (member "action" "security")),
  .text w.behindSecurity]

/-- A controller that comes from a container. -/
def containedNodes (w : Wording) : List Template.Node := [
  .text w.beforeContainer,
  .print (member "controller" "name"),
  .text ">(".toList,
  .print (member "controller" "name"),
  .text ");".toList]

/-- A controller that is made for the occasion. -/
def constructedNodes (w : Wording) : List Template.Node := [
  .text w.beforeConstructor,
  .print (member "controller" "name"),
  .text "();".toList]

/-- The registration of a route. -/
def blockNodes (w : Wording) : List Template.Node := [
  .text (paragraph ["", "", "    const args"]),
  .print (member "controller" "name"),
  .text "_".toList,
  .print (member "action" "name"),
  .text ": Record<string, TsoaRoute.ParameterSchema> = ".toList,
  .print (asJson (member "action" "parameters")),
  .text (";".toList ++ w.beforeVerb),
  .print (member "action" "method"),
  .text w.beforePath,
  .print (member "action" "fullPath"),
  .text w.behindPath,
  .cond isSecured (authenticationNodes w) [],
  .text w.beforeMiddlewares,
  .print (member "controller" "name"),
  .text (")),".toList ++ w.beforeMiddlewares),
  .print (member "controller" "name"),
  .text ".prototype.".toList,
  .print (member "action" "name"),
  .text (")),".toList ++ w.beforeHandler),
  .print (member "controller" "name"),
  .text "_".toList,
  .print (member "action" "name"),
  .text w.signature,
  .print (member "controller" "name"),
  .text "_".toList,
  .print (member "action" "name"),
  .text w.behindArguments,
  .cond (named "iocModule") (containedNodes w) (constructedNodes w),
  .text w.beforeName,
  .print (member "action" "name"),
  .text w.beforeStatus,
  .print (member "action" "successStatus"),
  .text w.behindStatus]

/-- The function that tries the ways to satisfy the security of a method. -/
def attemptNodes (w : Wording) : List Template.Node := [
  .text w.beforeAttempt,
  .cond (named "authenticationModule")
    [.text w.attempt]
    [.text missingModule],
  .text w.behindAttempt]

/-- The tree of a template. -/
def tree (w : Wording) : List Template.Node :=
  [.text (paragraph [
      "/* tslint:disable */",
      "/* eslint-disable */",
      "// WARNING: This file was auto-generated. Do not modify it directly.",
      "import type \x7b TsoaRoute \x7d from '@tsoa/runtime';",
      "import \x7b fetchMiddlewares, "] ++ w.service ++
      paragraph ["TemplateService \x7d from '@tsoa/runtime';", ""]),
    .loop none "controller".toList (named "controllers") importNodes [],
    .cond authenticates (authenticationImportNodes w) [],
    .cond (named "iocModule") containerImportNodes []] ++
  typesNodes w ++
  [.loop (some "name".toList) "model".toList (named "models") modelNodes [],
    .text (paragraph ["", "\x7d;", "const templateService = new "] ++ w.service ++
      "TemplateService(models, ".toList),
    .print (asJson (named "minimalSwaggerConfig")),
    .text (w.serviceArguments ++ ");".toList ++
      paragraph ["", "", "export function RegisterRoutes("] ++ w.router ++ ") \x7b".toList),
    .loop none "controller".toList (named "controllers")
      [.loop none "action".toList (member "controller" "actions") (blockNodes w) []] [],
    .cond (named "useSecurity") (attemptNodes w) [],
    .text (paragraph ["", "\x7d", ""])]

section Reading

@[simp] theorem ofLines_nil : ofLines [] = [] := rfl

@[simp] theorem ofLines_cons (l : String) (rest : List String) :
    ofLines (l :: rest) = l.toList ++ '\n' :: ofLines rest := by
  simp [ofLines]

/-- The characters of a literal; the equation holds by what a literal is. -/
theorem toList_literal {l : String} {cs : List Char} (h : l = String.ofList cs) : l.toList = cs := by
  rw [h, String.toList_ofList]

set_option maxRecDepth 100000 in
/-- The template of a framework is read as the tree in the wording of the framework. -/
theorem ofText?_template (f : Framework) :
    Template.Node.ofText? f.template = some (tree f.wording) := by
  unfold Framework.template Framework.wording
  cases f
  all_goals
    dsimp only
    first
      | unfold expressLines Wording.express
      | unfold koaLines Wording.koa
      | unfold hapiLines Wording.hapi
    unfold tree typesNodes importNodes authenticationImportNodes containerImportNodes modelNodes
      objectNodes enumerationNodes aliasNodes blockNodes authenticationNodes containedNodes
      constructedNodes attemptNodes missingModule authenticates isSecured isKind
      ReferenceType.Kind.name asJson member named
    -- The literals are taken apart here, since the evaluation below is slow at it.
    simp (disch := exact rfl) only [ofLines_cons, ofLines_nil, paragraph_cons, paragraph_singleton,
      String.toList_append, toList_literal, -String.reduceToList, -String.reduceAppend]
    decide +kernel

end Reading

end RouteModule.Layout
