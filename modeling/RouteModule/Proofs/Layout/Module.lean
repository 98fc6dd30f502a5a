import RouteModule.Proofs.Layout.Wording
import RouteModule.RouteContext
import RouteModule.Template.Meaning

/-!
The text of a module, said in terms of the application alone: the imports, the named types, and the
routes, one block for each. What a block says depends on the route, on the name of its controller,
and on whether controllers come from a container.
-/

namespace RouteModule

/-- The descriptions of a route's arguments under their names. -/
def Action.argumentMembers (a : Action) : List (Text × Json) :=
  a.parameters.map fun e => (e.1, e.2.toJson)

/-- The parameters of a route as a JSON value. -/
def Action.parametersJson (a : Action) : Json := .object a.argumentMembers

/-- The security of a route as a JSON value. -/
def Action.securityJson (a : Action) : Json := .array (a.security.map Requirement.toJson)

namespace Layout

/-- An optional text says something: it is there, and it is not empty. -/
def given (t : Option Text) : Bool := t.any fun t => !t.isEmpty

section Imports

/-- The lines in front of the imports of an application. -/
def head (w : Wording) : Text :=
  paragraph [
    "/* tslint:disable */",
    "/* eslint-disable */",
    "// WARNING: This file was auto-generated. Do not modify it directly.",
    "import type \x7b TsoaRoute \x7d from '@tsoa/runtime';",
    "import \x7b fetchMiddlewares, "] ++ w.service ++
    paragraph ["TemplateService \x7d from '@tsoa/runtime';", ""]

/-- The line that imports a controller. -/
def importLine (name modulePath : Text) : Text :=
  "import \x7b ".toList ++ name ++ " \x7d from '".toList ++ modulePath ++ paragraph ["';", ""]

/-- The line that imports the function that authenticates requests. -/
def authenticationImport (w : Wording) (modulePath : Text) : Text :=
  "import \x7b ".toList ++ w.authentication ++ " \x7d from '".toList ++ modulePath ++
    paragraph ["';", ""]

/-- The lines that import the container of the controllers. -/
def containerImport (modulePath : Text) : Text :=
  "import \x7b iocContainer \x7d from '".toList ++ modulePath ++
    paragraph [
      "';", "import type \x7b IocContainer, IocContainerFactory \x7d from '@tsoa/runtime';", ""]

/-- The lines behind the imports of the controllers and in front of the named types. -/
def settings (w : Wording) (c : RouteContext) : Text :=
  (if c.useSecurity && given c.authenticationModule then
    authenticationImport w (c.authenticationModule.getD []) else []) ++
  (if given c.iocModule then containerImport (c.iocModule.getD []) else []) ++
  w.types ++
  (if c.useSecurity && given c.authenticationModule then w.recast.getD [] else [])

end Imports

section Models

/-- What the module says about a named type, by its kind. -/
def modelBody (policy : Policy) : ReferenceType → Text
  | .object properties additional =>
    paragraph ["", "        \"properties\": "] ++
      (Json.object (properties.map fun e => (e.1, e.2.toJson))).render ++
      paragraph [",", "        \"additionalProperties\": "] ++
      Template.additionalProps policy (.orNull additional) ++ ",".toList
  | .enumeration values =>
    paragraph ["", "        \"enums\": "] ++ (Json.array values).render ++ ",".toList
  | .alias type =>
    paragraph ["", "        \"type\": "] ++ type.toJson.render ++
      paragraph [",", "        \"validators\": \x7b\x7d,"]

/-- The entry of a named type. -/
def modelEntry (policy : Policy) (name : Text) (r : ReferenceType) : Text :=
  paragraph ["", "    \""] ++ name ++ paragraph ["\": \x7b", "        \"dataType\": \""] ++
    r.kind.name.toList ++ "\",".toList ++ modelBody policy r ++ paragraph ["", "    \x7d,"]

/-- The named types, and the object that serves the routes. -/
def models (w : Wording) (c : RouteContext) : Text :=
  paragraph ["", "const models: TsoaRoute.Models = \x7b"] ++
    (c.models.flatMap fun e => modelEntry c.noImplicitAdditionalProperties e.1 e.2) ++
    paragraph ["", "\x7d;", "const templateService = new "] ++ w.service ++
    "TemplateService(models, ".toList ++
    c.minimalSwaggerConfig.render ++ w.serviceArguments ++ ");".toList

end Models

section Routes

variable (w : Wording) (controller : Text) (contained : Bool) (a : Action)

/-- The constant that describes the arguments of a handler, up to their description. -/
def argumentsName (name : Text) : Text :=
  paragraph ["", "", "    const args"] ++ controller ++ "_".toList ++ name ++
    ": Record<string, TsoaRoute.ParameterSchema> = ".toList

/-- The constant that describes the arguments of a handler. -/
def argumentsConstant : Text :=
  argumentsName controller a.name ++ a.parametersJson.render ++ ";".toList

/-- The start of a registration, with the verb and the path. -/
def opening : Text :=
  w.beforeVerb ++ a.verb.name.toList ++ w.beforePath ++ a.fullPath ++ w.behindPath

/-- The authentication that a route asks for, if it asks for any. -/
def authentication : Text :=
  if a.security.isEmpty then [] else w.beforeSecurity ++ a.securityJson.render ++ w.behindSecurity

/-- The middlewares of the controller and of the method. -/
def middlewares : Text :=
  w.beforeMiddlewares ++ controller ++ ")),".toList ++
    w.beforeMiddlewares ++ controller ++ ".prototype.".toList ++ a.name ++ ")),".toList

/-- How a handler comes by its controller. -/
def controllerInstance : Text :=
  if contained then
    w.beforeContainer ++ controller ++ ">(".toList ++ controller ++ ");".toList
  else w.beforeConstructor ++ controller ++ "();".toList

/-- The handler of a route. -/
def handler : Text :=
  w.beforeHandler ++ controller ++ "_".toList ++ a.name ++ w.signature ++ controller ++
    "_".toList ++ a.name ++ w.behindArguments ++ controllerInstance w controller contained ++
    w.beforeName ++ a.name ++ w.beforeStatus ++ a.successStatus ++ w.behindStatus

/-- The registration of a route. -/
def block : Text :=
  argumentsConstant controller a ++ opening w a ++ authentication w a ++
    middlewares w controller a ++ handler w controller contained a

end Routes

/-- The head of the function that registers the routes. -/
def registration (w : Wording) : Text :=
  paragraph ["", "", "export function RegisterRoutes("] ++ w.router ++ ") \x7b".toList

/-- What stands for a try where there is no function that authenticates requests. -/
def missingModule : Text :=
  "Promise.reject(new Error(`No authentication module configured for $\x7bname\x7d`))".toList

/-- The function that tries the ways to satisfy the security of a method, if any route asks for
authentication. -/
def attempts (w : Wording) (c : RouteContext) : Text :=
  if c.useSecurity then
    w.beforeAttempt ++ (if given c.authenticationModule then w.attempt else missingModule) ++
      w.behindAttempt
  else []

/-- What stands behind the routes. -/
def ending (w : Wording) (c : RouteContext) : Text := attempts w c ++ paragraph ["", "\x7d", ""]

/-- What stands in front of the routes: the imports, the named types, and the head of the function
that registers the routes. -/
def preamble (w : Wording) (c : RouteContext) : Text :=
  head w ++ (c.controllers.flatMap fun k => importLine k.name k.modulePath) ++ settings w c ++
    models w c ++ registration w

/-- The text of a module. -/
def text (w : Wording) (c : RouteContext) : Text :=
  preamble w c ++
    (c.controllers.flatMap fun k => k.actions.flatMap fun a =>
      block w k.name (given c.iocModule) a) ++
    ending w c

end Layout

end RouteModule
