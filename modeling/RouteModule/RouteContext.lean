import RouteModule.FilePath
import RouteModule.Metadata
import RouteModule.Options

/-!
What a template knows: the controllers with the paths of their methods written in the style of the
framework, the named types, and the settings that change the generated code.
-/

namespace RouteModule

/-- A parameter as the generated validation sees it: where it is found, its name in the request,
and its type. -/
structure ActionParameter where
  origin : Origin
  name : Text
  required : Bool
  schema : TypeSchema
  deriving Repr, BEq

structure Action where
  /-- The paths of the module, of the controller and of the method in one. -/
  fullPath : Text
  verb : Verb
  name : Text
  /-- The parameters by the names they have in the handler. -/
  parameters : Table ActionParameter
  path : Text
  security : List Requirement
  /-- The status of a success as source code. -/
  successStatus : Text
  deriving Repr, BEq

structure ControllerRoutes where
  actions : List Action
  /-- How the generated module imports the controller. -/
  modulePath : Text
  name : Text
  path : Text
  deriving Repr, BEq

/-- All that a template knows. -/
structure RouteContext where
  authenticationModule : Option Text
  basePath : Text
  controllers : List ControllerRoutes
  esm : Bool
  iocModule : Option Text
  noImplicitAdditionalProperties : Policy
  models : Table ReferenceType
  /-- Some action asks for authentication. -/
  useSecurity : Bool
  deriving Repr, BEq

namespace ActionParameter

def ofParameter (p : Parameter) : ActionParameter := ⟨p.origin, p.name, p.required, p.type⟩

def toJson (p : ActionParameter) : Json :=
  .ofMembers ([
    ("in".toList, .literal p.origin.name),
    ("name".toList, .text p.name),
    ("required".toList, .bool p.required)] ++ p.schema.members)

end ActionParameter

namespace Action

/-- The route of a method below the paths of its module and its controller. -/
def ofMethod (style : PathStyle) (basePath controllerPath : Text) (m : Method) : Action :=
  let path := style.transform (RoutePath.segment m.path)
  { fullPath := RoutePath.rooted (basePath ++ controllerPath ++ path)
    verb := m.verb
    name := m.name
    parameters := .ofList (m.parameters.map fun p => (p.parameterName, .ofParameter p))
    path := path
    security := m.security
    successStatus := match m.successStatus with
      | some status => Text.ofNat status
      | none => "undefined".toList }

def toJson (a : Action) : Json :=
  .record [
    ("fullPath", .text a.fullPath),
    ("method", .literal a.verb.name),
    ("name", .text a.name),
    ("parameters", .object (a.parameters.map fun e => (e.1, e.2.toJson))),
    ("path", .text a.path),
    ("security", .array (a.security.map Requirement.toJson)),
    ("successStatus", .text a.successStatus)]

end Action

namespace ControllerRoutes

/-- The routes of a controller, imported by a file of the options' directory. -/
def ofController (style : PathStyle) (cwd basePath : Text) (o : Options) (c : Controller) :
    ControllerRoutes :=
  let path := style.transform (RoutePath.segment c.path)
  { actions := c.methods.map (Action.ofMethod style basePath path)
    modulePath := ImportPath.specifier cwd o.routesDir c.location o.esm
    name := c.name
    path := path }

def toJson (c : ControllerRoutes) : Json :=
  .record [
    ("actions", .array (c.actions.map Action.toJson)),
    ("modulePath", .text c.modulePath),
    ("name", .text c.name),
    ("path", .text c.path)]

end ControllerRoutes

namespace RouteContext

def ofMetadata (style : PathStyle) (cwd : Text) (m : Metadata) (o : Options) : RouteContext :=
  let basePath := RoutePath.rooted o.basePath
  let controllers := m.controllers.map (ControllerRoutes.ofController style cwd basePath o)
  { authenticationModule := o.authenticationModule
    basePath := basePath
    controllers := controllers
    esm := o.esm
    iocModule := o.iocModule
    noImplicitAdditionalProperties := o.noImplicitAdditionalProperties
    models := m.referenceTypes
    useSecurity := controllers.any fun c => c.actions.any fun a => !a.security.isEmpty }

/-- The part of the settings that the generated module takes along. -/
def minimalSwaggerConfig (c : RouteContext) : Json :=
  .record [("noImplicitAdditionalProperties", .literal c.noImplicitAdditionalProperties.name)]

def members (c : RouteContext) : List (String × Json) := [
  ("authenticationModule", Options.optionalToJson c.authenticationModule),
  ("basePath", .text c.basePath),
  ("controllers", .array (c.controllers.map ControllerRoutes.toJson)),
  ("esm", .bool c.esm),
  ("iocModule", Options.optionalToJson c.iocModule),
  ("minimalSwaggerConfig", c.minimalSwaggerConfig),
  ("models", ReferenceType.tableToJson c.models),
  ("useSecurity", .bool c.useSecurity)]

def toJson (c : RouteContext) : Json := .record c.members

end RouteContext

end RouteModule
