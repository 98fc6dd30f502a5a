import RouteModule.Json
import RouteModule.RoutePath
import RouteModule.Text

/-!
The options of a run: for which framework and where to routes are generated, and how. A policy says
what the generated validation does with properties that a model does not declare.
-/

namespace RouteModule

inductive Framework where
  | express
  | koa
  | hapi
  deriving DecidableEq, Repr

namespace Framework

def all : List Framework := [express, koa, hapi]

def name : Framework → String
  | express => "express"
  | koa => "koa"
  | hapi => "hapi"

def pathStyle : Framework → PathStyle
  | express => .colon
  | koa => .colon
  | hapi => .brace

/-- Lower case of the characters whose lower case is an ASCII letter: the capital letters of ASCII
and the Kelvin sign. -/
def lowerLetter (c : Char) : Char := if c.toNat = 0x212A then 'k' else c.toLower

/-- The framework of a name in whatever case. -/
def ofName? (t : Text) : Option Framework :=
  all.find? fun f => f.name.toList = t.map lowerLetter

def ofText (t : Text) : Except Text Framework :=
  match ofName? t with
  | some f => .ok f
  | none => .error ("Unknown middleware: ".toList ++ t)

/-- The framework of a name, or else the default one. -/
def resolve (t : Text) : Framework := (ofName? t).getD express

end Framework

inductive Policy where
  | silentlyRemoveExtras
  | throwOnExtras
  | ignore
  deriving DecidableEq, Repr, Inhabited

namespace Policy

def name : Policy → String
  | silentlyRemoveExtras => "silently-remove-extras"
  | throwOnExtras => "throw-on-extras"
  | ignore => "ignore"

def all : List Policy := [silentlyRemoveExtras, throwOnExtras, ignore]

def names : List (String × Policy) := all.map fun p => (p.name, p)

/-- Whether a model that says nothing about further properties accepts them. -/
def allowsExtras : Policy → Bool
  | silentlyRemoveExtras => false
  | throwOnExtras => false
  | ignore => true

def ofText (t : Text) : Except Text Policy :=
  match names.find? fun p => p.1.toList = t with
  | some p => .ok p.2
  | none => .error ("Unknown noImplicitAdditionalProperties value: ".toList ++ t ++
      " (expected silently-remove-extras, throw-on-extras or ignore)".toList)

end Policy

structure Options where
  /-- The name of the framework; an unknown name stands for the default one. -/
  middleware : Text
  /-- A template file to use in place of the framework's own template. -/
  middlewareTemplate : Option Text
  /-- The directory of the routes file. -/
  routesDir : Text
  /-- The name of the routes file, if it is not the default one. -/
  routesFileName : Option Text
  /-- Whether the output is an ECMAScript module. -/
  esm : Bool
  noImplicitAdditionalProperties : Policy
  /-- Whether a file that holds the content already is left alone. -/
  noWriteIfUnchanged : Bool
  /-- The path in front of every route. -/
  basePath : Text
  /-- The module of the container that controllers come from. -/
  iocModule : Option Text
  /-- The module of the function that authenticates requests. -/
  authenticationModule : Option Text
  deriving DecidableEq, Repr

namespace Options

/-- The options for a directory, with the defaults for all else. -/
def ofRoutesDir (dir : Text) : Options where
  middleware := "express".toList
  middlewareTemplate := none
  routesDir := dir
  routesFileName := none
  esm := false
  noImplicitAdditionalProperties := .ignore
  noWriteIfUnchanged := true
  basePath := "/".toList
  iocModule := none
  authenticationModule := none

def fileName (o : Options) : Text := o.routesFileName.getD "routes.ts".toList

def optionalToJson (t : Option Text) : Json := .orNull (t.map .text)

/-- The options as a JSON value, `null` standing for what is absent. -/
def toJson (o : Options) : Json :=
  .record [
    ("middleware", .text o.middleware),
    ("middlewareTemplate", optionalToJson o.middlewareTemplate),
    ("routesDir", .text o.routesDir),
    ("routesFileName", optionalToJson o.routesFileName),
    ("esm", .bool o.esm),
    ("noImplicitAdditionalProperties", .literal o.noImplicitAdditionalProperties.name),
    ("noWriteIfUnchanged", .bool o.noWriteIfUnchanged),
    ("basePath", .text o.basePath),
    ("iocModule", optionalToJson o.iocModule),
    ("authenticationModule", optionalToJson o.authenticationModule)]

end Options

end RouteModule
