import RouteModule.Document.Dialect
import RouteModule.FilePath
import RouteModule.Options
import RouteModule.Toml.Quoted
import RouteModule.Toml.Reader
import RouteModule.Yaml.Printer
import RouteModule.Yaml.Tree

/-!
Options as the content of a file. The extension `toml` stands for TOML, and every other name for
YAML, which covers JSON. Each option has a line of its own, or several if its text has several; YAML
says `null` for an option that is absent, and TOML leaves it out. In reading only the directory has
to be given.
-/

namespace RouteModule.Options

inductive Setting where
  | text (t : Text)
  | bool (b : Bool)
  | absent
  deriving DecidableEq, Repr

def Setting.ofOption : Option Text → Setting
  | some t => text t
  | none => absent

def settings (o : Options) : List (String × Setting) := [
  ("middleware", .text o.middleware),
  ("middlewareTemplate", .ofOption o.middlewareTemplate),
  ("routesDir", .text o.routesDir),
  ("routesFileName", .ofOption o.routesFileName),
  ("esm", .bool o.esm),
  ("noImplicitAdditionalProperties", .text o.noImplicitAdditionalProperties.name.toList),
  ("noWriteIfUnchanged", .bool o.noWriteIfUnchanged),
  ("basePath", .text o.basePath),
  ("iocModule", .ofOption o.iocModule),
  ("authenticationModule", .ofOption o.authenticationModule)]

def wordOf (b : Bool) : Text := if b then "true".toList else "false".toList

/-- A setting as the value of a YAML entry. -/
def Setting.yaml : Setting → Text
  | text t => Yaml.valueText t
  | bool b => wordOf b ++ ['\n']
  | absent => "null\n".toList

def Setting.toml (name : Text) : Setting → Text
  | text t => name ++ " = ".toList ++ Toml.Quoted.render t ++ ['\n']
  | bool b => name ++ " = ".toList ++ wordOf b ++ ['\n']
  | absent => []

def toYaml (o : Options) : Text := o.settings.flatMap fun s => Yaml.entry s.1.toList s.2.yaml

def toToml (o : Options) : Text := o.settings.flatMap fun s => s.2.toml s.1.toList

inductive Field where
  | middleware
  | middlewareTemplate
  | routesDir
  | routesFileName
  | esm
  | noImplicitAdditionalProperties
  | noWriteIfUnchanged
  | basePath
  | iocModule
  | authenticationModule
  deriving DecidableEq

instance fields : Fields Field where
  Value
    | .middleware => Text
    | .middlewareTemplate => Option Text
    | .routesDir => Text
    | .routesFileName => Option Text
    | .esm => Bool
    | .noImplicitAdditionalProperties => Policy
    | .noWriteIfUnchanged => Bool
    | .basePath => Text
    | .iocModule => Option Text
    | .authenticationModule => Option Text
  all := [.middleware, .middlewareTemplate, .routesDir, .routesFileName, .esm,
    .noImplicitAdditionalProperties, .noWriteIfUnchanged, .basePath, .iocModule,
    .authenticationModule]
  name
    | .middleware => "middleware"
    | .middlewareTemplate => "middlewareTemplate"
    | .routesDir => "routesDir"
    | .routesFileName => "routesFileName"
    | .esm => "esm"
    | .noImplicitAdditionalProperties => "noImplicitAdditionalProperties"
    | .noWriteIfUnchanged => "noWriteIfUnchanged"
    | .basePath => "basePath"
    | .iocModule => "iocModule"
    | .authenticationModule => "authenticationModule"

/-- What is not given is as in the options for the directory alone. -/
def finish (draft : Draft Field) (absent : Field → Fault) : Except Fault Options := do
  let dir ← draft.require absent .routesDir
  let o := ofRoutesDir dir
  return {
    middleware := (draft .middleware).getD o.middleware
    middlewareTemplate := (draft .middlewareTemplate).getD o.middlewareTemplate
    routesDir := dir
    routesFileName := (draft .routesFileName).getD o.routesFileName
    esm := (draft .esm).getD o.esm
    noImplicitAdditionalProperties :=
      (draft .noImplicitAdditionalProperties).getD o.noImplicitAdditionalProperties
    noWriteIfUnchanged := (draft .noWriteIfUnchanged).getD o.noWriteIfUnchanged
    basePath := (draft .basePath).getD o.basePath
    iocModule := (draft .iocModule).getD o.iocModule
    authenticationModule := (draft .authenticationModule).getD o.authenticationModule }

def readers (d : Dialect) (depth : Nat) : Dialect.Readers Field
  | .middleware => d.text "a string"
  | .middlewareTemplate => d.optional (d.text "a string")
  | .routesDir => d.text "path string"
  | .routesFileName => d.optional (d.text "a string")
  | .esm => d.bool
  | .noImplicitAdditionalProperties => d.variant depth Policy.names
  | .noWriteIfUnchanged => d.bool
  | .basePath => d.text "a string"
  | .iocModule => d.optional (d.text "a string")
  | .authenticationModule => d.optional (d.text "a string")

def read (d : Dialect) (depth : Nat) : Node → Reading Options :=
  d.record "struct GenerationOptions" (Dialect.below depth (readers d)) finish

def ofDocument (format : Format) (document : Document) : Except Fault Options :=
  let d := Dialect.ofDocument format document
  document.read (read d d.limit)

inductive FileFormat where
  | yaml
  | toml
  deriving DecidableEq, Repr

namespace FileFormat

def ofPath (path : Text) : FileFormat :=
  if FilePath.extension? path = some "toml".toList then toml else yaml

def read : FileFormat → Text → Except Fault Options
  | yaml, t => ofDocument .yaml (Yaml.document t)
  | toml, t => ofDocument .toml (Toml.document t)

def render : FileFormat → Options → Text
  | yaml, o => o.toYaml
  | toml, o => o.toToml

end FileFormat

end RouteModule.Options
