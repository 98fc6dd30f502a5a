import RouteModule.Document
import RouteModule.Generation
import RouteModule.Options

/-!
The command line. The flags are the fields of a record that is read like any other, each at most once
and in any order; what is refused on the way is refused at the first place where it shows. A run is a
program that always ends in a report: the options come first, then the metadata, then generation, and
the first of them that fails is reported under a heading.
-/

namespace RouteModule.CommandLine

inductive Flag where
  | metadata
  | config
  | middleware
  | middlewareTemplate
  | routesDir
  | routesFileName
  | esm
  | noImplicitAdditionalProperties
  | basePath
  deriving DecidableEq

instance flags : Fields Flag where
  Value
    | .esm => Unit
    | .noImplicitAdditionalProperties => Policy
    | _ => Text
  all := [.metadata, .config, .middleware, .middlewareTemplate, .routesDir, .routesFileName, .esm,
    .noImplicitAdditionalProperties, .basePath]
  name
    | .metadata => "metadata"
    | .config => "config"
    | .middleware => "middleware"
    | .middlewareTemplate => "middleware-template"
    | .routesDir => "routes-dir"
    | .routesFileName => "routes-file-name"
    | .esm => "esm"
    | .noImplicitAdditionalProperties => "no-implicit-additional-properties"
    | .basePath => "base-path"

/-- What the command that generates is told. -/
structure Arguments where
  metadata : Text
  config : Option Text
  middleware : Option Text
  middlewareTemplate : Option Text
  routesDir : Option Text
  routesFileName : Option Text
  esm : Bool
  noImplicitAdditionalProperties : Option Policy
  basePath : Option Text
  deriving DecidableEq, Repr

namespace Arguments

/-- The options with what the arguments say in place of what they said. -/
def apply (a : Arguments) (o : Options) : Options :=
  { o with
    routesDir := a.routesDir.getD o.routesDir
    middleware := a.middleware.getD o.middleware
    middlewareTemplate := a.middlewareTemplate <|> o.middlewareTemplate
    routesFileName := a.routesFileName <|> o.routesFileName
    esm := a.esm || o.esm
    noImplicitAdditionalProperties :=
      a.noImplicitAdditionalProperties.getD o.noImplicitAdditionalProperties
    basePath := a.basePath.getD o.basePath }

/-- The arguments that flags make; the metadata has to be named. -/
def ofDraft? (draft : Draft Flag) : Option Arguments := do
  let metadata ← draft .metadata
  return {
    metadata := metadata
    config := draft .config
    middleware := draft .middleware
    middlewareTemplate := draft .middlewareTemplate
    routesDir := draft .routesDir
    routesFileName := draft .routesFileName
    esm := (draft .esm).isSome
    noImplicitAdditionalProperties := draft .noImplicitAdditionalProperties
    basePath := draft .basePath }

def version : Text := "routegen 0.1.0\n".toList

def linesOf (lines : List String) : Text := lines.flatMap fun l => l.toList ++ ['\n']

def help : Text := linesOf [
  "CLI for generating framework route modules from controller metadata",
  "",
  "Usage: routegen <COMMAND>",
  "",
  "Commands:",
  "  routes  Generate the routes module from controller metadata",
  "  help    Print this message or the help of the given subcommand(s)",
  "",
  "Options:",
  "  -h, --help     Print help",
  "  -V, --version  Print version"]

def routesHelp : Text := linesOf [
  "Generate the routes module from controller metadata",
  "",
  "Usage: routegen routes [OPTIONS] --metadata <METADATA>",
  "",
  "Options:",
  "      --metadata <METADATA>",
  "          Path to the controller metadata (JSON or YAML)",
  "      --config <CONFIG>",
  "          Options file (YAML, JSON or TOML); flags below override it",
  "      --middleware <MIDDLEWARE>",
  "          Target middleware (express, koa, hapi)",
  "      --middleware-template <MIDDLEWARE_TEMPLATE>",
  "          Custom template file used instead of the bundled one",
  "      --routes-dir <ROUTES_DIR>",
  "          Directory to write the routes file into (must exist)",
  "      --routes-file-name <ROUTES_FILE_NAME>",
  "          Routes file name (default: routes.ts)",
  "      --esm",
  "          Generate ES module output",
  "      --no-implicit-additional-properties <NO_IMPLICIT_ADDITIONAL_PROPERTIES>",
  "          Policy for models without an explicit additionalProperties schema",
  "      --base-path <BASE_PATH>",
  "          Prefix for every route",
  "  -h, --help",
  "          Print help"]

end Arguments

/-- What the program is asked for. -/
inductive Request where
  | help
  | routesHelp
  | version
  | routes (a : Arguments)
  deriving DecidableEq, Repr

/-- The value of a flag; paths are not empty. -/
def Flag.value? : (f : Flag) → Text → Option (Fields.Value f)
  | .metadata, t => if t = [] then none else some t
  | .config, t => if t = [] then none else some t
  | .routesDir, t => if t = [] then none else some t
  | .middleware, t => some t
  | .middlewareTemplate, t => some t
  | .routesFileName, t => some t
  | .basePath, t => some t
  | .noImplicitAdditionalProperties, t => (Policy.ofText t).toOption
  | .esm, _ => none

def dashes : Text := ['-', '-']

/-- Whether an argument is not a value: it starts with a dash and goes on. -/
def isMarked : Text → Bool
  | '-' :: _ :: _ => true
  | _ => false

/-- The flag that an argument names, with the value that is attached to it. -/
def flagOf? (arg : Text) : Option (Flag × Option Text) := do
  let body ← Text.after? dashes arg
  let (name, rest) := body.span (· ≠ '=')
  let flag ← (Fields.named? name : Option Flag)
  return (flag, match rest with
    | [] => none
    | _ :: value => some value)

def asksHelp (arg : Text) : Bool := arg = "--help".toList ∨ Text.startsWith ['-', 'h'] arg

def asksVersion (arg : Text) : Bool := arg = "--version".toList ∨ Text.startsWith ['-', 'V'] arg

def readFlags (draft : Draft Flag) : List Text → Option Request
  | [] => (Arguments.ofDraft? draft).map .routes
  | arg :: rest =>
    if arg = dashes then
      if rest.isEmpty then (Arguments.ofDraft? draft).map .routes else none
    else if asksHelp arg then some .routesHelp
    else
      match flagOf? arg with
      | none => none
      | some (flag, attached) =>
        if (draft flag).isSome then none
        else
          match flag, attached, rest with
          | .esm, none, rest => readFlags (draft.put .esm ()) rest
          | .esm, some _, _ => none
          | flag, some value, rest =>
            match flag.value? value with
            | some v => readFlags (draft.put flag v) rest
            | none => none
          | flag, none, value :: rest =>
            if isMarked value then none
            else
              match flag.value? value with
              | some v => readFlags (draft.put flag v) rest
              | none => none
          | _, none, [] => none

def isTopic (arg : Text) : Bool := arg = "routes".toList ∨ arg = "help".toList

/-- Reads the arguments of the program; `none` if they are refused. -/
def Request.ofArgs? : List Text → Option Request
  | [] => none
  | arg :: rest =>
    if arg = "routes".toList then readFlags Draft.empty rest
    else if asksVersion arg then some .version
    else if asksHelp arg then some .help
    else if arg = "help".toList then
      match rest with
      | [] => some .help
      | [topic] =>
        if topic = "routes".toList then some .routesHelp
        else if isTopic topic then some .help
        else none
      | _ => none
    else none

/-- What a run comes to. -/
structure Report where
  /-- The exit code. -/
  exit : Nat
  /-- The text for the standard output. -/
  output : Text
  /-- What failed. -/
  failure? : Option Text
  /-- The problem behind the failure. -/
  problem? : Option Problem
  deriving DecidableEq, Repr

namespace Report

def success (output : Text) : Report := ⟨0, output, none, none⟩

def usage : Report := ⟨2, [], none, none⟩

def error? (r : Report) : Option Text := r.failure?.map Text.firstLine

/-- Why a run failed, up to the end of a line, unless a document was refused. It is not told where
what failed takes several lines. -/
def cause? (r : Report) : Option Text :=
  match r.problem? with
  | some p =>
    if p.isRefusal || r.failure?.any (·.contains '\n') then none
    else p.message?.map Text.firstLine
  | none => none

end Report

/-- A failure under its heading. -/
structure Failure where
  heading : Text
  problem? : Option Problem
  deriving DecidableEq, Repr

def Failure.report (f : Failure) : Report :=
  ⟨1, [], some ("Error: ".toList ++ f.heading), f.problem?⟩

def under (heading : Text) (p : Program α) : ExceptT Failure Program α := do
  match ← p.attempt with
  | .ok a => return a
  | .error problem => throw ⟨heading, some problem⟩

def baseOptions (a : Arguments) : ExceptT Failure Program Options :=
  match a.config, a.routesDir with
  | some path, _ => under ("Failed to load options from ".toList ++ path) (Options.load path)
  | none, some dir => return .ofRoutesDir dir
  | none, none => throw ⟨"either --config or --routes-dir is required".toList, none⟩

/-- Generates what the arguments ask for: the path of the file, and whether it was written. -/
def generate (cwd : Text) (a : Arguments) : ExceptT Failure Program (Text × Bool) := do
  let o := a.apply (← baseOptions a)
  let m ← under ("Failed to load metadata from ".toList ++ a.metadata) (Metadata.load a.metadata)
  under "Failed to generate routes".toList ((⟨m, o⟩ : Generator).generateFile cwd)

def sentence (path : Text) (written : Bool) : Text :=
  (if written then "Generated routes: " else "Routes unchanged: ").toList ++ path ++ ['\n']

def perform (cwd : Text) : Request → Program Report
  | .help => return .success Arguments.help
  | .routesHelp => return .success Arguments.routesHelp
  | .version => return .success Arguments.version
  | .routes a => do
    match ← (generate cwd a).run with
    | .ok (path, written) => return .success (sentence path written)
    | .error f => return f.report

def run (cwd : Text) (args : List Text) : Program Report :=
  match Request.ofArgs? args with
  | some request => perform cwd request
  | none => return .usage

end RouteModule.CommandLine
