import RouteModule.Options
import RouteModule.Program
import RouteModule.RouteContext
import RouteModule.Template.Bundled
import RouteModule.Template.Output

/-!
Generation as programs. A generator holds what is known about an application and the options of a
run; its content is the text that the template of the options gives. Documents are loaded from files
and saved to them, and the content is written to the file of the routes.

A run first settles where that file lies, by the options and the directory alone, then gets the
template, then makes the content, and only then looks at the file.
-/

namespace RouteModule

/-- Where a template comes from. -/
inductive TemplateSource where
  /-- The framework's own template. -/
  | bundled (framework : Framework)
  /-- A file. -/
  | custom (path : Text)
  deriving DecidableEq, Repr

namespace TemplateSource

def describe : TemplateSource → Text
  | bundled f => f.templateName.toList
  | custom path => path

def body? : TemplateSource → Option Text
  | bundled f => some f.template
  | custom _ => none

end TemplateSource

/-- For which framework and with which template routes are generated. -/
structure Strategy where
  framework : Framework
  source : TemplateSource
  deriving DecidableEq, Repr

namespace Strategy

def ofFramework (f : Framework) : Strategy := ⟨f, .bundled f⟩

/-- The strategy that options ask for; an unknown framework stands for the default one. -/
def ofOptions (o : Options) : Strategy :=
  let f := Framework.resolve o.middleware
  match o.middlewareTemplate with
  | some path => ⟨f, .custom path⟩
  | none => ofFramework f

def pathStyle (s : Strategy) : PathStyle := s.framework.pathStyle

end Strategy

/-- What the routes of an application are generated from. -/
structure Generator where
  metadata : Metadata
  options : Options
  deriving Repr, BEq

namespace Generator

def strategy (g : Generator) : Strategy := Strategy.ofOptions g.options

def transformPath (g : Generator) (path : Text) : Text := g.strategy.pathStyle.transform path

def context (g : Generator) (cwd : Text) : RouteContext :=
  RouteContext.ofMetadata g.strategy.pathStyle cwd g.metadata g.options

def content (g : Generator) (cwd template : Text) : Except Template.Fault Text :=
  Template.render g.options.noImplicitAdditionalProperties template (g.context cwd).toJson

end Generator

namespace RoutesFile

def allowedExtensions (esm : Bool) : List String := if esm then ["ts", "mts", "cts"] else ["ts"]

def isAllowed (esm : Bool) (fileName : Text) : Bool :=
  (allowedExtensions esm).any fun e => e.toList = (FilePath.extension? fileName).getD []

def checkDirectory (dir : Text) : Program Unit := .kind dir fun
  | .ok .directory => .done ()
  | .ok .file => .fail (.options (.notDirectory dir))
  | .error .notFound => .fail (.options (.noDirectory dir))
  | .error f => .fail (.file f)

/-- Makes sure that the file name of the options is allowed; the default one always is. -/
def checkName (o : Options) : Except Problem Unit :=
  match o.routesFileName with
  | some name =>
    if isAllowed o.esm name then .ok ()
    else .error (.options (.badExtension (allowedExtensions o.esm) name))
  | none => .ok ()

def path (o : Options) : Program Text := do
  checkDirectory o.routesDir
  .ofExcept (checkName o)
  return FilePath.append o.routesDir o.fileName

def existing? (path : Text) : Program (Option Bytes) := .read path fun
  | .ok content => .done (some content)
  | .error .notFound => .done none
  | .error f => .fail (.file f)

/-- Writes a text unless it is known to be there already, and says whether it was written; `skip`
asks to look first. -/
def write (path content : Text) (skip : Bool) : Program Bool := do
  if skip then
    if (← existing? path) = some (Text.toBytes content) then return false
  Program.writeText path content
  return true

end RoutesFile

namespace Metadata

def load (path : Text) : Program Metadata := do
  let t ← Program.readText path
  .ofExcept ((ofText t).mapError .metadata)

end Metadata

namespace Options

def load (path : Text) : Program Options := do
  let format := FileFormat.ofPath path
  let t ← Program.readText path
  .ofExcept ((format.read t).mapError (.document format))

def save (o : Options) (path : Text) : Program Unit :=
  Program.writeText path ((FileFormat.ofPath path).render o)

end Options

def TemplateSource.load : TemplateSource → Program Text
  | bundled f => pure f.template
  | custom path => Program.readText path

namespace Generator

/-- The text that a template gives, as a program that touches no file. -/
def build (g : Generator) (cwd template : Text) : Program Text :=
  .ofExcept ((g.content cwd template).mapError .template)

def renderTo (g : Generator) (cwd path template : Text) : Program Bool := do
  let content ← g.build cwd template
  RoutesFile.write path content g.options.noWriteIfUnchanged

/-- Writes the module with the template of the options; gives its path, and whether it was
written. -/
def generateFile (g : Generator) (cwd : Text) : Program (Text × Bool) := do
  let path ← RoutesFile.path g.options
  let template ← g.strategy.source.load
  let written ← g.renderTo cwd path template
  return (path, written)

def generate (g : Generator) (cwd : Text) : Program Bool := do
  return (← g.generateFile cwd).2

def generateWithTemplate (g : Generator) (cwd template : Text) : Program Bool := do
  let path ← RoutesFile.path g.options
  g.renderTo cwd path template

def generateFrom (metadataPath : Text) (o : Options) (cwd : Text) : Program Bool := do
  let m ← Metadata.load metadataPath
  (⟨m, o⟩ : Generator).generate cwd

end Generator

end RouteModule
