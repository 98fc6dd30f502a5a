import RouteModule.Text

/-!
Paths of files as texts whose parts are separated by slashes. Empty parts and the part `.` mean
nothing; the part `..` is kept, since only the file system knows what it leads to. `relativeTo?`
walks from one directory to a path by their parts alone, and out of it `ImportPath.specifier` names
the modules that a generated module imports: by their place as seen from its directory, without the
extension of their source.
-/

namespace RouteModule

namespace FilePath

def up : Text := ['.', '.']

def isVoid (part : Text) : Bool := part = [] ∨ part = ['.']

def parts (path : Text) : List Text := (Text.splitAt '/' path).filter fun p => !isVoid p

def isAbsolute (path : Text) : Bool := path.head? = some '/'

def ofParts (parts : List Text) : Text := Text.join ['/'] parts

/-- The name at the end of a path with all that stands before it, void parts behind it left out;
a path that ends in `..` or in the root has no name at its end. -/
def lastName? (path : Text) : Option (List Text × Text) :=
  match (Text.splitAt '/' path).reverse.dropWhile isVoid with
  | name :: before => if name = up then none else some (before.reverse, name)
  | [] => none

/-- A name taken apart at its last point, unless that is its first character. -/
def splitName? (name : Text) : Option (Text × Text) :=
  match name.reverse.span (· != '.') with
  | (_, []) => none
  | (_, [_]) => none
  | (ext, _ :: stem) => some (stem.reverse, ext.reverse)

def extension? (path : Text) : Option Text := do
  let (_, name) ← lastName? path
  let (_, ext) ← splitName? name
  return ext

/-- Takes the extension off the name at the end of a path. Where the stem is a single point and
nothing follows the name, two points stay. -/
def dropExtension (path : Text) : Text :=
  match lastName? path with
  | none => path
  | some (before, name) =>
    match splitName? name with
    | none => path
    | some (stem, _) =>
      if stem = ['.'] ∧ path = ofParts (before ++ [name]) then ofParts (before ++ [up])
      else ofParts (before ++ [stem])

/-- Puts a path behind a directory, unless the path is absolute. -/
def append (dir path : Text) : Text :=
  if isAbsolute path then path
  else if dir = [] ∨ dir.getLast? = some '/' then dir ++ path
  else dir ++ '/' :: path

/-- A path with its meaning freed of the working directory: void parts are left out, `..` and a
slash at the end are kept, and so are two slashes at the start. The empty path stays empty. -/
def absolute (cwd path : Text) : Text :=
  if path = [] then []
  else
    let lead : Text :=
      if isAbsolute path then
        if Text.startsWith ['/', '/'] path && !Text.startsWith ['/', '/', '/'] path then ['/', '/']
        else ['/']
      else cwd
    let whole := (parts path).foldl append lead
    if path.getLast? = some '/' then append whole [] else whole

/-- The parts that lead from a directory to a path, both given by their parts: up from where they
part, and down. There is no way up through `..`. -/
def wayDown? : List Text → List Text → Option (List Text)
  | [], base => some (base.map fun _ => up)
  | path, [] => some path
  | p :: path, b :: base =>
    if p = b then wayDown? path base
    else if b = up then none
    else some (up :: base.map (fun _ => up) ++ p :: path)

def relativeTo? (path base : Text) : Option Text :=
  if isAbsolute path ≠ isAbsolute base then
    if isAbsolute path then some path else none
  else (wayDown? (parts path) (parts base)).map ofParts

end FilePath

namespace ImportPath

/-- The extensions of sources, each with the extension of what it is compiled to. -/
def compiled : List (Text × Text) :=
  [(['t', 's'], ".js".toList), (['m', 't', 's'], ".mjs".toList), (['c', 't', 's'], ".cjs".toList)]

def splitSource (location : Text) : Text × Text :=
  match (FilePath.extension? location).bind fun ext => compiled.lookup ext with
  | some ext => (FilePath.dropExtension location, ext)
  | none => (location, ".js".toList)

/-- The specifier of the module at `location` in a file of `routesDir`. An ECMAScript module is
named with the extension of what it is compiled to. -/
def specifier (cwd routesDir location : Text) (esm : Bool) : Text :=
  let (stem, ext) := splitSource location
  let stem := FilePath.absolute cwd stem
  let relative := (FilePath.relativeTo? stem (FilePath.absolute cwd routesDir)).getD stem
  ['.', '/'] ++ Text.substitute '\\' '/' relative ++ if esm then ext else []

end ImportPath

end RouteModule
