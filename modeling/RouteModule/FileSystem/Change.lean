import RouteModule.FileSystem

/-!
Further operations on file systems: directories, links, removal and the names in a directory. They
set the stage for runs of the generator, which itself only reads and writes files.
-/

namespace RouteModule.FileSystem

/-- The place that a path names itself, where a link at its end is not followed; `none` in place of
it if the path ends in a name that stands for another directory. -/
def locate (fs : FileSystem) (cwd : Location) (path : Text) :
    Except FileFault (Option Location) := do
  if path.contains '\x00' then throw .nul
  else if Text.byteLength path > pathLimit then throw .nameTooLong
  else
    match (names path).reverse with
    | [] => if path = [] then .error .notFound else .ok none
    | name :: before =>
      match ← fs.follow false linkLimit false (base cwd path) before.reverse with
      | (.directory dir, _) =>
        if name = ['.'] ∨ name = FilePath.up then .ok none
        else if Text.byteLength name > nameLimit then .error .nameTooLong
        else .ok (some (dir.child name))
      | (.file _ _, _) => .error .notDirectory
      | (.absent _, _) => .error .notFound

/-- Makes a directory, whose own directory has to be there; one that is there already stays. -/
def makeDirectory (fs : FileSystem) (cwd : Location) (path : Text) :
    Except FileFault FileSystem := do
  match ← fs.locate cwd path with
  | none => return fs
  | some l =>
    match fs.get? l with
    | none => return fs.put l .directory
    | some .directory => return fs
    | some (.file _) => throw .alreadyThere
    | some (.link _) =>
      if fs.kind cwd path matches .ok .directory then return fs else throw .alreadyThere

/-- The beginnings of a path that lead to the directories on its way, the shortest first. -/
def beginnings (path : Text) : List Text :=
  let lead : Text := if FilePath.isAbsolute path then ['/'] else []
  let parts := FilePath.parts path
  ((List.range parts.length).drop 1).map fun n => lead ++ FilePath.ofParts (parts.take n)

/-- Makes directories one after the other up to the first that cannot be made: why that one cannot,
and what there is by then. -/
def makeEach (cwd : Location) : List Text → FileSystem → Option FileFault × FileSystem
  | [], fs => (none, fs)
  | path :: rest, fs =>
    match fs.makeDirectory cwd path with
    | .ok fs => makeEach cwd rest fs
    | .error fault => (some fault, fs)

/-- Makes a directory and, if they are missing, those on the way to it. The ones that were made stay
when one behind them cannot be made. There is nothing to make for the empty path. -/
def makeDirectories (fs : FileSystem) (cwd : Location) (path : Text) :
    Option FileFault × FileSystem :=
  if path = [] then (none, fs)
  else match fs.makeDirectory cwd path with
  | .ok fs => (none, fs)
  | .error .notFound => makeEach cwd (beginnings path ++ [path]) fs
  | .error fault => (some fault, fs)

def makeLink (fs : FileSystem) (cwd : Location) (target path : Text) :
    Except FileFault FileSystem := do
  if target.contains '\x00' || path.contains '\x00' then throw .nul
  else if target = [] then throw .notFound
  else if Text.byteLength target > pathLimit then throw .nameTooLong
  else
    match ← fs.locate cwd path with
    | none => throw .alreadyThere
    | some l =>
      if (fs.get? l).isSome then throw .alreadyThere
      else if meansDirectory path then throw .notFound
      else return fs.put l (.link target)

def erase (fs : FileSystem) (l : Location) : FileSystem :=
  ⟨fs.entries.filter fun e => e.1 ≠ l, List.Pairwise.filter _ fs.sorted⟩

def remove (fs : FileSystem) (cwd : Location) (path : Text) : Except FileFault FileSystem := do
  match ← fs.locate cwd path with
  | none => throw .isDirectory
  | some l =>
    match fs.get? l with
    | none => throw .notFound
    | some .directory => throw .isDirectory
    | some _ => if meansDirectory path then throw .notDirectory else return fs.erase l

def list (fs : FileSystem) (cwd : Location) (path : Text) : Except FileFault (List Text) := do
  match ← fs.resolve false cwd path with
  | (.directory l, _) =>
    return fs.entries.filterMap fun e =>
      (Text.after? (l ++ ['/']) e.1).filter fun name => !name.contains '/'
  | (.file _ _, _) => throw .notDirectory
  | (.absent _, _) => throw .notFound

end RouteModule.FileSystem
