import RouteModule.FilePath
import RouteModule.Table
import RouteModule.Text

/-!
A file system as a value: what is at each location. `resolve` follows a path from name to name and
through links to the place it means, and the three operations that generation needs, `kind`, `read`
and `write`, are said in terms of that place. Two file systems with the same entries are equal.
-/

namespace RouteModule

/-- A place in the tree: the names on the way to it from the root, each behind a slash. The root is
the empty text. -/
abbrev Location := Text

namespace Location

def child (dir : Location) (name : Text) : Location := dir ++ '/' :: name

/-- The directory of a place; that of the root is the root. -/
def parent (l : Location) : Location := ((l.reverse.dropWhile (· ≠ '/')).drop 1).reverse

end Location

inductive FileFault where
  | notFound
  | notDirectory
  | isDirectory
  | alreadyThere
  | nameTooLong
  | linkLoop
  /-- A path with a NUL in it. -/
  | nul
  /-- The content is not UTF-8. -/
  | notText
  /-- What only a real disk can come up with: its text, and its number. -/
  | other (text : Text) (number : Nat)
  deriving DecidableEq, Repr

namespace FileFault

def numbered (text : Text) (number : Nat) : Text :=
  text ++ " (os error ".toList ++ Text.ofNat number ++ [')']

def message : FileFault → Text
  | notFound => numbered "No such file or directory".toList 2
  | notDirectory => numbered "Not a directory".toList 20
  | isDirectory => numbered "Is a directory".toList 21
  | alreadyThere => numbered "File exists".toList 17
  | nameTooLong => numbered "File name too long".toList 36
  | linkLoop => numbered "Too many levels of symbolic links".toList 40
  | nul => "file name contained an unexpected NUL byte".toList
  | notText => "stream did not contain valid UTF-8".toList
  | other text number => numbered text number

end FileFault

inductive Entry where
  | directory
  | file (content : Bytes)
  /-- A link: the path that it stands for. -/
  | link (target : Text)
  deriving DecidableEq, Repr

/-- A file system: the entries by their places. The root is a directory without an entry. -/
structure FileSystem where
  entries : Table Entry
  sorted : entries.Sorted
  deriving DecidableEq

inductive Kind where
  | directory
  | file
  deriving DecidableEq, Repr

namespace FileSystem

def empty : FileSystem := ⟨[], List.Pairwise.nil⟩

def get? (fs : FileSystem) (l : Location) : Option Entry := List.lookup l fs.entries

def put (fs : FileSystem) (l : Location) (e : Entry) : FileSystem :=
  ⟨fs.entries.insert l e, Table.Sorted.insert fs.sorted l e⟩

@[simp] theorem get?_empty (l : Location) : empty.get? l = none := rfl

@[simp] theorem get?_put_same (fs : FileSystem) (l : Location) (e : Entry) :
    (fs.put l e).get? l = some e := by simp [get?, put]

theorem get?_put_other (fs : FileSystem) {l m : Location} (e : Entry) (h : m ≠ l) :
    (fs.put l e).get? m = fs.get? m := by
  simp [get?, put, Table.lookup_insert_of_ne h]

@[ext] theorem ext {fs gs : FileSystem} (h : ∀ l, fs.get? l = gs.get? l) : fs = gs := by
  obtain ⟨es, hs⟩ := fs
  obtain ⟨gs, ht⟩ := gs
  have : es = gs := Table.Sorted.ext hs ht h
  subst this
  rfl

theorem put_eq_self {fs : FileSystem} {l : Location} {e : Entry} (h : fs.get? l = some e) :
    fs.put l e = fs := by
  ext1 k
  by_cases hk : k = l
  · subst hk
    rw [get?_put_same, h]
  · exact get?_put_other _ _ hk

/-- The place that a path means. -/
inductive Place where
  | directory (l : Location)
  | file (l : Location) (content : Bytes)
  /-- A place without an entry, in a directory. -/
  | absent (l : Location)
  deriving DecidableEq, Repr

inductive Stop where
  | arrived (place : Place)
  | failed (fault : FileFault)
  /-- A link in a directory, with the names that are left behind it. -/
  | linked (dir : Location) (target : Text) (rest : List Text)
  deriving DecidableEq, Repr

def nameLimit : Nat := 255

def pathLimit : Nat := 4095

def linkLimit : Nat := 40

/-- Follows names from a directory to the first link or to the end. With `unwanted` a name at the end
is refused as that of a directory, whatever it is. -/
def advance (fs : FileSystem) (unwanted : Bool) : Location → List Text → Stop
  | dir, [] => .arrived (.directory dir)
  | dir, name :: rest =>
    if name = ['.'] then advance fs unwanted dir rest
    else if name = FilePath.up then advance fs unwanted dir.parent rest
    else if unwanted ∧ rest = [] then .failed .isDirectory
    else if Text.byteLength name > nameLimit then .failed .nameTooLong
    else
      match fs.get? (dir.child name) with
      | none => if rest = [] then .arrived (.absent (dir.child name)) else .failed .notFound
      | some .directory => advance fs unwanted (dir.child name) rest
      | some (.file content) =>
        if rest = [] then .arrived (.file (dir.child name) content) else .failed .notDirectory
      | some (.link target) => .linked dir target rest

def names (path : Text) : List Text := (Text.splitAt '/' path).filter (· ≠ [])

def base (cwd : Location) (path : Text) : Location :=
  if FilePath.isAbsolute path then [] else cwd

/-- A path with a slash at its end means a directory. -/
def meansDirectory (path : Text) : Bool := path.getLast? = some '/'

/-- Follows names through at most so many links. The place comes with whether the path to it, or
that of the last link, means a directory; to make a file such a path is refused before its last name
is looked up. -/
def follow (fs : FileSystem) (making : Bool) :
    Nat → Bool → Location → List Text → Except FileFault (Place × Bool)
  | links, asDirectory, dir, names =>
    match fs.advance (making && asDirectory) dir names with
    | .arrived place => .ok (place, asDirectory)
    | .failed fault => .error fault
    | .linked dir target rest =>
      match links with
      | 0 => .error .linkLoop
      | links + 1 =>
        follow fs making links (asDirectory || (rest = [] && meansDirectory target)) (base dir target)
          (FileSystem.names target ++ rest)

/-- The place that a path means, seen from a directory; `making` says that a file may be made
there. -/
def resolve (fs : FileSystem) (making : Bool) (cwd : Location) (path : Text) :
    Except FileFault (Place × Bool) :=
  if path.contains '\x00' then .error .nul
  else if path = [] then .error .notFound
  else if Text.byteLength path > pathLimit then .error .nameTooLong
  else fs.follow making linkLimit (meansDirectory path) (base cwd path) (names path)

def kind (fs : FileSystem) (cwd : Location) (path : Text) : Except FileFault Kind := do
  match ← fs.resolve false cwd path with
  | (.directory _, _) => .ok .directory
  | (.file _ _, false) => .ok .file
  | (.file _ _, true) => .error .notDirectory
  | (.absent _, _) => .error .notFound

def read (fs : FileSystem) (cwd : Location) (path : Text) : Except FileFault Bytes := do
  match ← fs.resolve false cwd path with
  | (.directory _, _) => .error .isDirectory
  | (.file _ content, false) => .ok content
  | (.file _ _, true) => .error .notDirectory
  | (.absent _, _) => .error .notFound

/-- The file system with a content for a file, which need not have been there. -/
def write (fs : FileSystem) (cwd : Location) (path : Text) (content : Bytes) :
    Except FileFault FileSystem := do
  match ← fs.resolve true cwd path with
  | (.directory _, _) => .error .isDirectory
  | (_, true) => .error .isDirectory
  | (.file l _, false) => .ok (fs.put l (.file content))
  | (.absent l, false) => .ok (fs.put l (.file content))

end FileSystem

end RouteModule
