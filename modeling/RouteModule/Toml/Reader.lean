import RouteModule.Document
import RouteModule.Toml.Quoted
import RouteModule.Toml.Scalar

/-!
A TOML text as a document. The text is read into statements, one a line, and the statements are then
carried out one after the other. A header opens a table and an assignment adds a value to the table
that is open; both make the tables on the way to them. A table is opened by one header only, and
nothing is assigned twice. A text that is not of the format, or whose statements contradict each
other, is broken as a whole.
-/

namespace RouteModule.Toml

/-- What a table has under a name. -/
inductive Item where
  | value (node : Node)
  /-- A table: whether no header has opened it yet, and whether it comes from the key of an
  assignment. -/
  | table (implied dotted : Bool) (entries : List (Text × Item))
  /-- Tables in a row, of which the last may grow. -/
  | tables (rows : List (List (Text × Item)))
  deriving Repr

/-- The entries of a table in the order in which they were made. -/
abbrev Entries := List (Text × Item)

/-- A key: the names on the way to a table, and the name there. -/
structure Key where
  way : List Text
  name : Text
  deriving DecidableEq, Repr

structure Assignment where
  key : Key
  value : Node
  deriving Repr

inductive Header where
  | table (key : Key)
  /-- One more table in a row. -/
  | row (key : Key)
  deriving DecidableEq, Repr

namespace Entries

def add (es : Entries) (name : Text) (item : Item) : Entries := es ++ [(name, item)]

def set (es : Entries) (name : Text) (item : Item) : Entries :=
  es.map fun e => if e.1 = name then (name, item) else e

def erase (es : Entries) (name : Text) : Entries := es.filter fun e => e.1 ≠ name

/-- Changes the table at the end of a way, making the tables that are not there; `change` also
learns whether the table comes from the key of an assignment. The way of an assignment does not lead
into tables that were opened by headers. -/
def descend? (dotted : Bool) (change : Bool → Entries → Option Entries) :
    List Text → Bool → Entries → Option Entries
  | [], isDotted, es => change isDotted es
  | name :: way, _, es =>
    match es.lookup name with
    | none => do
      let inner ← descend? dotted change way dotted []
      return es.add name (.table true dotted inner)
    | some (.value _) => none
    | some (.table implied isDotted inner) => do
      if dotted && !implied then none
      else
        let inner ← descend? dotted change way isDotted inner
        return es.set name (.table implied isDotted inner)
    | some (.tables rows) => do
      let last ← descend? dotted change way false (rows.getLast?.getD [])
      return es.set name (.tables (rows.dropLast ++ [last]))

def assign? (es : Entries) (a : Assignment) : Option Entries :=
  descend? true (fun isDotted es =>
    if isDotted = a.key.way.isEmpty ∨ (es.lookup a.key.name).isSome then none
    else some (es.add a.key.name (.value a.value))) a.key.way false es

def assignAll? (es : Entries) (as : List Assignment) : Option Entries := as.foldlM assign? es

/-- Opens a table and assigns values in it. -/
def enter? (es : Entries) (header : Header) (as : List Assignment) : Option Entries :=
  match header with
  | .table key =>
    descend? false (fun _ es => do
      let (found, rest) ← match es.lookup key.name with
        | none => some ([], es)
        | some (.table true false inner) => some (inner, es.erase key.name)
        | some _ => none
      return rest.add key.name (.table false false (← assignAll? found as))) key.way false es
  | .row key =>
    descend? false (fun _ es => do
      let row ← assignAll? [] as
      match es.lookup key.name with
      | none => return es.add key.name (.tables [row])
      | some (.tables rows) => return es.set key.name (.tables (rows ++ [row]))
      | some _ => none) key.way false es

end Entries

mutual

def Item.node : Item → Node
  | .value node => node
  | .table _ _ es => .mapping (entryNodes es)
  | .tables rows => .sequence (rowNodes rows)

def entryNodes : List (Text × Item) → List (Node × Node)
  | [] => []
  | (name, item) :: rest => (.atom name (.text name), item.node) :: entryNodes rest

def rowNodes : List (List (Text × Item)) → List Node
  | [] => []
  | es :: rest => .mapping (entryNodes es) :: rowNodes rest

end

def Entries.node (es : Entries) : Node := .mapping (entryNodes es)

open Quoted (isBlank afterBreak?)

/-- What is written on a line. -/
inductive Statement where
  | opening (header : Header)
  | assignment (a : Assignment)
  deriving Repr

def skipBlanks (t : Text) : Text := t.dropWhile isBlank

def isComment (c : Char) : Bool := !Quoted.isControl c && c != '\n'

def skipComment : Text → Text
  | '#' :: t => t.dropWhile isComment
  | t => t

def lineEnd? (t : Text) : Option Text :=
  match skipComment (skipBlanks t) with
  | [] => some []
  | t => afterBreak? t

/-- Drops blanks, line breaks and comments at the start; `comment` if the text starts inside of a
comment. -/
def skipLines (comment : Bool) : Text → Text
  | [] => []
  | c :: t =>
    if (comment && isComment c) || c = '#' then skipLines true t
    else if isBlank c || c = '\n' then skipLines false t
    else if c = '\r' then
      match t with
      | '\n' :: _ => skipLines false t
      | _ => c :: t
    else c :: t

def isBare (c : Char) : Bool := c.isAlphanum || c == '_' || c == '-'

def name? (t : Text) : Option (Text × Text) := do
  let t := skipBlanks t
  let (name, rest) ← match t with
    | '"' :: _ => Quoted.readOne? t
    | '\'' :: _ => Quoted.readOne? t
    | _ =>
      match t.span isBare with
      | ([], _) => none
      | (name, rest) => some (name, rest)
  return (name, skipBlanks rest)

/-- Reads names with points between them: those on the way, and the last one. -/
def names? : Nat → Text → Option (Key × Text)
  | 0, _ => none
  | fuel + 1, t => do
    match ← name? t with
    | (name, '.' :: rest) => do
      let (key, rest) ← names? fuel rest
      return ({ key with way := name :: key.way }, rest)
    | (name, rest) => return (⟨[], name⟩, rest)

/-- The number of names in a key, and of containers that a value may nest, is less than this. -/
def depthLimit : Nat := 80

def key? (t : Text) : Option (Key × Text) := do
  let (key, rest) ← names? (t.length + 1) t
  if key.way.length + 1 < depthLimit then some (key, rest) else none

mutual

/-- Reads a value; `depth` is the number of containers that may still be entered. -/
def value? : Nat → Nat → Text → Option (Node × Text)
  | 0, _, _ => none
  | fuel + 1, depth, t =>
    match t, depth with
    | '[' :: rest, depth + 1 => do
      let (items, rest) ← items? fuel depth rest
      return (.sequence items, rest)
    | '\x7b' :: rest, depth + 1 => do
      let (as, rest) ← match skipBlanks rest with
        | '\x7d' :: rest => some ([], rest)
        | _ => assignments? fuel depth rest
      return ((← Entries.assignAll? [] as).node, rest)
    | '"' :: _, _ => (Quoted.read? t).map fun r => (.atom r.1 (.text r.1), r.2)
    | '\'' :: _, _ => (Quoted.read? t).map fun r => (.atom r.1 (.text r.1), r.2)
    | t, _ => scalar? t

def items? : Nat → Nat → Text → Option (List Node × Text)
  | 0, _, _ => none
  | fuel + 1, depth, t =>
    match skipLines false t with
    | ']' :: rest => some ([], rest)
    | t => do
      let (node, rest) ← value? fuel depth t
      match skipLines false rest with
      | ']' :: rest => return ([node], rest)
      | ',' :: rest => do
        let (nodes, rest) ← items? fuel depth rest
        return (node :: nodes, rest)
      | _ => none

/-- Reads the assignments of a table on one line, of which at least one is left, and its closing
brace. -/
def assignments? : Nat → Nat → Text → Option (List Assignment × Text)
  | 0, _, _ => none
  | fuel + 1, depth, t => do
    let (key, rest) ← key? t
    let rest ← mark? '=' rest
    let (value, rest) ← value? fuel depth (skipBlanks rest)
    match skipBlanks rest with
    | '\x7d' :: rest => return ([⟨key, value⟩], rest)
    | ',' :: rest => do
      let (as, rest) ← assignments? fuel depth rest
      return (⟨key, value⟩ :: as, rest)
    | _ => none

end

def statement? : Text → Option (Statement × Text)
  | '[' :: '[' :: t => do
    let (key, rest) ← key? t
    return (.opening (.row key), ← Text.after? [']', ']'] rest)
  | '[' :: t => do
    let (key, rest) ← key? t
    return (.opening (.table key), ← mark? ']' rest)
  | t => do
    let (key, rest) ← key? t
    let rest ← mark? '=' rest
    let (value, rest) ← value? (rest.length + 1) (depthLimit - 1) (skipBlanks rest)
    return (.assignment ⟨key, value⟩, rest)

def statements? : Nat → Text → Option (List Statement)
  | 0, _ => none
  | fuel + 1, t =>
    match skipBlanks t with
    | [] => some []
    | t =>
      match lineEnd? t with
      | some rest => statements? fuel rest
      | none => do
        let (statement, rest) ← statement? t
        let rest ← lineEnd? rest
        return statement :: (← statements? fuel rest)

/-- The assignments before the first header, and those behind each header. -/
def sections : List Statement → List Assignment × List (Header × List Assignment)
  | [] => ([], [])
  | .assignment a :: rest =>
    let (as, more) := sections rest
    (a :: as, more)
  | .opening header :: rest =>
    let (as, more) := sections rest
    ([], (header, as) :: more)

def entriesOf? (statements : List Statement) : Option Entries := do
  let (as, more) := sections statements
  more.foldlM (fun es s => es.enter? s.1 s.2) (← Entries.assignAll? [] as)

/-- The root table of a text; a byte order mark in front is passed over. -/
def root? (t : Text) : Option Node := do
  let t := (mark? '\ufeff' t).getD t
  return (← entriesOf? (← statements? (t.length + 2) t)).node

def document (t : Text) : Document :=
  { root := (root? t).getD .broken, complete := true }

end RouteModule.Toml
