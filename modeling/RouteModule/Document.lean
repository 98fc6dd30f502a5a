import RouteModule.Json
import RouteModule.Text.Quoted

/-!
Documents as trees that may break off. A reader of a format turns a text into nodes and leaves a
`broken` node where the text stops making sense, so that whoever walks the tree in order meets
complaints about the data and breaks of the format in the order in which the text has them. `Fault`
lists the complaints, and `Fault.message?` words those that concern the data.

The fields of a record are an enumeration with a type of values for each field; a draft holds the
values that have been read so far, in whatever order they came.
-/

namespace RouteModule

/-- What a scalar of a document stands for. -/
inductive Atom where
  | null
  | bool (b : Bool)
  | number (n : Number)
  | text (t : Text)
  /-- An infinity or the absence of a number, with its name. -/
  | notFinite (name : String)
  /-- An integer that needs 128 bits, with the name of its type. -/
  | wide (i : Int) (type : String)
  /-- A scalar whose tag asks for something its text is not. -/
  | mistagged (expected : String)
  deriving DecidableEq, Repr

inductive Node where
  /-- A scalar: the text it has in the document, and what that stands for. -/
  | atom (source : Text) (value : Atom)
  /-- A scalar under a tag of the format: its text, whether the tag is one for what may be absent,
  what the scalar stands for where a certain type is wanted, and what it stands for otherwise. -/
  | cast (source : Text) (absentable : Bool) (direct value : Atom)
  | sequence (items : List Node)
  | mapping (entries : List (Node × Node))
  /-- A node under a tag of its author. -/
  | tagged (tag : Text) (node : Node)
  /-- A mention of a node of the document by its number. -/
  | reference (id : Nat)
  /-- A node that may be passed over but not read. -/
  | unreadable
  /-- The place where the text breaks off. -/
  | broken
  deriving Repr, Inhabited

def Node.blank : Node := .atom [] .null

/-- A document: its root, whether nothing but blank space follows, the nodes that its references
stand for, and how many references may be followed when it is read. -/
structure Document where
  root : Node
  complete : Bool
  targets : Array Node := #[]
  jumps : Nat := 0
  deriving Repr

/-- What a complaint says was found. -/
inductive Found where
  | null
  | unit
  | bool (b : Bool)
  | integer (i : Int)
  /-- A floating point number, as the format's complaints spell it. -/
  | real (spelling : Text)
  | wide (i : Int) (type : String)
  | text (t : Text)
  | sequence
  | mapping
  | enumeration
  deriving DecidableEq, Repr

/-- Why a document was refused. -/
inductive Fault where
  /-- The text is not of its format, or outside the limits of its reader. -/
  | malformed
  | missingField (name : String)
  | duplicateField (name : String)
  | unknownVariant (name : Text) (known : List String)
  | invalidType (found : Found) (expected : String)
  | invalidValue (found : Found) (expected : String)
  | invalidLength (length : Nat) (expected : String)
  deriving DecidableEq, Repr

def Found.wording : Found → Text
  | .null => "null".toList
  | .unit => "unit value".toList
  | .bool b => "boolean `".toList ++ (if b then "true" else "false").toList ++ "`".toList
  | .integer i => "integer `".toList ++ Text.ofInt i ++ "`".toList
  | .real spelling => "floating point `".toList ++ spelling ++ "`".toList
  | .wide i type => "integer `".toList ++ Text.ofInt i ++ "` as ".toList ++ type.toList
  | .text t => "string ".toList ++ Text.quoted t
  | .sequence => "sequence".toList
  | .mapping => "map".toList
  | .enumeration => "enum".toList

namespace Fault

def ticked (t : Text) : Text := "`".toList ++ t ++ "`".toList

/-- The wording of a complaint about the data; breaks of the format have none. -/
def message? : Fault → Option Text
  | malformed => none
  | missingField name => some ("missing field ".toList ++ ticked name.toList)
  | duplicateField name => some ("duplicate field ".toList ++ ticked name.toList)
  | unknownVariant name known =>
    some ("unknown variant ".toList ++ ticked name ++ ", expected one of ".toList ++
      Text.join ", ".toList (known.map fun k => ticked k.toList))
  | invalidType found expected =>
    some ("invalid type: ".toList ++ found.wording ++ ", expected ".toList ++ expected.toList)
  | invalidValue found expected =>
    some ("invalid value: ".toList ++ found.wording ++ ", expected ".toList ++ expected.toList)
  | invalidLength length expected =>
    some ("invalid length ".toList ++ Text.ofNat length ++ ", expected ".toList ++
      expected.toList)

end Fault

/-- What a node under a tag is without it. -/
def Node.untagged : Node → Node
  | .tagged _ node => node.untagged
  | .cast source _ direct _ => .atom source direct
  | node => node

/-- What comes of reading: a value or a complaint. The state is the number of references that may
still be followed, which bounds the work where references stand for nodes with references. -/
abbrev Reading := StateT Nat (Except Fault)

def Reading.jump : Reading Unit := do
  match ← get with
  | 0 => throw .malformed
  | n + 1 => set n

/-- Reads the root and then insists that the document ends. -/
def Document.read (document : Document) (reader : Node → Reading α) : Except Fault α := do
  let value ← (reader document.root).run' document.jumps
  if document.complete then .ok value else .error .malformed

/-- The fields of a record: their values, and their names in the order of the declaration. -/
class Fields (ι : Type) where
  Value : ι → Type
  all : List ι
  name : ι → String

abbrev Draft (ι : Type) [Fields ι] := (i : ι) → Option (Fields.Value i)

namespace Draft

variable {ι : Type} [Fields ι]

def empty : Draft ι := fun _ => none

def put [DecidableEq ι] (draft : Draft ι) (i : ι) (v : Fields.Value i) : Draft ι := fun j =>
  if h : j = i then some (h ▸ v) else draft j

@[simp] theorem put_same [DecidableEq ι] (draft : Draft ι) (i : ι) (v : Fields.Value i) :
    draft.put i v i = some v := by simp [put]

@[simp] theorem put_other [DecidableEq ι] (draft : Draft ι) {i j : ι} (v : Fields.Value i)
    (h : j ≠ i) : draft.put i v j = draft j := by simp [put, h]

/-- The value of a field that has to be there, or else what its absence means. -/
def require (draft : Draft ι) (absent : ι → Fault) (i : ι) : Except Fault (Fields.Value i) :=
  match draft i with
  | some v => .ok v
  | none => .error (absent i)

end Draft

def Fields.named? {ι : Type} [Fields ι] (name : Text) : Option ι :=
  (Fields.all : List ι).find? fun i => (Fields.name i).toList = name

def Fields.index {ι : Type} [Fields ι] [DecidableEq ι] (i : ι) : Nat :=
  (Fields.all : List ι).idxOf i

end RouteModule
