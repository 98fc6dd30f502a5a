import RouteModule.Decimal
import RouteModule.Table

/-!
JSON values. An integer of 64 bits and a finite floating point number are different values even
where they are equal in size, and the members of an object are kept in ascending order of their
names, each name once; `Json.ofMembers` builds such an object, the last member of a name winning.
-/

namespace RouteModule

namespace Width

def patterns (bits : Nat) : Nat := Nat.pow 2 bits

/-- An integer has room in so many bits and a bit for its sign. -/
def signed (bits : Nat) (i : Int) : Bool :=
  decide (-(patterns bits : Int) ≤ i) && decide (i < patterns bits)

/-- An integer has room in so many bits and has no sign. -/
def unsigned (bits : Nat) (i : Int) : Bool := decide (0 ≤ i) && decide (i < patterns bits)

end Width

inductive Number where
  | integer (i : Int)
  | real (x : Binary64)
  deriving DecidableEq, Repr

namespace Number

/-- The integers a number can hold: signed or unsigned 64 bits. -/
def fits (i : Int) : Bool := Width.signed 63 i || Width.unsigned 64 i

def isZero : Number → Bool
  | integer i => i == 0
  | real x => x.isZero

def text : Number → Text
  | integer i => Text.ofInt i
  | real x => x.text

def toReal : Number → Binary64
  | integer i => Binary64.ofInt i
  | real x => x

end Number

inductive Json where
  | null
  | bool (b : Bool)
  | number (n : Number)
  | text (t : Text)
  | array (items : List Json)
  | object (members : List (Text × Json))
  deriving Repr, Inhabited

namespace Json

mutual

def equals : Json → Json → Bool
  | null, null => true
  | bool b, bool c => b == c
  | number n, number m => n == m
  | text t, text u => t == u
  | array items, array others => equalItems items others
  | object members, object others => equalMembers members others
  | _, _ => false

def equalItems : List Json → List Json → Bool
  | [], [] => true
  | v :: rest, w :: others => equals v w && equalItems rest others
  | _, _ => false

def equalMembers : List (Text × Json) → List (Text × Json) → Bool
  | [], [] => true
  | (n, v) :: rest, (m, w) :: others => n == m && equals v w && equalMembers rest others
  | _, _ => false

end

mutual

theorem equals_iff : (v w : Json) → (equals v w = true ↔ v = w)
  | null, w => by cases w <;> simp [equals]
  | bool b, w => by cases w <;> simp [equals]
  | number n, w => by cases w <;> simp [equals]
  | text t, w => by cases w <;> simp [equals]
  | array items, w => by cases w <;> simp [equals, equalItems_iff items]
  | object members, w => by cases w <;> simp [equals, equalMembers_iff members]

theorem equalItems_iff : (vs ws : List Json) → (equalItems vs ws = true ↔ vs = ws)
  | [], ws => by cases ws <;> simp [equalItems]
  | v :: vs, ws => by cases ws <;> simp [equalItems, equals_iff v, equalItems_iff vs]

theorem equalMembers_iff :
    (ms ns : List (Text × Json)) → (equalMembers ms ns = true ↔ ms = ns)
  | [], ns => by cases ns <;> simp [equalMembers]
  | (n, v) :: ms, ns => by
    cases ns <;> simp [equalMembers, Prod.ext_iff, equals_iff v, equalMembers_iff ms]

end

instance : DecidableEq Json := fun v w => decidable_of_iff _ (equals_iff v w)

/-- The object with the given members; of two members of one name the later counts. -/
def ofMembers (members : List (Text × Json)) : Json :=
  object (Table.ofList members)

def record (members : List (String × Json)) : Json :=
  ofMembers (members.map fun m => (m.1.toList, m.2))

def literal (s : String) : Json := text s.toList

def natural (n : Nat) : Json := number (.integer n)

/-- A value that may be absent, `null` standing for its absence. -/
def orNull : Option Json → Json
  | some v => v
  | none => null

def member? (name : Text) : Json → Option Json
  | object members => members.lookup name
  | _ => none

/-- The value as scripts see its truth: only `null`, `false`, zero and the empty text are false. -/
def isTruthy : Json → Bool
  | null => false
  | bool b => b
  | number n => !n.isZero
  | text t => !t.isEmpty
  | array _ => true
  | object _ => true

end Json

end RouteModule
