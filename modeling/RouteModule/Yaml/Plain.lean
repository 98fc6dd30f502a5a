import RouteModule.Document
import RouteModule.Text

/-!
What the scalars of YAML stand for. A plain scalar may be null, a truth value, an integer in one of
four bases or a floating point number, and is a text otherwise; decimal digits behind a leading zero
are a text as well.
-/

namespace RouteModule.Yaml

def isNull (t : Text) : Bool :=
  t = ['~'] ∨ t = "null".toList ∨ t = "Null".toList ∨ t = "NULL".toList

def bool? (t : Text) : Option Bool :=
  if t = "true".toList ∨ t = "True".toList ∨ t = "TRUE".toList then some true
  else if t = "false".toList ∨ t = "False".toList ∨ t = "FALSE".toList then some false
  else none

def dropSign : Text → Text
  | '+' :: t => t
  | '-' :: t => t
  | t => t

/-- Several decimal digits of which the first is zero. -/
def hasLeadingZero (t : Text) : Bool :=
  match dropSign t with
  | '0' :: c :: t => (c :: t).all Text.isDigit
  | _ => false

def based? : Text → Option Nat
  | '0' :: 'x' :: t => Text.toNat? 16 t
  | '0' :: 'o' :: t => Text.toNat? 8 t
  | '0' :: 'b' :: t => Text.toNat? 2 t
  | t => if hasLeadingZero t then none else Text.toNat? 10 t

def integer? : Text → Option Int
  | '-' :: t => (based? t).map fun n => -(n : Int)
  | '+' :: t => (based? t).map fun n => (n : Int)
  | t => (based? t).map fun n => (n : Int)

/-- What an integer stands for: up to 64 bits a number, up to 128 bits a number that is too wide. -/
def ofInteger? (i : Int) : Option Atom :=
  if Number.fits i then some (.number (.integer i))
  else if Width.unsigned 128 i then some (.wide i "u128")
  else if Width.signed 127 i then some (.wide i "i128")
  else none

/-- The digits before and behind a point and the exponent of a decimal number. -/
def decimal? (t : Text) : Option (Text × Text × Int) :=
  let (whole, t) := t.span Text.isDigit
  let (places, t) := match t with
    | '.' :: t => t.span Text.isDigit
    | t => ([], t)
  if whole.isEmpty && places.isEmpty then none
  else
    match t with
    | [] => some (whole, places, 0)
    | c :: t =>
      if c = 'e' ∨ c = 'E' then
        let negative := t.head? = some '-'
        (Text.toNat? 10 (dropSign t)).map fun n => (whole, places, if negative then -n else n)
      else none

def real? (t : Text) : Option Binary64 := do
  let (whole, places, exponent) ← decimal? (dropSign t)
  let digits ← Text.toNat? 10 (whole ++ places)
  Binary64.ofDecimal? (t.head? = some '-') digits (exponent - places.length)

/-- The spellings of what is no finite number. -/
def notFinite? (t : Text) : Option String :=
  let spells (t : Text) (words : List String) : Bool := words.any fun w => w.toList = t
  if spells t [".inf", ".Inf", ".INF", "+.inf", "+.Inf", "+.INF"] then some "inf"
  else if spells t ["-.inf", "-.Inf", "-.INF"] then some "-inf"
  else if spells t [".nan", ".NaN", ".NAN"] then some "NaN"
  else none

/-- What a plain scalar stands for if it is a number of any kind. -/
def float? (t : Text) : Option Atom :=
  match notFinite? t with
  | some name => some (.notFinite name)
  | none => (real? t).map fun x => .number (.real x)

def ofPlain (t : Text) : Atom :=
  if t.isEmpty || isNull t then .null
  else
    match bool? t with
    | some b => .bool b
    | none =>
      match (integer? t).bind ofInteger? with
      | some a => a
      | none => if hasLeadingZero t then .text t else (float? t).getD (.text t)

def coreTag (name : String) : Bytes := Text.toBytes ("tag:yaml.org,2002:".toList ++ name.toList)

def ofTagged (tag : Bytes) (t : Text) : Atom :=
  if tag = coreTag "bool" then
    match bool? t with
    | some b => .bool b
    | none => .mistagged "a boolean"
  else if tag = coreTag "int" then ((integer? t).bind ofInteger?).getD (.mistagged "an integer")
  else if tag = coreTag "float" then (float? t).getD (.mistagged "a float")
  else if tag = coreTag "null" then if isNull t then .null else .mistagged "null"
  else .text t

end RouteModule.Yaml
