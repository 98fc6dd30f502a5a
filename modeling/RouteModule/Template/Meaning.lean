import RouteModule.Json.Node
import RouteModule.Options
import RouteModule.Template.Expr
import RouteModule.Template.Scope
import RouteModule.Text.Upper

/-!
What expressions mean. An expression has a value, it holds or does not hold where it is a condition,
and it may be a number for other numbers to be computed with; each of the three may fail for itself,
since a variable without a value is an error when it is printed and false when it is a condition.

A filter does not change whether anything but a variable holds, and a negation does not change the
value of a comparison, though it does change whether it holds. A number and something else are
neither equal nor different, and there a negation changes the value only.

Only some filters and functions of the language are known: those of the frameworks' own templates,
`upper` and `default`. Any other one fails.
-/

namespace RouteModule.Template

/-- A number in a computation, or the lack of one that a computation ended with. -/
abbrev Operand := Option Number

/-- What an expression means; `none` stands for an error. -/
structure Meaning where
  /-- The value where it is printed, assigned or given to something. -/
  value : Option Json
  /-- Whether it holds as a condition. -/
  truth : Option Bool
  /-- The number it is where numbers are computed with. -/
  number : Option Operand

/-- Whether a value counts as true: all but `null`, `false`, zero and what is empty. -/
def isFull : Json → Bool
  | .null => false
  | .bool b => b
  | .number n => !n.isZero
  | .text t => !t.isEmpty
  | .array items => !items.isEmpty
  | .object members => !members.isEmpty

def number? : Json → Option Operand
  | .number n => some (some n)
  | _ => none

namespace Meaning

def failure : Meaning := ⟨none, none, none⟩

def ofTruth (b : Option Bool) : Meaning := ⟨b.map .bool, b, none⟩

def ofNumber (n : Option Operand) : Meaning where
  value := n.map fun
    | some n => .number n
    | none => .literal "NaN"
  truth := n.map fun
    | some n => !n.isZero
    | none => false
  number := n

/-- The meaning of a variable, which as a condition may be without a value. -/
def ofVariable (v : Option Json) : Meaning where
  value := v
  truth := some (v.any isFull)
  number := v.bind number?

/-- The meaning of a call, whose result has to be `true` or `false` in a condition. -/
def ofCall (v : Option Json) : Meaning where
  value := v
  truth := v.bind fun
    | .bool b => some b
    | _ => none
  number := v.bind number?

end Meaning

section Numbers

def ofFloat (f : Float) : Operand := (Binary64.ofFloat? f).map .real

/-- The integer results that are numbers: of 64 bits with a sign where both operands are, and
otherwise without a sign. -/
def integerResult (l r result : Int) : Option Operand :=
  if Width.signed 63 l && Width.signed 63 r then
    if Width.signed 63 result then some (some (.integer result)) else none
  else if Width.unsigned 64 result then some (some (.integer result)) else none

/-- Two integers can be computed with as such: both have a sign, or neither has. -/
def alike (l r : Int) : Bool :=
  (Width.signed 63 l && Width.signed 63 r) || (decide (0 ≤ l) && decide (0 ≤ r))

/-- Computes with two numbers, exactly with integers and in floating point otherwise. A quotient is
always computed in floating point, and is an integer again if it is whole. -/
def Arithmetic.apply (op : Arithmetic) (l r : Number) : Option Operand :=
  let x := l.toReal.toFloat
  let y := r.toReal.toFloat
  let exact (f : Int → Int → Int) (g : Float → Float → Float) : Option Operand :=
    match l, r with
    | .integer i, .integer j =>
      if alike i j then integerResult i j (f i j) else some (ofFloat (g x y))
    | _, _ => some (ofFloat (g x y))
  match op with
  | .add => exact (· + ·) (· + ·)
  | .sub => exact (· - ·) (· - ·)
  | .mul => exact (· * ·) (· * ·)
  | .div =>
    let q := x / y
    if q.isNaN || q.isInf then some none
    else if q.round == q then
      let i := q.abs.toUInt64.toNat
      let limit := Width.patterns 63
      some (some (.integer (if q < 0 then -(min i limit : Nat) else (min i (limit - 1) : Nat))))
    else some (ofFloat q)
  | .mod =>
    match l, r with
    | .integer i, .integer j =>
      if j = 0 then none
      else if alike i j then integerResult i j (i.tmod j)
      else some ((l.toReal.remainder? r.toReal).map .real)
    | _, _ => some ((l.toReal.remainder? r.toReal).map .real)

def Comparison.ofNumbers (op : Comparison) (l r : Number) : Bool :=
  let x := l.toReal.rank
  let y := r.toReal.rank
  match op with
  | .equal => x = y
  | .notEqual => x ≠ y
  | .less => x < y
  | .lessEqual => x ≤ y
  | .greater => x > y
  | .greaterEqual => x ≥ y

end Numbers

mutual

/-- Whether two values are the same: integers and floating point numbers are not, and zero has no
sign. -/
def same : Json → Json → Bool
  | .number (.real x), .number (.real y) => x == y || (x.isZero && y.isZero)
  | .array items, .array others => sameItems items others
  | .object members, .object others => sameMembers members others
  | v, w => v == w

def sameItems : List Json → List Json → Bool
  | [], [] => true
  | v :: rest, w :: others => same v w && sameItems rest others
  | _, _ => false

def sameMembers : List (Text × Json) → List (Text × Json) → Bool
  | [], [] => true
  | (name, v) :: rest, (other, w) :: others => name == other && same v w && sameMembers rest others
  | _, _ => false

end

/-- Of two values just one is a number. -/
def areMixed : Json → Json → Bool
  | .number _, .number _ => false
  | .number _, _ => true
  | _, .number _ => true
  | _, _ => false

/-- Two values compared for equality: numbers by size, and a number with nothing else, not even for
being different. -/
def Comparison.ofValues (op : Comparison) : Json → Json → Bool
  | .number l, .number r => op.ofNumbers l r
  | l, r => !areMixed l r && same l r == (op = .equal)

/-- Compares two expressions: for equality by their values, by size only if both are numbers. -/
def Comparison.apply (op : Comparison) (l r : Meaning) : Option Bool :=
  match op with
  | .equal | .notEqual => do return op.ofValues (← l.value) (← r.value)
  | _ => do
    let x ← l.number
    let y ← r.number
    return op.ofNumbers (← x) (← y)

def Comparison.isMixed (op : Comparison) (l r : Meaning) : Bool :=
  match op, l.value, r.value with
  | .equal, some v, some w | .notEqual, some v, some w => areMixed v w
  | _, _, _ => false

/-- What the function `additional_props` gives for a model: what the model says about further
properties, if that is anything, and otherwise what the policy says. -/
def additionalProps (policy : Policy) (schema : Json) : Text :=
  if schema.isTruthy then schema.render else (Json.bool policy.allowsExtras).render

def function? (policy : Policy) (name : Text) (arguments : List (Text × Json)) : Option Json :=
  if name = "additional_props".toList then
    let schema := (arguments.lookup "schema".toList).getD .null
    some (.text (additionalProps policy schema))
  else none

def length? : Json → Option Json
  | .array items => some (.natural items.length)
  | .object members => some (.natural members.length)
  | .text t => some (.natural t.length)
  | _ => none

def applyFilter (name : Text) (v : Json) : Option Json :=
  if name = "json".toList then some (.text v.render)
  else if name = "length".toList then length? v
  else if name = "upper".toList then
    match v with
    | .text t => some (.text (Text.upper t))
    | _ => none
  else none

/-- The name of the filter that stands in for what a variable lacks. -/
def defaultName : Text := "default".toList

/-- The expression is a variable with filters, of which the first does not stand in for its value. -/
def needsValue : Expr → Bool
  | .variable _ => true
  | .filter (.variable _) name _ => name ≠ defaultName
  | .filter operand _ _ => needsValue operand
  | _ => false

/-- The text of a part of a concatenation. A number that is written there has no point unless it has
places behind it. -/
def partText (part : Expr) (v : Json) : Option Text :=
  match part, v with
  | .number (.real x), _ => some x.decimal
  | _, .text t => some t
  | _, .number n => some n.text
  | _, _ => none

mutual

/-- What an expression means in a scope, under a policy for further properties. -/
def Expr.meaning (policy : Policy) (s : Scope) : Expr → Meaning
  | .bool b => .ofTruth (some b)
  | .number n => .ofNumber (some (some n))
  | .text t => ⟨some (.text t), some (!t.isEmpty), none⟩
  | .variable path => .ofVariable (s.lookup? path)
  | .call name arguments => .ofCall do
    let arguments ← argumentValues policy s arguments
    function? policy name arguments
  | .concat parts =>
    let t := concatText policy s parts
    ⟨t.map .text, t.map fun t => !t.isEmpty, none⟩
  | .array items =>
    let vs := itemValues policy s items
    ⟨vs.map .array, some (!items.isEmpty), none⟩
  | .arithmetic op left right => .ofNumber do
    let x ← (left.meaning policy s).number
    let y ← (right.meaning policy s).number
    match x, y with
    | some x, some y => op.apply x y
    | _, _ => some none
  | .filter operand name arguments =>
    let m := operand.meaning policy s
    let value : Option Json :=
      if name = defaultName then
        match operand, m.value with
        | .variable _, some .null | .variable _, none =>
          argumentValue policy s defaultKey arguments
        | _, v => v
      else do
        let _ ← argumentValues policy s arguments
        applyFilter name (← m.value)
    match operand.core with
    | .variable _ => ⟨value, some (value.any isFull), value.bind number?⟩
    | _ => ⟨value, m.truth, value.bind number?⟩
  | .compare op left right => .ofTruth (op.apply (left.meaning policy s) (right.meaning policy s))
  | .and left right =>
    .ofTruth (match (left.meaning policy s).truth with
      | some true => (right.meaning policy s).truth
      | t => t)
  | .or left right =>
    .ofTruth (match (left.meaning policy s).truth with
      | some false => (right.meaning policy s).truth
      | t => t)
  | .not (.compare op left right) =>
    let l := left.meaning policy s
    let r := right.meaning policy s
    let b := op.apply l r
    let denied := b.map (!·)
    if op.isMixed l r then ⟨denied.map .bool, b, none⟩ else ⟨b.map .bool, denied, none⟩
  | .not operand =>
    let m := operand.meaning policy s
    match operand.core with
    | .variable path =>
      if needsValue operand && (s.lookup? path).isNone then .ofTruth (some true)
      else ⟨m.value.map fun v => .bool (!isFull v), some (m.value.any fun v => !isFull v), none⟩
    | .and _ _ | .or _ _ => ⟨m.value, m.truth.map (!·), none⟩
    | _ => ⟨m.value.map fun v => .bool (!isFull v), m.truth.map (!·), none⟩
where
  /-- The name of the argument that stands in for a value. -/
  defaultKey : Text := "value".toList

def argumentValues (policy : Policy) (s : Scope) : List (Text × Expr) → Option (List (Text × Json))
  | [] => some []
  | (name, e) :: rest => do
    let v ← (e.meaning policy s).value
    return (name, v) :: (← argumentValues policy s rest)

def argumentValue (policy : Policy) (s : Scope) (key : Text) : List (Text × Expr) → Option Json
  | [] => none
  | (name, e) :: rest =>
    if name = key then (e.meaning policy s).value else argumentValue policy s key rest

def itemValues (policy : Policy) (s : Scope) : List Expr → Option (List Json)
  | [] => some []
  | e :: rest => do
    let v ← (e.meaning policy s).value
    return v :: (← itemValues policy s rest)

def concatText (policy : Policy) (s : Scope) : List Expr → Option Text
  | [] => some []
  | e :: rest => do
    let t ← partText e (← (e.meaning policy s).value)
    return t ++ (← concatText policy s rest)

end

def Expr.truth? (policy : Policy) (s : Scope) (e : Expr) : Option Bool := (e.meaning policy s).truth

def Expr.value? (policy : Policy) (s : Scope) (e : Expr) : Option Json := (e.meaning policy s).value

end RouteModule.Template
