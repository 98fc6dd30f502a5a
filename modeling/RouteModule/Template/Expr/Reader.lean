import RouteModule.Template.Expr

/-!
The grammar of expressions. Products bind closer than sums, comparisons follow, then `and`, then
`or`; a filter applies to the whole sum in front of it.
-/

namespace RouteModule.Template

open Reader

def isNameChar (c : Char) : Bool := c.isAlphanum || c == '_'

/-- A name, which does not begin with a digit. -/
def name? : Reader Text
  | c :: t =>
    if (c.isAlpha || c == '_') then some (c :: t.takeWhile isNameChar, t.dropWhile isNameChar)
    else none
  | [] => none

/-- Digits without a zero in front of others. -/
def wholePart? : Reader Text
  | '0' :: t => some (['0'], t)
  | c :: t => if Text.isDigit c then some ((c :: t).span Text.isDigit) else none
  | [] => none

def minus (t : Text) : Bool × Text :=
  match t with
  | '-' :: t => (true, t)
  | t => (false, t)

def integerDigits? : Reader (Bool × Text) := fun t => do
  let (negative, t) := minus t
  let (digits, t) ← wholePart? t
  return ((negative, digits), t)

def real? : Reader Expr := fun t => do
  let ((negative, whole), t) ← integerDigits? t
  match t with
  | '.' :: t =>
    let (places, t) := t.span Text.isDigit
    if places.isEmpty then none
    else
      let digits ← Text.toNat? 10 (whole ++ places)
      let x ← Binary64.ofDecimal? negative digits (-(places.length : Int))
      return (.number (.real x), t)
  | _ => none

def integer? : Reader Expr := fun t => do
  let ((negative, digits), t) ← integerDigits? t
  let n ← Text.toNat? 10 digits
  let i : Int := if negative then -n else n
  if Width.signed 63 i then return (.number (.integer i), t) else none

def quoted? : Reader Text
  | c :: t =>
    if c = '"' ∨ c = '\'' ∨ c = '\x60' then
      match t.dropWhile (· != c) with
      | _ :: rest => some (t.takeWhile (· != c), rest)
      | [] => none
    else none
  | [] => none

mutual

def path? : Nat → Reader Unit
  | 0, _ => none
  | fuel + 1, t => (name? t).map fun r => ((), afterKeys fuel r.2)

/-- What follows the keys at the front of a text, of which there may be any number. -/
def afterKeys : Nat → Text → Text
  | 0, t => t
  | fuel + 1, '.' :: t =>
    if t.head?.any isNameChar then afterKeys fuel (t.dropWhile isNameChar) else '.' :: t
  | fuel + 1, '[' :: t =>
    match bracketed? fuel t with
    | some (_, ']' :: rest) => afterKeys fuel rest
    | _ => '[' :: t
  | _ + 1, t => t

/-- What stands between brackets: an integer, a text or a variable. -/
def bracketed? : Nat → Reader Unit
  | 0, _ => none
  | fuel + 1, t =>
    match integerDigits? t with
    | some (_, rest) => some ((), rest)
    | none =>
      match quoted? t with
      | some (_, rest) => some ((), rest)
      | none => path? fuel t

end

def identifier? : Reader Expr := fun t =>
  (taken (path? (2 * t.length + 1)) t).map fun r => (.variable r.1, r.2)

def bool? : Reader Expr :=
  oneOf [("true", .bool true), ("false", .bool false), ("True", .bool true), ("False", .bool false)]

/-- Arguments by name, the last of one name counting. -/
def arguments (value : Reader Expr) (t : Text) : List (Text × Expr) × Text :=
  let argument : Reader (Text × Expr) := fun t => do
    let (name, t) ← spaced name? t
    let (_, t) ← mark "=" t
    let (e, t) ← value t
    return ((name, e), t)
  let (arguments, rest) := commaSeparated argument t
  (Table.ofList arguments, rest)

def application? (value : Reader Expr) : Reader (Text × List (Text × Expr)) := fun t => do
  let (name, t) ← spaced name? t
  let (_, t) ← mark "(" t
  let (arguments, t) := arguments value t
  let (_, t) ← mark ")" t
  return ((name, arguments), t)

def call? (value : Reader Expr) : Reader Expr := fun t =>
  (application? value t).map fun r => (.call r.1.1 r.1.2, r.2)

def filter? (value : Reader Expr) : Reader (Text × List (Text × Expr)) := fun t => do
  let (_, t) ← mark "|" t
  or (application? value) (fun t => (spaced name? t).map fun r => ((r.1, []), r.2)) t

def filtered? (value operand : Reader Expr) : Reader Expr := fun t => do
  let (e, t) ← operand t
  let (filters, t) := many (filter? value) t.length t
  return (filters.foldl (fun e f => .filter e f.1 f.2) e, t)

def simple? (value : Reader Expr) : Reader Expr :=
  or (spaced bool?) (or (call? value) (or (spaced identifier?) (or (spaced real?) (spaced integer?))))

def arithmeticSign : Reader Arithmetic :=
  oneOf [("+", .add), ("-", .sub), ("*", .mul), ("/", .div), ("%", .mod)]

/-- Puts operands together, products first: `whole` is the sum so far that waits for `last`. -/
def sum (whole : Option (Arithmetic × Expr)) (last : Expr) : List (Arithmetic × Expr) → Expr
  | [] => close whole last
  | (op, e) :: rest =>
    match op with
    | .add | .sub => sum (some (op, close whole last)) e rest
    | .mul | .div | .mod => sum whole (.arithmetic op last e) rest
where
  /-- Adds the last product to the sum in front of it. -/
  close : Option (Arithmetic × Expr) → Expr → Expr
    | some (op, left), right => .arithmetic op left right
    | none, right => right

def arithmetic? (operand : Reader Expr) : Reader Expr := fun t =>
  (chain operand arithmeticSign t).map fun r => (sum none r.1.1 r.1.2, r.2)

/-- A sum of simple values, of which each may be a sum in parentheses. -/
def sum? (value : Reader Expr) : Nat → Reader Expr
  | 0 => fun _ => none
  | fuel + 1 =>
    let enclosed : Reader Expr := fun t => do
      let (_, t) ← mark "(" t
      let (e, t) ← sum? value fuel t
      let (_, t) ← mark ")" t
      return (e, t)
    arithmetic? (or enclosed (simple? value))

def filteredSum? (value : Reader Expr) : Reader Expr := fun t =>
  filtered? value (sum? value (t.length + 1)) t

def text? : Reader Expr := fun t => (quoted? t).map fun r => (.text r.1, r.2)

def concat? (value : Reader Expr) : Reader Expr := fun t => do
  let part := or (call? value)
    (or (spaced real?) (or (spaced integer?) (or (spaced text?) (spaced identifier?))))
  let ((first, more), t) ← chain part (mark "~") t
  if more.isEmpty then none else return (.concat (first :: more.map (·.2)), t)

def filteredText? (value : Reader Expr) : Reader Expr :=
  filtered? value (or (concat? value) (spaced text?))

def side? (value : Reader Expr) : Reader Expr :=
  or (filteredText? value) (arithmetic? (filteredSum? value))

def comparisonSign : Reader Comparison :=
  oneOf [("<=", .lessEqual), (">=", .greaterEqual), ("<", .less), (">", .greater),
    ("==", .equal), ("!=", .notEqual)]

def comparison? (value : Reader Expr) : Reader Expr := fun t => do
  let (left, t) ← side? value t
  let more : Reader (Comparison × Expr) := fun t => do
    let (op, t) ← comparisonSign t
    let (right, t) ← side? value t
    return ((op, right), t)
  match more t with
  | some ((op, right), t) => return (.compare op left right, t)
  | none => return (left, t)

def negation (t : Text) : Bool × Text :=
  match word "not" t with
  | some (_, t) => (true, t)
  | none => (false, t)

def negate (negated : Bool) (e : Expr) : Expr := if negated then .not e else e

/-- Puts operands together, those of `and` first: `whole` is the alternative so far, `last` the
conjunction so far. -/
def alternatives (whole : Option Expr) (last : Expr) : List (Bool × Expr) → Expr
  | [] => close whole last
  | (true, e) :: rest => alternatives whole (.and last e) rest
  | (false, e) :: rest => alternatives (some (close whole last)) e rest
where
  /-- Adds the last conjunction to the alternative in front of it. -/
  close : Option Expr → Expr → Expr
    | some left, right => .or left right
    | none, right => right

/-- The words between conditions: `true` stands for `and`. -/
def logicWord : Reader Bool :=
  or (fun t => (word "or" t).map fun r => (false, r.2))
    (fun t => (word "and" t).map fun r => (true, r.2))

def logicOf (condition : Reader Expr) : Reader Expr := fun t =>
  (chain condition logicWord t).map fun r => (alternatives none r.1.1 r.1.2, r.2)

def filteredArray? (value condition : Reader Expr) : Reader Expr :=
  filtered? value fun t => do
    let (_, t) ← mark "[" t
    let (items, t) := commaSeparated condition t
    let (_, t) ← mark "]" t
    return (.array items, t)

def valueOf (condition : Reader Expr) : Nat → Reader Expr
  | 0 => fun _ => none
  | fuel + 1 => or (logicOf condition) (filteredArray? (valueOf condition fuel) condition)

/-- A condition, inside which others may be nested as deep as the bound allows. A negation stands in
front of a comparison, and parentheses take away the negation of what they enclose as a whole. -/
def condition? : Nat → Reader Expr
  | 0 => fun _ => none
  | fuel + 1 => fun t =>
    let inner := condition? fuel
    let value := valueOf inner (fuel + 1)
    let plain : Reader Expr := fun t => do
      let (negated, t) := negation t
      let (e, t) ← comparison? value t
      return (negate negated e, t)
    let enclosed : Reader Expr := fun t => do
      let (_, t) ← mark "(" t
      let (e, t) ← logicOf inner t
      let (_, t) ← mark ")" t
      return (e.affirmed, t)
    or plain enclosed t

def logic? : Reader Expr := fun t => logicOf (condition? (t.length + 1)) t

def value? : Reader Expr := fun t =>
  valueOf (condition? (t.length + 1)) (t.length + 1) t

/-- What a loop can run over. -/
def source? : Reader Expr := fun t =>
  let value := valueOf (condition? (t.length + 1)) (t.length + 1)
  or (filteredSum? value) (filteredArray? value (condition? (t.length + 1))) t

end RouteModule.Template
