import RouteModule.Document

/-!
The scalars of TOML that are written without quotes: truth values, integers in four bases, floating
point numbers, dates and times.
-/

namespace RouteModule.Toml

/-- Reads digits up to the first character that is none, underscores between them left out. -/
def moreDigits? (base : Nat) : Text → Option (Text × Text)
  | '_' :: c :: t =>
    if (Text.digitValue? base c).isSome then (moreDigits? base t).map fun r => (c :: r.1, r.2)
    else none
  | ['_'] => none
  | c :: t =>
    if (Text.digitValue? base c).isSome then (moreDigits? base t).map fun r => (c :: r.1, r.2)
    else some ([], c :: t)
  | [] => some ([], [])

def digits? (base : Nat) (t : Text) : Option (Text × Text) :=
  match t with
  | c :: _ => if (Text.digitValue? base c).isSome then moreDigits? base t else none
  | [] => none

/-- Reads the digits of a decimal number; zero ends it if it is the first. -/
def whole? : Text → Option (Text × Text)
  | '0' :: t => some (['0'], t)
  | t => digits? 10 t

/-- Reads a sign, `true` if it is negative. -/
def sign : Text → Bool × Text
  | '-' :: t => (true, t)
  | '+' :: t => (false, t)
  | t => (false, t)

def integer? (negative : Bool) (base : Nat) (digits : Text) : Option Atom := do
  let n ← Text.toNat? base digits
  let i : Int := if negative then -(n : Int) else n
  if Width.signed 63 i then some (.number (.integer i)) else none

/-- A floating point number; a negative one that is too large counts as an infinity. -/
def real? (negative : Bool) (whole places : Text) (exponent : Int) : Option Atom := do
  let n ← Text.toNat? 10 (whole ++ places)
  match Binary64.ofDecimal? negative n (exponent - places.length) with
  | some x => some (.number (.real x))
  | none => if negative then some (.notFinite "-inf") else none

def exponent? : Text → Option (Option Int × Text)
  | c :: t =>
    if c = 'e' ∨ c = 'E' then do
      let (negative, t) := sign t
      let (digits, t) ← digits? 10 t
      let n : Int := (Text.toNat? 10 digits).getD 0
      return (some (if negative then -n else n), t)
    else some (none, c :: t)
  | [] => some (none, [])

def decimal? (negative : Bool) (t : Text) : Option (Atom × Text) := do
  let (whole, t) ← whole? t
  let (places, t) ← match t with
    | '.' :: t => digits? 10 t
    | t => some ([], t)
  let (exponent, t) ← exponent? t
  let value ←
    if places.isEmpty && exponent.isNone then integer? negative 10 whole
    else real? negative whole places (exponent.getD 0)
  return (value, t)

/-- Reads an integer whose base is named by its first characters. -/
def based? (base : Nat) (t : Text) : Option (Atom × Text) := do
  let (digits, t) ← digits? base t
  return (← integer? false base digits, t)

def number? : Text → Option (Atom × Text)
  | '0' :: 'x' :: t => based? 16 t
  | '0' :: 'o' :: t => based? 8 t
  | '0' :: 'b' :: t => based? 2 t
  | t =>
    let (negative, t) := sign t
    match Text.after? "inf".toList t, Text.after? "nan".toList t with
    | some rest, _ => some (.notFinite (if negative then "-inf" else "inf"), rest)
    | none, some rest => some (.notFinite "NaN", rest)
    | none, none => decimal? negative t

/-- Reads a number of exactly so many digits within bounds. -/
def field? (width least most : Nat) (t : Text) : Option (Nat × Text) := do
  let digits := t.take width
  if digits.length = width ∧ digits.all Text.isDigit then
    let n ← Text.toNat? 10 digits
    if least ≤ n ∧ n ≤ most then some (n, t.drop width) else none
  else none

def mark? (c : Char) (t : Text) : Option Text := Text.after? [c] t

def daysOf (year month : Nat) : Nat :=
  if month = 2 then
    if year % 4 = 0 ∧ (year % 100 ≠ 0 ∨ year % 400 = 0) then 29 else 28
  else if month = 4 ∨ month = 6 ∨ month = 9 ∨ month = 11 then 30
  else 31

def skipDate? (t : Text) : Option Text := do
  let (year, t) ← field? 4 0 9999 t
  let (month, t) ← field? 2 1 12 (← mark? '-' t)
  let (_, t) ← field? 2 1 (daysOf year month) (← mark? '-' t)
  return t

def skipTime? (t : Text) : Option Text := do
  let (_, t) ← field? 2 0 23 t
  let (_, t) ← field? 2 0 59 (← mark? ':' t)
  let (_, t) ← field? 2 0 60 (← mark? ':' t)
  match t with
  | '.' :: rest =>
    let after := rest.dropWhile Text.isDigit
    return if after.length < rest.length then after else t
  | _ => return t

def skipOffset (t : Text) : Text :=
  match t with
  | c :: rest =>
    if c = 'Z' ∨ c = 'z' then rest
    else if c = '+' ∨ c = '-' then
      (do
        let (_, t) ← field? 2 0 23 rest
        let (_, t) ← field? 2 0 59 (← mark? ':' t)
        return t : Option Text).getD t
    else t
  | [] => []

def skipTimeOfDate (t : Text) : Text :=
  match t with
  | c :: rest =>
    if c = 'T' ∨ c = 't' ∨ c = ' ' then
      match skipTime? rest with
      | some rest => skipOffset rest
      | none => t
    else t
  | [] => []

def startsDate (t : Text) : Bool :=
  (t.take 4).all Text.isDigit && (t.drop 4).head? == some '-'

def startsTime (t : Text) : Bool :=
  (t.take 2).all Text.isDigit && (t.drop 2).head? == some ':'

/-- A date or a time: a mapping of parts that are of no use here. -/
def dated : Node := .mapping [(.unreadable, .unreadable)]

def scalar? (t : Text) : Option (Node × Text) :=
  if startsDate t then (skipDate? t).map fun rest => (dated, skipTimeOfDate rest)
  else if startsTime t then (skipTime? t).map fun rest => (dated, rest)
  else
    let atom (value : Atom) (rest : Text) : Node × Text :=
      (.atom (t.take (t.length - rest.length)) value, rest)
    match Text.after? "true".toList t, Text.after? "false".toList t with
    | some rest, _ => some (atom (.bool true) rest)
    | none, some rest => some (atom (.bool false) rest)
    | none, none => (number? t).map fun r => atom r.1 r.2

end RouteModule.Toml
