import RouteModule.Document

/-!
The JSON format as a reader of documents. The reader follows the text from left to right and keeps
what it has read before a mistake; the mistake itself becomes a `broken` node. Two kinds of scalars
are `unreadable`: texts with an unpaired surrogate, and numbers beyond the floating point range.
-/

namespace RouteModule.Json

def isSpace (c : Char) : Bool := c == ' ' || c == '\n' || c == '\t' || c == '\r'

def skipSpace (t : Text) : Text := t.dropWhile isSpace

def hex4? : Text → Option (Nat × Text)
  | a :: b :: c :: d :: rest => do
    let digit := Text.digitValue? 16
    return ((((← digit a) * 16 + (← digit b)) * 16 + (← digit c)) * 16 + (← digit d), rest)
  | _ => none

def unescape? : Char → Option Char
  | '"' => some '"'
  | '\\' => some '\\'
  | '/' => some '/'
  | 'b' => some '\x08'
  | 'f' => some '\x0c'
  | 'n' => some '\n'
  | 'r' => some '\r'
  | 't' => some '\t'
  | _ => none

/-- What stands between quotes: the text, or `none` in place of it where a surrogate has no
partner; and what follows the closing quote. -/
abbrev Quoted := Option Text × Text

def Quoted.push (c : Char) : Quoted → Quoted
  | (some t, rest) => (some (c :: t), rest)
  | (none, rest) => (none, rest)

/-- The first half of a surrogate pair. -/
def isHigh (n : Nat) : Bool := 0xD800 ≤ n && n < 0xDC00

/-- The second half of a surrogate pair. -/
def isLow (n : Nat) : Bool := 0xDC00 ≤ n && n < 0xE000

/-- Reads from behind an opening quote to the closing one; `none` if there is no closing quote, or
an escape or a control that the format does not know comes before it. -/
def readQuoted? : Nat → Text → Option Quoted
  | 0, _ => none
  | _ + 1, [] => none
  | _ + 1, '"' :: rest => some (some [], rest)
  | fuel + 1, '\\' :: 'u' :: rest =>
    match hex4? rest with
    | none => none
    | some (n, rest) =>
      if isHigh n then
        match Text.after? ['\\', 'u'] rest with
        | none => (readQuoted? fuel rest).map fun q => (none, q.2)
        | some low =>
          match hex4? low with
          | none => none
          | some (m, after) =>
            if isLow m then
              (readQuoted? fuel after).map
                (Quoted.push (Char.ofNat (0x10000 + (n - 0xD800) * 0x400 + (m - 0xDC00))))
            else (readQuoted? fuel rest).map fun q => (none, q.2)
      else if isLow n then (readQuoted? fuel rest).map fun q => (none, q.2)
      else (readQuoted? fuel rest).map (Quoted.push (Char.ofNat n))
  | fuel + 1, '\\' :: c :: rest =>
    match unescape? c with
    | some d => (readQuoted? fuel rest).map (Quoted.push d)
    | none => none
  | fuel + 1, c :: rest =>
    if c.toNat < 32 then none else (readQuoted? fuel rest).map (Quoted.push c)

def readText (t : Text) : Node × Option Text :=
  match readQuoted? (t.length + 1) t with
  | some (some s, rest) => (.atom s (.text s), some rest)
  | some (none, rest) => (.unreadable, some rest)
  | none => (.broken, none)

def spanDigits (t : Text) : Text × Text := t.span Text.isDigit

/-- The places after a point, if there is one; `none` if no digit follows the point. -/
def readPlaces? : Text → Option (Text × Text)
  | '.' :: rest =>
    let (places, rest) := spanDigits rest
    if places.isEmpty then none else some (places, rest)
  | rest => some ([], rest)

/-- The exponent, if there is one; `none` if the mark has no digits. -/
def readExponent? : Text → Option (Option Int × Text)
  | c :: rest =>
    if c = 'e' ∨ c = 'E' then
      let (negative, rest) := match rest with
        | '-' :: rest => (true, rest)
        | '+' :: rest => (false, rest)
        | rest => (false, rest)
      let (digits, rest) := spanDigits rest
      if digits.isEmpty then none
      else
        let n : Int := (Text.toNat? 10 digits).getD 0
        some (some (if negative then -n else n), rest)
    else some (none, c :: rest)
  | [] => some (none, [])

/-- Goes on with a natural number by digits as long as it has room in 64 bits: the number, and the
digits that are left over. -/
def takeDigits : Nat → Text → Nat × Text
  | n, [] => (n, [])
  | n, c :: rest =>
    let next := n * 10 + (c.toNat - '0'.toNat)
    if Width.unsigned 64 next then takeDigits next rest else (n, c :: rest)

/-- Divides a magnitude by `10 ^ 308`, but does not go on with zero. -/
def divTimes : Nat → Nat → Nat
  | 0, x => x
  | n + 1, x => if x = 0 then 0 else divTimes n (Binary64.div x (Binary64.tenTo 308))

/-- A magnitude times a power of ten, if it is finite. Each power of ten that a floating point number
comes near to is one factor, and the product or quotient is rounded again. -/
def scale? (x : Nat) : Int → Option Nat
  | .ofNat e =>
    if x = 0 then some 0
    else if 308 < e then none
    else
      let product := Binary64.mul x (Binary64.tenTo e)
      if product < Binary64.infinity then some product else none
  | .negSucc e => some (Binary64.div (divTimes (e / 308) x) (Binary64.tenTo (e % 308 + 1)))

/-- The floating point number `significand * 10 ^ exponent`, if it is finite. It need not be the
nearest one, since the significand is rounded before it is scaled. -/
def real? (negative : Bool) (significand : Nat) (exponent : Int) : Option Binary64 :=
  (scale? (Binary64.round significand 1) exponent).map fun x => ⟨negative, x⟩

/-- The floating point number with the given digits, places and exponent. Digits that have no room in
the significand only count for the exponent, and such places not at all. -/
def decimal? (negative : Bool) (whole places : Text) (exponent : Int) : Option Binary64 :=
  let (n, extra) := takeDigits 0 whole
  let (significand, left) := takeDigits n places
  real? negative significand (exponent + extra.length - (places.length - left.length : Nat))

/-- The number written by a sign, digits, places and an exponent; `none` if it is too large. An
integer outside 64 bits, and the negative zero, are floating point numbers. -/
def number? (negative : Bool) (whole places : Text) (exponent : Option Int) : Option Number :=
  let digits := (Text.toNat? 10 whole).getD 0
  let signed : Int := if negative then -(digits : Int) else digits
  if places.isEmpty && exponent.isNone && Number.fits signed && !(negative && digits == 0) then
    some (.integer signed)
  else (decimal? negative whole places (exponent.getD 0)).map .real

def readNumber (t : Text) : Node × Option Text :=
  let (negative, body) := match t with
    | '-' :: rest => (true, rest)
    | rest => (false, rest)
  let (whole, rest) := spanDigits body
  match whole with
  | [] => (.broken, none)
  | '0' :: _ :: _ => (.broken, none)
  | whole =>
    match readPlaces? rest with
    | none => (.broken, none)
    | some (places, rest) =>
      match readExponent? rest with
      | none => (.broken, none)
      | some (exponent, rest) =>
        match number? negative whole places exponent with
        | some n => (.atom (t.take (t.length - rest.length)) (.number n), some rest)
        | none => (.unreadable, some rest)

def readWord (word : Text) (value : Atom) (t : Text) : Node × Option Text :=
  match Text.after? word t with
  | some rest => (.atom word value, some rest)
  | none => (.broken, none)

mutual

/-- Reads a value: its node, and what follows it unless the text breaks off inside. -/
def readValue : Nat → Text → Node × Option Text
  | 0, _ => (.broken, none)
  | fuel + 1, t =>
    match skipSpace t with
    | '"' :: rest => readText rest
    | '[' :: rest =>
      let (items, rest) := match skipSpace rest with
        | ']' :: rest => ([], some rest)
        | rest => readItems fuel rest
      (.sequence items, rest)
    | '\x7b' :: rest =>
      let (entries, rest) := match skipSpace rest with
        | '\x7d' :: rest => ([], some rest)
        | rest => readEntries fuel rest
      (.mapping entries, rest)
    | 'n' :: rest => readWord "null".toList .null ('n' :: rest)
    | 't' :: rest => readWord "true".toList (.bool true) ('t' :: rest)
    | 'f' :: rest => readWord "false".toList (.bool false) ('f' :: rest)
    | c :: rest => if c = '-' ∨ Text.isDigit c then readNumber (c :: rest) else (.broken, none)
    | [] => (.broken, none)

def readItems : Nat → Text → List Node × Option Text
  | 0, _ => ([.broken], none)
  | fuel + 1, t =>
    match readValue fuel t with
    | (node, none) => ([node], none)
    | (node, some rest) =>
      match skipSpace rest with
      | ']' :: rest => ([node], some rest)
      | ',' :: rest =>
        let (items, rest) := readItems fuel rest
        (node :: items, rest)
      | _ => ([node, .broken], none)

/-- Reads the members of an object of which at least one is left. A name that is not a text ends
the reading, but its node is kept. -/
def readEntries : Nat → Text → List (Node × Node) × Option Text
  | 0, _ => ([(.broken, .broken)], none)
  | fuel + 1, t =>
    match skipSpace t with
    | '"' :: rest =>
      match readText rest with
      | (name, none) => ([(name, .broken)], none)
      | (name, some rest) =>
        match skipSpace rest with
        | ':' :: rest =>
          match readValue fuel rest with
          | (value, none) => ([(name, value)], none)
          | (value, some rest) =>
            match skipSpace rest with
            | '\x7d' :: rest => ([(name, value)], some rest)
            | ',' :: rest =>
              let (entries, rest) := readEntries fuel rest
              ((name, value) :: entries, rest)
            | _ => ([(name, value), (.broken, .broken)], none)
        | _ => ([(name, .broken)], none)
    | rest => ([((readValue fuel rest).1, .broken)], none)

end

def document (t : Text) : Document :=
  let (root, rest) := readValue (t.length + 1) t
  let complete := match rest with
    | some rest => (skipSpace rest).isEmpty
    | none => false
  { root, complete }

end RouteModule.Json
