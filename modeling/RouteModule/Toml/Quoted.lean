import RouteModule.Text

/-!
Texts between quotes in TOML. Double quotes allow escapes and single quotes do not; three quotes of
either kind enclose a text of several lines. `render` chooses the quotes that need the fewest
escapes, and `read?` reads all four kinds.
-/

namespace RouteModule.Toml.Quoted

inductive Style where
  /-- Double quotes. -/
  | basic
  /-- Single quotes. -/
  | literal
  /-- Three double quotes. -/
  | basicLines
  /-- Three single quotes. -/
  | literalLines
  deriving DecidableEq, Repr

/-- A control other than the tab and the line feed: it cannot stand between quotes as it is. -/
def isControl (c : Char) : Bool :=
  (c.toNat < 32 && c != '\t' && c != '\n') || c.toNat == 127

/-- The length of the longest run of a character, if `run` of them stand before the text. -/
def longestRun (q : Char) : Nat → Text → Nat
  | run, [] => run
  | run, c :: t => if c = q then longestRun q (run + 1) t else max run (longestRun q 0 t)

def Style.of (t : Text) : Style :=
  let lines := t.contains '\n'
  let control := t.any isControl
  let doubles := longestRun '"' 0 t
  let singles := longestRun '\'' 0 t
  if !control && !t.contains '\\' && doubles = 0 && !lines then .basic
  else if !control && singles = 0 && !lines then .literal
  else if !control && !t.contains '\\' && doubles < 3 then .basicLines
  else if !control && singles < 3 then .literalLines
  else if lines then .basicLines
  else .basic

def escape (c : Char) : Text :=
  match c with
  | '\x08' => ['\\', 'b']
  | '\t' => ['\\', 't']
  | '\n' => ['\\', 'n']
  | '\x0c' => ['\\', 'f']
  | '\r' => ['\\', 'r']
  | '"' => ['\\', '"']
  | '\\' => ['\\', '\\']
  | c => if isControl c then ['\\', 'u'] ++ Text.asciiUpper (Text.hexPadded 4 c.toNat) else [c]

/-- A text between three double quotes, if `run` quotes stand before it: line feeds stay, and of
quotes every third. -/
def escapeLines : Nat → Text → Text
  | _, [] => []
  | run, c :: t =>
    if c = '"' then
      if run = 2 then '\\' :: '"' :: escapeLines 0 t else '"' :: escapeLines (run + 1) t
    else if c = '\n' then '\n' :: escapeLines 0 t
    else escape c ++ escapeLines 0 t

def fence (q : Char) : Text := [q, q, q]

/-- A text between three quotes starts on a line of its own if it has several. -/
def lead (t : Text) : Text := if t.contains '\n' then ['\n'] else []

def render (t : Text) : Text :=
  match Style.of t with
  | .basic => '"' :: t.flatMap escape ++ ['"']
  | .literal => '\'' :: t ++ ['\'']
  | .basicLines => fence '"' ++ lead t ++ escapeLines 0 t ++ fence '"'
  | .literalLines => fence '\'' ++ lead t ++ t ++ fence '\''

def numbered? (digits : Text) : Option Char := do
  let n ← Text.toNat? 16 digits
  if n.isValidChar then some (Char.ofNat n) else none

def readEscape? : Text → Option (Char × Text)
  | 'b' :: t => some ('\x08', t)
  | 't' :: t => some ('\t', t)
  | 'n' :: t => some ('\n', t)
  | 'f' :: t => some ('\x0c', t)
  | 'r' :: t => some ('\r', t)
  | '"' :: t => some ('"', t)
  | '\\' :: t => some ('\\', t)
  | 'u' :: t => (numbered? (t.take 4)).bind fun c => if t.length < 4 then none else some (c, t.drop 4)
  | 'U' :: t => (numbered? (t.take 8)).bind fun c => if t.length < 8 then none else some (c, t.drop 8)
  | _ => none

/-- A character that stands for itself between quotes. -/
def isPlain (c : Char) : Bool := !isControl c && c != '\n'

def readLine? (q : Char) : Nat → Text → Option (Text × Text)
  | 0, _ => none
  | _ + 1, [] => none
  | fuel + 1, c :: t =>
    if c = q then some ([], t)
    else if c = '\\' ∧ q = '"' then do
      let (d, t) ← readEscape? t
      let (s, rest) ← readLine? q fuel t
      return (d :: s, rest)
    else if isPlain c then do
      let (s, rest) ← readLine? q fuel t
      return (c :: s, rest)
    else none

def isBlank (c : Char) : Bool := c == ' ' || c == '\t'

def afterBreak? : Text → Option Text
  | '\n' :: t => some t
  | '\r' :: '\n' :: t => some t
  | _ => none

def skipGap : Text → Text
  | '\r' :: '\n' :: t => skipGap t
  | c :: t => if isBlank c || c = '\n' then skipGap t else c :: t
  | [] => []

/-- Reads from behind three quotes to the next three; up to two more quotes after those belong to
the text. A backslash at the end of a line joins it to the next text. -/
def readLines? (q : Char) : Nat → Text → Option (Text × Text)
  | 0, _ => none
  | _ + 1, [] => none
  | fuel + 1, c :: t =>
    match Text.after? (fence q) (c :: t) with
    | some rest =>
      let more := (rest.takeWhile (· = q)).take 2
      some (more, rest.drop more.length)
    | none =>
      if c = '\\' ∧ q = '"' then
        if (afterBreak? (t.dropWhile isBlank)).isSome then readLines? q fuel (skipGap t)
        else do
          let (d, t) ← readEscape? t
          let (s, rest) ← readLines? q fuel t
          return (d :: s, rest)
      else
        match afterBreak? (c :: t) with
        | some t => do
          let (s, rest) ← readLines? q fuel t
          return ('\n' :: s, rest)
        | none =>
          if isPlain c then do
            let (s, rest) ← readLines? q fuel t
            return (c :: s, rest)
          else none

def readOne? : Text → Option (Text × Text)
  | c :: t => if c = '"' ∨ c = '\'' then readLine? c (t.length + 1) t else none
  | [] => none

/-- Reads a text with its quotes; a line break right behind three quotes is left out. -/
def read? (t : Text) : Option (Text × Text) :=
  match Text.after? (fence '"') t, Text.after? (fence '\'') t with
  | some body, _ => readLines? '"' (body.length + 1) ((afterBreak? body).getD body)
  | none, some body => readLines? '\'' (body.length + 1) ((afterBreak? body).getD body)
  | none, none => readOne? t

end RouteModule.Toml.Quoted
