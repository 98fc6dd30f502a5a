import RouteModule.Yaml.Plain
import RouteModule.Yaml.Token

/-!
Texts as the values of a YAML mapping. A text is written plain if it then reads back as itself, and
otherwise with the quotes that it needs; a text of several lines is written as a literal block.
`Yaml.entry` writes a key with its value, and the line breaks inside and behind the value.
-/

namespace RouteModule.Yaml

def isPrintable (c : Char) : Bool :=
  let n := c.toNat
  n == 0x0A || (0x20 ≤ n && n ≤ 0x7E) || (0xA0 ≤ n && n ≤ 0xFFFD && n != 0xFEFF) || 0x10000 ≤ n

/-- Whether a character that satisfies `p` stands before one that satisfies `q`. -/
def hasPair (p q : Char → Bool) : Text → Bool
  | c :: d :: t => (p c && q d) || hasPair p q (d :: t)
  | _ => false

def isSpace (c : Char) : Bool := c == ' '

/-- Whether a colon stands before a gap. -/
def hasKeyMark : Text → Bool
  | [] => false
  | c :: t => (c == ':' && atGap t) || hasKeyMark t

/-- Whether a text starts like something else than a plain scalar. -/
def startsMarked (t : Text) : Bool :=
  Text.startsWith ['-', '-', '-'] t || Text.startsWith ['.', '.', '.'] t ||
  match t with
  | c :: rest => "#,[]\x7b\x7d&*!|>'\"%@\x60".toList.contains c || ((c == '?' || c == '-') && atGap rest)
  | [] => true

/-- Whether something inside a text ends a plain scalar. -/
def isCutShort (t : Text) : Bool :=
  hasKeyMark t || hasPair (fun c => isBlank c || isBreak c) (· == '#') t

/-- Whether a text has a space or a line break at an end, or any line break. -/
def isRagged (t : Text) : Bool :=
  t.any isBreak || t.head?.any isSpace || t.getLast?.any isSpace

/-- Whether a plain scalar would stand for something else than the text. -/
def isMisread (t : Text) : Bool :=
  match ofPlain t with
  | .text _ => hasLeadingZero t
  | _ => true

def isSpecial (t : Text) : Bool := !t.all isPrintable || hasPair isSpace isBreak t

inductive TextStyle where
  | plain
  | single
  | double
  | literal
  deriving DecidableEq, Repr

def TextStyle.of (t : Text) : TextStyle :=
  if t.contains '\n' then
    if isSpecial t || t.getLast?.any isSpace then .double else .literal
  else if isSpecial t || hasPair isBreak isSpace t then .double
  else if isMisread t || startsMarked t || isCutShort t || isRagged t then .single
  else .plain

def numberEscape (n : Nat) : Text :=
  let digits (width : Nat) : Text := Text.asciiUpper (Text.hexPadded width n)
  if n < 0x100 then '\\' :: 'x' :: digits 2
  else if n < 0x10000 then '\\' :: 'u' :: digits 4
  else '\\' :: 'U' :: digits 8

def escape (c : Char) : Text :=
  match c with
  | '\x00' => ['\\', '0']
  | '\x07' => ['\\', 'a']
  | '\x08' => ['\\', 'b']
  | '\t' => ['\\', 't']
  | '\n' => ['\\', 'n']
  | '\x0b' => ['\\', 'v']
  | '\x0c' => ['\\', 'f']
  | '\r' => ['\\', 'r']
  | '\x1b' => ['\\', 'e']
  | '"' => ['\\', '"']
  | '\\' => ['\\', '\\']
  | '\u0085' => ['\\', 'N']
  | '\u2028' => ['\\', 'L']
  | '\u2029' => ['\\', 'P']
  | c => if isPrintable c then [c] else numberEscape c.toNat

def indentation : Text := [' ', ' ']

/-- A text between single quotes; `start` at the start of a line inside it. -/
def singleBody (start : Bool) : Text → Text
  | [] => if start then indentation else []
  | c :: t =>
    if isBreak c then c :: singleBody true t
    else
      (if start then indentation else []) ++ (if c = '\'' then ['\'', '\''] else [c]) ++
        singleBody false t

/-- The lines of a literal block; `start` at the start of a line. -/
def literalBody (start : Bool) : Text → Text
  | [] => []
  | c :: t =>
    if isBreak c then c :: literalBody true t
    else (if start then indentation else []) ++ c :: literalBody false t

/-- The header of a literal block: the indentation if it could not be seen from the text, and what
becomes of line breaks at the end if there is not exactly one. -/
def literalHeader (t : Text) : Text :=
  let hint : Text := if t.head?.any fun c => isSpace c || isBreak c then ['2'] else []
  let keep : Text := match t.reverse with
    | [_] => if t.all isBreak then ['+'] else ['-']
    | c :: d :: _ => if isBreak c then if isBreak d then ['+'] else [] else ['-']
    | [] => ['-']
  '|' :: hint ++ keep

def valueText (t : Text) : Text :=
  match TextStyle.of t with
  | .plain => t ++ ['\n']
  | .single => '\'' :: singleBody false t ++ ['\'', '\n']
  | .double => '"' :: t.flatMap escape ++ ['"', '\n']
  | .literal =>
    literalHeader t ++ '\n' :: literalBody true t ++
      (if t.getLast?.any isBreak then [] else ['\n'])

def entry (key : Text) (value : Text) : Text := key ++ ':' :: ' ' :: value

end RouteModule.Yaml
