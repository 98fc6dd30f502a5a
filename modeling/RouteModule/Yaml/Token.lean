import RouteModule.Text

/-!
The tokens of a YAML text, and places in the text. Those that are neither scalars nor indicators are
read here: anchors, tags and directives.
-/

namespace RouteModule.Yaml

inductive Style where
  | plain
  | quoted
  | literal
  | folded
  deriving DecidableEq, Repr

/-- A token. The starts and ends of blocks stand for changes of the indentation. Tags are bytes, since
they may be written byte by byte. -/
inductive Token where
  | version (major minor : Nat)
  | tagHandle (handle : Text) (start : Bytes)
  | documentStart
  | documentEnd
  | blockSequence
  | blockMapping
  | blockEnd
  | flowSequence
  | flowSequenceEnd
  | flowMapping
  | flowMappingEnd
  | blockEntry
  | flowEntry
  | key
  | value
  | alias (name : Text)
  | anchor (name : Text)
  | tag (handle : Text) (suffix : Bytes)
  | scalar (t : Text) (style : Style)
  | streamEnd
  deriving DecidableEq, Repr

def isBreak (c : Char) : Bool :=
  c == '\n' || c == '\r' || c.toNat == 0x85 || c.toNat == 0x2028 || c.toNat == 0x2029

def isBlank (c : Char) : Bool := c == ' ' || c == '\t'

def isAlpha (c : Char) : Bool := c.isAlphanum || c == '_' || c == '-'

/-- Whether a text ends here or goes on with a blank or a line break. -/
def atGap : Text → Bool
  | [] => true
  | c :: _ => isBlank c || isBreak c

def atBreak : Text → Bool
  | [] => true
  | c :: _ => isBreak c

/-- A place in a text: what follows, and how far the place is from the start of the text in bytes,
from its first line, and from the start of its line in characters. -/
structure Cursor where
  rest : Text
  index : Nat
  line : Nat
  column : Nat
  deriving Repr

namespace Cursor

def start (t : Text) : Cursor := ⟨t, 0, 0, 0⟩

def next (c : Cursor) : Cursor :=
  { c with
    rest := c.rest.drop 1
    index := c.index + Text.byteLength (c.rest.take 1)
    column := c.column + 1 }

def skip (c : Cursor) (n : Nat) : Cursor :=
  { c with
    rest := c.rest.drop n
    index := c.index + Text.byteLength (c.rest.take n)
    column := c.column + n }

/-- Passes over a line break, if there is one, and gives the text that it stands for: two of the
breaks stand for themselves, the others for a line feed. -/
def lineBreak (c : Cursor) : Text × Cursor :=
  match c.rest with
  | '\r' :: '\n' :: rest => (['\n'], ⟨rest, c.index + 2, c.line + 1, 0⟩)
  | b :: rest =>
    if isBreak b then
      (if b.toNat = 0x2028 ∨ b.toNat = 0x2029 then [b] else ['\n'],
        ⟨rest, c.index + (Text.charBytes b).length, c.line + 1, 0⟩)
    else ([], c)
  | [] => ([], c)

/-- The place where a new line starts, whether or not a break is there. -/
def newLine (c : Cursor) : Cursor :=
  if c.column = 0 then c else { c with line := c.line + 1, column := 0 }

def takeWhile (p : Char → Bool) (c : Cursor) : Text × Cursor :=
  let run := c.rest.takeWhile p
  (run, c.skip run.length)

def skipBlanks (c : Cursor) : Cursor := (c.takeWhile isBlank).2

def skipComment (c : Cursor) : Cursor :=
  if c.rest.head? = some '#' then (c.takeWhile (!isBreak ·)).2 else c

/-- Whether a marker of documents stands here: three times the same character at the start of a
line, with a gap behind. -/
def atMarker (mark : Char) (c : Cursor) : Bool :=
  c.column == 0 && c.rest.take 3 == [mark, mark, mark] && atGap (c.rest.drop 3)

def atAnyMarker (c : Cursor) : Bool := c.atMarker '-' || c.atMarker '.'

end Cursor

def endsAnchor : Text → Bool
  | [] => true
  | c :: _ => isBlank c || isBreak c || "?:,]\x7d%@\x60".toList.contains c

def anchorName? (c : Cursor) : Option (Text × Cursor) :=
  let (name, c) := c.next.takeWhile isAlpha
  if name.isEmpty || !endsAnchor c.rest then none else some (name, c)

/-- A character of tags; `wide` allows some more. -/
def isTagChar (wide : Bool) (c : Char) : Bool :=
  isAlpha c || ";/?:@&=+$.!~*'()".toList.contains c || (wide && ",[]".toList.contains c)

def tagByte? : Text → Option UInt8
  | '%' :: a :: b :: _ => do
    let x ← Text.digitValue? 16 a
    let y ← Text.digitValue? 16 b
    return (x * 16 + y).toUInt8
  | _ => none

def byteCount (b : UInt8) : Nat :=
  let n := b.toNat
  if n < 0x80 then 1 else if 0xC0 ≤ n ∧ n < 0xE0 then 2 else if 0xE0 ≤ n ∧ n < 0xF0 then 3
  else if 0xF0 ≤ n ∧ n < 0xF8 then 4 else 0

/-- Reads the written bytes of one character: the first of them says how many there are, and the
others carry the mark of those that go on. Nothing else is asked of them. -/
def tagEscape? (c : Cursor) : Option (Bytes × Cursor) := do
  let count := byteCount (← tagByte? c.rest)
  if count = 0 then none
  let bytes ← (List.range count).mapM fun i => tagByte? (c.rest.drop (3 * i))
  if (bytes.drop 1).any fun b => b.toNat / 0x40 ≠ 2 then none
  return (bytes, c.skip (3 * count))

def tagBytes? (wide : Bool) : Nat → Cursor → Option (Bytes × Cursor)
  | 0, c => some ([], c)
  | fuel + 1, c =>
    match c.rest with
    | [] => some ([], c)
    | d :: _ =>
      if d = '%' then do
        let (bytes, c) ← tagEscape? c
        let (more, c) ← tagBytes? wide fuel c
        return (bytes ++ more, c)
      else if isTagChar wide d then do
        let (more, c) ← tagBytes? wide fuel c.next
        return (Text.charBytes d ++ more, c)
      else some ([], c)

/-- Reads the handle of a tag: an exclamation mark, perhaps with a word and another one behind. -/
def handle? (c : Cursor) : Option (Text × Cursor) :=
  if c.rest.head? = some '!' then
    let (word, c) := c.next.takeWhile isAlpha
    if c.rest.head? = some '!' then some ('!' :: word ++ ['!'], c.next) else some ('!' :: word, c)
  else none

/-- Bytes up to the first one that is zero, where a tag ends. -/
def untilZero (bytes : Bytes) : Bytes := bytes.takeWhile (· ≠ 0)

/-- Reads a tag: its handle, which is empty for a tag that is written out, and what follows it. -/
def tag? (flow : Bool) (c : Cursor) : Option ((Text × Bytes) × Cursor) := do
  let (tag, c) ←
    if (c.rest.drop 1).head? = some '<' then do
      let (bytes, c) ← tagBytes? true c.rest.length (c.skip 2)
      if bytes.isEmpty || c.rest.head? ≠ some '>' then none
      some (([], untilZero bytes), c.next)
    else do
      let (handle, c) ← handle? c
      let (bytes, c) ← tagBytes? false c.rest.length c
      if handle.length ≥ 2 ∧ handle.getLast? = some '!' then
        if bytes.isEmpty then none else some ((handle, untilZero bytes), c)
      else
        let suffix := untilZero (Text.toBytes (handle.drop 1) ++ bytes)
        some (if suffix.isEmpty then ([], Text.toBytes ['!']) else (['!'], suffix), c)
  if atGap c.rest || (flow && c.rest.head? = some ',') then some (tag, c) else none

def versionPart? (c : Cursor) : Option (Nat × Cursor) := do
  let (digits, c) := c.takeWhile Text.isDigit
  if 9 < digits.length then none
  return (← Text.toNat? 10 digits, c)

def directive? (c : Cursor) : Option (Token × Cursor) := do
  let (name, c) := c.next.takeWhile isAlpha
  if name.isEmpty || !atGap c.rest then none
  let (token, c) ←
    if name = "YAML".toList then do
      let (major, c) ← versionPart? c.skipBlanks
      if c.rest.head? ≠ some '.' then none
      let (minor, c) ← versionPart? c.next
      some (.version major minor, c)
    else if name = "TAG".toList then do
      let (handle, c) ← handle? c.skipBlanks
      if handle.length ≥ 2 ∧ handle.getLast? ≠ some '!' then none
      if !c.rest.head?.any isBlank then none
      let c := c.skipBlanks
      let (start, c) ← tagBytes? true c.rest.length c
      if start.isEmpty || !atGap c.rest then none
      some (.tagHandle handle (untilZero start), c)
    else none
  let c := c.skipBlanks.skipComment
  if atBreak c.rest then some (token, c.lineBreak.2) else none

end RouteModule.Yaml
