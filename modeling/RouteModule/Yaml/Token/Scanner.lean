import RouteModule.Yaml.Token
import RouteModule.Yaml.Token.Scalar

/-!
The tokens of a YAML text in their order. Where a colon makes a key of what stands before it on its
line, the token of the key, and of the mapping that starts with it, are put in at that place later;
until then the place is kept as a candidate. A text that breaks off has the tokens before the break
that no candidate could still change. Texts are looked through piece by piece, and a piece with a
character that is not allowed cannot be read at all.
-/

namespace RouteModule.Yaml

/-- A place that may turn out to be the start of a key. -/
structure Candidate where
  /-- A key has to start here, by the indentation. -/
  required : Bool
  /-- The number of tokens in front of the place. -/
  position : Nat
  index : Nat
  line : Nat
  column : Nat
  deriving Repr

structure Scanner where
  cursor : Cursor
  /-- The tokens so far, the last one first, and their number. -/
  tokens : List Token
  count : Nat
  /-- The column of the innermost block, and of the blocks around it; -1 outside of all blocks. -/
  indent : Int
  indents : List Int
  /-- The candidates: the first for the innermost flow collection, the last for the block. -/
  candidates : List (Option Candidate)
  /-- A key may start here. -/
  keyAllowed : Bool
  /-- The end has been read. -/
  finished : Bool
  deriving Repr

namespace Scanner

def start (t : Text) : Scanner := ⟨.start t, [], 0, -1, [], [none], true, false⟩

def inFlow (s : Scanner) : Bool := 1 < s.candidates.length

def push (s : Scanner) (t : Token) : Scanner :=
  { s with tokens := t :: s.tokens, count := s.count + 1 }

def insertAt (s : Scanner) (position : Nat) (t : Token) : Scanner :=
  let later := s.count - position
  { s with tokens := s.tokens.take later ++ t :: s.tokens.drop later, count := s.count + 1 }

def toNextToken : Nat → Scanner → Scanner
  | 0, s => s
  | fuel + 1, s =>
    let c := s.cursor
    let c := if c.column = 0 ∧ c.rest.head? = some '\ufeff' then c.next else c
    let tabs := s.inFlow || !s.keyAllowed
    let c := (c.takeWhile fun d => d == ' ' || (tabs && d == '\t')).2
    let c := c.skipComment
    if !c.rest.isEmpty && atBreak c.rest then
      let allowed := s.keyAllowed || !s.inFlow
      toNextToken fuel { s with cursor := c.lineBreak.2, keyAllowed := allowed }
    else { s with cursor := c }

/-- Whether a candidate is on an earlier line or too far back to be a key. -/
def isStale (s : Scanner) (k : Candidate) : Bool :=
  k.line < s.cursor.line || k.index + 1024 < s.cursor.index

/-- Drops the candidates that cannot be keys any more; `none` if one of them had to be a key. -/
def dropStale? (s : Scanner) : Option Scanner := do
  let keep (k : Option Candidate) : Option (Option Candidate) :=
    match k with
    | none => some none
    | some k =>
      if s.isStale k then
        if k.required then none else some none
      else some (some k)
  return { s with candidates := ← s.candidates.mapM keep }

def dropCandidate? (s : Scanner) : Option Scanner :=
  match s.candidates with
  | some k :: rest => if k.required then none else some { s with candidates := none :: rest }
  | _ => some s

/-- Makes a candidate of the place, if a key may start here. -/
def addCandidate? (s : Scanner) : Option Scanner :=
  if s.keyAllowed then do
    let s ← s.dropCandidate?
    let c := s.cursor
    let required := !s.inFlow && s.indent = c.column
    return { s with
      candidates := some ⟨required, s.count, c.index, c.line, c.column⟩ :: s.candidates.drop 1 }
  else some s

/-- Opens a block at a column, if it is further in; its token is put in at a position. -/
def openBlock (s : Scanner) (column : Int) (position : Nat) (t : Token) : Scanner :=
  if !s.inFlow && s.indent < column then
    insertAt { s with indent := column, indents := s.indent :: s.indents } position t
  else s

def closeBlocks : List Int → Int → Scanner → Scanner
  | [], _, s => s
  | outer :: rest, column, s =>
    if !s.inFlow && column < s.indent then
      closeBlocks rest column { s.push .blockEnd with indent := outer, indents := rest }
    else s

def unroll (s : Scanner) (column : Int) : Scanner := closeBlocks s.indents column s

def skip (s : Scanner) (n : Nat) : Scanner := { s with cursor := s.cursor.skip n }

/-- Whether a key may start behind this place. -/
def allowKey (s : Scanner) (allowed : Bool) : Scanner := { s with keyAllowed := allowed }

/-- The end of the text, which counts as the start of a line: no candidate is left behind it. -/
def readEnd? (s : Scanner) : Option Scanner := do
  let s ← (s.unroll (-1)).dropCandidate?
  let s ← { s with cursor := s.cursor.newLine }.dropStale?
  return { (s.allowKey false).push .streamEnd with finished := true }

/-- A token at the start of a line, which ends all blocks. -/
def readOutside? (s : Scanner) (read : Cursor → Option (Token × Cursor)) : Option Scanner := do
  let s ← (s.unroll (-1)).dropCandidate?
  let (t, c) ← read s.cursor
  return { (s.allowKey false).push t with cursor := c }

def readFlowStart? (s : Scanner) (t : Token) : Option Scanner := do
  let s ← s.addCandidate?
  return (({ s with candidates := none :: s.candidates }.allowKey true).skip 1).push t

def readFlowEnd? (s : Scanner) (t : Token) : Option Scanner := do
  let s ← s.dropCandidate?
  let candidates := if s.inFlow then s.candidates.drop 1 else s.candidates
  return (({ s with candidates := candidates }.allowKey false).skip 1).push t

def readFlowEntry? (s : Scanner) : Option Scanner := do
  let s ← s.dropCandidate?
  return ((s.allowKey true).skip 1).push .flowEntry

def readBlockEntry? (s : Scanner) : Option Scanner := do
  if !s.inFlow && !s.keyAllowed then none
  let s := s.openBlock s.cursor.column s.count .blockSequence
  let s ← s.dropCandidate?
  return ((s.allowKey true).skip 1).push .blockEntry

def readKey? (s : Scanner) : Option Scanner := do
  if !s.inFlow && !s.keyAllowed then none
  let s := s.openBlock s.cursor.column s.count .blockMapping
  let s ← s.dropCandidate?
  return ((s.allowKey (!s.inFlow)).skip 1).push .key

/-- The sign of a value, which makes a key of the candidate, if there is one. -/
def readValue? (s : Scanner) : Option Scanner :=
  match s.candidates with
  | some k :: rest =>
    let s := s.insertAt k.position .key
    let s := s.openBlock k.column k.position .blockMapping
    some ((({ s with candidates := none :: rest }.allowKey false).skip 1).push .value)
  | _ =>
    if !s.inFlow && !s.keyAllowed then none
    else
      let s := s.openBlock s.cursor.column s.count .blockMapping
      some (((s.allowKey (!s.inFlow)).skip 1).push .value)

def readMark? (s : Scanner) (read : Cursor → Option (Token × Cursor)) : Option Scanner := do
  let s ← s.addCandidate?
  let (t, c) ← read s.cursor
  return { (s.allowKey false).push t with cursor := c }

def readBlock? (s : Scanner) (literal : Bool) : Option Scanner := do
  let s ← s.dropCandidate?
  let (t, c) ← block? literal s.indent s.cursor
  return { (s.allowKey true).push (.scalar t (if literal then .literal else .folded)) with cursor := c }

def readPlain? (s : Scanner) : Option Scanner := do
  let s ← s.addCandidate?
  let (t, broken, c) ← plain? s.inFlow (s.indent + 1) s.cursor
  return { (s.allowKey broken).push (.scalar t .plain) with cursor := c }

def startsPlain (flow : Bool) : Text → Bool
  | [] => false
  | c :: t =>
    !(isBlank c || isBreak c || "-?:,[]\x7b\x7d#&*!|>'\"%@\x60".toList.contains c) ||
    (c == '-' && !t.head?.any isBlank) ||
    (!flow && (c == '?' || c == ':') && !atGap t)

def readToken? (s : Scanner) : Option Scanner :=
  let c := s.cursor
  let flow := s.inFlow
  match c.rest with
  | [] => s.readEnd?
  | d :: t =>
    if c.column = 0 ∧ d = '%' then s.readOutside? directive?
    else if c.atMarker '-' then s.readOutside? fun c => some (.documentStart, c.skip 3)
    else if c.atMarker '.' then s.readOutside? fun c => some (.documentEnd, c.skip 3)
    else if d = '[' then s.readFlowStart? .flowSequence
    else if d = '\x7b' then s.readFlowStart? .flowMapping
    else if d = ']' then s.readFlowEnd? .flowSequenceEnd
    else if d = '\x7d' then s.readFlowEnd? .flowMappingEnd
    else if d = ',' then s.readFlowEntry?
    else if d = '-' ∧ atGap t then s.readBlockEntry?
    else if d = '?' ∧ (flow || atGap t) then s.readKey?
    else if d = ':' ∧ (flow || atGap t) then s.readValue?
    else if d = '*' then s.readMark? fun c => (anchorName? c).map fun (n, c) => (.alias n, c)
    else if d = '&' then s.readMark? fun c => (anchorName? c).map fun (n, c) => (.anchor n, c)
    else if d = '!' then s.readMark? fun c => (tag? flow c).map fun (t, c) => (.tag t.1 t.2, c)
    else if d = '|' ∧ !flow then s.readBlock? true
    else if d = '>' ∧ !flow then s.readBlock? false
    else if d = '\'' then
      s.readMark? fun c => (quoted? true c).map fun (t, c) => (.scalar t .quoted, c)
    else if d = '"' then
      s.readMark? fun c => (quoted? false c).map fun (t, c) => (.scalar t .quoted, c)
    else if startsPlain flow c.rest then s.readPlain?
    else none

/-- Whether so many characters can be read from here, or all that are left, of a text that can be
read up to `limit`. -/
def canSee (s : Scanner) (limit n : Nat) : Bool :=
  s.cursor.index + Text.byteLength (s.cursor.rest.take n) ≤ limit

/-- One step in a text that can be read up to `limit`: everything up to the next token, and that
token. Four characters are looked at to tell what token it is, and one behind it to tell that it ends
there. -/
def step? (limit : Nat) (s : Scanner) : Option Scanner := do
  let s := toNextToken (s.cursor.rest.length + 1) s
  if !s.canSee limit 4 then none
  let s ← s.dropStale?
  let s ← (s.unroll s.cursor.column).readToken?
  if s.canSee limit 1 then some s else none

/-- The tokens that no candidate can change any more. -/
def settled (s : Scanner) : List Token :=
  let isOpen (k : Candidate) : Bool := k.required || !s.isStale k
  let positions := s.candidates.filterMap fun k => (k.filter isOpen).map (·.position)
  s.tokens.reverse.take (positions.foldl min s.count)

/-- Reads up to the end, or as far as possible, in a text that can be read up to `limit`. -/
def run (limit : Nat) : Nat → Scanner → List Token
  | 0, s => s.settled
  | fuel + 1, s =>
    if s.finished then s.tokens.reverse
    else
      match s.step? limit with
      | some s => run limit fuel s
      | none => s.settled

end Scanner

def isAllowed (c : Char) : Bool :=
  let n := c.toNat
  n == 9 || n == 0xA || n == 0xD || (0x20 ≤ n && n ≤ 0x7E) || n == 0x85 ||
  (0xA0 ≤ n && n ≤ 0xD7FF) || (0xE000 ≤ n && n ≤ 0xFFFD) || 0x10000 ≤ n

/-- The number of bytes of a text that are looked through at once. -/
def pieceLimit : Nat := 16384

/-- How far a text can be read, in bytes from its start: to its end, or to the start of the first
piece with a character that is not allowed. A piece is as long as it can be with whole characters;
the one that is being looked through starts at `piece`, and the text that is left at `index`. -/
def readable (piece index : Nat) : Text → Nat
  | [] => index
  | c :: t =>
    let next := index + (Text.charBytes c).length
    let piece := if piece + pieceLimit < next then index else piece
    if isAllowed c then readable piece next t else piece

/-- The tokens of a text. The last one is the end of the stream, unless the text breaks off. -/
def tokens (t : Text) : List Token :=
  Scanner.run (readable 0 0 t) (t.length + 2) (Scanner.start t)

end RouteModule.Yaml
