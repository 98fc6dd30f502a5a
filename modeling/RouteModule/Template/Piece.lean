import RouteModule.Template.Expr.Reader

/-!
A template as a sequence of pieces: runs of text, and tags. A tag may have a dash on either side,
which asks for the blanks on that side to be dropped. The tags that make one template out of several
are not among those that are known.
-/

namespace RouteModule.Template

/-- A tag. -/
inductive Tag where
  /-- The value of an expression. -/
  | print (e : Expr)
  | comment
  /-- Text that is not looked into, and whether blanks are dropped at its start and at its end. -/
  | raw (start finish : Bool) (t : Text)
  | assign (name : Text) (e : Expr)
  /-- The start of a loop over the items or the members of a value. -/
  | loop (keyName : Option Text) (valueName : Text) (source : Expr)
  | endLoop
  /-- The start of what depends on a condition. -/
  | cond (e : Expr)
  /-- The start of what depends on a further condition. -/
  | orCond (e : Expr)
  | endCond
  | otherwise
  deriving DecidableEq, Repr

/-- A piece of a template. -/
inductive Piece where
  | text (t : Text)
  /-- A tag, and whether blanks are dropped before and behind it. -/
  | tag (left right : Bool) (tag : Tag)
  deriving DecidableEq, Repr

def startsTag : Text → Bool
  | '\x7b' :: c :: _ => c == '\x7b' || c == '%' || c == '#'
  | _ => false

/-- The text up to the first tag, and the rest. -/
def textRun : Text → Text × Text
  | [] => ([], [])
  | c :: t =>
    if startsTag (c :: t) then ([], c :: t)
    else
      let (run, rest) := textRun t
      (c :: run, rest)

def dash (t : Text) : Bool × Text :=
  match t with
  | '-' :: t => (true, t)
  | t => (false, t)

def printEnd : Reader Bool := Reader.oneOf [("-\x7d\x7d", true), ("\x7d\x7d", false)]

def tagEnd : Reader Bool := Reader.oneOf [("-%\x7d", true), ("%\x7d", false)]

def tagStart? : Reader Bool
  | '\x7b' :: '%' :: t => some (dash t)
  | _ => none

def commentEnd? : Reader Bool
  | '-' :: '#' :: '\x7d' :: t => some (true, t)
  | '#' :: '\x7d' :: t => some (false, t)
  | _ => none

/-- The length of a comment up to its end, whether that has a dash, and the rest. -/
def commentBody? : Text → Option (Nat × Bool × Text)
  | [] => none
  | c :: t =>
    match commentEnd? (c :: t) with
    | some (right, rest) => some (0, right, rest)
    | none => (commentBody? t).map fun r => (r.1 + 1, r.2)

def bareTag? (w : String) : Reader (Bool × Bool) := fun t => do
  let (left, t) ← tagStart? t
  let (_, t) ← Reader.mark w t
  let (right, t) ← tagEnd t
  return ((left, right), t)

/-- The text up to the tag that ends it, the dashes of that tag, and the rest. -/
def rawBody? : Text → Option (Text × (Bool × Bool) × Text)
  | [] => none
  | c :: t =>
    match bareTag? "endraw" (c :: t) with
    | some (dashes, rest) => some ([], dashes, rest)
    | none => (rawBody? t).map fun r => (c :: r.1, r.2)

def tagBody? : Reader Tag := fun t =>
  let assign : Reader Tag := fun t => do
    let (_, t) ← Reader.word "set" t
    let (name, t) ← Reader.spaced name? t
    let (_, t) ← Reader.mark "=" t
    let (e, t) ← value? t
    return (.assign name e, t)
  let loop : Reader Tag := fun t => do
    let (_, t) ← Reader.word "for" t
    let (first, t) ← Reader.spaced name? t
    let second : Reader Text
      | ',' :: t => Reader.spaced name? t
      | _ => none
    let ((keyName, valueName), t) := match second t with
      | some (second, t) => ((some first, second), t)
      | none => ((none, first), t)
    if !t.head?.any Reader.isSpace then none
    let (_, t) ← Reader.word "in" t
    let (source, t) ← source? t
    return (.loop keyName valueName source, t)
  let withCondition (w : String) (make : Expr → Tag) : Reader Tag := fun t => do
    let (_, t) ← Reader.word w t
    let (e, t) ← logic? t
    return (make e, t)
  let bare : Reader Tag := Reader.oneOf [("endfor", .endLoop), ("endif", .endCond),
    ("else", .otherwise)]
  Reader.or assign (Reader.or loop (Reader.or (withCondition "if" .cond)
    (Reader.or (withCondition "elif" .orCond) bare))) t

def tag? : Reader Piece
  | '\x7b' :: '\x7b' :: t => do
    let (left, t) := dash t
    let (e, t) ← value? t
    let (right, t) ← printEnd t
    return (.tag left right (.print e), t)
  | '\x7b' :: '#' :: t => do
    let (left, t) := dash t
    match ← commentBody? t with
    | (0, _, _) => none
    | (_, right, t) => return (.tag left right .comment, t)
  | t =>
    match bareTag? "raw" t with
    | some ((left, start), t) => do
      let (body, (finish, right), t) ← rawBody? t
      return (.tag left right (.raw start finish body), t)
    | none => do
      let (left, t) ← tagStart? t
      let (inside, t) ← tagBody? t
      let (right, t) ← tagEnd t
      return (.tag left right inside, t)

/-- The pieces of a text, within a bound on their number; a tag that is not of the grammar has no
reading. -/
def piecesWithin : Nat → Text → Option (List Piece)
  | _, [] => some []
  | 0, _ => none
  | fuel + 1, t =>
    if startsTag t then do
      let (piece, rest) ← tag? t
      return piece :: (← piecesWithin fuel rest)
    else do
      let (run, rest) := textRun t
      return .text run :: (← piecesWithin fuel rest)

def pieces? (t : Text) : Option (List Piece) := piecesWithin t.length t

end RouteModule.Template
