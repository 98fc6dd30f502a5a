import RouteModule.Yaml.Token

/-!
The scalars of a YAML text: plain ones, ones between quotes, and blocks of lines. All three fold line
breaks in their own way.
-/

namespace RouteModule.Yaml

structure Gap where
  /-- The blanks before the first break. -/
  blanks : Text
  /-- The first break. -/
  lead : Text
  /-- The other breaks. -/
  more : Text
  /-- Some line break, written or escaped, belongs to the gap. -/
  broken : Bool

namespace Gap

def none : Gap := ⟨[], [], [], false⟩

/-- What a gap stands for: a single break stands for a space, and of several the first is dropped. -/
def folded (g : Gap) : Text :=
  if g.broken then
    if g.lead = ['\n'] then if g.more = [] then [' '] else g.more else g.lead ++ g.more
  else g.blanks

/-- Reads blanks and breaks; `ok` says where a tab behind a break may stand. -/
def read (ok : Cursor → Bool) : Nat → Gap → Cursor → Option (Gap × Cursor)
  | 0, g, c => some (g, c)
  | fuel + 1, g, c =>
    match c.rest with
    | [] => some (g, c)
    | b :: _ =>
      if isBlank b then
        if g.broken then if b = '\t' && !ok c then Option.none else read ok fuel g c.next
        else read ok fuel { g with blanks := g.blanks ++ [b] } c.next
      else if isBreak b then
        let (t, c) := c.lineBreak
        if g.broken then read ok fuel { g with more := g.more ++ t } c
        else read ok fuel ⟨[], t, [], true⟩ c
      else some (g, c)

end Gap

section Plain

/-- Whether a plain scalar ends before a text, blanks aside. -/
def endsPlain (flow : Bool) : Text → Bool
  | ':' :: t => atGap t
  | c :: _ => flow && (c == ',' || c == '[' || c == ']' || c == '\x7b' || c == '\x7d')
  | [] => true

/-- A colon that can neither end a plain scalar nor belong to it. -/
def isStrayColon (flow : Bool) : Text → Bool
  | ':' :: c :: _ =>
    flow && (c == ',' || c == '?' || c == '[' || c == ']' || c == '\x7b' || c == '\x7d')
  | _ => false

/-- The length of the run of a plain scalar without blanks; `none` at a stray colon. -/
def plainRun? (flow : Bool) : Text → Option Nat
  | [] => some 0
  | c :: t =>
    if isBlank c || isBreak c then some 0
    else if isStrayColon flow (c :: t) then none
    else if endsPlain flow (c :: t) then some 0
    else (plainRun? flow t).map (· + 1)

/-- Reads a plain scalar in lines indented by at least `indent`, having read `t` and then a gap; says
whether a line break follows it. -/
def plainFrom? (flow : Bool) (indent : Int) :
    Nat → Text → Gap → Cursor → Option (Text × Bool × Cursor)
  | 0, _, _, _ => none
  | fuel + 1, t, g, c =>
    if c.atAnyMarker || c.rest.head? = some '#' then some (t, g.broken, c)
    else do
      let n ← plainRun? flow c.rest
      let run := c.rest.take n
      let c := c.skip n
      let t := if n = 0 then t else t ++ g.folded ++ run
      let g := if n = 0 then g else Gap.none
      if atGap c.rest && !c.rest.isEmpty then do
        let (g, c) ← Gap.read (fun c => indent ≤ c.column) c.rest.length g c
        if !flow && (c.column : Int) < indent then return (t, g.broken, c)
        else plainFrom? flow indent fuel t g c
      else return (t, g.broken, c)

def plain? (flow : Bool) (indent : Int) (c : Cursor) : Option (Text × Bool × Cursor) :=
  plainFrom? flow indent (c.rest.length + 1) [] Gap.none c

end Plain

section Quoted

def escaped? : Char → Option Nat
  | '0' => some 0x00
  | 'a' => some 0x07
  | 'b' => some 0x08
  | 't' => some 0x09
  | '\t' => some 0x09
  | 'n' => some 0x0A
  | 'v' => some 0x0B
  | 'f' => some 0x0C
  | 'r' => some 0x0D
  | 'e' => some 0x1B
  | ' ' => some 0x20
  | '"' => some 0x22
  | '/' => some 0x2F
  | '\\' => some 0x5C
  | 'N' => some 0x85
  | '_' => some 0xA0
  | 'L' => some 0x2028
  | 'P' => some 0x2029
  | _ => none

def codeLength? : Char → Option Nat
  | 'x' => some 2
  | 'u' => some 4
  | 'U' => some 8
  | _ => none

def escape? : Text → Option (Char × Nat)
  | [] => none
  | c :: t =>
    match escaped? c with
    | some n => some (Char.ofNat n, 1)
    | none => do
      let length ← codeLength? c
      let digits := t.take length
      if digits.length < length then none
      let n ← Text.toNat? 16 digits
      if 0xD800 ≤ n ∧ n ≤ 0xDFFF ∨ 0x10FFFF < n then none
      else return (Char.ofNat n, length + 1)

/-- Reads a run without blanks between double quotes: the text, whether it ends with an escaped line
break, and the place behind. -/
def doubleRun? : Nat → Cursor → Option (Text × Bool × Cursor)
  | 0, c => some ([], false, c)
  | fuel + 1, c =>
    match c.rest with
    | [] => some ([], false, c)
    | '"' :: _ => some ([], false, c)
    | '\\' :: t =>
      if !t.isEmpty && atBreak t then some ([], true, c.next.lineBreak.2)
      else do
        let (d, n) ← escape? t
        let (run, b, c) ← doubleRun? fuel (c.skip (n + 1))
        return (d :: run, b, c)
    | d :: _ =>
      if isBlank d || isBreak d then some ([], false, c)
      else do
        let (run, b, c) ← doubleRun? fuel c.next
        return (d :: run, b, c)

def singleRun : Nat → Cursor → Text × Cursor
  | 0, c => ([], c)
  | fuel + 1, c =>
    match c.rest with
    | [] => ([], c)
    | '\'' :: '\'' :: _ =>
      let (run, c) := singleRun fuel (c.skip 2)
      ('\'' :: run, c)
    | '\'' :: _ => ([], c)
    | d :: _ =>
      if isBlank d || isBreak d then ([], c)
      else
        let (run, c) := singleRun fuel c.next
        (d :: run, c)

def quotedFrom? (single : Bool) : Nat → Cursor → Option (Text × Cursor)
  | 0, _ => none
  | fuel + 1, c =>
    if c.atAnyMarker then none
    else do
      let (run, escapedBreak, c) ←
        if single then
          let (run, c) := singleRun c.rest.length c
          some (run, false, c)
        else doubleRun? c.rest.length c
      match c.rest with
      | [] => none
      | d :: _ =>
        if d = (if single then '\'' else '"') then return (run, c.next)
        else do
          let (g, c) ← Gap.read (fun _ => true) c.rest.length ⟨[], [], [], escapedBreak⟩ c
          let (t, c) ← quotedFrom? single fuel c
          return (run ++ g.folded ++ t, c)

def quoted? (single : Bool) (c : Cursor) : Option (Text × Cursor) :=
  quotedFrom? single (c.rest.length + 1) c.next

end Quoted

section Block

/-- What becomes of the breaks at the end of a block. -/
inductive Chomp where
  | strip
  | clip
  | keep
  deriving DecidableEq, Repr

def chomp? : Text → Option Chomp
  | '+' :: _ => some .keep
  | '-' :: _ => some .strip
  | _ => none

/-- A number of spaces, which is not zero; `none` for zero, and no number if there is no digit. -/
def increment? (c : Cursor) : Option (Nat × Cursor) :=
  match c.rest with
  | d :: _ =>
    if Text.isDigit d then if d = '0' then none else some (d.toNat - 48, c.next) else some (0, c)
  | [] => some (0, c)

/-- The signs at the head of a block: the breaks at its end and its indentation, in any order. -/
def blockHead? (c : Cursor) : Option (Chomp × Nat × Cursor) :=
  match chomp? c.rest with
  | some chomp => (increment? c.next).map fun (n, c) => (chomp, n, c)
  | none => do
    let (n, c) ← increment? c
    match if n = 0 then none else chomp? c.rest with
    | some chomp => return (chomp, n, c.next)
    | none => return (.clip, n, c)

/-- Passes over spaces up to a column, or over all spaces if the column is not known. -/
def skipSpaces (indent : Nat) (c : Cursor) : Cursor :=
  let spaces := (c.rest.takeWhile (· == ' ')).length
  c.skip (if indent = 0 then spaces else min spaces (indent - c.column))

/-- Reads empty lines and the indentation of the next line; gives the breaks and the largest
indentation that was met. A tab in the indentation is refused. -/
def emptyLines? (indent : Nat) : Nat → Cursor → Option (Text × Nat × Cursor)
  | 0, _ => none
  | fuel + 1, c =>
    let c := skipSpaces indent c
    if (indent = 0 ∨ c.column < indent) ∧ c.rest.head? = some '\t' then none
    else if !c.rest.isEmpty && atBreak c.rest then do
      let widest := c.column
      let (b, c) := c.lineBreak
      let (more, other, c) ← emptyLines? indent fuel c
      return (b ++ more, max widest other, c)
    else some ([], c.column, c)

/-- Reads the lines of a block that are indented by `indent`: `lead` is the break behind the line
before and `more` the empty lines since, `wasBlank` says whether the line before started with a blank.
Gives the text and the breaks at its end. -/
def blockLines? (literal : Bool) (indent : Nat) :
    Nat → Text → Text → Bool → Cursor → Option (Text × Text × Text × Cursor)
  | 0, _, _, _, _ => none
  | fuel + 1, lead, more, wasBlank, c =>
    if c.column = indent ∧ c.rest ≠ [] then do
      let blank := c.rest.head?.any isBlank
      let gap :=
        if !literal && lead = ['\n'] && !wasBlank && !blank then
          (if more = [] then [' '] else []) ++ more
        else lead ++ more
      let (line, c) := c.takeWhile (!isBreak ·)
      let (lead, c) := c.lineBreak
      let (more, _, c) ← emptyLines? indent (c.rest.length + 1) c
      let (t, lead, more, c) ← blockLines? literal indent fuel lead more blank c
      return (gap ++ line ++ t, lead, more, c)
    else some ([], lead, more, c)

def block? (literal : Bool) (parent : Int) (c : Cursor) : Option (Text × Cursor) := do
  let (chomp, n, c) ← blockHead? c.next
  let c := c.skipBlanks.skipComment
  if !atBreak c.rest then none
  let (_, c) := c.lineBreak
  let given : Nat := if n = 0 then 0 else (max parent 0).toNat + n
  let (more, widest, c) ← emptyLines? given (c.rest.length + 1) c
  let indent := if given = 0 then max (max widest (parent + 1).toNat) 1 else given
  let (t, lead, more, c) ← blockLines? literal indent (c.rest.length + 1) [] more false c
  let ending := match chomp with
    | .strip => []
    | .clip => lead
    | .keep => lead ++ more
  return (t ++ ending, c)

end Block

end RouteModule.Yaml
