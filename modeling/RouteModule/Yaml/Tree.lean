import RouteModule.Yaml.Plain
import RouteModule.Yaml.Token.Scanner

/-!
A YAML text as a document. The tokens are read from left to right; where they end before the stream
does, or do not fit, the tree has a `broken` node. An alias is a reference, by a number that its
anchor has, to the node that the anchor was put on.

An anchor gets the number of different anchors before it. Where a name is given again the numbers
fall behind the nodes, and two anchors may get the same number; the one that starts later has it.
-/

namespace RouteModule.Yaml

abbrev Handle := Text × Bytes

/-- The tokens that are left, the numbers of the anchors so far, and the nodes under the numbers. No
tokens are left where the text breaks off. -/
structure Source where
  tokens : List Token
  anchors : List (Text × Nat)
  targets : List (Nat × Node)
  deriving Repr

namespace Source

def onto (s : Source) (tokens : List Token) : Source := { s with tokens := tokens }

def stop (s : Source) : Source := s.onto []

/-- Numbers an anchor; no other node has the number any more. -/
def number (s : Source) (anchor : Text) : Nat × Source :=
  let n := s.anchors.length
  (n, { s with
    anchors := (anchor, n) :: s.anchors.filter (·.1 ≠ anchor)
    targets := s.targets.filter (·.1 ≠ n) })

/-- Puts a node under a number, unless a node that starts later is there. -/
def put (s : Source) (n : Nat) (node : Node) : Source :=
  if (s.targets.lookup n).isSome then s else { s with targets := (n, node) :: s.targets }

def table (s : Source) : Array Node :=
  let size := (s.targets.map (·.1 + 1)).foldl max 0
  s.targets.foldl (fun table t => table.setIfInBounds t.1 t.2) (Array.replicate size .broken)

def under (s : Source) (anchor : Option Text) (read : Source → Node × Source) : Node × Source :=
  match anchor with
  | none => read s
  | some a =>
    let (n, s) := s.number a
    let (node, s) := read s
    (node, s.put n node)

end Source

structure Properties where
  anchor : Option Text
  tag : Option Bytes
  deriving Repr

/-- The whole of a tag whose handle stands for something. -/
def wholeTag? (handles : List Handle) (handle : Text) (suffix : Bytes) : Option Bytes :=
  if handle.isEmpty then some suffix else (handles.lookup handle).map (· ++ suffix)

def properties? (handles : List Handle) :
    List Token → Option (Properties × List Token)
  | .anchor a :: .tag h s :: rest => (wholeTag? handles h s).map fun t => (⟨some a, some t⟩, rest)
  | .tag h s :: .anchor a :: rest => (wholeTag? handles h s).map fun t => (⟨some a, some t⟩, rest)
  | .anchor a :: rest => some (⟨some a, none⟩, rest)
  | .tag h s :: rest => (wholeTag? handles h s).map fun t => (⟨none, some t⟩, rest)
  | rest => some (⟨none, none⟩, rest)

/-- Whether a tag is one of its author: it starts with an exclamation mark. -/
def isAuthored (tag : Bytes) : Bool := tag.take 1 = Text.toBytes ['!']

/-- The name that a tag of its author gives, which is the mark itself if nothing follows it. A tag
whose bytes are no text gives none. -/
def authorTag? (tag : Bytes) : Option Text :=
  if isAuthored tag then
    (Text.ofBytes? tag).map fun t => if t.length = 1 then t else t.drop 1
  else none

/-- A scalar under a tag that gives no name. Where a truth value or an integer is wanted, a literal
block under the tag for it counts as one. -/
def castNode (tag : Bytes) (t : Text) (style : Style) : Node :=
  let untagged := if style = .plain then ofPlain t else .text t
  if isAuthored tag then .cast t false untagged untagged
  else
    let value := ofTagged tag t
    let direct :=
      if style = .literal ∧ (tag = coreTag "bool" ∨ tag = coreTag "int") then
        match value with
        | .mistagged _ => untagged
        | value => value
      else untagged
    .cast t (style = .plain ∧ tag = coreTag "null") direct value

def scalarNode (tag : Option Bytes) (t : Text) (style : Style) : Node :=
  let untagged : Node := .atom t (if style = .plain then ofPlain t else .text t)
  match tag with
  | none => untagged
  | some tag =>
    match authorTag? tag with
    | some name => .tagged name untagged
    | none => castNode tag t style

/-- A collection under a tag; only a name that its author gives changes it. -/
def collectionNode (tag : Option Bytes) (node : Node) : Node :=
  match tag.bind authorTag? with
  | some name => .tagged name node
  | none => node

/-- Whether a node without content stands before these tokens: an indicator follows that belongs to
the block around it. -/
def atBlockGap : List Token → Bool
  | .key :: _ | .value :: _ | .blockEnd :: _ => true
  | _ => false

/-- Whether a node without content stands before these tokens in a flow collection. -/
def atFlowGap (finish : Token) : List Token → Bool
  | .flowEntry :: _ => true
  | t :: _ => t = finish
  | [] => false

def brokenEntry : Node × Node := (.broken, .broken)

mutual

/-- Reads a node; in a block it may be a block itself, and as the value of a mapping also a sequence
that is not indented. -/
def readNode (handles : List Handle) (block loose : Bool) : Nat → Source → Node × Source
  | 0, s => (.broken, s.stop)
  | fuel + 1, s =>
    match s.tokens with
    | .alias a :: rest =>
      match s.anchors.lookup a with
      | some n => (.reference n, s.onto rest)
      | none => (.broken, s.stop)
    | tokens =>
      match properties? handles tokens with
      | none => (.broken, s.stop)
      | some (p, tokens) =>
        let blank : Node × Source :=
          if p.anchor.isSome || p.tag.isSome then
            (s.onto tokens).under p.anchor fun s => (scalarNode p.tag [] .plain, s)
          else (.broken, s.stop)
        match tokens with
        | [] => (.broken, s.stop)
        | .scalar t style :: rest =>
          (s.onto rest).under p.anchor fun s => (scalarNode p.tag t style, s)
        | .flowSequence :: rest =>
          (s.onto rest).under p.anchor fun s =>
            let (items, s) := readFlowItems handles true fuel s
            (collectionNode p.tag (.sequence items), s)
        | .flowMapping :: rest =>
          (s.onto rest).under p.anchor fun s =>
            let (entries, s) := readFlowEntries handles true fuel s
            (collectionNode p.tag (.mapping entries), s)
        | .blockSequence :: rest =>
          if block then
            (s.onto rest).under p.anchor fun s =>
              let (items, s) := readItems handles fuel s
              (collectionNode p.tag (.sequence items), s)
          else blank
        | .blockMapping :: rest =>
          if block then
            (s.onto rest).under p.anchor fun s =>
              let (entries, s) := readEntries handles fuel s
              (collectionNode p.tag (.mapping entries), s)
          else blank
        | .blockEntry :: _ =>
          if loose then
            (s.onto tokens).under p.anchor fun s =>
              let (items, s) := readLooseItems handles fuel s
              (collectionNode p.tag (.sequence items), s)
          else blank
        | _ => blank

def readItems (handles : List Handle) : Nat → Source → List Node × Source
  | 0, s => ([.broken], s.stop)
  | fuel + 1, s =>
    match s.tokens with
    | .blockEnd :: rest => ([], s.onto rest)
    | .blockEntry :: rest =>
      let (node, s) := match rest with
        | .blockEntry :: _ | .blockEnd :: _ => (Node.blank, s.onto rest)
        | _ => readNode handles true false fuel (s.onto rest)
      let (items, s) := readItems handles fuel s
      (node :: items, s)
    | _ => ([.broken], s.stop)

/-- Reads the items of a sequence that is not indented. -/
def readLooseItems (handles : List Handle) : Nat → Source → List Node × Source
  | 0, s => ([.broken], s.stop)
  | fuel + 1, s =>
    match s.tokens with
    | [] => ([.broken], s)
    | .blockEntry :: rest =>
      let (node, s) := match rest with
        | .blockEntry :: _ => (Node.blank, s.onto rest)
        | _ =>
          if atBlockGap rest then (Node.blank, s.onto rest)
          else readNode handles true false fuel (s.onto rest)
      let (items, s) := readLooseItems handles fuel s
      (node :: items, s)
    | _ => ([], s)

def readPart (handles : List Handle) : Nat → Source → Node × Source
  | 0, s => (.broken, s.stop)
  | fuel + 1, s =>
    if atBlockGap s.tokens then (.blank, s) else readNode handles true true fuel s

def readEntries (handles : List Handle) : Nat → Source → List (Node × Node) × Source
  | 0, s => ([brokenEntry], s.stop)
  | fuel + 1, s =>
    match s.tokens with
    | .blockEnd :: rest => ([], s.onto rest)
    | .key :: rest =>
      let (key, s) := readPart handles fuel (s.onto rest)
      let (value, s) := match s.tokens with
        | .value :: rest => readPart handles fuel (s.onto rest)
        | [] => (.broken, s)
        | _ => (.blank, s)
      let (entries, s) := readEntries handles fuel s
      ((key, value) :: entries, s)
    | _ => ([brokenEntry], s.stop)

def readFlowPart (handles : List Handle) (finish : Token) : Nat → Source → Node × Source
  | 0, s => (.broken, s.stop)
  | fuel + 1, s =>
    if atFlowGap finish s.tokens then (.blank, s) else readNode handles false false fuel s

def readFlowValue (handles : List Handle) (finish : Token) : Nat → Source → Node × Source
  | 0, s => (.broken, s.stop)
  | fuel + 1, s =>
    match s.tokens with
    | .value :: rest => readFlowPart handles finish fuel (s.onto rest)
    | [] => (.broken, s)
    | _ => (.blank, s)

def readFlowEntries (handles : List Handle) (first : Bool) :
    Nat → Source → List (Node × Node) × Source
  | 0, s => ([brokenEntry], s.stop)
  | fuel + 1, s =>
    match s.tokens with
    | .flowMappingEnd :: rest => ([], s.onto rest)
    | tokens =>
      let tokens := if first then some tokens else match tokens with
        | .flowEntry :: rest => some rest
        | _ => none
      match tokens with
      | none => ([brokenEntry], s.stop)
      | some (.flowMappingEnd :: rest) => ([], s.onto rest)
      | some tokens =>
        let (key, s) := match tokens with
          | .key :: .value :: rest => (Node.blank, s.onto (.value :: rest))
          | .key :: rest => readFlowPart handles .flowMappingEnd fuel (s.onto rest)
          | _ => readNode handles false false fuel (s.onto tokens)
        let (value, s) := match tokens with
          | .key :: _ => readFlowValue handles .flowMappingEnd fuel s
          | _ => if s.tokens.isEmpty then (.broken, s) else (.blank, s)
        let (entries, s) := readFlowEntries handles false fuel s
        ((key, value) :: entries, s)

/-- Reads the items of a flow sequence; a key makes a mapping of one entry. -/
def readFlowItems (handles : List Handle) (first : Bool) : Nat → Source → List Node × Source
  | 0, s => ([.broken], s.stop)
  | fuel + 1, s =>
    match s.tokens with
    | .flowSequenceEnd :: rest => ([], s.onto rest)
    | tokens =>
      let tokens := if first then some tokens else match tokens with
        | .flowEntry :: rest => some rest
        | _ => none
      match tokens with
      | none => ([.broken], s.stop)
      | some (.flowSequenceEnd :: rest) => ([], s.onto rest)
      | some tokens =>
        let (node, s) := match tokens with
          | .key :: rest => readPair handles fuel (s.onto rest)
          | _ => readNode handles false false fuel (s.onto tokens)
        let (items, s) := readFlowItems handles false fuel s
        (node :: items, s)

/-- Reads a mapping of one entry from behind the indicator of its key. A key without content takes
the token behind it with it. -/
def readPair (handles : List Handle) : Nat → Source → Node × Source
  | 0, s => (.broken, s.stop)
  | fuel + 1, s =>
    let (key, s) := match s.tokens with
      | .value :: rest => (Node.blank, s.onto rest)
      | _ =>
        if atFlowGap .flowSequenceEnd s.tokens then (Node.blank, s.onto (s.tokens.drop 1))
        else readNode handles false false fuel s
    let (value, s) := readFlowValue handles .flowSequenceEnd fuel s
    if s.tokens.isEmpty then (.mapping [(key, value), brokenEntry], s)
    else (.mapping [(key, value)], s)

end

def defaultHandles : List Handle :=
  [(['!'], Text.toBytes ['!']), (['!', '!'], coreTag "")]

/-- Reads directives: whether the version was given, and the handles. A directive may not be given
twice, and only two versions are known. -/
def directives? : List Token → Bool → List Handle → Option (List Handle × List Token)
  | .version major minor :: rest, versioned, handles =>
    if versioned || major ≠ 1 || (minor ≠ 1 && minor ≠ 2) then none
    else directives? rest true handles
  | .tagHandle handle start :: rest, versioned, handles =>
    if (handles.lookup handle).isSome then none
    else directives? rest versioned ((handle, start) :: handles)
  | rest, _, handles => some (handles ++ defaultHandles, rest)

def atDocumentGap : List Token → Bool
  | .version _ _ :: _ | .tagHandle _ _ :: _ | .documentStart :: _ | .documentEnd :: _
  | .streamEnd :: _ => true
  | _ => false

/-- Whether nothing but the ends of the document and of the stream is left. -/
def isOver (tokens : List Token) : Bool :=
  tokens.dropWhile (· = .documentEnd) = [.streamEnd]

def readRoot (tokens : List Token) : Node × Source :=
  let fuel := 4 * tokens.length + 8
  let source (tokens : List Token) : Source := ⟨tokens, [], []⟩
  match tokens with
  | [.streamEnd] => (.blank, source tokens)
  | .version _ _ :: _ | .tagHandle _ _ :: _ | .documentStart :: _ =>
    match directives? tokens false [] with
    | some (handles, .documentStart :: rest) =>
      if atDocumentGap rest then (.blank, source rest)
      else readNode handles true false fuel (source rest)
    | _ => (.broken, source [])
  | _ => readNode defaultHandles true false fuel (source tokens)

def bracketed (inside : Nat × Bool) : Nat × Bool :=
  (inside.1 + if inside.2 then 2 else 1, inside.2)

mutual

/-- The number of the marks that make a node up, the start and the end of a collection being two of
them, and whether the node is all there. -/
def marks : Node → Nat × Bool
  | .sequence items => bracketed (itemMarks items)
  | .mapping es => bracketed (entryMarks es)
  | .tagged _ node => marks node
  | .broken => (0, false)
  | _ => (1, true)

def itemMarks : List Node → Nat × Bool
  | [] => (0, true)
  | node :: rest =>
    let (n, whole) := marks node
    if whole then
      let (m, whole) := itemMarks rest
      (n + m, whole)
    else (n, false)

def entryMarks : List (Node × Node) → Nat × Bool
  | [] => (0, true)
  | (key, value) :: rest =>
    let (n, whole) := marks key
    if whole then
      let (m, whole) := marks value
      if whole then
        let (k, whole) := entryMarks rest
        (n + m + k, whole)
      else (n + m, false)
    else (n, false)

end

/-- Reads a YAML text as a document. When it is read, a hundred references may be followed for each
mark that makes it up. -/
def document (t : Text) : Document :=
  let (root, rest) := readRoot (tokens t)
  { root
    complete := isOver rest.tokens
    targets := rest.table
    jumps := 100 * (marks root).1 }

end RouteModule.Yaml
