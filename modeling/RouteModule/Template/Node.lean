import RouteModule.Template.Piece

/-!
A template as a tree: loops and conditions contain what stands between their tags. The tree is built
piece by piece, with the loops and conditions that are still open on a stack. Where a loop says more
than once what stands for it for want of items, the last time counts. On the way the blanks
are dropped that dashes point to; only what a loop does for want of items stays as it is written.
-/

namespace RouteModule.Template

/-- A part of a template. -/
inductive Node where
  | text (t : Text)
  | print (e : Expr)
  | assign (name : Text) (e : Expr)
  /-- What is repeated for each item or member of a value, and what stands for it if there is
  none. -/
  | loop (keyName : Option Text) (valueName : Text) (source : Expr) (body otherwise : List Node)
  | cond (test : Expr) (body otherwise : List Node)
  deriving Repr

namespace Node

mutual

def equals : Node → Node → Bool
  | text t, text u => t == u
  | print e, print f => e == f
  | assign n e, assign m f => n == m && e == f
  | loop k v e body otherwise, loop l w f others rest =>
    k == l && v == w && e == f && equalList body others && equalList otherwise rest
  | cond e body otherwise, cond f others rest =>
    e == f && equalList body others && equalList otherwise rest
  | _, _ => false

def equalList : List Node → List Node → Bool
  | [], [] => true
  | a :: rest, b :: others => equals a b && equalList rest others
  | _, _ => false

end

mutual

theorem equals_iff : (a b : Node) → (equals a b = true ↔ a = b)
  | text t, b => by cases b <;> simp [equals]
  | print e, b => by cases b <;> simp [equals]
  | assign n e, b => by cases b <;> simp [equals]
  | loop k v e body otherwise, b => by
    cases b <;> simp [equals, equalList_iff body, equalList_iff otherwise, and_assoc]
  | cond e body otherwise, b => by
    cases b <;> simp [equals, equalList_iff body, equalList_iff otherwise, and_assoc]

theorem equalList_iff : (as bs : List Node) → (equalList as bs = true ↔ as = bs)
  | [], bs => by cases bs <;> simp [equalList]
  | a :: as, bs => by cases bs <;> simp [equalList, equals_iff a, equalList_iff as]

end

instance : DecidableEq Node := fun a b => decidable_of_iff _ (equals_iff a b)

end Node

/-- What is open around the part that is being built. -/
inductive Opening where
  /-- A loop with the parts in front of it. -/
  | loop (before : List Node) (keyName : Option Text) (valueName : Text) (source : Expr)
  /-- What stands for a loop without items, with the loop and its body; and whether blanks were
  already left as they are around the loop. -/
  | loopOtherwise (before : List Node) (keyName : Option Text) (valueName : Text) (source : Expr)
    (body : List Node) (verbatim : Bool)
  /-- A condition, with the parts in front of it and the earlier conditions with their bodies. -/
  | cond (before : List Node) (earlier : List (Expr × List Node)) (test : Expr)
  /-- What stands for conditions of which none holds. -/
  | condOtherwise (before : List Node) (earlier : List (Expr × List Node))
  deriving Repr

/-- A template that is being built: what is open, the parts since then, whether the next text loses
the blanks at its start, and whether blanks are left as they are. -/
structure Building where
  openings : List Opening
  nodes : List Node
  trimNext : Bool
  verbatim : Bool
  deriving Repr

/-- Drops blanks at the ends that a dash points to. -/
def trimSides (start finish : Bool) (t : Text) : Text :=
  let t := if start then Text.trimStart t else t
  if finish then Text.trimEnd t else t

def textNode (t : Text) : List Node := if t = [] then [] else [.text t]

/-- An empty text, which keeps a later tag from dropping the blanks in front of it. -/
def barrier : List Node := [.text []]

/-- Drops the blanks at the end, if the last part is a text. -/
def trimLast : List Node → List Node
  | [] => []
  | [.text t] => textNode (Text.trimEnd t)
  | node :: rest => node :: trimLast rest

/-- Conditions one after the other, as conditions inside what stands for the ones before. -/
def nestConditions (otherwise : List Node) : List (Expr × List Node) → List Node
  | [] => otherwise
  | (test, body) :: rest => [.cond test body (nestConditions otherwise rest)]

namespace Building

def start : Building := ⟨[], [], false, false⟩

def trimmed (b : Building) (left : Bool) : List Node :=
  if left && !b.verbatim then trimLast b.nodes else b.nodes

def add (b : Building) (left right : Bool) (parts : List Node) : Building :=
  { b with nodes := b.trimmed left ++ parts, trimNext := right }

def enter (b : Building) (right : Bool) (opening : Opening) (openings : List Opening) : Building :=
  { b with openings := opening :: openings, nodes := [], trimNext := right }

def leave (b : Building) (right : Bool) (nodes : List Node) (openings : List Opening) : Building :=
  { b with openings := openings, nodes := nodes, trimNext := right }

/-- Adds a piece; `none` if a tag ends or continues what is not open. -/
def step (b : Building) : Piece → Option Building
  | .text t =>
    let t := if b.trimNext && !b.verbatim then Text.trimStart t else t
    some { b with nodes := b.nodes ++ textNode t, trimNext := false }
  | .tag left right tag =>
    match tag, b.openings with
    | .print e, _ => some (b.add left right [.print e])
    | .comment, _ => some (b.add left right barrier)
    | .raw start finish t, _ =>
      let t := if b.verbatim then t else trimSides start finish t
      some (b.add left right (textNode t ++ barrier))
    | .assign name e, _ => some (b.add left right [.assign name e])
    | .loop keyName valueName source, os =>
      some (b.enter right (.loop (b.trimmed left) keyName valueName source) os)
    | .cond test, os => some (b.enter right (.cond (b.trimmed left) [] test) os)
    | .otherwise, .loop before keyName valueName source :: os =>
      some { b.enter false (.loopOtherwise before keyName valueName source b.nodes b.verbatim) os
        with verbatim := true }
    | .otherwise, .loopOtherwise before keyName valueName source body verbatim :: os =>
      some (b.enter false (.loopOtherwise before keyName valueName source body verbatim) os)
    | .endLoop, .loop before keyName valueName source :: os =>
      some (b.leave right (before ++ [.loop keyName valueName source (b.trimmed left) []]) os)
    | .endLoop, .loopOtherwise before keyName valueName source body verbatim :: os =>
      let body := if left && !verbatim then trimLast body else body
      some { b.leave right (before ++ [.loop keyName valueName source body b.nodes]) os
        with verbatim := verbatim }
    | .orCond test, .cond before earlier previous :: os =>
      some (b.enter right (.cond before (earlier ++ [(previous, b.trimmed left)]) test) os)
    | .otherwise, .cond before earlier previous :: os =>
      some (b.enter right (.condOtherwise before (earlier ++ [(previous, b.trimmed left)])) os)
    | .endCond, .cond before earlier previous :: os =>
      some (b.leave right
        (before ++ nestConditions [] (earlier ++ [(previous, b.trimmed left)])) os)
    | .endCond, .condOtherwise before earlier :: os =>
      some (b.leave right (before ++ nestConditions (b.trimmed left) earlier) os)
    | _, _ => none

end Building

/-- The tree that pieces build; `none` if something is left open, or closed without being open. -/
def Node.ofPieces? (pieces : List Piece) : Option (List Node) := do
  let b ← pieces.foldlM Building.step Building.start
  match b.openings with
  | [] => some b.nodes
  | _ => none

def Node.ofText? (t : Text) : Option (List Node) := (pieces? t).bind Node.ofPieces?

end RouteModule.Template
