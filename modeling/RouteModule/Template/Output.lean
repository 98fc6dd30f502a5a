import RouteModule.Template.Meaning
import RouteModule.Template.Node
import RouteModule.Text.Cluster

/-!
The text that a template gives. Values are printed as they are, without any escaping.
-/

namespace RouteModule.Template

mutual

/-- The text of a value where it is printed. A number has a point only if it has places behind it. -/
def printed : Json → Text
  | .null => []
  | .bool b => (if b then "true" else "false").toList
  | .number (.integer i) => Text.ofInt i
  | .number (.real x) => x.decimal
  | .text t => t
  | .array items => '[' :: printedItems items
  | .object _ => "[object]".toList

def printedItems : List Json → Text
  | [] => [']']
  | [v] => printed v ++ [']']
  | v :: w :: rest => printed v ++ ',' :: ' ' :: printedItems (w :: rest)

end

/-- Whether a loop can run over an expression: a variable, a call or an array. -/
def Expr.isSource (e : Expr) : Bool :=
  match e.core with
  | .variable _ | .call _ _ | .array _ => true
  | _ => false

/-- The keys and values that a loop goes through: those of an object if it names both, and otherwise
the items of an array or the clusters of a text. -/
def roundsOf? (named : Bool) : Json → Option (List (Text × Json))
  | .array items => if named then none else some (items.map fun v => ([], v))
  | .text t => if named then none else some ((Text.clusters t).map fun c => ([], .text c))
  | .object members => if named then some members else none
  | _ => none

/-- The texts of all rounds in one, each given by its number and its key and value. -/
def eachRound (render : Nat → Text × Json → Option Text) :
    Nat → List (Text × Json) → Option Text
  | _, [] => some []
  | i, item :: rest => do
    let t ← render i item
    return t ++ (← eachRound render (i + 1) rest)

mutual

/-- The text of a part and the scope behind it; `none` if some value is missing or of the wrong
kind. -/
def Node.output (policy : Policy) : Node → Scope → Option (Text × Scope)
  | .text t, s => some (t, s)
  | .print e, s => do
    let v ← e.value? policy s
    return (printed v, s)
  | .assign name e, s => do
    let v ← e.value? policy s
    return ([], s.assign name v)
  | .loop keyName valueName source body otherwise, s => do
    if !source.isSource then none
    let rounds ← roundsOf? keyName.isSome (← source.value? policy s)
    if rounds.isEmpty then outputs policy otherwise s
    else
      let t ← eachRound (fun i item => do
        let round : Round := ⟨keyName, valueName, item.1, item.2, i, rounds.length⟩
        let (t, _) ← outputs policy body (s.enter round)
        return t) 0 rounds
      return (t, s)
  | .cond test body otherwise, s => do
    if ← test.truth? policy s then outputs policy body s else outputs policy otherwise s

def outputs (policy : Policy) : List Node → Scope → Option (Text × Scope)
  | [], s => some ([], s)
  | node :: rest, s => do
    let (t, s) ← node.output policy s
    let (u, s) ← outputs policy rest s
    return (t ++ u, s)

end

inductive Fault where
  /-- The template is not of the grammar. -/
  | unreadable
  /-- What it is to be rendered with is not an object. -/
  | noContext
  /-- Something in it has no value, or a value of the wrong kind. -/
  | unrenderable
  deriving DecidableEq, Repr

def Fault.message : Fault → String
  | unreadable => "Failed to parse 'routes'"
  | noContext => "Creating a Context from a Value/Serialize requires it being a JSON object"
  | unrenderable => "Failed to render 'routes'"

def render (policy : Policy) (template : Text) (context : Json) : Except Fault Text :=
  match Node.ofText? template with
  | none => .error .unreadable
  | some nodes =>
    match context with
    | .object members =>
      match outputs policy nodes (Scope.ofContext members) with
      | some (t, _) => .ok t
      | none => .error .unrenderable
    | _ => .error .noContext

end RouteModule.Template
