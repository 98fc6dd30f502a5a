import RouteModule.Document.Dialect
import RouteModule.Json

/-!
JSON values as texts and as documents. In the compact text no blank separates the parts, and inside
texts only the quote, the backslash and the controls below the space are escaped, so that the result
never holds a control. As a document a value is read by whatever reads documents.
-/

namespace RouteModule.Json

def escape (c : Char) : Text :=
  match c with
  | '"' => ['\\', '"']
  | '\\' => ['\\', '\\']
  | '\x08' => ['\\', 'b']
  | '\t' => ['\\', 't']
  | '\n' => ['\\', 'n']
  | '\x0c' => ['\\', 'f']
  | '\r' => ['\\', 'r']
  | c => if c.toNat < 32 then ['\\', 'u'] ++ Text.hexPadded 4 c.toNat else [c]

def renderText (t : Text) : Text := '"' :: t.flatMap escape ++ ['"']

mutual

def render : Json → Text
  | null => ['n', 'u', 'l', 'l']
  | bool true => ['t', 'r', 'u', 'e']
  | bool false => ['f', 'a', 'l', 's', 'e']
  | number n => n.text
  | text t => renderText t
  | array items => '[' :: renderItems items
  | object members => '\x7b' :: renderMembers members

/-- The items of an array and its closing bracket. -/
def renderItems : List Json → Text
  | [] => [']']
  | [v] => render v ++ [']']
  | v :: w :: rest => render v ++ ',' :: renderItems (w :: rest)

/-- The members of an object and its closing brace. -/
def renderMembers : List (Text × Json) → Text
  | [] => ['\x7d']
  | [(name, v)] => renderText name ++ ':' :: render v ++ ['\x7d']
  | (name, v) :: m :: rest => renderText name ++ ':' :: render v ++ ',' :: renderMembers (m :: rest)

end

mutual

def node : Json → Node
  | null => .atom "null".toList .null
  | bool b => .atom (if b then "true".toList else "false".toList) (.bool b)
  | number n => .atom n.text (.number n)
  | text t => .atom t (.text t)
  | array items => .sequence (nodes items)
  | object members => .mapping (entries members)

def nodes : List Json → List Node
  | [] => []
  | v :: rest => node v :: nodes rest

def entries : List (Text × Json) → List (Node × Node)
  | [] => []
  | (name, v) :: rest => (.atom name (.text name), node v) :: entries rest

end

def decode (read : Dialect → Nat → Node → Reading α) (v : Json) : Except Fault α :=
  let d : Dialect := ⟨.json, .value, #[]⟩
  (read d d.limit v.node).run' 0

end RouteModule.Json
