import RouteModule.Json
import RouteModule.Text

/-!
The expressions of the template language, and readers of the remaining text, out of which its grammar
is built. A reader takes what it knows from the front of the text and gives the rest; alternatives
are tried in order, and the first that succeeds is final.
-/

namespace RouteModule.Template

/-- Reads something at the front of a text and gives the rest. -/
abbrev Reader (α : Type) := Text → Option (α × Text)

namespace Reader

def isSpace (c : Char) : Bool := c == ' ' || c == '\t' || c == '\r' || c == '\n'

def skip (t : Text) : Text := t.dropWhile isSpace

def spaced (p : Reader α) : Reader α := fun t => p (skip t)

/-- Reads the first thing or, if it is not there, the second. -/
def or (p q : Reader α) : Reader α := fun t =>
  match p t with
  | some x => some x
  | none => q t

def mark (m : String) : Reader Unit := fun t => (Text.after? m.toList (skip t)).map fun rest => ((), rest)

/-- Reads a word after blanks, and a blank that has to follow it. -/
def word (w : String) : Reader Unit := fun t => do
  let (_, t) ← mark w t
  match t with
  | c :: t => if isSpace c then return ((), t) else none
  | [] => none

def sign (m : String) (value : α) : Reader α := fun t => (mark m t).map fun r => (value, r.2)

def oneOf : List (String × α) → Reader α
  | [], _ => none
  | (m, value) :: rest, t => or (sign m value) (oneOf rest) t

/-- Reads something as often as it is there, within a bound. -/
def many (p : Reader α) : Nat → Text → List α × Text
  | 0, t => ([], t)
  | fuel + 1, t =>
    match p t with
    | some (x, rest) =>
      let (xs, rest) := many p fuel rest
      (x :: xs, rest)
    | none => ([], t)

/-- Reads an operand, and then operators each with an operand of its own. -/
def chain (operand : Reader α) (operator : Reader β) : Reader (α × List (β × α)) := fun t => do
  let (first, rest) ← operand t
  let step : Reader (β × α) := fun t => do
    let (op, t) ← operator t
    let (x, t) ← operand t
    return ((op, x), t)
  let (more, rest) := many step rest.length rest
  return ((first, more), rest)

def taken (p : Reader α) : Reader Text := fun t =>
  (p t).map fun r => (t.take (t.length - r.2.length), r.2)

/-- Reads things with commas between them; behind the last there may be a comma, too. -/
def commaSeparated (p : Reader α) : Text → List α × Text := fun t =>
  let next : Reader α := fun t => do
    let (_, t) ← mark "," t
    p t
  match p t with
  | some (x, rest) =>
    let (xs, rest) := many next rest.length rest
    match mark "," rest with
    | some (_, rest) => (x :: xs, rest)
    | none => (x :: xs, rest)
  | none => ([], t)

end Reader

inductive Arithmetic where
  | add
  | sub
  | mul
  | div
  | mod
  deriving DecidableEq, Repr

inductive Comparison where
  | equal
  | notEqual
  | less
  | lessEqual
  | greater
  | greaterEqual
  deriving DecidableEq, Repr

inductive Expr where
  | bool (b : Bool)
  | number (n : Number)
  | text (t : Text)
  /-- A variable or a part of it, by its path as it is written. -/
  | variable (path : Text)
  | call (name : Text) (arguments : List (Text × Expr))
  /-- Parts put together as one text. -/
  | concat (parts : List Expr)
  | array (items : List Expr)
  | arithmetic (op : Arithmetic) (left right : Expr)
  /-- A value that passes through a filter. -/
  | filter (operand : Expr) (name : Text) (arguments : List (Text × Expr))
  | compare (op : Comparison) (left right : Expr)
  | and (left right : Expr)
  | or (left right : Expr)
  | not (operand : Expr)
  deriving Repr

namespace Expr

mutual

def equals : Expr → Expr → Bool
  | bool b, bool c => b == c
  | number n, number m => n == m
  | text t, text u => t == u
  | «variable» p, «variable» q => p == q
  | call n args, call m others => n == m && equalArguments args others
  | concat parts, concat others => equalList parts others
  | array items, array others => equalList items others
  | arithmetic op l r, arithmetic p m s => op == p && equals l m && equals r s
  | filter e n args, filter f m others => equals e f && n == m && equalArguments args others
  | compare op l r, compare p m s => op == p && equals l m && equals r s
  | and l r, and m s => equals l m && equals r s
  | or l r, or m s => equals l m && equals r s
  | not e, not f => equals e f
  | _, _ => false

def equalArguments : List (Text × Expr) → List (Text × Expr) → Bool
  | [], [] => true
  | (n, e) :: rest, (m, f) :: others => n == m && equals e f && equalArguments rest others
  | _, _ => false

def equalList : List Expr → List Expr → Bool
  | [], [] => true
  | e :: rest, f :: others => equals e f && equalList rest others
  | _, _ => false

end

mutual

theorem equals_iff : (e f : Expr) → (equals e f = true ↔ e = f)
  | bool b, f => by cases f <;> simp [equals]
  | number n, f => by cases f <;> simp [equals]
  | text t, f => by cases f <;> simp [equals]
  | «variable» p, f => by cases f <;> simp [equals]
  | call n args, f => by cases f <;> simp [equals, equalArguments_iff args]
  | concat parts, f => by cases f <;> simp [equals, equalList_iff parts]
  | array items, f => by cases f <;> simp [equals, equalList_iff items]
  | arithmetic op l r, f => by
    cases f <;> simp [equals, equals_iff l, equals_iff r, and_assoc]
  | filter e n args, f => by
    cases f <;> simp [equals, equals_iff e, equalArguments_iff args, and_assoc]
  | compare op l r, f => by
    cases f <;> simp [equals, equals_iff l, equals_iff r, and_assoc]
  | and l r, f => by cases f <;> simp [equals, equals_iff l, equals_iff r]
  | or l r, f => by cases f <;> simp [equals, equals_iff l, equals_iff r]
  | not e, f => by cases f <;> simp [equals, equals_iff e]

theorem equalArguments_iff :
    (args others : List (Text × Expr)) → (equalArguments args others = true ↔ args = others)
  | [], others => by cases others <;> simp [equalArguments]
  | (n, e) :: args, others => by
    cases others <;>
      simp [equalArguments, Prod.ext_iff, equals_iff e, equalArguments_iff args]

theorem equalList_iff : (es fs : List Expr) → (equalList es fs = true ↔ es = fs)
  | [], fs => by cases fs <;> simp [equalList]
  | e :: es, fs => by cases fs <;> simp [equalList, equals_iff e, equalList_iff es]

end

instance : DecidableEq Expr := fun e f => decidable_of_iff _ (equals_iff e f)

end Expr

/-- An expression without the filters that its value passes through. -/
def Expr.core : Expr → Expr
  | .filter operand _ _ => operand.core
  | e => e

/-- An expression without a negation in front of it. -/
def Expr.affirmed : Expr → Expr
  | .not operand => operand
  | e => e

end RouteModule.Template
