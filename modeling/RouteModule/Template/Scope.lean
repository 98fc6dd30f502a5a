import RouteModule.Json
import RouteModule.Text

/-!
Paths to variables and into their values. A path is a text: the name of a variable and keys behind
it, after a point or between brackets. What stands between brackets is an integer, a text between
quotes or the path of another variable, `inner` being the paths of the last kind; once these are
replaced by what they stand for, `unbracketed` writes all keys behind points. The first point then
ends the name of the variable, and `segments` are the keys of the rest.

Quotes keep points inside a key together. They are not part of it, wherever they stand, and in a key
`~1` and `~0` stand for the signs `/` and `~`.

A path is looked up in the innermost loop first, then in the loops around it and the template itself,
and last in the values that the template is rendered with. Where it leads nowhere in one of them it
is looked for in the next.
-/

namespace RouteModule.Template

namespace Path

/-- The text in front of the bracket that closes, and the text behind it; brackets inside come in
pairs. -/
def closing : Nat → Text → Text × Text
  | _, [] => ([], [])
  | depth, c :: t =>
    if c = ']' ∧ depth = 0 then ([], t)
    else
      let (inside, rest) :=
        closing (if c = ']' then depth - 1 else if c = '[' then depth + 1 else depth) t
      (c :: inside, rest)

theorem length_closing_le (depth : Nat) (t : Text) :
    (closing depth t).2.length ≤ t.length := by
  fun_induction closing depth t with
  | case1 => simp
  | case2 => simp
  | case3 depth c t _ inside rest h ih =>
    rw [h] at ih
    exact Nat.le_succ_of_le ih

def isIndex (t : Text) : Bool :=
  let digits := match t with
    | '+' :: t => t
    | t => t
  (Text.toNat? 10 digits).any fun n => Width.unsigned 64 n

/-- The paths of variables between brackets, from left to right. A bracket with a quote behind it
opens none. -/
def inner : Text → List Text
  | [] => []
  | [_] => []
  | b :: c :: t =>
    if b = '[' then
      if c = '"' ∨ c = '\'' then inner t
      else
        let inside := c :: (closing 0 t).1
        if isIndex inside then inner (closing 0 t).2 else inside :: inner (closing 0 t).2
    else inner (c :: t)
termination_by t => t.length
decreasing_by
  · simp only [List.length_cons]; omega
  · have := length_closing_le 0 t
    simp only [List.length_cons]; omega
  · have := length_closing_le 0 t
    simp only [List.length_cons]; omega
  · simp only [List.length_cons]; omega

/-- The text in front of the first place where a mark stands, and the text behind it; the whole text
where it stands nowhere. -/
def divide (mark : Text) : Text → Text × Text
  | [] => ([], [])
  | c :: t =>
    match Text.after? mark (c :: t) with
    | some rest => ([], rest)
    | none =>
      let (lead, rest) := divide mark t
      (c :: lead, rest)

def putKey (path inside key : Text) : Text :=
  let (lead, rest) := divide ('[' :: inside ++ [']']) path
  lead ++ ['.', '"'] ++ key ++ '"' :: rest

/-- A path with all keys behind points, where quotes of either kind between brackets become double
ones. -/
def unbracketed : Text → Text
  | '/' :: t => '~' :: '1' :: unbracketed t
  | '[' :: '\'' :: t => '.' :: '"' :: unbracketed t
  | '[' :: '"' :: t => '.' :: '"' :: unbracketed t
  | '[' :: t => '.' :: unbracketed t
  | '\'' :: ']' :: t => '"' :: unbracketed t
  | ']' :: t => unbracketed t
  | c :: t => c :: unbracketed t
  | [] => []

def unescaped : Text → Text
  | '~' :: '1' :: t => '/' :: unescaped t
  | '~' :: '0' :: t => '~' :: unescaped t
  | c :: t => c :: unescaped t
  | [] => []

/-- What is known about the signs around a place: the quotes that are open, and whether the quote
that follows is none. -/
structure Quoting where
  single : Bool
  double : Bool
  escaped : Bool
  deriving Repr

/-- What is known behind a sign, and whether the sign ends a segment. -/
def Quoting.next (q : Quoting) (c : Char) : Quoting × Bool :=
  if c = '"' ∧ !q.escaped then ({ q with double := !q.double, escaped := false }, true)
  else if c = '\'' ∧ !q.escaped then ({ q with single := !q.single, escaped := false }, true)
  else if c = '.' ∧ !q.single ∧ !q.double then (q, true)
  else ({ q with escaped := c = '\\' }, false)

/-- How many signs at the front of a text belong to no segment, and how many are in front of the one
that ends the first segment, if any does; `count` are behind and `lead` of them belong to none. -/
def segmentEnd (lead count : Nat) (q : Quoting) : Text → Nat × Option Nat × Quoting
  | [] => (lead, none, q)
  | c :: t =>
    let (r, ends) := q.next c
    if ends then
      if lead = count then
        segmentEnd (lead + 1) (count + 1) { r with escaped := false } t
      else (lead, some count, r)
    else segmentEnd lead (count + 1) r t

def takeBytes (n : Nat) : Text → Text
  | [] => []
  | c :: t =>
    let k := (Text.charBytes c).length
    if k ≤ n then c :: takeBytes (n - k) t else []

def dropBytes (n : Nat) : Text → Text
  | [] => []
  | c :: t => if n = 0 then c :: t else dropBytes (n - (Text.charBytes c).length) t

/-- The segments of a text, within a bound on their number. Lengths are counted in characters and
measured off in bytes. -/
def segmentsWithin : Nat → Quoting → Text → List Text
  | 0, _, _ => []
  | fuel + 1, q, t =>
    match segmentEnd 0 0 q t with
    | (lead, some count, r) =>
      takeBytes (count - lead) (dropBytes lead t) :: segmentsWithin fuel r (dropBytes (count + 1) t)
    | (lead, none, _) =>
      let last := dropBytes lead t
      if last = [] then [] else [last]

def segments (t : Text) : List Text :=
  (segmentsWithin (t.length + 1) ⟨false, false, false⟩ t).map unescaped

/-- The name of the variable, and what stands behind the point, if there is one. -/
def split (path : Text) : Text × Option Text :=
  match path.span (· ≠ '.') with
  | (root, _ :: tail) => (root, some tail)
  | (root, []) => (root, none)

def indexOf? (key : Text) : Option Nat :=
  match key with
  | '0' :: _ :: _ => none
  | key => Text.toNat? 10 key

def part? (key : Text) : Json → Option Json
  | .object members => members.lookup key
  | .array items => (indexOf? key).bind fun i => items[i]?
  | _ => none

def follow : List Text → Json → Option Json
  | [], v => some v
  | key :: keys, v => (part? key v).bind (follow keys)

/-- The part of a value that stands behind a point in a path, or the value itself. -/
def into (tail : Option Text) (v : Json) : Option Json := follow ((tail.map segments).getD []) v

end Path

/-- The state of a loop in one of its rounds. -/
structure Round where
  keyName : Option Text
  valueName : Text
  key : Text
  value : Json
  /-- The number of rounds before this one, and of all rounds. -/
  index : Nat
  count : Nat
  deriving Repr

/-- The variables of a loop's round, or of the template outside of all loops. -/
structure Frame where
  assigned : List (Text × Json)
  round : Option Round
  deriving Repr

/-- All variables in reach, the innermost frame first. -/
structure Scope where
  frames : List Frame
  context : List (Text × Json)
  deriving Repr

namespace Round

def status? (r : Round) (key : Text) : Option Json :=
  if key = "index".toList then some (.natural (r.index + 1))
  else if key = "index0".toList then some (.natural r.index)
  else if key = "first".toList then some (.bool (r.index = 0))
  else if key = "last".toList then some (.bool (r.index + 1 = r.count))
  else none

/-- What a path stands for in a round: the key if it is its name, then what the name `loop` stands
for, then the value or a part of it. -/
def find? (r : Round) (path : Text) : Option Json :=
  if r.keyName = some path then some (.text r.key)
  else
    let (root, tail) := Path.split path
    if root = "loop".toList then tail.bind r.status?
    else if root = r.valueName then Path.into tail r.value
    else none

end Round

def entry (values : List (Text × Json)) (path : Text) : Option Json :=
  let (root, tail) := Path.split path
  (values.lookup root).bind (Path.into tail)

def Frame.find? (f : Frame) (path : Text) : Option Json :=
  match entry f.assigned path with
  | some v => some v
  | none => f.round.bind fun r => r.find? path

namespace Scope

def find? (s : Scope) (path : Text) : Option Json :=
  match s.frames.findSome? fun f => f.find? path with
  | some v => some v
  | none => entry s.context path

/-- The text of a value as a key: only texts and numbers are keys. -/
def keyText? : Json → Option Text
  | .text t => some t
  | .number n => some n.text
  | _ => none

/-- What a path stands for, within a bound on the paths between its brackets. -/
def resolve? (s : Scope) : Nat → Text → Option Json
  | 0, _ => none
  | fuel + 1, path =>
    if path.contains '[' then do
      let path ← (Path.inner path).foldlM (fun path inside => do
        return Path.putKey path inside (← keyText? (← s.resolve? fuel inside))) path
      s.find? (Path.unbracketed path)
    else s.find? path

def lookup? (s : Scope) (path : Text) : Option Json := s.resolve? (path.length + 1) path

def assign (s : Scope) (name : Text) (value : Json) : Scope :=
  match s.frames with
  | [] => s
  | f :: rest => { s with frames := { f with assigned := (name, value) :: f.assigned } :: rest }

def enter (s : Scope) (r : Round) : Scope := { s with frames := ⟨[], some r⟩ :: s.frames }

def ofContext (context : List (Text × Json)) : Scope := ⟨[⟨[], none⟩], context⟩

end Scope

end RouteModule.Template
