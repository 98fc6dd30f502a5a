import RouteModule.Text.Word

/-!
Paths of routes. A parameter of a path stands in braces, `\x7bid\x7d`, or behind a colon, `:id`;
`toColons` rewrites every complete group of the first kind into the second, and a `PathStyle` says
whether that is wanted. `normalise` trims the edges of a path.
-/

namespace RouteModule

namespace RoutePath

/-- The word of the group that a text starts with, and what follows the group. -/
def group? : Text → Option (Text × Text)
  | '\x7b' :: t =>
    match t.dropWhile Text.isWord with
    | '\x7d' :: rest => some (t.takeWhile Text.isWord, rest)
    | _ => none
  | _ => none

theorem length_lt_of_group? {t word rest : Text} (h : group? t = some (word, rest)) :
    rest.length < t.length := by
  unfold group? at h
  split at h
  · next t =>
    split at h
    · next after hd =>
      have hle := (List.dropWhile_suffix Text.isWord (l := t)).length_le
      rw [hd] at hle
      simp only [Option.some.injEq, Prod.mk.injEq] at h
      obtain ⟨_, rfl⟩ := h
      simp only [List.length_cons] at hle ⊢
      omega
    · simp at h
  · simp at h

/-- Rewrites every group in braces into its word behind a colon, and leaves all else. -/
def toColons : Text → Text
  | [] => []
  | c :: t =>
    match _h : group? (c :: t) with
    | some (word, rest) => ':' :: word ++ toColons rest
    | none => c :: toColons t
termination_by t => t.length
decreasing_by
  · exact length_lt_of_group? _h
  · simp

def isEdge (c : Char) : Bool := c == '/' || c == '\\' || Text.isBlank c

/-- Trims the edges of a path and puts `lead` and `tail` around it; with `skipEmpty` an empty path
and the bare root give nothing at all. -/
def normalise (path lead tail : Text) (skipEmpty : Bool) : Text :=
  if skipEmpty ∧ (path = [] ∨ path = ['/']) then [] else lead ++ Text.trimBy isEdge path ++ tail

def rooted (path : Text) : Text := normalise path ['/'] [] false

/-- The path with a slash in front and none at the end, unless there is nothing to it. -/
def segment (path : Text) : Text := normalise path ['/'] [] true

end RoutePath

inductive PathStyle where
  /-- A parameter stands behind a colon. -/
  | colon
  /-- A parameter stands in braces. -/
  | brace
  deriving DecidableEq, Repr

def PathStyle.transform : PathStyle → Text → Text
  | colon, path => RoutePath.toColons path
  | brace, path => path

def PathStyle.name : PathStyle → String
  | colon => "colon"
  | brace => "brace"

end RouteModule
