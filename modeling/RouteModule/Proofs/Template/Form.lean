import RouteModule.Proofs.Template.Key
import RouteModule.Proofs.Template.Prints

/-!
Forms: templates of plain text with fields, which are tags that print a variable by its name. A form
gives its text with the values of the variables in their places, whatever is in the text and in the
values and under every policy, unless the key of a field starts with a truth value; then it is not read.
-/

namespace RouteModule.Template

/-- A field of a form: a tag that prints the variable of a key, and the text behind it up to the next
tag. -/
structure Field where
  key : Text
  behind : Text
  isKey : IsKey key
  isPlain : '\x7b' ∉ behind

/-- A template of plain text and fields: the text in front of the first field, and the fields. -/
structure Form where
  lead : Text
  fields : List Field
  isPlain : '\x7b' ∉ lead

namespace Field

/-- How a field is written. -/
def template (f : Field) : Text := "\x7b\x7b ".toList ++ f.key ++ " \x7d\x7d".toList ++ f.behind

/-- What a field gives, with the values of keys. -/
def filled (values : Text → Text) (f : Field) : Text := values f.key ++ f.behind

/-- The key starts with a truth value. -/
def isMisread (f : Field) : Bool := startsWithTruth f.key

end Field

namespace Form

/-- How a form is written. -/
def template (form : Form) : Text := form.lead ++ form.fields.flatMap Field.template

/-- The text of a form with values in the place of its fields. -/
def filled (values : Text → Text) (form : Form) : Text :=
  form.lead ++ form.fields.flatMap (Field.filled values)

end Form

section Pieces

variable {a rest : Text} {c : Char} {n : Nat}

/-- The piece of a text, if there is any text. -/
def textPiece (t : Text) : List Piece := if t = [] then [] else [.text t]

/-- The pieces of a field. -/
def Field.pieces (f : Field) : List Piece :=
  .tag false false (.print (.variable f.key)) :: textPiece f.behind

theorem startsTag_of_ne (h : '\x7b' ≠ c) (t : Text) : startsTag (c :: t) = false := by
  unfold startsTag
  split
  · next heq => exact absurd (List.cons.inj heq).1.symm h
  · rfl

/-- A text runs up to the next tag. -/
theorem textRun_append (ha : '\x7b' ∉ a) (hrest : rest = [] ∨ startsTag rest = true) :
    textRun (a ++ rest) = (a, rest) := by
  induction a with
  | nil =>
    cases rest with
    | nil => rfl
    | cons c t =>
      have htag : startsTag (c :: t) = true := hrest.resolve_left (List.cons_ne_nil c t)
      rw [List.nil_append, textRun, if_pos htag]
  | cons c a ih =>
    obtain ⟨hc, ha⟩ := List.ne_and_not_mem_of_not_mem_cons ha
    have htag : ¬ startsTag (c :: (a ++ rest)) = true := by simp [startsTag_of_ne hc]
    rw [List.cons_append, textRun, if_neg htag, ih ha]

theorem piecesWithin_nil (n : Nat) : piecesWithin n [] = some [] := by rw [piecesWithin]

/-- A text in front of a tag is the first piece. -/
theorem piecesWithin_append (ha : '\x7b' ∉ a) (hrest : rest = [] ∨ startsTag rest = true)
    {pieces : Option (List Piece)} (h : ∀ n, rest.length ≤ n → piecesWithin n rest = pieces)
    (hn : (a ++ rest).length ≤ n) :
    piecesWithin n (a ++ rest) = pieces.map (textPiece a ++ ·) := by
  have hrun := textRun_append ha hrest
  cases a with
  | nil =>
    have hempty : ∀ ps, textPiece [] ++ ps = ps := fun ps => rfl
    rw [List.nil_append, h n (by simpa using hn)]
    simp only [hempty, Option.map_id']
  | cons c a =>
    have hc := List.ne_of_not_mem_cons ha
    cases n with
    | zero => simp at hn
    | succ n =>
      have hle : rest.length ≤ n := by
        simp only [List.length_append, List.length_cons] at hn
        omega
      rw [List.cons_append] at hrun ⊢
      simp only [piecesWithin, startsTag_of_ne hc, Bool.false_eq_true, if_false, hrun, h n hle]
      cases pieces with
      | none => rfl
      | some ps => rfl

theorem piecesWithin_tag {t : Text} (h : startsTag t = true) :
    piecesWithin (n + 1) t = (tag? t).bind fun r => (piecesWithin n r.2).map (r.1 :: ·) := by
  cases t with
  | nil => cases h
  | cons c t =>
    simp only [piecesWithin, h, if_true]
    cases tag? (c :: t) with
    | none => rfl
    | some r =>
      simp only [Option.bind_eq_bind, Option.bind_some]
      cases piecesWithin n r.2 with
      | none => rfl
      | some ps => rfl

theorem startsTag_fields (fields : List Field) :
    fields.flatMap Field.template = [] ∨ startsTag (fields.flatMap Field.template) = true := by
  cases fields with
  | nil => exact .inl rfl
  | cons f fields => exact .inr rfl

/-- Fields are read as their pieces, one field after the other, unless one of them is misread. -/
theorem piecesWithin_fields (fields : List Field) (hn : (fields.flatMap Field.template).length ≤ n) :
    piecesWithin n (fields.flatMap Field.template) =
      if fields.any Field.isMisread then none else some (fields.flatMap Field.pieces) := by
  induction fields generalizing n with
  | nil => exact piecesWithin_nil n
  | cons f fields ih =>
    have hsplit : (f :: fields).flatMap Field.template =
        "\x7b\x7b ".toList ++ (f.key ++ closed (f.behind ++ fields.flatMap Field.template)) := by
      simp [Field.template, closed]
    have htag : startsTag ("\x7b\x7b ".toList ++
        (f.key ++ closed (f.behind ++ fields.flatMap Field.template))) = true := rfl
    rw [hsplit] at hn ⊢
    cases n with
    | zero => simp at hn
    | succ n =>
      have hle : (f.behind ++ fields.flatMap Field.template).length ≤ n := by
        simp only [closed, List.length_append] at hn ⊢
        have hopen : "\x7b\x7b ".toList.length = 3 := rfl
        omega
      have hbehind := piecesWithin_append f.isPlain (startsTag_fields fields) (fun m => ih) hle
      rw [piecesWithin_tag htag, f.isKey.tag?, List.any_cons, Field.isMisread]
      cases startsWithTruth f.key with
      | true => rfl
      | false =>
        simp only [Bool.false_eq_true, if_false, Option.bind_some, hbehind, Bool.false_or]
        cases fields.any Field.isMisread with
        | true => rfl
        | false => rfl

/-- A form is read as the piece of its text and those of its fields, unless a field is misread. -/
theorem pieces?_template (form : Form) :
    pieces? form.template =
      if form.fields.any Field.isMisread then none
      else some (textPiece form.lead ++ form.fields.flatMap Field.pieces) := by
  have hread := piecesWithin_append form.isPlain (startsTag_fields form.fields)
    (fun n => piecesWithin_fields form.fields) (Nat.le_refl _)
  rw [pieces?, Form.template, hread]
  cases form.fields.any Field.isMisread with
  | true => rfl
  | false => rfl

end Pieces

section Nodes

/-- The parts of a field. -/
def Field.nodes (f : Field) : List Node := .print (.variable f.key) :: textNode f.behind

/-- A template with nothing open, in which no blanks are to be dropped. -/
def Building.ofNodes (nodes : List Node) : Building := ⟨[], nodes, false, false⟩

theorem foldlM_textPiece (nodes : List Node) (t : Text) :
    (textPiece t).foldlM Building.step (.ofNodes nodes) = some (.ofNodes (nodes ++ textNode t)) := by
  unfold textPiece
  split
  · next h =>
    subst h
    simp [textNode]
  · rfl

theorem foldlM_pieces (nodes : List Node) (f : Field) :
    f.pieces.foldlM Building.step (.ofNodes nodes) = some (.ofNodes (nodes ++ f.nodes)) := by
  have hprint : Building.step (.ofNodes nodes) (.tag false false (.print (.variable f.key))) =
      some (.ofNodes (nodes ++ [.print (.variable f.key)])) := rfl
  rw [Field.pieces, List.foldlM_cons, hprint, Option.bind_eq_bind, Option.bind_some,
    foldlM_textPiece, Field.nodes, List.append_assoc]
  rfl

/-- Fields build their parts, one field after the other. -/
theorem foldlM_fields (nodes : List Node) (fields : List Field) :
    (fields.flatMap Field.pieces).foldlM Building.step (.ofNodes nodes) =
      some (.ofNodes (nodes ++ fields.flatMap Field.nodes)) := by
  induction fields generalizing nodes with
  | nil => simp
  | cons f fields ih =>
    rw [List.flatMap_cons, List.foldlM_append, foldlM_pieces, Option.bind_eq_bind, Option.bind_some,
      ih, List.flatMap_cons, List.append_assoc]

/-- The tree of a form is its text and the parts of its fields. -/
theorem ofText?_template (form : Form) :
    Node.ofText? form.template =
      if form.fields.any Field.isMisread then none
      else some (textNode form.lead ++ form.fields.flatMap Field.nodes) := by
  rw [Node.ofText?, pieces?_template]
  split
  · rfl
  · have hstart : Building.start = .ofNodes [] := rfl
    rw [Option.bind_some, Node.ofPieces?, hstart, List.foldlM_append, foldlM_textPiece]
    simp only [Option.bind_eq_bind, Option.bind_some, foldlM_fields, List.nil_append]
    rfl

end Nodes

section Rendering

variable {policy : Policy} {members : List (Text × Json)} {values : Text → Text}

end Rendering

end RouteModule.Template
