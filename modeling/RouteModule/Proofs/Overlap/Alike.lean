import Mathlib.Data.List.Forall2
import RouteModule.Document.Dialect
import RouteModule.Proofs.Metadata.Stability
import RouteModule.Proofs.Overlap.Bare
import RouteModule.Proofs.Overlap.Number
import RouteModule.Proofs.Overlap.Quoted

/-!
What YAML makes of a tree of JSON. The shape is the same; scalars without quotes are what YAML takes
their texts for, and texts may have some of their gaps folded.
-/

namespace RouteModule.Yaml

open Json (Numeral numberNode)

variable {strict : Prop} {n y : Node} {v : Text} {xs ys : List Node} {es fs : List (Node × Node)}

section Bare

/-- A scalar of JSON without quotes, and what YAML takes its text for. -/
inductive ReadsBare : Text → Node → Prop where
  | null {v : Text} (h : ofPlain v = .null) : ReadsBare v (.atom v .null)
  | bool {v : Text} (b : Bool) (h : ofPlain v = .bool b) : ReadsBare v (.atom v (.bool b))
  | number {m : Numeral} (hm : m.Valid) (h : ReadsNumber m) :
    ReadsBare m.text (numberNode m.text m.number?)

theorem SpellsBare.reads (h : SpellsBare n v) : ReadsBare v n := by
  obtain ⟨hscalar, hquote⟩ := h
  cases hscalar with
  | null => exact .null (by decide)
  | true => exact .bool true (by decide)
  | false => exact .bool false (by decide)
  | text => exact absurd rfl hquote
  | number h =>
    obtain ⟨m, hm, rfl, rfl⟩ := Json.numeral_of_number h
    exact .number hm (readsNumber hm)

theorem ReadsBare.intact (h : ReadsBare v n) : Dialect.intact n = true := by
  cases h with
  | @number m => cases m.number? <;> rfl
  | _ => rfl

end Bare

section Trees

/-- The names of two entries, the second one with some of its gaps folded. -/
inductive SameName (strict : Prop) : Node × Node → Node × Node → Prop where
  | mk {s t : Text} {x y : Node} (h : Folded s t) (hsame : strict → t = s) :
    SameName strict (.atom s (.text s), x) (.atom t (.text t), y)

/-- What YAML may make of a tree of JSON. -/
inductive Alike (strict : Prop) : Node → Node → Prop where
  | bare {n : Node} {v : Text} (h : SpellsBare n v) : Alike strict n (.atom v (ofPlain v))
  | text {s t : Text} (h : Folded s t) (hsame : strict → t = s) :
    Alike strict (.atom s (.text s)) (.atom t (.text t))
  | sequence {xs ys : List Node} (h : List.Forall₂ (Alike strict) xs ys) :
    Alike strict (.sequence xs) (.sequence ys)
  | mapping {es fs : List (Node × Node)} (hnames : List.Forall₂ (SameName strict) es fs)
    (hvalues : List.Forall₂ (Alike strict) (es.map Prod.snd) (fs.map Prod.snd)) :
    Alike strict (.mapping es) (.mapping fs)

/-- Only mappings are alike to mappings. -/
theorem alike_mapping (h : Alike strict (.mapping es) y) :
    ∃ fs, y = .mapping fs ∧ List.Forall₂ (SameName strict) es fs ∧
      List.Forall₂ (Alike strict) (es.map Prod.snd) (fs.map Prod.snd) := by
  generalize hn : Node.mapping es = n at h
  cases h with
  | bare h =>
    subst hn
    generalize hm : Node.mapping es = m at h
    cases h.reads with
    | @number n => cases hnumber : n.number? <;> simp [numberNode, hnumber] at hm
    | _ => cases hm
  | text => cases hn
  | sequence => cases hn
  | @mapping _ fs hnames hvalues =>
    obtain rfl := Node.mapping.inj hn
    exact ⟨fs, rfl, hnames, hvalues⟩

mutual

/-- Neither of two trees that are alike breaks off. -/
theorem intact_of_alike : (y : Node) → ∀ {n : Node}, Alike strict n y →
    Dialect.intact n = true ∧ Dialect.intact y = true
  | .sequence ys, _, h => by
    cases h with
    | sequence h => exact intactItems_of_alike ys h
  | .mapping fs, _, h => by
    cases h with
    | mapping hnames hvalues => exact intactEntries_of_alike fs hnames hvalues
  | .atom source value, _, h => by
    cases h with
    | bare h => exact ⟨h.reads.intact, rfl⟩
    | text => exact ⟨rfl, rfl⟩
  | .cast _ _ _ _, _, h => nomatch h
  | .tagged _ _, _, h => nomatch h
  | .reference _, _, h => nomatch h
  | .unreadable, _, h => nomatch h
  | .broken, _, h => nomatch h

theorem intactItems_of_alike : (ys : List Node) → ∀ {xs : List Node},
    List.Forall₂ (Alike strict) xs ys →
      Dialect.intactItems xs = true ∧ Dialect.intactItems ys = true
  | [], _, h => by
    cases h
    exact ⟨rfl, rfl⟩
  | y :: ys, _, h => by
    cases h with
    | cons hxy hrest =>
      obtain ⟨hx, hy⟩ := intact_of_alike y hxy
      obtain ⟨hxs, hys⟩ := intactItems_of_alike ys hrest
      exact ⟨by rw [Dialect.intactItems, hx, hxs, Bool.and_self],
        by rw [Dialect.intactItems, hy, hys, Bool.and_self]⟩

theorem intactEntries_of_alike : (fs : List (Node × Node)) → ∀ {es : List (Node × Node)},
    List.Forall₂ (SameName strict) es fs →
      List.Forall₂ (Alike strict) (es.map Prod.snd) (fs.map Prod.snd) →
        Dialect.intactEntries es = true ∧ Dialect.intactEntries fs = true
  | [], _, h, _ => by
    cases h
    exact ⟨rfl, rfl⟩
  | (key, y) :: fs, _, h, hvalues => by
    cases h with
    | cons hname hrest =>
      cases hname
      cases hvalues with
      | cons hxy hvalues =>
        obtain ⟨hx, hy⟩ := intact_of_alike y hxy
        obtain ⟨hes, hfs⟩ := intactEntries_of_alike fs hrest hvalues
        exact ⟨by simp [Dialect.intactEntries, Dialect.intact, hx, hes],
          by simp [Dialect.intactEntries, Dialect.intact, hy, hfs]⟩

end

end Trees

end RouteModule.Yaml

namespace RouteModule.Dialect

open Reading (Succeeds)
open Yaml (Alike ReadsBare SameName ofPlain)

variable {strict : Prop} {d : Dialect} {n y : Node} {v : Text}

/-- The rules for the text of a JSON document. -/
def jsonText : Dialect := ⟨.json, .text, #[]⟩

/-- The rules for the text of a YAML document without references. -/
def yamlText : Dialect := ⟨.yaml, .text, #[]⟩

theorem isJson_jsonText : jsonText.IsJson := ⟨rfl, by decide⟩

/-- A node of a tree without tags that is no null. -/
inductive Present : Node → Prop where
  | scalar (source : Text) {value : Atom} (h : value ≠ .null) : Present (.atom source value)
  | unreadable : Present .unreadable
  | sequence (items : List Node) : Present (.sequence items)
  | mapping (es : List (Node × Node)) : Present (.mapping es)

theorem Present.optional {read : Node → Reading α} (h : Present n) :
    d.optional read n = do return some (← read n) := by
  cases h with
  | scalar source h => exact optional_eq (.inr ⟨source, _, rfl, h⟩)
  | unreadable => rfl
  | sequence => rfl
  | mapping => rfl

theorem Present.number (source : Text) (x : Option Number) : Present (Json.numberNode source x) := by
  cases x with
  | none => exact .unreadable
  | some x => exact .scalar source (by simp)

theorem ReadsBare.null_or_present (h : ReadsBare v n) :
    n = .atom v .null ∧ ofPlain v = .null ∨ Present n ∧ ofPlain v ≠ .null := by
  cases h with
  | null h => exact .inl ⟨rfl, h⟩
  | bool b h => exact .inr ⟨.scalar v (by simp), by simp [h]⟩
  | number hm h =>
    refine .inr ⟨.number _ _, ?_⟩
    cases h with
    | integer _ _ h | zero _ _ h | real _ _ _ h | wide _ _ h | beyond _ h => simp [h]

/-- Nulls are alike only to nulls. -/
theorem null_or_present (h : Alike strict n y) :
    (∃ v, n = .atom v .null ∧ y = .atom v .null) ∨ Present n ∧ Present y := by
  cases h with
  | @bare _ v h =>
    rcases ReadsBare.null_or_present h.reads with ⟨rfl, hplain⟩ | ⟨hn, hplain⟩
    · exact .inl ⟨v, rfl, by rw [hplain]⟩
    · exact .inr ⟨hn, .scalar v hplain⟩
  | text => exact .inr ⟨.scalar _ (by simp), .scalar _ (by simp)⟩
  | sequence => exact .inr ⟨.sequence _, .sequence _⟩
  | mapping => exact .inr ⟨.mapping _, .mapping _⟩

end RouteModule.Dialect
