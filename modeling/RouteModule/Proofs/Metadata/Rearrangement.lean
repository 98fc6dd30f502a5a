import Mathlib.Data.List.Forall2
import Mathlib.Data.List.Perm.Basic
import RouteModule.Metadata.Reader
import RouteModule.Proofs.Document.Entries

/-!
Documents that differ in what does not matter. The entries of an object may stand in any order, and an
object that is read as a record may have further entries, under names that the record does not know.
`Shape` says what a node of metadata is read as, and so which names are known where; `Rearranged`
relates two trees of which the second has the entries of the first in some order, at any depth, with
scalars added to its records.
-/

namespace RouteModule

namespace Node

/-- A `null`, a truth value or a text. -/
inductive IsScalar : Node → Prop where
  | null : IsScalar (.atom "null".toList .null)
  | true : IsScalar (.atom "true".toList (.bool true))
  | false : IsScalar (.atom "false".toList (.bool false))
  | text (t : Text) : IsScalar (.atom t (.text t))

mutual

/-- No object in a tree has two entries of one name. -/
def Distinct : Node → Prop
  | .sequence items => DistinctItems items
  | .mapping es => (names es).Nodup ∧ DistinctEntries es
  | .tagged _ node => Distinct node
  | _ => True

/-- The names are different in each of the items. -/
def DistinctItems : List Node → Prop
  | [] => True
  | node :: rest => Distinct node ∧ DistinctItems rest

/-- The names are different in the value of each entry. -/
def DistinctEntries : List (Node × Node) → Prop
  | [] => True
  | (_, value) :: rest => Distinct value ∧ DistinctEntries rest

end

end Node

open Node (IsKey)

/-- What a node of metadata is read as. -/
inductive Shape where
  /-- Data in which no names are known. -/
  | any
  | list (item : Shape)
  | table (value : Shape)
  | metadata
  | controller
  | method
  | parameter
  | type
  | property
  | named
  /-- What is beside the kind of a named type. -/
  | content (kind : ReferenceType.Kind)
  deriving DecidableEq

section Shapes

/-- What the fields of metadata are read as. -/
def Metadata.shape : Field → Shape
  | .controllers => .list .controller
  | .referenceTypes => .table .named

/-- What the fields of a controller are read as. -/
def Controller.shape : Field → Shape
  | .methods => .list .method
  | _ => .any

/-- What the fields of a method are read as. -/
def Method.shape : Field → Shape
  | .parameters => .list .parameter
  | _ => .any

/-- What the fields of a parameter are read as. -/
def Parameter.shape : Field → Shape
  | .type => .type
  | _ => .any

/-- What the fields of a type are read as. -/
def TypeSchema.shape : Field → Shape
  | .array => .type
  | _ => .any

/-- What the fields of a model are read as. -/
def ReferenceType.objectShape : ObjectField → Shape
  | .properties => .table .property
  | .additionalProperties => .any

/-- What the field of an enumeration is read as. -/
def ReferenceType.enumShape : EnumField → Shape
  | .enums => .any

/-- What the field of an alias is read as. -/
def ReferenceType.aliasShape : AliasField → Shape
  | .type => .type

/-- The kind that the entries of a named type state. -/
def ReferenceType.statedKind? (es : List (Node × Node)) : Option Kind :=
  (Node.value? kindKey.toList es).bind fun value =>
    value.name?.bind fun name => (Kind.names.find? fun k => k.1.toList = name).map (·.2)

/-- What a record reads a value as, if one of its fields has the name. -/
def Fields.shape? {ι : Type} [Fields ι] (shape : ι → Shape) (name : Text) : Option Shape :=
  (Fields.named? name : Option ι).map shape

/-- What is read under a name beside the kind of a named type. -/
def ReferenceType.Kind.part : Kind → Text → Option Shape
  | .object => Fields.shape? objectShape
  | .enumeration => Fields.shape? enumShape
  | .alias => Fields.shape? aliasShape

namespace Shape

/-- What the items of a sequence are read as. Records are not written as sequences. -/
def item : Shape → Option Shape
  | any => some any
  | list s => some s
  | _ => none

/-- What the value of an entry is read as, given its name and all entries; a record has nothing for
the names that it does not know. -/
def part : Shape → List (Node × Node) → Text → Option Shape
  | any, _, _ => some any
  | list _, _, _ => some any
  | table s, _, _ => some s
  | metadata, _, name => Fields.shape? Metadata.shape name
  | controller, _, name => Fields.shape? Controller.shape name
  | method, _, name => Fields.shape? Method.shape name
  | parameter, _, name => Fields.shape? Parameter.shape name
  | type, _, name => Fields.shape? TypeSchema.shape name
  | property, _, name =>
    if name = "required".toList then some any else Fields.shape? TypeSchema.shape name
  | named, es, name =>
    if name = ReferenceType.kindKey.toList then some any
    else match ReferenceType.statedKind? es with
      | some kind => kind.part name
      | none => some any
  | content kind, _, name => kind.part name

/-- What the value of an entry is read as, given its key; it is passed over if nothing is. -/
def under (s : Shape) (es : List (Node × Node)) (key : Node) : Shape :=
  (key.name?.bind (s.part es)).getD any

end Shape

end Shapes

/-- Entries that may come to others: scalars under new names that nothing is read under. -/
structure Additions (s : Shape) (es added : List (Node × Node)) : Prop where
  new : ∀ e ∈ added, ∃ name, e.1 = .atom name (.text name) ∧ s.part es name = none ∧
    name ∉ Node.names es ∧ e.2.IsScalar
  nodup : (Node.names added).Nodup

mutual

/-- The second tree is the first with the entries of its objects in some order, and with more of them
in its records. -/
inductive Rearranged : Shape → Node → Node → Prop where
  | atom {s : Shape} (source : Text) (value : Atom) :
    Rearranged s (.atom source value) (.atom source value)
  | unreadable {s : Shape} : Rearranged s .unreadable .unreadable
  | sequence {s item : Shape} {items others : List Node} (hitem : s.item = some item)
    (h : RearrangedItems item items others) : Rearranged s (.sequence items) (.sequence others)
  | mapping {s : Shape} {es fs added others : List (Node × Node)}
    (h : RearrangedEntries (s.under es) es fs) (hadded : Additions s es added)
    (hperm : others.Perm (fs ++ added)) : Rearranged s (.mapping es) (.mapping others)

/-- Items are rearranged, each in its place. -/
inductive RearrangedItems : Shape → List Node → List Node → Prop where
  | nil (s : Shape) : RearrangedItems s [] []
  | cons {s : Shape} {node other : Node} {items others : List Node} (h : Rearranged s node other)
    (hrest : RearrangedItems s items others) : RearrangedItems s (node :: items) (other :: others)

/-- The values of entries are rearranged, each in its place. -/
inductive RearrangedEntries :
    (Node → Shape) → List (Node × Node) → List (Node × Node) → Prop where
  | nil (shape : Node → Shape) : RearrangedEntries shape [] []
  | cons {shape : Node → Shape} {key value other : Node} {es fs : List (Node × Node)}
    (hkey : IsKey key) (h : Rearranged (shape key) value other)
    (hrest : RearrangedEntries shape es fs) :
    RearrangedEntries shape ((key, value) :: es) ((key, other) :: fs)

end

section Names

variable {es : List (Node × Node)}

theorem Node.distinctItems_iff {items : List Node} :
    DistinctItems items ↔ ∀ n ∈ items, n.Distinct := by
  induction items with
  | nil => simp [DistinctItems]
  | cons n items ih => rw [DistinctItems, ih, List.forall_mem_cons]

theorem Node.distinctEntries_iff : DistinctEntries es ↔ ∀ e ∈ es, e.2.Distinct := by
  induction es with
  | nil => simp [DistinctEntries]
  | cons e es ih => rw [DistinctEntries, ih, List.forall_mem_cons]

theorem Node.distinct_sequence_iff {items : List Node} :
    (Node.sequence items).Distinct ↔ ∀ n ∈ items, n.Distinct := by
  rw [Distinct, distinctItems_iff]

theorem Node.distinct_mapping_iff :
    (Node.mapping es).Distinct ↔ (names es).Nodup ∧ ∀ e ∈ es, e.2.Distinct := by
  rw [Distinct, distinctEntries_iff]

end Names

section Pairs

variable {R : α → β → Prop} {as : List α} {bs : List β}

theorem exists_of_forall₂_left (h : List.Forall₂ R as bs) {a : α} (ha : a ∈ as) :
    ∃ b ∈ bs, R a b := by
  induction h with
  | nil => cases ha
  | @cons c b as bs h _ ih =>
    rcases List.mem_cons.1 ha with rfl | ha
    · exact ⟨b, List.mem_cons_self, h⟩
    · obtain ⟨b', hb', hab⟩ := ih ha
      exact ⟨b', List.mem_cons_of_mem b hb', hab⟩

theorem exists_of_forall₂_right (h : List.Forall₂ R as bs) {b : β} (hb : b ∈ bs) :
    ∃ a ∈ as, R a b :=
  exists_of_forall₂_left (R := flip R) h.flip hb

end Pairs

section Additions

variable {s : Shape} {es : List (Node × Node)}

theorem Additions.nil : Additions s es [] := ⟨by simp, by simp [Node.names]⟩

theorem Additions.singleton (name : Text) {v : Node} (hpart : s.part es name = none)
    (hfresh : name ∉ Node.names es) (hv : v.IsScalar) :
    Additions s es [(.atom name (.text name), v)] := by
  refine ⟨?_, by simp [Node.names, Node.name?]⟩
  rw [List.forall_mem_singleton]
  exact ⟨name, rfl, hpart, hfresh, hv⟩

end Additions

namespace Rearranged

variable {s item : Shape} {n n' : Node} {items others : List Node} {es fs added : List (Node × Node)}

theorem items_iff : RearrangedItems s items others ↔ List.Forall₂ (Rearranged s) items others := by
  constructor
  · intro h
    induction items generalizing others with
    | nil => cases h; exact .nil
    | cons n items ih => cases h with | cons h hrest => exact .cons h (ih hrest)
  · intro h
    induction h with
    | nil => exact .nil s
    | cons h _ ih => exact .cons h ih

/-- What rearranging does to an entry. -/
def Entry (shape : Node → Shape) (e f : Node × Node) : Prop :=
  f.1 = e.1 ∧ IsKey e.1 ∧ Rearranged (shape e.1) e.2 f.2

theorem entries_iff {shape : Node → Shape} :
    RearrangedEntries shape es fs ↔ List.Forall₂ (Entry shape) es fs := by
  constructor
  · intro h
    induction es generalizing fs with
    | nil => cases h; exact .nil
    | cons e es ih => cases h with | cons hkey h hrest => exact .cons ⟨rfl, hkey, h⟩ (ih hrest)
  · intro h
    induction h with
    | nil => exact .nil shape
    | @cons e f _ _ h _ ih =>
      obtain ⟨key, value⟩ := e
      obtain ⟨key', other⟩ := f
      obtain ⟨rfl, hkey, h⟩ := h
      exact .cons hkey h ih

/-- An entry of an object has its place in the rearranged object. -/
theorem exists_right {es' : List (Node × Node)} (h : Rearranged s (.mapping es) (.mapping es'))
    {e : Node × Node} (he : e ∈ es) :
    IsKey e.1 ∧ ∃ v, (e.1, v) ∈ es' ∧ Rearranged (s.under es e.1) e.2 v := by
  cases h with
  | mapping h hadded hperm =>
    obtain ⟨⟨key, v⟩, hf, rfl, hkey, hv⟩ := exists_of_forall₂_left (entries_iff.1 h) he
    exact ⟨hkey, v, hperm.symm.subset (List.mem_append_left _ hf), hv⟩

/-- An entry of a rearranged object has been there before, or has come to it. -/
theorem exists_left {es' : List (Node × Node)} (h : Rearranged s (.mapping es) (.mapping es'))
    {f : Node × Node} (hf : f ∈ es') :
    (IsKey f.1 ∧ ∃ v, (f.1, v) ∈ es ∧ Rearranged (s.under es f.1) v f.2) ∨
      ∃ name, f.1 = .atom name (.text name) ∧ s.part es name = none ∧ f.2.IsScalar := by
  cases h with
  | mapping h hadded hperm =>
    rcases List.mem_append.1 (hperm.subset hf) with hf | hf
    · obtain ⟨⟨key, v⟩, he, heq, hkey, hv⟩ := exists_of_forall₂_right (entries_iff.1 h) hf
      rw [heq]
      exact .inl ⟨hkey, v, he, hv⟩
    · obtain ⟨name, hname, hnone, -, hscalar⟩ := hadded.new f hf
      exact .inr ⟨name, hname, hnone, hscalar⟩

theorem isKey_left {es' : List (Node × Node)} (h : Rearranged s (.mapping es) (.mapping es')) :
    ∀ e ∈ es, IsKey e.1 := fun _ he => (exists_right h he).1

theorem isKey_right {es' : List (Node × Node)} (h : Rearranged s (.mapping es) (.mapping es')) :
    ∀ f ∈ es', IsKey f.1 := by
  intro f hf
  rcases exists_left h hf with ⟨hkey, -⟩ | ⟨name, hname, -⟩
  · exact hkey
  · exact hname ▸ .name name

theorem names_eq {shape : Node → Shape} (h : List.Forall₂ (Entry shape) es fs) :
    Node.names fs = Node.names es := by
  induction h with
  | nil => rfl
  | @cons e f es fs h _ ih =>
    rw [Node.names, List.filterMap_cons, h.1, ← Node.names, ih]
    rfl

/-- The names stay different. -/
theorem nodup_names {es' : List (Node × Node)} (h : Rearranged s (.mapping es) (.mapping es'))
    (hnodup : (Node.names es).Nodup) : (Node.names es').Nodup := by
  cases h with
  | @mapping _ _ fs added _ h hadded hperm =>
    have hnames : (Node.names es').Perm (Node.names es ++ Node.names added) := by
      rw [← names_eq (entries_iff.1 h), Node.names, Node.names, Node.names, ← List.filterMap_append]
      exact hperm.filterMap _
    rw [hnames.nodup_iff]
    refine List.nodup_append'.2 ⟨hnodup, hadded.nodup, ?_⟩
    intro name hold hnew
    obtain ⟨e, he, hname⟩ := List.mem_filterMap.1 hnew
    obtain ⟨other, heq, -, hfresh, -⟩ := hadded.new e he
    rw [heq] at hname
    cases hname
    exact hfresh hold

/-- Nothing comes to what reads every name. -/
theorem perm_of_part {es' : List (Node × Node)} (h : Rearranged s (.mapping es) (.mapping es'))
    (hpart : ∀ name, s.part es name ≠ none) :
    ∃ fs, List.Forall₂ (Entry (s.under es)) es fs ∧ es'.Perm fs := by
  cases h with
  | @mapping _ _ fs added _ h hadded hperm =>
    refine ⟨fs, entries_iff.1 h, ?_⟩
    cases added with
    | nil => rwa [List.append_nil] at hperm
    | cons e added =>
      obtain ⟨name, -, hnone, -⟩ := hadded.new e List.mem_cons_self
      exact absurd hnone (hpart name)

/-- The value under a known name has its place in the rearranged object. -/
theorem value?_right {es' : List (Node × Node)} (h : Rearranged s (.mapping es) (.mapping es'))
    (hnodup : (Node.names es).Nodup) {name : Text} {v : Node} (hv : Node.value? name es = some v) :
    ∃ v', Node.value? name es' = some v' ∧ Rearranged ((s.part es name).getD .any) v v' := by
  have hmem := (Node.value?_eq_some_iff (isKey_left h) hnodup).1 hv
  obtain ⟨-, v', hv', hrest⟩ := exists_right h hmem
  exact ⟨v', (Node.value?_eq_some_iff (isKey_right h) (nodup_names h hnodup)).2 hv', hrest⟩

/-- Nothing comes under a known name. -/
theorem value?_none {es' : List (Node × Node)} (h : Rearranged s (.mapping es) (.mapping es'))
    {name : Text} (hname : s.part es name ≠ none) (hv : Node.value? name es = none) :
    Node.value? name es' = none := by
  rw [Node.value?_eq_none_iff] at hv ⊢
  intro hmem
  obtain ⟨v', hv'⟩ := (Node.mem_names_iff (isKey_right h)).1 hmem
  rcases exists_left h hv' with ⟨-, v, hold, -⟩ | ⟨other, heq, hnone, -⟩
  · exact hv ((Node.mem_names_iff (isKey_left h)).2 ⟨v, hold⟩)
  · cases heq
    exact hname hnone

/-- What is left of rearranged entries without those of a known name is rearranged, as something else
that reads the other names alike. -/
theorem without {t : Shape} {name : Text} {es' : List (Node × Node)}
    (h : Rearranged s (.mapping es) (.mapping es')) (hname : s.part es name ≠ none)
    (hpart : ∀ other, other ≠ name → t.part (Node.without name es) other = s.part es other) :
    Rearranged t (.mapping (Node.without name es)) (.mapping (Node.without name es')) := by
  cases h with
  | @mapping _ _ fs added _ h hadded hperm =>
    have hfilter : List.Forall₂ (Entry (s.under es)) (Node.without name es)
        (Node.without name fs) :=
      List.rel_filter (fun e f hef => by simp only [hef.1]) (entries_iff.1 h)
    have hother : ∀ e ∈ Node.without name es, e.1.name? ≠ some name := fun e he => by
      simpa using (List.mem_filter.1 he).2
    have hunder : ∀ key : Node, key.name? ≠ some name →
        t.under (Node.without name es) key = s.under es key := by
      intro key hkey
      rw [Shape.under, Shape.under]
      cases hother : key.name? with
      | none => rfl
      | some other =>
        have hne : other ≠ name := fun heq => hkey (heq ▸ hother)
        simp only [Option.bind_some, hpart other hne]
    have hrest : List.Forall₂ (Entry (t.under (Node.without name es))) (Node.without name es)
        (Node.without name fs) := by
      refine ((List.forall₂_and_left _ _).2 ⟨hother, hfilter⟩).imp ?_
      rintro e f ⟨he, hkey, hisKey, hrest⟩
      exact ⟨hkey, hisKey, (hunder e.1 he).symm ▸ hrest⟩
    have hadditions : Additions t (Node.without name es) (Node.without name added) := by
      refine ⟨?_, hadded.nodup.sublist (Node.names_without_sublist name added)⟩
      intro e he
      obtain ⟨other, heq, hnone, hfresh, hscalar⟩ := hadded.new e (List.mem_filter.1 he).1
      have hne : other ≠ name := by
        rintro rfl
        exact hname hnone
      exact ⟨other, heq, (hpart other hne).trans hnone,
        fun hmem => hfresh ((Node.names_without_sublist name es).subset hmem), hscalar⟩
    refine .mapping (entries_iff.2 hrest) hadditions ?_
    rw [Node.without, Node.without, Node.without, ← List.filter_append]
    exact hperm.filter _

end Rearranged

end RouteModule
