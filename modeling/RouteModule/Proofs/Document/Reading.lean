import Mathlib.Data.List.Nodup
import RouteModule.Json.Node
import RouteModule.Metadata.Reader
import RouteModule.Proofs.Json.Notation
import RouteModule.Proofs.Table

/-!
How the nodes of JSON values are read as data. A value has no references and says everything in its
own scalars, so that reading what was written leaves the state of the reader as it is and gives what
was written.
-/

namespace RouteModule

namespace Json

mutual

/-- The number of containers in one another. -/
def nesting : Json → Nat
  | null => 0
  | bool _ => 0
  | number _ => 0
  | text _ => 0
  | array items => nestingOfItems items + 1
  | object members => nestingOfMembers members + 1

/-- The greatest nesting of items. -/
def nestingOfItems : List Json → Nat
  | [] => 0
  | v :: rest => max (nesting v) (nestingOfItems rest)

/-- The greatest nesting of the values of members. -/
def nestingOfMembers : List (Text × Json) → Nat
  | [] => 0
  | (_, v) :: rest => max (nesting v) (nestingOfMembers rest)

end

mutual

/-- The names of each object in a value ascend. -/
def Ordered : Json → Prop
  | null => True
  | bool _ => True
  | number _ => True
  | text _ => True
  | array items => OrderedItems items
  | object members => Table.Sorted members ∧ OrderedMembers members

/-- All items are ordered. -/
def OrderedItems : List Json → Prop
  | [] => True
  | v :: rest => Ordered v ∧ OrderedItems rest

/-- The values of all members are ordered. -/
def OrderedMembers : List (Text × Json) → Prop
  | [] => True
  | (_, v) :: rest => Ordered v ∧ OrderedMembers rest

end

variable {items : List Json} {members : List (Text × Json)} {depth : Nat}

theorem nestingOfItems_le_iff :
    nestingOfItems items ≤ depth ↔ ∀ v ∈ items, v.nesting ≤ depth := by
  induction items with
  | nil => simp [nestingOfItems]
  | cons v items ih => rw [nestingOfItems, Nat.max_le, ih, List.forall_mem_cons]

theorem nestingOfMembers_le_iff :
    nestingOfMembers members ≤ depth ↔ ∀ m ∈ members, m.2.nesting ≤ depth := by
  induction members with
  | nil => simp [nestingOfMembers]
  | cons m members ih => rw [nestingOfMembers, Nat.max_le, ih, List.forall_mem_cons]

theorem nesting_array_le_iff :
    (array items).nesting ≤ depth + 1 ↔ ∀ v ∈ items, v.nesting ≤ depth := by
  rw [nesting, Nat.add_le_add_iff_right, nestingOfItems_le_iff]

theorem nesting_object_le_iff :
    (object members).nesting ≤ depth + 1 ↔ ∀ m ∈ members, m.2.nesting ≤ depth := by
  rw [nesting, Nat.add_le_add_iff_right, nestingOfMembers_le_iff]

theorem entries_eq_map (members : List (Text × Json)) :
    entries members = members.map fun m => (.atom m.1 (.text m.1), m.2.node) := by
  induction members with
  | nil => rfl
  | cons m members ih => rw [entries, ih, List.map_cons]

end Json

/-- The table of what ascends already is that itself. -/
theorem Table.ofList_eq_self {t : Table α} (h : t.Sorted) : Table.ofList t = t := by
  have hnodup : (t.map Prod.fst).Nodup := by
    refine List.pairwise_map.2 (h.imp ?_)
    intro a b hab heq
    simp [heq, Text.before_irrefl] at hab
  exact (Sorted.ofList t).eq_of_perm h (ofList_perm hnodup)

/-- The fields of a record are listed once each, and are told apart by their names. -/
structure Fields.Lawful (ι : Type) [Fields ι] : Prop where
  named : ∀ i : ι, Fields.named? (Fields.name i).toList = some i
  nodup : (Fields.all : List ι).Nodup

/-- The fields that have a value, with their names, in the order of the declaration. -/
def Fields.values {ι β : Type} [Fields ι] (value : ι → Option β) : List (Text × β) :=
  (Fields.all : List ι).filterMap fun i => (value i).map fun v => ((Fields.name i).toList, v)

theorem Fields.Lawful.mem_all {ι : Type} [Fields ι] (h : Fields.Lawful ι) (i : ι) :
    i ∈ (Fields.all : List ι) := List.mem_of_find?_eq_some (h.named i)

namespace Dialect

variable {d : Dialect}

section Scalars

@[simp] theorem follow_atom (d : Dialect) (source : Text) (value : Atom) :
    d.follow (.atom source value) = pure (.atom source value) := rfl

@[simp] theorem follow_sequence (d : Dialect) (items : List Node) :
    d.follow (.sequence items) = pure (.sequence items) := rfl

@[simp] theorem follow_mapping (d : Dialect) (es : List (Node × Node)) :
    d.follow (.mapping es) = pure (.mapping es) := rfl

@[simp] theorem follow_unreadable (d : Dialect) : d.follow .unreadable = pure .unreadable := rfl

/-- A value has no references. -/
@[simp] theorem follow_node (d : Dialect) (v : Json) : d.follow v.node = pure v.node := by
  cases v with
  | null => rfl
  | bool b => rfl
  | number n => rfl
  | text t => rfl
  | array items => rfl
  | object members => rfl

theorem untagged_node (v : Json) : v.node.untagged = v.node := by
  cases v with
  | null => rfl
  | bool b => rfl
  | number n => rfl
  | text t => rfl
  | array items => rfl
  | object members => rfl

/-- A value has no tags. -/
@[simp] theorem container_node (d : Dialect) (v : Json) : d.container v.node = v.node := by
  unfold container
  split
  · exact untagged_node v
  · rfl

theorem text?_node (t : Text) : d.text? (Json.text t).node = some t := by
  unfold text?
  split
  · rw [untagged_node]
    rfl
  · rfl

theorem text_node (expected : String) (t : Text) :
    d.text expected (Json.text t).node = pure t := by
  rw [text, follow_node, pure_bind, text?_node]

theorem bool_node (b : Bool) : d.bool (Json.bool b).node = pure b := by
  rw [bool, follow_node, pure_bind, atom?, untagged_node]
  simp [Json.node]

theorem natural16_node {n : Nat} (h : n < 65536) :
    d.natural16 (Json.natural n).node = pure n := by
  have hrange : (0 : Int) ≤ n ∧ (n : Int) < 65536 := by omega
  have hsign : (Number.integer n).text.head? ≠ some '-' := by
    intro hhead
    have hdigit : Text.isDigit '-' = true := Text.isDigit_of_mem_ofNat (List.mem_of_head? hhead)
    revert hdigit
    decide
  rw [natural16, follow_node, pure_bind, atom?, untagged_node]
  simp [Json.node, Json.natural, hrange, hsign]

theorem entryName_node (expected : String) (t : Text) :
    d.entryName expected (Json.text t).node = pure t := by
  rw [entryName, follow_node, pure_bind, text?_node]

/-- A null says that what may be absent is absent. -/
theorem optional_null (read : Node → Reading α) : d.optional read Json.null.node = pure none := by
  rw [optional, follow_node, pure_bind]
  rfl

/-- Anything but a null is read where it may be absent. -/
theorem optional_node {read : Node → Reading α} {v : Json} {x : α} (hv : v ≠ .null)
    (h : read v.node = pure x) : d.optional read v.node = pure (some x) := by
  rw [optional, follow_node, pure_bind]
  cases v with
  | null => exact absurd rfl hv
  | bool b => simp only [Json.node] at h ⊢; rw [h, pure_bind]
  | number n => simp only [Json.node] at h ⊢; rw [h, pure_bind]
  | text t => simp only [Json.node] at h ⊢; rw [h, pure_bind]
  | array items => simp only [Json.node] at h ⊢; rw [h, pure_bind]
  | object members => simp only [Json.node] at h ⊢; rw [h, pure_bind]

theorem pick_of_find? {known : List (String × α)} {name : Text} {k : String × α}
    (h : known.find? (fun k => k.1.toList = name) = some k) : pick known name = pure k.2 := by
  rw [pick, h]

theorem variant_node {known : List (String × α)} (depth : Nat) (name : String) {k : String × α}
    (h : known.find? (fun k => k.1.toList = name.toList) = some k) :
    d.variant depth known (Json.literal name).node = pure k.2 := by
  rw [variant, follow_node, pure_bind]
  cases d.format with
  | json => exact pick_of_find? h
  | yaml => exact pick_of_find? h
  | toml => exact pick_of_find? h

theorem tagName_node {known : List (String × α)} (name : String) {k : String × α}
    (h : known.find? (fun k => k.1.toList = name.toList) = some k) :
    d.tagName known (Json.literal name).node = pure k.2 := by
  rw [tagName, Json.literal, text_node, pure_bind]
  exact pick_of_find? h

end Scalars

section Containers

variable {depth : Nat} {write : α → Json}

theorem mapM_nodes {read : Node → Reading α} {xs : List α}
    (h : ∀ x ∈ xs, read (write x).node = pure x) :
    (Json.nodes (xs.map write)).mapM read = pure xs := by
  induction xs with
  | nil => rfl
  | cons x xs ih =>
    have hx := h x List.mem_cons_self
    have hxs := ih fun y hy => h y (List.mem_cons_of_mem x hy)
    rw [List.map_cons, Json.nodes, List.mapM_cons, hx, pure_bind, hxs, pure_bind]

/-- An array is read as a list of what its items are read as. -/
theorem list_node {read : Nat → Node → Reading α} {xs : List α}
    (hdepth : (Json.array (xs.map write)).nesting ≤ depth)
    (h : ∀ depth, ∀ x ∈ xs, (write x).nesting ≤ depth → read depth (write x).node = pure x) :
    d.list depth read (Json.array (xs.map write)).node = pure xs := by
  cases depth with
  | zero => simp [Json.nesting] at hdepth
  | succ depth =>
    rw [Json.nesting_array_le_iff] at hdepth
    rw [list, follow_node, pure_bind, container_node]
    exact mapM_nodes fun x hx => h depth x hx (hdepth _ (List.mem_map_of_mem hx))

theorem entryName_atom (expected : String) (t : Text) :
    d.entryName expected (.atom t (.text t)) = pure t :=
  entryName_node expected t

theorem entries_node {read : Node → Reading α} {t : Table α}
    (h : ∀ e ∈ t, read (write e.2).node = pure e.2) :
    d.entries read (Json.entries (t.map fun e => (e.1, write e.2))) = pure t := by
  induction t with
  | nil => rfl
  | cons e t ih =>
    have he := h e List.mem_cons_self
    have ht := ih fun a ha => h a (List.mem_cons_of_mem e ha)
    rw [List.map_cons, Json.entries, entries, entryName_atom, pure_bind, he, pure_bind, ht,
      pure_bind]

/-- An object of ascending names is read as a table of what its values are read as. -/
theorem table_node {read : Nat → Node → Reading α} {t : Table α} (hsorted : t.Sorted)
    (hdepth : (Json.object (t.map fun e => (e.1, write e.2))).nesting ≤ depth)
    (h : ∀ depth, ∀ e ∈ t, (write e.2).nesting ≤ depth → read depth (write e.2).node = pure e.2) :
    d.table depth read (Json.object (t.map fun e => (e.1, write e.2))).node = pure t := by
  cases depth with
  | zero => simp [Json.nesting] at hdepth
  | succ depth =>
    rw [Json.nesting_object_le_iff] at hdepth
    have hentries : d.entries (read depth) (Json.entries (t.map fun e => (e.1, write e.2))) =
        pure t := entries_node fun e he =>
      h depth e he (hdepth (e.1, write e.2) (List.mem_map_of_mem he))
    rw [table, follow_node, pure_bind, container_node]
    simp only [Json.node, hentries, pure_bind, Table.ofList_eq_self hsorted]

end Containers

section Values

/-- A scalar is read at any depth. -/
theorem json_atom (d : Dialect) (depth : Nat) (source : Text) (value : Atom) :
    d.json depth (.atom source value) = d.jsonOfAtom source value := by
  cases depth with
  | zero => delta json; rfl
  | succ depth => delta json; rfl

theorem json_sequence (d : Dialect) (depth : Nat) (items : List Node) :
    d.json (depth + 1) (.sequence items) = do return .array (← items.mapM (d.json depth)) := by
  delta json
  rfl

theorem json_mapping_nil (d : Dialect) (depth : Nat) :
    d.json (depth + 1) (.mapping []) = pure (.object []) := by
  delta json
  rfl

theorem json_mapping_cons (d : Dialect) (depth : Nat) (key value : Node)
    (rest : List (Node × Node)) :
    d.json (depth + 1) (.mapping ((key, value) :: rest)) = do
      let name ← d.entryName "a string key" key
      let value ← d.json depth value
      return .ofMembers ((name, value) :: (← d.entries (d.json depth) rest)) := by
  delta json
  rfl

mutual

/-- A value is read back as a value. -/
theorem json_node : (v : Json) → v.Ordered → (depth : Nat) →
    v.nesting ≤ depth → d.json depth v.node = pure v
  | .null, _, depth, _ => json_atom d depth _ _
  | .bool b, _, depth, _ => json_atom d depth _ _
  | .number n, _, depth, _ => json_atom d depth _ _
  | .text t, _, depth, _ => json_atom d depth _ _
  | .array items, h, 0, hdepth => by simp [Json.nesting] at hdepth
  | .array items, h, depth + 1, hdepth => by
    rw [Json.nesting, Nat.add_le_add_iff_right] at hdepth
    rw [Json.Ordered] at h
    rw [Json.node, json_sequence, mapM_json items h depth hdepth, pure_bind]
  | .object members, h, 0, hdepth => by simp [Json.nesting] at hdepth
  | .object [], h, depth + 1, hdepth => json_mapping_nil d depth
  | .object ((name, v) :: members), h, depth + 1, hdepth => by
    rw [Json.nesting, Nat.add_le_add_iff_right, Json.nestingOfMembers, Nat.max_le] at hdepth
    rw [Json.Ordered, Json.OrderedMembers] at h
    rw [Json.node, Json.entries, json_mapping_cons, entryName_atom, pure_bind,
      json_node v h.2.1 depth hdepth.1, pure_bind,
      entries_json members h.2.2 depth hdepth.2, pure_bind, Json.ofMembers,
      Table.ofList_eq_self h.1]

theorem mapM_json : (items : List Json) → Json.OrderedItems items →
    (depth : Nat) → Json.nestingOfItems items ≤ depth →
    (Json.nodes items).mapM (d.json depth) = pure items
  | [], _, _, _ => rfl
  | v :: items, h, depth, hdepth => by
    rw [Json.nestingOfItems, Nat.max_le] at hdepth
    rw [Json.OrderedItems] at h
    rw [Json.nodes, List.mapM_cons, json_node v h.1 depth hdepth.1, pure_bind,
      mapM_json items h.2 depth hdepth.2, pure_bind]

theorem entries_json : (members : List (Text × Json)) →
    Json.OrderedMembers members → (depth : Nat) → Json.nestingOfMembers members ≤ depth →
    d.entries (d.json depth) (Json.entries members) = pure members
  | [], _, _, _ => rfl
  | (name, v) :: members, h, depth, hdepth => by
    rw [Json.nestingOfMembers, Nat.max_le] at hdepth
    rw [Json.OrderedMembers] at h
    rw [Json.entries, entries, entryName_atom, pure_bind,
      json_node v h.1 depth hdepth.1, pure_bind, entries_json members h.2 depth hdepth.2,
      pure_bind]

end

/-- A scalar is set aside at any depth. -/
theorem hold_atom (d : Dialect) (expected : String) (depth : Nat) (source : Text) (value : Atom) :
    d.hold expected depth (.atom source value) = d.holdAtom expected source value := by
  cases depth with
  | zero => delta hold; rfl
  | succ depth => delta hold; rfl

theorem hold_sequence (d : Dialect) (expected : String) (depth : Nat) (items : List Node) :
    d.hold expected (depth + 1) (.sequence items) = items.forM (d.hold "any value" depth) := by
  delta hold
  rfl

/-- What is asked of an entry that is set aside; the complaint about its key says what was expected
there. -/
def holdEntry (d : Dialect) (expected : String) (depth : Nat) (e : Node × Node) : Reading Unit := do
  if d.format = .json ∧ (d.text? e.1).isNone then throw .malformed
  d.hold expected depth e.1
  d.hold "any value" depth e.2

theorem hold_mapping (d : Dialect) (expected : String) (depth : Nat) (es : List (Node × Node)) :
    d.hold expected (depth + 1) (.mapping es) = es.forM (d.holdEntry "any value" depth) := by
  delta holdEntry hold
  rfl

/-- Under a name a value is set aside by itself. -/
theorem holdEntry_name (expected : String) (depth : Nat) (name : Text) (v : Node) :
    d.holdEntry expected depth (.atom name (.text name), v) = d.hold "any value" depth v := by
  have htext : d.text? (.atom name (.text name)) = some name := text?_node name
  have hkey : d.hold expected depth (.atom name (.text name)) = pure () :=
    hold_atom d _ depth _ _
  simp only [holdEntry, htext, Option.isNone_some, Bool.false_eq_true, and_false, if_false, hkey,
    pure_bind]

mutual

/-- A value can be set aside. -/
theorem hold_node : (v : Json) → (expected : String) → (depth : Nat) →
    v.nesting ≤ depth → d.hold expected depth v.node = pure ()
  | .null, expected, depth, _ => hold_atom d expected depth _ _
  | .bool b, expected, depth, _ => hold_atom d expected depth _ _
  | .number n, expected, depth, _ => hold_atom d expected depth _ _
  | .text t, expected, depth, _ => hold_atom d expected depth _ _
  | .array items, expected, 0, hdepth => by simp [Json.nesting] at hdepth
  | .array items, expected, depth + 1, hdepth => by
    rw [Json.nesting, Nat.add_le_add_iff_right] at hdepth
    rw [Json.node, hold_sequence, forM_hold items depth hdepth]
  | .object members, expected, 0, hdepth => by simp [Json.nesting] at hdepth
  | .object members, expected, depth + 1, hdepth => by
    rw [Json.nesting, Nat.add_le_add_iff_right] at hdepth
    rw [Json.node, hold_mapping, forM_holdEntry members depth hdepth]

theorem forM_hold : (items : List Json) → (depth : Nat) →
    Json.nestingOfItems items ≤ depth →
    (Json.nodes items).forM (d.hold "any value" depth) = pure ()
  | [], _, _ => rfl
  | v :: items, depth, hdepth => by
    rw [Json.nestingOfItems, Nat.max_le] at hdepth
    rw [Json.nodes, List.forM, hold_node v _ depth hdepth.1, pure_bind]
    exact forM_hold items depth hdepth.2

theorem forM_holdEntry : (members : List (Text × Json)) →
    (depth : Nat) → Json.nestingOfMembers members ≤ depth →
    (Json.entries members).forM (d.holdEntry "any value" depth) = pure ()
  | [], _, _ => rfl
  | (name, v) :: members, depth, hdepth => by
    rw [Json.nestingOfMembers, Nat.max_le] at hdepth
    rw [Json.entries, List.forM, holdEntry_name, hold_node v _ depth hdepth.1, pure_bind]
    exact forM_holdEntry members depth hdepth.2

end

/-- An array of values is read back as the values. -/
theorem list_json {values : List Json} {depth : Nat}
    (hdepth : (Json.array values).nesting ≤ depth) (h : ∀ v ∈ values, v.Ordered) :
    d.list depth d.json (Json.array values).node = pure values := by
  rw [← List.map_id values] at hdepth
  have hlist : d.list depth d.json (Json.array (values.map id)).node = pure values :=
    list_node hdepth fun depth v hv => json_node v (h v hv) depth
  rwa [List.map_id] at hlist

end Values

section Records

variable {ι : Type} [Fields ι] {read : Readers ι} {draft result : Draft ι} {β : Type}
  {node : β → Node} {key : Text → Node} {es fs : List (Text × β)} {ms : List (Text × Json)}

/-- Named values hold the fields of a draft: the node of each is read as one of them, and none is
left out. -/
structure Holds (node : β → Node) (read : Readers ι) (es : List (Text × β)) (result : Draft ι) :
    Prop where
  nodup : (es.map Prod.fst).Nodup
  known : ∀ e ∈ es, ∃ i v, Fields.named? e.1 = some i ∧ result i = some v ∧
    read i (node e.2) = pure v
  complete : ∀ i, result i ≠ none → ∃ e ∈ es, Fields.named? e.1 = some i

/-- The order of the values does not matter. -/
theorem Holds.perm (h : Holds node read es result) (hperm : fs.Perm es) :
    Holds node read fs result where
  nodup := (hperm.map Prod.fst).nodup_iff.2 h.nodup
  known m hm := h.known m (hperm.subset hm)
  complete i hi := by
    obtain ⟨m, hm, hname⟩ := h.complete i hi
    exact ⟨m, hperm.symm.subset hm, hname⟩

theorem mem_values_iff (hlawful : Fields.Lawful ι) (value : ι → Option β) (e : Text × β) :
    e ∈ Fields.values value ↔ ∃ i w, value i = some w ∧ e = ((Fields.name i).toList, w) := by
  simp only [Fields.values, List.mem_filterMap, Option.map_eq_some_iff]
  constructor
  · rintro ⟨i, -, w, hw, rfl⟩
    exact ⟨i, w, hw, rfl⟩
  · rintro ⟨i, w, hw, rfl⟩
    exact ⟨i, hlawful.mem_all i, w, hw, rfl⟩

/-- Fields of one name are one field, and each field is there once. -/
theorem nodup_values (hlawful : Fields.Lawful ι) (value : ι → Option β) :
    ((Fields.values value).map Prod.fst).Nodup := by
  rw [Fields.values, List.map_filterMap]
  refine List.Nodup.filterMap ?_ hlawful.nodup
  intro i j name hi hj
  simp only [Option.map_map, Option.mem_def, Option.map_eq_some_iff] at hi hj
  obtain ⟨_, -, rfl⟩ := hi
  obtain ⟨_, -, hname⟩ := hj
  have hboth := hlawful.named j
  rw [show (Fields.name j).toList = (Fields.name i).toList from hname, hlawful.named i] at hboth
  exact Option.some.inj hboth

/-- The fields that are there, each under its name, hold a draft of what they are read as. -/
theorem holds_values (hlawful : Fields.Lawful ι) {value : ι → Option β}
    (hread : ∀ i, (value i = none ∧ result i = none) ∨
      ∃ w v, value i = some w ∧ result i = some v ∧ read i (node w) = pure v) :
    Holds node read (Fields.values value) result where
  nodup := nodup_values hlawful value
  known e he := by
    obtain ⟨i, w, hw, rfl⟩ := (mem_values_iff hlawful value e).1 he
    rcases hread i with ⟨hnone, -⟩ | ⟨w', v, hw', hv, hread⟩
    · rw [hnone] at hw
      cases hw
    · rw [hw] at hw'
      cases hw'
      exact ⟨i, v, hlawful.named i, hv, hread⟩
  complete i hi := by
    rcases hread i with ⟨-, hnone⟩ | ⟨w, v, hw, -, -⟩
    · exact absurd hnone hi
    · exact ⟨_, (mem_values_iff hlawful value _).2 ⟨i, w, hw, rfl⟩, hlawful.named i⟩

theorem present_fields (value : ι → Option Json) :
    Json.present ((Fields.all : List ι).map fun i => (Fields.name i, value i)) =
      Fields.values value := by
  rw [Json.present, List.filterMap_map]
  rfl

theorem mem_present_iff (hlawful : Fields.Lawful ι) (value : ι → Option Json) (m : Text × Json) :
    m ∈ Json.present ((Fields.all : List ι).map fun i => (Fields.name i, value i)) ↔
      ∃ i w, value i = some w ∧ m = ((Fields.name i).toList, w) := by
  rw [present_fields, mem_values_iff hlawful]

theorem nodup_present (hlawful : Fields.Lawful ι) (value : ι → Option Json) :
    ((Json.present ((Fields.all : List ι).map fun i => (Fields.name i, value i))).map
      Prod.fst).Nodup := by
  rw [present_fields]
  exact nodup_values hlawful value

/-- A name that no field has is none of the names that are there. -/
theorem fresh_present (hlawful : Fields.Lawful ι) (value : ι → Option Json) {name : Text}
    (h : (Fields.named? name : Option ι) = none) :
    name ∉ (Json.present ((Fields.all : List ι).map fun i => (Fields.name i, value i))).map
      Prod.fst := by
  rw [List.mem_map]
  rintro ⟨m, hm, hname⟩
  obtain ⟨i, w, -, rfl⟩ := (mem_present_iff hlawful value m).1 hm
  rw [← hname, hlawful.named i] at h
  cases h

theorem holds_present (hlawful : Fields.Lawful ι) {value : ι → Option Json}
    (hread : ∀ i, (value i = none ∧ result i = none) ∨
      ∃ w v, value i = some w ∧ result i = some v ∧ read i w.node = pure v) :
    Holds Json.node read
      (Json.present ((Fields.all : List ι).map fun i => (Fields.name i, value i))) result := by
  rw [present_fields]
  exact holds_values hlawful hread

theorem name_of_named? {name : Text} {i : ι} (h : Fields.named? name = some i) :
    (Fields.name i).toList = name := by
  simpa using List.find?_some h

theorem field?_atom (name : Text) :
    (d.field? (.atom name (.text name)) : Reading (Option ι)) = pure (Fields.named? name) := by
  have htext : d.text? (.atom name (.text name)) = some name := text?_node name
  rw [field?, follow_atom, pure_bind, htext]

/-- What is left to be read: the values under the names of fields are those of the fields that a
draft lacks. Under names that are not known there may be anything that can be passed over. -/
structure Pending (node : β → Node) (read : Readers ι) (es : List (Text × β))
    (draft result : Draft ι) : Prop where
  nodup : (es.map Prod.fst).Nodup
  known : ∀ e ∈ es, ((Fields.named? e.1 : Option ι) = none ∧ intact (node e.2) = true) ∨
    ∃ i v, Fields.named? e.1 = some i ∧ result i = some v ∧ read i (node e.2) = pure v
  kept : ∀ i, draft i = none ∨ draft i = result i
  free : ∀ e ∈ es, ∀ i, Fields.named? e.1 = some i → draft i = none
  complete : ∀ i, draft i = none → result i ≠ none → ∃ e ∈ es, Fields.named? e.1 = some i

/-- Before anything is read all values are left. -/
theorem Pending.start (hnodup : (es.map Prod.fst).Nodup)
    (hknown : ∀ e ∈ es, ((Fields.named? e.1 : Option ι) = none ∧ intact (node e.2) = true) ∨
      ∃ i v, Fields.named? e.1 = some i ∧ result i = some v ∧ read i (node e.2) = pure v)
    (hcomplete : ∀ i, result i ≠ none → ∃ e ∈ es, Fields.named? e.1 = some i) :
    Pending node read es Draft.empty result where
  nodup := hnodup
  known := hknown
  kept _ := .inl rfl
  free _ _ _ _ := rfl
  complete i _ := hcomplete i

theorem Holds.pending (h : Holds node read es result) :
    Pending node read es Draft.empty result :=
  .start h.nodup (fun e he => .inr (h.known e he)) h.complete

/-- A draft lacks nothing where nothing is left. -/
theorem Pending.eq_of_nil (h : Pending node read [] draft result) : draft = result := by
  funext i
  rcases h.kept i with hnone | heq
  · cases hr : result i with
    | none => exact hnone
    | some v =>
      obtain ⟨e, he, -⟩ := h.complete i hnone (by simp [hr])
      cases he
  · exact heq

/-- A value under a name that no field has is passed over. -/
theorem Pending.unknown {e : Text × β} (h : Pending node read (e :: es) draft result)
    (hname : (Fields.named? e.1 : Option ι) = none) : Pending node read es draft result where
  nodup := (List.nodup_cons.1 h.nodup).2
  known f hf := h.known f (List.mem_cons_of_mem e hf)
  kept := h.kept
  free f hf := h.free f (List.mem_cons_of_mem e hf)
  complete j hnone hresult := by
    obtain ⟨f, hf, hfj⟩ := h.complete j hnone hresult
    rcases List.mem_cons.1 hf with rfl | hf
    · rw [hname] at hfj
      cases hfj
    · exact ⟨f, hf, hfj⟩

/-- A value under the name of a field is put there. -/
theorem Pending.put [DecidableEq ι] {e : Text × β} {i : ι} {v : Fields.Value i}
    (h : Pending node read (e :: es) draft result) (hname : Fields.named? e.1 = some i)
    (hv : result i = some v) : Pending node read es (draft.put i v) result where
  nodup := (List.nodup_cons.1 h.nodup).2
  known f hf := h.known f (List.mem_cons_of_mem e hf)
  kept j := by
    by_cases hj : j = i
    · subst hj
      exact .inr (by rw [Draft.put_same, hv])
    · rw [Draft.put_other _ _ hj]
      exact h.kept j
  free f hf j hfj := by
    have hj : j ≠ i := by
      rintro rfl
      have hsame : f.1 = e.1 := (name_of_named? hfj).symm.trans (name_of_named? hname)
      exact (List.nodup_cons.1 h.nodup).1 (hsame ▸ List.mem_map_of_mem hf)
    rw [Draft.put_other _ _ hj]
    exact h.free f (List.mem_cons_of_mem e hf) j hfj
  complete j hnone hresult := by
    have hj : j ≠ i := by
      rintro rfl
      rw [Draft.put_same] at hnone
      cases hnone
    rw [Draft.put_other _ _ hj] at hnone
    obtain ⟨f, hf, hfj⟩ := h.complete j hnone hresult
    rcases List.mem_cons.1 hf with rfl | hf
    · exact absurd (Option.some.inj (hfj.symm.trans hname)) hj
    · exact ⟨f, hf, hfj⟩

variable [DecidableEq ι]

/-- The values that are left fill the fields that are left, if `key` is how names are written. -/
theorem fill_pending
    (hkey : ∀ name, (d.field? (key name) : Reading (Option ι)) = pure (Fields.named? name))
    (h : Pending node read es draft result) :
    d.fill read (es.map fun e => (key e.1, node e.2)) draft = pure result := by
  induction es generalizing draft with
  | nil => rw [List.map_nil, fill, h.eq_of_nil]
  | cons e es ih =>
    rw [List.map_cons, fill, hkey, pure_bind]
    rcases h.known e List.mem_cons_self with ⟨hname, hintact⟩ | ⟨i, v, hname, hv, hread⟩
    · rw [hname]
      simp only [skip, hintact, if_true, pure_bind]
      exact ih (h.unknown hname)
    · have hnone : draft i = none := h.free e List.mem_cons_self i hname
      rw [hname]
      simp only [hnone, Option.isSome_none, Bool.false_eq_true, if_false, hread, pure_bind]
      exact ih (h.put hname hv)

/-- Named values that hold the fields of a record are read as the record. -/
theorem record_named {finish : Draft ι → (ι → Fault) → Except Fault α} {x : α}
    (hkey : ∀ name, (d.field? (key name) : Reading (Option ι)) = pure (Fields.named? name))
    (h : Holds node read es result) (hfinish : ∀ absent, finish result absent = .ok x)
    (expected : String) :
    d.record expected (some read) finish (.mapping (es.map fun e => (key e.1, node e.2))) =
      pure x := by
  have hfill : d.fill read (es.map fun e => (key e.1, node e.2)) Draft.empty = pure result :=
    fill_pending hkey h.pending
  have hcontainer : ∀ es, d.container (.mapping es) = .mapping es := by
    intro es
    unfold container
    split <;> rfl
  rw [record, follow_mapping, pure_bind, hcontainer]
  simp only [hfill, pure_bind, hfinish]
  rfl

/-- Members that hold the fields of a record are read as the record. -/
theorem record_entries {finish : Draft ι → (ι → Fault) → Except Fault α} {x : α}
    (h : Holds Json.node read ms result) (hfinish : ∀ absent, finish result absent = .ok x)
    (expected : String) :
    d.record expected (some read) finish (.mapping (Json.entries ms)) = pure x := by
  rw [Json.entries_eq_map]
  exact record_named (field?_atom) h hfinish expected

/-- A record whose fields are all there is read from them in any order. -/
theorem record_all {depth : Nat} (hlawful : Fields.Lawful ι) {value : ι → Json}
    {values : (i : ι) → Fields.Value i} {finish : Draft ι → (ι → Fault) → Except Fault α} {x : α}
    (hdepth : ∀ m ∈ Json.present ((Fields.all : List ι).map fun i => (Fields.name i, some (value i))),
      m.2.nesting ≤ depth)
    (hms : ms.Perm
      (Json.present ((Fields.all : List ι).map fun i => (Fields.name i, some (value i)))))
    (hfinish : ∀ absent, finish (fun i => some (values i)) absent = .ok x)
    (hread : ∀ i, (value i).nesting ≤ depth → read i (value i).node = pure (values i))
    (expected : String) :
    d.record expected (some read) finish (.mapping (Json.entries ms)) = pure x := by
  have hholds : Holds Json.node read
      (Json.present ((Fields.all : List ι).map fun i => (Fields.name i, some (value i))))
      fun i => some (values i) := by
    refine holds_present hlawful fun i => .inr ⟨value i, values i, rfl, rfl, hread i ?_⟩
    exact hdepth _ ((mem_present_iff hlawful _ _).2 ⟨i, _, rfl, rfl⟩)
  exact record_entries (hholds.perm hms) hfinish expected

end Records

end Dialect

end RouteModule
