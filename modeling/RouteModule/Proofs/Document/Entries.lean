import Mathlib.Data.List.Nodup
import RouteModule.Document

/-!
The entries of mappings, by their names. A JSON object has a name in front of each of its values, or a
text that can only be passed over; under different names the value of a name is found wherever it
stands.
-/

namespace RouteModule

namespace Node

/-- The name that a key is. -/
def name? : Node → Option Text
  | .atom _ (.text t) => some t
  | _ => none

/-- The names of entries, in their order. -/
def names (es : List (Node × Node)) : List Text := es.filterMap fun e => e.1.name?

/-- What may stand in front of the colon of an entry: a name, or a text that can only be passed
over. -/
inductive IsKey : Node → Prop where
  | name (t : Text) : IsKey (.atom t (.text t))
  | unreadable : IsKey .unreadable

/-- The first value under a name. -/
def value? (name : Text) (es : List (Node × Node)) : Option Node :=
  (es.find? fun e => e.1.name? = some name).map Prod.snd

/-- The entries that are not under a name. -/
def without (name : Text) (es : List (Node × Node)) : List (Node × Node) :=
  es.filter fun e => e.1.name? ≠ some name

section Names

variable {name : Text} {key value : Node} {es : List (Node × Node)}

theorem IsKey.eq_of_name? {key : Node} (h : IsKey key) (hname : key.name? = some name) :
    key = .atom name (.text name) := by
  cases h with
  | name t =>
    obtain rfl : t = name := Option.some.inj hname
    rfl
  | unreadable => cases hname

theorem mem_names_iff (hkeys : ∀ e ∈ es, IsKey e.1) :
    name ∈ names es ↔ ∃ v, (.atom name (.text name), v) ∈ es := by
  rw [names, List.mem_filterMap]
  constructor
  · rintro ⟨⟨key, v⟩, he, hname⟩
    obtain rfl := (hkeys _ he).eq_of_name? hname
    exact ⟨v, he⟩
  · rintro ⟨v, hv⟩
    exact ⟨_, hv, rfl⟩

theorem without_cons_of_eq (h : key.name? = some name) :
    without name ((key, value) :: es) = without name es := by
  rw [without, List.filter_cons_of_neg (by simpa using h), without]

theorem without_cons_of_ne (h : key.name? ≠ some name) :
    without name ((key, value) :: es) = (key, value) :: without name es := by
  rw [without, List.filter_cons_of_pos (by simpa using h), without]

theorem value?_cons_of_eq (h : key.name? = some name) :
    value? name ((key, value) :: es) = some value := by
  rw [value?, List.find?_cons_of_pos (by simpa using h)]
  rfl

theorem value?_cons_of_ne (h : key.name? ≠ some name) :
    value? name ((key, value) :: es) = value? name es := by
  rw [value?, List.find?_cons_of_neg (by simpa using h), value?]

/-- Under different names the first value is the only one. -/
theorem value?_eq_some_iff (hkeys : ∀ e ∈ es, IsKey e.1) (hnodup : (names es).Nodup)
    {v : Node} : value? name es = some v ↔ (.atom name (.text name), v) ∈ es := by
  induction es with
  | nil => simp [value?]
  | cons e es ih =>
    obtain ⟨key, value⟩ := e
    obtain ⟨hkey, hrest⟩ := List.forall_mem_cons.1 hkeys
    by_cases hname : key.name? = some name
    · obtain rfl : key = _ := hkey.eq_of_name? hname
      have hfresh : name ∉ names es := (List.nodup_cons.1 hnodup).1
      have hv : (.atom name (.text name), v) ∉ es := fun hv =>
        hfresh ((mem_names_iff hrest).2 ⟨v, hv⟩)
      simp [value?_cons_of_eq hname, hv, eq_comm]
    · have hnodup' : (names es).Nodup :=
        hnodup.sublist ((List.sublist_cons_self _ es).filterMap _)
      have hne : (Node.atom name (.text name), v) ≠ (key, value) := by
        intro h
        cases h
        exact hname rfl
      rw [List.mem_cons, or_iff_right hne, ← ih hrest hnodup', value?_cons_of_ne hname]

theorem value?_eq_none_iff : value? name es = none ↔ name ∉ names es := by
  rw [value?, Option.map_eq_none_iff, List.find?_eq_none, names, List.mem_filterMap]
  simp

theorem names_without_sublist (name : Text) (es : List (Node × Node)) :
    (names (without name es)).Sublist (names es) := List.filter_sublist.filterMap _

end Names

end Node

end RouteModule
