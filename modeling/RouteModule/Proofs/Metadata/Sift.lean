import RouteModule.Metadata.Reader
import RouteModule.Proofs.Document.Success

/-!
Entries that are taken out of others before these are read. A property takes its own entry out of those
of its type, and a named type has to find its kind before it can read what stands in front of it; both
are a `sift` of the entries, which finds the same whatever their order is.
-/

namespace RouteModule

open Node (IsKey)
open Reading (Succeeds)

variable {d : Dialect}

section Sift

variable {name : Text} {twice : Fault} {own : Node → Reading α} {other : Node × Node → Reading Unit}
  {es others : List (Node × Node)} {found x : Option α}

/-- Takes the value under a name out of the entries, and keeps the others in their order. -/
def Dialect.sift (name : Text) (twice : Fault) (own : Node → Reading α)
    (other : Node × Node → Reading Unit) :
    List (Node × Node) → Option α → Reading (Option α × List (Node × Node))
  | [], found => return (found, [])
  | (key, value) :: rest, found => do
    if key.name? = some name then
      if found.isSome then throw twice
      else sift name twice own other rest (some (← own value))
    else
      other (key, value)
      let (found, others) ← sift name twice own other rest found
      return (found, (key, value) :: others)

open Dialect (sift)

/-- What sifting gives under a name. -/
def Sifted (name : Text) (es : List (Node × Node)) (found x : Option α)
    (read : Node → α → Prop) : Prop :=
  (Node.value? name es = none ∧ x = found) ∨
    (found = none ∧ ∃ v y, Node.value? name es = some v ∧ read v y ∧ x = some y)

/-- Entries that are sifted have at most one under the name, and the others have been looked at. -/
theorem succeeds_sift (h : Succeeds (sift name twice own other es found) (x, others)) :
    others = Node.without name es ∧ (∀ e ∈ Node.without name es, Succeeds (other e) ()) ∧
      Sifted name es found x (fun v => Succeeds (own v)) := by
  induction es generalizing found x others with
  | nil =>
    cases Reading.succeeds_pure_iff.1 h
    exact ⟨rfl, by simp [Node.without], .inl ⟨rfl, rfl⟩⟩
  | cons e es ih =>
    obtain ⟨key, value⟩ := e
    rw [sift] at h
    by_cases hkey : key.name? = some name
    · rw [if_pos hkey] at h
      rw [Node.without_cons_of_eq hkey, Sifted, Node.value?_cons_of_eq hkey]
      split at h
      · exact absurd h (Reading.not_succeeds_throw _)
      · next hnone =>
        obtain ⟨y, hy, h⟩ := h.bind
        obtain ⟨hothers, hpassed, hsifted⟩ := ih h
        refine ⟨hothers, hpassed, .inr ⟨by simpa using hnone, value, y, rfl, hy, ?_⟩⟩
        rcases hsifted with ⟨-, hx⟩ | ⟨hsome, -⟩
        · exact hx
        · cases hsome
    · rw [if_neg hkey] at h
      rw [Node.without_cons_of_ne hkey, Sifted, Node.value?_cons_of_ne hkey]
      obtain ⟨u, hother, h⟩ := h.bind
      obtain ⟨⟨x', rest⟩, hrest, h⟩ := h.bind
      obtain ⟨rfl, hpassed, hsifted⟩ := ih hrest
      cases Reading.succeeds_pure_iff.1 h
      exact ⟨rfl, List.forall_mem_cons.2 ⟨hother, hpassed⟩, hsifted⟩

/-- Entries of different names are sifted if the others can be passed over. -/
theorem sift_eq_pure (hnodup : (Node.names es).Nodup)
    (hother : ∀ e ∈ Node.without name es, other e = pure ())
    (h : Sifted name es found x fun v y => own v = pure y) :
    sift name twice own other es found = pure (x, Node.without name es) := by
  induction es generalizing found x with
  | nil =>
    rcases h with ⟨-, rfl⟩ | ⟨-, v, y, hv, -⟩
    · rfl
    · cases hv
  | cons e es ih =>
    obtain ⟨key, value⟩ := e
    have hrest : (Node.names es).Nodup :=
      hnodup.sublist ((List.sublist_cons_self _ es).filterMap _)
    rw [sift]
    by_cases hkey : key.name? = some name
    · rw [Sifted, Node.value?_cons_of_eq hkey] at h
      rw [Node.without_cons_of_eq hkey] at hother ⊢
      rcases h with ⟨hv, -⟩ | ⟨rfl, v, y, hv, hy, rfl⟩
      · cases hv
      · obtain rfl : value = v := Option.some.inj hv
        have hfresh : Node.value? name es = none := by
          rw [Node.names, List.filterMap_cons, hkey] at hnodup
          exact Node.value?_eq_none_iff.2 (List.nodup_cons.1 hnodup).1
        rw [if_pos hkey, if_neg (by simp), hy, pure_bind]
        exact ih hrest hother (.inl ⟨hfresh, rfl⟩)
    · rw [Sifted, Node.value?_cons_of_ne hkey] at h
      rw [Node.without_cons_of_ne hkey] at hother ⊢
      obtain ⟨hfirst, hothers⟩ := List.forall_mem_cons.1 hother
      rw [if_neg hkey, hfirst, pure_bind, ih hrest hothers h, pure_bind]

end Sift

section Members

variable {ms ns : List (Text × Json)}

theorem Json.isKey_entries (ms : List (Text × Json)) : ∀ e ∈ entries ms, IsKey e.1 := by
  rw [entries_eq_map, List.forall_mem_map]
  exact fun m _ => .name m.1

theorem Json.names_entries (ms : List (Text × Json)) :
    Node.names (entries ms) = ms.map Prod.fst := by
  rw [entries_eq_map, Node.names, List.filterMap_map, ← List.filterMap_eq_map]
  rfl

theorem Json.without_entries (name : Text) (ms : List (Text × Json)) :
    Node.without name (entries ms) = entries (ms.filter fun m => m.1 ≠ name) := by
  rw [entries_eq_map, entries_eq_map, Node.without, List.filter_map]
  congr 2
  funext m
  simp [Node.name?]

/-- A member of an object is taken out of the others, wherever it stands. -/
theorem Json.sift_entries {m : Text × Json} {own : Node → Reading α} {y : α} (twice : Fault)
    (other : Node × Node → Reading Unit) (hnodup : ((m :: ns).map Prod.fst).Nodup)
    (hperm : ms.Perm (m :: ns)) (hown : own m.2.node = pure y)
    (hother : ∀ n ∈ ns, other (.atom n.1 (.text n.1), n.2.node) = pure ()) :
    ∃ rest, rest.Perm ns ∧
      Dialect.sift m.1 twice own other (entries ms) none = pure (some y, entries rest) := by
  obtain ⟨hfresh, hns⟩ := List.nodup_cons.1 hnodup
  have hrest : (ms.filter fun n => n.1 ≠ m.1).Perm ns := by
    have hothers : ns.filter (fun n => n.1 ≠ m.1) = ns := by
      rw [List.filter_eq_self]
      intro n hn
      have hne : n.1 ≠ m.1 := fun heq => hfresh (heq ▸ List.mem_map_of_mem hn)
      simpa using hne
    have hfilter := hperm.filter fun n => n.1 ≠ m.1
    rwa [List.filter_cons_of_neg (by simp), hothers] at hfilter
  have hnames : (Node.names (entries ms)).Nodup := by
    rw [names_entries]
    exact (hperm.map Prod.fst).nodup_iff.2 hnodup
  have hvalue : Node.value? m.1 (entries ms) = some m.2.node := by
    rw [Node.value?_eq_some_iff (isKey_entries ms) hnames, entries_eq_map]
    exact List.mem_map_of_mem (f := fun m => (Node.atom m.1 (.text m.1), m.2.node))
      (hperm.symm.subset List.mem_cons_self)
  refine ⟨_, hrest, ?_⟩
  rw [← without_entries]
  refine sift_eq_pure hnames ?_ (.inr ⟨rfl, _, y, hvalue, hown, rfl⟩)
  rw [without_entries, entries_eq_map, List.forall_mem_map]
  exact fun n hn => hother n (hrest.subset hn)

end Members

section Sifting

variable {es : List (Node × Node)}

theorem Dialect.text?_key {key : Node} (hkey : IsKey key) : d.text? key = key.name? := by
  cases hkey with
  | name t => exact text?_node t
  | unreadable => exact text?_unreadable

theorem Dialect.follow_key {key : Node} (hkey : IsKey key) : d.follow key = pure key := by
  cases hkey <;> rfl

/-- What a property asks of the entries that are not its own. -/
def Property.passEntry (d : Dialect) (e : Node × Node) : Reading Unit := do
  let _ ← d.entryName "field identifier" e.1

theorem Property.split_eq_sift (hkeys : ∀ e ∈ es, IsKey e.1) (required : Option Bool) :
    split d es required = Dialect.sift "required".toList (.duplicateField "required") d.bool
      (passEntry d) es required := by
  induction es generalizing required with
  | nil => rfl
  | cons e es ih =>
    obtain ⟨key, value⟩ := e
    obtain ⟨hkey, hes⟩ := List.forall_mem_cons.1 hkeys
    have hordinal : (Dialect.ordinal? key).isNone = true := by cases hkey <;> rfl
    rw [split, Dialect.follow_key hkey, pure_bind, Dialect.text?_key hkey, Dialect.sift,
      if_pos hordinal]
    by_cases hname : key.name? = some "required".toList
    · simp only [if_pos hname, ih hes]
    · simp only [if_neg hname, ih hes, passEntry, bind_assoc, pure_bind]

/-- Entries under names are those of the type of a property. -/
theorem Property.filter_named (h : ∀ e ∈ es, ∃ name, e.1 = .atom name (.text name)) :
    es.filter (fun e => (d.text? e.1).isSome) = es := by
  rw [List.filter_eq_self]
  intro e he
  obtain ⟨name, hname⟩ := h e he
  rw [hname, Dialect.text?_key (.name name)]
  rfl

theorem Property.passEntry_name (name : Text) (v : Node) :
    passEntry d (.atom name (.text name), v) = pure () := by
  rw [passEntry, Dialect.entryName_atom, pure_bind]

namespace ReferenceType

variable {depth : Nat}

/-- Finding the kind is sifting it out of what is set aside. -/
theorem findKind_eq_sift (hkeys : ∀ e ∈ es, IsKey e.1) (kind : Option Kind) :
    findKind d depth es kind = Dialect.sift kindKey.toList (.duplicateField kindKey)
      (d.tagName Kind.names) (d.holdEntry "a type tag `dataType` or any other value" depth)
      es kind := by
  induction es generalizing kind with
  | nil => rfl
  | cons e es ih =>
    obtain ⟨key, value⟩ := e
    obtain ⟨hkey, hes⟩ := List.forall_mem_cons.1 hkeys
    rw [findKind, Dialect.follow_key hkey, pure_bind, Dialect.sift]
    by_cases hname : key.name? = some kindKey.toList
    · have hkind : isKindKey key = true := by
        obtain rfl : key = _ := hkey.eq_of_name? hname
        exact decide_eq_true (rfl : kindKey.toList = kindKey.toList)
      simp only [if_pos hname, if_pos hkind, ih hes]
    · have hkind : ¬ isKindKey key = true := by
        cases hkey with
        | name t =>
          intro h
          exact hname (congrArg some (of_decide_eq_true h))
        | unreadable => exact Bool.false_ne_true
      simp only [if_neg hname, if_neg hkind, ih hes, Dialect.holdEntry]
      split
      · rfl
      · simp only [bind_assoc]

end ReferenceType

end Sifting

end RouteModule
