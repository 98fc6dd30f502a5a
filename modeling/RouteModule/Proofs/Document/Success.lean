import Mathlib.Data.List.Forall2
import RouteModule.Proofs.Document.Entries
import RouteModule.Proofs.Document.Reading

/-!
What readings that succeed have found. Whatever a reader makes of a container it has made of the parts,
so that the entries of an object that is read are all under names, and the values under the known ones
have been read as well.
-/

namespace RouteModule

open Node (IsKey)

namespace Reading

variable {r : Reading α} {x : α}

/-- A reading gives a value if it may follow as many references as it needs. -/
def Succeeds (r : Reading α) (x : α) : Prop := ∃ jumps left, r.run jumps = .ok (x, left)

@[simp] theorem succeeds_pure_iff {y : α} : Succeeds (pure x) y ↔ x = y := by
  constructor
  · rintro ⟨jumps, left, h⟩
    cases h
    rfl
  · rintro rfl
    exact ⟨0, 0, rfl⟩

@[simp] theorem not_succeeds_throw (f : Fault) : ¬ Succeeds (throw f) x := by
  rintro ⟨jumps, left, h⟩
  cases h

/-- A reading that goes on after another succeeds with what that gives. -/
theorem Succeeds.bind {f : α → Reading β} {y : β} (h : Succeeds (r >>= f) y) :
    ∃ x, Succeeds r x ∧ Succeeds (f x) y := by
  obtain ⟨jumps, left, h⟩ := h
  rw [StateT.run_bind] at h
  cases hr : r.run jumps with
  | error fault =>
    rw [hr] at h
    cases h
  | ok p =>
    rw [hr] at h
    exact ⟨p.1, ⟨jumps, p.2, hr⟩, ⟨p.2, left, h⟩⟩

theorem succeeds_lift_iff {e : Except Fault α} : Succeeds (liftM e : Reading α) x ↔ e = .ok x := by
  cases e with
  | error fault =>
    constructor
    · rintro ⟨jumps, left, h⟩
      cases h
    · intro h
      cases h
  | ok y =>
    constructor
    · intro h
      exact congrArg Except.ok (succeeds_pure_iff.1 h)
    · intro h
      exact succeeds_pure_iff.2 (Except.ok.inj h)

section Lists

variable {f : β → Reading α} {xs : List β}

theorem succeeds_forM {f : β → Reading Unit} {u : Unit} (h : Succeeds (xs.forM f) u) :
    ∀ x ∈ xs, Succeeds (f x) () := by
  induction xs with
  | nil => simp
  | cons x xs ih =>
    obtain ⟨u, hx, hxs⟩ := Succeeds.bind h
    exact List.forall_mem_cons.2 ⟨hx, ih hxs⟩

theorem forM_eq_pure {f : β → Reading Unit} (h : ∀ x ∈ xs, f x = pure ()) :
    xs.forM f = pure () := by
  induction xs with
  | nil => rfl
  | cons x xs ih =>
    obtain ⟨hx, hxs⟩ := List.forall_mem_cons.1 h
    rw [List.forM, hx, pure_bind, ih hxs]

theorem succeeds_mapM {ys : List α} (h : Succeeds (xs.mapM f) ys) :
    List.Forall₂ (fun x y => Succeeds (f x) y) xs ys := by
  induction xs generalizing ys with
  | nil =>
    rw [List.mapM_nil, succeeds_pure_iff] at h
    rw [← h]
    exact .nil
  | cons x xs ih =>
    rw [List.mapM_cons] at h
    obtain ⟨y, hy, h⟩ := h.bind
    obtain ⟨rest, hrest, h⟩ := h.bind
    rw [← succeeds_pure_iff.1 h]
    exact .cons hy (ih hrest)

theorem mapM_eq_pure {ys : List α} (h : List.Forall₂ (fun x y => f x = pure y) xs ys) :
    xs.mapM f = pure ys := by
  induction h with
  | nil => rfl
  | cons hx _ ih => rw [List.mapM_cons, hx, pure_bind, ih, pure_bind]

end Lists

end Reading

namespace Document

variable {document : Document} {reader : Node → Reading α} {x : α}

/-- A document that is read has ended, and its root is read. -/
theorem succeeds_of_read (h : document.read reader = .ok x) :
    document.complete = true ∧ Reading.Succeeds (reader document.root) x := by
  rw [read, StateT.run'_eq] at h
  cases hroot : (reader document.root).run document.jumps with
  | error f =>
    rw [hroot] at h
    cases h
  | ok p =>
    rw [hroot] at h
    change (if document.complete then .ok p.1 else .error .malformed : Except Fault α) = .ok x at h
    split at h
    · next hcomplete =>
      obtain rfl : p.1 = x := Except.ok.inj h
      exact ⟨hcomplete, document.jumps, p.2, hroot⟩
    · cases h

theorem read_eq_ok (hcomplete : document.complete = true) (h : reader document.root = pure x) :
    document.read reader = .ok x := by
  rw [read, h, hcomplete]
  rfl

end Document

namespace Dialect

open Reading (Succeeds)

variable {d : Dialect} {key : Node} {es : List (Node × Node)}

section Names

theorem text?_unreadable : d.text? .unreadable = none := by
  unfold text?
  split <;> rfl

/-- Only a name is read as the name of an entry. -/
theorem eq_of_entryName {expected : String} {name : Text} (hkey : IsKey key)
    (h : Succeeds (d.entryName expected key) name) : key = .atom name (.text name) := by
  cases hkey with
  | name t =>
    rw [entryName_atom, Reading.succeeds_pure_iff] at h
    rw [h]
  | unreadable =>
    rw [entryName, follow_unreadable, pure_bind, text?_unreadable] at h
    dsimp only at h
    split at h
    · exact absurd h (Reading.not_succeeds_throw _)
    · exact absurd h (Reading.not_succeeds_throw _)

/-- Only a name is for a field or for none. -/
theorem eq_of_field? {ι : Type} [Fields ι] {found : Option ι} (hkey : IsKey key)
    (h : Succeeds (d.field? key) found) :
    ∃ name, key = .atom name (.text name) ∧ found = Fields.named? name := by
  cases hkey with
  | name t =>
    rw [field?_atom, Reading.succeeds_pure_iff] at h
    exact ⟨t, rfl, h.symm⟩
  | unreadable =>
    rw [field?, follow_unreadable, pure_bind, text?_unreadable] at h
    have hordinal : ordinal? .unreadable = none := rfl
    rw [hordinal] at h
    cases hstage : d.stage <;>
    · rw [hstage] at h
      obtain ⟨name, hname, -⟩ := Reading.Succeeds.bind h
      cases eq_of_entryName .unreadable hname

end Names

section Entries

variable {read : Node → Reading α} {ys : List (Text × α)}

/-- An entry is under the name of a value, and its own value is related to that. -/
def Named (P : Node → α → Prop) (e : Node × Node) (y : Text × α) : Prop :=
  e.1 = .atom y.1 (.text y.1) ∧ P e.2 y.2

theorem names_eq_map {P : Node → α → Prop} (h : List.Forall₂ (Named P) es ys) :
    Node.names es = ys.map Prod.fst := by
  induction h with
  | nil => rfl
  | @cons e y es ys h _ ih =>
    rw [Node.names, List.filterMap_cons, h.1, ← Node.names, ih]
    rfl

/-- Entries that are read are under names, and their values are read. -/
theorem succeeds_entries (hkeys : ∀ e ∈ es, IsKey e.1) (h : Succeeds (d.entries read es) ys) :
    List.Forall₂ (Named fun n => Succeeds (read n)) es ys := by
  induction es generalizing ys with
  | nil =>
    rw [entries, Reading.succeeds_pure_iff] at h
    rw [← h]
    exact .nil
  | cons e es ih =>
    obtain ⟨key, value⟩ := e
    obtain ⟨hkey, hkeys⟩ := List.forall_mem_cons.1 hkeys
    rw [entries] at h
    obtain ⟨name, hname, h⟩ := h.bind
    obtain ⟨x, hx, h⟩ := h.bind
    obtain ⟨rest, hrest, h⟩ := h.bind
    rw [← Reading.succeeds_pure_iff.1 h]
    exact .cons ⟨eq_of_entryName hkey hname, hx⟩ (ih hkeys hrest)

theorem entries_eq_pure (h : List.Forall₂ (Named fun n x => read n = pure x) es ys) :
    d.entries read es = pure ys := by
  induction h with
  | nil => rfl
  | @cons e y es ys h _ ih =>
    obtain ⟨key, value⟩ := e
    obtain ⟨rfl, hvalue⟩ := h
    rw [entries, entryName_atom, pure_bind, hvalue, pure_bind, ih, pure_bind]

/-- An object that is read as a JSON value has entries under names whose values are read. -/
theorem succeeds_json_mapping {depth : Nat} {v : Json} (hkeys : ∀ e ∈ es, IsKey e.1)
    (h : Succeeds (d.json (depth + 1) (.mapping es)) v) :
    ∃ ys, List.Forall₂ (Named fun n => Succeeds (d.json depth n)) es ys ∧ v = .ofMembers ys := by
  cases es with
  | nil =>
    rw [json_mapping_nil, Reading.succeeds_pure_iff] at h
    exact ⟨[], .nil, h.symm⟩
  | cons e es =>
    obtain ⟨key, value⟩ := e
    obtain ⟨hkey, hkeys⟩ := List.forall_mem_cons.1 hkeys
    rw [json_mapping_cons] at h
    obtain ⟨name, hname, h⟩ := h.bind
    obtain ⟨x, hx, h⟩ := h.bind
    obtain ⟨rest, hrest, h⟩ := h.bind
    exact ⟨(name, x) :: rest,
      .cons ⟨eq_of_entryName hkey hname, hx⟩ (succeeds_entries hkeys hrest),
      (Reading.succeeds_pure_iff.1 h).symm⟩

theorem json_mapping_eq_pure {depth : Nat} {ys : List (Text × Json)}
    (h : List.Forall₂ (Named fun n x => d.json depth n = pure x) es ys) :
    d.json (depth + 1) (.mapping es) = pure (.ofMembers ys) := by
  cases h with
  | nil => exact json_mapping_nil d depth
  | @cons e y es ys h hrest =>
    obtain ⟨key, value⟩ := e
    obtain ⟨rfl, hvalue⟩ := h
    rw [json_mapping_cons, entryName_atom, pure_bind, hvalue, pure_bind, entries_eq_pure hrest,
      pure_bind]

end Entries

section Records

variable {ι : Type} [Fields ι] {read : Readers ι} {draft result : Draft ι}

/-- What is known of entries that have been read into a draft. -/
structure Filled (read : Readers ι) (es : List (Node × Node)) (draft result : Draft ι) : Prop where
  names : ∀ e ∈ es, ∃ name, e.1 = .atom name (.text name)
  /-- The value under the name of a field is that of the field. -/
  values : ∀ name v i, (.atom name (.text name), v) ∈ es → Fields.named? name = some i →
    ∃ x, Succeeds (read i v) x ∧ result i = some x
  kept : ∀ i, draft i ≠ none → result i = draft i
  /-- A field without an entry has no value. -/
  absent : ∀ i, result i ≠ draft i →
    ∃ name v, (.atom name (.text name), v) ∈ es ∧ Fields.named? name = some i

theorem Filled.nil (read : Readers ι) (draft : Draft ι) : Filled read [] draft draft where
  names := by simp
  values := by simp
  kept _ _ := rfl
  absent _ hi := absurd rfl hi

/-- An entry under a name that no field has fills nothing. -/
theorem Filled.unknown {name : Text} (value : Node) (h : Filled read es draft result)
    (hname : (Fields.named? name : Option ι) = none) :
    Filled read ((.atom name (.text name), value) :: es) draft result where
  names := List.forall_mem_cons.2 ⟨⟨name, rfl⟩, h.names⟩
  values other v i hv hi := by
    rcases List.mem_cons.1 hv with heq | hv
    · cases heq
      rw [hname] at hi
      cases hi
    · exact h.values other v i hv hi
  kept := h.kept
  absent i hi := by
    obtain ⟨other, v, hv, hother⟩ := h.absent i hi
    exact ⟨other, v, List.mem_cons_of_mem _ hv, hother⟩

variable [DecidableEq ι]

/-- An entry under the name of a field without a value fills that field. -/
theorem Filled.known {name : Text} {value : Node} {j : ι} {x : Fields.Value j}
    (h : Filled read es (draft.put j x) result) (hname : Fields.named? name = some j)
    (hnone : draft j = none) (hx : Succeeds (read j value) x) :
    Filled read ((.atom name (.text name), value) :: es) draft result where
  names := List.forall_mem_cons.2 ⟨⟨name, rfl⟩, h.names⟩
  values other v i hv hi := by
    rcases List.mem_cons.1 hv with heq | hv
    · cases heq
      obtain rfl : j = i := Option.some.inj (hname.symm.trans hi)
      exact ⟨x, hx, by rw [h.kept j (by simp), Draft.put_same]⟩
    · exact h.values other v i hv hi
  kept i hi := by
    have hij : i ≠ j := by
      rintro rfl
      exact hi hnone
    rw [h.kept i (by rwa [Draft.put_other _ _ hij]), Draft.put_other _ _ hij]
  absent i hi := by
    by_cases hij : i = j
    · subst hij
      exact ⟨name, value, List.mem_cons_self, hname⟩
    · rw [← Draft.put_other draft x hij] at hi
      obtain ⟨other, v, hv, hother⟩ := h.absent i hi
      exact ⟨other, v, List.mem_cons_of_mem _ hv, hother⟩

/-- Entries that are read into a draft fill it. -/
theorem succeeds_fill (hkeys : ∀ e ∈ es, IsKey e.1) (h : Succeeds (d.fill read es draft) result) :
    Filled read es draft result := by
  induction es generalizing draft with
  | nil =>
    rw [fill, Reading.succeeds_pure_iff] at h
    exact h ▸ .nil read draft
  | cons e es ih =>
    obtain ⟨key, value⟩ := e
    obtain ⟨hkey, hes⟩ := List.forall_mem_cons.1 hkeys
    rw [fill] at h
    obtain ⟨found, hfound, h⟩ := h.bind
    obtain ⟨name, rfl, rfl⟩ := eq_of_field? hkey hfound
    cases hname : (Fields.named? name : Option ι) with
    | none =>
      rw [hname] at h
      obtain ⟨-, -, h⟩ := h.bind
      exact (ih hes h).unknown value hname
    | some j =>
      rw [hname] at h
      dsimp only at h
      split at h
      · exact absurd h (Reading.not_succeeds_throw _)
      · next hfree =>
        have hnone : draft j = none := by simpa using hfree
        obtain ⟨x, hx, h⟩ := h.bind
        exact (ih hes h).known hname hnone hx

end Records

end Dialect

end RouteModule
