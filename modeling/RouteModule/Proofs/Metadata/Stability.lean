import RouteModule.Proofs.Document.Success
import RouteModule.Proofs.Metadata.Rearrangement

/-!
Readers that make the same of a rearranged document. A reader of one kind of data is stable as soon as
the readers of its parts are: a sequence is read item by item, a mapping as a table, in which the order
of different names is lost, and a record into the fields, whatever else it has.
-/

namespace RouteModule

open Node (IsKey)
open Reading (Succeeds)

/-- A reader makes the same of every rearranged tree as of the tree itself, if it accepts that. -/
def Stable (s : Shape) (read : Node → Reading α) : Prop :=
  ∀ ⦃n n' : Node⦄ ⦃x : α⦄, Rearranged s n n' → n.Distinct → Succeeds (read n) x → read n' = pure x

namespace Dialect

/-- The rules for the text of a JSON document, and for what was set aside from it. -/
structure IsJson (d : Dialect) : Prop where
  format : d.format = .json
  stage : d.stage ≠ .value

variable {d : Dialect}

theorem IsJson.held (hd : d.IsJson) : d.held.IsJson := ⟨hd.format, by simp [Dialect.held]⟩

theorem IsJson.isLoose (hd : d.IsJson) : d.isLoose = false := by
  simp [Dialect.isLoose, hd.format]

theorem IsJson.container (hd : d.IsJson) (n : Node) : d.container n = n := by
  rw [Dialect.container, hd.isLoose, if_neg (by simp)]

theorem IsJson.isEmpty (hd : d.IsJson) (n : Node) : d.isEmpty n = false := by
  rw [Dialect.isEmpty, hd.isLoose, Bool.false_and]

/-- A node of a JSON text that is no scalar. -/
inductive NonScalar : Node → Prop where
  | unreadable : NonScalar .unreadable
  | sequence (items : List Node) : NonScalar (.sequence items)
  | mapping (es : List (Node × Node)) : NonScalar (.mapping es)

section NonScalar

variable {n : Node}

theorem NonScalar.follow (h : NonScalar n) : d.follow n = pure n := by
  cases h with
  | unreadable => rfl
  | sequence => rfl
  | mapping => rfl

theorem NonScalar.text? (h : NonScalar n) : d.text? n = none := by
  cases h <;> simp [Dialect.text?, Node.untagged]

theorem NonScalar.atom? (h : NonScalar n) : d.atom? n = none := by
  cases h <;> simp [Dialect.atom?, Node.untagged]

/-- There are no references in trees that can be rearranged. -/
theorem follow_of_rearranged {s : Shape} {n' : Node} (h : Rearranged s n n') :
    d.follow n = pure n := by
  cases h with
  | atom => rfl
  | unreadable => rfl
  | sequence => rfl
  | mapping => rfl

theorem text?_of_rearranged (hd : d.IsJson) {s : Shape} {n' : Node} (h : Rearranged s n n') :
    d.text? n = n.name? := by
  have hloose := hd.isLoose
  cases h with
  | atom source value => cases value <;> simp [Dialect.text?, Node.name?, hloose]
  | unreadable => exact NonScalar.unreadable.text?
  | sequence => exact (NonScalar.sequence _).text?
  | mapping => exact (NonScalar.mapping _).text?

/-- A scalar stays itself. -/
theorem scalar_or_nonScalar {s : Shape} {n' : Node} (h : Rearranged s n n') :
    (∃ source value, n = .atom source value ∧ n' = .atom source value) ∨
      NonScalar n ∧ NonScalar n' := by
  cases h with
  | atom source value => exact .inl ⟨source, value, rfl, rfl⟩
  | unreadable => exact .inr ⟨.unreadable, .unreadable⟩
  | sequence => exact .inr ⟨.sequence _, .sequence _⟩
  | mapping => exact .inr ⟨.mapping _, .mapping _⟩

end NonScalar

section Scalars

variable {s : Shape} {read : Node → Reading α}

/-- A reading gives a value without looking for references, or else a complaint. -/
def Decided (r : Reading α) : Prop := (∃ x, r = pure x) ∨ ∃ f, r = throw f

theorem Decided.eq_pure {r : Reading α} {x : α} (h : Decided r) (hx : Succeeds r x) :
    r = pure x := by
  rcases h with ⟨y, rfl⟩ | ⟨f, rfl⟩
  · rw [Reading.succeeds_pure_iff.1 hx]
  · exact absurd hx (Reading.not_succeeds_throw f)

theorem Decided.bind {r : Reading α} {f : α → Reading β} (h : Decided r)
    (hf : ∀ x, Decided (f x)) : Decided (r >>= f) := by
  rcases h with ⟨y, rfl⟩ | ⟨f, rfl⟩
  · rw [pure_bind]
    exact hf y
  · exact .inr ⟨f, rfl⟩

/-- What reads scalars only is stable, since no scalar changes. -/
theorem stable_of_scalar (hatom : ∀ source value, Decided (read (.atom source value)))
    (hother : ∀ n, NonScalar n → ∃ f, read n = throw f) : Stable s read := by
  intro n n' x h _ hread
  rcases scalar_or_nonScalar h with ⟨source, value, rfl, rfl⟩ | ⟨hn, -⟩
  · exact (hatom source value).eq_pure hread
  · obtain ⟨f, hf⟩ := hother n hn
    exact absurd (hf ▸ hread) (Reading.not_succeeds_throw f)

theorem decided_text (expected : String) (source : Text) (value : Atom) :
    Decided (d.text expected (.atom source value)) := by
  rw [text, follow_atom, pure_bind]
  split
  · exact .inl ⟨_, rfl⟩
  · exact .inr ⟨_, rfl⟩

theorem stable_text (expected : String) : Stable s (d.text expected) := by
  refine stable_of_scalar (decided_text expected) fun n hn => ?_
  rw [text, hn.follow, pure_bind, hn.text?]
  exact ⟨_, rfl⟩

theorem stable_bool : Stable s d.bool := by
  refine stable_of_scalar (fun source value => ?_) fun n hn => ?_
  · rw [bool, follow_atom, pure_bind]
    split
    · exact .inl ⟨_, rfl⟩
    · exact .inr ⟨_, rfl⟩
  · rw [bool, hn.follow, pure_bind, hn.atom?]
    exact ⟨_, rfl⟩

theorem stable_natural16 : Stable s d.natural16 := by
  refine stable_of_scalar (fun source value => ?_) fun n hn => ?_
  · rw [natural16, follow_atom, pure_bind]
    split
    · split
      · exact .inr ⟨_, rfl⟩
      · split
        · exact .inl ⟨_, rfl⟩
        · exact .inr ⟨_, rfl⟩
    · exact .inr ⟨_, rfl⟩
  · rw [natural16, hn.follow, pure_bind, hn.atom?]
    exact ⟨_, rfl⟩

theorem decided_pick (known : List (String × α)) (name : Text) : Decided (pick known name) := by
  rw [pick]
  split
  · exact .inl ⟨_, rfl⟩
  · exact .inr ⟨_, rfl⟩

theorem decided_tagName {known : List (String × α)} {key : Node} (hkey : IsKey key) :
    Decided (d.tagName known key) := by
  cases hkey with
  | name t => exact (decided_text _ t _).bind fun name => decided_pick known name
  | unreadable =>
    rw [tagName, text, NonScalar.unreadable.follow, pure_bind, NonScalar.unreadable.text?]
    exact .inr ⟨_, rfl⟩

theorem stable_tagName (known : List (String × α)) : Stable s (d.tagName known) := by
  refine stable_of_scalar (fun source value => ?_) fun n hn => ?_
  · exact (decided_text _ source value).bind fun name => decided_pick known name
  · rw [tagName, text, hn.follow, pure_bind, hn.text?]
    exact ⟨_, rfl⟩

/-- Anything but a null is read where it may be absent. -/
theorem optional_eq {n : Node} (hn : NonScalar n ∨ ∃ source value, n = .atom source value ∧
    value ≠ Atom.null) : d.optional read n = do return some (← read n) := by
  rcases hn with hn | ⟨source, value, rfl, hvalue⟩
  · cases hn <;> rfl
  · cases value with
    | null => exact absurd rfl hvalue
    | _ => rfl

/-- What is read where it may be absent is stable with its reader. -/
theorem stable_optional (h : Stable s read) : Stable s (d.optional read) := by
  have hsome : ∀ n n' x, Rearranged s n n' → n.Distinct →
      Succeeds (do return some (← read n)) x → (do return some (← read n')) = pure x := by
    intro n n' x hn hdistinct hread
    obtain ⟨y, hy, hx⟩ := hread.bind
    rw [← Reading.succeeds_pure_iff.1 hx, h hn hdistinct hy, pure_bind]
  intro n n' x hn hdistinct hread
  rcases scalar_or_nonScalar hn with ⟨source, value, rfl, rfl⟩ | ⟨hleft, hright⟩
  · by_cases hvalue : value = Atom.null
    · subst hvalue
      have hnull : d.optional read (.atom source .null) = pure none := rfl
      rw [hnull, Reading.succeeds_pure_iff] at hread
      rw [hnull, hread]
    · rw [optional_eq (.inr ⟨source, value, rfl, hvalue⟩)] at hread ⊢
      exact hsome _ _ x hn hdistinct hread
  · rw [optional_eq (.inl hleft)] at hread
    rw [optional_eq (.inl hright)]
    exact hsome n n' x hn hdistinct hread

end Scalars

section Containers

variable {s item : Shape} {depth : Nat}

/-- Related parts that are read give what the others are read as. -/
theorem forall₂_of_reads {R : β → β → Prop} {P Q : β → γ → Prop} {as bs : List β} {ys : List γ}
    (h : ∀ a ∈ as, ∀ b y, R a b → P a y → Q b y) (hR : List.Forall₂ R as bs)
    (hP : List.Forall₂ P as ys) : List.Forall₂ Q bs ys := by
  induction hR generalizing ys with
  | nil =>
    cases hP
    exact .nil
  | @cons a b as bs hab _ ih =>
    cases hP with
    | cons hay hrest =>
      obtain ⟨ha, has⟩ := List.forall_mem_cons.1 h
      exact .cons (ha b _ hab hay) (ih has hrest)

/-- Items that are read one by one give the same when they are rearranged. -/
theorem mapM_of_rearranged {read : Node → Reading α} (h : Stable item read)
    {items others : List Node} {xs : List α} (hitems : RearrangedItems item items others)
    (hdistinct : ∀ n ∈ items, n.Distinct) (hread : Succeeds (items.mapM read) xs) :
    others.mapM read = pure xs := by
  refine Reading.mapM_eq_pure ?_
  refine forall₂_of_reads ?_ (Rearranged.items_iff.1 hitems) (Reading.succeeds_mapM hread)
  exact fun n hn n' x hrest hx => h hrest (hdistinct n hn) hx

theorem list_sequence (hd : d.IsJson) (read : Nat → Node → Reading α) (items : List Node) :
    d.list (depth + 1) read (.sequence items) = items.mapM (read depth) := by
  rw [list, follow_sequence, pure_bind, hd.container]

/-- Only a sequence is read as a list. -/
theorem sequence_of_list (hd : d.IsJson) {read : Nat → Node → Reading α} {n : Node} {xs : List α}
    (hfollow : d.follow n = pure n) (h : Succeeds (d.list depth read n) xs) :
    ∃ items below, n = .sequence items ∧ depth = below + 1 ∧
      Succeeds (items.mapM (read below)) xs := by
  rw [list, hfollow, pure_bind, hd.container, hd.isEmpty] at h
  split at h
  · next items below => exact ⟨items, below, rfl, rfl, h⟩
  · exact absurd h (Reading.not_succeeds_throw _)
  · exact absurd h (Reading.not_succeeds_throw _)

/-- A sequence is stable as its items are. -/
theorem stable_list (hd : d.IsJson) {read : Nat → Node → Reading α} (hs : s.item = some item)
    (h : ∀ depth, Stable item (read depth)) : Stable s (d.list depth read) := by
  intro n n' xs hn hdistinct hread
  obtain ⟨items, below, rfl, rfl, hxs⟩ := sequence_of_list hd (follow_of_rearranged hn) hread
  cases hn with
  | sequence hitem hitems =>
    obtain rfl : item = _ := Option.some.inj (hs.symm.trans hitem)
    rw [list_sequence hd]
    exact mapM_of_rearranged (h below) hitems (Node.distinct_sequence_iff.1 hdistinct) hxs

/-- Entries of different names give the same table when they are rearranged and none may come to
them. -/
theorem entries_of_rearranged {read : Node → Reading α} {v : Shape} (h : Stable v read)
    {es es' : List (Node × Node)} {ys : List (Text × α)} (hs : ∀ name, s.part es name = some v)
    (hrest : Rearranged s (.mapping es) (.mapping es')) (hdistinct : (Node.mapping es).Distinct)
    (hys : List.Forall₂ (Named fun n => Succeeds (read n)) es ys) :
    ∃ zs, List.Forall₂ (Named fun n x => read n = pure x) es' zs ∧
      Table.ofList zs = Table.ofList ys := by
  obtain ⟨fs, hfs, hperm⟩ := hrest.perm_of_part (by simp [hs])
  obtain ⟨hnodup, hvalues⟩ := Node.distinct_mapping_iff.1 hdistinct
  have hpure : List.Forall₂ (Named fun n x => read n = pure x) fs ys := by
    refine forall₂_of_reads ?_ hfs hys
    rintro ⟨key, value⟩ he ⟨key', value'⟩ ⟨name, x⟩ ⟨rfl, -, hvalue⟩ ⟨rfl, hx⟩
    have hunder : s.under es (.atom name (.text name)) = v := by
      simp [Shape.under, Node.name?, hs]
    rw [hunder] at hvalue
    exact ⟨rfl, h hvalue (hvalues _ he) hx⟩
  obtain ⟨zs, hzs, hzys⟩ := List.perm_comp_forall₂ hperm hpure
  exact ⟨zs, hzs, Table.ofList_eq_of_perm (names_eq_map hys ▸ hnodup) hzys⟩

theorem table_mapping (hd : d.IsJson) (read : Nat → Node → Reading α) (es : List (Node × Node)) :
    d.table (depth + 1) read (.mapping es) = do
      return Table.ofList (← d.entries (read depth) es) := by
  rw [table, follow_mapping, pure_bind, hd.container]

/-- Only a mapping is read as a table. -/
theorem mapping_of_table (hd : d.IsJson) {read : Nat → Node → Reading α} {n : Node} {t : Table α}
    (hfollow : d.follow n = pure n) (h : Succeeds (d.table depth read n) t) :
    ∃ es below ys, n = .mapping es ∧ depth = below + 1 ∧
      Succeeds (d.entries (read below) es) ys ∧ t = Table.ofList ys := by
  rw [table, hfollow, pure_bind, hd.container, hd.isEmpty] at h
  split at h
  · next es below =>
    obtain ⟨ys, hys, ht⟩ := h.bind
    exact ⟨es, below, ys, rfl, rfl, hys, (Reading.succeeds_pure_iff.1 ht).symm⟩
  · exact absurd h (Reading.not_succeeds_throw _)
  · exact absurd h (Reading.not_succeeds_throw _)

/-- A mapping stays a mapping. -/
theorem exists_mapping {es : List (Node × Node)} {n' : Node} (h : Rearranged s (.mapping es) n') :
    ∃ es', n' = .mapping es' := by
  cases h
  exact ⟨_, rfl⟩

/-- A mapping that is read as a table is stable as its values are. -/
theorem stable_table (hd : d.IsJson) {read : Nat → Node → Reading α} {v : Shape}
    (hs : ∀ es name, s.part es name = some v) (h : ∀ depth, Stable v (read depth)) :
    Stable s (d.table depth read) := by
  intro n n' t hn hdistinct hread
  obtain ⟨es, below, ys, rfl, rfl, hys, rfl⟩ := mapping_of_table hd (follow_of_rearranged hn) hread
  obtain ⟨es', rfl⟩ := exists_mapping hn
  obtain ⟨zs, hzs, htable⟩ := entries_of_rearranged (h below) (hs es) hn hdistinct
    (succeeds_entries hn.isKey_left hys)
  rw [table_mapping hd, entries_eq_pure hzs, pure_bind, htable]

theorem decided_jsonOfAtom (source : Text) (value : Atom) : Decided (d.jsonOfAtom source value) := by
  cases value with
  | wide => exact .inr ⟨_, rfl⟩
  | mistagged => exact .inr ⟨_, rfl⟩
  | _ => exact .inl ⟨_, rfl⟩

theorem fails_json (depth : Nat) {v : Json} : ¬ Succeeds (d.json depth .unreadable) v := by
  have hfail : d.json depth .unreadable = throw .malformed := by cases depth <;> (delta json; rfl)
  exact hfail ▸ Reading.not_succeeds_throw _

theorem fails_json_zero {n : Node} {v : Json} (hn : NonScalar n) : ¬ Succeeds (d.json 0 n) v := by
  have hfail : d.json 0 n = throw .malformed := by
    cases hn with
    | mapping es => cases es <;> (delta json; rfl)
    | _ => delta json; rfl
  exact hfail ▸ Reading.not_succeeds_throw _

/-- Reading a JSON value is stable. -/
theorem stable_json (depth : Nat) : Stable .any (d.json depth) := by
  induction depth with
  | zero =>
    intro n n' v hn _ hread
    rcases scalar_or_nonScalar hn with ⟨source, value, rfl, rfl⟩ | ⟨hn, -⟩
    · rw [json_atom] at hread ⊢
      exact (decided_jsonOfAtom source value).eq_pure hread
    · exact absurd hread (fails_json_zero hn)
  | succ depth ih =>
    intro n n' v hn hdistinct hread
    cases hn with
    | atom source value =>
      rw [json_atom] at hread ⊢
      exact (decided_jsonOfAtom source value).eq_pure hread
    | unreadable => exact absurd hread (fails_json (depth + 1))
    | sequence hitem hitems =>
      cases hitem
      rw [json_sequence] at hread ⊢
      obtain ⟨values, hvalues, hv⟩ := hread.bind
      rw [mapM_of_rearranged ih hitems (Node.distinct_sequence_iff.1 hdistinct) hvalues, pure_bind,
        Reading.succeeds_pure_iff.1 hv]
    | mapping hes hadded hperm =>
      have hrest := Rearranged.mapping hes hadded hperm
      obtain ⟨ys, hys, rfl⟩ := succeeds_json_mapping hrest.isKey_left hread
      obtain ⟨zs, hzs, htable⟩ := entries_of_rearranged ih (fun _ => rfl) hrest hdistinct hys
      rw [json_mapping_eq_pure hzs, Json.ofMembers, htable, Json.ofMembers]

end Containers

section Variants

variable {known : List (String × α)} {depth : Nat}

/-- Beside a name without data there is a scalar, which stays. -/
theorem noData_of_rearranged {s : Shape} {v v' : Node} (h : Rearranged s v v')
    (hread : Succeeds (d.noData v) ()) : v' = v ∧ d.noData v = pure () := by
  cases h with
  | atom source value =>
    have huntagged : (Node.atom source value).untagged = .atom source value := rfl
    have hdecided : Decided (d.noData (.atom source value)) := by
      rw [noData, huntagged]
      cases value with
      | null => exact .inl ⟨_, rfl⟩
      | _ =>
        dsimp only
        split
        · exact .inr ⟨_, rfl⟩
        · exact .inr ⟨_, rfl⟩
    exact ⟨rfl, hdecided.eq_pure hread⟩
  | unreadable => exact absurd hread (Reading.not_succeeds_throw _)
  | sequence => exact absurd hread (Reading.not_succeeds_throw _)
  | mapping => exact absurd hread (Reading.not_succeeds_throw _)

theorem variant_atom (hd : d.IsJson) (source : Text) (value : Atom) :
    Decided (d.variant depth known (.atom source value)) := by
  rw [variant, follow_atom, pure_bind, hd.format]
  cases value with
  | text t => exact decided_pick known t
  | _ =>
    simp only [hd.stage, if_false]
    exact .inr ⟨_, rfl⟩

/-- A mapping that is read as one of the known names has one entry. -/
theorem variant_mapping (hd : d.IsJson) {es : List (Node × Node)} {x : α}
    (h : Succeeds (d.variant depth known (.mapping es)) x) :
    ∃ key value, es = [(key, value)] ∧ Succeeds (d.tagName known key) x ∧
      Succeeds (d.noData value) () ∧
      d.variant depth known (.mapping es) = do
        let v ← d.tagName known key
        d.noData value
        return v := by
  rw [variant, follow_mapping, pure_bind, hd.format] at h ⊢
  simp only [hd.stage, if_false] at h ⊢
  split at h
  · next key value rest =>
    obtain ⟨v, hv, hnext⟩ := h.bind
    obtain ⟨u, hdata, hend⟩ := hnext.bind
    split at hend
    · next hrest =>
      obtain rfl : rest = [] := List.isEmpty_iff.1 hrest
      obtain rfl : v = x := Reading.succeeds_pure_iff.1 hend
      exact ⟨key, value, rfl, hv, hdata, rfl⟩
    · exact absurd hend (Reading.not_succeeds_throw _)
  · exact absurd h (Reading.not_succeeds_throw _)

/-- Reading one of the known names is stable. -/
theorem stable_variant (hd : d.IsJson) (depth : Nat) (known : List (String × α)) :
    Stable .any (d.variant depth known) := by
  intro n n' x hn hdistinct hread
  have hfollow := follow_of_rearranged (d := d) hn
  cases hn with
  | atom source value => exact (variant_atom hd source value).eq_pure hread
  | unreadable =>
    rw [variant, hfollow, pure_bind, hd.format] at hread
    simp [hd.stage] at hread
  | sequence =>
    rw [variant, hfollow, pure_bind, hd.format] at hread
    simp [hd.stage] at hread
  | mapping hes hadded hperm =>
    obtain ⟨key, value, rfl, hkey, hdata, hvariant⟩ := variant_mapping hd hread
    have hrest := Rearranged.mapping hes hadded hperm
    obtain ⟨fs, hfs, hfs'⟩ := hrest.perm_of_part (by simp [Shape.part])
    obtain ⟨⟨key', value'⟩, fs, ⟨rfl, hisKey, hvalue⟩, hnil, rfl⟩ :=
      List.forall₂_cons_left_iff.1 hfs
    obtain rfl : fs = [] := List.forall₂_nil_left_iff.1 hnil
    obtain ⟨rfl, hpure⟩ := noData_of_rearranged hvalue hdata
    rw [List.perm_singleton.1 hfs', hvariant, hpure, (decided_tagName hisKey).eq_pure hkey]
    rfl

end Variants

section Passing

theorem intactEntries_iff {es : List (Node × Node)} :
    intactEntries es = true ↔ ∀ e ∈ es, intact e.1 = true ∧ intact e.2 = true := by
  induction es with
  | nil => simp [intactEntries]
  | cons e es ih =>
    rw [intactEntries, Bool.and_eq_true, Bool.and_eq_true, ih, List.forall_mem_cons]

theorem intact_of_isScalar {n : Node} (h : n.IsScalar) : intact n = true := by
  cases h <;> rfl

mutual

/-- A tree that can be rearranged does not break off. -/
theorem intact_of_rearranged : {s : Shape} → {n n' : Node} → Rearranged s n n' → intact n' = true
  | _, _, _, .atom _ _ => rfl
  | _, _, _, .unreadable => rfl
  | _, _, _, .sequence _ h => intactItems_of_rearranged h
  | _, _, _, .mapping h hadded hperm => by
    rw [intact, intactEntries_iff]
    intro e he
    rcases List.mem_append.1 (hperm.subset he) with he | he
    · exact intactEntries_iff.1 (intactEntries_of_rearranged h) e he
    · obtain ⟨name, hname, -, -, hscalar⟩ := hadded.new e he
      exact ⟨by rw [hname]; rfl, intact_of_isScalar hscalar⟩

theorem intactItems_of_rearranged : {s : Shape} → {items others : List Node} →
    RearrangedItems s items others → intactItems others = true
  | _, _, _, .nil _ => rfl
  | _, _, _, .cons h hrest => by
    rw [intactItems, intact_of_rearranged h, intactItems_of_rearranged hrest, Bool.and_self]

theorem intactEntries_of_rearranged : {shape : Node → Shape} → {es fs : List (Node × Node)} →
    RearrangedEntries shape es fs → intactEntries fs = true
  | _, _, _, .nil _ => rfl
  | _, _, _, .cons hkey h hrest => by
    rw [intactEntries, intact_of_rearranged h, intactEntries_of_rearranged hrest]
    cases hkey <;> rfl

end

variable {s : Shape} {depth : Nat}

theorem decided_holdAtom (expected : String) (source : Text) (value : Atom) :
    Decided (d.holdAtom expected source value) := by
  cases value with
  | wide => exact .inr ⟨_, rfl⟩
  | mistagged => exact .inr ⟨_, rfl⟩
  | _ => exact .inl ⟨_, rfl⟩

theorem hold_of_isScalar {n : Node} (h : n.IsScalar) (expected : String) (depth : Nat) :
    d.hold expected depth n = pure () := by
  cases h <;> exact hold_atom d expected depth _ _

theorem fails_hold (expected : String) (depth : Nat) :
    ¬ Succeeds (d.hold expected depth .unreadable) () := by
  have hfail : d.hold expected depth .unreadable = throw .malformed := by
    cases depth <;> (delta hold; rfl)
  exact hfail ▸ Reading.not_succeeds_throw _

theorem fails_hold_zero {n : Node} (hn : NonScalar n) (expected : String) :
    ¬ Succeeds (d.hold expected 0 n) () := by
  have hfail : d.hold expected 0 n = throw .malformed := by cases hn <;> (delta hold; rfl)
  exact hfail ▸ Reading.not_succeeds_throw _

/-- An entry that is set aside is under a name. -/
theorem name_of_holdEntry {expected : String} {key v : Node} (hkey : IsKey key)
    (h : Succeeds (d.holdEntry expected depth (key, v)) ()) :
    ∃ name, key = .atom name (.text name) := by
  cases hkey with
  | name t => exact ⟨t, rfl⟩
  | unreadable =>
    rw [holdEntry] at h
    split at h
    · obtain ⟨_, hthrow, -⟩ := h.bind
      exact absurd hthrow (Reading.not_succeeds_throw _)
    · obtain ⟨_, hhold, -⟩ := h.bind
      exact absurd hhold (fails_hold _ depth)

/-- An entry whose value is rearranged is set aside as before, given that its value is. -/
theorem holdEntry_of_stable {expected : String} {s : Shape} {key v v' : Node}
    (hhold : Stable s (d.hold "any value" depth)) (hkey : IsKey key) (h : Rearranged s v v')
    (hdistinct : v.Distinct) (hread : Succeeds (d.holdEntry expected depth (key, v)) ()) :
    d.holdEntry expected depth (key, v') = pure () := by
  obtain ⟨name, rfl⟩ := name_of_holdEntry hkey hread
  rw [holdEntry_name] at hread ⊢
  exact hhold h hdistinct hread

theorem holdEntry_of_isScalar (expected : String) (name : Text) {v : Node} (h : v.IsScalar) :
    d.holdEntry expected depth (.atom name (.text name), v) = pure () := by
  rw [holdEntry_name, hold_of_isScalar h]

/-- Setting aside is stable. -/
theorem stable_hold (s : Shape) (expected : String) (depth : Nat) :
    Stable s (d.hold expected depth) := by
  induction depth generalizing s expected with
  | zero =>
    intro n n' u hn _ hread
    rcases scalar_or_nonScalar hn with ⟨source, value, rfl, rfl⟩ | ⟨hn, -⟩
    · rw [hold_atom] at hread ⊢
      exact (decided_holdAtom expected source value).eq_pure hread
    · exact absurd hread (fails_hold_zero hn expected)
  | succ depth ih =>
    intro n n' u hn hdistinct hread
    cases hn with
    | atom source value =>
      rw [hold_atom] at hread ⊢
      exact (decided_holdAtom expected source value).eq_pure hread
    | unreadable => exact absurd hread (fails_hold expected (depth + 1))
    | sequence hitem hitems =>
      rw [hold_sequence] at hread ⊢
      refine Reading.forM_eq_pure fun n' hn' => ?_
      obtain ⟨n, hn, hrest⟩ := exists_of_forall₂_right (Rearranged.items_iff.1 hitems) hn'
      exact ih _ _ hrest (Node.distinct_sequence_iff.1 hdistinct n hn)
        (Reading.succeeds_forM hread n hn)
    | mapping hes hadded hperm =>
      have hrest := Rearranged.mapping hes hadded hperm
      rw [hold_mapping] at hread ⊢
      refine Reading.forM_eq_pure ?_
      rintro ⟨key, v'⟩ he'
      rcases hrest.exists_left he' with ⟨hkey, v, he, hv⟩ | ⟨name, rfl, -, hscalar⟩
      · exact holdEntry_of_stable (ih _ _) hkey hv ((Node.distinct_mapping_iff.1 hdistinct).2 _ he)
          (Reading.succeeds_forM hread _ he)
      · exact holdEntry_of_isScalar _ name hscalar

end Passing

section Records

variable {ι : Type} [Fields ι] [DecidableEq ι] {s : Shape} {read : Readers ι}
  {finish : Draft ι → (ι → Fault) → Except Fault α}

theorem exists_entries {es : List (Node × Node)}
    (h : ∀ e ∈ es, ∃ name, e.1 = .atom name (.text name)) :
    ∃ ns : List (Text × Node), es = ns.map fun e => (.atom e.1 (.text e.1), e.2) := by
  induction es with
  | nil => exact ⟨[], rfl⟩
  | cons e es ih =>
    obtain ⟨key, v⟩ := e
    obtain ⟨⟨name, rfl⟩, hes⟩ := List.forall_mem_cons.1 h
    obtain ⟨ns, rfl⟩ := ih hes
    exact ⟨(name, v) :: ns, rfl⟩

theorem names_entries (ns : List (Text × Node)) :
    Node.names (ns.map fun e => (.atom e.1 (.text e.1), e.2)) = ns.map Prod.fst := by
  rw [Node.names, List.filterMap_map, ← List.filterMap_eq_map]
  rfl

/-- Rearranged entries fill the same fields in the same way. -/
theorem fill_of_rearranged {shape : ι → Shape} (hread : ∀ i, Stable (shape i) (read i))
    {es es' : List (Node × Node)} {result : Draft ι}
    (hs : ∀ name, s.part es name = Fields.shape? shape name)
    (h : Rearranged s (.mapping es) (.mapping es')) (hdistinct : (Node.mapping es).Distinct)
    (hfill : Succeeds (d.fill read es Draft.empty) result) :
    d.fill read es' Draft.empty = pure result := by
  have hfilled := succeeds_fill h.isKey_left hfill
  obtain ⟨hnodup, hvalues⟩ := Node.distinct_mapping_iff.1 hdistinct
  have hnames : ∀ e ∈ es', ∃ name, e.1 = .atom name (.text name) := by
    rintro ⟨key, v'⟩ he
    rcases h.exists_left he with ⟨-, v, hold, -⟩ | ⟨name, hname, -⟩
    · exact hfilled.names (key, v) hold
    · exact ⟨name, hname⟩
  have hunder : ∀ name i, (Fields.named? name : Option ι) = some i →
      s.under es (.atom name (.text name)) = shape i := by
    intro name i hi
    simp [Shape.under, Node.name?, hs, Fields.shape?, hi]
  obtain ⟨ns, rfl⟩ := exists_entries hnames
  have hmem : ∀ e ∈ ns, (Node.atom e.1 (.text e.1), e.2) ∈
      ns.map fun e => (Node.atom e.1 (.text e.1), e.2) := fun e he => List.mem_map_of_mem he
  have hknown : ∀ e ∈ ns, ((Fields.named? e.1 : Option ι) = none ∧ intact e.2 = true) ∨
      ∃ i x, Fields.named? e.1 = some i ∧ result i = some x ∧ read i e.2 = pure x := by
    rintro ⟨name, v'⟩ he
    rcases h.exists_left (hmem _ he) with ⟨-, v, hold, hv⟩ | ⟨other, heq, hnone, hscalar⟩
    · cases hname : (Fields.named? name : Option ι) with
      | none => exact .inl ⟨rfl, intact_of_rearranged hv⟩
      | some i =>
        obtain ⟨x, hx, hi⟩ := hfilled.values name v i hold hname
        rw [hunder name i hname] at hv
        exact .inr ⟨i, x, rfl, hi, hread i hv (hvalues _ hold) hx⟩
    · cases heq
      rw [hs, Fields.shape?, Option.map_eq_none_iff] at hnone
      exact .inl ⟨hnone, intact_of_isScalar hscalar⟩
  have hcomplete : ∀ i, result i ≠ none → ∃ e ∈ ns, Fields.named? e.1 = some i := by
    intro i hi
    obtain ⟨name, v, hold, hname⟩ := hfilled.absent i hi
    obtain ⟨-, v', hv', -⟩ := h.exists_right hold
    obtain ⟨e, he, heq⟩ := List.mem_map.1 hv'
    cases heq
    exact ⟨e, he, hname⟩
  have hfresh : (ns.map Prod.fst).Nodup := names_entries ns ▸ h.nodup_names hnodup
  change d.fill read (ns.map fun e => (.atom e.1 (.text e.1), id e.2)) Draft.empty = pure result
  exact fill_pending field?_atom (.start hfresh hknown hcomplete)

theorem record_mapping (hd : d.IsJson) (expected : String) (es : List (Node × Node)) :
    d.record expected (some read) finish (.mapping es) =
      (d.fill read es Draft.empty >>= fun draft =>
        liftM (finish draft fun i => .missingField (Fields.name i))) := by
  rw [record, follow_mapping, pure_bind, hd.container]

/-- What is written as a record and read as one is a mapping. -/
theorem mapping_of_record (hd : d.IsJson) {readers : Option (Readers ι)} {expected : String}
    {n n' : Node} {x : α} (hitem : s.item = none) (hn : Rearranged s n n')
    (h : Succeeds (d.record expected readers finish n) x) :
    ∃ es es' read, n = .mapping es ∧ n' = .mapping es' ∧ readers = some read := by
  have hfollow := follow_of_rearranged (d := d) hn
  cases hn with
  | sequence hsome =>
    rw [hitem] at hsome
    cases hsome
  | @mapping _ es _ _ es' =>
    cases readers with
    | some read => exact ⟨es, es', read, rfl, rfl, rfl⟩
    | none =>
      rw [record, hfollow, pure_bind, hd.container] at h
      exact absurd h (Reading.not_succeeds_throw _)
  | atom source value =>
    rw [record, hfollow, pure_bind, hd.container, hd.isEmpty] at h
    exact absurd h (Reading.not_succeeds_throw _)
  | unreadable =>
    rw [record, hfollow, pure_bind, hd.container, hd.isEmpty] at h
    exact absurd h (Reading.not_succeeds_throw _)

/-- A record is stable as its fields are. -/
theorem stable_record (hd : d.IsJson) (shape : ι → Shape)
    (hread : ∀ i, Stable (shape i) (read i)) (hitem : s.item = none)
    (hs : ∀ es name, s.part es name = Fields.shape? shape name) (expected : String) :
    Stable s (d.record expected (some read) finish) := by
  intro n n' x hn hdistinct hx
  obtain ⟨es, es', _, rfl, rfl, -⟩ := mapping_of_record hd hitem hn hx
  rw [record_mapping hd] at hx ⊢
  obtain ⟨result, hfill, hfinish⟩ := hx.bind
  rw [fill_of_rearranged hread (hs es) hn hdistinct hfill, pure_bind,
    Reading.succeeds_lift_iff.1 hfinish]
  rfl

/-- A record that may be too deep is stable as its fields are. -/
theorem stable_below (hd : d.IsJson) (shape : ι → Shape) {readers : Nat → Readers ι} {depth : Nat}
    (hread : ∀ depth i, Stable (shape i) (readers depth i)) (hitem : s.item = none)
    (hs : ∀ es name, s.part es name = Fields.shape? shape name) (expected : String) :
    Stable s (d.record expected (below depth readers) finish) := by
  cases depth with
  | succ depth => exact stable_record hd shape (hread depth) hitem hs expected
  | zero =>
    intro n n' x hn _ hx
    obtain ⟨es, es', read, -, -, hnone⟩ := mapping_of_record hd hitem hn hx
    cases hnone

end Records

end Dialect

end RouteModule
