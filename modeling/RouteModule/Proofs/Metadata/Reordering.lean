import RouteModule.Generation
import RouteModule.Proofs.Json.Grammar
import RouteModule.Proofs.Metadata.RoundTrip
import RouteModule.Proofs.Metadata.Stability

/-!
The order of members in the text of metadata does not matter, and members that no record knows do not
either. Most records are read in passing, field by field; a property and a named type sift their entries
first, which gives the same for a rearranged document, and what they are left with is rearranged as well.
-/

namespace RouteModule

open Node (IsKey)
open Reading (Succeeds)

variable {d : Dialect}

section Sift

variable {name : Text} {twice : Fault} {own : Node → Reading α} {other : Node × Node → Reading Unit}
  {es others : List (Node × Node)} {x : Option α}

open Dialect (sift)

/-- Rearranged entries are sifted alike, if looking at the others is stable. -/
theorem sift_of_rearranged {s t : Shape} {es' : List (Node × Node)}
    (h : Rearranged s (.mapping es) (.mapping es')) (hdistinct : (Node.mapping es).Distinct)
    (hname : s.part es name = some t) (hown : Stable t own)
    (hother : ∀ {s : Shape} {key v v' : Node}, IsKey key → Rearranged s v v' → v.Distinct →
      Succeeds (other (key, v)) () → other (key, v') = pure ())
    (hscalar : ∀ {name : Text} {v : Node}, v.IsScalar →
      other (.atom name (.text name), v) = pure ())
    (hread : Succeeds (sift name twice own other es none) (x, others)) :
    (∀ e ∈ Node.without name es', other e = pure ()) ∧
      sift name twice own other es' none = pure (x, Node.without name es') := by
  obtain ⟨-, hpassed, hsifted⟩ := succeeds_sift hread
  obtain ⟨hnodup, hvalues⟩ := Node.distinct_mapping_iff.1 hdistinct
  have hothers : ∀ e ∈ Node.without name es', other e = pure () := by
    rintro ⟨key, v'⟩ he
    obtain ⟨he, hne⟩ := List.mem_filter.1 he
    rcases h.exists_left he with ⟨hkey, v, hold, hv⟩ | ⟨added, rfl, -, hadded⟩
    · exact hother hkey hv (hvalues _ hold) (hpassed _ (List.mem_filter.2 ⟨hold, hne⟩))
    · exact hscalar hadded
  refine ⟨hothers, sift_eq_pure (h.nodup_names hnodup) hothers ?_⟩
  rcases hsifted with ⟨hnone, rfl⟩ | ⟨-, v, y, hv, hy, rfl⟩
  · exact .inl ⟨h.value?_none (by simp [hname]) hnone, rfl⟩
  · obtain ⟨v', hv', hrest⟩ := h.value?_right hnodup hv
    rw [hname] at hrest
    have hmem := (Node.value?_eq_some_iff h.isKey_left hnodup).1 hv
    exact .inr ⟨rfl, v', y, hv', hown hrest (hvalues _ hmem) hy, rfl⟩

theorem Node.Distinct.without (name : Text) (h : (Node.mapping es).Distinct) :
    (Node.mapping (Node.without name es)).Distinct := by
  obtain ⟨hnodup, hvalues⟩ := Node.distinct_mapping_iff.1 h
  exact Node.distinct_mapping_iff.2 ⟨hnodup.sublist (Node.names_without_sublist name es),
    fun e he => hvalues e (List.mem_filter.1 he).1⟩

end Sift

section Records

theorem TypeSchema.stable_read (hd : d.IsJson) (depth : Nat) : Stable .type (read d depth) := by
  induction depth with
  | zero =>
    intro n n' x hn _ hx
    obtain ⟨es, es', readers, -, -, hnone⟩ := Dialect.mapping_of_record hd rfl hn hx
    cases hnone
  | succ depth ih =>
    refine Dialect.stable_record hd shape (fun i => ?_) rfl (fun _ _ => rfl) _
    cases i with
    | dataType => exact Dialect.stable_text _
    | ref => exact Dialect.stable_optional (Dialect.stable_text _)
    | array => exact Dialect.stable_optional ih
    | enums => exact Dialect.stable_optional (Dialect.stable_list hd rfl Dialect.stable_json)

theorem Parameter.stable_read (hd : d.IsJson) (depth : Nat) :
    Stable .parameter (read d depth) := by
  refine Dialect.stable_below hd shape (fun depth i => ?_) rfl (fun _ _ => rfl) _
  cases i with
  | parameterName => exact Dialect.stable_text _
  | name => exact Dialect.stable_text _
  | origin => exact Dialect.stable_variant hd depth _
  | required => exact Dialect.stable_bool
  | type => exact TypeSchema.stable_read hd depth

theorem Method.stable_readRequirement (hd : d.IsJson) (depth : Nat) :
    Stable .any (readRequirement d depth) :=
  Dialect.stable_table hd (fun _ _ => rfl) fun _ =>
    Dialect.stable_list hd rfl fun _ => Dialect.stable_text _

theorem Method.stable_read (hd : d.IsJson) (depth : Nat) : Stable .method (read d depth) := by
  refine Dialect.stable_below hd shape (fun depth i => ?_) rfl (fun _ _ => rfl) _
  cases i with
  | name => exact Dialect.stable_text _
  | verb => exact Dialect.stable_variant hd depth _
  | path => exact Dialect.stable_text _
  | parameters => exact Dialect.stable_list hd rfl (Parameter.stable_read hd)
  | successStatus => exact Dialect.stable_optional Dialect.stable_natural16
  | security => exact Dialect.stable_list hd rfl (stable_readRequirement hd)

theorem Controller.stable_read (hd : d.IsJson) (depth : Nat) :
    Stable .controller (read d depth) := by
  refine Dialect.stable_below hd shape (fun depth i => ?_) rfl (fun _ _ => rfl) _
  cases i with
  | name => exact Dialect.stable_text _
  | location => exact Dialect.stable_text _
  | path => exact Dialect.stable_text _
  | methods => exact Dialect.stable_list hd rfl (Method.stable_read hd)

end Records

section Properties

variable {es others : List (Node × Node)}

/-- The entries that a property passes on are under names. -/
theorem Property.name_of_passEntry {key v : Node} (hkey : IsKey key)
    (h : Succeeds (passEntry d (key, v)) ()) : ∃ name, key = .atom name (.text name) := by
  obtain ⟨name, hname, -⟩ := h.bind
  exact ⟨name, Dialect.eq_of_entryName hkey hname⟩

theorem Property.stable_read (hd : d.IsJson) (depth : Nat) : Stable .property (read d depth) := by
  intro n n' x hn hdistinct hread
  have hfollow := Dialect.follow_of_rearranged (d := d) hn
  rw [read, hfollow, pure_bind] at hread
  cases hn with
  | atom => exact absurd hread (Reading.not_succeeds_throw _)
  | unreadable => exact absurd hread (Reading.not_succeeds_throw _)
  | sequence => exact absurd hread (Reading.not_succeeds_throw _)
  | @mapping _ es _ _ es' hes hadded hperm =>
    have hrest := Rearranged.mapping hes hadded hperm
    have hpart : Shape.property.part es "required".toList = some .any := by
      rw [Shape.part, if_pos rfl]
    obtain ⟨⟨required, others⟩, hsplit, hschema⟩ := hread.bind
    rw [split_eq_sift hrest.isKey_left] at hsplit
    obtain ⟨rfl, hpassed, -⟩ := succeeds_sift hsplit
    obtain ⟨hpassed', hsift⟩ := sift_of_rearranged hrest hdistinct hpart Dialect.stable_bool
      (fun hkey _ _ hentry => by
        obtain ⟨name, rfl⟩ := name_of_passEntry hkey hentry
        exact passEntry_name name _)
      (fun _ => passEntry_name _ _) hsplit
    have htype : Rearranged .type (.mapping (Node.without "required".toList es))
        (.mapping (Node.without "required".toList es')) := by
      refine hrest.without (hpart.trans_ne (Option.some_ne_none _)) fun other hother => ?_
      simp only [Shape.part, if_neg hother]
    have hnamed' : ∀ e ∈ Node.without "required".toList es', ∃ name, e.1 = .atom name (.text name) :=
      fun e he => name_of_passEntry (htype.isKey_right e he)
        ((hpassed' e he).symm ▸ Reading.succeeds_pure_iff.2 rfl)
    dsimp only at hschema
    rw [filter_named fun e he => name_of_passEntry (htype.isKey_left e he) (hpassed e he)] at hschema
    obtain ⟨schema, hschema, hx⟩ := hschema.bind
    have hread := TypeSchema.stable_read hd depth htype (hdistinct.without _) hschema
    rw [read, Dialect.follow_mapping, pure_bind]
    dsimp only
    rw [split_eq_sift hrest.isKey_right, hsift, pure_bind, filter_named hnamed', hread, pure_bind,
      Reading.succeeds_pure_iff.1 hx]

end Properties

section ReferenceTypes

namespace ReferenceType

variable {es : List (Node × Node)} {depth : Nat}

theorem stable_readKind (hd : d.IsJson) (depth : Nat) (kind : Kind) :
    Stable (.content kind) fun content => readKind d depth content kind := by
  cases kind with
  | object =>
    refine Dialect.stable_record hd objectShape (fun i => ?_) rfl (fun _ _ => rfl) _
    cases i with
    | properties => exact Dialect.stable_table hd (fun _ _ => rfl) (Property.stable_read hd)
    | additionalProperties => exact Dialect.stable_optional (Dialect.stable_json depth)
  | enumeration =>
    refine Dialect.stable_record hd enumShape (fun i => ?_) rfl (fun _ _ => rfl) _
    cases i with
    | enums => exact Dialect.stable_list hd rfl Dialect.stable_json
  | «alias» =>
    refine Dialect.stable_record hd aliasShape (fun i => ?_) rfl (fun _ _ => rfl) _
    cases i with
    | type => exact TypeSchema.stable_read hd depth

/-- The kind that is read is the one that is stated. -/
theorem statedKind?_of_tagName (hd : d.IsJson) {s : Shape} {v v' : Node} {kind : Kind}
    (hv : Node.value? kindKey.toList es = some v) (h : Rearranged s v v')
    (hkind : Succeeds (d.tagName Kind.names v) kind) : statedKind? es = some kind := by
  have hfollow := Dialect.follow_of_rearranged (d := d) h
  obtain ⟨name, hname, hpick⟩ := hkind.bind
  have hvalue : v.name? = some name := by
    rw [Dialect.text, hfollow, pure_bind, Dialect.text?_of_rearranged hd h] at hname
    split at hname
    · next t ht => rw [ht, Reading.succeeds_pure_iff.1 hname]
    · exact absurd hname (Reading.not_succeeds_throw _)
  rw [statedKind?, hv, Option.bind_some, hvalue, Option.bind_some]
  rw [Dialect.pick] at hpick
  split at hpick
  · next k hk => rw [hk, Option.map_some, Reading.succeeds_pure_iff.1 hpick]
  · exact absurd hpick (Reading.not_succeeds_throw _)

theorem stable_read (hd : d.IsJson) (depth : Nat) : Stable .named (read d depth) := by
  intro n n' x hn hdistinct hread
  have hfollow := Dialect.follow_of_rearranged (d := d) hn
  rw [read, hfollow, pure_bind] at hread
  cases hn with
  | atom => exact absurd hread (Reading.not_succeeds_throw _)
  | unreadable => exact absurd hread (Reading.not_succeeds_throw _)
  | sequence hitem => cases hitem
  | @mapping _ es _ _ es' hes hadded hperm =>
    have hrest := Rearranged.mapping hes hadded hperm
    have hpart : Shape.named.part es kindKey.toList = some .any := by rw [Shape.part, if_pos rfl]
    cases depth with
    | zero => exact absurd hread (Reading.not_succeeds_throw _)
    | succ depth =>
      obtain ⟨⟨kind, others⟩, hfind, hcontent⟩ := hread.bind
      rw [findKind_eq_sift hrest.isKey_left] at hfind
      obtain ⟨rfl, -, hsifted⟩ := succeeds_sift hfind
      obtain ⟨-, hsift⟩ := sift_of_rearranged hrest hdistinct hpart (Dialect.stable_tagName _)
        (fun {s} _ _ _ hkey hv hvalue hentry =>
          Dialect.holdEntry_of_stable (Dialect.stable_hold s _ depth) hkey hv hvalue hentry)
        (fun {name} _ hscalar => Dialect.holdEntry_of_isScalar _ name hscalar) hfind
      rcases hsifted with ⟨-, rfl⟩ | ⟨-, v, kind, hv, hkind, rfl⟩
      · exact absurd hcontent (Reading.not_succeeds_throw _)
      · obtain ⟨v', -, hvalue⟩ :=
          hrest.value?_right (Node.distinct_mapping_iff.1 hdistinct).1 hv
        have hstated := statedKind?_of_tagName hd hv hvalue hkind
        have hcontents : Rearranged (.content kind) (.mapping (Node.without kindKey.toList es))
            (.mapping (Node.without kindKey.toList es')) := by
          refine hrest.without (hpart.trans_ne (Option.some_ne_none _)) fun other hother => ?_
          simp only [Shape.part, if_neg hother, hstated]
        have hread := stable_readKind hd.held depth kind hcontents (hdistinct.without _) hcontent
        rw [read, Dialect.follow_mapping, pure_bind]
        dsimp only
        rw [findKind_eq_sift hrest.isKey_right, hsift, pure_bind]
        exact hread

end ReferenceType

end ReferenceTypes

theorem Metadata.stable_read (hd : d.IsJson) (depth : Nat) : Stable .metadata (read d depth) := by
  refine Dialect.stable_below hd shape (fun depth i => ?_) rfl (fun _ _ => rfl) _
  cases i with
  | controllers => exact Dialect.stable_list hd rfl (Controller.stable_read hd)
  | referenceTypes => exact Dialect.stable_table hd (fun _ _ => rfl) (ReferenceType.stable_read hd)

section Texts

open Json (Spells)

theorem exists_spells_of_isScalar {n : Node} (h : n.IsScalar) : ∃ v, Spells n v := by
  cases h with
  | null => exact ⟨_, Json.SpellsScalar.null⟩
  | true => exact ⟨_, Json.SpellsScalar.true⟩
  | false => exact ⟨_, Json.SpellsScalar.false⟩
  | text t =>
    obtain ⟨v, hv⟩ := Json.exists_readText t
    exact ⟨_, Json.SpellsScalar.text hv⟩

mutual

/-- A rearranged tree can be written if the tree can. -/
theorem exists_spells : {s : Shape} → {n n' : Node} → Rearranged s n n' → (∃ v, Spells n v) →
    ∃ v, Spells n' v
  | _, _, _, .atom _ _, h => h
  | _, _, _, .unreadable, h => h
  | _, _, _, .sequence _ hitems, h =>
    Json.exists_spells_sequence_iff.2
      (exists_spells_items hitems (Json.exists_spells_sequence_iff.1 h))
  | _, _, _, .mapping hes hadded hperm, h => by
    rw [Json.exists_spells_mapping_iff] at h ⊢
    intro e he
    rcases List.mem_append.1 (hperm.subset he) with he | he
    · exact exists_spells_entries hes h e he
    · obtain ⟨name, hname, -, -, hscalar⟩ := hadded.new e he
      obtain ⟨k, hk⟩ := Json.exists_readText name
      exact ⟨⟨k, hname ▸ hk⟩, exists_spells_of_isScalar hscalar⟩

theorem exists_spells_items : {s : Shape} → {items others : List Node} →
    RearrangedItems s items others → (∀ n ∈ items, ∃ v, Spells n v) → ∀ n ∈ others, ∃ v, Spells n v
  | _, _, _, .nil _, h => h
  | _, _, _, .cons hn hrest, h => by
    obtain ⟨hfirst, hitems⟩ := List.forall_mem_cons.1 h
    exact List.forall_mem_cons.2 ⟨exists_spells hn hfirst, exists_spells_items hrest hitems⟩

theorem exists_spells_entries : {shape : Node → Shape} → {es fs : List (Node × Node)} →
    RearrangedEntries shape es fs →
    (∀ e ∈ es, (∃ k, Json.readText k = (e.1, some [])) ∧ ∃ v, Spells e.2 v) →
    ∀ e ∈ fs, (∃ k, Json.readText k = (e.1, some [])) ∧ ∃ v, Spells e.2 v
  | _, _, _, .nil _, h => h
  | _, _, _, .cons _ hn hrest, h => by
    obtain ⟨⟨hkey, hfirst⟩, hes⟩ := List.forall_mem_cons.1 h
    exact List.forall_mem_cons.2 ⟨⟨hkey, exists_spells hn hfirst⟩, exists_spells_entries hrest hes⟩

end

end Texts

namespace Metadata

/-- The order of the members of objects does not matter, and neither do members that a record does
not know: a text with the entries of another in some order, and with scalars added to its records, is
read as the same metadata, from which the same module is made. -/
theorem ofText_rearranged {t : Text} {m : Metadata} (h : ofJson t = .ok m) :
    Json.SpellsDocument (Json.document t).root t ∧
      ((Json.document t).root.Distinct →
        ∀ n', Rearranged .metadata (Json.document t).root n' →
          (∃ t', Json.SpellsDocument n' t') ∧
          ∀ t', Json.SpellsDocument n' t' →
            ofText t' = .ok m ∧
            ∀ (o : Options) (cwd template : Text),
              (ofText t').map (fun m => (⟨m, o⟩ : Generator).content cwd template) =
                (ofText t).map fun m => (⟨m, o⟩ : Generator).content cwd template) := by
  obtain ⟨hcomplete, hread⟩ := Document.succeeds_of_read h
  have hspells := Json.spellsDocument_of_complete hcomplete
  refine ⟨hspells, fun hdistinct n' hn' => ⟨?_, fun t' ht' => ?_⟩⟩
  · obtain ⟨a, v, b, -, ha, hb, hv⟩ := hspells
    obtain ⟨v', hv'⟩ := exists_spells hn' ⟨v, hv⟩
    exact ⟨a ++ (v' ++ b), a, v', b, rfl, ha, hb, hv'⟩
  · have hd : (Dialect.ofDocument .json (Json.document t')).IsJson := ⟨rfl, Stage.noConfusion⟩
    have hdocument := Json.document_spells ht'
    have hsame : ofText t' = .ok m := by
      refine ofText_of_ofJson (Document.read_eq_ok (by rw [hdocument]) ?_)
      rw [hdocument]
      rw [Json.document_spells hspells] at hread
      exact stable_read ⟨rfl, Stage.noConfusion⟩ 127 hn' hdistinct hread
    refine ⟨hsame, fun o cwd template => ?_⟩
    rw [hsame, ofText_of_ofJson h]

/-- Metadata with one named type. -/
def identifiers : Metadata := ⟨[], [("Id".toList, .alias ⟨"string".toList, none, none, none⟩)]⟩

/-- The metadata as somebody else may write them: the named types come first, the kind of the type
stands last in it, and there is a remark in each record. -/
def remarkedIdentifiers : Json := .object [
  ("referenceTypes".toList, .object [
    ("Id".toList, .object [
      ("type".toList, .object [
        ("format".toList, .literal "uuid"), ("dataType".toList, .literal "string")]),
      ("since".toList, .null),
      ("dataType".toList, .literal "refAlias")])]),
  ("complete".toList, .bool true),
  ("controllers".toList, .array [])]

theorem remarkedIdentifiers_rearranged :
    Rearranged .metadata (identifiers.written .declared).node remarkedIdentifiers.node := by
  have htype : Rearranged .type
      (Json.object [("dataType".toList, .literal "string")]).node
      (Json.object [
        ("format".toList, .literal "uuid"), ("dataType".toList, .literal "string")]).node :=
    .mapping (.cons (.name _) (.atom _ _) (.nil _))
      (.singleton "format".toList rfl (by decide) (.text "uuid".toList)) (List.Perm.swap _ _ _)
  have hnamed : Rearranged .named
      (Json.object [
        ("dataType".toList, .literal "refAlias"),
        ("type".toList, .object [("dataType".toList, .literal "string")])]).node
      (Json.object [
        ("type".toList, .object [
          ("format".toList, .literal "uuid"), ("dataType".toList, .literal "string")]),
        ("since".toList, .null),
        ("dataType".toList, .literal "refAlias")]).node :=
    .mapping (.cons (.name _) (.atom _ _) (.cons (.name _) htype (.nil _)))
      (.singleton "since".toList rfl (by decide) .null)
      (List.perm_append_singleton (_, _) [(_, _), (_, _)])
  refine .mapping (.cons (.name _) (.sequence rfl (.nil _)) (.cons (.name _) ?_ (.nil _)))
    (.singleton "complete".toList rfl (by decide) .true)
    (List.perm_append_singleton (_, _) [(_, _), (_, _)])
  exact .mapping (.cons (.name _) hnamed (.nil _)) .nil (.refl _)

theorem ofText_rearranged_identifiers :
    ofJson (identifiers.written .declared).render = .ok identifiers ∧
      (Json.document (identifiers.written .declared).render).root.Distinct ∧
      Rearranged .metadata (Json.document (identifiers.written .declared).render).root
        remarkedIdentifiers.node ∧
      Json.SpellsDocument remarkedIdentifiers.node remarkedIdentifiers.render ∧
      ofText remarkedIdentifiers.render = .ok identifiers := by
  have hdocument : ∀ v : Json, v.numbers = [] →
      Json.document v.render = { root := v.node, complete := true } := by
    intro v hv
    rw [Json.document_render, Json.spelt_of_readsBack v (by simp [hv])]
  have hwell : identifiers.WellFormed := by
    refine ⟨by simp [identifiers], by simp [identifiers, Table.Sorted], ?_⟩
    simp [identifiers, ReferenceType.WellFormed, TypeSchema.WellFormed]
  have hread : ofJson (identifiers.written .declared).render = .ok identifiers := by
    rw [ofJson, hdocument _ rfl]
    refine Document.read_eq_ok rfl (read_written hwell ?_ ?_)
    · simp [SaysNoNull, identifiers]
    · decide +kernel
  have hdistinct : (Json.document (identifiers.written .declared).render).root.Distinct := by
    rw [hdocument _ rfl]
    exact ⟨by decide, trivial, ⟨by decide, ⟨by decide, trivial, ⟨by decide, trivial, trivial⟩,
      trivial⟩, trivial⟩, trivial⟩
  have hrearranged : Rearranged .metadata
      (Json.document (identifiers.written .declared).render).root remarkedIdentifiers.node := by
    rw [hdocument _ rfl]
    exact remarkedIdentifiers_rearranged
  have hspells : Json.SpellsDocument remarkedIdentifiers.node remarkedIdentifiers.render := by
    have hcomplete := Json.spellsDocument_of_complete (t := remarkedIdentifiers.render)
    rw [hdocument _ rfl] at hcomplete
    exact hcomplete rfl
  obtain ⟨-, hsame⟩ := ofText_rearranged hread
  exact ⟨hread, hdistinct, hrearranged, hspells, ((hsame hdistinct _ hrearranged).2 _ hspells).1⟩

end Metadata

end RouteModule
