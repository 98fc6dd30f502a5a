import RouteModule.Proofs.Overlap.Alike

/-!
What YAML takes for data that JSON refuses. Where a text is wanted, YAML takes a scalar without quotes
for one, and where data are taken as they are it reads numbers in its own way; so whatever it reads out
of a tree is what JSON reads out of the tree after those changes. `Wanted` says which of them can occur
where.
-/

namespace RouteModule

open Json (Numeral numberNode)
open Reading (Succeeds)
open Yaml (Alike SpellsBare ReadsBare SameName Folded ofPlain)

/-- What is wanted where a node stands, as far as the formats may differ in it. -/
inductive Wanted where
  /-- What both formats read alike, or pass over. -/
  | fixed
  | text
  /-- Data that are taken as they are. -/
  | data
  | optional (w : Wanted)
  | list (item : Wanted)
  | table (value : Wanted)
  | metadata
  | controller
  | method
  | parameter
  | type
  /-- A named type, of which all but the kind is first set aside. -/
  | named
  deriving DecidableEq

section Wants

def Metadata.wanted : Field → Wanted
  | .controllers => .list .controller
  | .referenceTypes => .table .named

def Controller.wanted : Field → Wanted
  | .name => .text
  | .location => .text
  | .path => .text
  | .methods => .list .method

def Method.wanted : Field → Wanted
  | .name => .text
  | .verb => .text
  | .path => .text
  | .parameters => .list .parameter
  | .successStatus => .optional .fixed
  | .security => .list (.table (.list .text))

def Parameter.wanted : Field → Wanted
  | .parameterName => .text
  | .name => .text
  | .origin => .text
  | .required => .fixed
  | .type => .type

def TypeSchema.wanted : Field → Wanted
  | .dataType => .text
  | .ref => .optional .text
  | .array => .optional .type
  | .enums => .optional (.list .data)

namespace Wanted

/-- What a record wants under a name; a name that it does not know is passed over. -/
def field {ι : Type} [Fields ι] (wanted : ι → Wanted) (name : Text) : Wanted :=
  ((Fields.named? name : Option ι).map wanted).getD fixed

/-- What is wanted of the items of a sequence. -/
def item : Wanted → Wanted
  | data => data
  | list w => w
  | _ => fixed

/-- What is wanted under a name. -/
def under : Wanted → Text → Wanted
  | data, _ => data
  | table w, _ => w
  | metadata, name => field Metadata.wanted name
  | controller, name => field Controller.wanted name
  | method, name => field Method.wanted name
  | parameter, name => field Parameter.wanted name
  | type, name => field TypeSchema.wanted name
  | named, name => if name = ReferenceType.kindKey.toList then text else data
  | _, _ => fixed

theorem field_of_named? {ι : Type} [Fields ι] {wanted : ι → Wanted} {name : Text} {i : ι}
    (h : Fields.named? name = some i) : field wanted name = wanted i := by
  rw [field, h]
  rfl

end Wanted

end Wants

mutual

/-- A tree of JSON in which YAML wants something. A scalar without quotes is put between quotes where a
text is wanted. In data, negative zero may become an integer, a number that is no integer may become
the floating point number nearest to it, and a number that has none may become its text. Anywhere some
of the gaps in a text may be folded. -/
inductive Coerced : Wanted → Node → Node → Prop where
  | same (w : Wanted) (n : Node) : Coerced w n n
  | quoted {n : Node} {v : Text} (h : SpellsBare n v) : Coerced .text n (.atom v (.text v))
  | zero : Coerced .data (.atom "-0".toList (.number (.real ⟨true, 0⟩)))
    (.atom "-0".toList (.number (.integer 0)))
  | rounded {m : Numeral} {y : Binary64} (hm : m.Valid)
    (hnumber : ∀ i, m.number? ≠ some (.integer i)) (hy : m.nearest? = some y) :
    Coerced .data (numberNode m.text m.number?) (.atom m.text (.number (.real y)))
  | beyond {m : Numeral} (hm : m.Valid) (hnone : m.nearest? = none) :
    Coerced .data (numberNode m.text m.number?) (.atom m.text (.text m.text))
  | folded {w : Wanted} {s t : Text} (h : Folded s t) :
    Coerced w (.atom s (.text s)) (.atom t (.text t))
  | optional {w : Wanted} {n n' : Node} (hn : Dialect.Present n) (h : Coerced w n n') :
    Coerced (.optional w) n n'
  | sequence {w : Wanted} {xs ys : List Node} (h : CoercedItems w.item xs ys) :
    Coerced w (.sequence xs) (.sequence ys)
  | listed {first first' : Node} {xs ys : List Node} (h : Coerced .text first first')
    (hrest : CoercedItems .data xs ys) :
    Coerced .named (.sequence (first :: xs)) (.sequence (first' :: ys))
  | mapping {w : Wanted} {es fs : List (Node × Node)} (h : CoercedEntries w.under es fs) :
    Coerced w (.mapping es) (.mapping fs)

/-- Items that are coerced one by one. -/
inductive CoercedItems : Wanted → List Node → List Node → Prop where
  | nil (w : Wanted) : CoercedItems w [] []
  | cons {w : Wanted} {x y : Node} {xs ys : List Node} (h : Coerced w x y)
    (hrest : CoercedItems w xs ys) : CoercedItems w (x :: xs) (y :: ys)

/-- Entries that are coerced one by one, their names as well as their values. -/
inductive CoercedEntries :
    (Text → Wanted) → List (Node × Node) → List (Node × Node) → Prop where
  | nil (wanted : Text → Wanted) : CoercedEntries wanted [] []
  | cons {wanted : Text → Wanted} {s t : Text} {v w : Node} {es fs : List (Node × Node)}
    (hname : Folded s t) (h : Coerced (wanted t) v w) (hrest : CoercedEntries wanted es fs) :
    CoercedEntries wanted ((.atom s (.text s), v) :: es) ((.atom t (.text t), w) :: fs)

end

namespace Dialect

variable {w : Wanted} {n y n' : Node} {v : Text}

theorem Present.coerced : {w : Wanted} → {n n' : Node} → Present n → Coerced w n n' → Present n'
  | _, _, _, hn, .same _ _ => hn
  | _, _, _, _, .quoted _ => .scalar _ (by simp)
  | _, _, _, _, .zero => .scalar _ (by simp)
  | _, _, _, _, .rounded _ _ _ => .scalar _ (by simp)
  | _, _, _, _, .beyond _ _ => .scalar _ (by simp)
  | _, _, _, _, .folded _ => .scalar _ (by simp)
  | _, _, _, _, .optional hn h => coerced hn h
  | _, _, _, _, .sequence _ => .sequence _
  | _, _, _, _, .listed _ _ => .sequence _
  | _, _, _, _, .mapping _ => .mapping _

/-- What YAML reads out of a tree is what JSON reads out of a coerced one. -/
def Mirrors (w : Wanted) (read read' : Node → Reading α) : Prop :=
  ∀ ⦃n y : Node⦄ ⦃x : α⦄, Alike False n y → Succeeds (read y) x →
    ∃ n', Coerced w n n' ∧ read' n' = pure x

section Scalars

theorem mirrors_text (expected : String) :
    Mirrors .text (yamlText.text expected) (jsonText.text expected) := by
  intro n y t h hread
  cases h with
  | @bare _ v h =>
    obtain rfl : v = t := Reading.succeeds_pure_iff.1 hread
    exact ⟨_, .quoted h, rfl⟩
  | @text s t' h =>
    obtain rfl : t' = t := Reading.succeeds_pure_iff.1 hread
    exact ⟨_, .folded h, rfl⟩
  | sequence => exact absurd hread (Reading.not_succeeds_throw _)
  | mapping => exact absurd hread (Reading.not_succeeds_throw _)

theorem mirrors_bool : Mirrors .fixed yamlText.bool jsonText.bool := by
  intro n y b h hread
  cases h with
  | bare h =>
    cases h.reads with
    | bool c hplain =>
      rw [hplain] at hread
      obtain rfl : c = b := Reading.succeeds_pure_iff.1 hread
      exact ⟨_, .same _ _, rfl⟩
    | null hplain =>
      rw [hplain] at hread
      exact absurd hread (Reading.not_succeeds_throw _)
    | number hm hkind =>
      cases hkind with
      | integer _ _ hplain | zero _ _ hplain | real _ _ _ hplain | wide _ _ hplain
        | beyond _ hplain =>
        rw [hplain] at hread
        exact absurd hread (Reading.not_succeeds_throw _)
  | text => exact absurd hread (Reading.not_succeeds_throw _)
  | sequence => exact absurd hread (Reading.not_succeeds_throw _)
  | mapping => exact absurd hread (Reading.not_succeeds_throw _)

theorem natural16_integer (d : Dialect) (source : Text) (i : Int) :
    d.natural16 (.atom source (.number (.integer i))) =
      if d.isLoose ∧ source.head? = some '-' then
        throw (d.refuse "u16" (.atom source (.number (.integer i))))
      else if 0 ≤ i ∧ i < 65536 then return i.toNat
      else throw (.invalidValue (.integer i) "u16") := by
  have hatom : d.atom? (.atom source (.number (.integer i))) =
      some (source, .number (.integer i)) := by
    rw [atom?]
    cases d.isLoose <;> rfl
  rw [natural16, follow_atom, pure_bind, hatom]

theorem mirrors_natural16 : Mirrors .fixed yamlText.natural16 jsonText.natural16 := by
  intro n y i h hread
  cases h with
  | bare h =>
    cases h.reads with
    | null hplain | bool _ hplain =>
      rw [hplain] at hread
      exact absurd hread (Reading.not_succeeds_throw _)
    | number hm hkind =>
      cases hkind with
      | integer j hnumber hplain =>
        rw [hplain] at hread
        refine ⟨_, .same _ _, ?_⟩
        rw [hnumber, numberNode]
        rw [natural16_integer] at hread ⊢
        rw [isJson_jsonText.isLoose, if_neg (by simp)]
        split at hread
        · exact absurd hread (Reading.not_succeeds_throw _)
        · split at hread
          · next hrange => rw [if_pos hrange, Reading.succeeds_pure_iff.1 hread]
          · exact absurd hread (Reading.not_succeeds_throw _)
      | zero htext _ hplain =>
        rw [hplain, htext] at hread
        exact absurd hread (Reading.not_succeeds_throw _)
      | real _ _ _ hplain | wide _ _ hplain | beyond _ hplain =>
        rw [hplain] at hread
        exact absurd hread (Reading.not_succeeds_throw _)
  | text => exact absurd hread (Reading.not_succeeds_throw _)
  | sequence => exact absurd hread (Reading.not_succeeds_throw _)
  | mapping => exact absurd hread (Reading.not_succeeds_throw _)

theorem Mirrors.optional {read read' : Node → Reading α} (h : Mirrors w read read') :
    Mirrors (.optional w) (yamlText.optional read) (jsonText.optional read') := by
  intro n y x halike hread
  rcases null_or_present halike with ⟨v, rfl, rfl⟩ | ⟨hpresent, hpresent'⟩
  · have hnone : yamlText.optional read (.atom v .null) = pure none := rfl
    rw [hnone, Reading.succeeds_pure_iff] at hread
    rw [← hread]
    exact ⟨_, .same _ _, rfl⟩
  · rw [hpresent'.optional] at hread
    obtain ⟨z, hz, hx⟩ := hread.bind
    obtain ⟨n', hn', hread'⟩ := h halike hz
    refine ⟨n', .optional hpresent hn', ?_⟩
    rw [(hpresent.coerced hn').optional, hread', pure_bind, Reading.succeeds_pure_iff.1 hx]

theorem mirrors_variant (depth depth' : Nat) (known : List (String × α)) :
    Mirrors .text (yamlText.variant depth known) (jsonText.variant depth' known) := by
  intro n y x h hread
  cases h with
  | @bare _ v h => exact ⟨_, .quoted h, (decided_pick known v).eq_pure hread⟩
  | @text s t h => exact ⟨_, .folded h, (decided_pick known t).eq_pure hread⟩
  | sequence => exact absurd hread (Reading.not_succeeds_throw _)
  | mapping => exact absurd hread (Reading.not_succeeds_throw _)

theorem mirrors_tagName (known : List (String × α)) :
    Mirrors .text (yamlText.tagName known) (jsonText.tagName known) := by
  intro n y x h hread
  obtain ⟨t, ht, hx⟩ := hread.bind
  obtain ⟨n', hn', hread'⟩ := mirrors_text _ h ht
  refine ⟨n', hn', ?_⟩
  rw [tagName, hread', pure_bind]
  exact (decided_pick known t).eq_pure hx

end Scalars

section Containers

variable {depth : Nat} {strict : Prop}

/-- A tree that is alike is a scalar, which YAML does not take for an empty container, or it is a
container with parts that are alike. -/
inductive Parts (strict : Prop) : Node → Node → Prop where
  | scalar {n : Node} {source : Text} {value : Atom}
    (h : yamlText.isEmpty (.atom source value) = false) : Parts strict n (.atom source value)
  | sequence {xs ys : List Node} (h : List.Forall₂ (Alike strict) xs ys) :
    Parts strict (.sequence xs) (.sequence ys)
  | mapping {es fs : List (Node × Node)} (hnames : List.Forall₂ (SameName strict) es fs)
    (hvalues : List.Forall₂ (Alike strict) (es.map Prod.snd) (fs.map Prod.snd)) :
    Parts strict (.mapping es) (.mapping fs)

theorem parts_of_alike (h : Alike strict n y) : Parts strict n y := by
  cases h with
  | @bare _ v h =>
    obtain ⟨d, u, rfl, -⟩ := h.isBare.head
    exact .scalar rfl
  | @text s t h => exact .scalar (by cases t <;> rfl)
  | sequence h => exact .sequence h
  | mapping hnames hvalues => exact .mapping hnames hvalues

/-- What is read as a container is none of the scalars. -/
theorem fails_scalar {source : Text} {value : Atom} {x : α} {f : Fault}
    {read : Reading α} (h : yamlText.isEmpty (.atom source value) = false)
    (hread : Succeeds (if yamlText.isEmpty (.atom source value) then read else throw f) x) :
    False := by
  rw [h] at hread
  exact Reading.not_succeeds_throw f hread

/-- Items that are read one by one are those of a coerced sequence. -/
theorem Mirrors.items {read read' : Node → Reading α} (h : Mirrors w read read') {xs ys : List Node}
    {zs : List α} (halike : List.Forall₂ (Alike False) xs ys) (hread : Succeeds (ys.mapM read) zs) :
    ∃ xs', CoercedItems w xs xs' ∧ xs'.mapM read' = pure zs := by
  have hreads := Reading.succeeds_mapM hread
  clear hread
  induction halike generalizing zs with
  | nil =>
    cases hreads
    exact ⟨[], .nil w, rfl⟩
  | cons hxy _ ih =>
    cases hreads with
    | cons hz hrest =>
      obtain ⟨n', hn', hread'⟩ := h hxy hz
      obtain ⟨xs', hxs', hreads'⟩ := ih hrest
      exact ⟨n' :: xs', .cons hn' hxs', by rw [List.mapM_cons, hread', pure_bind, hreads', pure_bind]⟩

theorem Mirrors.list {read read' : Nat → Node → Reading α}
    (h : ∀ depth, Mirrors w (read depth) (read' depth)) :
    Mirrors (.list w) (yamlText.list depth read) (jsonText.list depth read') := by
  intro n y zs halike hread
  cases parts_of_alike halike with
  | sequence hitems =>
    cases depth with
    | zero => exact absurd hread (Reading.not_succeeds_throw _)
    | succ depth =>
      obtain ⟨xs', hxs', hreads'⟩ := (h depth).items hitems hread
      exact ⟨.sequence xs', .sequence hxs', by rw [list_sequence isJson_jsonText, hreads']⟩
  | scalar hempty => exact (fails_scalar hempty hread).elim
  | mapping => exact absurd hread (Reading.not_succeeds_throw _)

/-- The entries of a mapping that is alike are under names. -/
theorem name_of_alike {es fs : List (Node × Node)} (h : List.Forall₂ (SameName strict) es fs) :
    ∀ f ∈ fs, ∃ t, f.1 = .atom t (.text t) := by
  induction h with
  | nil => simp
  | cons hname _ ih =>
    refine List.forall_mem_cons.2 ⟨?_, ih⟩
    cases hname
    exact ⟨_, rfl⟩

theorem isKey_of_alike {es fs : List (Node × Node)} (h : List.Forall₂ (SameName strict) es fs)
    (f : Node × Node) (hf : f ∈ fs) : Node.IsKey f.1 := by
  obtain ⟨t, ht⟩ := name_of_alike h f hf
  rw [ht]
  exact .name t

theorem isKey_of_coerced {wanted : Text → Wanted} {es fs : List (Node × Node)}
    (h : CoercedEntries wanted es fs) : ∀ f ∈ fs, Node.IsKey f.1 := by
  induction fs generalizing es with
  | nil => simp
  | cons f fs ih =>
    cases h with
    | cons _ _ hrest => exact List.forall_mem_cons.2 ⟨.name _, ih hrest⟩

/-- Entries that are read one by one are those of a coerced mapping. -/
theorem Mirrors.entries {read read' : Node → Reading α} (h : Mirrors w read read')
    {wanted : Text → Wanted} (hwanted : ∀ t, wanted t = w) {es fs : List (Node × Node)}
    {zs : List (Text × α)}
    (hnames : List.Forall₂ (SameName False) es fs)
    (hvalues : List.Forall₂ (Alike False) (es.map Prod.snd) (fs.map Prod.snd))
    (hreads : List.Forall₂ (Named fun n => Succeeds (read n)) fs zs) :
    ∃ es', CoercedEntries wanted es es' ∧
      List.Forall₂ (Named fun n x => read' n = pure x) es' zs := by
  induction hnames generalizing zs with
  | nil =>
    cases hreads
    exact ⟨[], .nil wanted, .nil⟩
  | cons hname _ ih =>
    obtain ⟨halike, hbehind⟩ := List.forall₂_cons.1 hvalues
    obtain @⟨s, t, _, _, hfolded, -⟩ := hname
    cases hreads with
    | cons hz hrest =>
      obtain ⟨hkey, hz⟩ := hz
      obtain ⟨n', hn', hread'⟩ := h halike hz
      obtain ⟨es', hes', hreads'⟩ := ih hbehind hrest
      exact ⟨(.atom t (.text t), n') :: es', .cons hfolded (hwanted t ▸ hn') hes',
        .cons ⟨hkey, hread'⟩ hreads'⟩

theorem Mirrors.table {read read' : Nat → Node → Reading α}
    (h : ∀ depth, Mirrors w (read depth) (read' depth)) :
    Mirrors (.table w) (yamlText.table depth read) (jsonText.table depth read') := by
  intro n y zs halike hread
  cases parts_of_alike halike with
  | mapping hnames hvalues =>
    cases depth with
    | zero => exact absurd hread (Reading.not_succeeds_throw _)
    | succ depth =>
      change Succeeds (yamlText.entries (read depth) _ >>= fun rows =>
        pure (Table.ofList rows)) zs at hread
      obtain ⟨rows, hrows, hzs⟩ := hread.bind
      obtain ⟨es', hes', hreads'⟩ := (h depth).entries (fun _ => rfl) hnames hvalues
        (succeeds_entries (isKey_of_alike hnames) hrows)
      refine ⟨_, .mapping hes', ?_⟩
      rw [table_mapping isJson_jsonText, entries_eq_pure hreads', pure_bind,
        Reading.succeeds_pure_iff.1 hzs]
  | scalar hempty => exact (fails_scalar hempty hread).elim
  | sequence => exact absurd hread (Reading.not_succeeds_throw _)

/-- A scalar as YAML takes it is an integer that is too wide for data, or it is coerced data. -/
theorem wide_or_coerced {source : Text} {value : Atom} (h : Alike False n (.atom source value)) :
    (∃ i type, value = .wide i type) ∨ Coerced .data n (.atom source value) := by
  cases h with
  | bare h =>
    cases h.reads with
    | null hplain | bool _ hplain =>
      rw [hplain]
      exact .inr (.same _ _)
    | number hm hkind =>
      cases hkind with
      | integer i hnumber hplain =>
        rw [hnumber, hplain]
        exact .inr (.same _ _)
      | zero htext hnumber hplain =>
        rw [hnumber, hplain, htext]
        exact .inr .zero
      | real y hnumber hy hplain =>
        rw [hplain]
        exact .inr (.rounded hm hnumber hy)
      | wide i type hplain => exact .inl ⟨i, type, hplain⟩
      | beyond hnone hplain =>
        rw [hplain]
        exact .inr (.beyond hm hnone)
  | text h => exact .inr (.folded h)

/-- A scalar that is data is the same data in every format. -/
theorem jsonOfAtom_eq_pure {d d' : Dialect} {source : Text} {value : Atom} {j : Json}
    (hread : Succeeds (d.jsonOfAtom source value) j) : d'.jsonOfAtom source value = pure j := by
  cases value with
  | wide | mistagged => exact absurd hread (Reading.not_succeeds_throw _)
  | _ => exact congrArg pure (Reading.succeeds_pure_iff.1 hread)

theorem mirrors_jsonOfAtom {source : Text} {value : Atom} {j : Json}
    (h : Alike False n (.atom source value))
    (hread : Succeeds (yamlText.jsonOfAtom source value) j) :
    ∃ n', Coerced .data n n' ∧ jsonText.json depth n' = pure j := by
  rcases wide_or_coerced h with ⟨i, type, rfl⟩ | hcoerced
  · exact absurd hread (Reading.not_succeeds_throw _)
  · exact ⟨_, hcoerced, by rw [json_atom, jsonOfAtom_eq_pure hread]⟩

theorem mirrors_json : Mirrors .data (yamlText.json depth) (jsonText.json depth) := by
  induction depth with
  | zero =>
    intro n y j halike hread
    cases parts_of_alike halike with
    | scalar => exact mirrors_jsonOfAtom halike (json_atom _ _ _ _ ▸ hread)
    | sequence => exact absurd hread (fails_json_zero (.sequence _))
    | mapping => exact absurd hread (fails_json_zero (.mapping _))
  | succ depth ih =>
    intro n y j halike hread
    cases parts_of_alike halike with
    | scalar => exact mirrors_jsonOfAtom halike (json_atom _ _ _ _ ▸ hread)
    | sequence hitems =>
      rw [json_sequence] at hread
      obtain ⟨vs, hvs, hj⟩ := hread.bind
      obtain ⟨xs', hxs', hreads'⟩ := ih.items hitems hvs
      refine ⟨_, .sequence hxs', ?_⟩
      rw [json_sequence, hreads', pure_bind, Reading.succeeds_pure_iff.1 hj]
    | mapping hnames hvalues =>
      obtain ⟨rows, hrows, rfl⟩ := succeeds_json_mapping (isKey_of_alike hnames) hread
      obtain ⟨es', hes', hreads'⟩ := ih.entries (fun _ => rfl) hnames hvalues hrows
      exact ⟨_, .mapping hes', json_mapping_eq_pure hreads'⟩

end Containers

section Records

variable {ι : Type} [Fields ι] [DecidableEq ι] {wanted : ι → Wanted} {read read' : Readers ι}
  {finish : Draft ι → (ι → Fault) → Except Fault α} {es fs : List (Node × Node)}

theorem fill_of_mirrors {draft result : Draft ι} (h : ∀ i, Mirrors (wanted i) (read i) (read' i))
    (hnames : List.Forall₂ (SameName False) es fs)
    (hvalues : List.Forall₂ (Alike False) (es.map Prod.snd) (fs.map Prod.snd))
    (hread : Succeeds (yamlText.fill read fs draft) result) :
    ∃ es', CoercedEntries (Wanted.field wanted) es es' ∧
      jsonText.fill read' es' draft = pure result := by
  induction hnames generalizing draft with
  | nil => exact ⟨[], .nil _, congrArg pure (Reading.succeeds_pure_iff.1 hread)⟩
  | cons hname _ ih =>
    obtain ⟨halike, hbehind⟩ := List.forall₂_cons.1 hvalues
    obtain @⟨s, t, v, _, hfolded, -⟩ := hname
    rw [fill, field?_atom, pure_bind] at hread
    cases hfield : (Fields.named? t : Option ι) with
    | none =>
      rw [hfield] at hread
      obtain ⟨-, -, hread⟩ := hread.bind
      obtain ⟨es', hes', hreads'⟩ := ih hbehind hread
      refine ⟨(.atom t (.text t), v) :: es', .cons hfolded (.same _ v) hes', ?_⟩
      have hskip : skip v = pure () := by rw [skip, (Yaml.intact_of_alike _ halike).1]; rfl
      rw [fill, field?_atom, pure_bind, hfield]
      dsimp only
      rw [hskip, pure_bind, hreads']
    | some i =>
      rw [hfield] at hread
      dsimp only at hread
      split at hread
      · exact absurd hread (Reading.not_succeeds_throw _)
      · next hfree =>
        obtain ⟨x, hx, hread⟩ := hread.bind
        obtain ⟨n', hn', hread'⟩ := h i halike hx
        obtain ⟨es', hes', hreads'⟩ := ih hbehind hread
        have hwanted : Wanted.field wanted t = wanted i := Wanted.field_of_named? hfield
        rw [← hwanted] at hn'
        refine ⟨(.atom t (.text t), n') :: es', .cons hfolded hn' hes', ?_⟩
        rw [fill, field?_atom, pure_bind, hfield]
        dsimp only
        rw [if_neg hfree, hread', pure_bind, hreads']

theorem mirrors_record (hw : w.under = Wanted.field wanted) (expected : String)
    (h : ∀ i, Mirrors (wanted i) (read i) (read' i)) :
    Mirrors w (yamlText.record expected (some read) finish)
      (jsonText.record expected (some read') finish) := by
  intro n y x halike hread
  cases parts_of_alike halike with
  | mapping hnames hvalues =>
    change Succeeds (yamlText.fill read _ Draft.empty >>= fun draft =>
      liftM (finish draft fun i => .missingField (Fields.name i))) x at hread
    obtain ⟨draft, hdraft, hfinish⟩ := hread.bind
    obtain ⟨es', hes', hreads'⟩ := fill_of_mirrors h hnames hvalues hdraft
    refine ⟨_, .mapping (hw ▸ hes'), ?_⟩
    rw [record_mapping isJson_jsonText, hreads', pure_bind, Reading.succeeds_lift_iff.1 hfinish]
    rfl
  | scalar hempty => exact (fails_scalar hempty hread).elim
  | sequence => exact absurd hread (Reading.not_succeeds_throw _)

/-- A record that is too deep is not read. -/
theorem mirrors_record_none (expected : String) :
    Mirrors w (yamlText.record (ι := ι) expected none finish)
      (jsonText.record (ι := ι) expected none finish) := by
  intro n y x halike hread
  cases parts_of_alike halike with
  | scalar hempty => exact (fails_scalar hempty hread).elim
  | sequence => exact absurd hread (Reading.not_succeeds_throw _)
  | mapping => exact absurd hread (Reading.not_succeeds_throw _)

theorem mirrors_below {readers readers' : Nat → Readers ι} {depth : Nat}
    (hw : w.under = Wanted.field wanted) (expected : String)
    (h : ∀ depth i, Mirrors (wanted i) (readers depth i) (readers' depth i)) :
    Mirrors w (yamlText.record expected (below depth readers) finish)
      (jsonText.record expected (below depth readers') finish) := by
  cases depth with
  | zero => exact mirrors_record_none expected
  | succ depth => exact mirrors_record hw expected (h depth)

end Records

section Passing

variable {depth : Nat} {expected : String}

/-- A scalar that can be set aside is kept as YAML takes it, and JSON can set that aside as well. -/
theorem hold_scalar {expected' : String} {source : Text} {value : Atom}
    (h : Alike False n (.atom source value))
    (hread : Succeeds (yamlText.holdAtom expected source value) ()) :
    Coerced .data n (.atom source value) ∧
      jsonText.holdAtom expected' source value = pure () := by
  rcases wide_or_coerced h with ⟨i, type, rfl⟩ | hcoerced
  · exact absurd hread (Reading.not_succeeds_throw _)
  · refine ⟨hcoerced, ?_⟩
    cases value with
    | wide | mistagged => exact absurd hread (Reading.not_succeeds_throw _)
    | _ => rfl

/-- What each of the items is kept as. -/
theorem hold_items (expected' : String) {xs ys : List Node}
    (hitems : List.Forall₂ (Alike False) xs ys)
    (hheld : ∀ y ∈ ys, Succeeds (yamlText.hold expected depth y) ())
    (h : ∀ n y, Alike False n y → Succeeds (yamlText.hold expected depth y) () →
      Coerced .data n y ∧ jsonText.hold expected' depth y = pure ()) :
    CoercedItems .data xs ys ∧ ∀ y ∈ ys, jsonText.hold expected' depth y = pure () := by
  induction hitems with
  | nil => exact ⟨.nil _, by simp⟩
  | cons hxy _ ih =>
    obtain ⟨hy, hys⟩ := List.forall_mem_cons.1 hheld
    obtain ⟨hcoerced, hread⟩ := h _ _ hxy hy
    obtain ⟨hrest, hreads⟩ := ih hys
    exact ⟨.cons hcoerced hrest, List.forall_mem_cons.2 ⟨hread, hreads⟩⟩

/-- What the value of each entry is kept as. -/
theorem hold_entries {es fs : List (Node × Node)} (hnames : List.Forall₂ (SameName False) es fs)
    (hvalues : CoercedItems .data (es.map Prod.snd) (fs.map Prod.snd)) :
    CoercedEntries (Wanted.under .data) es fs := by
  induction hnames with
  | nil => exact .nil _
  | cons hname _ ih =>
    obtain @⟨s, t, v, w, hfolded, -⟩ := hname
    cases hvalues with
    | cons hvalue hvalues => exact .cons hfolded hvalue (ih hvalues)

/-- What can be set aside is kept as YAML takes it, and JSON can set that aside as well. -/
theorem hold_of_alike (expected' : String) (halike : Alike False n y)
    (hread : Succeeds (yamlText.hold expected depth y) ()) :
    Coerced .data n y ∧ jsonText.hold expected' depth y = pure () := by
  induction depth generalizing n y expected expected' with
  | zero =>
    cases parts_of_alike halike with
    | scalar =>
      rw [hold_atom] at hread ⊢
      exact hold_scalar halike hread
    | sequence => exact absurd hread (fails_hold_zero (.sequence _) _)
    | mapping => exact absurd hread (fails_hold_zero (.mapping _) _)
  | succ depth ih =>
    cases parts_of_alike halike with
    | scalar =>
      rw [hold_atom] at hread ⊢
      exact hold_scalar halike hread
    | sequence hitems =>
      rw [hold_sequence] at hread ⊢
      obtain ⟨hcoerced, hreads⟩ := hold_items "any value" hitems
        (Reading.succeeds_forM hread) fun n y => ih "any value"
      exact ⟨.sequence hcoerced, Reading.forM_eq_pure hreads⟩
    | @mapping es fs hnames hvalues =>
      rw [hold_mapping] at hread ⊢
      have hheld : ∀ w ∈ fs.map Prod.snd, Succeeds (yamlText.hold "any value" depth w) () := by
        intro w hw
        obtain ⟨⟨key, w⟩, hf, rfl⟩ := List.mem_map.1 hw
        obtain ⟨t, rfl⟩ := name_of_alike hnames _ hf
        exact holdEntry_name _ depth t w ▸ Reading.succeeds_forM hread _ hf
      obtain ⟨hcoerced, hreads⟩ := hold_items "any value" hvalues hheld
        fun n y => ih "any value"
      refine ⟨.mapping (hold_entries hnames hcoerced), Reading.forM_eq_pure ?_⟩
      rintro ⟨key, w⟩ hf
      obtain ⟨t, rfl⟩ := name_of_alike hnames _ hf
      rw [holdEntry_name]
      exact hreads w (List.mem_map_of_mem hf)

end Passing

end Dialect

end RouteModule
