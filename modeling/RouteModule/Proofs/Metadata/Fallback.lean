import RouteModule.Metadata.Reader
import RouteModule.Proofs.Metadata.Held
import RouteModule.Proofs.Metadata.Sift
import RouteModule.Proofs.Overlap.Coerced
import RouteModule.Proofs.Overlap.Document

/-!
Metadata out of a text that is JSON. What JSON refuses may be read as YAML all the same, but only what
JSON reads once scalars are put between quotes where a text is wanted and numbers in data are taken as
YAML takes them, or one level deeper.
-/

namespace RouteModule

open Reading (Succeeds Agree)
open Yaml (Alike SameName)
open Dialect (Mirrors jsonText yamlText)

variable {depth : Nat}

theorem TypeSchema.mirrors_read : Mirrors .type (read yamlText depth) (read jsonText depth) := by
  induction depth with
  | zero => exact Dialect.mirrors_record_none _
  | succ depth ih =>
    refine Dialect.mirrors_record rfl _ fun i => ?_
    cases i with
    | dataType => exact Dialect.mirrors_text _
    | ref => exact (Dialect.mirrors_text _).optional
    | array => exact ih.optional
    | enums => exact (Mirrors.list fun depth => Dialect.mirrors_json).optional

theorem Parameter.mirrors_read : Mirrors .parameter (read yamlText depth) (read jsonText depth) := by
  refine Dialect.mirrors_below rfl _ fun depth i => ?_
  cases i with
  | parameterName => exact Dialect.mirrors_text _
  | name => exact Dialect.mirrors_text _
  | origin => exact Dialect.mirrors_variant depth depth _
  | required => exact Dialect.mirrors_bool
  | type => exact TypeSchema.mirrors_read

theorem Method.mirrors_read : Mirrors .method (read yamlText depth) (read jsonText depth) := by
  refine Dialect.mirrors_below rfl _ fun depth i => ?_
  cases i with
  | name => exact Dialect.mirrors_text _
  | verb => exact Dialect.mirrors_variant depth depth _
  | path => exact Dialect.mirrors_text _
  | parameters => exact Mirrors.list fun depth => Parameter.mirrors_read
  | successStatus => exact Dialect.mirrors_natural16.optional
  | security =>
    exact Mirrors.list fun depth => Mirrors.table fun depth => Mirrors.list fun depth =>
      Dialect.mirrors_text _

theorem Controller.mirrors_read : Mirrors .controller (read yamlText depth) (read jsonText depth) := by
  refine Dialect.mirrors_below rfl _ fun depth i => ?_
  cases i with
  | name => exact Dialect.mirrors_text _
  | location => exact Dialect.mirrors_text _
  | path => exact Dialect.mirrors_text _
  | methods => exact Mirrors.list fun depth => Method.mirrors_read

namespace ReferenceType

/-- Entries are sifted alike if what is kept of them is kept as YAML takes it. -/
theorem sift_of_alike {name : Text} {twice : Fault} {own own' : Node → Reading α}
    {other other' : Node × Node → Reading Unit} {es fs : List (Node × Node)} {found : Option α}
    {result : Option α × List (Node × Node)} {wanted : Text → Wanted}
    (hown : Mirrors (wanted name) own own')
    (hother : ∀ t n y, t ≠ name → Alike False n y → Succeeds (other (.atom t (.text t), y)) () →
      Coerced (wanted t) n y ∧ other' (.atom t (.text t), y) = pure ())
    (hnames : List.Forall₂ (SameName False) es fs)
    (hvalues : List.Forall₂ (Alike False) (es.map Prod.snd) (fs.map Prod.snd))
    (hread : Succeeds (Dialect.sift name twice own other fs found) result) :
    ∃ es', CoercedEntries wanted es es' ∧
      Dialect.sift name twice own' other' es' found = pure result := by
  induction hnames generalizing found result with
  | nil => exact ⟨[], .nil _, congrArg pure (Reading.succeeds_pure_iff.1 hread)⟩
  | cons hname _ ih =>
    obtain ⟨halike, hbehind⟩ := List.forall₂_cons.1 hvalues
    obtain @⟨s, t, v, w, hfolded, -⟩ := hname
    rw [Dialect.sift] at hread
    split at hread
    · next hkey =>
      split at hread
      · exact absurd hread (Reading.not_succeeds_throw _)
      · next hfree =>
        obtain ⟨k, hk, hread⟩ := hread.bind
        obtain ⟨n', hn', hread'⟩ := hown halike hk
        obtain ⟨es', hes', hreads'⟩ := ih hbehind hread
        have ht : t = name := Option.some.inj hkey
        refine ⟨(.atom t (.text t), n') :: es', .cons hfolded (ht ▸ hn') hes', ?_⟩
        rw [Dialect.sift, if_pos hkey, if_neg hfree, hread', pure_bind, hreads']
    · next hkey =>
      obtain ⟨_, hheld, hread⟩ := hread.bind
      obtain ⟨⟨found', others⟩, hrest, hresult⟩ := hread.bind
      obtain ⟨hw, hread'⟩ := hother t v w (fun ht => hkey (congrArg some ht)) halike hheld
      obtain ⟨es', hes', hreads'⟩ := ih hbehind hrest
      refine ⟨(.atom t (.text t), w) :: es', .cons hfolded hw hes', ?_⟩
      rw [Dialect.sift, if_neg hkey, hread', pure_bind, hreads', pure_bind]
      exact congrArg pure (Reading.succeeds_pure_iff.1 hresult)

/-- The kind of a named type is read alike, and the other entries are set aside as YAML takes them. -/
theorem findKind_of_alike {es fs : List (Node × Node)} {kind : Option Kind}
    {found : Option Kind × List (Node × Node)} (hnames : List.Forall₂ (SameName False) es fs)
    (hvalues : List.Forall₂ (Alike False) (es.map Prod.snd) (fs.map Prod.snd))
    (hread : Succeeds (findKind yamlText depth fs kind) found) :
    ∃ es', Coerced .named (.mapping es) (.mapping es') ∧
      findKind jsonText depth es' kind = pure found := by
  rw [findKind_eq_sift (Dialect.isKey_of_alike hnames)] at hread
  have hother : ∀ t n y, t ≠ kindKey.toList → Alike False n y →
      Succeeds (yamlText.holdEntry "a type tag `dataType` or any other value" depth
        (.atom t (.text t), y)) () →
      Coerced (Wanted.under .named t) n y ∧
        jsonText.holdEntry "a type tag `dataType` or any other value" depth
          (.atom t (.text t), y) = pure () := by
    intro t n y hne halike hheld
    rw [Dialect.holdEntry_name] at hheld ⊢
    rw [Wanted.under, if_neg hne]
    exact Dialect.hold_of_alike _ halike hheld
  obtain ⟨es', hes', hreads'⟩ :=
    sift_of_alike (Dialect.mirrors_tagName _) hother hnames hvalues hread
  refine ⟨es', .mapping hes', ?_⟩
  rw [findKind_eq_sift (Dialect.isKey_of_coerced hes'), hreads']

theorem mirrors_read : Mirrors .named (read yamlText depth) (read jsonText depth) := by
  intro n y x halike hread
  cases Dialect.parts_of_alike halike with
  | scalar =>
    rw [read, Dialect.follow_atom, pure_bind] at hread
    cases depth <;> exact absurd hread (Reading.not_succeeds_throw _)
  | mapping hnames hvalues =>
    rw [read, Dialect.follow_mapping, pure_bind] at hread
    cases depth with
    | zero => exact absurd hread (Reading.not_succeeds_throw _)
    | succ depth =>
      obtain ⟨⟨kind, others⟩, hfind, hread⟩ := hread.bind
      obtain ⟨es', hes', hfind'⟩ := findKind_of_alike hnames hvalues hfind
      refine ⟨_, hes', ?_⟩
      rw [read, Dialect.follow_mapping, pure_bind]
      dsimp only
      rw [hfind', pure_bind]
      cases kind with
      | none => exact absurd hread (Reading.not_succeeds_throw _)
      | some kind =>
        have hagree : Agree (readKind yamlText.held depth (.mapping others) kind)
            (readKind jsonText.held depth (.mapping others) kind) :=
          agree_readKind .yaml .json depth _ _
        exact hagree.eq_pure hread
  | sequence hitems =>
    rw [read, Dialect.follow_sequence, pure_bind] at hread
    cases hitems with
    | nil => cases depth <;> exact absurd hread (Reading.not_succeeds_throw _)
    | @cons first y xs ys hfirst hrest =>
      cases depth with
      | zero => exact absurd hread (Reading.not_succeeds_throw _)
      | succ depth =>
        obtain ⟨kind, hkind, hread⟩ := hread.bind
        obtain ⟨_, hheld, hread⟩ := hread.bind
        obtain ⟨n', hn', hkind'⟩ := Dialect.mirrors_tagName _ hfirst hkind
        obtain ⟨hcoerced, hreads⟩ := Dialect.hold_items "any value" hrest
          (Reading.succeeds_forM hheld) fun n y => Dialect.hold_of_alike "any value"
        refine ⟨_, .listed hn' hcoerced, ?_⟩
        rw [read, Dialect.follow_sequence, pure_bind]
        dsimp only
        rw [hkind', pure_bind, Reading.forM_eq_pure hreads, pure_bind]
        have hagree : Agree (readKind yamlText.held depth (.sequence ys) kind)
            (readKind jsonText.held depth (.sequence ys) kind) :=
          agree_readKind .yaml .json depth _ _
        exact hagree.eq_pure hread

end ReferenceType

namespace Metadata

theorem mirrors_read : Mirrors .metadata (read yamlText depth) (read jsonText depth) := by
  refine Dialect.mirrors_below rfl _ fun depth i => ?_
  cases i with
  | controllers => exact Mirrors.list fun depth => Controller.mirrors_read
  | referenceTypes => exact Mirrors.table fun depth => ReferenceType.mirrors_read

/-- A text that is JSON is read as JSON reads it, or JSON refuses it and what is read instead is what
JSON reads out of a coerced tree with room for one more level. -/
theorem ofText_of_json {n : Node} {t : Text} {m : Metadata} (hn : Json.SpellsDocument n t)
    (h : ofText t = .ok m) :
    ofJson t = .ok m ∨ (∃ f, ofJson t = .error f) ∧
      ∃ n', Coerced .metadata n n' ∧
        Document.read ⟨n', true, #[], 0⟩ (read jsonText 128) = .ok m := by
  cases hjson : ofJson t with
  | ok m' =>
    rw [ofText_of_ofJson hjson] at h
    exact .inl (congrArg Except.ok (Except.ok.inj h))
  | error f =>
    refine .inr ⟨⟨f, rfl⟩, ?_⟩
    have hyaml : ofYaml t = .ok m := by
      rw [ofText_of_refused hjson] at h
      cases hyaml : ofYaml t with
      | ok m' =>
        rw [hyaml] at h
        exact congrArg Except.ok (Except.ok.inj h)
      | error g =>
        rw [hyaml] at h
        cases h
    obtain ⟨hcomplete, hroot⟩ := Document.succeeds_of_read hyaml
    have hdocument := Yaml.readsDocument (Yaml.spellsDocumentIn_of_spells hn)
    generalize Yaml.document t = document at hdocument hcomplete hroot
    cases hdocument with
    | broken _ hbroken =>
      rw [hbroken] at hcomplete
      cases hcomplete
    | tree halike =>
      have hmirrors : Mirrors .metadata (read yamlText 128) (read jsonText 128) := mirrors_read
      obtain ⟨n', hn', hread⟩ := hmirrors halike hroot
      exact ⟨n', hn', Document.read_eq_ok rfl hread⟩

/-- A controller whose name is a number. -/
def numberedText : Text :=
  "\x7b\"controllers\":[\x7b\"name\":5,\"location\":\"x\"\x7d]\x7d".toList

theorem spells_numbered : Json.SpellsDocument (Json.document numberedText).root numberedText :=
  Json.spellsDocument_of_complete (by decide +kernel)

/-- JSON refuses a number for a name, but the text is read with the digits for the name. -/
theorem ofText_number :
    Json.SpellsDocument (Json.document numberedText).root numberedText ∧
    ofJson numberedText = .error (.invalidType (.integer 5) "a string") ∧
    ∃ m, ofText numberedText = .ok m ∧ m.controllers.map (·.name) = ["5".toList] := by
  have hrefused : (ofJson numberedText).map (fun _ => ()) =
      .error (.invalidType (.integer 5) "a string") := by decide +kernel
  have hnames : (ofText numberedText).map (fun m => m.controllers.map (·.name)) =
      .ok ["5".toList] := by decide +kernel
  refine ⟨spells_numbered, ?_, ?_⟩
  · cases hjson : ofJson numberedText with
    | ok m =>
      rw [hjson] at hrefused
      cases hrefused
    | error f =>
      rw [hjson] at hrefused
      exact congrArg Except.error (Except.error.inj hrefused)
  · cases htext : ofText numberedText with
    | error r =>
      rw [htext] at hnames
      cases hnames
    | ok m =>
      rw [htext] at hnames
      exact ⟨m, rfl, Except.ok.inj hnames⟩

/-- What is read of it comes from JSON, or else from a coerced tree. -/
theorem ofText_of_json_number :
    ∃ n m, Json.SpellsDocument n numberedText ∧ ofText numberedText = .ok m ∧
      (ofJson numberedText = .ok m ∨ (∃ f, ofJson numberedText = .error f) ∧
        ∃ n', Coerced .metadata n n' ∧
          Document.read ⟨n', true, #[], 0⟩ (read jsonText 128) = .ok m) := by
  have hsome : (ofText numberedText).isOk = true := by decide +kernel
  cases htext : ofText numberedText with
  | error r =>
    rw [htext] at hsome
    cases hsome
  | ok m => exact ⟨_, m, spells_numbered, rfl, ofText_of_json spells_numbered htext⟩

end Metadata

end RouteModule
