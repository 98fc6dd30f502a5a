import RouteModule.Proofs.Options.RoundTrip
import RouteModule.Proofs.Overlap.Alike
import RouteModule.Proofs.Overlap.Document

/-!
Options that are written as a JSON object and loaded as YAML. What keeps to the characters and the
layout that both formats read the same way gives the same options, whatever else the object has in it.
-/

namespace RouteModule

open Reading (Succeeds)
open Yaml (Alike ReadsBare SameName)

namespace Dialect

variable {P : Node → Prop} {n : Node} {v : Text} {x : α}

section Values

/-- What is read out of a tree of JSON is read out of every tree that YAML makes of the same text. -/
def Carries (P : Node → Prop) (read read' : Node → Reading α) : Prop :=
  ∀ ⦃n y : Node⦄ ⦃x : α⦄, P n → Alike True n y → Succeeds (read n) x → read' y = pure x

theorem fails_text_bare {t : Text} (h : ReadsBare v n) (expected : String) :
    ¬ Succeeds (jsonText.text expected n) t := by
  cases h with
  | @number m => cases m.number? <;> exact Reading.not_succeeds_throw _
  | _ => exact Reading.not_succeeds_throw _

theorem carries_text (expected : String) :
    Carries P (jsonText.text expected) (yamlText.text expected) := by
  intro n y t _ h hread
  cases h with
  | bare h => exact absurd hread (fails_text_bare h.reads expected)
  | @text s _ _ hsame =>
    obtain rfl : s = t := Reading.succeeds_pure_iff.1 hread
    rw [hsame trivial]
    rfl
  | sequence => exact absurd hread (Reading.not_succeeds_throw _)
  | mapping => exact absurd hread (Reading.not_succeeds_throw _)

theorem carries_bool : Carries P jsonText.bool yamlText.bool := by
  intro n y b _ h hread
  cases h with
  | bare h =>
    cases h.reads with
    | bool c hplain =>
      obtain rfl : c = b := Reading.succeeds_pure_iff.1 hread
      rw [hplain]
      rfl
    | @number m =>
      generalize m.number? = x at hread
      cases x <;> exact absurd hread (Reading.not_succeeds_throw _)
    | _ => exact absurd hread (Reading.not_succeeds_throw _)
  | text => exact absurd hread (Reading.not_succeeds_throw _)
  | sequence => exact absurd hread (Reading.not_succeeds_throw _)
  | mapping => exact absurd hread (Reading.not_succeeds_throw _)

theorem Carries.optional {read read' : Node → Reading α} (h : Carries P read read') :
    Carries P (jsonText.optional read) (yamlText.optional read') := by
  intro n y x hn halike hread
  rcases null_or_present halike with ⟨v, rfl, rfl⟩ | ⟨hpresent, hpresent'⟩
  · have hnone : jsonText.optional read (.atom v .null) = pure none := rfl
    rw [hnone, Reading.succeeds_pure_iff] at hread
    rw [← hread]
    rfl
  · rw [hpresent.optional] at hread
    rw [hpresent'.optional]
    obtain ⟨z, hz, hx⟩ := hread.bind
    rw [h hn halike hz, pure_bind, Reading.succeeds_pure_iff.1 hx]

/-- A name that is not written as an object is read alike. -/
theorem carries_variant (depth depth' : Nat) (known : List (String × α))
    (hP : ∀ n, P n → ∀ es, n ≠ .mapping es) :
    Carries P (jsonText.variant depth known) (yamlText.variant depth' known) := by
  intro n y x hn h hread
  cases h with
  | bare h =>
    cases h.reads with
    | @number m =>
      generalize m.number? = x at hread
      cases x <;> exact absurd hread (Reading.not_succeeds_throw _)
    | _ => exact absurd hread (Reading.not_succeeds_throw _)
  | text _ hsame =>
    rw [hsame trivial]
    exact (decided_pick known _).eq_pure hread
  | sequence => exact absurd hread (Reading.not_succeeds_throw _)
  | mapping => exact absurd rfl (hP _ hn _)

end Values

section Records

variable {ι : Type} [Fields ι] [DecidableEq ι] {fields : ι → Node → Prop} {read read' : Readers ι}
  {finish : Draft ι → (ι → Fault) → Except Fault α} {es fs : List (Node × Node)}

/-- The values of the entries that are for a field are as they have to be for it. -/
def Fit (fields : ι → Node → Prop) (es : List (Node × Node)) : Prop :=
  ∀ name v i, (.atom name (.text name), v) ∈ es → Fields.named? name = some i → fields i v

theorem fill_of_carries {draft result : Draft ι}
    (hread : ∀ i, Carries (fields i) (read i) (read' i)) (hfit : Fit fields es)
    (hnames : List.Forall₂ (SameName True) es fs)
    (hvalues : List.Forall₂ (Alike True) (es.map Prod.snd) (fs.map Prod.snd))
    (h : Succeeds (jsonText.fill read es draft) result) :
    yamlText.fill read' fs draft = pure result := by
  induction hnames generalizing draft with
  | nil =>
    rw [fill, Reading.succeeds_pure_iff] at h
    rw [fill, h]
  | @cons e f es fs hname _ ih =>
    have hrest : Fit fields es := fun name v i hv hi => hfit name v i (List.mem_cons_of_mem e hv) hi
    obtain ⟨halike, hbehind⟩ := List.forall₂_cons.1 hvalues
    obtain @⟨s, t, v, w, -, hsame⟩ := hname
    obtain rfl := hsame trivial
    rw [fill, field?_atom, pure_bind] at h ⊢
    cases hfield : (Fields.named? t : Option ι) with
    | none =>
      rw [hfield] at h
      obtain ⟨-, -, h⟩ := h.bind
      have hskip : skip w = pure () := by rw [skip, (Yaml.intact_of_alike _ halike).2]; rfl
      dsimp only
      rw [hskip, pure_bind]
      exact ih hrest hbehind h
    | some i =>
      rw [hfield] at h
      dsimp only at h ⊢
      split at h
      · exact absurd h (Reading.not_succeeds_throw _)
      · next hfree =>
        obtain ⟨x, hx, h⟩ := h.bind
        have hi := hfit t v i List.mem_cons_self hfield
        rw [if_neg hfree, hread i hi halike hx, pure_bind]
        exact ih hrest hbehind h

/-- A record that is written as an object is read alike if its fields are. -/
theorem record_of_carries {expected : String} {x : α} {y : Node}
    (hread : ∀ i, Carries (fields i) (read i) (read' i)) (hfit : Fit fields es)
    (halike : Alike True (.mapping es) y)
    (h : Succeeds (jsonText.record expected (some read) finish (.mapping es)) x) :
    yamlText.record expected (some read') finish y = pure x := by
  obtain ⟨fs, rfl, hnames, hvalues⟩ := Yaml.alike_mapping halike
  rw [record_mapping isJson_jsonText] at h
  obtain ⟨draft, hdraft, hfinish⟩ := h.bind
  have hrecord : yamlText.record expected (some read') finish (.mapping fs) =
      (yamlText.fill read' fs Draft.empty >>= fun draft =>
        liftM (finish draft fun i => .missingField (Fields.name i))) := rfl
  rw [hrecord, fill_of_carries hread hfit hnames hvalues hdraft, pure_bind,
    Reading.succeeds_lift_iff.1 hfinish]
  rfl

end Records

end Dialect

namespace Options

/-- A name as a node. -/
def nameNode (name : String) : Node := .atom name.toList (.text name.toList)

/-- A JSON object that YAML reads as JSON does: it keeps to the characters of YAML and to the layout
that both formats read the same way, and its policy is not an object in turn. -/
structure Covered (es : List (Node × Node)) (t : Text) : Prop where
  spells : Yaml.SpellsDocumentIn True (.mapping es) t
  allowed : ∀ d ∈ t, Yaml.isAllowed d = true
  policy : ∀ v, (nameNode (Fields.name Field.noImplicitAdditionalProperties), v) ∈ es →
    ∀ fs, v ≠ .mapping fs

variable {es : List (Node × Node)} {t : Text} {o : Options}

/-- What the value of a field must not be. -/
def Bare (i : Field) (v : Node) : Prop :=
  i = .noImplicitAdditionalProperties → ∀ fs, v ≠ .mapping fs

theorem carries_readers (i : Field) (depth depth' : Nat) :
    Dialect.Carries (Bare i) (readers .jsonText depth i) (readers .yamlText depth' i) := by
  cases i with
  | middleware => exact Dialect.carries_text _
  | middlewareTemplate => exact (Dialect.carries_text _).optional
  | routesDir => exact Dialect.carries_text _
  | routesFileName => exact (Dialect.carries_text _).optional
  | esm => exact Dialect.carries_bool
  | noImplicitAdditionalProperties =>
    exact Dialect.carries_variant depth depth' Policy.names fun _ h => h rfl
  | noWriteIfUnchanged => exact Dialect.carries_bool
  | basePath => exact Dialect.carries_text _
  | iocModule => exact (Dialect.carries_text _).optional
  | authenticationModule => exact (Dialect.carries_text _).optional

theorem Covered.fit (h : Covered es t) : Dialect.Fit Bare es := by
  rintro name v i hv hi rfl
  obtain rfl := Dialect.name_of_named? hi
  exact h.policy v hv

/-- The options of a JSON object are what YAML reads out of it. -/
theorem Covered.read (h : Covered es t) (hread : ofDocument .json (Json.document t) = .ok o) :
    FileFormat.yaml.read t = .ok o := by
  rw [Json.document_spells h.spells.spells] at hread
  obtain ⟨-, hroot⟩ := Document.succeeds_of_read hread
  have hdocument := Yaml.readsDocument h.spells
  rw [FileFormat.read]
  generalize Yaml.document t = document at hdocument
  cases hdocument with
  | broken hok => exact absurd ⟨trivial, h.allowed⟩ hok
  | tree halike =>
    refine Document.read_eq_ok rfl ?_
    exact Dialect.record_of_carries (fun i => carries_readers i 126 127) h.fit halike hroot

/-- Options that are written as a JSON object are loaded from every file that is not TOML. -/
theorem load_of_json {path : Text} {dir : Location} {fs : FileSystem} {content : List UInt8}
    (hpath : FilePath.extension? path ≠ some "toml".toList) (hfile : fs.read dir path = .ok content)
    (htext : Text.ofBytes? content = some t) (hcovered : Covered es t)
    (hread : ofDocument .json (Json.document t) = .ok o) :
    (load path).run dir fs = (.ok o, fs) := by
  have hformat : FileFormat.ofPath path = .yaml := if_neg hpath
  refine Program.run_bind_eq_ok_iff.2
    ⟨t, fs, Program.run_readText_eq_ok_iff.2 ⟨⟨content, hfile, htext⟩, rfl⟩, ?_⟩
  rw [hformat]
  exact Program.run_ofExcept_mapError_eq_ok_iff.2 ⟨hcovered.read hread, rfl⟩

section Examples

/-- A file system with one file. -/
def oneFile (t : Text) : FileSystem :=
  FileSystem.empty.put "/options.json".toList (.file (Text.toBytes t))

/-- An object with an escape, blanks, and a member that is no option. -/
def spacedText : Text :=
  "\x7b \"routesDir\" : \"s\\u0072c\",\n\t\"tags\":[null] \x7d\n".toList

/-- What is in it. -/
def spacedEntries : List (Node × Node) :=
  [(nameNode "routesDir", nameNode "src"),
    (nameNode "tags", .sequence [.atom "null".toList .null])]

theorem covered_spaced : Covered spacedEntries spacedText := by
  have hblank : ∀ b : Text, b.all Json.isSpace = true → Json.Blank b := fun b => List.all_eq_true.1
  have hsolid : ∀ k : Text, k.any Yaml.isBreak = false → ∀ d ∈ k, Yaml.isBreak d = false :=
    fun k h => by simpa using h
  have hdir : Yaml.SpellsIn True (nameNode "src") "\"s\\u0072c\"".toList := by
    refine ⟨.text rfl, fun _ k hk => ?_⟩
    obtain rfl := (List.cons.inj hk).2
    exact ⟨rfl, hsolid _ rfl⟩
  have htags : Yaml.SpellsIn True (.sequence [.atom "null".toList .null]) "[null]".toList :=
    ⟨_, rfl, .inr ⟨[], "null".toList, [], _, rfl, hblank _ rfl, hblank _ rfl,
      ⟨.null, fun _ k hk => by cases hk⟩, .inl ⟨rfl, rfl⟩⟩⟩
  have hlast : Yaml.SpellsEntriesIn True [(nameNode "tags", .sequence [.atom "null".toList .null])]
      "\n\t\"tags\":[null] \x7d".toList :=
    ⟨"\n\t".toList, "tags\"".toList, [], [], "[null]".toList, " ".toList, _, rfl,
      ⟨hblank _ rfl, hblank _ rfl, hblank _ rfl, hblank _ rfl⟩, rfl,
      fun _ => ⟨⟨rfl, hsolid _ rfl⟩, ⟨hsolid _ rfl, by decide⟩⟩, htags, .inl ⟨rfl, rfl⟩⟩
  have hentries : Yaml.SpellsEntriesIn True spacedEntries
      " \"routesDir\" : \"s\\u0072c\",\n\t\"tags\":[null] \x7d".toList :=
    ⟨" ".toList, "routesDir\"".toList, " ".toList, " ".toList, "\"s\\u0072c\"".toList, [], _, rfl,
      ⟨hblank _ rfl, hblank _ rfl, hblank _ rfl, hblank _ rfl⟩, rfl,
      fun _ => ⟨⟨rfl, hsolid _ rfl⟩, ⟨hsolid _ rfl, by decide⟩⟩, hdir, .inr ⟨_, rfl, hlast⟩⟩
  refine ⟨⟨[], _, "\n".toList, rfl, hblank _ rfl, hblank _ rfl, ⟨_, rfl, .inr hentries⟩,
    fun _ => ⟨by decide, by decide⟩⟩, List.all_eq_true.1 rfl, fun v hv => ?_⟩
  have hname : ∀ name : String,
      (Fields.name Field.noImplicitAdditionalProperties).toList ≠ name.toList →
      ∀ w, (nameNode (Fields.name Field.noImplicitAdditionalProperties), v) ≠ (nameNode name, w) :=
    fun name hne w heq => hne (Node.atom.inj (Prod.mk.inj heq).1).1
  rcases List.mem_cons.1 hv with heq | hv
  · exact absurd heq (hname _ (by decide) _)
  · exact absurd (List.mem_singleton.1 hv) (hname _ (by decide) _)

/-- It is loaded as it is read. -/
theorem load_of_json_spaced :
    FilePath.extension? "options.json".toList ≠ some "toml".toList ∧
    (oneFile spacedText).read [] "options.json".toList = .ok (Text.toBytes spacedText) ∧
    Text.ofBytes? (Text.toBytes spacedText) = some spacedText ∧
    Covered spacedEntries spacedText ∧
    ofDocument .json (Json.document spacedText) = .ok (ofRoutesDir "src".toList) ∧
    (load "options.json".toList).run [] (oneFile spacedText) =
      (.ok (ofRoutesDir "src".toList), oneFile spacedText) := by
  have hpath : FilePath.extension? "options.json".toList ≠ some "toml".toList := by decide
  have hfile : (oneFile spacedText).read [] "options.json".toList =
      .ok (Text.toBytes spacedText) := by decide +kernel
  have htext := Text.ofBytes?_toBytes spacedText
  have hread : ofDocument .json (Json.document spacedText) = .ok (ofRoutesDir "src".toList) := by
    decide +kernel
  exact ⟨hpath, hfile, htext, covered_spaced, hread,
    load_of_json hpath hfile htext covered_spaced hread⟩

/-- An object with a character in two escapes. -/
def pairedText : Text := "\x7b\"routesDir\":\"\\ud83d\\ude00\"\x7d".toList

/-- Half of a character in an escape makes YAML refuse the object. -/
theorem load_of_json_pair :
    ofDocument .json (Json.document pairedText) = .ok (ofRoutesDir "😀".toList) ∧
      (load "options.json".toList).run [] (oneFile pairedText) =
        (.error (.document .yaml .malformed), oneFile pairedText) := by
  decide +kernel

end Examples

end Options

end RouteModule
