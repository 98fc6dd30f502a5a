import RouteModule.Proofs.Document.Reading
import RouteModule.Proofs.Generation.Runs
import RouteModule.Proofs.Text.Encoding
import RouteModule.Proofs.Toml.Document
import RouteModule.Proofs.Yaml.Tree

/-!
Options are loaded from the file they were saved to as they were. Either format writes an entry for
each option, but TOML none for an option that is absent; what the entries say is what the reader of
the options is given, and it takes a missing entry as it takes a `null`.
-/

namespace RouteModule

theorem Policy.find?_name (p : Policy) :
    names.find? (fun k => k.1.toList = p.name.toList) = some (p.name, p) := by
  cases p <;> rfl

namespace Options

section Settings

theorem fields_lawful : Fields.Lawful Field where
  named i := by cases i <;> rfl
  nodup := by decide

/-- The value of each field. -/
def get (o : Options) : (i : Field) → Fields.Value i
  | .middleware => o.middleware
  | .middlewareTemplate => o.middlewareTemplate
  | .routesDir => o.routesDir
  | .routesFileName => o.routesFileName
  | .esm => o.esm
  | .noImplicitAdditionalProperties => o.noImplicitAdditionalProperties
  | .noWriteIfUnchanged => o.noWriteIfUnchanged
  | .basePath => o.basePath
  | .iocModule => o.iocModule
  | .authenticationModule => o.authenticationModule

/-- What each field is set to. -/
def setting (o : Options) : Field → Setting
  | .middleware => .text o.middleware
  | .middlewareTemplate => .ofOption o.middlewareTemplate
  | .routesDir => .text o.routesDir
  | .routesFileName => .ofOption o.routesFileName
  | .esm => .bool o.esm
  | .noImplicitAdditionalProperties => .text o.noImplicitAdditionalProperties.name.toList
  | .noWriteIfUnchanged => .bool o.noWriteIfUnchanged
  | .basePath => .text o.basePath
  | .iocModule => .ofOption o.iocModule
  | .authenticationModule => .ofOption o.authenticationModule

theorem settings_eq (o : Options) :
    o.settings = (Fields.all : List Field).map fun i => (Fields.name i, o.setting i) := rfl

/-- What is said about a setting. -/
def Setting.json : Setting → Json
  | text t => .text t
  | bool b => .bool b
  | absent => .null

/-- What a format says about a setting, if anything. -/
def FileFormat.json? : FileFormat → Setting → Option Json
  | yaml, s => some s.json
  | toml, .text t => some (.text t)
  | toml, .bool b => some (.bool b)
  | toml, .absent => none

theorem FileFormat.json?_eq_some {f : FileFormat} {s : Setting} {v : Json}
    (h : f.json? s = some v) : v = s.json := by
  cases f with
  | yaml => exact (Option.some.inj h).symm
  | toml =>
    cases s with
    | text t => exact (Option.some.inj h).symm
    | bool b => exact (Option.some.inj h).symm
    | absent => cases h

/-- The members that a format writes. -/
def members (f : FileFormat) (o : Options) : List (Text × Json) :=
  Fields.values fun i => f.json? (o.setting i)

/-- What is read of options that were written. -/
def draft (f : FileFormat) (o : Options) : Draft Field := fun i =>
  (f.json? (o.setting i)).map fun _ => o.get i

end Settings

section Reading

variable {d : Dialect}

theorem optional_node (expected : String) (t : Option Text) :
    d.optional (d.text expected) (Setting.ofOption t).json.node = pure t := by
  cases t with
  | none => exact Dialect.optional_null _
  | some t => exact Dialect.optional_node Json.noConfusion (Dialect.text_node expected t)

/-- Each option is read from what is said about its setting. -/
theorem readers_node (o : Options) (depth : Nat) (i : Field) :
    readers d depth i (o.setting i).json.node = pure (o.get i) := by
  cases i with
  | middleware => exact Dialect.text_node _ o.middleware
  | middlewareTemplate => exact optional_node _ o.middlewareTemplate
  | routesDir => exact Dialect.text_node _ o.routesDir
  | routesFileName => exact optional_node _ o.routesFileName
  | esm => exact Dialect.bool_node o.esm
  | noImplicitAdditionalProperties => exact Dialect.variant_node depth _ (Policy.find?_name _)
  | noWriteIfUnchanged => exact Dialect.bool_node o.noWriteIfUnchanged
  | basePath => exact Dialect.text_node _ o.basePath
  | iocModule => exact optional_node _ o.iocModule
  | authenticationModule => exact optional_node _ o.authenticationModule

theorem holds_members (f : FileFormat) (o : Options) (depth : Nat) :
    Dialect.Holds Json.node (readers d depth) (o.members f) (o.draft f) := by
  refine Dialect.holds_values fields_lawful fun i => ?_
  unfold draft
  cases hi : f.json? (o.setting i) with
  | none => exact .inl ⟨rfl, rfl⟩
  | some v =>
    have hread := readers_node (d := d) o depth i
    rw [← FileFormat.json?_eq_some hi] at hread
    exact .inr ⟨v, o.get i, rfl, rfl, hread⟩

/-- What is absent is so by default. -/
theorem finish_draft (f : FileFormat) (o : Options) (absent : Field → Fault) :
    finish (o.draft f) absent = .ok o := by
  obtain ⟨_, template, _, fileName, _, _, _, _, ioc, authentication⟩ := o
  cases f with
  | yaml => rfl
  | toml => cases template <;> cases fileName <;> cases ioc <;> cases authentication <;> rfl

/-- Options are read from the members that a format writes. -/
theorem read_members (f : FileFormat) (o : Options) (depth : Nat) :
    read d (depth + 1) (Json.object (o.members f)).node = pure o :=
  Dialect.record_entries (holds_members f o depth) (finish_draft f o) _

end Reading

section Yaml

/-- The entry of a YAML text for a setting. -/
def Setting.entry (name : Text) : Setting → Yaml.Entry
  | text t => ⟨name, Yaml.valueText t, t, (Yaml.TextStyle.of t).style⟩
  | bool b => ⟨name, wordOf b ++ ['\n'], wordOf b, .plain⟩
  | absent => ⟨name, "null\n".toList, "null".toList, .plain⟩

theorem Setting.text_entry (name : Text) (s : Setting) :
    (s.entry name).text = Yaml.entry name s.yaml := by
  cases s with
  | text t => rfl
  | bool b => rfl
  | absent => rfl

theorem isKey_name (i : Field) : Yaml.IsKey (Fields.name i).toList := by
  cases i <;> exact ⟨by decide, List.all_eq_true.1 (by decide), by decide⟩

theorem Setting.isRead_entry (i : Field) (s : Setting) :
    (s.entry (Fields.name i).toList).IsRead := by
  cases s with
  | text t => exact ⟨isKey_name i, Yaml.writes_valueText t⟩
  | bool b => cases b <;> exact ⟨isKey_name i, Yaml.writes_plain ⟨rfl, rfl, rfl, rfl⟩⟩
  | absent => exact ⟨isKey_name i, Yaml.writes_plain (t := "null".toList) ⟨rfl, rfl, rfl, rfl⟩⟩

/-- The name of an option is read as a text. -/
theorem ofPlain_name (i : Field) :
    Yaml.ofPlain (Fields.name i).toList = .text (Fields.name i).toList := by
  cases i <;> rfl

theorem Setting.node_entry (i : Field) (s : Setting) :
    (s.entry (Fields.name i).toList).node =
      (.atom (Fields.name i).toList (.text (Fields.name i).toList), s.json.node) := by
  have hkey : Yaml.scalarNode none (Fields.name i).toList .plain =
      .atom (Fields.name i).toList (.text (Fields.name i).toList) :=
    congrArg (Node.atom _) (ofPlain_name i)
  cases s with
  | text t => exact Prod.ext hkey (Yaml.scalarNode_of_style t)
  | bool b =>
    refine Prod.ext hkey ?_
    cases b <;> rfl
  | absent => exact Prod.ext hkey rfl

/-- The YAML text of options is a document of their members. -/
theorem document_toYaml (o : Options) :
    (Yaml.document o.toYaml).root = (Json.object (o.members .yaml)).node ∧
      (Yaml.document o.toYaml).complete = true := by
  let entryOf (i : Field) : Yaml.Entry := (o.setting i).entry (Fields.name i).toList
  have htext : o.toYaml = ((Fields.all : List Field).map entryOf).flatMap Yaml.Entry.text := by
    rw [toYaml, settings_eq, List.flatMap_map, List.flatMap_map]
    simp only [entryOf, Setting.text_entry]
  have hread : ∀ e ∈ (Fields.all : List Field).map entryOf, e.IsRead := by
    intro e he
    obtain ⟨i, -, rfl⟩ := List.mem_map.1 he
    exact Setting.isRead_entry i (o.setting i)
  have hentries : Json.entries (o.members .yaml) =
      ((Fields.all : List Field).map entryOf).map Yaml.Entry.node := by
    have hmembers : o.members .yaml = (Fields.all : List Field).map fun i =>
        ((Fields.name i).toList, (o.setting i).json) := by
      simp only [members, Fields.values, FileFormat.json?, Option.map_some, List.filterMap_eq_map']
    rw [Json.entries_eq_map, hmembers, List.map_map, List.map_map]
    exact List.map_congr_left fun i _ => (Setting.node_entry i (o.setting i)).symm
  have hne : (Fields.all : List Field).map entryOf ≠ [] := List.cons_ne_nil _ _
  obtain ⟨hroot, hcomplete⟩ := Yaml.document_entries hne hread
  rw [htext]
  exact ⟨by rw [hroot, Json.node, hentries], hcomplete⟩

end Yaml

section Toml

/-- The value of a TOML text for a setting, and what it is read as. -/
def Setting.assigned? : Setting → Option (Text × Node)
  | text t => some (Toml.Quoted.render t, (Json.text t).node)
  | bool b => some (wordOf b, (Json.bool b).node)
  | absent => none

theorem Setting.toml_eq (name : Text) (s : Setting) :
    s.toml name = (s.assigned?.map fun v => (name, v)).toList.flatMap Toml.assignmentLine := by
  cases s with
  | text t => simp [toml, assigned?, Toml.assignmentLine]
  | bool b => simp [toml, assigned?, Toml.assignmentLine]
  | absent => rfl

theorem Setting.writes_assigned {s : Setting} {v : Text × Node} (h : s.assigned? = some v) :
    Toml.Writes v.1 v.2 := by
  cases s with
  | text t =>
    cases h
    exact Toml.writes_render t
  | bool b =>
    cases h
    cases b with
    | false => exact Toml.writes_false
    | true => exact Toml.writes_true
  | absent => cases h

theorem isBareName_name (i : Field) : Toml.IsBareName (Fields.name i).toList := by
  cases i <;> decide

/-- The TOML text of options is a document of their members. -/
theorem document_toToml (o : Options) :
    (Toml.document o.toToml).root = (Json.object (o.members .toml)).node ∧
      (Toml.document o.toToml).complete = true := by
  let assigned? (i : Field) : Option (Text × Node) := (o.setting i).assigned?
  have htext : o.toToml = (Fields.values assigned?).flatMap Toml.assignmentLine := by
    rw [toToml, settings_eq, List.flatMap_map, Fields.values, List.filterMap_eq_flatMap_toList,
      List.flatMap_assoc]
    simp only [assigned?, Setting.toml_eq]
  have hlines : ∀ l ∈ Fields.values assigned?, Toml.IsBareName l.1 ∧ Toml.Writes l.2.1 l.2.2 := by
    intro l hl
    obtain ⟨i, v, hv, rfl⟩ := (Dialect.mem_values_iff fields_lawful _ l).1 hl
    exact ⟨isBareName_name i, Setting.writes_assigned hv⟩
  have hentries : Json.entries (o.members .toml) =
      (Fields.values assigned?).map fun l => (.atom l.1 (.text l.1), l.2.2) := by
    rw [Json.entries_eq_map, members, Fields.values, Fields.values, List.map_filterMap,
      List.map_filterMap]
    refine List.filterMap_congr fun i _ => ?_
    simp only [assigned?]
    cases o.setting i <;> rfl
  rw [htext, Toml.document_lines hlines (Dialect.nodup_values fields_lawful _), Json.node, hentries]
  exact ⟨rfl, rfl⟩

end Toml

namespace FileFormat

/-- The format of a document. -/
def format : FileFormat → Format
  | yaml => .yaml
  | toml => .toml

/-- A text as a document. -/
def document : FileFormat → Text → Document
  | yaml, t => Yaml.document t
  | toml, t => Toml.document t

theorem read_eq (f : FileFormat) (t : Text) : f.read t = ofDocument f.format (f.document t) := by
  cases f <;> rfl

theorem document_render (f : FileFormat) (o : Options) :
    (f.document (f.render o)).root = (Json.object (o.members f)).node ∧
      (f.document (f.render o)).complete = true := by
  cases f with
  | yaml => exact document_toYaml o
  | toml => exact document_toToml o

/-- Options are read from the text that either format has for them. -/
theorem read_render (f : FileFormat) (o : Options) : f.read (f.render o) = .ok o := by
  obtain ⟨hroot, hcomplete⟩ := f.document_render o
  have hlimit : (Dialect.ofDocument f.format (f.document (f.render o))).limit = 127 + 1 := by
    cases f <;> rfl
  rw [read_eq, ofDocument, Document.read]
  rw [hroot, hlimit, read_members, hcomplete]
  rfl

end FileFormat

section Files

variable {dir : Location} {fs : FileSystem} {path : Text}

/-- Options that were saved to a file are loaded from it as they were, absent ones as absent. -/
theorem load_save (o : Options) (h : fs.CanWrite dir path) :
    ∃ gs, (o.save path).run dir fs = (.ok (), gs) ∧ (load path).run dir gs = (.ok o, gs) := by
  obtain ⟨gs, hgs⟩ := h.write (Text.toBytes ((FileFormat.ofPath path).render o))
  refine ⟨gs, ?_, ?_⟩
  · rw [save, RoutesFile.run_writeText, hgs]
  · have hread := Program.run_readText_eq_ok_iff.2
      ⟨⟨_, FileSystem.read_write hgs, Text.ofBytes?_toBytes _⟩, rfl⟩
    have hrender := (FileFormat.ofPath path).read_render o
    exact Program.run_bind_eq_ok_iff.2
      ⟨_, gs, hread, Program.run_ofExcept_mapError_eq_ok_iff.2 ⟨hrender, rfl⟩⟩

/-- Options whose texts look like something else where they are not between quotes. -/
def misleading : Options where
  middleware := "null".toList
  middlewareTemplate := some []
  routesDir := "a\n b # c\n\n".toList
  routesFileName := some "0x1F".toList
  esm := true
  noImplicitAdditionalProperties := .throwOnExtras
  noWriteIfUnchanged := false
  basePath := "'\"\\: \t\x00".toList
  iocModule := none
  authenticationModule := some "- true".toList

/-- They are loaded as they were in either format. -/
theorem load_save_misleading :
    (FileSystem.empty.CanWrite [] "options.toml".toList ∧ ∃ gs,
      (misleading.save "options.toml".toList).run [] FileSystem.empty = (.ok (), gs) ∧
        (load "options.toml".toList).run [] gs = (.ok misleading, gs)) ∧
    FileSystem.empty.CanWrite [] "options".toList ∧ ∃ gs,
      (misleading.save "options".toList).run [] FileSystem.empty = (.ok (), gs) ∧
        (load "options".toList).run [] gs = (.ok misleading, gs) := by
  have htoml : FileSystem.empty.CanWrite [] "options.toml".toList := ⟨[], _, rfl⟩
  have hyaml : FileSystem.empty.CanWrite [] "options".toList := ⟨[], _, rfl⟩
  exact ⟨⟨htoml, load_save misleading htoml⟩, hyaml, load_save misleading hyaml⟩

end Files

end Options

end RouteModule
