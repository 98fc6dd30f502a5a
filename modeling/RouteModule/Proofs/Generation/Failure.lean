import RouteModule.Proofs.Generation.Runs
import RouteModule.Proofs.Program.Transcript

/-!
How generation fails. A failure leaves the disk as it was, whatever disk it is. A fault in where the
module is to lie is told before a template is looked for, and a fault in the template before the file
of the module is read or written; what was asked for by then is said in full.
-/

namespace RouteModule

section Parts

variable {σ : Type}

/-- To read a text that is there, only its file is read. -/
theorem Program.transcript_readText_of_text {d : Disk σ} {s : σ} {path t : Text} {content : Bytes}
    (h : d.read s path = .ok content) (ht : Text.ofBytes? content = some t) :
    (readText path).transcript d s = ⟨[.read path], .ok t, s⟩ := by
  simp [readText, readBytes, transcript_bind, transcript, Transcript.behind, h, ht]

theorem Program.transcript_readText (d : Disk σ) (path : Text) (s : σ) :
    ∃ r, (readText path).transcript d s = ⟨[.read path], r, s⟩ := by
  cases hread : d.read s path with
  | error f =>
    exact ⟨.error (.file f), by
      simp [readText, readBytes, transcript_bind, transcript, Transcript.behind, hread]⟩
  | ok content =>
    cases ht : Text.ofBytes? content with
    | some t => exact ⟨.ok t, transcript_readText_of_text hread ht⟩
    | none =>
      exact ⟨.error (.file .notText), by
        simp [readText, readBytes, transcript_bind, transcript, Transcript.behind, hread, ht]⟩

theorem Program.leavesAlone_readText (path : Text) : (readText path).LeavesAlone := by
  intro σ d s
  obtain ⟨r, h⟩ := transcript_readText d path s
  rw [h]

theorem Program.allOrNothing_writeText {d : Disk σ} (hd : d.FailsBeforeWriting)
    (path content : Text) : (writeText path content).AllOrNothing d := by
  intro s e h
  have hwrite := hd s path (Text.toBytes content)
  simp only [writeText, transcript, Transcript.behind] at h ⊢
  cases hr : (d.write s path (Text.toBytes content)).1 with
  | ok u =>
    rw [hr] at h
    cases h
  | error f => exact hwrite f hr

theorem Metadata.transcript_load (d : Disk σ) (path : Text) (s : σ) :
    ∃ r, (Metadata.load path).transcript d s = ⟨[.read path], r, s⟩ := by
  obtain ⟨r, h⟩ := Program.transcript_readText d path s
  rw [Metadata.load, Program.transcript_bind, h]
  cases r with
  | ok t => exact ⟨_, by rw [Transcript.andThen_ok, Program.transcript_ofExcept]; rfl⟩
  | error e => exact ⟨_, rfl⟩

theorem TemplateSource.leavesAlone_load (source : TemplateSource) : source.load.LeavesAlone := by
  cases source with
  | bundled f => exact Program.leavesAlone_pure _
  | custom path => exact Program.leavesAlone_readText path

namespace RoutesFile

theorem leavesAlone_existing? (path : Text) : (existing? path).LeavesAlone := by
  intro σ d s
  simp only [existing?, Program.transcript, Transcript.behind]
  cases d.read s path with
  | ok content => rfl
  | error f => cases f <;> rfl

theorem allOrNothing_write {d : Disk σ} (hd : d.FailsBeforeWriting) (path content : Text)
    (skip : Bool) : (write path content skip).AllOrNothing d := by
  have hplain : (do Program.writeText path content; return true : Program Bool).AllOrNothing d :=
    (Program.allOrNothing_writeText hd path content).bind_pure fun _ => true
  cases skip with
  | false => exact hplain
  | true =>
    have hlooking : write path content true = existing? path >>= fun old =>
        if old = some (Text.toBytes content) then return false
        else do Program.writeText path content; return true := rfl
    rw [hlooking]
    apply Program.AllOrNothing.bind (leavesAlone_existing? path)
    intro old
    split
    · exact (Program.leavesAlone_pure false).allOrNothing d
    · exact hplain

theorem transcript_checkDirectory (d : Disk σ) (dir : Text) (s : σ) :
    ∃ r, (checkDirectory dir).transcript d s = ⟨[.kind dir], r, s⟩ := by
  simp only [checkDirectory, Program.transcript]
  cases d.kind s dir with
  | ok k => cases k <;> exact ⟨_, rfl⟩
  | error f => cases f <;> exact ⟨_, rfl⟩

/-- To settle where the module lies, its directory is looked at and nothing else. -/
theorem transcript_path (d : Disk σ) (o : Options) (s : σ) :
    ∃ r, (path o).transcript d s = ⟨[.kind o.routesDir], r, s⟩ := by
  obtain ⟨r, h⟩ := transcript_checkDirectory d o.routesDir s
  rw [path, Program.transcript_bind, h]
  cases r with
  | error e => exact ⟨_, rfl⟩
  | ok u =>
    rw [Transcript.andThen_ok, Program.transcript_bind, Program.transcript_ofExcept]
    cases checkName o with
    | ok v => exact ⟨_, rfl⟩
    | error e => exact ⟨_, rfl⟩

theorem leavesAlone_path (o : Options) : (path o).LeavesAlone := by
  intro σ d s
  obtain ⟨r, h⟩ := transcript_path d o s
  rw [h]

end RoutesFile

end Parts

/-- Options that name the same file for the module, for the same kind of module. -/
structure Options.SameFile (o p : Options) : Prop where
  routesDir : o.routesDir = p.routesDir
  routesFileName : o.routesFileName = p.routesFileName
  esm : o.esm = p.esm

/-- Where the module lies depends on nothing else. -/
theorem RoutesFile.path_congr {o p : Options} (h : o.SameFile p) :
    RoutesFile.path o = RoutesFile.path p := by
  simp only [RoutesFile.path, RoutesFile.checkName, Options.fileName, h.routesDir, h.routesFileName,
    h.esm]

namespace Generator

section Whole

variable {σ : Type} {d : Disk σ} (hd : d.FailsBeforeWriting)

include hd

theorem allOrNothing_renderTo (g : Generator) (cwd path template : Text) :
    (g.renderTo cwd path template).AllOrNothing d := by
  apply Program.AllOrNothing.bind (Program.leavesAlone_ofExcept _)
  intro content
  exact RoutesFile.allOrNothing_write hd path content _

theorem allOrNothing_generateFile (g : Generator) (cwd : Text) :
    (g.generateFile cwd).AllOrNothing d := by
  apply Program.AllOrNothing.bind (RoutesFile.leavesAlone_path g.options)
  intro path
  apply Program.AllOrNothing.bind (TemplateSource.leavesAlone_load _)
  intro template
  exact (g.allOrNothing_renderTo hd cwd path template).bind_pure fun written => (path, written)

theorem allOrNothing_generate (g : Generator) (cwd : Text) : (g.generate cwd).AllOrNothing d :=
  (g.allOrNothing_generateFile hd cwd).bind_pure Prod.snd

theorem allOrNothing_generateWithTemplate (g : Generator) (cwd template : Text) :
    (g.generateWithTemplate cwd template).AllOrNothing d := by
  apply Program.AllOrNothing.bind (RoutesFile.leavesAlone_path g.options)
  intro path
  exact g.allOrNothing_renderTo hd cwd path template

theorem allOrNothing_generateFrom (metadataPath cwd : Text) (o : Options) :
    (generateFrom metadataPath o cwd).AllOrNothing d := by
  apply Program.AllOrNothing.bind
  · intro σ d s
    obtain ⟨r, h⟩ := Metadata.transcript_load d metadataPath s
    rw [h]
  · intro m
    exact allOrNothing_generate hd ⟨m, o⟩ cwd

end Whole

/-- With its metadata read, generation from a file goes on as that of a generator. -/
theorem transcript_generateFrom {σ : Type} {d : Disk σ} {s : σ} {metadataPath : Text} {m : Metadata}
    (h : ((Metadata.load metadataPath).transcript d s).result = .ok m) (o : Options) (cwd : Text) :
    (generateFrom metadataPath o cwd).transcript d s =
      (((⟨m, o⟩ : Generator).generate cwd).transcript d s).behind (.read metadataPath) := by
  obtain ⟨r, hload⟩ := Metadata.transcript_load d metadataPath s
  rw [hload] at h
  subst h
  rw [generateFrom, Program.transcript_bind, hload]
  rfl

end Generator

namespace Call

variable {σ : Type} {d : Disk σ} {s : σ} {c : Call} {cwd : Text} {e : Problem}

/-- The operations by which a call comes by its template. -/
def loading (c : Call) : List Request := c.templateFile?.toList.map .read

theorem transcript_load (c : Call) (d : Disk σ) (s : σ) :
    ∃ r, c.load.transcript d s = ⟨c.loading, r, s⟩ := by
  cases hfile : c.templateFile? with
  | none =>
    obtain ⟨t, hload⟩ := load_of_none hfile
    exact ⟨.ok t, by simp [hload, loading, hfile]⟩
  | some path =>
    obtain ⟨r, hread⟩ := Program.transcript_readText d path s
    exact ⟨r, by simp [load_of_some hfile, hread, loading, hfile]⟩

/-- A call comes to no content: its template cannot be had, or does not give any. -/
inductive NoContent (cwd : Text) (d : Disk σ) (s : σ) (c : Call) : Problem → Prop where
  | template {e : Problem} (h : (c.load.transcript d s).result = .error e) : NoContent cwd d s c e
  | content {t : Text} {f : Template.Fault} (h : (c.load.transcript d s).result = .ok t)
    (hf : c.generator.content cwd t = .error f) : NoContent cwd d s c (.template f)

/-- A call with no place for its module has looked at the directory and nothing else. -/
theorem transcript_of_path
    (h : ((RoutesFile.path c.generator.options).transcript d s).result = .error e) :
    (c.program cwd).transcript d s = ⟨[.kind c.generator.options.routesDir], .error e, s⟩ := by
  obtain ⟨r, hpath⟩ := RoutesFile.transcript_path d c.generator.options s
  rw [hpath] at h
  subst h
  rw [program_eq, Generator.renderWith, Program.transcript_bind, hpath, Transcript.andThen_error]

/-- A call that has a place for its module, but no content, has also looked for its template, and has
neither read nor written the file of the module. -/
theorem transcript_of_noContent {p : Text}
    (hplace : ((RoutesFile.path c.generator.options).transcript d s).result = .ok p)
    (h : c.NoContent cwd d s e) :
    (c.program cwd).transcript d s =
      ⟨.kind c.generator.options.routesDir :: c.loading, .error e, s⟩ := by
  obtain ⟨r, hpath⟩ := RoutesFile.transcript_path d c.generator.options s
  rw [hpath] at hplace
  subst hplace
  obtain ⟨r, hload⟩ := c.transcript_load d s
  rw [program_eq, Generator.renderWith, Program.transcript_bind, hpath, Transcript.andThen_ok,
    Program.transcript_bind, hload]
  cases h with
  | template h =>
    rw [hload] at h
    subst h
    simp
  | @content t f h hf =>
    rw [hload] at h
    subst h
    have hbuild : (c.generator.renderTo cwd p t).transcript d s =
        ⟨[], .error (.template f), s⟩ := by
      rw [Generator.renderTo, Program.transcript_bind, Generator.build, hf]
      rfl
    simp [hbuild]

end Call

/-- Generation that fails leaves the disk as it was, in whatever way it was asked for, if no write fails
after it has changed something. From a file it goes on as that of a generator once the metadata is
read. Options that settle no place for the module fail alike for all calls whose options name the same
file, whatever their metadata and templates are, and then only the directory was looked at; a call that
comes to no content fails without having read or written the file of the module. -/
theorem generation_fails_whole_in_order :
    (∀ (σ : Type) (d : Disk σ), d.FailsBeforeWriting →
      (∀ (g : Generator) (cwd template : Text),
        (g.generate cwd).AllOrNothing d ∧ (g.generateFile cwd).AllOrNothing d ∧
          (g.generateWithTemplate cwd template).AllOrNothing d) ∧
      ∀ (metadataPath cwd : Text) (o : Options),
        (Generator.generateFrom metadataPath o cwd).AllOrNothing d) ∧
    ∀ (σ : Type) (d : Disk σ) (s : σ) (cwd : Text),
      (∀ (metadataPath : Text) (m : Metadata) (o : Options),
        ((Metadata.load metadataPath).transcript d s).result = .ok m →
          (Generator.generateFrom metadataPath o cwd).transcript d s =
            (((⟨m, o⟩ : Generator).generate cwd).transcript d s).behind (.read metadataPath)) ∧
      (∀ (o : Options) (e : Problem), ((RoutesFile.path o).transcript d s).result = .error e →
        ∀ c : Call, c.generator.options.SameFile o →
          (c.program cwd).transcript d s = ⟨[.kind o.routesDir], .error e, s⟩) ∧
      (∀ (c : Call) (p : Text) (e : Problem),
        ((RoutesFile.path c.generator.options).transcript d s).result = .ok p →
        c.NoContent cwd d s e →
          (c.program cwd).transcript d s =
            ⟨.kind c.generator.options.routesDir :: c.loading, .error e, s⟩) := by
  refine ⟨?_, ?_⟩
  · intro σ d hd
    refine ⟨fun g cwd template => ?_, Generator.allOrNothing_generateFrom hd⟩
    exact ⟨g.allOrNothing_generate hd cwd, g.allOrNothing_generateFile hd cwd,
      g.allOrNothing_generateWithTemplate hd cwd template⟩
  · intro σ d s cwd
    refine ⟨fun _ _ o h => Generator.transcript_generateFrom h o cwd, ?_, ?_⟩
    · intro o e h c hsame
      rw [← hsame.routesDir]
      apply Call.transcript_of_path
      rw [RoutesFile.path_congr hsame]
      exact h
    · intro c p e hplace h
      exact Call.transcript_of_noContent hplace h

/-- A directory for a module, and metadata in a file; templates are not there. -/
def metadataFiles : FileSystem :=
  (FileSystem.empty.put "/src".toList .directory).put "/metadata.json".toList
    (.file (Text.toBytes "\x7b\"controllers\":[]\x7d".toList))

/-- A file that says there are no controllers is read as saying so. -/
theorem transcript_load_empty {σ : Type} {d : Disk σ} {s : σ}
    (hread : d.read s "metadata.json".toList =
      .ok (Text.toBytes "\x7b\"controllers\":[]\x7d".toList)) :
    (Metadata.load "metadata.json".toList).transcript d s =
      ⟨[.read "metadata.json".toList], .ok ⟨[], []⟩, s⟩ := by
  have htext : Text.ofBytes? (Text.toBytes "\x7b\"controllers\":[]\x7d".toList) =
      some "\x7b\"controllers\":[]\x7d".toList := by decide +kernel
  have hdocument : Json.document "\x7b\"controllers\":[]\x7d".toList =
      ⟨.mapping [(.atom "controllers".toList (.text "controllers".toList), .sequence [])], true, #[],
        0⟩ := by
    simp [Json.document, Json.readValue, Json.readEntries, Json.readText, Json.readQuoted?,
      Json.skipSpace, Json.isSpace, Json.Quoted.push]
  have hjson : Metadata.ofJson "\x7b\"controllers\":[]\x7d".toList = .ok ⟨[], []⟩ := by
    rw [Metadata.ofJson, hdocument]
    rfl
  rw [Metadata.load, Program.transcript_bind, Program.transcript_readText_of_text hread htext,
    Transcript.andThen_ok, Metadata.ofText_of_ofJson hjson]
  rfl

/-- The metadata in the file are empty. -/
theorem load_metadataFiles :
    ((Metadata.load "metadata.json".toList).transcript (FileSystem.disk []) metadataFiles).result =
      .ok ⟨[], []⟩ := by
  rw [transcript_load_empty rfl]

/-- The generator for nothing fails for want of its template, and with another directory for want of
that. -/
theorem generation_fails_src :
    let d := FileSystem.disk []
    let lib := Options.ofRoutesDir "lib".toList
    let g : Generator := { emptyGenerator with
      options := { lib with middlewareTemplate := some "own".toList } }
    let run := (emptyGenerator.generateFile []).transcript d metadataFiles
    (d.FailsBeforeWriting ∧ run.result = .error (.file .notFound) ∧ run.after = metadataFiles) ∧
    (((Metadata.load "metadata.json".toList).transcript d metadataFiles).result = .ok ⟨[], []⟩ ∧
      (Generator.generateFrom "metadata.json".toList emptyGenerator.options []).transcript d
          metadataFiles =
        ((emptyGenerator.generate []).transcript d metadataFiles).behind
          (.read "metadata.json".toList)) ∧
    (((RoutesFile.path lib).transcript d metadataFiles).result =
        .error (.options (.noDirectory "lib".toList)) ∧
      g.options.SameFile lib ∧
      ((Call.generate g).program []).transcript d metadataFiles =
        ⟨[.kind "lib".toList], .error (.options (.noDirectory "lib".toList)), metadataFiles⟩) ∧
    (((RoutesFile.path emptyGenerator.options).transcript d metadataFiles).result =
        .ok "src/routes.ts".toList ∧
      (Call.generate emptyGenerator).NoContent [] d metadataFiles (.file .notFound) ∧
      ((Call.generate emptyGenerator).program []).transcript d metadataFiles =
        ⟨[.kind "src".toList, .read "own".toList], .error (.file .notFound), metadataFiles⟩) := by
  intro d lib g run
  have hd : d.FailsBeforeWriting := FileSystem.failsBeforeWriting_disk []
  obtain ⟨hwhole, hordered⟩ := generation_fails_whole_in_order
  obtain ⟨hfrom, hplace, hcontent⟩ := hordered FileSystem d metadataFiles []
  have hrun : run.result = .error (.file .notFound) := rfl
  have hmetadata : ((Metadata.load "metadata.json".toList).transcript d metadataFiles).result =
      .ok ⟨[], []⟩ := load_metadataFiles
  have hlib : ((RoutesFile.path lib).transcript d metadataFiles).result =
      .error (.options (.noDirectory "lib".toList)) := rfl
  have hsame : g.options.SameFile lib := ⟨rfl, rfl, rfl⟩
  have hsrc : ((RoutesFile.path emptyGenerator.options).transcript d metadataFiles).result =
      .ok "src/routes.ts".toList := rfl
  have hnone : (Call.generate emptyGenerator).NoContent [] d metadataFiles (.file .notFound) :=
    .template rfl
  refine ⟨⟨hd, hrun, ?_⟩, ⟨hmetadata, hfrom _ _ _ hmetadata⟩, ⟨hlib, hsame, ?_⟩, hsrc, hnone, ?_⟩
  · exact ((hwhole FileSystem d hd).1 emptyGenerator [] []).2.1 metadataFiles _ hrun
  · exact hplace lib _ hlib (.generate g) hsame
  · exact hcontent (.generate emptyGenerator) _ _ hsrc hnone

end RouteModule
