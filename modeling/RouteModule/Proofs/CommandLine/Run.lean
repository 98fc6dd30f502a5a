import RouteModule.CommandLine
import RouteModule.Proofs.CommandLine.Flags
import RouteModule.Proofs.Generation.Failure

/-!
What a run of the command line comes to. It starts from the options of a file or of a directory, puts
in place of each what a flag says otherwise, reads the metadata and generates, each on the disk as the
last left it. What is said and what is left behind are those of the parts; the first part that fails
is told, and then nothing has changed.
-/

namespace RouteModule.CommandLine

/-- What is given stands in place of what was there. -/
def Replaces {α : Type} (given : Option α) (old new : α) : Prop :=
  (∀ v, given = some v → new = v) ∧ (given = none → new = old)

theorem replaces_iff {α : Type} {given : Option α} {old new : α} :
    Replaces given old new ↔ new = given.getD old := by
  cases given with
  | none => simp [Replaces]
  | some v => simp [Replaces]

/-- Options with what flags say in place of what they said. The flag for ECMAScript modules can only
turn them on, and three options have no flag. -/
structure Overrides (given : Draft Flag) (o o' : Options) : Prop where
  routesDir : Replaces (given .routesDir) o.routesDir o'.routesDir
  middleware : Replaces (given .middleware) o.middleware o'.middleware
  middlewareTemplate :
    Replaces ((given .middlewareTemplate).map some) o.middlewareTemplate o'.middlewareTemplate
  routesFileName : Replaces ((given .routesFileName).map some) o.routesFileName o'.routesFileName
  esm : Replaces ((given .esm).map fun _ => true) o.esm o'.esm
  noImplicitAdditionalProperties :
    Replaces (given .noImplicitAdditionalProperties) o.noImplicitAdditionalProperties
      o'.noImplicitAdditionalProperties
  basePath : Replaces (given .basePath) o.basePath o'.basePath
  noWriteIfUnchanged : o'.noWriteIfUnchanged = o.noWriteIfUnchanged
  iocModule : o'.iocModule = o.iocModule
  authenticationModule : o'.authenticationModule = o.authenticationModule

section Parts

variable (cwd : Text) (dir : Location) (fs : FileSystem) (given : Draft Flag)

/-- The options that flags are laid over, and what is left after they are had. -/
inductive StartsFrom : Options → FileSystem → Prop where
  | file {path : Text} {o : Options} {gs : FileSystem} (hconfig : given .config = some path)
    (hload : (Options.load path).run dir fs = (.ok o, gs)) : StartsFrom o gs
  | directory {routesDir : Text} (hconfig : given .config = none)
    (hdir : given .routesDir = some routesDir) : StartsFrom (.ofRoutesDir routesDir) fs

/-- All that a run does ends well: the path of the module, whether it was written, and what is left. -/
inductive Completes : Text → Bool → FileSystem → Prop where
  | intro {o o' : Options} {path p : Text} {m : Metadata} {w : Bool} {gs hs ks : FileSystem}
    (hstart : StartsFrom dir fs given o gs) (hover : Overrides given o o')
    (hpath : given .metadata = some path) (hload : (Metadata.load path).run dir gs = (.ok m, hs))
    (hrun : ((⟨m, o'⟩ : Generator).generateFile cwd).run dir hs = (.ok (p, w), ks)) :
    Completes p w ks

/-- A part of a run fails, and those before it have ended well. -/
inductive Fails : Failure → Prop where
  | nothing (hconfig : given .config = none) (hdir : given .routesDir = none) :
    Fails ⟨"either --config or --routes-dir is required".toList, none⟩
  | options {path : Text} {e : Problem} {gs : FileSystem} (hconfig : given .config = some path)
    (hload : (Options.load path).run dir fs = (.error e, gs)) :
    Fails ⟨"Failed to load options from ".toList ++ path, some e⟩
  | metadata {o : Options} {path : Text} {e : Problem} {gs hs : FileSystem}
    (hstart : StartsFrom dir fs given o gs) (hpath : given .metadata = some path)
    (hload : (Metadata.load path).run dir gs = (.error e, hs)) :
    Fails ⟨"Failed to load metadata from ".toList ++ path, some e⟩
  | generation {o o' : Options} {path : Text} {m : Metadata} {e : Problem} {gs hs ks : FileSystem}
    (hstart : StartsFrom dir fs given o gs) (hover : Overrides given o o')
    (hpath : given .metadata = some path) (hload : (Metadata.load path).run dir gs = (.ok m, hs))
    (hrun : ((⟨m, o'⟩ : Generator).generateFile cwd).run dir hs = (.error e, ks)) :
    Fails ⟨"Failed to generate routes".toList, some e⟩

end Parts

section Arguments

variable {given : Draft Flag} {a : Arguments} {o o' : Options}

/-- The arguments hold what the flags give. -/
theorem ofDraft?_eq_some_iff :
    Arguments.ofDraft? given = some a ↔
      given .metadata = some a.metadata ∧ given .config = a.config ∧
      given .middleware = a.middleware ∧ given .middlewareTemplate = a.middlewareTemplate ∧
      given .routesDir = a.routesDir ∧ given .routesFileName = a.routesFileName ∧
      (given .esm).isSome = a.esm ∧
      given .noImplicitAdditionalProperties = a.noImplicitAdditionalProperties ∧
      given .basePath = a.basePath := by
  simp only [Arguments.ofDraft?, Option.bind_eq_bind, Option.bind_eq_some_iff, Option.pure_def,
    Option.some.injEq]
  constructor
  · rintro ⟨metadata, hmetadata, rfl⟩
    exact ⟨hmetadata, rfl, rfl, rfl, rfl, rfl, rfl, rfl, rfl⟩
  · rintro ⟨hmetadata, hrest⟩
    obtain ⟨hconfig, hmiddleware, htemplate, hdir, hname, hesm, hpolicy, hbase⟩ := hrest
    refine ⟨a.metadata, hmetadata, ?_⟩
    rw [hconfig, hmiddleware, htemplate, hdir, hname, hesm, hpolicy, hbase]

/-- The options that arguments make are those with what their flags say. -/
theorem overrides_iff (h : Arguments.ofDraft? given = some a) :
    Overrides given o o' ↔ o' = a.apply o := by
  obtain ⟨-, -, hmiddleware, htemplate, hdir, hname, hesm, hpolicy, hbase⟩ :=
    ofDraft?_eq_some_iff.1 h
  have hswitch : ((given .esm).map fun _ => true).getD o.esm = (a.esm || o.esm) := by
    rw [← hesm]
    cases given .esm <;> rfl
  have hfile : (a.routesFileName.map some).getD o.routesFileName =
      (a.routesFileName <|> o.routesFileName) := by
    cases a.routesFileName <;> rfl
  have hown : (a.middlewareTemplate.map some).getD o.middlewareTemplate =
      (a.middlewareTemplate <|> o.middlewareTemplate) := by
    cases a.middlewareTemplate <;> rfl
  constructor
  · rintro ⟨h₁, h₂, h₃, h₄, h₅, h₆, h₇, h₈, h₉, h₁₀⟩
    rw [replaces_iff] at h₁ h₂ h₃ h₄ h₅ h₆ h₇
    rw [hdir] at h₁
    rw [hmiddleware] at h₂
    rw [htemplate, hown] at h₃
    rw [hname, hfile] at h₄
    rw [hswitch] at h₅
    rw [hpolicy] at h₆
    rw [hbase] at h₇
    obtain ⟨⟩ := o'
    simp only at h₁ h₂ h₃ h₄ h₅ h₆ h₇ h₈ h₉ h₁₀
    rw [Arguments.apply, h₁, h₂, h₃, h₄, h₅, h₆, h₇, h₈, h₉, h₁₀]
  · rintro rfl
    refine ⟨?_, ?_, ?_, ?_, ?_, ?_, ?_, rfl, rfl, rfl⟩
    · rw [replaces_iff, hdir, Arguments.apply]
    · rw [replaces_iff, hmiddleware, Arguments.apply]
    · rw [replaces_iff, htemplate, hown, Arguments.apply]
    · rw [replaces_iff, hname, hfile, Arguments.apply]
    · rw [replaces_iff, hswitch, Arguments.apply]
    · rw [replaces_iff, hpolicy, Arguments.apply]
    · rw [replaces_iff, hbase, Arguments.apply]

end Arguments

section Running

variable {cwd : Text} {dir : Location} {fs gs : FileSystem} {given : Draft Flag} {a : Arguments}
  {o : Options} {f : Failure} {p : Text} {w : Bool}

theorem leavesAlone_loadOptions (path : Text) : (Options.load path).LeavesAlone := by
  apply (Program.leavesAlone_readText path).bind
  intro t
  exact Program.leavesAlone_ofExcept _

theorem leavesAlone_loadMetadata (path : Text) : (Metadata.load path).LeavesAlone := by
  apply (Program.leavesAlone_readText path).bind
  intro t
  exact Program.leavesAlone_ofExcept _

/-- A start from options has only read. -/
theorem StartsFrom.eq (h : StartsFrom dir fs given o gs) : gs = fs := by
  cases h with
  | file _ hload => exact (leavesAlone_loadOptions _).run hload
  | directory => rfl

/-- A program under a heading does the same, and its failure stands under the heading. -/
theorem run_under (heading : Text) (q : Program α) (dir : Location) (fs : FileSystem) :
    (under heading q).run.run dir fs =
      (.ok ((q.run dir fs).1.mapError fun e => ⟨heading, some e⟩), (q.run dir fs).2) := by
  unfold under
  change (ExceptT.lift q.attempt >>= _).run.run dir fs = _
  rw [ExceptT.run_bind_lift, Program.run_bind, Program.run_attempt]
  cases (q.run dir fs).1 with
  | ok v => rfl
  | error e => rfl

/-- A part that ends well is gone on from where it left off. -/
theorem run_andThen {x : ExceptT Failure Program α} {next : α → ExceptT Failure Program β} {v : α}
    (h : x.run.run dir fs = (.ok (.ok v), gs)) :
    (x >>= next).run.run dir fs = (next v).run.run dir gs := by
  rw [ExceptT.run_bind, Program.run_bind, h]

/-- Nothing comes after a part that fails. -/
theorem run_andThen_error {x : ExceptT Failure Program α} {next : α → ExceptT Failure Program β}
    (h : x.run.run dir fs = (.ok (.error f), gs)) :
    (x >>= next).run.run dir fs = (.ok (.error f), gs) := by
  rw [ExceptT.run_bind, Program.run_bind, h]
  rfl

theorem run_baseOptions (ha : Arguments.ofDraft? given = some a)
    (h : StartsFrom dir fs given o gs) : (baseOptions a).run.run dir fs = (.ok (.ok o), gs) := by
  obtain ⟨-, hconfig, -, -, hdir, -⟩ := ofDraft?_eq_some_iff.1 ha
  cases h with
  | @file path _ _ hpath hload =>
    have hbase : baseOptions a =
        under ("Failed to load options from ".toList ++ path) (Options.load path) := by
      rw [baseOptions, ← hconfig, hpath]
    rw [hbase, run_under, hload]
    rfl
  | @directory d hnone hd =>
    have hbase : baseOptions a = pure (.ofRoutesDir d) := by
      rw [baseOptions, ← hconfig, hnone, ← hdir, hd]
    rw [hbase]
    rfl

/-- With its options and its metadata, a run goes on to generate. -/
theorem run_generate_of_loaded {o' : Options} {path : Text} {m : Metadata} {hs : FileSystem}
    (ha : Arguments.ofDraft? given = some a) (hstart : StartsFrom dir fs given o gs)
    (hover : Overrides given o o') (hpath : given .metadata = some path)
    (hload : (Metadata.load path).run dir gs = (.ok m, hs)) :
    (generate cwd a).run.run dir fs =
      (under "Failed to generate routes".toList
        ((⟨m, o'⟩ : Generator).generateFile cwd)).run.run dir hs := by
  obtain rfl : a.metadata = path := Option.some.inj ((ofDraft?_eq_some_iff.1 ha).1.symm.trans hpath)
  obtain rfl := (overrides_iff ha).1 hover
  rw [generate, run_andThen (run_baseOptions ha hstart)]
  apply run_andThen
  rw [run_under, hload]
  rfl

/-- A run whose parts end well gives what they give. -/
theorem run_generate_of_completes (ha : Arguments.ofDraft? given = some a)
    (h : Completes cwd dir fs given p w gs) :
    (generate cwd a).run.run dir fs = (.ok (.ok (p, w)), gs) := by
  obtain ⟨hstart, hover, hpath, hload, hrun⟩ := h
  rw [run_generate_of_loaded ha hstart hover hpath hload, run_under, hrun]
  rfl

/-- A run with a part that fails fails alike, and has changed nothing. -/
theorem run_generate_of_fails (ha : Arguments.ofDraft? given = some a)
    (h : Fails cwd dir fs given f) :
    (generate cwd a).run.run dir fs = (.ok (.error f), fs) := by
  obtain ⟨hmetadata, hconfig, -, -, hdir, -⟩ := ofDraft?_eq_some_iff.1 ha
  cases h with
  | nothing hnone hd =>
    apply run_andThen_error
    rw [baseOptions, ← hconfig, hnone, ← hdir, hd]
    rfl
  | @options path e gs hpath hload =>
    obtain rfl := (leavesAlone_loadOptions path).run hload
    apply run_andThen_error
    rw [baseOptions, ← hconfig, hpath]
    simp only [run_under, hload]
    rfl
  | @metadata o path e gs hs hstart hpath hload =>
    obtain rfl : a.metadata = path := Option.some.inj (hmetadata.symm.trans hpath)
    obtain rfl := (leavesAlone_loadMetadata a.metadata).run hload
    obtain rfl := hstart.eq
    rw [generate, run_andThen (run_baseOptions ha hstart)]
    apply run_andThen_error
    rw [run_under, hload]
    rfl
  | @generation o o' path m e gs hs ks hstart hover hpath hload hrun =>
    have hdisk := FileSystem.failsBeforeWriting_disk dir
    obtain rfl := (Generator.allOrNothing_generateFile hdisk ⟨m, o'⟩ cwd).run hrun
    obtain rfl := (leavesAlone_loadMetadata path).run hload
    obtain rfl := hstart.eq
    rw [run_generate_of_loaded ha hstart hover hpath hload, run_under, hrun]
    rfl

/-- Either all parts of a run end well, or one is the first to fail. -/
theorem completes_or_fails (ha : Arguments.ofDraft? given = some a) (cwd : Text) (dir : Location)
    (fs : FileSystem) :
    (∃ p w gs, Completes cwd dir fs given p w gs) ∨ ∃ f, Fails cwd dir fs given f := by
  have hstarts : (∃ o gs, StartsFrom dir fs given o gs) ∨ ∃ f, Fails cwd dir fs given f := by
    cases hconfig : given .config with
    | some path =>
      obtain ⟨r, gs, hload⟩ : ∃ r gs, (Options.load path).run dir fs = (r, gs) := ⟨_, _, rfl⟩
      cases r with
      | ok o => exact .inl ⟨o, gs, .file hconfig hload⟩
      | error e => exact .inr ⟨_, .options hconfig hload⟩
    | none =>
      cases hdir : given .routesDir with
      | some d => exact .inl ⟨_, fs, .directory hconfig hdir⟩
      | none => exact .inr ⟨_, .nothing hconfig hdir⟩
  obtain ⟨o, gs, hstart⟩ | hfails := hstarts
  · have hpath := (ofDraft?_eq_some_iff.1 ha).1
    obtain ⟨r, hs, hload⟩ : ∃ r hs, (Metadata.load a.metadata).run dir gs = (r, hs) := ⟨_, _, rfl⟩
    cases r with
    | error e => exact .inr ⟨_, .metadata hstart hpath hload⟩
    | ok m =>
      have hover := (overrides_iff ha (o := o)).2 rfl
      obtain ⟨r, ks, hrun⟩ : ∃ r ks,
          ((⟨m, a.apply o⟩ : Generator).generateFile cwd).run dir hs = (r, ks) := ⟨_, _, rfl⟩
      cases r with
      | ok written => exact .inl ⟨_, _, ks, .intro hstart hover hpath hload hrun⟩
      | error e => exact .inr ⟨_, .generation hstart hover hpath hload hrun⟩
  · exact .inr hfails

end Running

section Refinement

variable {cwd : Text} {dir : Location} {fs gs : FileSystem} {a : Arguments} {args : List Text}

/-- The report of what generation comes to. -/
def Report.ofResult : Except Failure (Text × Bool) → Report
  | .ok (path, written) => .success (sentence path written)
  | .error f => f.report

theorem run_eq_of_generate {r : Except Failure (Text × Bool)}
    (h : Request.ofArgs? args = some (.routes a))
    (hrun : (generate cwd a).run.run dir fs = (.ok r, gs)) :
    (run cwd args).run dir fs = (.ok (.ofResult r), gs) := by
  rw [run, h]
  simp only [perform]
  rw [Program.run_bind, hrun]
  obtain f | ⟨path, written⟩ := r
  · rfl
  · rfl

/-- What the command that generates does with arguments that it accepts: all parts of the run in
their order, each on what the last left, with the flags over the options. It exits well just if all of
them end well, and then it says and leaves what they give; otherwise the first failure is reported on
a standard output that stays empty, and nothing has changed. -/
theorem run_routes (h : Request.ofArgs? args = some (.routes a)) (cwd : Text) (dir : Location)
    (fs : FileSystem) :
    ∃ flags given, args = "routes".toList :: flags ∧ Gives flags given ∧
      Arguments.ofDraft? given = some a ∧
      ∃ report gs, (run cwd args).run dir fs = (.ok report, gs) ∧
        (report.exit = 0 ∨ report.exit = 1) ∧
        (report.exit = 0 ↔ ∃ p w hs, Completes cwd dir fs given p w hs) ∧
        (∀ p w hs, Completes cwd dir fs given p w hs →
          report = ⟨0, (if w then "Generated routes: " else "Routes unchanged: ").toList ++ p ++ ['\n'],
            none, none⟩ ∧ gs = hs) ∧
        (report.exit = 1 ↔ ∃ f, Fails cwd dir fs given f) ∧
        ∀ f, Fails cwd dir fs given f →
          report = ⟨1, [], some ("Error: ".toList ++ f.heading), f.problem?⟩ ∧ gs = fs := by
  obtain ⟨flags, given, hargs, hgives, ha⟩ := ofArgs?_eq_routes_iff.1 h
  refine ⟨flags, given, hargs, hgives, ha, ?_⟩
  have hcompletes : ∀ p w hs, Completes cwd dir fs given p w hs →
      (run cwd args).run dir fs = (.ok (.success (sentence p w)), hs) :=
    fun p w hs hdone => run_eq_of_generate h (run_generate_of_completes ha hdone)
  have hfails : ∀ f, Fails cwd dir fs given f →
      (run cwd args).run dir fs = (.ok f.report, fs) :=
    fun f hf => run_eq_of_generate h (run_generate_of_fails ha hf)
  obtain ⟨report, gs, hrun⟩ : ∃ report gs, (run cwd args).run dir fs = (.ok report, gs) := by
    obtain ⟨p, w, gs, hdone⟩ | ⟨f, hf⟩ := completes_or_fails ha cwd dir fs
    · exact ⟨_, gs, hcompletes p w gs hdone⟩
    · exact ⟨_, fs, hfails f hf⟩
  have hsuccess : ∀ p w hs, Completes cwd dir fs given p w hs →
      report = .success (sentence p w) ∧ gs = hs := by
    intro p w hs hdone
    rw [hcompletes p w hs hdone, Prod.mk.injEq, Except.ok.injEq] at hrun
    exact ⟨hrun.1.symm, hrun.2.symm⟩
  have hfailure : ∀ f, Fails cwd dir fs given f → report = f.report ∧ gs = fs := by
    intro f hf
    rw [hfails f hf, Prod.mk.injEq, Except.ok.injEq] at hrun
    exact ⟨hrun.1.symm, hrun.2.symm⟩
  refine ⟨report, gs, hrun, ?_, ⟨?_, ?_⟩, hsuccess, ⟨?_, ?_⟩, hfailure⟩
  · obtain ⟨p, w, hs, hdone⟩ | ⟨f, hf⟩ := completes_or_fails ha cwd dir fs
    · exact .inl (by rw [(hsuccess p w hs hdone).1]; rfl)
    · exact .inr (by rw [(hfailure f hf).1]; rfl)
  · intro hexit
    obtain hdone | ⟨f, hf⟩ := completes_or_fails ha cwd dir fs
    · exact hdone
    · rw [(hfailure f hf).1] at hexit
      cases hexit
  · rintro ⟨p, w, hs, hdone⟩
    rw [(hsuccess p w hs hdone).1]
    rfl
  · intro hexit
    obtain ⟨p, w, hs, hdone⟩ | hf := completes_or_fails ha cwd dir fs
    · rw [(hsuccess p w hs hdone).1] at hexit
      cases hexit
    · exact hf
  · rintro ⟨f, hf⟩
    rw [(hfailure f hf).1]
    rfl

/-- A directory for the module, its template, and metadata without controllers. -/
def preparedFiles : FileSystem :=
  metadataFiles.put "/own".toList (.file (Text.toBytes "x".toList))

/-- The flags of a run name all that it needs, in the three ways that flags are written. -/
theorem run_routes_src :
    let args : List Text := ["routes".toList, "--esm".toList, "--routes-dir=src".toList,
      "--metadata".toList, "metadata.json".toList, "--middleware-template".toList, "own".toList]
    (∃ a, Request.ofArgs? args = some (.routes a)) ∧
      (run [] args).run [] preparedFiles =
        (.ok ⟨0, "Generated routes: src/routes.ts\n".toList, none, none⟩,
          preparedFiles.put "/src/routes.ts".toList (.file (Text.toBytes "x".toList))) := by
  intro args
  let a : Arguments := ⟨"metadata.json".toList, none, none, some "own".toList, some "src".toList, none,
    true, none, none⟩
  have hargs : Request.ofArgs? args = some (.routes a) := by decide +kernel
  refine ⟨⟨a, hargs⟩, ?_⟩
  obtain ⟨flags, given, -, -, ha, report, gs, hrun, -, -, hdone, -⟩ :=
    run_routes hargs [] [] preparedFiles
  obtain ⟨hmetadata, hconfig, -, -, hdir, -⟩ := ofDraft?_eq_some_iff.1 ha
  have hload : (Metadata.load "metadata.json".toList).run [] preparedFiles =
      (.ok ⟨[], []⟩, preparedFiles) := by
    rw [Program.run_eq_transcript, transcript_load_empty rfl]
  obtain ⟨rfl, rfl⟩ := hdone _ _ _
    (.intro (.directory hconfig hdir) ((overrides_iff ha).2 rfl) hmetadata hload rfl)
  rw [hrun]
  rfl

end Refinement

end RouteModule.CommandLine
