import RouteModule.Generation
import RouteModule.Proofs.FileSystem.Put

/-!
Runs of generators that leave a file alone which holds its content already. A call that ends well
says whether it changed its file, and says so rightly; made once more it changes nothing, unless it
has written over its own template.
-/

namespace RouteModule

namespace RoutesFile

variable {dir : Location} {path content : Text} {fs gs : FileSystem} {w : Bool}

/-- What a write that looks first has done: nothing where the content was there, and otherwise it
has put the content in place of another one or of none. -/
inductive Outcome (dir : Location) (path content : Text) (fs : FileSystem) :
    Bool → FileSystem → Prop where
  | kept (h : fs.read dir path = .ok (Text.toBytes content)) : Outcome dir path content fs false fs
  | created {gs : FileSystem} (h : fs.read dir path = .error .notFound)
    (hw : fs.write dir path (Text.toBytes content) = .ok gs) : Outcome dir path content fs true gs
  | changed {gs : FileSystem} {old : Bytes} (h : fs.read dir path = .ok old)
    (hne : old ≠ Text.toBytes content)
    (hw : fs.write dir path (Text.toBytes content) = .ok gs) : Outcome dir path content fs true gs

theorem run_writeText (dir : Location) (path content : Text) (fs : FileSystem) :
    (Program.writeText path content).run dir fs =
      match fs.write dir path (Text.toBytes content) with
      | .ok gs => (.ok (), gs)
      | .error f => (.error (.file f), fs) := by
  cases h : fs.write dir path (Text.toBytes content) with
  | ok gs => simp [Program.writeText, Program.run, h]
  | error f => simp [Program.writeText, Program.run, h]

theorem run_existing? (dir : Location) (path : Text) (fs : FileSystem) :
    (existing? path).run dir fs =
      match fs.read dir path with
      | .ok old => (.ok (some old), fs)
      | .error .notFound => (.ok none, fs)
      | .error f => (.error (.file f), fs) := by
  unfold existing?
  cases h : fs.read dir path with
  | ok old => simp [Program.run, h]
  | error f => cases f <;> simp [Program.run, h]

/-- A content that is there already is left alone. -/
theorem run_write_kept (h : fs.read dir path = .ok (Text.toBytes content)) :
    (write path content true).run dir fs = (.ok false, fs) := by
  simp only [write, if_true]
  rw [Program.run_bind, run_existing?, h]
  simp

/-- A content is written, and that is said. -/
theorem run_writeText_true (dir : Location) (path content : Text) (fs : FileSystem) :
    (do Program.writeText path content; return true : Program Bool).run dir fs =
      match fs.write dir path (Text.toBytes content) with
      | .ok gs => (.ok true, gs)
      | .error f => (.error (.file f), fs) := by
  rw [Program.run_bind, run_writeText]
  cases fs.write dir path (Text.toBytes content) with
  | ok gs => rfl
  | error f => rfl

/-- Where the write is carried out, it was possible. -/
theorem write_of_run_writeText
    (h : (do Program.writeText path content; return true : Program Bool).run dir fs = (.ok w, gs)) :
    w = true ∧ fs.write dir path (Text.toBytes content) = .ok gs := by
  rw [run_writeText_true] at h
  cases hw : fs.write dir path (Text.toBytes content) with
  | ok hs =>
    rw [hw] at h
    cases h
    exact ⟨rfl, rfl⟩
  | error f =>
    rw [hw] at h
    cases h

/-- What a write that looks first has done when it ends well. -/
theorem outcome_of_run (h : (write path content true).run dir fs = (.ok w, gs)) :
    Outcome dir path content fs w gs := by
  by_cases hkept : fs.read dir path = .ok (Text.toBytes content)
  · rw [run_write_kept hkept] at h
    cases h
    exact .kept hkept
  · simp only [write, if_true] at h
    rw [Program.run_bind, run_existing?] at h
    cases hread : fs.read dir path with
    | error f =>
      rw [hread] at h
      cases f with
      | notFound =>
        simp only [reduceCtorEq, if_false] at h
        obtain ⟨rfl, hw⟩ := write_of_run_writeText h
        exact .created hread hw
      | _ => cases h
    | ok old =>
      have hne : old ≠ Text.toBytes content := by
        rintro rfl
        exact hkept hread
      rw [hread] at h
      simp only [Option.some.injEq, hne, if_false] at h
      obtain ⟨rfl, hw⟩ := write_of_run_writeText h
      exact .changed hread hne hw

namespace Outcome

end Outcome

end RoutesFile

section Places

variable {dir : Location} {fs gs : FileSystem}

theorem RoutesFile.run_checkDirectory_eq_ok_iff {path : Text} {u : Unit} :
    (checkDirectory path).run dir fs = (.ok u, gs) ↔
      fs.kind dir path = .ok .directory ∧ gs = fs := by
  unfold checkDirectory
  rw [Program.run]
  cases fs.kind dir path with
  | ok k =>
    cases k with
    | directory => simp [Program.run, eq_comm]
    | file => simp [Program.run]
  | error f => cases f <;> simp [Program.run]

/-- The path of the file is settled where the directory is there and the name is allowed. -/
theorem RoutesFile.run_path_eq_ok_iff {o : Options} {p : Text} :
    (RoutesFile.path o).run dir fs = (.ok p, gs) ↔
      (fs.kind dir o.routesDir = .ok .directory ∧ checkName o = .ok ()) ∧
        p = FilePath.append o.routesDir o.fileName ∧ gs = fs := by
  unfold RoutesFile.path
  simp only [Program.run_bind_eq_ok_iff, run_checkDirectory_eq_ok_iff,
    Program.run_ofExcept_eq_ok_iff, Program.run_pure, Prod.mk.injEq, Except.ok.injEq]
  constructor
  · rintro ⟨_, _, ⟨hkind, rfl⟩, _, _, ⟨hname, rfl⟩, rfl, rfl⟩
    exact ⟨⟨hkind, hname⟩, rfl, rfl⟩
  · rintro ⟨⟨hkind, hname⟩, rfl, rfl⟩
    exact ⟨(), gs, ⟨hkind, rfl⟩, (), gs, ⟨hname, rfl⟩, rfl, rfl⟩

/-- A text is read where a file holds it. -/
theorem Program.run_readText_eq_ok_iff {path t : Text} :
    (Program.readText path).run dir fs = (.ok t, gs) ↔
      (∃ content, fs.read dir path = .ok content ∧ Text.ofBytes? content = some t) ∧ gs = fs := by
  unfold Program.readText Program.readBytes
  rw [Program.run_bind, Program.run]
  cases fs.read dir path with
  | error f => simp [Program.run]
  | ok content =>
    simp only [Program.run, Except.ok.injEq, exists_eq_left']
    cases Text.ofBytes? content with
    | none => simp [Program.run]
    | some u => simp [Program.run, eq_comm]

end Places

section Sources

variable {g : Generator}

/-- A template of the options' own is read from its file. -/
theorem Generator.load_of_some {path : Text} (h : g.options.middlewareTemplate = some path) :
    g.strategy.source.load = Program.readText path := by
  simp only [strategy, Strategy.ofOptions, h, TemplateSource.load]

/-- Otherwise the template is at hand. -/
theorem Generator.load_of_none (h : g.options.middlewareTemplate = none) :
    ∃ t, g.strategy.source.load = pure t := by
  simp only [strategy, Strategy.ofOptions, h, Strategy.ofFramework, TemplateSource.load]
  exact ⟨_, rfl⟩

end Sources

/-- Writes the module with a template that is still to be got; says whether it was written. -/
def Generator.renderWith (g : Generator) (cwd : Text) (template : Program Text) : Program Bool := do
  let path ← RoutesFile.path g.options
  let template ← template
  g.renderTo cwd path template

/-- A call of a generator. -/
inductive Call where
  | generate (g : Generator)
  | generateFile (g : Generator)
  | generateWithTemplate (g : Generator) (template : Text)

namespace Call

/-- The generator that is called. -/
def generator : Call → Generator
  | generate g => g
  | generateFile g => g
  | generateWithTemplate g _ => g

/-- What the call does; its result says whether the file was written. -/
def program (cwd : Text) : Call → Program Bool
  | generate g => g.generate cwd
  | generateFile g => do return (← g.generateFile cwd).2
  | generateWithTemplate g template => g.generateWithTemplate cwd template

/-- The path of the file that the call is to write. -/
def target (c : Call) : Text :=
  FilePath.append c.generator.options.routesDir c.generator.options.fileName

/-- The file that the call takes its template from, if it takes it from a file. -/
def templateFile? : Call → Option Text
  | generate g => g.options.middlewareTemplate
  | generateFile g => g.options.middlewareTemplate
  | generateWithTemplate _ _ => none

/-- How the call comes by its template. -/
def load : Call → Program Text
  | generate g => g.strategy.source.load
  | generateFile g => g.strategy.source.load
  | generateWithTemplate _ template => pure template

/-- All calls settle the path, get the template, and render to the path. -/
theorem program_eq (c : Call) (cwd : Text) :
    c.program cwd = c.generator.renderWith cwd c.load := by
  have hfile : ∀ g : Generator, (do return (← g.generateFile cwd).2) =
      g.renderWith cwd g.strategy.source.load := by
    intro g
    simp only [Generator.generateFile, Generator.renderWith, bind_assoc, pure_bind, bind_pure]
  cases c with
  | generate g => exact hfile g
  | generateFile g => exact hfile g
  | generateWithTemplate g template =>
    simp only [program, Generator.generateWithTemplate, Generator.renderWith, generator, load,
      pure_bind]

section Running

variable {c : Call} {cwd : Text} {dir : Location} {fs gs : FileSystem} {w : Bool}

theorem load_of_some {path : Text} (h : c.templateFile? = some path) :
    c.load = Program.readText path := by
  cases c with
  | generate g => exact Generator.load_of_some h
  | generateFile g => exact Generator.load_of_some h
  | generateWithTemplate g template => cases h

theorem load_of_none (h : c.templateFile? = none) : ∃ t, c.load = pure t := by
  cases c with
  | generate g => exact Generator.load_of_none h
  | generateFile g => exact Generator.load_of_none h
  | generateWithTemplate g template => exact ⟨template, rfl⟩

/-- Getting a template changes nothing. -/
theorem load_unchanged {t : Text} (h : c.load.run dir fs = (.ok t, gs)) : gs = fs := by
  cases hfile : c.templateFile? with
  | none =>
    obtain ⟨u, hload⟩ := load_of_none hfile
    rw [hload, Program.run_pure] at h
    cases h
    rfl
  | some path =>
    rw [load_of_some hfile, Program.run_readText_eq_ok_iff] at h
    exact h.2

/-- What a call that ends well has gone through. -/
theorem run_eq_ok_iff :
    (c.program cwd).run dir fs = (.ok w, gs) ↔
      ∃ t content,
        (fs.kind dir c.generator.options.routesDir = .ok .directory ∧
          RoutesFile.checkName c.generator.options = .ok ()) ∧
        c.load.run dir fs = (.ok t, fs) ∧ c.generator.content cwd t = .ok content ∧
        (RoutesFile.write c.target content c.generator.options.noWriteIfUnchanged).run dir fs =
          (.ok w, gs) := by
  rw [program_eq, Generator.renderWith]
  simp only [Generator.renderTo, Generator.build, Program.run_bind_eq_ok_iff,
    RoutesFile.run_path_eq_ok_iff, Program.run_ofExcept_mapError_eq_ok_iff]
  constructor
  · rintro ⟨_, _, ⟨hplace, rfl, rfl⟩, t, hs, hload, content, _, ⟨hcontent, rfl⟩, hwrite⟩
    have hsame := load_unchanged hload
    subst hsame
    exact ⟨t, content, hplace, hload, hcontent, hwrite⟩
  · rintro ⟨t, content, hplace, hload, hcontent, hwrite⟩
    exact ⟨_, _, ⟨hplace, rfl, rfl⟩, t, _, hload, content, _, ⟨hcontent, rfl⟩, hwrite⟩

end Running

end Call

section Runs

/-- A call that was made: what was there before it, its result, and what was there after it. -/
structure Step where
  call : Call
  before : FileSystem
  result : Except Problem Bool
  after : FileSystem

/-- The steps of calls that are made one after the other. -/
def steps (cwd : Text) (dir : Location) : List Call → FileSystem → List Step
  | [], _ => []
  | c :: rest, fs =>
    let r := (c.program cwd).run dir fs
    ⟨c, fs, r.1, r.2⟩ :: steps cwd dir rest r.2

namespace Step

end Step

/-- A generator for nothing, with a template of its own. -/
def emptyGenerator : Generator :=
  ⟨⟨[], []⟩, { Options.ofRoutesDir "src".toList with middlewareTemplate := some "own".toList }⟩

/-- A directory for its module, and its template. -/
def startingFiles : FileSystem :=
  (FileSystem.empty.put "/src".toList .directory).put "/own".toList (.file (Text.toBytes "x".toList))

end Runs

end RouteModule
