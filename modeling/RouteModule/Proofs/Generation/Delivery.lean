import RouteModule.Proofs.Generation.Runs

/-!
What a generator leaves behind when it ends well. Its module is in the file that the path means, and
the file system is otherwise as it was; whether the generator looks first at what the file holds makes
no difference to this.
-/

namespace RouteModule

/-- A content came to the place that a path means. It is the content of a file there; what is at any
other place was there before, and so were all directories and links. -/
structure FileSystem.Delivered (dir : Location) (path : Text) (content : Bytes) (l : Location)
    (fs gs : FileSystem) : Prop where
  meant : ∃ place, fs.resolve false dir path = .ok (place, false) ∧ place.location = l
  held : gs.resolve false dir path = .ok (.file l content, false)
  elsewhere : ∀ m, m ≠ l → gs.get? m = fs.get? m
  directories : ∀ m, gs.get? m = some .directory ↔ fs.get? m = some .directory
  links : ∀ m target, gs.get? m = some (.link target) ↔ fs.get? m = some (.link target)

/-- What is not a file is where it was after a file was put where neither a directory nor a link
was. -/
theorem FileSystem.get?_put_iff {fs : FileSystem} {l : Location} (hfree : fs.IsFree l)
    (content : Bytes) {e : Entry} (he : ∀ old, e ≠ .file old) (m : Location) :
    (fs.put l (.file content)).get? m = some e ↔ fs.get? m = some e := by
  by_cases hm : m = l
  · subst hm
    rw [get?_put_same]
    constructor
    · intro h
      exact absurd (Option.some.inj h).symm (he content)
    · intro h
      rcases hfree with hnone | ⟨old, hold⟩
      · rw [hnone] at h
        cases h
      · rw [hold] at h
        exact absurd (Option.some.inj h).symm (he old)
  · rw [get?_put_other fs _ hm]

theorem FileSystem.delivered_of_write {dir : Location} {path : Text} {content : Bytes}
    {fs gs : FileSystem} (h : fs.write dir path content = .ok gs) :
    ∃ l, Delivered dir path content l fs gs := by
  obtain ⟨m, hm⟩ := read_eq_ok_iff.1 (read_write h)
  obtain ⟨place, hresolve, hplace, hfree, rfl⟩ := write_eq_ok h
  have hafter := resolve_put hfree content hresolve
  have hl : place.afterPut place.location content = .file place.location content := by
    cases place with
    | directory m => exact absurd rfl (hplace m)
    | absent m => simp [Place.afterPut, Place.location]
    | file m old => simp [Place.afterPut, Place.location]
  rw [hl] at hafter
  refine ⟨place.location, ⟨place, hresolve, rfl⟩, hafter, ?_, ?_, ?_⟩
  · intro m hm
    exact get?_put_other fs _ hm
  · exact get?_put_iff hfree content (by simp)
  · intro m target
    exact get?_put_iff hfree content (by simp) m

namespace RoutesFile

variable {dir : Location} {path content : Text} {fs gs : FileSystem}

/-- Another content is written over, and that is said. -/
theorem run_write_over (hw : fs.write dir path (Text.toBytes content) = .ok gs)
    (hne : fs.read dir path ≠ .ok (Text.toBytes content)) :
    (write path content true).run dir fs = (.ok true, gs) := by
  have hplain := run_writeText_true dir path content fs
  rw [hw] at hplain
  simp only [write, if_true]
  rw [Program.run_bind, run_existing?]
  rcases FileSystem.read_before_write hw with hnone | ⟨old, hold⟩
  · rw [hnone]
    simpa using hplain
  · have hother : old ≠ Text.toBytes content := by
      rintro rfl
      exact hne hold
    rw [hold]
    simpa [hother] using hplain

/-- A write ends well where the content can be written, and leaves what writing it leaves, whether or
not it looks first. It says no only if it has looked and found the content. -/
theorem run_write_eq_ok_iff {skip w : Bool} :
    (write path content skip).run dir fs = (.ok w, gs) ↔
      fs.write dir path (Text.toBytes content) = .ok gs ∧
        (w = false ↔ skip = true ∧ fs.read dir path = .ok (Text.toBytes content)) := by
  cases skip with
  | false =>
    have hplain : write path content false =
        (do Program.writeText path content; return true : Program Bool) := rfl
    rw [hplain, run_writeText_true]
    cases fs.write dir path (Text.toBytes content) with
    | ok hs => simp [and_comm, eq_comm]
    | error f => simp
  | true =>
    constructor
    · intro h
      cases outcome_of_run h with
      | kept hread => exact ⟨FileSystem.write_of_read hread, by simp [hread]⟩
      | created hread hw => exact ⟨hw, by simp [hread]⟩
      | changed hread hne hw => exact ⟨hw, by simp [hread, hne]⟩
    · rintro ⟨hw, hflag⟩
      by_cases hkept : fs.read dir path = .ok (Text.toBytes content)
      · have hsame := FileSystem.write_of_read hkept
        rw [hw, Except.ok.injEq] at hsame
        rw [run_write_kept hkept, hflag.2 ⟨rfl, hkept⟩, hsame]
      · have hyes : w = true := by
          rw [← Bool.not_eq_false, hflag]
          rintro ⟨-, hread⟩
          exact hkept hread
        rw [run_write_over hw hkept, hyes]

end RoutesFile

/-- The text that a source has: that of a framework's own template, or the one that a file holds. -/
def TemplateSource.Has (dir : Location) (fs : FileSystem) : TemplateSource → Text → Prop
  | bundled f, t => t = f.template
  | custom path, t => ∃ content, fs.read dir path = .ok content ∧ Text.ofBytes? content = some t

/-- A template is loaded where its source has it, and that changes nothing. -/
theorem TemplateSource.run_load_eq_ok_iff {source : TemplateSource} {dir : Location}
    {fs gs : FileSystem} {t : Text} :
    source.load.run dir fs = (.ok t, gs) ↔ source.Has dir fs t ∧ gs = fs := by
  cases source with
  | bundled f =>
    rw [load, Program.run_pure, Has, Prod.mk.injEq, Except.ok.injEq, eq_comm, eq_comm (a := fs)]
  | custom path => exact Program.run_readText_eq_ok_iff

namespace Generator

variable {g : Generator} {cwd : Text} {dir : Location} {fs gs : FileSystem} {p : Text} {w : Bool}

/-- The generator that does or does not leave a file alone which holds its content already. -/
def sparing (g : Generator) (skip : Bool) : Generator :=
  { g with options := { g.options with noWriteIfUnchanged := skip } }

/-- What a run that ends well has gone through. -/
theorem run_generateFile_eq_ok_iff :
    (g.generateFile cwd).run dir fs = (.ok (p, w), gs) ↔
      (RoutesFile.path g.options).run dir fs = (.ok p, fs) ∧
        ∃ template content, g.strategy.source.Has dir fs template ∧
          g.content cwd template = .ok content ∧
          (RoutesFile.write p content g.options.noWriteIfUnchanged).run dir fs = (.ok w, gs) := by
  simp only [generateFile, renderTo, build, Program.run_bind_eq_ok_iff,
    TemplateSource.run_load_eq_ok_iff, Program.run_ofExcept_mapError_eq_ok_iff, Program.run_pure,
    Prod.mk.injEq, Except.ok.injEq]
  constructor
  · rintro ⟨path, hs, hpath, template, ks, ⟨hsource, hks⟩, v, ls, ⟨content, ms, ⟨hcontent, hms⟩, hwrite⟩,
      ⟨hp, hv⟩, hls⟩
    have hhs : hs = fs := (RoutesFile.run_path_eq_ok_iff.1 hpath).2.2
    subst hp hv hls hms hks hhs
    exact ⟨hpath, template, content, hsource, hcontent, hwrite⟩
  · rintro ⟨hpath, template, content, hsource, hcontent, hwrite⟩
    exact ⟨p, fs, hpath, template, fs, ⟨hsource, rfl⟩, w, gs,
      ⟨content, fs, ⟨hcontent, rfl⟩, hwrite⟩, ⟨rfl, rfl⟩, rfl⟩

/-- A generator that ends well has delivered its content, made from the template as it was at the
start, to the path that is settled for it. It leaves the same file system whether or not it leaves a
file alone which holds its content already. -/
theorem generateFile_delivers (h : (g.generateFile cwd).run dir fs = (.ok (p, w), gs)) :
    (RoutesFile.path g.options).run dir fs = (.ok p, fs) ∧
      ∃ template content l, g.strategy.source.Has dir fs template ∧
        g.content cwd template = .ok content ∧
        FileSystem.Delivered dir p (Text.toBytes content) l fs gs ∧
        ∀ skip, ∃ v, ((g.sparing skip).generateFile cwd).run dir fs = (.ok (p, v), gs) := by
  obtain ⟨hpath, template, content, hsource, hcontent, hrun⟩ := run_generateFile_eq_ok_iff.1 h
  obtain ⟨hwrite, -⟩ := RoutesFile.run_write_eq_ok_iff.1 hrun
  obtain ⟨l, hl⟩ := FileSystem.delivered_of_write hwrite
  refine ⟨hpath, template, content, l, hsource, hcontent, hl, fun skip => ?_⟩
  obtain ⟨v, hv⟩ : ∃ v, v = false ↔ skip = true ∧ fs.read dir p = .ok (Text.toBytes content) := by
    by_cases hkept : skip = true ∧ fs.read dir p = .ok (Text.toBytes content)
    · exact ⟨false, by simp [hkept]⟩
    · exact ⟨true, by simp [hkept]⟩
  have hagain := RoutesFile.run_write_eq_ok_iff.2 ⟨hwrite, hv⟩
  exact ⟨v, run_generateFile_eq_ok_iff.2 ⟨hpath, template, content, hsource, hcontent, hagain⟩⟩

/-- A file system in which a link leads from the path of the module to a file that is not there. -/
def linkedFiles : FileSystem :=
  startingFiles.put "/src/routes.ts".toList (.link "../out.ts".toList)

theorem generateFile_delivers_linked :
    let gs := linkedFiles.put "/out.ts".toList (.file (Text.toBytes "x".toList))
    (emptyGenerator.generateFile []).run [] linkedFiles = (.ok ("src/routes.ts".toList, true), gs) ∧
    ∃ template content l, emptyGenerator.strategy.source.Has [] linkedFiles template ∧
      emptyGenerator.content [] template = .ok content ∧
      FileSystem.Delivered [] "src/routes.ts".toList (Text.toBytes content) l linkedFiles gs ∧
      ∀ skip, ∃ v, ((emptyGenerator.sparing skip).generateFile []).run [] linkedFiles =
        (.ok ("src/routes.ts".toList, v), gs) := by
  intro gs
  have hrun : (emptyGenerator.generateFile []).run [] linkedFiles =
      (.ok ("src/routes.ts".toList, true), gs) := rfl
  exact ⟨hrun, (generateFile_delivers hrun).2⟩

end Generator

end RouteModule
