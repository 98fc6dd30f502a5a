import RouteModule.Proofs.FileSystem.Lexical
import RouteModule.Proofs.Generation.Independence
import RouteModule.Proofs.Generation.Target

/-!
Whether a generator stays in its directory. The name of its file is put behind the directory as any
path is: nothing keeps it from climbing out of the directory or from starting at the root, and only its
extension is looked at. Whether the file lies in the directory is a matter of where the name leads.
-/

namespace RouteModule

namespace FilePath

variable {cwd dir path name : Text} {place : List Text}

/-- By its parts, a path lies below a directory. -/
def Inside (cwd dir path : Text) : Prop :=
  ∃ rest, rest ≠ [] ∧ lexical (absolute cwd path) = lexical (absolute cwd dir) ++ rest

/-- A name that is put behind a directory leads to a place below it. One that starts at the root has
to lead there by itself; any other one has to come down again through the directories that it climbs
out of, and has to go on behind them. -/
def StaysBelow (place : List Text) (name : Text) : Prop :=
  if isAbsolute name then ∃ rest, rest ≠ [] ∧ lexical name = place ++ rest
  else
    let way := course (parts name)
    ∃ rest, rest ≠ [] ∧ way.down = place.drop (place.length - way.up) ++ rest

/-- A name stays below a place if it leads below it from there. -/
theorem staysBelow_iff :
    StaysBelow place name ↔
      ∃ rest, rest ≠ [] ∧
        walk (if isAbsolute name then [] else place) (parts name) = place ++ rest := by
  rw [StaysBelow]
  cases isAbsolute name with
  | true => rfl
  | false =>
    simp only [Bool.false_eq_true, if_false, walk_eq place, Course.leadFrom]
    generalize place.length - (course (parts name)).up = n
    have hplace : ∀ rest, place ++ rest = place.take n ++ (place.drop n ++ rest) := by
      intro rest
      rw [← List.append_assoc, List.take_append_drop]
    simp only [hplace, List.append_cancel_left_eq]

/-- A name that does not climb stays below any place. -/
theorem staysBelow_of_up_eq_zero {ext : Text} (hext : extension? name = some ext)
    (hname : isAbsolute name = false) (hup : (course (parts name)).up = 0) (place : List Text) :
    StaysBelow place name := by
  obtain ⟨⟨before, last⟩, hlast, -⟩ := Option.bind_eq_some_iff.1 hext
  have hne : last ≠ up := (lastName?_eq_some_iff.1 hlast).2.2
  have hdown : (course (parts name)).down ≠ [] := by
    rw [parts_of_lastName? hlast, down_course_append hne]
    simp
  simp [StaysBelow, hname, hup, hdown]

/-- A path that is made of a directory and a name lies below the directory if the name stays there. -/
theorem inside_append_iff (cwd : Text) (hdir : dir ≠ []) (hname : name ≠ []) :
    Inside cwd dir (append dir name) ↔ StaysBelow (lexical (absolute cwd dir)) name := by
  have hwhole : lexical (absolute cwd (append dir name)) =
      walk (if isAbsolute name then [] else lexical (absolute cwd dir)) (parts name) := by
    cases habsolute : isAbsolute name with
    | true =>
      rw [append_absolute dir habsolute, lexical, parts_absolute cwd hname, habsolute]
      rfl
    | false =>
      have hparts : parts (absolute cwd (append dir name)) =
          parts (absolute cwd dir) ++ parts name := by
        rw [parts_absolute cwd (append_ne_nil hdir), isAbsolute_append hdir habsolute,
          parts_append dir habsolute, ← List.append_assoc, ← parts_absolute cwd hdir]
      rw [lexical, hparts, walk_append]
      rfl
  rw [Inside, hwhole, staysBelow_iff]

end FilePath

namespace RoutesFile

variable {o : Options} {dir : Location} {fs gs : FileSystem} {p : Text}

/-- A name that is allowed has one of the extensions. -/
theorem extension?_of_checkName (h : checkName o = .ok ()) :
    ∃ e ∈ allowedExtensions o.esm, FilePath.extension? o.fileName = some e.toList := by
  have hallowed : isAllowed o.esm o.fileName = true := by
    unfold checkName at h
    unfold Options.fileName
    cases hname : o.routesFileName with
    | none => cases o.esm <;> rfl
    | some name =>
      cases hok : isAllowed o.esm name with
      | true => exact hok
      | false => simp [hname, hok] at h
  exact isAllowed_iff.1 hallowed

/-- The path of a file has one of the extensions that are allowed. By its parts it lies below the
directory of the options exactly if the name of the file stays there, which it does if it neither
starts at the root nor climbs. A generation changes nothing but what is where the path leads; as long
as the name meets no link, that is below the directory exactly if the name stays there. -/
theorem path_confined (hdir : dir.IsPlace) (h : (path o).run dir fs = (.ok p, gs)) :
    (∃ e ∈ allowedExtensions o.esm, FilePath.extension? p = some e.toList) ∧
    (FilePath.Inside dir o.routesDir p ↔
      FilePath.StaysBelow (FilePath.lexical (FilePath.absolute dir o.routesDir)) o.fileName) ∧
    (FilePath.isAbsolute o.fileName = false →
      (FilePath.course (FilePath.parts o.fileName)).up = 0 → FilePath.Inside dir o.routesDir p) ∧
    ∃ ds b, (∀ n ∈ ds, '/' ∉ n) ∧
      fs.resolve false dir o.routesDir = .ok (.directory (Location.ofNames ds), b) ∧
      ∀ c : Call, c.generator.options = o → ∀ cwd w hs, (c.program cwd).run dir fs = (.ok w, hs) →
        ∃ l, fs.LeadsTo dir p l ∧ (∀ m, m ≠ l → hs.get? m = fs.get? m) ∧
          ∀ place, fs.advance false
              (if FilePath.isAbsolute o.fileName then [] else Location.ofNames ds)
              (FileSystem.names o.fileName) = .arrived place →
            ((Location.ofNames ds).Encloses l ↔ FilePath.StaysBelow ds o.fileName) := by
  obtain ⟨⟨hkind, hname⟩, rfl, rfl⟩ := run_path_eq_ok_iff.1 h
  obtain ⟨e, he, hext⟩ := extension?_of_checkName hname
  obtain ⟨m, b, hresolve⟩ := FileSystem.kind_eq_directory_iff.1 hkind
  obtain ⟨ds, hds, rfl⟩ : m.IsPlace := FileSystem.isPlace_of_resolve hdir hresolve
  have hroutes : o.routesDir ≠ [] := (FileSystem.resolve_eq_ok_iff.1 hresolve).1.2.1
  have hparts : FilePath.parts o.fileName ≠ [] := FilePath.parts_ne_nil_of_extension? hext
  have hfile : o.fileName ≠ [] := fun hnil => hparts (by rw [hnil]; rfl)
  have hinside := FilePath.inside_append_iff dir hroutes hfile
  refine ⟨⟨e, he, FilePath.extension?_append o.routesDir hext⟩, hinside, ?_,
    ds, b, hds, hresolve, ?_⟩
  · intro hrelative hup
    exact hinside.2 (FilePath.staysBelow_of_up_eq_zero hext hrelative hup _)
  · intro c hc cwd w hs hrun
    obtain ⟨-, content, -, -, -, hwrite, -⟩ := Call.run_eq_ok_iff_write.1 hrun
    rw [Call.target, hc] at hwrite
    obtain ⟨found, hfound, -, rfl⟩ := FileSystem.write_eq_ok_iff.1 hwrite
    refine ⟨found.location, ⟨found, false, hfound, rfl⟩, ?_, ?_⟩
    · intro m hm
      exact FileSystem.get?_put_other gs _ hm
    · intro place hplace
      have hnames : FileSystem.names o.fileName ≠ [] := by
        intro hnil
        rw [FilePath.parts_eq_names, hnil] at hparts
        exact hparts rfl
      have hwalk : ∀ n ∈ FilePath.walk (if FilePath.isAbsolute o.fileName then [] else ds)
          (FilePath.parts o.fileName), '/' ∉ n := by
        refine FilePath.solid_walk ?_ fun n hn => (FilePath.isPart_of_mem hn).solid
        split
        · simp
        · exact hds
      rw [FileSystem.location_of_append hresolve hds hnames hfound hplace,
        Location.encloses_ofNames_iff hds hwalk, FilePath.staysBelow_iff]

/-- A name that climbs out of its directory and comes back. -/
def returningOptions : Options :=
  { emptyGenerator.options with routesFileName := some "../src/routes.ts".toList }

/-- A name that comes back to its directory stays there, and what is written lies below it. -/
theorem path_confined_returning :
    let p := "src/../src/routes.ts".toList
    let c := Call.generate ⟨⟨[], []⟩, returningOptions⟩
    Location.IsPlace [] ∧ (path returningOptions).run [] startingFiles = (.ok p, startingFiles) ∧
    FilePath.Inside [] "src".toList p ∧
    ∃ hs l, (c.program []).run [] startingFiles = (.ok true, hs) ∧
      startingFiles.LeadsTo [] p l ∧ Location.Encloses "/src".toList l ∧
      ∀ m, m ≠ l → hs.get? m = startingFiles.get? m := by
  intro p c
  have hrun : (path returningOptions).run [] startingFiles = (.ok p, startingFiles) := rfl
  have hcall : (c.program []).run [] startingFiles = (.ok true,
      startingFiles.put "/src/routes.ts".toList (.file (Text.toBytes "x".toList))) := rfl
  have hdir : startingFiles.resolve false [] "src".toList =
      .ok (.directory "/src".toList, false) := rfl
  have hmet : startingFiles.advance false "/src".toList (FileSystem.names returningOptions.fileName) =
      .arrived (.absent "/src/routes.ts".toList) := rfl
  obtain ⟨-, hinside, -, ds, b, hds, hresolve, hcalls⟩ := path_confined Location.isPlace_root hrun
  obtain ⟨l, hleads, hother, hbelow⟩ := hcalls c rfl [] true _ hcall
  have hplace : "/src".toList = Location.ofNames ds := by
    have heq := hdir.symm.trans hresolve
    simp only [Except.ok.injEq, Prod.mk.injEq, FileSystem.Place.directory.injEq] at heq
    exact heq.1
  have hnames : ds = ["src".toList] := by
    have hsplit := Location.splitAt_ofNames hds []
    rw [← hplace] at hsplit
    exact (List.cons.inj hsplit).2.symm
  have hstays : FilePath.StaysBelow ["src".toList] returningOptions.fileName :=
    ⟨["routes.ts".toList], by simp, rfl⟩
  refine ⟨Location.isPlace_root, hrun, hinside.2 hstays, _, l, hcall, hleads, ?_, hother⟩
  rw [← hplace] at hbelow
  exact (hbelow _ hmet).2 (hnames ▸ hstays)

/-- A name that climbs out of its directory. -/
def climbingOptions : Options :=
  { emptyGenerator.options with routesFileName := some "../out.ts".toList }

/-- A name that climbs is not refused, and the file is written beside the directory. -/
theorem climbing_path_escapes :
    let p := "src/../out.ts".toList
    let c := Call.generate ⟨⟨[], []⟩, climbingOptions⟩
    (path climbingOptions).run [] startingFiles = (.ok p, startingFiles) ∧
    ¬ FilePath.Inside [] "src".toList p ∧
    (c.program []).run [] startingFiles =
      (.ok true, startingFiles.put "/out.ts".toList (.file (Text.toBytes "x".toList))) ∧
    startingFiles.get? "/out.ts".toList = none ∧
    ¬ Location.Encloses "/src".toList "/out.ts".toList := by
  refine ⟨rfl, ?_, rfl, rfl, ?_⟩
  · rintro ⟨rest, -, h⟩
    have hnames : ["out.ts".toList] = ["src".toList] ++ rest := h
    exact absurd (List.cons.inj hnames).1 (by decide)
  · rintro ⟨rest, -, h⟩
    have hnames : [[], "out.ts".toList] = [[], "src".toList] ++ rest := h
    exact absurd (List.cons.inj (List.cons.inj hnames).2).1 (by decide)

end RoutesFile

end RouteModule
