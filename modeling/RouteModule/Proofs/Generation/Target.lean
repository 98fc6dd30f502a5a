import RouteModule.Proofs.FileSystem.Walk
import RouteModule.Proofs.Generation.Runs

/-!
Which problem the path of the file is refused with. A directory that is not there and a file in its
place are problems of the options, as is a name with another extension; whatever else keeps a path from
being followed is a problem with files.
-/

namespace RouteModule.RoutesFile

variable {o : Options} {dir : Location} {fs gs : FileSystem} {r : Except Problem Text}

/-- The file name has one of the extensions that are allowed. -/
def HasExtension (esm : Bool) (name : Text) : Prop :=
  ∃ e ∈ allowedExtensions esm, FilePath.extension? name = some e.toList

/-- What becomes of the path of the file. -/
inductive Verdict (fs : FileSystem) (dir : Location) (o : Options) : Except Problem Text → Prop where
  | reached (hdir : fs.Finds dir o.routesDir (.ok .directory))
    (hname : ∀ name, o.routesFileName = some name → HasExtension o.esm name) :
    Verdict fs dir o (.ok (FilePath.append o.routesDir o.fileName))
  | badExtension {name : Text} (hdir : fs.Finds dir o.routesDir (.ok .directory))
    (hname : o.routesFileName = some name) (hbad : ¬ HasExtension o.esm name) :
    Verdict fs dir o (.error (.options (.badExtension (allowedExtensions o.esm) name)))
  | occupied (hfile : fs.Finds dir o.routesDir (.ok .file)) :
    Verdict fs dir o (.error (.options (.notDirectory o.routesDir)))
  | missing (hnone : fs.Finds dir o.routesDir (.error .notFound)) :
    Verdict fs dir o (.error (.options (.noDirectory o.routesDir)))
  /-- The path could not be followed to where nothing is, either. -/
  | hindered {fault : FileFault} (hfault : fs.Finds dir o.routesDir (.error fault))
    (hne : fault ≠ .notFound) : Verdict fs dir o (.error (.file fault))

theorem ne_nil_of_mem_allowedExtensions {esm : Bool} {e : String} (h : e ∈ allowedExtensions esm) :
    e.toList ≠ [] := by
  have hall : ∀ e ∈ allowedExtensions esm, e.toList ≠ [] := by cases esm <;> decide
  exact hall e h

/-- A name is allowed if it has one of the extensions. -/
theorem isAllowed_iff {esm : Bool} {name : Text} :
    isAllowed esm name = true ↔ HasExtension esm name := by
  have hext : ∀ e ∈ allowedExtensions esm, (e.toList = (FilePath.extension? name).getD [] ↔
      FilePath.extension? name = some e.toList) := by
    intro e he
    cases hname : FilePath.extension? name with
    | none => simpa using ne_nil_of_mem_allowedExtensions he
    | some ext => simp [eq_comm]
  rw [isAllowed, List.any_eq_true, HasExtension]
  refine exists_congr fun e => and_congr_right fun he => ?_
  rw [decide_eq_true_iff]
  exact hext e he

/-- The check of the directory leaves the file system as it is. -/
theorem run_checkDirectory (path : Text) :
    (checkDirectory path).run dir fs = (match fs.kind dir path with
      | .ok .directory => .ok ()
      | .ok .file => .error (.options (.notDirectory path))
      | .error .notFound => .error (.options (.noDirectory path))
      | .error f => .error (.file f), fs) := by
  unfold checkDirectory
  rw [Program.run]
  cases fs.kind dir path with
  | ok k => cases k <;> rfl
  | error f => cases f <;> rfl

/-- The name is checked where the directory is there. -/
theorem run_path_of_directory (h : fs.kind dir o.routesDir = .ok .directory) :
    (path o).run dir fs =
      ((checkName o).map fun _ => FilePath.append o.routesDir o.fileName, fs) := by
  rw [path, Program.run_bind, run_checkDirectory, h]
  simp only
  cases hname : checkName o with
  | ok u => rfl
  | error e => rfl

/-- What the directory is refused with the path is refused with. -/
theorem run_path_of_error {e : Problem}
    (h : (checkDirectory o.routesDir).run dir fs = (.error e, fs)) :
    (path o).run dir fs = (.error e, fs) := by
  rw [path, Program.run_bind, h]

/-- A path leads to its verdict. -/
theorem Verdict.run_eq (h : Verdict fs dir o r) : (path o).run dir fs = (r, fs) := by
  cases h with
  | reached hdir hname =>
    have hok : checkName o = .ok () := by
      unfold checkName
      cases hset : o.routesFileName with
      | none => rfl
      | some name => simp [isAllowed_iff.2 (hname name hset)]
    rw [run_path_of_directory (FileSystem.kind_eq_iff.2 hdir), hok]
    rfl
  | @badExtension name hdir hname hbad =>
    have hrefused : checkName o =
        .error (.options (.badExtension (allowedExtensions o.esm) name)) := by
      unfold checkName
      rw [hname]
      exact if_neg fun hallowed => hbad (isAllowed_iff.1 hallowed)
    rw [run_path_of_directory (FileSystem.kind_eq_iff.2 hdir), hrefused]
    rfl
  | occupied hfile =>
    refine run_path_of_error ?_
    rw [run_checkDirectory, FileSystem.kind_eq_iff.2 hfile]
  | missing hnone =>
    refine run_path_of_error ?_
    rw [run_checkDirectory, FileSystem.kind_eq_iff.2 hnone]
  | @hindered fault hfault hne =>
    refine run_path_of_error ?_
    rw [run_checkDirectory, FileSystem.kind_eq_iff.2 hfault]
    cases fault with
    | notFound => exact absurd rfl hne
    | _ => rfl

theorem exists_verdict (fs : FileSystem) (dir : Location) (o : Options) :
    ∃ r, Verdict fs dir o r := by
  have hfinds : fs.Finds dir o.routesDir (fs.kind dir o.routesDir) := FileSystem.kind_eq_iff.1 rfl
  cases hkind : fs.kind dir o.routesDir with
  | error fault =>
    rw [hkind] at hfinds
    by_cases hne : fault = .notFound
    · subst hne
      exact ⟨_, .missing hfinds⟩
    · exact ⟨_, .hindered hfinds hne⟩
  | ok k =>
    rw [hkind] at hfinds
    cases k with
    | file => exact ⟨_, .occupied hfinds⟩
    | directory =>
      by_cases hname : ∀ name, o.routesFileName = some name → HasExtension o.esm name
      · exact ⟨_, .reached hfinds hname⟩
      · obtain ⟨name, hfails⟩ := Classical.not_forall.1 hname
        obtain ⟨hset, hbad⟩ := Classical.not_imp.1 hfails
        exact ⟨_, .badExtension hfinds hset hbad⟩

/-- Settling the path of the file changes nothing and comes to its verdict: a path where the directory
is reached and the name has an extension that is allowed; a problem of the options where nothing is at
the end of the way, or a file, or where the extension is another one; and a problem with files just
where a path is refused as it stands, a file blocks the way, a name is too long or links lead on and
on. -/
theorem run_path_iff (o : Options) (dir : Location) (fs gs : FileSystem) (r : Except Problem Text) :
    (path o).run dir fs = (r, gs) ↔ Verdict fs dir o r ∧ gs = fs := by
  constructor
  · intro h
    obtain ⟨s, hs⟩ := exists_verdict fs dir o
    have heq := hs.run_eq.symm.trans h
    cases heq
    exact ⟨hs, rfl⟩
  · rintro ⟨hverdict, rfl⟩
    exact hverdict.run_eq

/-- A directory whose path leads through a file. -/
def blockedOptions : Options := Options.ofRoutesDir "own/sub".toList

/-- A file on the way is told as a problem with files. -/
theorem path_blocked_by_file :
    (path blockedOptions).run [] startingFiles = (.error (.file .notDirectory), startingFiles) ∧
    ¬ ∃ f, ((path blockedOptions).run [] startingFiles).1 = .error (.options f) := by
  have hrun : (path blockedOptions).run [] startingFiles =
      (.error (.file .notDirectory), startingFiles) := rfl
  refine ⟨hrun, ?_⟩
  rw [hrun]
  simp

end RouteModule.RoutesFile
