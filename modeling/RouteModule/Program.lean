import RouteModule.FileSystem
import RouteModule.Metadata.Reader
import RouteModule.Options.Text
import RouteModule.Template.Output

/-!
Programs that read and write files. A program is a tree of the operations that it asks for, each
with what it does for every answer; `run` carries a program out on a file system value, and the
command line carries the same program out on a disk.
-/

namespace RouteModule

inductive OptionsFault where
  | noDirectory (routesDir : Text)
  | notDirectory (routesDir : Text)
  /-- A file name without one of the extensions that are allowed. -/
  | badExtension (allowed : List String) (fileName : Text)
  deriving DecidableEq, Repr

namespace OptionsFault

def message : OptionsFault → Text
  | noDirectory dir => "routesDir does not exist: ".toList ++ dir
  | notDirectory dir => "routesDir should be a directory: ".toList ++ dir
  | badExtension allowed name =>
    "routesFileName should be a valid typescript file (.".toList ++
      Text.join ", .".toList (allowed.map String.toList) ++ "): ".toList ++ name

end OptionsFault

/-- Why a program failed. -/
inductive Problem where
  | options (f : OptionsFault)
  | file (f : FileFault)
  | template (f : Template.Fault)
  /-- A file does not hold metadata. -/
  | metadata (r : Metadata.Refusal)
  /-- A file does not hold options. -/
  | document (format : Options.FileFormat) (f : Fault)
  deriving DecidableEq, Repr

namespace Problem

/-- The wording of a problem; documents that were refused have one only if the complaint is about
the data. -/
def message? : Problem → Option Text
  | options f => some ("Configuration error: ".toList ++ f.message)
  | file f => some ("I/O error: ".toList ++ f.message)
  | template f => some ("Template engine error: ".toList ++ f.message.toList)
  | metadata r => r.message?
  | document _ f => f.message?

def isRefusal : Problem → Bool
  | metadata _ => true
  | document _ _ => true
  | _ => false

end Problem

/-- A program with a result. -/
inductive Program (α : Type) where
  | done (a : α)
  | fail (p : Problem)
  /-- Asks what a path leads to. -/
  | kind (path : Text) (next : Except FileFault Kind → Program α)
  /-- Asks for the content of a file. -/
  | read (path : Text) (next : Except FileFault Bytes → Program α)
  /-- Sets the content of a file. -/
  | write (path : Text) (content : Bytes) (next : Except FileFault Unit → Program α)

namespace Program

def bind : Program α → (α → Program β) → Program β
  | done a, f => f a
  | fail p, _ => fail p
  | kind path next, f => kind path fun r => (next r).bind f
  | read path next, f => read path fun r => (next r).bind f
  | write path content next, f => write path content fun r => (next r).bind f

instance : Monad Program where
  pure := done
  bind := bind

theorem bind_done (p : Program α) : p.bind done = p := by
  induction p with
  | done a => rfl
  | fail e => rfl
  | kind path next ih =>
    rw [bind]
    congr 1
    funext r
    exact ih r
  | read path next ih =>
    rw [bind]
    congr 1
    funext r
    exact ih r
  | write path content next ih =>
    rw [bind]
    congr 1
    funext r
    exact ih r

theorem bind_bind (p : Program α) (f : α → Program β) (g : β → Program γ) :
    (p.bind f).bind g = p.bind fun a => (f a).bind g := by
  induction p with
  | done a => rfl
  | fail e => rfl
  | kind path next ih =>
    simp only [bind]
    congr 1
    funext r
    exact ih r
  | read path next ih =>
    simp only [bind]
    congr 1
    funext r
    exact ih r
  | write path content next ih =>
    simp only [bind]
    congr 1
    funext r
    exact ih r

instance : LawfulMonad Program := LawfulMonad.mk' Program bind_done (fun _ _ => rfl) bind_bind

/-- Turns the failure of a program into a result. -/
def attempt : Program α → Program (Except Problem α)
  | done a => done (.ok a)
  | fail p => done (.error p)
  | kind path next => kind path fun r => (next r).attempt
  | read path next => read path fun r => (next r).attempt
  | write path content next => write path content fun r => (next r).attempt

/-- What is there without asking. -/
def ofExcept : Except Problem α → Program α
  | .ok a => done a
  | .error p => fail p

/-- Reads a file that has to be there. -/
def readBytes (path : Text) : Program Bytes := read path fun
  | .ok content => done content
  | .error f => fail (.file f)

def readText (path : Text) : Program Text := do
  match Text.ofBytes? (← readBytes path) with
  | some t => done t
  | none => fail (.file .notText)

def writeText (path content : Text) : Program Unit := write path (Text.toBytes content) fun
  | .ok () => done ()
  | .error f => fail (.file f)

/-- Carries a program out in a directory of a file system: its result, and the file system
afterwards. -/
def run : Program α → Location → FileSystem → Except Problem α × FileSystem
  | done a, _, fs => (.ok a, fs)
  | fail p, _, fs => (.error p, fs)
  | kind path next, cwd, fs => (next (fs.kind cwd path)).run cwd fs
  | read path next, cwd, fs => (next (fs.read cwd path)).run cwd fs
  | write path content next, cwd, fs =>
    match fs.write cwd path content with
    | .ok gs => (next (.ok ())).run cwd gs
    | .error f => (next (.error f)).run cwd fs

@[simp] theorem run_pure (a : α) (cwd : Location) (fs : FileSystem) :
    (pure a : Program α).run cwd fs = (.ok a, fs) := rfl

/-- A program that goes on runs its first part, and then the rest where that left off. -/
theorem run_bind (p : Program α) (f : α → Program β) (cwd : Location) (fs : FileSystem) :
    (p >>= f).run cwd fs =
      match p.run cwd fs with
      | (.ok a, gs) => (f a).run cwd gs
      | (.error e, gs) => (.error e, gs) := by
  change (p.bind f).run cwd fs = _
  induction p generalizing fs with
  | done a => rfl
  | fail e => rfl
  | kind path next ih => exact ih _ fs
  | read path next ih => exact ih _ fs
  | write path content next ih =>
    simp only [bind, run]
    cases fs.write cwd path content with
    | ok gs => exact ih _ gs
    | error f => exact ih _ fs

/-- A program that goes on ends well just if both of its parts do. -/
theorem run_bind_eq_ok_iff {p : Program α} {f : α → Program β} {cwd : Location}
    {fs hs : FileSystem} {b : β} :
    (p >>= f).run cwd fs = (.ok b, hs) ↔
      ∃ a gs, p.run cwd fs = (.ok a, gs) ∧ (f a).run cwd gs = (.ok b, hs) := by
  rw [run_bind]
  constructor
  · intro h
    cases hp : p.run cwd fs with
    | mk r gs =>
      rw [hp] at h
      cases r with
      | ok a => exact ⟨a, gs, rfl, h⟩
      | error e => cases h
  · rintro ⟨a, gs, hp, hf⟩
    rw [hp]
    exact hf

theorem run_ofExcept_eq_ok_iff {r : Except Problem α} {cwd : Location} {fs gs : FileSystem} {a : α} :
    (ofExcept r).run cwd fs = (.ok a, gs) ↔ r = .ok a ∧ gs = fs := by
  cases r with
  | ok b =>
    simp only [ofExcept, run, Prod.mk.injEq, Except.ok.injEq]
    exact and_congr_right fun _ => eq_comm
  | error e => simp [ofExcept, run]

theorem run_ofExcept_mapError_eq_ok_iff {ε : Type} {r : Except ε α} {f : ε → Problem}
    {cwd : Location} {fs gs : FileSystem} {a : α} :
    (ofExcept (r.mapError f)).run cwd fs = (.ok a, gs) ↔ r = .ok a ∧ gs = fs := by
  cases r with
  | ok b =>
    have hmap : (Except.ok b : Except ε α).mapError f = .ok b := rfl
    rw [hmap, run_ofExcept_eq_ok_iff, Except.ok.injEq, Except.ok.injEq]
  | error e =>
    have hmap : (Except.error e : Except ε α).mapError f = .error (f e) := rfl
    rw [hmap, run_ofExcept_eq_ok_iff]
    simp

theorem run_attempt (p : Program α) (cwd : Location) (fs : FileSystem) :
    p.attempt.run cwd fs = (.ok (p.run cwd fs).1, (p.run cwd fs).2) := by
  induction p generalizing fs with
  | done a => rfl
  | fail e => rfl
  | kind path next ih => exact ih _ fs
  | read path next ih => exact ih _ fs
  | write path content next ih =>
    simp only [attempt, run]
    cases fs.write cwd path content with
    | ok gs => exact ih _ gs
    | error f => exact ih _ fs

end Program

end RouteModule
