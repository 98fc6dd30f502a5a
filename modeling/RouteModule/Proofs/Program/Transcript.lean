import RouteModule.Program

/-!
Programs on disks of any kind. A transcript holds what a program asked a disk for, its result, and the
state in which it left the disk; the run of a program on a file system value is the case of a disk
whose states are file systems.
-/

namespace RouteModule

/-- An operation that a program asks for. -/
inductive Request where
  | kind (path : Text)
  | read (path : Text)
  | write (path : Text) (content : Bytes)
  deriving DecidableEq, Repr

/-- A disk: what it answers in each of its states, and the state that a write leads to, whether it
fails or not. Looking changes nothing. -/
structure Disk (σ : Type) where
  kind : σ → Text → Except FileFault Kind
  read : σ → Text → Except FileFault Bytes
  write : σ → Text → Bytes → Except FileFault Unit × σ

/-- A write that fails does so before anything has changed. -/
def Disk.FailsBeforeWriting {σ : Type} (d : Disk σ) : Prop :=
  ∀ s path content f, (d.write s path content).1 = .error f → (d.write s path content).2 = s

/-- The disk of file systems that are seen from a directory. -/
def FileSystem.disk (dir : Location) : Disk FileSystem where
  kind fs := fs.kind dir
  read fs := fs.read dir
  write fs path content :=
    match fs.write dir path content with
    | .ok gs => (.ok (), gs)
    | .error f => (.error f, fs)

theorem FileSystem.failsBeforeWriting_disk (dir : Location) : (disk dir).FailsBeforeWriting := by
  intro fs path content f h
  simp only [disk] at h ⊢
  cases hwrite : fs.write dir path content with
  | ok gs => simp [hwrite] at h
  | error f => rfl

/-- What a program did: what it asked for in order, its result, and the state that it left. -/
structure Transcript (σ α : Type) where
  requests : List Request
  result : Except Problem α
  after : σ

namespace Transcript

variable {σ α β : Type}

/-- A transcript with one more request in front. -/
def behind (r : Request) (t : Transcript σ α) : Transcript σ α :=
  { t with requests := r :: t.requests }

/-- What comes of a transcript when there is something to do with its result. -/
def andThen (t : Transcript σ α) (next : α → σ → Transcript σ β) : Transcript σ β :=
  match t.result with
  | .ok a => ⟨t.requests ++ (next a t.after).requests, (next a t.after).result, (next a t.after).after⟩
  | .error e => ⟨t.requests, .error e, t.after⟩

theorem andThen_behind (r : Request) (t : Transcript σ α) (next : α → σ → Transcript σ β) :
    (t.behind r).andThen next = (t.andThen next).behind r := by
  obtain ⟨requests, result, after⟩ := t
  cases result with
  | ok a => rfl
  | error e => rfl

@[simp] theorem andThen_ok (requests : List Request) (a : α) (s : σ)
    (next : α → σ → Transcript σ β) :
    (⟨requests, .ok a, s⟩ : Transcript σ α).andThen next =
      ⟨requests ++ (next a s).requests, (next a s).result, (next a s).after⟩ := rfl

@[simp] theorem andThen_error (requests : List Request) (e : Problem) (s : σ)
    (next : α → σ → Transcript σ β) :
    (⟨requests, .error e, s⟩ : Transcript σ α).andThen next = ⟨requests, .error e, s⟩ := rfl

end Transcript

namespace Program

variable {σ α β : Type}

/-- Carries a program out on a disk. -/
def transcript (d : Disk σ) : Program α → σ → Transcript σ α
  | done a, s => ⟨[], .ok a, s⟩
  | fail p, s => ⟨[], .error p, s⟩
  | kind path next, s => ((next (d.kind s path)).transcript d s).behind (.kind path)
  | read path next, s => ((next (d.read s path)).transcript d s).behind (.read path)
  | write path content next, s =>
    ((next (d.write s path content).1).transcript d (d.write s path content).2).behind
      (.write path content)

@[simp] theorem transcript_pure (d : Disk σ) (a : α) (s : σ) :
    (pure a : Program α).transcript d s = ⟨[], .ok a, s⟩ := rfl

@[simp] theorem transcript_ofExcept (d : Disk σ) (r : Except Problem α) (s : σ) :
    (ofExcept r).transcript d s = ⟨[], r, s⟩ := by
  cases r with
  | ok a => rfl
  | error e => rfl

theorem transcript_bind (d : Disk σ) (p : Program α) (f : α → Program β) (s : σ) :
    (p >>= f).transcript d s = (p.transcript d s).andThen fun a s' => (f a).transcript d s' := by
  change (p.bind f).transcript d s = _
  induction p generalizing s with
  | done a => rfl
  | fail e => rfl
  | kind path next ih =>
    simp only [bind, transcript, ih, Transcript.andThen_behind]
  | read path next ih =>
    simp only [bind, transcript, ih, Transcript.andThen_behind]
  | write path content next ih =>
    simp only [bind, transcript, ih, Transcript.andThen_behind]

/-- A run on a file system is a transcript without what was asked for. -/
theorem run_eq_transcript (p : Program α) (dir : Location) (fs : FileSystem) :
    p.run dir fs = ((p.transcript (FileSystem.disk dir) fs).result,
      (p.transcript (FileSystem.disk dir) fs).after) := by
  induction p generalizing fs with
  | done a => rfl
  | fail e => rfl
  | kind path next ih => exact ih _ fs
  | read path next ih => exact ih _ fs
  | write path content next ih =>
    simp only [run, transcript, FileSystem.disk]
    cases fs.write dir path content with
    | ok gs => exact ih _ gs
    | error f => exact ih _ fs

/-- The program leaves every disk as it is. -/
def LeavesAlone (p : Program α) : Prop :=
  ∀ (σ : Type) (d : Disk σ) (s : σ), (p.transcript d s).after = s

/-- Where the program fails on a disk, it leaves it as it is. -/
def AllOrNothing (p : Program α) (d : Disk σ) : Prop :=
  ∀ s e, (p.transcript d s).result = .error e → (p.transcript d s).after = s

/-- A run that fails leaves the file system as it is. -/
theorem AllOrNothing.run {p : Program α} {dir : Location}
    (h : p.AllOrNothing (FileSystem.disk dir)) {fs gs : FileSystem} {e : Problem}
    (hrun : p.run dir fs = (.error e, gs)) : gs = fs := by
  rw [run_eq_transcript, Prod.mk.injEq] at hrun
  obtain ⟨hresult, rfl⟩ := hrun
  exact h fs e hresult

/-- A run that changes nothing leaves the file system as it is. -/
theorem LeavesAlone.run {p : Program α} (h : p.LeavesAlone) {dir : Location}
    {fs gs : FileSystem} {r : Except Problem α} (hrun : p.run dir fs = (r, gs)) : gs = fs := by
  rw [run_eq_transcript, Prod.mk.injEq] at hrun
  obtain ⟨-, rfl⟩ := hrun
  exact h FileSystem (FileSystem.disk dir) fs

theorem LeavesAlone.allOrNothing {p : Program α} (h : p.LeavesAlone) (d : Disk σ) :
    p.AllOrNothing d :=
  fun s _ _ => h σ d s

theorem leavesAlone_pure (a : α) : (pure a : Program α).LeavesAlone := fun _ _ _ => rfl

theorem leavesAlone_ofExcept (r : Except Problem α) : (ofExcept r).LeavesAlone := by
  intro σ d s
  rw [transcript_ofExcept]

theorem LeavesAlone.bind {p : Program α} {f : α → Program β} (hp : p.LeavesAlone)
    (hf : ∀ a, (f a).LeavesAlone) : (p >>= f).LeavesAlone := by
  intro σ d s
  rw [transcript_bind, Transcript.andThen]
  have hs := hp σ d s
  split
  · next a _ =>
    rw [hs]
    exact hf a σ d s
  · exact hs

/-- A program fails as a whole if only its last part changes anything, and that part fails as a
whole. -/
theorem AllOrNothing.bind {d : Disk σ} {p : Program α} {f : α → Program β} (hp : p.LeavesAlone)
    (hf : ∀ a, (f a).AllOrNothing d) : (p >>= f).AllOrNothing d := by
  intro s e
  rw [transcript_bind, Transcript.andThen]
  have hs := hp σ d s
  split
  · next a _ =>
    rw [hs]
    exact hf a s e
  · exact fun _ => hs

/-- What is done with a result makes no difference to a failure. -/
theorem AllOrNothing.bind_pure {d : Disk σ} {p : Program α} (hp : p.AllOrNothing d) (f : α → β) :
    (p >>= fun a => pure (f a)).AllOrNothing d := by
  intro s e
  rw [transcript_bind, Transcript.andThen]
  split
  · intro h
    cases h
  · next e' he => exact fun _ => hp s e' he

end Program

end RouteModule
