import Mathlib.Logic.Relation
import RouteModule.Proofs.FileSystem.Put

/-!
How a path is followed, name by name. A step is what one name does to a walk: it stays, climbs, enters
a directory or goes through a link. Where no step is possible the walk ends, and there is one thing
that it can end with. What a path is found to be is what its walk ends with.
-/

namespace RouteModule.FileSystem

/-- Somebody on the way along a path: the directory that they are in, the names ahead of them, the
number of links that they went through, and whether the end has to be a directory. -/
structure Walk where
  dir : Location
  ahead : List Text
  links : Nat
  asDirectory : Bool

namespace Walk

/-- A name that is looked up in a directory. -/
structure LookedUp (name : Text) : Prop where
  ne_dot : name ≠ ['.']
  ne_up : name ≠ FilePath.up
  short : Text.byteLength name ≤ nameLimit

/-- What one name does to a walk. -/
inductive Step (fs : FileSystem) : Walk → Walk → Prop where
  | stay (dir : Location) (rest : List Text) (n : Nat) (b : Bool) :
    Step fs ⟨dir, ['.'] :: rest, n, b⟩ ⟨dir, rest, n, b⟩
  | climb (dir : Location) (rest : List Text) (n : Nat) (b : Bool) :
    Step fs ⟨dir, FilePath.up :: rest, n, b⟩ ⟨dir.parent, rest, n, b⟩
  | enter {dir : Location} {name : Text} (rest : List Text) (n : Nat) (b : Bool)
    (hname : LookedUp name) (h : fs.get? (dir.child name) = some .directory) :
    Step fs ⟨dir, name :: rest, n, b⟩ ⟨dir.child name, rest, n, b⟩
  | link {dir : Location} {name target : Text} (rest : List Text) {n : Nat} (b : Bool)
    (hname : LookedUp name) (h : fs.get? (dir.child name) = some (.link target))
    (hlinks : n < linkLimit) :
    Step fs ⟨dir, name :: rest, n, b⟩ ⟨base dir target, FileSystem.names target ++ rest, n + 1,
      b || (rest = [] && meansDirectory target)⟩

/-- A walk comes to be another one. -/
abbrev Leads (fs : FileSystem) : Walk → Walk → Prop := Relation.ReflTransGen (Step fs)

/-- What a walk that takes no step ends with. -/
inductive Ends (fs : FileSystem) : Walk → Except FileFault Kind → Prop where
  | directory (dir : Location) (n : Nat) (b : Bool) : Ends fs ⟨dir, [], n, b⟩ (.ok .directory)
  | file {dir : Location} {name : Text} {content : Bytes} (n : Nat) (hname : LookedUp name)
    (h : fs.get? (dir.child name) = some (.file content)) :
    Ends fs ⟨dir, [name], n, false⟩ (.ok .file)
  | absent {dir : Location} {name : Text} (rest : List Text) (n : Nat) (b : Bool)
    (hname : LookedUp name) (h : fs.get? (dir.child name) = none) :
    Ends fs ⟨dir, name :: rest, n, b⟩ (.error .notFound)
  /-- A file stands where a directory has to be. -/
  | blocked {dir : Location} {name : Text} {content : Bytes} {rest : List Text} (n : Nat) {b : Bool}
    (hname : LookedUp name) (h : fs.get? (dir.child name) = some (.file content))
    (hmore : rest ≠ [] ∨ b = true) :
    Ends fs ⟨dir, name :: rest, n, b⟩ (.error .notDirectory)
  | long (dir : Location) {name : Text} (rest : List Text) (n : Nat) (b : Bool)
    (hname : nameLimit < Text.byteLength name) :
    Ends fs ⟨dir, name :: rest, n, b⟩ (.error .nameTooLong)
  | tired {dir : Location} {name target : Text} (rest : List Text) {n : Nat} (b : Bool)
    (hname : LookedUp name) (h : fs.get? (dir.child name) = some (.link target))
    (hlinks : linkLimit ≤ n) :
    Ends fs ⟨dir, name :: rest, n, b⟩ (.error .linkLoop)

/-- What following the names ahead finds. -/
def outcome (fs : FileSystem) (w : Walk) : Except FileFault Kind :=
  match fs.follow false (linkLimit - w.links) w.asDirectory w.dir w.ahead with
  | .ok (.directory _, _) => .ok .directory
  | .ok (.file _ _, false) => .ok .file
  | .ok (.file _ _, true) => .error .notDirectory
  | .ok (.absent _, _) => .error .notFound
  | .error fault => .error fault

variable {fs : FileSystem} {w v : Walk} {name : Text} {r : Except FileFault Kind}

theorem ne_of_long {short : Text} (hshort : Text.byteLength short ≤ nameLimit)
    (h : nameLimit < Text.byteLength name) : name ≠ short := by
  rintro rfl
  omega

/-- Names are followed as those that they come to without a link. -/
theorem outcome_of_advance {dir other : Location} {names rest : List Text}
    (h : fs.advance false dir names = fs.advance false other rest) (n : Nat) (b : Bool) :
    outcome fs ⟨dir, names, n, b⟩ = outcome fs ⟨other, rest, n, b⟩ := by
  have hfollow : fs.follow false (linkLimit - n) b dir names =
      fs.follow false (linkLimit - n) b other rest := by
    rw [follow, follow, Bool.false_and, h]
  rw [outcome, outcome, hfollow]

/-- A name that is looked up is followed to what is there. -/
theorem LookedUp.advance (h : LookedUp name) (dir : Location) (rest : List Text) :
    fs.advance false dir (name :: rest) =
      match fs.get? (dir.child name) with
      | none => if rest = [] then .arrived (.absent (dir.child name)) else .failed .notFound
      | some .directory => fs.advance false (dir.child name) rest
      | some (.file content) =>
        if rest = [] then .arrived (.file (dir.child name) content) else .failed .notDirectory
      | some (.link target) => .linked dir target rest := by
  have hless : ¬ nameLimit < Text.byteLength name := Nat.not_lt.2 h.short
  rw [FileSystem.advance]
  exact (if_neg h.ne_dot).trans ((if_neg h.ne_up).trans ((if_neg (by simp)).trans (if_neg hless)))

/-- A step does not change what is found. -/
theorem Step.outcome_eq (h : Step fs w v) : w.outcome fs = v.outcome fs := by
  cases h with
  | stay dir rest n b =>
    refine outcome_of_advance ?_ n b
    rw [FileSystem.advance, if_pos rfl]
  | climb dir rest n b =>
    refine outcome_of_advance ?_ n b
    rw [FileSystem.advance, if_neg (by decide), if_pos rfl]
  | enter rest n b hname h =>
    refine outcome_of_advance ?_ n b
    rw [hname.advance, h]
  | @link dir name target rest n b hname h hlinks =>
    have hleft : linkLimit - n = linkLimit - (n + 1) + 1 := by omega
    simp only [outcome]
    rw [hleft, follow, Bool.false_and, hname.advance, h]

/-- A walk that takes no step has found what it ends with. -/
theorem Ends.outcome_eq (h : Ends fs w r) : w.outcome fs = r := by
  cases h with
  | directory dir n b =>
    rw [outcome, follow]
    rfl
  | file n hname h =>
    rw [outcome, follow, Bool.false_and, hname.advance, h]
    simp
  | absent rest n b hname h =>
    rw [outcome, follow, Bool.false_and, hname.advance, h]
    by_cases hrest : rest = []
    · simp [hrest]
    · simp [hrest]
  | @blocked dir name content rest n b hname h hmore =>
    rw [outcome, follow, Bool.false_and, hname.advance, h]
    by_cases hrest : rest = []
    · have hb : b = true := hmore.resolve_left (by simp [hrest])
      simp [hrest, hb]
    · simp [hrest]
  | @long dir name rest n b hname =>
    have hdot : name ≠ ['.'] := ne_of_long (by decide) hname
    have hup : name ≠ FilePath.up := ne_of_long (by decide) hname
    rw [outcome, follow, Bool.false_and, FileSystem.advance, if_neg hdot, if_neg hup,
      if_neg (by simp), if_pos hname]
  | @tired dir name target rest n b hname h hlinks =>
    have hnone : linkLimit - n = 0 := by omega
    simp only [outcome]
    rw [hnone, follow, Bool.false_and, hname.advance, h]

/-- A walk takes a step or ends. -/
theorem step_or_ends (fs : FileSystem) (w : Walk) :
    (∃ v, Step fs w v ∧ (v.links = w.links + 1 ∧ w.links < linkLimit ∨
      v.links = w.links ∧ v.ahead.length < w.ahead.length)) ∨ ∃ r, Ends fs w r := by
  obtain ⟨dir, ahead, n, b⟩ := w
  cases ahead with
  | nil => exact .inr ⟨_, .directory dir n b⟩
  | cons name rest =>
    by_cases hdot : name = ['.']
    · subst hdot
      exact .inl ⟨_, .stay dir rest n b, .inr ⟨rfl, by simp⟩⟩
    by_cases hup : name = FilePath.up
    · subst hup
      exact .inl ⟨_, .climb dir rest n b, .inr ⟨rfl, by simp⟩⟩
    by_cases hlong : nameLimit < Text.byteLength name
    · exact .inr ⟨_, .long dir rest n b hlong⟩
    have hname : LookedUp name := ⟨hdot, hup, Nat.not_lt.1 hlong⟩
    cases hget : fs.get? (dir.child name) with
    | none => exact .inr ⟨_, .absent rest n b hname hget⟩
    | some entry =>
      cases entry with
      | directory => exact .inl ⟨_, .enter rest n b hname hget, .inr ⟨rfl, by simp⟩⟩
      | link target =>
        by_cases hlinks : n < linkLimit
        · exact .inl ⟨_, .link rest b hname hget hlinks, .inl ⟨rfl, hlinks⟩⟩
        · exact .inr ⟨_, .tired rest b hname hget (Nat.not_lt.1 hlinks)⟩
      | file content =>
        by_cases hmore : rest ≠ [] ∨ b = true
        · exact .inr ⟨_, .blocked n hname hget hmore⟩
        · obtain ⟨rfl, rfl⟩ : rest = [] ∧ b = false := by simpa using hmore
          exact .inr ⟨_, .file n hname hget⟩

/-- Every walk comes to an end: a link takes from the links that are left, and any other step from the
names ahead. -/
theorem exists_ends (fs : FileSystem) (w : Walk) : ∃ v r, Leads fs w v ∧ Ends fs v r := by
  rcases step_or_ends fs w with ⟨u, hstep, hless⟩ | ⟨r, hends⟩
  · obtain ⟨v, r, hleads, hends⟩ := exists_ends fs u
    exact ⟨v, r, .head hstep hleads, hends⟩
  · exact ⟨w, r, .refl, hends⟩
termination_by (linkLimit - w.links, w.ahead.length)
decreasing_by
  rcases hless with ⟨hmore, hlimit⟩ | ⟨hsame, hshorter⟩
  · exact Prod.Lex.left _ _ (by omega)
  · rw [hsame]
    exact Prod.Lex.right _ hshorter

/-- What is found is what the walk ends with. -/
theorem outcome_eq_iff : w.outcome fs = r ↔ ∃ v, Leads fs w v ∧ Ends fs v r := by
  have heq : ∀ {v : Walk}, Leads fs w v → w.outcome fs = v.outcome fs := by
    intro v hleads
    induction hleads with
    | refl => rfl
    | tail _ hstep ih => exact ih.trans hstep.outcome_eq
  constructor
  · rintro rfl
    obtain ⟨v, r, hleads, hends⟩ := exists_ends fs w
    rw [heq hleads, hends.outcome_eq]
    exact ⟨v, hleads, hends⟩
  · rintro ⟨v, hleads, hends⟩
    rw [heq hleads, hends.outcome_eq]

end Walk

/-- What a path is found to be, seen from a directory: some paths are refused as they stand, and any
other one is walked along. -/
inductive Finds (fs : FileSystem) (cwd : Location) (path : Text) : Except FileFault Kind → Prop where
  | nul (h : '\x00' ∈ path) : Finds fs cwd path (.error .nul)
  | blank (h : path = []) : Finds fs cwd path (.error .notFound)
  | long (hnul : '\x00' ∉ path) (h : pathLimit < Text.byteLength path) :
    Finds fs cwd path (.error .nameTooLong)
  | walked {w : Walk} {r : Except FileFault Kind} (hnul : '\x00' ∉ path) (hpath : path ≠ [])
    (hshort : Text.byteLength path ≤ pathLimit)
    (hleads : Walk.Leads fs ⟨base cwd path, names path, 0, meansDirectory path⟩ w)
    (hends : Walk.Ends fs w r) : Finds fs cwd path r

variable {fs : FileSystem} {cwd : Location} {path : Text} {r : Except FileFault Kind}

/-- A path that is not refused as it stands is found to be what its walk ends with. -/
theorem kind_eq_outcome (hnul : '\x00' ∉ path) (hpath : path ≠ [])
    (hshort : Text.byteLength path ≤ pathLimit) :
    fs.kind cwd path = Walk.outcome fs ⟨base cwd path, names path, 0, meansDirectory path⟩ := by
  rw [kind, resolve, if_neg (by simpa using hnul), if_neg hpath, if_neg (Nat.not_lt.2 hshort),
    Walk.outcome]
  cases fs.follow false linkLimit (meansDirectory path) (base cwd path) (names path) with
  | error fault => rfl
  | ok found =>
    obtain ⟨place, b⟩ := found
    cases place with
    | directory l => rfl
    | absent l => rfl
    | file l content => cases b <;> rfl

/-- There is one thing that a path is found to be. -/
theorem kind_eq_iff : fs.kind cwd path = r ↔ fs.Finds cwd path r := by
  constructor
  · rintro rfl
    by_cases hnul : '\x00' ∈ path
    · rw [kind, resolve, if_pos (by simpa using hnul)]
      exact .nul hnul
    by_cases hpath : path = []
    · subst hpath
      exact .blank rfl
    by_cases hlong : pathLimit < Text.byteLength path
    · rw [kind, resolve, if_neg (by simpa using hnul), if_neg hpath, if_pos hlong]
      exact .long hnul hlong
    have hshort := Nat.not_lt.1 hlong
    rw [kind_eq_outcome hnul hpath hshort]
    obtain ⟨w, hleads, hends⟩ := Walk.outcome_eq_iff.1 rfl
    exact .walked hnul hpath hshort hleads hends
  · intro h
    cases h with
    | nul hnul =>
      rw [kind, resolve, if_pos (by simpa using hnul)]
      rfl
    | blank hpath =>
      subst hpath
      rfl
    | long hnul hlong =>
      have hpath : path ≠ [] := by
        rintro rfl
        exact absurd hlong (by decide)
      rw [kind, resolve, if_neg (by simpa using hnul), if_neg hpath, if_pos hlong]
      rfl
    | walked hnul hpath hshort hleads hends =>
      rw [kind_eq_outcome hnul hpath hshort]
      exact Walk.outcome_eq_iff.2 ⟨_, hleads, hends⟩

end RouteModule.FileSystem
