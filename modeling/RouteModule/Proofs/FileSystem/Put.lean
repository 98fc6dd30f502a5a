import RouteModule.FileSystem

/-!
What putting a file somewhere does to the paths of a file system. Where there was no directory and
no link before, no path is led elsewhere: a path that meant that place means the new file, and every
other path means what it meant.
-/

namespace RouteModule.FileSystem

namespace Place

/-- Where a place is. -/
def location : Place → Location
  | directory l => l
  | file l _ => l
  | absent l => l

/-- What is said about a place is so in a file system. -/
def Holds (fs : FileSystem) : Place → Prop
  | directory _ => True
  | file l content => fs.get? l = some (.file content)
  | absent l => fs.get? l = none

/-- A place after a file was put somewhere. -/
def afterPut (l : Location) (content : Bytes) : Place → Place
  | directory m => directory m
  | file m old => if m = l then file l content else file m old
  | absent m => if m = l then file l content else absent m

end Place

/-- Where following names ends after a file was put somewhere. -/
def Stop.afterPut (l : Location) (content : Bytes) : Stop → Stop
  | arrived place => arrived (place.afterPut l content)
  | failed fault => failed fault
  | linked dir target rest => linked dir target rest

/-- Neither a directory nor a link is at a location. -/
def IsFree (fs : FileSystem) (l : Location) : Prop :=
  fs.get? l = none ∨ ∃ content, fs.get? l = some (.file content)

variable {fs : FileSystem} {l : Location}

namespace IsFree

theorem ne_of_directory (hfree : fs.IsFree l) {m : Location} (h : fs.get? m = some .directory) :
    m ≠ l := by
  rintro rfl
  rcases hfree with hnone | ⟨content, hfile⟩
  · rw [hnone] at h
    cases h
  · rw [hfile] at h
    cases h

theorem ne_of_link (hfree : fs.IsFree l) {m : Location} {target : Text}
    (h : fs.get? m = some (.link target)) : m ≠ l := by
  rintro rfl
  rcases hfree with hnone | ⟨content, hfile⟩
  · rw [hnone] at h
    cases h
  · rw [hfile] at h
    cases h

end IsFree

section Following

theorem advance_holds {unwanted : Bool} {dir : Location} {names : List Text} {place : Place}
    (h : fs.advance unwanted dir names = .arrived place) : place.Holds fs := by
  fun_induction advance fs unwanted dir names with
  | case1 dir =>
    cases h
    trivial
  | case2 dir rest ih => exact ih h
  | case3 dir rest _ ih => exact ih h
  | case4 => cases h
  | case5 => cases h
  | case6 dir name _ _ _ hget =>
    cases h
    exact hget
  | case7 => cases h
  | case8 dir name rest _ _ _ _ _ ih => exact ih h
  | case9 dir name _ _ _ content hget =>
    cases h
    exact hget
  | case10 => cases h
  | case11 => cases h

/-- Names lead on as before, but for what is at the end. -/
theorem advance_put (hfree : fs.IsFree l) (content : Bytes) {unwanted : Bool} {dir : Location}
    {names : List Text} {stop : Stop} (hstop : fs.advance unwanted dir names = stop)
    (h : ∀ fault, stop ≠ .failed fault) :
    (fs.put l (.file content)).advance unwanted dir names = stop.afterPut l content := by
  subst hstop
  fun_induction advance fs unwanted dir names with
  | case1 dir => rfl
  | case2 dir rest ih =>
    rw [advance, if_pos rfl]
    exact ih h
  | case3 dir rest hdot ih =>
    rw [advance, if_neg hdot, if_pos rfl]
    exact ih h
  | case4 => exact absurd rfl (h _)
  | case5 => exact absurd rfl (h _)
  | case6 dir name hdot hup hlong hget hwanted =>
    rw [advance, if_neg hdot, if_neg hup, if_neg hwanted, if_neg hlong]
    by_cases hl : dir.child name = l
    · subst hl
      simp [Stop.afterPut, Place.afterPut]
    · simp [get?_put_other fs _ hl, hget, hl, Stop.afterPut, Place.afterPut]
  | case7 => exact absurd rfl (h _)
  | case8 dir name rest hdot hup hwanted hlong hget ih =>
    rw [advance, if_neg hdot, if_neg hup, if_neg hwanted, if_neg hlong,
      get?_put_other fs _ (hfree.ne_of_directory hget), hget]
    exact ih h
  | case9 dir name hdot hup hlong old hget hwanted =>
    rw [advance, if_neg hdot, if_neg hup, if_neg hwanted, if_neg hlong]
    by_cases hl : dir.child name = l
    · subst hl
      simp [Stop.afterPut, Place.afterPut]
    · simp [get?_put_other fs _ hl, hget, hl, Stop.afterPut, Place.afterPut]
  | case10 => exact absurd rfl (h _)
  | case11 dir name rest hdot hup hwanted hlong target hget =>
    rw [advance, if_neg hdot, if_neg hup, if_neg hwanted, if_neg hlong,
      get?_put_other fs _ (hfree.ne_of_link hget), hget]
    rfl

theorem follow_holds {making asDirectory : Bool} {links : Nat} {dir : Location}
    {names : List Text} {place : Place} {b : Bool}
    (h : fs.follow making links asDirectory dir names = .ok (place, b)) : place.Holds fs := by
  fun_induction follow fs making links asDirectory dir names with
  | case1 links asDirectory dir names arrived hadvance =>
    cases h
    exact advance_holds hadvance
  | case2 => cases h
  | case3 => cases h
  | case4 asDirectory dir names source target rest hadvance links ih => exact ih h

/-- Links lead on as before, but for what is at the end. -/
theorem follow_put (hfree : fs.IsFree l) (content : Bytes) {making asDirectory : Bool} {links : Nat}
    {dir : Location} {names : List Text} {place : Place} {b : Bool}
    (h : fs.follow making links asDirectory dir names = .ok (place, b)) :
    (fs.put l (.file content)).follow making links asDirectory dir names =
      .ok (place.afterPut l content, b) := by
  fun_induction follow fs making links asDirectory dir names with
  | case1 links asDirectory dir names arrived hadvance =>
    cases h
    rw [follow, advance_put hfree content hadvance (by simp)]
    rfl
  | case2 => cases h
  | case3 => cases h
  | case4 asDirectory dir names source target rest hadvance links ih =>
    rw [follow, advance_put hfree content hadvance (by simp)]
    exact ih h

/-- A path that does not mean a directory at its end did not mean one on its way, and leads to the
same place whether or not a file may be made there. -/
theorem follow_any {making asDirectory : Bool} {links : Nat} {dir : Location} {names : List Text}
    {place : Place} (h : fs.follow making links asDirectory dir names = .ok (place, false)) :
    asDirectory = false ∧
      ∀ other, fs.follow other links asDirectory dir names = .ok (place, false) := by
  fun_induction follow fs making links asDirectory dir names with
  | case1 links asDirectory dir names arrived hadvance =>
    cases h
    rw [Bool.and_false] at hadvance
    refine ⟨rfl, fun other => ?_⟩
    rw [follow, Bool.and_false, hadvance]
  | case2 => cases h
  | case3 => cases h
  | case4 asDirectory dir names source target rest hadvance links ih =>
    obtain ⟨hflag, hfollow⟩ := ih h
    have has : asDirectory = false := (Bool.or_eq_false_iff.1 hflag).1
    subst has
    rw [Bool.and_false] at hadvance
    refine ⟨rfl, fun other => ?_⟩
    rw [follow, Bool.and_false, hadvance]
    exact hfollow other

end Following

section Resolving

variable {cwd : Location} {path : Text} {place : Place} {b : Bool}

/-- A path that can be followed at all means the place that following it leads to. -/
theorem resolve_eq_ok_iff {making : Bool} {r : Place × Bool} :
    fs.resolve making cwd path = .ok r ↔
      (path.contains '\x00' = false ∧ path ≠ [] ∧ Text.byteLength path ≤ pathLimit) ∧
        fs.follow making linkLimit (meansDirectory path) (base cwd path) (names path) = .ok r := by
  unfold resolve
  split
  · next hnul => simp [List.contains_iff_mem.1 hnul]
  · next hnul =>
    have hnul' : path.contains '\x00' = false := by simpa using hnul
    split
    · next hempty => simp [hempty]
    · next hempty =>
      split
      · next hlong =>
        have hlong' : ¬ Text.byteLength path ≤ pathLimit := by omega
        simp [hlong']
      · next hlong =>
        have hlong' : Text.byteLength path ≤ pathLimit := by omega
        rw [hnul']
        simp [hempty, hlong']

theorem resolve_holds {making : Bool} (h : fs.resolve making cwd path = .ok (place, b)) :
    place.Holds fs :=
  follow_holds (resolve_eq_ok_iff.1 h).2

/-- Paths lead on as before, but for what is at the end. -/
theorem resolve_put (hfree : fs.IsFree l) (content : Bytes) {making : Bool}
    (h : fs.resolve making cwd path = .ok (place, b)) :
    (fs.put l (.file content)).resolve making cwd path = .ok (place.afterPut l content, b) := by
  rw [resolve_eq_ok_iff] at h ⊢
  exact ⟨h.1, follow_put hfree content h.2⟩

theorem resolve_any {making : Bool} (h : fs.resolve making cwd path = .ok (place, false))
    (other : Bool) : fs.resolve other cwd path = .ok (place, false) := by
  rw [resolve_eq_ok_iff] at h ⊢
  exact ⟨h.1, (follow_any h.2).2 other⟩

end Resolving

section Operations

variable {cwd : Location} {path : Text} {content : Bytes}

/-- A path that is read means a file with what is read. -/
theorem read_eq_ok_iff :
    fs.read cwd path = .ok content ↔
      ∃ m, fs.resolve false cwd path = .ok (.file m content, false) := by
  unfold read
  cases h : fs.resolve false cwd path with
  | error fault => simp [bind, Except.bind]
  | ok r =>
    obtain ⟨place, b⟩ := r
    cases place with
    | directory m => simp [bind, Except.bind]
    | absent m => simp [bind, Except.bind]
    | file m old => cases b <;> simp [bind, Except.bind]

/-- A path that is found to be a directory means one. -/
theorem kind_eq_directory_iff :
    fs.kind cwd path = .ok .directory ↔
      ∃ m b, fs.resolve false cwd path = .ok (.directory m, b) := by
  unfold kind
  cases h : fs.resolve false cwd path with
  | error fault => simp [bind, Except.bind]
  | ok r =>
    obtain ⟨place, b⟩ := r
    cases place with
    | directory m => simp [bind, Except.bind]
    | absent m => simp [bind, Except.bind]
    | file m old => cases b <;> simp [bind, Except.bind]

/-- Two paths mean one file. -/
def SameFile (fs : FileSystem) (cwd : Location) (path other : Text) : Prop :=
  ∃ m a b, fs.resolve false cwd path = .ok (.file m a, false) ∧
    fs.resolve false cwd other = .ok (.file m b, false)

/-- What was written to a file, and where. -/
theorem write_eq_ok {gs : FileSystem} (h : fs.write cwd path content = .ok gs) :
    ∃ place, fs.resolve false cwd path = .ok (place, false) ∧
      (∀ m, place ≠ .directory m) ∧ fs.IsFree place.location ∧
      gs = fs.put place.location (.file content) := by
  unfold write at h
  cases hr : fs.resolve true cwd path with
  | error fault => simp [hr, bind, Except.bind] at h
  | ok r =>
    obtain ⟨place, b⟩ := r
    have hholds := resolve_holds hr
    cases place with
    | directory m => simp [hr, bind, Except.bind] at h
    | absent m =>
      cases b with
      | true => simp [hr, bind, Except.bind] at h
      | false =>
        simp only [hr, bind, Except.bind, Except.ok.injEq] at h
        exact ⟨.absent m, resolve_any hr false, by simp, .inl hholds, h.symm⟩
    | file m old =>
      cases b with
      | true => simp [hr, bind, Except.bind] at h
      | false =>
        simp only [hr, bind, Except.bind, Except.ok.injEq] at h
        exact ⟨.file m old, resolve_any hr false, by simp, .inr ⟨old, hholds⟩, h.symm⟩

/-- A file can be put where a path leads. -/
def CanWrite (fs : FileSystem) (cwd : Location) (path : Text) : Prop :=
  ∃ content gs, fs.write cwd path content = .ok gs

/-- Where something can be written, anything can. -/
theorem CanWrite.write (h : fs.CanWrite cwd path) (content : Bytes) :
    ∃ gs, fs.write cwd path content = .ok gs := by
  obtain ⟨old, gs, h⟩ := h
  unfold FileSystem.write at h ⊢
  cases hr : fs.resolve true cwd path with
  | error fault => simp [hr, bind, Except.bind] at h
  | ok r =>
    obtain ⟨place, b⟩ := r
    cases place with
    | directory m => simp [hr, bind, Except.bind] at h
    | absent m =>
      cases b with
      | true => simp [hr, bind, Except.bind] at h
      | false => exact ⟨_, rfl⟩
    | file m old =>
      cases b with
      | true => simp [hr, bind, Except.bind] at h
      | false => exact ⟨_, rfl⟩

/-- What was written is read. -/
theorem read_write {gs : FileSystem} (h : fs.write cwd path content = .ok gs) :
    gs.read cwd path = .ok content := by
  obtain ⟨place, hresolve, hplace, hfree, rfl⟩ := write_eq_ok h
  rw [read_eq_ok_iff, resolve_put hfree content hresolve]
  cases place with
  | directory m => exact absurd rfl (hplace m)
  | absent m => exact ⟨m, by simp [Place.afterPut, Place.location]⟩
  | file m old => exact ⟨m, by simp [Place.afterPut, Place.location]⟩

/-- Writing what is there already changes nothing. -/
theorem write_of_read (h : fs.read cwd path = .ok content) :
    fs.write cwd path content = .ok fs := by
  obtain ⟨m, hm⟩ := read_eq_ok_iff.1 h
  have hfile : fs.get? m = some (.file content) := resolve_holds hm
  unfold write
  rw [resolve_any hm true]
  simp [bind, Except.bind, put_eq_self hfile]

/-- Where something can be written, a file can be read or nothing is there. -/
theorem read_before_write {gs : FileSystem} (h : fs.write cwd path content = .ok gs) :
    fs.read cwd path = .error .notFound ∨ ∃ old, fs.read cwd path = .ok old := by
  obtain ⟨place, hresolve, hplace, -, -⟩ := write_eq_ok h
  unfold read
  rw [hresolve]
  cases place with
  | directory m => exact absurd rfl (hplace m)
  | absent m => exact .inl rfl
  | file m old => exact .inr ⟨old, rfl⟩

end Operations

end RouteModule.FileSystem
