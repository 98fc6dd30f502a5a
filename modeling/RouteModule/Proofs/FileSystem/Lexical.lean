import RouteModule.Proofs.FilePath.Lexical
import RouteModule.Proofs.FileSystem.Put

/-!
Where paths lead as long as no link is met: to the place that their parts lead to. Links can come
before that: a path that goes on behind a directory is followed from the place where the directory is,
however it was reached.
-/

namespace RouteModule

namespace Location

/-- The place with the given names on the way to it. -/
def ofNames (names : List Text) : Location := names.flatMap ('/' :: ·)

/-- A place says the names on the way to it. -/
def IsPlace (l : Location) : Prop := ∃ names, (∀ n ∈ names, '/' ∉ n) ∧ l = ofNames names

/-- A place is in a directory, at any depth: the names on the way to it go on behind those of the
directory. -/
def Encloses (dir l : Location) : Prop :=
  ∃ rest, rest ≠ [] ∧ Text.splitAt '/' l = Text.splitAt '/' dir ++ rest

variable {names rest : List Text} {name : Text}

theorem splitAt_ofNames (h : ∀ n ∈ names, '/' ∉ n) (t : Text) :
    Text.splitAt '/' (t ++ ofNames names) = Text.splitAt '/' t ++ names := by
  induction names generalizing t with
  | nil => simp [ofNames]
  | cons n names ih =>
    have hn : '/' ∉ n := h n List.mem_cons_self
    have hrest := ih (fun m hm => h m (List.mem_cons_of_mem n hm)) n
    have hcons : t ++ ofNames (n :: names) = t ++ '/' :: (n ++ ofNames names) := by simp [ofNames]
    rw [hcons, Text.splitAt_append, hrest, Text.splitAt_of_not_mem hn, List.singleton_append]

theorem encloses_ofNames_iff (hnames : ∀ n ∈ names, '/' ∉ n) (hrest : ∀ n ∈ rest, '/' ∉ n) :
    (ofNames names).Encloses (ofNames rest) ↔ ∃ below, below ≠ [] ∧ rest = names ++ below := by
  have hdir := splitAt_ofNames hnames []
  have hplace := splitAt_ofNames hrest []
  rw [List.nil_append] at hdir hplace
  rw [Encloses, hdir, hplace]
  simp only [List.append_assoc, List.append_cancel_left_eq]

theorem child_ofNames (names : List Text) (name : Text) :
    (ofNames names).child name = ofNames (names ++ [name]) := by
  simp [child, ofNames]

theorem parent_ofNames (h : ∀ n ∈ names, '/' ∉ n) :
    (ofNames names).parent = ofNames names.dropLast := by
  rcases List.eq_nil_or_concat names with rfl | ⟨front, name, rfl⟩
  · rfl
  · have hname : ∀ c ∈ name.reverse, decide (c ≠ '/') = true := by
      intro c hc
      have hmem : c ∈ name := List.mem_reverse.1 hc
      refine decide_eq_true fun heq => ?_
      exact h name (by simp) (heq ▸ hmem)
    have hreverse : (ofNames (front ++ [name])).reverse =
        name.reverse ++ '/' :: (ofNames front).reverse := by simp [ofNames]
    rw [List.concat_eq_append, parent, hreverse, List.dropWhile_append_of_pos hname,
      List.dropWhile_cons_of_neg (by simp), List.drop_one, List.tail_cons, List.reverse_reverse,
      List.dropLast_concat]

theorem IsPlace.child {dir : Location} (hdir : dir.IsPlace) (hname : '/' ∉ name) :
    (dir.child name).IsPlace := by
  obtain ⟨names, hnames, rfl⟩ := hdir
  exact ⟨names ++ [name], by simpa [or_imp, forall_and] using ⟨hnames, hname⟩, child_ofNames names name⟩

theorem IsPlace.parent {dir : Location} (hdir : dir.IsPlace) : dir.parent.IsPlace := by
  obtain ⟨names, hnames, rfl⟩ := hdir
  exact ⟨names.dropLast, fun n hn => hnames n (List.dropLast_subset names hn), parent_ofNames hnames⟩

theorem isPlace_root : IsPlace [] := ⟨[], by simp, rfl⟩

end Location

namespace FilePath

/-- Walking through parts makes no names with slashes. -/
theorem solid_walk {place ps : List Text} (hplace : ∀ n ∈ place, '/' ∉ n) (hps : ∀ p ∈ ps, '/' ∉ p) :
    ∀ n ∈ walk place ps, '/' ∉ n := by
  induction ps generalizing place with
  | nil => exact hplace
  | cons p ps ih =>
    have hrest : ∀ q ∈ ps, '/' ∉ q := fun q hq => hps q (List.mem_cons_of_mem p hq)
    rw [walk]
    split
    · exact ih (fun n hn => hplace n (List.dropLast_subset place hn)) hrest
    · refine ih ?_ hrest
      intro n hn
      rcases List.mem_append.1 hn with hn | hn
      · exact hplace n hn
      · rw [List.mem_singleton] at hn
        exact hn ▸ hps p List.mem_cons_self

theorem parts_eq_names (path : Text) :
    parts path = (FileSystem.names path).filter fun n => !isVoid n := by
  rw [FileSystem.names, List.filter_filter, parts]
  congr 1
  funext p
  by_cases hp : p = []
  · simp [isVoid, hp]
  · simp [isVoid, hp]

/-- A path that does not start at the root is put behind the names of a directory. -/
theorem names_append (dir : Text) {path : Text} (h : isAbsolute path = false) :
    FileSystem.names (append dir path) = FileSystem.names dir ++ FileSystem.names path := by
  obtain ⟨front, hfront, hsplit⟩ := splitAt_append_path dir h
  rw [FileSystem.names, hsplit, List.filter_append, hfront, FileSystem.names, FileSystem.names]

theorem solid_names {path : Text} : ∀ n ∈ FileSystem.names path, '/' ∉ n := by
  intro n hn
  rw [FileSystem.names, List.mem_filter] at hn
  exact Text.not_mem_of_mem_splitAt hn.1

end FilePath

namespace FileSystem

variable {fs : FileSystem} {unwanted making : Bool} {dir : Location} {names rest ds : List Text}
  {place : Place}

section Names

theorem filter_name {name : Text} (hne : name ≠ []) (hdot : name ≠ ['.']) (rest : List Text) :
    (name :: rest).filter (fun n => !FilePath.isVoid n) =
      name :: rest.filter fun n => !FilePath.isVoid n := by
  simp [FilePath.isVoid, hne, hdot]

/-- Names that meet no link lead where they lead by themselves. -/
theorem location_of_advance (hds : ∀ n ∈ ds, '/' ∉ n) (hnames : ∀ n ∈ names, n ≠ [] ∧ '/' ∉ n)
    (h : fs.advance unwanted (Location.ofNames ds) names = .arrived place) :
    place.location = Location.ofNames (FilePath.walk ds (names.filter fun n => !FilePath.isVoid n)) := by
  generalize hdir : Location.ofNames ds = dir at h
  fun_induction advance fs unwanted dir names generalizing ds with
  | case1 dir =>
    cases h
    exact hdir.symm
  | case2 dir rest ih => simpa [FilePath.isVoid] using ih hds (List.forall_mem_cons.1 hnames).2 hdir h
  | case3 dir rest hdot ih =>
    subst hdir
    have hfront : ∀ n ∈ ds.dropLast, '/' ∉ n := fun n hn => hds n (List.dropLast_subset ds hn)
    have hrest := ih hfront (List.forall_mem_cons.1 hnames).2 (Location.parent_ofNames hds).symm h
    rw [filter_name (by decide) hdot, FilePath.walk, if_pos rfl]
    exact hrest
  | case4 => cases h
  | case5 => cases h
  | case6 dir name hdot hup hlong hget hwanted =>
    cases h
    subst hdir
    rw [filter_name (hnames _ List.mem_cons_self).1 hdot, FilePath.walk, if_neg hup]
    exact Location.child_ofNames ds name
  | case7 => cases h
  | case8 dir name rest hdot hup hwanted hlong hget ih =>
    subst hdir
    obtain ⟨⟨hname, hsolid⟩, hnames⟩ := List.forall_mem_cons.1 hnames
    have hlonger : ∀ n ∈ ds ++ [name], '/' ∉ n := by
      simpa [or_imp, forall_and] using ⟨hds, hsolid⟩
    have hrest := ih hlonger hnames (Location.child_ofNames ds name).symm h
    rw [filter_name hname hdot, FilePath.walk, if_neg hup]
    exact hrest
  | case9 dir name hdot hup hlong old hget hwanted =>
    cases h
    subst hdir
    rw [filter_name (hnames _ List.mem_cons_self).1 hdot, FilePath.walk, if_neg hup]
    exact Location.child_ofNames ds name
  | case10 => cases h
  | case11 => cases h

/-- Names lead from a place to a place, and to links in places. -/
theorem isPlace_of_advance (hdir : dir.IsPlace) (hnames : ∀ n ∈ names, '/' ∉ n) :
    (∀ place, fs.advance unwanted dir names = .arrived place → place.location.IsPlace) ∧
      ∀ source target rest, fs.advance unwanted dir names = .linked source target rest →
        source.IsPlace ∧ ∀ n ∈ rest, '/' ∉ n := by
  fun_induction advance fs unwanted dir names with
  | case1 dir => exact ⟨fun place h => by cases h; exact hdir, by simp⟩
  | case2 dir rest ih => exact ih hdir (List.forall_mem_cons.1 hnames).2
  | case3 dir rest hdot ih => exact ih hdir.parent (List.forall_mem_cons.1 hnames).2
  | case4 => simp
  | case5 => simp
  | case6 dir name hdot hup hlong hget hwanted =>
    have hchild : (dir.child name).IsPlace := hdir.child (List.forall_mem_cons.1 hnames).1
    exact ⟨fun place h => by cases h; exact hchild, by simp⟩
  | case7 => simp
  | case8 dir name rest hdot hup hwanted hlong hget ih =>
    obtain ⟨hsolid, hnames⟩ := List.forall_mem_cons.1 hnames
    exact ih (hdir.child hsolid) hnames
  | case9 dir name hdot hup hlong old hget hwanted =>
    have hchild : (dir.child name).IsPlace := hdir.child (List.forall_mem_cons.1 hnames).1
    exact ⟨fun place h => by cases h; exact hchild, by simp⟩
  | case10 => simp
  | case11 dir name rest hdot hup hwanted hlong target hget =>
    refine ⟨by simp, fun source other left h => ?_⟩
    cases h
    exact ⟨hdir, (List.forall_mem_cons.1 hnames).2⟩

theorem advance_append {l : Location} (h : fs.advance false dir names = .arrived (.directory l))
    (rest : List Text) : fs.advance false dir (names ++ rest) = fs.advance false l rest := by
  generalize hfalse : false = unwanted at h ⊢
  fun_induction advance fs unwanted dir names with
  | case1 dir =>
    cases h
    rfl
  | case2 dir rest ih =>
    rw [List.cons_append, advance, if_pos rfl]
    exact ih h
  | case3 dir rest hdot ih =>
    rw [List.cons_append, advance, if_neg hdot, if_pos rfl]
    exact ih h
  | case4 => cases h
  | case5 => cases h
  | case6 => cases h
  | case7 => cases h
  | case8 dir name rest hdot hup hwanted hlong hget ih =>
    subst hfalse
    rw [List.cons_append, advance, if_neg hdot, if_neg hup, if_neg (by simp), if_neg hlong, hget]
    exact ih h
  | case9 => cases h
  | case10 => cases h
  | case11 => cases h

theorem advance_append_linked {source : Location} {target : Text} {left : List Text}
    (h : fs.advance false dir names = .linked source target left) (rest : List Text) :
    fs.advance false dir (names ++ rest) = .linked source target (left ++ rest) := by
  generalize hfalse : false = unwanted at h ⊢
  fun_induction advance fs unwanted dir names with
  | case1 => cases h
  | case2 dir rest ih =>
    rw [List.cons_append, advance, if_pos rfl]
    exact ih h
  | case3 dir rest hdot ih =>
    rw [List.cons_append, advance, if_neg hdot, if_pos rfl]
    exact ih h
  | case4 => cases h
  | case5 => cases h
  | case6 => cases h
  | case7 => cases h
  | case8 dir name rest hdot hup hwanted hlong hget ih =>
    subst hfalse
    rw [List.cons_append, advance, if_neg hdot, if_neg hup, if_neg (by simp), if_neg hlong, hget]
    exact ih h
  | case9 => cases h
  | case10 => cases h
  | case11 dir name rest hdot hup hwanted hlong target hget =>
    subst hfalse
    cases h
    rw [List.cons_append, advance, if_neg hdot, if_neg hup, if_neg (by simp), if_neg hlong, hget]

end Names

section Links

variable {asDirectory b : Bool} {links : Nat} {cwd : Location} {path : Text}

/-- Where links lead from a place is a place again. -/
theorem isPlace_of_follow (hdir : dir.IsPlace) (hnames : ∀ n ∈ names, '/' ∉ n)
    (h : fs.follow unwanted links asDirectory dir names = .ok (place, b)) :
    place.location.IsPlace := by
  fun_induction follow fs unwanted links asDirectory dir names with
  | case1 links asDirectory dir names arrived hadvance =>
    cases h
    exact (isPlace_of_advance hdir hnames).1 _ hadvance
  | case2 => cases h
  | case3 => cases h
  | case4 asDirectory dir names source target rest hadvance links ih =>
    obtain ⟨hsource, hrest⟩ := (isPlace_of_advance hdir hnames).2 _ _ _ hadvance
    refine ih ?_ ?_ h
    · rw [base]
      split
      · exact Location.isPlace_root
      · exact hsource
    · intro n hn
      rcases List.mem_append.1 hn with hn | hn
      · exact FilePath.solid_names n hn
      · exact hrest n hn

theorem isPlace_of_resolve (hcwd : cwd.IsPlace) (h : fs.resolve unwanted cwd path = .ok (place, b)) :
    place.location.IsPlace := by
  refine isPlace_of_follow ?_ FilePath.solid_names (resolve_eq_ok_iff.1 h).2
  rw [base]
  split
  · exact Location.isPlace_root
  · exact hcwd

/-- What follows names that lead to a directory is followed from there, with the links that are
left. -/
theorem follow_append {l : Location} (h : fs.follow false links asDirectory dir names =
    .ok (.directory l, b)) (hrest : rest ≠ []) (other : Bool) :
    ∃ left, fs.follow false links other dir (names ++ rest) = fs.follow false left other l rest := by
  fun_induction follow fs false links asDirectory dir names with
  | case1 links asDirectory dir names arrived hadvance =>
    cases h
    refine ⟨links, ?_⟩
    rw [Bool.false_and] at hadvance
    unfold follow
    rw [Bool.false_and, advance_append hadvance]
  | case2 => cases h
  | case3 => cases h
  | case4 asDirectory dir names source target left hadvance links ih =>
    obtain ⟨n, hn⟩ := ih h
    refine ⟨n, ?_⟩
    rw [Bool.false_and] at hadvance
    have hleft : (other || (left ++ rest = [] && meansDirectory target)) = other := by simp [hrest]
    rw [follow, Bool.false_and, advance_append_linked hadvance]
    simp only [hleft, ← List.append_assoc, hn]

/-- A path that goes on behind a directory leads, as long as its own names meet no link, to where they
lead by themselves: from the root, if it starts there, and otherwise from the place of the directory. -/
theorem location_of_append {name : Text} {found : Place} {a : Bool}
    (hdir : fs.resolve false cwd path = .ok (.directory (Location.ofNames ds), a))
    (hds : ∀ n ∈ ds, '/' ∉ n) (hrest : FileSystem.names name ≠ [])
    (h : fs.resolve false cwd (FilePath.append path name) = .ok (found, b))
    (hplace : fs.advance false (if FilePath.isAbsolute name then [] else Location.ofNames ds)
      (FileSystem.names name) = .arrived place) :
    found.location = Location.ofNames
      (FilePath.walk (if FilePath.isAbsolute name then [] else ds) (FilePath.parts name)) := by
  have hnames : ∀ n ∈ FileSystem.names name, n ≠ [] ∧ '/' ∉ n := fun n hn =>
    ⟨by simpa using (List.mem_filter.1 hn).2, FilePath.solid_names n hn⟩
  obtain ⟨-, hwhole⟩ := resolve_eq_ok_iff.1 h
  rw [FilePath.parts_eq_names]
  cases habsolute : FilePath.isAbsolute name with
  | true =>
    rw [habsolute] at hplace
    rw [FilePath.append_absolute path habsolute, base, habsolute, follow, Bool.false_and] at hwhole
    simp only [if_true] at hplace hwhole ⊢
    rw [hplace] at hwhole
    cases hwhole
    exact location_of_advance (by simp) hnames hplace
  | false =>
    obtain ⟨⟨-, hne, -⟩, hfollow⟩ := resolve_eq_ok_iff.1 hdir
    have hbase : base cwd (FilePath.append path name) = base cwd path := by
      rw [base, FilePath.isAbsolute_append hne habsolute, base]
    obtain ⟨left, hleft⟩ := follow_append hfollow hrest (meansDirectory (FilePath.append path name))
    rw [habsolute] at hplace
    simp only [Bool.false_eq_true, if_false] at hplace ⊢
    rw [hbase, FilePath.names_append path habsolute, hleft, follow, Bool.false_and, hplace] at hwhole
    cases hwhole
    exact location_of_advance hds hnames hplace

end Links

end FileSystem

end RouteModule
