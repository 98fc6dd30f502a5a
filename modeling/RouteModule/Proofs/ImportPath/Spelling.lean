import Mathlib.Data.List.Basic
import Mathlib.Data.List.TakeWhile
import RouteModule.Proofs.ImportPath.Source

/-!
Specifiers do not hang on how the two paths are spelled. A path is spelled in another way by pieces that
mean nothing, which are empty or a single point, and by the working directory in front of it. A directory
counts by its parts alone, wherever the pieces are put. A location may end up in the specifier as it is,
so that two slashes at its start count, and so does what stands behind its name.
-/

namespace RouteModule

namespace FilePath

variable {path other : Text} {front vs back : List Text}

section Pieces

/-- Pieces that mean nothing, put among the pieces of a path, are pieces of their own. -/
theorem splitAt_padded (hother : Text.splitAt '/' other = front ++ back)
    (hvoid : ∀ v ∈ vs, isVoid v = true) :
    Text.splitAt '/' (ofParts (front ++ vs ++ back)) = front ++ vs ++ back := by
  have hne : front ++ back ≠ [] := hother ▸ Text.splitAt_ne_nil '/' other
  refine Text.splitAt_join (by simp_all) fun p hp => ?_
  have hpieces : p ∈ vs ∨ p ∈ Text.splitAt '/' other := by
    rw [hother]
    simpa [or_left_comm, or_assoc] using hp
  rcases hpieces with hp | hp
  · have hcases : p = [] ∨ p = ['.'] := by simpa [isVoid] using hvoid p hp
    rcases hcases with rfl | rfl <;> decide
  · exact Text.not_mem_of_mem_splitAt hp

theorem padded_ne_nil (hne : other ≠ []) (hother : Text.splitAt '/' other = front ++ back)
    (hvoid : ∀ v ∈ vs, isVoid v = true) : ofParts (front ++ vs ++ back) ≠ [] := by
  intro hnil
  have hpieces := splitAt_padded hother hvoid
  have hlength : (front ++ back).length ≠ 0 := by
    rw [← hother]
    exact fun h => Text.splitAt_ne_nil '/' other (List.length_eq_zero_iff.1 h)
  rw [hnil] at hpieces
  have hone := congrArg List.length hpieces
  simp only [Text.splitAt, List.length_append, List.length_cons, List.length_nil] at hone hlength
  obtain rfl : vs = [] := List.length_eq_zero_iff.1 (by omega)
  apply hne
  rw [← Text.join_splitAt '/' other, hother, ← List.append_nil front]
  exact hnil

theorem parts_padded (hother : Text.splitAt '/' other = front ++ back)
    (hvoid : ∀ v ∈ vs, isVoid v = true) : parts (ofParts (front ++ vs ++ back)) = parts other := by
  have hnone : vs.filter (fun p => !isVoid p) = [] := by simpa using hvoid
  rw [parts, parts, splitAt_padded hother hvoid, hother, List.filter_append, List.filter_append,
    List.filter_append, hnone, List.append_nil]

/-- A path ends as before if pieces are put in front of something that means something. -/
theorem getLast?_padded (hother : Text.splitAt '/' other = front ++ back)
    (hback : ∃ p ∈ back, isVoid p = false) :
    (ofParts (front ++ vs ++ back)).getLast? = other.getLast? := by
  obtain ⟨p, hp, hfilled⟩ := hback
  have hne : back ≠ [] := List.ne_nil_of_mem hp
  have htext : ofParts back ≠ [] := by
    intro hnil
    have hsolid : ∀ q ∈ back, '/' ∉ q := fun q hq =>
      Text.not_mem_of_mem_splitAt (hother ▸ List.mem_append_right front hq)
    have hparts := parts_ofParts hsolid
    rw [hnil, parts_nil, eq_comm, List.filter_eq_nil_iff] at hparts
    exact hparts p hp (by simp [hfilled])
  have hwhole : other = front.flatMap (· ++ ['/']) ++ ofParts back := by
    rw [← ofParts_append front hne, ← hother]
    exact (Text.join_splitAt '/' other).symm
  rw [ofParts_append (front ++ vs) hne, hwhole, List.getLast?_append_of_ne_nil _ htext,
    List.getLast?_append_of_ne_nil _ htext]

theorem getLast?_append (dir : Text) (hne : path ≠ []) (h : isAbsolute path = false) :
    (append dir path).getLast? = path.getLast? := by
  unfold append
  rw [if_neg (by simp [h])]
  split
  · exact List.getLast?_append_of_ne_nil _ hne
  · rw [List.append_cons, List.getLast?_append_of_ne_nil _ hne]

theorem getLast?_parts (path : Text) :
    (parts path).getLast? = ((Text.splitAt '/' path).reverse.dropWhile isVoid).head? := by
  rw [parts, List.getLast?_eq_head?_reverse, ← List.filter_reverse, List.head?_filter,
    List.find?_not_eq_head?_dropWhile]

/-- The extension of a path is that of its last part. -/
theorem extension?_congr (h : (parts path).getLast? = (parts other).getLast?) :
    extension? path = extension? other := by
  have hlast : ∀ path, extension? path =
      (parts path).getLast?.bind fun name =>
        if name = up then none else (splitName? name).map Prod.snd := by
    intro path
    rw [getLast?_parts, extension?, lastName?]
    cases (Text.splitAt '/' path).reverse.dropWhile isVoid with
    | nil => rfl
    | cons name before =>
      by_cases hup : name = up
      · simp [hup]
      · cases hsplit : splitName? name <;> simp [hup, hsplit]
  rw [hlast, hlast other, h]

end Pieces

end FilePath

namespace ImportPath

open FilePath

variable {cwd p q path routesDir location : Text} {a : List Text}

/-- What a specifier is made of ends in a slash only where no extension is taken off. -/
theorem getLast?_splitSource (location : Text) :
    (splitSource location).1.getLast? = some '/' ↔
      compiledTo? location = none ∧ location.getLast? = some '/' := by
  rcases splitSource_renamed location with
    ⟨hsource, hnone⟩ | ⟨before, name, stem, ext, x, h, -, hx, hx', hsource⟩
  · rw [hsource, hnone]
    simp
  · obtain ⟨js, hjs⟩ := h.compiledTo?_eq
    refine iff_of_false (fun hlast => ?_) (by simp [hjs])
    rw [hsource, ofParts_append before (List.cons_ne_nil x [])] at hlast
    exact hx' (List.mem_of_getLast? ((List.getLast?_append_of_ne_nil _ hx).symm.trans hlast))

theorem splitSource_snd (location : Text) :
    (splitSource location).2 = (compiledTo? location).getD ".js".toList := by
  rw [splitSource, ← compiledTo?]
  cases compiledTo? location <;> rfl

/-- A location that has other parts in front has them in front of its parts without the extension. -/
theorem parts_bare_append (hparts : parts q = a ++ parts p) (hsource : compiledTo? q = compiledTo? p) :
    parts (bare q) = a ++ parts (bare p) := by
  rcases splitSource_cases p with ⟨hp, -, hbare, -⟩ | ⟨before, name, stem, ext, h, hbare, -⟩
  · rcases splitSource_cases q with ⟨-, -, hbare', -⟩ | ⟨before', name', stem', ext', h', -⟩
    · rw [hbare, hbare', hparts]
    · obtain ⟨js, hjs⟩ := h'.compiledTo?_eq
      rw [hsource, hp] at hjs
      cases hjs
  · rcases splitSource_cases q with ⟨hq, -⟩ | ⟨before', name', stem', ext', h', hbare', -⟩
    · obtain ⟨js, hjs⟩ := h.compiledTo?_eq
      rw [← hsource, hq] at hjs
      cases hjs
    · have hlast := parts_of_lastName? h.name_eq
      have hne : parts p ≠ [] := by simp [hlast]
      have hname : name' = name := by
        have hsame := congrArg List.getLast? hparts
        rw [List.getLast?_append_of_ne_nil _ hne, hlast, parts_of_lastName? h'.name_eq] at hsame
        simpa using hsame
      have hstem : stem' = stem := by
        have hsplit := h'.split_eq
        rw [hname, h.split_eq] at hsplit
        simpa using (congrArg (Option.map Prod.fst) hsplit).symm
      rw [hbare, hbare', h.parts_renamed h.not_mem_stem, h'.parts_renamed h'.not_mem_stem, hstem, hparts,
        List.dropLast_append_of_ne_nil hne, List.append_assoc]

/-- A location is another spelling of a location: what differs is nothing that a specifier shows. -/
structure SameSource (cwd p q : Text) : Prop where
  ne_nil : q ≠ []
  compiledTo?_eq : compiledTo? q = compiledTo? p
  dotted_iff : Dotted q ↔ Dotted p
  getLast?_eq : q.getLast? = p.getLast?
  parts_eq : ∃ a, parts q = a ++ parts p ∧ a.foldl append (lead cwd q) = lead cwd p

theorem SameSource.refl (hne : p ≠ []) : SameSource cwd p p :=
  ⟨hne, rfl, Iff.rfl, rfl, [], rfl, rfl⟩

theorem SameSource.trans {r : Text} (h : SameSource cwd p q) (h' : SameSource cwd q r) :
    SameSource cwd p r := by
  obtain ⟨a, hparts, hlead⟩ := h.parts_eq
  obtain ⟨b, hparts', hlead'⟩ := h'.parts_eq
  refine ⟨h'.ne_nil, h'.compiledTo?_eq.trans h.compiledTo?_eq, h'.dotted_iff.trans h.dotted_iff,
    h'.getLast?_eq.trans h.getLast?_eq, b ++ a, ?_, ?_⟩
  · rw [hparts', hparts, List.append_assoc]
  · rw [List.foldl_append, hlead', hlead]

theorem SameSource.absolute (hne : p ≠ []) (h : SameSource cwd p q) :
    absolute cwd (splitSource q).1 = absolute cwd (splitSource p).1 := by
  obtain ⟨a, hparts, hlead⟩ := h.parts_eq
  have hwhole : parts (splitSource q).1 = a ++ parts (splitSource p).1 := by
    rw [parts_splitSource, parts_splitSource, parts_bare_append hparts h.compiledTo?_eq, List.append_assoc]
    simp only [h.dotted_iff]
  have hlast : (splitSource q).1.getLast? = some '/' ↔ (splitSource p).1.getLast? = some '/' := by
    rw [getLast?_splitSource, getLast?_splitSource, h.compiledTo?_eq, h.getLast?_eq]
  rw [absolute_eq cwd (splitSource_ne_nil h.ne_nil), absolute_eq cwd (splitSource_ne_nil hne),
    lead_splitSource, lead_splitSource, hwhole, List.foldl_append, hlead]
  simp only [hlast]

/-- A working directory as the system names it: it starts at the root, and is what its parts behind that
make. -/
structure IsWorkingDirectory (cwd : Text) : Prop where
  rooted : isAbsolute cwd = true
  tidy : (parts cwd).foldl append (lead [] cwd) = cwd

/-- Other spellings of a path: pieces that mean nothing, which are repeated slashes and points, are put
among its pieces, or it is put behind the working directory. A relative path stays one. In the path of a
file the pieces stand before its name and leave what it starts with, where two slashes are not one. -/
inductive Respelled (cwd : Text) (file : Bool) (path : Text) : Text → Prop
  | same : Respelled cwd file path path
  | pad {other : Text} {front vs back : List Text} : Respelled cwd file path other →
      Text.splitAt '/' other = front ++ back → (∀ v ∈ vs, isVoid v = true) →
      isAbsolute (ofParts (front ++ vs ++ back)) = isAbsolute other →
      (file = true → lead [] (ofParts (front ++ vs ++ back)) = lead [] other ∧
        ∃ p ∈ back, isVoid p = false) →
      Respelled cwd file path (ofParts (front ++ vs ++ back))
  | join {other : Text} : Respelled cwd file path other → isAbsolute other = false →
      Respelled cwd file path (append cwd other)

/-- However a directory is spelled, it is reached through the same parts. -/
theorem Respelled.parts_absolute (hcwd : IsWorkingDirectory cwd) (hne : path ≠ [])
    (h : Respelled cwd false path q) :
    q ≠ [] ∧ parts (absolute cwd q) = parts (absolute cwd path) := by
  induction h with
  | same => exact ⟨hne, rfl⟩
  | @pad other front vs back _ hother hvoid hstart _ ih =>
    have hpadded : ofParts (front ++ vs ++ back) ≠ [] := padded_ne_nil ih.1 hother hvoid
    refine ⟨hpadded, ?_⟩
    rw [← ih.2, FilePath.parts_absolute cwd hpadded, FilePath.parts_absolute cwd ih.1, hstart,
      parts_padded hother hvoid]
  | @join other _ hrelative ih =>
    have hdir := ne_nil_of_isAbsolute hcwd.rooted
    refine ⟨append_ne_nil hdir, ?_⟩
    rw [← ih.2, FilePath.parts_absolute cwd (append_ne_nil hdir), FilePath.parts_absolute cwd ih.1,
      isAbsolute_append hdir hrelative, hcwd.rooted, hrelative, parts_append cwd hrelative]
    rfl

/-- Pieces that mean nothing, put before the name of a file, are nothing that a specifier shows. -/
theorem SameSource.pad {other : Text} {front vs back : List Text} (hne : other ≠ [])
    (hother : Text.splitAt '/' other = front ++ back) (hvoid : ∀ v ∈ vs, isVoid v = true)
    (hlead : lead [] (ofParts (front ++ vs ++ back)) = lead [] other)
    (hback : ∃ p ∈ back, isVoid p = false) :
    SameSource cwd other (ofParts (front ++ vs ++ back)) := by
  have hparts := parts_padded hother hvoid
  refine ⟨padded_ne_nil hne hother hvoid, ?_, ?_, getLast?_padded hother hback,
    [], hparts, lead_congr hlead cwd⟩
  · rw [compiledTo?, compiledTo?, extension?_congr (congrArg List.getLast? hparts)]
  · obtain ⟨p, hp, -⟩ := hback
    have hne : back ≠ [] := List.ne_nil_of_mem hp
    rw [Dotted, Dotted, splitAt_padded hother hvoid, hother, List.getLast?_append_of_ne_nil _ hne,
      List.getLast?_append_of_ne_nil _ hne]

/-- Nor is the working directory in front of a location, unless the location has no parts of its own and
the directory has the extension of a source. -/
theorem SameSource.join (hcwd : IsWorkingDirectory cwd) {other : Text} (hne : other ≠ [])
    (hrelative : isAbsolute other = false) (hname : parts other ≠ [] ∨ compiledTo? cwd = none) :
    SameSource cwd other (append cwd other) := by
  have hdir := ne_nil_of_isAbsolute hcwd.rooted
  have hparts := parts_append cwd hrelative
  refine ⟨append_ne_nil hdir, ?_, ?_, getLast?_append cwd hne hrelative, parts cwd, hparts, ?_⟩
  · by_cases hnone : parts other = []
    · have hcompiled := hname.resolve_left (not_not_intro hnone)
      have hjoined : extension? (append cwd other) = extension? cwd :=
        extension?_congr (by rw [hparts, hnone, List.append_nil])
      have hother : extension? other = extension? [] := extension?_congr (by rw [hnone, parts_nil])
      rw [compiledTo?, hjoined, ← compiledTo?, hcompiled, compiledTo?, hother]
      rfl
    · have hlast : extension? (append cwd other) = extension? other :=
        extension?_congr (by rw [hparts, List.getLast?_append_of_ne_nil _ hnone])
      rw [compiledTo?, compiledTo?, hlast]
  · obtain ⟨front, -, hpieces⟩ := splitAt_append_path cwd hrelative
    rw [Dotted, Dotted, hpieces, List.getLast?_append_of_ne_nil _ (Text.splitAt_ne_nil '/' other)]
  · have hlead : lead cwd (append cwd other) = lead [] cwd := by
      rw [lead_append cwd cwd hne hrelative]
      exact lead_of_isAbsolute hcwd.rooted cwd
    rw [hlead, lead_of_relative hrelative, hcwd.tidy]

/-- However a location is spelled, the same is made of it. -/
theorem Respelled.sameSource (hcwd : IsWorkingDirectory cwd) (hne : path ≠ [])
    (hname : parts path ≠ [] ∨ compiledTo? cwd = none) (h : Respelled cwd true path q) :
    SameSource cwd path q := by
  induction h with
  | same => exact .refl hne
  | @pad other front vs back _ hother hvoid _ hfits ih =>
    obtain ⟨hlead, hback⟩ := hfits rfl
    exact ih.trans (.pad ih.ne_nil hother hvoid hlead hback)
  | @join other _ hrelative ih =>
    obtain ⟨a, hparts, -⟩ := ih.parts_eq
    have hname' : parts other ≠ [] ∨ compiledTo? cwd = none :=
      hname.imp_left fun hpath => hparts ▸ List.append_ne_nil_of_right_ne_nil a hpath
    exact ih.trans (.join hcwd ih.ne_nil hrelative hname')

/-- The specifier is the same however the directory and the location are spelled. A location that is
nothing but points and slashes stands for the working directory itself, which keeps its name only as long
as that has not the extension of a source. -/
theorem specifier_respelled (hcwd : IsWorkingDirectory cwd) (hroutes : routesDir ≠ [])
    (hne : location ≠ []) (hname : q = location ∨ parts location ≠ [] ∨ compiledTo? cwd = none)
    (hdir : Respelled cwd false routesDir p) (hfile : Respelled cwd true location q) (esm : Bool) :
    specifier cwd p q esm = specifier cwd routesDir location esm := by
  obtain ⟨hp, hparts⟩ := hdir.parts_absolute hcwd hroutes
  obtain ⟨hcompiled, hsource⟩ : compiledTo? q = compiledTo? location ∧
      absolute cwd (splitSource q).1 = absolute cwd (splitSource location).1 := by
    rcases hname with rfl | hname
    · exact ⟨rfl, rfl⟩
    · have hsame := hfile.sameSource hcwd hne hname
      exact ⟨hsame.compiledTo?_eq, hsame.absolute hne⟩
  have hrelative : ∀ path,
      relativeTo? path (absolute cwd p) = relativeTo? path (absolute cwd routesDir) := by
    intro path
    rw [relativeTo?, relativeTo?, hparts, isAbsolute_absolute hcwd.rooted hp,
      isAbsolute_absolute hcwd.rooted hroutes]
  have htext : ∀ routesDir location, specifier cwd routesDir location esm =
      ['.', '/'] ++ Text.substitute '\\' '/' ((relativeTo? (absolute cwd (splitSource location).1)
        (absolute cwd routesDir)).getD (absolute cwd (splitSource location).1)) ++
      if esm then (splitSource location).2 else [] := fun _ _ => rfl
  rw [htext, htext, hrelative, hsource, splitSource_snd, splitSource_snd, hcompiled]

/-- Both paths behind the working directory, with repeated slashes and points in them, where there is no
way from the directory to the source to be seen. -/
theorem specifier_respelled_users :
    let cwd := "/app".toList
    let routesDir := "../out".toList
    let location := "src/users.ts".toList
    let routesDir' := "/app/./../out/".toList
    let location' := "///app/./src//users.ts".toList
    IsWorkingDirectory cwd ∧ routesDir ≠ [] ∧ location ≠ [] ∧
    (location' = location ∨ parts location ≠ [] ∨ compiledTo? cwd = none) ∧
    Respelled cwd false routesDir routesDir' ∧ Respelled cwd true location location' ∧
    specifier cwd routesDir' location' true = ".//app/src/users.js".toList := by
  intro cwd routesDir location routesDir' location'
  have hcwd : IsWorkingDirectory cwd := ⟨rfl, rfl⟩
  have hroutes : routesDir ≠ [] := by decide
  have hne : location ≠ [] := by decide
  have hname : location' = location ∨ parts location ≠ [] ∨ compiledTo? cwd = none := by decide
  have htrailing : Respelled cwd false routesDir "../out/".toList :=
    @Respelled.pad cwd false routesDir routesDir ["..".toList, "out".toList] [[]] [] .same rfl (by decide)
      rfl (fun h => by cases h)
  have hpoint : Respelled cwd false routesDir "./../out/".toList :=
    @Respelled.pad cwd false routesDir "../out/".toList [] [['.']] ["..".toList, "out".toList, []]
      htrailing rfl (by decide) rfl (fun h => by cases h)
  have hdir : Respelled cwd false routesDir routesDir' := .join hpoint rfl
  have hinner : Respelled cwd true location "src//users.ts".toList :=
    @Respelled.pad cwd true location location ["src".toList] [[]] ["users.ts".toList] .same rfl (by decide)
      rfl (fun _ => ⟨rfl, _, List.mem_cons_self, rfl⟩)
  have hjoined : Respelled cwd true location "/app/src//users.ts".toList := .join hinner rfl
  have hpoint' : Respelled cwd true location "/app/./src//users.ts".toList :=
    @Respelled.pad cwd true location "/app/src//users.ts".toList [[], "app".toList] [['.']]
      ["src".toList, [], "users.ts".toList] hjoined rfl (by decide) rfl
      (fun _ => ⟨rfl, _, List.mem_cons_self, rfl⟩)
  have hfile : Respelled cwd true location location' :=
    @Respelled.pad cwd true location "/app/./src//users.ts".toList [[]] [[], []]
      ["app".toList, ['.'], "src".toList, [], "users.ts".toList] hpoint' rfl (by decide) rfl
      (fun _ => ⟨rfl, _, List.mem_cons_self, rfl⟩)
  have hsame := specifier_respelled hcwd hroutes hne hname hdir hfile true
  exact ⟨hcwd, hroutes, hne, hname, hdir, hfile, hsame⟩

/-- Two slashes at the start of a location are kept in the specifier where there is no way to be seen, and
the extension is also taken off a working directory that a location without parts is put behind. -/
theorem specifier_spellings_apart :
    specifier "/app".toList "../out".toList "/app/src/users.ts".toList false = ".//app/src/users".toList ∧
    specifier "/app".toList "../out".toList "//app/src/users.ts".toList false =
      ".///app/src/users".toList ∧
    specifier "/srv/users.ts".toList "src".toList ".".toList false = "./..".toList ∧
    specifier "/srv/users.ts".toList "src".toList (append "/srv/users.ts".toList ".".toList) false =
      "./../../users".toList :=
  ⟨rfl, rfl, rfl, rfl⟩

end ImportPath

end RouteModule
