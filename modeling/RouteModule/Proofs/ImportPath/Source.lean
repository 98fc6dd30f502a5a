import RouteModule.Proofs.ImportPath.Specifier

/-!
Sources without their extension. `bare` takes the extension of a source off the name at the end of a
location and leaves all else. A specifier is made of the same text, but for a location that is dotted:
one that ends in an extension behind two points, such as `..ts`. Of its name a single point is left, and
what the specifier is made of has two, so that it leads a directory further up.
-/

namespace RouteModule

namespace FilePath

variable {path name stem : Text} {before ps : List Text} {c : Char}

theorem ofParts_concat_ne_nil (before : List Text) (h : stem ≠ []) : ofParts (before ++ [stem]) ≠ [] := by
  have hconcat := ofParts_concat before [] stem
  rw [List.nil_append] at hconcat
  rw [← hconcat]
  exact List.append_ne_nil_of_right_ne_nil _ h

theorem mem_of_mem_parts {p : Text} (h : p ∈ parts path) (hc : c ∈ p) : c ∈ path := by
  rw [parts, List.mem_filter] at h
  exact Text.mem_of_mem_splitAt h.1 c hc

end FilePath

namespace ImportPath

open FilePath

variable {location name stem ext : Text} {before : List Text} {c : Char}

/-- The extensions of sources. -/
def sourceExtensions : List Text := compiled.map Prod.fst

/-- The extension of what a location is compiled to, if it has the extension of a source. -/
def compiledTo? (location : Text) : Option Text :=
  (extension? location).bind fun ext => compiled.lookup ext

/-- A location without the extension of a source. -/
def bare (location : Text) : Text :=
  match lastName? location with
  | none => location
  | some (before, name) =>
    match splitName? name with
    | none => location
    | some (stem, ext) => if ext ∈ sourceExtensions then ofParts (before ++ [stem]) else location

/-- A location ends in the extension of a source behind two points. -/
def Dotted (location : Text) : Prop :=
  ∃ ext ∈ sourceExtensions, (Text.splitAt '/' location).getLast? = some ('.' :: '.' :: ext)

instance : DecidablePred Dotted := fun location =>
  inferInstanceAs (Decidable (∃ ext ∈ sourceExtensions,
    (Text.splitAt '/' location).getLast? = some ('.' :: '.' :: ext)))

theorem mem_sourceExtensions_iff : ext ∈ sourceExtensions ↔ ∃ js, compiled.lookup ext = some js := by
  rw [← Option.isSome_iff_exists, List.lookup_isSome_iff, sourceExtensions, List.mem_map]
  constructor
  · rintro ⟨entry, hentry, rfl⟩
    exact ⟨entry, hentry, beq_self_eq_true _⟩
  · rintro ⟨entry, hentry, heq⟩
    exact ⟨entry, hentry, (eq_of_beq heq).symm⟩

/-- A name of an extension of a source behind two points is cut behind the first of them. -/
theorem splitName?_dots (h : ext ∈ sourceExtensions) :
    splitName? ('.' :: '.' :: ext) = some (['.'], ext) ∧ isVoid ('.' :: '.' :: ext) = false ∧
      '.' :: '.' :: ext ≠ up := by
  simp only [sourceExtensions, compiled, List.map_cons, List.map_nil, List.mem_cons, List.not_mem_nil,
    or_false] at h
  rcases h with rfl | rfl | rfl <;> decide

/-- A location is dotted if its extension leaves a single point of its name, and nothing is behind the
name. -/
theorem dotted_iff :
    Dotted location ↔ ∃ before name ext, lastName? location = some (before, name) ∧
      splitName? name = some (['.'], ext) ∧ ext ∈ sourceExtensions ∧
      location = ofParts (before ++ [name]) := by
  constructor
  · rintro ⟨ext, hext, hlast⟩
    obtain ⟨hsplit, hname, hup⟩ := splitName?_dots hext
    obtain ⟨front, hfront⟩ := List.getLast?_eq_some_iff.1 hlast
    refine ⟨front, _, ext, ?_, hsplit, hext, ?_⟩
    · exact lastName?_eq_some_iff.2 ⟨⟨[], by simp, hfront⟩, hname, hup⟩
    · rw [← hfront]
      exact (Text.join_splitAt '/' location).symm
  · rintro ⟨before, name, ext, hname, hsplit, hext, hwhole⟩
    obtain ⟨⟨voids, -, hpieces⟩, -⟩ := lastName?_eq_some_iff.1 hname
    have hsolid : ∀ p ∈ before ++ [name], '/' ∉ p := by
      intro p hp
      refine Text.not_mem_of_mem_splitAt (t := location) (hpieces ▸ ?_)
      rcases List.mem_append.1 hp with hp | hp
      · exact List.mem_append_left _ hp
      · exact List.mem_append_right _ (List.mem_singleton.1 hp ▸ List.mem_cons_self)
    refine ⟨ext, hext, ?_⟩
    have hpieces' : Text.splitAt '/' location = before ++ [name] := by
      rw [hwhole, ofParts, Text.splitAt_join (by simp) hsolid]
    rw [hpieces', List.getLast?_append, List.getLast?_singleton]
    exact congrArg some (splitName?_eq_some hsplit).1

/-- The name at the end of a location, taken apart at the extension of a source. -/
structure Extended (location : Text) (before : List Text) (name stem ext : Text) : Prop where
  name_eq : lastName? location = some (before, name)
  split_eq : splitName? name = some (stem, ext)
  isSource : ext ∈ sourceExtensions

theorem Extended.compiledTo?_eq (h : Extended location before name stem ext) :
    ∃ js, compiledTo? location = some js := by
  simpa [compiledTo?, extension?, h.name_eq, h.split_eq] using mem_sourceExtensions_iff.1 h.isSource

/-- What is left of a location when its extension is taken off, and what a specifier is made of. -/
theorem splitSource_cases (location : Text) :
    compiledTo? location = none ∧ ¬ Dotted location ∧ bare location = location ∧
      (splitSource location).1 = location ∨
    ∃ before name stem ext, Extended location before name stem ext ∧
      bare location = ofParts (before ++ [stem]) ∧
      (¬ Dotted location ∧ (splitSource location).1 = ofParts (before ++ [stem]) ∨
        Dotted location ∧ stem = ['.'] ∧ (splitSource location).1 = ofParts (before ++ [up])) := by
  cases hname : lastName? location with
  | none =>
    exact .inl ⟨by simp [compiledTo?, extension?, hname], by simp [dotted_iff, hname],
      by simp [bare, hname], by simp [splitSource, extension?, hname]⟩
  | some last =>
    obtain ⟨before, name⟩ := last
    cases hsplit : splitName? name with
    | none =>
      exact .inl ⟨by simp [compiledTo?, extension?, hname, hsplit], by simp [dotted_iff, hname, hsplit],
        by simp [bare, hname, hsplit], by simp [splitSource, extension?, hname, hsplit]⟩
    | some parts =>
      obtain ⟨stem, ext⟩ := parts
      by_cases hext : ext ∈ sourceExtensions
      · obtain ⟨js, hjs⟩ := mem_sourceExtensions_iff.1 hext
        refine .inr ⟨before, name, stem, ext, ⟨hname, hsplit, hext⟩,
          by simp [bare, hname, hsplit, hext], ?_⟩
        have hsource : (splitSource location).1 = dropExtension location := by
          simp [splitSource, extension?, hname, hsplit, hjs]
        have hdotted : Dotted location ↔ stem = ['.'] ∧ location = ofParts (before ++ [name]) := by
          simp [dotted_iff, hname, hsplit, hext]
        rw [hsource, hdotted, dropExtension, hname]
        simp only [hsplit]
        by_cases hdots : stem = ['.'] ∧ location = ofParts (before ++ [name])
        · exact .inr ⟨hdots, hdots.1, if_pos hdots⟩
        · exact .inl ⟨hdots, if_neg hdots⟩
      · have hnone : compiled.lookup ext = none := by
          rw [← Option.not_isSome_iff_eq_none, Option.isSome_iff_exists, ← mem_sourceExtensions_iff]
          exact hext
        exact .inl ⟨by simp [compiledTo?, extension?, hname, hsplit, hnone],
          by simp [dotted_iff, hname, hsplit, hext], by simp [bare, hname, hsplit, hext],
          by simp [splitSource, extension?, hname, hsplit, hnone]⟩

theorem Extended.mem_name (h : Extended location before name stem ext) (hc : c ∈ stem) : c ∈ name := by
  rw [(splitName?_eq_some h.split_eq).1]
  exact List.mem_append_left _ hc

theorem Extended.name_mem (h : Extended location before name stem ext) : name ∈ parts location := by
  rw [parts_of_lastName? h.name_eq]
  exact List.mem_append_right _ (List.mem_singleton_self name)

/-- A stem has only characters of the location. -/
theorem Extended.mem_of_mem_stem (h : Extended location before name stem ext) (hc : c ∈ stem) :
    c ∈ location :=
  mem_of_mem_parts h.name_mem (h.mem_name hc)

theorem Extended.mem_pieces (h : Extended location before name stem ext) {p : Text} (hp : p ∈ before) :
    p ∈ Text.splitAt '/' location := by
  obtain ⟨⟨voids, -, hpieces⟩, -⟩ := lastName?_eq_some_iff.1 h.name_eq
  exact hpieces ▸ List.mem_append_left _ hp

theorem Extended.stem_ne_nil (h : Extended location before name stem ext) : stem ≠ [] :=
  (splitName?_eq_some h.split_eq).2

theorem Extended.not_mem_stem (h : Extended location before name stem ext) : '/' ∉ stem :=
  fun hmem => (isPart_of_mem h.name_mem).solid (h.mem_name hmem)

/-- The parts of a location with another name at its end. -/
theorem Extended.parts_renamed (h : Extended location before name stem ext) {x : Text} (hx : '/' ∉ x) :
    parts (ofParts (before ++ [x])) = (parts location).dropLast ++ [x].filter fun p => !isVoid p := by
  have hsolid : ∀ p ∈ before ++ [x], '/' ∉ p := by
    intro p hp
    rcases List.mem_append.1 hp with hp | hp
    · exact Text.not_mem_of_mem_splitAt (h.mem_pieces hp)
    · rwa [List.mem_singleton.1 hp]
  rw [parts_ofParts hsolid, List.filter_append, parts_of_lastName? h.name_eq, List.dropLast_concat]

theorem bare_ne_nil (hne : location ≠ []) : bare location ≠ [] := by
  rcases splitSource_cases location with ⟨-, -, hbare, -⟩ | ⟨before, name, stem, ext, h, hbare, -⟩
  · rwa [hbare]
  · rw [hbare]
    exact ofParts_concat_ne_nil before h.stem_ne_nil

/-- What a specifier is made of is the location, or has another name at its end: the stem, or two
points. -/
theorem splitSource_renamed (location : Text) :
    (splitSource location).1 = location ∧ compiledTo? location = none ∨
      ∃ before name stem ext x, Extended location before name stem ext ∧ (x = stem ∨ x = up) ∧
        x ≠ [] ∧ '/' ∉ x ∧ (splitSource location).1 = ofParts (before ++ [x]) := by
  rcases splitSource_cases location with
    ⟨hnone, -, -, hsource⟩ | ⟨before, name, stem, ext, h, -, ⟨-, hsource⟩ | ⟨-, -, hsource⟩⟩
  · exact .inl ⟨hsource, hnone⟩
  · exact .inr ⟨before, name, stem, ext, stem, h, .inl rfl, h.stem_ne_nil, h.not_mem_stem, hsource⟩
  · exact .inr ⟨before, name, stem, ext, up, h, .inr rfl, by decide, by decide, hsource⟩

theorem splitSource_ne_nil (hne : location ≠ []) : (splitSource location).1 ≠ [] := by
  rcases splitSource_renamed location with
    ⟨hsource, -⟩ | ⟨before, name, stem, ext, x, -, -, hx, -, hsource⟩
  · rwa [hsource]
  · rw [hsource]
    exact ofParts_concat_ne_nil before hx

theorem isAbsolute_bare (location : Text) : isAbsolute (bare location) = isAbsolute location := by
  rcases splitSource_cases location with ⟨-, -, hbare, -⟩ | ⟨before, name, stem, ext, h, hbare, -⟩
  · rw [hbare]
  · rw [hbare, isAbsolute_renamed h.name_eq h.stem_ne_nil h.not_mem_stem]

/-- What a specifier is made of starts with what the location starts with. -/
theorem lead_splitSource (cwd location : Text) : lead cwd (splitSource location).1 = lead cwd location := by
  rcases splitSource_renamed location with
    ⟨hsource, -⟩ | ⟨before, name, stem, ext, x, h, -, hx, hx', hsource⟩
  · rw [hsource]
  · rw [hsource, lead_renamed cwd h.name_eq hx hx']

theorem isAbsolute_splitSource (location : Text) :
    isAbsolute (splitSource location).1 = isAbsolute location :=
  isAbsolute_congr (lead_splitSource [] location)

/-- What a specifier is made of has the parts of the location without its extension, and `..` behind
them if the location is dotted. -/
theorem parts_splitSource (location : Text) :
    parts (splitSource location).1 = parts (bare location) ++ if Dotted location then [up] else [] := by
  rcases splitSource_cases location with
    ⟨-, hdots, hbare, hsource⟩ |
      ⟨before, name, stem, ext, h, hbare, ⟨hdots, hsource⟩ | ⟨hdots, hstem, hsource⟩⟩
  · rw [hbare, hsource, if_neg hdots, List.append_nil]
  · rw [hbare, hsource, if_neg hdots, List.append_nil]
  · have hvoid : [stem].filter (fun p => !isVoid p) = [] := by
      rw [hstem]
      rfl
    rw [hbare, hsource, if_pos hdots, h.parts_renamed h.not_mem_stem, h.parts_renamed (by decide), hvoid,
      List.append_nil]
    rfl

theorem parts_absolute_splitSource (cwd : Text) (hne : location ≠ []) :
    parts (absolute cwd (splitSource location).1) =
      parts (absolute cwd (bare location)) ++ if Dotted location then [up] else [] := by
  rw [parts_absolute cwd (splitSource_ne_nil hne), parts_absolute cwd (bare_ne_nil hne),
    isAbsolute_splitSource, isAbsolute_bare, List.append_assoc, parts_splitSource]

theorem not_mem_splitSource (hslash : c ≠ '/') (hpoint : c ≠ '.') (hc : c ∉ location) :
    c ∉ (splitSource location).1 := by
  rcases splitSource_renamed location with
    ⟨hsource, -⟩ | ⟨before, name, stem, ext, x, h, hname, -, -, hsource⟩
  · rwa [hsource]
  · rw [hsource]
    refine not_mem_ofParts hslash fun p hp hmem => ?_
    rcases List.mem_append.1 hp with hp | hp
    · exact hc (Text.mem_of_mem_splitAt (h.mem_pieces hp) c hmem)
    · rw [List.mem_singleton.1 hp] at hmem
      rcases hname with rfl | rfl
      · exact hc (h.mem_of_mem_stem hmem)
      · simp [up, hpoint] at hmem

end ImportPath

end RouteModule
