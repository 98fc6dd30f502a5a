import RouteModule.FilePath

/-!
What paths mean by their parts alone. `walk` leads from a place, given by the names on the way to it,
through parts, each `..` taking back the name before it; `lexical` is the place of a path that starts
at the root. A course sums parts up: so many directories up, and then down through names.
-/

namespace RouteModule

namespace Text

variable {sep : Char} {t u : Text}

theorem splitAt_of_not_mem (h : sep ∉ t) : splitAt sep t = [t] := by
  induction t with
  | nil => rfl
  | cons c t ih =>
    rw [List.mem_cons, not_or] at h
    rw [splitAt, ih h.2]
    exact if_neg (Ne.symm h.1)

/-- The pieces in front of a separator are apart from those behind it. -/
theorem splitAt_append (sep : Char) (t u : Text) :
    splitAt sep (t ++ sep :: u) = splitAt sep t ++ splitAt sep u := by
  induction t with
  | nil =>
    cases h : splitAt sep u with
    | nil => exact absurd h (splitAt_ne_nil sep u)
    | cons piece pieces => simp [splitAt, h]
  | cons c t ih =>
    cases h : splitAt sep t with
    | nil => exact absurd h (splitAt_ne_nil sep t)
    | cons piece pieces =>
      rw [List.cons_append, splitAt, splitAt, ih, h]
      by_cases hc : c = sep <;> simp [hc]

/-- No piece has the separator. -/
theorem not_mem_of_mem_splitAt {piece : Text} (h : piece ∈ splitAt sep t) : sep ∉ piece := by
  induction t generalizing piece with
  | nil =>
    rw [splitAt, List.mem_singleton] at h
    simp [h]
  | cons c t ih =>
    cases hs : splitAt sep t with
    | nil => exact absurd hs (splitAt_ne_nil sep t)
    | cons first pieces =>
      rw [splitAt, hs] at h
      rw [hs] at ih
      by_cases hc : c = sep
      · simp only [hc, if_true, List.mem_cons] at h
        rcases h with rfl | h
        · exact List.not_mem_nil
        · exact ih (List.mem_cons.2 h)
      · simp only [hc, if_false, List.mem_cons] at h
        rcases h with rfl | h
        · have hfirst : sep ∉ first := ih List.mem_cons_self
          rw [List.mem_cons, not_or]
          exact ⟨Ne.symm hc, hfirst⟩
        · exact ih (List.mem_cons_of_mem first h)

theorem join_cons_cons (sep : Char) (piece next : Text) (pieces : List Text) :
    join [sep] (piece :: next :: pieces) = piece ++ sep :: join [sep] (next :: pieces) := by
  simp [join]

/-- Pieces without the separator are found again. -/
theorem splitAt_join {pieces : List Text} (hne : pieces ≠ []) (h : ∀ p ∈ pieces, sep ∉ p) :
    splitAt sep (join [sep] pieces) = pieces := by
  induction pieces with
  | nil => exact absurd rfl hne
  | cons piece pieces ih =>
    have hpiece : splitAt sep piece = [piece] := splitAt_of_not_mem (h piece List.mem_cons_self)
    cases pieces with
    | nil => exact hpiece
    | cons next pieces =>
      have hrest := ih (by simp) fun p hp => h p (List.mem_cons_of_mem piece hp)
      rw [join_cons_cons, splitAt_append, hpiece, hrest, List.singleton_append]

end Text

namespace FilePath

section Parts

variable {cwd dir path : Text}

/-- A part that means something: it is not void, and has no slash. -/
structure IsPart (part : Text) : Prop where
  filled : isVoid part = false
  solid : '/' ∉ part

theorem isPart_of_mem {part : Text} (h : part ∈ parts path) : IsPart part := by
  rw [parts, List.mem_filter] at h
  exact ⟨by simpa using h.2, Text.not_mem_of_mem_splitAt h.1⟩

theorem IsPart.ne_nil {part : Text} (h : IsPart part) : part ≠ [] := by
  rintro rfl
  exact absurd h.filled (by decide)

theorem IsPart.isAbsolute {part : Text} (h : IsPart part) : isAbsolute part = false := by
  have hsolid := h.solid
  cases part with
  | nil => rfl
  | cons c part =>
    have hc : c ≠ '/' := fun hc => hsolid (hc ▸ List.mem_cons_self)
    simp [FilePath.isAbsolute, hc]

@[simp] theorem parts_nil : parts [] = [] := rfl

theorem parts_slash (path other : Text) : parts (path ++ '/' :: other) = parts path ++ parts other := by
  rw [parts, Text.splitAt_append, List.filter_append]
  rfl

theorem parts_of_isPart {part : Text} (h : IsPart part) : parts part = [part] := by
  rw [parts, Text.splitAt_of_not_mem h.solid]
  simp [h.filled]

/-- Joined parts are parts again, but for those that are void. -/
theorem parts_ofParts {ps : List Text} (h : ∀ p ∈ ps, '/' ∉ p) :
    parts (ofParts ps) = ps.filter fun p => !isVoid p := by
  cases ps with
  | nil => rfl
  | cons p ps => rw [parts, ofParts, Text.splitAt_join (by simp) h]

/-- A path that does not start at the root is put behind the pieces of a directory, but for empty
ones. -/
theorem splitAt_append_path (dir : Text) (h : isAbsolute path = false) :
    ∃ front, front.filter (· ≠ []) = (Text.splitAt '/' dir).filter (· ≠ []) ∧
      Text.splitAt '/' (append dir path) = front ++ Text.splitAt '/' path := by
  unfold append
  rw [h]
  simp only [Bool.false_eq_true, if_false]
  split
  · next hdir =>
    rcases hdir with rfl | hlast
    · exact ⟨[], rfl, rfl⟩
    · obtain ⟨front, rfl⟩ := List.getLast?_eq_some_iff.1 hlast
      refine ⟨Text.splitAt '/' front, ?_, ?_⟩
      · rw [Text.splitAt_append, List.filter_append]
        exact (List.append_nil _).symm
      · rw [List.append_assoc, List.singleton_append, Text.splitAt_append]
  · exact ⟨_, rfl, Text.splitAt_append '/' dir path⟩

/-- A path that does not start at the root is put behind the parts of a directory. -/
theorem parts_append (dir : Text) (h : isAbsolute path = false) :
    parts (append dir path) = parts dir ++ parts path := by
  obtain ⟨front, hfront, hsplit⟩ := splitAt_append_path dir h
  have hvoid : ∀ pieces : List Text, pieces.filter (fun p => !isVoid p) =
      (pieces.filter (· ≠ [])).filter fun p => !isVoid p := by
    intro pieces
    rw [List.filter_filter]
    congr 1
    funext p
    by_cases hp : p = [] <;> simp [isVoid, hp]
  rw [parts, hsplit, List.filter_append, hvoid front, hfront, ← hvoid, parts, parts]

theorem append_absolute (dir : Text) (h : isAbsolute path = true) : append dir path = path := by
  rw [append, if_pos h]

theorem parts_foldl_append {ps : List Text} (h : ∀ p ∈ ps, IsPart p) (lead : Text) :
    parts (ps.foldl append lead) = parts lead ++ ps := by
  induction ps generalizing lead with
  | nil => simp
  | cons p ps ih =>
    have hp := h p List.mem_cons_self
    rw [List.foldl_cons, ih fun q hq => h q (List.mem_cons_of_mem p hq), parts_append _ hp.isAbsolute,
      parts_of_isPart hp, List.append_assoc, List.singleton_append]

/-- What the parts of a path are put behind to free it of the working directory: that directory, or
what the path starts with. -/
def lead (cwd path : Text) : Text :=
  if isAbsolute path then
    if Text.startsWith ['/', '/'] path && !Text.startsWith ['/', '/', '/'] path then ['/', '/']
    else ['/']
  else cwd

theorem parts_lead_eq (cwd path : Text) :
    parts (lead cwd path) = if isAbsolute path then [] else parts cwd := by
  unfold lead
  split
  · split <;> rfl
  · rfl

theorem isAbsolute_lead (hcwd : isAbsolute cwd = true) (path : Text) :
    isAbsolute (lead cwd path) = true := by
  unfold lead
  split
  · split <;> rfl
  · exact hcwd

/-- The parts are put behind the lead, and a slash behind them if the path ends in one. -/
theorem absolute_eq (cwd : Text) (hne : path ≠ []) :
    absolute cwd path =
      if path.getLast? = some '/' then append ((parts path).foldl append (lead cwd path)) []
      else (parts path).foldl append (lead cwd path) := by
  rw [absolute, if_neg hne]
  rfl

/-- A path freed of the working directory has that directory's parts in front, unless it starts at
the root. -/
theorem parts_absolute (cwd : Text) (hne : path ≠ []) :
    parts (absolute cwd path) = (if isAbsolute path then [] else parts cwd) ++ parts path := by
  have hwhole : parts ((parts path).foldl append (lead cwd path)) =
      (if isAbsolute path then [] else parts cwd) ++ parts path := by
    rw [parts_foldl_append fun _ => isPart_of_mem, parts_lead_eq]
  rw [absolute_eq cwd hne]
  split
  · rw [parts_append _ rfl, hwhole, parts_nil, List.append_nil]
  · exact hwhole

theorem ne_nil_of_isAbsolute (h : isAbsolute path = true) : path ≠ [] := by
  rintro rfl
  cases h

theorem isAbsolute_append (hdir : dir ≠ []) (h : isAbsolute path = false) :
    isAbsolute (append dir path) = isAbsolute dir := by
  cases dir with
  | nil => exact absurd rfl hdir
  | cons c dir =>
    unfold append
    rw [h]
    simp only [Bool.false_eq_true, if_false]
    split <;> rfl

theorem append_ne_nil (hdir : dir ≠ []) : append dir path ≠ [] := by
  unfold append
  split
  · next h => exact ne_nil_of_isAbsolute h
  · split
    · simp [hdir]
    · simp

theorem isAbsolute_foldl_append {ps : List Text} (h : ∀ p ∈ ps, IsPart p) {lead : Text}
    (hlead : isAbsolute lead = true) : isAbsolute (ps.foldl append lead) = true := by
  induction ps generalizing lead with
  | nil => exact hlead
  | cons p ps ih =>
    have hp := h p List.mem_cons_self
    apply ih fun q hq => h q (List.mem_cons_of_mem p hq)
    rwa [isAbsolute_append (ne_nil_of_isAbsolute hlead) hp.isAbsolute]

/-- A path freed of the working directory starts at the root if that directory does. -/
theorem isAbsolute_absolute (hcwd : isAbsolute cwd = true) (hne : path ≠ []) :
    isAbsolute (absolute cwd path) = true := by
  have hwhole : isAbsolute ((parts path).foldl append (lead cwd path)) = true :=
    isAbsolute_foldl_append (fun _ => isPart_of_mem) (isAbsolute_lead hcwd path)
  rw [absolute_eq cwd hne]
  split
  · rw [isAbsolute_append (ne_nil_of_isAbsolute hwhole) rfl, hwhole]
  · exact hwhole

end Parts

section Leads

variable {cwd path other : Text} {c : Char}

/-- What a path starts with is settled by its first character that is no slash. -/
theorem lead_append_cons (hc : c ≠ '/') (cwd a t : Text) : lead cwd (a ++ c :: t) = lead cwd a := by
  match a with
  | [] => simp [lead, isAbsolute, hc]
  | [p] => by_cases hp : p = '/' <;> simp [lead, isAbsolute, Text.startsWith, Text.after?, hp, hc.symm]
  | [p, q] =>
    by_cases hp : p = '/' <;> by_cases hq : '/' = q <;>
      simp [lead, isAbsolute, Text.startsWith, Text.after?, hp, hq, hc.symm]
  | p :: q :: r :: a =>
    by_cases hp : p = '/' <;> by_cases hq : '/' = q <;>
      simp [lead, isAbsolute, Text.startsWith, Text.after?, hp, hq]

theorem lead_nil_eq_nil_iff : lead [] path = [] ↔ isAbsolute path = false := by
  unfold lead
  split
  · next h =>
    refine iff_of_false ?_ (by simp [h])
    split <;> simp
  · next h => simpa using h

theorem isAbsolute_congr (h : lead [] path = lead [] other) : isAbsolute path = isAbsolute other := by
  rw [Bool.eq_iff_iff, ← Bool.not_eq_false, ← Bool.not_eq_false, ← lead_nil_eq_nil_iff,
    ← lead_nil_eq_nil_iff, h]

theorem lead_of_isAbsolute (h : isAbsolute path = true) (cwd : Text) : lead cwd path = lead [] path := by
  unfold lead
  rw [if_pos h, if_pos h]

theorem lead_of_relative (h : isAbsolute path = false) (cwd : Text) : lead cwd path = cwd := by
  unfold lead
  exact if_neg (by simp [h])

theorem lead_congr (h : lead [] path = lead [] other) (cwd : Text) : lead cwd path = lead cwd other := by
  have habsolute := isAbsolute_congr h
  cases hother : isAbsolute other with
  | true => rw [lead_of_isAbsolute hother, lead_of_isAbsolute (habsolute.trans hother), h]
  | false => rw [lead_of_relative hother, lead_of_relative (habsolute.trans hother)]

/-- A path behind a directory starts with what the directory starts with. -/
theorem lead_append (cwd dir : Text) (hne : path ≠ []) (h : isAbsolute path = false) :
    lead cwd (append dir path) = lead cwd dir := by
  obtain ⟨c, t, rfl⟩ := List.exists_cons_of_ne_nil hne
  have hc : c ≠ '/' := by
    rintro rfl
    cases h
  unfold append
  rw [if_neg (by simp [h])]
  split
  · exact lead_append_cons hc cwd dir t
  · next hdir =>
    rw [not_or] at hdir
    obtain ⟨front, d, rfl⟩ := List.eq_nil_or_concat dir |>.resolve_left hdir.1
    have hd : d ≠ '/' := by simpa using hdir.2
    rw [List.concat_eq_append, List.append_assoc, List.singleton_append, lead_append_cons hd,
      lead_append_cons hd]

end Leads

section Names

variable {path name : Text} {before : List Text}

/-- The name at the end of a path is its last piece that is not void. -/
theorem lastName?_eq_some_iff :
    lastName? path = some (before, name) ↔
      (∃ voids, (∀ v ∈ voids, isVoid v = true) ∧
        Text.splitAt '/' path = before ++ name :: voids) ∧ isVoid name = false ∧ name ≠ up := by
  rw [lastName?]
  constructor
  · intro h
    cases hdrop : (Text.splitAt '/' path).reverse.dropWhile isVoid with
    | nil => simp [hdrop] at h
    | cons last front =>
      obtain ⟨hup, rfl, rfl⟩ : last ≠ up ∧ front.reverse = before ∧ last = name := by
        simpa [hdrop] using h
      have hlast : isVoid last = false := by
        have hhead := List.head_dropWhile_not isVoid (l := (Text.splitAt '/' path).reverse)
          (by simp [hdrop])
        simpa [hdrop] using hhead
      have hsplit := List.takeWhile_append_dropWhile (p := isVoid)
        (l := (Text.splitAt '/' path).reverse)
      refine ⟨⟨((Text.splitAt '/' path).reverse.takeWhile isVoid).reverse, ?_, ?_⟩, hlast, hup⟩
      · intro v hv
        exact List.all_eq_true.1 List.all_takeWhile v (List.mem_reverse.1 hv)
      · rw [hdrop, ← List.reverse_eq_iff] at hsplit
        exact hsplit.symm.trans (by simp)
  · rintro ⟨⟨voids, hvoids, hsplit⟩, hname, hup⟩
    have hvoids' : ∀ v ∈ voids.reverse, isVoid v = true := fun v hv =>
      hvoids v (List.mem_reverse.1 hv)
    have hreverse : (Text.splitAt '/' path).reverse =
        voids.reverse ++ name :: before.reverse := by simp [hsplit]
    rw [hreverse, List.dropWhile_append_of_pos hvoids', List.dropWhile_cons_of_neg (by simp [hname])]
    simp [hup]

/-- The name at the end of a path is its last part. -/
theorem parts_of_lastName? (h : lastName? path = some (before, name)) :
    parts path = before.filter (fun p => !isVoid p) ++ [name] := by
  obtain ⟨⟨voids, hvoids, hsplit⟩, hname, -⟩ := lastName?_eq_some_iff.1 h
  have hnone : voids.filter (fun p => !isVoid p) = [] := by simpa using hvoids
  rw [parts, hsplit, List.filter_append, List.filter_cons_of_pos (by simp [hname]), hnone]

/-- A path behind a directory keeps its extension. -/
theorem extension?_append (dir : Text) {ext : Text} (h : extension? path = some ext) :
    extension? (append dir path) = some ext := by
  cases habsolute : isAbsolute path with
  | true => rwa [append_absolute dir habsolute]
  | false =>
    obtain ⟨⟨before, name⟩, hlast, hext⟩ := Option.bind_eq_some_iff.1 h
    obtain ⟨⟨voids, hvoids, hsplit⟩, hname⟩ := lastName?_eq_some_iff.1 hlast
    obtain ⟨front, -, hwhole⟩ := splitAt_append_path dir habsolute
    refine Option.bind_eq_some_iff.2 ⟨(front ++ before, name), ?_, hext⟩
    exact lastName?_eq_some_iff.2 ⟨⟨voids, hvoids, by rw [hwhole, hsplit, List.append_assoc]⟩, hname⟩

/-- A path with an extension has parts. -/
theorem parts_ne_nil_of_extension? {ext : Text} (h : extension? path = some ext) :
    parts path ≠ [] := by
  obtain ⟨⟨before, name⟩, hlast, -⟩ := Option.bind_eq_some_iff.1 h
  simp [parts_of_lastName? hlast]

end Names

section Walking

variable {place ps qs : List Text} {cwd dir path : Text}

/-- The place that parts lead to from a place. -/
def walk : List Text → List Text → List Text
  | place, [] => place
  | place, part :: rest =>
    if part = up then walk place.dropLast rest else walk (place ++ [part]) rest

/-- The place of a path that starts at the root, links aside. -/
def lexical (path : Text) : List Text := walk [] (parts path)

theorem walk_append (place ps qs : List Text) : walk place (ps ++ qs) = walk (walk place ps) qs := by
  induction ps generalizing place with
  | nil => rfl
  | cons p ps ih =>
    rw [List.cons_append, walk, walk]
    split
    · exact ih _
    · exact ih _

/-- Names lead down. -/
theorem walk_names (h : up ∉ ps) (place : List Text) : walk place ps = place ++ ps := by
  induction ps generalizing place with
  | nil => simp [walk]
  | cons p ps ih =>
    rw [List.mem_cons, not_or] at h
    rw [walk, if_neg (Ne.symm h.1), ih h.2, List.append_assoc, List.singleton_append]

/-- Going up takes names back. -/
theorem walk_ups (place : List Text) (ps : List Text) :
    walk place (ps.map fun _ => up) = place.take (place.length - ps.length) := by
  induction ps generalizing place with
  | nil => simp [walk]
  | cons p ps ih =>
    rw [List.map_cons, walk, if_pos rfl, ih, List.dropLast_eq_take, List.take_take, List.length_take,
      List.length_cons]
    congr 1
    omega

/-- What parts come to: so many directories up, and then down through names. -/
structure Course where
  up : Nat
  down : List Text
  deriving DecidableEq, Repr

namespace Course

/-- The course with one more part behind it. -/
def step (c : Course) (part : Text) : Course :=
  if part = FilePath.up then
    if c.down = [] then ⟨c.up + 1, []⟩ else ⟨c.up, c.down.dropLast⟩
  else ⟨c.up, c.down ++ [part]⟩

/-- The place that a course leads to from a place. -/
def leadFrom (c : Course) (place : List Text) : List Text :=
  place.take (place.length - c.up) ++ c.down

theorem leadFrom_step (c : Course) (part : Text) :
    (c.step part).leadFrom place = walk (c.leadFrom place) [part] := by
  obtain ⟨n, down⟩ := c
  rw [walk]
  split
  · next hpart =>
    by_cases hdown : down = []
    · have htake : (place.take (place.length - n)).dropLast = place.take (place.length - (n + 1)) := by
        rw [List.dropLast_eq_take, List.take_take, List.length_take]
        congr 1
        omega
      simp only [step, hpart, hdown, if_true, leadFrom, walk, List.append_nil, htake]
    · simp only [step, hpart, hdown, if_true, if_false, leadFrom, walk]
      rw [List.dropLast_append_of_ne_nil hdown]
  · next hpart => simp [step, hpart, leadFrom, walk]

end Course

/-- What a list of parts comes to. -/
def course (ps : List Text) : Course := ps.foldl Course.step ⟨0, []⟩

/-- A course that ends with a name goes down to it. -/
theorem down_course_append {name : Text} (h : name ≠ up) (ps : List Text) :
    (course (ps ++ [name])).down = (course ps).down ++ [name] := by
  simp [course, Course.step, h]

/-- Parts lead where their course leads. -/
theorem walk_eq (place ps : List Text) : walk place ps = (course ps).leadFrom place := by
  have hfold : ∀ (ps : List Text) (c : Course),
      walk (c.leadFrom place) ps = (ps.foldl Course.step c).leadFrom place := by
    intro ps
    induction ps with
    | nil => exact fun _ => rfl
    | cons p ps ih =>
      intro c
      rw [List.foldl_cons, ← ih, Course.leadFrom_step, ← walk_append, List.singleton_append]
  have hstart : (⟨0, []⟩ : Course).leadFrom place = place := by simp [Course.leadFrom]
  rw [course, ← hfold, hstart]

end Walking

end FilePath

end RouteModule
