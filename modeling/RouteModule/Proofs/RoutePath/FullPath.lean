import Mathlib.Data.List.Forall2
import RouteModule.Generation
import RouteModule.Proofs.RoutePath.Groups
import RouteModule.Proofs.Text.Occurrences

/-!
Full paths put together of their pieces: the base path, the path of the controller and the path of the
method, each without its edges. A full path is these pieces joined by single slashes, and what is empty
is left out, with one exception: a path of a controller that has nothing but edges, and is more than the
bare root, leaves a slash between a base path and a path of a method that are not empty.
-/

namespace RouteModule.RoutePath

open Text (Bare)

variable {c : Char} {p q t : Text} {ps : List Text}

section Pieces

/-- A piece behind a slash, or nothing if it is empty. -/
def slashed (p : Text) : Text := if p = [] then [] else '/' :: p

@[simp] theorem slashed_nil : slashed [] = [] := rfl

theorem slashed_of_ne (h : p ≠ []) : slashed p = '/' :: p := if_neg h

/-- Pieces behind a slash and joined by single slashes, the empty ones left out. -/
def joined (ps : List Text) : Text := '/' :: Text.join ['/'] (ps.filter fun p => p ≠ [])

theorem join_cons_cons (p q : Text) (ps : List Text) :
    Text.join ['/'] (p :: q :: ps) = p ++ '/' :: Text.join ['/'] (q :: ps) := by
  simp [Text.join]

theorem flatMap_slashed (ps : List Text) :
    ps.flatMap slashed = (ps.filter fun p => p ≠ []).flatMap ('/' :: ·) := by
  induction ps with
  | nil => rfl
  | cons p ps ih =>
    by_cases hp : p = []
    · simp [hp, ih]
    · simp [hp, slashed_of_ne hp, ih]

theorem flatMap_slash (p : Text) (ps : List Text) :
    (p :: ps).flatMap ('/' :: ·) = '/' :: Text.join ['/'] (p :: ps) := by
  induction ps generalizing p with
  | nil => simp [Text.join]
  | cons q ps ih =>
    rw [List.flatMap_cons, ih q, join_cons_cons]
    rfl

theorem head?_join (hp : p ≠ []) (ps : List Text) :
    (Text.join ['/'] (p :: ps)).head? = p.head? := by
  obtain ⟨c, p, rfl⟩ := List.exists_cons_of_ne_nil hp
  cases ps with
  | nil => rfl
  | cons q ps => rfl

theorem join_ne_nil (hp : p ≠ []) (ps : List Text) : Text.join ['/'] (p :: ps) ≠ [] := by
  intro hnil
  have hhead := head?_join hp ps
  rw [hnil] at hhead
  exact hp (List.head?_eq_none_iff.1 hhead.symm)

/-- Pieces that are bare and not empty are bare when they are joined. -/
theorem bare_join (h : ∀ p ∈ ps, p ≠ [] ∧ Bare isEdge p) : Bare isEdge (Text.join ['/'] ps) := by
  induction ps with
  | nil => exact ⟨by simp [Text.join], by simp [Text.join]⟩
  | cons p ps ih =>
    obtain ⟨hp, hbare⟩ := h p List.mem_cons_self
    refine ⟨by rw [head?_join hp]; exact hbare.head, ?_⟩
    cases ps with
    | nil => exact hbare.last
    | cons q ps =>
      have hrest := ih fun r hr => h r (List.mem_cons_of_mem p hr)
      have hq := (h q (by simp)).1
      intro c hc
      apply hrest.last c
      rw [join_cons_cons, ← List.singleton_append, ← List.append_assoc,
        List.getLast?_append_of_ne_nil _ (join_ne_nil hq ps)] at hc
      exact hc

/-- What stands at the edges of a path has no part in its rooted form. -/
theorem rooted_append {a b : Text} (ha : ∀ c ∈ a, isEdge c = true) (hb : ∀ c ∈ b, isEdge c = true)
    (t : Text) : rooted (a ++ t ++ b) = rooted t := by
  rw [rooted_eq, rooted_eq, Text.trimBy_append_trimmed ha hb]

theorem isEdge_slash : ∀ c ∈ ['/'], isEdge c = true := by simp [isEdge]

/-- The rooted form of bare pieces behind slashes is that of the joined ones. -/
theorem rooted_flatMap (h : ∀ p ∈ ps, Bare isEdge p) : rooted (ps.flatMap slashed) = joined ps := by
  rw [flatMap_slashed, rooted_eq, joined]
  congr 1
  have hps : ∀ p ∈ ps.filter (fun p => p ≠ []), p ≠ [] ∧ Bare isEdge p := by
    intro p hp
    obtain ⟨hmem, hne⟩ := List.mem_filter.1 hp
    exact ⟨by simpa using hne, h p hmem⟩
  have hbare := bare_join hps
  cases hq : ps.filter fun p => p ≠ [] with
  | nil => rfl
  | cons q qs =>
    rw [hq] at hbare
    rw [flatMap_slash]
    have htrim := Text.trimBy_append isEdge_slash (b := []) (by simp) hbare
    simpa using htrim

end Pieces

section Segments

variable {style : PathStyle} {path : Text}

/-- A path has nothing but edges, but is more than the bare root. -/
def IsStray (path : Text) : Prop :=
  Text.trimBy isEdge path = [] ∧ path ≠ [] ∧ path ≠ ['/']

instance : DecidablePred IsStray := fun _ => inferInstanceAs (Decidable (_ ∧ _))

/-- The segment of a stray path is a slash. -/
theorem segment_of_isStray (h : IsStray path) : segment path = ['/'] := by
  obtain ⟨htrim, hne, hroot⟩ := h
  simp [segment, normalise, htrim, hne, hroot]

/-- The segment of any other path is what trimming leaves of it, behind a slash. -/
theorem segment_of_not_isStray (h : ¬ IsStray path) :
    segment path = slashed (Text.trimBy isEdge path) := by
  by_cases hskip : path = [] ∨ path = ['/']
  · rcases hskip with rfl | rfl
    · rfl
    · rfl
  · rw [not_or] at hskip
    have hne : Text.trimBy isEdge path ≠ [] := fun htrim => h ⟨htrim, hskip⟩
    simp [segment, normalise, hskip, slashed_of_ne hne]

theorem transform_cons (h : c ≠ '\x7b') (t : Text) :
    style.transform (c :: t) = c :: style.transform t := by
  cases style with
  | colon => exact toColons_cons (group?_of_ne h)
  | brace => rfl

@[simp] theorem transform_nil : style.transform [] = [] := by
  cases style with
  | colon => exact toColons_nil
  | brace => rfl

theorem transform_eq_nil_iff : style.transform t = [] ↔ t = [] := by
  constructor
  · intro h
    cases style with
    | colon =>
      by_contra hne
      exact toColons_ne_nil hne h
    | brace => exact h
  · rintro rfl
    exact transform_nil

theorem transform_slashed (t : Text) :
    style.transform (slashed t) = slashed (style.transform t) := by
  by_cases ht : t = []
  · simp [ht]
  · rw [slashed_of_ne ht, slashed_of_ne (by rwa [ne_eq, transform_eq_nil_iff]),
      transform_cons (by decide)]

theorem bare_transform (h : Bare isEdge t) : Bare isEdge (style.transform t) := by
  cases style with
  | colon => exact bare_toColons h
  | brace => exact h

end Segments

section DoubleSlashes

/-- Two slashes stand side by side. -/
def HasDoubleSlash (t : Text) : Prop := ['/', '/'] <:+: t

instance : DecidablePred HasDoubleSlash := fun _ => inferInstanceAs (Decidable (_ <:+: _))

theorem hasDoubleSlash_cons :
    HasDoubleSlash (c :: t) ↔ c = '/' ∧ t.head? = some '/' ∨ HasDoubleSlash t := by
  unfold HasDoubleSlash
  rw [List.infix_cons_iff]
  cases t with
  | nil => simp
  | cons d t => simp [eq_comm]

/-- What has no slash brings no double slash to a text behind it. -/
theorem hasDoubleSlash_append_of_ne {a : Text} (ha : ∀ c ∈ a, c ≠ '/') (t : Text) :
    HasDoubleSlash (a ++ t) ↔ HasDoubleSlash t := by
  induction a with
  | nil => rfl
  | cons c a ih =>
    have hc : c ≠ '/' := ha c (by simp)
    rw [List.cons_append, hasDoubleSlash_cons, ih fun d hd => ha d (by simp [hd])]
    simp [hc]

theorem head?_toColons (t : Text) : (toColons t).head? = some '/' ↔ t.head? = some '/' := by
  cases t with
  | nil => rw [toColons_nil]
  | cons c t =>
    cases hg : group? (c :: t) with
    | some g =>
      obtain ⟨-, heq⟩ := group?_eq_some_iff.1 hg
      rw [toColons_of_group hg, heq]
      simp
    | none =>
      rw [toColons_cons hg]
      rfl

/-- Rewriting brings no double slash to a path, and takes none away. -/
theorem hasDoubleSlash_transform (style : PathStyle) (t : Text) :
    HasDoubleSlash (style.transform t) ↔ HasDoubleSlash t := by
  cases style with
  | brace => rfl
  | colon =>
    rw [PathStyle.transform]
    fun_induction toColons t with
    | case1 => rfl
    | case2 c t word rest h ih =>
      obtain ⟨hword, heq⟩ := group?_eq_some_iff.1 h
      have hslash : ∀ d ∈ word, d ≠ '/' := by
        rintro d hd rfl
        cases hword _ hd
      have hsplit : c :: t = '\x7b' :: (word ++ ['\x7d']) ++ rest := by simp [heq]
      rw [hsplit, hasDoubleSlash_append_of_ne, hasDoubleSlash_append_of_ne, ih]
      · intro d hd
        simp only [List.mem_cons, List.mem_append, List.not_mem_nil, or_false] at hd
        rcases hd with rfl | hd | rfl
        · decide
        · exact hslash d hd
        · decide
      · intro d hd
        rcases List.mem_cons.1 hd with rfl | hd
        · decide
        · exact hslash d hd
    | case3 c t h ih => rw [hasDoubleSlash_cons, hasDoubleSlash_cons, head?_toColons, ih]

theorem not_mem_slashes (h : isEdge c = false) : c ∉ ['/', '/'] := by
  rintro hc
  obtain rfl : c = '/' := by simpa using hc
  cases h

/-- A slash in front of a bare text makes no double slash. -/
theorem hasDoubleSlash_slash (h : Bare isEdge t) : HasDoubleSlash ('/' :: t) ↔ HasDoubleSlash t := by
  rw [hasDoubleSlash_cons]
  constructor
  · rintro (⟨-, hhead⟩ | ht)
    · cases h.head _ hhead
    · exact ht
  · exact .inr

/-- Joining bare pieces that are not empty by single slashes makes no double slash. -/
theorem hasDoubleSlash_join (h : ∀ p ∈ ps, p ≠ [] ∧ Bare isEdge p) :
    HasDoubleSlash (Text.join ['/'] ps) ↔ ∃ p ∈ ps, HasDoubleSlash p := by
  induction ps with
  | nil => simp [Text.join, HasDoubleSlash]
  | cons p ps ih =>
    have hrest : ∀ q ∈ ps, q ≠ [] ∧ Bare isEdge q := fun q hq => h q (List.mem_cons_of_mem p hq)
    cases ps with
    | nil => simp [Text.join]
    | cons q ps =>
      have happart : Text.Apart ['/', '/'] p ('/' :: Text.join ['/'] (q :: ps)) :=
        .inl fun c hc => not_mem_slashes ((h p List.mem_cons_self).2.last c hc)
      rw [join_cons_cons, HasDoubleSlash, Text.infix_append happart, ← HasDoubleSlash,
        ← HasDoubleSlash, hasDoubleSlash_slash (bare_join hrest), ih hrest]
      simp only [List.mem_cons, exists_eq_or_imp]

/-- Bare pieces have no double slash when they are joined, unless one of them has. -/
theorem hasDoubleSlash_joined (h : ∀ p ∈ ps, Bare isEdge p) :
    HasDoubleSlash (joined ps) ↔ ∃ p ∈ ps, HasDoubleSlash p := by
  have hps : ∀ p ∈ ps.filter (fun p => p ≠ []), p ≠ [] ∧ Bare isEdge p := by
    intro p hp
    obtain ⟨hmem, hne⟩ := List.mem_filter.1 hp
    exact ⟨by simpa using hne, h p hmem⟩
  rw [joined, hasDoubleSlash_slash (bare_join hps), hasDoubleSlash_join hps]
  constructor
  · rintro ⟨p, hp, hdouble⟩
    exact ⟨p, (List.mem_filter.1 hp).1, hdouble⟩
  · rintro ⟨p, hp, hdouble⟩
    refine ⟨p, List.mem_filter.2 ⟨hp, ?_⟩, hdouble⟩
    rw [decide_eq_true_iff]
    rintro rfl
    simp [HasDoubleSlash] at hdouble

end DoubleSlashes

section FullPaths

variable (style : PathStyle) (base controller method : Text)

/-- A base path, the path of a controller and the path of a method, each without its edges. -/
def edgeless : List Text :=
  [Text.trimBy isEdge base, Text.trimBy isEdge controller, Text.trimBy isEdge method]

/-- The pieces of a full path: of these three, the latter two in the style of the framework. -/
def pieces : List Text :=
  [Text.trimBy isEdge base, style.transform (Text.trimBy isEdge controller),
    style.transform (Text.trimBy isEdge method)]

/-- The path of the controller is stray, between a base path and a path of a method that are more than
edges. -/
def LeavesGap : Prop :=
  Text.trimBy isEdge base ≠ [] ∧ IsStray controller ∧ Text.trimBy isEdge method ≠ []

instance : Decidable (LeavesGap base controller method) := inferInstanceAs (Decidable (_ ∧ _))

/-- The path of a route below the paths of its module and its controller. -/
def fullPath : Text :=
  rooted (rooted base ++ style.transform (segment controller) ++ style.transform (segment method))

variable {style base controller method}

theorem bare_pieces : ∀ p ∈ pieces style base controller method, Bare isEdge p := by
  intro p hp
  simp only [pieces, List.mem_cons, List.not_mem_nil, or_false] at hp
  rcases hp with rfl | rfl | rfl
  · exact Text.bare_trimBy isEdge base
  · exact bare_transform (Text.bare_trimBy isEdge controller)
  · exact bare_transform (Text.bare_trimBy isEdge method)

theorem hasDoubleSlash_pieces :
    (∃ p ∈ pieces style base controller method, HasDoubleSlash p) ↔
      ∃ p ∈ edgeless base controller method, HasDoubleSlash p := by
  simp [pieces, edgeless, hasDoubleSlash_transform]

theorem transform_segment_of_isStray (h : IsStray controller) :
    style.transform (segment controller) = ['/'] := by
  rw [segment_of_isStray h, transform_cons (by decide), transform_nil]

theorem transform_segment_of_not_isStray (h : ¬ IsStray controller) :
    style.transform (segment controller) =
      slashed (style.transform (Text.trimBy isEdge controller)) := by
  rw [segment_of_not_isStray h, transform_slashed]

/-- A base path that is nothing but edges leaves nothing in front of what follows it. -/
theorem rooted_base_append (base t : Text) :
    rooted (rooted base ++ t) = rooted (slashed (Text.trimBy isEdge base) ++ t) := by
  by_cases hbase : Text.trimBy isEdge base = []
  · have hslash := rooted_append isEdge_slash (b := []) (by simp) t
    simpa [rooted_eq base, hbase] using hslash
  · rw [rooted_eq base, slashed_of_ne hbase]

/-- A path of a method that is nothing but edges leaves nothing behind what is in front of it. -/
theorem rooted_append_method (t method : Text) :
    rooted (t ++ style.transform (segment method)) =
      rooted (t ++ slashed (style.transform (Text.trimBy isEdge method))) := by
  by_cases hstray : IsStray method
  · have hslash := rooted_append (a := []) (by simp) isEdge_slash t
    simpa [transform_segment_of_isStray hstray, hstray.1] using hslash
  · rw [transform_segment_of_not_isStray hstray]

/-- Unless there is a gap, a full path is its pieces joined by single slashes. -/
theorem fullPath_of_not_leavesGap (h : ¬ LeavesGap base controller method) :
    fullPath style base controller method = joined (pieces style base controller method) := by
  have hbare : ∀ p ∈ pieces style base controller method, Bare isEdge p := bare_pieces
  have hjoined := rooted_flatMap hbare
  simp only [pieces, List.flatMap_cons, List.flatMap_nil, List.append_nil] at hjoined
  rw [fullPath, List.append_assoc, rooted_base_append, ← List.append_assoc, rooted_append_method,
    pieces, ← hjoined]
  by_cases hstray : IsStray controller
  · -- The slash that the controller leaves is at an edge, as nothing is on one side of it.
    rw [transform_segment_of_isStray hstray, hstray.1, transform_nil, slashed_nil, List.nil_append]
    by_cases hbase : Text.trimBy isEdge base = []
    · have hslash := rooted_append isEdge_slash (b := []) (by simp)
        (slashed (style.transform (Text.trimBy isEdge method)))
      simpa [hbase] using hslash
    · have hmethod : Text.trimBy isEdge method = [] := by
        by_contra hne
        exact h ⟨hbase, hstray, hne⟩
      have hslash := rooted_append (a := []) (by simp) isEdge_slash (slashed (Text.trimBy isEdge base))
      simpa [hmethod] using hslash
  · rw [transform_segment_of_not_isStray hstray, List.append_assoc]

/-- Where there is a gap, two slashes stand between the base path and the path of the method. -/
theorem fullPath_of_leavesGap (h : LeavesGap base controller method) :
    fullPath style base controller method =
      '/' :: (Text.trimBy isEdge base ++ '/' :: '/' ::
        style.transform (Text.trimBy isEdge method)) := by
  obtain ⟨hbase, hstray, hmethod⟩ := h
  have hmethod' : style.transform (Text.trimBy isEdge method) ≠ [] := by
    rwa [ne_eq, transform_eq_nil_iff]
  have hbare : Bare isEdge (Text.trimBy isEdge base ++ '/' :: '/' ::
      style.transform (Text.trimBy isEdge method)) := by
    have hlast : Bare isEdge (style.transform (Text.trimBy isEdge method)) :=
      bare_transform (Text.bare_trimBy isEdge method)
    refine ⟨?_, ?_⟩
    · rw [List.head?_append_of_ne_nil _ hbase]
      exact (Text.bare_trimBy isEdge base).head
    · rw [List.append_cons, List.append_cons, List.getLast?_append_of_ne_nil _ hmethod']
      exact hlast.last
  have htrim := Text.trimBy_append isEdge_slash (b := []) (by simp) hbare
  rw [fullPath, List.append_assoc, rooted_base_append, ← List.append_assoc, rooted_append_method,
    transform_segment_of_isStray hstray, slashed_of_ne hbase, slashed_of_ne hmethod', rooted_eq]
  congr 1
  simpa using htrim

/-- A full path is its pieces joined by single slashes just if there is no gap. -/
theorem fullPath_eq_joined_iff :
    fullPath style base controller method = joined (pieces style base controller method) ↔
      ¬ LeavesGap base controller method := by
  refine ⟨fun heq h => ?_, fullPath_of_not_leavesGap⟩
  rw [fullPath_of_leavesGap h] at heq
  obtain ⟨hbase, hstray, hmethod⟩ := h
  have hmethod' : style.transform (Text.trimBy isEdge method) ≠ [] := by
    rwa [ne_eq, transform_eq_nil_iff]
  have hlength := congrArg List.length heq
  simp [joined, pieces, hbase, hstray.1, hmethod', Text.join] at hlength

/-- Where no piece has a double slash, a full path has one just if there is a gap. -/
theorem hasDoubleSlash_fullPath
    (h : ∀ p ∈ edgeless base controller method, ¬ HasDoubleSlash p) :
    HasDoubleSlash (fullPath style base controller method) ↔ LeavesGap base controller method := by
  constructor
  · intro hdouble
    by_contra hgap
    rw [fullPath_of_not_leavesGap hgap, hasDoubleSlash_joined bare_pieces,
      hasDoubleSlash_pieces] at hdouble
    obtain ⟨p, hp, hdouble⟩ := hdouble
    exact h p hp hdouble
  · intro hgap
    rw [fullPath_of_leavesGap hgap]
    exact ⟨'/' :: Text.trimBy isEdge base, style.transform (Text.trimBy isEdge method), by simp⟩

end FullPaths

end RouteModule.RoutePath

namespace RouteModule.RouteContext

open RoutePath

/-- For every strategy, the full path of a route is its pieces joined by single slashes, the empty ones
left out, just if its controller leaves no gap; and where no piece has a double slash, it has one just
if there is a gap. -/
theorem fullPaths_ofMetadata (s : Strategy) (cwd : Text) (m : Metadata) (o : Options) :
    List.Forall₂
      (fun c k => List.Forall₂
        (fun h a =>
          (a.fullPath = joined (pieces s.pathStyle o.basePath c.path h.path) ↔
            ¬ LeavesGap o.basePath c.path h.path) ∧
          (LeavesGap o.basePath c.path h.path → a.fullPath =
            '/' :: (Text.trimBy isEdge o.basePath ++ '/' :: '/' ::
              s.pathStyle.transform (Text.trimBy isEdge h.path))) ∧
          ((∀ p ∈ edgeless o.basePath c.path h.path, ¬ HasDoubleSlash p) →
            (HasDoubleSlash a.fullPath ↔ LeavesGap o.basePath c.path h.path)))
        c.methods k.actions)
      m.controllers (ofMetadata s.pathStyle cwd m o).controllers := by
  have hcontrollers : (ofMetadata s.pathStyle cwd m o).controllers = m.controllers.map
      (ControllerRoutes.ofController s.pathStyle cwd (rooted o.basePath) o) := rfl
  rw [hcontrollers, List.forall₂_map_right_iff, List.forall₂_same]
  intro c _
  have hactions : (ControllerRoutes.ofController s.pathStyle cwd (rooted o.basePath) o c).actions =
      c.methods.map (Action.ofMethod s.pathStyle (rooted o.basePath)
        (s.pathStyle.transform (segment c.path))) := rfl
  rw [hactions, List.forall₂_map_right_iff, List.forall₂_same]
  intro h _
  have hfull : (Action.ofMethod s.pathStyle (rooted o.basePath)
      (s.pathStyle.transform (segment c.path)) h).fullPath =
        fullPath s.pathStyle o.basePath c.path h.path := rfl
  rw [hfull]
  exact ⟨fullPath_eq_joined_iff, fullPath_of_leavesGap, hasDoubleSlash_fullPath⟩

/-- A controller whose path has nothing but slashes. -/
def strayController : Controller :=
  ⟨"Users".toList, "src/users.ts".toList, "//".toList,
    [⟨"find".toList, .get, "users/".toList, [], none, []⟩]⟩

/-- Options with a base path in front of every route. -/
def apiOptions : Options := { Options.ofRoutesDir "src".toList with basePath := "/api".toList }

/-- The stray path of the controller leaves an empty part in the full path of its route. -/
theorem stray_fullPath_hasDoubleSlash :
    (∀ p ∈ edgeless apiOptions.basePath strayController.path "users/".toList, ¬ HasDoubleSlash p) ∧
    joined (pieces .colon apiOptions.basePath strayController.path "users/".toList) =
      "/api/users".toList ∧
    ∃ k ∈ (ofMetadata (Strategy.ofOptions apiOptions).pathStyle [] ⟨[strayController], []⟩
        apiOptions).controllers, ∃ a ∈ k.actions,
      a.fullPath = "/api//users".toList ∧ HasDoubleSlash a.fullPath := by
  have husers : toColons "users".toList = "users".toList := toColons_eq_self (by decide)
  have hgap : LeavesGap apiOptions.basePath strayController.path "users/".toList := by decide
  have hfull : fullPath .colon apiOptions.basePath strayController.path "users/".toList =
      "/api//users".toList := by
    rw [fullPath_of_leavesGap hgap]
    have htrim : Text.trimBy isEdge "users/".toList = "users".toList := by decide
    rw [htrim, PathStyle.transform, husers]
    decide
  have hdouble : HasDoubleSlash "/api//users".toList := by decide
  refine ⟨by decide, ?_, _, List.mem_cons_self, _, List.mem_cons_self, hfull, ?_⟩
  · have htrim : Text.trimBy isEdge "users/".toList = "users".toList := by decide
    have hstray : Text.trimBy isEdge strayController.path = [] := by decide
    rw [pieces, htrim, hstray, transform_nil, PathStyle.transform, husers]
    decide
  · rw [← hfull] at hdouble
    exact hdouble

end RouteModule.RouteContext
