import Mathlib.Data.List.Basic
import Mathlib.Data.List.TakeDrop
import RouteModule.FilePath
import RouteModule.Proofs.FilePath.Forks

/-!
Where import specifiers lead. The specifier of a source is made in two steps: the way to the source
without its extension, and then the extension of what the source is compiled to, put behind the text of
that way. The second step names the compiled module as long as the way ends with the name of the
source. It does not where the directory lies at or below a directory of that very name: then the way
only climbs, or is empty, and the extension makes a name of its own.
-/

namespace RouteModule

namespace Text

variable {sep old new : Char} {t piece : Text}

theorem mem_of_mem_splitAt (h : piece ∈ splitAt sep t) : ∀ c ∈ piece, c ∈ t := by
  intro c hc
  rw [← join_splitAt sep t]
  generalize splitAt sep t = pieces at h
  induction pieces with
  | nil => exact absurd h List.not_mem_nil
  | cons first pieces ih =>
    cases pieces with
    | nil =>
      rw [List.mem_singleton] at h
      rwa [join, ← h]
    | cons second pieces =>
      rw [join_cons_cons]
      rcases List.mem_cons.1 h with rfl | h
      · exact List.mem_append_left _ hc
      · exact List.mem_append_right _ (List.mem_cons_of_mem sep (ih h))

theorem substitute_of_not_mem (h : old ∉ t) : substitute old new t = t := by
  have hsame : ∀ c ∈ t, (if c = old then new else c) = c := by
    intro c hc
    refine if_neg ?_
    rintro rfl
    exact h hc
  rw [substitute, List.map_congr_left hsame, List.map_id']

theorem not_mem_substitute (hne : new ≠ old) (t : Text) : old ∉ substitute old new t := by
  intro h
  obtain ⟨c, -, hc⟩ := List.mem_map.1 h
  split at hc
  · exact hne hc
  · next hother => exact hother hc

end Text

namespace FilePath

variable {place ps qs base before : List Text} {path name stem ext p location cwd : Text}

section Joining

theorem isPart_up : IsPart up := ⟨rfl, by decide⟩

/-- Parts in front of others are followed by slashes. -/
theorem ofParts_append (ps : List Text) (hqs : qs ≠ []) :
    ofParts (ps ++ qs) = ps.flatMap (· ++ ['/']) ++ ofParts qs := by
  induction ps with
  | nil => rfl
  | cons p ps ih =>
    obtain ⟨q, rest, hrest⟩ := List.exists_cons_of_ne_nil (List.append_ne_nil_of_right_ne_nil ps hqs)
    rw [List.flatMap_cons, List.append_assoc, ← ih, List.cons_append, hrest]
    simp [ofParts, Text.join]

theorem ofParts_concat (ps : List Text) (p t : Text) :
    ofParts (ps ++ [p]) ++ t = ofParts (ps ++ [p ++ t]) := by
  rw [ofParts_append ps (List.cons_ne_nil p []), ofParts_append ps (List.cons_ne_nil _ []),
    List.append_assoc]
  rfl

theorem mem_ofParts {c : Char} (h : c ∈ ofParts ps) : c = '/' ∨ ∃ p ∈ ps, c ∈ p := by
  induction ps with
  | nil => exact absurd h List.not_mem_nil
  | cons p ps ih =>
    cases ps with
    | nil => exact .inr ⟨p, List.mem_singleton_self p, h⟩
    | cons q ps =>
      rw [ofParts, Text.join_cons_cons] at h
      rcases List.mem_append.1 h with hc | hc
      · exact .inr ⟨p, List.mem_cons_self, hc⟩
      · rcases List.mem_cons.1 hc with rfl | hc
        · exact .inl rfl
        · obtain hslash | ⟨r, hr, hc⟩ := ih hc
          · exact .inl hslash
          · exact .inr ⟨r, List.mem_cons_of_mem p hr, hc⟩

theorem not_mem_ofParts {c : Char} (hc : c ≠ '/') (h : ∀ p ∈ ps, c ∉ p) : c ∉ ofParts ps := by
  intro hmem
  rcases mem_ofParts hmem with hslash | ⟨p, hp, hcp⟩
  · exact hc hslash
  · exact h p hp hcp

theorem parts_lead (h : ∀ p ∈ ps, IsPart p) (t : Text) :
    parts (ps.flatMap (· ++ ['/']) ++ t) = ps ++ parts t := by
  induction ps with
  | nil => rfl
  | cons p ps ih =>
    obtain ⟨hp, hps⟩ := List.forall_mem_cons.1 h
    have hlead : (p :: ps).flatMap (· ++ ['/']) ++ t =
        p ++ '/' :: (ps.flatMap (· ++ ['/']) ++ t) := by simp
    rw [hlead, parts_slash, parts_of_isPart hp, ih hps]
    rfl

theorem parts_ofParts_of_isPart (h : ∀ p ∈ ps, IsPart p) : parts (ofParts ps) = ps := by
  rw [parts_ofParts fun p hp => (h p hp).solid, List.filter_eq_self]
  intro p hp
  simp [(h p hp).filled]

/-- Behind what is left of a place, there are only names that were walked through. -/
theorem mem_of_mem_walk {n : Text} (h : n ∈ (walk place ps).drop place.length) : n ∈ ps := by
  have hdown : ∀ (qs : List Text) (c : Course), (∀ n ∈ c.down, n ∈ ps) → (∀ q ∈ qs, q ∈ ps) →
      ∀ n ∈ (qs.foldl Course.step c).down, n ∈ ps := by
    intro qs
    induction qs with
    | nil => exact fun c hc _ => hc
    | cons q qs ih =>
      intro c hc hqs
      obtain ⟨hq, hqs⟩ := List.forall_mem_cons.1 hqs
      refine ih _ ?_ hqs
      intro n hn
      unfold Course.step at hn
      split at hn
      · split at hn
        · exact absurd hn List.not_mem_nil
        · exact hc n (List.dropLast_subset _ hn)
      · rcases List.mem_append.1 hn with hn | hn
        · exact hc n hn
        · rwa [List.mem_singleton.1 hn]
  rw [walk_eq, Course.leadFrom, List.drop_append] at h
  rcases List.mem_append.1 h with h | h
  · have hnone : (place.take (place.length - (course ps).up)).drop place.length = [] := by
      rw [List.drop_eq_nil_iff, List.length_take]
      omega
    rw [hnone] at h
    exact absurd h List.not_mem_nil
  · exact hdown ps ⟨0, []⟩ (by simp) (fun q hq => hq) n (List.mem_of_mem_drop h)

end Joining

section Extensions

/-- A name is its stem, a point and its extension. -/
theorem splitName?_eq_some (h : splitName? name = some (stem, ext)) :
    name = stem ++ '.' :: ext ∧ stem ≠ [] := by
  rw [splitName?, List.span_eq_takeWhile_dropWhile] at h
  have hwhole := List.takeWhile_append_dropWhile (p := (· != '.')) (l := name.reverse)
  cases hdrop : name.reverse.dropWhile (· != '.') with
  | nil => simp [hdrop] at h
  | cons point front =>
    have hpoint : point = '.' := by
      have hhead := List.head_dropWhile_not (· != '.') (l := name.reverse) (by simp [hdrop])
      simpa [hdrop] using hhead
    cases front with
    | nil => simp [hdrop] at h
    | cons c front =>
      rw [hdrop] at h hwhole
      simp only [Option.some.injEq, Prod.mk.injEq] at h
      obtain ⟨rfl, rfl⟩ := h
      rw [← List.reverse_eq_iff] at hwhole
      refine ⟨hwhole.symm.trans ?_, by simp⟩
      simp [hpoint]

/-- Taking the extension off leaves the stem of the name, unless that is a single point. -/
theorem dropExtension_eq (hname : lastName? path = some (before, name))
    (hsplit : splitName? name = some (stem, ext)) (hstem : stem ≠ ['.']) :
    dropExtension path = ofParts (before ++ [stem]) := by
  simp [dropExtension, hname, hsplit, hstem]

theorem ne_nil_of_lastName? (h : lastName? path = some (before, name)) : path ≠ [] := by
  rintro rfl
  simpa using parts_of_lastName? h

theorem isPart_stem (hname : lastName? path = some (before, name))
    (hsplit : splitName? name = some (stem, ext)) (hdot : stem ≠ ['.']) : IsPart stem := by
  obtain ⟨rfl, hstem⟩ := splitName?_eq_some hsplit
  have hlast : stem ++ '.' :: ext ∈ parts path := by
    rw [parts_of_lastName? hname]
    simp
  have hsolid := (isPart_of_mem hlast).solid
  exact ⟨by simp [isVoid, hstem, hdot], fun hmem => hsolid (List.mem_append_left _ hmem)⟩

/-- A path with another name at its end starts with what the path starts with. -/
theorem lead_renamed (cwd : Text) (hname : lastName? path = some (before, name)) (hstem : stem ≠ [])
    (hstem' : '/' ∉ stem) : lead cwd (ofParts (before ++ [stem])) = lead cwd path := by
  obtain ⟨⟨voids, -, hpieces⟩, hfilled, -⟩ := lastName?_eq_some_iff.1 hname
  have hsolid : '/' ∉ name := Text.not_mem_of_mem_splitAt (t := path) (hpieces ▸ by simp)
  have hne : name ≠ [] := by
    rintro rfl
    exact absurd hfilled (by decide)
  have hpath : path = ofParts (before ++ name :: voids) := by
    rw [← hpieces]
    exact (Text.join_splitAt '/' path).symm
  have hstart : ∀ {y : Text} {rest : List Text}, y ≠ [] → '/' ∉ y →
      lead cwd (ofParts (before ++ y :: rest)) = lead cwd (before.flatMap (· ++ ['/'])) := by
    intro y rest hy hy'
    obtain ⟨c, y, rfl⟩ := List.exists_cons_of_ne_nil hy
    have hc : c ≠ '/' := fun heq => hy' (heq ▸ List.mem_cons_self)
    have hhead : ∃ t, ofParts ((c :: y) :: rest) = c :: t := by
      cases rest with
      | nil => exact ⟨y, rfl⟩
      | cons z rest => exact ⟨y ++ '/' :: ofParts (z :: rest), by rw [ofParts, Text.join_cons_cons]; rfl⟩
    obtain ⟨t, ht⟩ := hhead
    rw [ofParts_append before (List.cons_ne_nil _ rest), ht, lead_append_cons hc]
  rw [hpath, hstart hstem hstem', hstart hne hsolid]

theorem isAbsolute_renamed (hname : lastName? path = some (before, name)) (hstem : stem ≠ [])
    (hstem' : '/' ∉ stem) : isAbsolute (ofParts (before ++ [stem])) = isAbsolute path :=
  isAbsolute_congr (lead_renamed [] hname hstem hstem')

/-- A path without the extension of its name has the stem in place of the name. -/
theorem parts_stem (cwd : Text) (hname : lastName? path = some (before, name))
    (hsplit : splitName? name = some (stem, ext)) (hdot : stem ≠ ['.']) :
    ofParts (before ++ [stem]) ≠ [] ∧
      parts (absolute cwd (ofParts (before ++ [stem]))) =
        (parts (absolute cwd path)).dropLast ++ [stem] := by
  have hstem := isPart_stem hname hsplit hdot
  obtain ⟨⟨voids, -, hwhole⟩, -⟩ := lastName?_eq_some_iff.1 hname
  have hsolid : ∀ p ∈ before ++ [stem], '/' ∉ p := by
    refine List.forall_mem_append.2 ⟨fun p hp => ?_, fun p hp => ?_⟩
    · exact Text.not_mem_of_mem_splitAt (hwhole ▸ List.mem_append_left _ hp)
    · exact List.mem_singleton.1 hp ▸ hstem.solid
  have hparts : parts (ofParts (before ++ [stem])) =
      before.filter (fun p => !isVoid p) ++ [stem] := by
    rw [parts_ofParts hsolid, List.filter_append]
    simp [hstem.filled]
  have hne : ofParts (before ++ [stem]) ≠ [] := by
    intro hnil
    rw [hnil, parts_nil] at hparts
    simp at hparts
  refine ⟨hne, ?_⟩
  rw [parts_absolute cwd hne, parts_absolute cwd (ne_nil_of_lastName? hname),
    isAbsolute_renamed hname hstem.ne_nil hstem.solid, hparts,
    parts_of_lastName? hname, ← List.append_assoc, ← List.append_assoc, List.dropLast_concat]

end Extensions

end FilePath

namespace ImportPath

open FilePath

variable {cwd routesDir location name stem ext js : Text} {before shared left down place : List Text}

/-- The place that a specifier names for a file in a directory. -/
def named (cwd routesDir specifier : Text) : List Text :=
  lexical (append (absolute cwd routesDir) specifier)

/-- The text that a specifier has behind its first slash, where the way to the source climbs by the
parts `left` and goes down by the parts `down`. -/
def wayText (left down : List Text) (js : Text) : Text :=
  Text.substitute '\\' '/' (ofParts (left.map (fun _ => up) ++ down)) ++ js

/-- What stands behind the point and the slash of a specifier is walked from the directory. -/
theorem named_slash (cwd routesDir t : Text) :
    named cwd routesDir ('.' :: '/' :: t) = walk (lexical (absolute cwd routesDir)) (parts t) := by
  have hparts : parts ('.' :: '/' :: t) = parts t := parts_slash ['.'] t
  rw [named, lexical, parts_append _ rfl, hparts, walk_append, lexical]

/-- What is behind a dot and a slash is a specifier of what it is by itself. -/
theorem named_wayText (hups : up ∉ shared ++ left)
    (hroutes : parts (absolute cwd routesDir) = shared ++ left) (left' down : List Text) (js : Text) :
    named cwd routesDir (['.', '/'] ++ wayText left' down js) =
      walk (shared ++ left) (parts (wayText left' down js)) := by
  have hslash : named cwd routesDir (['.', '/'] ++ wayText left' down js) =
      walk (lexical (absolute cwd routesDir)) (parts (wayText left' down js)) :=
    named_slash cwd routesDir _
  rw [hslash, lexical, hroutes, walk_names hups, List.nil_append]

/-- A way that goes down leads, behind what it climbs, to where the text of its end leads. -/
theorem walk_wayText (hdown : down ≠ []) (js : Text) :
    walk (shared ++ left) (parts (wayText left down js)) =
      walk shared (parts (Text.substitute '\\' '/' (ofParts down) ++ js)) := by
  have hups : ∀ p ∈ left.map (fun _ => up), IsPart p := by
    intro p hp
    rw [List.eq_of_mem_map_const hp]
    exact isPart_up
  have hlead : '\\' ∉ (left.map fun _ => up).flatMap (· ++ ['/']) := by
    simp [up]
  have hsplit : wayText left down js = (left.map fun _ => up).flatMap (· ++ ['/']) ++
      (Text.substitute '\\' '/' (ofParts down) ++ js) := by
    rw [wayText, ofParts_append _ hdown, Text.substitute, List.map_append, ← Text.substitute,
      Text.substitute_of_not_mem hlead, ← Text.substitute, List.append_assoc]
  rw [hsplit, parts_lead hups, walk_append, walk_ups]
  simp

/-- The extensions of compiled modules have no separators in them, and are no shorter than `.js`. -/
theorem compiled_lookup (h : compiled.lookup ext = some js) :
    '/' ∉ js ∧ '\\' ∉ js ∧ 3 ≤ js.length := by
  have hmem : js ∈ [".js".toList, ".mjs".toList, ".cjs".toList] := by
    simp only [compiled, List.lookup_cons, List.lookup_nil] at h
    repeat' split at h
    all_goals simp_all
  simp only [List.mem_cons, List.not_mem_nil, or_false] at hmem
  rcases hmem with rfl | rfl | rfl <;> decide

theorem isPart_of_length {p : Text} (hsolid : '/' ∉ p) (h : 3 ≤ p.length) : IsPart p ∧ p ≠ up := by
  refine ⟨⟨?_, hsolid⟩, ?_⟩
  · have hne : p ≠ [] ∧ p ≠ ['.'] := by constructor <;> (rintro rfl; simp at h)
    simp [isVoid, hne]
  · rintro rfl
    simp [up] at h

/-- A way that goes down through names without backslashes ends with the name of the compiled
module. -/
theorem walk_plain (hjs : '/' ∉ js ∧ '\\' ∉ js ∧ 3 ≤ js.length)
    (hparts : ∀ p ∈ down ++ [stem], IsPart p) (hup : up ∉ down)
    (hplain : ∀ p ∈ down ++ [stem], '\\' ∉ p) :
    walk shared (parts (Text.substitute '\\' '/' (ofParts (down ++ [stem])) ++ js)) =
      shared ++ (down ++ [stem ++ js]) := by
  obtain ⟨hsolid, -, hlong⟩ := hjs
  obtain ⟨hdown, hstem⟩ := List.forall_mem_append.1 hparts
  have hstem := (hstem stem (List.mem_singleton_self stem)).solid
  have hname : IsPart (stem ++ js) ∧ stem ++ js ≠ up := by
    refine isPart_of_length (by simp [hstem, hsolid]) ?_
    rw [List.length_append]
    omega
  have hnone : '\\' ∉ ofParts (down ++ [stem]) := not_mem_ofParts (by decide) hplain
  have hall : ∀ p ∈ down ++ [stem ++ js], IsPart p := by
    refine List.forall_mem_append.2 ⟨hdown, fun p hp => ?_⟩
    rw [List.mem_singleton.1 hp]
    exact hname.1
  rw [Text.substitute_of_not_mem hnone, ofParts_concat, parts_ofParts_of_isPart hall, walk_names]
  simp [hup, hname.2.symm]

/-- A way that goes down through a name with a backslash does not lead there. -/
theorem walk_ne_of_backslash (hjs : '\\' ∉ js) {n : Text} (hn : n ∈ down ++ [stem])
    (hback : '\\' ∈ n) :
    walk shared (parts (Text.substitute '\\' '/' (ofParts (down ++ [stem])) ++ js)) ≠
      shared ++ (down ++ [stem ++ js]) := by
  intro h
  obtain ⟨m, hm, hback⟩ : ∃ m ∈ down ++ [stem ++ js], '\\' ∈ m := by
    rcases List.mem_append.1 hn with hn | hn
    · exact ⟨n, List.mem_append_left _ hn, hback⟩
    · rw [List.mem_singleton.1 hn] at hback
      exact ⟨stem ++ js, by simp, List.mem_append_left _ hback⟩
  have hwalked := congrArg (List.drop shared.length) h
  rw [List.drop_left] at hwalked
  have hpart := mem_of_mem_walk (hwalked ▸ hm)
  rw [parts, List.mem_filter] at hpart
  rcases List.mem_append.1 (Text.mem_of_mem_splitAt hpart.1 _ hback) with hmem | hmem
  · exact Text.not_mem_substitute (by decide) _ hmem
  · exact hjs hmem

/-- A way that only climbs leads, with the extension behind it, to a place below the one that it
climbs to. -/
theorem length_climb (hjs : '/' ∉ js ∧ 3 ≤ js.length) (shared left : List Text) :
    shared.length < (walk (shared ++ left) (parts (wayText left [] js))).length := by
  obtain ⟨hsolid, hlong⟩ := hjs
  rcases List.eq_nil_or_concat left with rfl | ⟨front, last, rfl⟩
  · obtain ⟨hpart, hup⟩ := isPart_of_length hsolid hlong
    have htext : wayText [] [] js = js := rfl
    rw [htext, parts_of_isPart hpart, walk_names (by simpa using hup.symm)]
    simp
  · obtain ⟨hpart, hup⟩ : IsPart (up ++ js) ∧ up ++ js ≠ up := by
      refine isPart_of_length (by simp [up, hsolid]) ?_
      rw [List.length_append]
      omega
    have hups : ∀ p ∈ front.map (fun _ => up), IsPart p := by
      intro p hp
      rw [List.eq_of_mem_map_const hp]
      exact isPart_up
    have hplain : '\\' ∉ ofParts (front.map (fun _ => up) ++ [up]) := by
      refine not_mem_ofParts (by decide) fun p hp => ?_
      rcases List.mem_append.1 hp with hp | hp
      · rw [List.eq_of_mem_map_const hp]
        decide
      · rw [List.mem_singleton.1 hp]
        decide
    have htext : wayText (front ++ [last]) [] js =
        ofParts (front.map (fun _ => up) ++ [up ++ js]) := by
      rw [wayText, List.append_nil, List.map_append, List.map_singleton,
        Text.substitute_of_not_mem hplain, ofParts_concat]
    have hall : ∀ p ∈ front.map (fun _ => up) ++ [up ++ js], IsPart p :=
      List.forall_mem_append.2 ⟨hups, fun p hp => List.mem_singleton.1 hp ▸ hpart⟩
    rw [List.concat_eq_append, htext, parts_ofParts_of_isPart hall, walk_append, walk_ups,
      walk_names (by simpa using hup.symm)]
    simp
    omega

/-- The text of a specifier, by where the ways of source and directory part. -/
theorem specifier_of_forks (hcwd : isAbsolute cwd = true) (hroutes : routesDir ≠ [])
    (hne : (splitSource location).1 ≠ [])
    (h : Forks (parts (absolute cwd (splitSource location).1)) (parts (absolute cwd routesDir))
      shared down left) (esm : Bool) :
    specifier cwd routesDir location esm = ['.', '/'] ++ Text.substitute '\\' '/'
      (if down ≠ [] ∧ left.head? = some up then absolute cwd (splitSource location).1
        else ofParts (left.map (fun _ => up) ++ down)) ++
      if esm then (splitSource location).2 else [] := by
  have hrelative : relativeTo? (absolute cwd (splitSource location).1) (absolute cwd routesDir) =
      if down ≠ [] ∧ left.head? = some up then none
      else some (ofParts (left.map (fun _ => up) ++ down)) := by
    rw [relativeTo?, isAbsolute_absolute hcwd hne, isAbsolute_absolute hcwd hroutes,
      if_neg fun hne => hne rfl, h.wayDown?, apply_ite (Option.map ofParts)]
    rfl
  rw [specifier]
  simp only [hrelative]
  split <;> rfl

/-- What a specifier says of a source with an extension: it climbs to the longest way that the source
without its extension and the directory have in common. -/
theorem specifier_eq (hcwd : isAbsolute cwd = true) (hroutes : routesDir ≠ [])
    (hbase : up ∉ parts (absolute cwd routesDir))
    (hname : lastName? location = some (before, name))
    (hsplit : splitName? name = some (stem, ext)) (hext : compiled.lookup ext = some js)
    (hdot : stem ≠ ['.']) :
    ∃ shared left down, (parts (absolute cwd location)).dropLast ++ [stem] = shared ++ down ∧
      parts (absolute cwd routesDir) = shared ++ left ∧
      (∀ q, q <+: shared ++ down → q <+: shared ++ left → q <+: shared) ∧
      specifier cwd routesDir location true = ['.', '/'] ++ wayText left down js := by
  obtain ⟨hne, hparts⟩ := parts_stem cwd hname hsplit hdot
  have hsource : splitSource location = (ofParts (before ++ [stem]), js) := by
    have hfound : extension? location = some ext := by simp [extension?, hname, hsplit]
    simp [splitSource, hfound, hext, dropExtension_eq hname hsplit hdot]
  obtain ⟨shared, down, left, h⟩ :=
    exists_forks (parts (absolute cwd (splitSource location).1)) (parts (absolute cwd routesDir))
  have hway : ¬ (down ≠ [] ∧ left.head? = some up) := by
    rintro ⟨-, hup⟩
    have hleft : up ∈ left := List.mem_of_mem_head? hup
    exact hbase (h.base_eq ▸ List.mem_append_right shared hleft)
  have hspecifier := specifier_of_forks hcwd hroutes (by rw [hsource]; exact hne) h true
  rw [if_neg hway, if_pos rfl, hsource] at hspecifier
  have hpath : (parts (absolute cwd location)).dropLast ++ [stem] = shared ++ down := by
    rw [← hparts, ← h.path_eq, hsource]
  refine ⟨shared, left, down, hpath, h.base_eq, fun q hq hq' => ?_, ?_⟩
  · exact h.longest (h.path_eq ▸ hq) (h.base_eq ▸ hq')
  · rw [hspecifier, wayText, List.append_assoc]

/-- Names are on the way to the directory as long as they are on what the two ways have in common. -/
theorem plain_iff {way : List Text}
    (hlongest : ∀ q, q <+: shared ++ down → q <+: way → q <+: shared) (hshared : shared <+: way) :
    (∀ n ∈ down, '\\' ∉ n) ↔
      ∀ front n, front ++ [n] <+: shared ++ down → '\\' ∈ n → front ++ [n] <+: way := by
  constructor
  · intro hplain front n hprefix hback
    obtain ⟨behind, hbehind⟩ := hprefix
    rw [List.append_assoc] at hbehind
    rcases List.append_eq_append_iff.1 hbehind with ⟨middle, hmiddle, hrest⟩ | ⟨middle, -, hrest⟩
    · cases middle with
      | nil =>
        rw [List.nil_append, List.singleton_append] at hrest
        exact absurd hback (hplain n (hrest ▸ List.mem_cons_self))
      | cons m middle =>
        obtain rfl : n = m := (List.cons.inj hrest).1
        refine List.IsPrefix.trans ⟨middle, ?_⟩ hshared
        rw [hmiddle, List.append_assoc, List.singleton_append]
    · exact absurd hback (hplain n (hrest ▸ by simp))
  · intro h n hn hback
    obtain ⟨before, behind, rfl⟩ := List.append_of_mem hn
    have hprefix : (shared ++ before) ++ [n] <+: shared ++ (before ++ n :: behind) :=
      ⟨behind, by simp⟩
    have hlength := (hlongest _ hprefix (h _ n hprefix hback)).length_le
    simp only [List.length_append, List.length_singleton] at hlength
    omega

/-- Where a way leads to, with the extension behind it. -/
theorem walk_wayText_iff (hjs : '/' ∉ js ∧ '\\' ∉ js ∧ 3 ≤ js.length)
    (hplace : ∀ p ∈ place, IsPart p ∧ p ≠ up) (hstem : IsPart stem)
    (hpath : place ++ [stem] = shared ++ down)
    (hlongest : ∀ q, q <+: shared ++ down → q <+: shared ++ left → q <+: shared) :
    walk (shared ++ left) (parts (wayText left down js)) = place ++ [stem ++ js] ↔
      ¬ place ++ [stem] <+: shared ++ left ∧
        ∀ front n, front ++ [n] <+: place ++ [stem] → '\\' ∈ n →
          front ++ [n] <+: shared ++ left := by
  have hshared : shared <+: shared ++ left := List.prefix_append shared left
  rcases List.eq_nil_or_concat down with rfl | ⟨front, last, rfl⟩
  · -- The way only climbs: the source without its extension is on the way to the directory.
    rw [List.append_nil] at hpath
    refine iff_of_false ?_ fun h => h.1 (hpath ▸ hshared)
    intro heq
    have hlength := length_climb ⟨hjs.1, hjs.2.2⟩ shared left
    rw [heq, ← hpath] at hlength
    simp at hlength
  · rw [List.concat_eq_append] at hpath hlongest ⊢
    rw [← List.append_assoc] at hpath
    obtain ⟨rfl, hlast⟩ := List.append_inj' hpath rfl
    obtain rfl : stem = last := by simpa using hlast
    have hparts : ∀ p ∈ front ++ [stem], IsPart p := by
      refine List.forall_mem_append.2 ⟨fun p hp => ?_, fun p hp => ?_⟩
      · exact (hplace p (List.mem_append_right shared hp)).1
      · exact List.mem_singleton.1 hp ▸ hstem
    have hnames : up ∉ front := fun hmem => (hplace up (List.mem_append_right shared hmem)).2 rfl
    have hnot : ¬ shared ++ (front ++ [stem]) <+: shared ++ left := by
      intro hprefix
      have hlength := (hlongest _ (List.prefix_refl _) hprefix).length_le
      simp only [List.length_append, List.length_singleton] at hlength
      omega
    rw [walk_wayText (by simp), List.append_assoc, List.append_assoc, ← plain_iff hlongest hshared]
    refine ⟨fun heq => ⟨hnot, fun n hn hback => ?_⟩, fun h => ?_⟩
    · exact walk_ne_of_backslash hjs.2.1 hn hback heq
    · exact walk_plain hjs hparts hnames h.2

/-- A specifier of an ECMAScript module leads, from the directory of the file that has it, to the place
of the compiled module exactly in these cases: the directory is neither the place of the source without
its extension nor below it, and every name with a backslash on the way to the source is on the way to
the directory too. -/
theorem named_specifier_iff (hcwd : isAbsolute cwd = true) (hcwd' : up ∉ parts cwd)
    (hroutes : routesDir ≠ []) (hroutes' : up ∉ parts routesDir) (hlocation : up ∉ parts location)
    (hname : lastName? location = some (before, name))
    (hsplit : splitName? name = some (stem, ext)) (hext : compiled.lookup ext = some js)
    (hdot : stem ≠ ['.']) :
    let place := (parts (absolute cwd location)).dropLast
    named cwd routesDir (specifier cwd routesDir location true) = place ++ [stem ++ js] ↔
      ¬ place ++ [stem] <+: parts (absolute cwd routesDir) ∧
        ∀ front n, front ++ [n] <+: place ++ [stem] → '\\' ∈ n →
          front ++ [n] <+: parts (absolute cwd routesDir) := by
  intro place
  have hbase : up ∉ parts (absolute cwd routesDir) := by
    rw [parts_absolute cwd hroutes]
    split <;> simp [hcwd', hroutes']
  have hplace : ∀ p ∈ place, IsPart p ∧ p ≠ up := by
    intro p hp
    have hp : p ∈ parts (absolute cwd location) := List.dropLast_subset _ hp
    refine ⟨isPart_of_mem hp, ?_⟩
    rintro rfl
    rw [parts_absolute cwd (ne_nil_of_lastName? hname)] at hp
    split at hp <;> simp_all
  obtain ⟨shared, left, down, hpath, hleft, hlongest, hspecifier⟩ :=
    specifier_eq hcwd hroutes hbase hname hsplit hext hdot
  rw [hspecifier, named_wayText (hleft ▸ hbase) hleft, hleft]
  exact walk_wayText_iff (compiled_lookup hext) hplace (isPart_stem hname hsplit hdot) hpath hlongest

/-- From a directory beside that of the source. -/
theorem named_specifier_users :
    let cwd := "/app".toList
    let routesDir := "src/generated".toList
    let location := "src/./api/users.mts".toList
    isAbsolute cwd = true ∧ up ∉ parts cwd ∧ routesDir ≠ [] ∧ up ∉ parts routesDir ∧
    up ∉ parts location ∧
    lastName? location = some (["src".toList, ['.'], "api".toList], "users.mts".toList) ∧
    splitName? "users.mts".toList = some ("users".toList, "mts".toList) ∧
    compiled.lookup "mts".toList = some ".mjs".toList ∧ "users".toList ≠ ['.'] ∧
    specifier cwd routesDir location true = "./../api/users.mjs".toList ∧
    named cwd routesDir (specifier cwd routesDir location true) =
      ["app".toList, "src".toList, "api".toList, "users.mjs".toList] := by
  intro cwd routesDir location
  have hcwd : isAbsolute cwd = true := rfl
  have hcwd' : up ∉ parts cwd := by decide
  have hroutes : routesDir ≠ [] := by decide
  have hroutes' : up ∉ parts routesDir := by decide
  have hlocation : up ∉ parts location := by decide
  have hname : lastName? location =
      some (["src".toList, ['.'], "api".toList], "users.mts".toList) := rfl
  have hsplit : splitName? "users.mts".toList = some ("users".toList, "mts".toList) := rfl
  have hext : compiled.lookup "mts".toList = some ".mjs".toList := rfl
  have hdot : "users".toList ≠ ['.'] := by decide
  have hiff := named_specifier_iff hcwd hcwd' hroutes hroutes' hlocation hname hsplit hext hdot
  have hspecifier : specifier cwd routesDir location true = "./../api/users.mjs".toList := by
    decide +kernel
  have hapart : ¬ ["app".toList, "src".toList, "api".toList, "users".toList] <+:
      parts (absolute cwd routesDir) := by decide
  have hplain : ∀ n ∈ ["app".toList, "src".toList, "api".toList, "users".toList], '\\' ∉ n := by
    decide
  refine ⟨hcwd, hcwd', hroutes, hroutes', hlocation, hname, hsplit, hext, hdot,
    hspecifier, hiff.2 ?_⟩
  refine ⟨hapart, fun front n hprefix hback => ?_⟩
  have hn : n ∈ front ++ [n] := List.mem_append_right front (List.mem_singleton_self n)
  exact absurd hback (hplain n (List.IsPrefix.subset hprefix hn))

/-- From a directory of the name of the source, the specifier names a module in that directory, whose
name is nothing but the extension. -/
theorem specifier_beside_users :
    let cwd := "/app".toList
    specifier cwd "src/users".toList "src/users.ts".toList true = "./.js".toList ∧
    named cwd "src/users".toList (specifier cwd "src/users".toList "src/users.ts".toList true) =
      ["app".toList, "src".toList, "users".toList, ".js".toList] ∧
    named cwd "src/users".toList (specifier cwd "src/users".toList "src/users.ts".toList true) ≠
      ["app".toList, "src".toList, "users.js".toList] := by
  refine ⟨rfl, rfl, ?_⟩
  intro h
  have hnames := congrArg List.length h
  exact absurd hnames (by decide)

end ImportPath

end RouteModule
