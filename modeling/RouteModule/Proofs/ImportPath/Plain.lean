import RouteModule.Proofs.ImportPath.Source

/-!
Where specifiers without an extension lead. Up to the point where the ways of the source and of the
directory part, a specifier has nothing to say; behind it, it climbs once for each part of the way to the
directory and goes down the rest of the way to the source. That is right as long as no part to be climbed
is itself `..`. From where such a part is the first one, there is no way to be seen, and the specifier has
the whole path of the source behind its point.
-/

namespace RouteModule

namespace FilePath

variable {cwd dir path : Text} {ps : List Text} {c : Char}

theorem mem_of_mem_append (h : c ∈ append dir path) : c = '/' ∨ c ∈ dir ∨ c ∈ path := by
  unfold append at h
  split at h
  · exact .inr (.inr h)
  · split at h
    · exact .inr (List.mem_append.1 h)
    · rcases List.mem_append.1 h with h | h
      · exact .inr (.inl h)
      · rcases List.mem_cons.1 h with rfl | h
        · exact .inl rfl
        · exact .inr (.inr h)

theorem mem_of_mem_foldl_append {start : Text} (h : c ∈ ps.foldl append start) :
    c = '/' ∨ c ∈ start ∨ ∃ p ∈ ps, c ∈ p := by
  induction ps generalizing start with
  | nil => exact .inr (.inl h)
  | cons p ps ih =>
    rcases ih h with hslash | hstart | ⟨q, hq, hcq⟩
    · exact .inl hslash
    · rcases mem_of_mem_append hstart with hslash | hstart | hp
      · exact .inl hslash
      · exact .inr (.inl hstart)
      · exact .inr (.inr ⟨p, List.mem_cons_self, hp⟩)
    · exact .inr (.inr ⟨q, List.mem_cons_of_mem p hq, hcq⟩)

/-- A path freed of the working directory has only characters of the two, and slashes. -/
theorem not_mem_absolute (hc : c ≠ '/') (hpath : c ∉ path)
    (hcwd : isAbsolute path = true ∨ c ∉ cwd) : c ∉ absolute cwd path := by
  by_cases hne : path = []
  · rw [hne]
    exact List.not_mem_nil
  have hlead : c ∉ lead cwd path := by
    unfold lead
    split
    · split <;> simpa using hc
    · next hrelative => exact hcwd.resolve_left hrelative
  have hwhole : c ∉ (parts path).foldl append (lead cwd path) := by
    intro h
    rcases mem_of_mem_foldl_append h with hslash | hstart | ⟨p, hp, hcp⟩
    · exact hc hslash
    · exact hlead hstart
    · exact hpath (mem_of_mem_parts hp hcp)
  rw [absolute_eq cwd hne]
  split
  · intro h
    rcases mem_of_mem_append h with hslash | h | h
    · exact hc hslash
    · exact hwhole h
    · exact absurd h List.not_mem_nil
  · exact hwhole

end FilePath

namespace ImportPath

open FilePath

variable {cwd routesDir location t : Text} {shared down left : List Text}

theorem plain_of_forks (hcwd : isAbsolute cwd = true) (hroutes : routesDir ≠ []) (hne : location ≠ [])
    (h : Forks (parts (absolute cwd (splitSource location).1)) (parts (absolute cwd routesDir))
      shared down left) :
    specifier cwd routesDir location false = '.' :: '/' :: Text.substitute '\\' '/'
      (if down ≠ [] ∧ left.head? = some up then absolute cwd (splitSource location).1
        else ofParts (left.map (fun _ => up) ++ down)) := by
  rw [specifier_of_forks hcwd hroutes (splitSource_ne_nil hne) h]
  exact List.append_nil _

/-- Where the directory does not go on with `..`, or the source does not go on, the specifier climbs to
the shared way, and beyond it by two names for each part `..` of the directory. -/
theorem named_of_way (hcwd : isAbsolute cwd = true) (hroutes : routesDir ≠ []) (hne : location ≠ [])
    (h : Forks (parts (absolute cwd (splitSource location).1)) (parts (absolute cwd routesDir))
      shared down left)
    (hway : ¬ (down ≠ [] ∧ left.head? = some up)) (hplain : ∀ p ∈ down, '\\' ∉ p) :
    named cwd routesDir (specifier cwd routesDir location false) =
      walk ((walk [] shared).take ((walk [] shared).length - 2 * left.count up)) down := by
  have hback : '\\' ∉ ofParts (left.map (fun _ => up) ++ down) := by
    refine not_mem_ofParts (by decide) fun p hp => ?_
    rcases List.mem_append.1 hp with hp | hp
    · rw [List.eq_of_mem_map_const hp]
      decide
    · exact hplain p hp
  have hparts : ∀ p ∈ left.map (fun _ => up) ++ down, IsPart p := by
    intro p hp
    rcases List.mem_append.1 hp with hp | hp
    · rw [List.eq_of_mem_map_const hp]
      exact isPart_up
    · exact isPart_of_mem (h.path_eq ▸ List.mem_append_right shared hp)
  rw [plain_of_forks hcwd hroutes hne h, if_neg hway, named_slash, Text.substitute_of_not_mem hback,
    parts_ofParts_of_isPart hparts, lexical, h.base_eq, walk_append, walk_append, walk_climb]

/-- Where the directory goes on with `..` and the source goes on too, the whole path of the source is
walked from the directory. -/
theorem named_of_no_way (hcwd : isAbsolute cwd = true) (hroutes : routesDir ≠ []) (hne : location ≠ [])
    (h : Forks (parts (absolute cwd (splitSource location).1)) (parts (absolute cwd routesDir))
      shared down left)
    (hway : down ≠ [] ∧ left.head? = some up)
    (hback : '\\' ∉ absolute cwd (splitSource location).1) :
    named cwd routesDir (specifier cwd routesDir location false) =
      walk (lexical (absolute cwd routesDir)) (parts (absolute cwd (splitSource location).1)) := by
  rw [plain_of_forks hcwd hroutes hne h, if_pos hway, named_slash, Text.substitute_of_not_mem hback]

/-- A name with a backslash is in what the ways of source and directory share, if it is on the way to
the directory wherever it is on the way to the working directory. -/
theorem plain_of_shared (hne : location ≠ []) (hlocation : '\\' ∉ location)
    (hback : isAbsolute location = false → ∀ front n, front ++ [n] <+: parts cwd → '\\' ∈ n →
      front ++ [n] <+: parts (absolute cwd routesDir))
    (h : Forks (parts (absolute cwd (splitSource location).1)) (parts (absolute cwd routesDir))
      shared down left) : ∀ p ∈ down, '\\' ∉ p := by
  have hparts := parts_absolute cwd (splitSource_ne_nil hne)
  have hsource : ∀ p ∈ parts (splitSource location).1, '\\' ∉ p := fun p hp hc =>
    not_mem_splitSource (by decide) (by decide) hlocation (mem_of_mem_parts hp hc)
  rw [isAbsolute_splitSource] at hparts
  refine (plain_iff (fun q hpath hbase => h.longest (h.path_eq ▸ hpath) hbase)
    (h.base_eq ▸ List.prefix_append shared left)).2 fun front n hfront hn => ?_
  rw [← h.path_eq, hparts] at hfront
  cases habsolute : isAbsolute location with
  | true =>
    rw [habsolute] at hfront
    exact absurd hn (hsource n (hfront.subset (by simp)))
  | false =>
    rw [habsolute] at hfront
    refine hback habsolute front n ?_ hn
    rcases List.prefix_or_prefix_of_prefix hfront (List.prefix_append (parts cwd) _) with hle | hle
    · exact hle
    · rcases List.prefix_concat_iff.1 hle with heq | ⟨middle, rfl⟩
      · exact heq ▸ List.prefix_refl _
      · rw [if_neg Bool.false_ne_true, List.append_assoc, List.prefix_append_right_inj] at hfront
        exact absurd hn (hsource n (hfront.subset (by simp)))

/-- A specifier without an extension starts at the directory and leads, if there is no `..` on the way to
that, to the place of the source without its extension. Only from a dotted location is what it is made of
another path, the one above that place, so that it is right at the root alone. -/
theorem named_plain_iff (hcwd : isAbsolute cwd = true) (hcwd' : up ∉ parts cwd) (hroutes : routesDir ≠ [])
    (hroutes' : up ∉ parts routesDir) (hne : location ≠ []) (hlocation : '\\' ∉ location)
    (hback : isAbsolute location = false → ∀ front n, front ++ [n] <+: parts cwd → '\\' ∈ n →
      front ++ [n] <+: parts (absolute cwd routesDir)) :
    let source := lexical (absolute cwd (bare location))
    ['.', '/'] <+: specifier cwd routesDir location false ∧
      (named cwd routesDir (specifier cwd routesDir location false) = source ↔
        (Dotted location → source = [])) := by
  intro source
  obtain ⟨shared, down, left, h⟩ :=
    exists_forks (parts (absolute cwd (splitSource location).1)) (parts (absolute cwd routesDir))
  have hbase : up ∉ parts (absolute cwd routesDir) := by
    rw [parts_absolute cwd hroutes]
    split <;> simp [hcwd', hroutes']
  have hleft : up ∉ left := fun hup => hbase (h.base_eq ▸ List.mem_append_right shared hup)
  have hway : ¬ (down ≠ [] ∧ left.head? = some up) := fun hway => hleft (List.mem_of_mem_head? hway.2)
  have hnamed : named cwd routesDir (specifier cwd routesDir location false) =
      lexical (absolute cwd (splitSource location).1) := by
    rw [named_of_way hcwd hroutes hne h hway (plain_of_shared hne hlocation hback h),
      List.count_eq_zero.2 hleft, Nat.mul_zero, Nat.sub_zero, List.take_length, ← walk_append,
      ← h.path_eq, lexical]
  refine ⟨?_, ?_⟩
  · rw [plain_of_forks hcwd hroutes hne h]
    exact List.prefix_append ['.', '/'] _
  · rw [hnamed, lexical, parts_absolute_splitSource cwd hne]
    by_cases hdots : Dotted location
    · rw [if_pos hdots, walk_append, ← lexical]
      have hlast : walk source [up] = source.dropLast := rfl
      rw [hlast]
      refine ⟨fun heq _ => ?_, fun h => by rw [h hdots]; rfl⟩
      have hlength := congrArg List.length heq
      rw [List.length_dropLast] at hlength
      exact List.length_eq_zero_iff.1 (by omega)
    · rw [if_neg hdots, List.append_nil]
      exact iff_of_true rfl fun h => absurd h hdots

/-- The working directory is on both ways, its backslash too. -/
theorem named_plain_users :
    let cwd := "/app\\1".toList
    let routesDir := "src/generated".toList
    let location := "../lib/./users.mts".toList
    isAbsolute cwd = true ∧ up ∉ parts cwd ∧ routesDir ≠ [] ∧ up ∉ parts routesDir ∧ location ≠ [] ∧
    '\\' ∉ location ∧
    (isAbsolute location = false → ∀ front n, front ++ [n] <+: parts cwd → '\\' ∈ n →
      front ++ [n] <+: parts (absolute cwd routesDir)) ∧
    ¬ Dotted location ∧
    specifier cwd routesDir location false = "./../../../lib/users".toList ∧
    named cwd routesDir (specifier cwd routesDir location false) = ["lib".toList, "users".toList] := by
  intro cwd routesDir location
  have hcwd : isAbsolute cwd = true := rfl
  have hcwd' : up ∉ parts cwd := by decide
  have hroutes : routesDir ≠ [] := by decide
  have hroutes' : up ∉ parts routesDir := by decide
  have hne : location ≠ [] := by decide
  have hlocation : '\\' ∉ location := by decide
  have hback : isAbsolute location = false → ∀ front n, front ++ [n] <+: parts cwd → '\\' ∈ n →
      front ++ [n] <+: parts (absolute cwd routesDir) := by
    intro _ front n hprefix _
    have hshared : parts cwd <+: parts (absolute cwd routesDir) := by decide
    exact hprefix.trans hshared
  have hdots : ¬ Dotted location := by decide
  have hnamed := (named_plain_iff hcwd hcwd' hroutes hroutes' hne hlocation hback).2.2
    fun h => absurd h hdots
  exact ⟨hcwd, hcwd', hroutes, hroutes', hne, hlocation, hback, hdots, rfl, hnamed⟩

/-- From a dotted location, the specifier leads to the directory above the place of the source. A
backslash of the working directory is a slash in the specifier. -/
theorem specifier_dots_climb :
    let cwd := "/app".toList
    let location := "src/api/..ts".toList
    specifier cwd "src".toList location false = "./api/..".toList ∧
    named cwd "src".toList (specifier cwd "src".toList location false) = ["app".toList, "src".toList] ∧
    lexical (absolute cwd (bare location)) = ["app".toList, "src".toList, "api".toList] ∧
    specifier "/a\\b".toList "/x".toList "u.ts".toList false = "./../a/b/u".toList ∧
    named "/a\\b".toList "/x".toList (specifier "/a\\b".toList "/x".toList "u.ts".toList false) =
      ["a".toList, "b".toList, "u".toList] ∧
    lexical (absolute "/a\\b".toList (bare "u.ts".toList)) = ["a\\b".toList, "u".toList] :=
  ⟨rfl, rfl, rfl, rfl, rfl, rfl⟩

/-- From whatever directory, a specifier without an extension is right as long as the climb passes no
`..`, or the source goes on by climbing out of all that could be lost. Where the directory goes on with
`..` from where the ways part, the whole path of the source is walked from the directory, which is right
only if this path climbs out of the directory by itself. -/
theorem named_climbing_iff (hcwd : isAbsolute cwd = true) (hroutes : routesDir ≠ []) (hne : location ≠ [])
    (hlocation : '\\' ∉ location) (hback : isAbsolute location = true ∨ '\\' ∉ cwd)
    (hdots : ¬ Dotted location) :
    let source := absolute cwd (bare location)
    let base := absolute cwd routesDir
    (∃ shared down left, Forks (parts source) (parts base) shared down left) ∧
    ∀ shared down left, Forks (parts source) (parts base) shared down left →
      (named cwd routesDir (specifier cwd routesDir location false) = lexical source ↔
        if down ≠ [] ∧ left.head? = some up then (lexical base).length ≤ (course (parts source)).up
        else up ∉ left ∨ (walk [] shared).length ≤ (course down).up) := by
  intro source base
  refine ⟨exists_forks (parts source) (parts base), fun shared down left h => ?_⟩
  have hsource : parts (absolute cwd (splitSource location).1) = parts source := by
    rw [parts_absolute_splitSource cwd hne, if_neg hdots, List.append_nil]
  have hplain : '\\' ∉ absolute cwd (splitSource location).1 := by
    refine not_mem_absolute (by decide) (not_mem_splitSource (by decide) (by decide) hlocation) ?_
    rwa [isAbsolute_splitSource]
  rw [lexical, ← hsource]
  rw [← hsource] at h
  split
  · next hway =>
    have hwalk := walk_take_iff (Nat.zero_le (lexical base).length)
      (parts (absolute cwd (splitSource location).1))
    rw [List.take_zero] at hwalk
    rw [named_of_no_way hcwd hroutes hne h hway hplain, eq_comm, hwalk]
    omega
  · next hway =>
    have hdown : ∀ p ∈ down, '\\' ∉ p := fun p hp hc =>
      hplain (mem_of_mem_parts (h.path_eq ▸ List.mem_append_right shared hp) hc)
    rw [named_of_way hcwd hroutes hne h hway hdown, h.path_eq, walk_append,
      walk_take_iff (Nat.sub_le _ _), ← List.count_eq_zero]
    omega

/-- From a directory beside the working directory, of a source in another one beside it. -/
theorem named_climbing_users :
    let cwd := "/app".toList
    let routesDir := "../generated".toList
    let location := "../src/users.ts".toList
    isAbsolute cwd = true ∧ routesDir ≠ [] ∧ location ≠ [] ∧ '\\' ∉ location ∧
    (isAbsolute location = true ∨ '\\' ∉ cwd) ∧ ¬ Dotted location ∧
    Forks (parts (absolute cwd (bare location))) (parts (absolute cwd routesDir)) ["app".toList, up]
      ["src".toList, "users".toList] ["generated".toList] ∧
    named cwd routesDir (specifier cwd routesDir location false) = ["src".toList, "users".toList] := by
  intro cwd routesDir location
  have hcwd : isAbsolute cwd = true := rfl
  have hroutes : routesDir ≠ [] := by decide
  have hne : location ≠ [] := by decide
  have hlocation : '\\' ∉ location := by decide
  have hback : isAbsolute location = true ∨ '\\' ∉ cwd := by decide
  have hdots : ¬ Dotted location := by decide
  have hforks : Forks (parts (absolute cwd (bare location))) (parts (absolute cwd routesDir))
      ["app".toList, up] ["src".toList, "users".toList] ["generated".toList] :=
    ⟨rfl, rfl, by decide⟩
  have hiff := (named_climbing_iff hcwd hroutes hne hlocation hback hdots).2 _ _ _ hforks
  exact ⟨hcwd, hroutes, hne, hlocation, hback, hdots, hforks, hiff.2 (by decide)⟩

/-- From a directory beside the working directory there is no way to be seen to a source in it, and the
whole path of the source stands behind the point; from a directory that is left again, the specifier
climbs too far. -/
theorem specifier_beside_app :
    let cwd := "/app".toList
    specifier cwd "../generated".toList "src/users.ts".toList false = ".//app/src/users".toList ∧
    named cwd "../generated".toList (specifier cwd "../generated".toList "src/users.ts".toList false) =
      ["generated".toList, "app".toList, "src".toList, "users".toList] ∧
    lexical (absolute cwd (bare "src/users.ts".toList)) = ["app".toList, "src".toList, "users".toList] ∧
    specifier cwd "src/../out".toList "lib/users.ts".toList false = "./../../../lib/users".toList ∧
    named cwd "src/../out".toList (specifier cwd "src/../out".toList "lib/users.ts".toList false) =
      ["lib".toList, "users".toList] ∧
    lexical (absolute cwd (bare "lib/users.ts".toList)) = ["app".toList, "lib".toList, "users".toList] :=
  ⟨rfl, rfl, rfl, rfl, rfl, rfl⟩

end ImportPath

end RouteModule
