import Mathlib.Data.List.Induction
import RouteModule.Proofs.FilePath.Lexical

/-!
Where the ways of a path and of a directory part, and what is seen from the directory then. Going back up
from a directory takes as many names as it has parts. Where some of its parts are `..`, that is too far:
each of them is counted twice, once for itself and once for the name that it took back.
-/

namespace RouteModule.FilePath

variable {path base shared down left place ps : List Text} {n : Nat}

/-- Two ways part: behind what they share, one goes on with `down` and the other with `left`, and not
with the same part. -/
structure Forks (path base shared down left : List Text) : Prop where
  path_eq : path = shared ++ down
  base_eq : base = shared ++ left
  apart : ∀ p ∈ down.head?, ∀ b ∈ left.head?, p ≠ b

theorem Forks.cons (p : Text) (h : Forks path base shared down left) :
    Forks (p :: path) (p :: base) (p :: shared) down left :=
  ⟨congrArg (p :: ·) h.path_eq, congrArg (p :: ·) h.base_eq, h.apart⟩

theorem exists_forks (path base : List Text) :
    ∃ shared down left, Forks path base shared down left := by
  induction path generalizing base with
  | nil => exact ⟨[], [], base, rfl, rfl, by simp⟩
  | cons p path ih =>
    cases base with
    | nil => exact ⟨[], p :: path, [], rfl, rfl, by simp⟩
    | cons b base =>
      by_cases hp : p = b
      · obtain ⟨shared, down, left, h⟩ := ih base
        exact ⟨p :: shared, down, left, hp ▸ h.cons p⟩
      · exact ⟨[], p :: path, b :: base, rfl, rfl, by simpa using hp⟩

/-- What both ways start with is in what they share. -/
theorem Forks.longest (h : Forks path base shared down left) {q : List Text} (hpath : q <+: path)
    (hbase : q <+: base) : q <+: shared := by
  obtain ⟨rfl, rfl, hapart⟩ := h
  induction q generalizing shared with
  | nil => exact List.nil_prefix
  | cons c q ih =>
    cases shared with
    | nil =>
      obtain ⟨down, rfl⟩ := hpath
      obtain ⟨left, rfl⟩ := hbase
      exact absurd rfl (hapart c rfl c rfl)
    | cons p shared =>
      obtain ⟨rfl, hrest⟩ := List.cons_prefix_cons.1 hpath
      exact List.cons_prefix_cons.2 ⟨rfl, ih hrest (List.cons_prefix_cons.1 hbase).2⟩

/-- A path is seen from a directory by going up from where they part and then down, unless the directory
goes on with a part `..` there, and the path goes on as well. -/
theorem Forks.wayDown? (h : Forks path base shared down left) :
    FilePath.wayDown? path base =
      if down ≠ [] ∧ left.head? = some up then none else some (left.map (fun _ => up) ++ down) := by
  obtain ⟨rfl, rfl, hapart⟩ := h
  induction shared with
  | nil =>
    cases down with
    | nil => simp [FilePath.wayDown?]
    | cons p down =>
      cases left with
      | nil => simp [FilePath.wayDown?]
      | cons b left =>
        have hne : p ≠ b := hapart p rfl b rfl
        simp [FilePath.wayDown?, hne]
  | cons p shared ih =>
    rw [List.cons_append, List.cons_append, FilePath.wayDown?, if_pos rfl]
    exact ih

/-- A part `..` either goes up itself or takes a name back. -/
theorem length_course (ps : List Text) :
    (course ps).up ≤ ps.count up ∧
      ps.length + (course ps).up = (course ps).down.length + 2 * ps.count up := by
  induction ps using List.reverseRecOn with
  | nil => exact ⟨Nat.le_refl 0, rfl⟩
  | append_singleton ps p ih =>
    have hstep : course (ps ++ [p]) = (course ps).step p := by
      rw [course, List.foldl_append]
      rfl
    rw [hstep, List.length_append, List.length_singleton, List.count_append, Course.step]
    split
    · next hp =>
      rw [hp, List.count_singleton_self]
      split
      · next hdown =>
        rw [hdown] at ih
        simp only [List.length_nil] at ih ⊢
        omega
      · next hdown =>
        have hpos := List.length_pos_iff.2 hdown
        simp only [List.length_dropLast]
        omega
    · next hp =>
      have hnone : [p].count up = 0 := List.count_eq_zero.2 (by simpa using Ne.symm hp)
      simp only [hnone, List.length_append, List.length_singleton]
      omega

/-- Going up from a directory once for each of its parts takes two names too many for each part `..`. -/
theorem walk_climb (place left : List Text) :
    walk (walk place left) (left.map fun _ => up) =
      place.take (place.length - 2 * left.count up) := by
  obtain ⟨hups, hlength⟩ := length_course left
  have hle : (place.take (place.length - (course left).up) ++ (course left).down).length - left.length ≤
      (place.take (place.length - (course left).up)).length := by
    rw [List.length_append]
    omega
  rw [walk_ups, walk_eq, Course.leadFrom, List.take_append_of_le_length hle, List.take_take,
    List.length_append, List.length_take]
  congr 1
  omega

/-- From a directory above, parts lead to the same place only if they climb above the lower one's top. -/
theorem walk_take_iff (h : n ≤ place.length) (ps : List Text) :
    walk (place.take n) ps = walk place ps ↔ n = place.length ∨ place.length ≤ (course ps).up := by
  rw [walk_eq, walk_eq, Course.leadFrom, Course.leadFrom, List.append_left_inj, List.take_take,
    List.length_take]
  constructor
  · intro heq
    have hlength := congrArg List.length heq
    rw [List.length_take, List.length_take] at hlength
    omega
  · intro hn
    congr 1
    omega

end RouteModule.FilePath
