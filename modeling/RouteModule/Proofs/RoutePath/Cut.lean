import RouteModule.Proofs.RoutePath.Groups

/-!
A path cut at its groups. Between the groups stand gaps without a group, and there is just one way to
cut a path like that: `cut` undoes the putting together. Rewriting gives the same gaps, whatever single
or nested braces they have, and between them the words of the groups behind colons.
-/

namespace RouteModule.RoutePath

/-- A path cut at its groups: the gap in front of the first group, and for each group its word and the
gap behind it. -/
structure Cut where
  lead : Text
  parts : List (Text × Text)
  lead_free : ¬ HasGroup lead
  gap_free : ∀ part ∈ parts, ¬ HasGroup part.2
  isWord : ∀ part ∈ parts, ∀ c ∈ part.1, Text.isWord c = true

/-- Groups in braces, each with the gap behind it. -/
def braced (parts : List (Text × Text)) : Text :=
  parts.flatMap fun part => '\x7b' :: (part.1 ++ '\x7d' :: part.2)

/-- The words of groups behind colons, each with the gap behind its group. -/
def coloned (parts : List (Text × Text)) : Text :=
  parts.flatMap fun part => ':' :: part.1 ++ part.2

/-- The path that has been cut. -/
def Cut.inBraces (s : Cut) : Text := s.lead ++ braced s.parts

/-- The gaps of a path as they are, with the words of the groups behind colons between them. -/
def Cut.withColons (s : Cut) : Text := s.lead ++ coloned s.parts

/-- The gap in front of the first group, and the word of each group with the gap behind it. -/
def cut : Text → Text × List (Text × Text)
  | [] => ([], [])
  | c :: t =>
    match _h : group? (c :: t) with
    | some (word, rest) => ([], (word, (cut rest).1) :: (cut rest).2)
    | none => (c :: (cut t).1, (cut t).2)
termination_by t => t.length
decreasing_by
  · exact length_lt_of_group? _h
  · simp

section Cutting

variable {c : Char} {t u gap word rest : Text} {parts : List (Text × Text)}

@[simp] theorem braced_nil : braced [] = [] := rfl

theorem braced_cons (word gap : Text) (parts : List (Text × Text)) :
    braced ((word, gap) :: parts) = '\x7b' :: (word ++ '\x7d' :: (gap ++ braced parts)) := by
  simp [braced]

@[simp] theorem coloned_nil : coloned [] = [] := rfl

theorem coloned_cons (word gap : Text) (parts : List (Text × Text)) :
    coloned ((word, gap) :: parts) = ':' :: word ++ (gap ++ coloned parts) := by
  simp [coloned]

@[simp] theorem cut_nil : cut [] = ([], []) := by rw [cut]

theorem cut_of_group (h : group? t = some (word, rest)) :
    cut t = ([], (word, (cut rest).1) :: (cut rest).2) := by
  obtain ⟨-, rfl⟩ := group?_eq_some_iff.1 h
  rw [cut]
  split
  · next heq =>
    rw [h] at heq
    cases heq
    rfl
  · next heq =>
    rw [h] at heq
    cases heq

theorem cut_cons (h : group? (c :: t) = none) : cut (c :: t) = (c :: (cut t).1, (cut t).2) := by
  rw [cut]
  split
  · next heq =>
    rw [h] at heq
    cases heq
  · rfl

/-- Nothing is lost when a path is cut. -/
theorem braced_cut (t : Text) : (cut t).1 ++ braced (cut t).2 = t := by
  fun_induction toColons t with
  | case1 => simp
  | case2 c t word rest h ih =>
    rw [cut_of_group h, braced_cons, ih, (group?_eq_some_iff.1 h).2, List.nil_append]
  | case3 c t h ih => rw [cut_cons h, List.cons_append, ih]

/-- Rewriting leaves the gaps and puts the words of the groups behind colons. -/
theorem coloned_cut (t : Text) : (cut t).1 ++ coloned (cut t).2 = toColons t := by
  fun_induction toColons t with
  | case1 => simp
  | case2 c t word rest h ih => rw [cut_of_group h, coloned_cons, ih, List.nil_append]
  | case3 c t h ih => rw [cut_cons h, List.cons_append, ih]

theorem isWord_of_mem_cut (t : Text) :
    ∀ part ∈ (cut t).2, ∀ c ∈ part.1, Text.isWord c = true := by
  fun_induction toColons t with
  | case1 => simp
  | case2 c t word rest h ih =>
    rw [cut_of_group h]
    exact List.forall_mem_cons.2 ⟨(group?_eq_some_iff.1 h).1, ih⟩
  | case3 c t h ih =>
    rw [cut_cons h]
    exact ih

/-- The gaps of a path have no group. -/
theorem free_of_mem_cut (t : Text) :
    ¬ HasGroup (cut t).1 ∧ ∀ part ∈ (cut t).2, ¬ HasGroup part.2 := by
  fun_induction toColons t with
  | case1 => simp [hasGroup_iff, groups]
  | case2 c t word rest h ih =>
    rw [cut_of_group h]
    exact ⟨by simp [hasGroup_iff, groups], List.forall_mem_cons.2 ih⟩
  | case3 c t h ih =>
    rw [cut_cons h, hasGroup_cons]
    refine ⟨?_, ih.2⟩
    rintro (⟨⟨word, rest⟩, hg⟩ | hg)
    · -- A group at the start of the gap would be one at the start of the path.
      have hpath := group?_append_of_some hg (braced (cut t).2)
      rw [List.cons_append, braced_cut, h] at hpath
      cases hpath
    · exact ih.1 hg

/-- No group goes on with what starts with a group. -/
theorem parted_braced (parts : List (Text × Text)) : Parted (braced parts) := by
  cases parts with
  | nil => simp [Parted]
  | cons part parts =>
    rw [braced_cons]
    intro d hd
    obtain rfl : '\x7b' = d := by simpa using hd
    decide

/-- A gap in front of a path is put in front of its first gap. -/
theorem cut_append (hgap : ¬ HasGroup gap) (hu : Parted u) :
    cut (gap ++ u) = (gap ++ (cut u).1, (cut u).2) := by
  induction gap with
  | nil => rfl
  | cons c gap ih =>
    rw [hasGroup_cons, not_or] at hgap
    have hnone : group? (c :: gap) = none := by
      rw [Option.eq_none_iff_forall_ne_some]
      exact fun g hg => hgap.1 ⟨g, hg⟩
    rw [List.cons_append, cut_cons (group?_append_of_none hu hnone), ih hgap.2, List.cons_append]

/-- Groups in braces are cut as they were put together. -/
theorem cut_braced (hgap : ∀ part ∈ parts, ¬ HasGroup part.2)
    (hword : ∀ part ∈ parts, ∀ c ∈ part.1, Text.isWord c = true) :
    cut (braced parts) = ([], parts) := by
  induction parts with
  | nil => exact cut_nil
  | cons part parts ih =>
    obtain ⟨word, gap⟩ := part
    obtain ⟨hfirst, hmore⟩ := List.forall_mem_cons.1 hgap
    obtain ⟨hchars, hwords⟩ := List.forall_mem_cons.1 hword
    rw [braced_cons, cut_of_group (group?_eq_some_iff.2 ⟨hchars, rfl⟩),
      cut_append hfirst (parted_braced parts), ih hmore hwords, List.append_nil]

end Cutting

namespace Cut

/-- The path cut at its groups. -/
def ofText (t : Text) : Cut where
  lead := (RoutePath.cut t).1
  parts := (RoutePath.cut t).2
  lead_free := (free_of_mem_cut t).1
  gap_free := (free_of_mem_cut t).2
  isWord := isWord_of_mem_cut t

theorem inBraces_ofText (t : Text) : (ofText t).inBraces = t := braced_cut t

theorem withColons_ofText (t : Text) : (ofText t).withColons = toColons t := coloned_cut t

/-- There is no other way to cut a path. -/
theorem ofText_inBraces (s : Cut) : ofText s.inBraces = s := by
  have hcut : RoutePath.cut s.inBraces = (s.lead, s.parts) := by
    rw [inBraces, cut_append s.lead_free (parted_braced s.parts), cut_braced s.gap_free s.isWord,
      List.append_nil]
  cases s
  simp only [ofText, hcut]

end Cut

theorem toColons_slash (a b : Text) :
    toColons (a ++ '/' :: b) = toColons a ++ '/' :: toColons b := by
  have hparted : Parted ('/' :: b) := by
    intro d hd
    obtain rfl : '/' = d := by simpa using hd
    decide
  rw [toColons_append hparted, toColons_cons (group?_of_ne (by decide))]

/-- Rewriting leaves no group, so that it changes nothing when it is repeated; it can be done on either
side of a slash by itself; and there is one way to cut a path into groups and gaps without a group, and
the rewritten path has the same gaps with the words of the groups behind colons between them. -/
theorem toColons_gaps (path : Text) :
    ¬ HasGroup (toColons path) ∧ toColons (toColons path) = toColons path ∧
      (∀ a b, toColons (a ++ '/' :: b) = toColons a ++ '/' :: toColons b) ∧
      ∃ s : Cut, (∀ r : Cut, r.inBraces = path ↔ r = s) ∧ toColons path = s.withColons := by
  refine ⟨?_, toColons_eq_self (groups_toColons path), toColons_slash, Cut.ofText path, ?_, ?_⟩
  · rw [hasGroup_iff, groups_toColons]
    exact fun h => h rfl
  · intro r
    constructor
    · rintro rfl
      exact r.ofText_inBraces.symm
    · rintro rfl
      exact Cut.inBraces_ofText path
  · exact (Cut.withColons_ofText path).symm

/-- With a brace around a group, an unbalanced one, and groups side by side. -/
example : cut "\x7ba\x7bb\x7d\x7d/\x7b\x7d\x7bc\x7d".toList =
    ("\x7ba".toList, [("b".toList, "\x7d/".toList), ([], []), ("c".toList, [])]) := by
  decide +kernel

end RouteModule.RoutePath
