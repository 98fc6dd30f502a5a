import Mathlib.Data.List.Forall2
import RouteModule.Proofs.RoutePath.Groups

/-!
The parameters that a router reads from a path in colon style. Rewriting takes away the closing brace at
which the word of a group ended, so that a parameter goes on over the word characters behind its group.
A path without a colon has one parameter for each of its groups, in the same order, and every parameter
starts with the word of its group; they are the words just if no word character follows a group.
-/

namespace RouteModule.RoutePath

/-- The parameters of a path in colon style: behind each colon, the longest run of word characters. -/
def parameters : Text → List Text
  | [] => []
  | c :: t => if c = ':' then t.takeWhile Text.isWord :: parameters t else parameters t

/-- Every brace of a path belongs to a complete group, and no group has an empty word. -/
inductive Grouped : Text → Prop
  | nil : Grouped []
  | literal (c : Char) (t : Text) (hopen : c ≠ '\x7b') (hclose : c ≠ '\x7d') (ht : Grouped t) :
      Grouped (c :: t)
  | group (word t : Text) (hne : word ≠ []) (hword : ∀ c ∈ word, Text.isWord c = true)
      (ht : Grouped t) : Grouped ('\x7b' :: (word ++ '\x7d' :: t))

section Placeholders

variable {t word rest : Text}

/-- No group starts within another one. -/
theorem placeholders_group (hword : ∀ c ∈ word, Text.isWord c = true) :
    placeholders ('\x7b' :: (word ++ '\x7d' :: rest)) = (word, rest) :: placeholders rest := by
  have hopen : ∀ c ∈ word, c ≠ '\x7b' := by
    rintro c hc rfl
    cases hword _ hc
  rw [placeholders_cons_of_some (group?_eq_some_iff.2 ⟨hword, rfl⟩), placeholders_append_of_ne hopen,
    placeholders_cons_of_none (group?_of_ne (by decide))]

theorem mem_placeholders_iff :
    (word, rest) ∈ placeholders t ↔
      (∀ c ∈ word, Text.isWord c = true) ∧
        ∃ before, t = before ++ '\x7b' :: (word ++ '\x7d' :: rest) := by
  induction t with
  | nil => simp [placeholders]
  | cons c t ih =>
    rw [placeholders, List.mem_append, Option.mem_toList, group?_eq_some_iff, ih]
    constructor
    · rintro (⟨hword, heq⟩ | ⟨hword, before, rfl⟩)
      · exact ⟨hword, [], heq⟩
      · exact ⟨hword, c :: before, rfl⟩
    · rintro ⟨hword, before, heq⟩
      cases before with
      | nil => exact .inl ⟨hword, heq⟩
      | cons b before => exact .inr ⟨hword, before, (List.cons.inj heq).2⟩

/-- Where every brace belongs to a group, what stands behind a closing brace follows a group. -/
theorem Grouped.mem_placeholders {before : Text} (h : Grouped t) (ht : t = before ++ '\x7d' :: rest) :
    ∃ word, (word, rest) ∈ placeholders t := by
  induction h generalizing before with
  | nil => simp at ht
  | literal c t hopen hclose _ ih =>
    rw [placeholders_cons_of_none (group?_of_ne hopen)]
    cases before with
    | nil => exact absurd (List.cons.inj ht).1 hclose
    | cons b before => exact ih (List.cons.inj ht).2
  | group word t _ hword _ ih =>
    rw [placeholders_group hword]
    -- Of the braces of the group only the last one is a closing one; all others are behind it.
    have hlater : ∀ a, '\x7d' :: t = a ++ '\x7d' :: rest →
        ∃ w, (w, rest) ∈ (word, t) :: placeholders t := by
      intro a ha
      cases a with
      | nil =>
        obtain ⟨-, rfl⟩ := List.cons.inj ha
        exact ⟨word, List.mem_cons_self⟩
      | cons x a =>
        obtain ⟨w, hw⟩ := ih (List.cons.inj ha).2
        exact ⟨w, List.mem_cons_of_mem _ hw⟩
    cases before with
    | nil => exact absurd (List.cons.inj ht).1 (by decide)
    | cons b before =>
      rcases List.append_eq_append_iff.1 (List.cons.inj ht).2 with ⟨a, -, ha⟩ | ⟨a, rfl, ha⟩
      · exact hlater a ha
      · cases a with
        | nil => exact hlater [] ha.symm
        | cons x a =>
          obtain ⟨rfl, -⟩ := List.cons.inj ha
          cases hword '\x7d' (by simp)

end Placeholders

section Reading

variable {c : Char} {a t : Text}

theorem parameters_cons_of_ne (h : c ≠ ':') (t : Text) : parameters (c :: t) = parameters t := if_neg h

theorem parameters_colon (t : Text) :
    parameters (':' :: t) = t.takeWhile Text.isWord :: parameters t := if_pos rfl

/-- No parameter starts among word characters. -/
theorem parameters_word_append (ha : ∀ c ∈ a, Text.isWord c = true) (t : Text) :
    parameters (a ++ t) = parameters t := by
  induction a with
  | nil => rfl
  | cons c a ih =>
    have hc : c ≠ ':' := by
      rintro rfl
      cases ha ':' List.mem_cons_self
    rw [List.cons_append, parameters_cons_of_ne hc, ih fun d hd => ha d (List.mem_cons_of_mem c hd)]

/-- Rewriting does not change the word characters that a text starts with. -/
theorem takeWhile_toColons (t : Text) :
    (toColons t).takeWhile Text.isWord = t.takeWhile Text.isWord := by
  induction t with
  | nil => rw [toColons_nil]
  | cons c t ih =>
    cases h : group? (c :: t) with
    | none => rw [toColons_cons h, List.takeWhile_cons, List.takeWhile_cons, ih]
    | some g =>
      obtain ⟨-, heq⟩ := group?_eq_some_iff.1 h
      rw [toColons_of_group h, heq]
      rfl

/-- A parameter that is read after rewriting is the word of a group with the word characters behind
the group. -/
theorem parameters_toColons (hcolon : ':' ∉ t) :
    parameters (toColons t) = (placeholders t).map fun g => g.1 ++ g.2.takeWhile Text.isWord := by
  fun_induction toColons t with
  | case1 => rfl
  | case2 c t word rest h ih =>
    obtain ⟨hword, heq⟩ := group?_eq_some_iff.1 h
    rw [heq] at hcolon ⊢
    rw [placeholders_group hword, List.map_cons, List.cons_append, parameters_colon,
      List.takeWhile_append_of_pos hword, takeWhile_toColons, parameters_word_append hword,
      ih fun hmem => hcolon (by simp [hmem])]
  | case3 c t h ih =>
    obtain ⟨hc, ht⟩ : ':' ≠ c ∧ ':' ∉ t := by simpa using hcolon
    rw [parameters_cons_of_ne hc.symm, placeholders_cons_of_none h, ih ht]

end Reading

section Survival

variable {path : Text}

/-- A path without a colon whose braces all belong to groups, none of them with an empty word, has after
rewriting a parameter for each group and no other, in order, and each of them starts with the word of its
group. They are the words of the groups just if no word character follows a closing brace: the brace that
ended the word is gone. -/
theorem parameters_toColons_iff (hcolon : ':' ∉ path) (hpath : Grouped path) :
    List.Forall₂ (· <+: ·) (groups path) (parameters (toColons path)) ∧
      (parameters (toColons path) = groups path ↔
        ∀ before c after, path = before ++ '\x7d' :: c :: after → Text.isWord c = false) := by
  rw [parameters_toColons hcolon, ← map_fst_placeholders]
  refine ⟨?_, ?_⟩
  · rw [List.forall₂_map_left_iff, List.forall₂_map_right_iff, List.forall₂_same]
    exact fun g _ => List.prefix_append _ _
  · rw [List.map_inj_left]
    constructor
    · rintro h before c after hsplit
      obtain ⟨word, hmem⟩ := hpath.mem_placeholders hsplit
      have hnone : (c :: after).takeWhile Text.isWord = [] := List.append_right_eq_self.1 (h _ hmem)
      cases hc : Text.isWord c with
      | false => rfl
      | true => simp [hc] at hnone
    · rintro h ⟨word, rest⟩ hmem
      obtain ⟨-, before, hsplit⟩ := mem_placeholders_iff.1 hmem
      cases rest with
      | nil => simp
      | cons c rest =>
        have hc : Text.isWord c = false :=
          h (before ++ '\x7b' :: word) c rest (by rw [hsplit]; simp)
        simp [hc]

/-- With groups side by side, a word beyond ASCII and a point behind a group. -/
theorem parameters_toColons_shelf :
    let path := "/\x7bshelf\x7d\x7bß\x7d/\x7bbook\x7d.x".toList
    ':' ∉ path ∧ Grouped path ∧
    toColons path = "/:shelf:ß/:book.x".toList ∧
    parameters (toColons path) = ["shelf".toList, "ß".toList, "book".toList] ∧
    parameters (toColons path) = groups path ∧
    ∀ before c after, path = before ++ '\x7d' :: c :: after → Text.isWord c = false := by
  intro path
  have hcolon : ':' ∉ path := by decide
  have hpath : Grouped path :=
    .literal '/' _ (by decide) (by decide) <|
    .group "shelf".toList _ (by decide) (List.all_eq_true.1 (by decide +kernel)) <|
    .group "ß".toList _ (by decide) (List.all_eq_true.1 (by decide +kernel)) <|
    .literal '/' _ (by decide) (by decide) <|
    .group "book".toList _ (by decide) (List.all_eq_true.1 (by decide +kernel)) <|
    .literal '.' _ (by decide) (by decide) <|
    .literal 'x' _ (by decide) (by decide) .nil
  have hrewritten : toColons path = "/:shelf:ß/:book.x".toList := by decide +kernel
  have hread : parameters (toColons path) = groups path := by
    rw [hrewritten]
    decide +kernel
  refine ⟨hcolon, hpath, hrewritten, ?_, hread, (parameters_toColons_iff hcolon hpath).2.1 hread⟩
  rw [hrewritten]
  decide +kernel

/-- Where a word character follows a group, the parameter goes on over it. -/
theorem parameters_toColons_plural :
    let path := "/\x7bid\x7ds".toList
    ':' ∉ path ∧ Grouped path ∧ groups path = ["id".toList] ∧
    toColons path = "/:ids".toList ∧ parameters (toColons path) = ["ids".toList] := by
  intro path
  have hpath : Grouped path :=
    .literal '/' _ (by decide) (by decide) <|
    .group "id".toList _ (by decide) (List.all_eq_true.1 (by decide +kernel)) <|
    .literal 's' _ (by decide) (by decide) .nil
  have hrewritten : toColons path = "/:ids".toList := by decide +kernel
  refine ⟨by decide, hpath, by decide +kernel, hrewritten, ?_⟩
  rw [hrewritten]
  decide +kernel

end Survival

end RouteModule.RoutePath
