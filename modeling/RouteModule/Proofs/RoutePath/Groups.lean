import RouteModule.Proofs.Text.Trim
import RouteModule.RoutePath

/-!
The groups of a path: a pair of braces with nothing but word characters in between. Rewriting leaves
no group behind and nothing else is changed by it. Where a text starts with what can go on with no
group, all is said piece by piece, and trimming the edges of a path meets no group at all.
-/

namespace RouteModule.RoutePath

/-- A path has a complete group. -/
def HasGroup (t : Text) : Prop :=
  ∃ before word after : Text, (∀ c ∈ word, Text.isWord c = true) ∧
    t = before ++ '\x7b' :: (word ++ '\x7d' :: after)

/-- The words of the groups of a path, in order. No group starts within another one, so every place of
the path is a start to be tried. -/
def groups : Text → List Text
  | [] => []
  | c :: t => ((group? (c :: t)).map Prod.fst).toList ++ groups t

/-- The groups of a path, in order: the word of each, and what follows it. -/
def placeholders : Text → List (Text × Text)
  | [] => []
  | c :: t => (group? (c :: t)).toList ++ placeholders t

/-- A text with which no group goes on: at its start is neither a word character nor a closing
brace. -/
def Parted (t : Text) : Prop := ∀ c ∈ t.head?, Text.isWord c = false ∧ c ≠ '\x7d'

section Characters

/-- The blank characters above ASCII. -/
def wideBlanks : List Nat :=
  [0x85, 0xA0, 0x1680, 0x2000, 0x2001, 0x2002, 0x2003, 0x2004, 0x2005, 0x2006, 0x2007, 0x2008, 0x2009,
    0x200A, 0x2028, 0x2029, 0x202F, 0x205F, 0x3000]

theorem inRanges_wideBlanks : ∀ n ∈ wideBlanks, Text.inRanges Text.wordRanges n = false := by
  decide +kernel

theorem isAsciiWord_blank (n : Nat) (h : 9 ≤ n ∧ n ≤ 13 ∨ n = 0x20) : Text.isAsciiWord n = false := by
  unfold Text.isAsciiWord
  simp only [Bool.or_eq_false_iff, Bool.and_eq_false_iff, decide_eq_false_iff_not, beq_eq_false_iff_ne]
  omega

theorem isWord_of_isBlank {c : Char} (h : Text.isBlank c = true) : Text.isWord c = false := by
  unfold Text.isWord
  split
  · next hsmall =>
    apply isAsciiWord_blank
    simp only [Text.isBlank, Bool.or_eq_true, Bool.and_eq_true, decide_eq_true_eq, beq_iff_eq] at h
    omega
  · next hlarge =>
    apply inRanges_wideBlanks
    simp only [Text.isBlank, Bool.or_eq_true, Bool.and_eq_true, decide_eq_true_eq, beq_iff_eq] at h
    simp only [wideBlanks, List.mem_cons, List.not_mem_nil, or_false]
    omega

/-- What is trimmed from the edges has no part in a group. -/
theorem isWord_of_isEdge {c : Char} (h : isEdge c = true) : Text.isWord c = false := by
  simp only [isEdge, Bool.or_eq_true, beq_iff_eq] at h
  rcases h with (rfl | rfl) | h
  · rfl
  · rfl
  · exact isWord_of_isBlank h

theorem ne_of_isEdge {c d : Char} (h : isEdge c = true) (hd : isEdge d = false) : c ≠ d := by
  rintro rfl
  rw [h] at hd
  cases hd

theorem isEdge_of_isWord {c : Char} (h : Text.isWord c = true) : isEdge c = false := by
  cases he : isEdge c with
  | false => rfl
  | true =>
    rw [isWord_of_isEdge he] at h
    cases h

end Characters

section Groups

variable {c : Char} {a t u word rest : Text}

theorem group?_eq_some_iff :
    group? t = some (word, rest) ↔
      (∀ c ∈ word, Text.isWord c = true) ∧ t = '\x7b' :: (word ++ '\x7d' :: rest) := by
  constructor
  · intro h
    unfold group? at h
    split at h
    · next t =>
      split at h
      · next after hd =>
        simp only [Option.some.injEq, Prod.mk.injEq] at h
        obtain ⟨rfl, rfl⟩ := h
        refine ⟨fun c hc => List.mem_takeWhile_imp hc, ?_⟩
        rw [← hd, List.takeWhile_append_dropWhile]
      · cases h
    · cases h
  · rintro ⟨hword, rfl⟩
    have hclose : ∀ v : Text, ('\x7d' :: v).dropWhile Text.isWord = '\x7d' :: v := fun v => rfl
    have htake : ∀ v : Text, ('\x7d' :: v).takeWhile Text.isWord = [] := fun v => rfl
    simp only [group?, List.dropWhile_append_of_pos hword, List.takeWhile_append_of_pos hword,
      hclose, htake, List.append_nil]

theorem group?_of_ne (h : c ≠ '\x7b') : group? (c :: t) = none := by
  unfold group?
  split
  · next heq => exact absurd (List.cons.inj heq).1 h
  · rfl

theorem map_fst_placeholders (t : Text) : (placeholders t).map Prod.fst = groups t := by
  induction t with
  | nil => rfl
  | cons c t ih =>
    rw [placeholders, groups, List.map_append, ih, Option.toList_map]

theorem placeholders_cons_of_none (h : group? (c :: t) = none) :
    placeholders (c :: t) = placeholders t := by
  simp [placeholders, h]

theorem placeholders_cons_of_some (h : group? (c :: t) = some (word, rest)) :
    placeholders (c :: t) = (word, rest) :: placeholders t := by
  simp [placeholders, h]

theorem groups_cons_of_none (h : group? (c :: t) = none) : groups (c :: t) = groups t := by
  simp [groups, h]

theorem groups_cons_of_some (h : group? (c :: t) = some (word, rest)) :
    groups (c :: t) = word :: groups t := by
  simp [groups, h]

/-- A group of a path is at its start, or behind its first character. -/
theorem hasGroup_cons :
    HasGroup (c :: t) ↔ (∃ g, group? (c :: t) = some g) ∨ HasGroup t := by
  constructor
  · rintro ⟨before, word, after, hword, heq⟩
    cases before with
    | nil => exact .inl ⟨(word, after), group?_eq_some_iff.2 ⟨hword, heq⟩⟩
    | cons b before => exact .inr ⟨before, word, after, hword, (List.cons.inj heq).2⟩
  · rintro (⟨⟨word, after⟩, h⟩ | ⟨before, word, after, hword, rfl⟩)
    · obtain ⟨hword, heq⟩ := group?_eq_some_iff.1 h
      exact ⟨[], word, after, hword, heq⟩
    · exact ⟨c :: before, word, after, hword, rfl⟩

/-- A path has a group just if there is a word of one. -/
theorem hasGroup_iff : HasGroup t ↔ groups t ≠ [] := by
  induction t with
  | nil =>
    constructor
    · rintro ⟨before, word, after, -, h⟩
      simp at h
    · exact fun h => absurd rfl h
  | cons c t ih =>
    rw [hasGroup_cons, ih]
    cases h : group? (c :: t) with
    | none => simp [groups_cons_of_none h]
    | some g => simp [groups_cons_of_some h]

instance : DecidablePred HasGroup := fun _ => decidable_of_iff _ hasGroup_iff.symm

/-- Where a text has no group at its start, it has none there when more is put behind it with which
no group goes on. -/
theorem group?_append_of_none (hu : Parted u) (h : group? (c :: t) = none) :
    group? (c :: (t ++ u)) = none := by
  rw [Option.eq_none_iff_forall_ne_some]
  rintro ⟨word, rest⟩ hg
  obtain ⟨hword, heq⟩ := group?_eq_some_iff.1 hg
  obtain ⟨rfl, htail⟩ := List.cons.inj heq
  rcases List.append_eq_append_iff.1 htail with ⟨a, rfl, hv⟩ | ⟨a, rfl, hv⟩
  · -- The group would end behind the text, so that the rest starts with a part of it.
    cases a with
    | nil => exact (hu '\x7d' (by rw [hv]; rfl)).2 rfl
    | cons x a =>
      have hx := (hu x (by rw [hv]; rfl)).1
      rw [hword x (by simp)] at hx
      cases hx
  · cases a with
    | nil => exact (hu '\x7d' (by rw [← List.nil_append u, ← hv]; rfl)).2 rfl
    | cons x a =>
      obtain ⟨rfl, -⟩ := List.cons.inj hv
      rw [group?_eq_some_iff.2 ⟨hword, rfl⟩] at h
      cases h

theorem group?_append_of_some (h : group? t = some (word, rest)) (u : Text) :
    group? (t ++ u) = some (word, rest ++ u) := by
  obtain ⟨hword, rfl⟩ := group?_eq_some_iff.1 h
  rw [group?_eq_some_iff]
  exact ⟨hword, by simp⟩

/-- The groups of a text and of one behind it with which no group goes on are those of both. -/
theorem groups_append (hu : Parted u) (t : Text) : groups (t ++ u) = groups t ++ groups u := by
  induction t with
  | nil => rfl
  | cons c t ih =>
    cases h : group? (c :: t) with
    | none =>
      rw [List.cons_append, groups_cons_of_none (group?_append_of_none hu h), ih,
        groups_cons_of_none h]
    | some g =>
      have hsome : group? (c :: (t ++ u)) = some (g.1, g.2 ++ u) := group?_append_of_some h u
      rw [List.cons_append, groups_cons_of_some hsome, ih, groups_cons_of_some h, List.cons_append]

/-- What has no opening brace adds no group in front of a text. -/
theorem placeholders_append_of_ne (ha : ∀ c ∈ a, c ≠ '\x7b') (t : Text) :
    placeholders (a ++ t) = placeholders t := by
  induction a with
  | nil => rfl
  | cons c a ih =>
    have hc : c ≠ '\x7b' := ha c (by simp)
    rw [List.cons_append, placeholders_cons_of_none (group?_of_ne hc),
      ih fun d hd => ha d (by simp [hd])]

theorem groups_append_of_ne (ha : ∀ c ∈ a, c ≠ '\x7b') (t : Text) : groups (a ++ t) = groups t := by
  rw [← map_fst_placeholders, placeholders_append_of_ne ha, map_fst_placeholders]

theorem groups_of_ne (ha : ∀ c ∈ a, c ≠ '\x7b') : groups a = [] := by
  have hnil := groups_append_of_ne ha []
  rwa [List.append_nil] at hnil

end Groups

section Rewriting

variable {c : Char} {a t u word rest : Text}

@[simp] theorem toColons_nil : toColons [] = [] := by rw [toColons]

theorem toColons_of_group (h : group? t = some (word, rest)) :
    toColons t = ':' :: word ++ toColons rest := by
  obtain ⟨-, rfl⟩ := group?_eq_some_iff.1 h
  rw [toColons]
  split
  · next heq =>
    rw [h] at heq
    cases heq
    rfl
  · next heq =>
    rw [h] at heq
    cases heq

theorem toColons_cons (h : group? (c :: t) = none) : toColons (c :: t) = c :: toColons t := by
  rw [toColons]
  split
  · next heq =>
    rw [h] at heq
    cases heq
  · rfl

/-- Rewriting a text and one behind it with which no group goes on is rewriting both. -/
theorem toColons_append (hu : Parted u) (t : Text) :
    toColons (t ++ u) = toColons t ++ toColons u := by
  fun_induction toColons t with
  | case1 => rfl
  | case2 c t word rest h ih =>
    rw [toColons_of_group (group?_append_of_some h u), ih, List.append_assoc]
  | case3 c t h ih =>
    rw [List.cons_append, toColons_cons (group?_append_of_none hu h), ih, List.cons_append]

/-- What has no opening brace is not changed in front of a text. -/
theorem toColons_append_of_ne (ha : ∀ c ∈ a, c ≠ '\x7b') (t : Text) :
    toColons (a ++ t) = a ++ toColons t := by
  induction a with
  | nil => rfl
  | cons c a ih =>
    have hc : c ≠ '\x7b' := ha c (by simp)
    rw [List.cons_append, toColons_cons (group?_of_ne hc), ih fun d hd => ha d (by simp [hd]),
      List.cons_append]

/-- What is not in a group is not changed. -/
theorem toColons_eq_self (h : groups t = []) : toColons t = t := by
  induction t with
  | nil => exact toColons_nil
  | cons c t ih =>
    cases hg : group? (c :: t) with
    | some g =>
      rw [groups_cons_of_some hg] at h
      cases h
    | none =>
      rw [groups_cons_of_none hg] at h
      rw [toColons_cons hg, ih h]

/-- Word characters up to a closing brace were there before a text was rewritten. -/
theorem eq_of_toColons_eq (hword : ∀ c ∈ word, Text.isWord c = true)
    (h : toColons t = word ++ '\x7d' :: rest) : ∃ after, t = word ++ '\x7d' :: after := by
  induction word generalizing t with
  | nil =>
    cases t with
    | nil => simp at h
    | cons c t =>
      cases hg : group? (c :: t) with
      | some g =>
        rw [toColons_of_group hg] at h
        simp at h
      | none =>
        rw [toColons_cons hg] at h
        exact ⟨t, by rw [(List.cons.inj h).1]; rfl⟩
  | cons w word ih =>
    cases t with
    | nil => simp at h
    | cons c t =>
      cases hg : group? (c :: t) with
      | some g =>
        rw [toColons_of_group hg] at h
        have hcolon : Text.isWord ':' = true := by
          rw [(List.cons.inj h).1]
          exact hword w (by simp)
        cases hcolon
      | none =>
        rw [toColons_cons hg] at h
        obtain ⟨rfl, htail⟩ := List.cons.inj h
        obtain ⟨after, rfl⟩ := ih (fun d hd => hword d (by simp [hd])) htail
        exact ⟨after, rfl⟩

/-- Rewriting leaves no group behind. -/
theorem groups_toColons (t : Text) : groups (toColons t) = [] := by
  fun_induction toColons t with
  | case1 => rfl
  | case2 c t word rest h ih =>
    have hword := (group?_eq_some_iff.1 h).1
    rw [groups_append_of_ne, ih]
    intro d hd
    rcases List.mem_cons.1 hd with rfl | hd
    · decide
    · rintro rfl
      cases hword _ hd
  | case3 c t h ih =>
    have hnone : group? (c :: toColons t) = none := by
      rw [Option.eq_none_iff_forall_ne_some]
      rintro ⟨word, rest⟩ hg
      obtain ⟨hword, heq⟩ := group?_eq_some_iff.1 hg
      obtain ⟨rfl, htail⟩ := List.cons.inj heq
      obtain ⟨after, rfl⟩ := eq_of_toColons_eq hword htail
      rw [group?_eq_some_iff.2 ⟨hword, rfl⟩] at h
      cases h
    rw [groups_cons_of_none hnone, ih]

/-- A text goes on with no group after rewriting if it did with none before. -/
theorem Parted.toColons (hu : Parted u) : Parted (toColons u) := by
  cases u with
  | nil => simpa using hu
  | cons c u =>
    cases hg : group? (c :: u) with
    | some g =>
      rw [toColons_of_group hg]
      intro d hd
      obtain rfl : ':' = d := by simpa using hd
      decide
    | none =>
      rw [toColons_cons hg]
      exact hu

theorem toColons_ne_nil (h : t ≠ []) : toColons t ≠ [] := by
  cases t with
  | nil => exact absurd rfl h
  | cons c t =>
    cases hg : group? (c :: t) with
    | some g =>
      rw [toColons_of_group hg]
      simp
    | none =>
      rw [toColons_cons hg]
      simp

end Rewriting

section Edges

variable {t : Text}

theorem parted_of_isEdge (h : ∀ c ∈ t, isEdge c = true) : Parted t := by
  intro c hc
  have hedge := h c (List.mem_of_mem_head? hc)
  exact ⟨isWord_of_isEdge hedge, ne_of_isEdge hedge rfl⟩

theorem ne_open_of_isEdge (h : ∀ c ∈ t, isEdge c = true) : ∀ c ∈ t, c ≠ '\x7b' :=
  fun c hc => ne_of_isEdge (h c hc) rfl

theorem last_toColons (h : ∀ c ∈ t.getLast?, isEdge c = false) :
    ∀ c ∈ (toColons t).getLast?, isEdge c = false := by
  fun_induction toColons t with
  | case1 => exact h
  | case2 c t word rest hg ih =>
    obtain ⟨hword, heq⟩ := group?_eq_some_iff.1 hg
    have hrest : ∀ d ∈ rest.getLast?, isEdge d = false := by
      intro d hd
      apply h d
      have hsplit : c :: t = '\x7b' :: (word ++ ['\x7d']) ++ rest := by simp [heq]
      rw [hsplit, List.getLast?_append, Option.mem_def.1 hd]
      rfl
    intro d hd
    rw [List.getLast?_append, Option.mem_def, Option.or_eq_some_iff] at hd
    rcases hd with hd | ⟨-, hd⟩
    · exact ih hrest d hd
    · rcases List.mem_cons.1 (List.mem_of_getLast? hd) with rfl | hd
      · rfl
      · exact isEdge_of_isWord (hword d hd)
  | case3 c t hg ih =>
    cases t with
    | nil =>
      rw [toColons_nil]
      exact h
    | cons e t =>
      obtain ⟨f, u, hu⟩ := List.exists_cons_of_ne_nil (toColons_ne_nil (List.cons_ne_nil e t))
      rw [hu, List.getLast?_cons_cons, ← hu]
      apply ih
      intro d hd
      apply h d
      rw [List.getLast?_cons_cons]
      exact hd

/-- Rewriting brings nothing to the ends of a text that would be trimmed. -/
theorem bare_toColons (h : Text.Bare isEdge t) : Text.Bare isEdge (toColons t) := by
  refine ⟨?_, last_toColons h.last⟩
  cases t with
  | nil =>
    rw [toColons_nil]
    exact h.head
  | cons c t =>
    cases hg : group? (c :: t) with
    | some g =>
      rw [toColons_of_group hg]
      intro d hd
      obtain rfl : ':' = d := by simpa using hd
      rfl
    | none =>
      rw [toColons_cons hg]
      exact h.head

/-- It is the same to trim a path before it is rewritten and afterwards. -/
theorem toColons_trimBy (t : Text) :
    toColons (Text.trimBy isEdge t) = Text.trimBy isEdge (toColons t) := by
  obtain ⟨a, b, ha, hb, ht⟩ := Text.exists_append_trimBy isEdge t
  have hbare := bare_toColons (Text.bare_trimBy isEdge t)
  generalize Text.trimBy isEdge t = u at ht hbare ⊢
  have hb' : toColons b = b := toColons_eq_self (groups_of_ne (ne_open_of_isEdge hb))
  rw [ht, toColons_append (parted_of_isEdge hb), toColons_append_of_ne (ne_open_of_isEdge ha),
    hb', Text.trimBy_append ha hb hbare]

/-- Trimming a path takes no group away. -/
theorem groups_trimBy (t : Text) : groups (Text.trimBy isEdge t) = groups t := by
  obtain ⟨a, b, ha, hb, ht⟩ := Text.exists_append_trimBy isEdge t
  generalize Text.trimBy isEdge t = u at ht ⊢
  rw [ht, groups_append (parted_of_isEdge hb), groups_append_of_ne (ne_open_of_isEdge ha),
    groups_of_ne (ne_open_of_isEdge hb), List.append_nil]

theorem rooted_eq (t : Text) : rooted t = '/' :: Text.trimBy isEdge t := by
  simp [rooted, normalise]

theorem toColons_rooted (t : Text) : toColons (rooted t) = rooted (toColons t) := by
  rw [rooted_eq, rooted_eq, toColons_cons (group?_of_ne (by decide)), toColons_trimBy]

theorem groups_rooted (t : Text) : groups (rooted t) = groups t := by
  rw [rooted_eq, groups_cons_of_none (group?_of_ne (by decide)), groups_trimBy]

/-- No group goes on with a segment, which is empty or starts with a slash. -/
theorem parted_segment (t : Text) : Parted (segment t) := by
  unfold segment normalise
  split
  · intro c hc
    simp at hc
  · intro c hc
    obtain rfl : '/' = c := by simpa using hc
    decide

end Edges

end RouteModule.RoutePath
