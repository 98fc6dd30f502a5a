import Mathlib.Data.List.Infix
import RouteModule.Text

/-!
Where and how often a text stands in another one. Two texts that meet bring up nothing new, if what
stands on one side of the place where they meet is no part of what is looked for.
-/

namespace RouteModule.Text

variable {w v a b t x : Text}

/-- Nothing of what is looked for stands at the end of the one text, or at the start of the other. -/
def Apart (w a b : Text) : Prop := (∀ c ∈ a.getLast?, c ∉ w) ∨ (∀ c ∈ b.head?, c ∉ w)

theorem infix_append (h : Apart w a b) : w <:+: a ++ b ↔ w <:+: a ∨ w <:+: b := by
  rw [List.infix_append_iff]
  refine ⟨?_, fun h => h.elim .inl fun hb => .inr (.inl hb)⟩
  rintro (ha | hb | ⟨u, v, rfl, hu, hv⟩)
  · exact .inl ha
  · exact .inr hb
  · -- A part on either side of the place would have the character there in what is looked for.
    rcases List.eq_nil_or_concat u with rfl | ⟨u, c, rfl⟩
    · exact .inr hv.isInfix
    cases v with
    | nil => exact .inl (by simpa using hu.isInfix)
    | cons d v =>
      rcases h with h | h
      · obtain ⟨s, rfl⟩ := hu
        exact absurd (by simp) (h c (by simp))
      · obtain ⟨s, rfl⟩ := hv
        exact absurd (by simp) (h d (by simp))

section Counting

/-- The number of places of a text where another one stands. -/
def occurrences (w : Text) : Text → Nat
  | [] => 0
  | c :: t => (if w <+: c :: t then 1 else 0) + occurrences w t

@[simp] theorem occurrences_nil (w : Text) : occurrences w [] = 0 := rfl

theorem occurrences_eq_zero (h : ¬ w <:+: t) : occurrences w t = 0 := by
  induction t with
  | nil => rfl
  | cons c t ih =>
    rw [List.infix_cons_iff, not_or] at h
    rw [occurrences, if_neg h.1, ih h.2]

theorem occurrences_append_of_head {c : Char} (hw : w ≠ []) (h : c ∉ w) (a b : Text) :
    occurrences w (a ++ c :: b) = occurrences w a + occurrences w b := by
  induction a with
  | nil =>
    have hno : ¬ w <+: c :: b := by
      rintro ⟨s, hs⟩
      obtain ⟨d, w, rfl⟩ := List.exists_cons_of_ne_nil hw
      obtain ⟨rfl, -⟩ := List.cons.inj hs
      exact h List.mem_cons_self
    rw [List.nil_append, occurrences_nil, occurrences, if_neg hno]
  | cons d a ih =>
    have hstart : w <+: d :: (a ++ c :: b) ↔ w <+: d :: a := by
      constructor
      · intro hpre
        rw [← List.cons_append] at hpre
        by_contra hno
        -- What is looked for would reach to the place where the texts meet.
        rcases List.prefix_or_prefix_of_prefix hpre (List.prefix_append (d :: a) (c :: b))
          with hle | hle
        · exact hno hle
        · obtain ⟨s, rfl⟩ := hle
          rw [List.prefix_append_right_inj] at hpre
          cases s with
          | nil => simp at hno
          | cons e s =>
            obtain ⟨u, hu⟩ := hpre
            obtain ⟨rfl, -⟩ := List.cons.inj hu
            exact h (by simp)
      · intro hpre
        exact hpre.trans (List.prefix_append (d :: a) (c :: b))
    rw [List.cons_append, occurrences, occurrences, ih, if_congr hstart rfl rfl, Nat.add_assoc]

/-- What stands apart is counted in both texts on their own. -/
theorem occurrences_append (hw : w ≠ []) (h : Apart w a b) :
    occurrences w (a ++ b) = occurrences w a + occurrences w b := by
  rcases h with h | h
  · rcases List.eq_nil_or_concat a with rfl | ⟨a, c, rfl⟩
    · simp
    · have hc : c ∉ w := h c (by simp)
      have hone : occurrences w (a ++ [c]) = occurrences w a := by
        rw [occurrences_append_of_head hw hc, occurrences_nil, Nat.add_zero]
      rw [List.concat_eq_append, List.append_assoc, List.singleton_append,
        occurrences_append_of_head hw hc, hone]
  · cases b with
    | nil => simp
    | cons c b =>
      have hc : c ∉ w := h c rfl
      have hone : occurrences w (c :: b) = occurrences w b := by
        have := occurrences_append_of_head hw hc [] b
        rwa [List.nil_append, occurrences_nil, Nat.zero_add] at this
      rw [occurrences_append_of_head hw hc, hone]

/-- Of texts that all end with what is apart, the whole has as many occurrences as the parts: as many
as there are items, if each part has as many as it has items. -/
theorem occurrences_flatMap (hw : w ≠ []) {f : α → Text} {items : α → List β} {xs : List α}
    (h : ∀ x ∈ xs, ∀ c ∈ (f x).getLast?, c ∉ w)
    (hitems : ∀ x ∈ xs, occurrences w (f x) = (items x).length) :
    occurrences w (xs.flatMap f) = (xs.flatMap items).length := by
  induction xs with
  | nil => rfl
  | cons x xs ih =>
    have hx := h x List.mem_cons_self
    have hxs := ih (fun y hy => h y (List.mem_cons_of_mem x hy))
      (fun y hy => hitems y (List.mem_cons_of_mem x hy))
    rw [List.flatMap_cons, List.flatMap_cons, List.length_append, occurrences_append hw (.inl hx),
      hxs, hitems x List.mem_cons_self]

end Counting

section Quiet

/-- Nothing of what is looked for stands in a text, or starts at its end. -/
structure Quiet (w t : Text) : Prop where
  absent : ¬ w <:+: t
  last : ∀ c ∈ t.getLast?, c ∉ w

/-- A quiet text with a first character that is no part of what is looked for. -/
structure Fixed (w t : Text) : Prop extends Quiet w t where
  head : ∃ c ∈ t.head?, c ∉ w

-- The characters asked about are those of the text, not all there are.
instance (w t : Text) : Decidable (Quiet w t) :=
  have : Decidable (∀ c ∈ t.getLast?, c ∉ w) := Option.decidableForallMem _
  decidable_of_iff (¬ w <:+: t ∧ ∀ c ∈ t.getLast?, c ∉ w)
    ⟨fun ⟨absent, last⟩ => ⟨absent, last⟩, fun h => ⟨h.absent, h.last⟩⟩

instance (w t : Text) : Decidable (Fixed w t) :=
  have : Decidable (∃ c ∈ t.head?, c ∉ w) := Option.decidableExistsMem _
  decidable_of_iff (Quiet w t ∧ ∃ c ∈ t.head?, c ∉ w)
    ⟨fun ⟨quiet, head⟩ => ⟨quiet, head⟩, fun h => ⟨h.toQuiet, h.head⟩⟩

theorem Quiet.nil (hw : w ≠ []) : Quiet w [] := ⟨by simpa using hw, by simp⟩

theorem last_append (ha : ∀ c ∈ a.getLast?, c ∉ w) (hb : ∀ c ∈ b.getLast?, c ∉ w) :
    ∀ c ∈ (a ++ b).getLast?, c ∉ w := by
  intro c hc
  rw [List.getLast?_append, Option.mem_def, Option.or_eq_some_iff] at hc
  rcases hc with hc | ⟨-, hc⟩
  · exact hb c hc
  · exact ha c hc

theorem Quiet.append (ha : Quiet w a) (hb : Quiet w b) : Quiet w (a ++ b) := by
  refine ⟨?_, last_append ha.last hb.last⟩
  rw [infix_append (.inl ha.last), not_or]
  exact ⟨ha.absent, hb.absent⟩

/-- A text without what is looked for stays so between a quiet one and a fixed one. -/
theorem Quiet.around (ha : Quiet w a) (hx : ¬ w <:+: x) (hb : Fixed w b) :
    Quiet w (a ++ x ++ b) := by
  obtain ⟨c, hc, hcw⟩ := hb.head
  have hhead : ∀ d ∈ b.head?, d ∉ w := by
    intro d hd
    rw [Option.mem_def.1 hc] at hd
    cases hd
    exact hcw
  constructor
  · rw [infix_append (.inr hhead), infix_append (.inl ha.last), not_or, not_or]
    exact ⟨⟨ha.absent, hx⟩, hb.absent⟩
  · cases b with
    | nil => simp at hc
    | cons d b =>
      rw [List.getLast?_append_of_ne_nil _ (List.cons_ne_nil d b)]
      exact hb.last

theorem Quiet.flatMap (hw : w ≠ []) {f : α → Text} {xs : List α} (h : ∀ x ∈ xs, Quiet w (f x)) :
    Quiet w (xs.flatMap f) := by
  induction xs with
  | nil => exact .nil hw
  | cons x xs ih =>
    have hxs := ih fun y hy => h y (List.mem_cons_of_mem x hy)
    exact (h x List.mem_cons_self).append hxs

/-- What is looked for once more between quiet texts is there once. -/
theorem occurrences_between (hw : w ≠ []) (hself : occurrences w w = 1) (ha : Quiet w a)
    (hb : Fixed w b) : occurrences w (a ++ w ++ b) = 1 := by
  obtain ⟨c, hc, hcw⟩ := hb.head
  have hhead : ∀ d ∈ b.head?, d ∉ w := by
    intro d hd
    rw [Option.mem_def.1 hc] at hd
    cases hd
    exact hcw
  rw [occurrences_append hw (.inr hhead), occurrences_append hw (.inl ha.last), hself,
    occurrences_eq_zero ha.absent, occurrences_eq_zero hb.absent]

end Quiet

end RouteModule.Text
