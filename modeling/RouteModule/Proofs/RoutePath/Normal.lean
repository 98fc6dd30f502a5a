import RouteModule.Proofs.RoutePath.FullPath

/-!
Normal forms of paths. A path that is normalised in front of a slash is the slash and what trimming
leaves of the path, so that only its core counts. Where empty paths are skipped there is one exception:
whether a path is empty is seen before it is trimmed, and a stray path, which has nothing but edges and
is more than the bare root, keeps the slash. Normalised once more it loses it.
-/

namespace RouteModule.RoutePath

/-- A path is a core with slashes, backslashes and blanks around it, or with nothing around it. -/
def HasCore (path core : Text) : Prop :=
  ∃ a b, (∀ c ∈ a, isEdge c = true) ∧ (∀ c ∈ b, isEdge c = true) ∧ path = a ++ core ++ b

/-- Two paths differ only in what stands at their edges. -/
def SameCore (path other : Text) : Prop := ∃ core, HasCore path core ∧ HasCore other core

section Normal

variable {path other core : Text} {skip : Bool}

theorem hasCore_trimBy (path : Text) : HasCore path (Text.trimBy isEdge path) :=
  Text.exists_append_trimBy isEdge path

theorem HasCore.trimBy (h : HasCore path core) :
    Text.trimBy isEdge path = Text.trimBy isEdge core := by
  obtain ⟨a, b, ha, hb, rfl⟩ := h
  exact Text.trimBy_append_trimmed ha hb core

/-- Paths have the same core just if trimming leaves the same of them. -/
theorem sameCore_iff :
    SameCore path other ↔ Text.trimBy isEdge path = Text.trimBy isEdge other := by
  constructor
  · rintro ⟨core, hpath, hother⟩
    rw [hpath.trimBy, hother.trimBy]
  · intro htrim
    refine ⟨Text.trimBy isEdge path, hasCore_trimBy path, ?_⟩
    rw [htrim]
    exact hasCore_trimBy other

/-- A path is skipped: it is empty or the bare root. -/
def IsSkipped (path : Text) : Prop := path = [] ∨ path = ['/']

theorem isStray_iff : IsStray path ↔ Text.trimBy isEdge path = [] ∧ ¬ IsSkipped path := by
  rw [IsStray, IsSkipped, not_or]

theorem trimBy_of_isSkipped (h : IsSkipped path) : Text.trimBy isEdge path = [] := by
  rcases h with rfl | rfl
  · rfl
  · rfl

theorem normalise_of_isSkipped (h : IsSkipped path) : normalise path ['/'] [] true = [] := by
  rw [normalise, if_pos ⟨rfl, h⟩]

/-- What is not skipped becomes a slash and what trimming leaves. -/
theorem normalise_of_kept (h : skip = true → ¬ IsSkipped path) :
    normalise path ['/'] [] skip = '/' :: Text.trimBy isEdge path := by
  rw [normalise, if_neg fun hskip => h hskip.1 hskip.2, List.append_nil, List.singleton_append]

theorem trimBy_slash (path : Text) :
    Text.trimBy isEdge ('/' :: Text.trimBy isEdge path) = Text.trimBy isEdge path := by
  have hslash := Text.trimBy_append_trimmed isEdge_slash (b := []) (by simp) (Text.trimBy isEdge path)
  rw [List.append_nil, List.singleton_append, Text.trimBy_trimBy] at hslash
  exact hslash

/-- A slash and what trimming leaves is skipped just if nothing is left. -/
theorem isSkipped_slash : IsSkipped ('/' :: Text.trimBy isEdge path) ↔ Text.trimBy isEdge path = [] := by
  simp [IsSkipped]

/-- Normalising a path that is normalised changes nothing, unless empty paths are skipped and the path
is stray. -/
theorem normalise_normalise :
    normalise (normalise path ['/'] [] skip) ['/'] [] skip = normalise path ['/'] [] skip ↔
      (skip = true → ¬ IsStray path) := by
  by_cases hkept : skip = true → ¬ IsSkipped path
  · rw [normalise_of_kept hkept]
    by_cases hagain : skip = true → ¬ IsSkipped ('/' :: Text.trimBy isEdge path)
    · rw [normalise_of_kept hagain, trimBy_slash]
      refine iff_of_true rfl fun hskip hstray => hagain hskip ?_
      exact isSkipped_slash.2 hstray.1
    · -- Nothing was left but the slash, which is skipped now.
      obtain ⟨rfl, hskipped⟩ := Classical.not_imp.1 hagain
      rw [not_not] at hskipped
      rw [normalise_of_isSkipped hskipped]
      refine iff_of_false (List.cons_ne_nil _ _).symm fun hstray => hstray rfl ?_
      exact isStray_iff.2 ⟨isSkipped_slash.1 hskipped, hkept rfl⟩
  · obtain ⟨rfl, hskipped⟩ := Classical.not_imp.1 hkept
    rw [not_not] at hskipped
    rw [normalise_of_isSkipped hskipped, normalise_of_isSkipped (.inl rfl)]
    exact iff_of_true rfl fun _ hstray => (isStray_iff.1 hstray).2 hskipped

/-- Where empty paths are skipped, a path leaves nothing just if it has nothing but edges and is not
stray. -/
theorem normalise_eq_nil_iff :
    normalise path ['/'] [] true = [] ↔ (∀ c ∈ path, isEdge c = true) ∧ ¬ IsStray path := by
  rw [← Text.trimBy_eq_nil_iff]
  by_cases hskipped : IsSkipped path
  · exact iff_of_true (normalise_of_isSkipped hskipped)
      ⟨trimBy_of_isSkipped hskipped, fun hstray => (isStray_iff.1 hstray).2 hskipped⟩
  · rw [normalise_of_kept fun _ => hskipped]
    refine iff_of_false (List.cons_ne_nil _ _) ?_
    rintro ⟨htrim, hstray⟩
    exact hstray (isStray_iff.2 ⟨htrim, hskipped⟩)

/-- Two paths normalise to the same text just if they have the same core and, where empty paths are
skipped, both of them are stray or none is. -/
theorem normalise_eq_normalise :
    normalise path ['/'] [] skip = normalise other ['/'] [] skip ↔
      SameCore path other ∧ (skip = true → (IsStray path ↔ IsStray other)) := by
  rw [sameCore_iff]
  cases skip with
  | false =>
    rw [normalise_of_kept (by simp), normalise_of_kept (by simp)]
    simp
  | true =>
    rw [forall_prop_of_true rfl]
    by_cases hpath : IsSkipped path
    · have hnone : ¬ IsStray path := fun hstray => (isStray_iff.1 hstray).2 hpath
      rw [normalise_of_isSkipped hpath, eq_comm, normalise_eq_nil_iff, trimBy_of_isSkipped hpath,
        ← Text.trimBy_eq_nil_iff, eq_comm, iff_false_left hnone]
    · by_cases hother : IsSkipped other
      · have hnone : ¬ IsStray other := fun hstray => (isStray_iff.1 hstray).2 hother
        rw [normalise_of_isSkipped hother, normalise_eq_nil_iff, trimBy_of_isSkipped hother,
          ← Text.trimBy_eq_nil_iff, iff_false_right hnone]
      · rw [normalise_of_kept fun _ => hpath, normalise_of_kept fun _ => hother,
          List.cons_inj_right]
        refine ⟨fun htrim => ⟨htrim, ?_⟩, And.left⟩
        simp only [isStray_iff, htrim, hpath, hother]

end Normal

/-- What normalising in front of a slash makes of a path, whether empty paths are skipped or not: a path
is normal after one time unless empty paths are skipped and it is stray; two paths have the same normal
form just if they differ only at their edges and, where empty paths are skipped, none or both of them are
stray; and a path is skipped just if it has nothing but edges and is not stray. -/
theorem normalise_laws (path other : Text) (skip : Bool) :
    (normalise (normalise path ['/'] [] skip) ['/'] [] skip = normalise path ['/'] [] skip ↔
      (skip = true → ¬ IsStray path)) ∧
    (normalise path ['/'] [] skip = normalise other ['/'] [] skip ↔
      SameCore path other ∧ (skip = true → (IsStray path ↔ IsStray other))) ∧
    (normalise path ['/'] [] true = [] ↔ (∀ c ∈ path, isEdge c = true) ∧ ¬ IsStray path) :=
  ⟨normalise_normalise, normalise_eq_normalise, normalise_eq_nil_iff⟩

/-- A path of two slashes keeps a slash where empty paths are skipped, and loses it the next time. -/
theorem normalise_slashes :
    (∀ c ∈ ['/', '/'], isEdge c = true) ∧ SameCore ['/', '/'] [] ∧
    normalise ['/', '/'] ['/'] [] true = ['/'] ∧
    normalise (normalise ['/', '/'] ['/'] [] true) ['/'] [] true = [] ∧
    normalise [] ['/'] [] true = [] :=
  ⟨List.all_eq_true.1 rfl, sameCore_iff.2 rfl, rfl, rfl, rfl⟩

end RouteModule.RoutePath
