import RouteModule.Table

/-!
The order of a table. Values under different names all stay, each once, but in the order of the
names; they keep the order in which they were given just if the names ascend in it already.
-/

namespace RouteModule.Table

/-- Under a new name a value comes to the others. -/
theorem insert_perm {name : Text} {t : Table α} (h : name ∉ t.map Prod.fst) (value : α) :
    (t.insert name value).Perm ((name, value) :: t) := by
  induction t with
  | nil => exact List.Perm.refl _
  | cons e t ih =>
    obtain ⟨n, v⟩ := e
    have hne : name ≠ n := by
      rintro rfl
      exact h (by simp)
    have hrest : name ∉ t.map Prod.fst := by
      intro hm
      exact h (by simp [hm])
    rw [insert, if_neg hne]
    split
    · exact List.Perm.refl _
    · exact ((ih hrest).cons (n, v)).trans (List.Perm.swap _ _ _)

theorem foldl_insert_perm {entries : List (Text × α)} (h : (entries.map Prod.fst).Nodup)
    {t : Table α} (ht : ∀ e ∈ entries, e.1 ∉ t.map Prod.fst) :
    (entries.foldl (fun table e => Table.insert e.1 e.2 table) t).Perm (t ++ entries) := by
  induction entries generalizing t with
  | nil => simp
  | cons e entries ih =>
    obtain ⟨hne, hnodup⟩ := List.nodup_cons.1 h
    have hinsert := insert_perm (ht e List.mem_cons_self) e.2
    have hkeys : ∀ d ∈ entries, d.1 ∉ (Table.insert e.1 e.2 t).map Prod.fst := by
      intro d hd hm
      have hm' := (hinsert.map Prod.fst).subset hm
      rcases List.mem_cons.1 hm' with heq | hm'
      · exact hne (heq ▸ List.mem_map_of_mem hd)
      · exact ht d (List.mem_cons_of_mem e hd) hm'
    have hfold := ih hnodup hkeys
    have hswap : (Table.insert e.1 e.2 t ++ entries).Perm (t ++ e :: entries) :=
      (hinsert.append_right entries).trans List.perm_middle.symm
    exact hfold.trans hswap

/-- Values under different names are all in the table, each once. -/
theorem ofList_perm {entries : List (Text × α)} (h : (entries.map Prod.fst).Nodup) :
    (ofList entries).Perm entries :=
  foldl_insert_perm h (by simp)

theorem before_asymm {a b : Text} (hab : Text.before a b) : ¬ Text.before b a := by
  intro hba
  have hirrefl := Text.before_trans hab hba
  simp [Text.before_irrefl] at hirrefl

/-- Two tables with the same values under the same names are the same. -/
theorem Sorted.eq_of_perm {t u : Table α} (ht : t.Sorted) (hu : u.Sorted) (h : t.Perm u) : t = u :=
  List.Perm.eq_of_pairwise (fun _ _ _ _ hab hba => absurd hba (before_asymm hab)) ht hu h

/-- The order of values under different names does not matter. -/
theorem ofList_eq_of_perm {entries others : List (Text × α)} (h : (entries.map Prod.fst).Nodup)
    (hperm : others.Perm entries) : ofList others = ofList entries := by
  have hothers : (others.map Prod.fst).Nodup := (hperm.map Prod.fst).nodup_iff.2 h
  exact (Sorted.ofList others).eq_of_perm (Sorted.ofList entries)
    ((ofList_perm hothers).trans (hperm.trans (ofList_perm h).symm))

/-- The names of a table ascend. -/
theorem names_ofList (entries : List (Text × α)) :
    ((ofList entries).map Prod.fst).Pairwise fun a b => Text.before a b :=
  List.pairwise_map.2 (Sorted.ofList entries)

/-- Values under different names stay in their order just if the names ascend in it. -/
theorem names_ofList_eq_iff {entries : List (Text × α)} (h : (entries.map Prod.fst).Nodup) :
    (ofList entries).map Prod.fst = entries.map Prod.fst ↔
      (entries.map Prod.fst).Pairwise fun a b => Text.before a b := by
  constructor
  · intro heq
    rw [← heq]
    exact names_ofList entries
  · intro hsorted
    exact List.Perm.eq_of_pairwise (fun _ _ _ _ hab hba => absurd hba (before_asymm hab))
      (names_ofList entries) hsorted ((ofList_perm h).map Prod.fst)

end RouteModule.Table
