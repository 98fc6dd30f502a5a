import RouteModule.Text

/-!
Tables: values under names, in ascending order of the names and with each name once. Inserting a
value under a name that is there replaces the old value, so that of several the last one stays.
-/

namespace RouteModule

/-- Values under names, in the order of the names. -/
abbrev Table (α : Type) := List (Text × α)

namespace Table

def insert (name : Text) (value : α) : Table α → Table α
  | [] => [(name, value)]
  | (n, v) :: rest =>
    if name = n then (name, value) :: rest
    else if Text.before name n then (name, value) :: (n, v) :: rest
    else (n, v) :: insert name value rest

/-- The table of named values; of two values under one name the later stays. -/
def ofList (entries : List (Text × α)) : Table α :=
  entries.foldl (fun table e => table.insert e.1 e.2) []

@[simp] theorem lookup_insert_self (name : Text) (value : α) (t : Table α) :
    List.lookup name (t.insert name value) = some value := by
  induction t with
  | nil => simp [insert]
  | cons e t ih =>
    obtain ⟨n, v⟩ := e
    rw [insert]
    split
    · simp
    · next h =>
      split
      · simp
      · simp [List.lookup_cons, beq_false_of_ne h, ih]

theorem lookup_insert_of_ne {name other : Text} (h : other ≠ name) (value : α) (t : Table α) :
    List.lookup other (t.insert name value) = List.lookup other t := by
  induction t with
  | nil => simp [insert, List.lookup_cons, beq_false_of_ne h]
  | cons e t ih =>
    obtain ⟨n, v⟩ := e
    rw [insert]
    split
    · next hn => subst hn; simp [List.lookup_cons, beq_false_of_ne h]
    · split
      · simp [List.lookup_cons, beq_false_of_ne h]
      · by_cases ho : other = n
        · simp [ho]
        · simp [List.lookup_cons, beq_false_of_ne ho, ih]

theorem lookup_foldl_insert (name : Text) (entries : List (Text × α)) (t : Table α) :
    List.lookup name (entries.foldl (fun table e => Table.insert e.1 e.2 table) t) =
      (entries.reverse.lookup name).or (List.lookup name t) := by
  induction entries generalizing t with
  | nil => rfl
  | cons e entries ih =>
    obtain ⟨n, v⟩ := e
    rw [List.foldl_cons, ih, List.reverse_cons, List.lookup_append, Option.or_assoc]
    congr 1
    by_cases h : name = n
    · subst h
      simp
    · simp [lookup_insert_of_ne h, List.lookup_cons, beq_false_of_ne h]

/-- Of several values under one name the last is in the table. -/
theorem lookup_ofList (name : Text) (entries : List (Text × α)) :
    List.lookup name (ofList entries) = entries.reverse.lookup name := by
  rw [ofList, lookup_foldl_insert, List.lookup_nil, Option.or_none]

/-- The names ascend, so that each is there once. -/
def Sorted (t : Table α) : Prop := t.Pairwise fun a b => Text.before a.1 b.1

theorem Sorted.insert {t : Table α} (h : t.Sorted) (name : Text) (value : α) :
    Sorted (t.insert name value) := by
  induction t with
  | nil => simp [Table.insert, Sorted]
  | cons e t ih =>
    obtain ⟨n, v⟩ := e
    have hn : ∀ a ∈ t, Text.before n a.1 := (List.pairwise_cons.1 h).1
    have ht : Sorted t := (List.pairwise_cons.1 h).2
    rw [Table.insert]
    split
    · next e =>
      subst e
      exact List.pairwise_cons.2 ⟨hn, ht⟩
    · next e =>
      split
      · next hb =>
        refine List.pairwise_cons.2 ⟨?_, h⟩
        intro a ha
        rcases List.mem_cons.1 ha with rfl | ha
        · exact hb
        · exact Text.before_trans hb (hn a ha)
      · next hb =>
        have hnb : Text.before n name :=
          (Text.before_or_before e).resolve_left hb
        refine List.pairwise_cons.2 ⟨?_, ih ht⟩
        intro a ha
        have hmem : a.1 = name ∨ a ∈ t := mem_of_mem_insert ha
        rcases hmem with he | ha
        · rw [he]; exact hnb
        · exact hn a ha
where
  mem_of_mem_insert {a : Text × α} {name : Text} {value : α} : {t : Table α} →
      a ∈ t.insert name value → a.1 = name ∨ a ∈ t
    | [], h => by simp [Table.insert] at h; simp [h]
    | (n, v) :: t, h => by
      rw [Table.insert] at h
      split at h
      · rcases List.mem_cons.1 h with rfl | h
        · exact Or.inl rfl
        · exact Or.inr (List.mem_cons_of_mem _ h)
      · split at h
        · rcases List.mem_cons.1 h with rfl | h
          · exact Or.inl rfl
          · exact Or.inr h
        · rcases List.mem_cons.1 h with rfl | h
          · exact Or.inr List.mem_cons_self
          · rcases mem_of_mem_insert h with h | h
            · exact Or.inl h
            · exact Or.inr (List.mem_cons_of_mem _ h)

theorem Sorted.ofList (entries : List (Text × α)) : Sorted (Table.ofList entries) := by
  have key : ∀ (t : Table α), t.Sorted →
      Sorted (entries.foldl (fun table e => table.insert e.1 e.2) t) := by
    induction entries with
    | nil => exact fun t h => h
    | cons e entries ih => exact fun t h => ih _ (h.insert e.1 e.2)
  exact key [] List.Pairwise.nil

theorem lookup_eq_none_of_before {t : Table α} {name : Text}
    (h : ∀ a ∈ t, Text.before name a.1) : List.lookup name t = none := by
  induction t with
  | nil => rfl
  | cons e t ih =>
    obtain ⟨n, v⟩ := e
    have hne : name ≠ n := by
      rintro rfl
      have := h _ List.mem_cons_self
      simp [Text.before_irrefl] at this
    simp [List.lookup_cons, beq_false_of_ne hne, ih fun a ha => h a (List.mem_cons_of_mem _ ha)]

/-- Two sorted tables with the same values under the same names are the same. -/
theorem Sorted.ext {t u : Table α} (ht : t.Sorted) (hu : u.Sorted)
    (h : ∀ name, List.lookup name t = List.lookup name u) : t = u := by
  induction t generalizing u with
  | nil =>
    cases u with
    | nil => rfl
    | cons e u =>
      obtain ⟨n, v⟩ := e
      simpa using h n
  | cons e t ih =>
    obtain ⟨n, v⟩ := e
    cases u with
    | nil => simpa using h n
    | cons f u =>
      obtain ⟨m, w⟩ := f
      have htn := (List.pairwise_cons.1 ht).1
      have hum := (List.pairwise_cons.1 hu).1
      have hnm : n = m := by
        by_cases hnm : n = m
        · exact hnm
        · rcases Text.before_or_before hnm with hb | hb
          · have h1 := h n
            have h2 : List.lookup n ((m, w) :: u) = none :=
              lookup_eq_none_of_before fun a ha => by
                rcases List.mem_cons.1 ha with rfl | ha
                · exact hb
                · exact Text.before_trans hb (hum a ha)
            rw [h2] at h1
            simp at h1
          · have h1 := h m
            have h2 : List.lookup m ((n, v) :: t) = none :=
              lookup_eq_none_of_before fun a ha => by
                rcases List.mem_cons.1 ha with rfl | ha
                · exact hb
                · exact Text.before_trans hb (htn a ha)
            rw [h2] at h1
            simp at h1
      subst hnm
      have hvw : v = w := by simpa [List.lookup_cons] using h n
      subst hvw
      congr 1
      refine ih (List.pairwise_cons.1 ht).2 (List.pairwise_cons.1 hu).2 fun name => ?_
      by_cases hne : name = n
      · subst hne
        rw [lookup_eq_none_of_before htn, lookup_eq_none_of_before hum]
      · simpa [List.lookup_cons, beq_false_of_ne hne] using h name

end Table

end RouteModule
