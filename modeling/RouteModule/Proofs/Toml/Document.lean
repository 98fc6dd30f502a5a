import Mathlib.Data.List.TakeDrop
import RouteModule.Proofs.Toml.Quoted
import RouteModule.Toml.Reader

/-!
TOML texts that assign one value a line. Such a text is read line by line, and as long as nothing is
assigned twice the root of the document has the assignments in their order.
-/

namespace RouteModule.Toml

open Quoted (isBlank afterBreak?)

/-- A text that is read as a value up to the end of its line. -/
structure Writes (v : Text) (node : Node) : Prop where
  blank : ∀ rest, skipBlanks (v ++ '\n' :: rest) = v ++ '\n' :: rest
  read : ∀ fuel depth rest, value? (fuel + 1) depth (v ++ '\n' :: rest) = some (node, '\n' :: rest)

/-- A text between quotes is written. -/
theorem writes_render (t : Text) : Writes (Quoted.render t) (.atom t (.text t)) := by
  have hread : ∀ rest, Quoted.read? (Quoted.render t ++ '\n' :: rest) = some (t, '\n' :: rest) :=
    fun rest => Quoted.read?_render t (by simp)
  obtain ⟨q, body, hq, hbody⟩ : ∃ q body, (q = '"' ∨ q = '\'') ∧ Quoted.render t = q :: body := by
    unfold Quoted.render
    split
    · exact ⟨_, _, .inl rfl, rfl⟩
    · exact ⟨_, _, .inr rfl, rfl⟩
    · exact ⟨_, _, .inl rfl, rfl⟩
    · exact ⟨_, _, .inr rfl, rfl⟩
  rw [hbody] at hread ⊢
  constructor
  · intro rest
    rcases hq with rfl | rfl <;> rfl
  · intro fuel depth rest
    have hrest := hread rest
    rcases hq with rfl | rfl
    · rw [List.cons_append] at hrest ⊢
      simp only [value?, hrest, Option.map_some]
    · rw [List.cons_append] at hrest ⊢
      simp only [value?, hrest, Option.map_some]

/-- The word for true is written. -/
theorem writes_true : Writes "true".toList (.atom "true".toList (.bool true)) where
  blank _ := rfl
  read fuel depth rest := by
    have hdate : startsDate ("true".toList ++ '\n' :: rest) = false := rfl
    have htime : startsTime ("true".toList ++ '\n' :: rest) = false := rfl
    have hvalue : value? (fuel + 1) depth ("true".toList ++ '\n' :: rest) =
        scalar? ("true".toList ++ '\n' :: rest) := by
      rfl
    rw [hvalue, scalar?, hdate, htime, Text.after?_append]
    simp only [Bool.false_eq_true, if_false]
    rw [List.length_append, Nat.add_sub_cancel, List.take_left' rfl]

/-- The word for false is written. -/
theorem writes_false : Writes "false".toList (.atom "false".toList (.bool false)) where
  blank _ := rfl
  read fuel depth rest := by
    have hdate : startsDate ("false".toList ++ '\n' :: rest) = false := rfl
    have htime : startsTime ("false".toList ++ '\n' :: rest) = false := rfl
    have htrue : Text.after? "true".toList ("false".toList ++ '\n' :: rest) = none := rfl
    have hvalue : value? (fuel + 1) depth ("false".toList ++ '\n' :: rest) =
        scalar? ("false".toList ++ '\n' :: rest) := by
      rfl
    rw [hvalue, scalar?, hdate, htime, htrue, Text.after?_append]
    simp only [Bool.false_eq_true, if_false]
    rw [List.length_append, Nat.add_sub_cancel, List.take_left' rfl]

section Statements

/-- A name that needs no quotes. -/
def IsBareName (name : Text) : Prop := name ≠ [] ∧ ∀ c ∈ name, isBare c = true

instance (name : Text) : Decidable (IsBareName name) :=
  decidable_of_iff (name ≠ [] ∧ name.all isBare) (and_congr_right' List.all_eq_true)

theorem isBare_ne {c d : Char} (h : isBare c = true) (hd : isBare d = false) : c ≠ d := by
  rintro rfl
  rw [h] at hd
  cases hd

theorem isBare_not_blank {c : Char} (h : isBare c = true) : isBlank c = false := by
  simp only [isBlank, Bool.or_eq_false_iff, beq_eq_false_iff_ne]
  exact ⟨isBare_ne h (by decide), isBare_ne h (by decide)⟩

variable {name v : Text} {node : Node}

theorem skipBlanks_cons {c : Char} (h : isBlank c = false) (t : Text) :
    skipBlanks (c :: t) = c :: t := by
  simp [skipBlanks, h]

/-- A name is read up to the sign behind it. -/
theorem name?_bare (h : IsBareName name) (rest : Text) :
    name? (name ++ " = ".toList ++ rest) = some (name, '=' :: ' ' :: rest) := by
  obtain ⟨hne, hbare⟩ := h
  obtain ⟨c, cs, rfl⟩ := List.exists_cons_of_ne_nil hne
  have hc := hbare c List.mem_cons_self
  have hsplit : (c :: cs) ++ " = ".toList ++ rest = (c :: cs) ++ ' ' :: '=' :: ' ' :: rest := by
    simp
  have hspan : ((c :: cs) ++ ' ' :: '=' :: ' ' :: rest).span isBare =
      (c :: cs, ' ' :: '=' :: ' ' :: rest) := by
    rw [List.span_eq_takeWhile_dropWhile, List.takeWhile_append_of_pos hbare,
      List.dropWhile_append_of_pos hbare]
    simp [show isBare ' ' = false by decide]
  rw [hsplit, name?, List.cons_append, skipBlanks_cons (isBare_not_blank hc), ← List.cons_append]
  have hquote : c ≠ '"' := isBare_ne hc (by decide)
  have hsingle : c ≠ '\'' := isBare_ne hc (by decide)
  have hgap : skipBlanks (' ' :: '=' :: ' ' :: rest) = '=' :: ' ' :: rest := rfl
  simp only [hspan]
  split
  · next heq => exact absurd (List.cons.inj heq).1 hquote
  · next heq => exact absurd (List.cons.inj heq).1 hsingle
  · rw [← hgap]
    rfl

theorem statement?_assignment (h : IsBareName name) (hv : Writes v node) (rest : Text) :
    statement? (name ++ " = ".toList ++ (v ++ '\n' :: rest)) =
      some (.assignment ⟨⟨[], name⟩, node⟩, '\n' :: rest) := by
  obtain ⟨c, cs, rfl⟩ := List.exists_cons_of_ne_nil h.1
  have hbracket : c ≠ '[' := isBare_ne (h.2 c List.mem_cons_self) (by decide)
  have hname := name?_bare h (v ++ '\n' :: rest)
  have hkey : key? ((c :: cs) ++ " = ".toList ++ (v ++ '\n' :: rest)) =
      some (⟨[], c :: cs⟩, '=' :: ' ' :: (v ++ '\n' :: rest)) := by
    rw [key?, names?, hname]
    rfl
  unfold statement?
  split
  · next heq => exact absurd (List.cons.inj heq).1 hbracket
  · next heq => exact absurd (List.cons.inj heq).1 hbracket
  · rw [hkey]
    have hgap : skipBlanks (' ' :: (v ++ '\n' :: rest)) = v ++ '\n' :: rest := hv.blank rest
    simp only [Option.bind_eq_bind, Option.bind_some, mark?, Text.after?, if_true, hgap, hv.read]
    rfl

/-- The line that assigns a value. -/
def assignmentLine (l : Text × Text × Node) : Text := l.1 ++ " = ".toList ++ l.2.1 ++ ['\n']

/-- The statement on such a line. -/
def assignmentOf (l : Text × Text × Node) : Assignment := ⟨⟨[], l.1⟩, l.2.2⟩

theorem assignmentLine_append (l : Text × Text × Node) (rest : Text) :
    assignmentLine l ++ rest = l.1 ++ " = ".toList ++ (l.2.1 ++ '\n' :: rest) := by
  simp [assignmentLine]

/-- A line with an assignment is read as one statement. -/
theorem statements?_line {l : Text × Text × Node} (h : IsBareName l.1) (hv : Writes l.2.1 l.2.2)
    (fuel : Nat) (rest : Text) :
    statements? (fuel + 1) (assignmentLine l ++ rest) =
      (statements? fuel rest).map (.assignment (assignmentOf l) :: ·) := by
  have hstatement := statement?_assignment h hv rest
  obtain ⟨c, cs, hcons⟩ := List.exists_cons_of_ne_nil h.1
  have hc : isBare c = true := h.2 c (hcons ▸ List.mem_cons_self)
  obtain ⟨t, ht⟩ : ∃ t, l.1 ++ " = ".toList ++ (l.2.1 ++ '\n' :: rest) = c :: t := by
    rw [hcons]
    exact ⟨_, rfl⟩
  rw [ht] at hstatement
  have hcomment : skipComment (c :: t) = c :: t := by
    unfold skipComment
    split
    · next heq => exact absurd (List.cons.inj heq).1 (isBare_ne hc (by decide))
    · rfl
  have hbreak : afterBreak? (c :: t) = none := by
    unfold afterBreak?
    split
    · next heq => exact absurd (List.cons.inj heq).1 (isBare_ne hc (by decide))
    · next heq => exact absurd (List.cons.inj heq).1 (isBare_ne hc (by decide))
    · rfl
  have hblank : skipBlanks (c :: t) = c :: t := skipBlanks_cons (isBare_not_blank hc) t
  have hline : lineEnd? (c :: t) = none := by
    simp only [lineEnd?, hblank, hcomment, hbreak]
  have hend : lineEnd? ('\n' :: rest) = some rest := rfl
  rw [assignmentLine_append, ht, statements?, hblank]
  simp only [hline, hstatement, Option.bind_eq_bind, Option.bind_some, hend]
  cases statements? fuel rest <;> rfl

/-- Lines with assignments are read as their statements. -/
theorem statements?_lines {ls : List (Text × Text × Node)}
    (h : ∀ l ∈ ls, IsBareName l.1 ∧ Writes l.2.1 l.2.2) {fuel : Nat} (hfuel : ls.length < fuel) :
    statements? fuel (ls.flatMap assignmentLine) =
      some (ls.map fun l => .assignment (assignmentOf l)) := by
  induction ls generalizing fuel with
  | nil =>
    obtain ⟨fuel, rfl⟩ := Nat.exists_eq_succ_of_ne_zero (Nat.ne_of_gt hfuel)
    rfl
  | cons l ls ih =>
    obtain ⟨fuel, rfl⟩ := Nat.exists_eq_succ_of_ne_zero (Nat.ne_of_gt (Nat.zero_lt_of_lt hfuel))
    obtain ⟨hname, hv⟩ := h l List.mem_cons_self
    rw [List.flatMap_cons, statements?_line hname hv,
      ih (fun m hm => h m (List.mem_cons_of_mem l hm)) (Nat.lt_of_succ_lt_succ hfuel)]
    rfl

theorem sections_assignments (as : List Assignment) :
    sections (as.map .assignment) = (as, []) := by
  induction as with
  | nil => rfl
  | cons a as ih => rw [List.map_cons, sections, ih]

/-- Values under different names are all assigned, in their order. -/
theorem assignAll?_lines {ls : List (Text × Text × Node)} (es : Entries)
    (hnodup : (es.map Prod.fst ++ ls.map Prod.fst).Nodup) :
    Entries.assignAll? es (ls.map assignmentOf) =
      some (es ++ ls.map fun l => (l.1, .value l.2.2)) := by
  induction ls generalizing es with
  | nil => simp [Entries.assignAll?]
  | cons l ls ih =>
    have hfresh : es.lookup l.1 = none := by
      rw [List.lookup_eq_none_iff]
      intro e he
      have hne := (List.nodup_append.1 hnodup).2.2 e.1 (List.mem_map_of_mem he) l.1
        List.mem_cons_self
      simpa using hne.symm
    have hassign : es.assign? (assignmentOf l) = some (es ++ [(l.1, .value l.2.2)]) := by
      simp [Entries.assign?, Entries.descend?, assignmentOf, hfresh, Entries.add]
    have hnext := ih (es ++ [(l.1, .value l.2.2)]) (by simpa using hnodup)
    rw [Entries.assignAll?] at hnext ⊢
    rw [List.map_cons, List.foldlM_cons, hassign]
    simpa using hnext

theorem entryNodes_values (ls : List (Text × Text × Node)) :
    entryNodes (ls.map fun l => (l.1, Item.value l.2.2)) =
      ls.map fun l => (.atom l.1 (.text l.1), l.2.2) := by
  induction ls with
  | nil => rfl
  | cons l ls ih =>
    rw [List.map_cons, entryNodes, ih]
    rfl

theorem length_le_lines (ls : List (Text × Text × Node)) :
    ls.length ≤ (ls.flatMap assignmentLine).length := by
  induction ls with
  | nil => simp
  | cons l ls ih =>
    rw [List.flatMap_cons, List.length_append, List.length_cons, assignmentLine, List.length_append,
      List.length_singleton]
    omega

/-- Lines that start with names have no mark in front. -/
theorem mark?_lines {ls : List (Text × Text × Node)} (h : ∀ l ∈ ls, IsBareName l.1) :
    mark? '\ufeff' (ls.flatMap assignmentLine) = none := by
  cases ls with
  | nil => rfl
  | cons l ls =>
    obtain ⟨hne, hbare⟩ := h l List.mem_cons_self
    obtain ⟨c, cs, hcons⟩ := List.exists_cons_of_ne_nil hne
    have hc : '\ufeff' ≠ c := (isBare_ne (hbare c (hcons ▸ List.mem_cons_self)) (by decide)).symm
    rw [List.flatMap_cons, assignmentLine_append, hcons]
    simp [mark?, Text.after?, hc]

/-- A text that assigns values under different names is read as a document that has them. -/
theorem document_lines {ls : List (Text × Text × Node)}
    (h : ∀ l ∈ ls, IsBareName l.1 ∧ Writes l.2.1 l.2.2) (hnodup : (ls.map Prod.fst).Nodup) :
    document (ls.flatMap assignmentLine) =
      { root := .mapping (ls.map fun l => (.atom l.1 (.text l.1), l.2.2)), complete := true } := by
  have hlength := length_le_lines ls
  have hstatements := statements?_lines h
    (show ls.length < (ls.flatMap assignmentLine).length + 2 by omega)
  have hmap : ls.map (fun l => Statement.assignment (assignmentOf l)) =
      (ls.map assignmentOf).map .assignment := by rw [List.map_map]; rfl
  have hassign := assignAll?_lines [] (by simpa using hnodup)
  have hroot : root? (ls.flatMap assignmentLine) =
      some (.mapping (ls.map fun l => (.atom l.1 (.text l.1), l.2.2))) := by
    rw [root?, mark?_lines fun l hl => (h l hl).1, Option.getD_none, hstatements, hmap]
    simp only [Option.bind_eq_bind, Option.bind_some, entriesOf?, sections_assignments, hassign,
      List.nil_append, List.foldlM_nil, Option.pure_def, Entries.node, entryNodes_values]
  rw [document, hroot]
  rfl

end Statements

end RouteModule.Toml
