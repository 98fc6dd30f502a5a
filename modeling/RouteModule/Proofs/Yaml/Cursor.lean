import RouteModule.Yaml.Printer
import RouteModule.Yaml.Token.Scalar

/-!
Places in a YAML text. What is in front of a place and what follows it make up the whole text, and
every move keeps that; so a place is known by the size of the text and by what follows. The gaps
between the words of a scalar are moves of this kind.
-/

namespace RouteModule

namespace Text

@[simp] theorem byteLength_nil : byteLength [] = 0 := rfl

theorem byteLength_append (t u : Text) : byteLength (t ++ u) = byteLength t + byteLength u := by
  simp [byteLength, toBytes]

theorem byteLength_cons (c : Char) (t : Text) :
    byteLength (c :: t) = (charBytes c).length + byteLength t := by
  simp [byteLength, toBytes]

theorem byteLength_take_le (n : Nat) (t : Text) : byteLength (t.take n) ≤ byteLength t := by
  have h := byteLength_append (t.take n) (t.drop n)
  rw [List.take_append_drop] at h
  omega

end Text

namespace Yaml

section Characters

variable {c : Char}

/-- Of the line breaks three may be written as they are. -/
theorem eq_of_isBreak (hbreak : isBreak c = true) (hprint : isPrintable c = true) :
    c = '\n' ∨ c = '\u2028' ∨ c = '\u2029' := by
  have hcode : c.toNat = 10 ∨ c.toNat = 0x2028 ∨ c.toNat = 0x2029 := by
    simp only [isBreak, isPrintable, Bool.or_eq_true, Bool.and_eq_true, beq_iff_eq, bne_iff_ne,
      decide_eq_true_eq] at hbreak hprint
    rcases hbreak with (((rfl | rfl) | h) | h) | h
    · exact .inl rfl
    · exact absurd hprint (by decide)
    · omega
    · exact .inr (.inl h)
    · exact .inr (.inr h)
  rcases hcode with h | h | h
  · exact .inl (Char.toNat_inj.1 h)
  · exact .inr (.inl (Char.toNat_inj.1 h))
  · exact .inr (.inr (Char.toNat_inj.1 h))

/-- No tab may be written as it is. -/
theorem isBlank_eq_isSpace (hprint : isPrintable c = true) : isBlank c = isSpace c := by
  have htab : c ≠ '\t' := by
    rintro rfl
    exact absurd hprint (by decide)
  simp [isBlank, isSpace, htab]

theorem isBreak_of_isSpace (h : isSpace c = true) : isBreak c = false := by
  obtain rfl : c = ' ' := by simpa [isSpace] using h
  decide

end Characters

/-- The text does not start with a blank or a break. -/
def StartsSolid (t : Text) : Prop := ∀ d ∈ t.head?, isBlank d = false ∧ isBreak d = false

instance (t : Text) : Decidable (StartsSolid t) :=
  inferInstanceAs (Decidable (∀ d ∈ t.head?, isBlank d = false ∧ isBreak d = false))

/-- The longest run in front whose characters satisfy `p`. -/
theorem exists_run (p : Char → Bool) (t : Text) :
    ∃ run rest, t = run ++ rest ∧ (∀ c ∈ run, p c = true) ∧ ∀ c ∈ rest.head?, p c = false := by
  refine ⟨t.takeWhile p, t.dropWhile p, List.takeWhile_append_dropWhile.symm, ?_, ?_⟩
  · exact fun c hc => List.all_eq_true.1 List.all_takeWhile c hc
  · intro c hc
    rw [Option.mem_def] at hc
    have h := List.head?_dropWhile_not p t
    rw [hc] at h
    simpa using h

/-- A text whose first character satisfies `p` starts with a run of such characters. -/
theorem exists_first_run {p : Char → Bool} {t : Text} (hne : t ≠ [])
    (hfirst : ∀ c ∈ t.head?, p c = true) :
    ∃ c run rest, t = c :: run ++ rest ∧ (∀ d ∈ c :: run, p d = true) ∧
      ∀ d ∈ rest.head?, p d = false := by
  obtain ⟨run, rest, rfl, hrun, hrest⟩ := exists_run p t
  cases run with
  | nil =>
    obtain ⟨c, rest, rfl⟩ := List.exists_cons_of_ne_nil hne
    have hc := hrest c rfl
    rw [hfirst c rfl] at hc
    cases hc
  | cons c run => exact ⟨c, run, rest, rfl, hrun, hrest⟩

namespace Cursor

/-- The place stands before `rest` in a text of `total` bytes. -/
structure At (total : Nat) (rest : Text) (c : Cursor) : Prop where
  rest_eq : c.rest = rest
  index_add : c.index + Text.byteLength rest = total

variable {total : Nat} {rest : Text} {c : Cursor}

theorem skip_zero (c : Cursor) : c.skip 0 = c := by simp [Cursor.skip]

theorem at_start (t : Text) : (start t).At (Text.byteLength t) t := ⟨rfl, Nat.zero_add _⟩

namespace At

theorem skip {run : Text} (h : c.At total (run ++ rest)) : (c.skip run.length).At total rest where
  rest_eq := by simp [Cursor.skip, h.rest_eq]
  index_add := by
    have hindex := h.index_add
    rw [Text.byteLength_append] at hindex
    simp only [Cursor.skip, h.rest_eq, List.take_left']
    omega

theorem next {d : Char} (h : c.At total (d :: rest)) : c.next.At total rest :=
  At.skip (show c.At total ([d] ++ rest) from h)

/-- A break that may be written as it is stands for itself. -/
theorem lineBreak {b : Char} (h : c.At total (b :: rest)) (hbreak : isBreak b = true)
    (hprint : isPrintable b = true) :
    ∃ c', c.lineBreak = ([b], c') ∧ c'.At total rest ∧ c'.column = 0 := by
  refine ⟨⟨rest, c.index + (Text.charBytes b).length, c.line + 1, 0⟩, ?_, ⟨rfl, ?_⟩, rfl⟩
  · rw [Cursor.lineBreak, h.rest_eq]
    rcases eq_of_isBreak hbreak hprint with rfl | rfl | rfl <;> rfl
  · have hindex := h.index_add
    rw [Text.byteLength_cons] at hindex
    rw [Nat.add_assoc]
    exact hindex

/-- Characters that satisfy `p`, in front of one that does not, are taken. -/
theorem takeWhile {p : Char → Bool} {run : Text} (h : c.At total (run ++ rest))
    (hrun : ∀ d ∈ run, p d = true) (hrest : ∀ d ∈ rest.head?, p d = false) :
    c.takeWhile p = (run, c.skip run.length) := by
  have htake : (run ++ rest).takeWhile p = run := by
    rw [List.takeWhile_append_of_pos hrun]
    cases rest with
    | nil => simp
    | cons d rest => simp [hrest d rfl]
  simp only [Cursor.takeWhile, h.rest_eq, htake]

theorem takeWhile_none {p : Char → Bool} (h : c.At total rest)
    (hrest : ∀ d ∈ rest.head?, p d = false) : c.takeWhile p = ([], c) := by
  have htake := At.takeWhile (show c.At total ([] ++ rest) from h) (by simp) hrest
  rw [htake, List.length_nil, skip_zero]

end At

end Cursor

namespace Gap

variable {total fuel : Nat} (ok : Cursor → Bool) (blanks lead more : Text) {c : Cursor}
  {rest : Text}

/-- A gap ends where something else starts. -/
theorem read_solid {g : Gap} (h : c.At total rest) (hrest : StartsSolid rest) :
    read ok fuel g c = some (g, c) := by
  cases fuel with
  | zero => rfl
  | succ fuel =>
    rw [read, h.rest_eq]
    cases rest with
    | nil => rfl
    | cons d rest =>
      obtain ⟨hblank, hbreak⟩ := hrest d rfl
      simp [hblank, hbreak]

section Steps

theorem read_space (fuel : Nat) (h : c.At total (' ' :: rest)) :
    read ok (fuel + 1) ⟨blanks, lead, more, false⟩ c =
      read ok fuel ⟨blanks ++ [' '], lead, more, false⟩ c.next := by
  rw [read, h.rest_eq]
  rfl

theorem read_space_broken (fuel : Nat) (h : c.At total (' ' :: rest)) :
    read ok (fuel + 1) ⟨blanks, lead, more, true⟩ c =
      read ok fuel ⟨blanks, lead, more, true⟩ c.next := by
  rw [read, h.rest_eq]
  rfl

variable {b : Char} (hbreak : isBreak b = true) (hprint : isPrintable b = true)

include hbreak hprint in
theorem isBlank_of_isBreak : isBlank b = false := by
  rcases eq_of_isBreak hbreak hprint with rfl | rfl | rfl <;> rfl

include hbreak hprint in
theorem read_break (fuel : Nat) (h : c.At total (b :: rest)) :
    ∃ c', c'.At total rest ∧ c'.column = 0 ∧
      read ok (fuel + 1) ⟨blanks, lead, more, false⟩ c = read ok fuel ⟨[], [b], [], true⟩ c' := by
  obtain ⟨c', hline, hat, hcolumn⟩ := h.lineBreak hbreak hprint
  refine ⟨c', hat, hcolumn, ?_⟩
  rw [read, h.rest_eq]
  simp only [isBlank_of_isBreak hbreak hprint, hbreak, hline, Bool.false_eq_true, if_false, if_true]

include hbreak hprint in
theorem read_break_broken (fuel : Nat) (h : c.At total (b :: rest)) :
    ∃ c', c'.At total rest ∧ c'.column = 0 ∧
      read ok (fuel + 1) ⟨blanks, lead, more, true⟩ c =
        read ok fuel ⟨blanks, lead, more ++ [b], true⟩ c' := by
  obtain ⟨c', hline, hat, hcolumn⟩ := h.lineBreak hbreak hprint
  refine ⟨c', hat, hcolumn, ?_⟩
  rw [read, h.rest_eq]
  simp only [isBlank_of_isBreak hbreak hprint, hbreak, hline, Bool.false_eq_true, if_false, if_true]

end Steps

variable {breaks spaces : Text} (hbreaks : ∀ b ∈ breaks, isBreak b = true ∧ isPrintable b = true)
  (hspaces : ∀ d ∈ spaces, isSpace d = true) (hrest : StartsSolid rest)

include hspaces hrest in
/-- Spaces of one line are kept. -/
theorem read_spaces (h : c.At total (spaces ++ rest)) (hfuel : spaces.length ≤ fuel) :
    ∃ c', read ok fuel ⟨blanks, lead, more, false⟩ c =
        some (⟨blanks ++ spaces, lead, more, false⟩, c') ∧
      c'.At total rest ∧ c'.column = c.column + spaces.length := by
  induction spaces generalizing fuel blanks c with
  | nil => exact ⟨c, by rw [List.append_nil]; exact read_solid ok h hrest, h, rfl⟩
  | cons d spaces ih =>
    obtain ⟨fuel, rfl⟩ := Nat.exists_eq_succ_of_ne_zero (Nat.ne_of_gt (Nat.zero_lt_of_lt hfuel))
    obtain rfl : d = ' ' := by simpa [isSpace] using hspaces d List.mem_cons_self
    have hnext : c.next.At total (spaces ++ rest) := h.next
    obtain ⟨c', hread, hat, hcolumn⟩ := ih (blanks ++ [' '])
      (fun e he => hspaces e (List.mem_cons_of_mem ' ' he)) hnext (Nat.le_of_succ_le_succ hfuel)
    refine ⟨c', ?_, hat, ?_⟩
    · rw [read_space ok blanks lead more fuel h, hread, List.append_assoc, List.singleton_append]
    · have hstep : c.next.column = c.column + 1 := rfl
      rw [hcolumn, hstep, List.length_cons]
      omega

include hspaces hrest in
/-- Spaces behind a break are dropped. -/
theorem read_indentation (h : c.At total (spaces ++ rest)) (hfuel : spaces.length ≤ fuel) :
    ∃ c', read ok fuel ⟨blanks, lead, more, true⟩ c = some (⟨blanks, lead, more, true⟩, c') ∧
      c'.At total rest ∧ c'.column = c.column + spaces.length := by
  induction spaces generalizing fuel c with
  | nil => exact ⟨c, read_solid ok h hrest, h, rfl⟩
  | cons d spaces ih =>
    obtain ⟨fuel, rfl⟩ := Nat.exists_eq_succ_of_ne_zero (Nat.ne_of_gt (Nat.zero_lt_of_lt hfuel))
    obtain rfl : d = ' ' := by simpa [isSpace] using hspaces d List.mem_cons_self
    have hnext : c.next.At total (spaces ++ rest) := h.next
    obtain ⟨c', hread, hat, hcolumn⟩ :=
      ih (fun e he => hspaces e (List.mem_cons_of_mem ' ' he)) hnext (Nat.le_of_succ_le_succ hfuel)
    refine ⟨c', ?_, hat, ?_⟩
    · rw [read_space_broken ok blanks lead more fuel h, hread]
    · have hstep : c.next.column = c.column + 1 := rfl
      rw [hcolumn, hstep, List.length_cons]
      omega

include hbreaks hspaces hrest in
/-- Breaks behind a break are kept, and the spaces behind them are not. -/
theorem read_lines (h : c.At total (breaks ++ (spaces ++ rest))) (hcolumn : c.column = 0)
    (hfuel : breaks.length + spaces.length ≤ fuel) :
    ∃ c', read ok fuel ⟨blanks, lead, more, true⟩ c =
        some (⟨blanks, lead, more ++ breaks, true⟩, c') ∧
      c'.At total rest ∧ c'.column = spaces.length := by
  induction breaks generalizing fuel more c with
  | nil =>
    obtain ⟨c', hread, hat, hcolumn'⟩ :=
      read_indentation ok blanks lead more hspaces hrest h (by simpa using hfuel)
    exact ⟨c', by rw [List.append_nil]; exact hread, hat, by omega⟩
  | cons b breaks ih =>
    rw [List.length_cons] at hfuel
    obtain ⟨fuel, rfl⟩ := Nat.exists_eq_succ_of_ne_zero (show fuel ≠ 0 by omega)
    obtain ⟨hbreak, hprint⟩ := hbreaks b List.mem_cons_self
    obtain ⟨c₁, hat₁, hcolumn₁, hstep⟩ :=
      read_break_broken ok blanks lead more hbreak hprint fuel h
    obtain ⟨c', hread, hat, hcolumn'⟩ := ih (more ++ [b])
      (fun e he => hbreaks e (List.mem_cons_of_mem b he)) hat₁ hcolumn₁
      (show breaks.length + spaces.length ≤ fuel by omega)
    refine ⟨c', ?_, hat, hcolumn'⟩
    rw [hstep, hread, List.append_assoc, List.singleton_append]

include hspaces hrest in
/-- The gap between lines has their breaks. -/
theorem read_breaks {b : Char}
    (hbreaks : ∀ d ∈ b :: breaks, isBreak d = true ∧ isPrintable d = true)
    (h : c.At total (b :: breaks ++ (spaces ++ rest)))
    (hfuel : breaks.length + spaces.length < fuel) :
    ∃ c', read ok fuel ⟨blanks, lead, more, false⟩ c = some (⟨[], [b], breaks, true⟩, c') ∧
      c'.At total rest ∧ c'.column = spaces.length := by
  obtain ⟨fuel, rfl⟩ := Nat.exists_eq_succ_of_ne_zero (Nat.ne_of_gt (Nat.zero_lt_of_lt hfuel))
  obtain ⟨hbreak, hprint⟩ := hbreaks b List.mem_cons_self
  obtain ⟨c₁, hat₁, hcolumn₁, hstep⟩ :=
    read_break ok blanks lead more hbreak hprint fuel h
  obtain ⟨c', hread, hat, hcolumn⟩ := read_lines ok [] [b] []
    (fun e he => hbreaks e (List.mem_cons_of_mem b he)) hspaces hrest hat₁ hcolumn₁
    (Nat.le_of_lt_succ hfuel)
  exact ⟨c', by rw [hstep, hread, List.nil_append], hat, hcolumn⟩

end Gap

end Yaml

end RouteModule
