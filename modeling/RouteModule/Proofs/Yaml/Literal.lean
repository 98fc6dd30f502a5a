import RouteModule.Proofs.Yaml.Cursor

/-!
Literal blocks are read back. A text is breaks, a core of lines that neither starts nor ends with a
break, and breaks again; the header of the block says what the reader cannot see of the breaks in
front and what becomes of those at the end, and in between every line is indented by two.
-/

namespace RouteModule.Yaml

variable {total fuel : Nat} {c : Cursor} {t u rest : Text}

section Body

theorem literalBody_line {line : Text} (hline : ∀ d ∈ line, isBreak d = false) (u : Text) :
    literalBody false (line ++ u) = line ++ literalBody false u := by
  induction line with
  | nil => rfl
  | cons d line ih =>
    rw [List.cons_append, literalBody, hline d List.mem_cons_self,
      ih fun e he => hline e (List.mem_cons_of_mem d he)]
    rfl

theorem literalBody_breaks {breaks : Text} (hbreaks : ∀ d ∈ breaks, isBreak d = true) (u : Text) :
    literalBody true (breaks ++ u) = breaks ++ literalBody true u := by
  induction breaks with
  | nil => rfl
  | cons d breaks ih =>
    rw [List.cons_append, literalBody, hbreaks d List.mem_cons_self, if_pos rfl,
      ih fun e he => hbreaks e (List.mem_cons_of_mem d he)]
    rfl

theorem literalBody_ends {ends : Text} (hends : ∀ d ∈ ends, isBreak d = true) (start : Bool) :
    literalBody start ends = ends := by
  induction ends generalizing start with
  | nil => rfl
  | cons d ends ih =>
    rw [literalBody, if_pos (hends d List.mem_cons_self),
      ih fun e he => hends e (List.mem_cons_of_mem d he)]

/-- Breaks at the end stay there. -/
theorem literalBody_append {ends : Text} (hends : ∀ d ∈ ends, isBreak d = true) (start : Bool)
    (t : Text) : literalBody start (t ++ ends) = literalBody start t ++ ends := by
  induction t generalizing start with
  | nil => exact literalBody_ends hends start
  | cons d t ih =>
    rw [List.cons_append, literalBody, literalBody, ih, ih]
    split <;> simp

/-- A line that is not empty is indented. -/
theorem literalBody_start (hne : t ≠ []) (ht : ∀ d ∈ t.head?, isBreak d = false) :
    literalBody true t = indentation ++ literalBody false t := by
  obtain ⟨d, t, rfl⟩ := List.exists_cons_of_ne_nil hne
  simp [literalBody, ht d rfl]

theorem length_le_literalBody (start : Bool) (t : Text) :
    t.length ≤ (literalBody start t).length := by
  induction t generalizing start with
  | nil => exact Nat.zero_le _
  | cons c t ih =>
    rw [literalBody]
    split
    · exact Nat.succ_le_succ (ih true)
    · have hrest := ih false
      rw [List.length_append, List.length_cons, List.length_cons]
      omega

end Body

section EmptyLines

/-- A text that is no empty line, wherever the indentation ends. -/
def StartsLine (t : Text) : Prop := ∀ d ∈ t.head?, isBreak d = false ∧ d ≠ '\t'

theorem emptyLines?_line {indent : Nat} (h : (skipSpaces indent c).At total t) (ht : StartsLine t)
    (fuel : Nat) :
    emptyLines? indent (fuel + 1) c =
      some ([], (skipSpaces indent c).column, skipSpaces indent c) := by
  rw [emptyLines?, h.rest_eq]
  cases t with
  | nil => simp
  | cons d t =>
    obtain ⟨hbreak, htab⟩ := ht d rfl
    simp [atBreak, hbreak, htab]

theorem skipSpaces_none (indent : Nat) (h : c.At total t) (ht : ∀ d ∈ t.head?, isSpace d = false) :
    skipSpaces indent c = c := by
  have hspaces : t.takeWhile (· == ' ') = [] := by
    cases t with
    | nil => rfl
    | cons d t => exact List.takeWhile_cons_of_neg (by simpa [isSpace] using ht d rfl)
  simp [skipSpaces, h.rest_eq, hspaces, Cursor.skip_zero]

/-- Empty lines are read up to a line that is not empty; `place` says where its indentation ends. -/
theorem emptyLines?_breaks {indent column : Nat} {breaks : Text}
    (hbreaks : ∀ b ∈ breaks, isBreak b = true ∧ isPrintable b = true)
    (place : ∀ c, c.At total u → c.column = 0 →
      (skipSpaces indent c).At total t ∧ (skipSpaces indent c).column = column)
    (ht : StartsLine t) (h : c.At total (breaks ++ u)) (hcolumn : c.column = 0)
    (hfuel : breaks.length < fuel) :
    ∃ c', emptyLines? indent fuel c = some (breaks, column, c') ∧ c'.At total t ∧
      c'.column = column := by
  induction breaks generalizing fuel c with
  | nil =>
    obtain ⟨fuel, rfl⟩ := Nat.exists_eq_succ_of_ne_zero (Nat.ne_of_gt hfuel)
    obtain ⟨hat, hcol⟩ := place c h hcolumn
    exact ⟨_, by rw [emptyLines?_line hat ht, hcol], hat, hcol⟩
  | cons b breaks ih =>
    obtain ⟨fuel, rfl⟩ := Nat.exists_eq_succ_of_ne_zero (Nat.ne_of_gt (Nat.zero_lt_of_lt hfuel))
    obtain ⟨hbreak, hprint⟩ := hbreaks b List.mem_cons_self
    obtain ⟨c₁, hline, hat₁, hcolumn₁⟩ := Cursor.At.lineBreak h hbreak hprint
    obtain ⟨c', hread, hat, hcol⟩ := ih (fun e he => hbreaks e (List.mem_cons_of_mem b he)) hat₁
      hcolumn₁ (Nat.lt_of_succ_lt_succ hfuel)
    refine ⟨c', ?_, hat, hcol⟩
    have hhere : skipSpaces indent c = c := by
      refine skipSpaces_none indent h fun d hd => ?_
      obtain rfl : b = d := Option.some.inj hd
      rcases eq_of_isBreak hbreak hprint with rfl | rfl | rfl <;> rfl
    have htab : ¬ b = '\t' := by
      rintro rfl
      exact absurd hbreak (by decide)
    rw [emptyLines?, hhere, h.rest_eq]
    simp [atBreak, hbreak, htab, hline, hread, hcolumn]

/-- The place behind the indentation of a line, and the start of a line that has none. -/
theorem skipSpaces_indentation (h : c.At total (indentation ++ t)) (hcolumn : c.column = 0) :
    (skipSpaces 2 c).At total t ∧ (skipSpaces 2 c).column = 2 := by
  have hspaces : 2 ≤ ((indentation ++ t).takeWhile (· == ' ')).length := by
    simp [indentation]
  have hskip : skipSpaces 2 c = c.skip indentation.length := by
    have hmin : min ((indentation ++ t).takeWhile (· == ' ')).length (2 - 0) = 2 := by omega
    simp only [skipSpaces, h.rest_eq, hcolumn, hmin]
    rfl
  rw [hskip]
  refine ⟨h.skip, ?_⟩
  simp [Cursor.skip, hcolumn, indentation]

/-- Where the indentation has to be seen, it ends with the spaces. -/
theorem skipSpaces_seen (h : c.At total (indentation ++ t)) (ht : ∀ d ∈ t.head?, isSpace d = false)
    (hcolumn : c.column = 0) : (skipSpaces 0 c).At total t ∧ (skipSpaces 0 c).column = 2 := by
  have hspaces : (indentation ++ t).takeWhile (· == ' ') = indentation := by
    rw [List.takeWhile_append_of_pos (List.all_eq_true.1 rfl)]
    cases t with
    | nil => rfl
    | cons d t =>
      rw [List.takeWhile_cons_of_neg (by simpa [isSpace] using ht d rfl), List.append_nil]
  have hskip : skipSpaces 0 c = c.skip indentation.length := by
    simp only [skipSpaces, h.rest_eq, hspaces]
    rfl
  rw [hskip]
  refine ⟨h.skip, ?_⟩
  simp [Cursor.skip, hcolumn, indentation]

end EmptyLines

section Lines

/-- A core of lines: it is not empty, and neither starts nor ends with a break. -/
structure IsCore (t : Text) : Prop where
  ne_nil : t ≠ []
  first : ∀ d ∈ t.head?, isBreak d = false
  last : ∀ d ∈ t.getLast?, isBreak d = false
  printable : ∀ d ∈ t, isPrintable d = true

namespace IsCore

variable {core : Text}

theorem startsLine (h : IsCore core) (u : Text) : StartsLine (literalBody false core ++ u) := by
  obtain ⟨d, core, rfl⟩ := List.exists_cons_of_ne_nil h.ne_nil
  have hbreak : isBreak d = false := h.first d rfl
  intro e he
  obtain rfl : d = e := by simpa [literalBody, hbreak] using he
  refine ⟨hbreak, ?_⟩
  rintro rfl
  exact absurd (h.printable '\t' List.mem_cons_self) (by decide)

/-- A core is a line, or a line, breaks, and another core. -/
theorem exists_line (h : IsCore core) :
    ∃ line u, core = line ++ u ∧ line ≠ [] ∧ (∀ d ∈ line, isBreak d = false) ∧
      (u = [] ∨ ∃ b breaks v, u = b :: breaks ++ v ∧ (∀ d ∈ b :: breaks, isBreak d = true) ∧
        IsCore v) := by
  obtain ⟨d, line, u, rfl, hline, hu⟩ := exists_first_run (p := fun d => !isBreak d) h.ne_nil
    fun d hd => by simpa using h.first d hd
  refine ⟨d :: line, u, rfl, List.cons_ne_nil d line, fun e he => by simpa using hline e he, ?_⟩
  by_cases hlast : u = []
  case pos => exact .inl hlast
  case neg =>
    obtain ⟨b, breaks, v, rfl, hbreaks, hv⟩ :=
      exists_first_run (p := isBreak) hlast fun e he => by simpa using hu e he
    have hne : v ≠ [] := by
      rintro rfl
      have hbreak := h.last ((b :: breaks).getLast (List.cons_ne_nil b breaks)) (by
        rw [List.append_nil, List.getLast?_append, List.getLast?_eq_some_getLast (by simp)]
        rfl)
      rw [hbreaks _ (List.getLast_mem _)] at hbreak
      cases hbreak
    refine .inr ⟨b, breaks, v, rfl, hbreaks, hne, hv, fun e he => h.last e ?_, fun e he =>
      h.printable e (by simp [he])⟩
    rw [Option.mem_def] at he ⊢
    rw [List.getLast?_append, List.getLast?_append, he]
    rfl

end IsCore

/-- One line of a block is read, and the empty lines behind it. -/
theorem blockLines?_line {line : Text} {b : Char} (fuel : Nat) (lead more : Text) (blank : Bool)
    (hline : ∀ d ∈ line, isBreak d = false) (hb : isBreak b = true ∧ isPrintable b = true)
    (h : c.At total (line ++ b :: u)) (hcolumn : c.column = 2) :
    ∃ c₁ blank', c₁.At total u ∧ c₁.column = 0 ∧
      blockLines? true 2 (fuel + 1) lead more blank c = do
        let (empty, _, c₂) ← emptyLines? 2 (c₁.rest.length + 1) c₁
        let (t, last, ends, c₃) ← blockLines? true 2 fuel [b] empty blank' c₂
        return (lead ++ more ++ line ++ t, last, ends, c₃) := by
  have htake : c.takeWhile (!isBreak ·) = (line, c.skip line.length) :=
    h.takeWhile (fun d hd => by simp [hline d hd]) fun d hd => by
      obtain rfl : b = d := Option.some.inj hd
      simp [hb.1]
  obtain ⟨c₁, hbreak, hat, hzero⟩ := h.skip.lineBreak hb.1 hb.2
  refine ⟨c₁, c.rest.head?.any isBlank, hat, hzero, ?_⟩
  have hinside : c.column = 2 ∧ c.rest ≠ [] := ⟨hcolumn, by rw [h.rest_eq]; simp⟩
  rw [blockLines?, if_pos hinside]
  simp only [Bool.not_true, Bool.false_and, Bool.false_eq_true, if_false, htake, hbreak]

/-- Where a line is not indented the block ends. -/
theorem blockLines?_end (fuel : Nat) (lead more : Text) (blank : Bool) (hcolumn : c.column = 0) :
    blockLines? true 2 (fuel + 1) lead more blank c = some ([], lead, more, c) := by
  rw [blockLines?, if_neg (by simp [hcolumn])]

/-- Empty lines are read up to a line of a core. -/
theorem emptyLines?_core {breaks core : Text}
    (hbreaks : ∀ d ∈ breaks, isBreak d = true ∧ isPrintable d = true) (hcore : IsCore core)
    (h : c.At total (breaks ++ (indentation ++ (literalBody false core ++ u))))
    (hcolumn : c.column = 0) (hfuel : breaks.length < fuel) :
    ∃ c', emptyLines? 2 fuel c = some (breaks, 2, c') ∧ c'.At total (literalBody false core ++ u) ∧
      c'.column = 2 :=
  emptyLines?_breaks hbreaks (fun _ => skipSpaces_indentation) (hcore.startsLine u) h hcolumn hfuel

/-- Empty lines are read up to a text that is not indented. -/
theorem emptyLines?_outside {breaks : Text}
    (hbreaks : ∀ d ∈ breaks, isBreak d = true ∧ isPrintable d = true) (hrest : StartsSolid rest)
    (h : c.At total (breaks ++ rest)) (hcolumn : c.column = 0) (hfuel : breaks.length < fuel) :
    ∃ c', emptyLines? 2 fuel c = some (breaks, 0, c') ∧ c'.At total rest ∧ c'.column = 0 := by
  refine emptyLines?_breaks hbreaks (fun c hat hzero => ?_) (fun d hd => ?_) h hcolumn hfuel
  · have hhere : skipSpaces 2 c = c := skipSpaces_none 2 hat fun d hd => by
      have hblank := (hrest d hd).1
      simp only [isBlank, Bool.or_eq_false_iff] at hblank
      exact hblank.1
    rw [hhere]
    exact ⟨hat, hzero⟩
  · refine ⟨(hrest d hd).2, ?_⟩
    rintro rfl
    exact absurd (hrest '\t' hd).1 (by decide)

/-- The lines of a core and the breaks behind it are read. -/
theorem blockLines?_core {core ends : Text} {e : Char} (lead more : Text) (blank : Bool)
    (hcore : IsCore core) (hends : ∀ d ∈ e :: ends, isBreak d = true ∧ isPrintable d = true)
    (hrest : StartsSolid rest) (h : c.At total (literalBody false core ++ (e :: ends ++ rest)))
    (hcolumn : c.column = 2) (hfuel : core.length < fuel) :
    ∃ c', blockLines? true 2 fuel lead more blank c = some (lead ++ more ++ core, [e], ends, c') ∧
      c'.At total rest ∧ c'.column = 0 := by
  induction fuel generalizing core lead more blank c with
  | zero => exact absurd hfuel (Nat.not_lt_zero _)
  | succ fuel ih =>
    obtain ⟨line, u, rfl, hne, hline, rfl | ⟨b, breaks, v, rfl, hbreaks, hv⟩⟩ := hcore.exists_line
    · rw [List.append_nil] at h ⊢
      have hbody : literalBody false line = line := by
        simpa [literalBody] using literalBody_line hline []
      rw [hbody, List.cons_append] at h
      obtain ⟨c₁, blank', hat₁, hzero₁, hstep⟩ :=
        blockLines?_line fuel lead more blank hline (hends e List.mem_cons_self) h hcolumn
      obtain ⟨c₂, hempty, hat₂, hzero₂⟩ := emptyLines?_outside
        (fun d hd => hends d (List.mem_cons_of_mem e hd)) hrest hat₁ hzero₁
        (show ends.length < c₁.rest.length + 1 by rw [hat₁.rest_eq, List.length_append]; omega)
      have hpos := List.length_pos_iff.2 hne
      obtain ⟨fuel, rfl⟩ := Nat.exists_eq_succ_of_ne_zero (show fuel ≠ 0 by
        rw [List.append_nil] at hfuel
        omega)
      refine ⟨c₂, ?_, hat₂, hzero₂⟩
      rw [hstep, hempty]
      simp only [Option.bind_eq_bind, Option.bind_some, blockLines?_end fuel [e] ends blank' hzero₂]
      rw [List.append_nil]
      rfl
    · have hbody : literalBody false (line ++ (b :: breaks ++ v)) =
          line ++ b :: (breaks ++ (indentation ++ literalBody false v)) := by
        rw [literalBody_line hline, List.cons_append, literalBody,
          if_pos (hbreaks b List.mem_cons_self),
          literalBody_breaks (fun d hd => hbreaks d (List.mem_cons_of_mem b hd)),
          literalBody_start hv.ne_nil hv.first]
      have hkept : ∀ d ∈ b :: breaks, isBreak d = true ∧ isPrintable d = true := fun d hd =>
        ⟨hbreaks d hd, hcore.printable d
          (List.mem_append_right line (List.mem_append_left v hd))⟩
      rw [hbody, List.append_assoc, List.cons_append] at h
      obtain ⟨c₁, blank', hat₁, hzero₁, hstep⟩ :=
        blockLines?_line fuel lead more blank hline (hkept b List.mem_cons_self) h hcolumn
      rw [List.append_assoc, List.append_assoc] at hat₁
      obtain ⟨c₂, hempty, hat₂, hcolumn₂⟩ := emptyLines?_core
        (fun d hd => hkept d (List.mem_cons_of_mem b hd)) hv hat₁ hzero₁
        (show breaks.length < c₁.rest.length + 1 by rw [hat₁.rest_eq, List.length_append]; omega)
      have hpos := List.length_pos_iff.2 hne
      obtain ⟨c₃, hmore, hat₃, hzero₃⟩ := ih [b] breaks blank' hv hat₂ hcolumn₂ (by
        simp only [List.length_append] at hfuel
        omega)
      refine ⟨c₃, ?_, hat₃, hzero₃⟩
      rw [hstep, hempty]
      simp only [Option.bind_eq_bind, Option.bind_some, hmore, List.append_assoc, List.cons_append]
      rfl

end Lines

section Header

/-- The sign of what becomes of the breaks at the end. -/
def Chomp.sign : Chomp → Text
  | .strip => ['-']
  | .clip => []
  | .keep => ['+']

/-- What becomes of the break behind the last line and of those behind it. -/
def Chomp.kept : Chomp → Text → Text → Text
  | .strip, _, _ => []
  | .clip, lead, _ => lead
  | .keep, lead, more => lead ++ more

/-- What has to become of the breaks at the end of a text. -/
def chompOf (t : Text) : Chomp :=
  match t.reverse with
  | [_] => if t.all isBreak then .keep else .strip
  | c :: d :: _ => if isBreak c then if isBreak d then .keep else .clip else .strip
  | [] => .strip

/-- The indentation cannot be seen from the first line of a text. -/
def isHinted (t : Text) : Bool := t.head?.any fun c => isSpace c || isBreak c

theorem literalHeader_eq (t : Text) :
    literalHeader t = '|' :: ((if isHinted t then ['2'] else []) ++ (chompOf t).sign) := by
  have hsign : (chompOf t).sign = match t.reverse with
      | [_] => if t.all isBreak then ['+'] else ['-']
      | c :: d :: _ => if isBreak c then if isBreak d then ['+'] else [] else ['-']
      | [] => ['-'] := by
    unfold chompOf
    split
    · split <;> rfl
    · split
      · split <;> rfl
      · rfl
    · rfl
  rw [hsign]
  rfl

theorem increment?_digit (h : c.At total ('2' :: u)) : increment? c = some (2, c.next) := by
  rw [increment?, h.rest_eq]
  rfl

theorem increment?_none {d : Char} (h : c.At total (d :: u)) (hd : Text.isDigit d = false) :
    increment? c = some (0, c) := by
  simp [increment?, h.rest_eq, hd]

/-- The header of a block is read. -/
theorem blockHead?_sign (hinted : Bool) (chomp : Chomp)
    (h : c.At total ((if hinted then ['2'] else []) ++ chomp.sign ++ '\n' :: u)) :
    ∃ c', blockHead? c = some (chomp, if hinted then 2 else 0, c') ∧ c'.At total ('\n' :: u) := by
  cases hinted with
  | true =>
    cases chomp with
    | strip =>
      have hat : c.next.At total ('-' :: '\n' :: u) := h.next
      refine ⟨c.next.next, ?_, hat.next⟩
      simp [blockHead?, h.rest_eq, chomp?, increment?_digit h, hat.rest_eq]
    | clip =>
      have hat : c.next.At total ('\n' :: u) := h.next
      refine ⟨c.next, ?_, hat⟩
      simp [blockHead?, h.rest_eq, chomp?, increment?_digit h, hat.rest_eq]
    | keep =>
      have hat : c.next.At total ('+' :: '\n' :: u) := h.next
      refine ⟨c.next.next, ?_, hat.next⟩
      simp [blockHead?, h.rest_eq, chomp?, increment?_digit h, hat.rest_eq]
  | false =>
    cases chomp with
    | strip =>
      have hat : c.next.At total ('\n' :: u) := h.next
      refine ⟨c.next, ?_, hat⟩
      simp [blockHead?, h.rest_eq, chomp?, increment?_none hat (by decide), Chomp.sign]
    | clip =>
      refine ⟨c, ?_, h⟩
      simp [blockHead?, h.rest_eq, chomp?, increment?_none h (by decide), Chomp.sign]
    | keep =>
      have hat : c.next.At total ('\n' :: u) := h.next
      refine ⟨c.next, ?_, hat⟩
      simp [blockHead?, h.rest_eq, chomp?, increment?_none hat (by decide), Chomp.sign]

/-- Behind its header a block is read by its lines. -/
theorem block?_head (t : Text) (h : c.At total (literalHeader t ++ '\n' :: u)) :
    ∃ c₁, c₁.At total u ∧ c₁.column = 0 ∧ block? true 0 c = do
      let (empty, widest, c₂) ← emptyLines? (if isHinted t then 2 else 0) (c₁.rest.length + 1) c₁
      let (text, lead, more, c₃) ← blockLines? true
        (if isHinted t then 2 else max (max widest 1) 1) (c₂.rest.length + 1) [] empty false c₂
      return (text ++ (chompOf t).kept lead more, c₃) := by
  rw [literalHeader_eq] at h
  obtain ⟨c₁, hhead, hat⟩ := blockHead?_sign (isHinted t) (chompOf t) h.next
  obtain ⟨c₂, hbreak, hat₂, hzero⟩ := hat.lineBreak (by decide) (by decide)
  refine ⟨c₂, hat₂, hzero, ?_⟩
  have hblanks : c₁.skipBlanks = c₁ := by
    rw [Cursor.skipBlanks, hat.takeWhile_none (p := isBlank) fun d hd => by
      obtain rfl : '\n' = d := Option.some.inj hd
      rfl]
  have hcomment : c₁.skipComment = c₁ := by
    rw [Cursor.skipComment, hat.rest_eq]
    rfl
  have hend : atBreak c₁.rest = true := by rw [hat.rest_eq]; rfl
  rw [block?, hhead]
  cases hhint : isHinted t with
  | true =>
    simp only [if_true, Option.bind_eq_bind, Option.bind_some, hblanks, hcomment, hend, hbreak]
    cases chompOf t with
    | strip => rfl
    | clip => rfl
    | keep => rfl
  | false =>
    simp only [Option.bind_eq_bind, Option.bind_some, hblanks, hcomment, hend, hbreak]
    cases chompOf t with
    | strip => rfl
    | clip => rfl
    | keep => rfl

end Header

section Written

variable {front core ends : Text}

/-- A text is breaks, or a core between breaks. -/
theorem exists_core (hprint : ∀ d ∈ t, isPrintable d = true) :
    (∀ d ∈ t, isBreak d = true) ∨ ∃ front core ends, t = front ++ core ++ ends ∧
      (∀ d ∈ front, isBreak d = true) ∧ IsCore core ∧ ∀ d ∈ ends, isBreak d = true := by
  obtain ⟨front, u, rfl, hfront, hu⟩ := exists_run isBreak t
  by_cases hne : u = []
  case pos =>
    subst hne
    exact .inl fun d hd => hfront d (by simpa using hd)
  case neg =>
    obtain ⟨back, v, hsplit, hback, hv⟩ := exists_run isBreak u.reverse
    obtain rfl : u = v.reverse ++ back.reverse := by
      rw [← List.reverse_append, ← hsplit, List.reverse_reverse]
    refine .inr ⟨front, v.reverse, back.reverse, (List.append_assoc _ _ _).symm, hfront,
      ⟨?_, ?_, ?_, ?_⟩, fun d hd => hback d (List.mem_reverse.1 hd)⟩
    · intro hnil
      rw [hnil, List.nil_append] at hu hne
      obtain ⟨d, w, hw⟩ := List.exists_cons_of_ne_nil hne
      have hbreak := hback d (List.mem_reverse.1 (hw ▸ List.mem_cons_self))
      rw [hu d (by rw [hw]; rfl)] at hbreak
      cases hbreak
    · intro d hd
      refine hu d ?_
      rw [Option.mem_def] at hd ⊢
      rw [List.head?_append, hd]
      rfl
    · intro d hd
      rw [List.getLast?_reverse] at hd
      exact hv d hd
    · exact fun d hd => hprint d (by simp [List.mem_reverse.1 hd])

theorem chompOf_line {d : Char} {before : Text} (h : t.reverse = d :: before)
    (hd : isBreak d = false) : chompOf t = .strip := by
  have hmem : d ∈ t := List.mem_reverse.1 (h ▸ List.mem_cons_self)
  rw [chompOf, h]
  cases before with
  | nil =>
    have hall : t.all isBreak = false := List.all_eq_false.2 ⟨d, hmem, by simp [hd]⟩
    simp [hall]
  | cons e before => simp [hd]

theorem chompOf_break {d e : Char} {before : Text} (h : t.reverse = e :: d :: before)
    (he : isBreak e = true) : chompOf t = if isBreak d then .keep else .clip := by
  rw [chompOf, h]
  simp [he]

/-- Of breaks alone all are kept. -/
theorem chompOf_breaks (hne : t ≠ []) (h : ∀ d ∈ t, isBreak d = true) : chompOf t = .keep := by
  obtain ⟨e, before, hreverse⟩ := List.exists_cons_of_ne_nil (List.reverse_ne_nil_iff.2 hne)
  have hmem : ∀ d ∈ e :: before, isBreak d = true := fun d hd =>
    h d (List.mem_reverse.1 (hreverse ▸ hd))
  cases before with
  | nil =>
    rw [chompOf, hreverse]
    simp [List.all_eq_true.2 h]
  | cons d before =>
    rw [chompOf_break hreverse (hmem e List.mem_cons_self),
      if_pos (hmem d (List.mem_cons_of_mem e List.mem_cons_self))]

/-- What stands behind the core: the breaks at the end, or else the break that ends its line. Of
them are kept those at the end. -/
theorem exists_ends (front : Text) (hcore : IsCore core)
    (hends : ∀ d ∈ ends, isBreak d = true ∧ isPrintable d = true) :
    ∃ e more, ends ++ (if (front ++ core ++ ends).getLast?.any isBreak then [] else ['\n']) =
        e :: more ∧
      (∀ d ∈ e :: more, isBreak d = true ∧ isPrintable d = true) ∧
      (chompOf (front ++ core ++ ends)).kept [e] more = ends := by
  obtain ⟨before, d, rfl⟩ := (List.eq_nil_or_concat core).resolve_left hcore.ne_nil
  have hd : isBreak d = false := hcore.last d (by simp)
  cases ends with
  | nil =>
    have hreverse : (front ++ before.concat d ++ []).reverse =
        d :: (before.reverse ++ front.reverse) := by
      simp
    refine ⟨'\n', [], ?_, ?_, ?_⟩
    · simp [hd]
    · intro e he
      rw [List.mem_singleton.1 he]
      exact ⟨rfl, rfl⟩
    · rw [chompOf_line hreverse hd]
      rfl
  | cons e more =>
    refine ⟨e, more, ?_, hends, ?_⟩
    · have hlast := (hends _ (List.getLast_mem (List.cons_ne_nil e more))).1
      have hany : (front ++ before.concat d ++ e :: more).getLast?.any isBreak = true := by
        rw [List.getLast?_append, List.getLast?_eq_some_getLast (List.cons_ne_nil e more)]
        exact hlast
      rw [hany, if_pos rfl, List.append_nil]
    · obtain rfl | ⟨more, f, rfl⟩ := List.eq_nil_or_concat more
      · have hreverse : (front ++ before.concat d ++ [e]).reverse =
            e :: d :: (before.reverse ++ front.reverse) := by
          simp
        rw [chompOf_break hreverse (hends e List.mem_cons_self).1, hd]
        rfl
      · obtain ⟨g, x, hg⟩ := List.exists_cons_of_ne_nil
          (List.reverse_ne_nil_iff.2 (List.cons_ne_nil e more))
        have hreverse : (front ++ before.concat d ++ e :: more.concat f).reverse =
            f :: g :: (x ++ (front ++ before.concat d).reverse) := by
          rw [List.reverse_append, List.concat_eq_append, ← List.cons_append, List.reverse_append,
            hg]
          rfl
        have hgmem : g ∈ e :: more := List.mem_reverse.1 (hg ▸ List.mem_cons_self)
        rw [chompOf_break hreverse (hends f (by simp)).1,
          if_pos (hends g (by
            rcases List.mem_cons.1 hgmem with rfl | hg
            · simp
            · simp [hg])).1]
        rfl

/-- The empty lines in front are read, whether or not the indentation behind them is given. -/
theorem emptyLines?_front (hprint : ∀ d ∈ front ++ core ++ ends, isPrintable d = true)
    (hfront : ∀ d ∈ front, isBreak d = true) (hcore : IsCore core)
    (h : c.At total (front ++ (indentation ++ (literalBody false core ++ u))))
    (hcolumn : c.column = 0) :
    ∃ c', emptyLines? (if isHinted (front ++ core ++ ends) then 2 else 0) (c.rest.length + 1) c =
        some (front, 2, c') ∧
      c'.At total (literalBody false core ++ u) ∧ c'.column = 2 := by
  have hfuel : front.length < c.rest.length + 1 := by
    rw [h.rest_eq, List.length_append]
    omega
  cases hhint : isHinted (front ++ core ++ ends) with
  | true =>
    have hkept : ∀ d ∈ front, isBreak d = true ∧ isPrintable d = true := fun d hd =>
      ⟨hfront d hd, hprint d (by simp [hd])⟩
    exact emptyLines?_core hkept hcore h hcolumn hfuel
  | false =>
    obtain ⟨d, core, rfl⟩ := List.exists_cons_of_ne_nil hcore.ne_nil
    cases front with
    | cons f front => simp [isHinted, hfront f List.mem_cons_self] at hhint
    | nil =>
      have hspace : isSpace d = false := by
        simp only [isHinted, List.nil_append, List.cons_append, List.head?_cons, Option.any_some,
          Bool.or_eq_false_iff] at hhint
        exact hhint.1
      have hbreak : isBreak d = false := hcore.first d rfl
      refine emptyLines?_breaks (by simp) (fun c hat => skipSpaces_seen hat ?_)
        (hcore.startsLine u) h hcolumn hfuel
      intro e he
      obtain rfl : d = e := by simpa [literalBody, hbreak] using he
      exact hspace

/-- A text that is written as a literal block is read. -/
theorem block?_literal (hprint : ∀ d ∈ t, isPrintable d = true) (hne : t ≠ [])
    (hrest : StartsSolid rest)
    (h : c.At total (literalHeader t ++ '\n' :: (literalBody true t ++
      (if t.getLast?.any isBreak then [] else ['\n']) ++ rest))) :
    ∃ c', block? true 0 c = some (t, c') ∧ c'.At total rest ∧ c'.column = 0 := by
  obtain ⟨c₁, hat₁, hzero₁, hread⟩ := block?_head t h
  rcases exists_core hprint with hbreaks | ⟨front, core, ends, rfl, hfront, hcore, hends⟩
  · have hkept : ∀ d ∈ t, isBreak d = true ∧ isPrintable d = true := fun d hd =>
      ⟨hbreaks d hd, hprint d hd⟩
    have hhint : isHinted t = true := by
      obtain ⟨d, u, rfl⟩ := List.exists_cons_of_ne_nil hne
      simp [isHinted, hbreaks d List.mem_cons_self]
    have htail : t.getLast?.any isBreak = true := by
      rw [List.getLast?_eq_some_getLast hne]
      exact hbreaks _ (List.getLast_mem hne)
    rw [literalBody_ends hbreaks, htail, if_pos rfl, List.append_nil] at hat₁
    obtain ⟨c₂, hempty, hat₂, hzero₂⟩ := emptyLines?_outside hkept hrest hat₁ hzero₁
      (show t.length < c₁.rest.length + 1 by rw [hat₁.rest_eq, List.length_append]; omega)
    refine ⟨c₂, ?_, hat₂, hzero₂⟩
    rw [hread, hhint, if_pos rfl, hempty]
    simp only [if_true, Option.bind_eq_bind, Option.bind_some, blockLines?_end _ [] t false hzero₂,
      chompOf_breaks hne hbreaks]
    rfl
  · have hkept : ∀ d ∈ ends, isBreak d = true ∧ isPrintable d = true := fun d hd =>
      ⟨hends d hd, hprint d (List.mem_append_right _ hd)⟩
    obtain ⟨e, more, htail, hmore, hchomp⟩ := exists_ends front hcore hkept
    have hbody : literalBody true (front ++ core ++ ends) =
        front ++ (indentation ++ literalBody false core) ++ ends := by
      rw [literalBody_append hends, literalBody_breaks hfront,
        literalBody_start hcore.ne_nil hcore.first]
    rw [hbody, List.append_assoc _ ends, htail, List.append_assoc, List.append_assoc,
      List.append_assoc] at hat₁
    obtain ⟨c₂, hempty, hat₂, hcolumn₂⟩ := emptyLines?_front hprint hfront hcore hat₁ hzero₁
    obtain ⟨c₃, hlines, hat₃, hzero₃⟩ := blockLines?_core [] front false hcore hmore hrest hat₂
      hcolumn₂ (show core.length < c₂.rest.length + 1 by
        have hlength := length_le_literalBody false core
        rw [hat₂.rest_eq, List.length_append]
        omega)
    refine ⟨c₃, ?_, hat₃, hzero₃⟩
    have hindent : (if isHinted (front ++ core ++ ends) then 2 else max (max 2 1) 1) = 2 := by
      split <;> rfl
    rw [hread, hempty]
    simp only [Option.bind_eq_bind, Option.bind_some, hindent, hlines, hchomp, List.nil_append]
    rfl

end Written

end RouteModule.Yaml
