import RouteModule.Proofs.Json.Literal
import RouteModule.Proofs.Yaml.Quoted

/-!
What YAML makes of the texts that JSON writes between quotes. The escapes mean the same, but for
halves of characters, which YAML refuses. Line breaks that JSON takes as they are YAML folds together
with the spaces around them.
-/

namespace RouteModule.Yaml

open Json (Body Piece hasHalf)

variable {total fuel : Nat} {c : Cursor} {rest k : Text} {q : Option Text}

section Gaps

theorem isBlank_eq_false_of_isBreak {d : Char} (h : isBreak d = true) : isBlank d = false := by
  rw [isBlank, Bool.or_eq_false_iff, beq_eq_false_iff_ne, beq_eq_false_iff_ne]
  constructor <;> (rintro rfl; exact absurd h (by decide))

/-- What a line break is read as. -/
def lineText (b : Char) : Char := if b.toNat = 0x2028 ∨ b.toNat = 0x2029 then b else '\n'

theorem Cursor.At.lineBreak_of_ne {b : Char} (h : c.At total (b :: rest))
    (hbreak : isBreak b = true) (hreturn : b ≠ '\r') :
    ∃ c', c.lineBreak = ([lineText b], c') ∧ c'.At total rest := by
  refine ⟨⟨rest, c.index + (Text.charBytes b).length, c.line + 1, 0⟩, ?_, rfl, ?_⟩
  · rw [Cursor.lineBreak, h.rest_eq]
    split
    · next heq => exact absurd (List.cons.inj heq).1 hreturn
    · next heq =>
      obtain ⟨rfl, rfl⟩ := List.cons.inj heq
      rw [if_pos hbreak, lineText]
      split <;> rfl
    · next heq => cases heq
  · have hindex := h.index_add
    rw [Text.byteLength_cons] at hindex
    rw [Nat.add_assoc]
    exact hindex

/-- A gap with one more character. -/
def Gap.extend (g : Gap) (d : Char) : Gap :=
  if isBreak d then
    if g.broken then { g with more := g.more ++ [lineText d] } else ⟨[], [lineText d], [], true⟩
  else if g.broken then g else { g with blanks := g.blanks ++ [d] }

/-- What a gap stands for that is written like this. -/
def foldedGap (gap : Text) : Text := (gap.foldl Gap.extend Gap.none).folded

/-- A space, or a line break that may stand between quotes. -/
def IsGapChar (d : Char) : Prop := d = ' ' ∨ isBreak d = true ∧ d ≠ '\r'

theorem Gap.read_extend {d : Char} (g : Gap) (hd : IsGapChar d) (fuel : Nat)
    (h : c.At total (d :: rest)) :
    ∃ c', c'.At total rest ∧ Gap.read (fun _ => true) (fuel + 1) g c =
        Gap.read (fun _ => true) fuel (g.extend d) c' ∧
      (isBreak d = false → c'.line = c.line ∧ c.column < c'.column) := by
  rcases hd with rfl | ⟨hbreak, hreturn⟩
  · refine ⟨c.next, h.next, ?_, fun _ => ⟨rfl, Nat.lt_succ_self _⟩⟩
    rw [Gap.read, h.rest_eq]
    cases hg : g.broken <;> simp [Gap.extend, isBlank, isBreak, hg]
  · obtain ⟨c', hline, hat⟩ := h.lineBreak_of_ne hbreak hreturn
    have hblank : isBlank d = false := isBlank_eq_false_of_isBreak hbreak
    refine ⟨c', hat, ?_, fun hnone => absurd (hbreak.symm.trans hnone) (by decide)⟩
    rw [Gap.read, h.rest_eq]
    simp only [hblank, hbreak, hline, Bool.false_eq_true, if_false, if_true]
    cases hg : g.broken <;> simp [Gap.extend, hbreak, hg]

/-- A gap is read to where something else starts. -/
theorem Gap.read_chars {gap : Text} (g : Gap) (hgap : ∀ d ∈ gap, IsGapChar d)
    (hrest : StartsSolid rest) (h : c.At total (gap ++ rest)) (hfuel : gap.length ≤ fuel) :
    ∃ c', Gap.read (fun _ => true) fuel g c = some (gap.foldl Gap.extend g, c') ∧
      c'.At total rest ∧
      ((∀ d ∈ gap, isBreak d = false) → c'.line = c.line ∧ c.column ≤ c'.column) := by
  induction gap generalizing g c fuel with
  | nil => exact ⟨c, Gap.read_solid _ h hrest, h, fun _ => ⟨rfl, Nat.le_refl _⟩⟩
  | cons d gap ih =>
    obtain ⟨fuel, rfl⟩ := Nat.exists_eq_succ_of_ne_zero (Nat.ne_of_gt (Nat.zero_lt_of_lt hfuel))
    obtain ⟨hd, hgap⟩ := List.forall_mem_cons.1 hgap
    obtain ⟨c₁, hat₁, hstep, hline₁⟩ := Gap.read_extend g hd fuel h
    obtain ⟨c₂, hread, hat₂, hline₂⟩ := ih (g.extend d) hgap hat₁ (Nat.le_of_succ_le_succ hfuel)
    refine ⟨c₂, hstep.trans hread, hat₂, fun hnone => ?_⟩
    obtain ⟨hd, hgap⟩ := List.forall_mem_cons.1 hnone
    have h₁ := hline₁ hd
    have h₂ := hline₂ hgap
    exact ⟨h₂.1.trans h₁.1, by omega⟩

/-- A gap without a line break stands for itself. -/
theorem foldedGap_of_line {gap : Text} (h : ∀ d ∈ gap, isBreak d = false) :
    foldedGap gap = gap := by
  have hfold : ∀ blanks, gap.foldl Gap.extend ⟨blanks, [], [], false⟩ =
      ⟨blanks ++ gap, [], [], false⟩ := by
    induction gap with
    | nil => simp
    | cons d gap ih =>
      obtain ⟨hd, hgap⟩ := List.forall_mem_cons.1 h
      intro blanks
      rw [List.foldl_cons, Gap.extend, hd]
      simp only [Bool.false_eq_true, if_false]
      rw [ih hgap]
      simp
  rw [foldedGap, Gap.none, hfold]
  rfl

/-- A text that is another one with some of its gaps folded. -/
inductive Folded : Text → Text → Prop where
  | nil : Folded [] []
  | keep (c : Char) {s t : Text} (h : Folded s t) : Folded (c :: s) (c :: t)
  | gap {gap s t : Text} (hgap : ∀ d ∈ gap, IsGapChar d) (h : Folded s t) :
    Folded (gap ++ s) (foldedGap gap ++ t)

theorem Folded.append_left {s t : Text} (lead : Text) (h : Folded s t) :
    Folded (lead ++ s) (lead ++ t) := by
  induction lead with
  | nil => exact h
  | cons c lead ih => exact .keep c ih

theorem Folded.refl (s : Text) : Folded s s := by
  have h := Folded.nil.append_left s
  rwa [List.append_nil] at h

end Gaps

section Escapes

/-- An escape of one letter means the same in both formats. -/
theorem escape?_letter {e d : Char} (h : Json.unescape? e = some d) (rest : Text) :
    escape? (e :: rest) = some (d, 1) := by
  unfold Json.unescape? at h
  split at h <;> first | cases h; rfl | cases h

theorem isBreak_of_unescape? {e d : Char} (h : Json.unescape? e = some d) : isBreak e = false := by
  unfold Json.unescape? at h
  split at h <;> first | rfl | cases h

section Units

variable {n : Nat} {u : Text} (hu : Json.CodeUnit n u)

include hu

/-- A code unit that is a character means the same in both formats. -/
theorem escape?_unit (hhigh : Json.isHigh n = false) (hlow : Json.isLow n = false) (rest : Text) :
    escape? ('u' :: (u ++ rest)) = some (Char.ofNat n, u.length + 1) := by
  have hlt := hu.lt
  have htake : (u ++ rest).take 4 = u := List.take_left' hu.length
  have hscalar : ¬ (0xD800 ≤ n ∧ n ≤ 0xDFFF ∨ 0x10FFFF < n) := by
    simp only [Json.isHigh, Json.isLow, Bool.and_eq_false_iff, decide_eq_false_iff_not]
      at hhigh hlow
    omega
  simp only [escape?, escaped?, codeLength?, Option.bind_eq_bind, Option.bind_some, htake,
    hu.length, Nat.lt_irrefl, if_false, hu.toNat?, if_neg hscalar]
  rfl

/-- Half of a character is refused. -/
theorem escape?_half (hhalf : Json.isHigh n = true ∨ Json.isLow n = true) (rest : Text) :
    escape? ('u' :: (u ++ rest)) = none := by
  have htake : (u ++ rest).take 4 = u := List.take_left' hu.length
  have hscalar : 0xD800 ≤ n ∧ n ≤ 0xDFFF ∨ 0x10FFFF < n := by
    simp only [Json.isHigh, Json.isLow, Bool.and_eq_true, decide_eq_true_eq] at hhalf
    omega
  simp only [escape?, escaped?, codeLength?, Option.bind_eq_bind, Option.bind_some, htake,
    hu.length, Nat.lt_irrefl, if_false, hu.toNat?, if_pos hscalar]
  rfl

end Units

/-- A character that JSON writes is read by the rules of YAML, unless it is part of a gap. -/
theorem escapes_of_piece {d : Char} {f : Text} (h : Piece d f)
    (hsolid : f = [d] → isBlank d = false ∧ isBreak d = false) : Escapes d f := by
  cases h with
  | plain hquote hback hcontrol => exact .plain (hsolid rfl) hquote hback
  | letter h => exact .escape (isBreak_of_unescape? h) fun rest => escape?_letter h rest
  | unit hu hhigh hlow => exact .escape (by decide) fun rest => escape?_unit hu hhigh hlow rest

/-- A gap in a text between quotes is written as it is. -/
theorem isGapChar_of_piece {d : Char} {f : Text} (h : Piece d f) (hf : f = [d])
    (hgap : isBlank d = true ∨ isBreak d = true) : IsGapChar d := by
  cases h with
  | letter => simp at hf
  | unit => simp at hf
  | plain hquote hback hcontrol =>
    rcases hgap with hblank | hbreak
    · rw [isBlank, Bool.or_eq_true, beq_iff_eq, beq_iff_eq] at hblank
      rcases hblank with rfl | rfl
      · exact .inl rfl
      · exact absurd (by decide) hcontrol
    · refine .inr ⟨hbreak, ?_⟩
      rintro rfl
      exact absurd (by decide) hcontrol

end Escapes

section Words

/-- What is left between quotes behind a part of it, which stands for `lead`. -/
structure Behind (q : Option Text) (k lead : Text) (q' : Option Text) (k' : Text) : Prop where
  body : Body q' k'
  text : q = q'.map (lead ++ ·)
  suffix : k' <:+ k
  half : hasHalf k' = hasHalf k

theorem Behind.refl (h : Body q k) : Behind q k [] q k where
  body := h
  text := by cases q <;> rfl
  suffix := List.suffix_refl k
  half := rfl

theorem Behind.piece {d : Char} {f lead k' : Text} {q' : Option Text} (hd : Piece d f)
    (h : Behind q k lead q' k') : Behind (q.map (d :: ·)) (f ++ k) (d :: lead) q' k' where
  body := h.body
  text := by
    rw [h.text]
    cases q' <;> rfl
  suffix := h.suffix.trans (List.suffix_append f k)
  half := h.half.trans (hd.hasHalf_append k).symm

/-- What is left starts with the closing quote or with a gap. -/
def EndsWord (k : Text) : Prop :=
  ∃ d u, k = d :: u ∧ (d = '"' ∨ isBlank d = true ∨ isBreak d = true)

/-- A word ends in front of a gap. -/
theorem doubleRun?_gap {d : Char} (fuel : Nat) (hgap : isBlank d = true ∨ isBreak d = true)
    (h : c.At total (d :: rest)) : doubleRun? (fuel + 1) c = some ([], false, c) := by
  have hquote : d ≠ '"' := by
    rintro rfl
    rcases hgap with h | h <;> exact absurd h (by decide)
  have hback : d ≠ '\\' := by
    rintro rfl
    rcases hgap with h | h <;> exact absurd h (by decide)
  have hopen : (isBlank d || isBreak d) = true := by simpa using hgap
  rw [doubleRun?, h.rest_eq]
  split
  · next heq => cases heq
  · next heq => exact absurd (List.cons.inj heq).1 hquote
  · next heq => exact absurd (List.cons.inj heq).1 hback
  · next heq =>
    obtain rfl := (List.cons.inj heq).1
    rw [if_pos hopen]

/-- Half of a character ends the reading. -/
theorem doubleRun?_half {n : Nat} {u : Text} (fuel : Nat) (hu : Json.CodeUnit n u)
    (hhalf : Json.isHigh n = true ∨ Json.isLow n = true)
    (h : c.At total ('\\' :: 'u' :: (u ++ rest))) : doubleRun? (fuel + 1) c = none := by
  have hat : (!('u' :: (u ++ rest)).isEmpty && atBreak ('u' :: (u ++ rest))) = false := rfl
  rw [doubleRun?, h.rest_eq]
  simp only [hat, Bool.false_eq_true, if_false, escape?_half hu hhalf]
  rfl

/-- A word is read up to the closing quote or a gap, unless half of a character is met. -/
theorem doubleRun?_body (hk : Body q k) (h : c.At total (k ++ rest)) (hfuel : k.length ≤ fuel) :
    (doubleRun? fuel c = none ∧ hasHalf k = true) ∨
      ∃ word q' k' c', doubleRun? fuel c = some (word, false, c') ∧ Behind q k word q' k' ∧
        EndsWord k' ∧ c'.At total (k' ++ rest) ∧ c'.line = c.line ∧ c.column ≤ c'.column := by
  induction hk generalizing c fuel with
  | close =>
    refine .inr ⟨[], _, _, c, ?_, .refl .close, ⟨'"', [], rfl, .inl rfl⟩, h, rfl, Nat.le_refl _⟩
    obtain ⟨fuel, rfl⟩ := Nat.exists_eq_succ_of_ne_zero (Nat.ne_of_gt (Nat.zero_lt_of_lt hfuel))
    rw [doubleRun?, h.rest_eq]
    rfl
  | @half n u q k hu hhalf =>
    refine .inl ⟨?_, hu.hasHalf hhalf k⟩
    obtain ⟨fuel, rfl⟩ := Nat.exists_eq_succ_of_ne_zero (Nat.ne_of_gt (Nat.zero_lt_of_lt hfuel))
    have hat : c.At total ('\\' :: 'u' :: (u ++ (k ++ rest))) := by simpa using h
    exact doubleRun?_half fuel hu hhalf hat
  | @piece d f k q hd hk ih =>
    by_cases hgap : f = [d] ∧ (isBlank d = true ∨ isBreak d = true)
    case pos =>
      obtain ⟨rfl, hgap⟩ := hgap
      refine .inr ⟨[], _, _, c, ?_, .refl (.piece hd hk), ⟨d, k, rfl, .inr hgap⟩, h, rfl,
        Nat.le_refl _⟩
      obtain ⟨fuel, rfl⟩ := Nat.exists_eq_succ_of_ne_zero (Nat.ne_of_gt (Nat.zero_lt_of_lt hfuel))
      exact doubleRun?_gap fuel hgap h
    case neg =>
      have hescapes : Escapes d f := by
        refine escapes_of_piece hd fun hf => ?_
        simpa [hf] using hgap
      have hpos : 0 < f.length := by
        cases hd <;> exact Nat.succ_pos _
      rw [List.append_assoc] at h
      rw [List.length_append] at hfuel
      obtain ⟨fuel, rfl⟩ := Nat.exists_eq_succ_of_ne_zero (n := fuel) (by omega)
      have hshorter : k.length ≤ fuel := by omega
      rw [doubleRun?_step hescapes h]
      rcases ih h.skip hshorter with
        ⟨hnone, hhalf⟩ | ⟨word, q', k', c', hword, hleft, hends, hat, hline, hcolumn⟩
      · exact .inl ⟨by rw [hnone]; rfl, by rw [hd.hasHalf_append, hhalf]⟩
      · refine .inr
          ⟨d :: word, q', k', c', by rw [hword]; rfl, hleft.piece hd, hends, hat, hline, ?_⟩
        exact Nat.le_trans (Nat.le_add_right _ _) hcolumn

/-- A gap is as long as it can be. -/
theorem exists_gap_of_body (hk : Body q k) :
    ∃ gap q' k', k = gap ++ k' ∧ (∀ d ∈ gap, IsGapChar d) ∧ Behind q k gap q' k' ∧
      ∀ rest, StartsSolid (k' ++ rest) := by
  induction hk with
  | close =>
    refine ⟨[], _, _, rfl, by simp, .refl .close, fun rest d hd => ?_⟩
    obtain rfl : '"' = d := Option.some.inj hd
    decide
  | @half n u q k hu hhalf =>
    refine ⟨[], _, _, rfl, by simp, .refl (.half q k hu hhalf), fun rest d hd => ?_⟩
    obtain rfl : '\\' = d := Option.some.inj hd
    decide
  | @piece d f k q hd hk ih =>
    by_cases hgap : f = [d] ∧ (isBlank d = true ∨ isBreak d = true)
    case pos =>
      obtain ⟨rfl, hopen⟩ := hgap
      obtain ⟨gap, q', k', rfl, hall, hleft, hsolid⟩ := ih
      exact ⟨d :: gap, q', k', rfl, List.forall_mem_cons.2 ⟨isGapChar_of_piece hd rfl hopen, hall⟩,
        hleft.piece hd, hsolid⟩
    case neg =>
      refine ⟨[], _, _, rfl, by simp, .refl (.piece hd hk), fun rest e he => ?_⟩
      have hescapes : Escapes d f := by
        refine escapes_of_piece hd fun hf => ?_
        simpa [hf] using hgap
      cases hescapes with
      | plain hsolid =>
        obtain rfl : d = e := Option.some.inj he
        exact hsolid
      | escape =>
        obtain rfl : '\\' = e := Option.some.inj he
        decide

/-- What starts with a blank or a line break starts with a gap. -/
theorem gap_ne_nil {d : Char} {u gap k' : Text} (h : d :: u = gap ++ k')
    (hd : isBlank d = true ∨ isBreak d = true) (hsolid : ∀ rest, StartsSolid (k' ++ rest)) :
    gap ≠ [] := by
  rintro rfl
  have hopen := hsolid [] d (by rw [← List.nil_append k', ← h]; rfl)
  rcases hd with hd | hd
  · rw [hopen.1] at hd
    cases hd
  · rw [hopen.2] at hd
    cases hd

/-- What is left behind a word and the gap behind that. -/
theorem Behind.trans {k' k'' word gap : Text} {q' q'' : Option Text} (h : Behind q k word q' k')
    (h' : Behind q' k' gap q'' k'') : Behind q k (word ++ gap) q'' k'' where
  body := h'.body
  text := by
    rw [h.text, h'.text]
    cases q'' <;> simp
  suffix := h'.suffix.trans h.suffix
  half := h'.half.trans h.half

/-- Behind a word that the closing quote does not end there is a gap, and less is left behind that. -/
theorem Behind.exists_gap {d : Char} {u word : Text} {q' : Option Text}
    (h : Behind q k word q' (d :: u)) (hd : isBlank d = true ∨ isBreak d = true) :
    ∃ gap q'' k'', d :: u = gap ++ k'' ∧ (∀ e ∈ gap, IsGapChar e) ∧
      Behind q k (word ++ gap) q'' k'' ∧ (∀ rest, StartsSolid (k'' ++ rest)) ∧
      k''.length < k.length := by
  obtain ⟨gap, q'', k'', hsplit, hgap, hbehind, hsolid⟩ := exists_gap_of_body h.body
  refine ⟨gap, q'', k'', hsplit, hgap, h.trans hbehind, hsolid, ?_⟩
  have hle := h.suffix.length_le
  have hpos := List.length_pos_iff.2 (gap_ne_nil hsplit hd hsolid)
  rw [hsplit, List.length_append] at hle
  omega

/-- Nothing between quotes keeps YAML from reading them as the text that they are for JSON. -/
structure IsClear (k : Text) : Prop where
  whole : hasHalf k = false
  line : ∀ d ∈ k, isBreak d = false

theorem Behind.isClear {k' lead : Text} {q' : Option Text} (h : Behind q k lead q' k')
    (hk : IsClear k) : IsClear k' where
  whole := h.half.trans hk.whole
  line d hd := hk.line d (h.suffix.subset hd)

theorem body_quote {u : Text} (h : Body q ('"' :: u)) : q = some [] ∧ u = [] := by
  generalize hk : '"' :: u = k at h
  cases h with
  | close => exact ⟨rfl, (List.cons.inj hk).2⟩
  | piece hc _ =>
    cases hc with
    | plain hquote => exact absurd (List.cons.inj hk).1.symm hquote
    | letter => exact absurd (List.cons.inj hk).1 (by decide)
    | unit => exact absurd (List.cons.inj hk).1 (by decide)
  | half => exact absurd (List.cons.inj hk).1 (by decide)

/-- What comes of reading a text between quotes by the rules of YAML: either it is refused, which
takes half of a character or a line break, or the text is read with some of its gaps folded. -/
inductive ReadsBody (total : Nat) (rest : Text) (c : Cursor) (q : Option Text) (k : Text) :
    Option (Text × Cursor) → Prop where
  | refused (h : ¬ (IsClear k ∧ 0 < c.column)) : ReadsBody total rest c q k none
  | read {s t : Text} {c' : Cursor} (hs : q = some s) (hfolded : Folded s t)
    (hat : c'.At total rest) (hclear : IsClear k → t = s ∧ c'.line = c.line) :
    ReadsBody total rest c q k (some (t, c'))

/-- What comes of reading what is left behind a word and a gap tells what comes of reading all. -/
theorem ReadsBody.gap {c₂ : Cursor} {word gap k'' : Text} {q'' : Option Text}
    {r : Option (Text × Cursor)} (h : ReadsBody total rest c₂ q'' k'' r)
    (hbehind : Behind q k (word ++ gap) q'' k'') (hgap : ∀ d ∈ gap, IsGapChar d)
    (hlines : IsClear k → ∀ d ∈ gap, isBreak d = false)
    (hmoved : (∀ d ∈ gap, isBreak d = false) → c₂.line = c.line ∧ c.column ≤ c₂.column) :
    ReadsBody total rest c q k (r.map fun p => (word ++ foldedGap gap ++ p.1, p.2)) := by
  cases h with
  | refused hrefused =>
    refine .refused fun ⟨hclear, hcolumn⟩ => hrefused ⟨hbehind.isClear hclear, ?_⟩
    exact Nat.lt_of_lt_of_le hcolumn (hmoved (hlines hclear)).2
  | @read s t c' hs hfolded hat hclear' =>
    refine .read (s := word ++ gap ++ s) ?_ ?_ hat fun hclear => ?_
    · rw [hbehind.text, hs]
      rfl
    · rw [List.append_assoc, List.append_assoc]
      exact (Folded.gap hgap hfolded).append_left word
    · obtain ⟨rfl, hline'⟩ := hclear' (hbehind.isClear hclear)
      rw [foldedGap_of_line (hlines hclear)]
      exact ⟨rfl, hline'.trans (hmoved (hlines hclear)).1⟩

/-- A text between quotes is read word by word. -/
theorem quotedFrom?_body (hk : Body q k) (h : c.At total (k ++ rest)) (hfuel : k.length ≤ fuel) :
    ReadsBody total rest c q k (quotedFrom? false fuel c) := by
  induction fuel generalizing q k c with
  | zero => exact absurd (List.length_eq_zero_iff.1 (Nat.le_zero.1 hfuel)) hk.ne_nil
  | succ fuel ih =>
    by_cases hmarker : c.atAnyMarker = true
    case pos =>
      rw [quotedFrom?, if_pos hmarker]
      refine .refused fun hclear => ?_
      rw [atAnyMarker_of_column hclear.2] at hmarker
      cases hmarker
    rw [Bool.not_eq_true] at hmarker
    have hlength : k.length ≤ c.rest.length := by
      rw [h.rest_eq, List.length_append]
      omega
    rcases doubleRun?_body hk h hlength with
      ⟨hnone, hhalf⟩ | ⟨word, q', k', c₁, hword, hleft, ⟨d, u, rfl, hd⟩, hat₁, hline₁, hcolumn₁⟩
    · have hread : quotedFrom? false (fuel + 1) c = none := by
        rw [quotedFrom?, hmarker]
        simp [hnone]
      rw [hread]
      refine .refused fun hclear => ?_
      rw [hclear.1.whole] at hhalf
      cases hhalf
    have hreads : ReadsWord false c word c₁ := hword
    by_cases hquote : d = '"'
    case pos =>
      subst hquote
      obtain ⟨rfl, rfl⟩ := body_quote hleft.body
      have hlast : '"' = quoteOf false := rfl
      rw [quotedFrom?_word fuel hmarker hreads hat₁, if_pos hlast]
      have hs : q = some word := by
        rw [hleft.text, Option.map_some, List.append_nil]
      exact .read hs (.refl word) hat₁.next fun _ => ⟨rfl, hline₁⟩
    case neg =>
      obtain ⟨gap, q'', k'', hsplit, hgap, hbehind, hsolid, hshorter⟩ :=
        hleft.exists_gap (hd.resolve_left hquote)
      have hat₁' : c₁.At total (gap ++ (k'' ++ rest)) := by rwa [hsplit, List.append_assoc] at hat₁
      obtain ⟨c₂, hread, hat₂, hline₂⟩ := Gap.read_chars Gap.none hgap (hsolid rest) hat₁'
        (show gap.length ≤ c₁.rest.length by rw [hat₁'.rest_eq, List.length_append]; omega)
      have hstep : quotedFrom? false (fuel + 1) c = (quotedFrom? false fuel c₂).map fun r =>
          (word ++ foldedGap gap ++ r.1, r.2) := by
        have hmore : d ≠ quoteOf false := hquote
        rw [quotedFrom?_word fuel hmarker hreads hat₁, if_neg hmore, hread]
        change (quotedFrom? false fuel c₂).bind _ = _
        cases quotedFrom? false fuel c₂ <;> rfl
      rw [hstep]
      refine (ih hbehind.body hat₂ (by omega)).gap hbehind hgap (fun hclear e he => ?_)
        fun hnone => ?_
      · exact (hleft.isClear hclear).line e (hsplit ▸ List.mem_append_left k'' he)
      · exact ⟨(hline₂ hnone).1.trans hline₁, Nat.le_trans hcolumn₁ (hline₂ hnone).2⟩

/-- A text with its quotes is read behind the opening one. -/
theorem quoted?_body (hk : Body q k) (h : c.At total ('"' :: (k ++ rest))) :
    ReadsBody total rest c.next q k (quoted? false c) := by
  refine quotedFrom?_body hk h.next ?_
  rw [h.rest_eq, List.length_cons, List.length_append]
  omega

end Words

end RouteModule.Yaml
