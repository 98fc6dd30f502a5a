import RouteModule.Proofs.Text.Encoding
import RouteModule.Proofs.Yaml.Plain

/-!
Texts between quotes are read back. Both kinds of quotes hold words with gaps between them. Between
double quotes a gap has spaces only, all else being escaped; between single quotes a gap has either
spaces or line breaks, and the breaks stand for themselves.
-/

namespace RouteModule.Yaml

variable {total fuel : Nat} {c c₁ c₂ c₃ : Cursor} {t u rest : Text}

section Parts

/-- The quote around a scalar. -/
abbrev quoteOf (single : Bool) : Char := if single then '\'' else '"'

/-- A word between quotes is read, and ends without an escaped line break. -/
def ReadsWord (single : Bool) (c : Cursor) (word : Text) (c' : Cursor) : Prop :=
  if single then singleRun c.rest.length c = (word, c')
  else doubleRun? c.rest.length c = some (word, false, c')

/-- One turn of reading a scalar between quotes, behind its word. -/
theorem quotedFrom?_word {single : Bool} {word : Text} {d : Char} (fuel : Nat)
    (hmarker : c.atAnyMarker = false) (hword : ReadsWord single c word c₁)
    (hat : c₁.At total (d :: rest)) :
    quotedFrom? single (fuel + 1) c =
      if d = quoteOf single then some (word, c₁.next)
      else do
        let (g, c₂) ← Gap.read (fun _ => true) c₁.rest.length Gap.none c₁
        let (t, c₃) ← quotedFrom? single fuel c₂
        return (word ++ g.folded ++ t, c₃) := by
  rw [quotedFrom?, hmarker]
  cases single with
  | true =>
    have hrun : singleRun c.rest.length c = (word, c₁) := hword
    simp only [Bool.false_eq_true, if_false, if_true, hrun, Option.bind_eq_bind, Option.bind_some,
      hat.rest_eq]
    rfl
  | false =>
    have hrun : doubleRun? c.rest.length c = some (word, false, c₁) := hword
    simp only [Bool.false_eq_true, if_false, hrun, Option.bind_eq_bind, Option.bind_some,
      hat.rest_eq]
    rfl

/-- The quote behind the last word ends the scalar. -/
theorem quotedFrom?_last {single : Bool} {word : Text} (fuel : Nat) (hcolumn : 0 < c.column)
    (hword : ReadsWord single c word c₁) (hat : c₁.At total (quoteOf single :: rest)) :
    quotedFrom? single (fuel + 1) c = some (word, c₁.next) := by
  rw [quotedFrom?_word fuel (atAnyMarker_of_column hcolumn) hword hat, if_pos rfl]

/-- Behind a gap the scalar goes on. -/
theorem quotedFrom?_gap {single : Bool} {word : Text} {d : Char} {g : Gap} (hcolumn : 0 < c.column)
    (hword : ReadsWord single c word c₁) (hat : c₁.At total (d :: rest)) (hd : d ≠ quoteOf single)
    (hgap : Gap.read (fun _ => true) c₁.rest.length Gap.none c₁ = some (g, c₂))
    (hmore : quotedFrom? single fuel c₂ = some (t, c₃)) :
    quotedFrom? single (fuel + 1) c = some (word ++ g.folded ++ t, c₃) := by
  rw [quotedFrom?_word fuel (atAnyMarker_of_column hcolumn) hword hat, if_neg hd, hgap]
  simp only [Option.bind_eq_bind, Option.bind_some, hmore]
  rfl

/-- Spaces are written as they are. -/
theorem flatMap_spaces (f : Char → Text) (hf : f ' ' = [' ']) {spaces : Text}
    (h : ∀ d ∈ spaces, isSpace d = true) : spaces.flatMap f = spaces := by
  induction spaces with
  | nil => rfl
  | cons d spaces ih =>
    obtain rfl : d = ' ' := by simpa [isSpace] using h d List.mem_cons_self
    rw [List.flatMap_cons, hf, ih fun e he => h e (List.mem_cons_of_mem ' ' he)]
    rfl

theorem length_le_flatMap {f : Char → Text} (hf : ∀ d, f d ≠ []) (t : Text) :
    t.length ≤ (t.flatMap f).length := by
  induction t with
  | nil => exact Nat.le_refl _
  | cons d t ih =>
    have hpos := List.length_pos_iff.2 (hf d)
    rw [List.flatMap_cons, List.length_append, List.length_cons]
    omega

end Parts

section Double

/-- An escaped character is the character itself, which is neither a gap nor a mark, or a backslash
with what is read as the character. -/
inductive Escapes (c : Char) : Text → Prop where
  | plain (hsolid : isBlank c = false ∧ isBreak c = false) (hquote : c ≠ '"') (hback : c ≠ '\\') :
    Escapes c [c]
  | escape {mark : Char} {more : Text} (hmark : isBreak mark = false)
    (hread : ∀ rest, escape? (mark :: (more ++ rest)) = some (c, more.length + 1)) :
    Escapes c ('\\' :: mark :: more)

/-- Enough digits behind their mark are read as the character of the number. -/
theorem escapes_number {c mark : Char} {width : Nat} (hbreak : isBreak mark = false)
    (hmark : escaped? mark = none) (hwidth : codeLength? mark = some width) (hpos : 0 < width)
    (hbound : c.toNat < 16 ^ width) : Escapes c ('\\' :: mark :: Text.upperHex width c.toNat) := by
  refine .escape hbreak fun rest => ?_
  have hvalid : c.toNat.isValidChar := c.valid
  have hscalar : ¬ (0xD800 ≤ c.toNat ∧ c.toNat ≤ 0xDFFF ∨ 0x10FFFF < c.toNat) := by
    rw [Nat.isValidChar] at hvalid
    omega
  have htake : (Text.upperHex width c.toNat ++ rest).take width = Text.upperHex width c.toNat :=
    List.take_left' (Text.length_upperHex width c.toNat)
  simp only [escape?, hmark, hwidth, Option.bind_eq_bind, Option.bind_some, htake,
    Text.length_upperHex, Nat.lt_irrefl, if_false, Text.toNat?_upperHex hpos hbound, if_neg hscalar,
    Char.ofNat_toNat]
  rfl

theorem escapes_escape {c : Char} (hspace : isSpace c = false) : Escapes c (escape c) := by
  unfold escape
  split
  case h_15 hfeed _ _ _ _ hquote hback _ hline hparagraph =>
    split
    · next hprint =>
      have hbreak : isBreak c = false := by
        rw [Bool.eq_false_iff]
        intro hbreak
        rcases eq_of_isBreak hbreak hprint with h | h | h
        · exact hfeed h
        · exact hline h
        · exact hparagraph h
      exact .plain ⟨(isBlank_eq_isSpace hprint).trans hspace, hbreak⟩ hquote hback
    · have hbound : c.toNat < 16 ^ 8 := by
        have hvalid : c.toNat.isValidChar := c.valid
        rw [Nat.isValidChar] at hvalid
        omega
      unfold numberEscape
      split
      · next hsmall => exact escapes_number (by decide) rfl rfl (by decide) hsmall
      · split
        · next hmiddle => exact escapes_number (by decide) rfl rfl (by decide) hmiddle
        · exact escapes_number (by decide) rfl rfl (by decide) hbound
  all_goals exact .escape (by decide) fun rest => rfl

theorem escape_ne_nil (c : Char) : escape c ≠ [] := by
  by_cases hspace : isSpace c = true
  case pos =>
    obtain rfl : c = ' ' := by simpa [isSpace] using hspace
    exact List.cons_ne_nil _ _
  case neg =>
    have hc := escapes_escape (Bool.eq_false_iff.2 hspace)
    generalize escape c = f at hc
    cases hc with
    | plain => exact List.cons_ne_nil _ _
    | escape => exact List.cons_ne_nil _ _

/-- What stands behind a word between double quotes. -/
def EndsDouble (t : Text) : Prop := t.head? = some '"' ∨ t.head? = some ' '

theorem doubleRun?_end (h : c.At total t) (ht : EndsDouble t) (fuel : Nat) :
    doubleRun? fuel c = some ([], false, c) := by
  cases fuel with
  | zero => rfl
  | succ fuel =>
    rw [doubleRun?, h.rest_eq]
    cases t with
    | nil => rfl
    | cons d t =>
      rcases ht with ht | ht
      · obtain rfl : d = '"' := Option.some.inj ht
        rfl
      · obtain rfl : d = ' ' := Option.some.inj ht
        rfl

/-- An escaped character is read, and then the rest of its word. -/
theorem doubleRun?_step {d : Char} {f : Text} (hd : Escapes d f) (h : c.At total (f ++ rest)) :
    doubleRun? (fuel + 1) c =
      (doubleRun? fuel (c.skip f.length)).map fun r => (d :: r.1, r.2.1, r.2.2) := by
  cases hd with
  | plain hsolid hquote hback =>
    have hskip : c.skip [d].length = c.next := rfl
    rw [hskip, doubleRun?, h.rest_eq]
    split
    · next heq => cases heq
    · next heq => exact absurd (List.cons.inj heq).1 hquote
    · next heq => exact absurd (List.cons.inj heq).1 hback
    · next heq =>
      obtain rfl := (List.cons.inj heq).1
      simp only [hsolid, Bool.or_self, Bool.false_eq_true, if_false]
      cases doubleRun? fuel c.next <;> rfl
  | @escape mark more hmark hread =>
    have hlength : ('\\' :: mark :: more).length = more.length + 1 + 1 := rfl
    have hat : (!(mark :: (more ++ rest)).isEmpty && atBreak (mark :: (more ++ rest))) = false :=
      hmark
    rw [hlength, doubleRun?, h.rest_eq]
    simp only [List.cons_append, hat, Bool.false_eq_true, if_false, hread, Option.bind_eq_bind,
      Option.bind_some]
    cases doubleRun? fuel (c.skip (more.length + 1 + 1)) <;> rfl

/-- A word is read up to what stands behind it. -/
theorem doubleRun?_word {word : Text} (hword : ∀ d ∈ word, isSpace d = false) (ht : EndsDouble t)
    (h : c.At total (word.flatMap escape ++ t)) (hfuel : word.length ≤ fuel) :
    ∃ c', doubleRun? fuel c = some (word, false, c') ∧ c'.At total t ∧ c.column ≤ c'.column := by
  induction word generalizing fuel c with
  | nil => exact ⟨c, doubleRun?_end h ht fuel, h, Nat.le_refl _⟩
  | cons d word ih =>
    obtain ⟨fuel, rfl⟩ := Nat.exists_eq_succ_of_ne_zero (Nat.ne_of_gt (Nat.zero_lt_of_lt hfuel))
    rw [List.flatMap_cons, List.append_assoc] at h
    obtain ⟨c', hread, hat, hcolumn⟩ := ih (fun e he => hword e (List.mem_cons_of_mem d he)) h.skip
      (Nat.le_of_succ_le_succ hfuel)
    have hd := escapes_escape (hword d List.mem_cons_self)
    refine ⟨c', ?_, hat, Nat.le_trans (Nat.le_add_right _ _) hcolumn⟩
    rw [doubleRun?_step hd h, hread]
    rfl

/-- What is written behind spaces does not start with a gap. -/
theorem startsSolid_double (h : ∀ d ∈ t.head?, isSpace d = false) (rest : Text) :
    StartsSolid (t.flatMap escape ++ '"' :: rest) := by
  cases t with
  | nil =>
    intro d hd
    obtain rfl : '"' = d := Option.some.inj hd
    decide
  | cons e t =>
    have he := escapes_escape (h e rfl)
    rw [List.flatMap_cons, List.append_assoc]
    generalize escape e = f at he
    intro d hd
    cases he with
    | plain hsolid =>
      obtain rfl : e = d := Option.some.inj hd
      exact hsolid
    | escape =>
      obtain rfl : '\\' = d := Option.some.inj hd
      decide

/-- A scalar between double quotes is read up to the closing one. -/
theorem quotedFrom?_double (h : c.At total (t.flatMap escape ++ '"' :: rest))
    (hcolumn : 0 < c.column) (hfuel : t.length < fuel) :
    ∃ c', quotedFrom? false fuel c = some (t, c') ∧ c'.At total rest := by
  induction fuel generalizing t c with
  | zero => exact absurd hfuel (Nat.not_lt_zero _)
  | succ fuel ih =>
    obtain ⟨word, u, rfl, hword, hu⟩ := exists_run (fun d => !isSpace d) t
    have hspaceless : ∀ d ∈ word, isSpace d = false := fun d hd => by simpa using hword d hd
    rw [List.flatMap_append, List.append_assoc] at h
    have hlength : word.length ≤ c.rest.length := by
      have hescaped := length_le_flatMap escape_ne_nil word
      rw [h.rest_eq, List.length_append]
      omega
    by_cases hlast : u = []
    case pos =>
      subst hlast
      obtain ⟨c₁, hrun, hat, -⟩ := doubleRun?_word hspaceless (.inl rfl) h hlength
      refine ⟨c₁.next, ?_, hat.next⟩
      rw [List.append_nil]
      exact quotedFrom?_last fuel hcolumn hrun hat
    case neg =>
      obtain ⟨d, spaces, v, rfl, hspaces, hv⟩ :=
        exists_first_run hlast fun d hd => by simpa using hu d hd
      obtain rfl : d = ' ' := by simpa [isSpace] using hspaces d List.mem_cons_self
      rw [List.flatMap_append, flatMap_spaces escape rfl hspaces, List.append_assoc] at h
      obtain ⟨c₁, hrun, hat₁, hcolumn₁⟩ := doubleRun?_word hspaceless (.inr rfl) h hlength
      obtain ⟨c₂, hgap, hat₂, hcolumn₂⟩ := Gap.read_spaces (fun _ => true) [] [] [] hspaces
        (startsSolid_double hv rest) hat₁
        (show (' ' :: spaces).length ≤ c₁.rest.length by simp [hat₁.rest_eq])
      obtain ⟨c₃, hmore, hat₃⟩ := ih hat₂ (by omega)
        (by simp only [List.length_append, List.length_cons] at hfuel; omega)
      refine ⟨c₃, ?_, hat₃⟩
      have hword' : ReadsWord false c word c₁ := hrun
      rw [quotedFrom?_gap hcolumn hword' hat₁ (by decide) hgap hmore, List.append_assoc]
      rfl

end Double

section Single

/-- One character between single quotes. -/
abbrev doubled (c : Char) : Text := if c = '\'' then ['\'', '\''] else [c]

theorem singleBody_line {line : Text} (hline : ∀ d ∈ line, isBreak d = false) (u : Text) :
    singleBody false (line ++ u) = line.flatMap doubled ++ singleBody false u := by
  induction line with
  | nil => rfl
  | cons d line ih =>
    have hd : isBreak d = false := hline d List.mem_cons_self
    rw [List.cons_append, singleBody, hd, ih fun e he => hline e (List.mem_cons_of_mem d he)]
    simp [doubled]

/-- Behind breaks a line is indented. -/
theorem singleBody_breaks {breaks : Text} (hbreaks : ∀ d ∈ breaks, isBreak d = true)
    (hu : ∀ d ∈ u.head?, isBreak d = false) :
    singleBody true (breaks ++ u) = breaks ++ (indentation ++ singleBody false u) := by
  induction breaks with
  | nil =>
    cases u with
    | nil => rfl
    | cons d u => simp [singleBody, hu d rfl]
  | cons d breaks ih =>
    rw [List.cons_append, singleBody, hbreaks d List.mem_cons_self, if_pos rfl,
      ih fun e he => hbreaks e (List.mem_cons_of_mem d he)]
    rfl

theorem singleBody_gap {d : Char} (hd : (isSpace d || isBreak d) = true) (u : Text) :
    ∃ x, singleBody false (d :: u) = d :: x := by
  rw [singleBody]
  split
  · exact ⟨_, rfl⟩
  · next hbreak =>
    obtain rfl : d = ' ' := by simpa [hbreak, isSpace] using hd
    exact ⟨_, rfl⟩

theorem doubled_ne_nil (c : Char) : doubled c ≠ [] := by
  unfold doubled
  split
  · exact List.cons_ne_nil _ _
  · exact List.cons_ne_nil _ _

/-- What stands behind a word between single quotes: the closing quote or a gap. -/
def EndsSingle (t : Text) : Prop :=
  (∃ u, t = '\'' :: u ∧ u.head? ≠ some '\'') ∨ ∃ d u, t = d :: u ∧ (isSpace d || isBreak d) = true

theorem singleRun_end (h : c.At total t) (ht : EndsSingle t) (fuel : Nat) :
    singleRun fuel c = ([], c) := by
  cases fuel with
  | zero => rfl
  | succ fuel =>
    rw [singleRun, h.rest_eq]
    obtain ⟨u, rfl, hu⟩ | ⟨d, u, rfl, hd⟩ := ht
    · split
      · rfl
      · next heq => exact absurd (by rw [(List.cons.inj heq).2]; rfl) hu
      · rfl
      · next hquote heq => exact absurd (List.cons.inj heq).1.symm hquote
    · have hquote : d ≠ '\'' := by
        rintro rfl
        exact absurd hd (by decide)
      have hgap : (isBlank d || isBreak d) = true := by
        rcases Bool.or_eq_true_iff.1 hd with hspace | hbreak
        · obtain rfl : d = ' ' := by simpa [isSpace] using hspace
          rfl
        · rw [hbreak, Bool.or_true]
      split
      · rfl
      · next heq => exact absurd (List.cons.inj heq).1 hquote
      · rfl
      · next heq =>
        obtain rfl := (List.cons.inj heq).1
        rw [if_pos hgap]

/-- A word is read up to what stands behind it. -/
theorem singleRun_word {word : Text} (hword : ∀ d ∈ word, isBlank d = false ∧ isBreak d = false)
    (ht : EndsSingle t) (h : c.At total (word.flatMap doubled ++ t)) (hfuel : word.length ≤ fuel) :
    ∃ c', singleRun fuel c = (word, c') ∧ c'.At total t ∧ c.column ≤ c'.column := by
  induction word generalizing fuel c with
  | nil => exact ⟨c, singleRun_end h ht fuel, h, Nat.le_refl _⟩
  | cons d word ih =>
    obtain ⟨fuel, rfl⟩ := Nat.exists_eq_succ_of_ne_zero (Nat.ne_of_gt (Nat.zero_lt_of_lt hfuel))
    rw [List.flatMap_cons, List.append_assoc] at h
    obtain ⟨c', hread, hat, hcolumn⟩ := ih (fun e he => hword e (List.mem_cons_of_mem d he)) h.skip
      (Nat.le_of_succ_le_succ hfuel)
    refine ⟨c', ?_, hat, Nat.le_trans (Nat.le_add_right _ _) hcolumn⟩
    by_cases hquote : d = '\''
    case pos =>
      subst hquote
      have hskip : singleRun fuel (c.skip 2) = (word, c') := hread
      rw [singleRun, h.rest_eq]
      change (let r := singleRun fuel (c.skip 2); ('\'' :: r.1, r.2)) = _
      rw [hskip]
    case neg =>
      obtain ⟨hblank, hbreak⟩ := hword d List.mem_cons_self
      simp only [doubled, if_neg hquote] at h hread
      have hnext : singleRun fuel c.next = (word, c') := hread
      rw [singleRun, h.rest_eq]
      split
      · next heq => cases heq
      · next heq => exact absurd (List.cons.inj heq).1 hquote
      · next heq => exact absurd (List.cons.inj heq).1 hquote
      · next heq =>
        obtain rfl := (List.cons.inj heq).1
        simp only [hblank, hbreak, Bool.or_self, Bool.false_eq_true, if_false, hnext]

/-- A text whose gaps have spaces only or breaks only, which stand for themselves. -/
structure Folds (t : Text) : Prop where
  line : ∀ d ∈ t, isPrintable d = true ∧ d ≠ '\n'
  before : hasPair isSpace isBreak t = false
  behind : hasPair isBreak isSpace t = false

namespace Folds

theorem of_append {front : Text} (h : Folds (front ++ t)) : Folds t where
  line d hd := h.line d (List.mem_append_right front hd)
  before := hasPair_of_append h.before
  behind := hasPair_of_append h.behind

/-- A gap has spaces only or breaks only. -/
theorem exists_gap (h : Folds t) (hne : t ≠ [])
    (hfirst : ∀ d ∈ t.head?, (isSpace d || isBreak d) = true) :
    ∃ gap u, t = gap ++ u ∧ gap ≠ [] ∧ (∀ d ∈ u.head?, isSpace d = false ∧ isBreak d = false) ∧
      ((∀ d ∈ gap, isSpace d = true) ∨ ∀ d ∈ gap, isBreak d = true) := by
  obtain ⟨d, t, rfl⟩ := List.exists_cons_of_ne_nil hne
  by_cases hspace : isSpace d = true
  case pos =>
    obtain ⟨e, run, u, heq, hrun, hu⟩ := exists_first_run (p := isSpace) hne
      fun f hf => by rw [← Option.some.inj hf]; exact hspace
    rw [heq] at h ⊢
    exact ⟨_, u, rfl, List.cons_ne_nil e run,
      fun f hf => ⟨hu f hf, behind_run (List.cons_ne_nil e run) hrun h.before f hf⟩, .inl hrun⟩
  case neg =>
    obtain ⟨e, run, u, heq, hrun, hu⟩ := exists_first_run (p := isBreak) hne
      fun f hf => by rw [← Option.some.inj hf]; simpa [hspace] using hfirst d rfl
    rw [heq] at h ⊢
    exact ⟨_, u, rfl, List.cons_ne_nil e run,
      fun f hf => ⟨behind_run (List.cons_ne_nil e run) hrun h.behind f hf, hu f hf⟩, .inr hrun⟩

end Folds

/-- What is written behind a gap does not start with one. -/
theorem startsSolid_single (h : StartsSolid t) (rest : Text) :
    StartsSolid (singleBody false t ++ '\'' :: rest) := by
  cases t with
  | nil =>
    intro d hd
    obtain rfl : '\'' = d := Option.some.inj hd
    decide
  | cons e t =>
    obtain ⟨hblank, hbreak⟩ := h e rfl
    intro d hd
    by_cases hquote : e = '\''
    case pos =>
      subst hquote
      obtain rfl : '\'' = d := Option.some.inj hd
      decide
    case neg =>
      rw [singleBody, hbreak] at hd
      simp only [Bool.false_eq_true, if_false, if_neg hquote] at hd
      obtain rfl : e = d := Option.some.inj hd
      exact ⟨hblank, hbreak⟩

/-- A gap stands for what it was written for. -/
theorem read_gap {gap : Text} (hfolds : Folds (gap ++ u)) (hne : gap ≠ [])
    (hgap : (∀ d ∈ gap, isSpace d = true) ∨ ∀ d ∈ gap, isBreak d = true) (hu : StartsSolid u)
    (h : c.At total (singleBody false (gap ++ u) ++ '\'' :: rest)) (hcolumn : 0 < c.column) :
    ∃ g c', Gap.read (fun _ => true) c.rest.length Gap.none c = some (g, c') ∧ g.folded = gap ∧
      c'.At total (singleBody false u ++ '\'' :: rest) ∧ 0 < c'.column := by
  have hsolid := startsSolid_single hu rest
  rcases hgap with hspaces | hbreaks
  · rw [singleBody_line (fun d hd => isBreak_of_isSpace (hspaces d hd)),
      flatMap_spaces doubled rfl hspaces, List.append_assoc] at h
    obtain ⟨c', hread, hat, hcolumn'⟩ := Gap.read_spaces (fun _ => true) [] [] [] hspaces hsolid h
      (show gap.length ≤ c.rest.length by rw [h.rest_eq, List.length_append]; omega)
    exact ⟨_, c', hread, rfl, hat, by omega⟩
  · obtain ⟨b, breaks, rfl⟩ := List.exists_cons_of_ne_nil hne
    have hkept : ∀ d ∈ b :: breaks, isBreak d = true ∧ isPrintable d = true := fun d hd =>
      ⟨hbreaks d hd, (hfolds.line d (List.mem_append_left u hd)).1⟩
    have hfeed : b ≠ '\n' := (hfolds.line b (List.mem_append_left u List.mem_cons_self)).2
    have hbody : singleBody false (b :: breaks ++ u) =
        b :: breaks ++ (indentation ++ singleBody false u) := by
      rw [List.cons_append, singleBody, hbreaks b List.mem_cons_self, if_pos rfl,
        singleBody_breaks (fun e he => hbreaks e (List.mem_cons_of_mem b he))
          fun e he => (hu e he).2]
      rfl
    rw [hbody, List.append_assoc, List.append_assoc] at h
    obtain ⟨c', hread, hat, hcolumn'⟩ := Gap.read_breaks (fun _ => true) [] [] []
      (List.all_eq_true.1 rfl : ∀ d ∈ indentation, isSpace d = true) hsolid hkept h
      (show breaks.length + indentation.length < c.rest.length by
        rw [h.rest_eq]
        simp only [List.length_append, List.length_cons]
        omega)
    refine ⟨_, c', hread, ?_, hat, ?_⟩
    · have hlead : [b] ≠ ['\n'] := by simpa using hfeed
      simp only [Gap.folded, if_true, if_neg hlead, List.singleton_append]
    · rw [hcolumn']
      decide

/-- A scalar between single quotes is read up to the closing one. -/
theorem quotedFrom?_single (hfolds : Folds t)
    (h : c.At total (singleBody false t ++ '\'' :: rest)) (hrest : rest.head? ≠ some '\'')
    (hcolumn : 0 < c.column) (hfuel : t.length < fuel) :
    ∃ c', quotedFrom? true fuel c = some (t, c') ∧ c'.At total rest := by
  induction fuel generalizing t c with
  | zero => exact absurd hfuel (Nat.not_lt_zero _)
  | succ fuel ih =>
    obtain ⟨word, u, rfl, hword, hu⟩ := exists_run (fun d => !(isSpace d || isBreak d)) t
    have hsolid : ∀ d ∈ word, isBlank d = false ∧ isBreak d = false := by
      intro d hd
      have hnone := hword d hd
      rw [Bool.not_eq_true', Bool.or_eq_false_iff] at hnone
      have hprint := (hfolds.line d (List.mem_append_left u hd)).1
      exact ⟨(isBlank_eq_isSpace hprint).trans hnone.1, hnone.2⟩
    rw [singleBody_line fun d hd => (hsolid d hd).2, List.append_assoc] at h
    have hlength : word.length ≤ c.rest.length := by
      have hdoubled := length_le_flatMap doubled_ne_nil word
      rw [h.rest_eq, List.length_append]
      omega
    by_cases hlast : u = []
    case pos =>
      subst hlast
      obtain ⟨c₁, hrun, hat, -⟩ := singleRun_word hsolid (.inl ⟨rest, rfl, hrest⟩) h hlength
      have hreads : ReadsWord true c word c₁ := hrun
      refine ⟨c₁.next, ?_, hat.next⟩
      rw [List.append_nil]
      exact quotedFrom?_last fuel hcolumn hreads hat
    case neg =>
      have hfirst : ∀ d ∈ u.head?, (isSpace d || isBreak d) = true := fun d hd => by
        simpa only [Bool.not_eq_false'] using hu d hd
      obtain ⟨d, u', rfl⟩ := List.exists_cons_of_ne_nil hlast
      obtain ⟨x, hx⟩ := singleBody_gap (hfirst d rfl) u'
      have hends : EndsSingle (singleBody false (d :: u') ++ '\'' :: rest) :=
        .inr ⟨d, x ++ '\'' :: rest, by rw [hx, List.cons_append], hfirst d rfl⟩
      obtain ⟨c₁, hrun, hat₁, hcolumn₁⟩ := singleRun_word hsolid hends h hlength
      have hreads : ReadsWord true c word c₁ := hrun
      have hat₁' : c₁.At total (d :: (x ++ '\'' :: rest)) := by rwa [hx] at hat₁
      have hquote : d ≠ quoteOf true := by
        rintro rfl
        exact absurd (hfirst _ rfl) (by decide)
      obtain ⟨gap, v, hsplit, hne, hv, hgap⟩ := hfolds.of_append.exists_gap hlast hfirst
      rw [hsplit] at hfolds hat₁ hfuel ⊢
      have hfolds' : Folds v := by
        rw [← List.append_assoc] at hfolds
        exact hfolds.of_append
      have hsolid' : StartsSolid v := by
        intro e he
        have hprint := (hfolds'.line e (List.mem_of_mem_head? he)).1
        exact ⟨(isBlank_eq_isSpace hprint).trans (hv e he).1, (hv e he).2⟩
      obtain ⟨g, c₂, hread, hfolded, hat₂, hcolumn₂⟩ :=
        read_gap hfolds.of_append hne hgap hsolid' hat₁ (by omega)
      have hshorter : v.length < fuel := by
        have hpos := List.length_pos_iff.2 hne
        simp only [List.length_append] at hfuel
        omega
      obtain ⟨c₃, hmore, hat₃⟩ := ih hfolds' hat₂ hcolumn₂ hshorter
      refine ⟨c₃, ?_, hat₃⟩
      rw [quotedFrom?_gap hcolumn hreads hat₁' hquote hread hmore, hfolded, List.append_assoc]

end Single

section Written

theorem Folds.of_style (h : TextStyle.of t = .single) : Folds t := by
  unfold TextStyle.of at h
  split at h
  · split at h <;> cases h
  · next hfeed =>
    split at h
    · cases h
    · next hspecial =>
      simp only [isSpecial, Bool.or_eq_true, not_or, Bool.not_eq_true, Bool.not_eq_false']
        at hspecial
      refine ⟨fun d hd => ⟨List.all_eq_true.1 hspecial.1.1 d hd, ?_⟩, hspecial.1.2, hspecial.2⟩
      rintro rfl
      exact hfeed (List.contains_iff_mem.2 hd)

theorem length_le_singleBody (start : Bool) (t : Text) :
    t.length ≤ (singleBody start t).length := by
  induction t generalizing start with
  | nil => exact Nat.zero_le _
  | cons c t ih =>
    rw [singleBody]
    split
    · exact Nat.succ_le_succ (ih true)
    · have hpos : 0 < (if c = '\'' then ['\'', '\''] else [c]).length :=
        List.length_pos_iff.2 (doubled_ne_nil c)
      have hrest := ih false
      simp only [List.length_append, List.length_cons]
      omega

/-- What is written between single quotes is read. -/
theorem quoted?_single (hfolds : Folds t) (hrest : rest.head? ≠ some '\'')
    (h : c.At total ('\'' :: singleBody false t ++ '\'' :: rest)) :
    ∃ c', quoted? true c = some (t, c') ∧ c'.At total rest := by
  refine quotedFrom?_single hfolds h.next hrest (Nat.succ_pos _) ?_
  have hlength := length_le_singleBody false t
  rw [h.rest_eq, List.length_append, List.length_cons]
  omega

/-- What is written between double quotes is read. -/
theorem quoted?_double (h : c.At total ('"' :: t.flatMap escape ++ '"' :: rest)) :
    ∃ c', quoted? false c = some (t, c') ∧ c'.At total rest := by
  refine quotedFrom?_double h.next (Nat.succ_pos _) ?_
  have hlength := length_le_flatMap escape_ne_nil t
  rw [h.rest_eq, List.length_append, List.length_cons]
  omega

end Written

end RouteModule.Yaml
