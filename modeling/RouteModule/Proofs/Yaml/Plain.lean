import RouteModule.Proofs.Yaml.Cursor

/-!
Plain scalars are read back. A plain scalar is read word by word, and the spaces between two words
are kept when the second one is found to belong to it. No word but the last one may look like the
end, and the conditions under which a text is written plain exclude that.
-/

namespace RouteModule.Yaml

section Pairs

variable {p q : Char → Bool}

theorem hasPair_cons (c : Char) (t : Text) :
    hasPair p q (c :: t) = (t.head?.any (fun d => p c && q d) || hasPair p q t) := by
  cases t with
  | nil => rfl
  | cons d t => rfl

theorem hasPair_of_append {front t : Text} (h : hasPair p q (front ++ t) = false) :
    hasPair p q t = false := by
  induction front with
  | nil => exact h
  | cons c front ih =>
    rw [List.cons_append, hasPair_cons, Bool.or_eq_false_iff] at h
    exact ih h.2

/-- What stands behind a run of the first kind is not of the second kind, if there is no pair. -/
theorem behind_run {run t : Text} (hne : run ≠ []) (hrun : ∀ c ∈ run, p c = true)
    (h : hasPair p q (run ++ t) = false) : ∀ d ∈ t.head?, q d = false := by
  intro d hd
  obtain ⟨before, last, rfl⟩ := (List.eq_nil_or_concat run).resolve_left hne
  have hlast : p last = true := hrun last (by simp)
  rw [List.concat_eq_append, List.append_assoc] at h
  have hpair := hasPair_of_append h
  rw [List.singleton_append, hasPair_cons, Bool.or_eq_false_iff, hd, Option.any_some, hlast,
    Bool.true_and] at hpair
  exact hpair.1

end Pairs

theorem atGap_append {t : Text} (h : atGap t = false) (tail : Text) :
    atGap (t ++ tail) = false := by
  cases t with
  | nil => cases h
  | cons c t => exact h

/-- A plain scalar that has come to this text goes on to its end. -/
structure Continues (t : Text) : Prop where
  line : ∀ c ∈ t, isBlank c = isSpace c ∧ isBreak c = false
  keyMark : hasKeyMark t = false
  comment : hasPair (fun c => isBlank c || isBreak c) (· == '#') t = false
  ending : t.getLast?.any isSpace = false

namespace Continues

variable {front t : Text}

theorem of_append (h : Continues (front ++ t)) : Continues t where
  line c hc := h.line c (List.mem_append_right front hc)
  keyMark := by
    have hmark := h.keyMark
    clear h
    induction front with
    | nil => exact hmark
    | cons c front ih =>
      rw [List.cons_append, hasKeyMark, Bool.or_eq_false_iff] at hmark
      exact ih hmark.2
  comment := hasPair_of_append h.comment
  ending := by
    cases t with
    | nil => rfl
    | cons c t =>
      have hending := h.ending
      rwa [List.getLast?_append, List.getLast?_cons, Option.some_or, ← List.getLast?_cons]
        at hending

/-- A text that does not start with a space starts with a word. -/
theorem exists_word (h : Continues t) (hne : t ≠ []) (hstart : ∀ d ∈ t.head?, isSpace d = false) :
    ∃ word u, t = word ++ u ∧ word ≠ [] ∧
      (∀ d ∈ word, isBlank d = false ∧ isBreak d = false) ∧ ∀ d ∈ u.head?, isSpace d = true := by
  obtain ⟨c, word, u, rfl, hword, hu⟩ := exists_first_run (p := fun d => !isSpace d) hne
    fun d hd => by simpa using hstart d hd
  refine ⟨c :: word, u, rfl, List.cons_ne_nil c word, ?_, fun d hd => by simpa using hu d hd⟩
  intro d hd
  obtain ⟨hblank, hbreak⟩ := h.line d (List.mem_append_left u hd)
  exact ⟨by simpa [hblank] using hword d hd, hbreak⟩

/-- Behind spaces there is another word, and it does not start a comment. -/
theorem exists_gap (h : Continues t) (hne : t ≠ []) (hspace : ∀ d ∈ t.head?, isSpace d = true) :
    ∃ spaces u, t = ' ' :: spaces ++ u ∧ (∀ d ∈ ' ' :: spaces, isSpace d = true) ∧ u ≠ [] ∧
      ∀ d ∈ u.head?, isSpace d = false ∧ d ≠ '#' := by
  obtain ⟨c, spaces, u, rfl, hspaces, hu⟩ := exists_first_run hne hspace
  obtain rfl : c = ' ' := by simpa [isSpace] using hspaces c List.mem_cons_self
  refine ⟨spaces, u, rfl, hspaces, ?_, ?_⟩
  · rintro rfl
    have hending := h.ending
    rw [List.append_nil, List.getLast?_eq_some_getLast (List.cons_ne_nil _ _), Option.any_some,
      hspaces _ (List.getLast_mem _)] at hending
    cases hending
  · intro d hd
    have hgap : ∀ e ∈ ' ' :: spaces, (isBlank e || isBreak e) = true := by
      intro e he
      obtain rfl : e = ' ' := by simpa [isSpace] using hspaces e he
      rfl
    exact ⟨hu d hd, by simpa using behind_run (List.cons_ne_nil _ _) hgap h.comment d hd⟩

end Continues

section Reading

variable {total fuel : Nat} {c : Cursor} {t rest : Text}

theorem plainRun?_break (rest : Text) : plainRun? false ('\n' :: rest) = some 0 := rfl

theorem plainRun?_space (rest : Text) : plainRun? false (' ' :: rest) = some 0 := rfl

theorem plainRun?_colon (rest : Text) : plainRun? false (':' :: ' ' :: rest) = some 0 := rfl

/-- A run without gaps goes on up to its end, as long as no colon in it marks a key. -/
theorem plainRun?_append {run u tail : Text}
    (hrun : ∀ d ∈ run, isBlank d = false ∧ isBreak d = false)
    (hmark : hasKeyMark (run ++ u) = false) (htail : plainRun? false (u ++ tail) = some 0) :
    plainRun? false (run ++ (u ++ tail)) = some run.length := by
  induction run with
  | nil => exact htail
  | cons d run ih =>
    rw [List.cons_append, hasKeyMark, Bool.or_eq_false_iff] at hmark
    obtain ⟨hcolon, hmark⟩ := hmark
    obtain ⟨hblank, hbreak⟩ := hrun d List.mem_cons_self
    have hrest := ih (fun e he => hrun e (List.mem_cons_of_mem d he)) hmark
    have hstray : isStrayColon false (d :: (run ++ (u ++ tail))) = false := by
      unfold isStrayColon
      split <;> rfl
    have hends : endsPlain false (d :: (run ++ (u ++ tail))) = false := by
      unfold endsPlain
      split
      · next heq =>
        obtain ⟨rfl, rfl⟩ := List.cons.inj heq
        rw [← List.append_assoc]
        exact atGap_append (by simpa using hcolon) tail
      · rfl
      · next heq => cases heq
    rw [List.cons_append, plainRun?]
    simp only [hblank, hbreak, hstray, hends, Bool.or_self, Bool.false_eq_true, if_false, hrest,
      Option.map_some, List.length_cons]

theorem atAnyMarker_of_column (h : 0 < c.column) : c.atAnyMarker = false := by
  have hcolumn : (c.column == 0) = false := by
    rw [beq_eq_false_iff_ne]
    omega
  simp [Cursor.atAnyMarker, Cursor.atMarker, hcolumn]

/-- One word of a plain scalar, and what is read behind it. -/
theorem plainFrom?_word {word tail : Text} {g : Gap} (indent : Int) (fuel : Nat) (acc : Text)
    (hne : word ≠ []) (hmarker : c.atAnyMarker = false) (hcomment : word.head? ≠ some '#')
    (h : c.At total (word ++ tail)) (hrun : plainRun? false (word ++ tail) = some word.length) :
    plainFrom? false indent (fuel + 1) acc g c =
      if atGap tail && !tail.isEmpty then do
        let (gap, c) ← Gap.read (fun c => indent ≤ c.column) tail.length Gap.none
          (c.skip word.length)
        if (c.column : Int) < indent then return (acc ++ g.folded ++ word, gap.broken, c)
        else plainFrom? false indent fuel (acc ++ g.folded ++ word) gap c
      else some (acc ++ g.folded ++ word, false, c.skip word.length) := by
  have hhead : ¬ c.rest.head? = some '#' := by
    rw [h.rest_eq]
    cases word with
    | nil => exact absurd rfl hne
    | cons d word => exact hcomment
  have hpositive : word.length ≠ 0 := by simpa using hne
  rw [h.rest_eq] at hhead
  rw [plainFrom?, hmarker]
  simp only [h.rest_eq, hhead, if_false, hrun, Option.bind_eq_bind, Option.bind_some, hpositive,
    h.skip.rest_eq, List.take_left' rfl, Bool.not_false, Bool.true_and, decide_eq_true_eq]
  rfl

/-- Behind a line feed that ends a scalar, nothing belongs to the gap. -/
theorem Gap.read_feed (ok : Cursor → Bool) (fuel : Nat) (h : c.At total ('\n' :: rest))
    (hrest : StartsSolid rest) :
    ∃ c', Gap.read ok (fuel + 1) Gap.none c = some (⟨[], ['\n'], [], true⟩, c') ∧
      c'.At total rest ∧ c'.column = 0 := by
  obtain ⟨c', hat, hcolumn, hstep⟩ := Gap.read_break ok [] [] [] (by decide) (by decide) fuel h
  exact ⟨c', by rw [Gap.none, hstep, Gap.read_solid ok hat hrest], hat, hcolumn⟩

/-- A scalar is read from the start of a word up to the end of the line. -/
theorem plainFrom?_line (acc blanks : Text) (hcontinues : Continues t) (hne : t ≠ [])
    (hstart : ∀ d ∈ t.head?, isSpace d = false ∧ d ≠ '#') (hrest : StartsSolid rest)
    (h : c.At total (t ++ '\n' :: rest)) (hcolumn : 0 < c.column) (hfuel : t.length < fuel) :
    ∃ c', plainFrom? false 1 fuel acc ⟨blanks, [], [], false⟩ c =
        some (acc ++ blanks ++ t, true, c') ∧
      c'.At total rest ∧ c'.column = 0 := by
  induction fuel generalizing t acc blanks c with
  | zero => exact absurd hfuel (Nat.not_lt_zero _)
  | succ fuel ih =>
    obtain ⟨word, u, rfl, hword, hsolid, hu⟩ :=
      hcontinues.exists_word hne fun d hd => (hstart d hd).1
    have hcomment : word.head? ≠ some '#' := by
      obtain ⟨d, word, rfl⟩ := List.exists_cons_of_ne_nil hword
      simpa using (hstart d rfl).2
    have hat : c.At total (word ++ (u ++ '\n' :: rest)) := by rwa [List.append_assoc] at h
    have hskip := hat.skip
    have hcolumn' : 0 < (c.skip word.length).column := Nat.add_pos_left hcolumn _
    have hstep := fun htail => plainFrom?_word 1 fuel acc hword (atAnyMarker_of_column hcolumn)
      hcomment hat (g := ⟨blanks, [], [], false⟩)
      (plainRun?_append hsolid hcontinues.keyMark htail)
    generalize c.skip word.length = c₁ at hskip hcolumn' hstep
    by_cases hlast : u = []
    case pos =>
      -- the line ends behind the word, and the next one is not indented
      subst hlast
      obtain ⟨c', hgap, hat', hzero⟩ := Gap.read_feed (fun c => decide ((1 : Int) ≤ c.column))
        rest.length hskip hrest
      refine ⟨c', ?_, hat', hzero⟩
      have hend : ((c'.column : Int) < 1) = True := by simp [hzero]
      rw [hstep (plainRun?_break rest)]
      simp only [List.nil_append, atGap, List.isEmpty_cons, isBreak, List.length_cons]
      rw [hgap]
      simp only [Option.bind_eq_bind, Option.bind_some, hend, if_true, List.append_nil]
      rfl
    case neg =>
      obtain ⟨spaces, v, rfl, hall, hv, hnext⟩ := hcontinues.of_append.exists_gap hlast hu
      have hrest' : StartsSolid (v ++ '\n' :: rest) := by
        intro d hd
        obtain ⟨f, v, rfl⟩ := List.exists_cons_of_ne_nil hv
        obtain rfl : f = d := Option.some.inj hd
        obtain ⟨hblank, hbreak⟩ := hcontinues.line f (by simp)
        exact ⟨hblank.trans (hnext f rfl).1, hbreak⟩
      have hat' : c₁.At total ((' ' :: spaces) ++ (v ++ '\n' :: rest)) := by
        rwa [List.append_assoc] at hskip
      obtain ⟨c₂, hgap, hat₂, hcolumn₂⟩ := Gap.read_spaces
        (fun c => decide ((1 : Int) ≤ c.column)) [] [] [] hall hrest' hat'
        (show (' ' :: spaces).length ≤ (' ' :: spaces ++ v ++ '\n' :: rest).length by simp)
      have hcontinues₂ : Continues v := by
        rw [← List.append_assoc] at hcontinues
        exact hcontinues.of_append
      obtain ⟨c', hread, hat₃, hzero⟩ := ih (acc ++ blanks ++ word) (' ' :: spaces) hcontinues₂ hv
        hnext hat₂ (by omega) (by simp only [List.length_append, List.length_cons] at hfuel; omega)
      refine ⟨c', ?_, hat₃, hzero⟩
      have hgo : ¬ (c₂.column : Int) < 1 := by omega
      rw [List.nil_append] at hgap
      rw [hstep (plainRun?_space _), Gap.none, hgap]
      have hinside : (atGap (' ' :: spaces ++ v ++ '\n' :: rest) &&
          !(' ' :: spaces ++ v ++ '\n' :: rest).isEmpty) = true := rfl
      have hfold : (⟨blanks, [], [], false⟩ : Gap).folded = blanks := rfl
      simp only [hinside, if_true, Option.bind_eq_bind, Option.bind_some, hgo, if_false, hfold,
        hread]
      simp only [List.append_assoc]

end Reading

section Keys

variable {total : Nat} {c : Cursor} {d : Char} {key rest : Text}

theorem isAlpha_ne {e : Char} (h : d.isAlpha = true) (he : e.isAlpha = false) : d ≠ e := by
  rintro rfl
  rw [h] at he
  cases he

theorem isBlank_of_isAlpha (h : d.isAlpha = true) : isBlank d = false := by
  simp [isBlank, isAlpha_ne h (show ' '.isAlpha = false by decide),
    isAlpha_ne h (show '\t'.isAlpha = false by decide)]

theorem isBreak_of_isAlpha (h : d.isAlpha = true) : isBreak d = false := by
  have hcode : ∀ e : Char, e.isAlpha = false → d.toNat ≠ e.toNat := fun e he hcode =>
    isAlpha_ne h he (Char.toNat_inj.1 hcode)
  have hnext : d.toNat ≠ 0x85 := hcode '\u0085' (by decide)
  have hline : d.toNat ≠ 0x2028 := hcode '\u2028' (by decide)
  have hparagraph : d.toNat ≠ 0x2029 := hcode '\u2029' (by decide)
  simp [isBreak, isAlpha_ne h (show '\n'.isAlpha = false by decide),
    isAlpha_ne h (show '\r'.isAlpha = false by decide), hnext, hline, hparagraph]

/-- No marker of documents stands before a letter. -/
theorem atAnyMarker_of_isAlpha (h : c.At total (d :: rest)) (hd : d.isAlpha = true) :
    c.atAnyMarker = false := by
  have hdash : d ≠ '-' := isAlpha_ne hd (by decide)
  have hdot : d ≠ '.' := isAlpha_ne hd (by decide)
  simp [Cursor.atAnyMarker, Cursor.atMarker, h.rest_eq, hdash, hdot]

theorem hasKeyMark_of_isAlpha (h : ∀ e ∈ key, e.isAlpha = true) : hasKeyMark key = false := by
  induction key with
  | nil => rfl
  | cons e key ih =>
    have hcolon : (e == ':') = false :=
      beq_eq_false_iff_ne.2 (isAlpha_ne (h e List.mem_cons_self) (by decide))
    rw [hasKeyMark, hcolon, Bool.false_and, Bool.false_or]
    exact ih fun f hf => h f (List.mem_cons_of_mem e hf)

/-- A key is read up to the colon behind it. -/
theorem plain?_key (indent : Int) (hne : key ≠ []) (hkey : ∀ d ∈ key, d.isAlpha = true)
    (h : c.At total (key ++ ':' :: ' ' :: rest)) :
    plain? false indent c = some (key, false, c.skip key.length) := by
  obtain ⟨d, key, rfl⟩ := List.exists_cons_of_ne_nil hne
  have hd := hkey d List.mem_cons_self
  have hcomment : (d :: key).head? ≠ some '#' := by
    simpa using isAlpha_ne hd (show '#'.isAlpha = false by decide)
  have hmark : hasKeyMark ((d :: key) ++ []) = false := by
    rw [List.append_nil]
    exact hasKeyMark_of_isAlpha hkey
  have hrun := plainRun?_append
    (fun e he => ⟨isBlank_of_isAlpha (hkey e he), isBreak_of_isAlpha (hkey e he)⟩) hmark
    (plainRun?_colon rest)
  rw [plain?, plainFrom?_word indent _ [] hne (atAnyMarker_of_isAlpha h hd) hcomment h hrun]
  rfl

end Keys

section Written

/-- The conditions under which a text can be written plain. -/
structure IsPlain (t : Text) : Prop where
  printable : t.all isPrintable = true
  unmarked : startsMarked t = false
  uncut : isCutShort t = false
  even : isRagged t = false

namespace IsPlain

variable {t rest : Text}

theorem of_style (h : TextStyle.of t = .plain) : IsPlain t := by
  unfold TextStyle.of at h
  split at h
  · split at h <;> cases h
  · split at h
    · cases h
    · next hspecial =>
      split at h
      · cases h
      · next hother =>
        simp only [isSpecial, Bool.or_eq_true, not_or, Bool.not_eq_true, Bool.not_eq_false']
          at hspecial hother
        exact ⟨by simpa using hspecial.1.1, hother.1.1.2, hother.1.2, hother.2⟩

theorem ne_nil (h : IsPlain t) : t ≠ [] := by
  rintro rfl
  exact absurd h.unmarked (by decide)

theorem isPrintable (h : IsPlain t) : ∀ d ∈ t, Yaml.isPrintable d = true :=
  List.all_eq_true.1 h.printable

theorem continues (h : IsPlain t) : Continues t := by
  have huncut := h.uncut
  have heven := h.even
  simp only [isCutShort, isRagged, Bool.or_eq_false_iff] at huncut heven
  have hbreak := List.any_eq_false.1 heven.1.1
  exact ⟨fun d hd => ⟨isBlank_eq_isSpace (h.isPrintable d hd), by simpa using hbreak d hd⟩,
    huncut.1, huncut.2, heven.2⟩

/-- A plain scalar starts with no space and none of the marks of other tokens. -/
theorem head (h : IsPlain t) {d : Char} (hd : d ∈ t.head?) :
    isSpace d = false ∧ d ∉ "#,[]\x7b\x7d&*!|>'\"%@\x60".toList := by
  obtain ⟨e, t, rfl⟩ := List.exists_cons_of_ne_nil h.ne_nil
  obtain rfl : e = d := Option.some.inj hd
  have heven := h.even
  have hunmarked := h.unmarked
  simp only [isRagged, startsMarked, Bool.or_eq_false_iff] at heven hunmarked
  exact ⟨heven.1.2, by simpa using hunmarked.2.1⟩

/-- Behind an indicator in front a plain scalar has no gap. -/
theorem behind_indicator {d : Char} (h : IsPlain (d :: t)) (hd : d = '-' ∨ d = '?' ∨ d = ':') :
    atGap t = false := by
  have hunmarked := h.unmarked
  have hkeyMark := h.continues.keyMark
  simp only [startsMarked, Bool.or_eq_false_iff] at hunmarked
  rw [hasKeyMark, Bool.or_eq_false_iff] at hkeyMark
  rcases hd with rfl | rfl | rfl
  · simpa using hunmarked.2.2
  · simpa using hunmarked.2.2
  · simpa using hkeyMark.1

/-- A plain scalar that is the value of an entry is read up to the end of its line. -/
theorem read {total : Nat} {c : Cursor} (h : IsPlain t) (hrest : StartsSolid rest)
    (hat : c.At total (t ++ '\n' :: rest)) (hcolumn : 0 < c.column) :
    ∃ c', plain? false 1 c = some (t, true, c') ∧ c'.At total rest ∧ c'.column = 0 := by
  refine plainFrom?_line [] [] h.continues h.ne_nil ?_ hrest hat hcolumn ?_
  · intro d hd
    obtain ⟨hspace, hmark⟩ := h.head hd
    refine ⟨hspace, ?_⟩
    rintro rfl
    exact hmark (by decide)
  · rw [hat.rest_eq, List.length_append]
    omega

end IsPlain

end Written

end RouteModule.Yaml
