import Mathlib.Data.List.TakeWhile
import RouteModule.Proofs.Text.Encoding
import RouteModule.Toml.Quoted

/-!
Texts between quotes are read back from what is written, in all four styles. Between three quotes no
run of quotes is as long as the fence but the one at the end, which the fence goes on; so the first
three quotes in a row are where the text ends.
-/

namespace RouteModule.Toml.Quoted

section Escapes

/-- An escaped character is the character itself, which is plain and neither a quote nor a backslash,
or a backslash with what is read as the character. -/
inductive Escapes (c : Char) : Text → Prop where
  | plain (hplain : isPlain c = true) (hquote : c ≠ '"') (hback : c ≠ '\\') : Escapes c [c]
  | escape {mark : Char} {more : Text}
    (hmark : isBlank mark = false ∧ mark ≠ '\n' ∧ mark ≠ '\r')
    (hread : ∀ rest, readEscape? (mark :: (more ++ rest)) = some (c, rest)) :
    Escapes c ('\\' :: mark :: more)

theorem numbered?_upperHex {c : Char} (h : c.toNat < 16 ^ 4) :
    numbered? (Text.upperHex 4 c.toNat) = some c := by
  have hvalid : c.toNat.isValidChar := c.valid
  rw [numbered?, Text.toNat?_upperHex (by decide) h]
  simp only [Option.bind_eq_bind, Option.bind_some, if_pos hvalid, Char.ofNat_toNat]

theorem escapes_escape (c : Char) : Escapes c (escape c) := by
  unfold escape
  split
  case h_8 hback htab hfeed hform hreturn hquote hslash =>
    split
    · next hcontrol =>
      have hbound : c.toNat < 16 ^ 4 := by
        simp only [isControl, Bool.or_eq_true, Bool.and_eq_true, decide_eq_true_eq, beq_iff_eq]
          at hcontrol
        omega
      refine .escape (by decide) fun rest => ?_
      have htake : (Text.upperHex 4 c.toNat ++ rest).take 4 = Text.upperHex 4 c.toNat := by
        rw [List.take_append_of_le_length (by simp)]
        exact List.take_of_length_le (by simp)
      have hdrop : (Text.upperHex 4 c.toNat ++ rest).drop 4 = rest :=
        List.drop_left' (Text.length_upperHex 4 c.toNat)
      have hlength : ¬ (Text.upperHex 4 c.toNat ++ rest).length < 4 := by simp
      change readEscape? ('u' :: (Text.upperHex 4 c.toNat ++ rest)) = some (c, rest)
      simp only [readEscape?, htake, hdrop, numbered?_upperHex hbound, Option.bind_some,
        if_neg hlength]
    · next hcontrol =>
      have hne : c ≠ '\n' := hfeed
      refine .plain ?_ hquote hslash
      simp [isPlain, hcontrol, hne]
  all_goals exact .escape (by decide) fun rest => rfl

end Escapes

section Lines

variable {t rest : Text} {fuel : Nat}

/-- A text with escapes is read up to the quote behind it. -/
theorem readLine?_escaped (h : t.length < fuel) (rest : Text) :
    readLine? '"' fuel (t.flatMap escape ++ '"' :: rest) = some (t, rest) := by
  induction t generalizing fuel with
  | nil =>
    obtain ⟨fuel, rfl⟩ := Nat.exists_eq_succ_of_ne_zero (Nat.ne_of_gt h)
    simp [readLine?]
  | cons c t ih =>
    obtain ⟨fuel, rfl⟩ := Nat.exists_eq_succ_of_ne_zero (Nat.ne_of_gt (Nat.zero_lt_of_lt h))
    have hrest := ih (Nat.lt_of_succ_lt_succ h)
    rw [List.flatMap_cons, List.append_assoc]
    generalize escape c = e, escapes_escape c = he
    cases he with
    | plain hplain hquote hback =>
      rw [List.singleton_append, readLine?]
      simp [hplain, hquote, hback, hrest]
    | @escape mark more hmark hread =>
      rw [List.cons_append, readLine?]
      simp [hread, hrest]

/-- A text whose characters all stand for themselves is read up to the quote behind it. -/
theorem readLine?_plain (hplain : ∀ c ∈ t, isPlain c = true ∧ c ≠ '\'') (h : t.length < fuel)
    (rest : Text) : readLine? '\'' fuel (t ++ '\'' :: rest) = some (t, rest) := by
  induction t generalizing fuel with
  | nil =>
    obtain ⟨fuel, rfl⟩ := Nat.exists_eq_succ_of_ne_zero (Nat.ne_of_gt h)
    simp [readLine?]
  | cons c t ih =>
    obtain ⟨fuel, rfl⟩ := Nat.exists_eq_succ_of_ne_zero (Nat.ne_of_gt (Nat.zero_lt_of_lt h))
    have hrest := ih (fun d hd => hplain d (List.mem_cons_of_mem c hd)) (Nat.lt_of_succ_lt_succ h)
    obtain ⟨hc, hquote⟩ := hplain c List.mem_cons_self
    rw [List.cons_append, readLine?]
    simp [hc, hquote, hrest]

end Lines

section Runs

variable {q : Char} {e r t rest : Text} {fuel run : Nat}

/-- The quotes at the start of a text, and the text, up to the first other character. -/
abbrev leading (q : Char) (t : Text) : Text := t.takeWhile (· = q)

theorem leading_cons_self (q : Char) (t : Text) : leading q (q :: t) = q :: leading q t := by
  simp [leading]

theorem leading_cons_of_ne {c : Char} (h : c ≠ q) (t : Text) : leading q (c :: t) = [] := by
  simp [leading, h]

/-- A text with fewer quotes at its start than a fence, and something behind them, does not start with
a fence. -/
theorem after?_fence_eq_none (h : (leading q e).length < 3) (hother : ∃ c ∈ e, c ≠ q)
    (rest : Text) : Text.after? (fence q) (e ++ rest) = none := by
  obtain ⟨d, hd, hne⟩ := hother
  cases hafter : Text.after? (fence q) (e ++ rest) with
  | none => rfl
  | some r =>
    have hsplit : e ++ rest = q :: q :: q :: r := Text.eq_append_of_after? hafter
    match e with
    | [] => cases hd
    | [a] =>
      simp only [List.cons_append, List.cons.injEq] at hsplit
      simp only [List.mem_singleton] at hd
      exact absurd (hd.trans hsplit.1) hne
    | [a, b] =>
      simp only [List.cons_append, List.cons.injEq] at hsplit
      simp only [List.mem_cons, List.not_mem_nil, or_false] at hd
      rcases hd with hd | hd
      · exact absurd (hd.trans hsplit.1) hne
      · exact absurd (hd.trans hsplit.2.1) hne
    | a :: b :: c :: e =>
      simp only [List.cons_append, List.cons.injEq] at hsplit
      obtain ⟨ha, hb, hc, -⟩ := hsplit
      rw [ha, hb, hc, leading_cons_self, leading_cons_self, leading_cons_self] at h
      simp only [List.length_cons] at h
      omega

/-- Fewer quotes than a fence has belong to the text if the fence follows them. -/
theorem readLines?_end (hquotes : ∀ c ∈ t, c = q) (h : t.length < 3)
    (hrest : ∀ c ∈ rest.head?, c ≠ q) :
    readLines? q (fuel + 1) (t ++ (fence q ++ rest)) = some (t, rest) := by
  have hstop : rest.takeWhile (· = q) = [] := by
    cases rest with
    | nil => rfl
    | cons c rest => exact leading_cons_of_ne (hrest c rfl) rest
  match t with
  | [] => simp [readLines?, fence, Text.after?, hstop]
  | [a] =>
    obtain rfl : a = q := hquotes a List.mem_cons_self
    simp [readLines?, fence, Text.after?, hstop]
  | [a, b] =>
    obtain rfl : a = q := hquotes a List.mem_cons_self
    obtain rfl : b = a := hquotes b (List.mem_cons_of_mem _ List.mem_cons_self)
    simp [readLines?, fence, Text.after?, hstop]
  | _ :: _ :: _ :: t =>
    simp only [List.length_cons] at h
    omega

/-- A character that stands for itself starts no line break. -/
theorem afterBreak?_plain {c : Char} (h : isPlain c = true) (e : Text) :
    afterBreak? (c :: e) = none := by
  unfold afterBreak?
  split
  · next heq =>
    cases heq
    cases h
  · next heq =>
    cases heq
    cases h
  · rfl

/-- A character that stands for itself belongs to the text if no fence starts there. -/
theorem readLines?_plain {c : Char} (hfence : Text.after? (fence q) (c :: e) = none)
    (hplain : isPlain c = true) (hback : c = '\\' → q ≠ '"')
    (hread : readLines? q fuel e = some (t, rest)) :
    readLines? q (fuel + 1) (c :: e) = some (c :: t, rest) := by
  have hbreak := afterBreak?_plain hplain e
  have hno : ¬ (c = '\\' ∧ q = '"') := fun hc => hback hc.1 hc.2
  rw [readLines?, hfence]
  simp [hno, hbreak, hplain, hread]

/-- A line break belongs to the text. -/
theorem readLines?_break (hfence : Text.after? (fence q) ('\n' :: e) = none)
    (hread : readLines? q fuel e = some (t, rest)) :
    readLines? q (fuel + 1) ('\n' :: e) = some ('\n' :: t, rest) := by
  rw [readLines?, hfence]
  simp [afterBreak?, hread]

/-- An escape between double quotes stands for a character of the text. -/
theorem readLines?_escape {c mark : Char}
    (hmark : isBlank mark = false ∧ mark ≠ '\n' ∧ mark ≠ '\r')
    (hescape : readEscape? (mark :: e) = some (c, r))
    (hread : readLines? '"' fuel r = some (t, rest)) :
    readLines? '"' (fuel + 1) ('\\' :: mark :: e) = some (c :: t, rest) := by
  obtain ⟨hblank, hfeed, hreturn⟩ := hmark
  have hfence : Text.after? (fence '"') ('\\' :: mark :: e) = none := rfl
  have hbreak : afterBreak? (mark :: e) = none := by
    unfold afterBreak?
    split
    · next heq => exact absurd (List.cons.inj heq).1 hfeed
    · next heq => exact absurd (List.cons.inj heq).1 hreturn
    · rfl
  have hstay : List.dropWhile isBlank (mark :: e) = mark :: e := by simp [hblank]
  rw [readLines?, hfence]
  simp [hstay, hbreak, hescape, hread]

theorem leading_eq_self (h : ∀ c ∈ t, c = q) : leading q t = t := by
  rw [leading, List.takeWhile_eq_self_iff]
  simpa using h

end Runs

section Escaped

variable {t rest : Text} {fuel run : Nat}

/-- The escape of anything but a quote starts with no quote. -/
theorem leading_escape {c : Char} (e : Text) : leading '"' (escape c ++ e) = [] := by
  generalize escape c = f, escapes_escape c = hf
  cases hf with
  | plain _ hquote _ => exact leading_cons_of_ne hquote _
  | escape => exact leading_cons_of_ne (by decide) _

/-- Where two quotes stand in front, no third one is written as it is. -/
theorem leading_escapeLines (t : Text) (h : run ≤ 2) :
    run + (leading '"' (escapeLines run t)).length ≤ 2 := by
  induction t generalizing run with
  | nil => simpa [escapeLines] using h
  | cons c t ih =>
    rw [escapeLines]
    split
    · split
      · rw [leading_cons_of_ne (by decide)]
        simpa using h
      · have hnext := ih (show run + 1 ≤ 2 by omega)
        rw [leading_cons_self, List.length_cons]
        omega
    · split
      · rw [leading_cons_of_ne (by decide)]
        simpa using h
      · rw [leading_escape]
        simpa using h

/-- What is written as nothing but quotes is what is written. -/
theorem escapeLines_eq_self (h : ∀ c ∈ escapeLines run t, c = '"') : escapeLines run t = t := by
  induction t generalizing run with
  | nil => rfl
  | cons c t ih =>
    rw [escapeLines] at h ⊢
    split at h
    · next hc =>
      rw [if_pos hc]
      split at h
      · exact absurd (h '\\' List.mem_cons_self) (by decide)
      · next hrun => rw [if_neg hrun, ih fun d hd => h d (List.mem_cons_of_mem _ hd), hc]
    · next hc =>
      split at h
      · exact absurd (h '\n' List.mem_cons_self) (by decide)
      · generalize escape c = e, escapes_escape c = he at h
        cases he with
        | plain _ hquote _ => exact absurd (h c List.mem_cons_self) hquote
        | escape => exact absurd (h '\\' List.mem_cons_self) (by decide)

/-- A text between three double quotes is read up to the fence behind it, whatever quotes were read
before. -/
theorem readLines?_escaped (hrun : run ≤ 2) (h : t.length < fuel)
    (hrest : ∀ c ∈ rest.head?, c ≠ '"') :
    readLines? '"' fuel (escapeLines run t ++ (fence '"' ++ rest)) = some (t, rest) := by
  induction t generalizing fuel run with
  | nil =>
    obtain ⟨fuel, rfl⟩ := Nat.exists_eq_succ_of_ne_zero (Nat.ne_of_gt h)
    exact readLines?_end (fun c hc => absurd hc List.not_mem_nil) (Nat.zero_lt_succ 2) hrest
  | cons c t ih =>
    obtain ⟨fuel, rfl⟩ := Nat.exists_eq_succ_of_ne_zero (Nat.ne_of_gt (Nat.zero_lt_of_lt h))
    have hlead := leading_escapeLines (c :: t) hrun
    by_cases hother : ∃ d ∈ escapeLines run (c :: t), d ≠ '"'
    case neg =>
      have hquotes : ∀ d ∈ escapeLines run (c :: t), d = '"' := fun d hd =>
        Decidable.byContradiction fun hne => hother ⟨d, hd, hne⟩
      have hself := escapeLines_eq_self hquotes
      rw [hself] at hquotes hlead ⊢
      rw [leading_eq_self hquotes] at hlead
      exact readLines?_end hquotes (by omega) hrest
    case pos =>
      have hfence := after?_fence_eq_none (by omega) hother (fence '"' ++ rest)
      have hnext : ∀ run ≤ 2, readLines? '"' fuel (escapeLines run t ++ (fence '"' ++ rest)) =
          some (t, rest) := fun run hrun => ih hrun (Nat.lt_of_succ_lt_succ h)
      rw [escapeLines] at hfence ⊢
      split at hfence
      · next hc =>
        rw [if_pos hc, hc]
        split at hfence
        · next hrun =>
          rw [if_pos hrun]
          exact readLines?_escape (by decide) rfl (hnext 0 (by decide))
        · next hrun =>
          rw [if_neg hrun]
          exact readLines?_plain hfence (by decide) (by decide) (hnext (run + 1) (by omega))
      · next hc =>
        rw [if_neg hc]
        split at hfence
        · next hfeed =>
          rw [if_pos hfeed, hfeed]
          exact readLines?_break hfence (hnext 0 (by decide))
        · next hfeed =>
          rw [if_neg hfeed, List.append_assoc]
          rw [List.append_assoc] at hfence
          generalize escape c = e, escapes_escape c = he at hfence
          cases he with
          | plain hplain _ hback =>
            exact readLines?_plain hfence hplain (fun he => absurd he hback) (hnext 0 (by decide))
          | escape hmark hread =>
            exact readLines?_escape hmark (hread _) (hnext 0 (by decide))

end Escaped

section Style

variable {q : Char} {t rest : Text} {fuel run : Nat}

/-- A longer run in front makes no run shorter. -/
theorem longestRun_mono (q : Char) (t : Text) {m n : Nat} (h : m ≤ n) :
    longestRun q m t ≤ longestRun q n t := by
  induction t generalizing m n with
  | nil => exact h
  | cons c t ih =>
    rw [longestRun, longestRun]
    split
    · exact ih (Nat.succ_le_succ h)
    · omega

theorem add_leading_le (q : Char) (t : Text) (run : Nat) :
    run + (leading q t).length ≤ longestRun q run t := by
  induction t generalizing run with
  | nil => exact Nat.le_refl run
  | cons c t ih =>
    rw [longestRun]
    split
    · next hc =>
      have hnext := ih (run + 1)
      rw [hc, leading_cons_self, List.length_cons]
      omega
    · next hc =>
      rw [leading_cons_of_ne hc, List.length_nil]
      omega

theorem longestRun_tail (q c : Char) (t : Text) :
    longestRun q 0 t ≤ longestRun q 0 (c :: t) := by
  rw [longestRun]
  split
  · exact longestRun_mono q t (Nat.zero_le 1)
  · omega

/-- A text without a run has none of the character. -/
theorem not_mem_of_longestRun (h : longestRun q 0 t = 0) : q ∉ t := by
  induction t with
  | nil => exact List.not_mem_nil
  | cons c t ih =>
    have htail := longestRun_tail q c t
    have hlead := add_leading_le q (c :: t) 0
    rw [List.mem_cons, not_or]
    refine ⟨?_, ih (by omega)⟩
    rintro rfl
    rw [leading_cons_self, List.length_cons] at hlead
    omega

/-- A text without controls and without long runs is read up to the fence behind it. -/
theorem readLines?_kept (hq : q ≠ '"') (hcontrol : ∀ c ∈ t, isControl c = false)
    (hruns : longestRun q 0 t < 3) (h : t.length < fuel) (hrest : ∀ c ∈ rest.head?, c ≠ q) :
    readLines? q fuel (t ++ (fence q ++ rest)) = some (t, rest) := by
  induction t generalizing fuel with
  | nil =>
    obtain ⟨fuel, rfl⟩ := Nat.exists_eq_succ_of_ne_zero (Nat.ne_of_gt h)
    exact readLines?_end (fun c hc => absurd hc List.not_mem_nil) (Nat.zero_lt_succ 2) hrest
  | cons c t ih =>
    obtain ⟨fuel, rfl⟩ := Nat.exists_eq_succ_of_ne_zero (Nat.ne_of_gt (Nat.zero_lt_of_lt h))
    have hlead := add_leading_le q (c :: t) 0
    by_cases hother : ∃ d ∈ c :: t, d ≠ q
    case neg =>
      have hquotes : ∀ d ∈ c :: t, d = q := fun d hd =>
        Decidable.byContradiction fun hne => hother ⟨d, hd, hne⟩
      rw [leading_eq_self hquotes] at hlead
      exact readLines?_end hquotes (by omega) hrest
    case pos =>
      have hfence := after?_fence_eq_none (by omega) hother (fence q ++ rest)
      have htail := longestRun_tail q c t
      have hnext := ih (fun d hd => hcontrol d (List.mem_cons_of_mem c hd)) (by omega)
        (Nat.lt_of_succ_lt_succ h)
      by_cases hc : c = '\n'
      · subst hc
        exact readLines?_break hfence hnext
      · have hplain : isPlain c = true := by
          simp [isPlain, hcontrol c List.mem_cons_self, hc]
        exact readLines?_plain hfence hplain (fun _ => hq) hnext

theorem length_le_escapeLines (t : Text) (run : Nat) : t.length ≤ (escapeLines run t).length := by
  induction t generalizing run with
  | nil => simp
  | cons c t ih =>
    have hnext := ih (run + 1)
    have hzero := ih 0
    rw [escapeLines]
    split
    · split <;> simp only [List.length_cons] <;> omega
    · split
      · simp only [List.length_cons]
        omega
      · have hone : 1 ≤ (escape c).length := by
          generalize escape c = e, escapes_escape c = he
          cases he <;> simp
        rw [List.length_append, List.length_cons]
        omega

theorem length_le_flatMap_escape (t : Text) : t.length ≤ (t.flatMap escape).length := by
  induction t with
  | nil => simp
  | cons c t ih =>
    have hone : 1 ≤ (escape c).length := by
      generalize escape c = e, escapes_escape c = he
      cases he <;> simp
    rw [List.flatMap_cons, List.length_append, List.length_cons]
    omega

/-- What stands behind an opening fence is read from the line of the text. -/
theorem body_lead (t : Text) {e : Text} (h : '\n' ∉ t → afterBreak? e = none) :
    (afterBreak? (lead t ++ e)).getD (lead t ++ e) = e := by
  unfold lead
  split
  · rfl
  · next hfeed =>
    have hnone : afterBreak? e = none := h (by simpa using hfeed)
    rw [List.nil_append, hnone]
    rfl

/-- What single quotes ask of a text on one line. -/
theorem of_eq_literal (h : Style.of t = .literal) :
    t ≠ [] ∧ ∀ c ∈ t, isPlain c = true ∧ c ≠ '\'' := by
  simp only [Style.of, Bool.and_eq_true, Bool.not_eq_true', decide_eq_true_eq] at h
  split at h
  · cases h
  · next hbasic =>
    split at h
    · next hliteral =>
      obtain ⟨⟨hcontrol, hruns⟩, hfeed⟩ := hliteral
      refine ⟨?_, fun c hc => ⟨?_, ?_⟩⟩
      · rintro rfl
        exact hbasic (by decide)
      · have hc' := List.any_eq_false.1 hcontrol c hc
        have hne : c ≠ '\n' := by
          rintro rfl
          exact absurd hc (by simpa using hfeed)
        simp [isPlain, hc', hne]
      · rintro rfl
        exact not_mem_of_longestRun hruns hc
    · split at h
      · cases h
      · split at h
        · cases h
        · split at h <;> cases h

/-- What three single quotes ask of a text. -/
theorem of_eq_literalLines (h : Style.of t = .literalLines) :
    (∀ c ∈ t, isControl c = false) ∧ longestRun '\'' 0 t < 3 := by
  simp only [Style.of, Bool.and_eq_true, Bool.not_eq_true', decide_eq_true_eq] at h
  split at h
  · cases h
  · split at h
    · cases h
    · split at h
      · cases h
      · split at h
        · next hlines => exact ⟨fun c hc => by simpa using List.any_eq_false.1 hlines.1 c hc, hlines.2⟩
        · split at h <;> cases h

/-- One quote does not start a fence of double quotes, if nothing or something else than a quote comes
next. -/
theorem after?_fence_quote (hrest : ∀ c ∈ rest.head?, c ≠ '"') :
    Text.after? (fence '"') ('"' :: (t.flatMap escape ++ '"' :: rest)) = none := by
  cases t with
  | nil =>
    cases rest with
    | nil => rfl
    | cons c rest =>
      have hc : c ≠ '"' := hrest c rfl
      simp [fence, Text.after?, hc.symm]
  | cons c t =>
    rw [List.flatMap_cons, List.append_assoc]
    generalize escape c = e, escapes_escape c = he
    cases he with
    | plain _ hquote _ => simp [fence, Text.after?, hquote.symm]
    | escape => rfl

/-- A text between two double quotes is read behind the first of them. -/
theorem read?_basic (t : Text) (hrest : ∀ c ∈ rest.head?, c ≠ '"') :
    read? ('"' :: (t.flatMap escape ++ '"' :: rest)) = some (t, rest) := by
  have hother : Text.after? (fence '\'') ('"' :: (t.flatMap escape ++ '"' :: rest)) = none := rfl
  have hescape := length_le_flatMap_escape t
  rw [read?, after?_fence_quote hrest, hother]
  refine readLine?_escaped ?_ rest
  rw [List.length_append]
  omega

/-- A text between two single quotes is read behind the first of them. -/
theorem read?_literal (hne : t ≠ []) (hplain : ∀ c ∈ t, isPlain c = true ∧ c ≠ '\'') (rest : Text) :
    read? ('\'' :: (t ++ '\'' :: rest)) = some (t, rest) := by
  obtain ⟨c, u, rfl⟩ := List.exists_cons_of_ne_nil hne
  have hquote : ('\'' : Char) ≠ c := (hplain c List.mem_cons_self).2.symm
  have hfence : Text.after? (fence '\'') ('\'' :: (c :: u ++ '\'' :: rest)) = none := by
    simp [fence, Text.after?, hquote]
  have hother : Text.after? (fence '"') ('\'' :: (c :: u ++ '\'' :: rest)) = none := rfl
  rw [read?, hother, hfence]
  refine readLine?_plain hplain ?_ rest
  rw [List.length_append]
  omega

/-- No line break is written for a character that is none. -/
theorem afterBreak?_escapeLines {c : Char} (hc : c ≠ '\n') (t e : Text) :
    afterBreak? (escapeLines run (c :: t) ++ e) = none := by
  rw [escapeLines, if_neg hc]
  split
  · split <;> rfl
  · rw [List.append_assoc]
    generalize escape c = f, escapes_escape c = hf
    cases hf with
    | plain hplain _ _ => exact afterBreak?_plain hplain _
    | escape => rfl

/-- A text between three double quotes is read behind the first of them. -/
theorem read?_basicLines (t : Text) (hrest : ∀ c ∈ rest.head?, c ≠ '"') :
    read? (fence '"' ++ (lead t ++ (escapeLines 0 t ++ (fence '"' ++ rest)))) = some (t, rest) := by
  have hlines := length_le_escapeLines t 0
  have hlead : '\n' ∉ t → afterBreak? (escapeLines 0 t ++ (fence '"' ++ rest)) = none := by
    intro hfeed
    cases t with
    | nil => rfl
    | cons c t => exact afterBreak?_escapeLines (fun he => hfeed (he ▸ List.mem_cons_self)) t _
  rw [read?, Text.after?_append]
  simp only [body_lead t hlead]
  refine readLines?_escaped (by decide) ?_ hrest
  simp only [List.length_append]
  omega

/-- A text between three single quotes is read behind the first of them. -/
theorem read?_literalLines (hcontrol : ∀ c ∈ t, isControl c = false)
    (hruns : longestRun '\'' 0 t < 3) (hrest : ∀ c ∈ rest.head?, c ≠ '\'') :
    read? (fence '\'' ++ (lead t ++ (t ++ (fence '\'' ++ rest)))) = some (t, rest) := by
  have hother : Text.after? (fence '"')
      (fence '\'' ++ (lead t ++ (t ++ (fence '\'' ++ rest)))) = none := rfl
  have hlead : '\n' ∉ t → afterBreak? (t ++ (fence '\'' ++ rest)) = none := by
    intro hfeed
    cases t with
    | nil => rfl
    | cons c t =>
      have hne : c ≠ '\n' := fun he => hfeed (he ▸ List.mem_cons_self)
      have hplain : isPlain c = true := by simp [isPlain, hcontrol c List.mem_cons_self, hne]
      exact afterBreak?_plain hplain _
  rw [read?, hother, Text.after?_append]
  simp only [body_lead t hlead]
  refine readLines?_kept (by decide) hcontrol hruns ?_ hrest
  simp only [List.length_append]
  omega

/-- What is written for a text is read as that text, up to anything that is no quote. -/
theorem read?_render (t : Text) (hrest : ∀ c ∈ rest.head?, c ≠ '"' ∧ c ≠ '\'') :
    read? (render t ++ rest) = some (t, rest) := by
  have hdouble : ∀ c ∈ rest.head?, c ≠ '"' := fun c hc => (hrest c hc).1
  have hsingle : ∀ c ∈ rest.head?, c ≠ '\'' := fun c hc => (hrest c hc).2
  unfold render
  cases hstyle : Style.of t with
  | basic => simpa using read?_basic t hdouble
  | literal =>
    obtain ⟨hne, hplain⟩ := of_eq_literal hstyle
    simpa using read?_literal hne hplain rest
  | basicLines => simpa using read?_basicLines t hdouble
  | literalLines =>
    obtain ⟨hcontrol, hruns⟩ := of_eq_literalLines hstyle
    simpa using read?_literalLines hcontrol hruns hsingle

end Style

end RouteModule.Toml.Quoted
