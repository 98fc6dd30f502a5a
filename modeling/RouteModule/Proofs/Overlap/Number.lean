import RouteModule.Proofs.Json.Notation
import RouteModule.Yaml.Plain

/-!
What YAML makes of the numbers of JSON. Both read the same parts; they differ where an integer is
negative zero or needs more than 64 bits, where a number is out of range, and in how they round: YAML
takes the nearest floating point number.
-/

namespace RouteModule.Yaml

open Json (Numeral Exponent numberNode)

variable {n : Numeral}

section Parts

theorem tail_eq_nil : n.tail = [] ↔ n.places = [] ∧ n.exponent = none := by
  unfold Numeral.tail
  constructor
  · intro htail
    obtain ⟨hplaces, hexponent⟩ := List.append_eq_nil_iff.1 htail
    refine ⟨?_, ?_⟩
    · by_contra hne
      rw [if_neg hne] at hplaces
      cases hplaces
    · cases he : n.exponent with
      | none => rfl
      | some e =>
        rw [he] at hexponent
        cases hexponent
  · rintro ⟨hplaces, hexponent⟩
    rw [if_pos hplaces, hexponent]
    rfl

variable (h : n.Valid)

include h

/-- A number starts with a digit, a sign aside. -/
theorem exists_digit : ∃ d w, n.whole = d :: w ∧ Text.isDigit d = true := by
  obtain ⟨d, w, hw, hd, -⟩ := Json.exists_digit h.ne_nil h.whole
  exact ⟨d, w, hw, hd⟩

/-- A number starts with a digit or a minus. -/
theorem head_text : ∃ d t, n.text = d :: t ∧ (d = '-' ∨ Text.isDigit d = true) := by
  obtain ⟨d, w, hw, hd⟩ := exists_digit h
  cases hn : n.negative with
  | true => exact ⟨'-', _, by simp only [Numeral.text, Numeral.sign, hn]; rfl, .inl rfl⟩
  | false =>
    refine ⟨d, w ++ n.tail, ?_, .inr hd⟩
    simp [Numeral.text, Numeral.sign, hn, hw]

/-- What stands behind the whole part starts with its mark. -/
theorem head_tail {d : Char} {t : Text} (ht : n.tail = d :: t) : d = '.' ∨ d = 'e' ∨ d = 'E' := by
  unfold Numeral.tail at ht
  split at ht
  · cases he : n.exponent with
    | none => simp [he] at ht
    | some e =>
      rw [he] at ht
      obtain rfl : e.mark = d := (List.cons.inj ht).1
      exact .inr (h.exponent e he).mark
  · exact .inl (List.cons.inj ht).1.symm

theorem whole_of_zero {w : Text} (hw : n.whole = '0' :: w) : w = [] := by
  have hlength := h.zero (by rw [hw]; rfl)
  rw [hw, List.length_cons] at hlength
  exact List.length_eq_zero_iff.1 (Nat.succ.inj hlength)

/-- No other digits stand behind a zero in front. -/
theorem behind_zero {c : Char} {t : Text} (heq : n.whole ++ n.tail = '0' :: c :: t) :
    c = '.' ∨ c = 'e' ∨ c = 'E' := by
  obtain ⟨d, w, hw, -⟩ := exists_digit h
  rw [hw, List.cons_append] at heq
  obtain ⟨rfl, hrest⟩ := List.cons.inj heq
  rw [whole_of_zero h hw, List.nil_append] at hrest
  exact head_tail h hrest

omit h in
theorem dropSign_of_digit {d : Char} (hd : Text.isDigit d = true) (w : Text) :
    dropSign (d :: w) = d :: w := by
  unfold dropSign
  split
  · next heq => rw [(List.cons.inj heq).1] at hd; exact absurd hd (by decide)
  · next heq => rw [(List.cons.inj heq).1] at hd; exact absurd hd (by decide)
  · rfl

theorem dropSign_unsigned : dropSign (n.whole ++ n.tail) = n.whole ++ n.tail := by
  obtain ⟨d, w, hw, hd⟩ := exists_digit h
  rw [hw, List.cons_append, dropSign_of_digit hd]

omit h in
theorem text_of_negative (hn : n.negative = true) : n.text = '-' :: (n.whole ++ n.tail) := by
  rw [Numeral.text, Numeral.sign, hn]
  rfl

omit h in
theorem text_of_positive (hn : n.negative = false) : n.text = n.whole ++ n.tail := by
  rw [Numeral.text, Numeral.sign, hn]
  rfl

/-- The text of a number without its sign. -/
theorem dropSign_text : dropSign n.text = n.whole ++ n.tail := by
  cases hn : n.negative with
  | true => rw [text_of_negative hn, dropSign]
  | false => rw [text_of_positive hn, dropSign_unsigned h]

theorem hasLeadingZero_of_unsigned {t : Text} (ht : dropSign t = n.whole ++ n.tail) :
    hasLeadingZero t = false := by
  rw [hasLeadingZero, ht]
  split
  · next c t heq =>
    have hmark : Text.isDigit c = false := by
      rcases behind_zero h heq with rfl | rfl | rfl <;> decide
    rw [List.all_cons, hmark, Bool.false_and]
  · rfl

/-- The digits of a number before and behind its point. -/
theorem toNat?_digits : Text.toNat? 10 (n.whole ++ n.places) = some n.significand :=
  Text.toNat?_digits (by simp [h.ne_nil]) (List.forall_mem_append.2 ⟨h.whole, h.places⟩)

theorem toNat?_whole (htail : n.tail = []) : Text.toNat? 10 n.whole = some n.significand := by
  have hdigits := toNat?_digits h
  rwa [(tail_eq_nil.1 htail).1, List.append_nil] at hdigits

end Parts

section Integers

variable (h : n.Valid)

include h

/-- A number without places and exponent is an integer, and no other is. -/
theorem based?_text : based? (n.whole ++ n.tail) =
    if n.tail = [] then Text.toNat? 10 n.whole else none := by
  have hplain : based? (n.whole ++ n.tail) = Text.toNat? 10 (n.whole ++ n.tail) := by
    unfold based?
    split
    · next heq => rcases behind_zero h heq with hc | hc | hc <;> cases hc
    · next heq => rcases behind_zero h heq with hc | hc | hc <;> cases hc
    · next heq => rcases behind_zero h heq with hc | hc | hc <;> cases hc
    · rw [hasLeadingZero_of_unsigned h (dropSign_unsigned h)]
      rfl
  rw [hplain]
  split
  · next htail => rw [htail, List.append_nil]
  · next htail =>
    obtain ⟨c, t, ht⟩ := List.exists_cons_of_ne_nil htail
    refine Text.toNat?_eq_none (c := c) (by simp [ht]) ?_
    rcases head_tail h ht with rfl | rfl | rfl <;> decide

/-- An integer with its sign. -/
def signed (negative : Bool) (d : Nat) : Int := if negative then -(d : Int) else d

theorem integer?_text : integer? n.text =
    if n.tail = [] then some (signed n.negative n.significand) else none := by
  have hbased := based?_text h
  have hunsigned : integer? (n.whole ++ n.tail) =
      (based? (n.whole ++ n.tail)).map fun d : Nat => (d : Int) := by
    obtain ⟨d, w, hw, hd⟩ := exists_digit h
    rw [hw]
    unfold integer?
    split
    · next heq => rw [(List.cons.inj heq).1] at hd; exact absurd hd (by decide)
    · next heq => rw [(List.cons.inj heq).1] at hd; exact absurd hd (by decide)
    · cases based? (d :: w ++ n.tail) <;> rfl
  by_cases htail : n.tail = []
  · rw [if_pos htail, toNat?_whole h htail] at hbased
    rw [if_pos htail]
    cases hn : n.negative with
    | true =>
      rw [text_of_negative hn, integer?, hbased]
      rfl
    | false =>
      rw [text_of_positive hn, hunsigned, hbased]
      rfl
  · rw [if_neg htail] at hbased
    rw [if_neg htail]
    cases hn : n.negative with
    | true =>
      rw [text_of_negative hn, integer?, hbased]
      rfl
    | false => rw [text_of_positive hn, hunsigned, hbased, Option.map_none]

end Integers

section Reals

variable {e : Exponent}

/-- An exponent is read as what it says. -/
theorem exponent_text (he : e.Valid) : ∃ k : Nat,
    Text.toNat? 10 (dropSign (e.sign ++ e.digits)) = some k ∧
      (if (e.sign ++ e.digits).head? = some '-' then -(k : Int) else k) = e.value := by
  obtain ⟨k, hk⟩ : ∃ k, Text.toNat? 10 e.digits = some k :=
    ⟨_, Text.toNat?_digits he.ne_nil he.digits⟩
  obtain ⟨d, w, hw⟩ := List.exists_cons_of_ne_nil he.ne_nil
  have hd : Text.isDigit d = true := he.digits d (hw ▸ List.mem_cons_self)
  have hdrop : dropSign e.digits = e.digits := by rw [hw, dropSign_of_digit hd]
  have hhead : e.digits.head? ≠ some '-' := by
    rw [hw]
    rintro hminus
    rw [Option.some.inj hminus] at hd
    exact absurd hd (by decide)
  refine ⟨k, ?_, ?_⟩
  · rcases he.sign with hsign | hsign | hsign
    · rw [hsign, List.nil_append, hdrop, hk]
    · rw [hsign]
      exact hk
    · rw [hsign]
      exact hk
  · rcases he.sign with hsign | hsign | hsign <;> simp [hsign, hk, hhead, Exponent.value]

/-- The digits before and behind a point, and the exponent behind them. -/
theorem decimal?_of_parts {t u whole places : Text} {e : Option Exponent} (hne : whole ≠ [])
    (hwhole : t.span Text.isDigit = (whole, u)) (he : ∀ x ∈ e, x.Valid)
    (hplaces : (places = [] ∧ u = (e.map Exponent.text).getD []) ∨
      ∃ r, u = '.' :: r ∧ r.span Text.isDigit = (places, (e.map Exponent.text).getD [])) :
    decimal? t = some (whole, places, (e.map Exponent.value).getD 0) := by
  have hempty : whole.isEmpty = false := by simpa using hne
  rw [decimal?, hwhole]
  cases e with
  | none =>
    rcases hplaces with ⟨rfl, rfl⟩ | ⟨r, rfl, hspan⟩
    · simp [hempty]
    · simp only [hspan, hempty, Bool.false_and, Bool.false_eq_true, if_false]
      rfl
  | some e =>
    obtain ⟨mark, sign, digits⟩ := e
    have hvalid := he _ rfl
    obtain ⟨k, hk, hvalue⟩ := exponent_text hvalid
    have hmark : mark = 'e' ∨ mark = 'E' := hvalid.mark
    rcases hplaces with ⟨rfl, rfl⟩ | ⟨r, rfl, hspan⟩
    · rcases hmark with rfl | rfl <;> simp [hempty, Exponent.text, hk, ← hvalue]
    · simp only [hspan, hempty, Bool.false_and, Bool.false_eq_true, if_false, Option.map_some,
        Option.getD_some, Exponent.text, hmark, if_true, hk, ← hvalue]
      rfl

variable (h : n.Valid)

include h

/-- The parts of a number are read as they are written. -/
theorem decimal?_text : decimal? (n.whole ++ n.tail) =
    some (n.whole, n.places, (n.exponent.map Exponent.value).getD 0) := by
  have hstop : Json.NoDigit n.tail := by
    intro c hc
    obtain ⟨t, ht⟩ := List.head?_eq_some_iff.1 hc
    rcases head_tail h ht with rfl | rfl | rfl <;> decide
  refine decimal?_of_parts h.ne_nil (Json.spanDigits_append h.whole hstop) h.exponent ?_
  rw [Numeral.tail]
  by_cases hplaces : n.places = []
  · exact .inl ⟨hplaces, by rw [if_pos hplaces, List.nil_append]⟩
  · refine .inr ⟨_, by rw [if_neg hplaces, List.cons_append],
      Json.spanDigits_append h.places fun c hc => ?_⟩
    cases he : n.exponent with
    | none => simp [he] at hc
    | some e =>
      rw [he] at hc
      obtain rfl : e.mark = c := Option.some.inj hc
      rcases (h.exponent e he).mark with hmark | hmark <;> rw [hmark] <;> decide

/-- A number is read as the floating point number nearest to it. -/
theorem real?_text : real? n.text = n.nearest? := by
  have hsign : decide (n.text.head? = some '-') = n.negative := by
    cases hn : n.negative with
    | true => rw [text_of_negative hn]; rfl
    | false =>
      obtain ⟨c, w, hw, hc⟩ := exists_digit h
      rw [text_of_positive hn, hw, decide_eq_false_iff_not]
      intro hhead
      obtain rfl : c = '-' := Option.some.inj hhead
      exact absurd hc (by decide)
  rw [real?, dropSign_text h, decimal?_text h, hsign]
  simp only [Option.bind_eq_bind, Option.bind_some, toNat?_digits h]
  rfl

end Reals

section Values

variable (h : n.Valid)

include h

theorem ne_word {c : Char} (hc : c ≠ '-') (hdigit : Text.isDigit c = false) (t : Text) :
    n.text ≠ c :: t := by
  intro heq
  obtain ⟨d, u, hd, hhead⟩ := head_text h
  obtain rfl : d = c := (List.cons.inj (hd.symm.trans heq)).1
  rcases hhead with rfl | hhead
  · exact hc rfl
  · rw [hhead] at hdigit
    cases hdigit

theorem isNull_text : isNull n.text = false := by
  simp only [isNull, decide_eq_false_iff_not, not_or]
  exact ⟨ne_word h (by decide) (by decide) _, ne_word h (by decide) (by decide) _,
    ne_word h (by decide) (by decide) _, ne_word h (by decide) (by decide) _⟩

theorem bool?_text : bool? n.text = none := by
  have hword : ∀ c ∈ ['t', 'T', 'f', 'F'], ∀ t, n.text ≠ c :: t := by
    intro c hc t
    simp only [List.mem_cons, List.not_mem_nil, or_false] at hc
    rcases hc with rfl | rfl | rfl | rfl <;> exact ne_word h (by decide) (by decide) t
  rw [bool?, if_neg, if_neg]
  · simp only [not_or]
    exact ⟨hword 'f' (by simp) _, hword 'F' (by simp) _, hword 'F' (by simp) _⟩
  · simp only [not_or]
    exact ⟨hword 't' (by simp) _, hword 'T' (by simp) _, hword 'T' (by simp) _⟩

theorem notFinite?_text : notFinite? n.text = none := by
  have hword : ∀ w ∈ [".inf", ".Inf", ".INF", "+.inf", "+.Inf", "+.INF", "-.inf", "-.Inf", "-.INF",
      ".nan", ".NaN", ".NAN"], w.toList ≠ n.text := by
    intro w hw heq
    obtain ⟨d, u, hu, hd⟩ := exists_digit h
    have hdrop := dropSign_text h
    rw [← heq, hu] at hdrop
    simp only [List.mem_cons, List.not_mem_nil, or_false] at hw
    have hpoint : d = '.' := by
      rcases hw with rfl | rfl | rfl | rfl | rfl | rfl | rfl | rfl | rfl | rfl | rfl | rfl <;>
        exact (List.cons.inj hdrop).1.symm
    subst hpoint
    exact absurd hd (by decide)
  have hnone : ∀ words : List String, (∀ w ∈ words, w.toList ≠ n.text) →
      words.any (fun w => w.toList = n.text) = false := by
    intro words hwords
    simpa using hwords
  have hpositive := hnone [".inf", ".Inf", ".INF", "+.inf", "+.Inf", "+.INF"]
    fun w hw => hword w (by simp only [List.mem_cons] at hw ⊢; tauto)
  have hnegative := hnone ["-.inf", "-.Inf", "-.INF"]
    fun w hw => hword w (by simp only [List.mem_cons] at hw ⊢; tauto)
  have hnan := hnone [".nan", ".NaN", ".NAN"]
    fun w hw => hword w (by simp only [List.mem_cons] at hw ⊢; tauto)
  simp only [notFinite?, hpositive, hnegative, hnan, Bool.false_eq_true, if_false]

/-- The kinds of atoms that a number with these parts can be. -/
theorem ofPlain_text : ofPlain n.text =
    match (integer? n.text).bind ofInteger? with
    | some a => a
    | none => (n.nearest?.map fun x => Atom.number (.real x)).getD (.text n.text) := by
  obtain ⟨d, t, ht, -⟩ := head_text h
  have hne : n.text.isEmpty = false := by rw [ht]; rfl
  rw [ofPlain, hne, isNull_text h, bool?_text h, hasLeadingZero_of_unsigned h (dropSign_text h),
    float?, notFinite?_text h, real?_text h]
  rfl

end Values

/-- What JSON and YAML make of the text of a number: the same integer, an integer instead of negative
zero, the nearest floating point number, an integer that cannot be kept, or a text if the number is out
of range. -/
inductive ReadsNumber (n : Numeral) : Prop where
  | integer (i : Int) (hnumber : n.number? = some (.integer i))
    (h : ofPlain n.text = .number (.integer i))
  | zero (htext : n.text = "-0".toList) (hnumber : n.number? = some (.real ⟨true, 0⟩))
    (h : ofPlain n.text = .number (.integer 0))
  | real (y : Binary64) (hnumber : ∀ i, n.number? ≠ some (.integer i)) (hy : n.nearest? = some y)
    (h : ofPlain n.text = .number (.real y))
  | wide (i : Int) (type : String) (h : ofPlain n.text = .wide i type)
  | beyond (hnone : n.nearest? = none) (h : ofPlain n.text = .text n.text)

theorem readsNumber_of_real (h : n.Valid) (hnumber : ∀ i, n.number? ≠ some (.integer i))
    (hinteger : (integer? n.text).bind ofInteger? = none) : ReadsNumber n := by
  have hplain := ofPlain_text h
  rw [hinteger] at hplain
  cases hnearest : n.nearest? with
  | none =>
    rw [hnearest] at hplain
    exact .beyond hnearest hplain
  | some y =>
    rw [hnearest] at hplain
    exact .real y hnumber hnearest hplain

/-- Only the negative zero is written with a minus in front of no digits but zeros. -/
theorem whole_of_significand (h : n.Valid) (htail : n.tail = []) (hzero : n.significand = 0) :
    n.whole = ['0'] := by
  obtain ⟨d, w, hw, hdigit⟩ := exists_digit h
  have hle := Text.le_digitsFrom (d.toNat - '0'.toNat) w
  have hvalue : n.significand = Text.digitsFrom (d.toNat - '0'.toNat) w := by
    rw [Numeral.significand, (tail_eq_nil.1 htail).1, List.append_nil, hw, Text.digitsFrom_cons,
      Nat.zero_mul, Nat.zero_add]
  have hcode : '0'.toNat ≤ d.toNat := by
    simp only [Text.isDigit, Bool.and_eq_true, decide_eq_true_eq] at hdigit
    exact hdigit.1
  have hd : d = '0' := Char.toNat_inj.1 (by omega)
  subst hd
  rw [hw, whole_of_zero h hw]

/-- A number without places and exponent is an integer, unless it is negative zero or out of range. -/
theorem number?_of_whole (h : n.Valid) (htail : n.tail = []) :
    n.number? = if Number.fits (signed n.negative n.significand) &&
        !(n.negative && n.significand == 0) then some (.integer (signed n.negative n.significand))
      else (Json.decimal? n.negative n.whole [] 0).map .real := by
  obtain ⟨hplaces, hexponent⟩ := tail_eq_nil.1 htail
  rw [Numeral.number?, Json.number?, toNat?_whole h htail, hplaces, hexponent]
  rfl

/-- An integer that fits is the same, but for the negative zero. -/
theorem readsNumber_of_fits (h : n.Valid) (htail : n.tail = [])
    (hfits : Number.fits (signed n.negative n.significand) = true)
    (hvalue : ofPlain n.text = .number (.integer (signed n.negative n.significand))) :
    ReadsNumber n := by
  have hnumber := number?_of_whole h htail
  by_cases hzero : n.negative = true ∧ n.significand = 0
  case pos =>
    obtain ⟨hn, hzero⟩ := hzero
    have hwhole := whole_of_significand h htail hzero
    rw [hn, hzero] at hvalue hnumber
    refine .zero ?_ ?_ hvalue
    · rw [text_of_negative hn, hwhole, htail]
      rfl
    · rw [hnumber, hwhole]
      decide +kernel
  case neg =>
    refine .integer _ ?_ hvalue
    rw [hnumber, if_pos]
    rw [not_and] at hzero
    cases hn : n.negative <;> simp_all

/-- Every number that JSON reads is one of these kinds. -/
theorem readsNumber (h : n.Valid) : ReadsNumber n := by
  have hplain := ofPlain_text h
  have hinteger := integer?_text h
  by_cases htail : n.tail = []
  case neg =>
    rw [if_neg htail] at hinteger
    have hparts : n.places ≠ [] ∨ n.exponent ≠ none := by
      rw [← not_and_or]
      exact fun hparts => htail (tail_eq_nil.2 hparts)
    refine readsNumber_of_real h (fun i => ?_) (by rw [hinteger]; rfl)
    rw [Numeral.number?_eq_map_of_tail hparts]
    cases Json.decimal? n.negative n.whole n.places _ <;> simp
  rw [if_pos htail] at hinteger
  rw [hinteger, Option.bind_some] at hplain
  by_cases hfits : Number.fits (signed n.negative n.significand) = true
  case pos =>
    exact readsNumber_of_fits h htail hfits (by rw [hplain, ofInteger?, if_pos hfits])
  case neg =>
    cases hwide : ofInteger? (signed n.negative n.significand) with
    | none =>
      refine readsNumber_of_real h (fun i => ?_) (by rw [hinteger, Option.bind_some, hwide])
      rw [number?_of_whole h htail, if_neg (by simp [hfits])]
      cases Json.decimal? n.negative n.whole [] 0 <;> simp
    | some a =>
      rw [hwide] at hplain
      rw [ofInteger?, if_neg hfits] at hwide
      split at hwide
      · obtain rfl := Option.some.inj hwide
        exact .wide _ _ hplain
      · split at hwide
        · obtain rfl := Option.some.inj hwide
          exact .wide _ _ hplain
        · cases hwide

end RouteModule.Yaml
