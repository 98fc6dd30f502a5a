import RouteModule.Proofs.Decimal.Shortest
import RouteModule.Proofs.Json.Numeral

/-!
How numbers are written, and what is read where one is written. An integer is its digits; a floating
point number has a point among its digits, with zeros in front of them or behind them, or an exponent.
What is read is computed from the digits without their point, and from the exponent of the last one.
-/

namespace RouteModule

namespace Json

variable {n : Numeral} {t : Text}

/-- Digits are taken as long as there is room for the number that they make up. -/
theorem takeDigits_of_lt {m : Nat} (h : Text.digitsFrom m t < 2 ^ 64) :
    takeDigits m t = (Text.digitsFrom m t, []) := by
  induction t generalizing m with
  | nil => rfl
  | cons c t ih =>
    rw [Text.digitsFrom_cons] at h ⊢
    have hroom : Width.unsigned 64 ((m * 10 + (c.toNat - '0'.toNat) : Nat) : Int) = true := by
      have hle := Text.le_digitsFrom (m * 10 + (c.toNat - '0'.toNat)) t
      have hlt := Nat.lt_of_le_of_lt hle h
      rw [Width.unsigned, Bool.and_eq_true, decide_eq_true_eq, decide_eq_true_eq]
      exact ⟨Int.natCast_nonneg _, Int.ofNat_lt.2 hlt⟩
    rw [takeDigits, if_pos hroom, ih h]

/-- An exponent says the number that its sign and its digits are made of. -/
theorem Exponent.value_signed (p : Int) :
    Exponent.value ⟨'e', [if p < 0 then '-' else '+'], Text.ofNat p.natAbs⟩ = p := by
  simp only [Exponent.value, Text.toNat?_ofNat, Option.getD_some]
  by_cases hneg : p < 0
  · rw [if_pos hneg, if_pos rfl]
    omega
  · rw [if_neg hneg, if_neg (by decide)]
    omega

namespace Numeral

/-- The number that the digits of a number make up without their point. -/
def significand (n : Numeral) : Nat := Text.digitsFrom 0 (n.whole ++ n.places)

/-- The exponent of the last digit of a number. -/
def scale (n : Numeral) : Int := (n.exponent.map Exponent.value).getD 0 - n.places.length

/-- The floating point number nearest to the one that is written, if it is in range. -/
def nearest? (n : Numeral) : Option Binary64 :=
  Binary64.ofDecimal? n.negative n.significand n.scale

theorem decimal?_of_lt (h : n.significand < 2 ^ 64) :
    decimal? n.negative n.whole n.places ((n.exponent.map Exponent.value).getD 0) =
      real? n.negative n.significand n.scale := by
  rw [significand, Text.digitsFrom_append] at h
  have hwhole := Nat.lt_of_le_of_lt (Text.le_digitsFrom _ n.places) h
  simp [decimal?, takeDigits_of_lt hwhole, takeDigits_of_lt h, significand, scale,
    Text.digitsFrom_append]

/-- A number with places or an exponent is read as a floating point number. -/
theorem number?_eq_map_of_tail (htail : n.places ≠ [] ∨ n.exponent ≠ none) : n.number? =
    (Json.decimal? n.negative n.whole n.places ((n.exponent.map Exponent.value).getD 0)).map
      .real := by
  have hparts : (n.places.isEmpty && (n.exponent.map Exponent.value).isNone) = false := by
    rw [Bool.and_eq_false_iff]
    rcases htail with hplaces | hexponent
    · exact .inl (by simpa using hplaces)
    · exact .inr (by simpa using Option.ne_none_iff_isSome.1 hexponent)
  rw [number?, Json.number?, hparts]
  rfl

theorem number?_of_tail (htail : n.places ≠ [] ∨ n.exponent ≠ none) (h : n.significand < 2 ^ 64) :
    n.number? = (real? n.negative n.significand n.scale).map .real := by
  rw [number?_eq_map_of_tail htail, decimal?_of_lt h]

end Numeral

end Json

namespace Binary64

variable (x : Binary64)

/-- A number as it is written. The point stands behind the digits and zeros, among the digits, or in
front of zeros and the digits; where it would be too far away there is an exponent. -/
def numeral : Json.Numeral :=
  let digits := Text.ofNat x.digits.1
  let point : Int := x.digits.2 + digits.length
  if 0 < point ∧ point ≤ 16 then
    if 0 ≤ x.digits.2 then
      ⟨x.negative, digits ++ List.replicate x.digits.2.toNat '0', ['0'], none⟩
    else ⟨x.negative, digits.take point.toNat, digits.drop point.toNat, none⟩
  else if -5 < point ∧ point ≤ 0 then
    ⟨x.negative, ['0'], List.replicate (-point).toNat '0' ++ digits, none⟩
  else
    ⟨x.negative, digits.take 1, digits.drop 1,
      some ⟨'e', [if point ≤ 0 then '-' else '+'], Text.ofNat (point - 1).natAbs⟩⟩

/-- The forms of a written number, by where its point stands. -/
inductive Form (negative : Bool) (d : Nat) (e : Int) : Json.Numeral → Prop where
  | whole (k : Nat) (he : e = k) (hpoint : (Text.ofNat d).length + k ≤ 16) :
    Form negative d e ⟨negative, Text.ofNat d ++ List.replicate k '0', ['0'], none⟩
  | split (k : Nat) (he : e = k - (Text.ofNat d).length) (hpos : 0 < k)
    (hlt : k < (Text.ofNat d).length) (hpoint : k ≤ 16) :
    Form negative d e ⟨negative, (Text.ofNat d).take k, (Text.ofNat d).drop k, none⟩
  | small (k : Nat) (he : e = -(k : Int) - (Text.ofNat d).length) (hpoint : k < 5) :
    Form negative d e ⟨negative, ['0'], List.replicate k '0' ++ Text.ofNat d, none⟩
  | scientific (p : Int) (he : e = p + 1 - (Text.ofNat d).length) (hpoint : p < -5 ∨ 16 ≤ p) :
    Form negative d e ⟨negative, (Text.ofNat d).take 1, (Text.ofNat d).drop 1,
      some ⟨'e', [if p < 0 then '-' else '+'], Text.ofNat p.natAbs⟩⟩

theorem form_numeral : Form x.negative x.digits.1 x.digits.2 x.numeral := by
  rw [numeral]
  generalize x.digits = r
  obtain ⟨d, e⟩ := r
  have hpos := Text.length_ofNat_pos d
  dsimp only
  split
  · split
    · exact .whole e.toNat (by omega) (by omega)
    · exact .split (e + (Text.ofNat d).length).toNat (by omega) (by omega) (by omega) (by omega)
  · split
    · exact .small (-(e + (Text.ofNat d).length)).toNat (by omega) (by omega)
    · have hsign : (if e + ((Text.ofNat d).length : Int) ≤ 0 then '-' else '+') =
          if e + ((Text.ofNat d).length : Int) - 1 < 0 then '-' else '+' := by
        congr 1
        simp only [eq_iff_iff]
        omega
      rw [hsign]
      exact .scientific (e + (Text.ofNat d).length - 1) (by omega) (by omega)

/-- The text that the digits of a number make up, up to the sign. -/
theorem text_eq_digits : x.text = (if x.negative then ['-'] else []) ++
    (let digits := Text.ofNat x.digits.1
      let p : Int := x.digits.2 + digits.length - 1
      if 0 ≤ p ∧ p ≤ 15 then
        let whole := p.toNat + 1
        let shown := digits ++ List.replicate (whole - digits.length) '0'
        let places := shown.drop whole
        shown.take whole ++ '.' :: (if places.isEmpty then ['0'] else places)
      else if -5 ≤ p ∧ p < 0 then
        ['0', '.'] ++ List.replicate ((-p).toNat - 1) '0' ++ digits
      else
        let mantissa := match digits with
          | c :: [] => [c]
          | c :: rest => c :: '.' :: rest
          | [] => []
        mantissa ++ 'e' :: (if p < 0 then '-' else '+') :: Text.ofNat p.natAbs) := by
  rw [text, digits]
  split <;> rfl

theorem text_numeral : x.numeral.text = x.text := by
  have hform := x.form_numeral
  rw [text_eq_digits]
  generalize x.numeral = n at hform
  generalize x.digits = r at hform
  obtain ⟨d, e⟩ := r
  have hpos := Text.length_ofNat_pos d
  dsimp only at hform ⊢
  cases hform with
  | whole k he hpoint =>
    generalize Text.ofNat d = ds at *
    have hp : e + ds.length - 1 = ((ds.length + k - 1 : Nat) : Int) := by omega
    have hlength : ds.length + k - 1 + 1 = (ds ++ List.replicate k '0').length := by
      rw [List.length_append, List.length_replicate]
      omega
    have hzeros : (ds ++ List.replicate k '0').length - ds.length = k := by simp
    have hplain : (0 : Int) ≤ (ds.length + k - 1 : Nat) ∧
        ((ds.length + k - 1 : Nat) : Int) ≤ 15 := by omega
    rw [hp, if_pos hplain, Int.toNat_natCast, hlength, hzeros, List.take_length, List.drop_length]
    simp [Json.Numeral.text, Json.Numeral.sign, Json.Numeral.tail]
  | split k he hpos hlt hpoint =>
    generalize Text.ofNat d = ds at *
    have hp : e + ds.length - 1 = ((k - 1 : Nat) : Int) := by omega
    have hk : k - 1 + 1 = k := by omega
    have hzeros : k - ds.length = 0 := by omega
    have hplain : (0 : Int) ≤ (k - 1 : Nat) ∧ ((k - 1 : Nat) : Int) ≤ 15 := by omega
    rw [hp, if_pos hplain, Int.toNat_natCast, hk, hzeros, List.replicate_zero, List.append_nil]
    simp [Json.Numeral.text, Json.Numeral.sign, Json.Numeral.tail, Nat.not_le.2 hlt]
  | small k he hpoint =>
    generalize Text.ofNat d = ds at *
    have hp : e + ds.length - 1 = -((k + 1 : Nat) : Int) := by omega
    have hplaces : List.replicate k '0' ++ ds ≠ [] := by
      rw [← List.length_pos_iff, List.length_append]
      omega
    have hplain : ¬ ((0 : Int) ≤ -((k + 1 : Nat) : Int) ∧ -((k + 1 : Nat) : Int) ≤ 15) := by omega
    have hsmall : (-5 : Int) ≤ -((k + 1 : Nat) : Int) ∧ -((k + 1 : Nat) : Int) < 0 := by omega
    rw [hp, if_neg hplain, if_pos hsmall, Int.neg_neg, Int.toNat_natCast, Nat.add_sub_cancel]
    simp only [Json.Numeral.text, Json.Numeral.sign, Json.Numeral.tail, if_neg hplaces]
    simp
  | scientific p he hpoint =>
    generalize Text.ofNat d = ds at *
    have hp : e + ds.length - 1 = p := by omega
    have hplain : ¬ (0 ≤ p ∧ p ≤ 15) := by omega
    have hsmall : ¬ (-5 ≤ p ∧ p < 0) := by omega
    rw [hp, if_neg hplain, if_neg hsmall]
    obtain ⟨c, rest, rfl⟩ := List.exists_cons_of_length_pos hpos
    cases rest with
    | nil => simp [Json.Numeral.text, Json.Numeral.sign, Json.Numeral.tail, Json.Exponent.text]
    | cons c' rest =>
      simp [Json.Numeral.text, Json.Numeral.sign, Json.Numeral.tail, Json.Exponent.text]

theorem lt_ten_pow (d : Nat) : d < 10 ^ (Text.ofNat d).length := by
  rcases Nat.eq_zero_or_pos d with rfl | hd
  · decide
  · obtain ⟨k, hk, -, hlt⟩ := digitCount_bounds hd
    rwa [← hk] at hlt

namespace Form

variable {negative : Bool} {d : Nat} {e : Int} {n : Json.Numeral}

theorem negative_eq (h : Form negative d e n) : n.negative = negative := by
  cases h <;> rfl

theorem tail_ne (h : Form negative d e n) : n.places ≠ [] ∨ n.exponent ≠ none := by
  cases h with
  | whole k he hpoint => exact .inl (by simp)
  | split k he hpos hlt hpoint => exact .inl (by simpa using hlt)
  | small k he hpoint => exact .inl (by simp [Text.ofNat_ne_nil])
  | scientific p he hpoint => exact .inr (by simp)

/-- No zero stands in front of other digits: the digits of zero have no zeros behind them either. -/
theorem valid (h : Form negative d e n) (hzero : d = 0 → e = 0) : n.Valid := by
  have hdigits : ∀ c ∈ Text.ofNat d, Text.isDigit c = true := fun c => Text.isDigit_of_mem_ofNat
  have hzeros : ∀ k, ∀ c ∈ List.replicate k '0', Text.isDigit c = true := by
    intro k c hc
    rw [List.eq_of_mem_replicate hc]
    decide
  have hlength : d = 0 → (Text.ofNat d).length = 1 := by
    rintro rfl
    rfl
  cases h with
  | whole k he hpoint =>
    refine ⟨by simp [Text.ofNat_ne_nil], List.forall_mem_append.2 ⟨hdigits, hzeros k⟩, ?_,
      by simp [Text.isDigit], by simp⟩
    intro hstart
    have hd := Text.eq_zero_of_head? hstart
    have hk := hzero hd
    rw [List.length_append, List.length_replicate, hlength hd]
    omega
  | split k he hpos hlt hpoint =>
    refine ⟨by simp [Text.ofNat_ne_nil, Nat.ne_of_gt hpos],
      fun c hc => hdigits c (List.mem_of_mem_take hc), ?_,
      fun c hc => hdigits c (List.mem_of_mem_drop hc), by simp⟩
    intro hstart
    rw [List.head?_take, if_neg (Nat.ne_of_gt hpos), ← List.append_nil (Text.ofNat d)] at hstart
    have hone := hlength (Text.eq_zero_of_head? hstart)
    omega
  | small k he hpoint =>
    exact ⟨by simp, by simp [Text.isDigit], by simp,
      List.forall_mem_append.2 ⟨hzeros k, hdigits⟩, by simp⟩
  | scientific p he hpoint =>
    refine ⟨by simp [Text.ofNat_ne_nil], fun c hc => hdigits c (List.mem_of_mem_take hc),
      fun _ => ?_, fun c hc => hdigits c (List.mem_of_mem_drop hc), ?_⟩
    · have hpos := Text.length_ofNat_pos d
      rw [List.length_take]
      omega
    · rintro _ ⟨⟩
      refine ⟨.inl rfl, ?_, Text.ofNat_ne_nil _, fun c => Text.isDigit_of_mem_ofNat⟩
      dsimp only
      split <;> simp

/-- The digits without their point, and the exponent that goes with them: there may be zeros behind
the shortest digits. -/
theorem exists_zeros (h : Form negative d e n) (hle : d ≤ 10 ^ 17) : ∃ k : Nat,
    n.significand = d * 10 ^ k ∧ n.scale = e - k ∧ n.significand ≤ 10 ^ 17 := by
  have hvalue := Text.digitsFrom_ofNat d
  cases h with
  | whole k he hpoint =>
    -- The place behind the point is one more zero.
    have hsum : (⟨negative, Text.ofNat d ++ List.replicate k '0', ['0'], none⟩ :
        Json.Numeral).significand = d * 10 ^ (k + 1) := by
      rw [Json.Numeral.significand, List.append_assoc, Text.digitsFrom_append, hvalue,
        ← List.replicate_succ', Text.digitsFrom_zeros]
    refine ⟨k + 1, hsum, by simp [Json.Numeral.scale, he], ?_⟩
    rw [hsum]
    calc d * 10 ^ (k + 1) ≤ 10 ^ (Text.ofNat d).length * 10 ^ (k + 1) :=
          Nat.mul_le_mul_right _ (Nat.le_of_lt (lt_ten_pow d))
      _ = 10 ^ ((Text.ofNat d).length + (k + 1)) := (Nat.pow_add _ _ _).symm
      _ ≤ 10 ^ 17 := Nat.pow_le_pow_right (by decide) (by omega)
  | split k he hpos hlt hpoint =>
    have hsum : (⟨negative, (Text.ofNat d).take k, (Text.ofNat d).drop k, none⟩ :
        Json.Numeral).significand = d := by
      rw [Json.Numeral.significand, List.take_append_drop, hvalue]
    refine ⟨0, by rw [hsum, Nat.pow_zero, Nat.mul_one], ?_, by rw [hsum]; exact hle⟩
    simp [Json.Numeral.scale]
    omega
  | small k he hpoint =>
    have hsum : (⟨negative, ['0'], List.replicate k '0' ++ Text.ofNat d, none⟩ :
        Json.Numeral).significand = d := by
      rw [Json.Numeral.significand, List.singleton_append, Text.digitsFrom_cons,
        Text.digitsFrom_append, Nat.sub_self, Nat.zero_mul, Text.digitsFrom_zeros, Nat.zero_mul,
        hvalue]
    refine ⟨0, by rw [hsum, Nat.pow_zero, Nat.mul_one], ?_, by rw [hsum]; exact hle⟩
    simp [Json.Numeral.scale]
    omega
  | scientific p he hpoint =>
    have hpos := Text.length_ofNat_pos d
    have hsum : (⟨negative, (Text.ofNat d).take 1, (Text.ofNat d).drop 1,
        some ⟨'e', [if p < 0 then '-' else '+'], Text.ofNat p.natAbs⟩⟩ :
        Json.Numeral).significand = d := by
      rw [Json.Numeral.significand, List.take_append_drop, hvalue]
    refine ⟨0, by rw [hsum, Nat.pow_zero, Nat.mul_one], ?_, by rw [hsum]; exact hle⟩
    rw [Json.Numeral.scale, Option.map_some, Option.getD_some, Json.Exponent.value_signed,
      List.length_drop]
    omega

end Form

theorem digits_le : x.digits.1 ≤ 10 ^ 17 := by
  rcases x.digits_spec with h | ⟨-, -, h⟩
  · rw [h]
    exact Nat.zero_le _
  · exact h

/-- Only zero has no digit but zero. -/
theorem digits_of_zero (h : x.digits.1 = 0) : x.digits.2 = 0 := by
  rcases x.digits_spec with hzero | ⟨-, hpos, -⟩
  · rw [hzero]
  · omega

theorem valid_numeral : x.numeral.Valid := x.form_numeral.valid x.digits_of_zero

theorem negative_numeral : x.numeral.negative = x.negative := x.form_numeral.negative_eq

/-- No integer is written like a floating point number. -/
theorem tail_numeral : x.numeral.places ≠ [] ∨ x.numeral.exponent ≠ none := x.form_numeral.tail_ne

theorem significand_numeral_le : x.numeral.significand ≤ 10 ^ 17 := by
  obtain ⟨-, -, -, hle⟩ := x.form_numeral.exists_zeros x.digits_le
  exact hle

/-- The point and the exponent of a written number change nothing: it is the one nearest to its
digits. -/
theorem nearest?_numeral (hfinite : x.magnitude < infinity) : x.numeral.nearest? = some x := by
  obtain ⟨k, hsignificand, hscale, -⟩ := x.form_numeral.exists_zeros x.digits_le
  rw [Json.Numeral.nearest?, x.negative_numeral, hsignificand, hscale, ofDecimal?_mul_pow,
    ofDecimal?_digits hfinite]

end Binary64

namespace Number

/-- A number as it is written. -/
def numeral : Number → Json.Numeral
  | integer i => ⟨decide (i < 0), Text.ofNat i.natAbs, [], none⟩
  | real x => x.numeral

theorem text_numeral (n : Number) : n.numeral.text = n.text := by
  cases n with
  | integer i =>
    cases i <;>
      simp [numeral, text, Json.Numeral.text, Json.Numeral.sign, Json.Numeral.tail, Text.ofInt]
  | real x => exact x.text_numeral

theorem valid_numeral (n : Number) : n.numeral.Valid := by
  cases n with
  | integer i =>
    refine ⟨Text.ofNat_ne_nil _, fun c => Text.isDigit_of_mem_ofNat, fun hstart => ?_,
      by simp [numeral], by simp [numeral]⟩
    have hzero : i.natAbs = 0 := by
      by_contra hi
      exact Text.head?_ofNat (Nat.pos_of_ne_zero hi) hstart
    simp only [numeral, hzero]
    rfl
  | real x => exact x.valid_numeral

/-- A number starts with a sign or a digit. -/
theorem exists_head (n : Number) :
    ∃ c t, n.text = c :: t ∧ (c = '-' ∨ Text.isDigit c = true) := by
  obtain ⟨c, t, hwhole, hc, -⟩ := Json.exists_digit n.valid_numeral.ne_nil n.valid_numeral.whole
  rw [← n.text_numeral, Json.Numeral.text, Json.Numeral.sign]
  split
  · exact ⟨'-', _, rfl, .inl rfl⟩
  · exact ⟨c, t ++ n.numeral.tail, by rw [List.nil_append, hwhole, List.cons_append], .inr hc⟩

/-- A number that a value can hold: an integer of 64 bits, or a finite floating point number. -/
def InRange : Number → Prop
  | integer i => fits i = true
  | real x => x.magnitude < Binary64.infinity

variable {n m : Number} {x : Binary64}

/-- The text of a number tells the number. -/
theorem text_inj (hn : n.InRange) (hm : m.InRange) : n.text = m.text ↔ n = m := by
  refine ⟨fun h => ?_, fun h => congrArg text h⟩
  rw [← n.text_numeral, ← m.text_numeral] at h
  obtain ⟨hnegative, hwhole, hplaces, hexponent⟩ := n.valid_numeral.eq_of_text m.valid_numeral h
  have hmixed : ∀ (i : Int) (x : Binary64), x.numeral.places = [] →
      x.numeral.exponent.map Json.Exponent.value = none → False := by
    intro i x hp he
    rcases x.tail_numeral with htail | htail
    · exact htail hp
    · exact htail (Option.map_eq_none_iff.1 he)
  cases n with
  | integer i =>
    cases m with
    | integer j =>
      have habs : i.natAbs = j.natAbs := by
        have h := congrArg (Text.digitsFrom 0) hwhole
        rwa [numeral, numeral, Text.digitsFrom_ofNat, Text.digitsFrom_ofNat] at h
      have hsign : i < 0 ↔ j < 0 := by simpa [numeral] using hnegative
      congr 1
      omega
    | real y => exact (hmixed i y hplaces.symm hexponent.symm).elim
  | real x =>
    cases m with
    | integer j => exact (hmixed j x hplaces hexponent).elim
    | real y =>
      have hsame : x.numeral.nearest? = y.numeral.nearest? := by
        have hsign : x.numeral.negative = y.numeral.negative := hnegative
        have hdigits : x.numeral.whole = y.numeral.whole := hwhole
        have hpoint : x.numeral.places = y.numeral.places := hplaces
        have hmark : x.numeral.exponent.map Json.Exponent.value =
          y.numeral.exponent.map Json.Exponent.value := hexponent
        simp only [Json.Numeral.nearest?, Json.Numeral.significand, Json.Numeral.scale, hsign, hdigits,
          hpoint, hmark]
      rw [x.nearest?_numeral hn, y.nearest?_numeral hm] at hsame
      rw [Option.some.inj hsame]

/-- What is read where a number is written, if it is in range. -/
def reread? (n : Number) : Option Number := n.numeral.number?

/-- A number is read where it is written. -/
def ReadsBack (n : Number) : Prop := n.reread? = some n

instance : Decidable n.ReadsBack := inferInstanceAs (Decidable (_ = _))

theorem readNumber_text (n : Number) {rest : Text} (hrest : Json.EndsNumber rest) :
    Json.readNumber (n.text ++ rest) = (Json.numberNode n.text n.reread?, some rest) := by
  rw [← n.text_numeral]
  exact n.valid_numeral.read hrest

theorem readsBack_integer {i : Int} (h : (integer i).InRange) : (integer i).ReadsBack := by
  have hsigned : (if decide (i < 0) = true then -((i.natAbs : Nat) : Int) else i.natAbs) = i := by
    simp only [decide_eq_true_eq]
    split <;> omega
  have hzero : (decide (i < 0) && i.natAbs == 0) = false := by
    simp only [Bool.and_eq_false_iff, decide_eq_false_iff_not, beq_eq_false_iff_ne]
    omega
  rw [InRange] at h
  rw [ReadsBack, reread?, numeral, Json.Numeral.number?, Json.number?]
  simp only [Text.toNat?_ofNat, Option.getD_some, hsigned, h, hzero]
  rfl

theorem reread?_real (x : Binary64) : (real x).reread? =
    (Json.real? x.negative x.numeral.significand x.numeral.scale).map .real := by
  have hroom : x.numeral.significand < 2 ^ 64 :=
    Nat.lt_of_le_of_lt x.significand_numeral_le (by decide)
  rw [reread?, numeral, Json.Numeral.number?_of_tail x.tail_numeral hroom, x.negative_numeral]

end Number

namespace Json

open Binary64 in
/-- With few digits and a small exponent nothing is rounded but the result. -/
theorem real?_of_small {negative : Bool} {n : Nat} {e : Int} {x : Binary64} (hn : n ≤ 2 ^ 53)
    (he : e.natAbs ≤ 22) (h : ofDecimal? negative n e = some x) : real? negative n e = some x := by
  -- The digits and the power of ten are exact, so that the one rounding is that of the result.
  have hexact := exact_round hn
  by_cases hzero : n = 0
  · subst hzero
    rw [ofDecimal?_zero] at h
    rw [real?, round_zero, ← h]
    cases e with
    | ofNat e => rw [scale?, if_pos rfl, Option.map_some]
    | negSucc e =>
      have hshift : divTimes (e / 308) 0 = 0 := by cases e / 308 <;> rfl
      rw [scale?, hshift, div, fraction_zero, Nat.zero_mul, round_zero, Option.map_some]
  · have hpos : 0 < n := Nat.pos_of_ne_zero hzero
    obtain ⟨rfl, hfinite⟩ := of_ofDecimal? hpos (by omega) h
    cases e with
    | ofNat e =>
      have hne : Binary64.round n 1 ≠ 0 := by
        rw [Binary64.round, if_neg hzero]
        exact Nat.ne_of_gt (nearest_one_pos n)
      have hproduct : mul (Binary64.round n 1) (tenTo e) = nearestDecimal n (.ofNat e) := by
        rw [mul_of_exact hexact (exact_tenTo e he), Binary64.round, if_neg (by positivity),
          nearestDecimal]
      have hroom : ¬ 308 < e := Nat.not_lt.2 (Nat.le_trans he (by decide))
      rw [real?, scale?, if_neg hne, if_neg hroom, hproduct]
      dsimp only
      rw [if_pos hfinite, Option.map_some]
    | negSucc e =>
      have hsmall : e < 308 := Nat.lt_of_lt_of_le he (by decide)
      have hquotient : div (Binary64.round n 1) (tenTo (e + 1)) = nearestDecimal n (.negSucc e) := by
        rw [div_of_exact hexact (exact_tenTo (e + 1) he) (by positivity), Binary64.round,
          if_neg hzero, nearestDecimal]
      rw [real?, scale?, Nat.div_eq_of_lt hsmall, Nat.mod_eq_of_lt hsmall, divTimes, hquotient,
        Option.map_some]

end Json

namespace Number

variable {x : Binary64}

theorem readsBack_of_small (hfinite : (real x).InRange) (h : x.numeral.significand ≤ 2 ^ 53)
    (hscale : x.numeral.scale.natAbs ≤ 22) : (real x).ReadsBack := by
  have hnearest := x.nearest?_numeral hfinite
  rw [Json.Numeral.nearest?, x.negative_numeral] at hnearest
  rw [ReadsBack, reread?_real, Json.real?_of_small h hscale hnearest]
  rfl

end Number

end RouteModule
