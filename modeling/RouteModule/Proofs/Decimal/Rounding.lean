import Mathlib.Algebra.Order.Ring.Nat
import Mathlib.Tactic.GCongr
import Mathlib.Tactic.Positivity
import Mathlib.Tactic.Ring
import RouteModule.Decimal

/-!
Rounding to floating point numbers. The mantissa of a fraction is a quotient with as many bits as fit,
and only one exponent gives it that many; so the nearest number depends on the fraction alone, and not
on how it is written. What fits without a remainder is not rounded at all.
-/

namespace RouteModule.Binary64

/-- How many of the least positive number make one. -/
def unit : Nat := 2 ^ 1074

theorem unit_pos : 0 < unit := by
  unfold unit
  positivity

theorem unit_eq_mul {e : Nat} (h : e ≤ 1074) : unit = 2 ^ (1074 - e) * 2 ^ e := by
  rw [unit, ← Nat.pow_add, Nat.sub_add_cancel h]

variable {num den e f k : Nat}

section Quotients

/-- A rounded quotient does not change when both of its parts are multiplied. -/
theorem roundDiv_mul (hk : 0 < k) (num den : Nat) :
    roundDiv (k * num) (k * den) = roundDiv num den := by
  have htwice : 2 * (k * (num % den)) = k * (2 * (num % den)) := by ring
  simp only [roundDiv, Nat.mul_div_mul_left _ _ hk, Nat.mul_mod_mul_left, htwice,
    Nat.mul_lt_mul_left hk]

theorem roundDiv_of_mod (h : num % den = 0) : roundDiv num den = num / den := by
  rw [roundDiv, h]
  by_cases hden : 0 < den
  · simp [hden]
  · obtain rfl : den = 0 := by omega
    simp

/-- The parts of a scaled fraction are those of another one, up to a factor. -/
theorem exists_unscale (num den e : Nat) :
    ∃ k, 0 < k ∧ num * unit = k * (unscale num den e).1 ∧
      den * 2 ^ e = k * (unscale num den e).2 := by
  unfold unscale
  split
  · next h =>
    refine ⟨unit, unit_pos, Nat.mul_comm _ _, ?_⟩
    have hpow : 2 ^ e = unit * 2 ^ (e - 1074) := by
      rw [unit, ← Nat.pow_add, Nat.add_sub_cancel' h]
    rw [hpow, Nat.pow_eq]
    ring
  · next h =>
    refine ⟨2 ^ e, Nat.two_pow_pos e, ?_, Nat.mul_comm _ _⟩
    rw [unit_eq_mul (Nat.le_of_not_le h), Nat.pow_eq]
    ring

theorem unscale_div (num den e : Nat) :
    (unscale num den e).1 / (unscale num den e).2 = num * unit / (den * 2 ^ e) := by
  obtain ⟨k, hk, hnum, hden⟩ := exists_unscale num den e
  rw [hnum, hden, Nat.mul_div_mul_left _ _ hk]

theorem roundDiv_unscale (num den e : Nat) :
    roundDiv (unscale num den e).1 (unscale num den e).2 =
      roundDiv (num * unit) (den * 2 ^ e) := by
  obtain ⟨k, hk, hnum, hden⟩ := exists_unscale num den e
  rw [hnum, hden, roundDiv_mul hk]

end Quotients

section Exponents

/-- The exponent for which the mantissa of a fraction has 53 bits, or the least one if it has
fewer. -/
structure Fits (num den e : Nat) : Prop where
  lt : num * unit / (den * 2 ^ e) < 2 ^ 53
  le : e = 0 ∨ 2 ^ 52 ≤ num * unit / (den * 2 ^ e)

/-- A larger exponent would leave the mantissa with fewer bits. -/
theorem Fits.le_of_fits (hden : 0 < den) (he : Fits num den e) (hf : Fits num den f) : f ≤ e := by
  by_contra hlt
  obtain ⟨j, rfl⟩ := Nat.exists_eq_add_of_lt (Nat.lt_of_not_le hlt)
  have hpos : 0 < den * 2 ^ e := by positivity
  have hhigh : num * unit < 2 ^ 53 * (den * 2 ^ e) := (Nat.div_lt_iff_lt_mul hpos).1 he.lt
  have hlow : 2 ^ 52 * (den * 2 ^ (e + j + 1)) ≤ num * unit := by
    rcases hf.le with hzero | hle
    · omega
    · exact (Nat.le_div_iff_mul_le (by positivity)).1 hle
  have hgrow : 2 ^ 53 * (den * 2 ^ e) ≤ 2 ^ 52 * (den * 2 ^ (e + j + 1)) := by
    have hone : 1 ≤ 2 ^ j := Nat.one_le_two_pow
    calc 2 ^ 53 * (den * 2 ^ e) = 2 ^ 53 * (den * 2 ^ e) * 1 := (Nat.mul_one _).symm
      _ ≤ 2 ^ 53 * (den * 2 ^ e) * 2 ^ j := Nat.mul_le_mul_left _ hone
      _ = 2 ^ 52 * (den * 2 ^ (e + j + 1)) := by
        rw [Nat.add_assoc, Nat.pow_add 2 e, Nat.pow_add 2 j]
        ring
  omega

theorem Fits.eq (hden : 0 < den) (he : Fits num den e) (hf : Fits num den f) : e = f :=
  Nat.le_antisymm (hf.le_of_fits hden he) (he.le_of_fits hden hf)

/-- The lengths of the parts of a fraction give its exponent, or one less. -/
theorem log2_bounds (hnum : 0 < num) (hden : 0 < den) (he : e = num.log2 + 1074 - den.log2 - 53) :
    num * unit < 2 ^ 54 * (den * 2 ^ e) ∧
      (e = 0 ∨ 2 ^ 52 * (den * 2 ^ e) ≤ num * unit) := by
  have hnum₁ : 2 ^ num.log2 ≤ num := Nat.log2_self_le (Nat.ne_of_gt hnum)
  have hnum₂ : num < 2 ^ (num.log2 + 1) := Nat.lt_log2_self
  have hden₁ : 2 ^ den.log2 ≤ den := Nat.log2_self_le (Nat.ne_of_gt hden)
  have hden₂ : den < 2 ^ (den.log2 + 1) := Nat.lt_log2_self
  constructor
  · calc num * unit < 2 ^ (num.log2 + 1) * unit := Nat.mul_lt_mul_of_pos_right hnum₂ unit_pos
      _ = 2 ^ (num.log2 + 1 + 1074) := by rw [unit, ← Nat.pow_add]
      _ ≤ 2 ^ (54 + (den.log2 + e)) := Nat.pow_le_pow_right (by decide) (by omega)
      _ = 2 ^ 54 * (2 ^ den.log2 * 2 ^ e) := by rw [Nat.pow_add, Nat.pow_add 2 den.log2]
      _ ≤ 2 ^ 54 * (den * 2 ^ e) := by gcongr
  · by_cases hzero : e = 0
    · exact .inl hzero
    · refine .inr ?_
      calc 2 ^ 52 * (den * 2 ^ e) ≤ 2 ^ 52 * (2 ^ (den.log2 + 1) * 2 ^ e) := by gcongr
        _ = 2 ^ (52 + (den.log2 + 1 + e)) := by rw [Nat.pow_add 2 52, Nat.pow_add 2 (_ + 1)]
        _ = 2 ^ (num.log2 + 1074) := by congr 1; omega
        _ = 2 ^ num.log2 * unit := by rw [unit, ← Nat.pow_add]
        _ ≤ num * unit := by gcongr

theorem nearest_eq (num den : Nat) : nearest num den =
    let e := num.log2 + 1074 - den.log2 - 53
    let f := if num * unit / (den * 2 ^ e) < 2 ^ 53 then e else e + 1
    f * 2 ^ 52 + roundDiv (num * unit) (den * 2 ^ f) := by
  have hnearest : nearest num den =
      let e := num.log2 + 1074 - den.log2 - 53
      let f := if (unscale num den e).1 / (unscale num den e).2 < Nat.pow 2 53 then e else e + 1
      f * Nat.pow 2 52 + roundDiv (unscale num den f).1 (unscale num den f).2 := rfl
  simp only [unscale_div, roundDiv_unscale] at hnearest
  exact hnearest

/-- The nearest magnitude is made of the exponent and the rounded mantissa. -/
theorem exists_fits (hnum : 0 < num) (hden : 0 < den) :
    ∃ e, Fits num den e ∧
      nearest num den = e * 2 ^ 52 + roundDiv (num * unit) (den * 2 ^ e) := by
  obtain ⟨hhigh, hlow⟩ := log2_bounds hnum hden rfl
  rw [nearest_eq]
  generalize num.log2 + 1074 - den.log2 - 53 = e at hhigh hlow
  dsimp only
  have hpos : 0 < den * 2 ^ e := by positivity
  have hpos' : 0 < den * 2 ^ (e + 1) := by positivity
  have hdouble : den * 2 ^ (e + 1) = 2 * (den * 2 ^ e) := by ring
  split
  · next hlt =>
    refine ⟨e, ⟨hlt, hlow.imp_right (Nat.le_div_iff_mul_le hpos).2⟩, rfl⟩
  · next hge =>
    rw [Nat.not_lt, Nat.le_div_iff_mul_le hpos] at hge
    refine ⟨e + 1, ⟨(Nat.div_lt_iff_lt_mul hpos').2 ?_, .inr ((Nat.le_div_iff_mul_le hpos').2 ?_)⟩,
      rfl⟩ <;> omega

theorem nearest_of_fits (hnum : 0 < num) (hden : 0 < den) (h : Fits num den e) :
    nearest num den = e * 2 ^ 52 + roundDiv (num * unit) (den * 2 ^ e) := by
  obtain ⟨f, hf, hnearest⟩ := exists_fits hnum hden
  rw [hnearest, h.eq hden hf]

/-- Fractions that are equal have the same nearest magnitude. -/
theorem nearest_congr {num' den' : Nat} (hnum : 0 < num) (hden : 0 < den) (hnum' : 0 < num')
    (hden' : 0 < den') (h : num * den' = num' * den) : nearest num den = nearest num' den' := by
  have hscale : ∀ {k num den : Nat}, 0 < k → 0 < num → 0 < den →
      nearest (k * num) (k * den) = nearest num den := by
    intro k num den hk hnum hden
    obtain ⟨e, he, hnearest⟩ := exists_fits hnum hden
    have hquotient : k * num * unit / (k * den * 2 ^ e) = num * unit / (den * 2 ^ e) := by
      rw [Nat.mul_assoc, Nat.mul_assoc, Nat.mul_div_mul_left _ _ hk]
    have hfits : Fits (k * num) (k * den) e := ⟨by rw [hquotient]; exact he.lt,
      by rw [hquotient]; exact he.le⟩
    rw [nearest_of_fits (Nat.mul_pos hk hnum) (Nat.mul_pos hk hden) hfits, hnearest, Nat.mul_assoc,
      Nat.mul_assoc, roundDiv_mul hk]
  calc nearest num den = nearest (den' * num) (den' * den) := (hscale hden' hnum hden).symm
    _ = nearest (den * num') (den * den') := by
      rw [Nat.mul_comm den' num, h, Nat.mul_comm num', Nat.mul_comm den']
    _ = nearest num' den' := hscale hden hnum' hden'

end Exponents

section Exact

variable {x y n m : Nat}

theorem fraction_snd_pos (x : Nat) : 0 < (fraction x).2 := by
  unfold fraction
  dsimp only
  split
  · exact Nat.one_pos
  · exact Nat.pow_pos (by decide)

theorem round_zero (den : Nat) : round 0 den = 0 := if_pos rfl

theorem fraction_zero : (fraction 0).1 = 0 := by
  rw [fraction, scaled, if_pos (Nat.zero_div _)]
  dsimp only
  rw [if_neg (by decide)]

/-- The magnitude is a fraction without having been rounded. -/
def Exact (x num den : Nat) : Prop := (fraction x).1 * den = num * (fraction x).2

theorem exact_zero : Exact 0 0 1 := by
  unfold Exact
  generalize (fraction 0).2 = d
  simp [fraction_zero]

theorem scaled_of_bounds {q : Nat} (hlt : q < 2 ^ 53) (hle : e = 0 ∨ 2 ^ 52 ≤ q) :
    scaled (e * 2 ^ 52 + q) = (q, e) := by
  simp only [scaled, Nat.pow_eq]
  split
  · next hzero =>
    obtain rfl : e = 0 := by omega
    simp
  · next hpos =>
    rw [Prod.mk.injEq]
    omega

/-- A mantissa that is a whole number needs no rounding. -/
theorem exact_nearest (hnum : 0 < num) (hden : 0 < den) (h : Fits num den e)
    (hmod : num * unit % (den * 2 ^ e) = 0) : Exact (nearest num den) num den := by
  obtain ⟨q, hq⟩ := Nat.dvd_of_mod_eq_zero hmod
  have hpos : 0 < den * 2 ^ e := by positivity
  have hquotient : num * unit / (den * 2 ^ e) = q := by rw [hq, Nat.mul_div_cancel_left _ hpos]
  have hscaled : scaled (nearest num den) = (q, e) := by
    rw [nearest_of_fits hnum hden h, roundDiv_of_mod hmod, hquotient]
    exact scaled_of_bounds (hquotient ▸ h.lt) (hquotient ▸ h.le)
  rw [Exact, fraction, hscaled]
  dsimp only
  split
  · next hle =>
    have hpow : 2 ^ e = unit * 2 ^ (e - 1074) := by
      rw [unit, ← Nat.pow_add, Nat.add_sub_cancel' hle]
    rw [hpow] at hq
    refine Nat.eq_of_mul_eq_mul_left unit_pos ?_
    calc unit * (q * Nat.pow 2 (e - 1074) * den) = den * (unit * 2 ^ (e - 1074)) * q := by
          rw [Nat.pow_eq]
          ring
      _ = unit * (num * 1) := by rw [← hq, Nat.mul_one, Nat.mul_comm]
  · next hlt =>
    rw [unit_eq_mul (Nat.le_of_not_le hlt)] at hq
    refine Nat.eq_of_mul_eq_mul_left (Nat.two_pow_pos e) ?_
    calc 2 ^ e * (q * den) = den * 2 ^ e * q := by ring
      _ = 2 ^ e * (num * Nat.pow 2 (1074 - e)) := by
        rw [← hq, Nat.pow_eq]
        ring

/-- Natural numbers of 53 bits are not rounded. -/
theorem exact_round (h : n ≤ 2 ^ 53) : Exact (round n 1) n 1 := by
  by_cases hzero : n = 0
  · subst hzero
    rw [round_zero]
    exact exact_zero
  have hpos : 0 < n := Nat.pos_of_ne_zero hzero
  obtain ⟨e, he, -⟩ := exists_fits hpos Nat.one_pos
  rw [round, if_neg hzero]
  refine exact_nearest hpos Nat.one_pos he (Nat.mod_eq_zero_of_dvd ?_)
  rw [Nat.one_mul]
  by_cases hle : e ≤ 1074
  · exact Dvd.dvd.mul_left (unit_eq_mul hle ▸ Nat.dvd_mul_left _ _) n
  · -- Otherwise the number has 54 bits and is the least of those.
    have hlow : 2 ^ 52 * 2 ^ e ≤ n * unit := by
      have hle := he.le.resolve_left (by omega)
      rwa [Nat.le_div_iff_mul_le (by positivity), Nat.one_mul] at hle
    have hsum : 53 + 1074 = 52 + 1075 := rfl
    have hlast : 2 ^ 53 * unit = 2 ^ 52 * 2 ^ 1075 := by
      unfold unit
      rw [← Nat.pow_add, hsum]
      exact pow_add 2 52 1075
    have hhigh : n * unit ≤ 2 ^ 53 * unit := Nat.mul_le_mul_right unit h
    have hexponent : 52 + e ≤ 52 + 1075 := by
      rw [← Nat.pow_le_pow_iff_right Nat.one_lt_two, Nat.pow_add, Nat.pow_add, ← hlast]
      exact Nat.le_trans hlow hhigh
    obtain rfl : e = 1075 := by omega
    rw [hlast] at hhigh
    rw [Nat.le_antisymm hhigh hlow]
    exact Nat.dvd_mul_left _ _

/-- The powers of ten that are not rounded. -/
theorem exact_tenTo : ∀ e ≤ 22, Exact (tenTo e) (10 ^ e) 1 := by
  unfold Exact
  decide +kernel

/-- A product of exact magnitudes is rounded once. -/
theorem mul_of_exact (hx : Exact x n 1) (hy : Exact y m 1) : mul x y = round (n * m) 1 := by
  rw [Exact, Nat.mul_one] at hx hy
  have hxpos := fraction_snd_pos x
  have hypos := fraction_snd_pos y
  rw [mul, hx, hy]
  generalize (fraction x).2 = a at hxpos
  generalize (fraction y).2 = b at hypos
  by_cases hzero : n * m = 0
  · have hproduct : n * a * (m * b) = 0 := by
      calc n * a * (m * b) = n * m * (a * b) := by ring
        _ = 0 := by rw [hzero, Nat.zero_mul]
    rw [hzero, hproduct, round_zero, round_zero]
  · have hpos : 0 < n * m := Nat.pos_of_ne_zero hzero
    have hproduct : n * a * (m * b) = n * m * (a * b) := by ring
    have hne : n * m * (a * b) ≠ 0 := by positivity
    rw [hproduct, round, round, if_neg hne, if_neg hzero]
    exact nearest_congr (by positivity) (by positivity) hpos Nat.one_pos (by ring)

/-- A quotient of exact magnitudes is rounded once. -/
theorem div_of_exact (hx : Exact x n 1) (hy : Exact y m 1) (hm : 0 < m) : div x y = round n m := by
  rw [Exact, Nat.mul_one] at hx hy
  have hxpos := fraction_snd_pos x
  have hypos := fraction_snd_pos y
  rw [div, hx, hy]
  generalize (fraction x).2 = a at hxpos
  generalize (fraction y).2 = b at hypos
  by_cases hzero : n = 0
  · rw [hzero, Nat.zero_mul, Nat.zero_mul, round_zero, round_zero]
  · have hpos : 0 < n := Nat.pos_of_ne_zero hzero
    have hne : n * a * b ≠ 0 := by positivity
    rw [round, round, if_neg hne, if_neg hzero]
    exact nearest_congr (by positivity) (by positivity) hpos hm (by ring)

end Exact

section Decimals

theorem digitCount_mul_pow {d : Nat} (hd : 0 < d) (k : Nat) :
    digitCount (d * 10 ^ k) = digitCount d + k := by
  induction k with
  | zero => rw [Nat.pow_zero, Nat.mul_one, Nat.add_zero]
  | succ k ih =>
    have hle : 10 ≤ d * 10 ^ (k + 1) := by
      have hpos : 0 < d * 10 ^ k := by positivity
      rw [Nat.pow_succ, ← Nat.mul_assoc]
      omega
    have hdiv : d * 10 ^ (k + 1) / 10 = d * 10 ^ k := by
      rw [Nat.pow_succ, ← Nat.mul_assoc, Nat.mul_div_cancel _ (by decide)]
    rw [digitCount, Nat.toDigits_of_base_le (by decide) hle, hdiv, List.length_append,
      List.length_singleton, ← digitCount, ih, Nat.add_assoc]

/-- The magnitude nearest to `digits * 10 ^ exponent`. -/
def nearestDecimal (digits : Nat) : Int → Nat
  | .ofNat e => nearest (digits * 10 ^ e) 1
  | .negSucc e => nearest digits (10 ^ (e + 1))

theorem ofDecimal?_eq (negative : Bool) (digits : Nat) (exponent : Int) :
    ofDecimal? negative digits exponent =
      if digits = 0 then some ⟨negative, 0⟩
      else if exponent + digitCount digits > 310 then none
      else if exponent + digitCount digits < -330 then some ⟨negative, 0⟩
      else if nearestDecimal digits exponent < infinity then
        some ⟨negative, nearestDecimal digits exponent⟩
      else none := by
  cases exponent <;> rfl

theorem of_ofDecimal? {negative : Bool} {digits : Nat} {exponent : Int} {x : Binary64}
    (hpos : 0 < digits) (hlow : -330 ≤ exponent)
    (h : ofDecimal? negative digits exponent = some x) :
    x = ⟨negative, nearestDecimal digits exponent⟩ ∧
      nearestDecimal digits exponent < infinity := by
  have hcount : ¬ exponent + digitCount digits < -330 := by omega
  rw [ofDecimal?_eq, if_neg (Nat.ne_of_gt hpos), if_neg hcount] at h
  split at h
  · cases h
  · split at h
    · next hfinite => exact ⟨(Option.some.inj h).symm, hfinite⟩
    · cases h

/-- Zeros behind the digits change nothing but the exponent. -/
theorem nearestDecimal_mul_pow {d : Nat} (hd : 0 < d) (e : Int) (k : Nat) :
    nearestDecimal (d * 10 ^ k) (e - k) = nearestDecimal d e := by
  have hpos : ∀ j : Nat, 0 < d * 10 ^ j := fun j => by positivity
  have hten : ∀ j : Nat, 0 < 10 ^ j := fun j => by positivity
  induction k with
  | zero => rw [Nat.pow_zero, Nat.mul_one, Int.natCast_zero, Int.sub_zero]
  | succ k ih =>
    rw [← ih]
    have hstep : e - (k + 1 : Nat) = (e - k) - 1 := by omega
    rw [hstep]
    generalize e - k = f
    match f with
    | .ofNat (f + 1) =>
      have hf : Int.ofNat (f + 1) - 1 = .ofNat f := by simp
      rw [hf, nearestDecimal, nearestDecimal]
      congr 1
      ring
    | .ofNat 0 =>
      have hf : Int.ofNat 0 - 1 = .negSucc 0 := rfl
      rw [hf, nearestDecimal, nearestDecimal]
      refine nearest_congr (hpos _) (hten _) ?_ Nat.one_pos (by ring)
      rw [Nat.pow_zero, Nat.mul_one]
      exact hpos k
    | .negSucc f =>
      have hf : Int.negSucc f - 1 = .negSucc (f + 1) := rfl
      rw [hf, nearestDecimal, nearestDecimal]
      exact nearest_congr (hpos _) (hten _) (hpos _) (hten _) (by ring)

theorem ofDecimal?_mul_pow (negative : Bool) (d : Nat) (e : Int) (k : Nat) :
    ofDecimal? negative (d * 10 ^ k) (e - k) = ofDecimal? negative d e := by
  by_cases hd : d = 0
  · rw [hd, Nat.zero_mul, ofDecimal?_zero, ofDecimal?_zero]
  · have hpos : 0 < d := Nat.pos_of_ne_zero hd
    have hne : d * 10 ^ k ≠ 0 := by positivity
    have htop : e - k + (digitCount d + k : Nat) = e + digitCount d := by omega
    rw [ofDecimal?_eq, ofDecimal?_eq, if_neg hd, if_neg hne, digitCount_mul_pow hpos, htop,
      nearestDecimal_mul_pow hpos]

end Decimals

end RouteModule.Binary64
