import Mathlib.Tactic.Linarith
import RouteModule.Proofs.Decimal.Rounding

/-!
The shortest digits of a floating point number are digits of that number. On a grid of seventeen digits
the nearer one of the two points next to the number lies within its rounding interval; so there are
digits that read back, and the fewest of them do so too.
-/

namespace RouteModule.Binary64

section Mantissas

variable {num den n d m q e c : Nat}

/-- A quotient that is less than a half away from a whole number is rounded to it. -/
theorem roundDiv_of_close (hhigh : 2 * num < (2 * q + 1) * den) (hlow : 2 * q * den < 2 * num + den) :
    roundDiv num den = q := by
  have hdiv : den * (num / den) + num % den = num := Nat.div_add_mod num den
  have hden : 0 < den := by
    by_contra hzero
    obtain rfl : den = 0 := by omega
    omega
  have hmod : num % den < den := Nat.mod_lt _ hden
  rw [roundDiv]
  generalize num / den = k at hdiv
  generalize num % den = r at hdiv hmod
  have hk : k = q ∨ k + 1 = q := by
    have hle : k < q + 1 := by
      by_contra hge
      have hmul : den * (q + 1) ≤ den * k := Nat.mul_le_mul_left den (Nat.le_of_not_lt hge)
      nlinarith
    have hge : q < k + 2 := by
      by_contra hlt
      have hmul : den * (k + 2) ≤ den * q := Nat.mul_le_mul_left den (Nat.le_of_not_lt hlt)
      nlinarith
    omega
  rcases hk with rfl | rfl
  · have htwice : 2 * r < den := by nlinarith
    simp [htwice]
  · have htwice : den < 2 * r := by nlinarith
    simp [htwice, Nat.not_lt_of_lt htwice]

/-- The mantissa and the exponent of a positive magnitude. -/
structure Mantissa (m q e : Nat) : Prop where
  eq : m = e * 2 ^ 52 + q
  pos : 0 < q
  lt : q < 2 ^ 53
  le : e = 0 ∨ 2 ^ 52 ≤ q

theorem mantissa_scaled (hm : 0 < m) : Mantissa m (scaled m).1 (scaled m).2 := by
  simp only [scaled, Nat.pow_eq]
  split
  · next hzero =>
    dsimp only
    exact ⟨by omega, hm, by omega, .inl rfl⟩
  · next hpos =>
    dsimp only
    exact ⟨by omega, by omega, by omega, .inr (by omega)⟩

theorem fraction_scaled (m : Nat) :
    (fraction m).1 * unit = (scaled m).1 * 2 ^ (scaled m).2 * (fraction m).2 := by
  rw [fraction]
  generalize scaled m = r
  obtain ⟨q, e⟩ := r
  dsimp only
  split
  · next hle =>
    have hpow : 2 ^ e = unit * 2 ^ (e - 1074) := by
      rw [unit, ← Nat.pow_add, Nat.add_sub_cancel' hle]
    rw [hpow, Nat.pow_eq]
    ring
  · next hlt =>
    rw [unit_eq_mul (Nat.le_of_not_le hlt), Nat.pow_eq]
    ring

section Close

variable {j N D R B : Nat} (hB : 0 < B) (hvalue : R * N = q * (c * D) * B)

include hB hvalue

theorem above_of_close (hsmall : q * D < N) (hhigh : 2 * (c * D) ≤ 2 * N + D) :
    2 * R < (2 * q + 1) * B := by
  refine Nat.lt_of_mul_lt_mul_right (a := N) ?_
  calc 2 * R * N = q * (2 * (c * D)) * B := by
        rw [Nat.mul_assoc, hvalue]
        ring
    _ ≤ q * (2 * N + D) * B := by gcongr
    _ = (2 * q * N + q * D) * B := by ring
    _ < (2 * q * N + N) * B := by gcongr
    _ = (2 * q + 1) * B * N := by ring

theorem below_of_close (hsmall : j * q * D < N) (hlow : 2 * N ≤ 2 * (c * D) + D) :
    2 * j * q * B < 2 * j * R + B := by
  refine Nat.lt_of_mul_lt_mul_right (a := N) ?_
  calc 2 * j * q * B * N = j * q * (2 * N) * B := by ring
    _ ≤ j * q * (2 * (c * D) + D) * B := by gcongr
    _ = 2 * j * (q * (c * D) * B) + j * q * D * B := by ring
    _ < 2 * j * (q * (c * D) * B) + N * B := by gcongr
    _ = (2 * j * R + B) * N := by
      rw [← hvalue]
      ring

end Close

/-- A fraction that is close to a magnitude is rounded to it. The magnitude is `N / D` and the fraction
is `c`, on a grid on which the magnitude has seventeen digits. -/
theorem nearest_of_close {N D : Nat} (h : Mantissa m q e) (hn : 0 < n) (hd : 0 < d) (hD : 0 < D)
    (hdigits : 10 ^ 16 * D ≤ N) (hhigh : 2 * (c * D) ≤ 2 * N + D) (hlow : 2 * N ≤ 2 * (c * D) + D)
    (hvalue : n * unit * N = q * (c * D) * (d * 2 ^ e)) : nearest n d = m := by
  have hB : 0 < d * 2 ^ e := by positivity
  have hq := h.lt
  -- The mantissa has fewer digits than the grid, so that half a step on the grid is too little to
  -- change it.
  have hsmall : ∀ k < 10 ^ 16, k * D < N := fun k hk =>
    Nat.lt_of_lt_of_le (Nat.mul_lt_mul_of_pos_right hk hD) hdigits
  have hupper := above_of_close hB hvalue (hsmall q (by omega)) hhigh
  have hlower := below_of_close (j := 1) hB hvalue (hsmall (1 * q) (by omega)) hlow
  rw [Nat.mul_one] at hlower
  by_cases hinside : e = 0 ∨ 2 ^ 52 < q ∨ q * (d * 2 ^ e) ≤ n * unit
  case pos =>
    have hfits : Fits n d e := by
      refine ⟨(Nat.div_lt_iff_lt_mul hB).2 ?_, ?_⟩
      · have hstep : (q + 1) * (d * 2 ^ e) ≤ 2 ^ 53 * (d * 2 ^ e) := Nat.mul_le_mul_right _ hq
        nlinarith
      · rcases h.le with hzero | hle
        · exact .inl hzero
        · refine hinside.imp_right fun hinside => (Nat.le_div_iff_mul_le hB).2 ?_
          rcases hinside with hmore | hmore
          · have hstep : (2 ^ 52 + 1) * (d * 2 ^ e) ≤ q * (d * 2 ^ e) :=
              Nat.mul_le_mul_right _ hmore
            nlinarith
          · exact Nat.le_trans (Nat.mul_le_mul_right _ hle) hmore
    rw [nearest_of_fits hn hd hfits, roundDiv_of_close hupper hlower, h.eq]
  case neg =>
    -- Below the least mantissa of an exponent the next smaller exponent gives a bit more.
    obtain ⟨hzero, hmore⟩ := not_or.1 hinside
    obtain ⟨hmore, hbelow⟩ := not_or.1 hmore
    have hleast : q = 2 ^ 52 := Nat.le_antisymm (by omega) (h.le.resolve_left hzero)
    have hlower' := below_of_close (j := 2) hB hvalue (hsmall (2 * q) (by omega)) hlow
    obtain ⟨f, rfl⟩ := Nat.exists_eq_succ_of_ne_zero hzero
    subst hleast
    have hdouble : d * 2 ^ (f + 1) = 2 * (d * 2 ^ f) := by ring
    rw [Nat.succ_eq_add_one, hdouble] at hbelow hlower'
    have hB' : 0 < d * 2 ^ f := by positivity
    have hfits : Fits n d f := by
      refine ⟨(Nat.div_lt_iff_lt_mul hB').2 ?_, .inr ((Nat.le_div_iff_mul_le hB').2 ?_)⟩ <;> omega
    have hround : roundDiv (n * unit) (d * 2 ^ f) = 2 ^ 53 :=
      roundDiv_of_close (by omega) (by omega)
    rw [nearest_of_fits hn hd hfits, hround, h.eq]
    omega

end Mantissas

section Grids

variable {num den m j : Nat} {L : Int}

theorem digitCount_bounds {n : Nat} (hn : 0 < n) :
    ∃ k, digitCount n = k + 1 ∧ 10 ^ k ≤ n ∧ n < 10 ^ (k + 1) := by
  induction n using Nat.strongRecOn with
  | ind n ih =>
    rcases Nat.lt_or_ge n 10 with hlt | hge
    · exact ⟨0, by rw [digitCount, Nat.toDigits_of_lt_base hlt]; rfl, hn, hlt⟩
    · obtain ⟨k, hk, hle, hlt⟩ := ih (n / 10) (by omega) (by omega)
      refine ⟨k + 1, ?_, ?_, ?_⟩
      · rw [digitCount, Nat.toDigits_of_base_le (by decide) hge, List.length_append,
          List.length_singleton, ← digitCount, hk]
      · rw [Nat.pow_succ]
        omega
      · rw [Nat.pow_succ]
        omega

/-- The first digit of a positive fraction stands for ten to the power of `L`. -/
def Leads (num den : Nat) : Int → Prop
  | .ofNat k => den * 10 ^ k ≤ num ∧ num < den * 10 ^ (k + 1)
  | .negSucc k => den ≤ num * 10 ^ (k + 1) ∧ num * 10 ^ k < den

/-- The search for the first digit ends at it, unless it is farther away than the bound. -/
theorem leadingZeros_spec (fuel k : Nat) (hbelow : num * 10 ^ k < den)
    (hbound : den ≤ num * 10 ^ (k + 1 + fuel)) :
    ∃ i, leadingZeros num den fuel (k + 1) = i + 1 ∧ num * 10 ^ i < den ∧
      den ≤ num * 10 ^ (i + 1) := by
  induction fuel generalizing k with
  | zero => exact ⟨k, rfl, hbelow, hbound⟩
  | succ fuel ih =>
    rw [leadingZeros, Nat.pow_eq]
    split
    · next hle => exact ⟨k, rfl, hbelow, hle⟩
    · next hlt =>
      refine ih (k + 1) (Nat.lt_of_not_le hlt) ?_
      rwa [Nat.add_assoc (k + 1), Nat.add_comm 1]

theorem leads_leadingExponent (hden : 0 < den) (hbound : den ≤ num * 10 ^ 401) :
    Leads num den (leadingExponent num den) := by
  rw [leadingExponent]
  split
  · next hle =>
    have hpos : 0 < num / den := Nat.div_pos hle hden
    obtain ⟨k, hk, hlow, hhigh⟩ := digitCount_bounds hpos
    have hexponent : ((digitCount (num / den) : Nat) : Int) - 1 = .ofNat k := by
      rw [hk]
      simp
    rw [hexponent]
    rw [Nat.le_div_iff_mul_le hden, Nat.mul_comm] at hlow
    rw [Nat.div_lt_iff_lt_mul hden, Nat.mul_comm] at hhigh
    exact ⟨hlow, hhigh⟩
  · next hlt =>
    have hbelow : num * 10 ^ 0 < den := by omega
    obtain ⟨i, hi, hlow, hhigh⟩ := leadingZeros_spec 400 0 hbelow hbound
    rw [hi]
    exact ⟨hhigh, hlow⟩

/-- On the grid that has `j` digits behind the first one, a number has `j + 1` digits. -/
theorem atScale_bounds (h : Leads num den L) (j : Nat) :
    10 ^ j * (atScale num den (L - j)).2 ≤ (atScale num den (L - j)).1 ∧
      (atScale num den (L - j)).1 < 10 ^ (j + 1) * (atScale num den (L - j)).2 := by
  match L with
  | .ofNat k =>
    obtain ⟨hlow, hhigh⟩ := h
    rcases Nat.lt_or_ge k j with hlt | hle
    · obtain ⟨i, rfl⟩ := Nat.exists_eq_add_of_lt hlt
      have hscale : Int.ofNat k - (k + i + 1 : Nat) = .negSucc i := by
        rw [Int.ofNat_eq_natCast]
        omega
      rw [hscale, atScale, Nat.pow_eq]
      constructor
      · calc 10 ^ (k + i + 1) * den = den * 10 ^ k * 10 ^ (i + 1) := by ring
          _ ≤ num * 10 ^ (i + 1) := Nat.mul_le_mul_right _ hlow
      · calc num * 10 ^ (i + 1) < den * 10 ^ (k + 1) * 10 ^ (i + 1) :=
            Nat.mul_lt_mul_of_pos_right hhigh (by positivity)
          _ = 10 ^ (k + i + 1 + 1) * den := by ring
    · obtain ⟨i, rfl⟩ := Nat.exists_eq_add_of_le hle
      have hscale : Int.ofNat (j + i) - j = .ofNat i := by simp
      rw [hscale, atScale, Nat.pow_eq]
      rw [Nat.pow_add] at hlow
      rw [Nat.add_right_comm, Nat.pow_add] at hhigh
      constructor
      · calc 10 ^ j * (den * 10 ^ i) = den * (10 ^ j * 10 ^ i) := by ring
          _ ≤ num := hlow
      · calc num < den * (10 ^ (j + 1) * 10 ^ i) := hhigh
          _ = 10 ^ (j + 1) * (den * 10 ^ i) := by ring
  | .negSucc k =>
    obtain ⟨hlow, hhigh⟩ := h
    have hscale : Int.negSucc k - j = .negSucc (k + j) := by omega
    rw [hscale, atScale, Nat.pow_eq]
    constructor
    · calc 10 ^ j * den ≤ 10 ^ j * (num * 10 ^ (k + 1)) := Nat.mul_le_mul_left _ hlow
        _ = num * 10 ^ (k + j + 1) := by ring
    · calc num * 10 ^ (k + j + 1) = num * 10 ^ k * 10 ^ (j + 1) := by ring
        _ < den * 10 ^ (j + 1) := Nat.mul_lt_mul_of_pos_right hhigh (by positivity)
        _ = 10 ^ (j + 1) * den := Nat.mul_comm _ _

theorem atScale_snd_pos (hden : 0 < den) (E : Int) : 0 < (atScale num den E).2 := by
  cases E with
  | ofNat k => exact Nat.mul_pos hden (Nat.pow_pos (by decide))
  | negSucc k => exact hden

/-- A point of the grid that the number is seen on, as a fraction. -/
theorem exists_point (num den c : Nat) (E : Int) :
    ∃ n d, nearestDecimal c E = nearest n d ∧ 0 < d ∧ (0 < c → 0 < n) ∧
      n * den * (atScale num den E).1 = num * (c * (atScale num den E).2) * d := by
  cases E with
  | ofNat k =>
    refine ⟨c * 10 ^ k, 1, by rw [nearestDecimal], Nat.one_pos, fun hc => by positivity, ?_⟩
    rw [atScale, Nat.pow_eq]
    ring
  | negSucc k =>
    refine ⟨c, 10 ^ (k + 1), by rw [nearestDecimal], by positivity, id, ?_⟩
    rw [atScale, Nat.pow_eq]
    ring

/-- The point of a grid of seventeen digits that is nearest to a magnitude is rounded to it. -/
theorem nearestDecimal_of_close {E : Int} {c N D : Nat} (hm : 0 < m)
    (hscale : atScale (fraction m).1 (fraction m).2 E = (N, D)) (hdigits : 10 ^ 16 * D ≤ N)
    (hhigh : 2 * (c * D) ≤ 2 * N + D) (hlow : 2 * N ≤ 2 * (c * D) + D) :
    nearestDecimal c E = m := by
  have hfraction := fraction_scaled m
  have hpos := fraction_snd_pos m
  obtain ⟨n, d, hnearest, hd, hn, hvalue⟩ := exists_point (fraction m).1 (fraction m).2 c E
  have hD : 0 < D := by
    have hD : 0 < (atScale (fraction m).1 (fraction m).2 E).2 := atScale_snd_pos hpos E
    rwa [hscale] at hD
  rw [hscale] at hvalue
  dsimp only at hvalue
  have hc : 0 < c := by
    by_contra hzero
    obtain rfl : c = 0 := by omega
    omega
  rw [hnearest]
  refine nearest_of_close (mantissa_scaled hm) (hn hc) hd hD hdigits hhigh hlow ?_
  generalize unit = u at hfraction ⊢
  refine Nat.eq_of_mul_eq_mul_left hpos ?_
  calc (fraction m).2 * (n * u * N) = n * (fraction m).2 * N * u := by ring
    _ = (fraction m).1 * u * (c * D) * d := by
      rw [hvalue]
      ring
    _ = (fraction m).2 * ((scaled m).1 * (c * D) * (d * 2 ^ (scaled m).2)) := by
      rw [hfraction]
      ring

end Grids

section Digits

variable {tie : Tie} {m count d : Nat} {E : Int}

theorem fraction_fst_pos (hm : 0 < m) : 0 < (fraction m).1 := by
  have hq := (mantissa_scaled hm).pos
  rw [fraction]
  generalize scaled m = r at hq
  obtain ⟨q, e⟩ := r
  dsimp only at hq ⊢
  split
  · exact Nat.mul_pos hq (Nat.pow_pos (by decide))
  · exact hq

/-- The least positive number has its first digit at the place 324 behind the point. -/
theorem fraction_low (hm : 0 < m) : (fraction m).2 ≤ (fraction m).1 * 10 ^ 324 := by
  have hpow : (fraction m).2 ≤ Nat.pow 2 1074 := by
    rw [fraction]
    generalize scaled m = r
    obtain ⟨q, e⟩ := r
    dsimp only
    split
    · exact Nat.pow_pos (by decide)
    · exact Nat.pow_le_pow_right (by decide) (Nat.sub_le _ _)
  have hten : Nat.pow 2 1074 ≤ Nat.pow 10 324 := by decide +kernel
  exact Nat.le_trans (Nat.le_trans hpow hten) (Nat.le_mul_of_pos_left _ (fraction_fst_pos hm))

/-- The greatest finite number has 309 digits. -/
theorem fraction_high (hm : 0 < m) (hfinite : m < infinity) :
    (fraction m).1 < (fraction m).2 * 10 ^ 309 := by
  have h := mantissa_scaled hm
  have hexponent : (scaled m).2 ≤ 1074 + 971 := by
    have heq := h.eq
    have hle := h.le
    have hinfinity : infinity = 2047 * 2 ^ 52 := rfl
    omega
  have hten : 2 ^ 53 * Nat.pow 2 971 ≤ 10 ^ 309 := by decide +kernel
  have hq := h.lt
  rw [fraction]
  generalize scaled m = r at hexponent hq
  obtain ⟨q, e⟩ := r
  dsimp only at hexponent hq ⊢
  split
  · have hpow : Nat.pow 2 (e - 1074) ≤ Nat.pow 2 971 :=
      Nat.pow_le_pow_right (by decide) (by omega)
    rw [Nat.one_mul]
    exact Nat.lt_of_lt_of_le (Nat.mul_lt_mul_of_lt_of_le hq hpow (Nat.pow_pos (by decide))) hten
  · have hone : 1 ≤ Nat.pow 2 971 := Nat.pow_pos (by decide)
    have hpos : 0 < Nat.pow 2 (1074 - e) := Nat.pow_pos (by decide)
    refine Nat.lt_of_lt_of_le hq (Nat.le_trans ?_ (Nat.le_mul_of_pos_left _ hpos))
    exact Nat.le_trans (Nat.le_mul_of_pos_right _ hone) hten

theorem leads_fraction (hm : 0 < m) :
    Leads (fraction m).1 (fraction m).2 (leadingExponent (fraction m).1 (fraction m).2) := by
  refine leads_leadingExponent (fraction_snd_pos m) (Nat.le_trans (fraction_low hm) ?_)
  exact Nat.mul_le_mul_left _ (Nat.pow_le_pow_right (by decide) (by decide))

theorem exponent_bounds (hm : 0 < m) (hfinite : m < infinity) :
    -324 ≤ leadingExponent (fraction m).1 (fraction m).2 ∧
      leadingExponent (fraction m).1 (fraction m).2 ≤ 308 := by
  have hleads := leads_fraction hm
  have hlow := fraction_low hm
  have hhigh := fraction_high hm hfinite
  have hden := fraction_snd_pos m
  have hnum := fraction_fst_pos hm
  generalize (fraction m).1 = num at *
  generalize (fraction m).2 = den at *
  generalize leadingExponent num den = L at *
  cases L with
  | ofNat k =>
    obtain ⟨hle, -⟩ := hleads
    have hlt : k < 309 := by
      rw [← Nat.pow_lt_pow_iff_right (a := 10) (by decide)]
      exact Nat.lt_of_mul_lt_mul_left (Nat.lt_of_le_of_lt hle hhigh)
    rw [Int.ofNat_eq_natCast]
    omega
  | negSucc k =>
    obtain ⟨-, hlt⟩ := hleads
    have hlt : k < 324 := by
      rw [← Nat.pow_lt_pow_iff_right (a := 10) (by decide)]
      exact Nat.lt_of_mul_lt_mul_left (Nat.lt_of_lt_of_le hlt hlow)
    omega

/-- A point with seventeen digits, or the one behind them, is within the range of the reader. -/
theorem ofDecimal?_of_seventeen (hm : 0 < m) (hfinite : m < infinity) (hlow : 10 ^ 16 ≤ d)
    (hhigh : d ≤ 10 ^ 17)
    (h : nearestDecimal d (leadingExponent (fraction m).1 (fraction m).2 - 16) = m) :
    ofDecimal? false d (leadingExponent (fraction m).1 (fraction m).2 - 16) = some ⟨false, m⟩ := by
  have hbounds := exponent_bounds hm hfinite
  have hpos : 0 < d := by omega
  obtain ⟨k, hk, hle, hlt⟩ := digitCount_bounds hpos
  have hk₁ : 16 < k + 1 := by
    rw [← Nat.pow_lt_pow_iff_right (a := 10) (by decide)]
    omega
  have hk₂ : k < 18 := by
    rw [← Nat.pow_lt_pow_iff_right (a := 10) (by decide)]
    omega
  rw [ofDecimal?_eq, if_neg (by omega), h, hk, if_neg (by omega), if_neg (by omega), if_pos hfinite]

/-- The point of a grid below a number: the number on the scale of the grid, without its fraction. -/
def below (m count : Nat) : Nat :=
  let scaled := atScale (fraction m).1 (fraction m).2
    (leadingExponent (fraction m).1 (fraction m).2 - count)
  scaled.1 / scaled.2

/-- One of the two points next to a number is chosen, if it reads back. -/
theorem onGrid?_eq (tie : Tie) (m count : Nat) : ∃ nearHigh : Bool, onGrid? tie m (count + 1) =
    let E := leadingExponent (fraction m).1 (fraction m).2 - count
    let reads (d : Nat) : Bool := ofDecimal? false d E == some ⟨false, m⟩
    match reads (below m count), reads (below m count + 1) with
    | true, true => some (if nearHigh then below m count + 1 else below m count, E)
    | true, false => some (below m count, E)
    | false, true => some (below m count + 1, E)
    | false, false => none := by
  have hexponent : leadingExponent (fraction m).1 (fraction m).2 - (count + 1 : Nat) + 1 =
      leadingExponent (fraction m).1 (fraction m).2 - count := by omega
  simp only [onGrid?, hexponent, below]
  exact ⟨_, rfl⟩

/-- The digits that were found on a grid read back, and there are no more of them than were asked
for. -/
theorem onGrid?_spec (hm : 0 < m) (h : onGrid? tie m (count + 1) = some (d, E)) :
    ofDecimal? false d E = some ⟨false, m⟩ ∧ d ≤ 10 ^ (count + 1) := by
  have hbelow : below m count < 10 ^ (count + 1) := by
    have hscale := (atScale_bounds (leads_fraction hm) count).2
    exact Nat.div_lt_of_lt_mul (by rwa [Nat.mul_comm])
  obtain ⟨nearHigh, heq⟩ := onGrid?_eq tie m count
  rw [heq] at h
  dsimp only at h
  split at h
  · next hlow hhigh =>
    cases h
    split
    · exact ⟨eq_of_beq hhigh, hbelow⟩
    · exact ⟨eq_of_beq hlow, Nat.le_of_lt hbelow⟩
  · next hlow _ =>
    cases h
    exact ⟨eq_of_beq hlow, Nat.le_of_lt hbelow⟩
  · next hhigh =>
    cases h
    exact ⟨eq_of_beq hhigh, hbelow⟩
  · cases h

/-- One of the points with seventeen digits reads back. -/
theorem onGrid?_seventeen (hm : 0 < m) (hfinite : m < infinity) :
    ∃ r, onGrid? tie m 17 = some r := by
  have hreads : ofDecimal? false (below m 16)
      (leadingExponent (fraction m).1 (fraction m).2 - 16) = some ⟨false, m⟩ ∨
      ofDecimal? false (below m 16 + 1)
        (leadingExponent (fraction m).1 (fraction m).2 - 16) = some ⟨false, m⟩ := by
    obtain ⟨hlow, hhigh⟩ := atScale_bounds (leads_fraction hm) 16
    have hD : 0 < (atScale (fraction m).1 (fraction m).2
        (leadingExponent (fraction m).1 (fraction m).2 - (16 : Nat))).2 :=
      atScale_snd_pos (fraction_snd_pos m) _
    obtain ⟨⟨N, D⟩, hscale⟩ : ∃ r, atScale (fraction m).1 (fraction m).2
      (leadingExponent (fraction m).1 (fraction m).2 - (16 : Nat)) = r := ⟨_, rfl⟩
    have hbelow : below m 16 = N / D := by rw [below, hscale]
    rw [hscale] at hlow hhigh hD
    dsimp only at hlow hhigh hD
    have hdiv : D * (N / D) + N % D = N := Nat.div_add_mod N D
    have hmod : N % D < D := Nat.mod_lt N hD
    have hten : 10 ^ 16 ≤ N / D := (Nat.le_div_iff_mul_le hD).2 hlow
    have hten' : N / D < 10 ^ 17 := Nat.div_lt_of_lt_mul (by rwa [Nat.mul_comm])
    rw [hbelow]
    generalize N / D = c at hdiv hten hten'
    rw [Nat.mul_comm] at hdiv
    -- The nearer of the two points is at most half a step away.
    by_cases hhalf : 2 * (N % D) ≤ D
    · refine .inl (ofDecimal?_of_seventeen hm hfinite hten (Nat.le_of_lt hten') ?_)
      exact nearestDecimal_of_close hm hscale hlow (by omega) (by omega)
    · have hstep : (c + 1) * D = c * D + D := by ring
      refine .inr (ofDecimal?_of_seventeen hm hfinite (by omega) hten' ?_)
      exact nearestDecimal_of_close hm hscale hlow (by omega) (by omega)
  obtain ⟨nearHigh, heq⟩ := onGrid?_eq tie m 16
  rw [heq]
  dsimp only
  rcases hreads with h | h
  · simp only [Nat.cast_ofNat, h, beq_self_eq_true]
    cases ofDecimal? false (below m 16 + 1) _ == _ <;> exact ⟨_, rfl⟩
  · simp only [Nat.cast_ofNat, h, beq_self_eq_true]
    cases ofDecimal? false (below m 16) _ == _ <;> exact ⟨_, rfl⟩

theorem stripZeros_spec (negative : Bool) (fuel : Nat) (r : Nat × Int) :
    ofDecimal? negative (stripZeros fuel r).1 (stripZeros fuel r).2 = ofDecimal? negative r.1 r.2 ∧
      (stripZeros fuel r).1 ≤ r.1 ∧ ((stripZeros fuel r).1 = 0 → r.1 = 0) := by
  induction fuel generalizing r with
  | zero => exact ⟨rfl, Nat.le_refl _, id⟩
  | succ fuel ih =>
    obtain ⟨d, e⟩ := r
    rw [stripZeros]
    split
    · next hzero =>
      obtain ⟨hsame, hle, hpos⟩ := ih (d / 10, e + 1)
      have hshift := ofDecimal?_mul_pow negative (d / 10) (e + 1) 1
      have hdigits : d / 10 * 10 ^ 1 = d := by omega
      have hexponent : e + 1 - (1 : Nat) = e := by omega
      rw [hdigits, hexponent] at hshift
      refine ⟨hsame.trans hshift.symm, ?_, fun h => ?_⟩
      · exact Nat.le_trans hle (Nat.div_le_self d 10)
      · have := hpos h
        omega
    · exact ⟨rfl, Nat.le_refl _, id⟩

theorem ofDecimal?_sign (negative : Bool) (digits : Nat) (exponent : Int) :
    ofDecimal? negative digits exponent =
      (ofDecimal? false digits exponent).map fun x => ⟨negative, x.magnitude⟩ := by
  rw [ofDecimal?_eq, ofDecimal?_eq]
  split
  · rfl
  · split
    · rfl
    · split
      · rfl
      · split <;> rfl

theorem shortest_of_found {r : Nat × Int} (hm : 0 < m) (negative : Bool)
    (hfind : ((List.range 17).findSome? fun n => onGrid? tie m (n + 1)) = some r) :
    ofDecimal? negative (shortest tie m).1 (shortest tie m).2 = some ⟨negative, m⟩ ∧
      0 < (shortest tie m).1 ∧ (shortest tie m).1 ≤ 10 ^ 17 := by
  have hshortest : shortest tie m = stripZeros 20 r := by rw [shortest, hfind]
  obtain ⟨d, E⟩ := r
  obtain ⟨count, hcount, hgrid⟩ := List.exists_of_findSome?_eq_some hfind
  obtain ⟨hreads, hle⟩ := onGrid?_spec hm hgrid
  obtain ⟨hsame, hless, hzero⟩ := stripZeros_spec negative 20 (d, E)
  have hpos : d ≠ 0 := by
    rintro rfl
    rw [ofDecimal?_zero, Option.some.injEq, Binary64.mk.injEq] at hreads
    omega
  have hcount : count + 1 ≤ 17 := List.mem_range.1 hcount
  rw [hshortest]
  refine ⟨?_, Nat.pos_of_ne_zero fun h => hpos (hzero h), ?_⟩
  · rw [hsame, ofDecimal?_sign, hreads]
    rfl
  · exact Nat.le_trans hless (Nat.le_trans hle (Nat.pow_le_pow_right (by decide) hcount))

/-- Digits that were found for a number read back as the number. -/
theorem shortest_spec (tie : Tie) (hm : 0 < m) (negative : Bool) :
    shortest tie m = (0, 0) ∨
      ofDecimal? negative (shortest tie m).1 (shortest tie m).2 = some ⟨negative, m⟩ ∧
        0 < (shortest tie m).1 ∧ (shortest tie m).1 ≤ 10 ^ 17 := by
  cases hfind : (List.range 17).findSome? fun n => onGrid? tie m (n + 1) with
  | none => exact .inl (by rw [shortest, hfind])
  | some r => exact .inr (shortest_of_found hm negative hfind)

/-- Digits are found for every finite number, since seventeen are enough. -/
theorem shortest_ne (tie : Tie) (hm : 0 < m) (hfinite : m < infinity) : shortest tie m ≠ (0, 0) := by
  cases hfind : (List.range 17).findSome? fun n => onGrid? tie m (n + 1) with
  | none =>
    obtain ⟨r, hr⟩ : ∃ r, onGrid? tie m 17 = some r := onGrid?_seventeen hm hfinite
    rw [List.findSome?_eq_none_iff] at hfind
    exact absurd (hfind 16 (by decide)) (by simp [hr])
  | some r =>
    intro h
    have hpos := (shortest_of_found hm false hfind).2.1
    rw [h] at hpos
    exact Nat.lt_irrefl 0 hpos

end Digits

section Numbers

variable {x : Binary64}

/-- The digits of a number, and the exponent of the last one. -/
def digits (x : Binary64) : Nat × Int :=
  if x.magnitude = 0 then (0, 0) else shortest .even x.magnitude

theorem digits_spec (x : Binary64) :
    x.digits = (0, 0) ∨ ofDecimal? x.negative x.digits.1 x.digits.2 = some x ∧
      0 < x.digits.1 ∧ x.digits.1 ≤ 10 ^ 17 := by
  rw [digits]
  split
  · exact .inl rfl
  · next hm => exact shortest_spec .even (Nat.pos_of_ne_zero hm) x.negative

/-- The digits of a finite number read back as the number. -/
theorem ofDecimal?_digits (hfinite : x.magnitude < infinity) :
    ofDecimal? x.negative x.digits.1 x.digits.2 = some x := by
  by_cases hm : x.magnitude = 0
  · rw [digits, if_pos hm, ofDecimal?_zero, ← hm]
  · have hpos := Nat.pos_of_ne_zero hm
    refine (x.digits_spec.resolve_left ?_).1
    rw [digits, if_neg hm]
    exact shortest_ne .even hpos hfinite

end Numbers

end RouteModule.Binary64
