import Mathlib.Algebra.Group.Nat.Defs
import Mathlib.Data.List.Basic
import RouteModule.Text

/-!
Characters as numbers: as the digits of base sixteen that escapes have, and as UTF-8 bytes. Every text
is read back from its bytes, whatever its characters are, and the order of texts is the order of
their bytes. The first bytes of two characters tell the smaller one where the encodings have different
lengths, and else the bytes are the digits of the two, the highest first.
-/

namespace RouteModule.Text

/-- The digits of a number in upper case, of a given count. -/
abbrev upperHex (width n : Nat) : Text := asciiUpper (hexPadded width n)

theorem digitValue?_upper : ∀ d < 16, digitValue? 16 (hexDigit d).toUpper = some d := by decide

theorem upperHex_succ (width n : Nat) :
    upperHex (width + 1) n = upperHex width (n / 16) ++ [(hexDigit (n % 16)).toUpper] := by
  simp [upperHex, asciiUpper, hexPadded]

@[simp] theorem length_upperHex (width n : Nat) : (upperHex width n).length = width := by
  induction width generalizing n with
  | zero => rfl
  | succ width ih => rw [upperHex_succ, List.length_append, ih, List.length_singleton]

/-- Enough digits of a number are read back as the number. -/
theorem toNat?_upperHex {width n : Nat} (hwidth : 0 < width) (h : n < 16 ^ width) :
    toNat? 16 (upperHex width n) = some n := by
  have hfold : (upperHex width n).foldl
      (fun acc d => do return (← acc) * 16 + (← digitValue? 16 d)) (some 0) = some n := by
    clear hwidth
    induction width generalizing n with
    | zero =>
      obtain rfl : n = 0 := by simpa using h
      rfl
    | succ width ih =>
      have hdiv : n / 16 < 16 ^ width := by
        rw [Nat.pow_succ] at h
        omega
      have hsum : n / 16 * 16 + n % 16 = n := by omega
      rw [upperHex_succ, List.foldl_append, ih hdiv]
      simp [digitValue?_upper _ (Nat.mod_lt n (by decide)), hsum]
  cases hdigits : upperHex width n with
  | nil =>
    have hlength := length_upperHex width n
    rw [hdigits] at hlength
    exact absurd hlength.symm (Nat.ne_of_gt hwidth)
  | cons c t =>
    rw [hdigits] at hfold
    exact hfold

/-- A number below 256 is that of its byte. -/
theorem toNat_toUInt8 {n : Nat} (h : n < 0x100) : n.toUInt8.toNat = n := by
  rw [Nat.toUInt8, UInt8.toNat_ofNat', Nat.mod_eq_of_lt h]

/-- A continuation byte gives its six low bits back. -/
theorem continuation?_of_lt {n : Nat} (h : n < 0x40) :
    continuation? (0x80 + n).toUInt8 = some n := by
  have hbyte : (0x80 + n).toUInt8.toNat = 0x80 + n := toNat_toUInt8 (by omega)
  have hrange : (decide (0x80 ≤ 0x80 + n) && decide (0x80 + n ≤ 0xBF)) = true := by
    simp only [Bool.and_eq_true, decide_eq_true_eq]
    omega
  rw [continuation?, hbyte, if_pos hrange, Nat.add_sub_cancel_left]

/-- A scalar value that is not too small gives its character back. -/
theorem scalar?_toNat {least : Nat} {c : Char} (h : least ≤ c.toNat) :
    scalar? least c.toNat = some c := by
  have hvalid : c.toNat.isValidChar := c.valid
  have hval : c.toNat.toUInt32 = c.val := UInt32.ofNat_toNat
  rw [scalar?, dif_pos hvalid, if_pos h]
  exact congrArg some (Char.ext hval)

/-- The bytes of a character are read back as the character, whatever follows. -/
theorem ofBytes?_charBytes (c : Char) (rest : Bytes) :
    ofBytes? (charBytes c ++ rest) = (ofBytes? rest).map (c :: ·) := by
  have hbound : c.toNat < 0x110000 := by
    have hvalid : c.toNat.isValidChar := c.valid
    rw [Nat.isValidChar] at hvalid
    omega
  have hscalar : ∀ least, least ≤ c.toNat → scalar? least c.toNat = some c :=
    fun least => scalar?_toNat
  simp only [charBytes]
  generalize c.toNat = n at hbound hscalar ⊢
  have hlow : continuation? (0x80 + n % 0x40).toUInt8 = some (n % 0x40) :=
    continuation?_of_lt (by omega)
  have hmiddle : continuation? (0x80 + n / 0x40 % 0x40).toUInt8 = some (n / 0x40 % 0x40) :=
    continuation?_of_lt (by omega)
  have hhigh : continuation? (0x80 + n / 0x1000 % 0x40).toUInt8 = some (n / 0x1000 % 0x40) :=
    continuation?_of_lt (by omega)
  split
  · next h1 =>
    have hlead : n.toUInt8.toNat = n := toNat_toUInt8 (by omega)
    rw [List.cons_append, List.nil_append, ofBytes?.eq_def]
    simp only [hlead, if_pos h1, hscalar 0 (by omega), Option.bind_eq_bind, Option.bind_some]
    cases ofBytes? rest <;> rfl
  · split
    · have hlead : (0xC0 + n / 0x40).toUInt8.toNat = 0xC0 + n / 0x40 := toNat_toUInt8 (by omega)
      have hsum : (0xC0 + n / 0x40 - 0xC0) * 0x40 + n % 0x40 = n := by omega
      rw [List.cons_append, List.cons_append, List.nil_append, ofBytes?.eq_def]
      simp only [hlead, hlow]
      rw [if_neg (by omega), if_neg (by omega), if_pos (by omega)]
      simp only [Option.bind_eq_bind, Option.bind_some, hsum, hscalar 0x80 (by omega)]
      cases ofBytes? rest <;> rfl
    · split
      · have hlead : (0xE0 + n / 0x1000).toUInt8.toNat = 0xE0 + n / 0x1000 :=
          toNat_toUInt8 (by omega)
        have hsum : (0xE0 + n / 0x1000 - 0xE0) * 0x1000 + n / 0x40 % 0x40 * 0x40 + n % 0x40 = n := by
          omega
        rw [List.cons_append, List.cons_append, List.cons_append, List.nil_append, ofBytes?.eq_def]
        simp only [hlead, hlow, hmiddle]
        rw [if_neg (by omega), if_neg (by omega), if_neg (by omega), if_pos (by omega)]
        simp only [Option.bind_eq_bind, Option.bind_some, hsum, hscalar 0x800 (by omega)]
        cases ofBytes? rest <;> rfl
      · have hlead : (0xF0 + n / 0x40000).toUInt8.toNat = 0xF0 + n / 0x40000 :=
          toNat_toUInt8 (by omega)
        have hsum : (0xF0 + n / 0x40000 - 0xF0) * 0x40000 + n / 0x1000 % 0x40 * 0x1000 +
            n / 0x40 % 0x40 * 0x40 + n % 0x40 = n := by
          omega
        rw [List.cons_append, List.cons_append, List.cons_append, List.cons_append, List.nil_append,
          ofBytes?.eq_def]
        simp only [hlead, hlow, hmiddle, hhigh]
        rw [if_neg (by omega), if_neg (by omega), if_neg (by omega), if_neg (by omega)]
        -- a definitional step here would make the kernel multiply by counting
        simp -implicitDefEqProofs only [Option.bind_eq_bind, Option.bind_some, hsum,
          hscalar 0x10000 (by omega)]
        cases ofBytes? rest <;> rfl

theorem ofBytes?_toBytes (t : Text) : ofBytes? (toBytes t) = some t := by
  induction t with
  | nil => rfl
  | cons c t ih =>
    have hcons : toBytes (c :: t) = charBytes c ++ toBytes t := rfl
    rw [hcons, ofBytes?_charBytes, ih]
    rfl

variable {t u : Text}

/-- Bytes are compared as the numbers they hold. -/
theorem cons_lt_cons {m n : Nat} (hm : m < 0x100) (hn : n < 0x100) (x y : Bytes) :
    m.toUInt8 :: x < n.toUInt8 :: y ↔ m < n ∨ m = n ∧ x < y := by
  rw [List.cons_lt_cons_iff, UInt8.lt_iff_toNat_lt, ← UInt8.toNat_inj]
  simp only [Nat.toUInt8, UInt8.toNat_ofNat']
  rw [Nat.mod_eq_of_lt hm, Nat.mod_eq_of_lt hn]

/-- A smaller character has smaller bytes, whatever stands behind the two. -/
theorem charBytes_append_lt {c d : Char} (h : c.toNat < d.toNat) (x y : Bytes) :
    charBytes c ++ x < charBytes d ++ y := by
  have hd : d.toNat < 0x110000 := by
    rcases d.valid with hv | hv
    · exact Nat.lt_trans hv (by decide)
    · exact hv.2
  unfold charBytes
  generalize c.toNat = m at h
  generalize d.toNat = n at h hd
  dsimp only
  -- One case for each pair of lengths; those where the smaller number is longer are void.
  repeat' split
  all_goals
    first
    | omega
    | simp (disch := omega) only [List.cons_append, List.nil_append, cons_lt_cons]
      omega

theorem append_lt_append (a x y : Bytes) : a ++ x < a ++ y ↔ x < y := by
  induction a with
  | nil => rfl
  | cons b a ih =>
    have hirrefl : ¬ b < b := UInt8.lt_irrefl b
    rw [List.cons_append, List.cons_append, List.cons_lt_cons_iff, ih]
    simp [hirrefl]

/-- A text stands before another one just if its bytes do. -/
theorem before_iff_toBytes : before t u = true ↔ t.toBytes < u.toBytes := by
  induction t generalizing u with
  | nil =>
    cases u with
    | nil => simp [before, toBytes]
    | cons d u =>
      have hne : charBytes d ≠ [] := by
        unfold charBytes
        dsimp only
        repeat' split
        all_goals simp
      obtain ⟨b, bs, hb⟩ := List.exists_cons_of_ne_nil hne
      simp [before, toBytes, hb]
  | cons c t ih =>
    cases u with
    | nil => simp [before, toBytes]
    | cons d u =>
      have hct : toBytes (c :: t) = charBytes c ++ toBytes t := List.flatMap_cons
      have hdu : toBytes (d :: u) = charBytes d ++ toBytes u := List.flatMap_cons
      rw [before, hct, hdu]
      split
      · next heq =>
        subst heq
        rw [ih, append_lt_append]
      · next hne =>
        have hnat : c.toNat ≠ d.toNat := fun e => hne (Char.toNat_inj.1 e)
        rw [decide_eq_true_iff]
        constructor
        · exact fun hlt => charBytes_append_lt hlt _ _
        · intro hlt
          by_contra hnot
          have hgt : d.toNat < c.toNat := by omega
          exact List.lt_asymm hlt (charBytes_append_lt hgt _ _)

end RouteModule.Text
