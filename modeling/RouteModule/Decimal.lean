import RouteModule.Text

/-!
Binary floating point numbers of 64 bits and their decimal texts, in exact natural-number
arithmetic. `Binary64.ofDecimal?` rounds a decimal to the nearest number, a tie going to the even
neighbour; `Binary64.shortest` finds the fewest digits that read back.
-/

namespace RouteModule

/-- A finite number of 64 bits: its sign, and the 63 remaining bits read as a natural number. -/
structure Binary64 where
  negative : Bool
  magnitude : Nat
  deriving DecidableEq, Repr

namespace Binary64

/-- The magnitude that stands for infinity; those of finite numbers are smaller. -/
def infinity : Nat := 2047 * Nat.pow 2 52

def zero : Binary64 := ⟨false, 0⟩

def isZero (x : Binary64) : Bool := x.magnitude == 0

/-- The mantissa and the exponent above the least one: the number is the mantissa times two to
the power of the exponent minus 1074. -/
def scaled (magnitude : Nat) : Nat × Nat :=
  let e := magnitude / Nat.pow 2 52
  if e = 0 then (magnitude, 0) else (magnitude % Nat.pow 2 52 + Nat.pow 2 52, e - 1)

def fraction (magnitude : Nat) : Nat × Nat :=
  let (m, e) := scaled magnitude
  if 1074 ≤ e then (m * Nat.pow 2 (e - 1074), 1) else (m, Nat.pow 2 (1074 - e))

/-- The quotient rounded to the nearest natural number, a tie going to the even one. -/
def roundDiv (num den : Nat) : Nat :=
  let q := num / den
  let twice := 2 * (num % den)
  if twice < den then q else if den < twice then q + 1 else q + q % 2

/-- The quotient `num / den` divided by two to the power `e - 1074`, as a fraction. -/
def unscale (num den e : Nat) : Nat × Nat :=
  if 1074 ≤ e then (num, den * Nat.pow 2 (e - 1074)) else (num * Nat.pow 2 (1074 - e), den)

/-- The magnitude nearest to a positive fraction; it may be `infinity` or larger. -/
def nearest (num den : Nat) : Nat :=
  -- the exponent for which the mantissa has 53 bits, or one less
  let e := num.log2 + 1074 - den.log2 - 53
  let (n, d) := unscale num den e
  let e := if n / d < Nat.pow 2 53 then e else e + 1
  let (n, d) := unscale num den e
  e * Nat.pow 2 52 + roundDiv n d

def round (num den : Nat) : Nat := if num = 0 then 0 else nearest num den

def mul (x y : Nat) : Nat :=
  round ((fraction x).1 * (fraction y).1) ((fraction x).2 * (fraction y).2)

def div (x y : Nat) : Nat :=
  round ((fraction x).1 * (fraction y).2) ((fraction x).2 * (fraction y).1)

def tenTo (e : Nat) : Nat := round (Nat.pow 10 e) 1

def digitCount (n : Nat) : Nat := (Nat.toDigits 10 n).length

/-- The finite number nearest to `digits * 10 ^ exponent`, if there is one. -/
def ofDecimal? (negative : Bool) (digits : Nat) (exponent : Int) : Option Binary64 :=
  if digits = 0 then some ⟨negative, 0⟩
  else
    let top := exponent + digitCount digits
    if top > 310 then none
    else if top < -330 then some ⟨negative, 0⟩
    else
      let magnitude := match exponent with
        | .ofNat e => nearest (digits * Nat.pow 10 e) 1
        | .negSucc e => nearest digits (Nat.pow 10 (e + 1))
      if magnitude < infinity then some ⟨negative, magnitude⟩ else none

/-- The least `k` from `k` on with `den ≤ num * 10 ^ k`, within a bound on the steps. -/
def leadingZeros (num den : Nat) : Nat → Nat → Nat
  | 0, k => k
  | fuel + 1, k => if den ≤ num * Nat.pow 10 k then k else leadingZeros num den fuel (k + 1)

def leadingExponent (num den : Nat) : Int :=
  if den ≤ num then (digitCount (num / den) : Int) - 1 else -(leadingZeros num den 400 1 : Int)

/-- `num / den` divided by `10 ^ e`, as a fraction. -/
def atScale (num den : Nat) : Int → Nat × Nat
  | .ofNat e => (num, den * Nat.pow 10 e)
  | .negSucc e => (num * Nat.pow 10 (e + 1), den)

/-- Which of two neighbours stands for the middle between them. -/
inductive Tie where
  | even
  | high
  deriving DecidableEq, Repr

def Tie.goesHigh : Tie → Nat → Bool
  | .even, low => low % 2 == 1
  | .high, _ => true

/-- Of the two points next to a positive number on the grid of `count` digits, the nearer one that
reads back: its digits and the exponent of the last one. -/
def onGrid? (tie : Tie) (magnitude count : Nat) : Option (Nat × Int) :=
  let (num, den) := fraction magnitude
  let e : Int := leadingExponent num den - (count : Int) + 1
  let (n, d) := atScale num den e
  let low := n / d
  let twice := 2 * (n % d)
  let nearHigh := d < twice || (twice == d && tie.goesHigh low)
  let readsBack (digits : Nat) : Bool := ofDecimal? false digits e == some ⟨false, magnitude⟩
  match readsBack low, readsBack (low + 1) with
  | true, true => some (if nearHigh then low + 1 else low, e)
  | true, false => some (low, e)
  | false, true => some (low + 1, e)
  | false, false => none

def stripZeros : Nat → Nat × Int → Nat × Int
  | 0, x => x
  | fuel + 1, (d, e) =>
    if d ≠ 0 ∧ d % 10 = 0 then stripZeros fuel (d / 10, e + 1) else (d, e)

/-- The fewest digits that read back as the positive number, nearest to it among those, with the
exponent of the last digit. -/
def shortest (tie : Tie) (magnitude : Nat) : Nat × Int :=
  match (List.range 17).findSome? fun n => onGrid? tie magnitude (n + 1) with
  | some x => stripZeros 20 x
  | none => (0, 0)

/-- The text of a number: the fewest digits that read back, a tie going to the even digit. They have
a point and at least one place where the first digit stands for `10 ^ p` and `p` lies between -5 and
15, and otherwise an exponent with a sign. -/
def text (x : Binary64) : Text :=
  let sign : Text := if x.negative then ['-'] else []
  if x.magnitude = 0 then sign ++ ['0', '.', '0']
  else
    let (d, e) := shortest .even x.magnitude
    let digits := Text.ofNat d
    let p : Int := e + digits.length - 1
    sign ++
      if 0 ≤ p ∧ p ≤ 15 then
        let whole := p.toNat + 1
        let shown := digits ++ List.replicate (whole - digits.length) '0'
        let places := shown.drop whole
        shown.take whole ++ '.' :: (if places.isEmpty then ['0'] else places)
      else if -5 ≤ p ∧ p < 0 then
        ['0', '.'] ++ List.replicate ((-p).toNat - 1) '0' ++ digits
      else
        let mantissa := match digits with
          | c :: [] => [c]
          | c :: rest => c :: '.' :: rest
          | [] => []
        mantissa ++ 'e' :: (if p < 0 then '-' else '+') :: Text.ofNat p.natAbs

/-- The text of a number without an exponent, whatever its size; it has a point only if there are
places behind it. A tie goes to the digits farther from zero. -/
def decimal (x : Binary64) : Text :=
  let sign : Text := if x.negative then ['-'] else []
  if x.magnitude = 0 then sign ++ ['0']
  else
    let (d, e) := shortest .high x.magnitude
    let digits := Text.ofNat d
    sign ++ match e with
      | .ofNat n => digits ++ List.replicate n '0'
      | .negSucc n =>
        let padded := List.replicate (n + 2 - digits.length) '0' ++ digits
        let whole := padded.length - (n + 1)
        padded.take whole ++ '.' :: padded.drop whole

/-- The text of a number without an exponent, with at least one place. -/
def positional (x : Binary64) : Text :=
  let t := x.decimal
  if t.contains '.' then t else t ++ ['.', '0']

/-- What is left of a number when another is taken away from it as often as it fits: exact, and with
the sign of the number. There is none for zero. -/
def remainder? (x y : Binary64) : Option Binary64 :=
  if y.isZero then none
  else
    let (m, e) := scaled x.magnitude
    let (n, f) := scaled y.magnitude
    let least := min e f
    let rest := m * Nat.pow 2 (e - least) % (n * Nat.pow 2 (f - least))
    some ⟨x.negative, if rest = 0 then 0 else nearest (rest * Nat.pow 2 least) (Nat.pow 2 1074)⟩

def toFloat (x : Binary64) : Float :=
  Float.ofBits (UInt64.ofNat (x.magnitude + if x.negative then Nat.pow 2 63 else 0))

/-- The finite number that the machine's arithmetic gave, if it is one. -/
def ofFloat? (f : Float) : Option Binary64 :=
  let bits := f.toBits.toNat
  let magnitude := bits % Nat.pow 2 63
  if magnitude < infinity then some ⟨decide (Nat.pow 2 63 ≤ bits), magnitude⟩ else none

def ofInt (i : Int) : Binary64 :=
  (ofDecimal? (decide (i < 0)) i.natAbs 0).getD ⟨decide (i < 0), infinity - 1⟩

/-- Where a number stands among the finite ones; zero has one place, whatever its sign. -/
def rank (x : Binary64) : Int := if x.negative then -(x.magnitude : Int) else x.magnitude

theorem nearest_one_pos (n : Nat) : 0 < nearest n 1 := by
  have hlog : Nat.log2 1 = 0 := by decide
  have hpow : 0 < Nat.pow 2 52 := Nat.pow_pos (by decide)
  unfold nearest
  generalize Nat.pow 2 52 = p at hpow ⊢
  generalize Nat.pow 2 53 = r
  rw [hlog]
  generalize unscale n 1 (n.log2 + 1074 - 0 - 53) = q
  dsimp only
  refine Nat.add_pos_left (Nat.mul_pos ?_ hpow) _
  split <;> omega

theorem ofDecimal?_zero (negative : Bool) (e : Int) :
    ofDecimal? negative 0 e = some ⟨negative, 0⟩ := by
  simp only [ofDecimal?, if_true]

/-- A whole number that is not zero keeps its sign and does not become zero. -/
theorem magnitude_pos_of_ofDecimal? {negative : Bool} {n : Nat} {x : Binary64} (hn : n ≠ 0)
    (h : ofDecimal? negative n 0 = some x) : x.negative = negative ∧ 0 < x.magnitude := by
  have hlow : ¬ ((0 : Int) + digitCount n < -330) := by omega
  have hzero : (0 : Int) = .ofNat 0 := rfl
  have hmag := nearest_one_pos (n * Nat.pow 10 0)
  simp only [ofDecimal?, hn, hlow, if_false] at h
  rw [hzero] at h
  generalize nearest (n * Nat.pow 10 0) 1 = m at h hmag
  split at h
  · cases h
  · split at h
    · cases h
      exact ⟨rfl, hmag⟩
    · cases h

theorem one_lt_infinity : 1 < infinity := by
  have hpow : 0 < Nat.pow 2 52 := Nat.pow_pos (by decide)
  unfold infinity
  omega

@[simp] theorem rank_ofInt_zero : (ofInt 0).rank = 0 := by
  have h : ofInt 0 = ⟨false, 0⟩ := by
    rw [ofInt, Int.natAbs_zero, ofDecimal?_zero, Option.getD_some]
    rfl
  rw [h]
  rfl

/-- A positive integer stays positive, however it is rounded. -/
theorem rank_ofInt_pos {i : Int} (h : 0 < i) : 0 < (ofInt i).rank := by
  have hneg : ¬ i < 0 := by omega
  have habs : i.natAbs ≠ 0 := by omega
  simp only [ofInt, hneg, decide_false]
  cases hx : ofDecimal? false i.natAbs 0 with
  | none =>
    simp only [Option.getD_none, rank]
    exact Int.natCast_pos.2 (Nat.sub_pos_of_lt one_lt_infinity)
  | some x =>
    obtain ⟨hs, hm⟩ := magnitude_pos_of_ofDecimal? habs hx
    simp only [Option.getD_some, rank, hs]
    exact Int.natCast_pos.2 hm

end Binary64

end RouteModule
