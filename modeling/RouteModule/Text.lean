/-!
Text as the list of its characters. The module holds the edge trimming, splitting and ordering that
the readers and writers share; every function is a recursion on the list, so that facts about it
are proved by induction on the text. UTF-8 is over lists of bytes: encoding is total, and decoding
refuses every sequence that is not the shortest form of a scalar value.
-/

namespace RouteModule

/-- A text is the list of its characters. -/
abbrev Text := List Char

abbrev Bytes := List UInt8

namespace Text

/-- The characters with the Unicode property White_Space. -/
def isBlank (c : Char) : Bool :=
  let n := c.toNat
  (9 ≤ n && n ≤ 13) || n == 0x20 || n == 0x85 || n == 0xA0 || n == 0x1680 ||
  (0x2000 ≤ n && n ≤ 0x200A) || n == 0x2028 || n == 0x2029 || n == 0x202F || n == 0x205F ||
  n == 0x3000

def dropEndWhile (p : Char → Bool) (t : Text) : Text :=
  (t.reverse.dropWhile p).reverse

def trimBy (p : Char → Bool) (t : Text) : Text :=
  dropEndWhile p (t.dropWhile p)

def trimStart (t : Text) : Text := t.dropWhile isBlank

def trimEnd (t : Text) : Text := dropEndWhile isBlank t

/-- What follows `lead`, if the text starts with it. -/
def after? : Text → Text → Option Text
  | [], t => some t
  | _ :: _, [] => none
  | l :: ls, c :: t => if l = c then after? ls t else none

def startsWith (lead t : Text) : Bool := (after? lead t).isSome

/-- Splits at every occurrence of a separator; there is always at least one piece. -/
def splitAt (sep : Char) : Text → List Text
  | [] => [[]]
  | c :: t =>
    match splitAt sep t with
    | [] => [[c]]
    | piece :: pieces => if c = sep then [] :: piece :: pieces else (c :: piece) :: pieces

def join (sep : Text) : List Text → Text
  | [] => []
  | [piece] => piece
  | piece :: pieces => piece ++ sep ++ join sep pieces

def substitute (old new : Char) (t : Text) : Text := t.map fun c => if c = old then new else c

/-- The order by code point, which is also the order of the UTF-8 bytes. -/
def before : Text → Text → Bool
  | _, [] => false
  | [], _ :: _ => true
  | c :: t, d :: u => if c = d then before t u else c.toNat < d.toNat

def ofNat (n : Nat) : Text := Nat.toDigits 10 n

/-- An integer in decimal, with a sign only if it is negative. -/
def ofInt : Int → Text
  | .ofNat n => ofNat n
  | .negSucc n => '-' :: ofNat (n + 1)

def digitValue? (base : Nat) (c : Char) : Option Nat :=
  let n := c.toNat
  let v := if 48 ≤ n && n ≤ 57 then n - 48
    else if 97 ≤ n && n ≤ 102 then n - 87
    else if 65 ≤ n && n ≤ 70 then n - 55
    else base
  if v < base then some v else none

/-- Reads a text that consists of digits of the base, and of at least one. -/
def toNat? (base : Nat) : Text → Option Nat
  | [] => none
  | c :: t => (c :: t).foldl (fun acc d => do return (← acc) * base + (← digitValue? base d)) (some 0)

def isDigit (c : Char) : Bool := '0' ≤ c && c ≤ '9'

def isHexDigit (c : Char) : Bool := (digitValue? 16 c).isSome

def hexDigit (n : Nat) : Char := if n < 10 then Char.ofNat (48 + n) else Char.ofNat (87 + n)

/-- The last digits of base sixteen of a number, of a given count. -/
def hexPadded : Nat → Nat → Text
  | 0, _ => []
  | width + 1, n => hexPadded width (n / 16) ++ [hexDigit (n % 16)]

def asciiUpper (t : Text) : Text := t.map Char.toUpper

@[simp] theorem after?_append (lead t : Text) : after? lead (lead ++ t) = some t := by
  induction lead with
  | nil => rfl
  | cons c lead ih => simp [after?, ih]

theorem eq_append_of_after? {lead t rest : Text} (h : after? lead t = some rest) :
    t = lead ++ rest := by
  induction lead generalizing t with
  | nil => simpa [after?] using h
  | cons c lead ih =>
    cases t with
    | nil => simp [after?] at h
    | cons d t =>
      by_cases hc : c = d
      · simp [after?, hc] at h
        simp [hc, ih h]
      · simp [after?, hc] at h

theorem before_irrefl (t : Text) : before t t = false := by
  induction t with
  | nil => rfl
  | cons c t ih => simp [before, ih]

theorem before_trans {t u v : Text} (h : before t u) (k : before u v) : before t v := by
  induction t generalizing u v with
  | nil =>
    cases u <;> cases v <;> simp_all [before]
  | cons c t ih =>
    cases u with
    | nil => simp [before] at h
    | cons d u =>
      cases v with
      | nil => simp [before] at k
      | cons e v =>
        by_cases hcd : c = d
        · by_cases hde : d = e
          · subst hcd hde
            simp [before] at h k ⊢
            exact ih h k
          · subst hcd
            simpa [before, hde] using k
        · by_cases hde : d = e
          · subst hde
            simpa [before, hcd] using h
          · simp [before, hcd] at h
            simp [before, hde] at k
            have hce : c ≠ e := by
              rintro rfl
              omega
            simp [before, hce]
            omega

theorem before_or_before {t u : Text} (h : t ≠ u) : before t u ∨ before u t := by
  induction t generalizing u with
  | nil =>
    cases u with
    | nil => exact absurd rfl h
    | cons d u => exact Or.inl rfl
  | cons c t ih =>
    cases u with
    | nil => exact Or.inr rfl
    | cons d u =>
      by_cases hcd : c = d
      · subst hcd
        have hne : t ≠ u := fun e => h (e ▸ rfl)
        simpa [before] using ih hne
      · have hne : c.toNat ≠ d.toNat := fun e => hcd (Char.toNat_inj.1 e)
        have hdc : d ≠ c := fun e => hcd e.symm
        simp [before, hcd, hdc]
        omega

theorem splitAt_ne_nil (sep : Char) (t : Text) : splitAt sep t ≠ [] := by
  induction t with
  | nil => simp [splitAt]
  | cons c t ih =>
    rw [splitAt]
    split
    · simp
    · split <;> simp

/-- Joining the pieces with the separator gives the text back. -/
theorem join_splitAt (sep : Char) (t : Text) : join [sep] (splitAt sep t) = t := by
  induction t with
  | nil => rfl
  | cons c t ih =>
    cases h : splitAt sep t with
    | nil => exact absurd h (splitAt_ne_nil sep t)
    | cons piece pieces =>
      by_cases hc : c = sep
      · simp only [splitAt, h, hc, ↓reduceIte]
        rw [h] at ih
        simp [join, ih]
      · rw [h] at ih
        cases pieces with
        | nil => simp_all [splitAt, join]
        | cons => simp_all [splitAt, join]

def firstLine (t : Text) : Text := t.takeWhile (· ≠ '\n')

def charBytes (c : Char) : Bytes :=
  let n := c.toNat
  if n < 0x80 then [n.toUInt8]
  else if n < 0x800 then [(0xC0 + n / 0x40).toUInt8, (0x80 + n % 0x40).toUInt8]
  else if n < 0x10000 then
    [(0xE0 + n / 0x1000).toUInt8, (0x80 + n / 0x40 % 0x40).toUInt8, (0x80 + n % 0x40).toUInt8]
  else
    [(0xF0 + n / 0x40000).toUInt8, (0x80 + n / 0x1000 % 0x40).toUInt8,
      (0x80 + n / 0x40 % 0x40).toUInt8, (0x80 + n % 0x40).toUInt8]

def toBytes (t : Text) : Bytes := t.flatMap charBytes

def byteLength (t : Text) : Nat := t.toBytes.length

def continuation? (b : UInt8) : Option Nat :=
  if 0x80 ≤ b.toNat && b.toNat ≤ 0xBF then some (b.toNat - 0x80) else none

/-- The character of a scalar value of at least `least`. -/
def scalar? (least n : Nat) : Option Char :=
  if h : n.isValidChar then if least ≤ n then some ⟨n.toUInt32, by
      rcases h with h | h
      · exact Or.inl (by simp [Nat.toUInt32, UInt32.toNat_ofNat']; omega)
      · exact Or.inr (by simp [Nat.toUInt32, UInt32.toNat_ofNat']; omega)⟩ else none
  else none

/-- Reads UTF-8; `none` if some byte does not belong to a well-formed character. -/
def ofBytes? : Bytes → Option Text
  | [] => some []
  | a :: rest =>
    let n := a.toNat
    if n < 0x80 then return (← scalar? 0 n) :: (← ofBytes? rest)
    else if n < 0xC0 then none
    else if n < 0xE0 then
      match rest with
      | b :: rest => do
        let c ← scalar? 0x80 ((n - 0xC0) * 0x40 + (← continuation? b))
        return c :: (← ofBytes? rest)
      | [] => none
    else if n < 0xF0 then
      match rest with
      | b :: c :: rest => do
        let c ← scalar? 0x800
          ((n - 0xE0) * 0x1000 + (← continuation? b) * 0x40 + (← continuation? c))
        return c :: (← ofBytes? rest)
      | _ => none
    else
      match rest with
      | b :: c :: d :: rest => do
        let c ← scalar? 0x10000 ((n - 0xF0) * 0x40000 + (← continuation? b) * 0x1000 +
          (← continuation? c) * 0x40 + (← continuation? d))
        return c :: (← ofBytes? rest)
      | _ => none

end Text

end RouteModule
