import Mathlib.Data.List.TakeDrop
import RouteModule.Text

/-!
String literals of scripts, read from behind the opening quote as the rules of modules have it. What a
literal stands for is a list of code units. An escape is longer than what it stands for, so a literal
stands for the very text between its quotes just if that text needs none.
-/

namespace RouteModule.Script

/-- The code units of the character with a number. -/
def unitsOfNumber (n : Nat) : List Nat :=
  if n < 0x10000 then [n] else [0xD800 + (n - 0x10000) / 0x400, 0xDC00 + (n - 0x10000) % 0x400]

/-- A text as scripts have it, as its code units. -/
def units (t : Text) : List Nat := t.flatMap fun c => unitsOfNumber c.toNat

section Reader

/-- A line ends with the character. -/
def endsLine (c : Char) : Bool :=
  c = '\n' || c = '\r' || c.toNat = 0x2028 || c.toNat = 0x2029

/-- The code unit that an escape of one letter stands for. -/
def unescape? : Char → Option Nat
  | 'b' => some 8
  | 't' => some 9
  | 'n' => some 10
  | 'v' => some 11
  | 'f' => some 12
  | 'r' => some 13
  | _ => none

/-- Reads a code unit of a given count of digits of base sixteen. -/
def readHex? (count : Nat) (t : Text) : Option (List Nat × Text) :=
  if t.length < count then none
  else (Text.toNat? 16 (t.take count)).map fun n => ([n], t.drop count)

/-- Reads the number of a character from behind an opening brace. -/
def readBraced? (t : Text) : Option (List Nat × Text) :=
  match Text.toNat? 16 (t.takeWhile Text.isHexDigit), t.dropWhile Text.isHexDigit with
  | some n, '\x7d' :: rest => if n ≤ 0x10FFFF then some (unitsOfNumber n, rest) else none
  | _, _ => none

/-- Reads an escape from behind its backslash. The end of a line stands for nothing, a zero that no
digit follows for the first code unit, and a character that has no meaning of its own for itself; no
other digit can be escaped. -/
def readEscape? : Text → Option (List Nat × Text)
  | [] => none
  | 'x' :: rest => readHex? 2 rest
  | 'u' :: '\x7b' :: rest => readBraced? rest
  | 'u' :: rest => readHex? 4 rest
  | '\r' :: '\n' :: rest => some ([], rest)
  | c :: rest =>
    if c = '0' ∧ ¬ rest.head?.any Text.isDigit then some ([0], rest)
    else if Text.isDigit c then none
    else if endsLine c then some ([], rest)
    else some (((unescape? c).map fun n => [n]).getD (units [c]), rest)

theorem units_append (s t : Text) : units (s ++ t) = units s ++ units t := by
  simp [units]

theorem units_cons (c : Char) (t : Text) : units (c :: t) = unitsOfNumber c.toNat ++ units t := rfl

theorem one_le_length_unitsOfNumber (n : Nat) : 1 ≤ (unitsOfNumber n).length := by
  unfold unitsOfNumber
  split <;> simp

theorem length_unitsOfNumber_le (n : Nat) : (unitsOfNumber n).length ≤ 2 := by
  unfold unitsOfNumber
  split <;> simp

theorem length_le_length_units (t : Text) : t.length ≤ (units t).length := by
  induction t with
  | nil => simp
  | cons c t ih =>
    have hc := one_le_length_unitsOfNumber c.toNat
    rw [units_cons, List.length_append, List.length_cons]
    omega

/-- What is read is the start of a text, and at least as long as its value. -/
def Takes (t : Text) (value : List Nat) (rest : Text) : Prop :=
  ∃ used, t = used ++ rest ∧ value.length ≤ (units used).length

theorem takes_of_readHex? {count : Nat} (hcount : 1 ≤ count) {t rest : Text} {v : List Nat}
    (h : readHex? count t = some (v, rest)) : Takes t v rest := by
  unfold readHex? at h
  split at h
  · cases h
  · next hlength =>
    obtain ⟨n, -, hn⟩ := Option.map_eq_some_iff.1 h
    cases hn
    have hused := length_le_length_units (t.take count)
    rw [List.length_take] at hused
    refine ⟨t.take count, (List.take_append_drop count t).symm, ?_⟩
    simp only [List.length_singleton]
    omega

theorem takes_of_readBraced? {t rest : Text} {v : List Nat}
    (h : readBraced? t = some (v, rest)) : Takes t v rest := by
  have hsplit := (List.takeWhile_append_dropWhile (p := Text.isHexDigit) (l := t)).symm
  unfold readBraced? at h
  split at h
  · next n behind hdigits hbehind =>
    split at h
    · cases h
      rw [hbehind] at hsplit
      refine ⟨t.takeWhile Text.isHexDigit ++ ['\x7d'], by simpa using hsplit, ?_⟩
      have hvalue := length_unitsOfNumber_le n
      have hused := length_le_length_units (t.takeWhile Text.isHexDigit ++ ['\x7d'])
      have hsome : t.takeWhile Text.isHexDigit ≠ [] := by
        intro hnil
        rw [hnil] at hdigits
        cases hdigits
      have hpos := List.length_pos_iff.2 hsome
      rw [List.length_append, List.length_singleton] at hused
      omega
    · cases h
  · cases h

theorem Takes.cons {t rest : Text} {v : List Nat} (h : Takes t v rest) (c : Char) :
    Takes (c :: t) v rest := by
  obtain ⟨used, rfl, hlength⟩ := h
  refine ⟨c :: used, rfl, ?_⟩
  rw [units_cons, List.length_append]
  omega

theorem takes_of_readEscape? {t rest : Text} {v : List Nat}
    (h : readEscape? t = some (v, rest)) : Takes t v rest := by
  unfold readEscape? at h
  split at h
  · cases h
  · exact (takes_of_readHex? (by decide) h).cons 'x'
  · exact ((takes_of_readBraced? h).cons '\x7b').cons 'u'
  · exact (takes_of_readHex? (by decide) h).cons 'u'
  · cases h
    exact ⟨['\r', '\n'], rfl, Nat.zero_le _⟩
  · next c behind _ _ _ _ =>
    have hone := one_le_length_unitsOfNumber c.toNat
    split at h
    · cases h
      exact ⟨[c], rfl, by simpa [units] using hone⟩
    · split at h
      · cases h
      · split at h
        · cases h
          exact ⟨[c], rfl, Nat.zero_le _⟩
        · cases h
          refine ⟨[c], rfl, ?_⟩
          cases unescape? c with
          | none => exact Nat.le_refl _
          | some n => simpa [units] using hone

theorem length_lt_of_readEscape? {t rest : Text} {v : List Nat}
    (h : readEscape? t = some (v, rest)) : rest.length < t.length + 1 := by
  obtain ⟨used, rfl, -⟩ := takes_of_readEscape? h
  rw [List.length_append]
  omega

/-- Reads a literal from behind its opening quote: its value, and what stands behind the closing quote.
No literal goes on over the end of a line. -/
def readLiteral? (quote : Char) : Text → Option (List Nat × Text)
  | [] => none
  | c :: rest =>
    if c = quote then some ([], rest)
    else if c = '\\' then
      match h : readEscape? rest with
      | some (v, behind) =>
        have := length_lt_of_readEscape? h
        (readLiteral? quote behind).map fun r => (v ++ r.1, r.2)
      | none => none
    else if c = '\n' ∨ c = '\r' then none
    else (readLiteral? quote rest).map fun r => (unitsOfNumber c.toNat ++ r.1, r.2)
termination_by t => t.length

end Reader

section Plain

variable {quote : Char} {t rest : Text} {v : List Nat}

/-- A character that stands for itself between quotes. -/
def Plain (quote c : Char) : Prop := c ≠ quote ∧ c ≠ '\\' ∧ c ≠ '\n' ∧ c ≠ '\r'

instance (quote c : Char) : Decidable (Plain quote c) :=
  inferInstanceAs (Decidable (_ ∧ _ ∧ _ ∧ _))

theorem readLiteral?_plain (h : ∀ c ∈ t, Plain quote c) (rest : Text) :
    readLiteral? quote (t ++ quote :: rest) = some (units t, rest) := by
  induction t with
  | nil => simp [readLiteral?, units]
  | cons c t ih =>
    obtain ⟨hquote, hback, hfeed, hreturn⟩ := h c List.mem_cons_self
    rw [List.cons_append, readLiteral?, if_neg hquote, if_neg hback,
      if_neg (by simp [hfeed, hreturn]), ih fun d hd => h d (List.mem_cons_of_mem c hd)]
    rfl

/-- A literal that is read ends at a closing quote. Its value is at most as long as what stands in
front of that, and shorter if some character there does not stand for itself. -/
theorem readLiteral?_bound (h : readLiteral? quote t = some (v, rest)) :
    ∃ used, t = used ++ quote :: rest ∧ v.length ≤ (units used).length ∧
      (v.length = (units used).length → ∀ c ∈ used, Plain quote c) := by
  fun_induction readLiteral? quote t generalizing v rest with
  | case1 => cases h
  | case2 behind =>
    cases h
    exact ⟨[], rfl, Nat.le_refl _, fun _ _ hc => absurd hc List.not_mem_nil⟩
  | case3 rest' w behind hescape _ _ ih =>
    simp only [Option.map_eq_some_iff, Prod.mk.injEq, Prod.exists] at h
    obtain ⟨u, last, hread, rfl, rfl⟩ := h
    obtain ⟨escaped, rfl, hescaped⟩ := takes_of_readEscape? hescape
    obtain ⟨used, rfl, hused, -⟩ := ih hread
    have hunits : (units ('\\' :: (escaped ++ used))).length =
        1 + ((units escaped).length + (units used).length) := by
      rw [units_cons, units_append, List.length_append, List.length_append]
      rfl
    refine ⟨'\\' :: (escaped ++ used), by simp, ?_, ?_⟩
    · rw [hunits, List.length_append]
      omega
    · intro hequal
      rw [hunits, List.length_append] at hequal
      omega
  | case4 => cases h
  | case5 => cases h
  | case6 c behind hquote hback hend ih =>
    simp only [Option.map_eq_some_iff, Prod.mk.injEq, Prod.exists] at h
    obtain ⟨u, last, hread, rfl, rfl⟩ := h
    obtain ⟨used, rfl, hused, hplain⟩ := ih hread
    refine ⟨c :: used, rfl, ?_, ?_⟩
    · rw [units_cons, List.length_append, List.length_append]
      omega
    · intro hequal d hd
      rw [units_cons, List.length_append, List.length_append] at hequal
      rcases List.mem_cons.1 hd with rfl | hd
      · exact ⟨hquote, hback, fun hc => hend (.inl hc), fun hc => hend (.inr hc)⟩
      · exact hplain (by omega) d hd

/-- A text between quotes is read as itself, and up to the quote behind it, just if each of its
characters stands for itself. -/
theorem readLiteral?_eq_iff :
    readLiteral? quote (t ++ quote :: rest) = some (units t, rest) ↔ ∀ c ∈ t, Plain quote c := by
  constructor
  · intro h
    obtain ⟨used, hsplit, -, hplain⟩ := readLiteral?_bound h
    obtain rfl : t = used := List.append_cancel_right hsplit
    exact hplain rfl
  · exact fun h => readLiteral?_plain h rest

end Plain

end RouteModule.Script
